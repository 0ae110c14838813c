import Asterion.Book.OrderBook

/-! What the default book represents: for each side one queue of orders in price-time
priority, with the index pointing at exactly the queued orders. Every operation is
described here by its effect on the two queues. -/
namespace Asterion

open Lib Lib.SortedMap Lib.Buckets

/-- Strictly better price on the order's own side. -/
def Order.outranks (side : Side) (a b : Order) : Prop := before side a.priceTicks b.priceTicks

instance (side : Side) : DecidableRel (Order.outranks side) := fun a b =>
  inferInstanceAs (Decidable (before side a.priceTicks b.priceTicks))

def Order.locator (o : Order) : Locator := ⟨o.side, o.priceTicks, o.orderId⟩

/-- The order comes to rest behind everything at its price or better. -/
def enqueue (o : Order) (queue : List Order) : List Order :=
  queue.orderedInsert (Order.outranks o.side) o

def dequeue (orderId : Nat) (queue : List Order) : List Order :=
  queue.filter (fun o => o.orderId ≠ orderId)

def shrink (orderId : Nat) (quantity : Int) (queue : List Order) : List Order :=
  queue.map (fun o => if o.orderId = orderId then { o with quantity := o.quantity - quantity } else o)

namespace OrderBook

def queue (b : OrderBook) (side : Side) : List Order := flat PriceLevel.orders (b.levels side)

def resting (b : OrderBook) : List Order := b.queue .buy ++ b.queue .sell

structure LevelWF (symbolId : Nat) (side : Side) (e : Int × PriceLevel) : Prop where
  key : e.2.priceTicks = e.1
  nonempty : e.2.orders ≠ []
  total : e.2.totalQuantity = (e.2.orders.map (·.quantity)).sum
  valid : ∀ o ∈ e.2.orders, isValidRestingOrder o = true
  symbol : ∀ o ∈ e.2.orders, o.symbolId = symbolId
  filed : ∀ o ∈ e.2.orders, o.side = side ∧ o.priceTicks = e.1

/-- The representation invariant. -/
structure WF (b : OrderBook) : Prop where
  levels : ∀ side, ∀ e ∈ b.levels side, LevelWF b.symbolId side e
  ids : (b.resting.map (·.orderId)).Nodup
  index : ∀ id locator, b.orderIndex.lookup id = some locator ↔
    ∃ o ∈ b.resting, o.orderId = id ∧ locator = o.locator

@[simp] theorem levels_none (b : OrderBook) : b.levels .none = [] := rfl
@[simp] theorem queue_none (b : OrderBook) : b.queue .none = [] := rfl

theorem levels_sorted (b : OrderBook) (side : Side) :
    (b.levels side).Pairwise (fun a c => before side a.1 c.1) := by
  cases side
  · exact .nil
  · exact b.bids.sorted
  · exact b.asks.sorted

theorem level_eq_some {b : OrderBook} {side : Side} {p : Int} {l : PriceLevel} :
    b.level side p = some l ↔ (p, l) ∈ b.levels side := by
  cases side
  · simp [level]
  · exact find?_eq_some b.bids
  · exact find?_eq_some b.asks

theorem valid_side {b : OrderBook} {side : Side} {o : Order} (h : o ∈ b.queue side) :
    isValidSide side = true := by
  cases side
  · simp at h
  · rfl
  · rfl

section Reading
variable {b : OrderBook} (wf : b.WF)
include wf

theorem filed (side : Side) : Filed PriceLevel.orders Order.priceTicks (b.levels side) :=
  fun e he => ⟨(wf.levels side e he).nonempty, fun o ho => ((wf.levels side e he).filed o ho).2⟩

theorem queue_sorted (side : Side) :
    (b.queue side).Pairwise (fun x y => ¬ Order.outranks side y x) :=
  flat_sorted (b.levels_sorted side) (filed wf side)

theorem mem_queue {s : Side} {o : Order} (h : o ∈ b.queue s) :
    o.side = s ∧ isValidRestingOrder o = true ∧ o.symbolId = b.symbolId := by
  obtain ⟨e, he, ho⟩ := mem_flat.mp h
  have hl := wf.levels s e he
  exact ⟨(hl.filed o ho).1, hl.valid o ho, hl.symbol o ho⟩

theorem mem_resting {o : Order} : o ∈ b.resting ↔ o ∈ b.queue o.side := by
  constructor
  · intro h
    rcases List.mem_append.mp h with h | h
    · exact (mem_queue wf h).1 ▸ h
    · exact (mem_queue wf h).1 ▸ h
  · intro h
    have hs := valid_side h
    cases hside : o.side with
    | none => simp [hside] at hs
    | buy => exact List.mem_append_left _ (hside ▸ h)
    | sell => exact List.mem_append_right _ (hside ▸ h)

theorem mem_resting_of_queue {s : Side} {o : Order} (h : o ∈ b.queue s) : o ∈ b.resting :=
  (mem_resting wf).mpr ((mem_queue wf h).1 ▸ h)

/-- An order is determined by its id. -/
theorem resting_unique {o x : Order} (ho : o ∈ b.resting) (hx : x ∈ b.resting)
    (h : o.orderId = x.orderId) : o = x :=
  List.inj_on_of_nodup_map wf.ids ho hx h

theorem quantity_pos {o : Order} (h : o ∈ b.resting) : 0 < o.quantity := by
  have hv := (mem_queue wf ((mem_resting wf).mp h)).2.1
  simp only [isValidRestingOrder, Bool.and_eq_true, decide_eq_true_eq] at hv
  exact hv.2

theorem orderId_ne_invalid {o : Order} (h : o ∈ b.resting) : o.orderId ≠ invalidOrderId := by
  have hv := (mem_queue wf ((mem_resting wf).mp h)).2.1
  simp only [isValidRestingOrder, Bool.and_eq_true, bne_iff_ne] at hv
  exact hv.1.1.1.1

theorem lookup_of_mem {o : Order} (h : o ∈ b.resting) :
    b.orderIndex.lookup o.orderId = some o.locator :=
  (wf.index _ _).mpr ⟨o, h, rfl, rfl⟩

theorem lookup_eq_none {id : Nat} :
    b.orderIndex.lookup id = none ↔ ∀ o ∈ b.resting, o.orderId ≠ id := by
  constructor
  · intro h o ho heq
    have hl := lookup_of_mem wf ho
    rw [heq, h] at hl
    cases hl
  · intro h
    cases hl : b.orderIndex.lookup id with
    | none => rfl
    | some locator =>
      obtain ⟨o, ho, hid, _⟩ := (wf.index id locator).mp hl
      exact absurd hid (h o ho)

theorem level_of_mem {o : Order} (h : o ∈ b.resting) :
    ∃ l, b.level o.side o.priceTicks = some l ∧ o ∈ l.orders := by
  obtain ⟨l, hl, ho⟩ := key_of_mem_flat (filed wf o.side) ((mem_resting wf).mp h)
  exact ⟨l, level_eq_some.mpr hl, ho⟩

theorem mem_of_level {side : Side} {p : Int} {l : PriceLevel} {o : Order}
    (hl : b.level side p = some l) (ho : o ∈ l.orders) : o ∈ b.resting :=
  mem_resting_of_queue wf (s := side) (mem_flat.mpr ⟨(p, l), level_eq_some.mp hl, ho⟩)

theorem deref_locator {o : Order} (h : o ∈ b.resting) : b.deref o.locator = o := by
  obtain ⟨l, hl, ho⟩ := level_of_mem wf h
  have hf : l.orders.find? (fun x => x.orderId = o.orderId) = some o := by
    cases hf : l.orders.find? (fun x => x.orderId = o.orderId) with
    | none => exact absurd (List.find?_eq_none.mp hf o ho) (by simp)
    | some x =>
      have hx := List.mem_of_find?_eq_some hf
      have hid : x.orderId = o.orderId := by simpa using List.find?_some hf
      rw [resting_unique wf (mem_of_level wf hl hx) h hid]
  change ((b.level o.side o.priceTicks).bind
    (fun l => l.orders.find? (fun x => x.orderId = o.orderId))).getD {} = o
  rw [hl, Option.bind_some, hf, Option.getD_some]

theorem findOrder_eq_some {id : Nat} {o : Order} :
    b.findOrder id = some o ↔ o ∈ b.resting ∧ o.orderId = id := by
  simp only [findOrder, Option.map_eq_some_iff]
  constructor
  · rintro ⟨locator, hl, hd⟩
    obtain ⟨x, hx, hid, rfl⟩ := (wf.index id locator).mp hl
    rw [deref_locator wf hx] at hd
    exact hd ▸ ⟨hx, hid⟩
  · rintro ⟨ho, rfl⟩
    exact ⟨o.locator, lookup_of_mem wf ho, deref_locator wf ho⟩

theorem findOrder_eq_none {id : Nat} :
    b.findOrder id = none ↔ ∀ o ∈ b.resting, o.orderId ≠ id := by
  rw [findOrder, Option.map_eq_none_iff, lookup_eq_none wf]

theorem bestOrder_eq (side : Side) : b.bestOrder side = (b.queue side).head? :=
  (flat_head? (filed wf side)).symm

theorem bestBid_eq : b.bestBid = (b.queue .buy).head?.map (·.priceTicks) :=
  head?_key (filed wf .buy)

theorem bestAsk_eq : b.bestAsk = (b.queue .sell).head?.map (·.priceTicks) :=
  head?_key (filed wf .sell)

end Reading

/-- Orders of one price, in arrival order, are the orders of its level. -/
theorem level_orders {b : OrderBook} (wf : b.WF) (side : Side) (p : Int) :
    ((b.level side p).map (·.orders)).getD [] =
      (b.queue side).filter (fun o => o.priceTicks = p) := by
  have h := flat_filter_key (k := p) (b.levels_sorted side) (filed wf side)
  cases side
  · rfl
  · exact h.symm
  · exact h.symm

theorem totalQuantityAt_eq {b : OrderBook} (wf : b.WF) (side : Side) (p : Int) :
    b.totalQuantityAt side p =
      (((b.queue side).filter (fun o => o.priceTicks = p)).map (·.quantity)).sum := by
  rw [← level_orders wf side p, totalQuantityAt]
  cases hl : b.level side p with
  | none => rfl
  | some l => exact (wf.levels side _ (level_eq_some.mp hl)).total

theorem new_wf (symbolId : Nat) : (OrderBook.new symbolId).WF where
  levels := by intro side e he; cases side <;> cases he
  ids := .nil
  index := by
    intro id locator
    simp [new, resting, queue, levels]

end OrderBook
end Asterion
