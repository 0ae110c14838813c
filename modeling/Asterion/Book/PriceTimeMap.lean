import Asterion.Book.CheckInvariants
import Asterion.Book.Queues

/-! What an order book says, however it is kept: a finite map from ids to orders, each with
the stamp of its arrival at its price. The queries are functions of that map, and the book
answers them and carries out every operation as the map does. -/
namespace Asterion

open Lib

structure PriceTimeMap where
  symbolId : Nat
  clock : Nat := 0
  orders : Finmap (fun _ : Nat => Order × Nat) := ∅

inductive BookOperation where
  | clear
  | add (order : Order)
  | cancel (orderId : Nat)
  | reduce (orderId : Nat) (quantity : Int)
  | replace (orderId : Nat) (newPriceTicks newQuantity timestampNs : Int) (sequenceNumber : Nat)
  deriving DecidableEq, Repr

namespace PriceTimeMap

def new (symbolId : Nat) : PriceTimeMap := { symbolId }

/-- The latest arrival at its price. -/
def put (m : PriceTimeMap) (order : Order) : PriceTimeMap :=
  { m with clock := m.clock + 1, orders := m.orders.insert order.orderId (order, m.clock) }

def remove (m : PriceTimeMap) (orderId : Nat) : PriceTimeMap :=
  { m with orders := m.orders.erase orderId }

def apply (m : PriceTimeMap) : BookOperation → PriceTimeMap × Bool
  | .clear => ({ m with orders := ∅ }, true)
  | .add order =>
    if isValidRestingOrder order = true ∧ order.symbolId = m.symbolId ∧
        m.orders.lookup order.orderId = none then (m.put order, true)
    else (m, false)
  | .cancel orderId =>
    match m.orders.lookup orderId with
    | none => (m, false)
    | some _ => (m.remove orderId, true)
  | .reduce orderId quantity =>
    if quantity ≤ 0 then (m, false)
    else
      match m.orders.lookup orderId with
      | none => (m, false)
      | some (order, stamp) =>
        if order.quantity ≤ quantity then (m.remove orderId, true)
        else
          let order := { order with quantity := order.quantity - quantity }
          ({ m with orders := m.orders.insert orderId (order, stamp) }, true)
  | .replace orderId newPriceTicks newQuantity timestampNs sequenceNumber =>
    if newPriceTicks ≤ 0 ∨ newQuantity ≤ 0 then (m, false)
    else
      match m.orders.lookup orderId with
      | none => (m, false)
      | some (order, _) =>
        (m.put { order with
          priceTicks := newPriceTicks, quantity := newQuantity, timestampNs, sequenceNumber }, true)

def run (m : PriceTimeMap) : List BookOperation → PriceTimeMap × List Bool
  | [] => (m, [])
  | operation :: operations =>
    let first := m.apply operation
    let rest := first.1.run operations
    (rest.1, first.2 :: rest.2)

def order (m : PriceTimeMap) (orderId : Nat) : Order :=
  ((m.orders.lookup orderId).map Prod.fst).getD {}

def stamp (m : PriceTimeMap) (orderId : Nat) : Nat :=
  ((m.orders.lookup orderId).map Prod.snd).getD 0

def onSide (m : PriceTimeMap) (side : Side) : Finset Nat :=
  m.orders.keys.filter (fun id => (m.order id).side = side)

def prices (m : PriceTimeMap) (side : Side) : Finset Int :=
  (m.onSide side).image (fun id => (m.order id).priceTicks)

def totalQuantityAt (m : PriceTimeMap) (side : Side) (priceTicks : Int) : Int :=
  ∑ id ∈ (m.onSide side).filter (fun id => (m.order id).priceTicks = priceTicks),
    (m.order id).quantity

/-- Better price, or the same price and the earlier arrival. -/
def Precedes (m : PriceTimeMap) (side : Side) (a b : Nat) : Prop :=
  before side (m.order a).priceTicks (m.order b).priceTicks ∨
    (m.order a).priceTicks = (m.order b).priceTicks ∧ m.stamp a < m.stamp b

def ExactBestPrice (m : PriceTimeMap) (side : Side) : Option Int → Prop
  | none => m.prices side = ∅
  | some p => p ∈ m.prices side ∧ ∀ q ∈ m.prices side, q ≠ p → before side p q

def ExactBestOrder (m : PriceTimeMap) (side : Side) : Option Order → Prop
  | none => m.onSide side = ∅
  | some o => o.orderId ∈ m.onSide side ∧ m.order o.orderId = o ∧
      ∀ id ∈ m.onSide side, id ≠ o.orderId → m.Precedes side o.orderId id

/-- Prices from best to worst, with their totals. -/
def l2View (m : PriceTimeMap) (depth : Nat) : L2View :=
  { symbolId := m.symbolId
    bids := (((m.prices .buy).sort (· ≥ ·)).take depth).map
      (fun p => ⟨p, m.totalQuantityAt .buy p⟩)
    asks := (((m.prices .sell).sort (· ≤ ·)).take depth).map
      (fun p => ⟨p, m.totalQuantityAt .sell p⟩) }

end PriceTimeMap

namespace OrderBook

def apply (b : OrderBook) : BookOperation → OrderBook × Bool
  | .clear => (b.clear, true)
  | .add order => b.addOrder order
  | .cancel orderId => b.cancelOrder orderId
  | .reduce orderId quantity => b.reduceOrder orderId quantity
  | .replace orderId newPriceTicks newQuantity timestampNs sequenceNumber =>
    b.replaceOrder orderId newPriceTicks newQuantity timestampNs sequenceNumber

def run (b : OrderBook) : List BookOperation → OrderBook × List Bool
  | [] => (b, [])
  | operation :: operations =>
    let first := b.apply operation
    let rest := first.1.run operations
    (rest.1, first.2 :: rest.2)

end OrderBook

namespace PriceTimeMap

/-- The queues hold the orders of the map, best price and earliest arrival first. -/
structure Kept (m : PriceTimeMap) (q : Queues) : Prop where
  mem : ∀ s o, o ∈ q s ↔ o.side = s ∧ ∃ stamp, m.orders.lookup o.orderId = some (o, stamp)
  own : ∀ id o stamp, m.orders.lookup id = some (o, stamp) → o.orderId = id ∧ stamp < m.clock
  ranked : ∀ s, (q s).Pairwise (fun x y => m.Precedes s x.orderId y.orderId)

section Lookup
variable {m : PriceTimeMap} {id : Nat} {o : Order} {stamp : Nat}

theorem order_of_lookup (h : m.orders.lookup id = some (o, stamp)) : m.order id = o := by
  simp [order, h]

theorem stamp_of_lookup (h : m.orders.lookup id = some (o, stamp)) : m.stamp id = stamp := by
  simp [PriceTimeMap.stamp, h]

theorem Precedes.congr {n : PriceTimeMap} {side : Side} {a b : Nat}
    (ha : n.orders.lookup a = m.orders.lookup a) (hb : n.orders.lookup b = m.orders.lookup b) :
    n.Precedes side a b ↔ m.Precedes side a b := by
  simp [Precedes, order, PriceTimeMap.stamp, ha, hb]

end Lookup

section Steps
variable {m n : PriceTimeMap} {q : Queues} {id : Nat} {o : Order}

theorem Kept.order_eq (k : Kept m q) {s : Side} (ho : o ∈ q s) : m.order o.orderId = o := by
  obtain ⟨_, _, h⟩ := (k.mem s o).mp ho
  exact order_of_lookup h

theorem kept_nil (h : m.orders = ∅) : Kept m (fun _ => []) where
  mem := by simp [h]
  own := by simp [h]
  ranked := fun _ => .nil

theorem Kept.remove (k : Kept m q) (id : Nat) :
    Kept (m.remove id) (fun s => dequeue id (q s)) where
  mem := by
    intro s o
    rw [mem_dequeue, k.mem]
    by_cases hid : o.orderId = id
    · subst hid
      simp [PriceTimeMap.remove]
    · simp [PriceTimeMap.remove, hid, Finmap.lookup_erase_ne hid]
  own := by
    intro j o stamp h
    by_cases hid : j = id
    · subst hid
      simp [PriceTimeMap.remove] at h
    · exact k.own j o stamp (by rw [← h]; exact (Finmap.lookup_erase_ne hid).symm)
  ranked := by
    intro s
    refine ((k.ranked s).filter _).imp_of_mem ?_
    intro x y hx hy precedes
    have hx := (mem_dequeue.mp hx).2
    have hy := (mem_dequeue.mp hy).2
    exact (Precedes.congr (Finmap.lookup_erase_ne hx) (Finmap.lookup_erase_ne hy)).mpr precedes

/-- An order that arrives later than all others at its price goes behind them. -/
theorem enqueue_ranked {os : List Order} {precedes : Order → Order → Prop}
    (ranked : os.Pairwise precedes)
    (better : ∀ x ∈ os, Order.outranks o.side o x → precedes o x)
    (past : ∀ x y, x ∈ os → y ∈ os → Order.outranks o.side o x → precedes x y → precedes o y)
    (worse : ∀ x ∈ os, ¬ Order.outranks o.side o x → precedes x o) :
    (enqueue o os).Pairwise precedes := by
  unfold enqueue
  induction os with
  | nil => exact List.pairwise_singleton _ _
  | cons a os ih =>
    rw [List.orderedInsert_cons]
    split
    · rename_i first
      refine .cons (fun y hy => ?_) ranked
      rcases List.mem_cons.mp hy with rfl | hy
      · exact better _ List.mem_cons_self first
      · exact past a y List.mem_cons_self (List.mem_cons_of_mem _ hy) first
          (List.rel_of_pairwise_cons ranked hy)
    · rename_i later
      refine .cons (fun y hy => ?_) (ih ranked.of_cons
        (fun x hx => better x (List.mem_cons_of_mem _ hx))
        (fun x y hx hy => past x y (List.mem_cons_of_mem _ hx) (List.mem_cons_of_mem _ hy))
        (fun x hx => worse x (List.mem_cons_of_mem _ hx)))
      rcases mem_enqueue.mp hy with rfl | hy
      · exact worse a List.mem_cons_self later
      · exact List.rel_of_pairwise_cons ranked hy

theorem Kept.put (k : Kept m q) (absent : m.orders.lookup o.orderId = none) :
    Kept (m.put o) (fun s => if s = o.side then enqueue o (q s) else q s) := by
  have self : (m.put o).orders.lookup o.orderId = some (o, m.clock) := Finmap.lookup_insert _
  have other : ∀ j, j ≠ o.orderId → (m.put o).orders.lookup j = m.orders.lookup j := fun j hj =>
    Finmap.lookup_insert_of_ne _ hj
  have apart : ∀ s, ∀ x ∈ q s, x.orderId ≠ o.orderId := by
    intro s x hx same
    obtain ⟨_, stamp, h⟩ := (k.mem s x).mp hx
    rw [same, absent] at h
    cases h
  have same : ∀ s, (q s).Pairwise (fun x y => (m.put o).Precedes s x.orderId y.orderId) := by
    intro s
    refine (k.ranked s).imp_of_mem ?_
    intro x y hx hy precedes
    exact (Precedes.congr (other _ (apart s x hx)) (other _ (apart s y hy))).mpr precedes
  refine ⟨?_, ?_, ?_⟩
  · intro s x
    have inQueue : x ∈ (if s = o.side then enqueue o (q s) else q s) ↔
        (s = o.side ∧ x = o) ∨ x ∈ q s := by
      split
      · rename_i hs
        simp [mem_enqueue, hs]
      · rename_i hs
        simp [hs]
    rw [inQueue, k.mem]
    by_cases hid : x.orderId = o.orderId
    · rw [hid, self, absent]
      constructor
      · rintro (⟨rfl, rfl⟩ | ⟨_, _, h⟩)
        · exact ⟨rfl, _, rfl⟩
        · cases h
      · rintro ⟨hs, stamp, h⟩
        obtain rfl : o = x := congrArg Prod.fst (Option.some.inj h)
        exact Or.inl ⟨hs.symm, rfl⟩
    · rw [other _ hid]
      constructor
      · rintro (⟨_, rfl⟩ | h)
        · exact absurd rfl hid
        · exact h
      · exact Or.inr
  · intro j x stamp h
    by_cases hid : j = o.orderId
    · rw [hid, self] at h
      cases h
      exact ⟨hid.symm, Nat.lt_succ_self _⟩
    · rw [other j hid] at h
      obtain ⟨own, old⟩ := k.own j x stamp h
      exact ⟨own, old.trans (Nat.lt_succ_self _)⟩
  · intro s
    split
    · rename_i hs
      subst hs
      have here : (m.put o).order o.orderId = o := order_of_lookup self
      have there : ∀ x ∈ q o.side, (m.put o).order x.orderId = x := by
        intro x hx
        obtain ⟨_, _, h⟩ := (k.mem _ x).mp hx
        exact order_of_lookup ((other _ (apart _ x hx)).trans h)
      refine enqueue_ranked (same o.side) ?_ ?_ ?_
      · intro x hx first
        refine Or.inl ?_
        rw [here, there x hx]
        exact first
      · intro x y hx hy first precedes
        refine Or.inl ?_
        unfold Precedes at precedes
        rw [there x hx, there y hy] at precedes
        rw [here, there y hy]
        rcases precedes with ahead | ⟨level, _⟩
        · exact IsTrans.trans _ _ _ first ahead
        · exact level ▸ first
      · intro x hx later
        obtain ⟨_, stamp, h⟩ := (k.mem _ x).mp hx
        have old := (k.own _ x stamp h).2
        unfold Precedes
        rw [here, there x hx, stamp_of_lookup self,
          stamp_of_lookup ((other _ (apart _ x hx)).trans h)]
        rcases trichotomous_of (before o.side) x.priceTicks o.priceTicks with ahead | level | behind
        · exact Or.inl ahead
        · exact Or.inr ⟨level, old⟩
        · exact absurd behind later
    · exact same s

theorem Kept.shrink (k : Kept m q) {stamp : Nat} (stored : m.orders.lookup id = some (o, stamp))
    {quantity : Int} {part : Order} (hpart : part = { o with quantity := o.quantity - quantity }) :
    Kept { m with orders := m.orders.insert id (part, stamp) }
      (fun s => Asterion.shrink id quantity (q s)) := by
  obtain ⟨n, hn⟩ : ∃ n : PriceTimeMap,
      n = { m with orders := m.orders.insert id (part, stamp) } := ⟨_, rfl⟩
  have own : o.orderId = id := (k.own id o stamp stored).1
  have self : n.orders.lookup id = some (part, stamp) := by
    rw [hn]
    exact Finmap.lookup_insert _
  have shrunk : shrinkOrder id quantity o = part := by
    unfold shrinkOrder
    rw [if_pos own, hpart]
  have other : ∀ j, j ≠ id → n.orders.lookup j = m.orders.lookup j := by
    intro j hj
    rw [hn]
    exact Finmap.lookup_insert_of_ne _ hj
  have place : ∀ s a b, n.Precedes s a b ↔ m.Precedes s a b := by
    have price : ∀ j, (n.order j).priceTicks = (m.order j).priceTicks := by
      intro j
      by_cases hj : j = id
      · rw [hj, order_of_lookup self, order_of_lookup stored, hpart]
      · rw [order, other j hj]
        rfl
    have arrival : ∀ j, n.stamp j = m.stamp j := by
      intro j
      by_cases hj : j = id
      · rw [hj, stamp_of_lookup self, stamp_of_lookup stored]
      · rw [PriceTimeMap.stamp, other j hj]
        rfl
    intro s a b
    unfold Precedes
    rw [price, price, arrival, arrival]
  have clock : n.clock = m.clock := by rw [hn]
  rw [← hn]
  refine ⟨?_, ?_, ?_⟩
  · intro s x
    rw [shrink_eq_map, List.mem_map]
    by_cases hid : x.orderId = id
    · rw [hid, self]
      constructor
      · rintro ⟨y, hy, rfl⟩
        rw [shrinkOrder_orderId] at hid
        obtain ⟨hs, there, h⟩ := (k.mem s y).mp hy
        rw [hid, stored] at h
        obtain rfl : o = y := congrArg Prod.fst (Option.some.inj h)
        exact ⟨by rw [shrinkOrder_side]; exact hs, stamp, by rw [shrunk]⟩
      · rintro ⟨hs, there, h⟩
        obtain rfl : part = x := congrArg Prod.fst (Option.some.inj h)
        refine ⟨o, (k.mem s o).mpr ⟨?_, stamp, own.symm ▸ stored⟩, shrunk⟩
        rw [← hs, hpart]
    · rw [other _ hid, ← k.mem]
      constructor
      · rintro ⟨y, hy, rfl⟩
        rw [shrinkOrder_orderId] at hid
        rw [shrinkOrder_of_ne hid]
        exact hy
      · intro hx
        exact ⟨x, hx, shrinkOrder_of_ne hid⟩
  · intro j x there h
    by_cases hj : j = id
    · rw [hj, self] at h
      cases h
      rw [clock, hj]
      exact ⟨by rw [hpart]; exact own, (k.own id o stamp stored).2⟩
    · rw [other j hj] at h
      rw [clock]
      exact k.own j x there h
  · intro s
    rw [shrink_eq_map, List.pairwise_map]
    refine (k.ranked s).imp ?_
    intro x y precedes
    rw [shrinkOrder_orderId, shrinkOrder_orderId]
    exact (place s _ _).mpr precedes

theorem put_remove (m : PriceTimeMap) (o : Order) : (m.remove o.orderId).put o = m.put o := by
  have same : (m.orders.erase o.orderId).insert o.orderId (o, m.clock) =
      m.orders.insert o.orderId (o, m.clock) := by
    apply Finmap.ext_lookup
    intro j
    by_cases hj : j = o.orderId
    · subst hj
      rw [Finmap.lookup_insert, Finmap.lookup_insert]
    · rw [Finmap.lookup_insert_of_ne _ hj, Finmap.lookup_insert_of_ne _ hj,
        Finmap.lookup_erase_ne hj]
  unfold put PriceTimeMap.remove
  simp only [same]

end Steps

/-- The book represents the map. -/
structure Represents (b : OrderBook) (m : PriceTimeMap) : Prop where
  wf : b.WF
  symbol : b.symbolId = m.symbolId
  kept : Kept m b.queue

section Operations
variable {b : OrderBook} {m : PriceTimeMap} (r : Represents b m)
include r

theorem Represents.findOrder_eq (id : Nat) :
    b.findOrder id = (m.orders.lookup id).map Prod.fst := by
  apply Option.ext
  intro o
  rw [OrderBook.findOrder_eq_some r.wf, OrderBook.mem_resting r.wf, r.kept.mem]
  constructor
  · rintro ⟨⟨_, stamp, h⟩, rfl⟩
    rw [h]
    rfl
  · intro h
    obtain ⟨⟨x, stamp⟩, stored, rfl⟩ := Option.map_eq_some_iff.mp h
    have own := (r.kept.own id x stamp stored).1
    exact ⟨⟨rfl, stamp, own.symm ▸ stored⟩, own⟩

theorem Represents.find_eq (id : Nat) :
    Queues.find b.queue id = (m.orders.lookup id).map Prod.fst :=
  (OrderBook.find_eq r.wf id).trans (r.findOrder_eq id)

/-- What an operation of the book does to its queues is what the map does. -/
theorem Represents.of_outcome {applied : OrderBook × Bool} {result : Option Queues}
    {after : PriceTimeMap × Bool} (outcome : OrderBook.Outcome b applied result)
    (symbol : after.1.symbolId = m.symbolId) (done : result.isSome = after.2)
    (kept : Kept after.1 (result.getD b.queue)) :
    Represents applied.1 after.1 ∧ applied.2 = after.2 where
  left :=
    { wf := outcome.wf
      symbol := outcome.symbol.trans (r.symbol.trans symbol.symm)
      kept := outcome.queue ▸ kept }
  right := outcome.done.trans done

theorem Represents.refused {applied : OrderBook × Bool} (outcome : OrderBook.Outcome b applied none) :
    Represents applied.1 m ∧ applied.2 = false :=
  @Represents.of_outcome _ _ r _ _ (m, false) outcome rfl rfl r.kept

theorem Represents.clear : Represents b.clear { m with orders := ∅ } := by
  refine ⟨(OrderBook.clear_wf b).1, r.symbol, ?_⟩
  rw [OrderBook.clear_queue]
  exact kept_nil rfl

theorem Represents.add (order : Order) :
    Represents (b.addOrder order).1 (m.apply (.add order)).1 ∧
      (b.addOrder order).2 = (m.apply (.add order)).2 := by
  have outcome := OrderBook.addOrder_outcome r.wf order
  have absent : Queues.find b.queue order.orderId = none ↔
      m.orders.lookup order.orderId = none := by
    rw [r.find_eq, Option.map_eq_none_iff]
  unfold Queues.add at outcome
  simp only [absent, r.symbol] at outcome
  simp only [PriceTimeMap.apply]
  split
  · rename_i h
    rw [if_pos h] at outcome
    exact r.of_outcome outcome rfl rfl (r.kept.put h.2.2)
  · rename_i h
    rw [if_neg h] at outcome
    exact r.refused outcome

theorem Represents.cancel (orderId : Nat) :
    Represents (b.cancelOrder orderId).1 (m.apply (.cancel orderId)).1 ∧
      (b.cancelOrder orderId).2 = (m.apply (.cancel orderId)).2 := by
  have outcome := OrderBook.cancelOrder_outcome r.wf orderId
  unfold Queues.cancel at outcome
  rw [r.find_eq] at outcome
  simp only [PriceTimeMap.apply]
  cases stored : m.orders.lookup orderId with
  | none =>
    rw [stored] at outcome
    exact r.refused outcome
  | some entry =>
    rw [stored] at outcome
    exact r.of_outcome outcome rfl rfl (r.kept.remove orderId)

section Stored
variable {orderId : Nat} {o : Order} {stamp : Nat}
  (stored : m.orders.lookup orderId = some (o, stamp))
include stored

theorem Represents.consume_all {quantity : Int} (all : o.quantity ≤ quantity) :
    Kept (m.remove orderId) (fun s => consume (o, quantity) (b.queue s)) := by
  have own := (r.kept.own orderId o stamp stored).1
  have gone : (fun s => consume (o, quantity) (b.queue s)) =
      fun s => dequeue orderId (b.queue s) := by
    funext s
    rw [consume, if_neg (not_lt.mpr all), own]
  rw [gone]
  exact r.kept.remove orderId

theorem Represents.consume_part {quantity : Int} (part : quantity < o.quantity) :
    Kept
      { m with orders :=
          m.orders.insert orderId ({ o with quantity := o.quantity - quantity }, stamp) }
      (fun s => consume (o, quantity) (b.queue s)) := by
  have own := (r.kept.own orderId o stamp stored).1
  have shrunk : (fun s => consume (o, quantity) (b.queue s)) =
      fun s => shrink orderId quantity (b.queue s) := by
    funext s
    rw [consume, if_pos part, own]
  rw [shrunk]
  exact r.kept.shrink stored rfl

theorem Represents.requeue {o' : Order} (own' : o'.orderId = orderId) (side' : o'.side = o.side) :
    Kept (m.put o') (fun s =>
      if s = o.side then enqueue o' (dequeue orderId (b.queue s)) else b.queue s) := by
  have own := (r.kept.own orderId o stamp stored).1
  have resting : o ∈ b.resting :=
    (OrderBook.mem_resting r.wf).mpr ((r.kept.mem _ o).mpr ⟨rfl, stamp, own.symm ▸ stored⟩)
  have absent : (m.remove orderId).orders.lookup o'.orderId = none := by
    rw [own']
    exact Finmap.lookup_erase _ _
  have back := (r.kept.remove orderId).put absent
  -- on the other side nothing carried the id
  have queues : (fun s => if s = o'.side then enqueue o' (dequeue orderId (b.queue s))
      else dequeue orderId (b.queue s)) = fun s => if s = o.side then
        enqueue o' (dequeue orderId (b.queue s)) else b.queue s := by
    funext s
    rw [side']
    split
    · rfl
    · rename_i hs
      rw [← own]
      exact OrderBook.dequeue_other_side r.wf resting hs
  have result : (m.remove orderId).put o' = m.put o' := own' ▸ put_remove m o'
  rw [queues, result] at back
  exact back

end Stored

theorem Represents.reduce (orderId : Nat) (quantity : Int) :
    Represents (b.reduceOrder orderId quantity).1 (m.apply (.reduce orderId quantity)).1 ∧
      (b.reduceOrder orderId quantity).2 = (m.apply (.reduce orderId quantity)).2 := by
  have outcome := OrderBook.reduceOrder_outcome r.wf orderId quantity
  unfold Queues.reduce at outcome
  rw [r.find_eq] at outcome
  simp only [PriceTimeMap.apply]
  split
  · rename_i none
    rw [if_pos none] at outcome
    exact r.refused outcome
  rename_i some
  rw [if_neg some] at outcome
  cases stored : m.orders.lookup orderId with
  | none =>
    rw [stored] at outcome
    exact r.refused outcome
  | some entry =>
    rw [stored] at outcome
    simp only
    split
    · rename_i all
      exact r.of_outcome outcome rfl rfl (r.consume_all stored all)
    · rename_i part
      exact r.of_outcome outcome rfl rfl (r.consume_part stored (not_le.mp part))

theorem Represents.replace (orderId : Nat) (price quantity timestampNs : Int)
    (sequenceNumber : Nat) :
    Represents (b.replaceOrder orderId price quantity timestampNs sequenceNumber).1
        (m.apply (.replace orderId price quantity timestampNs sequenceNumber)).1 ∧
      (b.replaceOrder orderId price quantity timestampNs sequenceNumber).2 =
        (m.apply (.replace orderId price quantity timestampNs sequenceNumber)).2 := by
  have outcome :=
    OrderBook.replaceOrder_outcome r.wf orderId price quantity timestampNs sequenceNumber
  unfold Queues.replace at outcome
  rw [r.find_eq] at outcome
  simp only [PriceTimeMap.apply]
  split
  · rename_i bad
    rw [if_pos bad] at outcome
    exact r.refused outcome
  rename_i good
  rw [if_neg good] at outcome
  cases stored : m.orders.lookup orderId with
  | none =>
    rw [stored] at outcome
    exact r.refused outcome
  | some entry =>
    obtain ⟨o, stamp⟩ := entry
    rw [stored] at outcome
    have kept := @Represents.requeue _ _ r _ _ _ stored
      { o with priceTicks := price, quantity, timestampNs, sequenceNumber }
      (r.kept.own orderId o stamp stored).1 rfl
    exact r.of_outcome outcome rfl rfl kept

/-- The book carries out an operation exactly when the map does, with the same effect. -/
theorem Represents.apply (operation : BookOperation) :
    Represents (b.apply operation).1 (m.apply operation).1 ∧
      (b.apply operation).2 = (m.apply operation).2 := by
  cases operation with
  | clear => exact ⟨r.clear, rfl⟩
  | add order => exact r.add order
  | cancel orderId => exact r.cancel orderId
  | reduce orderId quantity => exact r.reduce orderId quantity
  | replace orderId price quantity timestampNs sequenceNumber =>
    exact r.replace orderId price quantity timestampNs sequenceNumber

theorem Represents.run (operations : List BookOperation) :
    Represents (b.run operations).1 (m.run operations).1 ∧
      (b.run operations).2 = (m.run operations).2 := by
  induction operations generalizing b m with
  | nil => exact ⟨r, rfl⟩
  | cons operation operations ih =>
    obtain ⟨r', done⟩ := r.apply operation
    obtain ⟨last, results⟩ := ih r'
    exact ⟨last, congrArg₂ List.cons done results⟩

end Operations

theorem new_represents (symbolId : Nat) : Represents (OrderBook.new symbolId) (new symbolId) where
  wf := OrderBook.new_wf symbolId
  symbol := rfl
  kept := by
    have empty : (OrderBook.new symbolId).queue = fun _ => [] := by
      funext s
      cases s <;> rfl
    rw [empty]
    exact kept_nil rfl

section Queries
variable {b : OrderBook} {m : PriceTimeMap} (r : Represents b m)
include r

theorem Represents.lookup_of_mem {s : Side} {o : Order} (ho : o ∈ b.queue s) :
    ∃ stamp, m.orders.lookup o.orderId = some (o, stamp) := ((r.kept.mem s o).mp ho).2

theorem Represents.mem_onSide {side : Side} {id : Nat} :
    id ∈ m.onSide side ↔ ∃ o ∈ b.queue side, o.orderId = id := by
  unfold onSide
  rw [Finset.mem_filter, Finmap.mem_keys, Finmap.mem_iff]
  constructor
  · rintro ⟨⟨⟨o, stamp⟩, h⟩, hs⟩
    rw [order_of_lookup h] at hs
    have own := (r.kept.own id o stamp h).1
    exact ⟨o, (r.kept.mem side o).mpr ⟨hs, stamp, own.symm ▸ h⟩, own⟩
  · rintro ⟨o, ho, rfl⟩
    obtain ⟨stamp, h⟩ := r.lookup_of_mem ho
    rw [order_of_lookup h]
    exact ⟨⟨_, h⟩, (OrderBook.mem_queue r.wf ho).1⟩

theorem Represents.onSide_eq (side : Side) :
    m.onSide side = ((b.queue side).map (·.orderId)).toFinset := by
  ext id
  rw [r.mem_onSide, List.mem_toFinset, List.mem_map]

theorem Represents.mem_prices {side : Side} {p : Int} :
    p ∈ m.prices side ↔ ∃ o ∈ b.queue side, o.priceTicks = p := by
  unfold prices
  rw [Finset.mem_image]
  constructor
  · rintro ⟨id, hid, rfl⟩
    obtain ⟨o, ho, rfl⟩ := r.mem_onSide.mp hid
    exact ⟨o, ho, by rw [r.kept.order_eq ho]⟩
  · rintro ⟨o, ho, rfl⟩
    exact ⟨o.orderId, r.mem_onSide.mpr ⟨o, ho, rfl⟩, by rw [r.kept.order_eq ho]⟩

theorem Represents.prices_eq (side : Side) :
    m.prices side = ((b.levels side).map Prod.fst).toFinset := by
  ext p
  rw [r.mem_prices, List.mem_toFinset, List.mem_map]
  constructor
  · rintro ⟨o, ho, rfl⟩
    obtain ⟨l, hl, _⟩ := Buckets.key_of_mem_flat (OrderBook.filed r.wf side) ho
    exact ⟨_, hl, rfl⟩
  · rintro ⟨e, he, rfl⟩
    have level := r.wf.levels side e he
    obtain ⟨o, os, hos⟩ := List.exists_cons_of_ne_nil level.nonempty
    have ho : o ∈ e.2.orders := by rw [hos]; exact List.mem_cons_self
    exact ⟨o, Buckets.mem_flat.mpr ⟨e, he, ho⟩, (level.filed o ho).2⟩

theorem Represents.ids_nodup (side : Side) : ((b.queue side).map (·.orderId)).Nodup := by
  have ids := r.wf.ids
  cases side with
  | none => exact .nil
  | buy => exact ids.sublist ((List.sublist_append_left _ _).map _)
  | sell => exact ids.sublist ((List.sublist_append_right _ _).map _)

theorem Represents.orderCount_eq : b.orderCount = m.orders.keys.card := by
  have keys : m.orders.keys = (b.resting.map (·.orderId)).toFinset := by
    ext id
    rw [Finmap.mem_keys, Finmap.mem_iff, List.mem_toFinset, List.mem_map]
    constructor
    · rintro ⟨⟨o, stamp⟩, h⟩
      have own := (r.kept.own id o stamp h).1
      exact ⟨o, (OrderBook.mem_resting r.wf).mpr
        ((r.kept.mem _ o).mpr ⟨rfl, stamp, own.symm ▸ h⟩), own⟩
    · rintro ⟨o, ho, rfl⟩
      obtain ⟨stamp, h⟩ := r.lookup_of_mem ((OrderBook.mem_resting r.wf).mp ho)
      exact ⟨_, h⟩
  rw [keys, List.toFinset_card_of_nodup r.wf.ids, List.length_map, OrderBook.orderCount_eq r.wf]

theorem Represents.totalQuantityAt_eq (side : Side) (p : Int) :
    b.totalQuantityAt side p = m.totalQuantityAt side p := by
  have here : (m.onSide side).filter (fun id => (m.order id).priceTicks = p) =
      (((b.queue side).filter (fun o => o.priceTicks = p)).map (·.orderId)).toFinset := by
    ext id
    rw [Finset.mem_filter, r.mem_onSide, List.mem_toFinset, List.mem_map]
    constructor
    · rintro ⟨⟨o, ho, rfl⟩, hp⟩
      rw [r.kept.order_eq ho] at hp
      exact ⟨o, List.mem_filter.mpr ⟨ho, decide_eq_true hp⟩, rfl⟩
    · rintro ⟨o, ho, rfl⟩
      obtain ⟨ho, hp⟩ := List.mem_filter.mp ho
      exact ⟨⟨o, ho, rfl⟩, by rw [r.kept.order_eq ho]; exact of_decide_eq_true hp⟩
  have distinct : (((b.queue side).filter (fun o => o.priceTicks = p)).map (·.orderId)).Nodup :=
    (r.ids_nodup side).sublist (List.filter_sublist.map _)
  rw [OrderBook.totalQuantityAt_eq r.wf, totalQuantityAt, here, List.sum_toFinset _ distinct,
    List.map_map]
  congr 1
  apply List.map_congr_left
  intro o ho
  exact congrArg Order.quantity (r.kept.order_eq (List.mem_of_mem_filter ho)).symm

theorem Represents.bestPrice (side : Side) :
    m.ExactBestPrice side ((b.levels side).head?.map Prod.fst) := by
  have sorted := b.levels_sorted side
  have known := r.prices_eq side
  cases levels : b.levels side with
  | nil =>
    rw [levels] at known
    exact known
  | cons e es =>
    rw [levels] at known sorted
    change e.1 ∈ m.prices side ∧ ∀ q ∈ m.prices side, q ≠ e.1 → before side e.1 q
    rw [known]
    refine ⟨by simp, fun q hq other => ?_⟩
    rw [List.mem_toFinset, List.map_cons, List.mem_cons] at hq
    obtain ⟨x, hx, rfl⟩ := List.mem_map.mp (hq.resolve_left other)
    exact List.rel_of_pairwise_cons sorted hx

theorem Represents.bestOrder (side : Side) : m.ExactBestOrder side (b.bestOrder side) := by
  have ranked := r.kept.ranked side
  have known := r.onSide_eq side
  rw [OrderBook.bestOrder_eq r.wf]
  cases queue : b.queue side with
  | nil =>
    rw [queue] at known
    exact known
  | cons o os =>
    have ho : o ∈ b.queue side := by rw [queue]; exact List.mem_cons_self
    rw [queue] at ranked
    refine ⟨r.mem_onSide.mpr ⟨o, ho, rfl⟩, r.kept.order_eq ho, fun id hid other => ?_⟩
    rw [known, queue, List.mem_toFinset, List.map_cons, List.mem_cons] at hid
    obtain ⟨x, hx, rfl⟩ := List.mem_map.mp (hid.resolve_left other)
    exact List.rel_of_pairwise_cons ranked hx

theorem Represents.l2Levels_eq (side : Side) (depth : Nat) {prices : List Int}
    (hprices : prices = (b.levels side).map Prod.fst) :
    OrderBook.l2Levels (b.levels side) depth =
      (prices.take depth).map (fun p => ⟨p, m.totalQuantityAt side p⟩) := by
  rw [hprices, OrderBook.l2Levels, ← List.map_take, List.map_map]
  apply List.map_congr_left
  intro e he
  have level := OrderBook.level_eq_some.mpr (List.mem_of_mem_take he)
  have total : b.totalQuantityAt side e.1 = e.2.totalQuantity := by
    rw [OrderBook.totalQuantityAt, level]
    rfl
  rw [← total, r.totalQuantityAt_eq]
  rfl

theorem Represents.l2View_eq (depth : Nat) : b.l2View depth = m.l2View depth := by
  have bids : (m.prices .buy).sort (· ≥ ·) = (b.levels .buy).map Prod.fst := by
    have sorted : ((b.levels .buy).map Prod.fst).Pairwise (· > ·) :=
      List.pairwise_map.mpr (b.levels_sorted .buy)
    rw [r.prices_eq]
    exact (List.toFinset_sort _ (sorted.imp (fun h => ne_of_gt h))).mpr (sorted.imp le_of_lt)
  have asks : (m.prices .sell).sort (· ≤ ·) = (b.levels .sell).map Prod.fst := by
    have sorted : ((b.levels .sell).map Prod.fst).Pairwise (· < ·) :=
      List.pairwise_map.mpr (b.levels_sorted .sell)
    rw [r.prices_eq]
    exact (List.toFinset_sort _ (sorted.imp (fun h => ne_of_lt h))).mpr (sorted.imp le_of_lt)
  unfold OrderBook.l2View l2View
  rw [r.symbol]
  congr 1
  · exact r.l2Levels_eq .buy depth bids
  · exact r.l2Levels_eq .sell depth asks

end Queries

/-- Every query of the book is the map's. -/
structure Answers (b : OrderBook) (m : PriceTimeMap) : Prop where
  bestBid : m.ExactBestPrice .buy b.bestBid
  bestAsk : m.ExactBestPrice .sell b.bestAsk
  bestOrder : ∀ side, m.ExactBestOrder side (b.bestOrder side)
  findOrder : ∀ id, b.findOrder id = (m.orders.lookup id).map Prod.fst
  orderCount : b.orderCount = m.orders.keys.card
  totalQuantityAt : ∀ side p, b.totalQuantityAt side p = m.totalQuantityAt side p
  l2View : ∀ depth, b.l2View depth = m.l2View depth

theorem Represents.answers {b : OrderBook} {m : PriceTimeMap} (r : Represents b m) :
    Answers b m where
  bestBid := r.bestPrice .buy
  bestAsk := r.bestPrice .sell
  bestOrder := r.bestOrder
  findOrder := r.findOrder_eq
  orderCount := r.orderCount_eq
  totalQuantityAt := r.totalQuantityAt_eq
  l2View := r.l2View_eq

end PriceTimeMap

/-- From the empty book of any symbol, every sequence of operations does to the book what it
does to the map: the same operations are carried out, the orders and their priority are the
map's, every query is answered as the map answers it, and the book's own check is clean. -/
theorem OrderBook.refines_priceTimeMap (symbolId : Nat) (operations : List BookOperation) :
    let b := (OrderBook.new symbolId).run operations
    let m := (PriceTimeMap.new symbolId).run operations
    b.2 = m.2 ∧ PriceTimeMap.Represents b.1 m.1 ∧ PriceTimeMap.Answers b.1 m.1 ∧
      b.1.checkInvariants = {} := by
  obtain ⟨r, results⟩ := (PriceTimeMap.new_represents symbolId).run operations
  exact ⟨results, r, r.answers, OrderBook.checkInvariants_clean r.wf⟩

end Asterion
