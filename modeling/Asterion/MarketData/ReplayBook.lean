import Asterion.Book.CheckInvariants
import Asterion.Book.Queues
import Asterion.MarketData.Replay

/-! What an event that passes the checks does to the book, in terms of the two queues, and
when the book it leaves is crossed. -/
namespace Asterion

open Lib

namespace Queues

def Uncrossed (q : Queues) : Prop := ∀ x ∈ q .buy, ∀ y ∈ q .sell, x.priceTicks < y.priceTicks

def apply (q : Queues) (symbolId : Nat) (event : MarketDataEvent) : Option Queues :=
  match event.eventType with
  | .add => q.add symbolId event.order
  | .cancel =>
    if event.quantity > 0 then q.reduce event.orderId event.quantity else q.cancel event.orderId
  | .replace =>
    q.replace event.orderId event.priceTicks event.quantity event.timestampNs event.sequenceNumber
  | .execute => q.reduce event.orderId event.quantity
  | .snapshot =>
    let q : Queues := if event.beginsSnapshot then fun _ => [] else q
    if event.orderId ≠ invalidOrderId then q.add symbolId event.order else some q
  | .trade | .heartbeat => some q

def Meets (q : Queues) (order : Order) : Prop :=
  match order.side with
  | .buy => ∃ y ∈ q .sell, y.priceTicks ≤ order.priceTicks
  | .sell => ∃ x ∈ q .buy, order.priceTicks ≤ x.priceTicks
  | .none => False

def incoming (q : Queues) (event : MarketDataEvent) : Option Order :=
  match event.eventType with
  | .add => some event.order
  | .replace => (q.find event.orderId).map fun o =>
    { o with
      priceTicks := event.priceTicks
      quantity := event.quantity
      timestampNs := event.timestampNs
      sequenceNumber := event.sequenceNumber }
  | .snapshot =>
    if event.orderId ≠ invalidOrderId ∧
        (event.beginsSnapshot = true ∨ q.find event.orderId = none) then
      some event.order
    else none
  | _ => none

/-- The event crosses the queues. A record that begins a snapshot finds them empty. -/
def Crossing (q : Queues) (event : MarketDataEvent) : Prop :=
  ¬ (event.eventType = .snapshot ∧ event.beginsSnapshot = true) ∧
    ∃ o ∈ q.incoming event, q.Meets o

/-- Whatever rests after the change rested before, at the same price. -/
def Within (q q' : Queues) : Prop := ∀ s, ∀ x ∈ q s, ∃ y ∈ q' s, y.priceTicks = x.priceTicks

theorem Uncrossed.mono {q q' : Queues} (within : Within q q') (h : Uncrossed q') : Uncrossed q := by
  intro x hx y hy
  obtain ⟨x', hx', ex⟩ := within _ x hx
  obtain ⟨y', hy', ey⟩ := within _ y hy
  rw [← ex, ← ey]
  exact h x' hx' y' hy'

theorem within_consume (q : Queues) (f : Order × Int) : Within (fun s => consume f (q s)) q := by
  intro s x hx
  unfold consume at hx
  split at hx
  · dsimp only at hx
    rw [shrink_eq_map] at hx
    obtain ⟨y, hy, rfl⟩ := List.mem_map.mp hx
    exact ⟨y, hy, (shrinkOrder_priceTicks ..).symm⟩
  · exact ⟨x, (mem_dequeue.mp hx).1, rfl⟩

theorem within_dequeue (q : Queues) (id : Nat) : Within (fun s => dequeue id (q s)) q :=
  fun _ x hx => ⟨x, (mem_dequeue.mp hx).1, rfl⟩

theorem meets_congr {q q' : Queues} {order : Order} (h : ∀ s, s ≠ order.side → q s = q' s) :
    q.Meets order ↔ q'.Meets order := by
  unfold Meets
  cases hs : order.side with
  | none => exact Iff.rfl
  | buy => rw [h .sell (by rw [hs]; decide)]
  | sell => rw [h .buy (by rw [hs]; decide)]

theorem not_meets_empty (order : Order) : ¬ Meets (fun _ => []) order := by
  unfold Meets
  cases order.side <;> simp

theorem uncrossed_empty : Uncrossed (fun _ => []) := fun _ hx => by cases hx

/-- An order added to an uncrossed book leaves it uncrossed unless it meets the other side. -/
theorem uncrossed_enqueue {q : Queues} (h : Uncrossed q) {order : Order}
    (valid : isValidSide order.side = true) :
    Uncrossed (fun s => if s = order.side then enqueue order (q s) else q s) ↔
      ¬ q.Meets order := by
  unfold Uncrossed Meets
  cases hs : order.side with
  | none =>
    rw [hs] at valid
    cases valid
  | buy =>
    simp only [if_true, if_neg (show ¬ Side.sell = Side.buy by decide), mem_enqueue]
    constructor
    · rintro hu ⟨y, hy, hle⟩
      exact absurd (hu order (Or.inl rfl) y hy) (by omega)
    · rintro hn x (rfl | hx) y hy
      · exact not_le.mp (fun hle => hn ⟨y, hy, hle⟩)
      · exact h x hx y hy
  | sell =>
    simp only [if_true, if_neg (show ¬ Side.buy = Side.sell by decide), mem_enqueue]
    constructor
    · rintro hu ⟨x, hx, hle⟩
      exact absurd (hu x hx order (Or.inl rfl)) (by omega)
    · rintro hn x hx y (rfl | hy)
      · exact not_le.mp (fun hle => hn ⟨x, hx, hle⟩)
      · exact h x hx y hy

end Queues

namespace OrderBook

/-- The best bid, if any, is below the best ask, if any. -/
def Uncrossed (b : OrderBook) : Prop := ∀ p ∈ b.bestBid, ∀ r ∈ b.bestAsk, p < r

instance (b : OrderBook) : Decidable b.Uncrossed :=
  inferInstanceAs (Decidable (∀ p ∈ b.bestBid, ∀ r ∈ b.bestAsk, p < r))

/-- The best price of a side is at least as good as every price of it. -/
theorem head_best {b : OrderBook} (wf : b.WF) {s : Side} {x y : Order}
    (head : (b.queue s).head? = some x) (hy : y ∈ b.queue s) :
    ¬ before s y.priceTicks x.priceTicks := by
  have sorted := queue_sorted wf s
  obtain ⟨rest, hq⟩ := List.head?_eq_some_iff.mp head
  rw [hq] at sorted hy
  rcases List.mem_cons.mp hy with rfl | hy
  · exact irrefl_of (before s) y.priceTicks
  · exact List.rel_of_pairwise_cons sorted hy

theorem uncrossed_iff {b : OrderBook} (wf : b.WF) : b.Uncrossed ↔ Queues.Uncrossed b.queue := by
  unfold Uncrossed Queues.Uncrossed
  rw [bestBid_eq wf, bestAsk_eq wf]
  constructor
  · intro h x hx y hy
    obtain ⟨bid, hb⟩ := Option.isSome_iff_exists.mp
      (List.isSome_head?.mpr (List.ne_nil_of_mem hx))
    obtain ⟨ask, ha⟩ := Option.isSome_iff_exists.mp
      (List.isSome_head?.mpr (List.ne_nil_of_mem hy))
    have hba := h bid.priceTicks (by rw [hb]; rfl) ask.priceTicks (by rw [ha]; rfl)
    have hx' := head_best wf hb hx
    have hy' := head_best wf ha hy
    rw [before_buy] at hx'
    rw [before_sell] at hy'
    omega
  · intro h p hp r hr
    obtain ⟨x, hx, rfl⟩ := Option.mem_map.mp hp
    obtain ⟨y, hy, rfl⟩ := Option.mem_map.mp hr
    exact h x (List.mem_of_mem_head? hx) y (List.mem_of_mem_head? hy)

end OrderBook

/-- What an event that passes the checks before application satisfies. -/
structure Validated (b : OrderBook) (event : MarketDataEvent) : Prop where
  symbol : event.symbolId = b.symbolId
  order : event.eventType = .add ∨ event.eventType = .snapshot ∧ event.orderId ≠ invalidOrderId →
    isValidRestingOrder event.order = true
  fresh : event.eventType = .add → b.findOrder event.orderId = none
  known : event.eventType = .cancel ∨ event.eventType = .replace ∨ event.eventType = .execute →
    ∃ o, b.findOrder event.orderId = some o
  price : event.eventType = .replace → 0 < event.priceTicks
  quantity : event.eventType = .replace ∨ event.eventType = .execute → 0 < event.quantity

theorem passed {bad : Prop} [Decidable bad] {reason : String} {rest : Option String}
    (h : (if bad then some reason else rest) = none) : ¬ bad ∧ rest = none := by
  split at h
  · cases h
  · exact ⟨‹_›, h⟩

namespace ReplayEngine

theorem validated {engine : ReplayEngine} {event : MarketDataEvent}
    (h : engine.validateEventBeforeApply event = none) : Validated engine.book event := by
  unfold validateEventBeforeApply at h
  obtain ⟨symbolValid, h⟩ := passed h
  obtain ⟨symbol, h⟩ := passed h
  obtain ⟨orderId, h⟩ := passed h
  obtain ⟨side, h⟩ := passed h
  obtain ⟨price, h⟩ := passed h
  obtain ⟨-, h⟩ := passed h
  obtain ⟨quantity, h⟩ := passed h
  obtain ⟨-, h⟩ := passed h
  obtain ⟨fresh, h⟩ := passed h
  obtain ⟨snapshotSide, h⟩ := passed h
  obtain ⟨snapshotPrice, h⟩ := passed h
  obtain ⟨snapshotQuantity, h⟩ := passed h
  refine ⟨not_not.mp symbol, ?_, ?_, ?_, ?_, ?_⟩
  · rintro (ht | ⟨ht, hid⟩)
    · simp_all [isValidRestingOrder, MarketDataEvent.order, isOrderIdRequired, isPriceRequired,
        isQuantityRequired]
    · simp_all [isValidRestingOrder, MarketDataEvent.order]
  · intro ht
    cases hf : engine.book.findOrder event.orderId with
    | none => rfl
    | some o => exact absurd ⟨ht, by rw [hf]; rfl⟩ fresh
  · intro ht
    rw [if_pos ht] at h
    cases hf : engine.book.findOrder event.orderId with
    | some o => exact ⟨o, rfl⟩
    | none =>
      rw [hf] at h
      obtain ⟨-, h⟩ := passed h
      obtain ⟨-, h⟩ := passed h
      cases h
  · intro ht
    simpa [isPriceRequired, ht] using price
  · rintro (ht | ht)
    · simpa [isQuantityRequired, ht] using quantity
    · simpa [isQuantityRequired, ht] using quantity

end ReplayEngine

section Applying
variable {b : OrderBook} {event : MarketDataEvent} (wf : b.WF) (valid : Validated b event)
include wf valid

/-- The snapshot record of an order that is in the book already is the only event that is
refused after the checks. -/
theorem apply_isSome (h : event.eventType = .snapshot → event.beginsSnapshot = false →
    event.orderId ≠ invalidOrderId → b.findOrder event.orderId = none) :
    (Queues.apply b.queue b.symbolId event).isSome = true := by
  have symbol : event.order.symbolId = b.symbolId := valid.symbol
  unfold Queues.apply
  cases ht : event.eventType with
  | trade => rfl
  | heartbeat => rfl
  | add =>
    have free : Queues.find b.queue event.order.orderId = none :=
      (OrderBook.find_eq wf _).trans (valid.fresh ht)
    simp only [Queues.add, if_pos (⟨valid.order (Or.inl ht), symbol, free⟩ : _ ∧ _ ∧ _)]
    rfl
  | cancel =>
    obtain ⟨o, ho⟩ := valid.known (Or.inl ht)
    dsimp only
    split
    · rename_i pos
      rw [Queues.reduce, if_neg (not_le.mpr pos), OrderBook.find_eq wf, ho]
      rfl
    · rw [Queues.cancel, OrderBook.find_eq wf, ho]
      rfl
  | replace =>
    obtain ⟨o, ho⟩ := valid.known (Or.inr (Or.inl ht))
    have price := valid.price ht
    have quantity := valid.quantity (Or.inl ht)
    dsimp only
    rw [Queues.replace, if_neg (by omega), OrderBook.find_eq wf, ho]
    rfl
  | execute =>
    obtain ⟨o, ho⟩ := valid.known (Or.inr (Or.inr ht))
    dsimp only
    rw [Queues.reduce, if_neg (not_le.mpr (valid.quantity (Or.inr ht))), OrderBook.find_eq wf, ho]
    rfl
  | snapshot =>
    dsimp only
    by_cases hid : event.orderId = invalidOrderId
    · rw [if_neg (not_not.mpr hid)]
      rfl
    · rw [if_pos hid, Queues.add, if_pos]
      · rfl
      · refine ⟨valid.order (Or.inr ⟨ht, hid⟩), symbol, ?_⟩
        cases hb : event.beginsSnapshot with
        | true => rfl
        | false => exact (OrderBook.find_eq wf _).trans (h ht hb hid)

theorem applyToBook_outcome :
    OrderBook.Outcome b ((ReplayEngine.applyToBook b event).1,
      (ReplayEngine.applyToBook b event).2.isNone)
      (Queues.apply b.queue b.symbolId event) := by
  have check {applied : OrderBook × Bool} {result : Option Queues} {reason : String}
      (h : OrderBook.Outcome b applied result) :
      OrderBook.Outcome b (applied.1, (if applied.2 then none else some reason).isNone) result := by
    refine ⟨h.wf, h.symbol, ?_, h.queue⟩
    rw [← h.done]
    cases applied.2 <;> rfl
  unfold ReplayEngine.applyToBook Queues.apply
  cases ht : event.eventType with
  | trade => exact ⟨wf, rfl, rfl, rfl⟩
  | heartbeat => exact ⟨wf, rfl, rfl, rfl⟩
  | add => exact check (OrderBook.addOrder_outcome wf _)
  | cancel =>
    dsimp only
    split
    · exact check (OrderBook.reduceOrder_outcome wf _ _)
    · exact check (OrderBook.cancelOrder_outcome wf _)
  | replace => exact check (OrderBook.replaceOrder_outcome wf _ _ _ _ _)
  | execute => exact check (OrderBook.reduceOrder_outcome wf _ _)
  | snapshot =>
    dsimp only
    cases hb : event.beginsSnapshot with
    | false =>
      split
      · exact check (OrderBook.addOrder_outcome wf _)
      · exact ⟨wf, rfl, rfl, rfl⟩
    | true =>
      have wf' := (OrderBook.clear_wf b).1
      split
      · rename_i hid
        have done := apply_isSome wf valid (fun _ h => by rw [hb] at h; cases h)
        simp only [Queues.apply, ht, hb, if_true, if_pos hid] at done
        have added := OrderBook.addOrder_outcome wf' event.order
        rw [OrderBook.clear_queue] at added
        refine check ⟨added.wf, added.symbol, added.done, ?_⟩
        obtain ⟨q, hq⟩ := Option.isSome_iff_exists.mp done
        have hq' : Queues.add (fun _ => []) b.clear.symbolId event.order = some q := hq
        have hadd := added.queue
        rw [hq'] at hadd
        simp only [if_true, hq]
        exact hadd
      · exact ⟨wf', rfl, rfl, OrderBook.clear_queue b⟩

theorem apply_of_incoming {o : Order} (h : Queues.incoming b.queue event = some o) :
    (Queues.apply b.queue b.symbolId event).isSome = true := by
  apply apply_isSome wf valid
  intro ht hb hid
  simp only [Queues.incoming, ht, hb, Bool.false_eq_true, false_or] at h
  split at h
  · rw [← OrderBook.find_eq wf]
    exact ‹_ ∧ _›.2
  · cases h

omit wf valid in
theorem incoming_rests {o : Order} {q : Queues} (h : Queues.incoming b.queue event = some o)
    (hq : Queues.apply b.queue b.symbolId event = some q) : ∃ s, q s ≠ [] := by
  have added {p : Queues} (hadd : p.add b.symbolId event.order = some q) : ∃ s, q s ≠ [] := by
    unfold Queues.add at hadd
    split at hadd
    · refine ⟨event.order.side, ?_⟩
      rw [← Option.some.inj hadd]
      dsimp only
      rw [if_pos rfl]
      exact List.ne_nil_of_mem (mem_enqueue.mpr (Or.inl rfl))
    · cases hadd
  unfold Queues.incoming at h
  cases ht : event.eventType with
  | add =>
    simp only [Queues.apply, ht] at hq
    exact added hq
  | snapshot =>
    simp only [ht] at h
    split at h
    · rename_i hid
      simp only [Queues.apply, ht, if_pos hid.1] at hq
      exact added hq
    · cases h
  | replace =>
    simp only [Queues.apply, ht, Queues.replace] at hq
    split at hq
    · cases hq
    · obtain ⟨x, -, rfl⟩ := Option.map_eq_some_iff.mp hq
      refine ⟨x.side, ?_⟩
      dsimp only
      rw [if_pos rfl]
      exact List.ne_nil_of_mem (mem_enqueue.mpr (Or.inl rfl))
  | cancel => simp [ht] at h
  | execute => simp [ht] at h
  | trade => simp [ht] at h
  | heartbeat => simp [ht] at h

omit wf valid in
theorem added_uncrossed {p q : Queues} {symbolId : Nat} {o : Order} (h : p.Uncrossed)
    (added : p.add symbolId o = some q) : q.Uncrossed ↔ ¬ p.Meets o := by
  unfold Queues.add at added
  split at added
  · rename_i hok
    rw [← Option.some.inj added]
    have hside := hok.1
    simp only [isValidRestingOrder, Bool.and_eq_true] at hside
    exact Queues.uncrossed_enqueue h hside.1.1.2
  · cases added

omit wf valid in
theorem shrunk_uncrossed {q : Queues} (h : Queues.Uncrossed b.queue)
    (within : Queues.Within q b.queue) (unfed : Queues.incoming b.queue event = none) :
    q.Uncrossed ↔ ¬ Queues.Crossing b.queue event := by
  refine iff_of_true (h.mono within) ?_
  rintro ⟨-, o, ho, -⟩
  rw [unfed] at ho
  cases ho

omit valid in
theorem replaced_uncrossed {q : Queues} (h : Queues.Uncrossed b.queue)
    (ht : event.eventType = .replace) (hq : Queues.apply b.queue b.symbolId event = some q) :
    q.Uncrossed ↔ ¬ Queues.Crossing b.queue event := by
  simp only [Queues.apply, ht, Queues.replace] at hq
  split at hq
  · cases hq
  obtain ⟨o, ho, rfl⟩ := Option.map_eq_some_iff.mp hq
  have hside : isValidSide o.side = true := by
    rw [OrderBook.find_eq wf, OrderBook.findOrder_eq_some wf, OrderBook.mem_resting wf] at ho
    exact OrderBook.valid_side ho.1
  -- the other side is as it was
  let p : Queues := fun s => if s = o.side then dequeue event.orderId (b.queue s) else b.queue s
  have hp : p.Uncrossed := by
    refine h.mono fun s x hx => ⟨x, ?_, rfl⟩
    simp only [p] at hx
    split at hx
    · exact (mem_dequeue.mp hx).1
    · exact hx
  let moved : Order := { o with
    priceTicks := event.priceTicks
    quantity := event.quantity
    timestampNs := event.timestampNs
    sequenceNumber := event.sequenceNumber }
  have hm : p.Meets moved ↔ Queues.Meets b.queue moved := Queues.meets_congr fun s hs => if_neg hs
  have hi : Queues.incoming b.queue event = some moved := by
    simp only [Queues.incoming, ht, ho, Option.map_some, moved]
  have hu := @Queues.uncrossed_enqueue _ hp moved hside
  have same : (fun s => if s = moved.side then enqueue moved (p s) else p s) =
      fun s => if s = o.side then enqueue moved (dequeue event.orderId (b.queue s))
        else b.queue s := by
    funext s
    by_cases hs : s = o.side
    · simp only [p, moved, if_pos hs]
    · simp only [p, moved, if_neg hs]
  rw [same, hm] at hu
  rw [hu]
  simp [Queues.Crossing, hi, ht]

omit wf valid in
theorem snapshot_uncrossed {q : Queues} (h : Queues.Uncrossed b.queue)
    (ht : event.eventType = .snapshot) (hq : Queues.apply b.queue b.symbolId event = some q) :
    q.Uncrossed ↔ ¬ Queues.Crossing b.queue event := by
  simp only [Queues.apply, ht] at hq
  cases hb : event.beginsSnapshot with
  | true =>
    simp only [hb, if_true] at hq
    refine iff_of_true ?_ (fun hc => hc.1 ⟨ht, hb⟩)
    split at hq
    · exact (added_uncrossed Queues.uncrossed_empty hq).mpr (Queues.not_meets_empty _)
    · cases hq
      exact Queues.uncrossed_empty
  | false =>
    simp only [hb, Bool.false_eq_true, if_false] at hq
    split at hq
    · rename_i hid
      have free : Queues.find b.queue event.orderId = none := by
        unfold Queues.add at hq
        split at hq
        · exact ‹_ ∧ _ ∧ _›.2.2
        · cases hq
      rw [added_uncrossed h hq]
      simp [Queues.Crossing, Queues.incoming, ht, hb, hid, free]
    · rename_i hid
      exact shrunk_uncrossed h (fun s x hx => ⟨x, Option.some.inj hq ▸ hx, rfl⟩)
        (by simp only [Queues.incoming, ht, hid, false_and, if_false])

omit valid in
/-- An event applied to an uncrossed book leaves it uncrossed unless it is crossing. -/
theorem apply_uncrossed {q : Queues} (h : Queues.Uncrossed b.queue)
    (hq : Queues.apply b.queue b.symbolId event = some q) :
    Queues.Uncrossed q ↔ ¬ Queues.Crossing b.queue event := by
  have reduced {orderId : Nat} {quantity : Int} (unfed : Queues.incoming b.queue event = none)
      (hr : Queues.reduce b.queue orderId quantity = some q) :
      q.Uncrossed ↔ ¬ Queues.Crossing b.queue event := by
    unfold Queues.reduce at hr
    split at hr
    · cases hr
    · obtain ⟨o, -, rfl⟩ := Option.map_eq_some_iff.mp hr
      exact shrunk_uncrossed h (Queues.within_consume _ _) unfed
  cases ht : event.eventType with
  | trade =>
    simp only [Queues.apply, ht, Option.some.injEq] at hq
    exact shrunk_uncrossed h (fun s x hx => ⟨x, hq ▸ hx, rfl⟩) (by simp [Queues.incoming, ht])
  | heartbeat =>
    simp only [Queues.apply, ht, Option.some.injEq] at hq
    exact shrunk_uncrossed h (fun s x hx => ⟨x, hq ▸ hx, rfl⟩) (by simp [Queues.incoming, ht])
  | add =>
    simp only [Queues.apply, ht] at hq
    rw [added_uncrossed h hq]
    simp [Queues.Crossing, Queues.incoming, ht]
  | cancel =>
    have unfed : Queues.incoming b.queue event = none := by simp [Queues.incoming, ht]
    simp only [Queues.apply, ht] at hq
    split at hq
    · exact reduced unfed hq
    · obtain ⟨o, -, rfl⟩ := Option.map_eq_some_iff.mp hq
      exact shrunk_uncrossed h (Queues.within_dequeue _ _) unfed
  | execute =>
    simp only [Queues.apply, ht] at hq
    exact reduced (by simp [Queues.incoming, ht]) hq
  | replace => exact replaced_uncrossed wf h ht hq
  | snapshot => exact snapshot_uncrossed h ht hq

/-- An event the book refuses leaves it as it was; it is the record of a known order. -/
theorem applyToBook_refused {reason : String}
    (h : (ReplayEngine.applyToBook b event).2 = some reason) :
    (ReplayEngine.applyToBook b event).1 = b ∧ event.eventType = .snapshot ∧
      reason = "failed to apply Snapshot event" := by
  have done := (applyToBook_outcome wf valid).done
  rw [h] at done
  have refused : ¬ (Queues.apply b.queue b.symbolId event).isSome = true := by
    rw [← done]
    exact Bool.false_ne_true
  by_cases hs : event.eventType = .snapshot ∧ event.beginsSnapshot = false ∧
      event.orderId ≠ invalidOrderId
  · obtain ⟨ht, hb, hid⟩ := hs
    have known : b.findOrder event.order.orderId ≠ none :=
      fun hf => refused (apply_isSome wf valid fun _ _ _ => hf)
    have hadd := OrderBook.addOrder_refused (b := b) (o := event.order) (Or.inr (Or.inr known))
    simp only [ReplayEngine.applyToBook, ht, hb, if_pos hid, Bool.false_eq_true, if_false, hadd,
      Option.some.injEq] at h ⊢
    exact ⟨trivial, trivial, h.symm⟩
  · exact absurd (apply_isSome wf valid fun ht hb hid => absurd ⟨ht, hb, hid⟩ hs) refused

end Applying
end Asterion
