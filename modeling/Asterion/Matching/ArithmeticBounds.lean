import Asterion.Lib.Along
import Asterion.Matching.Arithmetic
import Asterion.Matching.Simulation

/-! When the arithmetic of a request stays within its words. Most of it always does; what can
leave is the notional of an order, the total of a level and the quantity of a replaced order. -/
namespace Asterion
open Lib
open MatchingEngine (Request executable)

namespace OrderState

theorem average_inWord {state : OrderState} (nonneg : 0 ≤ state.filledNotionalTicks)
    (small : state.filledNotionalTicks < 2 ^ 63) : InWord (averagePriceTicks state) := by
  unfold averagePriceTicks
  split
  · decide
  · rename_i filled
    have low := Int.tdiv_nonneg nonneg (not_le.mp filled).le
    have high := Int.tdiv_le_self state.filledQuantity nonneg
    exact ⟨by omega, by omega⟩

theorem reportResults_inWord {state : OrderState} (nonneg : 0 ≤ state.filledNotionalTicks)
    (small : state.filledNotionalTicks < 2 ^ 63)
    (left : InWord (state.originalQuantity - state.filledQuantity)) :
    ∀ v ∈ state.reportResults, InWord v := by
  have average := average_inWord nonneg small
  simp [reportResults, left, average]

/-- A fill of an open order stays in range exactly where its notional does. -/
theorem fillResults_inWord {state : OrderState} {n p : Int} (filled : 0 ≤ state.filledQuantity)
    (original : state.originalQuantity < 2 ^ 63) (nonneg : 0 ≤ state.filledNotionalTicks)
    (pos : 0 < n) (part : n ≤ state.originalQuantity - state.filledQuantity) (price : 0 ≤ p) :
    (∀ v ∈ state.fillResults n p, InWord v) ↔ state.filledNotionalTicks + n * p < 2 ^ 63 := by
  have product := mul_nonneg pos.le price
  simp only [fillResults, List.forall_mem_cons, List.not_mem_nil, false_implies, implies_true,
    and_true, InWord]
  constructor
  · exact fun h => h.2.2.1.2
  · intro small
    exact ⟨⟨by omega, by omega⟩, ⟨by omega, by omega⟩, ⟨by omega, small⟩, ⟨by omega, by omega⟩⟩

end OrderState

namespace OrderBook

section Taking
variable {b : OrderBook} (wf : b.WF) (totals : ∀ side price, restingAt price (b.queue side) < 2 ^ 63)
include wf totals

theorem cancelResults_inWord (orderId : Nat) : ∀ v ∈ b.cancelResults orderId, InWord v := by
  unfold cancelResults
  cases hf : b.findOrder orderId with
  | none => simp
  | some o =>
    have ho := (mem_resting wf).mp ((findOrder_eq_some wf).mp hf).1
    have part := le_restingAt (queue_pos wf o.side) ho
    have pos := queue_pos wf o.side o ho
    have total := totals o.side o.priceTicks
    simp only [List.mem_singleton, forall_eq, total_eq_restingAt wf]
    exact ⟨by omega, by omega⟩

theorem reduceResults_inWord (orderId : Nat) (quantity : Int) :
    ∀ v ∈ b.reduceResults orderId quantity, InWord v := by
  unfold reduceResults
  split
  · simp
  · rename_i positive
    cases hf : b.findOrder orderId with
    | none => simp
    | some o =>
      dsimp only
      split
      · exact cancelResults_inWord wf totals orderId
      · have ho := (mem_resting wf).mp ((findOrder_eq_some wf).mp hf).1
        have part := le_restingAt (queue_pos wf o.side) ho
        have total := totals o.side o.priceTicks
        simp only [List.forall_mem_cons, List.not_mem_nil, false_implies, implies_true, and_true,
          total_eq_restingAt wf]
        exact ⟨⟨by omega, by omega⟩, ⟨by omega, by omega⟩⟩

end Taking
end OrderBook

namespace Exchange

/-- What is stored fits. -/
structure Held (x : Exchange) : Prop where
  original : ∀ id, (x.stateAt id).originalQuantity < 2 ^ 63
  notional : ∀ id, 0 ≤ (x.stateAt id).filledNotionalTicks ∧
    (x.stateAt id).filledNotionalTicks < 2 ^ 63
  totals : ∀ s price, restingAt price (x.queue s) < 2 ^ 63

theorem new_held (symbolId : Nat) : (Exchange.new symbolId).Held where
  original _ := show (0 : Int) < 2 ^ 63 by decide
  notional _ := ⟨le_refl 0, show (0 : Int) < 2 ^ 63 by decide⟩
  totals _ _ := show (0 : Int) < 2 ^ 63 by decide

theorem Held.same {x y : Exchange} (held : x.Held) (same : SameBook x y) : y.Held := by
  have states (id : Nat) : y.stateAt id = x.stateAt id := by rw [stateAt, stateAt, same.state]
  refine ⟨fun id => ?_, fun id => ?_, fun s price => ?_⟩
  · rw [states]
    exact held.original id
  · rw [states]
    exact held.notional id
  · rw [same.queue]
    exact held.totals s price

theorem Held.setState {x : Exchange} (held : x.Held) (id : Nat) {state : OrderState}
    (original : state.originalQuantity < 2 ^ 63)
    (notional : 0 ≤ state.filledNotionalTicks ∧ state.filledNotionalTicks < 2 ^ 63) :
    (x.setState id state).Held := by
  refine ⟨fun j => ?_, fun j => ?_, held.totals⟩
  · by_cases h : j = id
    · rw [h, stateAt_setState_same]
      exact original
    · rw [stateAt_setState_other x state h]
      exact held.original j
  · by_cases h : j = id
    · rw [h, stateAt_setState_same]
      exact notional
    · rw [stateAt_setState_other x state h]
      exact held.notional j

theorem Held.queue {x y : Exchange} (held : x.Held) (states : y.state = x.state)
    (less : ∀ s price, restingAt price (y.queue s) ≤ restingAt price (x.queue s)) : y.Held := by
  have same (id : Nat) : y.stateAt id = x.stateAt id := by rw [stateAt, stateAt, states]
  refine ⟨fun id => ?_, fun id => ?_, fun s price => (less s price).trans_lt (held.totals s price)⟩
  · rw [same]
    exact held.original id
  · rw [same]
    exact held.notional id

theorem Held.status {x : Exchange} (held : x.Held) (id : Nat) (status : OrderStatus)
    (execType : ExecType) (ts : Int) (reason : RejectReason) :
    (x.close id status execType ts reason).1.Held :=
  held.setState id (held.original id) (held.notional id)

section Matching
variable {x : Exchange} {i : Nat} {wanted ts n : Int} {o : Order}

/-- The facts about a fill of the order in hand that its arithmetic depends on. -/
structure Filling (x : Exchange) (i : Nat) (wanted : Int) (o : Order) (n : Int) : Prop where
  pos : 0 < n
  wanted : n ≤ wanted
  resting : n ≤ (x.stateAt o.orderId).originalQuantity - (x.stateAt o.orderId).filledQuantity
  incoming : n ≤ (x.stateAt i).originalQuantity - (x.stateAt i).filledQuantity
  nonneg : 0 ≤ (x.stateAt o.orderId).filledQuantity ∧ 0 ≤ (x.stateAt i).filledQuantity
  apart : o.orderId ≠ i
  price : 0 < o.priceTicks

theorem Consistent.filling (c : Consistent x (some (i, wanted))) (ho : o ∈ x.facing i)
    (pos : 0 < wanted) : Filling x i wanted o (min wanted o.quantity) := by
  have hand := c.inHand i wanted rfl
  obtain ⟨stored, rests, -⟩ := c.stateAt_order ho
  have quantity := c.quantity_pos ho
  have left := hand.open_eq
  have size : o.quantity =
      (x.stateAt o.orderId).originalQuantity - (x.stateAt o.orderId).filledQuantity :=
    congrArg Order.quantity rests
  have valid := (c.filed _ o ho).2.1
  simp only [isValidRestingOrder, Bool.and_eq_true, decide_eq_true_eq] at valid
  exact ⟨by omega, by omega, by omega, by omega,
    ⟨(c.knownAt stored).filled, (c.knownAt hand.stored).filled⟩, hand.absent _ o ho, valid.1.2⟩

theorem Held.trade (held : x.Held) (c : Consistent x (some (i, wanted)))
    (f : Filling x i wanted o n)
    (incoming : (x.stateAt i).filledNotionalTicks + n * o.priceTicks < 2 ^ 63)
    (resting : (x.stateAt o.orderId).filledNotionalTicks + n * o.priceTicks < 2 ^ 63) (ts : Int) :
    (x.trade i ts (o, n)).1.Held := by
  have product := mul_nonneg f.pos.le f.price.le
  have first : (x.setState o.orderId ((x.stateAt o.orderId).fill n o.priceTicks)).Held :=
    held.setState o.orderId (held.original _) ⟨add_nonneg (held.notional _).1 product, resting⟩
  have same := stateAt_setState_other x ((x.stateAt o.orderId).fill n o.priceTicks) f.apart.symm
  have both : ((x.setState o.orderId ((x.stateAt o.orderId).fill n o.priceTicks)).setState i
      ((x.stateAt i).fill n o.priceTicks)).Held :=
    first.setState i (held.original _) ⟨add_nonneg (held.notional _).1 product, incoming⟩
  rw [← same] at both
  exact both.queue rfl fun s price =>
    restingAt_consume_le price (fun y hy => c.quantity_pos hy) (o, n) f.pos

theorem worth_cons (f : Order × Int) (fs : List (Order × Int)) :
    worth (f :: fs) = f.2 * f.1.priceTicks + worth fs := rfl

theorem Consistent.worth_nonneg (c : Consistent x (some (i, wanted))) :
    0 ≤ worth (x.sweep i wanted) := by
  apply List.sum_nonneg
  intro v hv
  obtain ⟨f, hf, rfl⟩ := List.mem_map.mp hv
  obtain ⟨ho, -, pos, -⟩ := Sweep.mem_fills (fun y hy => c.quantity_pos hy) hf
  have valid := (c.filed _ f.1 ho).2.1
  simp only [isValidRestingOrder, Bool.and_eq_true, decide_eq_true_eq] at valid
  exact mul_nonneg pos.le valid.1.2.le

theorem Consistent.sweep_apart (c : Consistent x (some (i, wanted))) (ho : o ∈ x.facing i)
    (pos : 0 < wanted) (ts : Int) :
    ∀ f ∈ (x.trade i ts (o, min wanted o.quantity)).1.sweep i (wanted - min wanted o.quantity),
      f.1.orderId ≠ o.orderId ∧ f.1.orderId ≠ i := by
  intro f hf
  have quantity := c.quantity_pos ho
  have c' : Consistent (x.trade i ts (o, min wanted o.quantity)).1
      (some (i, wanted - min wanted o.quantity)) := c.trade ho (by omega) (by omega) (by omega)
  obtain ⟨hm, -, -⟩ := Sweep.mem_fills (fun y hy => c'.quantity_pos hy) hf
  refine ⟨?_, (c'.inHand i _ rfl).absent _ f.1 hm⟩
  by_cases part : wanted < o.quantity
  · rw [sweep_stop (Or.inl (by omega))] at hf
    cases hf
  · rw [trade_queue, consume, if_neg (by dsimp only; omega)] at hm
    exact (mem_dequeue.mp hm).2

theorem Consistent.bears_cons (c : Consistent x (some (i, wanted))) (ho : o ∈ x.facing i)
    (pos : 0 < wanted) (ts notional : Int) :
    x.Bears ((o, min wanted o.quantity) ::
        (x.trade i ts (o, min wanted o.quantity)).1.sweep i (wanted - min wanted o.quantity))
        notional ↔
      (notional + min wanted o.quantity * o.priceTicks < 2 ^ 63 ∧
        (x.stateAt o.orderId).filledNotionalTicks + min wanted o.quantity * o.priceTicks < 2 ^ 63) ∧
      (x.trade i ts (o, min wanted o.quantity)).1.Bears
        ((x.trade i ts (o, min wanted o.quantity)).1.sweep i (wanted - min wanted o.quantity))
        (notional + min wanted o.quantity * o.priceTicks) := by
  have f := c.filling ho pos
  have c' : Consistent (x.trade i ts (o, min wanted o.quantity)).1
      (some (i, wanted - min wanted o.quantity)) := by
    have quantity := c.quantity_pos ho
    exact c.trade ho (by omega) (by omega) (by omega)
  have later := c'.worth_nonneg
  have apart := c.sweep_apart ho pos ts
  have same : ∀ g ∈ (x.trade i ts (o, min wanted o.quantity)).1.sweep i
      (wanted - min wanted o.quantity),
      (x.trade i ts (o, min wanted o.quantity)).1.stateAt g.1.orderId = x.stateAt g.1.orderId :=
    fun g hg => trade_stateAt_other ts _ f.apart (apart g hg).2 (apart g hg).1
  constructor
  · rintro ⟨incoming, resting⟩
    rw [worth_cons] at incoming
    dsimp only at incoming
    refine ⟨⟨by omega, resting _ List.mem_cons_self⟩, by omega, fun g hg => ?_⟩
    rw [same g hg]
    exact resting g (List.mem_cons_of_mem _ hg)
  · rintro ⟨⟨own, first⟩, incoming, resting⟩
    refine ⟨?_, fun g hg => ?_⟩
    · rw [worth_cons]
      dsimp only
      omega
    · rcases List.mem_cons.mp hg with rfl | hg
      · exact first
      · have h := resting g hg
        rwa [same g hg] at h

end Matching
end Exchange

namespace MatchingEngine
open Exchange

section Loop
variable {w : Reporting} {x : Exchange} {rs : List ExecutionReport} {i : Nat} {wanted ts : Int}
  {o : Order}

theorem iterationResults_eq (h : w.Shows x rs) (c : Consistent x (some (i, wanted)))
    (head : (x.facing i).head? = some o) :
    iterationResults w i wanted = (wanted - min wanted o.quantity) ::
      (x.stateAt o.orderId).fillResults (min wanted o.quantity) o.priceTicks ++
      (x.stateAt i).fillResults (min wanted o.quantity) o.priceTicks ++
      ((x.stateAt o.orderId).fill (min wanted o.quantity) o.priceTicks).reportResults ++
      ((x.stateAt i).fill (min wanted o.quantity) o.priceTicks).reportResults ++
      w.engine.book.reduceResults o.orderId (min wanted o.quantity) := by
  have ho : o ∈ x.facing i := List.mem_of_head? head
  have apart : o.orderId ≠ i := (c.inHand i wanted rfl).absent _ o ho
  have best : w.engine.book.bestOrder (opposite (w.engine.stateAt i).side) = some o := by
    rw [h.stateAt, OrderBook.bestOrder_eq h.wf, h.queue]
    exact head
  have known : ¬ (w.engine.states.lookup o.orderId).isNone = true := by
    rw [h.lookup, (c.stateAt_order ho).1]
    simp
  have first := h.setState o.orderId
    ((x.stateAt o.orderId).fill (min wanted o.quantity) o.priceTicks)
  have both := first.setState i ((x.stateAt i).fill (min wanted o.quantity) o.priceTicks)
  have other := stateAt_setState_other x
    ((x.stateAt o.orderId).fill (min wanted o.quantity) o.priceTicks) apart.symm
  unfold iterationResults
  rw [best]
  simp only [if_neg known, h.stateAt, first.stateAt, other, both.stateAt, stateAt_setState_same]
  rw [stateAt_setState_other _ _ apart, stateAt_setState_same]

theorem iterationResults_inWord (h : w.Shows x rs) (c : Consistent x (some (i, wanted)))
    (held : x.Held) (head : (x.facing i).head? = some o) (pos : 0 < wanted) :
    (∀ v ∈ iterationResults w i wanted, InWord v) ↔
      (x.stateAt i).filledNotionalTicks + min wanted o.quantity * o.priceTicks < 2 ^ 63 ∧
      (x.stateAt o.orderId).filledNotionalTicks + min wanted o.quantity * o.priceTicks < 2 ^ 63 := by
  have f := c.filling (List.mem_of_head? head) pos
  have left := (c.inHand i wanted rfl).open_eq
  have product := mul_nonneg f.pos.le f.price.le
  have resting := OrderState.fillResults_inWord f.nonneg.1 (held.original o.orderId)
    (held.notional o.orderId).1 f.pos f.resting f.price.le
  have incoming := OrderState.fillResults_inWord f.nonneg.2 (held.original i)
    (held.notional i).1 f.pos f.incoming f.price.le
  have totals : ∀ side price, restingAt price (w.engine.book.queue side) < 2 ^ 63 := by
    intro side price
    rw [h.queue]
    exact held.totals side price
  have taken := OrderBook.reduceResults_inWord h.wf totals o.orderId (min wanted o.quantity)
  have report {id : Nat} (nonneg : 0 ≤ (x.stateAt id).filledQuantity)
      (part : min wanted o.quantity ≤ (x.stateAt id).originalQuantity - (x.stateAt id).filledQuantity)
      (small : (x.stateAt id).filledNotionalTicks + min wanted o.quantity * o.priceTicks < 2 ^ 63) :
      ∀ v ∈ ((x.stateAt id).fill (min wanted o.quantity) o.priceTicks).reportResults, InWord v := by
    have original := held.original id
    have positive := f.pos
    refine OrderState.reportResults_inWord (add_nonneg (held.notional id).1 product) small ?_
    rw [fill_original, fill_filled]
    exact ⟨by omega, by omega⟩
  have rest : InWord (wanted - min wanted o.quantity) := by
    have original := held.original i
    have filled := f.nonneg.2
    have least := f.pos
    have most := f.wanted
    exact ⟨by omega, by omega⟩
  rw [iterationResults_eq h c head]
  simp only [List.cons_append, List.forall_mem_cons, List.forall_mem_append, resting, incoming]
  constructor
  · rintro ⟨-, ⟨⟨⟨⟨hr, hi⟩, -⟩, -⟩, -⟩⟩
    exact ⟨hi, hr⟩
  · rintro ⟨hi, hr⟩
    exact ⟨rest, ⟨⟨⟨⟨hr, hi⟩, report f.nonneg.1 f.resting hr⟩, report f.nonneg.2 f.incoming hi⟩,
      taken⟩⟩

/-- The matching loop stays in range exactly where the exchange bears its sweep, and then leaves
what is stored in range. -/
theorem matchResults_inWord (ts : Int) (fuel : Nat) (h : w.Shows x rs)
    (c : Consistent x (some (i, wanted))) (held : x.Held) (enough : wanted.toNat ≤ fuel) :
    ((∀ v ∈ matchResults i ts fuel w wanted, InWord v) ↔
      x.Bears (x.sweep i wanted) (x.stateAt i).filledNotionalTicks) ∧
    (x.Bears (x.sweep i wanted) (x.stateAt i).filledNotionalTicks →
      (x.trades i ts (x.sweep i wanted)).1.Held) := by
  have none (empty : x.sweep i wanted = []) :
      x.Bears (x.sweep i wanted) (x.stateAt i).filledNotionalTicks ∧
        (x.trades i ts (x.sweep i wanted)).1.Held := by
    rw [empty]
    refine ⟨⟨?_, fun _ hf => by cases hf⟩, held⟩
    have small := (held.notional i).2
    change (x.stateAt i).filledNotionalTicks + 0 < 2 ^ 63
    omega
  induction fuel generalizing w x wanted rs with
  | zero =>
    obtain ⟨bears, kept⟩ := none (sweep_stop (Or.inl (by omega)))
    exact ⟨iff_of_true (fun _ hv => by cases hv) bears, fun _ => kept⟩
  | succ fuel ih =>
    have crossing : w.engine.crosses (w.engine.stateAt i).side (w.engine.stateAt i).orderType
        (w.engine.stateAt i).limitPriceTicks =
        (x.facing i).head?.any (fun o => acceptable (x.stateAt i) o) := by
      rw [crosses_eq h.wf, h.view, h.stateAt]
      rfl
    unfold matchResults
    simp only [crossing]
    by_cases go : 0 < wanted ∧ ∃ o, (x.facing i).head? = some o ∧ acceptable (x.stateAt i) o = true
    · obtain ⟨pos, o, head, accept⟩ := go
      obtain ⟨q, hq⟩ := List.head?_eq_some_iff.mp head
      have ho : o ∈ x.facing i := List.mem_of_head? head
      have quantity := c.quantity_pos ho
      have f := c.filling ho pos
      obtain ⟨w', hw', h'⟩ := matchIteration_eq ts h c head pos
      have c' : Consistent (x.trade i ts (o, min wanted o.quantity)).1
          (some (i, wanted - min wanted o.quantity)) :=
        c.trade ho (by omega) (by omega) (by omega)
      have sweep := c.sweep_cons hq accept pos ts
      have one := iterationResults_inWord h c held head pos
      have split := c.bears_cons ho pos ts (x.stateAt i).filledNotionalTicks
      have notional : ((x.trade i ts (o, min wanted o.quantity)).1.stateAt i).filledNotionalTicks =
          (x.stateAt i).filledNotionalTicks + min wanted o.quantity * o.priceTicks := by
        rw [trade_stateAt_incoming ts _ f.apart]
        rfl
      rw [← notional] at one split
      have later (first : ((x.trade i ts (o, min wanted o.quantity)).1.stateAt i).filledNotionalTicks <
            2 ^ 63 ∧ (x.stateAt o.orderId).filledNotionalTicks +
            min wanted o.quantity * o.priceTicks < 2 ^ 63) := by
        rw [notional] at first
        have held' := held.trade c f first.1 first.2 ts
        refine ih h' c' held' (by omega) fun empty => ?_
        rw [empty]
        refine ⟨⟨?_, fun _ hf => by cases hf⟩, held'⟩
        have small := (held'.notional i).2
        change _ + 0 < 2 ^ 63
        omega
      rw [if_pos (by simp [pos, head, accept]), hw', sweep, split]
      simp only [List.forall_mem_append, one]
      constructor
      · constructor
        · rintro ⟨first, rest⟩
          exact ⟨first, (later first).1.mp rest⟩
        · rintro ⟨first, rest⟩
          exact ⟨first, (later first).1.mpr rest⟩
      · rintro ⟨first, rest⟩
        exact (later first).2 rest
    · have empty : x.sweep i wanted = [] := by
        refine sweep_stop ?_
        by_cases pos : 0 < wanted
        · refine Or.inr fun o ho => ?_
          by_contra accept
          exact go ⟨pos, o, ho, Bool.not_eq_false _ ▸ accept⟩
        · exact Or.inl (not_lt.mp pos)
      obtain ⟨bears, kept⟩ := none empty
      rw [if_neg]
      · exact ⟨iff_of_true (fun _ hv => by cases hv) bears, fun _ => kept⟩
      · intro hc
        simp only [Bool.and_eq_true, decide_eq_true_eq, Option.any_eq_true] at hc
        exact go ⟨hc.1, hc.2⟩

end Loop
end MatchingEngine
end Asterion
