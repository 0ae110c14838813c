import Asterion.Matching.Exchange

/-! The joint invariant of queues and order states, with room for one order that is being
matched and is in neither queue, and its preservation by each small step. -/
namespace Asterion

open Lib

/-- The order can still trade. -/
def OrderStatus.Working (status : OrderStatus) : Prop :=
  status = .new ∨ status = .partiallyFilled ∨ status = .replaced

instance (status : OrderStatus) : Decidable status.Working :=
  inferInstanceAs (Decidable (_ ∨ _ ∨ _))

namespace Exchange

/-- What every stored state satisfies, on its own. -/
structure StateOk (x : Exchange) (id : Nat) (st : OrderState) : Prop where
  own : st.exchangeOrderId = id
  positive : 0 < id
  old : id < x.nextExchangeOrderId
  side : isValidSide st.side = true
  symbol : st.symbolId = x.symbolId
  filled : 0 ≤ st.filledQuantity
  unfilled : st.status = .new → st.filledQuantity = 0
  price : st.orderType = .limit → 0 < st.limitPriceTicks

/-- The order being matched: it is in no queue, and nothing it may trade with belongs to
its own client. -/
structure InHand (x : Exchange) (i : Nat) (wanted : Int) : Prop where
  absent : ∀ s, ∀ o ∈ x.queue s, o.orderId ≠ i
  nonneg : 0 ≤ wanted
  stored : x.state i = some (x.stateAt i)
  open_eq : (x.stateAt i).originalQuantity - (x.stateAt i).filledQuantity = wanted
  status : if wanted = 0 then (x.stateAt i).status = .filled else (x.stateAt i).status.Working
  apart : ∀ o ∈ x.queue (opposite (x.stateAt i).side), acceptable (x.stateAt i) o = true →
    (x.stateAt o.orderId).clientId = (x.stateAt i).clientId → (x.stateAt i).clientId = 0

/-- The statuses an order ends in. -/
def Over (x : Exchange) (status : OrderStatus) : Prop :=
  status = .filled ∨ status = .canceled ∨ (x.symbolId = invalidSymbolId ∧ status = .rejected)

structure Consistent (x : Exchange) (pending : Option (Nat × Int)) : Prop where
  fresh : 0 < x.nextExchangeOrderId
  filed : ∀ s, ∀ o ∈ x.queue s, o.side = s ∧ isValidRestingOrder o = true ∧ o.symbolId = x.symbolId
  sorted : ∀ s, (x.queue s).Pairwise (fun a b => ¬ Order.outranks s b a)
  ids : ((x.queue .buy ++ x.queue .sell).map (·.orderId)).Nodup
  uncrossed : ∀ a ∈ x.queue .buy, ∀ b ∈ x.queue .sell, a.priceTicks < b.priceTicks
  backed : ∀ s, ∀ o ∈ x.queue s, ∃ st, x.state o.orderId = some st ∧ o = restingOrder st ∧
    st.orderType = .limit ∧ st.status.Working
  known : ∀ id st, x.state id = some st → x.StateOk id st
  inHand : ∀ i wanted, pending = some (i, wanted) → x.InHand i wanted
  idle : ∀ id st, x.state id = some st → (∀ s, ∀ o ∈ x.queue s, o.orderId ≠ id) →
    (∀ wanted, pending ≠ some (id, wanted)) → x.Over st.status

section State
variable (x : Exchange) (id : Nat) (st : OrderState)

@[simp] theorem setState_queue : (x.setState id st).queue = x.queue := rfl
@[simp] theorem setState_symbolId : (x.setState id st).symbolId = x.symbolId := rfl
@[simp] theorem setState_next :
    (x.setState id st).nextExchangeOrderId = x.nextExchangeOrderId := rfl
@[simp] theorem setState_seen : (x.setState id st).seen = x.seen := rfl
@[simp] theorem setState_same : (x.setState id st).state id = some st := Function.update_self ..
@[simp] theorem stateAt_setState_same : (x.setState id st).stateAt id = st := by
  simp [stateAt]

variable {id}

theorem setState_other {j : Nat} (h : j ≠ id) : (x.setState id st).state j = x.state j :=
  Function.update_of_ne h ..

theorem stateAt_setState_other {j : Nat} (h : j ≠ id) :
    (x.setState id st).stateAt j = x.stateAt j := by
  simp [stateAt, setState_other x st h]

variable {x st}

theorem stateAt_eq (h : x.state id = some st) : x.stateAt id = st := by simp [stateAt, h]

theorem setState_eq_self (h : x.state id = some st) : x.setState id st = x := by
  unfold setState
  rw [← h, Function.update_eq_self]

end State

section Fill
variable (st : OrderState) (n p : Int)

@[simp] theorem fill_filled : (st.fill n p).filledQuantity = st.filledQuantity + n := rfl
@[simp] theorem fill_notional :
    (st.fill n p).filledNotionalTicks = st.filledNotionalTicks + n * p := rfl
@[simp] theorem fill_original : (st.fill n p).originalQuantity = st.originalQuantity := rfl
@[simp] theorem fill_id : (st.fill n p).exchangeOrderId = st.exchangeOrderId := rfl
@[simp] theorem fill_client : (st.fill n p).clientOrderId = st.clientOrderId := rfl
@[simp] theorem fill_clientId : (st.fill n p).clientId = st.clientId := rfl
@[simp] theorem fill_side : (st.fill n p).side = st.side := rfl
@[simp] theorem fill_type : (st.fill n p).orderType = st.orderType := rfl
@[simp] theorem fill_price : (st.fill n p).limitPriceTicks = st.limitPriceTicks := rfl
@[simp] theorem fill_symbol : (st.fill n p).symbolId = st.symbolId := rfl
@[simp] theorem fill_timestamp : (st.fill n p).timestampNs = st.timestampNs := rfl

theorem remainingQuantity_eq {st : OrderState} (h : 0 ≤ st.originalQuantity - st.filledQuantity) :
    remainingQuantity st = st.originalQuantity - st.filledQuantity := by
  unfold remainingQuantity
  dsimp only
  split <;> omega

/-- A fill closes the order exactly when it takes all that was open. -/
theorem fill_status {st : OrderState} {n p : Int} (h : n ≤ st.originalQuantity - st.filledQuantity) :
    (st.fill n p).status =
      if n = st.originalQuantity - st.filledQuantity then .filled else .partiallyFilled := by
  have hr : remainingQuantity { st with
      filledQuantity := st.filledQuantity + n
      filledNotionalTicks := st.filledNotionalTicks + n * p } =
      st.originalQuantity - (st.filledQuantity + n) :=
    remainingQuantity_eq (by simp only; omega)
  unfold OrderState.fill
  simp only [hr]
  by_cases hn : n = st.originalQuantity - st.filledQuantity
  · rw [if_pos (by omega), if_pos hn]
  · rw [if_neg (by omega), if_neg hn]

end Fill

section Reading
variable {x : Exchange} {pending : Option (Nat × Int)} (c : Consistent x pending)
include c

theorem Consistent.queue_none : x.queue .none = [] := by
  rw [List.eq_nil_iff_forall_not_mem]
  intro o ho
  have hf := c.filed _ o ho
  have hv := hf.2.1
  simp [isValidRestingOrder, hf.1] at hv

theorem Consistent.mem_both {s : Side} {o : Order} (ho : o ∈ x.queue s) :
    o ∈ x.queue .buy ++ x.queue .sell := by
  cases s with
  | none => rw [c.queue_none] at ho; cases ho
  | buy => exact List.mem_append_left _ ho
  | sell => exact List.mem_append_right _ ho

theorem Consistent.unique {s t : Side} {o y : Order} (ho : o ∈ x.queue s) (hy : y ∈ x.queue t)
    (h : o.orderId = y.orderId) : o = y :=
  List.inj_on_of_nodup_map c.ids (c.mem_both ho) (c.mem_both hy) h

theorem Consistent.quantity_pos {s : Side} {o : Order} (ho : o ∈ x.queue s) : 0 < o.quantity := by
  have hv := (c.filed s o ho).2.1
  simp only [isValidRestingOrder, Bool.and_eq_true, decide_eq_true_eq] at hv
  exact hv.2

theorem Consistent.stateAt_order {s : Side} {o : Order} (ho : o ∈ x.queue s) :
    x.state o.orderId = some (x.stateAt o.orderId) ∧ o = restingOrder (x.stateAt o.orderId) ∧
      (x.stateAt o.orderId).orderType = .limit ∧ (x.stateAt o.orderId).status.Working := by
  obtain ⟨st, hst, h⟩ := c.backed s o ho
  rw [stateAt_eq hst]
  exact ⟨hst, h⟩

theorem Consistent.queue_ids_nodup (s : Side) : ((x.queue s).map (·.orderId)).Nodup := by
  have h := c.ids
  rw [List.map_append, List.nodup_append] at h
  cases s with
  | none => rw [c.queue_none]; exact .nil
  | buy => exact h.1
  | sell => exact h.2.1

theorem Consistent.stateAt_zero : x.stateAt invalidOrderId = {} := by
  cases hst : x.state invalidOrderId with
  | none => rw [stateAt, hst]; rfl
  | some st => exact absurd (c.known _ st hst).positive (lt_irrefl 0)

theorem Consistent.stateAt_next : x.stateAt x.nextExchangeOrderId = {} := by
  cases hst : x.state x.nextExchangeOrderId with
  | none => rw [stateAt, hst]; rfl
  | some st => exact absurd (c.known _ st hst).old (lt_irrefl _)

end Reading

/-- An open order that has traded since it was last replaced says so. -/
theorem Consistent.partly_filled {i : Nat} {wanted : Int} (c : Consistent x (some (i, wanted)))
    (pos : 0 < wanted) (filled : (x.stateAt i).filledQuantity > 0)
    (traded : (x.stateAt i).status ≠ .replaced) : (x.stateAt i).status = .partiallyFilled := by
  have hand := c.inHand i wanted rfl
  have hstatus := hand.status
  rw [if_neg pos.ne'] at hstatus
  rcases hstatus with hnew | hpart | hreplaced
  · have hzero := (c.known i _ hand.stored).unfilled hnew
    omega
  · exact hpart
  · exact absurd hreplaced traded

end Exchange
end Asterion
