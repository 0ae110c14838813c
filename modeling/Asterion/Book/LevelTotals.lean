import Asterion.Book.CheckInvariants
import Asterion.Book.Queues

/-! The quantity that rests at a price, which the book keeps in a signed word of 64 bits, and what
the operations on the queues do to it. -/
namespace Asterion
open Lib

/-- The value has a signed word of 64 bits. -/
def InWord (x : Int) : Prop := -2 ^ 63 ≤ x ∧ x < 2 ^ 63

instance (x : Int) : Decidable (InWord x) := inferInstanceAs (Decidable (_ ∧ _))

def restingAt (price : Int) (queue : List Order) : Int :=
  ((queue.filter (fun o => o.priceTicks = price)).map (·.quantity)).sum

@[simp] theorem restingAt_nil (price : Int) : restingAt price [] = 0 := rfl

theorem restingAt_cons (price : Int) (o : Order) (queue : List Order) :
    restingAt price (o :: queue) =
      (if o.priceTicks = price then o.quantity else 0) + restingAt price queue := by
  unfold restingAt
  by_cases h : o.priceTicks = price
  · rw [List.filter_cons_of_pos (by simpa using h), List.map_cons, List.sum_cons, if_pos h]
  · rw [List.filter_cons_of_neg (by simpa using h), if_neg h, zero_add]

theorem restingAt_enqueue (price : Int) (o : Order) (queue : List Order) :
    restingAt price (enqueue o queue) =
      (if o.priceTicks = price then o.quantity else 0) + restingAt price queue := by
  have same : (enqueue o queue).Perm (o :: queue) := List.perm_orderedInsert _ _ _
  rw [← restingAt_cons]
  exact ((same.filter _).map _).sum_eq

section Shrinking
variable {queue : List Order} (price : Int)

theorem restingAt_nonneg (pos : ∀ o ∈ queue, 0 < o.quantity) : 0 ≤ restingAt price queue := by
  induction queue with
  | nil => exact le_refl 0
  | cons o queue ih =>
    have first := pos o List.mem_cons_self
    have rest := ih fun x hx => pos x (List.mem_cons_of_mem _ hx)
    rw [restingAt_cons]
    split
    · omega
    · omega

/-- An order is part of the quantity at its price. -/
theorem le_restingAt (pos : ∀ o ∈ queue, 0 < o.quantity) {o : Order} (ho : o ∈ queue) :
    o.quantity ≤ restingAt o.priceTicks queue := by
  induction queue with
  | nil => cases ho
  | cons x queue ih =>
    have first := pos x List.mem_cons_self
    have others : ∀ y ∈ queue, 0 < y.quantity := fun y hy => pos y (List.mem_cons_of_mem _ hy)
    rw [restingAt_cons]
    rcases List.mem_cons.mp ho with rfl | ho
    · have rest := restingAt_nonneg o.priceTicks others
      rw [if_pos rfl]
      omega
    · have rest := ih others ho
      split
      · omega
      · omega

theorem restingAt_dequeue_le (pos : ∀ o ∈ queue, 0 < o.quantity) (orderId : Nat) :
    restingAt price (dequeue orderId queue) ≤ restingAt price queue := by
  induction queue with
  | nil => exact le_refl 0
  | cons o queue ih =>
    have first := pos o List.mem_cons_self
    have rest := ih fun x hx => pos x (List.mem_cons_of_mem _ hx)
    have skip : dequeue orderId (o :: queue) =
        if o.orderId ≠ orderId then o :: dequeue orderId queue else dequeue orderId queue := by
      simp only [dequeue, List.filter_cons, decide_eq_true_eq]
    rw [skip]
    split
    · rw [restingAt_cons, restingAt_cons]
      omega
    · rw [restingAt_cons]
      split
      · omega
      · omega

theorem restingAt_shrink_le (orderId : Nat) {quantity : Int} (pos : 0 ≤ quantity) :
    restingAt price (shrink orderId quantity queue) ≤ restingAt price queue := by
  induction queue with
  | nil => exact le_refl 0
  | cons o queue ih =>
    have cons : shrink orderId quantity (o :: queue) =
        (if o.orderId = orderId then { o with quantity := o.quantity - quantity } else o) ::
          shrink orderId quantity queue := rfl
    rw [cons, restingAt_cons, restingAt_cons]
    split
    · dsimp only
      split
      · omega
      · omega
    · omega

theorem restingAt_consume_le (pos : ∀ o ∈ queue, 0 < o.quantity) (f : Order × Int)
    (positive : 0 < f.2) : restingAt price (consume f queue) ≤ restingAt price queue := by
  unfold consume
  split
  · exact restingAt_shrink_le price _ positive.le
  · exact restingAt_dequeue_le price pos _

end Shrinking

namespace OrderBook

/-- No level total and no sum over the orders of a level, as the invariant walk forms it order by
order, leaves the signed 64-bit range. -/
structure TotalsFit (b : OrderBook) : Prop where
  totals : ∀ side, ∀ e ∈ b.levels side, InWord e.2.totalQuantity
  childSums : ∀ side, ∀ e ∈ b.levels side, ∀ orders, orders <+: e.2.orders →
    InWord (orders.foldl (b.checkOrder side e.1) {}).childSum

theorem childSum_eq (b : OrderBook) (side : Side) (price : Int) (orders : List Order)
    (s : CheckState) :
    (orders.foldl (b.checkOrder side price) s).childSum =
      s.childSum + (orders.map (·.quantity)).sum := by
  induction orders generalizing s with
  | nil => simp
  | cons o orders ih =>
    rw [List.foldl_cons, ih, List.map_cons, List.sum_cons, ← add_assoc]
    rfl

section Totals
variable {b : OrderBook} (wf : b.WF)
include wf

theorem queue_pos (side : Side) : ∀ o ∈ b.queue side, 0 < o.quantity :=
  fun _ ho => quantity_pos wf (mem_resting_of_queue wf ho)

theorem level_total {side : Side} {e : Int × PriceLevel} (he : e ∈ b.levels side) :
    e.2.totalQuantity = restingAt e.1 (b.queue side) := by
  have found : b.level side e.1 = some e.2 := level_eq_some.mpr he
  have orders := level_orders wf side e.1
  rw [found] at orders
  have children : e.2.orders = (b.queue side).filter (fun o => o.priceTicks = e.1) := orders
  rw [(wf.levels side e he).total, children, restingAt]

theorem total_eq_restingAt (side : Side) (price : Int) :
    b.totalQuantityAt side price = restingAt price (b.queue side) :=
  totalQuantityAt_eq wf side price

/-- The sums stay in range exactly where the totals are below 2^63. -/
theorem totalsFit_iff :
    b.TotalsFit ↔ ∀ side price, restingAt price (b.queue side) < 2 ^ 63 := by
  constructor
  · intro fits side price
    rw [← total_eq_restingAt wf, totalQuantityAt]
    cases hl : b.level side price with
    | none =>
      rw [Option.map_none, Option.getD_none]
      decide
    | some level => exact (fits.totals side (price, level) (level_eq_some.mp hl)).2
  · intro small
    have total {side : Side} {e : Int × PriceLevel} (he : e ∈ b.levels side) :
        e.2.totalQuantity < 2 ^ 63 := by
      rw [level_total wf he]
      exact small side e.1
    constructor
    · intro side e he
      have nonneg := restingAt_nonneg e.1 (queue_pos wf side)
      rw [← level_total wf he] at nonneg
      exact ⟨by omega, total he⟩
    · rintro side e he orders ⟨rest, split⟩
      have level := wf.levels side e he
      have pos : ∀ o ∈ orders ++ rest, 0 < o.quantity := fun o ho =>
        queue_pos wf side o (Buckets.mem_flat.mpr ⟨e, he, split ▸ ho⟩)
      have sum := level.total
      rw [← split, List.map_append, List.sum_append] at sum
      have front : 0 ≤ (orders.map (·.quantity)).sum :=
        List.sum_nonneg (by simpa using fun o ho => (pos o (List.mem_append_left _ ho)).le)
      have back : 0 ≤ (rest.map (·.quantity)).sum :=
        List.sum_nonneg (by simpa using fun o ho => (pos o (List.mem_append_right _ ho)).le)
      have bound := total he
      rw [childSum_eq]
      dsimp only
      exact ⟨by omega, by omega⟩

end Totals

theorem new_totalsFit (symbolId : Nat) : (OrderBook.new symbolId).TotalsFit := by
  rw [totalsFit_iff (new_wf symbolId)]
  intro side price
  have empty : (OrderBook.new symbolId).queue side = [] := by cases side <;> rfl
  rw [empty, restingAt_nil]
  decide

end OrderBook
end Asterion
