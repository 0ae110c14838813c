import Asterion.Risk.GatewaySteps

/-! Totals of the working quantity by a key of the order, kept incrementally. Every release takes
out what the order put in, so the totals stay exact as long as every order is put in. -/
namespace Asterion
open Lib Lib.Tally Lib.Along

namespace RiskGateway

section Sums
variable {κ : Type} [DecidableEq κ]

def part (key : WorkingOrder → Option κ) (k : κ) (order : WorkingOrder) : Int :=
  if key order = some k then order.quantity else 0

theorem part_nonneg {key : WorkingOrder → Option κ} {order : WorkingOrder}
    (h : 0 < order.quantity) (k : κ) : 0 ≤ part key k order := by
  unfold part
  split
  · exact le_of_lt h
  · exact le_refl 0

def sumOf (key : WorkingOrder → Option κ) (orders : AList (fun _ : Nat => WorkingOrder)) (k : κ) :
    Int := total (fun _ => part key k) orders

/-- A table of quantities by key: it grows with the orders where it is switched on, and shrinks
with them in any case. -/
structure Ledger (key : WorkingOrder → Option κ) (amount : RiskGateway → κ → Option Int)
    (on : RiskLimits → Prop) : Prop where
  tables : ∀ {g g'}, g'.workingQuantity = g.workingQuantity → g'.clientBooks = g.clientBooks →
    amount g' = amount g
  exchange : ∀ order exchangeOrderId, key { order with exchangeOrderId } = key order
  cleared : ∀ {g}, Cleared g → ∀ k, amount g k = none
  add : ∀ g order k, 0 < order.quantity →
    (on g.limits ∧ key order = some k →
      amount (addWorkingOrderQuantity id g order order.quantity) k =
        some (added id order.quantity (amount g k))) ∧
    (¬ (on g.limits ∧ key order = some k) →
      amount (addWorkingOrderQuantity id g order order.quantity) k = amount g k)
  release : ∀ g order k, 0 < order.quantity →
    amount (releaseWorkingOrderQuantity id g order order.quantity) k =
      if key order = some k then reduced id order.quantity (amount g k) else amount g k

variable (key : WorkingOrder → Option κ) (amount : RiskGateway → κ → Option Int)
  (on : RiskLimits → Prop)

/-- The table holds no more than the sums, and exactly these where it is switched on. -/
def Holds (g : RiskGateway) (sums : κ → Int) : Prop :=
  ∀ k, ∃ x, amount g k = kept x ∧ 0 ≤ x ∧ x ≤ sums k ∧ (on g.limits → x = sums k)

def Exact (g : RiskGateway) : Prop := ∀ k, amount g k = kept (sumOf key g.workingOrders k)

/-- Working orders have accepted ids and positive quantities, and are in the table. -/
structure Booked (g : RiskGateway) : Prop where
  accepted : ∀ {id order}, g.workingOrders.lookup id = some order → id ∈ g.acceptedClientOrderIds
  positive : ∀ {id order}, g.workingOrders.lookup id = some order → 0 < order.quantity
  holds : Holds amount on g (sumOf key g.workingOrders)

variable {key amount on} {g : RiskGateway} {sums : κ → Int}

theorem Booked.exact (booked : Booked key amount on g) (here : on g.limits) :
    Exact key amount g := by
  intro k
  obtain ⟨x, hx, -, -, same⟩ := booked.holds k
  rw [hx, same here]

theorem part_le_sumOf {orders : AList (fun _ : Nat => WorkingOrder)}
    (positive : ∀ {id order}, orders.lookup id = some order → 0 < order.quantity) {id : Nat}
    {order : WorkingOrder} (h : orders.lookup id = some order) (k : κ) :
    part key k order ≤ sumOf key orders k :=
  le_total (f := fun _ => part key k) (fun _ _ lookup => part_nonneg (positive lookup) k) h

theorem sumOf_eq_zero {orders : AList (fun _ : Nat => WorkingOrder)} {k : κ}
    (absent : ∀ id order, orders.lookup id = some order → key order ≠ some k) :
    sumOf key orders k = 0 := by
  apply List.sum_eq_zero
  intro x hx
  obtain ⟨e, he, rfl⟩ := List.mem_map.mp hx
  exact if_neg (absent e.1 e.2 (AList.mem_lookup_iff.mpr he))

section Changes
variable {orders : AList (fun _ : Nat => WorkingOrder)} {id : Nat} {order : WorkingOrder} (k : κ)

theorem sumOf_erase (h : orders.lookup id = some order) :
    sumOf key (orders.erase id) k = sumOf key orders k - part key k order := by
  unfold sumOf
  rw [total_erase _ orders id, h]
  change _ = part key k order + _ - _
  omega

theorem sumOf_insert (h : orders.lookup id = some order) (order' : WorkingOrder) :
    sumOf key (orders.insert id order') k =
      sumOf key orders k - part key k order + part key k order' := by
  rw [← sumOf_erase k h]
  unfold sumOf
  rw [total_insert]
  omega

theorem sumOf_insert_new (h : orders.lookup id = none) :
    sumOf key (orders.insert id order) k = sumOf key orders k + part key k order := by
  unfold sumOf
  rw [total_insert_new h]
  omega

end Changes

section Holding
variable (ledger : Ledger key amount on) (holds : Holds amount on g sums) {order : WorkingOrder}
  (positive : 0 < order.quantity)
include ledger holds positive

theorem Ledger.holds_add : Holds amount on (addWorkingOrderQuantity id g order order.quantity)
    (fun k => sums k + part key k order) := by
  obtain ⟨_, _, frame⟩ := @addWorkingOrderQuantity_frame id g order order.quantity
  have limits : (addWorkingOrderQuantity id g order order.quantity).limits = g.limits := by
    rw [frame]
  intro k
  beta_reduce
  obtain ⟨x, hx, low, high, same⟩ := holds k
  rw [limits]
  by_cases here : on g.limits ∧ key order = some k
  · have whole : part key k order = order.quantity := if_pos here.2
    rw [whole]
    refine ⟨x + order.quantity, ?_, by omega, by omega, fun _ => ?_⟩
    · rw [(ledger.add g order k positive).1 here, hx, added_kept low positive]
    · rw [same here.1]
  · have counts := @part_nonneg _ _ key order positive k
    refine ⟨x, ?_, low, by omega, fun switched => ?_⟩
    · rw [(ledger.add g order k positive).2 here, hx]
    · have nothing : part key k order = 0 := if_neg (fun h => here ⟨switched, h⟩)
      rw [nothing, same switched, add_zero]

theorem Ledger.holds_release (le : ∀ k, part key k order ≤ sums k) :
    Holds amount on (releaseWorkingOrderQuantity id g order order.quantity)
      (fun k => sums k - part key k order) := by
  obtain ⟨_, _, frame⟩ := @releaseWorkingOrderQuantity_frame id g order order.quantity
  have limits : (releaseWorkingOrderQuantity id g order order.quantity).limits = g.limits := by
    rw [frame]
  intro k
  beta_reduce
  obtain ⟨x, hx, low, high, same⟩ := holds k
  have covers := le k
  rw [limits, ledger.release g order k positive]
  by_cases here : key order = some k
  · have whole : part key k order = order.quantity := if_pos here
    rw [if_pos here, hx, reduced_kept low positive]
    rw [whole] at covers ⊢
    refine ⟨max 0 (x - order.quantity), rfl, by omega, by omega, fun switched => ?_⟩
    rw [same switched]
    omega
  · have nothing : part key k order = 0 := if_neg here
    rw [if_neg here, nothing, sub_zero]
    exact ⟨x, hx, low, high, same⟩

end Holding

/-- The table is switched on only while it holds the sums. -/
def SwitchedOnExact (key : WorkingOrder → Option κ) (amount : RiskGateway → κ → Option Int)
    (on : RiskLimits → Prop) (g : RiskGateway) (operation : Operation) : Prop :=
  ∀ limits, operation = .setLimits limits → on limits → Exact key amount g

theorem Ledger.holds_same (ledger : Ledger key amount on) {g' : RiskGateway}
    (holds : Holds amount on g sums) (quantity : g'.workingQuantity = g.workingQuantity)
    (books : g'.clientBooks = g.clientBooks) (limits : g'.limits = g.limits) :
    Holds amount on g' sums := by
  intro k
  rw [ledger.tables quantity books, limits]
  exact holds k

section Kept
variable (ledger : Ledger key amount on) (booked : Booked key amount on g)
include ledger booked

theorem Ledger.booked_register {request : NewOrderRequest}
    (accepted : request.clientOrderId ∈ g.acceptedClientOrderIds)
    (fresh : g.workingOrders.lookup request.clientOrderId = none) (positive : 0 < request.quantity) :
    Booked key amount on (registerWorkingOrder id g request) := by
  unfold registerWorkingOrder
  split
  · exact booked
  obtain ⟨order, ho⟩ : ∃ order : WorkingOrder, order =
      { clientId := request.clientId, symbolId := request.symbolId, side := request.side
        priceTicks := request.priceTicks, quantity := request.quantity } := ⟨_, rfl⟩
  have size : 0 < order.quantity := by
    rw [ho]
    exact positive
  rw [← ho]
  dsimp only
  obtain ⟨quantities, books, frame⟩ :=
    @addWorkingOrderQuantity_frame id (g.setOrder request.clientOrderId order) order order.quantity
  have here : Holds amount on (g.setOrder request.clientOrderId order)
      (sumOf key g.workingOrders) := ledger.holds_same booked.holds rfl rfl rfl
  have held := ledger.holds_add here size
  rw [frame] at held ⊢
  refine ⟨fun h => ?_, fun h => ?_, fun k => ?_⟩
  · rcases lookup_insert_cases h with ⟨rfl, -⟩ | old
    · exact accepted
    · exact booked.accepted old
  · rcases lookup_insert_cases h with ⟨-, rfl⟩ | old
    · exact size
    · exact booked.positive old
  · have sum := @sumOf_insert_new _ _ key g.workingOrders request.clientOrderId order k fresh
    have one := held k
    beta_reduce at one
    rw [← sum] at one
    exact one

theorem Ledger.booked_resize {clientOrderId : Nat} {order : WorkingOrder} {price quantity : Int}
    (lookup : g.workingOrders.lookup clientOrderId = some order) (positive : 0 < quantity) :
    Booked key amount on (resizeOrder id g clientOrderId order price quantity) := by
  obtain ⟨resized, hr⟩ : ∃ resized : WorkingOrder, resized =
      { order with priceTicks := price, quantity := quantity } := ⟨_, rfl⟩
  have size : 0 < resized.quantity := by
    rw [hr]
    exact positive
  have taken := ledger.holds_release booked.holds (booked.positive lookup)
    (part_le_sumOf booked.positive lookup)
  have set : Holds amount on ((releaseWorkingOrderQuantity id g order order.quantity).setOrder
      clientOrderId resized) (fun k => sumOf key g.workingOrders k - part key k order) :=
    ledger.holds_same taken rfl rfl rfl
  have held := ledger.holds_add set size
  have whole : resizeOrder id g clientOrderId order price quantity =
      addWorkingOrderQuantity id ((releaseWorkingOrderQuantity id g order order.quantity).setOrder
        clientOrderId resized) resized resized.quantity := by
    rw [hr]
    rfl
  obtain ⟨quantities, books, frame⟩ := @resizeOrder_frame id g order clientOrderId price quantity
  rw [← whole, frame] at held
  rw [frame]
  rw [← hr] at held ⊢
  refine ⟨fun h => ?_, fun h => ?_, fun k => ?_⟩
  · rcases lookup_insert_cases h with ⟨rfl, -⟩ | old
    · exact booked.accepted lookup
    · exact booked.accepted old
  · rcases lookup_insert_cases h with ⟨-, rfl⟩ | old
    · exact size
    · exact booked.positive old
  · have sum : sumOf key (g.workingOrders.insert clientOrderId resized) k =
        sumOf key g.workingOrders k - part key k order + part key k resized :=
      sumOf_insert k lookup resized
    have one := held k
    beta_reduce at one
    rw [← sum] at one
    exact one

theorem Ledger.booked_release (clientOrderId : Nat) :
    Booked key amount on (releaseOrder id g clientOrderId) := by
  cases lookup : g.workingOrders.lookup clientOrderId with
  | none =>
    have same : releaseOrder id g clientOrderId = g := by
      unfold releaseOrder
      rw [lookup]
    rw [same]
    exact booked
  | some order =>
    have taken := ledger.holds_release booked.holds (booked.positive lookup)
      (part_le_sumOf booked.positive lookup)
    obtain ⟨quantities, books, index, frame⟩ := @releaseOrder_frame id g order clientOrderId lookup
    have held : Holds amount on (releaseOrder id g clientOrderId)
        (fun k => sumOf key g.workingOrders k - part key k order) := by
      apply ledger.holds_same taken
      · unfold releaseOrder
        rw [lookup]
      · unfold releaseOrder
        rw [lookup]
      · unfold releaseOrder
        rw [lookup]
    rw [frame] at held ⊢
    have looks : ∀ {id' order'},
        (g.workingOrders.erase clientOrderId).lookup id' = some order' →
          g.workingOrders.lookup id' = some order' := lookup_of_erase
    refine ⟨fun h => booked.accepted (looks h), fun h => booked.positive (looks h), fun k => ?_⟩
    have sum : sumOf key (g.workingOrders.erase clientOrderId) k =
        sumOf key g.workingOrders k - part key k order := sumOf_erase k lookup
    have one := held k
    beta_reduce at one
    rw [← sum] at one
    exact one

theorem Ledger.booked_bind {clientOrderId exchangeOrderId : Nat} {order : WorkingOrder}
    (lookup : g.workingOrders.lookup clientOrderId = some order) :
    Booked key amount on (bindExchangeOrderId g clientOrderId order exchangeOrderId) := by
  unfold bindExchangeOrderId
  split
  · exact booked
  have sums : sumOf key (g.workingOrders.insert clientOrderId { order with exchangeOrderId }) =
      sumOf key g.workingOrders := by
    funext k
    have same : part key k { order with exchangeOrderId } = part key k order := by
      unfold part
      rw [ledger.exchange]
    rw [sumOf_insert k lookup, same, sub_add_cancel]
  refine ⟨fun h => ?_, fun h => ?_, ?_⟩
  · rcases lookup_insert_cases h with ⟨rfl, -⟩ | old
    · exact booked.accepted lookup
    · exact booked.accepted old
  · rcases lookup_insert_cases h with ⟨-, rfl⟩ | old
    · change 0 < order.quantity
      exact booked.positive lookup
    · exact booked.positive old
  · change Holds amount on _
      (sumOf key (g.workingOrders.insert clientOrderId { order with exchangeOrderId }))
    rw [sums]
    exact ledger.holds_same booked.holds rfl rfl rfl

omit booked in
/-- Every operation keeps the table, where it is only switched on while it holds the sums. -/
theorem Ledger.kept : KeptBy id (SwitchedOnExact key amount on) (Booked key amount on) where
  same {g g'} booked same := by
    refine ⟨fun h => ?_, fun h => ?_, ?_⟩
    · rw [same.orders] at h
      rw [same.accepted]
      exact booked.accepted h
    · rw [same.orders] at h
      exact booked.positive h
    · rw [same.orders]
      exact ledger.holds_same booked.holds same.quantity same.books same.limits
  cleared {g g'} _ cleared _ _ := by
    have none : ∀ {id order}, ¬ g'.workingOrders.lookup id = some order := by
      intro id order h
      rw [cleared.orders] at h
      cases h
    refine ⟨fun h => absurd h none, fun h => absurd h none, fun k => ⟨0, ?_, ?_⟩⟩
    · rw [ledger.cleared cleared]
      rfl
    · rw [cleared.orders]
      exact ⟨le_refl 0, le_refl 0, fun _ => rfl⟩
  limits {g limits} booked allowed := by
    refine ⟨booked.accepted, booked.positive, fun k => ?_⟩
    have tables : amount (g.setLimits limits) = amount g := ledger.tables rfl rfl
    obtain ⟨x, hx, low, high, -⟩ := booked.holds k
    rw [tables]
    by_cases here : on limits
    · exact ⟨_, allowed limits rfl here k, le_trans low high, le_refl _, fun _ => rfl⟩
    · exact ⟨x, hx, low, high, fun h => absurd h here⟩
  accepted id booked :=
    ⟨fun h => Finset.mem_insert_of_mem (booked.accepted h), booked.positive,
      ledger.holds_same booked.holds rfl rfl rfl⟩
  admitted {g request} booked unused positive := by
    have fresh : g.workingOrders.lookup request.clientOrderId = none := by
      cases h : g.workingOrders.lookup request.clientOrderId with
      | none => rfl
      | some order => exact absurd (booked.accepted h) unused
    have inserted : Booked key amount on { g with
        acceptedClientOrderIds := insert request.clientOrderId g.acceptedClientOrderIds } :=
      ⟨fun h => Finset.mem_insert_of_mem (booked.accepted h), booked.positive,
        ledger.holds_same booked.holds rfl rfl rfl⟩
    unfold admitted
    dsimp only
    split
    · exact ledger.booked_register inserted (Finset.mem_insert_self _ _) fresh positive
    · exact inserted
  resized booked lookup positive := ledger.booked_resize booked lookup positive
  released id booked := ledger.booked_release booked id
  bound booked _ _ found _ := ledger.booked_bind booked (findReported_lookup found)

end Kept

end Sums

end RiskGateway

end Asterion
