import Asterion.Risk.Exposure

/-! The table of the working quantity by symbol, which holds the sums over the working orders in
every run. -/
namespace Asterion
open Lib Lib.Tally Lib.Along

namespace RiskGateway

def step (fit : Int → Int) (g : RiskGateway) (operation : Operation) : RiskGateway :=
  (perform fit g operation).1

def workingTotal (g : RiskGateway) (kind : WorkingOrder → Bool) : Int :=
  ((g.workingOrders.entries.filter (fun e => kind e.2)).map (fun e => e.2.quantity)).sum

theorem sumOf_eq_workingTotal {κ : Type} [DecidableEq κ] (key : WorkingOrder → Option κ)
    (g : RiskGateway) (k : κ) :
    sumOf key g.workingOrders k =
      g.workingTotal (fun order => Decidable.decide (key order = some k)) := by
  unfold sumOf total workingTotal part
  induction g.workingOrders.entries with
  | nil => rfl
  | cons e es ih =>
    by_cases here : key e.2 = some k
    · rw [List.filter_cons_of_pos (by simpa using here)]
      simp only [List.map_cons, List.sum_cons, here, if_true, ih]
    · rw [List.filter_cons_of_neg (by simpa using here)]
      simp only [List.map_cons, List.sum_cons, here, if_false, ih, zero_add]

section Symbols

/-- Every working order has a positive quantity, and the quantity of each symbol is the sum over its
working orders, without an entry where that is zero. -/
def ExposureExact (g : RiskGateway) : Prop :=
  (∀ id order, g.workingOrders.lookup id = some order → 0 < order.quantity) ∧
    ∀ symbolId,
      g.workingQuantityOf symbolId = g.workingTotal (fun order => order.symbolId == symbolId) ∧
      (g.workingTotal (fun order => order.symbolId == symbolId) = 0 →
        g.workingQuantity.lookup symbolId = none)

def symbolKey (order : WorkingOrder) : Option Nat := some order.symbolId

def symbolAmount (g : RiskGateway) (symbolId : Nat) : Option Int :=
  g.workingQuantity.lookup symbolId

theorem symbolLedger : Ledger symbolKey symbolAmount (fun _ => True) where
  tables {g g'} quantity _ := by
    funext symbolId
    rw [symbolAmount, symbolAmount, quantity]
  exchange _ _ := rfl
  cleared {g} cleared symbolId := by
    rw [symbolAmount, cleared.quantity]
    rfl
  add g order symbolId positive := by
    have lookup : symbolAmount (addWorkingOrderQuantity id g order order.quantity) symbolId =
        if symbolId = order.symbolId then
          some (added id order.quantity (g.workingQuantity.lookup order.symbolId))
        else g.workingQuantity.lookup symbolId := by
      rw [symbolAmount, addWorkingOrderQuantity, if_neg (not_le.mpr positive)]
      exact lookup_add symbolId
    rw [lookup]
    constructor
    · rintro ⟨-, here⟩
      obtain rfl : order.symbolId = symbolId := Option.some.inj here
      exact if_pos rfl
    · intro other
      exact if_neg (fun same => other ⟨trivial, congrArg some same.symm⟩)
  release g order symbolId positive := by
    have lookup : symbolAmount (releaseWorkingOrderQuantity id g order order.quantity) symbolId =
        if symbolId = order.symbolId then
          reduced id order.quantity (g.workingQuantity.lookup order.symbolId)
        else g.workingQuantity.lookup symbolId := by
      rw [symbolAmount, releaseWorkingOrderQuantity,
        if_neg (fun none => none.elim (not_le.mpr positive) (not_le.mpr positive)), min_self]
      exact lookup_reduce symbolId
    rw [lookup]
    by_cases here : order.symbolId = symbolId
    · have same : symbolKey order = some symbolId := congrArg some here
      rw [if_pos here.symm, if_pos same, here]
      rfl
    · have other : ¬ symbolKey order = some symbolId := fun same => here (Option.some.inj same)
      rw [if_neg (fun same => here same.symm), if_neg other]
      rfl

theorem booked_new {κ : Type} [DecidableEq κ] {key : WorkingOrder → Option κ}
    {amount : RiskGateway → κ → Option Int} {on : RiskLimits → Prop}
    (ledger : Ledger key amount on) (limits : RiskLimits) : Booked key amount on { limits } := by
  have none : ∀ {id order}, ¬ (∅ : AList (fun _ : Nat => WorkingOrder)).lookup id = some order :=
    fun h => nomatch h
  refine ⟨fun h => absurd h none, fun h => absurd h none, fun k => ⟨0, ?_, ?_⟩⟩
  · rw [ledger.cleared ⟨rfl, rfl, rfl, rfl⟩]
    rfl
  · exact ⟨le_refl 0, le_refl 0, fun _ => rfl⟩

theorem booked_along (limits : RiskLimits) (operations : List Operation) :
    Always (step id) (Booked symbolKey symbolAmount (fun _ => True)) { limits } operations := by
  apply Along.always
  · intro g operation inv
    exact symbolLedger.kept.perform inv operation (fun _ _ _ => inv.exact trivial)
  · exact booked_new symbolLedger limits

/-- The exposure stays exact in every run. -/
theorem exposure_exact (limits : RiskLimits) (operations : List Operation) :
    Always (step id) ExposureExact { limits } operations := by
  apply (booked_along limits operations).imp
  intro g inv
  refine ⟨fun id order h => inv.positive h, fun symbolId => ?_⟩
  have sum := sumOf_eq_workingTotal symbolKey g symbolId
  have exact := inv.exact trivial symbolId
  have kind : (fun order => Decidable.decide (symbolKey order = some symbolId)) =
      fun order : WorkingOrder => order.symbolId == symbolId := by
    funext order
    rw [Bool.eq_iff_iff]
    simp [symbolKey]
  rw [kind] at sum
  rw [sum] at exact
  refine ⟨?_, fun zero => ?_⟩
  · rw [workingQuantityOf]
    change (symbolAmount g symbolId).getD 0 = _
    rw [exact, kept_getD]
  · rw [zero] at exact
    exact exact

end Symbols

end RiskGateway

end Asterion
