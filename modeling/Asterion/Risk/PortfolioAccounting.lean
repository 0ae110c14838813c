import Asterion.Risk.PortfolioRisk

/-! What the fills and the marks of a run amount to: the profit of the monitor is the cash that
came in plus the value of what is held, up to the remainders of the average costs. -/
namespace Asterion
open Lib

/-- A fill that opened or extended a position, with what the division of its cost left over. -/
structure Extension where
  isLong : Bool
  newQuantity : Int
  remainder : Int
  deriving DecidableEq, Repr

/-- A long position is carried too cheaply by the remainder, a short one too dearly. -/
def Extension.error (extension : Extension) : Int :=
  if extension.isLong then extension.remainder else -extension.remainder

def Extension.Bounded (extension : Extension) : Prop :=
  0 ≤ extension.remainder ∧ extension.remainder ≤ |extension.newQuantity| - 1

def cashFlow (side : Side) (quantity priceTicks : Int) : Int :=
  if side = .buy then -(quantity * priceTicks) else quantity * priceTicks

def SymbolPosition.carried (position : SymbolPosition) : Int :=
  position.averageCost * position.quantity

def SymbolPosition.extension (position : SymbolPosition) (side : Side) (quantity priceTicks : Int) :
    Option Extension :=
  let newQuantity := position.quantity + signedQuantity side quantity
  if position.Extending (signedQuantity side quantity) then
    some { isLong := decide (0 < newQuantity), newQuantity
           remainder := position.totalCost quantity priceTicks % |newQuantity| }
  else none

section Fill
variable {position : SymbolPosition} {side : Side} {quantity priceTicks : Int}

theorem newQuantity_ne_zero {signedQty : Int} (extending : position.Extending signedQty) :
    position.quantity + signedQty ≠ 0 := by
  rcases extending with ⟨long, more⟩ | ⟨short, more⟩
  · omega
  · omega

theorem extension_bounded {extension : Extension}
    (h : position.extension side quantity priceTicks = some extension) : extension.Bounded := by
  unfold SymbolPosition.extension at h
  dsimp only at h
  split at h
  · rename_i extending
    obtain rfl := Option.some.inj h
    have divisor := abs_pos.mpr (newQuantity_ne_zero extending)
    exact ⟨Int.emod_nonneg _ divisor.ne', Int.le_sub_one_of_lt (Int.emod_lt_of_pos _ divisor)⟩
  · cases h

variable (realisedPnl : Int) (valid : isValidSide side = true) (positive : 0 < quantity)
variable (price : 0 < priceTicks) (cost : 0 ≤ position.averageCost)
include valid positive price cost

omit valid in
theorem totalCost_nonneg : 0 ≤ position.totalCost quantity priceTicks := by
  rw [SymbolPosition.totalCost, Portfolio.absI64_eq]
  exact add_nonneg (mul_nonneg cost (abs_nonneg _)) (mul_nonneg price.le positive.le)

theorem applyFillTo_extending (extending : position.Extending (signedQuantity side quantity)) :
    applyFillTo position realisedPnl side quantity priceTicks =
      ({ position with
          averageCost := position.totalCost quantity priceTicks /
            |position.quantity + signedQuantity side quantity|
          quantity := position.quantity + signedQuantity side quantity }, realisedPnl) := by
  have taken : ¬ (quantity ≤ 0 ∨ isValidSide side = false) := by simp [valid, positive]
  simp only [applyFillTo, if_neg taken, if_pos extending, if_neg (newQuantity_ne_zero extending),
    Portfolio.absI64_eq, Int.tdiv_eq_ediv_of_nonneg (totalCost_nonneg positive price cost)]

theorem extending_balance (extending : position.Extending (signedQuantity side quantity)) :
    let filled := applyFillTo position realisedPnl side quantity priceTicks
    filled.2 - filled.1.carried = realisedPnl - position.carried +
      cashFlow side quantity priceTicks +
      (position.extension side quantity priceTicks).elim 0 Extension.error ∧
    0 ≤ filled.1.averageCost := by
  rw [applyFillTo_extending realisedPnl valid positive price cost extending]
  have nonneg := totalCost_nonneg positive price cost
  have parts := Int.mul_ediv_add_emod (position.totalCost quantity priceTicks)
    |position.quantity + signedQuantity side quantity|
  have total : position.totalCost quantity priceTicks =
      position.averageCost * |position.quantity| + priceTicks * quantity := by
    rw [SymbolPosition.totalCost, Portfolio.absI64_eq]
  simp only [SymbolPosition.carried, SymbolPosition.extension, if_pos extending, Option.elim_some,
    Extension.error, decide_eq_true_eq]
  refine ⟨?_, Int.ediv_nonneg nonneg (abs_nonneg _)⟩
  generalize position.totalCost quantity priceTicks /
    |position.quantity + signedQuantity side quantity| = average at parts
  generalize position.totalCost quantity priceTicks %
    |position.quantity + signedQuantity side quantity| = remainder at parts
  rw [total] at parts
  rcases extending with ⟨long, more⟩ | ⟨short, more⟩
  · have buy : side = .buy := by
      by_contra other
      rw [signedQuantity, if_neg other] at more
      omega
    have grown : 0 < position.quantity + signedQuantity side quantity := by omega
    rw [if_pos grown]
    rw [abs_of_pos grown, abs_of_nonneg long] at parts
    rw [cashFlow, if_pos buy]
    linarith
  · have sell : side ≠ .buy := by
      rintro buy
      rw [signedQuantity, if_pos buy] at more
      omega
    have grown : position.quantity + signedQuantity side quantity < 0 := by omega
    rw [if_neg grown.not_gt]
    rw [abs_of_neg grown, abs_of_nonpos short] at parts
    rw [cashFlow, if_neg sell]
    linarith

theorem reducing_balance (reducing : ¬ position.Extending (signedQuantity side quantity)) :
    let filled := applyFillTo position realisedPnl side quantity priceTicks
    filled.2 - filled.1.carried = realisedPnl - position.carried +
      cashFlow side quantity priceTicks +
      (position.extension side quantity priceTicks).elim 0 Extension.error ∧
    0 ≤ filled.1.averageCost := by
  have taken : ¬ (quantity ≤ 0 ∨ isValidSide side = false) := by simp [valid, positive]
  simp only [applyFillTo, if_neg taken, if_neg reducing, SymbolPosition.extension,
    SymbolPosition.carried, Option.elim_none, add_zero, Portfolio.absI64_eq]
  constructor
  · unfold SymbolPosition.Extending at reducing
    by_cases buy : side = .buy
    · rw [signedQuantity, if_pos buy] at reducing ⊢
      have short : position.quantity < 0 := by omega
      rw [if_neg short.not_gt, abs_of_neg short, cashFlow, if_pos buy]
      rcases le_or_gt quantity (-position.quantity) with part | flip
      · rw [min_eq_left part]
        by_cases closed : position.quantity + quantity = 0
        · obtain rfl : quantity = -position.quantity := by omega
          rw [if_pos closed]
          ring
        · rw [if_neg closed, if_neg (by omega)]
          ring
      · rw [min_eq_right flip.le, if_neg (by omega), if_pos (Or.inr ⟨short, by omega⟩)]
        ring
    · rw [signedQuantity, if_neg buy] at reducing ⊢
      have long : 0 < position.quantity := by omega
      rw [if_pos long, abs_of_pos long, cashFlow, if_neg buy]
      rcases le_or_gt quantity position.quantity with part | flip
      · rw [min_eq_left part]
        by_cases closed : position.quantity + -quantity = 0
        · obtain rfl : quantity = position.quantity := by omega
          rw [if_pos closed]
          ring
        · rw [if_neg closed, if_neg (by omega)]
          ring
      · rw [min_eq_right flip.le, if_neg (by omega), if_pos (Or.inl ⟨long, by omega⟩)]
        ring
  · split
    · exact le_refl _
    · split
      · exact price.le
      · exact cost

/-- What one fill adds to the profit that is not carried in the position. -/
theorem applyFillTo_balance :
    let filled := applyFillTo position realisedPnl side quantity priceTicks
    filled.2 - filled.1.carried = realisedPnl - position.carried +
      cashFlow side quantity priceTicks +
      (position.extension side quantity priceTicks).elim 0 Extension.error ∧
    0 ≤ filled.1.averageCost := by
  by_cases extending : position.Extending (signedQuantity side quantity)
  · exact extending_balance realisedPnl valid positive price cost extending
  · exact reducing_balance realisedPnl valid positive price cost extending

end Fill

inductive PortfolioCall where
  | applyFill (symbolId : Nat) (side : Side) (quantity priceTicks : Int)
  | setMark (symbolId : Nat) (markTicks : Int)

namespace PortfolioCall

/-- Fills have a valid side, a positive quantity and a positive price; marks are anything. -/
def Valid : PortfolioCall → Prop
  | applyFill _ side quantity priceTicks =>
      isValidSide side = true ∧ 0 < quantity ∧ 0 < priceTicks
  | setMark _ _ => True

def cash : PortfolioCall → Int
  | applyFill _ side quantity priceTicks => cashFlow side quantity priceTicks
  | setMark _ _ => 0

end PortfolioCall

namespace PortfolioRiskMonitor
variable (monitor : PortfolioRiskMonitor)

def serve : PortfolioCall → PortfolioRiskMonitor
  | .applyFill symbolId side quantity priceTicks =>
      monitor.applyFill symbolId side quantity priceTicks
  | .setMark symbolId markTicks => monitor.setMark symbolId markTicks

def extensionBy : PortfolioCall → Option Extension
  | .applyFill symbolId side quantity priceTicks =>
      (monitor.positionOf symbolId).extension side quantity priceTicks
  | .setMark _ _ => none

def extensions : PortfolioRiskMonitor → List PortfolioCall → List Extension
  | _, [] => []
  | monitor, call :: calls =>
      (monitor.extensionBy call).toList ++ extensions (monitor.serve call) calls

def value : Int := monitor.positions.total (fun _ position => position.quantity * markOf position)

def carried : Int := monitor.positions.total (fun _ position => position.carried)

/-- The state that the balance is an invariant of: no position is carried at a negative cost. -/
def CostsNonneg : Prop :=
  ∀ symbolId position, monitor.positions.find? symbolId = some position → 0 ≤ position.averageCost

theorem foldl_add {E : Type} (f : E → Int) (es : List E) (start : Int) :
    es.foldl (fun sum e => sum + f e) start = start + (es.map f).sum := by
  induction es generalizing start with
  | nil => simp
  | cons e es ih => rw [List.foldl_cons, ih, List.map_cons, List.sum_cons, add_assoc]

/-- What is realised and what is not, against the value and the cost of what is held. -/
theorem totalPnlTicks_eq :
    monitor.totalPnlTicks = monitor.realisedPnl + (monitor.value - monitor.carried) := by
  have split : ∀ es : List (Nat × SymbolPosition),
      (es.map (fun e => (markOf e.2 - e.2.averageCost) * e.2.quantity)).sum =
        (es.map (fun e => e.2.quantity * markOf e.2)).sum - (es.map (fun e => e.2.carried)).sum := by
    intro es
    induction es with
    | nil => rfl
    | cons e es ih =>
      simp only [List.map_cons, List.sum_cons, ih, SymbolPosition.carried]
      ring
  rw [totalPnlTicks, unrealisedPnlTicks, foldl_add, zero_add, split]
  rfl

section Steps
variable {monitor}

theorem positionOf_cost (costs : monitor.CostsNonneg) (symbolId : Nat) :
    0 ≤ (monitor.positionOf symbolId).averageCost := by
  unfold positionOf
  cases found : monitor.positions.find? symbolId with
  | none => exact le_refl _
  | some position => exact costs symbolId position found

theorem costs_upsert (costs : monitor.CostsNonneg) {symbolId : Nat}
    {update : SymbolPosition → SymbolPosition}
    (kept : 0 ≤ (update (monitor.positionOf symbolId)).averageCost) {other : Nat}
    {position : SymbolPosition}
    (found : (monitor.positions.upsert symbolId {} update).find? other = some position) :
    0 ≤ position.averageCost := by
  by_cases same : other = symbolId
  · subst same
    rw [SortedMap.find?_upsert_self] at found
    exact Option.some.inj found ▸ kept
  · rw [SortedMap.find?_upsert_ne _ _ _ same] at found
    exact costs other position found

theorem carried_upsert (symbolId : Nat) (update : SymbolPosition → SymbolPosition) :
    (monitor.positions.upsert symbolId {} update).total (fun _ position => position.carried) =
      monitor.carried + ((update (monitor.positionOf symbolId)).carried -
        (monitor.positionOf symbolId).carried) :=
  monitor.positions.total_upsert (f := fun _ position => position.carried) rfl update

/-- One call moves cash, or changes what is held; a fill that extends leaves a remainder. -/
theorem serve_balance {call : PortfolioCall} (valid : call.Valid) (costs : monitor.CostsNonneg) :
    (monitor.serve call).realisedPnl - (monitor.serve call).carried =
      monitor.realisedPnl - monitor.carried + call.cash +
        (monitor.extensionBy call).elim 0 Extension.error ∧
    (monitor.serve call).CostsNonneg := by
  cases call with
  | applyFill symbolId side quantity priceTicks =>
    obtain ⟨known, positive, price⟩ := valid
    obtain ⟨balance, cost⟩ := applyFillTo_balance monitor.realisedPnl known positive price
      (positionOf_cost costs symbolId)
    constructor
    · have held : (monitor.applyFill symbolId side quantity priceTicks).carried = _ :=
        carried_upsert symbolId (fun _ =>
          (applyFillTo (monitor.positionOf symbolId) monitor.realisedPnl side quantity priceTicks).1)
      change (applyFillTo _ _ side quantity priceTicks).2 -
        (monitor.applyFill symbolId side quantity priceTicks).carried = _
      simp only [held, PortfolioCall.cash, extensionBy]
      omega
    · exact fun other position found => costs_upsert costs cost found
  | setMark symbolId markTicks =>
    constructor
    · have held : (monitor.setMark symbolId markTicks).carried = _ := carried_upsert symbolId _
      change monitor.realisedPnl - (monitor.setMark symbolId markTicks).carried = _
      simp only [held, PortfolioCall.cash, extensionBy, Option.elim_none, SymbolPosition.carried]
      omega
    · exact fun other position found =>
        costs_upsert costs (positionOf_cost costs symbolId) found

theorem run_balance {calls : List PortfolioCall} (valid : ∀ call ∈ calls, call.Valid)
    (costs : monitor.CostsNonneg) :
    (calls.foldl serve monitor).realisedPnl - (calls.foldl serve monitor).carried =
      monitor.realisedPnl - monitor.carried + (calls.map PortfolioCall.cash).sum +
        ((monitor.extensions calls).map Extension.error).sum := by
  induction calls generalizing monitor with
  | nil => simp [extensions]
  | cons call calls ih =>
    obtain ⟨balance, kept⟩ := serve_balance (valid call List.mem_cons_self) costs
    have rest := ih (fun call' hc => valid call' (List.mem_cons_of_mem _ hc)) kept
    rw [List.foldl_cons, rest, balance]
    have errors : ((monitor.extensionBy call).toList.map Extension.error).sum =
        (monitor.extensionBy call).elim 0 Extension.error := by
      cases monitor.extensionBy call with
      | none => rfl
      | some extension => simp
    simp only [extensions, List.map_append, List.sum_append, errors, List.map_cons, List.sum_cons]
    omega

theorem extensions_bounded (calls : List PortfolioCall) :
    ∀ extension ∈ monitor.extensions calls, extension.Bounded := by
  induction calls generalizing monitor with
  | nil => simp [extensions]
  | cons call calls ih =>
    intro extension member
    rcases List.mem_append.mp member with now | later
    · cases call with
      | applyFill symbolId side quantity priceTicks =>
        exact extension_bounded (Option.mem_toList.mp now)
      | setMark symbolId markTicks => simp [extensionBy] at now
    · exact ih extension later

end Steps

/-- The profit of a run that starts empty is the net cash flow plus the value of what is held, up
to the remainders of the fills that extended a position. -/
theorem accounting_identity (limits : PortfolioRiskLimits) (calls : List PortfolioCall)
    (valid : ∀ call ∈ calls, call.Valid) :
    let start : PortfolioRiskMonitor := { limits }
    let reached := calls.foldl serve start
    (reached.totalPnlTicks = (calls.map PortfolioCall.cash).sum + reached.value +
      ((start.extensions calls).map Extension.error).sum) ∧
    ∀ extension ∈ start.extensions calls, extension.Bounded := by
  intro start reached
  refine ⟨?_, extensions_bounded calls⟩
  have costs : start.CostsNonneg := by
    intro symbolId position found
    cases found
  have balance := run_balance valid costs
  have fresh : start.realisedPnl - start.carried = 0 := rfl
  rw [totalPnlTicks_eq]
  change reached.realisedPnl - reached.carried = _ at balance
  omega

/-- Two buys whose mean price is no integer, a partial close, a flip and a late mark. -/
theorem accounting_identity_flip :
    let calls : List PortfolioCall :=
      [.applyFill 1 .buy 2 10, .applyFill 1 .buy 1 11, .applyFill 1 .sell 1 12,
        .applyFill 1 .sell 4 9, .setMark 1 8]
    let reached := calls.foldl serve {}
    (reached.totalPnlTicks = (calls.map PortfolioCall.cash).sum + reached.value + 1) ∧
      extensions {} calls = [⟨true, 2, 0⟩, ⟨true, 3, 1⟩] := by
  refine ⟨(accounting_identity {} _ ?_).1, by decide⟩
  simp [PortfolioCall.Valid]

end PortfolioRiskMonitor
end Asterion
