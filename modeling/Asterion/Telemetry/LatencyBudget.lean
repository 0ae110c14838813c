import Mathlib

/-! Latency budgets of the stages, what is observed of them, and the worst offender among them. -/
namespace Asterion

inductive LatencyStage where
  | replay | bookUpdate | matching | risk | strategy | inference | total
  deriving DecidableEq, Repr

/-- `kStageCount`. -/
abbrev stageCount : Nat := 7

/-- A budget of 0 is no budget. -/
structure LatencyBudgetConfig where
  replayNs : UInt64 := 0
  bookUpdateNs : UInt64 := 0
  matchingNs : UInt64 := 0
  riskNs : UInt64 := 0
  strategyNs : UInt64 := 0
  inferenceNs : UInt64 := 0
  totalNs : UInt64 := 0
  deriving DecidableEq, Repr

def LatencyBudgetConfig.budgetFor (config : LatencyBudgetConfig) : LatencyStage → UInt64
  | .replay => config.replayNs
  | .bookUpdate => config.bookUpdateNs
  | .matching => config.matchingNs
  | .risk => config.riskNs
  | .strategy => config.strategyNs
  | .inference => config.inferenceNs
  | .total => config.totalNs

structure StageBudgetReport where
  stage : LatencyStage := .total
  hasBudget : Bool := false
  budgetNs : UInt64 := 0
  sampleCount : UInt64 := 0
  worstObservedNs : UInt64 := 0
  totalObservedNs : UInt64 := 0
  exceeded : Bool := false
  worstUtilizationPpm : UInt64 := 0
  deriving DecidableEq, Repr

/-- In parts per million, with the product of 64 bits. -/
def utilizationPpm (observedNs budgetNs : UInt64) : UInt64 :=
  if budgetNs = 0 then 0 else (observedNs * 1000000) / budgetNs

/-- What is observed of a stage. The count of the samples wraps too. -/
structure StageState where
  sampleCount : UInt64 := 0
  worstObservedNs : UInt64 := 0
  totalObservedNs : UInt64 := 0
  deriving DecidableEq, Repr

structure LatencyBudgetAccountant where
  config : LatencyBudgetConfig := {}
  states : Vector StageState stageCount := .replicate stageCount {}
  deriving DecidableEq, Repr

namespace LatencyBudgetAccountant

def indexOf : LatencyStage → Fin stageCount
  | .replay => 0
  | .bookUpdate => 1
  | .matching => 2
  | .risk => 3
  | .strategy => 4
  | .inference => 5
  | .total => 6

def stageOrder : Vector LatencyStage stageCount :=
  #v[.replay, .bookUpdate, .matching, .risk, .strategy, .inference, .total]

def stageAt (index : Fin stageCount) : LatencyStage := stageOrder[index]

def record (a : LatencyBudgetAccountant) (stage : LatencyStage) (durationNs : UInt64) :
    LatencyBudgetAccountant :=
  let state := a.states[indexOf stage]
  let state :=
    { state with
      sampleCount := state.sampleCount + 1
      totalObservedNs := state.totalObservedNs + durationNs
      worstObservedNs :=
        if durationNs > state.worstObservedNs then durationNs else state.worstObservedNs }
  { a with states := a.states.set (indexOf stage) state }

def reset (a : LatencyBudgetAccountant) : LatencyBudgetAccountant :=
  { a with states := .replicate stageCount {} }

def reportFor (a : LatencyBudgetAccountant) (stage : LatencyStage) : StageBudgetReport :=
  let state := a.states[indexOf stage]
  let budgetNs := a.config.budgetFor stage
  { stage
    hasBudget := budgetNs > 0
    budgetNs
    sampleCount := state.sampleCount
    worstObservedNs := state.worstObservedNs
    totalObservedNs := state.totalObservedNs
    worstUtilizationPpm := utilizationPpm state.worstObservedNs budgetNs
    exceeded := budgetNs > 0 && state.sampleCount > 0 && state.worstObservedNs > budgetNs }

def exceededCount (a : LatencyBudgetAccountant) : Nat :=
  (List.finRange stageCount).foldl
    (fun count index => if (a.reportFor (stageAt index)).exceeded then count + 1 else count) 0

def exceededStages (a : LatencyBudgetAccountant) : List LatencyStage :=
  (List.finRange stageCount).foldl
    (fun result index =>
      let stage := stageAt index
      if (a.reportFor stage).exceeded then result ++ [stage] else result) []

/-- The body of the loop of `worst_offender` on the worst stage so far and its utilization. -/
def offend (a : LatencyBudgetAccountant) (worst : Option LatencyStage × UInt64)
    (index : Fin stageCount) : Option LatencyStage × UInt64 :=
  let stage := stageAt index
  let report := a.reportFor stage
  if !report.hasBudget || report.sampleCount == 0 then worst
  else if worst.1.isNone || report.worstUtilizationPpm > worst.2 then
    (some stage, report.worstUtilizationPpm)
  else worst

def worstOffender (a : LatencyBudgetAccountant) : Option LatencyStage :=
  ((List.finRange stageCount).foldl a.offend (none, 0)).1

inductive Call where
  | record (stage : LatencyStage) (durationNs : UInt64)
  | reset
  deriving DecidableEq, Repr

def serve (a : LatencyBudgetAccountant) : Call → LatencyBudgetAccountant
  | .record stage durationNs => a.record stage durationNs
  | .reset => a.reset

def run (config : LatencyBudgetConfig) (calls : List Call) : LatencyBudgetAccountant :=
  calls.foldl serve { config }

def samples (stage : LatencyStage) (calls : List Call) : List UInt64 :=
  calls.foldl (fun durations call =>
    match call with
    | .record recorded durationNs => if recorded = stage then durations ++ [durationNs] else durations
    | .reset => []) []

def worst (durations : List UInt64) : Nat := (durations.map UInt64.toNat).foldl max 0

def ratio (config : LatencyBudgetConfig) (calls : List Call) (stage : LatencyStage) : ℚ :=
  worst (samples stage calls) / (config.budgetFor stage).toNat

def Rated (config : LatencyBudgetConfig) (calls : List Call) (stage : LatencyStage) : Prop :=
  config.budgetFor stage ≠ 0 ∧ samples stage calls ≠ []

end LatencyBudgetAccountant
end Asterion
