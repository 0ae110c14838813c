import Asterion.Telemetry.LatencyBudget

/-! The worst offender is the budgeted stage of the highest utilization in whole parts per million, the
first in the order of the stages where several have it. -/
namespace Asterion.LatencyBudgetAccountant

theorem stageAt_indexOf (stage : LatencyStage) : stageAt (indexOf stage) = stage := by
  cases stage <;> rfl

theorem indexOf_inj {s t : LatencyStage} : indexOf s = indexOf t ↔ s = t := by
  constructor
  · intro same
    rw [← stageAt_indexOf s, same, stageAt_indexOf]
  · exact congrArg indexOf

theorem worst_append (durations : List UInt64) (d : UInt64) :
    worst (durations ++ [d]) = max (worst durations) d.toNat := by
  rw [worst, List.map_append, List.foldl_append]
  rfl

/-- What is kept of a stage is true of its samples since the last reset. -/
structure Observed (state : StageState) (durations : List UInt64) : Prop where
  sampleCount : state.sampleCount = UInt64.ofNat durations.length
  worst : state.worstObservedNs.toNat = worst durations

theorem observed_empty : Observed {} [] := ⟨rfl, rfl⟩

theorem Observed.record {state : StageState} {durations : List UInt64} (h : Observed state durations)
    (d total : UInt64) :
    Observed
      { sampleCount := state.sampleCount + 1
        totalObservedNs := total
        worstObservedNs := if d > state.worstObservedNs then d else state.worstObservedNs }
      (durations ++ [d]) := by
  constructor
  · rw [List.length_append, List.length_singleton, h.sampleCount, UInt64.ofNat_add]
    rfl
  · rw [worst_append, ← h.worst]
    by_cases larger : d > state.worstObservedNs
    · have above : state.worstObservedNs.toNat < d.toNat := UInt64.lt_iff_toNat_lt.mp larger
      rw [if_pos larger]
      exact (max_eq_right (le_of_lt above)).symm
    · have below : d.toNat ≤ state.worstObservedNs.toNat :=
        Nat.le_of_not_gt (fun above => larger (UInt64.lt_iff_toNat_lt.mpr above))
      rw [if_neg larger]
      exact (max_eq_left below).symm

theorem Observed.sampleCount_ne_zero {state : StageState} {durations : List UInt64}
    (h : Observed state durations) (few : durations.length < 2 ^ 64) :
    state.sampleCount ≠ 0 ↔ durations ≠ [] := by
  have count : (UInt64.ofNat durations.length).toNat = durations.length :=
    UInt64.toNat_ofNat_of_lt' few
  rw [h.sampleCount, ← UInt64.toNat_inj.ne, count]
  exact List.length_eq_zero_iff.not

section Runs
variable (config : LatencyBudgetConfig) (calls : List Call)

theorem run_append (call : Call) : run config (calls ++ [call]) = (run config calls).serve call := by
  rw [run, List.foldl_append]
  rfl

theorem run_config : (run config calls).config = config := by
  induction calls using List.reverseRecOn with
  | nil => rfl
  | append_singleton calls call ih =>
    rw [run_append]
    cases call with
    | record stage durationNs => exact ih
    | reset => exact ih

theorem run_observed (stage : LatencyStage) :
    Observed ((run config calls).states.get (indexOf stage)) (samples stage calls) := by
  change Observed (run config calls).states[indexOf stage] (samples stage calls)
  induction calls using List.reverseRecOn with
  | nil =>
    have fresh : (run config []).states[indexOf stage] = {} := Vector.getElem_replicate _
    rw [fresh]
    exact observed_empty
  | append_singleton calls call ih =>
    rw [samples, List.foldl_append]
    cases call with
    | record recorded durationNs =>
      by_cases same : recorded = stage
      · have kept := ih.record durationNs
          ((run config calls).states[indexOf stage].totalObservedNs + durationNs)
        subst same
        simpa [run_append, serve, LatencyBudgetAccountant.record, samples] using kept
      · have other : indexOf recorded ≠ indexOf stage := fun h => same (indexOf_inj.mp h)
        have apart : (indexOf recorded).val ≠ (indexOf stage).val := fun h => other (Fin.ext h)
        simpa [run_append, serve, LatencyBudgetAccountant.record, samples, same, apart] using ih
    | reset =>
      have fresh : (run config (calls ++ [.reset])).states[indexOf stage] = {} := by
        rw [run_append]
        exact Vector.getElem_replicate _
      rw [fresh]
      exact observed_empty

end Runs

section Scan
variable (a : LatencyBudgetAccountant)

def Counts (stage : LatencyStage) : Bool :=
  (a.reportFor stage).hasBudget && (a.reportFor stage).sampleCount != 0

def ppm (stage : LatencyStage) : Nat := (a.reportFor stage).worstUtilizationPpm.toNat

def rated : List LatencyStage := ((List.finRange stageCount).map stageAt).filter a.Counts

/-- The loop keeps the first of the stages seen that are not exceeded by another. -/
theorem foldl_offend (indices : List (Fin stageCount)) (worst : Option LatencyStage × UInt64)
    (kept : ∀ stage, worst.1 = some stage → worst.2.toNat = a.ppm stage) :
    (indices.foldl a.offend worst).1 = ((indices.map stageAt).filter a.Counts).foldl
      (List.argAux (fun new old => a.ppm old < a.ppm new)) worst.1 := by
  induction indices generalizing worst with
  | nil => rfl
  | cons index indices ih =>
    rw [List.foldl_cons, List.map_cons, List.filter_cons]
    have skips : (!(a.reportFor (stageAt index)).hasBudget ||
        (a.reportFor (stageAt index)).sampleCount == 0) = !a.Counts (stageAt index) := by
      simp [Counts, bne]
    by_cases counts : a.Counts (stageAt index) = true
    · rw [if_pos counts, List.foldl_cons]
      rw [counts] at skips
      rcases worst with ⟨best | best, bestPpm⟩
      · have taken : a.offend (none, bestPpm) index =
            (some (stageAt index), (a.reportFor (stageAt index)).worstUtilizationPpm) := by
          simp [offend, skips]
        rw [taken, ih _ (fun stage same => by cases same; rfl)]
        rfl
      · have bestIs : bestPpm.toNat = a.ppm best := kept best rfl
        by_cases more : a.ppm best < a.ppm (stageAt index)
        · have above : (a.reportFor (stageAt index)).worstUtilizationPpm > bestPpm :=
            UInt64.lt_iff_toNat_lt.mpr (by rw [bestIs]; exact more)
          have taken : a.offend (some best, bestPpm) index =
              (some (stageAt index), (a.reportFor (stageAt index)).worstUtilizationPpm) := by
            simp [offend, skips, above]
          rw [taken, ih _ (fun stage same => by cases same; rfl), List.argAux]
          simp [more]
        · have notAbove : ¬ (a.reportFor (stageAt index)).worstUtilizationPpm > bestPpm := by
            intro above
            exact more (by rw [← bestIs]; exact UInt64.lt_iff_toNat_lt.mp above)
          have left : a.offend (some best, bestPpm) index = (some best, bestPpm) := by
            simp [offend, skips, notAbove]
          rw [left, ih _ kept, List.argAux]
          simp [more]
    · rw [if_neg counts]
      rw [Bool.not_eq_true] at counts
      have left : a.offend worst index = worst := by
        simp [offend, skips, counts]
      rw [left, ih worst kept]

theorem worstOffender_eq_argmax : a.worstOffender = a.rated.argmax a.ppm :=
  a.foldl_offend _ _ (fun stage nothing => by cases nothing)

theorem mem_rated {stage : LatencyStage} : stage ∈ a.rated ↔ a.Counts stage = true := by
  rw [rated, List.mem_filter, List.mem_map]
  constructor
  · exact fun h => h.2
  · exact fun counts => ⟨⟨indexOf stage, List.mem_finRange _, stageAt_indexOf stage⟩, counts⟩

theorem exceededStages_eq : a.exceededStages =
    ((List.finRange stageCount).map stageAt).filter (fun stage => (a.reportFor stage).exceeded) := by
  have scan : ∀ (indices : List (Fin stageCount)) (result : List LatencyStage),
      indices.foldl (fun result index =>
        let stage := stageAt index
        if (a.reportFor stage).exceeded then result ++ [stage] else result) result =
      result ++ (indices.map stageAt).filter (fun stage => (a.reportFor stage).exceeded) := by
    intro indices
    induction indices with
    | nil => simp
    | cons index indices ih =>
      intro result
      rw [List.foldl_cons, List.map_cons, List.filter_cons, ih]
      by_cases exceeded : (a.reportFor (stageAt index)).exceeded = true
      · simp [exceeded]
      · simp [exceeded]
  exact scan _ []

theorem mem_exceededStages {stage : LatencyStage} :
    stage ∈ a.exceededStages ↔ (a.reportFor stage).exceeded = true := by
  rw [exceededStages_eq, List.mem_filter, List.mem_map]
  constructor
  · exact fun h => h.2
  · exact fun exceeded => ⟨⟨indexOf stage, List.mem_finRange _, stageAt_indexOf stage⟩, exceeded⟩

theorem exceededCount_eq : a.exceededCount = a.exceededStages.length := by
  have scan : ∀ (indices : List (Fin stageCount)) (count : Nat),
      indices.foldl (fun count index =>
        if (a.reportFor (stageAt index)).exceeded then count + 1 else count) count =
      count + ((indices.map stageAt).filter (fun stage => (a.reportFor stage).exceeded)).length := by
    intro indices
    induction indices with
    | nil => simp
    | cons index indices ih =>
      intro count
      rw [List.foldl_cons, List.map_cons, List.filter_cons]
      split
      · rw [ih, List.length_cons]
        omega
      · rw [ih]
  rw [exceededStages_eq, ← Nat.zero_add (List.length _)]
  exact scan _ 0

theorem indexOf_le_of_idxOf {s t : LatencyStage} (hs : s ∈ a.rated) (ht : t ∈ a.rated)
    (before : a.rated.idxOf s ≤ a.rated.idxOf t) : indexOf s ≤ indexOf t := by
  have ordered : a.rated.Pairwise (fun s t => indexOf s < indexOf t) := by
    have all : ((List.finRange stageCount).map stageAt).Pairwise (fun s t => indexOf s < indexOf t) := by
      decide
    exact all.filter _
  rcases Nat.lt_or_eq_of_le before with less | same
  · have above := List.pairwise_iff_getElem.mp ordered _ _ (List.idxOf_lt_length_of_mem hs)
      (List.idxOf_lt_length_of_mem ht) less
    rw [List.getElem_idxOf, List.getElem_idxOf] at above
    exact le_of_lt above
  · rw [(List.idxOf_inj hs).mp same]

end Scan

/-- The samples of every stage since the last reset are fewer than a count can tell. -/
def Countable (calls : List Call) : Prop := ∀ stage, (samples stage calls).length < 2 ^ 64

section Counts
variable {config : LatencyBudgetConfig} {calls : List Call} (countable : Countable calls)
include countable

theorem counts_iff (stage : LatencyStage) :
    (run config calls).Counts stage = true ↔ Rated config calls stage := by
  have seen : Observed (run config calls).states[indexOf stage] (samples stage calls) :=
    run_observed config calls stage
  rw [Counts, Rated, ← seen.sampleCount_ne_zero (countable stage)]
  simp [reportFor, run_config, UInt64.pos_iff_ne_zero]

theorem exceeded_iff (stage : LatencyStage) :
    ((run config calls).reportFor stage).exceeded = true ↔
      Rated config calls stage ∧ (config.budgetFor stage).toNat < worst (samples stage calls) := by
  have seen : Observed (run config calls).states[indexOf stage] (samples stage calls) :=
    run_observed config calls stage
  rw [Rated, ← seen.sampleCount_ne_zero (countable stage), ← seen.worst, ← UInt64.lt_iff_toNat_lt]
  simp [reportFor, run_config, UInt64.pos_iff_ne_zero]

theorem mem_rated_run {stage : LatencyStage} :
    stage ∈ (run config calls).rated ↔ Rated config calls stage := by
  rw [mem_rated, counts_iff countable]

theorem worstOffender_eq_none :
    (run config calls).worstOffender = none ↔ ∀ stage, ¬ Rated config calls stage := by
  rw [worstOffender_eq_argmax, List.argmax_eq_none, List.eq_nil_iff_forall_not_mem]
  exact forall_congr' (fun _ => not_congr (mem_rated_run countable))

theorem rated_of_worstOffender {stage : LatencyStage}
    (found : (run config calls).worstOffender = some stage) : Rated config calls stage := by
  rw [worstOffender_eq_argmax] at found
  exact (mem_rated_run countable).mp (List.argmax_mem found)

end Counts

section Exact
variable (config : LatencyBudgetConfig) (calls : List Call)

/-- Where the product does not wrap, the utilization is the ratio in whole parts per million. -/
theorem ppm_eq {stage : LatencyStage} (budget : config.budgetFor stage ≠ 0)
    (fits : worst (samples stage calls) * 1000000 < 2 ^ 64) :
    (run config calls).ppm stage = ⌊ratio config calls stage * 1000000⌋₊ := by
  have seen : Observed (run config calls).states[indexOf stage] (samples stage calls) :=
    run_observed config calls stage
  have scaled : ratio config calls stage * 1000000 =
      ((worst (samples stage calls) * 1000000 : ℕ) : ℚ) / ((config.budgetFor stage).toNat : ℚ) := by
    rw [ratio]
    push_cast
    ring
  have exact : (run config calls).ppm stage =
      worst (samples stage calls) * 1000000 / (config.budgetFor stage).toNat := by
    change (utilizationPpm _ ((run config calls).config.budgetFor stage)).toNat = _
    rw [run_config, utilizationPpm, if_neg budget, UInt64.toNat_div, UInt64.toNat_mul, seen.worst]
    change worst (samples stage calls) * 1000000 % 2 ^ 64 / _ = _
    rw [Nat.mod_eq_of_lt fits]
  rw [exact, scaled, Nat.floor_div_eq_div]

theorem ratio_nonneg (stage : LatencyStage) : 0 ≤ ratio config calls stage * 1000000 := by
  rw [ratio]
  positivity

theorem one_le_ratio {stage : LatencyStage} (budget : config.budgetFor stage ≠ 0) :
    1 ≤ ratio config calls stage ↔ (config.budgetFor stage).toNat ≤ worst (samples stage calls) := by
  have positive : 0 < (config.budgetFor stage).toNat :=
    Nat.pos_of_ne_zero (fun zero => budget (UInt64.toNat_inj.mp zero))
  rw [ratio, one_le_div (Nat.cast_pos.mpr positive), Nat.cast_le]

/-- The worst offender is the worst by exact ratios. -/
def WorstByRatio : Prop :=
  let a := run config calls
  (a.worstOffender = none ↔ ∀ stage, ¬ Rated config calls stage) ∧
  ∀ stage, a.worstOffender = some stage →
    Rated config calls stage ∧
    (∀ other, Rated config calls other → ratio config calls other ≤ ratio config calls stage) ∧
    (a.exceededCount > 0 → stage ∈ a.exceededStages)

/-- A near tie: both ratios are 1000000 parts per million, and the earlier stage is inside its
budget. -/
theorem near_tie : ¬ WorstByRatio { replayNs := 1, bookUpdateNs := 1000000000 }
    [.record .replay 1, .record .bookUpdate 1000000001] := by
  intro worst
  have exceeded := (worst.2 .replay (by decide)).2.2 (by decide)
  exact absurd exceeded (by decide)

end Exact

section Rounded
variable {config : LatencyBudgetConfig} {calls : List Call}
variable (fits : ∀ stage, Rated config calls stage → worst (samples stage calls) * 1000000 < 2 ^ 64)
include fits

theorem ppm_rated {stage : LatencyStage} (rated : Rated config calls stage) :
    (run config calls).ppm stage = ⌊ratio config calls stage * 1000000⌋₊ :=
  ppm_eq config calls rated.1 (fits stage rated)

variable (countable : Countable calls) {stage : LatencyStage}
  (found : (run config calls).worstOffender = some stage)
include countable found

/-- No rated stage has more whole parts per million, and no earlier one has as many. -/
theorem worstOffender_first {other : LatencyStage} (otherRated : Rated config calls other) :
    ⌊ratio config calls other * 1000000⌋₊ ≤ ⌊ratio config calls stage * 1000000⌋₊ ∧
      (⌊ratio config calls other * 1000000⌋₊ = ⌊ratio config calls stage * 1000000⌋₊ →
        indexOf stage ≤ indexOf other) := by
  have rated := rated_of_worstOffender countable found
  rw [worstOffender_eq_argmax] at found
  obtain ⟨inside, greatest, first⟩ := List.argmax_eq_some_iff.mp found
  have otherIn := (mem_rated_run countable).mpr otherRated
  rw [← ppm_rated fits otherRated, ← ppm_rated fits rated]
  refine ⟨greatest other otherIn, fun same => ?_⟩
  apply indexOf_le_of_idxOf _ inside otherIn
  exact first other otherIn (le_of_eq same.symm)

theorem ratio_lt {other : LatencyStage} (otherRated : Rated config calls other) :
    ratio config calls other < ratio config calls stage + 1 / 1000000 := by
  have atMost := (worstOffender_first fits countable found otherRated).1
  have below := Nat.lt_floor_add_one (ratio config calls other * 1000000)
  have above := Nat.floor_le (ratio_nonneg config calls stage)
  have cast : (⌊ratio config calls other * 1000000⌋₊ : ℚ) ≤
      (⌊ratio config calls stage * 1000000⌋₊ : ℚ) := Nat.cast_le.mpr atMost
  linarith

/-- Where a stage exceeds its budget, the worst offender exceeds its own or uses it up. -/
theorem worstOffender_used (exceeded : (run config calls).exceededCount > 0) :
    stage ∈ (run config calls).exceededStages ∨ ratio config calls stage = 1 := by
  have rated := rated_of_worstOffender countable found
  rw [exceededCount_eq] at exceeded
  obtain ⟨breach, member⟩ := List.exists_mem_of_length_pos exceeded
  obtain ⟨breachRated, exceeds⟩ := (exceeded_iff countable breach).mp
    ((mem_exceededStages _).mp member)
  have one : 1 ≤ ratio config calls breach := (one_le_ratio config calls breachRated.1).mpr exceeds.le
  have million : 1000000 ≤ ⌊ratio config calls breach * 1000000⌋₊ := by
    apply Nat.le_floor
    push_cast
    linarith
  have atMost := (worstOffender_first fits countable found breachRated).1
  have reached : ((1000000 : ℕ) : ℚ) ≤ ratio config calls stage * 1000000 :=
    (Nat.cast_le.mpr (million.trans atMost)).trans (Nat.floor_le (ratio_nonneg config calls stage))
  have used : 1 ≤ ratio config calls stage := by
    push_cast at reached
    linarith
  rcases Nat.lt_or_eq_of_le ((one_le_ratio config calls rated.1).mp used) with above | exactly
  · exact .inl ((mem_exceededStages _).mpr ((exceeded_iff countable stage).mpr ⟨rated, above⟩))
  · have positive : ((config.budgetFor stage).toNat : ℚ) ≠ 0 := by
      rw [Nat.cast_ne_zero]
      exact fun zero => rated.1 (UInt64.toNat_inj.mp zero)
    right
    rw [ratio, ← exactly, div_self positive]

end Rounded

/-- There is a worst offender where a stage has a budget and a sample, and it is such a stage.
Where no product wraps, it is the first stage of the greatest ratio in whole parts per million: no
ratio is greater by a part per million, and if a stage exceeds its budget then the worst offender
exceeds its own or uses it up. -/
theorem worst_offender_rounded (config : LatencyBudgetConfig) (calls : List Call)
    (countable : Countable calls) :
    ((run config calls).worstOffender = none ↔ ∀ stage, ¬ Rated config calls stage) ∧
    (∀ stage, (run config calls).worstOffender = some stage → Rated config calls stage) ∧
    ((∀ stage, Rated config calls stage → worst (samples stage calls) * 1000000 < 2 ^ 64) →
      ∀ stage, (run config calls).worstOffender = some stage →
        (∀ other, Rated config calls other →
          ⌊ratio config calls other * 1000000⌋₊ ≤ ⌊ratio config calls stage * 1000000⌋₊ ∧
          (⌊ratio config calls other * 1000000⌋₊ = ⌊ratio config calls stage * 1000000⌋₊ →
            indexOf stage ≤ indexOf other) ∧
          ratio config calls other < ratio config calls stage + 1 / 1000000) ∧
        ((run config calls).exceededCount > 0 →
          stage ∈ (run config calls).exceededStages ∨ ratio config calls stage = 1)) := by
  refine ⟨worstOffender_eq_none countable, fun stage => rated_of_worstOffender countable, ?_⟩
  intro fits stage found
  refine ⟨fun other otherRated => ?_, worstOffender_used fits countable found⟩
  obtain ⟨atMost, first⟩ := worstOffender_first fits countable found otherRated
  exact ⟨atMost, first, ratio_lt fits countable found otherRated⟩

/-- Stages used up to a third and to two thirds. -/
theorem worst_offender_rounded_thirds :
    let config : LatencyBudgetConfig := { replayNs := 3, riskNs := 3 }
    let calls : List Call := [.record .replay 1, .record .risk 2]
    (run config calls).worstOffender = some .risk ∧
      ∀ other, Rated config calls other →
        ratio config calls other < ratio config calls .risk + 1 / 1000000 := by
  intro config calls
  have countable : Countable calls := by
    intro stage
    cases stage <;> decide
  have fits : ∀ stage, Rated config calls stage →
      worst (samples stage calls) * 1000000 < 2 ^ 64 := by
    intro stage _
    cases stage <;> decide
  have found : (run config calls).worstOffender = some .risk := by decide
  have law := (worst_offender_rounded config calls countable).2.2 fits .risk found
  exact ⟨found, fun other rated => (law.1 other rated).2.2⟩

end Asterion.LatencyBudgetAccountant
