import Asterion.Risk.PortfolioRisk

/-! The portfolio limits, read off the snapshot: a check of the state accepts exactly what the
snapshot satisfies and names the first limit that it does not. -/
namespace Asterion
open Lib

namespace PortfolioRiskLimits
variable (limits : PortfolioRiskLimits) (snapshot : PortfolioSnapshot)

def limitOf : PortfolioBreach → Int
  | .grossExposure => limits.maxGrossExposureTicks
  | .netExposure => limits.maxNetExposureTicks
  | .concentration => limits.maxSymbolConcentrationBps
  | .loss => limits.maxLossTicks
  | .none => 0

def Breached : PortfolioBreach → Prop
  | .grossExposure => 0 < limits.maxGrossExposureTicks ∧
      ¬ snapshot.grossExposureTicks ≤ limits.maxGrossExposureTicks
  | .netExposure => 0 < limits.maxNetExposureTicks ∧
      ¬ snapshot.netExposureTicks ≤ limits.maxNetExposureTicks
  | .concentration => 0 < limits.maxSymbolConcentrationBps ∧
      ¬ snapshot.maxConcentrationBps ≤ limits.maxSymbolConcentrationBps
  | .loss => 0 < limits.maxLossTicks ∧ ¬ -limits.maxLossTicks < snapshot.totalPnlTicks
  | .none => False

instance : (breach : PortfolioBreach) → Decidable (limits.Breached snapshot breach)
  | .grossExposure => inferInstanceAs (Decidable (_ ∧ ¬ _))
  | .netExposure => inferInstanceAs (Decidable (_ ∧ ¬ _))
  | .concentration => inferInstanceAs (Decidable (_ ∧ ¬ _))
  | .loss => inferInstanceAs (Decidable (_ ∧ ¬ _))
  | .none => inferInstanceAs (Decidable False)

def SatisfiedBy : Prop := ∀ breach, ¬ limits.Breached snapshot breach

theorem find?_breached (breach : PortfolioBreach) (rest : List PortfolioBreach) :
    (breach :: rest).find? (fun b => decide (limits.Breached snapshot b)) =
      if limits.Breached snapshot breach then some breach
      else rest.find? (fun b => decide (limits.Breached snapshot b)) := by
  split
  · exact List.find?_cons_of_pos (decide_eq_true ‹_›)
  · exact List.find?_cons_of_neg (by simpa)

def firstBreach : Option PortfolioBreach :=
  [PortfolioBreach.grossExposure, .netExposure, .concentration, .loss].find?
    (fun breach => decide (limits.Breached snapshot breach))

theorem firstBreach_eq_none : limits.firstBreach snapshot = none ↔ limits.SatisfiedBy snapshot := by
  simp only [firstBreach, List.find?_eq_none, decide_eq_true_eq, SatisfiedBy]
  constructor
  · intro h breach
    cases breach with
    | none => exact fun breached => breached
    | _ => exact h _ (by simp)
  · exact fun h breach _ => h breach

end PortfolioRiskLimits

def PortfolioSnapshot.observed (snapshot : PortfolioSnapshot) : PortfolioBreach → Int
  | .grossExposure => snapshot.grossExposureTicks
  | .netExposure => snapshot.netExposureTicks
  | .concentration => snapshot.maxConcentrationBps
  | .loss => -snapshot.totalPnlTicks
  | .none => 0

def verdict (limits : PortfolioRiskLimits) (snapshot : PortfolioSnapshot) :
    Option PortfolioBreach → PortfolioCheckResult
  | none => {}
  | some breach =>
      { accepted := false, breach, limitValue := limits.limitOf breach
        observedValue := snapshot.observed breach
        symbolId := if breach = .concentration then snapshot.maxConcentrationSymbol
          else invalidSymbolId }

namespace PortfolioRiskMonitor
variable (monitor : PortfolioRiskMonitor)

/-- The one loop of the check sums what the three loops of the snapshot sum. -/
theorem sums_eq (entries : List (Nat × SymbolPosition)) (a b c : Int) :
    entries.foldl (fun sums entry =>
      (sums.1 + Portfolio.absI64 entry.2.quantity * markOf entry.2,
        sums.2.1 + entry.2.quantity * markOf entry.2,
        sums.2.2 + (markOf entry.2 - entry.2.averageCost) * entry.2.quantity)) (a, b, c) =
    (entries.foldl (fun gross entry =>
        gross + Portfolio.absI64 entry.2.quantity * markOf entry.2) a,
      entries.foldl (fun net entry => net + entry.2.quantity * markOf entry.2) b,
      entries.foldl (fun pnl entry =>
        pnl + (markOf entry.2 - entry.2.averageCost) * entry.2.quantity) c) := by
  induction entries generalizing a b c with
  | nil => rfl
  | cons entry entries ih =>
    simp only [List.foldl_cons]
    exact ih _ _ _

/-- The share of a symbol is only looked at where there is an exposure; the snapshot has none
otherwise. -/
theorem breached_concentration :
    monitor.limits.Breached monitor.snapshot .concentration ↔
      (0 < monitor.limits.maxSymbolConcentrationBps ∧ 0 < monitor.grossExposureTicks) ∧
        monitor.limits.maxSymbolConcentrationBps <
          (worstConcentration monitor.grossExposureTicks monitor.positions).2 := by
  unfold PortfolioRiskLimits.Breached snapshot
  dsimp only
  by_cases exposed : 0 < monitor.grossExposureTicks
  · rw [if_pos exposed]
    constructor
    · exact fun h => ⟨⟨h.1, exposed⟩, Int.not_le.mp h.2⟩
    · exact fun h => ⟨h.1.1, Int.not_le.mpr h.2⟩
  · rw [if_neg exposed]
    constructor
    · exact fun h => absurd h.1.le h.2
    · exact fun h => absurd h.1.2 exposed

theorem evaluateState_eq :
    monitor.evaluateState =
      verdict monitor.limits monitor.snapshot (monitor.limits.firstBreach monitor.snapshot) := by
  unfold evaluateState evaluate PortfolioRiskLimits.firstBreach
  rw [sums_eq]
  have gross : monitor.limits.Breached monitor.snapshot .grossExposure ↔
      0 < monitor.limits.maxGrossExposureTicks ∧
        monitor.limits.maxGrossExposureTicks < monitor.grossExposureTicks :=
    and_congr_right fun _ => Int.not_le
  have net : monitor.limits.Breached monitor.snapshot .netExposure ↔
      0 < monitor.limits.maxNetExposureTicks ∧
        monitor.limits.maxNetExposureTicks < monitor.netExposureTicks :=
    and_congr_right fun _ => Int.not_le
  have loss : monitor.limits.Breached monitor.snapshot .loss ↔
      0 < monitor.limits.maxLossTicks ∧ monitor.totalPnlTicks ≤ -monitor.limits.maxLossTicks :=
    and_congr_right fun _ => Int.not_lt
  have share := monitor.breached_concentration
  by_cases first : monitor.limits.Breached monitor.snapshot .grossExposure
  · rw [PortfolioRiskLimits.find?_breached, if_pos first]
    exact if_pos (gross.mp first)
  rw [PortfolioRiskLimits.find?_breached, if_neg first]
  refine (if_neg (mt gross.mpr first)).trans ?_
  by_cases second : monitor.limits.Breached monitor.snapshot .netExposure
  · rw [PortfolioRiskLimits.find?_breached, if_pos second]
    exact if_pos (net.mp second)
  rw [PortfolioRiskLimits.find?_breached, if_neg second]
  refine (if_neg (mt net.mpr second)).trans ?_
  by_cases third : monitor.limits.Breached monitor.snapshot .concentration
  · rw [PortfolioRiskLimits.find?_breached, if_pos third]
    have exposed : 0 < monitor.grossExposureTicks := (share.mp third).1.2
    refine (if_pos (share.mp third)).trans ?_
    have symbol : monitor.snapshot.maxConcentrationSymbol =
        (worstConcentration monitor.grossExposureTicks monitor.positions).1 :=
      congrArg Prod.fst (if_pos exposed)
    have bps : monitor.snapshot.maxConcentrationBps =
        (worstConcentration monitor.grossExposureTicks monitor.positions).2 :=
      congrArg Prod.snd (if_pos exposed)
    simp only [verdict, PortfolioSnapshot.observed, symbol, bps, if_true]
    rfl
  rw [PortfolioRiskLimits.find?_breached, if_neg third]
  refine (if_neg (mt share.mpr third)).trans ?_
  by_cases fourth : monitor.limits.Breached monitor.snapshot .loss
  · rw [PortfolioRiskLimits.find?_breached, if_pos fourth]
    exact if_pos (loss.mp fourth)
  · rw [PortfolioRiskLimits.find?_breached, if_neg fourth]
    exact if_neg (mt loss.mpr fourth)

/-- An order is checked against the state that filling it leaves, and only the audit trail can show
that it was; the state is checked against its own snapshot. -/
theorem evaluateOrder_eq_evaluateState (symbolId : Nat) (side : Side)
    (quantity priceTicks nowNs : Int) :
    (monitor.evaluateOrder symbolId side quantity priceTicks =
      (monitor.applyFill symbolId side quantity priceTicks).evaluateState) ∧
    (monitor.checkOrder symbolId side quantity priceTicks nowNs =
      (monitor.evaluateOrder symbolId side quantity priceTicks,
        { monitor with
          audit := (monitor.checkOrder symbolId side quantity priceTicks nowNs).2.audit })) ∧
    (monitor.evaluateState.accepted = true ↔ monitor.limits.SatisfiedBy monitor.snapshot) ∧
    monitor.evaluateState =
      verdict monitor.limits monitor.snapshot (monitor.limits.firstBreach monitor.snapshot) := by
  refine ⟨rfl, ?_, ?_, monitor.evaluateState_eq⟩
  · unfold checkOrder
    dsimp only
    split
    · rfl
    · rfl
  · rw [monitor.evaluateState_eq, ← PortfolioRiskLimits.firstBreach_eq_none]
    cases monitor.limits.firstBreach monitor.snapshot with
    | none => exact ⟨fun _ => rfl, fun _ => rfl⟩
    | some breach => simp [verdict]

end PortfolioRiskMonitor
end Asterion
