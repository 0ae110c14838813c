import Mathlib

/-! Runs of a transition system whose steps emit records: the closure of the step
relation, with the records of all steps in order, and its invariant rule. -/
namespace Lib

variable {S E : Type} {step : S → List E → S → Prop}

inductive Trace (step : S → List E → S → Prop) : S → List E → S → Prop
  | refl (s : S) : Trace step s [] s
  | snoc {s t u : S} {h l : List E} : Trace step s h t → step t l u → Trace step s (h ++ l) u

namespace Trace

theorem single {s t : S} {l : List E} (h : step s l t) : Trace step s l t := by
  simpa using (Trace.refl s).snoc h

theorem append {s t u : S} {h l : List E} (first : Trace step s h t) (last : Trace step t l u) :
    Trace step s (h ++ l) u := by
  induction last with
  | refl => simpa using first
  | snoc _ one ih =>
    rw [← List.append_assoc]
    exact ih.snoc one

/-- What every step keeps, as a property of the records so far and the state, holds at
the end of every run. -/
theorem invariant {I : List E → S → Prop}
    (keep : ∀ {h s l t}, I h s → step s l t → I (h ++ l) t) {h l : List E} {s t : S}
    (start : I h s) (tr : Trace step s l t) : I (h ++ l) t := by
  induction tr with
  | refl => simpa using start
  | snoc _ one ih =>
    rw [← List.append_assoc]
    exact keep ih one

end Trace
end Lib
