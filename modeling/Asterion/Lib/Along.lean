import Mathlib

/-! Properties along a run of a deterministic system: of every state that is reached, and of every
step that is taken. -/
namespace Lib.Along

variable {S E : Type} (step : S → E → S)

/-- Every state of the run, the first and the last included. -/
def Always (Q : S → Prop) : S → List E → Prop
  | s, [] => Q s
  | s, e :: es => Q s ∧ Always Q (step s e) es

/-- Every step of the run, with the state it is taken from. -/
def Each (P : S → E → Prop) : S → List E → Prop
  | _, [] => True
  | s, e :: es => P s e ∧ Each P (step s e) es

instance decidableEach (P : S → E → Prop) [∀ s e, Decidable (P s e)] :
    ∀ (s : S) (es : List E), Decidable (Each step P s es)
  | _, [] => isTrue trivial
  | s, e :: es =>
    have := decidableEach P (step s e) es
    inferInstanceAs (Decidable (P s e ∧ Each step P (step s e) es))

variable {step} {Q R : S → Prop} {P : S → E → Prop} {s : S} {es : List E}

theorem Always.imp (h : ∀ s, Q s → R s) (always : Always step Q s es) : Always step R s es := by
  induction es generalizing s with
  | nil => exact h s always
  | cons e es ih => exact ⟨h s always.1, ih always.2⟩

theorem Each.imp {P' : S → E → Prop} (h : ∀ s e, P s e → P' s e) (each : Each step P s es) :
    Each step P' s es := by
  induction es generalizing s with
  | nil => trivial
  | cons e es ih => exact ⟨h s e each.1, ih each.2⟩

theorem each_of_forall {R : E → Prop} (h : ∀ e ∈ es, R e) : Each step (fun _ e => R e) s es := by
  induction es generalizing s with
  | nil => trivial
  | cons e es ih =>
    exact ⟨h e List.mem_cons_self, ih (fun e he => h e (List.mem_cons_of_mem _ he))⟩

theorem forall_of_each {R : E → Prop} (each : Each step (fun _ e => R e) s es) : ∀ e ∈ es, R e := by
  induction es generalizing s with
  | nil => simp
  | cons e es ih => exact List.forall_mem_cons.mpr ⟨each.1, ih each.2⟩

theorem each_of_always (h : ∀ s e, Q s → P s e) (always : Always step Q s es) :
    Each step P s es := by
  induction es generalizing s with
  | nil => trivial
  | cons e es ih => exact ⟨h s e always.1, ih always.2⟩

/-- What the steps of a run keep holds in every state of it. -/
theorem always_of_each (keep : ∀ s e, Q s → P s e → Q (step s e)) (start : Q s)
    (each : Each step P s es) : Always step Q s es := by
  induction es generalizing s with
  | nil => exact start
  | cons e es ih => exact ⟨start, ih (keep s e start each.1) each.2⟩

theorem always (keep : ∀ s e, Q s → Q (step s e)) (start : Q s) (es : List E) :
    Always step Q s es := by
  induction es generalizing s with
  | nil => exact start
  | cons e es ih => exact ⟨start, ih (keep s e start)⟩

/-- Where a step keeps the property exactly under its condition, so does a run. The invariant
holds in every run. -/
theorem always_iff_each {I : S → Prop} (invariant : ∀ s e, I s → Q s → P s e → I (step s e))
    (keep : ∀ s e, I s → Q s → (Q (step s e) ↔ P s e)) (start : I s) (first : Q s) :
    Always step Q s es ↔ Each step P s es := by
  induction es generalizing s with
  | nil => exact ⟨fun _ => trivial, fun _ => first⟩
  | cons e es ih =>
    constructor
    · rintro ⟨-, rest⟩
      have next : Q (step s e) := by
        cases es with
        | nil => exact rest
        | cons e' es => exact rest.1
      have allowed := (keep s e start first).mp next
      exact ⟨allowed, (ih (invariant s e start first allowed) next).mp rest⟩
    · rintro ⟨allowed, rest⟩
      have next := (keep s e start first).mpr allowed
      exact ⟨first, (ih (invariant s e start first allowed) next).mpr rest⟩

/-- Two conditions that say the same wherever the invariant holds, which a step that meets one of
them keeps, say the same of a run. -/
theorem each_congr {I : S → Prop} {P' : S → E → Prop}
    (keep : ∀ s, ∀ e ∈ es, I s → P s e → I (step s e))
    (same : ∀ s, ∀ e ∈ es, I s → (P' s e ↔ P s e)) (start : I s) :
    Each step P' s es ↔ Each step P s es := by
  induction es generalizing s with
  | nil => exact Iff.rfl
  | cons e es ih =>
    have first := same s e List.mem_cons_self start
    have rest := fun h : P s e =>
      ih (fun s x hx => keep s x (List.mem_cons_of_mem _ hx))
        (fun s x hx => same s x (List.mem_cons_of_mem _ hx)) (keep s e List.mem_cons_self start h)
    constructor
    · rintro ⟨here, later⟩
      exact ⟨first.mp here, (rest (first.mp here)).mp later⟩
    · rintro ⟨here, later⟩
      exact ⟨first.mpr here, (rest here).mpr later⟩

theorem Always.last (always : Always step Q s es) : Q (es.foldl step s) := by
  induction es generalizing s with
  | nil => exact always
  | cons e es ih => exact ih always.2

theorem always_iff_prefix : Always step Q s es ↔ ∀ run, run <+: es → Q (run.foldl step s) := by
  induction es generalizing s with
  | nil =>
    constructor
    · intro h run hr
      obtain rfl := List.prefix_nil.mp hr
      exact h
    · exact fun h => h [] (List.prefix_refl [])
  | cons e es ih =>
    constructor
    · rintro ⟨first, rest⟩ run hr
      cases run with
      | nil => exact first
      | cons e' run =>
        obtain ⟨rfl, tail⟩ := List.cons_prefix_cons.mp hr
        exact ih.mp rest run tail
    · intro h
      refine ⟨h [] (List.nil_prefix), ih.mpr (fun run hr => ?_)⟩
      exact h (e :: run) (List.cons_prefix_cons.mpr ⟨rfl, hr⟩)

/-- Each step is the last one of some prefix of the run. -/
theorem each_iff_fronts :
    Each step P s es ↔ ∀ run e, run ++ [e] <+: es → P (run.foldl step s) e := by
  induction es generalizing s with
  | nil =>
    refine ⟨fun _ run e hr => ?_, fun _ => trivial⟩
    have none := List.prefix_nil.mp hr
    simp at none
  | cons e es ih =>
    constructor
    · rintro ⟨first, rest⟩ run e' hr
      cases run with
      | nil =>
        obtain ⟨rfl, _⟩ := List.cons_prefix_cons.mp hr
        exact first
      | cons e'' run =>
        obtain ⟨rfl, tail⟩ := List.cons_prefix_cons.mp hr
        exact ih.mp rest run e' tail
    · intro h
      refine ⟨h [] e (List.cons_prefix_cons.mpr ⟨rfl, List.nil_prefix⟩), ih.mpr ?_⟩
      intro run e' hr
      exact h (e :: run) e' (List.cons_prefix_cons.mpr ⟨rfl, hr⟩)

end Lib.Along
