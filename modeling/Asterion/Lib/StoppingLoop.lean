import Mathlib

/-! A loop over a list that a step can leave. The flag of a step says whether the loop goes
on; the flag of the loop says whether it reached the end of the list. -/
namespace Lib.StoppingLoop

variable {S T E : Type}

def loop (step : S → E → S × Bool) (s : S) : List E → S × Bool
  | [] => (s, true)
  | e :: es =>
    match step s e with
    | (s, true) => loop step s es
    | (s, false) => (s, false)

variable {step : S → E → S × Bool}

@[simp] theorem loop_nil (s : S) : loop step s [] = (s, true) := rfl

theorem loop_cons_on {s : S} {e : E} (on : (step s e).2 = true) (es : List E) :
    loop step s (e :: es) = loop step (step s e).1 es := by
  obtain ⟨⟨s', on'⟩, hs⟩ : ∃ p, step s e = p := ⟨_, rfl⟩
  rw [hs] at on
  cases on
  simp only [loop, hs]

theorem loop_cons_off {s : S} {e : E} (off : (step s e).2 = false) (es : List E) :
    loop step s (e :: es) = step s e := by
  obtain ⟨⟨s', on'⟩, hs⟩ : ∃ p, step s e = p := ⟨_, rfl⟩
  rw [hs] at off
  cases off
  simp only [loop, hs]

theorem loop_single (s : S) (e : E) : loop step s [e] = step s e := by
  cases he : (step s e).2 with
  | false => exact loop_cons_off he []
  | true =>
    rw [loop_cons_on he, loop_nil]
    exact Prod.ext rfl he.symm

theorem loop_append_on {s : S} {es : List E} (on : (loop step s es).2 = true) (fs : List E) :
    loop step s (es ++ fs) = loop step (loop step s es).1 fs := by
  induction es generalizing s with
  | nil => rfl
  | cons e es ih =>
    cases he : (step s e).2 with
    | false =>
      rw [loop_cons_off he, he] at on
      cases on
    | true =>
      rw [loop_cons_on he] at on
      rw [List.cons_append, loop_cons_on he, loop_cons_on he]
      exact ih on

theorem loop_append_off {s : S} {es : List E} (off : (loop step s es).2 = false) (fs : List E) :
    loop step s (es ++ fs) = loop step s es := by
  induction es generalizing s with
  | nil => cases off
  | cons e es ih =>
    cases he : (step s e).2 with
    | false => rw [List.cons_append, loop_cons_off he, loop_cons_off he]
    | true =>
      rw [loop_cons_on he] at off
      rw [List.cons_append, loop_cons_on he, loop_cons_on he]
      exact ih off

/-- A loop that stopped did so at one element, with everything before it done. -/
theorem loop_stopped {s : S} {es : List E} (off : (loop step s es).2 = false) :
    ∃ pre e post, es = pre ++ e :: post ∧ (loop step s pre).2 = true ∧
      (step (loop step s pre).1 e).2 = false ∧
      loop step s es = step (loop step s pre).1 e := by
  induction es generalizing s with
  | nil => cases off
  | cons e es ih =>
    cases he : (step s e).2 with
    | false => exact ⟨[], e, es, rfl, rfl, he, loop_cons_off he es⟩
    | true =>
      rw [loop_cons_on he] at off
      obtain ⟨pre, x, post, rfl, on, hx, hl⟩ := ih off
      refine ⟨e :: pre, x, post, rfl, ?_⟩
      rw [loop_cons_on he, loop_cons_on he]
      exact ⟨on, hx, hl⟩

theorem loop_cons_on_iff {s : S} {e : E} {es : List E} :
    (loop step s (e :: es)).2 = true ↔
      (step s e).2 = true ∧ (loop step (step s e).1 es).2 = true := by
  cases he : (step s e).2 with
  | false => simp [loop_cons_off he, he]
  | true => simp [loop_cons_on he]

/-- A loop stops at one place at most. -/
theorem stop_unique {s : S} {pre pre' post post' : List E} {e e' : E}
    (same : pre ++ e :: post = pre' ++ e' :: post')
    (on : (loop step s pre).2 = true) (off : (step (loop step s pre).1 e).2 = false)
    (on' : (loop step s pre').2 = true) (off' : (step (loop step s pre').1 e').2 = false) :
    pre = pre' ∧ e = e' := by
  induction pre generalizing s pre' with
  | nil =>
    cases pre' with
    | nil => exact ⟨rfl, (List.cons.inj same).1⟩
    | cons x pre' =>
      obtain ⟨rfl, -⟩ := List.cons.inj same
      rw [loop_cons_on_iff] at on'
      exact absurd on'.1 (by simpa using off)
  | cons x pre ih =>
    rw [loop_cons_on_iff] at on
    cases pre' with
    | nil =>
      obtain ⟨rfl, -⟩ := List.cons.inj same
      exact absurd on.1 (by simpa using off')
    | cons y pre' =>
      obtain ⟨rfl, tails⟩ := List.cons.inj same
      rw [loop_cons_on_iff] at on'
      rw [loop_cons_on on.1] at off
      rw [loop_cons_on on.1] at off'
      obtain ⟨rfl, rfl⟩ := ih tails on.2 off on'.2 off'
      exact ⟨rfl, rfl⟩

/-- What a step keeps as long as the loop goes on, and turns into `Q` where it stops. -/
theorem loop_rule {I Q : S → Prop}
    (on : ∀ s e, I s → (step s e).2 = true → I (step s e).1)
    (off : ∀ s e, I s → (step s e).2 = false → Q (step s e).1)
    {s : S} (start : I s) (es : List E) :
    if (loop step s es).2 then I (loop step s es).1 else Q (loop step s es).1 := by
  induction es generalizing s with
  | nil => exact start
  | cons e es ih =>
    cases he : (step s e).2 with
    | false =>
      rw [loop_cons_off he, he]
      exact off s e start he
    | true =>
      rw [loop_cons_on he]
      exact ih (on s e start he)

/-- What every step that goes on keeps, where the loop reaches the end. -/
theorem loop_kept {I : S → Prop} (on : ∀ s e, I s → (step s e).2 = true → I (step s e).1)
    {s : S} (start : I s) (es : List E) (flag : (loop step s es).2 = true) :
    I (loop step s es).1 := by
  have h := loop_rule (Q := fun _ => True) on (fun _ _ _ _ => trivial) start es
  rwa [if_pos flag] at h

theorem loop_invariant {I : S → Prop} (keep : ∀ s e, I s → I (step s e).1) {s : S} (start : I s)
    (es : List E) : I (loop step s es).1 := by
  have h := loop_rule (Q := I) (fun s e hs _ => keep s e hs) (fun s e hs _ => keep s e hs) start es
  split at h
  · exact h
  · exact h

/-- Two loops whose steps stay related stop at the same element. -/
theorem loop_related {R : S → T → Prop} {step' : T → E → T × Bool}
    (same : ∀ s t e, R s t → (step s e).2 = (step' t e).2)
    (keep : ∀ s t e, R s t → R (step s e).1 (step' t e).1) {s : S} {t : T} (start : R s t)
    (es : List E) :
    (loop step s es).2 = (loop step' t es).2 ∧ R (loop step s es).1 (loop step' t es).1 := by
  induction es generalizing s t with
  | nil => exact ⟨rfl, start⟩
  | cons e es ih =>
    have hs := same s t e start
    have hk := keep s t e start
    cases he : (step s e).2 with
    | false =>
      rw [loop_cons_off he, loop_cons_off (hs ▸ he)]
      exact ⟨hs, hk⟩
    | true =>
      rw [loop_cons_on he, loop_cons_on (hs ▸ he)]
      exact ih hk

end Lib.StoppingLoop
