import Asterion.Lib.Along

/-! Computations that may raise: when they return, and loops over them. A loop returns exactly
where no step raises in the state it meets. -/
namespace Lib.Exceptions

variable {ε α β S E : Type}

@[simp] theorem bind_eq_ok {x : Except ε α} {f : α → Except ε β} {b : β} :
    x >>= f = .ok b ↔ ∃ a, x = .ok a ∧ f a = .ok b := by
  cases x with
  | error e => simp [bind, Except.bind]
  | ok a => simp [bind, Except.bind]

@[simp] theorem pure_eq_ok {a b : α} : (pure a : Except ε α) = .ok b ↔ a = b := by
  simp [pure, Except.pure]

@[simp] theorem throw_ne_ok {e : ε} {a : α} : (throw e : Except ε α) ≠ .ok a := by
  simp [throw, throwThe, MonadExceptOf.throw]

/-- A value read from the result is read from a computation that returns. -/
theorem toOption_map_eq_some {x : Except ε α} {f : α → β} {b : β} :
    x.toOption.map f = some b ↔ ∃ a, x = .ok a ∧ f a = b := by
  cases x with
  | error e => simp [Except.toOption]
  | ok a => simp [Except.toOption]

def Returns (x : Except ε α) : Prop := ∃ a, x = .ok a

theorem returns_pure (a : α) : Returns (pure a : Except ε α) := ⟨a, rfl⟩

theorem not_returns_throw (e : ε) : ¬ Returns (throw e : Except ε α) :=
  fun ⟨_, h⟩ => throw_ne_ok h

theorem returns_bind {x : Except ε α} {f : α → Except ε β} :
    Returns (x >>= f) ↔ ∃ a, x = .ok a ∧ Returns (f a) := by
  unfold Returns
  simp only [bind_eq_ok]
  constructor
  · rintro ⟨b, a, hx, hf⟩
    exact ⟨a, hx, b, hf⟩
  · rintro ⟨a, hx, b, hf⟩
    exact ⟨b, a, hx, hf⟩

/-- What is done with the result in the end raises nothing. -/
theorem returns_bind_pure {x : Except ε α} {f : α → β} :
    Returns (x >>= fun a => pure (f a)) ↔ Returns x := by
  rw [returns_bind]
  exact ⟨fun ⟨a, hx, _⟩ => ⟨a, hx⟩, fun ⟨a, hx⟩ => ⟨a, hx, returns_pure _⟩⟩

theorem returns_mapM {f : α → Except ε β} {as : List α} :
    Returns (as.mapM f) ↔ ∀ a ∈ as, Returns (f a) := by
  induction as with
  | nil => exact iff_of_true (returns_pure _) (by simp)
  | cons a as ih =>
    rw [List.mapM_cons, returns_bind, List.forall_mem_cons, ← ih]
    constructor
    · rintro ⟨b, first, rest⟩
      obtain ⟨bs, all, -⟩ := returns_bind.mp rest
      exact ⟨⟨b, first⟩, ⟨bs, all⟩⟩
    · rintro ⟨⟨b, first⟩, ⟨bs, all⟩⟩
      exact ⟨b, first, returns_bind.mpr ⟨bs, all, returns_pure _⟩⟩

theorem mapM_cons_eq_ok {f : α → Except ε β} {a : α} {as : List α} {out : List β} :
    (a :: as).mapM f = .ok out ↔ ∃ b bs, f a = .ok b ∧ as.mapM f = .ok bs ∧ out = b :: bs := by
  rw [List.mapM_cons]
  simp only [bind_eq_ok, pure_eq_ok]
  constructor
  · rintro ⟨b, first, bs, rest, rfl⟩
    exact ⟨b, bs, first, rest, rfl⟩
  · rintro ⟨b, bs, first, rest, rfl⟩
    exact ⟨b, first, bs, rest, rfl⟩

section Loops
variable {step : S → E → Except ε S} {s t : S} {es : List E}

theorem foldlM_append_ok {fs : List E} :
    (es ++ fs).foldlM step s = .ok t ↔ ∃ u, es.foldlM step s = .ok u ∧ fs.foldlM step u = .ok t := by
  rw [List.foldlM_append]
  exact bind_eq_ok

theorem foldlM_kept {I : S → Prop} (keep : ∀ s e t, I s → step s e = .ok t → I t) (start : I s)
    (run : es.foldlM step s = .ok t) : I t := by
  induction es generalizing s with
  | nil =>
    obtain rfl := pure_eq_ok.mp run
    exact start
  | cons e es ih =>
    obtain ⟨u, first, rest⟩ := bind_eq_ok.mp run
    exact ih (keep s e u start first) rest

/-- The state after a step where it returns, and otherwise the state before. -/
def next (step : S → E → Except ε S) (s : S) (e : E) : S :=
  match step s e with
  | .ok t => t
  | .error _ => s

theorem next_eq {e : E} (h : step s e = .ok t) : next step s e = t := by
  unfold next
  rw [h]

open Along in
theorem returns_foldlM :
    Returns (es.foldlM step s) ↔ Each (next step) (fun s e => Returns (step s e)) s es := by
  induction es generalizing s with
  | nil => exact iff_of_true (returns_pure s) trivial
  | cons e es ih =>
    rw [List.foldlM_cons, returns_bind]
    constructor
    · rintro ⟨u, first, rest⟩
      refine ⟨⟨u, first⟩, ?_⟩
      rw [next_eq first]
      exact ih.mp rest
    · rintro ⟨⟨u, first⟩, rest⟩
      rw [next_eq first] at rest
      exact ⟨u, first, ih.mpr rest⟩

theorem foldlM_eq_foldl (run : es.foldlM step s = .ok t) : es.foldl (next step) s = t := by
  induction es generalizing s with
  | nil => exact pure_eq_ok.mp run
  | cons e es ih =>
    obtain ⟨u, first, rest⟩ := bind_eq_ok.mp run
    rw [List.foldl_cons, next_eq first]
    exact ih rest

/-- Loops from two related states take related steps. -/
theorem foldlM_related {R : S → S → Prop} {s' : S}
    (related : ∀ a b e a', R a b → step a e = .ok a' → ∃ b', step b e = .ok b' ∧ R a' b')
    (start : R s s') (run : es.foldlM step s = .ok t) :
    ∃ t', es.foldlM step s' = .ok t' ∧ R t t' := by
  induction es generalizing s s' with
  | nil =>
    obtain rfl := pure_eq_ok.mp run
    exact ⟨s', rfl, start⟩
  | cons e es ih =>
    obtain ⟨u, first, rest⟩ := bind_eq_ok.mp run
    obtain ⟨u', first', then_related⟩ := related s s' e u start first
    obtain ⟨t', rest', last⟩ := ih then_related rest
    exact ⟨t', bind_eq_ok.mpr ⟨u', first', rest'⟩, last⟩

open Along in
/-- A condition that says the same of related states says the same of loops from them. -/
theorem each_related {R : S → S → Prop} {P : S → E → Prop} {s' : S}
    (related : ∀ a b e a', R a b → step a e = .ok a' → ∃ b', step b e = .ok b' ∧ R a' b')
    (same : ∀ a b e, R a b → (P a e ↔ P b e)) (start : R s s')
    (run : es.foldlM step s = .ok t) :
    Each (next step) P s es ↔ Each (next step) P s' es := by
  induction es generalizing s s' with
  | nil => exact Iff.rfl
  | cons e es ih =>
    obtain ⟨u, first, rest⟩ := bind_eq_ok.mp run
    obtain ⟨u', first', then_related⟩ := related s s' e u start first
    unfold Each
    rw [next_eq first, next_eq first', same s s' e start, ih then_related rest]

open Along in
/-- Where a step adds exactly its condition to what holds, a loop adds the condition of each of its
steps. The invariant holds in every loop. -/
theorem foldlM_iff_each {I Q : S → Prop} {P : S → E → Prop}
    (keep : ∀ s e t, I s → step s e = .ok t → I t)
    (one : ∀ s e t, I s → step s e = .ok t → (Q t ↔ Q s ∧ P s e)) (start : I s)
    (run : es.foldlM step s = .ok t) : Q t ↔ Q s ∧ Each (next step) P s es := by
  induction es generalizing s with
  | nil =>
    obtain rfl := pure_eq_ok.mp run
    exact (and_iff_left trivial).symm
  | cons e es ih =>
    obtain ⟨u, first, rest⟩ := bind_eq_ok.mp run
    unfold Each
    rw [ih (keep s e u start first) rest, one s e u start first, next_eq first, and_assoc]

end Loops
end Lib.Exceptions
