import Mathlib

/-! Windows over the times of calls: one that slides with the calls, and fixed ones that open with a
call and stay open for a width. A counter of the calls in a window may wrap. -/
namespace Lib.RateWindows

section Sliding
variable {width now : Int} {times : List Int}

theorem dropWhile_eq_filter (ordered : times.Pairwise (· ≤ ·)) :
    times.dropWhile (fun t => decide (width ≤ now - t)) =
      times.filter (fun t => decide (now - width < t)) := by
  induction times with
  | nil => rfl
  | cons t times ih =>
    rw [List.dropWhile_cons, List.filter_cons]
    by_cases old : width ≤ now - t
    · rw [if_pos (decide_eq_true old), if_neg (by simp; omega)]
      exact ih ordered.of_cons
    · have rest : times.filter (fun t => decide (now - width < t)) = times := by
        rw [List.filter_eq_self]
        intro u hu
        have later := List.rel_of_pairwise_cons ordered hu
        exact decide_eq_true (by omega)
      rw [if_neg (by simpa using old), if_pos (decide_eq_true (by omega)), rest]

end Sliding

section Fixed

/-- The start of the window of each call. A call outside the window opens one. -/
def starts (opens : Int → Int → Bool) : Option Int → List Int → List Int
  | _, [] => []
  | none, t :: times => t :: starts opens (some t) times
  | some s, t :: times =>
    let start := if opens s t then t else s
    start :: starts opens (some start) times

variable {width : Int} {opens : Int → Int → Bool} {times : List Int}

@[simp] theorem length_starts (start : Option Int) :
    (starts opens start times).length = times.length := by
  induction times generalizing start with
  | nil => rfl
  | cons t times ih =>
    cases start with
    | none => simp [starts, ih]
    | some s => simp [starts, ih]

/-- A call with the start of its window, against a later one: the window is the same, or a later
one that opens behind the call and not before the first one closes. -/
def Follows (width : Int) (e e' : Int × Int) : Prop :=
  e'.2 = e.2 ∨ (e.1 ≤ e'.2 ∧ e.2 + width ≤ e'.2)

theorem starts_follow (closes : ∀ s t, s ≤ t → opens s t = true → s + width ≤ t)
    (ordered : times.Pairwise (· ≤ ·)) {s t : Int} (begun : s ≤ t) (later : ∀ u ∈ times, t ≤ u) :
    ∀ e ∈ times.zip (starts opens (some s) times), Follows width (t, s) e := by
  induction times generalizing s t with
  | nil => simp
  | cons u times ih =>
    have first := later u List.mem_cons_self
    have after : ∀ v ∈ times, u ≤ v := fun v hv => List.rel_of_pairwise_cons ordered hv
    intro e he
    by_cases new : opens s u = true
    · have width' := closes s u (begun.trans first) new
      simp only [starts, new, if_true, List.zip_cons_cons, List.mem_cons] at he
      rcases he with rfl | he
      · exact Or.inr ⟨first, width'⟩
      · rcases ih ordered.of_cons (le_refl u) after e he with same | ⟨behind, _⟩
        · exact Or.inr (by rw [same]; exact ⟨first, width'⟩)
        · exact Or.inr ⟨by dsimp only at *; omega, by dsimp only at *; omega⟩
    · simp only [starts, if_neg new, List.zip_cons_cons, List.mem_cons] at he
      rcases he with rfl | he
      · exact Or.inl rfl
      · exact ih ordered.of_cons begun (fun v hv => later v (List.mem_cons_of_mem _ hv)) e he

theorem pairwise_starts (closes : ∀ s t, s ≤ t → opens s t = true → s + width ≤ t)
    (ordered : times.Pairwise (· ≤ ·)) {s : Int} (later : ∀ u ∈ times, s ≤ u) :
    (times.zip (starts opens (some s) times)).Pairwise (Follows width) := by
  induction times generalizing s with
  | nil => exact List.Pairwise.nil
  | cons t times ih =>
    have after : ∀ u ∈ times, t ≤ u := fun u hu => List.rel_of_pairwise_cons ordered hu
    have begun : (if opens s t then t else s) ≤ t := by
      split
      · exact le_refl t
      · exact later t List.mem_cons_self
    exact (ih ordered.of_cons (fun u hu => begun.trans (after u hu))).cons
      (starts_follow closes ordered.of_cons begun after)

theorem starts_le {s : Int} (later : ∀ u ∈ times, s ≤ u) (ordered : times.Pairwise (· ≤ ·)) :
    ∀ e ∈ times.zip (starts opens (some s) times), e.2 ≤ e.1 := by
  induction times generalizing s with
  | nil => simp
  | cons t times ih =>
    have after : ∀ u ∈ times, t ≤ u := fun u hu => List.rel_of_pairwise_cons ordered hu
    intro e he
    by_cases new : opens s t = true
    · simp only [starts, new, if_true, List.zip_cons_cons, List.mem_cons] at he
      rcases he with rfl | he
      · exact le_refl _
      · exact ih after ordered.of_cons e he
    · simp only [starts, if_neg new, List.zip_cons_cons, List.mem_cons] at he
      rcases he with rfl | he
      · exact later t List.mem_cons_self
      · exact ih (fun u hu => later u (List.mem_cons_of_mem _ hu)) ordered.of_cons e he

end Fixed

section Interval
variable {width : Int} {entries : List (Int × Int)}

/-- The calls of an interval no longer than a window are in two windows at most: the one that was
open before the interval, and the one that opens in it. -/
theorem two_windows (chain : entries.Pairwise (Follows width)) (positive : 0 < width)
    (begun : ∀ e ∈ entries, e.2 ≤ e.1) (a : Int) :
    ∃ s s', ∀ e ∈ entries, a ≤ e.1 → e.1 < a + width → e.2 = s ∨ e.2 = s' := by
  have apart : ∀ e ∈ entries, ∀ e' ∈ entries, e.2 < e'.2 → e.1 ≤ e'.2 ∧ e.2 + width ≤ e'.2 := by
    intro e he e' he' less
    have forward : entries.Pairwise (fun e e' => Follows width e e' ∨ Follows width e' e) :=
      chain.imp Or.inl
    have reflexive : ∀ e ∈ entries, Follows width e e ∨ Follows width e e :=
      fun _ _ => Or.inl (Or.inl rfl)
    have either := forward.forall_of_forall_of_flip reflexive (chain.imp Or.inr) he he'
    rcases either with (same | follows) | (same | ⟨_, before⟩)
    · omega
    · exact follows
    · omega
    · omega
  obtain ⟨s, old⟩ : ∃ s, ∀ e ∈ entries, a ≤ e.1 → e.2 < a → e.2 = s := by
    by_cases some : ∃ e ∈ entries, a ≤ e.1 ∧ e.2 < a
    · obtain ⟨e, he, inside, before⟩ := some
      refine ⟨e.2, fun e' he' inside' before' => ?_⟩
      rcases lt_trichotomy e'.2 e.2 with less | same | more
      · have := (apart e' he' e he less).1
        omega
      · exact same
      · have := (apart e he e' he' more).1
        omega
    · exact ⟨0, fun e he inside before => absurd ⟨e, he, inside, before⟩ some⟩
  obtain ⟨s', new⟩ : ∃ s', ∀ e ∈ entries, e.1 < a + width → a ≤ e.2 → e.2 = s' := by
    by_cases some : ∃ e ∈ entries, e.1 < a + width ∧ a ≤ e.2
    · obtain ⟨e, he, inside, behind⟩ := some
      have first := begun e he
      refine ⟨e.2, fun e' he' inside' behind' => ?_⟩
      have first' := begun e' he'
      rcases lt_trichotomy e'.2 e.2 with less | same | more
      · have := (apart e' he' e he less).2
        omega
      · exact same
      · have := (apart e he e' he' more).2
        omega
    · exact ⟨0, fun e he inside behind => absurd ⟨e, he, inside, behind⟩ some⟩
  refine ⟨s, s', fun e he low high => ?_⟩
  rcases lt_or_ge e.2 a with before | behind
  · exact Or.inl (old e he low before)
  · exact Or.inr (new e he high behind)

end Interval

theorem countP_le_add {E : Type} {p q r : E → Bool} {es : List E}
    (h : ∀ e ∈ es, p e = true → q e = true ∨ r e = true) :
    es.countP p ≤ es.countP q + es.countP r := by
  induction es with
  | nil => exact Nat.le_refl 0
  | cons e es ih =>
    have rest := ih (fun e' he => h e' (List.mem_cons_of_mem _ he))
    have first := h e List.mem_cons_self
    simp only [List.countP_cons]
    cases pe : p e with
    | false =>
      simp only [Bool.false_eq_true, if_false]
      omega
    | true =>
      rcases first pe with qe | re
      · rw [if_pos rfl, if_pos qe]
        omega
      · rw [if_pos rfl, if_pos re]
        omega

section Wrap
variable {modulus limit : Nat}

/-- Of the first `n` calls of a window, those whose number passes; numbers wrap. -/
def passes (modulus limit n : Nat) : Nat :=
  (List.range n).countP (fun k => decide ((k + 1) % modulus ≤ limit))

theorem passes_succ (n : Nat) : passes modulus limit (n + 1) =
    passes modulus limit n + if (n + 1) % modulus ≤ limit then 1 else 0 := by
  simp [passes, List.range_succ, List.countP_append, List.countP_singleton]

theorem passes_mono {n n' : Nat} (le : n ≤ n') : passes modulus limit n ≤ passes modulus limit n' :=
  (List.range_sublist.mpr le).countP_le

theorem passes_eq_min {n : Nat} (short : n < modulus) : passes modulus limit n = min n limit := by
  induction n with
  | zero => simp [passes]
  | succ n ih =>
    rw [passes_succ, ih (by omega), Nat.mod_eq_of_lt short]
    split <;> omega

theorem passes_le_iff {n : Nat} (fits : limit < modulus) :
    passes modulus limit n ≤ limit ↔ n < modulus := by
  constructor
  · intro few
    by_contra long
    obtain ⟨last, rfl⟩ : ∃ last, modulus = last + 1 := ⟨modulus - 1, by omega⟩
    have wrapped : passes (last + 1) limit (last + 1) = limit + 1 := by
      rw [passes_succ, passes_eq_min (Nat.lt_succ_self last), Nat.mod_self, if_pos (Nat.zero_le _)]
      omega
    have more := @passes_mono (last + 1) limit (last + 1) n (by omega)
    omega
  · intro short
    rw [passes_eq_min short]
    exact Nat.min_le_right _ _

end Wrap
end Lib.RateWindows
