import Mathlib

/-! Codes whose words can be told apart at the head of a text, so that what is written one word
behind the other can be read back. -/
namespace Lib.PrefixCode

variable {A B : Type} {P : A → Prop} {code : A → List B}

/-- A word at the head of a text determines what it stands for and where it ends. -/
def Separates (P : A → Prop) (code : A → List B) : Prop :=
  ∀ x y, P x → P y → ∀ rest rest', code x ++ rest = code y ++ rest' → x = y ∧ rest = rest'

theorem separates_fixed (size : Nat) (sized : ∀ x, P x → (code x).length = size)
    (injective : ∀ x y, P x → P y → code x = code y → x = y) : Separates P code := by
  intro x y hx hy rest rest' same
  obtain ⟨words, rests⟩ := List.append_inj same ((sized x hx).trans (sized y hy).symm)
  exact ⟨injective x y hx hy words, rests⟩

theorem Separates.sequence (h : Separates P code) {xs ys : List A} (hx : ∀ x ∈ xs, P x)
    (hy : ∀ y ∈ ys, P y) (length : xs.length = ys.length) {rest rest' : List B}
    (same : xs.flatMap code ++ rest = ys.flatMap code ++ rest') : xs = ys ∧ rest = rest' := by
  induction xs generalizing ys with
  | nil =>
    have none : ys = [] := List.eq_nil_of_length_eq_zero length.symm
    subst none
    exact ⟨rfl, same⟩
  | cons x xs ih =>
    cases ys with
    | nil => cases length
    | cons y ys =>
      rw [List.flatMap_cons, List.flatMap_cons, List.append_assoc, List.append_assoc] at same
      obtain ⟨first, later⟩ := h x y (hx x List.mem_cons_self) (hy y List.mem_cons_self) _ _ same
      obtain ⟨others, rests⟩ := ih (fun z hz => hx z (List.mem_cons_of_mem _ hz))
        (fun z hz => hy z (List.mem_cons_of_mem _ hz)) (Nat.succ.inj length) later
      exact ⟨by rw [first, others], rests⟩

theorem Separates.counted {Q : Nat → Prop} {number : Nat → List B} (count : Separates Q number)
    (h : Separates P code) :
    Separates (fun xs : List A => Q xs.length ∧ ∀ x ∈ xs, P x)
      (fun xs => number xs.length ++ xs.flatMap code) := by
  intro xs ys hx hy rest rest' same
  rw [List.append_assoc, List.append_assoc] at same
  obtain ⟨length, later⟩ := count _ _ hx.1 hy.1 _ _ same
  exact h.sequence hx.2 hy.2 length later

end Lib.PrefixCode
