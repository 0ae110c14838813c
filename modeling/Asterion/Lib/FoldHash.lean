import Mathlib

/-! Hashes that fold a text from a running state by one step for each byte. Where the step is
injective in the state and in the byte, a difference in one byte survives every byte after it. -/
namespace Lib.FoldHash

variable {S B : Type} {step : S → B → S}

theorem foldl_injective (state : ∀ s t b, step s b = step t b → s = t) (bytes : List B) {s t : S}
    (h : bytes.foldl step s = bytes.foldl step t) : s = t := by
  induction bytes generalizing s t with
  | nil => exact h
  | cons b bytes ih => exact state s t b (ih h)

theorem foldl_set_ne (state : ∀ s t b, step s b = step t b → s = t)
    (byte : ∀ s b c, step s b = step s c → b = c) {bytes : List B} {i : Nat} {b : B}
    (hi : i < bytes.length) (hb : b ≠ bytes[i]) (s : S) :
    (bytes.set i b).foldl step s ≠ bytes.foldl step s := by
  induction bytes generalizing i s with
  | nil => exact absurd hi (Nat.not_lt_zero i)
  | cons c bytes ih =>
    cases i with
    | zero =>
      intro h
      exact hb (byte s b c (foldl_injective state bytes h))
    | succ i =>
      rw [List.set_cons_succ, List.foldl_cons, List.foldl_cons]
      exact ih (Nat.lt_of_succ_lt_succ hi) hb (step s c)

end Lib.FoldHash
