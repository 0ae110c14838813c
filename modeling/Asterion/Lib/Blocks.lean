import Mathlib

/-! A text cut into blocks of one size, the last of which may be shorter. -/
namespace Lib.Blocks

variable {α : Type}

def blocksUpTo (size : Nat) : Nat → List α → List (List α)
  | 0, _ => []
  | bound + 1, xs =>
    match xs with
    | [] => []
    | x :: xs => (x :: xs).take size :: blocksUpTo size bound ((x :: xs).drop size)

def blocks (size : Nat) (xs : List α) : List (List α) := blocksUpTo size xs.length xs

variable {size : Nat} (positive : 0 < size)
include positive

/-- A bound that leaves room for every element is large enough. -/
theorem blocksUpTo_eq {bound : Nat} {xs : List α} (room : xs.length ≤ bound) :
    blocksUpTo size bound xs = blocks size xs := by
  have enough : ∀ b c (ys : List α), ys.length ≤ b → ys.length ≤ c →
      blocksUpTo size b ys = blocksUpTo size c ys := by
    intro b
    induction b with
    | zero =>
      intro c ys hb _
      obtain rfl := List.eq_nil_of_length_eq_zero (Nat.le_zero.mp hb)
      cases c with
      | zero => rfl
      | succ c => rfl
    | succ b ih =>
      intro c ys hb hc
      cases ys with
      | nil =>
        cases c with
        | zero => rfl
        | succ c => rfl
      | cons y ys =>
        cases c with
        | zero => exact absurd hc (by simp)
        | succ c =>
          have shorter : ((y :: ys).drop size).length ≤ ys.length := by
            rw [List.length_drop, List.length_cons]
            omega
          rw [List.length_cons] at hb hc
          simp only [blocksUpTo]
          rw [ih c ((y :: ys).drop size) (by omega) (by omega)]
  exact enough bound xs.length xs room (le_refl _)

theorem blocks_cons {xs : List α} (some : xs ≠ []) :
    blocks size xs = xs.take size :: blocks size (xs.drop size) := by
  obtain ⟨y, ys, rfl⟩ := List.exists_cons_of_ne_nil some
  have room : ((y :: ys).drop size).length ≤ ys.length := by
    rw [List.length_drop, List.length_cons]
    omega
  rw [← blocksUpTo_eq positive room]
  rfl

theorem flatten_blocks (xs : List α) : (blocks size xs).flatten = xs := by
  induction h : xs.length using Nat.strong_induction_on generalizing xs with
  | _ n ih =>
    by_cases empty : xs = []
    · rw [empty]
      rfl
    · have shorter : (xs.drop size).length < n := by
        have long := List.length_pos_of_ne_nil empty
        rw [List.length_drop]
        omega
      rw [blocks_cons positive empty, List.flatten_cons, ih _ shorter _ rfl, List.take_append_drop]

/-- Records of the size are the blocks of the text they make up. -/
theorem blocks_flatten {records : List (List α)} (sized : ∀ r ∈ records, r.length = size) :
    blocks size records.flatten = records := by
  induction records with
  | nil => rfl
  | cons r records ih =>
    have here := sized r List.mem_cons_self
    have some : r ++ records.flatten ≠ [] := by
      intro nothing
      have empty := (List.append_eq_nil_iff.mp nothing).1
      rw [empty, List.length_nil] at here
      omega
    rw [List.flatten_cons, blocks_cons positive some, ← here, List.take_left, List.drop_left, here,
      ih (fun s hs => sized s (List.mem_cons_of_mem _ hs))]

section Pieces
omit positive

def pieces : List Nat → List α → List (List α)
  | [], _ => []
  | size :: sizes, xs => xs.take size :: pieces sizes (xs.drop size)

theorem pieces_flatten (fields : List (List α)) :
    pieces (fields.map List.length) fields.flatten = fields := by
  induction fields with
  | nil => rfl
  | cons f fields ih =>
    rw [List.map_cons, List.flatten_cons, pieces, List.take_left, List.drop_left, ih]

theorem flatten_pieces {sizes : List Nat} {xs : List α} (h : xs.length = sizes.sum) :
    (pieces sizes xs).flatten = xs := by
  induction sizes generalizing xs with
  | nil => exact (List.eq_nil_of_length_eq_zero h).symm
  | cons size sizes ih =>
    have rest : (xs.drop size).length = sizes.sum := by
      rw [List.length_drop, h, List.sum_cons]
      omega
    rw [pieces, List.flatten_cons, ih rest, List.take_append_drop]

end Pieces

end Lib.Blocks
