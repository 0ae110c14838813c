import Asterion.Lib.Blocks

/-! A stream consumed in blocks of one size: what has not filled a block yet is kept. However the
stream is cut into pieces, it is consumed symbol by symbol. -/
namespace Lib.BlockStream
open Lib.Blocks

variable {S A : Type} (size : Nat) (compress : S → List A → S)

def push (s : S × List A) (x : A) : S × List A :=
  if s.2.length + 1 = size then (compress s.1 (s.2 ++ [x]), []) else (s.1, s.2 ++ [x])

theorem foldl_push_open (xs : List A) (s : S × List A) (room : s.2.length + xs.length < size) :
    xs.foldl (push size compress) s = (s.1, s.2 ++ xs) := by
  induction xs generalizing s with
  | nil => simp
  | cons x xs ih =>
    rw [List.length_cons] at room
    have step : push size compress s x = (s.1, s.2 ++ [x]) := if_neg (by omega)
    rw [List.foldl_cons, step, ih (s.1, s.2 ++ [x]) (by simp; omega)]
    simp

theorem foldl_push_full (xs : List A) (s : S × List A) (some : xs ≠ [])
    (full : s.2.length + xs.length = size) :
    xs.foldl (push size compress) s = (compress s.1 (s.2 ++ xs), []) := by
  obtain ⟨init, last, rfl⟩ := (List.eq_nil_or_concat' xs).resolve_left some
  rw [List.length_append, List.length_singleton] at full
  have before := foldl_push_open size compress init s (by omega)
  have fills : (s.2 ++ init).length + 1 = size := by
    rw [List.length_append]
    omega
  rw [List.foldl_append, before, List.foldl_cons, List.foldl_nil, push, if_pos fills,
    List.append_assoc]

theorem length_push (s : S × List A) (x : A) (room : s.2.length < size) :
    (push size compress s x).2.length = (s.2.length + 1) % size := by
  unfold push
  split
  · rename_i full
    simp [full]
  · rw [List.length_append, List.length_singleton, Nat.mod_eq_of_lt (by omega)]

theorem length_foldl_push (positive : 0 < size) (xs : List A) (s : S × List A)
    (room : s.2.length < size) :
    (xs.foldl (push size compress) s).2.length = (s.2.length + xs.length) % size := by
  induction xs generalizing s with
  | nil => exact (Nat.mod_eq_of_lt room).symm
  | cons x xs ih =>
    have step := length_push size compress s x room
    rw [List.foldl_cons, ih _ (by rw [step]; exact Nat.mod_lt _ positive), step, Nat.mod_add_mod,
      List.length_cons]
    congr 1
    omega

/-- A stream of whole blocks is the fold of its blocks. -/
theorem foldl_push_blocks (records : List (List A)) (positive : 0 < size)
    (sized : ∀ r ∈ records, r.length = size) (s : S) :
    records.flatten.foldl (push size compress) (s, []) = (records.foldl compress s, []) := by
  induction records generalizing s with
  | nil => rfl
  | cons r records ih =>
    have here := sized r List.mem_cons_self
    have some : r ≠ [] := by
      intro none
      rw [none, List.length_nil] at here
      omega
    have block := foldl_push_full size compress r (s, []) some (by simp [here])
    rw [List.flatten_cons, List.foldl_append, block,
      ih (fun r' there => sized r' (List.mem_cons_of_mem _ there)), List.nil_append, List.foldl_cons]

/-- Where the size divides the length of a text, all its blocks are full. -/
theorem length_of_mem_blocks (positive : 0 < size) {xs : List A} (whole : xs.length % size = 0) :
    ∀ r ∈ blocks size xs, r.length = size := by
  induction h : xs.length using Nat.strong_induction_on generalizing xs with
  | _ n ih =>
    intro r here
    by_cases empty : xs = []
    · rw [empty] at here
      cases here
    · have long := List.length_pos_of_ne_nil empty
      have atLeast : size ≤ xs.length := Nat.le_of_dvd long (Nat.dvd_of_mod_eq_zero whole)
      rw [blocks_cons positive empty, List.mem_cons] at here
      rcases here with rfl | later
      · rw [List.length_take]
        omega
      · have rest : (xs.drop size).length % size = 0 := by
          rw [List.length_drop, ← Nat.mod_eq_sub_mod atLeast]
          exact whole
        exact ih _ (by rw [List.length_drop]; omega) rest rfl r later

/-- A text whose length the size divides, as a stream. -/
theorem foldl_push_whole (positive : 0 < size) {xs : List A} (whole : xs.length % size = 0) (s : S) :
    xs.foldl (push size compress) (s, []) = ((blocks size xs).foldl compress s, []) := by
  have sized := length_of_mem_blocks size positive whole
  have stream := foldl_push_blocks size compress (blocks size xs) positive sized s
  rwa [flatten_blocks positive] at stream

end Lib.BlockStream
