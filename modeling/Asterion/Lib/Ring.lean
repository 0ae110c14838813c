import Mathlib

/-! A list of slots read as a ring: which slot an item of a queue lies in, and the queue that
starts at a given slot. Slots outside the queue hold anything. -/
namespace Lib.Ring

variable {T : Type}

/-- The slot of the `i`-th item behind `head` in a ring of `n` slots. -/
def index (n head i : Nat) : Nat := (head + i) % n

theorem index_lt {n : Nat} (head i : Nat) (pos : 0 < n) : index n head i < n :=
  Nat.mod_lt _ pos

theorem index_zero {n head : Nat} (h : head < n) : index n head 0 = head := Nat.mod_eq_of_lt h

/-- The slot after the slot of an item is the slot of the next one. -/
theorem index_succ (n head i : Nat) : (index n head i + 1) % n = index n head (i + 1) := by
  unfold index
  rw [Nat.mod_add_mod, Nat.add_assoc]

/-- Seen from the next slot every item is one place closer. -/
theorem index_advance (n head i : Nat) : index n ((head + 1) % n) i = index n head (i + 1) := by
  unfold index
  rw [Nat.mod_add_mod]
  congr 1
  omega

theorem index_injective {n head i j : Nat} (hi : i < n) (hj : j < n)
    (h : index n head i = index n head j) : i = j := by
  have hm : i ≡ j [MOD n] := Nat.ModEq.add_left_cancel' head h
  rwa [Nat.ModEq, Nat.mod_eq_of_lt hi, Nat.mod_eq_of_lt hj] at hm

/-- Coming back to the first slot takes a whole round. -/
theorem index_eq_head {n head i : Nat} (h : head < n) (hi : i ≤ n) (pos : 0 < i)
    (back : index n head i = head) : i = n := by
  rcases Nat.lt_or_ge i n with lt | ge
  · have hz : index n head i = index n head 0 := back.trans (index_zero h).symm
    exact absurd (index_injective lt (Nat.lt_of_le_of_lt (Nat.zero_le i) lt) hz) (by omega)
  · omega

/-- The slots hold the queue from `head` on. -/
def Holds (slots : List T) (head : Nat) (queue : List T) : Prop :=
  ∀ i, (h : i < queue.length) → slots[index slots.length head i]? = some queue[i]

variable {slots queue : List T} {head : Nat} {x : T}

theorem holds_nil : Holds slots head [] := fun _ h => by cases h

/-- Writing the slot behind the queue leaves the queue alone. -/
theorem Holds.write (h : Holds slots head queue) (room : queue.length < slots.length) (x : T) :
    Holds (slots.set (index slots.length head queue.length) x) head queue := by
  intro i hi
  have ne : index slots.length head queue.length ≠ index slots.length head i := by
    intro same
    exact absurd (index_injective room (hi.trans room) same) (by omega)
  rw [List.length_set, List.getElem?_set_ne ne]
  exact h i hi

/-- An item in the slot behind the queue can be taken into it. -/
theorem Holds.push (h : Holds slots head queue)
    (last : slots[index slots.length head queue.length]? = some x) :
    Holds slots head (queue ++ [x]) := by
  intro i hi
  rw [List.length_append, List.length_singleton] at hi
  rcases Nat.lt_or_ge i queue.length with lt | ge
  · rw [List.getElem_append_left lt]
    exact h i lt
  · obtain rfl : i = queue.length := by omega
    rw [List.getElem_append_right (Nat.le_refl _), last]
    simp

theorem Holds.first (h : Holds slots head (x :: queue)) (valid : head < slots.length) :
    slots[head]? = some x := by
  have h0 := h 0 (Nat.succ_pos _)
  rwa [index_zero valid] at h0

theorem Holds.pop (h : Holds slots head (x :: queue)) :
    Holds slots ((head + 1) % slots.length) queue := by
  intro i hi
  rw [index_advance]
  exact h (i + 1) (Nat.succ_lt_succ hi)

end Lib.Ring
