import Mathlib

/-! Lists that are filled in rounds up to a limit. A round has several entries; what is pushed once
the list is full is dropped, so the last round can be cut anywhere. -/
namespace Lib.Rounds

variable {S A B : Type} (limit : Nat) (make : Nat → A → B)

def push (out : List B) (entry : A) : List B :=
  if limit ≤ out.length then out else out ++ [make out.length entry]

/-- Rounds go on while the list is not full; `fuel` bounds their number. -/
def fill (round : S → List A × S) : Nat → S → List B → List B
  | 0, _, out => out
  | fuel + 1, s, out =>
    if out.length < limit then fill round fuel (round s).2 ((round s).1.foldl (push limit make) out)
    else out

def elements (entries : List A) : List B := (entries.take limit).mapIdx make

theorem length_elements (entries : List A) :
    (elements limit make entries).length = min limit entries.length := by
  rw [elements, List.length_mapIdx, List.length_take]

theorem elements_congr {make' : Nat → A → B} (same : ∀ i < limit, ∀ entry, make i entry = make' i entry)
    (entries : List A) : elements limit make entries = elements limit make' entries := by
  apply List.mapIdx_eq_mapIdx_iff.mpr
  intro i inside
  rw [List.length_take] at inside
  exact same i (by omega) _

theorem elements_map {C : Type} (f : C → A) (entries : List C) :
    elements limit make (entries.map f) = elements limit (fun i entry => make i (f entry)) entries := by
  apply List.ext_getElem
  · simp [elements]
  · simp [elements]

theorem map_elements {C : Type} (f : B → C) (entries : List A) :
    (elements limit make entries).map f = elements limit (fun i entry => f (make i entry)) entries := by
  apply List.ext_getElem
  · simp [elements]
  · simp [elements]

theorem push_elements (entries : List A) (entry : A) :
    push limit make (elements limit make entries) entry =
      elements limit make (entries ++ [entry]) := by
  rw [push, length_elements]
  split
  · have full : limit ≤ entries.length := by omega
    rw [elements, elements, List.take_append_of_le_length full]
  · have room : entries.length < limit := by omega
    have all : entries.take limit = entries := List.take_of_length_le (by omega)
    have one : (entries ++ [entry]).take limit = entries ++ [entry] := by
      apply List.take_of_length_le
      rw [List.length_append, List.length_singleton]
      omega
    rw [elements, elements, all, one, List.mapIdx_concat, Nat.min_eq_right (by omega)]

theorem foldl_push (entries more : List A) :
    more.foldl (push limit make) (elements limit make entries) =
      elements limit make (entries ++ more) := by
  induction more generalizing entries with
  | nil => rw [List.foldl_nil, List.append_nil]
  | cons entry more ih =>
    rw [List.foldl_cons, push_elements, ih, List.append_assoc, List.singleton_append]

section Rounds
variable (cycle : Nat → List A)

def entries (count : Nat) : List A := (List.range count).flatMap cycle

theorem entries_succ (count : Nat) : entries cycle (count + 1) = entries cycle count ++ cycle count := by
  simp [entries, List.range_succ]

theorem entries_map {C : Type} (f : A → C) (count : Nat) :
    entries (fun c => (cycle c).map f) count = (entries cycle count).map f := by
  rw [entries, entries, List.map_flatMap]

variable {cycle} {size : Nat} (sized : ∀ c, (cycle c).length = size)
include sized

theorem length_entries (count : Nat) : (entries cycle count).length = size * count := by
  induction count with
  | zero => rfl
  | succ count ih => rw [entries_succ, List.length_append, ih, sized, Nat.mul_succ]

/-- Once there are enough rounds, more of them change nothing. -/
theorem elements_entries {count more : Nat} (enough : limit ≤ size * count) :
    elements limit make (entries cycle (count + more)) =
      elements limit make (entries cycle count) := by
  induction more with
  | zero => rfl
  | succ more ih =>
    have full : limit ≤ (entries cycle (count + more)).length := by
      rw [length_entries sized, Nat.mul_add]
      omega
    rw [← ih, ← Nat.add_assoc, entries_succ, elements, elements,
      List.take_append_of_le_length full]

/-- A list filled from rounds of one size has the entries of as many rounds as it needs. -/
theorem fill_eq {round : S → List A × S} {state : Nat → S} (some : 0 < size)
    (step : ∀ c, size * c < limit → round (state c) = (cycle c, state (c + 1))) :
    fill limit make round limit (state 0) [] = elements limit make (entries cycle limit) := by
  have enough : limit ≤ size * limit := Nat.le_mul_of_pos_left limit some
  -- `count` rounds are behind the loop, and the fuel is enough for the others
  have go : ∀ fuel count, limit ≤ count + fuel →
      fill limit make round fuel (state count) (elements limit make (entries cycle count)) =
        elements limit make (entries cycle limit) := by
    intro fuel
    induction fuel with
    | zero =>
      intro count rounds
      obtain ⟨more, rfl⟩ := Nat.exists_eq_add_of_le rounds
      exact elements_entries limit make sized enough
    | succ fuel ih =>
      intro count rounds
      rw [fill, length_elements, length_entries sized]
      split
      · have here := step count (by omega)
        rw [here, foldl_push, ← entries_succ]
        exact ih (count + 1) (by omega)
      · have full : limit ≤ size * count := by omega
        rcases Nat.le_total count limit with le | le
        · obtain ⟨more, same⟩ := Nat.exists_eq_add_of_le le
          rw [same, elements_entries (count + more) make sized (same ▸ full)]
        · obtain ⟨more, rfl⟩ := Nat.exists_eq_add_of_le le
          exact elements_entries limit make sized enough
  have start : elements limit make (entries cycle 0) = [] := by
    simp [elements, entries]
  have whole := go limit 0 (by omega)
  rwa [start] at whole

end Rounds

end Lib.Rounds
