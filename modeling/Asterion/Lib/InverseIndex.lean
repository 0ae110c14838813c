import Asterion.Lib.Tally

/-! An index from the tags of the values of a finite map back to their keys. A value has at most one
tag; the index is the inverse of the tagging where no two values share one. -/
namespace Lib.InverseIndex
open Lib.Tally

variable {J K V : Type} [DecidableEq J] [DecidableEq K]

/-- The index finds exactly the keys whose value has the tag. -/
def Inverse (tag : V → Option K) (index : AList (fun _ : K => J)) (m : AList (fun _ : J => V)) :
    Prop :=
  ∀ x j, index.lookup x = some j ↔ ∃ v, m.lookup j = some v ∧ tag v = some x

def untag (index : AList (fun _ : K => J)) : Option K → AList (fun _ : K => J)
  | none => index
  | some x => index.erase x

omit [DecidableEq J] in
theorem lookup_untag {index : AList (fun _ : K => J)} {old : Option K} (x : K) :
    (untag index old).lookup x = if old = some x then none else index.lookup x := by
  cases old with
  | none => rfl
  | some y =>
    by_cases same : y = x
    · rw [if_pos (congrArg some same), untag, same, AList.lookup_erase]
    · have other : ¬ some y = some x := fun h => same (Option.some.inj h)
      rw [if_neg other, untag, AList.lookup_erase_ne (Ne.symm same)]

variable {tag : V → Option K} {index : AList (fun _ : K => J)} {m : AList (fun _ : J => V)}
  {j : J} {v w : V}

theorem inverse_empty : Inverse tag ∅ (∅ : AList (fun _ : J => V)) :=
  fun _ _ => ⟨fun h => absurd h (Option.some_ne_none _).symm,
    fun ⟨_, h, _⟩ => absurd h (Option.some_ne_none _).symm⟩

theorem inverse_insert_same (found : m.lookup j = some v) (same : tag w = tag v) :
    Inverse tag index (m.insert j w) ↔ Inverse tag index m := by
  have values : ∀ x i, (∃ u, (m.insert j w).lookup i = some u ∧ tag u = some x) ↔
      ∃ u, m.lookup i = some u ∧ tag u = some x := by
    intro x i
    rcases eq_or_ne i j with rfl | other
    · rw [AList.lookup_insert, found]
      constructor
      · rintro ⟨u, here, tagged⟩
        obtain rfl := Option.some.inj here
        exact ⟨v, rfl, same.symm.trans tagged⟩
      · rintro ⟨u, here, tagged⟩
        obtain rfl := Option.some.inj here
        exact ⟨w, rfl, same.trans tagged⟩
    · rw [AList.lookup_insert_ne other]
  exact forall_congr' (fun x => forall_congr' (fun i => by rw [values]))

section Kept
variable (inverse : Inverse tag index m)
include inverse

theorem Inverse.unique {i : J} {x : K} (hi : m.lookup i = some v) (tagged : tag v = some x)
    (hj : m.lookup j = some w) (same : tag w = some x) : i = j := by
  have first := (inverse x i).mpr ⟨v, hi, tagged⟩
  have second := (inverse x j).mpr ⟨w, hj, same⟩
  exact Option.some.inj (first.symm.trans second)

theorem Inverse.insert_untagged (fresh : m.lookup j = none) (untagged : tag v = none) :
    Inverse tag index (m.insert j v) := by
  intro x i
  rw [inverse x i]
  constructor
  · rintro ⟨u, found, tagged⟩
    have other : i ≠ j := by
      rintro rfl
      rw [fresh] at found
      cases found
    exact ⟨u, by rwa [AList.lookup_insert_ne other], tagged⟩
  · rintro ⟨u, found, tagged⟩
    rcases lookup_insert_cases found with ⟨-, rfl⟩ | old
    · rw [untagged] at tagged
      cases tagged
    · exact ⟨u, old, tagged⟩

theorem Inverse.erase (found : m.lookup j = some v) :
    Inverse tag (untag index (tag v)) (m.erase j) := by
  intro x i
  rw [lookup_untag]
  rcases eq_or_ne i j with rfl | other
  · rw [AList.lookup_erase]
    constructor
    · intro here
      split at here
      · cases here
      · rename_i different
        obtain ⟨u, lookup, tagged⟩ := (inverse x i).mp here
        obtain rfl := Option.some.inj (found.symm.trans lookup)
        exact absurd tagged different
    · rintro ⟨u, none, -⟩
      cases none
  · rw [AList.lookup_erase_ne other]
    split
    · rename_i tagged
      constructor
      · intro none
        cases none
      · rintro ⟨u, lookup, same⟩
        exact absurd (inverse.unique lookup same found tagged) other
    · exact inverse x i

/-- A value takes on another tag: the index stays the inverse exactly where no other value has
it. -/
theorem Inverse.retag {x : K} (found : m.lookup j = some v) (changes : tag v ≠ some x)
    (tagged : tag w = some x) :
    Inverse tag ((untag index (tag v)).insert x j) (m.insert j w) ↔
      ∀ i u, m.lookup i = some u → tag u ≠ some x := by
  constructor
  · intro after i u here same
    have other : i ≠ j := by
      rintro rfl
      obtain rfl := Option.some.inj (found.symm.trans here)
      exact changes same
    have mapped := (after x i).mpr ⟨u, by rwa [AList.lookup_insert_ne other], same⟩
    rw [AList.lookup_insert] at mapped
    exact other (Option.some.inj mapped).symm
  · intro free y i
    rcases eq_or_ne y x with rfl | elsewhere
    · rw [AList.lookup_insert]
      constructor
      · intro here
        obtain rfl := Option.some.inj here
        exact ⟨w, AList.lookup_insert _, tagged⟩
      · rintro ⟨u, lookup, same⟩
        rcases lookup_insert_cases lookup with ⟨rfl, -⟩ | old
        · rfl
        · exact absurd same (free i u old)
    · rw [AList.lookup_insert_ne elsewhere, lookup_untag]
      rcases eq_or_ne i j with rfl | other
      · rw [AList.lookup_insert]
        constructor
        · intro here
          split at here
          · cases here
          · rename_i different
            obtain ⟨u, lookup, same⟩ := (inverse y i).mp here
            obtain rfl := Option.some.inj (found.symm.trans lookup)
            exact absurd same different
        · rintro ⟨u, lookup, same⟩
          obtain rfl := Option.some.inj lookup
          exact absurd (Option.some.inj (tagged.symm.trans same)).symm elsewhere
      · rw [AList.lookup_insert_ne other]
        split
        · rename_i old
          constructor
          · intro none
            cases none
          · rintro ⟨u, lookup, same⟩
            exact absurd (inverse.unique lookup same found old) other
        · exact inverse y i

end Kept

section Leads

/-- The index finds only keys whose value has the tag, though perhaps not all of them. -/
def Leads (tag : V → Option K) (index : AList (fun _ : K => J)) (m : AList (fun _ : J => V)) : Prop :=
  ∀ x j, index.lookup x = some j → ∃ v, m.lookup j = some v ∧ tag v = some x

variable (leads : Leads tag index m)
include leads

theorem Leads.insert_new (fresh : m.lookup j = none) : Leads tag index (m.insert j w) := by
  intro x i mapped
  obtain ⟨u, here, tagged⟩ := leads x i mapped
  have other : i ≠ j := by
    rintro rfl
    rw [fresh] at here
    cases here
  exact ⟨u, by rwa [AList.lookup_insert_ne other], tagged⟩

/-- Nothing leads to a key once the entry of its tag is gone. -/
theorem Leads.untagged (found : m.lookup j = some v) {x : K} :
    (untag index (tag v)).lookup x ≠ some j := by
  rw [lookup_untag]
  split
  · exact (Option.some_ne_none j).symm
  · rename_i different
    intro mapped
    obtain ⟨u, here, tagged⟩ := leads x j mapped
    obtain rfl := Option.some.inj (found.symm.trans here)
    exact different tagged

omit leads [DecidableEq J] in
theorem lookup_of_untag {old : Option K} {x : K} {i : J} (h : (untag index old).lookup x = some i) :
    index.lookup x = some i := by
  rw [lookup_untag] at h
  split at h
  · cases h
  · exact h

theorem Leads.erase (found : m.lookup j = some v) :
    Leads tag (untag index (tag v)) (m.erase j) := by
  intro x i mapped
  obtain ⟨u, here, tagged⟩ := leads x i (lookup_of_untag mapped)
  have other : i ≠ j := by
    rintro rfl
    exact leads.untagged found mapped
  exact ⟨u, by rwa [AList.lookup_erase_ne other], tagged⟩

theorem Leads.retag {x : K} (found : m.lookup j = some v) (tagged : tag w = some x) :
    Leads tag ((untag index (tag v)).insert x j) (m.insert j w) := by
  intro y i mapped
  rcases lookup_insert_cases mapped with ⟨rfl, rfl⟩ | old
  · exact ⟨w, AList.lookup_insert _, tagged⟩
  · obtain ⟨u, here, same⟩ := leads y i (lookup_of_untag old)
    have other : i ≠ j := by
      rintro rfl
      exact leads.untagged found old
    exact ⟨u, by rwa [AList.lookup_insert_ne other], same⟩

end Leads

end Lib.InverseIndex
