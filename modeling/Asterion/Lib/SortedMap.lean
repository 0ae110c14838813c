import Mathlib

/-! Finite maps kept as lists in strictly increasing key order, for any strict
total order on the keys. The order of the entries is the order of iteration, and
the invariant travels with the value. -/
namespace Lib

structure SortedMap {K : Type} (r : K → K → Prop) (V : Type) where
  entries : List (K × V)
  sorted : entries.Pairwise (fun a b => r a.1 b.1)

namespace SortedMap

variable {K V : Type} {r : K → K → Prop}

@[ext] theorem ext {m n : SortedMap r V} (h : m.entries = n.entries) : m = n := by
  cases m; cases n; cases h; rfl

def empty : SortedMap r V := ⟨[], .nil⟩

instance : Inhabited (SortedMap r V) := ⟨empty⟩

@[simp] theorem entries_empty : (empty : SortedMap r V).entries = [] := rfl

theorem pairwise_keys {es : List (K × V)} :
    es.Pairwise (fun a b => r a.1 b.1) ↔ (es.map Prod.fst).Pairwise r := by
  rw [List.pairwise_map]

section Keys
variable [DecidableEq K]

def find? (m : SortedMap r V) (k : K) : Option V :=
  (m.entries.find? (fun e => e.1 = k)).map Prod.snd

def modifyEntries (k : K) (f : V → V) (es : List (K × V)) : List (K × V) :=
  es.map (fun e => if e.1 = k then (e.1, f e.2) else e)

@[simp] theorem modifyEntries_nil (k : K) (f : V → V) : modifyEntries k f [] = [] := rfl

@[simp] theorem modifyEntries_cons (k : K) (f : V → V) (e : K × V) (es : List (K × V)) :
    modifyEntries k f (e :: es) =
      (if e.1 = k then (e.1, f e.2) else e) :: modifyEntries k f es := rfl

theorem modifyEntries_keys (k : K) (f : V → V) (es : List (K × V)) :
    (modifyEntries k f es).map Prod.fst = es.map Prod.fst := by
  simp only [modifyEntries, List.map_map]
  apply List.map_congr_left
  intro e _
  by_cases h : e.1 = k <;> simp [h]

theorem modifyEntries_absent {k : K} {f : V → V} {es : List (K × V)}
    (h : ∀ e ∈ es, e.1 ≠ k) : modifyEntries k f es = es := by
  induction es with
  | nil => rfl
  | cons e es ih =>
    rw [modifyEntries_cons, if_neg (h e List.mem_cons_self),
      ih (fun a ha => h a (List.mem_cons_of_mem _ ha))]

def modify (m : SortedMap r V) (k : K) (f : V → V) : SortedMap r V where
  entries := modifyEntries k f m.entries
  sorted := by
    rw [pairwise_keys, modifyEntries_keys, ← pairwise_keys]
    exact m.sorted

def erase (m : SortedMap r V) (k : K) : SortedMap r V where
  entries := m.entries.filter (fun e => e.1 ≠ k)
  sorted := m.sorted.filter _

@[simp] theorem entries_modify (m : SortedMap r V) (k : K) (f : V → V) :
    (m.modify k f).entries = modifyEntries k f m.entries := rfl

@[simp] theorem entries_erase (m : SortedMap r V) (k : K) :
    (m.erase k).entries = m.entries.filter (fun e => e.1 ≠ k) := rfl

theorem mem_modifyEntries {k : K} {f : V → V} {es : List (K × V)} {e : K × V} :
    e ∈ modifyEntries k f es ↔
      (e ∈ es ∧ e.1 ≠ k) ∨ ∃ v, (k, v) ∈ es ∧ e = (k, f v) := by
  simp only [modifyEntries, List.mem_map]
  constructor
  · rintro ⟨d, hd, rfl⟩
    by_cases h : d.1 = k
    · exact Or.inr ⟨d.2, h ▸ hd, by simp [h]⟩
    · exact Or.inl (by simp [h, hd])
  · rintro (⟨he, hk⟩ | ⟨v, hv, rfl⟩)
    · exact ⟨e, he, by simp [hk]⟩
    · exact ⟨(k, v), hv, by simp⟩

end Keys

section Emplace
variable [DecidableEq K] [DecidableRel r]

/-- Stores the default at its place in the order unless the key is present. -/
def emplaceEntries (r : K → K → Prop) [DecidableRel r] (k : K) (d : V) :
    List (K × V) → List (K × V)
  | [] => [(k, d)]
  | e :: es => if r k e.1 then (k, d) :: e :: es
      else if e.1 = k then e :: es else e :: emplaceEntries r k d es

theorem mem_of_mem_emplaceEntries {k : K} {d : V} {es : List (K × V)} {e : K × V}
    (h : e ∈ emplaceEntries r k d es) : e ∈ es ∨ e = (k, d) := by
  induction es with
  | nil => exact Or.inr (List.mem_singleton.mp h)
  | cons a es ih =>
    simp only [emplaceEntries] at h
    split at h
    · exact (List.mem_cons.mp h).symm
    · split at h
      · exact Or.inl h
      · rcases List.mem_cons.mp h with h | h
        · exact Or.inl (by simp [h])
        · exact (ih h).imp (List.mem_cons_of_mem _) id

theorem subset_emplaceEntries (k : K) (d : V) (es : List (K × V)) :
    es ⊆ emplaceEntries r k d es := by
  induction es with
  | nil => exact List.nil_subset _
  | cons a es ih =>
    simp only [emplaceEntries]
    split
    · exact List.subset_cons_self _ _
    · split
      · exact fun _ h => h
      · exact List.cons_subset_cons _ ih

theorem emplaceEntries_mem_key (k : K) (d : V) (es : List (K × V)) :
    ∃ v, (k, v) ∈ emplaceEntries r k d es := by
  induction es with
  | nil => exact ⟨d, List.mem_singleton.mpr rfl⟩
  | cons e es ih =>
    simp only [emplaceEntries]
    split
    · exact ⟨d, List.mem_cons_self⟩
    · split
      · rename_i hk; exact ⟨e.2, hk ▸ List.mem_cons_self⟩
      · exact ih.imp fun _ h => List.mem_cons_of_mem _ h

variable [IsStrictTotalOrder K r]

theorem emplaceEntries_sorted (k : K) (d : V) (es : List (K × V))
    (h : es.Pairwise (fun a b => r a.1 b.1)) :
    (emplaceEntries r k d es).Pairwise (fun a b => r a.1 b.1) := by
  induction es with
  | nil => simp [emplaceEntries]
  | cons a es ih =>
    have ha : ∀ b ∈ es, r a.1 b.1 := fun b hb => List.rel_of_pairwise_cons h hb
    simp only [emplaceEntries]
    split
    · rename_i hk
      refine List.Pairwise.cons ?_ h
      intro b hb
      rcases List.mem_cons.mp hb with rfl | hb
      · exact hk
      · exact trans_of r hk (ha b hb)
    · rename_i hk
      split
      · exact h
      · rename_i hne
        refine List.Pairwise.cons ?_ (ih h.of_cons)
        intro b hb
        rcases mem_of_mem_emplaceEntries hb with hb | rfl
        · exact ha b hb
        · rcases trichotomous_of r a.1 k with hr | hr | hr
          · exact hr
          · exact absurd hr hne
          · exact absurd hr hk

theorem emplaceEntries_present {k : K} {d v : V} {es : List (K × V)}
    (sorted : es.Pairwise (fun a b => r a.1 b.1)) (h : (k, v) ∈ es) :
    emplaceEntries r k d es = es := by
  induction es with
  | nil => cases h
  | cons e es ih =>
    simp only [emplaceEntries]
    rcases List.mem_cons.mp h with he | h
    · subst he
      rw [if_neg (irrefl_of r k), if_pos rfl]
    · have hr : r e.1 k := List.rel_of_pairwise_cons sorted h
      rw [if_neg (asymm_of r hr), if_neg (ne_of_irrefl hr), ih sorted.of_cons h]

/-- `std::map::try_emplace`. -/
def tryEmplace (m : SortedMap r V) (k : K) (d : V) : SortedMap r V where
  entries := emplaceEntries r k d m.entries
  sorted := emplaceEntries_sorted k d m.entries m.sorted

@[simp] theorem entries_tryEmplace (m : SortedMap r V) (k : K) (d : V) :
    (m.tryEmplace k d).entries = emplaceEntries r k d m.entries := rfl

end Emplace

theorem find?_eq_none [DecidableEq K] {m : SortedMap r V} {k : K} :
    m.find? k = none ↔ ∀ e ∈ m.entries, e.1 ≠ k := by
  simp [find?]

theorem find?_erase_self [DecidableEq K] (m : SortedMap r V) (k : K) : (m.erase k).find? k = none := by
  rw [find?_eq_none]
  intro e he
  simpa using (List.mem_filter.mp he).2

section Lookup
variable [IsStrictTotalOrder K r] (m : SortedMap r V)

theorem keys_nodup : (m.entries.map Prod.fst).Nodup := by
  refine (pairwise_keys.mp m.sorted).imp ?_
  intro a b hab heq
  exact irrefl_of r b (heq ▸ hab)

/-- A key has at most one entry. -/
theorem entry_unique {k : K} {v w : V} (hv : (k, v) ∈ m.entries) (hw : (k, w) ∈ m.entries) :
    v = w :=
  congrArg Prod.snd (List.inj_on_of_nodup_map m.keys_nodup hv hw rfl)

variable [DecidableEq K]

theorem find?_eq_some {k : K} {v : V} : m.find? k = some v ↔ (k, v) ∈ m.entries := by
  simp only [find?, Option.map_eq_some_iff]
  constructor
  · rintro ⟨e, he, rfl⟩
    have hk : e.1 = k := by simpa using List.find?_some he
    exact hk ▸ List.mem_of_find?_eq_some he
  · intro hv
    cases hf : m.entries.find? (fun e => e.1 = k) with
    | none =>
      have hn := List.find?_eq_none.mp hf _ hv
      simp at hn
    | some e =>
      have hk : e.1 = k := by simpa using List.find?_some hf
      have he : (k, e.2) ∈ m.entries := hk ▸ List.mem_of_find?_eq_some hf
      exact ⟨e, rfl, m.entry_unique he hv⟩

/-- The first entry is under the least key. -/
theorem first_least {k : K} {v : V} {es : List (K × V)} (first : m.entries = (k, v) :: es) {j : K}
    (present : m.find? j ≠ none) : j = k ∨ r k j := by
  obtain ⟨w, hw⟩ := Option.ne_none_iff_exists'.mp present
  have here := m.find?_eq_some.mp hw
  have sorted := m.sorted
  rw [first] at here sorted
  rcases List.mem_cons.mp here with same | later
  · exact Or.inl (congrArg Prod.fst same)
  · exact Or.inr (List.rel_of_pairwise_cons sorted later)

theorem find?_ext {n : SortedMap r V} {j k : K}
    (h : ∀ v, (j, v) ∈ m.entries ↔ (k, v) ∈ n.entries) : m.find? j = n.find? k := by
  apply Option.ext
  intro v
  rw [m.find?_eq_some, n.find?_eq_some, h]

theorem find?_modify_self (k : K) (f : V → V) : (m.modify k f).find? k = (m.find? k).map f := by
  apply Option.ext
  intro v
  rw [find?_eq_some, entries_modify, mem_modifyEntries, Option.map_eq_some_iff]
  constructor
  · rintro (⟨_, h⟩ | ⟨w, hw, h⟩)
    · exact absurd rfl h
    · exact ⟨w, m.find?_eq_some.mpr hw, (congrArg Prod.snd h).symm⟩
  · rintro ⟨w, hw, rfl⟩
    exact Or.inr ⟨w, m.find?_eq_some.mp hw, rfl⟩

theorem find?_modify_ne {j k : K} (f : V → V) (h : j ≠ k) : (m.modify k f).find? j = m.find? j := by
  apply find?_ext
  intro v
  rw [entries_modify, mem_modifyEntries]
  constructor
  · rintro (⟨hv, _⟩ | ⟨w, _, he⟩)
    · exact hv
    · exact absurd (congrArg Prod.fst he) h
  · exact fun hv => Or.inl ⟨hv, h⟩

theorem find?_erase_ne {j k : K} (h : j ≠ k) : (m.erase k).find? j = m.find? j := by
  apply find?_ext
  intro v
  simp [h]

variable [DecidableRel r]

theorem find?_tryEmplace_ne {j k : K} (d : V) (h : j ≠ k) :
    (m.tryEmplace k d).find? j = m.find? j := by
  apply find?_ext
  intro v
  constructor
  · intro hv
    rcases mem_of_mem_emplaceEntries hv with hv | he
    · exact hv
    · exact absurd (congrArg Prod.fst he) h
  · exact fun hv => subset_emplaceEntries k d _ hv

theorem find?_tryEmplace_self (k : K) (d : V) :
    (m.tryEmplace k d).find? k = some ((m.find? k).getD d) := by
  obtain ⟨v, hv⟩ := emplaceEntries_mem_key (r := r) k d m.entries
  have hf : (m.tryEmplace k d).find? k = some v := (find?_eq_some _).mpr hv
  rw [hf]
  cases hm : m.find? k with
  | some w =>
    have hw : (k, w) ∈ (m.tryEmplace k d).entries :=
      subset_emplaceEntries k d _ (m.find?_eq_some.mp hm)
    exact congrArg some ((m.tryEmplace k d).entry_unique hv hw)
  | none =>
    rcases mem_of_mem_emplaceEntries hv with h | h
    · exact absurd rfl (find?_eq_none.mp hm _ h)
    · exact congrArg (fun e => some e.2) h

end Lookup

/-- The keys of a strictly sorted list are determined by which keys there are. -/
theorem keys_unique [IsStrictTotalOrder K r] {ks ls : List K} (hk : ks.Pairwise r)
    (hl : ls.Pairwise r) (same : ∀ k, k ∈ ks ↔ k ∈ ls) : ks = ls := by
  have nodup : ∀ l : List K, l.Pairwise r → l.Nodup := by
    intro l h
    refine h.imp ?_
    rintro a _ hr rfl
    exact irrefl_of r a hr
  have hp : ks.Perm ls := (List.perm_ext_iff_of_nodup (nodup ks hk) (nodup ls hl)).mpr same
  exact hp.eq_of_pairwise (fun a b _ _ hab hba => absurd hba (asymm_of r hab)) hk hl

section Upsert
variable [DecidableEq K] [DecidableRel r] [IsStrictTotalOrder K r]

/-- A write through `operator[]`, which creates a missing entry first. -/
def upsert (m : SortedMap r V) (k : K) (d : V) (f : V → V) : SortedMap r V :=
  (m.tryEmplace k d).modify k f

theorem find?_upsert_self (m : SortedMap r V) (k : K) (d : V) (f : V → V) :
    (m.upsert k d f).find? k = some (f ((m.find? k).getD d)) := by
  rw [upsert, find?_modify_self, find?_tryEmplace_self]
  rfl

theorem find?_upsert_ne (m : SortedMap r V) {j k : K} (d : V) (f : V → V) (h : j ≠ k) :
    (m.upsert k d f).find? j = m.find? j := by
  rw [upsert, find?_modify_ne _ f h, find?_tryEmplace_ne _ d h]

omit [DecidableRel r] in
/-- Two maps with corresponding values are iterated alike. -/
theorem map_entries_eq {W X : Type} (m : SortedMap r V) (n : SortedMap r W) (f : K → V → X)
    (g : K → W → X) (h : ∀ k, (m.find? k).map (f k) = (n.find? k).map (g k)) :
    m.entries.map (fun e => f e.1 e.2) = n.entries.map (fun e => g e.1 e.2) := by
  have hkeys : m.entries.map Prod.fst = n.entries.map Prod.fst := by
    have key_iff : ∀ {U : Type} (l : SortedMap r U) k,
        k ∈ l.entries.map Prod.fst ↔ (l.find? k).isSome = true := by
      intro U l k
      rw [Option.isSome_iff_exists, List.mem_map]
      constructor
      · rintro ⟨e, he, rfl⟩
        exact ⟨e.2, l.find?_eq_some.mpr he⟩
      · rintro ⟨v, hv⟩
        exact ⟨_, l.find?_eq_some.mp hv, rfl⟩
    refine keys_unique (pairwise_keys.mp m.sorted) (pairwise_keys.mp n.sorted) (fun k => ?_)
    rw [key_iff, key_iff, ← Option.isSome_map (f := f k), h, Option.isSome_map]
  have hat : ∀ {U : Type} (l : SortedMap r U) (u : K → U → X),
      l.entries.map (fun e => some (u e.1 e.2)) =
        (l.entries.map Prod.fst).map (fun k => (l.find? k).map (u k)) := by
    intro U l u
    rw [List.map_map]
    apply List.map_congr_left
    intro e he
    have hfind : l.find? e.1 = some e.2 := l.find?_eq_some.mpr he
    simp [hfind]
  have hsome : (m.entries.map (fun e => f e.1 e.2)).map some =
      (n.entries.map (fun e => g e.1 e.2)).map some := by
    rw [List.map_map, List.map_map]
    refine (hat m f).trans (Eq.trans ?_ (hat n g).symm)
    rw [hkeys]
    exact List.map_congr_left (fun k _ => h k)
  exact List.map_injective_iff.mpr (Option.some_injective X) hsome

omit [DecidableRel r] in
/-- A map as long as one that has all its keys has the same keys. -/
theorem keys_of_length {W : Type} {m : SortedMap r V} {n : SortedMap r W}
    (sub : ∀ k, m.find? k ≠ none → n.find? k ≠ none) (length : m.entries.length = n.entries.length)
    {k : K} (h : n.find? k ≠ none) : m.find? k ≠ none := by
  have key {U : Type} (l : SortedMap r U) (j : K) :
      l.find? j ≠ none ↔ j ∈ l.entries.map Prod.fst := by
    rw [Ne, find?_eq_none, List.mem_map]
    push Not
    exact Iff.rfl
  have perm : (m.entries.map Prod.fst).Perm (n.entries.map Prod.fst) := by
    refine (List.subperm_of_subset m.keys_nodup fun j hj => ?_).perm_of_length_le ?_
    · exact (key n j).mp (sub j ((key m j).mpr hj))
    · rw [List.length_map, List.length_map, length]
  exact (key m k).mpr (perm.mem_iff.mpr ((key n k).mp h))

def collect {E : Type} (key : E → K) (d : V) (f : V → E → V) (es : List E) : SortedMap r V :=
  es.foldl (fun m e => m.upsert (key e) d (fun v => f v e)) empty

theorem find?_collect {E : Type} (key : E → K) (d : V) (f : V → E → V) (es : List E) (k : K) :
    (collect key d f es : SortedMap r V).find? k =
      if es.filter (fun e => key e = k) = [] then none
      else some ((es.filter (fun e => key e = k)).foldl f d) := by
  induction es using List.reverseRecOn with
  | nil => rfl
  | append_singleton es e ih =>
    have hstep : (collect key d f (es ++ [e]) : SortedMap r V) =
        (collect key d f es : SortedMap r V).upsert (key e) d (fun v => f v e) := by
      simp [collect]
    rw [hstep]
    by_cases hk : key e = k
    · have hlast : (es ++ [e]).filter (fun a => key a = k) =
          es.filter (fun a => key a = k) ++ [e] := by simp [hk]
      have hget : ((collect key d f es : SortedMap r V).find? k).getD d =
          (es.filter (fun a => key a = k)).foldl f d := by
        rw [ih]
        split
        · rename_i hnil
          rw [hnil]
          rfl
        · rfl
      rw [hlast, if_neg (by simp), List.foldl_append, ← hget, ← hk, find?_upsert_self]
      rfl
    · have hsame : (es ++ [e]).filter (fun a => key a = k) = es.filter (fun a => key a = k) := by
        simp [hk]
      rw [hsame, find?_upsert_ne _ _ _ (fun h => hk h.symm), ih]

end Upsert

section Total
variable [DecidableEq K]

def total (f : K → V → Int) (m : SortedMap r V) : Int := (m.entries.map (fun e => f e.1 e.2)).sum

theorem sum_modifyEntries (f : K → V → Int) (g : V → V) {k : K} {v : V} {es : List (K × V)}
    (nodup : (es.map Prod.fst).Nodup) (present : (k, v) ∈ es) :
    ((modifyEntries k g es).map (fun e => f e.1 e.2)).sum =
      (es.map (fun e => f e.1 e.2)).sum + (f k (g v) - f k v) := by
  induction es with
  | nil => cases present
  | cons e es ih =>
    rw [List.map_cons, List.nodup_cons] at nodup
    rw [modifyEntries_cons]
    by_cases here : e.1 = k
    · have rest : modifyEntries k g es = es := by
        apply modifyEntries_absent
        rintro a ha rfl
        exact nodup.1 (here ▸ List.mem_map_of_mem ha)
      have same : e = (k, v) := by
        rcases List.mem_cons.mp present with same | later
        · exact same.symm
        · exact absurd (List.mem_map_of_mem later) (here ▸ nodup.1)
      subst same
      rw [if_pos rfl, rest]
      simp only [List.map_cons, List.sum_cons]
      omega
    · have later : (k, v) ∈ es := by
        rcases List.mem_cons.mp present with same | later
        · exact absurd (congrArg Prod.fst same).symm here
        · exact later
      have rest := ih nodup.2 later
      rw [if_neg here]
      simp only [List.map_cons, List.sum_cons]
      omega

variable [DecidableRel r]

theorem sum_emplaceEntries {f : K → V → Int} {k : K} {d : V} (zero : f k d = 0)
    (es : List (K × V)) : ((emplaceEntries r k d es).map (fun e => f e.1 e.2)).sum =
      (es.map (fun e => f e.1 e.2)).sum := by
  induction es with
  | nil => simpa [emplaceEntries] using zero
  | cons e es ih =>
    unfold emplaceEntries
    split
    · simp [zero]
    · split
      · rfl
      · simp [ih]

/-- A new entry counts from a default that does not count. -/
theorem total_upsert [IsStrictTotalOrder K r] {f : K → V → Int} (m : SortedMap r V) {k : K} {d : V}
    (zero : f k d = 0) (g : V → V) :
    (m.upsert k d g).total f =
      m.total f + (f k (g ((m.find? k).getD d)) - f k ((m.find? k).getD d)) := by
  have present : (k, (m.find? k).getD d) ∈ (m.tryEmplace k d).entries :=
    (m.tryEmplace k d).find?_eq_some.mp (m.find?_tryEmplace_self k d)
  have before : (m.tryEmplace k d).total f = m.total f := sum_emplaceEntries zero m.entries
  rw [← before]
  exact sum_modifyEntries f g (m.tryEmplace k d).keys_nodup present

end Total
end SortedMap
end Lib
