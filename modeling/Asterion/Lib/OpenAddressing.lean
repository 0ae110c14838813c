import Mathlib

/-! Hash tables with open addressing. From the home of a key the probes go round the cells one by
one. A key lies behind cells that do not end a probe, so a removed key leaves a mark which does
not end one either, and a table with a cell to end on answers every search. -/
namespace Lib.OpenAddressing

/-- The finalizer of a 64-bit hash. -/
def mix64 (value : UInt64) : UInt64 :=
  let value := value ^^^ (value >>> 33)
  let value := value * 0xff51afd7ed558ccd
  let value := value ^^^ (value >>> 33)
  let value := value * 0xc4ceb9fe1a85ec53
  value ^^^ (value >>> 33)

/-- How the cells of a table are read. A probe begins at the masked hash of its key. -/
structure Scheme (C K : Type) where
  vacant : C
  ends : C → Bool
  key : C → Option K
  hash : K → Nat
  vacant_ends : ends vacant = true
  keyless : ∀ {c}, ends c = true → key c = none

/-- The remainder by a power of two, as the bits below it. -/
def mask (n i : Nat) : Nat := i &&& (n - 1)

def Power (n : Nat) : Prop := ∃ p, n = 2 ^ p

theorem Power.pos {n : Nat} (power : Power n) : 0 < n := by
  obtain ⟨p, rfl⟩ := power
  exact Nat.two_pow_pos p

theorem mask_eq {n : Nat} (power : Power n) (i : Nat) : mask n i = i % n := by
  obtain ⟨p, rfl⟩ := power
  exact Nat.and_two_pow_sub_one_eq_mod i p

/-- The loop that doubles a capacity up to the target. -/
def doubleTo (target : Nat) : Nat → Nat → Nat
  | 0, capacity => capacity
  | fuel + 1, capacity =>
    if capacity < target then doubleTo target fuel (capacity * 2) else capacity

section Doubling
variable {target fuel capacity : Nat}

theorem doubleTo_power (power : Power capacity) : Power (doubleTo target fuel capacity) := by
  induction fuel generalizing capacity with
  | zero => exact power
  | succ fuel ih =>
    rw [doubleTo]
    split
    · obtain ⟨p, rfl⟩ := power
      exact ih ⟨p + 1, rfl⟩
    · exact power

theorem le_doubleTo (pos : 0 < capacity) (enough : target ≤ capacity + fuel) :
    target ≤ doubleTo target fuel capacity := by
  induction fuel generalizing capacity with
  | zero => exact enough
  | succ fuel ih =>
    rw [doubleTo]
    split
    · exact ih (by omega) (by omega)
    · omega

end Doubling

section Walk
variable {n h i j : Nat}

/-- The place after `i` steps from `h`. -/
def place (n h i : Nat) : Nat := (h + i) % n

theorem place_lt (pos : 0 < n) : place n h i < n := Nat.mod_lt _ pos

theorem place_zero (start : h < n) : place n h 0 = h := Nat.mod_eq_of_lt start

@[simp] theorem place_mod : place n (h % n) i = place n h i := Nat.mod_add_mod ..

theorem place_next : place n ((h + 1) % n) i = place n h (i + 1) := by
  rw [place_mod, place, place, Nat.add_assoc, Nat.add_comm 1 i]

theorem place_inj (hi : i < n) (hj : j < n) (same : place n h i = place n h j) : i = j := by
  have step : i ≡ j [MOD n] := Nat.ModEq.add_left_cancel' h same
  rwa [Nat.ModEq, Nat.mod_eq_of_lt hi, Nat.mod_eq_of_lt hj] at step

theorem exists_place (hj : j < n) : ∃ i < n, place n h i = j := by
  have home : h % n < n := Nat.mod_lt _ (by omega)
  refine ⟨(j + n - h % n) % n, Nat.mod_lt _ (by omega), ?_⟩
  rw [← place_mod, place, Nat.add_mod_mod]
  have back : h % n + (j + n - h % n) = j + n := by omega
  rw [back, Nat.add_mod_right, Nat.mod_eq_of_lt hj]

end Walk

variable {C K : Type}

namespace Scheme
variable (s : Scheme C K) (cells : List C)

def cellAt (j : Nat) : C := cells.getD j s.vacant

/-- The loop of the probes: the first place from `index` whose cell stops it. -/
def probe (stop : C → Bool) : Nat → Nat → Option Nat
  | 0, _ => none
  | fuel + 1, index =>
    if stop (s.cellAt cells index) then some index
    else probe stop fuel (mask cells.length (index + 1))

/-- The loop without a bound: one that has not stopped after a round goes round for ever, and
has no result here. -/
def seek (stop : C → Bool) (index : Nat) : Option Nat := s.probe cells stop cells.length index

/-- The place lies before the end of every probe for the key. -/
def Reached (k : K) (j : Nat) : Prop :=
  ∃ i < cells.length, place cells.length (s.hash k) i = j ∧
    ∀ i' < i, s.ends (s.cellAt cells (place cells.length (s.hash k) i')) = false

/-- The key lies in the table, in this cell. -/
def Lies (k : K) (c : C) : Prop := ∃ j < cells.length, s.cellAt cells j = c ∧ s.key c = some k

/-- No key is stored twice or out of reach. -/
structure Intact : Prop where
  power : Power cells.length
  reached : ∀ j < cells.length, ∀ k, s.key (s.cellAt cells j) = some k → s.Reached cells k j
  once : ∀ j < cells.length, ∀ j' < cells.length, ∀ k, s.key (s.cellAt cells j) = some k →
    s.key (s.cellAt cells j') = some k → j = j'

section Probe
variable {s cells} {stop : C → Bool} {fuel h j : Nat} (power : Power cells.length)
include power

theorem probe_eq_some (start : h < cells.length) : s.probe cells stop fuel h = some j ↔
    ∃ i < fuel, place cells.length h i = j ∧ stop (s.cellAt cells j) = true ∧
      ∀ i' < i, stop (s.cellAt cells (place cells.length h i')) = false := by
  induction fuel generalizing h with
  | zero => simp [probe]
  | succ fuel ih =>
    have here := place_zero start
    rw [probe]
    split
    · rename_i stops
      constructor
      · intro found
        obtain rfl := Option.some.inj found
        exact ⟨0, by omega, here, stops, fun _ none => by omega⟩
      · rintro ⟨i, _, rfl, _, before⟩
        cases i with
        | zero => rw [here]
        | succ i =>
          have first := before 0 (by omega)
          rw [here, stops] at first
          cases first
    · rename_i goes
      rw [mask_eq power, ih (Nat.mod_lt _ power.pos)]
      simp only [place_next]
      constructor
      · rintro ⟨i, hi, same, stops, before⟩
        refine ⟨i + 1, by omega, same, stops, ?_⟩
        intro i' hi'
        cases i' with
        | zero => rw [here, ← Bool.not_eq_true]; exact goes
        | succ i' => exact before i' (by omega)
      · rintro ⟨i, hi, rfl, stops, before⟩
        cases i with
        | zero =>
          rw [here] at stops
          exact absurd stops goes
        | succ i => exact ⟨i, by omega, rfl, stops, fun i' hi' => before (i' + 1) (by omega)⟩

theorem probe_first (start : h < cells.length) (found : s.probe cells stop fuel h = some j) :
    ∃ i < cells.length, place cells.length h i = j ∧ stop (s.cellAt cells j) = true ∧
      ∀ i' < i, stop (s.cellAt cells (place cells.length h i')) = false := by
  obtain ⟨i, _, rfl, stops, before⟩ := (probe_eq_some power start).mp found
  refine ⟨i, ?_, rfl, stops, before⟩
  by_contra late
  have again : place cells.length h (i - cells.length) = place cells.length h i := by
    have split : h + i = h + (i - cells.length) + cells.length := by omega
    rw [place, place, split, Nat.add_mod_right]
  have pos := power.pos
  have goes := before (i - cells.length) (by omega)
  rw [again, stops] at goes
  cases goes

/-- A round finds a cell to stop at if there is one. -/
theorem seek_isSome (start : h < cells.length)
    (some : ∃ j < cells.length, stop (s.cellAt cells j) = true) :
    ∃ j, s.seek cells stop h = .some j := by
  obtain ⟨j, hj, stops⟩ := some
  have steps : ∃ i, i < cells.length ∧ stop (s.cellAt cells (place cells.length h i)) = true := by
    obtain ⟨i, hi, rfl⟩ := exists_place (h := h) hj
    exact ⟨i, hi, stops⟩
  classical
  obtain ⟨first, stops⟩ := Nat.find_spec steps
  refine ⟨_, (probe_eq_some power start).mpr ⟨Nat.find steps, first, rfl, stops, ?_⟩⟩
  intro i' hi'
  have goes := Nat.find_min steps hi'
  rw [not_and, Bool.not_eq_true] at goes
  exact goes (by omega)

end Probe

/-- Where a probe for the key begins. -/
def home (k : K) : Nat := mask cells.length (s.hash k)

section Change
variable {s cells} {j : Nat} {k : K} {c : C}

theorem ends_of_key (own : s.key c = some k) : s.ends c = false := by
  rw [← Bool.not_eq_true]
  intro ends
  rw [s.keyless ends] at own
  cases own

theorem cellAt_set (hj : j < cells.length) (i : Nat) :
    s.cellAt (cells.set j c) i = if i = j then c else s.cellAt cells i := by
  unfold cellAt
  split
  · rename_i same
    rw [same, List.getD_eq_getElem _ _ (by simpa using hj), List.getElem_set_self]
  · rename_i other
    rw [List.getD_eq_getElem?_getD, List.getElem?_set_ne (Ne.symm other),
      ← List.getD_eq_getElem?_getD]

/-- A cell that does not end a probe may be written anywhere. -/
theorem Reached.set {i : Nat} {k' : K} (reached : s.Reached cells k' i) (hj : j < cells.length)
    (goes : s.ends c = false) : s.Reached (cells.set j c) k' i := by
  obtain ⟨steps, bound, here, before⟩ := reached
  rw [Reached, List.length_set]
  refine ⟨steps, bound, here, ?_⟩
  intro i' hi'
  rw [cellAt_set hj]
  split
  · exact goes
  · exact before i' hi'

theorem Intact.put (intact : s.Intact cells) (hj : j < cells.length)
    (reached : s.Reached cells k j) (absent : ∀ c, ¬ s.Lies cells k c) (own : s.key c = some k) :
    s.Intact (cells.set j c) where
  power := by
    rw [List.length_set]
    exact intact.power
  reached i hi k' here := by
    rw [List.length_set] at hi
    rw [cellAt_set hj] at here
    split at here
    · rename_i same
      rw [own] at here
      obtain rfl := Option.some.inj here
      exact same ▸ reached.set hj (ends_of_key own)
    · exact (intact.reached i hi k' here).set hj (ends_of_key own)
  once i hi i' hi' k' here here' := by
    rw [List.length_set] at hi hi'
    rw [cellAt_set hj] at here here'
    split at here
    · rename_i same
      rw [own] at here
      obtain rfl := Option.some.inj here
      split at here'
      · rename_i same'
        exact same.trans same'.symm
      · exact absurd ⟨i', hi', rfl, here'⟩ (absent _)
    · split at here'
      · rw [own] at here'
        obtain rfl := Option.some.inj here'
        exact absurd ⟨i, hi, rfl, here⟩ (absent _)
      · exact intact.once i hi i' hi' k' here here'

theorem Intact.remove (intact : s.Intact cells) (hj : j < cells.length) (goes : s.ends c = false)
    (none : s.key c = .none) : s.Intact (cells.set j c) where
  power := by
    rw [List.length_set]
    exact intact.power
  reached i hi k' here := by
    rw [List.length_set] at hi
    rw [cellAt_set hj] at here
    split at here
    · rw [none] at here
      cases here
    · exact (intact.reached i hi k' here).set hj goes
  once i hi i' hi' k' here here' := by
    rw [List.length_set] at hi hi'
    rw [cellAt_set hj] at here here'
    split at here
    · rw [none] at here
      cases here
    · split at here'
      · rw [none] at here'
        cases here'
      · exact intact.once i hi i' hi' k' here here'

theorem lies_put (hj : j < cells.length) (free : s.key (s.cellAt cells j) = none)
    (own : s.key c = some k) {k' : K} {c' : C} :
    s.Lies (cells.set j c) k' c' ↔ (k' = k ∧ c' = c) ∨ s.Lies cells k' c' := by
  unfold Lies
  rw [List.length_set]
  constructor
  · rintro ⟨i, hi, here, holds⟩
    rw [cellAt_set hj] at here
    split at here
    · subst here
      rw [own] at holds
      exact .inl ⟨(Option.some.inj holds).symm, rfl⟩
    · exact .inr ⟨i, hi, here, holds⟩
  · rintro (⟨rfl, rfl⟩ | ⟨i, hi, here, holds⟩)
    · exact ⟨j, hj, by rw [cellAt_set hj, if_pos rfl], own⟩
    · refine ⟨i, hi, ?_, holds⟩
      rw [cellAt_set hj, if_neg]
      · exact here
      · rintro rfl
        rw [here, holds] at free
        cases free

theorem lies_remove (intact : s.Intact cells) (hj : j < cells.length)
    (own : s.key (s.cellAt cells j) = some k) (none : s.key c = .none) {k' : K} {c' : C} :
    s.Lies (cells.set j c) k' c' ↔ k' ≠ k ∧ s.Lies cells k' c' := by
  unfold Lies
  rw [List.length_set]
  constructor
  · rintro ⟨i, hi, here, holds⟩
    rw [cellAt_set hj] at here
    split at here
    · subst here
      rw [none] at holds
      cases holds
    · rename_i other
      refine ⟨?_, i, hi, here, holds⟩
      rintro rfl
      rw [← here] at holds
      exact other (intact.once i hi j hj _ holds own)
  · rintro ⟨other, i, hi, here, holds⟩
    refine ⟨i, hi, ?_, holds⟩
    rw [cellAt_set hj, if_neg]
    · exact here
    · rintro rfl
      rw [here, holds] at own
      exact other (Option.some.inj own)

end Change

section Keys
variable {s cells} {k : K} {c : C}

theorem mem_of_lies (lies : s.Lies cells k c) : c ∈ cells ∧ s.key c = some k := by
  obtain ⟨j, hj, rfl, own⟩ := lies
  refine ⟨?_, own⟩
  rw [cellAt, List.getD_eq_getElem _ _ hj]
  exact List.getElem_mem hj

theorem lies_iff : s.Lies cells k c ↔ c ∈ cells ∧ s.key c = some k := by
  constructor
  · exact mem_of_lies
  · rintro ⟨here, own⟩
    obtain ⟨j, hj, rfl⟩ := List.getElem_of_mem here
    exact ⟨j, hj, List.getD_eq_getElem _ _ hj, own⟩

theorem Intact.keys_nodup (intact : s.Intact cells) : (cells.filterMap s.key).Nodup := by
  rw [List.Nodup, List.pairwise_filterMap, List.pairwise_iff_getElem]
  intro j j' hj hj' before k own k' own' same
  subst same
  have first : s.cellAt cells j = cells[j] := List.getD_eq_getElem _ _ hj
  have second : s.cellAt cells j' = cells[j'] := List.getD_eq_getElem _ _ hj'
  have once := intact.once j hj j' hj' k (first ▸ own) (second ▸ own')
  omega

theorem Intact.card [DecidableEq K] (intact : s.Intact cells) {keys : Finset K}
    (all : ∀ k, k ∈ keys ↔ ∃ c, s.Lies cells k c) : (cells.filterMap s.key).length = keys.card := by
  rw [← List.toFinset_card_of_nodup intact.keys_nodup]
  congr 1
  ext k
  rw [List.mem_toFinset, List.mem_filterMap, all]
  simp only [lies_iff]

theorem exists_free (room : (cells.filterMap s.key).length < cells.length) :
    ∃ j < cells.length, s.key (s.cellAt cells j) = none := by
  obtain ⟨c, here, free⟩ := List.length_filterMap_lt_length_iff_exists.mp room
  obtain ⟨j, hj, rfl⟩ := List.getElem_of_mem here
  refine ⟨j, hj, ?_⟩
  rw [cellAt, List.getD_eq_getElem _ _ hj]
  exact free

end Keys

section Lookup

/-- A probe for a key ends at the key, or where every probe ends. -/
def seeks [DecidableEq K] (k : K) (c : C) : Bool := s.ends c || decide (s.key c = some k)

variable {s cells} {k : K} {c : C} {j : Nat} (intact : s.Intact cells)
include intact

theorem Intact.home_lt (k : K) : s.home cells k < cells.length := by
  rw [home, mask_eq intact.power]
  exact Nat.mod_lt _ intact.power.pos

theorem Intact.home_eq (k : K) : s.home cells k = place cells.length (s.hash k) 0 := by
  rw [home, mask_eq intact.power, place, Nat.add_zero]

theorem Intact.place_home (k : K) (i : Nat) :
    place cells.length (s.home cells k) i = place cells.length (s.hash k) i := by
  rw [home, mask_eq intact.power, place_mod]

variable [DecidableEq K]

theorem Intact.seek_lies (lies : s.Lies cells k c) :
    ∃ j < cells.length, s.seek cells (s.seeks k) (s.home cells k) = some j ∧
      s.cellAt cells j = c := by
  obtain ⟨j, hj, rfl, own⟩ := lies
  refine ⟨j, hj, ?_, rfl⟩
  obtain ⟨i, hi, rfl, before⟩ := intact.reached j hj k own
  rw [seek, probe_eq_some intact.power (intact.home_lt k)]
  simp only [intact.place_home]
  refine ⟨i, hi, rfl, by simp [seeks, own], ?_⟩
  intro i' hi'
  have other : s.key (s.cellAt cells (place cells.length (s.hash k) i')) ≠ some k := by
    intro again
    have same := intact.once _ (place_lt intact.power.pos) _ hj k again own
    have steps := place_inj (by omega) hi same
    omega
  simp [seeks, before i' hi', other]

/-- The probe for another key ends where that may be put. -/
theorem Intact.seek_absent (absent : ∀ c, ¬ s.Lies cells k c)
    (found : s.seek cells (s.seeks k) (s.home cells k) = some j) :
    j < cells.length ∧ s.ends (s.cellAt cells j) = true ∧ s.Reached cells k j := by
  obtain ⟨i, hi, rfl, stops, before⟩ := probe_first intact.power (intact.home_lt k) found
  have inside : place cells.length (s.home cells k) i < cells.length := place_lt intact.power.pos
  have other : s.key (s.cellAt cells (place cells.length (s.home cells k) i)) ≠ some k :=
    fun own => absent _ ⟨_, inside, rfl, own⟩
  refine ⟨inside, by simpa [seeks, other] using stops, i, hi, (intact.place_home k i).symm, ?_⟩
  intro i' hi'
  have goes := before i' hi'
  rw [seeks, Bool.or_eq_false_iff, intact.place_home] at goes
  exact goes.1

end Lookup

section Rebuild

def reinsert (r : List C × Nat) (c : C) : Option (List C × Nat) :=
  match s.key c with
  | none => some r
  | some k =>
    (s.seek r.1 (fun c => (s.key c).isNone) (s.home r.1 k)).map (fun j => (r.1.set j c, r.2 + 1))

/-- A fresh table with the keys of an old one, which are counted from `size` on. -/
def rebuild (old : List C) (capacity size : Nat) : Option (List C × Nat) :=
  old.foldlM s.reinsert (List.replicate capacity s.vacant, size)

variable {s cells} {k : K} {c : C}

theorem Intact.reinsert (intact : s.Intact cells) (size : Nat)
    (own : s.key c = some k) (absent : ∀ c, ¬ s.Lies cells k c)
    (free : ∃ j < cells.length, s.key (s.cellAt cells j) = none) :
    ∃ cells', s.reinsert (cells, size) c = some (cells', size + 1) ∧ s.Intact cells' ∧
      cells'.length = cells.length ∧
      ∀ k' c', s.Lies cells' k' c' ↔ (k' = k ∧ c' = c) ∨ s.Lies cells k' c' := by
  obtain ⟨j, found⟩ : ∃ j, s.seek cells (fun c => (s.key c).isNone) (s.home cells k) = some j :=
    seek_isSome intact.power (intact.home_lt k) (by simpa using free)
  obtain ⟨i, hi, here, empty, before⟩ := probe_first intact.power (intact.home_lt k) found
  have hj : j < cells.length := here ▸ place_lt intact.power.pos
  have none : s.key (s.cellAt cells j) = none := Option.isNone_iff_eq_none.mp empty
  have reached : s.Reached cells k j := by
    refine ⟨i, hi, (intact.place_home k i).symm.trans here, ?_⟩
    intro i' hi'
    have taken := before i' hi'
    rw [Option.isNone_eq_false_iff, Option.isSome_iff_exists, intact.place_home] at taken
    obtain ⟨k', own'⟩ := taken
    exact ends_of_key own'
  refine ⟨cells.set j c, ?_, intact.put hj reached absent own, List.length_set, ?_⟩
  · simp only [Scheme.reinsert, own, found, Option.map_some]
  · exact fun k' c' => lies_put hj none own

theorem cellAt_replicate (capacity j : Nat) :
    s.cellAt (List.replicate capacity s.vacant) j = s.vacant := by
  unfold cellAt
  rw [List.getD_eq_getElem?_getD, List.getElem?_replicate]
  split
  · rfl
  · rfl

theorem key_vacant : s.key s.vacant = none := s.keyless s.vacant_ends

theorem not_lies_replicate (capacity : Nat) :
    ¬ s.Lies (List.replicate capacity s.vacant) k c := by
  rintro ⟨j, _, rfl, own⟩
  rw [cellAt_replicate, key_vacant] at own
  cases own

theorem intact_replicate {capacity : Nat} (power : Power capacity) :
    s.Intact (List.replicate capacity s.vacant) where
  power := by
    rw [List.length_replicate]
    exact power
  reached j _ k own := by
    rw [cellAt_replicate, key_vacant] at own
    cases own
  once j _ j' _ k own := by
    rw [cellAt_replicate, key_vacant] at own
    cases own

variable [DecidableEq K]

theorem Intact.count_succ {cells' : List C} (intact : s.Intact cells) (intact' : s.Intact cells')
    (absent : ∀ c, ¬ s.Lies cells k c)
    (lies : ∀ k' c', s.Lies cells' k' c' ↔ (k' = k ∧ c' = c) ∨ s.Lies cells k' c') :
    (cells'.filterMap s.key).length = (cells.filterMap s.key).length + 1 := by
  have mem : ∀ k', k' ∈ (cells.filterMap s.key).toFinset ↔ ∃ c', s.Lies cells k' c' := by
    intro k'
    rw [List.mem_toFinset, List.mem_filterMap]
    simp only [lies_iff]
  have keys : ∀ k', k' ∈ insert k (cells.filterMap s.key).toFinset ↔
      ∃ c', s.Lies cells' k' c' := by
    intro k'
    rw [Finset.mem_insert, mem]
    simp only [lies]
    constructor
    · rintro (same | ⟨c', old⟩)
      · exact ⟨c, .inl ⟨same, rfl⟩⟩
      · exact ⟨c', .inr old⟩
    · rintro ⟨c', ⟨same, _⟩ | old⟩
      · exact .inl same
      · exact .inr ⟨c', old⟩
  have new : k ∉ (cells.filterMap s.key).toFinset := by
    rw [mem]
    rintro ⟨c', old⟩
    exact absent c' old
  rw [intact'.card keys, Finset.card_insert_of_notMem new,
    List.toFinset_card_of_nodup intact.keys_nodup]

theorem Intact.refill (intact : s.Intact cells) (size : Nat) {old : List C}
    (distinct : (old.filterMap s.key).Nodup)
    (absent : ∀ k ∈ old.filterMap s.key, ∀ c, ¬ s.Lies cells k c)
    (room : (cells.filterMap s.key).length + (old.filterMap s.key).length < cells.length) :
    ∃ cells', old.foldlM s.reinsert (cells, size) =
        some (cells', size + (old.filterMap s.key).length) ∧
      s.Intact cells' ∧ cells'.length = cells.length ∧
      ∀ k c, s.Lies cells' k c ↔ (c ∈ old ∧ s.key c = some k) ∨ s.Lies cells k c := by
  induction old generalizing cells size with
  | nil => exact ⟨cells, rfl, intact, rfl, fun k c => by simp⟩
  | cons first old ih =>
    cases own : s.key first with
    | none =>
      rw [List.filterMap_cons_none own] at distinct absent room ⊢
      obtain ⟨cells', done, intact', length, lies⟩ := ih intact size distinct absent room
      refine ⟨cells', ?_, intact', length, ?_⟩
      · rw [List.foldlM_cons, Scheme.reinsert, own]
        exact done
      · intro k c
        rw [lies, List.mem_cons]
        constructor
        · rintro (⟨here, key⟩ | old)
          · exact .inl ⟨.inr here, key⟩
          · exact .inr old
        · rintro (⟨rfl | here, key⟩ | old)
          · rw [own] at key
            cases key
          · exact .inl ⟨here, key⟩
          · exact .inr old
    | some k =>
      rw [List.filterMap_cons_some own] at distinct absent room ⊢
      rw [List.length_cons] at room ⊢
      obtain ⟨apart, distinct⟩ := List.nodup_cons.mp distinct
      have new := absent k List.mem_cons_self
      obtain ⟨next, put, intact', length, lies⟩ :=
        intact.reinsert size own new (exists_free (by omega))
      have count := intact.count_succ intact' new lies
      have absent' : ∀ k' ∈ old.filterMap s.key, ∀ c, ¬ s.Lies next k' c := by
        intro k' later c
        rw [lies]
        rintro (⟨rfl, _⟩ | old)
        · exact apart later
        · exact absent k' (List.mem_cons_of_mem _ later) c old
      obtain ⟨cells', done, intact'', length', lies'⟩ :=
        ih intact' (size + 1) distinct absent' (by omega)
      refine ⟨cells', ?_, intact'', length'.trans length, ?_⟩
      · have total : size + ((old.filterMap s.key).length + 1) =
            size + 1 + (old.filterMap s.key).length := by omega
        rw [List.foldlM_cons, put, total]
        exact done
      · intro k' c
        rw [lies', lies, List.mem_cons]
        constructor
        · rintro (⟨here, key⟩ | ⟨rfl, rfl⟩ | old)
          · exact .inl ⟨.inr here, key⟩
          · exact .inl ⟨.inl rfl, own⟩
          · exact .inr old
        · rintro (⟨rfl | here, key⟩ | old)
          · rw [own] at key
            exact .inr (.inl ⟨(Option.some.inj key).symm, rfl⟩)
          · exact .inl ⟨here, key⟩
          · exact .inr (.inr old)

/-- The fresh table holds the same keys, in the same cells. -/
theorem rebuild_intact {old : List C} {capacity : Nat} (power : Power capacity) (size : Nat)
    (distinct : (old.filterMap s.key).Nodup)
    (room : (old.filterMap s.key).length < capacity) :
    ∃ cells, s.rebuild old capacity size =
        some (cells, size + (old.filterMap s.key).length) ∧
      s.Intact cells ∧ cells.length = capacity ∧
      ∀ k c, s.Lies cells k c ↔ s.Lies old k c := by
  have empty : (List.replicate capacity s.vacant).filterMap s.key = [] := by
    rw [List.filterMap_replicate, key_vacant]
  have length : (List.replicate capacity s.vacant).length = capacity := List.length_replicate
  obtain ⟨cells, done, intact, same, lies⟩ := (intact_replicate power).refill size
    distinct (fun _ _ _ => not_lies_replicate capacity)
    (by rw [empty, length, List.length_nil, Nat.zero_add]; exact room)
  refine ⟨cells, done, intact, same.trans length, ?_⟩
  intro k c
  rw [lies, or_iff_left (not_lies_replicate capacity), ← lies_iff]

end Rebuild

end Scheme
end Lib.OpenAddressing
