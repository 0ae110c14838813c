import Mathlib.Data.Finmap
import Asterion.Core.Types
import Asterion.Lib.OpenAddressing

/-! The order index of the pooled book: a hash table with open addressing from order id to node index,
in which an erased entry leaves a mark. Sizes are those a vector can hold, where no product
overflows. -/
namespace Asterion
open Lib Lib.OpenAddressing

inductive SlotState where
  | empty | occupied | deleted
  deriving DecidableEq, Repr

/-- `kNoIndex`, the largest index. -/
def noIndex : Nat := 2 ^ 64 - 1

structure FlatOrderIndex.Entry where
  orderId : Nat := invalidOrderId
  nodeIndex : Nat := noIndex
  state : SlotState := .empty
  deriving DecidableEq, Repr

structure FlatOrderIndex where
  entries : List FlatOrderIndex.Entry := []
  size : Nat := 0
  deriving DecidableEq, Repr

namespace FlatOrderIndex

/-- An empty entry ends a probe, an occupied one holds its order id. -/
def scheme : Scheme Entry Nat where
  vacant := {}
  ends entry := entry.state == .empty
  key entry := if entry.state = .occupied then some entry.orderId else none
  hash orderId := (mix64 (.ofNat orderId)).toNat
  vacant_ends := rfl
  keyless ends := if_neg (fun occupied => by rw [occupied] at ends; cases ends)

def clear (t : FlatOrderIndex) : FlatOrderIndex :=
  { entries := t.entries.map (fun _ => {}), size := 0 }

def nextCapacity (expectedSize : Nat) : Nat :=
  let target := max 8 (expectedSize * 4)
  doubleTo target target 8

/-- Without a result if a loop over the entries goes round for ever. -/
def rehash (t : FlatOrderIndex) (capacity : Nat) : Option FlatOrderIndex :=
  (scheme.rebuild t.entries capacity 0).map (fun rebuilt => ⟨rebuilt.1, rebuilt.2⟩)

def reserve (t : FlatOrderIndex) (expectedSize : Nat) : Option FlatOrderIndex :=
  let requiredCapacity := nextCapacity expectedSize
  if t.entries.length ≥ requiredCapacity then some t else t.rehash requiredCapacity

/-- How the loop of `insert` ends: at the order id, at an empty entry with the index to write to, or
after all probes, with the first deleted entry. -/
inductive Probed where
  | duplicate
  | target (index : Nat)
  | exhausted (firstDeleted : Option Nat)
  deriving DecidableEq, Repr

def insertLoop (t : FlatOrderIndex) (orderId : Nat) : Nat → Option Nat → Nat → Probed
  | 0, firstDeleted, _ => .exhausted firstDeleted
  | probes + 1, firstDeleted, index =>
    let entry := scheme.cellAt t.entries index
    let next := mask t.entries.length (index + 1)
    match entry.state with
    | .occupied =>
      if entry.orderId = orderId then .duplicate else insertLoop t orderId probes firstDeleted next
    | .deleted => insertLoop t orderId probes (firstDeleted.or (some index)) next
    | .empty => .target (firstDeleted.getD index)

def write (t : FlatOrderIndex) (index orderId nodeIndex : Nat) : FlatOrderIndex :=
  { entries := t.entries.set index ⟨orderId, nodeIndex, .occupied⟩, size := t.size + 1 }

/-- The body of `insert`; `again` is its call of itself on a table without a free entry. -/
def insertOnce (again : FlatOrderIndex → Option (FlatOrderIndex × Bool)) (t : FlatOrderIndex)
    (orderId nodeIndex : Nat) : Option (FlatOrderIndex × Bool) :=
  if orderId = invalidOrderId then some (t, false)
  else
    let grown :=
      if t.entries.isEmpty ∨ (t.size + 1) * 2 > t.entries.length then
        t.rehash (nextCapacity (t.size + 1))
      else some t
    grown.bind (fun t =>
      match t.insertLoop orderId t.entries.length none (scheme.home t.entries orderId) with
      | .duplicate => some (t, false)
      | .target index => some (t.write index orderId nodeIndex, true)
      | .exhausted (some index) => some (t.write index orderId nodeIndex, true)
      | .exhausted none => (t.rehash (t.entries.length * 2)).bind again)

def insertWith (orderId nodeIndex : Nat) : Nat → FlatOrderIndex → Option (FlatOrderIndex × Bool)
  | 0, t => insertOnce (fun _ => none) t orderId nodeIndex
  | calls + 1, t => insertOnce (insertWith orderId nodeIndex calls) t orderId nodeIndex

def insert (t : FlatOrderIndex) (orderId nodeIndex : Nat) : Option (FlatOrderIndex × Bool) :=
  insertWith orderId nodeIndex 1 t

/-- The index at which the loop of `find` and of `erase` returns. -/
def seek (t : FlatOrderIndex) (orderId : Nat) : Option Nat :=
  if t.entries.isEmpty ∨ orderId = invalidOrderId then none
  else scheme.seek t.entries (scheme.seeks orderId) (scheme.home t.entries orderId)

def find (t : FlatOrderIndex) (orderId : Nat) : Option Nat :=
  match t.seek orderId with
  | none => none
  | some index =>
    let entry := scheme.cellAt t.entries index
    if entry.state = .empty then none else some entry.nodeIndex

def erase (t : FlatOrderIndex) (orderId : Nat) : FlatOrderIndex × Bool :=
  match t.seek orderId with
  | none => (t, false)
  | some index =>
    if (scheme.cellAt t.entries index).state = .empty then (t, false)
    else
      ({ entries := t.entries.set index ⟨invalidOrderId, noIndex, .deleted⟩, size := t.size - 1 },
        true)

inductive Call where
  | insert (orderId nodeIndex : Nat)
  | erase (orderId : Nat)
  | find (orderId : Nat)
  | clear
  | reserve (expectedSize : Nat)
  deriving DecidableEq, Repr

/-- What a call returns. -/
inductive Answer where
  | done
  | succeeds (done : Bool)
  | found (nodeIndex : Option Nat)
  deriving DecidableEq, Repr

def serve (t : FlatOrderIndex) : Call → Option (FlatOrderIndex × Answer)
  | .insert orderId nodeIndex =>
    (t.insert orderId nodeIndex).map (fun inserted => (inserted.1, .succeeds inserted.2))
  | .erase orderId => some ((t.erase orderId).1, .succeeds (t.erase orderId).2)
  | .find orderId => some (t, .found (t.find orderId))
  | .clear => some (t.clear, .done)
  | .reserve expectedSize => (t.reserve expectedSize).map (fun t => (t, .done))

def run (t : FlatOrderIndex) : List Call → Option (FlatOrderIndex × List Answer)
  | [] => some (t, [])
  | call :: calls =>
    (t.serve call).bind (fun served =>
      (served.1.run calls).map (fun rest => (rest.1, served.2 :: rest.2)))

end FlatOrderIndex

/-- What the index is for: a finite map from order ids other than zero to node indices. -/
abbrev NodeMap := Finmap (fun _ : Nat => Nat)

namespace NodeMap

def serve (m : NodeMap) : FlatOrderIndex.Call → NodeMap × FlatOrderIndex.Answer
  | .insert orderId nodeIndex =>
    if orderId = invalidOrderId ∨ orderId ∈ m then (m, .succeeds false)
    else (m.insert orderId nodeIndex, .succeeds true)
  | .erase orderId =>
    if orderId ∈ m then (m.erase orderId, .succeeds true) else (m, .succeeds false)
  | .find orderId => (m, .found (m.lookup orderId))
  | .clear => (∅, .done)
  | .reserve _ => (m, .done)

def run (m : NodeMap) : List FlatOrderIndex.Call → NodeMap × List FlatOrderIndex.Answer
  | [] => (m, [])
  | call :: calls =>
    let served := serve m call
    let rest := run served.1 calls
    (rest.1, served.2 :: rest.2)

end NodeMap

namespace FlatOrderIndex

def occupied (orderId nodeIndex : Nat) : Entry := ⟨orderId, nodeIndex, .occupied⟩

/-- The table holds the map, and at most half of its entries are occupied. -/
structure Represents (t : FlatOrderIndex) (m : NodeMap) : Prop where
  table : t.entries = [] ∨ scheme.Intact t.entries
  lies : ∀ id entry, scheme.Lies t.entries id entry ↔
    ∃ node, m.lookup id = some node ∧ entry = occupied id node
  proper : invalidOrderId ∉ m
  size : t.size = m.keys.card
  load : t.size * 2 ≤ t.entries.length

theorem nextCapacity_power (expectedSize : Nat) : Power (nextCapacity expectedSize) :=
  doubleTo_power ⟨3, rfl⟩

theorem le_nextCapacity (expectedSize : Nat) : expectedSize * 4 ≤ nextCapacity expectedSize := by
  have reached : max 8 (expectedSize * 4) ≤ nextCapacity expectedSize :=
    le_doubleTo (by omega) (by omega)
  omega

theorem key_eq_some {entry : Entry} {id : Nat} :
    scheme.key entry = some id ↔ entry.state = .occupied ∧ entry.orderId = id := by
  change (if entry.state = .occupied then some entry.orderId else none) = some id ↔ _
  split
  · rename_i held
    rw [Option.some.injEq, and_iff_right held]
  · rename_i free
    exact ⟨fun h => (by cases h), fun h => absurd h.1 free⟩

theorem key_occupied (id node : Nat) : scheme.key (occupied id node) = some id := rfl

theorem new_represents : Represents {} ∅ where
  table := .inl rfl
  lies id entry := by simp [Scheme.Lies]
  proper := Finmap.notMem_empty
  size := rfl
  load := by simp

section Represented
variable {t : FlatOrderIndex} {m : NodeMap} (r : Represents t m)
include r

theorem Represents.keys (id : Nat) : id ∈ m.keys ↔ ∃ entry, scheme.Lies t.entries id entry := by
  simp only [r.lies, Finmap.mem_keys]
  constructor
  · intro known
    obtain ⟨node, lookup⟩ := Finmap.mem_iff.mp known
    exact ⟨_, node, lookup, rfl⟩
  · rintro ⟨_, node, lookup, _⟩
    exact Finmap.mem_iff.mpr ⟨node, lookup⟩

theorem Represents.taken : (t.entries.filterMap scheme.key).length = t.size := by
  rcases r.table with none | intact
  · have load := r.load
    rw [none, List.length_nil] at load
    rw [none, List.filterMap_nil, List.length_nil]
    omega
  · exact (intact.card r.keys).trans r.size.symm

theorem Represents.distinct : (t.entries.filterMap scheme.key).Nodup := by
  rcases r.table with none | intact
  · rw [none]
    exact List.nodup_nil
  · exact intact.keys_nodup

theorem Represents.rehash {capacity : Nat} (power : Power capacity)
    (room : t.size * 2 ≤ capacity) :
    ∃ t', t.rehash capacity = some t' ∧ Represents t' m ∧ t'.entries.length = capacity := by
  have pos := power.pos
  obtain ⟨entries, done, intact, length, lies⟩ :=
    Scheme.rebuild_intact power 0 r.distinct (by rw [r.taken]; omega)
  refine ⟨⟨entries, t.size⟩, ?_, ?_, length⟩
  · rw [FlatOrderIndex.rehash, done, r.taken, Nat.zero_add]
    rfl
  · exact ⟨.inr intact, fun id entry => (lies id entry).trans (r.lies id entry), r.proper, r.size,
      length.symm ▸ room⟩

theorem Represents.clear : Represents t.clear ∅ := by
  have vacant : t.clear.entries = List.replicate t.entries.length scheme.vacant :=
    List.map_const' ..
  refine ⟨?_, ?_, Finmap.notMem_empty, rfl, Nat.zero_le _⟩
  · rw [vacant]
    rcases r.table with none | intact
    · rw [none]
      exact .inl rfl
    · exact .inr (Scheme.intact_replicate intact.power)
  · intro id entry
    rw [vacant, iff_false_left (Scheme.not_lies_replicate _)]
    rintro ⟨node, lookup, _⟩
    rw [Finmap.lookup_empty] at lookup
    cases lookup

/-- The loop of `find` and of `erase` returns at the entry of the order id, or it finds none. -/
theorem Represents.seek (id : Nat) :
    (∃ node index, m.lookup id = some node ∧ scheme.Intact t.entries ∧ index < t.entries.length ∧
      t.seek id = some index ∧ scheme.cellAt t.entries index = occupied id node) ∨
    (m.lookup id = none ∧
      ∀ index, t.seek id = some index → (scheme.cellAt t.entries index).state = .empty) := by
  unfold FlatOrderIndex.seek
  cases lookup : m.lookup id with
  | some node =>
    left
    have lies := (r.lies id (occupied id node)).mpr ⟨node, lookup, rfl⟩
    have proper : id ≠ invalidOrderId := by
      rintro rfl
      exact r.proper (Finmap.mem_iff.mpr ⟨node, lookup⟩)
    have some : t.entries ≠ [] := by
      rintro none
      obtain ⟨j, hj, _⟩ := lies
      rw [none] at hj
      exact absurd hj (Nat.not_lt_zero j)
    have intact := r.table.resolve_left some
    obtain ⟨index, hi, found, here⟩ := intact.seek_lies lies
    rw [if_neg (by rw [List.isEmpty_iff]; exact fun either => either.elim some proper)]
    exact ⟨node, index, rfl, intact, hi, found, here⟩
  | none =>
    right
    refine ⟨rfl, fun index found => ?_⟩
    split at found
    · cases found
    · rename_i searched
      rw [not_or, List.isEmpty_iff] at searched
      have intact := r.table.resolve_left searched.1
      have absent : ∀ entry, ¬ scheme.Lies t.entries id entry := by
        intro entry lies
        obtain ⟨node, known, _⟩ := (r.lies id entry).mp lies
        rw [lookup] at known
        cases known
      exact beq_iff_eq.mp (intact.seek_absent absent found).2.1

theorem Represents.find (id : Nat) : t.find id = m.lookup id := by
  unfold FlatOrderIndex.find
  rcases r.seek id with ⟨node, index, lookup, _, _, found, here⟩ | ⟨lookup, misses⟩
  · rw [found, lookup]
    dsimp only
    rw [here]
    rfl
  · rw [lookup]
    cases found : t.seek id with
    | none => rfl
    | some index => exact if_pos (misses index found)

theorem Represents.erase (id : Nat) :
    Represents (t.erase id).1 (if id ∈ m then m.erase id else m) ∧
      ((t.erase id).2 = true ↔ id ∈ m) := by
  unfold FlatOrderIndex.erase
  rcases r.seek id with ⟨node, index, lookup, intact, hi, found, here⟩ | ⟨lookup, misses⟩
  · have known : id ∈ m := Finmap.mem_iff.mpr ⟨node, lookup⟩
    have own : scheme.key (scheme.cellAt t.entries index) = some id := by
      rw [here]
      exact key_occupied id node
    have mark : scheme.key ⟨invalidOrderId, noIndex, .deleted⟩ = none := rfl
    rw [found, if_pos known]
    dsimp only
    have held : ¬ (occupied id node).state = .empty := fun h => by cases h
    rw [here, if_neg held]
    refine ⟨⟨.inr (intact.remove hi rfl mark), ?_, ?_, ?_, ?_⟩, iff_of_true rfl known⟩
    · intro id' entry
      rw [Scheme.lies_remove intact hi own mark, r.lies]
      by_cases same : id' = id
      · rw [same, Finmap.lookup_erase]
        simp
      · simp [same, Finmap.lookup_erase_ne same]
    · rw [Finmap.mem_erase]
      exact fun h => r.proper h.2
    · rw [Finmap.keys_erase, Finset.card_erase_of_mem (Finmap.mem_keys.mpr known), ← r.size]
    · have load := r.load
      rw [List.length_set]
      dsimp only
      omega
  · have unknown : id ∉ m := Finmap.lookup_eq_none.mp lookup
    rw [if_neg unknown]
    cases found : t.seek id with
    | none => exact ⟨r, iff_of_false Bool.false_ne_true unknown⟩
    | some index =>
      dsimp only
      rw [if_pos (misses index found)]
      exact ⟨r, iff_of_false Bool.false_ne_true unknown⟩

end Represented

section Loop
variable {t : FlatOrderIndex} {id : Nat}

/-- What the loop of `insert` has seen after some probes, and the first deleted entry of these. -/
structure Walked (t : FlatOrderIndex) (id probes : Nat) (firstDeleted : Option Nat) : Prop where
  none : ∀ i < probes, ∀ entry, scheme.cellAt t.entries
    (OpenAddressing.place t.entries.length (scheme.hash id) i) = entry →
    entry.state ≠ .empty ∧ scheme.key entry ≠ some id
  all : firstDeleted = .none → ∀ i < probes, (scheme.cellAt t.entries
    (OpenAddressing.place t.entries.length (scheme.hash id) i)).state = .occupied
  deleted : ∀ index, firstDeleted = some index → ∃ i < probes,
    OpenAddressing.place t.entries.length (scheme.hash id) i = index ∧
      (scheme.cellAt t.entries index).state = .deleted

def Free (t : FlatOrderIndex) (id index : Nat) : Prop :=
  index < t.entries.length ∧ scheme.key (scheme.cellAt t.entries index) = none ∧
    scheme.Reached t.entries id index

def Tells (t : FlatOrderIndex) (id : Nat) : Probed → Prop
  | .duplicate => ∃ entry, scheme.Lies t.entries id entry
  | .target index => (∀ entry, ¬ scheme.Lies t.entries id entry) ∧ Free t id index
  | .exhausted (some index) => (∀ entry, ¬ scheme.Lies t.entries id entry) ∧ Free t id index
  | .exhausted none => ∀ j < t.entries.length, (scheme.cellAt t.entries j).state = .occupied

variable (intact : scheme.Intact t.entries) {probes : Nat} {firstDeleted : Option Nat}
  (walked : Walked t id probes firstDeleted)
include intact walked

theorem Walked.free {index : Nat} (first : firstDeleted = some index)
    (within : probes ≤ t.entries.length) : Free t id index := by
  obtain ⟨i, hi, rfl, deleted⟩ := walked.deleted index first
  refine ⟨place_lt intact.power.pos, ?_, i, by omega, rfl, ?_⟩
  · exact if_neg (fun held => by rw [held] at deleted; cases deleted)
  · intro i' hi'
    exact beq_false_of_ne (walked.none i' (by omega) _ rfl).1

/-- An empty entry behind the probes ends the search for the order id. -/
theorem Walked.absent_empty (within : probes < t.entries.length)
    (empty : (scheme.cellAt t.entries
      (OpenAddressing.place t.entries.length (scheme.hash id) probes)).state = .empty)
    (entry : Entry) : ¬ scheme.Lies t.entries id entry := by
  rintro ⟨j, hj, rfl, own⟩
  obtain ⟨i, hi, rfl, before⟩ := intact.reached j hj id own
  rcases lt_trichotomy i probes with early | rfl | late
  · exact (walked.none i early _ rfl).2 own
  · rw [key_eq_some, empty] at own
    cases own.1
  · have goes := before probes late
    exact absurd (beq_iff_eq.mpr empty) (Bool.eq_false_iff.mp goes)

theorem Walked.free_empty (within : probes < t.entries.length)
    (empty : (scheme.cellAt t.entries
      (OpenAddressing.place t.entries.length (scheme.hash id) probes)).state = .empty) :
    Free t id (OpenAddressing.place t.entries.length (scheme.hash id) probes) := by
  refine ⟨place_lt intact.power.pos, ?_, probes, within, rfl, ?_⟩
  · exact if_neg (fun held => by rw [held] at empty; cases empty)
  · intro i hi
    exact beq_false_of_ne (walked.none i hi _ rfl).1

omit intact in
theorem Walked.absent_all (round : probes = t.entries.length) (entry : Entry) :
    ¬ scheme.Lies t.entries id entry := by
  rintro ⟨j, hj, rfl, own⟩
  obtain ⟨i, hi, rfl⟩ := exists_place (h := scheme.hash id) hj
  exact (walked.none i (by omega) _ rfl).2 own

omit intact in
/-- One more probe, at an entry that is neither empty nor that of the order id. -/
theorem Walked.next {entry : Entry} {firstDeleted' : Option Nat}
    (here : scheme.cellAt t.entries
      (OpenAddressing.place t.entries.length (scheme.hash id) probes) = entry)
    (full : entry.state ≠ .empty) (other : scheme.key entry ≠ some id)
    (all : firstDeleted' = .none → firstDeleted = .none ∧ entry.state = .occupied)
    (deleted : ∀ index, firstDeleted' = some index → firstDeleted = some index ∨
      OpenAddressing.place t.entries.length (scheme.hash id) probes = index ∧
        entry.state = .deleted) : Walked t id (probes + 1) firstDeleted' where
  none i hi := by
    rcases Nat.lt_succ_iff_lt_or_eq.mp hi with before | rfl
    · exact walked.none i before
    · rintro _ rfl
      rw [here]
      exact ⟨full, other⟩
  all none i hi := by
    obtain ⟨before, occupied⟩ := all none
    rcases Nat.lt_succ_iff_lt_or_eq.mp hi with early | rfl
    · exact walked.all before i early
    · rw [here]
      exact occupied
  deleted index first := by
    rcases deleted index first with before | ⟨rfl, mark⟩
    · obtain ⟨i, hi, rest⟩ := walked.deleted index before
      exact ⟨i, by omega, rest⟩
    · exact ⟨probes, by omega, rfl, here ▸ mark⟩

theorem insertLoop_tells {left : Nat} (round : probes + left = t.entries.length) :
    Tells t id (t.insertLoop id left firstDeleted
      (OpenAddressing.place t.entries.length (scheme.hash id) probes)) := by
  induction left generalizing probes firstDeleted with
  | zero =>
    rw [insertLoop]
    cases first : firstDeleted with
    | some index =>
      exact ⟨walked.absent_all round, walked.free intact first (by omega)⟩
    | none =>
      intro j hj
      obtain ⟨i, hi, rfl⟩ := exists_place (h := scheme.hash id) hj
      exact walked.all first i (by omega)
  | succ left ih =>
    have next : mask t.entries.length
        (OpenAddressing.place t.entries.length (scheme.hash id) probes + 1) =
        OpenAddressing.place t.entries.length (scheme.hash id) (probes + 1) := by
      rw [mask_eq intact.power, OpenAddressing.place, OpenAddressing.place, Nat.mod_add_mod,
        Nat.add_assoc]
    obtain ⟨entry, here⟩ : ∃ entry, scheme.cellAt t.entries
        (OpenAddressing.place t.entries.length (scheme.hash id) probes) = entry := ⟨_, rfl⟩
    rw [insertLoop, here, next]
    cases state : entry.state with
    | empty =>
      rw [← here] at state
      have absent := walked.absent_empty intact (by omega) state
      dsimp only
      cases first : firstDeleted with
      | some index => exact ⟨absent, walked.free intact first (by omega)⟩
      | none =>
        rw [Option.getD_none]
        exact ⟨absent, walked.free_empty intact (by omega) state⟩
    | occupied =>
      dsimp only
      split
      · rename_i same
        exact ⟨entry, _, place_lt intact.power.pos, here, key_eq_some.mpr ⟨state, same⟩⟩
      · rename_i other
        apply ih _ (by omega)
        apply walked.next here
        · rw [state]
          decide
        · exact fun own => other (key_eq_some.mp own).2
        · exact fun none => ⟨none, state⟩
        · exact fun index first => .inl first
    | deleted =>
      apply ih _ (by omega)
      apply walked.next here
      · rw [state]
        decide
      · intro own
        rw [(key_eq_some.mp own).1] at state
        cases state
      · cases firstDeleted with
        | none => exact fun h => by cases h
        | some index => exact fun h => by cases h
      · intro index first
        cases firstDeleted with
        | none => exact .inr ⟨Option.some.inj first, state⟩
        | some before => exact .inl first

end Loop

section Represented
variable {t : FlatOrderIndex} {m : NodeMap} (r : Represents t m)
include r

/-- The map with the order id, where that is neither zero nor known. -/
theorem Represents.write (intact : scheme.Intact t.entries) {id index : Nat} (node : Nat)
    (proper : id ≠ invalidOrderId) (absent : ∀ entry, ¬ scheme.Lies t.entries id entry)
    (free : Free t id index) (room : (t.size + 1) * 2 ≤ t.entries.length) :
    id ∉ m ∧ Represents (t.write index id node) (m.insert id node) := by
  obtain ⟨hi, none, reached⟩ := free
  have unknown : id ∉ m := by
    rw [← Finmap.mem_keys, r.keys]
    exact fun ⟨entry, lies⟩ => absent entry lies
  have own := key_occupied id node
  refine ⟨unknown, .inr (intact.put hi reached absent own), ?_, ?_, ?_, ?_⟩
  · intro id' entry
    change scheme.Lies (t.entries.set index (occupied id node)) id' entry ↔ _
    rw [Scheme.lies_put hi none own, r.lies]
    by_cases same : id' = id
    · have before := Finmap.lookup_eq_none.mpr unknown
      subst same
      rw [before, Finmap.lookup_insert]
      simp [occupied]
    · rw [Finmap.lookup_insert_of_ne m same]
      simp [same]
  · rw [Finmap.mem_insert]
    exact fun either => either.elim (Ne.symm proper) r.proper
  · have keys : (m.insert id node).keys = Insert.insert id m.keys := by
      ext id'
      rw [Finmap.mem_keys, Finmap.mem_insert, Finset.mem_insert, Finmap.mem_keys]
    rw [keys, Finset.card_insert_of_notMem (by rwa [Finmap.mem_keys]), FlatOrderIndex.write, r.size]
  · rw [FlatOrderIndex.write, List.length_set]
    exact room

theorem Represents.insert (id node : Nat) :
    ∃ t', t.insert id node = some (t', !decide (id = invalidOrderId ∨ id ∈ m)) ∧
      Represents t' (if id = invalidOrderId ∨ id ∈ m then m else m.insert id node) := by
  unfold FlatOrderIndex.insert insertWith insertOnce
  by_cases improper : id = invalidOrderId
  · simp only [improper, true_or, if_true]
    exact ⟨t, rfl, r⟩
  rw [if_neg improper]
  obtain ⟨t', grown, r', some, room⟩ : ∃ t',
      (if t.entries.isEmpty ∨ (t.size + 1) * 2 > t.entries.length then
        t.rehash (nextCapacity (t.size + 1)) else some t) = some t' ∧ Represents t' m ∧
      t'.entries ≠ [] ∧ (t'.size + 1) * 2 ≤ t'.entries.length := by
    split
    · have grows := le_nextCapacity (t.size + 1)
      obtain ⟨t', done, r', length⟩ := r.rehash (nextCapacity_power (t.size + 1)) (by omega)
      have size := r'.size.trans r.size.symm
      have pos := (nextCapacity_power (t.size + 1)).pos
      refine ⟨t', done, r', ?_, by omega⟩
      rw [← List.length_pos_iff]
      omega
    · rename_i half
      rw [not_or, List.isEmpty_iff] at half
      exact ⟨t, rfl, r, half.1, by omega⟩
  have intact := r'.table.resolve_left some
  have start : Walked t' id 0 none :=
    ⟨fun i hi => absurd hi (Nat.not_lt_zero i), fun _ i hi => absurd hi (Nat.not_lt_zero i),
      fun _ h => by cases h⟩
  have told := insertLoop_tells intact start (Nat.zero_add _)
  rw [grown, Option.bind_some, intact.home_eq]
  dsimp only
  revert told
  cases t'.insertLoop id t'.entries.length none
      (OpenAddressing.place t'.entries.length (scheme.hash id) 0) with
  | duplicate =>
    rintro ⟨entry, lies⟩
    have known : id ∈ m := Finmap.mem_keys.mp ((r'.keys id).mpr ⟨entry, lies⟩)
    rw [if_pos (Or.inr known), decide_eq_true (Or.inr known)]
    exact ⟨t', rfl, r'⟩
  | target index =>
    rintro ⟨absent, free⟩
    obtain ⟨unknown, written⟩ := r'.write intact node improper absent free room
    have new : ¬ (id = invalidOrderId ∨ id ∈ m) := fun either => either.elim improper unknown
    rw [if_neg new, decide_eq_false new]
    exact ⟨_, rfl, written⟩
  | exhausted first =>
    cases first with
    | some index =>
      rintro ⟨absent, free⟩
      obtain ⟨unknown, written⟩ := r'.write intact node improper absent free room
      have new : ¬ (id = invalidOrderId ∨ id ∈ m) := fun either => either.elim improper unknown
      rw [if_neg new, decide_eq_false new]
      exact ⟨_, rfl, written⟩
    | none =>
      intro full
      have taken := r'.taken
      have room : (t'.entries.filterMap scheme.key).length < t'.entries.length := by omega
      obtain ⟨j, hj, free⟩ := Scheme.exists_free room
      have own : scheme.key (scheme.cellAt t'.entries j) = .some _ := if_pos (full j hj)
      rw [own] at free
      cases free

theorem Represents.reserve (expectedSize : Nat) :
    ∃ t', t.reserve expectedSize = some t' ∧ Represents t' m := by
  unfold FlatOrderIndex.reserve
  dsimp only
  split
  · exact ⟨t, rfl, r⟩
  · have load := r.load
    obtain ⟨t', done, r', _⟩ := r.rehash (nextCapacity_power expectedSize) (by omega)
    exact ⟨t', done, r'⟩

theorem Represents.serve (call : Call) :
    ∃ t', t.serve call = some (t', (NodeMap.serve m call).2) ∧
      Represents t' (NodeMap.serve m call).1 := by
  cases call with
  | insert id node =>
    obtain ⟨t', done, r'⟩ := r.insert id node
    refine ⟨t', ?_, ?_⟩
    · rw [FlatOrderIndex.serve, done, NodeMap.serve]
      split
      · rename_i refused
        rw [decide_eq_true refused]
        rfl
      · rename_i new
        rw [decide_eq_false new]
        rfl
    · rw [NodeMap.serve]
      split
      · rename_i refused
        rwa [if_pos refused] at r'
      · rename_i new
        rwa [if_neg new] at r'
  | erase id =>
    obtain ⟨r', erased⟩ := r.erase id
    refine ⟨(t.erase id).1, ?_, ?_⟩
    · rw [FlatOrderIndex.serve, NodeMap.serve]
      split
      · rename_i known
        rw [erased.mpr known]
      · rename_i unknown
        rw [Bool.eq_false_iff.mpr (fun done => unknown (erased.mp done))]
    · rw [NodeMap.serve]
      split
      · rename_i known
        rwa [if_pos known] at r'
      · rename_i unknown
        rwa [if_neg unknown] at r'
  | find id =>
    refine ⟨t, ?_, r⟩
    rw [FlatOrderIndex.serve, NodeMap.serve, r.find]
  | clear => exact ⟨t.clear, rfl, r.clear⟩
  | reserve expectedSize =>
    obtain ⟨t', done, r'⟩ := r.reserve expectedSize
    refine ⟨t', ?_, r'⟩
    rw [FlatOrderIndex.serve, done]
    rfl

theorem Represents.run (calls : List Call) :
    ∃ t', t.run calls = some (t', (NodeMap.run m calls).2) ∧
      Represents t' (NodeMap.run m calls).1 := by
  induction calls generalizing t m with
  | nil => exact ⟨t, rfl, r⟩
  | cons call calls ih =>
    obtain ⟨t', done, r'⟩ := r.serve call
    obtain ⟨last, rest, r''⟩ := ih r'
    refine ⟨last, ?_, r''⟩
    rw [FlatOrderIndex.run, done, Option.bind_some, rest]
    rfl

end Represented

/-- Every call ends and answers as the finite map does; the capacity stays a power of two, and each
occupied entry is found under its own order id, which no other has. -/
theorem flat_index_refines_map (calls : List Call) :
    ∃ t, run {} calls = some (t, (NodeMap.run ∅ calls).2) ∧
      t.size = (NodeMap.run ∅ calls).1.keys.card ∧
      (∀ id, t.find id = (NodeMap.run ∅ calls).1.lookup id) ∧
      (t.entries.length = 0 ∨ ∃ p, t.entries.length = 2 ^ p) ∧
      (∀ entry ∈ t.entries, entry.state = .occupied → t.find entry.orderId = some entry.nodeIndex) ∧
      ((t.entries.filter (fun entry => entry.state = .occupied)).map (·.orderId)).Nodup := by
  obtain ⟨t, done, r⟩ := new_represents.run calls
  refine ⟨t, done, r.size, r.find, ?_, ?_, ?_⟩
  · rcases r.table with none | intact
    · exact .inl (by rw [none]; rfl)
    · exact .inr intact.power
  · intro entry here held
    have lies := Scheme.lies_iff.mpr ⟨here, key_eq_some.mpr ⟨held, rfl⟩⟩
    obtain ⟨node, lookup, same⟩ := (r.lies _ _).mp lies
    rw [r.find, lookup, same]
    rfl
  · have keys : (t.entries.filter (fun entry => entry.state = .occupied)).map (·.orderId) =
        t.entries.filterMap scheme.key := by
      rw [← List.filterMap_eq_map, List.filterMap_filter]
      apply List.filterMap_congr
      intro entry _
      by_cases held : entry.state = .occupied
      · rw [key_eq_some.mpr ⟨held, rfl⟩]
        simp [held]
      · have free : scheme.key entry = none := if_neg held
        rw [free]
        simp [held]
    rw [keys]
    exact r.distinct

end FlatOrderIndex
end Asterion
