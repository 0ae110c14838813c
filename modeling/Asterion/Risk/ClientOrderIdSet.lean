import Asterion.Core.Types
import Asterion.Lib.OpenAddressing
import Asterion.Risk.GatewaySteps
import Asterion.Risk.IterationOrder

/-! The gateway's set of accepted client order ids: a hash table with open addressing in which zero
marks an empty bucket, and a flag for the id zero itself. Sizes are those a vector can hold, where no
product overflows. -/
namespace Asterion
open Lib Lib.OpenAddressing

structure ClientOrderIdSet where
  buckets : List Nat := []
  size : Nat := 0
  containsZero : Bool := false
  deriving DecidableEq, Repr

namespace ClientOrderIdSet

/-- Zero ends a probe; any other bucket holds itself. -/
def scheme : Scheme Nat Nat where
  vacant := invalidClientOrderId
  ends stored := stored == invalidClientOrderId
  key stored := if stored = invalidClientOrderId then none else some stored
  hash clientOrderId := (mix64 (.ofNat clientOrderId)).toNat
  vacant_ends := rfl
  keyless ends := if_pos (beq_iff_eq.mp ends)

def bucketCountFor (expectedSize : Nat) : Nat :=
  let target := if expectedSize < 8 then 16 else expectedSize * 2
  doubleTo target target 16

/-- A loop over the buckets that goes round for ever has no result, here and below. -/
def rehash (s : ClientOrderIdSet) (bucketCount : Nat) : Option ClientOrderIdSet :=
  (scheme.rebuild s.buckets bucketCount (if s.containsZero then 1 else 0)).map
    (fun rebuilt => { s with buckets := rebuilt.1, size := rebuilt.2 })

def reserve (s : ClientOrderIdSet) (expectedSize : Nat) : Option ClientOrderIdSet :=
  let bucketCount := bucketCountFor expectedSize
  if bucketCount > s.buckets.length then s.rehash bucketCount else some s

/-- The index at which the loop of `contains` and of `insert` returns. -/
def seek (s : ClientOrderIdSet) (clientOrderId : Nat) : Option Nat :=
  scheme.seek s.buckets (scheme.seeks clientOrderId) (scheme.home s.buckets clientOrderId)

def contains (s : ClientOrderIdSet) (clientOrderId : Nat) : Option Bool :=
  if clientOrderId = invalidClientOrderId then some s.containsZero
  else if s.buckets.isEmpty then some false
  else (s.seek clientOrderId).map (fun index => scheme.cellAt s.buckets index == clientOrderId)

def place (s : ClientOrderIdSet) (clientOrderId : Nat) : Option ClientOrderIdSet :=
  (s.seek clientOrderId).map (fun index =>
    if scheme.cellAt s.buckets index = clientOrderId then s
    else { s with buckets := s.buckets.set index clientOrderId, size := s.size + 1 })

def insert (s : ClientOrderIdSet) (clientOrderId : Nat) : Option ClientOrderIdSet :=
  if clientOrderId = invalidClientOrderId then
    some (if s.containsZero then s else { s with containsZero := true, size := s.size + 1 })
  else if s.buckets.isEmpty ∨ (s.size + 1) * 2 ≥ s.buckets.length then
    (s.rehash (bucketCountFor (s.size + 1))).bind (fun s => s.place clientOrderId)
  else s.place clientOrderId

inductive Call where
  | reserve (expectedSize : Nat)
  | insert (clientOrderId : Nat)
  deriving DecidableEq, Repr

def serve (s : ClientOrderIdSet) : Call → Option ClientOrderIdSet
  | .reserve expectedSize => s.reserve expectedSize
  | .insert clientOrderId => s.insert clientOrderId

def run (s : ClientOrderIdSet) (calls : List Call) : Option ClientOrderIdSet :=
  calls.foldlM serve s

def after (ids : Finset Nat) : Call → Finset Nat
  | .reserve _ => ids
  | .insert clientOrderId => Insert.insert clientOrderId ids

def inserted (calls : List Call) : Finset Nat := calls.foldl after ∅

/-- The table holds the set, and at most half of its buckets are taken. -/
structure Represents (s : ClientOrderIdSet) (ids : Finset Nat) : Prop where
  table : s.buckets = [] ∨ scheme.Intact s.buckets
  lies : ∀ id c, scheme.Lies s.buckets id c ↔ c = id ∧ id ≠ invalidClientOrderId ∧ id ∈ ids
  zero : s.containsZero = true ↔ invalidClientOrderId ∈ ids
  size : s.size = ids.card
  load : (ids.erase invalidClientOrderId).card * 2 ≤ s.buckets.length

theorem bucketCountFor_power (expectedSize : Nat) : Power (bucketCountFor expectedSize) :=
  doubleTo_power ⟨4, rfl⟩

theorem le_bucketCountFor (expectedSize : Nat) : expectedSize * 2 ≤ bucketCountFor expectedSize := by
  have reached : (if expectedSize < 8 then 16 else expectedSize * 2) ≤
      bucketCountFor expectedSize := le_doubleTo (by omega) (by omega)
  split at reached
  · omega
  · exact reached

theorem new_represents : Represents {} ∅ where
  table := .inl rfl
  lies id c := by simp [Scheme.Lies]
  zero := by simp
  size := rfl
  load := by simp

section Represented
variable {s : ClientOrderIdSet} {ids : Finset Nat} (r : Represents s ids)
include r

theorem Represents.keys (id : Nat) :
    id ∈ ids.erase invalidClientOrderId ↔ ∃ c, scheme.Lies s.buckets id c := by
  rw [Finset.mem_erase]
  simp only [r.lies]
  exact ⟨fun h => ⟨id, rfl, h⟩, fun ⟨_, _, h⟩ => h⟩

theorem Represents.taken :
    (s.buckets.filterMap scheme.key).length = (ids.erase invalidClientOrderId).card := by
  rcases r.table with none | intact
  · have load := r.load
    rw [none, List.length_nil] at load
    rw [none, List.filterMap_nil, List.length_nil]
    omega
  · exact intact.card r.keys

theorem Represents.distinct : (s.buckets.filterMap scheme.key).Nodup := by
  rcases r.table with none | intact
  · rw [none]
    exact List.nodup_nil
  · exact intact.keys_nodup

theorem Represents.size_eq :
    (if s.containsZero then 1 else 0) + (ids.erase invalidClientOrderId).card = ids.card := by
  split
  · rename_i zero
    have here := r.zero.mp zero
    have count := Finset.card_erase_add_one here
    omega
  · rename_i nonzero
    rw [Finset.erase_eq_of_notMem (fun here => nonzero (r.zero.mpr here)), Nat.zero_add]

theorem Represents.rehash {bucketCount : Nat} (power : Power bucketCount)
    (room : (ids.erase invalidClientOrderId).card * 2 ≤ bucketCount) :
    ∃ s', s.rehash bucketCount = some s' ∧ Represents s' ids ∧ s'.buckets.length = bucketCount := by
  have pos := power.pos
  obtain ⟨buckets, done, intact, length, lies⟩ := Scheme.rebuild_intact power
    (if s.containsZero then 1 else 0) r.distinct (by rw [r.taken]; omega)
  refine ⟨{ s with buckets, size := ids.card }, ?_, ?_, length⟩
  · rw [ClientOrderIdSet.rehash, done, r.taken, r.size_eq]
    rfl
  · exact ⟨.inr intact, fun id c => (lies id c).trans (r.lies id c), r.zero, rfl, length ▸ room⟩

theorem Represents.exists_empty (some : s.buckets ≠ []) :
    ∃ j < s.buckets.length, scheme.cellAt s.buckets j = invalidClientOrderId := by
  have pos := List.length_pos_iff.mpr some
  have load := r.load
  have taken := r.taken
  have room : (s.buckets.filterMap scheme.key).length < s.buckets.length := by omega
  obtain ⟨j, hj, free⟩ := Scheme.exists_free room
  refine ⟨j, hj, ?_⟩
  by_contra other
  have held : scheme.key (scheme.cellAt s.buckets j) = .some _ := if_neg other
  rw [held] at free
  cases free

variable {clientOrderId : Nat}

/-- The probe for an id ends in its bucket, or in an empty one where the id is missing. -/
theorem Represents.seek (intact : scheme.Intact s.buckets)
    (nonzero : clientOrderId ≠ invalidClientOrderId) :
    ∃ index < s.buckets.length, s.seek clientOrderId = some index ∧
      if clientOrderId ∈ ids then scheme.cellAt s.buckets index = clientOrderId
      else scheme.cellAt s.buckets index = invalidClientOrderId ∧
        scheme.Reached s.buckets clientOrderId index := by
  split
  · rename_i known
    have lies := (r.lies clientOrderId clientOrderId).mpr ⟨rfl, nonzero, known⟩
    obtain ⟨index, hi, found, here⟩ := intact.seek_lies lies
    exact ⟨index, hi, found, here⟩
  · rename_i unknown
    have absent : ∀ c, ¬ scheme.Lies s.buckets clientOrderId c :=
      fun c lies => unknown ((r.lies clientOrderId c).mp lies).2.2
    obtain ⟨j, hj, empty⟩ := r.exists_empty (List.length_pos_iff.mp intact.power.pos)
    have stops : scheme.seeks clientOrderId (scheme.cellAt s.buckets j) = true := by
      rw [empty]
      rfl
    obtain ⟨index, found⟩ := Scheme.seek_isSome intact.power (intact.home_lt clientOrderId)
      ⟨j, hj, stops⟩
    obtain ⟨hi, ends, reached⟩ := intact.seek_absent absent found
    exact ⟨index, hi, found, beq_iff_eq.mp ends, reached⟩

theorem Represents.contains (clientOrderId : Nat) :
    s.contains clientOrderId = some (decide (clientOrderId ∈ ids)) := by
  unfold ClientOrderIdSet.contains
  split
  · rename_i zero
    rw [zero, Option.some.injEq, Bool.eq_iff_iff, decide_eq_true_iff]
    exact r.zero
  · rename_i nonzero
    split
    · rename_i none
      have unknown : clientOrderId ∉ ids := by
        intro known
        obtain ⟨j, hj, _⟩ := (r.lies clientOrderId clientOrderId).mpr ⟨rfl, nonzero, known⟩
        rw [List.isEmpty_iff.mp none] at hj
        exact absurd hj (Nat.not_lt_zero j)
      rw [decide_eq_false unknown]
    · rename_i some
      have intact := r.table.resolve_left (fun none => some (List.isEmpty_iff.mpr none))
      obtain ⟨index, _, found, here⟩ := r.seek intact nonzero
      rw [found, Option.map_some]
      split at here
      · rename_i known
        rw [here, decide_eq_true known, beq_self_eq_true]
      · rename_i unknown
        rw [here.1, decide_eq_false unknown, beq_false_of_ne (Ne.symm nonzero)]

theorem Represents.place (intact : scheme.Intact s.buckets)
    (nonzero : clientOrderId ≠ invalidClientOrderId)
    (room : (s.size + 1) * 2 ≤ s.buckets.length) :
    ∃ s', s.place clientOrderId = some s' ∧ Represents s' (Insert.insert clientOrderId ids) := by
  obtain ⟨index, hi, found, here⟩ := r.seek intact nonzero
  rw [ClientOrderIdSet.place, found, Option.map_some]
  split at here
  · rename_i known
    rw [if_pos here, Finset.insert_eq_of_mem known]
    exact ⟨s, rfl, r⟩
  · rename_i unknown
    obtain ⟨empty, reached⟩ := here
    rw [if_neg (fun same => nonzero (same.symm.trans empty))]
    have absent : ∀ c, ¬ scheme.Lies s.buckets clientOrderId c :=
      fun c lies => unknown ((r.lies clientOrderId c).mp lies).2.2
    have own : scheme.key clientOrderId = some clientOrderId := if_neg nonzero
    have free : scheme.key (scheme.cellAt s.buckets index) = none := if_pos empty
    refine ⟨_, rfl, .inr (intact.put hi reached absent own), ?_, ?_, ?_, ?_⟩
    · intro id c
      rw [Scheme.lies_put hi free own, r.lies, Finset.mem_insert]
      constructor
      · rintro (⟨rfl, rfl⟩ | ⟨rfl, other, known⟩)
        · exact ⟨rfl, nonzero, .inl rfl⟩
        · exact ⟨rfl, other, .inr known⟩
      · rintro ⟨rfl, other, rfl | known⟩
        · exact .inl ⟨rfl, rfl⟩
        · exact .inr ⟨rfl, other, known⟩
    · rw [r.zero, Finset.mem_insert, or_iff_right (Ne.symm nonzero)]
    · rw [Finset.card_insert_of_notMem unknown, r.size]
    · have most := Finset.card_erase_le (s := Insert.insert clientOrderId ids)
        (a := invalidClientOrderId)
      have size := r.size
      rw [Finset.card_insert_of_notMem unknown] at most
      dsimp only
      rw [List.length_set]
      omega

theorem Represents.insertZero : Represents
    (if s.containsZero then s else { s with containsZero := true, size := s.size + 1 })
    (Insert.insert invalidClientOrderId ids) := by
  split
  · rename_i zero
    rw [Finset.insert_eq_of_mem (r.zero.mp zero)]
    exact r
  · rename_i nonzero
    have unknown : invalidClientOrderId ∉ ids := fun known => nonzero (r.zero.mpr known)
    refine ⟨r.table, ?_, ?_, ?_, ?_⟩
    · intro id c
      rw [r.lies, Finset.mem_insert]
      constructor
      · exact fun ⟨same, other, known⟩ => ⟨same, other, .inr known⟩
      · exact fun ⟨same, other, known⟩ => ⟨same, other, known.resolve_left other⟩
    · simp
    · rw [Finset.card_insert_of_notMem unknown, ← r.size]
    · rw [Finset.erase_insert unknown]
      have load := r.load
      rwa [Finset.erase_eq_of_notMem unknown] at load

theorem Represents.insert (clientOrderId : Nat) :
    ∃ s', s.insert clientOrderId = some s' ∧
      Represents s' (Insert.insert clientOrderId ids) := by
  unfold ClientOrderIdSet.insert
  split
  · rename_i zero
    rw [zero]
    exact ⟨_, rfl, r.insertZero⟩
  · rename_i nonzero
    split
    · have grown := le_bucketCountFor (s.size + 1)
      have most := Finset.card_erase_le (s := ids) (a := invalidClientOrderId)
      have size := r.size
      obtain ⟨s', done, r', length⟩ :=
        r.rehash (bucketCountFor_power (s.size + 1)) (by omega)
      have some : s'.buckets ≠ [] := by
        rw [← List.length_pos_iff, length]
        exact (bucketCountFor_power _).pos
      rw [done, Option.bind_some]
      apply r'.place (r'.table.resolve_left some) nonzero
      rw [r'.size, length, ← size]
      exact grown
    · rename_i half
      rw [not_or, List.isEmpty_iff] at half
      exact r.place (r.table.resolve_left half.1) nonzero (by omega)

theorem Represents.reserve (expectedSize : Nat) :
    ∃ s', s.reserve expectedSize = some s' ∧ Represents s' ids := by
  unfold ClientOrderIdSet.reserve
  dsimp only
  split
  · have load := r.load
    obtain ⟨s', done, r', _⟩ := r.rehash (bucketCountFor_power expectedSize) (by omega)
    exact ⟨s', done, r'⟩
  · exact ⟨s, rfl, r⟩

theorem Represents.serve (call : Call) :
    ∃ s', s.serve call = some s' ∧ Represents s' (after ids call) := by
  cases call with
  | reserve expectedSize => exact r.reserve expectedSize
  | insert clientOrderId => exact r.insert clientOrderId

theorem Represents.run (calls : List Call) :
    ∃ s', s.run calls = some s' ∧ Represents s' (calls.foldl after ids) := by
  unfold ClientOrderIdSet.run
  induction calls generalizing s ids with
  | nil => exact ⟨s, rfl, r⟩
  | cons call calls ih =>
    obtain ⟨s', done, r'⟩ := r.serve call
    rw [List.foldlM_cons, done]
    exact ih r'

end Represented

end ClientOrderIdSet

namespace RiskGateway
variable (fit : Int → Int) (g : RiskGateway)

def accepts : Call → Option Nat
  | .operation (.checkNewOrder request nowNs) =>
    if (checkNewOrder fit g request nowNs).2.accepted then some request.clientOrderId else none
  | .operation (.checkReplaceOrder request nowNs) =>
    if (checkReplaceOrder fit g request nowNs).2.accepted then some request.clientOrderId else none
  | _ => none

def idCalls : Call → List ClientOrderIdSet.Call
  | .reserveHotPathCapacity acceptedClientOrderIds _ _ => [.reserve acceptedClientOrderIds]
  | call => ((accepts fit g call).map .insert).toList

def throughout {α : Type} (f : RiskGateway → Call → List α) : RiskGateway → List Call → List α
  | _, [] => []
  | g, call :: calls => f g call ++ throughout f (serve fit g call) calls

def acceptedIds : List Call → List Nat := throughout fit (fun g call => (accepts fit g call).toList) g

section Untouched
variable {fit g}

theorem accepted_admitted {request : NewOrderRequest} :
    (admitted fit g request).acceptedClientOrderIds =
      insert request.clientOrderId g.acceptedClientOrderIds := by
  unfold admitted
  dsimp only
  split
  · exact registerWorkingOrder_rest.accepted
  · rfl

theorem accepted_disconnect {timestampNs : Int} :
    (onDisconnect g timestampNs).acceptedClientOrderIds = g.acceptedClientOrderIds := by
  unfold onDisconnect
  split
  · rfl
  · dsimp only
    split
    · rfl
    · rfl

end Untouched

variable {fit g}

/-- A check accepts an id that was not accepted before, and no other call changes the set. -/
theorem serve_accepts (call : Call) :
    match accepts fit g call with
    | none => (serve fit g call).acceptedClientOrderIds = g.acceptedClientOrderIds
    | some id => id ∉ g.acceptedClientOrderIds ∧
        (serve fit g call).acceptedClientOrderIds = insert id g.acceptedClientOrderIds := by
  cases call with
  | openRotatingAuditLog => rfl
  | closeAuditLog => rfl
  | reserveHotPathCapacity => rfl
  | operation operation =>
    cases operation with
    | setLimits => rfl
    | enableKillSwitch => rfl
    | disableKillSwitch => rfl
    | onDisconnect => exact accepted_disconnect
    | onReconnect => rfl
    | onMarketData => rfl
    | setPosition => rfl
    | releaseOrder => exact releaseOrder_rest.accepted
    | onExecutionReport => exact onExecutionReport_rest.accepted
    | setAuditEnabled => rfl
    | clearAudit => rfl
    | checkNewOrder request nowNs =>
      rw [serve, perform, accepts]
      rcases checkNewOrder_outcome fit g nowNs request with
        ⟨rejected, rates, recorder, result⟩ | ⟨accepted, passed, rates, recorder, result⟩
      · rw [rejected, if_neg Bool.false_ne_true, result]
      · rw [accepted, if_pos rfl, result]
        exact ⟨passed.unused, accepted_admitted⟩
    | checkReplaceOrder request nowNs =>
      rw [serve, perform, accepts]
      rcases checkReplaceOrder_outcome fit g nowNs request with
        ⟨rejected, rates, recorder, result⟩ | ⟨id, existing, accepted, passed, rates, recorder, result⟩
      · rw [rejected, if_neg Bool.false_ne_true, result]
      · rw [accepted, if_pos rfl, result]
        exact ⟨passed.unused, congrArg (insert request.clientOrderId) resizeOrder_rest.accepted⟩

theorem acceptedIds_run (calls : List Call) :
    (acceptedIds fit g calls).Nodup ∧
      (∀ id ∈ acceptedIds fit g calls, id ∉ g.acceptedClientOrderIds) ∧
      (calls.foldl (serve fit) g).acceptedClientOrderIds =
        (throughout fit (idCalls fit) g calls).foldl ClientOrderIdSet.after
          g.acceptedClientOrderIds := by
  unfold acceptedIds
  induction calls generalizing g with
  | nil => exact ⟨List.nodup_nil, fun _ h => (by cases h), rfl⟩
  | cons call calls ih =>
    obtain ⟨nodup, fresh, same⟩ := @ih (serve fit g call)
    have step := @serve_accepts fit g call
    rw [throughout, throughout, List.foldl_append, List.foldl_cons]
    cases id : accepts fit g call with
    | none =>
      rw [id] at step
      have quiet : (idCalls fit g call).foldl ClientOrderIdSet.after g.acceptedClientOrderIds =
          g.acceptedClientOrderIds := by
        unfold idCalls
        split
        · rfl
        · rw [id]
          rfl
      rw [quiet, ← show _ = g.acceptedClientOrderIds from step]
      exact ⟨nodup, fresh, same⟩
    | some id' =>
      rw [id] at step
      obtain ⟨unused, now⟩ := step
      have inserts : (idCalls fit g call).foldl ClientOrderIdSet.after g.acceptedClientOrderIds =
          insert id' g.acceptedClientOrderIds := by
        unfold idCalls
        split
        · cases id
        · rw [id]
          rfl
      rw [now] at fresh
      refine ⟨List.nodup_cons.mpr ⟨?_, nodup⟩, ?_, ?_⟩
      · exact fun later => fresh id' later (Finset.mem_insert_self _ _)
      · intro other here
        rcases List.mem_cons.mp here with rfl | later
        · exact unused
        · exact fun old => fresh other later (Finset.mem_insert_of_mem old)
      · rw [inserts, ← now]
        exact same

/-- The table is the set of the ids inserted into it, every loop over its buckets ends, and the
gateway that asks it accepts no id twice. -/
theorem client_order_ids_set (limits : RiskLimits) (setCalls : List ClientOrderIdSet.Call)
    (calls : List Call) :
    (∃ s, ClientOrderIdSet.run {} setCalls = some s ∧
      (∀ id, s.contains id = some (Decidable.decide (id ∈ ClientOrderIdSet.inserted setCalls))) ∧
      s.size = (ClientOrderIdSet.inserted setCalls).card ∧
      (s.buckets ≠ [] → invalidClientOrderId ∈ s.buckets)) ∧
    (acceptedIds fit { limits } calls).Nodup ∧
    ∃ s, ClientOrderIdSet.run {} (throughout fit (idCalls fit) { limits } calls) = some s ∧
      ∀ id, s.contains id = some (Decidable.decide
        (id ∈ (calls.foldl (serve fit) { limits }).acceptedClientOrderIds)) := by
  have set := fun calls => ClientOrderIdSet.new_represents.run calls
  obtain ⟨nodup, -, same⟩ := @acceptedIds_run fit { limits } calls
  refine ⟨?_, nodup, ?_⟩
  · obtain ⟨s, done, r⟩ := set setCalls
    refine ⟨s, done, r.contains, r.size, ?_⟩
    intro some
    obtain ⟨j, hj, empty⟩ := r.exists_empty some
    rw [← empty, Scheme.cellAt, List.getD_eq_getElem _ _ hj]
    exact List.getElem_mem hj
  · obtain ⟨s, done, r⟩ := set (throughout fit (idCalls fit) { limits } calls)
    refine ⟨s, done, ?_⟩
    rw [same]
    exact r.contains

end RiskGateway
end Asterion
