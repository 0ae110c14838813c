import Asterion.Book.LevelTotals
import Asterion.Ingestion.Levels

/-! When the events of the normaliser fit the event schema: its integers are unbounded, and the
condition is found at each step that emits an event. -/
namespace Asterion
open Lib.Exceptions Lib.Along

/-- The fields of an event fit the words of the schema. -/
structure NormEvent.Fits (event : NormEvent) : Prop where
  timestampNs : InWord event.timestampNs
  sequenceNumber : event.sequenceNumber < 2 ^ 64
  symbolId : event.symbolId ≠ 0 ∧ event.symbolId < 2 ^ 32
  priceTicks : InWord event.priceTicks
  quantity : InWord event.quantity
  orderId : event.orderId < 2 ^ 64

instance (event : NormEvent) : Decidable event.Fits :=
  decidable_of_iff
    ((-2 ^ 63 ≤ event.timestampNs ∧ event.timestampNs < 2 ^ 63) ∧ event.sequenceNumber < 2 ^ 64 ∧
      (event.symbolId ≠ 0 ∧ event.symbolId < 2 ^ 32) ∧
      (-2 ^ 63 ≤ event.priceTicks ∧ event.priceTicks < 2 ^ 63) ∧
      (-2 ^ 63 ≤ event.quantity ∧ event.quantity < 2 ^ 63) ∧ event.orderId < 2 ^ 64)
    ⟨fun ⟨time, sequence, symbol, price, quantity, order⟩ =>
        ⟨time, sequence, symbol, price, quantity, order⟩,
      fun h => ⟨h.timestampNs, h.sequenceNumber, h.symbolId, h.priceTicks, h.quantity, h.orderId⟩⟩

namespace Normaliser
variable {Key : Type}

def AllFit (s : Normaliser Key) : Prop := ∀ event ∈ s.events, event.Fits

/-- An event of this time, symbol, price and quantity fits. -/
def Room (s : Normaliser Key) (tsNs : Int) (symbolId : Nat) (price qty : Int) : Prop :=
  InWord tsNs ∧ symbolId < 2 ^ 32 ∧ price < 2 ^ 63 ∧ qty < 2 ^ 63 ∧ s.seq + 1 < 2 ^ 64

def LevelFits (py : Python Key) (tsNs : Int) (symbolId : Nat) (s : Normaliser Key)
    (level : Side × String × String) : Prop :=
  match py.readLevel level.2 with
  | .ok (.set p q) => s.Room tsNs symbolId p q
  | .ok (.remove p) =>
    (s.active.lookup (symbolId, level.1, p)).isSome → s.Room tsNs symbolId p 0
  | _ => True

def SnapshotFits (s : Normaliser Key) (tsNs : Int) (symbolId : Nat)
    (levels : List (Side × Int × Int)) : Prop :=
  InWord tsNs ∧ symbolId < 2 ^ 32 ∧ (∀ level ∈ levels, level.2.1 < 2 ^ 63 ∧ level.2.2 < 2 ^ 63) ∧
    s.seq + levels.length + 2 < 2 ^ 64

/-- Order ids are never above the number of the last event, and symbols are numbered from one. -/
structure Numbered [DecidableEq Key] (s : Normaliser Key) : Prop where
  next : s.nextOrderId ≤ s.seq + 1
  active : ∀ key orderId, s.active.lookup key = some orderId → orderId ≤ s.seq
  symbols : ∀ symbol sid, s.symbolIds.lookup symbol = some sid → sid ≠ 0
  nextSymbol : s.nextSymbolId ≠ 0

variable {py : Python Key} {rawIndex : Nat} {tsNs : Int} {symbolId : Nat} {s t : Normaliser Key}

theorem allFit_emit {event : NormEvent} :
    (s.emit event).AllFit ↔ s.AllFit ∧ { event with sequenceNumber := s.seq + 1 }.Fits := by
  unfold AllFit emit
  simp only [List.mem_append, List.mem_singleton, or_imp, forall_and, forall_eq]

theorem Alike.allFit (h : Alike s t) : t.AllFit ↔ s.AllFit := by
  unfold AllFit
  rw [h.events]

theorem Alike.room (h : Alike s t) {price qty : Int} :
    t.Room tsNs symbolId price qty ↔ s.Room tsNs symbolId price qty := by
  unfold Room
  rw [h.seq]

theorem Alike.levelFits (h : Alike s t) {level : Side × String × String} :
    LevelFits py tsNs symbolId t level ↔ LevelFits py tsNs symbolId s level := by
  unfold LevelFits
  split
  · exact h.room
  · rw [h.active, h.room]
  · exact Iff.rfl

theorem fits_iff_room {event : NormEvent} (known : event.symbolId ≠ 0)
    (price : 0 ≤ event.priceTicks) (qty : 0 ≤ event.quantity) (order : event.orderId ≤ s.seq + 1) :
    { event with sequenceNumber := s.seq + 1 }.Fits ↔
      s.Room event.timestampNs event.symbolId event.priceTicks event.quantity := by
  unfold Room InWord
  constructor
  · rintro ⟨time, sequence, symbol, ticks, quantity, -⟩
    exact ⟨time, symbol.2, ticks.2, quantity.2, sequence⟩
  · rintro ⟨time, symbol, ticks, quantity, sequence⟩
    exact ⟨time, sequence, ⟨known, symbol⟩, ⟨by show _ ≤ event.priceTicks; omega, ticks⟩,
      ⟨by show _ ≤ event.quantity; omega, quantity⟩, by show event.orderId < _; omega⟩

variable [DecidableEq Key]

theorem Alike.numbered (h : Alike s t) (numbered : s.Numbered) : t.Numbered := by
  refine ⟨?_, ?_, ?_, ?_⟩
  · rw [h.nextOrderId, h.seq]
    exact numbered.next
  · rw [h.active, h.seq]
    exact numbered.active
  · rw [h.symbolIds]
    exact numbered.symbols
  · rw [h.nextSymbolId]
    exact numbered.nextSymbol

namespace Numbered

theorem start : Numbered ({} : Normaliser Key) :=
  ⟨le_refl 1, fun _ _ h => by simp at h, fun _ _ h => by simp at h, one_ne_zero⟩

theorem emit (numbered : s.Numbered) (event : NormEvent) : (s.emit event).Numbered :=
  ⟨by show s.nextOrderId ≤ s.seq + 1 + 1; have := numbered.next; omega,
    fun key orderId h => le_trans (numbered.active key orderId h) (Nat.le_succ s.seq),
    numbered.symbols, numbered.nextSymbol⟩

theorem emit_order (numbered : s.Numbered) (key : LevelKey) (qty : Int) (event : NormEvent) :
    ({ s with
        nextOrderId := s.nextOrderId + 1
        active := s.active.insert key s.nextOrderId
        levels := s.levels.insert key qty }.emit event).Numbered := by
  have next := numbered.next
  refine ⟨?_, ?_, numbered.symbols, numbered.nextSymbol⟩
  · show s.nextOrderId + 1 ≤ s.seq + 1 + 1
    omega
  · intro other orderId h
    show orderId ≤ s.seq + 1
    by_cases same : other = key
    · subst same
      have new : s.nextOrderId = orderId := by simpa [Normaliser.emit] using h
      omega
    · have old : s.active.lookup other = some orderId := by
        simpa [Normaliser.emit, AList.lookup_insert_ne same] using h
      have := numbered.active other orderId old
      omega

theorem setLevel (numbered : s.Numbered) (key : LevelKey) (qty : Int) :
    (s.setLevel tsNs key qty).Numbered := by
  unfold Normaliser.setLevel
  cases found : s.active.lookup key with
  | none => exact numbered.emit_order key qty _
  | some orderId =>
    have kept : Numbered { s with levels := s.levels.insert key qty } :=
      ⟨numbered.next, numbered.active, numbered.symbols, numbered.nextSymbol⟩
    exact kept.emit _

theorem erase (numbered : s.Numbered) (key : LevelKey) :
    Numbered { s with active := s.active.erase key, levels := s.levels.erase key } := by
  refine ⟨numbered.next, ?_, numbered.symbols, numbered.nextSymbol⟩
  intro other orderId h
  by_cases same : other = key
  · subst same
    simp at h
  · exact numbered.active other orderId (by simpa [AList.lookup_erase_ne same] using h)

theorem removeLevel (numbered : s.Numbered) {key : LevelKey}
    (h : s.removeLevel rawIndex tsNs key = .ok t) : t.Numbered := by
  unfold Normaliser.removeLevel at h
  cases found : s.active.lookup key with
  | none =>
    simp only [found, bind_eq_ok, pure_eq_ok] at h
    obtain ⟨_, -, rfl⟩ := h
    exact (Alike.diag _ _ _ _).numbered (numbered.erase key)
  | some orderId =>
    simp only [found, pure_eq_ok] at h
    subst h
    exact (numbered.erase key).emit _

theorem applySided (numbered : s.Numbered) {level : Side × String × String}
    (h : applySided py rawIndex tsNs symbolId s level = .ok t) : t.Numbered := by
  rw [applySided_eq] at h
  obtain ⟨r, -, h⟩ := bind_eq_ok.mp h
  cases r with
  | badPrice =>
    obtain rfl := pure_eq_ok.mp h
    exact (Alike.diag _ _ _ _).numbered numbered
  | badQuantity =>
    obtain rfl := pure_eq_ok.mp h
    exact (Alike.diag _ _ _ _).numbered numbered
  | remove p => exact numbered.removeLevel h
  | set p q =>
    obtain rfl := pure_eq_ok.mp h
    exact numbered.setLevel _ _

theorem dropSymbol (numbered : s.Numbered) (symbolId : Nat) : (s.dropSymbol symbolId).Numbered := by
  unfold Normaliser.dropSymbol
  generalize s.active.entries.filter _ = entries
  induction entries generalizing s with
  | nil => exact numbered
  | cons e entries ih => exact ih (numbered.erase e.1)

theorem assign (numbered : s.Numbered) (symbol : Key) :
    (s.symbolId symbol).2.Numbered ∧ (s.symbolId symbol).1 ≠ 0 := by
  cases known : s.symbolIds.lookup symbol with
  | some sid =>
    rw [symbolId_found known]
    exact ⟨numbered, numbered.symbols symbol sid known⟩
  | none =>
    rw [symbolId_fresh known]
    refine ⟨⟨numbered.next, numbered.active, ?_, Nat.succ_ne_zero _⟩, numbered.nextSymbol⟩
    intro other sid h
    by_cases same : other = symbol
    · subst same
      have new : s.nextSymbolId = sid := by simpa using h
      rw [← new]
      exact numbered.nextSymbol
    · exact numbered.symbols other sid (by simpa [AList.lookup_insert_ne same] using h)

end Numbered

theorem applySided_allFit {level : Side × String × String} (numbered : s.Numbered)
    (known : symbolId ≠ 0) (h : applySided py rawIndex tsNs symbolId s level = .ok t) :
    t.AllFit ↔ s.AllFit ∧ LevelFits py tsNs symbolId s level := by
  rw [applySided_eq] at h
  obtain ⟨r, read, h⟩ := bind_eq_ok.mp h
  unfold LevelFits
  rw [read]
  cases r with
  | badPrice =>
    obtain rfl := pure_eq_ok.mp h
    exact (and_iff_left trivial).symm
  | badQuantity =>
    obtain rfl := pure_eq_ok.mp h
    exact (and_iff_left trivial).symm
  | remove p =>
    have positive := Python.readLevel_remove read
    simp only at h ⊢
    unfold removeLevel at h
    cases found : s.active.lookup (symbolId, level.1, p) with
    | none =>
      simp only [found, bind_eq_ok, pure_eq_ok] at h
      obtain ⟨_, -, rfl⟩ := h
      simp only [Option.isSome_none, Bool.false_eq_true, false_implies, and_true]
      rfl
    | some orderId =>
      simp only [found, pure_eq_ok] at h
      subst h
      rw [allFit_emit]
      have order := numbered.active _ _ found
      refine and_congr Iff.rfl (Iff.trans (fits_iff_room known (le_of_lt positive) (le_refl 0)
        (le_trans order (Nat.le_succ s.seq))) ?_)
      exact ⟨fun fits _ => fits, fun fits => fits rfl⟩
  | set p q =>
    obtain ⟨positive, filled⟩ := Python.readLevel_set read
    obtain rfl := pure_eq_ok.mp h
    unfold setLevel
    cases found : s.active.lookup (symbolId, level.1, p) with
    | none =>
      rw [allFit_emit]
      exact and_congr Iff.rfl (fits_iff_room (s := s) known (le_of_lt positive) (le_of_lt filled)
        numbered.next)
    | some orderId =>
      rw [allFit_emit]
      exact and_congr Iff.rfl (fits_iff_room (s := s) known (le_of_lt positive) (le_of_lt filled)
        (le_trans (numbered.active _ _ found) (Nat.le_succ s.seq)))

omit [DecidableEq Key] in
theorem snapshotLevels_seq (levels : List (Side × Int × Int)) :
    (levels.foldl (emitSnapshotLevel tsNs symbolId) s).seq = s.seq + levels.length := by
  induction levels generalizing s with
  | nil => rfl
  | cons level levels ih =>
    rw [List.foldl_cons, ih]
    simp only [emitSnapshotLevel, emit, List.length_cons]
    omega

theorem snapshotLevels_numbered (numbered : s.Numbered) (levels : List (Side × Int × Int)) :
    (levels.foldl (emitSnapshotLevel tsNs symbolId) s).Numbered := by
  induction levels generalizing s with
  | nil => exact numbered
  | cons level levels ih => exact ih (numbered.emit_order _ _ _)

theorem snapshotLevels_allFit {levels : List (Side × Int × Int)} (numbered : s.Numbered)
    (known : symbolId ≠ 0) (positive : ∀ level ∈ levels, 0 < level.2.1 ∧ 0 < level.2.2)
    (time : InWord tsNs) (symbol : symbolId < 2 ^ 32) :
    (levels.foldl (emitSnapshotLevel tsNs symbolId) s).AllFit ↔
      s.AllFit ∧ (∀ level ∈ levels, level.2.1 < 2 ^ 63 ∧ level.2.2 < 2 ^ 63) ∧
        (levels = [] ∨ s.seq + levels.length < 2 ^ 64) := by
  induction levels generalizing s with
  | nil => simp
  | cons level levels ih =>
    obtain ⟨⟨price, qty⟩, rest⟩ := List.forall_mem_cons.mp positive
    have next : (emitSnapshotLevel tsNs symbolId s level).Numbered := numbered.emit_order _ _ _
    have first : (emitSnapshotLevel tsNs symbolId s level).AllFit ↔
        s.AllFit ∧ s.Room tsNs symbolId level.2.1 level.2.2 := by
      unfold emitSnapshotLevel
      rw [allFit_emit]
      exact and_congr Iff.rfl
        (fits_iff_room (s := s) known (le_of_lt price) (le_of_lt qty) numbered.next)
    have room : s.Room tsNs symbolId level.2.1 level.2.2 ↔
        (level.2.1 < 2 ^ 63 ∧ level.2.2 < 2 ^ 63) ∧ s.seq + 1 < 2 ^ 64 := by
      unfold Room
      tauto
    have seq : (emitSnapshotLevel tsNs symbolId s level).seq = s.seq + 1 := rfl
    rw [List.foldl_cons, ih next rest, first, room, List.forall_mem_cons, seq, List.length_cons]
    constructor
    · rintro ⟨⟨fit, bounds, single⟩, others, none | length⟩
      · exact ⟨fit, ⟨bounds, others⟩, .inr (by simpa [none] using single)⟩
      · exact ⟨fit, ⟨bounds, others⟩, .inr (by omega)⟩
    · rintro ⟨fit, ⟨bounds, others⟩, none | length⟩
      · cases none
      · exact ⟨⟨fit, bounds, by omega⟩, others, .inr (by omega)⟩

theorem rebuild_allFit {levels : List (Side × Int × Int)} (numbered : s.Numbered)
    (known : symbolId ≠ 0) (positive : ∀ level ∈ levels, 0 < level.2.1 ∧ 0 < level.2.2) :
    (s.rebuild tsNs symbolId levels).AllFit ↔
      s.AllFit ∧ s.SnapshotFits tsNs symbolId levels := by
  have dropped : (s.dropSymbol symbolId).Numbered := numbered.dropSymbol symbolId
  have same : (s.dropSymbol symbolId).events = s.events ∧ (s.dropSymbol symbolId).seq = s.seq := by
    obtain ⟨active, levels, eq⟩ := dropSymbol_eq s symbolId
    rw [eq]
    exact ⟨rfl, rfl⟩
  have fit : (s.dropSymbol symbolId).AllFit ↔ s.AllFit := by
    unfold AllFit
    rw [same.1]
  have marker (flags : Nat) (a : Normaliser Key) :
      (a.emit (snapshotMarker tsNs symbolId flags)).AllFit ↔
        a.AllFit ∧ InWord tsNs ∧ symbolId < 2 ^ 32 ∧ a.seq + 1 < 2 ^ 64 := by
    rw [allFit_emit]
    refine and_congr Iff.rfl ((fits_iff_room known (le_refl 0) (le_refl 0) (Nat.zero_le _)).trans ?_)
    simp [Room, snapshotMarker]
  have begun := dropped.emit (snapshotMarker tsNs symbolId snapshotBeginFlag)
  have seq : ((s.dropSymbol symbolId).emit
      (snapshotMarker tsNs symbolId snapshotBeginFlag)).seq = s.seq + 1 :=
    congrArg (· + 1) same.2
  unfold rebuild SnapshotFits
  rw [marker, snapshotLevels_seq, seq]
  constructor
  · rintro ⟨all, time, symbol, length⟩
    rw [snapshotLevels_allFit begun known positive time symbol, marker, fit] at all
    obtain ⟨⟨before, -⟩, bounds, -⟩ := all
    exact ⟨before, time, symbol, bounds, by omega⟩
  · rintro ⟨before, time, symbol, bounds, length⟩
    rw [snapshotLevels_allFit begun known positive time symbol, marker, fit, seq, same.2]
    exact ⟨⟨⟨before, time, symbol, by omega⟩, bounds, .inr (by omega)⟩, time, symbol, by omega⟩

theorem rebuild_numbered (numbered : s.Numbered) (levels : List (Side × Int × Int)) :
    (s.rebuild tsNs symbolId levels).Numbered :=
  (snapshotLevels_numbered ((numbered.dropSymbol symbolId).emit _) levels).emit _

def LineFits (py : Python Key) (s : Normaliser Key) (line : String × Nat) : Prop :=
  match handled py line with
  | some (e, symbol) =>
    if e.isDiff then
      ∀ levels, py.sidedLevels e.msg "b" "a" = .ok levels →
        Each (next (applySided py line.2 (s.messageTime e symbol) (s.symbolId symbol).1))
          (LevelFits py (s.messageTime e symbol) (s.symbolId symbol).1) (s.symbolId symbol).2 levels
    else
      ∀ levels, py.sidedLevels e.msg "bids" "asks" = .ok levels →
        s.SnapshotFits (s.messageTime e symbol) (s.symbolId symbol).1 (levels.filterMap py.setBy)
  | none => True

variable {msg : List (String × Json)} {symbol : Key}

theorem symbolId_emitted (s : Normaliser Key) (symbol : Key) :
    (s.symbolId symbol).2.events = s.events ∧ (s.symbolId symbol).2.seq = s.seq := by
  cases found : s.symbolIds.lookup symbol with
  | none =>
    rw [symbolId_fresh found]
    exact ⟨rfl, rfl⟩
  | some sid =>
    rw [symbolId_found found]
    exact ⟨rfl, rfl⟩

theorem symbolId_allFit : (s.symbolId symbol).2.AllFit ↔ s.AllFit := by
  unfold AllFit
  rw [(symbolId_emitted s symbol).1]

theorem handleDiff_allFit {u : Normaliser Key} (numbered : s.Numbered)
    (start : Alike u (s.symbolId symbol).2)
    (h : s.handleDiff py rawIndex msg symbol tsNs = .ok t) :
    t.Numbered ∧ (t.AllFit ↔ s.AllFit ∧ ∀ levels, py.sidedLevels msg "b" "a" = .ok levels →
      Each (next (applySided py rawIndex tsNs (s.symbolId symbol).1))
        (LevelFits py tsNs (s.symbolId symbol).1) u levels) := by
  obtain ⟨a, b, levels, d, time, update, listed, run, crossed⟩ := handleDiff_eq_ok.mp h
  obtain ⟨assigned, known⟩ := numbered.assign symbol
  have alike : Alike (s.symbolId symbol).2 b :=
    (Alike.checkEventTime time).trans (Alike.checkUpdate update)
  have checked := Alike.checkCrossed crossed
  have numbered' := alike.numbered assigned
  have levelwise := foldlM_iff_each (I := Numbered) (fun _ _ _ kept step => kept.applySided step)
    (fun _ _ _ kept step => applySided_allFit kept known step) numbered' run
  have same : Each (next (applySided py rawIndex tsNs (s.symbolId symbol).1))
      (LevelFits py tsNs (s.symbolId symbol).1) b levels ↔
      Each (next (applySided py rawIndex tsNs (s.symbolId symbol).1))
        (LevelFits py tsNs (s.symbolId symbol).1) u levels :=
    each_related (R := Alike) (fun _ _ _ _ related step => related.applySided step)
      (fun _ _ _ related => related.levelFits.symm) (start.trans alike).symm run
  refine ⟨checked.numbered (foldlM_kept (fun _ _ _ kept step => kept.applySided step) numbered' run),
    ?_⟩
  rw [checked.allFit, levelwise, alike.allFit, symbolId_allFit, same]
  refine and_congr Iff.rfl ⟨fun each others listed' => ?_, fun each => each levels listed⟩
  obtain rfl : levels = others := Except.ok.inj (listed.symm.trans listed')
  exact each

theorem handleSnapshot_allFit (numbered : s.Numbered)
    (h : s.handleSnapshot py rawIndex msg symbol tsNs = .ok t) :
    t.Numbered ∧ (t.AllFit ↔ s.AllFit ∧ ∀ levels, py.sidedLevels msg "bids" "asks" = .ok levels →
      s.SnapshotFits tsNs (s.symbolId symbol).1 (levels.filterMap py.setBy)) := by
  obtain ⟨a, levels, d, update, listed, run, crossed⟩ := handleSnapshot_eq_ok.mp h
  obtain ⟨assigned, known⟩ := numbered.assign symbol
  obtain ⟨kept, all⟩ := collected run
  have alike : Alike (s.symbolId symbol).2 d.1 := (Alike.checkSnapshotId update).trans kept
  have checked := Alike.checkCrossed crossed
  have numbered' := alike.numbered assigned
  have positive : ∀ level ∈ d.2, 0 < level.2.1 ∧ 0 < level.2.2 := by
    intro level mem
    rw [all, List.nil_append] at mem
    obtain ⟨raw, -, set⟩ := List.mem_filterMap.mp mem
    exact Python.setBy_positive set
  have room : d.1.SnapshotFits tsNs (s.symbolId symbol).1 d.2 ↔
      s.SnapshotFits tsNs (s.symbolId symbol).1 (levels.filterMap py.setBy) := by
    unfold SnapshotFits
    rw [all, alike.seq, (symbolId_emitted s symbol).2, List.nil_append]
  refine ⟨checked.numbered (rebuild_numbered numbered' d.2), ?_⟩
  rw [checked.allFit, rebuild_allFit numbered' known positive, alike.allFit, symbolId_allFit, room]
  refine and_congr Iff.rfl ⟨fun fits others listed' => ?_, fun fits => fits levels listed⟩
  obtain rfl : levels = others := Except.ok.inj (listed.symm.trans listed')
  exact fits

theorem feedLine_allFit {line : String × Nat} (numbered : s.Numbered)
    (h : s.feedLine py line.2 line.1 = .ok t) :
    t.Numbered ∧ (t.AllFit ↔ s.AllFit ∧ LineFits py s line) := by
  unfold LineFits
  cases found : handled py line with
  | none =>
    have alike := feedLine_unhandled found h
    exact ⟨alike.numbered numbered, by rw [alike.allFit]; exact (and_iff_left trivial).symm⟩
  | some both =>
    obtain ⟨e, symbol⟩ := both
    rw [feedLine_handled found] at h
    have counted := (Alike.counted s).numbered numbered
    simp only
    split at h
    · obtain ⟨kept, fit⟩ := handleDiff_allFit counted
        (by rw [symbolId_counted]; exact Alike.counted (s.symbolId symbol).2) h
      rw [symbolId_counted, (Alike.counted s).allFit] at fit
      rename_i diff
      exact ⟨kept, by rw [if_pos diff]; exact fit⟩
    · have timed := (Alike.counted (s.symbolId symbol).2).trans
        (Alike.timed _ (s.symbolId symbol).1 (s.messageTime e symbol))
      obtain ⟨kept, fit⟩ := handleSnapshot_allFit (timed.numbered (numbered.assign symbol).1) h
      have named : ((s.symbolId symbol).2.counted.timed (s.symbolId symbol).1
          (s.messageTime e symbol)).symbolId symbol = ((s.symbolId symbol).1, _) :=
        symbolId_found (symbolId_lookup s symbol)
      rw [named, timed.allFit, symbolId_allFit] at fit
      rename_i snapshot
      unfold SnapshotFits at fit ⊢
      rw [timed.seq, (symbolId_emitted s symbol).2] at fit
      exact ⟨kept, by rw [if_neg snapshot]; exact fit⟩

/-- The events of a run fit the schema exactly where those of each line do. -/
theorem events_fit_iff {lines : List String} {result : Normaliser Key}
    (run : normaliseLines py lines = .ok result) :
    (∀ event ∈ result.events, event.Fits) ↔
      Each (next (fun s line => s.feedLine py line.2 line.1)) (LineFits py) {} lines.zipIdx := by
  have all : result.AllFit ↔ ({} : Normaliser Key).AllFit ∧ _ :=
    foldlM_iff_each (fun _ _ _ numbered step => (feedLine_allFit numbered step).1)
      (fun _ _ _ numbered step => (feedLine_allFit numbered step).2) Numbered.start run
  have none : ({} : Normaliser Key).AllFit := by
    intro event mem
    cases mem
  exact all.trans (and_iff_right none)

def quotedSnapshot : Json :=
  .object [("symbol", .string "X"), ("data", .object [("lastUpdateId", .int 1),
    ("bids", .array [.array [.string "100", .string "3"], .array [.string "100.5", .string "1"]]),
    ("asks", .array [.array [.string "101", .string "3"]])])]

def quotedDiff : Json :=
  .object [("symbol", .string "X"), ("data", .object [("E", .int 1700000000000), ("U", .int 2),
    ("u", .int 4), ("b", .array [.array [.string "100.5", .string "0"],
      .array [.string "99", .string "3"]]), ("a", .array [.array [.string "101", .string "1"]])])]

def snapshotText : String :=
  "\x7b\"symbol\":\"X\",\"data\":\x7b\"lastUpdateId\":1,\"bids\":[[\"100\",\"3\"]," ++
    "[\"100.5\",\"1\"]],\"asks\":[[\"101\",\"3\"]]\x7d\x7d"

def diffText : String :=
  "\x7b\"symbol\":\"X\",\"data\":\x7b\"E\":1700000000000,\"U\":2,\"u\":4,\"b\":[[\"100.5\",\"0\"]," ++
    "[\"99\",\"3\"]],\"a\":[[\"101\",\"1\"]]\x7d\x7d"

/-- The library, on lines that `loads` reads and numbers that are decimals. -/
def decodingPython (lines : List (String × Json)) (numbers : List (String × Decimal)) :
    Python String where
  strip text := text
  loads text := ((lines.lookup text).map .value).getD (.decodeError "Expecting value")
  decimal text := numbers.lookup text
  strOther _ := throw .recursionError
  repr _ := throw .recursionError
  reprString text := text
  key _ value :=
    match value with
    | .string text => some text
    | _ => none

def quotedPython : Python String :=
  decodingPython [(snapshotText, quotedSnapshot), (diffText, quotedDiff)]
    [("100", .finite false 100 0), ("100.5", .finite false 1005 (-1)), ("101", .finite false 101 0),
      ("99", .finite false 99 0), ("0", .finite false 0 0), ("1", .finite false 1 0),
      ("3", .finite false 3 0)]

theorem quotes_fit :
    ∃ result, normaliseLines quotedPython [snapshotText, diffText] = .ok result ∧
      result.seq = 8 ∧
      Each (next (fun s line => s.feedLine quotedPython line.2 line.1)) (LineFits quotedPython) {}
        [snapshotText, diffText].zipIdx := by
  have result : (normaliseLines quotedPython [snapshotText, diffText]).toOption.map
      (fun s => (s.seq, decide (∀ event ∈ s.events, event.Fits))) = some (8, true) := by
    decide +kernel
  obtain ⟨result, run, shown⟩ := toOption_map_eq_some.mp result
  obtain ⟨count, fit⟩ := Prod.mk.inj shown
  exact ⟨result, run, count, (events_fit_iff run).mp (of_decide_eq_true fit)⟩

def dearSnapshot : Json :=
  .object [("symbol", .string "X"), ("data", .object [("lastUpdateId", .int 1),
    ("bids", .array [.array [.string "100000000000", .string "1"]]), ("asks", .array [])])]

def dearText : String :=
  "\x7b\"symbol\":\"X\",\"data\":\x7b\"lastUpdateId\":1,\"bids\":[[\"100000000000\",\"1\"]],\"asks\":[]\x7d\x7d"

def dearPython : Python String :=
  decodingPython [(dearText, dearSnapshot)]
    [("100000000000", .finite false 100000000000 0), ("1", .finite false 1 0)]

/-- A price of 10^11 has 10^19 ticks. -/
theorem dear_price_unfit :
    ∃ result, normaliseLines dearPython [dearText] = .ok result ∧
      ¬ ∀ event ∈ result.events, event.Fits := by
  have result : (normaliseLines dearPython [dearText]).toOption.map
      (fun s => s.events.map (·.priceTicks)) = some [0, 10000000000000000000, 0] := by
    decide +kernel
  obtain ⟨result, run, prices⟩ := toOption_map_eq_some.mp result
  refine ⟨result, run, fun fit => ?_⟩
  have mem : (10000000000000000000 : Int) ∈ result.events.map (·.priceTicks) := by
    rw [prices]
    decide
  obtain ⟨event, emitted, price⟩ := List.mem_map.mp mem
  have bound := (fit event emitted).priceTicks.2
  rw [price] at bound
  exact absurd bound (by decide)

end Normaliser
end Asterion
