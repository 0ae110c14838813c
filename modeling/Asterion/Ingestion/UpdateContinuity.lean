import Asterion.Ingestion.Messages

/-! How the update ids of a symbol are judged. A message is compared with the id that was recorded
last, and a stale diff puts that id back. -/
namespace Asterion
open Lib.Exceptions

namespace Envelope

def firstId (e : Envelope) : Option Int := (Json.get e.msg "U").bind Json.asInt

def finalId (e : Envelope) : Option Int := (Json.get e.msg "u").bind Json.asInt

def snapshotId (e : Envelope) : Option Int := (Json.get e.msg "lastUpdateId").bind Json.asInt

/-- The update id a message carries: the final id of a diff, the last id of a snapshot. -/
def updateId (e : Envelope) : Option Int :=
  if e.isDiff then e.finalId else if e.isSnapshot then e.snapshotId else none

end Envelope

namespace Python
variable {Key : Type} (py : Python Key)

/-- The update id a line carries, with the symbol it is for. -/
def lineId (line : String × Nat) : Option (Key × Int) :=
  (py.message line.1).bind fun e =>
    (e.symbolKey py line.2).bind fun symbol => e.updateId.map fun id => (symbol, id)

def lineIds (lines : List (String × Nat)) : List (Key × Int) := lines.filterMap py.lineId

def newestId [DecidableEq Key] (lines : List String) (symbol : Key) : Option Int :=
  (((py.lineIds lines.zipIdx).filter (·.1 = symbol)).map (·.2)).max?

end Python

namespace Normaliser
variable {Key : Type}

def recordedId [DecidableEq Key] (s : Normaliser Key) (symbol : Key) : Option Int :=
  (s.symbolIds.lookup symbol).bind s.lastUpdateId.lookup

def Reports (s : Normaliser Key) (rawIndex : Nat) (reason : Reason) : Prop :=
  ∃ d ∈ s.diagnostics, d.rawIndex = rawIndex ∧ d.reason = reason

def JudgedAgainst (s : Normaliser Key) (rawIndex : Nat) (firstId finalId newest : Int) : Prop :=
  (s.Reports rawIndex .updateGap ↔ newest < finalId ∧ newest + 1 < firstId) ∧
    (s.Reports rawIndex .staleUpdate ↔ finalId ≤ newest)

/-- The part of a line that has nothing to do with update ids. -/
structure Quiet (rawIndex : Nat) (s t : Normaliser Key) : Prop where
  symbolIds : t.symbolIds = s.symbolIds
  nextSymbolId : t.nextSymbolId = s.nextSymbolId
  lastUpdateId : t.lastUpdateId = s.lastUpdateId
  diagnostics : ∃ told, t.diagnostics = s.diagnostics ++ told ∧
    ∀ d ∈ told, d.rawIndex = rawIndex ∧ d.reason ≠ .updateGap ∧ d.reason ≠ .staleUpdate

namespace Quiet
variable {rawIndex : Nat} {s t u : Normaliser Key}

theorem of_eq (symbolIds : t.symbolIds = s.symbolIds) (next : t.nextSymbolId = s.nextSymbolId)
    (last : t.lastUpdateId = s.lastUpdateId) (same : t.diagnostics = s.diagnostics) :
    Quiet rawIndex s t :=
  ⟨symbolIds, next, last, [], by simp [same], by simp⟩

theorem refl (s : Normaliser Key) : Quiet rawIndex s s := of_eq rfl rfl rfl rfl

theorem counted (s : Normaliser Key) : Quiet rawIndex s s.counted := of_eq rfl rfl rfl rfl

theorem trans (first : Quiet rawIndex s t) (second : Quiet rawIndex t u) : Quiet rawIndex s u := by
  obtain ⟨told, eq, kinds⟩ := first.diagnostics
  obtain ⟨told', eq', kinds'⟩ := second.diagnostics
  refine ⟨second.symbolIds.trans first.symbolIds, second.nextSymbolId.trans first.nextSymbolId,
    second.lastUpdateId.trans first.lastUpdateId, told ++ told', ?_, ?_⟩
  · rw [eq', eq, List.append_assoc]
  · intro d hd
    cases List.mem_append.mp hd with
    | inl h => exact kinds d h
    | inr h => exact kinds' d h

theorem diag (s : Normaliser Key) (severity : Severity) {reason : Reason} (detail : String)
    (gap : reason ≠ .updateGap) (stale : reason ≠ .staleUpdate) :
    Quiet rawIndex s (s.diag rawIndex severity reason detail) := by
  refine ⟨rfl, rfl, rfl, [⟨rawIndex, severity, reason, detail⟩], rfl, ?_⟩
  intro d hd
  obtain rfl := List.mem_singleton.mp hd
  exact ⟨rfl, gap, stale⟩

theorem emit (s : Normaliser Key) (event : NormEvent) : Quiet rawIndex s (s.emit event) :=
  of_eq rfl rfl rfl rfl

theorem removeLevel {tsNs : Int} {key : LevelKey} (h : s.removeLevel rawIndex tsNs key = .ok t) :
    Quiet rawIndex s t := by
  unfold Normaliser.removeLevel at h
  have dropped : Quiet rawIndex s
      { s with active := s.active.erase key, levels := s.levels.erase key } :=
    of_eq rfl rfl rfl rfl
  cases found : s.active.lookup key with
  | none =>
    simp only [found, bind_eq_ok, pure_eq_ok] at h
    obtain ⟨_, -, rfl⟩ := h
    exact dropped.trans (diag _ _ _ (by decide) (by decide))
  | some orderId =>
    simp only [found, pure_eq_ok] at h
    subst h
    exact dropped.trans (of_eq rfl rfl rfl rfl)

theorem setLevel (tsNs : Int) (key : LevelKey) (qty : Int) :
    Quiet rawIndex s (s.setLevel tsNs key qty) := by
  unfold Normaliser.setLevel
  cases s.active.lookup key with
  | none => exact of_eq rfl rfl rfl rfl
  | some orderId => exact of_eq rfl rfl rfl rfl

theorem applyLevel {py : Python Key} {tsNs : Int} {symbolId : Nat} {side : Side}
    {level : String × String} (h : applyLevel py rawIndex tsNs symbolId side s level = .ok t) :
    Quiet rawIndex s t := by
  simp only [Normaliser.applyLevel, bind_eq_ok] at h
  obtain ⟨price, -, qty, -, h⟩ := h
  split at h
  · obtain rfl := pure_eq_ok.mp h
    exact diag _ _ _ (by decide) (by decide)
  · split at h
    · obtain rfl := pure_eq_ok.mp h
      exact diag _ _ _ (by decide) (by decide)
    · split at h
      · obtain rfl := pure_eq_ok.mp h
        exact diag _ _ _ (by decide) (by decide)
      · split at h
        · obtain rfl := pure_eq_ok.mp h
          exact diag _ _ _ (by decide) (by decide)
        · split at h
          · exact removeLevel h
          · obtain rfl := pure_eq_ok.mp h
            exact setLevel _ _ _

theorem foldlM {E : Type} {step : Normaliser Key → E → Py (Normaliser Key)} {es : List E}
    (quiet : ∀ a e b, step a e = .ok b → Quiet rawIndex a b) (h : es.foldlM step s = .ok t) :
    Quiet rawIndex s t :=
  foldlM_kept (fun a e b kept next => kept.trans (quiet a e b next)) (refl s) h

theorem checkCrossed {symbolId : Nat} (h : s.checkCrossed rawIndex symbolId = .ok t) :
    Quiet rawIndex s t := by
  unfold Normaliser.checkCrossed at h
  split at h
  · split at h
    · simp only [bind_eq_ok] at h
      obtain ⟨_, -, _, -, h⟩ := h
      obtain rfl := pure_eq_ok.mp h
      exact diag _ _ _ (by decide) (by decide)
    · obtain rfl := pure_eq_ok.mp h
      exact refl s
  · obtain rfl := pure_eq_ok.mp h
    exact refl s

theorem checkEventTime {symbolId : Nat} {tsNs : Int}
    (h : s.checkEventTime rawIndex symbolId tsNs = .ok t) : Quiet rawIndex s t := by
  simp only [Normaliser.checkEventTime, bind_eq_ok] at h
  obtain ⟨a, checked, h⟩ := h
  obtain rfl := pure_eq_ok.mp h
  have quiet : Quiet rawIndex s a := by
    unfold reportEventTime at checked
    split at checked
    · split at checked
      · simp only [bind_eq_ok] at checked
        obtain ⟨_, -, _, -, checked⟩ := checked
        obtain rfl := pure_eq_ok.mp checked
        exact diag _ _ _ (by decide) (by decide)
      · obtain rfl := pure_eq_ok.mp checked
        exact refl s
    · obtain rfl := pure_eq_ok.mp checked
      exact refl s
  exact quiet.trans (of_eq rfl rfl rfl rfl)

theorem dropSymbol (symbolId : Nat) : Quiet rawIndex s (s.dropSymbol symbolId) := by
  unfold Normaliser.dropSymbol
  generalize s.active.entries.filter _ = entries
  induction entries generalizing s with
  | nil => exact refl s
  | cons e entries ih =>
    have first : Quiet rawIndex s
        { s with active := s.active.erase e.1, levels := s.levels.erase e.1 } :=
      of_eq rfl rfl rfl rfl
    exact first.trans ih

theorem snapshotLevels (tsNs : Int) (symbolId : Nat) (levels : List (Side × Int × Int)) :
    Quiet rawIndex s (levels.foldl (emitSnapshotLevel tsNs symbolId) s) := by
  induction levels generalizing s with
  | nil => exact refl s
  | cons level levels ih =>
    have first : Quiet rawIndex s (emitSnapshotLevel tsNs symbolId s level) :=
      of_eq rfl rfl rfl rfl
    exact first.trans ih

theorem collectLevel {py : Python Key} {side : Side} {c d : Normaliser Key × List (Side × Int × Int)}
    {level : String × String} (h : collectLevel py rawIndex side c level = .ok d) :
    Quiet rawIndex c.1 d.1 := by
  simp only [Normaliser.collectLevel, bind_eq_ok] at h
  obtain ⟨price, -, qty, -, h⟩ := h
  split at h
  · obtain rfl := pure_eq_ok.mp h
    exact diag _ _ _ (by decide) (by decide)
  · split at h
    · obtain rfl := pure_eq_ok.mp h
      exact diag _ _ _ (by decide) (by decide)
    · split at h
      · obtain rfl := pure_eq_ok.mp h
        exact refl _
      · split at h
        · obtain rfl := pure_eq_ok.mp h
          exact refl _
        · obtain rfl := pure_eq_ok.mp h
          exact refl _

theorem collectLevels {py : Python Key} {side : Side}
    {c d : Normaliser Key × List (Side × Int × Int)} {levels : List (String × String)}
    (h : levels.foldlM (Normaliser.collectLevel py rawIndex side) c = .ok d) :
    Quiet rawIndex c.1 d.1 :=
  foldlM_kept (I := fun a => Quiet rawIndex c.1 a.1)
    (fun _ _ _ kept next => kept.trans (collectLevel next)) (refl c.1) h

end Quiet

variable {py : Python Key} {rawIndex symbolId : Nat} {s t : Normaliser Key}

theorem checkUpdate_judges {firstId finalId : Int}
    (h : s.checkUpdate rawIndex symbolId (some firstId) (some finalId) = .ok t) :
    t.symbolIds = s.symbolIds ∧ t.nextSymbolId = s.nextSymbolId ∧
      t.lastUpdateId = s.lastUpdateId.insert symbolId finalId ∧
      ∃ told, t.diagnostics = s.diagnostics ++ told ∧ (∀ d ∈ told, d.rawIndex = rawIndex) ∧
        ((∃ d ∈ told, d.reason = .updateGap) ↔
          ∃ last, s.lastUpdateId.lookup symbolId = some last ∧ last < finalId ∧
            last + 1 < firstId) ∧
        ((∃ d ∈ told, d.reason = .staleUpdate) ↔
          ∃ last, s.lastUpdateId.lookup symbolId = some last ∧ finalId ≤ last) := by
  simp only [checkUpdate, bind_eq_ok] at h
  obtain ⟨a, reported, h⟩ := h
  obtain rfl := pure_eq_ok.mp h
  unfold reportUpdate at reported
  cases known : s.lastUpdateId.lookup symbolId with
  | none =>
    simp only [known, pure_eq_ok] at reported
    subst reported
    exact ⟨rfl, rfl, rfl, [], by simp, by simp, by simp, by simp⟩
  | some last =>
    simp only [known] at reported
    by_cases stale : finalId ≤ last
    · simp only [stale, if_true, bind_eq_ok] at reported
      obtain ⟨_, -, _, -, reported⟩ := reported
      obtain rfl := pure_eq_ok.mp reported
      refine ⟨rfl, rfl, rfl, _, rfl, by simp, ?_, ?_⟩
      · simp [not_lt.mpr stale]
      · simp [stale]
    · by_cases gap : firstId > last + 1
      · simp only [stale, gap, if_false, if_true, bind_eq_ok] at reported
        obtain ⟨_, -, _, -, reported⟩ := reported
        obtain rfl := pure_eq_ok.mp reported
        refine ⟨rfl, rfl, rfl, _, rfl, by simp, ?_, ?_⟩
        · simp [gap, not_le.mp stale]
        · simp [stale]
      · simp only [stale, gap, if_false, pure_eq_ok] at reported
        subst reported
        refine ⟨rfl, rfl, rfl, [], by simp, by simp, ?_, ?_⟩
        · simp only [List.not_mem_nil, false_and, exists_false, Option.some.injEq,
            exists_eq_left', false_iff]
          exact fun both => gap both.2
        · simp [stale]

/-- What a snapshot's id is recorded as: itself, or the id that was there. -/
theorem checkSnapshotId_records {lastId : Option Int}
    (h : s.checkSnapshotId rawIndex symbolId lastId = .ok t) :
    t.symbolIds = s.symbolIds ∧ t.nextSymbolId = s.nextSymbolId ∧
      (∃ told, t.diagnostics = s.diagnostics ++ told ∧ ∀ d ∈ told, d.rawIndex = rawIndex) ∧
      (t.lastUpdateId = s.lastUpdateId ∨
        ∃ id, t.lastUpdateId = s.lastUpdateId.insert symbolId id ∧
          (lastId = some id ∨ s.lastUpdateId.lookup symbolId = some id)) := by
  unfold checkSnapshotId at h
  cases lastId with
  | none =>
    obtain rfl := pure_eq_ok.mp h
    exact ⟨rfl, rfl, ⟨[], by simp, by simp⟩, .inl rfl⟩
  | some lastId =>
    simp only [bind_eq_ok] at h
    obtain ⟨a, reported, h⟩ := h
    obtain rfl := pure_eq_ok.mp h
    unfold reportSnapshotId at reported
    cases known : s.lastUpdateId.lookup symbolId with
    | none =>
      simp only [known, pure_eq_ok] at reported
      subst reported
      exact ⟨rfl, rfl, ⟨[], by simp, by simp⟩, .inr ⟨lastId, by simp, .inl rfl⟩⟩
    | some last =>
      have greater : max lastId last = lastId ∨ max lastId last = last := max_choice lastId last
      have recorded (b : Normaliser Key) (same : b.lastUpdateId = s.lastUpdateId) :
          ∃ id, b.lastUpdateId.insert symbolId (max lastId last) =
            s.lastUpdateId.insert symbolId id ∧ (some lastId = some id ∨ some last = some id) := by
        rw [same]
        cases greater with
        | inl new => exact ⟨lastId, by rw [new], .inl rfl⟩
        | inr old => exact ⟨last, by rw [old], .inr rfl⟩
      simp only [known] at reported
      split at reported
      · simp only [bind_eq_ok] at reported
        obtain ⟨_, -, _, -, reported⟩ := reported
        obtain rfl := pure_eq_ok.mp reported
        exact ⟨rfl, rfl, ⟨_, rfl, by simp⟩, .inr (recorded _ rfl)⟩
      · obtain rfl := pure_eq_ok.mp reported
        exact ⟨rfl, rfl, ⟨[], by simp, by simp⟩, .inr (recorded _ rfl)⟩

theorem handleDiff_parts [DecidableEq Key] {msg : List (String × Json)} {symbol : Key} {tsNs : Int}
    (h : s.handleDiff py rawIndex msg symbol tsNs = .ok t) :
    ∃ a b, Quiet rawIndex (s.symbolId symbol).2 a ∧
      a.checkUpdate rawIndex (s.symbolId symbol).1 ((Json.get msg "U").bind Json.asInt)
        ((Json.get msg "u").bind Json.asInt) = .ok b ∧
      Quiet rawIndex b t := by
  simp only [handleDiff, bind_eq_ok] at h
  obtain ⟨a, time, b, update, bids, -, c, bought, asks, -, d, sold, crossed⟩ := h
  refine ⟨a, b, Quiet.checkEventTime time, update, ?_⟩
  have first : Quiet rawIndex b c := Quiet.foldlM (fun _ _ _ => Quiet.applyLevel) bought
  have second : Quiet rawIndex c d := Quiet.foldlM (fun _ _ _ => Quiet.applyLevel) sold
  exact (first.trans second).trans (Quiet.checkCrossed crossed)

theorem handleSnapshot_parts [DecidableEq Key] {msg : List (String × Json)} {symbol : Key}
    {tsNs : Int} (h : s.handleSnapshot py rawIndex msg symbol tsNs = .ok t) :
    ∃ a, (s.symbolId symbol).2.checkSnapshotId rawIndex (s.symbolId symbol).1
        ((Json.get msg "lastUpdateId").bind Json.asInt) = .ok a ∧ Quiet rawIndex a t := by
  simp only [handleSnapshot, bind_eq_ok] at h
  obtain ⟨a, checked, bids, -, c, bought, asks, -, d, sold, crossed⟩ := h
  refine ⟨a, checked, ?_⟩
  have collected : Quiet rawIndex a d.1 :=
    (Quiet.collectLevels bought).trans (Quiet.collectLevels sold)
  have dropped := collected.trans (Quiet.dropSymbol (s.symbolId symbol).1)
  have begun := dropped.trans
    (Quiet.emit _ (snapshotMarker tsNs (s.symbolId symbol).1 snapshotBeginFlag))
  have emitted := begun.trans (Quiet.snapshotLevels tsNs (s.symbolId symbol).1 d.2)
  have ended := emitted.trans
    (Quiet.emit _ (snapshotMarker tsNs (s.symbolId symbol).1 snapshotEndFlag))
  exact ended.trans (Quiet.checkCrossed crossed)

variable [DecidableEq Key] {symbol : Key}

/-- A message is quiet but for the id of its symbol and the check of its update ids. -/
theorem feedMessage_diff_parts {e : Envelope} (diff : e.isDiff)
    (known : e.symbolKey py rawIndex = some symbol)
    (h : s.feedMessage py rawIndex e = .ok t) :
    ∃ a b, Quiet rawIndex (s.symbolId symbol).2 a ∧
      a.checkUpdate rawIndex (s.symbolId symbol).1 e.firstId e.finalId = .ok b ∧
      Quiet rawIndex b t := by
  rw [feedMessage_diff diff known] at h
  exact handleDiff_parts h

theorem feedMessage_snapshot_parts {e : Envelope} (diff : e.isDiff = false)
    (snapshot : e.isSnapshot) (known : e.symbolKey py rawIndex = some symbol)
    (h : s.feedMessage py rawIndex e = .ok t) :
    ∃ a b, Quiet rawIndex (s.symbolId symbol).2 a ∧
      a.checkSnapshotId rawIndex (s.symbolId symbol).1 e.snapshotId = .ok b ∧
      Quiet rawIndex b t := by
  rw [feedMessage_snapshot diff snapshot known] at h
  obtain ⟨b, judged, last⟩ := handleSnapshot_parts h
  rw [symbolId_timed] at judged
  have quiet : Quiet rawIndex (s.symbolId symbol).2
      ((s.symbolId symbol).2.timed (s.symbolId symbol).1 (s.messageTime e symbol)) :=
    .of_eq rfl rfl rfl rfl
  exact ⟨_, b, quiet, judged, last⟩

theorem feedMessage_other {e : Envelope}
    (other : (e.isDiff = false ∧ e.isSnapshot = false) ∨ e.symbolKey py rawIndex = none)
    (h : s.feedMessage py rawIndex e = .ok t) : Quiet rawIndex s t := by
  by_cases kind : e.isDiff ∨ e.isSnapshot
  · have unkeyed : e.symbolKey py rawIndex = none := by
      rcases other with ⟨diff, snapshot⟩ | unkeyed
      · simp [diff, snapshot] at kind
      · exact unkeyed
    rw [feedMessage_unkeyed kind unkeyed] at h
    split at h
    · obtain rfl := pure_eq_ok.mp h
      exact .diag _ _ _ (by decide) (by decide)
    · exact absurd h throw_ne_ok
  · push Not at kind
    rw [feedMessage_unknown (by simpa using kind.1) (by simpa using kind.2)] at h
    obtain ⟨_, -, h⟩ := bind_eq_ok.mp h
    obtain rfl := pure_eq_ok.mp h
    exact .diag _ _ _ (by decide) (by decide)

theorem feedLine_other {line : String} (message : py.message line = none)
    (h : s.feedLine py rawIndex line = .ok t) : Quiet rawIndex s t := by
  unfold Python.message at message
  simp only [feedLine] at h
  split at h
  · obtain rfl := pure_eq_ok.mp h
    exact .refl s
  · rename_i shown
    have counted : Quiet rawIndex s { s with rawLineCount := s.rawLineCount + 1 } :=
      .of_eq rfl rfl rfl rfl
    split at h
    · exact absurd h throw_ne_ok
    · obtain rfl := pure_eq_ok.mp h
      exact counted.trans (.diag _ _ _ (by decide) (by decide))
    · rename_i obj loaded
      split at h
      · obtain rfl := pure_eq_ok.mp h
        exact .of_eq rfl rfl rfl rfl
      · rename_i plain
        simp [shown, loaded, plain] at message
    · obtain rfl := pure_eq_ok.mp h
      exact counted.trans (.diag _ _ _ (by decide) (by decide))

theorem feedLine_diff {line : String} {e : Envelope} {firstId finalId : Int}
    (message : py.message line = some e) (diff : e.isDiff)
    (known : e.symbolKey py rawIndex = some symbol) (first : e.firstId = some firstId)
    (final : e.finalId = some finalId) (h : s.feedLine py rawIndex line = .ok t) :
    ∃ a b, Quiet rawIndex (s.symbolId symbol).2 a ∧
      a.checkUpdate rawIndex (s.symbolId symbol).1 (some firstId) (some finalId) = .ok b ∧
      Quiet rawIndex b t := by
  rw [feedLine_message message] at h
  obtain ⟨a, b, before, judged, after⟩ := feedMessage_diff_parts diff known h
  rw [symbolId_counted] at before judged
  rw [first, final] at judged
  exact ⟨a, b, (Quiet.counted _).trans before, judged, after⟩

theorem feedLine_cases {line : String} (h : s.feedLine py rawIndex line = .ok t) :
    Quiet rawIndex s t ∨ (∃ symbol, Quiet rawIndex (s.symbolId symbol).2 t) ∨
      ∃ symbol id a b, py.lineId (line, rawIndex) = some (symbol, id) ∧
        Quiet rawIndex (s.symbolId symbol).2 a ∧ Quiet rawIndex b t ∧
        ((∃ firstId, a.checkUpdate rawIndex (s.symbolId symbol).1 (some firstId) (some id) = .ok b) ∨
          a.checkSnapshotId rawIndex (s.symbolId symbol).1 (some id) = .ok b) := by
  cases message : py.message line with
  | none => exact .inl (feedLine_other message h)
  | some e =>
    have fed := feedLine_message message ▸ h
    have counts : Quiet rawIndex s s.counted := .counted s
    cases known : e.symbolKey py rawIndex with
    | none => exact .inl (counts.trans (feedMessage_other (.inr known) fed))
    | some symbol =>
      have assigned : Quiet rawIndex (s.symbolId symbol).2 (s.symbolId symbol).2.counted :=
        .counted _
      have carried (id : Int) (update : e.updateId = some id) :
          py.lineId (line, rawIndex) = some (symbol, id) := by
        simp [Python.lineId, message, known, update]
      by_cases neither : e.isDiff = false ∧ e.isSnapshot = false
      · exact .inl (counts.trans (feedMessage_other (.inl neither) fed))
      right
      cases diff : e.isDiff with
      | true =>
        obtain ⟨a, b, before, judged, after⟩ := feedMessage_diff_parts diff known fed
        rw [symbolId_counted] at before judged
        cases first : e.firstId with
        | none =>
          simp only [first, checkUpdate, pure_eq_ok] at judged
          subst judged
          exact .inl ⟨symbol, (assigned.trans before).trans after⟩
        | some firstId =>
          cases final : e.finalId with
          | none =>
            simp only [first, final, checkUpdate, pure_eq_ok] at judged
            subst judged
            exact .inl ⟨symbol, (assigned.trans before).trans after⟩
          | some finalId =>
            rw [first, final] at judged
            have update : e.updateId = some finalId := by simp [Envelope.updateId, diff, final]
            exact .inr ⟨symbol, finalId, a, b, carried finalId update, assigned.trans before, after,
              .inl ⟨firstId, judged⟩⟩
      | false =>
        cases snapshot : e.isSnapshot with
        | false => exact absurd ⟨diff, snapshot⟩ neither
        | true =>
          obtain ⟨a, b, before, judged, after⟩ := feedMessage_snapshot_parts diff snapshot known fed
          rw [symbolId_counted] at before judged
          cases last : e.snapshotId with
          | none =>
            simp only [last, checkSnapshotId, pure_eq_ok] at judged
            subst judged
            exact .inl ⟨symbol, (assigned.trans before).trans after⟩
          | some lastId =>
            rw [last] at judged
            have update : e.updateId = some lastId := by
              simp [Envelope.updateId, diff, snapshot, last]
            exact .inr ⟨symbol, lastId, a, b, carried lastId update, assigned.trans before, after,
              .inr judged⟩

/-- The ids the state holds are those of messages seen before: every symbol has an id of its own,
and what is recorded for it was carried by one of its messages. -/
structure Tracks (s : Normaliser Key) (seen : List (Key × Int)) : Prop where
  below : ∀ symbol sid, s.symbolIds.lookup symbol = some sid → sid < s.nextSymbolId
  distinct : ∀ symbol other sid, s.symbolIds.lookup symbol = some sid →
    s.symbolIds.lookup other = some sid → symbol = other
  carried : ∀ sid id, s.lastUpdateId.lookup sid = some id →
    ∃ symbol, s.symbolIds.lookup symbol = some sid ∧ (symbol, id) ∈ seen

namespace Tracks
variable {seen later : List (Key × Int)}

theorem start : Tracks ({} : Normaliser Key) seen :=
  ⟨fun _ _ h => by simp at h, fun _ _ _ h => by simp at h, fun _ _ h => by simp at h⟩

theorem more (tracks : Tracks s seen) : Tracks s (seen ++ later) :=
  ⟨tracks.below, tracks.distinct, fun sid id h => by
    obtain ⟨symbol, found, mem⟩ := tracks.carried sid id h
    exact ⟨symbol, found, List.mem_append_left _ mem⟩⟩

theorem congr (tracks : Tracks s seen) (ids : t.symbolIds = s.symbolIds)
    (next : t.nextSymbolId = s.nextSymbolId) (last : t.lastUpdateId = s.lastUpdateId) :
    Tracks t seen := by
  refine ⟨?_, ?_, ?_⟩
  · rw [ids, next]
    exact tracks.below
  · rw [ids]
    exact tracks.distinct
  · rw [ids, last]
    exact tracks.carried

theorem quiet (tracks : Tracks s seen) (h : Quiet rawIndex s t) : Tracks t seen :=
  tracks.congr h.symbolIds h.nextSymbolId h.lastUpdateId

theorem assign (tracks : Tracks s seen) (symbol : Key) :
    Tracks (s.symbolId symbol).2 seen := by
  cases known : s.symbolIds.lookup symbol with
  | some sid =>
    rw [symbolId_found known]
    exact tracks
  | none =>
    simp only [Normaliser.symbolId, known]
    have fresh (other : Key) (sid : Nat) (h : s.symbolIds.lookup other = some sid) :
        other ≠ symbol ∧ sid < s.nextSymbolId := by
      refine ⟨?_, tracks.below other sid h⟩
      rintro rfl
      simp [known] at h
    have cases (other : Key) (sid : Nat)
        (h : (s.symbolIds.insert symbol s.nextSymbolId).lookup other = some sid) :
        (other = symbol ∧ sid = s.nextSymbolId) ∨ s.symbolIds.lookup other = some sid := by
      by_cases same : other = symbol
      · subst same
        rw [AList.lookup_insert] at h
        exact .inl ⟨rfl, (Option.some.inj h).symm⟩
      · rw [AList.lookup_insert_ne same] at h
        exact .inr h
    refine ⟨?_, ?_, ?_⟩
    · intro other sid h
      show sid < s.nextSymbolId + 1
      rcases cases other sid h with ⟨-, rfl⟩ | old
      · omega
      · have bound := tracks.below other sid old
        omega
    · intro first second sid h h'
      rcases cases first sid h with ⟨rfl, new⟩ | old
      · rcases cases second sid h' with ⟨rfl, -⟩ | old'
        · rfl
        · have bound := tracks.below second sid old'
          omega
      · rcases cases second sid h' with ⟨rfl, new⟩ | old'
        · have bound := tracks.below first sid old
          omega
        · exact tracks.distinct first second sid old old'
    · intro sid id h
      obtain ⟨other, found, mem⟩ := tracks.carried sid id h
      refine ⟨other, ?_, mem⟩
      rw [AList.lookup_insert_ne (fresh other sid found).1]
      exact found

theorem record {sid : Nat} {id : Int} (tracks : Tracks s seen)
    (found : s.symbolIds.lookup symbol = some sid) (mem : (symbol, id) ∈ seen)
    (ids : t.symbolIds = s.symbolIds) (next : t.nextSymbolId = s.nextSymbolId)
    (last : t.lastUpdateId = s.lastUpdateId.insert sid id) : Tracks t seen := by
  refine ⟨?_, ?_, ?_⟩
  · rw [ids, next]
    exact tracks.below
  · rw [ids]
    exact tracks.distinct
  · intro sid' id' h
    rw [last] at h
    rw [ids]
    by_cases same : sid' = sid
    · subst same
      rw [AList.lookup_insert] at h
      obtain rfl := Option.some.inj h
      exact ⟨symbol, found, mem⟩
    · rw [AList.lookup_insert_ne same] at h
      exact tracks.carried sid' id' h

/-- What is recorded for a symbol was carried by one of its own messages. -/
theorem recorded {sid : Nat} {id : Int} (tracks : Tracks s seen)
    (found : s.symbolIds.lookup symbol = some sid)
    (last : s.lastUpdateId.lookup sid = some id) : (symbol, id) ∈ seen := by
  obtain ⟨other, found', mem⟩ := tracks.carried sid id last
  rw [tracks.distinct symbol other sid found found']
  exact mem

theorem line {text : String} (tracks : Tracks s seen) (h : s.feedLine py rawIndex text = .ok t) :
    Tracks t (seen ++ (py.lineId (text, rawIndex)).toList) := by
  rcases feedLine_cases h with quiet | ⟨symbol, quiet⟩ |
    ⟨symbol, id, a, b, carried, before, after, judged⟩
  · exact (tracks.quiet quiet).more
  · exact ((tracks.assign symbol).quiet quiet).more
  · rw [carried]
    have known : Tracks a (seen ++ [(symbol, id)]) := ((tracks.assign symbol).quiet before).more
    have found : a.symbolIds.lookup symbol = some (s.symbolId symbol).1 := by
      rw [before.symbolIds]
      exact symbolId_lookup s symbol
    have mem : (symbol, id) ∈ seen ++ [(symbol, id)] := by simp
    rcases judged with ⟨firstId, judged⟩ | judged
    · obtain ⟨ids, next, last, -⟩ := checkUpdate_judges judged
      exact (known.record found mem ids next last).quiet after
    · obtain ⟨ids, next, -, same | ⟨kept, last, new | old⟩⟩ := checkSnapshotId_records judged
      · exact (known.congr ids next same).quiet after
      · obtain rfl := Option.some.inj new
        exact (known.record found mem ids next last).quiet after
      · exact (known.record found (known.recorded found old) ids next last).quiet after

end Tracks

/-- The diagnostics of a line are put behind those before it. -/
def Told (rawIndex : Nat) (s t : Normaliser Key) : Prop :=
  ∃ told, t.diagnostics = s.diagnostics ++ told ∧ ∀ d ∈ told, d.rawIndex = rawIndex

omit [DecidableEq Key] in
theorem Told.trans {u : Normaliser Key} (first : Told rawIndex s t) (second : Told rawIndex t u) :
    Told rawIndex s u := by
  obtain ⟨told, eq, own⟩ := first
  obtain ⟨told', eq', own'⟩ := second
  refine ⟨told ++ told', by rw [eq', eq, List.append_assoc], ?_⟩
  intro d hd
  cases List.mem_append.mp hd with
  | inl h => exact own d h
  | inr h => exact own' d h

omit [DecidableEq Key] in
theorem Quiet.told (h : Quiet rawIndex s t) : Told rawIndex s t := by
  obtain ⟨told, eq, kinds⟩ := h.diagnostics
  exact ⟨told, eq, fun d hd => (kinds d hd).1⟩

theorem symbolId_diagnostics (s : Normaliser Key) (symbol : Key) :
    (s.symbolId symbol).2.diagnostics = s.diagnostics := by
  cases known : s.symbolIds.lookup symbol with
  | none => simp only [Normaliser.symbolId, known]
  | some sid => simp only [Normaliser.symbolId, known]

theorem symbolId_told (s : Normaliser Key) (symbol : Key) :
    Told rawIndex s (s.symbolId symbol).2 :=
  ⟨[], by simp [symbolId_diagnostics], by simp⟩

theorem feedLine_told {line : String} (h : s.feedLine py rawIndex line = .ok t) :
    Told rawIndex s t := by
  rcases feedLine_cases h with quiet | ⟨symbol, quiet⟩ |
    ⟨symbol, id, a, b, -, before, after, judged⟩
  · exact quiet.told
  · exact (symbolId_told s symbol).trans quiet.told
  · have judging : Told rawIndex a b := by
      rcases judged with ⟨firstId, judged⟩ | judged
      · obtain ⟨-, -, -, told, eq, own, -⟩ := checkUpdate_judges judged
        exact ⟨told, eq, own⟩
      · exact (checkSnapshotId_records judged).2.2.1
    exact (((symbolId_told s symbol).trans before.told).trans judging).trans after.told

variable {lines : List (String × Nat)}

theorem tracks_run {seen : List (Key × Int)} (start : Tracks s seen)
    (run : lines.foldlM (fun s line => s.feedLine py line.2 line.1) s = .ok t) :
    Tracks t (seen ++ py.lineIds lines) := by
  induction lines generalizing s seen with
  | nil =>
    obtain rfl := pure_eq_ok.mp run
    exact start.more
  | cons line lines ih =>
    obtain ⟨u, first, rest⟩ := bind_eq_ok.mp run
    have kept := ih (start.line first) rest
    cases carried : py.lineId line with
    | none => simpa [Python.lineIds, carried] using kept
    | some id => simpa [Python.lineIds, carried] using kept

theorem told_run (run : lines.foldlM (fun s line => s.feedLine py line.2 line.1) s = .ok t) :
    ∃ told, t.diagnostics = s.diagnostics ++ told ∧
      ∀ d ∈ told, ∃ line ∈ lines, d.rawIndex = line.2 := by
  induction lines generalizing s with
  | nil =>
    obtain rfl := pure_eq_ok.mp run
    exact ⟨[], by simp, by simp⟩
  | cons line lines ih =>
    obtain ⟨u, first, rest⟩ := bind_eq_ok.mp run
    obtain ⟨told, eq, own⟩ := feedLine_told first
    obtain ⟨told', eq', own'⟩ := ih rest
    refine ⟨told ++ told', by rw [eq', eq, List.append_assoc], ?_⟩
    intro d hd
    cases List.mem_append.mp hd with
    | inl h => exact ⟨line, List.mem_cons_self, own d h⟩
    | inr h =>
      obtain ⟨later, mem, at_later⟩ := own' d h
      exact ⟨later, List.mem_cons_of_mem _ mem, at_later⟩

/-- What a run reports of one of its lines is what that line reported. -/
theorem reports_line {front back : List String} {before after result : Normaliser Key}
    {told : List NormalisationDiagnostic} (start : normaliseLines py front = .ok before)
    (rest : (back.zipIdx (front.length + 1)).foldlM
      (fun s line => s.feedLine py line.2 line.1) after = .ok result)
    (eq : after.diagnostics = before.diagnostics ++ told)
    (own : ∀ d ∈ told, d.rawIndex = front.length) (reason : Reason) :
    result.Reports front.length reason ↔ ∃ d ∈ told, d.reason = reason := by
  obtain ⟨early, eq₀, own₀⟩ := told_run start
  obtain ⟨late, eq₁, own₁⟩ := told_run rest
  have all : result.diagnostics = early ++ told ++ late := by
    rw [eq₁, eq, eq₀]
    simp
  unfold Reports
  rw [all]
  constructor
  · rintro ⟨d, mem, at_line, kind⟩
    simp only [List.mem_append] at mem
    rcases mem with (mem | mem) | mem
    · obtain ⟨l, hl, at_l⟩ := own₀ d mem
      have bound := List.snd_lt_of_mem_zipIdx hl
      omega
    · exact ⟨d, mem, kind⟩
    · obtain ⟨l, hl, at_l⟩ := own₁ d mem
      have bound := List.le_snd_of_mem_zipIdx hl
      omega
  · rintro ⟨d, mem, kind⟩
    exact ⟨d, by simp [mem], own d mem, kind⟩

theorem lookup_symbolId {seen : List (Key × Int)} (tracks : Tracks s seen)
    (symbol : Key) :
    (s.symbolId symbol).2.lastUpdateId.lookup (s.symbolId symbol).1 = s.recordedId symbol := by
  unfold recordedId
  cases known : s.symbolIds.lookup symbol with
  | some sid =>
    rw [symbolId_found known]
    rfl
  | none =>
    rw [symbolId_fresh known]
    cases recorded : s.lastUpdateId.lookup s.nextSymbolId with
    | none => rfl
    | some id =>
      obtain ⟨other, found, -⟩ := tracks.carried _ id recorded
      exact absurd (tracks.below other _ found) (lt_irrefl _)

/-- A message is judged alike against what is recorded and against the newest id. -/
def JudgedAlike (recorded : Option Int) (newest firstId finalId : Int) : Prop :=
  match recorded with
  | none => newest < finalId ∧ firstId ≤ newest + 1
  | some last =>
    finalId ≤ last ∨ newest < finalId ∧ (firstId ≤ last + 1 ∨ newest + 1 < firstId)

omit [DecidableEq Key] in
/-- The recorded id is never above the newest one, and what is reported depends on it alone. -/
theorem judgedAgainst_of_recorded {recorded : Option Int} {firstId finalId newest : Int}
    (below : ∀ last, recorded = some last → last ≤ newest)
    (gap : s.Reports rawIndex .updateGap ↔
      ∃ last, recorded = some last ∧ last < finalId ∧ last + 1 < firstId)
    (stale : s.Reports rawIndex .staleUpdate ↔ ∃ last, recorded = some last ∧ finalId ≤ last) :
    s.JudgedAgainst rawIndex firstId finalId newest ↔
      JudgedAlike recorded newest firstId finalId := by
  unfold JudgedAgainst JudgedAlike
  rw [gap, stale]
  cases recorded with
  | none =>
    simp only [reduceCtorEq, false_and, exists_false, false_iff]
    omega
  | some last =>
    have bound := below last rfl
    simp only [Option.some.injEq, exists_eq_left']
    omega

/-- A diff with both of its ids, for a symbol that has had an id before, is judged against the
newest of these exactly where the recorded one, which a stale diff puts back, judges it alike. -/
theorem judgedAgainst_newest_iff {front back : List String} {line : String}
    {before result : Normaliser Key} {e : Envelope} {firstId finalId newest : Int}
    (start : normaliseLines py front = .ok before)
    (run : normaliseLines py (front ++ line :: back) = .ok result)
    (message : py.message line = some e) (diff : e.isDiff)
    (known : e.symbolKey py front.length = some symbol) (first : e.firstId = some firstId)
    (final : e.finalId = some finalId) (seen : py.newestId front symbol = some newest) :
    result.JudgedAgainst front.length firstId finalId newest ↔
      JudgedAlike (before.recordedId symbol) newest firstId finalId := by
  have tracks : Tracks before (py.lineIds front.zipIdx) := by
    have fresh : Tracks ({} : Normaliser Key) [] := Tracks.start
    simpa only [List.nil_append] using tracks_run fresh start
  have split : (front ++ line :: back).zipIdx =
      front.zipIdx ++ (line, front.length) :: back.zipIdx (front.length + 1) := by
    simp [List.zipIdx_append]
  unfold normaliseLines at run
  rw [split] at run
  obtain ⟨before', start', later⟩ := foldlM_append_ok.mp run
  obtain rfl : before = before' := Except.ok.inj (start.symm.trans start')
  obtain ⟨after, step, rest⟩ := bind_eq_ok.mp later
  obtain ⟨a, b, quiet, judged, quiet'⟩ := feedLine_diff message diff known first final step
  obtain ⟨-, -, -, told, eq, own, gap, stale⟩ := checkUpdate_judges judged
  have same : a.lastUpdateId.lookup (before.symbolId symbol).1 = before.recordedId symbol := by
    rw [quiet.lastUpdateId]
    exact lookup_symbolId tracks symbol
  rw [same] at gap stale
  obtain ⟨earlier, eq₀, kinds₀⟩ := quiet.diagnostics
  obtain ⟨later', eq₁, kinds₁⟩ := quiet'.diagnostics
  have all : after.diagnostics = before.diagnostics ++ (earlier ++ told ++ later') := by
    rw [eq₁, eq, eq₀, symbolId_diagnostics]
    simp
  have mine : ∀ d ∈ earlier ++ told ++ later', d.rawIndex = front.length := by
    intro d hd
    simp only [List.mem_append] at hd
    rcases hd with (hd | hd) | hd
    · exact (kinds₀ d hd).1
    · exact own d hd
    · exact (kinds₁ d hd).1
  have reports (reason : Reason) (kind : reason = .updateGap ∨ reason = .staleUpdate) :
      result.Reports front.length reason ↔ ∃ d ∈ told, d.reason = reason := by
    rw [reports_line start rest all mine]
    constructor
    · rintro ⟨d, hd, rfl⟩
      simp only [List.mem_append] at hd
      rcases hd with (hd | hd) | hd
      · have other := (kinds₀ d hd).2
        simp_all
      · exact ⟨d, hd, rfl⟩
      · have other := (kinds₁ d hd).2
        simp_all
    · rintro ⟨d, hd, is⟩
      exact ⟨d, by simp [hd], is⟩
  apply judgedAgainst_of_recorded
  · intro last recorded
    obtain ⟨sid, found, looked⟩ := Option.bind_eq_some_iff.mp recorded
    have carried : last ∈ (((py.lineIds front.zipIdx).filter (·.1 = symbol)).map (·.2)) := by
      rw [List.mem_map]
      exact ⟨(symbol, last), by simp [tracks.recorded found looked], rfl⟩
    exact (List.max?_eq_some_iff.mp seen).2 last carried
  · exact (reports _ (.inl rfl)).trans gap
  · exact (reports _ (.inr rfl)).trans stale

def depthUpdate (firstId finalId : Int) : Json :=
  .object [("e", .string "depthUpdate"), ("E", .int 1), ("s", .string "X"), ("U", .int firstId),
    ("u", .int finalId), ("b", .array []), ("a", .array [])]

def depthUpdateText (firstId finalId : String) : String :=
  "\x7b\"e\":\"depthUpdate\",\"E\":1,\"s\":\"X\",\"U\":" ++ firstId ++ ",\"u\":" ++ finalId ++
    ",\"b\":[],\"a\":[]\x7d"

def diffPython : Python String where
  strip text := text
  loads text :=
    if text = depthUpdateText "10" "10" then .value (depthUpdate 10 10)
    else if text = depthUpdateText "5" "5" then .value (depthUpdate 5 5)
    else if text = depthUpdateText "6" "7" then .value (depthUpdate 6 7)
    else .decodeError "Expecting value"
  decimal _ := none
  strOther _ := throw .recursionError
  repr _ := throw .recursionError
  reprString text := text
  key _ value :=
    match value with
    | .string text => some text
    | _ => none

def staleLines : List String := [depthUpdateText "10" "10", depthUpdateText "5" "5"]

/-- The third diff is judged alike only if it is newer than the first one. -/
theorem judgedAgainst_behind_stale :
    ∃ before result, normaliseLines diffPython staleLines = .ok before ∧
      normaliseLines diffPython (staleLines ++ depthUpdateText "6" "7" :: []) = .ok result ∧
      (JudgedAgainst result 2 6 7 10 ↔ JudgedAlike (before.recordedId "X") 10 6 7) := by
  have before : (normaliseLines diffPython staleLines).toOption.map (·.seq) = some 0 := by
    decide +kernel
  have result : (normaliseLines diffPython
      (staleLines ++ depthUpdateText "6" "7" :: [])).toOption.map (·.seq) = some 0 := by
    decide +kernel
  obtain ⟨before, start, -⟩ := toOption_map_eq_some.mp before
  obtain ⟨result, run, -⟩ := toOption_map_eq_some.mp result
  refine ⟨before, result, start, run, ?_⟩
  exact judgedAgainst_newest_iff start run (e := .unwrap _) rfl (by decide) rfl rfl rfl
    (by decide +kernel)

/-- Behind a stale diff, one that is stale as well is not reported. -/
theorem stale_unreported :
    ∃ e result, diffPython.message (depthUpdateText "6" "7") = some e ∧ e.isDiff ∧
      e.symbolKey diffPython 2 = some "X" ∧ e.firstId = some 6 ∧ e.finalId = some 7 ∧
      normaliseLines diffPython (staleLines ++ depthUpdateText "6" "7" :: []) = .ok result ∧
      diffPython.newestId staleLines "X" = some 10 ∧ ¬ JudgedAgainst result 2 6 7 10 := by
  have told : (normaliseLines diffPython
      (staleLines ++ depthUpdateText "6" "7" :: [])).toOption.map (·.diagnostics) =
        some [⟨1, .warning, .staleUpdate, "u=5 <= last_u=10"⟩] := by
    decide +kernel
  obtain ⟨result, run, told⟩ := toOption_map_eq_some.mp told
  refine ⟨.unwrap _, result, rfl, by decide, rfl, rfl, rfl, run, by decide +kernel, ?_⟩
  rintro ⟨-, stale⟩
  obtain ⟨d, mem, at_line, -⟩ := stale.mpr (by decide)
  rw [told] at mem
  obtain rfl := List.mem_singleton.mp mem
  exact absurd at_line (by decide)

end Normaliser
end Asterion
