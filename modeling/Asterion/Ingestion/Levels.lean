import Asterion.Ingestion.Messages

/-! The levels of a message: how a level is read, what a diff and a snapshot make of the reading, and
the part of the state that this depends on. -/
namespace Asterion
open Lib.Exceptions Lib.Along

/-- A level as its two texts are read. -/
inductive LevelReading where
  | badPrice
  | badQuantity
  | remove (price : Int)
  | set (price qty : Int)
  deriving DecidableEq, Repr

namespace Python
variable {Key : Type} (py : Python Key)

def reading (price qty : Option Int) : LevelReading :=
  match price with
  | none => .badPrice
  | some p =>
    if p ≤ 0 then .badPrice
    else
      match qty with
      | none => .badQuantity
      | some q => if q < 0 then .badQuantity else if q = 0 then .remove p else .set p q

def readLevel (level : String × String) : Py LevelReading := do
  let price ← py.toTicks level.1 priceScale
  let qty ← py.toTicks level.2 qtyScale
  pure (reading price qty)

def setBy (level : Side × String × String) : Option (Side × Int × Int) :=
  match py.readLevel level.2 with
  | .ok (.set p q) => some (level.1, p, q)
  | _ => none

/-- The bids and the asks under two fields of a message, in the order they are applied in. -/
def sidedLevels (msg : List (String × Json)) (bids asks : String) :
    Py (List (Side × String × String)) := do
  let bids ← py.iterLevels (Json.get msg bids) true
  let asks ← py.iterLevels (Json.get msg asks) false
  pure (bids.map (Side.buy, ·) ++ asks.map (Side.sell, ·))

variable {py} {level : String × String}

theorem reading_set {price qty : Option Int} {p q : Int} (h : reading price qty = .set p q) :
    0 < p ∧ 0 < q := by
  unfold reading at h
  split at h
  · cases h
  · split at h
    · cases h
    · split at h
      · cases h
      · split at h
        · cases h
        · split at h
          · cases h
          · cases h
            omega

theorem reading_remove {price qty : Option Int} {p : Int} (h : reading price qty = .remove p) :
    0 < p := by
  unfold reading at h
  split at h
  · cases h
  · split at h
    · cases h
    · split at h
      · cases h
      · split at h
        · cases h
        · split at h
          · cases h
            omega
          · cases h

theorem readLevel_eq_ok {r : LevelReading} (h : py.readLevel level = .ok r) :
    ∃ price qty, py.toTicks level.1 priceScale = .ok price ∧
      py.toTicks level.2 qtyScale = .ok qty ∧ r = reading price qty := by
  simp only [readLevel, bind_eq_ok] at h
  obtain ⟨price, first, qty, second, rest⟩ := h
  exact ⟨price, qty, first, second, (pure_eq_ok.mp rest).symm⟩

theorem readLevel_set {p q : Int} (h : py.readLevel level = .ok (.set p q)) : 0 < p ∧ 0 < q := by
  obtain ⟨price, qty, -, -, eq⟩ := readLevel_eq_ok h
  exact reading_set eq.symm

theorem readLevel_remove {p : Int} (h : py.readLevel level = .ok (.remove p)) : 0 < p := by
  obtain ⟨price, qty, -, -, eq⟩ := readLevel_eq_ok h
  exact reading_remove eq.symm

theorem setBy_positive {level : Side × String × String} {set : Side × Int × Int}
    (h : py.setBy level = some set) : 0 < set.2.1 ∧ 0 < set.2.2 := by
  unfold setBy at h
  split at h
  · rename_i p q read
    obtain rfl := Option.some.inj h
    exact readLevel_set read
  · cases h

end Python

namespace Normaliser
variable {Key : Type} {py : Python Key} {rawIndex : Nat} {tsNs : Int} {symbolId : Nat}

def applySided (py : Python Key) (rawIndex : Nat) (tsNs : Int) (symbolId : Nat)
    (s : Normaliser Key) (level : Side × String × String) : Py (Normaliser Key) :=
  applyLevel py rawIndex tsNs symbolId level.1 s level.2

theorem applySided_eq (s : Normaliser Key) (level : Side × String × String) :
    applySided py rawIndex tsNs symbolId s level = py.readLevel level.2 >>= fun r =>
      match r with
      | .badPrice => pure (s.invalidPrice py rawIndex level.2.1)
      | .badQuantity =>
        pure (s.diag rawIndex .error .invalidQuantity ("qty=" ++ py.reprString level.2.2))
      | .remove p => s.removeLevel rawIndex tsNs (symbolId, level.1, p)
      | .set p q => pure (s.setLevel tsNs (symbolId, level.1, p) q) := by
  unfold applySided applyLevel Python.readLevel
  cases py.toTicks level.2.1 priceScale with
  | error e => rfl
  | ok price =>
    cases py.toTicks level.2.2 qtyScale with
    | error e => rfl
    | ok qty =>
      cases price with
      | none => rfl
      | some p =>
        by_cases low : p ≤ 0
        · simp [low, Python.reading, bind, Except.bind, pure, Except.pure]
        · cases qty with
          | none => simp [low, Python.reading, bind, Except.bind, pure, Except.pure]
          | some q =>
            by_cases negative : q < 0
            · simp [low, negative, Python.reading, bind, Except.bind, pure, Except.pure]
            · by_cases zero : q = 0
              · simp [low, zero, Python.reading, bind, Except.bind, pure, Except.pure]
              · simp [low, negative, zero, Python.reading, bind, Except.bind, pure, Except.pure]

def collectSided (py : Python Key) (rawIndex : Nat)
    (c : Normaliser Key × List (Side × Int × Int)) (level : Side × String × String) :
    Py (Normaliser Key × List (Side × Int × Int)) :=
  collectLevel py rawIndex level.1 c level.2

theorem collectSided_eq (c : Normaliser Key × List (Side × Int × Int))
    (level : Side × String × String) :
    collectSided py rawIndex c level = py.readLevel level.2 >>= fun r =>
      match r with
      | .badPrice => pure (c.1.invalidPrice py rawIndex level.2.1, c.2)
      | .badQuantity => pure c
      | .remove _ => pure c
      | .set p q => pure (c.1, c.2 ++ [(level.1, p, q)]) := by
  unfold collectSided collectLevel Python.readLevel
  cases py.toTicks level.2.1 priceScale with
  | error e => rfl
  | ok price =>
    cases py.toTicks level.2.2 qtyScale with
    | error e => rfl
    | ok qty =>
      cases price with
      | none => rfl
      | some p =>
        by_cases low : p ≤ 0
        · simp [low, Python.reading, bind, Except.bind, pure, Except.pure]
        · cases qty with
          | none => simp [low, Python.reading, bind, Except.bind, pure, Except.pure]
          | some q =>
            by_cases negative : q < 0
            · have flat : q ≤ 0 := le_of_lt negative
              simp [low, negative, flat, Python.reading, bind, Except.bind, pure, Except.pure]
            · by_cases zero : q = 0
              · simp [low, zero, Python.reading, bind, Except.bind, pure, Except.pure]
              · have above : ¬ q ≤ 0 := by omega
                simp [low, negative, zero, above, Python.reading, bind, Except.bind, pure,
                  Except.pure]

/-- Two states of the same book: the same levels with the same orders, and the same events, numbers
and symbols given so far. Diagnostics, times and update ids may differ. -/
structure Alike (s t : Normaliser Key) : Prop where
  events : t.events = s.events
  seq : t.seq = s.seq
  nextOrderId : t.nextOrderId = s.nextOrderId
  active : t.active = s.active
  levels : t.levels = s.levels
  symbolIds : t.symbolIds = s.symbolIds
  nextSymbolId : t.nextSymbolId = s.nextSymbolId

namespace Alike
variable {s t u : Normaliser Key}

theorem refl (s : Normaliser Key) : Alike s s := ⟨rfl, rfl, rfl, rfl, rfl, rfl, rfl⟩

theorem symm (h : Alike s t) : Alike t s :=
  ⟨h.events.symm, h.seq.symm, h.nextOrderId.symm, h.active.symm, h.levels.symm, h.symbolIds.symm,
    h.nextSymbolId.symm⟩

theorem trans (first : Alike s t) (second : Alike t u) : Alike s u :=
  ⟨second.events.trans first.events, second.seq.trans first.seq,
    second.nextOrderId.trans first.nextOrderId, second.active.trans first.active,
    second.levels.trans first.levels, second.symbolIds.trans first.symbolIds,
    second.nextSymbolId.trans first.nextSymbolId⟩

theorem diag (s : Normaliser Key) (severity : Severity) (reason : Reason) (detail : String) :
    Alike s (s.diag rawIndex severity reason detail) :=
  ⟨rfl, rfl, rfl, rfl, rfl, rfl, rfl⟩

theorem counted (s : Normaliser Key) : Alike s s.counted := ⟨rfl, rfl, rfl, rfl, rfl, rfl, rfl⟩

theorem timed (s : Normaliser Key) (symbolId : Nat) (tsNs : Int) :
    Alike s (s.timed symbolId tsNs) := ⟨rfl, rfl, rfl, rfl, rfl, rfl, rfl⟩

theorem reportEventTime (h : s.reportEventTime rawIndex symbolId tsNs = .ok t) : Alike s t := by
  unfold Normaliser.reportEventTime at h
  split at h
  · split at h
    · simp only [bind_eq_ok] at h
      obtain ⟨_, -, _, -, h⟩ := h
      obtain rfl := pure_eq_ok.mp h
      exact diag _ _ _ _
    · obtain rfl := pure_eq_ok.mp h
      exact refl s
  · obtain rfl := pure_eq_ok.mp h
    exact refl s

theorem checkEventTime (h : s.checkEventTime rawIndex symbolId tsNs = .ok t) : Alike s t := by
  simp only [Normaliser.checkEventTime, bind_eq_ok] at h
  obtain ⟨a, reported, h⟩ := h
  obtain rfl := pure_eq_ok.mp h
  exact (reportEventTime reported).trans ⟨rfl, rfl, rfl, rfl, rfl, rfl, rfl⟩

theorem reportUpdate {firstId finalId : Int}
    (h : s.reportUpdate rawIndex symbolId firstId finalId = .ok t) : Alike s t := by
  unfold Normaliser.reportUpdate at h
  split at h
  · split at h
    · simp only [bind_eq_ok] at h
      obtain ⟨_, -, _, -, h⟩ := h
      obtain rfl := pure_eq_ok.mp h
      exact diag _ _ _ _
    · split at h
      · simp only [bind_eq_ok] at h
        obtain ⟨_, -, _, -, h⟩ := h
        obtain rfl := pure_eq_ok.mp h
        exact diag _ _ _ _
      · obtain rfl := pure_eq_ok.mp h
        exact refl s
  · obtain rfl := pure_eq_ok.mp h
    exact refl s

theorem checkUpdate {firstId finalId : Option Int}
    (h : s.checkUpdate rawIndex symbolId firstId finalId = .ok t) : Alike s t := by
  unfold Normaliser.checkUpdate at h
  split at h
  · simp only [bind_eq_ok] at h
    obtain ⟨a, reported, h⟩ := h
    obtain rfl := pure_eq_ok.mp h
    exact (reportUpdate reported).trans ⟨rfl, rfl, rfl, rfl, rfl, rfl, rfl⟩
  · obtain rfl := pure_eq_ok.mp h
    exact refl s

theorem checkSnapshotId {lastId : Option Int}
    (h : s.checkSnapshotId rawIndex symbolId lastId = .ok t) : Alike s t := by
  unfold Normaliser.checkSnapshotId at h
  split at h
  · simp only [bind_eq_ok] at h
    obtain ⟨a, reported, h⟩ := h
    obtain rfl := pure_eq_ok.mp h
    have told : Alike s a := by
      unfold reportSnapshotId at reported
      split at reported
      · split at reported
        · simp only [bind_eq_ok] at reported
          obtain ⟨_, -, _, -, reported⟩ := reported
          obtain rfl := pure_eq_ok.mp reported
          exact diag _ _ _ _
        · obtain rfl := pure_eq_ok.mp reported
          exact refl s
      · obtain rfl := pure_eq_ok.mp reported
        exact refl s
    exact told.trans ⟨rfl, rfl, rfl, rfl, rfl, rfl, rfl⟩
  · obtain rfl := pure_eq_ok.mp h
    exact refl s

theorem checkCrossed (h : s.checkCrossed rawIndex symbolId = .ok t) : Alike s t := by
  unfold Normaliser.checkCrossed at h
  split at h
  · split at h
    · simp only [bind_eq_ok] at h
      obtain ⟨_, -, _, -, h⟩ := h
      obtain rfl := pure_eq_ok.mp h
      exact diag _ _ _ _
    · obtain rfl := pure_eq_ok.mp h
      exact refl s
  · obtain rfl := pure_eq_ok.mp h
    exact refl s

theorem setLevel (h : Alike s t) (key : LevelKey) (qty : Int) :
    Alike (s.setLevel tsNs key qty) (t.setLevel tsNs key qty) := by
  unfold Normaliser.setLevel
  rw [h.active, h.nextOrderId, h.levels]
  cases s.active.lookup key with
  | none =>
    exact ⟨by simp [emit, h.events, h.seq], by simp [emit, h.seq], rfl, rfl, rfl, h.symbolIds,
      h.nextSymbolId⟩
  | some orderId =>
    exact ⟨by simp [emit, h.events, h.seq], by simp [emit, h.seq], rfl, rfl, rfl, h.symbolIds,
      h.nextSymbolId⟩

theorem removeLevel (h : Alike s t) {key : LevelKey} {s' : Normaliser Key}
    (removed : s.removeLevel rawIndex tsNs key = .ok s') :
    ∃ t', t.removeLevel rawIndex tsNs key = .ok t' ∧ Alike s' t' := by
  unfold Normaliser.removeLevel at removed ⊢
  rw [h.active, h.levels]
  cases found : s.active.lookup key with
  | none =>
    simp only [found, bind_eq_ok, pure_eq_ok] at removed ⊢
    obtain ⟨price, shown, rfl⟩ := removed
    exact ⟨_, ⟨price, shown, rfl⟩, h.events, h.seq, h.nextOrderId, rfl, rfl, h.symbolIds,
      h.nextSymbolId⟩
  | some orderId =>
    simp only [found, pure_eq_ok] at removed ⊢
    subst removed
    exact ⟨_, rfl, by simp [emit, h.events, h.seq], by simp [emit, h.seq], h.nextOrderId, rfl, rfl,
      h.symbolIds, h.nextSymbolId⟩

theorem applySided (h : Alike s t) {level : Side × String × String} {s' : Normaliser Key}
    (applied : applySided py rawIndex tsNs symbolId s level = .ok s') :
    ∃ t', Normaliser.applySided py rawIndex tsNs symbolId t level = .ok t' ∧ Alike s' t' := by
  rw [applySided_eq] at applied ⊢
  obtain ⟨r, read, done⟩ := bind_eq_ok.mp applied
  simp only [read, bind_eq_ok, Except.ok.injEq, exists_eq_left']
  cases r with
  | badPrice =>
    obtain rfl := pure_eq_ok.mp done
    exact ⟨_, pure_eq_ok.mpr rfl, h.events, h.seq, h.nextOrderId, h.active, h.levels, h.symbolIds,
      h.nextSymbolId⟩
  | badQuantity =>
    obtain rfl := pure_eq_ok.mp done
    exact ⟨_, pure_eq_ok.mpr rfl, h.events, h.seq, h.nextOrderId, h.active, h.levels, h.symbolIds,
      h.nextSymbolId⟩
  | remove p => exact h.removeLevel done
  | set p q =>
    obtain rfl := pure_eq_ok.mp done
    exact ⟨_, pure_eq_ok.mpr rfl, h.setLevel _ _⟩

theorem applyLevels (h : Alike s t) {levels : List (Side × String × String)} {s' : Normaliser Key}
    (run : levels.foldlM (Normaliser.applySided py rawIndex tsNs symbolId) s = .ok s') :
    ∃ t', levels.foldlM (Normaliser.applySided py rawIndex tsNs symbolId) t = .ok t' ∧
      Alike s' t' := by
  have related (a b : Normaliser Key) (level : Side × String × String) (a' : Normaliser Key)
      (same : Alike a b) (step : Normaliser.applySided py rawIndex tsNs symbolId a level = .ok a') :
      ∃ b', Normaliser.applySided py rawIndex tsNs symbolId b level = .ok b' ∧ Alike a' b' :=
    same.applySided step
  exact foldlM_related related h run

end Alike
variable {s t : Normaliser Key} {msg : List (String × Json)}

theorem foldlM_applySided {bids asks : List (String × String)} :
    (bids.map (Side.buy, ·) ++ asks.map (Side.sell, ·)).foldlM
        (applySided py rawIndex tsNs symbolId) s = .ok t ↔
      ∃ u, bids.foldlM (applyLevel py rawIndex tsNs symbolId .buy) s = .ok u ∧
        asks.foldlM (applyLevel py rawIndex tsNs symbolId .sell) u = .ok t := by
  rw [foldlM_append_ok]
  simp only [List.foldlM_map]
  rfl

theorem foldlM_collectSided {bids asks : List (String × String)}
    {c d : Normaliser Key × List (Side × Int × Int)} :
    (bids.map (Side.buy, ·) ++ asks.map (Side.sell, ·)).foldlM (collectSided py rawIndex) c =
        .ok d ↔
      ∃ u, bids.foldlM (collectLevel py rawIndex .buy) c = .ok u ∧
        asks.foldlM (collectLevel py rawIndex .sell) u = .ok d := by
  rw [foldlM_append_ok]
  simp only [List.foldlM_map]
  rfl

/-- Levels that are collected change nothing but the diagnostics, and those that would be set are
collected. -/
theorem collected {levels : List (Side × String × String)}
    {c d : Normaliser Key × List (Side × Int × Int)}
    (run : levels.foldlM (collectSided py rawIndex) c = .ok d) :
    Alike c.1 d.1 ∧ d.2 = c.2 ++ levels.filterMap py.setBy := by
  induction levels generalizing c with
  | nil =>
    obtain rfl := pure_eq_ok.mp run
    exact ⟨.refl _, by simp⟩
  | cons level levels ih =>
    obtain ⟨u, first, rest⟩ := bind_eq_ok.mp run
    obtain ⟨kept, all⟩ := ih rest
    rw [collectSided_eq] at first
    obtain ⟨r, read, first⟩ := bind_eq_ok.mp first
    cases r with
    | badPrice =>
      obtain rfl := pure_eq_ok.mp first
      exact ⟨(Alike.diag _ _ _ _).trans kept, by simp [all, Python.setBy, read]⟩
    | badQuantity =>
      obtain rfl := pure_eq_ok.mp first
      exact ⟨kept, by simp [all, Python.setBy, read]⟩
    | remove p =>
      obtain rfl := pure_eq_ok.mp first
      exact ⟨kept, by simp [all, Python.setBy, read]⟩
    | set p q =>
      obtain rfl := pure_eq_ok.mp first
      exact ⟨kept, by simp [all, Python.setBy, read]⟩

/-- The book of a symbol is replaced by the levels of a snapshot. -/
def rebuild (s : Normaliser Key) (tsNs : Int) (symbolId : Nat) (levels : List (Side × Int × Int)) :
    Normaliser Key :=
  (levels.foldl (emitSnapshotLevel tsNs symbolId)
    ((s.dropSymbol symbolId).emit (snapshotMarker tsNs symbolId snapshotBeginFlag))).emit
      (snapshotMarker tsNs symbolId snapshotEndFlag)

theorem Alike.emit (h : Alike s t) {event other : NormEvent} (same : event = other) :
    Alike (s.emit event) (t.emit other) := by
  subst same
  unfold Normaliser.emit
  exact ⟨by simp [h.events, h.seq], by simp [h.seq], h.nextOrderId, h.active, h.levels, h.symbolIds,
    h.nextSymbolId⟩

theorem Alike.dropSymbol (h : Alike s t) (symbolId : Nat) :
    Alike (s.dropSymbol symbolId) (t.dropSymbol symbolId) := by
  unfold Normaliser.dropSymbol
  rw [h.active]
  generalize s.active.entries.filter _ = entries
  induction entries generalizing s t with
  | nil => exact h
  | cons e entries ih =>
    refine ih ⟨h.events, h.seq, h.nextOrderId, ?_, ?_, h.symbolIds, h.nextSymbolId⟩
    · exact congrArg (AList.erase e.1) h.active
    · exact congrArg (AList.erase e.1) h.levels

theorem Alike.snapshotLevels (h : Alike s t) (levels : List (Side × Int × Int)) :
    Alike (levels.foldl (emitSnapshotLevel tsNs symbolId) s)
      (levels.foldl (emitSnapshotLevel tsNs symbolId) t) := by
  induction levels generalizing s t with
  | nil => exact h
  | cons level levels ih =>
    apply ih
    unfold emitSnapshotLevel
    have placed : Alike
        { s with
          nextOrderId := s.nextOrderId + 1
          active := s.active.insert (symbolId, level.1, level.2.1) s.nextOrderId
          levels := s.levels.insert (symbolId, level.1, level.2.1) level.2.2 }
        { t with
          nextOrderId := t.nextOrderId + 1
          active := t.active.insert (symbolId, level.1, level.2.1) t.nextOrderId
          levels := t.levels.insert (symbolId, level.1, level.2.1) level.2.2 } := by
      rw [h.nextOrderId, h.active, h.levels]
      exact ⟨h.events, h.seq, rfl, rfl, rfl, h.symbolIds, h.nextSymbolId⟩
    exact placed.emit (by rw [h.nextOrderId])

theorem Alike.rebuild (h : Alike s t) (levels : List (Side × Int × Int)) :
    Alike (s.rebuild tsNs symbolId levels) (t.rebuild tsNs symbolId levels) :=
  (((h.dropSymbol symbolId).emit rfl).snapshotLevels levels).emit rfl

/-- Dropping a symbol's levels leaves all but the levels and their orders. -/
theorem dropSymbol_eq (s : Normaliser Key) (symbolId : Nat) :
    ∃ active levels, s.dropSymbol symbolId = { s with active, levels } := by
  unfold dropSymbol
  generalize s.active.entries.filter _ = entries
  induction entries generalizing s with
  | nil => exact ⟨s.active, s.levels, rfl⟩
  | cons e entries ih =>
    exact ih { s with active := s.active.erase e.1, levels := s.levels.erase e.1 }

variable [DecidableEq Key] {symbol : Key}

/-- A diff returns where its checks, its levels and the check for crossing return, one after the
other. -/
theorem handleDiff_eq_ok :
    s.handleDiff py rawIndex msg symbol tsNs = .ok t ↔
      ∃ a b levels d, (s.symbolId symbol).2.checkEventTime rawIndex (s.symbolId symbol).1 tsNs = .ok a ∧
        a.checkUpdate rawIndex (s.symbolId symbol).1 ((Json.get msg "U").bind Json.asInt)
          ((Json.get msg "u").bind Json.asInt) = .ok b ∧
        py.sidedLevels msg "b" "a" = .ok levels ∧
        levels.foldlM (applySided py rawIndex tsNs (s.symbolId symbol).1) b = .ok d ∧
        d.checkCrossed rawIndex (s.symbolId symbol).1 = .ok t := by
  simp only [handleDiff, bind_eq_ok, Python.sidedLevels, pure_eq_ok]
  constructor
  · rintro ⟨a, time, b, update, bids, listed, c, bought, asks, listed', d, sold, crossed⟩
    exact ⟨a, b, _, d, time, update, ⟨bids, listed, asks, listed', rfl⟩,
      foldlM_applySided.mpr ⟨c, bought, sold⟩, crossed⟩
  · rintro ⟨a, b, levels, d, time, update, ⟨bids, listed, asks, listed', rfl⟩, run, crossed⟩
    obtain ⟨c, bought, sold⟩ := foldlM_applySided.mp run
    exact ⟨a, time, b, update, bids, listed, c, bought, asks, listed', d, sold, crossed⟩

theorem handleSnapshot_eq_ok :
    s.handleSnapshot py rawIndex msg symbol tsNs = .ok t ↔
      ∃ a levels d, (s.symbolId symbol).2.checkSnapshotId rawIndex (s.symbolId symbol).1
          ((Json.get msg "lastUpdateId").bind Json.asInt) = .ok a ∧
        py.sidedLevels msg "bids" "asks" = .ok levels ∧
        levels.foldlM (collectSided py rawIndex) (a, []) = .ok d ∧
        (d.1.rebuild tsNs (s.symbolId symbol).1 d.2).checkCrossed rawIndex (s.symbolId symbol).1 =
          .ok t := by
  simp only [handleSnapshot, bind_eq_ok, Python.sidedLevels, pure_eq_ok]
  constructor
  · rintro ⟨a, checked, bids, listed, c, bought, asks, listed', d, sold, crossed⟩
    exact ⟨a, _, d, checked, ⟨bids, listed, asks, listed', rfl⟩,
      foldlM_collectSided.mpr ⟨c, bought, sold⟩, crossed⟩
  · rintro ⟨a, levels, d, checked, ⟨bids, listed, asks, listed', rfl⟩, run, crossed⟩
    obtain ⟨c, bought, sold⟩ := foldlM_collectSided.mp run
    exact ⟨a, checked, bids, listed, c, bought, asks, listed', d, sold, crossed⟩

/-- The message of a line that reaches a handler, with its symbol. -/
def handled (py : Python Key) (line : String × Nat) : Option (Envelope × Key) :=
  (py.message line.1).bind fun e =>
    if e.isDiff || e.isSnapshot then (e.symbolKey py line.2).map fun symbol => (e, symbol) else none

theorem feedLine_handled {line : String} {e : Envelope}
    (h : handled py (line, rawIndex) = some (e, symbol)) :
    s.feedLine py rawIndex line =
      if e.isDiff then s.counted.handleDiff py rawIndex e.msg symbol (s.messageTime e symbol)
      else ((s.symbolId symbol).2.counted.timed (s.symbolId symbol).1
        (s.messageTime e symbol)).handleSnapshot py rawIndex e.msg symbol (s.messageTime e symbol) := by
  obtain ⟨e', message, rest⟩ := Option.bind_eq_some_iff.mp h
  split at rest
  · rename_i kind
    obtain ⟨symbol', known, eq⟩ := Option.map_eq_some_iff.mp rest
    obtain ⟨rfl, rfl⟩ := Prod.mk.inj eq
    rw [feedLine_message message]
    cases diff : e'.isDiff with
    | true =>
      rw [feedMessage_diff diff known, messageTime_counted]
      rfl
    | false =>
      have snapshot : e'.isSnapshot = true := by simpa [diff] using kind
      rw [feedMessage_snapshot diff snapshot known, messageTime_counted, symbolId_counted]
      rfl
  · cases rest

theorem feedLine_unhandled {line : String} (none : handled py (line, rawIndex) = none)
    (h : s.feedLine py rawIndex line = .ok t) : Alike s t := by
  cases message : py.message line with
  | some e =>
    rw [feedLine_message message] at h
    refine (Alike.counted s).trans ?_
    by_cases kind : e.isDiff ∨ e.isSnapshot
    · have unkeyed : e.symbolKey py rawIndex = .none := by
        simpa [handled, message, kind] using none
      rw [feedMessage_unkeyed kind unkeyed] at h
      split at h
      · obtain rfl := pure_eq_ok.mp h
        exact .diag _ _ _ _
      · exact absurd h throw_ne_ok
    · push Not at kind
      rw [feedMessage_unknown (by simpa using kind.1) (by simpa using kind.2)] at h
      obtain ⟨_, -, h⟩ := bind_eq_ok.mp h
      obtain rfl := pure_eq_ok.mp h
      exact .diag _ _ _ _
  | none =>
    unfold Python.message at message
    simp only [feedLine] at h
    split at h
    · obtain rfl := pure_eq_ok.mp h
      exact .refl s
    · rename_i shown
      split at h
      · exact absurd h throw_ne_ok
      · obtain rfl := pure_eq_ok.mp h
        exact ⟨rfl, rfl, rfl, rfl, rfl, rfl, rfl⟩
      · rename_i obj loaded
        split at h
        · obtain rfl := pure_eq_ok.mp h
          exact ⟨rfl, rfl, rfl, rfl, rfl, rfl, rfl⟩
        · rename_i plain
          simp [shown, loaded, plain] at message
      · obtain rfl := pure_eq_ok.mp h
        exact ⟨rfl, rfl, rfl, rfl, rfl, rfl, rfl⟩

end Normaliser
end Asterion
