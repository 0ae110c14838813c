import Asterion.Ingestion.Normaliser

/-! What a line comes to: the message it holds, the symbol and the time of the message, and the
handler it is passed to. -/
namespace Asterion
open Lib.Exceptions

def Envelope.symbolKey {Key : Type} (e : Envelope) (py : Python Key) (rawIndex : Nat) : Option Key :=
  e.symbol.bind (py.key rawIndex)

def Python.message {Key : Type} (py : Python Key) (line : String) : Option Envelope :=
  if py.strip line = "" then none
  else
    match py.loads (py.strip line) with
    | .value (.object obj) =>
      if Json.has obj "_meta" || Json.has obj "_fixture" then none else some (.unwrap obj)
    | _ => none

namespace Normaliser
variable {Key : Type} [DecidableEq Key] {py : Python Key} {rawIndex : Nat} {s : Normaliser Key}
  {symbol : Key} {e : Envelope}

def messageTime (s : Normaliser Key) (e : Envelope) (symbol : Key) : Int :=
  let own := if e.isDiff then ((Json.get e.msg "E").bind Json.asInt).map (· * 1000000) else none
  match own with
  | some tsNs => tsNs
  | none => e.tsHint.getD (s.syntheticTime symbol).1

def counted (s : Normaliser Key) : Normaliser Key :=
  { s with rawLineCount := s.rawLineCount + 1, rawMessageCount := s.rawMessageCount + 1 }

def timed (s : Normaliser Key) (symbolId : Nat) (tsNs : Int) : Normaliser Key :=
  { s with lastEventTime := s.lastEventTime.insert symbolId tsNs }

theorem symbolId_found {sid : Nat} (h : s.symbolIds.lookup symbol = some sid) :
    s.symbolId symbol = (sid, s) := by
  simp only [symbolId, h]

theorem symbolId_fresh (h : s.symbolIds.lookup symbol = none) :
    s.symbolId symbol = (s.nextSymbolId, { s with
      symbolIds := s.symbolIds.insert symbol s.nextSymbolId
      nextSymbolId := s.nextSymbolId + 1 }) := by
  simp only [symbolId, h]

theorem symbolId_lookup (s : Normaliser Key) (symbol : Key) :
    (s.symbolId symbol).2.symbolIds.lookup symbol = some (s.symbolId symbol).1 := by
  cases h : s.symbolIds.lookup symbol with
  | none => simp [symbolId, h]
  | some sid => simp [symbolId, h]

@[simp] theorem symbolId_symbolId (s : Normaliser Key) (symbol : Key) :
    (s.symbolId symbol).2.symbolId symbol = s.symbolId symbol :=
  symbolId_found (symbolId_lookup s symbol)

@[simp] theorem symbolId_timed (s : Normaliser Key) (symbol : Key) (tsNs : Int) :
    ((s.symbolId symbol).2.timed (s.symbolId symbol).1 tsNs).symbolId symbol =
      ((s.symbolId symbol).1, (s.symbolId symbol).2.timed (s.symbolId symbol).1 tsNs) :=
  symbolId_found (symbolId_lookup s symbol)

theorem symbolId_counted (s : Normaliser Key) (symbol : Key) :
    s.counted.symbolId symbol = ((s.symbolId symbol).1, (s.symbolId symbol).2.counted) := by
  cases known : s.symbolIds.lookup symbol with
  | none =>
    rw [symbolId_fresh known, symbolId_fresh (s := s.counted) known]
    rfl
  | some sid =>
    rw [symbolId_found known, symbolId_found (s := s.counted) known]

theorem messageTime_counted (s : Normaliser Key) (e : Envelope) (symbol : Key) :
    s.counted.messageTime e symbol = s.messageTime e symbol := by
  have same : (s.counted.syntheticTime symbol).1 = (s.syntheticTime symbol).1 := by
    unfold syntheticTime
    rw [symbolId_counted]
    rfl
  unfold messageTime
  rw [same]

theorem handleDiff_symbolId (s : Normaliser Key) (msg : List (String × Json)) (symbol : Key)
    (tsNs : Int) :
    (s.symbolId symbol).2.handleDiff py rawIndex msg symbol tsNs =
      s.handleDiff py rawIndex msg symbol tsNs := by
  simp only [handleDiff, symbolId_symbolId]

theorem feedMessage_diff (diff : e.isDiff) (known : e.symbolKey py rawIndex = some symbol) :
    s.feedMessage py rawIndex e =
      s.handleDiff py rawIndex e.msg symbol (s.messageTime e symbol) := by
  obtain ⟨value, found, hashed⟩ := Option.bind_eq_some_iff.mp known
  simp only [feedMessage, messageTime, diff, if_true, found, hashed]
  cases own : (Json.get e.msg "E").bind Json.asInt with
  | some eventTime => rfl
  | none =>
    cases hint : e.tsHint with
    | some tsNs => rfl
    | none => exact handleDiff_symbolId s e.msg symbol _

theorem feedMessage_snapshot (diff : e.isDiff = false) (snapshot : e.isSnapshot)
    (known : e.symbolKey py rawIndex = some symbol) :
    s.feedMessage py rawIndex e =
      ((s.symbolId symbol).2.timed (s.symbolId symbol).1 (s.messageTime e symbol)).handleSnapshot py
        rawIndex e.msg symbol (s.messageTime e symbol) := by
  obtain ⟨value, found, hashed⟩ := Option.bind_eq_some_iff.mp known
  simp only [feedMessage, messageTime, diff, snapshot, Bool.false_eq_true, if_true, if_false, found,
    hashed]
  cases hint : e.tsHint with
  | some tsNs => rfl
  | none =>
    simp only [syntheticTime, symbolId_symbolId]
    rfl

/-- A message without a symbol is reported, and one whose symbol is no key raises. -/
theorem feedMessage_unkeyed (kind : e.isDiff ∨ e.isSnapshot)
    (unkeyed : e.symbolKey py rawIndex = none) :
    s.feedMessage py rawIndex e =
      match e.symbol with
      | none => pure (s.diag rawIndex .error .missingFields
          (if e.isDiff then "no symbol" else "no symbol for snapshot"))
      | some _ => throw .typeError := by
  unfold feedMessage
  cases found : e.symbol with
  | none =>
    cases diff : e.isDiff with
    | true => rfl
    | false =>
      have snapshot : e.isSnapshot := by simpa [diff] using kind
      simp only [snapshot, Bool.false_eq_true, if_true, if_false]
  | some symbol =>
    have hashed : py.key rawIndex symbol = none := by
      simpa [Envelope.symbolKey, found] using unkeyed
    cases diff : e.isDiff with
    | true => simp only [if_true, hashed]
    | false =>
      have snapshot : e.isSnapshot := by simpa [diff] using kind
      simp only [snapshot, Bool.false_eq_true, if_true, if_false, hashed]

theorem feedMessage_unknown (diff : e.isDiff = false) (snapshot : e.isSnapshot = false) :
    s.feedMessage py rawIndex e =
      py.repr ((Json.get e.msg "e").getD (.string "unknown")) >>= fun shown =>
        pure (s.diag rawIndex .warning .unsupportedMessageType ("e=" ++ shown)) := by
  simp only [feedMessage, diff, snapshot, Bool.false_eq_true, if_false]

theorem feedLine_message {line : String} (message : py.message line = some e) :
    s.feedLine py rawIndex line = s.counted.feedMessage py rawIndex e := by
  unfold Python.message at message
  simp only [feedLine]
  split at message
  · cases message
  · rename_i shown
    simp only [shown, if_false]
    split at message
    · rename_i obj loaded
      simp only [loaded]
      split at message
      · cases message
      · rename_i plain
        obtain rfl := Option.some.inj message
        simp only [plain, Bool.false_eq_true, if_false]
        rfl
    · cases message

end Normaliser
end Asterion
