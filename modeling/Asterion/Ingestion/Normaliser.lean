import Mathlib.Data.List.AList
import Mathlib.Data.List.Sort
import Asterion.Ingestion.Python
import Asterion.MarketData.Event

/-! The normaliser of recorded Binance depth messages: one pass over raw lines that keeps the
resting levels of every symbol and emits replay events for their changes. -/
namespace Asterion

def priceScale : Nat := 100000000
def qtyScale : Nat := 100000000

inductive Severity where
  | info | warning | error
  deriving DecidableEq, Repr

inductive Reason where
  | malformedMessage | missingFields | unsupportedMessageType | nonMonotonicEventTime | updateGap
  | staleUpdate | crossedBook | invalidPrice | invalidQuantity | levelRemoveAbsent
  deriving DecidableEq, Repr

/-- A normalised event, with unbounded integers for fields. -/
structure NormEvent where
  timestampNs : Int
  sequenceNumber : Nat := 0
  symbolId : Nat
  eventType : MarketEventType
  side : Side
  priceTicks : Int := 0
  quantity : Int := 0
  orderId : Nat := 0
  tradeId : Nat := 0
  flags : Nat := 0
  deriving DecidableEq, Repr

structure NormalisationDiagnostic where
  rawIndex : Nat
  severity : Severity
  reason : Reason
  detail : String := ""
  deriving DecidableEq, Repr

abbrev LevelKey := Nat × Side × Int

/-- The state of the pass, the result included. -/
structure Normaliser (Key : Type) where
  events : List NormEvent := []
  diagnostics : List NormalisationDiagnostic := []
  metadata : List Json := []
  symbolIds : AList (fun _ : Key => Nat) := ∅
  rawMessageCount : Nat := 0
  rawLineCount : Nat := 0
  seq : Nat := 0
  nextOrderId : Nat := 1
  active : AList (fun _ : LevelKey => Nat) := ∅
  levels : AList (fun _ : LevelKey => Int) := ∅
  lastUpdateId : AList (fun _ : Nat => Int) := ∅
  lastEventTime : AList (fun _ : Nat => Int) := ∅
  nextSymbolId : Nat := 1

namespace Python
variable {Key : Type} (py : Python Key)

/-- `_to_ticks`: nothing where `Decimal` or `int` raise an exception that is caught. -/
def toTicks (value : String) (scale : Nat) : Py (Option Int) :=
  match py.decimal value with
  | none => pure none
  | some decimal =>
    match decimal.toScaledInt scale with
    | .ok ticks => pure (some ticks)
    | .error .invalidOperation => pure none
    | .error .valueError => pure none
    | .error exception => throw exception

/-- The sort key of a level, zero where its price is no decimal. -/
def levelKey (item : String × String) : Decimal := (py.decimal item.1).getD (.finite false 0 0)

/-- The first two entries of a level, as texts; other entries are dropped. -/
def levelTexts : Json → Py (List (String × String))
  | .array (price :: qty :: _) => do
    let price ← py.str price
    let qty ← py.str qty
    pure [(price, qty)]
  | _ => pure []

/-- A stable sort, which compares a NaN as soon as there are two items. -/
def sortLevels (out : List (String × String)) (descending : Bool) : Py (List (String × String)) :=
  if 2 ≤ out.length ∧ out.any (fun item => (py.levelKey item).isNan) then throw .invalidOperation
  else
    pure (out.insertionSort (fun a b =>
      if descending then (py.levelKey b).le (py.levelKey a) else (py.levelKey a).le (py.levelKey b)))

def iterLevels (levels : Option Json) (descending : Bool) : Py (List (String × String)) :=
  match levels with
  | some (.array entries) => do
    let out ← entries.mapM py.levelTexts
    py.sortLevels out.flatten descending
  | _ => pure []

end Python

namespace Normaliser
variable {Key : Type}

/-- `_symbol_id`: ids are given in the order symbols are first seen. -/
def symbolId [DecidableEq Key] (s : Normaliser Key) (symbol : Key) : Nat × Normaliser Key :=
  match s.symbolIds.lookup symbol with
  | some sid => (sid, s)
  | none =>
    (s.nextSymbolId, { s with
      symbolIds := s.symbolIds.insert symbol s.nextSymbolId
      nextSymbolId := s.nextSymbolId + 1 })

def diag (s : Normaliser Key) (rawIndex : Nat) (severity : Severity) (reason : Reason)
    (detail : String := "") : Normaliser Key :=
  { s with diagnostics := s.diagnostics ++ [⟨rawIndex, severity, reason, detail⟩] }

def emit (s : Normaliser Key) (event : NormEvent) : Normaliser Key :=
  { s with
    seq := s.seq + 1
    events := s.events ++ [{ event with sequenceNumber := s.seq + 1 }] }

def prices (s : Normaliser Key) (symbolId : Nat) (side : Side) : List Int :=
  (s.levels.entries.filter (fun e =>
    e.1.1 = symbolId ∧ e.1.2.1 = side ∧ 0 < e.2)).map (fun e => e.1.2.2)

def bestBidAsk (s : Normaliser Key) (symbolId : Nat) : Option Int × Option Int :=
  ((s.prices symbolId .buy).max?, (s.prices symbolId .sell).min?)

def checkCrossed (s : Normaliser Key) (rawIndex symbolId : Nat) : Py (Normaliser Key) :=
  match s.bestBidAsk symbolId with
  | (some bestBid, some bestAsk) =>
    if bestBid ≥ bestAsk then do
      let bid ← formatInt bestBid
      let ask ← formatInt bestAsk
      pure (s.diag rawIndex .warning .crossedBook ("best_bid=" ++ bid ++ " >= best_ask=" ++ ask))
    else pure s
  | _ => pure s

def sideCode (side : Side) : String := toString side.toByte

def removeLevel (s : Normaliser Key) (rawIndex : Nat) (tsNs : Int) (key : LevelKey) :
    Py (Normaliser Key) :=
  let orderId := s.active.lookup key
  let s := { s with active := s.active.erase key, levels := s.levels.erase key }
  match orderId with
  | none => do
    let price ← formatInt key.2.2
    pure (s.diag rawIndex .info .levelRemoveAbsent
      ("side=" ++ sideCode key.2.1 ++ " price_ticks=" ++ price))
  | some orderId =>
    pure (s.emit { timestampNs := tsNs, symbolId := key.1, eventType := .cancel, side := key.2.1
                   priceTicks := key.2.2, orderId })

def setLevel (s : Normaliser Key) (tsNs : Int) (key : LevelKey) (qty : Int) : Normaliser Key :=
  match s.active.lookup key with
  | none =>
    let orderId := s.nextOrderId
    let s := { s with
      nextOrderId := s.nextOrderId + 1
      active := s.active.insert key orderId
      levels := s.levels.insert key qty }
    s.emit { timestampNs := tsNs, symbolId := key.1, eventType := .add, side := key.2.1
             priceTicks := key.2.2, quantity := qty, orderId }
  | some orderId =>
    let s := { s with levels := s.levels.insert key qty }
    s.emit { timestampNs := tsNs, symbolId := key.1, eventType := .replace, side := key.2.1
             priceTicks := key.2.2, quantity := qty, orderId }

def invalidPrice (s : Normaliser Key) (py : Python Key) (rawIndex : Nat) (price : String) :
    Normaliser Key :=
  s.diag rawIndex .error .invalidPrice ("price=" ++ py.reprString price)

def applyLevel (py : Python Key) (rawIndex : Nat) (tsNs : Int) (symbolId : Nat) (side : Side)
    (s : Normaliser Key) (level : String × String) : Py (Normaliser Key) := do
  let priceTicks ← py.toTicks level.1 priceScale
  let qty ← py.toTicks level.2 qtyScale
  match priceTicks, qty with
  | none, _ => pure (s.invalidPrice py rawIndex level.1)
  | some p, qty =>
    if p ≤ 0 then pure (s.invalidPrice py rawIndex level.1)
    else
      match qty with
      | none => pure (s.diag rawIndex .error .invalidQuantity ("qty=" ++ py.reprString level.2))
      | some q =>
        if q < 0 then pure (s.diag rawIndex .error .invalidQuantity ("qty=" ++ py.reprString level.2))
        else if q = 0 then s.removeLevel rawIndex tsNs (symbolId, side, p)
        else pure (s.setLevel tsNs (symbolId, side, p) q)

def reportEventTime (s : Normaliser Key) (rawIndex symbolId : Nat) (tsNs : Int) :
    Py (Normaliser Key) :=
  match s.lastEventTime.lookup symbolId with
  | some lastTs =>
    if tsNs < lastTs then do
      let ts ← formatInt tsNs
      let last ← formatInt lastTs
      pure (s.diag rawIndex .warning .nonMonotonicEventTime (ts ++ " < " ++ last))
    else pure s
  | none => pure s

/-- The check of the event time of a diff, which becomes the last one. -/
def checkEventTime (s : Normaliser Key) (rawIndex symbolId : Nat) (tsNs : Int) :
    Py (Normaliser Key) := do
  let s ← s.reportEventTime rawIndex symbolId tsNs
  pure { s with lastEventTime := s.lastEventTime.insert symbolId tsNs }

def reportUpdate (s : Normaliser Key) (rawIndex symbolId : Nat) (firstId finalId : Int) :
    Py (Normaliser Key) :=
  match s.lastUpdateId.lookup symbolId with
  | some lastU =>
    if finalId ≤ lastU then do
      let final ← formatInt finalId
      let last ← formatInt lastU
      pure (s.diag rawIndex .warning .staleUpdate ("u=" ++ final ++ " <= last_u=" ++ last))
    else if firstId > lastU + 1 then do
      let first ← formatInt firstId
      let expected ← formatInt (lastU + 1)
      pure (s.diag rawIndex .warning .updateGap ("U=" ++ first ++ " expected " ++ expected))
    else pure s
  | none => pure s

/-- The check of the update ids of a diff, the final one of which becomes the last one. -/
def checkUpdate (s : Normaliser Key) (rawIndex symbolId : Nat) (firstId finalId : Option Int) :
    Py (Normaliser Key) :=
  match firstId, finalId with
  | some firstId, some finalId => do
    let s ← s.reportUpdate rawIndex symbolId firstId finalId
    pure { s with lastUpdateId := s.lastUpdateId.insert symbolId finalId }
  | _, _ => pure s

def handleDiff [DecidableEq Key] (py : Python Key) (s : Normaliser Key) (rawIndex : Nat)
    (msg : List (String × Json)) (symbol : Key) (tsNs : Int) : Py (Normaliser Key) := do
  let (symbolId, s) := s.symbolId symbol
  let s ← s.checkEventTime rawIndex symbolId tsNs
  let s ← s.checkUpdate rawIndex symbolId ((Json.get msg "U").bind Json.asInt)
    ((Json.get msg "u").bind Json.asInt)
  let bids ← py.iterLevels (Json.get msg "b") true
  let s ← bids.foldlM (applyLevel py rawIndex tsNs symbolId .buy) s
  let asks ← py.iterLevels (Json.get msg "a") false
  let s ← asks.foldlM (applyLevel py rawIndex tsNs symbolId .sell) s
  s.checkCrossed rawIndex symbolId

def reportSnapshotId (s : Normaliser Key) (rawIndex symbolId : Nat) (lastId : Int) :
    Py (Normaliser Key) :=
  match s.lastUpdateId.lookup symbolId with
  | some lastU =>
    if lastId < lastU then do
      let id ← formatInt lastId
      let last ← formatInt lastU
      pure (s.diag rawIndex .warning .staleUpdate ("lastUpdateId=" ++ id ++ " < " ++ last))
    else pure s
  | none => pure s

/-- The check of the update id of a snapshot; the last id never falls here. -/
def checkSnapshotId (s : Normaliser Key) (rawIndex symbolId : Nat) (lastId : Option Int) :
    Py (Normaliser Key) :=
  match lastId with
  | some lastId => do
    let lastU := (s.lastUpdateId.lookup symbolId).getD lastId
    let s ← s.reportSnapshotId rawIndex symbolId lastId
    pure { s with lastUpdateId := s.lastUpdateId.insert symbolId (max lastId lastU) }
  | none => pure s

/-- One level of a snapshot: it is reported, skipped, or put at the end of those to be emitted. -/
def collectLevel (py : Python Key) (rawIndex : Nat) (side : Side)
    (collected : Normaliser Key × List (Side × Int × Int)) (level : String × String) :
    Py (Normaliser Key × List (Side × Int × Int)) := do
  let (s, levels) := collected
  let pt ← py.toTicks level.1 priceScale
  let q ← py.toTicks level.2 qtyScale
  match pt, q with
  | none, _ => pure (s.invalidPrice py rawIndex level.1, levels)
  | some p, q =>
    if p ≤ 0 then pure (s.invalidPrice py rawIndex level.1, levels)
    else
      match q with
      | none => pure (s, levels)
      | some q => if q ≤ 0 then pure (s, levels) else pure (s, levels ++ [(side, p, q)])

/-- The symbol's prior resting state is dropped. -/
def dropSymbol (s : Normaliser Key) (symbolId : Nat) : Normaliser Key :=
  (s.active.entries.filter (fun e => e.1.1 = symbolId)).foldl
    (fun s e => { s with active := s.active.erase e.1, levels := s.levels.erase e.1 }) s

def snapshotMarker (tsNs : Int) (symbolId flags : Nat) : NormEvent :=
  { timestampNs := tsNs, symbolId, eventType := .snapshot, side := .none, flags }

def emitSnapshotLevel (tsNs : Int) (symbolId : Nat) (s : Normaliser Key) (level : Side × Int × Int) :
    Normaliser Key :=
  let orderId := s.nextOrderId
  let key : LevelKey := (symbolId, level.1, level.2.1)
  let s := { s with
    nextOrderId := s.nextOrderId + 1
    active := s.active.insert key orderId
    levels := s.levels.insert key level.2.2 }
  s.emit { timestampNs := tsNs, symbolId, eventType := .snapshot, side := level.1
           priceTicks := level.2.1, quantity := level.2.2, orderId }

def handleSnapshot [DecidableEq Key] (py : Python Key) (s : Normaliser Key) (rawIndex : Nat)
    (msg : List (String × Json)) (symbol : Key) (tsNs : Int) : Py (Normaliser Key) := do
  let (symbolId, s) := s.symbolId symbol
  let s ← s.checkSnapshotId rawIndex symbolId ((Json.get msg "lastUpdateId").bind Json.asInt)
  let bids ← py.iterLevels (Json.get msg "bids") true
  let collected ← bids.foldlM (collectLevel py rawIndex .buy) (s, [])
  let asks ← py.iterLevels (Json.get msg "asks") false
  let (s, levels) ← asks.foldlM (collectLevel py rawIndex .sell) collected
  let s := s.dropSymbol symbolId
  let s := s.emit (snapshotMarker tsNs symbolId snapshotBeginFlag)
  let s := levels.foldl (emitSnapshotLevel tsNs symbolId) s
  let s := s.emit (snapshotMarker tsNs symbolId snapshotEndFlag)
  s.checkCrossed rawIndex symbolId

end Normaliser

/-- A message as `feed_line` takes it from its object: the payload of an envelope, with the symbol
and capture time beside it, or the object itself. -/
structure Envelope where
  symbolHint : Option Json := none
  tsHint : Option Int := none
  msg : List (String × Json)

namespace Envelope

def unwrap (obj : List (String × Json)) : Envelope :=
  match (Json.get obj "data").bind Json.asObject with
  | some data =>
    { symbolHint := Json.get obj "symbol"
      tsHint := (Json.get obj "_captured_at_ns").bind Json.asInt
      msg := data }
  | none => { msg := obj }

def isDiff (e : Envelope) : Bool :=
  (Json.has e.msg "b" || Json.has e.msg "a") &&
    (Json.has e.msg "U" || Json.has e.msg "u" ||
      ((Json.get e.msg "e").map (Json.isString · "depthUpdate")).getD false)

def isSnapshot (e : Envelope) : Bool :=
  Json.has e.msg "lastUpdateId" || Json.has e.msg "bids" || Json.has e.msg "asks"

/-- `obj.get("s") or symbol_hint`, where it is truthy. -/
def symbol (e : Envelope) : Option Json :=
  match (Json.get e.msg "s").filter Json.truthy with
  | some symbol => some symbol
  | none => e.symbolHint.filter Json.truthy

end Envelope

namespace Normaliser
variable {Key : Type} [DecidableEq Key]

def syntheticTime (s : Normaliser Key) (symbol : Key) : Int × Normaliser Key :=
  let (symbolId, s) := s.symbolId symbol
  ((s.lastEventTime.lookup symbolId).getD 0 + 1, s)

/-- The part of `feed_line` behind the banners. -/
def feedMessage (py : Python Key) (s : Normaliser Key) (rawIndex : Nat) (e : Envelope) :
    Py (Normaliser Key) :=
  if e.isDiff then
    match e.symbol with
    | none => pure (s.diag rawIndex .error .missingFields "no symbol")
    | some symbol =>
      match py.key rawIndex symbol with
      | none => throw .typeError
      | some symbol =>
        match (Json.get e.msg "E").bind Json.asInt with
        | some eventTime => s.handleDiff py rawIndex e.msg symbol (eventTime * 1000000)
        | none =>
          match e.tsHint with
          | some tsNs => s.handleDiff py rawIndex e.msg symbol tsNs
          | none =>
            let (tsNs, s) := s.syntheticTime symbol
            s.handleDiff py rawIndex e.msg symbol tsNs
  else if e.isSnapshot then
    match e.symbol with
    | none => pure (s.diag rawIndex .error .missingFields "no symbol for snapshot")
    | some symbol =>
      match py.key rawIndex symbol with
      | none => throw .typeError
      | some symbol =>
        let (tsNs, s) :=
          match e.tsHint with
          | some tsNs => (tsNs, s)
          | none => s.syntheticTime symbol
        let (symbolId, s) := s.symbolId symbol
        let s := { s with lastEventTime := s.lastEventTime.insert symbolId tsNs }
        s.handleSnapshot py rawIndex e.msg symbol tsNs
  else do
    let shown ← py.repr ((Json.get e.msg "e").getD (.string "unknown"))
    pure (s.diag rawIndex .warning .unsupportedMessageType ("e=" ++ shown))

def feedLine (py : Python Key) (s : Normaliser Key) (rawIndex : Nat) (line : String) :
    Py (Normaliser Key) :=
  let stripped := py.strip line
  if stripped = "" then pure s
  else
    let s := { s with rawLineCount := s.rawLineCount + 1 }
    match py.loads stripped with
    | .raised exception => throw exception
    | .decodeError message => pure (s.diag rawIndex .error .malformedMessage message)
    | .value (.object obj) =>
      if Json.has obj "_meta" || Json.has obj "_fixture" then
        pure { s with
          metadata := s.metadata ++ [.object obj]
          rawLineCount := s.rawLineCount - 1 }
      else
        { s with rawMessageCount := s.rawMessageCount + 1 }.feedMessage py rawIndex (.unwrap obj)
    | .value _ => pure (s.diag rawIndex .error .malformedMessage "not a JSON object")

def normaliseLines (py : Python Key) (lines : List String) : Py (Normaliser Key) :=
  lines.zipIdx.foldlM (fun s line => s.feedLine py line.2 line.1) {}

end Normaliser
end Asterion
