import Asterion.Book.OrderBook
import Asterion.MarketData.Event

/-! The replay engine of one symbol: sequencing, the checks before an event is applied, its
effect on the book, and the checks after. A check returns the reason it fails with. -/
namespace Asterion

inductive ReplayDiagnosticSeverity where
  | info | warning | error
  deriving DecidableEq, Repr

/-- The enumerators are numbered from one. -/
def ReplayDiagnosticSeverity.toByte (severity : ReplayDiagnosticSeverity) : Nat :=
  severity.ctorIdx + 1

/-- A validation mode is a byte that need not be one of the two enumerators. -/
inductive ReplayValidationMode where
  | full | light | other (value : Nat)
  deriving DecidableEq, Repr

structure ReplayDiagnostic where
  eventIndex : Nat := 0
  sequenceNumber : Nat := 0
  symbolId : Nat := invalidSymbolId
  severity : ReplayDiagnosticSeverity := .info
  reason : String := ""
  deriving DecidableEq, Repr

structure ReplayConfig where
  validateSequenceNumbers : Bool := true
  validateTimestamps : Bool := true
  validateBookState : Bool := true
  validationMode : ReplayValidationMode := .full
  deriving DecidableEq, Repr

structure ReplayResult where
  eventsProcessed : Nat := 0
  sequenceValid : Bool := true
  eventLogChecksum : UInt64 := 0
  finalBookChecksum : UInt64 := 0
  executionReportChecksum : UInt64 := 0
  diagnosticsChecksum : UInt64 := 0
  diagnosticErrorCount : Nat := 0
  diagnosticWarningCount : Nat := 0
  diagnostics : List ReplayDiagnostic := []
  error : String := ""
  deriving DecidableEq, Repr

structure ReplayStreamState where
  expectedSequence : Nat := 0
  lastTimestamp : Int := 0
  hasLastTimestamp : Bool := false
  eventIndex : Nat := 0
  halted : Bool := false
  deriving DecidableEq, Repr

structure ReplayEngine where
  config : ReplayConfig
  book : OrderBook

def ReplayDiagnostic.appendToChecksum (seed : UInt64) (diagnostic : ReplayDiagnostic) : UInt64 :=
  let seed := checksumAppend 8 seed diagnostic.eventIndex
  let seed := checksumAppend 8 seed diagnostic.sequenceNumber
  let seed := checksumAppend 4 seed diagnostic.symbolId
  let seed := checksumAppend 1 seed diagnostic.severity.toByte
  checksumAppendString seed diagnostic.reason

def isPriceRequired (type : MarketEventType) : Bool :=
  type == .add || type == .replace || type == .trade

def isQuantityRequired (type : MarketEventType) : Bool :=
  type == .add || type == .replace || type == .execute || type == .trade

def isOrderIdRequired (type : MarketEventType) : Bool :=
  type == .add || type == .cancel || type == .replace || type == .execute

def MarketDataEvent.order (event : MarketDataEvent) : Order :=
  { orderId := event.orderId
    clientOrderId := invalidClientOrderId
    symbolId := event.symbolId
    side := event.side
    priceTicks := event.priceTicks
    quantity := event.quantity
    timestampNs := event.timestampNs
    sequenceNumber := event.sequenceNumber }

def sequenceGap (expected received : Nat) : String :=
  "sequence gap: expected " ++ toString expected ++ ", received " ++ toString received

def timestampReversal (previous received : Int) : String :=
  "timestamp reversal: previous " ++ toString previous ++ ", received " ++ toString received

/-- Sequence numbers have 64 bits. -/
def nextSequence (sequenceNumber : Nat) : Nat := (sequenceNumber + 1) % 2 ^ 64

namespace ReplayResult

def addDiagnostic (result : ReplayResult) (eventIndex : Nat) (event : MarketDataEvent)
    (severity : ReplayDiagnosticSeverity) (reason : String) : ReplayResult :=
  let diagnostic : ReplayDiagnostic :=
    ⟨eventIndex, event.sequenceNumber, event.symbolId, severity, reason⟩
  { result with
    diagnosticsChecksum := diagnostic.appendToChecksum result.diagnosticsChecksum
    diagnosticErrorCount :=
      if severity = .error then result.diagnosticErrorCount + 1 else result.diagnosticErrorCount
    diagnosticWarningCount :=
      if severity = .warning then result.diagnosticWarningCount + 1
      else result.diagnosticWarningCount
    diagnostics := result.diagnostics ++ [diagnostic] }

def updateActivityChecksum (result : ReplayResult) (event : MarketDataEvent) : ReplayResult :=
  { result with
    executionReportChecksum := event.appendToChecksum result.executionReportChecksum }

def fail (result : ReplayResult) (eventIndex : Nat) (event : MarketDataEvent) (reason : String) :
    ReplayResult :=
  { result.addDiagnostic eventIndex event .error reason with error := reason }

end ReplayResult

namespace ReplayEngine

def new (symbolId : Nat) (config : ReplayConfig) : ReplayEngine := ⟨config, .new symbolId⟩

def beginStream (result : ReplayResult) : ReplayResult :=
  { result with
    executionReportChecksum := fnvOffsetBasis
    diagnosticsChecksum := fnvOffsetBasis }

def validateEventBeforeApply (engine : ReplayEngine) (event : MarketDataEvent) : Option String :=
  let type := event.eventType
  if event.symbolId = invalidSymbolId then some "invalid symbol id"
  else if event.symbolId ≠ engine.book.symbolId then
    some "event symbol does not match replay book symbol"
  else if isOrderIdRequired type ∧ event.orderId = invalidOrderId then some "invalid order id"
  else if (type = .add ∨ type = .replace) ∧ !isValidSide event.side then some "invalid side"
  else if isPriceRequired type ∧ event.priceTicks ≤ 0 then some "invalid price"
  else if !isPriceRequired type ∧ event.priceTicks < 0 then some "invalid negative price"
  else if isQuantityRequired type ∧ event.quantity ≤ 0 then some "invalid quantity"
  else if !isQuantityRequired type ∧ event.quantity < 0 then some "invalid negative quantity"
  else if type = .add ∧ (engine.book.findOrder event.orderId).isSome then some "duplicate order id"
  else if type = .snapshot ∧ event.orderId ≠ invalidOrderId ∧ !isValidSide event.side then
    some "invalid snapshot side"
  else if type = .snapshot ∧ event.orderId ≠ invalidOrderId ∧ event.priceTicks ≤ 0 then
    some "invalid snapshot price"
  else if type = .snapshot ∧ event.orderId ≠ invalidOrderId ∧ event.quantity ≤ 0 then
    some "invalid snapshot quantity"
  else if type = .cancel ∨ type = .replace ∨ type = .execute then
    match engine.book.findOrder event.orderId with
    | none =>
      if type = .cancel then some "unknown cancel order id"
      else if type = .replace then some "unknown replace order id"
      else some "unknown execute order id"
    | some order =>
      if (type = .cancel ∨ type = .execute) ∧ event.quantity > order.quantity then
        some "invalid quantity exceeds resting order quantity"
      else none
  else none

def validateTopOfBook (book : OrderBook) : Option String :=
  match book.bestBid, book.bestAsk with
  | some bestBid, some bestAsk =>
    if bestBid ≥ bestAsk then
      some ("crossed book state: best bid " ++ toString bestBid ++ " >= best ask " ++
        toString bestAsk)
    else none
  | _, _ => none

def validateFullBook (book : OrderBook) (pre : String) : Option String :=
  let invariantReport := book.checkInvariants
  if !invariantReport.ok then
    let reason :=
      match invariantReport.violations with
      | [] => "book invariant violation"
      | violation :: _ => "book invariant violation: " ++ violation
    some (pre ++ reason)
  else validateTopOfBook book

def validateBookAfterApply (engine : ReplayEngine) : Option String :=
  if !engine.config.validateBookState then none
  else
    match engine.config.validationMode with
    | .light => validateTopOfBook engine.book
    | .other _ => some "unsupported replay validation mode"
    | .full => validateFullBook engine.book ""

/-- What an event does to the book; a reason when the book refuses it. -/
def applyToBook (book : OrderBook) (event : MarketDataEvent) : OrderBook × Option String :=
  let check (applied : OrderBook × Bool) (reason : String) : OrderBook × Option String :=
    (applied.1, if applied.2 then none else some reason)
  match event.eventType with
  | .add => check (book.addOrder event.order) "failed to apply Add event"
  | .cancel =>
    if event.quantity > 0 then
      check (book.reduceOrder event.orderId event.quantity) "failed to apply partial Cancel event"
    else check (book.cancelOrder event.orderId) "failed to apply Cancel event"
  | .replace =>
    check (book.replaceOrder event.orderId event.priceTicks event.quantity event.timestampNs
      event.sequenceNumber) "failed to apply Replace event"
  | .execute =>
    check (book.reduceOrder event.orderId event.quantity) "failed to apply Execute event"
  | .trade => (book, none)
  | .snapshot =>
    let book := if event.beginsSnapshot then book.clear else book
    if event.orderId ≠ invalidOrderId then
      check (book.addOrder event.order) "failed to apply Snapshot event"
    else (book, none)
  | .heartbeat => (book, none)

def applyEvent (engine : ReplayEngine) (event : MarketDataEvent) (eventIndex : Nat)
    (result : ReplayResult) : (ReplayEngine × ReplayResult) × Bool :=
  match applyToBook engine.book event with
  | (book, some reason) => (({ engine with book }, result.fail eventIndex event reason), false)
  | (book, none) =>
    let engine := { engine with book }
    let result :=
      if event.eventType = .execute ∨ event.eventType = .trade then
        result.updateActivityChecksum event
      else result
    match engine.validateBookAfterApply with
    | some reason => ((engine, result.fail eventIndex event reason), false)
    | none => ((engine, result), true)

end ReplayEngine

/-- A replay in progress. -/
structure ReplayStream where
  engine : ReplayEngine
  state : ReplayStreamState := {}
  result : ReplayResult

namespace ReplayStream

def halt (s : ReplayStream) (event : MarketDataEvent) (reason : String) : ReplayStream :=
  { s with
    state := { s.state with halted := true }
    result := { s.result.fail s.state.eventIndex event reason with sequenceValid := false } }

/-- The sequence number check; the stream goes on with the next number expected. -/
def checkSequence (s : ReplayStream) (event : MarketDataEvent) : ReplayStream × Bool :=
  if !s.engine.config.validateSequenceNumbers then (s, true)
  else
    let expected :=
      if s.state.expectedSequence = 0 then event.sequenceNumber else s.state.expectedSequence
    let s := { s with state := { s.state with expectedSequence := expected } }
    if event.sequenceNumber ≠ expected then
      (s.halt event (sequenceGap expected event.sequenceNumber), false)
    else ({ s with state := { s.state with expectedSequence := nextSequence expected } }, true)

def checkTimestamp (s : ReplayStream) (event : MarketDataEvent) : ReplayStream × Bool :=
  if !s.engine.config.validateTimestamps then (s, true)
  else if s.state.hasLastTimestamp ∧ event.timestampNs < s.state.lastTimestamp then
    (s.halt event (timestampReversal s.state.lastTimestamp event.timestampNs), false)
  else
    ({ s with state := { s.state with
        lastTimestamp := event.timestampNs, hasLastTimestamp := true } }, true)

/-- The part of a step behind the sequence and timestamp checks. -/
def applyStep (s : ReplayStream) (event : MarketDataEvent) : ReplayStream × Bool :=
  match s.engine.validateEventBeforeApply event with
  | some reason => (s.halt event reason, false)
  | none =>
    match s.engine.applyEvent event s.state.eventIndex s.result with
    | ((engine, result), false) =>
      ({ engine
         state := { s.state with halted := true }
         result := { result with sequenceValid := false } }, false)
    | ((engine, result), true) =>
      ({ engine
         state := { s.state with eventIndex := s.state.eventIndex + 1 }
         result := { result with eventsProcessed := result.eventsProcessed + 1 } }, true)

/-- `replay_step`; the flag is false when the stream must halt. -/
def step (s : ReplayStream) (event : MarketDataEvent) : ReplayStream × Bool :=
  match s.checkSequence event with
  | (s, false) => (s, false)
  | (s, true) =>
    match s.checkTimestamp event with
    | (s, false) => (s, false)
    | (s, true) => s.applyStep event

/-- The loop of `replay_events`, which a halting step leaves. -/
def steps (s : ReplayStream) : List MarketDataEvent → ReplayStream
  | [] => s
  | event :: events =>
    match s.step event with
    | (s, true) => s.steps events
    | (s, false) => s

def finalize (s : ReplayStream) : ReplayResult :=
  let result :=
    if s.engine.config.validateBookState ∧ s.engine.config.validationMode = .light ∧
        s.result.sequenceValid then
      let finalEvent : MarketDataEvent := { symbolId := s.engine.book.symbolId }
      match ReplayEngine.validateFullBook s.engine.book "final " with
      | some reason =>
        { s.result.fail s.result.eventsProcessed finalEvent reason with sequenceValid := false }
      | none => s.result
    else s.result
  { result with finalBookChecksum := s.engine.book.checksum }

end ReplayStream

namespace ReplayEngine

def start (engine : ReplayEngine) (events : List MarketDataEvent) : ReplayStream :=
  { engine, result := { beginStream {} with eventLogChecksum := checksumEvents events } }

def replayEvents (engine : ReplayEngine) (events : List MarketDataEvent) : ReplayResult :=
  ((engine.start events).steps events).finalize

end ReplayEngine
end Asterion
