import Asterion.Lib.SortedMap
import Asterion.MarketData.Replay

/-! Replay of an interleaved stream of several symbols, in two ways: grouped, where each
symbol's events go through a replay engine of their own, and shared, one pass over a set of
books; and the report that compares the two. -/
namespace Asterion

open Lib

/-- `std::map` from symbol ids. -/
abbrev SymbolMap (V : Type) := SortedMap (fun a b : Nat => a < b) V

structure AggregateReplayConfig where
  replayConfig : ReplayConfig := {}
  validatePerSymbolSequences : Bool := false
  deriving DecidableEq, Repr

structure SymbolReplaySummary where
  symbolId : Nat := invalidSymbolId
  eventCount : Nat := 0
  firstSequence : Nat := 0
  lastSequence : Nat := 0
  firstTimestampNs : Int := 0
  lastTimestampNs : Int := 0
  sequenceValid : Bool := true
  eventLogChecksum : UInt64 := 0
  finalBookChecksum : UInt64 := 0
  executionReportChecksum : UInt64 := 0
  diagnosticsChecksum : UInt64 := 0
  diagnosticCount : Nat := 0
  diagnosticErrorCount : Nat := 0
  diagnosticWarningCount : Nat := 0
  diagnostics : List ReplayDiagnostic := []
  error : String := ""
  deriving DecidableEq, Repr

structure AggregateReplaySummary where
  totalEvents : Nat := 0
  symbolCount : Nat := 0
  combinedBookChecksum : UInt64 := 0
  aggregateChecksum : UInt64 := 0
  symbols : List SymbolReplaySummary := []
  error : String := ""
  deriving DecidableEq, Repr

def appendSummaryChecksum (seed : UInt64) (summary : SymbolReplaySummary) : UInt64 :=
  let seed := checksumAppend 4 seed summary.symbolId
  let seed := checksumAppend 8 seed summary.eventCount
  let seed := checksumAppend 8 seed summary.firstSequence
  let seed := checksumAppend 8 seed summary.lastSequence
  let seed := checksumAppend 8 seed summary.firstTimestampNs
  let seed := checksumAppend 8 seed summary.lastTimestampNs
  let seed := checksumAppend 1 seed (if summary.sequenceValid then 1 else 0)
  let seed := checksumAppend 8 seed summary.eventLogChecksum.toNat
  let seed := checksumAppend 8 seed summary.finalBookChecksum.toNat
  let seed := checksumAppend 8 seed summary.executionReportChecksum.toNat
  let seed := checksumAppend 8 seed summary.diagnosticsChecksum.toNat
  let seed := checksumAppend 8 seed summary.diagnosticCount
  let seed := checksumAppend 8 seed summary.diagnosticErrorCount
  let seed := checksumAppend 8 seed summary.diagnosticWarningCount
  checksumAppendString seed summary.error

def checksumAggregate (summary : AggregateReplaySummary) : UInt64 :=
  let seed := checksumAppend 8 fnvOffsetBasis summary.totalEvents
  let seed := checksumAppend 8 seed summary.symbolCount
  let seed := checksumAppend 8 seed summary.combinedBookChecksum.toNat
  let seed := summary.symbols.foldl appendSummaryChecksum seed
  checksumAppendString seed summary.error

/-- The checksum of a list of symbol ids with their book checksums. -/
def checksumBooks (books : List (Nat × UInt64)) : UInt64 :=
  books.foldl (fun seed book => checksumAppend 8 (checksumAppend 4 seed book.1) book.2.toNat)
    (checksumAppend 8 fnvOffsetBasis books.length)

def checksumCombinedBooksFromSummaries (summaries : List SymbolReplaySummary) : UInt64 :=
  checksumBooks (summaries.map (fun summary => (summary.symbolId, summary.finalBookChecksum)))

/-- The end of both replays: the counts and checksums over the summaries. -/
def AggregateReplaySummary.sealed (aggregate : AggregateReplaySummary) : AggregateReplaySummary :=
  { aggregate with aggregateChecksum := checksumAggregate aggregate }

section Grouped

def groupedEvents (events : List MarketDataEvent) : SymbolMap (List MarketDataEvent) :=
  SortedMap.collect MarketDataEvent.symbolId [] (fun group event => group ++ [event]) events

def groupedConfig (config : AggregateReplayConfig) : ReplayConfig :=
  if !config.validatePerSymbolSequences then
    { config.replayConfig with validateSequenceNumbers := false }
  else config.replayConfig

def groupedSummary (config : AggregateReplayConfig) (symbolId : Nat)
    (symbolEvents : List MarketDataEvent) : SymbolReplaySummary :=
  let replayResult := (ReplayEngine.new symbolId (groupedConfig config)).replayEvents symbolEvents
  { symbolId
    eventCount := symbolEvents.length
    firstSequence := (symbolEvents.head?.map (·.sequenceNumber)).getD 0
    lastSequence := (symbolEvents.getLast?.map (·.sequenceNumber)).getD 0
    firstTimestampNs := (symbolEvents.head?.map (·.timestampNs)).getD 0
    lastTimestampNs := (symbolEvents.getLast?.map (·.timestampNs)).getD 0
    sequenceValid := replayResult.sequenceValid
    eventLogChecksum := replayResult.eventLogChecksum
    finalBookChecksum := replayResult.finalBookChecksum
    executionReportChecksum := replayResult.executionReportChecksum
    diagnosticsChecksum := replayResult.diagnosticsChecksum
    diagnosticCount := replayResult.diagnostics.length
    diagnosticErrorCount := replayResult.diagnosticErrorCount
    diagnosticWarningCount := replayResult.diagnosticWarningCount
    diagnostics := replayResult.diagnostics
    error := replayResult.error }

def replayBySymbol (events : List MarketDataEvent) (config : AggregateReplayConfig) :
    AggregateReplaySummary :=
  let symbols := (groupedEvents events).entries.map (fun e => groupedSummary config e.1 e.2)
  { totalEvents := events.length
    symbols
    symbolCount := symbols.length
    combinedBookChecksum := checksumCombinedBooksFromSummaries symbols
    : AggregateReplaySummary }.sealed

end Grouped

structure MultiSymbolBookSet where
  books : SymbolMap OrderBook := .empty

namespace MultiSymbolBookSet

def symbolCount (set : MultiSymbolBookSet) : Nat := set.books.entries.length

def findBook (set : MultiSymbolBookSet) (symbolId : Nat) : Option OrderBook :=
  set.books.find? symbolId

def applyToBook (book : OrderBook) (event : MarketDataEvent) : OrderBook × Bool :=
  match event.eventType with
  | .add => book.addOrder event.order
  | .cancel =>
    if event.quantity > 0 then book.reduceOrder event.orderId event.quantity
    else book.cancelOrder event.orderId
  | .replace =>
    book.replaceOrder event.orderId event.priceTicks event.quantity event.timestampNs
      event.sequenceNumber
  | .execute => book.reduceOrder event.orderId event.quantity
  | .snapshot =>
    let book := if event.beginsSnapshot then book.clear else book
    if event.orderId ≠ invalidOrderId then book.addOrder event.order else (book, true)
  | .trade => (book, true)
  | .heartbeat => (book, true)

def apply (set : MultiSymbolBookSet) (event : MarketDataEvent) : MultiSymbolBookSet × Bool :=
  if event.symbolId = invalidSymbolId then (set, false)
  else
    let book := (set.findBook event.symbolId).getD (.new event.symbolId)
    let applied := applyToBook book event
    (⟨set.books.upsert event.symbolId (.new event.symbolId) (fun _ => applied.1)⟩, applied.2)

def combinedChecksum (set : MultiSymbolBookSet) : UInt64 :=
  checksumBooks (set.books.entries.map (fun entry => (entry.1, entry.2.checksum)))

end MultiSymbolBookSet

structure SharedSymbolState where
  summary : SymbolReplaySummary := {}
  expectedSequence : Nat := 0
  lastTimestampNs : Int := 0
  hasLastTimestamp : Bool := false
  failed : Bool := false
  deriving DecidableEq, Repr

def applyFailureReason : MarketEventType → String
  | .add => "failed to apply Add event"
  | .cancel => "failed to apply Cancel event"
  | .replace => "failed to apply Replace event"
  | .execute => "failed to apply Execute event"
  | .snapshot => "failed to apply Snapshot event"
  | .trade => "failed to apply Trade event"
  | .heartbeat => "failed to apply Heartbeat event"

def validateSharedEventBeforeApply (event : MarketDataEvent) (book : Option OrderBook) :
    Option String :=
  let type := event.eventType
  if event.symbolId = invalidSymbolId then some "invalid symbol id"
  else if isOrderIdRequired type ∧ event.orderId = invalidOrderId then some "invalid order id"
  else if (type = .add ∨ type = .replace) ∧ !isValidSide event.side then some "invalid side"
  else if isPriceRequired type ∧ event.priceTicks ≤ 0 then some "invalid price"
  else if !isPriceRequired type ∧ event.priceTicks < 0 then some "invalid negative price"
  else if isQuantityRequired type ∧ event.quantity ≤ 0 then some "invalid quantity"
  else if !isQuantityRequired type ∧ event.quantity < 0 then some "invalid negative quantity"
  else if type = .add ∧ (book.bind (·.findOrder event.orderId)).isSome then
    some "duplicate order id"
  else if type = .snapshot ∧ event.orderId ≠ invalidOrderId ∧ !isValidSide event.side then
    some "invalid snapshot side"
  else if type = .snapshot ∧ event.orderId ≠ invalidOrderId ∧ event.priceTicks ≤ 0 then
    some "invalid snapshot price"
  else if type = .snapshot ∧ event.orderId ≠ invalidOrderId ∧ event.quantity ≤ 0 then
    some "invalid snapshot quantity"
  else if type = .cancel ∨ type = .replace ∨ type = .execute then
    match book.bind (·.findOrder event.orderId) with
    | none =>
      if type = .cancel then some "unknown cancel order id"
      else if type = .replace then some "unknown replace order id"
      else some "unknown execute order id"
    | some order =>
      if (type = .cancel ∨ type = .execute) ∧ event.quantity > order.quantity then
        some "invalid quantity exceeds resting order quantity"
      else none
  else none

def validateSharedTopOfBook (book : OrderBook) : Option String :=
  match book.bestBid, book.bestAsk with
  | some bestBid, some bestAsk =>
    if bestBid ≥ bestAsk then
      some ("crossed book state: best bid " ++ toString bestBid ++ " >= best ask " ++
        toString bestAsk)
    else none
  | _, _ => none

def validateSharedFullBook (book : OrderBook) (pre : String) : Option String :=
  let invariantReport := book.checkInvariants
  if !invariantReport.ok then
    let reason :=
      match invariantReport.violations with
      | [] => "book invariant violation"
      | violation :: _ => "book invariant violation: " ++ violation
    some (pre ++ reason)
  else validateSharedTopOfBook book

def validateSharedBookAfterApply (book : OrderBook) (config : ReplayConfig) : Option String :=
  if !config.validateBookState then none
  else
    match config.validationMode with
    | .light => validateSharedTopOfBook book
    | .other _ => some "unsupported replay validation mode"
    | .full => validateSharedFullBook book ""

namespace SharedSymbolState

def addSharedDiagnostic (state : SharedSymbolState) (event : MarketDataEvent)
    (severity : ReplayDiagnosticSeverity) (reason : String) : SharedSymbolState :=
  let diagnostic : ReplayDiagnostic :=
    ⟨state.summary.eventCount - 1, event.sequenceNumber, event.symbolId, severity, reason⟩
  { state with summary := { state.summary with
      diagnosticsChecksum := diagnostic.appendToChecksum state.summary.diagnosticsChecksum
      diagnosticErrorCount :=
        if severity = .error then state.summary.diagnosticErrorCount + 1
        else state.summary.diagnosticErrorCount
      diagnosticWarningCount :=
        if severity = .warning then state.summary.diagnosticWarningCount + 1
        else state.summary.diagnosticWarningCount
      diagnostics := state.summary.diagnostics ++ [diagnostic] } }

def markSharedFailure (state : SharedSymbolState) : SharedSymbolState :=
  { state with
    failed := true
    summary := { state.summary with
      sequenceValid := false
      error :=
        match state.summary.diagnostics.getLast? with
        | some diagnostic => diagnostic.reason
        | none => state.summary.error } }

def fail (state : SharedSymbolState) (event : MarketDataEvent) (reason : String) :
    SharedSymbolState :=
  (state.addSharedDiagnostic event .error reason).markSharedFailure

def count (state : SharedSymbolState) (event : MarketDataEvent) : SharedSymbolState :=
  let summary :=
    if state.summary.eventCount = 0 then
      { state.summary with
        symbolId := event.symbolId
        firstSequence := event.sequenceNumber
        firstTimestampNs := event.timestampNs
        eventLogChecksum := fnvOffsetBasis
        diagnosticsChecksum := fnvOffsetBasis
        executionReportChecksum := fnvOffsetBasis }
    else state.summary
  { state with summary := { summary with
      eventCount := summary.eventCount + 1
      lastSequence := event.sequenceNumber
      lastTimestampNs := event.timestampNs
      eventLogChecksum := event.appendToChecksum summary.eventLogChecksum } }

def checkSequence (state : SharedSymbolState) (validateSequences : Bool)
    (event : MarketDataEvent) : SharedSymbolState × Bool :=
  if !validateSequences then (state, true)
  else
    let expected :=
      if state.expectedSequence = 0 then event.sequenceNumber else state.expectedSequence
    let state := { state with expectedSequence := expected }
    if event.sequenceNumber ≠ expected then
      (state.fail event (sequenceGap expected event.sequenceNumber), false)
    else ({ state with expectedSequence := nextSequence expected }, true)

def checkTimestamp (state : SharedSymbolState) (validateTimestamps : Bool)
    (event : MarketDataEvent) : SharedSymbolState × Bool :=
  if !validateTimestamps then (state, true)
  else if state.hasLastTimestamp ∧ event.timestampNs < state.lastTimestampNs then
    (state.fail event (timestampReversal state.lastTimestampNs event.timestampNs), false)
  else ({ state with lastTimestampNs := event.timestampNs, hasLastTimestamp := true }, true)

end SharedSymbolState

structure SharedReplay where
  bookSet : MultiSymbolBookSet := {}
  states : SymbolMap SharedSymbolState := .empty

namespace SharedReplay

/-- The part of the loop body behind the sequence and timestamp checks. -/
def applyShared (config : AggregateReplayConfig) (bookSet : MultiSymbolBookSet)
    (state : SharedSymbolState) (event : MarketDataEvent) :
    MultiSymbolBookSet × SharedSymbolState :=
  match validateSharedEventBeforeApply event (bookSet.findBook event.symbolId) with
  | some reason => (bookSet, state.fail event reason)
  | none =>
    match bookSet.apply event with
    | (bookSet, false) => (bookSet, state.fail event (applyFailureReason event.eventType))
    | (bookSet, true) =>
      match bookSet.findBook event.symbolId with
      | none => (bookSet, state.markSharedFailure)
      | some book =>
        match validateSharedBookAfterApply book config.replayConfig with
        | some reason => (bookSet, state.fail event reason)
        | none =>
          if event.eventType = .execute ∨ event.eventType = .trade then
            (bookSet, { state with summary := { state.summary with
                executionReportChecksum :=
                  event.appendToChecksum state.summary.executionReportChecksum } })
          else (bookSet, state)

def serve (config : AggregateReplayConfig) (bookSet : MultiSymbolBookSet)
    (state : SharedSymbolState) (event : MarketDataEvent) :
    MultiSymbolBookSet × SharedSymbolState :=
  let state := state.count event
  if state.failed then (bookSet, state)
  else
    match state.checkSequence (config.validatePerSymbolSequences &&
        config.replayConfig.validateSequenceNumbers) event with
    | (state, false) => (bookSet, state)
    | (state, true) =>
      match state.checkTimestamp config.replayConfig.validateTimestamps event with
      | (state, false) => (bookSet, state)
      | (state, true) => applyShared config bookSet state event

def step (config : AggregateReplayConfig) (s : SharedReplay) (event : MarketDataEvent) :
    SharedReplay :=
  let served := serve config s.bookSet ((s.states.find? event.symbolId).getD {}) event
  { bookSet := served.1
    states := s.states.upsert event.symbolId {} (fun _ => served.2) }

def finish (config : AggregateReplayConfig) (bookSet : MultiSymbolBookSet) (symbolId : Nat)
    (state : SharedSymbolState) : SymbolReplaySummary :=
  match bookSet.findBook symbolId with
  | some book =>
    let state :=
      if !state.failed ∧ config.replayConfig.validateBookState ∧
          config.replayConfig.validationMode = .light then
        match validateSharedFullBook book "final " with
        | some reason => state.fail { symbolId } reason
        | none => state
      else state
    { state.summary with
      finalBookChecksum := book.checksum
      diagnosticCount := state.summary.diagnostics.length }
  | none =>
    { state.summary with
      finalBookChecksum := (OrderBook.new symbolId).checksum
      diagnosticCount := state.summary.diagnostics.length }

end SharedReplay

def replaySharedBySymbol (events : List MarketDataEvent) (config : AggregateReplayConfig) :
    AggregateReplaySummary :=
  let s : SharedReplay := events.foldl (SharedReplay.step config) {}
  let symbols := s.states.entries.map (fun e => SharedReplay.finish config s.bookSet e.1 e.2)
  let combinedBookChecksum := checksumCombinedBooksFromSummaries symbols
  { totalEvents := events.length
    symbols
    symbolCount := symbols.length
    combinedBookChecksum
    error :=
      if s.bookSet.symbolCount = symbols.length ∧
          s.bookSet.combinedChecksum ≠ combinedBookChecksum then
        "shared replay combined checksum mismatch"
      else ""
    : AggregateReplaySummary }.sealed

section Parity

structure SymbolParityEntry where
  symbolId : Nat := invalidSymbolId
  presentInGrouped : Bool := false
  presentInShared : Bool := false
  eventLogChecksumMatch : Bool := false
  finalBookChecksumMatch : Bool := false
  executionReportChecksumMatch : Bool := false
  diagnosticsChecksumMatch : Bool := false
  matched : Bool := false
  deriving DecidableEq, Repr

structure ReplayParityReport where
  matched : Bool := false
  symbolCountGrouped : Nat := 0
  symbolCountShared : Nat := 0
  mismatchCount : Nat := 0
  combinedBookChecksumMatch : Bool := false
  aggregateChecksumMatch : Bool := false
  groupedCombinedBookChecksum : UInt64 := 0
  sharedCombinedBookChecksum : UInt64 := 0
  groupedAggregateChecksum : UInt64 := 0
  sharedAggregateChecksum : UInt64 := 0
  symbols : List SymbolParityEntry := []
  deriving DecidableEq, Repr

def bySymbol (summaries : List SymbolReplaySummary) : SymbolMap SymbolReplaySummary :=
  SortedMap.collect SymbolReplaySummary.symbolId {} (fun _ summary => summary) summaries

def parityEntry (grouped shared : SymbolMap SymbolReplaySummary) (symbolId : Nat) :
    SymbolParityEntry :=
  match grouped.find? symbolId, shared.find? symbolId with
  | some g, some s =>
    let eventLog := g.eventLogChecksum == s.eventLogChecksum
    let finalBook := g.finalBookChecksum == s.finalBookChecksum
    let executionReport := g.executionReportChecksum == s.executionReportChecksum
    let diagnostics := g.diagnosticsChecksum == s.diagnosticsChecksum
    { symbolId
      presentInGrouped := true
      presentInShared := true
      eventLogChecksumMatch := eventLog
      finalBookChecksumMatch := finalBook
      executionReportChecksumMatch := executionReport
      diagnosticsChecksumMatch := diagnostics
      matched := eventLog && finalBook && executionReport && diagnostics }
  | g, s => { symbolId, presentInGrouped := g.isSome, presentInShared := s.isSome }

def compareReplayParity (events : List MarketDataEvent) (config : AggregateReplayConfig) :
    ReplayParityReport :=
  let grouped := replayBySymbol events config
  let shared := replaySharedBySymbol events config
  let groupedBySymbol := bySymbol grouped.symbols
  let sharedBySymbol := bySymbol shared.symbols
  let allSymbols : SymbolMap Bool :=
    SortedMap.collect (fun item : Nat × SymbolReplaySummary => item.1) false (fun _ _ => true)
      (groupedBySymbol.entries ++ sharedBySymbol.entries)
  let symbols :=
    allSymbols.entries.map (fun item => parityEntry groupedBySymbol sharedBySymbol item.1)
  let mismatchCount := (symbols.filter (fun entry => !entry.matched)).length
  let combinedMatch := grouped.combinedBookChecksum == shared.combinedBookChecksum
  let aggregateMatch := grouped.aggregateChecksum == shared.aggregateChecksum
  { matched := mismatchCount == 0 && combinedMatch && aggregateMatch &&
      grouped.symbolCount == shared.symbolCount
    symbolCountGrouped := grouped.symbolCount
    symbolCountShared := shared.symbolCount
    mismatchCount
    combinedBookChecksumMatch := combinedMatch
    aggregateChecksumMatch := aggregateMatch
    groupedCombinedBookChecksum := grouped.combinedBookChecksum
    sharedCombinedBookChecksum := shared.combinedBookChecksum
    groupedAggregateChecksum := grouped.aggregateChecksum
    sharedAggregateChecksum := shared.aggregateChecksum
    symbols }

end Parity
end Asterion
