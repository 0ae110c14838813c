import Asterion.MarketData.ReplayAggregate
import Asterion.MarketData.Continuations

/-! Grouped and shared replay agree: after any events the shared state of every symbol mirrors
the replay engine of that symbol, run on the symbol's own events. -/
namespace Asterion

open Lib Lib.StoppingLoop

section Book
variable {b : OrderBook}

theorem sharedApply_eq (b : OrderBook) (event : MarketDataEvent) :
    MultiSymbolBookSet.applyToBook b event =
      ((ReplayEngine.applyToBook b event).1, (ReplayEngine.applyToBook b event).2.isNone) := by
  have check (applied : OrderBook × Bool) (reason : String) :
      applied = (applied.1, (if applied.2 then none else some reason : Option String).isNone) := by
    obtain ⟨book, ok⟩ := applied
    cases ok <;> rfl
  unfold MultiSymbolBookSet.applyToBook ReplayEngine.applyToBook
  cases event.eventType with
  | add => exact check _ _
  | cancel =>
    dsimp only
    split
    · exact check _ _
    · exact check _ _
  | replace => exact check _ _
  | execute => exact check _ _
  | trade => rfl
  | heartbeat => rfl
  | snapshot =>
    dsimp only
    split
    · exact check _ _
    · rfl

theorem bind_findOrder (book : Option OrderBook) (symbolId orderId : Nat) :
    book.bind (·.findOrder orderId) = (book.getD (.new symbolId)).findOrder orderId := by
  cases book with
  | none => rfl
  | some b => rfl

theorem validateShared_eq {engine : ReplayEngine} {event : MarketDataEvent}
    {book : Option OrderBook} (symbol : engine.book.symbolId = event.symbolId)
    (held : book.getD (.new event.symbolId) = engine.book) :
    validateSharedEventBeforeApply event book = engine.validateEventBeforeApply event := by
  unfold validateSharedEventBeforeApply ReplayEngine.validateEventBeforeApply
  rw [bind_findOrder book event.symbolId, held, symbol]
  by_cases unknown : event.symbolId = invalidSymbolId
  · rw [if_pos unknown, if_pos unknown]
  · rw [if_neg unknown, if_neg unknown]
    exact (if_neg (fun differs => differs rfl)).symm

theorem validateSharedBook_eq (engine : ReplayEngine) (config : AggregateReplayConfig)
    (same : engine.config = groupedConfig config) :
    validateSharedBookAfterApply engine.book config.replayConfig =
      engine.validateBookAfterApply := by
  have state : engine.config.validateBookState = config.replayConfig.validateBookState := by
    rw [same, groupedConfig]
    split <;> rfl
  have mode : engine.config.validationMode = config.replayConfig.validationMode := by
    rw [same, groupedConfig]
    split <;> rfl
  unfold validateSharedBookAfterApply ReplayEngine.validateBookAfterApply
  rw [state, mode]
  rfl

end Book

/-- The part of a shared state the replay engine keeps too. -/
structure Mirrors (s : ReplayStream) (state : SharedSymbolState) (book : Option OrderBook)
    (symbolId : Nat) : Prop where
  book : book.getD (.new symbolId) = s.engine.book
  failed : state.failed = s.state.halted
  expected : state.expectedSequence = s.state.expectedSequence
  lastTimestamp : state.lastTimestampNs = s.state.lastTimestamp
  hasLastTimestamp : state.hasLastTimestamp = s.state.hasLastTimestamp
  valid : state.summary.sequenceValid = s.result.sequenceValid
  execution : state.summary.executionReportChecksum = s.result.executionReportChecksum
  checksum : state.summary.diagnosticsChecksum = s.result.diagnosticsChecksum
  errors : state.summary.diagnosticErrorCount = s.result.diagnosticErrorCount
  warnings : state.summary.diagnosticWarningCount = s.result.diagnosticWarningCount
  diagnostics : state.summary.diagnostics = s.result.diagnostics
  error : state.summary.error = s.result.error

/-- The statistics of a summary over the events of its symbol. -/
structure Counts (summary : SymbolReplaySummary) (symbolId : Nat) (events : List MarketDataEvent) :
    Prop where
  symbol : summary.symbolId = symbolId
  count : summary.eventCount = events.length
  firstSequence : summary.firstSequence = (events.head?.map (·.sequenceNumber)).getD 0
  lastSequence : summary.lastSequence = (events.getLast?.map (·.sequenceNumber)).getD 0
  firstTimestamp : summary.firstTimestampNs = (events.head?.map (·.timestampNs)).getD 0
  lastTimestamp : summary.lastTimestampNs = (events.getLast?.map (·.timestampNs)).getD 0
  log : summary.eventLogChecksum = checksumEvents events

def SameCounts (m n : SymbolReplaySummary) : Prop :=
  ∀ symbolId events, Counts m symbolId events → Counts n symbolId events

section States
variable {s : ReplayStream} {state : SharedSymbolState} {book : Option OrderBook} {symbolId : Nat}

theorem fail_counts (state : SharedSymbolState) (event : MarketDataEvent) (reason : String) :
    SameCounts state.summary (state.fail event reason).summary :=
  fun _ _ h => ⟨h.1, h.2, h.3, h.4, h.5, h.6, h.7⟩

theorem Mirrors.fail (h : Mirrors s state book symbolId)
    (index : state.summary.eventCount = s.state.eventIndex + 1) (event : MarketDataEvent)
    (reason : String) :
    Mirrors (s.halt event reason) (state.fail event reason) book symbolId := by
  have at' : state.summary.eventCount - 1 = s.state.eventIndex := by omega
  refine ⟨h.book, rfl, h.expected, h.lastTimestamp, h.hasLastTimestamp, rfl, h.execution, ?_, ?_,
    h.warnings, ?_, ?_⟩
  · have hs : (state.fail event reason).summary.diagnosticsChecksum =
        ReplayDiagnostic.appendToChecksum state.summary.diagnosticsChecksum
          ⟨state.summary.eventCount - 1, event.sequenceNumber, event.symbolId, .error, reason⟩ := rfl
    have ht : (s.halt event reason).result.diagnosticsChecksum =
        ReplayDiagnostic.appendToChecksum s.result.diagnosticsChecksum
          ⟨s.state.eventIndex, event.sequenceNumber, event.symbolId, .error, reason⟩ := rfl
    rw [hs, ht, h.checksum, at']
  · exact congrArg (· + 1) h.errors
  · have hs : (state.fail event reason).summary.diagnostics = state.summary.diagnostics ++
        [⟨state.summary.eventCount - 1, event.sequenceNumber, event.symbolId, .error, reason⟩] := rfl
    have ht : (s.halt event reason).result.diagnostics = s.result.diagnostics ++
        [⟨s.state.eventIndex, event.sequenceNumber, event.symbolId, .error, reason⟩] := rfl
    rw [hs, ht, h.diagnostics, at']
  · have hs : (state.fail event reason).summary.error = reason := by
      simp [SharedSymbolState.fail, SharedSymbolState.addSharedDiagnostic,
        SharedSymbolState.markSharedFailure]
    rw [hs]
    rfl

theorem groupedConfig_sequence (config : AggregateReplayConfig) :
    (groupedConfig config).validateSequenceNumbers =
      (config.validatePerSymbolSequences && config.replayConfig.validateSequenceNumbers) := by
  unfold groupedConfig
  cases config.validatePerSymbolSequences <;> simp

theorem groupedConfig_timestamps (config : AggregateReplayConfig) :
    (groupedConfig config).validateTimestamps = config.replayConfig.validateTimestamps := by
  unfold groupedConfig
  split <;> rfl

theorem groupedConfig_mode (config : AggregateReplayConfig) :
    (groupedConfig config).validationMode = config.replayConfig.validationMode := by
  unfold groupedConfig
  split <;> rfl

/-- What the two ordering checks do alike: the same flag, states that mirror each other, and a
summary that is as before unless the check has failed. -/
structure Checked (symbolId : Nat) (book : Option OrderBook) (state : SharedSymbolState)
    (p : ReplayStream × Bool) (q : SharedSymbolState × Bool) : Prop where
  flag : p.2 = q.2
  mirrors : Mirrors p.1 q.1 book symbolId
  counts : SameCounts state.summary q.1.summary
  summary : q.2 = true → q.1.summary = state.summary

theorem Mirrors.checkSequence (h : Mirrors s state book symbolId)
    (index : state.summary.eventCount = s.state.eventIndex + 1) {config : AggregateReplayConfig}
    (same : s.engine.config = groupedConfig config) (event : MarketDataEvent) :
    Checked symbolId book state (s.checkSequence event)
      (state.checkSequence (config.validatePerSymbolSequences &&
        config.replayConfig.validateSequenceNumbers) event) := by
  unfold ReplayStream.checkSequence SharedSymbolState.checkSequence
  rw [same, groupedConfig_sequence, h.expected]
  generalize (if s.state.expectedSequence = 0 then event.sequenceNumber
    else s.state.expectedSequence) = expected
  cases config.validatePerSymbolSequences && config.replayConfig.validateSequenceNumbers with
  | false => exact ⟨rfl, h, fun _ _ h => h, fun _ => rfl⟩
  | true =>
    simp only [Bool.not_true, Bool.false_eq_true, if_false]
    -- the expected number is stored before it is compared
    have stored : Mirrors { s with state := { s.state with expectedSequence := expected } }
        { state with expectedSequence := expected } book symbolId :=
      ⟨h.1, h.2, rfl, h.4, h.5, h.6, h.7, h.8, h.9, h.10, h.11, h.12⟩
    split
    · exact ⟨rfl, stored.fail index event _, fail_counts _ event _, nofun⟩
    · exact ⟨rfl, ⟨h.1, h.2, rfl, h.4, h.5, h.6, h.7, h.8, h.9, h.10, h.11, h.12⟩,
        fun _ _ h => h, fun _ => rfl⟩

theorem Mirrors.checkTimestamp (h : Mirrors s state book symbolId)
    (index : state.summary.eventCount = s.state.eventIndex + 1) {config : AggregateReplayConfig}
    (same : s.engine.config = groupedConfig config) (event : MarketDataEvent) :
    Checked symbolId book state (s.checkTimestamp event)
      (state.checkTimestamp config.replayConfig.validateTimestamps event) := by
  unfold ReplayStream.checkTimestamp SharedSymbolState.checkTimestamp
  rw [same, groupedConfig_timestamps, h.hasLastTimestamp, h.lastTimestamp]
  cases config.replayConfig.validateTimestamps with
  | false => exact ⟨rfl, h, fun _ _ h => h, fun _ => rfl⟩
  | true =>
    simp only [Bool.not_true, Bool.false_eq_true, if_false]
    split
    · exact ⟨rfl, h.fail index event _, fail_counts _ event _, nofun⟩
    · exact ⟨rfl, ⟨h.1, h.2, h.3, rfl, rfl, h.6, h.7, h.8, h.9, h.10, h.11, h.12⟩,
        fun _ _ h => h, fun _ => rfl⟩

end States

/-- An execution or a trade never makes the check of the book fail. -/
theorem activity_checked {s : ReplayStream} (running : s.Running)
    (supported : s.engine.config.Supported) {event : MarketDataEvent}
    (activity : event.eventType = .execute ∨ event.eventType = .trade)
    (hv : s.engine.validateEventBeforeApply event = none)
    (refused : (ReplayEngine.applyToBook s.engine.book event).2 = none) :
    ReplayEngine.validateBookAfterApply ⟨s.engine.config, s.bookAfter event⟩ = none := by
  have wf := (ReplayStream.bookAfter_wf running.wf hv).1
  rw [ReplayEngine.validateBookAfterApply_eq ⟨s.engine.config, s.bookAfter event⟩ wf
    supported]
  split
  · rename_i on
    have uncrossed := (OrderBook.uncrossed_iff running.wf).mp (running.uncrossed on)
    have out := applyToBook_outcome running.wf (ReplayEngine.validated hv)
    have done := out.done
    rw [refused] at done
    obtain ⟨q, hq⟩ := Option.isSome_iff_exists.mp done.symm
    have queue := out.queue
    rw [hq] at queue
    refine validateTopOfBook_eq_none.mpr ((OrderBook.uncrossed_iff wf).mpr ?_)
    have idle : Queues.incoming s.engine.book.queue event = none := by
      unfold Queues.incoming
      rcases activity with ht | ht
      · rw [ht]
      · rw [ht]
    have hu := (apply_uncrossed running.wf uncrossed hq).mpr (by
      rintro ⟨-, o, ho, -⟩
      rw [idle] at ho
      cases ho)
    exact (congrArg Queues.Uncrossed queue).mpr hu
  · rfl

/-- Applying an event to the set writes the book of its symbol only. -/
theorem apply_spec {set : MultiSymbolBookSet} {event : MarketDataEvent} {b : OrderBook}
    (valid : event.symbolId ≠ invalidSymbolId)
    (held : (set.findBook event.symbolId).getD (.new event.symbolId) = b) :
    ∃ set', set.apply event = (set', (ReplayEngine.applyToBook b event).2.isNone) ∧
      set'.findBook event.symbolId = some (ReplayEngine.applyToBook b event).1 ∧
      ∀ k, k ≠ event.symbolId → set'.findBook k = set.findBook k := by
  refine ⟨⟨set.books.upsert event.symbolId (.new event.symbolId)
    (fun _ => (ReplayEngine.applyToBook b event).1)⟩, ?_, ?_, ?_⟩
  · simp only [MultiSymbolBookSet.apply, if_neg valid, held, sharedApply_eq]
  · exact SortedMap.find?_upsert_self ..
  · exact fun k hk => SortedMap.find?_upsert_ne _ _ _ hk

theorem Mirrors.applyShared {s : ReplayStream} {state : SharedSymbolState}
    {set : MultiSymbolBookSet} {event : MarketDataEvent} {config : AggregateReplayConfig}
    (h : Mirrors s state (set.findBook event.symbolId) event.symbolId)
    (index : state.summary.eventCount = s.state.eventIndex + 1)
    (same : s.engine.config = groupedConfig config) (supported : s.engine.config.Supported)
    (running : s.Running) (symbol : s.engine.book.symbolId = event.symbolId) :
    let served := SharedReplay.applyShared config set state event
    Mirrors (s.applyStep event).1 served.2 (served.1.findBook event.symbolId) event.symbolId ∧
      SameCounts state.summary served.2.summary ∧
      ∀ k, k ≠ event.symbolId → served.1.findBook k = set.findBook k := by
  have validate := validateShared_eq symbol h.book
  cases hv : s.engine.validateEventBeforeApply event with
  | some reason =>
    rw [hv] at validate
    simp only [SharedReplay.applyShared, ReplayStream.applyStep, hv, validate]
    exact ⟨h.fail index event reason, fail_counts state event reason, fun _ _ => trivial⟩
  | none =>
    rw [hv] at validate
    have hsym : event.symbolId ≠ invalidSymbolId := (passed hv).1
    have valid := ReplayEngine.validated hv
    obtain ⟨set', happ, self, other⟩ := apply_spec hsym h.book
    have refusedCase : ∀ {reason : String}, _ := @applyToBook_refused _ event running.wf valid
    have activity := fun active => activity_checked running supported active hv
    unfold ReplayStream.bookAfter at activity
    obtain ⟨⟨b, refusal⟩, hb⟩ : ∃ p, ReplayEngine.applyToBook s.engine.book event = p := ⟨_, rfl⟩
    rw [hb] at happ self refusedCase activity
    cases refusal with
    | some reason =>
      obtain ⟨-, ht, rfl⟩ := refusedCase rfl
      have happ : set.apply event = (set', false) := happ
      have text : applyFailureReason event.eventType = "failed to apply Snapshot event" := by
        rw [ht]
        rfl
      simp only [SharedReplay.applyShared, ReplayStream.applyStep, ReplayEngine.applyEvent, hv,
        validate, happ, hb, text]
      have f := h.fail index event "failed to apply Snapshot event"
      refine ⟨⟨?_, f.2, f.3, f.4, f.5, f.6, f.7, f.8, f.9, f.10, f.11, f.12⟩,
        fail_counts state event _, other⟩
      rw [self]
      rfl
    | none =>
      have happ : set.apply event = (set', true) := happ
      have check := validateSharedBook_eq ⟨s.engine.config, b⟩ config same
      have book' : ((some b).getD (.new event.symbolId) : OrderBook) = b := rfl
      cases hc : ReplayEngine.validateBookAfterApply ⟨s.engine.config, b⟩ with
      | some reason =>
        rw [hc] at check
        have idle : ¬ (event.eventType = .execute ∨ event.eventType = .trade) := by
          intro ha
          rw [activity ha rfl] at hc
          cases hc
        simp only [SharedReplay.applyShared, ReplayStream.applyStep, ReplayEngine.applyEvent, hv,
          validate, happ, hb, self, check, hc, if_neg idle]
        have f := h.fail index event reason
        exact ⟨⟨rfl, f.2, f.3, f.4, f.5, f.6, f.7, f.8, f.9, f.10, f.11, f.12⟩,
          fail_counts state event _, other⟩
      | none =>
        rw [hc] at check
        by_cases ha : event.eventType = .execute ∨ event.eventType = .trade
        · -- the new checksum is named before anything is compared
          obtain ⟨c, hs⟩ : ∃ c, MarketDataEvent.appendToChecksum s.result.executionReportChecksum
            event = c := ⟨_, rfl⟩
          have ht : MarketDataEvent.appendToChecksum state.summary.executionReportChecksum
              event = c := by rw [h.execution, hs]
          simp only [SharedReplay.applyShared, ReplayStream.applyStep, ReplayEngine.applyEvent, hv,
            validate, happ, hb, self, check, hc, if_pos ha, ReplayResult.updateActivityChecksum, hs,
            ht]
          exact ⟨⟨rfl, h.2, h.3, h.4, h.5, h.6, rfl, h.8, h.9, h.10, h.11, h.12⟩,
            fun _ _ h => ⟨h.1, h.2, h.3, h.4, h.5, h.6, h.7⟩, other⟩
        · simp only [SharedReplay.applyShared, ReplayStream.applyStep, ReplayEngine.applyEvent, hv,
            validate, happ, hb, self, check, hc, if_neg ha]
          exact ⟨⟨rfl, h.2, h.3, h.4, h.5, h.6, h.7, h.8, h.9, h.10, h.11, h.12⟩,
            fun _ _ h => h, other⟩

/-- The replay of one symbol's events, as the grouped replay runs it. -/
abbrev symbolReplay (config : AggregateReplayConfig) (symbolId : Nat)
    (events : List MarketDataEvent) : ReplayStream × Bool :=
  loop ReplayStream.step (stream0 symbolId (groupedConfig config) []) events

theorem symbolReplay_symbol {config : AggregateReplayConfig} {symbolId : Nat}
    {events : List MarketDataEvent} (on : (symbolReplay config symbolId events).2 = true) :
    (symbolReplay config symbolId events).1.engine.book.symbolId = symbolId := by
  have kept := loop_kept (I := fun s => s.Running ∧ s.engine.book.symbolId = symbolId)
    (fun s event hs flag => by
      obtain ⟨accepts, -, book⟩ := ReplayStream.step_served flag
      refine ⟨ReplayStream.running_step hs.1 flag, ?_⟩
      rw [book]
      exact (ReplayStream.bookAfter_wf hs.1.wf accepts.1.2).2.trans hs.2)
    ⟨ReplayStream.running_start symbolId (groupedConfig config) [], rfl⟩ events on
  exact kept.2

/-- The shared state of a symbol after the symbol's events. A symbol without events has no
state and no book. -/
def Follows (config : AggregateReplayConfig) (symbolId : Nat) (events : List MarketDataEvent)
    (book : Option OrderBook) : Option SharedSymbolState → Prop
  | none => events = [] ∧ book = none
  | some state => events ≠ [] ∧ Counts state.summary symbolId events ∧
      Mirrors (symbolReplay config symbolId events).1 state book symbolId

section Serving
variable {config : AggregateReplayConfig} {events : List MarketDataEvent}
  {event : MarketDataEvent} {book : Option OrderBook} {state : Option SharedSymbolState}

theorem count_follows (h : Follows config event.symbolId events book state) :
    Counts ((state.getD {}).count event).summary event.symbolId (events ++ [event]) ∧
      Mirrors (symbolReplay config event.symbolId events).1 ((state.getD {}).count event) book
        event.symbolId := by
  cases state with
  | none =>
    obtain ⟨rfl, rfl⟩ := h
    refine ⟨⟨rfl, rfl, rfl, rfl, rfl, rfl, rfl⟩, ?_⟩
    exact ⟨rfl, rfl, rfl, rfl, rfl, rfl, rfl, rfl, rfl, rfl, rfl, rfl⟩
  | some state =>
    obtain ⟨some, counts, mirrors⟩ := h
    have old : ¬ state.summary.eventCount = 0 := by
      rw [counts.count]
      exact fun h => some (List.length_eq_zero_iff.mp h)
    obtain ⟨first, rest, rfl⟩ := List.exists_cons_of_ne_nil some
    simp only [SharedSymbolState.count, Option.getD_some, if_neg old]
    refine ⟨⟨counts.1, ?_, counts.3, ?_, counts.5, ?_, ?_⟩, ?_⟩
    · simp [counts.count]
    · rw [List.getLast?_concat]
      rfl
    · rw [List.getLast?_concat]
      rfl
    · rw [counts.log, checksumEvents, checksumEvents, List.foldl_append]
      rfl
    · exact ⟨mirrors.1, mirrors.2, mirrors.3, mirrors.4, mirrors.5, mirrors.6, mirrors.7,
        mirrors.8, mirrors.9, mirrors.10, mirrors.11, mirrors.12⟩

/-- Serving a counted event does on the shared state what a step does on the symbol's replay. -/
theorem serve_follows {set : MultiSymbolBookSet} (supported : (groupedConfig config).Supported)
    (h : Follows config event.symbolId events (set.findBook event.symbolId) state) :
    let served := SharedReplay.serve config set (state.getD {}) event
    Follows config event.symbolId (events ++ [event]) (served.1.findBook event.symbolId)
        (some served.2) ∧
      ∀ k, k ≠ event.symbolId → served.1.findBook k = set.findBook k := by
  obtain ⟨counts, mirrors⟩ := count_follows h
  obtain ⟨counted, hcounted⟩ : ∃ c, (state.getD {}).count event = c := ⟨_, rfl⟩
  rw [hcounted] at counts mirrors
  obtain ⟨s, hs⟩ : ∃ s, (symbolReplay config event.symbolId events).1 = s := ⟨_, rfl⟩
  have halted := halted_iff (ReplayStream.running_start event.symbolId (groupedConfig config) [])
    events
  rw [ReplayStream.steps_eq_loop] at halted
  cases on : (symbolReplay config event.symbolId events).2 with
  | false =>
    have failed : counted.failed = true := by
      rw [mirrors.failed]
      exact halted.trans (congrArg not on)
    simp only [SharedReplay.serve, hcounted, failed, if_true]
    refine ⟨⟨by simp, counts, ?_⟩, fun _ _ => trivial⟩
    rw [symbolReplay, loop_append_off on]
    exact mirrors
  | true =>
    have running := ReplayStream.running_loop
      (ReplayStream.running_start event.symbolId (groupedConfig config) []) events on
    have same := ReplayStream.config_loop
      (stream0 event.symbolId (groupedConfig config) []) events
    have symbol := symbolReplay_symbol on
    have processed := ReplayStream.processed_loop events on
    have after : (symbolReplay config event.symbolId (events ++ [event])).1 =
        (s.step event).1 := by
      rw [symbolReplay, loop_append_on on, loop_single, ← hs]
    rw [hs] at mirrors
    replace hs : (loop ReplayStream.step (stream0 event.symbolId (groupedConfig config) [])
      events).1 = s := hs
    rw [hs] at running same processed
    have symbol : s.engine.book.symbolId = event.symbolId := hs ▸ symbol
    have same : s.engine.config = groupedConfig config := same
    have index : counted.summary.eventCount = s.state.eventIndex + 1 := by
      rw [counts.count, running.index, processed, List.length_append]
      have none : (stream0 event.symbolId (groupedConfig config) []).result.eventsProcessed = 0 := rfl
      rw [none]
      simp
    have going : counted.failed = false := by
      rw [mirrors.failed]
      exact running.going
    obtain ⟨⟨t, inOrder⟩, ht⟩ : ∃ p, s.checkSequence event = p := ⟨_, rfl⟩
    obtain ⟨⟨c, flag⟩, hc⟩ : ∃ q, counted.checkSequence (config.validatePerSymbolSequences &&
      config.replayConfig.validateSequenceNumbers) event = q := ⟨_, rfl⟩
    have checked := mirrors.checkSequence index same event
    have order := @ReplayStream.checkSequence_on s event
    rw [ht, hc] at checked
    rw [ht] at order
    obtain rfl : inOrder = flag := checked.flag
    cases inOrder with
    | false =>
      have step : s.step event = (t, false) := by simp only [ReplayStream.step, ht]
      simp only [SharedReplay.serve, hcounted, going, Bool.false_eq_true, if_false, hc]
      refine ⟨⟨by simp, checked.counts _ _ counts, ?_⟩, fun _ _ => trivial⟩
      rw [after, step]
      exact checked.mirrors
    | true =>
      obtain ⟨⟨u, inTime⟩, hu⟩ : ∃ p, t.checkTimestamp event = p := ⟨_, rfl⟩
      obtain ⟨⟨d, flag⟩, hd⟩ : ∃ q, c.checkTimestamp config.replayConfig.validateTimestamps event =
        q := ⟨_, rfl⟩
      have order := order rfl
      have index' : c.summary.eventCount = t.state.eventIndex + 1 := by
        rw [checked.summary rfl, order.index, index]
      have checked' := checked.mirrors.checkTimestamp index'
        ((congrArg ReplayEngine.config order.engine).trans same) event
      have order' := @ReplayStream.checkTimestamp_on t event
      rw [hu, hd] at checked'
      rw [hu] at order'
      obtain rfl : inTime = flag := checked'.flag
      have counts' := checked'.counts _ _ (checked.counts _ _ counts)
      cases inTime with
      | false =>
        have step : s.step event = (u, false) := by simp only [ReplayStream.step, ht, hu]
        simp only [SharedReplay.serve, hcounted, going, Bool.false_eq_true, if_false, hc, hd]
        refine ⟨⟨by simp, counts', ?_⟩, fun _ _ => trivial⟩
        rw [after, step]
        exact checked'.mirrors
      | true =>
        have order' := order.trans (order' rfl)
        have step : s.step event = u.applyStep event := by
          simp only [ReplayStream.step, ht, hu]
        have index'' : d.summary.eventCount = u.state.eventIndex + 1 := by
          rw [checked'.summary rfl, checked.summary rfl, order'.index, index]
        have same' := (congrArg ReplayEngine.config order'.engine).trans same
        have applied := checked'.mirrors.applyShared index'' same' (same' ▸ supported)
          (order'.running running)
          ((congrArg (fun e => e.book.symbolId) order'.engine).trans symbol)
        simp only [SharedReplay.serve, hcounted, going, Bool.false_eq_true, if_false, hc, hd]
        refine ⟨⟨by simp, applied.2.1 _ _ counts', ?_⟩, applied.2.2⟩
        rw [after, step]
        exact applied.1

end Serving

def sharedRun (config : AggregateReplayConfig) (events : List MarketDataEvent) : SharedReplay :=
  events.foldl (SharedReplay.step config) {}

theorem foldl_follows {config : AggregateReplayConfig} (supported : (groupedConfig config).Supported)
    (events : List MarketDataEvent) (symbolId : Nat) :
    Follows config symbolId (events.filter (fun event => event.symbolId = symbolId))
      ((sharedRun config events).bookSet.findBook symbolId)
      ((sharedRun config events).states.find? symbolId) := by
  induction events using List.reverseRecOn generalizing symbolId with
  | nil => exact ⟨rfl, rfl⟩
  | append_singleton events event ih =>
    have next : sharedRun config (events ++ [event]) =
        SharedReplay.step config (sharedRun config events) event := by
      rw [sharedRun, List.foldl_append]
      rfl
    rw [next]
    obtain ⟨s, hs⟩ : ∃ s, sharedRun config events = s := ⟨_, rfl⟩
    have served := serve_follows supported (hs ▸ ih event.symbolId : Follows _ _ _ _ _)
    rw [hs]
    simp only [SharedReplay.step]
    by_cases hk : event.symbolId = symbolId
    · subst hk
      have last : (events ++ [event]).filter (fun e => e.symbolId = event.symbolId) =
          events.filter (fun e => e.symbolId = event.symbolId) ++ [event] := by simp
      rw [last, SortedMap.find?_upsert_self]
      exact served.1
    · have same : (events ++ [event]).filter (fun e => e.symbolId = symbolId) =
          events.filter (fun e => e.symbolId = symbolId) := by simp [hk]
      rw [same, SortedMap.find?_upsert_ne _ _ _ (Ne.symm hk), served.2 symbolId (Ne.symm hk)]
      exact hs ▸ ih symbolId

attribute [ext] SymbolReplaySummary

/-- The end of the grouped replay of a symbol. -/
theorem groupedSummary_eq (config : AggregateReplayConfig) (symbolId : Nat)
    (events : List MarketDataEvent) :
    (ReplayEngine.new symbolId (groupedConfig config)).replayEvents events =
      { (symbolReplay config symbolId events).1.result with
        eventLogChecksum := checksumEvents events
        finalBookChecksum := (symbolReplay config symbolId events).1.engine.book.checksum } := by
  rw [replayEvents_eq, bookAfterReplay_eq symbolId _ [],
    loop_log symbolId (groupedConfig config) [] events events]
  rfl

/-- The last check of the shared replay finds nothing, as that of the engine. -/
theorem finish_eq {config : AggregateReplayConfig} {set : MultiSymbolBookSet} {symbolId : Nat}
    {events : List MarketDataEvent}
    {state : SharedSymbolState}
    (h : Follows config symbolId events (set.findBook symbolId) (some state)) :
    SharedReplay.finish config set symbolId state = groupedSummary config symbolId events := by
  obtain ⟨-, counts, mirrors⟩ := h
  have start := ReplayStream.running_start symbolId (groupedConfig config) []
  have sound := ReplayStream.steps_sound start events
  have halted := halted_iff start events
  rw [ReplayStream.steps_eq_loop] at sound halted
  have quiet : SharedReplay.finish config set symbolId state =
      { state.summary with
        finalBookChecksum := ((set.findBook symbolId).getD (.new symbolId)).checksum
        diagnosticCount := state.summary.diagnostics.length } := by
    unfold SharedReplay.finish
    cases hb : set.findBook symbolId with
    | none => rfl
    | some book =>
      have held : book = (symbolReplay config symbolId events).1.engine.book := by
        have := mirrors.book
        rwa [hb] at this
      dsimp only
      split
      · rename_i final
        have going : (symbolReplay config symbolId events).2 = true := by
          have failed : (!state.failed) = true := final.1
          rw [mirrors.failed, halted] at failed
          simpa using failed
        have running := ReplayStream.running_loop start events going
        have on : (loop ReplayStream.step (stream0 symbolId (groupedConfig config) [])
            events).1.engine.config.validateBookState = true := by
          rw [ReplayStream.config_loop]
          have : (groupedConfig config).validateBookState = true := by
            unfold groupedConfig
            split
            · exact final.2.1
            · exact final.2.1
          exact this
        have clean := validateTopOfBook_eq_none.mpr (running.uncrossed on)
        have full := validateFullBook_eq running.wf "final "
        have shared : validateSharedFullBook book "final " = none := by
          rw [held]
          exact full.trans clean
        rw [shared]
        rfl
      · rfl
  rw [quiet, mirrors.book, groupedSummary, groupedSummary_eq]
  apply SymbolReplaySummary.ext
  · exact counts.symbol
  · exact counts.count
  · exact counts.firstSequence
  · exact counts.lastSequence
  · exact counts.firstTimestamp
  · exact counts.lastTimestamp
  · exact mirrors.valid
  · exact counts.log
  · rfl
  · exact mirrors.execution
  · exact mirrors.checksum
  · exact congrArg List.length mirrors.diagnostics
  · exact mirrors.errors
  · exact mirrors.warnings
  · exact mirrors.diagnostics
  · exact mirrors.error

theorem foldl_snoc {α : Type} (xs : List α) : xs.foldl (fun ys x => ys ++ [x]) [] = xs := by
  induction xs using List.reverseRecOn with
  | nil => rfl
  | append_singleton xs x ih => rw [List.foldl_append, ih]; rfl

theorem find?_groupedEvents (events : List MarketDataEvent) (symbolId : Nat) :
    (groupedEvents events).find? symbolId =
      if events.filter (fun event => event.symbolId = symbolId) = [] then none
      else some (events.filter (fun event => event.symbolId = symbolId)) := by
  unfold groupedEvents
  rw [SortedMap.find?_collect, foldl_snoc]

section Runs
variable {config : AggregateReplayConfig} (supported : config.replayConfig.Supported)
  (events : List MarketDataEvent)
include supported

theorem supported_grouped : (groupedConfig config).Supported := by
  unfold ReplayConfig.Supported
  rw [groupedConfig_mode]
  exact supported

/-- Both replays list the same summaries. -/
theorem symbols_eq :
    (sharedRun config events).states.entries.map
        (fun e => SharedReplay.finish config (sharedRun config events).bookSet e.1 e.2) =
      (groupedEvents events).entries.map (fun e => groupedSummary config e.1 e.2) := by
  apply SortedMap.map_entries_eq
  intro symbolId
  have h := foldl_follows (supported_grouped supported) events symbolId
  rw [find?_groupedEvents]
  cases hs : (sharedRun config events).states.find? symbolId with
  | none =>
    rw [hs] at h
    rw [if_pos h.1]
    rfl
  | some state =>
    rw [hs] at h
    rw [if_neg h.1]
    exact congrArg some (finish_eq h)

theorem states_of_books {symbolId : Nat}
    (h : (sharedRun config events).bookSet.findBook symbolId ≠ none) :
    (sharedRun config events).states.find? symbolId ≠ none := by
  have follows := foldl_follows (supported_grouped supported) events symbolId
  intro hs
  rw [hs] at follows
  exact h follows.2

theorem combined_eq
    (same : (sharedRun config events).bookSet.symbolCount =
      ((groupedEvents events).entries.map (fun e => groupedSummary config e.1 e.2)).length) :
    (sharedRun config events).bookSet.combinedChecksum = checksumCombinedBooksFromSummaries
      ((groupedEvents events).entries.map (fun e => groupedSummary config e.1 e.2)) := by
  rw [← symbols_eq supported, List.length_map] at same
  rw [← symbols_eq supported]
  have sub := fun symbolId => @states_of_books _ supported events symbolId
  have follows := fun symbolId => foldl_follows (supported_grouped supported) events symbolId
  obtain ⟨s, hs⟩ : ∃ s, sharedRun config events = s := ⟨_, rfl⟩
  rw [hs] at same sub ⊢
  rw [hs] at follows
  have keys {symbolId : Nat} := SortedMap.keys_of_length (k := symbolId) sub same
  have checksum (set : MultiSymbolBookSet) (symbolId : Nat) (state : SharedSymbolState)
      {book : OrderBook} (h : set.findBook symbolId = some book) :
      (SharedReplay.finish config set symbolId state).finalBookChecksum = book.checksum := by
    simp only [SharedReplay.finish, h]
  unfold MultiSymbolBookSet.combinedChecksum checksumCombinedBooksFromSummaries
  congr 1
  rw [List.map_map]
  refine SortedMap.map_entries_eq s.bookSet.books s.states (fun k book => (k, book.checksum))
    (fun k state => ((SharedReplay.finish config s.bookSet k state).symbolId,
      (SharedReplay.finish config s.bookSet k state).finalBookChecksum)) fun symbolId => ?_
  have follows := follows symbolId
  cases hb : s.bookSet.books.find? symbolId with
  | none =>
    cases hstate : s.states.find? symbolId with
    | none => rfl
    | some state => exact absurd hb (keys (by rw [hstate]; exact Option.some_ne_none state))
  | some book =>
    cases hstate : s.states.find? symbolId with
    | none => exact absurd hstate (sub symbolId (by
        rw [MultiSymbolBookSet.findBook, hb]
        exact Option.some_ne_none book))
    | some state =>
      have symbol : (SharedReplay.finish config s.bookSet symbolId state).symbolId = symbolId := by
        rw [hstate] at follows
        rw [finish_eq follows]
        rfl
      have final := checksum s.bookSet symbolId state hb
      simp only [Option.map_some, symbol, final]

theorem replay_parity : replayBySymbol events config = replaySharedBySymbol events config := by
  have combined := combined_eq supported events
  have symbols := symbols_eq supported events
  have shared : replaySharedBySymbol events config =
      ({ totalEvents := events.length
         symbols := (sharedRun config events).states.entries.map
          (fun e => SharedReplay.finish config (sharedRun config events).bookSet e.1 e.2)
         symbolCount := ((sharedRun config events).states.entries.map
          (fun e => SharedReplay.finish config (sharedRun config events).bookSet e.1 e.2)).length
         combinedBookChecksum := checksumCombinedBooksFromSummaries
          ((sharedRun config events).states.entries.map
            (fun e => SharedReplay.finish config (sharedRun config events).bookSet e.1 e.2))
         error :=
          if (sharedRun config events).bookSet.symbolCount =
              ((sharedRun config events).states.entries.map (fun e =>
                SharedReplay.finish config (sharedRun config events).bookSet e.1 e.2)).length ∧
              (sharedRun config events).bookSet.combinedChecksum ≠
                checksumCombinedBooksFromSummaries ((sharedRun config events).states.entries.map
                  (fun e => SharedReplay.finish config (sharedRun config events).bookSet e.1 e.2)) then
            "shared replay combined checksum mismatch"
          else "" } : AggregateReplaySummary).sealed := rfl
  rw [shared, symbols, if_neg (fun h => h.2 (combined h.1))]
  rfl

end Runs

/-- A comparison of equal replays reports no mismatch. -/
theorem compare_matched {events : List MarketDataEvent} {config : AggregateReplayConfig}
    (same : replayBySymbol events config = replaySharedBySymbol events config) :
    (compareReplayParity events config).matched = true := by
  unfold compareReplayParity
  rw [← same]
  obtain ⟨grouped, hg⟩ : ∃ g, replayBySymbol events config = g := ⟨_, rfl⟩
  rw [hg]
  obtain ⟨m, hm⟩ : ∃ m, bySymbol grouped.symbols = m := ⟨_, rfl⟩
  have entries (item : Nat × Bool) (h : item ∈ (SortedMap.collect
      (fun item : Nat × SymbolReplaySummary => item.1) false (fun _ _ => true)
      (m.entries ++ m.entries) : SymbolMap Bool).entries) :
      (parityEntry m m item.1).matched = true := by
    have found := SortedMap.find?_eq_some _ |>.mpr (show (item.1, item.2) ∈ _ from h)
    rw [SortedMap.find?_collect] at found
    split at found
    · cases found
    · rename_i some
      obtain ⟨e, he⟩ := List.exists_mem_of_ne_nil _ some
      obtain ⟨he, hk⟩ := List.mem_filter.mp he
      have he : e ∈ m.entries := by simpa using he
      have hfind : m.find? item.1 = Option.some e.2 := by
        rw [← of_decide_eq_true hk]
        exact m.find?_eq_some.mpr he
      simp [parityEntry, hfind]
  have none : (((SortedMap.collect (fun item : Nat × SymbolReplaySummary => item.1) false
      (fun _ _ => true) (m.entries ++ m.entries) : SymbolMap Bool).entries.map
      (fun item => parityEntry m m item.1)).filter (fun entry => !entry.matched)) = [] := by
    rw [List.filter_eq_nil_iff]
    intro entry hentry
    obtain ⟨item, hitem, rfl⟩ := List.mem_map.mp hentry
    simp [entries item hitem]
  simp only [hm, none, List.length_nil, beq_self_eq_true, Bool.and_self]

/-- Grouped and shared replay agree, so that comparing them always reports a match. -/
theorem grouped_shared_parity (config : AggregateReplayConfig)
    (supported : config.replayConfig.validationMode = .full ∨
      config.replayConfig.validationMode = .light) (events : List MarketDataEvent) :
    replayBySymbol events config = replaySharedBySymbol events config ∧
      (compareReplayParity events config).matched = true :=
  ⟨replay_parity supported events, compare_matched (replay_parity supported events)⟩

theorem grouped_shared_parity_crossing_ask :
    replayBySymbol [restingBid, crossingAsk] {} = replaySharedBySymbol [restingBid, crossingAsk] {} ∧
      (compareReplayParity [restingBid, crossingAsk] {}).matched = true :=
  grouped_shared_parity {} (Or.inl rfl) [restingBid, crossingAsk]

end Asterion
