import Asterion.MarketData.Snapshots

/-! Two replays that have reached books no reading distinguishes go on alike, whatever they
have replayed before. -/
namespace Asterion

open Lib Lib.StoppingLoop

def ReplayDiagnostic.later (d : ReplayDiagnostic) (n : Nat) : ReplayDiagnostic :=
  { d with eventIndex := d.eventIndex + n }

/-- Two results of replays that agree from their `k`-th and `l`-th event on, where their
activity checksums were `a` and `a'`. -/
structure ReplayResult.Alike (k l : Nat) (a a' : UInt64) (r r' : ReplayResult) : Prop where
  processed : r.eventsProcessed + l = r'.eventsProcessed + k
  valid : r.sequenceValid = r'.sequenceValid
  error : r.error = r'.error
  errors : r.diagnosticErrorCount = r'.diagnosticErrorCount
  warnings : r.diagnosticWarningCount = r'.diagnosticWarningCount
  diagnostics : r.diagnostics.map (·.later l) = r'.diagnostics.map (·.later k)
  activity : ∃ trades : List MarketDataEvent,
    r.executionReportChecksum = trades.foldl MarketDataEvent.appendToChecksum a ∧
      r'.executionReportChecksum = trades.foldl MarketDataEvent.appendToChecksum a'

section Results
variable {k l : Nat} {a a' : UInt64} {r r' : ReplayResult} (h : r.Alike k l a a' r')
include h

theorem ReplayResult.Alike.fail {i i' : Nat} (index : i + l = i' + k) (event : MarketDataEvent)
    (reason : String) : (r.fail i event reason).Alike k l a a' (r'.fail i' event reason) := by
  refine ⟨h.processed, h.valid, rfl, congrArg (· + 1) h.errors, h.warnings, ?_, h.activity⟩
  have hd : (r.fail i event reason).diagnostics = r.diagnostics ++
      [⟨i, event.sequenceNumber, event.symbolId, .error, reason⟩] := rfl
  have hd' : (r'.fail i' event reason).diagnostics = r'.diagnostics ++
      [⟨i', event.sequenceNumber, event.symbolId, .error, reason⟩] := rfl
  rw [hd, hd', List.map_append, List.map_append, h.diagnostics]
  simp only [List.map_cons, List.map_nil, ReplayDiagnostic.later, index]

theorem ReplayResult.Alike.updateActivityChecksum (event : MarketDataEvent) :
    (r.updateActivityChecksum event).Alike k l a a' (r'.updateActivityChecksum event) := by
  obtain ⟨trades, ha, ha'⟩ := h.activity
  obtain ⟨c, hc, hr⟩ : ∃ c, c = MarketDataEvent.appendToChecksum r.executionReportChecksum event ∧
      r.updateActivityChecksum event = { r with executionReportChecksum := c } := ⟨_, rfl, rfl⟩
  obtain ⟨c', hc', hr'⟩ : ∃ c,
      c = MarketDataEvent.appendToChecksum r'.executionReportChecksum event ∧
      r'.updateActivityChecksum event = { r' with executionReportChecksum := c } := ⟨_, rfl, rfl⟩
  rw [hr, hr']
  refine ⟨h.processed, h.valid, h.error, h.errors, h.warnings, h.diagnostics,
    trades ++ [event], ?_, ?_⟩
  · rw [List.foldl_append, List.foldl_cons, List.foldl_nil, ← ha]
    exact hc
  · rw [List.foldl_append, List.foldl_cons, List.foldl_nil, ← ha']
    exact hc'

theorem ReplayResult.Alike.stop :
    { r with sequenceValid := false }.Alike k l a a' { r' with sequenceValid := false } :=
  ⟨h.processed, rfl, h.error, h.errors, h.warnings, h.diagnostics, h.activity⟩

theorem ReplayResult.Alike.count :
    { r with eventsProcessed := r.eventsProcessed + 1 }.Alike k l a a'
      { r' with eventsProcessed := r'.eventsProcessed + 1 } := by
  refine ⟨?_, h.valid, h.error, h.errors, h.warnings, h.diagnostics, h.activity⟩
  have := h.processed
  dsimp only
  omega

end Results

section Books
variable {b c : OrderBook} (wf : b.WF) (wf' : c.WF) (same : b.Same c)
include wf wf' same

theorem applyToBook_same (event : MarketDataEvent) :
    (ReplayEngine.applyToBook b event).2 = (ReplayEngine.applyToBook c event).2 := by
  have queue := same.queue
  have agree {p p' : OrderBook × Bool} {q : Option Queues} {d d' : OrderBook}
      (hp : OrderBook.Outcome d p q) (hp' : OrderBook.Outcome d' p' q) : p.2 = p'.2 :=
    hp.done.trans hp'.done.symm
  have added : (b.addOrder event.order).2 = (c.addOrder event.order).2 :=
    agree (OrderBook.addOrder_outcome wf _)
      (queue ▸ same.symbol ▸ OrderBook.addOrder_outcome wf' event.order)
  have reduced : (b.reduceOrder event.orderId event.quantity).2 =
      (c.reduceOrder event.orderId event.quantity).2 :=
    agree (OrderBook.reduceOrder_outcome wf _ _)
      (queue ▸ OrderBook.reduceOrder_outcome wf' event.orderId event.quantity)
  have cancelled : (b.cancelOrder event.orderId).2 = (c.cancelOrder event.orderId).2 :=
    agree (OrderBook.cancelOrder_outcome wf _)
      (queue ▸ OrderBook.cancelOrder_outcome wf' event.orderId)
  have replaced := agree
    (OrderBook.replaceOrder_outcome wf event.orderId event.priceTicks event.quantity
      event.timestampNs event.sequenceNumber)
    (queue ▸ OrderBook.replaceOrder_outcome wf' event.orderId event.priceTicks event.quantity
      event.timestampNs event.sequenceNumber)
  have recorded : (b.clear.addOrder event.order).2 = (c.clear.addOrder event.order).2 := by
    have hb := OrderBook.addOrder_outcome (OrderBook.clear_wf b).1 event.order
    have hc := OrderBook.addOrder_outcome (OrderBook.clear_wf c).1 event.order
    rw [OrderBook.clear_queue] at hb hc
    have symbol : b.clear.symbolId = c.clear.symbolId := same.symbol
    rw [symbol] at hb
    exact agree hb hc
  unfold ReplayEngine.applyToBook
  cases event.eventType with
  | add => simp only [added]
  | cancel =>
    dsimp only
    split
    · simp only [reduced]
    · simp only [cancelled]
  | replace => simp only [replaced]
  | execute => simp only [reduced]
  | trade => rfl
  | heartbeat => rfl
  | snapshot =>
    dsimp only
    split
    · split
      · simp only [recorded]
      · simp only [added]
    · rfl

omit wf wf' in
theorem validateTopOfBook_same :
    ReplayEngine.validateTopOfBook b = ReplayEngine.validateTopOfBook c := by
  unfold ReplayEngine.validateTopOfBook OrderBook.bestBid OrderBook.bestAsk
  rw [same.bids, same.asks]

end Books

/-- Two streams that go on alike. -/
structure Twins (k l : Nat) (a a' : UInt64) (s t : ReplayStream) : Prop where
  config : t.engine.config = s.engine.config
  wf : s.engine.book.WF
  wf' : t.engine.book.WF
  book : s.engine.book.Same t.engine.book
  halted : s.state.halted = t.state.halted
  index : s.state.eventIndex + l = t.state.eventIndex + k
  result : s.result.Alike k l a a' t.result

section Streams
variable {k l : Nat} {a a' : UInt64} {s t : ReplayStream}

theorem twins_applyStep (h : Twins k l a a' s t) (supported : s.engine.config.Supported)
    (event : MarketDataEvent) :
    (s.applyStep event).2 = (t.applyStep event).2 ∧
      Twins k l a a' (s.applyStep event).1 (t.applyStep event).1 := by
  have validate : t.engine.validateEventBeforeApply event =
      s.engine.validateEventBeforeApply event := by
    unfold ReplayEngine.validateEventBeforeApply
    rw [h.book.symbol, h.book.find]
  cases hv : s.engine.validateEventBeforeApply event with
  | some reason =>
    rw [hv] at validate
    simp only [ReplayStream.applyStep, hv, validate]
    exact ⟨trivial, h.config, h.wf, h.wf', h.book, rfl, h.index, (h.result.fail h.index event reason).stop⟩
  | none =>
    rw [hv] at validate
    have valid := ReplayEngine.validated hv
    have out := applyToBook_outcome h.wf valid
    have out' := applyToBook_outcome h.wf' (ReplayEngine.validated validate)
    have refusals := applyToBook_same h.wf h.wf' h.book event
    have queues : (ReplayEngine.applyToBook s.engine.book event).1.queue =
        (ReplayEngine.applyToBook t.engine.book event).1.queue := by
      rw [out.queue, out'.queue, h.book.queue, h.book.symbol]
    have same := OrderBook.same_of_queue out.wf out'.wf queues
      (out.symbol.trans (h.book.symbol.trans out'.symbol.symm))
    have wf := out.wf
    have wf' := out'.wf
    obtain ⟨⟨b, refusal⟩, hb⟩ : ∃ p, ReplayEngine.applyToBook s.engine.book event = p := ⟨_, rfl⟩
    obtain ⟨⟨c, refusal'⟩, hc⟩ : ∃ p, ReplayEngine.applyToBook t.engine.book event = p := ⟨_, rfl⟩
    rw [hb, hc] at refusals same
    rw [hb] at wf
    rw [hc] at wf'
    obtain rfl : refusal = refusal' := refusals
    cases refusal with
    | some reason =>
      simp only [ReplayStream.applyStep, hv, validate, ReplayEngine.applyEvent, hb, hc]
      exact ⟨trivial, h.config, wf, wf', same, rfl, h.index, (h.result.fail h.index event reason).stop⟩
    | none =>
      have check : ReplayEngine.validateBookAfterApply ⟨t.engine.config, c⟩ =
          ReplayEngine.validateBookAfterApply ⟨s.engine.config, b⟩ := by
        rw [h.config]
        have hs := ReplayEngine.validateBookAfterApply_eq ⟨s.engine.config, b⟩ wf
          supported
        have ht := ReplayEngine.validateBookAfterApply_eq ⟨s.engine.config, c⟩ wf'
          supported
        rw [hs, ht, validateTopOfBook_same same]
      obtain ⟨r, hr⟩ : ∃ r, (if event.eventType = .execute ∨ event.eventType = .trade then
          s.result.updateActivityChecksum event else s.result) = r := ⟨_, rfl⟩
      obtain ⟨r', hr'⟩ : ∃ r, (if event.eventType = .execute ∨ event.eventType = .trade then
          t.result.updateActivityChecksum event else t.result) = r := ⟨_, rfl⟩
      have result : r.Alike k l a a' r' := by
        rw [← hr, ← hr']
        split
        · exact h.result.updateActivityChecksum event
        · exact h.result
      cases hk : ReplayEngine.validateBookAfterApply ⟨s.engine.config, b⟩ with
      | some reason =>
        rw [hk] at check
        simp only [ReplayStream.applyStep, hv, validate, ReplayEngine.applyEvent, hb, hc, hr, hr',
          hk, check]
        exact ⟨trivial, h.config, wf, wf', same, rfl, h.index, (result.fail h.index event reason).stop⟩
      | none =>
        rw [hk] at check
        simp only [ReplayStream.applyStep, hv, validate, ReplayEngine.applyEvent, hb, hc, hr, hr',
          hk, check]
        refine ⟨trivial, h.config, wf, wf', same, h.halted, ?_, result.count⟩
        have := h.index
        dsimp only
        omega

theorem bookOnly_config (h : s.BookOnly) (event : MarketDataEvent) :
    (s.step event).1.BookOnly := by
  have config : (s.step event).1.engine.config = s.engine.config := by
    rcases s.step_spec event with ⟨-, -, stopped, -⟩ | ⟨-, -, served, -⟩
    · exact stopped.config
    · exact served.config
  exact ⟨config ▸ h.state, config ▸ h.supported, config ▸ h.sequence, config ▸ h.timestamps⟩

theorem twins_step (h : Twins k l a a' s t) (config : s.BookOnly) (event : MarketDataEvent) :
    (s.step event).2 = (t.step event).2 ∧ Twins k l a a' (s.step event).1 (t.step event).1 := by
  have config' : t.BookOnly :=
    ⟨h.config ▸ config.state, h.config ▸ config.supported, h.config ▸ config.sequence,
      h.config ▸ config.timestamps⟩
  rw [config.step, config'.step]
  exact twins_applyStep h config.supported event

theorem twins_loop (h : Twins k l a a' s t) (config : s.BookOnly) (events : List MarketDataEvent) :
    Twins k l a a' (loop ReplayStream.step s events).1 (loop ReplayStream.step t events).1 :=
  (loop_related (R := fun s t => Twins k l a a' s t ∧ s.BookOnly)
    (fun _ _ event h => (twins_step h.1 h.2 event).1)
    (fun _ _ event h => ⟨(twins_step h.1 h.2 event).2, bookOnly_config h.2 event⟩)
    ⟨h, config⟩ events).2.1

end Streams

section Replays
variable (symbolId : Nat) (config : ReplayConfig)

/-- The loop does not depend on the log whose checksum the stream carries. -/
theorem loop_log (log log' events : List MarketDataEvent) :
    loop ReplayStream.step (stream0 symbolId config log') events =
      ((loop ReplayStream.step (stream0 symbolId config log) events).1.recast config
        (checksumEvents log'), (loop ReplayStream.step (stream0 symbolId config log) events).2) := by
  have h := ReplayEngine.steps_start (.refl config) symbolId events log log'
  rw [ReplayStream.steps_eq_loop, ReplayStream.steps_eq_loop] at h
  have hf := halted_iff (ReplayStream.running_start symbolId config log') events
  have hf' := halted_iff (ReplayStream.running_start symbolId config log) events
  rw [ReplayStream.steps_eq_loop] at hf hf'
  refine Prod.ext h ?_
  apply Bool.not_inj
  rw [← hf, ← hf', h]
  rfl

variable {symbolId config}

theorem loop_on_of_clean {events : List MarketDataEvent}
    (clean : ((ReplayEngine.new symbolId config).replayEvents events).diagnostics = []) :
    (loop ReplayStream.step (stream0 symbolId config events) events).2 = true := by
  rw [replayEvents_eq] at clean
  cases on : (loop ReplayStream.step (stream0 symbolId config events) events).2 with
  | true => rfl
  | false =>
    obtain ⟨pre, event, post, -, -, off, stop⟩ := loop_stopped on
    obtain ⟨reason, diagnosed⟩ := (ReplayStream.step_stopped off).2.1.diagnosed
    rw [stop] at clean
    have hd : [] = _ := clean.symm.trans diagnosed
    simp at hd

end Replays

/-- The block rebuilds the book of the first events after the second ones, and what follows is
replayed alike from both. -/
structure RebuildsBook (engine : ReplayEngine) (first second block : List MarketDataEvent) :
    Prop where
  clean : (engine.replayEvents (second ++ block)).diagnostics = []
  book : (engine.bookAfterReplay first).Same (engine.bookAfterReplay (second ++ block))
  checksum : (engine.replayEvents first).finalBookChecksum =
    (engine.replayEvents (second ++ block)).finalBookChecksum
  result : ∀ events, (engine.replayEvents (first ++ events)).Alike
    first.length (second ++ block).length
    (engine.replayEvents first).executionReportChecksum
    (engine.replayEvents (second ++ block)).executionReportChecksum
    (engine.replayEvents (second ++ block ++ events))
  books : ∀ events, (engine.bookAfterReplay (first ++ events)).Same
    (engine.bookAfterReplay (second ++ block ++ events))
  checksums : ∀ events, (engine.replayEvents (first ++ events)).finalBookChecksum =
    (engine.replayEvents (second ++ block ++ events)).finalBookChecksum

section Rebuild
variable {symbolId : Nat} {config : ReplayConfig}

theorem rebuilding_of_clean (book : config.validateBookState = true) (supported : config.Supported)
    (sequence : config.validateSequenceNumbers = false)
    (timestamps : config.validateTimestamps = false) {events : List MarketDataEvent}
    (on : (loop ReplayStream.step (stream0 symbolId config events) events).2 = true) :
    ReplayStream.Rebuilding symbolId
      (loop ReplayStream.step (stream0 symbolId config events) events).1 :=
  ReplayStream.Rebuilding.loop ⟨ReplayStream.running_start symbolId config events,
    ⟨book, supported, sequence, timestamps⟩, rfl⟩ events on

theorem anonymous_loop (events : List MarketDataEvent)
    (on : (loop ReplayStream.step (stream0 symbolId config events) events).2 = true) :
    Anonymous (loop ReplayStream.step (stream0 symbolId config events) events).1.engine.book.queue := by
  have kept := loop_kept (I := fun s => s.Running ∧ Anonymous s.engine.book.queue)
    (fun s event hs flag => by
      obtain ⟨accepts, -, book⟩ := ReplayStream.step_served flag
      refine ⟨ReplayStream.running_step hs.1 flag, ?_⟩
      rw [book]
      exact anonymous_apply hs.2 (ReplayStream.taken hs.1 accepts.1 accepts.2.1))
    ⟨ReplayStream.running_start symbolId config events, fun s o ho => by cases s <;> cases ho⟩
    events on
  exact kept.2

/-- Two replays that served all their events and left books no reading distinguishes. -/
theorem twins_of_same {first second : List MarketDataEvent}
    (on : (loop ReplayStream.step (stream0 symbolId config first) first).2 = true)
    (on' : (loop ReplayStream.step (stream0 symbolId config second) second).2 = true)
    (same : ((ReplayEngine.new symbolId config).bookAfterReplay first).Same
      ((ReplayEngine.new symbolId config).bookAfterReplay second))
    (log log' : List MarketDataEvent) :
    Twins first.length second.length
      ((ReplayEngine.new symbolId config).replayEvents first).executionReportChecksum
      ((ReplayEngine.new symbolId config).replayEvents second).executionReportChecksum
      (loop ReplayStream.step (stream0 symbolId config log) first).1
      (loop ReplayStream.step (stream0 symbolId config log') second).1 := by
  have running := ReplayStream.running_loop
    (ReplayStream.running_start symbolId config first) first on
  have running' := ReplayStream.running_loop
    (ReplayStream.running_start symbolId config second) second on'
  have count := ReplayStream.processed_loop first on
  have count' := ReplayStream.processed_loop second on'
  rw [bookAfterReplay_eq symbolId config first, bookAfterReplay_eq symbolId config second] at same
  rw [replayEvents_eq, replayEvents_eq, loop_log symbolId config first log,
    loop_log symbolId config second log']
  have none : (stream0 symbolId config first).result.eventsProcessed = 0 := rfl
  have none' : (stream0 symbolId config second).result.eventsProcessed = 0 := rfl
  rw [none, Nat.zero_add] at count
  rw [none', Nat.zero_add] at count'
  refine ⟨rfl, running.wf, running'.wf, same, running.going.trans running'.going.symm, ?_, ?_⟩
  · have index := running.index
    have index' := running'.index
    rw [count] at index
    rw [count'] at index'
    exact (congrArg (· + _) index).trans ((Nat.add_comm _ _).trans (congrArg (· + _) index').symm)
  · refine ⟨?_, running.valid.trans running'.valid.symm,
      running.silent.1.trans running'.silent.1.symm,
      running.silent.2.1.trans running'.silent.2.1.symm,
      running.silent.2.2.trans running'.silent.2.2.symm, ?_, [], rfl, rfl⟩
    · exact (congrArg (· + _) count).trans ((Nat.add_comm _ _).trans (congrArg (· + _) count').symm)
    · exact ((congrArg (List.map _) running.clean).trans List.map_nil).trans
        ((congrArg (List.map _) running'.clean).trans List.map_nil).symm

/-- A snapshot block rebuilds the book exactly. -/
theorem snapshot_rebuilds (valid : symbolId ≠ invalidSymbolId)
    (book : config.validateBookState = true) (supported : config.Supported)
    (sequence : config.validateSequenceNumbers = false)
    (timestamps : config.validateTimestamps = false) (first second : List MarketDataEvent)
    (clean : ((ReplayEngine.new symbolId config).replayEvents first).diagnostics = [])
    (clean' : ((ReplayEngine.new symbolId config).replayEvents second).diagnostics = [])
    (t₁ : Int) (n₁ : Nat) (t₂ : Int) (n₂ : Nat) :
    RebuildsBook (ReplayEngine.new symbolId config) first second
      (((ReplayEngine.new symbolId config).bookAfterReplay first).snapshot t₁ n₁ t₂ n₂) := by
  have on := loop_on_of_clean clean
  have on' := loop_on_of_clean clean'
  have source := rebuilding_of_clean book supported sequence timestamps on
  have target := rebuilding_of_clean book supported sequence timestamps on'
  have symbol := source.symbol
  have wf := source.running.wf
  have uncrossed := (OrderBook.uncrossed_iff wf).mp (source.running.uncrossed source.config.state)
  have anonymous := anonymous_loop first on
  rw [← bookAfterReplay_eq] at symbol wf uncrossed anonymous
  obtain ⟨b, hb⟩ : ∃ b, (ReplayEngine.new symbolId config).bookAfterReplay first = b := ⟨_, rfl⟩
  rw [hb] at symbol wf uncrossed anonymous ⊢
  obtain ⟨block, hblock⟩ : ∃ block, b.snapshot t₁ n₁ t₂ n₂ = block := ⟨_, rfl⟩
  have served := ReplayStream.block_served wf uncrossed anonymous
    ⟨target.running, target.config, target.symbol.trans symbol.symm⟩ (symbol ▸ valid) t₁ n₁ t₂ n₂
  rw [hblock] at served ⊢
  -- the whole of `second ++ block` is served
  have all : (loop ReplayStream.step (stream0 symbolId config second) (second ++ block)).2 = true := by
    rw [loop_append_on on']
    exact served.1
  have whole : (loop ReplayStream.step (stream0 symbolId config (second ++ block))
      (second ++ block)).2 = true := by
    rw [loop_log symbolId config second]
    exact all
  have final := rebuilding_of_clean book supported sequence timestamps whole
  have rebuilt : ((ReplayEngine.new symbolId config).bookAfterReplay (second ++ block)).queue =
      b.queue := by
    rw [bookAfterReplay_eq symbolId config second, loop_append_on on']
    exact served.2
  have same : b.Same ((ReplayEngine.new symbolId config).bookAfterReplay (second ++ block)) := by
    have wf' := final.running.wf
    have symbol' := final.symbol
    rw [← bookAfterReplay_eq] at wf' symbol'
    exact OrderBook.same_of_queue wf wf' rebuilt.symm (symbol.trans symbol'.symm)
  have bookOnly (log : List MarketDataEvent) :
      (loop ReplayStream.step (stream0 symbolId config log) first).1.BookOnly := by
    rw [loop_log symbolId config first log]
    exact ⟨book, supported, sequence, timestamps⟩
  have twins (events : List MarketDataEvent) := twins_loop
    (twins_of_same on whole (hb ▸ same) (first ++ events) (second ++ block ++ events))
    (bookOnly (first ++ events)) events
  have books (events : List MarketDataEvent) :
      ((ReplayEngine.new symbolId config).bookAfterReplay (first ++ events)).Same
        ((ReplayEngine.new symbolId config).bookAfterReplay (second ++ block ++ events)) := by
    have h := (twins events).book
    rw [← loop_append_on (by rw [loop_log symbolId config first]; exact on),
      ← loop_append_on (by rw [loop_log symbolId config (second ++ block)]; exact whole),
      ← bookAfterReplay_eq, ← bookAfterReplay_eq] at h
    exact h
  refine ⟨?_, hb ▸ same, ?_, ?_, books, ?_⟩
  · rw [replayEvents_eq]
    exact final.running.clean
  · rw [replayEvents_checksum, replayEvents_checksum, hb]
    exact same.checksum
  · intro events
    have h := (twins events).result
    rw [← loop_append_on (by rw [loop_log symbolId config first]; exact on),
      ← loop_append_on (by rw [loop_log symbolId config (second ++ block)]; exact whole)] at h
    rw [replayEvents_eq symbolId config (first ++ events),
      replayEvents_eq symbolId config (second ++ block ++ events)]
    exact ⟨h.processed, h.valid, h.error, h.errors, h.warnings, h.diagnostics, h.activity⟩
  · intro events
    rw [replayEvents_checksum, replayEvents_checksum]
    exact (books events).checksum

end Rebuild

def bookChecks : ReplayConfig := { validateSequenceNumbers := false, validateTimestamps := false }

theorem snapshot_rebuilds_one_bid :
    RebuildsBook (ReplayEngine.new 1 bookChecks) [restingBid] [crossingAsk]
      (((ReplayEngine.new 1 bookChecks).bookAfterReplay [restingBid]).snapshot 3 3 4 4) :=
  snapshot_rebuilds (by decide) rfl (Or.inl rfl) rfl rfl [restingBid] [crossingAsk]
    (by decide) (by decide) 3 3 4 4

/-- The markers of a block are diagnosed under the invalid symbol id, and under a validation
mode that is not supported. -/
theorem snapshot_not_replayed :
    (((ReplayEngine.new 0 bookChecks).replayEvents []).diagnostics = [] ∧
      ¬ RebuildsBook (ReplayEngine.new 0 bookChecks) [] []
        (((ReplayEngine.new 0 bookChecks).bookAfterReplay []).snapshot 1 1 2 2)) ∧
    (((ReplayEngine.new 1 { bookChecks with validationMode := .other 7 }).replayEvents
        []).diagnostics = [] ∧
      ¬ RebuildsBook (ReplayEngine.new 1 { bookChecks with validationMode := .other 7 }) [] []
        (((ReplayEngine.new 1 { bookChecks with validationMode := .other 7 }).bookAfterReplay
          []).snapshot 1 1 2 2)) := by
  refine ⟨⟨rfl, fun h => ?_⟩, rfl, fun h => ?_⟩
  · exact absurd h.clean (by decide)
  · exact absurd h.clean (by decide)

end Asterion
