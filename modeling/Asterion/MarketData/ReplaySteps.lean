import Asterion.Lib.StoppingLoop
import Asterion.MarketData.ReplayBook

/-! One step of a replay stream: where it can stop, what it leaves when it does, and what
every stream keeps. -/
namespace Asterion

open Lib Lib.StoppingLoop

theorem validateFullBook_eq {b : OrderBook} (wf : b.WF) (pre : String) :
    ReplayEngine.validateFullBook b pre = ReplayEngine.validateTopOfBook b := by
  unfold ReplayEngine.validateFullBook
  rw [OrderBook.checkInvariants_clean wf]
  rfl

theorem validateTopOfBook_eq_none {b : OrderBook} :
    ReplayEngine.validateTopOfBook b = none ↔ b.Uncrossed := by
  unfold ReplayEngine.validateTopOfBook OrderBook.Uncrossed
  cases b.bestBid with
  | none => simp
  | some bid =>
    cases b.bestAsk with
    | none => simp
    | some ask => simp

/-- The validation modes the replay knows. -/
def ReplayConfig.Supported (config : ReplayConfig) : Prop :=
  config.validationMode = .full ∨ config.validationMode = .light

namespace ReplayEngine

/-- After an event both supported modes look at the top of the book only. -/
theorem validateBookAfterApply_eq (engine : ReplayEngine) (wf : engine.book.WF)
    (supported : engine.config.Supported) :
    engine.validateBookAfterApply =
      if engine.config.validateBookState then validateTopOfBook engine.book else none := by
  unfold validateBookAfterApply
  cases engine.config.validateBookState with
  | false => rfl
  | true =>
    rcases supported with h | h
    · rw [h]
      exact validateFullBook_eq wf ""
    · rw [h]
      rfl

/-- A book that passes the check after an event is uncrossed in every mode. -/
theorem uncrossed_of_valid (engine : ReplayEngine) (wf : engine.book.WF)
    (on : engine.config.validateBookState = true) (h : engine.validateBookAfterApply = none) :
    engine.book.Uncrossed := by
  rw [← validateTopOfBook_eq_none]
  unfold validateBookAfterApply at h
  rw [on] at h
  cases hm : engine.config.validationMode with
  | full =>
    rw [hm] at h
    rw [← validateFullBook_eq wf ""]
    exact h
  | light =>
    rw [hm] at h
    exact h
  | other value =>
    rw [hm] at h
    cases h

end ReplayEngine

namespace ReplayStream

theorem steps_eq_loop (s : ReplayStream) (events : List MarketDataEvent) :
    s.steps events = (loop step s events).1 := by
  induction events generalizing s with
  | nil => rfl
  | cons event events ih =>
    obtain ⟨⟨s', on⟩, hs⟩ : ∃ p, s.step event = p := ⟨_, rfl⟩
    cases on with
    | false => simp only [steps, loop, hs]
    | true =>
      simp only [steps, loop, hs]
      exact ih s'

def InOrder (s : ReplayStream) (event : MarketDataEvent) : Prop :=
  (s.checkSequence event).2 = true ∧ ((s.checkSequence event).1.checkTimestamp event).2 = true

/-- The event passes every check made before it is applied. -/
def Reached (s : ReplayStream) (event : MarketDataEvent) : Prop :=
  s.InOrder event ∧ s.engine.validateEventBeforeApply event = none

instance (s : ReplayStream) (event : MarketDataEvent) : Decidable (s.InOrder event) :=
  inferInstanceAs (Decidable (_ ∧ _))

instance (s : ReplayStream) (event : MarketDataEvent) : Decidable (s.Reached event) :=
  inferInstanceAs (Decidable (_ ∧ _))

def Reordered (s s' : ReplayStream) : Prop :=
  ∃ sequence timestamp seen, s' = { s with state := { s.state with
    expectedSequence := sequence, lastTimestamp := timestamp, hasLastTimestamp := seen } }

theorem Reordered.refl (s : ReplayStream) : Reordered s s := ⟨_, _, _, rfl⟩

theorem Reordered.trans {s t u : ReplayStream} (first : Reordered s t) (last : Reordered t u) :
    Reordered s u := by
  obtain ⟨_, _, _, rfl⟩ := first
  obtain ⟨sequence, timestamp, seen, rfl⟩ := last
  exact ⟨sequence, timestamp, seen, rfl⟩

theorem checkSequence_cases (s : ReplayStream) (event : MarketDataEvent) :
    ∃ t, Reordered s t ∧ (s.checkSequence event = (t, true) ∨
      ∃ reason, s.checkSequence event = (t.halt event reason, false)) := by
  unfold checkSequence
  generalize (if s.state.expectedSequence = 0 then event.sequenceNumber
    else s.state.expectedSequence) = expected
  dsimp only
  split
  · exact ⟨s, .refl s, Or.inl rfl⟩
  · split
    · exact ⟨_, ⟨_, _, _, rfl⟩, Or.inr ⟨_, rfl⟩⟩
    · exact ⟨_, ⟨_, _, _, rfl⟩, Or.inl rfl⟩

theorem checkTimestamp_cases (s : ReplayStream) (event : MarketDataEvent) :
    ∃ t, Reordered s t ∧ (s.checkTimestamp event = (t, true) ∨
      ∃ reason, s.checkTimestamp event = (t.halt event reason, false)) := by
  unfold checkTimestamp
  split
  · exact ⟨s, .refl s, Or.inl rfl⟩
  · split
    · exact ⟨s, .refl s, Or.inr ⟨_, rfl⟩⟩
    · exact ⟨_, ⟨_, _, _, rfl⟩, Or.inl rfl⟩

/-- A step stops at the ordering checks or goes on to the event itself. -/
theorem step_cases (s : ReplayStream) (event : MarketDataEvent) :
    ∃ t, Reordered s t ∧
      (s.InOrder event ∧ s.step event = t.applyStep event ∨
        ¬ s.InOrder event ∧ ∃ reason, s.step event = (t.halt event reason, false)) := by
  obtain ⟨t, ht, h | ⟨reason, h⟩⟩ := s.checkSequence_cases event
  · obtain ⟨u, hu, h' | ⟨reason, h'⟩⟩ := t.checkTimestamp_cases event
    · refine ⟨u, ht.trans hu, Or.inl ⟨?_, ?_⟩⟩
      · simp only [InOrder, h, h', and_self]
      · simp only [step, h, h']
    · refine ⟨u, ht.trans hu, Or.inr ⟨?_, reason, ?_⟩⟩
      · simp only [InOrder, h, h', Bool.false_eq_true, and_false, not_false_eq_true]
      · simp only [step, h, h']
  · refine ⟨t, ht, Or.inr ⟨?_, reason, ?_⟩⟩
    · simp only [InOrder, h, Bool.false_eq_true, false_and, not_false_eq_true]
    · simp only [step, h]

/-- What a stream that stops at an event looks like, apart from its book. -/
structure Stopped (s : ReplayStream) (event : MarketDataEvent) (s' : ReplayStream) : Prop where
  config : s'.engine.config = s.engine.config
  halted : s'.state.halted = true
  invalid : s'.result.sequenceValid = false
  processed : s'.result.eventsProcessed = s.result.eventsProcessed
  diagnosed : ∃ reason, s'.result.diagnostics = s.result.diagnostics ++
    [⟨s.state.eventIndex, event.sequenceNumber, event.symbolId, .error, reason⟩]

/-- What a stream that has served an event looks like, apart from its book. -/
structure Served (s : ReplayStream) (s' : ReplayStream) : Prop where
  config : s'.engine.config = s.engine.config
  halted : s'.state.halted = s.state.halted
  valid : s'.result.sequenceValid = s.result.sequenceValid
  processed : s'.result.eventsProcessed = s.result.eventsProcessed + 1
  index : s'.state.eventIndex = s.state.eventIndex + 1
  diagnostics : s'.result.diagnostics = s.result.diagnostics
  silent : s'.result.error = s.result.error ∧
    s'.result.diagnosticErrorCount = s.result.diagnosticErrorCount ∧
    s'.result.diagnosticWarningCount = s.result.diagnosticWarningCount

def bookAfter (s : ReplayStream) (event : MarketDataEvent) : OrderBook :=
  (ReplayEngine.applyToBook s.engine.book event).1

def Accepts (s : ReplayStream) (event : MarketDataEvent) : Prop :=
  s.Reached event ∧ (ReplayEngine.applyToBook s.engine.book event).2 = none ∧
    { s.engine with book := s.bookAfter event }.validateBookAfterApply = none

theorem halt_stopped (s : ReplayStream) (event : MarketDataEvent) (reason : String) :
    Stopped s event (s.halt event reason) := ⟨rfl, rfl, rfl, rfl, reason, rfl⟩

theorem applyStep_cases (s : ReplayStream) (event : MarketDataEvent) :
    (s.engine.validateEventBeforeApply event ≠ none ∧ (s.applyStep event).2 = false ∧
      Stopped s event (s.applyStep event).1 ∧ (s.applyStep event).1.engine.book = s.engine.book) ∨
    (s.engine.validateEventBeforeApply event = none ∧
      ¬ ((ReplayEngine.applyToBook s.engine.book event).2 = none ∧
        { s.engine with book := s.bookAfter event }.validateBookAfterApply = none) ∧
      (s.applyStep event).2 = false ∧
      Stopped s event (s.applyStep event).1 ∧
      (s.applyStep event).1.engine.book = s.bookAfter event) ∨
    (s.engine.validateEventBeforeApply event = none ∧
      ((ReplayEngine.applyToBook s.engine.book event).2 = none ∧
        { s.engine with book := s.bookAfter event }.validateBookAfterApply = none) ∧
      (s.applyStep event).2 = true ∧
      Served s (s.applyStep event).1 ∧
      (s.applyStep event).1.engine.book = s.bookAfter event) := by
  unfold bookAfter
  cases hv : s.engine.validateEventBeforeApply event with
  | some reason =>
    have hs : s.applyStep event = (s.halt event reason, false) := by simp only [applyStep, hv]
    rw [hs]
    exact Or.inl ⟨nofun, rfl, s.halt_stopped event reason, rfl⟩
  | none =>
    obtain ⟨⟨b', refusal⟩, hb⟩ : ∃ p, ReplayEngine.applyToBook s.engine.book event = p := ⟨_, rfl⟩
    rw [hb]
    refine Or.inr ?_
    cases refusal with
    | some reason =>
      have ha : s.engine.applyEvent event s.state.eventIndex s.result =
          (({ s.engine with book := b' }, s.result.fail s.state.eventIndex event reason), false) := by
        simp only [ReplayEngine.applyEvent, hb]
      have hs : s.applyStep event =
          ({ engine := { s.engine with book := b' }
             state := { s.state with halted := true }
             result := { s.result.fail s.state.eventIndex event reason with
               sequenceValid := false } }, false) := by
        simp only [applyStep, hv, ha]
      rw [hs]
      exact Or.inl ⟨rfl, fun h => (nomatch h.1), rfl, ⟨rfl, rfl, rfl, rfl, reason, rfl⟩, rfl⟩
    | none =>
      obtain ⟨result, hr⟩ : ∃ r, (if event.eventType = .execute ∨ event.eventType = .trade then
          s.result.updateActivityChecksum event else s.result) = r := ⟨_, rfl⟩
      obtain ⟨checksum, activity⟩ : ∃ c, result = { s.result with executionReportChecksum := c } := by
        rw [← hr]
        split
        · exact ⟨_, rfl⟩
        · exact ⟨_, rfl⟩
      cases hc : { s.engine with book := b' }.validateBookAfterApply with
      | some reason =>
        have ha : s.engine.applyEvent event s.state.eventIndex s.result =
            (({ s.engine with book := b' }, result.fail s.state.eventIndex event reason), false) := by
          simp only [ReplayEngine.applyEvent, hb, hc, hr]
        have hs : s.applyStep event =
            ({ engine := { s.engine with book := b' }
               state := { s.state with halted := true }
               result := { result.fail s.state.eventIndex event reason with
                 sequenceValid := false } }, false) := by
          simp only [applyStep, hv, ha]
        rw [hs, activity]
        exact Or.inl ⟨rfl, fun h => (nomatch h.2), rfl, ⟨rfl, rfl, rfl, rfl, reason, rfl⟩, rfl⟩
      | none =>
        have ha : s.engine.applyEvent event s.state.eventIndex s.result =
            (({ s.engine with book := b' }, result), true) := by
          simp only [ReplayEngine.applyEvent, hb, hc, hr]
        have hs : s.applyStep event =
            ({ engine := { s.engine with book := b' }
               state := { s.state with eventIndex := s.state.eventIndex + 1 }
               result := { result with eventsProcessed := result.eventsProcessed + 1 } }, true) := by
          simp only [applyStep, hv, ha]
        rw [hs, activity]
        exact Or.inr ⟨rfl, ⟨rfl, rfl⟩, rfl, ⟨rfl, rfl, rfl, rfl, rfl, rfl, rfl, rfl, rfl⟩, rfl⟩

theorem Reordered.engine {s t : ReplayStream} (h : Reordered s t) : t.engine = s.engine := by
  obtain ⟨_, _, _, rfl⟩ := h
  rfl

theorem Reordered.index {s t : ReplayStream} (h : Reordered s t) :
    t.state.eventIndex = s.state.eventIndex := by
  obtain ⟨_, _, _, rfl⟩ := h
  rfl

theorem checkSequence_on {s : ReplayStream} {event : MarketDataEvent}
    (on : (s.checkSequence event).2 = true) : Reordered s (s.checkSequence event).1 := by
  obtain ⟨t, order, h | ⟨reason, h⟩⟩ := s.checkSequence_cases event
  · rw [h]
    exact order
  · rw [h] at on
    cases on

theorem checkTimestamp_on {s : ReplayStream} {event : MarketDataEvent}
    (on : (s.checkTimestamp event).2 = true) : Reordered s (s.checkTimestamp event).1 := by
  obtain ⟨t, order, h | ⟨reason, h⟩⟩ := s.checkTimestamp_cases event
  · rw [h]
    exact order
  · rw [h] at on
    cases on

theorem Reordered.stopped {s t u : ReplayStream} {event : MarketDataEvent} (h : Reordered s t)
    (stopped : Stopped t event u) : Stopped s event u := by
  obtain ⟨_, _, _, rfl⟩ := h
  exact ⟨stopped.1, stopped.2, stopped.3, stopped.4, stopped.5⟩

theorem Reordered.served {s t u : ReplayStream} (h : Reordered s t) (served : Served t u) :
    Served s u := by
  obtain ⟨_, _, _, rfl⟩ := h
  exact ⟨served.1, served.2, served.3, served.4, served.5, served.6, served.7⟩

theorem checkSequence_engine (s : ReplayStream) (event : MarketDataEvent) :
    (s.checkSequence event).1.engine = s.engine := by
  obtain ⟨t, order, h | ⟨reason, h⟩⟩ := s.checkSequence_cases event
  · rw [h]
    exact order.engine
  · rw [h]
    exact order.engine

theorem checkTimestamp_engine (s : ReplayStream) (event : MarketDataEvent) :
    (s.checkTimestamp event).1.engine = s.engine := by
  obtain ⟨t, order, h | ⟨reason, h⟩⟩ := s.checkTimestamp_cases event
  · rw [h]
    exact order.engine
  · rw [h]
    exact order.engine

/-- Everything one step can do. -/
theorem step_spec (s : ReplayStream) (event : MarketDataEvent) :
    (¬ s.Accepts event ∧ (s.step event).2 = false ∧ Stopped s event (s.step event).1 ∧
      (s.step event).1.engine.book =
        if s.Reached event then s.bookAfter event else s.engine.book) ∨
    (s.Accepts event ∧ (s.step event).2 = true ∧ Served s (s.step event).1 ∧
      (s.step event).1.engine.book = s.bookAfter event) := by
  obtain ⟨t, order, ⟨inOrder, ht⟩ | ⟨outOfOrder, reason, ht⟩⟩ := s.step_cases event
  · have engine := order.engine
    have after : t.bookAfter event = s.bookAfter event := by
      unfold bookAfter
      rw [engine]
    rw [ht]
    have cases := applyStep_cases t event
    rw [engine, after] at cases
    rcases cases with ⟨hv, off, stopped, book⟩ | ⟨hv, hn, off, stopped, book⟩ |
      ⟨hv, ha, on, served, book⟩
    · refine Or.inl ⟨fun h => hv h.1.2, off, order.stopped stopped, ?_⟩
      rw [if_neg (fun h : s.Reached event => hv h.2)]
      exact book
    · refine Or.inl ⟨fun h => hn h.2, off, order.stopped stopped, ?_⟩
      have reached : s.Reached event := ⟨inOrder, hv⟩
      rw [if_pos reached]
      exact book
    · exact Or.inr ⟨⟨⟨inOrder, hv⟩, ha⟩, on, order.served served, book⟩
  · rw [ht]
    refine Or.inl ⟨fun h => outOfOrder h.1.1, rfl,
      order.stopped (halt_stopped t event reason), ?_⟩
    rw [if_neg (fun h : s.Reached event => outOfOrder h.1)]
    exact congrArg ReplayEngine.book order.engine

theorem step_stopped {s : ReplayStream} {event : MarketDataEvent}
    (off : (s.step event).2 = false) :
    ¬ s.Accepts event ∧ Stopped s event (s.step event).1 ∧
      (s.step event).1.engine.book =
        if s.Reached event then s.bookAfter event else s.engine.book := by
  rcases s.step_spec event with ⟨hn, -, stopped, book⟩ | ⟨-, on, -⟩
  · exact ⟨hn, stopped, book⟩
  · rw [off] at on
    cases on

theorem step_served {s : ReplayStream} {event : MarketDataEvent}
    (on : (s.step event).2 = true) :
    s.Accepts event ∧ Served s (s.step event).1 ∧
      (s.step event).1.engine.book = s.bookAfter event := by
  rcases s.step_spec event with ⟨-, off, -⟩ | ⟨accepts, -, served, book⟩
  · rw [on] at off
    cases off
  · exact ⟨accepts, served, book⟩

theorem bookAfter_wf {s : ReplayStream} {event : MarketDataEvent} (wf : s.engine.book.WF)
    (h : s.engine.validateEventBeforeApply event = none) :
    (s.bookAfter event).WF ∧ (s.bookAfter event).symbolId = s.engine.book.symbolId := by
  have out := applyToBook_outcome wf (ReplayEngine.validated h)
  exact ⟨out.wf, out.symbol⟩

/-- A stream that no event has stopped. -/
structure Running (s : ReplayStream) : Prop where
  wf : s.engine.book.WF
  going : s.state.halted = false
  valid : s.result.sequenceValid = true
  index : s.state.eventIndex = s.result.eventsProcessed
  clean : s.result.diagnostics = []
  silent : s.result.error = "" ∧ s.result.diagnosticErrorCount = 0 ∧
    s.result.diagnosticWarningCount = 0
  uncrossed : s.engine.config.validateBookState = true → s.engine.book.Uncrossed

theorem running_start (symbolId : Nat) (config : ReplayConfig) (events : List MarketDataEvent) :
    Running ((ReplayEngine.new symbolId config).start events) where
  wf := OrderBook.new_wf symbolId
  going := rfl
  valid := rfl
  index := rfl
  clean := rfl
  silent := ⟨rfl, rfl, rfl⟩
  uncrossed _ := fun _ h => by cases h

theorem running_step {s : ReplayStream} (h : Running s) {event : MarketDataEvent}
    (on : (s.step event).2 = true) : Running (s.step event).1 := by
  obtain ⟨⟨reached, refused, checked⟩, served, book⟩ := step_served on
  have wf := (bookAfter_wf h.wf reached.2).1
  refine ⟨book ▸ wf, served.halted.trans h.going, served.valid.trans h.valid, ?_,
    served.diagnostics.trans h.clean, ⟨served.silent.1.trans h.silent.1,
    served.silent.2.1.trans h.silent.2.1, served.silent.2.2.trans h.silent.2.2⟩, ?_⟩
  · rw [served.index, served.processed, h.index]
  · intro hon
    rw [served.config] at hon
    rw [book]
    exact ReplayEngine.uncrossed_of_valid ⟨s.engine.config, s.bookAfter event⟩ wf hon checked

theorem Reordered.running {s t : ReplayStream} (h : Reordered s t) (running : Running s) :
    Running t := by
  obtain ⟨_, _, _, rfl⟩ := h
  exact ⟨running.1, running.2, running.3, running.4, running.5, running.6, running.7⟩

/-- What holds of a stream whose loop may have been left. -/
structure Sound (s : ReplayStream) : Prop where
  wf : s.engine.book.WF
  uncrossed : s.result.sequenceValid = true → s.engine.config.validateBookState = true →
    s.engine.book.Uncrossed

theorem Running.sound {s : ReplayStream} (h : Running s) : Sound s :=
  ⟨h.wf, fun _ => h.uncrossed⟩

theorem stopped_sound {s : ReplayStream} (h : Running s) {event : MarketDataEvent}
    (off : (s.step event).2 = false) : Sound (s.step event).1 := by
  obtain ⟨-, stopped, book⟩ := step_stopped off
  constructor
  · rw [book]
    split
    · exact (bookAfter_wf h.wf ‹s.Reached event›.2).1
    · exact h.wf
  · intro hv
    rw [stopped.invalid] at hv
    cases hv

theorem steps_sound {s : ReplayStream} (h : Running s) (events : List MarketDataEvent) :
    Sound (s.steps events) := by
  have rule := @loop_rule _ _ step Running Sound (fun _ _ hs on => running_step hs on)
    (fun _ _ hs off => stopped_sound hs off) s h events
  rw [steps_eq_loop]
  split at rule
  · exact rule.sound
  · exact rule

end ReplayStream
end Asterion
