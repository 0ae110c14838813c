import Asterion.MarketData.ReplaySteps

/-! What a replay does not depend on: the checksum of the log it was given, and which of the
two supported validation modes it runs under. -/
namespace Asterion

open Lib Lib.StoppingLoop

/-- The same checks are made, and by a mode that is supported if it is not the same. -/
structure ReplayConfig.Alike (c d : ReplayConfig) : Prop where
  sequence : d.validateSequenceNumbers = c.validateSequenceNumbers
  timestamps : d.validateTimestamps = c.validateTimestamps
  state : d.validateBookState = c.validateBookState
  mode : d.validationMode = c.validationMode ∨ c.Supported ∧ d.Supported

theorem ReplayConfig.Alike.refl (c : ReplayConfig) : c.Alike c := ⟨rfl, rfl, rfl, Or.inl rfl⟩

/-- The structural check of the full mode finds nothing, so the mode makes no difference. -/
theorem ReplayConfig.Alike.validateBookAfterApply {c d : ReplayConfig} (alike : c.Alike d)
    {b : OrderBook} (wf : b.WF) :
    ReplayEngine.validateBookAfterApply ⟨d, b⟩ = ReplayEngine.validateBookAfterApply ⟨c, b⟩ := by
  rcases alike.mode with same | ⟨hc, hd⟩
  · unfold ReplayEngine.validateBookAfterApply
    rw [alike.state, same]
  · have hc := ReplayEngine.validateBookAfterApply_eq ⟨c, b⟩ wf hc
    have hd := ReplayEngine.validateBookAfterApply_eq ⟨d, b⟩ wf hd
    rw [hc, hd]
    exact if_congr (by rw [alike.state]) rfl rfl

namespace ReplayStream

def recast (config : ReplayConfig) (log : UInt64) (s : ReplayStream) : ReplayStream :=
  { s with
    engine := { s.engine with config }
    result := { s.result with eventLogChecksum := log } }

variable {config : ReplayConfig} (log : UInt64) {s : ReplayStream}
  (alike : s.engine.config.Alike config) (event : MarketDataEvent)

theorem halt_recast (reason : String) :
    (s.recast config log).halt event reason = (s.halt event reason).recast config log := rfl

include alike

theorem checkSequence_recast :
    (s.recast config log).checkSequence event =
      ((s.checkSequence event).1.recast config log, (s.checkSequence event).2) := by
  have hc : (s.recast config log).engine.config.validateSequenceNumbers =
      s.engine.config.validateSequenceNumbers := alike.sequence
  have hs : (s.recast config log).state = s.state := rfl
  unfold checkSequence
  rw [hc, hs]
  generalize (if s.state.expectedSequence = 0 then event.sequenceNumber
    else s.state.expectedSequence) = expected
  cases s.engine.config.validateSequenceNumbers with
  | false => rfl
  | true =>
    by_cases h : event.sequenceNumber = expected
    · simp only [Bool.not_true, Bool.false_eq_true, if_false, h, ne_eq, not_true_eq_false]
      rfl
    · simp only [Bool.not_true, Bool.false_eq_true, if_false, h, ne_eq, not_false_eq_true, if_true]
      rfl

theorem checkTimestamp_recast :
    (s.recast config log).checkTimestamp event =
      ((s.checkTimestamp event).1.recast config log, (s.checkTimestamp event).2) := by
  have hc : (s.recast config log).engine.config.validateTimestamps =
      s.engine.config.validateTimestamps := alike.timestamps
  have hs : (s.recast config log).state = s.state := rfl
  unfold checkTimestamp
  rw [hc, hs]
  cases s.engine.config.validateTimestamps with
  | false => rfl
  | true =>
    by_cases h : s.state.hasLastTimestamp = true ∧ event.timestampNs < s.state.lastTimestamp
    · simp only [Bool.not_true, Bool.false_eq_true, if_false, if_pos h]
      rfl
    · simp only [Bool.not_true, Bool.false_eq_true, if_false, if_neg h]
      rfl

theorem applyStep_recast (wf : s.engine.book.WF) :
    (s.recast config log).applyStep event =
      ((s.applyStep event).1.recast config log, (s.applyStep event).2) := by
  have hv : (s.recast config log).engine.validateEventBeforeApply event =
      s.engine.validateEventBeforeApply event := rfl
  cases h : s.engine.validateEventBeforeApply event with
  | some reason => simp only [applyStep, hv, h, halt_recast]
  | none =>
    obtain ⟨⟨b', refusal⟩, hb⟩ : ∃ p, ReplayEngine.applyToBook s.engine.book event = p := ⟨_, rfl⟩
    have hb' : ReplayEngine.applyToBook (s.recast config log).engine.book event = (b', refusal) :=
      hb
    have wf' : b'.WF := by
      have := (bookAfter_wf wf h).1
      rwa [bookAfter, hb] at this
    have same : { (s.recast config log).engine with book := b' }.validateBookAfterApply =
        { s.engine with book := b' }.validateBookAfterApply := alike.validateBookAfterApply wf'
    cases refusal with
    | some reason =>
      simp only [applyStep, hv, h, ReplayEngine.applyEvent, hb, hb']
      rfl
    | none =>
      obtain ⟨result, hr⟩ : ∃ r, (if event.eventType = .execute ∨ event.eventType = .trade then
          s.result.updateActivityChecksum event else s.result) = r := ⟨_, rfl⟩
      have hr' : (if event.eventType = .execute ∨ event.eventType = .trade then
          (s.recast config log).result.updateActivityChecksum event
          else (s.recast config log).result) = { result with eventLogChecksum := log } := by
        rw [← hr]
        split
        · -- the new checksum is named before anything is compared
          obtain ⟨c, hc⟩ : ∃ c, MarketDataEvent.appendToChecksum s.result.executionReportChecksum
            event = c := ⟨_, rfl⟩
          simp only [recast, ReplayResult.updateActivityChecksum, hc]
        · rfl
      cases hc : { s.engine with book := b' }.validateBookAfterApply with
      | some reason =>
        rw [hc] at same
        simp only [applyStep, hv, h, ReplayEngine.applyEvent, hb, hb', hr, hr', hc, same]
        rfl
      | none =>
        rw [hc] at same
        simp only [applyStep, hv, h, ReplayEngine.applyEvent, hb, hb', hr, hr', hc, same]
        rfl

theorem step_recast (wf : s.engine.book.WF) :
    (s.recast config log).step event =
      ((s.step event).1.recast config log, (s.step event).2) := by
  obtain ⟨⟨t, inOrder⟩, ht⟩ : ∃ p, s.checkSequence event = p := ⟨_, rfl⟩
  have ht' := checkSequence_recast log alike event
  have kt := s.checkSequence_engine event
  rw [ht] at ht' kt
  cases inOrder with
  | false => simp only [step, ht, ht']
  | true =>
    rw [← kt] at alike wf
    obtain ⟨⟨u, inTime⟩, hu⟩ : ∃ p, t.checkTimestamp event = p := ⟨_, rfl⟩
    have hu' := checkTimestamp_recast log alike event
    have ku := t.checkTimestamp_engine event
    rw [hu] at hu' ku
    cases inTime with
    | false => simp only [step, ht, ht', hu, hu']
    | true =>
      rw [← ku] at alike wf
      simp only [step, ht, ht', hu, hu']
      exact applyStep_recast log alike event wf

theorem steps_recast (running : Running s) (events : List MarketDataEvent) :
    (s.recast config log).steps events = (s.steps events).recast config log := by
  induction events generalizing s with
  | nil => rfl
  | cons event events ih =>
    have h := step_recast log alike event running.wf
    obtain ⟨⟨s', on⟩, hs⟩ : ∃ p, s.step event = p := ⟨_, rfl⟩
    rw [hs] at h
    cases on with
    | false => simp only [steps, hs, h]
    | true =>
      simp only [steps, hs, h]
      have on : (s.step event).2 = true := by rw [hs]
      have running' := running_step running on
      have kept := (step_served on).2.1.config
      rw [hs] at running' kept
      exact ih (kept ▸ alike) running'

omit alike in
theorem finalize_eq (sound : Sound s) :
    s.finalize = { s.result with finalBookChecksum := s.engine.book.checksum } := by
  unfold finalize
  dsimp only
  split
  · rename_i h
    have clean := validateTopOfBook_eq_none.mpr (sound.uncrossed h.2.2 h.1)
    rw [validateFullBook_eq sound.wf, clean]
  · rfl

end ReplayStream

/-- Another log prefix, another configuration: replaying them is replaying the same stream. -/
theorem ReplayEngine.steps_start {c d : ReplayConfig} (alike : c.Alike d) (symbolId : Nat)
    (events log log' : List MarketDataEvent) :
    ((ReplayEngine.new symbolId d).start log').steps events =
      (((ReplayEngine.new symbolId c).start log).steps events).recast d (checksumEvents log') :=
  ReplayStream.steps_recast (checksumEvents log') (s := (ReplayEngine.new symbolId c).start log)
    alike (ReplayStream.running_start symbolId c log) events

/-- Light validation loses nothing. -/
theorem light_equals_full (symbolId : Nat) (config : ReplayConfig)
    (events : List MarketDataEvent) :
    (ReplayEngine.new symbolId { config with validationMode := .light }).replayEvents events =
      (ReplayEngine.new symbolId { config with validationMode := .full }).replayEvents events := by
  let light : ReplayConfig := { config with validationMode := .light }
  let full : ReplayConfig := { config with validationMode := .full }
  have alike : full.Alike light := ⟨rfl, rfl, rfl, Or.inr ⟨Or.inl rfl, Or.inr rfl⟩⟩
  let stream := ((ReplayEngine.new symbolId full).start events).steps events
  have sound {c : ReplayConfig} :=
    ReplayStream.steps_sound (ReplayStream.running_start symbolId c events) events
  have same : ((ReplayEngine.new symbolId light).start events).steps events =
      stream.recast light (checksumEvents events) :=
    ReplayEngine.steps_start alike symbolId events events events
  have own : stream.recast full (checksumEvents events) = stream :=
    (ReplayEngine.steps_start (.refl full) symbolId events events events).symm
  calc (ReplayEngine.new symbolId light).replayEvents events
      = { (stream.recast light (checksumEvents events)).result with
          finalBookChecksum := (stream.recast light (checksumEvents events)).engine.book.checksum } :=
        same ▸ ReplayStream.finalize_eq sound
    _ = { (stream.recast full (checksumEvents events)).result with
          finalBookChecksum := (stream.recast full (checksumEvents events)).engine.book.checksum } :=
        rfl
    _ = (ReplayEngine.new symbolId full).replayEvents events :=
        own.symm ▸ (ReplayStream.finalize_eq sound).symm

end Asterion
