import Asterion.MarketData.ReplayHalts
import Asterion.MarketData.ReplayParity

/-! Sequence numbers in a replay. The expected number is zero until an event sets it, and is zero
again behind the last 64-bit number, so that any number may follow that one. -/
namespace Asterion
open Lib Lib.StoppingLoop

def GapFree (numbers : List Nat) : Prop := numbers.IsChain (fun a b => b = nextSequence a)

def Successive (numbers : List Nat) : Prop := numbers.IsChain (fun a b => b = a + 1)

def lastSequenceNumber : Nat := 2 ^ 64 - 1

def NothingBehindLast (numbers : List Nat) : Prop :=
  numbers.IsChain (fun a _ => a ≠ lastSequenceNumber)

def ZeroBehindLast (numbers : List Nat) : Prop :=
  numbers.IsChain (fun a b => a = lastSequenceNumber → b = 0)

/-- What the checks let pass: behind the last number, anything. -/
def Unbroken (numbers : List Nat) : Prop :=
  numbers.IsChain (fun a b => nextSequence a = 0 ∨ b = nextSequence a)

theorem nextSequence_eq_zero {a : Nat} (fits : a < 2 ^ 64) :
    nextSequence a = 0 ↔ a = lastSequenceNumber := by
  unfold nextSequence lastSequenceNumber
  omega

theorem nextSequence_eq {a : Nat} (fits : a < 2 ^ 64) (other : a ≠ lastSequenceNumber) :
    nextSequence a = a + 1 := by
  unfold nextSequence lastSequenceNumber at *
  omega

section Chains
variable {numbers : List Nat}

theorem isChain_congr {R S T : Nat → Nat → Prop} (chain : numbers.IsChain R)
    (same : ∀ a ∈ numbers, ∀ b ∈ numbers, R a b → (S a b ↔ T a b)) :
    numbers.IsChain S ↔ numbers.IsChain T := by
  rw [List.isChain_iff_forall_rel_of_append_cons_cons] at chain ⊢
  rw [List.isChain_iff_forall_rel_of_append_cons_cons]
  constructor
  · intro holds a b front back here
    exact (same a (by simp [here]) b (by simp [here]) (chain here)).mp (holds here)
  · intro holds a b front back here
    exact (same a (by simp [here]) b (by simp [here]) (chain here)).mpr (holds here)

variable (fits : ∀ a ∈ numbers, a < 2 ^ 64) (unbroken : Unbroken numbers)
include fits unbroken

/-- On 64 bits only the event behind the last number can break the law. -/
theorem gapFree_iff : GapFree numbers ↔ ZeroBehindLast numbers := by
  apply isChain_congr unbroken
  intro a ha b _ related
  have wraps := nextSequence_eq_zero (fits a ha)
  constructor
  · exact fun next last => next.trans (wraps.mpr last)
  · intro restarts
    rcases related with zero | next
    · rw [zero]
      exact restarts (wraps.mp zero)
    · exact next

theorem successive_iff : Successive numbers ↔ NothingBehindLast numbers := by
  apply isChain_congr unbroken
  intro a ha b hb related
  have wraps := nextSequence_eq_zero (fits a ha)
  constructor
  · rintro next rfl
    have bound := fits b hb
    unfold lastSequenceNumber at next
    omega
  · intro other
    rcases related with zero | next
    · exact absurd (wraps.mp zero) other
    · rw [next, nextSequence_eq (fits a ha) other]

end Chains

def numbersOf (events : List MarketDataEvent) : List Nat := events.map (·.sequenceNumber)

namespace ReplayStream

theorem checkSequence_expected {s : ReplayStream} {event : MarketDataEvent}
    (validates : s.engine.config.validateSequenceNumbers = true)
    (on : (s.checkSequence event).2 = true) :
    (s.state.expectedSequence = 0 ∨ event.sequenceNumber = s.state.expectedSequence) ∧
      (s.checkSequence event).1.state.expectedSequence = nextSequence event.sequenceNumber := by
  unfold checkSequence at on ⊢
  simp only [validates, Bool.not_true, Bool.false_eq_true, if_false] at on ⊢
  by_cases unset : s.state.expectedSequence = 0
  · simp [unset]
  · simp only [if_neg unset] at on ⊢
    by_cases same : event.sequenceNumber = s.state.expectedSequence
    · simp [same]
    · simp [same] at on

theorem checkTimestamp_expected {s : ReplayStream} {event : MarketDataEvent} :
    (s.checkTimestamp event).1.state.expectedSequence = s.state.expectedSequence := by
  unfold checkTimestamp
  split
  · rfl
  · split
    · rfl
    · rfl

theorem applyStep_expected {s : ReplayStream} {event : MarketDataEvent} :
    (s.applyStep event).1.state.expectedSequence = s.state.expectedSequence := by
  unfold applyStep
  split
  · rfl
  · split
    · rfl
    · rfl

theorem step_expected {s : ReplayStream} {event : MarketDataEvent}
    (validates : s.engine.config.validateSequenceNumbers = true) (on : (s.step event).2 = true) :
    (s.state.expectedSequence = 0 ∨ event.sequenceNumber = s.state.expectedSequence) ∧
      (s.step event).1.state.expectedSequence = nextSequence event.sequenceNumber := by
  have law := @checkSequence_expected s event validates
  unfold step at on ⊢
  split at on
  · cases on
  · rename_i t sequence
    rw [sequence] at law
    split at on
    · cases on
    · rename_i u timestamp
      have kept := @checkTimestamp_expected t event
      rw [timestamp] at kept
      obtain ⟨taken, next⟩ := law rfl
      exact ⟨taken, applyStep_expected.trans (kept.trans next)⟩

theorem loop_unbroken {s : ReplayStream} {events : List MarketDataEvent}
    (validates : s.engine.config.validateSequenceNumbers = true)
    (on : (loop step s events).2 = true) :
    Unbroken (numbersOf events) ∧ ∀ event ∈ events.head?,
      s.state.expectedSequence = 0 ∨ event.sequenceNumber = s.state.expectedSequence := by
  induction events generalizing s with
  | nil => exact ⟨List.isChain_nil, fun _ h => by cases h⟩
  | cons event events ih =>
    rw [loop_cons_on_iff] at on
    obtain ⟨taken, next⟩ := step_expected validates on.1
    have config := (step_served on.1).2.1.config
    obtain ⟨chain, first⟩ := ih (config ▸ validates) on.2
    constructor
    · apply List.IsChain.cons chain
      intro n hn
      rw [numbersOf, List.head?_map] at hn
      obtain ⟨event', here, rfl⟩ := Option.mem_map.mp hn
      exact next ▸ first event' here
    · rintro _ ⟨⟩
      exact taken

/-- The events that are counted as processed are those the loop went through. -/
theorem loop_processed {s : ReplayStream} {front events : List MarketDataEvent}
    (part : front <+: events)
    (processed : s.result.eventsProcessed + front.length ≤
      (loop step s events).1.result.eventsProcessed) :
    (loop step s front).2 = true := by
  obtain ⟨back, rfl⟩ := part
  by_contra off
  rw [Bool.not_eq_true] at off
  rw [loop_append_off off] at processed
  obtain ⟨done, event, rest, rfl, on, stops, here⟩ := loop_stopped off
  rw [here, (step_stopped stops).2.1.processed, processed_loop done on] at processed
  simp at processed

end ReplayStream

theorem finalize_processed (s : ReplayStream) :
    s.finalize.eventsProcessed = s.result.eventsProcessed := by
  unfold ReplayStream.finalize
  dsimp only
  split
  · split
    · rfl
    · rfl
  · rfl

theorem replayEvents_unbroken {symbolId : Nat} {config : ReplayConfig}
    (validates : config.validateSequenceNumbers = true) {front events : List MarketDataEvent}
    (part : front <+: events)
    (processed : front.length ≤
      ((ReplayEngine.new symbolId config).replayEvents events).eventsProcessed) :
    Unbroken (numbersOf front) := by
  rw [ReplayEngine.replayEvents, finalize_processed, ReplayStream.steps_eq_loop] at processed
  have on := ReplayStream.loop_processed (s := (ReplayEngine.new symbolId config).start events) part
    (by simpa [ReplayEngine.start, ReplayEngine.beginStream] using processed)
  exact (ReplayStream.loop_unbroken validates on).1

namespace SharedReplay

def stateOf (s : SharedReplay) (symbolId : Nat) : SharedSymbolState :=
  (s.states.find? symbolId).getD {}

section State
variable (state : SharedSymbolState) (event : MarketDataEvent) (reason : String)

@[simp] theorem mark_failed : state.markSharedFailure.failed = true := rfl

@[simp] theorem fail_failed : (state.fail event reason).failed = true := rfl

end State

/-- Of any summary: a comparison of the two summaries would compute their checksums. -/
theorem withSummary_expected (state : SharedSymbolState) (summary : SymbolReplaySummary) :
    { state with summary }.expectedSequence = state.expectedSequence := rfl

theorem applyShared_state (config : AggregateReplayConfig) (bookSet : MultiSymbolBookSet)
    (state : SharedSymbolState) (event : MarketDataEvent) :
    (applyShared config bookSet state event).2.failed = true ∨
      (applyShared config bookSet state event).2.expectedSequence = state.expectedSequence := by
  unfold applyShared
  split
  · exact .inl (fail_failed ..)
  · split
    · exact .inl (fail_failed ..)
    · split
      · exact .inl (mark_failed ..)
      · split
        · exact .inl (fail_failed ..)
        · split
          · exact .inr (withSummary_expected state _)
          · exact .inr rfl

theorem checkTimestamp_state (state : SharedSymbolState) (validateTimestamps : Bool)
    (event : MarketDataEvent) :
    let checked := state.checkTimestamp validateTimestamps event
    if checked.2 then checked.1.expectedSequence = state.expectedSequence
    else checked.1.failed = true := by
  unfold SharedSymbolState.checkTimestamp
  split
  · rfl
  · split
    · simp
    · rfl

theorem checkSequence_state (state : SharedSymbolState) (event : MarketDataEvent) :
    let checked := state.checkSequence true event
    if checked.2 then
      (state.expectedSequence = 0 ∨ event.sequenceNumber = state.expectedSequence) ∧
        checked.1.expectedSequence = nextSequence event.sequenceNumber
    else checked.1.failed = true := by
  unfold SharedSymbolState.checkSequence
  simp only [Bool.not_true, Bool.false_eq_true, if_false]
  by_cases unset : state.expectedSequence = 0
  · simp [unset]
  · simp only [if_neg unset]
    by_cases same : event.sequenceNumber = state.expectedSequence
    · simp [same]
    · simp [same]

theorem serve_state {config : AggregateReplayConfig} {bookSet : MultiSymbolBookSet}
    {state : SharedSymbolState} {event : MarketDataEvent}
    (validates : (config.validatePerSymbolSequences &&
      config.replayConfig.validateSequenceNumbers) = true)
    (goes : (serve config bookSet state event).2.failed = false) :
    state.failed = false ∧
      (state.expectedSequence = 0 ∨ event.sequenceNumber = state.expectedSequence) ∧
      (serve config bookSet state event).2.expectedSequence =
        nextSequence event.sequenceNumber := by
  have law := checkSequence_state (state.count event) event
  unfold serve at goes ⊢
  rw [validates] at goes ⊢
  dsimp only at goes ⊢
  split at goes
  · rename_i failed
    rw [failed] at goes
    cases goes
  · rename_i running
    rw [if_neg running]
    have fresh : state.failed = false := Bool.eq_false_iff.mpr running
    obtain ⟨⟨counted, flag⟩, sequence⟩ : ∃ p, (state.count event).checkSequence true event = p :=
      ⟨_, rfl⟩
    rw [sequence] at law
    simp only [sequence] at goes ⊢
    cases flag with
    | false =>
      have failed : counted.failed = true := law
      simp [failed] at goes
    | true =>
      obtain ⟨taken, next⟩ : _ ∧ _ := law
      have time := checkTimestamp_state counted config.replayConfig.validateTimestamps event
      obtain ⟨⟨timed, flag⟩, timestamp⟩ :
          ∃ p, counted.checkTimestamp config.replayConfig.validateTimestamps event = p := ⟨_, rfl⟩
      rw [timestamp] at time
      simp only [timestamp] at goes ⊢
      cases flag with
      | false =>
        have failed : timed.failed = true := time
        simp [failed] at goes
      | true =>
        have kept : timed.expectedSequence = counted.expectedSequence := time
        rcases applyShared_state config bookSet timed event with failed | same
        · simp [failed] at goes
        · exact ⟨fresh, taken, same.trans (kept.trans next)⟩

theorem stateOf_step_self (config : AggregateReplayConfig) (s : SharedReplay)
    (event : MarketDataEvent) :
    (s.step config event).stateOf event.symbolId =
      (serve config s.bookSet (s.stateOf event.symbolId) event).2 := by
  unfold stateOf step
  rw [SortedMap.find?_upsert_self]
  rfl

theorem stateOf_step_ne (config : AggregateReplayConfig) (s : SharedReplay)
    {event : MarketDataEvent} {symbolId : Nat} (other : symbolId ≠ event.symbolId) :
    (s.step config event).stateOf symbolId = s.stateOf symbolId := by
  unfold stateOf step
  rw [SortedMap.find?_upsert_ne _ _ _ other]

end SharedReplay

def numbersOfSymbol (symbolId : Nat) (events : List MarketDataEvent) : List Nat :=
  numbersOf (events.filter (fun event => event.symbolId = symbolId))

theorem sharedRun_unbroken {config : AggregateReplayConfig}
    (validates : (config.validatePerSymbolSequences &&
      config.replayConfig.validateSequenceNumbers) = true)
    {symbolId : Nat} {events : List MarketDataEvent}
    (goes : ((sharedRun config events).stateOf symbolId).failed = false) :
    Unbroken (numbersOfSymbol symbolId events) ∧
      ∀ n ∈ (numbersOfSymbol symbolId events).getLast?,
        ((sharedRun config events).stateOf symbolId).expectedSequence = nextSequence n := by
  induction events using List.reverseRecOn with
  | nil => exact ⟨List.isChain_nil, fun _ h => by cases h⟩
  | append_singleton events event ih =>
    unfold sharedRun at goes ih ⊢
    rw [List.foldl_append, List.foldl_cons, List.foldl_nil] at goes ⊢
    unfold numbersOfSymbol numbersOf at ih ⊢
    rw [List.filter_append, List.map_append]
    by_cases same : event.symbolId = symbolId
    · subst same
      rw [SharedReplay.stateOf_step_self] at goes ⊢
      obtain ⟨fresh, taken, next⟩ := SharedReplay.serve_state validates goes
      obtain ⟨chain, last⟩ := ih fresh
      constructor
      · apply List.IsChain.append chain
        · simp
        · intro a ha b hb
          have here : event.sequenceNumber = b := by simpa using hb
          rw [last a ha, here] at taken
          exact taken
      · intro n hn
        have here : event.sequenceNumber = n := by simpa using hn
        rw [next, here]
    · rw [SharedReplay.stateOf_step_ne config _ (Ne.symm same)] at goes ⊢
      simpa [same] using ih goes

/-- The events that a validating replay lets pass are numbered without a gap as long as none
follows the last number; that one may be followed by any. -/
theorem ReplayEngine.sequence_law_iff {config : AggregateReplayConfig}
    (validates : config.replayConfig.validateSequenceNumbers = true)
    (perSymbol : config.validatePerSymbolSequences = true) {events : List MarketDataEvent}
    (fits : ∀ event ∈ events, event.sequenceNumber < 2 ^ 64) (symbolId : Nat)
    {front : List MarketDataEvent} (part : front <+: events) :
    (front.length ≤
        ((ReplayEngine.new symbolId config.replayConfig).replayEvents events).eventsProcessed →
      (Successive (numbersOf front) ↔ NothingBehindLast (numbersOf front)) ∧
      (GapFree (numbersOf front) ↔ ZeroBehindLast (numbersOf front))) ∧
    (((sharedRun config front).stateOf symbolId).failed = false →
      (Successive (numbersOfSymbol symbolId front) ↔
        NothingBehindLast (numbersOfSymbol symbolId front)) ∧
      (GapFree (numbersOfSymbol symbolId front) ↔
        ZeroBehindLast (numbersOfSymbol symbolId front))) := by
  have all : ∀ a ∈ numbersOf front, a < 2 ^ 64 := by
    intro a ha
    obtain ⟨event, here, rfl⟩ := List.mem_map.mp ha
    exact fits event (part.mem here)
  have own : ∀ a ∈ numbersOfSymbol symbolId front, a < 2 ^ 64 := by
    intro a ha
    obtain ⟨event, here, rfl⟩ := List.mem_map.mp ha
    exact fits event (part.mem (List.mem_of_mem_filter here))
  constructor
  · intro processed
    have unbroken := replayEvents_unbroken validates part processed
    exact ⟨successive_iff all unbroken, gapFree_iff all unbroken⟩
  · intro goes
    have unbroken := (sharedRun_unbroken (by simp [validates, perSymbol]) goes).1
    exact ⟨successive_iff own unbroken, gapFree_iff own unbroken⟩

def heartbeat (sequenceNumber : Nat) : MarketDataEvent := { symbolId := 1, sequenceNumber }

theorem ReplayEngine.sequence_law_three_heartbeats :
    Successive [7, 8, 9] ∧ Successive (numbersOfSymbol 1 [heartbeat 7, heartbeat 8, heartbeat 9]) := by
  have validates : ({} : ReplayConfig).validateSequenceNumbers = true := rfl
  have fits : ∀ event ∈ [heartbeat 7, heartbeat 8, heartbeat 9],
      event.sequenceNumber < 2 ^ 64 := by decide
  have law := @ReplayEngine.sequence_law_iff ⟨{}, true⟩ validates rfl _ fits 1 _ (List.prefix_refl _)
  have engine := (law.1 (by decide)).1
  have shared := (law.2 (by decide)).1
  constructor
  · exact engine.mpr (by unfold NothingBehindLast; decide)
  · exact shared.mpr (by unfold NothingBehindLast; decide)

/-- Behind the last number the expected one is zero, which reads as not set. -/
theorem ReplayEngine.sequence_law_behind_last :
    ((ReplayEngine.new 1 {}).replayEvents
        [heartbeat lastSequenceNumber, heartbeat 5]).eventsProcessed = 2 ∧
      ((sharedRun ⟨{}, true⟩ [heartbeat lastSequenceNumber, heartbeat 5]).stateOf 1).failed =
        false ∧
      numbersOfSymbol 1 [heartbeat lastSequenceNumber, heartbeat 5] = [lastSequenceNumber, 5] ∧
      ¬ Successive [lastSequenceNumber, 5] ∧ ¬ GapFree [lastSequenceNumber, 5] := by
  unfold Successive GapFree
  decide

end Asterion
