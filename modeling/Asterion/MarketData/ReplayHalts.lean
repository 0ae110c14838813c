import Asterion.MarketData.ReplayModes

/-! The book a replay leaves when it halts. An event that fails a check made before it is
applied leaves the book of the events before it; the check of the book comes after the event
has been applied, and its effect stays. -/
namespace Asterion

open Lib Lib.StoppingLoop

def ReplayEngine.bookAfterReplay (engine : ReplayEngine) (events : List MarketDataEvent) :
    OrderBook :=
  ((engine.start events).steps events).engine.book

/-- The replay leaves a valid book, that of the events it counts. -/
structure LeavesCountedBook (symbolId : Nat) (config : ReplayConfig)
    (events : List MarketDataEvent) : Prop where
  invariants : ((ReplayEngine.new symbolId config).bookAfterReplay events).checkInvariants.ok = true
  uncrossed : ((ReplayEngine.new symbolId config).bookAfterReplay events).Uncrossed
  counted : (ReplayEngine.new symbolId config).bookAfterReplay events =
    (ReplayEngine.new symbolId config).bookAfterReplay
      (events.take ((ReplayEngine.new symbolId config).replayEvents events).eventsProcessed)
  checksum : ((ReplayEngine.new symbolId config).replayEvents events).finalBookChecksum =
    ((ReplayEngine.new symbolId config).replayEvents
      (events.take ((ReplayEngine.new symbolId config).replayEvents events).eventsProcessed)
      ).finalBookChecksum

namespace ReplayStream

/-- The event reaches the book and leaves a trace there that the check of the book refuses: it
crosses the book, or it rests an order under a mode that is not supported. -/
def Spoils (s : ReplayStream) (event : MarketDataEvent) : Prop :=
  s.Reached event ∧
    match s.engine.config.validationMode with
    | .other _ => (Queues.incoming s.engine.book.queue event).isSome = true
    | _ => Queues.Crossing s.engine.book.queue event

theorem processed_loop {s : ReplayStream} (events : List MarketDataEvent)
    (on : (loop step s events).2 = true) :
    (loop step s events).1.result.eventsProcessed = s.result.eventsProcessed + events.length := by
  induction events generalizing s with
  | nil => rfl
  | cons event events ih =>
    cases he : (s.step event).2 with
    | false =>
      rw [loop_cons_off he, he] at on
      cases on
    | true =>
      rw [loop_cons_on he] at on ⊢
      rw [ih on, (step_served he).2.1.processed, List.length_cons]
      omega

theorem running_loop {s : ReplayStream} (h : Running s) (events : List MarketDataEvent)
    (on : (loop step s events).2 = true) : Running (loop step s events).1 :=
  loop_kept (I := Running) (fun _ _ hs on => running_step hs on) h events on

theorem config_loop (s : ReplayStream) (events : List MarketDataEvent) :
    (loop step s events).1.engine.config = s.engine.config := by
  refine loop_invariant (I := fun t : ReplayStream => t.engine.config = s.engine.config) ?_ rfl events
  intro t event ht
  rcases t.step_spec event with ⟨-, -, stopped, -⟩ | ⟨-, -, served, -⟩
  · exact stopped.config.trans ht
  · exact served.config.trans ht

section Stopping
variable {s : ReplayStream} (h : Running s) {event : MarketDataEvent}
include h

theorem taken (reached : s.Reached event)
    (refused : (ReplayEngine.applyToBook s.engine.book event).2 = none) :
    Queues.apply s.engine.book.queue s.engine.book.symbolId event =
      some (s.bookAfter event).queue := by
  have out := applyToBook_outcome h.wf (ReplayEngine.validated reached.2)
  have done := out.done
  rw [refused] at done
  obtain ⟨q, hq⟩ := Option.isSome_iff_exists.mp done.symm
  have queue := out.queue
  rw [hq] at queue ⊢
  exact congrArg some queue.symm

variable (on : s.engine.config.validateBookState = true)
include on

/-- In a supported mode the check after an event asks for an uncrossed book. -/
theorem checked_iff (supported : s.engine.config.Supported) (reached : s.Reached event) :
    { s.engine with book := s.bookAfter event }.validateBookAfterApply = none ↔
      (s.bookAfter event).Uncrossed := by
  have wf := (bookAfter_wf h.wf reached.2).1
  have check := ReplayEngine.validateBookAfterApply_eq
    ⟨s.engine.config, s.bookAfter event⟩ wf supported
  rw [if_pos on] at check
  rw [← validateTopOfBook_eq_none]
  exact iff_of_eq (congrArg (· = none) check)

/-- A supported mode: an event that is refused without spoiling the book leaves no trace. -/
theorem stopped_book (supported : s.engine.config.Supported) (off : (s.step event).2 = false)
    (clean : ¬ s.Spoils event) : (s.step event).1.engine.book = s.engine.book := by
  obtain ⟨hn, -, book⟩ := step_stopped off
  by_cases reached : s.Reached event
  · rw [book, if_pos reached]
    have valid := ReplayEngine.validated reached.2
    cases refused : (ReplayEngine.applyToBook s.engine.book event).2 with
    | some reason => exact (applyToBook_refused h.wf valid refused).1
    | none =>
      exfalso
      have wf := (bookAfter_wf h.wf reached.2).1
      have q := taken h reached refused
      have uncrossed : ¬ (s.bookAfter event).Uncrossed := by
        intro hu
        exact hn ⟨reached, refused, (checked_iff h on supported reached).mpr hu⟩
      rw [OrderBook.uncrossed_iff wf,
        apply_uncrossed h.wf ((OrderBook.uncrossed_iff h.wf).mp (h.uncrossed on)) q,
        not_not] at uncrossed
      apply clean
      refine ⟨reached, ?_⟩
      rcases supported with hm | hm
      · rw [hm]
        exact uncrossed
      · rw [hm]
        exact uncrossed
  · rw [book, if_neg reached]

/-- A supported mode: an event that spoils the book stops the stream and stays in the book. -/
theorem spoiled_book (supported : s.engine.config.Supported) (spoils : s.Spoils event) :
    (s.step event).2 = false ∧ ¬ (s.step event).1.engine.book.Uncrossed := by
  obtain ⟨reached, crossing⟩ := spoils
  replace crossing : Queues.Crossing s.engine.book.queue event := by
    rcases supported with hm | hm
    · rw [hm] at crossing
      exact crossing
    · rw [hm] at crossing
      exact crossing
  have valid := ReplayEngine.validated reached.2
  have wf := (bookAfter_wf h.wf reached.2).1
  obtain ⟨o, ho, -⟩ := crossing.2
  have done := (applyToBook_outcome h.wf valid).done
  rw [apply_of_incoming h.wf valid ho] at done
  have refused : (ReplayEngine.applyToBook s.engine.book event).2 = none :=
    Option.isNone_iff_eq_none.mp done
  have crossed : ¬ (s.bookAfter event).Uncrossed := by
    rw [OrderBook.uncrossed_iff wf, apply_uncrossed h.wf
      ((OrderBook.uncrossed_iff h.wf).mp (h.uncrossed on)) (taken h reached refused), not_not]
    exact crossing
  rcases s.step_spec event with ⟨-, off, -, book⟩ | ⟨accepts, -⟩
  · rw [book, if_pos reached]
    exact ⟨off, crossed⟩
  · exact absurd ((checked_iff h on supported reached).mp accepts.2.2) crossed

end Stopping

section Unsupported
variable {s : ReplayStream} {value symbolId : Nat} {event : MarketDataEvent}
  (mode : s.engine.config.validationMode = .other value)
  (on : s.engine.config.validateBookState = true)
include mode

theorem not_accepts_other (on : s.engine.config.validateBookState = true) : ¬ s.Accepts event := by
  rintro ⟨-, -, checked⟩
  simp only [ReplayEngine.validateBookAfterApply, on, mode] at checked
  exact absurd checked (by simp)

/-- An unsupported mode stops at the first event; only one that rests an order leaves a trace. -/
theorem stopped_fresh (fresh : s.engine.book = .new symbolId) (off : (s.step event).2 = false)
    (clean : ¬ s.Spoils event) : (s.step event).1.engine.book = .new symbolId := by
  obtain ⟨-, -, book⟩ := step_stopped off
  by_cases reached : s.Reached event
  · have valid := ReplayEngine.validated reached.2
    have idle : Queues.incoming (OrderBook.new symbolId).queue event = none := by
      rw [← fresh]
      by_contra hn
      apply clean
      refine ⟨reached, ?_⟩
      rw [mode]
      exact Option.isSome_iff_ne_none.mpr hn
    rw [book, if_pos reached, bookAfter]
    rw [fresh] at valid ⊢
    have unknown {P : Prop} (h : ∃ o, (OrderBook.new symbolId).findOrder event.orderId = some o) :
        P := by
      obtain ⟨o, ho⟩ := h
      cases ho
    unfold Queues.incoming at idle
    unfold ReplayEngine.applyToBook
    cases ht : event.eventType with
    | trade => rfl
    | heartbeat => rfl
    | cancel => exact unknown (valid.known (Or.inl ht))
    | replace => exact unknown (valid.known (Or.inr (Or.inl ht)))
    | execute => exact unknown (valid.known (Or.inr (Or.inr ht)))
    | add => simp [ht] at idle
    | snapshot =>
      have marker : ¬ event.orderId ≠ invalidOrderId := by
        intro hid
        simp only [ht] at idle
        rw [if_pos ⟨hid, Or.inr rfl⟩] at idle
        cases idle
      simp only [if_neg marker]
      split
      · rfl
      · rfl
  · rw [book, if_neg reached, fresh]

theorem spoiled_fresh (on : s.engine.config.validateBookState = true)
    (fresh : s.engine.book = .new symbolId) (spoils : s.Spoils event) :
    (s.step event).1.engine.book ≠ .new symbolId := by
  obtain ⟨reached, incoming⟩ := spoils
  rw [mode] at incoming
  obtain ⟨o, ho⟩ := Option.isSome_iff_exists.mp incoming
  have wf : s.engine.book.WF := fresh ▸ OrderBook.new_wf symbolId
  have valid := ReplayEngine.validated reached.2
  obtain ⟨q, hq⟩ := Option.isSome_iff_exists.mp (apply_of_incoming wf valid ho)
  have queue := (applyToBook_outcome wf valid).queue
  rw [hq] at queue
  obtain ⟨side, rests⟩ := incoming_rests ho hq
  intro same
  apply rests
  rcases s.step_spec event with ⟨-, -, -, book⟩ | ⟨accepts, -⟩
  · rw [book, if_pos reached] at same
    have empty : (s.bookAfter event).queue side = [] := by
      rw [same]
      cases side <;> rfl
    exact (congrFun queue side).symm.trans empty
  · exact absurd accepts (not_accepts_other mode on)

end Unsupported

/-- Under an unsupported mode the stream has not got past its first event. -/
def Idle (symbolId : Nat) (s : ReplayStream) : Prop :=
  ∀ value, s.engine.config.validationMode = .other value → s.engine.book = .new symbolId

section Steps
variable {s : ReplayStream} {symbolId : Nat} {event : MarketDataEvent} (h : Running s)
  (idle : Idle symbolId s) (on : s.engine.config.validateBookState = true)
include h idle on

omit idle in
theorem spoils_off (spoils : s.Spoils event) : (s.step event).2 = false := by
  rcases s.step_spec event with ⟨-, off, -⟩ | ⟨accepts, flag, -⟩
  · exact off
  · cases hm : s.engine.config.validationMode with
    | other value => exact absurd accepts (not_accepts_other hm on)
    | full => exact (spoiled_book h on (Or.inl hm) spoils).1
    | light => exact (spoiled_book h on (Or.inr hm) spoils).1

/-- A step that stops the stream leaves the valid book it found unless the event spoils it. -/
theorem stopped_iff (off : (s.step event).2 = false) :
    ((s.step event).1.engine.book.Uncrossed ∧ (s.step event).1.engine.book = s.engine.book) ↔
      ¬ s.Spoils event := by
  constructor
  · rintro ⟨uncrossed, same⟩ spoils
    cases hm : s.engine.config.validationMode with
    | other value => exact spoiled_fresh hm on (idle value hm) spoils (same.trans (idle value hm))
    | full => exact (spoiled_book h on (Or.inl hm) spoils).2 uncrossed
    | light => exact (spoiled_book h on (Or.inr hm) spoils).2 uncrossed
  · intro clean
    have same : (s.step event).1.engine.book = s.engine.book := by
      cases hm : s.engine.config.validationMode with
      | other value => exact (stopped_fresh hm (idle value hm) off clean).trans (idle value hm).symm
      | full => exact stopped_book h on (Or.inl hm) off clean
      | light => exact stopped_book h on (Or.inr hm) off clean
    exact ⟨same ▸ h.uncrossed on, same⟩

omit h idle in
theorem idle_step (flag : (s.step event).2 = true) : Idle symbolId (s.step event).1 := by
  obtain ⟨accepts, served, -⟩ := step_served flag
  intro value hm
  rw [served.config] at hm
  exact absurd accepts (not_accepts_other hm on)

end Steps

end ReplayStream

open ReplayStream

/-- The stream that serves the first events of a list, up to one that stops it. -/
theorem halted_iff {s : ReplayStream} (h : Running s) (events : List MarketDataEvent) :
    (s.steps events).state.halted = !(loop step s events).2 := by
  rw [steps_eq_loop]
  cases on : (loop step s events).2 with
  | true => exact (running_loop h events on).going
  | false =>
    obtain ⟨pre, event, post, -, -, off, stop⟩ := loop_stopped on
    rw [stop]
    exact (step_stopped off).2.1.halted

section Replays
variable (symbolId : Nat) (config : ReplayConfig) (log events : List MarketDataEvent)

/-- The stream before the first event, and after the events that are served. -/
abbrev stream0 : ReplayStream := (ReplayEngine.new symbolId config).start log

theorem bookAfterReplay_eq :
    (ReplayEngine.new symbolId config).bookAfterReplay events =
      (loop step (stream0 symbolId config log) events).1.engine.book := by
  rw [← steps_eq_loop]
  have h := ReplayEngine.steps_start (.refl config) symbolId events log events
  unfold ReplayEngine.bookAfterReplay
  rw [h]
  rfl

theorem replayEvents_eq :
    (ReplayEngine.new symbolId config).replayEvents events =
      { (loop step (stream0 symbolId config events) events).1.result with
        finalBookChecksum := ((ReplayEngine.new symbolId config).bookAfterReplay events).checksum } := by
  rw [bookAfterReplay_eq symbolId config events, ← steps_eq_loop]
  exact finalize_eq (steps_sound (running_start symbolId config events) events)

theorem replayEvents_checksum :
    ((ReplayEngine.new symbolId config).replayEvents events).finalBookChecksum =
      ((ReplayEngine.new symbolId config).bookAfterReplay events).checksum := by
  rw [replayEvents_eq]

theorem idle_loop {symbolId : Nat} {config : ReplayConfig} {log : List MarketDataEvent}
    (on : config.validateBookState = true) (events : List MarketDataEvent)
    (flag : (loop step (stream0 symbolId config log) events).2 = true) :
    Idle symbolId (loop step (stream0 symbolId config log) events).1 := by
  have kept := loop_kept (I := fun s => Idle symbolId s ∧ s.engine.config = config)
    (fun s event hs flag => ⟨idle_step (hs.2 ▸ on) flag,
      (step_served flag).2.1.config.trans hs.2⟩)
    (s := stream0 symbolId config log) ⟨fun _ _ => rfl, rfl⟩ events flag
  exact kept.1

/-- What has to be shown of the book: the rest follows from its well-formedness. -/
theorem leavesCountedBook_iff_book :
    LeavesCountedBook symbolId config events ↔
      let final := (loop step (stream0 symbolId config events) events).1
      final.engine.book.Uncrossed ∧
        final.engine.book = (loop step (stream0 symbolId config events)
          (events.take final.result.eventsProcessed)).1.engine.book := by
  have processed : ((ReplayEngine.new symbolId config).replayEvents events).eventsProcessed =
      (loop step (stream0 symbolId config events) events).1.result.eventsProcessed := by
    rw [replayEvents_eq]
  have wf := (steps_sound (running_start symbolId config events) events).wf
  rw [steps_eq_loop] at wf
  constructor
  · intro h
    have uncrossed := h.uncrossed
    have counted := h.counted
    rw [processed] at counted
    rw [bookAfterReplay_eq symbolId config events] at uncrossed counted
    rw [bookAfterReplay_eq symbolId config events] at counted
    exact ⟨uncrossed, counted⟩
  · rintro ⟨uncrossed, counted⟩
    rw [← bookAfterReplay_eq] at uncrossed counted wf
    rw [← bookAfterReplay_eq, ← processed] at counted
    refine ⟨?_, uncrossed, counted, ?_⟩
    · rw [OrderBook.checkInvariants_clean wf]
    · rw [replayEvents_checksum, replayEvents_checksum]
      exact congrArg OrderBook.checksum counted

end Replays

/-- A replay with the book checked leaves the valid book of the events it counts, if and only
if no event it gets to spoils the book. -/
theorem leavesCountedBook_iff (symbolId : Nat) (config : ReplayConfig)
    (events : List MarketDataEvent) (on : config.validateBookState = true) :
    LeavesCountedBook symbolId config events ↔
      ∀ pre event post, events = pre ++ event :: post →
        let s := ((ReplayEngine.new symbolId config).start events).steps pre
        s.state.halted = false → ¬ s.Spoils event := by
  rw [leavesCountedBook_iff_book]
  let s₀ := stream0 symbolId config events
  have start : Running s₀ := running_start symbolId config events
  have checked (es) : (loop step s₀ es).1.engine.config.validateBookState = true :=
    (congrArg ReplayConfig.validateBookState (config_loop s₀ es)).trans on
  have going (es) : (s₀.steps es).state.halted = false ↔ (loop step s₀ es).2 = true := by
    rw [halted_iff start, Bool.not_eq_false']
  have spoilsOff {pre : List MarketDataEvent} {event : MarketDataEvent}
      (hpre : (s₀.steps pre).state.halted = false) (spoils : (s₀.steps pre).Spoils event) :
      (loop step s₀ pre).2 = true ∧ (step (loop step s₀ pre).1 event).2 = false := by
    have hon := (going pre).mp hpre
    rw [steps_eq_loop] at spoils
    exact ⟨hon, spoils_off (running_loop start pre hon) (checked pre) spoils⟩
  dsimp only
  cases hall : (loop step s₀ events).2 with
  | true =>
    have running := running_loop start events hall
    have all : events.take (loop step s₀ events).1.result.eventsProcessed = events := by
      apply List.take_of_length_le
      rw [processed_loop events hall]
      omega
    refine iff_of_true ⟨running.uncrossed (checked events), by rw [all]⟩ ?_
    rintro pre event post rfl hpre spoils
    obtain ⟨hon, off⟩ := spoilsOff hpre spoils
    rw [loop_append_on hon, loop_cons_off off, off] at hall
    cases hall
  | false =>
    obtain ⟨pre, event, post, split, hon, off, stop⟩ := loop_stopped hall
    have running := running_loop start pre hon
    have counted : events.take (loop step s₀ events).1.result.eventsProcessed = pre := by
      rw [stop, (step_stopped off).2.1.processed, processed_loop pre hon, split]
      exact List.take_left' (Nat.zero_add _).symm
    rw [counted, stop]
    rw [stopped_iff running (idle_loop on pre hon) (checked pre) off]
    constructor
    · intro clean pre' event' post' split' hpre' spoils
      obtain ⟨hon', off'⟩ := spoilsOff hpre' spoils
      obtain ⟨rfl, rfl⟩ := stop_unique (split.symm.trans split') hon off hon' off'
      rw [steps_eq_loop] at spoils
      exact clean spoils
    · intro clean
      have h := clean pre event post split ((going pre).mpr hon)
      rwa [steps_eq_loop] at h

def restingBid : MarketDataEvent :=
  { timestampNs := 1, sequenceNumber := 1, symbolId := 1, eventType := .add, side := .buy
    priceTicks := 1000, quantity := 10, orderId := 1 }

def crossingAsk : MarketDataEvent :=
  { timestampNs := 2, sequenceNumber := 2, symbolId := 1, eventType := .add, side := .sell
    priceTicks := 999, quantity := 10, orderId := 2 }

/-- The halting event is the bid again: its sequence number is not the next one. -/
theorem leavesCountedBook_repeated_bid :
    ((ReplayEngine.new 1 {}).replayEvents [restingBid, restingBid]).eventsProcessed = 1 ∧
      LeavesCountedBook 1 {} [restingBid, restingBid] := by
  refine ⟨by decide, (leavesCountedBook_iff 1 {} _ rfl).mpr ?_⟩
  intro pre event post split
  match pre with
  | [] =>
    obtain ⟨rfl, rfl⟩ := List.cons.inj split
    rintro s - ⟨-, -, o, ho, meets⟩
    cases ho
    obtain ⟨y, hy, -⟩ := meets
    cases hy
  | [first] =>
    obtain ⟨rfl, rest⟩ := List.cons.inj split
    obtain ⟨rfl, rfl⟩ := List.cons.inj rest
    rintro s - ⟨reached, -⟩
    exact absurd reached (by decide)
  | first :: second :: third => simp at split

/-- The ask is diagnosed and stays in the book. -/
theorem crossing_ask_stays : ¬ LeavesCountedBook 1 {} [restingBid, crossingAsk] := by
  intro h
  exact absurd h.uncrossed (by decide)

end Asterion
