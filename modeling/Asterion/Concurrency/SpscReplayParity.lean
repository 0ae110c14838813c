import Asterion.Concurrency.SpscFifo
import Asterion.Concurrency.SpscReplay
import Asterion.MarketData.Continuations

/-! Threading does not change a replay: what the producer has accepted, what the consumer has
served and what lies between them, kept by every step of either. -/
namespace Asterion

open Lib Lib.StoppingLoop

section Calls
variable {T : Type} {s t : RingState T}

theorem PushStep.consumed {item : T} {answer : Option Bool} (step : PushStep item s answer t) :
    t.popped = s.popped ∧ t.out = s.out := by
  cases step <;> exact ⟨rfl, rfl⟩

theorem PushStep.pushed {item : T} {answer : Option Bool} (step : PushStep item s answer t) :
    t.pushed = if answer = some true then s.pushed ++ [item] else s.pushed := by
  cases step <;> rfl

theorem PopStep.pushed {answer : Option Bool} (step : PopStep s answer t) :
    t.pushed = s.pushed := by
  cases step <;> rfl

theorem PopStep.popped {answer : Option Bool} (step : PopStep s answer t) :
    t.popped = if answer = Option.some true then s.popped ++ [t.out] else s.popped := by
  cases step <;> rfl

theorem ProducerSizeStep.untouched {size : Option Nat} (step : ProducerSizeStep s size t) :
    t.popped = s.popped ∧ t.out = s.out ∧ t.pushed = s.pushed := by
  cases step <;> exact ⟨rfl, rfl, rfl⟩

end Calls

namespace SpscReplay

def payload (items : List ReplayQueueItem) : List MarketDataEvent :=
  items.filterMap fun i => if i.endOfStream then none else some i.event

@[simp] theorem payload_items (events : List MarketDataEvent) :
    payload (events.map item) = events := by
  induction events with
  | nil => rfl
  | cons event events ih => simpa [payload, item] using ih

theorem payload_append (items more : List ReplayQueueItem) :
    payload (items ++ more) = payload items ++ payload more := List.filterMap_append

theorem item_of_event {i : ReplayQueueItem} (event : i.endOfStream = false) :
    i = item i.event := by
  obtain ⟨e, last⟩ := i
  cases event
  rfl

/-- What the producer has done: the events sent and those left are the events that were not
dropped, and the marker follows the last of them. -/
structure Sent (dropOnFull : Bool) (events : List MarketDataEvent) (s : SpscReplay)
    (sent : List MarketDataEvent) : Prop where
  kept : (sent ++ s.remaining).Sublist events
  count : (sent ++ s.remaining).length + s.stats.droppedEvents = events.length
  produced : s.stats.producedEvents = sent.length
  lossless : dropOnFull = false → s.stats.droppedEvents = 0
  ending : s.producer = .ending ∨ s.producer = .endWaiting → s.remaining = []
  pushed : s.ring.pushed = sent.map item ∨
    s.remaining = [] ∧ s.ring.pushed = sent.map item ++ [marker] ∧
      s.stats.endOfStreamMarkersProduced = 1 ∧
      (s.producer = .measuring true ∨ s.producer = .done)

/-- The events served so far, and whether the stream goes on behind them. -/
structure Served (start : ReplayStream) (s : SpscReplay) (served : List MarketDataEvent)
    (goesOn marked : Bool) : Prop where
  stream : loop ReplayStream.step start served = (s.stream, goesOn)
  consumed : s.stats.consumedEvents = served.length
  seen : s.stats.endOfStreamSeen = marked
  markers : s.stats.endOfStreamMarkersConsumed = marked.toNat

def Halted (start : ReplayStream) (s : SpscReplay) : Prop :=
  ∃ served, s.Served start served false false ∧ s.ring.popped = served.map item

def Ended (start : ReplayStream) (s : SpscReplay) : Prop :=
  ∃ served last, s.Served start served true true ∧ last.endOfStream = true ∧
    s.ring.popped = served.map item ++ [last]

def Consumed (start : ReplayStream) (s : SpscReplay) : Prop :=
  match s.consumer with
  | .spawned | .ready | .popping =>
    ∃ served, s.Served start served true false ∧ s.ring.popped = served.map item
  | .handling =>
    ∃ served, s.Served start served true false ∧ s.ring.popped = served.map item ++ [s.ring.out]
  | .halting => s.Halted start
  | .stopping | .done => s.Halted start ∨ s.Ended start

structure Inv (capacity : Nat) (dropOnFull : Bool) (events : List MarketDataEvent)
    (start : ReplayStream) (s : SpscReplay) : Prop where
  ring : s.ring.Inv capacity
  sent : ∃ sent, s.Sent dropOnFull events sent
  consumed : s.Consumed start
  depth : s.stats.maxQueueDepth ≤ capacity

theorem inv_spawn (config : SpscReplayConfig) (steady : Bool) (symbolId : Nat)
    (events : List MarketDataEvent) :
    Inv config.queueCapacity config.dropOnFull events
      ((ReplayEngine.new symbolId config.replay).start events)
      (config.spawn steady symbolId events) where
  ring := RingState.inv_start config.queueCapacity ({} : ReplayQueueItem)
  sent := by
    refine ⟨[], .refl _, rfl, rfl, fun _ => rfl, ?_, Or.inl rfl⟩
    cases steady <;> simp [SpscReplayConfig.spawn]
  consumed := by
    cases steady <;> exact ⟨[], ⟨rfl, rfl, rfl, rfl⟩, rfl⟩
  depth := Nat.zero_le _

section Producer
variable {capacity : Nat} {dropOnFull : Bool} {events : List MarketDataEvent} {s t : SpscReplay}

/-- What the producer leaves alone. -/
structure SameConsumer (s t : SpscReplay) : Prop where
  consumer : t.consumer = s.consumer
  popped : t.ring.popped = s.ring.popped
  out : t.ring.out = s.ring.out
  stream : t.stream = s.stream
  consumed : t.stats.consumedEvents = s.stats.consumedEvents
  seen : t.stats.endOfStreamSeen = s.stats.endOfStreamSeen
  markers : t.stats.endOfStreamMarkersConsumed = s.stats.endOfStreamMarkersConsumed

theorem SameConsumer.served (same : SameConsumer s t) {start : ReplayStream}
    {served : List MarketDataEvent} {goesOn marked : Bool}
    (h : s.Served start served goesOn marked) : t.Served start served goesOn marked :=
  ⟨same.stream ▸ h.stream, same.consumed.trans h.consumed, same.seen.trans h.seen,
    same.markers.trans h.markers⟩

theorem SameConsumer.halted (same : SameConsumer s t) {start : ReplayStream}
    (h : s.Halted start) : t.Halted start := by
  obtain ⟨served, hs, popped⟩ := h
  exact ⟨served, same.served hs, same.popped.trans popped⟩

theorem SameConsumer.ended (same : SameConsumer s t) {start : ReplayStream}
    (h : s.Ended start) : t.Ended start := by
  obtain ⟨served, last, hs, marks, popped⟩ := h
  exact ⟨served, last, same.served hs, marks, same.popped.trans popped⟩

theorem SameConsumer.keeps (same : SameConsumer s t) {start : ReplayStream}
    (h : s.Consumed start) : t.Consumed start := by
  have going (h : ∃ served, s.Served start served true false ∧ s.ring.popped = served.map item) :
      ∃ served, t.Served start served true false ∧ t.ring.popped = served.map item := by
    obtain ⟨served, hs, popped⟩ := h
    exact ⟨served, same.served hs, same.popped.trans popped⟩
  unfold Consumed at h ⊢
  rw [same.consumer]
  cases hc : s.consumer with
  | spawned =>
    rw [hc] at h
    exact going h
  | ready =>
    rw [hc] at h
    exact going h
  | popping =>
    rw [hc] at h
    exact going h
  | handling =>
    rw [hc] at h
    obtain ⟨served, hs, popped⟩ := h
    refine ⟨served, same.served hs, ?_⟩
    rw [same.popped, same.out, popped]
  | halting =>
    rw [hc] at h
    exact same.halted h
  | stopping =>
    rw [hc] at h
    exact h.imp same.halted same.ended
  | done =>
    rw [hc] at h
    exact h.imp same.halted same.ended

theorem ProducerStep.sameConsumer (step : ProducerStep dropOnFull s t) : SameConsumer s t := by
  cases step with
  | push at_ left call => exact ⟨rfl, call.consumed.1, call.consumed.2, rfl, rfl, rfl, rfl⟩
  | pushed at_ left call => exact ⟨rfl, call.consumed.1, call.consumed.2, rfl, rfl, rfl, rfl⟩
  | full at_ left lossless call =>
    exact ⟨rfl, call.consumed.1, call.consumed.2, rfl, rfl, rfl, rfl⟩
  | drop at_ left sheds call => exact ⟨rfl, call.consumed.1, call.consumed.2, rfl, rfl, rfl, rfl⟩
  | fullAgain at_ left call => exact ⟨rfl, call.consumed.1, call.consumed.2, rfl, rfl, rfl, rfl⟩
  | pushEnd at_ call => exact ⟨rfl, call.consumed.1, call.consumed.2, rfl, rfl, rfl, rfl⟩
  | pushedEnd at_ call => exact ⟨rfl, call.consumed.1, call.consumed.2, rfl, rfl, rfl, rfl⟩
  | fullEnd at_ call => exact ⟨rfl, call.consumed.1, call.consumed.2, rfl, rfl, rfl, rfl⟩
  | measure at_ call => exact ⟨rfl, call.untouched.1, call.untouched.2.1, rfl, rfl, rfl, rfl⟩
  | measured at_ call => exact ⟨rfl, call.untouched.1, call.untouched.2.1, rfl, rfl, rfl, rfl⟩
  | _ => exact ⟨rfl, rfl, rfl, rfl, rfl, rfl, rfl⟩

/-- Before the marker is out the buffer has taken the events sent and nothing else. -/
theorem Sent.pushed_of {sent : List MarketDataEvent} (h : s.Sent dropOnFull events sent)
    (open_ : s.producer ≠ .measuring true ∧ s.producer ≠ .done) :
    s.ring.pushed = sent.map item := by
  rcases h.pushed with pushed | ⟨-, -, -, last | last⟩
  · exact pushed
  · exact absurd last open_.1
  · exact absurd last open_.2

/-- A step that only moves the producer, and not to where the marker goes out. -/
theorem Sent.move {sent : List MarketDataEvent} (h : s.Sent dropOnFull events sent)
    {phase : ProducerPhase} {ready : Nat} {ring : RingState ReplayQueueItem} {stats : SpscReplayStats}
    (open_ : s.producer ≠ .measuring true ∧ s.producer ≠ .done)
    (pushed : ring.pushed = s.ring.pushed)
    (produced : stats.producedEvents = s.stats.producedEvents)
    (dropped : stats.droppedEvents = s.stats.droppedEvents)
    (ending : phase = .ending ∨ phase = .endWaiting → s.remaining = []) :
    Sent dropOnFull events
      { s with ring, producer := phase, readyThreads := ready, stats } sent :=
  ⟨h.kept, by rw [← h.count]; exact congrArg _ dropped, produced.trans h.produced,
    fun l => dropped.trans (h.lossless l), ending, Or.inl (pushed.trans (h.pushed_of open_))⟩

theorem ProducerStep.sent (step : ProducerStep dropOnFull s t)
    (h : ∃ sent, s.Sent dropOnFull events sent) : ∃ sent, t.Sent dropOnFull events sent := by
  obtain ⟨sent, h⟩ := h
  cases step with
  | report at_ => exact ⟨sent, h.move (by simp [at_]) rfl rfl rfl (by simp)⟩
  | spin at_ off => exact ⟨sent, h⟩
  | begin at_ on => exact ⟨sent, h.move (by simp [at_]) rfl rfl rfl (by simp)⟩
  | next at_ left active => exact ⟨sent, h.move (by simp [at_]) rfl rfl rfl (by simp)⟩
  | quit at_ left halted => exact ⟨sent, h.move (by simp [at_]) rfl rfl rfl (by simp)⟩
  | exhausted at_ left => exact ⟨sent, h.move (by simp [at_]) rfl rfl rfl (fun _ => left)⟩
  | push at_ left call =>
    exact ⟨sent, h.move (by simp [at_]) call.pushed rfl rfl (by simp [at_])⟩
  | pushed at_ left call =>
    rename_i again event rest ring
    have kept : (sent ++ [event]) ++ rest = sent ++ s.remaining := by rw [left]; simp
    refine ⟨sent ++ [event], kept ▸ h.kept, ?_, ?_, h.lossless, by simp, Or.inl ?_⟩
    · exact (congrArg (fun l => List.length l + s.stats.droppedEvents) kept).trans h.count
    · rw [List.length_append, ← h.produced]
      rfl
    · rw [call.pushed, if_pos rfl, h.pushed_of (by simp [at_]), List.map_append]
      rfl
  | full at_ left lossless call =>
    exact ⟨sent, h.move (by simp [at_]) call.pushed rfl rfl (by simp)⟩
  | drop at_ left sheds call =>
    rename_i event rest ring
    have fewer : (sent ++ rest).Sublist (sent ++ s.remaining) := by
      rw [left]
      exact (List.sublist_cons_self event rest).append_left sent
    refine ⟨sent, fewer.trans h.kept, ?_, h.produced, ?_, by simp, Or.inl ?_⟩
    · have count := h.count
      rw [left] at count
      simp only [List.length_append, List.length_cons] at count ⊢
      omega
    · intro lossless
      rw [sheds] at lossless
      cases lossless
    · exact call.pushed.trans (h.pushed_of (by simp [at_]))
  | fullAgain at_ left call =>
    exact ⟨sent, h.move (by simp [at_]) call.pushed rfl rfl (by simp)⟩
  | retry at_ active => exact ⟨sent, h.move (by simp [at_]) rfl rfl rfl (by simp)⟩
  | abandon at_ halted => exact ⟨sent, h.move (by simp [at_]) rfl rfl rfl (by simp)⟩
  | pushEnd at_ call =>
    exact ⟨sent, h.move (by simp [at_]) call.pushed rfl rfl (fun _ => h.ending (Or.inl at_))⟩
  | pushedEnd at_ call =>
    refine ⟨sent, h.kept, h.count, h.produced, h.lossless, by simp,
      Or.inr ⟨h.ending (Or.inl at_), ?_, rfl, Or.inl rfl⟩⟩
    rw [call.pushed, if_pos rfl, h.pushed_of (by simp [at_])]
  | fullEnd at_ call =>
    exact ⟨sent, h.move (by simp [at_]) call.pushed rfl rfl (fun _ => h.ending (Or.inl at_))⟩
  | retryEnd at_ active =>
    exact ⟨sent, h.move (by simp [at_]) rfl rfl rfl (fun _ => h.ending (Or.inr at_))⟩
  | abandonEnd at_ halted => exact ⟨sent, h.move (by simp [at_]) rfl rfl rfl (by simp)⟩
  | measure at_ call =>
    refine ⟨sent, h.kept, h.count, h.produced, h.lossless, h.ending, ?_⟩
    exact h.pushed.imp call.untouched.2.2.trans
      fun marked => ⟨marked.1, call.untouched.2.2.trans marked.2.1, marked.2.2⟩
  | measured at_ call =>
    rename_i last size ring
    refine ⟨sent, h.kept, h.count, h.produced, h.lossless, by cases last <;> simp, ?_⟩
    refine h.pushed.imp call.untouched.2.2.trans fun marked =>
      ⟨marked.1, call.untouched.2.2.trans marked.2.1, marked.2.2.1, Or.inr ?_⟩
    have last := marked.2.2.2
    simp only [at_, ProducerPhase.measuring.injEq, reduceCtorEq, or_false] at last
    rw [last]
    rfl

/-- A step of the producer is a step of its thread on the buffer, or none. -/
theorem ProducerStep.ring (step : ProducerStep dropOnFull s t) :
    t.ring = s.ring ∨ RingStep s.ring t.ring := by
  cases step with
  | push at_ left call => exact Or.inr (.push _ call)
  | pushed at_ left call => exact Or.inr (.push _ call)
  | full at_ left lossless call => exact Or.inr (.push _ call)
  | drop at_ left sheds call => exact Or.inr (.push _ call)
  | fullAgain at_ left call => exact Or.inr (.push _ call)
  | pushEnd at_ call => exact Or.inr (.push _ call)
  | pushedEnd at_ call => exact Or.inr (.push _ call)
  | fullEnd at_ call => exact Or.inr (.push _ call)
  | measure at_ call => exact Or.inr (.producerSize call)
  | measured at_ call => exact Or.inr (.producerSize call)
  | _ => exact Or.inl rfl

theorem ProducerStep.depth (step : ProducerStep dropOnFull s t) (ring : s.ring.Inv capacity)
    (h : s.stats.maxQueueDepth ≤ capacity) : t.stats.maxQueueDepth ≤ capacity := by
  cases step with
  | measured at_ call =>
    cases call with
    | loadHead _ size_ => exact max_le h (ring.size_le size_)
  | _ => exact h

end Producer

section Consumer
variable {capacity : Nat} {dropOnFull : Bool} {events : List MarketDataEvent}
  {start : ReplayStream} {s t : SpscReplay}

/-- The consumer leaves alone all the producer's promises are about. -/
theorem ConsumerStep.sent {sent : List MarketDataEvent} (step : ConsumerStep s t)
    (h : s.Sent dropOnFull events sent) : t.Sent dropOnFull events sent := by
  cases step with
  | pop at_ call unanswered =>
    have kept := call.pushed
    exact ⟨h.kept, h.count, h.produced, h.lossless, h.ending, kept ▸ h.pushed⟩
  | popped at_ call =>
    have kept := call.pushed
    exact ⟨h.kept, h.count, h.produced, h.lossless, h.ending, kept ▸ h.pushed⟩
  | _ => exact ⟨h.kept, h.count, h.produced, h.lossless, h.ending, h.pushed⟩

theorem ConsumerStep.ring (step : ConsumerStep s t) :
    t.ring = s.ring ∨ RingStep s.ring t.ring := by
  cases step with
  | pop at_ call unanswered => exact Or.inr (.pop call)
  | popped at_ call => exact Or.inr (.pop call)
  | _ => exact Or.inl rfl

theorem ConsumerStep.depth (step : ConsumerStep s t) :
    t.stats.maxQueueDepth = s.stats.maxQueueDepth := by
  cases step <;> rfl

theorem Served.next {served : List MarketDataEvent} (h : s.Served start served true false)
    (ring : RingState ReplayQueueItem) (phase : ConsumerPhase) (event : MarketDataEvent) :
    Served start
      { s with
        ring
        consumer := phase
        stream := (s.stream.step event).1
        stats := { s.stats with consumedEvents := s.stats.consumedEvents + 1 } }
      (served ++ [event]) (s.stream.step event).2 false := by
  refine ⟨?_, ?_, h.seen, h.markers⟩
  · rw [loop_append_on (by rw [h.stream]), h.stream, loop_single]
  · rw [List.length_append, ← h.consumed]
    rfl

theorem ConsumerStep.consumed (step : ConsumerStep s t) (h : s.Consumed start) :
    t.Consumed start := by
  unfold Consumed at h
  cases step with
  | report at_ =>
    rw [at_] at h
    obtain ⟨served, hs, popped⟩ := h
    exact ⟨served, ⟨hs.1, hs.2, hs.3, hs.4⟩, popped⟩
  | spin at_ off => exact h
  | begin at_ on =>
    rw [at_] at h
    obtain ⟨served, hs, popped⟩ := h
    exact ⟨served, ⟨hs.1, hs.2, hs.3, hs.4⟩, popped⟩
  | pop at_ call unanswered =>
    rw [at_] at h
    obtain ⟨served, hs, popped⟩ := h
    unfold Consumed
    dsimp only
    rw [at_]
    refine ⟨served, ⟨hs.1, hs.2, hs.3, hs.4⟩, ?_⟩
    rw [call.popped, if_neg unanswered, popped]
  | popped at_ call =>
    rw [at_] at h
    obtain ⟨served, hs, popped⟩ := h
    refine ⟨served, ⟨hs.1, hs.2, hs.3, hs.4⟩, ?_⟩
    rw [call.popped, if_pos rfl, popped]
  | finish at_ last =>
    rw [at_] at h
    obtain ⟨served, hs, popped⟩ := h
    exact Or.inr ⟨served, s.ring.out, ⟨hs.1, hs.2, rfl, rfl⟩, last, popped⟩
  | serve at_ event on =>
    rw [at_] at h
    obtain ⟨served, hs, popped⟩ := h
    have more := hs.next s.ring .popping s.ring.out.event
    rw [on] at more
    refine ⟨served ++ [s.ring.out.event], more, ?_⟩
    rw [popped, List.map_append, item_of_event event]
    rfl
  | fail at_ event off =>
    rw [at_] at h
    obtain ⟨served, hs, popped⟩ := h
    have more := hs.next s.ring .halting s.ring.out.event
    rw [off] at more
    refine ⟨served ++ [s.ring.out.event], more, ?_⟩
    rw [popped, List.map_append, item_of_event event]
    rfl
  | halt at_ =>
    rw [at_] at h
    obtain ⟨served, hs, popped⟩ := h
    exact Or.inl ⟨served, ⟨hs.1, hs.2, hs.3, hs.4⟩, popped⟩
  | stop at_ =>
    rw [at_] at h
    rcases h with ⟨served, hs, popped⟩ | ⟨served, last, hs, marks, popped⟩
    · exact Or.inl ⟨served, ⟨hs.1, hs.2, hs.3, hs.4⟩, popped⟩
    · exact Or.inr ⟨served, last, ⟨hs.1, hs.2, hs.3, hs.4⟩, marks, popped⟩

end Consumer

section Runs
variable {capacity : Nat} {dropOnFull : Bool} {events : List MarketDataEvent}
  {start : ReplayStream} {s t : SpscReplay}

theorem inv_step (h : Inv capacity dropOnFull events start s) (step : Step dropOnFull s t) :
    Inv capacity dropOnFull events start t := by
  have ringKept (moved : t.ring = s.ring ∨ RingStep s.ring t.ring) : t.ring.Inv capacity := by
    rcases moved with same | step
    · exact same ▸ h.ring
    · exact RingState.inv_step h.ring step
  cases step with
  | producer step =>
    exact ⟨ringKept step.ring, step.sent h.sent, step.sameConsumer.keeps h.consumed,
      step.depth h.ring h.depth⟩
  | consumer step =>
    obtain ⟨sent, hs⟩ := h.sent
    exact ⟨ringKept step.ring, ⟨sent, step.sent hs⟩, step.consumed h.consumed,
      step.depth ▸ h.depth⟩
  | launch both =>
    obtain ⟨sent, hs⟩ := h.sent
    have same : SameConsumer s { s with start := true } := ⟨rfl, rfl, rfl, rfl, rfl, rfl, rfl⟩
    exact ⟨h.ring, ⟨sent, hs.kept, hs.count, hs.produced, hs.lossless, hs.ending, hs.pushed⟩,
      same.keeps h.consumed, h.depth⟩

theorem inv_run (h : Inv capacity dropOnFull events start s)
    (run : Relation.ReflTransGen (Step dropOnFull) s t) :
    Inv capacity dropOnFull events start t := by
  induction run with
  | refl => exact h
  | tail _ step ih => exact inv_step ih step

theorem served_prefix {sent served : List MarketDataEvent} (rest : List ReplayQueueItem)
    (hs : s.Sent dropOnFull events sent) (fifo : s.ring.popped <+: s.ring.pushed)
    (popped : s.ring.popped = served.map item ++ rest) : served <+: sent := by
  have all : payload s.ring.pushed = sent := by
    rcases hs.pushed with pushed | ⟨-, pushed, -⟩
    · rw [pushed, payload_items]
    · rw [pushed, payload_append, payload_items]
      exact List.append_nil sent
  have first : payload s.ring.popped = served ++ payload rest := by
    rw [popped, payload_append, payload_items]
  have pre : payload s.ring.popped <+: payload s.ring.pushed := fifo.filterMap _
  rw [all, first] at pre
  exact (List.prefix_append served _).trans pre

/-- Where the consumer has seen the marker, it has served everything, and nothing was left. -/
theorem ended_sent {sent served : List MarketDataEvent} {last : ReplayQueueItem}
    (hs : s.Sent dropOnFull events sent) (fifo : s.ring.popped <+: s.ring.pushed)
    (marks : last.endOfStream = true) (popped : s.ring.popped = served.map item ++ [last]) :
    served = sent ∧ s.remaining = [] ∧ s.stats.endOfStreamMarkersProduced = 1 := by
  have foreign : last ∉ sent.map item := by
    intro hm
    obtain ⟨event, -, rfl⟩ := List.mem_map.mp hm
    cases marks
  rw [popped] at fifo
  have member : last ∈ served.map item ++ [last] := by simp
  rcases hs.pushed with pushed | ⟨none, pushed, once, -⟩
  · rw [pushed] at fifo
    exact absurd (fifo.subset member) foreign
  · rw [pushed, List.prefix_concat_iff] at fifo
    rcases fifo with whole | part
    · have same := (List.append_inj' whole rfl).1
      have events := congrArg payload same
      rw [payload_items, payload_items] at events
      exact ⟨events, none, once⟩
    · exact absurd (part.subset member) foreign

/-- The loop over the kept events ends where the consumer did, whichever way it was stopped. -/
theorem finished_loop {sent : List MarketDataEvent} (hs : s.Sent dropOnFull events sent)
    (fifo : s.ring.popped <+: s.ring.pushed) (stopped : s.Halted start ∨ s.Ended start) :
    ∃ goesOn, loop ReplayStream.step start (sent ++ s.remaining) = (s.stream, goesOn) ∧
      (goesOn = true → s.remaining = [] ∧ s.stats.consumedEvents = sent.length ∧
        s.stats.endOfStreamSeen = true ∧ s.stats.endOfStreamMarkersProduced = 1 ∧
        s.stats.endOfStreamMarkersConsumed = 1) := by
  rcases stopped with ⟨served, hc, popped⟩ | ⟨served, last, hc, marks, popped⟩
  · obtain ⟨rest, rfl⟩ := served_prefix [] hs fifo (by simpa using popped)
    refine ⟨false, ?_, fun h => by cases h⟩
    rw [List.append_assoc, loop_append_off (by rw [hc.stream])]
    exact hc.stream
  · obtain ⟨rfl, none, once⟩ := ended_sent hs fifo marks popped
    refine ⟨true, ?_, fun _ => ⟨none, hc.consumed, hc.seen, once, hc.markers⟩⟩
    rw [none, List.append_nil]
    exact hc.stream

end Runs
end SpscReplay

open SpscReplay

/-- What a driver that dropped the other events returns. -/
structure SpscReplayResult.Replays (config : SpscReplayConfig) (symbolId : Nat)
    (events kept : List MarketDataEvent) (out : SpscReplayResult) : Prop where
  part : kept.Sublist events
  dropped : kept.length + out.stats.droppedEvents = events.length
  /-- The replay of the kept events, but for the checksum of the log, which is the whole log's. -/
  replay : out.replay = { (ReplayEngine.new symbolId config.replay).replayEvents kept with
    eventLogChecksum := checksumEvents events }
  lossless : config.backpressure = .block → out.stats.droppedEvents = 0 ∧
    out.replay = (ReplayEngine.new symbolId config.replay).replayEvents events
  depth : out.stats.maxQueueDepth ≤ config.queueCapacity
  /-- Where no event stops the replay, every kept event and one marker have gone through. -/
  complete : (((ReplayEngine.new symbolId config.replay).start kept).steps kept).state.halted =
      false → out.stats.producedEvents = kept.length ∧ out.stats.consumedEvents = kept.length ∧
    out.stats.endOfStreamSeen = true ∧ out.stats.endOfStreamMarkersProduced = 1 ∧
    out.stats.endOfStreamMarkersConsumed = 1

/-- A replay on a stream with another log's checksum differs in that checksum only. -/
theorem finalize_log (symbolId : Nat) (config : ReplayConfig) (log events : List MarketDataEvent) :
    (loop ReplayStream.step (stream0 symbolId config log) events).1.finalize =
      { (ReplayEngine.new symbolId config).replayEvents events with
        eventLogChecksum := checksumEvents log } := by
  have sound (log : List MarketDataEvent) :=
    ReplayStream.steps_sound (ReplayStream.running_start symbolId config log) events
  have own := ReplayStream.finalize_eq (sound log)
  have other := ReplayStream.finalize_eq (sound events)
  rw [ReplayStream.steps_eq_loop] at own other
  unfold ReplayEngine.replayEvents
  rw [ReplayStream.steps_eq_loop]
  calc (loop ReplayStream.step (stream0 symbolId config log) events).1.finalize
      = _ := own
    _ = _ := by
      rw [loop_log symbolId config events log events, other]
      rfl

/-- Under any interleaving, in either driver, threading does not change the replay. -/
theorem threaded_replay (config : SpscReplayConfig) (steady : Bool) (symbolId : Nat)
    (events : List MarketDataEvent) {out : SpscReplayResult} (room : 1 ≤ config.queueCapacity)
    (returned : config.Returns steady symbolId events out) :
    ∃ kept, out.Replays config symbolId events kept := by
  cases returned with
  | refused zero => omega
  | joined nonzero run producer consumer =>
    rename_i s
    have inv := inv_run (inv_spawn config steady symbolId events) run
    obtain ⟨sent, hs⟩ := inv.sent
    have consumed := inv.consumed
    unfold SpscReplay.Consumed at consumed
    rw [consumer] at consumed
    obtain ⟨goesOn, replayed, complete⟩ := finished_loop hs inv.ring.fifo consumed
    have finalized : s.stream.finalize =
        { (ReplayEngine.new symbolId config.replay).replayEvents (sent ++ s.remaining) with
          eventLogChecksum := checksumEvents events } := by
      rw [← finalize_log, replayed]
    refine ⟨sent ++ s.remaining, hs.kept, hs.count, finalized, ?_, inv.depth, ?_⟩
    · intro block
      have none := hs.lossless (by simp [SpscReplayConfig.dropOnFull, block])
      have count := hs.count
      have all : sent ++ s.remaining = events := hs.kept.eq_of_length (by omega)
      refine ⟨none, ?_⟩
      rw [all] at replayed
      unfold ReplayEngine.replayEvents
      rw [ReplayStream.steps_eq_loop, replayed]
    · intro going
      rw [halted_iff (ReplayStream.running_start _ _ _), loop_log symbolId config.replay events,
        replayed] at going
      obtain ⟨none, consumed, seen, once, markers⟩ := complete (by simpa using going)
      refine ⟨?_, ?_, seen, once, markers⟩
      · rw [hs.produced, none, List.append_nil]
      · rw [consumed, none, List.append_nil]

section OneEvent

def oneSlot : SpscReplayConfig := { queueCapacity := 1 }

/-- One bid and the marker through one slot, the consumer a whole item behind. -/
theorem threaded_replay_one_bid : ∃ kept, SpscReplayResult.Replays oneSlot 1 [restingBid] kept
    { replay := ((stream0 1 {} [restingBid]).step restingBid).1.finalize
      stats :=
        { producedEvents := 1, consumedEvents := 1, queueCapacity := 1, maxQueueDepth := 1
          endOfStreamSeen := true, endOfStreamMarkersProduced := 1
          endOfStreamMarkersConsumed := 1 } } := by
  have sending : Relation.ReflTransGen (Step oneSlot.dropOnFull)
      (oneSlot.spawn false 1 [restingBid]) _ :=
    .single (.producer (.next rfl (List.cons_ne_nil _ _) rfl))
  have room := (sending.tail (.producer (.push rfl rfl (.loadTail rfl)))).tail
    (.producer (.push rfl rfl (.room rfl rfl (by decide))))
  have sent := (room.tail (.producer (.push rfl rfl (.write rfl)))).tail
    (.producer (.pushed rfl rfl (.publish rfl rfl)))
  have measured := (sent.tail (.producer (.measure rfl (.loadTail rfl)))).tail
    (.producer (.measured rfl (.loadHead rfl rfl)))
  have found := (measured.tail (.consumer (.pop rfl (.loadHead rfl) (by decide)))).tail
    (.consumer (.pop rfl (.some rfl (by decide)) (by decide)))
  have popped := (found.tail (.consumer (.pop rfl (.read rfl) (by decide)))).tail
    (.consumer (.popped rfl (.store rfl rfl)))
  have served := popped.tail (.consumer (.serve rfl rfl (by decide)))
  have ending := (served.tail (.producer (.exhausted rfl rfl))).tail
    (.producer (.pushEnd rfl (.loadTail rfl)))
  have marked := ((ending.tail (.producer (.pushEnd rfl (.room rfl rfl (by decide))))).tail
    (.producer (.pushEnd rfl (.write rfl)))).tail (.producer (.pushedEnd rfl (.publish rfl rfl)))
  have joined := (marked.tail (.producer (.measure rfl (.loadTail rfl)))).tail
    (.producer (.measured rfl (.loadHead rfl rfl)))
  have last := (joined.tail (.consumer (.pop rfl (.loadHead rfl) (by decide)))).tail
    (.consumer (.pop rfl (.some rfl (by decide)) (by decide)))
  have taken := (last.tail (.consumer (.pop rfl (.read rfl) (by decide)))).tail
    (.consumer (.popped rfl (.store rfl rfl)))
  have stopped := (taken.tail (.consumer (.finish rfl rfl))).tail (.consumer (.stop rfl))
  exact threaded_replay oneSlot false 1 [restingBid] (by decide)
    (.joined (by decide) stopped rfl rfl)

end OneEvent
end Asterion
