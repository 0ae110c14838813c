import Asterion.Concurrency.SpscReplayProgress

/-! The threaded replay can always finish. What is left to do is a number, and in every state of
every run in which a thread is not done some thread has a step that lessens it. -/
namespace Asterion

section Calls
variable {T : Type} {s t : RingState T} {capacity : Nat} {item : T} {answer : Option Bool}

/-- The steps before the one that answers, in a call of the producer. -/
def ProducerAt.left : ProducerAt T → Nat
  | .idle => 3
  | .loadedTail _ _ => 2
  | .writing _ _ => 1
  | .publishing _ _ => 0
  | .sizing _ => 2

def ConsumerAt.left : ConsumerAt → Nat
  | .idle => 3
  | .loadedHead _ => 2
  | .reading _ => 1
  | .storing _ => 0
  | .sizing _ => 2

theorem PushStep.shrinks (step : PushStep item s none t) : t.producer.left < s.producer.left := by
  cases step with
  | loadTail at_ => rw [at_]; exact Nat.lt_succ_self 2
  | room at_ next_ room => rw [at_]; exact Nat.lt_succ_self 1
  | write at_ => rw [at_]; exact Nat.lt_succ_self 0

theorem ProducerSizeStep.shrinks (step : ProducerSizeStep s none t) :
    t.producer.left < s.producer.left := by
  cases step with
  | loadTail at_ => rw [at_]; exact Nat.lt_succ_self 2

theorem PopStep.shrinks (step : PopStep s none t) : t.consumer.left < s.consumer.left := by
  cases step with
  | loadHead at_ => rw [at_]; exact Nat.lt_succ_self 2
  | some at_ some => rw [at_]; exact Nat.lt_succ_self 1
  | read at_ => rw [at_]; exact Nat.lt_succ_self 0

theorem RingState.length_unread : s.unread.length = s.pushed.length - s.popped.length :=
  List.length_drop

theorem PushStep.unread (fifo : s.popped <+: s.pushed) (step : PushStep item s answer t) :
    t.unread.length = s.unread.length + if answer = some true then 1 else 0 := by
  have order := fifo.length_le
  have pushed := congrArg List.length step.pushed
  rw [RingState.length_unread, RingState.length_unread, step.consumed.1, pushed]
  split
  · rw [List.length_append, List.length_singleton]
    omega
  · rfl

theorem PopStep.unread (fifo : t.popped <+: t.pushed) (step : PopStep s answer t) :
    t.unread.length + (if answer = Option.some true then 1 else 0) = s.unread.length := by
  have order := fifo.length_le
  have popped := congrArg List.length step.popped
  rw [RingState.length_unread, RingState.length_unread, ← step.pushed]
  split
  · rename_i answered
    rw [if_pos answered, List.length_append, List.length_singleton] at popped
    omega
  · rename_i unanswered
    rw [if_neg unanswered] at popped
    rw [popped]
    rfl

theorem ProducerSizeStep.unread {size : Option Nat} (step : ProducerSizeStep s size t) :
    t.unread.length = s.unread.length := by
  rw [RingState.length_unread, RingState.length_unread, step.untouched.1, step.untouched.2.2]

theorem PushStep.full_unread (h : s.Inv capacity) (slots : 2 ≤ s.queue.slots.length)
    (step : PushStep item s (some false) t) : s.unread ≠ [] := by
  cases step with
  | full at_ full =>
    have own := h.producer
    rw [RingState.ProducerHolds, at_] at own
    have pos : 0 < s.queue.slots.length := by omega
    rw [own, h.increment_tail pos, Option.some.injEq, h.full_iff pos] at full
    intro none
    rw [none, List.length_nil] at full
    omega

theorem PopStep.empty_unread (h : s.Inv capacity) (step : PopStep s (Option.some false) t) :
    s.unread = [] := by
  cases step with
  | empty at_ empty =>
    have own := h.consumer
    rw [RingState.ConsumerHolds, at_] at own
    exact h.empty_iff.mp (own ▸ empty)

end Calls

namespace SpscReplay

section Effort

/-- What a phase of the producer is worth: more than all that can follow it before the next event
is taken from the log. A producer that waits for nobody is about to give up. -/
def producerEffort (active : Bool) (at_ : ProducerAt ReplayQueueItem) : ProducerPhase → Nat
  | .spawned => 121
  | .ready => 120
  | .checking => 111
  | .pushing _ => 106 + at_.left
  | .waiting => if active then 110 else 105
  | .ending => 106 + at_.left
  | .endWaiting => if active then 110 else 105
  | .measuring last => (if last then 0 else 111) + at_.left
  | .done => 0

def consumerEffort (at_ : ConsumerAt) : ConsumerPhase → Nat
  | .spawned => 7
  | .ready => 6
  | .popping => 2 + at_.left
  | .handling => 6
  | .halting => 2
  | .stopping => 1
  | .done => 0

/-- An event that is left is worth more than one in the buffer, and this one more than what the
consumer does with it. -/
def effort (s : SpscReplay) : Nat :=
  (if s.start then 0 else 1) + 100 * s.remaining.length + 20 * s.ring.unread.length +
    producerEffort s.consumerActive s.ring.producer s.producer +
    consumerEffort s.ring.consumer s.consumer

theorem producerEffort_inactive (active : Bool) (at_ : ProducerAt ReplayQueueItem)
    (phase : ProducerPhase) : producerEffort false at_ phase ≤ producerEffort active at_ phase := by
  cases phase with
  | waiting =>
    cases active with
    | true => exact Nat.le_of_lt (by decide : 105 < 110)
    | false => exact le_refl _
  | endWaiting =>
    cases active with
    | true => exact Nat.le_of_lt (by decide : 105 < 110)
    | false => exact le_refl _
  | _ => exact le_refl _

end Effort

/-- What the threads know of each other. -/
structure Live (s : SpscReplay) : Prop where
  unstarted : s.start = false →
    (s.producer = .spawned ∨ s.producer = .ready) ∧
    (s.consumer = .spawned ∨ s.consumer = .ready) ∧
    s.readyThreads = (if s.producer = .ready then 1 else 0) + if s.consumer = .ready then 1 else 0
  active : s.consumerActive = true ∨ s.consumer = .stopping ∨ s.consumer = .done
  stopped : s.consumer = .done → s.consumerActive = false
  marked : s.producer = .measuring true ∨ s.producer = .done →
    marker ∈ s.ring.pushed ∨ s.consumerActive = false

section Steps
variable {dropOnFull : Bool} {s t : SpscReplay}

theorem live_spawn (config : SpscReplayConfig) (steady : Bool) (symbolId : Nat)
    (events : List MarketDataEvent) : Live (config.spawn steady symbolId events) := by
  cases steady with
  | true =>
    refine ⟨fun _ => ⟨.inl rfl, .inl rfl, rfl⟩, .inl rfl, ?_, ?_⟩
    all_goals simp [SpscReplayConfig.spawn]
  | false =>
    refine ⟨?_, .inl rfl, ?_, ?_⟩
    all_goals simp [SpscReplayConfig.spawn]

theorem Live.produce (h : Live s) {phase : ProducerPhase} {remaining : List MarketDataEvent}
    {ring : RingState ReplayQueueItem} {stats : SpscReplayStats}
    (started : s.start = true)
    (marked : phase = .measuring true ∨ phase = .done →
      marker ∈ ring.pushed ∨ s.consumerActive = false) :
    Live { s with ring, remaining, producer := phase, stats } :=
  ⟨fun off => absurd started (by rw [off]; decide), h.active, h.stopped, marked⟩

theorem Live.started_producer (h : Live s)
    (moving : s.producer ≠ .spawned ∧ s.producer ≠ .ready) : s.start = true := by
  cases start : s.start with
  | true => rfl
  | false =>
    rcases (h.unstarted start).1 with at_ | at_
    · exact absurd at_ moving.1
    · exact absurd at_ moving.2

theorem Live.started_consumer (h : Live s)
    (moving : s.consumer ≠ .spawned ∧ s.consumer ≠ .ready) : s.start = true := by
  cases start : s.start with
  | true => rfl
  | false =>
    rcases (h.unstarted start).2.1 with at_ | at_
    · exact absurd at_ moving.1
    · exact absurd at_ moving.2

theorem ProducerStep.live (step : ProducerStep dropOnFull s t) (h : Live s) : Live t := by
  cases step with
  | report at_ =>
    refine ⟨fun off => ?_, h.active, h.stopped, by simp⟩
    obtain ⟨-, consumer, ready⟩ := h.unstarted off
    refine ⟨.inr rfl, consumer, ?_⟩
    rw [at_] at ready
    simp only [ready, reduceCtorEq, if_false, if_true]
    omega
  | spin at_ off => exact h
  | begin at_ on => exact h.produce on (by simp)
  | next at_ left active => exact h.produce (h.started_producer (by simp [at_])) (by simp)
  | quit at_ left halted =>
    exact h.produce (h.started_producer (by simp [at_])) (fun _ => .inr halted)
  | exhausted at_ left => exact h.produce (h.started_producer (by simp [at_])) (by simp)
  | push at_ left call => exact h.produce (h.started_producer (by simp [at_])) (by simp [at_])
  | pushed at_ left call => exact h.produce (h.started_producer (by simp [at_])) (by simp)
  | full at_ left lossless call => exact h.produce (h.started_producer (by simp [at_])) (by simp)
  | drop at_ left sheds call => exact h.produce (h.started_producer (by simp [at_])) (by simp)
  | fullAgain at_ left call => exact h.produce (h.started_producer (by simp [at_])) (by simp)
  | retry at_ active => exact h.produce (h.started_producer (by simp [at_])) (by simp)
  | abandon at_ halted =>
    exact h.produce (h.started_producer (by simp [at_])) (fun _ => .inr halted)
  | pushEnd at_ call => exact h.produce (h.started_producer (by simp [at_])) (by simp [at_])
  | pushedEnd at_ call =>
    refine h.produce (h.started_producer (by simp [at_])) (fun _ => .inl ?_)
    rw [call.pushed, if_pos rfl]
    exact List.mem_append_right _ List.mem_cons_self
  | fullEnd at_ call => exact h.produce (h.started_producer (by simp [at_])) (by simp)
  | retryEnd at_ active => exact h.produce (h.started_producer (by simp [at_])) (by simp)
  | abandonEnd at_ halted =>
    exact h.produce (h.started_producer (by simp [at_])) (fun _ => .inr halted)
  | measure at_ call =>
    refine h.produce (h.started_producer (by simp [at_])) ?_
    rw [call.untouched.2.2]
    exact h.marked
  | measured at_ call =>
    rename_i last size ring
    refine h.produce (h.started_producer (by simp [at_])) (fun done => ?_)
    rw [call.untouched.2.2]
    cases last with
    | true => exact h.marked (.inl at_)
    | false => simp at done

theorem ConsumerStep.live (step : ConsumerStep s t) (h : Live s) : Live t := by
  have started (moving : s.consumer ≠ .spawned ∧ s.consumer ≠ .ready) {P : Prop}
      (off : s.start = false) : P := by
    rw [h.started_consumer moving] at off
    cases off
  have going (running : s.consumer ≠ .stopping ∧ s.consumer ≠ .done) : s.consumerActive = true := by
    rcases h.active with active | at_ | at_
    · exact active
    · exact absurd at_ running.1
    · exact absurd at_ running.2
  cases step with
  | report at_ =>
    refine ⟨fun off => ?_, .inl (going (by simp [at_])), by simp, h.marked⟩
    obtain ⟨producer, -, ready⟩ := h.unstarted off
    refine ⟨producer, .inr rfl, ?_⟩
    rw [at_] at ready
    simp only [ready, reduceCtorEq, if_false, if_true]
  | spin at_ off => exact h
  | begin at_ on =>
    refine ⟨fun off => ?_, .inl (going (by simp [at_])), by simp, h.marked⟩
    exact absurd (on.symm.trans off) (by decide)
  | pop at_ call unanswered =>
    refine ⟨started (by simp [at_]), .inl (going (by simp [at_])), by simp [at_], ?_⟩
    dsimp only
    rw [call.pushed]
    exact h.marked
  | popped at_ call =>
    refine ⟨started (by simp [at_]), .inl (going (by simp [at_])), by simp, ?_⟩
    dsimp only
    rw [call.pushed]
    exact h.marked
  | finish at_ last =>
    exact ⟨started (by simp [at_]), .inl (going (by simp [at_])), by simp, h.marked⟩
  | serve at_ event on =>
    exact ⟨started (by simp [at_]), .inl (going (by simp [at_])), by simp, h.marked⟩
  | fail at_ event off =>
    exact ⟨started (by simp [at_]), .inl (going (by simp [at_])), by simp, h.marked⟩
  | halt at_ => exact ⟨started (by simp [at_]), .inr (.inl rfl), by simp, fun _ => .inr rfl⟩
  | stop at_ =>
    exact ⟨started (by simp [at_]), .inr (.inr rfl), fun _ => rfl, fun _ => .inr rfl⟩

theorem live_step (h : Live s) (step : Step dropOnFull s t) : Live t := by
  cases step with
  | producer step => exact step.live h
  | consumer step => exact step.live h
  | launch both => exact ⟨by simp, h.active, h.stopped, h.marked⟩

theorem live_run (h : Live s) (run : Relation.ReflTransGen (Step dropOnFull) s t) : Live t := by
  induction run with
  | refl => exact h
  | tail _ step ih => exact live_step ih step

end Steps

section Advance
variable {dropOnFull : Bool} {capacity : Nat} {s : SpscReplay}

/-- What is left of the producer's work, and of the consumer's but for its place. -/
def producerWork (s : SpscReplay) : Nat :=
  100 * s.remaining.length + 20 * s.ring.unread.length +
    producerEffort s.consumerActive s.ring.producer s.producer

def ProducerAdvances (dropOnFull : Bool) (s : SpscReplay) : Prop :=
  ∃ t, ProducerStep dropOnFull s t ∧ t.producerWork < s.producerWork

theorem push_advances (ring : s.ring.Inv capacity) (slots : 2 ≤ s.ring.queue.slots.length)
    (free : s.consumerActive = false ∨ s.ring.unread = []) {again : Bool}
    {event : MarketDataEvent} {events : List MarketDataEvent} (at_ : s.producer = .pushing again)
    (left : s.remaining = event :: events) (inside : RingState.PushAt (item event) s.ring.producer) :
    ProducerAdvances dropOnFull s := by
  obtain ⟨answer, t, call⟩ := inside.step (by omega)
  have unread := call.unread ring.fifo
  cases answer with
  | none =>
    refine ⟨_, .push at_ left call, ?_⟩
    have less := call.shrinks
    simp only [producerWork, at_, producerEffort, unread, reduceCtorEq, if_false]
    omega
  | some answer =>
    have place : t.producer = .idle := call.at.2
    cases answer with
    | true =>
      refine ⟨_, .pushed at_ left call, ?_⟩
      simp only [producerWork, at_, producerEffort, unread, left, place, ProducerAt.left,
        List.length_cons, Bool.false_eq_true, if_true, if_false]
      omega
    | false =>
      have halted : s.consumerActive = false :=
        free.resolve_right (call.full_unread ring slots)
      match again, dropOnFull, at_ with
      | true, _, at_ =>
        refine ⟨_, .fullAgain at_ left call, ?_⟩
        simp only [producerWork, at_, producerEffort, unread, halted, Option.some.injEq,
          Bool.false_eq_true, if_false]
        omega
      | false, false, at_ =>
        refine ⟨_, .full at_ left rfl call, ?_⟩
        simp only [producerWork, at_, producerEffort, unread, halted, Option.some.injEq,
          Bool.false_eq_true, if_false]
        omega
      | false, true, at_ =>
        refine ⟨_, .drop at_ left rfl call, ?_⟩
        simp only [producerWork, at_, producerEffort, unread, left, List.length_cons,
          Option.some.injEq, Bool.false_eq_true, if_false]
        omega

theorem ending_advances (ring : s.ring.Inv capacity) (slots : 2 ≤ s.ring.queue.slots.length)
    (free : s.consumerActive = false ∨ s.ring.unread = []) (at_ : s.producer = .ending)
    (inside : RingState.PushAt marker s.ring.producer) : ProducerAdvances dropOnFull s := by
  obtain ⟨answer, t, call⟩ := inside.step (by omega)
  have unread := call.unread ring.fifo
  cases answer with
  | none =>
    have less := call.shrinks
    refine ⟨_, .pushEnd at_ call, ?_⟩
    simp only [producerWork, at_, producerEffort, unread, reduceCtorEq, if_false]
    omega
  | some answer =>
    have place : t.producer = .idle := call.at.2
    cases answer with
    | true =>
      refine ⟨_, .pushedEnd at_ call, ?_⟩
      simp only [producerWork, at_, producerEffort, unread, place, ProducerAt.left, if_true]
      omega
    | false =>
      have halted : s.consumerActive = false := free.resolve_right (call.full_unread ring slots)
      refine ⟨_, .fullEnd at_ call, ?_⟩
      simp only [producerWork, at_, producerEffort, unread, halted, Option.some.injEq,
        Bool.false_eq_true, if_false]
      omega

theorem measuring_advances (slots : s.ring.queue.slots.length ≠ 0) {last : Bool}
    (at_ : s.producer = .measuring last) (inside : RingState.ProducerSizeAt s.ring.producer) :
    ProducerAdvances dropOnFull s := by
  obtain ⟨size, t, call⟩ := inside.step slots
  have unread := call.unread
  cases size with
  | none =>
    have less := call.shrinks
    refine ⟨_, .measure at_ call, ?_⟩
    simp only [producerWork, at_, producerEffort, unread]
    omega
  | some size =>
    have left : 0 < s.ring.producer.left := by
      cases call with
      | loadHead inside size_ => rw [inside]; exact Nat.succ_pos 1
    refine ⟨_, .measured at_ call, ?_⟩
    cases last with
    | true =>
      simp only [producerWork, at_, producerEffort, unread, if_true]
      omega
    | false =>
      simp only [producerWork, at_, producerEffort, unread, Bool.false_eq_true, if_false]
      omega

/-- A producer that is not kept from pushing by an active consumer gets on. -/
theorem Placed.producer_advances (placed : Placed s) (ring : s.ring.Inv capacity)
    (slots : 2 ≤ s.ring.queue.slots.length) (started : s.start = true)
    (free : s.consumerActive = false ∨ s.ring.unread = []) (working : s.producer ≠ .done) :
    ProducerAdvances dropOnFull s := by
  have place := placed.producer
  cases at_ : s.producer with
  | spawned =>
    refine ⟨_, .report at_, ?_⟩
    simp only [producerWork, at_, producerEffort]
    omega
  | ready =>
    refine ⟨_, .begin at_ started, ?_⟩
    simp only [producerWork, at_, producerEffort]
    omega
  | checking =>
    rw [at_] at place
    have idle : s.ring.producer = .idle := place
    by_cases left : s.remaining = []
    · refine ⟨_, .exhausted at_ left, ?_⟩
      simp only [producerWork, at_, producerEffort, idle, ProducerAt.left]
      omega
    · cases active : s.consumerActive with
      | false =>
        refine ⟨_, .quit at_ left active, ?_⟩
        simp only [producerWork, at_, producerEffort]
        omega
      | true =>
        refine ⟨_, .next at_ left active, ?_⟩
        simp only [producerWork, at_, producerEffort, idle, ProducerAt.left]
        omega
  | pushing again =>
    rw [at_] at place
    obtain ⟨event, events, left, inside⟩ := place
    exact push_advances ring slots free at_ left inside
  | waiting =>
    rw [at_] at place
    have idle : s.ring.producer = .idle := place.2
    cases active : s.consumerActive with
    | false =>
      refine ⟨_, .abandon at_ active, ?_⟩
      simp only [producerWork, at_, producerEffort, active, Bool.false_eq_true, if_false]
      omega
    | true =>
      refine ⟨_, .retry at_ active, ?_⟩
      simp only [producerWork, at_, producerEffort, active, idle, ProducerAt.left, if_true]
      omega
  | ending =>
    rw [at_] at place
    exact ending_advances ring slots free at_ place
  | endWaiting =>
    rw [at_] at place
    have idle : s.ring.producer = .idle := place
    cases active : s.consumerActive with
    | false =>
      refine ⟨_, .abandonEnd at_ active, ?_⟩
      simp only [producerWork, at_, producerEffort, active, Bool.false_eq_true, if_false]
      omega
    | true =>
      refine ⟨_, .retryEnd at_ active, ?_⟩
      simp only [producerWork, at_, producerEffort, active, idle, ProducerAt.left, if_true]
      omega
  | measuring last =>
    rw [at_] at place
    exact measuring_advances (by omega) at_ place
  | done => exact absurd at_ working

theorem effort_eq (s : SpscReplay) : s.effort =
    (if s.start then 0 else 1) + s.producerWork + consumerEffort s.ring.consumer s.consumer := by
  unfold effort producerWork
  omega

theorem ProducerStep.start_eq {t : SpscReplay} (step : ProducerStep dropOnFull s t) :
    t.start = s.start := by
  cases step <;> rfl

theorem ProducerAdvances.step (placed : Placed s) (advances : ProducerAdvances dropOnFull s) :
    ∃ t, Step dropOnFull s t ∧ t.effort < s.effort := by
  obtain ⟨t, step, less⟩ := advances
  obtain ⟨-, consumer, at_⟩ := step.placed placed.producer
  refine ⟨t, .producer step, ?_⟩
  rw [effort_eq, effort_eq, step.start_eq, consumer, at_]
  omega

theorem Placed.consumer_advances (placed : Placed s) (ring : s.ring.Inv capacity)
    (slots : s.ring.queue.slots.length ≠ 0) (started : s.start = true)
    (waits : s.consumer = .popping → s.ring.unread ≠ []) (working : s.consumer ≠ .done) :
    ∃ t, Step dropOnFull s t ∧ t.effort < s.effort := by
  have place := placed.consumer
  cases at_ : s.consumer with
  | spawned =>
    refine ⟨_, .consumer (.report at_), ?_⟩
    simp only [effort, at_, consumerEffort]
    omega
  | ready =>
    rw [at_] at place
    have idle : s.ring.consumer = .idle := place
    refine ⟨_, .consumer (.begin at_ started), ?_⟩
    simp only [effort, at_, consumerEffort, idle, ConsumerAt.left]
    omega
  | popping =>
    rw [at_] at place
    obtain ⟨answer, t, call⟩ := RingState.PopAt.step place slots
    have after : t.Inv capacity := RingState.inv_pop ring call
    have unread := call.unread after.fifo
    have same := call.at.1
    match answer, call with
    | none, call =>
      have less := call.shrinks
      refine ⟨_, .consumer (.pop at_ call nofun), ?_⟩
      simp only [effort, at_, consumerEffort, same, ← unread]
      omega
    | some false, call => exact absurd (call.empty_unread ring) (waits at_)
    | some true, call =>
      refine ⟨_, .consumer (.popped at_ call), ?_⟩
      simp only [effort, at_, consumerEffort, same, ← unread, if_true]
      omega
  | handling =>
    rw [at_] at place
    have idle : s.ring.consumer = .idle := place
    cases last : s.ring.out.endOfStream with
    | true =>
      refine ⟨_, .consumer (.finish at_ last), ?_⟩
      simp only [effort, at_, consumerEffort]
      omega
    | false =>
      cases on : (s.stream.step s.ring.out.event).2 with
      | true =>
        refine ⟨_, .consumer (.serve at_ last on), ?_⟩
        simp only [effort, at_, consumerEffort, idle, ConsumerAt.left]
        omega
      | false =>
        refine ⟨_, .consumer (.fail at_ last on), ?_⟩
        simp only [effort, at_, consumerEffort]
        omega
  | halting =>
    have given := producerEffort_inactive s.consumerActive s.ring.producer s.producer
    refine ⟨_, .consumer (.halt at_), ?_⟩
    simp only [effort, at_, consumerEffort]
    omega
  | stopping =>
    have given := producerEffort_inactive s.consumerActive s.ring.producer s.producer
    refine ⟨_, .consumer (.stop at_), ?_⟩
    simp only [effort, at_, consumerEffort]
    omega
  | done => exact absurd at_ working

/-- A consumer that waits at an empty buffer has not been given the marker. -/
theorem working_of_waiting {events : List MarketDataEvent} {start : ReplayStream}
    (inv : Inv capacity dropOnFull events start s) (live : Live s) (at_ : s.consumer = .popping)
    (none : s.ring.unread = []) : s.producer ≠ .done := by
  intro done
  have consumed := inv.consumed
  unfold Consumed at consumed
  rw [at_] at consumed
  obtain ⟨served, -, popped⟩ := consumed
  rcases live.marked (.inr done) with given | halted
  · rw [RingState.pushed_eq inv.ring.fifo, none, List.append_nil, popped] at given
    obtain ⟨event, -, same⟩ := List.mem_map.mp given
    exact absurd (congrArg ReplayQueueItem.endOfStream same) Bool.false_ne_true
  · rcases live.active with active | stopping | stopped
    · rw [halted] at active
      cases active
    · rw [at_] at stopping
      cases stopping
    · rw [at_] at stopped
      cases stopped

theorem unstarted_advances (live : Live s) (off : s.start = false) :
    ∃ t, Step dropOnFull s t ∧ t.effort < s.effort := by
  obtain ⟨producer, consumer, ready⟩ := live.unstarted off
  rcases producer with at_ | producer
  · refine ⟨_, .producer (.report at_), ?_⟩
    simp only [effort, at_, producerEffort]
    omega
  rcases consumer with at_ | consumer
  · refine ⟨_, .consumer (.report at_), ?_⟩
    simp only [effort, at_, consumerEffort]
    omega
  rw [if_pos producer, if_pos consumer] at ready
  refine ⟨_, .launch (le_of_eq ready.symm), ?_⟩
  simp only [effort, off, Bool.false_eq_true, if_false, if_true]
  omega

/-- A step that lessens what is left to do, until both threads are done. -/
theorem advances {events : List MarketDataEvent} {start : ReplayStream}
    (inv : Inv capacity dropOnFull events start s) (placed : Placed s) (live : Live s)
    (slots : 2 ≤ s.ring.queue.slots.length) (open_ : ¬ (s.producer = .done ∧ s.consumer = .done)) :
    ∃ t, Step dropOnFull s t ∧ t.effort < s.effort := by
  cases on : s.start with
  | false => exact unstarted_advances live on
  | true =>
    by_cases stopped : s.consumer = .done
    · have working : s.producer ≠ .done := fun done => open_ ⟨done, stopped⟩
      exact (placed.producer_advances inv.ring slots on (.inl (live.stopped stopped)) working).step
        placed
    by_cases waits : s.consumer = .popping ∧ s.ring.unread = []
    · have working := working_of_waiting inv live waits.1 waits.2
      exact (placed.producer_advances inv.ring slots on (.inr waits.2) working).step placed
    · exact placed.consumer_advances inv.ring (by omega) on
        (fun at_ none => waits ⟨at_, none⟩) stopped

end Advance

/-- From a state in which the threads keep their order both can be brought to their end. -/
theorem finishes {capacity : Nat} {dropOnFull : Bool} {events : List MarketDataEvent}
    {start : ReplayStream} {s : SpscReplay} (inv : Inv capacity dropOnFull events start s)
    (placed : Placed s) (live : Live s) (room : 1 ≤ capacity) (word : capacity + 1 < 2 ^ 64) :
    ∃ t, Relation.ReflTransGen (Step dropOnFull) s t ∧ t.producer = .done ∧ t.consumer = .done := by
  induction effort : s.effort using Nat.strong_induction_on generalizing s with
  | _ n ih =>
    by_cases closed : s.producer = .done ∧ s.consumer = .done
    · exact ⟨s, .refl, closed⟩
    have slots : 2 ≤ s.ring.queue.slots.length := by
      rw [inv.ring.size, Nat.mod_eq_of_lt word]
      omega
    obtain ⟨t, step, less⟩ := advances inv placed live slots closed
    obtain ⟨u, run, ends⟩ := ih t.effort (effort ▸ less) (inv_step inv step)
      (placed_step placed step) (live_step live step) rfl
    exact ⟨u, .head step run, ends⟩

/-- In every state of every run of either driver a thread that is not done has a step to take, and
the run can be brought to its end. -/
theorem can_always_finish (config : SpscReplayConfig) (steady : Bool) (symbolId : Nat)
    (events : List MarketDataEvent) {s : SpscReplay} (room : 1 ≤ config.queueCapacity)
    (word : config.queueCapacity + 1 < 2 ^ 64)
    (run : Relation.ReflTransGen (Step config.dropOnFull)
      (config.spawn steady symbolId events) s) :
    (s.producer ≠ .done → ∃ t, ProducerStep config.dropOnFull s t) ∧
      (s.consumer ≠ .done → ∃ t, ConsumerStep s t) ∧
      ∃ t, Relation.ReflTransGen (Step config.dropOnFull) s t ∧
        t.producer = .done ∧ t.consumer = .done := by
  have inv := inv_run (inv_spawn config steady symbolId events) run
  have placed := placed_run (placed_spawn config steady symbolId events) run
  have live := live_run (live_spawn config steady symbolId events) run
  have slots : s.ring.queue.slots.length ≠ 0 := by
    rw [inv.ring.size, Nat.mod_eq_of_lt word]
    omega
  exact ⟨placed.producerStep slots, placed.consumerStep slots, finishes inv placed live room word⟩

/-- Two bids through one slot: the producer can come to wait for the consumer. -/
theorem can_always_finish_two_bids :
    ∃ t, Relation.ReflTransGen (Step oneSlot.dropOnFull)
      (oneSlot.spawn true 1 [restingBid, { restingBid with orderId := 2, sequenceNumber := 2 }]) t ∧
        t.producer = .done ∧ t.consumer = .done :=
  (can_always_finish oneSlot true 1 _ (le_refl 1) (by decide) .refl).2.2

end SpscReplay
end Asterion
