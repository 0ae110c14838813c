import Asterion.Concurrency.SpscReplayParity

/-! No thread of the replay is ever stuck: what it has reached in a call of the ring buffer fits
where it is, so until it is done there is a step for it to take. -/
namespace Asterion

open RingState

section Calls
variable {T : Type} {s t : RingState T}

theorem PushStep.at {item : T} {answer : Option Bool} (step : PushStep item s answer t) :
    t.consumer = s.consumer ∧
      if answer = none then PushAt item t.producer else t.producer = .idle := by
  cases step with
  | loadTail at_ => exact ⟨rfl, Or.inr ⟨_, Or.inl rfl⟩⟩
  | full at_ full => exact ⟨rfl, rfl⟩
  | room at_ next_ room => exact ⟨rfl, Or.inr ⟨_, Or.inr (Or.inl rfl)⟩⟩
  | write at_ => exact ⟨rfl, Or.inr ⟨_, Or.inr (Or.inr rfl)⟩⟩
  | publish at_ next_ => exact ⟨rfl, rfl⟩

theorem ProducerSizeStep.at {size : Option Nat} (step : ProducerSizeStep s size t) :
    t.consumer = s.consumer ∧ if size = none then ProducerSizeAt t.producer else t.producer = .idle := by
  cases step with
  | loadTail at_ => exact ⟨rfl, Or.inr ⟨_, rfl⟩⟩
  | loadHead at_ size_ => exact ⟨rfl, rfl⟩

theorem PopStep.at {answer : Option Bool} (step : PopStep s answer t) :
    t.producer = s.producer ∧
      if answer = Option.none then PopAt t.consumer else t.consumer = .idle := by
  cases step with
  | loadHead at_ => exact ⟨rfl, Or.inr ⟨_, Or.inl rfl⟩⟩
  | empty at_ empty => exact ⟨rfl, rfl⟩
  | some at_ some => exact ⟨rfl, Or.inr ⟨_, Or.inr (Or.inl rfl)⟩⟩
  | read at_ => exact ⟨rfl, Or.inr ⟨_, Or.inr (Or.inr rfl)⟩⟩
  | store at_ next_ => exact ⟨rfl, rfl⟩

end Calls

namespace SpscReplay

/-- Where the producer is in a call, by where it is in its thread. -/
def ProducerPlaced (phase : ProducerPhase) (remaining : List MarketDataEvent)
    (at_ : ProducerAt ReplayQueueItem) : Prop :=
  match phase with
  | .pushing _ => ∃ event events, remaining = event :: events ∧ PushAt (item event) at_
  | .waiting => remaining ≠ [] ∧ at_ = .idle
  | .ending => PushAt marker at_
  | .measuring _ => ProducerSizeAt at_
  | _ => at_ = .idle

def ConsumerPlaced (phase : ConsumerPhase) (at_ : ConsumerAt) : Prop :=
  match phase with
  | .popping => PopAt at_
  | _ => at_ = .idle

structure Placed (s : SpscReplay) : Prop where
  producer : ProducerPlaced s.producer s.remaining s.ring.producer
  consumer : ConsumerPlaced s.consumer s.ring.consumer

section Steps
variable {dropOnFull : Bool} {s t : SpscReplay}

theorem ProducerStep.placed (step : ProducerStep dropOnFull s t)
    (h : ProducerPlaced s.producer s.remaining s.ring.producer) :
    ProducerPlaced t.producer t.remaining t.ring.producer ∧
      t.consumer = s.consumer ∧ t.ring.consumer = s.ring.consumer := by
  cases step with
  | report at_ => rw [at_] at h; exact ⟨h, rfl, rfl⟩
  | spin at_ off => exact ⟨h, rfl, rfl⟩
  | begin at_ on => rw [at_] at h; exact ⟨h, rfl, rfl⟩
  | next at_ left active =>
    rw [at_] at h
    obtain ⟨event, events, first⟩ := List.exists_cons_of_ne_nil left
    exact ⟨⟨event, events, first, Or.inl h⟩, rfl, rfl⟩
  | quit at_ left halted => rw [at_] at h; exact ⟨h, rfl, rfl⟩
  | exhausted at_ left => rw [at_] at h; exact ⟨Or.inl h, rfl, rfl⟩
  | push at_ left call =>
    show ProducerPlaced s.producer _ _ ∧ _
    rw [at_]
    exact ⟨⟨_, _, left, call.at.2⟩, rfl, call.at.1⟩
  | pushed at_ left call => exact ⟨Or.inl call.at.2, rfl, call.at.1⟩
  | full at_ left lossless call =>
    exact ⟨⟨left ▸ List.cons_ne_nil _ _, call.at.2⟩, rfl, call.at.1⟩
  | drop at_ left sheds call => exact ⟨call.at.2, rfl, call.at.1⟩
  | fullAgain at_ left call => exact ⟨⟨left ▸ List.cons_ne_nil _ _, call.at.2⟩, rfl, call.at.1⟩
  | retry at_ active =>
    rw [at_] at h
    obtain ⟨event, events, first⟩ := List.exists_cons_of_ne_nil h.1
    exact ⟨⟨event, events, first, Or.inl h.2⟩, rfl, rfl⟩
  | abandon at_ halted => rw [at_] at h; exact ⟨h.2, rfl, rfl⟩
  | pushEnd at_ call =>
    show ProducerPlaced s.producer _ _ ∧ _
    rw [at_]
    exact ⟨call.at.2, rfl, call.at.1⟩
  | pushedEnd at_ call => exact ⟨Or.inl call.at.2, rfl, call.at.1⟩
  | fullEnd at_ call => exact ⟨call.at.2, rfl, call.at.1⟩
  | retryEnd at_ active => rw [at_] at h; exact ⟨Or.inl h, rfl, rfl⟩
  | abandonEnd at_ halted => rw [at_] at h; exact ⟨h, rfl, rfl⟩
  | measure at_ call =>
    show ProducerPlaced s.producer _ _ ∧ _
    rw [at_]
    exact ⟨call.at.2, rfl, call.at.1⟩
  | measured at_ call =>
    rename_i last size ring
    refine ⟨?_, rfl, call.at.1⟩
    cases last
    · exact call.at.2
    · exact call.at.2

theorem ConsumerStep.placed (step : ConsumerStep s t)
    (h : ConsumerPlaced s.consumer s.ring.consumer) :
    ConsumerPlaced t.consumer t.ring.consumer ∧
      t.producer = s.producer ∧ t.remaining = s.remaining ∧
        t.ring.producer = s.ring.producer := by
  cases step with
  | report at_ => rw [at_] at h; exact ⟨h, rfl, rfl, rfl⟩
  | spin at_ off => exact ⟨h, rfl, rfl, rfl⟩
  | begin at_ on => rw [at_] at h; exact ⟨Or.inl h, rfl, rfl, rfl⟩
  | pop at_ call unanswered =>
    rename_i answer ring
    refine ⟨?_, rfl, rfl, call.at.1⟩
    show ConsumerPlaced s.consumer _
    rw [at_]
    have place := call.at.2
    split at place
    · exact place
    · exact Or.inl place
  | popped at_ call => exact ⟨call.at.2, rfl, rfl, call.at.1⟩
  | finish at_ last => rw [at_] at h; exact ⟨h, rfl, rfl, rfl⟩
  | serve at_ event on => rw [at_] at h; exact ⟨Or.inl h, rfl, rfl, rfl⟩
  | fail at_ event off => rw [at_] at h; exact ⟨h, rfl, rfl, rfl⟩
  | halt at_ => rw [at_] at h; exact ⟨h, rfl, rfl, rfl⟩
  | stop at_ => rw [at_] at h; exact ⟨h, rfl, rfl, rfl⟩

theorem placed_step (h : Placed s) (step : Step dropOnFull s t) : Placed t := by
  cases step with
  | producer step =>
    obtain ⟨producer, phase, at_⟩ := step.placed h.producer
    exact ⟨producer, phase ▸ at_ ▸ h.consumer⟩
  | consumer step =>
    obtain ⟨consumer, phase, remaining, at_⟩ := step.placed h.consumer
    exact ⟨phase ▸ remaining ▸ at_ ▸ h.producer, consumer⟩
  | launch both => exact ⟨h.producer, h.consumer⟩

theorem placed_spawn (config : SpscReplayConfig) (steady : Bool) (symbolId : Nat)
    (events : List MarketDataEvent) : Placed (config.spawn steady symbolId events) := by
  cases steady
  · exact ⟨rfl, Or.inl rfl⟩
  · exact ⟨rfl, rfl⟩

theorem placed_run (h : Placed s) (run : Relation.ReflTransGen (Step dropOnFull) s t) :
    Placed t := by
  induction run with
  | refl => exact h
  | tail _ step ih => exact placed_step ih step

theorem Placed.producerStep (h : Placed s) (slots : s.ring.queue.slots.length ≠ 0)
    (working : s.producer ≠ .done) : ∃ t, ProducerStep dropOnFull s t := by
  have place := h.producer
  cases at_ : s.producer with
  | spawned => exact ⟨_, .report at_⟩
  | ready =>
    cases start : s.start with
    | false => exact ⟨_, .spin at_ start⟩
    | true => exact ⟨_, .begin at_ start⟩
  | checking =>
    by_cases left : s.remaining = []
    · exact ⟨_, .exhausted at_ left⟩
    · cases active : s.consumerActive with
      | false => exact ⟨_, .quit at_ left active⟩
      | true => exact ⟨_, .next at_ left active⟩
  | pushing again =>
    rw [at_] at place
    obtain ⟨event, events, left, inside⟩ := place
    obtain ⟨answer, ring, call⟩ := inside.step slots
    match answer, again, dropOnFull, call with
    | none, _, _, call => exact ⟨_, .push at_ left call⟩
    | some true, _, _, call => exact ⟨_, .pushed at_ left call⟩
    | some false, true, _, call => exact ⟨_, .fullAgain at_ left call⟩
    | some false, false, false, call => exact ⟨_, .full at_ left rfl call⟩
    | some false, false, true, call => exact ⟨_, .drop at_ left rfl call⟩
  | waiting =>
    cases active : s.consumerActive with
    | false => exact ⟨_, .abandon at_ active⟩
    | true => exact ⟨_, .retry at_ active⟩
  | ending =>
    rw [at_] at place
    obtain ⟨answer, ring, call⟩ := PushAt.step place slots
    match answer, call with
    | none, call => exact ⟨_, .pushEnd at_ call⟩
    | some true, call => exact ⟨_, .pushedEnd at_ call⟩
    | some false, call => exact ⟨_, .fullEnd at_ call⟩
  | endWaiting =>
    cases active : s.consumerActive with
    | false => exact ⟨_, .abandonEnd at_ active⟩
    | true => exact ⟨_, .retryEnd at_ active⟩
  | measuring last =>
    rw [at_] at place
    obtain ⟨size, ring, call⟩ := ProducerSizeAt.step place slots
    match size, call with
    | none, call => exact ⟨_, .measure at_ call⟩
    | some size, call => exact ⟨_, .measured at_ call⟩
  | done => exact absurd at_ working

theorem Placed.consumerStep (h : Placed s) (slots : s.ring.queue.slots.length ≠ 0)
    (working : s.consumer ≠ .done) : ∃ t, ConsumerStep s t := by
  have place := h.consumer
  cases at_ : s.consumer with
  | spawned => exact ⟨_, .report at_⟩
  | ready =>
    cases start : s.start with
    | false => exact ⟨_, .spin at_ start⟩
    | true => exact ⟨_, .begin at_ start⟩
  | popping =>
    rw [at_] at place
    obtain ⟨answer, ring, call⟩ := PopAt.step place slots
    by_cases popped : answer = some true
    · subst popped
      exact ⟨_, .popped at_ call⟩
    · exact ⟨_, .pop at_ call popped⟩
  | handling =>
    cases last : s.ring.out.endOfStream with
    | true => exact ⟨_, .finish at_ last⟩
    | false =>
      cases on : (s.stream.step s.ring.out.event).2 with
      | true => exact ⟨_, .serve at_ last on⟩
      | false => exact ⟨_, .fail at_ last on⟩
  | halting => exact ⟨_, .halt at_⟩
  | stopping => exact ⟨_, .stop at_⟩
  | done => exact absurd at_ working

end Steps

end SpscReplay
end Asterion
