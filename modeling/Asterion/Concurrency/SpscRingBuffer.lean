import Asterion.Lib.Ring

/-! The single-producer single-consumer ring buffer, one load or store of the shared `head_`,
`tail_` and `slots_` at a time. Each thread carries the place in its operation that it has
reached, with the registers it has filled. A remainder by zero is undefined, so a thread that
comes to one has no step. -/
namespace Asterion

variable {T : Type}

structure SpscRingBuffer (T : Type) where
  slots : List T
  capacity : Nat
  head : Nat := 0
  tail : Nat := 0

namespace SpscRingBuffer

/-- One slot more than the capacity tells a full buffer from an empty one. The sum is a
`size_t`. -/
def new [Inhabited T] (capacity : Nat) : SpscRingBuffer T :=
  { slots := List.replicate ((capacity + 1) % 2 ^ 64) default, capacity }

/-- Without a slot there is no remainder, and the call does not get past it. -/
def increment (queue : SpscRingBuffer T) (index : Nat) : Option Nat :=
  if queue.slots.length = 0 then none else some ((index + 1) % 2 ^ 64 % queue.slots.length)

def sizeApprox (queue : SpscRingBuffer T) (tail head : Nat) : Option Nat :=
  if queue.slots.length = 0 then none
  else some ((tail + queue.slots.length + (2 ^ 64 - head)) % 2 ^ 64 % queue.slots.length)

end SpscRingBuffer

/-- Where the producer is in `try_push` or `size_approx`. -/
inductive ProducerAt (T : Type) where
  | idle
  | loadedTail (item : T) (tail : Nat)
  | writing (item : T) (tail : Nat)
  | publishing (item : T) (tail : Nat)
  | sizing (tail : Nat)
  deriving DecidableEq, Repr

/-- Where the consumer is in `try_pop` or `size_approx`. -/
inductive ConsumerAt where
  | idle
  | loadedHead (head : Nat)
  | reading (head : Nat)
  | storing (head : Nat)
  | sizing (tail : Nat)
  deriving DecidableEq, Repr

/-- The buffer, both threads and the variable the consumer pops into. The last two fields only
record the items of the operations that have succeeded. -/
structure RingState (T : Type) where
  queue : SpscRingBuffer T
  producer : ProducerAt T := .idle
  consumer : ConsumerAt := .idle
  out : T
  pushed : List T := []
  popped : List T := []

/-- A step of `try_push(item)`, with the answer when it returns. -/
inductive PushStep (item : T) : RingState T → Option Bool → RingState T → Prop
  | loadTail {s : RingState T} (at_ : s.producer = .idle) :
      PushStep item s none { s with producer := .loadedTail item s.queue.tail }
  | full {s : RingState T} {tail : Nat} (at_ : s.producer = .loadedTail item tail)
      (full : s.queue.increment tail = some s.queue.head) :
      PushStep item s (some false) { s with producer := .idle }
  | room {s : RingState T} {tail next : Nat} (at_ : s.producer = .loadedTail item tail)
      (next_ : s.queue.increment tail = some next) (room : next ≠ s.queue.head) :
      PushStep item s none { s with producer := .writing item tail }
  | write {s : RingState T} {tail : Nat} (at_ : s.producer = .writing item tail) :
      PushStep item s none { s with
        queue := { s.queue with slots := s.queue.slots.set tail item }
        producer := .publishing item tail }
  | publish {s : RingState T} {tail next : Nat} (at_ : s.producer = .publishing item tail)
      (next_ : s.queue.increment tail = some next) :
      PushStep item s (some true) { s with
        queue := { s.queue with tail := next }
        producer := .idle
        pushed := s.pushed ++ [item] }

/-- A step of `try_pop(out)`, with the answer when it returns. -/
inductive PopStep : RingState T → Option Bool → RingState T → Prop
  | loadHead {s : RingState T} (at_ : s.consumer = .idle) :
      PopStep s none { s with consumer := .loadedHead s.queue.head }
  | empty {s : RingState T} {head : Nat} (at_ : s.consumer = .loadedHead head)
      (empty : head = s.queue.tail) : PopStep s (some false) { s with consumer := .idle }
  | some {s : RingState T} {head : Nat} (at_ : s.consumer = .loadedHead head)
      (some : head ≠ s.queue.tail) : PopStep s none { s with consumer := .reading head }
  | read {s : RingState T} {head : Nat} (at_ : s.consumer = .reading head) :
      PopStep s none { s with
        out := s.queue.slots.getD head s.out
        consumer := .storing head }
  | store {s : RingState T} {head next : Nat} (at_ : s.consumer = .storing head)
      (next_ : s.queue.increment head = some next) :
      PopStep s (some true) { s with
        queue := { s.queue with head := next }
        consumer := .idle
        popped := s.popped ++ [s.out] }

/-- A step of `size_approx` in the producer's thread, with the size when it returns. -/
inductive ProducerSizeStep : RingState T → Option Nat → RingState T → Prop
  | loadTail {s : RingState T} (at_ : s.producer = .idle) :
      ProducerSizeStep s none { s with producer := .sizing s.queue.tail }
  | loadHead {s : RingState T} {tail size : Nat} (at_ : s.producer = .sizing tail)
      (size_ : s.queue.sizeApprox tail s.queue.head = some size) :
      ProducerSizeStep s (some size) { s with producer := .idle }

/-- A step of `size_approx` in the consumer's thread, with the size when it returns. -/
inductive ConsumerSizeStep : RingState T → Option Nat → RingState T → Prop
  | loadTail {s : RingState T} (at_ : s.consumer = .idle) :
      ConsumerSizeStep s none { s with consumer := .sizing s.queue.tail }
  | loadHead {s : RingState T} {tail size : Nat} (at_ : s.consumer = .sizing tail)
      (size_ : s.queue.sizeApprox tail s.queue.head = some size) :
      ConsumerSizeStep s (some size) { s with consumer := .idle }

/-- Any step of either thread, each calling its operations in any order. -/
inductive RingStep : RingState T → RingState T → Prop
  | push {s t : RingState T} (item : T) {answer : Option Bool} :
      PushStep item s answer t → RingStep s t
  | pop {s t : RingState T} {answer : Option Bool} : PopStep s answer t → RingStep s t
  | producerSize {s t : RingState T} {size : Option Nat} :
      ProducerSizeStep s size t → RingStep s t
  | consumerSize {s t : RingState T} {size : Option Nat} :
      ConsumerSizeStep s size t → RingStep s t

namespace RingState

def start [Inhabited T] (capacity : Nat) (out : T) : RingState T :=
  { queue := .new capacity, out }

/-- The items that have been pushed and not yet popped, oldest first. -/
def unread (s : RingState T) : List T := s.pushed.drop s.popped.length

end RingState
end Asterion
