import Asterion.Concurrency.SpscRingBuffer
import Asterion.MarketData.Replay

/-! The threaded replay: a producer that publishes the events of a log and then one marker
through the ring buffer, and a consumer that replays what it pops. A step is one access to memory
both threads use; a counter that only one of them touches before the join moves with the access
in front of it. -/
namespace Asterion

structure ReplayQueueItem where
  event : MarketDataEvent := {}
  endOfStream : Bool := false
  deriving DecidableEq, Repr

instance : Inhabited ReplayQueueItem := ⟨{}⟩

inductive SpscBackpressurePolicy where
  | block | dropNewestOnFull
  deriving DecidableEq, Repr

structure SpscReplayConfig where
  queueCapacity : Nat := 1024
  backpressure : SpscBackpressurePolicy := .block
  replay : ReplayConfig := {}

/-- The statistics that do not depend on the clock. -/
structure SpscReplayStats where
  producedEvents : Nat := 0
  consumedEvents : Nat := 0
  queueCapacity : Nat := 0
  maxQueueDepth : Nat := 0
  backpressureCount : Nat := 0
  droppedEvents : Nat := 0
  endOfStreamSeen : Bool := false
  endOfStreamMarkersProduced : Nat := 0
  endOfStreamMarkersConsumed : Nat := 0
  dropPolicyEnabled : Bool := false
  deriving DecidableEq, Repr

structure SpscReplayResult where
  replay : ReplayResult
  stats : SpscReplayStats

/-- Where the producer is. During a call of the ring buffer it stays at the call. -/
inductive ProducerPhase where
  | spawned | ready | checking | pushing (again : Bool) | waiting
  | ending | endWaiting | measuring (last : Bool) | done
  deriving DecidableEq, Repr

inductive ConsumerPhase where
  | spawned | ready | popping | handling | halting | stopping | done
  deriving DecidableEq, Repr

/-- Both threads and what they share; `remaining` are the events the producer has left. -/
structure SpscReplay where
  ring : RingState ReplayQueueItem
  start : Bool
  readyThreads : Nat := 0
  consumerActive : Bool := true
  remaining : List MarketDataEvent
  producer : ProducerPhase
  consumer : ConsumerPhase
  stream : ReplayStream
  stats : SpscReplayStats

namespace SpscReplay

def item (event : MarketDataEvent) : ReplayQueueItem := { event }

def marker : ReplayQueueItem := { endOfStream := true }

/-- A step of the producer. It leaves its loops where it sees that the consumer has stopped. -/
inductive ProducerStep (dropOnFull : Bool) : SpscReplay → SpscReplay → Prop
  | report {s : SpscReplay} (at_ : s.producer = .spawned) :
      ProducerStep dropOnFull s { s with
        readyThreads := s.readyThreads + 1, producer := .ready }
  | spin {s : SpscReplay} (at_ : s.producer = .ready) (off : s.start = false) :
      ProducerStep dropOnFull s s
  | begin {s : SpscReplay} (at_ : s.producer = .ready) (on : s.start = true) :
      ProducerStep dropOnFull s { s with producer := .checking }
  | next {s : SpscReplay} (at_ : s.producer = .checking) (left : s.remaining ≠ [])
      (active : s.consumerActive = true) :
      ProducerStep dropOnFull s { s with producer := .pushing false }
  | quit {s : SpscReplay} (at_ : s.producer = .checking) (left : s.remaining ≠ [])
      (halted : s.consumerActive = false) :
      ProducerStep dropOnFull s { s with producer := .done }
  | exhausted {s : SpscReplay} (at_ : s.producer = .checking) (left : s.remaining = []) :
      ProducerStep dropOnFull s { s with producer := .ending }
  | push {s : SpscReplay} {again : Bool} {event : MarketDataEvent} {events : List MarketDataEvent}
      {ring : RingState ReplayQueueItem} (at_ : s.producer = .pushing again)
      (left : s.remaining = event :: events) (call : PushStep (item event) s.ring none ring) :
      ProducerStep dropOnFull s { s with ring }
  | pushed {s : SpscReplay} {again : Bool} {event : MarketDataEvent}
      {events : List MarketDataEvent} {ring : RingState ReplayQueueItem}
      (at_ : s.producer = .pushing again) (left : s.remaining = event :: events)
      (call : PushStep (item event) s.ring (some true) ring) :
      ProducerStep dropOnFull s { s with
        ring
        remaining := events
        producer := .measuring false
        stats := { s.stats with producedEvents := s.stats.producedEvents + 1 } }
  | full {s : SpscReplay} {event : MarketDataEvent} {events : List MarketDataEvent}
      {ring : RingState ReplayQueueItem} (at_ : s.producer = .pushing false)
      (left : s.remaining = event :: events) (lossless : dropOnFull = false)
      (call : PushStep (item event) s.ring (some false) ring) :
      ProducerStep dropOnFull s { s with
        ring
        producer := .waiting
        stats := { s.stats with backpressureCount := s.stats.backpressureCount + 1 } }
  | drop {s : SpscReplay} {event : MarketDataEvent} {events : List MarketDataEvent}
      {ring : RingState ReplayQueueItem} (at_ : s.producer = .pushing false)
      (left : s.remaining = event :: events) (sheds : dropOnFull = true)
      (call : PushStep (item event) s.ring (some false) ring) :
      ProducerStep dropOnFull s { s with
        ring
        remaining := events
        producer := .checking
        stats := { s.stats with
          backpressureCount := s.stats.backpressureCount + 1
          droppedEvents := s.stats.droppedEvents + 1 } }
  | fullAgain {s : SpscReplay} {event : MarketDataEvent} {events : List MarketDataEvent}
      {ring : RingState ReplayQueueItem} (at_ : s.producer = .pushing true)
      (left : s.remaining = event :: events)
      (call : PushStep (item event) s.ring (some false) ring) :
      ProducerStep dropOnFull s { s with ring, producer := .waiting }
  | retry {s : SpscReplay} (at_ : s.producer = .waiting) (active : s.consumerActive = true) :
      ProducerStep dropOnFull s { s with producer := .pushing true }
  | abandon {s : SpscReplay} (at_ : s.producer = .waiting) (halted : s.consumerActive = false) :
      ProducerStep dropOnFull s { s with producer := .done }
  | pushEnd {s : SpscReplay} {ring : RingState ReplayQueueItem} (at_ : s.producer = .ending)
      (call : PushStep marker s.ring none ring) : ProducerStep dropOnFull s { s with ring }
  | pushedEnd {s : SpscReplay} {ring : RingState ReplayQueueItem} (at_ : s.producer = .ending)
      (call : PushStep marker s.ring (some true) ring) :
      ProducerStep dropOnFull s { s with
        ring
        producer := .measuring true
        stats := { s.stats with endOfStreamMarkersProduced := 1 } }
  | fullEnd {s : SpscReplay} {ring : RingState ReplayQueueItem} (at_ : s.producer = .ending)
      (call : PushStep marker s.ring (some false) ring) :
      ProducerStep dropOnFull s { s with ring, producer := .endWaiting }
  | retryEnd {s : SpscReplay} (at_ : s.producer = .endWaiting)
      (active : s.consumerActive = true) :
      ProducerStep dropOnFull s { s with producer := .ending }
  | abandonEnd {s : SpscReplay} (at_ : s.producer = .endWaiting)
      (halted : s.consumerActive = false) :
      ProducerStep dropOnFull s { s with producer := .done }
  | measure {s : SpscReplay} {last : Bool} {ring : RingState ReplayQueueItem}
      (at_ : s.producer = .measuring last) (call : ProducerSizeStep s.ring none ring) :
      ProducerStep dropOnFull s { s with ring }
  | measured {s : SpscReplay} {last : Bool} {size : Nat} {ring : RingState ReplayQueueItem}
      (at_ : s.producer = .measuring last) (call : ProducerSizeStep s.ring (some size) ring) :
      ProducerStep dropOnFull s { s with
        ring
        producer := if last then .done else .checking
        stats := { s.stats with maxQueueDepth := max s.stats.maxQueueDepth size } }

/-- A step of the consumer. What it does with an item it has popped is its own. -/
inductive ConsumerStep : SpscReplay → SpscReplay → Prop
  | report {s : SpscReplay} (at_ : s.consumer = .spawned) :
      ConsumerStep s { s with readyThreads := s.readyThreads + 1, consumer := .ready }
  | spin {s : SpscReplay} (at_ : s.consumer = .ready) (off : s.start = false) : ConsumerStep s s
  | begin {s : SpscReplay} (at_ : s.consumer = .ready) (on : s.start = true) :
      ConsumerStep s { s with consumer := .popping }
  | pop {s : SpscReplay} {answer : Option Bool} {ring : RingState ReplayQueueItem}
      (at_ : s.consumer = .popping) (call : PopStep s.ring answer ring)
      (unanswered : answer ≠ some true) : ConsumerStep s { s with ring }
  | popped {s : SpscReplay} {ring : RingState ReplayQueueItem} (at_ : s.consumer = .popping)
      (call : PopStep s.ring (some true) ring) :
      ConsumerStep s { s with ring, consumer := .handling }
  | finish {s : SpscReplay} (at_ : s.consumer = .handling)
      (last : s.ring.out.endOfStream = true) :
      ConsumerStep s { s with
        consumer := .stopping
        stats := { s.stats with endOfStreamSeen := true, endOfStreamMarkersConsumed := 1 } }
  | serve {s : SpscReplay} (at_ : s.consumer = .handling)
      (event : s.ring.out.endOfStream = false)
      (on : (s.stream.step s.ring.out.event).2 = true) :
      ConsumerStep s { s with
        consumer := .popping
        stream := (s.stream.step s.ring.out.event).1
        stats := { s.stats with consumedEvents := s.stats.consumedEvents + 1 } }
  | fail {s : SpscReplay} (at_ : s.consumer = .handling)
      (event : s.ring.out.endOfStream = false)
      (off : (s.stream.step s.ring.out.event).2 = false) :
      ConsumerStep s { s with
        consumer := .halting
        stream := (s.stream.step s.ring.out.event).1
        stats := { s.stats with consumedEvents := s.stats.consumedEvents + 1 } }
  | halt {s : SpscReplay} (at_ : s.consumer = .halting) :
      ConsumerStep s { s with consumerActive := false, consumer := .stopping }
  | stop {s : SpscReplay} (at_ : s.consumer = .stopping) :
      ConsumerStep s { s with consumerActive := false, consumer := .done }

/-- Any interleaving of the threads. The steady-state driver starts them together. -/
inductive Step (dropOnFull : Bool) : SpscReplay → SpscReplay → Prop
  | producer {s t : SpscReplay} : ProducerStep dropOnFull s t → Step dropOnFull s t
  | consumer {s t : SpscReplay} : ConsumerStep s t → Step dropOnFull s t
  | launch {s : SpscReplay} (both : 2 ≤ s.readyThreads) :
      Step dropOnFull s { s with start := true }

end SpscReplay

namespace SpscReplayConfig

def dropOnFull (config : SpscReplayConfig) : Bool := config.backpressure == .dropNewestOnFull

def stats (config : SpscReplayConfig) : SpscReplayStats :=
  { queueCapacity := config.queueCapacity, dropPolicyEnabled := config.dropOnFull }

/-- The threads as `run_spsc_replay_steady_state`, or `run_spsc_replay`, starts them. -/
def spawn (config : SpscReplayConfig) (steady : Bool) (symbolId : Nat)
    (events : List MarketDataEvent) : SpscReplay :=
  { ring := .start config.queueCapacity {}
    start := !steady
    remaining := events
    producer := if steady then .spawned else .checking
    consumer := if steady then .spawned else .popping
    stream := (ReplayEngine.new symbolId config.replay).start events
    stats := config.stats }

def refuse (config : SpscReplayConfig) (symbolId : Nat) (events : List MarketDataEvent) :
    SpscReplayResult :=
  let stream := (ReplayEngine.new symbolId config.replay).start events
  let result := { stream.result with
    sequenceValid := false, error := "spsc queue capacity must be at least 1" }
  ⟨{ stream with result }.finalize, config.stats⟩

/-- What either driver can return, whatever the interleaving. -/
inductive Returns (config : SpscReplayConfig) (steady : Bool) (symbolId : Nat)
    (events : List MarketDataEvent) : SpscReplayResult → Prop
  | refused (zero : config.queueCapacity = 0) :
      Returns config steady symbolId events (config.refuse symbolId events)
  | joined {s : SpscReplay} (room : config.queueCapacity ≠ 0)
      (run : Relation.ReflTransGen (SpscReplay.Step config.dropOnFull)
        (config.spawn steady symbolId events) s)
      (producer : s.producer = .done) (consumer : s.consumer = .done) :
      Returns config steady symbolId events ⟨s.stream.finalize, s.stats⟩

end SpscReplayConfig
end Asterion
