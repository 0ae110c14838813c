import Asterion.Concurrency.SpscRingBuffer

/-! The ring buffer is a bounded FIFO: one invariant over the buffer and the registers of both
threads, kept by every step of either. -/
namespace Asterion

open Lib Lib.Ring

variable {T : Type}

namespace RingState

/-- What the producer's registers promise. The consumer can only make more room. -/
def ProducerHolds (s : RingState T) : Prop :=
  match s.producer with
  | .idle => True
  | .loadedTail _ tail => tail = s.queue.tail
  | .writing _ tail => tail = s.queue.tail ∧ s.unread.length + 1 < s.queue.slots.length
  | .publishing item tail => tail = s.queue.tail ∧ s.unread.length + 1 < s.queue.slots.length ∧
      s.queue.slots[tail]? = some item
  | .sizing tail => tail = s.queue.tail

/-- What the consumer's registers promise. The producer can only add items behind. -/
def ConsumerHolds (s : RingState T) : Prop :=
  match s.consumer with
  | .idle => True
  | .loadedHead head => head = s.queue.head
  | .reading head => head = s.queue.head ∧ s.unread ≠ []
  | .storing head => head = s.queue.head ∧ s.unread.head? = some s.out
  | .sizing _ => True

/-- One slot stays free. Where there is no slot both indices stay at zero. -/
structure Inv (capacity : Nat) (s : RingState T) : Prop where
  size : s.queue.slots.length = (capacity + 1) % 2 ^ 64
  fifo : s.popped <+: s.pushed
  bound : s.unread.length ≤ s.queue.slots.length - 1
  head : s.queue.head ≤ s.queue.slots.length - 1
  tail : s.queue.tail = index s.queue.slots.length s.queue.head s.unread.length
  holds : Holds s.queue.slots s.queue.head s.unread
  producer : s.ProducerHolds
  consumer : s.ConsumerHolds

theorem inv_start [Inhabited T] (capacity : Nat) (out : T) : Inv capacity (start capacity out) where
  size := List.length_replicate
  fifo := List.prefix_rfl
  bound := Nat.zero_le _
  head := Nat.zero_le _
  tail := by simp [start, SpscRingBuffer.new, unread, index]
  holds := holds_nil
  producer := trivial
  consumer := trivial

theorem pushed_eq {s : RingState T} (fifo : s.popped <+: s.pushed) :
    s.pushed = s.popped ++ s.unread := by
  obtain ⟨rest, hr⟩ := fifo
  rw [unread, ← hr, List.drop_left']
  rfl

section Indices
variable {s : RingState T} {capacity next : Nat}

theorem Inv.pos_of_increment {queue : SpscRingBuffer T} {at_ : Nat}
    (step : queue.increment at_ = some next) : 0 < queue.slots.length := by
  unfold SpscRingBuffer.increment at step
  split at step
  · cases step
  · omega

theorem Inv.increment_eq (h : Inv capacity s) (pos : 0 < s.queue.slots.length) {at_ : Nat}
    (valid : at_ ≤ s.queue.slots.length - 1) :
    s.queue.increment at_ = some ((at_ + 1) % s.queue.slots.length) := by
  have word : s.queue.slots.length < 2 ^ 64 := by
    rw [h.size]
    exact Nat.mod_lt _ (by decide)
  unfold SpscRingBuffer.increment
  rw [if_neg (by omega), Nat.mod_eq_of_lt (show at_ + 1 < 2 ^ 64 by omega)]

theorem Inv.tail_le (h : Inv capacity s) (pos : 0 < s.queue.slots.length) :
    s.queue.tail ≤ s.queue.slots.length - 1 := by
  have := index_lt s.queue.head s.unread.length pos
  rw [h.tail]
  omega

theorem Inv.increment_tail (h : Inv capacity s) (pos : 0 < s.queue.slots.length) :
    s.queue.increment s.queue.tail =
      some (index s.queue.slots.length s.queue.head (s.unread.length + 1)) := by
  rw [h.increment_eq pos (h.tail_le pos), h.tail, index_succ]

theorem Inv.full_iff (h : Inv capacity s) (pos : 0 < s.queue.slots.length) :
    index s.queue.slots.length s.queue.head (s.unread.length + 1) = s.queue.head ↔
      s.unread.length + 1 = s.queue.slots.length := by
  have bound := h.bound
  have head : s.queue.head < s.queue.slots.length := by
    have := h.head
    omega
  constructor
  · intro back
    exact index_eq_head head (by omega) (Nat.succ_pos _) back
  · intro whole
    rw [whole, index, Nat.add_mod_right, Nat.mod_eq_of_lt head]

theorem Inv.empty_iff (h : Inv capacity s) : s.queue.head = s.queue.tail ↔ s.unread = [] := by
  have bound := h.bound
  have head := h.head
  rw [h.tail]
  constructor
  · intro meet
    by_contra some
    have pos := List.length_pos_iff.mpr some
    have round := index_eq_head (by omega) (by omega) pos meet.symm
    omega
  · intro none
    rw [none]
    rcases Nat.eq_zero_or_pos s.queue.slots.length with zero | pos
    · simp [index, zero]
    · exact (index_zero (by omega)).symm

end Indices

section Push
variable {s t : RingState T} {capacity : Nat} {item : T} {answer : Option Bool}

theorem inv_push (h : Inv capacity s) (step : PushStep item s answer t) : Inv capacity t := by
  cases step with
  | loadTail at_ => exact ⟨h.1, h.2, h.3, h.4, h.5, h.6, rfl, h.8⟩
  | full at_ full => exact ⟨h.1, h.2, h.3, h.4, h.5, h.6, trivial, h.8⟩
  | room at_ next_ room =>
    rename_i tail next
    have own : tail = s.queue.tail := by
      have := h.producer
      rwa [ProducerHolds, at_] at this
    have pos := Inv.pos_of_increment next_
    have space : s.unread.length + 1 < s.queue.slots.length := by
      have bound := h.bound
      rw [own, h.increment_tail pos, Option.some.injEq] at next_
      rw [← next_, Ne, h.full_iff pos] at room
      omega
    exact ⟨h.1, h.2, h.3, h.4, h.5, h.6, ⟨own, space⟩, h.8⟩
  | write at_ =>
    rename_i tail
    obtain ⟨own, space⟩ : tail = s.queue.tail ∧
        s.unread.length + 1 < s.queue.slots.length := by
      have := h.producer
      rwa [ProducerHolds, at_] at this
    have room : s.unread.length < s.queue.slots.length := by omega
    have length : (s.queue.slots.set tail item).length = s.queue.slots.length := List.length_set
    refine ⟨length.trans h.1, h.2, length.symm ▸ h.3, length.symm ▸ h.4, ?_, ?_,
      ⟨own, length.symm ▸ space, ?_⟩, ?_⟩
    · exact h.tail.trans (by rw [← length]; rfl)
    · rw [own, h.tail]
      exact h.holds.write room item
    · rw [List.getElem?_set_self]
      rw [own, h.tail]
      exact index_lt _ _ (by omega)
    · exact h.consumer
  | publish at_ next_ =>
    rename_i tail next
    obtain ⟨own, space, last⟩ : tail = s.queue.tail ∧
        s.unread.length + 1 < s.queue.slots.length ∧ s.queue.slots[tail]? = some item := by
      have := h.producer
      rwa [ProducerHolds, at_] at this
    have unread : (s.pushed ++ [item]).drop s.popped.length = s.unread ++ [item] := by
      rw [List.drop_append_of_le_length h.fifo.length_le]
      rfl
    have length : (s.unread ++ [item]).length = s.unread.length + 1 := by simp
    refine ⟨h.1, h.fifo.trans (List.prefix_append _ _), ?_, h.4, ?_, ?_, trivial, ?_⟩
    · rw [RingState.unread, unread, length]
      dsimp only
      omega
    · rw [own, h.increment_tail (by omega), Option.some.injEq] at next_
      rw [RingState.unread, unread, length, ← next_]
    · rw [RingState.unread, unread]
      rw [own, h.tail] at last
      exact h.holds.push last
    · have held := h.consumer
      unfold ConsumerHolds at held ⊢
      dsimp only at held ⊢
      cases hc : s.consumer with
      | idle => trivial
      | loadedHead head =>
        rw [hc] at held
        exact held
      | reading head =>
        rw [hc] at held
        refine ⟨held.1, ?_⟩
        rw [RingState.unread, unread]
        simp
      | storing head =>
        rw [hc] at held
        refine ⟨held.1, ?_⟩
        rw [RingState.unread, unread, List.head?_append, held.2]
        rfl
      | sizing tail => trivial

end Push

section Pop
variable {s t : RingState T} {capacity : Nat} {answer : Option Bool}

theorem inv_pop (h : Inv capacity s) (step : PopStep s answer t) : Inv capacity t := by
  cases step with
  | loadHead at_ => exact ⟨h.1, h.2, h.3, h.4, h.5, h.6, h.7, rfl⟩
  | empty at_ empty => exact ⟨h.1, h.2, h.3, h.4, h.5, h.6, h.7, trivial⟩
  | some at_ some =>
    rename_i head
    have own : head = s.queue.head := by
      have := h.consumer
      rwa [ConsumerHolds, at_] at this
    rw [own, Ne, h.empty_iff] at some
    exact ⟨h.1, h.2, h.3, h.4, h.5, h.6, h.7, ⟨own, some⟩⟩
  | read at_ =>
    rename_i head
    obtain ⟨own, some⟩ : head = s.queue.head ∧ s.unread ≠ [] := by
      have := h.consumer
      rwa [ConsumerHolds, at_] at this
    obtain ⟨x, rest, hu⟩ := List.exists_cons_of_ne_nil some
    have first : s.queue.slots[head]? = Option.some x := by
      have holds := h.holds
      have bound := h.bound
      have valid := h.head
      rw [hu] at holds bound
      rw [own]
      exact holds.first (by rw [List.length_cons] at bound; omega)
    refine ⟨h.1, h.2, h.3, h.4, h.5, h.6, h.7, own, ?_⟩
    rw [List.getD_eq_getElem?_getD, first]
    exact congrArg List.head? hu
  | store at_ next_ =>
    rename_i head next
    obtain ⟨own, first⟩ : head = s.queue.head ∧ s.unread.head? = Option.some s.out := by
      have := h.consumer
      rwa [ConsumerHolds, at_] at this
    have pos := Inv.pos_of_increment next_
    rw [own, h.increment_eq pos h.head, Option.some.injEq] at next_
    obtain ⟨rest, hu⟩ := List.head?_eq_some_iff.mp first
    have pushed : s.pushed = (s.popped ++ [s.out]) ++ rest := by
      have all := pushed_eq h.fifo
      rw [hu] at all
      exact all.trans (List.append_cons _ _ _)
    have unread : s.pushed.drop (s.popped ++ [s.out]).length = rest := by
      rw [pushed]
      exact List.drop_left' rfl
    have fewer : s.unread.length = rest.length + 1 := by rw [hu]; rfl
    have holds := h.holds
    have tail := h.tail
    have turned := Nat.mod_lt (s.queue.head + 1) pos
    rw [hu] at holds tail
    refine ⟨h.1, ?_, ?_, ?_, ?_, ?_, ?_, trivial⟩
    · rw [pushed]
      exact List.prefix_append _ _
    · rw [RingState.unread, unread]
      have := h.bound
      dsimp only
      omega
    · dsimp only
      omega
    · rw [RingState.unread, unread, ← next_]
      exact tail.trans (index_advance _ _ _).symm
    · rw [RingState.unread, unread, ← next_]
      exact holds.pop
    · have held := h.producer
      unfold ProducerHolds at held ⊢
      dsimp only at held ⊢
      rw [RingState.unread, unread]
      cases hp : s.producer with
      | idle => trivial
      | loadedTail item tail =>
        rw [hp] at held
        exact held
      | writing item tail =>
        rw [hp] at held
        exact ⟨held.1, by have := held.2; omega⟩
      | publishing item tail =>
        rw [hp] at held
        exact ⟨held.1, by have := held.2.1; omega, held.2.2⟩
      | sizing tail =>
        rw [hp] at held
        exact held

theorem inv_size {size : Option Nat} (h : Inv capacity s)
    (step : ProducerSizeStep s size t ∨ ConsumerSizeStep s size t) : Inv capacity t := by
  rcases step with step | step
  · cases step with
    | loadTail at_ => exact ⟨h.1, h.2, h.3, h.4, h.5, h.6, rfl, h.8⟩
    | loadHead at_ size_ => exact ⟨h.1, h.2, h.3, h.4, h.5, h.6, trivial, h.8⟩
  · cases step with
    | loadTail at_ => exact ⟨h.1, h.2, h.3, h.4, h.5, h.6, h.7, trivial⟩
    | loadHead at_ size_ => exact ⟨h.1, h.2, h.3, h.4, h.5, h.6, h.7, trivial⟩

end Pop

theorem inv_step {s t : RingState T} {capacity : Nat} (h : Inv capacity s) (step : RingStep s t) :
    Inv capacity t := by
  cases step with
  | push item step => exact inv_push h step
  | pop step => exact inv_pop h step
  | producerSize step => exact inv_size h (Or.inl step)
  | consumerSize step => exact inv_size h (Or.inr step)

/-- The states of all runs: any operations of the two threads, interleaved in any way. -/
abbrev Reachable [Inhabited T] (capacity : Nat) (out : T) (s : RingState T) : Prop :=
  Relation.ReflTransGen RingStep (start capacity out) s

theorem inv_reachable [Inhabited T] {capacity : Nat} {out : T} {s : RingState T}
    (run : Reachable capacity out s) : Inv capacity s := by
  induction run with
  | refl => exact inv_start capacity out
  | tail _ step ih => exact inv_step ih step

/-- A size that is read is less than the slots, so at most the capacity. -/
theorem Inv.size_le {s : RingState T} {capacity tail size : Nat} (h : Inv capacity s)
    (read : s.queue.sizeApprox tail s.queue.head = some size) : size ≤ capacity := by
  unfold SpscRingBuffer.sizeApprox at read
  split at read
  · cases read
  · rename_i slots
    rw [Option.some.injEq] at read
    have below := Nat.mod_lt ((tail + s.queue.slots.length + (2 ^ 64 - s.queue.head)) % 2 ^ 64)
      (Nat.pos_of_ne_zero slots)
    have size := h.size
    have := Nat.mod_le (capacity + 1) (2 ^ 64)
    omega

section Calls
variable {s : RingState T}

def PushAt (item : T) (at_ : ProducerAt T) : Prop :=
  at_ = .idle ∨ ∃ tail, at_ = .loadedTail item tail ∨ at_ = .writing item tail ∨
    at_ = .publishing item tail

def PopAt (at_ : ConsumerAt) : Prop :=
  at_ = .idle ∨ ∃ head, at_ = .loadedHead head ∨ at_ = .reading head ∨ at_ = .storing head

def ProducerSizeAt (at_ : ProducerAt T) : Prop := at_ = .idle ∨ ∃ tail, at_ = .sizing tail

def ConsumerSizeAt (at_ : ConsumerAt) : Prop := at_ = .idle ∨ ∃ tail, at_ = .sizing tail

theorem exists_increment (slots : s.queue.slots.length ≠ 0) (at_ : Nat) :
    ∃ next, s.queue.increment at_ = some next :=
  ⟨_, if_neg slots⟩

theorem PushAt.step {item : T} (h : PushAt item s.producer) (slots : s.queue.slots.length ≠ 0) :
    ∃ answer t, PushStep item s answer t := by
  rcases h with at_ | ⟨tail, at_ | at_ | at_⟩
  · exact ⟨_, _, .loadTail at_⟩
  · obtain ⟨next, next_⟩ := exists_increment slots tail
    by_cases full : next = s.queue.head
    · exact ⟨_, _, .full at_ (full ▸ next_)⟩
    · exact ⟨_, _, .room at_ next_ full⟩
  · exact ⟨_, _, .write at_⟩
  · obtain ⟨next, next_⟩ := exists_increment slots tail
    exact ⟨_, _, .publish at_ next_⟩

theorem PopAt.step (h : PopAt s.consumer) (slots : s.queue.slots.length ≠ 0) :
    ∃ answer t, PopStep s answer t := by
  rcases h with at_ | ⟨head, at_ | at_ | at_⟩
  · exact ⟨_, _, .loadHead at_⟩
  · by_cases empty : head = s.queue.tail
    · exact ⟨_, _, .empty at_ empty⟩
    · exact ⟨_, _, .some at_ empty⟩
  · exact ⟨_, _, .read at_⟩
  · obtain ⟨next, next_⟩ := exists_increment slots head
    exact ⟨_, _, .store at_ next_⟩

theorem ProducerSizeAt.step (h : ProducerSizeAt s.producer)
    (slots : s.queue.slots.length ≠ 0) : ∃ size t, ProducerSizeStep s size t := by
  rcases h with at_ | ⟨tail, at_⟩
  · exact ⟨_, _, .loadTail at_⟩
  · exact ⟨_, _, .loadHead at_ (if_neg slots)⟩

theorem ConsumerSizeAt.step (h : ConsumerSizeAt s.consumer)
    (slots : s.queue.slots.length ≠ 0) : ∃ size t, ConsumerSizeStep s size t := by
  rcases h with at_ | ⟨tail, at_⟩
  · exact ⟨_, _, .loadTail at_⟩
  · exact ⟨_, _, .loadHead at_ (if_neg slots)⟩

end Calls

/-- A bounded FIFO, as every state of every run shows it, and every step from there. -/
structure BoundedFifo (capacity : Nat) (s : RingState T) : Prop where
  /-- Items come out in the order they went in, none lost and none twice. -/
  fifo : s.popped <+: s.pushed
  /-- At most `capacity` items are in flight. -/
  bound : s.pushed.length ≤ s.popped.length + capacity
  /-- Every unread item is in its slot. -/
  unread : ∀ i, (h : i < s.unread.length) →
    s.queue.slots[index s.queue.slots.length s.queue.head i]? = some s.unread[i]
  /-- No write goes to the slot of an unread item. -/
  overwrite : ∀ item tail, s.producer = .writing item tail →
    ∀ i < s.unread.length, tail ≠ index s.queue.slots.length s.queue.head i
  /-- Until a push has found room it has changed nothing, so one that fails changes nothing. -/
  pushUntouched : ∀ item answer t, PushStep item s answer t →
    (s.producer = .idle ∨ ∃ tail, s.producer = .loadedTail item tail) →
      t.queue = s.queue ∧ t.pushed = s.pushed
  pushFails : ∀ item t, PushStep item s (some false) t →
    (∃ tail, s.producer = .loadedTail item tail) ∧ t.queue = s.queue ∧ t.pushed = s.pushed ∧
      s.unread.length = capacity
  /-- Until a pop has found an item it has changed nothing, its output included. -/
  popUntouched : ∀ answer t, PopStep s answer t →
    (s.consumer = .idle ∨ ∃ head, s.consumer = .loadedHead head) →
      t.queue = s.queue ∧ t.popped = s.popped ∧ t.out = s.out
  popFails : ∀ t, PopStep s (some false) t →
    (∃ head, s.consumer = .loadedHead head) ∧ t.queue = s.queue ∧ t.popped = s.popped ∧
      t.out = s.out
  producerSize : ∀ size t, ProducerSizeStep s (some size) t → size ≤ capacity
  consumerSize : ∀ size t, ConsumerSizeStep s (some size) t → size ≤ capacity
  /-- Every call can be made, and one that has begun goes on. -/
  pushRuns : ∀ item, PushAt item s.producer → ∃ answer t, PushStep item s answer t
  popRuns : PopAt s.consumer → ∃ answer t, PopStep s answer t
  producerSizeRuns : ProducerSizeAt s.producer → ∃ size t, ProducerSizeStep s size t
  consumerSizeRuns : ConsumerSizeAt s.consumer → ∃ size t, ConsumerSizeStep s size t

theorem bounded_of_inv {s : RingState T} {capacity : Nat} (word : capacity + 1 < 2 ^ 64)
    (h : Inv capacity s) : BoundedFifo capacity s := by
  have size : s.queue.slots.length = capacity + 1 := by rw [h.size, Nat.mod_eq_of_lt word]
  have slots : s.queue.slots.length ≠ 0 := by omega
  exact {
    fifo := h.fifo
    bound := by
      have := h.bound
      have := congrArg List.length (pushed_eq h.fifo)
      rw [List.length_append] at this
      omega
    unread := h.holds
    overwrite := by
      intro item tail at_ i hi same
      obtain ⟨own, space⟩ : tail = s.queue.tail ∧
          s.unread.length + 1 < s.queue.slots.length := by
        have := h.producer
        rwa [ProducerHolds, at_] at this
      rw [own, h.tail] at same
      have := index_injective (by omega) (by omega) same
      omega
    pushUntouched := by
      intro item answer t step before
      cases step with
      | loadTail at_ => exact ⟨rfl, rfl⟩
      | full at_ full => exact ⟨rfl, rfl⟩
      | room at_ next_ room => exact ⟨rfl, rfl⟩
      | write at_ => simp [at_] at before
      | publish at_ next_ => simp [at_] at before
    pushFails := by
      intro item t step
      cases step with
      | full at_ full =>
        rename_i tail
        have own : tail = s.queue.tail := by
          have := h.producer
          rwa [ProducerHolds, at_] at this
        have pos := Nat.pos_of_ne_zero slots
        rw [own, h.increment_tail pos, Option.some.injEq, h.full_iff pos] at full
        exact ⟨⟨tail, at_⟩, rfl, rfl, by omega⟩
    popUntouched := by
      intro answer t step before
      cases step with
      | loadHead at_ => exact ⟨rfl, rfl, rfl⟩
      | empty at_ empty => exact ⟨rfl, rfl, rfl⟩
      | some at_ some => exact ⟨rfl, rfl, rfl⟩
      | read at_ => simp [at_] at before
      | store at_ next_ => simp [at_] at before
    popFails := by
      intro t step
      cases step with
      | empty at_ empty => exact ⟨⟨_, at_⟩, rfl, rfl, rfl⟩
    producerSize := by
      intro size t step
      cases step with
      | loadHead at_ size_ => exact h.size_le size_
    consumerSize := by
      intro size t step
      cases step with
      | loadHead at_ size_ => exact h.size_le size_
    pushRuns := fun item at_ => at_.step slots
    popRuns := fun at_ => at_.step slots
    producerSizeRuns := fun at_ => at_.step slots
    consumerSizeRuns := fun at_ => at_.step slots }

/-- Without a slot a push that has loaded the tail has no next step. -/
theorem not_bounded_of_empty [Inhabited T] {capacity : Nat} (empty : (capacity + 1) % 2 ^ 64 = 0)
    (out : T) : ¬ BoundedFifo capacity
      { start capacity out with producer := .loadedTail default 0 } := by
  intro fifo
  have none_ : ((start capacity out).queue).increment 0 = none := by
    simp only [start, SpscRingBuffer.new, SpscRingBuffer.increment, List.length_replicate, empty,
      if_true]
  obtain ⟨answer, t, step⟩ := fifo.pushRuns default (Or.inr ⟨0, Or.inl rfl⟩)
  cases step with
  | loadTail at_ => cases at_
  | full at_ full => cases at_; cases none_.symm.trans full
  | room at_ next_ room => cases at_; cases none_.symm.trans next_
  | write at_ => cases at_
  | publish at_ next_ => cases at_

/-- Under any interleaving the ring buffer is a bounded FIFO, for every capacity whose slots can
be counted. -/
theorem spsc_bounded_fifo_iff [Inhabited T] (capacity : Nat) (out : T)
    (word : capacity < 2 ^ 64) :
    (∀ s, Reachable capacity out s → BoundedFifo capacity s) ↔ capacity + 1 < 2 ^ 64 := by
  constructor
  · intro fifo
    by_contra wraps
    have empty : (capacity + 1) % 2 ^ 64 = 0 := by
      obtain rfl : capacity = 2 ^ 64 - 1 := by omega
      rfl
    exact not_bounded_of_empty empty out (fifo _ (.single (.push default (.loadTail rfl))))
  · intro counted s run
    exact bounded_of_inv counted (inv_reachable run)

/-- A push into a buffer of capacity one that is interleaved with a pop of the same item. -/
theorem spsc_bounded_fifo_one_item : BoundedFifo (T := Int) 1
    { queue := { slots := [7, 0], capacity := 1, head := 0, tail := 1 }
      consumer := .reading 0, out := 0, pushed := [7] } := by
  apply (spsc_bounded_fifo_iff 1 (0 : Int) (by decide)).mpr (by decide)
  have loaded : Relation.ReflTransGen RingStep (start 1 (0 : Int)) _ :=
    .single (.push 7 (.loadTail rfl))
  have checked := (loaded.tail (.pop (.loadHead rfl))).tail (.push 7 (.room rfl rfl (by decide)))
  have published := (checked.tail (.push 7 (.write rfl))).tail (.push 7 (.publish rfl rfl))
  exact published.tail (.pop (.some rfl (by decide)))

/-- At the largest capacity the sum wraps to no slot at all, and the first push does not return. -/
theorem spsc_bounded_fifo_fails : ¬ ∀ s : RingState Int,
    Reachable (2 ^ 64 - 1) (0 : Int) s → BoundedFifo (2 ^ 64 - 1) s := by
  intro fifo
  exact not_bounded_of_empty rfl (0 : Int) (fifo _ (.single (.push default (.loadTail rfl))))

end RingState
end Asterion
