import Asterion.Book.LevelTotals
import Asterion.Lib.Along
import Asterion.MarketData.ReplaySteps

/-! What the validation of a replay leaves open: the quantities resting at a price are never added
up before an order comes in, so the total of a level can leave its word. -/
namespace Asterion
open Lib Lib.Along

namespace Queues

def cleared (q : Queues) (event : MarketDataEvent) : Queues :=
  match event.eventType with
  | .snapshot => if event.beginsSnapshot then fun _ => [] else q
  | .replace => fun s => dequeue event.orderId (q s)
  | _ => q

def Room (q : Queues) (event : MarketDataEvent) : Prop :=
  ∀ o ∈ q.incoming event,
    restingAt o.priceTicks (q.cleared event o.side) + o.quantity < 2 ^ 63

theorem restingAt_cleared_le {q : Queues} (pos : ∀ s, ∀ o ∈ q s, 0 < o.quantity)
    (event : MarketDataEvent) (s : Side) (price : Int) :
    restingAt price (q.cleared event s) ≤ restingAt price (q s) := by
  unfold cleared
  cases event.eventType with
  | snapshot =>
    cases event.beginsSnapshot with
    | true => exact restingAt_nonneg price (pos s)
    | false => exact le_refl _
  | replace => exact restingAt_dequeue_le price (pos s) event.orderId
  | add => exact le_refl _
  | cancel => exact le_refl _
  | execute => exact le_refl _
  | trade => exact le_refl _
  | heartbeat => exact le_refl _

/-- An order put in joins its side, and the other side loses orders if anything. -/
theorem apply_incoming {q q' : Queues} {symbolId : Nat} {event : MarketDataEvent} {o : Order}
    (incoming : q.incoming event = some o) (applied : q.apply symbolId event = some q') :
    q' o.side = enqueue o (q.cleared event o.side) ∧
      ∀ s, s ≠ o.side → q' s = q s ∨ q' s = [] := by
  have added {p : Queues} (ho : event.order = o) (h : p.add symbolId event.order = some q') :
      q' o.side = enqueue o (p o.side) ∧ ∀ s, s ≠ o.side → q' s = p s := by
    unfold Queues.add at h
    split at h
    · obtain rfl := Option.some.inj h
      rw [ho]
      exact ⟨if_pos rfl, fun s hs => if_neg hs⟩
    · cases h
  unfold Queues.incoming at incoming
  unfold Queues.apply at applied
  cases ht : event.eventType with
  | add =>
    simp only [ht, Option.some.injEq] at incoming applied
    obtain ⟨own, others⟩ := added incoming applied
    refine ⟨?_, fun s hs => Or.inl (others s hs)⟩
    simp only [cleared, ht]
    exact own
  | replace =>
    simp only [ht, Queues.replace] at incoming applied
    split at applied
    · cases applied
    · cases hf : q.find event.orderId with
      | none => simp [hf] at incoming
      | some x =>
        simp only [hf, Option.map_some, Option.some.injEq] at incoming applied
        subst incoming
        subst applied
        simp only [cleared, ht, if_true]
        exact ⟨trivial, fun s hs => Or.inl (if_neg hs)⟩
  | snapshot =>
    simp only [ht] at incoming applied
    split at incoming
    · rename_i joins
      rw [if_pos joins.1] at applied
      obtain ⟨own, others⟩ := added (Option.some.inj incoming) applied
      cases hb : event.beginsSnapshot with
      | true =>
        simp only [hb, if_true] at own others
        simp only [cleared, ht, hb, if_true]
        exact ⟨own, fun s hs => Or.inr (others s hs)⟩
      | false =>
        simp only [hb, Bool.false_eq_true, if_false] at own others
        simp only [cleared, ht, hb, Bool.false_eq_true, if_false]
        exact ⟨own, fun s hs => Or.inl (others s hs)⟩
    · cases incoming
  | cancel => simp [ht] at incoming
  | execute => simp [ht] at incoming
  | trade => simp [ht] at incoming
  | heartbeat => simp [ht] at incoming

theorem apply_leaving {q q' : Queues} {symbolId : Nat} {event : MarketDataEvent}
    (pos : ∀ s, ∀ o ∈ q s, 0 < o.quantity) (none : q.incoming event = none)
    (applied : q.apply symbolId event = some q') (s : Side) (price : Int) :
    restingAt price (q' s) ≤ restingAt price (q s) := by
  have reduced {orderId : Nat} {quantity : Int} (h : q.reduce orderId quantity = some q') :
      restingAt price (q' s) ≤ restingAt price (q s) := by
    unfold Queues.reduce at h
    split at h
    · cases h
    · rename_i positive
      obtain ⟨o, -, rfl⟩ := Option.map_eq_some_iff.mp h
      exact restingAt_consume_le price (pos s) (o, quantity) (not_le.mp positive)
  unfold Queues.incoming at none
  unfold Queues.apply at applied
  cases ht : event.eventType with
  | trade =>
    simp only [ht, Option.some.injEq] at applied
    rw [applied]
  | heartbeat =>
    simp only [ht, Option.some.injEq] at applied
    rw [applied]
  | add => simp [ht] at none
  | cancel =>
    simp only [ht] at applied
    split at applied
    · exact reduced applied
    · obtain ⟨o, -, rfl⟩ := Option.map_eq_some_iff.mp applied
      exact restingAt_dequeue_le price (pos s) event.orderId
  | execute =>
    simp only [ht] at applied
    exact reduced applied
  | replace =>
    simp only [ht, Queues.replace] at none applied
    split at applied
    · cases applied
    · rw [Option.map_eq_none_iff] at none
      simp [none] at applied
  | snapshot =>
    simp only [ht] at none applied
    by_cases hid : event.orderId = invalidOrderId
    · rw [if_neg (not_not.mpr hid)] at applied
      obtain rfl := Option.some.inj applied
      split
      · exact restingAt_nonneg price (pos s)
      · exact le_refl _
    · -- a record of an order that rests already is refused
      rw [if_pos hid] at applied
      cases hb : event.beginsSnapshot with
      | true => simp [hid, hb] at none
      | false =>
        simp only [hb, Bool.false_eq_true, false_or, if_false, Queues.add] at none applied
        split at applied
        · rename_i free
          rw [if_pos ⟨hid, free.2.2⟩] at none
          cases none
        · cases applied

end Queues

namespace ReplayStream

/-- An event whose checks pass leaves totals that fit exactly where its order finds room. -/
theorem bookAfter_totalsFit {s : ReplayStream} {event : MarketDataEvent} (wf : s.engine.book.WF)
    (valid : s.engine.validateEventBeforeApply event = none) (fits : s.engine.book.TotalsFit) :
    (s.bookAfter event).TotalsFit ↔ Queues.Room s.engine.book.queue event := by
  have known := ReplayEngine.validated valid
  have outcome := applyToBook_outcome wf known
  have wf' : (s.bookAfter event).WF := outcome.wf
  have queue : (s.bookAfter event).queue = _ := outcome.queue
  rw [OrderBook.totalsFit_iff wf']
  rw [OrderBook.totalsFit_iff wf] at fits
  have pos := fun side => OrderBook.queue_pos wf side
  cases hi : Queues.incoming s.engine.book.queue event with
  | none =>
    refine iff_of_true (fun side price => ?_) (fun o ho => ?_)
    · rw [queue]
      cases ha : Queues.apply s.engine.book.queue s.engine.book.symbolId event with
      | none => exact fits side price
      | some q => exact (Queues.apply_leaving pos hi ha side price).trans_lt (fits side price)
    · rw [hi] at ho
      cases ho
  | some o =>
    obtain ⟨q, ha⟩ := Option.isSome_iff_exists.mp (apply_of_incoming wf known hi)
    obtain ⟨own, others⟩ := Queues.apply_incoming hi ha
    have cleared (price : Int) := Queues.restingAt_cleared_le pos event o.side price
    rw [queue, ha, Option.getD_some]
    constructor
    · intro small x hx
      obtain rfl := Option.some.inj (hi.symm.trans hx)
      have total := small o.side o.priceTicks
      rw [own, restingAt_enqueue, if_pos rfl] at total
      omega
    · intro room side price
      by_cases hs : side = o.side
      · rw [hs, own, restingAt_enqueue]
        have before := (cleared price).trans_lt (fits o.side price)
        split
        · rename_i same
          have total := room o hi
          rw [same] at total
          omega
        · omega
      · rcases others side hs with same | empty
        · rw [same]
          exact fits side price
        · rw [empty, restingAt_nil]
          decide

/-- One event of `replay_events`, which serves none after a halt. -/
def advance (s : ReplayStream) (event : MarketDataEvent) : ReplayStream :=
  if s.state.halted then s else (s.step event).1

theorem foldl_advance_halted {s : ReplayStream} (halted : s.state.halted = true)
    (events : List MarketDataEvent) : events.foldl advance s = s := by
  induction events with
  | nil => rfl
  | cons event events ih => rwa [List.foldl_cons, advance, if_pos halted]

theorem steps_eq_foldl {s : ReplayStream} (going : s.state.halted = false)
    (events : List MarketDataEvent) : s.steps events = events.foldl advance s := by
  induction events generalizing s with
  | nil => rfl
  | cons event events ih =>
    have first : advance s event = (s.step event).1 := if_neg (by simp [going])
    rw [List.foldl_cons, first]
    obtain ⟨⟨s', on⟩, hs⟩ : ∃ p, s.step event = p := ⟨_, rfl⟩
    cases on with
    | true =>
      have going_on : (s.step event).2 = true := congrArg Prod.snd hs
      have served := (step_served going_on).2.1
      rw [hs] at served
      simp only [steps, hs]
      exact ih (served.halted.trans going)
    | false =>
      have halting : (s.step event).2 = false := congrArg Prod.snd hs
      have stopped := (step_stopped halting).2.1
      rw [hs] at stopped
      simp only [steps, hs]
      exact (foldl_advance_halted stopped.halted events).symm

/-- The next event either does not get to the book or finds room in it. -/
def Admits (s : ReplayStream) (event : MarketDataEvent) : Prop :=
  s.state.halted = false → s.Reached event → Queues.Room s.engine.book.queue event

def Settled (s : ReplayStream) : Prop := s.Running ∨ s.state.halted = true

theorem advance_settled {s : ReplayStream} (settled : s.Settled) (event : MarketDataEvent) :
    (s.advance event).Settled := by
  unfold advance
  rcases settled with running | halted
  · rw [if_neg (by simp [running.going])]
    cases on : (s.step event).2 with
    | true => exact Or.inl (running_step running on)
    | false => exact Or.inr (step_stopped on).2.1.halted
  · rw [if_pos halted]
    exact Or.inr halted

theorem advance_totalsFit {s : ReplayStream} (settled : s.Settled)
    (fits : s.engine.book.TotalsFit) (event : MarketDataEvent) :
    (s.advance event).engine.book.TotalsFit ↔ s.Admits event := by
  unfold advance Admits
  rcases settled with running | halted
  · have going := running.going
    rw [if_neg (by simp [going])]
    have book : (s.step event).1.engine.book =
        if s.Reached event then s.bookAfter event else s.engine.book := by
      rcases s.step_spec event with ⟨-, -, -, book⟩ | ⟨accepts, -, -, book⟩
      · exact book
      · rw [book, if_pos accepts.1]
    rw [book]
    split
    · rename_i reached
      rw [bookAfter_totalsFit running.wf reached.2 fits]
      exact ⟨fun room _ _ => room, fun room => room going reached⟩
    · rename_i unreached
      exact iff_of_true fits (fun _ reached => absurd reached unreached)
  · rw [if_pos halted]
    refine iff_of_true fits (fun going => ?_)
    rw [halted] at going
    cases going

end ReplayStream

/-- Whatever is replayed, the totals fit as far as the replay gets exactly where every order put
into the book finds room at its price. -/
theorem replay_totals_fit_iff (symbolId : Nat) (config : ReplayConfig)
    (events : List MarketDataEvent) :
    let stream := (ReplayEngine.new symbolId config).start events
    (∀ run, run <+: events → (stream.steps run).engine.book.TotalsFit) ↔
      ∀ run event, run ++ [event] <+: events → (stream.steps run).Admits event := by
  intro stream
  have running : stream.Running := ReplayStream.running_start symbolId config events
  simp only [ReplayStream.steps_eq_foldl running.going]
  rw [← always_iff_prefix (Q := fun s : ReplayStream => s.engine.book.TotalsFit),
    ← each_iff_fronts (P := ReplayStream.Admits)]
  exact always_iff_each (I := ReplayStream.Settled)
    (fun s event settled _ _ => ReplayStream.advance_settled settled event)
    (fun s event settled fits => ReplayStream.advance_totalsFit settled fits event)
    (Or.inl running) (OrderBook.new_totalsFit symbolId)

/-- Two orders of the greatest quantity at one price pass the validation. -/
theorem total_overflows :
    let add (orderId : Nat) : MarketDataEvent :=
      { sequenceNumber := orderId, symbolId := 1, eventType := .add, side := .buy, priceTicks := 1
        quantity := 2 ^ 63 - 1, orderId }
    let stream := ((ReplayEngine.new 1 {}).start [add 1, add 2]).steps [add 1, add 2]
    stream.result.sequenceValid = true ∧ stream.result.eventsProcessed = 2 ∧
      ¬ stream.engine.book.TotalsFit := by
  refine ⟨by decide, by decide, fun fits => ?_⟩
  have total := fits.totals .buy (1, ⟨1, 2 ^ 64 - 2, _⟩) List.mem_cons_self
  exact absurd total (by decide)

end Asterion
