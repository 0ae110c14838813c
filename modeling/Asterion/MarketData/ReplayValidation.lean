import Asterion.MarketData.ReplaySteps

/-! The checks before application are complete: what passes them is applied, with the one exception
that they do not look for, and what fails leaves the book as it was. -/
namespace Asterion

/-- The engines of a symbol that are left by calls of `replay_step`, each with any cursor and any
result of the caller. -/
inductive ReplayEngine.Reachable (symbolId : Nat) (config : ReplayConfig) : ReplayEngine → Prop where
  | new : Reachable symbolId config (.new symbolId config)
  | step {s : ReplayStream} (event : MarketDataEvent) (reached : Reachable symbolId config s.engine) :
      Reachable symbolId config (s.step event).1.engine

/-- A snapshot record, which does not begin the snapshot, of an order that rests. -/
def RepeatsResting (book : OrderBook) (event : MarketDataEvent) : Prop :=
  event.eventType = .snapshot ∧ event.beginsSnapshot = false ∧
    (book.findOrder event.orderId).isSome = true

instance (book : OrderBook) (event : MarketDataEvent) : Decidable (RepeatsResting book event) :=
  inferInstanceAs (Decidable (_ ∧ _ ∧ _))

theorem OrderBook.WF.orderId_ne_zero {b : OrderBook} (wf : b.WF) {id : Nat}
    (rests : (b.findOrder id).isSome = true) : id ≠ invalidOrderId := by
  obtain ⟨o, found⟩ := Option.isSome_iff_exists.mp rests
  obtain ⟨member, rfl⟩ := (OrderBook.findOrder_eq_some wf).mp found
  exact OrderBook.orderId_ne_invalid wf member

namespace ReplayEngine

theorem step_book {s : ReplayStream} {event : MarketDataEvent} :
    (s.step event).1.engine.book = s.engine.book ∨
      s.engine.validateEventBeforeApply event = none ∧
        (s.step event).1.engine.book = s.bookAfter event := by
  rcases s.step_spec event with ⟨-, -, -, book⟩ | ⟨accepts, -, -, book⟩
  · by_cases reached : s.Reached event
    · rw [if_pos reached] at book
      exact Or.inr ⟨reached.2, book⟩
    · rw [if_neg reached] at book
      exact Or.inl book
  · exact Or.inr ⟨accepts.1.2, book⟩

theorem Reachable.wf {symbolId : Nat} {config : ReplayConfig} {engine : ReplayEngine}
    (reachable : Reachable symbolId config engine) : engine.book.WF := by
  induction reachable with
  | new => exact OrderBook.new_wf symbolId
  | @step s event _ ih =>
    rcases @step_book s event with same | ⟨valid, applied⟩
    · exact same ▸ ih
    · exact applied ▸ (ReplayStream.bookAfter_wf ih valid).1

section Complete
variable {engine : ReplayEngine} {event : MarketDataEvent} (wf : engine.book.WF)
include wf

/-- An event that passes the checks is refused by the book exactly where it repeats an order. -/
theorem refused_iff (valid : engine.validateEventBeforeApply event = none) :
    (applyToBook engine.book event).2 ≠ none ↔ RepeatsResting engine.book event := by
  have done := (applyToBook_outcome wf (validated valid)).done
  constructor
  · intro refused
    by_contra new
    have served : (Queues.apply engine.book.queue engine.book.symbolId event).isSome = true := by
      apply apply_isSome wf (validated valid)
      intro snapshot later _
      by_contra rests
      exact new ⟨snapshot, later, Option.isSome_iff_ne_none.mpr rests⟩
    rw [served] at done
    exact refused (Option.isNone_iff_eq_none.mp done)
  · rintro ⟨snapshot, later, rests⟩
    have added := OrderBook.addOrder_refused (b := engine.book) (o := event.order)
      (Or.inr (Or.inr (Option.isSome_iff_ne_none.mp rests)))
    simp [applyToBook, snapshot, later, wf.orderId_ne_zero rests, added]

theorem repeats_unchanged (repeats : RepeatsResting engine.book event) :
    (applyToBook engine.book event).1 = engine.book := by
  obtain ⟨snapshot, later, rests⟩ := repeats
  have added := OrderBook.addOrder_refused (b := engine.book) (o := event.order)
    (Or.inr (Or.inr (Option.isSome_iff_ne_none.mp rests)))
  simp [applyToBook, snapshot, later, wf.orderId_ne_zero rests, added]

end Complete

/-- On the book of a reachable engine, an event that passes the checks is applied unless it is a
record that repeats a resting order, and neither an event that fails them nor such a record
changes the book. -/
theorem validation_complete {symbolId : Nat} {config : ReplayConfig} {engine : ReplayEngine}
    (reachable : Reachable symbolId config engine) (event : MarketDataEvent) :
    (engine.validateEventBeforeApply event = none →
      ((applyToBook engine.book event).2 = none ↔ ¬ RepeatsResting engine.book event)) ∧
    (RepeatsResting engine.book event → (applyToBook engine.book event).1 = engine.book) ∧
    ∀ state result,
      engine.validateEventBeforeApply event ≠ none ∨ RepeatsResting engine.book event →
      ((ReplayStream.mk engine state result).step event).1.engine.book = engine.book := by
  have wf := reachable.wf
  refine ⟨fun valid => ?_, repeats_unchanged wf, fun state result failed => ?_⟩
  · rw [← refused_iff wf valid, not_not]
  · rcases @step_book ⟨engine, state, result⟩ event with same | ⟨valid, applied⟩
    · exact same
    · rcases failed with invalid | repeats
      · exact absurd valid invalid
      · exact applied.trans (repeats_unchanged wf repeats)

def firstBid : MarketDataEvent :=
  { sequenceNumber := 1, symbolId := 1, eventType := .add, side := .buy, priceTicks := 100
    quantity := 5, orderId := 7 }

/-- The record of a resting order passes the checks, is refused, and changes nothing. -/
theorem validation_complete_repeated_record :
    let engine := ((ReplayStream.mk (.new 1 {}) {} {}).step firstBid).1.engine
    let record := { firstBid with eventType := .snapshot }
    engine.validateEventBeforeApply record = none ∧
      (applyToBook engine.book record).2 ≠ none ∧
      (applyToBook engine.book record).1 = engine.book := by
  intro engine record
  have start : Reachable 1 {} (ReplayStream.mk (.new 1 {}) {} {}).engine := .new
  have law := validation_complete (.step firstBid start) record
  have valid : engine.validateEventBeforeApply record = none := by decide
  have repeats : RepeatsResting engine.book record := by decide
  exact ⟨valid, fun applied => (law.1 valid).mp applied repeats, law.2.1 repeats⟩

end ReplayEngine
end Asterion
