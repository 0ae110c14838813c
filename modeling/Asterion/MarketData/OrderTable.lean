import Asterion.Book.PriceTimeMap
import Asterion.MarketData.ReplayParity
import Asterion.MarketData.SyntheticGenerator

/-! Streams that a replay serves to their end, stated without books: what each event asks of a table
of the live orders, with prices that keep to their side of a middle. -/
namespace Asterion
open Lib Lib.StoppingLoop

/-- What is known of a live order. -/
structure Quote where
  side : Side
  priceTicks : Int
  quantity : Int
  deriving DecidableEq, Repr

def Order.quote (order : Order) : Quote := ⟨order.side, order.priceTicks, order.quantity⟩

abbrev OrderTable := Nat → Option Quote

def MarketDataEvent.entry (event : MarketDataEvent) : LifecycleEntry :=
  ⟨event.eventType, event.side, event.priceTicks, event.quantity, event.orderId, event.tradeId⟩

def OwnSide (middle : Int) (side : Side) (priceTicks : Int) : Prop :=
  0 < priceTicks ∧ (side = .buy ∧ priceTicks ≤ middle ∨ side = .sell ∧ middle < priceTicks)

theorem OwnSide.valid {middle priceTicks : Int} {side : Side} (own : OwnSide middle side priceTicks) :
    isValidSide side = true := by
  obtain ⟨-, buy | sell⟩ := own
  · exact congrArg isValidSide buy.1
  · exact congrArg isValidSide sell.1

namespace OrderTable

def empty : OrderTable := fun _ => none

def reduced (quote : Quote) (quantity : Int) : Option Quote :=
  if quote.quantity ≤ quantity then none
  else some { quote with quantity := quote.quantity - quantity }

/-- An event that is allowed on a table, and the table it leaves. -/
inductive Allowed (middle : Int) (t : OrderTable) (e : LifecycleEntry) : OrderTable → Prop
  | add (type : e.eventType = .add) (id : e.orderId ≠ invalidOrderId) (fresh : t e.orderId = none)
      (price : OwnSide middle e.side e.priceTicks) (quantity : 0 < e.quantity) :
      Allowed middle t e (Function.update t e.orderId (some ⟨e.side, e.priceTicks, e.quantity⟩))
  | cancel {quote : Quote} (type : e.eventType = .cancel) (id : e.orderId ≠ invalidOrderId)
      (known : t e.orderId = some quote) (price : 0 ≤ e.priceTicks) (quantity : e.quantity = 0) :
      Allowed middle t e (Function.update t e.orderId none)
  | reduce {quote : Quote} (type : e.eventType = .cancel ∨ e.eventType = .execute)
      (id : e.orderId ≠ invalidOrderId) (known : t e.orderId = some quote) (price : 0 ≤ e.priceTicks)
      (quantity : 0 < e.quantity) (enough : e.quantity ≤ quote.quantity) :
      Allowed middle t e (Function.update t e.orderId (reduced quote e.quantity))
  | replace {quote : Quote} (type : e.eventType = .replace) (id : e.orderId ≠ invalidOrderId)
      (known : t e.orderId = some quote) (side : isValidSide e.side = true)
      (price : OwnSide middle quote.side e.priceTicks) (quantity : 0 < e.quantity) :
      Allowed middle t e (Function.update t e.orderId (some ⟨quote.side, e.priceTicks, e.quantity⟩))
  | trade (type : e.eventType = .trade) (price : 0 < e.priceTicks) (quantity : 0 < e.quantity) :
      Allowed middle t e t
  | heartbeat (type : e.eventType = .heartbeat) (price : 0 ≤ e.priceTicks)
      (quantity : 0 ≤ e.quantity) : Allowed middle t e t

/-- Events that are allowed one after the other. -/
inductive Runs (middle : Int) : OrderTable → List LifecycleEntry → OrderTable → Prop
  | nil (t : OrderTable) : Runs middle t [] t
  | cons {t u v : OrderTable} {e : LifecycleEntry} {es : List LifecycleEntry}
      (first : Allowed middle t e u) (rest : Runs middle u es v) : Runs middle t (e :: es) v

variable {middle : Int} {t u v : OrderTable} {e : LifecycleEntry} {es fs : List LifecycleEntry}

theorem Runs.append (front : Runs middle t es u) (back : Runs middle u fs v) :
    Runs middle t (es ++ fs) v := by
  induction front with
  | nil => exact back
  | cons first _ ih => exact .cons first (ih back)

theorem Runs.front (run : Runs middle t (es ++ fs) v) : ∃ u, Runs middle t es u := by
  induction es generalizing t with
  | nil => exact ⟨t, .nil t⟩
  | cons e es ih =>
    cases run with
    | cons first rest =>
      obtain ⟨u, front⟩ := ih rest
      exact ⟨u, .cons first front⟩

theorem Runs.take (run : Runs middle t es v) (n : Nat) : ∃ u, Runs middle t (es.take n) u := by
  rw [← List.take_append_drop n es] at run
  exact run.front

/-- Live orders have a quantity left, and prices that keep to their sides. -/
def Apart (middle : Int) (t : OrderTable) : Prop :=
  ∀ id quote, t id = some quote → OwnSide middle quote.side quote.priceTicks ∧ 0 < quote.quantity

theorem apart_empty : Apart middle empty := by
  intro id quote h
  cases h

theorem Apart.update (apart : Apart middle t) (id : Nat) {entry : Option Quote}
    (own : ∀ quote, entry = some quote →
      OwnSide middle quote.side quote.priceTicks ∧ 0 < quote.quantity) :
    Apart middle (Function.update t id entry) := by
  intro j quote h
  by_cases here : j = id
  · subst here
    rw [Function.update_self] at h
    exact own quote h
  · rw [Function.update_of_ne here] at h
    exact apart j quote h

theorem Apart.step (apart : Apart middle t) (allowed : Allowed middle t e u) : Apart middle u := by
  cases allowed with
  | add _ _ _ price quantity =>
    apply apart.update
    rintro quote ⟨⟩
    exact ⟨price, quantity⟩
  | cancel _ _ _ _ _ =>
    apply apart.update
    intro quote h
    cases h
  | @reduce resting _ _ known _ _ _ =>
    apply apart.update
    intro quote h
    obtain ⟨price, -⟩ := apart _ resting known
    unfold reduced at h
    split at h
    · cases h
    · obtain rfl := Option.some.inj h
      refine ⟨price, ?_⟩
      change 0 < resting.quantity - e.quantity
      omega
  | replace _ _ _ _ price quantity =>
    apply apart.update
    rintro quote ⟨⟩
    exact ⟨price, quantity⟩
  | trade _ _ _ => exact apart
  | heartbeat _ _ _ => exact apart

/-- A book with the orders of a table. -/
structure Keeps (b : OrderBook) (t : OrderTable) (m : PriceTimeMap) : Prop where
  book : PriceTimeMap.Represents b m
  quotes : ∀ id, (m.orders.lookup id).map (fun stored => stored.1.quote) = t id

section Book
variable {b : OrderBook} {m : PriceTimeMap}

theorem keeps_new (symbolId : Nat) : Keeps (.new symbolId) empty (.new symbolId) where
  book := PriceTimeMap.new_represents symbolId
  quotes _ := rfl

theorem Keeps.lookup (k : Keeps b t m) {id : Nat} {quote : Quote} (known : t id = some quote) :
    ∃ order stamp, m.orders.lookup id = some (order, stamp) ∧ order.quote = quote ∧
      order.orderId = id ∧ b.findOrder id = some order := by
  have here := k.quotes id
  rw [known] at here
  obtain ⟨⟨order, stamp⟩, stored, same⟩ := Option.map_eq_some_iff.mp here
  refine ⟨order, stamp, stored, same, (k.book.kept.own id order stamp stored).1, ?_⟩
  rw [k.book.findOrder_eq, stored]
  rfl

theorem Keeps.absent (k : Keeps b t m) {id : Nat} (fresh : t id = none) :
    m.orders.lookup id = none ∧ b.findOrder id = none := by
  have here := k.quotes id
  rw [fresh, Option.map_eq_none_iff] at here
  refine ⟨here, ?_⟩
  rw [k.book.findOrder_eq, here]
  rfl

theorem Keeps.uncrossed (k : Keeps b t m) (apart : Apart middle t) : b.Uncrossed := by
  rw [OrderBook.uncrossed_iff k.book.wf]
  have own : ∀ {s : Side} {x : Order}, x ∈ b.queue s → x.side = s ∧ OwnSide middle s x.priceTicks := by
    intro s x hx
    obtain ⟨side, stamp, stored⟩ := (k.book.kept.mem s x).mp hx
    have quoted := k.quotes x.orderId
    rw [stored] at quoted
    have here := (apart x.orderId x.quote quoted.symm).1
    exact ⟨side, side ▸ here⟩
  intro x hx y hy
  obtain ⟨-, -, bid | bid⟩ := own hx
  · obtain ⟨-, -, ask | ask⟩ := own hy
    · exact absurd ask.1 (by decide)
    · omega
  · exact absurd bid.1 (by decide)

theorem Keeps.insert (k : Keeps b t m) (id : Nat) (order : Order) (stamp : Nat) (j : Nat) :
    ((m.orders.insert id (order, stamp)).lookup j).map (fun stored => stored.1.quote) =
      Function.update t id (some order.quote) j := by
  by_cases here : j = id
  · subst here
    rw [Finmap.lookup_insert, Function.update_self]
    rfl
  · rw [Finmap.lookup_insert_of_ne _ here, Function.update_of_ne here]
    exact k.quotes j

theorem Keeps.erase (k : Keeps b t m) (id j : Nat) :
    ((m.orders.erase id).lookup j).map (fun stored => stored.1.quote) =
      Function.update t id none j := by
  by_cases here : j = id
  · subst here
    rw [Finmap.lookup_erase, Function.update_self]
    rfl
  · rw [Finmap.lookup_erase_ne here, Function.update_of_ne here]
    exact k.quotes j

/-- An operation that the map carries out is carried out by the book. -/
theorem Keeps.operation (k : Keeps b t m) (operation : BookOperation) {n : PriceTimeMap}
    (done : m.apply operation = (n, true))
    (quotes : ∀ id, (n.orders.lookup id).map (fun stored => stored.1.quote) = u id) :
    (b.apply operation).2 = true ∧ Keeps (b.apply operation).1 u n := by
  obtain ⟨book, same⟩ := k.book.apply operation
  rw [done] at book same
  exact ⟨same, book, quotes⟩

end Book

section Serving
variable {engine : ReplayEngine} {m : PriceTimeMap} {event : MarketDataEvent}

/-- What the replay does with an allowed event. -/
structure Serves (engine : ReplayEngine) (event : MarketDataEvent) (u : OrderTable) : Prop where
  checked : engine.validateEventBeforeApply event = none
  applied : (ReplayEngine.applyToBook engine.book event).2 = none
  keeps : ∃ n, Keeps (ReplayEngine.applyToBook engine.book event).1 u n

theorem serves_of_operation (k : Keeps engine.book t m) {operation : BookOperation} {reason : String}
    (checked : engine.validateEventBeforeApply event = none)
    (applies : ReplayEngine.applyToBook engine.book event =
      ((engine.book.apply operation).1, if (engine.book.apply operation).2 then none else some reason))
    {n : PriceTimeMap} (done : m.apply operation = (n, true))
    (quotes : ∀ id, (n.orders.lookup id).map (fun stored => stored.1.quote) = u id) :
    Serves engine event u := by
  obtain ⟨ok, keeps⟩ := k.operation operation done quotes
  refine ⟨checked, ?_, n, ?_⟩
  · rw [applies, ok]
    rfl
  · rw [applies]
    exact keeps

section Events
variable (k : Keeps engine.book t m) (symbol : event.symbolId = engine.book.symbolId)
  (valid : event.symbolId ≠ invalidSymbolId)
include k symbol valid

theorem serves_add (type : event.eventType = .add) (id : event.orderId ≠ invalidOrderId)
    (fresh : t event.orderId = none) (price : OwnSide middle event.side event.priceTicks)
    (quantity : 0 < event.quantity) :
    Serves engine event (Function.update t event.orderId (some event.order.quote)) := by
  obtain ⟨absent, unknown⟩ := k.absent fresh
  have side := price.valid
  have resting : isValidRestingOrder event.order = true := by
    simp [isValidRestingOrder, MarketDataEvent.order, id, valid, side, price.1, quantity]
  have checked : engine.validateEventBeforeApply event = none := by
    simp [ReplayEngine.validateEventBeforeApply, type, valid, symbol.symm, id, side,
      isOrderIdRequired, isPriceRequired, isQuantityRequired, unknown, not_le.mpr price.1,
      not_le.mpr quantity]
  have applies : ReplayEngine.applyToBook engine.book event =
      ((engine.book.apply (.add event.order)).1,
        if (engine.book.apply (.add event.order)).2 then none
        else some "failed to apply Add event") := by
    simp only [ReplayEngine.applyToBook, type, OrderBook.apply]
    rfl
  have done : m.apply (.add event.order) = (m.put event.order, true) :=
    if_pos ⟨resting, symbol.trans k.book.symbol, absent⟩
  exact serves_of_operation k checked applies done
    (fun j => k.insert event.orderId event.order m.clock j)

theorem serves_cancel {quote : Quote} (type : event.eventType = .cancel)
    (id : event.orderId ≠ invalidOrderId) (known : t event.orderId = some quote)
    (price : 0 ≤ event.priceTicks) (quantity : event.quantity = 0) (positive : 0 < quote.quantity) :
    Serves engine event (Function.update t event.orderId none) := by
  obtain ⟨order, stamp, stored, same, -, found⟩ := k.lookup known
  have covers : 0 ≤ order.quantity := by
    have here : order.quantity = quote.quantity := congrArg Quote.quantity same
    omega
  have checked : engine.validateEventBeforeApply event = none := by
    simp [ReplayEngine.validateEventBeforeApply, type, valid, symbol.symm, id,
      isOrderIdRequired, isPriceRequired, isQuantityRequired, found, not_lt.mpr price, quantity, covers]
  have applies : ReplayEngine.applyToBook engine.book event =
      ((engine.book.apply (.cancel event.orderId)).1,
        if (engine.book.apply (.cancel event.orderId)).2 then none
        else some "failed to apply Cancel event") := by
    simp only [ReplayEngine.applyToBook, type, OrderBook.apply, quantity, gt_iff_lt, lt_irrefl,
      if_false]
    rfl
  have done : m.apply (.cancel event.orderId) = (m.remove event.orderId, true) := by
    simp only [PriceTimeMap.apply, stored]
  exact serves_of_operation k checked applies done (fun j => k.erase event.orderId j)

theorem serves_reduce {quote : Quote} (type : event.eventType = .cancel ∨ event.eventType = .execute)
    (id : event.orderId ≠ invalidOrderId) (known : t event.orderId = some quote)
    (price : 0 ≤ event.priceTicks) (quantity : 0 < event.quantity)
    (enough : event.quantity ≤ quote.quantity) :
    Serves engine event (Function.update t event.orderId (reduced quote event.quantity)) := by
  obtain ⟨order, stamp, stored, rfl, own, found⟩ := k.lookup known
  have covers : event.quantity ≤ order.quantity := enough
  have checked : engine.validateEventBeforeApply event = none := by
    rcases type with type | type
    · simp [ReplayEngine.validateEventBeforeApply, type, valid, symbol.symm, id,
        isOrderIdRequired, isPriceRequired, isQuantityRequired, found, not_lt.mpr price,
        not_lt.mpr quantity.le, covers]
    · simp [ReplayEngine.validateEventBeforeApply, type, valid, symbol.symm, id,
        isOrderIdRequired, isPriceRequired, isQuantityRequired, found, not_lt.mpr price,
        not_le.mpr quantity, covers]
  obtain ⟨reason, applies⟩ : ∃ reason, ReplayEngine.applyToBook engine.book event =
      ((engine.book.apply (.reduce event.orderId event.quantity)).1,
        if (engine.book.apply (.reduce event.orderId event.quantity)).2 then none
        else some reason) := by
    rcases type with type | type
    · refine ⟨"failed to apply partial Cancel event", ?_⟩
      simp only [ReplayEngine.applyToBook, type, OrderBook.apply, gt_iff_lt, quantity, if_true]
      rfl
    · refine ⟨"failed to apply Execute event", ?_⟩
      simp only [ReplayEngine.applyToBook, type, OrderBook.apply]
      rfl
  by_cases all : order.quantity ≤ event.quantity
  · have done : m.apply (.reduce event.orderId event.quantity) = (m.remove event.orderId, true) := by
      simp only [PriceTimeMap.apply, if_neg (not_le.mpr quantity), stored, if_pos all]
    have left : reduced order.quote event.quantity = none := if_pos all
    rw [left]
    exact serves_of_operation k checked applies done (fun j => k.erase event.orderId j)
  · let part : Order := { order with quantity := order.quantity - event.quantity }
    have done : m.apply (.reduce event.orderId event.quantity) =
        ({ m with orders := m.orders.insert event.orderId (part, stamp) }, true) := by
      simp only [PriceTimeMap.apply, if_neg (not_le.mpr quantity), stored, if_neg all, part]
    have left : reduced order.quote event.quantity =
        some part.quote := if_neg all
    rw [left]
    exact serves_of_operation k checked applies done (fun j => k.insert event.orderId part stamp j)

theorem serves_replace {quote : Quote} (type : event.eventType = .replace)
    (id : event.orderId ≠ invalidOrderId) (known : t event.orderId = some quote)
    (side : isValidSide event.side = true) (price : 0 < event.priceTicks)
    (quantity : 0 < event.quantity) :
    Serves engine event
      (Function.update t event.orderId (some ⟨quote.side, event.priceTicks, event.quantity⟩)) := by
  obtain ⟨order, stamp, stored, rfl, own, found⟩ := k.lookup known
  have checked : engine.validateEventBeforeApply event = none := by
    simp [ReplayEngine.validateEventBeforeApply, type, valid, symbol.symm, id, side,
      isOrderIdRequired, isPriceRequired, isQuantityRequired, found, not_le.mpr price,
      not_le.mpr quantity]
  let operation : BookOperation := .replace event.orderId event.priceTicks event.quantity
    event.timestampNs event.sequenceNumber
  have applies : ReplayEngine.applyToBook engine.book event =
      ((engine.book.apply operation).1, if (engine.book.apply operation).2 then none
        else some "failed to apply Replace event") := by
    simp only [ReplayEngine.applyToBook, type, OrderBook.apply, operation]
    rfl
  have possible : ¬ (event.priceTicks ≤ 0 ∨ event.quantity ≤ 0) := by omega
  have done : m.apply operation = (m.put { order with
      priceTicks := event.priceTicks, quantity := event.quantity
      timestampNs := event.timestampNs, sequenceNumber := event.sequenceNumber }, true) := by
    simp only [PriceTimeMap.apply, operation, if_neg possible, stored]
  rw [← own]
  exact serves_of_operation k checked applies done (fun j => k.insert order.orderId _ m.clock j)

omit symbol valid in
theorem serves_idle (checked : engine.validateEventBeforeApply event = none)
    (type : event.eventType = .trade ∨ event.eventType = .heartbeat) : Serves engine event t := by
  have applies : ReplayEngine.applyToBook engine.book event = (engine.book, none) := by
    rcases type with type | type
    · simp only [ReplayEngine.applyToBook, type]
    · simp only [ReplayEngine.applyToBook, type]
  refine ⟨checked, ?_, m, ?_⟩
  · rw [applies]
  · rw [applies]
    exact k

end Events

theorem Keeps.serves (k : Keeps engine.book t m) (apart : Apart middle t)
    (symbol : event.symbolId = engine.book.symbolId) (valid : event.symbolId ≠ invalidSymbolId)
    (allowed : Allowed middle t event.entry u) :
    Serves engine event u := by
  cases allowed with
  | add type id fresh price quantity =>
    exact serves_add k symbol valid type id fresh price quantity
  | cancel type id known price quantity =>
    exact serves_cancel k symbol valid type id known price quantity (apart _ _ known).2
  | reduce type id known price quantity enough =>
    exact serves_reduce k symbol valid type id known price quantity enough
  | replace type id known side price quantity =>
    exact serves_replace k symbol valid type id known side price.1 quantity
  | trade type price quantity =>
    change event.eventType = .trade at type
    change 0 < event.priceTicks at price
    change 0 < event.quantity at quantity
    have checked : engine.validateEventBeforeApply event = none := by
      simp [ReplayEngine.validateEventBeforeApply, type, valid, symbol.symm, isOrderIdRequired,
        isPriceRequired, isQuantityRequired, not_le.mpr price, not_le.mpr quantity]
    exact serves_idle k checked (Or.inl type)
  | heartbeat type price quantity =>
    change event.eventType = .heartbeat at type
    change 0 ≤ event.priceTicks at price
    change 0 ≤ event.quantity at quantity
    have checked : engine.validateEventBeforeApply event = none := by
      simp [ReplayEngine.validateEventBeforeApply, type, valid, symbol.symm, isOrderIdRequired,
        isPriceRequired, isQuantityRequired, not_lt.mpr price, not_lt.mpr quantity]
    exact serves_idle k checked (Or.inr type)

end Serving

end OrderTable

/-- An event that may follow another in a replay. -/
def InSequence (config : ReplayConfig) (a b : MarketDataEvent) : Prop :=
  a.timestampNs ≤ b.timestampNs ∧
    (config.validateSequenceNumbers = true → b.sequenceNumber = nextSequence a.sequenceNumber)

namespace ReplayStream
variable {s : ReplayStream} {event next : MarketDataEvent}

/-- The event is in order for the stream. -/
structure Awaits (s : ReplayStream) (event : MarketDataEvent) : Prop where
  timestamp : s.engine.config.validateTimestamps = true → s.state.hasLastTimestamp = true →
    s.state.lastTimestamp ≤ event.timestampNs
  sequence : s.engine.config.validateSequenceNumbers = true →
    s.state.expectedSequence = 0 ∨ s.state.expectedSequence = event.sequenceNumber

def ordered (s : ReplayStream) (event : MarketDataEvent) : ReplayStreamState :=
  let state :=
    if s.engine.config.validateSequenceNumbers then
      { s.state with expectedSequence := nextSequence event.sequenceNumber }
    else s.state
  if s.engine.config.validateTimestamps then
    { state with lastTimestamp := event.timestampNs, hasLastTimestamp := true }
  else state

theorem Awaits.checkSequence (awaits : s.Awaits event) :
    s.checkSequence event =
      ({ s with state :=
          if s.engine.config.validateSequenceNumbers then
            { s.state with expectedSequence := nextSequence event.sequenceNumber }
          else s.state }, true) := by
  unfold ReplayStream.checkSequence
  cases on : s.engine.config.validateSequenceNumbers with
  | false => rfl
  | true =>
    have expected : (if s.state.expectedSequence = 0 then event.sequenceNumber
        else s.state.expectedSequence) = event.sequenceNumber := by
      rcases awaits.sequence on with unset | same
      · rw [if_pos unset]
      · rw [same, ite_self]
    simp only [Bool.not_true, Bool.false_eq_true, if_false, expected, ne_eq, not_true_eq_false,
      if_true]

theorem Awaits.checks (awaits : s.Awaits event) :
    s.InOrder event ∧ s.step event = { s with state := s.ordered event }.applyStep event := by
  have sequence := awaits.checkSequence
  obtain ⟨t, state⟩ : ∃ t, t = { s with state :=
    if s.engine.config.validateSequenceNumbers then
      { s.state with expectedSequence := nextSequence event.sequenceNumber }
    else s.state } := ⟨_, rfl⟩
  have stamps : t.state.hasLastTimestamp = s.state.hasLastTimestamp ∧
      t.state.lastTimestamp = s.state.lastTimestamp := by
    rw [state]
    dsimp only
    split
    · exact ⟨rfl, rfl⟩
    · exact ⟨rfl, rfl⟩
  have engine : t.engine = s.engine := by
    rw [state]
  have timestamp : t.checkTimestamp event = ({ s with state := s.ordered event }, true) := by
    unfold checkTimestamp ordered
    rw [engine, stamps.1, stamps.2]
    cases on : s.engine.config.validateTimestamps with
    | false =>
      rw [state]
      rfl
    | true =>
      have inOrder : ¬ (s.state.hasLastTimestamp = true ∧
          event.timestampNs < s.state.lastTimestamp) := by
        rintro ⟨seen, less⟩
        have le := awaits.timestamp on seen
        omega
      simp only [Bool.not_true, Bool.false_eq_true, if_false, if_neg inOrder, if_true]
      rw [state]
  rw [← state] at sequence
  constructor
  · rw [InOrder, sequence]
    exact ⟨rfl, by rw [timestamp]⟩
  · simp only [step, sequence, timestamp]

theorem applyStep_state (on : (s.applyStep event).2 = true) :
    (s.applyStep event).1.state = { s.state with eventIndex := s.state.eventIndex + 1 } := by
  unfold applyStep at on ⊢
  split
  · rename_i refused
    rw [refused] at on
    cases on
  · rename_i passed
    rw [passed] at on
    dsimp only at on
    split
    · rename_i stopped
      rw [stopped] at on
      cases on
    · rfl

/-- After an event that is served the stream awaits what may follow it. -/
theorem Awaits.follow (awaits : s.Awaits event) (on : (s.step event).2 = true)
    (follows : InSequence s.engine.config event next) : (s.step event).1.Awaits next := by
  have config := (step_served on).2.1.config
  obtain ⟨-, step⟩ := awaits.checks
  have state : (s.step event).1.state =
      { s.ordered event with eventIndex := (s.ordered event).eventIndex + 1 } := by
    rw [step] at on ⊢
    exact applyStep_state on
  constructor
  · intro validated _
    rw [config] at validated
    rw [state, ordered, validated]
    exact follows.1
  · intro validated
    rw [config] at validated
    rw [state, ordered, validated, follows.2 validated]
    right
    dsimp only
    split
    · rfl
    · rfl

theorem awaits_start (symbolId : Nat) (config : ReplayConfig) (log : List MarketDataEvent) :
    (stream0 symbolId config log).Awaits event :=
  { timestamp := fun _ seen => absurd seen Bool.false_ne_true
    sequence := fun _ => Or.inl rfl }

/-- A stream goes through events that are in sequence and allowed one after the other. -/
theorem loop_runs {middle : Int} {s : ReplayStream} {t u : OrderTable} {m : PriceTimeMap}
    {events : List MarketDataEvent} (supported : s.engine.config.Supported)
    (keeps : OrderTable.Keeps s.engine.book t m) (apart : OrderTable.Apart middle t)
    (valid : s.engine.book.symbolId ≠ invalidSymbolId)
    (symbols : ∀ event ∈ events, event.symbolId = s.engine.book.symbolId)
    (chain : events.IsChain (InSequence s.engine.config)) (first : ∀ event ∈ events.head?, s.Awaits event)
    (runs : OrderTable.Runs middle t (events.map MarketDataEvent.entry) u) :
    (loop step s events).2 = true := by
  induction events generalizing s t m with
  | nil => rfl
  | cons event events ih =>
    cases runs with
    | @cons _ v _ _ _ allowed rest =>
    have symbol := symbols event List.mem_cons_self
    have awaits := first event rfl
    obtain ⟨checked, applied, n, keeps'⟩ := keeps.serves apart symbol (symbol ▸ valid) allowed
    have apart' := apart.step allowed
    have after : { s.engine with book := s.bookAfter event }.validateBookAfterApply = none := by
      rw [ReplayEngine.validateBookAfterApply_eq ⟨s.engine.config, s.bookAfter event⟩ keeps'.book.wf
        supported]
      split
      · exact validateTopOfBook_eq_none.mpr (keeps'.uncrossed apart')
      · rfl
    have accepts : s.Accepts event := ⟨⟨awaits.checks.1, checked⟩, applied, after⟩
    rcases s.step_spec event with ⟨refused, -⟩ | ⟨-, on, served, book⟩
    · exact absurd accepts refused
    have same : (s.step event).1.engine.book.symbolId = s.engine.book.symbolId := by
      rw [book]
      exact (bookAfter_wf keeps.book.wf checked).2
    rw [loop_cons_on on]
    apply ih
    · rw [served.config]
      exact supported
    · rw [book]
      exact keeps'
    · exact apart'
    · rw [same]
      exact valid
    · intro later hl
      rw [same]
      exact symbols later (List.mem_cons_of_mem _ hl)
    · rw [served.config]
      exact chain.tail
    · intro later hl
      obtain ⟨others, rfl⟩ := List.head?_eq_some_iff.mp hl
      exact awaits.follow on chain.rel
    · exact rest

end ReplayStream

/-- A summary without a complaint. -/
structure SymbolReplaySummary.Clean (summary : SymbolReplaySummary) : Prop where
  diagnostics : summary.diagnostics = []
  diagnosticCount : summary.diagnosticCount = 0
  diagnosticErrorCount : summary.diagnosticErrorCount = 0
  diagnosticWarningCount : summary.diagnosticWarningCount = 0
  sequenceValid : summary.sequenceValid = true
  error : summary.error = ""

section Grouped
variable {config : AggregateReplayConfig} {middle : Int} {t : OrderTable}
  {events : List MarketDataEvent}

theorem groupedSummary_clean (supported : (groupedConfig config).Supported) {symbolId : Nat}
    (valid : symbolId ≠ invalidSymbolId) (symbols : ∀ event ∈ events, event.symbolId = symbolId)
    (chain : events.IsChain (InSequence (groupedConfig config)))
    (runs : OrderTable.Runs middle .empty (events.map MarketDataEvent.entry) t) :
    (groupedSummary config symbolId events).Clean := by
  have on : (loop ReplayStream.step (stream0 symbolId (groupedConfig config) events)
      events).2 = true :=
    ReplayStream.loop_runs supported (OrderTable.keeps_new symbolId) OrderTable.apart_empty valid
      symbols chain (fun _ _ => ReplayStream.awaits_start symbolId (groupedConfig config) events) runs
  have running := ReplayStream.running_loop
    (ReplayStream.running_start symbolId (groupedConfig config) events) events on
  have result := replayEvents_eq symbolId (groupedConfig config) events
  unfold groupedSummary
  rw [result]
  exact ⟨running.clean, congrArg List.length running.clean, running.silent.2.1, running.silent.2.2,
    running.valid, running.silent.1⟩

theorem replayBySymbol_clean (supported : (groupedConfig config).Supported)
    (valid : ∀ event ∈ events, event.symbolId ≠ invalidSymbolId)
    (chain : ∀ symbolId, (events.filter (fun event => event.symbolId = symbolId)).IsChain
      (InSequence (groupedConfig config)))
    (runs : ∀ symbolId, ∃ t, OrderTable.Runs middle .empty
      ((events.filter (fun event => event.symbolId = symbolId)).map MarketDataEvent.entry) t) :
    ∀ summary ∈ (replayBySymbol events config).symbols, summary.Clean := by
  intro summary hs
  obtain ⟨⟨symbolId, group⟩, he, rfl⟩ := List.mem_map.mp hs
  have found := (groupedEvents events).find?_eq_some.mpr he
  rw [find?_groupedEvents] at found
  split at found
  · cases found
  rename_i some
  obtain rfl := Option.some.inj found
  obtain ⟨event, hm⟩ := List.exists_mem_of_ne_nil _ some
  obtain ⟨member, same⟩ := List.mem_filter.mp hm
  obtain ⟨t, run⟩ := runs symbolId
  apply groupedSummary_clean supported _ _ (chain symbolId) run
  · exact of_decide_eq_true same ▸ valid event member
  · intro event hm
    exact of_decide_eq_true (List.mem_filter.mp hm).2

end Grouped

end Asterion
