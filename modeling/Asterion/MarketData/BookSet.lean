import Asterion.Book.PriceTimeMap
import Asterion.Lib.Along
import Asterion.MarketData.ReplayAggregate

/-! What an event that the set of books refuses leaves behind. The set stays consistent; a first
use creates an empty book all the same, and the begin of a snapshot clears the book before its
record is looked at. -/
namespace Asterion
open Lib Lib.Along

namespace OrderBook

theorem clear_eq_self {b : OrderBook} (wf : b.WF) (empty : b.empty = true) : b.clear = b := by
  have index : b.orderIndex.entries = [] := List.isEmpty_iff.mp empty
  have unknown : ∀ id, b.orderIndex.lookup id = none := by
    intro id
    rw [AList.lookup_eq_none, AList.mem_keys, AList.keys, index]
    exact List.not_mem_nil
  have orders : b.resting = [] := by
    apply List.eq_nil_iff_forall_not_mem.mpr
    intro o ho
    have here := lookup_of_mem wf ho
    rw [unknown] at here
    cases here
  have queues : b.clear.queue = b.queue := by
    rw [clear_queue]
    obtain ⟨bids, asks⟩ := List.append_eq_nil_iff.mp orders
    funext side
    cases side with
    | none => rfl
    | buy => exact bids.symm
    | sell => exact asks.symm
  have same := same_of_queue (clear_wf b).1 wf queues rfl
  have entries : (∅ : AList (fun _ : Nat => Locator)) = b.orderIndex := AList.ext index.symm
  obtain ⟨symbolId, bids, asks, orderIndex⟩ := b
  obtain rfl : .empty = bids := same.bids
  obtain rfl : .empty = asks := same.asks
  obtain rfl : ∅ = orderIndex := entries
  rfl

section Refused
variable {b : OrderBook} (wf : b.WF)
include wf

theorem addOrder_kept {order : Order} (refused : (b.addOrder order).2 = false) :
    (b.addOrder order).1 = b := by
  have done := (addOrder_outcome wf order).done
  unfold Queues.add at done
  rw [refused, find_eq wf] at done
  split at done
  · cases done
  · rename_i h
    rw [addOrder_refused]
    by_contra hn
    rw [not_or, not_or, not_not, not_not, Bool.not_eq_false] at hn
    exact h hn

theorem cancelOrder_kept {orderId : Nat} (refused : (b.cancelOrder orderId).2 = false) :
    (b.cancelOrder orderId).1 = b := by
  have done := (cancelOrder_outcome wf orderId).done
  rw [refused, Queues.cancel, find_eq wf] at done
  cases hf : b.findOrder orderId with
  | none => rw [cancelOrder_unknown hf]
  | some o =>
    rw [hf] at done
    cases done

theorem reduceOrder_kept {orderId : Nat} {quantity : Int}
    (refused : (b.reduceOrder orderId quantity).2 = false) :
    (b.reduceOrder orderId quantity).1 = b := by
  have done := (reduceOrder_outcome wf orderId quantity).done
  unfold Queues.reduce at done
  rw [refused, find_eq wf] at done
  split at done
  · rename_i h
    rw [reduceOrder_nonpositive h]
  · cases hf : b.findOrder orderId with
    | none => rw [reduceOrder_unknown hf]
    | some o =>
      rw [hf] at done
      cases done

theorem replaceOrder_kept {orderId sequenceNumber : Nat} {p n ts : Int}
    (refused : (b.replaceOrder orderId p n ts sequenceNumber).2 = false) :
    (b.replaceOrder orderId p n ts sequenceNumber).1 = b := by
  have done := (replaceOrder_outcome wf orderId p n ts sequenceNumber).done
  unfold Queues.replace at done
  rw [refused, find_eq wf] at done
  split at done
  · rename_i h
    rw [replaceOrder_refused (or_assoc.mp (Or.inl h))]
  · cases hf : b.findOrder orderId with
    | none => rw [replaceOrder_refused (Or.inr (Or.inr hf))]
    | some o =>
      rw [hf] at done
      cases done

theorem apply_keeps (operation : BookOperation) :
    (b.apply operation).1.WF ∧ (b.apply operation).1.symbolId = b.symbolId := by
  cases operation with
  | clear => exact ⟨(clear_wf b).1, rfl⟩
  | add order =>
    have outcome := addOrder_outcome wf order
    exact ⟨outcome.wf, outcome.symbol⟩
  | cancel orderId =>
    have outcome := cancelOrder_outcome wf orderId
    exact ⟨outcome.wf, outcome.symbol⟩
  | reduce orderId quantity =>
    have outcome := reduceOrder_outcome wf orderId quantity
    exact ⟨outcome.wf, outcome.symbol⟩
  | replace orderId p n ts sequenceNumber =>
    have outcome := replaceOrder_outcome wf orderId p n ts sequenceNumber
    exact ⟨outcome.wf, outcome.symbol⟩

theorem run_keeps (operations : List BookOperation) :
    (b.run operations).1.WF ∧ (b.run operations).1.symbolId = b.symbolId := by
  induction operations generalizing b with
  | nil => exact ⟨wf, rfl⟩
  | cons operation operations ih =>
    obtain ⟨next, symbol⟩ := apply_keeps wf operation
    obtain ⟨last, symbol'⟩ := ih next
    exact ⟨last, symbol'.trans symbol⟩

end Refused
end OrderBook

namespace MultiSymbolBookSet

section Routing
variable {b : OrderBook} (wf : b.WF) (event : MarketDataEvent)
include wf

theorem applyToBook_keeps :
    (applyToBook b event).1.WF ∧ (applyToBook b event).1.symbolId = b.symbolId := by
  unfold applyToBook
  cases event.eventType with
  | add => exact OrderBook.apply_keeps wf (.add event.order)
  | cancel =>
    dsimp only
    split
    · exact OrderBook.apply_keeps wf (.reduce event.orderId event.quantity)
    · exact OrderBook.apply_keeps wf (.cancel event.orderId)
  | replace =>
    exact OrderBook.apply_keeps wf (.replace event.orderId event.priceTicks event.quantity
      event.timestampNs event.sequenceNumber)
  | execute => exact OrderBook.apply_keeps wf (.reduce event.orderId event.quantity)
  | snapshot =>
    have started : (if event.beginsSnapshot then b.clear else b).WF ∧
        (if event.beginsSnapshot then b.clear else b).symbolId = b.symbolId := by
      split
      · exact ⟨(OrderBook.clear_wf b).1, rfl⟩
      · exact ⟨wf, rfl⟩
    dsimp only
    split
    · obtain ⟨added, symbol⟩ := OrderBook.apply_keeps started.1 (.add event.order)
      exact ⟨added, symbol.trans started.2⟩
    · exact started
  | trade => exact ⟨wf, rfl⟩
  | heartbeat => exact ⟨wf, rfl⟩

/-- A refused event leaves the book alone, or cleared where it begins a snapshot. -/
theorem applyToBook_refused (refused : (applyToBook b event).2 = false) :
    (applyToBook b event).1 =
      if event.eventType = .snapshot ∧ event.beginsSnapshot = true then b.clear else b := by
  unfold applyToBook at refused ⊢
  cases ht : event.eventType with
  | add =>
    rw [ht] at refused
    exact OrderBook.addOrder_kept wf refused
  | cancel =>
    rw [ht] at refused
    dsimp only at refused ⊢
    split at refused
    · rename_i part
      rw [if_pos part]
      exact OrderBook.reduceOrder_kept wf refused
    · rename_i all
      rw [if_neg all]
      exact OrderBook.cancelOrder_kept wf refused
  | replace =>
    rw [ht] at refused
    exact OrderBook.replaceOrder_kept wf refused
  | execute =>
    rw [ht] at refused
    exact OrderBook.reduceOrder_kept wf refused
  | snapshot =>
    rw [ht] at refused
    dsimp only at refused ⊢
    split at refused
    · rename_i known
      rw [if_pos known]
      cases hb : event.beginsSnapshot with
      | false =>
        rw [hb] at refused
        simpa using OrderBook.addOrder_kept wf refused
      | true =>
        rw [hb] at refused
        simpa using OrderBook.addOrder_kept (OrderBook.clear_wf b).1 refused
    · cases refused
  | trade =>
    rw [ht] at refused
    cases refused
  | heartbeat =>
    rw [ht] at refused
    cases refused

end Routing

def contains (set : MultiSymbolBookSet) (symbolId : Nat) : Bool := (set.findBook symbolId).isSome

def bookFor (set : MultiSymbolBookSet) (symbolId : Nat) : MultiSymbolBookSet :=
  ⟨set.books.tryEmplace symbolId (.new symbolId)⟩

def applyAll (set : MultiSymbolBookSet) : List MarketDataEvent → MultiSymbolBookSet × Nat
  | [] => (set, 0)
  | event :: events =>
    let applied := set.apply event
    let rest := applied.1.applyAll events
    (rest.1, if applied.2 then rest.2 + 1 else rest.2)

def accepted (set : MultiSymbolBookSet) : List MarketDataEvent → List MarketDataEvent
  | [] => []
  | event :: events =>
    let applied := set.apply event
    if applied.2 then event :: applied.1.accepted events else applied.1.accepted events

/-- The ways to change a set: an event, or operations through the reference to a book. -/
inductive Call where
  | apply (event : MarketDataEvent)
  | bookFor (symbolId : Nat) (operations : List BookOperation)
  deriving DecidableEq, Repr

def serve (set : MultiSymbolBookSet) : Call → MultiSymbolBookSet
  | .apply event => (set.apply event).1
  | .bookFor symbolId operations =>
    ⟨set.books.upsert symbolId (.new symbolId) (fun book => (book.run operations).1)⟩

def reached (calls : List Call) : MultiSymbolBookSet := calls.foldl serve {}

/-- The book of a symbol; one that is missing is as good as empty. -/
def bookOf (set : MultiSymbolBookSet) (symbolId : Nat) : OrderBook :=
  (set.findBook symbolId).getD (.new symbolId)

def Consistent (set : MultiSymbolBookSet) : Prop :=
  ∀ symbolId, (set.bookOf symbolId).WF ∧ (set.bookOf symbolId).symbolId = symbolId

/-- The event begins a snapshot of a symbol that has orders. -/
def ClearsOrders (set : MultiSymbolBookSet) (event : MarketDataEvent) : Prop :=
  event.eventType = .snapshot ∧ event.beginsSnapshot = true ∧
    (set.bookOf event.symbolId).empty = false

instance (set : MultiSymbolBookSet) (event : MarketDataEvent) :
    Decidable (set.ClearsOrders event) := by
  unfold ClearsOrders
  exact inferInstance

/-- Nothing a reader of the set can see has changed. -/
structure Unchanged (set set' : MultiSymbolBookSet) : Prop where
  symbols : ∀ symbolId, set'.contains symbolId = set.contains symbolId
  orders : ∀ symbolId, (set'.bookOf symbolId).queue = (set.bookOf symbolId).queue
  checksum : set'.combinedChecksum = set.combinedChecksum

theorem ext_findBook {set set' : MultiSymbolBookSet}
    (same : ∀ symbolId, set.findBook symbolId = set'.findBook symbolId) : set = set' := by
  have entries := set.books.map_entries_eq set'.books (fun k v => (k, v)) (fun k v => (k, v))
    (fun symbolId => congrArg (Option.map _) (same symbolId))
  have books : set.books = set'.books := SortedMap.ext (by simpa using entries)
  cases set
  cases set'
  exact congrArg MultiSymbolBookSet.mk books

section Find
variable (set : MultiSymbolBookSet)

theorem findBook_upsert (symbolId other : Nat) (f : OrderBook → OrderBook) :
    findBook ⟨set.books.upsert symbolId (.new symbolId) f⟩ other =
      if other = symbolId then some (f (set.bookOf symbolId)) else set.findBook other := by
  unfold findBook
  split
  · rename_i same
    rw [same, SortedMap.find?_upsert_self]
    rfl
  · rename_i ne
    rw [SortedMap.find?_upsert_ne _ _ _ ne]

theorem findBook_bookFor (symbolId other : Nat) :
    (set.bookFor symbolId).findBook other =
      if other = symbolId then some (set.bookOf symbolId) else set.findBook other := by
  unfold findBook bookFor
  split
  · rename_i same
    rw [same, SortedMap.find?_tryEmplace_self]
    rfl
  · rename_i ne
    rw [SortedMap.find?_tryEmplace_ne _ _ ne]

theorem bookOf_bookFor (symbolId other : Nat) :
    (set.bookFor symbolId).bookOf other = set.bookOf other := by
  rw [bookOf, findBook_bookFor]
  split
  · rename_i same
    rw [same, Option.getD_some]
  · rfl

theorem bookOf_upsert (symbolId other : Nat) (f : OrderBook → OrderBook) :
    bookOf ⟨set.books.upsert symbolId (.new symbolId) f⟩ other =
      if other = symbolId then f (set.bookOf other) else set.bookOf other := by
  rw [bookOf, findBook_upsert]
  split
  · rename_i same
    rw [same, Option.getD_some]
  · rfl

theorem bookFor_of_contains {symbolId : Nat} (present : set.contains symbolId = true) :
    set.bookFor symbolId = set := by
  obtain ⟨book, here⟩ := Option.isSome_iff_exists.mp present
  apply ext_findBook
  intro other
  rw [findBook_bookFor]
  split
  · rename_i same
    rw [same, bookOf, here, Option.getD_some]
  · rfl

theorem contains_bookFor (symbolId other : Nat) :
    (set.bookFor symbolId).contains other = (set.contains other || decide (other = symbolId)) := by
  rw [contains, findBook_bookFor]
  split
  · rename_i same
    simp [same]
  · rename_i ne
    simp [contains, ne]

/-- An event of a known symbol id goes to its book, which exists afterwards. -/
theorem apply_routed {event : MarketDataEvent} (symbol : event.symbolId ≠ invalidSymbolId) :
    set.apply event = (⟨set.books.upsert event.symbolId (.new event.symbolId)
      (fun _ => (applyToBook (set.bookOf event.symbolId) event).1)⟩,
      (applyToBook (set.bookOf event.symbolId) event).2) := by
  rw [apply, if_neg symbol]
  rfl

theorem apply_unrouted {event : MarketDataEvent} (symbol : event.symbolId = invalidSymbolId) :
    set.apply event = (set, false) := if_pos symbol

theorem bookOf_apply (event : MarketDataEvent) (other : Nat) :
    (set.apply event).1.bookOf other =
      if event.symbolId ≠ invalidSymbolId ∧ other = event.symbolId then
        (applyToBook (set.bookOf other) event).1
      else set.bookOf other := by
  by_cases symbol : event.symbolId = invalidSymbolId
  · rw [apply_unrouted set symbol, if_neg (fun h => h.1 symbol)]
  · rw [apply_routed set symbol, bookOf_upsert]
    by_cases same : other = event.symbolId
    · rw [if_pos same, if_pos ⟨symbol, same⟩, same]
    · rw [if_neg same, if_neg (fun h => same h.2)]

end Find

theorem serve_consistent {set : MultiSymbolBookSet} (consistent : set.Consistent) (call : Call) :
    (set.serve call).Consistent := by
  intro symbolId
  obtain ⟨wf, symbol⟩ := consistent symbolId
  cases call with
  | apply event =>
    rw [serve, bookOf_apply]
    split
    · obtain ⟨kept, same⟩ := applyToBook_keeps wf event
      exact ⟨kept, same.trans symbol⟩
    · exact ⟨wf, symbol⟩
  | bookFor other operations =>
    rw [serve, bookOf_upsert]
    split
    · obtain ⟨kept, same⟩ := OrderBook.run_keeps wf operations
      exact ⟨kept, same.trans symbol⟩
    · exact ⟨wf, symbol⟩

theorem reached_consistent (calls : List Call) : (reached calls).Consistent := by
  have start : ({} : MultiSymbolBookSet).Consistent :=
    fun symbolId => ⟨OrderBook.new_wf symbolId, rfl⟩
  have all := @Along.always _ _ serve Consistent {}
    (fun _ call consistent => serve_consistent consistent call) start calls
  exact all.last

section Refusal
variable {set : MultiSymbolBookSet} {event : MarketDataEvent}

/-- All that a refused event leaves behind is an empty book of a new symbol. -/
theorem apply_refused (consistent : set.Consistent) (refused : (set.apply event).2 = false)
    (keeps : ¬ set.ClearsOrders event) :
    (set.apply event).1 =
      if event.symbolId = invalidSymbolId then set else set.bookFor event.symbolId := by
  split
  · rename_i symbol
    rw [apply_unrouted set symbol]
  · rename_i symbol
    have wf := (consistent event.symbolId).1
    rw [apply_routed set symbol] at refused ⊢
    have same : (applyToBook (set.bookOf event.symbolId) event).1 = set.bookOf event.symbolId := by
      rw [applyToBook_refused wf event refused]
      split
      · rename_i begins
        apply OrderBook.clear_eq_self wf
        rw [← Bool.not_eq_false]
        exact fun orders => keeps ⟨begins.1, begins.2, orders⟩
      · rfl
    apply ext_findBook
    intro other
    rw [findBook_upsert, findBook_bookFor, same]

theorem bookOf_refused (consistent : set.Consistent) (refused : (set.apply event).2 = false)
    (keeps : ¬ set.ClearsOrders event) (symbolId : Nat) :
    (set.apply event).1.bookOf symbolId = set.bookOf symbolId := by
  rw [apply_refused consistent refused keeps]
  split
  · rfl
  · exact bookOf_bookFor ..

/-- A symbol the set did not have is now present with an empty book. -/
theorem findBook_refused (consistent : set.Consistent) (refused : (set.apply event).2 = false)
    (keeps : ¬ set.ClearsOrders event) (symbol : event.symbolId ≠ invalidSymbolId)
    (absent : set.contains event.symbolId = false) :
    (set.apply event).1.findBook event.symbolId = some (.new event.symbolId) := by
  have missing : set.findBook event.symbolId = none :=
    Option.isNone_iff_eq_none.mp (Option.isSome_eq_false_iff.mp absent)
  rw [apply_refused consistent refused keeps, if_neg symbol, findBook_bookFor, if_pos rfl, bookOf,
    missing]
  rfl

theorem unchanged_iff (consistent : set.Consistent) (refused : (set.apply event).2 = false)
    (keeps : ¬ set.ClearsOrders event) :
    Unchanged set (set.apply event).1 ↔
      event.symbolId = invalidSymbolId ∨ set.contains event.symbolId = true := by
  rw [apply_refused consistent refused keeps]
  constructor
  · intro unchanged
    have symbols := unchanged.symbols event.symbolId
    split at symbols
    · rename_i symbol
      exact .inl symbol
    · rw [contains_bookFor] at symbols
      right
      simpa using symbols
  · intro known
    have same : (if event.symbolId = invalidSymbolId then set else set.bookFor event.symbolId) =
        set := by
      split
      · rfl
      · rename_i symbol
        exact bookFor_of_contains set (known.resolve_left symbol)
    rw [same]
    exact ⟨fun _ => rfl, fun _ => rfl, rfl⟩

end Refusal

section Runs
variable {set set' : MultiSymbolBookSet} {events : List MarketDataEvent}

def route (set : MultiSymbolBookSet) (event : MarketDataEvent) : MultiSymbolBookSet :=
  (set.apply event).1

theorem apply_consistent (consistent : set.Consistent) (event : MarketDataEvent) :
    (set.route event).Consistent := serve_consistent consistent (.apply event)

theorem apply_congr (same : ∀ symbolId, set.bookOf symbolId = set'.bookOf symbolId)
    (event : MarketDataEvent) :
    (set.apply event).2 = (set'.apply event).2 ∧
      ∀ symbolId, (set.route event).bookOf symbolId = (set'.route event).bookOf symbolId := by
  constructor
  · by_cases symbol : event.symbolId = invalidSymbolId
    · rw [apply_unrouted set symbol, apply_unrouted set' symbol]
    · rw [apply_routed set symbol, apply_routed set' symbol, same]
  · intro symbolId
    rw [route, route, bookOf_apply, bookOf_apply, same]

theorem applyAll_books (consistent : set.Consistent)
    (same : ∀ symbolId, set.bookOf symbolId = set'.bookOf symbolId)
    (keeps : Each route (fun set event => (set.apply event).2 = false → ¬ set.ClearsOrders event)
      set events) :
    (∀ symbolId, (set.applyAll events).1.bookOf symbolId =
      (set'.applyAll (set.accepted events)).1.bookOf symbolId) ∧
    (set'.applyAll (set.accepted events)).2 = (set.accepted events).length := by
  induction events generalizing set set' with
  | nil => exact ⟨same, rfl⟩
  | cons event events ih =>
    obtain ⟨first, rest⟩ := keeps
    have next := apply_consistent consistent event
    obtain ⟨answer, books⟩ := apply_congr same event
    simp only [applyAll, accepted]
    cases done : (set.apply event).2 with
    | true =>
      obtain ⟨books', count⟩ := ih next books rest
      rw [done] at answer
      simp only [if_true, applyAll, ← answer]
      exact ⟨books', by rw [List.length_cons]; exact congrArg (· + 1) count⟩
    | false =>
      have skip : ∀ symbolId, (set.route event).bookOf symbolId = set'.bookOf symbolId :=
        fun symbolId => (bookOf_refused consistent done (first done) symbolId).trans (same symbolId)
      exact ih next skip rest

theorem applyAll_eq (consistent : set.Consistent)
    (keeps : Each route (fun set event => (set.apply event).2 = false → ¬ set.ClearsOrders event)
      set events)
    (known : Each route (fun set event => (set.apply event).2 = false →
      event.symbolId = invalidSymbolId ∨ set.contains event.symbolId = true) set events) :
    (set.applyAll events).1 = (set.applyAll (set.accepted events)).1 := by
  induction events generalizing set with
  | nil => rfl
  | cons event events ih =>
    have next := ih (apply_consistent consistent event) keeps.2 known.2
    simp only [applyAll, accepted]
    cases done : (set.apply event).2 with
    | true => exact next
    | false =>
      have same : (set.apply event).1 = set := by
        rw [apply_refused consistent done (keeps.1 done)]
        split
        · rfl
        · rename_i symbol
          exact bookFor_of_contains set ((known.1 done).resolve_left symbol)
      rw [route, same] at next
      simpa [same] using next

end Runs

/-- A refused event that does not clear the orders of its symbol leaves every book as it was. It
changes the set exactly if it is the first use of its symbol, which is then present with an
empty book. What a stream leaves is what its applied events leave. -/
theorem refused_atomic (calls : List Call) :
    (∀ event, ((reached calls).apply event).2 = false → ¬ (reached calls).ClearsOrders event →
      (∀ symbolId, ((reached calls).apply event).1.bookOf symbolId =
        (reached calls).bookOf symbolId) ∧
      (Unchanged (reached calls) ((reached calls).apply event).1 ↔
        event.symbolId = invalidSymbolId ∨ (reached calls).contains event.symbolId = true) ∧
      (event.symbolId ≠ invalidSymbolId → (reached calls).contains event.symbolId = false →
        ((reached calls).apply event).1.findBook event.symbolId = some (.new event.symbolId))) ∧
    (∀ events, Each route
        (fun set event => (set.apply event).2 = false → ¬ set.ClearsOrders event)
        (reached calls) events →
      ((reached calls).applyAll ((reached calls).accepted events)).2 =
        ((reached calls).accepted events).length ∧
      (∀ symbolId, ((reached calls).applyAll events).1.bookOf symbolId =
        ((reached calls).applyAll ((reached calls).accepted events)).1.bookOf symbolId) ∧
      (Each route (fun set event => (set.apply event).2 = false →
          event.symbolId = invalidSymbolId ∨ set.contains event.symbolId = true)
          (reached calls) events →
        ((reached calls).applyAll events).1 =
          ((reached calls).applyAll ((reached calls).accepted events)).1)) := by
  have consistent := reached_consistent calls
  constructor
  · intro event refused keeps
    exact ⟨bookOf_refused consistent refused keeps, unchanged_iff consistent refused keeps,
      findBook_refused consistent refused keeps⟩
  · intro events keeps
    obtain ⟨books, count⟩ := applyAll_books consistent (fun _ => rfl) keeps
    exact ⟨count, books, applyAll_eq consistent keeps⟩

def bid (orderId : Nat) (priceTicks : Int) : MarketDataEvent :=
  { eventType := .add, symbolId := 1, orderId, side := .buy, priceTicks, quantity := 10 }

def unknownCancel : MarketDataEvent := { eventType := .cancel, symbolId := 1, orderId := 9 }

/-- A duplicate order and an unknown cancel, both of a present symbol. -/
theorem refused_atomic_duplicate :
    ((reached [.apply (bid 7 100)]).applyAll [bid 7 101, unknownCancel, bid 8 99]).1 =
      ((reached [.apply (bid 7 100)]).applyAll [bid 8 99]).1 ∧
    Unchanged (reached [.apply (bid 7 100)]) ((reached [.apply (bid 7 100)]).apply (bid 7 101)).1 := by
  have law := refused_atomic [.apply (bid 7 100)]
  constructor
  · have run := law.2 [bid 7 101, unknownCancel, bid 8 99] (by decide)
    exact run.2.2 (by decide)
  · exact (law.1 (bid 7 101) (by decide) (by decide)).2.1.mpr (by decide)

def priceless : MarketDataEvent :=
  { eventType := .snapshot, symbolId := 1, orderId := 9, flags := snapshotBeginFlag }

/-- A refused cancel of a new symbol leaves its book behind, and a refused record of a new snapshot
takes the orders with it. -/
theorem refused_not_atomic :
    (((reached []).apply unknownCancel).2 = false ∧ (reached []).contains 1 = false ∧
      ((reached []).apply unknownCancel).1.contains 1 = true) ∧
    (((reached [.apply (bid 7 100)]).apply priceless).2 = false ∧
      ((reached [.apply (bid 7 100)]).bookOf 1).bestBid = some 100 ∧
      (((reached [.apply (bid 7 100)]).apply priceless).1.bookOf 1).bestBid = none) := by
  decide

end MultiSymbolBookSet
end Asterion
