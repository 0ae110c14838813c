import Asterion.Core.Checksum
import Asterion.Lib.Buckets

/-! The default order book: two sorted maps from price to a level holding a FIFO list of
orders, and an index from order id to the place of the order. A list iterator is
represented by the id of the order in its node. -/
namespace Asterion

open Lib

structure Order where
  orderId : Nat := invalidOrderId
  clientOrderId : Nat := invalidClientOrderId
  symbolId : Nat := invalidSymbolId
  side : Side := .none
  priceTicks : Int := 0
  quantity : Int := 0
  timestampNs : Int := 0
  sequenceNumber : Nat := 0
  deriving DecidableEq, Repr, Inhabited

def isValidRestingOrder (order : Order) : Bool :=
  order.orderId != invalidOrderId && order.symbolId != invalidSymbolId && isValidSide order.side &&
    decide (order.priceTicks > 0) && decide (order.quantity > 0)

structure PriceLevel where
  priceTicks : Int := 0
  totalQuantity : Int := 0
  orders : List Order := []
  deriving DecidableEq, Repr

structure L2Level where
  priceTicks : Int := 0
  quantity : Int := 0
  deriving DecidableEq, Repr

structure L2View where
  symbolId : Nat := invalidSymbolId
  bids : List L2Level := []
  asks : List L2Level := []
  deriving DecidableEq, Repr

structure BookInvariantReport where
  ok : Bool := true
  violations : List String := []
  deriving DecidableEq, Repr

def addViolation (report : BookInvariantReport) (message : String) : BookInvariantReport :=
  { ok := false, violations := report.violations ++ [message] }

def violationIf (bad : Prop) [Decidable bad] (message : String) (report : BookInvariantReport) :
    BookInvariantReport :=
  if bad then addViolation report message else report

/-- The order in which a side's price map is iterated: best price first. -/
def before : Side → Int → Int → Prop
  | .buy => (· > ·)
  | _ => (· < ·)

instance (side : Side) : DecidableRel (before side) := fun a b => by
  cases side <;> exact inferInstanceAs (Decidable (_ < _))

instance (side : Side) : IsStrictTotalOrder Int (before side) := by
  cases side
  · exact inferInstanceAs (IsStrictTotalOrder Int (· < ·))
  · exact inferInstanceAs (IsStrictTotalOrder Int (· > ·))
  · exact inferInstanceAs (IsStrictTotalOrder Int (· < ·))

@[simp] theorem before_buy (p q : Int) : before .buy p q ↔ q < p := Iff.rfl
@[simp] theorem before_sell (p q : Int) : before .sell p q ↔ p < q := Iff.rfl

/-- An entry of the order index. -/
structure Locator where
  side : Side := .none
  priceTicks : Int := 0
  iterator : Nat
  deriving DecidableEq, Repr

structure OrderBook where
  symbolId : Nat
  bids : SortedMap (before .buy) PriceLevel
  asks : SortedMap (before .sell) PriceLevel
  orderIndex : AList (fun _ : Nat => Locator)

namespace OrderBook

def new (symbolId : Nat) : OrderBook := ⟨symbolId, .empty, .empty, ∅⟩

def empty (b : OrderBook) : Bool := b.orderIndex.entries.isEmpty
def orderCount (b : OrderBook) : Nat := b.orderIndex.entries.length

def clear (b : OrderBook) : OrderBook := { b with bids := .empty, asks := .empty, orderIndex := ∅ }

def levels (b : OrderBook) : Side → List (Int × PriceLevel)
  | .buy => b.bids.entries
  | .sell => b.asks.entries
  | .none => []

/-- The book after the level has been created where it was missing; `none` is the null
pointer. -/
def mutableLevel (b : OrderBook) (side : Side) (priceTicks : Int) : Option OrderBook :=
  match side with
  | .buy => some { b with bids := b.bids.tryEmplace priceTicks {} }
  | .sell => some { b with asks := b.asks.tryEmplace priceTicks {} }
  | .none => none

def updateLevel (b : OrderBook) (side : Side) (priceTicks : Int)
    (write : PriceLevel → PriceLevel) : OrderBook :=
  match side with
  | .buy => { b with bids := b.bids.modify priceTicks write }
  | .sell => { b with asks := b.asks.modify priceTicks write }
  | .none => b

def level (b : OrderBook) (side : Side) (priceTicks : Int) : Option PriceLevel :=
  match side with
  | .buy => b.bids.find? priceTicks
  | .sell => b.asks.find? priceTicks
  | .none => none

def eraseLevelIfEmpty (b : OrderBook) (side : Side) (priceTicks : Int) : OrderBook :=
  match b.level side priceTicks with
  | none => b
  | some priceLevel =>
    if priceLevel.orders.isEmpty then
      match side with
      | .buy => { b with bids := b.bids.erase priceTicks }
      | .sell => { b with asks := b.asks.erase priceTicks }
      | .none => b
    else b

def deref (b : OrderBook) (locator : Locator) : Order :=
  ((b.level locator.side locator.priceTicks).bind
    (fun priceLevel => priceLevel.orders.find? (fun o => o.orderId = locator.iterator))).getD {}

def addOrder (b : OrderBook) (order : Order) : OrderBook × Bool :=
  if !isValidRestingOrder order || order.symbolId != b.symbolId then (b, false)
  else if (b.orderIndex.lookup order.orderId).isSome then (b, false)
  else
    match b.mutableLevel order.side order.priceTicks with
    | none => (b, false)
    | some b =>
      let b := b.updateLevel order.side order.priceTicks fun priceLevel =>
        { priceTicks := order.priceTicks
          totalQuantity := priceLevel.totalQuantity + order.quantity
          orders := priceLevel.orders ++ [order] }
      let locator := ⟨order.side, order.priceTicks, order.orderId⟩
      ({ b with orderIndex := b.orderIndex.insert order.orderId locator }, true)

def cancelOrder (b : OrderBook) (orderId : Nat) : OrderBook × Bool :=
  match b.orderIndex.lookup orderId with
  | none => (b, false)
  | some locator =>
    match b.mutableLevel locator.side locator.priceTicks with
    | none => (b, false)
    | some b =>
      let quantity := (b.deref locator).quantity
      let b := b.updateLevel locator.side locator.priceTicks fun priceLevel =>
        { priceLevel with
          totalQuantity := priceLevel.totalQuantity - quantity
          orders := priceLevel.orders.filter (fun o => o.orderId ≠ locator.iterator) }
      let b := { b with orderIndex := b.orderIndex.erase orderId }
      (b.eraseLevelIfEmpty locator.side locator.priceTicks, true)

def reduceOrder (b : OrderBook) (orderId : Nat) (quantity : Int) : OrderBook × Bool :=
  if quantity ≤ 0 then (b, false)
  else
    match b.orderIndex.lookup orderId with
    | none => (b, false)
    | some locator =>
      match b.mutableLevel locator.side locator.priceTicks with
      | none => (b, false)
      | some b =>
        if quantity ≥ (b.deref locator).quantity then b.cancelOrder orderId
        else
          (b.updateLevel locator.side locator.priceTicks fun priceLevel =>
            { priceLevel with
              totalQuantity := priceLevel.totalQuantity - quantity
              orders := priceLevel.orders.map (fun o =>
                if o.orderId = locator.iterator then { o with quantity := o.quantity - quantity }
                else o) }, true)

def findOrder (b : OrderBook) (orderId : Nat) : Option Order :=
  (b.orderIndex.lookup orderId).map b.deref

def replaceOrder (b : OrderBook) (orderId : Nat) (newPriceTicks : Int)
    (newQuantity : Int) (timestampNs : Int) (sequenceNumber : Nat) :
    OrderBook × Bool :=
  if newPriceTicks ≤ 0 ∨ newQuantity ≤ 0 then (b, false)
  else
    match b.findOrder orderId with
    | none => (b, false)
    | some existing =>
      let replacement := { existing with
        priceTicks := newPriceTicks, quantity := newQuantity, timestampNs, sequenceNumber }
      let (b, cancelled) := b.cancelOrder orderId
      if !cancelled then (b, false) else b.addOrder replacement

/-- Both `best_order` and `mutable_best_order`: the front of the first level. -/
def bestOrder (b : OrderBook) (restingSide : Side) : Option Order :=
  (b.levels restingSide).head?.bind (fun e => e.2.orders.head?)

def bestBid (b : OrderBook) : Option Int := b.bids.entries.head?.map Prod.fst
def bestAsk (b : OrderBook) : Option Int := b.asks.entries.head?.map Prod.fst

def totalQuantityAt (b : OrderBook) (side : Side) (priceTicks : Int) : Int :=
  ((b.level side priceTicks).map (·.totalQuantity)).getD 0

def l2Levels (entries : List (Int × PriceLevel)) (depth : Nat) : List L2Level :=
  (entries.take depth).map (fun e => ⟨e.1, e.2.totalQuantity⟩)

def l2View (b : OrderBook) (depth : Nat) : L2View :=
  { symbolId := b.symbolId
    bids := l2Levels b.bids.entries depth
    asks := l2Levels b.asks.entries depth }

/-- Capacity is not observable. -/
def reserveOrderCapacity (b : OrderBook) (_orderCount : Nat) : OrderBook := b

/-- What the invariant walk carries from order to order. -/
structure CheckState where
  report : BookInvariantReport := {}
  seen : Finset Nat := ∅
  childSum : Int := 0

def checkOrder (b : OrderBook) (side : Side) (price : Int) (s : CheckState)
    (order : Order) : CheckState :=
  let report := s.report
    |> violationIf (order.quantity ≤ 0) "resting order has non-positive quantity"
    |> violationIf (order.orderId ∈ s.seen) "duplicate order id in price queues"
    |> violationIf (order.side ≠ side ∨ order.priceTicks ≠ price)
        "order side or price does not match containing level"
  let report :=
    match b.orderIndex.lookup order.orderId with
    | none => addViolation report "order id missing from lookup index"
    | some locator =>
      violationIf (locator.side ≠ side ∨ locator.priceTicks ≠ price ∨
        (b.deref locator).orderId ≠ order.orderId)
        "lookup index locator points to inconsistent order" report
  { report, seen := insert order.orderId s.seen, childSum := s.childSum + order.quantity }

def checkLevel (b : OrderBook) (side : Side) (s : CheckState) (e : Int × PriceLevel) :
    CheckState :=
  let report := s.report
    |> violationIf (e.2.orders = []) "empty price level was retained"
    |> violationIf (e.2.priceTicks ≠ e.1) "price level key and stored price differ"
  let s := e.2.orders.foldl (b.checkOrder side e.1) { s with report, childSum := 0 }
  { s with
    report := violationIf (s.childSum ≠ e.2.totalQuantity)
      "price-level total does not match child order sum" s.report }

def checkIndexEntry (b : OrderBook) (seen : Finset Nat) (report : BookInvariantReport)
    (e : Sigma (fun _ : Nat => Locator)) : BookInvariantReport :=
  report
    |> violationIf (e.1 ∉ seen) "lookup index contains an order not present in queues"
    |> violationIf (e.2.side = .buy ∧ b.bids.find? e.2.priceTicks = none)
        "bid locator references missing price level"
    |> violationIf (e.2.side = .sell ∧ b.asks.find? e.2.priceTicks = none)
        "ask locator references missing price level"

def checkInvariants (b : OrderBook) : BookInvariantReport :=
  let s := b.bids.entries.foldl (b.checkLevel .buy) {}
  let s := b.asks.entries.foldl (b.checkLevel .sell) s
  let report := violationIf (s.seen.card ≠ b.orderCount)
    "lookup index size differs from queued order count" s.report
  let report := b.orderIndex.entries.foldl (b.checkIndexEntry s.seen) report
  report
    |> violationIf (b.bids.entries.head?.map (fun e => e.2.orders) = some [])
        "best bid level is empty"
    |> violationIf (b.asks.entries.head?.map (fun e => e.2.orders) = some [])
        "best ask level is empty"

def checksumOrder (seed : UInt64) (order : Order) : UInt64 :=
  let seed := checksumAppend 8 seed order.orderId
  let seed := checksumAppend 8 seed order.clientOrderId
  let seed := checksumAppend 4 seed order.symbolId
  let seed := checksumAppend 8 seed order.quantity
  let seed := checksumAppend 8 seed order.timestampNs
  checksumAppend 8 seed order.sequenceNumber

def checksumLevel (seed : UInt64) (e : Int × PriceLevel) : UInt64 :=
  let seed := checksumAppend 8 seed e.1
  let seed := checksumAppend 8 seed e.2.totalQuantity
  let seed := checksumAppend 8 seed e.2.orders.length
  e.2.orders.foldl checksumOrder seed

def checksumLevels (seed : UInt64) (side : Side) (entries : List (Int × PriceLevel)) :
    UInt64 :=
  let seed := checksumAppend 1 seed side.toByte
  let seed := checksumAppend 8 seed entries.length
  entries.foldl checksumLevel seed

def checksum (b : OrderBook) : UInt64 :=
  let seed := checksumAppend 4 fnvOffsetBasis b.symbolId
  let seed := checksumLevels seed .buy b.bids.entries
  checksumLevels seed .sell b.asks.entries

end OrderBook
end Asterion
