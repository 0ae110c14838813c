import Asterion.Book.Queues
import Asterion.Lib.Sweep
import Asterion.Matching.MatchingEngine

/-! What the matching engine is for: an exchange that holds two queues of orders in
price-time priority and the state of every order it ever accepted. An incoming order
sweeps the opposite queue, then rests or expires. The engine is proved to refine this
machine, and its laws are proved here, one small step at a time. -/
namespace Asterion

open Lib

/-- The order a state puts into the book. -/
def restingOrder (state : OrderState) : Order :=
  { orderId := state.exchangeOrderId
    clientOrderId := state.clientOrderId
    symbolId := state.symbolId
    side := state.side
    priceTicks := state.limitPriceTicks
    quantity := state.originalQuantity - state.filledQuantity
    timestampNs := state.timestampNs
    sequenceNumber := state.exchangeOrderId }

structure Exchange where
  symbolId : Nat
  queue : Side → List Order
  state : Nat → Option OrderState
  nextExchangeOrderId : Nat
  seen : Finset Nat

namespace Exchange

def new (symbolId : Nat) : Exchange := ⟨symbolId, fun _ => [], fun _ => none, 1, ∅⟩

def stateAt (x : Exchange) (id : Nat) : OrderState := (x.state id).getD {}

def setState (x : Exchange) (id : Nat) (state : OrderState) : Exchange :=
  { x with state := Function.update x.state id (some state) }

/-- The limit of a state as a test on prices. -/
def acceptable (state : OrderState) (o : Order) : Bool :=
  MatchingEngine.executable state.side state.orderType state.limitPriceTicks o.priceTicks

def crosses (x : Exchange) (side : Side) (orderType : OrderType) (limit : Int) : Bool :=
  (x.queue (opposite side)).head?.any
    (fun o => MatchingEngine.executable side orderType limit o.priceTicks)

/-- Some opposite order of the same client lies within the limit. -/
def selfTrade (x : Exchange) (side : Side) (orderType : OrderType) (limit : Int) (clientId : Nat) :
    Bool :=
  decide (clientId ≠ 0) && (x.queue (opposite side)).any (fun o =>
    (x.stateAt o.orderId).clientId == clientId &&
      MatchingEngine.executable side orderType limit o.priceTicks)

/-- The quantity on offer within the limit. -/
def available (x : Exchange) (side : Side) (orderType : OrderType) (limit : Int) : Int :=
  (((x.queue (opposite side)).takeWhile
    (fun o => MatchingEngine.executable side orderType limit o.priceTicks)).map (·.quantity)).sum

/-- One fill of the resting order `f.1` by the incoming order. -/
def trade (incoming : Nat) (timestampNs : Int) (x : Exchange) (f : Order × Int) :
    Exchange × List ExecutionReport :=
  let x := x.setState f.1.orderId ((x.stateAt f.1.orderId).fill f.2 f.1.priceTicks)
  let x := x.setState incoming ((x.stateAt incoming).fill f.2 f.1.priceTicks)
  ({ x with queue := fun s => consume f (x.queue s) },
    [makeReport (x.stateAt f.1.orderId) .trade f.2 f.1.priceTicks timestampNs .none,
     makeReport (x.stateAt incoming) .trade f.2 f.1.priceTicks timestampNs .none])

def trades (incoming : Nat) (timestampNs : Int) (x : Exchange) :
    List (Order × Int) → Exchange × List ExecutionReport
  | [] => (x, [])
  | f :: fs =>
    let first := trade incoming timestampNs x f
    let rest := trades incoming timestampNs first.1 fs
    (rest.1, first.2 ++ rest.2)

/-- The fills of an incoming order: the greedy sweep of the opposite queue. -/
def sweep (x : Exchange) (incoming : Nat) (wanted : Int) : List (Order × Int) :=
  Sweep.fills Order.quantity (acceptable (x.stateAt incoming)) wanted
    (x.queue (opposite (x.stateAt incoming).side))

def close (x : Exchange) (id : Nat) (status : OrderStatus) (execType : ExecType)
    (timestampNs : Int) (reason : RejectReason) : Exchange × List ExecutionReport :=
  let x := x.setState id { x.stateAt id with status }
  (x, [makeReport (x.stateAt id) execType 0 0 timestampNs reason])

/-- An exchange without a symbol has no book to rest in. -/
def rest (x : Exchange) (id : Nat) (timestampNs : Int) : Exchange × List ExecutionReport :=
  if x.symbolId = invalidSymbolId then x.close id .rejected .rejected timestampNs .internalError
  else
    let o := restingOrder (x.stateAt id)
    ({ x with queue := fun s => if s = o.side then enqueue o (x.queue s) else x.queue s }, [])

/-- Matches the order, then lets what remains rest or expire. -/
def execute (x : Exchange) (id : Nat) (wanted : Int) (rests : Bool) (timestampNs : Int) :
    Exchange × List ExecutionReport :=
  let fs := x.sweep id wanted
  let matched := x.trades id timestampNs fs
  let last :=
    if wanted - Sweep.total fs > 0 then
      if rests then matched.1.rest id timestampNs
      else matched.1.close id .canceled .canceled timestampNs .none
    else (matched.1, [])
  (last.1, matched.2 ++ last.2)

def accepted (x : Exchange) (request : NewOrderRequest) : OrderState :=
  { clientOrderId := request.clientOrderId
    exchangeOrderId := x.nextExchangeOrderId
    symbolId := request.symbolId
    side := request.side
    orderType := request.orderType
    limitPriceTicks := request.priceTicks
    originalQuantity := request.quantity
    clientId := request.clientId
    timestampNs := request.timestampNs }

def enlist (x : Exchange) (request : NewOrderRequest) : Exchange × List ExecutionReport :=
  let state := x.accepted request
  ({ x.setState x.nextExchangeOrderId state with
      nextExchangeOrderId := x.nextExchangeOrderId + 1 },
    [makeReport state .new 0 0 request.timestampNs .none])

def accept (x : Exchange) (request : NewOrderRequest) : Exchange × List ExecutionReport :=
  let first := x.enlist request
  let rests := decide (request.orderType = .limit ∧ request.timeInForce = .gtc)
  let last := first.1.execute x.nextExchangeOrderId request.quantity rests request.timestampNs
  (last.1, first.2 ++ last.2)

/-- Takes an order out of the book with new terms. -/
def reopen (x : Exchange) (request : ReplaceOrderRequest) : Exchange × List ExecutionReport :=
  let state := x.stateAt request.exchangeOrderId
  let state := { state with
    limitPriceTicks := request.newPriceTicks
    originalQuantity := state.filledQuantity + request.newQuantity
    status := .replaced
    timestampNs := request.timestampNs }
  ({ x.setState request.exchangeOrderId state with
      queue := fun s => dequeue request.exchangeOrderId (x.queue s) },
    [makeReport state .replaced 0 0 request.timestampNs .none])

def rework (x : Exchange) (request : ReplaceOrderRequest) : Exchange × List ExecutionReport :=
  let first := x.reopen request
  let last := first.1.execute request.exchangeOrderId request.newQuantity true request.timestampNs
  (last.1, first.2 ++ last.2)

def withdraw (x : Exchange) (id : Nat) (timestampNs : Int) : Exchange × List ExecutionReport :=
  ({ x with queue := fun s => dequeue id (x.queue s) } : Exchange).close id .canceled .canceled
    timestampNs .none

def isResting (x : Exchange) (id : Nat) : Bool :=
  (x.queue .buy ++ x.queue .sell).any (fun o => o.orderId == id)

/-- The checks that come before the client order id is reserved. -/
def malformed (x : Exchange) (request : NewOrderRequest) : Option RejectReason :=
  if request.symbolId ≠ x.symbolId ∨ isValidSide request.side = false then some .unsupported
  else if request.orderType ≠ .limit ∧ request.orderType ≠ .market then some .unsupported
  else if request.quantity ≤ 0 then some .invalidQuantity
  else if request.orderType = .limit ∧ request.priceTicks ≤ 0 then some .invalidPrice
  else if request.timeInForce ≠ .gtc ∧ request.timeInForce ≠ .ioc ∧ request.timeInForce ≠ .fok then
    some .unsupported
  else if request.postOnly = true ∧ (request.orderType ≠ .limit ∨ request.timeInForce ≠ .gtc) then
    some .unsupported
  else none

def inadmissible (x : Exchange) (request : NewOrderRequest) : Option RejectReason :=
  if request.postOnly = true ∧ x.crosses request.side request.orderType request.priceTicks = true then
    some .postOnlyWouldCross
  else if request.postOnly = false ∧ x.selfTrade request.side request.orderType request.priceTicks
      request.clientId = true then some .selfTradePrevention
  else if request.timeInForce = .fok ∧
      x.available request.side request.orderType request.priceTicks < request.quantity then
    some .fokNotFillable
  else none

def reusedId (x : Exchange) (clientOrderId : Nat) : Bool :=
  decide (clientOrderId = invalidClientOrderId ∨ clientOrderId ∈ x.seen)

def reserve (x : Exchange) (clientOrderId : Nat) : Exchange :=
  { x with seen := insert clientOrderId x.seen }

def submit (x : Exchange) (request : NewOrderRequest) : Exchange × List ExecutionReport :=
  let reject (reason : RejectReason) : List ExecutionReport :=
    [makeReject request.clientOrderId request.symbolId request.side request.timestampNs reason]
  match x.malformed request with
  | some reason => (x, reject reason)
  | none =>
    if x.reusedId request.clientOrderId then (x, reject .duplicateClientOrderId)
    else
      let x := x.reserve request.clientOrderId
      match x.inadmissible request with
      | some reason => (x, reject reason)
      | none => x.accept request

def cancel (x : Exchange) (request : CancelOrderRequest) : Exchange × List ExecutionReport :=
  let reject (reason : RejectReason) : List ExecutionReport :=
    [makeReject request.clientOrderId x.symbolId .none request.timestampNs reason]
  if x.reusedId request.clientOrderId then (x, reject .duplicateClientOrderId)
  else
    let x := x.reserve request.clientOrderId
    if x.isResting request.exchangeOrderId then x.withdraw request.exchangeOrderId request.timestampNs
    else (x, reject .unknownOrder)

def replace (x : Exchange) (request : ReplaceOrderRequest) : Exchange × List ExecutionReport :=
  let reject (side : Side) (reason : RejectReason) : List ExecutionReport :=
    [makeReject request.clientOrderId x.symbolId side request.timestampNs reason]
  if request.newQuantity ≤ 0 then (x, reject .none .invalidQuantity)
  else if request.newPriceTicks ≤ 0 then (x, reject .none .invalidPrice)
  else if x.reusedId request.clientOrderId then (x, reject .none .duplicateClientOrderId)
  else
    let x := x.reserve request.clientOrderId
    if x.isResting request.exchangeOrderId then
      let state := x.stateAt request.exchangeOrderId
      if x.selfTrade state.side state.orderType request.newPriceTicks state.clientId then
        (x, reject state.side .selfTradePrevention)
      else x.rework request
    else (x, reject .none .unknownOrder)

open MatchingEngine (Request)

def serve (x : Exchange) : Request → Exchange × List ExecutionReport
  | .submit request => x.submit request
  | .cancel request => x.cancel request
  | .replace request => x.replace request

def run (x : Exchange) : List Request → Exchange × List ExecutionReport
  | [] => (x, [])
  | request :: requests =>
    let first := x.serve request
    let rest := first.1.run requests
    (rest.1, first.2 ++ rest.2)

end Exchange
end Asterion
