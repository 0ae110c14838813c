import Asterion.Book.OrderBook
import Asterion.Matching.ExecutionReport

/-! The matching engine of one symbol: admission checks, the matching loop and the three
requests. A reference into the state map is the id of its entry. -/
namespace Asterion

structure NewOrderRequest where
  clientOrderId : Nat := invalidClientOrderId
  symbolId : Nat := invalidSymbolId
  side : Side := .none
  orderType : OrderType := .limit
  priceTicks : Int := 0
  quantity : Int := 0
  timestampNs : Int := 0
  clientId : Nat := 0
  timeInForce : TimeInForce := .gtc
  postOnly : Bool := false
  deriving DecidableEq, Repr, Inhabited

structure CancelOrderRequest where
  clientOrderId : Nat := invalidClientOrderId
  exchangeOrderId : Nat := invalidOrderId
  timestampNs : Int := 0
  deriving DecidableEq, Repr, Inhabited

structure ReplaceOrderRequest where
  clientOrderId : Nat := invalidClientOrderId
  exchangeOrderId : Nat := invalidOrderId
  newPriceTicks : Int := 0
  newQuantity : Int := 0
  timestampNs : Int := 0
  deriving DecidableEq, Repr, Inhabited

structure MatchingEngine where
  symbolId : Nat
  book : OrderBook
  nextExchangeOrderId : Nat := 1
  states : AList (fun _ : Nat => OrderState) := ∅
  clientToExchange : AList (fun _ : Nat => Nat) := ∅
  seenClientOrderIds : Finset Nat := ∅
  reportsChecksum : UInt64 := fnvOffsetBasis

/-- The engine together with the report vector of the request being served. -/
structure Reporting where
  engine : MatchingEngine
  reports : List ExecutionReport := []

namespace Reporting

def record (w : Reporting) (report : ExecutionReport) : Reporting :=
  { engine := { w.engine with
      reportsChecksum := report.appendToChecksum w.engine.reportsChecksum }
    reports := w.reports ++ [report] }

/-- A write through a reference into the state map. -/
def setState (w : Reporting) (exchangeOrderId : Nat) (state : OrderState) : Reporting :=
  { w with engine := { w.engine with states := w.engine.states.insert exchangeOrderId state } }

def setBook (w : Reporting) (book : OrderBook) : Reporting :=
  { w with engine := { w.engine with book } }

end Reporting

namespace MatchingEngine

def new (symbolId : Nat) : MatchingEngine := { symbolId, book := .new symbolId }

/-- `states_.at(id)`. -/
def stateAt (e : MatchingEngine) (exchangeOrderId : Nat) : OrderState :=
  (e.states.lookup exchangeOrderId).getD {}

/-- `none` when the id is invalid or has been used. -/
def reserveClientOrderId (e : MatchingEngine) (clientOrderId : Nat) : Option MatchingEngine :=
  if clientOrderId = invalidClientOrderId then none
  else if clientOrderId ∈ e.seenClientOrderIds then none
  else some { e with seenClientOrderIds := insert clientOrderId e.seenClientOrderIds }

def crosses (e : MatchingEngine) (incomingSide : Side) (orderType : OrderType)
    (limitPriceTicks : Int) : Bool :=
  match incomingSide with
  | .buy =>
    match e.book.bestAsk with
    | none => false
    | some best => orderType == .market || decide (limitPriceTicks ≥ best)
  | .sell =>
    match e.book.bestBid with
    | none => false
    | some best => orderType == .market || decide (limitPriceTicks ≤ best)
  | .none => false

/-- The limit lets the incoming order trade at a price. -/
def executable (incomingSide : Side) (orderType : OrderType) (limitPriceTicks price : Int) : Bool :=
  orderType == .market ||
    (incomingSide == .buy && decide (price ≤ limitPriceTicks)) ||
    (incomingSide == .sell && decide (price ≥ limitPriceTicks))

def fillableFrom (request : NewOrderRequest) (required : Int) : List L2Level → Bool
  | [] => false
  | level :: levels =>
    if !executable request.side request.orderType request.priceTicks level.priceTicks then false
    else if level.quantity ≥ required then true
    else fillableFrom request (required - level.quantity) levels

def canFullyFill (e : MatchingEngine) (request : NewOrderRequest) : Bool :=
  let view := e.book.l2View e.book.orderCount
  fillableFrom request request.quantity (if request.side = .buy then view.asks else view.bids)

def wouldSelfTrade (e : MatchingEngine) (incomingSide : Side) (orderType : OrderType)
    (limitPriceTicks : Int) (clientId : Nat) (excludedOrderId : Nat := invalidOrderId) : Bool :=
  if clientId = 0 then false
  else e.states.entries.any (fun entry =>
    !(entry.1 == excludedOrderId || entry.2.clientId != clientId ||
      entry.2.side != opposite incomingSide || (e.book.findOrder entry.1).isNone) &&
    executable incomingSide orderType limitPriceTicks entry.2.limitPriceTicks)

/-- The body of the matching loop; the flag tells whether the loop goes on. -/
def matchIteration (w : Reporting) (incoming : Nat) (remaining : Int) (timestampNs : Int) :
    (Reporting × Int) × Bool :=
  match w.engine.book.bestOrder (opposite (w.engine.stateAt incoming).side) with
  | none => ((w, remaining), false)
  | some resting =>
    let fillQuantity := min remaining resting.quantity
    let fillPrice := resting.priceTicks
    let fail (w : Reporting) : Reporting :=
      let w := w.setState incoming { w.engine.stateAt incoming with status := .rejected }
      w.record (makeReport (w.engine.stateAt incoming) .rejected 0 0 timestampNs .internalError)
    if (w.engine.states.lookup resting.orderId).isNone then ((fail w, remaining), false)
    else
      let remaining := remaining - fillQuantity
      let w := w.setState resting.orderId
        ((w.engine.stateAt resting.orderId).fill fillQuantity fillPrice)
      let w := w.setState incoming ((w.engine.stateAt incoming).fill fillQuantity fillPrice)
      let w := w.record (makeReport (w.engine.stateAt resting.orderId) .trade fillQuantity fillPrice
        timestampNs .none)
      let w := w.record (makeReport (w.engine.stateAt incoming) .trade fillQuantity fillPrice
        timestampNs .none)
      match w.engine.book.reduceOrder resting.orderId fillQuantity with
      | (book, true) => ((w.setBook book, remaining), true)
      | (book, false) => ((fail (w.setBook book), remaining), false)

/-- Every iteration that goes on has reduced the remaining quantity, so the initial
quantity bounds the number of iterations. -/
def matchLoop (incoming : Nat) (timestampNs : Int) : Nat → Reporting → Int → Reporting × Int
  | 0, w, remaining => (w, remaining)
  | n + 1, w, remaining =>
    let state := w.engine.stateAt incoming
    if decide (remaining > 0) && w.engine.crosses state.side state.orderType state.limitPriceTicks
    then
      match matchIteration w incoming remaining timestampNs with
      | ((w, remaining), true) => matchLoop incoming timestampNs n w remaining
      | (result, false) => result
    else (w, remaining)

def matchAgainstBook (w : Reporting) (incoming : Nat) (remaining : Int) (timestampNs : Int) :
    Reporting × Int :=
  matchLoop incoming timestampNs remaining.toNat w remaining

def restLimitOrder (w : Reporting) (state : OrderState) (remaining : Int) (timestampNs : Int) :
    Reporting × Bool :=
  let (book, rested) := w.engine.book.addOrder
    { orderId := state.exchangeOrderId
      clientOrderId := state.clientOrderId
      symbolId := state.symbolId
      side := state.side
      priceTicks := state.limitPriceTicks
      quantity := remaining
      timestampNs := timestampNs
      sequenceNumber := state.exchangeOrderId }
  (w.setBook book, rested)

def closeWith (w : Reporting) (exchangeOrderId : Nat) (status : OrderStatus) (execType : ExecType)
    (timestampNs : Int) (reason : RejectReason) : Reporting :=
  let w := w.setState exchangeOrderId { w.engine.stateAt exchangeOrderId with status }
  w.record (makeReport (w.engine.stateAt exchangeOrderId) execType 0 0 timestampNs reason)

def restOrReject (w : Reporting) (exchangeOrderId : Nat) (remaining : Int) (timestampNs : Int) :
    Reporting :=
  match restLimitOrder w (w.engine.stateAt exchangeOrderId) remaining timestampNs with
  | (w, true) => w
  | (w, false) => closeWith w exchangeOrderId .rejected .rejected timestampNs .internalError

/-- Draws the next exchange order id and files the order under it. -/
def emplaceOrder (e : MatchingEngine) (request : NewOrderRequest) : MatchingEngine :=
  let exchangeOrderId := e.nextExchangeOrderId
  let state : OrderState :=
    { clientOrderId := request.clientOrderId
      exchangeOrderId := exchangeOrderId
      symbolId := request.symbolId
      side := request.side
      orderType := request.orderType
      limitPriceTicks := request.priceTicks
      originalQuantity := request.quantity
      clientId := request.clientId
      timestampNs := request.timestampNs }
  { e with
    nextExchangeOrderId := exchangeOrderId + 1
    states := if exchangeOrderId ∈ e.states then e.states else e.states.insert exchangeOrderId state
    clientToExchange :=
      if request.clientOrderId ∈ e.clientToExchange then e.clientToExchange
      else e.clientToExchange.insert request.clientOrderId exchangeOrderId }

/-- What becomes of the quantity a new order could not match. -/
def finishSubmit (w : Reporting) (request : NewOrderRequest) (exchangeOrderId : Nat)
    (remaining : Int) : Reporting :=
  if remaining > 0 ∧ request.orderType = .limit ∧ request.timeInForce = .gtc then
    let state := w.engine.stateAt exchangeOrderId
    let w := if state.filledQuantity > 0 then
        w.setState exchangeOrderId { state with status := .partiallyFilled } else w
    restOrReject w exchangeOrderId remaining request.timestampNs
  else if remaining > 0 then
    closeWith w exchangeOrderId .canceled .canceled request.timestampNs .none
  else w

/-- The part of a submit behind the admission checks. -/
def acceptOrder (e : MatchingEngine) (request : NewOrderRequest) : Reporting :=
  let exchangeOrderId := e.nextExchangeOrderId
  let e := e.emplaceOrder request
  let w := Reporting.record { engine := e }
    (makeReport (e.stateAt exchangeOrderId) .new 0 0 request.timestampNs .none)
  let (w, remaining) := matchAgainstBook w exchangeOrderId request.quantity request.timestampNs
  finishSubmit w request exchangeOrderId remaining

def submitOrder (e : MatchingEngine) (request : NewOrderRequest) : Reporting :=
  let reject (e : MatchingEngine) (reason : RejectReason) : Reporting :=
    Reporting.record { engine := e }
      (makeReject request.clientOrderId request.symbolId request.side request.timestampNs reason)
  if request.symbolId ≠ e.symbolId ∨ isValidSide request.side = false then reject e .unsupported
  else if request.orderType ≠ .limit ∧ request.orderType ≠ .market then reject e .unsupported
  else if request.quantity ≤ 0 then reject e .invalidQuantity
  else if request.orderType = .limit ∧ request.priceTicks ≤ 0 then reject e .invalidPrice
  else if request.timeInForce ≠ .gtc ∧ request.timeInForce ≠ .ioc ∧ request.timeInForce ≠ .fok then
    reject e .unsupported
  else if request.postOnly = true ∧
      (request.orderType ≠ .limit ∨ request.timeInForce ≠ .gtc) then reject e .unsupported
  else
    match e.reserveClientOrderId request.clientOrderId with
    | none => reject e .duplicateClientOrderId
    | some e =>
      if request.postOnly && e.crosses request.side request.orderType request.priceTicks then
        reject e .postOnlyWouldCross
      else if !request.postOnly && e.wouldSelfTrade request.side request.orderType
          request.priceTicks request.clientId then reject e .selfTradePrevention
      else if decide (request.timeInForce = .fok) && !e.canFullyFill request then
        reject e .fokNotFillable
      else e.acceptOrder request

def cancelOrder (e : MatchingEngine) (request : CancelOrderRequest) : Reporting :=
  let reject (e : MatchingEngine) (reason : RejectReason) : Reporting :=
    Reporting.record { engine := e }
      (makeReject request.clientOrderId e.symbolId .none request.timestampNs reason)
  match e.reserveClientOrderId request.clientOrderId with
  | none => reject e .duplicateClientOrderId
  | some e =>
    if (e.states.lookup request.exchangeOrderId).isNone ||
        (e.book.findOrder request.exchangeOrderId).isNone then reject e .unknownOrder
    else
      match e.book.cancelOrder request.exchangeOrderId with
      | (book, false) =>
        closeWith { engine := { e with book } } request.exchangeOrderId .rejected .rejected
          request.timestampNs .internalError
      | (book, true) =>
        closeWith { engine := { e with book } } request.exchangeOrderId .canceled .canceled
          request.timestampNs .none

/-- The quantity a replaced order could not match rests again. -/
def finishReplace (w : Reporting) (request : ReplaceOrderRequest) (remaining : Int) : Reporting :=
  if remaining > 0 then
    let state := w.engine.stateAt request.exchangeOrderId
    let w := if state.filledQuantity > 0 ∧ state.status ≠ .replaced then
        w.setState request.exchangeOrderId { state with status := .partiallyFilled } else w
    restOrReject w request.exchangeOrderId remaining request.timestampNs
  else w

/-- The part of a replace behind the admission checks. -/
def reworkOrder (w : Reporting) (request : ReplaceOrderRequest) : Reporting :=
  let id := request.exchangeOrderId
  let state := w.engine.stateAt id
  let w := w.setState id { state with
    limitPriceTicks := request.newPriceTicks
    originalQuantity := state.filledQuantity + request.newQuantity
    status := .replaced
    timestampNs := request.timestampNs }
  let w := w.record (makeReport (w.engine.stateAt id) .replaced 0 0 request.timestampNs .none)
  let (w, remaining) := matchAgainstBook w id request.newQuantity request.timestampNs
  finishReplace w request remaining

def replaceOrder (e : MatchingEngine) (request : ReplaceOrderRequest) : Reporting :=
  let reject (e : MatchingEngine) (side : Side) (reason : RejectReason) : Reporting :=
    Reporting.record { engine := e }
      (makeReject request.clientOrderId e.symbolId side request.timestampNs reason)
  if request.newQuantity ≤ 0 then reject e .none .invalidQuantity
  else if request.newPriceTicks ≤ 0 then reject e .none .invalidPrice
  else
    match e.reserveClientOrderId request.clientOrderId with
    | none => reject e .none .duplicateClientOrderId
    | some e =>
      if (e.states.lookup request.exchangeOrderId).isNone ||
          (e.book.findOrder request.exchangeOrderId).isNone then reject e .none .unknownOrder
      else
        let state := e.stateAt request.exchangeOrderId
        if e.wouldSelfTrade state.side state.orderType request.newPriceTicks state.clientId
            state.exchangeOrderId then reject e state.side .selfTradePrevention
        else
          match e.book.cancelOrder request.exchangeOrderId with
          | (book, false) =>
            closeWith { engine := { e with book } } request.exchangeOrderId .rejected .rejected
              request.timestampNs .internalError
          | (book, true) => reworkOrder { engine := { e with book } } request

inductive Request where
  | submit (request : NewOrderRequest)
  | cancel (request : CancelOrderRequest)
  | replace (request : ReplaceOrderRequest)
  deriving DecidableEq, Repr

/-- Serves one request: the engine afterwards and the reports it answers with. -/
def serve (e : MatchingEngine) : Request → Reporting
  | .submit request => e.submitOrder request
  | .cancel request => e.cancelOrder request
  | .replace request => e.replaceOrder request

/-- Serves requests one after the other; the reports of all of them in order. -/
def run (e : MatchingEngine) : List Request → Reporting
  | [] => { engine := e }
  | request :: requests =>
    let first := e.serve request
    let rest := first.engine.run requests
    { rest with reports := first.reports ++ rest.reports }

end MatchingEngine
end Asterion
