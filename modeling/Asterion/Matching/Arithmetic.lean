import Asterion.Book.LevelTotals
import Asterion.Matching.Answers

/-! The signed arithmetic of the matching engine and of its book: the result of every operation on
signed words made while a request is served, along the path the request takes. What is added up
goes by the numbers alone, so a change of status in between is left out. -/
namespace Asterion
open Lib
open MatchingEngine (Request executable)

namespace OrderState

/-- The bookkeeping of one fill, with the open quantity it is followed by. -/
def fillResults (state : OrderState) (fillQuantity fillPrice : Int) : List Int :=
  [state.filledQuantity + fillQuantity, fillQuantity * fillPrice,
    state.filledNotionalTicks + fillQuantity * fillPrice,
    state.originalQuantity - (state.filledQuantity + fillQuantity)]

/-- A report takes the open quantity and the average price. -/
def reportResults (state : OrderState) : List Int :=
  [state.originalQuantity - state.filledQuantity, averagePriceTicks state]

end OrderState

namespace OrderBook

def cancelResults (b : OrderBook) (orderId : Nat) : List Int :=
  match b.findOrder orderId with
  | none => []
  | some o => [b.totalQuantityAt o.side o.priceTicks - o.quantity]

def reduceResults (b : OrderBook) (orderId : Nat) (quantity : Int) : List Int :=
  if quantity ≤ 0 then []
  else
    match b.findOrder orderId with
    | none => []
    | some o =>
      if quantity ≥ o.quantity then b.cancelResults orderId
      else [o.quantity - quantity, b.totalQuantityAt o.side o.priceTicks - quantity]

end OrderBook

namespace MatchingEngine

def iterationResults (w : Reporting) (incoming : Nat) (remaining : Int) : List Int :=
  match w.engine.book.bestOrder (opposite (w.engine.stateAt incoming).side) with
  | none => []
  | some resting =>
    let fillQuantity := min remaining resting.quantity
    let fillPrice := resting.priceTicks
    if (w.engine.states.lookup resting.orderId).isNone then
      (w.engine.stateAt incoming).reportResults
    else
      let restingState := w.engine.stateAt resting.orderId
      let filled := w.setState resting.orderId (restingState.fill fillQuantity fillPrice)
      let state := filled.engine.stateAt incoming
      let filled := filled.setState incoming (state.fill fillQuantity fillPrice)
      (remaining - fillQuantity) :: restingState.fillResults fillQuantity fillPrice ++
        state.fillResults fillQuantity fillPrice ++
        (filled.engine.stateAt resting.orderId).reportResults ++
        (filled.engine.stateAt incoming).reportResults ++
        w.engine.book.reduceResults resting.orderId fillQuantity

def matchResults (incoming : Nat) (timestampNs : Int) : Nat → Reporting → Int → List Int
  | 0, _, _ => []
  | n + 1, w, remaining =>
    let state := w.engine.stateAt incoming
    if decide (remaining > 0) && w.engine.crosses state.side state.orderType state.limitPriceTicks
    then
      iterationResults w incoming remaining ++
        match matchIteration w incoming remaining timestampNs with
        | ((w, remaining), true) => matchResults incoming timestampNs n w remaining
        | (_, false) => []
    else []

/-- The quantity that is left joins the total of its level, or the order is reported. -/
def finishResults (w : Reporting) (exchangeOrderId : Nat) (remaining : Int) (rests : Bool)
    (timestampNs : Int) : List Int :=
  let state := w.engine.stateAt exchangeOrderId
  if remaining > 0 then
    if rests && (restLimitOrder w state remaining timestampNs).2 then
      [w.engine.book.totalQuantityAt state.side state.limitPriceTicks + remaining]
    else state.reportResults
  else []

def executeResults (w : Reporting) (exchangeOrderId : Nat) (quantity : Int) (rests : Bool)
    (timestampNs : Int) : List Int :=
  matchResults exchangeOrderId timestampNs quantity.toNat w quantity ++
    let (w, remaining) := matchAgainstBook w exchangeOrderId quantity timestampNs
    finishResults w exchangeOrderId remaining rests timestampNs

def fillableResults (request : NewOrderRequest) (required : Int) : List L2Level → List Int
  | [] => []
  | level :: levels =>
    if !executable request.side request.orderType request.priceTicks level.priceTicks then []
    else if level.quantity ≥ required then []
    else (required - level.quantity) :: fillableResults request (required - level.quantity) levels

def canFullyFillResults (e : MatchingEngine) (request : NewOrderRequest) : List Int :=
  let view := e.book.l2View e.book.orderCount
  fillableResults request request.quantity (if request.side = .buy then view.asks else view.bids)

def acceptResults (e : MatchingEngine) (request : NewOrderRequest) : List Int :=
  let exchangeOrderId := e.nextExchangeOrderId
  let e := e.emplaceOrder request
  let w := Reporting.record { engine := e }
    (makeReport (e.stateAt exchangeOrderId) .new 0 0 request.timestampNs .none)
  (e.stateAt exchangeOrderId).reportResults ++
    executeResults w exchangeOrderId request.quantity
      (decide (request.orderType = .limit ∧ request.timeInForce = .gtc)) request.timestampNs

def submitResults (e : MatchingEngine) (request : NewOrderRequest) : List Int :=
  if request.symbolId ≠ e.symbolId ∨ isValidSide request.side = false then []
  else if request.orderType ≠ .limit ∧ request.orderType ≠ .market then []
  else if request.quantity ≤ 0 then []
  else if request.orderType = .limit ∧ request.priceTicks ≤ 0 then []
  else if request.timeInForce ≠ .gtc ∧ request.timeInForce ≠ .ioc ∧ request.timeInForce ≠ .fok then
    []
  else if request.postOnly = true ∧
      (request.orderType ≠ .limit ∨ request.timeInForce ≠ .gtc) then []
  else
    match e.reserveClientOrderId request.clientOrderId with
    | none => []
    | some e =>
      if request.postOnly && e.crosses request.side request.orderType request.priceTicks then []
      else if !request.postOnly && e.wouldSelfTrade request.side request.orderType
          request.priceTicks request.clientId then []
      else
        (if request.timeInForce = .fok then e.canFullyFillResults request else []) ++
          if decide (request.timeInForce = .fok) && !e.canFullyFill request then []
          else e.acceptResults request

def cancelOrderResults (e : MatchingEngine) (request : CancelOrderRequest) : List Int :=
  match e.reserveClientOrderId request.clientOrderId with
  | none => []
  | some e =>
    if (e.states.lookup request.exchangeOrderId).isNone ||
        (e.book.findOrder request.exchangeOrderId).isNone then []
    else
      e.book.cancelResults request.exchangeOrderId ++
        (e.stateAt request.exchangeOrderId).reportResults

def reworkResults (w : Reporting) (request : ReplaceOrderRequest) : List Int :=
  let id := request.exchangeOrderId
  let state := w.engine.stateAt id
  let w := w.setState id { state with
    limitPriceTicks := request.newPriceTicks
    originalQuantity := state.filledQuantity + request.newQuantity
    status := .replaced
    timestampNs := request.timestampNs }
  let report := makeReport (w.engine.stateAt id) .replaced 0 0 request.timestampNs .none
  (state.filledQuantity + request.newQuantity) :: (w.engine.stateAt id).reportResults ++
    executeResults (w.record report) id request.newQuantity true request.timestampNs

def replaceResults (e : MatchingEngine) (request : ReplaceOrderRequest) : List Int :=
  if request.newQuantity ≤ 0 then []
  else if request.newPriceTicks ≤ 0 then []
  else
    match e.reserveClientOrderId request.clientOrderId with
    | none => []
    | some e =>
      if (e.states.lookup request.exchangeOrderId).isNone ||
          (e.book.findOrder request.exchangeOrderId).isNone then []
      else
        let state := e.stateAt request.exchangeOrderId
        if e.wouldSelfTrade state.side state.orderType request.newPriceTicks state.clientId
            state.exchangeOrderId then []
        else
          e.book.cancelResults request.exchangeOrderId ++
            match e.book.cancelOrder request.exchangeOrderId with
            | (_, false) => state.reportResults
            | (book, true) => reworkResults { engine := { e with book } } request

/-- The result of every signed operation made while a request is served. -/
def results (e : MatchingEngine) : Request → List Int
  | .submit request => e.submitResults request
  | .cancel request => e.cancelOrderResults request
  | .replace request => e.replaceResults request

/-- No signed operation of the request leaves its word. -/
def InRange (e : MatchingEngine) (request : Request) : Prop := ∀ v ∈ e.results request, InWord v

end MatchingEngine

namespace Exchange

/-- What an order on these terms takes from the opposite queue. -/
def taken (x : Exchange) (t : Terms) : List (Order × Int) :=
  Sweep.fills Order.quantity (fun o => executable t.side t.orderType t.limit o.priceTicks) t.quantity
    (x.queue (opposite t.side))

def worth (fs : List (Order × Int)) : Int := (fs.map (fun f => f.2 * f.1.priceTicks)).sum

/-- The notionals of the fills fit, of the order that takes and of each it takes from. -/
structure Bears (x : Exchange) (fs : List (Order × Int)) (notional : Int) : Prop where
  incoming : notional + worth fs < 2 ^ 63
  resting : ∀ f ∈ fs,
    (x.stateAt f.1.orderId).filledNotionalTicks + f.2 * f.1.priceTicks < 2 ^ 63

/-- What an order on these terms leaves unfilled has room at its price. -/
def Rests (x : Exchange) (t : Terms) : Prop :=
  0 < t.quantity - Sweep.total (x.taken t) →
    restingAt t.limit (dequeue t.id (x.queue t.side)) + (t.quantity - Sweep.total (x.taken t)) <
      2 ^ 63

/-- Where a request is admitted, the sums it leads to fit. -/
def Affords (x : Exchange) : Request → Prop
  | .submit request =>
    x.malformed request = none → x.reusedId request.clientOrderId = false →
      (x.reserve request.clientOrderId).inadmissible request = none →
      x.Bears (x.taken (x.terms (.submit request))) 0 ∧
        (request.orderType = .limit → request.timeInForce = .gtc → x.symbolId ≠ invalidSymbolId →
          x.Rests (x.terms (.submit request)))
  | .cancel _ => True
  | .replace request =>
    let state := x.stateAt request.exchangeOrderId
    0 < request.newQuantity → 0 < request.newPriceTicks →
      x.reusedId request.clientOrderId = false → x.isResting request.exchangeOrderId = true →
      x.selfTrade state.side state.orderType request.newPriceTicks state.clientId = false →
      state.filledQuantity + request.newQuantity < 2 ^ 63 ∧
        x.Bears (x.taken (x.terms (.replace request))) state.filledNotionalTicks ∧
        x.Rests (x.terms (.replace request))

end Exchange

def MatchingEngine.Request.Fits : Request → Prop
  | .submit request => InWord request.priceTicks ∧ InWord request.quantity
  | .cancel _ => True
  | .replace request => InWord request.newPriceTicks ∧ InWord request.newQuantity

end Asterion
