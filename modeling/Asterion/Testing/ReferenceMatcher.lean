import Asterion.Matching.MatchingEngine

/-! The reference matcher in Python that the engine is cross-checked against: its own
dictionaries and sets, its own matching loop, on the same requests. The records of orders
and reports have the engine's fields. Numbers are exact. -/
namespace Asterion

open MatchingEngine (Request)

/-- First-in-first-out queues of exchange order ids, by price. -/
abbrev PriceLevels := AList (fun _ : Int => List Nat)

structure ReferenceMatcher where
  symbolId : Nat
  nextExchangeOrderId : Nat := 1
  states : AList (fun _ : Nat => OrderState) := ∅
  clientToExchange : AList (fun _ : Nat => Nat) := ∅
  seenClientOrderIds : Finset Nat := ∅
  bidLevels : PriceLevels := ∅
  askLevels : PriceLevels := ∅
  inBook : Finset Nat := ∅

/-- The matcher together with the reports of the request being served. -/
structure ReferenceMatcher.Answering where
  matcher : ReferenceMatcher
  reports : List ExecutionReport := []

namespace ReferenceMatcher

def new (symbolId : Nat) : ReferenceMatcher := { symbolId }

/-- `self._states[order_id]`; only ids that are known are looked up this way. -/
def stateAt (m : ReferenceMatcher) (orderId : Nat) : OrderState :=
  (m.states.lookup orderId).getD {}

def remaining (st : OrderState) : Int :=
  let rem := st.originalQuantity - st.filledQuantity
  if rem > 0 then rem else 0

/-- The operator `//` rounds down. -/
def averagePriceTicks (st : OrderState) : Int :=
  if st.filledQuantity ≤ 0 then 0 else st.filledNotionalTicks.fdiv st.filledQuantity

def makeReport (state : OrderState) (execType : ExecType) (lastFillQuantity : Int)
    (lastFillPriceTicks : Int) (ts : Int) (rejectReason : RejectReason) : ExecutionReport :=
  let rem := if state.status ∈ [.canceled, .filled, .rejected] then 0 else remaining state
  let restingPrice := if rem > 0 ∧ state.orderType = .limit then state.limitPriceTicks else 0
  { clientOrderId := state.clientOrderId
    exchangeOrderId := state.exchangeOrderId
    symbolId := state.symbolId
    side := state.side
    orderStatus := state.status
    execType := execType
    filledQuantity := state.filledQuantity
    remainingQuantity := rem
    lastFillQuantity := lastFillQuantity
    lastFillPriceTicks := lastFillPriceTicks
    averagePriceTicks := averagePriceTicks state
    restingPriceTicks := restingPrice
    timestampNs := ts
    rejectReason := rejectReason }

def reject (clientOrderId symbolId : Nat) (side : Side) (ts : Int) (reason : RejectReason) :
    ExecutionReport :=
  { clientOrderId
    exchangeOrderId := invalidOrderId
    symbolId
    side
    orderStatus := .rejected
    execType := .rejected
    timestampNs := ts
    rejectReason := reason }

def reserveClientOrderId (m : ReferenceMatcher) (clientOrderId : Nat) : Option ReferenceMatcher :=
  if clientOrderId = invalidClientOrderId then none
  else if clientOrderId ∈ m.seenClientOrderIds then none
  else some { m with seenClientOrderIds := insert clientOrderId m.seenClientOrderIds }

def levels (m : ReferenceMatcher) (side : Side) : PriceLevels :=
  if side = .buy then m.bidLevels else m.askLevels

def setLevels (m : ReferenceMatcher) (side : Side) (levels : PriceLevels) : ReferenceMatcher :=
  if side = .buy then { m with bidLevels := levels } else { m with askLevels := levels }

def setState (m : ReferenceMatcher) (orderId : Nat) (state : OrderState) : ReferenceMatcher :=
  { m with states := m.states.insert orderId state }

def levelQuantity (m : ReferenceMatcher) (orderIds : List Nat) : Int :=
  (orderIds.map (fun oid => remaining (m.stateAt oid))).sum

def prices (levels : PriceLevels) : List Int :=
  (levels.entries.filter (fun entry => entry.2 ≠ [])).map (·.1)

def bestBid (m : ReferenceMatcher) : Option Int := (prices m.bidLevels).max?
def bestAsk (m : ReferenceMatcher) : Option Int := (prices m.askLevels).min?

def bestOpposingOrder (m : ReferenceMatcher) (incomingSide : Side) : Option Nat :=
  if incomingSide = .buy then
    m.bestAsk.bind (fun best => ((m.askLevels.lookup best).getD []).head?)
  else m.bestBid.bind (fun best => ((m.bidLevels.lookup best).getD []).head?)

/-- `sorted(levels)` for the asks, `sorted(levels, reverse=True)` for the bids. -/
def sortedPrices (m : ReferenceMatcher) (side : Side) : List Int :=
  if side = .buy then m.bidLevels.keys.insertionSort (· ≥ ·)
  else m.askLevels.keys.insertionSort (· ≤ ·)

def l2Side (m : ReferenceMatcher) (side : Side) : List (Int × Int) :=
  ((m.sortedPrices side).filter (fun price => ((m.levels side).lookup price).getD [] ≠ [])).map
    (fun price => (price, m.levelQuantity (((m.levels side).lookup price).getD [])))

def l2Levels (m : ReferenceMatcher) : List (Int × Int) × List (Int × Int) :=
  (m.l2Side .buy, m.l2Side .sell)

/-- The resting orders of one side as rows of id, side, price and remaining quantity. -/
def openSide (m : ReferenceMatcher) (side : Side) : List (Nat × Side × Int × Int) :=
  (m.sortedPrices side).flatMap fun price =>
    (((m.levels side).lookup price).getD []).map fun oid =>
      (oid, (m.stateAt oid).side, price, remaining (m.stateAt oid))

def openOrders (m : ReferenceMatcher) : List (Nat × Side × Int × Int) :=
  m.openSide .buy ++ m.openSide .sell

def crosses (m : ReferenceMatcher) (side : Side) (orderType : OrderType)
    (limitPriceTicks : Int) : Bool :=
  if side = .buy then
    match m.bestAsk with
    | none => false
    | some best => decide (orderType = .market ∨ limitPriceTicks ≥ best)
  else if side = .sell then
    match m.bestBid with
    | none => false
    | some best => decide (orderType = .market ∨ limitPriceTicks ≤ best)
  else false

/-- The loop of `_can_fully_fill` over the sorted levels. -/
def fillLevels (request : NewOrderRequest) (required : Int) : List (Int × Int) → Bool
  | [] => false
  | (price, quantity) :: levels =>
    if quantity = 0 then fillLevels request required levels
    else
      let executable := request.orderType = .market ∨
        (request.side = .buy ∧ price ≤ request.priceTicks) ∨
        (request.side = .sell ∧ price ≥ request.priceTicks)
      if ¬ executable then false
      else if quantity ≥ required then true
      else fillLevels request (required - quantity) levels

def canFullyFill (m : ReferenceMatcher) (request : NewOrderRequest) : Bool :=
  let side : Side := if request.side = .buy then .sell else .buy
  fillLevels request request.quantity ((m.sortedPrices side).map
    (fun price => (price, m.levelQuantity (((m.levels side).lookup price).getD []))))

def wouldSelfTrade (m : ReferenceMatcher) (incomingSide : Side) (orderType : OrderType)
    (limitPriceTicks : Int) (clientId : Nat) (excludedOrderId : Nat := invalidOrderId) : Bool :=
  if clientId = 0 then false
  else decide (∃ orderId ∈ m.inBook,
    orderId ≠ excludedOrderId ∧
    ¬ ((m.stateAt orderId).clientId ≠ clientId ∨
      (m.stateAt orderId).side ≠ opposite incomingSide) ∧
    (orderType = .market ∨
      (incomingSide = .buy ∧ limitPriceTicks ≥ (m.stateAt orderId).limitPriceTicks) ∨
      (incomingSide = .sell ∧ limitPriceTicks ≤ (m.stateAt orderId).limitPriceTicks)))

def restLimitOrder (m : ReferenceMatcher) (state : OrderState) : ReferenceMatcher :=
  let levels := m.levels state.side
  let m := m.setLevels state.side (levels.insert state.limitPriceTicks
    ((levels.lookup state.limitPriceTicks).getD [] ++ [state.exchangeOrderId]))
  { m with inBook := insert state.exchangeOrderId m.inBook }

def removeFromBook (m : ReferenceMatcher) (state : OrderState) : ReferenceMatcher :=
  let levels := m.levels state.side
  let queue := (levels.lookup state.limitPriceTicks).getD []
  let m :=
    if state.exchangeOrderId ∈ queue then
      let queue := queue.erase state.exchangeOrderId
      m.setLevels state.side
        (if queue = [] then levels.erase state.limitPriceTicks
        else levels.insert state.limitPriceTicks queue)
    else m
  { m with inBook := m.inBook.erase state.exchangeOrderId }

def fill (state : OrderState) (fillQuantity fillPrice : Int) : OrderState :=
  let state := { state with
    filledQuantity := state.filledQuantity + fillQuantity
    filledNotionalTicks := state.filledNotionalTicks + fillQuantity * fillPrice }
  { state with status := if remaining state = 0 then .filled else .partiallyFilled }

/-- The body of the matching loop for the order found at the front of the other side. -/
def matchIteration (w : Answering) (incoming resting : Nat) (rem ts : Int) : Answering × Int :=
  let m := w.matcher
  let fillPrice := (m.stateAt resting).limitPriceTicks
  let fillQuantity := min rem (remaining (m.stateAt resting))
  let m := m.setState resting (fill (m.stateAt resting) fillQuantity fillPrice)
  let m := m.setState incoming (fill (m.stateAt incoming) fillQuantity fillPrice)
  let reports := w.reports ++
    [makeReport (m.stateAt resting) .trade fillQuantity fillPrice ts .none,
     makeReport (m.stateAt incoming) .trade fillQuantity fillPrice ts .none]
  let m := if remaining (m.stateAt resting) = 0 then m.removeFromBook (m.stateAt resting) else m
  (⟨m, reports⟩, rem - fillQuantity)

def matchLoop (incoming : Nat) (ts : Int) : Nat → Answering → Int → Answering × Int
  | 0, w, rem => (w, rem)
  | n + 1, w, rem =>
    let state := w.matcher.stateAt incoming
    if decide (rem > 0) && w.matcher.crosses state.side state.orderType state.limitPriceTicks then
      match w.matcher.bestOpposingOrder state.side with
      | none => (w, rem)
      | some resting =>
        let (w, rem) := matchIteration w incoming resting rem ts
        matchLoop incoming ts n w rem
    else (w, rem)

def matchAgainstBook (w : Answering) (incoming : Nat) (rem ts : Int) : Answering × Int :=
  matchLoop incoming ts rem.toNat w rem

def emplaceOrder (m : ReferenceMatcher) (request : NewOrderRequest) : ReferenceMatcher :=
  let exchangeOrderId := m.nextExchangeOrderId
  let state : OrderState :=
    { clientOrderId := request.clientOrderId
      exchangeOrderId := exchangeOrderId
      symbolId := request.symbolId
      side := request.side
      orderType := request.orderType
      limitPriceTicks := request.priceTicks
      originalQuantity := request.quantity
      clientId := request.clientId
      timestampNs := request.timestampNs
      filledQuantity := 0
      filledNotionalTicks := 0
      status := .new }
  { m with
    nextExchangeOrderId := exchangeOrderId + 1
    states := m.states.insert exchangeOrderId state
    clientToExchange := m.clientToExchange.insert request.clientOrderId exchangeOrderId }

/-- The end of `submit_order`, after the matching loop. -/
def finishSubmit (w : Answering) (request : NewOrderRequest) (id : Nat) (rem : Int) : Answering :=
  if rem > 0 ∧ request.orderType = .limit ∧ request.timeInForce = .gtc then
    let m := w.matcher
    let m := if (m.stateAt id).filledQuantity > 0 then
        m.setState id { m.stateAt id with status := .partiallyFilled } else m
    { w with matcher := m.restLimitOrder (m.stateAt id) }
  else if rem > 0 then
    let m := w.matcher.setState id { w.matcher.stateAt id with status := .canceled }
    ⟨m, w.reports ++ [makeReport (m.stateAt id) .canceled 0 0 request.timestampNs .none]⟩
  else w

def acceptOrder (m : ReferenceMatcher) (request : NewOrderRequest) : Answering :=
  let id := m.nextExchangeOrderId
  let m := m.emplaceOrder request
  let reports := [makeReport (m.stateAt id) .new 0 0 request.timestampNs .none]
  let (w, rem) := matchAgainstBook ⟨m, reports⟩ id request.quantity request.timestampNs
  finishSubmit w request id rem

def submitOrder (m : ReferenceMatcher) (request : NewOrderRequest) : Answering :=
  let refuse (m : ReferenceMatcher) (reason : RejectReason) : Answering :=
    ⟨m, [reject request.clientOrderId request.symbolId request.side request.timestampNs reason]⟩
  if request.symbolId ≠ m.symbolId ∨ isValidSide request.side = false then refuse m .unsupported
  else if request.orderType ∉ [.limit, .market] then refuse m .unsupported
  else if request.quantity ≤ 0 then refuse m .invalidQuantity
  else if request.orderType = .limit ∧ request.priceTicks ≤ 0 then refuse m .invalidPrice
  else if request.timeInForce ∉ [.gtc, .ioc, .fok] then refuse m .unsupported
  else if request.postOnly = true ∧
      (request.orderType ≠ .limit ∨ request.timeInForce ≠ .gtc) then refuse m .unsupported
  else
    match m.reserveClientOrderId request.clientOrderId with
    | none => refuse m .duplicateClientOrderId
    | some m =>
      if request.postOnly && m.crosses request.side request.orderType request.priceTicks then
        refuse m .postOnlyWouldCross
      else if !request.postOnly && m.wouldSelfTrade request.side request.orderType
          request.priceTicks request.clientId then refuse m .selfTradePrevention
      else if decide (request.timeInForce = .fok) && !m.canFullyFill request then
        refuse m .fokNotFillable
      else m.acceptOrder request

def isKnown (m : ReferenceMatcher) (exchangeOrderId : Nat) : Bool :=
  (m.states.lookup exchangeOrderId).isSome && decide (exchangeOrderId ∈ m.inBook)

def cancelOrder (m : ReferenceMatcher) (request : CancelOrderRequest) : Answering :=
  let refuse (m : ReferenceMatcher) (reason : RejectReason) : Answering :=
    ⟨m, [reject request.clientOrderId m.symbolId .none request.timestampNs reason]⟩
  match m.reserveClientOrderId request.clientOrderId with
  | none => refuse m .duplicateClientOrderId
  | some m =>
    if !m.isKnown request.exchangeOrderId then refuse m .unknownOrder
    else
      let id := request.exchangeOrderId
      let m := m.removeFromBook (m.stateAt id)
      let m := m.setState id { m.stateAt id with status := .canceled }
      ⟨m, [makeReport (m.stateAt id) .canceled 0 0 request.timestampNs .none]⟩

/-- The end of `replace_order`, after the matching loop. -/
def finishReplace (w : Answering) (id : Nat) (rem : Int) : Answering :=
  if rem > 0 then
    let m := w.matcher
    let m := if (m.stateAt id).filledQuantity > 0 ∧ (m.stateAt id).status ≠ .replaced then
        m.setState id { m.stateAt id with status := .partiallyFilled } else m
    { w with matcher := m.restLimitOrder (m.stateAt id) }
  else w

def reworkOrder (m : ReferenceMatcher) (request : ReplaceOrderRequest) : Answering :=
  let id := request.exchangeOrderId
  let m := m.removeFromBook (m.stateAt id)
  let state := m.stateAt id
  let m := m.setState id { state with
    limitPriceTicks := request.newPriceTicks
    originalQuantity := state.filledQuantity + request.newQuantity
    status := .replaced
    timestampNs := request.timestampNs }
  let reports := [makeReport (m.stateAt id) .replaced 0 0 request.timestampNs .none]
  let (w, rem) := matchAgainstBook ⟨m, reports⟩ id request.newQuantity request.timestampNs
  finishReplace w id rem

def replaceOrder (m : ReferenceMatcher) (request : ReplaceOrderRequest) : Answering :=
  let refuse (m : ReferenceMatcher) (side : Side) (reason : RejectReason) : Answering :=
    ⟨m, [reject request.clientOrderId m.symbolId side request.timestampNs reason]⟩
  if request.newQuantity ≤ 0 then refuse m .none .invalidQuantity
  else if request.newPriceTicks ≤ 0 then refuse m .none .invalidPrice
  else
    match m.reserveClientOrderId request.clientOrderId with
    | none => refuse m .none .duplicateClientOrderId
    | some m =>
      if !m.isKnown request.exchangeOrderId then refuse m .none .unknownOrder
      else
        let state := m.stateAt request.exchangeOrderId
        if m.wouldSelfTrade state.side state.orderType request.newPriceTicks state.clientId
            state.exchangeOrderId then refuse m state.side .selfTradePrevention
        else m.reworkOrder request

def serve (m : ReferenceMatcher) : Request → Answering
  | .submit request => m.submitOrder request
  | .cancel request => m.cancelOrder request
  | .replace request => m.replaceOrder request

def run (m : ReferenceMatcher) : List Request → Answering
  | [] => ⟨m, []⟩
  | request :: requests =>
    let first := m.serve request
    let rest := first.matcher.run requests
    { rest with reports := first.reports ++ rest.reports }

end ReferenceMatcher
end Asterion
