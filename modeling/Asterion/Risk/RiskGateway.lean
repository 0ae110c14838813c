import Asterion.Matching.MatchingEngine
import Asterion.Risk.AuditRecorder
import Asterion.Lib.SortedMap
import Asterion.Lib.Tally

/-! The risk gateway: pre-trade checks, working orders and the switches that stop it. The results of
64-bit arithmetic pass through `fit`: the identity reads the code over the integers, `wrap64` as it
runs. Hash maps are association lists, in some order of iteration. -/
namespace Asterion
open Lib Lib.Tally

inductive RateLimitMode where
  | fixedWindow | slidingWindow
  deriving DecidableEq, Repr

inductive DisconnectOrderPolicy where
  | rejectNewOrders | allowNewOrders
  deriving DecidableEq, Repr

structure RiskLimits where
  maxOrderQuantity : Int := 1000
  maxNotionalTicks : Int := 1000000
  maxPositionPerSymbol : Int := 10000
  maxGrossExposureTicks : Int := 10000000
  priceBandTicks : Int := 100
  staleAfterNs : Int := 1000000000
  maxOpenOrderQuantity : Int := 0
  maxMessagesPerWindow : Nat := 0
  rateWindowNs : Int := 0
  enableSelfTradePrevention : Bool := false
  rateLimitMode : RateLimitMode := .fixedWindow
  cancelOnDisconnect : Bool := false
  disconnectOrderPolicy : DisconnectOrderPolicy := .rejectNewOrders
  deriving DecidableEq, Repr

structure RiskResult where
  accepted : Bool := false
  rejectReason : RejectReason := .none
  deriving DecidableEq, Repr

structure MarketState where
  referencePriceTicks : Int := 0
  lastTimestampNs : Int := 0
  deriving DecidableEq, Repr

structure WorkingOrder where
  clientId : Nat := 0
  symbolId : Nat := invalidSymbolId
  side : Side := .none
  priceTicks : Int := 0
  quantity : Int := 0
  exchangeOrderId : Nat := invalidOrderId
  deriving DecidableEq, Repr

/-- The working quantity of a client in a symbol by price, the most aggressive price first. -/
structure ClientWorkingBook where
  buyQtyByPrice : SortedMap (fun a b : Int => a > b) Int := .empty
  sellQtyByPrice : SortedMap (fun a b : Int => a < b) Int := .empty

structure RateState where
  windowStartNs : Int := 0
  count : Nat := 0
  active : Bool := false
  slidingTimestamps : List Int := []

structure RiskGateway where
  limits : RiskLimits := {}
  killSwitch : Bool := false
  acceptedClientOrderIds : Finset Nat := ∅
  marketState : AList (fun _ : Nat => MarketState) := ∅
  positions : AList (fun _ : Nat => Int) := ∅
  workingQuantity : AList (fun _ : Nat => Int) := ∅
  workingOrders : AList (fun _ : Nat => WorkingOrder) := ∅
  exchangeToClientOrderIds : AList (fun _ : Nat => Nat) := ∅
  /-- Under the key of a client and a symbol, which puts the two 32-bit ids side by side. -/
  clientBooks : AList (fun _ : Nat × Nat => ClientWorkingBook) := ∅
  rateStates : AList (fun _ : Nat => RateState) := ∅
  recorder : AuditRecorder := {}
  disconnectCount : Nat := 0
  disconnectCancelCount : Nat := 0
  connected : Bool := true

def absI64 (fit : Int → Int) (value : Int) : Int := if value < 0 then fit (-value) else value

namespace ClientWorkingBook

def isEmpty (book : ClientWorkingBook) : Bool :=
  book.buyQtyByPrice.entries.isEmpty && book.sellQtyByPrice.entries.isEmpty

section Levels
variable {K : Type} {r : K → K → Prop} [DecidableEq K] (fit : Int → Int)

def addLevel [DecidableRel r] [IsStrictTotalOrder K r] (m : SortedMap r Int) (k : K)
    (amount : Int) : SortedMap r Int :=
  m.upsert k 0 (fun x => fit (x + amount))

def reduceLevel (m : SortedMap r Int) (k : K) (amount : Int) : SortedMap r Int :=
  match m.find? k with
  | none => m
  | some x =>
    if fit (x - amount) ≤ 0 then m.erase k else m.modify k (fun x => fit (x - amount))

end Levels

def add (fit : Int → Int) (book : ClientWorkingBook) (side : Side) (price quantity : Int) :
    ClientWorkingBook :=
  match side with
  | .buy => { book with buyQtyByPrice := addLevel fit book.buyQtyByPrice price quantity }
  | .sell => { book with sellQtyByPrice := addLevel fit book.sellQtyByPrice price quantity }
  | .none => book

def reduce (fit : Int → Int) (book : ClientWorkingBook) (side : Side) (price quantity : Int) :
    ClientWorkingBook :=
  match side with
  | .buy => { book with buyQtyByPrice := reduceLevel fit book.buyQtyByPrice price quantity }
  | .sell => { book with sellQtyByPrice := reduceLevel fit book.sellQtyByPrice price quantity }
  | .none => book

end ClientWorkingBook

namespace RiskGateway

section Working
variable (fit : Int → Int)

def setLimits (g : RiskGateway) (limits : RiskLimits) : RiskGateway := { g with limits }

def tracksWorkingOrders (g : RiskGateway) : Bool :=
  decide (g.limits.maxOpenOrderQuantity > 0) || g.limits.enableSelfTradePrevention

def position (g : RiskGateway) (symbolId : Nat) : Int := (g.positions.lookup symbolId).getD 0

def workingQuantityOf (g : RiskGateway) (symbolId : Nat) : Int :=
  (g.workingQuantity.lookup symbolId).getD 0

def addWorkingOrderQuantity (g : RiskGateway) (order : WorkingOrder) (addQuantity : Int) :
    RiskGateway :=
  if addQuantity ≤ 0 then g
  else
    let key := (order.clientId, order.symbolId)
    { g with
      workingQuantity := Tally.add fit g.workingQuantity order.symbolId addQuantity
      clientBooks :=
        if g.limits.enableSelfTradePrevention then
          g.clientBooks.insert key
            (((g.clientBooks.lookup key).getD {}).add fit order.side order.priceTicks addQuantity)
        else g.clientBooks }

def releaseWorkingOrderQuantity (g : RiskGateway) (order : WorkingOrder) (releaseQuantity : Int) :
    RiskGateway :=
  if releaseQuantity ≤ 0 ∨ order.quantity ≤ 0 then g
  else
    let quantity := min releaseQuantity order.quantity
    let key := (order.clientId, order.symbolId)
    { g with
      workingQuantity := Tally.reduce fit g.workingQuantity order.symbolId quantity
      clientBooks :=
        match g.clientBooks.lookup key with
        | none => g.clientBooks
        | some book =>
          let book := book.reduce fit order.side order.priceTicks quantity
          if book.isEmpty then g.clientBooks.erase key else g.clientBooks.insert key book }

/-- A write through a reference into the map of working orders. -/
def setOrder (g : RiskGateway) (clientOrderId : Nat) (order : WorkingOrder) : RiskGateway :=
  { g with workingOrders := g.workingOrders.insert clientOrderId order }

/-- Only limit orders that are good till cancelled rest. -/
def registerWorkingOrder (g : RiskGateway) (request : NewOrderRequest) : RiskGateway :=
  if request.orderType ≠ .limit ∨ request.timeInForce ≠ .gtc then g
  else
    let order : WorkingOrder :=
      { clientId := request.clientId
        symbolId := request.symbolId
        side := request.side
        priceTicks := request.priceTicks
        quantity := request.quantity }
    addWorkingOrderQuantity fit (g.setOrder request.clientOrderId order) order order.quantity

/-- Takes the quantity of an order out and puts it in again at another price and quantity. -/
def resizeOrder (g : RiskGateway) (clientOrderId : Nat) (order : WorkingOrder)
    (newPrice newQuantity : Int) : RiskGateway :=
  let g := releaseWorkingOrderQuantity fit g order order.quantity
  let resized := { order with priceTicks := newPrice, quantity := newQuantity }
  addWorkingOrderQuantity fit (g.setOrder clientOrderId resized) resized newQuantity

def releaseOrder (g : RiskGateway) (clientOrderId : Nat) : RiskGateway :=
  match g.workingOrders.lookup clientOrderId with
  | none => g
  | some order =>
    let g := releaseWorkingOrderQuantity fit g order order.quantity
    { g with
      exchangeToClientOrderIds :=
        if order.exchangeOrderId ≠ invalidOrderId then
          g.exchangeToClientOrderIds.erase order.exchangeOrderId
        else g.exchangeToClientOrderIds
      workingOrders := g.workingOrders.erase clientOrderId }

def bindExchangeOrderId (g : RiskGateway) (clientOrderId : Nat) (order : WorkingOrder)
    (exchangeOrderId : Nat) : RiskGateway :=
  if exchangeOrderId = invalidOrderId ∨ order.exchangeOrderId = exchangeOrderId then g
  else
    let index :=
      if order.exchangeOrderId ≠ invalidOrderId then
        g.exchangeToClientOrderIds.erase order.exchangeOrderId
      else g.exchangeToClientOrderIds
    { g.setOrder clientOrderId { order with exchangeOrderId } with
      exchangeToClientOrderIds := index.insert exchangeOrderId clientOrderId }

/-- The working order a report is about: that of its client order id, else the one its exchange id
is bound to. -/
def findReported (g : RiskGateway) (report : ExecutionReport) : Option (Nat × WorkingOrder) :=
  match g.workingOrders.lookup report.clientOrderId with
  | some order => some (report.clientOrderId, order)
  | none =>
    if report.exchangeOrderId = invalidOrderId then none
    else
      (g.exchangeToClientOrderIds.lookup report.exchangeOrderId).bind (fun clientOrderId =>
        (g.workingOrders.lookup clientOrderId).map (fun order => (clientOrderId, order)))

/-- The report says that nothing of the order rests any more. -/
def closesOrder (report : ExecutionReport) : Bool :=
  report.execType == .rejected || report.orderStatus == .rejected ||
    report.orderStatus == .canceled || report.orderStatus == .filled ||
    decide (report.remainingQuantity ≤ 0)

def upsertWorkingOrderFromReport (g : RiskGateway) (report : ExecutionReport) : RiskGateway :=
  match findReported g report with
  | none => g
  | some (clientOrderId, order) =>
    if closesOrder report then releaseOrder fit g report.clientOrderId
    else
      let g := bindExchangeOrderId g clientOrderId order report.exchangeOrderId
      let order := (g.workingOrders.lookup clientOrderId).getD order
      let newPrice :=
        if report.restingPriceTicks > 0 then report.restingPriceTicks else order.priceTicks
      let newQuantity := report.remainingQuantity
      if order.quantity ≠ newQuantity ∨ order.priceTicks ≠ newPrice then
        resizeOrder fit g clientOrderId order newPrice newQuantity
      else g

def onExecutionReport (g : RiskGateway) (report : ExecutionReport) : RiskGateway :=
  if report.clientOrderId = invalidClientOrderId then g
  else upsertWorkingOrderFromReport fit g report

def onExecutionReports (g : RiskGateway) (reports : List ExecutionReport) : RiskGateway :=
  reports.foldl (onExecutionReport fit) g

def findWorkingOrderByExchange (g : RiskGateway) (exchangeOrderId : Nat) : Option WorkingOrder :=
  if exchangeOrderId = invalidOrderId then none
  else
    (g.exchangeToClientOrderIds.lookup exchangeOrderId).bind (fun clientOrderId =>
      g.workingOrders.lookup clientOrderId)

end Working

section Switches

def entry (timestampNs : Int) (clientOrderId symbolId : Nat) (side : Side) (accepted : Bool)
    (reason : RejectReason) (checkName : Text) (limitValue observedValue : Int) : RiskAuditEntry :=
  { timestampNs := Int64.ofInt timestampNs
    clientOrderId := UInt64.ofNat clientOrderId
    symbolId := UInt32.ofNat symbolId
    side := side
    accepted := accepted
    rejectReason := reason
    checkName := checkName
    limitValue := Int64.ofInt limitValue
    observedValue := Int64.ofInt observedValue }

def cancelAllWorkingOrders (g : RiskGateway) (timestampNs : Int) (reason : RejectReason)
    (checkName : Text) : RiskGateway :=
  { g with
    recorder :=
      if g.recorder.recordAudit then
        g.workingOrders.entries.foldl (fun recorder order =>
          recorder.recordAuditEntry (entry timestampNs order.1 order.2.symbolId order.2.side false
            reason checkName 0 order.2.quantity)) g.recorder
      else g.recorder
    disconnectCancelCount :=
      if reason = .disconnected then g.disconnectCancelCount + g.workingOrders.entries.length
      else g.disconnectCancelCount
    workingQuantity := ∅
    workingOrders := ∅
    exchangeToClientOrderIds := ∅
    clientBooks := ∅ }

def enableKillSwitch (g : RiskGateway) (timestampNs : Int) : RiskGateway :=
  cancelAllWorkingOrders { g with killSwitch := true } timestampNs .killSwitch
    (text "kill_switch_cancel")

def disableKillSwitch (g : RiskGateway) : RiskGateway := { g with killSwitch := false }

def onDisconnect (g : RiskGateway) (timestampNs : Int) : RiskGateway :=
  if !g.connected then g
  else
    let g := { g with connected := false, disconnectCount := g.disconnectCount + 1 }
    if g.limits.cancelOnDisconnect then
      cancelAllWorkingOrders g timestampNs .disconnected (text "disconnect_cancel")
    else g

def onReconnect (g : RiskGateway) : RiskGateway := { g with connected := true }

def onMarketData (g : RiskGateway) (symbolId : Nat) (referencePriceTicks timestampNs : Int) :
    RiskGateway :=
  { g with marketState :=
    g.marketState.insert symbolId { referencePriceTicks, lastTimestampNs := timestampNs } }

def setPosition (g : RiskGateway) (symbolId : Nat) (signedPosition : Int) : RiskGateway :=
  { g with positions := g.positions.insert symbolId signedPosition }

end Switches

section Checks
variable (fit : Int → Int)

def decide (g : RiskGateway) (nowNs : Int) (clientOrderId symbolId : Nat) (side : Side)
    (checkName : Text) (accepted : Bool) (reason : RejectReason) (limitValue observedValue : Int) :
    RiskGateway × RiskResult :=
  ({ g with recorder :=
      if g.recorder.recordAudit then
        g.recorder.recordAuditEntry (entry nowNs clientOrderId symbolId side accepted reason
          checkName limitValue observedValue)
      else g.recorder },
    { accepted, rejectReason := reason })

def decideOn (g : RiskGateway) (request : NewOrderRequest) (nowNs : Int) (checkName : Text)
    (accepted : Bool) (reason : RejectReason) (limitValue observedValue : Int) :
    RiskGateway × RiskResult :=
  g.decide nowNs request.clientOrderId request.symbolId request.side checkName accepted reason
    limitValue observedValue

def notionalFor (g : RiskGateway) (request : NewOrderRequest) : Int :=
  let price :=
    if request.orderType = .market then
      match g.marketState.lookup request.symbolId with
      | none => 0
      | some market => market.referencePriceTicks
    else request.priceTicks
  absI64 fit (fit (price * request.quantity))

def grossExposureWith (g : RiskGateway) (request : NewOrderRequest) : Int :=
  g.positions.entries.foldl (fun gross position =>
    match g.marketState.lookup position.1 with
    | none => gross
    | some market =>
      fit (gross + fit (absI64 fit position.2 * market.referencePriceTicks)))
    (notionalFor fit g request)

/-- Whether the order is allowed, and the opposing price it was compared with. -/
def selfTradeCheckAllows (g : RiskGateway) (request : NewOrderRequest) : Bool × Int :=
  if !g.limits.enableSelfTradePrevention then (true, 0)
  else if request.postOnly then (true, 0)
  else
    match g.clientBooks.lookup (request.clientId, request.symbolId) with
    | none => (true, 0)
    | some book =>
      match request.side, book.sellQtyByPrice.entries, book.buyQtyByPrice.entries with
      | .buy, (opposing, _) :: _, _ =>
        (request.orderType != .market && Decidable.decide (request.priceTicks < opposing), opposing)
      | .sell, _, (opposing, _) :: _ =>
        (request.orderType != .market && Decidable.decide (request.priceTicks > opposing), opposing)
      | _, _, _ => (true, 0)

/-- The gateway with the rate state of the client, whether the message is allowed, and the number
of messages. -/
def rateLimitAllows (g : RiskGateway) (request : NewOrderRequest) (nowNs : Int) :
    RiskGateway × Bool × Int :=
  if g.limits.maxMessagesPerWindow = 0 ∨ g.limits.rateWindowNs ≤ 0 then (g, true, 0)
  else
    let state := (g.rateStates.lookup request.clientId).getD {}
    let store (state : RateState) : RiskGateway :=
      { g with rateStates := g.rateStates.insert request.clientId state }
    if g.limits.rateLimitMode = .slidingWindow then
      let timestamps := state.slidingTimestamps.dropWhile (fun timestampNs =>
        fit (nowNs - timestampNs) ≥ g.limits.rateWindowNs) ++ [nowNs]
      (store { state with slidingTimestamps := timestamps },
        Decidable.decide (timestamps.length ≤ g.limits.maxMessagesPerWindow), timestamps.length)
    else
      let state :=
        if !state.active || Decidable.decide
            (fit (nowNs - state.windowStartNs) ≥ g.limits.rateWindowNs) then
          { state with windowStartNs := nowNs, count := 0, active := true }
        else state
      let state := { state with count := (state.count + 1) % 2 ^ 32 }
      (store state, Decidable.decide (state.count ≤ g.limits.maxMessagesPerWindow), state.count)

def signedDelta (side : Side) (quantity : Int) : Int :=
  if side = .buy then quantity else fit (-quantity)

def checkNewOrder (g : RiskGateway) (request : NewOrderRequest) (nowNs : Int) :
    RiskGateway × RiskResult :=
  if g.killSwitch then
    g.decideOn request nowNs (text "kill_switch") false .killSwitch 0 0
  else if !g.connected && g.limits.disconnectOrderPolicy == .rejectNewOrders then
    g.decideOn request nowNs (text "disconnected") false .disconnected 0 0
  else
    let (g, allowed, observedRate) := rateLimitAllows fit g request nowNs
    if !allowed then
      let checkName :=
        if g.limits.rateLimitMode = .slidingWindow then text "message_rate_limit_sliding"
        else text "message_rate_limit"
      g.decideOn request nowNs checkName false .messageRateLimit g.limits.maxMessagesPerWindow
        observedRate
    else if request.quantity ≤ 0 then
      g.decideOn request nowNs (text "invalid_quantity") false .invalidQuantity 0 request.quantity
    else if request.orderType = .limit ∧ request.priceTicks ≤ 0 then
      g.decideOn request nowNs (text "invalid_price") false .invalidPrice 0 request.priceTicks
    else if request.clientOrderId ∈ g.acceptedClientOrderIds then
      g.decideOn request nowNs (text "duplicate_client_order_id") false .duplicateClientOrderId 0
        request.clientOrderId
    else if request.quantity > g.limits.maxOrderQuantity then
      g.decideOn request nowNs (text "max_order_quantity") false .maxOrderQuantity
        g.limits.maxOrderQuantity request.quantity
    else
      match g.marketState.lookup request.symbolId with
      | none =>
        g.decideOn request nowNs (text "stale_market_data") false .staleMarketData
          g.limits.staleAfterNs 0
      | some market =>
        let ageNs := fit (nowNs - market.lastTimestampNs)
        let distance := absI64 fit (fit (request.priceTicks - market.referencePriceTicks))
        let notional := notionalFor fit g request
        let selfTrade := selfTradeCheckAllows g request
        let projectedWorking := fit (g.workingQuantityOf request.symbolId + request.quantity)
        let projectedPosition :=
          fit (g.position request.symbolId + signedDelta fit request.side request.quantity)
        let grossExposure := grossExposureWith fit g request
        if g.limits.staleAfterNs > 0 ∧ ageNs > g.limits.staleAfterNs then
          g.decideOn request nowNs (text "stale_market_data") false .staleMarketData
            g.limits.staleAfterNs ageNs
        else if request.orderType = .limit ∧ distance > g.limits.priceBandTicks then
          g.decideOn request nowNs (text "price_band") false .priceBand g.limits.priceBandTicks
            distance
        else if notional > g.limits.maxNotionalTicks then
          g.decideOn request nowNs (text "max_notional") false .maxNotional
            g.limits.maxNotionalTicks notional
        else if !selfTrade.1 then
          g.decideOn request nowNs (text "self_trade_prevention") false .selfTradePrevention
            request.priceTicks selfTrade.2
        else if (g.limits.maxOpenOrderQuantity > 0 ∧ request.orderType = .limit ∧
            request.timeInForce = .gtc) ∧ projectedWorking > g.limits.maxOpenOrderQuantity then
          g.decideOn request nowNs (text "max_open_order_quantity") false .maxOpenOrderQuantity
            g.limits.maxOpenOrderQuantity projectedWorking
        else if absI64 fit projectedPosition > g.limits.maxPositionPerSymbol then
          g.decideOn request nowNs (text "max_position") false .maxPosition
            g.limits.maxPositionPerSymbol (absI64 fit projectedPosition)
        else if grossExposure > g.limits.maxGrossExposureTicks then
          g.decideOn request nowNs (text "max_gross_exposure") false .maxGrossExposure
            g.limits.maxGrossExposureTicks grossExposure
        else
          let g := { g with
            acceptedClientOrderIds := insert request.clientOrderId g.acceptedClientOrderIds }
          let g := if g.tracksWorkingOrders then registerWorkingOrder fit g request else g
          g.decideOn request nowNs (text "accepted") true .none g.limits.maxNotionalTicks notional

def replacementFor (existing : WorkingOrder) (request : ReplaceOrderRequest) : NewOrderRequest :=
  { clientOrderId := request.clientOrderId
    symbolId := existing.symbolId
    side := existing.side
    orderType := .limit
    priceTicks := request.newPriceTicks
    quantity := request.newQuantity
    timestampNs := request.timestampNs
    clientId := existing.clientId }

/-- The part of the replace check behind the lookup of the order. -/
def checkReplacement (g : RiskGateway) (clientOrderId : Nat) (existing : WorkingOrder)
    (request : ReplaceOrderRequest) (nowNs : Int) : RiskGateway × RiskResult :=
  let replacement := replacementFor existing request
  let (g, allowed, observedRate) := rateLimitAllows fit g replacement nowNs
  if !allowed then
    let checkName :=
      if g.limits.rateLimitMode = .slidingWindow then text "replace_message_rate_limit_sliding"
      else text "replace_message_rate_limit"
    g.decideOn replacement nowNs checkName false .messageRateLimit g.limits.maxMessagesPerWindow
      observedRate
  else if request.newQuantity > g.limits.maxOrderQuantity then
    g.decideOn replacement nowNs (text "replace_max_order_quantity") false .maxOrderQuantity
      g.limits.maxOrderQuantity request.newQuantity
  else
    match g.marketState.lookup existing.symbolId with
    | none =>
      g.decideOn replacement nowNs (text "replace_stale_market_data") false .staleMarketData
        g.limits.staleAfterNs 0
    | some market =>
      let ageNs := fit (nowNs - market.lastTimestampNs)
      let distance := absI64 fit (fit (request.newPriceTicks - market.referencePriceTicks))
      let notional := notionalFor fit g replacement
      let selfTrade := selfTradeCheckAllows g replacement
      let projectedWorking :=
        fit (fit (g.workingQuantityOf existing.symbolId - existing.quantity) + request.newQuantity)
      let projectedPosition :=
        fit (g.position existing.symbolId + signedDelta fit existing.side request.newQuantity)
      let grossExposure := grossExposureWith fit g replacement
      if g.limits.staleAfterNs > 0 ∧ ageNs > g.limits.staleAfterNs then
        g.decideOn replacement nowNs (text "replace_stale_market_data") false .staleMarketData
          g.limits.staleAfterNs ageNs
      else if distance > g.limits.priceBandTicks then
        g.decideOn replacement nowNs (text "replace_price_band") false .priceBand
          g.limits.priceBandTicks distance
      else if notional > g.limits.maxNotionalTicks then
        g.decideOn replacement nowNs (text "replace_max_notional") false .maxNotional
          g.limits.maxNotionalTicks notional
      else if !selfTrade.1 then
        g.decideOn replacement nowNs (text "replace_self_trade_prevention") false
          .selfTradePrevention request.newPriceTicks selfTrade.2
      else if g.limits.maxOpenOrderQuantity > 0 ∧
          projectedWorking > g.limits.maxOpenOrderQuantity then
        g.decideOn replacement nowNs (text "replace_max_open_order_quantity") false
          .maxOpenOrderQuantity g.limits.maxOpenOrderQuantity projectedWorking
      else if absI64 fit projectedPosition > g.limits.maxPositionPerSymbol then
        g.decideOn replacement nowNs (text "replace_max_position") false .maxPosition
          g.limits.maxPositionPerSymbol (absI64 fit projectedPosition)
      else if grossExposure > g.limits.maxGrossExposureTicks then
        g.decideOn replacement nowNs (text "replace_max_gross_exposure") false .maxGrossExposure
          g.limits.maxGrossExposureTicks grossExposure
      else
        let g := resizeOrder fit g clientOrderId existing request.newPriceTicks request.newQuantity
        let g := { g with
          acceptedClientOrderIds := insert request.clientOrderId g.acceptedClientOrderIds }
        g.decideOn replacement nowNs (text "replace_accepted") true .none g.limits.maxNotionalTicks
          notional

def checkReplaceOrder (g : RiskGateway) (request : ReplaceOrderRequest) (nowNs : Int) :
    RiskGateway × RiskResult :=
  let reject (checkName : Text) (reason : RejectReason) (observedValue : Int) :
      RiskGateway × RiskResult :=
    g.decide nowNs request.clientOrderId invalidSymbolId .none checkName false reason 0
      observedValue
  if g.killSwitch then reject (text "kill_switch") .killSwitch 0
  else if !g.connected && g.limits.disconnectOrderPolicy == .rejectNewOrders then
    reject (text "disconnected") .disconnected 0
  else if request.newQuantity ≤ 0 then
    reject (text "replace_invalid_quantity") .invalidQuantity request.newQuantity
  else if request.newPriceTicks ≤ 0 then
    reject (text "replace_invalid_price") .invalidPrice request.newPriceTicks
  else if request.clientOrderId ∈ g.acceptedClientOrderIds then
    reject (text "replace_duplicate_client_order_id") .duplicateClientOrderId request.clientOrderId
  else
    match g.exchangeToClientOrderIds.lookup request.exchangeOrderId with
    | none => reject (text "unknown_replace_order_id") .unknownOrder request.exchangeOrderId
    | some clientOrderId =>
      match g.workingOrders.lookup clientOrderId with
      | none => reject (text "unknown_replace_order_id") .unknownOrder request.exchangeOrderId
      | some existing => checkReplacement fit g clientOrderId existing request nowNs

end Checks

/-- The public operations that change the gateway. -/
inductive Operation where
  | setLimits (limits : RiskLimits)
  | enableKillSwitch (timestampNs : Int)
  | disableKillSwitch
  | onDisconnect (timestampNs : Int)
  | onReconnect
  | onMarketData (symbolId : Nat) (referencePriceTicks timestampNs : Int)
  | setPosition (symbolId : Nat) (signedPosition : Int)
  | checkNewOrder (request : NewOrderRequest) (nowNs : Int)
  | checkReplaceOrder (request : ReplaceOrderRequest) (nowNs : Int)
  | releaseOrder (clientOrderId : Nat)
  | onExecutionReport (report : ExecutionReport)
  | setAuditEnabled (enabled : Bool)
  | clearAudit

/-- The gateway after an operation, and the result of a check. -/
def perform (fit : Int → Int) (g : RiskGateway) : Operation → RiskGateway × Option RiskResult
  | .setLimits limits => (g.setLimits limits, none)
  | .enableKillSwitch timestampNs => (g.enableKillSwitch timestampNs, none)
  | .disableKillSwitch => (g.disableKillSwitch, none)
  | .onDisconnect timestampNs => (g.onDisconnect timestampNs, none)
  | .onReconnect => (g.onReconnect, none)
  | .onMarketData symbolId referencePriceTicks timestampNs =>
    (g.onMarketData symbolId referencePriceTicks timestampNs, none)
  | .setPosition symbolId signedPosition => (g.setPosition symbolId signedPosition, none)
  | .checkNewOrder request nowNs =>
    let checked := checkNewOrder fit g request nowNs
    (checked.1, some checked.2)
  | .checkReplaceOrder request nowNs =>
    let checked := checkReplaceOrder fit g request nowNs
    (checked.1, some checked.2)
  | .releaseOrder clientOrderId => (releaseOrder fit g clientOrderId, none)
  | .onExecutionReport report => (onExecutionReport fit g report, none)
  | .setAuditEnabled enabled => ({ g with recorder := g.recorder.setAuditEnabled enabled }, none)
  | .clearAudit => ({ g with recorder := g.recorder.clearAudit }, none)

def after (fit : Int → Int) (g : RiskGateway) (operations : List Operation) : RiskGateway :=
  operations.foldl (fun g operation => (perform fit g operation).1) g

end RiskGateway

end Asterion
