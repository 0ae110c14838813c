import Asterion.Core.Checksum

/-! Order and report vocabulary of the matching engine, the state kept for each accepted
order, and the checksum of a report. -/
namespace Asterion

/-- A byte that is no enumerator is `other`. -/
inductive OrderType where
  | limit | market | other (value : UInt8)
  deriving DecidableEq, Repr, Inhabited

inductive TimeInForce where
  | gtc | ioc | fok | other (value : UInt8)
  deriving DecidableEq, Repr, Inhabited

inductive OrderStatus where
  | new | partiallyFilled | filled | canceled | replaced | rejected
  deriving DecidableEq, Repr, Inhabited

inductive ExecType where
  | new | trade | canceled | replaced | rejected
  deriving DecidableEq, Repr, Inhabited

inductive RejectReason where
  | none | invalidQuantity | invalidPrice | duplicateClientOrderId | unknownOrder | killSwitch
  | maxOrderQuantity | maxNotional | maxPosition | maxGrossExposure | priceBand
  | staleMarketData | unsupported | internalError | maxOpenOrderQuantity | messageRateLimit
  | selfTradePrevention | disconnected | maxPortfolioGrossExposure | maxPortfolioNetExposure
  | maxSymbolConcentration | maxPortfolioLoss | postOnlyWouldCross | fokNotFillable
  deriving DecidableEq, Repr, Inhabited

/-- The enumerators of the status are numbered from one. -/
def OrderStatus.toByte (status : OrderStatus) : Nat := status.ctorIdx + 1
def ExecType.toByte (execType : ExecType) : Nat := execType.ctorIdx + 1
def RejectReason.toByte (reason : RejectReason) : Nat := reason.ctorIdx

structure ExecutionReport where
  clientOrderId : Nat := invalidClientOrderId
  exchangeOrderId : Nat := invalidOrderId
  symbolId : Nat := invalidSymbolId
  side : Side := .none
  orderStatus : OrderStatus := .rejected
  execType : ExecType := .rejected
  filledQuantity : Int := 0
  remainingQuantity : Int := 0
  lastFillQuantity : Int := 0
  lastFillPriceTicks : Int := 0
  averagePriceTicks : Int := 0
  restingPriceTicks : Int := 0
  timestampNs : Int := 0
  rejectReason : RejectReason := .none
  deriving DecidableEq, Repr, Inhabited

def ExecutionReport.appendToChecksum (seed : UInt64) (report : ExecutionReport) : UInt64 :=
  let seed := checksumAppend 8 seed report.clientOrderId
  let seed := checksumAppend 8 seed report.exchangeOrderId
  let seed := checksumAppend 4 seed report.symbolId
  let seed := checksumAppend 1 seed report.side.toByte
  let seed := checksumAppend 1 seed report.orderStatus.toByte
  let seed := checksumAppend 1 seed report.execType.toByte
  let seed := checksumAppend 8 seed report.filledQuantity
  let seed := checksumAppend 8 seed report.remainingQuantity
  let seed := checksumAppend 8 seed report.lastFillQuantity
  let seed := checksumAppend 8 seed report.lastFillPriceTicks
  let seed := checksumAppend 8 seed report.averagePriceTicks
  let seed := checksumAppend 8 seed report.restingPriceTicks
  let seed := checksumAppend 8 seed report.timestampNs
  checksumAppend 1 seed report.rejectReason.toByte

structure OrderState where
  clientOrderId : Nat := invalidClientOrderId
  exchangeOrderId : Nat := invalidOrderId
  symbolId : Nat := invalidSymbolId
  side : Side := .none
  orderType : OrderType := .limit
  limitPriceTicks : Int := 0
  originalQuantity : Int := 0
  filledQuantity : Int := 0
  filledNotionalTicks : Int := 0
  clientId : Nat := 0
  status : OrderStatus := .new
  timestampNs : Int := 0
  deriving DecidableEq, Repr, Inhabited

def remainingQuantity (state : OrderState) : Int :=
  let remaining := state.originalQuantity - state.filledQuantity
  if remaining > 0 then remaining else 0

/-- Integer division truncates towards zero. -/
def averagePriceTicks (state : OrderState) : Int :=
  if state.filledQuantity ≤ 0 then 0 else state.filledNotionalTicks.tdiv state.filledQuantity

/-- The bookkeeping of one fill, the same for the resting and the incoming order. -/
def OrderState.fill (state : OrderState) (fillQuantity fillPrice : Int) : OrderState :=
  let state := { state with
    filledQuantity := state.filledQuantity + fillQuantity
    filledNotionalTicks := state.filledNotionalTicks + fillQuantity * fillPrice }
  { state with status := if remainingQuantity state = 0 then .filled else .partiallyFilled }

def makeReport (state : OrderState) (execType : ExecType) (lastFillQuantity : Int)
    (lastFillPriceTicks : Int) (timestampNs : Int) (rejectReason : RejectReason) :
    ExecutionReport :=
  let remaining :=
    if state.status = .canceled ∨ state.status = .filled ∨ state.status = .rejected then 0
    else remainingQuantity state
  { clientOrderId := state.clientOrderId
    exchangeOrderId := state.exchangeOrderId
    symbolId := state.symbolId
    side := state.side
    orderStatus := state.status
    execType := execType
    filledQuantity := state.filledQuantity
    remainingQuantity := remaining
    lastFillQuantity := lastFillQuantity
    lastFillPriceTicks := lastFillPriceTicks
    averagePriceTicks := averagePriceTicks state
    restingPriceTicks :=
      if remaining > 0 ∧ state.orderType = .limit then state.limitPriceTicks else 0
    timestampNs := timestampNs
    rejectReason := rejectReason }

def makeReject (clientOrderId symbolId : Nat) (side : Side) (timestampNs : Int)
    (reason : RejectReason) : ExecutionReport :=
  { clientOrderId, symbolId, side, timestampNs, rejectReason := reason }

end Asterion
