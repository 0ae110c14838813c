import Asterion.Risk.RiskGateway

/-! The simulated broker session: its connection, the orders it knows, and the log of its events. The
gateway it notifies is part of its state. -/
namespace Asterion

inductive SessionConnectionState where
  | disconnected | connected
  deriving DecidableEq, Repr

inductive BrokerOrderState where
  | accepted | pendingCancel | canceled | filled
  deriving DecidableEq, Repr

inductive BrokerEventType where
  | connect | disconnect | reconnect | orderAccepted | cancelRequested | cancelAcknowledged
  | cancelRejected | orderFilled
  deriving DecidableEq, Repr

/-- The enumerators are numbered from one. -/
def BrokerEventType.toByte (type : BrokerEventType) : Nat := type.ctorIdx + 1

structure BrokerSessionEvent where
  timestampNs : Int := 0
  type : BrokerEventType := .connect
  exchangeOrderId : Nat := invalidOrderId
  clientOrderId : Nat := invalidClientOrderId
  symbolId : Nat := invalidSymbolId
  side : Side := .none
  quantity : Int := 0
  deriving DecidableEq, Repr

def BrokerSessionEvent.appendToChecksum (seed : UInt64) (event : BrokerSessionEvent) : UInt64 :=
  let seed := checksumAppend 8 seed event.timestampNs
  let seed := checksumAppend 1 seed event.type.toByte
  let seed := checksumAppend 8 seed event.exchangeOrderId
  let seed := checksumAppend 8 seed event.clientOrderId
  let seed := checksumAppend 4 seed event.symbolId
  let seed := checksumAppend 1 seed event.side.toByte
  checksumAppend 8 seed event.quantity

def checksumBrokerSessionEvents (events : List BrokerSessionEvent) : UInt64 :=
  events.foldl BrokerSessionEvent.appendToChecksum fnvOffsetBasis

structure BrokerSessionSnapshot where
  connectionState : SessionConnectionState := .disconnected
  connectCount : Nat := 0
  disconnectCount : Nat := 0
  reconnectCount : Nat := 0
  liveOrderCount : Nat := 0
  pendingCancelCount : Nat := 0
  filledOrderCount : Nat := 0
  canceledOrderCount : Nat := 0
  cancelRejectCount : Nat := 0
  eventCount : Nat := 0
  eventChecksum : UInt64 := 0
  deriving DecidableEq, Repr

structure OrderRecord where
  clientOrderId : Nat := invalidClientOrderId
  symbolId : Nat := invalidSymbolId
  side : Side := .none
  quantity : Int := 0
  state : BrokerOrderState := .accepted
  deriving DecidableEq, Repr

def BrokerOrderState.isLive (state : BrokerOrderState) : Bool :=
  state == .accepted || state == .pendingCancel

structure SimulatedBrokerSession where
  gateway : Option RiskGateway := none
  cancelOnDisconnect : Bool := false
  state : SessionConnectionState := .disconnected
  connectCount : Nat := 0
  disconnectCount : Nat := 0
  reconnectCount : Nat := 0
  filledOrderCount : Nat := 0
  canceledOrderCount : Nat := 0
  cancelRejectCount : Nat := 0
  orders : AList (fun _ : Nat => OrderRecord) := ∅
  events : List BrokerSessionEvent := []
  eventChecksum : UInt64 := fnvOffsetBasis

namespace SimulatedBrokerSession

def recordEvent (s : SimulatedBrokerSession) (event : BrokerSessionEvent) : SimulatedBrokerSession :=
  { s with
    eventChecksum := event.appendToChecksum s.eventChecksum
    events := s.events ++ [event] }

def connect (s : SimulatedBrokerSession) (timestampNs : Int) : SimulatedBrokerSession :=
  if s.state = .connected then s
  else
    recordEvent { s with state := .connected, connectCount := s.connectCount + 1 }
      { timestampNs, type := .connect }

def orderEvent (timestampNs : Int) (type : BrokerEventType) (exchangeOrderId : Nat)
    (record : OrderRecord) : BrokerSessionEvent :=
  { timestampNs
    type
    exchangeOrderId
    clientOrderId := record.clientOrderId
    symbolId := record.symbolId
    side := record.side
    quantity := record.quantity }

def move (s : SimulatedBrokerSession) (exchangeOrderId : Nat) (record : OrderRecord)
    (next : BrokerOrderState) (type : BrokerEventType) (timestampNs : Int) :
    SimulatedBrokerSession :=
  recordEvent { s with orders := s.orders.insert exchangeOrderId { record with state := next } }
    (orderEvent timestampNs type exchangeOrderId record)

/-- A transition of an order, which is refused unless the order is known and its state allows it. -/
def transition (s : SimulatedBrokerSession) (allowed : BrokerOrderState → Bool)
    (next : BrokerOrderState) (type : BrokerEventType)
    (count : SimulatedBrokerSession → SimulatedBrokerSession) (exchangeOrderId : Nat)
    (timestampNs : Int) : SimulatedBrokerSession × Bool :=
  match s.orders.lookup exchangeOrderId with
  | none => (s, false)
  | some record =>
    if !allowed record.state then (s, false)
    else ((count s).move exchangeOrderId record next type timestampNs, true)

def liveIds (s : SimulatedBrokerSession) : List Nat :=
  ((s.orders.entries.filter (fun e => e.2.state.isLive)).map Sigma.fst).insertionSort (· ≤ ·)

def requestOnDisconnect (timestampNs : Int) (s : SimulatedBrokerSession) (orderId : Nat) :
    SimulatedBrokerSession :=
  (s.transition (· != .pendingCancel) .pendingCancel .cancelRequested (fun s => s) orderId
    timestampNs).1

def disconnect (s : SimulatedBrokerSession) (timestampNs : Int) : SimulatedBrokerSession :=
  if s.state = .disconnected then s
  else
    let s := recordEvent
      { s with state := .disconnected, disconnectCount := s.disconnectCount + 1 }
      { timestampNs, type := .disconnect }
    let s :=
      if s.cancelOnDisconnect then s.liveIds.foldl (requestOnDisconnect timestampNs) s else s
    { s with gateway := s.gateway.map (fun gateway => gateway.onDisconnect timestampNs) }

def reconnect (s : SimulatedBrokerSession) (timestampNs : Int) : SimulatedBrokerSession :=
  if s.state = .connected then s
  else
    let s := recordEvent { s with state := .connected, reconnectCount := s.reconnectCount + 1 }
      { timestampNs, type := .reconnect }
    { s with gateway := s.gateway.map RiskGateway.onReconnect }

def onOrderAccepted (s : SimulatedBrokerSession) (exchangeOrderId clientOrderId symbolId : Nat)
    (side : Side) (quantity timestampNs : Int) : SimulatedBrokerSession × Bool :=
  if s.state ≠ .connected ∨ exchangeOrderId = invalidOrderId then (s, false)
  else if (s.orders.lookup exchangeOrderId).isSome then (s, false)
  else
    let record : OrderRecord := { clientOrderId, symbolId, side, quantity, state := .accepted }
    (s.move exchangeOrderId record .accepted .orderAccepted timestampNs, true)

def requestCancel (s : SimulatedBrokerSession) (exchangeOrderId : Nat) (timestampNs : Int) :
    SimulatedBrokerSession × Bool :=
  s.transition (· == .accepted) .pendingCancel .cancelRequested (fun s => s) exchangeOrderId
    timestampNs

def acknowledgeCancel (s : SimulatedBrokerSession) (exchangeOrderId : Nat) (timestampNs : Int) :
    SimulatedBrokerSession × Bool :=
  s.transition (· == .pendingCancel) .canceled .cancelAcknowledged
    (fun s => { s with canceledOrderCount := s.canceledOrderCount + 1 }) exchangeOrderId timestampNs

def rejectCancel (s : SimulatedBrokerSession) (exchangeOrderId : Nat) (timestampNs : Int) :
    SimulatedBrokerSession × Bool :=
  s.transition (· == .pendingCancel) .accepted .cancelRejected
    (fun s => { s with cancelRejectCount := s.cancelRejectCount + 1 }) exchangeOrderId timestampNs

def onOrderFilled (s : SimulatedBrokerSession) (exchangeOrderId : Nat) (timestampNs : Int) :
    SimulatedBrokerSession × Bool :=
  s.transition (fun state => state == .accepted || state == .pendingCancel) .filled .orderFilled
    (fun s => { s with filledOrderCount := s.filledOrderCount + 1 }) exchangeOrderId timestampNs

def countOrders (s : SimulatedBrokerSession) (kind : BrokerOrderState → Bool) : Nat :=
  s.orders.entries.countP (fun e => kind e.2.state)

def pendingCancelCount (s : SimulatedBrokerSession) : Nat := s.countOrders (· == .pendingCancel)

def liveOrderCount (s : SimulatedBrokerSession) : Nat := s.countOrders BrokerOrderState.isLive

def snapshot (s : SimulatedBrokerSession) : BrokerSessionSnapshot :=
  { connectionState := s.state
    connectCount := s.connectCount
    disconnectCount := s.disconnectCount
    reconnectCount := s.reconnectCount
    liveOrderCount := s.liveOrderCount
    pendingCancelCount := s.pendingCancelCount
    filledOrderCount := s.filledOrderCount
    canceledOrderCount := s.canceledOrderCount
    cancelRejectCount := s.cancelRejectCount
    eventCount := s.events.length
    eventChecksum := s.eventChecksum }

end SimulatedBrokerSession

/-- The operations that change a session. -/
inductive SessionOperation where
  | setCancelOnDisconnect (enabled : Bool)
  | connect (timestampNs : Int)
  | disconnect (timestampNs : Int)
  | reconnect (timestampNs : Int)
  | onOrderAccepted (exchangeOrderId clientOrderId symbolId : Nat) (side : Side)
      (quantity timestampNs : Int)
  | requestCancel (exchangeOrderId : Nat) (timestampNs : Int)
  | acknowledgeCancel (exchangeOrderId : Nat) (timestampNs : Int)
  | rejectCancel (exchangeOrderId : Nat) (timestampNs : Int)
  | onOrderFilled (exchangeOrderId : Nat) (timestampNs : Int)

namespace SimulatedBrokerSession

/-- The session after an operation, and what the operation returns if it returns something. -/
def perform (s : SimulatedBrokerSession) :
    SessionOperation → SimulatedBrokerSession × Option Bool
  | .setCancelOnDisconnect enabled => ({ s with cancelOnDisconnect := enabled }, none)
  | .connect timestampNs => (s.connect timestampNs, none)
  | .disconnect timestampNs => (s.disconnect timestampNs, none)
  | .reconnect timestampNs => (s.reconnect timestampNs, none)
  | .onOrderAccepted exchangeOrderId clientOrderId symbolId side quantity timestampNs =>
    (s.onOrderAccepted exchangeOrderId clientOrderId symbolId side quantity timestampNs).map id some
  | .requestCancel exchangeOrderId timestampNs =>
    (s.requestCancel exchangeOrderId timestampNs).map id some
  | .acknowledgeCancel exchangeOrderId timestampNs =>
    (s.acknowledgeCancel exchangeOrderId timestampNs).map id some
  | .rejectCancel exchangeOrderId timestampNs =>
    (s.rejectCancel exchangeOrderId timestampNs).map id some
  | .onOrderFilled exchangeOrderId timestampNs =>
    (s.onOrderFilled exchangeOrderId timestampNs).map id some

def step (s : SimulatedBrokerSession) (operation : SessionOperation) : SimulatedBrokerSession :=
  (s.perform operation).1

end SimulatedBrokerSession

end Asterion
