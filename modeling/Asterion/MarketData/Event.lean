import Asterion.Core.Checksum

/-! Market data events and their checksum. -/
namespace Asterion

inductive MarketEventType where
  | add | cancel | replace | execute | trade | snapshot | heartbeat
  deriving DecidableEq, Repr, Inhabited

/-- The enumerators are numbered from one. -/
def MarketEventType.toByte (type : MarketEventType) : Nat := type.ctorIdx + 1

def snapshotBeginFlag : Nat := 1
def snapshotEndFlag : Nat := 2

structure MarketDataEvent where
  timestampNs : Int := 0
  sequenceNumber : Nat := 0
  symbolId : Nat := invalidSymbolId
  eventType : MarketEventType := .heartbeat
  side : Side := .none
  priceTicks : Int := 0
  quantity : Int := 0
  orderId : Nat := invalidOrderId
  tradeId : Nat := 0
  flags : Nat := 0
  deriving DecidableEq, Repr, Inhabited

def MarketDataEvent.beginsSnapshot (event : MarketDataEvent) : Bool :=
  event.flags &&& snapshotBeginFlag != 0

def MarketDataEvent.appendToChecksum (seed : UInt64) (event : MarketDataEvent) : UInt64 :=
  let seed := checksumAppend 8 seed event.timestampNs
  let seed := checksumAppend 8 seed event.sequenceNumber
  let seed := checksumAppend 4 seed event.symbolId
  let seed := checksumAppend 1 seed event.eventType.toByte
  let seed := checksumAppend 1 seed event.side.toByte
  let seed := checksumAppend 8 seed event.priceTicks
  let seed := checksumAppend 8 seed event.quantity
  let seed := checksumAppend 8 seed event.orderId
  let seed := checksumAppend 8 seed event.tradeId
  checksumAppend 4 seed event.flags

def checksumEvents (events : List MarketDataEvent) : UInt64 :=
  events.foldl MarketDataEvent.appendToChecksum fnvOffsetBasis

end Asterion
