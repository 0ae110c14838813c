import Asterion.Core.LittleEndian
import Asterion.Core.Text
import Asterion.Lib.Rounds
import Asterion.MarketData.SyntheticGenerator

/-! The script `generate_synthetic_events.py`: how it writes its rows, as lines of a CSV writer or as
packed records, and the rows of its adversarial lifecycle. It has its own copy of the schema; its
integers are not bounded, and a value that does not fit its field is an exception. -/
namespace Asterion.SyntheticScript
open Lib

/-- One generated event row: integers and the event-type and side names. -/
structure Row where
  timestampNs : Int
  sequenceNumber : Int
  symbolId : Int
  eventType : Text
  side : Text
  priceTicks : Int
  quantity : Int
  orderId : Int
  tradeId : Int
  flags : Int
  deriving DecidableEq

section Csv

def csvHeader : List Text :=
  [text "timestamp_ns", text "sequence_number", text "symbol_id", text "event_type", text "side",
    text "price_ticks", text "quantity", text "order_id", text "trade_id", text "flags"]

def Row.spelled (row : Row) : List Text :=
  [Decimal.integer row.timestampNs, Decimal.integer row.sequenceNumber,
    Decimal.integer row.symbolId, row.eventType, row.side, Decimal.integer row.priceTicks,
    Decimal.integer row.quantity, Decimal.integer row.orderId, Decimal.integer row.tradeId,
    Decimal.integer row.flags]

def quote : UInt8 := 34
def comma : UInt8 := 44
def carriageReturn : UInt8 := 13

/-- Minimal quoting: only a field with a byte that the dialect reads is quoted. -/
def quoted (field : Text) : Text :=
  if field.any (fun b => b == comma || b == quote || b == carriageReturn || b == newline) then
    quote :: field.flatMap (fun b => if b = quote then [quote, quote] else [b]) ++ [quote]
  else field

/-- `writerow` of the default dialect. -/
def writeRow (fields : List Text) : Text :=
  [comma].intercalate (fields.map quoted) ++ [carriageReturn, newline]

def csvFile (rows : List Row) : Text :=
  writeRow csvHeader ++ rows.flatMap (fun row => writeRow row.spelled)

end Csv

section Binary

/-- A field of a packed structure, little-endian; `none` where the value is out of its range. -/
def packSigned (size : Nat) (value : Int) : Option Text :=
  if -2 ^ (8 * size - 1) ≤ value ∧ value < 2 ^ (8 * size - 1) then some (littleEndian size value)
  else none

def packUnsigned (size : Nat) (value : Int) : Option Text :=
  if 0 ≤ value ∧ value < 2 ^ (8 * size) then some (littleEndian size value) else none

def binaryMagic : Text := text "ASTITCH1"
def binaryVersion : Nat := 1
def binaryHeaderSize : Nat := 16
def binaryRecordSize : Nat := 58

def binaryHeader : Text :=
  binaryMagic ++ littleEndian 2 binaryVersion ++ littleEndian 2 binaryHeaderSize ++
    littleEndian 2 binaryRecordSize ++ littleEndian 2 0

def eventTypeIds : List (Text × Int) :=
  [(text "Add", 1), (text "Cancel", 2), (text "Replace", 3), (text "Execute", 4), (text "Trade", 5),
    (text "Snapshot", 6), (text "Heartbeat", 7)]

def sideIds : List (Text × Int) := [(text "None", 0), (text "Buy", 1), (text "Sell", 2)]

/-- `none` is the exception of a name without an id or of a value out of range. -/
def packBinaryEvent (row : Row) : Option Text := do
  let timestamp ← packSigned 8 row.timestampNs
  let sequence ← packUnsigned 8 row.sequenceNumber
  let symbol ← packUnsigned 4 row.symbolId
  let type ← packUnsigned 1 (← eventTypeIds.lookup row.eventType)
  let side ← packUnsigned 1 (← sideIds.lookup row.side)
  let flags ← packUnsigned 4 row.flags
  let price ← packSigned 8 row.priceTicks
  let quantity ← packSigned 8 row.quantity
  let order ← packUnsigned 8 row.orderId
  let trade ← packUnsigned 8 row.tradeId
  return timestamp ++ sequence ++ symbol ++ type ++ side ++ flags ++ price ++ quantity ++ order ++
    trade

def binaryFile (rows : List Row) : Option Text := do
  let records ← rows.mapM packBinaryEvent
  return binaryHeader ++ records.flatten

end Binary

section Lifecycle

/-- The arguments that the adversarial lifecycle reads. -/
structure Arguments where
  events : Int := 100
  symbol : Int := 1
  midPrice : Int := 1000
  firstSequence : Int := 1
  firstTimestampNs : Int := 1000000000
  deriving DecidableEq, Repr

structure Push where
  eventType : Text
  side : Text
  price : Int
  quantity : Int
  orderId : Int
  tradeId : Int := 0
  deriving DecidableEq

structure Loop where
  nextOrderId : Int := 1
  nextTradeId : Int := 1
  cycle : Nat := 0
  deriving DecidableEq, Repr

def pushedRow (args : Arguments) (index : Nat) (push : Push) : Row :=
  { timestampNs := args.firstTimestampNs + index
    sequenceNumber := args.firstSequence + index
    symbolId := args.symbol
    eventType := push.eventType
    side := push.side
    priceTicks := push.price
    quantity := push.quantity
    orderId := push.orderId
    tradeId := push.tradeId
    flags := 0 }

def cyclePushes (args : Arguments) (s : Loop) : List Push × Loop :=
  let buyId := s.nextOrderId
  let sellId := s.nextOrderId + 1
  let drift : Int := (s.cycle % 17 : Nat)
  let bid := max 1 (args.midPrice - 5 - drift)
  let ask := args.midPrice + 5 + drift
  let bidReuse := max 1 (bid - 1)
  let bidReprice := max 1 (bid - 2)
  let (buy, sell) := (text "Buy", text "Sell")
  ([{ eventType := text "Add", side := buy, price := bid, quantity := 100, orderId := buyId },
      { eventType := text "Cancel", side := buy, price := bid, quantity := 0, orderId := buyId },
      { eventType := text "Add", side := buy, price := bidReuse, quantity := 80, orderId := buyId },
      { eventType := text "Replace", side := buy, price := bidReuse, quantity := 120
        orderId := buyId },
      { eventType := text "Replace", side := buy, price := bidReuse, quantity := 60
        orderId := buyId },
      { eventType := text "Replace", side := buy, price := bidReprice, quantity := 70
        orderId := buyId },
      { eventType := text "Cancel", side := buy, price := bidReprice, quantity := 0
        orderId := buyId },
      { eventType := text "Add", side := sell, price := ask, quantity := 90, orderId := sellId },
      { eventType := text "Execute", side := sell, price := ask, quantity := 30, orderId := sellId
        tradeId := s.nextTradeId },
      { eventType := text "Replace", side := sell, price := ask + 1, quantity := 50
        orderId := sellId },
      { eventType := text "Execute", side := sell, price := ask + 1, quantity := 50
        orderId := sellId, tradeId := s.nextTradeId + 1 },
      { eventType := text "Add", side := sell, price := ask, quantity := 40, orderId := sellId },
      { eventType := text "Cancel", side := sell, price := ask, quantity := 20, orderId := sellId },
      { eventType := text "Cancel", side := sell, price := ask, quantity := 0, orderId := sellId },
      { eventType := text "Trade", side := buy, price := bid, quantity := 1, orderId := 0
        tradeId := s.nextTradeId + 2 },
      { eventType := text "Heartbeat", side := text "None", price := 0, quantity := 0
        orderId := 0 }],
    { nextOrderId := s.nextOrderId + 2, nextTradeId := s.nextTradeId + 3, cycle := s.cycle + 1 })

/-- No rows are asked for with a negative number of events. -/
def adversarialLifecycleRows (args : Arguments) : List Row :=
  Rounds.fill args.events.toNat (pushedRow args) (cyclePushes args) args.events.toNat {} []

end Lifecycle

end Asterion.SyntheticScript
