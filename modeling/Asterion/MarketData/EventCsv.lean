import Asterion.Core.Text
import Asterion.MarketData.Event

/-! Market data events as lines of comma-separated fields. -/
namespace Asterion
open Lib

def commaSign : UInt8 := 44

def csvSchemaMigrationHint : Text :=
  text "See data/schema/event_log_schema_v1.json for the schema and its compatibility contract."

def isBlank (b : UInt8) : Bool := b == space || b == 9 || b == 13 || b == newline

def trimCopy (value : Text) : Text :=
  ((value.dropWhile isBlank).reverse.dropWhile isBlank).reverse

def splitCsv (line : Text) : List Text := (line.splitOn commaSign).map trimCopy

def MarketEventType.toString : MarketEventType → Text
  | .add => text "Add"
  | .cancel => text "Cancel"
  | .replace => text "Replace"
  | .execute => text "Execute"
  | .trade => text "Trade"
  | .snapshot => text "Snapshot"
  | .heartbeat => text "Heartbeat"

def parseMarketEventType (value : Text) : Option MarketEventType :=
  let token := trimCopy value
  if token = text "Add" ∨ token = text "A" then some .add
  else if token = text "Cancel" ∨ token = text "C" then some .cancel
  else if token = text "Replace" ∨ token = text "R" then some .replace
  else if token = text "Execute" ∨ token = text "E" then some .execute
  else if token = text "Trade" ∨ token = text "T" then some .trade
  else if token = text "Snapshot" ∨ token = text "S" then some .snapshot
  else if token = text "Heartbeat" ∨ token = text "H" then some .heartbeat
  else none

def parseSide (value : Text) : Option Side :=
  let token := trimCopy value
  if token = text "Buy" ∨ token = text "B" then some .buy
  else if token = text "Sell" ∨ token = text "S" then some .sell
  else if token = text "None" ∨ token = text "N" ∨ token = [] then some .none
  else none

def csvParseError (fieldName detail : Text) : Text :=
  text "failed to parse CSV " ++ detail ++ text " field " ++ fieldName ++ text ". " ++
    csvSchemaMigrationHint

def csvField {α : Type} (fieldName detail : Text) : Option α → Except Text α
  | some value => .ok value
  | none => .error (csvParseError fieldName detail)

def parseSigned (value : Text) : Option Int := Decimal.read (-2 ^ 63) (2 ^ 63 - 1) value

def parseUnsigned (bits : Nat) (value : Text) : Option Nat :=
  (Decimal.read 0 (2 ^ bits - 1) value).map Int.toNat

def parseMarketDataEventCsv (line : Text) : Except Text MarketDataEvent :=
  match splitCsv line with
  | [timestamp, sequence, symbol, type, side, price, quantity, order, trade, flags] => do
    let numeric := text "numeric"
    let timestampNs ← csvField (text "timestamp_ns") numeric (parseSigned timestamp)
    let sequenceNumber ← csvField (text "sequence_number") numeric (parseUnsigned 64 sequence)
    let symbolId ← csvField (text "symbol_id") numeric (parseUnsigned 32 symbol)
    let eventType ← csvField (text "event_type") (text "event_type spelling")
      (parseMarketEventType type)
    let side ← csvField (text "side") (text "side spelling") (parseSide side)
    let priceTicks ← csvField (text "price_ticks") numeric (parseSigned price)
    let quantity ← csvField (text "quantity") numeric (parseSigned quantity)
    let orderId ← csvField (text "order_id") numeric (parseUnsigned 64 order)
    let tradeId ← csvField (text "trade_id") numeric (parseUnsigned 64 trade)
    let flags ← csvField (text "flags") numeric (parseUnsigned 32 flags)
    return { timestampNs, sequenceNumber, symbolId, eventType, side, priceTicks, quantity, orderId
             tradeId, flags }
  | fields =>
    .error (text "CSV column drift: expected 10 fields in v1 order " ++
      text "(timestamp_ns,sequence_number,symbol_id,event_type,side,price_ticks,quantity," ++
      text "order_id,trade_id,flags), got " ++ Decimal.decimal fields.length ++ text ". " ++
      csvSchemaMigrationHint)

def MarketDataEvent.csvFields (event : MarketDataEvent) : List Text :=
  [Decimal.integer event.timestampNs, Decimal.decimal event.sequenceNumber,
    Decimal.decimal event.symbolId, event.eventType.toString, event.side.toString,
    Decimal.integer event.priceTicks, Decimal.integer event.quantity,
    Decimal.decimal event.orderId, Decimal.decimal event.tradeId, Decimal.decimal event.flags]

def marketDataEventToCsv (event : MarketDataEvent) : Text :=
  [commaSign].intercalate event.csvFields

/-- The values of the integral fields are in the ranges of their types. -/
structure MarketDataEvent.Fits (event : MarketDataEvent) : Prop where
  timestampNs : -2 ^ 63 ≤ event.timestampNs ∧ event.timestampNs < 2 ^ 63
  sequenceNumber : event.sequenceNumber < 2 ^ 64
  symbolId : event.symbolId < 2 ^ 32
  priceTicks : -2 ^ 63 ≤ event.priceTicks ∧ event.priceTicks < 2 ^ 63
  quantity : -2 ^ 63 ≤ event.quantity ∧ event.quantity < 2 ^ 63
  orderId : event.orderId < 2 ^ 64
  tradeId : event.tradeId < 2 ^ 64
  flags : event.flags < 2 ^ 32

end Asterion
