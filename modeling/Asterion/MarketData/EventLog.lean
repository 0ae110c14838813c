import Asterion.Core.LittleEndian
import Asterion.Core.Path
import Asterion.Lib.Blocks
import Asterion.Lib.StoppingLoop
import Asterion.MarketData.EventCsv

/-! Event logs, as lines of text or as binary records. The reader gets the contents of the file, if
it can be opened; the writer gives the contents of the file it wrote. -/
namespace Asterion
open Lib

inductive EventLogFormat where
  | auto | csv | binary
  deriving DecidableEq, Repr

def marketDataCsvHeader : Text :=
  text "timestamp_ns,sequence_number,symbol_id,event_type,side,price_ticks,quantity,order_id," ++
    text "trade_id,flags"

def binaryEventLogMagic : Text := text "ASTITCH1"
def binaryEventLogVersion : Nat := 1
def binaryEventLogHeaderSize : Nat := 16
def binaryEventRecordSize : Nat := 58

structure EventLogReadResult where
  events : List MarketDataEvent := []
  detectedFormat : EventLogFormat := .auto
  eventChecksum : UInt64 := 0
  error : Text := []
  deriving DecidableEq

structure EventLogWriteResult where
  eventsWritten : Nat := 0
  eventChecksum : UInt64 := 0
  error : Text := []
  deriving DecidableEq

namespace EventLogReadResult

def start (format : EventLogFormat) : EventLogReadResult :=
  { detectedFormat := format, eventChecksum := fnvOffsetBasis }

def push (result : EventLogReadResult) (event : MarketDataEvent) : EventLogReadResult :=
  { result with
    eventChecksum := event.appendToChecksum result.eventChecksum
    events := result.events ++ [event] }

def fail (result : EventLogReadResult) (error : Text) : EventLogReadResult :=
  { result with error, events := [], eventChecksum := fnvOffsetBasis }

end EventLogReadResult

def schemaError (category detail : Text) : Text :=
  category ++ text ": " ++ detail ++ text ". " ++ csvSchemaMigrationHint

section Csv
open Lib.StoppingLoop

def csvColumns : List Text :=
  [text "timestamp_ns", text "sequence_number", text "symbol_id", text "event_type", text "side",
    text "price_ticks", text "quantity", text "order_id", text "trade_id", text "flags"]

def looksLikeCsvHeader (line : Text) : Bool :=
  decide (2 ≤ (csvColumns.filter (fun column => decide (column <:+: line))).length)

def isBlankOrCommentCsvLine (trimmed : Text) : Bool :=
  trimmed.isEmpty || trimmed.head? == some 35

/-- Whether the line is skipped, and the error of a header with other columns. -/
def isIgnoredCsvLine (line : Text) : Bool × Text :=
  let trimmed := trimCopy line
  if isBlankOrCommentCsvLine trimmed then (true, [])
  else if trimmed = marketDataCsvHeader then (true, [])
  else if looksLikeCsvHeader trimmed then
    (true, schemaError (text "CSV column drift")
      (text "expected v1 header \"" ++ marketDataCsvHeader ++ text "\", got \"" ++ trimmed ++
        text "\""))
  else (false, [])

def lineError (lineNumber : Nat) (error : Text) : Text :=
  text "line " ++ Decimal.decimal lineNumber ++ text ": " ++ error

/-- The body of the loop over the lines; the flag is false where it returns. -/
def readCsvLine (result : EventLogReadResult) (line : Text × Nat) : EventLogReadResult × Bool :=
  let (ignored, headerError) := isIgnoredCsvLine line.1
  if ignored then
    if headerError ≠ [] then (result.fail (lineError line.2 headerError), false)
    else (result, true)
  else
    match parseMarketDataEventCsv line.1 with
    | .error error => (result.fail (lineError line.2 error), false)
    | .ok event => (result.push event, true)

/-- The lines of a file with their numbers; the empty one behind a final newline is skipped like
any other. -/
def csvLines (contents : Text) : List (Text × Nat) := (contents.splitOn newline).zipIdx 1

def readCsvEventLog (path : Text) (file : Option Text) : EventLogReadResult :=
  let result := EventLogReadResult.start .csv
  match file with
  | none => { result with error := text "unable to open CSV event log: " ++ path }
  | some contents => (loop readCsvLine result (csvLines contents)).1

def writeCsvEventLog (events : List MarketDataEvent) : Text × EventLogWriteResult :=
  (marketDataCsvHeader ++ [newline] ++
      events.flatMap (fun event => marketDataEventToCsv event ++ [newline]),
    { eventsWritten := events.length, eventChecksum := checksumEvents events })

end Csv

section Binary
open Lib.StoppingLoop

def eventTypeFromWire (value : UInt8) : Option MarketEventType :=
  if value = 1 then some .add
  else if value = 2 then some .cancel
  else if value = 3 then some .replace
  else if value = 4 then some .execute
  else if value = 5 then some .trade
  else if value = 6 then some .snapshot
  else if value = 7 then some .heartbeat
  else none

def sideFromWire (value : UInt8) : Option Side :=
  if value = UInt8.ofNat Side.none.toByte then some .none
  else if value = UInt8.ofNat Side.buy.toByte then some .buy
  else if value = UInt8.ofNat Side.sell.toByte then some .sell
  else none

def encodeHeader : Text :=
  binaryEventLogMagic ++ littleEndian 2 binaryEventLogVersion ++
    littleEndian 2 binaryEventLogHeaderSize ++ littleEndian 2 binaryEventRecordSize ++
    littleEndian 2 0

def encodeRecord (event : MarketDataEvent) : Text :=
  littleEndian 8 event.timestampNs ++ littleEndian 8 event.sequenceNumber ++
    littleEndian 4 event.symbolId ++ littleEndian 1 event.eventType.toByte ++
    littleEndian 1 event.side.toByte ++ littleEndian 4 event.flags ++
    littleEndian 8 event.priceTicks ++ littleEndian 8 event.quantity ++
    littleEndian 8 event.orderId ++ littleEndian 8 event.tradeId

def readField (bytes : Text) (offset size : Nat) : Nat :=
  ofLittleEndian ((bytes.drop offset).take size)

def decodeRecord (bytes : Text) (recordIndex : Nat) : Except Text MarketDataEvent :=
  let typeByte := bytes.getD 20 0
  let sideByte := bytes.getD 21 0
  let drift (kind : Text) (value : UInt8) : Text :=
    schemaError (text "enum drift")
      (text "record " ++ Decimal.decimal recordIndex ++ text ": invalid " ++ kind ++
        text " wire value " ++ Decimal.decimal value.toNat)
  match eventTypeFromWire typeByte with
  | none => .error (drift (text "MarketEventType") typeByte)
  | some eventType =>
    match sideFromWire sideByte with
    | none => .error (drift (text "Side") sideByte)
    | some side =>
      .ok
        { timestampNs := toSigned 8 (readField bytes 0 8)
          sequenceNumber := readField bytes 8 8
          symbolId := readField bytes 16 4
          eventType := eventType
          side := side
          priceTicks := toSigned 8 (readField bytes 26 8)
          quantity := toSigned 8 (readField bytes 34 8)
          orderId := readField bytes 42 8
          tradeId := readField bytes 50 8
          flags := readField bytes 22 4 }

/-- The body of the loop over the records; the flag is false where it returns. -/
def readBinaryRecord (result : EventLogReadResult) (record : Text × Nat) :
    EventLogReadResult × Bool :=
  if record.1.length ≠ binaryEventRecordSize then
    (result.fail (schemaError (text "malformed binary event log")
      (text "truncated binary event record at index " ++ Decimal.decimal record.2)), false)
  else
    match decodeRecord record.1 record.2 with
    | .error error => (result.fail error, false)
    | .ok event => (result.push event, true)

/-- The error of a header that is not the one of the schema. -/
def headerError (header : Text) : Option Text :=
  let version := readField header 8 2
  let headerSize := readField header 10 2
  let recordSize := readField header 12 2
  let reserved := readField header 14 2
  if header.length ≠ binaryEventLogHeaderSize then
    some (schemaError (text "malformed binary event log")
      (text "truncated binary event-log header"))
  else if header.take binaryEventLogMagic.length ≠ binaryEventLogMagic then
    some (schemaError (text "binary header drift")
      (text "invalid binary event-log magic, expected \"" ++ binaryEventLogMagic ++ text "\""))
  else if version ≠ binaryEventLogVersion then
    some (schemaError (text "binary schema version drift")
      (text "unsupported binary event-log version " ++ Decimal.decimal version ++
        text ", expected " ++ Decimal.decimal binaryEventLogVersion))
  else if headerSize ≠ binaryEventLogHeaderSize then
    some (schemaError (text "binary layout drift")
      (text "unsupported binary event-log header size " ++ Decimal.decimal headerSize ++
        text ", expected " ++ Decimal.decimal binaryEventLogHeaderSize))
  else if recordSize ≠ binaryEventRecordSize then
    some (schemaError (text "binary layout drift")
      (text "unsupported binary event record size " ++ Decimal.decimal recordSize ++
        text ", expected " ++ Decimal.decimal binaryEventRecordSize))
  else if reserved ≠ 0 then
    some (schemaError (text "binary header drift")
      (text "reserved header field must be zero in schema v1, got " ++ Decimal.decimal reserved))
  else none

def readBinaryEventLog (path : Text) (file : Option Text) : EventLogReadResult :=
  let result := EventLogReadResult.start .binary
  match file with
  | none => { result with error := text "unable to open binary event log: " ++ path }
  | some contents =>
    match headerError (contents.take binaryEventLogHeaderSize) with
    | some error => { result with error }
    | none =>
      let records := Blocks.blocks binaryEventRecordSize (contents.drop binaryEventLogHeaderSize)
      (loop readBinaryRecord result records.zipIdx).1

def writeBinaryEventLog (events : List MarketDataEvent) : Text × EventLogWriteResult :=
  (encodeHeader ++ events.flatMap encodeRecord,
    { eventsWritten := events.length, eventChecksum := checksumEvents events })

end Binary

def lowerCopy (value : Text) : Text :=
  value.map (fun b => if 65 ≤ b ∧ b ≤ 90 then b + 32 else b)

def chooseEventLogFormatForPath (path : Text) : EventLogFormat :=
  let extension := lowerCopy (splitExtension (pathFilename path)).2
  if extension = text ".bin" ∨ extension = text ".itch" ∨ extension = text ".ablog" then .binary
  else .csv

def detectEventLogFormat (path : Text) : Option Text → EventLogFormat × Text
  | none => (.auto, text "unable to open event log: " ++ path)
  | some contents =>
    if contents.take binaryEventLogMagic.length = binaryEventLogMagic then (.binary, [])
    else (.csv, [])

def readEventLog (path : Text) (file : Option Text) (format : EventLogFormat) :
    EventLogReadResult :=
  let (effective, error) :=
    if format = .auto then detectEventLogFormat path file else (format, [])
  if error ≠ [] then { error }
  else if effective = .binary then readBinaryEventLog path file
  else readCsvEventLog path file

/-- The contents of the file that is written, and the result. Opening and writing succeed. -/
def writeEventLog (path : Text) (events : List MarketDataEvent) (format : EventLogFormat) :
    Text × EventLogWriteResult :=
  let effective := if format = .auto then chooseEventLogFormatForPath path else format
  if effective = .binary then writeBinaryEventLog events else writeCsvEventLog events

end Asterion
