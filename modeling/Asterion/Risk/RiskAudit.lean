import Asterion.Core.Text
import Asterion.Lib.JsonLine
import Asterion.Lib.StoppingLoop
import Asterion.Matching.ExecutionReport

/-! The audit trail of the risk checks, the lines it is logged as, and the verifier that reads
log files back. A file system is a function from path to contents. -/
namespace Asterion
open Lib

structure RiskAuditEntry where
  timestampNs : Int64 := 0
  clientOrderId : UInt64 := 0
  symbolId : UInt32 := 0
  side : Side := .none
  accepted : Bool := false
  rejectReason : RejectReason := .none
  checkName : Text := []
  limitValue : Int64 := 0
  observedValue : Int64 := 0
  deriving DecidableEq

inductive RiskAuditLogFormat where
  | text | jsonl
  deriving DecidableEq, Repr

/-- The enumerators are numbered from one. -/
def RiskAuditLogFormat.toByte (format : RiskAuditLogFormat) : Nat := format.ctorIdx + 1

def RiskAuditLogFormat.toString : RiskAuditLogFormat → Text
  | .text => Asterion.text "text"
  | .jsonl => Asterion.text "jsonl"

def RejectReason.toString : RejectReason → Text
  | .none => text "None"
  | .invalidQuantity => text "InvalidQuantity"
  | .invalidPrice => text "InvalidPrice"
  | .duplicateClientOrderId => text "DuplicateClientOrderId"
  | .unknownOrder => text "UnknownOrder"
  | .killSwitch => text "KillSwitch"
  | .maxOrderQuantity => text "MaxOrderQuantity"
  | .maxNotional => text "MaxNotional"
  | .maxPosition => text "MaxPosition"
  | .maxGrossExposure => text "MaxGrossExposure"
  | .priceBand => text "PriceBand"
  | .staleMarketData => text "StaleMarketData"
  | .unsupported => text "Unsupported"
  | .internalError => text "InternalError"
  | .maxOpenOrderQuantity => text "MaxOpenOrderQuantity"
  | .messageRateLimit => text "MessageRateLimit"
  | .selfTradePrevention => text "SelfTradePrevention"
  | .disconnected => text "Disconnected"
  | .maxPortfolioGrossExposure => text "MaxPortfolioGrossExposure"
  | .maxPortfolioNetExposure => text "MaxPortfolioNetExposure"
  | .maxSymbolConcentration => text "MaxSymbolConcentration"
  | .maxPortfolioLoss => text "MaxPortfolioLoss"
  | .postOnlyWouldCross => text "PostOnlyWouldCross"
  | .fokNotFillable => text "FokNotFillable"

def parseSideToken (value : Text) : Option Side :=
  if value = text "Buy" then some .buy
  else if value = text "Sell" then some .sell
  else if value = text "None" then some .none
  else none

/-- The names the reader knows, in the order it compares them. -/
def rejectReasonTokens : List (Text × RejectReason) :=
  [(text "None", .none), (text "InvalidQuantity", .invalidQuantity),
    (text "InvalidPrice", .invalidPrice), (text "DuplicateClientOrderId", .duplicateClientOrderId),
    (text "UnknownOrder", .unknownOrder), (text "KillSwitch", .killSwitch),
    (text "MaxOrderQuantity", .maxOrderQuantity), (text "MaxNotional", .maxNotional),
    (text "MaxPosition", .maxPosition), (text "MaxGrossExposure", .maxGrossExposure),
    (text "PriceBand", .priceBand), (text "StaleMarketData", .staleMarketData),
    (text "Unsupported", .unsupported), (text "InternalError", .internalError),
    (text "MaxOpenOrderQuantity", .maxOpenOrderQuantity),
    (text "MessageRateLimit", .messageRateLimit),
    (text "SelfTradePrevention", .selfTradePrevention), (text "Disconnected", .disconnected),
    (text "MaxPortfolioGrossExposure", .maxPortfolioGrossExposure),
    (text "MaxPortfolioNetExposure", .maxPortfolioNetExposure),
    (text "MaxSymbolConcentration", .maxSymbolConcentration),
    (text "MaxPortfolioLoss", .maxPortfolioLoss)]

def parseRejectReasonToken (value : Text) : Option RejectReason :=
  (rejectReasonTokens.find? (fun token => token.1 = value)).map Prod.snd

def parseBoolToken (value : Text) : Bool := value == text "true"

def RiskAuditEntry.appendToChecksum (seed : UInt64) (entry : RiskAuditEntry) : UInt64 :=
  let seed := checksumAppend 8 seed entry.timestampNs.toInt
  let seed := checksumAppend 8 seed entry.clientOrderId.toNat
  let seed := checksumAppend 4 seed entry.symbolId.toNat
  let seed := checksumAppend 1 seed entry.side.toByte
  let seed := checksumAppend 1 seed (if entry.accepted then 1 else 0)
  let seed := checksumAppend 1 seed entry.rejectReason.toByte
  let seed := checksumAppendText seed entry.checkName
  let seed := checksumAppend 8 seed entry.limitValue.toInt
  checksumAppend 8 seed entry.observedValue.toInt

def checksumRiskAudit (entries : List RiskAuditEntry) : UInt64 :=
  entries.foldl RiskAuditEntry.appendToChecksum fnvOffsetBasis

structure RiskAuditTrail where
  entries : List RiskAuditEntry := []
  checksum : UInt64 := fnvOffsetBasis
  acceptedCount : Nat := 0

namespace RiskAuditTrail

def record (trail : RiskAuditTrail) (entry : RiskAuditEntry) : RiskAuditTrail :=
  { entries := trail.entries ++ [entry]
    checksum := entry.appendToChecksum trail.checksum
    acceptedCount := if entry.accepted then trail.acceptedCount + 1 else trail.acceptedCount }

def clear (_ : RiskAuditTrail) : RiskAuditTrail := {}

def size (trail : RiskAuditTrail) : Nat := trail.entries.length

def rejectedCount (trail : RiskAuditTrail) : Nat := trail.entries.length - trail.acceptedCount

end RiskAuditTrail

def boolToText (value : Bool) : Text := if value then text "true" else text "false"

def writeJsonString (value : Text) : Text :=
  JsonLine.quote :: (JsonLine.escape value ++ [JsonLine.quote])

def formatRiskAuditLogEntry (entry : RiskAuditEntry) (trailChecksum : UInt64) :
    RiskAuditLogFormat → Text
  | .text =>
    text "timestamp_ns=" ++ int64 entry.timestampNs ++
      text " client_order_id=" ++ uint64 entry.clientOrderId ++
      text " symbol_id=" ++ uint32 entry.symbolId ++
      text " side=" ++ entry.side.toString ++
      text " accepted=" ++ boolToText entry.accepted ++
      text " reject_reason=" ++ entry.rejectReason.toString ++
      text " check_name=" ++ entry.checkName ++
      text " limit_value=" ++ int64 entry.limitValue ++
      text " observed_value=" ++ int64 entry.observedValue ++
      text " checksum=" ++ uint64 trailChecksum ++ [newline]
  | .jsonl =>
    text "\x7b\"timestamp_ns\":" ++ int64 entry.timestampNs ++
      text ",\"client_order_id\":" ++ uint64 entry.clientOrderId ++
      text ",\"symbol_id\":" ++ uint32 entry.symbolId ++
      text ",\"side\":" ++ writeJsonString entry.side.toString ++
      text ",\"accepted\":" ++ boolToText entry.accepted ++
      text ",\"reject_reason\":" ++ writeJsonString entry.rejectReason.toString ++
      text ",\"check_name\":" ++ writeJsonString entry.checkName ++
      text ",\"limit_value\":" ++ int64 entry.limitValue ++
      text ",\"observed_value\":" ++ int64 entry.observedValue ++
      text ",\"checksum\":" ++ uint64 trailChecksum ++ text "\x7d" ++ [newline]

def jsonValueFor (line key : Text) : Option Text := JsonLine.valueFor line key

def textValueFor (line key : Text) : Option Text :=
  Search.wordAfter space (key ++ [equalsSign]) line

def auditValueFor (format : RiskAuditLogFormat) (line key : Text) : Option Text :=
  match format with
  | .jsonl => jsonValueFor line key
  | .text => textValueFor line key

/-- The entry a line holds, and the checksum that was logged with it. -/
def parseAuditEntryLine (line : Text) (format : RiskAuditLogFormat) :
    Option (RiskAuditEntry × UInt64) := do
  let valueFor := auditValueFor format line
  let timestampNs ← (valueFor (text "timestamp_ns")).bind parseInt64
  let clientOrderId ← (valueFor (text "client_order_id")).bind parseUInt64
  let symbolId ← (valueFor (text "symbol_id")).bind parseUInt32
  let limitValue ← (valueFor (text "limit_value")).bind parseInt64
  let observedValue ← (valueFor (text "observed_value")).bind parseInt64
  let loggedChecksum ← (valueFor (text "checksum")).bind parseUInt64
  let side ← (valueFor (text "side")).bind parseSideToken
  let rejectReason ← (valueFor (text "reject_reason")).bind parseRejectReasonToken
  let accepted ← valueFor (text "accepted")
  let checkName ← valueFor (text "check_name")
  return ({ timestampNs, clientOrderId, symbolId, side, accepted := parseBoolToken accepted
            rejectReason, checkName, limitValue, observedValue }, loggedChecksum)

structure RiskAuditVerificationResult where
  valid : Bool := true
  filesChecked : Nat := 0
  entriesChecked : Nat := 0
  finalChecksum : UInt64 := fnvOffsetBasis
  error : Text := []
  deriving DecidableEq

/-- The result so far and the running checksum, which the result receives at the end. -/
structure RiskAuditVerification where
  result : RiskAuditVerificationResult := {}
  checksum : UInt64 := fnvOffsetBasis

namespace RiskAuditVerification
open Lib.StoppingLoop

def location (path : Text) (lineNumber : Nat) : Text :=
  path ++ text ":" ++ Decimal.decimal lineNumber

/-- The body of the loop over the lines of a file; the flag is false where it returns. -/
def checkLine (path : Text) (format : RiskAuditLogFormat) (v : RiskAuditVerification)
    (line : Text × Nat) : RiskAuditVerification × Bool :=
  if line.1 = [] then (v, true)
  else
    match parseAuditEntryLine line.1 format with
    | none =>
      ({ v with result := { v.result with
          valid := false
          error := location path line.2 ++ text ": malformed audit entry" } }, false)
    | some (entry, loggedChecksum) =>
      let checksum := entry.appendToChecksum v.checksum
      let result := { v.result with entriesChecked := v.result.entriesChecked + 1 }
      if checksum ≠ loggedChecksum then
        ({ result := { result with
            valid := false
            finalChecksum := checksum
            error := location path line.2 ++ text ": checksum mismatch, expected " ++
              uint64 checksum ++ text ", received " ++ uint64 loggedChecksum }
           checksum }, false)
      else ({ result, checksum }, true)

/-- The lines of a file with their numbers; `getline` gives no line behind a final newline, and
an empty line is skipped. -/
def numberedLines (contents : Text) : List (Text × Nat) := (contents.splitOn newline).zipIdx 1

def checkFile (files : Text → Option Text) (format : RiskAuditLogFormat)
    (v : RiskAuditVerification) (path : Text) : RiskAuditVerification × Bool :=
  match files path with
  | none =>
    ({ v with result := { v.result with
        valid := false
        error := text "unable to open audit log: " ++ path } }, false)
  | some contents =>
    loop (checkLine path format)
      { v with result := { v.result with filesChecked := v.result.filesChecked + 1 } }
      (numberedLines contents)

end RiskAuditVerification

def verifyRiskAuditLogs (files : Text → Option Text) (paths : List Text)
    (format : RiskAuditLogFormat) : RiskAuditVerificationResult :=
  match StoppingLoop.loop (RiskAuditVerification.checkFile files format) {} paths with
  | (v, true) => { v.result with finalChecksum := v.checksum }
  | (v, false) => v.result

end Asterion
