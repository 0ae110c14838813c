import Asterion.Risk.AuditManifest

/-! The part of the risk gateway that keeps its audit trail and writes it to log files. The files
are a map from path to contents, and every write succeeds. -/
namespace Asterion
open Lib

structure AuditRecorder where
  recordAudit : Bool := false
  audit : RiskAuditTrail := {}
  files : List (Text × Text) := []
  isOpen : Bool := false
  basePath : Text := []
  paths : List Text := []
  format : RiskAuditLogFormat := .jsonl
  recordCount : Nat := 0
  bytes : Nat := 0
  index : Nat := 0
  maxRecordsPerFile : Nat := 0
  maxBytesPerFile : Nat := 0

namespace AuditRecorder

def read (r : AuditRecorder) (path : Text) : Option Text :=
  (r.files.find? (fun file => file.1 = path)).map Prod.snd

def append (r : AuditRecorder) (path contents : Text) : AuditRecorder :=
  { r with files := (path, (r.read path).getD [] ++ contents) ::
      r.files.filter (fun file => file.1 ≠ path) }

def rotatedAuditLogPath (r : AuditRecorder) (index : Nat) : Text :=
  if index = 0 then r.basePath
  else
    let (stem, extension) := splitExtension (pathFilename r.basePath)
    let parent := parentPath r.basePath
    let name := stem ++ text "." ++ Decimal.decimal index ++ extension
    if parent = [] then name
    else if parent.getLast? = some 47 then parent ++ name
    else parent ++ text "/" ++ name

def logPath (r : AuditRecorder) : Text := r.rotatedAuditLogPath r.index

def rotateAuditLog (r : AuditRecorder) : AuditRecorder :=
  let index := r.index + 1
  let nextPath := r.rotatedAuditLogPath index
  { r.append nextPath [] with
    isOpen := true
    index := index
    paths := r.paths ++ [nextPath]
    recordCount := 0
    bytes := 0 }

def appendAuditLogEntry (r : AuditRecorder) (entry : RiskAuditEntry) (checksum : UInt64) :
    AuditRecorder :=
  let line := formatRiskAuditLogEntry entry checksum r.format
  let rotateByRecord := decide (r.maxRecordsPerFile > 0) &&
    decide (r.recordCount ≥ r.maxRecordsPerFile)
  let rotateBySize := decide (r.maxBytesPerFile > 0) && decide (r.bytes > 0) &&
    decide (r.bytes + line.length > r.maxBytesPerFile)
  let r := if rotateByRecord || rotateBySize then r.rotateAuditLog else r
  { r.append r.logPath line with
    recordCount := r.recordCount + 1
    bytes := r.bytes + line.length }

def recordAuditEntry (r : AuditRecorder) (entry : RiskAuditEntry) : AuditRecorder :=
  let r := { r with audit := r.audit.record entry }
  if r.isOpen then r.appendAuditLogEntry entry r.audit.checksum else r

def setAuditEnabled (r : AuditRecorder) (enabled : Bool) : AuditRecorder :=
  { r with recordAudit := enabled }

def clearAudit (r : AuditRecorder) : AuditRecorder := { r with audit := r.audit.clear }

def closeAuditLog (r : AuditRecorder) : AuditRecorder := { r with isOpen := false }

def openRotatingAuditLog (r : AuditRecorder) (path : Text) (format : RiskAuditLogFormat)
    (maxRecordsPerFile maxBytesPerFile : Nat) : AuditRecorder :=
  let r := r.closeAuditLog
  let r := r.append path []
  { r with
    format := format
    basePath := path
    index := 0
    recordCount := 0
    maxRecordsPerFile := maxRecordsPerFile
    maxBytesPerFile := maxBytesPerFile
    isOpen := true
    paths := [path]
    bytes := ((r.read path).getD []).length
    recordAudit := true }

def openAuditLog (r : AuditRecorder) (path : Text) (format : RiskAuditLogFormat) : AuditRecorder :=
  r.openRotatingAuditLog path format 0 0

end AuditRecorder

end Asterion
