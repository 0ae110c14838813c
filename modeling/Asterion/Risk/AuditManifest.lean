import Asterion.Core.HmacSha256
import Asterion.Core.Path
import Asterion.Risk.RiskAudit

/-! Manifests over audit log files: how one is generated, signed, written as lines of JSON, read
back and verified against the files. -/
namespace Asterion
open Lib

def auditManifestSchemaVersion : UInt32 := 1
def auditManifestSignatureAlgorithm : Text := text "HMAC-SHA256"

structure AuditManifestFileEntry where
  fileName : Text := []
  recordCount : UInt64 := 0
  byteSize : UInt64 := 0
  contentChecksum : UInt64 := 0
  auditChainChecksum : UInt64 := 0
  deriving DecidableEq

structure AuditManifestSignature where
  algorithm : Text := []
  keyId : Text := []
  valueHex : Text := []
  deriving DecidableEq

structure AuditManifest where
  schemaVersion : UInt32 := auditManifestSchemaVersion
  creator : Text := text "asterion"
  createdAt : Text := []
  format : RiskAuditLogFormat := .jsonl
  files : List AuditManifestFileEntry := []
  chainChecksum : UInt64 := 0
  signature : Option AuditManifestSignature := none
  deriving DecidableEq

structure AuditManifestGenerateOptions where
  format : RiskAuditLogFormat := .jsonl
  creator : Text := text "asterion"
  createdAt : Text := []
  signingKey : List UInt8 := []
  signingKeyId : Text := []

structure AuditManifestResult where
  ok : Bool := true
  manifest : AuditManifest := {}
  error : Text := []

inductive AuditManifestIssueType where
  | none | missingFile | sizeMismatch | recordCountMismatch | contentChecksumMismatch
  | auditChainMismatch | manifestChainMismatch | signatureMismatch | signatureMissing | keyMissing
  deriving DecidableEq, Repr

structure AuditManifestIssue where
  type : AuditManifestIssueType := .none
  fileName : Text := []
  detail : Text := []
  deriving DecidableEq

structure AuditManifestVerification where
  valid : Bool := true
  filesChecked : Nat := 0
  entriesChecked : Nat := 0
  computedChainChecksum : UInt64 := 0
  signaturePresent : Bool := false
  signatureValid : Bool := false
  issues : List AuditManifestIssue := []
  deriving DecidableEq

structure AuditManifestVerifyOptions where
  baseDir : Text := []
  signingKey : List UInt8 := []

/-- Which paths exist, and what can be read from them. -/
structure FileSystem where
  present : Text → Bool
  read : Text → Option Text

/-- `base / name`: an absolute name replaces the base. -/
def joinPath (base name : Text) : Text :=
  let slash : UInt8 := 47
  if name.head? = some slash then name
  else if base.getLast? = some slash then base ++ name
  else base ++ slash :: name

structure FileScan where
  ok : Bool := false
  recordCount : Nat := 0
  byteSize : Nat := 0
  contentChecksum : UInt64 := 0
  error : Text := []

/-- A carriage return before the newline is not part of a line. -/
def stripCarriageReturn (line : Text) : Text :=
  if line.getLast? = some 13 then line.dropLast else line

def isBlankLine (line : Text) : Bool := (stripCarriageReturn line).all (fun ch => ch == space || ch == 9)

def scanFile (fs : FileSystem) (path : Text) : FileScan :=
  match fs.read path with
  | none => { error := text "unable to open " ++ path }
  | some contents =>
    { ok := true
      recordCount := ((contents.splitOn newline).filter (fun line => !isBlankLine line)).length
      byteSize := contents.length
      contentChecksum := fnv1aAppend fnvOffsetBasis contents }

def auditChainThrough (fs : FileSystem) (paths : List Text) (count : Nat)
    (format : RiskAuditLogFormat) : RiskAuditVerificationResult :=
  verifyRiskAuditLogs fs.read (paths.take count) format

def AuditManifestFileEntry.appendToChecksum (seed : UInt64) (file : AuditManifestFileEntry) :
    UInt64 :=
  let seed := checksumAppendText seed file.fileName
  let seed := checksumAppend 8 seed file.recordCount.toNat
  let seed := checksumAppend 8 seed file.byteSize.toNat
  let seed := checksumAppend 8 seed file.contentChecksum.toNat
  checksumAppend 8 seed file.auditChainChecksum.toNat

def computeAuditManifestChainChecksum (schemaVersion : UInt32) (format : RiskAuditLogFormat)
    (files : List AuditManifestFileEntry) : UInt64 :=
  let seed := checksumAppend 4 fnvOffsetBasis schemaVersion.toNat
  let seed := checksumAppend 1 seed format.toByte
  let seed := checksumAppend 8 seed files.length
  files.foldl AuditManifestFileEntry.appendToChecksum seed

def AuditManifestFileEntry.payloadLine (file : AuditManifestFileEntry) : Text :=
  text "file=" ++ file.fileName ++ text "," ++ uint64 file.recordCount ++ text "," ++
    uint64 file.byteSize ++ text "," ++ uint64 file.contentChecksum ++ text "," ++
    uint64 file.auditChainChecksum ++ [newline]

def canonicalAuditManifestPayload (manifest : AuditManifest) : Text :=
  text "asterion-audit-manifest\n" ++
    text "schema_version=" ++ uint32 manifest.schemaVersion ++ [newline] ++
    text "format=" ++ manifest.format.toString ++ [newline] ++
    text "creator=" ++ manifest.creator ++ [newline] ++
    text "chain_checksum=" ++ uint64 manifest.chainChecksum ++ [newline] ++
    manifest.files.flatMap AuditManifestFileEntry.payloadLine

section Generate

/-- The body of the loop over the paths with their indices; the flag is false where it returns. -/
def generateEntry (fs : FileSystem) (paths : List Text) (result : AuditManifestResult)
    (path : Text × Nat) : AuditManifestResult × Bool :=
  let scan := scanFile fs path.1
  if !scan.ok then ({ result with ok := false, error := scan.error }, false)
  else
    let chain := auditChainThrough fs paths (path.2 + 1) result.manifest.format
    if !chain.valid then
      ({ result with
        ok := false
        error := text "unable to verify audit chain through " ++ path.1 ++ text ": " ++
          chain.error }, false)
    else
      let entry : AuditManifestFileEntry :=
        { fileName := pathFilename path.1
          recordCount := UInt64.ofNat scan.recordCount
          byteSize := UInt64.ofNat scan.byteSize
          contentChecksum := scan.contentChecksum
          auditChainChecksum := chain.finalChecksum }
      ({ result with
        manifest := { result.manifest with files := result.manifest.files ++ [entry] } }, true)

def generateAuditManifest (fs : FileSystem) (paths : List Text)
    (options : AuditManifestGenerateOptions) : AuditManifestResult :=
  let manifest : AuditManifest :=
    { creator := options.creator, createdAt := options.createdAt, format := options.format }
  match StoppingLoop.loop (generateEntry fs paths) { manifest } paths.zipIdx with
  | (result, false) => result
  | (result, true) =>
    let manifest := { result.manifest with
      chainChecksum := computeAuditManifestChainChecksum result.manifest.schemaVersion
        result.manifest.format result.manifest.files }
    if options.signingKey = [] then { result with manifest }
    else
      { result with
        manifest := { manifest with
          signature := some
            { algorithm := auditManifestSignatureAlgorithm
              keyId := options.signingKeyId
              valueHex :=
                hmacSha256Hex options.signingKey (canonicalAuditManifestPayload manifest) } } }

end Generate

section Serialize

def AuditManifestSignature.serialize (signature : AuditManifestSignature) : Text :=
  text ",\"signature_algorithm\":" ++ writeJsonString signature.algorithm ++
    text ",\"signature_key_id\":" ++ writeJsonString signature.keyId ++
    text ",\"signature\":" ++ writeJsonString signature.valueHex

def AuditManifestFileEntry.serialize (file : AuditManifestFileEntry) : Text :=
  text "\x7b\"record\":\"file\",\"file_name\":" ++ writeJsonString file.fileName ++
    text ",\"record_count\":" ++ uint64 file.recordCount ++
    text ",\"byte_size\":" ++ uint64 file.byteSize ++
    text ",\"content_checksum\":" ++ uint64 file.contentChecksum ++
    text ",\"audit_chain_checksum\":" ++ uint64 file.auditChainChecksum ++ text "\x7d" ++ [newline]

def serializeAuditManifest (manifest : AuditManifest) : Text :=
  text "\x7b\"record\":\"manifest\",\"schema_version\":" ++ uint32 manifest.schemaVersion ++
    text ",\"format\":" ++ writeJsonString manifest.format.toString ++
    text ",\"creator\":" ++ writeJsonString manifest.creator ++
    text ",\"created_at\":" ++ writeJsonString manifest.createdAt ++
    text ",\"chain_checksum\":" ++ uint64 manifest.chainChecksum ++
    (match manifest.signature with
      | none => []
      | some signature => signature.serialize) ++ text "\x7d" ++ [newline] ++
    manifest.files.flatMap AuditManifestFileEntry.serialize

end Serialize

section Parse

def jsonRawValue (line key : Text) : Option Text := JsonLine.valueFor line key

/-- A backslash at the end of the text stands for itself. -/
def jsonUnescape : Text → Text
  | [] => []
  | [ch] => [ch]
  | ch :: next :: rest =>
    if ch = JsonLine.backslash then
      (if next = 110 then newline else if next = 114 then 13 else if next = 116 then 9 else next) ::
        jsonUnescape rest
    else ch :: jsonUnescape (next :: rest)

def parseFormatToken (value : Text) : Option RiskAuditLogFormat :=
  if value = text "jsonl" then some .jsonl
  else if value = text "text" then some .text
  else none

structure ManifestParsing where
  manifest : AuditManifest := {}
  headerSeen : Bool := false
  lineNumber : Nat := 0

namespace ManifestParsing

def fail {T : Type} (lineNumber : Nat) (message : Text) : Except Text T :=
  .error (text "line " ++ Decimal.decimal lineNumber ++ text ": " ++ message)

def parseHeader (manifest : AuditManifest) (line : Text) (lineNumber : Nat) :
    Except Text AuditManifest :=
  match (jsonRawValue line (text "schema_version")).bind parseUInt32,
      (jsonRawValue line (text "chain_checksum")).bind parseUInt64 with
  | some schemaVersion, some chainChecksum =>
    match (jsonRawValue line (text "format")).bind parseFormatToken with
    | none => fail lineNumber (text "invalid format")
    | some format =>
      .ok { manifest with
        schemaVersion, chainChecksum, format
        creator := ((jsonRawValue line (text "creator")).map jsonUnescape).getD manifest.creator
        createdAt :=
          ((jsonRawValue line (text "created_at")).map jsonUnescape).getD manifest.createdAt
        signature :=
          match jsonRawValue line (text "signature") with
          | none => manifest.signature
          | some value => some
            { valueHex := jsonUnescape value
              algorithm :=
                ((jsonRawValue line (text "signature_algorithm")).map jsonUnescape).getD []
              keyId := ((jsonRawValue line (text "signature_key_id")).map jsonUnescape).getD [] } }
  | _, _ => fail lineNumber (text "malformed manifest header")

def parseFile (line : Text) : Option AuditManifestFileEntry := do
  let fileName ← jsonRawValue line (text "file_name")
  let recordCount ← (jsonRawValue line (text "record_count")).bind parseUInt64
  let byteSize ← (jsonRawValue line (text "byte_size")).bind parseUInt64
  let contentChecksum ← (jsonRawValue line (text "content_checksum")).bind parseUInt64
  let auditChainChecksum ← (jsonRawValue line (text "audit_chain_checksum")).bind parseUInt64
  return { fileName := jsonUnescape fileName, recordCount, byteSize, contentChecksum
           auditChainChecksum }

/-- The body of the loop over the lines; empty lines are not numbered. -/
def parseLine (p : ManifestParsing) (raw : Text) : Except Text ManifestParsing :=
  let line := stripCarriageReturn raw
  if line = [] then .ok p
  else
    let lineNumber := p.lineNumber + 1
    match jsonRawValue line (text "record") with
    | none => fail lineNumber (text "missing record field")
    | some record =>
      if record = text "manifest" then
        if p.headerSeen then fail lineNumber (text "duplicate manifest header")
        else do
          let manifest ← parseHeader p.manifest line lineNumber
          return { manifest, headerSeen := true, lineNumber }
      else if record = text "file" then
        if !p.headerSeen then fail lineNumber (text "file entry before manifest header")
        else
          match parseFile line with
          | none => fail lineNumber (text "malformed file entry")
          | some entry =>
            .ok { p with
              manifest := { p.manifest with files := p.manifest.files ++ [entry] }
              lineNumber }
      else fail lineNumber (text "unknown record type")

end ManifestParsing

/-- The manifest, or the text of the error. -/
def parseAuditManifest (contents : Text) : Except Text AuditManifest := do
  let p ← (contents.splitOn newline).foldlM ManifestParsing.parseLine {}
  if !p.headerSeen then throw (text "missing manifest header")
  return p.manifest

end Parse

namespace AuditManifestVerification

def report (v : AuditManifestVerification) (type : AuditManifestIssueType) (fileName detail : Text) :
    AuditManifestVerification :=
  { v with valid := false, issues := v.issues ++ [{ type, fileName, detail }] }

def reportIf (v : AuditManifestVerification) (failed : Bool) (type : AuditManifestIssueType)
    (fileName detail : Text) : AuditManifestVerification :=
  if failed then v.report type fileName detail else v

end AuditManifestVerification

/-- The verification with the paths found so far. -/
structure ManifestChecking where
  verification : AuditManifestVerification
  presentPaths : List Text := []
  allPresent : Bool := true

def AuditManifestFileEntry.path (baseDir : Text) (entry : AuditManifestFileEntry) : Text :=
  if baseDir = [] then entry.fileName else joinPath baseDir entry.fileName

def checkManifestEntry (fs : FileSystem) (baseDir : Text) (c : ManifestChecking)
    (entry : AuditManifestFileEntry) : ManifestChecking :=
  let path := entry.path baseDir
  let v := { c.verification with filesChecked := c.verification.filesChecked + 1 }
  if !fs.present path then
    { c with
      verification := v.report .missingFile entry.fileName (text "file not found")
      allPresent := false }
  else
    let scan := scanFile fs path
    if !scan.ok then
      { c with
        verification := v.report .missingFile entry.fileName scan.error
        allPresent := false }
    else
      let sizeDiffers := scan.byteSize != entry.byteSize.toNat
      let contentDiffers := scan.contentChecksum != entry.contentChecksum
      let countDiffers := scan.recordCount != entry.recordCount.toNat
      let v := v.reportIf sizeDiffers .sizeMismatch entry.fileName
        (text "byte size mismatch: expected " ++ uint64 entry.byteSize ++ text ", found " ++
          Decimal.decimal scan.byteSize)
      let v := v.reportIf contentDiffers .contentChecksumMismatch entry.fileName
        (text "content checksum mismatch")
      let v := v.reportIf countDiffers .recordCountMismatch entry.fileName
        (text "record count mismatch: expected " ++ uint64 entry.recordCount ++ text ", found " ++
          Decimal.decimal scan.recordCount)
      { verification := v
        presentPaths := c.presentPaths ++ [path]
        allPresent := c.allPresent && !(sizeDiffers || contentDiffers || countDiffers) }

/-- The cumulative chain is recomputed only when every file is present and intact. -/
def checkManifestChain (fs : FileSystem) (manifest : AuditManifest) (c : ManifestChecking) :
    AuditManifestVerification :=
  match c.allPresent, manifest.files.getLast? with
  | true, some last =>
    let chain := verifyRiskAuditLogs fs.read c.presentPaths manifest.format
    let v := { c.verification with entriesChecked := chain.entriesChecked }
    v.reportIf (chain.finalChecksum != last.auditChainChecksum) .auditChainMismatch []
      (text "audit chain checksum mismatch: expected " ++ uint64 last.auditChainChecksum ++
        text ", recomputed " ++ uint64 chain.finalChecksum)
  | _, _ => c.verification

def checkManifestSignature (manifest : AuditManifest) (signingKey : List UInt8)
    (v : AuditManifestVerification) : AuditManifestVerification :=
  match manifest.signature with
  | some signature =>
    let v := { v with signaturePresent := true }
    if signature.algorithm ≠ auditManifestSignatureAlgorithm then
      v.report .signatureMismatch [] (text "unsupported signature algorithm: " ++ signature.algorithm)
    else if signingKey = [] then
      v.report .keyMissing [] (text "signed manifest but no key provided")
    else if hmacSha256Hex signingKey (canonicalAuditManifestPayload manifest) =
        signature.valueHex then { v with signatureValid := true }
    else v.report .signatureMismatch [] (text "HMAC-SHA256 signature mismatch")
  | none =>
    v.reportIf (signingKey != []) .signatureMissing []
      (text "key provided but manifest is unsigned (possible signature stripping)")

def verifyAuditManifest (fs : FileSystem) (manifest : AuditManifest)
    (options : AuditManifestVerifyOptions) : AuditManifestVerification :=
  let recomputed :=
    computeAuditManifestChainChecksum manifest.schemaVersion manifest.format manifest.files
  let v := AuditManifestVerification.reportIf { computedChainChecksum := recomputed }
    (recomputed != manifest.chainChecksum) .manifestChainMismatch []
    (text "manifest chain checksum mismatch: expected " ++ uint64 recomputed ++
      text ", recorded " ++ uint64 manifest.chainChecksum)
  let c := manifest.files.foldl (checkManifestEntry fs options.baseDir) { verification := v }
  checkManifestSignature manifest options.signingKey
    (checkManifestChain fs manifest c)

end Asterion
