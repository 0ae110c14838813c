import Asterion.Risk.AuditManifest
import Asterion.Risk.AuditLines

/-! A manifest that is written as lines of JSON and parsed again. Escaping leaves no quote that a
search could take for the end of a string or the start of a key, and no line break. -/
namespace Asterion
open Lib Lib.JsonLine ManifestParsing

section Unescape

theorem jsonUnescape_other {b : UInt8} (hb : b ≠ backslash) (rest : Text) :
    jsonUnescape (b :: rest) = b :: jsonUnescape rest := by
  cases rest with
  | nil => rfl
  | cons next rest => rw [jsonUnescape, if_neg hb]

theorem jsonUnescape_escapeByte (b : UInt8) (rest : Text) :
    jsonUnescape (escapeByte b ++ rest) = b :: jsonUnescape rest := by
  unfold escapeByte
  split
  · rename_i slash
    rw [slash]
    rfl
  · rename_i other
    split
    · rename_i mark
      rw [mark]
      rfl
    · split
      · rename_i feed
        rw [feed]
        rfl
      · split
        · rename_i back
          rw [back]
          rfl
        · split
          · rename_i tab
            rw [tab]
            rfl
          · exact jsonUnescape_other other rest

theorem jsonUnescape_escape (value : Text) : jsonUnescape (escape value) = value := by
  induction value with
  | nil => rfl
  | cons b value ih => rw [escape_cons, jsonUnescape_escapeByte, ih]

end Unescape

section Lines

def AuditManifest.headerFields (manifest : AuditManifest) : List (Text × Value) :=
  [(text "record", .string (text "manifest")),
    (text "schema_version", .raw (uint32 manifest.schemaVersion)),
    (text "format", .string manifest.format.toString),
    (text "creator", .string manifest.creator),
    (text "created_at", .string manifest.createdAt),
    (text "chain_checksum", .raw (uint64 manifest.chainChecksum))] ++
  match manifest.signature with
  | none => []
  | some signature =>
    [(text "signature_algorithm", .string signature.algorithm),
      (text "signature_key_id", .string signature.keyId),
      (text "signature", .string signature.valueHex)]

def AuditManifestFileEntry.fields (file : AuditManifestFileEntry) : List (Text × Value) :=
  [(text "record", .string (text "file")),
    (text "file_name", .string file.fileName),
    (text "record_count", .raw (uint64 file.recordCount)),
    (text "byte_size", .raw (uint64 file.byteSize)),
    (text "content_checksum", .raw (uint64 file.contentChecksum)),
    (text "audit_chain_checksum", .raw (uint64 file.auditChainChecksum))]

theorem serialize_file (file : AuditManifestFileEntry) :
    file.serialize = object file.fields ++ [newline] := by
  have first : text "\x7b\"record\":\"file\",\"file_name\":" =
      openBrace :: (needle (text "record") ++ (Value.string (text "file")).text ++
        comma :: needle (text "file_name")) := by decide
  have count : text ",\"record_count\":" = comma :: needle (text "record_count") := by
    decide
  have size : text ",\"byte_size\":" = comma :: needle (text "byte_size") := by decide
  have content : text ",\"content_checksum\":" = comma :: needle (text "content_checksum") := by
    decide
  have chain : text ",\"audit_chain_checksum\":" =
      comma :: needle (text "audit_chain_checksum") := by decide
  have last : text "\x7d" = [closeBrace] := by decide
  unfold AuditManifestFileEntry.serialize object AuditManifestFileEntry.fields
  rw [first, count, size, content, chain, last]
  simp only [List.map_cons, List.map_nil, field, Value.text, writeJsonString,
    List.intercalate_cons_cons, List.intercalate_singleton]
  simp only [List.append_assoc, List.cons_append, List.nil_append]

theorem serialize_signature (signature : AuditManifestSignature) :
    signature.serialize =
      comma :: field (text "signature_algorithm", .string signature.algorithm) ++
        comma :: field (text "signature_key_id", .string signature.keyId) ++
        comma :: field (text "signature", .string signature.valueHex) := by
  have algorithm : text ",\"signature_algorithm\":" =
      comma :: needle (text "signature_algorithm") := by decide
  have key : text ",\"signature_key_id\":" = comma :: needle (text "signature_key_id") := by
    decide
  have value : text ",\"signature\":" = comma :: needle (text "signature") := by decide
  unfold AuditManifestSignature.serialize
  rw [algorithm, key, value]
  simp only [field, Value.text, writeJsonString, List.append_assoc, List.cons_append]

theorem serialize_manifest (manifest : AuditManifest) :
    serializeAuditManifest manifest =
      (object manifest.headerFields :: manifest.files.map (object ·.fields)).flatMap
        (· ++ [newline]) := by
  have first : text "\x7b\"record\":\"manifest\",\"schema_version\":" =
      openBrace :: (needle (text "record") ++ (Value.string (text "manifest")).text ++
        comma :: needle (text "schema_version")) := by decide
  have format : text ",\"format\":" = comma :: needle (text "format") := by decide
  have creator : text ",\"creator\":" = comma :: needle (text "creator") := by decide
  have created : text ",\"created_at\":" = comma :: needle (text "created_at") := by decide
  have chain : text ",\"chain_checksum\":" = comma :: needle (text "chain_checksum") := by
    decide
  have last : text "\x7d" = [closeBrace] := by decide
  have files : manifest.files.flatMap AuditManifestFileEntry.serialize =
      (manifest.files.map (object ·.fields)).flatMap (· ++ [newline]) := by
    rw [List.flatMap_map]
    exact List.flatMap_congr (fun file _ => serialize_file file)
  rw [List.flatMap_cons, ← files]
  unfold serializeAuditManifest object AuditManifest.headerFields
  rw [first, format, creator, created, chain, last]
  cases manifest.signature with
  | none =>
    simp only [List.map_cons, List.map_nil, List.append_nil, field, Value.text, writeJsonString,
      List.intercalate_cons_cons, List.intercalate_singleton]
    simp only [List.append_assoc, List.cons_append, List.nil_append]
  | some signature =>
    simp only [serialize_signature]
    simp only [List.map_cons, List.map_nil, field, Value.text, writeJsonString,
      List.intercalate_cons_cons, List.intercalate_singleton, List.append_assoc, List.cons_append,
      List.nil_append]

end Lines

section Fields

def headerKeys : List Text :=
  [text "record", text "schema_version", text "format", text "creator", text "created_at",
    text "chain_checksum", text "signature_algorithm", text "signature_key_id", text "signature"]

def fileKeys : List Text :=
  [text "record", text "file_name", text "record_count", text "byte_size", text "content_checksum",
    text "audit_chain_checksum"]

theorem plain_headerKeys : ∀ key ∈ headerKeys, Plain key ∧ newline ∉ key := by
  change ∀ key ∈ headerKeys, (∀ b ∈ key, b ∉ marks) ∧ newline ∉ key
  decide

theorem plain_fileKeys : ∀ key ∈ fileKeys, Plain key ∧ newline ∉ key := by
  change ∀ key ∈ fileKeys, (∀ b ∈ key, b ∉ marks) ∧ newline ∉ key
  decide

def OneLine (value : Value) : Prop := value.Plain ∧ newline ∉ value.read

theorem oneLine_string (value : Text) : OneLine (.string value) :=
  ⟨trivial, not_mem_escape (Or.inl rfl) value⟩

theorem oneLine_uint64 (x : UInt64) : OneLine (.raw (uint64 x)) :=
  ⟨plain_uint64 x, Decimal.not_mem_decimal (by decide) _⟩

theorem oneLine_uint32 (x : UInt32) : OneLine (.raw (uint32 x)) :=
  ⟨plain_uint32 x, Decimal.not_mem_decimal (by decide) _⟩

theorem headerFields_wellFormed (manifest : AuditManifest) :
    ∀ f ∈ manifest.headerFields, f.1 ∈ headerKeys ∧ OneLine f.2 := by
  unfold AuditManifest.headerFields headerKeys
  cases manifest.signature with
  | none =>
    simp only [List.append_nil, List.forall_mem_cons]
    simp only [List.mem_cons, true_or, or_true, true_and]
    exact ⟨oneLine_string _, oneLine_uint32 _, oneLine_string _, oneLine_string _,
      oneLine_string _, oneLine_uint64 _, List.forall_mem_nil _⟩
  | some signature =>
    simp only [List.cons_append, List.nil_append, List.forall_mem_cons]
    simp only [List.mem_cons, true_or, or_true, true_and]
    exact ⟨oneLine_string _, oneLine_uint32 _, oneLine_string _, oneLine_string _,
      oneLine_string _, oneLine_uint64 _, oneLine_string _, oneLine_string _, oneLine_string _,
      List.forall_mem_nil _⟩

theorem fields_wellFormed (file : AuditManifestFileEntry) :
    ∀ f ∈ file.fields, f.1 ∈ fileKeys ∧ OneLine f.2 := by
  unfold AuditManifestFileEntry.fields fileKeys
  simp only [List.forall_mem_cons]
  simp only [List.mem_cons, true_or, or_true, true_and]
  exact ⟨oneLine_string _, oneLine_string _, oneLine_uint64 _, oneLine_uint64 _,
    oneLine_uint64 _, oneLine_uint64 _, List.forall_mem_nil _⟩

section Object
variable {keys : List Text} (plain : ∀ key ∈ keys, Plain key ∧ newline ∉ key)
  {fields : List (Text × Value)} (wellFormed : ∀ f ∈ fields, f.1 ∈ keys ∧ OneLine f.2)
include plain wellFormed

theorem newline_not_mem_object : newline ∉ object fields := by
  apply not_mem_object (by decide)
  intro f hf
  obtain ⟨key, value⟩ := wellFormed f hf
  exact ⟨(plain f.1 key).2, value.2⟩

theorem jsonRawValue_object {key : Text} (hk : key ∈ keys) {value : Value}
    (h : fields.find? (fun f => f.1 = key) = some (key, value)) :
    jsonRawValue (object fields) key = some value.read :=
  valueFor_object (plain key hk).1
    (fun f hf => ⟨(plain f.1 (wellFormed f hf).1).1, (wellFormed f hf).2.1⟩) h

theorem jsonRawValue_absent {key : Text} (hk : key ∈ keys) (absent : ∀ f ∈ fields, f.1 ≠ key) :
    jsonRawValue (object fields) key = none :=
  valueFor_absent (plain key hk).1
    (fun f hf => ⟨(plain f.1 (wellFormed f hf).1).1, (wellFormed f hf).2.1⟩) absent

end Object

theorem parseFile_fields (file : AuditManifestFileEntry) :
    ManifestParsing.parseFile (object file.fields) = some file := by
  have value := @jsonRawValue_object _ plain_fileKeys file.fields (fields_wellFormed file)
  have name := @value (text "file_name") (by decide) _ rfl
  have count := @value (text "record_count") (by decide) _ rfl
  have size := @value (text "byte_size") (by decide) _ rfl
  have content := @value (text "content_checksum") (by decide) _ rfl
  have chain := @value (text "audit_chain_checksum") (by decide) _ rfl
  simp only [ManifestParsing.parseFile, name, count, size, content, chain, Value.read,
    parseUInt64_uint64, jsonUnescape_escape, Option.bind_some, Option.bind_eq_bind]
  rfl

theorem parseFormatToken_toString (format : RiskAuditLogFormat) :
    parseFormatToken (escape format.toString) = some format := by
  cases format <;> decide

theorem parseHeader_fields (manifest : AuditManifest) (lineNumber : Nat) :
    parseHeader {} (object manifest.headerFields) lineNumber = .ok { manifest with files := [] } := by
  have wellFormed := headerFields_wellFormed manifest
  have value := @jsonRawValue_object _ plain_headerKeys manifest.headerFields wellFormed
  have schema := @value (text "schema_version") (by decide) _ rfl
  have format := @value (text "format") (by decide) _ rfl
  have creator := @value (text "creator") (by decide) _ rfl
  have created := @value (text "created_at") (by decide) _ rfl
  have chain := @value (text "chain_checksum") (by decide) _ rfl
  simp only [parseHeader, schema, chain, format, creator, created, Value.read, Option.bind_some,
    parseUInt32_uint32, parseUInt64_uint64, parseFormatToken_toString, jsonUnescape_escape,
    Option.map_some, Option.getD_some]
  cases signed : manifest.signature with
  | none =>
    have absent : jsonRawValue (object manifest.headerFields) (text "signature") = none := by
      apply jsonRawValue_absent plain_headerKeys wellFormed (by decide)
      unfold AuditManifest.headerFields
      simp only [signed, List.append_nil, List.forall_mem_cons]
      decide
    simp only [absent]
  | some signature =>
    have fields : manifest.headerFields.find? (fun f => f.1 = text "signature") =
          some (text "signature", .string signature.valueHex) ∧
        manifest.headerFields.find? (fun f => f.1 = text "signature_algorithm") =
          some (text "signature_algorithm", .string signature.algorithm) ∧
        manifest.headerFields.find? (fun f => f.1 = text "signature_key_id") =
          some (text "signature_key_id", .string signature.keyId) := by
      unfold AuditManifest.headerFields
      rw [signed]
      exact ⟨rfl, rfl, rfl⟩
    have hex := value (by decide) fields.1
    have algorithm := value (by decide) fields.2.1
    have key := value (by decide) fields.2.2
    simp only [hex, algorithm, key, Value.read, jsonUnescape_escape, Option.map_some,
      Option.getD_some]

end Fields

section Document

theorem stripCarriageReturn_object (fields : List (Text × Value)) :
    stripCarriageReturn (object fields) = object fields := by
  have last : (object fields).getLast? = some closeBrace := by
    rw [object, ← List.cons_append, List.getLast?_concat]
  rw [stripCarriageReturn, last, if_neg (by decide)]

theorem parseLine_header (manifest : AuditManifest) :
    parseLine {} (object manifest.headerFields) =
      .ok { manifest := { manifest with files := [] }, headerSeen := true, lineNumber := 1 } := by
  have record := @jsonRawValue_object _ plain_headerKeys _ (headerFields_wellFormed manifest)
    (text "record") (by decide) _ rfl
  have token : escape (text "manifest") = text "manifest" := by decide
  simp only [parseLine, stripCarriageReturn_object, record, Value.read, token, parseHeader_fields]
  rfl

theorem parseLine_file (p : ManifestParsing) (seen : p.headerSeen = true)
    (file : AuditManifestFileEntry) :
    parseLine p (object file.fields) =
      .ok { p with
        manifest := { p.manifest with files := p.manifest.files ++ [file] }
        lineNumber := p.lineNumber + 1 } := by
  have record := @jsonRawValue_object _ plain_fileKeys _ (fields_wellFormed file)
    (text "record") (by decide) _ rfl
  have token : escape (text "file") = text "file" := by decide
  have other : text "file" ≠ text "manifest" := by decide
  simp only [parseLine, stripCarriageReturn_object, record, Value.read, token, other, seen,
    parseFile_fields, if_false, if_true]
  rfl

/-- The parser appends the entries of the file lines; the empty text behind the last line is no
line. -/
theorem parse_files (files : List AuditManifestFileEntry) (p : ManifestParsing)
    (seen : p.headerSeen = true) :
    (files.map (fun file : AuditManifestFileEntry => object file.fields) ++ [[]]).foldlM parseLine p =
      .ok { p with
        manifest := { p.manifest with files := p.manifest.files ++ files }
        lineNumber := p.lineNumber + files.length } := by
  induction files generalizing p with
  | nil =>
    rw [List.append_nil]
    rfl
  | cons file files ih =>
    have tail := ih { p with
      manifest := { p.manifest with files := p.manifest.files ++ [file] }
      lineNumber := p.lineNumber + 1 } seen
    have count : p.lineNumber + (files.length + 1) = p.lineNumber + 1 + files.length := by omega
    rw [List.append_assoc, List.singleton_append] at tail
    rw [List.map_cons, List.cons_append, List.foldlM_cons, parseLine_file p seen file,
      List.length_cons, count]
    exact tail

/-- A manifest that is written is read back. -/
theorem parse_serialize_manifest (manifest : AuditManifest) :
    parseAuditManifest (serializeAuditManifest manifest) = .ok manifest := by
  have lines : ∀ line ∈ object manifest.headerFields :: manifest.files.map (object ·.fields),
      newline ∉ line := by
    intro line hl
    rcases List.mem_cons.mp hl with rfl | hl
    · exact newline_not_mem_object plain_headerKeys (headerFields_wellFormed manifest)
    · obtain ⟨file, -, rfl⟩ := List.mem_map.mp hl
      exact newline_not_mem_object plain_fileKeys (fields_wellFormed file)
  have files := parse_files manifest.files
    { manifest := { manifest with files := [] }, headerSeen := true, lineNumber := 1 } rfl
  rw [serialize_manifest, parseAuditManifest, Search.splitOn_blocks lines, List.cons_append,
    List.foldlM_cons, parseLine_header]
  dsimp only [bind, Except.bind]
  rw [files]
  rfl

end Document

end Asterion
