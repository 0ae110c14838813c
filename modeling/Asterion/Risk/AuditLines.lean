import Asterion.Risk.RiskAudit

/-! What the parser reads in a line that the writer wrote. The reader knows two names fewer than
the writer, leaves escapes in the name of the check, and cuts it at a space. -/
namespace Asterion
open Lib Lib.Search Lib.JsonLine

def RejectReason.Readable (reason : RejectReason) : Prop :=
  reason ≠ .postOnlyWouldCross ∧ reason ≠ .fokNotFillable

instance (reason : RejectReason) : Decidable reason.Readable :=
  inferInstanceAs (Decidable (_ ∧ _))

theorem parseRejectReasonToken_toString (reason : RejectReason) :
    parseRejectReasonToken reason.toString = if reason.Readable then some reason else none := by
  cases reason <;> decide

theorem parseSideToken_toString (side : Side) : parseSideToken side.toString = some side := by
  cases side <;> decide

theorem parseBoolToken_boolToText (value : Bool) : parseBoolToken (boolToText value) = value := by
  cases value <;> decide

theorem escape_side (side : Side) : escape side.toString = side.toString := by
  cases side <;> decide

theorem escape_reason (reason : RejectReason) : escape reason.toString = reason.toString := by
  cases reason <;> decide

/-- The words of a check name; the reader takes the first as the whole name. -/
def words (name : Text) : List Text := name.splitOn space

/-- The value the reader finds under a key written behind the check name: a further word of the
name hides it. -/
def heardWord (name key value : Text) : Text :=
  ((words name).tail.findSome? (strip (key ++ [equalsSign]))).getD value

/-- The entry and the logged checksum as the reader hears them, the reject reason apart. -/
def RiskAuditEntry.heard (entry : RiskAuditEntry) (logged : UInt64) :
    RiskAuditLogFormat → Option (RiskAuditEntry × UInt64)
  | .jsonl => some ({ entry with checkName := escape entry.checkName }, logged)
  | .text => do
    let name := entry.checkName
    let limitValue ← parseInt64 (heardWord name (text "limit_value") (int64 entry.limitValue))
    let observedValue ←
      parseInt64 (heardWord name (text "observed_value") (int64 entry.observedValue))
    let logged ← parseUInt64 (heardWord name (text "checksum") (uint64 logged))
    return ({ entry with checkName := (words name).headD [], limitValue, observedValue }, logged)

/-- The characters of a check name that a format does not carry through. -/
def altered : RiskAuditLogFormat → List UInt8
  | .jsonl => [quote, backslash, 9, newline, 13]
  | .text => [space]

def Unaltered (format : RiskAuditLogFormat) (name : Text) : Prop :=
  ∀ b ∈ name, b ∉ altered format

theorem escape_unaltered {name : Text} (h : Unaltered .jsonl name) : escape name = name := by
  induction name with
  | nil => rfl
  | cons b name ih =>
    have hb := h b List.mem_cons_self
    simp only [altered, newline, List.mem_cons, not_or] at hb
    have one : escapeByte b = [b] := by
      rw [escapeByte, if_neg hb.2.1, if_neg hb.1, if_neg hb.2.2.2.1, if_neg hb.2.2.2.2.1,
        if_neg hb.2.2.1]
    rw [escape_cons, one, ih (fun c hc => h c (List.mem_cons_of_mem _ hc))]
    rfl

theorem heardWord_unaltered {name : Text} (h : Unaltered .text name) (key value : Text) :
    heardWord name key value = value := by
  have one : words name = [name] :=
    List.splitOn_eq_singleton (fun hs => h space hs List.mem_cons_self)
  rw [heardWord, one]
  rfl

theorem heard_unaltered {format : RiskAuditLogFormat} {entry : RiskAuditEntry}
    (h : Unaltered format entry.checkName) (logged : UInt64) :
    entry.heard logged format = some (entry, logged) := by
  cases format with
  | jsonl => rw [RiskAuditEntry.heard, escape_unaltered h]
  | text =>
    have one : words entry.checkName = [entry.checkName] :=
      List.splitOn_eq_singleton (fun hs => h space hs List.mem_cons_self)
    simp only [RiskAuditEntry.heard, heardWord_unaltered h, parseInt64_int64, parseUInt64_uint64,
      one]
    rfl

section Plain

theorem marks_number : ∀ b ∈ marks, Decimal.isDigit b = false ∧ b ≠ Decimal.minus := by decide

theorem plain_int64 (x : Int64) : Plain (int64 x) := fun b hb hm =>
  Decimal.not_mem_integer (marks_number b hm).1 (marks_number b hm).2 _ hb

theorem plain_uint64 (x : UInt64) : Plain (uint64 x) := fun b hb hm =>
  Decimal.not_mem_decimal (marks_number b hm).1 _ hb

theorem plain_uint32 (x : UInt32) : Plain (uint32 x) := fun b hb hm =>
  Decimal.not_mem_decimal (marks_number b hm).1 _ hb

theorem plain_boolToText (value : Bool) : Plain (boolToText value) := by
  unfold Plain
  cases value <;> decide

end Plain

section Jsonl
variable (entry : RiskAuditEntry) (logged : UInt64)

def RiskAuditEntry.jsonFields : List (Text × Value) :=
  [(text "timestamp_ns", .raw (int64 entry.timestampNs)),
    (text "client_order_id", .raw (uint64 entry.clientOrderId)),
    (text "symbol_id", .raw (uint32 entry.symbolId)),
    (text "side", .string entry.side.toString),
    (text "accepted", .raw (boolToText entry.accepted)),
    (text "reject_reason", .string entry.rejectReason.toString),
    (text "check_name", .string entry.checkName),
    (text "limit_value", .raw (int64 entry.limitValue)),
    (text "observed_value", .raw (int64 entry.observedValue)),
    (text "checksum", .raw (uint64 logged))]

theorem format_jsonl : formatRiskAuditLogEntry entry logged .jsonl =
    object (entry.jsonFields logged) ++ [newline] := by
  have first : text "\x7b\"timestamp_ns\":" = openBrace :: needle (text "timestamp_ns") := by
    decide
  have client : text ",\"client_order_id\":" = comma :: needle (text "client_order_id") := by
    decide
  have symbol : text ",\"symbol_id\":" = comma :: needle (text "symbol_id") := by decide
  have side : text ",\"side\":" = comma :: needle (text "side") := by decide
  have accepted : text ",\"accepted\":" = comma :: needle (text "accepted") := by decide
  have reason : text ",\"reject_reason\":" = comma :: needle (text "reject_reason") := by
    decide
  have name : text ",\"check_name\":" = comma :: needle (text "check_name") := by decide
  have limit : text ",\"limit_value\":" = comma :: needle (text "limit_value") := by decide
  have observed : text ",\"observed_value\":" = comma :: needle (text "observed_value") := by
    decide
  have checksum : text ",\"checksum\":" = comma :: needle (text "checksum") := by decide
  have last : text "\x7d" = [closeBrace] := by decide
  unfold formatRiskAuditLogEntry object RiskAuditEntry.jsonFields
  dsimp only
  rw [first, client, symbol, side, accepted, reason, name, limit, observed, checksum, last]
  simp only [List.map_cons, List.map_nil, field, Value.text, writeJsonString,
    List.intercalate_cons_cons, List.intercalate_singleton]
  simp only [List.append_assoc, List.cons_append, List.nil_append]

theorem plain_jsonFields : ∀ f ∈ entry.jsonFields logged, Plain f.1 ∧ f.2.Plain := by
  have keys : ∀ key ∈ (entry.jsonFields logged).map Prod.fst, Plain key := by
    change ∀ key ∈ [text "timestamp_ns", text "client_order_id", text "symbol_id", text "side",
      text "accepted", text "reject_reason", text "check_name", text "limit_value",
      text "observed_value", text "checksum"], ∀ b ∈ key, b ∉ marks
    decide
  intro f hf
  refine ⟨keys f.1 (List.mem_map_of_mem hf), ?_⟩
  simp only [RiskAuditEntry.jsonFields, List.mem_cons, List.not_mem_nil, or_false] at hf
  rcases hf with rfl | rfl | rfl | rfl | rfl | rfl | rfl | rfl | rfl | rfl
  · exact plain_int64 _
  · exact plain_uint64 _
  · exact plain_uint32 _
  · trivial
  · exact plain_boolToText _
  · trivial
  · trivial
  · exact plain_int64 _
  · exact plain_int64 _
  · exact plain_uint64 _

theorem jsonValueFor_field {key : Text} {value : Value} (plain : Plain key)
    (h : (entry.jsonFields logged).find? (fun f => f.1 = key) = some (key, value)) :
    jsonValueFor (object (entry.jsonFields logged)) key = some value.read :=
  valueFor_object plain (plain_jsonFields entry logged) h

theorem parse_jsonl : parseAuditEntryLine (object (entry.jsonFields logged)) .jsonl =
    if entry.rejectReason.Readable then entry.heard logged .jsonl else none := by
  have value := @jsonValueFor_field entry logged
  have plain : ∀ key ∈ [text "timestamp_ns", text "client_order_id", text "symbol_id", text "side",
      text "accepted", text "reject_reason", text "check_name", text "limit_value",
      text "observed_value", text "checksum"], Plain key := by
    change ∀ key ∈ _, ∀ b ∈ key, b ∉ marks
    decide
  simp only [List.forall_mem_cons] at plain
  obtain ⟨p₁, p₂, p₃, p₄, p₅, p₆, p₇, p₈, p₉, p₁₀, -⟩ := plain
  simp only [parseAuditEntryLine, auditValueFor, value p₁ rfl, value p₂ rfl, value p₃ rfl,
    value p₄ rfl, value p₅ rfl, value p₆ rfl, value p₇ rfl, value p₈ rfl, value p₉ rfl,
    value p₁₀ rfl, Value.read, Option.bind_some, parseInt64_int64, parseUInt64_uint64,
    parseUInt32_uint32, escape_side, escape_reason, parseSideToken_toString,
    parseRejectReasonToken_toString]
  split
  · simp only [Option.bind_eq_bind, Option.bind_some, parseBoolToken_boolToText]
    rfl
  · rfl

end Jsonl

section TextLine
variable (entry : RiskAuditEntry) (logged : UInt64)

def RiskAuditEntry.leading : List (Text × Text) :=
  [(text "timestamp_ns", int64 entry.timestampNs),
    (text "client_order_id", uint64 entry.clientOrderId),
    (text "symbol_id", uint32 entry.symbolId),
    (text "side", entry.side.toString),
    (text "accepted", boolToText entry.accepted),
    (text "reject_reason", entry.rejectReason.toString)]

def RiskAuditEntry.trailing : List (Text × Text) :=
  [(text "limit_value", int64 entry.limitValue),
    (text "observed_value", int64 entry.observedValue),
    (text "checksum", uint64 logged)]

def RiskAuditEntry.textLine : Text :=
  [space].intercalate (entry.leading.map (word equalsSign)) ++ space ::
    (word equalsSign (text "check_name", entry.checkName) ++ space ::
      [space].intercalate ((entry.trailing logged).map (word equalsSign)))

theorem format_text :
    formatRiskAuditLogEntry entry logged .text = entry.textLine logged ++ [newline] := by
  have first : text "timestamp_ns=" = text "timestamp_ns" ++ [equalsSign] := by decide
  have client : text " client_order_id=" = space :: (text "client_order_id" ++ [equalsSign]) := by
    decide
  have symbol : text " symbol_id=" = space :: (text "symbol_id" ++ [equalsSign]) := by
    decide
  have side : text " side=" = space :: (text "side" ++ [equalsSign]) := by decide
  have accepted : text " accepted=" = space :: (text "accepted" ++ [equalsSign]) := by
    decide
  have reason : text " reject_reason=" = space :: (text "reject_reason" ++ [equalsSign]) := by
    decide
  have name : text " check_name=" = space :: (text "check_name" ++ [equalsSign]) := by
    decide
  have limit : text " limit_value=" = space :: (text "limit_value" ++ [equalsSign]) := by
    decide
  have observed : text " observed_value=" = space :: (text "observed_value" ++ [equalsSign]) := by
    decide
  have checksum : text " checksum=" = space :: (text "checksum" ++ [equalsSign]) := by
    decide
  unfold formatRiskAuditLogEntry RiskAuditEntry.textLine RiskAuditEntry.leading
    RiskAuditEntry.trailing
  dsimp only
  rw [first, client, symbol, side, accepted, reason, name, limit, observed, checksum]
  simp only [List.map_cons, List.map_nil, word, List.intercalate_cons_cons,
    List.intercalate_singleton]
  simp only [List.append_assoc, List.cons_append, List.nil_append]

theorem space_not_mem_fields : (∀ f ∈ entry.leading, space ∉ word equalsSign f) ∧
    ∀ f ∈ entry.trailing logged, space ∉ word equalsSign f := by
  have digit : Decimal.isDigit space = false := by decide
  have sign : space ≠ Decimal.minus := by decide
  have join : ∀ {key value : Text}, space ∉ key → space ∉ value →
      space ∉ word equalsSign (key, value) := by
    intro key value hk hv h
    rcases List.mem_append.mp h with h | h
    · exact hk h
    · exact (List.mem_cons.mp h).elim (by decide) hv
  have keys : ∀ key ∈ [text "timestamp_ns", text "client_order_id", text "symbol_id", text "side",
      text "accepted", text "reject_reason", text "limit_value", text "observed_value",
      text "checksum"], space ∉ key := by decide
  have int := fun x : Int64 => Decimal.not_mem_integer digit sign x.toInt
  have nat := fun x : Nat => Decimal.not_mem_decimal digit x
  have side : space ∉ entry.side.toString := by cases entry.side <;> decide
  have flag : space ∉ boolToText entry.accepted := by cases entry.accepted <;> decide
  have reason : space ∉ entry.rejectReason.toString := by
    cases entry.rejectReason <;> decide
  simp only [List.forall_mem_cons] at keys
  obtain ⟨k₁, k₂, k₃, k₄, k₅, k₆, k₇, k₈, k₉, -⟩ := keys
  simp only [RiskAuditEntry.leading, RiskAuditEntry.trailing, List.forall_mem_cons]
  refine ⟨⟨join k₁ (int _), join k₂ (nat _), join k₃ (nat _), join k₄ side, join k₅ flag,
    join k₆ reason, ?_⟩, join k₇ (int _), join k₈ (int _), join k₉ (nat _), ?_⟩
  · exact List.forall_mem_nil _
  · exact List.forall_mem_nil _

/-- The words of a line: those of the name stand between those of the fields. -/
theorem words_textLine : (entry.textLine logged).splitOn space =
    entry.leading.map (word equalsSign) ++
      ((words entry.checkName).modifyHead ((text "check_name" ++ [equalsSign]) ++ ·) ++
        (entry.trailing logged).map (word equalsSign)) := by
  obtain ⟨leading, trailing⟩ := space_not_mem_fields entry logged
  have block : ∀ {fields : List (Text × Text)}, fields ≠ [] →
      (∀ f ∈ fields, space ∉ word equalsSign f) →
      ([space].intercalate (fields.map (word equalsSign))).splitOn space =
        fields.map (word equalsSign) := by
    intro fields some none
    exact List.splitOn_intercalate _ (List.forall_mem_map.mpr none) (by simpa using some)
  have name : (word equalsSign (text "check_name", entry.checkName)).splitOn space =
      (words entry.checkName).modifyHead ((text "check_name" ++ [equalsSign]) ++ ·) := by
    have split : word equalsSign (text "check_name", entry.checkName) =
        (text "check_name" ++ [equalsSign]) ++ entry.checkName := List.append_cons _ _ _
    rw [split]
    exact splitOn_block (by decide) _
  have before := block (by simp [RiskAuditEntry.leading]) leading
  have behind := block (by simp [RiskAuditEntry.trailing]) trailing
  rw [RiskAuditEntry.textLine, List.splitOn_append_cons_self, List.splitOn_append_cons_self,
    before, behind, name]

/-- What the reader finds: a field before the name, else a word of the name, else a field behind
it. -/
theorem textValueFor_textLine {key : Text} (plain : equalsSign ∉ key) :
    textValueFor (entry.textLine logged) key =
      ((entry.leading.find? (fun f => f.1 = key)).map Prod.snd).or
        (((if key = text "check_name" then some ((words entry.checkName).headD []) else none).or
            ((words entry.checkName).tail.findSome? (strip (key ++ [equalsSign])))).or
          (((entry.trailing logged).find? (fun f => f.1 = key)).map Prod.snd)) := by
  have keys : (∀ f ∈ entry.leading, equalsSign ∉ f.1) ∧
      ∀ f ∈ entry.trailing logged, equalsSign ∉ f.1 := by
    have all : ∀ k ∈ [text "timestamp_ns", text "client_order_id", text "symbol_id", text "side",
        text "accepted", text "reject_reason", text "limit_value", text "observed_value",
        text "checksum"], equalsSign ∉ k := by decide
    simp only [List.forall_mem_cons] at all
    simp only [RiskAuditEntry.leading, RiskAuditEntry.trailing, List.forall_mem_cons]
    tauto
  obtain ⟨w, ws, hw⟩ := List.exists_cons_of_ne_nil (List.splitOn_ne_nil space entry.checkName)
  have name : strip (key ++ [equalsSign]) ((text "check_name" ++ [equalsSign]) ++ w) =
      if key = text "check_name" then some w else none := by
    split
    · rename_i same
      rw [same, strip_append]
    · rename_i other
      apply strip_eq_none
      intro h
      rw [List.append_assoc] at h
      exact other (key_unique plain (by decide) h)
  rw [textValueFor, wordAfter, words_textLine, List.findSome?_append, List.findSome?_append,
    findSome?_words keys.1 plain, findSome?_words keys.2 plain, words, hw]
  simp only [List.modifyHead_cons, List.findSome?_cons, name, List.headD_cons, List.tail_cons]
  split
  · rename_i own
    rw [own]
    rfl
  · rename_i other
    rw [other]
    rfl

theorem parse_text : parseAuditEntryLine (entry.textLine logged) .text =
    if entry.rejectReason.Readable then entry.heard logged .text else none := by
  have value := @textValueFor_textLine entry logged
  have plain : ∀ key ∈ [text "timestamp_ns", text "client_order_id", text "symbol_id", text "side",
      text "accepted", text "reject_reason", text "check_name", text "limit_value",
      text "observed_value", text "checksum"], equalsSign ∉ key := by decide
  simp only [List.forall_mem_cons] at plain
  obtain ⟨p₁, p₂, p₃, p₄, p₅, p₆, p₇, p₈, p₉, p₁₀, -⟩ := plain
  have last : ∀ (found : Option Text) (own : Text), found.or (some own) = some (found.getD own) := by
    intro found own
    cases found <;> rfl
  have v₁ : _ = some (int64 entry.timestampNs) := value p₁
  have v₂ : _ = some (uint64 entry.clientOrderId) := value p₂
  have v₃ : _ = some (uint32 entry.symbolId) := value p₃
  have v₄ : _ = some entry.side.toString := value p₄
  have v₅ : _ = some (boolToText entry.accepted) := value p₅
  have v₆ : _ = some entry.rejectReason.toString := value p₆
  have v₇ : _ = some ((words entry.checkName).headD []) := value p₇
  have v₈ : _ = some (heardWord entry.checkName (text "limit_value") (int64 entry.limitValue)) :=
    (value p₈).trans (last _ _)
  have v₉ : _ =
      some (heardWord entry.checkName (text "observed_value") (int64 entry.observedValue)) :=
    (value p₉).trans (last _ _)
  have v₁₀ : _ = some (heardWord entry.checkName (text "checksum") (uint64 logged)) :=
    (value p₁₀).trans (last _ _)
  simp only [parseAuditEntryLine, auditValueFor, v₁, v₂, v₃, v₄, v₅, v₆, v₇, v₈, v₉, v₁₀,
    Option.bind_some, Option.bind_eq_bind, parseInt64_int64, parseUInt64_uint64,
    parseUInt32_uint32, parseSideToken_toString, parseRejectReasonToken_toString]
  by_cases readable : entry.rejectReason.Readable
  · simp only [if_pos readable, Option.bind_some, parseBoolToken_boolToText]
    rfl
  · simp [if_neg readable]

end TextLine

end Asterion
