import Asterion.Lib.Search
import Asterion.MarketData.EventLog

/-! One event written and read back, as a line of text and as a binary record. -/
namespace Asterion
open Lib

section Row

/-- Bytes that no field of an event has: those that cut lines and fields, open a comment, or occur
in the name of a column. -/
def foreignBytes : List UInt8 := [commaSign, newline, space, 9, 13, 35, 95, 102, 105, 113]

def PlainField (value : Text) : Prop := ∀ b ∈ value, b ∉ foreignBytes

instance (value : Text) : Decidable (PlainField value) :=
  inferInstanceAs (Decidable (∀ b ∈ value, b ∉ foreignBytes))

theorem plain_integer (x : Int) : PlainField (Decimal.integer x) := by
  intro b hb foreign
  have other : ∀ c ∈ foreignBytes, Decimal.isDigit c = false ∧ c ≠ Decimal.minus := by
    decide
  exact Decimal.not_mem_integer (other b foreign).1 (other b foreign).2 x hb

theorem plain_decimal (n : Nat) : PlainField (Decimal.decimal n) := by
  rw [← Decimal.integer_natCast]
  exact plain_integer n

theorem plain_type (type : MarketEventType) : PlainField type.toString := by
  cases type <;> decide

theorem plain_side (side : Side) : PlainField side.toString := by
  cases side <;> decide

theorem plain_csvFields (event : MarketDataEvent) : ∀ field ∈ event.csvFields, PlainField field := by
  simp only [MarketDataEvent.csvFields, List.forall_mem_cons]
  exact ⟨plain_integer _, plain_decimal _, plain_decimal _, plain_type _, plain_side _,
    plain_integer _, plain_integer _, plain_decimal _, plain_decimal _, plain_decimal _,
    fun _ h => absurd h List.not_mem_nil⟩

theorem dropWhile_plain {value : Text} (h : ∀ b ∈ value, isBlank b = false) :
    value.dropWhile isBlank = value := by
  cases value with
  | nil => rfl
  | cons b value => exact List.dropWhile_cons_of_neg (by simp [h b List.mem_cons_self])

theorem trimCopy_plain {value : Text} (h : ∀ b ∈ value, isBlank b = false) :
    trimCopy value = value := by
  rw [trimCopy, dropWhile_plain h, dropWhile_plain (fun b hb => h b (List.mem_reverse.mp hb)),
    List.reverse_reverse]

theorem trimCopy_return {value : Text} (h : ∀ b ∈ value, isBlank b = false) :
    trimCopy (value ++ [13]) = value := by
  cases value with
  | nil => decide
  | cons b value =>
    have first : (b :: value ++ [13]).dropWhile isBlank = b :: value ++ [13] :=
      List.dropWhile_cons_of_neg (by simp [h b List.mem_cons_self])
    have last : (13 :: (b :: value).reverse).dropWhile isBlank = (b :: value).reverse := by
      rw [List.dropWhile_cons_of_pos (by decide)]
      exact dropWhile_plain (fun c hc => h c (List.mem_reverse.mp hc))
    rw [trimCopy, first, List.reverse_concat, last, List.reverse_reverse]

theorem not_blank {b : UInt8} (h : b ∉ foreignBytes) : isBlank b = false := by
  by_contra blank
  simp only [isBlank, Bool.not_eq_false, Bool.or_eq_true, beq_iff_eq] at blank
  rcases blank with ((rfl | rfl) | rfl) | rfl
  · exact h (by decide)
  · exact h (by decide)
  · exact h (by decide)
  · exact h (by decide)

theorem trimCopy_field {value : Text} (h : PlainField value) : trimCopy value = value :=
  trimCopy_plain (fun b hb => not_blank (h b hb))

theorem splitCsv_row (event : MarketDataEvent) :
    splitCsv (marketDataEventToCsv event) = event.csvFields := by
  have apart : ∀ field ∈ event.csvFields, commaSign ∉ field :=
    fun field hf hc => plain_csvFields event field hf commaSign hc (by decide)
  rw [splitCsv, marketDataEventToCsv, List.splitOn_intercalate commaSign apart (List.cons_ne_nil _ _)]
  exact (List.map_congr_left (fun field hf => trimCopy_field (plain_csvFields event field hf))).trans
    (List.map_id _)

theorem parseMarketEventType_toString (type : MarketEventType) :
    parseMarketEventType type.toString = some type := by
  cases type <;> decide

theorem parseSide_toString (side : Side) : parseSide side.toString = some side := by
  cases side <;> decide

theorem parseSigned_integer {x : Int} (h : -2 ^ 63 ≤ x ∧ x < 2 ^ 63) :
    parseSigned (Decimal.integer x) = some x :=
  Decimal.read_integer h.1 (by omega)

theorem parseUnsigned_decimal {bits n : Nat} (h : n < 2 ^ bits) :
    parseUnsigned bits (Decimal.decimal n) = some n := by
  have bound : n ≤ 2 ^ bits - 1 := by omega
  have top : ((2 ^ bits - 1 : Nat) : Int) = 2 ^ bits - 1 := by
    rw [Int.ofNat_sub Nat.one_le_two_pow]
    push_cast
    rfl
  have back := Decimal.read_decimal bound
  rw [top] at back
  rw [parseUnsigned, back]
  rfl

/-- The line of an event is read back as the event. -/
theorem parse_row {event : MarketDataEvent} (fits : event.Fits) :
    parseMarketDataEventCsv (marketDataEventToCsv event) = .ok event := by
  unfold parseMarketDataEventCsv
  rw [splitCsv_row]
  simp only [MarketDataEvent.csvFields, parseSigned_integer fits.timestampNs,
    parseUnsigned_decimal fits.sequenceNumber, parseUnsigned_decimal fits.symbolId,
    parseMarketEventType_toString, parseSide_toString, parseSigned_integer fits.priceTicks,
    parseSigned_integer fits.quantity, parseUnsigned_decimal fits.orderId,
    parseUnsigned_decimal fits.tradeId, parseUnsigned_decimal fits.flags]
  rfl

theorem mem_row {event : MarketDataEvent} {b : UInt8} (hb : b ∈ marketDataEventToCsv event) :
    b = commaSign ∨ b ∉ foreignBytes := by
  rcases Search.mem_intercalate hb with same | ⟨field, hf, inside⟩
  · exact Or.inl same
  · exact Or.inr (plain_csvFields event field hf b inside)

theorem column_not_in_row (event : MarketDataEvent) :
    ∀ column ∈ csvColumns, ¬ column <:+: marketDataEventToCsv event := by
  intro column hc inside
  have marked : ∀ column ∈ csvColumns, ∃ b ∈ column, b ≠ commaSign ∧ b ∈ foreignBytes := by
    decide
  obtain ⟨b, hb, other, foreign⟩ := marked column hc
  exact (mem_row (inside.subset hb)).elim other (fun plain => plain foreign)

theorem row_ne_nil (event : MarketDataEvent) : marketDataEventToCsv event ≠ [] := by
  intro empty
  have fields := splitCsv_row event
  rw [empty] at fields
  have one : (splitCsv []).length = 1 := by decide
  have ten : event.csvFields.length = 10 := rfl
  rw [fields] at one
  omega

theorem isIgnoredCsvLine_row (event : MarketDataEvent) :
    isIgnoredCsvLine (marketDataEventToCsv event) = (false, []) := by
  have trimmed : trimCopy (marketDataEventToCsv event) = marketDataEventToCsv event := by
    apply trimCopy_plain
    intro b hb
    rcases mem_row hb with rfl | plain
    · decide
    · exact not_blank plain
  have kept : isBlankOrCommentCsvLine (marketDataEventToCsv event) = false := by
    obtain ⟨b, rest, row⟩ := List.exists_cons_of_ne_nil (row_ne_nil event)
    have first : b ≠ 35 := by
      rintro rfl
      have here : 35 ∈ marketDataEventToCsv event := row ▸ List.mem_cons_self
      exact (mem_row here).elim (by decide) (fun plain => plain (by decide))
    rw [row]
    simp [isBlankOrCommentCsvLine, first]
  have header : marketDataEventToCsv event ≠ marketDataCsvHeader := by
    intro same
    have column : text "side" <:+: marketDataCsvHeader := by decide
    exact column_not_in_row event (text "side") (by decide) (same ▸ column)
  have other : looksLikeCsvHeader (marketDataEventToCsv event) = false := by
    have none : csvColumns.filter (fun column =>
        decide (column <:+: marketDataEventToCsv event)) = [] := by
      rw [List.filter_eq_nil_iff]
      intro column hc
      rw [decide_eq_true_iff]
      exact column_not_in_row event column hc
    rw [looksLikeCsvHeader, none]
    rfl
  rw [isIgnoredCsvLine, trimmed, kept, if_neg Bool.false_ne_true, if_neg header, other,
    if_neg Bool.false_ne_true]

end Row

section Record

def wireFields (event : MarketDataEvent) : List Text :=
  [littleEndian 8 event.timestampNs, littleEndian 8 event.sequenceNumber,
    littleEndian 4 event.symbolId, littleEndian 1 event.eventType.toByte,
    littleEndian 1 event.side.toByte, littleEndian 4 event.flags, littleEndian 8 event.priceTicks,
    littleEndian 8 event.quantity, littleEndian 8 event.orderId, littleEndian 8 event.tradeId]

def wireSizes : List Nat := [8, 8, 4, 1, 1, 4, 8, 8, 8, 8]

theorem flatten_wireFields (event : MarketDataEvent) :
    (wireFields event).flatten = encodeRecord event := by
  simp [wireFields, encodeRecord]

theorem length_encodeRecord (event : MarketDataEvent) :
    (encodeRecord event).length = binaryEventRecordSize := by
  simp [encodeRecord, binaryEventRecordSize]

theorem pieces_record (bytes : Text) : Blocks.pieces wireSizes bytes =
    [(bytes.drop 0).take 8, (bytes.drop 8).take 8, (bytes.drop 16).take 4, (bytes.drop 20).take 1,
      (bytes.drop 21).take 1, (bytes.drop 22).take 4, (bytes.drop 26).take 8,
      (bytes.drop 34).take 8, (bytes.drop 42).take 8, (bytes.drop 50).take 8] := by
  simp only [wireSizes, Blocks.pieces, List.drop_drop, List.drop_zero]

theorem pieces_encodeRecord (event : MarketDataEvent) :
    Blocks.pieces wireSizes (encodeRecord event) = wireFields event := by
  have sizes : (wireFields event).map List.length = wireSizes := by
    simp [wireFields, wireSizes]
  rw [← sizes, ← flatten_wireFields, Blocks.pieces_flatten]

theorem getD_of_piece {bytes : Text} {offset : Nat} {b : UInt8}
    (h : (bytes.drop offset).take 1 = [b]) : bytes.getD offset 0 = b := by
  cases rest : bytes.drop offset with
  | nil =>
    rw [rest] at h
    cases h
  | cons c cs =>
    rw [rest] at h
    obtain rfl := (List.cons.inj h).1
    have here : bytes[offset]? = some c := by
      rw [← List.head?_drop, rest]
      rfl
    rw [List.getD_eq_getElem?_getD, here]
    rfl

theorem eventTypeFromWire_toByte (type : MarketEventType) :
    littleEndian 1 type.toByte = [UInt8.ofNat type.toByte] ∧
      eventTypeFromWire (UInt8.ofNat type.toByte) = some type := by
  cases type <;> decide

theorem sideFromWire_toByte (side : Side) :
    littleEndian 1 side.toByte = [UInt8.ofNat side.toByte] ∧
      sideFromWire (UInt8.ofNat side.toByte) = some side := by
  cases side <;> decide

/-- The record of an event is read back as the event. -/
theorem decode_encode {event : MarketDataEvent} (fits : event.Fits) (index : Nat) :
    decodeRecord (encodeRecord event) index = .ok event := by
  have pieces := pieces_encodeRecord event
  rw [pieces_record] at pieces
  simp only [wireFields, List.cons.injEq, and_true] at pieces
  obtain ⟨h0, h8, h16, h20, h21, h22, h26, h34, h42, h50⟩ := pieces
  obtain ⟨typeBytes, type⟩ := eventTypeFromWire_toByte event.eventType
  obtain ⟨sideBytes, side⟩ := sideFromWire_toByte event.side
  rw [typeBytes] at h20
  rw [sideBytes] at h21
  have signed : ∀ {x : Int}, -2 ^ 63 ≤ x ∧ x < 2 ^ 63 →
      toSigned 8 (ofLittleEndian (littleEndian 8 x)) = x :=
    fun h => toSigned_littleEndian (by omega) (by omega)
  have wide : ∀ {n : Nat}, n < 2 ^ 64 → ofLittleEndian (littleEndian 8 n) = n :=
    fun h => @ofLittleEndian_littleEndian 8 _ h
  have short : ∀ {n : Nat}, n < 2 ^ 32 → ofLittleEndian (littleEndian 4 n) = n :=
    fun h => @ofLittleEndian_littleEndian 4 _ h
  unfold decodeRecord
  simp only [getD_of_piece h20, getD_of_piece h21, type, side, readField, h0, h8, h16, h22, h26,
    h34, h42, h50, signed fits.timestampNs, signed fits.priceTicks, signed fits.quantity,
    wide fits.sequenceNumber, short fits.symbolId, wide fits.orderId, wide fits.tradeId,
    short fits.flags]

theorem eventTypeFromWire_eq_some {b : UInt8} {type : MarketEventType}
    (h : eventTypeFromWire b = some type) : littleEndian 1 type.toByte = [b] := by
  unfold eventTypeFromWire at h
  repeat' split at h
  all_goals
    first
    | obtain rfl := Option.some.inj h
      subst b
      decide
    | cases h

theorem sideFromWire_eq_some {b : UInt8} {side : Side} (h : sideFromWire b = some side) :
    littleEndian 1 side.toByte = [b] := by
  unfold sideFromWire at h
  repeat' split at h
  all_goals
    first
    | obtain rfl := Option.some.inj h
      subst b
      decide
    | cases h

/-- A record of the right size whose two enumerations are known. -/
structure WellFormedRecord (bytes : Text) : Prop where
  size : bytes.length = binaryEventRecordSize
  eventType : eventTypeFromWire (bytes.getD 20 0) ≠ none
  side : sideFromWire (bytes.getD 21 0) ≠ none

section Field
variable {bytes : Text} (size : bytes.length = binaryEventRecordSize)
include size

theorem length_piece {offset width : Nat} (inside : offset + width ≤ 58) :
    ((bytes.drop offset).take width).length = width := by
  have whole : bytes.length = 58 := size
  rw [List.length_take, List.length_drop]
  omega

theorem piece_of_getD {offset : Nat} (inside : offset < 58) :
    (bytes.drop offset).take 1 = [bytes.getD offset 0] := by
  have whole : bytes.length = 58 := size
  have here : offset < bytes.length := by omega
  rw [List.drop_eq_getElem_cons here, List.getD_eq_getElem bytes 0 here]
  rfl

theorem readField_lt {offset width : Nat} (inside : offset + width ≤ 58) :
    readField bytes offset width < 2 ^ (8 * width) := by
  have bound := ofLittleEndian_lt ((bytes.drop offset).take width)
  rw [length_piece size inside] at bound
  exact bound

omit size in
theorem toSigned_bounds (n : Nat) : -2 ^ 63 ≤ toSigned 8 n ∧ toSigned 8 n < 2 ^ 63 := by
  have positive : 0 < (2 ^ (8 * 8) : Nat) := by decide
  have low := Int.le_bmod positive (x := (n : Int))
  have high := Int.bmod_lt positive (x := (n : Int))
  rw [toSigned]
  constructor
  · omega
  · omega

/-- What a well-formed record holds is an event whose record it is. -/
theorem encode_decode {event : MarketDataEvent} {index : Nat}
    (h : decodeRecord bytes index = .ok event) : event.Fits ∧ encodeRecord event = bytes := by
  unfold decodeRecord at h
  dsimp only at h
  split at h
  · cases h
  rename_i type knownType
  split at h
  · cases h
  rename_i side knownSide
  obtain rfl := Except.ok.inj h
  constructor
  · have wide : ∀ offset, offset + 8 ≤ 58 → readField bytes offset 8 < 2 ^ 64 :=
      fun offset inside => @readField_lt bytes size offset 8 inside
    have short : ∀ offset, offset + 4 ≤ 58 → readField bytes offset 4 < 2 ^ 32 :=
      fun offset inside => @readField_lt bytes size offset 4 inside
    constructor
    · dsimp only
      exact toSigned_bounds (readField bytes 0 8)
    · exact wide 8 (by omega)
    · exact short 16 (by omega)
    · dsimp only
      exact toSigned_bounds (readField bytes 26 8)
    · dsimp only
      exact toSigned_bounds (readField bytes 34 8)
    · exact wide 42 (by omega)
    · exact wide 50 (by omega)
    · exact short 22 (by omega)
  · have whole : bytes.length = wireSizes.sum := size
    have signed : ∀ offset, offset + 8 ≤ 58 →
        littleEndian 8 (toSigned 8 (readField bytes offset 8)) = (bytes.drop offset).take 8 :=
      fun offset inside => littleEndian_toSigned (length_piece size inside)
    have unsigned : ∀ width offset, offset + width ≤ 58 →
        littleEndian width (readField bytes offset width) = (bytes.drop offset).take width :=
      fun width offset inside => littleEndian_ofLittleEndian (length_piece size inside)
    rw [← flatten_wireFields, wireFields]
    dsimp only
    rw [signed 0 (by omega), unsigned 8 8 (by omega), unsigned 4 16 (by omega),
      eventTypeFromWire_eq_some knownType, ← piece_of_getD size (by omega),
      sideFromWire_eq_some knownSide, ← piece_of_getD size (by omega), unsigned 4 22 (by omega),
      signed 26 (by omega), signed 34 (by omega), unsigned 8 42 (by omega),
      unsigned 8 50 (by omega), ← pieces_record, Blocks.flatten_pieces whole]

end Field

end Record

end Asterion
