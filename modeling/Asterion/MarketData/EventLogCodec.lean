import Asterion.MarketData.EventCodec

/-! Event logs written and read back, in both formats, and what the binary reader accepts. -/
namespace Asterion
open Lib Lib.StoppingLoop

section Reading
variable {result : EventLogReadResult}

theorem pushed (events : List MarketDataEvent) :
    events.foldl EventLogReadResult.push result =
      { result with
        events := result.events ++ events
        eventChecksum := events.foldl MarketDataEvent.appendToChecksum result.eventChecksum } := by
  induction events generalizing result with
  | nil => rw [List.append_nil]; rfl
  | cons event events ih =>
    rw [List.foldl_cons, ih, List.foldl_cons]
    simp only [EventLogReadResult.push, List.append_assoc, List.singleton_append]

theorem readCsvLine_row {event : MarketDataEvent} (fits : event.Fits) (number : Nat) :
    readCsvLine result (marketDataEventToCsv event, number) = (result.push event, true) := by
  rw [readCsvLine, isIgnoredCsvLine_row]
  dsimp only
  rw [if_neg Bool.false_ne_true, parse_row fits]

theorem readCsvLine_ignored {line : Text} (h : isIgnoredCsvLine line = (true, [])) (number : Nat) :
    readCsvLine result (line, number) = (result, true) := by
  rw [readCsvLine, h]
  rfl

theorem read_rows {events : List MarketDataEvent} {line : MarketDataEvent → Text}
    (reads : ∀ event ∈ events, ∀ result number,
      readCsvLine result (line event, number) = (result.push event, true)) (number : Nat) :
    loop readCsvLine result (((events.map line) ++ [[]]).zipIdx number) =
      (events.foldl EventLogReadResult.push result, true) := by
  induction events generalizing result number with
  | nil =>
    have blank := @readCsvLine_ignored result [] (by decide) number
    exact (loop_single result _).trans blank
  | cons event events ih =>
    have here := reads event List.mem_cons_self result number
    have on : (readCsvLine result (line event, number)).2 = true := by
      rw [here]
    rw [List.map_cons, List.cons_append, List.zipIdx_cons, loop_cons_on on, here,
      ih (fun e he => reads e (List.mem_cons_of_mem _ he)), List.foldl_cons]

theorem csvLines_written (events : List MarketDataEvent) :
    csvLines (writeCsvEventLog events).1 =
      (marketDataCsvHeader :: (events.map marketDataEventToCsv ++ [[]])).zipIdx 1 := by
  have rows : (writeCsvEventLog events).1 =
      (marketDataCsvHeader :: events.map marketDataEventToCsv).flatMap (· ++ [newline]) := by
    rw [List.flatMap_cons, List.flatMap_map]
    rfl
  have apart : ∀ line ∈ marketDataCsvHeader :: events.map marketDataEventToCsv, newline ∉ line := by
    intro line hl
    rcases List.mem_cons.mp hl with rfl | hl
    · decide
    · obtain ⟨event, -, rfl⟩ := List.mem_map.mp hl
      intro hn
      exact (mem_row hn).elim (by decide) (fun plain => plain (by decide))
  rw [csvLines, rows, Search.splitOn_blocks apart]
  rfl

theorem read_write_csv (path : Text) {events : List MarketDataEvent}
    (fits : ∀ event ∈ events, event.Fits) :
    readCsvEventLog path (some (writeCsvEventLog events).1) =
      { events, detectedFormat := .csv, eventChecksum := checksumEvents events } := by
  have header : isIgnoredCsvLine marketDataCsvHeader = (true, []) := by decide
  have skipped := @readCsvLine_ignored (EventLogReadResult.start .csv) _ header 1
  have on : (readCsvLine (EventLogReadResult.start .csv) (marketDataCsvHeader, 1)).2 = true := by
    rw [skipped]
  rw [readCsvEventLog]
  rw [csvLines_written, List.zipIdx_cons, loop_cons_on on, skipped,
    read_rows (fun event he _ _ => readCsvLine_row (fits event he) _), pushed]
  rfl

end Reading

section Binary
variable {result : EventLogReadResult}

theorem length_encodeHeader : encodeHeader.length = binaryEventLogHeaderSize := by
  decide

theorem readBinaryRecord_encoded {event : MarketDataEvent} (fits : event.Fits) (index : Nat) :
    readBinaryRecord result (encodeRecord event, index) = (result.push event, true) := by
  rw [readBinaryRecord, if_neg (not_not.mpr (length_encodeRecord event)), decode_encode fits]

theorem schemaError_ne_nil (category detail : Text) : schemaError category detail ≠ [] := by
  intro empty
  simp only [schemaError, List.append_eq_nil_iff] at empty
  exact absurd empty.2 (by decide)

theorem decodeRecord_error {bytes error : Text} {index : Nat}
    (h : decodeRecord bytes index = .error error) :
    error ≠ [] ∧ ¬ WellFormedRecord bytes := by
  unfold decodeRecord at h
  dsimp only at h
  split at h
  · rename_i unknown
    obtain rfl := Except.error.inj h
    exact ⟨schemaError_ne_nil _ _, fun well => well.eventType unknown⟩
  · split at h
    · rename_i unknown
      obtain rfl := Except.error.inj h
      exact ⟨schemaError_ne_nil _ _, fun well => well.side unknown⟩
    · cases h

theorem decodeRecord_ok {bytes : Text} {index : Nat} {event : MarketDataEvent}
    (size : bytes.length = binaryEventRecordSize) (h : decodeRecord bytes index = .ok event) :
    WellFormedRecord bytes := by
  unfold decodeRecord at h
  dsimp only at h
  split at h
  · cases h
  · rename_i known
    split at h
    · cases h
    · rename_i known'
      refine ⟨size, ?_, ?_⟩
      · rw [known]
        exact Option.some_ne_none _
      · rw [known']
        exact Option.some_ne_none _

/-- A record that is well formed is read as the event it encodes; any other ends the reading and
drops what was read. -/
theorem readBinaryRecord_cases (result : EventLogReadResult) (bytes : Text) (index : Nat) :
    (WellFormedRecord bytes ∧ ∃ event : MarketDataEvent, event.Fits ∧ encodeRecord event = bytes ∧
      readBinaryRecord result (bytes, index) = (result.push event, true)) ∨
    (¬ WellFormedRecord bytes ∧ ∃ error, error ≠ [] ∧
      readBinaryRecord result (bytes, index) = (result.fail error, false)) := by
  by_cases size : bytes.length = binaryEventRecordSize
  · cases decoded : decodeRecord bytes index with
    | error error =>
      obtain ⟨some, malformed⟩ := decodeRecord_error decoded
      refine Or.inr ⟨malformed, error, some, ?_⟩
      rw [readBinaryRecord, if_neg (not_not.mpr size), decoded]
    | ok event =>
      obtain ⟨fits, same⟩ := encode_decode size decoded
      refine Or.inl ⟨decodeRecord_ok size decoded, event, fits, same, ?_⟩
      rw [readBinaryRecord, if_neg (not_not.mpr size), decoded]
  · right
    refine ⟨fun well => size well.size, _, schemaError_ne_nil (text "malformed binary event log")
      (text "truncated binary event record at index " ++ Decimal.decimal index), ?_⟩
    rw [readBinaryRecord, if_pos size]

theorem read_records {events : List MarketDataEvent} (fits : ∀ event ∈ events, event.Fits)
    (index : Nat) :
    loop readBinaryRecord result ((events.map encodeRecord).zipIdx index) =
      (events.foldl EventLogReadResult.push result, true) := by
  induction events generalizing result index with
  | nil => rfl
  | cons event events ih =>
    have here := @readBinaryRecord_encoded result event (fits event List.mem_cons_self) index
    have on : (readBinaryRecord result (encodeRecord event, index)).2 = true := by
      rw [here]
    rw [List.map_cons, List.zipIdx_cons, loop_cons_on on, here,
      ih (fun e he => fits e (List.mem_cons_of_mem _ he)), List.foldl_cons]

theorem encoded_of_wellFormed {records : List Text} (well : ∀ r ∈ records, WellFormedRecord r) :
    ∃ events : List MarketDataEvent, (∀ event ∈ events, event.Fits) ∧
      events.map encodeRecord = records := by
  induction records with
  | nil => exact ⟨[], fun _ h => absurd h List.not_mem_nil, rfl⟩
  | cons r records ih =>
    obtain ⟨events, fits, same⟩ := ih (fun s hs => well s (List.mem_cons_of_mem _ hs))
    rcases readBinaryRecord_cases {} r 0 with ⟨-, event, here, rfl, -⟩ | ⟨malformed, -⟩
    · exact ⟨event :: events, List.forall_mem_cons.mpr ⟨here, fits⟩, by rw [List.map_cons, same]⟩
    · exact absurd (well r List.mem_cons_self) malformed

theorem read_malformed {records : List Text} {r : Text} (hr : r ∈ records)
    (malformed : ¬ WellFormedRecord r) (index : Nat) :
    ∃ error, error ≠ [] ∧
      (loop readBinaryRecord result (records.zipIdx index)).1 = result.fail error := by
  induction records generalizing result index with
  | nil => cases hr
  | cons s records ih =>
    rcases readBinaryRecord_cases result s index with ⟨well, event, -, -, here⟩ | ⟨-, error, some, here⟩
    · have later : r ∈ records := by
        rcases List.mem_cons.mp hr with rfl | later
        · exact absurd well malformed
        · exact later
      have on : (readBinaryRecord result (s, index)).2 = true := by
        rw [here]
      obtain ⟨error, some, failed⟩ := @ih (result.push event) later (index + 1)
      refine ⟨error, some, ?_⟩
      rw [List.zipIdx_cons, loop_cons_on on, here, failed]
      rfl
    · have off : (readBinaryRecord result (s, index)).2 = false := by
        rw [here]
      refine ⟨error, some, ?_⟩
      rw [List.zipIdx_cons, loop_cons_off off, here]

theorem headerError_encodeHeader : headerError encodeHeader = none := by
  decide

theorem headerError_ne_nil {header error : Text} (h : headerError header = some error) :
    error ≠ [] := by
  unfold headerError at h
  dsimp only at h
  repeat' split at h
  all_goals cases h
  all_goals exact schemaError_ne_nil _ _

theorem headerError_eq_none {header : Text} (h : headerError header = none) :
    header = encodeHeader := by
  unfold headerError at h
  dsimp only at h
  split at h
  · cases h
  rename_i size
  split at h
  · cases h
  rename_i magic
  split at h
  · cases h
  rename_i version
  split at h
  · cases h
  rename_i headerSize
  split at h
  · cases h
  rename_i recordSize
  split at h
  · cases h
  rename_i reserved
  have whole : header.length = 16 := not_not.mp size
  have field : ∀ offset value, offset + 2 ≤ 16 → ¬ readField header offset 2 ≠ value →
      (header.drop offset).take 2 = littleEndian 2 value := by
    intro offset value inside same
    have width : ((header.drop offset).take 2).length = 2 := by
      rw [List.length_take, List.length_drop]
      omega
    have value := not_not.mp same
    rw [← value, readField, littleEndian_ofLittleEndian width]
  have cut : (Blocks.pieces [8, 2, 2, 2, 2] header).flatten = header := Blocks.flatten_pieces whole
  rw [← cut]
  simp only [Blocks.pieces, List.drop_drop, List.flatten_cons, List.flatten_nil, List.append_nil]
  rw [field 8 _ (by omega) version, field 10 _ (by omega) headerSize,
    field 12 _ (by omega) recordSize, field 14 _ (by omega) reserved]
  have front : header.take 8 = binaryEventLogMagic := not_not.mp magic
  rw [front]
  simp only [encodeHeader, List.append_assoc]
  rfl

theorem read_write_binary (path : Text) {events : List MarketDataEvent}
    (fits : ∀ event ∈ events, event.Fits) :
    readBinaryEventLog path (some (writeBinaryEventLog events).1) =
      { events, detectedFormat := .binary, eventChecksum := checksumEvents events } := by
  have sized : ∀ r ∈ events.map encodeRecord, r.length = binaryEventRecordSize := by
    intro r hr
    obtain ⟨event, -, rfl⟩ := List.mem_map.mp hr
    exact length_encodeRecord event
  have contents : (writeBinaryEventLog events).1 =
      encodeHeader ++ (events.map encodeRecord).flatten := rfl
  rw [readBinaryEventLog, contents, ← length_encodeHeader, List.take_left, List.drop_left,
    headerError_encodeHeader, Blocks.blocks_flatten (by decide) sized]
  dsimp only
  rw [read_records fits, pushed]
  rfl

/-- A log in the binary format: the header, and well-formed records behind it. -/
def WellFormedLog (contents : Text) : Prop :=
  ∃ records : List Text, contents = encodeHeader ++ records.flatten ∧
    ∀ r ∈ records, WellFormedRecord r

/-- The binary reader either reads the events whose log the contents are, or fails. -/
theorem readBinaryEventLog_cases (path contents : Text) :
    (WellFormedLog contents ∧ ∃ events, readBinaryEventLog path (some contents) =
        { events, detectedFormat := .binary, eventChecksum := checksumEvents events } ∧
      (writeBinaryEventLog events).1 = contents) ∨
    (¬ WellFormedLog contents ∧ ∃ error, error ≠ [] ∧ readBinaryEventLog path (some contents) =
      (EventLogReadResult.start .binary).fail error) := by
  have blocks : ∀ {records : List Text}, (∀ r ∈ records, WellFormedRecord r) →
      Blocks.blocks binaryEventRecordSize records.flatten = records :=
    fun well => Blocks.blocks_flatten (by decide) (fun r hr => (well r hr).size)
  cases header : headerError (contents.take binaryEventLogHeaderSize) with
  | some error =>
    refine Or.inr ⟨?_, error, headerError_ne_nil header, ?_⟩
    · rintro ⟨records, rfl, -⟩
      rw [← length_encodeHeader, List.take_left, headerError_encodeHeader] at header
      cases header
    · rw [readBinaryEventLog, header]
      rfl
  | none =>
    have split : contents = encodeHeader ++ contents.drop binaryEventLogHeaderSize := by
      rw [← headerError_eq_none header, List.take_append_drop]
    obtain ⟨records, same⟩ : ∃ records : List Text,
        Blocks.blocks binaryEventRecordSize (contents.drop binaryEventLogHeaderSize) = records :=
      ⟨_, rfl⟩
    have whole : records.flatten = contents.drop binaryEventLogHeaderSize := by
      rw [← same, Blocks.flatten_blocks (by decide)]
    by_cases well : ∀ r ∈ records, WellFormedRecord r
    · obtain ⟨events, fits, encoded⟩ := encoded_of_wellFormed well
      have written : (writeBinaryEventLog events).1 = contents := by
        rw [split, ← whole, ← encoded]
        rfl
      refine Or.inl ⟨⟨records, by rw [whole, ← split], well⟩, events, ?_, written⟩
      rw [← written, read_write_binary path fits]
    · push Not at well
      obtain ⟨r, hr, malformed⟩ := well
      obtain ⟨error, some, failed⟩ := @read_malformed (.start .binary) records r hr malformed 0
      refine Or.inr ⟨?_, error, some, ?_⟩
      · rintro ⟨others, rfl, all⟩
        rw [← length_encodeHeader, List.drop_left, blocks all] at same
        subst same
        exact malformed (all r hr)
      · rw [readBinaryEventLog, header, same]
        exact failed

end Binary

def Dropped (result : EventLogReadResult) : Prop :=
  result.error ≠ [] → result.events = [] ∧ result.eventChecksum = fnvOffsetBasis

theorem readCsvEventLog_dropped (path contents : Text) :
    Dropped (readCsvEventLog path (some contents)) := by
  have on : ∀ result line, result.error = [] → (readCsvLine result line).2 = true →
      (readCsvLine result line).1.error = [] := by
    intro result line clean
    unfold readCsvLine
    dsimp only
    split
    · split
      · exact fun h => absurd h Bool.false_ne_true
      · exact fun _ => clean
    · split
      · exact fun h => absurd h Bool.false_ne_true
      · exact fun _ => clean
  have off : ∀ result line, result.error = [] → (readCsvLine result line).2 = false →
      Dropped (readCsvLine result line).1 := by
    intro result line _
    unfold readCsvLine
    dsimp only
    split
    · split
      · exact fun _ _ => ⟨rfl, rfl⟩
      · exact fun h => absurd h.symm Bool.false_ne_true
    · split
      · exact fun _ _ => ⟨rfl, rfl⟩
      · exact fun h => absurd h.symm Bool.false_ne_true
  have start : (EventLogReadResult.start .csv).error = [] := rfl
  have done := loop_rule on off start (csvLines contents)
  split at done
  · exact fun some => absurd done some
  · exact done

theorem readBinaryEventLog_dropped (path contents : Text) :
    Dropped (readBinaryEventLog path (some contents)) := by
  rcases readBinaryEventLog_cases path contents with ⟨-, events, back, -⟩ | ⟨-, error, -, back⟩
  · rw [back]
    exact fun some => absurd rfl some
  · rw [back]
    exact fun _ => ⟨rfl, rfl⟩

theorem detect_csv (path : Text) (events : List MarketDataEvent) :
    detectEventLogFormat path (some (writeCsvEventLog events).1) = (.csv, []) := by
  have front : (writeCsvEventLog events).1.take binaryEventLogMagic.length =
      marketDataCsvHeader.take binaryEventLogMagic.length := by
    rw [writeCsvEventLog, List.append_assoc, List.take_append_of_le_length (by decide)]
  rw [detectEventLogFormat, front, if_neg (by decide)]

theorem detect_binary (path : Text) (events : List MarketDataEvent) :
    detectEventLogFormat path (some (writeBinaryEventLog events).1) = (.binary, []) := by
  have front : (writeBinaryEventLog events).1.take binaryEventLogMagic.length =
      encodeHeader.take binaryEventLogMagic.length := by
    rw [writeBinaryEventLog, List.take_append_of_le_length (by decide)]
  rw [detectEventLogFormat, front, if_pos (by decide)]

/-- With a format given, or detected without an error, a log is read in that format. -/
theorem readEventLog_csv {path : Text} {file : Option Text} {format : EventLogFormat}
    (h : (if format = .auto then detectEventLogFormat path file else (format, [])) = (.csv, [])) :
    readEventLog path file format = readCsvEventLog path file := by
  rw [readEventLog, h]
  rfl

theorem readEventLog_binary {path : Text} {file : Option Text} {format : EventLogFormat}
    (h : (if format = .auto then detectEventLogFormat path file else (format, [])) =
      (.binary, [])) :
    readEventLog path file format = readBinaryEventLog path file := by
  rw [readEventLog, h]
  rfl

theorem chosen_format (path : Text) : chooseEventLogFormatForPath path = .binary ∨
    chooseEventLogFormatForPath path = .csv := by
  unfold chooseEventLogFormatForPath
  dsimp only
  split
  · exact Or.inl rfl
  · exact Or.inr rfl

theorem written_and_read (path : Text) (format : EventLogFormat) (events : List MarketDataEvent) :
    (writeEventLog path events format = writeCsvEventLog events ∧
      readEventLog path (some (writeCsvEventLog events).1) format =
        readCsvEventLog path (some (writeCsvEventLog events).1)) ∨
    (writeEventLog path events format = writeBinaryEventLog events ∧
      readEventLog path (some (writeBinaryEventLog events).1) format =
        readBinaryEventLog path (some (writeBinaryEventLog events).1)) := by
  cases format with
  | csv => exact Or.inl ⟨rfl, readEventLog_csv rfl⟩
  | binary => exact Or.inr ⟨rfl, readEventLog_binary rfl⟩
  | auto =>
    rcases chosen_format path with binary | csv
    · refine Or.inr ⟨?_, readEventLog_binary (detect_binary path events)⟩
      rw [writeEventLog, if_pos rfl, binary]
      rfl
    · refine Or.inl ⟨?_, readEventLog_csv (detect_csv path events)⟩
      rw [writeEventLog, if_pos rfl, csv]
      rfl

theorem readEventLog_dropped (path contents : Text) (format : EventLogFormat) :
    Dropped (readEventLog path (some contents) format) := by
  cases format with
  | csv =>
    rw [readEventLog_csv rfl]
    exact readCsvEventLog_dropped path contents
  | binary =>
    rw [readEventLog_binary rfl]
    exact readBinaryEventLog_dropped path contents
  | auto =>
    by_cases magic : contents.take binaryEventLogMagic.length = binaryEventLogMagic
    · rw [readEventLog_binary (if_pos magic)]
      exact readBinaryEventLog_dropped path contents
    · rw [readEventLog_csv (if_neg magic)]
      exact readCsvEventLog_dropped path contents

/-- Logs are read back as they were written, in either format and where it is chosen from the path
and detected from the contents; the binary reader accepts exactly the well-formed logs, and an
error leaves nothing of a log. -/
theorem event_log_codec :
    encodeHeader.length = 16 ∧
    (∀ (path : Text) (format : EventLogFormat) (events : List MarketDataEvent),
      (∀ event ∈ events, event.Fits) →
        let written := writeEventLog path events format
        let back := readEventLog path (some written.1) format
        written.2.error = [] ∧ back.events = events ∧ back.error = [] ∧
          back.eventChecksum = written.2.eventChecksum) ∧
    ∀ (path contents : Text),
      let back := readEventLog path (some contents) .binary
      (back.error = [] ↔ WellFormedLog contents) ∧
      (back.error = [] → (writeEventLog path back.events .binary).1 = contents) ∧
      ∀ format, Dropped (readEventLog path (some contents) format) := by
  refine ⟨length_encodeHeader, fun path format events fits => ?_, fun path contents => ?_⟩
  · rcases written_and_read path format events with ⟨written, back⟩ | ⟨written, back⟩
    · dsimp only
      rw [written, back, read_write_csv path fits]
      exact ⟨rfl, rfl, rfl, rfl⟩
    · dsimp only
      rw [written, back, read_write_binary path fits]
      exact ⟨rfl, rfl, rfl, rfl⟩
  · have binary : readEventLog path (some contents) .binary =
        readBinaryEventLog path (some contents) := readEventLog_binary rfl
    dsimp only
    rw [binary]
    rcases readBinaryEventLog_cases path contents with
      ⟨well, events, back, same⟩ | ⟨malformed, error, some, back⟩
    · rw [back]
      exact ⟨⟨fun _ => well, fun _ => rfl⟩, fun _ => same, readEventLog_dropped path contents⟩
    · rw [back]
      exact ⟨⟨fun none => absurd none some, fun well => absurd well malformed⟩,
        fun none => absurd none some, readEventLog_dropped path contents⟩

def extremeEvent : MarketDataEvent :=
  { timestampNs := -2 ^ 63, sequenceNumber := 2 ^ 64 - 1, symbolId := 2 ^ 32 - 1
    eventType := .add, side := .sell, priceTicks := 2 ^ 63 - 1, quantity := -1, flags := 2 ^ 32 - 1 }

theorem event_log_codec_extreme :
    let written := writeEventLog (text "a.log") [extremeEvent] .auto
    let back := readEventLog (text "a.log") (some written.1) .auto
    written.2.error = [] ∧ back.events = [extremeEvent] ∧ back.error = [] ∧
      back.eventChecksum = written.2.eventChecksum :=
  event_log_codec.2.1 (text "a.log") .auto [extremeEvent] (List.forall_mem_singleton.mpr
    ⟨by decide, by decide, by decide, by decide, by decide, by decide, by decide, by decide⟩)

end Asterion
