import Asterion.MarketData.EventLogCodec
import Asterion.MarketData.SyntheticScript

/-! The script and the library agree: what the script writes is read back event for event, and both
make the same adversarial lifecycle. -/
namespace Asterion
open Lib Lib.StoppingLoop SyntheticScript

def MarketDataEvent.row (event : MarketDataEvent) : Row :=
  { timestampNs := event.timestampNs
    sequenceNumber := event.sequenceNumber
    symbolId := event.symbolId
    eventType := event.eventType.toString
    side := event.side.toString
    priceTicks := event.priceTicks
    quantity := event.quantity
    orderId := event.orderId
    tradeId := event.tradeId
    flags := event.flags }

namespace SyntheticScript

/-- The names are known, and the integers are in the ranges of the schema. -/
structure Row.Valid (row : Row) : Prop where
  timestampNs : -2 ^ 63 ≤ row.timestampNs ∧ row.timestampNs < 2 ^ 63
  sequenceNumber : 0 ≤ row.sequenceNumber ∧ row.sequenceNumber < 2 ^ 64
  symbolId : 0 ≤ row.symbolId ∧ row.symbolId < 2 ^ 32
  eventType : row.eventType ∈ eventTypeIds.map Prod.fst
  side : row.side ∈ sideIds.map Prod.fst
  priceTicks : -2 ^ 63 ≤ row.priceTicks ∧ row.priceTicks < 2 ^ 63
  quantity : -2 ^ 63 ≤ row.quantity ∧ row.quantity < 2 ^ 63
  orderId : 0 ≤ row.orderId ∧ row.orderId < 2 ^ 64
  tradeId : 0 ≤ row.tradeId ∧ row.tradeId < 2 ^ 64
  flags : 0 ≤ row.flags ∧ row.flags < 2 ^ 32

section Names

/-- The script knows the names of the library, under the same numbers. -/
theorem eventTypeIds_toString (type : MarketEventType) :
    eventTypeIds.lookup type.toString = some (type.toByte : Int) := by
  cases type <;> decide

theorem sideIds_toString (side : Side) : sideIds.lookup side.toString = some (side.toByte : Int) := by
  cases side <;> decide

theorem exists_type {name : Text} (known : name ∈ eventTypeIds.map Prod.fst) :
    ∃ type : MarketEventType, type.toString = name := by
  simp only [eventTypeIds, List.map_cons, List.map_nil, List.mem_cons, List.not_mem_nil,
    or_false] at known
  rcases known with rfl | rfl | rfl | rfl | rfl | rfl | rfl
  · exact ⟨.add, rfl⟩
  · exact ⟨.cancel, rfl⟩
  · exact ⟨.replace, rfl⟩
  · exact ⟨.execute, rfl⟩
  · exact ⟨.trade, rfl⟩
  · exact ⟨.snapshot, rfl⟩
  · exact ⟨.heartbeat, rfl⟩

theorem exists_side {name : Text} (known : name ∈ sideIds.map Prod.fst) :
    ∃ side : Side, side.toString = name := by
  simp only [sideIds, List.map_cons, List.map_nil, List.mem_cons, List.not_mem_nil,
    or_false] at known
  rcases known with rfl | rfl | rfl
  · exact ⟨.none, rfl⟩
  · exact ⟨.buy, rfl⟩
  · exact ⟨.sell, rfl⟩

theorem Row.Valid.event {row : Row} (valid : row.Valid) :
    ∃ event : MarketDataEvent, event.Fits ∧ event.row = row := by
  obtain ⟨type, sameType⟩ := exists_type valid.eventType
  obtain ⟨side, sameSide⟩ := exists_side valid.side
  obtain ⟨sequence, hs⟩ := Int.eq_ofNat_of_zero_le valid.sequenceNumber.1
  obtain ⟨symbol, hy⟩ := Int.eq_ofNat_of_zero_le valid.symbolId.1
  obtain ⟨order, ho⟩ := Int.eq_ofNat_of_zero_le valid.orderId.1
  obtain ⟨trade, ht⟩ := Int.eq_ofNat_of_zero_le valid.tradeId.1
  obtain ⟨flags, hf⟩ := Int.eq_ofNat_of_zero_le valid.flags.1
  have sequenceBound := valid.sequenceNumber.2
  have symbolBound := valid.symbolId.2
  have orderBound := valid.orderId.2
  have tradeBound := valid.tradeId.2
  have flagsBound := valid.flags.2
  refine ⟨⟨row.timestampNs, sequence, symbol, type, side, row.priceTicks, row.quantity, order, trade,
    flags⟩, ?_, ?_⟩
  · constructor
    · exact valid.timestampNs
    · change sequence < 2 ^ 64
      omega
    · change symbol < 2 ^ 32
      omega
    · exact valid.priceTicks
    · exact valid.quantity
    · change order < 2 ^ 64
      omega
    · change trade < 2 ^ 64
      omega
    · change flags < 2 ^ 32
      omega
  · rw [MarketDataEvent.row, sameType, sameSide]
    dsimp only
    rw [← hs, ← hy, ← ho, ← ht, ← hf]

theorem exists_events {rows : List Row} (valid : ∀ row ∈ rows, row.Valid) :
    ∃ events : List MarketDataEvent, (∀ event ∈ events, event.Fits) ∧
      events.map MarketDataEvent.row = rows := by
  induction rows with
  | nil => exact ⟨[], fun _ h => absurd h List.not_mem_nil, rfl⟩
  | cons row rows ih =>
    obtain ⟨event, fits, same⟩ := (valid row List.mem_cons_self).event
    obtain ⟨events, all, rest⟩ := ih (fun r hr => valid r (List.mem_cons_of_mem _ hr))
    exact ⟨event :: events, List.forall_mem_cons.mpr ⟨fits, all⟩, by rw [List.map_cons, same, rest]⟩

end Names

section Csv

theorem quoted_eq {field : Text} (h : ∀ b ∈ field, b ∉ [comma, quote, carriageReturn, newline]) :
    quoted field = field := by
  rw [quoted, if_neg]
  intro special
  obtain ⟨b, hb, here⟩ := List.any_eq_true.mp special
  apply h b hb
  simp only [Bool.or_eq_true, beq_iff_eq] at here
  simp only [List.mem_cons, List.not_mem_nil, or_false]
  rcases here with ((same | same) | same) | same <;> simp [same]

theorem quoted_integer (x : Int) : quoted (Decimal.integer x) = Decimal.integer x := by
  apply quoted_eq
  intro b hb special
  have other : ∀ c ∈ [comma, quote, carriageReturn, newline],
      Decimal.isDigit c = false ∧ c ≠ Decimal.minus := by decide
  exact Decimal.not_mem_integer (other b special).1 (other b special).2 x hb

theorem quoted_decimal (n : Nat) : quoted (Decimal.decimal n) = Decimal.decimal n := by
  rw [← Decimal.integer_natCast]
  exact quoted_integer n

theorem quoted_type (type : MarketEventType) : quoted type.toString = type.toString := by
  cases type <;> decide

theorem quoted_side (side : Side) : quoted side.toString = side.toString := by
  cases side <;> decide

/-- The script writes the line of the event, with a carriage return. -/
theorem writeRow_row (event : MarketDataEvent) :
    writeRow event.row.spelled = marketDataEventToCsv event ++ [carriageReturn] ++ [newline] := by
  have fields : event.row.spelled.map quoted = event.csvFields := by
    simp only [Row.spelled, MarketDataEvent.row, MarketDataEvent.csvFields, List.map_cons,
      List.map_nil, quoted_integer, quoted_decimal, quoted_type, quoted_side,
      Decimal.integer_natCast]
  rw [writeRow, fields, List.append_assoc]
  rfl

/-- The library cuts the line into the fields as if the carriage return were not there. -/
theorem splitCsv_return (event : MarketDataEvent) :
    splitCsv (marketDataEventToCsv event ++ [13]) = event.csvFields := by
  let front : List Text := event.csvFields.dropLast
  let flags : Text := Decimal.decimal event.flags
  have fields : event.csvFields = front ++ [flags] := rfl
  have plain := plain_csvFields event
  rw [fields] at plain
  have joined : marketDataEventToCsv event ++ [13] =
      [commaSign].intercalate (front ++ [flags ++ [13]]) := by
    simp [marketDataEventToCsv, MarketDataEvent.csvFields, List.intercalate, front, flags]
  have apart : ∀ field ∈ front ++ [flags ++ [13]], commaSign ∉ field := by
    intro field hf
    rcases List.mem_append.mp hf with hf | hf
    · exact fun hc => plain field (List.mem_append_left _ hf) commaSign hc (by decide)
    · obtain rfl := List.mem_singleton.mp hf
      intro hc
      rcases List.mem_append.mp hc with hc | hc
      · exact plain flags List.mem_concat_self commaSign hc (by decide)
      · exact absurd hc (by decide)
  have trimmed : front.map trimCopy = front :=
    (List.map_congr_left (fun field hf =>
      trimCopy_field (plain field (List.mem_append_left _ hf)))).trans (List.map_id _)
  have last : trimCopy (flags ++ [13]) = flags :=
    trimCopy_return (fun b hb => not_blank (plain flags List.mem_concat_self b hb))
  rw [splitCsv, joined, List.splitOn_intercalate commaSign apart (by simp), List.map_append,
    trimmed, fields]
  simp only [List.map_cons, List.map_nil, last]

theorem readCsvLine_return {event : MarketDataEvent} (fits : event.Fits)
    (result : EventLogReadResult) (number : Nat) :
    readCsvLine result (marketDataEventToCsv event ++ [13], number) = (result.push event, true) := by
  have blank : ∀ b ∈ marketDataEventToCsv event, isBlank b = false := by
    intro b hb
    rcases mem_row hb with rfl | plain
    · decide
    · exact not_blank plain
  have kept : isIgnoredCsvLine (marketDataEventToCsv event ++ [13]) = (false, []) := by
    rw [← isIgnoredCsvLine_row event, isIgnoredCsvLine, isIgnoredCsvLine, trimCopy_return blank,
      trimCopy_plain blank]
  have parsed : parseMarketDataEventCsv (marketDataEventToCsv event ++ [13]) = .ok event := by
    rw [← parse_row fits, parseMarketDataEventCsv, parseMarketDataEventCsv, splitCsv_return,
      splitCsv_row]
  rw [readCsvLine, kept]
  dsimp only
  rw [if_neg Bool.false_ne_true, parsed]

theorem csvFile_lines (events : List MarketDataEvent) :
    csvFile (events.map MarketDataEvent.row) =
      ((marketDataCsvHeader ++ [13]) ::
        events.map (fun event => marketDataEventToCsv event ++ [13])).flatMap (· ++ [newline]) := by
  have header : writeRow csvHeader = marketDataCsvHeader ++ [13] ++ [newline] := by decide
  rw [csvFile, header, List.flatMap_cons, List.flatMap_map, List.flatMap_map]
  simp only [writeRow_row]
  rfl

theorem read_csvFile (path : Text) {events : List MarketDataEvent}
    (fits : ∀ event ∈ events, event.Fits) :
    readCsvEventLog path (some (csvFile (events.map MarketDataEvent.row))) =
      { events, detectedFormat := .csv, eventChecksum := checksumEvents events } := by
  have header : isIgnoredCsvLine (marketDataCsvHeader ++ [13]) = (true, []) := by decide
  have skipped := @readCsvLine_ignored (EventLogReadResult.start .csv) _ header 1
  have on : (readCsvLine (EventLogReadResult.start .csv) (marketDataCsvHeader ++ [13], 1)).2 =
      true := by
    rw [skipped]
  have apart : ∀ line ∈ (marketDataCsvHeader ++ [13]) ::
      events.map (fun event => marketDataEventToCsv event ++ [13]), newline ∉ line := by
    intro line hl
    rcases List.mem_cons.mp hl with rfl | hl
    · decide
    · obtain ⟨event, -, rfl⟩ := List.mem_map.mp hl
      intro hn
      rcases List.mem_append.mp hn with hn | hn
      · exact (mem_row hn).elim (by decide) (fun plain => plain (by decide))
      · exact absurd hn (by decide)
  rw [readCsvEventLog]
  rw [csvLines, csvFile_lines, Search.splitOn_blocks apart, List.cons_append, List.zipIdx_cons,
    loop_cons_on on, skipped,
    read_rows (fun event he result number => readCsvLine_return (fits event he) result number),
    pushed]
  rfl

theorem detect_csvFile (path : Text) (events : List MarketDataEvent) :
    detectEventLogFormat path (some (csvFile (events.map MarketDataEvent.row))) = (.csv, []) := by
  have front : (csvFile (events.map MarketDataEvent.row)).take binaryEventLogMagic.length =
      marketDataCsvHeader.take binaryEventLogMagic.length := by
    rw [csvFile_lines, List.flatMap_cons, List.append_assoc, List.append_assoc,
      List.take_append_of_le_length (by decide)]
  rw [detectEventLogFormat, front, if_neg (by decide)]

end Csv
section Binary

theorem packSigned_eq {value : Int} (h : -2 ^ 63 ≤ value ∧ value < 2 ^ 63) :
    packSigned 8 value = some (littleEndian 8 value) :=
  if_pos h

theorem packUnsigned_eq {size value : Nat} (h : value < 2 ^ (8 * size)) :
    packUnsigned size value = some (littleEndian size value) := by
  rw [packUnsigned, if_pos]
  exact ⟨Int.natCast_nonneg value, by exact_mod_cast h⟩

theorem packBinaryEvent_row {event : MarketDataEvent} (fits : event.Fits) :
    packBinaryEvent event.row = some (encodeRecord event) := by
  have type : packUnsigned 1 event.eventType.toByte = some (littleEndian 1 event.eventType.toByte) :=
    packUnsigned_eq (by cases event.eventType <;> decide)
  have side : packUnsigned 1 event.side.toByte = some (littleEndian 1 event.side.toByte) :=
    packUnsigned_eq (by cases event.side <;> decide)
  have wide : ∀ {n : Nat}, n < 2 ^ 64 → packUnsigned 8 n = some (littleEndian 8 n) :=
    fun h => packUnsigned_eq h
  have short : ∀ {n : Nat}, n < 2 ^ 32 → packUnsigned 4 n = some (littleEndian 4 n) :=
    fun h => packUnsigned_eq h
  simp only [packBinaryEvent, MarketDataEvent.row, packSigned_eq fits.timestampNs,
    wide fits.sequenceNumber, short fits.symbolId, eventTypeIds_toString, sideIds_toString, type,
    side, short fits.flags, packSigned_eq fits.priceTicks, packSigned_eq fits.quantity,
    wide fits.orderId, wide fits.tradeId, Option.bind_eq_bind, Option.bind_some, Option.pure_def]
  rfl

theorem binaryFile_rows {events : List MarketDataEvent} (fits : ∀ event ∈ events, event.Fits) :
    binaryFile (events.map MarketDataEvent.row) = some (writeBinaryEventLog events).1 := by
  have packed : (events.map MarketDataEvent.row).mapM packBinaryEvent =
      some (events.map encodeRecord) := by
    induction events with
    | nil => rfl
    | cons event events ih =>
      rw [List.map_cons, List.mapM_cons, packBinaryEvent_row (fits event List.mem_cons_self),
        ih (fun e he => fits e (List.mem_cons_of_mem _ he))]
      rfl
  rw [binaryFile, packed]
  rfl

end Binary

end SyntheticScript

section Lifecycle

def lifecycleEntries (midPriceTicks : Int) (cycle : Nat) : List LifecycleEntry :=
  let buyId := 2 * cycle + 1
  let sellId := 2 * cycle + 2
  let drift : Int := (cycle % 17 : Nat)
  let bid := max 1 (midPriceTicks - 5 - drift)
  let ask := midPriceTicks + 5 + drift
  [⟨.add, .buy, bid, 100, buyId, 0⟩,
    ⟨.cancel, .buy, bid, 0, buyId, 0⟩,
    ⟨.add, .buy, max 1 (bid - 1), 80, buyId, 0⟩,
    ⟨.replace, .buy, max 1 (bid - 1), 120, buyId, 0⟩,
    ⟨.replace, .buy, max 1 (bid - 1), 60, buyId, 0⟩,
    ⟨.replace, .buy, max 1 (bid - 2), 70, buyId, 0⟩,
    ⟨.cancel, .buy, max 1 (bid - 2), 0, buyId, 0⟩,
    ⟨.add, .sell, ask, 90, sellId, 0⟩,
    ⟨.execute, .sell, ask, 30, sellId, 3 * cycle + 1⟩,
    ⟨.replace, .sell, ask + 1, 50, sellId, 0⟩,
    ⟨.execute, .sell, ask + 1, 50, sellId, 3 * cycle + 2⟩,
    ⟨.add, .sell, ask, 40, sellId, 0⟩,
    ⟨.cancel, .sell, ask, 20, sellId, 0⟩,
    ⟨.cancel, .sell, ask, 0, sellId, 0⟩,
    ⟨.trade, .buy, bid, 1, invalidOrderId, 3 * cycle + 3⟩,
    ⟨.heartbeat, .none, 0, 0, invalidOrderId, 0⟩]

/-- No value of the lifecycle leaves the range of its type, in the cycles that are reached. -/
structure SyntheticGeneratorConfig.LifecycleFits (config : SyntheticGeneratorConfig) : Prop where
  eventCount : config.eventCount < 2 ^ 64
  timestamps : -2 ^ 63 ≤ config.firstTimestampNs ∧
    config.firstTimestampNs + config.eventCount ≤ 2 ^ 63
  sequence : config.firstSequenceNumber + config.eventCount ≤ 2 ^ 64
  prices : ∀ cycle : Nat, 16 * cycle < config.eventCount →
    -2 ^ 63 ≤ config.midPriceTicks - 5 - (cycle % 17 : Nat) ∧
      config.midPriceTicks + 5 + (cycle % 17 : Nat) + 1 < 2 ^ 63

def SyntheticGeneratorConfig.arguments (config : SyntheticGeneratorConfig) : Arguments :=
  { events := config.eventCount
    symbol := config.symbolId
    midPrice := config.midPriceTicks
    firstSequence := config.firstSequenceNumber
    firstTimestampNs := config.firstTimestampNs }

def LifecycleEntry.pushed (entry : LifecycleEntry) : Push :=
  { eventType := entry.eventType.toString
    side := entry.side.toString
    price := entry.priceTicks
    quantity := entry.quantity
    orderId := entry.orderId
    tradeId := entry.tradeId }

variable {config : SyntheticGeneratorConfig}

theorem lifecycleCycle_eq (count : config.eventCount < 2 ^ 64) {cycle : Nat}
    (reached : 16 * cycle < config.eventCount)
    (low : -2 ^ 63 ≤ config.midPriceTicks - 5 - (cycle % 17 : Nat))
    (high : config.midPriceTicks + 5 + (cycle % 17 : Nat) + 1 < 2 ^ 63) :
    lifecycleCycle config ⟨3 * cycle + 1, 2 * cycle + 1, cycle⟩ =
      (lifecycleEntries config.midPriceTicks cycle,
        ⟨3 * (cycle + 1) + 1, 2 * (cycle + 1) + 1, cycle + 1⟩) := by
  have drift : (0 : Int) ≤ (cycle % 17 : Nat) := Int.natCast_nonneg _
  unfold lifecycleCycle lifecycleEntries
  dsimp only
  generalize ((cycle % 17 : Nat) : Int) = d at *
  have bid : wrap64 (wrap64 (config.midPriceTicks - 5) - d) = config.midPriceTicks - 5 - d := by
    have inner : wrap64 (config.midPriceTicks - 5) = config.midPriceTicks - 5 :=
      wrap64_eq (by omega) (by omega)
    rw [inner]
    exact wrap64_eq low (by omega)
  have ask : wrap64 (wrap64 (config.midPriceTicks + 5) + d) = config.midPriceTicks + 5 + d := by
    have inner : wrap64 (config.midPriceTicks + 5) = config.midPriceTicks + 5 :=
      wrap64_eq (by omega) (by omega)
    rw [inner]
    exact wrap64_eq (by omega) (by omega)
  have above : wrap64 (config.midPriceTicks + 5 + d + 1) = config.midPriceTicks + 5 + d + 1 :=
    wrap64_eq (by omega) (by omega)
  have reuse : wrap64 (max 1 (config.midPriceTicks - 5 - d) - 1) =
      max 1 (config.midPriceTicks - 5 - d) - 1 := wrap64_eq (by omega) (by omega)
  have reprice : wrap64 (max 1 (config.midPriceTicks - 5 - d) - 2) =
      max 1 (config.midPriceTicks - 5 - d) - 2 := wrap64_eq (by omega) (by omega)
  have sell : (2 * cycle + 1 + 1) % 2 ^ 64 = 2 * cycle + 2 := by omega
  have buy : (2 * cycle + 2 + 1) % 2 ^ 64 = 2 * (cycle + 1) + 1 := by omega
  have second : (3 * cycle + 1 + 1) % 2 ^ 64 = 3 * cycle + 2 := by omega
  have third : (3 * cycle + 2 + 1) % 2 ^ 64 = 3 * cycle + 3 := by omega
  have fourth : (3 * cycle + 3 + 1) % 2 ^ 64 = 3 * (cycle + 1) + 1 := by omega
  have next : (cycle + 1) % 2 ^ 64 = cycle + 1 := by omega
  rw [bid, ask, above, reuse, reprice, sell, buy, second, third, fourth, next]

theorem cyclePushes_eq (args : Arguments) (cycle : Nat) :
    cyclePushes args ⟨2 * cycle + 1, 3 * cycle + 1, cycle⟩ =
      ((lifecycleEntries args.midPrice cycle).map LifecycleEntry.pushed,
        ⟨2 * (cycle + 1 : Nat) + 1, 3 * (cycle + 1 : Nat) + 1, cycle + 1⟩) := by
  have buy : (2 : Int) * cycle + 1 + 2 = 2 * (cycle + 1 : Nat) + 1 := by omega
  have trade : (3 : Int) * cycle + 1 + 3 = 3 * (cycle + 1 : Nat) + 1 := by omega
  have ids : ((2 * cycle + 1 : Nat) : Int) = 2 * cycle + 1 ∧
      ((2 * cycle + 2 : Nat) : Int) = 2 * cycle + 1 + 1 := by omega
  have trades : ((3 * cycle + 1 : Nat) : Int) = 3 * cycle + 1 ∧
      ((3 * cycle + 2 : Nat) : Int) = 3 * cycle + 1 + 1 ∧
      ((3 * cycle + 3 : Nat) : Int) = 3 * cycle + 1 + 2 := by omega
  simp only [cyclePushes, lifecycleEntries, List.map_cons, List.map_nil, LifecycleEntry.pushed, ids,
    trades, buy, trade]
  rfl

theorem length_lifecycleEntries (mid : Int) (cycle : Nat) :
    (lifecycleEntries mid cycle).length = 16 := rfl

/-- The events of the library: the entries of the cycles, each at its index. -/
theorem lifecycleEvents_eq (count : config.eventCount < 2 ^ 64)
    (prices : ∀ cycle : Nat, 16 * cycle < config.eventCount →
      -2 ^ 63 ≤ config.midPriceTicks - 5 - (cycle % 17 : Nat) ∧
        config.midPriceTicks + 5 + (cycle % 17 : Nat) + 1 < 2 ^ 63) :
    generateAdversarialLifecycleEvents config =
      Rounds.elements config.eventCount (lifecycleEvent config)
        (Rounds.entries (lifecycleEntries config.midPriceTicks) config.eventCount) := by
  let state (cycle : Nat) : LifecycleState := ⟨3 * cycle + 1, 2 * cycle + 1, cycle⟩
  have step : ∀ cycle, 16 * cycle < config.eventCount → lifecycleCycle config (state cycle) =
      (lifecycleEntries config.midPriceTicks cycle, state (cycle + 1)) :=
    fun cycle reached =>
      lifecycleCycle_eq count reached (prices cycle reached).1 (prices cycle reached).2
  have filled := Rounds.fill_eq config.eventCount (lifecycleEvent config)
    (length_lifecycleEntries config.midPriceTicks) (by decide) step
  exact filled

theorem lifecycleRows_eq (args : Arguments) :
    adversarialLifecycleRows args =
      Rounds.elements args.events.toNat (pushedRow args)
        ((Rounds.entries (lifecycleEntries args.midPrice) args.events.toNat).map
          LifecycleEntry.pushed) := by
  have sized : ∀ c, ((lifecycleEntries args.midPrice c).map LifecycleEntry.pushed).length = 16 :=
    fun _ => rfl
  let state (cycle : Nat) : Loop := ⟨2 * cycle + 1, 3 * cycle + 1, cycle⟩
  have step : ∀ cycle, 16 * cycle < args.events.toNat → cyclePushes args (state cycle) =
      ((lifecycleEntries args.midPrice cycle).map LifecycleEntry.pushed, state (cycle + 1)) :=
    fun cycle _ => cyclePushes_eq args cycle
  rw [← Rounds.entries_map]
  have filled := Rounds.fill_eq args.events.toNat (pushedRow args) sized (by decide) step
  exact filled

theorem pushedRow_entry (fits : config.LifecycleFits) {index : Nat} (inside : index < config.eventCount)
    (entry : LifecycleEntry) :
    pushedRow config.arguments index entry.pushed = (lifecycleEvent config index entry).row := by
  have timestamp : wrap64 (config.firstTimestampNs + wrap64 index) =
      config.firstTimestampNs + index := by
    obtain ⟨low, high⟩ := fits.timestamps
    rw [Int.add_comm, wrap64_wraps, Int.add_comm]
    exact wrap64_eq (by omega) (by omega)
  have sequence : (config.firstSequenceNumber + index) % 2 ^ 64 =
      config.firstSequenceNumber + index := by
    have room := fits.sequence
    omega
  simp only [pushedRow, LifecycleEntry.pushed, MarketDataEvent.row, lifecycleEvent,
    SyntheticGeneratorConfig.sequenceForIndex, SyntheticGeneratorConfig.arguments, timestamp,
    sequence]
  rfl

theorem adversarialLifecycleRows_eq (fits : config.LifecycleFits) :
    adversarialLifecycleRows config.arguments =
      (generateAdversarialLifecycleEvents config).map MarketDataEvent.row := by
  have count : config.arguments.events.toNat = config.eventCount := Int.toNat_natCast _
  rw [lifecycleRows_eq, lifecycleEvents_eq fits.eventCount fits.prices,
    Rounds.map_elements, Rounds.elements_map, count]
  exact Rounds.elements_congr _ _ (fun index inside entry => pushedRow_entry fits inside entry) _

end Lifecycle

/-- The script and the library agree. A file of valid rows, in either format, is read as the events
that the rows describe; and the adversarial lifecycle of the script is the library's, event for
event, for every config whose values stay in range. -/
theorem script_agrees :
    (∀ (path : Text) (rows : List Row), (∀ row ∈ rows, row.Valid) →
      ∃ events : List MarketDataEvent, events.map MarketDataEvent.row = rows ∧
        (∀ format, format = .csv ∨ format = .auto →
          readEventLog path (some (csvFile rows)) format =
            { events, detectedFormat := .csv, eventChecksum := checksumEvents events }) ∧
        ∃ contents, binaryFile rows = some contents ∧
          ∀ format, format = .binary ∨ format = .auto →
            readEventLog path (some contents) format =
              { events, detectedFormat := .binary, eventChecksum := checksumEvents events }) ∧
    ∀ {Rng : Type} (engine : RandomEngine Rng) (config : SyntheticGeneratorConfig),
      config.mode = .adversarialLifecycle → config.LifecycleFits →
        adversarialLifecycleRows config.arguments =
          (generateSyntheticEvents engine config).map MarketDataEvent.row := by
  refine ⟨fun path rows valid => ?_, fun engine config mode fits => ?_⟩
  · obtain ⟨events, fits, rfl⟩ := exists_events valid
    refine ⟨events, rfl, fun format csv => ?_, _, binaryFile_rows fits, fun format binary => ?_⟩
    · rw [← read_csvFile path fits]
      rcases csv with rfl | rfl
      · exact readEventLog_csv rfl
      · exact readEventLog_csv (detect_csvFile path events)
    · rw [← read_write_binary path fits]
      rcases binary with rfl | rfl
      · exact readEventLog_binary rfl
      · exact readEventLog_binary (detect_binary path events)
  · rw [generateSyntheticEvents, if_pos mode]
    exact adversarialLifecycleRows_eq fits

/-- Prices clamped at one, cut in the middle of the second cycle. -/
def shallowLifecycle : SyntheticGeneratorConfig :=
  { eventCount := 21, firstSequenceNumber := 0, firstTimestampNs := -1, midPriceTicks := 1
    mode := .adversarialLifecycle }

theorem script_agrees_shallow :
    (readEventLog (text "a.csv") (some (csvFile [extremeEvent.row])) .auto).events.map
        MarketDataEvent.row = [extremeEvent.row] ∧
      adversarialLifecycleRows shallowLifecycle.arguments =
        (generateSyntheticEvents ⟨fun _ => (), fun low _ _ => (low, ()),
          fun _ _ _ le => ⟨le_refl _, le⟩⟩ shallowLifecycle).map MarketDataEvent.row := by
  constructor
  · have valid : extremeEvent.row.Valid := by
      constructor <;> decide
    obtain ⟨events, same, csv, -⟩ :=
      script_agrees.1 (text "a.csv") [extremeEvent.row] (List.forall_mem_singleton.mpr valid)
    rw [csv .auto (Or.inr rfl)]
    exact same
  · apply script_agrees.2
    · rfl
    · constructor
      · decide
      · decide
      · decide
      · intro cycle reached
        have few : 16 * cycle < 21 := reached
        have low : -2 ^ 63 ≤ (1 : Int) - 5 - (cycle % 17 : Nat) := by omega
        have high : (1 : Int) + 5 + (cycle % 17 : Nat) + 1 < 2 ^ 63 := by omega
        exact ⟨low, high⟩

end Asterion
