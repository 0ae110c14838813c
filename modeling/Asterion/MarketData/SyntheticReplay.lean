import Asterion.MarketData.OrderTable
import Asterion.MarketData.SyntheticAgreement

/-! The streams of the generator are replayed without a diagnostic: the orders that it keeps are the
orders of the replayed books, whatever is drawn. -/
namespace Asterion
open Lib OrderTable

namespace SyntheticGeneratorConfig

def timestampOffset (config : SyntheticGeneratorConfig) (index : Nat) : Nat :=
  if config.mode ≠ .burstyFlow then index else index / max 1 config.burstSize

/-- Symbol ids are not zero and do not wrap, the middle is a price, and the values of the events stay
in the ranges of their types. -/
structure Valid (config : SyntheticGeneratorConfig) : Prop where
  eventCount : config.eventCount < 2 ^ 64
  symbolId : config.symbolId ≠ invalidSymbolId ∧ config.symbolId < 2 ^ 32
  symbols : config.mode = .multiSymbol → ∀ index < config.eventCount,
    config.symbolId + index % max 1 config.symbolCount < 2 ^ 32
  middle : 1 ≤ config.midPriceTicks
  prices : config.mode ≠ .adversarialLifecycle →
    config.midPriceTicks + config.priceRangeForMode < 2 ^ 63
  lifecyclePrices : config.mode = .adversarialLifecycle → ∀ cycle : Nat,
    16 * cycle < config.eventCount → config.midPriceTicks + 5 + (cycle % 17 : Nat) + 1 < 2 ^ 63
  timestamps : -2 ^ 63 ≤ config.firstTimestampNs ∧ ∀ index < config.eventCount,
    config.firstTimestampNs + config.timestampOffset index < 2 ^ 63

variable {config : SyntheticGeneratorConfig}

theorem Valid.timestamp (valid : config.Valid) {index : Nat} (inside : index < config.eventCount) :
    config.timestampForIndex index = config.firstTimestampNs + config.timestampOffset index := by
  obtain ⟨low, high⟩ := valid.timestamps
  have sum : ∀ offset : Nat, config.firstTimestampNs + offset < 2 ^ 63 →
      wrap64 (config.firstTimestampNs + wrap64 offset) = config.firstTimestampNs + offset := by
    intro offset bound
    rw [Int.add_comm, wrap64_wraps, Int.add_comm]
    exact wrap64_eq (by omega) bound
  have bound := high index inside
  unfold timestampForIndex
  unfold timestampOffset at bound ⊢
  split
  · rename_i other
    rw [if_pos other] at bound
    exact sum index bound
  · rename_i bursty
    rw [if_neg bursty] at bound
    exact sum (index / max 1 config.burstSize) bound

theorem timestampOffset_mono {i j : Nat} (le : i ≤ j) :
    config.timestampOffset i ≤ config.timestampOffset j := by
  unfold timestampOffset
  split
  · exact le
  · exact Nat.div_le_div_right le

def Carries (config : SyntheticGeneratorConfig) (symbolId : Nat) : Prop :=
  symbolId ≠ invalidSymbolId ∧ (config.mode ≠ .multiSymbol → symbolId = config.symbolId)

theorem Valid.carries (valid : config.Valid) {index : Nat} (inside : index < config.eventCount) :
    config.Carries (config.symbolForIndex index) := by
  obtain ⟨positive, small⟩ := valid.symbolId
  unfold symbolForIndex
  by_cases multi : config.mode = .multiSymbol
  · have bound := valid.symbols multi index inside
    simp only [if_pos multi, Nat.mod_eq_of_lt bound]
    refine ⟨?_, fun single => absurd multi single⟩
    unfold invalidSymbolId at *
    omega
  · simp only [if_neg multi, Nat.mod_one, Nat.add_zero, Nat.mod_eq_of_lt small]
    exact ⟨positive, fun _ => rfl⟩

end SyntheticGeneratorConfig

section Stamps
variable {config : SyntheticGeneratorConfig} {events : List MarketDataEvent}

/-- Every event has the timestamp and the sequence number of its index. -/
def Stamped (config : SyntheticGeneratorConfig) (events : List MarketDataEvent) : Prop :=
  ∀ (index : Nat) (inside : index < events.length),
    events[index].timestampNs = config.timestampForIndex index ∧
      events[index].sequenceNumber = config.sequenceForIndex index

theorem stamped_nil : Stamped config [] := by
  intro index inside
  cases inside

theorem Stamped.concat (stamped : Stamped config events) {event : MarketDataEvent}
    (timestamp : event.timestampNs = config.timestampForIndex events.length)
    (sequence : event.sequenceNumber = config.sequenceForIndex events.length) :
    Stamped config (events ++ [event]) := by
  intro index inside
  rw [List.length_append, List.length_singleton] at inside
  by_cases last : index < events.length
  · rw [List.getElem_append_left last]
    exact stamped index last
  · obtain rfl : index = events.length := by omega
    rw [List.getElem_concat_length rfl]
    exact ⟨timestamp, sequence⟩

theorem Stamped.ordered (stamped : Stamped config events) (valid : config.Valid)
    (count : events.length = config.eventCount) :
    events.Pairwise (fun a b => a.timestampNs ≤ b.timestampNs) := by
  apply List.pairwise_iff_getElem.mpr
  intro i j hi hj less
  rw [(stamped i hi).1, (stamped j hj).1, valid.timestamp (count ▸ hi), valid.timestamp (count ▸ hj)]
  have mono := @SyntheticGeneratorConfig.timestampOffset_mono config _ _ less.le
  omega

theorem nextSequence_index (index : Nat) :
    config.sequenceForIndex (index + 1) = nextSequence (config.sequenceForIndex index) := by
  unfold SyntheticGeneratorConfig.sequenceForIndex nextSequence
  omega

/-- The events of each symbol are in sequence; sequence numbers are only looked at where there is one
symbol. -/
theorem Stamped.chain (stamped : Stamped config events) (valid : config.Valid)
    (count : events.length = config.eventCount) (carries : ∀ event ∈ events, config.Carries event.symbolId)
    {replay : ReplayConfig}
    (unchecked : config.mode = .multiSymbol → replay.validateSequenceNumbers = false) (symbolId : Nat) :
    (events.filter (fun event => event.symbolId = symbolId)).IsChain (InSequence replay) := by
  have ordered := stamped.ordered valid count
  by_cases multi : config.mode = .multiSymbol
  · have off := unchecked multi
    apply List.Pairwise.isChain
    refine (ordered.filter _).imp ?_
    intro a b le
    refine ⟨le, fun on => ?_⟩
    rw [off] at on
    cases on
  · have whole : events.IsChain (InSequence replay) := by
      apply List.isChain_iff_getElem.mpr
      intro i inside
      have here : i < events.length := by omega
      refine ⟨List.pairwise_iff_getElem.mp ordered i (i + 1) here inside (by omega), fun _ => ?_⟩
      rw [(stamped (i + 1) inside).2, (stamped i here).2, nextSequence_index]
    by_cases own : symbolId = config.symbolId
    · have all : events.filter (fun event => event.symbolId = symbolId) = events := by
        apply List.filter_eq_self.mpr
        intro event he
        rw [own]
        exact decide_eq_true ((carries event he).2 multi)
      rw [all]
      exact whole
    · have none : events.filter (fun event => event.symbolId = symbolId) = [] := by
        apply List.filter_eq_nil_iff.mpr
        intro event he same
        have single := (carries event he).2 multi
        exact own ((of_decide_eq_true same).symm.trans single)
      rw [none]
      exact .nil

end Stamps

section Table
variable {front back : List ActiveOrder} {active : ActiveOrder}

def ActiveOrder.quote (active : ActiveOrder) : Quote :=
  ⟨active.side, active.priceTicks, active.quantity⟩

def tableOf (symbolId : Nat) (orders : List ActiveOrder) : OrderTable := fun id =>
  (orders.find? (fun order => order.orderId = id ∧ order.symbolId = symbolId)).map ActiveOrder.quote

theorem tableOf_other {symbolId : Nat} (other : active.symbolId ≠ symbolId) :
    tableOf symbolId (front ++ active :: back) = tableOf symbolId (front ++ back) := by
  funext id
  unfold tableOf
  rw [List.find?_append, List.find?_append, List.find?_cons_of_neg (by simp [other])]

section Distinct
variable (distinct : ∀ order ∈ front ++ back, order.orderId ≠ active.orderId)
include distinct

theorem tableOf_absent : tableOf active.symbolId (front ++ back) active.orderId = none := by
  unfold tableOf
  rw [Option.map_eq_none_iff, List.find?_eq_none]
  intro order ho
  simp [distinct order ho]

theorem tableOf_insert : tableOf active.symbolId (front ++ active :: back) =
    Function.update (tableOf active.symbolId (front ++ back)) active.orderId (some active.quote) := by
  funext id
  by_cases here : id = active.orderId
  · subst here
    have before : front.find? (fun order =>
        order.orderId = active.orderId ∧ order.symbolId = active.symbolId) = none := by
      rw [List.find?_eq_none]
      intro order ho
      simp [distinct order (List.mem_append_left _ ho)]
    rw [Function.update_self, tableOf, List.find?_append, before,
      List.find?_cons_of_pos (by simp)]
    rfl
  · rw [Function.update_of_ne here, tableOf, tableOf, List.find?_append, List.find?_append,
      List.find?_cons_of_neg (by simp [Ne.symm here])]

theorem tableOf_known : tableOf active.symbolId (front ++ active :: back) active.orderId =
    some active.quote := by
  rw [tableOf_insert distinct, Function.update_self]

theorem tableOf_erase : tableOf active.symbolId (front ++ back) =
    Function.update (tableOf active.symbolId (front ++ active :: back)) active.orderId none := by
  rw [tableOf_insert distinct, Function.update_idem, ← tableOf_absent distinct,
    Function.update_eq_self]

theorem tableOf_set {changed : ActiveOrder} (id : changed.orderId = active.orderId)
    (symbol : changed.symbolId = active.symbolId) :
    tableOf active.symbolId (front ++ changed :: back) =
      Function.update (tableOf active.symbolId (front ++ active :: back)) active.orderId
        (some changed.quote) := by
  have apart : ∀ order ∈ front ++ back, order.orderId ≠ changed.orderId := by
    rw [id]
    exact distinct
  have inserted := tableOf_insert apart
  rw [id, symbol] at inserted
  rw [inserted, tableOf_insert distinct, Function.update_idem]

end Distinct

/-- The order at a place, and the list without it or with another one. -/
theorem exists_split {orders : List ActiveOrder} {place : Nat} (inside : place < orders.length) :
    ∃ front active back, orders = front ++ active :: back ∧ orders.getD place {} = active ∧
      orders.eraseIdx place = front ++ back ∧
      ∀ changed, orders.set place changed = front ++ changed :: back := by
  refine ⟨orders.take place, orders[place], orders.drop (place + 1), ?_, ?_, ?_, ?_⟩
  · rw [List.getElem_cons_drop, List.take_append_drop]
  · exact List.getD_eq_getElem orders {} inside
  · exact List.eraseIdx_eq_take_drop_succ orders place
  · intro changed
    exact List.set_eq_take_append_cons_drop.trans (if_pos inside)

end Table

section Random
variable {Rng : Type} {engine : RandomEngine Rng} {config : SyntheticGeneratorConfig}

theorem one_le_priceRange : 1 ≤ config.priceRangeForMode := by
  unfold SyntheticGeneratorConfig.priceRangeForMode
  split
  · omega
  · split <;> omega

theorem randomPrice_own (valid : config.Valid) (random : config.mode ≠ .adversarialLifecycle) {side : Side}
    (order : isValidSide side = true) (rng : Rng) :
    OwnSide config.midPriceTicks side (randomPrice engine config side rng).1 := by
  have middle := valid.middle
  have high := valid.prices random
  obtain ⟨least, most⟩ := engine.within 1 config.priceRangeForMode rng one_le_priceRange
  unfold randomPrice
  generalize engine.uniform 1 config.priceRangeForMode rng = draw at *
  dsimp only
  cases side with
  | none => cases order
  | buy =>
    have drawn : wrap64 (config.midPriceTicks - draw.1) = config.midPriceTicks - draw.1 :=
      wrap64_eq (by omega) (by omega)
    rw [if_pos rfl, drawn]
    exact ⟨by omega, Or.inl ⟨rfl, by omega⟩⟩
  | sell =>
    have drawn : wrap64 (config.midPriceTicks + draw.1) = config.midPriceTicks + draw.1 :=
      wrap64_eq (by omega) (by omega)
    rw [if_neg (by decide), drawn]
    exact ⟨by omega, Or.inr ⟨rfl, by omega⟩⟩

theorem randomSide_valid (rng : Rng) : isValidSide (randomSide engine rng).1 = true := by
  unfold randomSide
  dsimp only
  split
  · rfl
  · rfl

/-- An order that the generator may keep. -/
structure ActiveOrder.Live (config : SyntheticGeneratorConfig) (nextOrderId : Nat)
    (order : ActiveOrder) : Prop where
  id : order.orderId ≠ invalidOrderId ∧ order.orderId < nextOrderId
  symbol : config.Carries order.symbolId
  price : OwnSide config.midPriceTicks order.side order.priceTicks
  quantity : 0 < order.quantity

/-- After some events: the orders that are kept are those that a replay of the events has. The next
id is given without the wrap, which only the last event of all can reach. -/
structure Generated (config : SyntheticGeneratorConfig) (index next : Nat) (s : GeneratorState Rng) :
    Prop where
  count : s.events.length = index
  nextOrderId : s.nextOrderId = next % 2 ^ 64
  bound : 1 ≤ next ∧ next ≤ index + 1
  live : ∀ order ∈ s.activeOrders, order.Live config next
  distinct : (s.activeOrders.map ActiveOrder.orderId).Nodup
  stamped : Stamped config s.events
  carries : ∀ event ∈ s.events, config.Carries event.symbolId
  runs : ∀ symbolId, Runs config.midPriceTicks .empty
    ((s.events.filter (fun event => event.symbolId = symbolId)).map MarketDataEvent.entry)
    (tableOf symbolId s.activeOrders)

theorem generated_start (rng : Rng) : Generated config 0 1 { rng } where
  count := rfl
  nextOrderId := rfl
  bound := ⟨le_refl 1, le_refl 1⟩
  live := fun _ h => absurd h List.not_mem_nil
  distinct := .nil
  stamped := stamped_nil
  carries := fun _ h => absurd h List.not_mem_nil
  runs := fun _ => .nil _

variable {index next : Nat} {s t : GeneratorState Rng}

theorem Generated.draw (g : Generated config index next s) (rng : Rng) :
    Generated config index next { s with rng } :=
  ⟨g.count, g.nextOrderId, g.bound, g.live, g.distinct, g.stamped, g.carries, g.runs⟩

/-- One more event about an order, allowed on the table of its symbol. -/
theorem Generated.push (g : Generated config index next s) {type : MarketEventType} {active : ActiveOrder}
    {quantity : Int} {tradeId : Nat}
    (events : t.events = s.events ++ [activeEvent config index type active quantity tradeId])
    (symbol : config.Carries active.symbolId)
    (allowed : Allowed config.midPriceTicks (tableOf active.symbolId s.activeOrders)
      (activeEvent config index type active quantity tradeId).entry
      (tableOf active.symbolId t.activeOrders))
    (others : ∀ symbolId, active.symbolId ≠ symbolId →
      tableOf symbolId t.activeOrders = tableOf symbolId s.activeOrders)
    {later : Nat} (nextOrderId : t.nextOrderId = later % 2 ^ 64)
    (bound : next ≤ later ∧ later ≤ next + 1)
    (live : ∀ order ∈ t.activeOrders, order.Live config later)
    (distinct : (t.activeOrders.map ActiveOrder.orderId).Nodup) :
    Generated config (index + 1) later t where
  count := by
    rw [events, List.length_append, g.count]
    rfl
  nextOrderId := nextOrderId
  bound := by
    have before := g.bound
    omega
  live := live
  distinct := distinct
  stamped := by
    rw [events]
    apply g.stamped.concat
    · rw [g.count]
      rfl
    · rw [g.count]
      rfl
  carries := by
    rw [events]
    intro event he
    rcases List.mem_append.mp he with he | he
    · exact g.carries event he
    · obtain rfl := List.mem_singleton.mp he
      exact symbol
  runs := by
    intro symbolId
    rw [events, List.filter_append, List.map_append]
    by_cases own : active.symbolId = symbolId
    · subst own
      apply (g.runs active.symbolId).append
      rw [List.filter_cons_of_pos (by simp [activeEvent])]
      exact .cons allowed (.nil _)
    · rw [others symbolId own, List.filter_cons_of_neg (by simp [activeEvent, own])]
      exact (g.runs symbolId).append (.nil _)

theorem Generated.member (g : Generated config index next s) {front back : List ActiveOrder}
    {active : ActiveOrder} (split : s.activeOrders = front ++ active :: back) :
    active.Live config next ∧ (∀ order ∈ front ++ back, order.Live config next) ∧
      (∀ order ∈ front ++ back, order.orderId ≠ active.orderId) ∧
      ((front ++ back).map ActiveOrder.orderId).Nodup := by
  have perm : (front ++ active :: back).Perm (active :: (front ++ back)) := List.perm_middle
  have live := g.live
  have distinct := g.distinct
  rw [split] at live distinct
  have apart := (perm.map ActiveOrder.orderId).nodup_iff.mp distinct
  rw [List.map_cons, List.nodup_cons] at apart
  refine ⟨live active (perm.mem_iff.mpr List.mem_cons_self), ?_, ?_, apart.2⟩
  · exact fun order ho => live order (perm.mem_iff.mpr (List.mem_cons_of_mem _ ho))
  · exact fun order ho same => apart.1 (List.mem_map.mpr ⟨order, ho, same⟩)

/-- The order is changed in its place, and keeps its id and its symbol. -/
theorem Generated.change (g : Generated config index next s) {front back : List ActiveOrder}
    {active changed : ActiveOrder} {type : MarketEventType} {quantity : Int} {tradeId : Nat}
    (split : s.activeOrders = front ++ active :: back) (id : changed.orderId = active.orderId)
    (symbol : changed.symbolId = active.symbolId) (live : changed.Live config next)
    {about : ActiveOrder} (same : about.symbolId = active.symbolId)
    (events : t.events = s.events ++ [activeEvent config index type about quantity tradeId])
    (orders : t.activeOrders = front ++ changed :: back) (ids : t.nextOrderId = s.nextOrderId)
    (allowed : Allowed config.midPriceTicks (tableOf active.symbolId s.activeOrders)
      (activeEvent config index type about quantity tradeId).entry
      (Function.update (tableOf active.symbolId s.activeOrders) active.orderId (some changed.quote))) :
    Generated config (index + 1) next t := by
  obtain ⟨here, others, distinct, nodup⟩ := g.member split
  have table : tableOf active.symbolId t.activeOrders = Function.update
      (tableOf active.symbolId s.activeOrders) active.orderId (some changed.quote) := by
    rw [orders, split, tableOf_set distinct id symbol]
  apply g.push events
  · rw [same]
    exact here.symbol
  · rw [same, table]
    exact allowed
  · intro symbolId other
    rw [same] at other
    have other' : changed.symbolId ≠ symbolId := by
      rw [symbol]
      exact other
    rw [orders, split, tableOf_other other, tableOf_other other']
  · exact ids.trans g.nextOrderId
  · exact ⟨le_refl next, Nat.le_succ next⟩
  · rw [orders]
    intro order ho
    rcases List.mem_cons.mp (List.perm_middle.mem_iff.mp ho) with rfl | ho
    · exact live
    · exact others order ho
  · rw [orders, (List.perm_middle.map ActiveOrder.orderId).nodup_iff, List.map_cons, List.nodup_cons, id]
    refine ⟨?_, nodup⟩
    intro hm
    obtain ⟨order, ho, same⟩ := List.mem_map.mp hm
    exact distinct order ho same

theorem Generated.leave (g : Generated config index next s) {front back : List ActiveOrder}
    {active : ActiveOrder} {type : MarketEventType} {quantity : Int} {tradeId : Nat}
    (split : s.activeOrders = front ++ active :: back)
    (events : t.events = s.events ++ [activeEvent config index type active quantity tradeId])
    (orders : t.activeOrders = front ++ back) (ids : t.nextOrderId = s.nextOrderId)
    (allowed : Allowed config.midPriceTicks (tableOf active.symbolId s.activeOrders)
      (activeEvent config index type active quantity tradeId).entry
      (Function.update (tableOf active.symbolId s.activeOrders) active.orderId none)) :
    Generated config (index + 1) next t := by
  obtain ⟨here, others, distinct, nodup⟩ := g.member split
  have table : tableOf active.symbolId t.activeOrders = Function.update
      (tableOf active.symbolId s.activeOrders) active.orderId none := by
    rw [orders, split, tableOf_erase distinct]
  apply g.push events here.symbol
  · rw [table]
    exact allowed
  · intro symbolId other
    rw [orders, split, tableOf_other other]
  · exact ids.trans g.nextOrderId
  · exact ⟨le_refl next, Nat.le_succ next⟩
  · rw [orders]
    exact others
  · rw [orders]
    exact nodup

theorem ActiveOrder.Live.mono {order : ActiveOrder} (live : order.Live config next) {later : Nat}
    (le : next ≤ later) : order.Live config later :=
  ⟨⟨live.id.1, live.id.2.trans_le le⟩, live.symbol, live.price, live.quantity⟩

section Steps
variable (valid : config.Valid) (random : config.mode ≠ .adversarialLifecycle)
  (inside : index < config.eventCount) (g : Generated config index next s)
include valid random g

include inside in
theorem Generated.add : Generated config (index + 1) (next + 1) (generateAdd engine config index s) := by
  have small : s.nextOrderId = next := by
    rw [g.nextOrderId]
    have bound := g.bound
    have count := valid.eventCount
    omega
  let side := randomSide engine s.rng
  let price := randomPrice engine config side.1 side.2
  let quantity := engine.uniform 1 250 price.2
  let active : ActiveOrder :=
    { orderId := s.nextOrderId, symbolId := config.symbolForIndex index, side := side.1
      priceTicks := price.1, quantity := quantity.1 }
  have side_valid : isValidSide side.1 = true := randomSide_valid s.rng
  have own : OwnSide config.midPriceTicks side.1 price.1 := randomPrice_own valid random side_valid side.2
  have positive : 0 < quantity.1 := by
    have drawn := engine.within 1 250 price.2 (by decide)
    exact drawn.1
  have here : active.Live config (next + 1) := by
    refine ⟨⟨?_, ?_⟩, valid.carries inside, own, positive⟩
    · change s.nextOrderId ≠ 0
      have bound := g.bound
      omega
    · change s.nextOrderId < next + 1
      omega
  have fresh : ∀ order ∈ s.activeOrders ++ [], order.orderId ≠ active.orderId := by
    intro order ho same
    rw [List.append_nil] at ho
    have less := (g.live order ho).id.2
    change order.orderId = s.nextOrderId at same
    omega
  have orders : (generateAdd engine config index s).activeOrders = s.activeOrders ++ active :: [] := rfl
  have table : tableOf active.symbolId (generateAdd engine config index s).activeOrders =
      Function.update (tableOf active.symbolId s.activeOrders) active.orderId (some active.quote) := by
    rw [orders, tableOf_insert fresh, List.append_nil]
  have absent : tableOf active.symbolId s.activeOrders active.orderId = none := by
    have none := tableOf_absent fresh
    rwa [List.append_nil] at none
  have events : (generateAdd engine config index s).events =
      s.events ++ [activeEvent config index .add active quantity.1 0] := rfl
  apply g.push events here.symbol
  · rw [table]
    exact Allowed.add rfl here.id.1 absent own positive
  · intro symbolId other
    rw [orders, tableOf_other other, List.append_nil]
  · change (s.nextOrderId + 1) % 2 ^ 64 = (next + 1) % 2 ^ 64
    rw [small]
  · omega
  · rw [orders]
    intro order ho
    rcases List.mem_append.mp ho with ho | ho
    · exact (g.live order ho).mono (Nat.le_succ next)
    · obtain rfl := List.mem_singleton.mp ho
      exact here
  · rw [orders, List.map_append]
    refine g.distinct.append (List.nodup_singleton _) ?_
    intro id old new
    obtain ⟨order, ho, rfl⟩ := List.mem_map.mp old
    exact fresh order (List.mem_append_left _ ho) (List.mem_singleton.mp new)

variable {place : Nat} (there : place < s.activeOrders.length)
include there

omit valid random in
theorem Generated.cancel : Generated config (index + 1) next
    (generateCancel config index place (s.activeOrders.getD place {}) s) := by
  obtain ⟨front, active, back, split, here, erased, -⟩ := exists_split there
  obtain ⟨live, -, distinct, -⟩ := g.member split
  rw [here]
  have known := tableOf_known distinct
  rw [← split] at known
  have events : (generateCancel config index place active s).events =
      s.events ++ [activeEvent config index .cancel active 0 0] := rfl
  apply g.leave split events erased rfl
  exact Allowed.cancel rfl live.id.1 known live.price.1.le rfl

theorem Generated.replace : Generated config (index + 1) next
    (generateReplace engine config index place (s.activeOrders.getD place {}) s) := by
  obtain ⟨front, active, back, split, here, -, written⟩ := exists_split there
  obtain ⟨live, -, distinct, -⟩ := g.member split
  rw [here]
  have known := tableOf_known distinct
  rw [← split] at known
  have side := live.price.valid
  let price := randomPrice engine config active.side s.rng
  let quantity := engine.uniform 1 250 price.2
  let changed : ActiveOrder := { active with priceTicks := price.1, quantity := quantity.1 }
  have own : OwnSide config.midPriceTicks active.side price.1 := randomPrice_own valid random side s.rng
  have positive : 0 < quantity.1 := by
    have drawn := engine.within 1 250 price.2 (by decide)
    exact drawn.1
  have events : (generateReplace engine config index place active s).events =
      s.events ++ [activeEvent config index .replace changed quantity.1 0] := rfl
  have orders : (generateReplace engine config index place active s).activeOrders =
      front ++ changed :: back := written changed
  have kept : changed.Live config next := ⟨live.id, live.symbol, own, positive⟩
  have id : changed.orderId = active.orderId := rfl
  have symbol : changed.symbolId = active.symbolId := rfl
  have allowed := @Allowed.replace config.midPriceTicks (tableOf active.symbolId s.activeOrders)
    (activeEvent config index .replace changed quantity.1 0).entry active.quote rfl live.id.1 known
    side own positive
  exact g.change split id symbol kept symbol events orders rfl allowed

omit valid random in
theorem Generated.execute : Generated config (index + 1) next
    (generateExecute engine config index place (s.activeOrders.getD place {}) s) := by
  obtain ⟨front, active, back, split, here, erased, written⟩ := exists_split there
  obtain ⟨live, -, distinct, -⟩ := g.member split
  rw [here]
  have known := tableOf_known distinct
  rw [← split] at known
  let executed := engine.uniform 1 active.quantity s.rng
  let left : ActiveOrder := { active with quantity := active.quantity - executed.1 }
  obtain ⟨least, most⟩ : 1 ≤ executed.1 ∧ executed.1 ≤ active.quantity :=
    engine.within 1 active.quantity s.rng live.quantity
  have events : (generateExecute engine config index place active s).events =
      s.events ++ [activeEvent config index .execute active executed.1 s.nextTradeId] := rfl
  have allowed : Allowed config.midPriceTicks (tableOf active.symbolId s.activeOrders)
      (activeEvent config index .execute active executed.1 s.nextTradeId).entry
      (Function.update (tableOf active.symbolId s.activeOrders) active.orderId
        (reduced active.quote executed.1)) :=
    Allowed.reduce (Or.inr rfl) live.id.1 known live.price.1.le (by change 0 < executed.1; omega) most
  by_cases all : left.quantity = 0
  · have gone : reduced active.quote executed.1 = none := by
      apply if_pos
      change active.quantity - executed.1 = 0 at all
      change active.quantity ≤ executed.1
      omega
    have orders : (generateExecute engine config index place active s).activeOrders = front ++ back :=
      (if_pos all).trans erased
    rw [gone] at allowed
    exact g.leave split events orders rfl allowed
  · have stays : reduced active.quote executed.1 = some left.quote := by
      apply if_neg
      change ¬ active.quantity - executed.1 = 0 at all
      change ¬ active.quantity ≤ executed.1
      omega
    have orders : (generateExecute engine config index place active s).activeOrders =
        front ++ left :: back := (if_neg all).trans (written left)
    have positive : 0 < left.quantity := by
      change ¬ active.quantity - executed.1 = 0 at all
      change 0 < active.quantity - executed.1
      omega
    have kept : left.Live config next := ⟨live.id, live.symbol, live.price, positive⟩
    rw [stays] at allowed
    have id : left.orderId = active.orderId := rfl
    have symbol : left.symbolId = active.symbolId := rfl
    exact g.change split id symbol kept rfl events orders rfl allowed

omit there in
include inside in
theorem Generated.step :
    ∃ later, Generated config (index + 1) later (generateEvent engine config s index) := by
  unfold generateEvent
  obtain ⟨roll, rng⟩ := engine.uniform 0 99 s.rng
  have g' := g.draw rng
  dsimp only
  split
  · exact ⟨next + 1, g'.add valid random inside⟩
  · rename_i existing
    have some : s.activeOrders ≠ [] := by
      intro none
      apply existing
      rw [none]
      rfl
    have pos := List.length_pos_iff.mpr some
    let draw := engine.uniform 0 (s.activeOrders.length - 1 : Nat) rng
    obtain ⟨least, most⟩ : 0 ≤ draw.1 ∧ draw.1 ≤ (s.activeOrders.length - 1 : Nat) :=
      engine.within 0 (s.activeOrders.length - 1 : Nat) rng (by omega)
    have there : draw.1.toNat < s.activeOrders.length := by omega
    have drawn := g.draw draw.2
    split
    · exact ⟨next, drawn.cancel there⟩
    · exact ⟨next, drawn.replace valid random there⟩
    · exact ⟨next, drawn.execute there⟩

end Steps

end Random

/-- What a replay needs to know of a generated stream. -/
structure ReplayableStream (config : SyntheticGeneratorConfig) (events : List MarketDataEvent) : Prop where
  count : events.length = config.eventCount
  stamped : Stamped config events
  carries : ∀ event ∈ events, config.Carries event.symbolId
  runs : ∀ symbolId, ∃ t, Runs config.midPriceTicks .empty
    ((events.filter (fun event => event.symbolId = symbolId)).map MarketDataEvent.entry) t

theorem random_replayable {Rng : Type} (engine : RandomEngine Rng) {config : SyntheticGeneratorConfig}
    (valid : config.Valid) (random : config.mode ≠ .adversarialLifecycle) :
    ReplayableStream config (generateSyntheticEvents engine config) := by
  have run : ∀ index ≤ config.eventCount, ∃ next, Generated config index next
      ((List.range index).foldl (generateEvent engine config) { rng := engine.seeded config.seed }) := by
    intro index
    induction index with
    | zero => exact fun _ => ⟨1, generated_start _⟩
    | succ index ih =>
      intro inside
      obtain ⟨next, g⟩ := ih (by omega)
      rw [List.range_succ, List.foldl_append]
      exact g.step valid random inside
  obtain ⟨next, g⟩ := run config.eventCount (le_refl _)
  rw [generateSyntheticEvents, if_neg random]
  exact ⟨g.count, g.stamped, g.carries, fun symbolId => ⟨_, g.runs symbolId⟩⟩

section Lifecycle
variable {middle : Int} {type : MarketEventType} {side : Side} {price held quantity : Int} {id trade : Nat}

def one (id : Nat) (quote : Quote) : OrderTable :=
  Function.update OrderTable.empty id (some quote)

theorem one_known (id : Nat) (quote : Quote) : one id quote id = some quote := Function.update_self ..

theorem one_update (id : Nat) (quote other : Quote) :
    Function.update (one id quote) id (some other) = one id other := Function.update_idem ..

theorem one_gone (id : Nat) (quote : Quote) :
    Function.update (one id quote) id none = OrderTable.empty :=
  (Function.update_idem ..).trans (Function.update_eq_self id OrderTable.empty)

theorem add_one (known : id ≠ invalidOrderId) (own : OwnSide middle side price)
    (positive : 0 < quantity) :
    Allowed middle OrderTable.empty ⟨.add, side, price, quantity, id, trade⟩
      (one id ⟨side, price, quantity⟩) := by
  apply Allowed.add
  · rfl
  · exact known
  · rfl
  · exact own
  · exact positive

theorem cancel_one {quote : Quote} (known : id ≠ invalidOrderId) (own : OwnSide middle side price) :
    Allowed middle (one id quote) ⟨.cancel, side, price, 0, id, trade⟩ OrderTable.empty := by
  have allowed := @Allowed.cancel middle (one id quote) ⟨.cancel, side, price, 0, id, trade⟩ quote rfl
    known (one_known id quote) own.1.le rfl
  rwa [one_gone] at allowed

theorem replace_one {old : Int} (known : id ≠ invalidOrderId) (own : OwnSide middle side price)
    (positive : 0 < quantity) :
    Allowed middle (one id ⟨side, old, held⟩) ⟨.replace, side, price, quantity, id, trade⟩
      (one id ⟨side, price, quantity⟩) := by
  have allowed := @Allowed.replace middle (one id ⟨side, old, held⟩)
    ⟨.replace, side, price, quantity, id, trade⟩ ⟨side, old, held⟩ rfl known (one_known id _)
    own.valid own positive
  rwa [one_update] at allowed

theorem reduce_one (kind : type = .cancel ∨ type = .execute) (known : id ≠ invalidOrderId)
    (own : OwnSide middle side price) (positive : 0 < quantity) (less : quantity < held) :
    Allowed middle (one id ⟨side, price, held⟩) ⟨type, side, price, quantity, id, trade⟩
      (one id ⟨side, price, held - quantity⟩) := by
  have allowed := @Allowed.reduce middle (one id ⟨side, price, held⟩)
    ⟨type, side, price, quantity, id, trade⟩ ⟨side, price, held⟩ kind known (one_known id _) own.1.le
    positive less.le
  have left : reduced ⟨side, price, held⟩ quantity = some ⟨side, price, held - quantity⟩ :=
    if_neg (not_le.mpr less)
  rwa [left, one_update] at allowed

theorem reduce_all (kind : type = .cancel ∨ type = .execute) (known : id ≠ invalidOrderId)
    (own : OwnSide middle side price) (positive : 0 < quantity) :
    Allowed middle (one id ⟨side, price, quantity⟩) ⟨type, side, price, quantity, id, trade⟩
      OrderTable.empty := by
  have allowed := @Allowed.reduce middle (one id ⟨side, price, quantity⟩)
    ⟨type, side, price, quantity, id, trade⟩ ⟨side, price, quantity⟩ kind known (one_known id _)
    own.1.le positive (le_refl quantity)
  have left : reduced ⟨side, price, quantity⟩ quantity = none := if_pos (le_refl quantity)
  rwa [left, one_gone] at allowed

/-- A cycle is allowed, and leaves no order. -/
theorem lifecycleEntries_runs (positive : 1 ≤ middle) (cycle : Nat) :
    Runs middle OrderTable.empty (lifecycleEntries middle cycle) OrderTable.empty := by
  have buy : 2 * cycle + 1 ≠ invalidOrderId := Nat.succ_ne_zero _
  have sell : 2 * cycle + 2 ≠ invalidOrderId := Nat.succ_ne_zero _
  have drift : (0 : Int) ≤ (cycle % 17 : Nat) := Int.natCast_nonneg _
  unfold lifecycleEntries
  generalize ((cycle % 17 : Nat) : Int) = d at drift
  dsimp only
  have bid : OwnSide middle .buy (max 1 (middle - 5 - d)) := ⟨by omega, Or.inl ⟨rfl, by omega⟩⟩
  have reuse : OwnSide middle .buy (max 1 (max 1 (middle - 5 - d) - 1)) :=
    ⟨by omega, Or.inl ⟨rfl, by omega⟩⟩
  have reprice : OwnSide middle .buy (max 1 (max 1 (middle - 5 - d) - 2)) :=
    ⟨by omega, Or.inl ⟨rfl, by omega⟩⟩
  have ask : OwnSide middle .sell (middle + 5 + d) := ⟨by omega, Or.inr ⟨rfl, by omega⟩⟩
  have above : OwnSide middle .sell (middle + 5 + d + 1) := ⟨by omega, Or.inr ⟨rfl, by omega⟩⟩
  apply Runs.cons (add_one buy bid (by decide))
  apply Runs.cons (cancel_one buy bid)
  apply Runs.cons (add_one buy reuse (by decide))
  apply Runs.cons (replace_one buy reuse (by decide))
  apply Runs.cons (replace_one buy reuse (by decide))
  apply Runs.cons (replace_one buy reprice (by decide))
  apply Runs.cons (cancel_one buy reprice)
  apply Runs.cons (add_one sell ask (by decide))
  apply Runs.cons (reduce_one (Or.inr rfl) sell ask (by decide) (by decide))
  apply Runs.cons (replace_one sell above (by decide))
  apply Runs.cons (reduce_all (Or.inr rfl) sell above (by decide))
  apply Runs.cons (add_one sell ask (by decide))
  apply Runs.cons (reduce_one (Or.inl rfl) sell ask (by decide) (by decide))
  apply Runs.cons (cancel_one sell ask)
  apply Runs.cons (Allowed.trade rfl bid.1 Int.one_pos)
  apply Runs.cons (Allowed.heartbeat rfl (le_refl 0) (le_refl 0))
  exact .nil _

theorem entries_runs (positive : 1 ≤ middle) (count : Nat) :
    Runs middle OrderTable.empty (Rounds.entries (lifecycleEntries middle) count) OrderTable.empty := by
  induction count with
  | zero => exact .nil _
  | succ count ih =>
    rw [Rounds.entries_succ]
    exact ih.append (lifecycleEntries_runs positive count)

theorem lifecycle_replayable {config : SyntheticGeneratorConfig} (valid : config.Valid)
    (mode : config.mode = .adversarialLifecycle) :
    ReplayableStream config (generateAdversarialLifecycleEvents config) := by
  have middle := valid.middle
  have prices : ∀ cycle : Nat, 16 * cycle < config.eventCount →
      -2 ^ 63 ≤ config.midPriceTicks - 5 - (cycle % 17 : Nat) ∧
        config.midPriceTicks + 5 + (cycle % 17 : Nat) + 1 < 2 ^ 63 := by
    intro cycle reached
    have small : cycle % 17 < 17 := Nat.mod_lt _ (by decide)
    exact ⟨by omega, valid.lifecyclePrices mode cycle reached⟩
  have symbol : ∀ event ∈ generateAdversarialLifecycleEvents config,
      event.symbolId = config.symbolId := by
    rw [lifecycleEvents_eq valid.eventCount prices]
    intro event he
    obtain ⟨index, inside, rfl⟩ := List.mem_mapIdx.mp he
    rfl
  have entries : (generateAdversarialLifecycleEvents config).map MarketDataEvent.entry =
      (Rounds.entries (lifecycleEntries config.midPriceTicks) config.eventCount).take
        config.eventCount := by
    rw [lifecycleEvents_eq valid.eventCount prices, Rounds.map_elements]
    exact List.ext_getElem (by simp [Rounds.elements])
      (by simp [Rounds.elements, lifecycleEvent, MarketDataEvent.entry])
  refine ⟨?_, ?_, ?_, ?_⟩
  · have length := congrArg List.length entries
    rw [List.length_map, List.length_take,
      Rounds.length_entries (length_lifecycleEntries config.midPriceTicks)] at length
    omega
  · rw [lifecycleEvents_eq valid.eventCount prices]
    intro index inside
    have plain : config.mode ≠ .burstyFlow := by
      rw [mode]
      decide
    simp only [Rounds.elements, List.getElem_mapIdx, lifecycleEvent,
      SyntheticGeneratorConfig.timestampForIndex, if_pos plain, and_self]
  · intro event he
    rw [symbol event he]
    exact ⟨valid.symbolId.1, fun _ => rfl⟩
  · intro symbolId
    by_cases own : symbolId = config.symbolId
    · have all : (generateAdversarialLifecycleEvents config).filter
          (fun event => event.symbolId = symbolId) = generateAdversarialLifecycleEvents config := by
        apply List.filter_eq_self.mpr
        intro event he
        exact decide_eq_true ((symbol event he).trans own.symm)
      rw [all, entries]
      exact (entries_runs middle config.eventCount).take config.eventCount
    · have none : (generateAdversarialLifecycleEvents config).filter
          (fun event => event.symbolId = symbolId) = [] := by
        apply List.filter_eq_nil_iff.mpr
        intro event he same
        exact own ((of_decide_eq_true same).symm.trans (symbol event he))
      rw [none]
      exact ⟨_, .nil _⟩

end Lifecycle

/-- Generated streams are valid. Whatever is drawn, in every mode there are as many events as asked for,
and the grouped replay of them ends without a diagnostic: with the full or the light check of the
books, with or without the check of timestamps, and with that of sequence numbers wherever the stream
has one symbol. -/
theorem generated_streams_valid {Rng : Type} (engine : RandomEngine Rng)
    (config : SyntheticGeneratorConfig) (valid : config.Valid) (replay : AggregateReplayConfig)
    (supported : replay.replayConfig.Supported)
    (unchecked : config.mode = .multiSymbol → replay.validatePerSymbolSequences = false) :
    (generateSyntheticEvents engine config).length = config.eventCount ∧
      ∀ summary ∈ (replayBySymbol (generateSyntheticEvents engine config) replay).symbols,
        summary.Clean := by
  have stream : ReplayableStream config (generateSyntheticEvents engine config) := by
    by_cases mode : config.mode = .adversarialLifecycle
    · rw [generateSyntheticEvents, if_pos mode]
      exact lifecycle_replayable valid mode
    · exact random_replayable engine valid mode
  have off : config.mode = .multiSymbol → (groupedConfig replay).validateSequenceNumbers = false := by
    intro multi
    rw [groupedConfig_sequence, unchecked multi]
    rfl
  refine ⟨stream.count, ?_⟩
  apply replayBySymbol_clean (supported_grouped supported)
  · exact fun event he => (stream.carries event he).1
  · exact stream.stamped.chain valid stream.count stream.carries off
  · exact stream.runs

/-- An engine that always draws the largest value. -/
def highestDraws : RandomEngine Unit where
  seeded _ := ()
  uniform _ high _ := (high, ())
  within _ _ _ le := ⟨le, le_refl _⟩

theorem generated_streams_valid_shallow :
    let config : SyntheticGeneratorConfig :=
      { eventCount := 40, midPriceTicks := 1, priceRangeTicks := -3, burstSize := 0, mode := .burstyFlow }
    (generateSyntheticEvents highestDraws config).length = 40 ∧
      ∀ summary ∈ (replayBySymbol (generateSyntheticEvents highestDraws config)
        { validatePerSymbolSequences := true }).symbols, summary.Clean := by
  apply generated_streams_valid highestDraws
  · constructor
    · decide
    · decide
    · intro multi
      cases multi
    · decide
    · decide
    · intro mode
      cases mode
    · exact ⟨by decide, by decide⟩
  · exact Or.inl rfl
  · intro multi
    cases multi

end Asterion
