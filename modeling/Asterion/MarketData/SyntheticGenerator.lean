import Asterion.Lib.Rounds
import Asterion.MarketData.Event

/-! The generator of synthetic event streams. The random engine and its uniform distributions are a
parameter; the results of 64-bit arithmetic wrap. -/
namespace Asterion
open Lib

/-- A random engine, and what a uniform distribution over a range of integers draws from it. -/
structure RandomEngine (Rng : Type) where
  seeded : Nat → Rng
  uniform : Int → Int → Rng → Int × Rng
  within : ∀ low high rng, low ≤ high →
    low ≤ (uniform low high rng).1 ∧ (uniform low high rng).1 ≤ high

inductive SyntheticFlowMode where
  | balanced | highCancellationRate | replaceHeavy | deepBook | burstyFlow
  | longRunningSameSymbol | multiSymbol | widePriceRange | adversarialLifecycle
  deriving DecidableEq, Repr

structure SyntheticGeneratorConfig where
  symbolId : Nat := 1
  eventCount : Nat := 100
  firstSequenceNumber : Nat := 1
  firstTimestampNs : Int := 1000000
  seed : Nat := 7
  mode : SyntheticFlowMode := .balanced
  symbolCount : Nat := 1
  midPriceTicks : Int := 1000
  priceRangeTicks : Int := 5
  burstSize : Nat := 8
  deriving DecidableEq, Repr

structure ActiveOrder where
  orderId : Nat := invalidOrderId
  symbolId : Nat := invalidSymbolId
  side : Side := .none
  priceTicks : Int := 0
  quantity : Int := 0
  deriving DecidableEq, Repr, Inhabited

namespace SyntheticGeneratorConfig
variable (config : SyntheticGeneratorConfig)

def sequenceForIndex (index : Nat) : Nat := (config.firstSequenceNumber + index) % 2 ^ 64

def symbolForIndex (index : Nat) : Nat :=
  let symbolCount := if config.mode = .multiSymbol then max 1 config.symbolCount else 1
  (config.symbolId + index % symbolCount) % 2 ^ 32

def timestampForIndex (index : Nat) : Int :=
  if config.mode ≠ .burstyFlow then wrap64 (config.firstTimestampNs + wrap64 index)
  else
    let burstSize := max 1 config.burstSize
    wrap64 (config.firstTimestampNs + wrap64 (index / burstSize : Nat))

def priceRangeForMode : Int :=
  if config.mode = .deepBook then max config.priceRangeTicks 100
  else if config.mode = .widePriceRange then max config.priceRangeTicks 500
  else max config.priceRangeTicks 1

def shouldAdd (roll : Int) (activeEmpty : Bool) : Bool :=
  if activeEmpty then true
  else
    match config.mode with
    | .highCancellationRate => roll < 35
    | .replaceHeavy => roll < 35
    | .deepBook => roll < 75
    | .longRunningSameSymbol => roll < 50
    | .burstyFlow | .multiSymbol | .widePriceRange | .adversarialLifecycle | .balanced => roll < 55

def chooseExistingOrderEvent (roll : Int) : MarketEventType :=
  if config.mode = .highCancellationRate then
    if roll < 85 then .cancel else if roll < 95 then .replace else .execute
  else if config.mode = .replaceHeavy then
    if roll < 85 then .replace else if roll < 95 then .cancel else .execute
  else if roll < 75 then .cancel
  else if roll < 90 then .replace
  else .execute

end SyntheticGeneratorConfig

section Random
variable {Rng : Type} (engine : RandomEngine Rng) (config : SyntheticGeneratorConfig)

def randomSide (rng : Rng) : Side × Rng :=
  let (draw, rng) := engine.uniform 0 1 rng
  (if draw = 0 then .buy else .sell, rng)

def randomPrice (side : Side) (rng : Rng) : Int × Rng :=
  let (depth, rng) := engine.uniform 1 config.priceRangeForMode rng
  let price :=
    if side = .buy then wrap64 (config.midPriceTicks - depth)
    else wrap64 (config.midPriceTicks + depth)
  (max 1 price, rng)

structure GeneratorState (Rng : Type) where
  rng : Rng
  events : List MarketDataEvent := []
  activeOrders : List ActiveOrder := []
  nextOrderId : Nat := 1
  nextTradeId : Nat := 1

def activeEvent (config : SyntheticGeneratorConfig) (index : Nat) (type : MarketEventType)
    (active : ActiveOrder) (quantity : Int) (tradeId : Nat) : MarketDataEvent :=
  { timestampNs := config.timestampForIndex index
    sequenceNumber := config.sequenceForIndex index
    symbolId := active.symbolId
    eventType := type
    side := active.side
    priceTicks := active.priceTicks
    quantity
    orderId := active.orderId
    tradeId
    flags := 0 }

def generateAdd (index : Nat) (s : GeneratorState Rng) : GeneratorState Rng :=
  let (side, rng) := randomSide engine s.rng
  let (priceTicks, rng) := randomPrice engine config side rng
  let (quantity, rng) := engine.uniform 1 250 rng
  let active : ActiveOrder :=
    { orderId := s.nextOrderId, symbolId := config.symbolForIndex index, side, priceTicks, quantity }
  { s with
    rng
    events := s.events ++ [activeEvent config index .add active quantity 0]
    activeOrders := s.activeOrders ++ [active]
    nextOrderId := (s.nextOrderId + 1) % 2 ^ 64 }

def generateCancel (index place : Nat) (active : ActiveOrder) (s : GeneratorState Rng) :
    GeneratorState Rng :=
  { s with
    events := s.events ++ [activeEvent config index .cancel active 0 0]
    activeOrders := s.activeOrders.eraseIdx place }

def generateReplace (index place : Nat) (active : ActiveOrder) (s : GeneratorState Rng) :
    GeneratorState Rng :=
  let (priceTicks, rng) := randomPrice engine config active.side s.rng
  let (quantity, rng) := engine.uniform 1 250 rng
  let active := { active with priceTicks, quantity }
  { s with
    rng
    events := s.events ++ [activeEvent config index .replace active quantity 0]
    activeOrders := s.activeOrders.set place active }

def generateExecute (index place : Nat) (active : ActiveOrder) (s : GeneratorState Rng) :
    GeneratorState Rng :=
  let (executedQuantity, rng) := engine.uniform 1 active.quantity s.rng
  let left := { active with quantity := active.quantity - executedQuantity }
  { s with
    rng
    events := s.events ++ [activeEvent config index .execute active executedQuantity s.nextTradeId]
    activeOrders :=
      if left.quantity = 0 then s.activeOrders.eraseIdx place else s.activeOrders.set place left
    nextTradeId := (s.nextTradeId + 1) % 2 ^ 64 }

def generateEvent (s : GeneratorState Rng) (index : Nat) : GeneratorState Rng :=
  let (roll, rng) := engine.uniform 0 99 s.rng
  let s := { s with rng }
  if config.shouldAdd roll s.activeOrders.isEmpty then generateAdd engine config index s
  else
    let (activeIndex, rng) := engine.uniform 0 (s.activeOrders.length - 1 : Nat) s.rng
    let s := { s with rng }
    let active := s.activeOrders.getD activeIndex.toNat {}
    match config.chooseExistingOrderEvent roll with
    | .cancel => generateCancel config index activeIndex.toNat active s
    | .replace => generateReplace engine config index activeIndex.toNat active s
    | _ => generateExecute engine config index activeIndex.toNat active s

end Random

section Lifecycle
variable (config : SyntheticGeneratorConfig)

/-- The arguments of a push. -/
structure LifecycleEntry where
  eventType : MarketEventType
  side : Side
  priceTicks : Int
  quantity : Int
  orderId : Nat
  tradeId : Nat
  deriving DecidableEq, Repr

structure LifecycleState where
  nextTradeId : Nat := 1
  nextOrderId : Nat := 1
  cycle : Nat := 0
  deriving DecidableEq, Repr

def lifecycleEvent (index : Nat) (entry : LifecycleEntry) : MarketDataEvent :=
  { timestampNs := wrap64 (config.firstTimestampNs + wrap64 index)
    sequenceNumber := config.sequenceForIndex index
    symbolId := config.symbolId
    eventType := entry.eventType
    side := entry.side
    priceTicks := entry.priceTicks
    quantity := entry.quantity
    orderId := entry.orderId
    tradeId := entry.tradeId
    flags := 0 }

def lifecycleCycle (s : LifecycleState) : List LifecycleEntry × LifecycleState :=
  let buyId := s.nextOrderId
  let sellId := (s.nextOrderId + 1) % 2 ^ 64
  let tradeId := s.nextTradeId
  let tradeId' := (tradeId + 1) % 2 ^ 64
  let tradeId'' := (tradeId' + 1) % 2 ^ 64
  let drift : Int := (s.cycle % 17 : Nat)
  let bid := max 1 (wrap64 (wrap64 (config.midPriceTicks - 5) - drift))
  let ask := wrap64 (wrap64 (config.midPriceTicks + 5) + drift)
  let bidReuse := max 1 (wrap64 (bid - 1))
  let bidReprice := max 1 (wrap64 (bid - 2))
  let askAbove := wrap64 (ask + 1)
  ([⟨.add, .buy, bid, 100, buyId, 0⟩,
      ⟨.cancel, .buy, bid, 0, buyId, 0⟩,
      ⟨.add, .buy, bidReuse, 80, buyId, 0⟩,
      ⟨.replace, .buy, bidReuse, 120, buyId, 0⟩,
      ⟨.replace, .buy, bidReuse, 60, buyId, 0⟩,
      ⟨.replace, .buy, bidReprice, 70, buyId, 0⟩,
      ⟨.cancel, .buy, bidReprice, 0, buyId, 0⟩,
      ⟨.add, .sell, ask, 90, sellId, 0⟩,
      ⟨.execute, .sell, ask, 30, sellId, tradeId⟩,
      ⟨.replace, .sell, askAbove, 50, sellId, 0⟩,
      ⟨.execute, .sell, askAbove, 50, sellId, tradeId'⟩,
      ⟨.add, .sell, ask, 40, sellId, 0⟩,
      ⟨.cancel, .sell, ask, 20, sellId, 0⟩,
      ⟨.cancel, .sell, ask, 0, sellId, 0⟩,
      ⟨.trade, .buy, bid, 1, invalidOrderId, tradeId''⟩,
      ⟨.heartbeat, .none, 0, 0, invalidOrderId, 0⟩],
    { nextTradeId := (tradeId'' + 1) % 2 ^ 64
      nextOrderId := (sellId + 1) % 2 ^ 64
      cycle := (s.cycle + 1) % 2 ^ 64 })

/-- A cycle fills at least one place, so there are at most as many cycles as events. -/
def generateAdversarialLifecycleEvents : List MarketDataEvent :=
  Rounds.fill config.eventCount (lifecycleEvent config) (lifecycleCycle config) config.eventCount {} []

end Lifecycle

def generateSyntheticEvents {Rng : Type} (engine : RandomEngine Rng)
    (config : SyntheticGeneratorConfig) : List MarketDataEvent :=
  if config.mode = .adversarialLifecycle then generateAdversarialLifecycleEvents config
  else
    ((List.range config.eventCount).foldl (generateEvent engine config)
      { rng := engine.seeded config.seed }).events

end Asterion
