import Asterion.Book.FlatOrderIndex
import Asterion.Book.PriceTimeMap
import Asterion.Lib.LinkedPath

/-! The pooled order book: sorted vectors of price levels, each with a doubly linked queue through one
vector of order nodes, a list of free nodes through the same links, and the flat order index. A link is
`none` where the code holds `kNoIndex`; a pointer to a level is its position. -/
namespace Asterion

structure LevelNode where
  priceTicks : Int := 0
  totalQuantity : Int := 0
  head : Option Nat := none
  tail : Option Nat := none
  orderCount : Nat := 0
  deriving DecidableEq, Repr

structure OrderNode where
  order : Order := {}
  previous : Option Nat := none
  next : Option Nat := none
  active : Bool := false
  deriving DecidableEq, Repr

structure PooledOrderBook where
  symbolId : Nat
  bids : List LevelNode := []
  asks : List LevelNode := []
  orderNodes : List OrderNode := []
  freeHead : Option Nat := none
  orderIndex : FlatOrderIndex := {}
  deriving DecidableEq, Repr

namespace PooledOrderBook

def new (symbolId : Nat) : PooledOrderBook := { symbolId }

def empty (p : PooledOrderBook) : Bool := p.orderIndex.size == 0
def orderCount (p : PooledOrderBook) : Nat := p.orderIndex.size

def clear (p : PooledOrderBook) : PooledOrderBook :=
  { p with
    bids := [], asks := [], orderNodes := [], freeHead := none, orderIndex := p.orderIndex.clear }

def nodeAt (nodes : List OrderNode) (nodeIndex : Nat) : OrderNode := nodes.getD nodeIndex {}

def levels (p : PooledOrderBook) : Side → List LevelNode
  | .buy => p.bids
  | .sell => p.asks
  | .none => []

def setLevels (p : PooledOrderBook) (side : Side) (levels : List LevelNode) : PooledOrderBook :=
  match side with
  | .buy => { p with bids := levels }
  | .sell => { p with asks := levels }
  | .none => p

/-- The common body of `mutable_bid_level` and `mutable_ask_level`, which stop at different levels. -/
def levelFrom (reached : LevelNode → Bool) (levels : List LevelNode) (priceTicks : Int) :
    List LevelNode × Nat :=
  let it := levels.findIdx reached
  if (levels[it]?).any (fun level => level.priceTicks == priceTicks) then (levels, it)
  else (levels.insertIdx it { priceTicks }, it)

def mutableBidLevel (levels : List LevelNode) (priceTicks : Int) : List LevelNode × Nat :=
  levelFrom (fun level => level.priceTicks ≤ priceTicks) levels priceTicks

def mutableAskLevel (levels : List LevelNode) (priceTicks : Int) : List LevelNode × Nat :=
  levelFrom (fun level => level.priceTicks ≥ priceTicks) levels priceTicks

/-- The book after the level has been created where it was missing, and the level's position. -/
def mutableLevel (p : PooledOrderBook) (side : Side) (priceTicks : Int) :
    Option (PooledOrderBook × Nat) :=
  match side with
  | .buy =>
    let found := mutableBidLevel p.bids priceTicks
    some ({ p with bids := found.1 }, found.2)
  | .sell =>
    let found := mutableAskLevel p.asks priceTicks
    some ({ p with asks := found.1 }, found.2)
  | .none => none

def findLevel (levels : List LevelNode) (priceTicks : Int) : Option LevelNode :=
  levels.find? (fun level => level.priceTicks == priceTicks)

def level (p : PooledOrderBook) (side : Side) (priceTicks : Int) : Option LevelNode :=
  match side with
  | .buy => findLevel p.bids priceTicks
  | .sell => findLevel p.asks priceTicks
  | .none => none

def eraseLevelIfEmpty (p : PooledOrderBook) (side : Side) (priceTicks : Int) : PooledOrderBook :=
  let levels := p.levels side
  let it := levels.findIdx (fun level => level.priceTicks == priceTicks)
  if (levels[it]?).any (fun level => level.orderCount == 0) then p.setLevels side (levels.eraseIdx it)
  else p

def acquireNode (p : PooledOrderBook) (order : Order) : PooledOrderBook × Nat :=
  let node : OrderNode := { order, previous := none, next := none, active := true }
  match p.freeHead with
  | some nodeIndex =>
    ({ p with
        freeHead := (nodeAt p.orderNodes nodeIndex).next
        orderNodes := p.orderNodes.set nodeIndex node }, nodeIndex)
  | none => ({ p with orderNodes := p.orderNodes ++ [node] }, p.orderNodes.length)

def releaseNode (p : PooledOrderBook) (nodeIndex : Nat) : PooledOrderBook :=
  { p with
    orderNodes := p.orderNodes.modify nodeIndex (fun node =>
      { node with active := false, previous := none, next := p.freeHead })
    freeHead := some nodeIndex }

def setNext (nodes : List OrderNode) (nodeIndex : Nat) (next : Option Nat) : List OrderNode :=
  nodes.modify nodeIndex (fun node => { node with next })

def setPrevious (nodes : List OrderNode) (nodeIndex : Nat) (previous : Option Nat) : List OrderNode :=
  nodes.modify nodeIndex (fun node => { node with previous })

def appendOrder (level : LevelNode) (nodes : List OrderNode) (nodeIndex : Nat) :
    LevelNode × List OrderNode :=
  let nodes := setNext (setPrevious nodes nodeIndex level.tail) nodeIndex none
  let linked :=
    match level.tail with
    | some tail => (level, setNext nodes tail (some nodeIndex))
    | none => ({ level with head := some nodeIndex }, nodes)
  ({ linked.1 with
      tail := some nodeIndex
      totalQuantity := linked.1.totalQuantity + (nodeAt linked.2 nodeIndex).order.quantity
      orderCount := linked.1.orderCount + 1 }, linked.2)

/-- The first branch of `unlink_order`, what is in front of the node. -/
def unlinkFront (level : LevelNode) (nodes : List OrderNode) (node : OrderNode) :
    LevelNode × List OrderNode :=
  match node.previous with
  | some previous => (level, setNext nodes previous node.next)
  | none => ({ level with head := node.next }, nodes)

/-- The second branch, what is behind it. -/
def unlinkBack (level : LevelNode) (nodes : List OrderNode) (node : OrderNode) :
    LevelNode × List OrderNode :=
  match node.next with
  | some next => (level, setPrevious nodes next node.previous)
  | none => ({ level with tail := node.previous }, nodes)

def unlinkOrder (level : LevelNode) (nodes : List OrderNode) (nodeIndex : Nat) :
    LevelNode × List OrderNode :=
  let (level, nodes) := unlinkFront level nodes (nodeAt nodes nodeIndex)
  let (level, nodes) := unlinkBack level nodes (nodeAt nodes nodeIndex)
  ({ level with orderCount := level.orderCount - 1 }, nodes)

/-- What a function that works on a level and the nodes does to the book. -/
def withLevel (p : PooledOrderBook) (side : Side) (position : Nat)
    (work : LevelNode → List OrderNode → LevelNode × List OrderNode) : PooledOrderBook :=
  let worked := work ((p.levels side).getD position {}) p.orderNodes
  { p.setLevels side ((p.levels side).set position worked.1) with orderNodes := worked.2 }

/-- Without a result if a loop of the order index goes round for ever, like what calls it. -/
def addOrder (p : PooledOrderBook) (order : Order) : Option (PooledOrderBook × Bool) :=
  if !isValidRestingOrder order || order.symbolId != p.symbolId then some (p, false)
  else if (p.orderIndex.find order.orderId).isSome then some (p, false)
  else
    match p.mutableLevel order.side order.priceTicks with
    | none => some (p, false)
    | some (p, position) =>
      let (p, nodeIndex) := p.acquireNode order
      let p := p.withLevel order.side position (fun level nodes => appendOrder level nodes nodeIndex)
      (p.orderIndex.insert order.orderId nodeIndex).map (fun (orderIndex, inserted) =>
        let p := { p with orderIndex }
        if !inserted then
          let p := p.withLevel order.side position (fun level nodes =>
            unlinkOrder level nodes nodeIndex)
          ((p.releaseNode nodeIndex).eraseLevelIfEmpty order.side order.priceTicks, false)
        else (p, true))

def cancelOrder (p : PooledOrderBook) (orderId : Nat) : PooledOrderBook × Bool :=
  match p.orderIndex.find orderId with
  | none => (p, false)
  | some nodeIndex =>
    let order := (nodeAt p.orderNodes nodeIndex).order
    match p.mutableLevel order.side order.priceTicks with
    | none => (p, false)
    | some (p, position) =>
      let p := p.withLevel order.side position (fun level nodes =>
        unlinkOrder { level with totalQuantity := level.totalQuantity - order.quantity } nodes nodeIndex)
      let p := { p with orderIndex := (p.orderIndex.erase orderId).1 }
      ((p.releaseNode nodeIndex).eraseLevelIfEmpty order.side order.priceTicks, true)

def reduceOrder (p : PooledOrderBook) (orderId : Nat) (quantity : Int) : PooledOrderBook × Bool :=
  if quantity ≤ 0 then (p, false)
  else
    match p.orderIndex.find orderId with
    | none => (p, false)
    | some nodeIndex =>
      let order := (nodeAt p.orderNodes nodeIndex).order
      if quantity ≥ order.quantity then p.cancelOrder orderId
      else
        match p.mutableLevel order.side order.priceTicks with
        | none => (p, false)
        | some (p, position) =>
          (p.withLevel order.side position (fun level nodes =>
            ({ level with totalQuantity := level.totalQuantity - quantity },
              nodes.modify nodeIndex (fun node =>
                { node with order.quantity := node.order.quantity - quantity }))), true)

def findOrder (p : PooledOrderBook) (orderId : Nat) : Option Order :=
  match p.orderIndex.find orderId with
  | none => none
  | some nodeIndex =>
    let node := nodeAt p.orderNodes nodeIndex
    if node.active then some node.order else none

def replaceOrder (p : PooledOrderBook) (orderId : Nat) (newPriceTicks newQuantity timestampNs : Int)
    (sequenceNumber : Nat) : Option (PooledOrderBook × Bool) :=
  if newPriceTicks ≤ 0 ∨ newQuantity ≤ 0 then some (p, false)
  else
    match p.findOrder orderId with
    | none => some (p, false)
    | some existing =>
      let replacement := { existing with
        priceTicks := newPriceTicks, quantity := newQuantity, timestampNs, sequenceNumber }
      let (p, cancelled) := p.cancelOrder orderId
      if !cancelled then some (p, false) else p.addOrder replacement

/-- Both `best_order` and `mutable_best_order`: the head of the first level. -/
def bestOrder (p : PooledOrderBook) (restingSide : Side) : Option Order :=
  (p.levels restingSide).head?.bind (fun level =>
    level.head.map (fun nodeIndex => (nodeAt p.orderNodes nodeIndex).order))

def bestBid (p : PooledOrderBook) : Option Int := p.bids.head?.map (·.priceTicks)
def bestAsk (p : PooledOrderBook) : Option Int := p.asks.head?.map (·.priceTicks)

def totalQuantityAt (p : PooledOrderBook) (side : Side) (priceTicks : Int) : Int :=
  ((p.level side priceTicks).map (·.totalQuantity)).getD 0

def l2Levels (levels : List LevelNode) (depth : Nat) : List L2Level :=
  (levels.take depth).map (fun level => ⟨level.priceTicks, level.totalQuantity⟩)

/-- Both `l2_view` and `fill_l2_view`. -/
def l2View (p : PooledOrderBook) (depth : Nat) : L2View :=
  { symbolId := p.symbolId, bids := l2Levels p.bids depth, asks := l2Levels p.asks depth }

/-- The capacity of the vectors is not observable, that of the index is its number of entries. -/
def reserveOrderCapacity (p : PooledOrderBook) (orderCount : Nat) : Option PooledOrderBook :=
  (p.orderIndex.reserve orderCount).map (fun orderIndex => { p with orderIndex })

/-- What the invariant walk carries from level to level and from node to node. -/
structure CheckState where
  report : BookInvariantReport := {}
  seen : Finset Nat := ∅
  previousPrice : Option Int := none
  childSum : Int := 0
  childCount : Nat := 0
  previousNode : Option Nat := none

def checkNode (p : PooledOrderBook) (side : Side) (priceTicks : Int) (s : CheckState)
    (nodeIndex : Nat) : CheckState :=
  let node := nodeAt p.orderNodes nodeIndex
  let order := node.order
  let report := s.report
    |> violationIf (node.active = false) "price level references inactive order node"
    |> violationIf (node.previous ≠ s.previousNode) "order queue previous link is inconsistent"
    |> violationIf (order.quantity ≤ 0) "resting order has non-positive quantity"
    |> violationIf (order.orderId ∈ s.seen) "duplicate order id in price queues"
    |> violationIf (order.side ≠ side ∨ order.priceTicks ≠ priceTicks)
        "order side or price does not match containing level"
  let report :=
    match p.orderIndex.find order.orderId with
    | none => addViolation report "order id missing from lookup index"
    | some indexedNode =>
      violationIf (indexedNode ≠ nodeIndex) "lookup index locator points to inconsistent order" report
  { s with
    report
    seen := insert order.orderId s.seen
    childSum := s.childSum + order.quantity
    childCount := s.childCount + 1
    previousNode := some nodeIndex }

/-- The loop over the queue of a level, which may visit so many nodes; without a result if it does not
end within them. -/
def checkQueue (p : PooledOrderBook) (side : Side) (priceTicks : Int) :
    Nat → Option Nat → CheckState → Option CheckState
  | _, none, s => some s
  | 0, some _, _ => none
  | visits + 1, some nodeIndex, s =>
    if nodeIndex ≥ p.orderNodes.length then
      some { s with
        report := addViolation s.report "price level references out-of-range order node" }
    else
      checkQueue p side priceTicks visits (nodeAt p.orderNodes nodeIndex).next
        (p.checkNode side priceTicks s nodeIndex)

def checkLevel (p : PooledOrderBook) (side : Side) (s : CheckState) (level : LevelNode) :
    Option CheckState :=
  let report := s.report
    |> violationIf (level.orderCount = 0 ∨ level.head = none ∨ level.tail = none)
        "empty price level was retained"
    |> violationIf (side = .buy ∧ s.previousPrice.any (fun previous => previous ≤ level.priceTicks))
        "bid levels are not sorted best-first"
    |> violationIf (side = .sell ∧ s.previousPrice.any (fun previous => previous ≥ level.priceTicks))
        "ask levels are not sorted best-first"
  let start := { s with
    report, previousPrice := some level.priceTicks, childSum := 0, childCount := 0, previousNode := none }
  (p.checkQueue side level.priceTicks p.orderNodes.length level.head start).map (fun s =>
    { s with
      report := s.report
        |> violationIf (s.previousNode ≠ level.tail) "order queue tail link is inconsistent"
        |> violationIf (s.childCount ≠ level.orderCount)
            "price-level order count does not match linked orders"
        |> violationIf (s.childSum ≠ level.totalQuantity)
            "price-level total does not match child order sum" })

def checkLevels (p : PooledOrderBook) (side : Side) (s : CheckState) : Option CheckState :=
  (p.levels side).foldlM (p.checkLevel side) { s with previousPrice := none }

def checkStoredNode (p : PooledOrderBook) (seen : Finset Nat) (report : BookInvariantReport)
    (nodeIndex : Nat) : BookInvariantReport :=
  let node := nodeAt p.orderNodes nodeIndex
  if !node.active then report
  else
    report
      |> violationIf (node.order.orderId ∉ seen) "active order node is not present in queues"
      |> violationIf (p.orderIndex.find node.order.orderId ≠ some nodeIndex)
          "active order node is not present in lookup index"

def checkInvariants (p : PooledOrderBook) : Option BookInvariantReport := do
  let s ← p.checkLevels .buy {}
  let s ← p.checkLevels .sell s
  let report := violationIf (s.seen.card ≠ p.orderIndex.size)
    "lookup index size differs from queued order count" s.report
  pure ((List.range p.orderNodes.length).foldl (p.checkStoredNode s.seen) report)

/-- The loop over the queue of a level with what it does to each order, bounded as in `checkQueue`. -/
def visitQueue {S : Type} (visit : S → Order → S) (nodes : List OrderNode) :
    Nat → Option Nat → S → Option S
  | _, none, s => some s
  | 0, some _, _ => none
  | visits + 1, some nodeIndex, s =>
    visitQueue visit nodes visits (nodeAt nodes nodeIndex).next (visit s (nodeAt nodes nodeIndex).order)

def checksumLevel (p : PooledOrderBook) (seed : UInt64) (level : LevelNode) : Option UInt64 :=
  let seed := checksumAppend 8 seed level.priceTicks
  let seed := checksumAppend 8 seed level.totalQuantity
  let seed := checksumAppend 8 seed level.orderCount
  visitQueue OrderBook.checksumOrder p.orderNodes p.orderNodes.length level.head seed

def checksumLevels (p : PooledOrderBook) (seed : UInt64) (side : Side) (levels : List LevelNode) :
    Option UInt64 :=
  let seed := checksumAppend 1 seed side.toByte
  let seed := checksumAppend 8 seed levels.length
  levels.foldlM p.checksumLevel seed

def checksum (p : PooledOrderBook) : Option UInt64 := do
  let seed := checksumAppend 4 fnvOffsetBasis p.symbolId
  let seed ← p.checksumLevels seed .buy p.bids
  p.checksumLevels seed .sell p.asks

end PooledOrderBook
end Asterion
