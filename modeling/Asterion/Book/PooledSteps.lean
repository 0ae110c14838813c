import Asterion.Book.PooledLevels

/-! Every operation of the pooled book does what the default book does: nodes, free list, index and
levels stand for the orders at rest before and after it. -/
namespace Asterion

open Lib Lib.SortedMap Lib.LinkedPath List

namespace OrderBook
variable {b : OrderBook} {o : Order}

theorem addOrder_levels (valid : isValidRestingOrder o = true) (symbol : o.symbolId = b.symbolId)
    (fresh : b.findOrder o.orderId = none) (s : Side) :
    (b.addOrder o).1.levels s =
      if s = o.side then
        modifyEntries o.priceTicks (fun l =>
          { priceTicks := o.priceTicks, totalQuantity := l.totalQuantity + o.quantity
            orders := l.orders ++ [o] }) (emplaceEntries (before s) o.priceTicks {} (b.levels s))
      else b.levels s := by
  have side : isValidSide o.side = true := by
    simp only [isValidRestingOrder, Bool.and_eq_true] at valid
    exact valid.1.1.2
  have unknown : b.orderIndex.lookup o.orderId = none := by
    rwa [findOrder, Option.map_eq_none_iff] at fresh
  obtain ⟨b₁, found, -, -, levels₁⟩ := b.mutableLevel_spec o.priceTicks side
  obtain ⟨-, -, levels₂⟩ := b₁.updateLevel_spec o.side o.priceTicks (fun l =>
    { priceTicks := o.priceTicks, totalQuantity := l.totalQuantity + o.quantity
      orders := l.orders ++ [o] })
  unfold addOrder
  rw [if_neg (by simp [valid, symbol]), unknown, found]
  refine (levels₂ s).trans ?_
  rw [levels₁ s]
  split <;> rfl

theorem cancelOrder_levels (wf : b.WF) (ho : o ∈ b.resting) (s : Side) :
    (b.cancelOrder o.orderId).1.levels s =
      if s = o.side then
        (modifyEntries o.priceTicks (fun l =>
          { l with
            totalQuantity := l.totalQuantity - o.quantity
            orders := l.orders.filter (fun x => x.orderId ≠ o.orderId) }) (b.levels s)).filter
          (keepLevel o.priceTicks)
      else b.levels s := by
  obtain ⟨l, level, -⟩ := level_of_mem wf ho
  have found : b.mutableLevel o.locator.side o.locator.priceTicks = some b := mutableLevel_existing level
  obtain ⟨-, -, levels₁⟩ := b.updateLevel_spec o.side o.priceTicks (fun l =>
    { l with
      totalQuantity := l.totalQuantity - o.quantity
      orders := l.orders.filter (fun x => x.orderId ≠ o.orderId) })
  simp only [cancelOrder, lookup_of_mem wf ho, found, deref_locator wf ho]
  obtain ⟨-, -, levels₂⟩ := eraseLevelIfEmpty_spec
    { b.updateLevel o.side o.priceTicks (fun l =>
        { l with
          totalQuantity := l.totalQuantity - o.quantity
          orders := l.orders.filter (fun x => x.orderId ≠ o.orderId) }) with
      orderIndex := (b.updateLevel o.side o.priceTicks (fun l =>
        { l with
          totalQuantity := l.totalQuantity - o.quantity
          orders := l.orders.filter (fun x => x.orderId ≠ o.orderId) })).orderIndex.erase o.orderId }
    o.side o.priceTicks
  refine (levels₂ s).trans ?_
  have same (c : OrderBook) (index : AList fun _ : Nat => Locator) :
      ({ c with orderIndex := index } : OrderBook).levels s = c.levels s := by cases s <;> rfl
  rw [same, levels₁ s]
  split <;> rfl

theorem reduceOrder_levels (wf : b.WF) {n : Int} (ho : o ∈ b.resting) (pos : 0 < n)
    (less : n < o.quantity) (s : Side) :
    (b.reduceOrder o.orderId n).1.levels s =
      if s = o.side then
        modifyEntries o.priceTicks (fun l =>
          { l with
            totalQuantity := l.totalQuantity - n
            orders := l.orders.map (shrinkOrder o.orderId n) }) (b.levels s)
      else b.levels s := by
  obtain ⟨l, level, -⟩ := level_of_mem wf ho
  have found : b.mutableLevel o.locator.side o.locator.priceTicks = some b := mutableLevel_existing level
  obtain ⟨-, -, levels₁⟩ := b.updateLevel_spec o.side o.priceTicks (fun l =>
    { l with
      totalQuantity := l.totalQuantity - n
      orders := l.orders.map (shrinkOrder o.orderId n) })
  simp only [reduceOrder, if_neg (not_le.mpr pos), lookup_of_mem wf ho, found, deref_locator wf ho,
    if_neg (not_le.mpr less)]
  exact levels₁ s

end OrderBook

namespace PooledOrderBook

/-- The nodes that hold an order are those the index has for the orders at rest. -/
structure Filed (nodes : List OrderNode) (m : NodeMap) (resting : List Order) : Prop where
  stored : ∀ o ∈ resting, ∃ i, m.lookup o.orderId = some i ∧ (nodeAt nodes i).active = true ∧
    (nodeAt nodes i).order = o
  known : ∀ id i, m.lookup id = some i → ∃ o ∈ resting, o.orderId = id
  active : ∀ i, (nodeAt nodes i).active = true → m.lookup (nodeAt nodes i).order.orderId = some i

/-- The pooled book stands for the default book; the index holds the map. -/
structure Mirrors (p : PooledOrderBook) (b : OrderBook) (m : NodeMap) : Prop where
  wf : b.WF
  symbol : p.symbolId = b.symbolId
  index : FlatOrderIndex.Represents p.orderIndex m
  filed : Filed p.orderNodes m b.resting
  levels : ∀ side, Forall₂ (Keeps p.orderNodes m) (p.levels side) (b.levels side)
  free : ∃ cells, FreeList p.orderNodes p.freeHead cells

section Filed
variable {nodes nodes' : List OrderNode} {m : NodeMap} {resting : List Order} {o : Order} {i : Nat}
  (filed : Filed nodes m resting)
include filed

theorem Filed.at (ho : o ∈ resting) :
    m.lookup o.orderId = some (place m o.orderId) ∧
      (nodeAt nodes (place m o.orderId)).active = true ∧
      (nodeAt nodes (place m o.orderId)).order = o := by
  obtain ⟨i, lookup, active, order⟩ := filed.stored o ho
  have here : place m o.orderId = i := by rw [place, lookup]; rfl
  rw [here]
  exact ⟨lookup, active, order⟩

theorem Filed.place_inj {x : Order} (ho : o ∈ resting) (hx : x ∈ resting)
    (same : place m o.orderId = place m x.orderId) : o = x := by
  rw [← (filed.at ho).2.2, ← (filed.at hx).2.2, same]

/-- The node the index has for an id holds an order at rest of that id. -/
theorem Filed.found {id : Nat} (lookup : m.lookup id = some i) :
    ∃ o ∈ resting, o.orderId = id ∧ i = place m id ∧ (nodeAt nodes i).active = true ∧
      (nodeAt nodes i).order = o := by
  obtain ⟨o, ho, rfl⟩ := filed.known id i lookup
  obtain ⟨lookup', active, order⟩ := filed.at ho
  obtain rfl := Option.some.inj (lookup.symm.trans lookup')
  exact ⟨o, ho, rfl, rfl, active, order⟩

theorem Filed.relink (relinked : Relinked nodes nodes') : Filed nodes' m resting where
  stored o ho := by
    obtain ⟨i, lookup, active, order⟩ := filed.stored o ho
    exact ⟨i, lookup, (relinked.active i).trans active, (relinked.order i).trans order⟩
  known := filed.known
  active i active := by
    rw [relinked.order]
    exact filed.active i ((relinked.active i).symm.trans active)

theorem Filed.put {resting' : List Order} (unknown : m.lookup o.orderId = none)
    (idle : (nodeAt nodes i).active = false)
    (nodes_eq : ∀ j, nodeAt nodes' j = if j = i then fresh o else nodeAt nodes j)
    (perm : resting'.Perm (o :: resting)) : Filed nodes' (m.insert o.orderId i) resting' where
  stored x hx := by
    rcases mem_cons.mp (perm.mem_iff.mp hx) with rfl | hx
    · refine ⟨i, Finmap.lookup_insert _, ?_⟩
      rw [nodes_eq, if_pos rfl]
      exact ⟨rfl, rfl⟩
    · obtain ⟨j, lookup, active, order⟩ := filed.stored x hx
      have apart : j ≠ i := fun same => by rw [same, idle] at active; cases active
      have other : x.orderId ≠ o.orderId := fun same => by rw [same, unknown] at lookup; cases lookup
      refine ⟨j, (Finmap.lookup_insert_of_ne _ other).trans lookup, ?_⟩
      rw [nodes_eq, if_neg apart]
      exact ⟨active, order⟩
  known id j lookup := by
    by_cases same : id = o.orderId
    · exact ⟨o, perm.mem_iff.mpr mem_cons_self, same.symm⟩
    · rw [Finmap.lookup_insert_of_ne _ same] at lookup
      obtain ⟨x, hx, own⟩ := filed.known id j lookup
      exact ⟨x, perm.mem_iff.mpr (mem_cons_of_mem _ hx), own⟩
  active j active := by
    rw [nodes_eq] at active ⊢
    split at active
    · rename_i same
      rw [if_pos same, same]
      exact Finmap.lookup_insert _
    · rename_i apart
      rw [if_neg apart]
      have lookup := filed.active j active
      have other : (nodeAt nodes j).order.orderId ≠ o.orderId := fun same => by
        rw [same, unknown] at lookup
        cases lookup
      exact (Finmap.lookup_insert_of_ne _ other).trans lookup

theorem Filed.drop (ho : o ∈ resting)
    (others : ∀ j, j ≠ place m o.orderId → nodeAt nodes' j = nodeAt nodes j)
    (idle : (nodeAt nodes' (place m o.orderId)).active = false) :
    Filed nodes' (m.erase o.orderId) (dequeue o.orderId resting) where
  stored x hx := by
    obtain ⟨hx, other⟩ := mem_dequeue.mp hx
    obtain ⟨lookup, active, order⟩ := filed.at hx
    have apart : place m x.orderId ≠ place m o.orderId := fun same =>
      other (congrArg Order.orderId (filed.place_inj hx ho same))
    refine ⟨place m x.orderId, (Finmap.lookup_erase_ne other).trans lookup, ?_⟩
    rw [others _ apart]
    exact ⟨active, order⟩
  known id j lookup := by
    have other : id ≠ o.orderId := fun same => by
      rw [same, Finmap.lookup_erase] at lookup
      cases lookup
    rw [Finmap.lookup_erase_ne other] at lookup
    obtain ⟨x, hx, rfl⟩ := filed.known id j lookup
    exact ⟨x, mem_dequeue.mpr ⟨hx, other⟩, rfl⟩
  active j active := by
    have apart : j ≠ place m o.orderId := fun same => by rw [same, idle] at active; cases active
    rw [others j apart] at active ⊢
    have lookup := filed.active j active
    have other : (nodeAt nodes j).order.orderId ≠ o.orderId := fun same => by
      rw [same, (filed.at ho).1] at lookup
      exact apart (Option.some.inj lookup).symm
    exact (Finmap.lookup_erase_ne other).trans lookup

theorem Filed.shrink {n : Int} (ho : o ∈ resting)
    (nodes_eq : ∀ j, nodeAt nodes' j =
      if j = place m o.orderId then { nodeAt nodes j with order := shrinkOrder o.orderId n o }
      else nodeAt nodes j) :
    Filed nodes' m (resting.map (shrinkOrder o.orderId n)) where
  stored x hx := by
    obtain ⟨y, hy, rfl⟩ := mem_map.mp hx
    obtain ⟨lookup, active, order⟩ := filed.at hy
    refine ⟨place m y.orderId, by rw [shrinkOrder_orderId]; exact lookup, ?_⟩
    rw [nodes_eq]
    split
    · rename_i same
      rw [filed.place_inj hy ho same] at active ⊢
      exact ⟨active, rfl⟩
    · rename_i apart
      have other : y.orderId ≠ o.orderId := fun same => apart (congrArg (place m) same)
      rw [shrinkOrder_of_ne other]
      exact ⟨active, order⟩
  known id j lookup := by
    obtain ⟨x, hx, rfl⟩ := filed.known id j lookup
    exact ⟨_, mem_map_of_mem hx, shrinkOrder_orderId _ _ _⟩
  active j active := by
    rw [nodes_eq] at active ⊢
    split at active
    · rename_i same
      rw [if_pos same, shrinkOrder_orderId, same]
      exact (filed.at ho).1
    · rename_i apart
      rw [if_neg apart]
      exact filed.active j active

end Filed

section Steps
variable {p : PooledOrderBook} {b : OrderBook} {m : NodeMap} {o : Order}

@[simp] theorem levels_with (nodes : List OrderNode) (freeHead : Option Nat) (index : FlatOrderIndex)
    (s : Side) :
    ({ p with orderNodes := nodes, freeHead, orderIndex := index } : PooledOrderBook).levels s =
      p.levels s := by cases s <;> rfl

theorem withLevel_cut {side : Side} (valid : isValidSide side = true) (front back : List LevelNode)
    (level : LevelNode) (nodes : List OrderNode) (freeHead : Option Nat) (index : FlatOrderIndex)
    (work : LevelNode → List OrderNode → LevelNode × List OrderNode) :
    ({ p.setLevels side (front ++ level :: back) with
        orderNodes := nodes, freeHead, orderIndex := index }).withLevel side front.length work =
      { p.setLevels side (front ++ (work level nodes).1 :: back) with
        orderNodes := (work level nodes).2, freeHead, orderIndex := index } := by
  cases side with
  | none => cases valid
  | buy => simp [withLevel, setLevels, PooledOrderBook.levels]
  | sell => simp [withLevel, setLevels, PooledOrderBook.levels]

theorem withLevel_found {side : Side} (valid : isValidSide side = true) (front back : List LevelNode)
    (level : LevelNode) (work : LevelNode → List OrderNode → LevelNode × List OrderNode) :
    (p.setLevels side (front ++ level :: back)).withLevel side front.length work =
      { p.setLevels side (front ++ (work level p.orderNodes).1 :: back) with
        orderNodes := (work level p.orderNodes).2 } := by
  cases side with
  | none => cases valid
  | buy => simp [withLevel, setLevels, PooledOrderBook.levels]
  | sell => simp [withLevel, setLevels, PooledOrderBook.levels]

variable (h : Mirrors p b m)
include h

theorem Mirrors.mem {s : Side} {e : Int × PriceLevel} (he : e ∈ b.levels s) {x : Order}
    (hx : x ∈ e.2.orders) : x ∈ b.resting ∧ x.side = s ∧ x.priceTicks = e.1 :=
  ⟨OrderBook.mem_of_level h.wf (OrderBook.level_eq_some.mpr he) hx, (h.wf.levels s e he).filed x hx⟩

theorem Mirrors.chain_apart {s s' : Side} {e e' : Int × PriceLevel} (he : e ∈ b.levels s)
    (he' : e' ∈ b.levels s') (apart : s = s' → e.1 ≠ e'.1) {x : Order} (hx : x ∈ e.2.orders) :
    place m x.orderId ∉ chain m e'.2.orders := by
  intro mem
  obtain ⟨y, hy, same⟩ := mem_map.mp mem
  obtain ⟨rest, side, price⟩ := h.mem he hx
  obtain ⟨rest', side', price'⟩ := h.mem he' hy
  obtain rfl := h.filed.place_inj rest' rest same
  exact apart (side.symm.trans side') (price.symm.trans price')

theorem Mirrors.unknown_id {id : Nat} (absent : b.findOrder id = none) : m.lookup id = none := by
  cases lookup : m.lookup id with
  | none => rfl
  | some i =>
    obtain ⟨x, hx, own⟩ := h.filed.known _ _ lookup
    exact absurd own ((OrderBook.findOrder_eq_none h.wf).mp absent x hx)

end Steps

/-- A level that was found or created, among the levels of its side. -/
structure Opened (p : PooledOrderBook) (b : OrderBook) (m : NodeMap) (side : Side) (price : Int)
    (front back : List LevelNode) (level : LevelNode) (front' back' : List (Int × PriceLevel))
    (l : PriceLevel) : Prop extends
    Cut p.orderNodes m price front back level front' back' l where
  old : ∀ e ∈ front' ++ back', e ∈ b.levels side
  hereOrNew : (price, l) ∈ b.levels side ∨ l.orders = []

section Opened
variable {p : PooledOrderBook} {b : OrderBook} {m : NodeMap} {side : Side} {price : Int}
  {front back : List LevelNode} {level : LevelNode} {front' back' : List (Int × PriceLevel)}
  {l : PriceLevel} (h : Mirrors p b m)
include h

theorem Mirrors.open (valid : isValidSide side = true) (price : Int) :
    ∃ front level back front' l back',
      p.mutableLevel side price = some (p.setLevels side (front ++ level :: back), front.length) ∧
      emplaceEntries (before side) price {} (b.levels side) = front' ++ (price, l) :: back' ∧
      Opened p b m side price front back level front' back' l := by
  obtain ⟨front, level, back, front', l, back', found, entry, cut⟩ :=
    mutableLevel_cut valid (h.levels side) (b.levels_sorted side) price
  have entries (e : Int × PriceLevel) (he : e ∈ front' ++ (price, l) :: back') :
      e ∈ b.levels side ∨ e = (price, {}) := by
    rw [← entry] at he
    exact mem_of_mem_emplaceEntries he
  refine ⟨front, level, back, front', l, back', found, entry, ⟨cut, fun e he => ?_, ?_⟩⟩
  · refine (entries e ?_).resolve_right (fun same => cut.others e he (congrArg Prod.fst same))
    rcases mem_append.mp he with he | he
    · exact mem_append_left _ he
    · exact mem_append_right _ (mem_cons_of_mem _ he)
  · refine (entries (price, l) (by simp)).imp_right fun same => ?_
    obtain rfl : l = {} := congrArg Prod.snd same
    rfl

variable (opened : Opened p b m side price front back level front' back' l)
include opened

theorem Opened.queue {x : Order} (hx : x ∈ l.orders) : x ∈ b.resting := by
  rcases opened.hereOrNew with he | none
  · exact (h.mem he hx).1
  · rw [none] at hx
    cases hx

theorem Opened.single : (chain m l.orders).Nodup := by
  rcases opened.hereOrNew with he | none
  · have ids := OrderBook.level_ids_nodup h.wf he
    refine (Nodup.of_map _ ids).map_on fun x hx y hy same => ?_
    exact h.filed.place_inj (opened.queue h hx) (opened.queue h hy) same
  · rw [none]
    exact .nil

theorem Opened.active : ∀ i ∈ chain m l.orders, (nodeAt p.orderNodes i).active = true := by
  intro i hi
  obtain ⟨x, hx, rfl⟩ := mem_map.mp hi
  exact (h.filed.at (opened.queue h hx)).2.1

theorem Opened.apart {s : Side} {e : Int × PriceLevel} (he : e ∈ b.levels s)
    (away : s = side → e.1 ≠ price) {x : Order} (hx : x ∈ e.2.orders) :
    place m x.orderId ∉ chain m l.orders := by
  rcases opened.hereOrNew with he' | none
  · exact h.chain_apart he he' away hx
  · rw [none]
    exact not_mem_nil

theorem Opened.rework {nodes : List OrderNode} {m' : NodeMap} {level' : LevelNode} {l' : PriceLevel}
    (frame : ∀ s, ∀ e ∈ b.levels s, (s = side → e.1 ≠ price) → ∀ x ∈ e.2.orders,
      place m' x.orderId = place m x.orderId ∧ Untouched p.orderNodes nodes (place m x.orderId))
    (here : Keeps nodes m' level' (price, l')) :
    Cut nodes m' price front back level' front' back' l' ∧
      ∀ s, s ≠ side → Forall₂ (Keeps nodes m') (p.levels s) (b.levels s) := by
  refine ⟨⟨keeps_frame opened.front fun e he x hx => ?_, here,
    keeps_frame opened.back fun e he x hx => ?_, opened.others⟩, fun s other => ?_⟩
  · have he' := mem_append_left back' he
    exact frame side e (opened.old e he') (fun _ => opened.others e he') x hx
  · have he' := mem_append_right front' he
    exact frame side e (opened.old e he') (fun _ => opened.others e he') x hx
  · exact keeps_frame (h.levels s) fun e he x hx =>
      frame s e he (fun same => absurd same other) x hx

end Opened

section Join
variable {p : PooledOrderBook} {b : OrderBook} {m : NodeMap} {o : Order}
  {front back : List LevelNode} {level : LevelNode} {front' back' : List (Int × PriceLevel)}
  {l : PriceLevel} {nodes : List OrderNode} {i : Nat}
  (nodes_eq : ∀ j, nodeAt nodes j = if j = i then fresh o else nodeAt p.orderNodes j)
  (h : Mirrors p b m) (idle : (nodeAt p.orderNodes i).active = false)

include nodes_eq in
theorem fresh_untouched {j : Nat} (other : j ≠ i) : Untouched p.orderNodes nodes j := by
  unfold Untouched nextOf previousOf
  rw [nodes_eq, if_neg other]
  exact ⟨rfl, rfl⟩

include h idle in
theorem fresh_apart {x : Order} (hx : x ∈ b.resting) : place m x.orderId ≠ i := fun same => by
  rw [← same, (h.filed.at hx).2.1] at idle
  cases idle

include nodes_eq h idle in
theorem fresh_active {x : Order} (hx : x ∈ b.resting) :
    (nodeAt nodes (place m x.orderId)).active = true := by
  rw [nodes_eq, if_neg (fresh_apart h idle hx)]
  exact (h.filed.at hx).2.1

include nodes_eq in
theorem fresh_self : nodeAt nodes i = fresh o := by
  rw [nodes_eq, if_pos rfl]

include nodes_eq h idle

theorem Opened.joined (opened : Opened p b m o.side o.priceTicks front back level front' back' l) :
    Worked nodes level (appendOrder level nodes i) (i :: chain m l.orders) (chain m l.orders ++ [i]) ∧
      (appendOrder level nodes i).1.totalQuantity = level.totalQuantity + o.quantity ∧
      (appendOrder level nodes i).1.orderCount = level.orderCount + 1 := by
  have out : i ∉ chain m l.orders := fun mem => by
    obtain ⟨x, hx, same⟩ := mem_map.mp mem
    exact fresh_apart h idle (opened.queue h hx) same
  have queued : Queued nodes level (chain m l.orders) :=
    opened.here.queued.frame fun j hj => fresh_untouched nodes_eq (fun same => out (same ▸ hj))
  have active (j : Nat) (hj : j ∈ chain m l.orders) : j < nodes.length := by
    obtain ⟨x, hx, rfl⟩ := mem_map.mp hj
    exact lt_of_active (fresh_active nodes_eq h idle (opened.queue h hx))
  have self : (nodeAt nodes i).active = true := by
    rw [fresh_self nodes_eq]
    rfl
  obtain ⟨worked, total, count⟩ :=
    appendOrder_worked queued active (opened.single h) (lt_of_active self) out
  rw [fresh_self nodes_eq] at total
  exact ⟨worked, total, count⟩

/-- An order joins the queue of its level: what becomes of the level and of the other levels. -/
theorem Opened.join (opened : Opened p b m o.side o.priceTicks front back level front' back' l)
    (absent : b.findOrder o.orderId = none) :
    Cut (appendOrder level nodes i).2 (m.insert o.orderId i) o.priceTicks front back
        (appendOrder level nodes i).1 front' back'
        { priceTicks := o.priceTicks
          totalQuantity := l.totalQuantity + o.quantity
          orders := l.orders ++ [o] } ∧
      ∀ s, s ≠ o.side → Forall₂ (Keeps (appendOrder level nodes i).2 (m.insert o.orderId i))
        (p.levels s) (b.levels s) := by
  obtain ⟨worked, total, count⟩ := opened.joined nodes_eq h idle
  have placed (x : Order) (hx : x ∈ b.resting) :
      place (m.insert o.orderId i) x.orderId = place m x.orderId := by
    have other : x.orderId ≠ o.orderId := (OrderBook.findOrder_eq_none h.wf).mp absent x hx
    rw [place, Finmap.lookup_insert_of_ne _ other]
    rfl
  have chains : chain (m.insert o.orderId i) (l.orders ++ [o]) = chain m l.orders ++ [i] := by
    have own : place (m.insert o.orderId i) o.orderId = i := by
      rw [place, Finmap.lookup_insert]
      rfl
    unfold chain
    rw [map_append, map_congr_left (fun x hx => placed x (opened.queue h hx)), map_singleton, own]
  apply opened.rework h
  · intro s e he away x hx
    have apart := fresh_apart h idle (h.mem he hx).1
    have first := fresh_untouched nodes_eq apart
    have second := worked.untouched (place m x.orderId)
      (not_or.mpr ⟨apart, opened.apart h he away hx⟩ ∘ mem_cons.mp)
    exact ⟨placed x (h.mem he hx).1, second.1.trans first.1, second.2.trans first.2⟩
  · refine ⟨worked.price.trans opened.here.price, ?_, ?_, ?_⟩
    · rw [total, opened.here.total]
    · rw [count, opened.here.count, length_append]
      rfl
    · dsimp only
      rw [chains]
      exact worked.queued

end Join

section Add
variable {p : PooledOrderBook} {b : OrderBook} {m : NodeMap} {o : Order} (h : Mirrors p b m)
include h

theorem Mirrors.add (valid : isValidRestingOrder o = true) (symbol : o.symbolId = b.symbolId)
    (absent : b.findOrder o.orderId = none) :
    ∃ p' m', p.addOrder o = some (p', true) ∧ Mirrors p' (b.addOrder o).1 m' := by
  have unknown := h.unknown_id absent
  have sided : isValidSide o.side = true := by
    simp only [isValidRestingOrder, Bool.and_eq_true] at valid
    exact valid.1.1.2
  have proper : o.orderId ≠ invalidOrderId := by
    simp only [isValidRestingOrder, Bool.and_eq_true, bne_iff_ne] at valid
    exact valid.1.1.1.1
  obtain ⟨front, level, back, front', l, back', found, entry, opened⟩ := h.open sided o.priceTicks
  obtain ⟨cells, free⟩ := h.free
  have free₁ : FreeList (p.setLevels o.side (front ++ level :: back)).orderNodes
      (p.setLevels o.side (front ++ level :: back)).freeHead cells := by
    rw [setLevels_orderNodes, setLevels_freeHead]
    exact free
  obtain ⟨nodes, freeHead, i, cells', acquired, idle, nodes_eq, free'⟩ := acquireNode_spec free₁ o
  rw [setLevels_orderNodes] at idle nodes_eq
  obtain ⟨index, inserted, index'⟩ := h.index.insert o.orderId i
  have new : ¬ (o.orderId = invalidOrderId ∨ o.orderId ∈ m) := by
    rintro (bad | known)
    · exact proper bad
    · exact (Finmap.lookup_eq_none.mp unknown) known
  rw [if_neg new] at index'
  rw [decide_eq_false new] at inserted
  obtain ⟨b', added, wf, symbol', queues⟩ := OrderBook.addOrder_accepted h.wf valid symbol absent
  have levels' := OrderBook.addOrder_levels valid symbol absent
  rw [added] at levels' ⊢
  obtain ⟨worked, -, -⟩ := opened.joined nodes_eq h idle
  obtain ⟨cut, others⟩ := opened.join nodes_eq h idle absent
  refine ⟨{ p.setLevels o.side (front ++ (appendOrder level nodes i).1 :: back) with
      orderNodes := (appendOrder level nodes i).2, freeHead, orderIndex := index },
    m.insert o.orderId i, ?_, wf, ?_, index', ?_, fun s => ?_, cells', ?_⟩
  · unfold addOrder
    rw [if_neg (by simp [valid, symbol, h.symbol]), h.index.find, unknown, found]
    simp only [Option.isSome_none, Bool.false_eq_true, if_false]
    rw [acquired]
    dsimp only
    rw [setLevels_orderIndex, withLevel_cut sided]
    dsimp only
    rw [inserted]
    rfl
  · rw [setLevels_symbolId, h.symbol, symbol']
  · have perm := OrderBook.resting_perm_enqueue sided queues
    exact (h.filed.put unknown idle nodes_eq perm).relink worked.relinked
  · rw [levels_with, setLevels_levels sided, levels']
    split
    · rename_i same
      subst same
      rw [entry, modifyEntries_cut opened.others]
      exact cut.forall₂
    · rename_i other
      exact others s other
  · refine free'.frame worked.relinked fun j idle' => ?_
    refine (worked.untouched j fun mem => ?_).1
    rcases mem_cons.mp mem with rfl | mem
    · rw [fresh_self nodes_eq] at idle'
      cases idle'
    · obtain ⟨x, hx, rfl⟩ := mem_map.mp mem
      rw [fresh_active nodes_eq h idle (opened.queue h hx)] at idle'
      cases idle'

end Add

section Resting
variable {p : PooledOrderBook} {b : OrderBook} {m : NodeMap} {o : Order} (h : Mirrors p b m)
  (ho : o ∈ b.resting)
include h ho

theorem Mirrors.sided : isValidSide o.side = true :=
  OrderBook.valid_side ((OrderBook.mem_resting h.wf).mp ho)

theorem Mirrors.openAt :
    ∃ front level back front' l back',
      p.mutableLevel o.side o.priceTicks =
        some (p.setLevels o.side (front ++ level :: back), front.length) ∧
      b.levels o.side = front' ++ (o.priceTicks, l) :: back' ∧ o ∈ l.orders ∧
      Opened p b m o.side o.priceTicks front back level front' back' l := by
  obtain ⟨front, level, back, front', l, back', found, entry, opened⟩ :=
    h.open (h.sided ho) o.priceTicks
  obtain ⟨l', there, holds⟩ := OrderBook.level_of_mem h.wf ho
  have mem := OrderBook.level_eq_some.mp there
  rw [emplaceEntries_present (b.levels_sorted o.side) mem] at entry
  refine ⟨front, level, back, front', l, back', found, entry, ?_, opened⟩
  rw [entry] at mem
  rcases mem_append.mp mem with mem | mem
  · exact absurd rfl (opened.others _ (mem_append_left _ mem))
  · rcases mem_cons.mp mem with same | mem
    · obtain rfl : l' = l := congrArg Prod.snd same
      exact holds
    · exact absurd rfl (opened.others _ (mem_append_right _ mem))

theorem Mirrors.find_index : p.orderIndex.find o.orderId = some (place m o.orderId) := by
  rw [h.index.find]
  exact (h.filed.at ho).1

end Resting

theorem Cut.front_apart {nodes : List OrderNode} {m : NodeMap} {price : Int}
    {front back : List LevelNode} {level : LevelNode} {front' back' : List (Int × PriceLevel)}
    {l : PriceLevel} (cut : Cut nodes m price front back level front' back' l) :
    ∀ level' ∈ front, level'.priceTicks ≠ price := by
  intro level' mem
  obtain ⟨k, hk, rfl⟩ := getElem_of_mem mem
  have hk' : k < front'.length := cut.front.length_eq ▸ hk
  have keeps : Keeps nodes m front[k] front'[k] := cut.front.get hk hk'
  rw [keeps.price]
  exact cut.others _ (mem_append_left _ (getElem_mem hk'))

section Leave
variable {p : PooledOrderBook} {b : OrderBook} {m : NodeMap} {o : Order}
  {front back : List LevelNode} {level : LevelNode} {front' back' : List (Int × PriceLevel)}
  {l : PriceLevel} (h : Mirrors p b m) (ho : o ∈ b.resting)
include h ho

omit h ho in
theorem place_erase {x : Order} (other : x.orderId ≠ o.orderId) :
    place (m.erase o.orderId) x.orderId = place m x.orderId := by
  rw [place, Finmap.lookup_erase_ne other]
  rfl

omit h ho in
theorem queue_without {orders pre post : List Order} (split : orders = pre ++ o :: post)
    (ids : (orders.map (·.orderId)).Nodup) :
    (∀ x ∈ pre ++ post, x.orderId ≠ o.orderId) ∧
      orders.filter (fun x => x.orderId ≠ o.orderId) = pre ++ post := by
  have others (x : Order) (hx : x ∈ pre ++ post) : x.orderId ≠ o.orderId := fun same => by
    rw [split, map_append, map_cons] at ids
    refine (nodup_cons.mp (nodup_middle.mp ids)).1 ?_
    rw [← map_append, ← same]
    exact mem_map_of_mem hx
  refine ⟨others, ?_⟩
  rw [split, filter_append, filter_cons, if_neg (by simp), ← filter_append]
  exact filter_eq_self.mpr (fun x hx => by simpa using others x hx)

/-- An order leaves the queue of its level and its node the orders: what is left of the level, of the
other levels, of the nodes and of the free list. -/
theorem Opened.leave (opened : Opened p b m o.side o.priceTicks front back level front' back' l)
    (entry : b.levels o.side = front' ++ (o.priceTicks, l) :: back') (holds : o ∈ l.orders) :
    ∃ work nodes cells,
      unlinkOrder { level with totalQuantity := level.totalQuantity - o.quantity } p.orderNodes
        (place m o.orderId) = work ∧
      (∀ ls index, releaseNode
        { p.setLevels o.side ls with orderNodes := work.2, freeHead := p.freeHead, orderIndex := index }
        (place m o.orderId) =
        { p.setLevels o.side ls with
          orderNodes := nodes, freeHead := some (place m o.orderId), orderIndex := index }) ∧
      Filed nodes (m.erase o.orderId) (dequeue o.orderId b.resting) ∧
      Cut nodes (m.erase o.orderId) o.priceTicks front back work.1 front' back'
        { l with
          totalQuantity := l.totalQuantity - o.quantity
          orders := l.orders.filter (fun x => x.orderId ≠ o.orderId) } ∧
      (∀ s, s ≠ o.side → Forall₂ (Keeps nodes (m.erase o.orderId)) (p.levels s) (b.levels s)) ∧
      FreeList nodes (some (place m o.orderId)) cells := by
  obtain ⟨i, own⟩ : ∃ i, i = place m o.orderId := ⟨_, rfl⟩
  obtain ⟨lookup, active, order⟩ := h.filed.at ho
  rw [← own] at lookup active order ⊢
  obtain ⟨pre, post, split⟩ := append_of_mem holds
  have chains : chain m l.orders = chain m pre ++ i :: chain m post := by
    rw [split, chain, map_append, map_cons, ← own]
    rfl
  have single := opened.single h
  have busy := opened.active h
  have queued : Queued p.orderNodes
      { level with totalQuantity := level.totalQuantity - o.quantity } (chain m l.orders) :=
    opened.here.queued
  rw [chains] at single busy queued
  have middle (j : Nat) (hj : j ∈ chain m pre ++ chain m post) : j ∈ chain m pre ++ i :: chain m post :=
    perm_middle.mem_iff.mpr (mem_cons_of_mem _ hj)
  have left : i ∉ chain m pre ++ chain m post := (nodup_cons.mp (nodup_middle.mp single)).1
  obtain ⟨worked, total, count⟩ :=
    unlinkOrder_worked queued (fun j hj => lt_of_active (busy j hj)) single
  obtain ⟨work, working⟩ : ∃ work, unlinkOrder
    { level with totalQuantity := level.totalQuantity - o.quantity } p.orderNodes i = work := ⟨_, rfl⟩
  rw [working] at worked total count
  obtain ⟨cells, free⟩ := h.free
  have free' : FreeList work.2 p.freeHead cells :=
    free.frame worked.relinked fun j idle => (worked.untouched j fun mem => by
      rw [busy j (middle j mem)] at idle
      cases idle).1
  obtain ⟨nodes, released, nodes_eq, idle, free''⟩ :=
    releaseNode_spec free' ((worked.relinked.active i).trans active)
  have keep (j : Nat) (other : j ≠ i) : Untouched work.2 nodes j := by
    unfold Untouched nextOf previousOf
    rw [nodes_eq j other]
    exact ⟨rfl, rfl⟩
  have ids : (l.orders.map (·.orderId)).Nodup := by
    have here : (o.priceTicks, l) ∈ b.levels o.side := by simp [entry]
    exact OrderBook.level_ids_nodup h.wf here
  obtain ⟨others, rest⟩ := queue_without split ids
  have chains' : chain (m.erase o.orderId) (pre ++ post) = chain m pre ++ chain m post := by
    unfold chain
    rw [map_congr_left (fun x hx => place_erase (others x hx)), map_append]
  have here : Keeps nodes (m.erase o.orderId) work.1
      (o.priceTicks, { l with
        totalQuantity := l.totalQuantity - o.quantity
        orders := l.orders.filter (fun x => x.orderId ≠ o.orderId) }) := by
    refine ⟨worked.price.trans opened.here.price, ?_, ?_, ?_⟩
    · rw [total, opened.here.total]
    · rw [count, opened.here.count, rest, split]
      simp
    · dsimp only
      rw [rest, chains']
      exact worked.queued.frame fun j hj => keep j (fun same => left (same ▸ hj))
  obtain ⟨cut, others'⟩ := opened.rework h (fun s e he away x hx => by
    have notHere := opened.apart h he away hx
    rw [chains] at notHere
    have notSelf : place m x.orderId ≠ i := fun same => notHere (by rw [same]; simp)
    have other : x.orderId ≠ o.orderId := fun same => notSelf (by rw [same, own])
    have first := worked.untouched (place m x.orderId) (fun mem => notHere (middle _ mem))
    have second := keep _ notSelf
    exact ⟨place_erase other, second.1.trans first.1, second.2.trans first.2⟩) here
  refine ⟨work, nodes, i :: cells, working, fun ls index => ?_, ?_, cut, others', free''⟩
  · exact released _ rfl rfl
  · have relinked := h.filed.relink worked.relinked
    refine relinked.drop ho ?_ ?_
    · rw [← own]
      exact nodes_eq
    · rw [← own]
      exact idle

theorem Mirrors.cancel :
    ∃ p' m', p.cancelOrder o.orderId = (p', true) ∧ Mirrors p' (b.cancelOrder o.orderId).1 m' := by
  have sided := h.sided ho
  obtain ⟨front, level, back, front', l, back', found, entry, holds, opened⟩ := h.openAt ho
  obtain ⟨work, nodes, cells, working, released, filed, cut, others, free⟩ :=
    opened.leave h ho entry holds
  obtain ⟨index', -⟩ := h.index.erase o.orderId
  rw [if_pos (Finmap.mem_iff.mpr ⟨_, (h.filed.at ho).1⟩)] at index'
  obtain ⟨b', cancelled, wf, symbol', queues⟩ := OrderBook.cancelOrder_resting h.wf ho
  have levels' := OrderBook.cancelOrder_levels h.wf ho
  rw [cancelled] at levels' ⊢
  have resting : b'.resting = dequeue o.orderId b.resting := by
    simp only [OrderBook.resting, queues, dequeue, filter_append]
  obtain ⟨q, hq⟩ : ∃ q : PooledOrderBook, q =
      { p.setLevels o.side (front ++ work.1 :: back) with
        orderNodes := nodes, freeHead := some (place m o.orderId)
        orderIndex := (p.orderIndex.erase o.orderId).1 } := ⟨_, rfl⟩
  have levels_eq : q.levels o.side = front ++ work.1 :: back := by
    rw [hq, levels_with, setLevels_levels sided, if_pos rfl]
  have erased := eraseLevelIfEmpty_eq sided levels_eq cut.here.price cut.front_apart
  refine ⟨q.setLevels o.side
      (if work.1.orderCount = 0 then front ++ back else front ++ work.1 :: back),
    m.erase o.orderId, ?_, wf, ?_, ?_, ?_, fun s => ?_, cells, ?_⟩
  · rw [← erased, hq, ← released]
    unfold cancelOrder
    rw [h.find_index ho]
    dsimp only
    rw [(h.filed.at ho).2.2, found]
    dsimp only
    rw [withLevel_found sided]
    dsimp only
    rw [working, setLevels_orderIndex, setLevels_freeHead]
  · rw [setLevels_symbolId, hq, symbol', ← h.symbol]
    exact setLevels_symbolId _ _
  · rw [setLevels_orderIndex, hq]
    exact index'
  · rw [setLevels_orderNodes, hq, resting]
    exact filed
  · rw [setLevels_orderNodes, setLevels_levels sided, levels', hq, levels_with]
    split
    · rename_i same
      subst same
      rw [entry, modifyEntries_cut opened.others]
      exact cut.erase
    · rename_i other
      rw [setLevels_levels sided, if_neg other]
      exact others s other
  · rw [setLevels_orderNodes, setLevels_freeHead, hq]
    exact free

theorem Mirrors.reduce {n : Int} (pos : 0 < n) (less : n < o.quantity) :
    ∃ p', p.reduceOrder o.orderId n = (p', true) ∧ Mirrors p' (b.reduceOrder o.orderId n).1 m := by
  have sided := h.sided ho
  obtain ⟨lookup, active, order⟩ := h.filed.at ho
  obtain ⟨front, level, back, front', l, back', found, entry, holds, opened⟩ := h.openAt ho
  obtain ⟨b', reduced, wf, symbol', queues⟩ := OrderBook.reduceOrder_partial h.wf ho pos less
  have levels' := OrderBook.reduceOrder_levels h.wf ho pos less
  rw [reduced] at levels' ⊢
  have resting : b'.resting = b.resting.map (shrinkOrder o.orderId n) := by
    simp only [OrderBook.resting, queues, shrink_eq_map, map_append]
  obtain ⟨nodes, written⟩ : ∃ nodes, nodes = p.orderNodes.modify (place m o.orderId) (fun node =>
    { node with order.quantity := node.order.quantity - n }) := ⟨_, rfl⟩
  have nodes_eq (j : Nat) : nodeAt nodes j =
      if j = place m o.orderId then { nodeAt p.orderNodes j with order := shrinkOrder o.orderId n o }
      else nodeAt p.orderNodes j := by
    rw [written, nodeAt_modify _ (lt_of_active active)]
    split
    · rename_i same
      rw [same, order, shrinkOrder, if_pos rfl]
    · rfl
  have untouched (j : Nat) : Untouched p.orderNodes nodes j := by
    unfold Untouched nextOf previousOf
    rw [nodes_eq]
    split <;> exact ⟨rfl, rfl⟩
  have here : Keeps nodes m { level with totalQuantity := level.totalQuantity - n }
      (o.priceTicks, { l with
        totalQuantity := l.totalQuantity - n, orders := l.orders.map (shrinkOrder o.orderId n) }) := by
    refine ⟨opened.here.price, ?_, ?_, ?_⟩
    · exact congrArg (· - n) opened.here.total
    · rw [length_map]
      exact opened.here.count
    · have chains : chain m (l.orders.map (shrinkOrder o.orderId n)) = chain m l.orders := by
        simp [chain]
      dsimp only
      rw [chains]
      exact opened.here.queued.frame (fun j _ => untouched j)
  obtain ⟨cut, others⟩ := opened.rework h (fun _ _ _ _ x _ => ⟨rfl, untouched _⟩) here
  obtain ⟨cells, free⟩ := h.free
  refine ⟨{ p.setLevels o.side
      (front ++ { level with totalQuantity := level.totalQuantity - n } :: back) with
      orderNodes := nodes }, ?_, wf, ?_, ?_, ?_, fun s => ?_, cells, ?_⟩
  · unfold reduceOrder
    rw [if_neg (not_le.mpr pos), h.find_index ho]
    dsimp only
    rw [order, if_neg (not_le.mpr less), found]
    dsimp only
    rw [withLevel_found sided, written]
  · rw [setLevels_symbolId, h.symbol, symbol']
  · rw [setLevels_orderIndex]
    exact h.index
  · rw [resting]
    exact h.filed.shrink ho nodes_eq
  · rw [levels_with, setLevels_levels sided, levels']
    split
    · rename_i same
      subst same
      rw [entry, modifyEntries_cut opened.others]
      exact cut.forall₂
    · rename_i other
      exact others s other
  · rw [setLevels_freeHead]
    refine free.path.congr (fun j _ => (untouched j).1) |> fun path => ⟨path, free.single, fun j => ?_⟩
    rw [free.mem, written, length_modify, ← written, nodes_eq]
    split <;> rfl

end Leave

end PooledOrderBook
end Asterion
