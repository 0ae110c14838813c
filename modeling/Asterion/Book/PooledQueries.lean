import Asterion.Book.PooledSteps

/-! What a pooled book answers while it stands for a default book: the queries, the checksum through the
links, and the walk of its invariant check, which ends and finds nothing. -/
namespace Asterion.PooledOrderBook

open Lib Lib.SortedMap Lib.Buckets Lib.LinkedPath List

variable {p : PooledOrderBook} {b : OrderBook} {m : NodeMap}

section Lists
variable {nodes : List OrderNode} {ls : List LevelNode} {es : List (Int × PriceLevel)}

theorem keeps_head (keeps : Forall₂ (Keeps nodes m) ls es) :
    ls.head?.map (·.priceTicks) = es.head?.map Prod.fst := by
  cases keeps with
  | nil => rfl
  | cons first rest => exact congrArg some first.price

theorem keeps_front (keeps : Forall₂ (Keeps nodes m) ls es)
    (held : ∀ e ∈ es, ∀ o ∈ e.2.orders, (nodeAt nodes (place m o.orderId)).order = o) :
    (ls.head?.bind (fun level => level.head.map (fun i => (nodeAt nodes i).order))) =
      es.head?.bind (fun e => e.2.orders.head?) := by
  cases keeps with
  | nil => rfl
  | @cons level e ls es first rest =>
    have head := first.queued.forward.head
    change level.head.map (fun i => (nodeAt nodes i).order) = e.2.orders.head?
    rw [head, chain, head?_map]
    cases orders : e.2.orders with
    | nil => rfl
    | cons o os =>
      have ho : o ∈ e.2.orders := by rw [orders]; exact mem_cons_self
      exact congrArg some (held e mem_cons_self o ho)

theorem keeps_find (keeps : Forall₂ (Keeps nodes m) ls es) (price : Int) :
    (findLevel ls price).map (·.totalQuantity) =
      ((es.find? (fun e => e.1 = price)).map Prod.snd).map (·.totalQuantity) := by
  unfold findLevel
  induction keeps with
  | nil => rfl
  | @cons level e ls es first rest ih =>
    have here := first.price
    by_cases same : e.1 = price
    · simp [here, same, first.total]
    · simpa [here, same] using ih

theorem keeps_l2 (keeps : Forall₂ (Keeps nodes m) ls es) :
    ls.map (fun level => (⟨level.priceTicks, level.totalQuantity⟩ : L2Level)) =
      es.map (fun e => ⟨e.1, e.2.totalQuantity⟩) := by
  induction keeps with
  | nil => rfl
  | cons first rest ih =>
    rw [map_cons, map_cons, ih, first.price, first.total]

end Lists

section Queries
variable (h : Mirrors p b m)
include h

theorem Mirrors.bestBid_eq : p.bestBid = b.bestBid := keeps_head (h.levels .buy)

theorem Mirrors.bestAsk_eq : p.bestAsk = b.bestAsk := keeps_head (h.levels .sell)

theorem Mirrors.bestOrder_eq (side : Side) : p.bestOrder side = b.bestOrder side :=
  keeps_front (h.levels side) (fun _ he _ ho => (h.filed.at (h.mem he ho).1).2.2)

theorem Mirrors.totalQuantityAt_eq (side : Side) (price : Int) :
    p.totalQuantityAt side price = b.totalQuantityAt side price := by
  unfold totalQuantityAt OrderBook.totalQuantityAt
  cases side with
  | none => rfl
  | buy => exact congrArg (Option.getD · 0) (keeps_find (h.levels .buy) price)
  | sell => exact congrArg (Option.getD · 0) (keeps_find (h.levels .sell) price)

theorem Mirrors.l2Levels_eq (side : Side) (depth : Nat) :
    l2Levels (p.levels side) depth = OrderBook.l2Levels (b.levels side) depth :=
  keeps_l2 (forall₂_take depth (h.levels side))

theorem Mirrors.l2View_eq (depth : Nat) : p.l2View depth = b.l2View depth := by
  unfold l2View OrderBook.l2View
  rw [h.symbol]
  congr 1
  · exact h.l2Levels_eq .buy depth
  · exact h.l2Levels_eq .sell depth

theorem Mirrors.size_eq : p.orderIndex.size = b.resting.length := by
  rw [h.index.size, ← length_map (·.orderId), ← toFinset_card_of_nodup h.wf.ids]
  congr 1
  ext id
  rw [Finmap.mem_keys, mem_toFinset, mem_map]
  constructor
  · intro known
    obtain ⟨i, lookup⟩ := Finmap.mem_iff.mp known
    exact h.filed.known id i lookup
  · rintro ⟨o, ho, rfl⟩
    exact Finmap.mem_iff.mpr ⟨_, (h.filed.at ho).1⟩

theorem Mirrors.orderCount_eq : p.orderCount = b.orderCount :=
  h.size_eq.trans (OrderBook.orderCount_eq h.wf).symm

end Queries

section Walks
variable (h : Mirrors p b m) {side : Side} {e : Int × PriceLevel} (he : e ∈ b.levels side)
include h he

/-- No queue is longer than there are nodes, so no loop over one stops early. -/
theorem Mirrors.queue_length : e.2.orders.length ≤ p.orderNodes.length := by
  have single : (chain m e.2.orders).Nodup := by
    have ids := OrderBook.level_ids_nodup h.wf he
    refine (Nodup.of_map _ ids).map_on fun x hx y hy same => ?_
    exact h.filed.place_inj (h.mem he hx).1 (h.mem he hy).1 same
  have within : chain m e.2.orders ⊆ range p.orderNodes.length := by
    intro i hi
    obtain ⟨x, hx, rfl⟩ := mem_map.mp hi
    exact mem_range.mpr (lt_of_active (h.filed.at (h.mem he hx).1).2.1)
  have least := (single.subperm within).length_le
  rwa [length_range, chain, length_map] at least

theorem Mirrors.visitQueue_eq {S : Type} (visit : S → Order → S) {orders : List Order}
    (queue : ∀ o ∈ orders, o ∈ e.2.orders)
    {head : Option Nat} (path : Path (nextOf p.orderNodes) head (chain m orders)) {visits : Nat}
    (enough : orders.length ≤ visits) (s : S) :
    visitQueue visit p.orderNodes visits head s = some (orders.foldl visit s) := by
  induction orders generalizing head visits s with
  | nil =>
    rw [path_nil.mp path]
    cases visits <;> rfl
  | cons o orders ih =>
    cases visits with
    | zero => cases enough
    | succ visits =>
      have here := (h.filed.at (h.mem he (queue o mem_cons_self)).1).2.2
      have rest := ih (fun x hx => queue x (mem_cons_of_mem _ hx)) path.2
        (Nat.le_of_succ_le_succ enough) (visit s o)
      rw [path.1, visitQueue, here, foldl_cons]
      exact rest

theorem Mirrors.checksumLevel_eq {level : LevelNode} (keeps : Keeps p.orderNodes m level e)
    (seed : UInt64) : p.checksumLevel seed level = some (OrderBook.checksumLevel seed e) := by
  have walked := h.visitQueue_eq he OrderBook.checksumOrder (fun _ ho => ho) keeps.queued.forward
    (h.queue_length he)
  simp only [checksumLevel, OrderBook.checksumLevel, keeps.price, keeps.total, keeps.count, walked]

end Walks

section Checksum
variable (h : Mirrors p b m)
include h

theorem Mirrors.checksumLevels_eq (side : Side) (seed : UInt64) :
    p.checksumLevels seed side (p.levels side) =
      some (OrderBook.checksumLevels seed side (b.levels side)) := by
  have loop {ls : List LevelNode} {es : List (Int × PriceLevel)}
      (keeps : Forall₂ (Keeps p.orderNodes m) ls es) (old : ∀ e ∈ es, e ∈ b.levels side)
      (seed : UInt64) :
      ls.foldlM p.checksumLevel seed = some (es.foldl OrderBook.checksumLevel seed) := by
    induction keeps generalizing seed with
    | nil => rfl
    | cons first rest ih =>
      rw [foldlM_cons, h.checksumLevel_eq (old _ mem_cons_self) first]
      exact ih (fun e he => old e (mem_cons_of_mem _ he)) _
  unfold checksumLevels OrderBook.checksumLevels
  rw [(h.levels side).length_eq]
  exact loop (h.levels side) (fun _ he => he) _

theorem Mirrors.checksum_eq : p.checksum = some b.checksum := by
  have bids (seed : UInt64) : p.checksumLevels seed .buy p.bids = some _ := h.checksumLevels_eq .buy seed
  have asks (seed : UInt64) : p.checksumLevels seed .sell p.asks = some _ := h.checksumLevels_eq .sell seed
  unfold checksum OrderBook.checksum
  rw [h.symbol]
  simp only [bids, asks, Option.bind_eq_bind, Option.bind_some]
  rfl

end Checksum

section Check
variable (h : Mirrors p b m) {side : Side} {e : Int × PriceLevel} {level : LevelNode}
include h

theorem Mirrors.checkNode_clean {o : Order} (ho : o ∈ b.resting) {price : Int}
    (filed : o.side = side ∧ o.priceTicks = price) (s : CheckState) (unseen : o.orderId ∉ s.seen)
    (back : previousOf p.orderNodes (place m o.orderId) = s.previousNode) :
    p.checkNode side price s (place m o.orderId) =
      { s with
        seen := insert o.orderId s.seen
        childSum := s.childSum + o.quantity
        childCount := s.childCount + 1
        previousNode := some (place m o.orderId) } := by
  obtain ⟨-, active, order⟩ := h.filed.at ho
  have pos := OrderBook.quantity_pos h.wf ho
  have idle : ¬ (nodeAt p.orderNodes (place m o.orderId)).active = false := by rw [active]; decide
  have link : ¬ (nodeAt p.orderNodes (place m o.orderId)).previous ≠ s.previousNode := not_not.mpr back
  have small : ¬ o.quantity ≤ 0 := by omega
  have misfiled : ¬ (o.side ≠ side ∨ o.priceTicks ≠ price) := by
    rintro (other | other)
    · exact other filed.1
    · exact other filed.2
  have own : ¬ (place m o.orderId ≠ place m o.orderId) := fun other => other rfl
  unfold checkNode
  simp only [order, h.find_index ho, violationIf_neg idle, violationIf_neg link, violationIf_neg small,
    violationIf_neg unseen, violationIf_neg misfiled, violationIf_neg own]

theorem Mirrors.checkQueue_clean (he : e ∈ b.levels side) (keeps : Keeps p.orderNodes m level e)
    {done rest : List Order} (split : e.2.orders = done ++ rest) {visits : Nat}
    (enough : rest.length ≤ visits) (s : CheckState) (unseen : ∀ o ∈ rest, o.orderId ∉ s.seen)
    (last : s.previousNode = (chain m done).getLast?) :
    p.checkQueue side e.1 visits (chain m rest).head? s =
      some { s with
        seen := s.seen ∪ (rest.map (·.orderId)).toFinset
        childSum := s.childSum + (rest.map (·.quantity)).sum
        childCount := s.childCount + rest.length
        previousNode := (chain m e.2.orders).getLast? } := by
  induction rest generalizing done visits s with
  | nil =>
    have whole : e.2.orders = done := by rw [split, append_nil]
    rw [whole, ← last]
    cases visits <;> simp [chain, checkQueue]
  | cons o rest ih =>
    cases visits with
    | zero => cases enough
    | succ visits =>
      have ho : o ∈ e.2.orders := by rw [split]; simp
      obtain ⟨resting, filed⟩ := h.mem he ho
      have queued := keeps.queued
      rw [split, chain, map_append, map_cons] at queued
      obtain ⟨back, next⟩ := queued.neighbours
      have within : ¬ place m o.orderId ≥ p.orderNodes.length :=
        not_le.mpr (lt_of_active (h.filed.at resting).2.1)
      have once : o.orderId ∉ rest.map (·.orderId) := by
        have ids := OrderBook.level_ids_nodup h.wf he
        rw [split, map_append, map_cons] at ids
        exact (nodup_cons.mp (nodup_append.mp ids).2.1).1
      have clean := h.checkNode_clean resting filed s (unseen o mem_cons_self) (back.trans last.symm)
      rw [chain, map_cons, head?_cons, checkQueue, if_neg within, clean]
      change p.checkQueue side e.1 visits (nextOf p.orderNodes (place m o.orderId)) _ = _
      rw [next]
      have split' : e.2.orders = (done ++ [o]) ++ rest := by rw [split]; simp
      have walked := ih split' (Nat.le_of_succ_le_succ enough)
        { s with
          seen := insert o.orderId s.seen
          childSum := s.childSum + o.quantity
          childCount := s.childCount + 1
          previousNode := some (place m o.orderId) }
        (fun x hx seen => by
          rcases Finset.mem_insert.mp seen with same | seen
          · exact once (same ▸ mem_map_of_mem hx)
          · exact unseen x (mem_cons_of_mem _ hx) seen)
        (by simp [chain])
      refine walked.trans ?_
      simp only [map_cons, sum_cons, toFinset_cons, Finset.insert_union, Finset.union_insert,
        length_cons, add_assoc, Nat.add_comm 1]

theorem Mirrors.checkLevel_clean (he : e ∈ b.levels side) (keeps : Keeps p.orderNodes m level e)
    (s : CheckState) (unseen : ∀ o ∈ e.2.orders, o.orderId ∉ s.seen)
    (sorted : ∀ q, s.previousPrice = some q → before side q e.1) :
    p.checkLevel side s level =
      some { s with
        seen := s.seen ∪ (e.2.orders.map (·.orderId)).toFinset
        previousPrice := some e.1
        childSum := (e.2.orders.map (·.quantity)).sum
        childCount := e.2.orders.length
        previousNode := (chain m e.2.orders).getLast? } := by
  have wf := h.wf.levels side e he
  have some_ : ¬ (level.orderCount = 0 ∨ level.head = none ∨ level.tail = none) := by
    obtain ⟨o, os, orders⟩ := exists_cons_of_ne_nil wf.nonempty
    rw [keeps.count, keeps.queued.forward.head, keeps.queued.tail_eq, orders]
    simp [chain]
  have bids : ¬ (side = .buy ∧ s.previousPrice.any (fun q => q ≤ level.priceTicks)) := by
    rintro ⟨rfl, worse⟩
    cases previous : s.previousPrice with
    | none => rw [previous] at worse; cases worse
    | some q =>
      have better := sorted q previous
      rw [previous, Option.any_some, decide_eq_true_eq, keeps.price] at worse
      exact absurd better (not_lt.mpr worse)
  have asks : ¬ (side = .sell ∧ s.previousPrice.any (fun q => q ≥ level.priceTicks)) := by
    rintro ⟨rfl, worse⟩
    cases previous : s.previousPrice with
    | none => rw [previous] at worse; cases worse
    | some q =>
      have better := sorted q previous
      rw [previous, Option.any_some, decide_eq_true_eq, keeps.price] at worse
      exact absurd better (not_lt.mpr worse)
  have split : e.2.orders = [] ++ e.2.orders := rfl
  have walked := h.checkQueue_clean he keeps split (h.queue_length he)
    { s with previousPrice := some e.1, childSum := 0, childCount := 0, previousNode := none } unseen rfl
  have ends : ¬ ((chain m e.2.orders).getLast? ≠ level.tail) := by
    rw [keeps.queued.tail_eq]
    exact not_not.mpr rfl
  have counted : ¬ (0 + e.2.orders.length ≠ level.orderCount) := by
    rw [keeps.count, Nat.zero_add]
    exact not_not.mpr rfl
  have summed : ¬ (0 + (e.2.orders.map (·.quantity)).sum ≠ level.totalQuantity) := by
    rw [keeps.total, wf.total, zero_add]
    exact not_not.mpr rfl
  unfold checkLevel
  dsimp only
  rw [violationIf_neg some_, violationIf_neg bids, violationIf_neg asks, keeps.price,
    keeps.queued.forward.head, walked, Option.map_some]
  dsimp only
  rw [violationIf_neg ends, violationIf_neg counted, violationIf_neg summed, zero_add, Nat.zero_add]

theorem Mirrors.checkLevels_loop {ls : List LevelNode} {es : List (Int × PriceLevel)}
    (keeps : Forall₂ (Keeps p.orderNodes m) ls es) (old : ∀ e ∈ es, e ∈ b.levels side)
    (sorted : es.Pairwise (fun a c => before side a.1 c.1))
    (ids : ((flat PriceLevel.orders es).map (·.orderId)).Nodup) (s : CheckState)
    (unseen : ∀ o ∈ flat PriceLevel.orders es, o.orderId ∉ s.seen)
    (better : ∀ q, s.previousPrice = some q → ∀ e ∈ es, before side q e.1) :
    ∃ s', ls.foldlM (p.checkLevel side) s = some s' ∧ s'.report = s.report ∧
      s'.seen = s.seen ∪ ((flat PriceLevel.orders es).map (·.orderId)).toFinset := by
  induction keeps generalizing s with
  | nil => exact ⟨s, rfl, rfl, by simp [flat]⟩
  | @cons level e ls es first rest ih =>
    rw [flat_cons, map_append, nodup_append] at ids
    have clean := h.checkLevel_clean (old e mem_cons_self) first s
      (fun o ho => unseen o (mem_append_left _ ho)) (fun q hq => better q hq e mem_cons_self)
    obtain ⟨s', walked, report, seen⟩ := ih (fun e he => old e (mem_cons_of_mem _ he)) sorted.of_cons
      ids.2.1
      { s with
        seen := s.seen ∪ (e.2.orders.map (·.orderId)).toFinset
        previousPrice := some e.1
        childSum := (e.2.orders.map (·.quantity)).sum
        childCount := e.2.orders.length
        previousNode := (chain m e.2.orders).getLast? }
      (by
        intro o ho seen
        rcases Finset.mem_union.mp seen with seen | seen
        · exact unseen o (mem_append_right _ ho) seen
        · exact ids.2.2 _ (mem_toFinset.mp seen) _ (mem_map_of_mem ho) rfl)
      (by
        rintro q hq e' he'
        obtain rfl : e.1 = q := Option.some.inj hq
        exact rel_of_pairwise_cons sorted he')
    refine ⟨s', ?_, report, seen.trans ?_⟩
    · rw [foldlM_cons, clean]
      exact walked
    · simp only [flat_cons, map_append, toFinset_append, Finset.union_assoc]

theorem Mirrors.checkLevels_clean (side : Side) (s : CheckState)
    (unseen : ∀ o ∈ b.queue side, o.orderId ∉ s.seen) :
    ∃ s', p.checkLevels side s = some s' ∧ s'.report = s.report ∧
      s'.seen = s.seen ∪ ((b.queue side).map (·.orderId)).toFinset := by
  have ids : ((b.queue side).map (·.orderId)).Nodup := by
    have all := h.wf.ids
    rw [OrderBook.resting, map_append, nodup_append] at all
    cases side with
    | none => exact .nil
    | buy => exact all.1
    | sell => exact all.2.1
  exact h.checkLevels_loop (h.levels side) (fun _ he => he) (b.levels_sorted side) ids
    { s with previousPrice := none } unseen (fun q hq => by cases hq)

theorem Mirrors.checkStored_clean {seen : Finset Nat} (all : ∀ o ∈ b.resting, o.orderId ∈ seen)
    (report : BookInvariantReport) (i : Nat) : p.checkStoredNode seen report i = report := by
  unfold checkStoredNode
  cases active : (nodeAt p.orderNodes i).active with
  | false => simp [active]
  | true =>
    have lookup := h.filed.active i active
    obtain ⟨o, ho, own, -, -, order⟩ := h.filed.found lookup
    have met : ¬ (nodeAt p.orderNodes i).order.orderId ∉ seen := not_not.mpr (own ▸ all o ho)
    have indexed : ¬ p.orderIndex.find (nodeAt p.orderNodes i).order.orderId ≠ some i := by
      rw [h.index.find]
      exact not_not.mpr lookup
    simp only [violationIf_neg met, violationIf_neg indexed, ite_self]

/-- The check ends and finds nothing. -/
theorem Mirrors.checkInvariants_clean : p.checkInvariants = some {} := by
  have ids := h.wf.ids
  rw [OrderBook.resting, map_append, nodup_append] at ids
  obtain ⟨s, bids, report, seen⟩ := h.checkLevels_clean .buy {} (fun _ _ => Finset.notMem_empty _)
  obtain ⟨s', asks, report', seen'⟩ := h.checkLevels_clean .sell s (by
    intro o ho
    rw [seen]
    intro mem
    rcases Finset.mem_union.mp mem with mem | mem
    · exact Finset.notMem_empty _ mem
    · exact ids.2.2 _ (mem_toFinset.mp mem) _ (mem_map_of_mem ho) rfl)
  have all : s'.seen = (b.resting.map (·.orderId)).toFinset := by
    rw [seen', seen, OrderBook.resting, map_append, toFinset_append]
    exact congrArg (· ∪ _) (Finset.empty_union _)
  have sized : ¬ s'.seen.card ≠ p.orderIndex.size := by
    rw [all, toFinset_card_of_nodup h.wf.ids, length_map, h.size_eq]
    exact not_not.mpr rfl
  have stored (report : BookInvariantReport) (is : List Nat) :
      is.foldl (p.checkStoredNode s'.seen) report = report := by
    induction is generalizing report with
    | nil => rfl
    | cons i is ih =>
      rw [foldl_cons, h.checkStored_clean (fun o ho => by rw [all]; simpa using ⟨o, ho, rfl⟩), ih]
  unfold checkInvariants
  simp only [bids, asks, Option.bind_eq_bind, Option.bind_some, Option.pure_def, violationIf_neg sized,
    stored, report', report]

end Check
end Asterion.PooledOrderBook
