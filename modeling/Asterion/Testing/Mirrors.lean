import Asterion.Matching.Simulation
import Asterion.Testing.ReferenceMatcher

/-! When the state of the reference matcher stands for a state of the exchange, and how
its dictionaries and sets are read and written then. -/
namespace Asterion

open Lib Lib.Buckets

def Exchange.waiting (x : Exchange) (side : Side) (price : Int) : List Nat :=
  ((x.queue side).filter (fun o => o.priceTicks = price)).map (·.orderId)

namespace ReferenceMatcher

structure Mirrors (m : ReferenceMatcher) (x : Exchange) : Prop where
  symbol : m.symbolId = x.symbolId
  next : m.nextExchangeOrderId = x.nextExchangeOrderId
  seen : m.seenClientOrderIds = x.seen
  state : ∀ id, m.states.lookup id = x.state id
  notional : ∀ id, 0 ≤ (x.stateAt id).filledNotionalTicks
  ids : ∀ s, isValidSide s = true → ∀ p, ((m.levels s).lookup p).getD [] = x.waiting s p
  nonempty : ∀ s, isValidSide s = true → ∀ p, (m.levels s).lookup p ≠ some []
  inBook : ∀ id, id ∈ m.inBook ↔ ∃ s, ∃ o ∈ x.queue s, o.orderId = id

theorem new_mirrors (symbolId : Nat) : (new symbolId).Mirrors (.new symbolId) where
  symbol := rfl
  next := rfl
  seen := rfl
  state := fun _ => rfl
  notional := fun _ => le_rfl
  ids := fun s _ p => by cases s <;> rfl
  nonempty := fun s _ p => by cases s <;> exact fun h => by cases h
  inBook := fun id => by simp [new, Exchange.new]

section Levels
variable (m : ReferenceMatcher) {s t : Side} (l : PriceLevels)

theorem levels_setLevels_same : (m.setLevels s l).levels s = l := by
  unfold setLevels levels
  split <;> simp_all

theorem levels_setLevels_other (hs : isValidSide s = true) (ht : isValidSide t = true)
    (hne : t ≠ s) : (m.setLevels s l).levels t = m.levels t := by
  cases s <;> cases t <;> simp_all [setLevels, levels]

end Levels

section Reading
variable {m : ReferenceMatcher} {x : Exchange} (h : m.Mirrors x)
include h

theorem Mirrors.stateAt (id : Nat) : m.stateAt id = x.stateAt id := by
  unfold ReferenceMatcher.stateAt Exchange.stateAt
  rw [h.state]

theorem Mirrors.lookup_eq_some {s : Side} (hs : isValidSide s = true) {p : Int} {ids : List Nat} :
    (m.levels s).lookup p = some ids ↔ ids = x.waiting s p ∧ ids ≠ [] := by
  have hids := h.ids s hs p
  have hne := h.nonempty s hs p
  cases hl : (m.levels s).lookup p with
  | none =>
    rw [hl] at hids
    constructor
    · intro hc; cases hc
    · rintro ⟨rfl, hc⟩
      exact absurd hids.symm hc
  | some is =>
    rw [hl] at hids hne
    constructor
    · rintro ⟨⟩
      exact ⟨hids, fun hnil => hne (congrArg some hnil)⟩
    · rintro ⟨rfl, _⟩
      exact congrArg some hids

theorem Mirrors.mem_keys {s : Side} (hs : isValidSide s = true) {p : Int} :
    p ∈ (m.levels s).keys ↔ ∃ o ∈ x.queue s, o.priceTicks = p := by
  rw [← AList.mem_keys, ← AList.lookup_isSome, Option.isSome_iff_exists]
  constructor
  · rintro ⟨ids, hl⟩
    obtain ⟨rfl, hne⟩ := (h.lookup_eq_some hs).mp hl
    obtain ⟨o, ho⟩ := List.exists_mem_of_ne_nil _ (List.map_eq_nil_iff.not.mp hne)
    obtain ⟨ho, hp⟩ := List.mem_filter.mp ho
    exact ⟨o, ho, of_decide_eq_true hp⟩
  · rintro ⟨o, ho, hp⟩
    refine ⟨x.waiting s p, (h.lookup_eq_some hs).mpr ⟨rfl, ?_⟩⟩
    apply List.ne_nil_of_mem
    exact List.mem_map_of_mem (List.mem_filter.mpr ⟨ho, decide_eq_true hp⟩)

theorem Mirrors.mem_prices {s : Side} (hs : isValidSide s = true) {p : Int} :
    p ∈ prices (m.levels s) ↔ ∃ o ∈ x.queue s, o.priceTicks = p := by
  rw [← h.mem_keys hs]
  unfold prices
  rw [List.mem_map]
  constructor
  · rintro ⟨e, he, rfl⟩
    exact List.mem_map_of_mem (List.mem_of_mem_filter he)
  · intro hp
    obtain ⟨e, he, rfl⟩ := List.mem_map.mp hp
    have hl : (m.levels s).lookup e.1 = some e.2 := AList.mem_lookup_iff.mpr he
    refine ⟨e, List.mem_filter.mpr ⟨he, ?_⟩, rfl⟩
    simpa using ((h.lookup_eq_some hs).mp hl).2

variable {p : Option (Nat × Int)} (c : x.Consistent p)
include c

/-- The price at the front of a queue comes before all other prices of the side. -/
theorem Mirrors.prices_head {s : Side} (hs : isValidSide s = true) :
    (x.queue s = [] ∧ prices (m.levels s) = []) ∨
      ∃ o, (x.queue s).head? = some o ∧ o.priceTicks ∈ prices (m.levels s) ∧
        ∀ p ∈ prices (m.levels s), ¬ before s p o.priceTicks := by
  cases hq : x.queue s with
  | nil =>
    refine Or.inl ⟨rfl, List.eq_nil_iff_forall_not_mem.mpr ?_⟩
    intro p hp
    obtain ⟨o, ho, _⟩ := (h.mem_prices hs).mp hp
    rw [hq] at ho
    cases ho
  | cons o q =>
    refine Or.inr ⟨o, rfl, (h.mem_prices hs).mpr ⟨o, hq ▸ List.mem_cons_self, rfl⟩, ?_⟩
    intro p hp
    obtain ⟨y, hy, rfl⟩ := (h.mem_prices hs).mp hp
    have hsorted := c.sorted s
    rw [hq] at hy hsorted
    rcases List.mem_cons.mp hy with rfl | hy
    · exact irrefl_of (before s) _
    · exact List.rel_of_pairwise_cons hsorted hy

theorem Mirrors.bestAsk_eq : m.bestAsk = (x.queue .sell).head?.map (·.priceTicks) := by
  rcases h.prices_head c (s := .sell) rfl with ⟨hq, hp⟩ | ⟨o, hq, hmem, hle⟩
  · rw [hq]
    exact congrArg List.min? hp
  · rw [hq]
    exact List.min?_eq_some_iff.mpr ⟨hmem, fun p hp => not_lt.mp (hle p hp)⟩

theorem Mirrors.bestBid_eq : m.bestBid = (x.queue .buy).head?.map (·.priceTicks) := by
  rcases h.prices_head c (s := .buy) rfl with ⟨hq, hp⟩ | ⟨o, hq, hmem, hle⟩
  · rw [hq]
    exact congrArg List.max? hp
  · rw [hq]
    exact List.max?_eq_some_iff.mpr ⟨hmem, fun p hp => not_lt.mp (hle p hp)⟩

omit c in
theorem Mirrors.front {s : Side} (hs : isValidSide s = true) {o : Order}
    (head : (x.queue s).head? = some o) :
    (((m.levels s).lookup o.priceTicks).getD []).head? = some o.orderId := by
  rw [h.ids s hs]
  cases hq : x.queue s with
  | nil => rw [hq] at head; cases head
  | cons a q =>
    rw [hq] at head
    cases head
    simp [Exchange.waiting, hq]

theorem Mirrors.bestOpposingOrder_eq {s : Side} (hs : isValidSide s = true) :
    m.bestOpposingOrder s = (x.queue (opposite s)).head?.map (·.orderId) := by
  cases s with
  | none => cases hs
  | buy =>
    simp only [bestOpposingOrder, if_true, h.bestAsk_eq c, opposite]
    cases hq : (x.queue .sell).head? with
    | none => rfl
    | some o => exact h.front (s := .sell) rfl hq
  | sell =>
    have hne : ¬ Side.sell = Side.buy := by decide
    simp only [bestOpposingOrder, if_neg hne, h.bestBid_eq c, opposite]
    cases hq : (x.queue .buy).head? with
    | none => rfl
    | some o => exact h.front (s := .buy) rfl hq

theorem Mirrors.crosses_eq (side : Side) (orderType : OrderType) (limit : Int) :
    m.crosses side orderType limit = x.crosses side orderType limit := by
  cases side with
  | none => simp [crosses, Exchange.crosses, opposite, c.queue_none]
  | buy =>
    simp only [crosses, if_true, h.bestAsk_eq c, Exchange.crosses, opposite]
    cases (x.queue .sell).head? with
    | none => rfl
    | some o =>
      rw [Bool.eq_iff_iff]
      simp [MatchingEngine.executable]
  | sell =>
    have hne : ¬ Side.sell = Side.buy := by decide
    simp only [crosses, if_neg hne, if_true, h.bestBid_eq c, Exchange.crosses, opposite]
    cases (x.queue .buy).head? with
    | none => rfl
    | some o =>
      rw [Bool.eq_iff_iff]
      simp [MatchingEngine.executable]

/-- The scan over the resting orders asks what the exchange asks of its queue. -/
theorem Mirrors.wouldSelfTrade_eq (side : Side) (orderType : OrderType) (limit : Int)
    (clientId excluded : Nat)
    (elsewhere : ∀ o ∈ x.queue (opposite side), o.orderId ≠ excluded) :
    m.wouldSelfTrade side orderType limit clientId excluded =
      x.selfTrade side orderType limit clientId := by
  rw [Bool.eq_iff_iff, Exchange.selfTrade_eq_true]
  unfold wouldSelfTrade
  by_cases hclient : clientId = 0
  · simp [hclient]
  rw [if_neg hclient, decide_eq_true_eq]
  have hstate := fun o s (ho : o ∈ x.queue s) => (c.stateAt_order ho).2.1
  constructor
  · rintro ⟨id, hid, _, hkeep, hex⟩
    obtain ⟨s, o, ho, rfl⟩ := (h.inBook id).mp hid
    rw [h.stateAt] at hkeep hex
    rw [not_or, not_not, not_not] at hkeep
    have hprice : (x.stateAt o.orderId).limitPriceTicks = o.priceTicks :=
      (congrArg Order.priceTicks (hstate o s ho)).symm
    have hside : s = opposite side := by
      rw [← hkeep.2, ← (c.filed s o ho).1]
      exact congrArg Order.side (hstate o s ho)
    refine ⟨hclient, o, hside ▸ ho, hkeep.1, ?_⟩
    rw [hprice] at hex
    simpa [MatchingEngine.executable, or_assoc] using hex
  · rintro ⟨_, o, ho, hc, hex⟩
    have hprice : (x.stateAt o.orderId).limitPriceTicks = o.priceTicks :=
      (congrArg Order.priceTicks (hstate o _ ho)).symm
    have hside : (x.stateAt o.orderId).side = opposite side := by
      rw [← (c.filed _ o ho).1]
      exact (congrArg Order.side (hstate o _ ho)).symm
    refine ⟨o.orderId, (h.inBook _).mpr ⟨_, o, ho, rfl⟩, elsewhere o ho, ?_, ?_⟩
    · rw [h.stateAt]
      simp [hc, hside]
    · rw [h.stateAt, hprice]
      simpa [MatchingEngine.executable, or_assoc] using hex

theorem Mirrors.isKnown_eq (id : Nat) : m.isKnown id = x.isResting id := by
  rw [Bool.eq_iff_iff, c.isResting_iff]
  unfold isKnown
  rw [Bool.and_eq_true, decide_eq_true_eq, h.inBook, h.state]
  constructor
  · exact fun hk => hk.2
  · rintro ⟨s, o, ho, rfl⟩
    rw [(c.stateAt_order ho).1]
    exact ⟨rfl, s, o, ho, rfl⟩

omit c in
theorem Mirrors.mem_sortedPrices {s : Side} (hs : isValidSide s = true) {p : Int} :
    p ∈ m.sortedPrices s ↔ ∃ o ∈ x.queue s, o.priceTicks = p := by
  rw [← h.mem_keys hs]
  cases s with
  | none => cases hs
  | buy => exact List.mem_insertionSort _
  | sell => exact List.mem_insertionSort _

omit h c in
theorem sortedPrices_sorted (m : ReferenceMatcher) {s : Side} (hs : isValidSide s = true) :
    (m.sortedPrices s).Pairwise (before s) := by
  cases s with
  | none => cases hs
  | buy =>
    have hnodup : (m.bidLevels.keys.insertionSort (· ≥ ·)).Nodup :=
      (List.perm_insertionSort _ _).nodup_iff.mpr m.bidLevels.keys_nodup
    exact ((List.pairwise_insertionSort _ _).and hnodup).imp
      (fun {a b} hab => lt_of_le_of_ne hab.1 hab.2.symm)
  | sell =>
    have hnodup : (m.askLevels.keys.insertionSort (· ≤ ·)).Nodup :=
      (List.perm_insertionSort _ _).nodup_iff.mpr m.askLevels.keys_nodup
    exact ((List.pairwise_insertionSort _ _).and hnodup).imp
      (fun {a b} hab => lt_of_le_of_ne hab.1 hab.2)

theorem Mirrors.flat_prices {s : Side} (hs : isValidSide s = true) :
    flat (fun v => v) (shelve Order.priceTicks (m.sortedPrices s) (x.queue s)) = x.queue s :=
  flat_shelve (m.sortedPrices_sorted hs) (c.sorted s)
    (fun o ho => (h.mem_sortedPrices hs).mpr ⟨o, ho, rfl⟩)

theorem Mirrors.remaining_eq {s : Side} {o : Order} (ho : o ∈ x.queue s) :
    remaining (m.stateAt o.orderId) = o.quantity := by
  have hpos := c.quantity_pos ho
  have hqty : o.quantity = (x.stateAt o.orderId).originalQuantity -
      (x.stateAt o.orderId).filledQuantity := congrArg Order.quantity (c.stateAt_order ho).2.1
  rw [h.stateAt, hqty]
  exact if_pos (hqty ▸ hpos)

theorem Mirrors.levelQuantity_eq (s : Side) (p : Int) :
    m.levelQuantity (x.waiting s p) =
      (((x.queue s).filter (fun o => o.priceTicks = p)).map (·.quantity)).sum := by
  unfold levelQuantity Exchange.waiting
  rw [List.map_map]
  congr 1
  apply List.map_congr_left
  intro o ho
  exact h.remaining_eq c (List.mem_of_mem_filter ho)

theorem Mirrors.l2Side_eq {s : Side} (hs : isValidSide s = true) :
    m.l2Side s = (shelve Order.priceTicks (m.sortedPrices s) (x.queue s)).map
      (fun e => (e.1, (e.2.map (·.quantity)).sum)) := by
  have hall : (m.sortedPrices s).filter
      (fun price => ((m.levels s).lookup price).getD [] ≠ []) = m.sortedPrices s := by
    rw [List.filter_eq_self]
    intro p hp
    obtain ⟨o, ho, rfl⟩ := (h.mem_sortedPrices hs).mp hp
    rw [h.ids s hs, decide_eq_true_eq]
    apply List.ne_nil_of_mem
    exact List.mem_map_of_mem (List.mem_filter.mpr ⟨ho, decide_eq_true rfl⟩)
  unfold l2Side shelve
  rw [hall, List.map_map]
  apply List.map_congr_left
  intro p _
  rw [h.ids s hs, h.levelQuantity_eq c]
  rfl

theorem Mirrors.openSide_eq {s : Side} (hs : isValidSide s = true) :
    m.openSide s = (x.queue s).map (fun o => (o.orderId, o.side, o.priceTicks, o.quantity)) := by
  have hflat := congrArg (List.map (fun o => (o.orderId, o.side, o.priceTicks, o.quantity)))
    (h.flat_prices c hs)
  rw [← hflat]
  unfold openSide flat shelve
  rw [List.flatMap_map, List.map_flatMap]
  apply List.flatMap_congr
  intro p _
  rw [h.ids s hs, Exchange.waiting, List.map_map]
  apply List.map_congr_left
  intro o ho
  obtain ⟨ho, hp⟩ := List.mem_filter.mp ho
  have hside : (m.stateAt o.orderId).side = o.side := by
    rw [h.stateAt]
    exact (congrArg Order.side (c.stateAt_order ho).2.1).symm
  simp [hside, h.remaining_eq c ho, of_decide_eq_true hp]

omit h c in
/-- Levels without quantity are passed over, and none of them has none. -/
theorem fillLevels_eq (request : NewOrderRequest) (required : Int) (ls : List (Int × Int))
    (some_quantity : ∀ l ∈ ls, l.2 ≠ 0) :
    fillLevels request required ls =
      MatchingEngine.fillableFrom request required (ls.map (fun l => ⟨l.1, l.2⟩)) := by
  induction ls generalizing required with
  | nil => rfl
  | cons l ls ih =>
    have ht := fun n => ih n (fun a ha => some_quantity a (List.mem_cons_of_mem _ ha))
    have hexec : (MatchingEngine.executable request.side request.orderType request.priceTicks
        l.1 = true) ↔ (request.orderType = .market ∨
          (request.side = .buy ∧ l.1 ≤ request.priceTicks) ∨
          (request.side = .sell ∧ l.1 ≥ request.priceTicks)) := by
      simp [MatchingEngine.executable, or_assoc]
    rw [fillLevels, if_neg (some_quantity l List.mem_cons_self), List.map_cons,
      MatchingEngine.fillableFrom, ht]
    simp only [← hexec, Bool.not_eq_true', Bool.not_eq_true]

theorem Mirrors.canFullyFill_eq {request : NewOrderRequest} (pos : 0 < request.quantity)
    (valid : isValidSide request.side = true) :
    m.canFullyFill request = decide (request.quantity ≤
      x.available request.side request.orderType request.priceTicks) := by
  have hside : (if request.side = .buy then Side.sell else Side.buy) = opposite request.side := by
    cases hs : request.side with
    | none => rw [hs] at valid; cases valid
    | buy => rfl
    | sell => rfl
  have hs : isValidSide (opposite request.side) = true := by rwa [isValidSide_opposite]
  obtain ⟨s, hsdef⟩ : ∃ s, s = opposite request.side := ⟨_, rfl⟩
  obtain ⟨es, hes⟩ : ∃ es : List (Int × PriceLevel), es =
      (shelve Order.priceTicks (m.sortedPrices s) (x.queue s)).map
        (fun e => (e.1, ⟨e.1, (e.2.map (·.quantity)).sum, e.2⟩)) := ⟨_, rfl⟩
  have hwf : ∀ e ∈ es, OrderBook.LevelWF x.symbolId s e := by
    intro e he
    rw [hes] at he
    obtain ⟨a, ha, rfl⟩ := List.mem_map.mp he
    obtain ⟨p, hp, rfl⟩ := List.mem_map.mp ha
    obtain ⟨o, ho, rfl⟩ := (h.mem_sortedPrices (hsdef ▸ hs)).mp hp
    have hin := fun y (hy : y ∈ (x.queue s).filter (fun y => y.priceTicks = o.priceTicks)) =>
      c.filed s y (List.mem_of_mem_filter hy)
    exact
      { key := rfl
        nonempty := List.ne_nil_of_mem (List.mem_filter.mpr ⟨ho, decide_eq_true rfl⟩)
        total := rfl
        valid := fun y hy => (hin y hy).2.1
        symbol := fun y hy => (hin y hy).2.2
        filed := fun y hy => ⟨(hin y hy).1, of_decide_eq_true (List.mem_filter.mp hy).2⟩ }
  have hflat : flat PriceLevel.orders es = x.queue s := by
    rw [hes]
    unfold flat
    rw [List.flatMap_map]
    exact h.flat_prices c (hsdef ▸ hs)
  have hlevels : (m.sortedPrices s).map
      (fun price => (price, m.levelQuantity (((m.levels s).lookup price).getD []))) =
      es.map (fun e => (e.1, e.2.totalQuantity)) := by
    rw [hes]
    unfold shelve
    rw [List.map_map, List.map_map]
    apply List.map_congr_left
    intro p _
    rw [h.ids s (hsdef ▸ hs), h.levelQuantity_eq c]
    rfl
  have hpositive : ∀ l ∈ es.map (fun e => (e.1, e.2.totalQuantity)), l.2 ≠ 0 := by
    intro l hl
    obtain ⟨e, he, rfl⟩ := List.mem_map.mp hl
    obtain ⟨o, os, hos⟩ := List.exists_cons_of_ne_nil (hwf e he).nonempty
    have hqty := fun y (hy : y ∈ e.2.orders) => by
      have hv := (hwf e he).valid y hy
      simp only [isValidRestingOrder, Bool.and_eq_true, decide_eq_true_eq] at hv
      exact hv.2
    have hsum := List.sum_pos (e.2.orders.map (·.quantity))
      (by
        intro n hn
        obtain ⟨y, hy, rfl⟩ := List.mem_map.mp hn
        exact hqty y hy)
      (by simp [hos])
    rw [← (hwf e he).total] at hsum
    exact hsum.ne'
  unfold canFullyFill
  simp only [hside, ← hsdef]
  rw [hlevels, fillLevels_eq request _ _ hpositive, List.map_map]
  have hfill := MatchingEngine.fillableFrom_eq request es hwf _ pos
  rw [hflat, hsdef] at hfill
  exact hfill

end Reading
theorem filter_enqueue {o : Order} {q : List Order}
    (sorted : q.Pairwise (fun a b => ¬ Order.outranks o.side b a)) (p : Int) :
    (enqueue o q).filter (fun a => a.priceTicks = p) =
      if o.priceTicks = p then q.filter (fun a => a.priceTicks = p) ++ [o]
      else q.filter (fun a => a.priceTicks = p) := by
  have hprices : q.Pairwise (fun a b => ¬ before o.side b.priceTicks a.priceTicks) := sorted
  exact filter_orderedInsert (r := before o.side) hprices p

section Writing
variable {m : ReferenceMatcher} {x : Exchange} (h : m.Mirrors x)

/-- Files a queue under its price; an empty queue is not kept. -/
def store (l : PriceLevels) (p : Int) (ids : List Nat) : PriceLevels :=
  if ids = [] then l.erase p else l.insert p ids

theorem lookup_store (l : PriceLevels) (p q : Int) (ids : List Nat) :
    (store l p ids).lookup q =
      if q = p then (if ids = [] then none else some ids) else l.lookup q := by
  unfold store
  by_cases hq : q = p
  · subst hq
    rw [if_pos rfl]
    split
    · exact AList.lookup_erase _ _
    · exact AList.lookup_insert _
  · rw [if_neg hq]
    split
    · exact AList.lookup_erase_ne hq
    · exact AList.lookup_insert_ne hq

include h

theorem Mirrors.setState (id : Nat) (st : OrderState) (nonneg : 0 ≤ st.filledNotionalTicks) :
    (m.setState id st).Mirrors (x.setState id st) :=
  { h with
    state := by
      intro j
      by_cases hj : j = id
      · subst hj
        rw [Exchange.setState_same]
        exact AList.lookup_insert _
      · rw [Exchange.setState_other x st hj, ← h.state]
        exact AList.lookup_insert_ne hj
    notional := by
      intro j
      by_cases hj : j = id
      · rw [hj, Exchange.stateAt_setState_same]
        exact nonneg
      · rw [Exchange.stateAt_setState_other x st hj]
        exact h.notional j }

/-- One queue of ids is replaced. -/
theorem Mirrors.requeue (queue : Side → List Order) (inBook : Finset Nat) {s : Side}
    (hs : isValidSide s = true) {p : Int} {ids : List Nat}
    (here : ({ x with queue } : Exchange).waiting s p = ids)
    (elsewhere : ∀ t q, isValidSide t = true → (t = s → q ≠ p) →
      ({ x with queue } : Exchange).waiting t q = x.waiting t q)
    (hin : ∀ id, id ∈ inBook ↔ ∃ s, ∃ o ∈ queue s, o.orderId = id) :
    ({ m.setLevels s (store (m.levels s) p ids) with inBook } : ReferenceMatcher).Mirrors
      { x with queue } := by
  have hlookup : ∀ t q, isValidSide t = true →
      ((m.setLevels s (store (m.levels s) p ids)).levels t).lookup q =
        if t = s ∧ q = p then (if ids = [] then none else some ids)
        else (m.levels t).lookup q := by
    intro t q ht
    by_cases hts : t = s
    · subst hts
      rw [levels_setLevels_same, lookup_store]
      simp
    · rw [levels_setLevels_other m _ hs ht hts, if_neg (fun hc => hts hc.1)]
  have hframe : ∀ l, (m.setLevels s l).symbolId = m.symbolId ∧
      (m.setLevels s l).nextExchangeOrderId = m.nextExchangeOrderId ∧
      (m.setLevels s l).seenClientOrderIds = m.seenClientOrderIds ∧
      (m.setLevels s l).states = m.states := by
    intro l
    unfold setLevels
    split <;> exact ⟨rfl, rfl, rfl, rfl⟩
  obtain ⟨hsym, hnext, hseen, hstates⟩ := hframe (store (m.levels s) p ids)
  constructor
  · exact hsym.trans h.symbol
  · exact hnext.trans h.next
  · exact hseen.trans h.seen
  · intro id
    rw [← h.state id]
    exact congrArg (AList.lookup id) hstates
  · exact h.notional
  · intro t ht q
    refine (congrArg (Option.getD · []) (hlookup t q ht)).trans ?_
    by_cases hc : t = s ∧ q = p
    · rw [if_pos hc, hc.1, hc.2, here]
      split
      · rename_i hnil
        exact hnil.symm
      · rfl
    · rw [if_neg hc, h.ids t ht, elsewhere t q ht (fun hts hqp => hc ⟨hts, hqp⟩)]
  · intro t ht q hbad
    have hbad := (hlookup t q ht).symm.trans hbad
    by_cases hc : t = s ∧ q = p
    · rw [if_pos hc] at hbad
      split at hbad
      · cases hbad
      · rename_i hne
        exact hne (Option.some.inj hbad)
    · rw [if_neg hc] at hbad
      exact h.nonempty t ht q hbad
  · exact hin

theorem Mirrors.shrink (id : Nat) (n : Int) :
    m.Mirrors { x with queue := fun s => shrink id n (x.queue s) } :=
  { h with
    ids := by
      intro s hs p
      rw [h.ids s hs]
      unfold Exchange.waiting
      simp only [shrink_eq_map, List.filter_map, List.map_map]
      have hfilter : (x.queue s).filter ((fun o => decide (o.priceTicks = p)) ∘ shrinkOrder id n) =
          (x.queue s).filter (fun o => o.priceTicks = p) :=
        List.filter_congr (fun o _ => by simp)
      rw [hfilter]
      exact List.map_congr_left (fun o _ => (shrinkOrder_orderId id n o).symm)
    inBook := by
      intro j
      rw [h.inBook]
      simp only [shrink_eq_map]
      constructor
      · rintro ⟨s, o, ho, rfl⟩
        exact ⟨s, _, List.mem_map_of_mem ho, shrinkOrder_orderId id n o⟩
      · rintro ⟨s, a, ha, rfl⟩
        obtain ⟨o, ho, rfl⟩ := List.mem_map.mp ha
        exact ⟨s, o, ho, (shrinkOrder_orderId id n o).symm⟩ }

/-- The order leaves its queue, whatever else of its state has changed. -/
theorem Mirrors.removeFromBook {y : Exchange} {p : Option (Nat × Int)} (c : y.Consistent p)
    (hq : x.queue = y.queue) {s : Side} {o : Order} (ho : o ∈ x.queue s) {st : OrderState}
    (hid : st.exchangeOrderId = o.orderId) (hside : st.side = s)
    (hprice : st.limitPriceTicks = o.priceTicks) :
    (m.removeFromBook st).Mirrors
      { x with queue := fun s => dequeue o.orderId (x.queue s) } := by
  have hs : isValidSide s = true := by
    have hv := (c.filed s o (hq ▸ ho)).2.1
    rw [isValidRestingOrder, (c.filed s o (hq ▸ ho)).1] at hv
    simp only [Bool.and_eq_true] at hv
    exact hv.1.1.2
  have hwaiting : ∀ t q, ({ x with queue := fun s => dequeue o.orderId (x.queue s) } :
      Exchange).waiting t q = (x.waiting t q).filter (fun id => id ≠ o.orderId) := by
    intro t q
    unfold Exchange.waiting dequeue
    rw [List.filter_map, List.filter_filter, List.filter_filter]
    congr 1
    apply List.filter_congr
    intro a _
    exact Bool.and_comm _ _
  have hmem : o.orderId ∈ x.waiting s o.priceTicks :=
    List.mem_map_of_mem (List.mem_filter.mpr ⟨ho, decide_eq_true rfl⟩)
  have habsent : ∀ t q, (t = s → q ≠ o.priceTicks) → o.orderId ∉ x.waiting t q := by
    intro t q hne hin
    obtain ⟨a, ha, hida⟩ := List.mem_map.mp hin
    obtain ⟨ha, hqa⟩ := List.mem_filter.mp ha
    have hsame := c.unique (hq ▸ ha) (hq ▸ ho) hida
    subst hsame
    have hts : t = s := (c.filed t a (hq ▸ ha)).1.symm.trans (c.filed s a (hq ▸ ho)).1
    exact hne hts (of_decide_eq_true hqa).symm
  have hnodup : (x.waiting s o.priceTicks).Nodup := by
    have hall := c.queue_ids_nodup s
    rw [← hq] at hall
    exact hall.sublist (List.filter_sublist.map _)
  have herase : (x.waiting s o.priceTicks).erase o.orderId =
      (x.waiting s o.priceTicks).filter (fun id => id ≠ o.orderId) := by
    rw [hnodup.erase_eq_filter]
    apply List.filter_congr
    intro a _
    by_cases ha : a = o.orderId <;> simp [ha]
  have hresult : m.removeFromBook st =
      { m.setLevels s (store (m.levels s) o.priceTicks
          ((x.waiting s o.priceTicks).erase o.orderId)) with
        inBook := m.inBook.erase o.orderId } := by
    unfold ReferenceMatcher.removeFromBook store
    simp only [hid, hside, hprice, h.ids s hs, if_pos hmem]
    congr 1
    unfold setLevels
    split <;> rfl
  rw [hresult]
  refine h.requeue _ _ hs ((hwaiting _ _).trans herase.symm) ?_ ?_
  · intro t q _ hne
    rw [hwaiting, List.filter_eq_self]
    intro id hin
    exact decide_eq_true (fun he => habsent t q hne (he ▸ hin))
  · intro id
    rw [Finset.mem_erase, h.inBook]
    constructor
    · rintro ⟨hne, t, a, ha, rfl⟩
      exact ⟨t, a, mem_dequeue.mpr ⟨ha, hne⟩, rfl⟩
    · rintro ⟨t, a, ha, rfl⟩
      obtain ⟨ha, hne⟩ := mem_dequeue.mp ha
      exact ⟨hne, t, a, ha, rfl⟩

theorem Mirrors.restLimitOrder {i : Nat} {wanted : Int} (c : x.Consistent (some (i, wanted)))
    (symbol : x.symbolId ≠ invalidSymbolId) (ts : Int) :
    (m.restLimitOrder (m.stateAt i)).Mirrors (x.rest i ts).1 := by
  have ok := c.knownAt (c.inHand i wanted rfl).stored
  obtain ⟨o, ho⟩ : ∃ o, o = restingOrder (x.stateAt i) := ⟨_, rfl⟩
  have hid : (x.stateAt i).exchangeOrderId = o.orderId := by rw [ho]; rfl
  have hside : (x.stateAt i).side = o.side := by rw [ho]; rfl
  have hprice : (x.stateAt i).limitPriceTicks = o.priceTicks := by rw [ho]; rfl
  have hs : isValidSide o.side = true := hside ▸ ok.side
  have hrest : (x.rest i ts).1 =
      { x with queue := fun s => if s = o.side then enqueue o (x.queue s) else x.queue s } := by
    unfold Exchange.rest
    rw [if_neg symbol, ho]
  have hresult : m.restLimitOrder (m.stateAt i) =
      { m.setLevels o.side (store (m.levels o.side) o.priceTicks
          (x.waiting o.side o.priceTicks ++ [o.orderId])) with
        inBook := insert o.orderId m.inBook } := by
    have hne : x.waiting o.side o.priceTicks ++ [o.orderId] ≠ [] := by simp
    unfold ReferenceMatcher.restLimitOrder store
    simp only [h.stateAt, hid, hside, hprice, h.ids o.side hs, if_neg hne]
    congr 1
    unfold setLevels
    split <;> rfl
  rw [hrest, hresult]
  refine h.requeue _ _ hs ?_ ?_ ?_
  · simp only [Exchange.waiting, if_true]
    refine (congrArg _ (filter_enqueue (c.sorted o.side) o.priceTicks)).trans ?_
    rw [if_pos rfl, List.map_append]
    rfl
  · intro t q _ hne
    simp only [Exchange.waiting]
    by_cases ht : t = o.side
    · rw [ht, if_pos rfl]
      refine (congrArg _ (filter_enqueue (c.sorted o.side) q)).trans ?_
      rw [if_neg (fun hp => hne ht hp.symm)]
    · rw [if_neg ht]
  · intro id
    rw [Finset.mem_insert, h.inBook]
    constructor
    · rintro (rfl | ⟨t, a, ha, rfl⟩)
      · exact ⟨o.side, o, by rw [if_pos rfl]; exact mem_enqueue.mpr (Or.inl rfl), rfl⟩
      · refine ⟨t, a, ?_, rfl⟩
        split
        · exact mem_enqueue.mpr (Or.inr ha)
        · exact ha
    · rintro ⟨t, a, ha, rfl⟩
      split at ha
      · rcases mem_enqueue.mp ha with rfl | ha
        · exact Or.inl rfl
        · exact Or.inr ⟨t, a, ha, rfl⟩
      · exact Or.inr ⟨t, a, ha, rfl⟩

end Writing
end ReferenceMatcher
end Asterion
