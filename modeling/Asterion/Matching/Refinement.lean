import Asterion.Book.CheckInvariants
import Asterion.Matching.Runs

/-! The matching engine refines the exchange: read through its book, its state map and its
id counters, the engine serves every request as the exchange does, with the same reports. -/
namespace Asterion

open Lib Lib.Buckets
open MatchingEngine (Request executable)

def MatchingEngine.view (e : MatchingEngine) : Exchange :=
  { symbolId := e.symbolId
    queue := e.book.queue
    state := fun id => e.states.lookup id
    nextExchangeOrderId := e.nextExchangeOrderId
    seen := e.seenClientOrderIds }

section Checksum
variable (e : MatchingEngine) (checksum : UInt64)

/-! The checksum stays a variable here, so that nothing ever unfolds it. -/

theorem MatchingEngine.view_checksum :
    MatchingEngine.view { e with reportsChecksum := checksum } = e.view := rfl

theorem MatchingEngine.book_checksum :
    ({ e with reportsChecksum := checksum } : MatchingEngine).book = e.book := rfl

theorem MatchingEngine.symbolId_checksum :
    ({ e with reportsChecksum := checksum } : MatchingEngine).symbolId = e.symbolId := rfl

end Checksum

namespace Reporting
variable (w : Reporting) (r : ExecutionReport)

theorem record_engine : (w.record r).engine = { w.engine with
    reportsChecksum := r.appendToChecksum w.engine.reportsChecksum } := rfl

theorem record_reports : (w.record r).reports = w.reports ++ [r] := rfl

theorem record_view : (w.record r).engine.view = w.engine.view := by
  rw [record_engine, MatchingEngine.view_checksum]

theorem record_book : (w.record r).engine.book = w.engine.book := by
  rw [record_engine, MatchingEngine.book_checksum]

theorem record_symbolId : (w.record r).engine.symbolId = w.engine.symbolId := by
  rw [record_engine, MatchingEngine.symbolId_checksum]

end Reporting

/-- The engine and its answer so far represent an exchange and an answer. -/
structure Reporting.Shows (w : Reporting) (x : Exchange) (reports : List ExecutionReport) : Prop where
  wf : w.engine.book.WF
  symbol : w.engine.book.symbolId = w.engine.symbolId
  view : w.engine.view = x
  answer : w.reports = reports

namespace Reporting.Shows

variable {w : Reporting} {x : Exchange} {rs : List ExecutionReport}

theorem stateAt (h : w.Shows x rs) (id : Nat) : w.engine.stateAt id = x.stateAt id := by
  rw [← h.view]
  rfl

theorem lookup (h : w.Shows x rs) (id : Nat) : w.engine.states.lookup id = x.state id := by
  rw [← h.view]
  rfl

theorem queue (h : w.Shows x rs) (s : Side) : w.engine.book.queue s = x.queue s := by
  rw [← h.view]
  rfl

theorem record (h : w.Shows x rs) (r : ExecutionReport) : (w.record r).Shows x (rs ++ [r]) where
  wf := by rw [w.record_book]; exact h.wf
  symbol := by rw [w.record_book, w.record_symbolId, h.symbol]
  view := by rw [w.record_view, h.view]
  answer := by rw [w.record_reports, h.answer]

theorem setState (h : w.Shows x rs) (id : Nat) (st : OrderState) :
    (w.setState id st).Shows (x.setState id st) rs where
  wf := h.wf
  symbol := h.symbol
  view := by
    rw [← h.view]
    unfold MatchingEngine.view Exchange.setState
    congr 1
    funext j
    by_cases hj : j = id
    · subst hj
      rw [Function.update_self]
      exact AList.lookup_insert _
    · rw [Function.update_of_ne hj]
      exact AList.lookup_insert_ne hj
  answer := h.answer

theorem setBook (h : w.Shows x rs) {book : OrderBook} (queue : Side → List Order) (wf : book.WF)
    (symbol : book.symbolId = w.engine.book.symbolId) (hq : ∀ s, book.queue s = queue s) :
    (w.setBook book).Shows { x with queue } rs where
  wf := wf
  symbol := symbol.trans h.symbol
  view := by
    rw [← h.view]
    unfold MatchingEngine.view
    congr 1
    exact funext hq
  answer := h.answer

end Reporting.Shows

namespace MatchingEngine

open Exchange

section Checks
variable {e : MatchingEngine}

theorem crosses_eq (wf : e.book.WF) (side : Side) (orderType : OrderType) (limit : Int) :
    e.crosses side orderType limit = e.view.crosses side orderType limit := by
  cases side with
  | none => rfl
  | buy =>
    simp only [crosses, OrderBook.bestAsk_eq wf]
    change _ = (e.book.queue .sell).head?.any _
    cases (e.book.queue .sell).head? with
    | none => rfl
    | some o => simp [executable]
  | sell =>
    simp only [crosses, OrderBook.bestBid_eq wf]
    change _ = (e.book.queue .buy).head?.any _
    cases (e.book.queue .buy).head? with
    | none => rfl
    | some o =>
      have hside : (Side.sell == Side.buy) = false := rfl
      simp [executable, hside]

theorem findOrder_isSome (wf : e.book.WF) {p : Option (Nat × Int)} (c : Consistent e.view p)
    (id : Nat) : (e.book.findOrder id).isSome = e.view.isResting id := by
  rw [Bool.eq_iff_iff, Option.isSome_iff_exists, c.isResting_iff]
  constructor
  · rintro ⟨o, ho⟩
    obtain ⟨ho, hid⟩ := (OrderBook.findOrder_eq_some wf).mp ho
    exact ⟨o.side, o, (OrderBook.mem_resting wf).mp ho, hid⟩
  · rintro ⟨s, o, ho, hid⟩
    exact ⟨o, (OrderBook.findOrder_eq_some wf).mpr ⟨OrderBook.mem_resting_of_queue wf ho, hid⟩⟩

/-- The scan over all states finds the opposite orders of the client within the limit. -/
theorem wouldSelfTrade_eq (wf : e.book.WF) {p : Option (Nat × Int)} (c : Consistent e.view p)
    (side : Side) (orderType : OrderType) (limit : Int) (clientId excluded : Nat)
    (elsewhere : ∀ o ∈ e.view.queue (opposite side), o.orderId ≠ excluded) :
    e.wouldSelfTrade side orderType limit clientId excluded =
      e.view.selfTrade side orderType limit clientId := by
  rw [Bool.eq_iff_iff, selfTrade_eq_true]
  unfold wouldSelfTrade
  by_cases hclient : clientId = 0
  · simp [hclient]
  rw [if_neg hclient, List.any_eq_true]
  constructor
  · rintro ⟨⟨id, st⟩, hmem, h⟩
    have hst : e.view.state id = some st := AList.mem_lookup_iff.mpr hmem
    simp only [Bool.and_eq_true, Bool.not_eq_true', Bool.or_eq_false_iff, beq_eq_false_iff_ne,
      bne_eq_false_iff_eq, Option.isNone_eq_false_iff, Option.isSome_iff_exists] at h
    obtain ⟨⟨⟨⟨_, hc⟩, hs⟩, o, ho⟩, hex⟩ := h
    obtain ⟨ho, hid⟩ := (OrderBook.findOrder_eq_some wf).mp ho
    have hq : o ∈ e.view.queue o.side := (OrderBook.mem_resting wf).mp ho
    obtain ⟨_, hrest, _⟩ := c.stateAt_order hq
    rw [hid, stateAt_eq hst] at hrest
    have hside : o.side = opposite side := by rw [hrest]; exact hs
    have hprice : o.priceTicks = st.limitPriceTicks := by rw [hrest]; rfl
    refine ⟨hclient, o, hside ▸ hq, ?_, hprice ▸ hex⟩
    rw [hid, stateAt_eq hst]
    exact hc
  · rintro ⟨_, o, ho, hc, hex⟩
    obtain ⟨hst, hrest, _⟩ := c.stateAt_order ho
    have hside : (e.view.stateAt o.orderId).side = opposite side := by
      rw [← (c.filed _ o ho).1]
      exact (congrArg Order.side hrest).symm
    have hprice : (e.view.stateAt o.orderId).limitPriceTicks = o.priceTicks :=
      (congrArg Order.priceTicks hrest).symm
    have hfind : e.book.findOrder o.orderId = some o :=
      (OrderBook.findOrder_eq_some wf).mpr ⟨OrderBook.mem_resting_of_queue wf ho, rfl⟩
    refine ⟨⟨o.orderId, e.view.stateAt o.orderId⟩, AList.mem_lookup_iff.mp hst, ?_⟩
    simp [elsewhere o ho, hc, hside, hfind, hprice, hex]

theorem quantities_nonneg {q : List Order} (h : ∀ o ∈ q, 0 < o.quantity) (ok : Order → Bool) :
    0 ≤ ((q.takeWhile ok).map (·.quantity)).sum := by
  refine List.sum_nonneg ?_
  intro n hn
  obtain ⟨o, ho, rfl⟩ := List.mem_map.mp hn
  exact (h o ((List.takeWhile_sublist ok).subset ho)).le

/-- The walk over the aggregated levels counts the quantity of the orders within the limit. -/
theorem fillableFrom_eq (request : NewOrderRequest) {symbolId : Nat} {side : Side}
    (es : List (Int × PriceLevel)) (wf : ∀ e ∈ es, OrderBook.LevelWF symbolId side e)
    (required : Int) (pos : 0 < required) :
    fillableFrom request required (es.map (fun e => ⟨e.1, e.2.totalQuantity⟩)) =
      decide (required ≤ (((flat PriceLevel.orders es).takeWhile (fun o =>
        executable request.side request.orderType request.priceTicks o.priceTicks)).map
          (·.quantity)).sum) := by
  induction es generalizing required with
  | nil =>
    have : ¬ required ≤ 0 := by omega
    simp [fillableFrom, this]
  | cons e es ih =>
    have hw := wf e List.mem_cons_self
    have ht : ∀ a ∈ es, OrderBook.LevelWF symbolId side a := fun a ha =>
      wf a (List.mem_cons_of_mem _ ha)
    have hpos : ∀ o ∈ flat PriceLevel.orders es, 0 < o.quantity := by
      intro o ho
      obtain ⟨a, ha, hoa⟩ := mem_flat.mp ho
      have hv := (ht a ha).valid o hoa
      simp only [isValidRestingOrder, Bool.and_eq_true, decide_eq_true_eq] at hv
      exact hv.2
    rw [List.map_cons, fillableFrom, flat_cons]
    by_cases hex : executable request.side request.orderType request.priceTicks e.1 = true
    · have hall : ∀ o ∈ e.2.orders,
          executable request.side request.orderType request.priceTicks o.priceTicks = true :=
        fun o ho => by rw [(hw.filed o ho).2]; exact hex
      rw [if_neg (by simp [hex]), List.takeWhile_append_of_pos hall, List.map_append,
        List.sum_append, ← hw.total]
      have hn := quantities_nonneg hpos (fun o =>
        executable request.side request.orderType request.priceTicks o.priceTicks)
      dsimp only
      by_cases henough : e.2.totalQuantity ≥ required
      · rw [if_pos henough]
        exact (decide_eq_true (by omega)).symm
      · rw [if_neg henough, ih ht _ (by omega)]
        exact decide_eq_decide.mpr (by omega)
    · rw [if_pos (by simpa using hex)]
      obtain ⟨o, os, hos⟩ := List.exists_cons_of_ne_nil hw.nonempty
      have ho : executable request.side request.orderType request.priceTicks o.priceTicks = false := by
        rw [(hw.filed o (by rw [hos]; exact List.mem_cons_self)).2]
        simpa using hex
      have : ¬ required ≤ 0 := by omega
      simp [hos, ho, this]

theorem levels_length_le (wf : e.book.WF) (side : Side) :
    (e.book.levels side).length ≤ e.book.orderCount := by
  have hlen : ∀ es : List (Int × PriceLevel), (∀ a ∈ es, a.2.orders ≠ []) →
      es.length ≤ (flat PriceLevel.orders es).length := by
    intro es h
    induction es with
    | nil => exact le_rfl
    | cons a es ih =>
      have h1 := List.length_pos_of_ne_nil (h a List.mem_cons_self)
      have h2 := ih (fun b hb => h b (List.mem_cons_of_mem _ hb))
      rw [flat_cons, List.length_append, List.length_cons]
      omega
  have h := hlen (e.book.levels side) (fun a ha => (wf.levels side a ha).nonempty)
  rw [OrderBook.orderCount_eq wf]
  refine h.trans ?_
  cases side with
  | none => exact Nat.zero_le _
  | buy => exact List.Sublist.length_le (List.sublist_append_left _ _)
  | sell => exact List.Sublist.length_le (List.sublist_append_right _ _)

theorem canFullyFill_eq (wf : e.book.WF) {request : NewOrderRequest} (pos : 0 < request.quantity)
    (valid : isValidSide request.side = true) :
    e.canFullyFill request = decide (request.quantity ≤
      e.view.available request.side request.orderType request.priceTicks) := by
  have hlevels : ∀ side, OrderBook.l2Levels (e.book.levels side) e.book.orderCount =
      (e.book.levels side).map (fun a => ⟨a.1, a.2.totalQuantity⟩) := by
    intro side
    rw [OrderBook.l2Levels, List.take_of_length_le (levels_length_le wf side)]
  have hside : (if request.side = .buy then (e.book.l2View e.book.orderCount).asks
      else (e.book.l2View e.book.orderCount).bids) =
      (e.book.levels (opposite request.side)).map (fun a => ⟨a.1, a.2.totalQuantity⟩) := by
    rw [← hlevels]
    cases hs : request.side with
    | none => rw [hs] at valid; cases valid
    | buy => rfl
    | sell => rfl
  unfold canFullyFill
  simp only [hside]
  exact fillableFrom_eq request _ (wf.levels _) _ pos

end Checks
end MatchingEngine
end Asterion
