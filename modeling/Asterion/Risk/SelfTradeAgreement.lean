import Asterion.Matching.Runs
import Asterion.Matching.Simulation
import Asterion.Risk.ClientBooks

/-! The two self-trade checks. The gateway compares with the best working price of the client on the
other side, the engine scans every order it ever accepted. Where both keep the same orders they
decide alike, since a limit that reaches a worse price reaches the best one. -/
namespace Asterion
open Lib Lib.Tally

namespace RiskGateway

def reaches (request : NewOrderRequest) (price : Int) : Bool :=
  MatchingEngine.executable request.side request.orderType request.priceTicks price

abbrev Description := Nat × Side × Int × Int

def describe (order : WorkingOrder) : Description :=
  (order.clientId, order.side, order.priceTicks, order.quantity)

def workingIn (g : RiskGateway) (symbolId : Nat) : List WorkingOrder :=
  (g.workingOrders.entries.map (·.2)).filter (fun order => order.symbolId = symbolId)

/-- The resting orders of the engine, with the clients of their states. -/
def restingIn (e : MatchingEngine) : List Description :=
  e.book.resting.map (fun o => ((e.stateAt o.orderId).clientId, o.side, o.priceTicks, o.quantity))

/-- The working orders of the engine's symbol are its resting orders. -/
def WorksWhatRests (g : RiskGateway) (e : MatchingEngine) : Prop :=
  ((g.workingIn e.symbolId).map describe).Perm (restingIn e)

instance (g : RiskGateway) (e : MatchingEngine) : Decidable (g.WorksWhatRests e) :=
  inferInstanceAs (Decidable (List.Perm _ _))

/-- The client books of a symbol hold the sums over the working orders. -/
def BooksExactIn (g : RiskGateway) (symbolId : Nat) : Prop :=
  ∀ p : BookPlace, p.symbolId = symbolId → p.side ≠ .none →
    g.clientLevel p = kept (g.workingTotal (fun order => place order == p))

section Books
variable {g : RiskGateway} {request : NewOrderRequest}

theorem mem_workingIn {symbolId : Nat} {order : WorkingOrder} :
    order ∈ g.workingIn symbolId ↔
      (∃ id, g.workingOrders.lookup id = some order) ∧ order.symbolId = symbolId := by
  unfold workingIn
  rw [List.mem_filter, decide_eq_true_iff, List.mem_map]
  constructor
  · rintro ⟨⟨⟨id, _⟩, here, rfl⟩, symbol⟩
    exact ⟨⟨id, AList.mem_lookup_iff.mpr here⟩, symbol⟩
  · rintro ⟨⟨id, found⟩, symbol⟩
    exact ⟨⟨⟨id, order⟩, AList.mem_lookup_iff.mp found, rfl⟩, symbol⟩

theorem clientLevel_iff {symbolId : Nat} (exact : BooksExactIn g symbolId)
    (positive : ∀ order ∈ g.workingIn symbolId, 0 < order.quantity) {p : BookPlace}
    (symbol : p.symbolId = symbolId) (sided : p.side ≠ .none) :
    clientLevel g p ≠ none ↔
      ∃ id order, g.workingOrders.lookup id = some order ∧ place order = p := by
  have here : ∀ e ∈ g.workingOrders.entries.filter (fun e => place e.2 == p), 0 < e.2.quantity := by
    intro e he
    obtain ⟨found, same⟩ := List.mem_filter.mp he
    apply positive
    rw [mem_workingIn]
    refine ⟨⟨e.1, AList.mem_lookup_iff.mpr found⟩, ?_⟩
    rw [← symbol, ← beq_iff_eq.mp same]
    rfl
  rw [exact p symbol sided]
  constructor
  · intro level
    cases orders : g.workingOrders.entries.filter (fun e => place e.2 == p) with
    | nil =>
      rw [workingTotal, orders] at level
      exact absurd rfl level
    | cons e es =>
      have first : e ∈ g.workingOrders.entries.filter (fun e => place e.2 == p) := by
        rw [orders]
        exact List.mem_cons_self
      obtain ⟨found, same⟩ := List.mem_filter.mp first
      exact ⟨e.1, e.2, AList.mem_lookup_iff.mpr found, beq_iff_eq.mp same⟩
  · rintro ⟨id, order, found, same⟩
    have total : 0 < g.workingTotal (fun order => place order == p) := by
      apply List.sum_pos
      · intro n hn
        obtain ⟨e, he, rfl⟩ := List.mem_map.mp hn
        exact here e he
      · rw [Ne, List.map_eq_nil_iff]
        exact List.ne_nil_of_mem (List.mem_filter.mpr
          ⟨AList.mem_lookup_iff.mp found, beq_iff_eq.mpr same⟩)
    rw [kept_ne (by omega)]
    exact Option.some_ne_none _

theorem staysBehind_eq (side : isValidSide request.side = true) (price : Int) :
    staysBehind request price = !reaches request price := by
  unfold staysBehind reaches MatchingEngine.executable
  rw [Bool.eq_iff_iff]
  cases h : request.side with
  | none =>
    rw [h] at side
    cases side
  | buy => simp
  | sell => simp

theorem selfTradeCheckAllows_iff (switched : Prevents g.limits)
    (side : isValidSide request.side = true) (postOnly : request.postOnly = false)
    (opposes : ∀ price, Opposing g request price ↔
      clientLevel g ⟨request.clientId, request.symbolId, opposite request.side, price⟩ ≠ none) :
    (selfTradeCheckAllows g request).1 = false ↔
      ∃ price, Opposing g request price ∧ reaches request price = true := by
  have sided : request.side ≠ .none := by
    intro none
    rw [none] at side
    cases side
  rcases comparesBest switched sided postOnly opposes with ⟨best, least, checked⟩ | ⟨none, checked⟩
  · rw [checked]
    dsimp only
    rw [staysBehind_eq side, Bool.not_eq_false']
    unfold BestOpposing at least
    constructor
    · intro reached
      refine ⟨best, ?_, reached⟩
      cases h : request.side with
      | none => exact absurd h sided
      | buy =>
        rw [h] at least
        exact least.1
      | sell =>
        rw [h] at least
        exact least.1
    · rintro ⟨price, opposing, reached⟩
      -- what reaches some opposing price reaches the best one
      apply Exchange.executable_mono _ reached
      cases h : request.side with
      | none => exact absurd h sided
      | buy =>
        rw [h] at least
        exact not_lt.mpr (least.2 opposing)
      | sell =>
        rw [h] at least
        exact not_lt.mpr (least.2 opposing)
  · rw [checked]
    constructor
    · intro refused
      cases refused
    · rintro ⟨price, opposing, _⟩
      exact absurd opposing (none price)

end Books

section Engine
variable {g : RiskGateway} {e : MatchingEngine} (s : e.Sound) (same : WorksWhatRests g e)
include s same

theorem workingIn_positive : ∀ order ∈ g.workingIn e.symbolId, 0 < order.quantity := by
  intro order here
  have described := same.mem_iff.mp (List.mem_map_of_mem (f := describe) here)
  obtain ⟨o, ho, shown⟩ := List.mem_map.mp described
  have quantity : o.quantity = order.quantity := by
    simp only [describe, Prod.mk.injEq] at shown
    exact shown.2.2.2
  rw [← quantity]
  exact OrderBook.quantity_pos s.wf ho

/-- An opposing price is the price of a resting order of the client on the other side. -/
theorem opposing_iff {request : NewOrderRequest} (symbol : request.symbolId = e.symbolId)
    (price : Int) : Opposing g request price ↔
      ∃ o ∈ e.view.queue (opposite request.side),
        (e.view.stateAt o.orderId).clientId = request.clientId ∧ o.priceTicks = price := by
  constructor
  · rintro ⟨id, order, found, placed⟩
    simp only [place, BookPlace.mk.injEq] at placed
    have here : order ∈ g.workingIn e.symbolId :=
      mem_workingIn.mpr ⟨⟨id, found⟩, placed.2.1.trans symbol⟩
    have described := same.mem_iff.mp (List.mem_map_of_mem (f := describe) here)
    obtain ⟨o, ho, shown⟩ := List.mem_map.mp described
    simp only [describe, Prod.mk.injEq] at shown
    have queued := (OrderBook.mem_resting s.wf).mp ho
    rw [shown.2.1, placed.2.2.1] at queued
    exact ⟨o, queued, shown.1.trans placed.1, shown.2.2.1.trans placed.2.2.2⟩
  · rintro ⟨o, ho, client, rfl⟩
    have side := (s.consistent.filed _ o ho).1
    have rests : o ∈ e.book.resting := OrderBook.mem_resting_of_queue s.wf ho
    have described := same.mem_iff.mpr (List.mem_map.mpr ⟨o, rests, rfl⟩)
    obtain ⟨order, here, shown⟩ := List.mem_map.mp described
    simp only [describe, Prod.mk.injEq] at shown
    obtain ⟨⟨id, found⟩, symbol'⟩ := mem_workingIn.mp here
    refine ⟨id, order, found, ?_⟩
    rw [place, shown.1, shown.2.1, shown.2.2.1, symbol', ← symbol, side]
    exact congrArg (BookPlace.mk · _ _ _) client

end Engine

/-- With the same orders on both sides, the gateway refuses exactly what the engine would refuse. -/
theorem self_trade_checks_agree {symbolId : Nat} (requests : List MatchingEngine.Request)
    {g : RiskGateway} (switched : Prevents g.limits)
    (same : WorksWhatRests g ((MatchingEngine.new symbolId).run requests).engine)
    (books : BooksExactIn g symbolId) {request : NewOrderRequest}
    (symbol : request.symbolId = symbolId) (postOnly : request.postOnly = false)
    (client : request.clientId ≠ 0) (side : isValidSide request.side = true) :
    (selfTradeCheckAllows g request).1 = false ↔
      ((MatchingEngine.new symbolId).run requests).engine.wouldSelfTrade request.side
        request.orderType request.priceTicks request.clientId = true := by
  have s := (MatchingEngine.new_sound symbolId).run requests
  have own : ((MatchingEngine.new symbolId).run requests).engine.symbolId = symbolId := by
    have view := ((MatchingEngine.new_sound symbolId).run_view requests).1
    have kept := (MatchingEngine.new_sound symbolId).consistent.run_symbolId requests
    exact (congrArg Exchange.symbolId view).trans kept
  generalize ((MatchingEngine.new symbolId).run requests).engine = e at s own same ⊢
  subst own
  have sided : request.side ≠ .none := by
    intro none
    rw [none] at side
    cases side
  have opposes : ∀ price, Opposing g request price ↔
      clientLevel g ⟨request.clientId, request.symbolId, opposite request.side, price⟩ ≠ none := by
    intro price
    exact (clientLevel_iff books (workingIn_positive s same) symbol (opposite_ne_none sided)).symm
  have elsewhere : ∀ o ∈ e.view.queue (opposite request.side), o.orderId ≠ invalidOrderId :=
    fun o ho => OrderBook.orderId_ne_invalid s.wf (OrderBook.mem_resting_of_queue s.wf ho)
  rw [selfTradeCheckAllows_iff switched side postOnly opposes,
    MatchingEngine.wouldSelfTrade_eq s.wf s.consistent _ _ _ _ _ elsewhere,
    Exchange.selfTrade_eq_true]
  constructor
  · rintro ⟨price, opposing, reached⟩
    obtain ⟨o, ho, same', rfl⟩ := (opposing_iff s same symbol price).mp opposing
    exact ⟨client, o, ho, same', reached⟩
  · rintro ⟨_, o, ho, same', reached⟩
    exact ⟨o.priceTicks, (opposing_iff s same symbol _).mpr ⟨o, ho, same', rfl⟩, reached⟩

def offer : NewOrderRequest :=
  { clientOrderId := 1, symbolId := 1, side := .sell, priceTicks := 105, quantity := 10
    clientId := 7 }

def ownBid : NewOrderRequest := { offer with side := .buy }

def offering : RiskGateway := [.onMarketData 1 100 0, .checkNewOrder offer 0].foldl (step id)
  { limits := { enableSelfTradePrevention := true } }

theorem self_trade_checks_agree_on_offer : (selfTradeCheckAllows offering ownBid).1 = false := by
  have idle : Along.Each (step id) SwitchedOnIdle { limits := { enableSelfTradePrevention := true } }
      [.onMarketData 1 100 0, .checkNewOrder offer 0] := by
    refine ⟨?_, ?_, trivial⟩
    · intro limits same
      cases same
    · intro limits same
      cases same
  have books : BooksExact offering := ((self_trade_books_idle idle).last (by decide)).1
  have law := @self_trade_checks_agree 1 [.submit offer] offering (by decide) (by decide)
    (fun p _ sided => books p sided) ownBid rfl rfl (by decide) (by decide)
  exact law.mpr (by decide)

end RiskGateway
end Asterion
