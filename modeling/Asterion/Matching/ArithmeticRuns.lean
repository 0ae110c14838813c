import Asterion.Matching.ArithmeticBounds

/-! Requests and runs of which no signed operation overflows: exactly those that the exchange
can afford. -/
namespace Asterion
open Lib Lib.Along
open MatchingEngine (Request executable)
open Exchange

namespace MatchingEngine

section Execute
variable {w : Reporting} {x : Exchange} {rs : List ExecutionReport} {i : Nat} {wanted ts : Int}

theorem restLimitOrder_taken (h : w.Shows x rs) (c : Consistent x (some (i, wanted)))
    (pos : 0 < wanted) (limit : (x.stateAt i).orderType = .limit) (ts : Int) :
    (restLimitOrder w (w.engine.stateAt i) wanted ts).2 = decide (x.symbolId ≠ invalidSymbolId) := by
  have hand := c.inHand i wanted rfl
  have ok := c.knownAt hand.stored
  have book : w.engine.book.symbolId = x.symbolId := by
    rw [h.symbol, ← h.view]
    rfl
  have free : Queues.find w.engine.book.queue (x.stateAt i).exchangeOrderId = none := by
    rw [OrderBook.find_eq h.wf, OrderBook.findOrder_eq_none h.wf]
    intro o ho own
    have queued := (OrderBook.mem_resting h.wf).mp ho
    rw [h.queue] at queued
    exact hand.absent _ o queued (own.trans ok.own)
  have price := ok.price limit
  have positive := ok.positive
  rw [← ok.own] at positive
  unfold restLimitOrder
  dsimp only
  rw [(OrderBook.addOrder_outcome h.wf _).done, h.stateAt, Queues.add]
  by_cases symbol : x.symbolId = invalidSymbolId
  · rw [if_neg]
    · simp [symbol]
    · simp [isValidRestingOrder, ok.symbol, symbol]
  · rw [if_pos]
    · simp [symbol]
    · refine ⟨?_, ok.symbol.trans book.symm, free⟩
      have id : (x.stateAt i).exchangeOrderId ≠ invalidOrderId := positive.ne'
      simp [isValidRestingOrder, ok.symbol, symbol, ok.side, price, pos, id]

/-- The order that is left over has room at its price if it comes to rest. -/
def RoomFor (x : Exchange) (i : Nat) (left : Int) (rests : Bool) : Prop :=
  rests = true → x.symbolId ≠ invalidSymbolId → 0 < left →
    restingAt (x.stateAt i).limitPriceTicks (x.queue (x.stateAt i).side) + left < 2 ^ 63

theorem finishResults_inWord (h : w.Shows x rs) (c : Consistent x (some (i, wanted)))
    (held : x.Held) {rests : Bool} (limit : rests = true → (x.stateAt i).orderType = .limit)
    (ts : Int) :
    (∀ v ∈ finishResults w i wanted rests ts, InWord v) ↔ RoomFor x i wanted rests := by
  have hand := c.inHand i wanted rfl
  have filled := (c.knownAt hand.stored).filled
  have original := held.original i
  have report : 0 < wanted → ∀ v ∈ (x.stateAt i).reportResults, InWord v := fun pos =>
    OrderState.reportResults_inWord (held.notional i).1 (held.notional i).2
      (by rw [hand.open_eq]; exact ⟨by omega, by have := hand.open_eq; omega⟩)
  unfold finishResults RoomFor
  dsimp only
  split
  · rename_i pos
    cases rests with
    | false =>
      rw [h.stateAt]
      exact iff_of_true (report pos) (fun h => by cases h)
    | true =>
      rw [restLimitOrder_taken h c pos (limit rfl) ts, h.stateAt]
      by_cases symbol : x.symbolId = invalidSymbolId
      · rw [if_neg (by simp [symbol])]
        exact iff_of_true (report pos) (fun _ valid => absurd symbol valid)
      · have nonneg := restingAt_nonneg (x.stateAt i).limitPriceTicks
          (fun o ho => c.quantity_pos (s := (x.stateAt i).side) ho)
        rw [if_pos (by simp [symbol])]
        simp only [List.mem_singleton, forall_eq, OrderBook.total_eq_restingAt h.wf, h.queue]
        constructor
        · exact fun small _ _ _ => small.2
        · exact fun room => ⟨by omega, room trivial symbol pos⟩
  · rename_i done
    exact iff_of_true (fun _ hv => by cases hv) (fun _ _ pos => absurd pos done)

theorem held_rest (c : Consistent x (some (i, wanted))) (held : x.Held)
    (symbol : x.symbolId ≠ invalidSymbolId)
    (room : restingAt (x.stateAt i).limitPriceTicks (x.queue (x.stateAt i).side) + wanted < 2 ^ 63)
    (ts : Int) : (x.rest i ts).1.Held := by
  have size : (restingOrder (x.stateAt i)).quantity = wanted := (c.inHand i wanted rfl).open_eq
  unfold Exchange.rest
  rw [if_neg symbol]
  refine ⟨held.original, held.notional, fun s price => ?_⟩
  dsimp only
  split
  · rename_i own
    have before := held.totals s price
    rw [restingAt_enqueue, size]
    split
    · rename_i same
      rw [own, ← same]
      have bound : restingAt (restingOrder (x.stateAt i)).priceTicks
          (x.queue (restingOrder (x.stateAt i)).side) + wanted < 2 ^ 63 := room
      omega
    · omega
  · exact held.totals s price

/-- Matching an order and letting the rest come to rest stays in range exactly where its fills
are borne and the rest has room. -/
theorem executeResults_inWord (h : w.Shows x rs) (c : Consistent x (some (i, wanted)))
    (held : x.Held) {rests : Bool} (limit : rests = true → (x.stateAt i).orderType = .limit)
    (ts : Int) :
    ((∀ v ∈ executeResults w i wanted rests ts, InWord v) ↔
      x.Bears (x.sweep i wanted) (x.stateAt i).filledNotionalTicks ∧
        RoomFor x i (wanted - Sweep.total (x.sweep i wanted)) rests) ∧
    (x.Bears (x.sweep i wanted) (x.stateAt i).filledNotionalTicks →
      RoomFor x i (wanted - Sweep.total (x.sweep i wanted)) rests →
        (x.execute i wanted rests ts).1.Held) := by
  obtain ⟨w', hw', h'⟩ := matchLoop_eq ts wanted.toNat h c le_rfl
  obtain ⟨loop, kept⟩ := matchResults_inWord ts wanted.toNat h c held le_rfl
  have m := c.matched ts
  have c' := consistent_of_trace (m.trace (.cancel {})) c
  have limit' : rests = true →
      ((x.trades i ts (x.sweep i wanted)).1.stateAt i).orderType = .limit := by
    rw [m.fixed (·.orderType) (fun _ _ _ => rfl)]
    exact limit
  have room : RoomFor (x.trades i ts (x.sweep i wanted)).1 i
      (wanted - Sweep.total (x.sweep i wanted)) rests ↔
      RoomFor x i (wanted - Sweep.total (x.sweep i wanted)) rests := by
    unfold RoomFor
    rw [m.symbol, m.fixed (·.limitPriceTicks) (fun _ _ _ => rfl),
      m.fixed (·.side) (fun _ _ _ => rfl), m.own]
  constructor
  · unfold executeResults matchAgainstBook
    rw [hw']
    simp only [List.forall_mem_append, loop]
    refine and_congr_right fun bears => ?_
    rw [finishResults_inWord h' c' (kept bears) limit' ts, room]
  · intro bears left
    have held' := kept bears
    rw [← room] at left
    unfold execute
    dsimp only
    split
    · rename_i short
      cases rests with
      | false => exact held'.status i _ _ ts _
      | true =>
        by_cases symbol : (x.trades i ts (x.sweep i wanted)).1.symbolId = invalidSymbolId
        · rw [if_pos rfl, Exchange.rest, if_pos symbol]
          exact held'.status i _ _ ts _
        · exact held_rest c' held' symbol (left rfl symbol short) ts
    · exact held'

end Execute

/-- The scan for a fill-or-kill order takes level after level from what is required. -/
theorem fillableResults_inWord (request : NewOrderRequest) (required : Int) (levels : List L2Level)
    (positive : ∀ level ∈ levels, 0 < level.quantity) (small : required < 2 ^ 63) :
    ∀ v ∈ fillableResults request required levels, InWord v := by
  induction levels generalizing required with
  | nil => simp [fillableResults]
  | cons level levels ih =>
    have first := positive level List.mem_cons_self
    unfold fillableResults
    split
    · simp
    · split
      · simp
      · rename_i short
        rw [List.forall_mem_cons]
        exact ⟨⟨by omega, by omega⟩,
          ih _ (fun l hl => positive l (List.mem_cons_of_mem _ hl)) (by omega)⟩

theorem canFullyFillResults_inWord {e : MatchingEngine} (wf : e.book.WF) {request : NewOrderRequest}
    (small : request.quantity < 2 ^ 63) : ∀ v ∈ e.canFullyFillResults request, InWord v := by
  have positive (side : Side) :
      ∀ level ∈ OrderBook.l2Levels (e.book.levels side) e.book.orderCount, 0 < level.quantity := by
    intro level hl
    obtain ⟨entry, he, rfl⟩ := List.mem_map.mp hl
    have stored := List.mem_of_mem_take he
    obtain ⟨o, ho⟩ := List.exists_mem_of_ne_nil _ (wf.levels side entry stored).nonempty
    have queued : o ∈ e.book.queue side := Buckets.mem_flat.mpr ⟨entry, stored, ho⟩
    have part := le_restingAt (OrderBook.queue_pos wf side) queued
    have first := OrderBook.queue_pos wf side o queued
    rw [((wf.levels side entry stored).filed o ho).2, ← OrderBook.level_total wf stored] at part
    exact lt_of_lt_of_le first part
  apply fillableResults_inWord request request.quantity _ _ small
  split
  · exact positive .sell
  · exact positive .buy

theorem bears_congr {x y : Exchange} {fs : List (Order × Int)} {notional : Int}
    (same : ∀ f ∈ fs, y.stateAt f.1.orderId = x.stateAt f.1.orderId) :
    y.Bears fs notional ↔ x.Bears fs notional := by
  constructor
  · rintro ⟨incoming, resting⟩
    exact ⟨incoming, fun f hf => same f hf ▸ resting f hf⟩
  · rintro ⟨incoming, resting⟩
    exact ⟨incoming, fun f hf => (same f hf).symm ▸ resting f hf⟩

section Reopened
variable {x : Exchange} {request : ReplaceOrderRequest} (c : Consistent x none) {s : Side}
  {o : Order} (ho : o ∈ x.queue s) (hid : o.orderId = request.exchangeOrderId)
include c

theorem reopen_held (held : x.Held)
    (fits : (x.stateAt request.exchangeOrderId).filledQuantity + request.newQuantity < 2 ^ 63) :
    (x.reopen request).1.Held := by
  have emptied : Held
      { x with queue := fun s => dequeue request.exchangeOrderId (x.queue s) } :=
    held.queue rfl fun s price => restingAt_dequeue_le price (fun y hy => c.quantity_pos hy) _
  exact emptied.setState request.exchangeOrderId fits (held.notional _)

include ho

theorem reopen_room {taken : Int} :
    RoomFor (x.reopen request).1 request.exchangeOrderId (request.newQuantity - taken) true ↔
      (0 < request.newQuantity - taken →
        restingAt request.newPriceTicks (dequeue request.exchangeOrderId
          (x.queue (x.stateAt request.exchangeOrderId).side)) + (request.newQuantity - taken) <
        2 ^ 63) := by
  have valid : (x.reopen request).1.symbolId ≠ invalidSymbolId := by
    obtain ⟨-, resting, own⟩ := c.filed s o ho
    simp only [isValidRestingOrder, Bool.and_eq_true, bne_iff_ne] at resting
    exact own ▸ resting.1.1.1.2
  unfold RoomFor
  rw [reopen_stateAt_self]
  exact ⟨fun h => h rfl valid, fun h _ _ => h⟩

include hid

theorem reopen_apart : ∀ y ∈ x.queue (opposite (x.stateAt request.exchangeOrderId).side),
    y.orderId ≠ request.exchangeOrderId := hid ▸ c.opposite_apart ho

theorem reopen_sweep :
    (x.reopen request).1.sweep request.exchangeOrderId request.newQuantity =
      x.taken (x.terms (.replace request)) := by
  have queue : (x.reopen request).1.queue (opposite (x.reopened request).side) =
      x.queue (opposite (x.stateAt request.exchangeOrderId).side) :=
    dequeue_absent (reopen_apart c ho hid)
  unfold Exchange.sweep Exchange.taken
  rw [reopen_stateAt_self, queue]
  rfl

theorem reopen_bears {notional : Int} :
    (x.reopen request).1.Bears (x.taken (x.terms (.replace request))) notional ↔
      x.Bears (x.taken (x.terms (.replace request))) notional := by
  refine bears_congr fun f hf => reopen_stateAt_other x ?_
  exact reopen_apart c ho hid f.1 (Sweep.mem_fills (fun o ho => c.quantity_pos ho) hf).1

end Reopened

section Admitted
variable {e : MatchingEngine} (wf : e.book.WF) (symbol : e.book.symbolId = e.symbolId)
  (c : Consistent e.view none) (held : e.view.Held)
include wf symbol c held

theorem acceptResults_inWord {request : NewOrderRequest} (ok : e.view.malformed request = none)
    (good : e.view.inadmissible request = none) (small : request.quantity < 2 ^ 63) :
    let affordable := e.view.Bears (e.view.taken (e.view.terms (.submit request))) 0 ∧
      (request.orderType = .limit → request.timeInForce = .gtc →
        e.view.symbolId ≠ invalidSymbolId → e.view.Rests (e.view.terms (.submit request)))
    ((∀ v ∈ e.acceptResults request, InWord v) ↔ affordable) ∧
      (affordable → (e.view.accept request).1.Held) := by
  intro affordable
  have pos := (malformed_eq_none ok).2.2.1
  have c₁ := c.enlist ok (c.apart_of_admissible good)
  have self : (e.view.enlist request).1.stateAt e.view.nextExchangeOrderId =
      e.view.accepted request := stateAt_setState_same e.view _ _
  have h₀ := emplaceOrder_shows wf symbol c request
  have state : (e.emplaceOrder request).stateAt e.nextExchangeOrderId = e.view.accepted request :=
    (h₀.stateAt _).trans self
  have h₁ := h₀.record (makeReport (e.view.accepted request) .new 0 0 request.timestampNs .none)
  have filed : (e.view.setState e.view.nextExchangeOrderId (e.view.accepted request)).Held :=
    held.setState e.view.nextExchangeOrderId small ⟨le_refl 0, show (0 : Int) < 2 ^ 63 by decide⟩
  have held₁ : (e.view.enlist request).1.Held := filed.same ⟨rfl, rfl⟩
  have report : ∀ v ∈ (e.view.accepted request).reportResults, InWord v :=
    OrderState.reportResults_inWord (le_refl 0) (show (0 : Int) < 2 ^ 63 by decide)
      (show InWord (request.quantity - 0) from ⟨by omega, by omega⟩)
  have sweep : (e.view.enlist request).1.sweep e.view.nextExchangeOrderId request.quantity =
      e.view.taken (e.view.terms (.submit request)) := by
    unfold Exchange.sweep
    rw [self]
    rfl
  have absent : ∀ s, ∀ o ∈ e.view.queue s, o.orderId ≠ e.view.nextExchangeOrderId := fun s o ho =>
    (c.knownAt (c.stateAt_order ho).1).old.ne
  have bears : (e.view.enlist request).1.Bears (e.view.taken (e.view.terms (.submit request))) 0 ↔
      e.view.Bears (e.view.taken (e.view.terms (.submit request))) 0 := by
    refine bears_congr fun f hf => stateAt_setState_other e.view _ ?_
    exact absent _ f.1 (Sweep.mem_fills (fun o ho => c.quantity_pos ho) hf).1
  have room : RoomFor (e.view.enlist request).1 e.view.nextExchangeOrderId
      (request.quantity - Sweep.total (e.view.taken (e.view.terms (.submit request))))
      (decide (request.orderType = .limit ∧ request.timeInForce = .gtc)) ↔
      (request.orderType = .limit → request.timeInForce = .gtc →
        e.view.symbolId ≠ invalidSymbolId → e.view.Rests (e.view.terms (.submit request))) := by
    unfold RoomFor Exchange.Rests
    rw [self, show (e.view.terms (.submit request)).id = e.view.nextExchangeOrderId from rfl,
      dequeue_absent (absent _), decide_eq_true_iff, and_imp]
    rfl
  have limit (rests : decide (request.orderType = .limit ∧ request.timeInForce = .gtc) = true) :
      ((e.view.enlist request).1.stateAt e.view.nextExchangeOrderId).orderType = .limit := by
    rw [self]
    exact (of_decide_eq_true rests).1
  obtain ⟨run, kept⟩ := executeResults_inWord h₁ c₁ held₁ limit request.timestampNs
  have zero : (e.view.accepted request).filledNotionalTicks = 0 := rfl
  rw [self, zero, sweep, bears, room] at run kept
  constructor
  · unfold acceptResults
    simp only [state, List.forall_mem_append]
    exact (and_iff_right report).trans run
  · exact fun h => kept h.1 h.2

theorem reworkResults_inWord {request : ReplaceOrderRequest} {book : OrderBook} (wf' : book.WF)
    (symbol' : book.symbolId = e.symbolId)
    (hq : ∀ s, book.queue s = dequeue request.exchangeOrderId (e.book.queue s))
    {s : Side} {o : Order} (ho : o ∈ e.view.queue s) (hid : o.orderId = request.exchangeOrderId)
    (hqty : 0 < request.newQuantity) (hprice : 0 < request.newPriceTicks)
    (apart : e.view.selfTrade (e.view.stateAt o.orderId).side (e.view.stateAt o.orderId).orderType
      request.newPriceTicks (e.view.stateAt o.orderId).clientId = false)
    (small : request.newQuantity < 2 ^ 63) :
    let state := e.view.stateAt request.exchangeOrderId
    let affordable := state.filledQuantity + request.newQuantity < 2 ^ 63 ∧
      e.view.Bears (e.view.taken (e.view.terms (.replace request))) state.filledNotionalTicks ∧
      e.view.Rests (e.view.terms (.replace request))
    ((∀ v ∈ reworkResults { engine := { e with book } } request, InWord v) ↔ affordable) ∧
      (affordable → (e.view.rework request).1.Held) := by
  intro state affordable
  have c₁ := c.reopen request ho hid hqty hprice apart
  rw [hid] at c₁
  obtain ⟨stored, -, limit, -⟩ := c.stateAt_order ho
  have known := c.knownAt stored
  rw [hid] at known limit
  have filled : 0 ≤ state.filledQuantity := known.filled
  obtain ⟨st, hst⟩ : ∃ st, st = e.view.reopened request := ⟨_, rfl⟩
  have h₀ : Reporting.Shows { engine := { e with book } }
      { e.view with queue := fun s => dequeue request.exchangeOrderId (e.view.queue s) } [] :=
    (shows_view wf symbol).setBook _ wf' (symbol'.trans symbol.symm) hq
  have h₁ := (h₀.setState request.exchangeOrderId st).record
    (makeReport st .replaced 0 0 request.timestampNs .none)
  have reopened : Exchange.setState
      { e.view with queue := fun s => dequeue request.exchangeOrderId (e.view.queue s) }
      request.exchangeOrderId st = (e.view.reopen request).1 := by
    rw [hst]
    rfl
  rw [reopened] at h₁
  have self : (e.view.reopen request).1.stateAt request.exchangeOrderId = st := by
    rw [hst, reopen_stateAt_self]
  have report : ∀ v ∈ st.reportResults, InWord v := by
    rw [hst]
    refine OrderState.reportResults_inWord (held.notional _).1 (held.notional _).2 ?_
    change InWord (state.filledQuantity + request.newQuantity - state.filledQuantity)
    rw [add_sub_cancel_left]
    exact ⟨by omega, small⟩
  have execute (fits : state.filledQuantity + request.newQuantity < 2 ^ 63) := by
    have notional : st.filledNotionalTicks = state.filledNotionalTicks := by rw [hst]; rfl
    have always : true = true →
        ((e.view.reopen request).1.stateAt request.exchangeOrderId).orderType = .limit := fun _ =>
      (reopen_orderType request).trans limit
    have run := executeResults_inWord h₁ c₁ (reopen_held c held fits) always request.timestampNs
    rw [self, notional, reopen_sweep c ho hid, reopen_bears c ho hid, reopen_room c ho] at run
    exact run
  have stateAt : ({ engine := { e with book } } : Reporting).engine.stateAt request.exchangeOrderId =
      state := rfl
  have shown : (({ engine := { e with book } } : Reporting).setState request.exchangeOrderId
      st).engine.stateAt request.exchangeOrderId = st := by
    rw [(h₀.setState request.exchangeOrderId st).stateAt, stateAt_setState_same]
  have restated : st = { state with
      limitPriceTicks := request.newPriceTicks
      originalQuantity := state.filledQuantity + request.newQuantity
      status := .replaced
      timestampNs := request.timestampNs } := hst
  constructor
  · unfold reworkResults
    simp only [stateAt, ← restated, shown, List.cons_append, List.forall_mem_cons,
      List.forall_mem_append]
    constructor
    · rintro ⟨sum, -, run⟩
      exact ⟨sum.2, (execute sum.2).1.mp run⟩
    · rintro ⟨fits, rest⟩
      exact ⟨⟨by omega, fits⟩, report, (execute fits).1.mpr rest⟩
  · exact fun h => (execute h.1).2 h.2.1 h.2.2

end Admitted

theorem Sound.reserved {e : MatchingEngine} (s : e.Sound) (clientOrderId : Nat) :
    ∃ e₁ : MatchingEngine, e₁ = { e with
        seenClientOrderIds := insert clientOrderId e.seenClientOrderIds } ∧
      e.view.reserve clientOrderId = e₁.view ∧ e₁.Sound :=
  ⟨_, rfl, rfl, s.wf, s.symbol, s.consistent.reserve clientOrderId⟩

/-- The numbers of an affordable order do not look at the set of used ids. -/
theorem bears_reserve (x : Exchange) (id : Nat) (fs : List (Order × Int)) (notional : Int) :
    (x.reserve id).Bears fs notional ↔ x.Bears fs notional := bears_congr fun _ _ => rfl

section Serving
variable {e : MatchingEngine} (s : e.Sound) (held : e.view.Held)
include s held

theorem submitResults_inWord {request : NewOrderRequest} (small : request.quantity < 2 ^ 63) :
    (∀ v ∈ e.submitResults request, InWord v) ↔ e.view.Affords (.submit request) := by
  unfold submitResults
  rw [show e.symbolId = e.view.symbolId from rfl,
    ← elim_malformed e.view request _ (fun _ => ([] : List Int))]
  cases malformed : e.view.malformed request with
  | some reason =>
    refine iff_of_true (fun _ hv => by cases hv) fun ok => ?_
    rw [malformed] at ok
    cases ok
  | none =>
    rw [Option.elim_none, reserveClientOrderId_eq]
    cases seen : e.view.reusedId request.clientOrderId with
    | true =>
      refine iff_of_true (fun _ hv => by cases hv) fun _ fresh => ?_
      rw [seen] at fresh
      cases fresh
    | false =>
      obtain ⟨e₁, he₁, view, s₁⟩ := s.reserved request.clientOrderId
      have held₁ : e₁.view.Held := view ▸ held.same (.reserve e.view request.clientOrderId)
      have ok : e₁.view.malformed request = none := by
        rw [← view]
        exact malformed
      have affords : e.view.Affords (.submit request) ↔
          (e₁.view.inadmissible request = none → e₁.view.Bears
              (e₁.view.taken (e₁.view.terms (.submit request))) 0 ∧
            (request.orderType = .limit → request.timeInForce = .gtc →
              e₁.view.symbolId ≠ invalidSymbolId →
                e₁.view.Rests (e₁.view.terms (.submit request)))) := by
        have bears := bears_reserve e.view request.clientOrderId
          (e.view.taken (e.view.terms (.submit request))) 0
        rw [← view]
        constructor
        · exact fun h good => ⟨bears.mpr (h malformed seen good).1, (h malformed seen good).2⟩
        · exact fun h _ _ good => ⟨bears.mp (h good).1, (h good).2⟩
      obtain ⟨-, valid, pos, -⟩ := malformed_eq_none malformed
      have known : ∀ o ∈ e₁.view.queue (opposite request.side), o.orderId ≠ invalidOrderId :=
        fun o ho => (s₁.consistent.knownAt (s₁.consistent.stateAt_order ho).1).positive.ne'
      have scan : ∀ v ∈ (if request.timeInForce = .fok then e₁.canFullyFillResults request else []),
          InWord v := by
        split
        · exact canFullyFillResults_inWord s₁.wf small
        · exact fun _ hv => by cases hv
      rw [if_neg Bool.false_ne_true, ← he₁, affords]
      dsimp only
      rw [crosses_eq s₁.wf, wouldSelfTrade_eq s₁.wf s₁.consistent _ _ _ _ _ known,
        canFullyFill_eq s₁.wf pos valid]
      -- the scan of a fill-or-kill is in range, so the checks end as those of the exchange
      refine Iff.trans (b := ∀ v ∈ (e₁.view.inadmissible request).elim (e₁.acceptResults request)
        (fun _ => []), InWord v) ?_ ?_
      · rw [elim_inadmissible]
        split
        · rfl
        split
        · rfl
        · rw [List.forall_mem_append, and_iff_right scan]
      · cases admission : e₁.view.inadmissible request with
        | some reason => exact iff_of_true (fun _ hv => by cases hv) (fun h => by cases h)
        | none =>
          rw [Option.elim_none, forall_prop_of_true rfl]
          exact (acceptResults_inWord s₁.wf s₁.symbol s₁.consistent held₁ ok admission small).1

theorem cancelOrderResults_inWord (request : CancelOrderRequest) :
    ∀ v ∈ e.cancelOrderResults request, InWord v := by
  unfold cancelOrderResults
  rw [reserveClientOrderId_eq]
  split
  · exact fun _ hv => by cases hv
  · rename_i e₁ reserved
    split at reserved
    · cases reserved
    · obtain rfl := Option.some.inj reserved
      have totals : ∀ side price, restingAt price (e.book.queue side) < 2 ^ 63 := held.totals
      split
      · exact fun _ hv => by cases hv
      · rename_i found
        rw [List.forall_mem_append]
        refine ⟨OrderBook.cancelResults_inWord s.wf totals _, ?_⟩
        have resting : e.view.isResting request.exchangeOrderId = true := by
          have present : ¬ ((e.states.lookup request.exchangeOrderId).isNone ||
            (e.book.findOrder request.exchangeOrderId).isNone) = true := found
          rw [unknown_eq s.wf s.consistent] at present
          simpa using present
        obtain ⟨side, o, ho, own⟩ := s.consistent.isResting_iff.mp resting
        have quantity := s.consistent.quantity_pos ho
        obtain ⟨stored, rests, -⟩ := s.consistent.stateAt_order ho
        have filled := (s.consistent.knownAt stored).filled
        have original := held.original o.orderId
        have size : o.quantity = (e.view.stateAt o.orderId).originalQuantity -
            (e.view.stateAt o.orderId).filledQuantity := congrArg Order.quantity rests
        rw [← own]
        have left : InWord ((e.view.stateAt o.orderId).originalQuantity -
            (e.view.stateAt o.orderId).filledQuantity) := ⟨by omega, by omega⟩
        exact OrderState.reportResults_inWord (held.notional o.orderId).1
          (held.notional o.orderId).2 left

/-- A replace stays in range exactly where the exchange affords it. -/
theorem replaceResults_inWord {request : ReplaceOrderRequest} (small : request.newQuantity < 2 ^ 63) :
    (∀ v ∈ e.replaceResults request, InWord v) ↔ e.view.Affords (.replace request) := by
  unfold replaceResults
  by_cases quantity : request.newQuantity ≤ 0
  · rw [if_pos quantity]
    exact iff_of_true (fun _ hv => by cases hv) (fun h => absurd h (not_lt.mpr quantity))
  rw [if_neg quantity]
  by_cases price : request.newPriceTicks ≤ 0
  · rw [if_pos price]
    exact iff_of_true (fun _ hv => by cases hv) (fun _ h => absurd h (not_lt.mpr price))
  rw [if_neg price, reserveClientOrderId_eq]
  cases seen : e.view.reusedId request.clientOrderId with
  | true =>
    refine iff_of_true (fun _ hv => by cases hv) fun _ _ fresh => ?_
    rw [seen] at fresh
    cases fresh
  | false =>
    obtain ⟨e₁, he₁, view, s₁⟩ := s.reserved request.clientOrderId
    have held₁ : e₁.view.Held := view ▸ held.same (.reserve e.view request.clientOrderId)
    have states : e₁.view.stateAt request.exchangeOrderId =
        e.view.stateAt request.exchangeOrderId := by
      rw [← view]
      rfl
    have affords : e.view.Affords (.replace request) ↔
        (e₁.view.isResting request.exchangeOrderId = true →
          e₁.view.selfTrade (e.view.stateAt request.exchangeOrderId).side
            (e.view.stateAt request.exchangeOrderId).orderType request.newPriceTicks
            (e.view.stateAt request.exchangeOrderId).clientId = false →
          (e.view.stateAt request.exchangeOrderId).filledQuantity + request.newQuantity < 2 ^ 63 ∧
          e₁.view.Bears (e₁.view.taken (e₁.view.terms (.replace request)))
            (e.view.stateAt request.exchangeOrderId).filledNotionalTicks ∧
          e₁.view.Rests (e₁.view.terms (.replace request))) := by
      have bears := bears_reserve e.view request.clientOrderId
        (e.view.taken (e.view.terms (.replace request)))
        (e.view.stateAt request.exchangeOrderId).filledNotionalTicks
      have pos := not_le.mp quantity
      have positive := not_le.mp price
      rw [← view]
      constructor
      · intro h resting apart
        obtain ⟨sum, fills, room⟩ := h pos positive seen resting apart
        exact ⟨sum, bears.mpr fills, room⟩
      · intro h _ _ _ resting apart
        obtain ⟨sum, fills, room⟩ := h resting apart
        exact ⟨sum, bears.mp fills, room⟩
    rw [if_neg Bool.false_ne_true, ← he₁, affords]
    dsimp only
    rw [unknown_eq s₁.wf s₁.consistent]
    cases resting : e₁.view.isResting request.exchangeOrderId with
    | false =>
      rw [if_pos (by simp)]
      exact iff_of_true (fun _ hv => by cases hv) (fun h => by cases h)
    | true =>
      obtain ⟨side, o, ho, own⟩ := s₁.consistent.isResting_iff.mp resting
      have elsewhere : ∀ y ∈ e₁.view.queue
          (opposite (e₁.view.stateAt request.exchangeOrderId).side),
          y.orderId ≠ (e₁.view.stateAt request.exchangeOrderId).exchangeOrderId := by
        rw [← own, s₁.consistent.own_id ho]
        exact s₁.consistent.opposite_apart ho
      rw [if_neg (by simp), forall_prop_of_true rfl,
        show e₁.stateAt request.exchangeOrderId = e₁.view.stateAt request.exchangeOrderId from rfl,
        wouldSelfTrade_eq s₁.wf s₁.consistent _ _ _ _ _ elsewhere, ← states]
      cases apart : e₁.view.selfTrade (e₁.view.stateAt request.exchangeOrderId).side
          (e₁.view.stateAt request.exchangeOrderId).orderType request.newPriceTicks
          (e₁.view.stateAt request.exchangeOrderId).clientId with
      | true =>
        rw [if_pos rfl]
        exact iff_of_true (fun _ hv => by cases hv) (fun h => by cases h)
      | false =>
        have totals : ∀ side price, restingAt price (e₁.book.queue side) < 2 ^ 63 := held₁.totals
        obtain ⟨book, hb, wf', sym, hq⟩ :=
          OrderBook.cancelOrder_resting s₁.wf (OrderBook.mem_resting_of_queue s₁.wf ho)
        rw [own] at hb hq
        rw [if_neg Bool.false_ne_true, forall_prop_of_true rfl, hb, List.forall_mem_append,
          and_iff_right (OrderBook.cancelResults_inWord s₁.wf totals _)]
        rw [← own] at apart
        exact (reworkResults_inWord s₁.wf s₁.symbol s₁.consistent held₁ wf' (sym.trans s₁.symbol)
          hq ho own (not_le.mp quantity) (not_le.mp price) apart small).1

/-- No signed operation of a request overflows exactly where the exchange affords it. -/
theorem inRange_iff {request : Request} (fits : request.Fits) :
    e.InRange request ↔ e.view.Affords request := by
  cases request with
  | submit request => exact submitResults_inWord s held fits.2.2
  | cancel request => exact iff_of_true (cancelOrderResults_inWord s held request) trivial
  | replace request => exact replaceResults_inWord s held fits.2.2

/-- What is stored stays in range with every request the exchange affords. -/
theorem serve_held {request : Request} (fits : request.Fits) (affords : e.view.Affords request) :
    (e.serve request).engine.view.Held := by
  rw [s.serve_view]
  cases request with
  | submit request =>
    rcases submit_cases e.view request with ⟨_, same, -⟩ | ⟨ok, fresh, good, served⟩
    · exact held.same same
    · obtain ⟨e₁, -, view, s₁⟩ := s.reserved request.clientOrderId
      have held₁ : e₁.view.Held := view ▸ held.same (.reserve e.view request.clientOrderId)
      obtain ⟨fills, room⟩ := affords ok fresh good
      change (e.view.submit request).1.Held
      rw [served]
      rw [view] at good ⊢
      have ok₁ : e₁.view.malformed request = none := by
        rw [← view]
        exact ok
      refine (acceptResults_inWord s₁.wf s₁.symbol s₁.consistent held₁ ok₁ good fits.2.2).2 ?_
      rw [← view, bears_reserve]
      exact ⟨fills, room⟩
  | cancel request =>
    change (e.view.cancel request).1.Held
    unfold Exchange.cancel
    dsimp only
    split
    · exact held
    · have reserved := held.same (.reserve e.view request.clientOrderId)
      split
      · have emptied : Held { e.view.reserve request.clientOrderId with
            queue := fun s => dequeue request.exchangeOrderId (e.view.queue s) } :=
          reserved.queue rfl fun side price =>
            restingAt_dequeue_le price (fun o ho => s.consistent.quantity_pos ho) _
        exact emptied.status _ _ _ _ _
      · exact reserved
  | replace request =>
    rcases replace_cases e.view request with
      ⟨_, _, same, -⟩ | ⟨quantity, price, fresh, resting, apart, served⟩
    · exact held.same same
    · obtain ⟨e₁, -, view, s₁⟩ := s.reserved request.clientOrderId
      have held₁ : e₁.view.Held := view ▸ held.same (.reserve e.view request.clientOrderId)
      obtain ⟨sum, fills, room⟩ := affords quantity price fresh resting apart
      change (e.view.replace request).1.Held
      have resting₁ : e₁.view.isResting request.exchangeOrderId = true := view ▸ resting
      have apart₁ : e₁.view.selfTrade (e₁.view.stateAt request.exchangeOrderId).side
          (e₁.view.stateAt request.exchangeOrderId).orderType request.newPriceTicks
          (e₁.view.stateAt request.exchangeOrderId).clientId = false := by
        rw [← view]
        exact apart
      obtain ⟨side, o, ho, own⟩ := s₁.consistent.isResting_iff.mp resting₁
      obtain ⟨book, -, wf', sym, hq⟩ :=
        OrderBook.cancelOrder_resting s₁.wf (OrderBook.mem_resting_of_queue s₁.wf ho)
      rw [own] at hq
      rw [← own] at apart₁
      rw [served, view]
      refine (reworkResults_inWord s₁.wf s₁.symbol s₁.consistent held₁ wf' (sym.trans s₁.symbol)
        hq ho own quantity price apart₁ fits.2.2).2 ?_
      rw [← view, bears_reserve]
      exact ⟨sum, fills, room⟩

end Serving

theorem run_eq_foldl (e : MatchingEngine) (requests : List Request) :
    (e.run requests).engine = requests.foldl (fun e request => (e.serve request).engine) e := by
  induction requests generalizing e with
  | nil => rfl
  | cons request requests ih => exact ih (e.serve request).engine

/-- Over a run of requests whose fields are words, every signed operation stays in range exactly
where every request is affordable in the state it meets. -/
theorem run_inRange_iff (symbolId : Nat) (requests : List Request)
    (fits : ∀ request ∈ requests, request.Fits) :
    (∀ front request, front ++ [request] <+: requests →
        ((new symbolId).run front).engine.InRange request) ↔
      ∀ front request, front ++ [request] <+: requests →
        ((new symbolId).run front).engine.view.Affords request := by
  have start : (new symbolId).view.Held := by
    rw [new_view]
    exact new_held symbolId
  simp only [run_eq_foldl]
  rw [← each_iff_fronts (P := InRange), ← each_iff_fronts (P := fun e : MatchingEngine =>
    e.view.Affords)]
  refine each_congr (I := fun e : MatchingEngine => e.Sound ∧ e.view.Held) ?_ ?_
    ⟨new_sound symbolId, start⟩
  · exact fun e request hr held affords =>
      ⟨held.1.serve request, serve_held held.1 held.2 (fits request hr) affords⟩
  · exact fun e request hr held => inRange_iff held.1 held.2 (fits request hr)

/-- Orders of both sides for a quantity of 2^32 at a price of 2^32. -/
def greatOrders : List Request :=
  [.submit { clientOrderId := 1, symbolId := 1, side := .sell, priceTicks := 2 ^ 32
             quantity := 2 ^ 32 },
    .submit { clientOrderId := 2, symbolId := 1, side := .buy, priceTicks := 2 ^ 32
              quantity := 2 ^ 32 }]

theorem greatOrders_fit : ∀ request ∈ greatOrders, request.Fits := by
  simp [greatOrders, Request.Fits, InWord]

theorem greatOrders_inRange_iff :
    (∀ front request, front ++ [request] <+: greatOrders →
        ((new 1).run front).engine.InRange request) ↔
      ∀ front request, front ++ [request] <+: greatOrders →
        ((new 1).run front).engine.view.Affords request :=
  run_inRange_iff 1 greatOrders greatOrders_fit

/-- Both orders are admitted, and the notional of their fill leaves its word. -/
theorem notional_overflows :
    (∀ request ∈ greatOrders, request.Fits) ∧
      (((new 1).run greatOrders).reports.map (·.execType)) = [.new, .new, .trade, .trade] ∧
      ¬ ∀ front request, front ++ [request] <+: greatOrders →
        ((new 1).run front).engine.InRange request := by
  refine ⟨greatOrders_fit, by decide, fun inRange => ?_⟩
  have second := inRange [greatOrders.head (by decide)] _ (List.prefix_refl greatOrders)
  exact absurd (second (2 ^ 64) (by decide)) (by decide)

end MatchingEngine
end Asterion
