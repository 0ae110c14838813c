import Asterion.Matching.Rejections

/-! A fill-or-kill order trades all it asks for or leaves no trace in the book. What the
read-only sum over the levels answers is what the matching loop then does. -/
namespace Asterion

open Lib

def tradedQuantity (reports : List ExecutionReport) (id : Nat) : Int :=
  ((reports.filter (fun r => r.execType = .trade ∧ r.exchangeOrderId = id)).map
    (·.lastFillQuantity)).sum

theorem tradedQuantity_append (a b : List ExecutionReport) (id : Nat) :
    tradedQuantity (a ++ b) id = tradedQuantity a id + tradedQuantity b id := by
  simp [tradedQuantity]

namespace MatchingEngine

/-- The opposite resting quantity within the limit of a new order. -/
def executableQuantity (e : MatchingEngine) (request : NewOrderRequest) : Int :=
  (((e.book.queue (opposite request.side)).filter (fun o =>
    executable request.side request.orderType request.priceTicks o.priceTicks)).map
      (·.quantity)).sum

/-- The checks a fill-or-kill order passes before its quantity is looked at: validation, an
unused client order id, and no opposite order of its own client within the limit. -/
structure Eligible (e : MatchingEngine) (request : NewOrderRequest) : Prop where
  valid : (Request.submit request).Validated e.symbolId
  named : request.clientOrderId ≠ invalidClientOrderId
  fresh : request.clientOrderId ∉ e.seenClientOrderIds
  apart : ∀ o ∈ e.book.queue (opposite request.side),
    executable request.side request.orderType request.priceTicks o.priceTicks = true →
    (e.stateAt o.orderId).clientId = request.clientId → request.clientId = 0

structure Killed (e : MatchingEngine) (w : Reporting) : Prop where
  single : ∃ r, w.reports = [r] ∧ r.exchangeOrderId = invalidOrderId ∧
    r.orderStatus = .rejected ∧ r.execType = .rejected
  book : w.engine.book = e.book
  states : w.engine.states = e.states

structure FilledWhole (e : MatchingEngine) (request : NewOrderRequest) (w : Reporting) : Prop where
  state : ∃ st, w.engine.states.lookup e.nextExchangeOrderId = some st ∧ st.status = .filled ∧
    st.originalQuantity = request.quantity ∧ st.filledQuantity = request.quantity
  traded : tradedQuantity w.reports e.nextExchangeOrderId = request.quantity

end MatchingEngine

namespace Exchange

open MatchingEngine (Request executable)

section Sweep
variable {x : Exchange} {i : Nat} {wanted : Int}

/-- The reports told of a list of fills add up to their quantities. -/
theorem told_quantity {side : Side} {fs : List (Order × Int)}
    {ps : List (ExecutionReport × ExecutionReport)} (told : List.Forall₂ (TellsFill i side) fs ps)
    (others : ∀ f ∈ fs, f.1.orderId ≠ i) :
    (((ps.flatMap (fun p => [p.1, p.2])).filter (fun r => r.exchangeOrderId = i)).map
      (·.lastFillQuantity)).sum = Sweep.total fs := by
  induction told with
  | nil => rfl
  | @cons f p fs ps tells _ ih =>
    have ih := ih (fun g hg => others g (List.mem_cons_of_mem _ hg))
    have other : p.1.exchangeOrderId ≠ i := by
      rw [tells.resting]
      exact others f List.mem_cons_self
    rw [List.flatMap_cons, List.filter_append, List.map_append, List.sum_append, ih,
      Sweep.total_cons, ← tells.quantity.2]
    simp [other, tells.incoming]

theorem Consistent.tradedQuantity_trades (c : Consistent x (some (i, wanted))) (ts : Int) :
    tradedQuantity (x.trades i ts (x.sweep i wanted)).2 i = Sweep.total (x.sweep i wanted) := by
  obtain ⟨paired, told⟩ := c.trades_reports ts
  have others : ∀ f ∈ x.sweep i wanted, f.1.orderId ≠ i := fun f hf =>
    (c.inHand i wanted rfl).absent _ f.1 (Sweep.mem_fills (fun a ha => c.quantity_pos ha) hf).1
  rw [← told_quantity told others, ← paired.filter_trade, List.filter_filter, tradedQuantity]
  congr 3
  funext r
  simp [and_comm]

theorem Consistent.available_eq {p : Option (Nat × Int)} (c : Consistent x p) (side : Side)
    (orderType : OrderType) (limit : Int) :
    x.available side orderType limit = (((x.queue (opposite side)).filter (fun o =>
      executable side orderType limit o.priceTicks)).map (·.quantity)).sum := by
  unfold available
  rw [Sweep.takeWhile_eq_filter]
  exact (c.sorted (opposite side)).imp (fun outranks => executable_mono outranks)

/-- An order in hand whose limit reaches enough takes all it wants. -/
theorem Consistent.sweep_complete (c : Consistent x (some (i, wanted))) (pos : 0 < wanted) :
    Sweep.total (x.sweep i wanted) = wanted ↔ wanted ≤ x.available (x.stateAt i).side
      (x.stateAt i).orderType (x.stateAt i).limitPriceTicks :=
  Sweep.total_eq_wanted_iff pos (fun _ ha => c.quantity_pos ha)

theorem Consistent.execute_filled (c : Consistent x (some (i, wanted))) (rests : Bool) (ts : Int)
    (complete : Sweep.total (x.sweep i wanted) = wanted) :
    (∃ st, (x.execute i wanted rests ts).1.state i = some st ∧ st.status = .filled ∧
      st.originalQuantity = (x.stateAt i).originalQuantity ∧
      st.filledQuantity = (x.stateAt i).originalQuantity) ∧
    tradedQuantity (x.execute i wanted rests ts).2 i = wanted := by
  have m := c.matched ts
  have c' := consistent_of_trace (m.trace (.cancel {})) c
  rw [complete, sub_self] at c'
  have hand := c'.inHand i 0 rfl
  have original := m.fixed (·.originalQuantity) (fun _ _ _ => rfl)
  have ends : x.execute i wanted rests ts = x.trades i ts (x.sweep i wanted) := by
    unfold execute
    simp only [complete, sub_self, gt_iff_lt, lt_irrefl, if_false, List.append_nil]
  rw [ends]
  constructor
  · have status := hand.status
    have open_eq := hand.open_eq
    rw [if_pos rfl] at status
    exact ⟨_, hand.stored, status, original, (sub_eq_zero.mp open_eq).symm.trans original⟩
  · rw [c.tradedQuantity_trades ts, complete]

theorem malformed_iff {request : NewOrderRequest} :
    x.malformed request = none ↔ (Request.submit request).Validated x.symbolId := by
  constructor
  · intro h
    obtain ⟨symbol, side, quantity, price, post, type, time⟩ := malformed_eq_none h
    exact ⟨⟨symbol, side⟩, type, quantity, price, time, post⟩
  · rintro ⟨⟨symbol, side⟩, type, quantity, price, time, post⟩
    have passive : ¬ (request.postOnly = true ∧
        (request.orderType ≠ .limit ∨ request.timeInForce ≠ .gtc)) := by
      rintro ⟨h, other⟩
      obtain ⟨limit, gtc⟩ := post h
      exact other.elim (fun h => h limit) (fun h => h gtc)
    unfold malformed
    rw [if_neg (by simp [symbol, side]), if_neg (by tauto), if_neg (not_le.mpr quantity),
      if_neg (fun h => (not_le.mpr (price h.1)) h.2), if_neg (by tauto), if_neg passive]

theorem submit_accepts {request : NewOrderRequest} (ok : x.malformed request = none)
    (fresh : x.reusedId request.clientOrderId = false)
    (good : (x.reserve request.clientOrderId).inadmissible request = none) :
    x.submit request = (x.reserve request.clientOrderId).accept request := by
  unfold submit
  simp only [ok, fresh, good, Bool.false_eq_true, if_false]

end Sweep
end Exchange

namespace MatchingEngine

section Requests
variable {e : MatchingEngine} {request : NewOrderRequest}

theorem executableQuantity_eq (s : e.Sound) : e.executableQuantity request =
    e.view.available request.side request.orderType request.priceTicks :=
  (s.consistent.available_eq _ _ _).symm

theorem Eligible.selfTrade (ok : e.Eligible request) :
    e.view.selfTrade request.side request.orderType request.priceTicks request.clientId = false := by
  by_contra trades
  obtain ⟨client, o, ho, same, reached⟩ := Exchange.selfTrade_eq_true.mp (Bool.not_eq_false _ ▸ trades)
  exact client (ok.apart o ho reached same)

theorem eligible_iff (s : e.Sound) (fok : request.timeInForce = .fok) :
    (e.Eligible request ∧ request.quantity ≤ e.executableQuantity request) ↔
      e.view.malformed request = none ∧ e.view.reusedId request.clientOrderId = false ∧
        (e.view.reserve request.clientOrderId).inadmissible request = none := by
  rw [executableQuantity_eq s]
  constructor
  · rintro ⟨ok, enough⟩
    have active : request.postOnly ≠ true := by
      intro post
      have gtc := (ok.valid.2.2.2.2.2 post).2
      rw [fok] at gtc
      cases gtc
    refine ⟨Exchange.malformed_iff.mpr ok.valid, ?_, ?_⟩
    · exact decide_eq_false (not_or.mpr ⟨ok.named, ok.fresh⟩)
    · have apart : (e.view.reserve request.clientOrderId).selfTrade request.side request.orderType
          request.priceTicks request.clientId = false := ok.selfTrade
      unfold Exchange.inadmissible
      rw [if_neg (fun h => active h.1), if_neg (by simp [apart]),
        if_neg (fun h => not_lt.mpr enough h.2)]
  · rintro ⟨ok, unused, good⟩
    have valid := Exchange.malformed_iff.mp ok
    have fresh := not_or.mp (of_decide_eq_false unused)
    have active : request.postOnly = false := by
      by_contra post
      have gtc := (valid.2.2.2.2.2 (Bool.not_eq_false _ ▸ post)).2
      rw [fok] at gtc
      cases gtc
    obtain ⟨_, apart, enough⟩ := Exchange.inadmissible_eq_none good
    refine ⟨⟨valid, fresh.1, fresh.2, ?_⟩, enough fok⟩
    intro o ho reached same
    by_contra client
    exact Bool.false_ne_true
      ((apart active).symm.trans (Exchange.selfTrade_eq_true.mpr ⟨client, o, ho, same, reached⟩))

theorem rejects_iff (s : e.Sound) : Rejects (e.submitOrder request) ↔
    ¬ (e.view.malformed request = none ∧ e.view.reusedId request.clientOrderId = false ∧
      (e.view.reserve request.clientOrderId).inadmissible request = none) := by
  have reports : (e.submitOrder request).reports = (e.view.submit request).2 :=
    s.serve_reports (.submit request)
  constructor
  · rintro ⟨r, hr, unnamed⟩ ⟨ok, unused, good⟩
    have h := Exchange.submit_accepts ok unused good
    rcases s.consistent.serve_named (.submit request) with ⟨q, single, _, kind⟩ | ⟨_, _, named⟩
    · rw [show e.view.serve (.submit request) = _ from h] at single
      rw [← (List.cons.inj single).1] at kind
      cases kind
    · rw [reports] at hr
      exact named r hr unnamed
  · intro refused
    rcases Exchange.submit_cases e.view request with ⟨_, _, h⟩ | ⟨ok, unused, good, _⟩
    · exact ⟨_, by rw [reports, h]; exact List.mem_singleton_self _, rfl⟩
    · exact absurd ⟨ok, unused, good⟩ refused

theorem submitOrder_killed (s : e.Sound) (rejects : Rejects (e.submitOrder request)) :
    Killed e (e.submitOrder request) := by
  have reports : (e.submitOrder request).reports = (e.view.submit request).2 :=
    s.serve_reports (.submit request)
  rcases s.refused_or_used (.submit request) with ⟨_, inert⟩ | ⟨accepts, _⟩
  · refine ⟨?_, inert.book, inert.states⟩
    rcases Exchange.submit_cases e.view request with ⟨_, _, h⟩ | ⟨ok, unused, good, _⟩
    · exact ⟨_, reports.trans h, rfl, rfl, rfl⟩
    · exact absurd ⟨ok, unused, good⟩ ((rejects_iff s).mp rejects)
  · exact absurd rejects accepts

theorem submitOrder_filled (s : e.Sound) (fok : request.timeInForce = .fok)
    (accepts : ¬ Rejects (e.submitOrder request)) : FilledWhole e request (e.submitOrder request) := by
  have reports : (e.submitOrder request).reports = (e.view.submit request).2 :=
    s.serve_reports (.submit request)
  have view : (e.submitOrder request).engine.view = (e.view.submit request).1 :=
    s.serve_view (.submit request)
  obtain ⟨ok, unused, good⟩ := not_not.mp (fun refused => accepts ((rejects_iff s).mpr refused))
  have c₁ := s.consistent.reserve request.clientOrderId
  have pos := (Exchange.malformed_eq_none ok).2.2.1
  have taken := c₁.enlist ok (c₁.apart_of_admissible good)
  have hself : ((e.view.reserve request.clientOrderId).enlist request).1.stateAt
      (e.view.reserve request.clientOrderId).nextExchangeOrderId = e.view.accepted request :=
    Exchange.stateAt_setState_same (e.view.reserve request.clientOrderId) _ _
  have complete := (taken.sweep_complete pos).mpr (by
    rw [hself]
    exact (Exchange.inadmissible_eq_none good).2.2 fok)
  obtain ⟨⟨st, stored, filled, original, all⟩, traded⟩ := taken.execute_filled
    (decide (request.orderType = .limit ∧ request.timeInForce = .gtc)) request.timestampNs complete
  rw [Exchange.submit_accepts ok unused good] at reports view
  rw [hself] at original all
  constructor
  · refine ⟨st, ?_, filled, original, all⟩
    have lookup := congrArg (fun x => x.state e.view.nextExchangeOrderId) view
    exact lookup.trans stored
  · have announced : tradedQuantity ((e.view.reserve request.clientOrderId).enlist request).2
        e.nextExchangeOrderId = 0 := rfl
    rw [reports]
    exact (tradedQuantity_append _ _ _).trans
      ((congrArg₂ (· + ·) announced traded).trans (zero_add _))

/-- The sum over the levels foresees what the matching loop leaves over. -/
theorem canFullyFill_iff (s : e.Sound) (ok : e.Eligible request) {e' : MatchingEngine}
    (reserved : e.reserveClientOrderId request.clientOrderId = some e') (r : ExecutionReport) :
    e'.canFullyFill request = true ↔
      (matchAgainstBook (Reporting.record { engine := e'.emplaceOrder request } r)
        e'.nextExchangeOrderId request.quantity request.timestampNs).2 = 0 := by
  have view : e'.view = e.view.reserve request.clientOrderId := by
    obtain ⟨_, _, rfl⟩ := reserve_eq_some reserved
    rfl
  have wf : e'.book.WF := by
    obtain ⟨_, _, rfl⟩ := reserve_eq_some reserved
    exact s.wf
  have symbol : e'.book.symbolId = e'.symbolId := by
    obtain ⟨_, _, rfl⟩ := reserve_eq_some reserved
    exact s.symbol
  have c₁ : Exchange.Consistent e'.view none := view ▸ s.consistent.reserve request.clientOrderId
  have wellFormed : e'.view.malformed request = none := by
    rw [view]
    exact Exchange.malformed_iff.mpr ok.valid
  have apart : e'.view.selfTrade request.side request.orderType request.priceTicks
      request.clientId = false := by
    rw [view]
    exact ok.selfTrade
  have pos : 0 < request.quantity := ok.valid.2.2.1
  have taken := c₁.enlist wellFormed apart
  have hself : (e'.view.enlist request).1.stateAt e'.view.nextExchangeOrderId =
      e'.view.accepted request := Exchange.stateAt_setState_same e'.view _ _
  have complete := taken.sweep_complete pos
  rw [hself] at complete
  have shows := (emplaceOrder_shows wf symbol c₁ request).record r
  obtain ⟨w', matched, _⟩ := matchLoop_eq request.timestampNs request.quantity.toNat shows taken le_rfl
  have enough : e'.canFullyFill request = true ↔
      request.quantity ≤ e'.view.available request.side request.orderType request.priceTicks := by
    rw [canFullyFill_eq wf pos ok.valid.1.2, decide_eq_true_eq]
  have left : (matchAgainstBook (Reporting.record { engine := e'.emplaceOrder request } r)
      e'.nextExchangeOrderId request.quantity request.timestampNs).2 =
      request.quantity - Sweep.total ((e'.view.enlist request).1.sweep e'.view.nextExchangeOrderId
        request.quantity) := congrArg Prod.snd matched
  rw [left, sub_eq_zero, enough, eq_comm, complete]
  exact Iff.rfl

end Requests

/-- In every state an engine reaches, a fill-or-kill order is killed or filled whole, it is
accepted exactly when it passes the other checks and the book holds enough within its limit,
and the check agrees with the matching loop. -/
theorem fillOrKill_all_or_nothing (symbolId : Nat) (requests : List Request)
    (request : NewOrderRequest) (fok : request.timeInForce = .fok) :
    let e := ((new symbolId).run requests).engine
    (Rejects (e.submitOrder request) ∧ Killed e (e.submitOrder request) ∨
      ¬ Rejects (e.submitOrder request) ∧ FilledWhole e request (e.submitOrder request)) ∧
    (¬ Rejects (e.submitOrder request) ↔
      e.Eligible request ∧ request.quantity ≤ e.executableQuantity request) ∧
    (e.Eligible request → ∀ e', e.reserveClientOrderId request.clientOrderId = some e' →
      ∀ r, e'.canFullyFill request = true ↔
        (matchAgainstBook (Reporting.record { engine := e'.emplaceOrder request } r)
          e'.nextExchangeOrderId request.quantity request.timestampNs).2 = 0) := by
  have s := (new_sound symbolId).run requests
  refine ⟨?_, ?_, fun ok e' reserved r => canFullyFill_iff s ok reserved r⟩
  · by_cases rejects : Rejects (((new symbolId).run requests).engine.submitOrder request)
    · exact Or.inl ⟨rejects, submitOrder_killed s rejects⟩
    · exact Or.inr ⟨rejects, submitOrder_filled s fok rejects⟩
  · rw [rejects_iff s, not_not, eligible_iff s fok]

/-- Ten are offered at 100, and ten are wanted. -/
theorem fillOrKill_all_or_nothing_ten :
    let offer : NewOrderRequest :=
      { clientOrderId := 5, symbolId := 1, side := .sell, priceTicks := 100, quantity := 10 }
    let request : NewOrderRequest := { offer with
      clientOrderId := 6, side := .buy, timeInForce := .fok }
    let e := ((new 1).run [.submit offer]).engine
    FilledWhole e request (e.submitOrder request) :=
  ((fillOrKill_all_or_nothing 1 _ _ rfl).1.resolve_left
    (fun h => absurd h.1 (by decide))).2

/-- An order under a used client order id is refused although the book holds enough. -/
theorem fillOrKill_refused_with_enough :
    let offer : NewOrderRequest :=
      { clientOrderId := 5, symbolId := 1, side := .sell, priceTicks := 100, quantity := 10 }
    let request : NewOrderRequest := { offer with side := .buy, timeInForce := .fok }
    let e := ((new 1).run [.submit offer]).engine
    ¬ (¬ Rejects (e.submitOrder request) ↔ request.quantity ≤ e.executableQuantity request) := by
  decide

end MatchingEngine
end Asterion
