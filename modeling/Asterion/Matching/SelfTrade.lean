import Asterion.Matching.Answers
import Asterion.Matching.OpenOrders

/-! Self-trade prevention: no fill joins two orders of one client, and a request is refused
for it exactly when it would have met an order of its own client. -/
namespace Asterion

open Lib
open MatchingEngine (Request executable)

namespace Exchange

/-- Every stored order has its submit in the log. -/
def Origin (h : List Entry) (s : Session) : Prop :=
  ∀ id, match s.1.state id with
    | none => submission h id = none
    | some st => ∃ request, submission h id = some request ∧ request.clientId = st.clientId

theorem submission_none {request : Request} {reports : List ExecutionReport} (id : Nat)
    (h : ∀ r ∈ reports, r.execType ≠ .new) : submission (tag request reports) id = none := by
  unfold submission
  rw [List.findSome?_eq_none_iff]
  rintro entry hentry
  obtain ⟨r, hr, rfl⟩ := List.mem_map.mp hentry
  cases request with
  | submit request => simp [h r hr]
  | cancel request => rfl
  | replace request => rfl

theorem submission_new {request : NewOrderRequest} {r : ExecutionReport} (hr : r.execType = .new)
    (id : Nat) : submission (tag (.submit request) [r]) id =
      if r.exchangeOrderId = id then some request else none := by
  by_cases h : r.exchangeOrderId = id <;> simp [submission, tag, hr, h]

theorem submission_some {log more : List Entry} {id : Nat} {request : NewOrderRequest}
    (h : submission log id = some request) : submission (log ++ more) id = some request := by
  rw [submission_append, h]
  rfl

section Steps
variable {h l : List Entry} {s t : Session}

/-- Apart from an admission, a step neither answers a submit nor changes who owns what. -/
theorem Step.clients (step : Step s l t) (c : Consistent s.1 s.2) :
    ((∀ id, submission l id = none) ∧
      ∀ id, (t.1.state id).map (·.clientId) = (s.1.state id).map (·.clientId)) ∨
    ∃ request : NewOrderRequest, s.1.state s.1.nextExchangeOrderId = none ∧
      t.1.state = Function.update s.1.state s.1.nextExchangeOrderId (some (s.1.accepted request)) ∧
      ∀ id, submission l id = if s.1.nextExchangeOrderId = id then some request else none := by
  have one : ∀ (request : Request) (r : ExecutionReport), r.execType ≠ .new →
      ∀ id, submission (tag request [r]) id = none := fun request r hr id =>
    submission_none id (fun r' hr' => List.mem_singleton.mp hr' ▸ hr)
  -- a step that rewrites one stored state keeps its owner
  have write : ∀ (x : Exchange) (i : Nat) (st : OrderState), x.state i = some (x.stateAt i) →
      st.clientId = (x.stateAt i).clientId → ∀ id,
      (Function.update x.state i (some st) id).map (·.clientId) = (x.state id).map (·.clientId) := by
    intro x i st hi hclient id
    by_cases hid : id = i
    · subst hid
      rw [Function.update_self, hi]
      exact congrArg some hclient
    · rw [Function.update_of_ne hid]
  cases step with
  | refuse request clientOrderId symbolId side ts _ =>
    exact Or.inl ⟨one _ _ (fun h => by cases h), fun _ => rfl⟩
  | reserve => exact Or.inl ⟨fun _ => rfl, fun _ => rfl⟩
  | @enlist x request ok _ _ =>
    have hnone : x.state x.nextExchangeOrderId = none := by
      cases hst : x.state x.nextExchangeOrderId with
      | none => rfl
      | some st => exact absurd (c.known _ st hst).old (lt_irrefl _)
    exact Or.inr ⟨request, hnone, rfl, submission_new rfl⟩
  | @reopen x request s o ho hid _ _ _ =>
    have hst := (c.stateAt_order ho).1
    rw [hid] at hst
    exact Or.inl ⟨one _ _ (fun h => by cases h), write x request.exchangeOrderId _ hst rfl⟩
  | @trade x request i wanted ts o head _ _ =>
    have ho := List.mem_of_head? head
    have hand := c.inHand i wanted rfl
    have hne : o.orderId ≠ i := hand.absent _ o ho
    refine Or.inl ⟨fun id => ?_, fun id => ?_⟩
    · rw [trade_reports _ _ hne]
      refine submission_none id (fun r hr => ?_)
      rcases List.mem_cons.mp hr with rfl | hr
      · exact fun h => by cases h
      · rw [List.mem_singleton.mp hr]
        exact fun h => by cases h
    · dsimp only
      rw [trade_state _ _ hne]
      split
      · rename_i hid
        rw [hid, hand.stored]
        rfl
      · split
        · rename_i hid
          rw [hid, (c.stateAt_order ho).1]
          rfl
        · rfl
  | @rest x i wanted ts _ symbol _ _ =>
    refine Or.inl ⟨fun _ => rfl, fun id => ?_⟩
    dsimp only
    unfold Exchange.rest
    rw [if_neg symbol]
  | expire =>
    exact Or.inl ⟨one _ _ (fun h => by cases h), write _ _ _ (c.inHand _ _ rfl).stored rfl⟩
  | fault =>
    exact Or.inl ⟨one _ _ (fun h => by cases h), write _ _ _ (c.inHand _ _ rfl).stored rfl⟩
  | done => exact Or.inl ⟨fun _ => rfl, fun _ => rfl⟩
  | withdraw _ _ ho =>
    exact Or.inl ⟨one _ _ (fun h => by cases h), write _ _ _ (c.stateAt_order ho).1 rfl⟩

theorem Step.origin (step : Step s l t) (c : Consistent s.1 s.2) (origin : Origin h s) :
    Origin (h ++ l) t := by
  intro id
  have horigin := origin id
  rcases step.clients c with ⟨hnone, hclients⟩ | ⟨request, hfresh, hstate, hsub⟩
  · rw [submission_append, hnone, Option.or_none]
    have hc := hclients id
    cases hs : s.1.state id with
    | none =>
      rw [hs] at hc horigin
      cases ht : t.1.state id with
      | none => exact horigin
      | some st => rw [ht] at hc; cases hc
    | some st =>
      rw [hs] at hc horigin
      cases ht : t.1.state id with
      | none => rw [ht] at hc; cases hc
      | some st' =>
        rw [ht] at hc
        obtain ⟨request, hr, hclient⟩ := horigin
        exact ⟨request, hr, hclient.trans (Option.some.inj hc).symm⟩
  · rw [hstate, submission_append, hsub]
    by_cases hid : s.1.nextExchangeOrderId = id
    · subst hid
      rw [hfresh] at horigin
      have hnone : submission h s.1.nextExchangeOrderId = none := horigin
      rw [Function.update_self, hnone, if_pos rfl]
      exact ⟨request, rfl, rfl⟩
    · rw [Function.update_of_ne (Ne.symm hid), if_neg hid, Option.or_none]
      exact horigin

theorem Origin.stateAt (origin : Origin h s) {id : Nat} {st : OrderState}
    (hst : s.1.state id = some st) :
    ∃ request, submission h id = some request ∧ request.clientId = st.clientId := by
  have ho := origin id
  rw [hst] at ho
  exact ho

/-- The two orders of a fill belong to different clients, or to none. -/
def DifferentClients (log : List Entry) (a b : ExecutionReport) : Prop :=
  ∃ resting incoming, submission log a.exchangeOrderId = some resting ∧
    submission log b.exchangeOrderId = some incoming ∧
    (resting.clientId = incoming.clientId → incoming.clientId = 0)

theorem DifferentClients.more {log : List Entry} {a b : ExecutionReport} (more : List Entry)
    (h : DifferentClients log a b) : DifferentClients (log ++ more) a b := by
  obtain ⟨resting, incoming, ha, hb, hc⟩ := h
  exact ⟨resting, incoming, submission_some ha, submission_some hb, hc⟩

theorem Step.differentClients (step : Step s l t) (c : Consistent s.1 s.2) (origin : Origin h s) :
    Paired (DifferentClients (h ++ l)) (l.map Prod.snd) := by
  cases step with
  | refuse => exact .single (fun h => by cases h)
  | reserve => exact .nil
  | enlist => exact .single (fun h => by cases h)
  | reopen => exact .single (fun h => by cases h)
  | @trade x request i wanted ts o head accept pos =>
    have ho := List.mem_of_head? head
    have hand := c.inHand i wanted rfl
    have hne : o.orderId ≠ i := hand.absent _ o ho
    have hst := (c.stateAt_order ho).1
    obtain ⟨resting, hr, hrc⟩ := origin.stateAt hst
    obtain ⟨incoming, hi, hic⟩ := origin.stateAt hand.stored
    rw [reports_tag, trade_reports _ _ hne]
    refine Paired.nil.pair rfl rfl ⟨resting, incoming, ?_, ?_, ?_⟩
    · rw [show (makeReport ((x.stateAt o.orderId).fill (min wanted o.quantity) o.priceTicks) .trade
        (min wanted o.quantity) o.priceTicks ts .none).exchangeOrderId = o.orderId from
        (c.knownAt hst).own]
      exact submission_some hr
    · rw [show (makeReport ((x.stateAt i).fill (min wanted o.quantity) o.priceTicks) .trade
        (min wanted o.quantity) o.priceTicks ts .none).exchangeOrderId = i from
        (c.knownAt hand.stored).own]
      exact submission_some hi
    · intro hsame
      rw [hrc, hic] at hsame
      rw [hic]
      exact hand.apart o ho accept hsame
  | rest => exact .nil
  | expire => exact .single (fun h => by cases h)
  | fault => exact .single (fun h => by cases h)
  | done => exact .nil
  | withdraw => exact .single (fun h => by cases h)

end Steps

theorem Consistent.origin {x : Exchange} {h l : List Entry} {t : Session}
    (c : Consistent x none) (origin : Origin h (x, none)) (tr : Trace Step (x, none) l t) :
    Origin (h ++ l) t := by
  have keep : ∀ {h : List Entry} {s : Session} {l : List Entry} {t : Session},
      Consistent s.1 s.2 ∧ Origin h s → Step s l t → Consistent t.1 t.2 ∧ Origin (h ++ l) t :=
    fun hs step => ⟨step.consistent hs.1, step.origin hs.1 hs.2⟩
  exact (Trace.invariant (I := fun h (s : Session) => Consistent s.1 s.2 ∧ Origin h s)
    keep ⟨c, origin⟩ tr).2

theorem Consistent.clients {x : Exchange} {h l : List Entry} {t : Session}
    (c : Consistent x none) (origin : Origin h (x, none))
    (paired : Paired (DifferentClients h) (h.map Prod.snd)) (tr : Trace Step (x, none) l t) :
    Origin (h ++ l) t ∧ Paired (DifferentClients (h ++ l)) ((h ++ l).map Prod.snd) := by
  have keep : ∀ {h : List Entry} {s : Session} {l : List Entry} {t : Session},
      (Consistent s.1 s.2 ∧ Origin h s ∧ Paired (DifferentClients h) (h.map Prod.snd)) →
      Step s l t →
      Consistent t.1 t.2 ∧ Origin (h ++ l) t ∧
        Paired (DifferentClients (h ++ l)) ((h ++ l).map Prod.snd) := by
    intro h s l t hs step
    refine ⟨step.consistent hs.1, step.origin hs.1 hs.2.1, ?_⟩
    rw [List.map_append]
    exact (hs.2.2.imp (fun _ _ hd => hd.more l)).append (step.differentClients hs.1 hs.2.1)
  exact (Trace.invariant (I := fun h (s : Session) => Consistent s.1 s.2 ∧ Origin h s ∧
    Paired (DifferentClients h) (h.map Prod.snd)) keep ⟨c, origin, paired⟩ tr).2

theorem new_origin (symbolId : Nat) : Origin [] (Exchange.new symbolId, none) := fun _ => rfl

end Exchange
namespace MatchingEngine

open Exchange

/-- Some resting order of the same client on the opposite side is priced so that it crosses
the limit. -/
def MeetsOwn (e : MatchingEngine) (log : List Entry) (clientId : Nat) (side : Side)
    (orderType : OrderType) (limit : Int) : Prop :=
  clientId ≠ 0 ∧ ∃ id o, e.book.findOrder id = some o ∧ o.side = opposite side ∧
    (∃ request, submission log id = some request ∧ request.clientId = clientId) ∧
    (orderType = .market ∨ (side = .buy ∧ o.priceTicks ≤ limit) ∨
      (side = .sell ∧ limit ≤ o.priceTicks))

theorem executable_iff {side : Side} {orderType : OrderType} {limit price : Int} :
    executable side orderType limit price = true ↔ orderType = .market ∨
      (side = .buy ∧ price ≤ limit) ∨ (side = .sell ∧ limit ≤ price) := by
  simp [executable, or_assoc]

section Serve
variable {e : MatchingEngine} {log : List Entry}

theorem Sound.meetsOwn_iff (s : e.Sound) (origin : Origin log (e.view, none)) {clientId : Nat}
    {side : Side} {orderType : OrderType} {limit : Int} :
    MeetsOwn e log clientId side orderType limit ↔
      e.view.selfTrade side orderType limit clientId = true := by
  rw [selfTrade_eq_true]
  refine and_congr_right fun _ => ?_
  constructor
  · rintro ⟨id, o, ho, hside, ⟨request, hr, hclient⟩, hex⟩
    obtain ⟨hmem, rfl⟩ := (OrderBook.findOrder_eq_some s.wf).mp ho
    have hq : o ∈ e.view.queue o.side := (OrderBook.mem_resting s.wf).mp hmem
    obtain ⟨request', hr', hclient'⟩ := origin.stateAt (s.consistent.stateAt_order hq).1
    rw [hr] at hr'
    cases hr'
    exact ⟨o, hside ▸ hq, hclient'.symm.trans hclient, executable_iff.mpr hex⟩
  · rintro ⟨o, ho, hclient, hex⟩
    obtain ⟨request, hr, hclient'⟩ := origin.stateAt (s.consistent.stateAt_order ho).1
    exact ⟨o.orderId, o,
      (OrderBook.findOrder_eq_some s.wf).mpr ⟨OrderBook.mem_resting_of_queue s.wf ho, rfl⟩,
      (s.consistent.filed _ o ho).1, ⟨request, hr, hclient'.trans hclient⟩, executable_iff.mp hex⟩

theorem reserve_isSome {id : Nat} (h : (e.reserveClientOrderId id).isSome = true) :
    e.view.reusedId id = false := by
  rw [reserveClientOrderId_eq] at h
  cases hr : e.view.reusedId id with
  | false => rfl
  | true => simp [hr] at h

/-- A submit that passes the other checks is refused for self-trade prevention exactly when
it would meet an order of its own client. -/
theorem Sound.submit_selfTrade_iff (s : e.Sound) (origin : Origin log (e.view, none))
    {request : NewOrderRequest} (postOnly : request.postOnly = false)
    (symbol : request.symbolId = e.symbolId) (side : isValidSide request.side = true)
    (type : request.orderType = .limit ∨ request.orderType = .market)
    (quantity : 0 < request.quantity)
    (price : request.orderType = .limit → 0 < request.priceTicks)
    (time : request.timeInForce = .gtc ∨ request.timeInForce = .ioc ∨ request.timeInForce = .fok)
    (fresh : (e.reserveClientOrderId request.clientOrderId).isSome = true) :
    (e.serve (.submit request)).reports = [makeReject request.clientOrderId request.symbolId
        request.side request.timestampNs .selfTradePrevention] ↔
      MeetsOwn e log request.clientId request.side request.orderType request.priceTicks := by
  have hmal : e.view.malformed request = none := by
    unfold malformed
    rw [if_neg, if_neg (by tauto), if_neg (not_le.mpr quantity), if_neg, if_neg (by tauto), if_neg]
    · simp [postOnly]
    · exact fun h => absurd (price h.1) (not_lt.mpr h.2)
    · rintro (h | h)
      · exact h symbol
      · rw [side] at h
        cases h
  have hreused := reserve_isSome fresh
  have hself : (e.view.reserve request.clientOrderId).selfTrade request.side request.orderType
      request.priceTicks request.clientId = e.view.selfTrade request.side request.orderType
      request.priceTicks request.clientId := rfl
  rw [s.meetsOwn_iff origin, s.serve_reports]
  change (e.view.submit request).2 = _ ↔ _
  by_cases hst : e.view.selfTrade request.side request.orderType request.priceTicks
      request.clientId = true
  · have hinad : (e.view.reserve request.clientOrderId).inadmissible request =
        some .selfTradePrevention := by
      unfold inadmissible
      rw [if_neg (by simp [postOnly]), if_pos ⟨postOnly, hself.trans hst⟩]
    unfold Exchange.submit
    simp only [hmal, hreused, hinad, Bool.false_eq_true, if_false, hst]
  · refine iff_of_false ?_ hst
    intro h
    unfold Exchange.submit at h
    simp only [hmal, hreused, Bool.false_eq_true, if_false] at h
    split at h
    · rename_i reason hinad
      have hreason : reason = .selfTradePrevention :=
        congrArg ExecutionReport.rejectReason (List.head_eq_of_cons_eq h)
      unfold inadmissible at hinad
      rw [if_neg (by simp [postOnly]), if_neg (fun hc => hst (hself.symm.trans hc.2)), hreason]
        at hinad
      split at hinad <;> cases hinad
    · have hkind := congrArg ExecutionReport.execType (List.head_eq_of_cons_eq h)
      cases hkind

theorem Sound.replace_selfTrade_iff (s : e.Sound) (origin : Origin log (e.view, none))
    {request : ReplaceOrderRequest} (quantity : 0 < request.newQuantity)
    (price : 0 < request.newPriceTicks)
    (fresh : (e.reserveClientOrderId request.clientOrderId).isSome = true) {o : Order}
    (ho : e.book.findOrder request.exchangeOrderId = some o) :
    ∃ submit, submission log request.exchangeOrderId = some submit ∧
      ((e.serve (.replace request)).reports = [makeReject request.clientOrderId e.symbolId o.side
          request.timestampNs .selfTradePrevention] ↔
        MeetsOwn e log submit.clientId o.side .limit request.newPriceTicks) := by
  obtain ⟨hmem, hid⟩ := (OrderBook.findOrder_eq_some s.wf).mp ho
  have hq : o ∈ e.view.queue o.side := (OrderBook.mem_resting s.wf).mp hmem
  obtain ⟨hst, hrest, hlimit, _⟩ := s.consistent.stateAt_order hq
  obtain ⟨submit, hsubmit, hclient⟩ := origin.stateAt hst
  have hreused := reserve_isSome fresh
  rw [hid] at hsubmit hclient hlimit hrest
  have hside : o.side = (e.view.stateAt request.exchangeOrderId).side := congrArg Order.side hrest
  refine ⟨submit, hsubmit, ?_⟩
  rw [s.meetsOwn_iff origin, s.serve_reports, hclient, hside, ← hlimit]
  change (e.view.replace request).2 = _ ↔ _
  have hresting : (e.view.reserve request.clientOrderId).isResting request.exchangeOrderId = true :=
    s.consistent.isResting_iff.mpr ⟨_, o, hq, hid⟩
  have hstate : (e.view.reserve request.clientOrderId).stateAt request.exchangeOrderId =
      e.view.stateAt request.exchangeOrderId := rfl
  have hself : ∀ side orderType limit clientId,
      (e.view.reserve request.clientOrderId).selfTrade side orderType limit clientId =
      e.view.selfTrade side orderType limit clientId := fun _ _ _ _ => rfl
  by_cases htrade : e.view.selfTrade (e.view.stateAt request.exchangeOrderId).side
      (e.view.stateAt request.exchangeOrderId).orderType request.newPriceTicks
      (e.view.stateAt request.exchangeOrderId).clientId = true
  · refine iff_of_true ?_ htrade
    unfold Exchange.replace
    simp only [if_neg (not_le.mpr quantity), if_neg (not_le.mpr price), hreused, hresting, hstate,
      hself, htrade, Bool.false_eq_true, if_false, if_true]
    rfl
  · refine iff_of_false ?_ htrade
    intro h
    unfold Exchange.replace at h
    simp only [if_neg (not_le.mpr quantity), if_neg (not_le.mpr price), hreused, hresting, hstate,
      hself, htrade, Bool.false_eq_true, if_false, if_true] at h
    have hkind := congrArg ExecutionReport.execType (List.head_eq_of_cons_eq h)
    cases hkind

end Serve

theorem Sound.run_clients {e : MatchingEngine} (s : e.Sound) {log : List Entry}
    (origin : Origin log (e.view, none)) (paired : Paired (DifferentClients log) (log.map Prod.snd))
    (requests : List Request) :
    Origin (log ++ e.log requests) ((e.run requests).engine.view, none) ∧
      Paired (DifferentClients (log ++ e.log requests)) ((log ++ e.log requests).map Prod.snd) := by
  rw [s.log_eq, (s.run_view requests).1]
  exact s.consistent.clients origin paired (s.consistent.run_trace requests)

theorem Sound.run_origin {e : MatchingEngine} (s : e.Sound) {log : List Entry}
    (origin : Origin log (e.view, none)) (requests : List Request) :
    Origin (log ++ e.log requests) ((e.run requests).engine.view, none) := by
  rw [s.log_eq, (s.run_view requests).1]
  exact s.consistent.origin origin (s.consistent.run_trace requests)

/-- No fill of a run joins two orders of one client, and what is refused to prevent that
would have done so. -/
theorem no_self_trade (symbolId : Nat) (requests : List Request) :
    (∀ p ∈ tradePairs ((new symbolId).run requests).reports,
      DifferentClients ((new symbolId).log requests) p.1 p.2) ∧
    (∀ request : NewOrderRequest, request.postOnly = false → request.symbolId = symbolId →
      isValidSide request.side = true →
      (request.orderType = .limit ∨ request.orderType = .market) → 0 < request.quantity →
      (request.orderType = .limit → 0 < request.priceTicks) →
      (request.timeInForce = .gtc ∨ request.timeInForce = .ioc ∨ request.timeInForce = .fok) →
      (((new symbolId).run requests).engine.reserveClientOrderId request.clientOrderId).isSome = true →
      ((((new symbolId).run requests).engine.serve (.submit request)).reports =
          [makeReject request.clientOrderId request.symbolId request.side request.timestampNs
            .selfTradePrevention] ↔
        MeetsOwn ((new symbolId).run requests).engine ((new symbolId).log requests) request.clientId
          request.side request.orderType request.priceTicks)) ∧
    ∀ request : ReplaceOrderRequest, 0 < request.newQuantity → 0 < request.newPriceTicks →
      (((new symbolId).run requests).engine.reserveClientOrderId request.clientOrderId).isSome = true →
      ∀ o, ((new symbolId).run requests).engine.book.findOrder request.exchangeOrderId = some o →
      ∃ submit, submission ((new symbolId).log requests) request.exchangeOrderId = some submit ∧
        ((((new symbolId).run requests).engine.serve (.replace request)).reports =
            [makeReject request.clientOrderId symbolId o.side request.timestampNs
              .selfTradePrevention] ↔
          MeetsOwn ((new symbolId).run requests).engine ((new symbolId).log requests)
            submit.clientId o.side .limit request.newPriceTicks) := by
  have s := new_sound symbolId
  have sound := s.run requests
  have hstart : Origin [] ((new symbolId).view, none) := by
    rw [new_view]
    exact new_origin symbolId
  obtain ⟨origin, paired⟩ := s.run_clients hstart .nil requests
  rw [List.nil_append] at origin paired
  rw [log_reports] at paired
  have hsymbol : ((new symbolId).run requests).engine.symbolId = symbolId :=
    (congrArg Exchange.symbolId (s.run_view requests).1).trans (s.consistent.run_symbolId requests)
  refine ⟨paired.related, ?_, ?_⟩
  · intro request postOnly symbol side type quantity price time fresh
    exact sound.submit_selfTrade_iff origin postOnly (symbol.trans hsymbol.symm) side type quantity
      price time fresh
  · intro request quantity price fresh o ho
    have h := sound.replace_selfTrade_iff origin quantity price fresh ho
    rw [hsymbol] at h
    exact h

end MatchingEngine
end Asterion
