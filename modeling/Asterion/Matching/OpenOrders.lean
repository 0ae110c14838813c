import Asterion.Matching.Simulation

/-! The laws that tie the book, the state map and the report stream of an engine together:
the joint invariant between requests, and the open orders read off the reports. -/
namespace Asterion

open Lib
open MatchingEngine (Request)

def lastReport (reports : List ExecutionReport) (id : Nat) : Option ExecutionReport :=
  (reports.filter (fun r => r.exchangeOrderId = id)).getLast?

theorem lastReport_append (a b : List ExecutionReport) (id : Nat) :
    lastReport (a ++ b) id = (lastReport b id).or (lastReport a id) := by
  rw [lastReport, List.filter_append, List.getLast?_append]
  rfl

/-- The report tells the current terms of a state. -/
def Reflects (r : ExecutionReport) (st : OrderState) : Prop :=
  ∃ execType quantity price ts reason, r = makeReport st execType quantity price ts reason

theorem reflects_makeReport (st : OrderState) (execType : ExecType) (n p ts : Int)
    (reason : RejectReason) : Reflects (makeReport st execType n p ts reason) st :=
  ⟨execType, n, p, ts, reason, rfl⟩

namespace Exchange

theorem reports_tag (request : Request) (reports : List ExecutionReport) :
    (tag request reports).map Prod.snd = reports := by
  simp [tag]

/-- The last report of every order reflects its state. -/
def Reported (h : List Entry) (s : Session) : Prop :=
  ∀ id, id ≠ invalidOrderId → match lastReport (h.map Prod.snd) id with
    | none => s.1.state id = none
    | some r => ∃ st, s.1.state id = some st ∧ Reflects r st

section Steps
variable {h l : List Entry} {s t : Session}

/-- A step that reports nothing about an order leaves its state alone. -/
theorem Reported.append (rep : Reported h s)
    (step : ∀ id, id ≠ invalidOrderId → match lastReport (l.map Prod.snd) id with
      | none => t.1.state id = s.1.state id
      | some r => ∃ st, t.1.state id = some st ∧ Reflects r st) : Reported (h ++ l) t := by
  intro id hid
  have hs := step id hid
  rw [List.map_append, lastReport_append]
  cases hl : lastReport (l.map Prod.snd) id with
  | some r =>
    rw [hl] at hs
    exact hs
  | none =>
    rw [hl] at hs
    simp only [Option.none_or]
    rw [hs]
    exact rep id hid

theorem lastReport_nil (id : Nat) : lastReport [] id = none := rfl

theorem lastReport_single (r : ExecutionReport) (id : Nat) :
    lastReport [r] id = if r.exchangeOrderId = id then some r else none := by
  unfold lastReport
  by_cases h : r.exchangeOrderId = id <;> simp [h]

theorem lastReport_pair (a b : ExecutionReport) (id : Nat) :
    lastReport [a, b] id = if b.exchangeOrderId = id then some b
      else if a.exchangeOrderId = id then some a else none := by
  rw [show [a, b] = [a] ++ [b] from rfl, lastReport_append, lastReport_single, lastReport_single]
  by_cases h : b.exchangeOrderId = id <;> simp [h]

theorem close_reports (x : Exchange) (id : Nat) (status : OrderStatus) (execType : ExecType)
    (ts : Int) (reason : RejectReason) : (x.close id status execType ts reason).2 =
      [makeReport { x.stateAt id with status } execType 0 0 ts reason] := by
  simp only [close, stateAt_setState_same]

theorem withdraw_reports (x : Exchange) (id : Nat) (ts : Int) : (x.withdraw id ts).2 =
    [makeReport { x.stateAt id with status := .canceled } .canceled 0 0 ts .none] := by
  rw [withdraw, close_reports]
  rfl

/-- A step that gives one order a new state and reports exactly that. -/
theorem Reported.single (rep : Reported h s) (request : Request) (i : Nat) (st : OrderState)
    {execType : ExecType} {ts : Int} {reason : RejectReason} (own : st.exchangeOrderId = i)
    (hst : t.1.state = Function.update s.1.state i (some st)) :
    Reported (h ++ tag request [makeReport st execType 0 0 ts reason]) t := by
  refine rep.append (fun id _ => ?_)
  rw [reports_tag, lastReport_single, hst]
  have hr : (makeReport st execType 0 0 ts reason).exchangeOrderId = i := own
  rw [hr]
  by_cases hid : i = id
  · subst hid
    rw [if_pos rfl]
    exact ⟨st, Function.update_self .., reflects_makeReport _ _ _ _ _ _⟩
  · rw [if_neg hid]
    exact Function.update_of_ne (Ne.symm hid) ..

theorem Reported.silent (rep : Reported h s) (hst : t.1.state = s.1.state) : Reported (h ++ []) t :=
  rep.append (fun id _ => by
    rw [List.map_nil, lastReport_nil, hst])

theorem Step.reported (step : Step s l t) (c : Consistent s.1 s.2) (rep : Reported h s) :
    Reported (h ++ l) t := by
  cases step with
  | refuse request clientOrderId symbolId side ts other =>
    refine rep.append (fun id hid => ?_)
    rw [reports_tag, lastReport_single, if_neg (fun he => hid he.symm)]
  | reserve => exact rep.silent rfl
  | enlist ok _ _ => exact rep.single _ _ _ rfl rfl
  | @reopen x request s o ho hid _ _ _ =>
    have ok := c.knownAt (c.stateAt_order ho).1
    rw [hid] at ok
    exact rep.single _ request.exchangeOrderId _ ok.own rfl
  | @trade x request i wanted ts o head _ _ =>
    have ho := List.mem_of_head? head
    have hand := c.inHand i wanted rfl
    have hne : o.orderId ≠ i := hand.absent _ o ho
    have ownResting := (c.knownAt (c.stateAt_order ho).1).own
    have ownIncoming := (c.knownAt hand.stored).own
    refine rep.append (fun id _ => ?_)
    rw [reports_tag, trade_reports _ _ hne, lastReport_pair, trade_state _ _ hne]
    have hr : (makeReport ((x.stateAt o.orderId).fill (min wanted o.quantity) o.priceTicks) .trade
        (min wanted o.quantity) o.priceTicks ts .none).exchangeOrderId = o.orderId := ownResting
    have hi : (makeReport ((x.stateAt i).fill (min wanted o.quantity) o.priceTicks) .trade
        (min wanted o.quantity) o.priceTicks ts .none).exchangeOrderId = i := ownIncoming
    rw [hr, hi]
    by_cases h₁ : i = id
    · subst h₁
      rw [if_pos rfl, if_pos rfl]
      exact ⟨_, rfl, reflects_makeReport _ _ _ _ _ _⟩
    · rw [if_neg h₁, if_neg (Ne.symm h₁)]
      by_cases h₂ : o.orderId = id
      · subst h₂
        rw [if_pos rfl, if_pos rfl]
        exact ⟨_, rfl, reflects_makeReport _ _ _ _ _ _⟩
      · rw [if_neg h₂, if_neg (Ne.symm h₂)]
  | rest _ symbol _ _ =>
    have hnone : ∀ (x : Exchange) i ts, x.symbolId ≠ invalidSymbolId →
        (x.rest i ts).1.state = x.state := by
      intro x i ts hx
      unfold Exchange.rest
      rw [if_neg hx]
    exact rep.silent (hnone _ _ _ symbol)
  | expire =>
    have hand := c.inHand _ _ rfl
    rw [close_reports]
    exact rep.single _ _ { Exchange.stateAt _ _ with status := .canceled }
      (c.knownAt hand.stored).own rfl
  | fault =>
    have hand := c.inHand _ _ rfl
    rw [close_reports]
    exact rep.single _ _ { Exchange.stateAt _ _ with status := .rejected }
      (c.knownAt hand.stored).own rfl
  | done => exact rep.silent rfl
  | withdraw _ _ ho =>
    rw [withdraw_reports]
    exact rep.single _ _ { Exchange.stateAt _ _ with status := .canceled }
      (c.knownAt (c.stateAt_order ho).1).own rfl

/-- Only an exchange without a symbol ever reports an internal error. -/
theorem Step.no_internalError (step : Step s l t) (symbol : s.1.symbolId ≠ invalidSymbolId) :
    ∀ entry ∈ l, entry.2.rejectReason ≠ .internalError := by
  have one : ∀ (request : Request) (r : ExecutionReport), r.rejectReason ≠ .internalError →
      ∀ entry ∈ tag request [r], entry.2.rejectReason ≠ .internalError :=
    fun request r hr entry hmem => List.mem_singleton.mp hmem ▸ hr
  cases step with
  | refuse request clientOrderId symbolId side ts other => exact one _ _ other
  | reserve => exact fun _ hmem => by cases hmem
  | enlist => exact one _ _ (fun h => by cases h)
  | reopen => exact one _ _ (fun h => by cases h)
  | trade =>
    intro entry hmem
    obtain ⟨r, hr, rfl⟩ := List.mem_map.mp hmem
    rcases List.mem_cons.mp hr with rfl | hr
    · exact RejectReason.noConfusion
    · rw [List.mem_singleton.mp hr]
      exact RejectReason.noConfusion
  | rest => exact fun _ hmem => by cases hmem
  | expire => exact one _ _ (fun h => by cases h)
  | fault _ _ hsymbol => exact absurd hsymbol symbol
  | done => exact fun _ hmem => by cases hmem
  | withdraw => exact one _ _ (fun h => by cases h)

end Steps

section Runs
variable {x : Exchange}

theorem Consistent.reported (c : Consistent x none) (rep : Reported [] (x, none))
    (requests : List Request) : Reported (x.log requests) ((x.run requests).1, none) := by
  have keep : ∀ {h : List Entry} {s : Session} {l : List Entry} {t : Session},
      Consistent s.1 s.2 ∧ Reported h s → Step s l t → Consistent t.1 t.2 ∧ Reported (h ++ l) t :=
    fun h step => ⟨step.consistent h.1, step.reported h.1 h.2⟩
  exact (Trace.invariant (I := fun h (s : Session) => Consistent s.1 s.2 ∧ Reported h s)
    keep (h := []) ⟨c, rep⟩ (c.run_trace requests)).2

theorem Consistent.no_internalError (c : Consistent x none) (symbol : x.symbolId ≠ invalidSymbolId)
    (requests : List Request) :
    ∀ entry ∈ x.log requests, entry.2.rejectReason ≠ .internalError := by
  have keep : ∀ {h : List Entry} {s : Session} {l : List Entry} {t : Session},
      s.1.symbolId = x.symbolId ∧ (∀ entry ∈ h, entry.2.rejectReason ≠ .internalError) →
      Step s l t →
      t.1.symbolId = x.symbolId ∧ ∀ entry ∈ h ++ l, entry.2.rejectReason ≠ .internalError := by
    intro h s l t hs step
    refine ⟨step.symbolId.trans hs.1, fun entry hmem => ?_⟩
    exact (List.mem_append.mp hmem).elim (hs.2 entry) (step.no_internalError (hs.1 ▸ symbol) entry)
  exact (Trace.invariant (I := fun h (s : Session) => s.1.symbolId = x.symbolId ∧
    ∀ entry ∈ h, entry.2.rejectReason ≠ .internalError) keep (h := [])
    ⟨rfl, fun _ hmem => by cases hmem⟩ (c.run_trace requests)).2

end Runs
end Exchange

namespace MatchingEngine

open Exchange

/-- Book and state map describe the same open orders. -/
structure Agreement (e : MatchingEngine) : Prop where
  uncrossed : ∀ bid ask, e.book.bestBid = some bid → e.book.bestAsk = some ask → bid < ask
  clean : e.book.checkInvariants.ok = true
  backed : ∀ id o, e.book.findOrder id = some o → ∃ st, e.states.lookup id = some st ∧
    o.side = st.side ∧ o.symbolId = st.symbolId ∧ st.symbolId = e.symbolId ∧
    st.orderType = .limit ∧ o.priceTicks = st.limitPriceTicks ∧
    o.quantity = st.originalQuantity - st.filledQuantity ∧ 0 < o.quantity ∧
    (st.status = .new ∨ st.status = .partiallyFilled ∨ st.status = .replaced)
  ended : ∀ id st, e.states.lookup id = some st →
    st.status = .filled ∨ st.status = .canceled ∨ st.status = .rejected → e.book.findOrder id = none
  idle : ∀ id st, e.states.lookup id = some st → e.book.findOrder id = none →
    st.status = .filled ∨ st.status = .canceled

theorem Sound.agreement {e : MatchingEngine} (s : e.Sound) (symbol : e.symbolId ≠ invalidSymbolId) :
    e.Agreement where
  uncrossed := by
    intro bid ask hb ha
    rw [OrderBook.bestBid_eq s.wf, Option.map_eq_some_iff] at hb
    rw [OrderBook.bestAsk_eq s.wf, Option.map_eq_some_iff] at ha
    obtain ⟨a, ha', rfl⟩ := hb
    obtain ⟨b, hb', rfl⟩ := ha
    exact s.consistent.uncrossed a (List.mem_of_head? ha') b (List.mem_of_head? hb')
  clean := by rw [OrderBook.checkInvariants_clean s.wf]
  backed := by
    intro id o ho
    obtain ⟨hmem, rfl⟩ := (OrderBook.findOrder_eq_some s.wf).mp ho
    obtain ⟨hst, hrest, hlimit, hwork⟩ :=
      s.consistent.stateAt_order (s := o.side) ((OrderBook.mem_resting s.wf).mp hmem)
    have ok := s.consistent.knownAt hst
    exact ⟨_, hst, congrArg Order.side hrest, congrArg Order.symbolId hrest, ok.symbol, hlimit,
      congrArg Order.priceTicks hrest, congrArg Order.quantity hrest,
      OrderBook.quantity_pos s.wf hmem, hwork⟩
  ended := by
    intro id st hst hover
    rw [OrderBook.findOrder_eq_none s.wf]
    rintro o ho rfl
    obtain ⟨_, _, _, hwork⟩ :=
      s.consistent.stateAt_order (s := o.side) ((OrderBook.mem_resting s.wf).mp ho)
    rw [Exchange.stateAt_eq (x := e.view) hst] at hwork
    rcases hover with h | h | h <;> rw [h] at hwork <;> rcases hwork with h | h | h <;> cases h
  idle := by
    intro id st hst hnone
    have habsent := (OrderBook.findOrder_eq_none s.wf).mp hnone
    rcases s.consistent.idle id st hst
      (fun _ o ho => habsent o (OrderBook.mem_resting_of_queue s.wf ho))
      (fun _ h => by cases h) with h | h | ⟨h, _⟩
    · exact Or.inl h
    · exact Or.inr h
    · exact absurd h symbol

/-- In every reachable state the book is uncrossed and clean and agrees with the state map,
and no report has ever told of an internal error. -/
theorem run_agreement (symbolId : Nat) (symbol : symbolId ≠ invalidSymbolId)
    (requests : List Request) :
    ((new symbolId).run requests).engine.Agreement ∧
      ∀ r ∈ ((new symbolId).run requests).reports, r.rejectReason ≠ .internalError := by
  have s := new_sound symbolId
  obtain ⟨hview, hreports⟩ := s.run_view requests
  have hnew : (new symbolId).view.symbolId = symbolId := rfl
  have hsym := s.consistent.run_symbolId requests
  have hlog := s.consistent.no_internalError (by rw [hnew]; exact symbol) requests
  refine ⟨(s.run requests).agreement ?_, fun r hr => ?_⟩
  · change ((new symbolId).run requests).engine.view.symbolId ≠ invalidSymbolId
    rw [hview, hsym, hnew]
    exact symbol
  · rw [hreports, ← Exchange.log_reports] at hr
    obtain ⟨entry, hentry, rfl⟩ := List.mem_map.mp hr
    exact hlog entry hentry

theorem run_agreement_one_bid :
    (1 : Nat) ≠ invalidSymbolId ∧
      ((new 1).run [.submit { clientOrderId := 1, symbolId := 1, side := .buy
                              priceTicks := 5, quantity := 2 }]).engine.Agreement :=
  ⟨by decide, (run_agreement 1 (by decide) _).1⟩

/-- The orders whose last report leaves a quantity are the orders of the book, on the
reported terms. -/
theorem open_orders_reported (symbolId : Nat) (requests : List Request) (id : Nat)
    (valid : id ≠ invalidOrderId) :
    match lastReport ((new symbolId).run requests).reports id with
    | none => ((new symbolId).run requests).engine.book.findOrder id = none
    | some r =>
      if r.remainingQuantity > 0 then
        ∃ o, ((new symbolId).run requests).engine.book.findOrder id = some o ∧ o.side = r.side ∧
          o.clientOrderId = r.clientOrderId ∧ o.priceTicks = r.restingPriceTicks ∧
          o.quantity = r.remainingQuantity
      else r.remainingQuantity = 0 ∧
        ((new symbolId).run requests).engine.book.findOrder id = none := by
  have s := new_sound symbolId
  obtain ⟨hview, hreports⟩ := s.run_view requests
  have sound := s.run requests
  have c := sound.consistent
  have hnone : ∀ id, (new symbolId).view.state id = none := fun _ => rfl
  have rep := s.consistent.reported (fun id _ => hnone id) requests id valid
  rw [Exchange.log_reports, ← hreports, ← hview] at rep
  have hstate : ∀ o, ((new symbolId).run requests).engine.book.findOrder id = some o →
      ∃ st, ((new symbolId).run requests).engine.view.state id = some st ∧
        o = restingOrder st ∧ st.orderType = .limit ∧ st.status.Working ∧ 0 < o.quantity := by
    intro o ho
    obtain ⟨hmem, rfl⟩ := (OrderBook.findOrder_eq_some sound.wf).mp ho
    obtain ⟨hst, hrest⟩ := c.stateAt_order (s := o.side) ((OrderBook.mem_resting sound.wf).mp hmem)
    exact ⟨_, hst, hrest.1, hrest.2.1, hrest.2.2, OrderBook.quantity_pos sound.wf hmem⟩
  cases hl : lastReport ((new symbolId).run requests).reports id with
  | none =>
    rw [hl] at rep
    cases hf : ((new symbolId).run requests).engine.book.findOrder id with
    | none => rfl
    | some o =>
      obtain ⟨st, hst, _⟩ := hstate o hf
      rw [rep] at hst
      cases hst
  | some r =>
    rw [hl] at rep
    obtain ⟨st, hst, execType, n, p, ts, reason, rfl⟩ := rep
    cases hf : ((new symbolId).run requests).engine.book.findOrder id with
    | none =>
      have habsent := (OrderBook.findOrder_eq_none sound.wf).mp hf
      have hover := c.idle id st hst
        (fun _ o ho => habsent o (OrderBook.mem_resting_of_queue sound.wf ho))
        (fun _ h => by cases h)
      have hzero : (makeReport st execType n p ts reason).remainingQuantity = 0 := by
        unfold makeReport
        rcases hover with h | h | ⟨_, h⟩ <;> simp [h]
      simp only [hzero, gt_iff_lt, lt_irrefl, if_false]
      exact ⟨trivial, trivial⟩
    | some o =>
      obtain ⟨st', hst', hrest, hlimit, hwork, hpos⟩ := hstate o hf
      obtain rfl : st = st' := Option.some.inj (hst.symm.trans hst')
      have hqty : o.quantity = st.originalQuantity - st.filledQuantity := congrArg Order.quantity hrest
      have hrem : (makeReport st execType n p ts reason).remainingQuantity = o.quantity := by
        unfold makeReport
        rw [hqty, ← remainingQuantity_eq (by omega)]
        rcases hwork with h | h | h <;> simp [h]
      have hprice : (makeReport st execType n p ts reason).restingPriceTicks = o.priceTicks := by
        have h : (makeReport st execType n p ts reason).restingPriceTicks =
          if (makeReport st execType n p ts reason).remainingQuantity > 0 ∧ st.orderType = .limit
            then st.limitPriceTicks else 0 := rfl
        rw [h, hrem, if_pos ⟨hpos, hlimit⟩]
        exact (congrArg Order.priceTicks hrest).symm
      simp only
      rw [if_pos (by rw [hrem]; exact hpos)]
      exact ⟨o, rfl, congrArg Order.side hrest, congrArg Order.clientOrderId hrest, hprice.symm,
        hrem.symm⟩

theorem open_orders_reported_one_bid :
    ((new 1).run [.submit { clientOrderId := 1, symbolId := 1, side := .buy
                            priceTicks := 5, quantity := 2 }]).engine.book.findOrder 1 ≠ none := by
  have h := open_orders_reported 1 [.submit { clientOrderId := 1, symbolId := 1, side := .buy
                                              priceTicks := 5, quantity := 2 }] 1 (by decide)
  have hl : lastReport ((new 1).run [.submit { clientOrderId := 1, symbolId := 1, side := .buy
                                               priceTicks := 5, quantity := 2 }]).reports 1 = some
      { clientOrderId := 1, exchangeOrderId := 1, symbolId := 1, side := .buy, orderStatus := .new
        execType := .new, remainingQuantity := 2, restingPriceTicks := 5 } := by decide
  rw [hl] at h
  obtain ⟨o, ho, _⟩ := h
  rw [ho]
  exact Option.some_ne_none o

end MatchingEngine
end Asterion
