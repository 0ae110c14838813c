import Asterion.Matching.Refinement

/-! Each request of the engine follows the exchange: the matching loop fill by fill, then
resting or closing, then the admission checks in front. -/
namespace Asterion

open Lib
open MatchingEngine (Request executable)
open Exchange

namespace MatchingEngine

section Loop
variable {w : Reporting} {x : Exchange} {rs : List ExecutionReport} {i : Nat} {wanted ts : Int}
  {o : Order}

theorem matchIteration_eq (ts : Int) (h : w.Shows x rs) (c : Consistent x (some (i, wanted)))
    (head : (x.facing i).head? = some o) (pos : 0 < wanted) :
    ∃ w', matchIteration w i wanted ts = ((w', wanted - min wanted o.quantity), true) ∧
      w'.Shows (x.trade i ts (o, min wanted o.quantity)).1
        (rs ++ (x.trade i ts (o, min wanted o.quantity)).2) := by
  have ho : o ∈ x.facing i := List.mem_of_head? head
  have hqty := c.quantity_pos ho
  obtain ⟨n, hn⟩ : ∃ n, n = min wanted o.quantity := ⟨_, rfl⟩
  obtain ⟨hst, _⟩ := c.stateAt_order ho
  have hbest : w.engine.book.bestOrder (opposite (w.engine.stateAt i).side) = some o := by
    rw [h.stateAt, OrderBook.bestOrder_eq h.wf, h.queue]
    exact head
  have hlookup : ¬ (w.engine.states.lookup o.orderId).isNone = true := by
    rw [h.lookup, hst]
    simp
  have h₁ := h.setState o.orderId ((w.engine.stateAt o.orderId).fill n o.priceTicks)
  have h₂ := h₁.setState i
    (((w.setState o.orderId ((w.engine.stateAt o.orderId).fill n o.priceTicks)).engine.stateAt i).fill
      n o.priceTicks)
  obtain ⟨w₂, hw₂⟩ : ∃ w₂, w₂ =
      (w.setState o.orderId ((w.engine.stateAt o.orderId).fill n o.priceTicks)).setState i
      (((w.setState o.orderId ((w.engine.stateAt o.orderId).fill n o.priceTicks)).engine.stateAt i).fill
        n o.priceTicks) := ⟨_, rfl⟩
  rw [← hw₂] at h₂
  have h₃ := h₂.record (makeReport (w₂.engine.stateAt o.orderId) .trade n o.priceTicks ts .none)
  obtain ⟨w₃, hw₃⟩ : ∃ w₃, w₃ =
      w₂.record (makeReport (w₂.engine.stateAt o.orderId) .trade n o.priceTicks ts .none) := ⟨_, rfl⟩
  rw [← hw₃] at h₃
  have h₄ := h₃.record (makeReport (w₃.engine.stateAt i) .trade n o.priceTicks ts .none)
  obtain ⟨w₄, hw₄⟩ : ∃ w₄, w₄ =
      w₃.record (makeReport (w₃.engine.stateAt i) .trade n o.priceTicks ts .none) := ⟨_, rfl⟩
  rw [← hw₄] at h₄
  have hrest : o ∈ w₄.engine.book.resting := by
    refine OrderBook.mem_resting_of_queue h₄.wf (s := opposite (x.stateAt i).side) ?_
    rw [h₄.queue]
    exact ho
  obtain ⟨b, hb, wf, hsym, hq⟩ :=
    OrderBook.reduceOrder_consume h₄.wf hrest (n := n) (by omega)
  have h₅ := h₄.setBook (fun s => consume (o, n) (x.queue s)) wf hsym
    (fun s => by rw [hq, h₄.queue]; rfl)
  refine ⟨w₄.setBook b, ?_, ?_⟩
  · unfold matchIteration
    rw [hbest]
    simp only
    rw [if_neg hlookup, ← hn, ← hw₂, ← hw₃, ← hw₄, hb]
  · rw [h₂.stateAt, h₃.stateAt, h₁.stateAt, h.stateAt, List.append_assoc] at h₅
    rw [← hn]
    exact h₅

/-- The matching loop makes exactly the fills of the sweep. -/
theorem matchLoop_eq (ts : Int) (fuel : Nat) (h : w.Shows x rs) (c : Consistent x (some (i, wanted)))
    (enough : wanted.toNat ≤ fuel) :
    ∃ w', matchLoop i ts fuel w wanted = (w', wanted - Sweep.total (x.sweep i wanted)) ∧
      w'.Shows (x.trades i ts (x.sweep i wanted)).1 (rs ++ (x.trades i ts (x.sweep i wanted)).2) := by
  have hstop : x.sweep i wanted = [] → w.Shows (x.trades i ts (x.sweep i wanted)).1
      (rs ++ (x.trades i ts (x.sweep i wanted)).2) := by
    intro hs
    rw [hs]
    simpa [trades] using h
  induction fuel generalizing w x wanted rs with
  | zero =>
    have hs : x.sweep i wanted = [] := sweep_stop (Or.inl (by omega))
    refine ⟨w, ?_, hstop hs⟩
    rw [hs, Sweep.total_nil, sub_zero]
    rfl
  | succ fuel ih =>
    have hcross : w.engine.crosses (w.engine.stateAt i).side (w.engine.stateAt i).orderType
        (w.engine.stateAt i).limitPriceTicks =
        (x.facing i).head?.any (fun o => acceptable (x.stateAt i) o) := by
      rw [crosses_eq h.wf, h.view, h.stateAt]
      rfl
    unfold matchLoop
    simp only [hcross]
    by_cases hgo : 0 < wanted ∧ ∃ o, (x.facing i).head? = some o ∧ acceptable (x.stateAt i) o = true
    · obtain ⟨pos, o, head, accept⟩ := hgo
      obtain ⟨q, hq⟩ : ∃ q, x.facing i = o :: q := by
        cases hf : x.facing i with
        | nil => rw [hf] at head; cases head
        | cons a q => rw [hf] at head; cases head; exact ⟨q, rfl⟩
      have ho : o ∈ x.facing i := List.mem_of_head? head
      have hqty := c.quantity_pos ho
      obtain ⟨w', hw', h'⟩ := matchIteration_eq ts h c head pos
      have c' : Consistent (x.trade i ts (o, min wanted o.quantity)).1
          (some (i, wanted - min wanted o.quantity)) :=
        c.trade ho (by omega) (by omega) (by omega)
      have hs := c.sweep_cons hq accept pos ts
      obtain ⟨w'', hw'', h''⟩ := ih h' c' (by omega) (by
        intro hnil
        rw [hnil]
        simpa [trades] using h')
      refine ⟨w'', ?_, ?_⟩
      · rw [if_pos (by simp [pos, head, accept]), hw']
        simp only
        rw [hw'', hs, Sweep.total_cons, sub_sub]
      · rw [hs]
        rw [List.append_assoc] at h''
        exact h''
    · have hs : x.sweep i wanted = [] := by
        refine sweep_stop ?_
        by_cases pos : 0 < wanted
        · refine Or.inr fun o ho => ?_
          by_contra hne
          exact hgo ⟨pos, o, ho, Bool.not_eq_false _ ▸ hne⟩
        · exact Or.inl (not_lt.mp pos)
      refine ⟨w, ?_, hstop hs⟩
      rw [if_neg, hs, Sweep.total_nil, sub_zero]
      intro hcond
      simp only [Bool.and_eq_true, decide_eq_true_eq, Option.any_eq_true] at hcond
      exact hgo ⟨hcond.1, hcond.2⟩

end Loop

section Requests
variable {w : Reporting} {x : Exchange} {rs : List ExecutionReport} {i : Nat} {wanted ts : Int}

theorem closeWith_eq (h : w.Shows x rs) (id : Nat) (status : OrderStatus) (execType : ExecType)
    (ts : Int) (reason : RejectReason) :
    (closeWith w id status execType ts reason).Shows (x.close id status execType ts reason).1
      (rs ++ (x.close id status execType ts reason).2) := by
  have h₁ := h.setState id { w.engine.stateAt id with status }
  have h₂ := h₁.record (makeReport
    ((w.setState id { w.engine.stateAt id with status }).engine.stateAt id) execType 0 0 ts reason)
  rw [h₁.stateAt, h.stateAt] at h₂
  unfold closeWith
  simp only
  rw [h₁.stateAt, h.stateAt]
  exact h₂

/-- An order in hand comes to rest, unless the book refuses all orders. -/
theorem restOrReject_eq (h : w.Shows x rs) (c : Consistent x (some (i, wanted))) (pos : 0 < wanted)
    (limit : (x.stateAt i).orderType = .limit) (time : (x.stateAt i).timestampNs = ts) :
    (restOrReject w i wanted ts).Shows (x.rest i ts).1 (rs ++ (x.rest i ts).2) := by
  have hand := c.inHand i wanted rfl
  have ok := c.knownAt hand.stored
  obtain ⟨o, ho⟩ : ∃ o, o = restingOrder (x.stateAt i) := ⟨_, rfl⟩
  have horder : ({
      orderId := (x.stateAt i).exchangeOrderId
      clientOrderId := (x.stateAt i).clientOrderId
      symbolId := (x.stateAt i).symbolId
      side := (x.stateAt i).side
      priceTicks := (x.stateAt i).limitPriceTicks
      quantity := wanted
      timestampNs := ts
      sequenceNumber := (x.stateAt i).exchangeOrderId } : Order) = o := by
    rw [ho, restingOrder, time, hand.open_eq]
  have hsym : o.symbolId = x.symbolId := by rw [ho]; exact ok.symbol
  have hbook : w.engine.book.symbolId = x.symbolId := by
    rw [h.symbol, ← h.view]
    rfl
  unfold restOrReject restLimitOrder
  rw [h.stateAt]
  simp only [horder]
  by_cases symbol : x.symbolId = invalidSymbolId
  · have hinvalid : isValidRestingOrder o = false := by
      simp [isValidRestingOrder, hsym, symbol]
    rw [OrderBook.addOrder_refused (Or.inl hinvalid)]
    simp only
    have hrest : x.rest i ts = x.close i .rejected .rejected ts .internalError := if_pos symbol
    rw [hrest]
    exact closeWith_eq (w := w.setBook w.engine.book)
      ⟨h.wf, h.symbol, h.view, h.answer⟩ i .rejected .rejected ts .internalError
  · have hvalid : isValidRestingOrder o = true := by
      have hp := ok.price limit
      have hid : o.orderId ≠ invalidOrderId := by
        rw [ho, show (restingOrder (x.stateAt i)).orderId = i from ok.own]
        exact ok.positive.ne'
      have hside : isValidSide o.side = true := by rw [ho]; exact ok.side
      have hprice : 0 < o.priceTicks := by rw [ho]; exact hp
      have hqty : 0 < o.quantity := by
        rw [ho, show (restingOrder (x.stateAt i)).quantity = wanted from hand.open_eq]
        exact pos
      simp [isValidRestingOrder, hid, hsym, symbol, hside, hprice, hqty]
    have hfresh : w.engine.book.findOrder o.orderId = none := by
      rw [OrderBook.findOrder_eq_none h.wf]
      intro y hy
      have hyq := (OrderBook.mem_resting h.wf).mp hy
      rw [h.queue] at hyq
      have hne := hand.absent _ y hyq
      rw [ho]
      exact fun he => hne (he.trans ok.own)
    obtain ⟨b, hb, wf, hsymb, hq⟩ :=
      OrderBook.addOrder_accepted h.wf hvalid (hsym.trans hbook.symm) hfresh
    rw [hb]
    simp only
    have hrest : x.rest i ts =
        ({ x with queue := fun s => if s = o.side then enqueue o (x.queue s) else x.queue s }, []) := by
      unfold Exchange.rest
      rw [if_neg symbol, ho]
    rw [hrest, List.append_nil]
    refine h.setBook _ wf hsymb (fun s => ?_)
    rw [hq, h.queue]

theorem fold_fill_status (fs : List (Order × Int)) (st : OrderState)
    (h : (fs.foldl (fun st f => st.fill f.2 f.1.priceTicks) st).status = .replaced) :
    st.status = .replaced := by
  induction fs generalizing st with
  | nil => exact h
  | cons f fs ih =>
    have hf := ih _ h
    unfold OrderState.fill at hf
    simp only at hf
    split at hf <;> cases hf

/-- What remains after the matching loop rests. The status the engine writes before is the
one the fills have left. -/
theorem restAfterMatching_eq {w' : Reporting} (c : Consistent x (some (i, wanted)))
    (h : w'.Shows (x.trades i ts (x.sweep i wanted)).1
      (rs ++ (x.trades i ts (x.sweep i wanted)).2))
    (short : 0 < wanted - Sweep.total (x.sweep i wanted))
    (limit : (x.stateAt i).orderType = .limit) (time : (x.stateAt i).timestampNs = ts)
    {tweak : Prop} [Decidable tweak] (notReplaced : tweak →
      (w'.engine.stateAt i).filledQuantity > 0 ∧ (w'.engine.stateAt i).status ≠ .replaced) :
    (restOrReject (if tweak then
        w'.setState i { w'.engine.stateAt i with status := .partiallyFilled } else w') i
      (wanted - Sweep.total (x.sweep i wanted)) ts).Shows (x.execute i wanted true ts).1
      (rs ++ (x.execute i wanted true ts).2) := by
  have m := c.matched ts
  have c' := consistent_of_trace (m.trace (.cancel {})) c
  have hand := c'.inHand i _ rfl
  have hsame : (if tweak then
      w'.setState i { w'.engine.stateAt i with status := .partiallyFilled } else w').Shows
      (x.trades i ts (x.sweep i wanted)).1 (rs ++ (x.trades i ts (x.sweep i wanted)).2) := by
    split
    · rename_i ht
      obtain ⟨hfilled, hrep⟩ := notReplaced ht
      rw [h.stateAt] at hfilled hrep
      have hpart := c'.partly_filled short hfilled hrep
      have hset := h.setState i { w'.engine.stateAt i with status := .partiallyFilled }
      rw [h.stateAt, ← hpart, setState_eq_self hand.stored] at hset
      rw [h.stateAt, ← hpart]
      exact hset
    · exact h
  have hlimit := (m.fixed (·.orderType) (fun _ _ _ => rfl)).trans limit
  have htime := (m.fixed (·.timestampNs) (fun _ _ _ => rfl)).trans time
  have hrest := restOrReject_eq hsame c' short hlimit htime
  unfold execute
  simp only [if_pos short, if_true]
  rw [List.append_assoc] at hrest
  exact hrest

theorem emplaceOrder_shows {e : MatchingEngine} (wf : e.book.WF)
    (symbol : e.book.symbolId = e.symbolId) {p : Option (Nat × Int)} (c : Consistent e.view p)
    (request : NewOrderRequest) :
    Reporting.Shows { engine := e.emplaceOrder request } (e.view.enlist request).1 [] := by
  have hnew : e.nextExchangeOrderId ∉ e.states := by
    intro hmem
    obtain ⟨st, hst⟩ := Option.isSome_iff_exists.mp (AList.lookup_isSome.mpr hmem)
    exact absurd (c.known _ st hst).old (lt_irrefl _)
  refine ⟨wf, symbol, ?_, rfl⟩
  unfold emplaceOrder view enlist Exchange.setState
  simp only [if_neg hnew]
  congr 1
  funext j
  by_cases hj : j = e.nextExchangeOrderId
  · subst hj
    rw [Function.update_self]
    exact AList.lookup_insert _
  · rw [Function.update_of_ne hj]
    exact AList.lookup_insert_ne hj

theorem finishSubmit_eq {w' : Reporting} {request : NewOrderRequest}
    (c : Consistent x (some (i, wanted)))
    (h : w'.Shows (x.trades i request.timestampNs (x.sweep i wanted)).1
      (rs ++ (x.trades i request.timestampNs (x.sweep i wanted)).2))
    (fresh : (x.stateAt i).status ≠ .replaced)
    (kind : (x.stateAt i).orderType = request.orderType)
    (time : (x.stateAt i).timestampNs = request.timestampNs) :
    (finishSubmit w' request i (wanted - Sweep.total (x.sweep i wanted))).Shows
      (x.execute i wanted (decide (request.orderType = .limit ∧ request.timeInForce = .gtc))
        request.timestampNs).1
      (rs ++ (x.execute i wanted (decide (request.orderType = .limit ∧ request.timeInForce = .gtc))
        request.timestampNs).2) := by
  have m := c.matched request.timestampNs
  have hnot : (w'.engine.stateAt i).status ≠ .replaced := by
    rw [h.stateAt, m.incoming]
    exact fun hrep => fresh (fold_fill_status _ _ hrep)
  unfold finishSubmit
  by_cases short : wanted - Sweep.total (x.sweep i wanted) > 0
  · by_cases hrests : request.orderType = .limit ∧ request.timeInForce = .gtc
    · rw [if_pos ⟨short, hrests⟩, decide_eq_true hrests]
      exact restAfterMatching_eq c h short (kind.trans hrests.1) time (fun hf => ⟨hf, hnot⟩)
    · rw [if_neg (fun hc => hrests hc.2), if_pos short, decide_eq_false hrests]
      have hclose := closeWith_eq h i .canceled .canceled request.timestampNs .none
      unfold execute
      simp only [if_pos short, Bool.false_eq_true, if_false]
      rw [List.append_assoc] at hclose
      exact hclose
  · rw [if_neg (fun hc => short hc.1), if_neg short]
    unfold execute
    simp only [if_neg short, List.append_nil]
    exact h

theorem acceptOrder_eq {e : MatchingEngine} (wf : e.book.WF) (symbol : e.book.symbolId = e.symbolId)
    (c : Consistent e.view none) {request : NewOrderRequest}
    (ok : e.view.malformed request = none) (good : e.view.inadmissible request = none) :
    (e.acceptOrder request).Shows (e.view.accept request).1 (e.view.accept request).2 := by
  have c₁ := c.enlist ok (c.apart_of_admissible good)
  have hself : (e.view.enlist request).1.stateAt e.view.nextExchangeOrderId =
      e.view.accepted request := stateAt_setState_same e.view _ _
  have h₀ := emplaceOrder_shows wf symbol c request
  have hstate : (e.emplaceOrder request).stateAt e.nextExchangeOrderId = e.view.accepted request :=
    (h₀.stateAt _).trans hself
  have h₁ := h₀.record (makeReport (e.view.accepted request) .new 0 0 request.timestampNs .none)
  rw [List.nil_append] at h₁
  obtain ⟨w', hw', h'⟩ := matchLoop_eq request.timestampNs request.quantity.toNat h₁ c₁ le_rfl
  have hfinish := finishSubmit_eq c₁ h' (by rw [hself]; exact fun h => by cases h)
    (by rw [hself]; rfl) (by rw [hself]; rfl)
  unfold acceptOrder
  simp only
  rw [hstate]
  unfold matchAgainstBook
  rw [show e.nextExchangeOrderId = e.view.nextExchangeOrderId from rfl, hw']
  exact hfinish

theorem finishReplace_eq {w' : Reporting} {request : ReplaceOrderRequest}
    (hi : request.exchangeOrderId = i) (c : Consistent x (some (i, wanted)))
    (h : w'.Shows (x.trades i request.timestampNs (x.sweep i wanted)).1
      (rs ++ (x.trades i request.timestampNs (x.sweep i wanted)).2))
    (limit : (x.stateAt i).orderType = .limit)
    (time : (x.stateAt i).timestampNs = request.timestampNs) :
    (finishReplace w' request (wanted - Sweep.total (x.sweep i wanted))).Shows
      (x.execute i wanted true request.timestampNs).1
      (rs ++ (x.execute i wanted true request.timestampNs).2) := by
  unfold finishReplace
  simp only [hi]
  by_cases short : wanted - Sweep.total (x.sweep i wanted) > 0
  · rw [if_pos short]
    exact restAfterMatching_eq c h short limit time id
  · rw [if_neg short]
    unfold execute
    simp only [if_neg short, List.append_nil]
    exact h

/-- The engine after the order has left the book, and the exchange with the order reopened. -/
theorem reworkOrder_eq {e : MatchingEngine} (c : Consistent e.view none)
    {request : ReplaceOrderRequest} {book : OrderBook} (wf : book.WF)
    (symbol : book.symbolId = e.symbolId)
    (hq : ∀ s, book.queue s = dequeue request.exchangeOrderId (e.book.queue s))
    {s : Side} {o : Order} (ho : o ∈ e.view.queue s) (hid : o.orderId = request.exchangeOrderId)
    (hqty : 0 < request.newQuantity) (hprice : 0 < request.newPriceTicks)
    (apart : e.view.selfTrade (e.view.stateAt o.orderId).side (e.view.stateAt o.orderId).orderType
      request.newPriceTicks (e.view.stateAt o.orderId).clientId = false) :
    (reworkOrder { engine := { e with book } } request).Shows (e.view.rework request).1
      (e.view.rework request).2 := by
  have c₁ := c.reopen request ho hid hqty hprice apart
  rw [hid] at c₁
  obtain ⟨x, hx⟩ : ∃ x : Exchange, x =
      { e.view with queue := fun s => dequeue request.exchangeOrderId (e.view.queue s) } := ⟨_, rfl⟩
  have h₀ : Reporting.Shows { engine := { e with book } } x [] := by
    refine ⟨wf, symbol, ?_, rfl⟩
    rw [hx]
    unfold view
    congr 1
    exact funext hq
  have hstate : x.stateAt request.exchangeOrderId = e.view.stateAt request.exchangeOrderId := by
    rw [hx]
    rfl
  obtain ⟨st, hst⟩ : ∃ st : OrderState, st = { e.view.stateAt request.exchangeOrderId with
      limitPriceTicks := request.newPriceTicks
      originalQuantity :=
        (e.view.stateAt request.exchangeOrderId).filledQuantity + request.newQuantity
      status := .replaced
      timestampNs := request.timestampNs } := ⟨_, rfl⟩
  have h₁ := h₀.setState request.exchangeOrderId st
  have hreopen : x.setState request.exchangeOrderId st = (e.view.reopen request).1 := by
    rw [hx, hst]
    rfl
  have hreport : (e.view.reopen request).2 =
      [makeReport st .replaced 0 0 request.timestampNs .none] := by
    rw [hst]
    rfl
  have hself : (e.view.reopen request).1.stateAt request.exchangeOrderId = st := by
    rw [reopen_stateAt_self, hst]
    rfl
  rw [hreopen] at h₁
  have h₂ := h₁.record (makeReport st .replaced 0 0 request.timestampNs .none)
  rw [List.nil_append] at h₂
  obtain ⟨w', hw', h'⟩ := matchLoop_eq request.timestampNs request.newQuantity.toNat h₂ c₁
    le_rfl
  have hlimit : ((e.view.reopen request).1.stateAt request.exchangeOrderId).orderType = .limit := by
    rw [reopen_orderType, ← hid]
    exact (c.stateAt_order ho).2.2.1
  have hfinish := finishReplace_eq rfl c₁ h' hlimit (by rw [hself, hst])
  unfold reworkOrder matchAgainstBook Exchange.rework
  simp only [h₀.stateAt, hstate, ← hst, h₁.stateAt, hself, hw', hreport]
  exact hfinish

end Requests

section Serve
variable {e : MatchingEngine} (wf : e.book.WF) (symbol : e.book.symbolId = e.symbolId)
include wf symbol

/-- The engine, read as an exchange, before anything is reported. -/
theorem shows_view : Reporting.Shows { engine := e } e.view [] := ⟨wf, symbol, rfl, rfl⟩

theorem rejected_eq (r : ExecutionReport) :
    (Reporting.record { engine := e } r).Shows e.view [r] := by
  simpa using (shows_view wf symbol).record r

omit wf symbol in
theorem reserveClientOrderId_eq (id : Nat) :
    e.reserveClientOrderId id = if e.view.reusedId id then none
      else some { e with seenClientOrderIds := insert id e.seenClientOrderIds } := by
  unfold reserveClientOrderId reusedId
  by_cases h : id = invalidClientOrderId
  · simp [h]
  · simp [h, view]

theorem submitOrder_eq (c : Consistent e.view none) (request : NewOrderRequest) :
    (e.submitOrder request).Shows (e.view.submit request).1 (e.view.submit request).2 := by
  unfold submitOrder Exchange.submit
  simp only
  rw [show e.symbolId = e.view.symbolId from rfl,
    ← elim_malformed e.view request _ (fun reason => Reporting.record { engine := e }
      (makeReject request.clientOrderId request.symbolId request.side request.timestampNs reason))]
  cases hmal : e.view.malformed request with
  | some reason => exact rejected_eq wf symbol _
  | none =>
    rw [Option.elim_none, reserveClientOrderId_eq]
    simp only
    by_cases hseen : e.view.reusedId request.clientOrderId = true
    · rw [if_pos hseen, if_pos hseen]
      exact rejected_eq wf symbol _
    rw [if_neg hseen, if_neg hseen]
    obtain ⟨e₁, he₁⟩ : ∃ e₁ : MatchingEngine, e₁ = { e with
        seenClientOrderIds := insert request.clientOrderId e.seenClientOrderIds } := ⟨_, rfl⟩
    have hview : e.view.reserve request.clientOrderId = e₁.view := by
      rw [he₁]
      rfl
    have wf₁ : e₁.book.WF := by rw [he₁]; exact wf
    have symbol₁ : e₁.book.symbolId = e₁.symbolId := by rw [he₁]; exact symbol
    have c₁ : Consistent e₁.view none := hview ▸ c.reserve request.clientOrderId
    have hmal₁ : e₁.view.malformed request = none := by
      rw [← hview]
      exact hmal
    rw [← he₁, hview]
    simp only
    obtain ⟨-, hvalid, hpos, -⟩ := malformed_eq_none hmal
    have hpositive : ∀ o ∈ e₁.view.queue (opposite request.side), o.orderId ≠ invalidOrderId := by
      intro o ho
      exact (c₁.knownAt (c₁.stateAt_order ho).1).positive.ne'
    rw [crosses_eq wf₁, wouldSelfTrade_eq wf₁ c₁ _ _ _ _ _ hpositive,
      canFullyFill_eq wf₁ hpos hvalid, ← elim_inadmissible e₁.view request _
        (fun reason => Reporting.record { engine := e₁ } (makeReject request.clientOrderId
          request.symbolId request.side request.timestampNs reason))]
    cases hinad : e₁.view.inadmissible request with
    | some reason => exact rejected_eq wf₁ symbol₁ _
    | none => exact acceptOrder_eq wf₁ symbol₁ c₁ hmal₁ hinad

omit symbol in
/-- The engine looks the order up in its state map and in its book. -/
theorem unknown_eq (c : Consistent e.view none) (id : Nat) :
    ((e.states.lookup id).isNone || (e.book.findOrder id).isNone) = !e.view.isResting id := by
  rw [← findOrder_isSome wf c, Option.not_isSome]
  cases hf : e.book.findOrder id with
  | none => simp
  | some o =>
    obtain ⟨ho, hid⟩ := (OrderBook.findOrder_eq_some wf).mp hf
    obtain ⟨hst, _⟩ := c.stateAt_order (s := o.side) ((OrderBook.mem_resting wf).mp ho)
    have hl : e.states.lookup id = some (e.view.stateAt o.orderId) := hid ▸ hst
    simp [hl]

theorem cancelOrder_eq (c : Consistent e.view none) (request : CancelOrderRequest) :
    (e.cancelOrder request).Shows (e.view.cancel request).1 (e.view.cancel request).2 := by
  unfold cancelOrder Exchange.cancel
  simp only
  rw [reserveClientOrderId_eq]
  by_cases hseen : e.view.reusedId request.clientOrderId = true
  · rw [if_pos hseen, if_pos hseen]
    exact rejected_eq wf symbol _
  rw [if_neg hseen, if_neg hseen]
  obtain ⟨e₁, he₁⟩ : ∃ e₁ : MatchingEngine, e₁ = { e with
      seenClientOrderIds := insert request.clientOrderId e.seenClientOrderIds } := ⟨_, rfl⟩
  have hview : e.view.reserve request.clientOrderId = e₁.view := by
    rw [he₁]
    rfl
  have wf₁ : e₁.book.WF := by rw [he₁]; exact wf
  have symbol₁ : e₁.book.symbolId = e₁.symbolId := by rw [he₁]; exact symbol
  have c₁ : Consistent e₁.view none := hview ▸ c.reserve request.clientOrderId
  rw [← he₁, hview]
  simp only
  rw [unknown_eq wf₁ c₁]
  by_cases hrest : e₁.view.isResting request.exchangeOrderId = true
  · rw [if_neg (by simp [hrest]), if_pos hrest]
    obtain ⟨s, o, ho, hid⟩ := c₁.isResting_iff.mp hrest
    obtain ⟨b, hb, wf', hsym, hq⟩ :=
      OrderBook.cancelOrder_resting wf₁ (OrderBook.mem_resting_of_queue wf₁ ho)
    rw [hid] at hb hq
    rw [hb]
    have h₀ := (shows_view wf₁ symbol₁).setBook _ wf' hsym hq
    have h₁ := closeWith_eq h₀ request.exchangeOrderId .canceled .canceled request.timestampNs .none
    rw [List.nil_append] at h₁
    exact h₁
  · rw [if_pos (by simp [hrest]), if_neg hrest]
    have hs : e₁.symbolId = e.view.symbolId := by rw [he₁]; rfl
    rw [hs]
    exact rejected_eq wf₁ symbol₁ _

theorem replaceOrder_eq (c : Consistent e.view none) (request : ReplaceOrderRequest) :
    (e.replaceOrder request).Shows (e.view.replace request).1 (e.view.replace request).2 := by
  unfold replaceOrder Exchange.replace
  simp only
  by_cases hqty : request.newQuantity ≤ 0
  · rw [if_pos hqty, if_pos hqty]
    exact rejected_eq wf symbol _
  rw [if_neg hqty, if_neg hqty]
  by_cases hprice : request.newPriceTicks ≤ 0
  · rw [if_pos hprice, if_pos hprice]
    exact rejected_eq wf symbol _
  rw [if_neg hprice, if_neg hprice, reserveClientOrderId_eq]
  by_cases hseen : e.view.reusedId request.clientOrderId = true
  · rw [if_pos hseen, if_pos hseen]
    exact rejected_eq wf symbol _
  rw [if_neg hseen, if_neg hseen]
  obtain ⟨e₁, he₁⟩ : ∃ e₁ : MatchingEngine, e₁ = { e with
      seenClientOrderIds := insert request.clientOrderId e.seenClientOrderIds } := ⟨_, rfl⟩
  have hview : e.view.reserve request.clientOrderId = e₁.view := by
    rw [he₁]
    rfl
  have wf₁ : e₁.book.WF := by rw [he₁]; exact wf
  have symbol₁ : e₁.book.symbolId = e₁.symbolId := by rw [he₁]; exact symbol
  have c₁ : Consistent e₁.view none := hview ▸ c.reserve request.clientOrderId
  have hs : e₁.symbolId = e.view.symbolId := by rw [he₁]; rfl
  rw [← he₁, hview]
  simp only
  rw [unknown_eq wf₁ c₁]
  by_cases hrest : e₁.view.isResting request.exchangeOrderId = true
  · rw [if_neg (by simp [hrest]), if_pos hrest]
    obtain ⟨s, o, ho, hid⟩ := c₁.isResting_iff.mp hrest
    rw [show e₁.stateAt request.exchangeOrderId = e₁.view.stateAt request.exchangeOrderId from rfl]
    have helse : ∀ y ∈ e₁.view.queue
        (opposite (e₁.view.stateAt request.exchangeOrderId).side),
        y.orderId ≠ (e₁.view.stateAt request.exchangeOrderId).exchangeOrderId := by
      rw [← hid, c₁.own_id ho]
      exact c₁.opposite_apart ho
    rw [wouldSelfTrade_eq wf₁ c₁ _ _ _ _ _ helse]
    by_cases hself : e₁.view.selfTrade (e₁.view.stateAt request.exchangeOrderId).side
        (e₁.view.stateAt request.exchangeOrderId).orderType request.newPriceTicks
        (e₁.view.stateAt request.exchangeOrderId).clientId = true
    · rw [if_pos hself, if_pos hself, hs]
      exact rejected_eq wf₁ symbol₁ _
    · rw [if_neg hself, if_neg hself]
      obtain ⟨b, hb, wf', hsym, hq⟩ :=
        OrderBook.cancelOrder_resting wf₁ (OrderBook.mem_resting_of_queue wf₁ ho)
      rw [hid] at hb hq
      rw [hb]
      refine reworkOrder_eq c₁ wf' (hsym.trans symbol₁) hq ho hid (not_le.mp hqty)
        (not_le.mp hprice) ?_
      rw [hid]
      exact Bool.eq_false_iff.mpr hself
  · rw [if_pos (by simp [hrest]), if_neg hrest, hs]
    exact rejected_eq wf₁ symbol₁ _

/-- The engine serves a request as the exchange does. -/
theorem serve_eq (c : Consistent e.view none) (request : Request) :
    (e.serve request).Shows (e.view.serve request).1 (e.view.serve request).2 := by
  cases request with
  | submit request => exact submitOrder_eq wf symbol c request
  | cancel request => exact cancelOrder_eq wf symbol c request
  | replace request => exact replaceOrder_eq wf symbol c request

end Serve

/-- What holds of the engine between requests. -/
structure Sound (e : MatchingEngine) : Prop where
  wf : e.book.WF
  symbol : e.book.symbolId = e.symbolId
  consistent : Consistent e.view none

theorem new_view (symbolId : Nat) : (new symbolId).view = .new symbolId := by
  unfold view new Exchange.new
  congr 1
  funext s
  cases s <;> rfl

theorem new_sound (symbolId : Nat) : (new symbolId).Sound where
  wf := OrderBook.new_wf symbolId
  symbol := rfl
  consistent := by
    rw [new_view]
    exact new_consistent symbolId

section Run
variable {e : MatchingEngine}

theorem Sound.serve_view (s : e.Sound) (request : Request) :
    (e.serve request).engine.view = (e.view.serve request).1 :=
  (serve_eq s.wf s.symbol s.consistent request).view

theorem Sound.serve_reports (s : e.Sound) (request : Request) :
    (e.serve request).reports = (e.view.serve request).2 :=
  (serve_eq s.wf s.symbol s.consistent request).answer

theorem Sound.serve (s : e.Sound) (request : Request) : (e.serve request).engine.Sound where
  wf := (serve_eq s.wf s.symbol s.consistent request).wf
  symbol := (serve_eq s.wf s.symbol s.consistent request).symbol
  consistent := by
    rw [s.serve_view]
    exact s.consistent.serve request

theorem Sound.run (s : e.Sound) (requests : List Request) : (e.run requests).engine.Sound := by
  induction requests generalizing e with
  | nil => exact s
  | cons request requests ih => exact ih (s.serve request)

/-- The engine runs as the exchange does. -/
theorem Sound.run_view (s : e.Sound) (requests : List Request) :
    (e.run requests).engine.view = (e.view.run requests).1 ∧
      (e.run requests).reports = (e.view.run requests).2 := by
  induction requests generalizing e with
  | nil => exact ⟨rfl, rfl⟩
  | cons request requests ih =>
    obtain ⟨hv, hr⟩ := ih (s.serve request)
    rw [s.serve_view] at hv hr
    refine ⟨hv, ?_⟩
    change (e.serve request).reports ++ ((e.serve request).engine.run requests).reports = _
    rw [hr, s.serve_reports]
    rfl

end Run
end MatchingEngine
end Asterion
