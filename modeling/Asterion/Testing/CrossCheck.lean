import Asterion.Testing.Mirrors

/-! The reference matcher follows the exchange, as the engine does: so the two answer every
request with the same reports and show the same book after it. -/
namespace Asterion

open Lib Lib.Buckets
open MatchingEngine (Request)
open Exchange

namespace ReferenceMatcher

theorem makeReport_eq {st : OrderState} (nonneg : 0 ≤ st.filledNotionalTicks) (execType : ExecType)
    (n price ts : Int) (reason : RejectReason) :
    makeReport st execType n price ts reason =
      Asterion.makeReport st execType n price ts reason := by
  have havg : averagePriceTicks st = Asterion.averagePriceTicks st := by
    unfold averagePriceTicks Asterion.averagePriceTicks
    split
    · rfl
    · exact Int.fdiv_eq_tdiv_of_nonneg nonneg (by omega)
  have hclosed : (st.status ∈ [OrderStatus.canceled, .filled, .rejected]) ↔
      (st.status = .canceled ∨ st.status = .filled ∨ st.status = .rejected) := by simp
  unfold makeReport Asterion.makeReport
  simp only [hclosed, havg]
  rfl

theorem fill_eq (st : OrderState) (n p : Int) : fill st n p = st.fill n p := rfl

/-- The matcher and its answer so far stand for an exchange and an answer. -/
structure Answering.Follows (w : Answering) (x : Exchange) (reports : List ExecutionReport) :
    Prop where
  mirrors : w.matcher.Mirrors x
  answer : w.reports = reports

section Loop
variable {w : Answering} {x : Exchange} {rs : List ExecutionReport} {i : Nat} {wanted ts : Int}
  {o : Order}

theorem matchIteration_eq (ts : Int) (h : w.Follows x rs) (c : x.Consistent (some (i, wanted)))
    (ho : o ∈ x.facing i) (pos : 0 < wanted) :
    ∃ w', matchIteration w i o.orderId wanted ts = (w', wanted - min wanted o.quantity) ∧
      w'.Follows (x.trade i ts (o, min wanted o.quantity)).1
        (rs ++ (x.trade i ts (o, min wanted o.quantity)).2) := by
  have hqty := c.quantity_pos ho
  have hne : o.orderId ≠ i := (c.inHand i wanted rfl).absent _ o ho
  obtain ⟨hst, hrest, _⟩ := c.stateAt_order ho
  obtain ⟨n, hn⟩ : ∃ n, n = min wanted o.quantity := ⟨_, rfl⟩
  have hprice : (x.stateAt o.orderId).limitPriceTicks = o.priceTicks :=
    (congrArg Order.priceTicks hrest).symm
  have hopen : o.quantity = (x.stateAt o.orderId).originalQuantity -
      (x.stateAt o.orderId).filledQuantity := congrArg Order.quantity hrest
  have hpositive : 0 < o.priceTicks := by
    have hv := (c.filed _ o ho).2.1
    simp only [isValidRestingOrder, Bool.and_eq_true, decide_eq_true_eq] at hv
    exact hv.1.2
  have hnotional : ∀ id, 0 ≤ ((x.stateAt id).fill n o.priceTicks).filledNotionalTicks := by
    intro id
    have hold := h.mirrors.notional id
    have hnew : 0 ≤ n * o.priceTicks := Int.mul_nonneg (by omega) hpositive.le
    rw [fill_notional]
    omega
  obtain ⟨x₁, hx₁⟩ : ∃ x₁, x₁ = x.setState o.orderId
      ((x.stateAt o.orderId).fill n o.priceTicks) := ⟨_, rfl⟩
  have hi : x₁.stateAt i = x.stateAt i := by
    rw [hx₁]
    exact stateAt_setState_other x _ hne.symm
  obtain ⟨x₂, hx₂⟩ : ∃ x₂, x₂ = x₁.setState i ((x₁.stateAt i).fill n o.priceTicks) := ⟨_, rfl⟩
  obtain ⟨m₁, hm₁⟩ : ∃ m₁, m₁ = w.matcher.setState o.orderId
      ((x.stateAt o.orderId).fill n o.priceTicks) := ⟨_, rfl⟩
  obtain ⟨m₂, hm₂⟩ : ∃ m₂, m₂ = m₁.setState i ((x₁.stateAt i).fill n o.priceTicks) := ⟨_, rfl⟩
  have h₁ : m₁.Mirrors x₁ := by
    rw [hm₁, hx₁]
    exact h.mirrors.setState _ _ (hnotional _)
  have h₂ : m₂.Mirrors x₂ := by
    rw [hm₂, hx₂]
    exact h₁.setState _ _ (by rw [hi]; exact hnotional _)
  have hresting : x₂.stateAt o.orderId = (x.stateAt o.orderId).fill n o.priceTicks := by
    rw [hx₂, stateAt_setState_other x₁ _ hne, hx₁, stateAt_setState_same]
  have hreports : (x.trade i ts (o, n)).2 =
      [makeReport (m₂.stateAt o.orderId) .trade n o.priceTicks ts .none,
        makeReport (m₂.stateAt i) .trade n o.priceTicks ts .none] := by
    rw [makeReport_eq (by rw [h₂.stateAt]; exact h₂.notional _),
      makeReport_eq (by rw [h₂.stateAt]; exact h₂.notional _), h₂.stateAt, h₂.stateAt, hx₂, hx₁]
    rfl
  have htrade : (x.trade i ts (o, n)).1 =
      { x₂ with queue := fun s => consume (o, n) (x.queue s) } := by
    rw [hx₂, hx₁]
    rfl
  have hqueue : x₂.queue = x.queue := by
    rw [hx₂, hx₁]
    rfl
  have hremaining : remaining (m₂.stateAt o.orderId) = 0 ↔ ¬ n < o.quantity := by
    rw [h₂.stateAt, hresting]
    unfold remaining
    simp only [fill_original, fill_filled]
    split_ifs <;> omega
  rw [← hn]
  refine ⟨⟨if remaining (m₂.stateAt o.orderId) = 0 then m₂.removeFromBook (m₂.stateAt o.orderId)
    else m₂, rs ++ (x.trade i ts (o, n)).2⟩, ?_, ?_, rfl⟩
  · have hi' : m₁.stateAt i = x₁.stateAt i := h₁.stateAt i
    have hrem : remaining (x.stateAt o.orderId) = o.quantity := by
      rw [← h.mirrors.stateAt]
      exact h.mirrors.remaining_eq c ho
    unfold matchIteration
    simp only [h.mirrors.stateAt, hrem, hprice, ← hn, fill_eq, ← hm₁, hi', ← hm₂, h.answer,
      hreports]
  · rw [htrade]
    by_cases part : n < o.quantity
    · rw [if_neg (fun hz => hremaining.mp hz part)]
      have hshrink := h₂.shrink o.orderId n
      rw [hqueue] at hshrink
      have hconsume : (fun s => consume (o, n) (x.queue s)) =
          fun s => shrink o.orderId n (x.queue s) := funext fun s => if_pos part
      rw [hconsume]
      exact hshrink
    · rw [if_pos (hremaining.mpr part), h₂.stateAt, hresting]
      have ho₂ : o ∈ x₂.queue (opposite (x.stateAt i).side) := by
        rw [hqueue]
        exact ho
      have hside : (x.stateAt o.orderId).side = opposite (x.stateAt i).side := by
        rw [← (c.filed _ o ho).1]
        exact (congrArg Order.side hrest).symm
      have own : ((x.stateAt o.orderId).fill n o.priceTicks).exchangeOrderId = o.orderId :=
        (c.knownAt hst).own
      have hremove := h₂.removeFromBook c hqueue ho₂ own hside hprice
      rw [hqueue] at hremove
      have hconsume : (fun s => consume (o, n) (x.queue s)) =
          fun s => dequeue o.orderId (x.queue s) := funext fun s => if_neg part
      rw [hconsume]
      exact hremove

theorem Answering.Follows.stop (h : w.Follows x rs) (hs : x.sweep i wanted = []) :
    w.Follows (x.trades i ts (x.sweep i wanted)).1
      (rs ++ (x.trades i ts (x.sweep i wanted)).2) := by
  rw [hs]
  simpa [trades] using h

/-- The matching loop makes the fills of the sweep, and needs no more iterations than it is
given. -/
theorem matchLoop_eq (ts : Int) (fuel : Nat) (h : w.Follows x rs)
    (c : x.Consistent (some (i, wanted))) (enough : wanted.toNat ≤ fuel) :
    ∃ w', matchLoop i ts fuel w wanted = (w', wanted - Sweep.total (x.sweep i wanted)) ∧
      w'.Follows (x.trades i ts (x.sweep i wanted)).1
        (rs ++ (x.trades i ts (x.sweep i wanted)).2) := by
  induction fuel generalizing w x wanted rs with
  | zero =>
    have hs : x.sweep i wanted = [] := sweep_stop (Or.inl (by omega))
    refine ⟨w, ?_, h.stop hs⟩
    rw [hs, Sweep.total_nil, sub_zero]
    rfl
  | succ fuel ih =>
    have hvalid : isValidSide (x.stateAt i).side = true :=
      (c.knownAt (c.inHand i wanted rfl).stored).side
    have hcross : w.matcher.crosses (x.stateAt i).side (x.stateAt i).orderType
        (x.stateAt i).limitPriceTicks =
        (x.facing i).head?.any (fun o => acceptable (x.stateAt i) o) :=
      h.mirrors.crosses_eq c _ _ _
    have hbest : w.matcher.bestOpposingOrder (x.stateAt i).side =
        (x.facing i).head?.map (·.orderId) := h.mirrors.bestOpposingOrder_eq c hvalid
    unfold matchLoop
    simp only [h.mirrors.stateAt, hcross, hbest]
    by_cases hgo : 0 < wanted ∧ ∃ o, (x.facing i).head? = some o ∧ acceptable (x.stateAt i) o = true
    · obtain ⟨pos, o, head, accept⟩ := hgo
      obtain ⟨q, hq⟩ : ∃ q, x.facing i = o :: q := by
        cases hf : x.facing i with
        | nil => rw [hf] at head; cases head
        | cons a q => rw [hf] at head; cases head; exact ⟨q, rfl⟩
      have ho : o ∈ x.facing i := List.mem_of_head? head
      have hqty := c.quantity_pos ho
      obtain ⟨w', hw', h'⟩ := matchIteration_eq ts h c ho pos
      have c' : (x.trade i ts (o, min wanted o.quantity)).1.Consistent
          (some (i, wanted - min wanted o.quantity)) :=
        c.trade ho (by omega) (by omega) (by omega)
      have hs := c.sweep_cons hq accept pos ts
      obtain ⟨w'', hw'', h''⟩ := ih h' c' (by omega)
      refine ⟨w'', ?_, ?_⟩
      · rw [if_pos (by simp [pos, head, accept]), head]
        simp only [Option.map_some, hw', hw'', hs, Sweep.total_cons, sub_sub]
      · rw [hs]
        rw [List.append_assoc] at h''
        exact h''
    · have hs : x.sweep i wanted = [] := by
        refine sweep_stop ?_
        by_cases pos : 0 < wanted
        · refine Or.inr fun o ho => ?_
          by_contra hne
          exact hgo ⟨pos, o, ho, Bool.not_eq_false _ ▸ hne⟩
        · exact Or.inl (not_lt.mp pos)
      refine ⟨w, ?_, h.stop hs⟩
      rw [if_neg, hs, Sweep.total_nil, sub_zero]
      intro hcond
      simp only [Bool.and_eq_true, decide_eq_true_eq, Option.any_eq_true] at hcond
      exact hgo ⟨hcond.1, hcond.2⟩

end Loop

section Requests
variable {w : Answering} {x : Exchange} {rs : List ExecutionReport} {i : Nat} {wanted ts : Int}

theorem close_eq (h : w.Follows x rs) (id : Nat) (status : OrderStatus) (execType : ExecType)
    (ts : Int) (reason : RejectReason) :
    ∃ m, m = w.matcher.setState id { x.stateAt id with status } ∧
      Answering.Follows ⟨m, w.reports ++ [makeReport (m.stateAt id) execType 0 0 ts reason]⟩
        (x.close id status execType ts reason).1
        (rs ++ (x.close id status execType ts reason).2) := by
  have h₁ := h.mirrors.setState id { x.stateAt id with status } (h.mirrors.notional id)
  refine ⟨_, rfl, h₁, ?_⟩
  rw [makeReport_eq (by rw [h₁.stateAt]; exact h₁.notional id), h₁.stateAt]
  exact congrArg (· ++ _) h.answer

theorem restAfterMatching_eq {w' : Answering} (c : x.Consistent (some (i, wanted)))
    (symbol : x.symbolId ≠ invalidSymbolId)
    (h : w'.Follows (x.trades i ts (x.sweep i wanted)).1
      (rs ++ (x.trades i ts (x.sweep i wanted)).2))
    (short : 0 < wanted - Sweep.total (x.sweep i wanted))
    {tweak : Prop} [Decidable tweak] (traded : tweak →
      (w'.matcher.stateAt i).filledQuantity > 0 ∧ (w'.matcher.stateAt i).status ≠ .replaced)
    {m : ReferenceMatcher} (hm : m = if tweak then
        w'.matcher.setState i { w'.matcher.stateAt i with status := .partiallyFilled }
      else w'.matcher) :
    Answering.Follows { w' with matcher := m.restLimitOrder (m.stateAt i) }
      (x.execute i wanted true ts).1 (rs ++ (x.execute i wanted true ts).2) := by
  have mat := c.matched ts
  have c' := consistent_of_trace (mat.trace (.cancel {})) c
  have hand := c'.inHand i _ rfl
  have hm' : m.Mirrors (x.trades i ts (x.sweep i wanted)).1 := by
    rw [hm]
    split
    · rename_i ht
      obtain ⟨hfilled, hrep⟩ := traded ht
      rw [h.mirrors.stateAt] at hfilled hrep
      have hpart := c'.partly_filled short hfilled hrep
      have hset := h.mirrors.setState i (w'.matcher.stateAt i)
        (by rw [h.mirrors.stateAt]; exact h.mirrors.notional i)
      rw [h.mirrors.stateAt, setState_eq_self hand.stored] at hset
      rw [h.mirrors.stateAt, ← hpart]
      exact hset
    · exact h.mirrors
  have hsym : (x.trades i ts (x.sweep i wanted)).1.symbolId ≠ invalidSymbolId := by
    rw [mat.symbol]
    exact symbol
  have hsilent : ((x.trades i ts (x.sweep i wanted)).1.rest i ts).2 = [] := by
    unfold Exchange.rest
    rw [if_neg hsym]
  refine ⟨?_, ?_⟩
  · unfold execute
    simp only [if_pos short, if_true]
    exact hm'.restLimitOrder c' hsym ts
  · unfold execute
    simp only [if_pos short, if_true, hsilent, List.append_nil]
    exact h.answer

theorem finishSubmit_eq {w' : Answering} {request : NewOrderRequest}
    (c : x.Consistent (some (i, wanted))) (symbol : x.symbolId ≠ invalidSymbolId)
    (h : w'.Follows (x.trades i request.timestampNs (x.sweep i wanted)).1
      (rs ++ (x.trades i request.timestampNs (x.sweep i wanted)).2))
    (fresh : (x.stateAt i).status ≠ .replaced) :
    (finishSubmit w' request i (wanted - Sweep.total (x.sweep i wanted))).Follows
      (x.execute i wanted (decide (request.orderType = .limit ∧ request.timeInForce = .gtc))
        request.timestampNs).1
      (rs ++ (x.execute i wanted (decide (request.orderType = .limit ∧ request.timeInForce = .gtc))
        request.timestampNs).2) := by
  have hnot : (w'.matcher.stateAt i).status ≠ .replaced := by
    rw [h.mirrors.stateAt, (c.matched request.timestampNs).incoming]
    exact fun hrep => fresh (MatchingEngine.fold_fill_status _ _ hrep)
  unfold finishSubmit
  by_cases short : wanted - Sweep.total (x.sweep i wanted) > 0
  · by_cases hrests : request.orderType = .limit ∧ request.timeInForce = .gtc
    · rw [if_pos ⟨short, hrests⟩, decide_eq_true hrests]
      exact restAfterMatching_eq c symbol h short (fun hf => ⟨hf, hnot⟩) rfl
    · rw [if_neg (fun hc => hrests hc.2), if_pos short, decide_eq_false hrests]
      obtain ⟨m, hm, hclose⟩ := close_eq h i .canceled .canceled request.timestampNs .none
      unfold execute
      simp only [if_pos short, Bool.false_eq_true, if_false, h.mirrors.stateAt, ← hm]
      rw [List.append_assoc] at hclose
      exact hclose
  · rw [if_neg (fun hc => short hc.1), if_neg short]
    unfold execute
    simp only [if_neg short, List.append_nil]
    exact h

theorem finishReplace_eq {w' : Answering} (c : x.Consistent (some (i, wanted)))
    (symbol : x.symbolId ≠ invalidSymbolId)
    (h : w'.Follows (x.trades i ts (x.sweep i wanted)).1
      (rs ++ (x.trades i ts (x.sweep i wanted)).2)) :
    (finishReplace w' i (wanted - Sweep.total (x.sweep i wanted))).Follows
      (x.execute i wanted true ts).1 (rs ++ (x.execute i wanted true ts).2) := by
  unfold finishReplace
  by_cases short : wanted - Sweep.total (x.sweep i wanted) > 0
  · rw [if_pos short]
    exact restAfterMatching_eq c symbol h short id rfl
  · rw [if_neg short]
    unfold execute
    simp only [if_neg short, List.append_nil]
    exact h

end Requests

section Serve
variable {m : ReferenceMatcher} {x : Exchange} (h : m.Mirrors x) (c : x.Consistent none)
  (symbol : x.symbolId ≠ invalidSymbolId)
include h c

omit c in
theorem emplaceOrder_mirrors (request : NewOrderRequest) :
    (m.emplaceOrder request).Mirrors (x.enlist request).1 := by
  have hstate := h.setState x.nextExchangeOrderId (x.accepted request) le_rfl
  have hsame : (m.emplaceOrder request).states =
      (m.setState x.nextExchangeOrderId (x.accepted request)).states := by
    unfold emplaceOrder ReferenceMatcher.setState
    simp only [h.next]
    rfl
  exact
    { symbol := h.symbol
      next := congrArg (· + 1) h.next
      seen := h.seen
      state := fun id => (congrArg (AList.lookup id) hsame).trans (hstate.state id)
      notional := hstate.notional
      ids := h.ids
      nonempty := h.nonempty
      inBook := h.inBook }

include symbol

theorem acceptOrder_eq {request : NewOrderRequest} (ok : x.malformed request = none)
    (good : x.inadmissible request = none) :
    (m.acceptOrder request).Follows (x.accept request).1 (x.accept request).2 := by
  have c₁ := c.enlist ok (c.apart_of_admissible good)
  have h₁ := emplaceOrder_mirrors h request
  have hself : (x.enlist request).1.stateAt x.nextExchangeOrderId = x.accepted request :=
    stateAt_setState_same x _ _
  have hreport : (x.enlist request).2 =
      [makeReport ((m.emplaceOrder request).stateAt x.nextExchangeOrderId) .new 0 0
        request.timestampNs .none] := by
    rw [makeReport_eq (by rw [h₁.stateAt]; exact h₁.notional _), h₁.stateAt, hself]
    rfl
  obtain ⟨w', hw', h'⟩ := matchLoop_eq request.timestampNs request.quantity.toNat
    (w := ⟨m.emplaceOrder request, (x.enlist request).2⟩) ⟨h₁, rfl⟩ c₁ le_rfl
  have hfinish := finishSubmit_eq c₁ symbol h' (by rw [hself]; exact fun h => by cases h)
  unfold acceptOrder matchAgainstBook
  simp only [h.next, ← hreport, hw']
  exact hfinish

theorem reworkOrder_eq {request : ReplaceOrderRequest} {s : Side} {o : Order}
    (ho : o ∈ x.queue s) (hid : o.orderId = request.exchangeOrderId)
    (hqty : 0 < request.newQuantity) (hprice : 0 < request.newPriceTicks)
    (apart : x.selfTrade (x.stateAt o.orderId).side (x.stateAt o.orderId).orderType
      request.newPriceTicks (x.stateAt o.orderId).clientId = false) :
    (m.reworkOrder request).Follows (x.rework request).1 (x.rework request).2 := by
  have c₁ := c.reopen request ho hid hqty hprice apart
  rw [hid] at c₁
  obtain ⟨hst, hrest, _⟩ := c.stateAt_order ho
  have hside : (x.stateAt o.orderId).side = s := by
    rw [← (c.filed _ o ho).1]
    exact (congrArg Order.side hrest).symm
  have hlimit : (x.stateAt o.orderId).limitPriceTicks = o.priceTicks :=
    (congrArg Order.priceTicks hrest).symm
  have h₀ := h.removeFromBook c rfl ho (c.knownAt hst).own hside hlimit
  rw [hid] at h₀
  obtain ⟨m₀, hm₀⟩ : ∃ m₀, m₀ = m.removeFromBook (x.stateAt request.exchangeOrderId) := ⟨_, rfl⟩
  rw [← hm₀] at h₀
  obtain ⟨st, hstdef⟩ : ∃ st : OrderState, st = { x.stateAt request.exchangeOrderId with
      limitPriceTicks := request.newPriceTicks
      originalQuantity := (x.stateAt request.exchangeOrderId).filledQuantity + request.newQuantity
      status := .replaced
      timestampNs := request.timestampNs } := ⟨_, rfl⟩
  have hstate : m₀.stateAt request.exchangeOrderId = x.stateAt request.exchangeOrderId :=
    h₀.stateAt _
  have h₁ := h₀.setState request.exchangeOrderId st (by rw [hstdef]; exact h.notional _)
  have hreopen : ({ x with queue := fun s => dequeue request.exchangeOrderId (x.queue s) } :
      Exchange).setState request.exchangeOrderId st = (x.reopen request).1 := by
    rw [hstdef]
    rfl
  rw [hreopen] at h₁
  have hself : (x.reopen request).1.stateAt request.exchangeOrderId = st := by
    rw [← hreopen, stateAt_setState_same]
  have hreport : (x.reopen request).2 =
      [makeReport ((m₀.setState request.exchangeOrderId st).stateAt request.exchangeOrderId)
        .replaced 0 0 request.timestampNs .none] := by
    rw [makeReport_eq (by rw [h₁.stateAt]; exact h₁.notional _), h₁.stateAt, hself, hstdef]
    rfl
  obtain ⟨w', hw', h'⟩ := matchLoop_eq request.timestampNs request.newQuantity.toNat
    (w := ⟨m₀.setState request.exchangeOrderId st, (x.reopen request).2⟩) ⟨h₁, rfl⟩ c₁ le_rfl
  have hfinish := finishReplace_eq c₁ symbol h'
  unfold reworkOrder matchAgainstBook
  simp only [h.stateAt, ← hm₀, hstate, ← hstdef, ← hreport, hw']
  exact hfinish

omit c symbol in
theorem reserveClientOrderId_eq (id : Nat) :
    m.reserveClientOrderId id = if x.reusedId id then none
      else some { m with seenClientOrderIds := insert id m.seenClientOrderIds } := by
  unfold reserveClientOrderId reusedId
  rw [h.seen]
  by_cases hid : id = invalidClientOrderId
  · simp [hid]
  · simp [hid]

omit c symbol in
theorem reserve_mirrors (id : Nat) :
    ({ m with seenClientOrderIds := insert id m.seenClientOrderIds } : ReferenceMatcher).Mirrors
      (x.reserve id) :=
  { h with seen := congrArg (insert id) h.seen }

omit c symbol in
theorem refuse_eq (clientOrderId symbolId : Nat) (side : Side) (ts : Int) (reason : RejectReason) :
    Answering.Follows ⟨m, [reject clientOrderId symbolId side ts reason]⟩ x
      [makeReject clientOrderId symbolId side ts reason] := ⟨h, rfl⟩

theorem submitOrder_eq (request : NewOrderRequest) :
    (m.submitOrder request).Follows (x.submit request).1 (x.submit request).2 := by
  have htype : request.orderType ∉ [OrderType.limit, .market] ↔
      request.orderType ≠ .limit ∧ request.orderType ≠ .market := by simp
  have htif : request.timeInForce ∉ [TimeInForce.gtc, .ioc, .fok] ↔
      request.timeInForce ≠ .gtc ∧ request.timeInForce ≠ .ioc ∧ request.timeInForce ≠ .fok := by
    simp
  unfold submitOrder Exchange.submit
  simp only [htype, htif, h.symbol]
  rw [← elim_malformed x request _ (fun reason => (⟨m, [reject request.clientOrderId
    request.symbolId request.side request.timestampNs reason]⟩ : Answering))]
  cases hmal : x.malformed request with
  | some reason => exact refuse_eq h _ _ _ _ _
  | none =>
    obtain ⟨-, hvalid, hpos, -⟩ := malformed_eq_none hmal
    rw [Option.elim_none, reserveClientOrderId_eq h]
    simp only
    by_cases hseen : x.reusedId request.clientOrderId = true
    · rw [if_pos hseen, if_pos hseen]
      exact refuse_eq h _ _ _ _ _
    rw [if_neg hseen, if_neg hseen]
    have h₁ := reserve_mirrors h request.clientOrderId
    have c₁ := c.reserve request.clientOrderId
    have hmal₁ : (x.reserve request.clientOrderId).malformed request = none := hmal
    obtain ⟨y, hy⟩ : ∃ y, y = x.reserve request.clientOrderId := ⟨_, rfl⟩
    have symbol₁ : y.symbolId ≠ invalidSymbolId := by rw [hy]; exact symbol
    rw [← hy] at h₁ c₁ hmal₁ ⊢
    simp only
    have hpositive : ∀ o ∈ y.queue (opposite request.side), o.orderId ≠ invalidOrderId := by
      intro o ho
      exact (c₁.knownAt (c₁.stateAt_order ho).1).positive.ne'
    rw [h₁.crosses_eq c₁, h₁.wouldSelfTrade_eq c₁ _ _ _ _ _ hpositive,
      h₁.canFullyFill_eq c₁ hpos hvalid, ← elim_inadmissible y request _
        (fun reason => (⟨_, [reject request.clientOrderId request.symbolId request.side
          request.timestampNs reason]⟩ : Answering))]
    cases hinad : y.inadmissible request with
    | some reason => exact refuse_eq h₁ _ _ _ _ _
    | none => exact acceptOrder_eq h₁ c₁ symbol₁ hmal₁ hinad

omit symbol in
theorem cancelOrder_eq (request : CancelOrderRequest) :
    (m.cancelOrder request).Follows (x.cancel request).1 (x.cancel request).2 := by
  unfold cancelOrder Exchange.cancel
  simp only [h.symbol]
  rw [reserveClientOrderId_eq h]
  by_cases hseen : x.reusedId request.clientOrderId = true
  · rw [if_pos hseen, if_pos hseen]
    exact refuse_eq h _ _ _ _ _
  rw [if_neg hseen, if_neg hseen]
  have h₁ := reserve_mirrors h request.clientOrderId
  have c₁ := c.reserve request.clientOrderId
  obtain ⟨m₁, hm₁⟩ : ∃ m₁ : ReferenceMatcher, m₁ = { m with
      seenClientOrderIds := insert request.clientOrderId m.seenClientOrderIds } := ⟨_, rfl⟩
  obtain ⟨y, hy⟩ : ∃ y, y = x.reserve request.clientOrderId := ⟨_, rfl⟩
  rw [← hm₁, ← hy] at h₁
  rw [← hy] at c₁ ⊢
  simp only [← hm₁]
  rw [h₁.isKnown_eq c₁]
  by_cases hrest : y.isResting request.exchangeOrderId = true
  · rw [if_neg (by simp [hrest]), if_pos hrest]
    obtain ⟨s, o, ho, hid⟩ := c₁.isResting_iff.mp hrest
    obtain ⟨hst, hstate, _⟩ := c₁.stateAt_order ho
    have hside : (y.stateAt o.orderId).side = s := by
      rw [← (c₁.filed _ o ho).1]
      exact (congrArg Order.side hstate).symm
    have h₂ := h₁.removeFromBook c₁ rfl ho (c₁.knownAt hst).own hside
      (congrArg Order.priceTicks hstate).symm
    rw [hid] at h₂
    obtain ⟨m₂, hm₂⟩ : ∃ m₂, m₂ = m₁.removeFromBook (y.stateAt request.exchangeOrderId) := ⟨_, rfl⟩
    rw [← hm₂] at h₂
    have hstate₂ : m₂.stateAt request.exchangeOrderId = y.stateAt request.exchangeOrderId :=
      h₂.stateAt _
    obtain ⟨m₃, hm₃, hclose⟩ := close_eq (w := ⟨m₂, []⟩) ⟨h₂, rfl⟩ request.exchangeOrderId
      .canceled .canceled request.timestampNs .none
    simp only [h₁.stateAt, ← hm₂, hstate₂]
    rw [hm₃] at hclose
    exact hclose
  · rw [if_pos (by simp [hrest]), if_neg hrest]
    exact ⟨h₁, by rw [h.symbol]; rfl⟩

theorem replaceOrder_eq (request : ReplaceOrderRequest) :
    (m.replaceOrder request).Follows (x.replace request).1 (x.replace request).2 := by
  unfold replaceOrder Exchange.replace
  simp only [h.symbol]
  by_cases hqty : request.newQuantity ≤ 0
  · rw [if_pos hqty, if_pos hqty]
    exact refuse_eq h _ _ _ _ _
  rw [if_neg hqty, if_neg hqty]
  by_cases hprice : request.newPriceTicks ≤ 0
  · rw [if_pos hprice, if_pos hprice]
    exact refuse_eq h _ _ _ _ _
  rw [if_neg hprice, if_neg hprice, reserveClientOrderId_eq h]
  by_cases hseen : x.reusedId request.clientOrderId = true
  · rw [if_pos hseen, if_pos hseen]
    exact refuse_eq h _ _ _ _ _
  rw [if_neg hseen, if_neg hseen]
  have h₁ := reserve_mirrors h request.clientOrderId
  have c₁ := c.reserve request.clientOrderId
  obtain ⟨m₁, hm₁⟩ : ∃ m₁ : ReferenceMatcher, m₁ = { m with
      seenClientOrderIds := insert request.clientOrderId m.seenClientOrderIds } := ⟨_, rfl⟩
  obtain ⟨y, hy⟩ : ∃ y, y = x.reserve request.clientOrderId := ⟨_, rfl⟩
  have symbol₁ : y.symbolId ≠ invalidSymbolId := by rw [hy]; exact symbol
  rw [← hm₁, ← hy] at h₁
  rw [← hy] at c₁ ⊢
  simp only [← hm₁]
  rw [h₁.isKnown_eq c₁]
  by_cases hrest : y.isResting request.exchangeOrderId = true
  · rw [if_neg (by simp [hrest]), if_pos hrest]
    obtain ⟨s, o, ho, hid⟩ := c₁.isResting_iff.mp hrest
    have helse : ∀ z ∈ y.queue (opposite (y.stateAt request.exchangeOrderId).side),
        z.orderId ≠ (y.stateAt request.exchangeOrderId).exchangeOrderId := by
      rw [← hid, c₁.own_id ho]
      exact c₁.opposite_apart ho
    rw [h₁.stateAt, h₁.wouldSelfTrade_eq c₁ _ _ _ _ _ helse]
    by_cases hself : y.selfTrade (y.stateAt request.exchangeOrderId).side
        (y.stateAt request.exchangeOrderId).orderType request.newPriceTicks
        (y.stateAt request.exchangeOrderId).clientId = true
    · rw [if_pos hself, if_pos hself]
      exact ⟨h₁, by rw [h.symbol]; rfl⟩
    · rw [if_neg hself, if_neg hself]
      refine reworkOrder_eq h₁ c₁ symbol₁ ho hid (not_le.mp hqty) (not_le.mp hprice) ?_
      rw [hid]
      exact Bool.eq_false_iff.mpr hself
  · rw [if_pos (by simp [hrest]), if_neg hrest]
    exact ⟨h₁, by rw [h.symbol]; rfl⟩

theorem serve_eq (request : Request) :
    (m.serve request).Follows (x.serve request).1 (x.serve request).2 := by
  cases request with
  | submit request => exact submitOrder_eq h c symbol request
  | cancel request => exact cancelOrder_eq h c request
  | replace request => exact replaceOrder_eq h c symbol request

end Serve
/-- What holds between the matcher and an exchange between requests. -/
theorem run_eq {m : ReferenceMatcher} {x : Exchange} (h : m.Mirrors x) (c : x.Consistent none)
    (symbol : x.symbolId ≠ invalidSymbolId) (requests : List Request) :
    (m.run requests).matcher.Mirrors (x.run requests).1 := by
  induction requests generalizing m x with
  | nil => exact h
  | cons request requests ih =>
    have hsym : (x.serve request).1.symbolId = x.symbolId :=
      symbolId_of_trace (c.serve_trace request)
    exact ih (serve_eq h c symbol request).mirrors (c.serve request) (hsym ▸ symbol)

end ReferenceMatcher

section CrossCheck

def levelPairs (levels : List L2Level) : List (Int × Int) :=
  levels.map (fun level => (level.priceTicks, level.quantity))

def MatchingEngine.openOrders (e : MatchingEngine) : List (Nat × Side × Int × Int) :=
  e.book.resting.map (fun o => (o.orderId, o.side, o.priceTicks, o.quantity))

theorem OrderBook.l2_of_keys {b : OrderBook} (wf : b.WF) (s : Side) {ks : List Int}
    (sorted : ks.Pairwise (before s)) (mem : ∀ p, p ∈ ks ↔ ∃ o ∈ b.queue s, o.priceTicks = p) :
    (b.levels s).map (fun e => (e.1, e.2.totalQuantity)) =
      (shelve Order.priceTicks ks (b.queue s)).map
        (fun e => (e.1, (e.2.map (·.quantity)).sum)) := by
  have hkeys : (b.levels s).map Prod.fst = ks := by
    refine SortedMap.keys_unique (List.pairwise_map.mpr (b.levels_sorted s)) sorted ?_
    intro p
    rw [mem, List.mem_map]
    constructor
    · rintro ⟨e, he, rfl⟩
      obtain ⟨o, ho⟩ := List.exists_mem_of_ne_nil _ (wf.levels s e he).nonempty
      exact ⟨o, mem_flat.mpr ⟨e, he, ho⟩, ((wf.levels s e he).filed o ho).2⟩
    · rintro ⟨o, ho, rfl⟩
      obtain ⟨v, hv, _⟩ := key_of_mem_flat (filed wf s) ho
      exact ⟨_, hv, rfl⟩
  rw [← hkeys]
  unfold shelve
  rw [List.map_map, List.map_map]
  apply List.map_congr_left
  intro e he
  have hl := wf.levels s e he
  have hshelf : (b.queue s).filter (fun o => o.priceTicks = e.1) = e.2.orders := by
    have hfind := flat_filter_key (r := before s) (b.levels_sorted s) (filed wf s) (k := e.1)
    refine hfind.trans ?_
    have hsome : (⟨b.levels s, b.levels_sorted s⟩ : SortedMap (before s) PriceLevel).find? e.1 =
        some e.2 := (SortedMap.find?_eq_some _).mpr he
    rw [hsome]
    rfl
  simp only [Function.comp, hshelf]
  rw [hl.total]

/-- The two show the same book. -/
structure SameBook (e : MatchingEngine) (m : ReferenceMatcher) : Prop where
  bids : ∀ depth ≥ e.book.orderCount, levelPairs (e.book.l2View depth).bids = m.l2Levels.1
  asks : ∀ depth ≥ e.book.orderCount, levelPairs (e.book.l2View depth).asks = m.l2Levels.2
  openOrders : e.openOrders = m.openOrders

theorem sameBook_of_mirrors {e : MatchingEngine} {m : ReferenceMatcher} (sound : e.Sound)
    (h : m.Mirrors e.view) : SameBook e m := by
  have hlevels : ∀ s, isValidSide s = true → ∀ depth ≥ e.book.orderCount,
      levelPairs (OrderBook.l2Levels (e.book.levels s) depth) = m.l2Side s := by
    intro s hs depth hdepth
    have hall := (MatchingEngine.levels_length_le sound.wf s).trans hdepth
    rw [h.l2Side_eq sound.consistent hs, OrderBook.l2Levels, List.take_of_length_le hall, levelPairs,
      List.map_map]
    exact OrderBook.l2_of_keys sound.wf s (m.sortedPrices_sorted hs)
      (fun p => h.mem_sortedPrices hs)
  refine ⟨hlevels .buy rfl, hlevels .sell rfl, ?_⟩
  unfold MatchingEngine.openOrders OrderBook.resting ReferenceMatcher.openOrders
  rw [List.map_append, h.openSide_eq sound.consistent rfl, h.openSide_eq sound.consistent rfl]
  rfl

/-- The engine and the reference matcher, from empty state, answer every request of every run
with the same reports, and show the same levels and open orders after it. -/
theorem cross_check (symbolId : Nat) (symbol : symbolId ≠ invalidSymbolId)
    (requests : List Request) (request : Request) :
    let e := ((MatchingEngine.new symbolId).run requests).engine
    let m := ((ReferenceMatcher.new symbolId).run requests).matcher
    (m.serve request).reports = (e.serve request).reports ∧
      SameBook e m ∧ SameBook (e.serve request).engine (m.serve request).matcher := by
  intro e m
  have s := MatchingEngine.new_sound symbolId
  have sound : e.Sound := s.run requests
  have hview : e.view = ((Exchange.new symbolId).run requests).1 := by
    rw [← MatchingEngine.new_view]
    exact (s.run_view requests).1
  have hm : m.Mirrors e.view := by
    rw [hview]
    exact ReferenceMatcher.run_eq (ReferenceMatcher.new_mirrors symbolId)
      (new_consistent symbolId) symbol requests
  have hsym : e.view.symbolId ≠ invalidSymbolId := by
    rw [hview, (new_consistent symbolId).run_symbolId]
    exact symbol
  have hserve := ReferenceMatcher.serve_eq hm sound.consistent hsym request
  refine ⟨?_, sameBook_of_mirrors sound hm, ?_⟩
  · rw [hserve.answer, sound.serve_reports]
  · refine sameBook_of_mirrors (sound.serve request) ?_
    rw [sound.serve_view]
    exact hserve.mirrors

/-- A bid is traded against twice, below its price. -/
theorem cross_check_crossing_asks :
    let bid : NewOrderRequest :=
      { clientOrderId := 1, symbolId := 1, side := .buy, priceTicks := 100, quantity := 5 }
    let ask : NewOrderRequest :=
      { clientOrderId := 2, symbolId := 1, side := .sell, priceTicks := 99, quantity := 3 }
    let next := { ask with clientOrderId := 3 }
    let e := ((MatchingEngine.new 1).run [.submit bid, .submit ask]).engine
    let m := ((ReferenceMatcher.new 1).run [.submit bid, .submit ask]).matcher
    (e.serve (.submit next)).reports.map (fun r => (r.clientOrderId, r.lastFillQuantity)) =
        [(3, 0), (1, 2), (3, 2)] ∧
      (m.serve (.submit next)).reports = (e.serve (.submit next)).reports ∧
      SameBook e m ∧ SameBook (e.serve (.submit next)).engine (m.serve (.submit next)).matcher := by
  intro bid ask next e m
  exact ⟨by decide, cross_check 1 (by decide) [.submit bid, .submit ask] (.submit next)⟩

end CrossCheck
end Asterion
