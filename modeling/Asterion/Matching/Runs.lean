import Asterion.Matching.Steps

/-! Serving any request in a consistent exchange, and any sequence of requests, is a trace
of small steps. The matching loop is followed along the opposite queue. -/
namespace Asterion

open Lib
open MatchingEngine (Request executable)

theorem consume_head {o : Order} {n : Int} {q : List Order}
    (ids : ((o :: q).map (·.orderId)).Nodup) :
    consume (o, n) (o :: q) =
      if n < o.quantity then { o with quantity := o.quantity - n } :: q else q := by
  rw [List.map_cons, List.nodup_cons] at ids
  have hother : ∀ y ∈ q, y.orderId ≠ o.orderId := fun y hy he =>
    ids.1 (he ▸ List.mem_map_of_mem hy)
  unfold consume
  split
  · have hq : q.map (shrinkOrder o.orderId n) = q :=
      (List.map_congr_left (fun y hy => shrinkOrder_of_ne (hother y hy))).trans (List.map_id _)
    rw [shrink_eq_map, List.map_cons, hq, shrinkOrder, if_pos rfl]
  · have hq : dequeue o.orderId (o :: q) = dequeue o.orderId q := by simp [dequeue]
    rw [hq]
    exact Exchange.dequeue_absent hother

/-- A fill of an order that is not in a queue leaves the queue alone. -/
theorem consume_absent {f : Order × Int} {q : List Order}
    (h : ∀ y ∈ q, y.orderId ≠ f.1.orderId) : consume f q = q := by
  unfold consume
  split
  · exact (List.map_congr_left (fun y hy => shrinkOrder_of_ne (h y hy))).trans (List.map_id _)
  · exact Exchange.dequeue_absent h

namespace Exchange

abbrev facing (x : Exchange) (i : Nat) : List Order := x.queue (opposite (x.stateAt i).side)

theorem tag_append (request : Request) (a b : List ExecutionReport) :
    tag request (a ++ b) = tag request a ++ tag request b := List.map_append

section Sweep
variable {x : Exchange} {i : Nat} {wanted ts : Int} {o : Order} {q : List Order}

theorem sweep_stop (h : wanted ≤ 0 ∨ ∀ o, (x.facing i).head? = some o →
    acceptable (x.stateAt i) o = false) : x.sweep i wanted = [] :=
  Sweep.fills_stop h

theorem trade_acceptable (ts : Int) (f : Order × Int) (hne : f.1.orderId ≠ i) :
    acceptable ((x.trade i ts f).1.stateAt i) = acceptable (x.stateAt i) := by
  rw [trade_stateAt_incoming _ f hne, acceptable_fill]

theorem trade_facing (ts : Int) (f : Order × Int) (hne : f.1.orderId ≠ i) :
    (x.trade i ts f).1.facing i = consume f (x.facing i) := by
  simp only [facing, trade_stateAt_incoming _ f hne, fill_side, trade_queue]

theorem Consistent.trade_own (c : Consistent x (some (i, wanted))) (ts : Int)
    (ho : o ∈ x.facing i) (n : Int) :
    (x.trade i ts (o, n)).1.queue (x.stateAt i).side = x.queue (x.stateAt i).side := by
  refine consume_absent ?_
  intro y hy hid
  have hside := (c.knownAt (c.inHand i wanted rfl).stored).side
  have hsame := c.unique hy ho hid
  have h := (c.filed _ _ ho).1
  rw [← hsame, (c.filed _ _ hy).1] at h
  exact opposite_ne hside h.symm

/-- The first fill of a sweep, and that the sweep goes on from the exchange it leaves. -/
theorem Consistent.sweep_cons (c : Consistent x (some (i, wanted))) (hq : x.facing i = o :: q)
    (accept : acceptable (x.stateAt i) o = true) (pos : 0 < wanted) (ts : Int) :
    x.sweep i wanted = (o, min wanted o.quantity) ::
      (x.trade i ts (o, min wanted o.quantity)).1.sweep i (wanted - min wanted o.quantity) := by
  have ho : o ∈ x.facing i := by rw [hq]; exact List.mem_cons_self
  have hne : o.orderId ≠ i := (c.inHand i wanted rfl).absent _ o ho
  have ids := c.queue_ids_nodup (opposite (x.stateAt i).side)
  rw [show x.queue (opposite (x.stateAt i).side) = o :: q from hq] at ids
  have hfacing := trade_facing (x := x) ts (o, min wanted o.quantity) hne
  rw [hq, consume_head ids] at hfacing
  have hacc := trade_acceptable (x := x) ts (o, min wanted o.quantity) hne
  unfold sweep
  rw [hacc]
  change Sweep.fills _ _ _ (x.facing i) = _ :: Sweep.fills _ _ _
    ((x.trade i ts (o, min wanted o.quantity)).1.facing i)
  rw [hq, Sweep.fills_cons pos accept, hfacing]
  split
  · rename_i part
    rw [Sweep.fills_after_partial (by omega), Sweep.fills_stop (Or.inl (by omega))]
  · rfl

/-- What is left opposite the order in hand when the matching loop has ended. -/
def remainder (x : Exchange) (i : Nat) (wanted : Int) : List Order :=
  Sweep.leftover Order.quantity (acceptable (x.stateAt i))
    (fun n o => { o with quantity := o.quantity - n }) wanted (x.facing i)

theorem Consistent.remainder_cons (c : Consistent x (some (i, wanted))) (hq : x.facing i = o :: q)
    (accept : acceptable (x.stateAt i) o = true) (pos : 0 < wanted) (ts : Int) :
    x.remainder i wanted =
      (x.trade i ts (o, min wanted o.quantity)).1.remainder i (wanted - min wanted o.quantity) := by
  have ho : o ∈ x.facing i := by rw [hq]; exact List.mem_cons_self
  have hne : o.orderId ≠ i := (c.inHand i wanted rfl).absent _ o ho
  have ids := c.queue_ids_nodup (opposite (x.stateAt i).side)
  rw [show x.queue (opposite (x.stateAt i).side) = o :: q from hq] at ids
  have hfacing := trade_facing (x := x) ts (o, min wanted o.quantity) hne
  rw [hq, consume_head ids] at hfacing
  have hacc := trade_acceptable (x := x) ts (o, min wanted o.quantity) hne
  unfold remainder
  rw [hacc, hfacing, hq, Sweep.leftover, if_pos ⟨pos, accept⟩]
  by_cases part : wanted < o.quantity
  · have hm : min wanted o.quantity = wanted := by omega
    rw [hm, if_pos part, if_neg (by omega), Sweep.leftover, if_neg (by omega)]
  · have hm : min wanted o.quantity = o.quantity := by omega
    rw [hm, if_neg (lt_irrefl o.quantity), if_pos (show o.quantity ≤ wanted by omega)]

/-- How the matching loop ends: the queues, the states it leaves, and its trace. -/
structure Matched (x : Exchange) (i : Nat) (wanted ts : Int) (fs : List (Order × Int)) : Prop where
  trace : ∀ request, Trace Step (x, some (i, wanted)) (tag request (x.trades i ts fs).2)
    ((x.trades i ts fs).1, some (i, wanted - Sweep.total fs))
  symbol : (x.trades i ts fs).1.symbolId = x.symbolId
  incoming : (x.trades i ts fs).1.stateAt i =
    fs.foldl (fun st f => st.fill f.2 f.1.priceTicks) (x.stateAt i)
  facing : (x.trades i ts fs).1.facing i = x.remainder i wanted
  own : (x.trades i ts fs).1.queue (x.stateAt i).side = x.queue (x.stateAt i).side

theorem Matched.nil
    (h : wanted ≤ 0 ∨ ∀ o, (x.facing i).head? = some o → acceptable (x.stateAt i) o = false) :
    Matched x i wanted ts [] where
  trace := fun request => by
    have h : Trace Step (x, some (i, wanted)) [] (x, some (i, wanted)) := .refl _
    simpa [trades, tag] using h
  symbol := rfl
  incoming := rfl
  facing := by
    change x.facing i = x.remainder i wanted
    unfold remainder
    cases hq : x.facing i with
    | nil => rfl
    | cons o q =>
      rw [Sweep.leftover, if_neg]
      rintro ⟨pos, accept⟩
      rcases h with h | h
      · omega
      · rw [h o (by rw [hq]; rfl)] at accept
        cases accept
  own := rfl

theorem fold_fill_fixed {β : Type} (g : OrderState → β)
    (hg : ∀ st n p, g (OrderState.fill st n p) = g st) (fs : List (Order × Int)) (st : OrderState) :
    g (fs.foldl (fun st f => st.fill f.2 f.1.priceTicks) st) = g st := by
  induction fs generalizing st with
  | nil => rfl
  | cons f fs ih => rw [List.foldl_cons, ih, hg]

theorem Matched.fixed {fs : List (Order × Int)} (m : Matched x i wanted ts fs) {β : Type}
    (g : OrderState → β) (hg : ∀ st n p, g (OrderState.fill st n p) = g st) :
    g ((x.trades i ts fs).1.stateAt i) = g (x.stateAt i) := by
  rw [m.incoming, fold_fill_fixed g hg]

theorem Consistent.matched (c : Consistent x (some (i, wanted))) (ts : Int) :
    Matched x i wanted ts (x.sweep i wanted) := by
  obtain ⟨q, hq⟩ : ∃ q, x.facing i = q := ⟨_, rfl⟩
  induction q generalizing x wanted with
  | nil =>
    have stop : wanted ≤ 0 ∨ ∀ o, (x.facing i).head? = some o →
        acceptable (x.stateAt i) o = false := Or.inr (by rw [hq]; intro o h; cases h)
    rw [sweep_stop stop]
    exact Matched.nil stop
  | cons o q ih =>
    by_cases hgo : 0 < wanted ∧ acceptable (x.stateAt i) o = true
    · obtain ⟨pos, accept⟩ := hgo
      have ho : o ∈ x.facing i := by rw [hq]; exact List.mem_cons_self
      have hpos := c.quantity_pos ho
      have hne : o.orderId ≠ i := (c.inHand i wanted rfl).absent _ o ho
      have ids := c.queue_ids_nodup (opposite (x.stateAt i).side)
      rw [show x.queue (opposite (x.stateAt i).side) = o :: q from hq] at ids
      have hstate := trade_stateAt_incoming (x := x) ts (o, min wanted o.quantity) hne
      have hown := c.trade_own ts ho (min wanted o.quantity)
      have hrem := c.remainder_cons hq accept pos ts
      have hfacing := trade_facing (x := x) ts (o, min wanted o.quantity) hne
      rw [hq, consume_head ids] at hfacing
      have hc : Consistent (x.trade i ts (o, min wanted o.quantity)).1
          (some (i, wanted - min wanted o.quantity)) := c.trade ho (by omega) (by omega) (by omega)
      have hsweep := c.sweep_cons hq accept pos ts
      have hrest : Matched (x.trade i ts (o, min wanted o.quantity)).1 i
          (wanted - min wanted o.quantity) ts
          ((x.trade i ts (o, min wanted o.quantity)).1.sweep i (wanted - min wanted o.quantity)) := by
        by_cases part : min wanted o.quantity < o.quantity
        · have stop : wanted - min wanted o.quantity ≤ 0 ∨ ∀ y,
              ((x.trade i ts (o, min wanted o.quantity)).1.facing i).head? = some y →
              acceptable ((x.trade i ts (o, min wanted o.quantity)).1.stateAt i) y = false :=
            Or.inl (by omega)
          rw [sweep_stop stop]
          exact Matched.nil stop
        · rw [if_neg part] at hfacing
          exact ih hc hfacing
      rw [hsweep]
      refine ⟨fun request => ?_, hrest.symbol, ?_, ?_, ?_⟩
      · have first : Step (x, some (i, wanted)) (tag request (x.trade i ts (o, min wanted o.quantity)).2)
            ((x.trade i ts (o, min wanted o.quantity)).1, some (i, wanted - min wanted o.quantity)) :=
          .trade request (by rw [show x.queue (opposite (x.stateAt i).side) = o :: q from hq]; rfl)
            accept pos
        have all := (Trace.single first).append (hrest.trace request)
        rw [← tag_append] at all
        have htotal : ∀ fs : List (Order × Int), wanted - min wanted o.quantity - Sweep.total fs =
            wanted - Sweep.total ((o, min wanted o.quantity) :: fs) := by
          intro fs
          rw [Sweep.total_cons]
          omega
        rw [htotal] at all
        exact all
      · rw [List.foldl_cons, ← hstate]
        exact hrest.incoming
      · rw [hrem]
        exact hrest.facing
      · have h := hrest.own
        rw [hstate, fill_side] at h
        exact h.trans hown
    · have stop : wanted ≤ 0 ∨ ∀ y, (x.facing i).head? = some y →
          acceptable (x.stateAt i) y = false := by
        by_cases pos : 0 < wanted
        · refine Or.inr ?_
          rw [hq]
          rintro y ⟨⟩
          simpa [pos] using hgo
        · exact Or.inl (by omega)
      rw [sweep_stop stop]
      exact Matched.nil stop

end Sweep

section Serve
variable {x : Exchange} {i : Nat} {wanted ts : Int}

theorem fold_fill_acceptable (fs : List (Order × Int)) (st : OrderState) :
    acceptable (fs.foldl (fun st f => st.fill f.2 f.1.priceTicks) st) = acceptable st :=
  fold_fill_fixed acceptable acceptable_fill fs st

/-- With a quantity left over, nothing that remains opposite can be traded with. -/
theorem Consistent.matched_stop (c : Consistent x (some (i, wanted)))
    (short : 0 < wanted - Sweep.total (x.sweep i wanted)) :
    ∀ o ∈ (x.trades i ts (x.sweep i wanted)).1.facing i,
      acceptable ((x.trades i ts (x.sweep i wanted)).1.stateAt i) o = false := by
  have m := c.matched ts
  have c' := consistent_of_trace (m.trace (.cancel {})) c
  have hsorted := c'.sorted (opposite ((x.trades i ts (x.sweep i wanted)).1.stateAt i).side)
  have hacc : acceptable ((x.trades i ts (x.sweep i wanted)).1.stateAt i) =
      acceptable (x.stateAt i) := by
    rw [m.incoming, fold_fill_acceptable]
  have hhead : ∀ a, ((x.trades i ts (x.sweep i wanted)).1.facing i).head? = some a →
      acceptable (x.stateAt i) a = false := by
    rw [m.facing]
    exact Sweep.leftover_head (fun a ha => c.quantity_pos ha) (lt_of_sub_pos short)
  intro o ho
  change List.Pairwise _ ((x.trades i ts (x.sweep i wanted)).1.facing i) at hsorted
  cases hq : (x.trades i ts (x.sweep i wanted)).1.facing i with
  | nil => rw [hq] at ho; cases ho
  | cons a q =>
    rw [hq] at ho hsorted hhead
    have ha := hhead a rfl
    rw [← hacc] at ha
    rcases List.mem_cons.mp ho with rfl | ho
    · exact ha
    · by_contra hno
      have hyes := executable_mono (List.rel_of_pairwise_cons hsorted ho)
        (Bool.not_eq_false _ ▸ hno)
      exact Bool.false_ne_true (ha.symm.trans hyes)

theorem Consistent.execute_trace (c : Consistent x (some (i, wanted))) (request : Request)
    {rests : Bool} (limit : rests = true → (x.stateAt i).orderType = .limit) (ts : Int) :
    Trace Step (x, some (i, wanted)) (tag request (x.execute i wanted rests ts).2)
      ((x.execute i wanted rests ts).1, none) := by
  have m := c.matched ts
  have hle : Sweep.total (x.sweep i wanted) ≤ wanted :=
    Sweep.total_le (c.inHand i wanted rfl).nonneg
  unfold execute
  simp only
  rw [tag_append]
  refine (m.trace request).append ?_
  by_cases short : wanted - Sweep.total (x.sweep i wanted) > 0
  · rw [if_pos short]
    cases rests with
    | false => exact Trace.single (.expire request short)
    | true =>
      have hlimit : ((x.trades i ts (x.sweep i wanted)).1.stateAt i).orderType = .limit := by
        rw [m.incoming, fold_fill_fixed (·.orderType) (fun _ _ _ => rfl)]
        exact limit rfl
      by_cases symbol : (x.trades i ts (x.sweep i wanted)).1.symbolId = invalidSymbolId
      · have hrest : (x.trades i ts (x.sweep i wanted)).1.rest i ts =
            (x.trades i ts (x.sweep i wanted)).1.close i .rejected .rejected ts .internalError :=
          if_pos symbol
        simp only [if_true, hrest]
        exact Trace.single (.fault request short symbol)
      · have hnone : ((x.trades i ts (x.sweep i wanted)).1.rest i ts).2 = [] := by
          unfold Exchange.rest
          rw [if_neg symbol]
        simp only [if_true, hnone]
        exact Trace.single (.rest short symbol hlimit (c.matched_stop short))
  · rw [if_neg short]
    have hzero : wanted - Sweep.total (x.sweep i wanted) = 0 := by omega
    rw [hzero]
    exact Trace.single .done

theorem Consistent.isResting_iff {p : Option (Nat × Int)} (c : Consistent x p) {id : Nat} :
    x.isResting id = true ↔ ∃ s, ∃ o ∈ x.queue s, o.orderId = id := by
  unfold isResting
  rw [List.any_eq_true]
  constructor
  · rintro ⟨o, ho, hid⟩
    rcases List.mem_append.mp ho with ho | ho
    · exact ⟨_, o, ho, by simpa using hid⟩
    · exact ⟨_, o, ho, by simpa using hid⟩
  · rintro ⟨s, o, ho, rfl⟩
    exact ⟨o, c.mem_both ho, by simp⟩

/-- An incoming limit that meets nothing cannot meet its own client either. -/
theorem Consistent.selfTrade_of_not_crosses {p : Option (Nat × Int)} (c : Consistent x p)
    {side : Side} {orderType : OrderType} {limit : Int} (clientId : Nat)
    (h : x.crosses side orderType limit = false) :
    x.selfTrade side orderType limit clientId = false := by
  by_contra hne
  obtain ⟨_, o, ho, _, hex⟩ := selfTrade_eq_true.mp (Bool.not_eq_false _ ▸ hne)
  exact Bool.false_ne_true (h.symm.trans (c.crosses_iff.mpr ⟨o, ho, hex⟩))

theorem inadmissible_eq_none {request : NewOrderRequest} (h : x.inadmissible request = none) :
    (request.postOnly = true →
      x.crosses request.side request.orderType request.priceTicks = false) ∧
    (request.postOnly = false →
      x.selfTrade request.side request.orderType request.priceTicks request.clientId = false) ∧
    (request.timeInForce = .fok → request.quantity ≤
      x.available request.side request.orderType request.priceTicks) := by
  unfold inadmissible at h
  split at h
  · cases h
  · rename_i h₁
    split at h
    · cases h
    · rename_i h₂
      split at h
      · cases h
      · rename_i h₃
        refine ⟨fun hp => ?_, fun hp => ?_, fun hp => ?_⟩
        · simpa [hp] using h₁
        · simpa [hp] using h₂
        · simpa [hp] using h₃

theorem Consistent.apart_of_admissible {p : Option (Nat × Int)} (c : Consistent x p)
    {request : NewOrderRequest} (h : x.inadmissible request = none) :
    x.selfTrade request.side request.orderType request.priceTicks request.clientId = false := by
  obtain ⟨hpost, hself, _⟩ := inadmissible_eq_none h
  cases hp : request.postOnly with
  | true => exact c.selfTrade_of_not_crosses _ (hpost hp)
  | false => exact hself hp

theorem reasons_malformed {request : NewOrderRequest} {reason : RejectReason}
    (h : x.malformed request = some reason) : reason ≠ .internalError := by
  rintro rfl
  unfold malformed at h
  repeat' split at h
  all_goals cases h

theorem reasons_inadmissible {request : NewOrderRequest} {reason : RejectReason}
    (h : x.inadmissible request = some reason) : reason ≠ .internalError := by
  rintro rfl
  unfold inadmissible at h
  repeat' split at h
  all_goals cases h

theorem refused (request : Request) (clientOrderId symbolId : Nat) (side : Side) (ts : Int)
    {reason : RejectReason} (other : reason ≠ .internalError) :
    Trace Step (x, none) (tag request [makeReject clientOrderId symbolId side ts reason])
      (x, none) :=
  .single (.refuse request clientOrderId symbolId side ts other)

theorem reserved {l : List Entry} {t : Session} {id : Nat}
    (tr : Trace Step (x.reserve id, none) l t) : Trace Step (x, none) l t :=
  (Trace.single (.reserve id)).append tr

theorem Consistent.accept_trace (c : Consistent x none) {request : NewOrderRequest}
    (ok : x.malformed request = none) (good : x.inadmissible request = none) :
    Trace Step (x, none) (tag (.submit request) (x.accept request).2)
      ((x.accept request).1, none) := by
  have apart := c.apart_of_admissible good
  have c' := c.enlist ok apart
  unfold accept
  simp only
  rw [tag_append]
  refine (Trace.single (.enlist ok apart (inadmissible_eq_none good).1)).append ?_
  refine c'.execute_trace _ ?_ _
  intro h
  have hself : (x.enlist request).1.stateAt x.nextExchangeOrderId = x.accepted request :=
    stateAt_setState_same x _ _
  rw [hself]
  exact (of_decide_eq_true h).1

theorem reopen_orderType (request : ReplaceOrderRequest) :
    ((x.reopen request).1.stateAt request.exchangeOrderId).orderType =
      (x.stateAt request.exchangeOrderId).orderType := by
  rw [reopen_stateAt_self]
  rfl

theorem Consistent.rework_trace (c : Consistent x none) {request : ReplaceOrderRequest} {s : Side}
    {o : Order} (ho : o ∈ x.queue s) (hid : o.orderId = request.exchangeOrderId)
    (hqty : 0 < request.newQuantity) (hprice : 0 < request.newPriceTicks)
    (apart : x.selfTrade (x.stateAt o.orderId).side (x.stateAt o.orderId).orderType
      request.newPriceTicks (x.stateAt o.orderId).clientId = false) :
    Trace Step (x, none) (tag (.replace request) (x.rework request).2)
      ((x.rework request).1, none) := by
  have c' := c.reopen request ho hid hqty hprice apart
  unfold rework
  simp only
  rw [tag_append]
  refine (Trace.single (.reopen ho hid hqty hprice apart)).append ?_
  rw [hid] at c' ⊢
  refine c'.execute_trace _ ?_ _
  intro _
  rw [reopen_orderType, ← hid]
  exact (c.stateAt_order ho).2.2.1

theorem Consistent.submit_trace (c : Consistent x none) (request : NewOrderRequest) :
    Trace Step (x, none) (tag (.submit request) (x.submit request).2)
      ((x.submit request).1, none) := by
  unfold submit
  simp only
  split
  · rename_i reason h
    exact refused _ _ _ _ _ (reasons_malformed h)
  · rename_i ok
    split
    · exact refused _ _ _ _ _ (by simp)
    · split
      · rename_i reason h
        exact reserved (refused _ _ _ _ _ (reasons_inadmissible h))
      · rename_i good
        exact reserved ((c.reserve request.clientOrderId).accept_trace ok good)

theorem Consistent.cancel_trace (c : Consistent x none) (request : CancelOrderRequest) :
    Trace Step (x, none) (tag (.cancel request) (x.cancel request).2)
      ((x.cancel request).1, none) := by
  unfold cancel
  simp only
  split
  · exact refused _ _ _ _ _ (by simp)
  · split
    · rename_i h
      obtain ⟨s, o, ho, hid⟩ := (c.reserve request.clientOrderId).isResting_iff.mp h
      have tr := Trace.single (Step.withdraw (.cancel request) request.timestampNs ho)
      rw [hid] at tr
      exact reserved tr
    · exact reserved (refused _ _ _ _ _ (by simp))

theorem Consistent.replace_trace (c : Consistent x none) (request : ReplaceOrderRequest) :
    Trace Step (x, none) (tag (.replace request) (x.replace request).2)
      ((x.replace request).1, none) := by
  have c' := c.reserve request.clientOrderId
  unfold replace
  simp only
  split
  · exact refused _ _ _ _ _ (by simp)
  · rename_i hqty
    split
    · exact refused _ _ _ _ _ (by simp)
    · rename_i hprice
      split
      · exact refused _ _ _ _ _ (by simp)
      · split
        · rename_i h
          obtain ⟨s, o, ho, hid⟩ := c'.isResting_iff.mp h
          split
          · exact reserved (refused _ _ _ _ _ (by simp))
          · rename_i apart
            refine reserved (c'.rework_trace ho hid (not_le.mp hqty) (not_le.mp hprice) ?_)
            rw [hid]
            exact Bool.eq_false_iff.mpr apart
        · exact reserved (refused _ _ _ _ _ (by simp))

/-- An answer is the reports of a trace. -/
theorem Consistent.serve_trace (c : Consistent x none) (request : Request) :
    Trace Step (x, none) (tag request (x.serve request).2) ((x.serve request).1, none) := by
  cases request with
  | submit request => exact c.submit_trace request
  | cancel request => exact c.cancel_trace request
  | replace request => exact c.replace_trace request

theorem Consistent.serve (c : Consistent x none) (request : Request) :
    Consistent (x.serve request).1 none :=
  consistent_of_trace (c.serve_trace request) c

def log (x : Exchange) : List Request → List Entry
  | [] => []
  | request :: requests =>
    tag request (x.serve request).2 ++ (x.serve request).1.log requests

theorem log_reports (x : Exchange) (requests : List Request) :
    (x.log requests).map Prod.snd = (x.run requests).2 := by
  induction requests generalizing x with
  | nil => rfl
  | cons request requests ih =>
    rw [log, List.map_append, ih]
    simp [tag, run]

theorem Consistent.run_trace (c : Consistent x none) (requests : List Request) :
    Trace Step (x, none) (x.log requests) ((x.run requests).1, none) := by
  induction requests generalizing x with
  | nil => exact .refl _
  | cons request requests ih => exact (c.serve_trace request).append (ih (c.serve request))

theorem Consistent.run_symbolId (c : Consistent x none) (requests : List Request) :
    (x.run requests).1.symbolId = x.symbolId :=
  symbolId_of_trace (c.run_trace requests)

end Serve
end Exchange
end Asterion
