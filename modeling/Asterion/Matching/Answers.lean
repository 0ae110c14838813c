import Asterion.Matching.History

/-! The shape of an answer: a request is refused or withdraws an order with one report, or
it takes an order in hand and executes it. -/
namespace Asterion

open Lib
open MatchingEngine (Request executable)

namespace Exchange

/-- A fill as its two reports tell it. -/
structure TellsFill (i : Nat) (side : Side) (f : Order × Int)
    (p : ExecutionReport × ExecutionReport) : Prop where
  resting : p.1.exchangeOrderId = f.1.orderId
  incoming : p.2.exchangeOrderId = i
  restingSide : p.1.side = opposite side
  incomingSide : p.2.side = side
  quantity : p.1.lastFillQuantity = f.2 ∧ p.2.lastFillQuantity = f.2
  price : p.1.lastFillPriceTicks = f.1.priceTicks ∧ p.2.lastFillPriceTicks = f.1.priceTicks

section Trades
variable {x : Exchange} {i : Nat} {wanted ts : Int}

/-- The reports of the matching loop are one pair for each fill of the sweep. -/
theorem Consistent.trades_reports (c : Consistent x (some (i, wanted))) (ts : Int) :
    Paired (fun _ _ => True) (x.trades i ts (x.sweep i wanted)).2 ∧
      List.Forall₂ (TellsFill i (x.stateAt i).side) (x.sweep i wanted)
        (tradePairs (x.trades i ts (x.sweep i wanted)).2) := by
  obtain ⟨n, hn⟩ : ∃ n, n = (x.facing i).length := ⟨_, rfl⟩
  induction n using Nat.strong_induction_on generalizing x wanted with
  | _ n ih =>
    by_cases hgo : 0 < wanted ∧ ∃ o, (x.facing i).head? = some o ∧ acceptable (x.stateAt i) o = true
    · obtain ⟨pos, o, head, accept⟩ := hgo
      obtain ⟨q, hq⟩ : ∃ q, x.facing i = o :: q := List.head?_eq_some_iff.mp head
      have ho : o ∈ x.facing i := List.mem_of_head? head
      have hqty := c.quantity_pos ho
      have hand := c.inHand i wanted rfl
      have hne : o.orderId ≠ i := hand.absent _ o ho
      have c' : Consistent (x.trade i ts (o, min wanted o.quantity)).1
          (some (i, wanted - min wanted o.quantity)) :=
        c.trade ho (by omega) (by omega) (by omega)
      have hs := c.sweep_cons hq accept pos ts
      have hreports := trade_reports (x := x) ts (o, min wanted o.quantity) hne
      have hside : ((x.trade i ts (o, min wanted o.quantity)).1.stateAt i).side =
          (x.stateAt i).side := by rw [trade_stateAt_incoming _ _ hne, fill_side]
      have hrest := (c.stateAt_order ho).2.1
      have htold : TellsFill i (x.stateAt i).side (o, min wanted o.quantity)
          (makeReport ((x.stateAt o.orderId).fill (min wanted o.quantity) o.priceTicks) .trade
            (min wanted o.quantity) o.priceTicks ts .none,
           makeReport ((x.stateAt i).fill (min wanted o.quantity) o.priceTicks) .trade
            (min wanted o.quantity) o.priceTicks ts .none) :=
        { resting := (c.knownAt (c.stateAt_order ho).1).own
          incoming := (c.knownAt hand.stored).own
          restingSide := (congrArg Order.side hrest).symm.trans (c.filed _ o ho).1
          incomingSide := rfl
          quantity := ⟨rfl, rfl⟩
          price := ⟨rfl, rfl⟩ }
      have rest : Paired (fun _ _ => True) ((x.trade i ts (o, min wanted o.quantity)).1.trades i ts
            ((x.trade i ts (o, min wanted o.quantity)).1.sweep i
              (wanted - min wanted o.quantity))).2 ∧
          List.Forall₂ (TellsFill i (x.stateAt i).side)
            ((x.trade i ts (o, min wanted o.quantity)).1.sweep i (wanted - min wanted o.quantity))
            (tradePairs ((x.trade i ts (o, min wanted o.quantity)).1.trades i ts
              ((x.trade i ts (o, min wanted o.quantity)).1.sweep i
                (wanted - min wanted o.quantity))).2) := by
        by_cases part : min wanted o.quantity < o.quantity
        · rw [sweep_stop (Or.inl (by omega))]
          exact ⟨.nil, .nil⟩
        · have hfacing := trade_facing (x := x) ts (o, min wanted o.quantity) hne
          have ids := c.queue_ids_nodup (opposite (x.stateAt i).side)
          rw [show x.queue (opposite (x.stateAt i).side) = o :: q from hq] at ids
          rw [hq, consume_head ids, if_neg part] at hfacing
          have h := ih q.length (by rw [hn, hq]; exact Nat.lt_succ_self _) c' (by rw [hfacing])
          rw [hside] at h
          exact h
      rw [hs]
      change Paired _ ((x.trade i ts (o, min wanted o.quantity)).2 ++ _) ∧
        List.Forall₂ _ _ (tradePairs ((x.trade i ts (o, min wanted o.quantity)).2 ++ _))
      rw [hreports]
      refine ⟨rest.1.pair rfl rfl trivial, ?_⟩
      change List.Forall₂ _ _ (tradePairs (_ :: _ :: _))
      rw [tradePairs_pair rfl]
      exact .cons htold rest.2
    · have hs : x.sweep i wanted = [] := by
        refine sweep_stop ?_
        by_cases pos : 0 < wanted
        · refine Or.inr fun o ho => ?_
          by_contra hne
          exact hgo ⟨pos, o, ho, Bool.not_eq_false _ ▸ hne⟩
        · exact Or.inl (not_lt.mp pos)
      rw [hs]
      exact ⟨.nil, .nil⟩

end Trades

theorem exists_fill {i : Nat} {side : Side} {fs : List (Order × Int)}
    {ps : List (ExecutionReport × ExecutionReport)} (told : List.Forall₂ (TellsFill i side) fs ps)
    {p : ExecutionReport × ExecutionReport} (hp : p ∈ ps) : ∃ f ∈ fs, TellsFill i side f p := by
  induction told with
  | nil => cases hp
  | cons h _ ih =>
    rcases List.mem_cons.mp hp with rfl | hp
    · exact ⟨_, List.mem_cons_self, h⟩
    · obtain ⟨f, hf, h⟩ := ih hp
      exact ⟨f, List.mem_cons_of_mem _ hf, h⟩

/-- How an execution ends for the queues and the reports. -/
structure Executed (y : Exchange) (i : Nat) (wanted ts : Int) (rests : Bool) : Prop where
  facing : (y.execute i wanted rests ts).1.queue (opposite (y.stateAt i).side) = y.remainder i wanted
  own : (y.execute i wanted rests ts).1.queue (y.stateAt i).side = y.queue (y.stateAt i).side ∨
    ∃ o, o.orderId = i ∧ o.side = (y.stateAt i).side ∧
      (y.execute i wanted rests ts).1.queue (y.stateAt i).side =
        enqueue o (y.queue (y.stateAt i).side)
  paired : Paired (fun _ _ => True) (y.execute i wanted rests ts).2
  fills : List.Forall₂ (TellsFill i (y.stateAt i).side) (y.sweep i wanted)
    (tradePairs (y.execute i wanted rests ts).2)

theorem Consistent.executed {y : Exchange} {i : Nat} {wanted : Int}
    (c : Consistent y (some (i, wanted))) (ts : Int) (rests : Bool) :
    Executed y i wanted ts rests := by
  have m := c.matched ts
  obtain ⟨hpaired, hfills⟩ := c.trades_reports ts
  have hside := (c.knownAt (c.inHand i wanted rfl).stored).side
  have hinc : ((y.trades i ts (y.sweep i wanted)).1.stateAt i).side = (y.stateAt i).side := by
    rw [m.incoming, fold_fill_fixed (·.side) (fun _ _ _ => rfl)]
  have hfacing : (y.trades i ts (y.sweep i wanted)).1.queue (opposite (y.stateAt i).side) =
      y.remainder i wanted := by
    rw [← m.facing, facing, hinc]
  -- whatever follows the fills is at most one report that is not a Trade
  have hlast : ∀ last : Exchange × List ExecutionReport,
      (last.2 = [] ∨ ∃ r, last.2 = [r] ∧ r.execType ≠ .trade) →
      Paired (fun _ _ => True) ((y.trades i ts (y.sweep i wanted)).2 ++ last.2) ∧
      tradePairs ((y.trades i ts (y.sweep i wanted)).2 ++ last.2) =
        tradePairs (y.trades i ts (y.sweep i wanted)).2 := by
    rintro last (h | ⟨r, h, hr⟩)
    · rw [h, List.append_nil]
      exact ⟨hpaired, rfl⟩
    · rw [h, hpaired.tradePairs_append]
      exact ⟨hpaired.append (.single hr), by simp [tradePairs]⟩
  by_cases short : wanted - Sweep.total (y.sweep i wanted) > 0
  · cases rests with
    | false =>
      have hex : y.execute i wanted false ts = (((y.trades i ts (y.sweep i wanted)).1.close i .canceled
          .canceled ts .none).1, (y.trades i ts (y.sweep i wanted)).2 ++
          ((y.trades i ts (y.sweep i wanted)).1.close i .canceled .canceled ts .none).2) := by
        unfold execute
        simp only [if_pos short, Bool.false_eq_true, if_false]
      obtain ⟨hp, ht⟩ := hlast ((y.trades i ts (y.sweep i wanted)).1.close i .canceled .canceled ts
        .none) (Or.inr ⟨_, rfl, fun h => by cases h⟩)
      refine ⟨?_, ?_, ?_, ?_⟩ <;> rw [hex]
      · exact hfacing
      · exact Or.inl m.own
      · exact hp
      · simp only
        rw [ht]
        exact hfills
    | true =>
      have hex : y.execute i wanted true ts = (((y.trades i ts (y.sweep i wanted)).1.rest i ts).1,
          (y.trades i ts (y.sweep i wanted)).2 ++
          ((y.trades i ts (y.sweep i wanted)).1.rest i ts).2) := by
        unfold execute
        simp only [if_pos short, if_true]
      by_cases symbol : (y.trades i ts (y.sweep i wanted)).1.symbolId = invalidSymbolId
      · have hrest : (y.trades i ts (y.sweep i wanted)).1.rest i ts =
            (y.trades i ts (y.sweep i wanted)).1.close i .rejected .rejected ts .internalError :=
          if_pos symbol
        rw [hrest] at hex
        obtain ⟨hp, ht⟩ := hlast ((y.trades i ts (y.sweep i wanted)).1.close i .rejected .rejected ts
          .internalError) (Or.inr ⟨_, rfl, fun h => by cases h⟩)
        refine ⟨?_, ?_, ?_, ?_⟩ <;> rw [hex]
        · exact hfacing
        · exact Or.inl m.own
        · exact hp
        · simp only
          rw [ht]
          exact hfills
      · have hrest : (y.trades i ts (y.sweep i wanted)).1.rest i ts =
            ({ (y.trades i ts (y.sweep i wanted)).1 with
                queue := fun s =>
                  if s = (restingOrder ((y.trades i ts (y.sweep i wanted)).1.stateAt i)).side then
                    enqueue (restingOrder ((y.trades i ts (y.sweep i wanted)).1.stateAt i))
                      ((y.trades i ts (y.sweep i wanted)).1.queue s)
                  else (y.trades i ts (y.sweep i wanted)).1.queue s }, []) := by
          unfold Exchange.rest
          rw [if_neg symbol]
        rw [hrest] at hex
        obtain ⟨hp, ht⟩ := hlast (y, []) (Or.inl rfl)
        have hos : (restingOrder ((y.trades i ts (y.sweep i wanted)).1.stateAt i)).side =
            (y.stateAt i).side := hinc
        have hoid : (restingOrder ((y.trades i ts (y.sweep i wanted)).1.stateAt i)).orderId = i := by
          change ((y.trades i ts (y.sweep i wanted)).1.stateAt i).exchangeOrderId = i
          rw [m.incoming, fold_fill_fixed (·.exchangeOrderId) (fun _ _ _ => rfl)]
          exact (c.knownAt (c.inHand i wanted rfl).stored).own
        refine ⟨?_, ?_, ?_, ?_⟩ <;> rw [hex]
        · simp only
          rw [if_neg (by rw [hos]; exact opposite_ne hside)]
          exact hfacing
        · refine Or.inr ⟨restingOrder ((y.trades i ts (y.sweep i wanted)).1.stateAt i), hoid, hos, ?_⟩
          simp only
          rw [if_pos hos.symm, m.own]
        · exact hp
        · simp only
          rw [ht]
          exact hfills
  · have hex : y.execute i wanted rests ts = ((y.trades i ts (y.sweep i wanted)).1,
        (y.trades i ts (y.sweep i wanted)).2) := by
      unfold execute
      simp only [if_neg short, List.append_nil]
    refine ⟨?_, ?_, ?_, ?_⟩ <;> rw [hex]
    · exact hfacing
    · exact Or.inl m.own
    · exact hpaired
    · exact hfills

/-- The terms on which a request would take an order in hand. -/
structure Terms where
  id : Nat
  side : Side
  orderType : OrderType
  limit : Int
  quantity : Int

def terms (x : Exchange) : Request → Terms
  | .submit request =>
    ⟨x.nextExchangeOrderId, request.side, request.orderType, request.priceTicks, request.quantity⟩
  | .cancel request => ⟨request.exchangeOrderId, .none, .limit, 0, 0⟩
  | .replace request =>
    let state := x.stateAt request.exchangeOrderId
    ⟨request.exchangeOrderId, state.side, state.orderType, request.newPriceTicks, request.newQuantity⟩

/-- Only the set of used client order ids may differ. -/
structure SameBook (x z : Exchange) : Prop where
  queue : z.queue = x.queue
  state : z.state = x.state

theorem SameBook.refl (x : Exchange) : SameBook x x := ⟨rfl, rfl⟩
theorem SameBook.reserve (x : Exchange) (id : Nat) : SameBook x (x.reserve id) := ⟨rfl, rfl⟩

section Cases
variable {x : Exchange}

theorem submit_cases (x : Exchange) (request : NewOrderRequest) :
    (∃ reason, SameBook x (x.submit request).1 ∧ (x.submit request).2 = [makeReject
      request.clientOrderId request.symbolId request.side request.timestampNs reason]) ∨
    (x.malformed request = none ∧ x.reusedId request.clientOrderId = false ∧
      (x.reserve request.clientOrderId).inadmissible request = none ∧
      x.submit request = (x.reserve request.clientOrderId).accept request) := by
  unfold submit
  simp only
  split
  · exact Or.inl ⟨_, .refl x, rfl⟩
  · rename_i ok
    split
    · exact Or.inl ⟨_, .refl x, rfl⟩
    · rename_i fresh
      split
      · exact Or.inl ⟨_, .reserve x _, rfl⟩
      · rename_i good
        exact Or.inr ⟨ok, Bool.eq_false_iff.mpr fresh, good, rfl⟩

theorem replace_cases (x : Exchange) (request : ReplaceOrderRequest) :
    (∃ side reason, SameBook x (x.replace request).1 ∧ (x.replace request).2 = [makeReject
      request.clientOrderId x.symbolId side request.timestampNs reason]) ∨
    (0 < request.newQuantity ∧ 0 < request.newPriceTicks ∧ x.reusedId request.clientOrderId = false ∧
      x.isResting request.exchangeOrderId = true ∧
      x.selfTrade (x.stateAt request.exchangeOrderId).side
        (x.stateAt request.exchangeOrderId).orderType request.newPriceTicks
        (x.stateAt request.exchangeOrderId).clientId = false ∧
      x.replace request = (x.reserve request.clientOrderId).rework request) := by
  unfold replace
  simp only
  split
  · exact Or.inl ⟨_, _, .refl x, rfl⟩
  · rename_i hqty
    split
    · exact Or.inl ⟨_, _, .refl x, rfl⟩
    · rename_i hprice
      split
      · exact Or.inl ⟨_, _, .refl x, rfl⟩
      · rename_i fresh
        split
        · rename_i resting
          split
          · exact Or.inl ⟨_, _, .reserve x _, rfl⟩
          · rename_i apart
            exact Or.inr ⟨not_le.mp hqty, not_le.mp hprice, Bool.eq_false_iff.mpr fresh, resting,
              Bool.eq_false_iff.mpr apart, rfl⟩
        · exact Or.inl ⟨_, _, .reserve x _, rfl⟩

/-- The exchange answers with one report and takes nothing in hand. -/
structure Declines (x : Exchange) (request : Request) : Prop where
  answer : ∃ r, (x.serve request).2 = [r] ∧
    r.execType ≠ .trade ∧ r.execType ≠ .new ∧ r.execType ≠ .replaced
  queue : ∀ s, ((x.serve request).1.queue s).Sublist (x.queue s)

/-- The exchange takes an order in hand, having announced it, and executes it. -/
structure TakesInHand (x : Exchange) (request : Request) (y : Exchange) (ts : Int) (rests : Bool) :
    Prop where
  consistent : Consistent y (some ((x.terms request).id, (x.terms request).quantity))
  positive : 0 < (x.terms request).quantity
  side : (y.stateAt (x.terms request).id).side = (x.terms request).side
  accepts : acceptable (y.stateAt (x.terms request).id) = fun o =>
    executable (x.terms request).side (x.terms request).orderType (x.terms request).limit o.priceTicks
  facing : y.queue (opposite (x.terms request).side) = x.queue (opposite (x.terms request).side)
  own : y.queue (x.terms request).side = dequeue (x.terms request).id (x.queue (x.terms request).side)
  answer : ∃ first, (first.execType = .new ∨ first.execType = .replaced) ∧
    first.exchangeOrderId = (x.terms request).id ∧ x.serve request =
      ((y.execute (x.terms request).id (x.terms request).quantity rests ts).1,
        first :: (y.execute (x.terms request).id (x.terms request).quantity rests ts).2)

theorem declines_of_reject (request : Request) {clientOrderId symbolId : Nat} {side : Side} {ts : Int}
    {reason : RejectReason} (same : SameBook x (x.serve request).1)
    (h : (x.serve request).2 = [makeReject clientOrderId symbolId side ts reason]) :
    Declines x request where
  answer := ⟨_, h, (fun h => by cases h), (fun h => by cases h), (fun h => by cases h)⟩
  queue := fun s => by rw [same.queue]

theorem Consistent.accept_takes (c : Consistent x none) {request : NewOrderRequest}
    (ok : x.malformed request = none)
    (good : (x.reserve request.clientOrderId).inadmissible request = none)
    (h : x.submit request = (x.reserve request.clientOrderId).accept request) :
    TakesInHand x (.submit request) ((x.reserve request.clientOrderId).enlist request).1
      request.timestampNs (decide (request.orderType = .limit ∧ request.timeInForce = .gtc)) := by
  have c₁ := c.reserve request.clientOrderId
  have habsent : ∀ s, ∀ o ∈ x.queue s, o.orderId ≠ x.nextExchangeOrderId := fun s o ho =>
    (c.knownAt (c.stateAt_order ho).1).old.ne
  have hself : ((x.reserve request.clientOrderId).enlist request).1.stateAt x.nextExchangeOrderId =
      x.accepted request := stateAt_setState_same (x.reserve request.clientOrderId) _ _
  exact
    { consistent := c₁.enlist ok (c₁.apart_of_admissible good)
      positive := (malformed_eq_none ok).2.2.1
      side := congrArg OrderState.side hself
      accepts := congrArg acceptable hself
      facing := rfl
      own := (dequeue_absent (habsent _)).symm
      answer := ⟨_, Or.inl rfl, rfl, h⟩ }

theorem Consistent.rework_takes (c : Consistent x none) {request : ReplaceOrderRequest}
    (hqty : 0 < request.newQuantity) (hprice : 0 < request.newPriceTicks)
    (resting : x.isResting request.exchangeOrderId = true)
    (apart : x.selfTrade (x.stateAt request.exchangeOrderId).side
        (x.stateAt request.exchangeOrderId).orderType request.newPriceTicks
        (x.stateAt request.exchangeOrderId).clientId = false)
    (h : x.replace request = (x.reserve request.clientOrderId).rework request) :
    TakesInHand x (.replace request) ((x.reserve request.clientOrderId).reopen request).1
      request.timestampNs true := by
  have c₁ := c.reserve request.clientOrderId
  obtain ⟨s, o, ho, hid⟩ := c.isResting_iff.mp resting
  obtain ⟨hst, ho', _⟩ := c.stateAt_order ho
  have own := (c.knownAt hst).own
  have hself : ((x.reserve request.clientOrderId).reopen request).1.stateAt request.exchangeOrderId =
      x.reopened request := reopen_stateAt_self _ request
  have hreopen := c₁.reopen request ho hid hqty hprice (by rw [hid]; exact apart)
  rw [hid] at own hreopen
  have hside : o.side = (x.stateAt request.exchangeOrderId).side := by
    rw [← hid]
    exact congrArg Order.side ho'
  have helse : ∀ y ∈ x.queue (opposite (x.stateAt request.exchangeOrderId).side),
      y.orderId ≠ request.exchangeOrderId := hid ▸ c.opposite_apart ho
  exact
    { consistent := hreopen
      positive := hqty
      side := by
        have h := congrArg OrderState.side hself
        exact h
      accepts := by
        have h := congrArg acceptable hself
        exact h
      facing := dequeue_absent helse
      own := rfl
      answer := ⟨_, Or.inr rfl, own, h⟩ }

/-- A request is declined, or it takes an order in hand on its terms. -/
theorem Consistent.serve_cases (c : Consistent x none) (request : Request) :
    Declines x request ∨ ∃ y ts rests, TakesInHand x request y ts rests := by
  cases request with
  | submit request =>
    rcases submit_cases x request with ⟨_, same, h⟩ | ⟨ok, _, good, h⟩
    · exact Or.inl (declines_of_reject _ same h)
    · exact Or.inr ⟨_, _, _, c.accept_takes ok good h⟩
  | replace request =>
    rcases replace_cases x request with ⟨_, _, same, h⟩ | ⟨hqty, hprice, _, resting, apart, h⟩
    · exact Or.inl (declines_of_reject _ same h)
    · exact Or.inr ⟨_, _, _, c.rework_takes hqty hprice resting apart h⟩
  | cancel request =>
    refine Or.inl ?_
    by_cases hseen : x.reusedId request.clientOrderId = true
    · have h : x.cancel request = (x, [makeReject request.clientOrderId x.symbolId .none
          request.timestampNs .duplicateClientOrderId]) := by
        unfold cancel
        simp only [if_pos hseen]
      exact declines_of_reject (.cancel request)
        (by rw [show x.serve (.cancel request) = _ from h]; exact .refl x) (congrArg Prod.snd h)
    · by_cases hrest : (x.reserve request.clientOrderId).isResting request.exchangeOrderId = true
      · have h : x.cancel request = (x.reserve request.clientOrderId).withdraw request.exchangeOrderId
            request.timestampNs := by
          unfold cancel
          simp only [if_neg hseen, if_pos hrest]
        refine ⟨⟨_, congrArg Prod.snd h, (fun h => by cases h), (fun h => by cases h),
          (fun h => by cases h)⟩, fun s => ?_⟩
        rw [show x.serve (.cancel request) = _ from h]
        exact List.filter_sublist
      · have h : x.cancel request = (x.reserve request.clientOrderId, [makeReject
            request.clientOrderId x.symbolId .none request.timestampNs .unknownOrder]) := by
          unfold cancel
          simp only [if_neg hseen, if_neg hrest]
        exact declines_of_reject (.cancel request)
          (by rw [show x.serve (.cancel request) = _ from h]; exact .reserve x _)
          (congrArg Prod.snd h)

end Cases
end Exchange
end Asterion
