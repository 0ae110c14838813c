import Asterion.Matching.SelfTrade

/-! Post-only orders. The flag is checked when the order is submitted and is not stored, so
a later replace can make the order take liquidity; nothing else can. -/
namespace Asterion

open Lib
open MatchingEngine (Request executable)

namespace Exchange

section Sweep
variable {y : Exchange} {i : Nat} {wanted ts : Int} {rests : Bool}

/-- An execution makes fills exactly when the head of the opposite queue is acceptable. -/
theorem sweep_nil_iff (pos : 0 < wanted) : y.sweep i wanted = [] ↔
    (y.facing i).head?.any (fun o => acceptable (y.stateAt i) o) = false := by
  unfold sweep
  change Sweep.fills _ _ _ (y.facing i) = [] ↔ _
  cases hq : y.facing i with
  | nil => simp
  | cons o q =>
    by_cases h : acceptable (y.stateAt i) o = true
    · rw [Sweep.fills_cons pos h]
      simp [h]
    · rw [Sweep.fills_stop (Or.inr (by simpa using h))]
      simpa using h

end Sweep

theorem TakesInHand.pairs {x y : Exchange} {request : Request} {ts : Int} {rests : Bool}
    (take : TakesInHand x request y ts rests) :
    List.Forall₂ (TellsFill (x.terms request).id (x.terms request).side)
      (y.sweep (x.terms request).id (x.terms request).quantity) (tradePairs (x.serve request).2) := by
  obtain ⟨first, hkind, _, hserve⟩ := take.answer
  have ex := (take.consistent.executed ts rests).fills
  have hnot : first.execType ≠ .trade := by rcases hkind with h | h <;> rw [h] <;> simp
  rw [take.side] at ex
  rw [hserve]
  simp only
  rw [Paired.tradePairs_cons hnot]
  exact ex

theorem TakesInHand.trades_iff {x y : Exchange} {request : Request} {ts : Int} {rests : Bool}
    (take : TakesInHand x request y ts rests) : tradePairs (x.serve request).2 ≠ [] ↔
      x.crosses (x.terms request).side (x.terms request).orderType (x.terms request).limit = true := by
  have hpairs := take.pairs
  have hnil : tradePairs (x.serve request).2 = [] ↔
      y.sweep (x.terms request).id (x.terms request).quantity = [] := by
    constructor
    · intro h
      rw [h] at hpairs
      exact List.forall₂_nil_right_iff.mp hpairs
    · intro h
      rw [h] at hpairs
      exact List.forall₂_nil_left_iff.mp hpairs
  have hfacing : y.facing (x.terms request).id = x.queue (opposite (x.terms request).side) := by
    rw [Exchange.facing, take.side, take.facing]
  rw [Ne, hnil, sweep_nil_iff take.positive, take.accepts, hfacing, Bool.not_eq_false]
  rfl

theorem Declines.tradePairs_nil {x : Exchange} {request : Request} (d : Declines x request) :
    tradePairs (x.serve request).2 = [] := by
  obtain ⟨r, hr, _⟩ := d.answer
  rw [hr]
  rfl

theorem replace_accepts {x : Exchange} {request : ReplaceOrderRequest} (qty : 0 < request.newQuantity)
    (price : 0 < request.newPriceTicks) (fresh : x.reusedId request.clientOrderId = false)
    (resting : x.isResting request.exchangeOrderId = true)
    (apart : x.selfTrade (x.stateAt request.exchangeOrderId).side
      (x.stateAt request.exchangeOrderId).orderType request.newPriceTicks
      (x.stateAt request.exchangeOrderId).clientId = false) :
    x.replace request = (x.reserve request.clientOrderId).rework request := by
  have hresting : (x.reserve request.clientOrderId).isResting request.exchangeOrderId = true := resting
  have hapart : (x.reserve request.clientOrderId).selfTrade
      ((x.reserve request.clientOrderId).stateAt request.exchangeOrderId).side
      ((x.reserve request.clientOrderId).stateAt request.exchangeOrderId).orderType
      request.newPriceTicks
      ((x.reserve request.clientOrderId).stateAt request.exchangeOrderId).clientId = false := apart
  unfold replace
  simp only [if_neg (not_le.mpr qty), if_neg (not_le.mpr price), fresh, hresting, hapart,
    Bool.false_eq_true, if_false, if_true]

end Exchange

namespace MatchingEngine

open Exchange

/-- The replace is carried out on an order that was submitted post-only, at a price that
crosses the best opposite price. -/
structure MakesTaker (e : MatchingEngine) (log : List Entry) (request : ReplaceOrderRequest) :
    Prop where
  postOnly : ∃ submit, submission log request.exchangeOrderId = some submit ∧ submit.postOnly = true
  quantity : 0 < request.newQuantity
  price : 0 < request.newPriceTicks
  fresh : (e.reserveClientOrderId request.clientOrderId).isSome = true
  resting : (e.book.findOrder request.exchangeOrderId).isSome = true
  apart : e.wouldSelfTrade (e.stateAt request.exchangeOrderId).side
    (e.stateAt request.exchangeOrderId).orderType request.newPriceTicks
    (e.stateAt request.exchangeOrderId).clientId
    (e.stateAt request.exchangeOrderId).exchangeOrderId = false
  crossing : e.crosses (e.stateAt request.exchangeOrderId).side
    (e.stateAt request.exchangeOrderId).orderType request.newPriceTicks = true

section Serve
variable {e : MatchingEngine} {log : List Entry}

theorem Sound.wouldSelfTrade_own (s : e.Sound) {id : Nat} (resting : e.view.isResting id = true)
    (limit : Int) :
    e.wouldSelfTrade (e.stateAt id).side (e.stateAt id).orderType limit (e.stateAt id).clientId
        (e.stateAt id).exchangeOrderId =
      e.view.selfTrade (e.view.stateAt id).side (e.view.stateAt id).orderType limit
        (e.view.stateAt id).clientId := by
  obtain ⟨side, o, ho, rfl⟩ := s.consistent.isResting_iff.mp resting
  have hown : (e.stateAt o.orderId).exchangeOrderId = o.orderId := s.consistent.own_id ho
  refine wouldSelfTrade_eq s.wf s.consistent _ _ _ _ _ ?_
  rw [hown]
  exact s.consistent.opposite_apart ho

/-- The incoming order of a fill was submitted without the flag, or it has just been made
a taker by a replace. -/
theorem Sound.taker_cases (s : e.Sound) (origin : Origin log (e.view, none)) (request : Request)
    {p : ExecutionReport × ExecutionReport} (hp : p ∈ tradePairs (e.serve request).reports) :
    ∃ submit, submission (log ++ tag request (e.serve request).reports) p.2.exchangeOrderId =
        some submit ∧
      (submit.postOnly = true → ∃ r, request = .replace r ∧ MakesTaker e log r) := by
  rw [s.serve_reports] at hp ⊢
  have hne := List.ne_nil_of_mem hp
  cases request with
  | cancel request =>
    rcases s.consistent.serve_cases (.cancel request) with d | ⟨y, ts, rests, take⟩
    · exact absurd d.tradePairs_nil hne
    · exact absurd take.positive (lt_irrefl 0)
  | submit request =>
    rcases submit_cases e.view request with ⟨_, same, h⟩ | ⟨ok, _, good, h⟩
    · exact absurd (declines_of_reject (.submit request) same h).tradePairs_nil hne
    · have take := s.consistent.accept_takes ok good h
      obtain ⟨f, _, told⟩ := exists_fill take.pairs hp
      have hcross := take.trades_iff.mp hne
      have hfresh : submission log e.view.nextExchangeOrderId = none := by
        have ho := origin e.view.nextExchangeOrderId
        cases hst : e.view.state e.view.nextExchangeOrderId with
        | none => rw [hst] at ho; exact ho
        | some st => exact absurd (s.consistent.known _ st hst).old (lt_irrefl _)
      have hanswer : e.view.serve (.submit request) =
          (e.view.reserve request.clientOrderId).accept request := h
      have hid : p.2.exchangeOrderId = e.view.nextExchangeOrderId := told.incoming
      refine ⟨request, ?_, fun hpost => ?_⟩
      · rw [hid, submission_append, hfresh, hanswer, Option.none_or]
        change submission (tag _ (([makeReport _ _ _ _ _ _] : List ExecutionReport) ++ _)) _ = _
        rw [tag_append, submission_append, submission_new rfl]
        exact congrArg (Option.or · _) (if_pos rfl)
      · have hno := (inadmissible_eq_none good).1 hpost
        change e.view.crosses request.side request.orderType request.priceTicks = true at hcross
        change e.view.crosses request.side request.orderType request.priceTicks = false at hno
        rw [hno] at hcross
        cases hcross
  | replace request =>
    rcases replace_cases e.view request with ⟨_, _, same, h⟩ | ⟨qty, price, fresh, resting, apart, h⟩
    · exact absurd (declines_of_reject (.replace request) same h).tradePairs_nil hne
    · have take := s.consistent.rework_takes qty price resting apart h
      obtain ⟨f, _, told⟩ := exists_fill take.pairs hp
      have hid : p.2.exchangeOrderId = request.exchangeOrderId := told.incoming
      obtain ⟨side, o, ho, hoid⟩ := s.consistent.isResting_iff.mp resting
      obtain ⟨submit, hsubmit, _⟩ := origin.stateAt (s.consistent.stateAt_order ho).1
      rw [hoid] at hsubmit
      refine ⟨submit, by rw [hid]; exact submission_some hsubmit, fun hpost => ⟨request, rfl, ?_⟩⟩
      exact
        { postOnly := ⟨submit, hsubmit, hpost⟩
          quantity := qty
          price := price
          fresh := by rw [reserveClientOrderId_eq, fresh]; rfl
          resting := by rw [findOrder_isSome s.wf s.consistent]; exact resting
          apart := by rw [s.wouldSelfTrade_own resting]; exact apart
          crossing := by rw [crosses_eq s.wf]; exact take.trades_iff.mp hne }

/-- A replace that makes a taker is answered with a fill of that order. -/
theorem Sound.makesTaker_trades (s : e.Sound) {request : ReplaceOrderRequest}
    (makes : MakesTaker e log request) :
    ∃ p ∈ tradePairs (e.serve (.replace request)).reports,
      p.2.exchangeOrderId = request.exchangeOrderId := by
  have resting : e.view.isResting request.exchangeOrderId = true := by
    rw [← findOrder_isSome s.wf s.consistent]
    exact makes.resting
  have apart := makes.apart
  rw [s.wouldSelfTrade_own resting] at apart
  have h := replace_accepts makes.quantity makes.price (reserve_isSome makes.fresh) resting apart
  have take := s.consistent.rework_takes makes.quantity makes.price resting apart h
  have hcross := makes.crossing
  rw [crosses_eq s.wf] at hcross
  obtain ⟨p, hp⟩ := List.exists_mem_of_ne_nil _ (take.trades_iff.mpr hcross)
  obtain ⟨f, _, told⟩ := exists_fill take.pairs hp
  rw [s.serve_reports]
  exact ⟨p, hp, told.incoming⟩

end Serve

/-- No order whose submit carried the flag is the incoming side of a fill. -/
def NeverTakes (log : List Entry) (reports : List ExecutionReport) : Prop :=
  ∀ p ∈ tradePairs reports, ∀ submit, submission log p.2.exchangeOrderId = some submit →
    submit.postOnly = false

theorem Sound.neverTakes_iff {e : MatchingEngine} (s : e.Sound) {log : List Entry}
    (origin : Origin log (e.view, none)) (requests : List Request) :
    NeverTakes (log ++ e.log requests) (e.run requests).reports ↔
      ∀ front request back, requests = front ++ .replace request :: back →
        ¬ MakesTaker (e.run front).engine (log ++ e.log front) request := by
  induction requests generalizing e log with
  | nil =>
    constructor
    · intro _ front request back h
      simp at h
    · intro _ p hp
      cases hp
  | cons request requests ih =>
    have s' := s.serve request
    have origin' : Origin (log ++ tag request (e.serve request).reports)
        ((e.serve request).engine.view, none) := by
      have h := s.run_origin origin [request]
      simpa [MatchingEngine.log, MatchingEngine.run] using h
    have tail := ih s' origin'
    have hpaired : Paired (fun _ _ => True) (e.serve request).reports := by
      rw [s.serve_reports]
      rcases s.consistent.serve_cases request with d | ⟨y, ts, rests, take⟩
      · obtain ⟨r, hr, hnot, _⟩ := d.answer
        rw [hr]
        exact .single hnot
      · obtain ⟨first, hkind, _, hserve⟩ := take.answer
        rw [hserve]
        exact (take.consistent.executed ts rests).paired.other
          (by rcases hkind with h | h <;> rw [h] <;> simp)
    have hlog : log ++ e.log (request :: requests) =
        log ++ tag request (e.serve request).reports ++ (e.serve request).engine.log requests :=
      (List.append_assoc _ _ _).symm
    have hreports : (e.run (request :: requests)).reports =
        (e.serve request).reports ++ ((e.serve request).engine.run requests).reports := rfl
    constructor
    · intro never front replace back hsplit
      cases front with
      | nil =>
        obtain ⟨rfl, rfl⟩ := List.cons.inj hsplit
        intro makes
        simp only [MatchingEngine.log, MatchingEngine.run, List.append_nil] at makes
        obtain ⟨p, hp, hid⟩ := s.makesTaker_trades makes
        obtain ⟨submit, hsubmit, hpost⟩ := makes.postOnly
        have h := never p (by
          rw [hreports, hpaired.tradePairs_append]
          exact List.mem_append_left _ hp) submit (by
          rw [hid]
          exact submission_some hsubmit)
        rw [hpost] at h
        cases h
      | cons first front =>
        obtain ⟨rfl, rfl⟩ := List.cons.inj hsplit
        have h := tail.mp (fun p hp submit hsubmit => never p (by
          rw [hreports, hpaired.tradePairs_append]
          exact List.mem_append_right _ hp) submit (by rw [hlog]; exact hsubmit)) front replace back rfl
        rw [List.append_assoc] at h
        exact h
    · intro good p hp submit hsubmit
      rw [hreports, hpaired.tradePairs_append] at hp
      rw [hlog] at hsubmit
      rcases List.mem_append.mp hp with hp | hp
      · obtain ⟨submit', hsubmit', hpost⟩ := s.taker_cases origin request hp
        rw [submission_some hsubmit'] at hsubmit
        rw [← Option.some.inj hsubmit]
        cases hflag : submit'.postOnly with
        | false => rfl
        | true =>
          obtain ⟨r, rfl, makes⟩ := hpost hflag
          have h := good [] r requests rfl
          simp only [MatchingEngine.log, MatchingEngine.run, List.append_nil] at h
          exact absurd makes h
      · refine tail.mpr (fun front replace back hsplit => ?_) p hp submit hsubmit
        have h := good (request :: front) replace back (by rw [hsplit]; rfl)
        rw [List.append_assoc]
        exact h

/-- Post-only orders never take liquidity exactly in the runs in which no replace is carried
out on one of them at a crossing price. -/
theorem post_only_never_takes_iff (symbolId : Nat) (requests : List Request) :
    NeverTakes ((new symbolId).log requests) ((new symbolId).run requests).reports ↔
      ∀ front request back, requests = front ++ .replace request :: back →
        ¬ MakesTaker ((new symbolId).run front).engine ((new symbolId).log front) request := by
  have hstart : Origin [] ((new symbolId).view, none) := by
    rw [new_view]
    exact new_origin symbolId
  exact (new_sound symbolId).neverTakes_iff hstart requests

def repricedPostOnly : List Request :=
  [.submit { clientOrderId := 1, symbolId := 1, side := .sell, priceTicks := 1002, quantity := 10 },
   .submit { clientOrderId := 2, symbolId := 1, side := .buy, priceTicks := 1001, quantity := 5
             postOnly := true },
   .replace { clientOrderId := 3, exchangeOrderId := 2, newPriceTicks := 1002, newQuantity := 5 }]

theorem post_only_takes_after_replace :
    ¬ ∀ requests : List Request,
      NeverTakes ((new 1).log requests) ((new 1).run requests).reports := by
  intro h
  have never := h repricedPostOnly
  have hpair : ∃ p ∈ tradePairs ((new 1).run repricedPostOnly).reports, p.2.exchangeOrderId = 2 := by
    decide
  have hsubmit : (submission ((new 1).log repricedPostOnly) 2).map (·.postOnly) = some true := by
    decide
  obtain ⟨p, hp, hid⟩ := hpair
  obtain ⟨submit, hs, hpost⟩ := Option.map_eq_some_iff.mp hsubmit
  have hflag := never p hp submit (by rw [hid]; exact hs)
  rw [hpost] at hflag
  cases hflag

end MatchingEngine
end Asterion
