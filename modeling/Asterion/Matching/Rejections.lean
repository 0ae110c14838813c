import Asterion.Matching.Answers

/-! A request that is refused leaves one report behind and, at most, its own client order id
in the set of used ones; a request that is not refused uses its client order id up. -/
namespace Asterion

open Lib

namespace MatchingEngine

def Request.clientOrderId : Request → Nat
  | .submit request => request.clientOrderId
  | .cancel request => request.clientOrderId
  | .replace request => request.clientOrderId

/-- The validation in front of the reservation of the client order id. -/
def Request.Validated (symbolId : Nat) : Request → Prop
  | .submit request =>
    (request.symbolId = symbolId ∧ isValidSide request.side = true) ∧
    (request.orderType = .limit ∨ request.orderType = .market) ∧
    0 < request.quantity ∧ (request.orderType = .limit → 0 < request.priceTicks) ∧
    (request.timeInForce = .gtc ∨ request.timeInForce = .ioc ∨ request.timeInForce = .fok) ∧
    (request.postOnly = true → request.orderType = .limit ∧ request.timeInForce = .gtc)
  | .cancel _ => True
  | .replace request => 0 < request.newQuantity ∧ 0 < request.newPriceTicks

def Rejects (w : Reporting) : Prop := ∃ r ∈ w.reports, r.exchangeOrderId = invalidOrderId

instance (w : Reporting) : Decidable (Rejects w) := inferInstanceAs (Decidable (∃ r ∈ w.reports, _))

structure Inert (e : MatchingEngine) (request : Request) (w : Reporting) : Prop where
  single : ∃ r, w.reports = [r]
  symbolId : w.engine.symbolId = e.symbolId
  book : w.engine.book = e.book
  states : w.engine.states = e.states
  clientToExchange : w.engine.clientToExchange = e.clientToExchange
  nextExchangeOrderId : w.engine.nextExchangeOrderId = e.nextExchangeOrderId
  seen : w.engine.seenClientOrderIds = e.seenClientOrderIds ∨
    request.Validated e.symbolId ∧ request.clientOrderId ≠ invalidClientOrderId ∧
      request.clientOrderId ∉ e.seenClientOrderIds ∧
      w.engine.seenClientOrderIds = insert request.clientOrderId e.seenClientOrderIds

/-- The client order ids of the requests of a run that were not refused. -/
def acceptedIds (e : MatchingEngine) : List Request → List Nat
  | [] => []
  | request :: requests =>
    (if Rejects (e.serve request) then [] else [request.clientOrderId]) ++
      (e.serve request).engine.acceptedIds requests

section Refusals
variable {e e' : MatchingEngine} {request : Request}

theorem inert_of_engine {w : Reporting} {r : ExecutionReport} (single : w.reports = [r])
    (engine : ∃ checksum, w.engine = { e with reportsChecksum := checksum }) : Inert e request w := by
  obtain ⟨checksum, engine⟩ := engine
  constructor
  · exact ⟨r, single⟩
  all_goals rw [engine]
  exact Or.inl rfl

theorem inert_unreserved (r : ExecutionReport) :
    Inert e request (Reporting.record { engine := e } r) :=
  inert_of_engine rfl ⟨_, Reporting.record_engine ..⟩

theorem reserve_eq_some {id : Nat} (h : e.reserveClientOrderId id = some e') :
    id ≠ invalidClientOrderId ∧ id ∉ e.seenClientOrderIds ∧
      e' = { e with seenClientOrderIds := insert id e.seenClientOrderIds } := by
  unfold reserveClientOrderId at h
  split at h
  · cases h
  · rename_i valid
    split at h
    · cases h
    · rename_i fresh
      exact ⟨valid, fresh, (Option.some.inj h).symm⟩

theorem inert_reserved (valid : request.Validated e.symbolId)
    (reserved : e.reserveClientOrderId request.clientOrderId = some e') (r : ExecutionReport) :
    Inert e request (Reporting.record { engine := e' } r) := by
  obtain ⟨named, fresh, same⟩ := reserve_eq_some reserved
  have inert : Inert e' request (Reporting.record { engine := e' } r) := inert_unreserved r
  obtain ⟨single, symbolId, book, states, client, next, seen⟩ := inert
  have seen' : (Reporting.record { engine := e' } r).engine.seenClientOrderIds =
      e'.seenClientOrderIds := by
    rcases seen with seen | ⟨_, _, absent, _⟩
    · exact seen
    · rw [same] at absent
      exact absurd (Finset.mem_insert_self _ _) absent
  rw [same] at symbolId book states client next seen' ⊢
  exact ⟨single, symbolId, book, states, client, next, Or.inr ⟨valid, named, fresh, seen'⟩⟩

end Refusals

section Reports
variable (w : Reporting)

/-! Behind the admission checks reports are only added. -/

theorem record_keeps (r : ExecutionReport) : w.reports ⊆ (w.record r).reports :=
  List.subset_append_left _ _

theorem closeWith_keeps (id : Nat) (status : OrderStatus) (execType : ExecType) (ts : Int)
    (reason : RejectReason) : w.reports ⊆ (closeWith w id status execType ts reason).reports :=
  record_keeps (w.setState id { w.engine.stateAt id with status }) _

theorem pair_keeps {w : Reporting} (w' : Reporting) (same : w'.reports = w.reports)
    (a b : ExecutionReport) : w.reports ⊆ ((w'.record a).record b).reports := by
  rw [← same]
  exact List.Subset.trans (record_keeps w' a) (record_keeps _ b)

theorem matchIteration_keeps (incoming : Nat) (remaining ts : Int) :
    w.reports ⊆ (matchIteration w incoming remaining ts).1.1.reports := by
  unfold matchIteration
  split
  · exact List.Subset.refl _
  · simp only
    split
    · exact record_keeps _ _
    · split
      · exact pair_keeps _ rfl _ _
      · exact List.Subset.trans (pair_keeps _ rfl _ _) (record_keeps _ _)

theorem matchLoop_keeps (incoming : Nat) (ts : Int) (fuel : Nat) (remaining : Int) :
    w.reports ⊆ (matchLoop incoming ts fuel w remaining).1.reports := by
  induction fuel generalizing w remaining with
  | zero => exact List.Subset.refl _
  | succ fuel ih =>
    unfold matchLoop
    simp only
    split
    · have once := matchIteration_keeps w incoming remaining ts
      split
      · rename_i next left heq
        rw [heq] at once
        exact List.Subset.trans once (ih next left)
      · rename_i result heq
        rw [heq] at once
        exact once
    · exact List.Subset.refl _

theorem restOrReject_keeps (id : Nat) (remaining ts : Int) :
    w.reports ⊆ (restOrReject w id remaining ts).reports := by
  have placed : (restLimitOrder w (w.engine.stateAt id) remaining ts).1.reports = w.reports := rfl
  unfold restOrReject
  split
  · rename_i w' heq
    rw [heq] at placed
    rw [← placed]
    exact List.Subset.refl _
  · rename_i w' heq
    rw [heq] at placed
    rw [← placed]
    exact closeWith_keeps _ _ _ _ _ _

theorem finishSubmit_keeps (request : NewOrderRequest) (id : Nat) (remaining : Int) :
    w.reports ⊆ (finishSubmit w request id remaining).reports := by
  unfold finishSubmit
  split
  · simp only
    split
    · exact restOrReject_keeps (w.setState _ _) _ _ _
    · exact restOrReject_keeps w _ _ _
  · split
    · exact closeWith_keeps _ _ _ _ _ _
    · exact List.Subset.refl _

theorem finishReplace_keeps (request : ReplaceOrderRequest) (remaining : Int) :
    w.reports ⊆ (finishReplace w request remaining).reports := by
  unfold finishReplace
  split
  · simp only
    split
    · exact restOrReject_keeps (w.setState _ _) _ _ _
    · exact restOrReject_keeps w _ _ _
  · exact List.Subset.refl _

theorem acceptOrder_announced (e : MatchingEngine) (request : NewOrderRequest) :
    ∃ r ∈ (e.acceptOrder request).reports, r.execType = .new := by
  unfold acceptOrder
  simp only
  refine ⟨_, finishSubmit_keeps _ _ _ _ (matchLoop_keeps _ _ _ _ _
    (List.mem_append_right _ (List.mem_singleton_self _))), rfl⟩

theorem reworkOrder_announced (request : ReplaceOrderRequest) :
    ∃ r ∈ (reworkOrder w request).reports, r.execType = .replaced := by
  unfold reworkOrder
  simp only
  refine ⟨_, finishReplace_keeps _ _ _ (matchLoop_keeps _ _ _ _ _
    (List.mem_append_right _ (List.mem_singleton_self _))), rfl⟩

end Reports
def Speaks (w : Reporting) : Prop :=
  ∃ r ∈ w.reports, r.exchangeOrderId ≠ invalidOrderId ∨ r.execType ≠ .rejected

theorem closeWith_speaks {w : Reporting} {id : Nat}
    (named : (w.engine.stateAt id).exchangeOrderId ≠ invalidOrderId) (status : OrderStatus)
    (execType : ExecType) (ts : Int) (reason : RejectReason) :
    Speaks (closeWith w id status execType ts reason) := by
  have stored : (w.setState id { w.engine.stateAt id with status }).engine.stateAt id =
      { w.engine.stateAt id with status } := by
    unfold stateAt Reporting.setState
    simp only [AList.lookup_insert, Option.getD_some]
  refine ⟨_, List.mem_append_right _ (List.mem_singleton_self _), Or.inl ?_⟩
  rw [stored]
  exact named

section Dichotomy
variable (e : MatchingEngine)

/-- Every stored state is filed under an id that is not the invalid one. -/
def Named : Prop :=
  ∀ id st, e.states.lookup id = some st → st.exchangeOrderId ≠ invalidOrderId

variable {e} in
theorem Named.found (named : e.Named) {id : Nat} {b : Bool}
    (known : ¬ ((e.states.lookup id).isNone || b) = true) :
    (e.stateAt id).exchangeOrderId ≠ invalidOrderId := by
  cases stored : e.states.lookup id with
  | none => simp [stored] at known
  | some st =>
    unfold stateAt
    rw [stored]
    exact named id st stored

theorem submitOrder_inert (request : NewOrderRequest) :
    Inert e (.submit request) (e.submitOrder request) ∨ Speaks (e.submitOrder request) := by
  have accepted : ∀ e' : MatchingEngine, Speaks (e'.acceptOrder request) := by
    intro e'
    obtain ⟨r, hr, kind⟩ := acceptOrder_announced e' request
    exact ⟨r, hr, Or.inr (by rw [kind]; decide)⟩
  unfold submitOrder
  simp only
  split
  · exact Or.inl (inert_unreserved _)
  rename_i addressed
  split
  · exact Or.inl (inert_unreserved _)
  rename_i kind
  split
  · exact Or.inl (inert_unreserved _)
  rename_i quantity
  split
  · exact Or.inl (inert_unreserved _)
  rename_i price
  split
  · exact Or.inl (inert_unreserved _)
  rename_i time
  split
  · exact Or.inl (inert_unreserved _)
  rename_i passive
  have valid : (Request.submit request).Validated e.symbolId := by
    refine ⟨by simpa using addressed, by tauto, not_le.mp quantity, fun limit => ?_, by tauto,
      fun post => by tauto⟩
    exact not_le.mp fun low => price ⟨limit, low⟩
  split
  · exact Or.inl (inert_unreserved _)
  rename_i e' reserved
  split
  · exact Or.inl (inert_reserved valid reserved _)
  split
  · exact Or.inl (inert_reserved valid reserved _)
  split
  · exact Or.inl (inert_reserved valid reserved _)
  · exact Or.inr (accepted e')

theorem cancelOrder_inert (named : e.Named) (request : CancelOrderRequest) :
    Inert e (.cancel request) (e.cancelOrder request) ∨ Speaks (e.cancelOrder request) := by
  unfold cancelOrder
  simp only
  split
  · exact Or.inl (inert_unreserved _)
  rename_i e' reserved
  have named' : e'.Named := by
    obtain ⟨_, _, rfl⟩ := reserve_eq_some reserved
    exact named
  split
  · have valid : (Request.cancel request).Validated e.symbolId := trivial
    exact Or.inl (inert_reserved valid reserved _)
  rename_i known
  split
  · exact Or.inr (closeWith_speaks (named'.found known) _ _ _ _)
  · exact Or.inr (closeWith_speaks (named'.found known) _ _ _ _)

theorem replaceOrder_inert (named : e.Named) (request : ReplaceOrderRequest) :
    Inert e (.replace request) (e.replaceOrder request) ∨ Speaks (e.replaceOrder request) := by
  unfold replaceOrder
  simp only
  split
  · exact Or.inl (inert_unreserved _)
  rename_i quantity
  split
  · exact Or.inl (inert_unreserved _)
  rename_i price
  have valid : (Request.replace request).Validated e.symbolId :=
    ⟨not_le.mp quantity, not_le.mp price⟩
  split
  · exact Or.inl (inert_unreserved _)
  rename_i e' reserved
  have named' : e'.Named := by
    obtain ⟨_, _, rfl⟩ := reserve_eq_some reserved
    exact named
  split
  · exact Or.inl (inert_reserved valid reserved _)
  rename_i known
  split
  · exact Or.inl (inert_reserved valid reserved _)
  split
  · exact Or.inr (closeWith_speaks (named'.found known) _ _ _ _)
  · rename_i book _
    obtain ⟨r, hr, kind⟩ := reworkOrder_announced { engine := { e' with book } } request
    exact Or.inr ⟨r, hr, Or.inr (by rw [kind]; decide)⟩

/-- A request leaves nothing behind, or its answer tells more than a refusal. -/
theorem serve_inert (named : e.Named) (request : Request) :
    Inert e request (e.serve request) ∨ Speaks (e.serve request) := by
  cases request with
  | submit request => exact submitOrder_inert e request
  | cancel request => exact cancelOrder_inert e named request
  | replace request => exact replaceOrder_inert e named request

end Dichotomy
end MatchingEngine

namespace Exchange

open MatchingEngine (Request)

section Taken
variable {x : Exchange} {i : Nat} {wanted : Int}

theorem Consistent.trades_named (c : Consistent x (some (i, wanted))) (ts : Int) :
    ∀ r ∈ (x.trades i ts (x.sweep i wanted)).2, r.exchangeOrderId ≠ invalidOrderId := by
  obtain ⟨paired, told⟩ := c.trades_reports ts
  have kind : ∀ (y : Exchange) (fs : List (Order × Int)), ∀ r ∈ (y.trades i ts fs).2,
      r.execType = .trade := by
    intro y fs
    induction fs generalizing y with
    | nil => exact fun _ h => by cases h
    | cons f fs ih =>
      intro r hr
      rcases List.mem_append.mp hr with hr | hr
      · rcases List.mem_cons.mp hr with rfl | hr
        · rfl
        · rw [List.mem_singleton.mp hr]
          rfl
      · exact ih _ r hr
  intro r hr
  have traded : r ∈ (x.trades i ts (x.sweep i wanted)).2.filter (fun r => r.execType = .trade) := by
    rw [List.mem_filter]
    exact ⟨hr, decide_eq_true (kind x _ r hr)⟩
  rw [paired.filter_trade, List.mem_flatMap] at traded
  obtain ⟨p, hp, hr⟩ := traded
  obtain ⟨f, hf, tells⟩ := exists_fill told hp
  rcases List.mem_cons.mp hr with rfl | hr
  · have ho : f.1 ∈ x.queue (opposite (x.stateAt i).side) :=
      (Sweep.mem_fills (fun a ha => c.quantity_pos ha) hf).1
    rw [tells.resting]
    exact (c.knownAt (c.stateAt_order ho).1).positive.ne'
  · rw [List.mem_singleton.mp hr, tells.incoming]
    exact (c.knownAt (c.inHand i wanted rfl).stored).positive.ne'

theorem Consistent.execute_named (c : Consistent x (some (i, wanted))) (rests : Bool) (ts : Int) :
    ∀ r ∈ (x.execute i wanted rests ts).2, r.exchangeOrderId ≠ invalidOrderId := by
  have m := c.matched ts
  have ok := c.knownAt (c.inHand i wanted rfl).stored
  have own : ((x.trades i ts (x.sweep i wanted)).1.stateAt i).exchangeOrderId ≠ invalidOrderId := by
    rw [m.fixed (·.exchangeOrderId) (fun _ _ _ => rfl), ok.own]
    exact ok.positive.ne'
  have close : ∀ status execType reason, ∀ r ∈ ((x.trades i ts (x.sweep i wanted)).1.close i status
      execType ts reason).2, r.exchangeOrderId ≠ invalidOrderId := by
    intro status execType reason r hr
    rw [List.mem_singleton.mp hr, stateAt_setState_same]
    exact own
  intro r hr
  rcases List.mem_append.mp hr with hr | hr
  · exact c.trades_named ts r hr
  · split at hr
    · split at hr
      · unfold Exchange.rest at hr
        split at hr
        · exact close _ _ _ r hr
        · cases hr
      · exact close _ _ _ r hr
    · cases hr

theorem Step.seen {s t : Session} {l : List Entry} (step : Step s l t) : s.1.seen ⊆ t.1.seen := by
  cases step with
  | reserve id => exact Finset.subset_insert _ _
  | rest _ symbol _ _ =>
    dsimp only
    unfold Exchange.rest
    rw [if_neg symbol]
  | _ => exact Finset.Subset.refl _

theorem seen_of_trace {s t : Session} {l : List Entry} (tr : Trace Step s l t) :
    s.1.seen ⊆ t.1.seen :=
  Trace.invariant (I := fun _ (u : Session) => s.1.seen ⊆ u.1.seen) (h := [])
    (fun hs step => Finset.Subset.trans hs step.seen) (Finset.Subset.refl _) tr

/-- The exchange refuses with one report, or it uses the client order id up and names an
order in every report. -/
theorem Consistent.serve_named (c : Consistent x none) (request : Request) :
    (∃ r, (x.serve request).2 = [r] ∧ r.exchangeOrderId = invalidOrderId ∧ r.execType = .rejected) ∨
    (request.clientOrderId ∉ x.seen ∧ request.clientOrderId ∈ (x.serve request).1.seen ∧
      ∀ r ∈ (x.serve request).2, r.exchangeOrderId ≠ invalidOrderId) := by
  have unused : ∀ id, x.reusedId id = false → id ∉ x.seen := by
    intro id h
    unfold reusedId at h
    exact fun hmem => of_decide_eq_false h (Or.inr hmem)
  have takes : ∀ y ts rests, TakesInHand x request y ts rests →
      ∀ r ∈ (x.serve request).2, r.exchangeOrderId ≠ invalidOrderId := by
    intro y ts rests t
    obtain ⟨first, _, own, answer⟩ := t.answer
    have ok := t.consistent.knownAt (t.consistent.inHand _ _ rfl).stored
    rw [answer]
    intro r hr
    rcases List.mem_cons.mp hr with rfl | hr
    · rw [own]
      exact ok.positive.ne'
    · exact t.consistent.execute_named rests ts r hr
  have c₁ := c.reserve request.clientOrderId
  cases request with
  | submit request =>
    rcases submit_cases x request with ⟨_, _, h⟩ | ⟨ok, fresh, good, h⟩
    · exact Or.inl ⟨_, h, rfl, rfl⟩
    · refine Or.inr ⟨unused _ fresh, ?_, takes _ _ _ (c.accept_takes ok good h)⟩
      have grown := seen_of_trace (c₁.accept_trace ok good)
      change _ ∈ (x.submit request).1.seen
      rw [h]
      exact grown (Finset.mem_insert_self _ _)
  | replace request =>
    rcases replace_cases x request with ⟨_, _, _, h⟩ | ⟨hqty, hprice, fresh, resting, apart, h⟩
    · exact Or.inl ⟨_, h, rfl, rfl⟩
    · refine Or.inr ⟨unused _ fresh, ?_, takes _ _ _ (c.rework_takes hqty hprice resting apart h)⟩
      obtain ⟨s, o, ho, hid⟩ := c₁.isResting_iff.mp resting
      have grown := seen_of_trace (c₁.rework_trace ho hid hqty hprice (by rw [hid]; exact apart))
      change _ ∈ (x.replace request).1.seen
      rw [h]
      exact grown (Finset.mem_insert_self _ _)
  | cancel request =>
    change (∃ r, (x.cancel request).2 = [r] ∧ _) ∨ (_ ∧ _ ∈ (x.cancel request).1.seen ∧
      ∀ r ∈ (x.cancel request).2, _)
    unfold cancel
    simp only
    split
    · exact Or.inl ⟨_, rfl, rfl, rfl⟩
    · rename_i fresh
      split
      · rename_i resting
        obtain ⟨s, o, ho, hid⟩ := c₁.isResting_iff.mp resting
        have ok := c₁.knownAt (c₁.stateAt_order ho).1
        rw [← hid]
        refine Or.inr ⟨unused _ (Bool.eq_false_iff.mpr fresh), ?_, ?_⟩
        · exact seen_of_trace (.single (Step.withdraw (.cancel request) request.timestampNs ho))
            (Finset.mem_insert_self _ _)
        · intro r hr
          rw [List.mem_singleton.mp hr, stateAt_setState_same]
          exact ok.own.trans_ne ok.positive.ne'
      · exact Or.inl ⟨_, rfl, rfl, rfl⟩

end Taken
end Exchange

namespace MatchingEngine

section Requests
variable {e : MatchingEngine}

theorem Sound.named (s : e.Sound) : e.Named := by
  intro id st stored
  have ok := s.consistent.known id st stored
  rw [ok.own]
  exact ok.positive.ne'

/-- A request is refused and inert, or it is accepted and uses a fresh client order id up. -/
theorem Sound.refused_or_used (s : e.Sound) (request : Request) :
    (Rejects (e.serve request) ∧ Inert e request (e.serve request)) ∨
    (¬ Rejects (e.serve request) ∧ request.clientOrderId ∉ e.seenClientOrderIds ∧
      request.clientOrderId ∈ (e.serve request).engine.seenClientOrderIds) := by
  have reports := s.serve_reports request
  have view := s.serve_view request
  rcases s.consistent.serve_named request with ⟨r, single, unnamed, kind⟩ | ⟨fresh, used, named⟩
  · rw [← reports] at single
    have rejects : Rejects (e.serve request) :=
      ⟨r, by rw [single]; exact List.mem_singleton_self r, unnamed⟩
    rcases serve_inert e s.named request with inert | ⟨q, hq, speaks⟩
    · exact Or.inl ⟨rejects, inert⟩
    · rw [single, List.mem_singleton] at hq
      subst hq
      rcases speaks with speaks | speaks
      · exact absurd unnamed speaks
      · exact absurd kind speaks
  · rw [← reports] at named
    rw [← view] at used
    exact Or.inr ⟨fun ⟨r, hr, unnamed⟩ => named r hr unnamed, fresh, used⟩

theorem Sound.seen_serve (s : e.Sound) (request : Request) :
    e.seenClientOrderIds ⊆ (e.serve request).engine.seenClientOrderIds := by
  have grown := Exchange.seen_of_trace (s.consistent.serve_trace request)
  rw [← s.serve_view] at grown
  exact grown

/-- What a run accepts was not used before, and is not accepted twice. -/
theorem Sound.acceptedIds_fresh (s : e.Sound) (requests : List Request) :
    (∀ id ∈ e.acceptedIds requests, id ∉ e.seenClientOrderIds) ∧ (e.acceptedIds requests).Nodup := by
  induction requests generalizing e with
  | nil => exact ⟨fun _ h => (by cases h), .nil⟩
  | cons request requests ih =>
    obtain ⟨later, distinct⟩ := ih (s.serve request)
    have before : ∀ id ∈ (e.serve request).engine.acceptedIds requests,
        id ∉ e.seenClientOrderIds := fun id hid used => later id hid (s.seen_serve request used)
    unfold acceptedIds
    rcases s.refused_or_used request with ⟨rejects, _⟩ | ⟨accepts, fresh, used⟩
    · rw [if_pos rejects]
      exact ⟨before, distinct⟩
    · rw [if_neg accepts]
      constructor
      · intro id hid
        rcases List.mem_cons.mp hid with rfl | hid
        · exact fresh
        · exact before id hid
      · exact List.nodup_cons.mpr ⟨fun hid => later _ hid used, distinct⟩

end Requests

/-- Whatever an engine has served, a refused request is inert, and no client order id is
ever accepted twice. -/
theorem rejected_inert (symbolId : Nat) (requests : List Request) :
    (∀ request, Rejects (((new symbolId).run requests).engine.serve request) →
      Inert ((new symbolId).run requests).engine request
        (((new symbolId).run requests).engine.serve request)) ∧
    ((new symbolId).acceptedIds requests).Nodup := by
  constructor
  · intro request rejects
    rcases ((new_sound symbolId).run requests).refused_or_used request with ⟨_, inert⟩ | ⟨accepts, _⟩
    · exact inert
    · exact absurd rejects accepts
  · exact ((new_sound symbolId).acceptedIds_fresh requests).2

/-- A second order under a used client order id. -/
theorem rejected_inert_second_use :
    let first : NewOrderRequest :=
      { clientOrderId := 5, symbolId := 1, side := .buy, priceTicks := 100, quantity := 10 }
    let e := ((new 1).run [.submit first]).engine
    Inert e (.submit { first with priceTicks := 90 }) (e.serve (.submit { first with priceTicks := 90 })) ∧
      ((new 1).acceptedIds [.submit first]).Nodup :=
  ⟨(rejected_inert 1 _).1 _ (by decide +kernel), (rejected_inert 1 _).2⟩

end MatchingEngine
end Asterion
