import Asterion.Lib.WeightedMean
import Asterion.Matching.Answers
import Asterion.Matching.OpenOrders

/-! Conservation: the reports of an order always add up to the quantities stored for it,
and what is bought is sold. -/
namespace Asterion

open Lib Lib.WeightedMean
open MatchingEngine (Request)
open Exchange (Entry Session tag Step Consistent)

/-- Two Trade reports of one fill, the resting side first. -/
structure Settles (a b : ExecutionReport) : Prop where
  sides : a.side = opposite b.side
  valid : isValidSide b.side = true
  quantity : a.lastFillQuantity = b.lastFillQuantity
  price : a.lastFillPriceTicks = b.lastFillPriceTicks
  positive : 0 < a.lastFillQuantity

def volume (side : Side) (reports : List ExecutionReport) : Int :=
  ((reports.filter (fun r => r.execType = .trade ∧ r.side = side)).map (·.lastFillQuantity)).sum

theorem volume_cons (side : Side) (r : ExecutionReport) (rs : List ExecutionReport) :
    volume side (r :: rs) =
      (if r.execType = .trade ∧ r.side = side then r.lastFillQuantity else 0) + volume side rs := by
  by_cases h : r.execType = .trade ∧ r.side = side
  · rw [if_pos h, volume, List.filter_cons_of_pos (by simpa using h)]
    rfl
  · rw [if_neg h, volume, List.filter_cons_of_neg (by simpa using h), zero_add]
    rfl

theorem Paired.volume_eq {rs : List ExecutionReport} (h : Paired Settles rs) :
    volume .buy rs = volume .sell rs := by
  induction h with
  | nil => rfl
  | other hr _ ih => rw [volume_cons, volume_cons, ih, if_neg (fun h => hr h.1), if_neg (fun h => hr h.1)]
  | @pair a b rs ha hb hm _ ih =>
    obtain ⟨hs, hv, hq, _, _⟩ := hm
    rw [volume_cons, volume_cons, volume_cons, volume_cons, ih]
    cases hside : b.side with
    | none => rw [hside] at hv; cases hv
    | buy =>
      rw [hside] at hs
      simp [ha, hb, hs, opposite, hq]
    | sell =>
      rw [hside] at hs
      simp [ha, hb, hs, opposite, hq]

def OrderStatus.Terminal (status : OrderStatus) : Prop :=
  status = .filled ∨ status = .canceled ∨ status = .rejected

/-- A report adds up with the reports so far, itself included. -/
structure Accounted (log : List Entry) (r : ExecutionReport) : Prop where
  filled : total (fillsOf log r.exchangeOrderId) = r.filledQuantity
  grows : ∀ entry ∈ about log r.exchangeOrderId, entry.2.filledQuantity ≤ r.filledQuantity
  requested : ¬ r.orderStatus.Terminal →
    r.filledQuantity + r.remainingQuantity = requestedQuantity log r.exchangeOrderId
  average : 0 < r.filledQuantity → r.averagePriceTicks =
    weighted (fillsOf log r.exchangeOrderId) / total (fillsOf log r.exchangeOrderId)
  atLeast : 0 < r.filledQuantity → ∃ fill ∈ fillsOf log r.exchangeOrderId,
    0 < fill.1 ∧ fill.2 ≤ r.averagePriceTicks
  atMost : 0 < r.filledQuantity → ∃ fill ∈ fillsOf log r.exchangeOrderId,
    0 < fill.1 ∧ r.averagePriceTicks ≤ fill.2

/-- The log adds up to the stored states, and did after each of its entries. -/
structure Ledger (log : List Entry) (stateAt : Nat → OrderState) : Prop where
  filled : ∀ id, total (fillsOf log id) = (stateAt id).filledQuantity
  notional : ∀ id, weighted (fillsOf log id) = (stateAt id).filledNotionalTicks
  requested : ∀ id, requestedQuantity log id = (stateAt id).originalQuantity
  nonneg : ∀ id, ∀ fill ∈ fillsOf log id, 0 ≤ fill.1 ∧ 0 ≤ fill.2
  grows : ∀ id, ∀ entry ∈ about log id, entry.2.filledQuantity ≤ (stateAt id).filledQuantity
  accounted : ∀ front request r, front ++ [(request, r)] <+: log →
    Accounted (front ++ [(request, r)]) r

theorem about_append_same {log : List Entry} {entry : Entry} :
    about (log ++ [entry]) entry.2.exchangeOrderId = about log entry.2.exchangeOrderId ++ [entry] := by
  simp [about]

theorem about_append_other {log : List Entry} {entry : Entry} {id : Nat}
    (h : id ≠ entry.2.exchangeOrderId) : about (log ++ [entry]) id = about log id := by
  simp [about, Ne.symm h]

/-- What an entry must say for the ledger to stay balanced when it is written, together
with the new state of its order. -/
structure Balances (old new : OrderState) (entry : Entry) : Prop where
  filled : new.filledQuantity = old.filledQuantity + entry.2.lastFillQuantity
  notional : new.filledNotionalTicks =
    old.filledNotionalTicks + entry.2.lastFillQuantity * entry.2.lastFillPriceTicks
  requested : new.originalQuantity = requestedAfter old.originalQuantity entry
  nonneg : 0 ≤ entry.2.lastFillQuantity ∧ 0 ≤ entry.2.lastFillPriceTicks
  tellsFilled : entry.2.filledQuantity = new.filledQuantity
  tellsOpen : ¬ entry.2.orderStatus.Terminal →
    entry.2.filledQuantity + entry.2.remainingQuantity = new.originalQuantity
  tellsAverage : entry.2.averagePriceTicks = averagePriceTicks new

theorem fillsOf_append_same {log : List Entry} {entry : Entry} :
    fillsOf (log ++ [entry]) entry.2.exchangeOrderId = fillsOf log entry.2.exchangeOrderId ++
      [(entry.2.lastFillQuantity, entry.2.lastFillPriceTicks)] := by
  rw [fillsOf, about_append_same, List.map_append]
  rfl

theorem fillsOf_append_other {log : List Entry} {entry : Entry} {id : Nat}
    (h : id ≠ entry.2.exchangeOrderId) : fillsOf (log ++ [entry]) id = fillsOf log id := by
  rw [fillsOf, about_append_other h]
  rfl

/-- A report that tells the state of its order adds up where the log adds up to that state. -/
theorem accounted_of {log : List Entry} {r : ExecutionReport} {st : OrderState}
    (filled : total (fillsOf log r.exchangeOrderId) = st.filledQuantity)
    (notional : weighted (fillsOf log r.exchangeOrderId) = st.filledNotionalTicks)
    (requested : requestedQuantity log r.exchangeOrderId = st.originalQuantity)
    (nonneg : ∀ fill ∈ fillsOf log r.exchangeOrderId, 0 ≤ fill.1 ∧ 0 ≤ fill.2)
    (grows : ∀ e ∈ about log r.exchangeOrderId, e.2.filledQuantity ≤ st.filledQuantity)
    (tellsFilled : r.filledQuantity = st.filledQuantity)
    (tellsOpen : ¬ r.orderStatus.Terminal →
      r.filledQuantity + r.remainingQuantity = st.originalQuantity)
    (tellsAverage : r.averagePriceTicks = averagePriceTicks st) : Accounted log r := by
  have hsum : total (fillsOf log r.exchangeOrderId) = r.filledQuantity :=
    filled.trans tellsFilled.symm
  have hpos : 0 < r.filledQuantity → 0 < total (fillsOf log r.exchangeOrderId) := fun h => hsum ▸ h
  have hw : ∀ p ∈ fillsOf log r.exchangeOrderId, 0 ≤ p.1 := fun p hp => (nonneg p hp).1
  have haverage : 0 < r.filledQuantity → r.averagePriceTicks =
      weighted (fillsOf log r.exchangeOrderId) / total (fillsOf log r.exchangeOrderId) := by
    intro h
    rw [tellsAverage, averagePriceTicks, if_neg (by omega), filled, ← notional,
      Int.tdiv_eq_ediv_of_nonneg (weighted_nonneg nonneg)]
  exact
    { filled := hsum
      grows := fun e he => (grows e he).trans_eq tellsFilled.symm
      requested := fun h => (tellsOpen h).trans requested.symm
      average := haverage
      atLeast := by
        intro h
        rw [haverage h]
        exact exists_le_mean hw (hpos h)
      atMost := by
        intro h
        rw [haverage h]
        exact exists_mean_le hw (hpos h) }

/-- Writing a balanced entry. -/
theorem Ledger.write {log : List Entry} {f g : Nat → OrderState} (ledger : Ledger log f)
    (entry : Entry)
    (other : ∀ id, id ≠ entry.2.exchangeOrderId → g id = f id)
    (b : Balances (f entry.2.exchangeOrderId) (g entry.2.exchangeOrderId) entry) :
    Ledger (log ++ [entry]) g := by
  have filled : ∀ id, total (fillsOf (log ++ [entry]) id) = (g id).filledQuantity := by
    intro id
    by_cases h : id = entry.2.exchangeOrderId
    · rw [h, fillsOf_append_same, total_append, ledger.filled, b.filled]
      simp
    · rw [fillsOf_append_other h, ledger.filled, other id h]
  have notional : ∀ id, weighted (fillsOf (log ++ [entry]) id) = (g id).filledNotionalTicks := by
    intro id
    by_cases h : id = entry.2.exchangeOrderId
    · rw [h, fillsOf_append_same, weighted_append, ledger.notional, b.notional]
      simp
    · rw [fillsOf_append_other h, ledger.notional, other id h]
  have requested : ∀ id, requestedQuantity (log ++ [entry]) id = (g id).originalQuantity := by
    intro id
    by_cases h : id = entry.2.exchangeOrderId
    · rw [h, requestedQuantity, about_append_same, List.foldl_append, b.requested,
        ← ledger.requested]
      rfl
    · rw [requestedQuantity, about_append_other h, other id h, ← ledger.requested id]
      rfl
  have nonneg : ∀ id, ∀ fill ∈ fillsOf (log ++ [entry]) id, 0 ≤ fill.1 ∧ 0 ≤ fill.2 := by
    intro id fill hmem
    by_cases h : id = entry.2.exchangeOrderId
    · rw [h, fillsOf_append_same] at hmem
      rcases List.mem_append.mp hmem with hmem | hmem
      · exact ledger.nonneg _ fill hmem
      · rw [List.mem_singleton.mp hmem]
        exact b.nonneg
    · rw [fillsOf_append_other h] at hmem
      exact ledger.nonneg id fill hmem
  have grows : ∀ id, ∀ e ∈ about (log ++ [entry]) id, e.2.filledQuantity ≤ (g id).filledQuantity := by
    intro id e hmem
    by_cases h : id = entry.2.exchangeOrderId
    · rw [h, about_append_same] at hmem
      rw [h]
      rcases List.mem_append.mp hmem with hmem | hmem
      · have := ledger.grows _ e hmem
        have := b.filled
        have := b.nonneg.1
        omega
      · rw [List.mem_singleton.mp hmem, b.tellsFilled]
    · rw [about_append_other h] at hmem
      rw [other id h]
      exact ledger.grows id e hmem
  refine ⟨filled, notional, requested, nonneg, grows, ?_⟩
  intro front request r hprefix
  rcases (List.prefix_concat_iff.mp hprefix).symm with hprefix | hprefix
  · exact ledger.accounted front request r hprefix
  · obtain ⟨rfl, hentry⟩ := List.append_singleton_inj.mp hprefix
    subst hentry
    exact accounted_of (filled _) (notional _) (requested _) (nonneg _) (grows _) b.tellsFilled
      b.tellsOpen b.tellsAverage

section Steps

open Exchange

theorem makeReport_open {st : OrderState} {execType : ExecType} {n p ts : Int} {reason : RejectReason}
    (h : 0 ≤ st.originalQuantity - st.filledQuantity)
    (working : ¬ (makeReport st execType n p ts reason).orderStatus.Terminal) :
    (makeReport st execType n p ts reason).filledQuantity +
      (makeReport st execType n p ts reason).remainingQuantity = st.originalQuantity := by
  have hstatus : ¬ (st.status = .canceled ∨ st.status = .filled ∨ st.status = .rejected) := by
    intro hs
    apply working
    rcases hs with hs | hs | hs
    · exact Or.inr (Or.inl hs)
    · exact Or.inl hs
    · exact Or.inr (Or.inr hs)
  simp only [makeReport, if_neg hstatus, remainingQuantity_eq h]
  omega

theorem balances_fill {st : OrderState} {n p ts : Int} {request : Request} (n_nonneg : 0 ≤ n)
    (p_nonneg : 0 ≤ p) (le : n ≤ st.originalQuantity - st.filledQuantity) :
    Balances st (st.fill n p) (request, makeReport (st.fill n p) .trade n p ts .none) where
  filled := rfl
  notional := rfl
  requested := by cases request <;> rfl
  nonneg := ⟨n_nonneg, p_nonneg⟩
  tellsFilled := rfl
  tellsOpen := makeReport_open (by rw [fill_original, fill_filled]; omega)
  tellsAverage := rfl

theorem balances_close {st : OrderState} {status : OrderStatus} {execType : ExecType} {ts : Int}
    {reason : RejectReason} {request : Request} (ended : status = .canceled ∨ status = .rejected)
    (kind : execType = .canceled ∨ execType = .rejected) :
    Balances st { st with status } (request, makeReport { st with status } execType 0 0 ts reason)
    where
  filled := (add_zero _).symm
  notional := by simp [makeReport]
  requested := by rcases kind with rfl | rfl <;> cases request <;> rfl
  nonneg := ⟨le_rfl, le_rfl⟩
  tellsFilled := rfl
  tellsOpen := fun h => absurd (ended.elim (fun h => Or.inr (Or.inl h)) (fun h => Or.inr (Or.inr h))) h
  tellsAverage := rfl

theorem balances_reject {st : OrderState} (fresh : st = {}) (request : Request)
    (clientOrderId symbolId : Nat) (side : Side) (ts : Int) (reason : RejectReason) :
    Balances st st (request, makeReject clientOrderId symbolId side ts reason) := by
  subst fresh
  exact
    { filled := rfl
      notional := rfl
      requested := by cases request <;> rfl
      nonneg := ⟨le_rfl, le_rfl⟩
      tellsFilled := rfl
      tellsOpen := fun h => absurd (Or.inr (Or.inr rfl)) h
      tellsAverage := rfl }

variable {h l : List Entry} {s t : Session}

theorem stateAt_update {x y : Exchange} {i : Nat} {st : OrderState}
    (hst : y.state = Function.update x.state i (some st)) :
    y.stateAt i = st ∧ ∀ j, j ≠ i → y.stateAt j = x.stateAt j := by
  constructor
  · exact stateAt_eq (by rw [hst, Function.update_self])
  · intro j hj
    rw [stateAt, hst, Function.update_of_ne hj]
    rfl

theorem Ledger.single {x y : Exchange} (ledger : Ledger h x.stateAt) (request : Request) {i : Nat}
    (st : OrderState) {r : ExecutionReport} (hst : y.state = Function.update x.state i (some st))
    (own : r.exchangeOrderId = i) (b : Balances (x.stateAt i) st (request, r)) :
    Ledger (h ++ tag request [r]) y.stateAt := by
  obtain ⟨hself, hother⟩ := stateAt_update hst
  refine ledger.write (request, r) (fun id hid => hother id ?_) ?_
  · exact own ▸ hid
  · change Balances (x.stateAt r.exchangeOrderId) (y.stateAt r.exchangeOrderId) _
    rw [own, hself]
    exact b

theorem Ledger.silent {f g : Nat → OrderState} (ledger : Ledger h f) (same : g = f) :
    Ledger (h ++ []) g := by
  rw [same, List.append_nil]
  exact ledger

theorem Exchange.Step.ledger (step : Step s l t) (c : Consistent s.1 s.2) (ledger : Ledger h s.1.stateAt) :
    Ledger (h ++ l) t.1.stateAt := by
  cases step with
  | refuse request clientOrderId symbolId side ts _ =>
    exact ledger.write (request, makeReject clientOrderId symbolId side ts _)
      (fun _ _ => rfl) (balances_reject c.stateAt_zero ..)
  | reserve => exact ledger.silent rfl
  | @enlist x request ok _ _ =>
    refine ledger.single _ (i := x.nextExchangeOrderId) (x.accepted request) rfl rfl ?_
    rw [c.stateAt_next]
    exact
      { filled := rfl
        notional := rfl
        requested := rfl
        nonneg := ⟨le_rfl, le_rfl⟩
        tellsFilled := rfl
        tellsOpen := makeReport_open (by
          have hpos := (malformed_eq_none ok).2.2.1
          exact (sub_zero request.quantity).symm ▸ hpos.le)
        tellsAverage := rfl }
  | @reopen x request s o ho hid hqty _ _ =>
    have own := (c.knownAt (c.stateAt_order ho).1).own
    rw [hid] at own
    refine ledger.single _ (i := request.exchangeOrderId) _ rfl own ?_
    exact
      { filled := (add_zero _).symm
        notional := by simp [makeReport]
        requested := rfl
        nonneg := ⟨le_rfl, le_rfl⟩
        tellsFilled := rfl
        tellsOpen := makeReport_open (by
          simp only [add_sub_cancel_left]
          exact hqty.le)
        tellsAverage := rfl }
  | @trade x request i wanted ts o head _ pos =>
    have ho := List.mem_of_head? head
    have hand := c.inHand i wanted rfl
    have hne : o.orderId ≠ i := hand.absent _ o ho
    obtain ⟨hst, hrest, _⟩ := c.stateAt_order ho
    have hqty := c.quantity_pos ho
    have hprice : 0 < o.priceTicks := by
      have hv := (c.filed _ o ho).2.1
      simp only [isValidRestingOrder, Bool.and_eq_true, decide_eq_true_eq] at hv
      exact hv.1.2
    have hopen : (x.stateAt o.orderId).originalQuantity - (x.stateAt o.orderId).filledQuantity =
        o.quantity := congrArg Order.quantity hrest.symm
    rw [trade_reports _ _ hne]
    -- the resting order first, with the incoming order still as it was
    obtain ⟨y, hy⟩ : ∃ y, y = x.setState o.orderId
        ((x.stateAt o.orderId).fill (min wanted o.quantity) o.priceTicks) := ⟨_, rfl⟩
    have first : Ledger (h ++ tag request [makeReport ((x.stateAt o.orderId).fill
        (min wanted o.quantity) o.priceTicks) .trade (min wanted o.quantity) o.priceTicks ts .none])
        y.stateAt := by
      refine ledger.single request (i := o.orderId) _ (by rw [hy]; rfl) (c.knownAt hst).own
        (balances_fill ?_ ?_ ?_)
      · omega
      · omega
      · rw [hopen]
        exact min_le_right _ _
    have hyi : y.stateAt i = x.stateAt i := by
      rw [hy, stateAt_setState_other _ _ (Ne.symm hne)]
    have second := first.single (y := (x.trade i ts (o, min wanted o.quantity)).1) request (i := i)
      ((y.stateAt i).fill (min wanted o.quantity) o.priceTicks) (by rw [hy]; rfl)
      (r := makeReport ((y.stateAt i).fill (min wanted o.quantity) o.priceTicks) .trade
        (min wanted o.quantity) o.priceTicks ts .none)
      (by
        rw [hyi]
        exact (c.knownAt hand.stored).own)
      (balances_fill (by omega) (by omega) (by
        rw [hyi, hand.open_eq]
        exact min_le_left _ _))
    rw [hyi, List.append_assoc] at second
    exact second
  | rest _ symbol _ _ =>
    have same : ∀ (x : Exchange) i ts, x.symbolId ≠ invalidSymbolId →
        (x.rest i ts).1.stateAt = x.stateAt := by
      intro x i ts hx
      unfold Exchange.rest
      rw [if_neg hx]
      rfl
    exact ledger.silent (same _ _ _ symbol)
  | expire =>
    have hand := c.inHand _ _ rfl
    rw [close_reports]
    exact ledger.single _ (i := _) _ rfl (c.knownAt hand.stored).own
      (balances_close (Or.inl rfl) (Or.inl rfl))
  | fault =>
    have hand := c.inHand _ _ rfl
    rw [close_reports]
    exact ledger.single _ (i := _) _ rfl (c.knownAt hand.stored).own
      (balances_close (Or.inr rfl) (Or.inr rfl))
  | done => exact ledger.silent rfl
  | withdraw _ _ ho =>
    rw [withdraw_reports]
    exact ledger.single _ (i := _) _ rfl (c.knownAt (c.stateAt_order ho).1).own
      (balances_close (Or.inl rfl) (Or.inl rfl))

theorem Exchange.Step.paired (step : Step s l t) (c : Consistent s.1 s.2) :
    Paired Settles (l.map Prod.snd) := by
  cases step with
  | refuse => exact .single (fun h => by cases h)
  | reserve => exact .nil
  | enlist => exact .single (fun h => by cases h)
  | reopen => exact .single (fun h => by cases h)
  | @trade x request i wanted ts o head _ pos =>
    have ho := List.mem_of_head? head
    have hand := c.inHand i wanted rfl
    have hne : o.orderId ≠ i := hand.absent _ o ho
    have hrest := (c.stateAt_order ho).2.1
    have hqty := c.quantity_pos ho
    rw [reports_tag, trade_reports _ _ hne]
    refine Paired.nil.pair rfl rfl ⟨?_, (c.knownAt hand.stored).side, rfl, rfl, ?_⟩
    · exact (congrArg Order.side hrest).symm.trans (c.filed _ o ho).1
    · exact lt_min pos hqty
  | rest => exact .nil
  | expire => exact .single (fun h => by cases h)
  | fault => exact .single (fun h => by cases h)
  | done => exact .nil
  | withdraw => exact .single (fun h => by cases h)

theorem Exchange.Consistent.books {x : Exchange} (c : Consistent x none) (ledger : Ledger [] x.stateAt)
    (requests : List Request) : Ledger (x.log requests) (x.run requests).1.stateAt ∧
      Paired Settles ((x.log requests).map Prod.snd) := by
  have keep : ∀ {h : List Entry} {s : Session} {l : List Entry} {t : Session},
      (Consistent s.1 s.2 ∧ Ledger h s.1.stateAt ∧ Paired Settles (h.map Prod.snd)) → Step s l t →
      Consistent t.1 t.2 ∧ Ledger (h ++ l) t.1.stateAt ∧ Paired Settles ((h ++ l).map Prod.snd) := by
    intro h s l t hs step
    refine ⟨step.consistent hs.1, step.ledger hs.1 hs.2.1, ?_⟩
    rw [List.map_append]
    exact hs.2.2.append (step.paired hs.1)
  exact (Trace.invariant (I := fun h (s : Session) =>
    Consistent s.1 s.2 ∧ Ledger h s.1.stateAt ∧ Paired Settles (h.map Prod.snd)) keep (h := [])
    ⟨c, ledger, .nil⟩ (c.run_trace requests)).2

theorem new_ledger (symbolId : Nat) : Ledger [] (Exchange.new symbolId).stateAt where
  filled := fun _ => rfl
  notional := fun _ => rfl
  requested := fun _ => rfl
  nonneg := fun _ _ h => by cases h
  grows := fun _ _ h => by cases h
  accounted := fun front _ _ h => by simp at h

end Steps

namespace MatchingEngine

open Exchange

/-- The incoming order of every fill is the one its answer announces, and the other order
rested in the book before. -/
theorem Sound.fill_roles {e : MatchingEngine} (s : e.Sound) (request : Request) :
    ∀ p ∈ tradePairs (e.serve request).reports,
      (∃ o, e.book.findOrder p.1.exchangeOrderId = some o ∧ o.side = p.1.side) ∧
      (e.serve request).reports.head?.map (·.exchangeOrderId) = some p.2.exchangeOrderId := by
  intro p hp
  rw [s.serve_reports] at hp ⊢
  rcases s.consistent.serve_cases request with hdecl | ⟨y, ts, rests, take⟩
  · obtain ⟨r, hr, _⟩ := hdecl.answer
    rw [hr] at hp
    simp [tradePairs] at hp
  · obtain ⟨first, hkind, hfirst, hserve⟩ := take.answer
    have ex := take.consistent.executed ts rests
    have hnot : first.execType ≠ .trade := by rcases hkind with h | h <;> rw [h] <;> simp
    rw [hserve] at hp ⊢
    simp only at hp ⊢
    rw [Paired.tradePairs_cons hnot] at hp
    obtain ⟨f, hf, told⟩ := exists_fill ex.fills hp
    have hmem := (Sweep.mem_fills (fun a ha => take.consistent.quantity_pos ha) hf).1
    rw [take.side, take.facing] at hmem
    refine ⟨⟨f.1, ?_, ?_⟩, ?_⟩
    · rw [told.resting]
      exact (OrderBook.findOrder_eq_some s.wf).mpr ⟨OrderBook.mem_resting_of_queue s.wf hmem, rfl⟩
    · rw [told.restingSide, take.side]
      exact (OrderBook.mem_queue s.wf hmem).1
    · rw [told.incoming]
      simp [hfirst]

/-- Conservation over whole runs: Trade reports settle in pairs, what is bought is sold,
and every report adds up with the reports before it. -/
theorem run_accounting (symbolId : Nat) (requests : List Request) :
    (((new symbolId).run requests).reports.filter (fun r => r.execType = .trade) =
      (tradePairs ((new symbolId).run requests).reports).flatMap (fun p => [p.1, p.2])) ∧
    (∀ p ∈ tradePairs ((new symbolId).run requests).reports, Settles p.1 p.2) ∧
    (∀ front request back, requests = front ++ request :: back →
      ∀ p ∈ tradePairs (((new symbolId).run front).engine.serve request).reports,
        (∃ o, ((new symbolId).run front).engine.book.findOrder p.1.exchangeOrderId = some o ∧
          o.side = p.1.side) ∧
        (((new symbolId).run front).engine.serve request).reports.head?.map (·.exchangeOrderId) =
          some p.2.exchangeOrderId) ∧
    volume .buy ((new symbolId).run requests).reports =
      volume .sell ((new symbolId).run requests).reports ∧
    ((new symbolId).log requests).map Prod.snd = ((new symbolId).run requests).reports ∧
    ∀ front request r, front ++ [(request, r)] <+: (new symbolId).log requests →
      Accounted (front ++ [(request, r)]) r := by
  have s := new_sound symbolId
  have hview := new_view symbolId
  have hledger : Ledger [] (new symbolId).view.stateAt := by
    rw [hview]
    exact new_ledger symbolId
  obtain ⟨ledger, paired⟩ := s.consistent.books hledger requests
  rw [← s.log_eq] at ledger paired
  rw [log_reports] at paired
  refine ⟨paired.filter_trade, paired.related, ?_, paired.volume_eq, log_reports _ _,
    ledger.accounted⟩
  rintro front request back -
  exact (s.run front).fill_roles request

end MatchingEngine
end Asterion
