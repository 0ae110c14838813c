import Asterion.Matching.Consistent

/-! Each small step of the exchange keeps the joint invariant: a fill, coming to rest,
expiring, being withdrawn, admitted or reopened. -/
namespace Asterion

open Lib

section Queues

/-- Every order of a queue has at least the priority of the orders behind it. -/
abbrev InPriority (s : Side) (q : List Order) : Prop := q.Pairwise (fun a b => ¬ Order.outranks s b a)

theorem enqueue_sorted {o : Order} {q : List Order} (h : InPriority o.side q) :
    InPriority o.side (enqueue o q) := by
  induction q with
  | nil => exact List.pairwise_singleton _ _
  | cons a q ih =>
    unfold enqueue
    rw [List.orderedInsert_cons]
    split
    · rename_i better
      refine List.Pairwise.cons ?_ h
      intro b hb hworse
      rcases List.mem_cons.mp hb with rfl | hb
      · exact asymm_of (before o.side) better hworse
      · exact List.rel_of_pairwise_cons h hb (trans_of (before o.side) hworse better)
    · rename_i notBetter
      refine List.Pairwise.cons ?_ (ih h.of_cons)
      intro b hb
      rcases mem_enqueue.mp hb with rfl | hb
      · exact notBetter
      · exact List.rel_of_pairwise_cons h hb

theorem dequeue_sorted {s : Side} {q : List Order} (id : Nat) (h : InPriority s q) :
    InPriority s (dequeue id q) :=
  h.sublist List.filter_sublist

theorem shrink_sorted {s : Side} {q : List Order} (id : Nat) (n : Int) (h : InPriority s q) :
    InPriority s (shrink id n q) := by
  rw [shrink_eq_map]
  refine List.pairwise_map.mpr (h.imp ?_)
  intro a b hab
  simpa only [Order.outranks, shrinkOrder_priceTicks] using hab

variable {f : Order × Int}

theorem consume_sorted {s : Side} {q : List Order} (h : InPriority s q) :
    InPriority s (consume f q) := by
  unfold consume
  split
  · exact shrink_sorted _ _ h
  · exact dequeue_sorted _ h

theorem shrink_ids (id : Nat) (n : Int) (q : List Order) :
    (shrink id n q).map (·.orderId) = q.map (·.orderId) := by
  rw [shrink_eq_map, List.map_map]
  exact List.map_congr_left (fun o _ => shrinkOrder_orderId id n o)

theorem consume_ids (q : List Order) :
    ((consume f q).map (·.orderId)).Sublist (q.map (·.orderId)) := by
  unfold consume
  split
  · rw [shrink_ids]
  · exact List.filter_sublist.map _

/-- What is in a queue after a fill: the orders with other ids, and the rest of the order. -/
theorem mem_consume {q : List Order} {o : Order} (h : o ∈ consume f q) :
    (o ∈ q ∧ o.orderId ≠ f.1.orderId) ∨
    (f.2 < f.1.quantity ∧ ∃ z ∈ q, z.orderId = f.1.orderId ∧
      o = { z with quantity := z.quantity - f.2 }) := by
  unfold consume at h
  split at h
  · rename_i part
    rw [shrink_eq_map] at h
    obtain ⟨z, hz, rfl⟩ := List.mem_map.mp h
    by_cases hid : z.orderId = f.1.orderId
    · exact Or.inr ⟨part, z, hz, hid, by rw [shrinkOrder, if_pos hid]⟩
    · rw [shrinkOrder_of_ne hid]
      exact Or.inl ⟨hz, hid⟩
  · exact Or.inl (mem_dequeue.mp h)

/-- An order left by a fill stood in the queue before, with the same id, side and price. -/
theorem mem_consume_origin {q : List Order} {o : Order} (h : o ∈ consume f q) :
    ∃ z ∈ q, z.orderId = o.orderId ∧ z.side = o.side ∧ z.priceTicks = o.priceTicks := by
  rcases mem_consume h with ⟨ho, _⟩ | ⟨_, z, hz, _, rfl⟩
  · exact ⟨o, ho, rfl, rfl, rfl⟩
  · exact ⟨z, hz, rfl, rfl, rfl⟩

theorem mem_consume_of_ne {q : List Order} {o : Order} (h : o ∈ q) (hid : o.orderId ≠ f.1.orderId) :
    o ∈ consume f q := by
  unfold consume
  split
  · rw [shrink_eq_map]
    exact List.mem_map.mpr ⟨o, h, shrinkOrder_of_ne hid⟩
  · exact mem_dequeue.mpr ⟨h, hid⟩

theorem mem_consume_part {q : List Order} {o : Order} (h : o ∈ q) (hid : o.orderId = f.1.orderId)
    (part : f.2 < f.1.quantity) : { o with quantity := o.quantity - f.2 } ∈ consume f q := by
  unfold consume
  rw [if_pos part, shrink_eq_map]
  exact List.mem_map.mpr ⟨o, h, if_pos hid⟩

end Queues

namespace Exchange

theorem restingOrder_fill (st : OrderState) (n p : Int) :
    restingOrder (st.fill n p) =
      { restingOrder st with quantity := (restingOrder st).quantity - n } := by
  simp only [restingOrder, fill_id, fill_client, fill_symbol, fill_side, fill_price, fill_original,
    fill_filled, fill_timestamp]
  congr 1
  omega

theorem acceptable_fill (st : OrderState) (n p : Int) : acceptable (st.fill n p) = acceptable st := by
  funext o
  simp only [acceptable, fill_side, fill_type, fill_price]

theorem StateOk.fill {x y : Exchange} {id : Nat} {st : OrderState} {n p : Int}
    (ok : x.StateOk id st) (hs : y.symbolId = x.symbolId)
    (hnext : y.nextExchangeOrderId = x.nextExchangeOrderId)
    (less : n ≤ st.originalQuantity - st.filledQuantity) (pos : 0 < n) :
    y.StateOk id (st.fill n p) where
  own := ok.own
  positive := ok.positive
  old := hnext ▸ ok.old
  side := ok.side
  symbol := ok.symbol.trans hs.symm
  filled := by
    have := ok.filled
    rw [fill_filled]
    omega
  unfilled := by
    rw [fill_status less]
    split <;> intro h <;> cases h
  price := ok.price

theorem StateOk.mono {x y : Exchange} {id : Nat} {st : OrderState} (ok : x.StateOk id st)
    (hs : y.symbolId = x.symbolId) (hnext : x.nextExchangeOrderId ≤ y.nextExchangeOrderId) :
    y.StateOk id st :=
  { ok with
    old := ok.old.trans_le hnext
    symbol := ok.symbol.trans hs.symm }

section Trade
variable {x : Exchange} {i : Nat} {wanted ts n : Int} {o : Order}

@[simp] theorem trade_queue (f : Order × Int) (s : Side) :
    (x.trade i ts f).1.queue s = consume f (x.queue s) := rfl
@[simp] theorem trade_symbolId (f : Order × Int) : (x.trade i ts f).1.symbolId = x.symbolId := rfl
@[simp] theorem trade_next (f : Order × Int) :
    (x.trade i ts f).1.nextExchangeOrderId = x.nextExchangeOrderId := rfl
@[simp] theorem trade_seen (f : Order × Int) : (x.trade i ts f).1.seen = x.seen := rfl

theorem trade_state (ts : Int) (f : Order × Int) (hne : f.1.orderId ≠ i) (j : Nat) :
    (x.trade i ts f).1.state j =
      if j = i then some ((x.stateAt i).fill f.2 f.1.priceTicks)
      else if j = f.1.orderId then some ((x.stateAt f.1.orderId).fill f.2 f.1.priceTicks)
      else x.state j := by
  change ((x.setState f.1.orderId _).setState i _).state j = _
  by_cases hi : j = i
  · subst hi
    rw [setState_same, if_pos rfl, stateAt_setState_other _ _ (Ne.symm hne)]
  · rw [setState_other _ _ hi, if_neg hi]
    by_cases ho : j = f.1.orderId
    · subst ho
      rw [setState_same, if_pos rfl]
    · rw [setState_other _ _ ho, if_neg ho]

theorem trade_stateAt_incoming (ts : Int) (f : Order × Int) (hne : f.1.orderId ≠ i) :
    (x.trade i ts f).1.stateAt i = (x.stateAt i).fill f.2 f.1.priceTicks :=
  stateAt_eq (by rw [trade_state _ f hne, if_pos rfl])

theorem trade_stateAt_resting (ts : Int) (f : Order × Int) (hne : f.1.orderId ≠ i) :
    (x.trade i ts f).1.stateAt f.1.orderId = (x.stateAt f.1.orderId).fill f.2 f.1.priceTicks :=
  stateAt_eq (by rw [trade_state _ f hne, if_neg hne, if_pos rfl])

theorem trade_stateAt_other (ts : Int) (f : Order × Int) (hne : f.1.orderId ≠ i) {j : Nat} (hi : j ≠ i)
    (ho : j ≠ f.1.orderId) : (x.trade i ts f).1.stateAt j = x.stateAt j := by
  rw [stateAt, trade_state _ f hne, if_neg hi, if_neg ho]
  rfl

/-- A fill keeps everything that is fixed when an order is accepted or replaced. -/
theorem trade_fixed (ts : Int) {β : Type} (g : OrderState → β)
    (hg : ∀ st n p, g (OrderState.fill st n p) = g st) (f : Order × Int) (hne : f.1.orderId ≠ i) (j : Nat) :
    g ((x.trade i ts f).1.stateAt j) = g (x.stateAt j) := by
  by_cases hi : j = i
  · rw [hi, trade_stateAt_incoming _ f hne, hg]
  · by_cases ho : j = f.1.orderId
    · rw [ho, trade_stateAt_resting _ f hne, hg]
    · rw [trade_stateAt_other _ f hne hi ho]

theorem trade_reports (ts : Int) (f : Order × Int) (hne : f.1.orderId ≠ i) :
    (x.trade i ts f).2 =
      [makeReport ((x.stateAt f.1.orderId).fill f.2 f.1.priceTicks) .trade f.2 f.1.priceTicks ts .none,
       makeReport ((x.stateAt i).fill f.2 f.1.priceTicks) .trade f.2 f.1.priceTicks ts .none] := by
  have hr := trade_stateAt_resting (x := x) ts f hne
  have hi := trade_stateAt_incoming (x := x) ts f hne
  rw [← hr, ← hi]
  rfl

end Trade

section Keep
variable {x y : Exchange} {p p' : Option (Nat × Int)} {i : Nat} {wanted ts n : Int} {o : Order}

theorem Consistent.knownAt (c : Consistent x p) (h : x.state i = some (x.stateAt i)) :
    x.StateOk i (x.stateAt i) := c.known i _ h

theorem dequeue_absent {q : List Order} (h : ∀ o ∈ q, o.orderId ≠ i) : dequeue i q = q :=
  List.filter_eq_self.mpr (fun o ho => by simpa using h o ho)

theorem Consistent.opposite_apart (c : Consistent x p) {s : Side} (ho : o ∈ x.queue s) :
    ∀ y ∈ x.queue (opposite (x.stateAt o.orderId).side), y.orderId ≠ o.orderId := by
  intro y hy hid
  obtain ⟨hst, hrest, -⟩ := c.stateAt_order ho
  have hside : o.side = (x.stateAt o.orderId).side := congrArg Order.side hrest
  have hopp := (c.filed _ y hy).1
  rw [c.unique hy ho hid, hside] at hopp
  exact opposite_ne (c.knownAt hst).side hopp.symm

theorem Consistent.own_id (c : Consistent x p) {s : Side} (ho : o ∈ x.queue s) :
    (x.stateAt o.orderId).exchangeOrderId = o.orderId := (c.knownAt (c.stateAt_order ho).1).own

def reopened (x : Exchange) (request : ReplaceOrderRequest) : OrderState :=
  { x.stateAt request.exchangeOrderId with
    limitPriceTicks := request.newPriceTicks
    originalQuantity :=
      (x.stateAt request.exchangeOrderId).filledQuantity + request.newQuantity
    status := .replaced
    timestampNs := request.timestampNs }

theorem reopen_stateAt_self (x : Exchange) (request : ReplaceOrderRequest) :
    (x.reopen request).1.stateAt request.exchangeOrderId = x.reopened request :=
  stateAt_setState_same x _ _

theorem reopen_stateAt_other (x : Exchange) {request : ReplaceOrderRequest} {j : Nat}
    (hj : j ≠ request.exchangeOrderId) : (x.reopen request).1.stateAt j = x.stateAt j :=
  stateAt_setState_other x _ hj

section Trade
variable (c : Consistent x (some (i, wanted))) (ho : o ∈ x.queue (opposite (x.stateAt i).side))
include c

theorem Consistent.consume_filed {s t : Side} (ho : o ∈ x.queue t) {y : Order}
    (hy : y ∈ consume (o, n) (x.queue s)) :
    y.side = s ∧ isValidRestingOrder y = true ∧ y.symbolId = x.symbolId := by
  rcases mem_consume hy with ⟨hy, _⟩ | ⟨hpart, z, hz, hid, rfl⟩
  · exact c.filed s y hy
  · obtain ⟨hside, hvalid, hsym⟩ := c.filed s z hz
    refine ⟨hside, ?_, hsym⟩
    simp only [isValidRestingOrder, Bool.and_eq_true, decide_eq_true_eq] at hvalid ⊢
    refine ⟨hvalid.1, ?_⟩
    rw [c.unique hz ho hid]
    exact Int.sub_pos_of_lt hpart

include ho

theorem Consistent.trade_ne : o.orderId ≠ i := (c.inHand i wanted rfl).absent _ o ho

theorem Consistent.trade_open :
    (x.stateAt o.orderId).originalQuantity - (x.stateAt o.orderId).filledQuantity = o.quantity :=
  congrArg Order.quantity (c.stateAt_order ho).2.1.symm

theorem Consistent.trade_backed (hq : n ≤ o.quantity) {s : Side} {y : Order}
    (hy : y ∈ consume (o, n) (x.queue s)) :
    ∃ st, (x.trade i ts (o, n)).1.state y.orderId = some st ∧ y = restingOrder st ∧
      st.orderType = .limit ∧ st.status.Working := by
  have hne := c.trade_ne ho
  have hstate := trade_state (x := x) ts (o, n) hne
  rcases mem_consume hy with ⟨hy, hid⟩ | ⟨hpart, z, hz, hid, rfl⟩
  · obtain ⟨st, hy', h⟩ := c.backed s y hy
    refine ⟨st, ?_, h⟩
    rw [hstate, if_neg ((c.inHand i wanted rfl).absent s y hy), if_neg hid]
    exact hy'
  · obtain rfl : z = o := c.unique hz ho hid
    obtain ⟨_, hrest, hlimit, _⟩ := c.stateAt_order hz
    have hopen := c.trade_open ho
    have hlt : n < z.quantity := hpart
    refine ⟨(x.stateAt z.orderId).fill n z.priceTicks, ?_, ?_, hlimit, ?_⟩
    · rw [hstate, if_neg hne, if_pos rfl]
    · rw [restingOrder_fill, ← hrest]
    · rw [fill_status (by omega), if_neg (by omega)]
      exact Or.inr (Or.inl rfl)

theorem Consistent.trade_known (pos : 0 < n) (hw : n ≤ wanted) (hq : n ≤ o.quantity) {j : Nat}
    {st : OrderState} (hj : (x.trade i ts (o, n)).1.state j = some st) :
    (x.trade i ts (o, n)).1.StateOk j st := by
  have hand := c.inHand i wanted rfl
  rw [trade_state ts (o, n) (c.trade_ne ho)] at hj
  split at hj
  · subst_vars
    cases hj
    exact (c.knownAt hand.stored).fill rfl rfl (by rw [hand.open_eq]; exact hw) pos
  · split at hj
    · subst_vars
      cases hj
      exact (c.knownAt (c.stateAt_order ho).1).fill rfl rfl (by rw [c.trade_open ho]; exact hq) pos
    · exact (c.known j st hj).mono rfl le_rfl

theorem Consistent.trade_inHand (hw : n ≤ wanted) :
    (x.trade i ts (o, n)).1.InHand i (wanted - n) := by
  have hand := c.inHand i wanted rfl
  have hne := c.trade_ne ho
  have hi := trade_stateAt_incoming (x := x) ts (o, n) hne
  refine ⟨?_, by omega, ?_, ?_, ?_, ?_⟩
  · intro s y hy
    obtain ⟨z, hz, hid, _⟩ := mem_consume_origin hy
    exact hid ▸ hand.absent s z hz
  · rw [hi, trade_state ts (o, n) hne, if_pos rfl]
  · rw [hi, fill_original, fill_filled]
    have := hand.open_eq
    simp only
    omega
  · rw [hi, fill_status (by rw [hand.open_eq]; exact hw), hand.open_eq]
    by_cases hall : n = wanted
    · rw [if_pos hall, if_pos (by omega)]
    · rw [if_neg hall, if_neg (by omega)]
      exact Or.inr (Or.inl rfl)
  · intro y hy hok hclient
    rw [hi, fill_side] at hy
    obtain ⟨z, hz, hid, _, hprice⟩ := mem_consume_origin hy
    have hcl := trade_fixed (x := x) (i := i) ts (·.clientId) (fun _ _ _ => rfl) (o, n) hne
    rw [hcl, hcl, ← hid] at hclient
    rw [hcl]
    refine hand.apart z hz ?_ hclient
    rw [hi, acceptable_fill] at hok
    simpa only [acceptable, hprice] using hok

theorem Consistent.trade_idle (hq : n ≤ o.quantity) {j : Nat} {st : OrderState}
    (hj : (x.trade i ts (o, n)).1.state j = some st)
    (absent : ∀ s, ∀ y ∈ consume (o, n) (x.queue s), y.orderId ≠ j) (other : j ≠ i) :
    x.Over st.status := by
  rw [trade_state ts (o, n) (c.trade_ne ho), if_neg other] at hj
  split at hj
  · subst_vars
    cases hj
    have hopen := c.trade_open ho
    have hall : ¬ n < o.quantity := fun hpart =>
      absent _ _ (mem_consume_part (f := (o, n)) ho rfl hpart) rfl
    have hfull : n = (x.stateAt o.orderId).originalQuantity -
        (x.stateAt o.orderId).filledQuantity := by omega
    have hfilled := fill_status (p := o.priceTicks) hfull.le
    rw [if_pos hfull] at hfilled
    exact Or.inl hfilled
  · rename_i hjo
    refine c.idle j st hj ?_ ?_
    · intro s z hz hid
      exact absent s z (mem_consume_of_ne hz (by rw [hid]; exact hjo)) hid
    · intro w hw
      exact other (congrArg Prod.fst (Option.some.inj hw)).symm

/-- A fill between the order in hand and any order of the opposite queue. -/
theorem Consistent.trade (pos : 0 < n) (hw : n ≤ wanted) (hq : n ≤ o.quantity) :
    Consistent (x.trade i ts (o, n)).1 (some (i, wanted - n)) where
  fresh := c.fresh
  filed s y hy := c.consume_filed ho hy
  sorted s := consume_sorted (c.sorted s)
  ids := by
    have h := c.ids
    rw [List.map_append] at h ⊢
    exact h.sublist ((consume_ids _).append (consume_ids _))
  uncrossed a ha b hb := by
    obtain ⟨a', ha', _, _, hpa⟩ := mem_consume_origin ha
    obtain ⟨b', hb', _, _, hpb⟩ := mem_consume_origin hb
    rw [← hpa, ← hpb]
    exact c.uncrossed a' ha' b' hb'
  backed s y hy := c.trade_backed ho hq hy
  known j st hj := c.trade_known ho pos hw hq hj
  inHand := by
    rintro _ _ ⟨⟩
    exact c.trade_inHand ho hw
  idle j st hj absent pending :=
    c.trade_idle ho hq hj absent (fun same => pending (wanted - n) (by rw [same]))

end Trade

/-- An order out of the queues is given a new state: it ends there, or it is in hand. -/
theorem Consistent.lift (c : Consistent x p) (i : Nat) (st : OrderState) (hp : ∀ j w, p = some (j, w) → j = i)
    (hq : ∀ s, y.queue s = dequeue i (x.queue s))
    (hst : y.state = Function.update x.state i (some st)) (hsym : y.symbolId = x.symbolId)
    (hnext : x.nextExchangeOrderId ≤ y.nextExchangeOrderId) (ok : y.StateOk i st)
    (after : (p' = none ∧ y.Over st.status) ∨ ∃ w, p' = some (i, w) ∧ y.InHand i w) :
    Consistent y p' := by
  have hother : ∀ j, j ≠ i → y.state j = x.state j := fun j hj => by
    rw [hst, Function.update_of_ne hj]
  have hsub : ∀ s, (y.queue s).Sublist (x.queue s) := fun s => hq s ▸ List.filter_sublist
  have hold : ∀ s, ∀ o ∈ y.queue s, o ∈ x.queue s ∧ o.orderId ≠ i := fun s o ho =>
    mem_dequeue.mp (hq s ▸ ho)
  refine ⟨c.fresh.trans_le hnext, ?_, fun s => (c.sorted s).sublist (hsub s), ?_, ?_, ?_, ?_, ?_, ?_⟩
  · intro s o ho
    rw [hsym]
    exact c.filed s o (hold s o ho).1
  · exact c.ids.sublist (((hsub _).append (hsub _)).map _)
  · intro a ha b hb
    exact c.uncrossed a (hold _ a ha).1 b (hold _ b hb).1
  · intro s o ho
    rw [hother _ (hold s o ho).2]
    exact c.backed s o (hold s o ho).1
  · intro j st' hj
    by_cases h : j = i
    · subst h
      rw [hst, Function.update_self] at hj
      cases hj
      exact ok
    · rw [hother j h] at hj
      exact (c.known j st' hj).mono hsym hnext
  · rintro j w rfl
    rcases after with ⟨h, _⟩ | ⟨w', h, hand⟩
    · cases h
    · cases h
      exact hand
  · intro j st' hj habsent hpending
    by_cases h : j = i
    · subst h
      rw [hst, Function.update_self] at hj
      cases hj
      rcases after with ⟨_, hover⟩ | ⟨w, h, _⟩
      · exact hover
      · exact absurd h (hpending w)
    · rw [hother j h] at hj
      unfold Over
      rw [hsym]
      refine c.idle j st' hj ?_ ?_
      · intro s o ho hid
        exact habsent s o (hq s ▸ mem_dequeue.mpr ⟨ho, hid ▸ h⟩) hid
      · intro w hw
        exact h (hp j w hw)

theorem StateOk.status {st : OrderState} {status : OrderStatus} (ok : x.StateOk i st)
    (h : status ≠ .new) : x.StateOk i { st with status } :=
  { ok with unfilled := fun hnew => absurd hnew h }

theorem Over.ne_new {status : OrderStatus} (h : x.Over status) : status ≠ .new := by
  rintro rfl
  rcases h with h | h | ⟨_, h⟩ <;> cases h

theorem Consistent.close {status : OrderStatus} {execType : ExecType} {reason : RejectReason}
    (c : Consistent x (some (i, wanted))) (ended : x.Over status) :
    Consistent (x.close i status execType ts reason).1 none := by
  have hand := c.inHand i wanted rfl
  refine c.lift i { x.stateAt i with status } ?_ ?_ rfl rfl le_rfl ?_
    (Or.inl ⟨rfl, ended⟩)
  · rintro j w ⟨⟩
    rfl
  · exact fun s => (dequeue_absent (hand.absent s)).symm
  · exact (((c.knownAt hand.stored).status ended.ne_new).mono rfl le_rfl)

theorem Consistent.withdraw (c : Consistent x none) {s : Side} (ho : o ∈ x.queue s) :
    Consistent (x.withdraw o.orderId ts).1 none := by
  obtain ⟨hst, _⟩ := c.stateAt_order ho
  refine c.lift o.orderId { x.stateAt o.orderId with status := .canceled }
    (fun _ _ h => by cases h) (fun _ => rfl) rfl rfl le_rfl ?_
    (Or.inl ⟨rfl, Or.inr (Or.inl rfl)⟩)
  exact ((c.knownAt hst).status (by simp)).mono rfl le_rfl

theorem Consistent.done (c : Consistent x (some (i, 0))) : Consistent x none := by
  have hand := c.inHand i 0 rfl
  refine { c with inHand := (fun _ _ h => by cases h), idle := ?_ }
  intro j st hj habsent _
  by_cases h : j = i
  · subst h
    have hfilled := hand.status
    rw [if_pos rfl] at hfilled
    rw [← stateAt_eq hj]
    exact Or.inl hfilled
  · exact c.idle j st hj habsent (fun w hw => h (congrArg Prod.fst (Option.some.inj hw)).symm)

theorem Consistent.reserve (c : Consistent x p) (id : Nat) : Consistent (x.reserve id) p :=
  { c with
    known := fun j st hj => (c.known j st hj).mono rfl le_rfl
    inHand := fun j w h => { c.inHand j w h with } }

/-- A limit that reaches a price reaches every price of at least its priority. -/
theorem executable_mono {side : Side} {orderType : OrderType} {limit a b : Int}
    (h : ¬ before (opposite side) b a)
    (hb : MatchingEngine.executable side orderType limit b = true) :
    MatchingEngine.executable side orderType limit a = true := by
  cases orderType with
  | market => rfl
  | limit =>
    cases side <;> simp_all [MatchingEngine.executable, opposite] <;> omega
  | other value =>
    cases side <;> simp_all [MatchingEngine.executable, opposite] <;> omega

/-- The head decides whether an incoming limit meets any order. -/
theorem Consistent.crosses_iff (c : Consistent x p) {side : Side} {orderType : OrderType}
    {limit : Int} :
    x.crosses side orderType limit = true ↔ ∃ o ∈ x.queue (opposite side),
      MatchingEngine.executable side orderType limit o.priceTicks = true := by
  have hsorted := c.sorted (opposite side)
  unfold crosses
  cases hq : x.queue (opposite side) with
  | nil => simp
  | cons a q =>
    rw [hq] at hsorted
    simp only [List.head?_cons, Option.any_some]
    constructor
    · exact fun h => ⟨a, List.mem_cons_self, h⟩
    · rintro ⟨b, hb, h⟩
      rcases List.mem_cons.mp hb with rfl | hb
      · exact h
      · exact executable_mono (List.rel_of_pairwise_cons hsorted hb) h

theorem selfTrade_eq_true {side : Side} {orderType : OrderType} {limit : Int} {clientId : Nat} :
    x.selfTrade side orderType limit clientId = true ↔ clientId ≠ 0 ∧
      ∃ o ∈ x.queue (opposite side), (x.stateAt o.orderId).clientId = clientId ∧
        MatchingEngine.executable side orderType limit o.priceTicks = true := by
  simp [selfTrade]

section Rest
variable (c : Consistent x (some (i, wanted))) (symbol : x.symbolId ≠ invalidSymbolId)
include symbol

theorem rest_eq : (x.rest i ts).1 =
    { x with
      queue := fun s =>
        if s = (x.stateAt i).side then enqueue (restingOrder (x.stateAt i)) (x.queue s)
        else x.queue s } := by
  unfold Exchange.rest
  rw [if_neg symbol]
  rfl

theorem mem_rest {s : Side} {z : Order} : z ∈ (x.rest i ts).1.queue s ↔
    z ∈ x.queue s ∨ (z = restingOrder (x.stateAt i) ∧ s = (x.stateAt i).side) := by
  rw [rest_eq symbol]
  dsimp only
  split
  · rename_i own
    rw [mem_enqueue, or_comm, and_iff_left own]
  · rename_i other
    rw [or_iff_left (fun h => other h.2)]

include c

theorem Consistent.rest_filed (pos : 0 < wanted) (limit : (x.stateAt i).orderType = .limit)
    {s : Side} {z : Order} (hz : z ∈ (x.rest i ts).1.queue s) :
    z.side = s ∧ isValidRestingOrder z = true ∧ z.symbolId = x.symbolId := by
  have hand := c.inHand i wanted rfl
  have ok := c.knownAt hand.stored
  rcases (mem_rest symbol).mp hz with hz | ⟨rfl, rfl⟩
  · exact c.filed s z hz
  · refine ⟨rfl, ?_, ok.symbol⟩
    have hid : (restingOrder (x.stateAt i)).orderId = i := ok.own
    have hsym : (restingOrder (x.stateAt i)).symbolId = x.symbolId := ok.symbol
    have hqty : (restingOrder (x.stateAt i)).quantity = wanted := hand.open_eq
    simp only [isValidRestingOrder, Bool.and_eq_true, bne_iff_ne, decide_eq_true_eq, hid, hsym,
      hqty]
    exact ⟨⟨⟨⟨ok.positive.ne', symbol⟩, ok.side⟩, ok.price limit⟩, pos⟩

theorem Consistent.rest_ids : (((x.rest i ts).1.queue .buy ++ (x.rest i ts).1.queue .sell).map
    (·.orderId)).Nodup := by
  have hand := c.inHand i wanted rfl
  have ok := c.knownAt hand.stored
  have hid : (restingOrder (x.stateAt i)).orderId = i := ok.own
  have hfresh : i ∉ (x.queue .buy ++ x.queue .sell).map (·.orderId) := by
    intro h
    obtain ⟨z, hz, hzid⟩ := List.mem_map.mp h
    rcases List.mem_append.mp hz with hz | hz
    · exact hand.absent _ z hz hzid
    · exact hand.absent _ z hz hzid
  have hperm : ((x.rest i ts).1.queue .buy ++ (x.rest i ts).1.queue .sell).Perm
      (restingOrder (x.stateAt i) :: (x.queue .buy ++ x.queue .sell)) := by
    have hv := ok.side
    rw [rest_eq symbol]
    cases hs : (x.stateAt i).side with
    | none => rw [hs] at hv; cases hv
    | buy =>
      simp only [if_true, reduceCtorEq, if_false]
      exact (perm_enqueue _ _).append_right _
    | sell =>
      simp only [if_true, reduceCtorEq, if_false]
      exact ((perm_enqueue _ _).append_left _).trans List.perm_middle
  rw [(hperm.map _).nodup_iff, List.map_cons, hid]
  exact List.nodup_cons.mpr ⟨hfresh, c.ids⟩

theorem Consistent.rest_uncrossed (limit : (x.stateAt i).orderType = .limit)
    (stop : ∀ o ∈ x.queue (opposite (x.stateAt i).side), acceptable (x.stateAt i) o = false) :
    ∀ a ∈ (x.rest i ts).1.queue .buy, ∀ b ∈ (x.rest i ts).1.queue .sell,
      a.priceTicks < b.priceTicks := by
  have hprice : (restingOrder (x.stateAt i)).priceTicks = (x.stateAt i).limitPriceTicks := rfl
  intro a ha b hb
  rcases (mem_rest symbol).mp ha with ha | ⟨rfl, hs⟩
  · rcases (mem_rest symbol).mp hb with hb | ⟨rfl, hs⟩
    · exact c.uncrossed a ha b hb
    · have h := stop a (by rw [← hs]; exact ha)
      simp only [acceptable, MatchingEngine.executable, limit, ← hs, ← hprice] at h
      simpa using h
  · rcases (mem_rest symbol).mp hb with hb | ⟨rfl, hs'⟩
    · have h := stop b (by rw [← hs]; exact hb)
      simp only [acceptable, MatchingEngine.executable, limit, ← hs, ← hprice] at h
      simpa using h
    · rw [← hs] at hs'
      cases hs'

/-- What remains of the order in hand goes to the back of its own queue. -/
theorem Consistent.rest (pos : 0 < wanted) (limit : (x.stateAt i).orderType = .limit)
    (stop : ∀ o ∈ x.queue (opposite (x.stateAt i).side), acceptable (x.stateAt i) o = false) :
    Consistent (x.rest i ts).1 none := by
  have hand := c.inHand i wanted rfl
  have ok := c.knownAt hand.stored
  have hwork : (x.stateAt i).status.Working := by
    have h := hand.status
    rwa [if_neg (by omega)] at h
  have hself : restingOrder (x.stateAt i) ∈ (x.rest i ts).1.queue (x.stateAt i).side :=
    (mem_rest symbol).mpr (.inr ⟨rfl, rfl⟩)
  have hstate : (x.rest i ts).1.state = x.state := by rw [rest_eq symbol]
  have hsymbol : (x.rest i ts).1.symbolId = x.symbolId := by rw [rest_eq symbol]
  refine ⟨by rw [rest_eq symbol]; exact c.fresh, ?_, ?_, c.rest_ids symbol,
    c.rest_uncrossed symbol limit stop, ?_, ?_, (fun _ _ h => by cases h), ?_⟩
  · intro s z hz
    rw [hsymbol]
    exact c.rest_filed symbol pos limit hz
  · intro s
    rw [rest_eq symbol]
    simp only
    split
    · rename_i hs
      subst hs
      have own : (restingOrder (x.stateAt i)).side = (x.stateAt i).side := rfl
      rw [← own]
      exact enqueue_sorted (c.sorted _)
    · exact c.sorted s
  · intro s z hz
    rw [hstate]
    rcases (mem_rest symbol).mp hz with hz | ⟨rfl, rfl⟩
    · exact c.backed s z hz
    · refine ⟨x.stateAt i, ?_, rfl, limit, hwork⟩
      exact (congrArg x.state ok.own).trans hand.stored
  · intro j st hj
    rw [hstate] at hj
    exact (c.known j st hj).mono hsymbol (by rw [rest_eq symbol])
  · intro j st hj habsent _
    rw [hstate] at hj
    unfold Over
    rw [hsymbol]
    refine c.idle j st hj (fun s z hz => habsent s z ((mem_rest symbol).mpr (.inl hz))) ?_
    intro w hw
    exact habsent _ _ hself (ok.own.trans (congrArg Prod.fst (Option.some.inj hw)))

end Rest

section Checked
variable {β : Type} (x : Exchange) (request : NewOrderRequest) (passed : β)
  (refused : RejectReason → β)

/-- The checks of a submit, one after the other, end as `malformed` says. -/
theorem elim_malformed : (x.malformed request).elim passed refused =
    if request.symbolId ≠ x.symbolId ∨ isValidSide request.side = false then refused .unsupported
    else if request.orderType ≠ .limit ∧ request.orderType ≠ .market then refused .unsupported
    else if request.quantity ≤ 0 then refused .invalidQuantity
    else if request.orderType = .limit ∧ request.priceTicks ≤ 0 then refused .invalidPrice
    else if request.timeInForce ≠ .gtc ∧ request.timeInForce ≠ .ioc ∧
        request.timeInForce ≠ .fok then refused .unsupported
    else if request.postOnly = true ∧
        (request.orderType ≠ .limit ∨ request.timeInForce ≠ .gtc) then refused .unsupported
    else passed := by
  unfold malformed
  simp only [apply_ite (fun reason => Option.elim reason passed refused), Option.elim_some,
    Option.elim_none]

theorem elim_inadmissible : (x.inadmissible request).elim passed refused =
    if request.postOnly && x.crosses request.side request.orderType request.priceTicks then
      refused .postOnlyWouldCross
    else if !request.postOnly && x.selfTrade request.side request.orderType request.priceTicks
        request.clientId then refused .selfTradePrevention
    else if decide (request.timeInForce = .fok) && !decide (request.quantity ≤
        x.available request.side request.orderType request.priceTicks) then
      refused .fokNotFillable
    else passed := by
  unfold inadmissible
  simp only [apply_ite (fun reason => Option.elim reason passed refused), Option.elim_some,
    Option.elim_none, Bool.and_eq_true, Bool.not_eq_true', decide_eq_true_iff,
    decide_eq_false_iff_not, not_le]

end Checked

theorem malformed_eq_none {request : NewOrderRequest} (h : x.malformed request = none) :
    request.symbolId = x.symbolId ∧ isValidSide request.side = true ∧ 0 < request.quantity ∧
      (request.orderType = .limit → 0 < request.priceTicks) ∧
      (request.postOnly = true → request.orderType = .limit ∧ request.timeInForce = .gtc) ∧
      (request.orderType = .limit ∨ request.orderType = .market) ∧
      (request.timeInForce = .gtc ∨ request.timeInForce = .ioc ∨ request.timeInForce = .fok) := by
  unfold malformed at h
  split at h
  · cases h
  rename_i place
  split at h
  · cases h
  rename_i type
  split at h
  · cases h
  rename_i quantity
  split at h
  · cases h
  rename_i price
  split at h
  · cases h
  rename_i time
  split at h
  · cases h
  rename_i passive
  push Not at place quantity price passive
  exact ⟨place.1, by simpa using place.2, quantity, price, passive, by tauto, by tauto⟩

theorem Consistent.enlist {request : NewOrderRequest} (c : Consistent x none)
    (ok : x.malformed request = none)
    (apart : x.selfTrade request.side request.orderType request.priceTicks request.clientId = false) :
    Consistent (x.enlist request).1 (some (x.nextExchangeOrderId, request.quantity)) := by
  obtain ⟨hsym, hside, hqty, hprice, -⟩ := malformed_eq_none ok
  have habsent : ∀ s, ∀ o ∈ x.queue s, o.orderId ≠ x.nextExchangeOrderId := by
    intro s o ho
    obtain ⟨hst, _⟩ := c.stateAt_order ho
    exact (c.knownAt hst).old.ne
  have hnext : 0 < x.nextExchangeOrderId := c.fresh
  have hself : (x.enlist request).1.stateAt x.nextExchangeOrderId = x.accepted request :=
    stateAt_setState_same x _ _
  refine c.lift x.nextExchangeOrderId (x.accepted request) (fun _ _ h => by cases h)
    (fun s => (dequeue_absent (habsent s)).symm) rfl rfl (Nat.le_succ _) ?_ (Or.inr ⟨_, rfl, ?_⟩)
  · exact ⟨rfl, hnext, Nat.lt_succ_self _, hside, hsym, le_rfl, fun _ => rfl, hprice⟩
  · refine ⟨habsent, hqty.le, ?_, ?_, ?_, ?_⟩
    · rw [hself]
      exact setState_same x _ _
    · rw [hself]
      exact sub_zero _
    · rw [if_neg hqty.ne', hself]
      exact Or.inl rfl
    · rw [hself]
      intro o ho hok hclient
      rw [show ((x.enlist request).1.stateAt o.orderId) = x.stateAt o.orderId from
        stateAt_setState_other x _ (habsent _ o ho)] at hclient
      by_contra hne
      have hst : x.selfTrade request.side request.orderType request.priceTicks request.clientId =
          true := selfTrade_eq_true.mpr ⟨hne, o, ho, hclient, hok⟩
      rw [apart] at hst
      cases hst

theorem Consistent.reopen (c : Consistent x none) (request : ReplaceOrderRequest) {s : Side}
    (ho : o ∈ x.queue s) (hid : o.orderId = request.exchangeOrderId) (hqty : 0 < request.newQuantity)
    (hprice : 0 < request.newPriceTicks)
    (apart : x.selfTrade (x.stateAt o.orderId).side (x.stateAt o.orderId).orderType
      request.newPriceTicks (x.stateAt o.orderId).clientId = false) :
    Consistent (x.reopen request).1 (some (o.orderId, request.newQuantity)) := by
  obtain ⟨hst, _⟩ := c.stateAt_order ho
  have hok := c.knownAt hst
  obtain ⟨st, hstdef⟩ : ∃ st : OrderState, st = { x.stateAt o.orderId with
      limitPriceTicks := request.newPriceTicks
      originalQuantity := (x.stateAt o.orderId).filledQuantity + request.newQuantity
      status := .replaced
      timestampNs := request.timestampNs } := ⟨_, rfl⟩
  have hreopen : (x.reopen request).1 = { x.setState o.orderId st with
      queue := fun s => dequeue o.orderId (x.queue s) } := by
    rw [hstdef, hid]
    rfl
  have hself : (x.reopen request).1.stateAt o.orderId = st := by
    rw [hreopen]
    exact stateAt_setState_same x _ _
  refine c.lift o.orderId st (fun _ _ h => by cases h) (fun s => by rw [hreopen])
    (by rw [hreopen]; rfl) (by rw [hreopen]; rfl) (by rw [hreopen]; exact le_rfl) ?_
    (Or.inr ⟨_, rfl, ?_⟩)
  · rw [hreopen, hstdef]
    exact { hok with unfilled := (fun h => by cases h), price := fun _ => hprice }
  · refine ⟨?_, hqty.le, ?_, ?_, ?_, ?_⟩
    · rw [hreopen]
      exact fun s y hy => (mem_dequeue.mp hy).2
    · rw [hself, hreopen]
      exact setState_same x _ _
    · rw [hself, hstdef]
      exact add_sub_cancel_left _ _
    · rw [if_neg hqty.ne', hself, hstdef]
      exact Or.inr (Or.inr rfl)
    · rw [hself]
      intro y hy hacc hclient
      rw [hreopen] at hy hclient
      obtain ⟨hy, hne⟩ := mem_dequeue.mp hy
      rw [show (Exchange.stateAt { x.setState o.orderId st with
        queue := fun s => dequeue o.orderId (x.queue s) } y.orderId) = x.stateAt y.orderId from
        stateAt_setState_other x _ hne] at hclient
      rw [hstdef] at hy hacc hclient ⊢
      by_contra hne'
      have hst : x.selfTrade (x.stateAt o.orderId).side (x.stateAt o.orderId).orderType
          request.newPriceTicks (x.stateAt o.orderId).clientId = true :=
        selfTrade_eq_true.mpr ⟨hne', y, hy, hclient, hacc⟩
      rw [apart] at hst
      cases hst

end Keep
end Exchange
end Asterion
