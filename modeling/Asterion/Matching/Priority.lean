import Asterion.Matching.Answers

/-! Price-time priority: an accepted order walks the opposite queue greedily, and the
queues are ordered by price and by when each order last came to rest. -/
namespace Asterion

open Lib
open MatchingEngine (Request executable)

namespace MatchingEngine

open Exchange

/-- The answer starts by announcing a new or a replaced order. -/
def Accepted (answer : List ExecutionReport) : Prop :=
  ∃ r, answer.head? = some r ∧ (r.execType = .new ∨ r.execType = .replaced)

/-- The greedy walk of an incoming order: each order of the queue in turn gives what is
still wanted or all it has, up to the first that is worse than the limit. -/
def walk (t : Terms) (queue : List Order) : List (Order × Int) :=
  Sweep.fills Order.quantity (fun o => executable t.side t.orderType t.limit o.priceTicks)
    t.quantity queue

/-- The queue without the consumed prefix, its last order possibly reduced in place. -/
def unconsumed (t : Terms) (queue : List Order) : List Order :=
  Sweep.leftover Order.quantity (fun o => executable t.side t.orderType t.limit o.priceTicks)
    (fun n o => { o with quantity := o.quantity - n }) t.quantity queue

/-- The order that comes to rest when a request is served: one that was accepted or
replaced and is in the book afterwards. -/
def cameToRest (e : MatchingEngine) (request : Request) : Option Nat :=
  match (e.serve request).reports.head? with
  | some r =>
    if (r.execType = .new ∨ r.execType = .replaced) ∧
        ((e.serve request).engine.book.findOrder r.exchangeOrderId).isSome then
      some r.exchangeOrderId
    else none
  | none => none

/-- For each order the number of the request at which it last came to rest. -/
def restedAt (e : MatchingEngine) (clock : Nat) (stamp : Nat → Nat) : List Request → Nat → Nat
  | [] => stamp
  | request :: requests =>
    restedAt (e.serve request).engine (clock + 1)
      (match e.cameToRest request with
      | some id => Function.update stamp id clock
      | none => stamp) requests

def lastRest (e : MatchingEngine) (requests : List Request) : Nat → Nat :=
  e.restedAt 1 (fun _ => 0) requests

/-- Strictly better price, or the same price and longer at rest. -/
def Ahead (side : Side) (stamp : Nat → Nat) (a b : Order) : Prop :=
  Order.outranks side a b ∨ (a.priceTicks = b.priceTicks ∧ stamp a.orderId < stamp b.orderId)

/-- The queues are in price-time priority, and every rest lies before the clock. -/
structure InOrder (e : MatchingEngine) (clock : Nat) (stamp : Nat → Nat) : Prop where
  ahead : ∀ side, (e.book.queue side).Pairwise (Ahead side stamp)
  past : ∀ side, ∀ o ∈ e.book.queue side, stamp o.orderId < clock

theorem Ahead.congr {side : Side} {stamp : Nat → Nat} {a a' b : Order} (h : Ahead side stamp a b)
    (hid : a'.orderId = a.orderId) (hprice : a'.priceTicks = a.priceTicks) :
    Ahead side stamp a' b := by
  simpa only [Ahead, Order.outranks, hid, hprice] using h

theorem enqueue_ahead {o : Order} {stamp : Nat → Nat} {q : List Order}
    (h : q.Pairwise (Ahead o.side stamp)) (late : ∀ a ∈ q, stamp a.orderId < stamp o.orderId) :
    (enqueue o q).Pairwise (Ahead o.side stamp) := by
  induction q with
  | nil => exact List.pairwise_singleton _ _
  | cons a q ih =>
    unfold enqueue
    rw [List.orderedInsert_cons]
    split
    · rename_i better
      refine List.Pairwise.cons ?_ h
      intro b hb
      rcases List.mem_cons.mp hb with rfl | hb
      · exact Or.inl better
      · rcases List.rel_of_pairwise_cons h hb with hab | ⟨hab, _⟩
        · exact Or.inl (trans_of (before o.side) better hab)
        · exact Or.inl (by rw [Order.outranks, ← hab]; exact better)
    · rename_i notBetter
      refine List.Pairwise.cons ?_ (ih h.of_cons (fun b hb => late b (List.mem_cons_of_mem _ hb)))
      intro b hb
      rcases mem_enqueue.mp hb with rfl | hb
      · rcases trichotomous_of (before b.side) a.priceTicks b.priceTicks with hr | hr | hr
        · exact Or.inl hr
        · exact Or.inr ⟨hr, late a List.mem_cons_self⟩
        · exact absurd hr notBetter
      · exact List.rel_of_pairwise_cons h hb

theorem ahead_update {side : Side} {stamp : Nat → Nat} {id clock : Nat} {q : List Order}
    (other : ∀ o ∈ q, o.orderId ≠ id) (h : q.Pairwise (Ahead side stamp)) :
    q.Pairwise (Ahead side (Function.update stamp id clock)) := by
  refine h.imp_of_mem (fun {a b} ha hb hab => ?_)
  simpa only [Ahead, Function.update_of_ne (other a ha), Function.update_of_ne (other b hb)] using hab

theorem told_trades {i : Nat} {side : Side} {fs : List (Order × Int)}
    {ps : List (ExecutionReport × ExecutionReport)} (told : List.Forall₂ (TellsFill i side) fs ps) :
    ps.map (fun p =>
      (p.1.exchangeOrderId, p.2.exchangeOrderId, p.1.lastFillQuantity, p.1.lastFillPriceTicks)) =
    fs.map (fun f => (f.1.orderId, i, f.2, f.1.priceTicks)) := by
  induction told with
  | nil => rfl
  | cons h _ ih =>
    rw [List.map_cons, List.map_cons, ih, h.resting, h.incoming, h.quantity.1, h.price.1]

section Serve
variable {e : MatchingEngine} {clock : Nat} {stamp : Nat → Nat}

/-- What serving an accepted request does to the two queues, and the trades it reports. -/
structure Walks (e : MatchingEngine) (request : Request) (t : Terms) : Prop where
  trades : (tradePairs (e.serve request).reports).map (fun p =>
      (p.1.exchangeOrderId, p.2.exchangeOrderId, p.1.lastFillQuantity, p.1.lastFillPriceTicks)) =
    (walk t (e.book.queue (opposite t.side))).map (fun f => (f.1.orderId, t.id, f.2, f.1.priceTicks))
  within : t.orderType = .limit → ∀ p ∈ tradePairs (e.serve request).reports,
    (t.side = .buy → p.2.lastFillPriceTicks ≤ t.limit) ∧
    (t.side = .sell → t.limit ≤ p.2.lastFillPriceTicks)
  opposite : (e.serve request).engine.book.queue (opposite t.side) =
    unconsumed t (e.book.queue (opposite t.side))
  own : (e.serve request).engine.book.queue t.side =
    match (e.serve request).engine.book.findOrder t.id with
    | none => dequeue t.id (e.book.queue t.side)
    | some o => enqueue o (dequeue t.id (e.book.queue t.side))

theorem Sound.walks (s : e.Sound) {request : Request} {y : Exchange} {ts : Int} {rests : Bool}
    (take : TakesInHand e.view request y ts rests) : Walks e request (e.view.terms request) := by
  obtain ⟨t, ht⟩ : ∃ t, t = e.view.terms request := ⟨_, rfl⟩
  obtain ⟨c, _, hside, haccepts, hfacing, hown, first, hkind, _, hserve⟩ := take
  rw [← ht] at c hside haccepts hfacing hown hserve ⊢
  have ex := c.executed ts rests
  have s' := s.serve request
  have hreports := s.serve_reports request
  have hview := s.serve_view request
  rw [hserve] at hreports hview
  simp only at hreports hview
  have hnot : first.execType ≠ .trade := by rcases hkind with h | h <;> rw [h] <;> simp
  have hpairs : tradePairs (e.serve request).reports =
      tradePairs (y.execute t.id t.quantity rests ts).2 := by
    rw [hreports, Paired.tradePairs_cons hnot]
  have hsweep : y.sweep t.id t.quantity = walk t (e.book.queue (Asterion.opposite t.side)) := by
    unfold sweep walk
    rw [hside, haccepts, hfacing]
    rfl
  have hfills := ex.fills
  rw [hside, hsweep, ← hpairs] at hfills
  have hfound : ∀ id, (e.serve request).engine.book.findOrder id = none ↔
      ∀ s, ∀ o ∈ (e.serve request).engine.book.queue s, o.orderId ≠ id := by
    intro id
    rw [OrderBook.findOrder_eq_none s'.wf]
    exact ⟨fun h s o ho => h o (OrderBook.mem_resting_of_queue s'.wf ho),
      fun h o ho => h o.side o ((OrderBook.mem_resting s'.wf).mp ho)⟩
  have hq : ∀ side, (e.serve request).engine.book.queue side =
      (y.execute t.id t.quantity rests ts).1.queue side := fun side => by rw [← hview]; rfl
  have hopp : (e.serve request).engine.book.queue (Asterion.opposite t.side) =
      unconsumed t (e.book.queue (Asterion.opposite t.side)) := by
    rw [hq, ← hside, ex.facing, remainder, facing, haccepts, hside, hfacing]
    rfl
  refine ⟨told_trades hfills, ?_, hopp, ?_⟩
  · intro hlimit p hp
    obtain ⟨f, hf, told⟩ := exists_fill hfills hp
    have hmem : ∀ a ∈ e.book.queue (Asterion.opposite t.side), 0 < a.quantity := fun a ha =>
      OrderBook.quantity_pos s.wf (OrderBook.mem_resting_of_queue s.wf ha)
    have hok := (Sweep.mem_fills hmem hf).2.1
    rw [told.price.2]
    constructor
    · intro hbuy
      simpa [executable, hlimit, hbuy] using hok
    · intro hsell
      have hne : (Side.sell == Side.buy) = false := rfl
      simpa [executable, hlimit, hsell, hne] using hok
  · have hvalid := (c.knownAt (c.inHand _ _ rfl).stored).side
    have hqown : (e.serve request).engine.book.queue t.side =
        (y.execute t.id t.quantity rests ts).1.queue (y.stateAt t.id).side := by rw [hq, hside]
    have hold : y.queue (y.stateAt t.id).side = dequeue t.id (e.book.queue t.side) := by
      rw [hside, hown]
      rfl
    have hfar : ∀ o ∈ (e.serve request).engine.book.queue (Asterion.opposite t.side),
        o.orderId ≠ t.id := by
      intro o ho
      rw [hopp] at ho
      obtain ⟨b, hb, hob⟩ := Sweep.mem_leftover ho
      have hbid : b.orderId ≠ t.id := by
        refine (c.inHand _ _ rfl).absent (Asterion.opposite t.side) b ?_
        rw [hfacing]
        exact hb
      rcases hob with rfl | ⟨_, rfl⟩
      · exact hbid
      · exact hbid
    rcases ex.own with h | ⟨o, hoid, hoside, h⟩
    · rw [h, hold] at hqown
      have hnone : (e.serve request).engine.book.findOrder t.id = none := by
        rw [hfound]
        intro side o ho
        by_cases hs : side = t.side
        · rw [hs, hqown] at ho
          exact (mem_dequeue.mp ho).2
        · rw [hside] at hvalid
          have hs' : side = Asterion.opposite t.side := by
            have hv := OrderBook.valid_side ho
            cases hts : t.side <;> cases side <;> simp_all [Asterion.opposite]
          exact hfar o (hs' ▸ ho)
      rw [hnone]
      exact hqown
    · rw [h, hold] at hqown
      have hsome : (e.serve request).engine.book.findOrder t.id = some o := by
        refine (OrderBook.findOrder_eq_some s'.wf).mpr ⟨?_, hoid⟩
        refine OrderBook.mem_resting_of_queue s'.wf (s := t.side) ?_
        rw [hqown]
        exact mem_enqueue.mpr (Or.inl rfl)
      rw [hsome]
      exact hqown

theorem Sound.declines_rest (s : e.Sound) {request : Request} (d : Declines e.view request) :
    ¬ Accepted (e.serve request).reports ∧ e.cameToRest request = none := by
  obtain ⟨r, hr, _, hnew, hreplaced⟩ := d.answer
  rw [← s.serve_reports] at hr
  constructor
  · rintro ⟨r', hr', hkind⟩
    rw [hr] at hr'
    cases hr'
    exact hkind.elim hnew hreplaced
  · unfold cameToRest
    rw [hr]
    simp [hnew, hreplaced]

theorem Sound.takes_rest (s : e.Sound) {request : Request} {y : Exchange} {ts : Int} {rests : Bool}
    (take : TakesInHand e.view request y ts rests) :
    Accepted (e.serve request).reports ∧ e.cameToRest request =
      if ((e.serve request).engine.book.findOrder (e.view.terms request).id).isSome then
        some (e.view.terms request).id else none := by
  obtain ⟨first, hkind, hid, hserve⟩ := take.answer
  have hreports := s.serve_reports request
  rw [hserve] at hreports
  refine ⟨⟨first, by rw [hreports]; rfl, hkind⟩, ?_⟩
  unfold cameToRest
  rw [hreports]
  simp only [List.head?_cons, hid]
  by_cases h : ((e.serve request).engine.book.findOrder (e.view.terms request).id).isSome = true
  · rw [if_pos ⟨hkind, h⟩, if_pos h]
  · rw [if_neg (fun hc => h hc.2), if_neg h]

theorem InOrder.opposite_unconsumed (inOrder : InOrder e clock stamp) (t : Terms) :
    (unconsumed t (e.book.queue (opposite t.side))).Pairwise (Ahead (opposite t.side) stamp) ∧
    ∀ o ∈ unconsumed t (e.book.queue (opposite t.side)), stamp o.orderId < clock ∧
      ∃ b ∈ e.book.queue (opposite t.side), b.orderId = o.orderId := by
  refine ⟨Sweep.leftover_pairwise (fun n a b h => h.congr rfl rfl) (inOrder.ahead _), ?_⟩
  intro o ho
  obtain ⟨b, hb, hob⟩ := Sweep.mem_leftover ho
  have hid : b.orderId = o.orderId := by rcases hob with rfl | ⟨_, rfl⟩ <;> rfl
  exact ⟨hid ▸ inOrder.past _ b hb, b, hb, hid⟩

/-- Serving a request keeps the queues in price-time priority, with the stamp of an order
renewed exactly when it comes to rest. -/
theorem Sound.serve_inOrder (s : e.Sound) (request : Request) (inOrder : InOrder e clock stamp) :
    InOrder (e.serve request).engine (clock + 1)
      (match e.cameToRest request with
      | some id => Function.update stamp id clock
      | none => stamp) := by
  rcases s.consistent.serve_cases request with d | ⟨y, ts, rests, take⟩
  · rw [(s.declines_rest d).2]
    have hsub : ∀ side, ((e.serve request).engine.book.queue side).Sublist (e.book.queue side) := by
      intro side
      have h := d.queue side
      rw [← s.serve_view] at h
      exact h
    exact ⟨fun side => (inOrder.ahead side).sublist (hsub side),
      fun side o ho => (inOrder.past side o ((hsub side).subset ho)).trans (Nat.lt_succ_self _)⟩
  · have w := s.walks take
    have s' := s.serve request
    rw [(s.takes_rest take).2]
    obtain ⟨t, ht⟩ : ∃ t, t = e.view.terms request := ⟨_, rfl⟩
    have c := take.consistent
    have hvalid := (c.knownAt (c.inHand _ _ rfl).stored).side
    rw [take.side] at hvalid
    have hfacing := take.facing
    rw [← ht] at w c hvalid hfacing ⊢
    obtain ⟨hopp, hoppMem⟩ := inOrder.opposite_unconsumed t
    have hoppId : ∀ o ∈ unconsumed t (e.book.queue (opposite t.side)), o.orderId ≠ t.id := by
      intro o ho
      obtain ⟨_, b, hb, hid⟩ := hoppMem o ho
      rw [← hid]
      refine (c.inHand _ _ rfl).absent (opposite t.side) b ?_
      rw [hfacing]
      exact hb
    have hownPair : (dequeue t.id (e.book.queue t.side)).Pairwise (Ahead t.side stamp) :=
      (inOrder.ahead t.side).sublist List.filter_sublist
    have hownMem : ∀ o ∈ dequeue t.id (e.book.queue t.side),
        stamp o.orderId < clock ∧ o.orderId ≠ t.id := fun o ho =>
      ⟨inOrder.past _ o (mem_dequeue.mp ho).1, (mem_dequeue.mp ho).2⟩
    have hside : ∀ side, (e.serve request).engine.book.queue side ≠ [] →
        side = t.side ∨ side = opposite t.side := by
      intro side hne
      obtain ⟨o, ho⟩ := List.exists_mem_of_ne_nil _ hne
      have hv := OrderBook.valid_side ho
      cases hts : t.side <;> cases side <;> simp_all [Asterion.opposite]
    cases hf : (e.serve request).engine.book.findOrder t.id with
    | none =>
      have hown := w.own
      rw [hf] at hown
      simp only [Option.isSome_none, Bool.false_eq_true, if_false]
      constructor
      · intro side
        by_cases hnil : (e.serve request).engine.book.queue side = []
        · rw [hnil]; exact .nil
        · rcases hside side hnil with rfl | rfl
          · rw [hown]; exact hownPair
          · rw [w.opposite]; exact hopp
      · intro side o ho
        rcases hside side (List.ne_nil_of_mem ho) with rfl | rfl
        · rw [hown] at ho
          exact (hownMem o ho).1.trans (Nat.lt_succ_self _)
        · rw [w.opposite] at ho
          exact (hoppMem o ho).1.trans (Nat.lt_succ_self _)
    | some o =>
      have hown := w.own
      rw [hf] at hown
      have hoid : o.orderId = t.id := ((OrderBook.findOrder_eq_some s'.wf).mp hf).2
      have hoside : o.side = t.side := by
        refine (OrderBook.mem_queue s'.wf (s := t.side) ?_).1
        rw [hown]
        exact mem_enqueue.mpr (Or.inl rfl)
      simp only [Option.isSome_some, if_true]
      constructor
      · intro side
        by_cases hnil : (e.serve request).engine.book.queue side = []
        · rw [hnil]; exact .nil
        · rcases hside side hnil with rfl | rfl
          · rw [hown, ← hoside]
            refine enqueue_ahead (ahead_update (fun b hb => ?_) ?_) ?_
            · rw [hoside] at hb
              exact (hownMem b hb).2
            · rw [hoside]
              exact hownPair
            · intro b hb
              rw [hoside] at hb
              rw [hoid, Function.update_self, Function.update_of_ne (hownMem b hb).2]
              exact (hownMem b hb).1
          · rw [w.opposite]
            exact ahead_update hoppId hopp
      · intro side b hb
        rcases hside side (List.ne_nil_of_mem hb) with rfl | rfl
        · rw [hown] at hb
          rcases mem_enqueue.mp hb with rfl | hb
          · rw [hoid, Function.update_self]
            exact Nat.lt_succ_self _
          · rw [Function.update_of_ne (hownMem b hb).2]
            exact (hownMem b hb).1.trans (Nat.lt_succ_self _)
        · rw [w.opposite] at hb
          rw [Function.update_of_ne (hoppId b hb)]
          exact (hoppMem b hb).1.trans (Nat.lt_succ_self _)

theorem Sound.run_inOrder (s : e.Sound) (requests : List Request) (inOrder : InOrder e clock stamp) :
    ∀ side, ((e.run requests).engine.book.queue side).Pairwise
      (Ahead side (e.restedAt clock stamp requests)) := by
  induction requests generalizing e clock stamp with
  | nil => exact inOrder.ahead
  | cons request requests ih => exact ih (s.serve request) (s.serve_inOrder request inOrder)

end Serve

theorem new_inOrder (symbolId : Nat) : InOrder (new symbolId) 1 (fun _ => 0) where
  ahead := fun side => by cases side <;> exact .nil
  past := fun side o ho => by cases side <;> cases ho

/-- In every reachable state an accepted submit or replace walks the opposite queue
greedily, and the queues stand in the order of price and of last coming to rest. -/
theorem price_time_priority (symbolId : Nat) (requests : List Request) :
    (∀ request, Accepted (((new symbolId).run requests).engine.serve request).reports →
      Walks ((new symbolId).run requests).engine request
        (((new symbolId).run requests).engine.view.terms request)) ∧
    ∀ side, (((new symbolId).run requests).engine.book.queue side).Pairwise
      (Ahead side ((new symbolId).lastRest requests)) := by
  have s := (new_sound symbolId).run requests
  refine ⟨fun request haccepted => ?_,
    (new_sound symbolId).run_inOrder requests (new_inOrder symbolId)⟩
  rcases s.consistent.serve_cases request with d | ⟨y, ts, rests, take⟩
  · exact absurd haccepted (s.declines_rest d).1
  · exact s.walks take

end MatchingEngine
end Asterion
