import Asterion.Book.Operations

/-! What an order book is for, whatever its representation: two queues of orders in
price-time priority and the operations on them. An operation that the book refuses has no
result. -/
namespace Asterion

open Lib

/-- Takes a quantity from a resting order, which leaves the queue when nothing remains. -/
def consume (f : Order × Int) (queue : List Order) : List Order :=
  if f.2 < f.1.quantity then shrink f.1.orderId f.2 queue else dequeue f.1.orderId queue

abbrev Queues := Side → List Order

namespace Queues

def find (q : Queues) (orderId : Nat) : Option Order :=
  (q .buy ++ q .sell).find? (fun o => o.orderId = orderId)

def add (q : Queues) (symbolId : Nat) (order : Order) : Option Queues :=
  if isValidRestingOrder order = true ∧ order.symbolId = symbolId ∧ q.find order.orderId = none then
    some (fun s => if s = order.side then enqueue order (q s) else q s)
  else none

def cancel (q : Queues) (orderId : Nat) : Option Queues :=
  (q.find orderId).map (fun _ s => dequeue orderId (q s))

def reduce (q : Queues) (orderId : Nat) (quantity : Int) : Option Queues :=
  if quantity ≤ 0 then none
  else (q.find orderId).map (fun o s => consume (o, quantity) (q s))

def replace (q : Queues) (orderId : Nat) (newPriceTicks newQuantity timestampNs : Int)
    (sequenceNumber : Nat) : Option Queues :=
  if newPriceTicks ≤ 0 ∨ newQuantity ≤ 0 then none
  else (q.find orderId).map (fun o s =>
    if s = o.side then
      enqueue { o with
        priceTicks := newPriceTicks, quantity := newQuantity, timestampNs, sequenceNumber }
        (dequeue orderId (q s))
    else q s)

end Queues

namespace OrderBook

theorem reduceOrder_consume {b : OrderBook} (wf : b.WF) {o : Order} {n : Int}
    (ho : o ∈ b.resting) (pos : 0 < n) :
    ∃ b', b.reduceOrder o.orderId n = (b', true) ∧ b'.WF ∧ b'.symbolId = b.symbolId ∧
      ∀ s, b'.queue s = consume (o, n) (b.queue s) := by
  by_cases part : n < o.quantity
  · obtain ⟨b', hb, wf', hsym, hq⟩ := reduceOrder_partial wf ho pos part
    refine ⟨b', hb, wf', hsym, fun s => ?_⟩
    rw [hq, consume, if_pos part]
  · obtain ⟨b', hb, wf', hsym, hq⟩ := cancelOrder_resting wf ho
    refine ⟨b', (reduceOrder_full wf ho (not_lt.mp part)).trans hb, wf', hsym, fun s => ?_⟩
    rw [hq, consume, if_neg part]

/-- An operation has done to the book what it does to the queues. -/
structure Outcome (b : OrderBook) (applied : OrderBook × Bool) (result : Option Queues) : Prop where
  wf : applied.1.WF
  symbol : applied.1.symbolId = b.symbolId
  done : applied.2 = result.isSome
  queue : applied.1.queue = result.getD b.queue

section Outcomes
variable {b : OrderBook} (wf : b.WF)
include wf

theorem find_eq (orderId : Nat) : Queues.find b.queue orderId = b.findOrder orderId := by
  apply Option.ext
  intro o
  rw [findOrder_eq_some wf]
  constructor
  · intro h
    have hid := List.find?_some (p := fun o : Order => o.orderId = orderId) h
    exact ⟨List.mem_of_find?_eq_some h, of_decide_eq_true hid⟩
  · rintro ⟨ho, rfl⟩
    cases hf : Queues.find b.queue o.orderId with
    | none => exact absurd (List.find?_eq_none.mp hf o ho) (by simp)
    | some x =>
      have hx : x ∈ b.resting := List.mem_of_find?_eq_some hf
      have hid := List.find?_some (p := fun y : Order => y.orderId = o.orderId) hf
      have hid : x.orderId = o.orderId := of_decide_eq_true hid
      rw [resting_unique wf hx ho hid]

theorem refused {applied : OrderBook × Bool} (h : applied = (b, false)) :
    Outcome b applied none := by
  subst h
  exact ⟨wf, rfl, rfl, rfl⟩

theorem addOrder_outcome (order : Order) :
    Outcome b (b.addOrder order) (Queues.add b.queue b.symbolId order) := by
  unfold Queues.add
  rw [find_eq wf]
  split
  · rename_i h
    obtain ⟨b', hb, wf', hsym, hq⟩ := addOrder_accepted wf h.1 h.2.1 h.2.2
    rw [hb]
    exact ⟨wf', hsym, rfl, funext hq⟩
  · rename_i h
    refine refused wf (addOrder_refused ?_)
    by_contra hn
    rw [not_or, not_or, not_not, not_not, Bool.not_eq_false] at hn
    exact h hn

theorem cancelOrder_outcome (orderId : Nat) :
    Outcome b (b.cancelOrder orderId) (Queues.cancel b.queue orderId) := by
  unfold Queues.cancel
  rw [find_eq wf]
  cases hf : b.findOrder orderId with
  | none => exact refused wf (cancelOrder_unknown hf)
  | some o =>
    obtain ⟨ho, rfl⟩ := (findOrder_eq_some wf).mp hf
    obtain ⟨b', hb, wf', hsym, hq⟩ := cancelOrder_resting wf ho
    rw [hb]
    exact ⟨wf', hsym, rfl, funext hq⟩

theorem reduceOrder_outcome (orderId : Nat) (quantity : Int) :
    Outcome b (b.reduceOrder orderId quantity) (Queues.reduce b.queue orderId quantity) := by
  unfold Queues.reduce
  split
  · rename_i h
    exact refused wf (reduceOrder_nonpositive h)
  · rename_i h
    rw [find_eq wf]
    cases hf : b.findOrder orderId with
    | none => exact refused wf (reduceOrder_unknown hf)
    | some o =>
      obtain ⟨ho, rfl⟩ := (findOrder_eq_some wf).mp hf
      obtain ⟨b', hb, wf', hsym, hq⟩ := reduceOrder_consume wf ho (not_le.mp h)
      rw [hb]
      exact ⟨wf', hsym, rfl, funext hq⟩

theorem replaceOrder_outcome (orderId : Nat) (p n ts : Int) (sequenceNumber : Nat) :
    Outcome b (b.replaceOrder orderId p n ts sequenceNumber)
      (Queues.replace b.queue orderId p n ts sequenceNumber) := by
  unfold Queues.replace
  split
  · rename_i h
    exact refused wf (replaceOrder_refused (or_assoc.mp (Or.inl h)))
  · rename_i h
    rw [find_eq wf]
    cases hf : b.findOrder orderId with
    | none => exact refused wf (replaceOrder_refused (Or.inr (Or.inr hf)))
    | some o =>
      obtain ⟨ho, rfl⟩ := (findOrder_eq_some wf).mp hf
      obtain ⟨b', hb, wf', hsym, hq⟩ :=
        replaceOrder_resting (p := p) (q := n) (n := sequenceNumber) wf ho (by omega) (by omega)
      rw [hb]
      exact ⟨wf', hsym, rfl, funext hq⟩

end Outcomes

/-- Two books that no reading distinguishes: the same levels with the same orders in the same
order, and the same answer to every lookup. -/
structure Same (b c : OrderBook) : Prop where
  symbol : b.symbolId = c.symbolId
  bids : b.bids = c.bids
  asks : b.asks = c.asks
  find : ∀ orderId, b.findOrder orderId = c.findOrder orderId

section Readings
variable {b c : OrderBook} (wf : b.WF) (wf' : c.WF) (same : b.queue = c.queue)
include wf wf' same

theorem level_ext (side : Side) (p : Int) : b.level side p = c.level side p := by
  have orders := level_orders wf side p
  rw [same, ← level_orders wf' side p] at orders
  have nonempty {d : OrderBook} (hd : d.WF) {l : PriceLevel} (hl : d.level side p = some l) :=
    hd.levels side _ (level_eq_some.mp hl)
  cases hb : b.level side p with
  | none =>
    cases hc : c.level side p with
    | none => rfl
    | some l =>
      rw [hb, hc] at orders
      exact absurd orders.symm (nonempty wf' hc).nonempty
  | some l =>
    cases hc : c.level side p with
    | none =>
      rw [hb, hc] at orders
      exact absurd orders (nonempty wf hb).nonempty
    | some k =>
      rw [hb, hc] at orders
      have hl := nonempty wf hb
      have hk := nonempty wf' hc
      obtain ⟨key, total, os⟩ := l
      obtain ⟨key', total', os'⟩ := k
      obtain rfl : os = os' := orders
      obtain rfl : key = p := hl.key
      obtain rfl : key' = key := hk.key
      obtain rfl : total = total' := hl.total.trans hk.total.symm
      rfl

/-- The queues determine the levels. -/
theorem same_of_queue (symbol : b.symbolId = c.symbolId) : Same b c := by
  refine ⟨symbol, ?_, ?_, ?_⟩
  · apply SortedMap.ext
    have h := b.bids.map_entries_eq c.bids (fun k v => (k, v)) (fun k v => (k, v))
      (fun p => congrArg (Option.map _) (level_ext wf wf' same .buy p))
    simpa using h
  · apply SortedMap.ext
    have h := b.asks.map_entries_eq c.asks (fun k v => (k, v)) (fun k v => (k, v))
      (fun p => congrArg (Option.map _) (level_ext wf wf' same .sell p))
    simpa using h
  · intro orderId
    rw [← find_eq wf, ← find_eq wf', same]

end Readings

theorem Same.checksum {b c : OrderBook} (h : Same b c) : b.checksum = c.checksum := by
  unfold OrderBook.checksum
  rw [h.symbol, h.bids, h.asks]

theorem Same.queue {b c : OrderBook} (h : Same b c) : b.queue = c.queue := by
  funext side
  unfold OrderBook.queue levels
  rw [h.bids, h.asks]

theorem clear_queue (b : OrderBook) : b.clear.queue = fun _ => [] := funext (clear_wf b).2

end OrderBook
end Asterion
