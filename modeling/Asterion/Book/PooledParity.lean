import Asterion.Book.PooledQueries

/-! The pooled book and the default book in lockstep: every call is answered alike, and between calls
every query, the checksum and the verdict of the invariant check are the same. -/
namespace Asterion

open Lib Lib.SortedMap Lib.LinkedPath List

/-- A call that changes a book. -/
inductive BookCall where
  | operate (operation : BookOperation)
  | reserve (orderCount : Nat)
  deriving DecidableEq, Repr

namespace OrderBook

def serve (b : OrderBook) : BookCall → OrderBook × Bool
  | .operate operation => b.apply operation
  | .reserve orderCount => (b.reserveOrderCapacity orderCount, true)

def serveAll (b : OrderBook) : List BookCall → OrderBook × List Bool
  | [] => (b, [])
  | call :: calls =>
    let first := b.serve call
    let rest := first.1.serveAll calls
    (rest.1, first.2 :: rest.2)

end OrderBook

namespace PooledOrderBook

def apply (p : PooledOrderBook) : BookOperation → Option (PooledOrderBook × Bool)
  | .clear => some (p.clear, true)
  | .add order => p.addOrder order
  | .cancel orderId => some (p.cancelOrder orderId)
  | .reduce orderId quantity => some (p.reduceOrder orderId quantity)
  | .replace orderId newPriceTicks newQuantity timestampNs sequenceNumber =>
    p.replaceOrder orderId newPriceTicks newQuantity timestampNs sequenceNumber

def serve (p : PooledOrderBook) : BookCall → Option (PooledOrderBook × Bool)
  | .operate operation => p.apply operation
  | .reserve orderCount => (p.reserveOrderCapacity orderCount).map (fun p => (p, true))

def serveAll (p : PooledOrderBook) : List BookCall → Option (PooledOrderBook × List Bool)
  | [] => some (p, [])
  | call :: calls =>
    (p.serve call).bind (fun first =>
      (first.1.serveAll calls).map (fun rest => (rest.1, first.2 :: rest.2)))

variable {p : PooledOrderBook} {b : OrderBook} {m : NodeMap} {o : Order}

theorem new_mirrors (symbolId : Nat) : Mirrors (new symbolId) (OrderBook.new symbolId) ∅ where
  wf := OrderBook.new_wf symbolId
  symbol := rfl
  index := FlatOrderIndex.new_represents
  filed :=
    { stored := fun o ho => by cases ho
      known := fun id i lookup => by cases lookup
      active := fun i active => by simp [nodeAt, new] at active }
  levels side := by cases side <;> exact .nil
  free := ⟨[], rfl, .nil, fun i => by simp [new]⟩

section Calls
variable (h : Mirrors p b m)
include h

theorem Mirrors.findOrder_eq (id : Nat) : p.findOrder id = b.findOrder id := by
  unfold findOrder
  rw [h.index.find]
  cases lookup : m.lookup id with
  | none =>
    symm
    rw [OrderBook.findOrder_eq_none h.wf]
    rintro o ho rfl
    rw [(h.filed.at ho).1] at lookup
    cases lookup
  | some i =>
    obtain ⟨o, ho, rfl, rfl, active, order⟩ := h.filed.found lookup
    rw [(OrderBook.findOrder_eq_some h.wf).mpr ⟨ho, rfl⟩]
    dsimp only
    rw [if_pos active, order]

def Agree (done : Option (PooledOrderBook × Bool)) (done' : OrderBook × Bool) : Prop :=
  ∃ p m, done = some (p, done'.2) ∧ Mirrors p done'.1 m

theorem Mirrors.unchanged {done : Option (PooledOrderBook × Bool)} {done' : OrderBook × Bool}
    (here : done = some (p, false)) (there : done' = (b, false)) : Agree done done' := by
  subst here there
  exact ⟨p, m, rfl, h⟩

theorem Mirrors.addOrder_agree (o : Order) : Agree (p.addOrder o) (b.addOrder o) := by
  by_cases accepted : isValidRestingOrder o = true ∧ o.symbolId = b.symbolId
  · cases found : b.findOrder o.orderId with
    | none =>
      obtain ⟨p', m', done, mirrors⟩ := h.add accepted.1 accepted.2 found
      obtain ⟨b', added, -⟩ := OrderBook.addOrder_accepted h.wf accepted.1 accepted.2 found
      refine ⟨p', m', ?_, mirrors⟩
      rw [done, added]
    | some x =>
      obtain ⟨hx, same⟩ := (OrderBook.findOrder_eq_some h.wf).mp found
      refine h.unchanged ?_ (OrderBook.addOrder_refused (.inr (.inr (by simp [found]))))
      have known := h.find_index hx
      rw [same] at known
      simp [addOrder, accepted, h.symbol, known]
  · have refused : isValidRestingOrder o = false ∨ o.symbolId ≠ b.symbolId := by
      rcases not_and_or.mp accepted with bad | other
      · exact .inl (Bool.eq_false_iff.mpr bad)
      · exact .inr other
    refine h.unchanged ?_ (OrderBook.addOrder_refused (refused.imp_right .inl))
    unfold addOrder
    rcases refused with bad | other
    · simp [bad]
    · simp [h.symbol, other]

theorem Mirrors.cancelOrder_agree (id : Nat) :
    Agree (some (p.cancelOrder id)) (b.cancelOrder id) := by
  cases found : b.findOrder id with
  | none =>
    refine h.unchanged ?_ (OrderBook.cancelOrder_unknown found)
    rw [cancelOrder, h.index.find, h.unknown_id found]
  | some o =>
    obtain ⟨ho, rfl⟩ := (OrderBook.findOrder_eq_some h.wf).mp found
    obtain ⟨p', m', done, mirrors⟩ := h.cancel ho
    obtain ⟨b', cancelled, -⟩ := OrderBook.cancelOrder_resting h.wf ho
    refine ⟨p', m', ?_, mirrors⟩
    rw [done, cancelled]

theorem Mirrors.reduceOrder_agree (id : Nat) (n : Int) :
    Agree (some (p.reduceOrder id n)) (b.reduceOrder id n) := by
  by_cases pos : n ≤ 0
  · refine h.unchanged ?_ (OrderBook.reduceOrder_nonpositive pos)
    rw [reduceOrder, if_pos pos]
  · cases found : b.findOrder id with
    | none =>
      refine h.unchanged ?_ (OrderBook.reduceOrder_unknown found)
      rw [reduceOrder, if_neg pos, h.index.find, h.unknown_id found]
    | some o =>
      obtain ⟨ho, rfl⟩ := (OrderBook.findOrder_eq_some h.wf).mp found
      by_cases all : o.quantity ≤ n
      · have whole : p.reduceOrder o.orderId n = p.cancelOrder o.orderId := by
          rw [reduceOrder, if_neg pos, h.find_index ho]
          dsimp only
          rw [(h.filed.at ho).2.2, if_pos all]
        rw [whole, OrderBook.reduceOrder_full h.wf ho all]
        exact h.cancelOrder_agree o.orderId
      · obtain ⟨p', done, mirrors⟩ := h.reduce ho (not_le.mp pos) (not_le.mp all)
        obtain ⟨b', reduced, -⟩ :=
          OrderBook.reduceOrder_partial h.wf ho (not_le.mp pos) (not_le.mp all)
        refine ⟨p', m, ?_, mirrors⟩
        rw [done, reduced]

theorem Mirrors.replaceOrder_agree (id : Nat) (price n ts : Int) (sequenceNumber : Nat) :
    Agree (p.replaceOrder id price n ts sequenceNumber)
      (b.replaceOrder id price n ts sequenceNumber) := by
  unfold replaceOrder OrderBook.replaceOrder
  split
  · exact h.unchanged rfl rfl
  · rw [h.findOrder_eq]
    cases found : b.findOrder id with
    | none => exact h.unchanged rfl rfl
    | some existing =>
      obtain ⟨p', m', done, mirrors⟩ := h.cancelOrder_agree id
      rw [Option.some_inj] at done
      dsimp only
      rw [done]
      dsimp only
      cases (b.cancelOrder id).2 with
      | false => exact ⟨p', m', rfl, mirrors⟩
      | true => exact mirrors.addOrder_agree _

theorem Mirrors.clear_mirrors : Mirrors p.clear b.clear ∅ where
  wf := (OrderBook.clear_wf b).1
  symbol := h.symbol
  index := h.index.clear
  filed :=
    { stored := fun o ho => by simp [OrderBook.resting, (OrderBook.clear_wf b).2] at ho
      known := fun id i lookup => by cases lookup
      active := fun i active => by simp [nodeAt, clear] at active }
  levels side := by cases side <;> exact .nil
  free := ⟨[], rfl, .nil, fun i => by simp [clear]⟩

theorem Mirrors.serve_agree (call : BookCall) : Agree (p.serve call) (b.serve call) := by
  cases call with
  | operate operation =>
    cases operation with
    | clear => exact ⟨p.clear, ∅, rfl, h.clear_mirrors⟩
    | add order => exact h.addOrder_agree order
    | cancel orderId => exact h.cancelOrder_agree orderId
    | reduce orderId quantity => exact h.reduceOrder_agree orderId quantity
    | replace orderId newPriceTicks newQuantity timestampNs sequenceNumber =>
      exact h.replaceOrder_agree orderId newPriceTicks newQuantity timestampNs sequenceNumber
  | reserve orderCount =>
    obtain ⟨index, reserved, index'⟩ := h.index.reserve orderCount
    refine ⟨{ p with orderIndex := index }, m, ?_, ?_⟩
    · rw [serve, reserveOrderCapacity, reserved]
      rfl
    · exact { h with index := index', levels := fun s => by rw [levels_with]; exact h.levels s }

/-- Every call returns, in lockstep. -/
theorem Mirrors.serveAll (calls : List BookCall) :
    ∃ p' m', p.serveAll calls = some (p', (b.serveAll calls).2) ∧
      Mirrors p' (b.serveAll calls).1 m' := by
  induction calls generalizing p b m with
  | nil => exact ⟨p, m, rfl, h⟩
  | cons call calls ih =>
    obtain ⟨p', m', done, mirrors⟩ := h.serve_agree call
    obtain ⟨last, m'', rest, mirrors'⟩ := ih mirrors
    refine ⟨last, m'', ?_, mirrors'⟩
    rw [PooledOrderBook.serveAll, done, Option.bind_some, rest]
    rfl

end Calls

/-- What can be asked of the two books between calls. -/
structure SameAnswers (p : PooledOrderBook) (b : OrderBook) : Prop where
  symbolId : p.symbolId = b.symbolId
  orderCount : p.orderCount = b.orderCount
  findOrder : ∀ id, p.findOrder id = b.findOrder id
  bestBid : p.bestBid = b.bestBid
  bestAsk : p.bestAsk = b.bestAsk
  bestOrder : ∀ side, p.bestOrder side = b.bestOrder side
  totalQuantityAt : ∀ side price, p.totalQuantityAt side price = b.totalQuantityAt side price
  l2View : ∀ depth, p.l2View depth = b.l2View depth
  checksum : p.checksum = some b.checksum

theorem Mirrors.answers (h : Mirrors p b m) : SameAnswers p b where
  symbolId := h.symbol
  orderCount := h.orderCount_eq
  findOrder := h.findOrder_eq
  bestBid := h.bestBid_eq
  bestAsk := h.bestAsk_eq
  bestOrder := h.bestOrder_eq
  totalQuantityAt := h.totalQuantityAt_eq
  l2View := h.l2View_eq
  checksum := h.checksum_eq

/-- The pooled book refines the default book: from fresh books of any symbol, every sequence of calls
returns, each call with the answer of the default book; afterwards every query and the checksum are the
default book's, no loop over a queue runs on, and both invariant checks find nothing. -/
theorem pooled_refines_plain (symbolId : Nat) (calls : List BookCall) :
    ∃ p, (new symbolId).serveAll calls = some (p, ((OrderBook.new symbolId).serveAll calls).2) ∧
      SameAnswers p ((OrderBook.new symbolId).serveAll calls).1 ∧
      p.checkInvariants = some {} ∧
      ((OrderBook.new symbolId).serveAll calls).1.checkInvariants = {} := by
  obtain ⟨p, m, done, mirrors⟩ := (new_mirrors symbolId).serveAll calls
  exact ⟨p, done, mirrors.answers, mirrors.checkInvariants_clean,
    OrderBook.checkInvariants_clean mirrors.wf⟩

end PooledOrderBook
end Asterion
