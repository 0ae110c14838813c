import Asterion.Lib.Trace
import Asterion.Matching.SmallSteps

/-! Serving a request is a sequence of small steps, each with the reports it emits. The
joint invariant holds after every one of them. -/
namespace Asterion

open Lib
open MatchingEngine (Request executable)

namespace Exchange

abbrev Entry := Request × ExecutionReport

def tag (request : Request) (reports : List ExecutionReport) : List Entry :=
  reports.map (fun report => (request, report))

/-- The exchange and the order in hand, if there is one, with the quantity it still wants. -/
abbrev Session := Exchange × Option (Nat × Int)

inductive Step : Session → List Entry → Session → Prop
  | refuse {x : Exchange} (request : Request) (clientOrderId symbolId : Nat) (side : Side)
      (ts : Int) {reason : RejectReason} (other : reason ≠ .internalError) :
      Step (x, none) (tag request [makeReject clientOrderId symbolId side ts reason]) (x, none)
  | reserve {x : Exchange} (id : Nat) : Step (x, none) [] (x.reserve id, none)
  | enlist {x : Exchange} {request : NewOrderRequest} (ok : x.malformed request = none)
      (apart : x.selfTrade request.side request.orderType request.priceTicks request.clientId = false)
      (postOnly : request.postOnly = true →
        x.crosses request.side request.orderType request.priceTicks = false) :
      Step (x, none) (tag (.submit request) (x.enlist request).2)
        ((x.enlist request).1, some (x.nextExchangeOrderId, request.quantity))
  | reopen {x : Exchange} {request : ReplaceOrderRequest} {s : Side} {o : Order}
      (ho : o ∈ x.queue s) (hid : o.orderId = request.exchangeOrderId)
      (hqty : 0 < request.newQuantity) (hprice : 0 < request.newPriceTicks)
      (apart : x.selfTrade (x.stateAt o.orderId).side (x.stateAt o.orderId).orderType
        request.newPriceTicks (x.stateAt o.orderId).clientId = false) :
      Step (x, none) (tag (.replace request) (x.reopen request).2)
        ((x.reopen request).1, some (o.orderId, request.newQuantity))
  | trade {x : Exchange} (request : Request) {i : Nat} {wanted ts : Int} {o : Order}
      (head : (x.queue (opposite (x.stateAt i).side)).head? = some o)
      (accept : acceptable (x.stateAt i) o = true) (pos : 0 < wanted) :
      Step (x, some (i, wanted)) (tag request (x.trade i ts (o, min wanted o.quantity)).2)
        ((x.trade i ts (o, min wanted o.quantity)).1, some (i, wanted - min wanted o.quantity))
  | rest {x : Exchange} {i : Nat} {wanted ts : Int} (pos : 0 < wanted)
      (symbol : x.symbolId ≠ invalidSymbolId) (limit : (x.stateAt i).orderType = .limit)
      (stop : ∀ o ∈ x.queue (opposite (x.stateAt i).side), acceptable (x.stateAt i) o = false) :
      Step (x, some (i, wanted)) [] ((x.rest i ts).1, none)
  | expire {x : Exchange} (request : Request) {i : Nat} {wanted ts : Int} (pos : 0 < wanted) :
      Step (x, some (i, wanted)) (tag request (x.close i .canceled .canceled ts .none).2)
        ((x.close i .canceled .canceled ts .none).1, none)
  | fault {x : Exchange} (request : Request) {i : Nat} {wanted ts : Int} (pos : 0 < wanted)
      (symbol : x.symbolId = invalidSymbolId) :
      Step (x, some (i, wanted)) (tag request (x.close i .rejected .rejected ts .internalError).2)
        ((x.close i .rejected .rejected ts .internalError).1, none)
  | done {x : Exchange} {i : Nat} : Step (x, some (i, 0)) [] (x, none)
  | withdraw {x : Exchange} (request : Request) {s : Side} {o : Order} (ts : Int)
      (ho : o ∈ x.queue s) :
      Step (x, none) (tag request (x.withdraw o.orderId ts).2) ((x.withdraw o.orderId ts).1, none)

theorem Step.consistent {s t : Session} {l : List Entry} (step : Step s l t)
    (c : Consistent s.1 s.2) : Consistent t.1 t.2 := by
  cases step with
  | refuse => exact c
  | reserve id => exact c.reserve id
  | enlist ok apart _ => exact c.enlist ok apart
  | reopen ho hid hqty hprice apart => exact c.reopen _ ho hid hqty hprice apart
  | trade _ head _ pos =>
    have ho := List.mem_of_head? head
    have hq := c.quantity_pos ho
    dsimp only
    exact c.trade ho (by omega) (by omega) (by omega)
  | rest pos symbol limit stop =>
    dsimp only
    exact c.rest symbol pos limit stop
  | expire =>
    dsimp only
    exact c.close (Or.inr (Or.inl rfl))
  | fault _ _ symbol =>
    dsimp only
    exact c.close (Or.inr (Or.inr ⟨symbol, rfl⟩))
  | done => exact c.done
  | withdraw _ _ ho =>
    dsimp only
    exact c.withdraw ho

theorem consistent_of_trace {s t : Session} {l : List Entry} (tr : Trace Step s l t)
    (c : Consistent s.1 s.2) : Consistent t.1 t.2 :=
  Trace.invariant (I := fun _ (u : Session) => Consistent u.1 u.2) (h := [])
    (fun c step => step.consistent c) c tr

theorem Step.symbolId {s t : Session} {l : List Entry} (step : Step s l t) :
    t.1.symbolId = s.1.symbolId := by
  cases step with
  | rest _ symbol _ _ =>
    dsimp only
    unfold Exchange.rest
    rw [if_neg symbol]
  | _ => rfl

theorem symbolId_of_trace {s t : Session} {l : List Entry} (tr : Trace Step s l t) :
    t.1.symbolId = s.1.symbolId :=
  Trace.invariant (I := fun _ (u : Session) => u.1.symbolId = s.1.symbolId) (h := [])
    (fun hs step => step.symbolId.trans hs) rfl tr

theorem new_consistent (symbolId : Nat) : Consistent (Exchange.new symbolId) none where
  fresh := Nat.one_pos
  filed := fun _ _ h => by cases h
  sorted := fun _ => .nil
  ids := .nil
  uncrossed := fun _ h => by cases h
  backed := fun _ _ h => by cases h
  known := fun _ _ h => by cases h
  inHand := fun _ _ h => by cases h
  idle := fun _ _ h => by cases h

end Exchange
end Asterion
