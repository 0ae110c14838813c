import Asterion.Matching.Simulation

/-! What can be read off a stream of reports: the pairs of Trade reports, the submit an
order came from, and the quantity that was last requested for it. -/
namespace Asterion

open Lib
open MatchingEngine (Request)
open Exchange (Entry Session tag)

/-- Adjacent reports of which the first is a Trade report, taken two by two. -/
def tradePairs : List ExecutionReport → List (ExecutionReport × ExecutionReport)
  | a :: b :: rest =>
    if a.execType = .trade then (a, b) :: tradePairs rest else tradePairs (b :: rest)
  | _ => []

theorem tradePairs_pair {a : ExecutionReport} (h : a.execType = .trade) (b : ExecutionReport)
    (rs : List ExecutionReport) : tradePairs (a :: b :: rs) = (a, b) :: tradePairs rs := if_pos h

/-- The Trade reports of a stream come in adjacent pairs that stand in a relation. -/
inductive Paired (M : ExecutionReport → ExecutionReport → Prop) : List ExecutionReport → Prop
  | nil : Paired M []
  | other {r rs} (h : r.execType ≠ .trade) : Paired M rs → Paired M (r :: rs)
  | pair {a b rs} (ha : a.execType = .trade) (hb : b.execType = .trade) (h : M a b) :
      Paired M rs → Paired M (a :: b :: rs)

namespace Paired

variable {M N : ExecutionReport → ExecutionReport → Prop} {a b : List ExecutionReport}

theorem append (ha : Paired M a) (hb : Paired M b) : Paired M (a ++ b) := by
  induction ha with
  | nil => exact hb
  | other h _ ih => exact ih.other h
  | pair h₁ h₂ h _ ih => exact ih.pair h₁ h₂ h

theorem imp (h : ∀ r s, M r s → N r s) (ha : Paired M a) : Paired N a := by
  induction ha with
  | nil => exact .nil
  | other h₁ _ ih => exact ih.other h₁
  | pair h₁ h₂ hm _ ih => exact ih.pair h₁ h₂ (h _ _ hm)

theorem single {r : ExecutionReport} (h : r.execType ≠ .trade) : Paired M [r] := nil.other h

theorem tradePairs_cons {r : ExecutionReport} (h : r.execType ≠ .trade) (rs : List ExecutionReport) :
    tradePairs (r :: rs) = tradePairs rs := by
  cases rs with
  | nil => rfl
  | cons s rs => rw [tradePairs, if_neg h]

theorem tradePairs_append (ha : Paired M a) (b : List ExecutionReport) :
    tradePairs (a ++ b) = tradePairs a ++ tradePairs b := by
  induction ha with
  | nil => rfl
  | other h _ ih => rw [List.cons_append, tradePairs_cons h, tradePairs_cons h, ih]
  | pair h₁ _ _ _ ih =>
    rw [List.cons_append, List.cons_append, tradePairs_pair h₁, tradePairs_pair h₁, ih]
    rfl

theorem related (ha : Paired M a) : ∀ p ∈ tradePairs a, M p.1 p.2 := by
  induction ha with
  | nil => intro p hp; cases hp
  | other h _ ih => rw [tradePairs_cons h]; exact ih
  | pair h₁ _ hm _ ih =>
    rw [tradePairs_pair h₁]
    intro p hp
    rcases List.mem_cons.mp hp with rfl | hp
    · exact hm
    · exact ih p hp

theorem filter_trade (ha : Paired M a) : a.filter (fun r => r.execType = .trade) =
    (tradePairs a).flatMap (fun p => [p.1, p.2]) := by
  induction ha with
  | nil => rfl
  | other h _ ih => rw [tradePairs_cons h, List.filter_cons_of_neg (by simpa using h), ih]
  | pair h₁ h₂ _ _ ih =>
    rw [tradePairs_pair h₁, List.filter_cons_of_pos (by simpa using h₁),
      List.filter_cons_of_pos (by simpa using h₂), ih]
    rfl

end Paired

/-- The submit that was answered with the New report of an order. -/
def submission (log : List Entry) (id : Nat) : Option NewOrderRequest :=
  log.findSome? (fun entry =>
    match entry.1 with
    | .submit request =>
      if entry.2.execType = .new ∧ entry.2.exchangeOrderId = id then some request else none
    | _ => none)

theorem submission_append (a b : List Entry) (id : Nat) :
    submission (a ++ b) id = (submission a id).or (submission b id) := by
  rw [submission, List.findSome?_append]
  rfl

/-- How an entry changes the quantity requested for its order. -/
def requestedAfter (quantity : Int) (entry : Entry) : Int :=
  match entry.1 with
  | .submit request => if entry.2.execType = .new then request.quantity else quantity
  | .replace request =>
    if entry.2.execType = .replaced then entry.2.filledQuantity + request.newQuantity else quantity
  | .cancel _ => quantity

def about (log : List Entry) (id : Nat) : List Entry :=
  log.filter (fun entry => entry.2.exchangeOrderId = id)

/-- The requested quantity of the submit, or, after replaces, the filled quantity at the
last replace plus its new quantity. -/
def requestedQuantity (log : List Entry) (id : Nat) : Int :=
  (about log id).foldl requestedAfter 0

def fillsOf (log : List Entry) (id : Nat) : List (Int × Int) :=
  (about log id).map (fun entry => (entry.2.lastFillQuantity, entry.2.lastFillPriceTicks))

namespace MatchingEngine

/-- All reports of a run, each with the request whose answer it is part of. -/
def log (e : MatchingEngine) : List Request → List Entry
  | [] => []
  | request :: requests =>
    tag request (e.serve request).reports ++ (e.serve request).engine.log requests

theorem log_reports (e : MatchingEngine) (requests : List Request) :
    (e.log requests).map Prod.snd = (e.run requests).reports := by
  induction requests generalizing e with
  | nil => rfl
  | cons request requests ih =>
    rw [log, List.map_append, ih]
    simp [tag, run]

theorem Sound.log_eq {e : MatchingEngine} (s : e.Sound) (requests : List Request) :
    e.log requests = e.view.log requests := by
  induction requests generalizing e with
  | nil => rfl
  | cons request requests ih =>
    rw [log, Exchange.log, ih (s.serve request), s.serve_view, s.serve_reports]

end MatchingEngine
end Asterion
