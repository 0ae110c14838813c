import Asterion.Risk.Switches

/-! A check that rejects. Both checks walk through their tests over one gateway, in which only the
rate state of one client has moved, and every exit that rejects returns that gateway. -/
namespace Asterion
open Lib Lib.Tally

namespace RiskGateway

def SparesOthers (client : Option Nat) (g g' : RiskGateway) : Prop :=
  ∀ clientId, client ≠ some clientId →
    g'.rateStates.lookup clientId = g.rateStates.lookup clientId

/-- Nothing but the rate state of the client and the audit trail with its log has changed. -/
structure Untouched (client : Option Nat) (g g' : RiskGateway) : Prop where
  orders : SameOrders g g'
  switches : SameSwitches g g'
  market : g'.marketState = g.marketState
  positions : g'.positions = g.positions
  disconnects : g'.disconnectCount = g.disconnectCount ∧
    g'.disconnectCancelCount = g.disconnectCancelCount
  rates : SparesOthers client g g'

/-- The client of the order that a replacement is for, where there is one. -/
def replacedClient (g : RiskGateway) (request : ReplaceOrderRequest) : Option Nat :=
  (g.exchangeToClientOrderIds.lookup request.exchangeOrderId).bind (fun clientOrderId =>
    (g.workingOrders.lookup clientOrderId).map WorkingOrder.clientId)

/-- Where the result is a rejection, it spares the other clients. -/
def RejectSpares (client : Option Nat) (g : RiskGateway) (checked : RiskGateway × RiskResult) :
    Prop :=
  checked.2.accepted = false → SparesOthers client g checked.1

section Rates
variable {fit : Int → Int} {client : Option Nat} {g g' : RiskGateway} {nowNs : Int}

theorem RejectSpares.test {failed : Prop} [Decidable failed] {no yes : RiskGateway × RiskResult}
    (rejects : RejectSpares client g no) (goes_on : RejectSpares client g yes) :
    RejectSpares client g (if failed then no else yes) := by
  split
  · exact rejects
  · exact goes_on

theorem rejectSpares_of_accepted {checked : RiskGateway × RiskResult}
    (h : checked.2.accepted = true) : RejectSpares client g checked :=
  fun rejected => absurd rejected (ne_false_of_eq_true h)

theorem rejectSpares_decide (spares : SparesOthers client g g') {clientOrderId symbolId : Nat}
    {side : Side} {name : Text} {accepted : Bool} {reason : RejectReason} {limit observed : Int} :
    RejectSpares client g (g'.decide nowNs clientOrderId symbolId side name accepted reason limit
      observed) := fun _ => spares

theorem rejectSpares_decideOn (spares : SparesOthers client g g') {request : NewOrderRequest}
    {name : Text} {accepted : Bool} {reason : RejectReason} {limit observed : Int} :
    RejectSpares client g (g'.decideOn request nowNs name accepted reason limit observed) :=
  fun _ => spares

theorem rateLimitAllows_spares {request : NewOrderRequest} :
    SparesOthers (some request.clientId) g (rateLimitAllows fit g request nowNs).1 := by
  intro clientId other
  have apart : clientId ≠ request.clientId := fun same => other (congrArg some same.symm)
  unfold rateLimitAllows
  dsimp only
  split
  · rfl
  split
  · exact AList.lookup_insert_ne apart
  · exact AList.lookup_insert_ne apart

variable (fit g nowNs)

theorem checkNewOrder_spares (request : NewOrderRequest) :
    RejectSpares (some request.clientId) g (checkNewOrder fit g request nowNs) := by
  have same : SparesOthers (some request.clientId) g g := fun _ _ => rfl
  have spares := @rateLimitAllows_spares fit g nowNs request
  obtain ⟨⟨g', allowed, observed⟩, rated⟩ : ∃ r, rateLimitAllows fit g request nowNs = r :=
    ⟨_, rfl⟩
  rw [rated] at spares
  unfold checkNewOrder
  simp only [rated]
  apply RejectSpares.test (rejectSpares_decideOn same)
  apply RejectSpares.test (rejectSpares_decideOn same)
  apply RejectSpares.test (rejectSpares_decideOn spares)
  apply RejectSpares.test (rejectSpares_decideOn spares)
  apply RejectSpares.test (rejectSpares_decideOn spares)
  apply RejectSpares.test (rejectSpares_decideOn spares)
  apply RejectSpares.test (rejectSpares_decideOn spares)
  split
  · exact rejectSpares_decideOn spares
  apply RejectSpares.test (rejectSpares_decideOn spares)
  apply RejectSpares.test (rejectSpares_decideOn spares)
  apply RejectSpares.test (rejectSpares_decideOn spares)
  apply RejectSpares.test (rejectSpares_decideOn spares)
  apply RejectSpares.test (rejectSpares_decideOn spares)
  apply RejectSpares.test (rejectSpares_decideOn spares)
  apply RejectSpares.test (rejectSpares_decideOn spares)
  exact rejectSpares_of_accepted rfl

theorem checkReplacement_spares (clientOrderId : Nat) (existing : WorkingOrder)
    (request : ReplaceOrderRequest) :
    RejectSpares (some existing.clientId) g
      (checkReplacement fit g clientOrderId existing request nowNs) := by
  have spares : SparesOthers (some existing.clientId) g
      (rateLimitAllows fit g (replacementFor existing request) nowNs).1 :=
    @rateLimitAllows_spares fit g nowNs (replacementFor existing request)
  obtain ⟨⟨g', allowed, observed⟩, rated⟩ : ∃ r,
      rateLimitAllows fit g (replacementFor existing request) nowNs = r := ⟨_, rfl⟩
  rw [rated] at spares
  unfold checkReplacement
  simp only [rated]
  apply RejectSpares.test (rejectSpares_decideOn spares)
  apply RejectSpares.test (rejectSpares_decideOn spares)
  split
  · exact rejectSpares_decideOn spares
  apply RejectSpares.test (rejectSpares_decideOn spares)
  apply RejectSpares.test (rejectSpares_decideOn spares)
  apply RejectSpares.test (rejectSpares_decideOn spares)
  apply RejectSpares.test (rejectSpares_decideOn spares)
  apply RejectSpares.test (rejectSpares_decideOn spares)
  apply RejectSpares.test (rejectSpares_decideOn spares)
  apply RejectSpares.test (rejectSpares_decideOn spares)
  exact rejectSpares_of_accepted rfl

theorem checkReplaceOrder_spares (request : ReplaceOrderRequest) :
    RejectSpares (replacedClient g request) g (checkReplaceOrder fit g request nowNs) := by
  have same : SparesOthers (replacedClient g request) g g := fun _ _ => rfl
  unfold checkReplaceOrder
  dsimp only
  apply RejectSpares.test (rejectSpares_decide same)
  apply RejectSpares.test (rejectSpares_decide same)
  apply RejectSpares.test (rejectSpares_decide same)
  apply RejectSpares.test (rejectSpares_decide same)
  apply RejectSpares.test (rejectSpares_decide same)
  split
  · exact rejectSpares_decide same
  rename_i clientOrderId mapped
  split
  · exact rejectSpares_decide same
  rename_i existing order
  have client : replacedClient g request = some existing.clientId := by
    rw [replacedClient, mapped, Option.bind_some, order]
    rfl
  rw [client]
  exact checkReplacement_spares fit g nowNs clientOrderId existing request

end Rates

theorem Rejected.untouched {client : Option Nat} {g : RiskGateway}
    {checked : RiskGateway × RiskResult} (rejected : Rejected g checked)
    (spares : RejectSpares client g checked) : Untouched client g checked.1 := by
  have others := spares rejected.rejected
  obtain ⟨-, rates, recorder, result⟩ := rejected
  rw [result] at others ⊢
  exact ⟨⟨rfl, rfl, rfl, rfl, rfl, rfl⟩, ⟨rfl, rfl, rfl⟩, rfl, rfl, ⟨rfl, rfl⟩, others⟩

/-- A check that is not accepted leaves everything alone but the rate state of the client that asks
and the audit trail. -/
theorem rejected_checks_inert (fit : Int → Int) (g : RiskGateway) (nowNs : Int) :
    (∀ request, (checkNewOrder fit g request nowNs).2.accepted = false →
      Untouched (some request.clientId) g (checkNewOrder fit g request nowNs).1) ∧
    ∀ request, (checkReplaceOrder fit g request nowNs).2.accepted = false →
      Untouched (replacedClient g request) g (checkReplaceOrder fit g request nowNs).1 := by
  constructor
  · intro request refused
    rcases checkNewOrder_outcome fit g nowNs request with rejected | ⟨accepted, -⟩
    · exact rejected.untouched (checkNewOrder_spares fit g nowNs request)
    · exact absurd refused (ne_false_of_eq_true accepted)
  · intro request refused
    rcases checkReplaceOrder_outcome fit g nowNs request with rejected | ⟨_, _, accepted, -⟩
    · exact rejected.untouched (checkReplaceOrder_spares fit g nowNs request)
    · exact absurd refused (ne_false_of_eq_true accepted)

/-- A client whose message counts, though the quantity is refused, and an unknown replacement. -/
theorem rejected_checks_inert_counted_message :
    let g : RiskGateway := { limits := { maxMessagesPerWindow := 5, rateWindowNs := 100 } }
    let request : NewOrderRequest :=
      { clientOrderId := 1, symbolId := 1, side := .buy, priceTicks := 100, quantity := 0
        clientId := 9 }
    let replacement : ReplaceOrderRequest := { clientOrderId := 2, exchangeOrderId := 3 }
    Untouched (some 9) g (checkNewOrder wrap64 g request 7).1 ∧
      Untouched (replacedClient g replacement) g (checkReplaceOrder wrap64 g replacement 7).1 := by
  intro g request replacement
  exact ⟨(rejected_checks_inert wrap64 g 7).1 request (by decide),
    (rejected_checks_inert wrap64 g 7).2 replacement (by decide)⟩

end RiskGateway

end Asterion
