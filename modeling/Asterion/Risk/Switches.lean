import Asterion.Risk.WorkingTables

/-! The kill switch and the disconnect. While one of them is on no check passes, so nothing can start
to work, and a report finds no order to work on. -/
namespace Asterion
open Lib Lib.Tally Lib.Along

namespace RiskGateway

/-- The limits and the two switches are the same. -/
structure SameSwitches (g g' : RiskGateway) : Prop where
  limits : g'.limits = g.limits
  killSwitch : g'.killSwitch = g.killSwitch
  connected : g'.connected = g.connected

section Frame
variable {fit : Int → Int} {g : RiskGateway}

theorem SameSwitches.same (g : RiskGateway) : SameSwitches g g := ⟨rfl, rfl, rfl⟩

theorem SameSwitches.trans {g g' g'' : RiskGateway} (first : SameSwitches g g')
    (second : SameSwitches g' g'') : SameSwitches g g'' :=
  ⟨second.limits.trans first.limits, second.killSwitch.trans first.killSwitch,
    second.connected.trans first.connected⟩

theorem SameRest.switches {g g' : RiskGateway} (same : SameRest g g') : SameSwitches g g' :=
  ⟨same.limits, same.killSwitch, same.connected⟩

theorem checkNewOrder_switches {request : NewOrderRequest} {nowNs : Int} :
    SameSwitches g (checkNewOrder fit g request nowNs).1 := by
  rcases checkNewOrder_outcome fit g nowNs request with
    ⟨-, rates, recorder, result⟩ | ⟨-, -, rates, recorder, result⟩
  · rw [result]
    exact ⟨rfl, rfl, rfl⟩
  · have entered : SameSwitches g (admitted fit { g with rateStates := rates } request) := by
      unfold admitted
      dsimp only
      split
      · apply SameSwitches.trans _ registerWorkingOrder_rest.switches
        exact ⟨rfl, rfl, rfl⟩
      · exact ⟨rfl, rfl, rfl⟩
    rw [result]
    exact entered.trans ⟨rfl, rfl, rfl⟩

theorem checkReplaceOrder_switches {request : ReplaceOrderRequest} {nowNs : Int} :
    SameSwitches g (checkReplaceOrder fit g request nowNs).1 := by
  rcases checkReplaceOrder_outcome fit g nowNs request with
    ⟨-, rates, recorder, result⟩ | ⟨id, existing, -, -, rates, recorder, result⟩
  · rw [result]
    exact ⟨rfl, rfl, rfl⟩
  · have resized : SameSwitches g (resizeOrder fit { g with rateStates := rates } id existing
        request.newPriceTicks request.newQuantity) := by
      apply SameSwitches.trans _ resizeOrder_rest.switches
      exact ⟨rfl, rfl, rfl⟩
    rw [result]
    exact resized.trans ⟨rfl, rfl, rfl⟩

end Frame

section Stops
variable {fit : Int → Int} {g : RiskGateway}

def Stopped (g : RiskGateway) : Prop := g.killSwitch = true ∨ g.connected = false

/-- The gateway is stopped in a way that drops the working orders. -/
def Emptied (g : RiskGateway) : Prop :=
  g.killSwitch = true ∨ (g.connected = false ∧ g.limits.cancelOnDisconnect = true)

def Refuses (fit : Int → Int) (g : RiskGateway) : Prop :=
  (∀ request nowNs, (checkNewOrder fit g request nowNs).2.accepted = false) ∧
    ∀ request nowNs, (checkReplaceOrder fit g request nowNs).2.accepted = false

theorem Stopped.not_open (stopped : Stopped g)
    (policy : g.limits.disconnectOrderPolicy = .rejectNewOrders) : ¬ g.IsOpen := by
  rintro ⟨unkilled, connected⟩
  rcases stopped with killed | away
  · exact absurd killed (ne_true_of_eq_false unkilled)
  · rcases connected with here | lenient
    · exact absurd here (ne_true_of_eq_false away)
    · exact lenient policy

theorem Stopped.rejects_new (stopped : Stopped g)
    (policy : g.limits.disconnectOrderPolicy = .rejectNewOrders) (request : NewOrderRequest)
    (nowNs : Int) : Rejected g (checkNewOrder fit g request nowNs) := by
  rcases checkNewOrder_outcome fit g nowNs request with rejected | ⟨-, passed, -⟩
  · exact rejected
  · exact absurd passed.isOpen (stopped.not_open policy)

theorem Stopped.rejects_replace (stopped : Stopped g)
    (policy : g.limits.disconnectOrderPolicy = .rejectNewOrders) (request : ReplaceOrderRequest)
    (nowNs : Int) : Rejected g (checkReplaceOrder fit g request nowNs) := by
  rcases checkReplaceOrder_outcome fit g nowNs request with rejected | ⟨_, _, -, passed, -⟩
  · exact rejected
  · exact absurd passed.isOpen (stopped.not_open policy)

theorem Stopped.refuses (stopped : Stopped g)
    (policy : g.limits.disconnectOrderPolicy = .rejectNewOrders) : Refuses fit g := by
  constructor
  · intro request nowNs
    exact (stopped.rejects_new policy request nowNs).rejected
  · intro request nowNs
    exact (stopped.rejects_replace policy request nowNs).rejected

theorem SameSwitches.emptied {g' : RiskGateway} (same : SameSwitches g g') (emptied : Emptied g') :
    Emptied g := by
  unfold Emptied at emptied
  rw [same.limits, same.killSwitch, same.connected] at emptied
  exact emptied

theorem Emptied.stopped (emptied : Emptied g) : Stopped g := emptied.imp id And.left

theorem Cleared.report (cleared : Cleared g) (report : ExecutionReport) :
    onExecutionReport fit g report = g := by
  have nothing : findReported g report = none := by
    unfold findReported
    rw [cleared.orders, cleared.index]
    split
    · rename_i found
      cases found
    · split
      · rfl
      · rfl
  unfold onExecutionReport upsertWorkingOrderFromReport
  rw [nothing]
  split
  · rfl
  · rfl

theorem Cleared.release (cleared : Cleared g) (clientOrderId : Nat) :
    releaseOrder fit g clientOrderId = g := by
  unfold releaseOrder
  rw [cleared.orders]
  rfl

theorem Rejected.cleared {checked : RiskGateway × RiskResult} (rejected : Rejected g checked)
    (cleared : Cleared g) : Cleared checked.1 := by
  obtain ⟨-, rates, recorder, result⟩ := rejected
  rw [result]
  exact ⟨cleared.quantity, cleared.orders, cleared.index, cleared.books⟩

/-- What holds of a gateway whose limits are never changed. -/
structure Obeys (limits : RiskLimits) (g : RiskGateway) : Prop where
  limits : g.limits = limits
  cleared : Emptied g → Cleared g

theorem Obeys.step {limits : RiskLimits} (obeys : Obeys limits g)
    (policy : limits.disconnectOrderPolicy = .rejectNewOrders) (operation : Operation)
    (fixed : ∀ limits, operation ≠ .setLimits limits) : Obeys limits (step fit g operation) := by
  have strict : g.limits.disconnectOrderPolicy = .rejectNewOrders := obeys.limits ▸ policy
  have quiet : ∀ g', SameSwitches g g' → (Cleared g → Cleared g') → Obeys limits g' :=
    fun g' same keep => ⟨same.limits.trans obeys.limits,
      fun emptied => keep (obeys.cleared (same.emptied emptied))⟩
  cases operation with
  | setLimits limits => exact absurd rfl (fixed limits)
  | enableKillSwitch timestampNs =>
    exact ⟨obeys.limits, fun _ => cancelAllWorkingOrders_cleared⟩
  | disableKillSwitch =>
    refine ⟨obeys.limits, fun emptied => ?_⟩
    have away : Emptied g := emptied.elim (fun h => nomatch h) Or.inr
    have cleared := obeys.cleared away
    exact ⟨cleared.quantity, cleared.orders, cleared.index, cleared.books⟩
  | onDisconnect timestampNs =>
    change Obeys limits (onDisconnect g timestampNs)
    unfold onDisconnect
    split
    · exact obeys
    · dsimp only
      split
      · exact ⟨obeys.limits, fun _ => cancelAllWorkingOrders_cleared⟩
      · rename_i keeps
        refine ⟨obeys.limits, fun emptied => ?_⟩
        have killed : Emptied g := emptied.imp id (fun h => absurd h.2 keeps)
        have cleared := obeys.cleared killed
        exact ⟨cleared.quantity, cleared.orders, cleared.index, cleared.books⟩
  | onReconnect =>
    refine ⟨obeys.limits, fun emptied => ?_⟩
    have killed : Emptied g := emptied.imp id (fun h => nomatch h.1)
    have cleared := obeys.cleared killed
    exact ⟨cleared.quantity, cleared.orders, cleared.index, cleared.books⟩
  | onMarketData symbolId referencePriceTicks timestampNs =>
    exact quiet _ ⟨rfl, rfl, rfl⟩ (fun h => ⟨h.quantity, h.orders, h.index, h.books⟩)
  | setPosition symbolId signedPosition =>
    exact quiet _ ⟨rfl, rfl, rfl⟩ (fun h => ⟨h.quantity, h.orders, h.index, h.books⟩)
  | checkNewOrder request nowNs =>
    have same := @checkNewOrder_switches fit g request nowNs
    refine ⟨same.limits.trans obeys.limits, fun emptied => ?_⟩
    have before := same.emptied emptied
    exact (before.stopped.rejects_new strict request nowNs).cleared (obeys.cleared before)
  | checkReplaceOrder request nowNs =>
    have same := @checkReplaceOrder_switches fit g request nowNs
    refine ⟨same.limits.trans obeys.limits, fun emptied => ?_⟩
    have before := same.emptied emptied
    exact (before.stopped.rejects_replace strict request nowNs).cleared
      (obeys.cleared before)
  | releaseOrder clientOrderId =>
    refine quiet _ releaseOrder_rest.switches (fun cleared => ?_)
    change Cleared (releaseOrder fit g clientOrderId)
    rw [cleared.release]
    exact cleared
  | onExecutionReport report =>
    refine quiet _ onExecutionReport_rest.switches (fun cleared => ?_)
    change Cleared (onExecutionReport fit g report)
    rw [cleared.report]
    exact cleared
  | setAuditEnabled enabled =>
    exact quiet _ ⟨rfl, rfl, rfl⟩ (fun h => ⟨h.quantity, h.orders, h.index, h.books⟩)
  | clearAudit =>
    exact quiet _ ⟨rfl, rfl, rfl⟩ (fun h => ⟨h.quantity, h.orders, h.index, h.books⟩)

end Stops

/-- While the gateway is stopped it accepts nothing, and while that drops the working orders there
is none. -/
theorem stops_absolute (fit : Int → Int) {limits : RiskLimits}
    (policy : limits.disconnectOrderPolicy = .rejectNewOrders) {operations : List Operation}
    (fixed : ∀ operation ∈ operations, ∀ limits, operation ≠ .setLimits limits) :
    Always (step fit) (fun g => (Stopped g → Refuses fit g) ∧ (Emptied g → Cleared g)) { limits }
      operations := by
  have each : Each (step fit) (fun _ operation => ∀ limits, operation ≠ .setLimits limits)
      { limits } operations := each_of_forall fixed
  have obeys : Always (step fit) (Obeys limits) { limits } operations := by
    apply always_of_each _ _ each
    · intro g operation obeys fixed
      exact obeys.step policy operation fixed
    · exact ⟨rfl, fun _ => ⟨rfl, rfl, rfl, rfl⟩⟩
  apply obeys.imp
  intro g inv
  exact ⟨fun stopped => stopped.refuses (inv.limits ▸ policy), inv.cleared⟩

/-- A late report on an order that the kill switch dropped. -/
theorem stops_absolute_late_report :
    Always (step wrap64) (fun g => (Stopped g → Refuses wrap64 g) ∧ (Emptied g → Cleared g))
      { limits := { maxOpenOrderQuantity := 1000 } }
      [.onMarketData 1 100 0,
        .checkNewOrder
          { clientOrderId := 1, symbolId := 1, side := .buy, priceTicks := 100, quantity := 10 } 0,
        .enableKillSwitch 1,
        .onExecutionReport
          { clientOrderId := 1, exchangeOrderId := 1, execType := .new, orderStatus := .new
            remainingQuantity := 10 }] :=
  stops_absolute wrap64 rfl (by simp)

end RiskGateway

end Asterion
