import Asterion.Risk.RiskGateway
import Asterion.Lib.Along

/-! What an operation of the gateway can do to its order tables. A check that rejects leaves them
alone; one that accepts has passed every limit and registers or resizes one order. -/
namespace Asterion
open Lib Lib.Tally

namespace RiskGateway

/-- The limits, the accepted ids and the four tables of working orders are the same. -/
structure SameOrders (g g' : RiskGateway) : Prop where
  limits : g'.limits = g.limits
  accepted : g'.acceptedClientOrderIds = g.acceptedClientOrderIds
  quantity : g'.workingQuantity = g.workingQuantity
  orders : g'.workingOrders = g.workingOrders
  index : g'.exchangeToClientOrderIds = g.exchangeToClientOrderIds
  books : g'.clientBooks = g.clientBooks

def IsOpen (g : RiskGateway) : Prop :=
  g.killSwitch = false ∧
    (g.connected = true ∨ g.limits.disconnectOrderPolicy ≠ .rejectNewOrders)

section Limits
variable (fit : Int → Int)

/-- The limits that a new order and a replacement are both checked against. -/
structure WithinLimits (g : RiskGateway) (request : NewOrderRequest) (nowNs : Int)
    (market : MarketState) : Prop where
  quantity : request.quantity ≤ g.limits.maxOrderQuantity
  known : g.marketState.lookup request.symbolId = some market
  fresh : g.limits.staleAfterNs > 0 →
    fit (nowNs - market.lastTimestampNs) ≤ g.limits.staleAfterNs
  band : request.orderType = .limit →
    absI64 fit (fit (request.priceTicks - market.referencePriceTicks)) ≤ g.limits.priceBandTicks
  notional : notionalFor fit g request ≤ g.limits.maxNotionalTicks
  selfTrade : (selfTradeCheckAllows g request).1 = true
  position : absI64 fit (fit (g.position request.symbolId +
    signedDelta fit request.side request.quantity)) ≤ g.limits.maxPositionPerSymbol
  gross : grossExposureWith fit g request ≤ g.limits.maxGrossExposureTicks

/-- An accepted id, and the order under it where working orders are tracked. -/
def admitted (g : RiskGateway) (request : NewOrderRequest) : RiskGateway :=
  let g := { g with
    acceptedClientOrderIds := insert request.clientOrderId g.acceptedClientOrderIds }
  if g.tracksWorkingOrders then registerWorkingOrder fit g request else g

/-- What a new order that is accepted has passed. -/
structure NewOrderPassed (g : RiskGateway) (request : NewOrderRequest) (nowNs : Int) : Prop where
  isOpen : g.IsOpen
  positive : 0 < request.quantity
  priced : request.orderType = .limit → 0 < request.priceTicks
  unused : request.clientOrderId ∉ g.acceptedClientOrderIds
  limits : ∃ market, WithinLimits fit g request nowNs market
  working : g.limits.maxOpenOrderQuantity > 0 → request.orderType = .limit →
    request.timeInForce = .gtc →
    fit (g.workingQuantityOf request.symbolId + request.quantity) ≤ g.limits.maxOpenOrderQuantity

/-- What a replacement that is accepted has passed. -/
structure ReplacePassed (g : RiskGateway) (request : ReplaceOrderRequest) (nowNs : Int)
    (clientOrderId : Nat) (existing : WorkingOrder) : Prop where
  isOpen : g.IsOpen
  positive : 0 < request.newQuantity
  priced : 0 < request.newPriceTicks
  unused : request.clientOrderId ∉ g.acceptedClientOrderIds
  mapped : g.exchangeToClientOrderIds.lookup request.exchangeOrderId = some clientOrderId
  order : g.workingOrders.lookup clientOrderId = some existing
  limits : ∃ market, WithinLimits fit g (replacementFor existing request) nowNs market
  working : g.limits.maxOpenOrderQuantity > 0 →
    fit (fit (g.workingQuantityOf existing.symbolId - existing.quantity) + request.newQuantity) ≤
      g.limits.maxOpenOrderQuantity

end Limits

section Rates
variable {fit : Int → Int} {g : RiskGateway} {request : NewOrderRequest} {nowNs : Int}

theorem rateLimitAllows_spec : ∃ rates, (rateLimitAllows fit g request nowNs).1 =
    { g with rateStates := rates } := by
  unfold rateLimitAllows
  dsimp only
  split
  · exact ⟨g.rateStates, rfl⟩
  · split
    · exact ⟨_, rfl⟩
    · exact ⟨_, rfl⟩

end Rates

section Checks
variable (fit : Int → Int) (g : RiskGateway) (nowNs : Int)

/-- A check that rejects changes at most the rate states and the audit trail. -/
structure Rejected (checked : RiskGateway × RiskResult) : Prop where
  rejected : checked.2.accepted = false
  same : ∃ rates recorder, checked.1 = { g with rateStates := rates, recorder := recorder }

theorem rejected_decide {rates : AList (fun _ : Nat => RateState)} {clientOrderId symbolId : Nat}
    {side : Side} {name : Text} {reason : RejectReason} {limit observed : Int} :
    Rejected g (RiskGateway.decide { g with rateStates := rates } nowNs clientOrderId symbolId side
      name false reason limit observed) := ⟨rfl, _, _, rfl⟩

/-- Either the check rejects, or what it returns is as described. -/
def Outcome (accepted : RiskGateway × RiskResult → Prop) (checked : RiskGateway × RiskResult) :
    Prop := Rejected g checked ∨ accepted checked

variable {g}

/-- One test of a check, which rejects where it fails. -/
theorem Outcome.test {failed : Prop} [Decidable failed]
    {accepted : RiskGateway × RiskResult → Prop} {no yes : RiskGateway × RiskResult}
    (rejects : Rejected g no) (goes_on : ¬ failed → Outcome g accepted yes) :
    Outcome g accepted (if failed then no else yes) := by
  by_cases h : failed
  · rw [if_pos h]
    exact Or.inl rejects
  · rw [if_neg h]
    exact goes_on h

variable (g)

def NewOrderAccepted (request : NewOrderRequest) (checked : RiskGateway × RiskResult) : Prop :=
  checked.2.accepted = true ∧ NewOrderPassed fit g request nowNs ∧
    ∃ rates recorder, checked.1 =
      { admitted fit { g with rateStates := rates } request with recorder := recorder }

theorem checkNewOrder_outcome (request : NewOrderRequest) :
    Outcome g (NewOrderAccepted fit g nowNs request) (checkNewOrder fit g request nowNs) := by
  have gate : ∀ name reason, Rejected g (g.decideOn request nowNs name false reason 0 0) :=
    fun _ _ => ⟨rfl, g.rateStates, _, rfl⟩
  obtain ⟨rates, limited⟩ := @rateLimitAllows_spec fit g request nowNs
  obtain ⟨⟨g', allowed, observed⟩, rated⟩ : ∃ r, rateLimitAllows fit g request nowNs = r :=
    ⟨_, rfl⟩
  rw [rated] at limited
  obtain rfl : g' = { g with rateStates := rates } := limited
  have rejects : ∀ name reason limit observed, Rejected g
      (decideOn { g with rateStates := rates } request nowNs name false reason limit observed) :=
    fun _ _ _ _ => rejected_decide g nowNs
  unfold checkNewOrder
  simp only [rated]
  apply Outcome.test (gate _ _)
  intro unkilled
  apply Outcome.test (gate _ _)
  intro connected
  apply Outcome.test (rejects _ _ _ _)
  intro _
  apply Outcome.test (rejects _ _ _ _)
  intro positive
  apply Outcome.test (rejects _ _ _ _)
  intro priced
  apply Outcome.test (rejects _ _ _ _)
  intro unused
  apply Outcome.test (rejects _ _ _ _)
  intro quantity
  split
  · exact Or.inl (rejects _ _ _ _)
  rename_i market known
  apply Outcome.test (rejects _ _ _ _)
  intro fresh
  apply Outcome.test (rejects _ _ _ _)
  intro band
  apply Outcome.test (rejects _ _ _ _)
  intro notional
  apply Outcome.test (rejects _ _ _ _)
  intro selfTrade
  apply Outcome.test (rejects _ _ _ _)
  intro working
  apply Outcome.test (rejects _ _ _ _)
  intro position
  apply Outcome.test (rejects _ _ _ _)
  intro gross
  have isOpen : g.IsOpen := by
    refine ⟨by simpa using unkilled, ?_⟩
    simpa [or_iff_not_imp_left] using connected
  have allowed : (selfTradeCheckAllows { g with rateStates := rates } request).1 = true := by
    simpa using selfTrade
  have limits : WithinLimits fit g request nowNs market := by
    refine ⟨not_lt.mp quantity, known, fun on => ?_, fun limit => ?_, not_lt.mp notional, allowed,
      not_lt.mp position, not_lt.mp gross⟩
    · exact not_lt.mp (fun late => fresh ⟨on, late⟩)
    · exact not_lt.mp (fun far => band ⟨limit, far⟩)
  refine Or.inr ⟨rfl, ⟨isOpen, not_le.mp positive, fun limit => ?_, unused, ⟨market, limits⟩,
    fun on limit gtc => ?_⟩, rates, _, rfl⟩
  · exact not_le.mp (fun low => priced ⟨limit, low⟩)
  · exact not_lt.mp (fun above => working ⟨⟨on, limit, gtc⟩, above⟩)

def ReplaceAccepted (request : ReplaceOrderRequest) (clientOrderId : Nat) (existing : WorkingOrder)
    (checked : RiskGateway × RiskResult) : Prop :=
  checked.2.accepted = true ∧ ReplacePassed fit g request nowNs clientOrderId existing ∧
    ∃ rates recorder,
      let resized := resizeOrder fit { g with rateStates := rates } clientOrderId existing
        request.newPriceTicks request.newQuantity
      checked.1 = { resized with
        acceptedClientOrderIds := insert request.clientOrderId resized.acceptedClientOrderIds
        recorder := recorder }

theorem checkReplaceOrder_outcome (request : ReplaceOrderRequest) :
    Outcome g (fun checked => ∃ clientOrderId existing,
      ReplaceAccepted fit g nowNs request clientOrderId existing checked)
      (checkReplaceOrder fit g request nowNs) := by
  have gate : ∀ name reason observed, Rejected g
      (g.decide nowNs request.clientOrderId invalidSymbolId .none name false reason 0 observed) :=
    fun _ _ _ => ⟨rfl, g.rateStates, _, rfl⟩
  unfold checkReplaceOrder
  dsimp only
  apply Outcome.test (gate _ _ _)
  intro unkilled
  apply Outcome.test (gate _ _ _)
  intro connected
  apply Outcome.test (gate _ _ _)
  intro positive
  apply Outcome.test (gate _ _ _)
  intro priced
  apply Outcome.test (gate _ _ _)
  intro unused
  split
  · exact Or.inl (gate _ _ _)
  rename_i clientOrderId mapped
  split
  · exact Or.inl (gate _ _ _)
  rename_i existing order
  obtain ⟨rates, limited⟩ := @rateLimitAllows_spec fit g (replacementFor existing request) nowNs
  obtain ⟨⟨g', allowed, observed⟩, rated⟩ : ∃ r,
      rateLimitAllows fit g (replacementFor existing request) nowNs = r := ⟨_, rfl⟩
  rw [rated] at limited
  obtain rfl : g' = { g with rateStates := rates } := limited
  have rejects : ∀ name reason limit observed, Rejected g
      (decideOn { g with rateStates := rates } (replacementFor existing request) nowNs name false
        reason limit observed) :=
    fun _ _ _ _ => rejected_decide g nowNs
  unfold checkReplacement
  simp only [rated]
  apply Outcome.test (rejects _ _ _ _)
  intro _
  apply Outcome.test (rejects _ _ _ _)
  intro quantity
  split
  · exact Or.inl (rejects _ _ _ _)
  rename_i market known
  apply Outcome.test (rejects _ _ _ _)
  intro fresh
  apply Outcome.test (rejects _ _ _ _)
  intro band
  apply Outcome.test (rejects _ _ _ _)
  intro notional
  apply Outcome.test (rejects _ _ _ _)
  intro selfTrade
  apply Outcome.test (rejects _ _ _ _)
  intro working
  apply Outcome.test (rejects _ _ _ _)
  intro position
  apply Outcome.test (rejects _ _ _ _)
  intro gross
  have isOpen : g.IsOpen := by
    refine ⟨by simpa using unkilled, ?_⟩
    simpa [or_iff_not_imp_left] using connected
  have allowed : (selfTradeCheckAllows { g with rateStates := rates }
      (replacementFor existing request)).1 = true := by
    simpa using selfTrade
  have limits : WithinLimits fit g (replacementFor existing request) nowNs market := by
    refine ⟨not_lt.mp quantity, known, fun on => ?_, fun _ => not_lt.mp band, not_lt.mp notional,
      allowed, not_lt.mp position, not_lt.mp gross⟩
    exact not_lt.mp (fun late => fresh ⟨on, late⟩)
  have passed : ReplacePassed fit g request nowNs clientOrderId existing := by
    refine ⟨isOpen, not_le.mp positive, not_le.mp priced, unused, mapped, order, ⟨market, limits⟩,
      fun on => ?_⟩
    exact not_lt.mp (fun above => working ⟨on, above⟩)
  exact Or.inr ⟨clientOrderId, existing, rfl, passed, rates, _, rfl⟩

end Checks

section Primitives
variable {fit : Int → Int} {g : RiskGateway}

theorem findReported_lookup {report : ExecutionReport} {clientOrderId : Nat}
    {order : WorkingOrder} (h : findReported g report = some (clientOrderId, order)) :
    g.workingOrders.lookup clientOrderId = some order := by
  unfold findReported at h
  split at h
  · rename_i found
    cases Option.some.inj h
    exact found
  · split at h
    · cases h
    · simp only [Option.bind_eq_some_iff, Option.map_eq_some_iff] at h
      obtain ⟨id, -, o, lookup, same⟩ := h
      obtain ⟨rfl, rfl⟩ := Prod.mk.inj same
      exact lookup

def withExchangeId (order : WorkingOrder) (exchangeOrderId : Nat) : WorkingOrder :=
  if exchangeOrderId = invalidOrderId then order else { order with exchangeOrderId }

theorem bindExchangeOrderId_lookup {clientOrderId : Nat} {order : WorkingOrder}
    (h : g.workingOrders.lookup clientOrderId = some order) (exchangeOrderId : Nat) :
    (bindExchangeOrderId g clientOrderId order exchangeOrderId).workingOrders.lookup clientOrderId =
      some (withExchangeId order exchangeOrderId) := by
  unfold bindExchangeOrderId withExchangeId
  by_cases none : exchangeOrderId = invalidOrderId
  · rw [if_pos (Or.inl none), if_pos none, h]
  · rw [if_neg none]
    by_cases same : order.exchangeOrderId = exchangeOrderId
    · rw [if_pos (Or.inr same), h, ← same]
    · rw [if_neg (fun either => either.elim none same)]
      exact AList.lookup_insert _

/-- A report on an order that stays open binds its exchange id and puts it at its new price and
quantity. -/
theorem onExecutionReport_open {report : ExecutionReport} {id : Nat} {order : WorkingOrder}
    (attributed : report.clientOrderId ≠ invalidClientOrderId)
    (found : findReported g report = some (id, order)) (stays : closesOrder report = false) :
    ∃ price,
      price = (if report.restingPriceTicks > 0 then report.restingPriceTicks
        else order.priceTicks) ∧
      onExecutionReport fit g report =
        if order.quantity ≠ report.remainingQuantity ∨ order.priceTicks ≠ price then
          resizeOrder fit (bindExchangeOrderId g id order report.exchangeOrderId) id
            (withExchangeId order report.exchangeOrderId) price report.remainingQuantity
        else bindExchangeOrderId g id order report.exchangeOrderId := by
  have lookup := bindExchangeOrderId_lookup (findReported_lookup found) report.exchangeOrderId
  have price : (withExchangeId order report.exchangeOrderId).priceTicks = order.priceTicks := by
    unfold withExchangeId
    split
    · rfl
    · rfl
  have quantity : (withExchangeId order report.exchangeOrderId).quantity = order.quantity := by
    unfold withExchangeId
    split
    · rfl
    · rfl
  refine ⟨_, rfl, ?_⟩
  unfold onExecutionReport upsertWorkingOrderFromReport
  rw [if_neg attributed, found, stays]
  dsimp only
  rw [if_neg Bool.false_ne_true, lookup, Option.getD_some, price, quantity]

theorem closesOrder_remaining {report : ExecutionReport} (stays : closesOrder report = false) :
    0 < report.remainingQuantity := by
  simp only [closesOrder, Bool.or_eq_false_iff, decide_eq_false_iff_not] at stays
  omega

/-- The four tables of working orders are empty. -/
structure Cleared (g : RiskGateway) : Prop where
  quantity : g.workingQuantity = ∅
  orders : g.workingOrders = ∅
  index : g.exchangeToClientOrderIds = ∅
  books : g.clientBooks = ∅

theorem cancelAllWorkingOrders_cleared {timestampNs : Int} {reason : RejectReason} {name : Text} :
    Cleared (cancelAllWorkingOrders g timestampNs reason name) := ⟨rfl, rfl, rfl, rfl⟩

end Primitives

section Kept
variable (fit : Int → Int)

/-- An invariant of the order tables that every elementary change keeps; the changes of the limits
and the binding of an exchange id may depend on a condition on the operation. -/
structure KeptBy (P : RiskGateway → Operation → Prop) (I : RiskGateway → Prop) : Prop where
  same : ∀ {g g'}, I g → SameOrders g g' → I g'
  cleared : ∀ {g g'}, I g → Cleared g' → g'.limits = g.limits →
    g'.acceptedClientOrderIds = g.acceptedClientOrderIds → I g'
  limits : ∀ {g limits}, I g → P g (.setLimits limits) → I (g.setLimits limits)
  accepted : ∀ {g} id, I g →
    I { g with acceptedClientOrderIds := insert id g.acceptedClientOrderIds }
  admitted : ∀ {g request}, I g → request.clientOrderId ∉ g.acceptedClientOrderIds →
    0 < request.quantity → I (admitted fit g request)
  resized : ∀ {g clientOrderId order price quantity}, I g →
    g.workingOrders.lookup clientOrderId = some order → 0 < quantity →
    I (resizeOrder fit g clientOrderId order price quantity)
  released : ∀ {g} clientOrderId, I g → I (releaseOrder fit g clientOrderId)
  bound : ∀ {g report clientOrderId order}, I g → P g (.onExecutionReport report) →
    report.clientOrderId ≠ invalidClientOrderId →
    findReported g report = some (clientOrderId, order) → closesOrder report = false →
    I (bindExchangeOrderId g clientOrderId order report.exchangeOrderId)

variable {fit} {P : RiskGateway → Operation → Prop} {I : RiskGateway → Prop}

theorem KeptBy.rejected (kept : KeptBy fit P I) {g : RiskGateway}
    {checked : RiskGateway × RiskResult} (rejected : Rejected g checked) (inv : I g) :
    I checked.1 := by
  obtain ⟨-, rates, recorder, result⟩ := rejected
  rw [result]
  exact kept.same inv ⟨rfl, rfl, rfl, rfl, rfl, rfl⟩

theorem KeptBy.newOrder (kept : KeptBy fit P I) {g : RiskGateway} (inv : I g)
    (request : NewOrderRequest) (nowNs : Int) : I (checkNewOrder fit g request nowNs).1 := by
  rcases checkNewOrder_outcome fit g nowNs request with
    rejected | ⟨-, passed, rates, recorder, result⟩
  · exact kept.rejected rejected inv
  · have rated : I { g with rateStates := rates } := kept.same inv ⟨rfl, rfl, rfl, rfl, rfl, rfl⟩
    rw [result]
    exact kept.same (kept.admitted rated passed.unused passed.positive)
      ⟨rfl, rfl, rfl, rfl, rfl, rfl⟩

theorem KeptBy.replaceOrder (kept : KeptBy fit P I) {g : RiskGateway} (inv : I g)
    (request : ReplaceOrderRequest) (nowNs : Int) :
    I (checkReplaceOrder fit g request nowNs).1 := by
  rcases checkReplaceOrder_outcome fit g nowNs request with
    rejected | ⟨id, existing, -, passed, rates, recorder, result⟩
  · exact kept.rejected rejected inv
  · have rated : I { g with rateStates := rates } := kept.same inv ⟨rfl, rfl, rfl, rfl, rfl, rfl⟩
    have resized : I (resizeOrder fit { g with rateStates := rates } id existing
        request.newPriceTicks request.newQuantity) :=
      kept.resized rated passed.order passed.positive
    rw [result]
    exact kept.same (kept.accepted request.clientOrderId resized)
      ⟨rfl, rfl, rfl, rfl, rfl, rfl⟩

theorem KeptBy.report (kept : KeptBy fit P I) {g : RiskGateway} (inv : I g)
    (report : ExecutionReport) (allowed : P g (.onExecutionReport report)) :
    I (onExecutionReport fit g report) := by
  by_cases attributed : report.clientOrderId = invalidClientOrderId
  · unfold onExecutionReport
    rw [if_pos attributed]
    exact inv
  cases found : findReported g report with
  | none =>
    unfold onExecutionReport upsertWorkingOrderFromReport
    rw [if_neg attributed, found]
    exact inv
  | some p =>
    obtain ⟨id, order⟩ := p
    cases closes : closesOrder report with
    | true =>
      unfold onExecutionReport upsertWorkingOrderFromReport
      rw [if_neg attributed, found, closes]
      exact kept.released report.clientOrderId inv
    | false =>
      have bound := kept.bound inv allowed attributed found closes
      have lookup := bindExchangeOrderId_lookup (findReported_lookup found) report.exchangeOrderId
      obtain ⟨price, -, result⟩ := @onExecutionReport_open fit g report id order attributed found closes
      rw [result]
      split
      · exact kept.resized bound lookup (closesOrder_remaining closes)
      · exact bound

/-- Every operation keeps the invariant. -/
theorem KeptBy.perform (kept : KeptBy fit P I) {g : RiskGateway} (inv : I g)
    (operation : Operation) (allowed : P g operation) : I (perform fit g operation).1 := by
  have quiet : ∀ g', SameOrders g g' → I g' := fun _ same => kept.same inv same
  cases operation with
  | setLimits limits => exact kept.limits inv allowed
  | enableKillSwitch timestampNs =>
    exact kept.cleared inv cancelAllWorkingOrders_cleared rfl rfl
  | disableKillSwitch => exact quiet _ ⟨rfl, rfl, rfl, rfl, rfl, rfl⟩
  | onDisconnect timestampNs =>
    change I (onDisconnect g timestampNs)
    unfold onDisconnect
    split
    · exact inv
    · dsimp only
      split
      · exact kept.cleared inv cancelAllWorkingOrders_cleared rfl rfl
      · exact quiet _ ⟨rfl, rfl, rfl, rfl, rfl, rfl⟩
  | onReconnect => exact quiet _ ⟨rfl, rfl, rfl, rfl, rfl, rfl⟩
  | onMarketData symbolId price timestampNs => exact quiet _ ⟨rfl, rfl, rfl, rfl, rfl, rfl⟩
  | setPosition symbolId position => exact quiet _ ⟨rfl, rfl, rfl, rfl, rfl, rfl⟩
  | checkNewOrder request nowNs => exact kept.newOrder inv request nowNs
  | checkReplaceOrder request nowNs => exact kept.replaceOrder inv request nowNs
  | releaseOrder clientOrderId => exact kept.released clientOrderId inv
  | onExecutionReport report => exact kept.report inv report allowed
  | setAuditEnabled enabled => exact quiet _ ⟨rfl, rfl, rfl, rfl, rfl, rfl⟩
  | clearAudit => exact quiet _ ⟨rfl, rfl, rfl, rfl, rfl, rfl⟩

end Kept

section Frame
variable {fit : Int → Int} {g : RiskGateway} {order : WorkingOrder} {quantity : Int}

/-- Adding and releasing quantity touch the two tables of quantities only. -/
theorem addWorkingOrderQuantity_frame : ∃ workingQuantity clientBooks,
    addWorkingOrderQuantity fit g order quantity = { g with workingQuantity, clientBooks } := by
  unfold addWorkingOrderQuantity
  split
  · exact ⟨g.workingQuantity, g.clientBooks, rfl⟩
  · exact ⟨_, _, rfl⟩

theorem releaseWorkingOrderQuantity_frame : ∃ workingQuantity clientBooks,
    releaseWorkingOrderQuantity fit g order quantity = { g with workingQuantity, clientBooks } := by
  unfold releaseWorkingOrderQuantity
  split
  · exact ⟨g.workingQuantity, g.clientBooks, rfl⟩
  · exact ⟨_, _, rfl⟩

theorem resizeOrder_frame {id : Nat} {newPrice newQuantity : Int} :
    ∃ workingQuantity clientBooks, resizeOrder fit g id order newPrice newQuantity =
      { g with
        workingOrders := g.workingOrders.insert id
          { order with priceTicks := newPrice, quantity := newQuantity }
        workingQuantity, clientBooks } := by
  obtain ⟨quantities, books, release⟩ :=
    @releaseWorkingOrderQuantity_frame fit g order order.quantity
  obtain ⟨quantities', books', add⟩ := @addWorkingOrderQuantity_frame fit
    ((releaseWorkingOrderQuantity fit g order order.quantity).setOrder id
      { order with priceTicks := newPrice, quantity := newQuantity })
    { order with priceTicks := newPrice, quantity := newQuantity } newQuantity
  refine ⟨quantities', books', ?_⟩
  unfold resizeOrder
  dsimp only
  rw [add, release]
  rfl

theorem releaseOrder_frame {id : Nat} (h : g.workingOrders.lookup id = some order) :
    ∃ workingQuantity clientBooks exchangeToClientOrderIds, releaseOrder fit g id =
      { g with
        workingOrders := g.workingOrders.erase id
        workingQuantity, clientBooks, exchangeToClientOrderIds } := by
  obtain ⟨quantities, books, release⟩ :=
    @releaseWorkingOrderQuantity_frame fit g order order.quantity
  refine ⟨quantities, books, if order.exchangeOrderId ≠ invalidOrderId then
    g.exchangeToClientOrderIds.erase order.exchangeOrderId else g.exchangeToClientOrderIds, ?_⟩
  unfold releaseOrder
  simp only [h]
  rw [release]

end Frame

/-- Beyond the working orders and their tables everything is the same. -/
structure SameRest (g g' : RiskGateway) : Prop where
  limits : g'.limits = g.limits
  killSwitch : g'.killSwitch = g.killSwitch
  connected : g'.connected = g.connected
  accepted : g'.acceptedClientOrderIds = g.acceptedClientOrderIds
  recorder : g'.recorder = g.recorder

section Rest
variable {fit : Int → Int} {g : RiskGateway} {order : WorkingOrder} {id : Nat}

theorem SameRest.same (g : RiskGateway) : SameRest g g := ⟨rfl, rfl, rfl, rfl, rfl⟩

theorem SameRest.trans {g g' g'' : RiskGateway} (first : SameRest g g')
    (second : SameRest g' g'') : SameRest g g'' :=
  ⟨second.limits.trans first.limits, second.killSwitch.trans first.killSwitch,
    second.connected.trans first.connected, second.accepted.trans first.accepted,
    second.recorder.trans first.recorder⟩

theorem addWorkingOrderQuantity_rest {quantity : Int} :
    SameRest g (addWorkingOrderQuantity fit g order quantity) := by
  obtain ⟨_, _, frame⟩ := @addWorkingOrderQuantity_frame fit g order quantity
  rw [frame]
  exact ⟨rfl, rfl, rfl, rfl, rfl⟩

theorem registerWorkingOrder_rest {request : NewOrderRequest} :
    SameRest g (registerWorkingOrder fit g request) := by
  unfold registerWorkingOrder
  split
  · exact SameRest.same g
  · dsimp only
    apply SameRest.trans _ addWorkingOrderQuantity_rest
    exact ⟨rfl, rfl, rfl, rfl, rfl⟩

theorem resizeOrder_rest {price quantity : Int} :
    SameRest g (resizeOrder fit g id order price quantity) := by
  obtain ⟨_, _, frame⟩ := @resizeOrder_frame fit g order id price quantity
  rw [frame]
  exact ⟨rfl, rfl, rfl, rfl, rfl⟩

theorem releaseOrder_rest : SameRest g (releaseOrder fit g id) := by
  cases lookup : g.workingOrders.lookup id with
  | none =>
    unfold releaseOrder
    rw [lookup]
    exact SameRest.same g
  | some order =>
    obtain ⟨_, _, _, frame⟩ := @releaseOrder_frame fit g order id lookup
    rw [frame]
    exact ⟨rfl, rfl, rfl, rfl, rfl⟩

theorem bindExchangeOrderId_rest {exchangeOrderId : Nat} :
    SameRest g (bindExchangeOrderId g id order exchangeOrderId) := by
  unfold bindExchangeOrderId
  split
  · exact SameRest.same g
  · exact ⟨rfl, rfl, rfl, rfl, rfl⟩

theorem onExecutionReport_rest {report : ExecutionReport} :
    SameRest g (onExecutionReport fit g report) := by
  unfold onExecutionReport
  split
  · exact SameRest.same g
  unfold upsertWorkingOrderFromReport
  split
  · exact SameRest.same g
  split
  · exact releaseOrder_rest
  apply iteInduction (motive := SameRest g)
  · exact fun _ => bindExchangeOrderId_rest.trans resizeOrder_rest
  · exact fun _ => bindExchangeOrderId_rest

end Rest

end RiskGateway

end Asterion
