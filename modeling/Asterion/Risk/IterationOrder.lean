import Asterion.Risk.RiskGateway
import Asterion.Lib.Along

/-! What the order of iteration of the hash maps can change. Two gateways whose maps hold the same
entries in another order decide alike and record alike, except where all working orders are
cancelled at once. -/
namespace Asterion
open Lib Lib.Tally Lib.Along

namespace RiskGateway

/-- The same gateway, its hash maps iterated in another order. -/
structure Reordered (g h : RiskGateway) : Prop where
  limits : h.limits = g.limits
  killSwitch : h.killSwitch = g.killSwitch
  accepted : h.acceptedClientOrderIds = g.acceptedClientOrderIds
  recorder : h.recorder = g.recorder
  disconnects : h.disconnectCount = g.disconnectCount
  cancels : h.disconnectCancelCount = g.disconnectCancelCount
  connected : h.connected = g.connected
  marketState : h.marketState.entries.Perm g.marketState.entries
  positions : h.positions.entries.Perm g.positions.entries
  quantity : h.workingQuantity.entries.Perm g.workingQuantity.entries
  orders : h.workingOrders.entries.Perm g.workingOrders.entries
  index : h.exchangeToClientOrderIds.entries.Perm g.exchangeToClientOrderIds.entries
  books : h.clientBooks.entries.Perm g.clientBooks.entries
  rates : h.rateStates.entries.Perm g.rateStates.entries

namespace Reordered

theorem refl (g : RiskGateway) : Reordered g g :=
  ⟨rfl, rfl, rfl, rfl, rfl, rfl, rfl, .refl _, .refl _, .refl _, .refl _, .refl _, .refl _, .refl _⟩

variable {fit : Int → Int} {g h k : RiskGateway}

theorem trans (r : Reordered g h) (s : Reordered h k) : Reordered g k where
  limits := s.limits.trans r.limits
  killSwitch := s.killSwitch.trans r.killSwitch
  accepted := s.accepted.trans r.accepted
  recorder := s.recorder.trans r.recorder
  disconnects := s.disconnects.trans r.disconnects
  cancels := s.cancels.trans r.cancels
  connected := s.connected.trans r.connected
  marketState := s.marketState.trans r.marketState
  positions := s.positions.trans r.positions
  quantity := s.quantity.trans r.quantity
  orders := s.orders.trans r.orders
  index := s.index.trans r.index
  books := s.books.trans r.books
  rates := s.rates.trans r.rates

theorem ite {g' h' : RiskGateway} {c : Prop} [Decidable c] (yes : Reordered g h)
    (no : Reordered g' h') : Reordered (if c then g else g') (if c then h else h') := by
  split
  · exact yes
  · exact no

section Tables
variable (r : Reordered g h)
include r

theorem addWorkingOrderQuantity (order : WorkingOrder) (n : Int) :
    Reordered (addWorkingOrderQuantity fit g order n) (addWorkingOrderQuantity fit h order n) := by
  unfold RiskGateway.addWorkingOrderQuantity
  split
  · exact r
  · refine { r with quantity := add_perm r.quantity, books := ?_ }
    rw [r.limits]
    simp only
    split
    · rw [AList.perm_lookup r.books]
      exact AList.perm_insert r.books
    · exact r.books

theorem releaseWorkingOrderQuantity (order : WorkingOrder) (n : Int) :
    Reordered (releaseWorkingOrderQuantity fit g order n)
      (releaseWorkingOrderQuantity fit h order n) := by
  unfold RiskGateway.releaseWorkingOrderQuantity
  split
  · exact r
  · refine { r with quantity := reduce_perm r.quantity, books := ?_ }
    simp only [AList.perm_lookup r.books]
    split
    · exact r.books
    · split
      · exact AList.perm_erase r.books
      · exact AList.perm_insert r.books

theorem withId (id : Nat) :
    Reordered { g with acceptedClientOrderIds := insert id g.acceptedClientOrderIds }
      { h with acceptedClientOrderIds := insert id h.acceptedClientOrderIds } :=
  { r with accepted := congrArg (insert id) r.accepted }

theorem setOrder (id : Nat) (order : WorkingOrder) :
    Reordered (g.setOrder id order) (h.setOrder id order) :=
  { r with orders := AList.perm_insert r.orders }

theorem registerWorkingOrder (request : NewOrderRequest) :
    Reordered (registerWorkingOrder fit g request) (registerWorkingOrder fit h request) := by
  unfold RiskGateway.registerWorkingOrder
  split
  · exact r
  · exact (r.setOrder _ _).addWorkingOrderQuantity _ _

theorem resizeOrder (id : Nat) (order : WorkingOrder) (price quantity : Int) :
    Reordered (resizeOrder fit g id order price quantity)
      (resizeOrder fit h id order price quantity) :=
  ((r.releaseWorkingOrderQuantity _ _).setOrder _ _).addWorkingOrderQuantity _ _

theorem releaseOrder (id : Nat) :
    Reordered (releaseOrder fit g id) (releaseOrder fit h id) := by
  unfold RiskGateway.releaseOrder
  rw [AList.perm_lookup r.orders]
  split
  · exact r
  · rename_i order _
    have released := @Reordered.releaseWorkingOrderQuantity fit _ _ r order order.quantity
    refine { released with orders := AList.perm_erase released.orders, index := ?_ }
    simp only
    split
    · exact AList.perm_erase released.index
    · exact released.index

theorem bindExchangeOrderId (id : Nat) (order : WorkingOrder) (exchangeOrderId : Nat) :
    Reordered (bindExchangeOrderId g id order exchangeOrderId)
      (bindExchangeOrderId h id order exchangeOrderId) := by
  unfold RiskGateway.bindExchangeOrderId
  split
  · exact r
  · refine { r.setOrder id { order with exchangeOrderId } with index := ?_ }
    simp only
    split
    · exact AList.perm_insert (AList.perm_erase r.index)
    · exact AList.perm_insert r.index

theorem findReported (report : ExecutionReport) : findReported h report = findReported g report := by
  unfold RiskGateway.findReported
  simp only [AList.perm_lookup r.orders, AList.perm_lookup r.index]

theorem onExecutionReport (report : ExecutionReport) :
    Reordered (onExecutionReport fit g report) (onExecutionReport fit h report) := by
  unfold RiskGateway.onExecutionReport upsertWorkingOrderFromReport
  rw [r.findReported]
  split
  · exact r
  · split
    · exact r
    · rename_i id order _
      split
      · exact r.releaseOrder _
      · have bound := r.bindExchangeOrderId id order report.exchangeOrderId
        simp only [AList.perm_lookup bound.orders]
        exact .ite (bound.resizeOrder _ _ _ _) bound

end Tables

section Readings
variable (r : Reordered g h)
include r

theorem notionalFor (request : NewOrderRequest) :
    notionalFor fit h request = notionalFor fit g request := by
  unfold RiskGateway.notionalFor
  rw [AList.perm_lookup r.marketState]

theorem grossExposureWith (wraps : ∀ a b, fit (fit a + b) = fit (a + b))
    (request : NewOrderRequest) : grossExposureWith fit h request = grossExposureWith fit g request := by
  unfold RiskGateway.grossExposureWith
  rw [r.notionalFor]
  simp only [AList.perm_lookup r.marketState]
  apply r.positions.foldl_eq'
  intro x _ y _ gross
  cases g.marketState.lookup x.1 <;> cases g.marketState.lookup y.1
  · rfl
  · rfl
  · rfl
  · simp only [wraps]
    congr 1
    omega

theorem selfTradeCheckAllows (request : NewOrderRequest) :
    selfTradeCheckAllows h request = selfTradeCheckAllows g request := by
  unfold RiskGateway.selfTradeCheckAllows
  rw [r.limits, AList.perm_lookup r.books]

theorem position (symbolId : Nat) : h.position symbolId = g.position symbolId := by
  unfold RiskGateway.position
  rw [AList.perm_lookup r.positions]

theorem workingQuantityOf (symbolId : Nat) :
    h.workingQuantityOf symbolId = g.workingQuantityOf symbolId := by
  unfold RiskGateway.workingQuantityOf
  rw [AList.perm_lookup r.quantity]

theorem tracksWorkingOrders : h.tracksWorkingOrders = g.tracksWorkingOrders := by
  unfold RiskGateway.tracksWorkingOrders
  rw [r.limits]

end Readings

end Reordered

/-- The same result, and gateways that differ in the order of iteration. -/
structure Agree (a b : RiskGateway × RiskResult) : Prop where
  gateway : Reordered a.1 b.1
  result : b.2 = a.2

section Checks
variable {fit : Int → Int} {g h : RiskGateway}

theorem Agree.ite {a a' b b' : RiskGateway × RiskResult} {c : Prop} [Decidable c] (yes : Agree a b)
    (no : Agree a' b') : Agree (if c then a else a') (if c then b else b') := by
  split
  · exact yes
  · exact no

theorem Reordered.decide (r : Reordered g h) (nowNs : Int) (clientOrderId symbolId : Nat) (side : Side)
    (name : Text) (accepted : Bool) (reason : RejectReason) (limit observed : Int) :
    Agree (g.decide nowNs clientOrderId symbolId side name accepted reason limit observed)
      (h.decide nowNs clientOrderId symbolId side name accepted reason limit observed) where
  gateway := { r with recorder := by simp only [RiskGateway.decide, r.recorder] }
  result := rfl

theorem Reordered.accepts (r : Reordered g h) (request : NewOrderRequest) (nowNs : Int) (name : Text)
    (observed : Int) :
    Agree (g.decideOn request nowNs name true .none g.limits.maxNotionalTicks observed)
      (h.decideOn request nowNs name true .none h.limits.maxNotionalTicks observed) := by
  rw [r.limits]
  exact r.decide _ _ _ _ _ _ _ _ _

theorem Reordered.rateLimitAllows (r : Reordered g h) (request : NewOrderRequest) (nowNs : Int) :
    Reordered (rateLimitAllows fit g request nowNs).1 (rateLimitAllows fit h request nowNs).1 ∧
      (rateLimitAllows fit h request nowNs).2 = (rateLimitAllows fit g request nowNs).2 := by
  unfold RiskGateway.rateLimitAllows
  simp only [r.limits, AList.perm_lookup r.rates]
  split
  · exact ⟨r, rfl⟩
  · split
    · exact ⟨{ r with limits := rfl, rates := AList.perm_insert r.rates }, rfl⟩
    · exact ⟨{ r with limits := rfl, rates := AList.perm_insert r.rates }, rfl⟩

theorem Reordered.checkNewOrder (r : Reordered g h) (wraps : ∀ a b, fit (fit a + b) = fit (a + b))
    (request : NewOrderRequest) (nowNs : Int) :
    Agree (RiskGateway.checkNewOrder fit g request nowNs)
      (RiskGateway.checkNewOrder fit h request nowNs) := by
  obtain ⟨⟨g', allowed, observed⟩, rated⟩ : ∃ rated,
      RiskGateway.rateLimitAllows fit g request nowNs = rated := ⟨_, rfl⟩
  obtain ⟨⟨h', allowed', observed'⟩, rated'⟩ :
      ∃ rated, RiskGateway.rateLimitAllows fit h request nowNs = rated := ⟨_, rfl⟩
  obtain ⟨s, same⟩ := @Reordered.rateLimitAllows fit _ _ r request nowNs
  rw [rated, rated'] at s same
  change Reordered g' h' at s
  obtain ⟨rfl, rfl⟩ := Prod.mk.inj same
  have told : ∀ name accepted reason limit observed, Agree
      (g'.decideOn request nowNs name accepted reason limit observed)
      (h'.decideOn request nowNs name accepted reason limit observed) := fun _ _ _ _ _ =>
    s.decide _ _ _ _ _ _ _ _ _
  unfold RiskGateway.checkNewOrder
  simp only [rated, rated', r.killSwitch, r.connected, r.limits, s.limits, s.accepted, s.notionalFor,
    s.grossExposureWith wraps, s.selfTradeCheckAllows, s.position, s.workingQuantityOf,
    AList.perm_lookup s.marketState]
  apply Agree.ite (r.decide _ _ _ _ _ _ _ _ _)
  apply Agree.ite (r.decide _ _ _ _ _ _ _ _ _)
  apply Agree.ite (told _ _ _ _ _)
  apply Agree.ite (told _ _ _ _ _)
  apply Agree.ite (told _ _ _ _ _)
  apply Agree.ite (told _ _ _ _ _)
  apply Agree.ite (told _ _ _ _ _)
  split
  · exact told _ _ _ _ _
  apply Agree.ite (told _ _ _ _ _)
  apply Agree.ite (told _ _ _ _ _)
  apply Agree.ite (told _ _ _ _ _)
  apply Agree.ite (told _ _ _ _ _)
  apply Agree.ite (told _ _ _ _ _)
  apply Agree.ite (told _ _ _ _ _)
  apply Agree.ite (told _ _ _ _ _)
  have admitted : Reordered
      { g' with acceptedClientOrderIds := insert request.clientOrderId g'.acceptedClientOrderIds }
      { h' with
        limits := g'.limits
        acceptedClientOrderIds := insert request.clientOrderId g'.acceptedClientOrderIds } :=
    { s with limits := rfl, accepted := rfl }
  have tracked := Reordered.ite (c := g'.tracksWorkingOrders = true)
    (@Reordered.registerWorkingOrder fit _ _ admitted request) admitted
  exact tracked.accepts request nowNs _ _

theorem Reordered.checkReplacement (r : Reordered g h)
    (wraps : ∀ a b, fit (fit a + b) = fit (a + b)) (clientOrderId : Nat) (existing : WorkingOrder)
    (request : ReplaceOrderRequest) (nowNs : Int) :
    Agree (RiskGateway.checkReplacement fit g clientOrderId existing request nowNs)
      (RiskGateway.checkReplacement fit h clientOrderId existing request nowNs) := by
  obtain ⟨replacement, hreplacement⟩ : ∃ x, x = replacementFor existing request := ⟨_, rfl⟩
  obtain ⟨⟨g', allowed, observed⟩, rated⟩ : ∃ rated,
      RiskGateway.rateLimitAllows fit g replacement nowNs = rated := ⟨_, rfl⟩
  obtain ⟨⟨h', allowed', observed'⟩, rated'⟩ :
      ∃ rated, RiskGateway.rateLimitAllows fit h replacement nowNs = rated := ⟨_, rfl⟩
  obtain ⟨s, same⟩ := @Reordered.rateLimitAllows fit _ _ r replacement nowNs
  rw [rated, rated'] at s same
  change Reordered g' h' at s
  obtain ⟨rfl, rfl⟩ := Prod.mk.inj same
  have told : ∀ name accepted reason limit observed, Agree
      (g'.decideOn replacement nowNs name accepted reason limit observed)
      (h'.decideOn replacement nowNs name accepted reason limit observed) := fun _ _ _ _ _ =>
    s.decide _ _ _ _ _ _ _ _ _
  unfold RiskGateway.checkReplacement
  simp only [← hreplacement, rated, rated', s.limits, s.notionalFor, s.grossExposureWith wraps,
    s.selfTradeCheckAllows, s.position, s.workingQuantityOf, AList.perm_lookup s.marketState]
  apply Agree.ite (told _ _ _ _ _)
  apply Agree.ite (told _ _ _ _ _)
  split
  · exact told _ _ _ _ _
  apply Agree.ite (told _ _ _ _ _)
  apply Agree.ite (told _ _ _ _ _)
  apply Agree.ite (told _ _ _ _ _)
  apply Agree.ite (told _ _ _ _ _)
  apply Agree.ite (told _ _ _ _ _)
  apply Agree.ite (told _ _ _ _ _)
  apply Agree.ite (told _ _ _ _ _)
  have resized := @Reordered.resizeOrder fit _ _ s clientOrderId existing request.newPriceTicks
    request.newQuantity
  exact (resized.withId request.clientOrderId).accepts replacement nowNs _ _

theorem Reordered.checkReplaceOrder (r : Reordered g h)
    (wraps : ∀ a b, fit (fit a + b) = fit (a + b)) (request : ReplaceOrderRequest) (nowNs : Int) :
    Agree (RiskGateway.checkReplaceOrder fit g request nowNs)
      (RiskGateway.checkReplaceOrder fit h request nowNs) := by
  unfold RiskGateway.checkReplaceOrder
  simp only [r.killSwitch, r.connected, r.limits, r.accepted, AList.perm_lookup r.index,
    AList.perm_lookup r.orders]
  apply Agree.ite (r.decide _ _ _ _ _ _ _ _ _)
  apply Agree.ite (r.decide _ _ _ _ _ _ _ _ _)
  apply Agree.ite (r.decide _ _ _ _ _ _ _ _ _)
  apply Agree.ite (r.decide _ _ _ _ _ _ _ _ _)
  apply Agree.ite (r.decide _ _ _ _ _ _ _ _ _)
  split
  · exact r.decide _ _ _ _ _ _ _ _ _
  · split
    · exact r.decide _ _ _ _ _ _ _ _ _
    · exact r.checkReplacement wraps _ _ request nowNs

end Checks

def cancelEntry (timestampNs : Int) (reason : RejectReason) (checkName : Text)
    (order : Sigma (fun _ : Nat => WorkingOrder)) : RiskAuditEntry :=
  entry timestampNs order.1 order.2.symbolId order.2.side false reason checkName 0 order.2.quantity

/-- No two working orders differ in what the record of their cancel says. -/
def CancelsAlike (g : RiskGateway) (timestampNs : Int) (reason : RejectReason) (checkName : Text) :
    Prop :=
  ∀ a ∈ g.workingOrders.entries, ∀ b ∈ g.workingOrders.entries,
    cancelEntry timestampNs reason checkName a = cancelEntry timestampNs reason checkName b

/-- The operation does not record the cancels of working orders that can be told apart. -/
def Settled (g : RiskGateway) : Operation → Prop
  | .enableKillSwitch timestampNs =>
    g.recorder.recordAudit = true →
      CancelsAlike g timestampNs .killSwitch (text "kill_switch_cancel")
  | .onDisconnect timestampNs =>
    g.connected = true → g.limits.cancelOnDisconnect = true → g.recorder.recordAudit = true →
      CancelsAlike g timestampNs .disconnected (text "disconnect_cancel")
  | _ => True

section Cancels
variable {fit : Int → Int} {g h : RiskGateway}

theorem cancelEntry_inj {timestampNs : Int} {reason : RejectReason} {checkName : Text}
    {a b : Sigma (fun _ : Nat => WorkingOrder)} (ha : a.1 < 2 ^ 64) (hb : b.1 < 2 ^ 64)
    (same : cancelEntry timestampNs reason checkName a = cancelEntry timestampNs reason checkName b) :
    a.1 = b.1 := by
  have ids : UInt64.ofNat a.1 = UInt64.ofNat b.1 := congrArg RiskAuditEntry.clientOrderId same
  have nats := congrArg UInt64.toNat ids
  rw [UInt64.toNat_ofNat', UInt64.toNat_ofNat'] at nats
  rwa [Nat.mod_eq_of_lt ha, Nat.mod_eq_of_lt hb] at nats

/-- With ids of 64 bits it leaves at most one working order. -/
theorem cancelsAlike_iff {timestampNs : Int} {reason : RejectReason} {checkName : Text}
    (ids : ∀ a ∈ g.workingOrders.entries, a.1 < 2 ^ 64) :
    CancelsAlike g timestampNs reason checkName ↔ g.workingOrders.entries.length ≤ 1 := by
  constructor
  · intro alike
    have distinct : (g.workingOrders.entries.map Sigma.fst).Nodup := g.workingOrders.nodupKeys
    cases orders : g.workingOrders.entries with
    | nil => exact Nat.zero_le 1
    | cons a rest =>
      cases rest with
      | nil => exact le_rfl
      | cons b rest =>
        rw [CancelsAlike, orders] at alike
        rw [orders] at ids distinct
        have ha := ids a List.mem_cons_self
        have hb := ids b (List.mem_cons_of_mem _ List.mem_cons_self)
        have same := cancelEntry_inj ha hb
          (alike a List.mem_cons_self b (List.mem_cons_of_mem _ List.mem_cons_self))
        rw [List.map_cons, List.map_cons, List.nodup_cons] at distinct
        exact absurd (List.mem_cons.mpr (Or.inl same)) distinct.1
  · intro single a ha b hb
    match orders : g.workingOrders.entries with
    | [] => rw [orders] at ha; cases ha
    | [c] =>
      rw [orders, List.mem_singleton] at ha hb
      rw [ha, hb]
    | _ :: _ :: _ => rw [orders] at single; simp at single

theorem recordAll_eq {timestampNs : Int} {reason : RejectReason} {checkName : Text}
    (r : Reordered g h) (alike : CancelsAlike g timestampNs reason checkName)
    (recorder : AuditRecorder) :
    h.workingOrders.entries.foldl (fun recorder order =>
      recorder.recordAuditEntry (cancelEntry timestampNs reason checkName order)) recorder =
    g.workingOrders.entries.foldl (fun recorder order =>
      recorder.recordAuditEntry (cancelEntry timestampNs reason checkName order)) recorder := by
  refine r.orders.foldl_eq' ?_ recorder
  intro a ha b hb recorder
  rw [alike a (r.orders.mem_iff.mp ha) b (r.orders.mem_iff.mp hb)]

theorem Reordered.cancelAllWorkingOrders {timestampNs : Int} {reason : RejectReason}
    {checkName : Text} (r : Reordered g h)
    (alike : g.recorder.recordAudit = true → CancelsAlike g timestampNs reason checkName) :
    Reordered (cancelAllWorkingOrders g timestampNs reason checkName)
      (cancelAllWorkingOrders h timestampNs reason checkName) := by
  refine { r with
    recorder := ?_, cancels := ?_, quantity := .refl _, orders := .refl _, index := .refl _
    books := .refl _ }
  · unfold RiskGateway.cancelAllWorkingOrders
    simp only [r.recorder]
    split
    · rename_i on
      exact recordAll_eq r (alike on) _
    · rfl
  · unfold RiskGateway.cancelAllWorkingOrders
    simp only [r.cancels, r.orders.length_eq]

/-- An operation that is settled does the same whatever the order of iteration. -/
theorem Reordered.perform (r : Reordered g h) (wraps : ∀ a b, fit (fit a + b) = fit (a + b))
    {operation : Operation} (settled : Settled g operation) :
    Reordered (perform fit g operation).1 (RiskGateway.perform fit h operation).1 := by
  cases operation with
  | setLimits limits => exact { r with limits := rfl }
  | enableKillSwitch timestampNs =>
    exact ({ r with killSwitch := rfl } : Reordered { g with killSwitch := true }
      { h with killSwitch := true }).cancelAllWorkingOrders settled
  | disableKillSwitch => exact { r with killSwitch := rfl }
  | onDisconnect timestampNs =>
    change Reordered (onDisconnect g timestampNs) (onDisconnect h timestampNs)
    unfold onDisconnect
    simp only [r.connected, r.limits, r.disconnects]
    split
    · exact r
    · rename_i connected
      have dropped : Reordered
          { g with connected := false, disconnectCount := g.disconnectCount + 1 }
          { h with
            connected := false, disconnectCount := g.disconnectCount + 1, limits := g.limits } :=
        { r with limits := rfl, connected := rfl, disconnects := rfl }
      have live : g.connected = true := by simpa using connected
      by_cases cancels : g.limits.cancelOnDisconnect = true
      · rw [if_pos cancels, if_pos cancels]
        exact dropped.cancelAllWorkingOrders (fun on => settled live cancels on)
      · rw [if_neg cancels, if_neg cancels]
        exact dropped
  | onReconnect => exact { r with connected := rfl }
  | onMarketData symbolId price timestampNs =>
    exact { r with marketState := AList.perm_insert r.marketState }
  | setPosition symbolId position => exact { r with positions := AList.perm_insert r.positions }
  | checkNewOrder request nowNs => exact (r.checkNewOrder wraps request nowNs).gateway
  | checkReplaceOrder request nowNs => exact (r.checkReplaceOrder wraps request nowNs).gateway
  | releaseOrder clientOrderId => exact r.releaseOrder clientOrderId
  | onExecutionReport report => exact r.onExecutionReport report
  | setAuditEnabled enabled =>
    exact { r with recorder := congrArg (fun x => x.setAuditEnabled enabled) r.recorder }
  | clearAudit => exact { r with recorder := congrArg AuditRecorder.clearAudit r.recorder }

end Cancels

/-- What a gateway can be asked to do, its log files and its capacity included. -/
inductive Call where
  | operation (operation : Operation)
  | openRotatingAuditLog (path : Text) (format : RiskAuditLogFormat)
      (maxRecordsPerFile maxBytesPerFile : Nat)
  | closeAuditLog
  | reserveHotPathCapacity (acceptedClientOrderIds symbols rateStates : Nat)

def Call.isReserve : Call → Bool
  | .reserveHotPathCapacity .. => true
  | _ => false

/-- Capacity shows in nothing but the order in which the maps are iterated. -/
def serve (fit : Int → Int) (g : RiskGateway) : Call → RiskGateway
  | .operation operation => (perform fit g operation).1
  | .openRotatingAuditLog path format maxRecordsPerFile maxBytesPerFile =>
    { g with recorder :=
      g.recorder.openRotatingAuditLog path format maxRecordsPerFile maxBytesPerFile }
  | .closeAuditLog => { g with recorder := g.recorder.closeAuditLog }
  | .reserveHotPathCapacity .. => g

/-- A run in which every call finds the maps in some order of iteration. -/
inductive Runs (fit : Int → Int) : RiskGateway → List Call → RiskGateway → Prop
  | nil (g : RiskGateway) : Runs fit g [] g
  | cons {g h k : RiskGateway} {call : Call} {calls : List Call} (order : Reordered g h)
      (rest : Runs fit (serve fit h call) calls k) : Runs fit g (call :: calls) k

def essential (calls : List Call) : List Call := calls.filter (fun call => !call.isReserve)

structure SameAudit (g h : RiskGateway) : Prop where
  checksum : g.recorder.audit.checksum = h.recorder.audit.checksum
  entries : g.recorder.audit.entries = h.recorder.audit.entries
  files : g.recorder.files = h.recorder.files
  paths : g.recorder.paths = h.recorder.paths

/-- After every call, any two runs of the same calls have left the same audit, whatever capacity
they reserve in between and however their maps are iterated. -/
def AuditDetermined (fit : Int → Int) (start : RiskGateway) (calls : List Call) : Prop :=
  ∀ front, front <+: calls → ∀ first second g h,
    essential first = essential front → essential second = essential front →
    Runs fit start first g → Runs fit start second h → SameAudit g h

def CallSettled (g : RiskGateway) : Call → Prop
  | .operation operation => Settled g operation
  | _ => True

section Runs
variable {fit : Int → Int} {g h k : RiskGateway} {calls : List Call}

theorem Reordered.serve (r : Reordered g h) (wraps : ∀ a b, fit (fit a + b) = fit (a + b))
    {call : Call} (settled : CallSettled g call) :
    Reordered (serve fit g call) (RiskGateway.serve fit h call) := by
  cases call with
  | operation operation => exact r.perform wraps settled
  | openRotatingAuditLog path format records bytes =>
    have opened := congrArg (fun x => x.openRotatingAuditLog path format records bytes) r.recorder
    exact { r with recorder := opened }
  | closeAuditLog => exact { r with recorder := congrArg AuditRecorder.closeAuditLog r.recorder }
  | reserveHotPathCapacity => exact r

theorem Reordered.runs (r : Reordered g h) (wraps : ∀ a b, fit (fit a + b) = fit (a + b))
    (settled : Each (RiskGateway.serve fit) CallSettled g calls) (run : Runs fit h calls k) :
    Reordered (calls.foldl (RiskGateway.serve fit) g) k := by
  induction run generalizing g with
  | nil => exact r
  | cons order _ ih => exact ih ((r.trans order).serve wraps settled.1) settled.2

theorem runs_foldl (g : RiskGateway) (calls : List Call) :
    Runs fit g calls (calls.foldl (serve fit) g) := by
  induction calls generalizing g with
  | nil => exact .nil g
  | cons call calls ih => exact .cons (.refl g) (ih (serve fit g call))

theorem Runs.append {more : List Call} (run : Runs fit g calls h) (rest : Runs fit h more k) :
    Runs fit g (calls ++ more) k := by
  induction run with
  | nil => exact rest
  | cons order _ ih => exact .cons order (ih rest)

theorem foldl_essential (g : RiskGateway) (calls : List Call) :
    (essential calls).foldl (serve fit) g = calls.foldl (serve fit) g := by
  induction calls generalizing g with
  | nil => rfl
  | cons call calls ih =>
    cases call with
    | reserveHotPathCapacity => exact ih g
    | _ => exact ih _

theorem each_essential (g : RiskGateway) (calls : List Call) :
    Each (serve fit) CallSettled g (essential calls) ↔ Each (serve fit) CallSettled g calls := by
  induction calls generalizing g with
  | nil => exact Iff.rfl
  | cons call calls ih =>
    cases call with
    | reserveHotPathCapacity => exact (ih g).trans (and_iff_right trivial).symm
    | _ => exact and_congr_right (fun _ => ih _)

theorem auditDetermined_of_settled (wraps : ∀ a b, fit (fit a + b) = fit (a + b))
    {start : RiskGateway} (settled : Each (serve fit) CallSettled start calls) :
    AuditDetermined fit start calls := by
  intro front within first second g h hfirst hsecond run run'
  have each : Each (serve fit) CallSettled start front := by
    rw [each_iff_fronts] at settled ⊢
    exact fun run call hr => settled run call (hr.trans within)
  have known : ∀ run k, essential run = essential front → Runs fit start run k →
      Reordered (front.foldl (serve fit) start) k := by
    intro run k same taken
    rw [← foldl_essential, ← same, foldl_essential]
    rw [← each_essential, ← same, each_essential] at each
    exact (Reordered.refl start).runs wraps each taken
  have left := (known first g hfirst run).recorder
  have right := (known second h hsecond run').recorder
  have same := left.trans right.symm
  exact ⟨by rw [same], by rw [same], by rw [same], by rw [same]⟩

end Runs

section Unsettled
variable {fit : Int → Int} {g : RiskGateway}

theorem recordAuditEntry_entries (r : AuditRecorder) (entry : RiskAuditEntry) :
    (r.recordAuditEntry entry).audit.entries = r.audit.entries ++ [entry] := by
  have logged : ∀ (s : AuditRecorder) checksum,
      (s.appendAuditLogEntry entry checksum).audit = s.audit := by
    intro s checksum
    unfold AuditRecorder.appendAuditLogEntry
    simp only
    split
    · rfl
    · rfl
  unfold AuditRecorder.recordAuditEntry
  simp only
  split
  · rw [logged]
    rfl
  · rfl

theorem recordAll_entries (record : Sigma (fun _ : Nat => WorkingOrder) → RiskAuditEntry)
    (orders : List (Sigma (fun _ : Nat => WorkingOrder))) (r : AuditRecorder) :
    (orders.foldl (fun r order => r.recordAuditEntry (record order)) r).audit.entries =
      r.audit.entries ++ orders.map record := by
  induction orders generalizing r with
  | nil => exact (List.append_nil _).symm
  | cons order orders ih =>
    rw [List.foldl_cons, ih, recordAuditEntry_entries, List.append_assoc]
    rfl

theorem exists_first {a : Sigma (fun _ : Nat => WorkingOrder)} (ha : a ∈ g.workingOrders.entries) :
    ∃ h, Reordered g h ∧ ∃ rest, h.workingOrders.entries = a :: rest := by
  obtain ⟨before, after, split⟩ := List.append_of_mem ha
  have perm : (a :: (before ++ after)).Perm g.workingOrders.entries := by
    rw [split]
    exact List.perm_middle.symm
  have keys := (List.perm_nodupKeys perm).mpr g.workingOrders.nodupKeys
  exact ⟨{ g with workingOrders := ⟨a :: (before ++ after), keys⟩ },
    { Reordered.refl g with orders := perm }, before ++ after, rfl⟩

theorem cancelAll_differs {timestampNs : Int} {reason : RejectReason} {checkName : Text}
    (on : g.recorder.recordAudit = true)
    (apart : ¬ CancelsAlike g timestampNs reason checkName) :
    ∃ h k, Reordered g h ∧ Reordered g k ∧
      (cancelAllWorkingOrders h timestampNs reason checkName).recorder.audit.entries ≠
        (cancelAllWorkingOrders k timestampNs reason checkName).recorder.audit.entries := by
  unfold CancelsAlike at apart
  push Not at apart
  obtain ⟨a, ha, b, hb, differ⟩ := apart
  obtain ⟨h, rh, rest, first⟩ := exists_first ha
  obtain ⟨k, rk, rest', first'⟩ := exists_first hb
  refine ⟨h, k, rh, rk, fun same => differ ?_⟩
  have written : ∀ x : RiskGateway, Reordered g x →
      (cancelAllWorkingOrders x timestampNs reason checkName).recorder.audit.entries =
        g.recorder.audit.entries ++
          x.workingOrders.entries.map (cancelEntry timestampNs reason checkName) := by
    intro x rx
    rw [← rx.recorder] at on ⊢
    rw [← recordAll_entries]
    unfold cancelAllWorkingOrders
    simp only [if_pos on]
    rfl
  rw [written h rh, written k rk, first, first'] at same
  have tails := List.append_cancel_left same
  exact (List.cons.inj tails).1

theorem serve_differs {call : Call} (unsettled : ¬ CallSettled g call) :
    ∃ h k, Reordered g h ∧ Reordered g k ∧ ¬ SameAudit (serve fit h call) (serve fit k call) := by
  cases call with
  | operation operation =>
    cases operation with
    | enableKillSwitch timestampNs =>
      have unsettled : ¬ (g.recorder.recordAudit = true →
          CancelsAlike g timestampNs .killSwitch (text "kill_switch_cancel")) := unsettled
      push Not at unsettled
      obtain ⟨on, apart⟩ := unsettled
      obtain ⟨h, k, rh, rk, differ⟩ := cancelAll_differs on apart
      exact ⟨h, k, rh, rk, fun same => differ same.entries⟩
    | onDisconnect timestampNs =>
      have unsettled : ¬ (g.connected = true → g.limits.cancelOnDisconnect = true →
          g.recorder.recordAudit = true →
          CancelsAlike g timestampNs .disconnected (text "disconnect_cancel")) := unsettled
      push Not at unsettled
      obtain ⟨live, cancels, on, apart⟩ := unsettled
      obtain ⟨h, k, rh, rk, differ⟩ := cancelAll_differs on apart
      have serves : ∀ x : RiskGateway, Reordered g x →
          (serve fit x (.operation (.onDisconnect timestampNs))).recorder =
            (cancelAllWorkingOrders x timestampNs .disconnected
              (text "disconnect_cancel")).recorder := by
        intro x rx
        change (onDisconnect x timestampNs).recorder = _
        unfold onDisconnect
        rw [rx.connected, live, rx.limits]
        simp only [Bool.not_true, Bool.false_eq_true, if_false, cancels, if_true]
        rfl
      refine ⟨h, k, rh, rk, fun same => differ ?_⟩
      rw [← serves h rh, ← serves k rk]
      exact same.entries
    | _ => exact absurd trivial unsettled
  | _ => exact absurd trivial unsettled

end Unsettled

/-- The audit of a gateway is a function of the calls exactly as long as no kill switch and no
disconnect records the cancels of two working orders that can be told apart. -/
theorem auditDetermined_iff (limits : RiskLimits) (files : List (Text × Text)) (calls : List Call) :
    AuditDetermined wrap64 { limits, recorder := { files } } calls ↔
      Each (serve wrap64) CallSettled { limits, recorder := { files } } calls := by
  constructor
  · intro determined
    rw [each_iff_fronts]
    intro front call within
    by_contra unsettled
    obtain ⟨h, k, rh, rk, differ⟩ := @serve_differs wrap64 _ _ unsettled
    have plain : Runs wrap64 { limits, recorder := { files } } front _ := runs_foldl _ front
    exact differ (determined _ within _ _ _ _ rfl rfl (plain.append (.cons rh (.nil _)))
      (plain.append (.cons rk (.nil _))))
  · exact auditDetermined_of_settled wrap64_wraps

def reversed (g : RiskGateway) : RiskGateway :=
  { g with workingOrders := ⟨g.workingOrders.entries.reverse,
      (List.perm_nodupKeys (List.reverse_perm _)).mpr g.workingOrders.nodupKeys⟩ }

theorem reversed_reordered (g : RiskGateway) : Reordered g (reversed g) :=
  { Reordered.refl g with orders := List.reverse_perm _ }

/-- Two orders work when the kill switch is thrown. In one run capacity is reserved just before,
and the map is iterated the other way round from then on. -/
theorem audit_depends_on_order :
    let order : NewOrderRequest :=
      { clientOrderId := 5, symbolId := 1, side := .buy, priceTicks := 100, quantity := 10 }
    ¬ AuditDetermined wrap64 { limits := { maxOpenOrderQuantity := 100 }, recorder := { files := [] } }
      [.operation (.setAuditEnabled true), .operation (.onMarketData 1 100 0),
        .operation (.checkNewOrder order 0),
        .operation (.checkNewOrder { order with clientOrderId := 6 } 0),
        .operation (.enableKillSwitch 7)] := by
  intro order determined
  have start : ∀ front : List Call, Runs wrap64
      { limits := { maxOpenOrderQuantity := 100 }, recorder := { files := [] } } front
      (front.foldl (serve wrap64)
        { limits := { maxOpenOrderQuantity := 100 }, recorder := { files := [] } }) := runs_foldl _
  let front : List Call := [.operation (.setAuditEnabled true), .operation (.onMarketData 1 100 0),
    .operation (.checkNewOrder order 0),
    .operation (.checkNewOrder { order with clientOrderId := 6 } 0)]
  have same := determined _ (List.prefix_refl _)
    (front ++ [.operation (.enableKillSwitch 7)])
    (front ++ [.reserveHotPathCapacity 64 8 8, .operation (.enableKillSwitch 7)]) _ _ rfl rfl
    ((start front).append (.cons (.refl _) (.nil _)))
    ((start front).append (.cons (.refl _) (.cons (reversed_reordered _) (.nil _))))
  exact absurd same.checksum (by decide +kernel)

end RiskGateway
end Asterion
