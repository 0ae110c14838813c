import Asterion.Risk.Switches
import Asterion.Session.BrokerSession

/-! A session and the gateway attached to it. A connect does not notify the gateway, so a session that
comes back from a disconnect by a connect leaves the gateway disconnected. -/
namespace Asterion
open Lib Lib.Along

namespace SimulatedBrokerSession

/-- Operations of the gateway that leave its connectivity to the session. -/
def LeavesConnectivity : RiskGateway.Operation → Prop
  | .onDisconnect _ => False
  | .onReconnect => False
  | _ => True

/-- A call on the session, or on the gateway attached to it. -/
inductive Call where
  | session (operation : SessionOperation)
  | gateway (operation : RiskGateway.Operation) (leaves : LeavesConnectivity operation)

def call (fit : Int → Int) (s : SimulatedBrokerSession) : Call → SimulatedBrokerSession
  | .session operation => s.step operation
  | .gateway operation _ =>
    { s with gateway := s.gateway.map (fun gateway => (RiskGateway.perform fit gateway operation).1) }

/-- The session and its gateway are both connected, or both disconnected. -/
def Agrees (s : SimulatedBrokerSession) : Prop :=
  ∃ gateway, s.gateway = some gateway ∧ (s.state = .connected ↔ gateway.connected = true)

/-- A session that has been disconnected does not come back by a connect. -/
def ComesBackByReconnect (s : SimulatedBrokerSession) (c : Call) : Prop :=
  ∀ timestampNs, c = .session (.connect timestampNs) → s.state = .disconnected →
    s.disconnectCount = 0

def connects (s : SimulatedBrokerSession) : Nat := s.connectCount + s.reconnectCount

/-- Where the session and its gateway stand, after how many disconnects and connects. A gateway that
is connected while the session is not has never been told anything. -/
def Standing (state : SessionConnectionState) (gatewayConnected : Bool)
    (disconnects connects : Nat) : Prop :=
  match state, gatewayConnected with
  | .disconnected, true => disconnects = 0 ∧ connects = 0
  | .connected, true => 0 < connects
  | _, false => 0 < disconnects ∧ 0 < connects

/-- The session has an attached gateway, and the two stand in one of these ways. -/
def Attached (s : SimulatedBrokerSession) : Prop :=
  ∃ gateway, s.gateway = some gateway ∧
    Standing s.state gateway.connected s.disconnectCount s.connects

/-- The gateway does not know that the session is connected. -/
def Behind (s : SimulatedBrokerSession) : Prop :=
  ∃ gateway, s.gateway = some gateway ∧ s.state = .connected ∧ gateway.connected = false

section Frame
variable {s : SimulatedBrokerSession}

/-- The connection and what is counted of it are the same. -/
structure SameConnection (s s' : SimulatedBrokerSession) : Prop where
  state : s'.state = s.state
  gateway : s'.gateway = s.gateway
  disconnects : s'.disconnectCount = s.disconnectCount
  connects : s'.connectCount = s.connectCount
  reconnects : s'.reconnectCount = s.reconnectCount

theorem sameConnection_transition {allowed : BrokerOrderState → Bool} {next : BrokerOrderState}
    {type : BrokerEventType} {count : SimulatedBrokerSession → SimulatedBrokerSession}
    (counts : SameConnection s (count s)) (id : Nat) (timestampNs : Int) :
    SameConnection s (s.transition allowed next type count id timestampNs).1 := by
  unfold transition
  split
  · exact ⟨rfl, rfl, rfl, rfl, rfl⟩
  split
  · exact ⟨rfl, rfl, rfl, rfl, rfl⟩
  · exact ⟨counts.1, counts.2, counts.3, counts.4, counts.5⟩

theorem sameConnection_requests (timestampNs : Int) (ids : List Nat) :
    SameConnection s (ids.foldl (requestOnDisconnect timestampNs) s) := by
  induction ids generalizing s with
  | nil => exact ⟨rfl, rfl, rfl, rfl, rfl⟩
  | cons id ids ih =>
    have one : SameConnection s (requestOnDisconnect timestampNs s id) :=
      sameConnection_transition ⟨rfl, rfl, rfl, rfl, rfl⟩ id timestampNs
    have rest := @ih (requestOnDisconnect timestampNs s id)
    exact ⟨rest.1.trans one.1, rest.2.trans one.2, rest.3.trans one.3, rest.4.trans one.4,
      rest.5.trans one.5⟩

theorem disconnect_connected (here : s.state = .connected) (timestampNs : Int) :
    (s.disconnect timestampNs).state = .disconnected ∧
      (s.disconnect timestampNs).disconnectCount = s.disconnectCount + 1 ∧
      (s.disconnect timestampNs).gateway =
        s.gateway.map (fun gateway => gateway.onDisconnect timestampNs) ∧
      (s.disconnect timestampNs).connectCount = s.connectCount ∧
      (s.disconnect timestampNs).reconnectCount = s.reconnectCount := by
  unfold disconnect
  rw [if_neg (by rw [here]; decide)]
  dsimp only
  split
  · have same := @sameConnection_requests (recordEvent
      { s with state := .disconnected, disconnectCount := s.disconnectCount + 1 }
      { timestampNs, type := .disconnect }) timestampNs
    exact ⟨(same _).1, (same _).3, congrArg _ (same _).2, (same _).4, (same _).5⟩
  · exact ⟨rfl, rfl, rfl, rfl, rfl⟩

theorem onDisconnect_connected (gateway : RiskGateway) (timestampNs : Int) :
    (gateway.onDisconnect timestampNs).connected = false := by
  unfold RiskGateway.onDisconnect
  split
  · rename_i away
    simpa using away
  · dsimp only
    split
    · rfl
    · rfl

theorem perform_connected (fit : Int → Int) (gateway : RiskGateway)
    (operation : RiskGateway.Operation) (leaves : LeavesConnectivity operation) :
    (RiskGateway.perform fit gateway operation).1.connected = gateway.connected := by
  cases operation with
  | setLimits limits => rfl
  | enableKillSwitch timestampNs => rfl
  | disableKillSwitch => rfl
  | onDisconnect timestampNs => cases leaves
  | onReconnect => cases leaves
  | onMarketData symbolId price timestampNs => rfl
  | setPosition symbolId position => rfl
  | checkNewOrder request nowNs => exact RiskGateway.checkNewOrder_switches.connected
  | checkReplaceOrder request nowNs => exact RiskGateway.checkReplaceOrder_switches.connected
  | releaseOrder clientOrderId => exact RiskGateway.releaseOrder_rest.connected
  | onExecutionReport report => exact RiskGateway.onExecutionReport_rest.connected
  | setAuditEnabled enabled => rfl
  | clearAudit => rfl

theorem sameConnection_step {operation : SessionOperation}
    (connect : ∀ timestampNs, operation ≠ .connect timestampNs)
    (disconnect : ∀ timestampNs, operation ≠ .disconnect timestampNs)
    (reconnect : ∀ timestampNs, operation ≠ .reconnect timestampNs) :
    SameConnection s (s.step operation) := by
  cases operation with
  | setCancelOnDisconnect enabled => exact ⟨rfl, rfl, rfl, rfl, rfl⟩
  | connect timestampNs => exact absurd rfl (connect timestampNs)
  | disconnect timestampNs => exact absurd rfl (disconnect timestampNs)
  | reconnect timestampNs => exact absurd rfl (reconnect timestampNs)
  | onOrderAccepted exchangeOrderId clientOrderId symbolId side quantity timestampNs =>
    change SameConnection s
      (s.onOrderAccepted exchangeOrderId clientOrderId symbolId side quantity timestampNs).1
    unfold onOrderAccepted
    split
    · exact ⟨rfl, rfl, rfl, rfl, rfl⟩
    split
    · exact ⟨rfl, rfl, rfl, rfl, rfl⟩
    · exact ⟨rfl, rfl, rfl, rfl, rfl⟩
  | requestCancel exchangeOrderId timestampNs =>
    change SameConnection s (s.requestCancel exchangeOrderId timestampNs).1
    unfold requestCancel
    apply sameConnection_transition
    exact ⟨rfl, rfl, rfl, rfl, rfl⟩
  | acknowledgeCancel exchangeOrderId timestampNs =>
    change SameConnection s (s.acknowledgeCancel exchangeOrderId timestampNs).1
    unfold acknowledgeCancel
    apply sameConnection_transition
    exact ⟨rfl, rfl, rfl, rfl, rfl⟩
  | rejectCancel exchangeOrderId timestampNs =>
    change SameConnection s (s.rejectCancel exchangeOrderId timestampNs).1
    unfold rejectCancel
    apply sameConnection_transition
    exact ⟨rfl, rfl, rfl, rfl, rfl⟩
  | onOrderFilled exchangeOrderId timestampNs =>
    change SameConnection s (s.onOrderFilled exchangeOrderId timestampNs).1
    unfold onOrderFilled
    apply sameConnection_transition
    exact ⟨rfl, rfl, rfl, rfl, rfl⟩

end Frame

section Calls
variable {fit : Int → Int} {s : SimulatedBrokerSession}

/-- What a call does to the connections of a session with this gateway. -/
inductive Turn (s : SimulatedBrokerSession) (before : Bool) (c : Call) (s' : SimulatedBrokerSession)
    (after : Bool) : Prop
  | same (state : s'.state = s.state) (gateway : after = before)
      (disconnects : s'.disconnectCount = s.disconnectCount) (connects : s'.connects = s.connects)
      (idle : ∀ timestampNs, c = .session (.connect timestampNs) → s.state = .connected)
  | connected (timestampNs : Int) (call : c = .session (.connect timestampNs))
      (was : s.state = .disconnected) (state : s'.state = .connected) (gateway : after = before)
      (disconnects : s'.disconnectCount = s.disconnectCount)
      (connects : s'.connects = s.connects + 1)
  | disconnected (call : ∀ timestampNs, c ≠ .session (.connect timestampNs))
      (was : s.state = .connected) (state : s'.state = .disconnected) (gateway : after = false)
      (disconnects : s'.disconnectCount = s.disconnectCount + 1)
      (connects : s'.connects = s.connects)
  | reconnected (call : ∀ timestampNs, c ≠ .session (.connect timestampNs))
      (was : s.state = .disconnected) (state : s'.state = .connected) (gateway : after = true)
      (disconnects : s'.disconnectCount = s.disconnectCount)
      (connects : s'.connects = s.connects + 1)

theorem eq_disconnected {state : SessionConnectionState} (h : ¬ state = .connected) :
    state = .disconnected := by
  cases state with
  | disconnected => rfl
  | connected => exact absurd rfl h

theorem SameConnection.turn {s' : SimulatedBrokerSession} (same : SameConnection s s')
    {gateway : RiskGateway} (attached : s.gateway = some gateway) {c : Call}
    (idle : ∀ timestampNs, c = .session (.connect timestampNs) → s.state = .connected) :
    ∃ gateway', s'.gateway = some gateway' ∧ Turn s gateway.connected c s' gateway'.connected := by
  refine ⟨gateway, same.gateway.trans attached, Turn.same same.state rfl same.disconnects ?_ idle⟩
  unfold SimulatedBrokerSession.connects
  rw [same.connects, same.reconnects]

theorem call_turn {gateway : RiskGateway} (attached : s.gateway = some gateway) (c : Call) :
    ∃ gateway', (s.call fit c).gateway = some gateway' ∧
      Turn s gateway.connected c (s.call fit c) gateway'.connected := by
  have quiet : SameConnection s s := ⟨rfl, rfl, rfl, rfl, rfl⟩
  cases c with
  | gateway operation leaves =>
    refine ⟨(RiskGateway.perform fit gateway operation).1, ?_, Turn.same rfl
      (perform_connected fit gateway operation leaves) rfl rfl (fun _ => nofun)⟩
    rw [call, attached]
    rfl
  | session operation =>
    cases operation with
    | connect timestampNs =>
      change ∃ gateway', (s.connect timestampNs).gateway = some gateway' ∧
        Turn s gateway.connected _ (s.connect timestampNs) gateway'.connected
      unfold connect
      split
      · exact quiet.turn attached (fun _ _ => ‹_›)
      · rename_i away
        refine ⟨gateway, attached, Turn.connected timestampNs rfl (eq_disconnected away) rfl rfl rfl ?_⟩
        simp only [connects, recordEvent]
        omega
    | disconnect timestampNs =>
      by_cases here : s.state = .connected
      · obtain ⟨state, disconnects, notified, first, second⟩ := disconnect_connected here timestampNs
        refine ⟨gateway.onDisconnect timestampNs, ?_, Turn.disconnected (fun _ => nofun) here state
          (onDisconnect_connected gateway timestampNs) disconnects ?_⟩
        · exact notified.trans (by rw [attached]; rfl)
        · change (s.disconnect timestampNs).connectCount + (s.disconnect timestampNs).reconnectCount = _
          rw [first, second]
          rfl
      · have idle : s.call fit (.session (.disconnect timestampNs)) = s :=
          if_pos (eq_disconnected here)
        rw [idle]
        exact quiet.turn attached (fun _ => nofun)
    | reconnect timestampNs =>
      change ∃ gateway', (s.reconnect timestampNs).gateway = some gateway' ∧
        Turn s gateway.connected _ (s.reconnect timestampNs) gateway'.connected
      unfold reconnect
      split
      · exact quiet.turn attached (fun _ => nofun)
      · rename_i away
        refine ⟨gateway.onReconnect, ?_,
          Turn.reconnected (fun _ => nofun) (eq_disconnected away) rfl rfl rfl ?_⟩
        · simp only [recordEvent, attached, Option.map_some]
        · simp only [connects, recordEvent]
          omega
    | _ =>
      apply (sameConnection_step _ _ _).turn attached
      · exact fun _ => nofun
      · exact fun _ => nofun
      · exact fun _ => nofun
      · exact fun _ => nofun

theorem Attached.after_call (attached : Attached s) (c : Call) : Attached (s.call fit c) := by
  obtain ⟨gateway, here, standing⟩ := attached
  obtain ⟨gateway', here', turn⟩ := @call_turn fit s gateway here c
  refine ⟨gateway', here', ?_⟩
  cases turn with
  | same state same disconnects connects idle =>
    rw [state, same, disconnects, connects]
    exact standing
  | connected timestampNs call was state same disconnects connects =>
    rw [state, same, disconnects, connects]
    rw [was] at standing
    cases known : gateway.connected with
    | true => exact Nat.succ_pos _
    | false =>
      rw [known] at standing
      exact ⟨standing.1, Nat.succ_pos _⟩
  | disconnected call was state gateway disconnects connects =>
    rw [state, gateway, disconnects, connects]
    rw [was] at standing
    refine ⟨Nat.succ_pos _, ?_⟩
    unfold Standing at standing
    split at standing
    · contradiction
    · exact standing
    · exact standing.2
  | reconnected call was state gateway disconnects connects =>
    rw [state, gateway, connects]
    exact Nat.succ_pos _

theorem Attached.behind (attached : Attached s) (c : Call) (level : ¬ Behind s) :
    Behind (s.call fit c) ↔ ¬ ComesBackByReconnect s c := by
  obtain ⟨gateway, here, standing⟩ := attached
  obtain ⟨gateway', here', turn⟩ := @call_turn fit s gateway here c
  have now : Behind (s.call fit c) ↔
      (s.call fit c).state = .connected ∧ gateway'.connected = false := by
    constructor
    · rintro ⟨g, same, state, lost⟩
      obtain rfl := Option.some.inj (here'.symm.trans same)
      exact ⟨state, lost⟩
    · exact fun h => ⟨gateway', here', h⟩
  have before : ¬ (s.state = .connected ∧ gateway.connected = false) :=
    fun h => level ⟨gateway, here, h⟩
  rw [now]
  cases turn with
  | same state same disconnects connects idle =>
    rw [state, same]
    refine ⟨fun h => absurd h before, fun late => absurd ?_ late⟩
    intro timestampNs isConnect away
    rw [idle timestampNs isConnect] at away
    cases away
  | connected timestampNs isConnect was state same disconnects connects =>
    rw [state, same]
    rw [was] at standing
    cases known : gateway.connected with
    | true =>
      rw [known] at standing
      refine ⟨fun h => ?_, fun late => absurd (fun _ _ _ => standing.1) late⟩
      cases h.2
    | false =>
      rw [known] at standing
      refine ⟨fun _ late => ?_, fun _ => ⟨rfl, rfl⟩⟩
      have none := late timestampNs isConnect was
      have some := standing.1
      omega
  | disconnected other was state gateway disconnects connects =>
    rw [state]
    refine ⟨fun h => ?_, fun late => absurd (fun t h => absurd h (other t)) late⟩
    cases h.1
  | reconnected other was state gateway disconnects connects =>
    rw [gateway]
    refine ⟨fun h => ?_, fun late => absurd (fun t h => absurd h (other t)) late⟩
    cases h.2

theorem Attached.connects_le (attached : Attached s) (c : Call) :
    s.connects ≤ (s.call fit c).connects := by
  obtain ⟨gateway, here, -⟩ := attached
  obtain ⟨gateway', -, turn⟩ := @call_turn fit s gateway here c
  cases turn with
  | same _ _ _ connects _ => exact le_of_eq connects.symm
  | connected _ _ _ _ _ _ connects => omega
  | disconnected _ _ _ _ _ connects => exact le_of_eq connects.symm
  | reconnected _ _ _ _ _ connects => omega

theorem Attached.connects_pos (attached : Attached s) (timestampNs : Int) :
    0 < (s.call fit (.session (.connect timestampNs))).connects := by
  obtain ⟨gateway, here, standing⟩ := attached
  obtain ⟨gateway', here', turn⟩ := @call_turn fit s gateway here (.session (.connect timestampNs))
  cases turn with
  | same state _ _ connects idle =>
    have up := idle timestampNs rfl
    rw [connects]
    rw [up] at standing
    unfold Standing at standing
    split at standing
    · contradiction
    · exact standing
    · exact standing.2
  | connected _ _ _ _ _ _ connects => omega
  | disconnected other => exact absurd rfl (other timestampNs)
  | reconnected other => exact absurd rfl (other timestampNs)

theorem Attached.connects_run (attached : Attached s) {run : List Call}
    (connected : (∃ timestampNs, .session (.connect timestampNs) ∈ run) ∨ 0 < s.connects) :
    0 < (run.foldl (call fit) s).connects := by
  induction run generalizing s with
  | nil =>
    rcases connected with ⟨_, none⟩ | already
    · cases none
    · exact already
  | cons c run ih =>
    apply ih (attached.after_call c)
    rcases connected with ⟨timestampNs, here⟩ | already
    · rcases List.mem_cons.mp here with rfl | later
      · exact Or.inr (attached.connects_pos timestampNs)
      · exact Or.inl ⟨timestampNs, later⟩
    · exact Or.inr (lt_of_lt_of_le already (attached.connects_le c))

/-- A session that has been connected agrees with its gateway unless that is behind. -/
theorem Attached.agrees_iff (attached : Attached s) (connected : 0 < s.connects) :
    Agrees s ↔ ¬ Behind s := by
  obtain ⟨gateway, here, standing⟩ := attached
  have agrees : Agrees s ↔ (s.state = .connected ↔ gateway.connected = true) := by
    constructor
    · rintro ⟨g, same, both⟩
      obtain rfl := Option.some.inj (here.symm.trans same)
      exact both
    · exact fun h => ⟨gateway, here, h⟩
  have behind : Behind s ↔ s.state = .connected ∧ gateway.connected = false := by
    constructor
    · rintro ⟨g, same, state, lost⟩
      obtain rfl := Option.some.inj (here.symm.trans same)
      exact ⟨state, lost⟩
    · exact fun h => ⟨gateway, here, h⟩
  rw [agrees, behind]
  cases state : s.state with
  | connected => simp
  | disconnected =>
    have told : gateway.connected = false := by
      cases known : gateway.connected with
      | false => rfl
      | true =>
        rw [state, known] at standing
        exact absurd standing.2 (by omega)
    simp [told]

end Calls

/-- A session and its gateway agree after every run that contains a connect exactly where no call of a
run is a connect that brings a session back from a disconnect. -/
theorem connectivity_agrees_iff (fit : Int → Int) (limits : RiskLimits) (cancelOnDisconnect : Bool)
    (calls : List Call) :
    (∀ run, run <+: calls → (∃ timestampNs, .session (.connect timestampNs) ∈ run) →
      Agrees (run.foldl (call fit) { gateway := some { limits }, cancelOnDisconnect })) ↔
    Each (call fit) ComesBackByReconnect { gateway := some { limits }, cancelOnDisconnect } calls := by
  have start : Attached { gateway := some { limits }, cancelOnDisconnect } :=
    ⟨{ limits }, rfl, rfl, rfl⟩
  have level : ¬ Behind { gateway := some { limits }, cancelOnDisconnect } := by
    rintro ⟨_, _, here, _⟩
    cases here
  generalize ({ gateway := some { limits }, cancelOnDisconnect } : SimulatedBrokerSession) = s
    at start level ⊢
  have attached : ∀ run : List Call, Attached (run.foldl (call fit) s) :=
    fun run => (always (fun _ c h => h.after_call c) start run).last
  have each : ∀ run, Always (call fit) (fun s => ¬ Behind s) s run ↔
      Each (call fit) ComesBackByReconnect s run := by
    intro run
    apply always_iff_each
    · exact fun s c (h : Attached s) _ _ => h.after_call c
    · intro s c h level
      rw [h.behind c level, not_not]
    · exact start
    · exact level
  rw [← each calls, always_iff_prefix]
  apply forall_congr'
  intro run
  apply forall_congr'
  intro hr
  by_cases connected : ∃ timestampNs, .session (.connect timestampNs) ∈ run
  · rw [(attached run).agrees_iff (start.connects_run (Or.inl connected))]
    exact ⟨fun h => h connected, fun h _ => h⟩
  · refine ⟨fun _ => ?_, fun _ h => absurd h connected⟩
    have quiet : Each (call fit) (fun _ c => ∀ timestampNs, c ≠ .session (.connect timestampNs)) s
        run := by
      apply each_of_forall
      rintro c hc timestampNs rfl
      exact connected ⟨timestampNs, hc⟩
    apply ((each run).mpr (quiet.imp _)).last
    exact fun _ c other timestampNs same => absurd same (other timestampNs)

theorem connectivity_disagrees : ¬ Agrees
    (([.session (.connect 1), .session (.disconnect 2), .session (.connect 3)] : List Call).foldl
      (call wrap64) { gateway := some {} }) := by
  rintro ⟨gateway, attached, both⟩
  obtain rfl := Option.some.inj attached
  exact absurd (both.mp rfl) (by decide)

end SimulatedBrokerSession

end Asterion
