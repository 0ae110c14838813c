import Asterion.Session.BrokerSession
import Asterion.Lib.Along

/-! The log of a session is complete: whoever folds it knows the connection, the orders and every
counter. -/
namespace Asterion
open Lib Lib.Tally Lib.Along

/-- What a reader of the log knows. -/
structure SessionReplica where
  state : SessionConnectionState := .disconnected
  connectCount : Nat := 0
  disconnectCount : Nat := 0
  reconnectCount : Nat := 0
  filledOrderCount : Nat := 0
  canceledOrderCount : Nat := 0
  cancelRejectCount : Nat := 0
  orders : AList (fun _ : Nat => OrderRecord) := ∅
  eventCount : Nat := 0
  eventChecksum : UInt64 := fnvOffsetBasis

namespace SessionReplica

/-- The order that an event is about, in the state the event puts it in. -/
def recordOf (event : BrokerSessionEvent) (state : BrokerOrderState) : OrderRecord :=
  { clientOrderId := event.clientOrderId
    symbolId := event.symbolId
    side := event.side
    quantity := event.quantity
    state }

def apply (r : SessionReplica) (event : BrokerSessionEvent) : SessionReplica :=
  let r := { r with
    eventCount := r.eventCount + 1
    eventChecksum := event.appendToChecksum r.eventChecksum }
  let known (state : BrokerOrderState) : AList (fun _ : Nat => OrderRecord) :=
    r.orders.insert event.exchangeOrderId (recordOf event state)
  match event.type with
  | .connect => { r with state := .connected, connectCount := r.connectCount + 1 }
  | .disconnect => { r with state := .disconnected, disconnectCount := r.disconnectCount + 1 }
  | .reconnect => { r with state := .connected, reconnectCount := r.reconnectCount + 1 }
  | .orderAccepted => { r with orders := known .accepted }
  | .cancelRequested => { r with orders := known .pendingCancel }
  | .cancelAcknowledged =>
    { r with orders := known .canceled, canceledOrderCount := r.canceledOrderCount + 1 }
  | .cancelRejected =>
    { r with orders := known .accepted, cancelRejectCount := r.cancelRejectCount + 1 }
  | .orderFilled => { r with orders := known .filled, filledOrderCount := r.filledOrderCount + 1 }

def replay (events : List BrokerSessionEvent) : SessionReplica := events.foldl apply {}

def snapshot (r : SessionReplica) : BrokerSessionSnapshot :=
  { connectionState := r.state
    connectCount := r.connectCount
    disconnectCount := r.disconnectCount
    reconnectCount := r.reconnectCount
    liveOrderCount := r.orders.entries.countP (fun e => e.2.state.isLive)
    pendingCancelCount := r.orders.entries.countP (fun e => e.2.state == .pendingCancel)
    filledOrderCount := r.filledOrderCount
    canceledOrderCount := r.canceledOrderCount
    cancelRejectCount := r.cancelRejectCount
    eventCount := r.eventCount
    eventChecksum := r.eventChecksum }

end SessionReplica

namespace SimulatedBrokerSession

def replica (s : SimulatedBrokerSession) : SessionReplica :=
  { state := s.state
    connectCount := s.connectCount
    disconnectCount := s.disconnectCount
    reconnectCount := s.reconnectCount
    filledOrderCount := s.filledOrderCount
    canceledOrderCount := s.canceledOrderCount
    cancelRejectCount := s.cancelRejectCount
    orders := s.orders
    eventCount := s.events.length
    eventChecksum := s.eventChecksum }

/-- The session has moved on by events that tell the whole change, orders that are done have stayed
as they are, and the two counters of done orders have grown with these. -/
structure Advances (s s' : SimulatedBrokerSession) : Prop where
  logged : ∃ events, s'.events = s.events ++ events ∧
    s'.replica = events.foldl SessionReplica.apply s.replica
  absorbs : ∀ id record, s.orders.lookup id = some record → record.state.isLive = false →
    s'.orders.lookup id = some record
  filled : s'.filledOrderCount + s.countOrders (· == .filled) =
    s.filledOrderCount + s'.countOrders (· == .filled)
  canceled : s'.canceledOrderCount + s.countOrders (· == .canceled) =
    s.canceledOrderCount + s'.countOrders (· == .canceled)

theorem Advances.refl (s : SimulatedBrokerSession) : Advances s s :=
  ⟨⟨[], (List.append_nil _).symm, rfl⟩, fun _ _ h _ => h, rfl, rfl⟩

theorem Advances.trans {s t u : SimulatedBrokerSession} (first : Advances s t)
    (second : Advances t u) : Advances s u := by
  obtain ⟨events, log, view⟩ := first.logged
  obtain ⟨more, log', view'⟩ := second.logged
  have filled := first.filled
  have filled' := second.filled
  have canceled := first.canceled
  have canceled' := second.canceled
  refine ⟨⟨events ++ more, ?_, ?_⟩, fun id record known done => ?_, by omega, by omega⟩
  · rw [log', log, List.append_assoc]
  · rw [view', view, List.foldl_append]
  · exact second.absorbs id record (first.absorbs id record known done) done

section Steps
variable {s t : SimulatedBrokerSession} {id : Nat} {record : OrderRecord} {timestampNs : Int}

theorem replica_recordEvent (t : SimulatedBrokerSession) (event : BrokerSessionEvent) :
    (t.recordEvent event).replica =
      { t.replica with
        eventCount := t.replica.eventCount + 1
        eventChecksum := event.appendToChecksum t.replica.eventChecksum } := by
  simp only [replica, recordEvent, List.length_append, List.length_cons, List.length_nil]

/-- Recording an event that tells how the session changed without touching its orders. -/
theorem advances_recordEvent {event : BrokerSessionEvent} (events : t.events = s.events)
    (orders : t.orders = s.orders) (filled : t.filledOrderCount = s.filledOrderCount)
    (canceled : t.canceledOrderCount = s.canceledOrderCount)
    (tells : (t.recordEvent event).replica = s.replica.apply event) :
    Advances s (t.recordEvent event) := by
  refine ⟨⟨[event], ?_, tells⟩, fun id record known _ => ?_, ?_, ?_⟩
  · rw [recordEvent, events]
  · rw [← known, ← orders]
    rfl
  · simp only [recordEvent, countOrders, orders, filled]
  · simp only [recordEvent, countOrders, orders, canceled]

theorem not_done_of_live {state : BrokerOrderState} (live : state.isLive = true) :
    (state == .filled) = false ∧ (state == .canceled) = false := by
  cases state <;> first | exact ⟨rfl, rfl⟩ | cases live

/-- A live order is put into another state, and the counter of that state grows. -/
theorem advances_move {next : BrokerOrderState} {type : BrokerEventType}
    (known : s.orders.lookup id = some record) (live : record.state.isLive = true)
    (events : t.events = s.events) (orders : t.orders = s.orders)
    (filled : t.filledOrderCount = s.filledOrderCount + if next == .filled then 1 else 0)
    (canceled : t.canceledOrderCount = s.canceledOrderCount + if next == .canceled then 1 else 0)
    (tells : (t.move id record next type timestampNs).replica =
      s.replica.apply (orderEvent timestampNs type id record)) :
    Advances s (t.move id record next type timestampNs) := by
  have count := fun kind : BrokerOrderState → Bool =>
    countP_insert (fun r : OrderRecord => kind r.state) known { record with state := next }
  refine ⟨⟨[orderEvent timestampNs type id record], ?_, tells⟩, fun i other here done => ?_, ?_, ?_⟩
  · rw [move, recordEvent, events]
  · have apart : i ≠ id := by
      rintro rfl
      obtain rfl := Option.some.inj (known.symm.trans here)
      exact absurd live (ne_true_of_eq_false done)
    rw [← here, ← orders]
    exact AList.lookup_insert_ne apart
  · have one := count (· == .filled)
    simp only [(not_done_of_live live).1, Bool.false_eq_true, if_false] at one
    simp only [move, recordEvent, countOrders, orders, filled]
    omega
  · have one := count (· == .canceled)
    simp only [(not_done_of_live live).2, Bool.false_eq_true, if_false] at one
    simp only [move, recordEvent, countOrders, orders, canceled]
    omega

/-- A transition is refused, or it moves a known order whose state allows it. -/
theorem transition_cases (s : SimulatedBrokerSession) (allowed : BrokerOrderState → Bool)
    (next : BrokerOrderState) (type : BrokerEventType)
    (count : SimulatedBrokerSession → SimulatedBrokerSession) (id : Nat) (timestampNs : Int) :
    s.transition allowed next type count id timestampNs = (s, false) ∨
      ∃ record, s.orders.lookup id = some record ∧ allowed record.state = true ∧
        s.transition allowed next type count id timestampNs =
          ((count s).move id record next type timestampNs, true) := by
  unfold transition
  cases known : s.orders.lookup id with
  | none => exact Or.inl rfl
  | some record =>
    cases can : allowed record.state with
    | false =>
      left
      simp only [can, Bool.not_false, if_true]
    | true =>
      right
      refine ⟨record, rfl, can, ?_⟩
      simp only [can, Bool.not_true, Bool.false_eq_true, if_false]

/-- A transition out of live states, whose counter is that of the state it leads to. -/
theorem advances_transition {allowed : BrokerOrderState → Bool} {next : BrokerOrderState}
    {type : BrokerEventType} {count : SimulatedBrokerSession → SimulatedBrokerSession}
    (live : ∀ record, s.orders.lookup id = some record → allowed record.state = true →
      record.state.isLive = true)
    (events : (count s).events = s.events) (orders : (count s).orders = s.orders)
    (filled : (count s).filledOrderCount = s.filledOrderCount + if next == .filled then 1 else 0)
    (canceled : (count s).canceledOrderCount =
      s.canceledOrderCount + if next == .canceled then 1 else 0)
    (tells : ∀ record, ((count s).move id record next type timestampNs).replica =
      s.replica.apply (orderEvent timestampNs type id record)) :
    Advances s (s.transition allowed next type count id timestampNs).1 := by
  rcases transition_cases s allowed next type count id timestampNs with
    refused | ⟨record, known, can, moved⟩
  · rw [refused]
    exact Advances.refl s
  · rw [moved]
    exact advances_move known (live record known can) events orders filled canceled (tells record)

theorem pendingCancel_isLive {state : BrokerOrderState} (h : (state == .pendingCancel) = true) :
    state.isLive = true := by
  cases state <;> first | rfl | cases h

theorem accepted_isLive {state : BrokerOrderState} (h : (state == .accepted) = true) :
    state.isLive = true := by
  cases state <;> first | rfl | cases h

def IsLive (s : SimulatedBrokerSession) (id : Nat) : Prop :=
  ∃ record, s.orders.lookup id = some record ∧ record.state.isLive = true

theorem mem_liveIds : id ∈ s.liveIds ↔ s.IsLive id := by
  unfold liveIds IsLive
  rw [List.mem_insertionSort, List.mem_map]
  constructor
  · rintro ⟨e, he, rfl⟩
    obtain ⟨entry, live⟩ := List.mem_filter.mp he
    exact ⟨e.2, AList.mem_lookup_iff.mpr entry, live⟩
  · rintro ⟨record, known, live⟩
    exact ⟨⟨id, record⟩, List.mem_filter.mpr ⟨AList.mem_lookup_iff.mp known, live⟩, rfl⟩

theorem requestOnDisconnect_isLive {other : Nat} (live : s.IsLive other) :
    (requestOnDisconnect timestampNs s id).IsLive other := by
  unfold requestOnDisconnect
  rcases transition_cases s (· != .pendingCancel) .pendingCancel .cancelRequested (fun s => s) id
      timestampNs with refused | ⟨record, known, can, moved⟩
  · rw [refused]
    exact live
  · rw [moved]
    obtain ⟨known', here, alive⟩ := live
    rcases eq_or_ne other id with rfl | apart
    · exact ⟨_, AList.lookup_insert _, rfl⟩
    · exact ⟨known', (AList.lookup_insert_ne apart).trans here, alive⟩

theorem advances_requests {ids : List Nat} (live : ∀ id ∈ ids, s.IsLive id) :
    Advances s (ids.foldl (requestOnDisconnect timestampNs) s) := by
  induction ids generalizing s with
  | nil => exact Advances.refl s
  | cons id ids ih =>
    have one : Advances s (requestOnDisconnect timestampNs s id) := by
      apply advances_transition
      · intro record known _
        obtain ⟨here, same, alive⟩ := live id List.mem_cons_self
        obtain rfl := Option.some.inj (known.symm.trans same)
        exact alive
      · rfl
      · rfl
      · rfl
      · rfl
      · exact fun _ => replica_recordEvent _ _
    apply one.trans
    apply ih
    exact fun other h => requestOnDisconnect_isLive (live other (List.mem_cons_of_mem _ h))

theorem advances_connect : Advances s (s.connect timestampNs) := by
  unfold connect
  split
  · exact Advances.refl s
  · exact advances_recordEvent rfl rfl rfl rfl (replica_recordEvent _ _)

theorem advances_reconnect : Advances s (s.reconnect timestampNs) := by
  unfold reconnect
  split
  · exact Advances.refl s
  · have noted : Advances s (recordEvent
        { s with state := .connected, reconnectCount := s.reconnectCount + 1 }
        { timestampNs, type := .reconnect }) :=
      advances_recordEvent rfl rfl rfl rfl (replica_recordEvent _ _)
    exact ⟨noted.logged, noted.absorbs, noted.filled, noted.canceled⟩

theorem advances_disconnect : Advances s (s.disconnect timestampNs) := by
  unfold disconnect
  split
  · exact Advances.refl s
  · have noted : Advances s (recordEvent
        { s with state := .disconnected, disconnectCount := s.disconnectCount + 1 }
        { timestampNs, type := .disconnect }) :=
      advances_recordEvent rfl rfl rfl rfl (replica_recordEvent _ _)
    generalize recordEvent _ _ = t at noted ⊢
    have requested : Advances s (if t.cancelOnDisconnect = true then
        t.liveIds.foldl (requestOnDisconnect timestampNs) t else t) := by
      split
      · exact noted.trans (advances_requests (fun id h => mem_liveIds.mp h))
      · exact noted
    exact ⟨requested.logged, requested.absorbs, requested.filled, requested.canceled⟩

theorem advances_onOrderAccepted {clientOrderId symbolId : Nat} {side : Side} {quantity : Int} :
    Advances s (s.onOrderAccepted id clientOrderId symbolId side quantity timestampNs).1 := by
  unfold onOrderAccepted
  split
  · exact Advances.refl s
  split
  · exact Advances.refl s
  rename_i unknown
  have absent : s.orders.lookup id = none := by
    cases h : s.orders.lookup id with
    | none => rfl
    | some record => exact absurd (by rw [h]; rfl) unknown
  have count := fun kind : BrokerOrderState → Bool => fun record : OrderRecord =>
    countP_insert_new (fun r : OrderRecord => kind r.state) absent record
  refine ⟨⟨[_], rfl, replica_recordEvent _ _⟩, fun other record known _ => ?_, ?_, ?_⟩
  · have apart : other ≠ id := by
      rintro rfl
      rw [absent] at known
      cases known
    exact (AList.lookup_insert_ne apart).trans known
  · have one := count (· == .filled) ⟨clientOrderId, symbolId, side, quantity, .accepted⟩
    simp only [move, recordEvent, countOrders]
    exact congrArg _ one.symm
  · have one := count (· == .canceled) ⟨clientOrderId, symbolId, side, quantity, .accepted⟩
    simp only [move, recordEvent, countOrders]
    exact congrArg _ one.symm

theorem advances_step (s : SimulatedBrokerSession) (operation : SessionOperation) :
    Advances s (s.step operation) := by
  cases operation with
  | setCancelOnDisconnect enabled =>
    exact ⟨⟨[], (List.append_nil _).symm, rfl⟩, fun _ _ h _ => h, rfl, rfl⟩
  | connect timestampNs => exact advances_connect
  | disconnect timestampNs => exact advances_disconnect
  | reconnect timestampNs => exact advances_reconnect
  | onOrderAccepted exchangeOrderId clientOrderId symbolId side quantity timestampNs =>
    exact advances_onOrderAccepted
  | requestCancel exchangeOrderId timestampNs =>
    change Advances s (s.requestCancel exchangeOrderId timestampNs).1
    unfold requestCancel
    exact advances_transition (fun _ _ can => accepted_isLive can) rfl rfl rfl rfl
      (fun _ => replica_recordEvent _ _)
  | acknowledgeCancel exchangeOrderId timestampNs =>
    change Advances s (s.acknowledgeCancel exchangeOrderId timestampNs).1
    unfold acknowledgeCancel
    exact advances_transition (fun _ _ can => pendingCancel_isLive can) rfl rfl rfl rfl
      (fun _ => replica_recordEvent _ _)
  | rejectCancel exchangeOrderId timestampNs =>
    change Advances s (s.rejectCancel exchangeOrderId timestampNs).1
    unfold rejectCancel
    exact advances_transition (fun _ _ can => pendingCancel_isLive can) rfl rfl rfl rfl
      (fun _ => replica_recordEvent _ _)
  | onOrderFilled exchangeOrderId timestampNs =>
    change Advances s (s.onOrderFilled exchangeOrderId timestampNs).1
    unfold onOrderFilled
    exact advances_transition (fun _ _ can => can) rfl rfl rfl rfl
      (fun _ => replica_recordEvent _ _)

end Steps

/-- The log tells everything, and the counters agree with the orders. -/
structure Complete (s : SimulatedBrokerSession) : Prop where
  orders : ∀ id, (SessionReplica.replay s.events).orders.lookup id = s.orders.lookup id
  snapshot : (SessionReplica.replay s.events).snapshot = s.snapshot
  checksum : s.eventChecksum = checksumBrokerSessionEvents s.events
  known : s.orders.entries.length =
    s.liveOrderCount + s.snapshot.filledOrderCount + s.snapshot.canceledOrderCount
  pending : s.pendingCancelCount ≤ s.liveOrderCount

/-- The operation leaves orders that are done as they are; it changes nothing where it returns false,
and where it asks for the connection state the session is in. -/
structure Lawful (s : SimulatedBrokerSession) (operation : SessionOperation) : Prop where
  absorbing : ∀ id record, s.orders.lookup id = some record →
    record.state = .filled ∨ record.state = .canceled →
      (s.step operation).orders.lookup id = some record
  refused : (s.perform operation).2 = some false → s.step operation = s
  connected : ∀ timestampNs,
    operation = .connect timestampNs ∨ operation = .reconnect timestampNs →
      s.state = .connected → s.step operation = s
  disconnected : ∀ timestampNs, operation = .disconnect timestampNs →
    s.state = .disconnected → s.step operation = s

theorem checksum_replayed (events : List BrokerSessionEvent) (r : SessionReplica) :
    (events.foldl SessionReplica.apply r).eventChecksum =
      events.foldl BrokerSessionEvent.appendToChecksum r.eventChecksum := by
  induction events generalizing r with
  | nil => rfl
  | cons event events ih =>
    have one : (r.apply event).eventChecksum = event.appendToChecksum r.eventChecksum := by
      unfold SessionReplica.apply
      cases event.type <;> rfl
    rw [List.foldl_cons, ih, one]
    rfl

theorem length_by_state (records : List (Sigma (fun _ : Nat => OrderRecord))) :
    records.length = records.countP (fun e => e.2.state.isLive) +
      records.countP (fun e => e.2.state == .filled) +
      records.countP (fun e => e.2.state == .canceled) := by
  induction records with
  | nil => rfl
  | cons e records ih =>
    simp only [List.length_cons, List.countP_cons, ih]
    cases e.2.state with
    | accepted => simp [BrokerOrderState.isLive]; omega
    | pendingCancel => simp [BrokerOrderState.isLive]; omega
    | canceled => simp [BrokerOrderState.isLive]; omega
    | filled => simp [BrokerOrderState.isLive]; omega

theorem Advances.complete {gateway : Option RiskGateway} {cancelOnDisconnect : Bool}
    {s : SimulatedBrokerSession} (h : Advances { gateway, cancelOnDisconnect } s) : Complete s := by
  obtain ⟨events, log, view⟩ := h.logged
  obtain rfl : s.events = events := log
  have told : SessionReplica.replay s.events = s.replica := view.symm
  have filled : s.filledOrderCount = s.countOrders (· == .filled) := by
    have := h.filled
    simp only [countOrders, AList.empty_entries, List.countP_nil] at this ⊢
    omega
  have canceled : s.canceledOrderCount = s.countOrders (· == .canceled) := by
    have := h.canceled
    simp only [countOrders, AList.empty_entries, List.countP_nil] at this ⊢
    omega
  refine ⟨fun id => by rw [told]; rfl, by rw [told]; rfl, ?_, ?_, ?_⟩
  · have same : s.replica.eventChecksum = _ := congrArg SessionReplica.eventChecksum told.symm
    exact same.trans (checksum_replayed s.events {})
  · change _ = s.liveOrderCount + s.filledOrderCount + s.canceledOrderCount
    rw [filled, canceled]
    exact length_by_state s.orders.entries
  · apply List.countP_mono_left
    intro e _ pending
    exact pendingCancel_isLive pending

theorem transition_refused {s : SimulatedBrokerSession} {allowed : BrokerOrderState → Bool}
    {next : BrokerOrderState} {type : BrokerEventType}
    {count : SimulatedBrokerSession → SimulatedBrokerSession} {id : Nat} {timestampNs : Int}
    (h : (s.transition allowed next type count id timestampNs).2 = false) :
    (s.transition allowed next type count id timestampNs).1 = s := by
  rcases transition_cases s allowed next type count id timestampNs with
    refused | ⟨record, -, -, moved⟩
  · rw [refused]
  · rw [moved] at h
    cases h

theorem lawful_step (s : SimulatedBrokerSession) (operation : SessionOperation) :
    Lawful s operation := by
  refine ⟨fun id record known done => ?_, fun refused => ?_, ?_, ?_⟩
  · apply (advances_step s operation).absorbs id record known
    rcases done with done | done <;> rw [done] <;> rfl
  · cases operation with
    | setCancelOnDisconnect enabled => cases refused
    | connect timestampNs => cases refused
    | disconnect timestampNs => cases refused
    | reconnect timestampNs => cases refused
    | onOrderAccepted exchangeOrderId clientOrderId symbolId side quantity timestampNs =>
      have h : (s.onOrderAccepted exchangeOrderId clientOrderId symbolId side quantity
        timestampNs).2 = false := Option.some.inj refused
      change (s.onOrderAccepted exchangeOrderId clientOrderId symbolId side quantity timestampNs).1 = s
      unfold onOrderAccepted at h ⊢
      split
      · rfl
      · rename_i accepts
        rw [if_neg accepts] at h
        split
        · rfl
        · rename_i unknown
          rw [if_neg unknown] at h
          cases h
    | requestCancel exchangeOrderId timestampNs =>
      have h : (s.requestCancel exchangeOrderId timestampNs).2 = false := Option.some.inj refused
      exact transition_refused h
    | acknowledgeCancel exchangeOrderId timestampNs =>
      have h : (s.acknowledgeCancel exchangeOrderId timestampNs).2 = false := Option.some.inj refused
      exact transition_refused h
    | rejectCancel exchangeOrderId timestampNs =>
      have h : (s.rejectCancel exchangeOrderId timestampNs).2 = false := Option.some.inj refused
      exact transition_refused h
    | onOrderFilled exchangeOrderId timestampNs =>
      have h : (s.onOrderFilled exchangeOrderId timestampNs).2 = false := Option.some.inj refused
      exact transition_refused h
  · rintro timestampNs (rfl | rfl) here
    · exact if_pos here
    · exact if_pos here
  · rintro timestampNs rfl here
    exact if_pos here

/-- In every run the log stays complete, and every operation is lawful. -/
theorem session_log_complete (gateway : Option RiskGateway) (cancelOnDisconnect : Bool)
    (operations : List SessionOperation) :
    Always step Complete { gateway, cancelOnDisconnect } operations ∧
      Each step Lawful { gateway, cancelOnDisconnect } operations := by
  have advances : Always step (Advances { gateway, cancelOnDisconnect })
      { gateway, cancelOnDisconnect } operations := by
    apply Along.always
    · exact fun s operation h => h.trans (advances_step s operation)
    · exact Advances.refl _
  exact ⟨advances.imp (fun _ h => h.complete),
    each_of_always (fun s operation _ => lawful_step s operation) advances⟩

end SimulatedBrokerSession

end Asterion
