import Asterion.Risk.GatewaySteps
import Asterion.Risk.RotatedLogs

/-! The audit of the gateway: every operation is a run of calls to its recorder, and what it
records is read back, so the log of a gateway whose trail was empty verifies. -/
namespace Asterion

open Lib AuditRecorder

def Legible (reason : RejectReason) (name : Text) : Prop :=
  reason.Readable ∧ ∀ b ∈ name, b ≠ newline ∧ b ∉ altered .jsonl ∧ b ∉ altered .text

instance (reason : RejectReason) (name : Text) : Decidable (Legible reason name) :=
  inferInstanceAs (Decidable (_ ∧ _))

theorem Legible.unaltered {reason : RejectReason} {name : Text} (h : Legible reason name)
    (format : RiskAuditLogFormat) : Unaltered format name := by
  intro b hb
  cases format with
  | jsonl => exact (h.2 b hb).2.1
  | text => exact (h.2 b hb).2.2

namespace AuditRecorder

theorem recordAuditEntry_kept (r : AuditRecorder) (entry : RiskAuditEntry) :
    (r.recordAuditEntry entry).recordAudit = r.recordAudit ∧
      (r.recordAuditEntry entry).audit = r.audit.record entry := by
  unfold recordAuditEntry
  dsimp only
  split
  · exact ⟨(appendAuditLogEntry_kept _ _).2.2, (appendAuditLogEntry_kept _ _).2.1⟩
  · exact ⟨rfl, rfl⟩

theorem foldl_record (entries : List RiskAuditEntry) (r : AuditRecorder) :
    (entries.map AuditCall.record).foldl serve r =
      if r.recordAudit then entries.foldl recordAuditEntry r else r := by
  induction entries generalizing r with
  | nil => exact (ite_self r).symm
  | cons entry entries ih =>
    rw [List.map_cons, List.foldl_cons, ih]
    cases on : r.recordAudit with
    | false => simp [serve, on]
    | true => simp [serve, on, (r.recordAuditEntry_kept entry).1]

theorem record_of_recorded {enabled : Bool} {calls : List AuditCall} {entry : RiskAuditEntry}
    (h : some entry ∈ recorded enabled calls) : AuditCall.record entry ∈ calls := by
  induction calls generalizing enabled with
  | nil => cases h
  | cons call calls ih =>
    cases call with
    | clearAudit =>
      have step : recorded enabled (.clearAudit :: calls) = none :: recorded enabled calls := by
        cases enabled <;> rfl
      rw [step] at h
      rcases List.mem_cons.mp h with h | h
      · cases h
      · exact List.mem_cons_of_mem _ (ih h)
    | setAuditEnabled on =>
      exact List.mem_cons_of_mem _ (@ih on (by cases enabled <;> exact h))
    | record other =>
      cases enabled with
      | false => exact List.mem_cons_of_mem _ (ih h)
      | true =>
        rcases List.mem_cons.mp h with h | h
        · rw [Option.some.inj h]
          exact List.mem_cons_self
        · exact List.mem_cons_of_mem _ (ih h)

theorem run_entries {calls : List AuditCall} (kept : AuditCall.clearAudit ∉ calls)
    (r : AuditRecorder) : (calls.foldl serve r).audit.entries =
      r.audit.entries ++ (recorded r.recordAudit calls).reduceOption := by
  induction calls generalizing r with
  | nil => exact (List.append_nil _).symm
  | cons call calls ih =>
    have rest := ih (fun h => kept (List.mem_cons_of_mem _ h)) (serve r call)
    rw [List.foldl_cons, rest]
    cases call with
    | clearAudit => exact absurd List.mem_cons_self kept
    | setAuditEnabled on => cases enabled : r.recordAudit <;> rfl
    | record entry =>
      cases enabled : r.recordAudit with
      | false => simp [serve, enabled, recorded]
      | true =>
        have same := r.recordAuditEntry_kept entry
        simp [serve, enabled, recorded, same.1, same.2, RiskAuditTrail.record,
          List.reduceOption_cons_of_some]

end AuditRecorder

namespace RiskGateway

section Checks
variable {fit : Int → Int} {g : RiskGateway}

def Notes (g : RiskGateway) (checked : RiskGateway × RiskResult) : Prop :=
  ∃ entry : RiskAuditEntry, Legible entry.rejectReason entry.checkName ∧
    checked.1.recorder = g.recorder.serve (.record entry)

theorem notes_decide {g' : RiskGateway} {nowNs : Int} {clientOrderId symbolId : Nat} {side : Side}
    {name : Text} {accepted : Bool} {reason : RejectReason} {limit observed : Int}
    (same : g'.recorder = g.recorder) (legible : Legible reason name) :
    Notes g (g'.decide nowNs clientOrderId symbolId side name accepted reason limit observed) := by
  refine ⟨entry nowNs clientOrderId symbolId side accepted reason name limit observed, legible, ?_⟩
  rw [← same]
  rfl

theorem notes_decideOn {g' : RiskGateway} {request : NewOrderRequest} {nowNs : Int} {name : Text}
    {accepted : Bool} {reason : RejectReason} {limit observed : Int}
    (same : g'.recorder = g.recorder) (legible : Legible reason name) :
    Notes g (g'.decideOn request nowNs name accepted reason limit observed) :=
  notes_decide same legible

theorem Notes.test {failed : Prop} [Decidable failed] {no yes : RiskGateway × RiskResult}
    (rejects : Notes g no) (goes_on : Notes g yes) : Notes g (if failed then no else yes) := by
  split
  · exact rejects
  · exact goes_on

theorem checkNewOrder_notes (request : NewOrderRequest) (nowNs : Int) :
    Notes g (checkNewOrder fit g request nowNs) := by
  obtain ⟨rates, limited⟩ := @rateLimitAllows_spec fit g request nowNs
  obtain ⟨⟨g', allowed, observed⟩, rated⟩ : ∃ r, rateLimitAllows fit g request nowNs = r :=
    ⟨_, rfl⟩
  rw [rated] at limited
  obtain rfl : g' = { g with rateStates := rates } := limited
  unfold checkNewOrder
  simp only [rated]
  refine .test (notes_decideOn rfl (by decide)) ?_
  refine .test (notes_decideOn rfl (by decide)) ?_
  refine .test (notes_decideOn rfl (by split <;> decide)) ?_
  refine .test (notes_decideOn rfl (by decide)) ?_
  refine .test (notes_decideOn rfl (by decide)) ?_
  refine .test (notes_decideOn rfl (by decide)) ?_
  refine .test (notes_decideOn rfl (by decide)) ?_
  split
  · exact notes_decideOn rfl (by decide)
  · refine .test (notes_decideOn rfl (by decide)) ?_
    refine .test (notes_decideOn rfl (by decide)) ?_
    refine .test (notes_decideOn rfl (by decide)) ?_
    refine .test (notes_decideOn rfl (by decide)) ?_
    refine .test (notes_decideOn rfl (by decide)) ?_
    refine .test (notes_decideOn rfl (by decide)) ?_
    refine .test (notes_decideOn rfl (by decide)) ?_
    refine notes_decideOn ?_ (by decide)
    split
    · exact registerWorkingOrder_rest.recorder
    · rfl

theorem checkReplacement_notes (clientOrderId : Nat) (existing : WorkingOrder)
    (request : ReplaceOrderRequest) (nowNs : Int) :
    Notes g (checkReplacement fit g clientOrderId existing request nowNs) := by
  obtain ⟨rates, limited⟩ := @rateLimitAllows_spec fit g (replacementFor existing request) nowNs
  obtain ⟨⟨g', allowed, observed⟩, rated⟩ :
      ∃ r, rateLimitAllows fit g (replacementFor existing request) nowNs = r := ⟨_, rfl⟩
  rw [rated] at limited
  obtain rfl : g' = { g with rateStates := rates } := limited
  unfold checkReplacement
  simp only [rated]
  refine .test (notes_decideOn rfl (by split <;> decide)) ?_
  refine .test (notes_decideOn rfl (by decide)) ?_
  split
  · exact notes_decideOn rfl (by decide)
  · refine .test (notes_decideOn rfl (by decide)) ?_
    refine .test (notes_decideOn rfl (by decide)) ?_
    refine .test (notes_decideOn rfl (by decide)) ?_
    refine .test (notes_decideOn rfl (by decide)) ?_
    refine .test (notes_decideOn rfl (by decide)) ?_
    refine .test (notes_decideOn rfl (by decide)) ?_
    refine .test (notes_decideOn rfl (by decide)) ?_
    exact notes_decideOn resizeOrder_rest.recorder (by decide)

theorem checkReplaceOrder_notes (request : ReplaceOrderRequest) (nowNs : Int) :
    Notes g (checkReplaceOrder fit g request nowNs) := by
  unfold checkReplaceOrder
  dsimp only
  refine .test (notes_decide rfl (by decide)) ?_
  refine .test (notes_decide rfl (by decide)) ?_
  refine .test (notes_decide rfl (by decide)) ?_
  refine .test (notes_decide rfl (by decide)) ?_
  refine .test (notes_decide rfl (by decide)) ?_
  split
  · exact notes_decide rfl (by decide)
  · split
    · exact notes_decide rfl (by decide)
    · exact checkReplacement_notes _ _ request nowNs

end Checks

section Runs
variable {fit : Int → Int} {g : RiskGateway}

/-- The recorder has served calls that record what is legible, and a clear only if asked to. -/
def Reports (clears : Prop) (before after : AuditRecorder) : Prop :=
  ∃ calls : List AuditCall,
    (∀ e, AuditCall.record e ∈ calls → Legible e.rejectReason e.checkName) ∧
    (¬ clears → AuditCall.clearAudit ∉ calls) ∧ after = calls.foldl AuditRecorder.serve before

theorem Reports.none {clears : Prop} {before after : AuditRecorder} (same : after = before) :
    Reports clears before after :=
  ⟨[], fun _ h => absurd h List.not_mem_nil, fun _ => List.not_mem_nil, same⟩

theorem Reports.trans {first second : Prop} {r s t : AuditRecorder} (h : Reports first r s)
    (h' : Reports second s t) : Reports (first ∨ second) r t := by
  obtain ⟨calls, legible, kept, rfl⟩ := h
  obtain ⟨more, legible', kept', rfl⟩ := h'
  refine ⟨calls ++ more, ?_, ?_, (List.foldl_append ..).symm⟩
  · intro e he
    exact (List.mem_append.mp he).elim (legible e) (legible' e)
  · intro quiet he
    rw [not_or] at quiet
    exact (List.mem_append.mp he).elim (kept quiet.1) (kept' quiet.2)

theorem Notes.reports {clears : Prop} {checked : RiskGateway × RiskResult} (h : Notes g checked) :
    Reports clears g.recorder checked.1.recorder := by
  obtain ⟨entry, legible, same⟩ := h
  refine ⟨[.record entry], ?_, fun _ h => by simp at h, same⟩
  intro e he
  cases List.mem_singleton.mp he
  exact legible

theorem cancelAll_reports {clears : Prop} (timestampNs : Int) {reason : RejectReason} {name : Text}
    (legible : Legible reason name) :
    Reports clears g.recorder (g.cancelAllWorkingOrders timestampNs reason name).recorder := by
  let note := fun order : Sigma fun _ : Nat => WorkingOrder => entry timestampNs order.1
    order.2.symbolId order.2.side false reason name 0 order.2.quantity
  refine ⟨(g.workingOrders.entries.map note).map .record, ?_, fun _ h => by simp at h, ?_⟩
  · intro e he
    simp only [List.map_map, List.mem_map, Function.comp, AuditCall.record.injEq] at he
    obtain ⟨order, -, rfl⟩ := he
    exact legible
  · rw [foldl_record, List.foldl_map]
    rfl

theorem perform_reports (operation : Operation) :
    Reports (operation = .clearAudit) g.recorder (perform fit g operation).1.recorder := by
  cases operation with
  | enableKillSwitch timestampNs =>
    exact @cancelAll_reports { g with killSwitch := true } _ timestampNs _ _ (by decide)
  | onDisconnect timestampNs =>
    show Reports _ g.recorder (onDisconnect g timestampNs).recorder
    unfold onDisconnect
    split
    · exact .none rfl
    · dsimp only
      split
      · exact @cancelAll_reports
          { g with connected := false, disconnectCount := g.disconnectCount + 1 } _ timestampNs _ _
          (by decide)
      · exact .none rfl
  | checkNewOrder request nowNs => exact (checkNewOrder_notes request nowNs).reports
  | checkReplaceOrder request nowNs => exact (checkReplaceOrder_notes request nowNs).reports
  | releaseOrder clientOrderId => exact .none releaseOrder_rest.recorder
  | onExecutionReport report => exact .none onExecutionReport_rest.recorder
  | setAuditEnabled enabled =>
    exact ⟨[.setAuditEnabled enabled], fun _ h => by simp at h, fun _ h => by simp at h, rfl⟩
  | clearAudit => exact ⟨[.clearAudit], fun _ h => by simp at h, fun quiet => absurd rfl quiet, rfl⟩
  | setLimits limits => exact .none rfl
  | disableKillSwitch => exact .none rfl
  | onReconnect => exact .none rfl
  | onMarketData symbolId price timestampNs => exact .none rfl
  | setPosition symbolId position => exact .none rfl

theorem after_reports (operations : List Operation) :
    Reports (.clearAudit ∈ operations) g.recorder (after fit g operations).recorder := by
  induction operations generalizing g with
  | nil => exact .none rfl
  | cons operation operations ih =>
    obtain ⟨calls, legible, kept, same⟩ :=
      (perform_reports operation).trans (@ih (perform fit g operation).1)
    refine ⟨calls, legible, fun quiet => kept ?_, same⟩
    rintro (first | later)
    · exact quiet (first ▸ List.mem_cons_self)
    · exact quiet (List.mem_cons_of_mem _ later)

/-- The log of a gateway that opens it with an empty trail verifies after any operations that do
not clear the audit, in either format and however it rotates. -/
theorem gateway_log_verifies (g : RiskGateway) (path : Text) (format : RiskAuditLogFormat)
    (maxRecords maxBytes : Nat) (operations : List Operation) (trail : g.recorder.audit = {})
    (fresh : ∀ i,
      g.recorder.read (rotatedAuditLogPath { g.recorder with basePath := path } i) = none)
    (kept : Operation.clearAudit ∉ operations) :
    let opened : RiskGateway := { g with
      recorder := g.recorder.openRotatingAuditLog path format maxRecords maxBytes }
    let recorder := (after wrap64 opened operations).recorder
    let result := verifyRiskAuditLogs recorder.read recorder.paths format
    result.valid = true ∧ result.entriesChecked = recorder.audit.size ∧
      result.finalChecksum = recorder.audit.checksum := by
  intro opened recorder result
  obtain ⟨calls, legible, quiet, same⟩ := @after_reports wrap64 opened operations
  have quiet := quiet kept
  have noted : ∀ e, some e ∈ recorded true calls → Legible e.rejectReason e.checkName :=
    fun e he => legible e (record_of_recorded he)
  have verdict := opened_verifies_iff g.recorder path format maxRecords maxBytes calls fresh
    (fun _ e he h => ((noted e he).2 newline h).1 rfl)
  have inStep := opened_inStep g.recorder format calls (by rw [trail]) quiet
    (fun e he => ⟨(noted e he).1, (noted e he).unaltered format⟩)
  have size : recorder.audit.size = (recorded true calls).reduceOption.length := by
    have entries := run_entries quiet opened.recorder
    rw [← same] at entries
    have before : opened.recorder.audit.entries = [] := congrArg RiskAuditTrail.entries trail
    rw [before] at entries
    exact congrArg List.length entries
  have verified := verdict.mpr inStep
  rw [size]
  dsimp only [result, recorder]
  rw [same]
  exact verified

/-- A check, the kill switch and another check, in a file each. -/
theorem gateway_log_verifies_kill_switch :
    let opened : RiskGateway :=
      { recorder := openRotatingAuditLog {} (text "risk.jsonl") .jsonl 1 0 }
    let operations : List Operation :=
      [.checkNewOrder { clientOrderId := 1, symbolId := 1, side := .buy, quantity := 5 } 10,
        .enableKillSwitch 20, .checkNewOrder { clientOrderId := 2, symbolId := 1 } 30]
    let recorder := (after wrap64 opened operations).recorder
    let result := verifyRiskAuditLogs recorder.read recorder.paths .jsonl
    result.valid = true ∧ result.entriesChecked = recorder.audit.size ∧
      result.finalChecksum = recorder.audit.checksum :=
  gateway_log_verifies {} (text "risk.jsonl") .jsonl 1 0 _ rfl (fun _ => rfl) (by simp)

end Runs
end RiskGateway
end Asterion
