import Asterion.Risk.AuditLines
import Asterion.Risk.AuditChain

/-! An audit log that is written and verified again. The verifier accepts it where every entry
is read back as it was recorded; its table of reject reasons and its treatment of check names are
where that can fail. -/
namespace Asterion
open Lib Lib.JsonLine RiskAuditVerification

def RiskAuditEntry.line (entry : RiskAuditEntry) (logged : UInt64) : RiskAuditLogFormat → Text
  | .jsonl => object (entry.jsonFields logged)
  | .text => entry.textLine logged

/-- Records the entries in a fresh trail and logs each with the checksum after it. -/
def writeAuditLog (format : RiskAuditLogFormat) (entries : List RiskAuditEntry) :
    RiskAuditTrail × Text :=
  entries.foldl (fun written entry =>
    let trail := written.1.record entry
    (trail, written.2 ++ formatRiskAuditLogEntry entry trail.checksum format)) ({}, [])

def loggedLines (format : RiskAuditLogFormat) : UInt64 → List RiskAuditEntry → List Text
  | _, [] => []
  | seed, entry :: entries =>
    let logged := entry.appendToChecksum seed
    entry.line logged format :: loggedLines format logged entries

/-- Two running checksums, of the reader and of the trail: each entry as the reader hears it has
the checksum that is logged with it, and at the end the two agree. -/
def Echoes (format : RiskAuditLogFormat) : UInt64 → UInt64 → List RiskAuditEntry → Prop
  | read, trail, [] => read = trail
  | read, trail, entry :: entries =>
    ∃ heard : RiskAuditEntry,
      entry.heard (entry.appendToChecksum trail) format =
        some (heard, heard.appendToChecksum read) ∧
      Echoes format (heard.appendToChecksum read) (entry.appendToChecksum trail) entries

/-- Names that the format carries through leave nothing to the checksums. -/
theorem echoes_unaltered {format : RiskAuditLogFormat} {entries : List RiskAuditEntry}
    (h : ∀ e ∈ entries, Unaltered format e.checkName) (seed : UInt64) :
    Echoes format seed seed entries := by
  induction entries generalizing seed with
  | nil => rfl
  | cons entry entries ih =>
    have first := heard_unaltered (h entry List.mem_cons_self) (entry.appendToChecksum seed)
    exact ⟨entry, first, ih (fun e he => h e (List.mem_cons_of_mem _ he)) _⟩

section Line
variable {entry : RiskAuditEntry} {format : RiskAuditLogFormat}

theorem format_line (logged : UInt64) :
    formatRiskAuditLogEntry entry logged format = entry.line logged format ++ [newline] := by
  cases format with
  | text => exact format_text entry logged
  | jsonl => exact format_jsonl entry logged

theorem parse_line (logged : UInt64) :
    parseAuditEntryLine (entry.line logged format) format =
      if entry.rejectReason.Readable then entry.heard logged format else none := by
  cases format with
  | text => exact parse_text entry logged
  | jsonl => exact parse_jsonl entry logged

theorem line_ne_nil (logged : UInt64) : entry.line logged format ≠ [] := by
  cases format with
  | text =>
    rw [RiskAuditEntry.line, RiskAuditEntry.textLine]
    exact List.append_ne_nil_of_right_ne_nil _ (List.cons_ne_nil _ _)
  | jsonl => exact List.cons_ne_nil _ _

theorem newline_not_mem_line (h : format = .text → newline ∉ entry.checkName) (logged : UInt64) :
    newline ∉ entry.line logged format := by
  have digit : Decimal.isDigit newline = false := by decide
  have sign : newline ≠ Decimal.minus := by decide
  have keys : ∀ key ∈ [text "timestamp_ns", text "client_order_id", text "symbol_id", text "side",
      text "accepted", text "reject_reason", text "check_name", text "limit_value",
      text "observed_value", text "checksum"], newline ∉ key := by decide
  have int := fun x : Int64 => Decimal.not_mem_integer digit sign x.toInt
  have nat := fun x : Nat => Decimal.not_mem_decimal digit x
  have side : newline ∉ entry.side.toString := by cases entry.side <;> decide
  have flag : newline ∉ boolToText entry.accepted := by cases entry.accepted <;> decide
  have reason : newline ∉ entry.rejectReason.toString := by
    cases entry.rejectReason <;> decide
  simp only [List.forall_mem_cons] at keys
  obtain ⟨k₁, k₂, k₃, k₄, k₅, k₆, k₇, k₈, k₉, k₁₀, -⟩ := keys
  cases format with
  | text =>
    have sp : newline ≠ space := by decide
    have eq : newline ≠ equalsSign := by decide
    simp only [RiskAuditEntry.line, RiskAuditEntry.textLine, RiskAuditEntry.leading,
      RiskAuditEntry.trailing, List.map_cons, List.map_nil, Search.word,
      List.intercalate_cons_cons, List.intercalate_singleton, List.mem_append, List.mem_cons,
      List.not_mem_nil, or_false, not_or]
    exact ⟨⟨⟨⟨k₁, eq, int _⟩, sp⟩, ⟨⟨k₂, eq, nat _⟩, sp⟩, ⟨⟨k₃, eq, nat _⟩, sp⟩,
      ⟨⟨k₄, eq, side⟩, sp⟩, ⟨⟨k₅, eq, flag⟩, sp⟩, k₆, eq, reason⟩, sp, ⟨k₇, eq, h rfl⟩, sp,
      ⟨⟨k₈, eq, int _⟩, sp⟩, ⟨⟨k₉, eq, int _⟩, sp⟩, k₁₀, eq, nat _⟩
  | jsonl =>
    apply not_mem_object (by decide)
    simp only [RiskAuditEntry.jsonFields, List.forall_mem_cons, Value.read, escape_side,
      escape_reason]
    exact ⟨⟨k₁, int _⟩, ⟨k₂, nat _⟩, ⟨k₃, nat _⟩, ⟨k₄, side⟩, ⟨k₅, flag⟩, ⟨k₆, reason⟩,
      ⟨k₇, not_mem_escape (Or.inl rfl) _⟩, ⟨k₈, int _⟩, ⟨k₉, int _⟩, ⟨k₁₀, nat _⟩,
      List.forall_mem_nil _⟩

end Line

section Log
variable {format : RiskAuditLogFormat} {entries : List RiskAuditEntry}

theorem writeAuditLog_eq : (writeAuditLog format entries).2 =
      (loggedLines format fnvOffsetBasis entries).flatMap (· ++ [newline]) ∧
    (writeAuditLog format entries).1.checksum = checksumRiskAudit entries := by
  have fold : ∀ (entries : List RiskAuditEntry) (trail : RiskAuditTrail) (log : Text),
      let written := entries.foldl (fun written entry =>
        let trail := written.1.record entry
        (trail, written.2 ++ formatRiskAuditLogEntry entry trail.checksum format)) (trail, log)
      written.2 = log ++ (loggedLines format trail.checksum entries).flatMap (· ++ [newline]) ∧
        written.1.checksum = entries.foldl RiskAuditEntry.appendToChecksum trail.checksum := by
    intro entries
    induction entries with
    | nil => exact fun trail log => ⟨(List.append_nil log).symm, rfl⟩
    | cons entry entries ih =>
      intro trail log
      obtain ⟨text, checksum⟩ := ih (trail.record entry)
        (log ++ formatRiskAuditLogEntry entry (trail.record entry).checksum format)
      refine ⟨text.trans ?_, checksum⟩
      rw [format_line, List.append_assoc]
      rfl
  exact fold entries {} []

theorem newline_not_mem_logged (lines : ∀ e ∈ entries, newline ∉ e.checkName) (seed : UInt64) :
    ∀ line ∈ loggedLines format seed entries, newline ∉ line := by
  induction entries generalizing seed with
  | nil => exact fun _ h => absurd h List.not_mem_nil
  | cons entry entries ih =>
    intro line hl
    rcases List.mem_cons.mp hl with rfl | hl
    · exact newline_not_mem_line (fun _ => lines entry List.mem_cons_self) _
    · exact ih (fun e he => lines e (List.mem_cons_of_mem _ he)) _ line hl

/-- The chain over the logged lines ends in the trail's checksum exactly where every entry is
read and heard with the checksum that is logged. -/
theorem auditChain_logged (read seed : UInt64) :
    auditChain format read (loggedLines format seed entries) =
        some (entries.foldl RiskAuditEntry.appendToChecksum seed) ↔
      (∀ e ∈ entries, e.rejectReason.Readable) ∧ Echoes format read seed entries := by
  induction entries generalizing read seed with
  | nil => exact ⟨fun h => ⟨List.forall_mem_nil _, Option.some.inj h⟩, fun h => congrArg some h.2⟩
  | cons entry entries ih =>
    obtain ⟨logged, hl⟩ : ∃ logged, entry.appendToChecksum seed = logged := ⟨_, rfl⟩
    simp only [loggedLines, Echoes, hl, auditChain, parse_line, List.foldl_cons,
      List.forall_mem_cons]
    by_cases readable : entry.rejectReason.Readable
    · rw [if_pos readable]
      cases heard : entry.heard logged format with
      | none => simp
      | some found =>
        obtain ⟨h, c⟩ := found
        dsimp only
        constructor
        · intro chain
          split at chain
          · rename_i same
            obtain ⟨readables, echoes⟩ := (ih c logged).mp chain
            exact ⟨⟨readable, readables⟩, h, by rw [same], by rw [same]; exact echoes⟩
          · cases chain
        · rintro ⟨⟨-, readables⟩, h', found, echoes⟩
          obtain ⟨rfl, rfl⟩ := Prod.mk.inj (Option.some.inj found)
          rw [if_pos rfl]
          exact (ih _ logged).mpr ⟨readables, echoes⟩
    · rw [if_neg readable]
      constructor
      · intro h
        cases h
      · intro h
        exact absurd h.1.1 readable

theorem logged_ne_nil (seed : UInt64) : ∀ line ∈ loggedLines format seed entries, line ≠ [] := by
  induction entries generalizing seed with
  | nil => exact fun _ h => absurd h List.not_mem_nil
  | cons entry entries ih =>
    intro line hl
    rcases List.mem_cons.mp hl with rfl | hl
    · exact line_ne_nil _
    · exact ih _ line hl

theorem loggedLines_length (seed : UInt64) :
    (loggedLines format seed entries).length = entries.length := by
  induction entries generalizing seed with
  | nil => rfl
  | cons entry entries ih => exact congrArg (· + 1) (ih _)

end Log

def holding (path contents : Text) : Text → Option Text :=
  fun p => if p = path then some contents else none

/-- The log of the entries verifies: every entry is counted and the checksum is the trail's. -/
def RoundTrips (path : Text) (format : RiskAuditLogFormat) (entries : List RiskAuditEntry) :
    Prop :=
  let written := writeAuditLog format entries
  let result := verifyRiskAuditLogs (holding path written.2) [path] format
  result.valid = true ∧ result.entriesChecked = entries.length ∧
    result.finalChecksum = written.1.checksum

/-- The log verifies exactly where the reader knows every reject reason and what it hears of the
check names has the checksums of the trail, as it has where they are heard unaltered. -/
theorem audit_round_trip_iff (path : Text) (format : RiskAuditLogFormat)
    (entries : List RiskAuditEntry) (lines : ∀ e ∈ entries, newline ∉ e.checkName) :
    (RoundTrips path format entries ↔
      (∀ e ∈ entries, e.rejectReason.Readable) ∧
        Echoes format fnvOffsetBasis fnvOffsetBasis entries) ∧
    ((∀ e ∈ entries, Unaltered format e.checkName) →
      Echoes format fnvOffsetBasis fnvOffsetBasis entries) := by
  refine ⟨?_, fun h => echoes_unaltered h fnvOffsetBasis⟩
  obtain ⟨log, checksum⟩ := @writeAuditLog_eq format entries
  have plain : ∀ line ∈ loggedLines format fnvOffsetBasis entries, newline ∉ line :=
    newline_not_mem_logged lines fnvOffsetBasis
  have read : auditLines (writeAuditLog format entries).2 =
      loggedLines format fnvOffsetBasis entries := by
    rw [auditLines, log, Search.splitOn_blocks plain, List.filter_append, List.filter_eq_self.mpr]
    · exact List.append_nil _
    · exact fun line hl => decide_eq_true (logged_ne_nil fnvOffsetBasis line hl)
  have count : auditEntryCount (holding path (writeAuditLog format entries).2) [path] =
      entries.length := by
    simp only [auditEntryCount, holding, List.map_cons, List.map_nil, List.sum_cons, List.sum_nil,
      if_true, Option.elim, read, loggedLines_length, Nat.add_zero]
  have chain : auditChainOf (holding path (writeAuditLog format entries).2) format fnvOffsetBasis
      [path] = auditChain format fnvOffsetBasis (loggedLines format fnvOffsetBasis entries) := by
    simp only [auditChainOf, holding, if_true, read]
    cases auditChain format fnvOffsetBasis (loggedLines format fnvOffsetBasis entries) <;> rfl
  rw [← auditChain_logged]
  dsimp only [RoundTrips]
  rw [checksum, checksumRiskAudit]
  cases final : auditChain format fnvOffsetBasis (loggedLines format fnvOffsetBasis entries) with
  | none =>
    rw [final] at chain
    constructor
    · intro h
      exact absurd chain ((verify_valid_iff [path]).mp h.1)
    · intro h
      cases h
  | some c =>
    rw [verify_of_chain (chain.trans final), count]
    simp only [true_and, Option.some.injEq]

theorem audit_round_trip_kill_switch :
    let entry : RiskAuditEntry :=
      { rejectReason := .killSwitch, checkName := text "kill_switch", limitValue := -9 }
    RoundTrips (text "risk.log") .text [entry] :=
  (audit_round_trip_iff _ _ _ (by decide)).1.mpr
    ⟨by decide, (audit_round_trip_iff (text "risk.log") .text _ (by decide)).2
      (by unfold Unaltered; decide)⟩

/-- A reason the reader has no name for, a quote in JSON form and a space in text form. -/
theorem audit_round_trip_fails :
    ¬ RoundTrips (text "risk.jsonl") .jsonl [{ rejectReason := .postOnlyWouldCross }] ∧
    ¬ RoundTrips (text "risk.jsonl") .jsonl [{ checkName := text "max \"notional\"" }] ∧
    ¬ RoundTrips (text "risk.log") .text [{ checkName := text "max notional" }] := by
  unfold RoundTrips
  decide +kernel

end Asterion
