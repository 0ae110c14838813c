import Asterion.Risk.RiskAudit

/-! What the verifier of audit logs checks, apart from its bookkeeping: every line that is not
empty holds an entry, and each logged checksum is the running one. -/
namespace Asterion
open Lib.StoppingLoop RiskAuditVerification

/-- The running checksum behind the lines, where each of them extends the chain. -/
def auditChain (format : RiskAuditLogFormat) : UInt64 → List Text → Option UInt64
  | seed, [] => some seed
  | seed, line :: lines =>
    match parseAuditEntryLine line format with
    | none => none
    | some (entry, logged) =>
      if entry.appendToChecksum seed = logged then auditChain format logged lines else none

def auditLines (contents : Text) : List Text := (contents.splitOn newline).filter (· ≠ [])

/-- The chain over files, none of which may be missing. -/
def auditChainOf (files : Text → Option Text) (format : RiskAuditLogFormat) :
    UInt64 → List Text → Option UInt64
  | seed, [] => some seed
  | seed, path :: paths =>
    match files path with
    | none => none
    | some contents =>
      match auditChain format seed (auditLines contents) with
      | none => none
      | some seed => auditChainOf files format seed paths

variable {files : Text → Option Text} {format : RiskAuditLogFormat}

theorem auditChain_malformed {line : Text} (h : parseAuditEntryLine line format = none)
    (seed : UInt64) (lines : List Text) : auditChain format seed (line :: lines) = none := by
  simp only [auditChain, h]

theorem auditChain_parsed {line : Text} {entry : RiskAuditEntry} {logged : UInt64}
    (h : parseAuditEntryLine line format = some (entry, logged)) (seed : UInt64)
    (lines : List Text) :
    auditChain format seed (line :: lines) =
      if entry.appendToChecksum seed = logged then auditChain format logged lines else none := by
  simp only [auditChain, h]

theorem auditChain_append (seed : UInt64) (lines more : List Text) :
    auditChain format seed (lines ++ more) =
      (auditChain format seed lines).bind (fun seed => auditChain format seed more) := by
  induction lines generalizing seed with
  | nil => rfl
  | cons line lines ih =>
    cases parsed : parseAuditEntryLine line format with
    | none =>
      rw [List.cons_append, auditChain_malformed parsed, auditChain_malformed parsed]
      rfl
    | some found =>
      rw [List.cons_append, auditChain_parsed parsed, auditChain_parsed parsed]
      split
      · exact ih _
      · rfl

section Lines
variable {path : Text}

section Check
variable {line : Text} {v : RiskAuditVerification} {n : Nat} (some : line ≠ [])
include some

theorem checkLine_malformed (parsed : parseAuditEntryLine line format = none) :
    (checkLine path format v (line, n)).2 = false ∧
      (checkLine path format v (line, n)).1.result.valid = false := by
  rw [checkLine, if_neg some]
  simp only [parsed]
  trivial

theorem checkLine_parsed {entry : RiskAuditEntry} {logged : UInt64}
    (parsed : parseAuditEntryLine line format = Option.some (entry, logged)) :
    if entry.appendToChecksum v.checksum = logged then
      checkLine path format v (line, n) =
        ({ result := { v.result with entriesChecked := v.result.entriesChecked + 1 }
           checksum := logged }, true)
    else
      (checkLine path format v (line, n)).2 = false ∧
        (checkLine path format v (line, n)).1.result.valid = false := by
  rw [checkLine, if_neg some]
  simp only [parsed]
  split
  · rename_i same
    rw [if_neg (not_not_intro same), same]
  · trivial

end Check

/-- A run over some lines stops at the first that breaks the chain, and is invalid then. -/
theorem loop_lines (v : RiskAuditVerification) (lines : List Text) (n : Nat) :
    match auditChain format v.checksum (lines.filter (· ≠ [])) with
    | some checksum => loop (checkLine path format) v (lines.zipIdx n) =
        ({ result := { v.result with
            entriesChecked := v.result.entriesChecked + (lines.filter (· ≠ [])).length }
           checksum }, true)
    | none => (loop (checkLine path format) v (lines.zipIdx n)).2 = false ∧
        (loop (checkLine path format) v (lines.zipIdx n)).1.result.valid = false := by
  induction lines generalizing v n with
  | nil => rfl
  | cons line lines ih =>
    rw [List.zipIdx_cons]
    by_cases empty : line = []
    · have on : checkLine path format v (line, n) = (v, true) := if_pos empty
      have flag : (checkLine path format v (line, n)).2 = true := by rw [on]
      rw [List.filter_cons_of_neg (by simpa using empty), loop_cons_on flag, on]
      exact ih v (n + 1)
    · rw [List.filter_cons_of_pos (by simpa using empty)]
      cases parsed : parseAuditEntryLine line format with
      | none =>
        have off := @checkLine_malformed format path line v n empty parsed
        rw [auditChain_malformed parsed, loop_cons_off off.1]
        exact off
      | some found =>
        obtain ⟨entry, logged⟩ := found
        have check := @checkLine_parsed format path line v n empty entry logged parsed
        rw [auditChain_parsed parsed]
        split at check
        · rename_i same
          have on : (checkLine path format v (line, n)).2 = true := by rw [check]
          have tail := ih
            { result := { v.result with entriesChecked := v.result.entriesChecked + 1 }
              checksum := logged } (n + 1)
          have count : v.result.entriesChecked + ((lines.filter (· ≠ [])).length + 1) =
              v.result.entriesChecked + 1 + (lines.filter (· ≠ [])).length := by omega
          rw [if_pos same, loop_cons_on on, check, List.length_cons, count]
          exact tail
        · rename_i other
          rw [if_neg other, loop_cons_off check.1]
          exact check

end Lines

def auditEntryCount (files : Text → Option Text) (paths : List Text) : Nat :=
  (paths.map (fun path => ((files path).elim [] auditLines).length)).sum

theorem loop_files (v : RiskAuditVerification) (paths : List Text) :
    match auditChainOf files format v.checksum paths with
    | some checksum => loop (checkFile files format) v paths =
        ({ result := { v.result with
            filesChecked := v.result.filesChecked + paths.length
            entriesChecked := v.result.entriesChecked + auditEntryCount files paths }
           checksum }, true)
    | none => (loop (checkFile files format) v paths).2 = false ∧
        (loop (checkFile files format) v paths).1.result.valid = false := by
  induction paths generalizing v with
  | nil => rfl
  | cons path paths ih =>
    rw [auditChainOf]
    cases hp : files path with
    | none =>
      have off : (checkFile files format v path).2 = false ∧
          (checkFile files format v path).1.result.valid = false := by
        rw [checkFile, hp]
        exact ⟨rfl, rfl⟩
      dsimp only
      rw [loop_cons_off off.1]
      exact off
    | some contents =>
      have run := @loop_lines format path
        { v with result := { v.result with filesChecked := v.result.filesChecked + 1 } }
        (contents.splitOn newline) 1
      have file : checkFile files format v path = loop (checkLine path format)
          { v with result := { v.result with filesChecked := v.result.filesChecked + 1 } }
          ((contents.splitOn newline).zipIdx 1) := by
        rw [checkFile, hp]
        rfl
      rw [← file] at run
      dsimp only
      cases chain : auditChain format v.checksum (auditLines contents) with
      | none =>
        have off : (checkFile files format v path).2 = false ∧
            (checkFile files format v path).1.result.valid = false := by
          rw [auditLines] at chain
          simpa only [chain] using run
        dsimp only
        rw [loop_cons_off off.1]
        exact off
      | some checksum =>
        have on : checkFile files format v path =
            ({ result := { v.result with
                filesChecked := v.result.filesChecked + 1
                entriesChecked := v.result.entriesChecked + (auditLines contents).length }
               checksum }, true) := by
          rw [auditLines] at chain
          rw [auditLines]
          simpa only [chain] using run
        have flag : (checkFile files format v path).2 = true := by rw [on]
        dsimp only
        rw [loop_cons_on flag, on]
        have tail := ih
          { result := { v.result with
              filesChecked := v.result.filesChecked + 1
              entriesChecked := v.result.entriesChecked + (auditLines contents).length }
            checksum }
        have count : auditEntryCount files (path :: paths) =
            (auditLines contents).length + auditEntryCount files paths := by
          simp only [auditEntryCount, List.map_cons, List.sum_cons, hp]
          rfl
        have paths_count : v.result.filesChecked + (paths.length + 1) =
            v.result.filesChecked + 1 + paths.length := by omega
        rw [count, List.length_cons, paths_count, ← Nat.add_assoc]
        exact tail

/-- The verifier accepts exactly the files over which the chain holds. -/
theorem verifyRiskAuditLogs_spec (paths : List Text) :
    match auditChainOf files format fnvOffsetBasis paths with
    | some checksum => verifyRiskAuditLogs files paths format =
        { filesChecked := paths.length
          entriesChecked := auditEntryCount files paths
          finalChecksum := checksum }
    | none => (verifyRiskAuditLogs files paths format).valid = false := by
  have run := @loop_files files format {} paths
  unfold verifyRiskAuditLogs
  cases chain : auditChainOf files format fnvOffsetBasis paths with
  | none =>
    have run : (loop (checkFile files format) {} paths).2 = false ∧
        (loop (checkFile files format) {} paths).1.result.valid = false := by
      simpa only [chain] using run
    obtain ⟨⟨v, on⟩, hv⟩ : ∃ p, loop (checkFile files format) {} paths = p := ⟨_, rfl⟩
    rw [hv] at run ⊢
    obtain rfl : on = false := run.1
    exact run.2
  | some checksum =>
    have run : loop (checkFile files format) {} paths =
        ({ result := { ({} : RiskAuditVerificationResult) with
            filesChecked := 0 + paths.length
            entriesChecked := 0 + auditEntryCount files paths }
           checksum }, true) := by
      simpa only [chain] using run
    rw [run]
    simp only [Nat.zero_add]

theorem verify_valid_iff (paths : List Text) :
    (verifyRiskAuditLogs files paths format).valid = true ↔
      auditChainOf files format fnvOffsetBasis paths ≠ none := by
  have spec := @verifyRiskAuditLogs_spec files format paths
  cases chain : auditChainOf files format fnvOffsetBasis paths with
  | none =>
    simp only [chain] at spec
    rw [spec]
    simp
  | some checksum =>
    simp only [chain] at spec
    rw [spec]
    simp

theorem verify_of_chain {paths : List Text} {checksum : UInt64}
    (chain : auditChainOf files format fnvOffsetBasis paths = some checksum) :
    verifyRiskAuditLogs files paths format =
      { filesChecked := paths.length
        entriesChecked := auditEntryCount files paths
        finalChecksum := checksum } := by
  have spec := @verifyRiskAuditLogs_spec files format paths
  simpa only [chain] using spec

end Asterion
