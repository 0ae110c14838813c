import Asterion.Risk.AuditRecorder
import Asterion.Risk.AuditRoundTrip

/-! The log files a recorder has open, whatever rotations split them: together they hold the lines
of the entries recorded since the log was opened, and the verifier reads them as one chain. -/
namespace Asterion

open Lib Lib.JsonLine

section Paths

theorem slash_not_mem_filename (path : Text) : 47 ∉ pathFilename path := by
  intro h
  have mem := List.mem_takeWhile_imp (List.mem_reverse.mp h)
  simp at mem

/-- Behind a front that is empty or ends in a slash, a name without one is the file's name. -/
theorem pathFilename_append {front name : Text} (ends : front = [] ∨ front.getLast? = some 47)
    (plain : 47 ∉ name) : pathFilename (front ++ name) = name := by
  have all : ∀ b ∈ name.reverse, (b != 47) = true := by
    intro b hb
    have other : b ≠ 47 := fun same => plain (same ▸ List.mem_reverse.mp hb)
    simpa using other
  unfold pathFilename
  rw [List.reverse_append, List.takeWhile_append_of_pos all]
  have stop : front.reverse.takeWhile (· != 47) = [] := by
    rcases ends with rfl | last
    · rfl
    · obtain ⟨rest, rfl⟩ := List.getLast?_eq_some_iff.mp last
      simp
  rw [stop, List.append_nil, List.reverse_reverse]

theorem splitExtension_append (name : Text) :
    (splitExtension name).1 ++ (splitExtension name).2 = name := by
  unfold splitExtension
  dsimp only
  split
  · exact List.append_nil name
  · generalize name.length - _ = cut
    obtain ⟨rest, whole⟩ := List.take_prefix cut name
    have behind : name.drop (name.take cut).length = rest :=
      (congrArg (List.drop (name.take cut).length) whole).symm.trans List.drop_left
    exact (congrArg (name.take cut ++ ·) behind).trans whole

end Paths

namespace AuditRecorder

section Rotation
variable (r : AuditRecorder)

def rotatedName (index : Nat) : Text :=
  if index = 0 then pathFilename r.basePath
  else
    (splitExtension (pathFilename r.basePath)).1 ++ text "." ++ Decimal.decimal index ++
      (splitExtension (pathFilename r.basePath)).2

theorem slash_not_mem_rotatedName (index : Nat) : 47 ∉ r.rotatedName index := by
  have parts : 47 ∉ (splitExtension (pathFilename r.basePath)).1 ++
      (splitExtension (pathFilename r.basePath)).2 := by
    rw [splitExtension_append]
    exact slash_not_mem_filename r.basePath
  have digits := Decimal.not_mem_decimal (show Decimal.isDigit 47 = false by decide) index
  have dot : 47 ∉ text "." := by decide
  unfold rotatedName
  split
  · exact slash_not_mem_filename r.basePath
  · simp only [List.mem_append, not_or] at parts ⊢
    exact ⟨⟨⟨parts.1, dot⟩, digits⟩, parts.2⟩

theorem pathFilename_rotated (index : Nat) :
    pathFilename (r.rotatedAuditLogPath index) = r.rotatedName index := by
  have plain := r.slash_not_mem_rotatedName index
  unfold rotatedName at plain ⊢
  unfold rotatedAuditLogPath
  split
  · rfl
  · rename_i later
    rw [if_neg later] at plain
    dsimp only
    split
    · exact pathFilename_append (Or.inl rfl) plain
    · split
      · rename_i last
        exact pathFilename_append (Or.inr last) plain
      · have slash : text "/" = [47] := by decide
        exact pathFilename_append (Or.inr (by rw [slash, List.getLast?_concat])) plain

theorem rotatedName_injective {i j : Nat} (same : r.rotatedName i = r.rotatedName j) : i = j := by
  have whole := congrArg List.length (splitExtension_append (pathFilename r.basePath))
  have lengths := congrArg List.length same
  have dot : (text ".").length = 1 := by decide
  unfold rotatedName at same lengths
  rw [List.length_append] at whole
  by_cases hi : i = 0
  · by_cases hj : j = 0
    · rw [hi, hj]
    · simp only [if_pos hi, if_neg hj, List.length_append, dot] at lengths
      omega
  · by_cases hj : j = 0
    · simp only [if_neg hi, if_pos hj, List.length_append, dot] at lengths
      omega
    · rw [if_neg hi, if_neg hj] at same
      exact Decimal.decimal_injective (List.append_cancel_left (List.append_cancel_right same))

/-- No rotation comes back to a file. -/
theorem rotated_injective {i j : Nat}
    (same : r.rotatedAuditLogPath i = r.rotatedAuditLogPath j) : i = j := by
  have names := congrArg pathFilename same
  rw [pathFilename_rotated, pathFilename_rotated] at names
  exact r.rotatedName_injective names

theorem read_append_same (path contents : Text) :
    (r.append path contents).read path = some ((r.read path).getD [] ++ contents) := by
  simp [read, append]

theorem read_append_other {path other : Text} (ne : other ≠ path) (contents : Text) :
    (r.append path contents).read other = r.read other := by
  have first : ¬ path = other := fun same => ne same.symm
  simp only [read, append, List.find?_cons, decide_eq_false first, List.find?_filter]
  congr 2
  funext file
  by_cases h : file.1 = other
  · simp [h, ne]
  · simp [h]

end Rotation

def fileText (lines : List Text) : Text := lines.flatMap (· ++ [newline])

/-- The log is open, and its files, one after the other, hold the lines of the blocks. -/
structure Logs (r : AuditRecorder) (blocks : List (List Text)) : Prop where
  isOpen : r.isOpen = true
  count : blocks.length = r.index + 1
  paths : r.paths = (List.range blocks.length).map r.rotatedAuditLogPath
  contents : ∀ i, r.read (r.rotatedAuditLogPath i) = blocks[i]?.map fileText

section Writing
variable {r : AuditRecorder} {blocks : List (List Text)}

theorem Logs.rotate (h : r.Logs blocks) : r.rotateAuditLog.Logs (blocks ++ [[]]) where
  isOpen := rfl
  count := by
    rw [List.length_append, h.count]
    rfl
  paths := by
    rw [List.length_append, List.length_singleton, List.range_succ, List.map_append, h.count]
    exact congrArg (· ++ [r.rotatedAuditLogPath (r.index + 1)]) (h.count ▸ h.paths)
  contents := by
    intro i
    show (r.append (r.rotatedAuditLogPath (r.index + 1)) []).read (r.rotatedAuditLogPath i) = _
    rw [← h.count]
    by_cases next : i = blocks.length
    · rw [next, read_append_same, h.contents]
      simp [fileText]
    · rw [read_append_other r (fun same => next (r.rotated_injective same)), h.contents]
      rcases Nat.lt_or_gt_of_ne next with low | high
      · rw [List.getElem?_append_left low]
      · rw [List.getElem?_eq_none (by omega), List.getElem?_eq_none (by simp; omega)]

theorem Logs.write {front : List (List Text)} {last : List Text}
    (h : r.Logs (front ++ [last])) (line : Text) (recordCount bytes : Nat) :
    Logs { r.append r.logPath (line ++ [newline]) with recordCount, bytes }
      (front ++ [last ++ [line]]) where
  isOpen := h.isOpen
  count := by
    have count := h.count
    rw [List.length_append] at count ⊢
    exact count
  paths := by
    have paths := h.paths
    rw [List.length_append] at paths ⊢
    exact paths
  contents := by
    have index : r.index = front.length := by
      have count := h.count
      rw [List.length_append, List.length_singleton] at count
      omega
    intro i
    show (r.append (r.rotatedAuditLogPath r.index) _).read (r.rotatedAuditLogPath i) = _
    rw [index]
    by_cases current : i = front.length
    · rw [current, read_append_same, h.contents]
      simp [fileText]
    · rw [read_append_other r (fun same => current (r.rotated_injective same)), h.contents]
      rcases Nat.lt_or_gt_of_ne current with low | high
      · rw [List.getElem?_append_left low, List.getElem?_append_left low]
      · rw [List.getElem?_eq_none (by simp; omega), List.getElem?_eq_none (by simp; omega)]

theorem Logs.appendEntry (h : r.Logs blocks) (entry : RiskAuditEntry) (logged : UInt64) :
    ∃ blocks', (r.appendAuditLogEntry entry logged).Logs blocks' ∧
      blocks'.flatten = blocks.flatten ++ [entry.line logged r.format] := by
  unfold appendAuditLogEntry
  dsimp only
  rw [format_line]
  split
  · exact ⟨_, h.rotate.write _ _ _, by simp⟩
  · obtain rfl | ⟨front, last, rfl⟩ := List.eq_nil_or_concat blocks
    · cases h.count
    · rw [List.concat_eq_append] at h
      exact ⟨_, h.write _ _ _, by simp⟩

end Writing

section Chains
variable {files : Text → Option Text} {format : RiskAuditLogFormat}

/-- A line as the verifier takes lines apart: neither empty nor broken. -/
def Whole (line : Text) : Prop := newline ∉ line ∧ line ≠ []

theorem auditLines_fileText {lines : List Text} (whole : ∀ line ∈ lines, Whole line) :
    auditLines (fileText lines) = lines := by
  rw [auditLines, fileText, Search.splitOn_blocks (fun line hl => (whole line hl).1),
    List.filter_append, List.filter_eq_self.mpr (fun line hl => decide_eq_true (whole line hl).2)]
  exact List.append_nil lines

/-- Over the files that hold the blocks the chain is the chain over all their lines. -/
theorem chain_files {paths : List Text} {blocks : List (List Text)}
    (held : List.Forall₂ (fun path lines => files path = some (fileText lines)) paths blocks)
    (whole : ∀ line ∈ blocks.flatten, Whole line) (seed : UInt64) :
    auditChainOf files format seed paths = auditChain format seed blocks.flatten ∧
      auditEntryCount files paths = blocks.flatten.length := by
  induction held generalizing seed with
  | nil => exact ⟨rfl, rfl⟩
  | cons first _ ih =>
    rename_i path lines paths blocks _
    rw [List.flatten_cons] at whole ⊢
    have own := auditLines_fileText (fun line hl => whole line (List.mem_append_left _ hl))
    have rest := ih (fun line hl => whole line (List.mem_append_right _ hl))
    constructor
    · rw [auditChainOf, first, auditChain_append]
      dsimp only
      rw [own]
      cases auditChain format seed lines with
      | none => rfl
      | some seed => exact (rest seed).1
    · rw [List.length_append, ← (rest seed).2]
      simp only [auditEntryCount, List.map_cons, List.sum_cons, first, Option.elim, own]

theorem Logs.held {r : AuditRecorder} {blocks : List (List Text)} (h : r.Logs blocks) :
    List.Forall₂ (fun path lines => r.read path = some (fileText lines)) r.paths blocks := by
  rw [List.forall₂_iff_get, h.paths]
  refine ⟨by simp, fun i _ hi => ?_⟩
  simp [h.contents, List.getElem?_eq_getElem hi]

end Chains

/-- What reaches the recorder while a log is open. -/
inductive AuditCall where
  | record (entry : RiskAuditEntry)
  | setAuditEnabled (enabled : Bool)
  | clearAudit

/-- Entries are recorded where the audit is enabled. -/
def serve (r : AuditRecorder) : AuditCall → AuditRecorder
  | .record entry => if r.recordAudit then r.recordAuditEntry entry else r
  | .setAuditEnabled enabled => r.setAuditEnabled enabled
  | .clearAudit => r.clearAudit

/-- The entries recorded, with `none` where the trail was cleared. -/
def recorded : Bool → List AuditCall → List (Option RiskAuditEntry)
  | _, [] => []
  | true, .record entry :: calls => some entry :: recorded true calls
  | false, .record _ :: calls => recorded false calls
  | _, .setAuditEnabled enabled :: calls => recorded enabled calls
  | enabled, .clearAudit :: calls => none :: recorded enabled calls

/-- The lines of the log from a running checksum on, which a clear sets back. -/
def recordedLines (format : RiskAuditLogFormat) : UInt64 → List (Option RiskAuditEntry) → List Text
  | _, [] => []
  | seed, some entry :: entries =>
    entry.line (entry.appendToChecksum seed) format ::
      recordedLines format (entry.appendToChecksum seed) entries
  | _, none :: entries => recordedLines format fnvOffsetBasis entries

def trailChecksum : UInt64 → List (Option RiskAuditEntry) → UInt64
  | seed, [] => seed
  | seed, some entry :: entries => trailChecksum (entry.appendToChecksum seed) entries
  | _, none :: entries => trailChecksum fnvOffsetBasis entries

theorem none_not_mem_recorded (enabled : Bool) {calls : List AuditCall}
    (kept : AuditCall.clearAudit ∉ calls) : none ∉ recorded enabled calls := by
  induction calls generalizing enabled with
  | nil => exact List.not_mem_nil
  | cons call calls ih =>
    have rest := fun enabled => ih enabled (fun h => kept (List.mem_cons_of_mem _ h))
    cases call with
    | clearAudit => exact absurd List.mem_cons_self kept
    | setAuditEnabled on => cases enabled <;> exact rest on
    | record entry =>
      cases enabled with
      | false => exact rest false
      | true =>
        intro h
        rcases List.mem_cons.mp h with h | h
        · cases h
        · exact rest true h

/-- Every entry is read, and the reader's checksum is then the one logged; a clear concerns the
trail's checksum alone. -/
def InStep (format : RiskAuditLogFormat) : UInt64 → UInt64 → List (Option RiskAuditEntry) → Prop
  | read, trail, [] => read = trail
  | read, trail, some entry :: entries =>
    entry.rejectReason.Readable ∧ ∃ heard : RiskAuditEntry,
      entry.heard (entry.appendToChecksum trail) format =
        some (heard, heard.appendToChecksum read) ∧
      InStep format (heard.appendToChecksum read) (entry.appendToChecksum trail) entries
  | read, _, none :: entries => InStep format read fnvOffsetBasis entries

section Recording
variable {format : RiskAuditLogFormat} {entries : List (Option RiskAuditEntry)}

/-- Where names come through unaltered and nothing is cleared, the checksums stay in step. -/
theorem inStep_unaltered (kept : none ∉ entries)
    (readable : ∀ e, some e ∈ entries → e.rejectReason.Readable)
    (unaltered : ∀ e, some e ∈ entries → Unaltered format e.checkName) (seed : UInt64) :
    InStep format seed seed entries := by
  induction entries generalizing seed with
  | nil => rfl
  | cons entry entries ih =>
    obtain ⟨e, rfl⟩ := Option.ne_none_iff_exists'.mp (fun h => kept (h ▸ List.mem_cons_self))
    have rest := ih (fun h => kept (List.mem_cons_of_mem _ h))
      (fun e he => readable e (List.mem_cons_of_mem _ he))
      (fun e he => unaltered e (List.mem_cons_of_mem _ he))
    exact ⟨readable e List.mem_cons_self, e, heard_unaltered (unaltered e List.mem_cons_self) _,
      rest _⟩

theorem chain_recorded (read seed : UInt64) :
    auditChain format read (recordedLines format seed entries) =
      some (trailChecksum seed entries) ↔ InStep format read seed entries := by
  induction entries generalizing read seed with
  | nil => exact ⟨fun h => Option.some.inj h, fun h => congrArg some h⟩
  | cons entry entries ih =>
    cases entry with
    | none => exact ih read fnvOffsetBasis
    | some entry =>
      obtain ⟨logged, hl⟩ : ∃ logged, entry.appendToChecksum seed = logged := ⟨_, rfl⟩
      simp only [recordedLines, trailChecksum, InStep, hl, auditChain, parse_line]
      by_cases readable : entry.rejectReason.Readable
      · rw [if_pos readable]
        cases heard : entry.heard logged format with
        | none => simp
        | some found =>
          obtain ⟨h, c⟩ := found
          dsimp only
          constructor
          · intro chain
            split at chain
            · rename_i same
              exact ⟨readable, h, by rw [same], by rw [same]; exact (ih c logged).mp chain⟩
            · cases chain
          · rintro ⟨-, h', found, rest⟩
            obtain ⟨rfl, rfl⟩ := Prod.mk.inj (Option.some.inj found)
            rw [if_pos rfl]
            exact (ih _ logged).mpr rest
      · rw [if_neg readable]
        constructor
        · intro h
          cases h
        · intro h
          exact absurd h.1 readable

theorem whole_recorded
    (names : format = .text → ∀ e, some e ∈ entries → newline ∉ e.checkName) (seed : UInt64) :
    ∀ line ∈ recordedLines format seed entries, Whole line := by
  induction entries generalizing seed with
  | nil => exact fun _ h => absurd h List.not_mem_nil
  | cons entry entries ih =>
    have rest := ih (fun plain e he => names plain e (List.mem_cons_of_mem _ he))
    cases entry with
    | none => exact rest fnvOffsetBasis
    | some entry =>
      intro line hl
      rcases List.mem_cons.mp hl with rfl | hl
      · exact ⟨newline_not_mem_line (fun plain => names plain entry List.mem_cons_self) _,
          line_ne_nil _⟩
      · exact rest _ line hl

theorem length_recordedLines (seed : UInt64) :
    (recordedLines format seed entries).length = entries.reduceOption.length := by
  induction entries generalizing seed with
  | nil => rfl
  | cons entry entries ih =>
    cases entry with
    | none => exact ih fnvOffsetBasis
    | some entry => exact congrArg (· + 1) (ih _)

end Recording

section Runs
variable {r : AuditRecorder} {blocks : List (List Text)}

theorem appendAuditLogEntry_kept (entry : RiskAuditEntry) (logged : UInt64) :
    (r.appendAuditLogEntry entry logged).format = r.format ∧
      (r.appendAuditLogEntry entry logged).audit = r.audit ∧
      (r.appendAuditLogEntry entry logged).recordAudit = r.recordAudit := by
  unfold appendAuditLogEntry
  dsimp only
  split
  · exact ⟨rfl, rfl, rfl⟩
  · exact ⟨rfl, rfl, rfl⟩

theorem Logs.run (h : r.Logs blocks) (calls : List AuditCall) :
    ∃ blocks', (calls.foldl serve r).Logs blocks' ∧
      blocks'.flatten = blocks.flatten ++
        recordedLines r.format r.audit.checksum (recorded r.recordAudit calls) ∧
      (calls.foldl serve r).audit.checksum =
        trailChecksum r.audit.checksum (recorded r.recordAudit calls) := by
  induction calls generalizing r blocks with
  | nil => exact ⟨blocks, h, by simp [recorded, recordedLines], rfl⟩
  | cons call calls ih =>
    cases call with
    | setAuditEnabled enabled =>
      have same : (r.setAuditEnabled enabled).Logs blocks := ⟨h.1, h.2, h.3, h.4⟩
      cases on : r.recordAudit <;> exact ih same
    | clearAudit =>
      have same : r.clearAudit.Logs blocks := ⟨h.1, h.2, h.3, h.4⟩
      obtain ⟨blocks', logs, lines, checksum⟩ := ih same
      cases on : r.recordAudit <;>
      · refine ⟨blocks', logs, lines.trans ?_, checksum.trans ?_⟩
        · simp only [recorded, recordedLines, clearAudit, on]
          rfl
        · simp only [recorded, trailChecksum, clearAudit, on]
          rfl
    | record entry =>
      cases on : r.recordAudit with
      | false =>
        have off : serve r (.record entry) = r := by simp [serve, on]
        have run := ih h
        rw [on] at run
        rw [List.foldl_cons, off]
        exact run
      | true =>
        have marked : Logs { r with audit := r.audit.record entry } blocks :=
          ⟨h.1, h.2, h.3, h.4⟩
        obtain ⟨longer, logs, added⟩ :=
          marked.appendEntry entry (entry.appendToChecksum r.audit.checksum)
        have kept := @appendAuditLogEntry_kept { r with audit := r.audit.record entry } entry
          (entry.appendToChecksum r.audit.checksum)
        have step : serve r (.record entry) =
            appendAuditLogEntry { r with audit := r.audit.record entry } entry
              (entry.appendToChecksum r.audit.checksum) := by
          simp only [serve, on, if_true, recordAuditEntry, h.isOpen, RiskAuditTrail.record]
        obtain ⟨blocks', logs', lines, checksum⟩ := ih logs
        rw [kept.1, kept.2.1, kept.2.2] at lines
        rw [kept.2.1, kept.2.2] at checksum
        rw [List.foldl_cons, step]
        refine ⟨blocks', logs', lines.trans ?_, checksum.trans ?_⟩
        · rw [added, on, List.append_assoc]
          rfl
        · rw [on]
          rfl

/-- A log that is opened where no file of its rotation exists starts with one empty file. -/
theorem open_logs (r : AuditRecorder) (path : Text) (format : RiskAuditLogFormat)
    (maxRecords maxBytes : Nat)
    (fresh : ∀ i, r.read (rotatedAuditLogPath { r with basePath := path } i) = none) :
    (r.openRotatingAuditLog path format maxRecords maxBytes).Logs [[]] where
  isOpen := rfl
  count := rfl
  paths := rfl
  contents := by
    intro i
    show (r.append (rotatedAuditLogPath { r with basePath := path } 0) []).read
      (rotatedAuditLogPath { r with basePath := path } i) = _
    by_cases first : i = 0
    · rw [first, read_append_same, fresh]
      rfl
    · rw [read_append_other r (fun same => first (rotated_injective _ same)), fresh,
        List.getElem?_eq_none (by simp; omega)]
      rfl

theorem Logs.nodup_paths (h : r.Logs blocks) : r.paths.Nodup := by
  rw [h.paths]
  exact List.nodup_range.map (fun _ _ same => r.rotated_injective same)

end Runs

section Opened
variable (r : AuditRecorder) (path : Text) (format : RiskAuditLogFormat) (maxRecords maxBytes : Nat)
  (calls : List AuditCall)
  (fresh : ∀ i, r.read (rotatedAuditLogPath { r with basePath := path } i) = none)
include fresh

theorem opened_logs :
    let after := calls.foldl serve (r.openRotatingAuditLog path format maxRecords maxBytes)
    ∃ blocks, after.Logs blocks ∧
      blocks.flatten = recordedLines format r.audit.checksum (recorded true calls) ∧
      after.audit.checksum = trailChecksum r.audit.checksum (recorded true calls) :=
  (open_logs r path format maxRecords maxBytes fresh).run calls

theorem opened_verifies_iff
    (names : format = .text → ∀ e, some e ∈ recorded true calls → newline ∉ e.checkName) :
    let after := calls.foldl serve (r.openRotatingAuditLog path format maxRecords maxBytes)
    let result := verifyRiskAuditLogs after.read after.paths format
    result.valid = true ∧
        result.entriesChecked = (recorded true calls).reduceOption.length ∧
        result.finalChecksum = after.audit.checksum ↔
      InStep format fnvOffsetBasis r.audit.checksum (recorded true calls) := by
  intro after result
  obtain ⟨blocks, logs, lines, checksum⟩ :=
    opened_logs r path format maxRecords maxBytes calls fresh
  have whole := @whole_recorded format _ names r.audit.checksum
  obtain ⟨chain, count⟩ := @chain_files _ format _ _ logs.held (lines ▸ whole) fnvOffsetBasis
  have checksum : after.audit.checksum =
      trailChecksum r.audit.checksum (recorded true calls) := checksum
  rw [lines] at chain count
  rw [← chain_recorded, ← checksum]
  cases final : auditChain format fnvOffsetBasis
      (recordedLines format r.audit.checksum (recorded true calls)) with
  | none =>
    constructor
    · intro h
      exact absurd (chain.trans final) ((verify_valid_iff after.paths).mp h.1)
    · intro h
      cases h
  | some c =>
    have verdict := verify_of_chain (chain.trans final)
    rw [length_recordedLines] at count
    dsimp only [result]
    rw [verdict, count]
    simp only [true_and, Option.some.injEq]

omit fresh in
theorem opened_inStep (first : r.audit.checksum = fnvOffsetBasis)
    (kept : AuditCall.clearAudit ∉ calls)
    (clear : ∀ e, some e ∈ recorded true calls →
      e.rejectReason.Readable ∧ Unaltered format e.checkName) :
    InStep format fnvOffsetBasis r.audit.checksum (recorded true calls) := by
  rw [first]
  exact inStep_unaltered (none_not_mem_recorded true kept) (fun e he => (clear e he).1)
    (fun e he => (clear e he).2) fnvOffsetBasis

end Opened

/-- However the log rotates, the verifier accepts its files, counts every entry recorded since it
was opened and ends in the trail's checksum exactly where reader and trail stay in step, as they
do from a fresh trail that is not cleared. No file is written twice, and one after the other they
hold the lines recorded. -/
theorem rotated_log_verifies_iff (r : AuditRecorder) (path : Text) (format : RiskAuditLogFormat)
    (maxRecords maxBytes : Nat) (calls : List AuditCall)
    (fresh : ∀ i, r.read (rotatedAuditLogPath { r with basePath := path } i) = none)
    (names : format = .text → ∀ e, some e ∈ recorded true calls → newline ∉ e.checkName) :
    let after := calls.foldl serve (r.openRotatingAuditLog path format maxRecords maxBytes)
    let result := verifyRiskAuditLogs after.read after.paths format
    (result.valid = true ∧
        result.entriesChecked = (recorded true calls).reduceOption.length ∧
        result.finalChecksum = after.audit.checksum ↔
      InStep format fnvOffsetBasis r.audit.checksum (recorded true calls)) ∧
    (r.audit.checksum = fnvOffsetBasis → AuditCall.clearAudit ∉ calls →
      (∀ e, some e ∈ recorded true calls →
        e.rejectReason.Readable ∧ Unaltered format e.checkName) →
      InStep format fnvOffsetBasis r.audit.checksum (recorded true calls)) ∧
    after.paths.Nodup ∧
    ∃ blocks, List.Forall₂ (fun path lines => after.read path = some (fileText lines))
        after.paths blocks ∧
      blocks.flatten = recordedLines format r.audit.checksum (recorded true calls) := by
  intro after result
  obtain ⟨blocks, logs, lines, -⟩ := opened_logs r path format maxRecords maxBytes calls fresh
  exact ⟨opened_verifies_iff r path format maxRecords maxBytes calls fresh names,
    opened_inStep r format calls, logs.nodup_paths, blocks, logs.held, lines⟩

/-- Two entries in a file each. -/
theorem rotated_log_verifies_two_files :
    let entry : RiskAuditEntry := { rejectReason := .killSwitch, checkName := text "kill_switch" }
    let other : RiskAuditEntry := { accepted := true, checkName := text "accepted" }
    let calls : List AuditCall := [.record entry, .record other]
    let after := calls.foldl serve
      (openRotatingAuditLog {} (text "risk.log") .text 1 0)
    let result := verifyRiskAuditLogs after.read after.paths .text
    result.valid = true ∧ result.entriesChecked = 2 ∧
      result.finalChecksum = after.audit.checksum := by
  intro entry other calls
  have known : ∀ e, some e ∈ recorded true calls → e = entry ∨ e = other := by
    simp [calls, recorded]
  have named : RiskAuditLogFormat.text = .text →
      ∀ e, some e ∈ recorded true calls → newline ∉ e.checkName := by
    intro _ e he
    rcases known e he with rfl | rfl
    · decide
    · decide
  have clear : ∀ e, some e ∈ recorded true calls →
      e.rejectReason.Readable ∧ Unaltered .text e.checkName := by
    unfold Unaltered
    intro e he
    rcases known e he with rfl | rfl
    · decide
    · decide
  have verdict := rotated_log_verifies_iff {} (text "risk.log") .text 1 0 calls (fun _ => rfl) named
  exact verdict.1.mpr (verdict.2.1 rfl (by simp [calls]) clear)

end AuditRecorder
end Asterion
