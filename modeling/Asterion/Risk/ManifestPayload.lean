import Asterion.Risk.AuditManifest

/-! What the signed payload says about a manifest. The creator and the file names stand in it as
they are, so a text that looks like the lines behind it can be read in two ways. -/
namespace Asterion
open Lib Lib.Decimal Lib.Search

def chainLine (checksum : UInt64) : Text :=
  newline :: (text "chain_checksum=" ++ uint64 checksum ++ [newline])

def fileMark : Text := text "file="

/-- The numbers of an entry, as they follow its name. -/
def AuditManifestFileEntry.numbers (file : AuditManifestFileEntry) : Text :=
  text "," ++ uint64 file.recordCount ++ text "," ++ uint64 file.byteSize ++ text "," ++
    uint64 file.contentChecksum ++ text "," ++ uint64 file.auditChainChecksum

def payloadLines (files : List AuditManifestFileEntry) : Text :=
  files.flatMap AuditManifestFileEntry.payloadLine

def Chained (s : Text) : Prop := ∃ checksum, chainLine checksum ++ fileMark <:+: s

def Listed (s : Text) : Prop :=
  ∃ file : AuditManifestFileEntry, file.numbers ++ newline :: fileMark <:+: s

/-- The signed parts are the same. -/
structure SameSigned (m m' : AuditManifest) : Prop where
  schemaVersion : m.schemaVersion = m'.schemaVersion
  format : m.format = m'.format
  creator : m.creator = m'.creator
  chainChecksum : m.chainChecksum = m'.chainChecksum
  files : m.files = m'.files

section Lines
variable {file file' : AuditManifestFileEntry} {files files' : List AuditManifestFileEntry}

theorem payloadLine_eq (file : AuditManifestFileEntry) :
    file.payloadLine = fileMark ++ (file.fileName ++ file.numbers ++ [newline]) := by
  simp only [AuditManifestFileEntry.payloadLine, AuditManifestFileEntry.numbers, fileMark,
    List.append_assoc]

theorem comma_text : text "," = [44] := by decide

theorem chain_text : ∃ s, text "chain_checksum=" = s ++ [equalsSign] := ⟨text "chain_checksum",
  by decide⟩

theorem file_text : fileMark = text "file" ++ [equalsSign] := by decide

theorem equals_not_mem_numbers : equalsSign ∉ file.numbers ++ [newline] := by
  have digit : isDigit equalsSign = false := by decide
  have number := fun x : UInt64 => not_mem_decimal digit x.toNat
  have comma : equalsSign ≠ 44 := by decide
  have feed : equalsSign ≠ newline := by decide
  simp only [AuditManifestFileEntry.numbers, comma_text, uint64, List.mem_append,
    List.mem_singleton, not_or]
  exact ⟨⟨⟨⟨⟨⟨⟨⟨comma, number _⟩, comma⟩, number _⟩, comma⟩, number _⟩, comma⟩, number _⟩, feed⟩

/-- The name and the numbers of a line can be told apart from its end. -/
theorem numbers_cancel {s t : Text} (h : s ++ file.numbers = t ++ file'.numbers) :
    s = t ∧ file = { file' with fileName := file.fileName } := by
  have comma : isDigit 44 = false := by decide
  simp only [AuditManifestFileEntry.numbers, comma_text, uint64, ← List.append_assoc] at h
  simp only [List.append_assoc _ [(44 : UInt8)], List.singleton_append] at h
  obtain ⟨h, -, chain⟩ := append_decimal_cancel comma comma h
  obtain ⟨h, -, content⟩ := append_decimal_cancel comma comma h
  obtain ⟨h, -, size⟩ := append_decimal_cancel comma comma h
  obtain ⟨h, -, count⟩ := append_decimal_cancel comma comma h
  refine ⟨h, ?_⟩
  cases file
  cases file'
  simp only [AuditManifestFileEntry.mk.injEq, true_and]
  exact ⟨UInt64.toNat_inj.mp count, UInt64.toNat_inj.mp size, UInt64.toNat_inj.mp content,
    UInt64.toNat_inj.mp chain⟩

theorem payloadLines_cons : payloadLines (file :: files) =
    fileMark ++ (file.fileName ++ file.numbers ++ newline :: payloadLines files) := by
  rw [payloadLines, List.flatMap_cons, payloadLine_eq]
  simp only [payloadLines, List.append_assoc, List.singleton_append]

theorem payloadLines_end (some : files ≠ []) : ∃ (s : Text) (checksum : UInt64),
    payloadLines files = s ++ 44 :: uint64 checksum ++ [newline] := by
  obtain ⟨files, last, rfl⟩ := (List.eq_nil_or_concat' files).resolve_left some
  refine ⟨payloadLines files ++ fileMark ++ last.fileName ++ text "," ++
    uint64 last.recordCount ++ text "," ++ uint64 last.byteSize ++ text "," ++
    uint64 last.contentChecksum, last.auditChainChecksum, ?_⟩
  simp only [payloadLines, List.flatMap_append, List.flatMap_cons, List.flatMap_nil, comma_text,
    payloadLine_eq, AuditManifestFileEntry.numbers, List.append_assoc, List.append_nil,
    List.nil_append, List.cons_append]

theorem payloadLines_ne_chain {s : Text} {checksum : UInt64} :
    payloadLines files ≠ s ++ chainLine checksum := by
  intro h
  cases files with
  | nil => exact absurd (congrArg List.length h) (by simp [payloadLines, chainLine])
  | cons file files =>
    obtain ⟨t, last, ht⟩ := payloadLines_end (List.cons_ne_nil file files)
    obtain ⟨front, hf⟩ := chain_text
    rw [ht, chainLine, hf] at h
    have line : s ++ newline :: (front ++ [equalsSign] ++ uint64 checksum ++ [newline]) =
        (s ++ newline :: front) ++ equalsSign :: uint64 checksum ++ [newline] := by simp
    rw [line] at h
    have cancelled := append_decimal_cancel (by decide) (by decide) (List.append_cancel_right h)
    exact absurd cancelled.2.1 (by decide)

/-- Where one creator goes further than the other, it holds the chain line of the other and the
start of a file line, and the file lines hold the second chain line. -/
theorem chain_twice {rest : Text} {checksum checksum' : UInt64} (further : rest ≠ [])
    (h : chainLine checksum ++ payloadLines files =
      rest ++ (chainLine checksum' ++ payloadLines files')) :
    ∃ t u, rest = chainLine checksum ++ fileMark ++ t ∧
      payloadLines files = fileMark ++ (t ++ (chainLine checksum' ++ fileMark) ++ u) ∧
      payloadLines files' = fileMark ++ u := by
  have digit : isDigit newline = false := by decide
  have plain : newline ∉ text "chain_checksum=" ++ uint64 checksum := by
    rw [List.mem_append, not_or]
    exact ⟨by decide, not_mem_decimal digit _⟩
  obtain ⟨c, rest, rfl⟩ := List.exists_cons_of_ne_nil further
  have line : ∀ checksum files, chainLine checksum ++ payloadLines files =
      newline :: ((text "chain_checksum=" ++ uint64 checksum) ++
        newline :: payloadLines files) := by
    intro checksum files
    simp [chainLine]
  rw [line, line, List.cons_append] at h
  obtain ⟨rfl, body⟩ := List.cons.inj h
  have start : ∀ t u : Text, text "chain_checksum=" ++ t ≠ fileMark ++ u := by
    intro t u same
    have chain : text "chain_checksum=" = 99 :: text "hain_checksum=" := by decide
    have file : fileMark = 102 :: text "ile=" := by decide
    rw [chain, file] at same
    exact absurd (List.cons.inj same).1 (by decide)
  rcases first_separator plain body with ⟨-, lines⟩ | ⟨t, rfl, lines⟩
  · cases files with
    | nil => exact absurd lines (by simp [payloadLines])
    | cons file files =>
      rw [payloadLines_cons, List.append_assoc] at lines
      exact absurd lines.symm (start _ _)
  · cases files with
    | nil => exact absurd lines (by simp [payloadLines])
    | cons file files =>
      have whole := lines
      rw [payloadLines_cons] at lines
      obtain ⟨t, rfl, -⟩ := separator_behind (by decide) lines
      cases files' with
      | nil =>
        have last : payloadLines (file :: files) = fileMark ++ t ++ chainLine checksum' := by
          rw [whole]
          simp [chainLine, payloadLines]
        exact absurd last payloadLines_ne_chain
      | cons file' files' =>
        refine ⟨t, file'.fileName ++ file'.numbers ++ newline :: payloadLines files', ?_,
          whole.trans ?_, payloadLines_cons⟩
        · simp [chainLine]
        · rw [payloadLines_cons]
          simp [chainLine]

end Lines

/-- The payload behind the name of the creator's field. -/
def AuditManifest.body (m : AuditManifest) : Text :=
  m.creator ++ (chainLine m.chainChecksum ++ payloadLines m.files)

section Payload
variable {m m' : AuditManifest}

theorem payload_eq (m : AuditManifest) : canonicalAuditManifestPayload m =
    text "asterion-audit-manifest\n" ++ text "schema_version=" ++
      (uint32 m.schemaVersion ++ newline ::
        (text "format=" ++ (m.format.toString ++ newline :: (text "creator=" ++ m.body)))) := by
  simp only [canonicalAuditManifestPayload, AuditManifest.body, chainLine, payloadLines,
    List.append_assoc, List.cons_append, List.nil_append]

theorem format_cancel {f f' : RiskAuditLogFormat} {s t : Text}
    (h : f.toString ++ newline :: s = f'.toString ++ newline :: t) : f = f' ∧ s = t := by
  have jsonl : RiskAuditLogFormat.jsonl.toString = 106 :: text "sonl" := by decide
  have plain : RiskAuditLogFormat.text.toString = 116 :: text "ext" := by decide
  cases f with
  | jsonl =>
    cases f' with
    | jsonl => exact ⟨rfl, (List.cons.inj (List.append_cancel_left h)).2⟩
    | text =>
      rw [jsonl, plain] at h
      exact absurd (List.cons.inj h).1 (by decide)
  | text =>
    cases f' with
    | jsonl =>
      rw [jsonl, plain] at h
      exact absurd (List.cons.inj h).1 (by decide)
    | text => exact ⟨rfl, (List.cons.inj (List.append_cancel_left h)).2⟩

theorem payload_eq_iff : canonicalAuditManifestPayload m = canonicalAuditManifestPayload m' ↔
    m.schemaVersion = m'.schemaVersion ∧ m.format = m'.format ∧ m.body = m'.body := by
  rw [payload_eq, payload_eq]
  constructor
  · intro h
    obtain ⟨schema, rest⟩ := decimal_append_cancel (by decide) (List.append_cancel_left h)
    obtain ⟨format, rest⟩ := format_cancel (List.append_cancel_left rest)
    exact ⟨UInt32.toNat_inj.mp schema, format, List.append_cancel_left rest⟩
  · rintro ⟨schema, format, body⟩
    rw [schema, format, body]

theorem chainLine_cancel {checksum checksum' : UInt64} {s t : Text}
    (h : chainLine checksum ++ s = chainLine checksum' ++ t) : checksum = checksum' ∧ s = t := by
  have line : ∀ (checksum : UInt64) (s : Text), chainLine checksum ++ s =
      newline :: text "chain_checksum=" ++ (uint64 checksum ++ newline :: s) := by
    intro checksum s
    simp [chainLine]
  rw [line, line] at h
  obtain ⟨same, rest⟩ := decimal_append_cancel (by decide) (List.append_cancel_left h)
  exact ⟨UInt64.toNat_inj.mp same, rest⟩

theorem lines_ne_nil {file : AuditManifestFileEntry} {files : List AuditManifestFileEntry} :
    payloadLines (file :: files) ≠ [] := by
  rw [payloadLines_cons, file_text]
  exact List.append_ne_nil_of_left_ne_nil (List.append_ne_nil_of_right_ne_nil _
    (List.cons_ne_nil _ _)) _

section Inside
variable {s t u : Text} {file : AuditManifestFileEntry}

theorem chained_of {checksum : UInt64} (h : s ++ (file.numbers ++ [newline]) =
    t ++ (chainLine checksum ++ fileMark) ++ u) : Chained s := by
  have marked : chainLine checksum ++ fileMark =
      (chainLine checksum ++ text "file") ++ [equalsSign] := by
    rw [file_text, List.append_assoc]
  rw [marked] at h
  have found := infix_of_append equals_not_mem_numbers h
  rw [← marked] at found
  exact ⟨checksum, found⟩

theorem listed_of {file' : AuditManifestFileEntry} (h : s ++ (file.numbers ++ [newline]) =
    t ++ (file'.numbers ++ newline :: fileMark) ++ u) : Listed s := by
  have marked : file'.numbers ++ newline :: fileMark =
      (file'.numbers ++ newline :: text "file") ++ [equalsSign] := by
    rw [file_text, List.append_assoc]
    rfl
  rw [marked] at h
  have found := infix_of_append equals_not_mem_numbers h
  rw [← marked] at found
  exact ⟨file', found⟩

end Inside

/-- The lines of no file, or of one whose name cannot be taken for two lines, are read in one
way. -/
theorem lines_unique {files files' : List AuditManifestFileEntry}
    (simple : files = [] ∨ ∃ file, files = [file] ∧ ¬ Listed file.fileName)
    (h : payloadLines files' = payloadLines files) : files' = files := by
  obtain rfl | ⟨file, rfl, whole⟩ := simple
  · cases files' with
    | nil => rfl
    | cons file' files' => exact absurd h lines_ne_nil
  · cases files' with
    | nil => exact absurd h.symm lines_ne_nil
    | cons file' files' =>
      rw [payloadLines_cons, payloadLines_cons] at h
      have names := List.append_cancel_left h
      cases files' with
      | nil =>
        obtain ⟨name, same⟩ := numbers_cancel (List.append_cancel_right names)
        rw [same, name]
      | cons file'' files' =>
        rw [payloadLines_cons] at names
        have shown : file.fileName ++ (file.numbers ++ [newline]) =
            file'.fileName ++ (file'.numbers ++ newline :: fileMark) ++
              (file''.fileName ++ file''.numbers ++ newline :: payloadLines files') := by
          rw [← List.append_assoc]
          refine names.symm.trans ?_
          simp only [List.append_assoc, List.cons_append]
        exact absurd (listed_of shown) whole

/-- A payload that no other manifest has. -/
def Determined (m : AuditManifest) : Prop :=
  ∀ m', canonicalAuditManifestPayload m' = canonicalAuditManifestPayload m → SameSigned m' m

/-- No text in the manifest looks like the lines behind it, and there is at most one name. -/
def Simple (m : AuditManifest) : Prop :=
  m.files = [] ∨ ∃ file, m.files = [file] ∧
    ¬ Chained m.creator ∧ ¬ Chained file.fileName ∧ ¬ Listed file.fileName

theorem determined_of_simple (simple : Simple m) : Determined m := by
  intro m' h
  obtain ⟨schema, format, body⟩ := payload_eq_iff.mp h
  have some_file : ∀ u, payloadLines m.files = fileMark ++ u → ∃ file, m.files = [file] ∧
      ¬ Chained m.creator ∧ ¬ Chained file.fileName := by
    intro u lines
    rcases simple with none | ⟨file, one, creator, name, -⟩
    · have marked : fileMark ++ u ≠ [] := by
        rw [file_text]
        simp
      rw [none] at lines
      exact absurd lines.symm marked
    · exact ⟨file, one, creator, name⟩
  have same : m'.creator = m.creator ∧ chainLine m'.chainChecksum ++ payloadLines m'.files =
      chainLine m.chainChecksum ++ payloadLines m.files := by
    rcases List.append_eq_append_iff.mp body with ⟨rest, creator, lines⟩ | ⟨rest, creator, lines⟩
    · rcases eq_or_ne rest [] with rfl | further
      · rw [List.append_nil] at creator
        exact ⟨creator.symm, lines⟩
      · obtain ⟨t, u, rfl, -, tail⟩ := chain_twice further lines
        obtain ⟨file, -, plain, -⟩ := some_file u tail
        refine absurd ⟨m'.chainChecksum, m'.creator, t, ?_⟩ plain
        rw [creator]
        simp only [List.append_assoc]
    · rcases eq_or_ne rest [] with rfl | further
      · rw [List.append_nil] at creator
        exact ⟨creator, lines.symm⟩
      · obtain ⟨t, u, rfl, whole, -⟩ := chain_twice further lines
        obtain ⟨file, one, -, plain⟩ := some_file _ whole
        rw [one, payloadLines_cons] at whole
        have shown : file.fileName ++ (file.numbers ++ [newline]) =
            t ++ (chainLine m'.chainChecksum ++ fileMark) ++ u := by
          rw [← List.append_assoc]
          exact List.append_cancel_left whole
        exact absurd (chained_of shown) plain
  obtain ⟨chain, lines⟩ := chainLine_cancel same.2
  refine ⟨schema, format, same.1, chain, lines_unique ?_ lines⟩
  rcases simple with none | ⟨file, one, -, -, whole⟩
  · exact Or.inl none
  · exact Or.inr ⟨file, one, whole⟩

section Ambiguous
variable {file : AuditManifestFileEntry} {files : List AuditManifestFileEntry}

theorem two_files_ambiguous {file' : AuditManifestFileEntry} (h : m.files = file :: file' :: files) :
    ¬ Determined m := by
  intro determined
  have same := determined
    { m with files :=
      { file' with fileName := file.fileName ++ file.numbers ++ newline :: fileMark ++
          file'.fileName } :: files } (payload_eq_iff.mpr ⟨rfl, rfl, ?_⟩)
  · have count := congrArg List.length (same.files.trans h)
    simp at count
  · simp only [AuditManifest.body, h, payloadLines_cons, List.append_assoc, List.cons_append]
    rfl

theorem creator_ambiguous (h : m.files = [file]) (chained : Chained m.creator) :
    ¬ Determined m := by
  obtain ⟨checksum, s, t, creator⟩ := chained
  intro determined
  have same := determined
    { m with
      creator := s, chainChecksum := checksum
      files := [{ file with fileName := t ++ chainLine m.chainChecksum ++ fileMark ++
        file.fileName }] } (payload_eq_iff.mpr ⟨rfl, rfl, ?_⟩)
  · have shorter := congrArg List.length (same.creator.trans creator.symm)
    simp [chainLine] at shorter
  · simp only [AuditManifest.body, h, ← creator, payloadLines_cons, List.append_assoc]
    rfl

/-- A chain line in the name of the only file may belong to a longer creator. -/
theorem name_ambiguous (h : m.files = [file]) (chained : Chained file.fileName) :
    ¬ Determined m := by
  obtain ⟨checksum, s, t, name⟩ := chained
  intro determined
  have same := determined
    { m with
      creator := m.creator ++ chainLine m.chainChecksum ++ fileMark ++ s
      chainChecksum := checksum, files := [{ file with fileName := t }] }
    (payload_eq_iff.mpr ⟨rfl, rfl, ?_⟩)
  · have longer := congrArg List.length same.creator
    simp [chainLine] at longer
  · simp only [AuditManifest.body, h, ← name, payloadLines_cons, List.append_assoc]
    rfl

/-- The end of a line in the name of the only file may end the line of another. -/
theorem listed_ambiguous (h : m.files = [file]) (listed : Listed file.fileName) :
    ¬ Determined m := by
  obtain ⟨first, s, t, name⟩ := listed
  intro determined
  have same := determined
    { m with files := [{ first with fileName := s }, { file with fileName := t }] }
    (payload_eq_iff.mpr ⟨rfl, rfl, ?_⟩)
  · have count := congrArg List.length (same.files.trans h)
    simp at count
  · simp only [AuditManifest.body, h, ← name, payloadLines_cons, List.append_assoc,
      List.cons_append]
    rfl

end Ambiguous

section OneLine

/-- No string of the manifest has a line break. -/
def OneLined (m : AuditManifest) : Prop :=
  newline ∉ m.creator ∧ ∀ file ∈ m.files, newline ∉ file.fileName

theorem block_cancel {s t u v : Text} (hs : newline ∉ s) (ht : newline ∉ t)
    (h : s ++ newline :: u = t ++ newline :: v) : s = t ∧ u = v := by
  rcases first_separator hs h with ⟨rfl, same⟩ | ⟨w, rfl, -⟩
  · exact ⟨rfl, same⟩
  · exact absurd (List.mem_append_right _ List.mem_cons_self) ht

theorem newline_not_mem_line_numbers {file : AuditManifestFileEntry}
    (name : newline ∉ file.fileName) : newline ∉ file.fileName ++ file.numbers := by
  have digit : isDigit newline = false := by decide
  have number := fun x : UInt64 => not_mem_decimal digit x.toNat
  have comma : newline ≠ 44 := by decide
  simp only [AuditManifestFileEntry.numbers, comma_text, uint64, List.mem_append,
    List.mem_singleton, not_or]
  exact ⟨name, ⟨⟨⟨⟨⟨⟨comma, number _⟩, comma⟩, number _⟩, comma⟩, number _⟩, comma⟩, number _⟩

theorem lines_cancel {files files' : List AuditManifestFileEntry}
    (names : ∀ file ∈ files, newline ∉ file.fileName)
    (names' : ∀ file ∈ files', newline ∉ file.fileName)
    (h : payloadLines files = payloadLines files') : files = files' := by
  induction files generalizing files' with
  | nil =>
    cases files' with
    | nil => rfl
    | cons file' files' => exact absurd h.symm lines_ne_nil
  | cons file files ih =>
    cases files' with
    | nil => exact absurd h lines_ne_nil
    | cons file' files' =>
      rw [payloadLines_cons, payloadLines_cons] at h
      obtain ⟨first, rest⟩ := block_cancel
        (newline_not_mem_line_numbers (names file List.mem_cons_self))
        (newline_not_mem_line_numbers (names' file' List.mem_cons_self))
        (List.append_cancel_left h)
      obtain ⟨name, same⟩ := numbers_cancel first
      rw [same, name, ih (fun f hf => names f (List.mem_cons_of_mem _ hf))
        (fun f hf => names' f (List.mem_cons_of_mem _ hf)) rest]

theorem sameSigned_of_oneLined (one : OneLined m) (one' : OneLined m')
    (h : canonicalAuditManifestPayload m = canonicalAuditManifestPayload m') : SameSigned m m' := by
  obtain ⟨schema, format, body⟩ := payload_eq_iff.mp h
  obtain ⟨creator, -⟩ := block_cancel one.1 one'.1 body
  have rest := body
  rw [AuditManifest.body, AuditManifest.body, creator] at rest
  obtain ⟨chain, lines⟩ := chainLine_cancel (List.append_cancel_left rest)
  exact ⟨schema, format, creator, chain, lines_cancel one.2 one'.2 lines⟩

end OneLine

/-- The payload determines what is signed exactly for manifests without files, or with one whose
texts do not look like the lines behind them, and between manifests without line breaks. -/
theorem payload_determines_iff (m : AuditManifest) :
    (Determined m ↔ Simple m) ∧
      ∀ m', OneLined m → OneLined m' →
        canonicalAuditManifestPayload m = canonicalAuditManifestPayload m' → SameSigned m m' := by
  refine ⟨⟨fun determined => ?_, determined_of_simple⟩, fun m' => sameSigned_of_oneLined⟩
  match h : m.files with
  | [] => exact Or.inl h
  | [file] =>
    exact Or.inr ⟨file, h, fun chained => creator_ambiguous h chained determined,
      fun chained => name_ambiguous h chained determined,
      fun listed => listed_ambiguous h listed determined⟩
  | file :: file' :: files => exact absurd determined (two_files_ambiguous h)

/-- Two log files, and one whose name spells the line of the first. -/
theorem payload_determines_fails :
    let two : AuditManifest :=
      { files := [{ fileName := text "a.log", recordCount := 1 }, { fileName := text "b.log" }] }
    let one : AuditManifest :=
      { files := [{ fileName := text "a.log,1,0,0,0\nfile=b.log" }] }
    canonicalAuditManifestPayload two = canonicalAuditManifestPayload one ∧
      ¬ SameSigned two one := by
  refine ⟨by decide, fun same => ?_⟩
  exact absurd (congrArg List.length same.files) (by decide)

end Payload

end Asterion
