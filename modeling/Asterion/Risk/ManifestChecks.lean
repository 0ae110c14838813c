import Asterion.Risk.AuditManifest
import Asterion.Risk.AuditChain
import Asterion.Lib.FoldHash

/-! What the verifier of manifests checks. Every listed file has to be intact; of the recorded
chain checksums only the last one is recomputed, and whether the logs verify is not looked at. -/
namespace Asterion
open Lib

/-- The file of an entry exists and has the recorded size, checksum and number of records. -/
def AuditManifestFileEntry.Intact (fs : FileSystem) (baseDir : Text)
    (entry : AuditManifestFileEntry) : Prop :=
  fs.present (entry.path baseDir) = true ∧
    ∃ contents, fs.read (entry.path baseDir) = some contents ∧
      contents.length = entry.byteSize.toNat ∧
      fnv1aAppend fnvOffsetBasis contents = entry.contentChecksum ∧
      ((contents.splitOn newline).filter (fun line => !isBlankLine line)).length =
        entry.recordCount.toNat

namespace AuditManifestVerification
variable {v : AuditManifestVerification} {failed : Bool} {type : AuditManifestIssueType}
  {fileName detail : Text}

theorem reportIf_false : v.reportIf false type fileName detail = v := rfl

theorem valid_reportIf :
    (v.reportIf failed type fileName detail).valid = (v.valid && !failed) := by
  cases failed with
  | false => exact (Bool.and_true _).symm
  | true => exact (Bool.and_false _).symm

end AuditManifestVerification

section Entries
variable {fs : FileSystem} {baseDir : Text} {c : ManifestChecking} {entry : AuditManifestFileEntry}

theorem checkManifestEntry_intact (intact : entry.Intact fs baseDir) :
    checkManifestEntry fs baseDir c entry =
      { verification := { c.verification with filesChecked := c.verification.filesChecked + 1 }
        presentPaths := c.presentPaths ++ [entry.path baseDir]
        allPresent := c.allPresent } := by
  obtain ⟨present, contents, read, size, content, count⟩ := intact
  simp only [checkManifestEntry, present, scanFile, read, size, content, count, bne_self_eq_false,
    Bool.not_true, Bool.or_self, Bool.not_false, Bool.and_true, Bool.false_eq_true, if_false,
    AuditManifestVerification.reportIf_false]

theorem checkManifestEntry_other (other : ¬ entry.Intact fs baseDir) :
    (checkManifestEntry fs baseDir c entry).verification.valid = false ∧
      (checkManifestEntry fs baseDir c entry).allPresent = false := by
  cases present : fs.present (entry.path baseDir) with
  | false =>
    simp only [checkManifestEntry, present, Bool.not_false, if_true]
    exact ⟨rfl, trivial⟩
  | true =>
    cases read : fs.read (entry.path baseDir) with
    | none =>
      simp only [checkManifestEntry, present, scanFile, read, Bool.not_true, Bool.not_false,
        Bool.false_eq_true, if_true, if_false]
      exact ⟨rfl, trivial⟩
    | some contents =>
      simp only [checkManifestEntry, present, scanFile, read, Bool.not_true, Bool.false_eq_true,
        if_false, AuditManifestVerification.valid_reportIf]
      have differs : (contents.length != entry.byteSize.toNat ||
          fnv1aAppend fnvOffsetBasis contents != entry.contentChecksum ||
          ((contents.splitOn newline).filter (fun line => !isBlankLine line)).length !=
            entry.recordCount.toNat) = true := by
        apply Bool.eq_true_of_not_eq_false
        intro none
        simp only [Bool.or_eq_false_iff, bne_eq_false_iff_eq] at none
        exact other ⟨present, contents, read, none.1.1, none.1.2, none.2⟩
      rw [differs]
      refine ⟨?_, Bool.and_false _⟩
      simp only [Bool.and_assoc, ← Bool.not_or, differs, Bool.not_true, Bool.and_false]

theorem checkManifestEntry_spoiled (spoiled : c.verification.valid = false ∧ c.allPresent = false) :
    (checkManifestEntry fs baseDir c entry).verification.valid = false ∧
      (checkManifestEntry fs baseDir c entry).allPresent = false := by
  by_cases intact : entry.Intact fs baseDir
  · rw [checkManifestEntry_intact intact]
    exact spoiled
  · exact checkManifestEntry_other intact

theorem foldl_spoiled (entries : List AuditManifestFileEntry)
    (spoiled : c.verification.valid = false ∧ c.allPresent = false) :
    (entries.foldl (checkManifestEntry fs baseDir) c).verification.valid = false ∧
      (entries.foldl (checkManifestEntry fs baseDir) c).allPresent = false := by
  induction entries generalizing c with
  | nil => exact spoiled
  | cons entry entries ih => exact ih (checkManifestEntry_spoiled spoiled)

theorem foldl_intact {entries : List AuditManifestFileEntry}
    (intact : ∀ e ∈ entries, e.Intact fs baseDir) :
    entries.foldl (checkManifestEntry fs baseDir) c =
      { verification := { c.verification with
          filesChecked := c.verification.filesChecked + entries.length }
        presentPaths := c.presentPaths ++ entries.map (·.path baseDir)
        allPresent := c.allPresent } := by
  induction entries generalizing c with
  | nil =>
    rw [List.map_nil, List.append_nil]
    rfl
  | cons entry entries ih =>
    have first := intact entry List.mem_cons_self
    have count : c.verification.filesChecked + (entries.length + 1) =
        c.verification.filesChecked + 1 + entries.length := by omega
    rw [List.foldl_cons, checkManifestEntry_intact first,
      ih (fun e he => intact e (List.mem_cons_of_mem _ he)), List.length_cons, List.map_cons, count,
      List.append_assoc]
    rfl

theorem foldl_other {entries : List AuditManifestFileEntry} (he : entry ∈ entries)
    (other : ¬ entry.Intact fs baseDir) :
    (entries.foldl (checkManifestEntry fs baseDir) c).verification.valid = false ∧
      (entries.foldl (checkManifestEntry fs baseDir) c).allPresent = false := by
  obtain ⟨before, after, rfl⟩ := List.append_of_mem he
  rw [List.foldl_append, List.foldl_cons]
  exact foldl_spoiled after (checkManifestEntry_other other)

end Entries

/-- The signature is the one the key gives, and there is none exactly where there is no key. -/
def SignatureAccepted (manifest : AuditManifest) (signingKey : List UInt8) : Prop :=
  match manifest.signature with
  | none => signingKey = []
  | some signature =>
    signature.algorithm = auditManifestSignatureAlgorithm ∧ signingKey ≠ [] ∧
      hmacSha256Hex signingKey (canonicalAuditManifestPayload manifest) = signature.valueHex

/-- What a manifest records of its files, its entries and its signer, the chain checksums of the
entries apart, is as found. -/
structure RecordsMatch (fs : FileSystem) (manifest : AuditManifest)
    (options : AuditManifestVerifyOptions) : Prop where
  chain : computeAuditManifestChainChecksum manifest.schemaVersion manifest.format manifest.files =
    manifest.chainChecksum
  intact : ∀ e ∈ manifest.files, e.Intact fs options.baseDir
  signature : SignatureAccepted manifest options.signingKey

def AuditManifest.paths (manifest : AuditManifest) (baseDir : Text) : List Text :=
  manifest.files.map (·.path baseDir)

section Verify
variable {fs : FileSystem} {manifest : AuditManifest} {options : AuditManifestVerifyOptions}

theorem checkManifestSignature_valid (signingKey : List UInt8) (v : AuditManifestVerification) :
    (checkManifestSignature manifest signingKey v).valid = true ↔
      v.valid = true ∧ SignatureAccepted manifest signingKey := by
  unfold checkManifestSignature SignatureAccepted
  cases manifest.signature with
  | none =>
    simp only [AuditManifestVerification.valid_reportIf, Bool.and_eq_true, Bool.not_eq_true',
      bne_eq_false_iff_eq]
  | some signature =>
    dsimp only
    split
    · rename_i other
      exact ⟨fun h => absurd h Bool.false_ne_true, fun h => absurd h.2.1 other⟩
    · rename_i algorithm
      split
      · rename_i key
        exact ⟨fun h => absurd h Bool.false_ne_true, fun h => absurd key h.2.2.1⟩
      · rename_i key
        split
        · rename_i same
          exact ⟨fun h => ⟨h, not_not.mp algorithm, key, same⟩, fun h => h.1⟩
        · rename_i other
          exact ⟨fun h => absurd h Bool.false_ne_true, fun h => absurd h.2.2.2 other⟩

/-- The verifier accepts a manifest exactly where its records match and the checksum of a log
verification over all files is the one the last entry records. -/
theorem verifyAuditManifest_valid_iff :
    (verifyAuditManifest fs manifest options).valid = true ↔
      RecordsMatch fs manifest options ∧
      ∀ last ∈ manifest.files.getLast?,
        (verifyRiskAuditLogs fs.read (manifest.paths options.baseDir) manifest.format).finalChecksum =
          last.auditChainChecksum := by
  obtain ⟨start, hs⟩ : ∃ start, AuditManifestVerification.reportIf
      { computedChainChecksum := computeAuditManifestChainChecksum manifest.schemaVersion
          manifest.format manifest.files }
      (computeAuditManifestChainChecksum manifest.schemaVersion manifest.format manifest.files !=
        manifest.chainChecksum) .manifestChainMismatch []
      (text "manifest chain checksum mismatch: expected " ++
        uint64 (computeAuditManifestChainChecksum manifest.schemaVersion manifest.format
          manifest.files) ++ text ", recorded " ++ uint64 manifest.chainChecksum) = start := ⟨_, rfl⟩
  have start_valid : start.valid = true ↔
      computeAuditManifestChainChecksum manifest.schemaVersion manifest.format manifest.files =
        manifest.chainChecksum := by
    rw [← hs, AuditManifestVerification.valid_reportIf]
    simp
  unfold verifyAuditManifest
  simp only [hs, checkManifestSignature_valid]
  by_cases intact : ∀ e ∈ manifest.files, e.Intact fs options.baseDir
  · rw [foldl_intact intact]
    simp only [checkManifestChain, List.nil_append]
    cases last : manifest.files.getLast? with
    | none =>
      simp only [start_valid]
      constructor
      · intro h
        exact ⟨⟨h.1, intact, h.2⟩, fun e he => nomatch he⟩
      · intro h
        exact ⟨h.1.chain, h.1.signature⟩
    | some entry =>
      simp only [AuditManifestVerification.valid_reportIf, Bool.and_eq_true, start_valid,
        Bool.not_eq_true', bne_eq_false_iff_eq, AuditManifest.paths]
      constructor
      · rintro ⟨⟨chain, final⟩, signature⟩
        refine ⟨⟨chain, intact, signature⟩, fun e he => ?_⟩
        obtain rfl : entry = e := Option.some.inj he
        exact final
      · rintro ⟨found, final⟩
        exact ⟨⟨found.chain, final entry rfl⟩, found.signature⟩
  · obtain ⟨e, he, other⟩ : ∃ e ∈ manifest.files, ¬ e.Intact fs options.baseDir := by
      simpa only [not_forall, exists_prop] using intact
    have spoiled := @foldl_other fs options.baseDir { verification := start } e manifest.files he
      other
    simp only [checkManifestChain, spoiled.2]
    constructor
    · intro h
      exact absurd (spoiled.1.symm.trans h.1) Bool.false_ne_true
    · intro h
      exact absurd h.1.intact intact

end Verify

section Tampering

/-- Another length, or exactly one byte changed. -/
def Tampered (contents modified : Text) : Prop :=
  modified.length ≠ contents.length ∨
    ∃ (i : Nat) (hi : i < contents.length) (b : UInt8),
      b ≠ contents[i] ∧ modified = contents.set i b

theorem checksum_tampered {contents modified : Text} (tampered : Tampered contents modified)
    (same : modified.length = contents.length) (seed : UInt64) :
    fnv1aAppend seed modified ≠ fnv1aAppend seed contents := by
  obtain other | ⟨i, hi, b, hb, rfl⟩ := tampered
  · exact absurd same other
  · exact @FoldHash.foldl_set_ne _ _ fnv1aAppendByte (fun _ _ _ h => fnv1aAppendByte_state h)
      (fun _ _ _ h => fnv1aAppendByte_byte h) contents i b hi hb seed

/-- Where a manifest is accepted, a listed file that is tampered with makes it invalid, whatever
happens to the other files. -/
theorem tampering_caught (fs modified : FileSystem) (manifest : AuditManifest)
    (options : AuditManifestVerifyOptions)
    (entry : AuditManifestFileEntry) (before after : Text)
    (accepted : (verifyAuditManifest fs manifest options).valid = true)
    (listed : entry ∈ manifest.files)
    (read : fs.read (entry.path options.baseDir) = some before)
    (reread : modified.read (entry.path options.baseDir) = some after)
    (tampered : Tampered before after) :
    (verifyAuditManifest modified manifest options).valid = false := by
  apply Bool.eq_false_of_not_eq_true
  intro still
  obtain ⟨-, contents, hc, size, checksum, -⟩ :=
    (verifyAuditManifest_valid_iff.mp accepted).1.intact entry listed
  obtain ⟨-, contents', hc', size', checksum', -⟩ :=
    (verifyAuditManifest_valid_iff.mp still).1.intact entry listed
  obtain rfl : before = contents := Option.some.inj (read.symm.trans hc)
  obtain rfl : after = contents' := Option.some.inj (reread.symm.trans hc')
  have same_size : after.length = before.length := by rw [size', size]
  have same_checksum : fnv1aAppend fnvOffsetBasis after = fnv1aAppend fnvOffsetBasis before := by
    rw [checksum', checksum]
  exact checksum_tampered tampered same_size fnvOffsetBasis same_checksum

def FileSystem.holding (path contents : Text) : FileSystem :=
  { present := fun p => p = path, read := fun p => if p = path then some contents else none }

def sampleLog : Text :=
  let entry : RiskAuditEntry := { timestampNs := 5, checkName := text "accepted" }
  formatRiskAuditLogEntry entry (entry.appendToChecksum fnvOffsetBasis) .text

def sampleManifest : AuditManifest :=
  (generateAuditManifest (.holding (text "risk.log") sampleLog) [text "risk.log"]
    { format := .text }).manifest

theorem tampering_caught_one_digit :
    (verifyAuditManifest (.holding (text "risk.log") (sampleLog.set 13 54))
      sampleManifest {}).valid = false :=
  tampering_caught (.holding (text "risk.log") sampleLog) _ sampleManifest {}
    (sampleManifest.files.headD {}) sampleLog _ (by decide +kernel) (by decide +kernel)
    (by decide +kernel) (by decide +kernel)
    (Or.inr ⟨13, by decide +kernel, 54, by decide +kernel, rfl⟩)

end Tampering

section Soundness

/-- Every listed file is intact, and the logs verify through each file with the checksum that its
entry records. -/
def ManifestSound (fs : FileSystem) (manifest : AuditManifest) (baseDir : Text) : Prop :=
  (∀ e ∈ manifest.files, e.Intact fs baseDir) ∧
    ∀ (i : Nat) (hi : i < manifest.files.length),
      let through := auditChainThrough fs (manifest.paths baseDir) (i + 1) manifest.format
      through.valid = true ∧ through.finalChecksum = manifest.files[i].auditChainChecksum

/-- Every line of the listed logs parses and carries the chain on, and each entry but the last
records the chain through its file. -/
structure LogsChain (fs : FileSystem) (manifest : AuditManifest) (baseDir : Text) : Prop where
  lines : auditChainOf fs.read manifest.format fnvOffsetBasis (manifest.paths baseDir) ≠ none
  recorded : ∀ (i : Nat) (hi : i + 1 < manifest.files.length),
    auditChainOf fs.read manifest.format fnvOffsetBasis ((manifest.paths baseDir).take (i + 1)) =
      some manifest.files[i].auditChainChecksum

theorem auditChainThrough_all (fs : FileSystem) (manifest : AuditManifest) (baseDir : Text) :
    auditChainThrough fs (manifest.paths baseDir) manifest.files.length manifest.format =
      verifyRiskAuditLogs fs.read (manifest.paths baseDir) manifest.format := by
  have length : (manifest.paths baseDir).length = manifest.files.length := List.length_map _
  rw [auditChainThrough, ← length, List.take_length]

/-- The logs verify with a checksum exactly where the chain over them has it. -/
theorem chain_iff_verified {files : Text → Option Text} {paths : List Text}
    {format : RiskAuditLogFormat} {checksum : UInt64} :
    auditChainOf files format fnvOffsetBasis paths = some checksum ↔
      (verifyRiskAuditLogs files paths format).valid = true ∧
        (verifyRiskAuditLogs files paths format).finalChecksum = checksum := by
  constructor
  · intro chain
    rw [verify_of_chain chain]
    exact ⟨rfl, rfl⟩
  · rintro ⟨valid, final⟩
    obtain ⟨found, chain⟩ := Option.ne_none_iff_exists'.mp ((verify_valid_iff paths).mp valid)
    rw [verify_of_chain chain] at final
    rw [chain, ← final]

section Accepted
variable {fs : FileSystem} {manifest : AuditManifest} {options : AuditManifestVerifyOptions}
  (accepted : (verifyAuditManifest fs manifest options).valid = true)
include accepted

theorem sound_of_chain (chain : LogsChain fs manifest options.baseDir) :
    ManifestSound fs manifest options.baseDir := by
  obtain ⟨found, final⟩ := verifyAuditManifest_valid_iff.mp accepted
  refine ⟨found.intact, fun i hi => chain_iff_verified.mp ?_⟩
  rcases Nat.lt_or_eq_of_le (Nat.succ_le_of_lt hi) with inner | last
  · exact chain.recorded i inner
  · -- the one recorded checksum that the verifier compares
    have here : manifest.files.getLast? = some manifest.files[i] := by
      rw [List.getLast?_eq_getElem?, ← last, Nat.succ_sub_one]
      exact List.getElem?_eq_getElem hi
    have length : (manifest.paths options.baseDir).length = i + 1 :=
      (List.length_map _).trans last.symm
    rw [← length, List.take_length]
    exact chain_iff_verified.mpr ⟨(verify_valid_iff _).mpr chain.lines, final _ here⟩

omit accepted in
theorem chain_of_sound (sound : ManifestSound fs manifest options.baseDir) :
    LogsChain fs manifest options.baseDir where
  lines := by
    rw [← verify_valid_iff]
    cases count : manifest.files.length with
    | zero =>
      have none : manifest.paths options.baseDir = [] := by
        rw [AuditManifest.paths, List.length_eq_zero_iff.mp count]
        rfl
      rw [none]
      rfl
    | succ n =>
      have last := (sound.2 n (by omega)).1
      rw [← count, auditChainThrough_all] at last
      exact last
  recorded i hi := chain_iff_verified.mpr (sound.2 i (Nat.lt_of_succ_lt hi))

end Accepted

/-- An accepted manifest has intact files. Its chain is sound where what the verifier does not look
at holds: the logs chain line by line, and the entries before the last record the chain. Sound
manifests have that. -/
theorem manifest_sound_of_chain (fs : FileSystem) (manifest : AuditManifest)
    (options : AuditManifestVerifyOptions) :
    let valid := (verifyAuditManifest fs manifest options).valid = true
    (valid → ∀ e ∈ manifest.files, e.Intact fs options.baseDir) ∧
    ((RecordsMatch fs manifest options → LogsChain fs manifest options.baseDir) →
      valid → ManifestSound fs manifest options.baseDir) ∧
    (ManifestSound fs manifest options.baseDir → LogsChain fs manifest options.baseDir) := by
  intro valid
  refine ⟨fun accepted => (verifyAuditManifest_valid_iff.mp accepted).1.intact,
    fun chain accepted => ?_, chain_of_sound⟩
  exact sound_of_chain accepted (chain (verifyAuditManifest_valid_iff.mp accepted).1)

/-- A file that holds no entry is accepted under the checksum of no entries. -/
theorem manifest_sound_fails :
    let fs := FileSystem.holding (text "risk.log") (text "torn\n")
    let entry : AuditManifestFileEntry :=
      { fileName := text "risk.log", recordCount := 1, byteSize := 5
        contentChecksum := fnv1aAppend fnvOffsetBasis (text "torn\n")
        auditChainChecksum := fnvOffsetBasis }
    let manifest : AuditManifest :=
      { files := [entry], chainChecksum := computeAuditManifestChainChecksum 1 .jsonl [entry] }
    ¬ ((verifyAuditManifest fs manifest {}).valid = true →
      ManifestSound fs manifest []) := by
  intro fs entry manifest sound
  have accepted : (verifyAuditManifest fs manifest {}).valid = true := by
    decide +kernel
  have torn : (auditChainThrough fs (manifest.paths []) 1 .jsonl).valid = false := by
    decide
  have claimed := ((sound accepted).2 0 (by decide)).1
  exact Bool.false_ne_true (torn.symm.trans claimed)

end Soundness

end Asterion
