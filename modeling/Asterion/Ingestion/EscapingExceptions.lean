import Asterion.Ingestion.Levels
import Asterion.Ingestion.UpdateContinuity

/-! When the normaliser returns: which lines let an exception escape, and in which states. -/
namespace Asterion
open Lib.Exceptions Lib.Along

def Shown (value : Int) : Prop := value.natAbs < 10 ^ 4300

theorem returns_formatInt {value : Int} : Returns (formatInt value) ↔ Shown value := by
  unfold formatInt Shown
  split
  · rename_i small
    exact iff_of_true (returns_pure _) small
  · rename_i large
    exact iff_of_false (not_returns_throw _) large

theorem returns_formatInts {a b : Int} {S : Type} {f : String → String → S} :
    Returns (formatInt a >>= fun x => formatInt b >>= fun y => (pure (f x y) : Py S)) ↔
      Shown a ∧ Shown b := by
  rw [← returns_formatInt, ← returns_formatInt, returns_bind]
  constructor
  · rintro ⟨x, shown, rest⟩
    obtain ⟨y, shown', -⟩ := returns_bind.mp rest
    exact ⟨⟨x, shown⟩, ⟨y, shown'⟩⟩
  · rintro ⟨⟨x, shown⟩, ⟨y, shown'⟩⟩
    exact ⟨x, shown, returns_bind.mpr ⟨y, shown', returns_pure _⟩⟩

/-- Scaling raises an exception that `_to_ticks` does not catch. -/
def Decimal.Escapes (scale : Nat) : Decimal → Prop
  | .finite _ coefficient exponent =>
    Overflows (rounded (coefficient * scale) exponent).1 (rounded (coefficient * scale) exponent).2
  | .infinity _ => True
  | .nan _ => False

namespace Python
variable {Key : Type} {py : Python Key}

theorem returns_toTicks {text : String} {scale : Nat} :
    Returns (py.toTicks text scale) ↔ ∀ d, py.decimal text = some d → ¬ d.Escapes scale := by
  unfold toTicks
  cases read : py.decimal text with
  | none => exact iff_of_true (returns_pure _) (fun d h => by cases h)
  | some d =>
    simp only [Option.some.injEq, forall_eq']
    cases d with
    | finite negative coefficient exponent =>
      by_cases overflow : Decimal.Overflows
          (Decimal.rounded (coefficient * scale) exponent).1
          (Decimal.rounded (coefficient * scale) exponent).2
      · simp only [Decimal.toScaledInt, overflow, if_true, Decimal.Escapes, not_true, iff_false]
        exact not_returns_throw _
      · refine iff_of_true ?_ overflow
        simp only [Decimal.toScaledInt, overflow, if_false]
        cases negative with
        | true => exact returns_pure _
        | false => exact returns_pure _
    | infinity negative => exact iff_of_false (not_returns_throw _) (fun h => h trivial)
    | nan signalling =>
      cases signalling with
      | true => exact iff_of_true (returns_pure _) (fun h => h)
      | false => exact iff_of_true (returns_pure _) (fun h => h)

/-- The two texts of a level are read without an exception that escapes. -/
def LevelReads (py : Python Key) (level : String × String) : Prop :=
  (∀ d, py.decimal level.1 = some d → ¬ d.Escapes priceScale) ∧
    ∀ d, py.decimal level.2 = some d → ¬ d.Escapes qtyScale

theorem returns_readLevel {level : String × String} :
    Returns (py.readLevel level) ↔ py.LevelReads level := by
  unfold readLevel LevelReads
  rw [← returns_toTicks, ← returns_toTicks, returns_bind]
  constructor
  · rintro ⟨price, read, rest⟩
    obtain ⟨qty, read', -⟩ := returns_bind.mp rest
    exact ⟨⟨price, read⟩, ⟨qty, read'⟩⟩
  · rintro ⟨⟨price, read⟩, ⟨qty, read'⟩⟩
    exact ⟨price, read, returns_bind.mpr ⟨qty, read', returns_pure _⟩⟩

def entryTexts : Json → Option (Json × Json)
  | .array (price :: qty :: _) => some (price, qty)
  | _ => none

/-- A value whose text is a decimal that is no number. -/
def ShowsNan (py : Python Key) (value : Json) : Prop :=
  ∃ text signalling, py.str value = .ok text ∧ py.decimal text = some (.nan signalling)

/-- The entries of a list of levels have texts, and no NaN is compared in the sort. -/
def Lists (py : Python Key) (levels : Option Json) : Prop :=
  ∀ entries, levels = some (.array entries) →
    (∀ pair ∈ entries.filterMap entryTexts, Returns (py.str pair.1) ∧ Returns (py.str pair.2)) ∧
    ¬ (2 ≤ (entries.filterMap entryTexts).length ∧
      ∃ pair ∈ entries.filterMap entryTexts, py.ShowsNan pair.1)

theorem levelTexts_eq (entry : Json) :
    py.levelTexts entry =
      match entryTexts entry with
      | some (price, qty) => py.str price >>= fun p => py.str qty >>= fun q => pure [(p, q)]
      | none => pure [] := by
  cases entry with
  | array values =>
    cases values with
    | nil => rfl
    | cons price rest =>
      cases rest with
      | nil => rfl
      | cons qty rest => rfl
  | null => rfl
  | bool value => rfl
  | int value => rfl
  | float repr => rfl
  | string value => rfl
  | object fields => rfl

theorem returns_levelTexts {entry : Json} :
    Returns (py.levelTexts entry) ↔ ∀ pair, entryTexts entry = some pair →
      Returns (py.str pair.1) ∧ Returns (py.str pair.2) := by
  rw [levelTexts_eq]
  cases entryTexts entry with
  | none => exact iff_of_true (returns_pure _) (fun _ h => by cases h)
  | some pair =>
    simp only [Option.some.injEq, forall_eq']
    rw [returns_bind]
    constructor
    · rintro ⟨p, text, rest⟩
      obtain ⟨q, text', -⟩ := returns_bind.mp rest
      exact ⟨⟨p, text⟩, ⟨q, text'⟩⟩
    · rintro ⟨⟨p, text⟩, ⟨q, text'⟩⟩
      exact ⟨p, text, returns_bind.mpr ⟨q, text', returns_pure _⟩⟩

/-- The items to be sorted, one for each entry that has two entries of its own. -/
theorem listed_items {entries : List Json} {out : List (List (String × String))}
    (h : entries.mapM py.levelTexts = .ok out) :
    out.flatten.length = (entries.filterMap entryTexts).length ∧
      (out.flatten.any (fun item => (py.levelKey item).isNan) ↔
        ∃ pair ∈ entries.filterMap entryTexts, py.ShowsNan pair.1) := by
  induction entries generalizing out with
  | nil =>
    obtain rfl := pure_eq_ok.mp h
    simp
  | cons entry entries ih =>
    obtain ⟨items, rest, first, others, rfl⟩ := mapM_cons_eq_ok.mp h
    obtain ⟨length, nan⟩ := ih others
    rw [levelTexts_eq] at first
    cases found : entryTexts entry with
    | none =>
      simp only [found] at first
      obtain rfl := pure_eq_ok.mp first
      rw [List.filterMap_cons_none found, List.flatten_cons, List.nil_append]
      exact ⟨length, nan⟩
    | some pair =>
      simp only [found, bind_eq_ok] at first
      obtain ⟨p, text, q, -, first⟩ := first
      obtain rfl := pure_eq_ok.mp first
      have shows : (py.levelKey (p, q)).isNan ↔ py.ShowsNan pair.1 := by
        unfold levelKey ShowsNan
        simp only [text, Except.ok.injEq, exists_and_left, exists_eq_left']
        cases py.decimal p with
        | none => simp [Decimal.isNan]
        | some d => cases d <;> simp [Decimal.isNan]
      rw [List.filterMap_cons_some found, List.flatten_cons, List.any_append, List.length_append,
        List.length_cons, List.exists_mem_cons_iff, ← nan, ← shows, length]
      simp
      omega

theorem returns_sortLevels {out : List (String × String)} {descending : Bool} :
    Returns (py.sortLevels out descending) ↔
      ¬ (2 ≤ out.length ∧ out.any (fun item => (py.levelKey item).isNan)) := by
  unfold sortLevels
  split
  · rename_i compared
    exact iff_of_false (not_returns_throw _) (fun h => h compared)
  · rename_i numbers
    exact iff_of_true (returns_pure _) numbers

theorem returns_iterLevels {levels : Option Json} {descending : Bool} :
    Returns (py.iterLevels levels descending) ↔ py.Lists levels := by
  unfold iterLevels Lists
  split
  · rename_i entries
    simp only [Option.some.injEq, Json.array.injEq, forall_eq']
    have texts : Returns (entries.mapM py.levelTexts) ↔
        ∀ pair ∈ entries.filterMap entryTexts,
          Returns (py.str pair.1) ∧ Returns (py.str pair.2) := by
      rw [returns_mapM]
      simp only [returns_levelTexts, List.mem_filterMap, forall_exists_index, and_imp]
      exact ⟨fun h pair entry mem found => h entry mem pair found,
        fun h entry mem pair found => h pair entry mem found⟩
    rw [returns_bind, ← texts]
    constructor
    · rintro ⟨out, all, sorted⟩
      obtain ⟨length, nan⟩ := listed_items all
      rw [returns_sortLevels, length, nan] at sorted
      exact ⟨⟨out, all⟩, sorted⟩
    · rintro ⟨⟨out, all⟩, sorted⟩
      obtain ⟨length, nan⟩ := listed_items all
      rw [← length, ← nan] at sorted
      exact ⟨out, all, returns_sortLevels.mpr sorted⟩
  · rename_i other
    exact iff_of_true (returns_pure _) (fun entries h => absurd h (other entries))

theorem returns_sidedLevels {msg : List (String × Json)} {bids asks : String} :
    Returns (py.sidedLevels msg bids asks) ↔
      py.Lists (Json.get msg bids) ∧ py.Lists (Json.get msg asks) := by
  have first : Returns (py.iterLevels (Json.get msg bids) true) ↔ _ := returns_iterLevels
  have second : Returns (py.iterLevels (Json.get msg asks) false) ↔ _ := returns_iterLevels
  unfold sidedLevels
  rw [← first, ← second, returns_bind]
  constructor
  · rintro ⟨bought, listed, rest⟩
    obtain ⟨sold, listed', -⟩ := returns_bind.mp rest
    exact ⟨⟨bought, listed⟩, ⟨sold, listed'⟩⟩
  · rintro ⟨⟨bought, listed⟩, ⟨sold, listed'⟩⟩
    exact ⟨bought, listed, returns_bind.mpr ⟨sold, listed', returns_pure _⟩⟩

end Python

namespace Normaliser
variable {Key : Type}

/-- The event time of a diff is reported without an exception. -/
def TimeShows (s : Normaliser Key) (symbolId : Nat) (tsNs : Int) : Prop :=
  ∀ last, s.lastEventTime.lookup symbolId = some last → tsNs < last → Shown tsNs ∧ Shown last

def UpdateShows (s : Normaliser Key) (symbolId : Nat) (firstId finalId : Option Int) : Prop :=
  ∀ first final last, firstId = some first → finalId = some final →
    s.lastUpdateId.lookup symbolId = some last →
      (final ≤ last → Shown final ∧ Shown last) ∧
        (last < final → last + 1 < first → Shown first ∧ Shown (last + 1))

def SnapshotIdShows (s : Normaliser Key) (symbolId : Nat) (lastId : Option Int) : Prop :=
  ∀ id last, lastId = some id → s.lastUpdateId.lookup symbolId = some last → id < last →
    Shown id ∧ Shown last

def CrossShows (s : Normaliser Key) (symbolId : Nat) : Prop :=
  ∀ bid ask, s.bestBidAsk symbolId = (some bid, some ask) → ask ≤ bid → Shown bid ∧ Shown ask

def LevelReturns (py : Python Key) (symbolId : Nat) (s : Normaliser Key)
    (level : Side × String × String) : Prop :=
  py.LevelReads level.2 ∧ ∀ p, py.readLevel level.2 = .ok (.remove p) →
    s.active.lookup (symbolId, level.1, p) = none → Shown p

variable {py : Python Key} {rawIndex symbolId : Nat} {tsNs : Int} {s t : Normaliser Key}

theorem returns_checkEventTime :
    Returns (s.checkEventTime rawIndex symbolId tsNs) ↔ s.TimeShows symbolId tsNs := by
  unfold checkEventTime
  rw [returns_bind_pure]
  unfold reportEventTime TimeShows
  cases known : s.lastEventTime.lookup symbolId with
  | none => exact iff_of_true (returns_pure _) (fun _ h => by cases h)
  | some last =>
    simp only [Option.some.injEq, forall_eq']
    split
    · rename_i back
      exact returns_formatInts.trans ⟨fun shown _ => shown, fun shown => shown back⟩
    · rename_i on
      exact iff_of_true (returns_pure _) (fun back => absurd back on)

theorem returns_checkUpdate {firstId finalId : Option Int} :
    Returns (s.checkUpdate rawIndex symbolId firstId finalId) ↔
      s.UpdateShows symbolId firstId finalId := by
  unfold checkUpdate UpdateShows
  cases firstId with
  | none => exact iff_of_true (returns_pure _) (fun _ _ _ h => by cases h)
  | some first =>
    cases finalId with
    | none => exact iff_of_true (returns_pure _) (fun _ _ _ _ h => by cases h)
    | some final =>
      simp only
      rw [returns_bind_pure]
      unfold reportUpdate
      cases known : s.lastUpdateId.lookup symbolId with
      | none => exact iff_of_true (returns_pure _) (fun _ _ _ _ _ h => by cases h)
      | some last =>
        have conditions : (∀ a b c, some first = some a → some final = some b →
            some last = some c → (b ≤ c → Shown b ∧ Shown c) ∧
              (c < b → c + 1 < a → Shown a ∧ Shown (c + 1))) ↔
            (final ≤ last → Shown final ∧ Shown last) ∧
              (last < final → last + 1 < first → Shown first ∧ Shown (last + 1)) :=
          ⟨fun h => h first final last rfl rfl rfl, by rintro h _ _ _ ⟨⟩ ⟨⟩ ⟨⟩; exact h⟩
        rw [conditions]
        simp only
        split
        · rename_i stale
          exact returns_formatInts.trans
            ⟨fun shown => ⟨fun _ => shown, fun fresh => absurd fresh (not_lt.mpr stale)⟩,
              fun shown => shown.1 stale⟩
        · rename_i fresh
          split
          · rename_i gap
            exact returns_formatInts.trans
              ⟨fun shown => ⟨fun stale => absurd stale fresh, fun _ _ => shown⟩,
                fun shown => shown.2 (not_le.mp fresh) gap⟩
          · rename_i closed
            exact iff_of_true (returns_pure _)
              ⟨fun stale => absurd stale fresh, fun _ gap => absurd gap closed⟩

theorem returns_checkSnapshotId {lastId : Option Int} :
    Returns (s.checkSnapshotId rawIndex symbolId lastId) ↔
      s.SnapshotIdShows symbolId lastId := by
  unfold checkSnapshotId SnapshotIdShows
  cases lastId with
  | none => exact iff_of_true (returns_pure _) (fun _ _ h => by cases h)
  | some id =>
    simp only
    rw [returns_bind_pure]
    unfold reportSnapshotId
    cases known : s.lastUpdateId.lookup symbolId with
    | none => exact iff_of_true (returns_pure _) (fun _ _ _ h => by cases h)
    | some last =>
      simp only
      split
      · rename_i back
        refine returns_formatInts.trans ⟨?_, fun shown => shown id last rfl rfl back⟩
        rintro shown _ _ ⟨⟩ ⟨⟩ -
        exact shown
      · rename_i on
        refine iff_of_true (returns_pure _) ?_
        rintro _ _ ⟨⟩ ⟨⟩ back
        exact absurd back on

theorem returns_checkCrossed :
    Returns (s.checkCrossed rawIndex symbolId) ↔ s.CrossShows symbolId := by
  unfold checkCrossed CrossShows
  split
  · rename_i bid ask best
    rw [best]
    split
    · rename_i crossed
      refine returns_formatInts.trans ⟨?_, fun shown => shown bid ask rfl crossed⟩
      rintro shown _ _ ⟨⟩ -
      exact shown
    · rename_i apart
      refine iff_of_true (returns_pure _) ?_
      rintro _ _ ⟨⟩ crossed
      exact absurd crossed apart
  · rename_i other
    exact iff_of_true (returns_pure _) (fun bid ask best => absurd best (other bid ask))

theorem returns_removeLevel {key : LevelKey} :
    Returns (s.removeLevel rawIndex tsNs key) ↔ (s.active.lookup key = none → Shown key.2.2) := by
  unfold removeLevel
  cases found : s.active.lookup key with
  | none =>
    simp only [forall_const]
    rw [returns_bind_pure, returns_formatInt]
  | some orderId => exact iff_of_true (returns_pure _) (fun h => by cases h)

theorem returns_applySided {level : Side × String × String} :
    Returns (applySided py rawIndex tsNs symbolId s level) ↔
      LevelReturns py symbolId s level := by
  rw [applySided_eq, returns_bind]
  unfold LevelReturns
  rw [← Python.returns_readLevel]
  constructor
  · rintro ⟨r, read, rest⟩
    refine ⟨⟨r, read⟩, fun p removes absent => ?_⟩
    obtain rfl : r = .remove p := Except.ok.inj (read.symm.trans removes)
    exact returns_removeLevel.mp rest absent
  · rintro ⟨⟨r, read⟩, removes⟩
    refine ⟨r, read, ?_⟩
    cases r with
    | badPrice => exact returns_pure _
    | badQuantity => exact returns_pure _
    | remove p => exact returns_removeLevel.mpr (removes p read)
    | set p q => exact returns_pure _

theorem returns_collectSided {c : Normaliser Key × List (Side × Int × Int)}
    {level : Side × String × String} :
    Returns (collectSided py rawIndex c level) ↔ py.LevelReads level.2 := by
  rw [collectSided_eq, returns_bind, ← Python.returns_readLevel]
  constructor
  · rintro ⟨r, read, -⟩
    exact ⟨r, read⟩
  · rintro ⟨r, read⟩
    refine ⟨r, read, ?_⟩
    cases r with
    | badPrice => exact returns_pure _
    | badQuantity => exact returns_pure _
    | remove p => exact returns_pure _
    | set p q => exact returns_pure _

theorem Alike.crossShows (h : Alike s t) : t.CrossShows symbolId ↔ s.CrossShows symbolId := by
  unfold CrossShows bestBidAsk prices
  rw [h.levels]

/-- The levels of a diff and the check for crossing behind them raise nothing that escapes. -/
def LevelsReturn (py : Python Key) (rawIndex : Nat) (tsNs : Int) (symbolId : Nat)
    (s : Normaliser Key) (levels : List (Side × String × String)) : Prop :=
  Each (next (applySided py rawIndex tsNs symbolId)) (LevelReturns py symbolId) s levels ∧
    (levels.foldl (next (applySided py rawIndex tsNs symbolId)) s).CrossShows symbolId

theorem returns_levels {levels : List (Side × String × String)} (alike : Alike t s) :
    Returns (levels.foldlM (applySided py rawIndex tsNs symbolId) s >>= fun d =>
        d.checkCrossed rawIndex symbolId) ↔
      LevelsReturn py rawIndex tsNs symbolId t levels := by
  have conditions : Each (next (applySided py rawIndex tsNs symbolId)) (LevelReturns py symbolId) t
      levels ↔ Returns (levels.foldlM (applySided py rawIndex tsNs symbolId) t) := by
    rw [returns_foldlM]
    exact ⟨fun each => each.imp (fun _ _ => returns_applySided.mpr),
      fun each => each.imp (fun _ _ => returns_applySided.mp)⟩
  unfold LevelsReturn
  rw [conditions, returns_bind]
  constructor
  · rintro ⟨d, run, crossed⟩
    obtain ⟨d', run', same⟩ := alike.symm.applyLevels run
    rw [foldlM_eq_foldl run']
    exact ⟨⟨d', run'⟩, same.crossShows.mpr (returns_checkCrossed.mp crossed)⟩
  · rintro ⟨⟨d, run⟩, crossed⟩
    obtain ⟨d', run', same⟩ := alike.applyLevels run
    rw [foldlM_eq_foldl run] at crossed
    exact ⟨d', run', returns_checkCrossed.mpr (same.crossShows.mpr crossed)⟩

variable [DecidableEq Key] {msg : List (String × Json)} {symbol : Key}

def DiffReturns (py : Python Key) (rawIndex : Nat) (tsNs : Int) (msg : List (String × Json))
    (symbolId : Nat) (s : Normaliser Key) : Prop :=
  s.TimeShows symbolId tsNs ∧
    s.UpdateShows symbolId ((Json.get msg "U").bind Json.asInt) ((Json.get msg "u").bind Json.asInt) ∧
    py.Lists (Json.get msg "b") ∧ py.Lists (Json.get msg "a") ∧
    ∀ levels, py.sidedLevels msg "b" "a" = .ok levels →
      LevelsReturn py rawIndex tsNs symbolId s levels

def SnapshotReturns (py : Python Key) (tsNs : Int) (msg : List (String × Json))
    (symbolId : Nat) (s : Normaliser Key) : Prop :=
  s.SnapshotIdShows symbolId ((Json.get msg "lastUpdateId").bind Json.asInt) ∧
    py.Lists (Json.get msg "bids") ∧ py.Lists (Json.get msg "asks") ∧
    ∀ levels, py.sidedLevels msg "bids" "asks" = .ok levels →
      (∀ level ∈ levels, py.LevelReads level.2) ∧
        (s.rebuild tsNs symbolId (levels.filterMap py.setBy)).CrossShows symbolId

theorem returns_handleDiff {u : Normaliser Key} (start : Alike u (s.symbolId symbol).2)
    (times : (s.symbolId symbol).2.lastEventTime = u.lastEventTime)
    (updates : (s.symbolId symbol).2.lastUpdateId = u.lastUpdateId) :
    Returns (s.handleDiff py rawIndex msg symbol tsNs) ↔
      DiffReturns py rawIndex tsNs msg (s.symbolId symbol).1 u := by
  have time : (s.symbolId symbol).2.TimeShows (s.symbolId symbol).1 tsNs ↔
      u.TimeShows (s.symbolId symbol).1 tsNs := by
    unfold TimeShows
    rw [times]
  unfold DiffReturns
  rw [← time]
  constructor
  · rintro ⟨t, h⟩
    obtain ⟨a, b, levels, d, timed, update, listed, run, crossed⟩ := handleDiff_eq_ok.mp h
    have kept : a.lastUpdateId = u.lastUpdateId :=
      (Quiet.checkEventTime timed).lastUpdateId.trans updates
    have shows := returns_checkUpdate.mp ⟨b, update⟩
    obtain ⟨bids, asks⟩ := Python.returns_sidedLevels.mp ⟨levels, listed⟩
    refine ⟨returns_checkEventTime.mp ⟨a, timed⟩, ?_, bids, asks, fun others listed' => ?_⟩
    · unfold UpdateShows at shows ⊢
      rw [kept] at shows
      exact shows
    · obtain rfl : levels = others := Except.ok.inj (listed.symm.trans listed')
      have alike := (start.trans (Alike.checkEventTime timed)).trans (Alike.checkUpdate update)
      exact (returns_levels alike).mp ⟨t, bind_eq_ok.mpr ⟨d, run, crossed⟩⟩
  · rintro ⟨timed, update, bids, asks, run⟩
    have returned : Returns
        ((s.symbolId symbol).2.checkEventTime rawIndex (s.symbolId symbol).1 tsNs) :=
      returns_checkEventTime.mpr timed
    obtain ⟨a, timed⟩ := returned
    have kept : a.lastUpdateId = u.lastUpdateId :=
      (Quiet.checkEventTime timed).lastUpdateId.trans updates
    have shows : a.UpdateShows (s.symbolId symbol).1 ((Json.get msg "U").bind Json.asInt)
        ((Json.get msg "u").bind Json.asInt) := by
      unfold UpdateShows at update ⊢
      rw [kept]
      exact update
    obtain ⟨b, update⟩ := returns_checkUpdate.mpr shows
    obtain ⟨levels, listed⟩ := Python.returns_sidedLevels.mpr ⟨bids, asks⟩
    have alike := (start.trans (Alike.checkEventTime timed)).trans (Alike.checkUpdate update)
    obtain ⟨t, done⟩ := (returns_levels alike).mpr (run levels listed)
    obtain ⟨d, run, crossed⟩ := bind_eq_ok.mp done
    exact ⟨t, handleDiff_eq_ok.mpr ⟨a, b, levels, d, timed, update, listed, run, crossed⟩⟩

omit [DecidableEq Key] in
theorem returns_collected {levels : List (Side × String × String)}
    {c : Normaliser Key × List (Side × Int × Int)} :
    Returns (levels.foldlM (collectSided py rawIndex) c) ↔ ∀ level ∈ levels, py.LevelReads level.2 := by
  rw [returns_foldlM]
  constructor
  · intro each
    exact forall_of_each (each.imp (fun _ _ => returns_collectSided.mp))
  · intro all
    exact (each_of_forall all).imp (fun _ _ => returns_collectSided.mpr)

theorem returns_handleSnapshot {u : Normaliser Key} (start : Alike u (s.symbolId symbol).2)
    (updates : (s.symbolId symbol).2.lastUpdateId = u.lastUpdateId) :
    Returns (s.handleSnapshot py rawIndex msg symbol tsNs) ↔
      SnapshotReturns py tsNs msg (s.symbolId symbol).1 u := by
  have ids : (s.symbolId symbol).2.SnapshotIdShows (s.symbolId symbol).1
      ((Json.get msg "lastUpdateId").bind Json.asInt) ↔
      u.SnapshotIdShows (s.symbolId symbol).1 ((Json.get msg "lastUpdateId").bind Json.asInt) := by
    unfold SnapshotIdShows
    rw [updates]
  unfold SnapshotReturns
  rw [← ids]
  constructor
  · rintro ⟨t, h⟩
    obtain ⟨a, levels, d, checked, listed, run, crossed⟩ := handleSnapshot_eq_ok.mp h
    obtain ⟨bids, asks⟩ := Python.returns_sidedLevels.mp ⟨levels, listed⟩
    refine ⟨returns_checkSnapshotId.mp ⟨a, checked⟩, bids, asks, fun others listed' => ?_⟩
    obtain rfl : levels = others := Except.ok.inj (listed.symm.trans listed')
    obtain ⟨kept, all⟩ := collected run
    have alike := (start.trans (Alike.checkSnapshotId checked)).trans kept
    rw [List.nil_append] at all
    rw [all] at crossed
    exact ⟨returns_collected.mp ⟨d, run⟩,
      (alike.rebuild _).crossShows.mp (returns_checkCrossed.mp ⟨t, crossed⟩)⟩
  · rintro ⟨checked, bids, asks, run⟩
    have returned : Returns ((s.symbolId symbol).2.checkSnapshotId rawIndex (s.symbolId symbol).1
        ((Json.get msg "lastUpdateId").bind Json.asInt)) := returns_checkSnapshotId.mpr checked
    obtain ⟨a, checked⟩ := returned
    obtain ⟨levels, listed⟩ := Python.returns_sidedLevels.mpr ⟨bids, asks⟩
    obtain ⟨reads, crossed⟩ := run levels listed
    have collects : Returns (levels.foldlM (collectSided py rawIndex) (a, [])) :=
      returns_collected.mpr reads
    obtain ⟨d, run⟩ := collects
    obtain ⟨kept, all⟩ := collected run
    have alike := (start.trans (Alike.checkSnapshotId checked)).trans kept
    rw [List.nil_append] at all
    rw [← all] at crossed
    have shows : Returns ((d.1.rebuild tsNs (s.symbolId symbol).1 d.2).checkCrossed rawIndex
        (s.symbolId symbol).1) := returns_checkCrossed.mpr ((alike.rebuild _).crossShows.mpr crossed)
    obtain ⟨t, crossed⟩ := shows
    exact ⟨t, handleSnapshot_eq_ok.mpr ⟨a, levels, d, checked, listed, run, crossed⟩⟩

/-- A line raises nothing that escapes: its text is decoded or rejected, a message that reaches no
handler has a key for its symbol or none at all or can be shown, and its handler returns. -/
def LineReturns (py : Python Key) (s : Normaliser Key) (line : String × Nat) : Prop :=
  match py.message line.1, handled py line with
  | none, _ => py.strip line.1 = "" ∨ ∀ exception, py.loads (py.strip line.1) ≠ .raised exception
  | some e, none =>
    if e.isDiff ∨ e.isSnapshot then e.symbol = none
    else Returns (py.repr ((Json.get e.msg "e").getD (.string "unknown")))
  | some _, some (e, symbol) =>
    if e.isDiff then
      DiffReturns py line.2 (s.messageTime e symbol) e.msg (s.symbolId symbol).1
        (s.symbolId symbol).2
    else
      SnapshotReturns py (s.messageTime e symbol) e.msg (s.symbolId symbol).1 (s.symbolId symbol).2

theorem returns_feedLine {line : String × Nat} :
    Returns (s.feedLine py line.2 line.1) ↔ LineReturns py s line := by
  unfold LineReturns
  cases message : py.message line.1 with
  | none =>
    unfold Python.message at message
    simp only [feedLine]
    split
    · rename_i empty
      exact iff_of_true (returns_pure _) (.inl empty)
    · rename_i shown
      cases loaded : py.loads (py.strip line.1) with
      | raised exception =>
        refine iff_of_false (not_returns_throw _) ?_
        rintro (empty | other)
        · exact shown empty
        · exact other exception rfl
      | decodeError text => exact iff_of_true (returns_pure _) (.inr fun _ h => by cases h)
      | value value =>
        refine iff_of_true ?_ (.inr fun _ h => by cases h)
        cases value with
        | object obj =>
          simp only [shown, if_false, loaded] at message
          split at message
          · rename_i banner
            simp only [banner, if_true]
            exact returns_pure _
          · cases message
        | null => exact returns_pure _
        | bool value => exact returns_pure _
        | int value => exact returns_pure _
        | float repr => exact returns_pure _
        | string text => exact returns_pure _
        | array values => exact returns_pure _
  | some e =>
    cases found : handled py line with
    | none =>
      rw [feedLine_message message]
      simp only
      by_cases kind : e.isDiff ∨ e.isSnapshot
      · have unkeyed : e.symbolKey py line.2 = none := by
          simpa [handled, message, kind] using found
        rw [if_pos kind, feedMessage_unkeyed kind unkeyed]
        cases e.symbol with
        | none => exact iff_of_true (returns_pure _) rfl
        | some symbol => exact iff_of_false (not_returns_throw _) (fun h => by cases h)
      · rw [if_neg kind]
        push Not at kind
        rw [feedMessage_unknown (by simpa using kind.1) (by simpa using kind.2), returns_bind_pure]
    | some both =>
      obtain ⟨e', symbol⟩ := both
      rw [feedLine_handled found]
      simp only
      have named := symbolId_counted s symbol
      split
      · have same : (s.counted.symbolId symbol).1 = (s.symbolId symbol).1 := by rw [named]
        have conditions : Returns (s.counted.handleDiff py line.2 e'.msg symbol
            (s.messageTime e' symbol)) ↔ DiffReturns py line.2 (s.messageTime e' symbol) e'.msg
              (s.counted.symbolId symbol).1 (s.symbolId symbol).2 :=
          returns_handleDiff (by rw [named]; exact Alike.counted _) (by rw [named]; rfl)
            (by rw [named]; rfl)
        rw [same] at conditions
        exact conditions
      · have timed : ((s.symbolId symbol).2.counted.timed (s.symbolId symbol).1
            (s.messageTime e' symbol)).symbolId symbol =
              ((s.symbolId symbol).1, (s.symbolId symbol).2.counted.timed (s.symbolId symbol).1
                (s.messageTime e' symbol)) :=
          symbolId_found (symbolId_lookup s symbol)
        have same : (((s.symbolId symbol).2.counted.timed (s.symbolId symbol).1
            (s.messageTime e' symbol)).symbolId symbol).1 = (s.symbolId symbol).1 := by rw [timed]
        have conditions : Returns (((s.symbolId symbol).2.counted.timed (s.symbolId symbol).1
            (s.messageTime e' symbol)).handleSnapshot py line.2 e'.msg symbol
              (s.messageTime e' symbol)) ↔
            SnapshotReturns py (s.messageTime e' symbol) e'.msg
              (((s.symbolId symbol).2.counted.timed (s.symbolId symbol).1
                (s.messageTime e' symbol)).symbolId symbol).1 (s.symbolId symbol).2 :=
          returns_handleSnapshot
            (by rw [timed]; exact (Alike.counted _).trans (Alike.timed _ _ _)) (by rw [timed]; rfl)
        rw [same] at conditions
        exact conditions

/-- The normaliser returns exactly where no line raises an exception that escapes, in the state
before it. -/
theorem normaliseLines_returns_iff {lines : List String} :
    Returns (normaliseLines py lines) ↔
      Each (next (fun s line => s.feedLine py line.2 line.1)) (LineReturns py) {} lines.zipIdx := by
  unfold normaliseLines
  rw [returns_foldlM]
  exact ⟨fun each => each.imp (fun _ _ => returns_feedLine.mp),
    fun each => each.imp (fun _ _ => returns_feedLine.mpr)⟩

def endlessUpdate : Json :=
  .object [("e", .string "depthUpdate"), ("s", .string "X"), ("U", .int 1), ("u", .int 1),
    ("b", .array [.array [.string "Infinity", .string "1"]]), ("a", .array [])]

def endlessText : String :=
  "\x7b\"e\":\"depthUpdate\",\"s\":\"X\",\"U\":1,\"u\":1,\"b\":[[\"Infinity\",\"1\"]],\"a\":[]\x7d"

def endlessPython : Python String where
  strip text := text
  loads text := if text = endlessText then .value endlessUpdate else .decodeError "Expecting value"
  decimal text :=
    if text = "Infinity" then some (.infinity false)
    else if text = "1" then some (.finite false 1 0)
    else none
  strOther _ := throw .recursionError
  repr _ := throw .recursionError
  reprString text := text
  key _ value :=
    match value with
    | .string text => some text
    | _ => none

/-- `int` of an infinite decimal raises an `OverflowError`, which is not caught. -/
theorem infinity_escapes :
    (normaliseLines endlessPython [endlessText]).map (·.seq) = .error .overflowError := by
  decide +kernel

end Normaliser
end Asterion
