import Asterion.Risk.RateLimit

/-! The fixed window of the message-rate limit. Its counter goes on behind a refusal and wraps, so
the limit holds in a window exactly as long as the window has fewer calls than the counter has
values. -/
namespace Asterion
open Lib Lib.RateWindows

def counterModulus : Nat := 2 ^ 32

/-- The start of the window of each call, from the times of the calls of one client. -/
def windowStarts (fit : Int → Int) (width : Int) (times : List Int) : List Int :=
  starts (fun s t => decide (width ≤ fit (t - s))) none times

theorem windowStarts_two {fit : Int → Int} (closes : ∀ x, 0 ≤ x → fit x ≤ x) {width : Int}
    (positive : 0 < width) {times : List Int} (ordered : times.Pairwise (· ≤ ·)) (low : Int) :
    ∃ s s', ∀ e ∈ times.zip (windowStarts fit width times),
      low ≤ e.1 → e.1 < low + width → e.2 = s ∨ e.2 = s' := by
  cases times with
  | nil => exact ⟨0, 0, fun e he => by simp at he⟩
  | cons t times =>
    have first : windowStarts fit width (t :: times) =
        starts (fun s t => decide (width ≤ fit (t - s))) (some t) (t :: times) := by
      simp [windowStarts, starts]
    have later : ∀ u ∈ t :: times, t ≤ u := by
      intro u hu
      rcases List.mem_cons.mp hu with rfl | hu
      · exact le_refl u
      · exact List.rel_of_pairwise_cons ordered hu
    rw [first]
    refine two_windows (pairwise_starts ?_ ordered later) positive (starts_le later ordered) low
    intro s u le opens
    have gap := closes (u - s) (by omega)
    have wide := of_decide_eq_true opens
    omega

namespace RateState

def opened (state : RateState) : Option Int :=
  if state.active then some state.windowStartNs else none

section Fixed
variable {fit : Int → Int} {limits : RiskLimits}
variable (fixed : limits.rateLimitMode = .fixedWindow)
include fixed

theorem tick_fixed (state : RateState) (nowNs : Int) :
    state.tick fit limits nowNs =
      if state.active = false ∨ fit (nowNs - state.windowStartNs) ≥ limits.rateWindowNs then
        { state with windowStartNs := nowNs, count := 1, active := true }
      else { state with count := (state.count + 1) % 2 ^ 32 } := by
  rw [tick, if_neg (by simp [fixed])]

theorem tick_active (state : RateState) (nowNs : Int) :
    (state.tick fit limits nowNs).active = true := by
  rw [tick_fixed fixed]
  split
  · rfl
  · rename_i open'
    rw [not_or] at open'
    simpa using open'.1

theorem starts_foldl (state : RateState) (times : List Int) (nowNs : Int) :
    starts (fun s t => decide (limits.rateWindowNs ≤ fit (t - s))) state.opened (times ++ [nowNs]) =
      starts (fun s t => decide (limits.rateWindowNs ≤ fit (t - s))) state.opened times ++
        [((times ++ [nowNs]).foldl (tick fit limits) state).windowStartNs] := by
  have step : ∀ (state : RateState) (t : Int) (times : List Int),
      starts (fun s t => decide (limits.rateWindowNs ≤ fit (t - s))) state.opened (t :: times) =
        (state.tick fit limits t).windowStartNs ::
          starts (fun s t => decide (limits.rateWindowNs ≤ fit (t - s)))
            (state.tick fit limits t).opened times := by
    intro state t times
    rw [opened, opened, tick_active fixed, if_pos rfl]
    cases active : state.active with
    | false => simp [starts, tick_fixed fixed, active]
    | true =>
      by_cases late : limits.rateWindowNs ≤ fit (t - state.windowStartNs)
      · simp [starts, tick_fixed fixed, active, late]
      · simp [starts, tick_fixed fixed, active, late]
  induction times generalizing state with
  | nil =>
    rw [List.nil_append, step]
    rfl
  | cons t times ih => rw [List.cons_append, step, ih, step, List.cons_append, List.foldl_cons]

theorem windowStarts_append (times : List Int) (nowNs : Int) :
    windowStarts fit limits.rateWindowNs (times ++ [nowNs]) =
      windowStarts fit limits.rateWindowNs times ++
        [((times ++ [nowNs]).foldl (tick fit limits) {}).windowStartNs] :=
  starts_foldl fixed {} times nowNs

/-- The counter of the open window has counted its calls, and wraps. -/
theorem fixed_state (closes : ∀ x, 0 ≤ x → fit x ≤ x) (width : 0 < limits.rateWindowNs)
    {times : List Int} {nowNs : Int} (ordered : (times ++ [nowNs]).Pairwise (· ≤ ·)) :
    let state := (times ++ [nowNs]).foldl (tick fit limits) {}
    let opened := windowStarts fit limits.rateWindowNs (times ++ [nowNs])
    (∀ s ∈ opened, s ≤ state.windowStartNs) ∧ state.windowStartNs ≤ nowNs ∧
      state.count = opened.count state.windowStartNs % counterModulus := by
  induction times using List.reverseRecOn generalizing nowNs with
  | nil =>
    have first : tick fit limits {} nowNs =
        { windowStartNs := nowNs, count := 1, active := true } := by
      rw [tick_fixed fixed, if_pos (Or.inl rfl)]
    simp [first, windowStarts, starts, counterModulus]
  | append_singleton times last ih =>
    obtain ⟨ordered', -, before⟩ := List.pairwise_append.mp ordered
    obtain ⟨upper, begun, counted⟩ := ih ordered'
    have late : last ≤ nowNs := before last (by simp) nowNs (by simp)
    have active : ((times ++ [last]).foldl (tick fit limits) {}).active = true := by
      rw [List.foldl_append]
      exact tick_active fixed _ _
    dsimp only at upper begun counted ⊢
    rw [windowStarts_append fixed, List.foldl_append, List.foldl_cons, List.foldl_nil,
      List.count_append, List.count_singleton_self]
    generalize (times ++ [last]).foldl (tick fit limits) {} = state at *
    generalize windowStarts fit limits.rateWindowNs (times ++ [last]) = opened at *
    rw [tick_fixed fixed]
    by_cases closed : fit (nowNs - state.windowStartNs) ≥ limits.rateWindowNs
    · rw [if_pos (Or.inr closed)]
      have apart := closes (nowNs - state.windowStartNs) (by omega)
      have unseen : opened.count nowNs = 0 := by
        rw [List.count_eq_zero]
        intro member
        have bound := upper nowNs member
        omega
      refine ⟨fun s hs => ?_, le_refl nowNs, ?_⟩
      · rcases List.mem_append.mp hs with old | new
        · have bound := upper s old
          dsimp only
          omega
        · exact (List.mem_singleton.mp new).le
      · rw [unseen]
        rfl
    · rw [if_neg (by simp [active]; omega)]
      refine ⟨fun s hs => ?_, begun.trans late, ?_⟩
      · rcases List.mem_append.mp hs with old | new
        · exact upper s old
        · exact (List.mem_singleton.mp new).le
      · rw [counted]
        exact Nat.mod_add_mod _ _ _

end Fixed
end RateState

namespace RiskGateway
variable (fit : Int → Int)

/-- The calls of a client that were allowed in the window with this start. -/
def allowedIn (log : List RateEntry) (clientId : Nat) (start : Int) : Nat :=
  log.countP (fun entry =>
    (entry.clientId = clientId ∧ entry.windowStartNs = start) ∧ entry.allowed = true)

section Log
variable {fit} {g : RiskGateway} (fresh : g.rateStates = ∅)
variable (fixed : g.limits.rateLimitMode = .fixedWindow)
variable (limited : 0 < g.limits.maxMessagesPerWindow) (width : 0 < g.limits.rateWindowNs)
include fresh fixed limited width

omit fixed in
theorem rateState_fresh (before : List RateCall) (call : RateCall) :
    (serveRate fit g (before ++ [call])).rateState call.1.clientId =
      (timesOf call.1.clientId before ++ [call.2]).foldl (RateState.tick fit g.limits) {} := by
  have start : g.rateState call.1.clientId = {} := by
    rw [rateState, fresh]
    rfl
  rw [(serveRate_facts limited width _).2, timesOf_append, if_pos rfl, start]

theorem windowStarts_log (calls : List RateCall) (clientId : Nat) :
    ((rateLog fit g calls).filter (fun entry => entry.clientId = clientId)).map
      RateEntry.windowStartNs =
    windowStarts fit g.limits.rateWindowNs (timesOf clientId calls) := by
  induction calls using List.reverseRecOn with
  | nil => rfl
  | append_singleton before call ih =>
    rw [rateLog_append, List.filter_append, List.map_append, ih, timesOf_append]
    by_cases own : call.1.clientId = clientId
    · subst own
      rw [if_pos rfl, rateState_fresh fresh limited width, RateState.windowStarts_append fixed]
      simp
    · simp [own]

/-- Of the calls of a window pass those whose number, on the wrapping counter, is within the
limit. -/
theorem allowedIn_eq (closes : ∀ x, 0 ≤ x → fit x ≤ x) {calls : List RateCall}
    (ordered : NondecreasingPerClient calls) (clientId : Nat) (start : Int) :
    allowedIn (rateLog fit g calls) clientId start =
      passes counterModulus g.limits.maxMessagesPerWindow
        ((windowStarts fit g.limits.rateWindowNs (timesOf clientId calls)).count start) := by
  induction calls using List.reverseRecOn with
  | nil => rfl
  | append_singleton before call ih =>
    have rest := ih (List.pairwise_append.mp ordered).1
    rw [rateLog_append, allowedIn, List.countP_append, List.countP_singleton, timesOf_append]
    by_cases own : call.1.clientId = clientId
    · subst own
      have times := pairwise_timesOf ordered call.1.clientId
      rw [timesOf_append, if_pos rfl] at times
      obtain ⟨-, -, counted⟩ := RateState.fixed_state fixed closes width times
      have told : rateAllows fit g before call = true ↔
          ((timesOf call.1.clientId before ++ [call.2]).foldl (RateState.tick fit g.limits)
            {}).count ≤ g.limits.maxMessagesPerWindow := by
        have start : g.rateState call.1.clientId = {} := by
          rw [rateState, fresh]
          rfl
        rw [rateAllows_eq limited width, start, RateState.allows, decide_eq_true_iff,
          RateState.observed, if_neg (by simp [fixed])]
      rw [counted, RateState.windowStarts_append fixed] at told
      rw [if_pos rfl, RateState.windowStarts_append fixed, List.count_append,
        rateState_fresh fresh limited width, ← allowedIn, rest]
      generalize (timesOf call.1.clientId before ++ [call.2]).foldl
        (RateState.tick fit g.limits) {} = state at *
      generalize windowStarts fit g.limits.rateWindowNs (timesOf call.1.clientId before) = opened
        at *
      by_cases here : state.windowStartNs = start
      · subst here
        rw [List.count_append, List.count_singleton_self] at told
        rw [List.count_singleton_self, passes_succ]
        congr 1
        by_cases allowed : rateAllows fit g before call = true
        · rw [if_pos (by simp [allowed]), if_pos (told.mp allowed)]
        · rw [if_neg (by simp [allowed]), if_neg (mt told.mpr allowed)]
      · simp [here]
    · rw [if_neg own, ← rest, if_neg (by simp [own])]
      rfl

theorem allowedWithin_fixed (closes : ∀ x, 0 ≤ x → fit x ≤ x) {calls : List RateCall}
    (ordered : NondecreasingPerClient calls) (clientId : Nat)
    (few : ∀ start, allowedIn (rateLog fit g calls) clientId start ≤
      g.limits.maxMessagesPerWindow) (low : Int) :
    allowedWithin clientId low (low + g.limits.rateWindowNs) (rateLog fit g calls) ≤
      2 * g.limits.maxMessagesPerWindow := by
  let own := (rateLog fit g calls).filter (fun entry => entry.clientId = clientId)
  have times : own.map RateEntry.nowNs = timesOf clientId calls := by
    have both := congrArg (List.filter (fun e : Nat × Int => e.1 = clientId))
      (rateLog_calls fit g calls)
    rw [List.filter_map, List.filter_map] at both
    have second := congrArg (List.map Prod.snd) both
    rw [List.map_map, List.map_map] at second
    exact second
  have entries : own.map (fun entry => (entry.nowNs, entry.windowStartNs)) =
      (timesOf clientId calls).zip
        (windowStarts fit g.limits.rateWindowNs (timesOf clientId calls)) := by
    rw [← windowStarts_log fresh fixed limited width, ← times, List.zip_map']
  have ordered' : (timesOf clientId calls).Pairwise (· ≤ ·) := pairwise_timesOf ordered clientId
  obtain ⟨s, s', two⟩ := windowStarts_two closes width ordered' low
  rw [← entries] at two
  have split : allowedWithin clientId low (low + g.limits.rateWindowNs) (rateLog fit g calls) ≤
      allowedIn (rateLog fit g calls) clientId s + allowedIn (rateLog fit g calls) clientId s' := by
    rw [allowedWithin, ← List.countP_eq_length_filter]
    apply countP_le_add
    intro entry he inside
    obtain ⟨same, allowed, lower, upper⟩ := of_decide_eq_true inside
    have member : entry ∈ own := List.mem_filter.mpr ⟨he, decide_eq_true same⟩
    rcases two _ (List.mem_map_of_mem member) lower upper with here | here
    · exact Or.inl (decide_eq_true ⟨⟨same, here⟩, allowed⟩)
    · exact Or.inr (decide_eq_true ⟨⟨same, here⟩, allowed⟩)
  have first := few s
  have second := few s'
  omega

/-- At most the limit in each window, and twice the limit in each interval of the width. -/
def FixedWindowHolds (fit : Int → Int) (g : RiskGateway) (calls : List RateCall) : Prop :=
  (∀ clientId start, allowedIn (rateLog fit g calls) clientId start ≤
    g.limits.maxMessagesPerWindow) ∧
  ∀ clientId low, allowedWithin clientId low (low + g.limits.rateWindowNs) (rateLog fit g calls) ≤
    2 * g.limits.maxMessagesPerWindow

theorem fixedWindowHolds_iff (closes : ∀ x, 0 ≤ x → fit x ≤ x)
    (word : g.limits.maxMessagesPerWindow < counterModulus) {calls : List RateCall}
    (ordered : NondecreasingPerClient calls) :
    FixedWindowHolds fit g calls ↔ ∀ clientId start,
      (windowStarts fit g.limits.rateWindowNs (timesOf clientId calls)).count start <
        counterModulus := by
  have each : ∀ clientId start, allowedIn (rateLog fit g calls) clientId start ≤
      g.limits.maxMessagesPerWindow ↔
      (windowStarts fit g.limits.rateWindowNs (timesOf clientId calls)).count start <
        counterModulus := by
    intro clientId start
    rw [allowedIn_eq fresh fixed limited width closes ordered, passes_le_iff word]
  constructor
  · exact fun holds clientId start => (each clientId start).mp (holds.1 clientId start)
  · intro short
    have few := fun clientId start => (each clientId start).mpr (short clientId start)
    exact ⟨few, fun clientId => allowedWithin_fixed fresh fixed limited width closes ordered clientId
      (few clientId)⟩

end Log

theorem wrap64_le {x : Int} (nonneg : 0 ≤ x) : wrap64 x ≤ x := by
  rw [wrap64, Int.bmod_def]
  split <;> omega

/-- The limits of the fixed window hold in a run exactly when no window of a client has as many
calls as the counter has values; over the integers, and with differences that wrap. -/
theorem fixed_window_limit_iff {fit : Int → Int} (reading : fit = id ∨ fit = wrap64)
    {g : RiskGateway} (fresh : g.rateStates = ∅) (fixed : g.limits.rateLimitMode = .fixedWindow)
    (limited : 0 < g.limits.maxMessagesPerWindow)
    (word : g.limits.maxMessagesPerWindow < counterModulus) (width : 0 < g.limits.rateWindowNs)
    {calls : List RateCall} (ordered : NondecreasingPerClient calls) :
    FixedWindowHolds fit g calls ↔ ∀ clientId start,
      (windowStarts fit g.limits.rateWindowNs (timesOf clientId calls)).count start <
        counterModulus := by
  apply fixedWindowHolds_iff fresh fixed limited width _ word ordered
  intro x nonneg
  rcases reading with rfl | rfl
  · exact le_refl x
  · exact wrap64_le nonneg

def twoPerWindow : RiskGateway := { limits := { maxMessagesPerWindow := 2, rateWindowNs := 100 } }

theorem fixed_window_limit_three_calls :
    let call (nowNs : Int) : RateCall := ({ clientId := 7 }, nowNs)
    FixedWindowHolds wrap64 twoPerWindow [call 10, call 20, call 30] ∧
      allowedWithin 7 10 110 (rateLog wrap64 twoPerWindow [call 10, call 20, call 30]) = 2 := by
  intro call
  have ordered : NondecreasingPerClient [call 10, call 20, call 30] := by
    unfold NondecreasingPerClient
    decide
  refine ⟨(fixed_window_limit_iff (Or.inr rfl) rfl rfl (by decide) (by decide) (by decide)
    ordered).mpr fun clientId start => ?_, by decide⟩
  refine List.count_le_length.trans_lt ?_
  rw [windowStarts, length_starts, timesOf, List.length_map]
  exact (List.length_filter_le _ _).trans_lt (by decide)

theorem windowStarts_replicate (fit : Int → Int) (width t : Int) (n : Nat) :
    windowStarts fit width (List.replicate n t) = List.replicate n t := by
  have inside : ∀ n, starts (fun s t => Decidable.decide (width ≤ fit (t - s))) (some t)
      (List.replicate n t) = List.replicate n t := by
    intro n
    induction n with
    | zero => rfl
    | succ n ih => rw [List.replicate_succ, starts, ite_self, ih]
  cases n with
  | zero => rfl
  | succ n => rw [List.replicate_succ, windowStarts, starts, inside]

/-- As many calls at one time as the counter has values: the counter is back at zero and lets the
last of them pass, behind the two that the limit allows. -/
theorem fixed_window_counter_wraps :
    ¬ FixedWindowHolds id twoPerWindow
      (List.replicate counterModulus (({ clientId := 7 }, 10) : RateCall)) := by
  have ordered : NondecreasingPerClient
      (List.replicate counterModulus (({ clientId := 7 }, 10) : RateCall)) := by
    rw [NondecreasingPerClient, List.pairwise_replicate]
    exact Or.inr fun _ => le_refl _
  have exact : ∀ x : Int, 0 ≤ x → id x ≤ x := fun x _ => le_refl x
  rw [fixedWindowHolds_iff rfl rfl (by decide) (by decide) exact (by decide) ordered]
  intro short
  have times : timesOf 7 (List.replicate counterModulus (({ clientId := 7 }, 10) : RateCall)) =
      List.replicate counterModulus 10 := by
    simp [timesOf]
  have full := short 7 10
  rw [times, windowStarts_replicate, List.count_replicate_self] at full
  exact absurd full (lt_irrefl _)

end RiskGateway
end Asterion
