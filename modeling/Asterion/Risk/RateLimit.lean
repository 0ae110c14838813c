import Asterion.Lib.RateWindows
import Asterion.Risk.RiskGateway

/-! The message-rate limit over whole runs of its evaluations. What a client is told depends on its
own calls alone; a sliding window is exact, and a fixed window is as exact as its counter. -/
namespace Asterion
open Lib Lib.RateWindows

abbrev RateCall := NewOrderRequest × Int

def timesOf (clientId : Nat) (calls : List RateCall) : List Int :=
  (calls.filter (fun call => call.1.clientId = clientId)).map Prod.snd

/-- The times of a client do not run backwards. -/
def NondecreasingPerClient (calls : List RateCall) : Prop :=
  calls.Pairwise (fun a b => a.1.clientId = b.1.clientId → a.2 ≤ b.2)

namespace RateState
variable (fit : Int → Int) (limits : RiskLimits) (state : RateState) (nowNs : Int)

def tick : RateState :=
  if limits.rateLimitMode = .slidingWindow then
    { state with
      slidingTimestamps := state.slidingTimestamps.dropWhile (fun timestampNs =>
        decide (fit (nowNs - timestampNs) ≥ limits.rateWindowNs)) ++ [nowNs] }
  else if state.active = false ∨ fit (nowNs - state.windowStartNs) ≥ limits.rateWindowNs then
    { state with windowStartNs := nowNs, count := 1, active := true }
  else { state with count := (state.count + 1) % 2 ^ 32 }

def observed : Nat :=
  if limits.rateLimitMode = .slidingWindow then state.slidingTimestamps.length else state.count

def allows : Bool := decide (state.observed limits ≤ limits.maxMessagesPerWindow)

end RateState

namespace RiskGateway
variable (fit : Int → Int)

def rateState (g : RiskGateway) (clientId : Nat) : RateState :=
  (g.rateStates.lookup clientId).getD {}

def serveRate (g : RiskGateway) (calls : List RateCall) : RiskGateway :=
  calls.foldl (fun g call => (rateLimitAllows fit g call.1 call.2).1) g

def rateAllows (g : RiskGateway) (before : List RateCall) (call : RateCall) : Bool :=
  (rateLimitAllows fit (serveRate fit g before) call.1 call.2).2.1

structure RateEntry where
  clientId : Nat
  nowNs : Int
  windowStartNs : Int
  allowed : Bool

/-- What the evaluations of a run answer, with the start of the window each was counted in. -/
def rateLog : RiskGateway → List RateCall → List RateEntry
  | _, [] => []
  | g, call :: calls =>
    let answer := rateLimitAllows fit g call.1 call.2
    { clientId := call.1.clientId, nowNs := call.2
      windowStartNs := (answer.1.rateState call.1.clientId).windowStartNs
      allowed := answer.2.1 } :: rateLog answer.1 calls

section Client
variable {fit} {g : RiskGateway} (limited : 0 < g.limits.maxMessagesPerWindow)
variable (width : 0 < g.limits.rateWindowNs)
include limited width

theorem rateLimitAllows_eq (request : NewOrderRequest) (nowNs : Int) :
    let state := (g.rateState request.clientId).tick fit g.limits nowNs
    rateLimitAllows fit g request nowNs =
      ({ g with rateStates := g.rateStates.insert request.clientId state }, state.allows g.limits,
        (state.observed g.limits : Int)) := by
  have on : ¬ (g.limits.maxMessagesPerWindow = 0 ∨ g.limits.rateWindowNs ≤ 0) := by omega
  unfold rateLimitAllows RateState.tick RateState.allows RateState.observed rateState
  rw [if_neg on]
  split
  · rfl
  · simp only [Bool.or_eq_true, Bool.not_eq_true', decide_eq_true_eq]
    split
    · rfl
    · rfl

/-- One evaluation changes the state of its client and nothing else that the next ones read. -/
theorem rateLimitAllows_frame (request : NewOrderRequest) (nowNs : Int) :
    let next := (rateLimitAllows fit g request nowNs).1
    next.limits = g.limits ∧ ∀ clientId, next.rateState clientId =
      if request.clientId = clientId then (g.rateState clientId).tick fit g.limits nowNs
      else g.rateState clientId := by
  intro next
  have step : next = _ := congrArg Prod.fst (rateLimitAllows_eq limited width request nowNs)
  rw [step]
  refine ⟨rfl, fun clientId => ?_⟩
  unfold rateState
  dsimp only
  split
  · rename_i own
    subst own
    rw [AList.lookup_insert]
    rfl
  · rename_i other
    rw [AList.lookup_insert_ne (Ne.symm other)]

theorem serveRate_facts (calls : List RateCall) :
    (serveRate fit g calls).limits = g.limits ∧ ∀ clientId,
      (serveRate fit g calls).rateState clientId =
        (timesOf clientId calls).foldl (RateState.tick fit g.limits) (g.rateState clientId) := by
  induction calls generalizing g with
  | nil => exact ⟨rfl, fun _ => rfl⟩
  | cons call calls ih =>
    obtain ⟨kept, next⟩ := @rateLimitAllows_frame fit g limited width call.1 call.2
    obtain ⟨same, states⟩ := ih (kept.symm ▸ limited) (kept.symm ▸ width)
    refine ⟨same.trans kept, fun clientId => (states clientId).trans ?_⟩
    rw [next, kept]
    by_cases own : call.1.clientId = clientId
    · simp [timesOf, own]
    · simp [timesOf, own]

theorem rateAllows_eq (before : List RateCall) (call : RateCall) :
    rateAllows fit g before call =
      ((timesOf call.1.clientId before ++ [call.2]).foldl (RateState.tick fit g.limits)
        (g.rateState call.1.clientId)).allows g.limits := by
  obtain ⟨same, states⟩ := @serveRate_facts fit g limited width before
  have step := @rateLimitAllows_eq fit (serveRate fit g before) (same ▸ limited) (same ▸ width)
    call.1 call.2
  rw [rateAllows, step]
  simp only [same, states, List.foldl_append, List.foldl_cons, List.foldl_nil]

theorem rateAllows_filter (before : List RateCall) (call : RateCall) :
    rateAllows fit g before call =
      rateAllows fit g (before.filter (fun b => b.1.clientId = call.1.clientId)) call := by
  rw [rateAllows_eq limited width, rateAllows_eq limited width]
  simp [timesOf]

omit limited width in
theorem rateLog_append (before : List RateCall) (call : RateCall) :
    rateLog fit g (before ++ [call]) = rateLog fit g before ++
      [{ clientId := call.1.clientId, nowNs := call.2
         windowStartNs := ((serveRate fit g (before ++ [call])).rateState
           call.1.clientId).windowStartNs
         allowed := rateAllows fit g before call }] := by
  induction before generalizing g with
  | nil => rfl
  | cons b before ih =>
    rw [List.cons_append, rateLog, rateLog, ih]
    rfl

end Client

theorem timesOf_append (clientId : Nat) (before : List RateCall) (call : RateCall) :
    timesOf clientId (before ++ [call]) =
      if call.1.clientId = clientId then timesOf clientId before ++ [call.2]
      else timesOf clientId before := by
  unfold timesOf
  split
  · rename_i own
    simp [own]
  · rename_i other
    simp [other]

theorem pairwise_timesOf {R : Int → Int → Prop} {calls : List RateCall}
    (h : calls.Pairwise (fun a b => a.1.clientId = b.1.clientId → R a.2 b.2)) (clientId : Nat) :
    (timesOf clientId calls).Pairwise R := by
  rw [timesOf, List.pairwise_map, List.pairwise_filter]
  refine h.imp fun related first second => ?_
  exact related ((of_decide_eq_true first).trans (of_decide_eq_true second).symm)

section Sliding
variable {fit} {limits : RiskLimits} (sliding : limits.rateLimitMode = .slidingWindow)
variable (width : 0 < limits.rateWindowNs)
include sliding

theorem tick_sliding {state : RateState} {nowNs : Int}
    (ordered : state.slidingTimestamps.Pairwise (· ≤ ·))
    (exact : ∀ t ∈ state.slidingTimestamps, fit (nowNs - t) = nowNs - t) :
    (state.tick fit limits nowNs).slidingTimestamps =
      state.slidingTimestamps.filter (fun t => nowNs - limits.rateWindowNs < t) ++
        [nowNs] := by
  rw [RateState.tick, if_pos sliding, ← dropWhile_eq_filter ordered]
  have same : ∀ ts : List Int, (∀ t ∈ ts, fit (nowNs - t) = nowNs - t) →
      ts.dropWhile (fun t => fit (nowNs - t) ≥ limits.rateWindowNs) =
        ts.dropWhile (fun t => limits.rateWindowNs ≤ nowNs - t) := by
    intro ts h
    induction ts with
    | nil => rfl
    | cons t ts ih =>
      rw [List.dropWhile_cons, List.dropWhile_cons, h t List.mem_cons_self,
        ih (fun u hu => h u (List.mem_cons_of_mem _ hu))]
  dsimp only
  rw [same _ exact]

include width

/-- The deque holds the calls of the window that ends with the last one. -/
theorem slidingTimestamps_eq {times : List Int} {nowNs : Int}
    (ordered : (times ++ [nowNs]).Pairwise (· ≤ ·))
    (exact : (times ++ [nowNs]).Pairwise (fun s t => fit (t - s) = t - s)) :
    ((times ++ [nowNs]).foldl (RateState.tick fit limits) {}).slidingTimestamps =
      (times ++ [nowNs]).filter (fun t => nowNs - limits.rateWindowNs < t) := by
  induction times using List.reverseRecOn generalizing nowNs with
  | nil =>
    have now : nowNs - limits.rateWindowNs < nowNs := by omega
    simp [RateState.tick, sliding, now]
  | append_singleton times last ih =>
    obtain ⟨ordered', -, before⟩ := List.pairwise_append.mp ordered
    obtain ⟨exact', -, exactNow⟩ := List.pairwise_append.mp exact
    have held := ih ordered' exact'
    have now : nowNs - limits.rateWindowNs < nowNs := by omega
    have late : last ≤ nowNs := before last (by simp) nowNs (by simp)
    rw [List.foldl_append, List.foldl_cons, List.foldl_nil, tick_sliding sliding, held,
      List.filter_filter, List.filter_append (times ++ [last])]
    · congr 1
      · apply List.filter_congr
        intro t _
        rw [← Bool.decide_and]
        apply decide_eq_decide.mpr
        omega
      · simp [now]
    · rw [held]
      exact ordered'.filter _
    · intro t ht
      rw [held] at ht
      exact exactNow t (List.mem_of_mem_filter ht) nowNs (by simp)

end Sliding

/-- The calls of a client with a time in `(low, high]`. -/
def callsWithin (clientId : Nat) (low high : Int) (calls : List RateCall) : Nat :=
  (calls.filter (fun call => call.1.clientId = clientId ∧ low < call.2 ∧ call.2 ≤ high)).length

/-- The allowed calls of a client with a time in `[low, high)`. -/
def allowedWithin (clientId : Nat) (low high : Int) (log : List RateEntry) : Nat :=
  (log.filter (fun entry => entry.clientId = clientId ∧ entry.allowed = true ∧
    low ≤ entry.nowNs ∧ entry.nowNs < high)).length

theorem rateLog_calls (g : RiskGateway) (calls : List RateCall) :
    (rateLog fit g calls).map (fun entry => (entry.clientId, entry.nowNs)) =
      calls.map (fun call => (call.1.clientId, call.2)) := by
  induction calls generalizing g with
  | nil => rfl
  | cons call calls ih => rw [rateLog, List.map_cons, List.map_cons, ih]

/-- The allowed calls of an interval are calls of the window that ends with the last of them. -/
theorem allowedWithin_le {g : RiskGateway} {calls : List RateCall} {clientId : Nat}
    {low high now width : Int} (latest : ∀ call ∈ calls, call.1.clientId = clientId → call.2 ≤ now)
    (near : now - width < low) :
    allowedWithin clientId low high (rateLog fit g calls) ≤
      callsWithin clientId (now - width) now calls := by
  let inside : Nat × Int → Bool := fun e => e.1 = clientId ∧ low ≤ e.2
  have all : allowedWithin clientId low high (rateLog fit g calls) ≤
      ((rateLog fit g calls).map (fun entry => (entry.clientId, entry.nowNs))).countP inside := by
    rw [allowedWithin, ← List.countP_eq_length_filter, List.countP_map]
    apply List.countP_mono_left
    intro entry _ h
    simp only [decide_eq_true_eq] at h
    exact decide_eq_true ⟨h.1, h.2.2.1⟩
  refine all.trans ?_
  rw [rateLog_calls, List.countP_map, callsWithin, ← List.countP_eq_length_filter]
  apply List.countP_mono_left
  intro call hc h
  have own := of_decide_eq_true h
  exact decide_eq_true ⟨own.1, near.trans_le own.2, latest call hc own.1⟩

/-- No difference of two times of a client wraps. -/
def NoWrap (calls : List RateCall) : Prop :=
  calls.Pairwise (fun a b => a.1.clientId = b.1.clientId → fit (b.2 - a.2) = b.2 - a.2)

theorem latest_call {before : List RateCall} {call : RateCall}
    (ordered : NondecreasingPerClient (before ++ [call])) :
    ∀ b ∈ before ++ [call], b.1.clientId = call.1.clientId → b.2 ≤ call.2 := by
  intro b hb same
  rcases List.mem_append.mp hb with earlier | now
  · exact (List.pairwise_append.mp ordered).2.2 b earlier call (by simp) same
  · rw [List.mem_singleton.mp now]

section Exact
variable {fit} {g : RiskGateway} (fresh : g.rateStates = ∅)
variable (sliding : g.limits.rateLimitMode = .slidingWindow)
variable (limited : 0 < g.limits.maxMessagesPerWindow) (width : 0 < g.limits.rateWindowNs)
include fresh sliding limited width

theorem rateAllows_sliding {before : List RateCall} {call : RateCall}
    (ordered : NondecreasingPerClient (before ++ [call])) (exact : NoWrap fit (before ++ [call])) :
    rateAllows fit g before call = true ↔
      callsWithin call.1.clientId (call.2 - g.limits.rateWindowNs) call.2 (before ++ [call]) ≤
        g.limits.maxMessagesPerWindow := by
  have own : timesOf call.1.clientId (before ++ [call]) =
      timesOf call.1.clientId before ++ [call.2] := by
    rw [timesOf_append, if_pos rfl]
  have times := pairwise_timesOf ordered call.1.clientId
  have gaps := @pairwise_timesOf (fun s t => fit (t - s) = t - s) _ exact call.1.clientId
  rw [own] at times gaps
  have start : g.rateState call.1.clientId = {} := by
    rw [rateState, fresh]
    rfl
  have latest := latest_call ordered
  have count : ((timesOf call.1.clientId (before ++ [call])).filter
      (fun t => call.2 - g.limits.rateWindowNs < t)).length =
      callsWithin call.1.clientId (call.2 - g.limits.rateWindowNs) call.2 (before ++ [call]) := by
    rw [timesOf, List.filter_map, List.length_map, List.filter_filter, callsWithin]
    congr 1
    apply List.filter_congr
    intro b hb
    have bound := latest b hb
    simp only [Function.comp_apply, ← Bool.decide_and, decide_eq_decide]
    tauto
  rw [rateAllows_eq limited width, start, RateState.allows, decide_eq_true_iff, RateState.observed,
    if_pos sliding, slidingTimestamps_eq sliding width times gaps, ← own, count]

omit sliding limited fresh width in
theorem allowedWithin_append (before : List RateCall) (call : RateCall) (clientId : Nat)
    (low high : Int) :
    allowedWithin clientId low high (rateLog fit g (before ++ [call])) =
      allowedWithin clientId low high (rateLog fit g before) +
        if call.1.clientId = clientId ∧ rateAllows fit g before call = true ∧ low ≤ call.2 ∧
          call.2 < high then 1 else 0 := by
  rw [rateLog_append, allowedWithin, List.filter_append, List.length_append, allowedWithin]
  split
  · rename_i h
    simp [h]
  · rename_i h
    rw [List.filter_cons_of_neg (by simpa using h)]
    rfl

theorem allowedWithin_sliding {calls : List RateCall} (ordered : NondecreasingPerClient calls)
    (exact : NoWrap fit calls) (clientId : Nat) (low : Int) :
    allowedWithin clientId low (low + g.limits.rateWindowNs) (rateLog fit g calls) ≤
      g.limits.maxMessagesPerWindow := by
  induction calls using List.reverseRecOn with
  | nil => exact Nat.zero_le _
  | append_singleton before call ih =>
    have rest := ih (List.pairwise_append.mp ordered).1 (List.pairwise_append.mp exact).1
    by_cases counted : call.1.clientId = clientId ∧ rateAllows fit g before call = true ∧
        low ≤ call.2 ∧ call.2 < low + g.limits.rateWindowNs
    · obtain ⟨rfl, allowed, lower, upper⟩ := counted
      have few := (rateAllows_sliding fresh sliding limited width ordered exact).mp allowed
      have near : call.2 - g.limits.rateWindowNs < low := by omega
      exact (allowedWithin_le fit (latest_call ordered) near).trans few
    · rw [allowedWithin_append, if_neg counted]
      exact rest

/-- The sliding window counts the calls of the window that ends now, allowed or not; no interval of
its width has more allowed calls than the limit, and other clients do not count. -/
theorem sliding_window_exact {calls : List RateCall} (ordered : NondecreasingPerClient calls)
    (exact : NoWrap fit calls) :
    (∀ before call, before ++ [call] <+: calls →
      (rateAllows fit g before call = true ↔
        callsWithin call.1.clientId (call.2 - g.limits.rateWindowNs) call.2 (before ++ [call]) ≤
          g.limits.maxMessagesPerWindow) ∧
      rateAllows fit g before call =
        rateAllows fit g (before.filter (fun b => b.1.clientId = call.1.clientId)) call) ∧
    ∀ clientId low, allowedWithin clientId low (low + g.limits.rateWindowNs) (rateLog fit g calls) ≤
      g.limits.maxMessagesPerWindow := by
  refine ⟨fun before call front => ⟨?_, rateAllows_filter limited width before call⟩,
    allowedWithin_sliding fresh sliding limited width ordered exact⟩
  exact rateAllows_sliding fresh sliding limited width (ordered.sublist front.sublist)
    (exact.sublist front.sublist)

end Exact

/-- The calls of the test: the third comes too early, the fourth exactly one width after the
first. -/
theorem sliding_window_exact_boundary :
    let g : RiskGateway :=
      { limits := { maxMessagesPerWindow := 2, rateWindowNs := 100
                    rateLimitMode := .slidingWindow } }
    let call (nowNs : Int) : RateCall := ({ clientId := 7 }, nowNs)
    rateAllows wrap64 g [call 0, call 90] (call 99) = false ∧
      rateAllows wrap64 g [call 0] (call 100) = true ∧
      allowedWithin 7 0 100 (rateLog wrap64 g [call 0, call 90, call 99]) ≤ 2 := by
  intro g call
  have ordered : NondecreasingPerClient [call 0, call 90, call 99] := by
    unfold NondecreasingPerClient
    decide
  have exact : NoWrap wrap64 [call 0, call 90, call 99] := by
    unfold NoWrap
    decide
  have law := @sliding_window_exact wrap64 g rfl rfl (by decide) (by decide) _ ordered exact
  exact ⟨by decide, by decide, law.2 7 0⟩

end RiskGateway
end Asterion
