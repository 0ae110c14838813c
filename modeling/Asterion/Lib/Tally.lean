import Mathlib

/-! Sums over the entries of a finite map, and a second map that keeps such sums by key: it has no
entry where the sum is zero, grows by what is added and loses its entry when nothing is left. -/
namespace Lib.Tally

section Total
variable {K V : Type} [DecidableEq K]

def total (f : K → V → Int) (m : AList (fun _ : K => V)) : Int :=
  (m.entries.map (fun e => f e.1 e.2)).sum

variable {f : K → V → Int} {m : AList (fun _ : K => V)} {k : K} {v : V}

omit [DecidableEq K] in
@[simp] theorem total_empty : total f (∅ : AList (fun _ : K => V)) = 0 := rfl

theorem sum_kerase (f : K → V → Int) {es : List (Sigma (fun _ : K => V))} (nodup : es.NodupKeys)
    (k : K) : (es.map (fun e => f e.1 e.2)).sum =
      (es.dlookup k).elim 0 (f k) + ((es.kerase k).map (fun e => f e.1 e.2)).sum := by
  induction es with
  | nil => rfl
  | cons e es ih =>
    rw [List.nodupKeys_cons] at nodup
    by_cases same : k = e.1
    · subst same
      obtain ⟨k, v⟩ := e
      rw [List.kerase_cons_eq rfl, List.dlookup_cons_eq]
      rfl
    · obtain ⟨j, w⟩ := e
      have other : k ≠ j := same
      rw [List.kerase_cons_ne other, List.dlookup_cons_ne es ⟨j, w⟩ other]
      simp only [List.map_cons, List.sum_cons]
      have rest := ih nodup.2
      omega

theorem total_erase (f : K → V → Int) (m : AList (fun _ : K => V)) (k : K) :
    total f m = (m.lookup k).elim 0 (f k) + total f (m.erase k) := sum_kerase f m.nodupKeys k

theorem total_insert (f : K → V → Int) (m : AList (fun _ : K => V)) (k : K) (v : V) :
    total f (m.insert k v) = f k v + total f (m.erase k) := rfl

theorem total_insert_new (absent : m.lookup k = none) :
    total f (m.insert k v) = f k v + total f m := by
  rw [total_insert, total_erase f m k, absent]
  simp

theorem lookup_insert_cases {j : K} {w : V} (h : (m.insert k v).lookup j = some w) :
    (j = k ∧ w = v) ∨ m.lookup j = some w := by
  rcases eq_or_ne j k with rfl | other
  · rw [AList.lookup_insert] at h
    exact Or.inl ⟨rfl, (Option.some.inj h).symm⟩
  · rw [AList.lookup_insert_ne other] at h
    exact Or.inr h

theorem lookup_of_erase {j : K} {w : V} (h : (m.erase k).lookup j = some w) :
    m.lookup j = some w := by
  rcases eq_or_ne j k with rfl | other
  · rw [AList.lookup_erase] at h
    cases h
  · rwa [AList.lookup_erase_ne other] at h

theorem total_nonneg (h : ∀ k v, m.lookup k = some v → 0 ≤ f k v) : 0 ≤ total f m := by
  apply List.sum_nonneg
  intro x hx
  obtain ⟨e, he, rfl⟩ := List.mem_map.mp hx
  exact h e.1 e.2 (AList.mem_lookup_iff.mpr he)

/-- Where every entry counts, one of them counts towards the total. -/
theorem le_total (h : ∀ k v, m.lookup k = some v → 0 ≤ f k v) (hk : m.lookup k = some v) :
    f k v ≤ total f m := by
  rw [total_erase f m k, hk]
  have others : 0 ≤ total f (m.erase k) := by
    apply total_nonneg
    intro j w hj
    exact h j w (lookup_of_erase hj)
  change f k v ≤ f k v + _
  omega

omit [DecidableEq K] in
theorem countP_eq_total (p : V → Bool) (m : AList (fun _ : K => V)) :
    (m.entries.countP (fun e => p e.2) : Int) = total (fun _ v => if p v then 1 else 0) m := by
  unfold total
  induction m.entries with
  | nil => rfl
  | cons e es ih =>
    simp only [List.map_cons, List.sum_cons, List.countP_cons, Nat.cast_add, Nat.cast_ite,
      Nat.cast_one, Nat.cast_zero, ih]
    exact add_comm _ _

theorem countP_insert (p : V → Bool) (found : m.lookup k = some v) (w : V) :
    (m.insert k w).entries.countP (fun e => p e.2) + (if p v then 1 else 0) =
      m.entries.countP (fun e => p e.2) + (if p w then 1 else 0) := by
  have before := total_erase (fun _ v => if p v then (1 : Int) else 0) m k
  have after := total_insert (fun _ v => if p v then (1 : Int) else 0) m k w
  rw [found, ← countP_eq_total p] at before
  rw [← countP_eq_total p] at after
  zify
  rw [before, after]
  simp only [Option.elim_some]
  ring

theorem countP_insert_new (p : V → Bool) (absent : m.lookup k = none) (w : V) :
    (m.insert k w).entries.countP (fun e => p e.2) =
      m.entries.countP (fun e => p e.2) + (if p w then 1 else 0) := by
  have after := @total_insert_new _ _ _ (fun _ v => if p v then (1 : Int) else 0) m k w absent
  rw [← countP_eq_total p, ← countP_eq_total p] at after
  zify
  rw [after]
  exact add_comm _ _

end Total

def kept (x : Int) : Option Int := if x = 0 then none else some x

@[simp] theorem kept_zero : kept 0 = none := rfl

theorem kept_ne {x : Int} (h : x ≠ 0) : kept x = some x := if_neg h

theorem kept_getD (x : Int) : (kept x).getD 0 = x := by
  unfold kept
  split
  · rename_i h
    exact h.symm
  · rfl

theorem kept_inj {x y : Int} : kept x = kept y ↔ x = y := by
  constructor
  · intro same
    rw [← kept_getD x, same, kept_getD]
  · exact congrArg kept

def added (fit : Int → Int) (amount : Int) (before : Option Int) : Int :=
  fit (before.getD 0 + amount)

def reduced (fit : Int → Int) (amount : Int) (before : Option Int) : Option Int :=
  before.bind (fun x => if fit (x - amount) ≤ 0 then none else some (fit (x - amount)))

theorem added_kept {x amount : Int} (hx : 0 ≤ x) (ha : 0 < amount) :
    some (added id amount (kept x)) = kept (x + amount) := by
  rw [added, kept_getD, kept_ne (by omega)]
  rfl

theorem reduced_kept {x amount : Int} (hx : 0 ≤ x) (ha : 0 < amount) :
    reduced id amount (kept x) = kept (max 0 (x - amount)) := by
  rcases eq_or_ne x 0 with rfl | some
  · rw [max_eq_left (by omega)]
    rfl
  rw [kept_ne some, reduced]
  simp only [Option.bind_some, id]
  rcases lt_or_ge 0 (x - amount) with left | spent
  · rw [if_neg (by omega), max_eq_right (by omega), kept_ne (by omega)]
  · rw [if_pos spent, max_eq_left spent]
    rfl

section Maps
variable {K : Type} [DecidableEq K] (fit : Int → Int)

def add (m : AList (fun _ : K => Int)) (k : K) (amount : Int) : AList (fun _ : K => Int) :=
  m.insert k (added fit amount (m.lookup k))

def reduce (m : AList (fun _ : K => Int)) (k : K) (amount : Int) : AList (fun _ : K => Int) :=
  match m.lookup k with
  | none => m
  | some x => if fit (x - amount) ≤ 0 then m.erase k else m.insert k (fit (x - amount))

variable {fit} {m : AList (fun _ : K => Int)} {j k : K} {amount : Int}

theorem add_perm {m' : AList (fun _ : K => Int)} (p : m.entries.Perm m'.entries) :
    (add fit m k amount).entries.Perm (add fit m' k amount).entries := by
  unfold add
  rw [AList.perm_lookup p]
  exact AList.perm_insert p

theorem reduce_perm {m' : AList (fun _ : K => Int)} (p : m.entries.Perm m'.entries) :
    (reduce fit m k amount).entries.Perm (reduce fit m' k amount).entries := by
  unfold reduce
  rw [AList.perm_lookup p]
  split
  · exact p
  · split
    · exact AList.perm_erase p
    · exact AList.perm_insert p

theorem lookup_add (j : K) : (add fit m k amount).lookup j =
    if j = k then some (added fit amount (m.lookup k)) else m.lookup j := by
  unfold add
  split
  · rename_i same
    rw [same, AList.lookup_insert]
  · rename_i other
    rw [AList.lookup_insert_ne other]

theorem lookup_reduce (j : K) : (reduce fit m k amount).lookup j =
    if j = k then reduced fit amount (m.lookup k) else m.lookup j := by
  unfold reduce
  cases hk : m.lookup k with
  | none =>
    dsimp only
    split
    · rename_i same
      rw [same, hk]
      rfl
    · rfl
  | some x =>
    dsimp only [reduced, Option.bind_some]
    split
    · split
      · rename_i same
        rw [same, AList.lookup_erase]
      · rename_i other
        rw [AList.lookup_erase_ne other]
    · split
      · rename_i same
        rw [same, AList.lookup_insert]
      · rename_i other
        rw [AList.lookup_insert_ne other]

end Maps

end Lib.Tally
