import Mathlib

/-! The integer mean of weighted values, rounded down, lies between two of the values. -/
namespace Lib.WeightedMean

def total (ps : List (Int × Int)) : Int := (ps.map Prod.fst).sum

def weighted (ps : List (Int × Int)) : Int := (ps.map (fun p => p.1 * p.2)).sum

@[simp] theorem total_nil : total [] = 0 := rfl
@[simp] theorem weighted_nil : weighted [] = 0 := rfl

@[simp] theorem total_append (ps qs : List (Int × Int)) : total (ps ++ qs) = total ps + total qs := by
  simp [total]

@[simp] theorem weighted_append (ps qs : List (Int × Int)) :
    weighted (ps ++ qs) = weighted ps + weighted qs := by
  simp [weighted]

@[simp] theorem total_cons (p : Int × Int) (ps : List (Int × Int)) :
    total (p :: ps) = p.1 + total ps := by
  simp [total]

@[simp] theorem weighted_cons (p : Int × Int) (ps : List (Int × Int)) :
    weighted (p :: ps) = p.1 * p.2 + weighted ps := by
  simp [weighted]

section Bounds
variable {ps : List (Int × Int)} {c : Int}

theorem weighted_nonneg (nonneg : ∀ p ∈ ps, 0 ≤ p.1 ∧ 0 ≤ p.2) : 0 ≤ weighted ps := by
  refine List.sum_nonneg ?_
  intro w hw
  obtain ⟨p, hp, rfl⟩ := List.mem_map.mp hw
  exact mul_nonneg (nonneg p hp).1 (nonneg p hp).2

theorem weighted_le (nonneg : ∀ p ∈ ps, 0 ≤ p.1) (le : ∀ p ∈ ps, 0 < p.1 → p.2 ≤ c) :
    weighted ps ≤ total ps * c := by
  induction ps with
  | nil => simp
  | cons p ps ih =>
    have ht := ih (fun q hq => nonneg q (List.mem_cons_of_mem _ hq))
      (fun q hq => le q (List.mem_cons_of_mem _ hq))
    have hp := nonneg p List.mem_cons_self
    have hle : p.1 * p.2 ≤ p.1 * c := by
      rcases hp.eq_or_lt with h | h
      · simp [← h]
      · exact mul_le_mul_of_nonneg_left (le p List.mem_cons_self h) hp
    rw [weighted_cons, total_cons, add_mul]
    exact add_le_add hle ht

theorem le_weighted (nonneg : ∀ p ∈ ps, 0 ≤ p.1) (ge : ∀ p ∈ ps, 0 < p.1 → c ≤ p.2) :
    total ps * c ≤ weighted ps := by
  induction ps with
  | nil => simp
  | cons p ps ih =>
    have ht := ih (fun q hq => nonneg q (List.mem_cons_of_mem _ hq))
      (fun q hq => ge q (List.mem_cons_of_mem _ hq))
    have hp := nonneg p List.mem_cons_self
    have hle : p.1 * c ≤ p.1 * p.2 := by
      rcases hp.eq_or_lt with h | h
      · simp [← h]
      · exact mul_le_mul_of_nonneg_left (ge p List.mem_cons_self h) hp
    rw [weighted_cons, total_cons, add_mul]
    exact add_le_add hle ht

/-- Some value of positive weight is at most the mean. -/
theorem exists_le_mean (nonneg : ∀ p ∈ ps, 0 ≤ p.1) (pos : 0 < total ps) :
    ∃ p ∈ ps, 0 < p.1 ∧ p.2 ≤ weighted ps / total ps := by
  by_contra hno
  push Not at hno
  have h := le_weighted nonneg (c := weighted ps / total ps + 1)
    (fun p hp hw => Int.add_one_le_of_lt (hno p hp hw))
  have hlt := Int.lt_mul_ediv_self_add (x := weighted ps) pos
  rw [mul_add, mul_one] at h
  omega

/-- Some value of positive weight is at least the mean. -/
theorem exists_mean_le (nonneg : ∀ p ∈ ps, 0 ≤ p.1) (pos : 0 < total ps) :
    ∃ p ∈ ps, 0 < p.1 ∧ weighted ps / total ps ≤ p.2 := by
  by_contra hno
  push Not at hno
  have h := weighted_le nonneg (c := weighted ps / total ps - 1)
    (fun p hp hw => Int.le_sub_one_of_lt (hno p hp hw))
  have hle := Int.mul_ediv_self_le (x := weighted ps) pos.ne'
  rw [mul_sub, mul_one] at h
  omega

end Bounds
end Lib.WeightedMean
