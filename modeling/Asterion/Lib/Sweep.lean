import Mathlib

/-! A greedy sweep: a demanded quantity is taken from the items of a list in order, from
each as much as it has or as is still wanted, until an item is not acceptable. -/
namespace Lib.Sweep

variable {α : Type} (size : α → Int) (ok : α → Bool)

def fills : Int → List α → List (α × Int)
  | _, [] => []
  | wanted, a :: as =>
    if 0 < wanted ∧ ok a = true then
      (a, min wanted (size a)) :: fills (wanted - min wanted (size a)) as
    else []

/-- What the sweep leaves: used-up items go, the last item touched may stay, reduced. -/
def leftover (reduce : Int → α → α) : Int → List α → List α
  | _, [] => []
  | wanted, a :: as =>
    if 0 < wanted ∧ ok a = true then
      if size a ≤ wanted then leftover reduce (wanted - size a) as else reduce wanted a :: as
    else a :: as

def total (fs : List (α × Int)) : Int := (fs.map Prod.snd).sum

@[simp] theorem fills_nil (wanted : Int) : fills size ok wanted [] = [] := rfl
@[simp] theorem total_nil : total ([] : List (α × Int)) = 0 := rfl
@[simp] theorem total_cons (f : α × Int) (fs : List (α × Int)) :
    total (f :: fs) = f.2 + total fs := by simp [total]

variable {size ok}

theorem fills_cons {wanted : Int} {a : α} {as : List α} (pos : 0 < wanted) (accept : ok a = true) :
    fills size ok wanted (a :: as) =
      (a, min wanted (size a)) :: fills size ok (wanted - min wanted (size a)) as :=
  if_pos ⟨pos, accept⟩

theorem fills_stop {wanted : Int} {as : List α}
    (h : wanted ≤ 0 ∨ ∀ a, as.head? = some a → ok a = false) : fills size ok wanted as = [] := by
  cases as with
  | nil => rfl
  | cons a as =>
    refine if_neg ?_
    rintro ⟨pos, accept⟩
    rcases h with h | h
    · omega
    · simp [h a rfl] at accept

/-- Nothing more is taken once an item could not be used up. -/
theorem fills_after_partial {wanted : Int} {a : α} {as : List α} (part : wanted < size a) :
    fills size ok (wanted - min wanted (size a)) as = [] :=
  fills_stop (Or.inl (by omega))

theorem mem_fills {wanted : Int} {as : List α} {f : α × Int}
    (positive : ∀ a ∈ as, 0 < size a) (h : f ∈ fills size ok wanted as) :
    f.1 ∈ as ∧ ok f.1 = true ∧ 0 < f.2 ∧ f.2 ≤ size f.1 := by
  induction as generalizing wanted with
  | nil => cases h
  | cons a as ih =>
    by_cases hc : 0 < wanted ∧ ok a = true
    · rw [fills_cons hc.1 hc.2] at h
      rcases List.mem_cons.mp h with rfl | h
      · have hp := positive a List.mem_cons_self
        exact ⟨List.mem_cons_self, hc.2, by simp; omega, min_le_right _ _⟩
      · have ht := ih (fun b hb => positive b (List.mem_cons_of_mem _ hb)) h
        exact ⟨List.mem_cons_of_mem _ ht.1, ht.2⟩
    · rw [fills, if_neg hc] at h
      cases h

theorem total_nonneg {wanted : Int} {as : List α} (positive : ∀ a ∈ as, 0 < size a) :
    0 ≤ total (fills size ok wanted as) := by
  refine List.sum_nonneg ?_
  intro n hn
  obtain ⟨f, hf, rfl⟩ := List.mem_map.mp hn
  exact (mem_fills positive hf).2.2.1.le

theorem total_le {wanted : Int} {as : List α} (nonneg : 0 ≤ wanted) :
    total (fills size ok wanted as) ≤ wanted := by
  induction as generalizing wanted with
  | nil => exact nonneg
  | cons a as ih =>
    by_cases hc : 0 < wanted ∧ ok a = true
    · rw [fills_cons hc.1 hc.2, total_cons]
      have ht : total (fills size ok (wanted - min wanted (size a)) as) ≤ wanted - min wanted (size a) :=
        ih (by omega)
      simp only
      omega
    · rw [fills, if_neg hc]
      exact nonneg

/-- The sweep is complete exactly when the acceptable items in front hold enough. -/
theorem total_eq_wanted_iff {wanted : Int} {as : List α} (pos : 0 < wanted)
    (positive : ∀ a ∈ as, 0 < size a) :
    total (fills size ok wanted as) = wanted ↔ wanted ≤ ((as.takeWhile ok).map size).sum := by
  induction as generalizing wanted with
  | nil => simp; omega
  | cons a as ih =>
    have hp := positive a List.mem_cons_self
    have ht : ∀ b ∈ as, 0 < size b := fun b hb => positive b (List.mem_cons_of_mem _ hb)
    by_cases accept : ok a = true
    · rw [fills_cons pos accept, total_cons, List.takeWhile_cons_of_pos accept, List.map_cons,
        List.sum_cons]
      have hs : 0 ≤ ((as.takeWhile ok).map size).sum := by
        refine List.sum_nonneg ?_
        intro n hn
        obtain ⟨b, hb, rfl⟩ := List.mem_map.mp hn
        exact (ht b ((List.takeWhile_sublist ok).subset hb)).le
      by_cases part : wanted ≤ size a
      · rw [fills_stop (Or.inl (by omega))]
        simp only [total_nil]
        omega
      · have hi : total (fills size ok (wanted - size a) as) = wanted - size a ↔
          wanted - size a ≤ ((as.takeWhile ok).map size).sum := ih (by omega) ht
        have hm : min wanted (size a) = size a := by omega
        simp only [hm]
        omega
    · rw [fills_stop (Or.inr (by simpa using accept)), List.takeWhile_cons_of_neg accept]
      simp
      omega

/-- When more is wanted than was found, the sweep ended at an unacceptable item. -/
theorem leftover_head {reduce : Int → α → α} {wanted : Int} {as : List α}
    (positive : ∀ a ∈ as, 0 < size a) (short : total (fills size ok wanted as) < wanted) :
    ∀ a, (leftover size ok reduce wanted as).head? = some a → ok a = false := by
  induction as generalizing wanted with
  | nil => intro a h; cases h
  | cons b bs ih =>
    have hp := positive b List.mem_cons_self
    intro a h
    by_cases hc : 0 < wanted ∧ ok b = true
    · rw [fills_cons hc.1 hc.2, total_cons] at short
      have hn : 0 ≤ total (fills size ok (wanted - min wanted (size b)) bs) := total_nonneg
        (fun c hc' => positive c (List.mem_cons_of_mem _ hc'))
      have all : size b ≤ wanted := by
        simp only at short
        omega
      have hm : min wanted (size b) = size b := by omega
      rw [leftover, if_pos hc, if_pos all] at h
      refine ih (fun c hc' => positive c (List.mem_cons_of_mem _ hc')) ?_ a h
      simp only [hm] at short
      omega
    · rw [leftover, if_neg hc] at h
      cases h
      have hwanted : 0 < wanted := by
        rw [fills, if_neg hc] at short
        exact short
      simpa [hwanted] using hc

theorem mem_leftover {reduce : Int → α → α} {wanted : Int} {as : List α} {a : α}
    (h : a ∈ leftover size ok reduce wanted as) : ∃ b ∈ as, a = b ∨ ∃ n, a = reduce n b := by
  induction as generalizing wanted with
  | nil => cases h
  | cons b bs ih =>
    rw [leftover] at h
    split at h
    · split at h
      · obtain ⟨c, hc, hac⟩ := ih h
        exact ⟨c, List.mem_cons_of_mem _ hc, hac⟩
      · rcases List.mem_cons.mp h with rfl | h
        · exact ⟨b, List.mem_cons_self, Or.inr ⟨wanted, rfl⟩⟩
        · exact ⟨a, List.mem_cons_of_mem _ h, Or.inl rfl⟩
    · exact ⟨a, h, Or.inl rfl⟩

/-- An order of the items that does not look at what `reduce` changes survives the sweep. -/
theorem leftover_pairwise {R : α → α → Prop} {reduce : Int → α → α} {wanted : Int} {as : List α}
    (blind : ∀ n a b, R a b → R (reduce n a) b) (h : as.Pairwise R) :
    (leftover size ok reduce wanted as).Pairwise R := by
  induction as generalizing wanted with
  | nil => exact .nil
  | cons b bs ih =>
    rw [leftover]
    split
    · split
      · exact ih h.of_cons
      · exact .cons (fun c hc => blind _ _ _ (List.rel_of_pairwise_cons h hc)) h.of_cons
    · exact h

/-- Where acceptance is closed towards the front, the acceptable items are a prefix. -/
theorem takeWhile_eq_filter {as : List α}
    (closed : as.Pairwise (fun a b => ok b = true → ok a = true)) :
    as.takeWhile ok = as.filter ok := by
  induction as with
  | nil => rfl
  | cons a as ih =>
    by_cases accept : ok a = true
    · rw [List.takeWhile_cons_of_pos accept, List.filter_cons_of_pos accept, ih closed.of_cons]
    · have rest : as.filter ok = [] := by
        apply List.filter_eq_nil_iff.mpr
        intro b hb accept'
        exact accept (List.rel_of_pairwise_cons closed hb accept')
      rw [List.takeWhile_cons_of_neg accept, List.filter_cons_of_neg accept, rest]

end Lib.Sweep
