import Mathlib

/-! Lists that are kept as links between cells: a path follows the links from an entry to the end. A
doubly linked list is a path forwards and a path of the same cells backwards. -/
namespace Lib.LinkedPath

variable {ι : Type} {next next' prev prev' : ι → Option ι} {h k t : Option ι} {x y : ι}
  {xs ys front back : List ι}

/-- From the entry the links lead through exactly these cells, and end. -/
def Path (next : ι → Option ι) : Option ι → List ι → Prop
  | h, [] => h = none
  | h, x :: xs => h = some x ∧ Path next (next x) xs

@[simp] theorem path_nil : Path next h [] ↔ h = none := Iff.rfl

@[simp] theorem path_cons : Path next h (x :: xs) ↔ h = some x ∧ Path next (next x) xs := Iff.rfl

theorem Path.congr (path : Path next h xs) (same : ∀ y ∈ xs, next' y = next y) :
    Path next' h xs := by
  induction xs generalizing h with
  | nil => exact path
  | cons x xs ih =>
    refine ⟨path.1, ?_⟩
    rw [same x List.mem_cons_self]
    exact ih path.2 (fun y hy => same y (List.mem_cons_of_mem _ hy))

theorem Path.head (path : Path next h xs) : h = xs.head? := by
  cases xs with
  | nil => exact path
  | cons x xs => exact path.1

theorem Path.at (path : Path next h (front ++ x :: back)) : Path next (next x) back := by
  induction front generalizing h with
  | nil => exact path.2
  | cons y front ih => exact ih path.2

theorem Path.push (path : Path next h xs) (new : y ∉ xs) (link : next' y = h)
    (others : ∀ z, z ≠ y → next' z = next z) : Path next' (some y) (y :: xs) := by
  refine ⟨rfl, ?_⟩
  rw [link]
  exact path.congr (fun z hz => others z (fun same => new (same ▸ hz)))

theorem Path.redirect {rest : List ι} (path : Path next h (front ++ x :: rest))
    (tail : Path next k back) (link : next' x = k) (others : ∀ z, z ≠ x → next' z = next z)
    (before : x ∉ front) (behind : x ∉ back) : Path next' h (front ++ x :: back) := by
  induction front generalizing h with
  | nil =>
    refine ⟨path.1, ?_⟩
    rw [link]
    exact tail.congr (fun z hz => others z (fun same => behind (same ▸ hz)))
  | cons y front ih =>
    obtain ⟨apart, before⟩ := not_or.mp (List.mem_cons.not.mp before)
    refine ⟨path.1, ?_⟩
    rw [others y (Ne.symm apart)]
    exact ih path.2 before

/-- A doubly linked list with an entry at each end. -/
structure Linked (prev next : ι → Option ι) (head tail : Option ι) (xs : List ι) : Prop where
  forward : Path next head xs
  backward : Path prev tail xs.reverse

namespace Linked

theorem nil : Linked prev next none none ([] : List ι) := ⟨rfl, rfl⟩

theorem congr (list : Linked prev next h t xs) (forward : ∀ y ∈ xs, next' y = next y)
    (backward : ∀ y ∈ xs, prev' y = prev y) : Linked prev' next' h t xs :=
  ⟨list.forward.congr forward,
    list.backward.congr (fun y hy => backward y (List.mem_reverse.mp hy))⟩

theorem tail_eq (list : Linked prev next h t xs) : t = xs.getLast? := by
  rw [list.backward.head, List.head?_reverse]

/-- The cell in front of a cell, and the one behind it. -/
theorem neighbours (list : Linked prev next h t (front ++ x :: back)) :
    prev x = front.getLast? ∧ next x = back.head? := by
  refine ⟨?_, list.forward.at.head⟩
  have split : (front ++ x :: back).reverse = back.reverse ++ x :: front.reverse := by simp
  have backward := split ▸ list.backward
  rw [backward.at.head, List.head?_reverse]

/-- A cell goes to the end: it is linked to the old end, and the old end to it. -/
theorem append (list : Linked prev next h t xs) (new : y ∉ xs) (single : xs.Nodup)
    (last : next' y = none) (link : prev' y = t)
    (joined : ∀ z, t = some z → next' z = some y)
    (forward : ∀ z, z ≠ y → t ≠ some z → next' z = next z)
    (backward : ∀ z, z ≠ y → prev' z = prev z) :
    Linked prev' next' (h.or (some y)) (some y) (xs ++ [y]) := by
  classical
  refine ⟨?_, ?_⟩
  · rcases List.eq_nil_or_concat xs with rfl | ⟨front, z, rfl⟩
    · rw [path_nil.mp list.forward]
      exact ⟨rfl, last⟩
    · have end_z : t = some z := by rw [list.tail_eq]; simp
      have entry : h.or (some y) = h := by
        rw [list.forward.head]
        cases front <;> rfl
      have apart : z ≠ y := fun same => new (by simp [same])
      have before : z ∉ front := by
        rw [List.concat_eq_append, List.nodup_append] at single
        exact fun mem => single.2.2 z mem z (by simp) rfl
      have tail : Path (fun w => if w = y then none else next w) (some y) [y] := ⟨rfl, if_pos rfl⟩
      have path : Path (fun w => if w = y then none else next w) h (front ++ [z]) :=
        Path.congr (by simpa using list.forward) (fun w hw => if_neg (by
          rintro rfl
          exact new (by simpa using hw)))
      have whole := path.redirect tail (joined z end_z) (fun w hw => by
        by_cases same : w = y
        · rw [same, last, if_pos rfl]
        · rw [if_neg same]
          exact forward w same (fun other => hw (Option.some.inj (end_z.symm.trans other)).symm))
        before (by simpa using apart)
      rw [entry]
      simpa using whole
  · have reversed : (xs ++ [y]).reverse = y :: xs.reverse := by simp
    rw [reversed]
    exact list.backward.push (fun mem => new (List.mem_reverse.mp mem)) link backward

/-- A cell leaves: its neighbours, or the entries in place of them, are linked with each other. -/
theorem unlink (list : Linked prev next h t (front ++ x :: back))
    (single : (front ++ x :: back).Nodup)
    (forward : ∀ z, front.getLast? = some z → next' z = next x)
    (backward : ∀ z, back.head? = some z → prev' z = prev x)
    (others : ∀ z, front.getLast? ≠ some z → next' z = next z)
    (others' : ∀ z, back.head? ≠ some z → prev' z = prev z) :
    Linked prev' next' (if front = [] then next x else h) (if back = [] then prev x else t)
      (front ++ back) := by
  have apart := (List.nodup_middle.mp single)
  rw [List.nodup_cons] at apart
  have disjoint := List.disjoint_of_nodup_append apart.2
  refine ⟨?_, ?_⟩
  · rcases List.eq_nil_or_concat front with rfl | ⟨front, z, rfl⟩
    · rw [if_pos rfl]
      exact list.forward.2.congr (fun w _ => others w (by simp))
    · have last : (front.concat z).getLast? = some z := by simp
      rw [if_neg (by simp)]
      have path : Path next h (front ++ z :: x :: back) := by simpa using list.forward
      have once : z ∉ front := by
        have nodup := (List.nodup_append.mp apart.2).1
        rw [List.concat_eq_append, List.nodup_append] at nodup
        exact fun mem => nodup.2.2 z mem z (by simp) rfl
      have whole := path.redirect path.at.2 (forward z last) (fun w hw => others w (by
        rw [last]
        exact fun same => hw (Option.some.inj same).symm)) once
        (fun mem => disjoint (a := z) (by simp) mem)
      simpa using whole
  · have split : (front ++ x :: back).reverse = back.reverse ++ x :: front.reverse := by simp
    have path := split ▸ list.backward
    rw [List.reverse_append]
    cases back with
    | nil =>
      rw [if_pos rfl]
      exact path.2.congr (fun w _ => others' w (by simp))
    | cons z back =>
      rw [if_neg (by simp)]
      have path : Path prev t (back.reverse ++ z :: x :: front.reverse) := by simpa using path
      have once : z ∉ back.reverse := by
        have nodup := (List.nodup_append.mp apart.2).2.1
        rw [List.nodup_cons] at nodup
        exact fun mem => nodup.1 (List.mem_reverse.mp mem)
      have whole := path.redirect path.at.2 (backward z rfl) (fun w hw => others' w (by
        rw [List.head?_cons]
        exact fun same => hw (Option.some.inj same).symm)) once
        (fun mem => disjoint (a := z) (List.mem_reverse.mp mem) List.mem_cons_self)
      simpa using whole

end Linked

end Lib.LinkedPath
