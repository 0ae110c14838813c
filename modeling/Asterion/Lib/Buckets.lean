import Asterion.Lib.SortedMap

/-! A sorted map whose values are non-empty buckets of items filed under their key is
the same thing as one list of items in stable priority order: pushing to the back of a
bucket is `List.orderedInsert`, and per-item changes of a bucket are the same changes
of the list. -/
namespace Lib.Buckets

open Lib.SortedMap

variable {K V α : Type} {r : K → K → Prop} {items : V → List α} {key : α → K}

def flat (items : V → List α) (es : List (K × V)) : List α := es.flatMap (fun e => items e.2)

/-- Every bucket is non-empty and holds only items of its key. -/
def Filed (items : V → List α) (key : α → K) (es : List (K × V)) : Prop :=
  ∀ e ∈ es, items e.2 ≠ [] ∧ ∀ a ∈ items e.2, key a = e.1

@[simp] theorem flat_nil : flat items ([] : List (K × V)) = [] := rfl

@[simp] theorem flat_cons (e : K × V) (es : List (K × V)) :
    flat items (e :: es) = items e.2 ++ flat items es := rfl

theorem Filed.tail {e : K × V} {es : List (K × V)} (h : Filed items key (e :: es)) :
    Filed items key es := fun a ha => h a (List.mem_cons_of_mem _ ha)

theorem mem_flat {a : α} {es : List (K × V)} :
    a ∈ flat items es ↔ ∃ e ∈ es, a ∈ items e.2 := by
  simp [flat]

theorem key_of_mem_flat {a : α} {es : List (K × V)} (filed : Filed items key es)
    (h : a ∈ flat items es) : ∃ v, (key a, v) ∈ es ∧ a ∈ items v := by
  obtain ⟨e, he, ha⟩ := mem_flat.mp h
  exact ⟨e.2, (filed e he).2 a ha ▸ he, ha⟩

theorem flat_sorted [IsStrictTotalOrder K r] {es : List (K × V)}
    (sorted : es.Pairwise (fun a b => r a.1 b.1)) (filed : Filed items key es) :
    (flat items es).Pairwise (fun a b => ¬ r (key b) (key a)) := by
  induction es with
  | nil => exact .nil
  | cons e es ih =>
    have he := filed e List.mem_cons_self
    rw [flat_cons, List.pairwise_append]
    refine ⟨?_, ih sorted.of_cons filed.tail, ?_⟩
    · apply List.pairwise_of_forall_mem_list
      intro a ha b hb
      rw [he.2 a ha, he.2 b hb]
      exact irrefl_of r e.1
    · intro a ha b hb
      obtain ⟨v, hv, _⟩ := key_of_mem_flat filed.tail hb
      rw [he.2 a ha]
      exact asymm_of r (List.rel_of_pairwise_cons sorted hv)

theorem flat_head? {es : List (K × V)} (filed : Filed items key es) :
    (flat items es).head? = es.head?.bind (fun e => (items e.2).head?) := by
  cases es with
  | nil => rfl
  | cons e es =>
    have he := (filed e List.mem_cons_self).1
    rw [flat_cons, List.head?_append_of_ne_nil _ he]
    rfl

theorem head?_key {es : List (K × V)} (filed : Filed items key es) :
    es.head?.map Prod.fst = (flat items es).head?.map key := by
  cases es with
  | nil => rfl
  | cons e es =>
    have he := filed e List.mem_cons_self
    obtain ⟨a, as, ha⟩ := List.exists_cons_of_ne_nil he.1
    have hk := he.2 a (by simp [ha])
    simp [flat_cons, ha, hk]

/-- Removing emptied buckets leaves the list as it is. -/
theorem flat_erase {p : K × V → Bool} {es : List (K × V)}
    (h : ∀ e ∈ es, p e = false → items e.2 = []) : flat items (es.filter p) = flat items es := by
  induction es with
  | nil => rfl
  | cons e es ih =>
    have ht := ih (fun a ha => h a (List.mem_cons_of_mem _ ha))
    cases hp : p e with
    | false =>
      rw [List.filter_cons_of_neg (by simp [hp]), flat_cons, h e List.mem_cons_self hp, ht]
      rfl
    | true => rw [List.filter_cons_of_pos hp, flat_cons, flat_cons, ht]

section Update
variable [DecidableEq K]

/-- A change of each item of one bucket is the same change of the list. -/
theorem flat_map_mem {k : K} {f : V → V} {g : α → α} {es : List (K × V)}
    (filed : Filed items key es) (change : ∀ v, (k, v) ∈ es → items (f v) = (items v).map g)
    (other : ∀ a ∈ flat items es, key a ≠ k → g a = a) :
    flat items (modifyEntries k f es) = (flat items es).map g := by
  induction es with
  | nil => rfl
  | cons e es ih =>
    have ht := ih filed.tail (fun v hv => change v (List.mem_cons_of_mem _ hv))
      (fun a ha => other a (List.mem_append_right _ ha))
    rw [modifyEntries_cons, flat_cons, flat_cons, List.map_append, ht]
    congr 1
    by_cases hk : e.1 = k
    · rw [if_pos hk]
      exact change e.2 (hk ▸ List.mem_cons_self)
    · rw [if_neg hk]
      have same : ∀ a ∈ items e.2, g a = a := fun a ha =>
        other a (List.mem_append_left _ ha) ((filed e List.mem_cons_self).2 a ha ▸ hk)
      exact ((List.map_congr_left same).trans (List.map_id _)).symm

/-- Removing items from one bucket is removing them from the list. -/
theorem flat_filter {k : K} {f : V → V} {p : α → Bool} {es : List (K × V)}
    (filed : Filed items key es) (change : ∀ v, (k, v) ∈ es → items (f v) = (items v).filter p)
    (other : ∀ a ∈ flat items es, key a ≠ k → p a = true) :
    flat items (modifyEntries k f es) = (flat items es).filter p := by
  induction es with
  | nil => rfl
  | cons e es ih =>
    have ht := ih filed.tail (fun v hv => change v (List.mem_cons_of_mem _ hv))
      (fun a ha => other a (List.mem_append_right _ ha))
    rw [modifyEntries_cons, flat_cons, flat_cons, List.filter_append, ht]
    congr 1
    by_cases hk : e.1 = k
    · rw [if_pos hk]
      exact change e.2 (hk ▸ List.mem_cons_self)
    · rw [if_neg hk]
      have same : ∀ a ∈ items e.2, p a = true := fun a ha =>
        other a (List.mem_append_left _ ha) ((filed e List.mem_cons_self).2 a ha ▸ hk)
      exact (List.filter_eq_self.mpr same).symm

theorem flat_filter_key {k : K} {es : List (K × V)} [IsStrictTotalOrder K r]
    (sorted : es.Pairwise (fun a b => r a.1 b.1)) (filed : Filed items key es) :
    (flat items es).filter (fun a => key a = k) =
      (((⟨es, sorted⟩ : SortedMap r V).find? k).map items).getD [] := by
  induction es with
  | nil => rfl
  | cons e es ih =>
    have he := (filed e List.mem_cons_self).2
    have ht := ih sorted.of_cons filed.tail
    rw [flat_cons, List.filter_append, ht]
    by_cases hk : e.1 = k
    · have all : (items e.2).filter (fun a => key a = k) = items e.2 :=
        List.filter_eq_self.mpr (fun a ha => by simp [he a ha, hk])
      have none : (⟨es, sorted.of_cons⟩ : SortedMap r V).find? k = none := by
        rw [find?_eq_none]
        intro b hb hbk
        have hr : r e.1 b.1 := List.rel_of_pairwise_cons sorted hb
        exact irrefl_of r k (by rwa [hk, hbk] at hr)
      rw [all, none]
      simp [find?, hk]
    · have nothing : (items e.2).filter (fun a => key a = k) = [] :=
        List.filter_eq_nil_iff.mpr (fun a ha => by simp [he a ha, hk])
      rw [nothing]
      simp [find?, hk]

theorem orderedInsert_past {s : α → α → Prop} [DecidableRel s] {a : α} (bs rest : List α)
    (h : ∀ b ∈ bs, ¬ s a b) :
    (bs ++ rest).orderedInsert s a = bs ++ rest.orderedInsert s a := by
  induction bs with
  | nil => rfl
  | cons b bs ih =>
    rw [List.cons_append, List.orderedInsert_cons, if_neg (h b List.mem_cons_self),
      ih (fun c hc => h c (List.mem_cons_of_mem _ hc))]
    rfl

variable [DecidableRel r]

/-- Pushing to the back of a bucket, created where it is missing, puts the item behind
every item that is not strictly after its key. -/
theorem flat_push [IsStrictTotalOrder K r] {k : K} {d : V} {f : V → V} {a : α}
    {es : List (K × V)} (sorted : es.Pairwise (fun a b => r a.1 b.1))
    (filed : Filed items key es) (fresh : items d = [])
    (push : ∀ v, items (f v) = items v ++ [a]) (hk : key a = k) :
    flat items (modifyEntries k f (emplaceEntries r k d es)) =
      (flat items es).orderedInsert (fun x y => r (key x) (key y)) a := by
  subst hk
  induction es with
  | nil => simp [emplaceEntries, push, fresh]
  | cons e es ih =>
    have he := filed e List.mem_cons_self
    have ht := ih sorted.of_cons filed.tail
    simp only [emplaceEntries]
    by_cases hlt : r (key a) e.1
    · -- the new bucket stands in front of everything that follows
      rw [if_pos hlt]
      have hne : ∀ b ∈ e :: es, b.1 ≠ key a := by
        intro b hb heq
        rcases List.mem_cons.mp hb with rfl | hb
        · exact irrefl_of r (key a) (by rwa [heq] at hlt)
        · have hr := trans_of r hlt (List.rel_of_pairwise_cons sorted hb)
          exact irrefl_of r (key a) (by rwa [heq] at hr)
      rw [modifyEntries_cons, modifyEntries_absent hne]
      obtain ⟨b, bs, hb⟩ := List.exists_cons_of_ne_nil he.1
      have hkb : key b = e.1 := he.2 b (by simp [hb])
      simp [push, fresh, flat_cons, hb, hkb, hlt]
    · rw [if_neg hlt]
      by_cases heq : e.1 = key a
      · rw [if_pos heq, modifyEntries_cons, if_pos heq]
        have hne : ∀ b ∈ es, b.1 ≠ key a := by
          intro b hb hbk
          have hr : r e.1 b.1 := List.rel_of_pairwise_cons sorted hb
          exact irrefl_of r (key a) (by rwa [heq, hbk] at hr)
        rw [modifyEntries_absent hne, flat_cons, flat_cons, push,
          orderedInsert_past _ _ (fun b hb => by rw [he.2 b hb]; exact hlt), List.append_assoc]
        congr 1
        cases es with
        | nil => rfl
        | cons c es =>
          have hc := filed.tail c List.mem_cons_self
          obtain ⟨b, bs, hb⟩ := List.exists_cons_of_ne_nil hc.1
          have hkb : key b = c.1 := hc.2 b (by simp [hb])
          have hr : r (key a) c.1 := heq ▸ List.rel_of_pairwise_cons sorted List.mem_cons_self
          simp [flat_cons, hb, hkb, hr]
      · rw [if_neg heq, modifyEntries_cons, if_neg heq, flat_cons, flat_cons, ht,
          orderedInsert_past _ _ (fun b hb => by rw [he.2 b hb]; exact hlt)]

end Update

section Shelve
variable [DecidableEq K]

def shelve (key : α → K) (ks : List K) (q : List α) : List (K × List α) :=
  ks.map (fun k => (k, q.filter (fun a => key a = k)))

theorem filter_first [IsStrictTotalOrder K r] {k : K} {q : List α}
    (sorted : q.Pairwise (fun a b => ¬ r (key b) (key a))) (first : ∀ a ∈ q, ¬ r (key a) k) :
    q.filter (fun a => key a = k) ++ q.filter (fun a => key a ≠ k) = q := by
  induction q with
  | nil => rfl
  | cons a q ih =>
    by_cases hk : key a = k
    · have ht := ih sorted.of_cons (fun b hb => first b (List.mem_cons_of_mem _ hb))
      simpa [hk] using ht
    · -- an item of a later key, so no item of the key follows
      have hr : r k (key a) := ((trichotomous_of r k (key a)).resolve_right (by
        rintro (h | h)
        · exact hk h.symm
        · exact first a List.mem_cons_self h))
      have later : ∀ b ∈ q, key b ≠ k := fun b hb hbk =>
        List.rel_of_pairwise_cons sorted hb (hbk ▸ hr)
      have none : q.filter (fun b => key b = k) = [] :=
        List.filter_eq_nil_iff.mpr (fun b hb => by simpa using later b hb)
      have all : q.filter (fun b => key b ≠ k) = q :=
        List.filter_eq_self.mpr (fun b hb => by simpa using later b hb)
      rw [List.filter_cons_of_neg (by simpa using hk), List.filter_cons_of_pos (by simpa using hk),
        none, all]
      rfl

/-- A list in priority order is its shelves, one after the other. -/
theorem flat_shelve [IsStrictTotalOrder K r] {ks : List K} {q : List α} (keys : ks.Pairwise r)
    (sorted : q.Pairwise (fun a b => ¬ r (key b) (key a))) (cover : ∀ a ∈ q, key a ∈ ks) :
    flat (fun v => v) (shelve key ks q) = q := by
  induction ks generalizing q with
  | nil =>
    cases q with
    | nil => rfl
    | cons a q => exact absurd (cover a List.mem_cons_self) List.not_mem_nil
  | cons k ks ih =>
    have hother : ∀ k' ∈ ks, k' ≠ k := fun k' hk' he =>
      irrefl_of r k (he ▸ List.rel_of_pairwise_cons keys hk')
    have hfirst : ∀ a ∈ q, ¬ r (key a) k := by
      intro a ha hr
      rcases List.mem_cons.mp (cover a ha) with hk | hk
      · exact irrefl_of r k (by rwa [hk] at hr)
      · exact asymm_of r hr (List.rel_of_pairwise_cons keys hk)
    have hrest : shelve key ks q = shelve key ks (q.filter (fun a => key a ≠ k)) := by
      apply List.map_congr_left
      intro k' hk'
      have hsame : (q.filter (fun a => key a ≠ k)).filter (fun a => key a = k') =
          q.filter (fun a => key a = k') := by
        rw [List.filter_filter]
        apply List.filter_congr
        intro a _
        by_cases h : key a = k'
        · simp [h, hother k' hk']
        · simp [h]
      rw [hsame]
    have ht := ih keys.of_cons (sorted.sublist List.filter_sublist) (by
      intro a ha
      obtain ⟨ha, hne⟩ := List.mem_filter.mp ha
      exact (List.mem_cons.mp (cover a ha)).resolve_left (of_decide_eq_true hne))
    rw [← hrest] at ht
    calc flat (fun v => v) (shelve key (k :: ks) q)
        = q.filter (fun a => key a = k) ++ flat (fun v => v) (shelve key ks q) := rfl
      _ = q.filter (fun a => key a = k) ++ q.filter (fun a => key a ≠ k) := by rw [ht]
      _ = q := filter_first sorted hfirst

/-- On the shelf of its key the new item goes to the back. -/
theorem filter_orderedInsert [IsStrictTotalOrder K r] [DecidableRel r] {a : α} {q : List α}
    (sorted : q.Pairwise (fun a b => ¬ r (key b) (key a))) (k : K) :
    (q.orderedInsert (fun x y => r (key x) (key y)) a).filter (fun b => key b = k) =
      if key a = k then q.filter (fun b => key b = k) ++ [a] else q.filter (fun b => key b = k) := by
  induction q with
  | nil => by_cases hk : key a = k <;> simp [hk]
  | cons b q ih =>
    rw [List.orderedInsert_cons]
    by_cases hr : r (key a) (key b)
    · rw [if_pos hr]
      by_cases hk : key a = k
      · have none : (b :: q).filter (fun c => key c = k) = [] := by
          rw [List.filter_eq_nil_iff]
          intro c hc hck
          have hck : key c = key a := (of_decide_eq_true hck).trans hk.symm
          rcases List.mem_cons.mp hc with rfl | hc
          · exact irrefl_of r (key a) (by rwa [hck] at hr)
          · exact List.rel_of_pairwise_cons sorted hc (hck ▸ hr)
        rw [if_pos hk, List.filter_cons_of_pos (by simpa using hk), none]
        rfl
      · rw [if_neg hk, List.filter_cons_of_neg (by simpa using hk)]
    · have ht := ih sorted.of_cons
      rw [if_neg hr, List.filter_cons, List.filter_cons, ht]
      split <;> split <;> rfl

end Shelve
end Lib.Buckets
