import Mathlib

/-! Looking for a text in another: at its front, anywhere, or at the front of one of the words
that a separator cuts it into. -/
namespace Lib.Search

variable {α : Type} [DecidableEq α]

def strip (needle text : List α) : Option (List α) :=
  if needle <+: text then some (text.drop needle.length) else none

def after (needle : List α) : List α → Option (List α)
  | [] => strip needle []
  | c :: cs =>
    match strip needle (c :: cs) with
    | some rest => some rest
    | none => after needle cs

def wordAfter (separator : α) (needle text : List α) : Option (List α) :=
  (text.splitOn separator).findSome? (strip needle)

@[simp] theorem strip_append (needle rest : List α) : strip needle (needle ++ rest) = some rest := by
  rw [strip, if_pos (List.prefix_append _ _), List.drop_left]

theorem strip_eq_none {needle text : List α} (h : ¬ needle <+: text) : strip needle text = none :=
  if_neg h

theorem after_found {needle : List α} (some : needle ≠ []) (rest : List α) :
    after needle (needle ++ rest) = Option.some rest := by
  obtain ⟨c, cs, rfl⟩ := List.exists_cons_of_ne_nil some
  rw [List.cons_append, after, ← List.cons_append, strip_append]

theorem after_miss {needle : List α} {c : α} {cs : List α} (h : ¬ needle <+: c :: cs) :
    after needle (c :: cs) = after needle cs := by
  rw [after, strip_eq_none h]

/-- No occurrence starts in a block without the needle's first character. -/
theorem after_block {first : α} {needle block : List α} (h : first ∉ block) (rest : List α) :
    after (first :: needle) (block ++ rest) = after (first :: needle) rest := by
  induction block with
  | nil => rfl
  | cons c block ih =>
    rw [List.mem_cons, not_or] at h
    rw [List.cons_append, after_miss (fun hp => h.1 (List.cons_prefix_cons.mp hp).1), ih h.2]

omit [DecidableEq α] in
/-- Two keys that end at their first separator are equal where one is found for the other. -/
theorem key_unique {equals : α} {k k' rest : List α} (hk : equals ∉ k) (hk' : equals ∉ k')
    (h : k ++ [equals] <+: k' ++ equals :: rest) : k = k' := by
  induction k generalizing k' with
  | nil =>
    cases k' with
    | nil => rfl
    | cons d k' =>
      obtain rfl := (List.cons_prefix_cons.mp h).1
      exact absurd List.mem_cons_self hk'
  | cons c k ih =>
    cases k' with
    | nil =>
      obtain rfl := (List.cons_prefix_cons.mp h).1
      exact absurd List.mem_cons_self hk
    | cons d k' =>
      rw [List.mem_cons, not_or] at hk hk'
      obtain ⟨rfl, tail⟩ := List.cons_prefix_cons.mp h
      rw [ih hk.2 hk'.2 tail]

section Words
variable {separator equals : α}

def word (equals : α) (field : List α × List α) : List α := field.1 ++ equals :: field.2

/-- The word-wise search for a key finds the value of its first field. -/
theorem findSome?_words {key : List α} {fields : List (List α × List α)}
    (plain : ∀ f ∈ fields, equals ∉ f.1) (hk : equals ∉ key) :
    (fields.map (word equals)).findSome? (strip (key ++ [equals])) =
      (fields.find? (fun f => f.1 = key)).map Prod.snd := by
  induction fields with
  | nil => rfl
  | cons f fields ih =>
    have hf := plain f List.mem_cons_self
    have rest := ih (fun g hg => plain g (List.mem_cons_of_mem _ hg))
    by_cases same : f.1 = key
    · have found : strip (key ++ [equals]) (word equals f) = some f.2 := by
        have split : word equals f = (key ++ [equals]) ++ f.2 := by
          rw [word, same, List.append_assoc]
          rfl
        rw [split, strip_append]
      simp only [List.map_cons, List.findSome?_cons, found]
      rw [List.find?_cons_of_pos (by simpa using same)]
      rfl
    · have missed : strip (key ++ [equals]) (word equals f) = none :=
        strip_eq_none (fun h => same (key_unique hk hf h).symm)
      simp only [List.map_cons, List.findSome?_cons, missed]
      rw [List.find?_cons_of_neg (by simpa using same)]
      exact rest

/-- A block without separators belongs to the first word. -/
theorem splitOn_block {block : List α} (h : separator ∉ block) (rest : List α) :
    (block ++ rest).splitOn separator = (rest.splitOn separator).modifyHead (block ++ ·) := by
  induction block with
  | nil =>
    cases hr : rest.splitOn separator with
    | nil => exact hr
    | cons w ws => exact hr
  | cons c block ih =>
    rw [List.mem_cons, not_or] at h
    have other : ¬ (c == separator) = true := by
      rw [beq_iff_eq]
      exact fun same => h.1 same.symm
    rw [List.cons_append, List.splitOn_cons_eq_if_modifyHead, if_neg other, ih h.2,
      List.modifyHead_modifyHead]
    rfl

/-- Blocks that each end in a separator, and nothing behind the last. -/
theorem splitOn_blocks {blocks : List (List α)} (h : ∀ block ∈ blocks, separator ∉ block) :
    (blocks.flatMap (· ++ [separator])).splitOn separator = blocks ++ [[]] := by
  induction blocks with
  | nil => rfl
  | cons block blocks ih =>
    have rest := ih (fun b hb => h b (List.mem_cons_of_mem _ hb))
    rw [List.flatMap_cons, List.append_assoc, List.singleton_append,
      List.splitOn_append_cons_self_of_not_mem (h block List.mem_cons_self), rest]
    rfl

end Words

omit [DecidableEq α] in
theorem mem_intercalate {separator b : α} {blocks : List (List α)}
    (h : b ∈ [separator].intercalate blocks) : b = separator ∨ ∃ block ∈ blocks, b ∈ block := by
  obtain ⟨part, hp, hb⟩ := List.mem_flatten.mp h
  induction blocks with
  | nil => cases hp
  | cons block blocks ih =>
    cases blocks with
    | nil =>
      obtain rfl := List.mem_singleton.mp hp
      exact Or.inr ⟨part, List.mem_cons_self, hb⟩
    | cons next blocks =>
      rw [List.intersperse_cons_cons] at hp
      rcases List.mem_cons.mp hp with rfl | hp
      · exact Or.inr ⟨part, List.mem_cons_self, hb⟩
      rcases List.mem_cons.mp hp with rfl | hp
      · exact Or.inl (List.mem_singleton.mp hb)
      · rcases ih (List.mem_flatten.mpr ⟨part, hp, hb⟩) hp with same | ⟨inner, hi, hb⟩
        · exact Or.inl same
        · exact Or.inr ⟨inner, List.mem_cons_of_mem _ hi, hb⟩

omit [DecidableEq α] in
/-- A separator behind a text that starts with a block lies behind the block. -/
theorem separator_behind {separator : α} {block s t u : List α} (hb : separator ∉ block)
    (h : block ++ s = t ++ separator :: u) : ∃ w, t = block ++ w ∧ s = w ++ separator :: u := by
  rcases List.append_eq_append_iff.mp h with ⟨w, rfl, same⟩ | ⟨w, rfl, same⟩
  · exact ⟨w, rfl, same⟩
  · cases w with
    | nil => exact ⟨[], by rw [List.append_nil, List.append_nil], same.symm⟩
    | cons c w =>
      obtain ⟨rfl, -⟩ := List.cons.inj same
      exact absurd (List.mem_append_right _ List.mem_cons_self) hb

omit [DecidableEq α] in
/-- A separator ends a block that is followed by one, or goes past that one. -/
theorem first_separator {separator : α} {block s t u : List α} (hb : separator ∉ block)
    (h : block ++ separator :: s = t ++ separator :: u) :
    (t = block ∧ s = u) ∨ ∃ w, t = block ++ separator :: w ∧ s = w ++ separator :: u := by
  obtain ⟨w, rfl, same⟩ := separator_behind hb h
  cases w with
  | nil => exact Or.inl ⟨List.append_nil block, (List.cons.inj same).2⟩
  | cons c w =>
    obtain ⟨rfl, rest⟩ := List.cons.inj same
    exact Or.inr ⟨w, rfl, rest⟩

omit [DecidableEq α] in
/-- A pattern whose last element is not in the tail of a text lies in front of the tail. -/
theorem infix_of_append {pattern s tail u v : List α} {b : α} (hb : b ∉ tail)
    (h : s ++ tail = u ++ (pattern ++ [b]) ++ v) : pattern ++ [b] <:+: s := by
  rcases List.append_eq_append_iff.mp h with ⟨w, inside, rfl⟩ | ⟨w, rfl, -⟩
  · have last := congrArg List.getLast? inside
    rw [← List.append_assoc, List.getLast?_concat] at last
    rcases List.eq_nil_or_concat' w with rfl | ⟨w, c, rfl⟩
    · rw [List.append_nil] at inside
      exact ⟨u, [], by rw [List.append_nil, inside]⟩
    · rw [← List.append_assoc, List.getLast?_concat] at last
      obtain rfl := Option.some.inj last
      exact absurd (List.mem_append_left _ (List.mem_append_right _ (List.mem_singleton_self _))) hb
  · exact ⟨u, w, rfl⟩

end Lib.Search
