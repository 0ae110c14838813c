import Asterion.Lib.Search

/-! One JSON object on a line, written field by field, and a reader that looks for the text of a
quoted key instead of parsing the object. The reader gives a string back as it was escaped. -/
namespace Lib.JsonLine
open Lib.Search

def quote : UInt8 := 34
def comma : UInt8 := 44
def colon : UInt8 := 58
def backslash : UInt8 := 92
def openBrace : UInt8 := 123
def closeBrace : UInt8 := 125

def escapeByte (b : UInt8) : List UInt8 :=
  if b = backslash then [backslash, backslash]
  else if b = quote then [backslash, quote]
  else if b = 10 then [backslash, 110]
  else if b = 13 then [backslash, 114]
  else if b = 9 then [backslash, 116]
  else [b]

def escape (text : List UInt8) : List UInt8 := text.flatMap escapeByte

/-- The text up to the first quote that no backslash escapes. -/
def quoted (escaped : Bool) : List UInt8 → Option (List UInt8)
  | [] => none
  | b :: bs =>
    if escaped = false ∧ b = quote then some []
    else (quoted (!escaped && b == backslash) bs).map (b :: ·)

def endsValue (b : UInt8) : Bool := b == comma || b == closeBrace

def valueAt : List UInt8 → Option (List UInt8)
  | [] => none
  | b :: bs =>
    if b = quote then quoted false bs else some ((b :: bs).takeWhile (fun b => !endsValue b))

def needle (key : List UInt8) : List UInt8 := quote :: (key ++ [quote, colon])

def valueFor (line key : List UInt8) : Option (List UInt8) := (after (needle key) line).bind valueAt

inductive Value where
  | raw (text : List UInt8)
  | string (text : List UInt8)

def Value.text : Value → List UInt8
  | .raw text => text
  | .string text => quote :: (escape text ++ [quote])

def Value.read : Value → List UInt8
  | .raw text => text
  | .string text => escape text

def field (f : List UInt8 × Value) : List UInt8 := needle f.1 ++ f.2.text

def object (fields : List (List UInt8 × Value)) : List UInt8 :=
  openBrace :: ([comma].intercalate (fields.map field) ++ [closeBrace])

/-- The bytes that give a line its structure. -/
def marks : List UInt8 := [quote, backslash, colon, comma, closeBrace]

def Plain (text : List UInt8) : Prop := ∀ b ∈ text, b ∉ marks

def Value.Plain : Value → Prop
  | .raw text => JsonLine.Plain text
  | .string _ => True

theorem plain_cons {b : UInt8} {bs : List UInt8} (h : Plain (b :: bs)) : b ∉ marks ∧ Plain bs :=
  ⟨h b List.mem_cons_self, fun c hc => h c (List.mem_cons_of_mem _ hc)⟩

theorem quote_not_mem {text : List UInt8} (h : Plain text) : quote ∉ text :=
  fun hq => h quote hq (by decide)

/-- An escaped byte is written as itself and is no quote, or starts with a backslash. -/
theorem escapeByte_cases (b : UInt8) :
    (escapeByte b = [b] ∧ b ≠ quote ∧ b ≠ backslash) ∨
      ∃ c, escapeByte b = [backslash, c] := by
  unfold escapeByte
  split
  · exact Or.inr ⟨_, rfl⟩
  · rename_i hb
    split
    · exact Or.inr ⟨_, rfl⟩
    · rename_i hq
      split
      · exact Or.inr ⟨_, rfl⟩
      · split
        · exact Or.inr ⟨_, rfl⟩
        · split
          · exact Or.inr ⟨_, rfl⟩
          · exact Or.inl ⟨rfl, hq, hb⟩

theorem escape_cons (b : UInt8) (bs : List UInt8) : escape (b :: bs) = escapeByte b ++ escape bs :=
  rfl

theorem quoted_escape (text rest : List UInt8) :
    quoted false (escape text ++ quote :: rest) = some (escape text) := by
  induction text with
  | nil => rfl
  | cons b bs ih =>
    rw [escape_cons, List.append_assoc]
    rcases escapeByte_cases b with ⟨hb, hq, hs⟩ | ⟨c, hc⟩
    · rw [hb, List.singleton_append, quoted, if_neg (fun h => hq h.2)]
      have flag : (!false && b == backslash) = false := by simpa using hs
      rw [flag, ih]
      rfl
    · rw [hc]
      have first : ¬ (false = false ∧ backslash = quote) := by decide
      have second : ¬ (true = false ∧ c = quote) := by simp
      have on : (!false && backslash == backslash) = true := by decide
      have off : (!true && c == backslash) = false := by simp
      rw [List.cons_append, List.singleton_append, quoted, if_neg first, on, quoted, if_neg second,
        off, ih]
      rfl

section Key
variable {key : List UInt8} (plain : Plain key)
include plain

/-- No key ends inside an escaped string: the quotes there follow a backslash. -/
theorem key_not_in_string (text : List UInt8) {b : UInt8} (hb : b ≠ colon) (rest : List UInt8) :
    ¬ key ++ [quote, colon] <+: escape text ++ quote :: b :: rest := by
  induction text generalizing key with
  | nil =>
    intro h
    cases key with
    | nil => exact hb (List.cons_prefix_cons.mp (List.cons_prefix_cons.mp h).2).1.symm
    | cons c key =>
      obtain rfl := (List.cons_prefix_cons.mp h).1
      exact (plain_cons plain).1 (by decide)
  | cons d text ih =>
    intro h
    rw [escape_cons, List.append_assoc] at h
    rcases escapeByte_cases d with ⟨hd, hq, -⟩ | ⟨x, hx⟩
    · rw [hd] at h
      cases key with
      | nil => exact hq (List.cons_prefix_cons.mp h).1.symm
      | cons c key => exact ih (plain_cons plain).2 (List.cons_prefix_cons.mp h).2
    · rw [hx] at h
      cases key with
      | nil => exact absurd (List.cons_prefix_cons.mp h).1 (by decide)
      | cons c key =>
        obtain rfl := (List.cons_prefix_cons.mp h).1
        exact (plain_cons plain).1 (by decide)

theorem key_not_at {b : UInt8} (hb : b ∈ marks) (hq : b ≠ quote) (rest : List UInt8) :
    ¬ key ++ [quote, colon] <+: b :: rest := by
  intro h
  cases key with
  | nil => exact hq (List.cons_prefix_cons.mp h).1.symm
  | cons c key =>
    obtain rfl := (List.cons_prefix_cons.mp h).1
    exact (plain_cons plain).1 hb

omit plain in
/-- The search passes an opening quote that does not open the key. -/
theorem after_quote {rest : List UInt8} (h : ¬ key ++ [quote, colon] <+: rest) :
    after (needle key) (quote :: rest) = after (needle key) rest :=
  after_miss (fun hp => h (List.cons_prefix_cons.mp hp).2)

omit plain in
theorem after_other {b : UInt8} (hb : b ≠ quote) (rest : List UInt8) :
    after (needle key) (b :: rest) = after (needle key) rest :=
  after_miss (fun hp => hb (List.cons_prefix_cons.mp hp).1.symm)

theorem after_escape (text : List UInt8) {b : UInt8} (hb : b ≠ colon) (rest : List UInt8) :
    after (needle key) (escape text ++ quote :: b :: rest) =
      after (needle key) (quote :: b :: rest) := by
  induction text with
  | nil => rfl
  | cons d text ih =>
    rw [escape_cons, List.append_assoc]
    rcases escapeByte_cases d with ⟨hd, hq, -⟩ | ⟨x, hx⟩
    · rw [hd, List.singleton_append, after_other hq, ih]
    · rw [hx, List.cons_append, List.singleton_append, after_other (by decide)]
      by_cases hq : x = quote
      · rw [hq, after_quote (key_not_in_string plain text hb rest), ih]
      · rw [after_other hq, ih]

theorem after_field {f : List UInt8 × Value} (other : f.1 ≠ key) (hf : Plain f.1)
    (hv : f.2.Plain) {b : UInt8} (hb : b = comma ∨ b = closeBrace) (rest : List UInt8) :
    after (needle key) (field f ++ b :: rest) = after (needle key) (b :: rest) := by
  have hq : b ≠ quote := by rcases hb with rfl | rfl <;> decide
  have hc : b ≠ colon := by rcases hb with rfl | rfl <;> decide
  have hm : b ∈ marks := by rcases hb with rfl | rfl <;> decide
  obtain ⟨k, v⟩ := f
  have opening : ¬ key ++ [quote, colon] <+: k ++ quote :: colon :: (v.text ++ b :: rest) := by
    intro h
    have short : key ++ [quote] <+: k ++ quote :: colon :: (v.text ++ b :: rest) :=
      List.IsPrefix.trans ⟨[colon], by rw [List.append_assoc]; rfl⟩ h
    exact other (key_unique (quote_not_mem plain) (quote_not_mem hf) short).symm
  have line : field (k, v) ++ b :: rest =
      quote :: (k ++ quote :: colon :: (v.text ++ b :: rest)) := by
    simp [field, needle, List.append_assoc]
  rw [line, after_quote opening, needle, after_block (quote_not_mem hf), ← needle,
    after_quote (key_not_at plain (by decide) (by decide) _), after_other (by decide)]
  cases v with
  | raw text => exact after_block (quote_not_mem hv) _
  | string text =>
    have value : (Value.string text).text ++ b :: rest =
        quote :: (escape text ++ quote :: b :: rest) := by
      simp [Value.text, List.append_assoc]
    rw [value, after_quote (key_not_in_string plain text hc rest),
      after_escape plain text hc rest, after_quote (key_not_at plain hm hq rest)]

/-- The search passes the first of the fields if it has another key. -/
theorem after_fields {f : List UInt8 × Value} {fields : List (List UInt8 × Value)}
    (other : f.1 ≠ key) (hf : Plain f.1) (hv : f.2.Plain) :
    after (needle key) ([comma].intercalate ((f :: fields).map field) ++ [closeBrace]) =
      after (needle key) ([comma].intercalate (fields.map field) ++ [closeBrace]) := by
  cases fields with
  | nil =>
    rw [List.map_cons, List.map_nil, List.intercalate_singleton,
      after_field plain other hf hv (Or.inr rfl)]
    rfl
  | cons g fields =>
    have line : [comma].intercalate ((f :: g :: fields).map field) ++ [closeBrace] =
        field f ++ comma :: ([comma].intercalate ((g :: fields).map field) ++ [closeBrace]) := by
      simp
    rw [line, after_field plain other hf hv (Or.inl rfl), after_other (by decide)]

/-- No value is found under a key that no field has. -/
theorem valueFor_absent {fields : List (List UInt8 × Value)}
    (hf : ∀ f ∈ fields, Plain f.1 ∧ f.2.Plain) (absent : ∀ f ∈ fields, f.1 ≠ key) :
    valueFor (object fields) key = none := by
  rw [valueFor, object, after_other (by decide)]
  induction fields with
  | nil =>
    have none : after (needle key) [closeBrace] = none := by
      rw [after_other (by decide)]
      rfl
    rw [List.map_nil, List.intercalate_nil, List.nil_append, none]
    rfl
  | cons f fields ih =>
    have first := hf f List.mem_cons_self
    rw [after_fields plain (absent f List.mem_cons_self) first.1 first.2]
    exact ih (fun g hg => hf g (List.mem_cons_of_mem _ hg))
      (fun g hg => absent g (List.mem_cons_of_mem _ hg))

end Key

/-- The value at the front of a text is read up to the mark that ends it. -/
theorem valueAt_text {v : Value} (hv : v.Plain) {b : UInt8} (hb : endsValue b = true)
    (rest : List UInt8) : valueAt (v.text ++ b :: rest) = some v.read := by
  cases v with
  | string text =>
    have value : (Value.string text).text ++ b :: rest =
        quote :: (escape text ++ quote :: b :: rest) := by
      simp [Value.text, List.append_assoc]
    rw [value, valueAt, if_pos rfl]
    exact quoted_escape text (b :: rest)
  | raw text =>
    have plain : ∀ c ∈ text, (!endsValue c) = true := by
      intro c hc
      have h := hv c hc
      simp only [marks, List.mem_cons, not_or] at h
      simp [endsValue, h.2.2.2.1, h.2.2.2.2.1]
    have whole : (text ++ b :: rest).takeWhile (fun c => !endsValue c) = text := by
      rw [List.takeWhile_append_of_pos plain, List.takeWhile_cons_of_neg (by simp [hb]),
        List.append_nil]
    change valueAt (text ++ b :: rest) = some text
    cases text with
    | nil =>
      have hq : b ≠ quote := by
        rintro rfl
        exact absurd hb (by decide)
      rw [List.nil_append, valueAt, if_neg hq]
      exact congrArg some whole
    | cons c text =>
      have hq : c ≠ quote := by
        rintro rfl
        exact (plain_cons hv).1 (by decide)
      rw [List.cons_append, valueAt, if_neg hq]
      exact congrArg some whole

/-- What the reader finds under a key in a written object: the value of its first field. -/
theorem valueFor_object {key : List UInt8} (plain : Plain key)
    {fields : List (List UInt8 × Value)} (hf : ∀ f ∈ fields, Plain f.1 ∧ f.2.Plain)
    {f : List UInt8 × Value} (hm : fields.find? (fun f => f.1 = key) = some f) :
    valueFor (object fields) key = some f.2.read := by
  have found : ∀ fields : List (List UInt8 × Value), (∀ f ∈ fields, Plain f.1 ∧ f.2.Plain) →
      fields.find? (fun f => f.1 = key) = some f →
      ∃ b rest, endsValue b = true ∧ after (needle key)
        ([comma].intercalate (fields.map field) ++ [closeBrace]) = some (f.2.text ++ b :: rest) := by
    intro fields
    induction fields with
    | nil =>
      intro _ none
      cases none
    | cons g fields ih =>
      intro hf hm
      have hg := hf g List.mem_cons_self
      by_cases same : g.1 = key
      · rw [List.find?_cons_of_pos (by simpa using same)] at hm
        obtain rfl := Option.some.inj hm
        obtain ⟨b, rest, hb, line⟩ : ∃ b rest, endsValue b = true ∧
            [comma].intercalate ((g :: fields).map field) ++ [closeBrace] =
              field g ++ b :: rest := by
          cases fields with
          | nil => exact ⟨closeBrace, [], by decide, by simp⟩
          | cons h fields =>
            exact ⟨comma, [comma].intercalate ((h :: fields).map field) ++ [closeBrace], by decide,
              by simp⟩
        refine ⟨b, rest, hb, ?_⟩
        rw [line, field, List.append_assoc, same]
        exact after_found (List.cons_ne_nil _ _) _
      · rw [List.find?_cons_of_neg (by simpa using same)] at hm
        rw [after_fields plain same hg.1 hg.2]
        exact ih (fun f hf' => hf f (List.mem_cons_of_mem _ hf')) hm
  obtain ⟨b, rest, hb, line⟩ := found fields hf hm
  rw [valueFor, object, after_other (by decide), line]
  exact valueAt_text (hf f (List.mem_of_find?_eq_some hm)).2 hb rest

/-- An escaped text has no control byte that the writer has an escape for. -/
theorem not_mem_escape {b : UInt8} (hb : b = 10 ∨ b = 13 ∨ b = 9) (text : List UInt8) :
    b ∉ escape text := by
  intro h
  obtain ⟨c, -, hc⟩ := List.mem_flatMap.mp h
  rcases escapeByte_cases c with ⟨one, -⟩ | ⟨x, two⟩
  · rw [one, List.mem_singleton] at hc
    subst hc
    rcases hb with rfl | rfl | rfl <;> exact absurd one (by decide)
  · revert hc
    unfold escapeByte
    rcases hb with rfl | rfl | rfl
    all_goals
      split_ifs
      all_goals
        intro hc
        first
          | exact absurd hc (by decide)
          | simp_all

/-- A byte of a written object is one of a key, one of a value or a mark. -/
theorem not_mem_object {b : UInt8} (hb : b ∉ [quote, comma, colon, openBrace, closeBrace])
    {fields : List (List UInt8 × Value)} (hf : ∀ f ∈ fields, b ∉ f.1 ∧ b ∉ f.2.read) :
    b ∉ object fields := by
  simp only [List.mem_cons, List.not_mem_nil, or_false, not_or] at hb
  have one : ∀ f ∈ fields, b ∉ field f := by
    intro f hm
    obtain ⟨key, value⟩ := hf f hm
    have inner : b ∉ f.2.text := by
      cases hv : f.2 with
      | raw text =>
        rw [hv] at value
        exact value
      | string text =>
        rw [hv] at value
        simp only [Value.text, List.mem_cons, List.mem_append, List.not_mem_nil, or_false, not_or]
        exact ⟨hb.1, value, hb.1⟩
    simp only [field, needle, List.mem_append, List.mem_cons, List.not_mem_nil, or_false, not_or]
    exact ⟨⟨hb.1, key, hb.1, hb.2.2.1⟩, inner⟩
  have body : b ∉ [comma].intercalate (fields.map field) := by
    induction fields with
    | nil => exact List.not_mem_nil
    | cons f fields ih =>
      have rest := ih (fun g hg => hf g (List.mem_cons_of_mem _ hg))
        (fun g hg => one g (List.mem_cons_of_mem _ hg))
      cases fields with
      | nil => simpa using one f List.mem_cons_self
      | cons g fields =>
        rw [List.map_cons, List.map_cons, List.intercalate_cons_cons]
        simp only [List.mem_append, List.mem_singleton, not_or]
        exact ⟨⟨one f List.mem_cons_self, hb.2.1⟩, rest⟩
  simp only [object, List.mem_cons, List.mem_append, List.not_mem_nil, or_false, not_or]
  exact ⟨hb.2.2.2.1, body, hb.2.2.2.2⟩

end Lib.JsonLine
