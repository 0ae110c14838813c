import Mathlib

/-! Decimal numbers as bytes: how they are written, and a reader that takes a whole text as a
number between two bounds. -/
namespace Lib.Decimal

def minus : UInt8 := 45

def isDigit (b : UInt8) : Bool := decide (48 ≤ b) && decide (b ≤ 57)

/-- The digits of a number, most significant first, without leading zeros. -/
def decimal (n : Nat) : List UInt8 := (Nat.toDigits 10 n).map Char.toUInt8

def integer (x : Int) : List UInt8 :=
  if x < 0 then minus :: decimal x.natAbs else decimal x.natAbs

def value (digits : List UInt8) : Nat := digits.foldl (fun v b => 10 * v + (b.toNat - 48)) 0

def readDigits (low high : Int) (negative : Bool) (digits : List UInt8) : Option Int :=
  if digits = [] ∨ digits.all isDigit = false then none
  else
    let x : Int := if negative then -(value digits : Int) else value digits
    if low ≤ x ∧ x ≤ high then some x else none

/-- A sign is read only where the bounds include a negative number. -/
def read (low high : Int) : List UInt8 → Option Int
  | [] => none
  | b :: rest =>
    if b = minus ∧ low < 0 then readDigits low high true rest
    else readDigits low high false (b :: rest)

theorem byte_of_digit {c : Char} (h : c.isDigit = true) :
    isDigit c.toUInt8 = true ∧ c.toUInt8.toNat = c.toNat := by
  have bounds : 48 ≤ c.toNat ∧ c.toNat ≤ 57 := by
    simp only [Char.isDigit, Bool.and_eq_true, decide_eq_true_eq] at h
    exact ⟨h.1, h.2⟩
  have byte : c.toUInt8.toNat = c.toNat := by
    have small : c.toNat % 2 ^ 8 = c.toNat := Nat.mod_eq_of_lt (by omega)
    exact small
  refine ⟨?_, byte⟩
  simp only [isDigit, Bool.and_eq_true, decide_eq_true_eq, UInt8.le_iff_toNat_le, byte]
  exact bounds

theorem digits_decimal (n : Nat) : ∀ b ∈ decimal n, isDigit b = true := by
  intro b hb
  obtain ⟨c, hc, rfl⟩ := List.mem_map.mp hb
  exact (byte_of_digit (Nat.isDigit_of_mem_toDigits (by decide) (by decide) hc)).1

theorem decimal_ne_nil (n : Nat) : decimal n ≠ [] := by
  intro h
  exact Nat.toDigits_ne_nil (List.map_eq_nil_iff.mp h)

@[simp] theorem value_decimal (n : Nat) : value (decimal n) = n := by
  have fold : ∀ (cs : List Char) (v : Nat), (∀ c ∈ cs, c.isDigit = true) →
      (cs.map Char.toUInt8).foldl (fun v b => 10 * v + (b.toNat - 48)) v =
        Nat.ofDigitChars 10 cs v := by
    intro cs
    induction cs with
    | nil => intro v _; rfl
    | cons c cs ih =>
      intro v digits
      rw [List.map_cons, List.foldl_cons, ih _ (fun d hd => digits d (List.mem_cons_of_mem _ hd)),
        (byte_of_digit (digits c List.mem_cons_self)).2]
      exact Nat.ofDigitChars_cons.symm
  have digits := fun c => Nat.isDigit_of_mem_toDigits (c := c) (b := 10) (n := n) (by decide)
    (by decide)
  exact (fold _ 0 digits).trans Nat.ofDigitChars_ten_toDigits

theorem decimal_injective {m n : Nat} (h : decimal m = decimal n) : m = n := by
  rw [← value_decimal m, h, value_decimal]

theorem not_mem_decimal {b : UInt8} (h : isDigit b = false) (n : Nat) : b ∉ decimal n := by
  intro hb
  rw [digits_decimal n b hb] at h
  cases h

theorem not_mem_integer {b : UInt8} (h : isDigit b = false) (hm : b ≠ minus) (x : Int) :
    b ∉ integer x := by
  unfold integer
  split
  · exact fun hb => (List.mem_cons.mp hb).elim hm (not_mem_decimal h _)
  · exact not_mem_decimal h _

theorem integer_natCast (n : Nat) : integer n = decimal n := by
  rw [integer, if_neg (by omega)]
  rfl

theorem readDigits_decimal {low high : Int} (negative : Bool) (n : Nat)
    (within : low ≤ (if negative then -(n : Int) else n) ∧
      (if negative then -(n : Int) else n) ≤ high) :
    readDigits low high negative (decimal n) = some (if negative then -(n : Int) else n) := by
  have all := List.all_eq_true.mpr (digits_decimal n)
  rw [readDigits, if_neg (by simp [all, decimal_ne_nil n]), value_decimal, if_pos within]

/-- A number within the bounds is read back. -/
theorem read_integer {low high x : Int} (hl : low ≤ x) (hh : x ≤ high) :
    read low high (integer x) = some x := by
  rcases Int.lt_or_le x 0 with neg | pos
  · have back : -(x.natAbs : Int) = x := by omega
    have within : low ≤ -(x.natAbs : Int) ∧ -(x.natAbs : Int) ≤ high := by omega
    rw [integer, if_pos neg, read, if_pos ⟨rfl, by omega⟩,
      readDigits_decimal true x.natAbs within]
    exact congrArg some back
  · have back : (x.natAbs : Int) = x := by omega
    have within : low ≤ (x.natAbs : Int) ∧ (x.natAbs : Int) ≤ high := by omega
    obtain ⟨b, rest, hd⟩ := List.exists_cons_of_ne_nil (decimal_ne_nil x.natAbs)
    have unsigned : ¬ (b = minus ∧ low < 0) := by
      rintro ⟨rfl, -⟩
      have digit := digits_decimal x.natAbs minus (hd ▸ List.mem_cons_self)
      exact absurd digit (by decide)
    rw [integer, if_neg (by omega), hd, read, if_neg unsigned, ← hd,
      readDigits_decimal false x.natAbs within]
    exact congrArg some back

theorem read_decimal {high n : Nat} (h : n ≤ high) : read 0 high (decimal n) = some (n : Int) := by
  rw [← integer_natCast]
  exact read_integer (by omega) (by omega)

/-- Two numbers with the same text after them, where that text starts with no digit. -/
theorem decimal_append_cancel {m n : Nat} {b : UInt8} {s t : List UInt8} (hb : isDigit b = false)
    (h : decimal m ++ b :: s = decimal n ++ b :: t) : m = n ∧ s = t := by
  have heads := congrArg (List.takeWhile isDigit) h
  rw [List.takeWhile_append_of_pos (digits_decimal m), List.takeWhile_append_of_pos
    (digits_decimal n), List.takeWhile_cons_of_neg (by simp [hb]),
    List.takeWhile_cons_of_neg (by simp [hb]), List.append_nil, List.append_nil] at heads
  obtain rfl := decimal_injective heads
  exact ⟨rfl, (List.cons.inj (List.append_cancel_left h)).2⟩

/-- Two numbers at the end of a text, where no digit is in front of them. -/
theorem append_decimal_cancel {m n : Nat} {b c : UInt8} {s t : List UInt8} (hb : isDigit b = false)
    (hc : isDigit c = false) (h : s ++ b :: decimal m = t ++ c :: decimal n) :
    s = t ∧ b = c ∧ m = n := by
  have reversed := congrArg List.reverse h
  simp only [List.reverse_append, List.reverse_cons, List.append_assoc, List.singleton_append]
    at reversed
  have digits : ∀ n, ∀ b ∈ (decimal n).reverse, isDigit b = true :=
    fun n b hb => digits_decimal n b (List.mem_reverse.mp hb)
  have tails := congrArg (List.takeWhile isDigit) reversed
  rw [List.takeWhile_append_of_pos (digits m), List.takeWhile_append_of_pos (digits n),
    List.takeWhile_cons_of_neg (by simp [hb]), List.takeWhile_cons_of_neg (by simp [hc]),
    List.append_nil, List.append_nil, List.reverse_inj] at tails
  obtain rfl := decimal_injective tails
  obtain ⟨same, rest⟩ := List.cons.inj (List.append_cancel_left reversed)
  exact ⟨List.reverse_inj.mp rest, same, rfl⟩

end Lib.Decimal
