import Asterion.Core.Checksum
import Asterion.Lib.Decimal

/-! Byte strings, as `std::string` holds them, and the numbers written in them. -/
namespace Asterion
open Lib.Decimal

abbrev Text := List UInt8

def text (literal : String) : Text := literal.toUTF8.data.toList

section Decide
variable (p : UInt8 → Prop) [DecidablePred p] (bytes : Text)

-- along the bytes of the text; the instances found otherwise run over all the bytes there are
instance : Decidable (∀ b ∈ bytes, p b) := List.decidableBAll p bytes
instance : Decidable (∃ b ∈ bytes, p b) := List.decidableBEx p bytes

end Decide

def Side.toString : Side → Text
  | .buy => text "Buy"
  | .sell => text "Sell"
  | .none => text "None"

def newline : UInt8 := 10
def space : UInt8 := 32
def equalsSign : UInt8 := 61

/-- `checksum_append_string`: the size, then the bytes. -/
def checksumAppendText (seed : UInt64) (value : Text) : UInt64 :=
  fnv1aAppend (checksumAppend 8 seed value.length) value

/-- `parse_integral` on the types of the code: the whole text is one number in range. -/
def parseUInt64 (value : Text) : Option UInt64 :=
  (read 0 (2 ^ 64 - 1) value).map (fun x => UInt64.ofNat x.toNat)

def parseUInt32 (value : Text) : Option UInt32 :=
  (read 0 (2 ^ 32 - 1) value).map (fun x => UInt32.ofNat x.toNat)

def parseInt64 (value : Text) : Option Int64 :=
  (read (-2 ^ 63) (2 ^ 63 - 1) value).map Int64.ofInt

def uint64 (x : UInt64) : Text := decimal x.toNat
def uint32 (x : UInt32) : Text := decimal x.toNat
def int64 (x : Int64) : Text := integer x.toInt

theorem parseUInt64_uint64 (x : UInt64) : parseUInt64 (uint64 x) = some x := by
  have bound : x.toNat ≤ 2 ^ 64 - 1 := by
    have := x.toNat_lt
    omega
  have h := read_decimal bound
  rw [parseUInt64, uint64]
  exact (congrArg (Option.map _) h).trans (by simp)

theorem parseUInt32_uint32 (x : UInt32) : parseUInt32 (uint32 x) = some x := by
  have bound : x.toNat ≤ 2 ^ 32 - 1 := by
    have := x.toNat_lt
    omega
  have h := read_decimal bound
  rw [parseUInt32, uint32]
  exact (congrArg (Option.map _) h).trans (by simp)

theorem parseInt64_int64 (x : Int64) : parseInt64 (int64 x) = some x := by
  have low : -2 ^ 63 ≤ x.toInt := x.le_toInt
  have high : x.toInt ≤ 2 ^ 63 - 1 := by
    have := x.toInt_lt
    omega
  have h := read_integer low high
  rw [parseInt64, int64]
  exact (congrArg (Option.map _) h).trans (by simp)

end Asterion
