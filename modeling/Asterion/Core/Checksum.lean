import Asterion.Core.Types

/-! The FNV-1a checksum and its little-endian encoding of integral values. -/
namespace Asterion

def fnvOffsetBasis : UInt64 := 14695981039346656037
def fnvPrime : UInt64 := 1099511628211

def fnv1aAppendByte (seed : UInt64) (byte : UInt8) : UInt64 := (seed ^^^ byte.toUInt64) * fnvPrime

def fnv1aAppend (seed : UInt64) (bytes : List UInt8) : UInt64 := bytes.foldl fnv1aAppendByte seed

def fnvPrimeInverse : UInt64 := 0xce965057aff6957b

theorem fnv1aAppendByte_state {s t : UInt64} {byte : UInt8}
    (h : fnv1aAppendByte s byte = fnv1aAppendByte t byte) : s = t := by
  have inverse : fnvPrime * fnvPrimeInverse = 1 := by decide
  have undone := congrArg (· * fnvPrimeInverse) h
  simp only [fnv1aAppendByte, UInt64.mul_assoc, inverse, UInt64.mul_one] at undone
  exact (UInt64.xor_left_inj _).mp undone

theorem fnv1aAppendByte_byte {seed : UInt64} {b c : UInt8}
    (h : fnv1aAppendByte seed b = fnv1aAppendByte seed c) : b = c := by
  have inverse : fnvPrime * fnvPrimeInverse = 1 := by decide
  have undone := congrArg (· * fnvPrimeInverse) h
  simp only [fnv1aAppendByte, UInt64.mul_assoc, inverse, UInt64.mul_one] at undone
  exact UInt8.toUInt64_inj.mp ((UInt64.xor_right_inj _).mp undone)

/-- The `size` bytes of a two's complement value, least significant first. -/
def littleEndian (size : Nat) (value : Int) : List UInt8 :=
  let unsigned := (value % (2 ^ (8 * size) : Nat)).toNat
  (List.range size).map (fun i => UInt8.ofNat (unsigned / 2 ^ (8 * i)))

/-- `checksum_append` of an integral value that is `size` bytes wide. -/
def checksumAppend (size : Nat) (seed : UInt64) (value : Int) : UInt64 :=
  fnv1aAppend seed (littleEndian size value)

def stringBytes (value : String) : List UInt8 := value.toUTF8.toList

def checksumAppendString (seed : UInt64) (value : String) : UInt64 :=
  fnv1aAppend (checksumAppend 8 seed (stringBytes value).length) (stringBytes value)

end Asterion
