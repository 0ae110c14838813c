import Asterion.Core.Checksum

/-! Reading little-endian integers back. -/
namespace Asterion

def ofLittleEndian : List UInt8 → Nat
  | [] => 0
  | byte :: bytes => byte.toNat ||| ofLittleEndian bytes <<< 8

/-- Two's complement: the value of an unsigned number of `size` bytes as a signed one. -/
def toSigned (size : Nat) (unsigned : Nat) : Int := (unsigned : Int).bmod (2 ^ (8 * size))

@[simp] theorem length_littleEndian (size : Nat) (value : Int) :
    (littleEndian size value).length = size := by
  simp [littleEndian]

theorem ofLittleEndian_cons (byte : UInt8) (bytes : List UInt8) :
    ofLittleEndian (byte :: bytes) = byte.toNat + 256 * ofLittleEndian bytes := by
  have small : byte.toNat < 2 ^ 8 := byte.toNat_lt
  rw [ofLittleEndian, Nat.or_comm, ← Nat.shiftLeft_add_eq_or_of_lt small, Nat.shiftLeft_eq]
  omega

theorem ofLittleEndian_lt (bytes : List UInt8) : ofLittleEndian bytes < 2 ^ (8 * bytes.length) := by
  induction bytes with
  | nil => exact Nat.one_pos
  | cons byte bytes ih =>
    have small : byte.toNat < 2 ^ 8 := byte.toNat_lt
    have width : 2 ^ (8 * (bytes.length + 1)) = 256 * 2 ^ (8 * bytes.length) := by
      rw [Nat.mul_add, Nat.pow_add]
      omega
    rw [ofLittleEndian_cons, List.length_cons, width]
    omega

def bytesOf (size unsigned : Nat) : List UInt8 :=
  (List.range size).map (fun i => UInt8.ofNat (unsigned / 2 ^ (8 * i)))

theorem bytesOf_succ (size unsigned : Nat) :
    bytesOf (size + 1) unsigned = UInt8.ofNat unsigned :: bytesOf size (unsigned / 256) := by
  have tail : ∀ i, unsigned / 2 ^ (8 * (i + 1)) = unsigned / 256 / 2 ^ (8 * i) := by
    intro i
    rw [Nat.div_div_eq_div_mul, Nat.mul_add, Nat.pow_add, Nat.mul_comm]
  simp only [bytesOf, List.range_succ_eq_map, List.map_cons, List.map_map, Function.comp_def,
    Nat.mul_zero, Nat.pow_zero, Nat.div_one, Nat.succ_eq_add_one, tail]

theorem ofLittleEndian_bytesOf {size unsigned : Nat} (h : unsigned < 2 ^ (8 * size)) :
    ofLittleEndian (bytesOf size unsigned) = unsigned := by
  induction size generalizing unsigned with
  | zero =>
    rw [Nat.mul_zero, Nat.pow_zero] at h
    have zero : unsigned = 0 := by omega
    rw [zero]
    rfl
  | succ size ih =>
    have width : 2 ^ (8 * (size + 1)) = 256 * 2 ^ (8 * size) := by
      rw [Nat.mul_add, Nat.pow_add]
      omega
    rw [width] at h
    rw [bytesOf_succ, ofLittleEndian_cons, ih (by omega), UInt8.toNat_ofNat']
    omega

theorem bytesOf_ofLittleEndian (bytes : List UInt8) :
    bytesOf bytes.length (ofLittleEndian bytes) = bytes := by
  induction bytes with
  | nil => rfl
  | cons byte bytes ih =>
    have small : byte.toNat < 256 := byte.toNat_lt
    have rest : (byte.toNat + 256 * ofLittleEndian bytes) / 256 = ofLittleEndian bytes := by omega
    have first : UInt8.ofNat (byte.toNat + 256 * ofLittleEndian bytes) = byte := by
      apply UInt8.toNat_inj.mp
      rw [UInt8.toNat_ofNat']
      omega
    rw [List.length_cons, bytesOf_succ, ofLittleEndian_cons, rest, ih, first]

theorem littleEndian_eq (size : Nat) (value : Int) :
    littleEndian size value = bytesOf size (value % (2 ^ (8 * size) : Nat)).toNat := rfl

theorem ofLittleEndian_littleEndian {size value : Nat} (h : value < 2 ^ (8 * size)) :
    ofLittleEndian (littleEndian size value) = value := by
  rw [littleEndian_eq, ← Int.natCast_emod, Int.toNat_natCast, Nat.mod_eq_of_lt h,
    ofLittleEndian_bytesOf h]

theorem toSigned_littleEndian {size : Nat} {value : Int} (low : -(2 ^ (8 * size) : Nat) ≤ 2 * value)
    (high : 2 * value < (2 ^ (8 * size) : Nat)) :
    toSigned size (ofLittleEndian (littleEndian size value)) = value := by
  have positive : 0 < (2 ^ (8 * size) : Nat) := by positivity
  have bounds := Int.emod_lt_of_pos value (Int.natCast_pos.mpr positive)
  have nonneg := Int.emod_nonneg value (Int.natCast_ne_zero.mpr positive.ne')
  rw [littleEndian_eq, ofLittleEndian_bytesOf (by omega), toSigned, Int.toNat_of_nonneg nonneg,
    Int.emod_bmod]
  apply Int.bmod_eq_of_le_mul_two
  · omega
  · omega

theorem littleEndian_ofLittleEndian {size : Nat} {bytes : List UInt8} (h : bytes.length = size) :
    littleEndian size (ofLittleEndian bytes) = bytes := by
  have bound := ofLittleEndian_lt bytes
  rw [h] at bound
  rw [littleEndian_eq, ← Int.natCast_emod, Int.toNat_natCast, Nat.mod_eq_of_lt bound, ← h,
    bytesOf_ofLittleEndian]

theorem littleEndian_toSigned {size : Nat} {bytes : List UInt8} (h : bytes.length = size) :
    littleEndian size (toSigned size (ofLittleEndian bytes)) = bytes := by
  have same : toSigned size (ofLittleEndian bytes) % (2 ^ (8 * size) : Nat) =
      (ofLittleEndian bytes : Int) % (2 ^ (8 * size) : Nat) := Int.bmod_emod
  rw [littleEndian_eq, same, ← littleEndian_eq, littleEndian_ofLittleEndian h]

end Asterion
