import Mathlib

/-! The sentinel identifiers and the side of an order. Identifiers and sequence numbers
are natural numbers; prices, quantities and timestamps are integers. Where the fixed
width of the code's types matters (wrap-around, checksums) it is an explicit modulus. -/
namespace Asterion

def invalidOrderId : Nat := 0
def invalidClientOrderId : Nat := 0
def invalidSymbolId : Nat := 0

/-- Two's complement on 64 bits. -/
def wrap64 (x : Int) : Int := x.bmod (2 ^ 64)

theorem wrap64_wraps (a b : Int) : wrap64 (wrap64 a + b) = wrap64 (a + b) := by
  unfold wrap64
  exact Int.bmod_add_bmod ..

theorem wrap64_eq {x : Int} (low : -2 ^ 63 ≤ x) (high : x < 2 ^ 63) : wrap64 x = x := by
  apply Int.bmod_eq_of_le_mul_two
  · omega
  · omega

inductive Side where
  | none | buy | sell
  deriving DecidableEq, Repr, Inhabited

def isValidSide (side : Side) : Bool := side == .buy || side == .sell

def opposite : Side → Side
  | .buy => .sell
  | .sell => .buy
  | .none => .none

def Side.toByte : Side → Nat
  | .none => 0
  | .buy => 1
  | .sell => 2

@[simp] theorem isValidSide_buy : isValidSide .buy = true := rfl
@[simp] theorem isValidSide_sell : isValidSide .sell = true := rfl
@[simp] theorem isValidSide_none : isValidSide .none = false := rfl

@[simp] theorem isValidSide_opposite (side : Side) :
    isValidSide (opposite side) = isValidSide side := by
  cases side <;> rfl

theorem opposite_ne {side : Side} (valid : isValidSide side = true) : opposite side ≠ side := by
  cases side <;> simp_all [opposite]

end Asterion
