import Asterion.Lib.Blocks

/-! The standards that the hash code follows, stated apart from the code: FIPS 180-4 for SHA-256 of
a message of whole bytes, RFC 2104 for HMAC. -/
namespace Asterion
open Lib

namespace Fips180

def primes : List Nat :=
  [2, 3, 5, 7, 11, 13, 17, 19, 23, 29, 31, 37, 41, 43, 47, 53, 59, 61, 67, 71, 73, 79, 83, 89, 97, 101,
    103, 107, 109, 113, 127, 131, 137, 139, 149, 151, 157, 163, 167, 173, 179, 181, 191, 193, 197, 199,
    211, 223, 227, 229, 233, 239, 241, 251, 257, 263, 269, 271, 277, 281, 283, 293, 307, 311]

/-- The greatest number whose power does not exceed `n`. -/
def root (degree n : Nat) : Nat := Nat.findGreatest (fun r => r ^ degree ≤ n) n

/-- The first 32 bits of the fractional part of the root of a prime. -/
def rootFraction (degree p : Nat) : UInt32 := .ofNat (root degree (p * 2 ^ (32 * degree)))

/-- The constants `K`, from the cube roots of the first 64 primes. -/
def constant (t : Nat) : UInt32 := rootFraction 3 (primes.getD t 0)

/-- The initial hash value, from the square roots of the first eight primes. -/
def initialHash : Vector UInt32 8 := .ofFn (fun i => rootFraction 2 (primes.getD i 0))

def rotr (n : Nat) (x : UInt32) : UInt32 := ⟨x.toBitVec.rotateRight n⟩

def shr (n : Nat) (x : UInt32) : UInt32 := ⟨x.toBitVec >>> n⟩

def ch (x y z : UInt32) : UInt32 := (x &&& y) ^^^ (~~~x &&& z)

def maj (x y z : UInt32) : UInt32 := (x &&& y) ^^^ (x &&& z) ^^^ (y &&& z)

def bigSigma0 (x : UInt32) : UInt32 := rotr 2 x ^^^ rotr 13 x ^^^ rotr 22 x

def bigSigma1 (x : UInt32) : UInt32 := rotr 6 x ^^^ rotr 11 x ^^^ rotr 25 x

def smallSigma0 (x : UInt32) : UInt32 := rotr 7 x ^^^ rotr 18 x ^^^ shr 3 x

def smallSigma1 (x : UInt32) : UInt32 := rotr 17 x ^^^ rotr 19 x ^^^ shr 10 x

def bigEndian (bytes : List UInt8) : Nat := bytes.foldl (fun n byte => n * 256 + byte.toNat) 0

def bytesOf (size n : Nat) : List UInt8 :=
  (List.range size).map (fun i => .ofNat (n / 256 ^ (size - 1 - i)))

/-- Word `t` of the message schedule of a block. -/
def schedule (block : List UInt8) (t : Nat) : UInt32 :=
  if t < 16 then .ofNat (bigEndian ((block.drop (4 * t)).take 4))
  else
    smallSigma1 (schedule block (t - 2)) + schedule block (t - 7) +
      smallSigma0 (schedule block (t - 15)) + schedule block (t - 16)

/-- A round on the working variables `a` to `h`. -/
def round (block : List UInt8) (v : Vector UInt32 8) (t : Nat) : Vector UInt32 8 :=
  let t1 := v.get 7 + bigSigma1 (v.get 4) + ch (v.get 4) (v.get 5) (v.get 6) + constant t +
    schedule block t
  let t2 := bigSigma0 (v.get 0) + maj (v.get 0) (v.get 1) (v.get 2)
  #v[t1 + t2, v.get 0, v.get 1, v.get 2, v.get 3 + t1, v.get 4, v.get 5, v.get 6]

def compress (hash : Vector UInt32 8) (block : List UInt8) : Vector UInt32 8 :=
  (hash.zip ((List.range 64).foldl (round block) hash)).map (fun pair => pair.1 + pair.2)

/-- The least number of zero bits after the one bit such that with the length whole blocks result. -/
def zeroBits (bits : Nat) : Nat := ((447 - (bits : Int)) % 512).toNat

/-- The first of the bytes appended holds the one bit and seven zero bits. -/
def padded (message : List UInt8) : List UInt8 :=
  message ++ [0x80] ++ List.replicate ((zeroBits (8 * message.length) - 7) / 8) 0 ++
    bytesOf 8 (8 * message.length)

def sha256 (message : List UInt8) : List UInt8 :=
  ((Blocks.blocks 64 (padded message)).foldl compress initialHash).toList.flatMap
    (fun word => bytesOf 4 word.toNat)

end Fips180

namespace Rfc2104

def blockSize : Nat := 64

def ipad : List UInt8 := List.replicate blockSize 0x36

def opad : List UInt8 := List.replicate blockSize 0x5c

/-- A key longer than a block is hashed; zeros fill the block. -/
def blockKey (key : List UInt8) : List UInt8 :=
  let key := if key.length > blockSize then Fips180.sha256 key else key
  key ++ List.replicate (blockSize - key.length) 0

def hmac (key text : List UInt8) : List UInt8 :=
  let xor := List.zipWith (· ^^^ ·)
  Fips180.sha256 (xor (blockKey key) opad ++ Fips180.sha256 (xor (blockKey key) ipad ++ text))

end Rfc2104
end Asterion
