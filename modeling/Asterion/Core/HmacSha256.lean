import Asterion.Core.Text
import Asterion.Lib.BlockStream

/-! SHA-256 and HMAC-SHA256 as the code computes them, from chunks of bytes. -/
namespace Asterion
open Lib

abbrev Sha256Digest := List UInt8

def roundConstants : List UInt32 :=
   [0x428a2f98, 0x71374491, 0xb5c0fbcf, 0xe9b5dba5, 0x3956c25b, 0x59f111f1, 0x923f82a4, 0xab1c5ed5,
    0xd807aa98, 0x12835b01, 0x243185be, 0x550c7dc3, 0x72be5d74, 0x80deb1fe, 0x9bdc06a7, 0xc19bf174,
    0xe49b69c1, 0xefbe4786, 0x0fc19dc6, 0x240ca1cc, 0x2de92c6f, 0x4a7484aa, 0x5cb0a9dc, 0x76f988da,
    0x983e5152, 0xa831c66d, 0xb00327c8, 0xbf597fc7, 0xc6e00bf3, 0xd5a79147, 0x06ca6351, 0x14292967,
    0x27b70a85, 0x2e1b2138, 0x4d2c6dfc, 0x53380d13, 0x650a7354, 0x766a0abb, 0x81c2c92e, 0x92722c85,
    0xa2bfe8a1, 0xa81a664b, 0xc24b8b70, 0xc76c51a3, 0xd192e819, 0xd6990624, 0xf40e3585, 0x106aa070,
    0x19a4c116, 0x1e376c08, 0x2748774c, 0x34b0bcb5, 0x391c0cb3, 0x4ed8aa4a, 0x5b9cca4f, 0x682e6ff3,
    0x748f82ee, 0x78a5636f, 0x84c87814, 0x8cc70208, 0x90befffa, 0xa4506ceb, 0xbef9a3f7, 0xc67178f2]

def rotr (value bits : UInt32) : UInt32 := (value >>> bits) ||| (value <<< (32 - bits))

/-- The bytes of `data` over those of `dest` from an offset on. -/
def memcpy (dest : List UInt8) (offset : Nat) (data : List UInt8) : List UInt8 :=
  dest.take offset ++ data ++ dest.drop (offset + data.length)

theorem length_memcpy {dest data : List UInt8} {offset : Nat}
    (fits : offset + data.length ≤ dest.length) : (memcpy dest offset data).length = dest.length := by
  simp [memcpy]
  omega

/-- The buffer holds `bufferLength` bytes that are not a block yet. -/
structure Sha256Context where
  state : Vector UInt32 8 :=
    #v[0x6a09e667, 0xbb67ae85, 0x3c6ef372, 0xa54ff53a, 0x510e527f, 0x9b05688c, 0x1f83d9ab, 0x5be0cd19]
  buffer : List UInt8 := List.replicate 64 0
  bufferLength : Nat := 0
  totalLength : UInt64 := 0
  sized : buffer.length = 64 := by decide
  partlyFilled : bufferLength < 64 := by decide

namespace Sha256Context

def loadWord (block : List UInt8) (i : Nat) : UInt32 :=
  ((block.getD (i * 4 + 0) 0).toUInt32 <<< 24) ||| ((block.getD (i * 4 + 1) 0).toUInt32 <<< 16) |||
    ((block.getD (i * 4 + 2) 0).toUInt32 <<< 8) ||| (block.getD (i * 4 + 3) 0).toUInt32

def extendWord (words : List UInt32) (i : Nat) : UInt32 :=
  let w15 := words.getD (i - 15) 0
  let w2 := words.getD (i - 2) 0
  let s0 := rotr w15 7 ^^^ rotr w15 18 ^^^ (w15 >>> 3)
  let s1 := rotr w2 17 ^^^ rotr w2 19 ^^^ (w2 >>> 10)
  words.getD (i - 16) 0 + s0 + words.getD (i - 7) 0 + s1

def messageWords (block : List UInt8) : List UInt32 :=
  let loaded := (List.range 16).foldl (fun words i => words.set i (loadWord block i))
    (List.replicate 64 0)
  (List.range' 16 48).foldl (fun words i => words.set i (extendWord words i)) loaded

/-- The local variables of the rounds. -/
structure Working where
  a : UInt32
  b : UInt32
  c : UInt32
  d : UInt32
  e : UInt32
  f : UInt32
  g : UInt32
  h : UInt32
  deriving DecidableEq, Repr

def round (words : List UInt32) (v : Working) (i : Nat) : Working :=
  let bigS1 := rotr v.e 6 ^^^ rotr v.e 11 ^^^ rotr v.e 25
  let ch := (v.e &&& v.f) ^^^ (~~~v.e &&& v.g)
  let temp1 := v.h + bigS1 + ch + roundConstants.getD i 0 + words.getD i 0
  let bigS0 := rotr v.a 2 ^^^ rotr v.a 13 ^^^ rotr v.a 22
  let maj := (v.a &&& v.b) ^^^ (v.a &&& v.c) ^^^ (v.b &&& v.c)
  let temp2 := bigS0 + maj
  { a := temp1 + temp2, b := v.a, c := v.b, d := v.c, e := v.d + temp1, f := v.e, g := v.f, h := v.g }

def processBlock (state : Vector UInt32 8) (block : List UInt8) : Vector UInt32 8 :=
  let words := messageWords block
  let v : Working :=
    { a := state[0], b := state[1], c := state[2], d := state[3],
      e := state[4], f := state[5], g := state[6], h := state[7] }
  let v := (List.range 64).foldl (round words) v
  #v[state[0] + v.a, state[1] + v.b, state[2] + v.c, state[3] + v.d,
    state[4] + v.e, state[5] + v.f, state[6] + v.g, state[7] + v.h]

/-- The body of the loop of `update`: bytes that fit into the buffer. -/
def fill (c : Sha256Context) (data : List UInt8) (fits : c.bufferLength + data.length ≤ 64) :
    Sha256Context :=
  let buffer := memcpy c.buffer c.bufferLength data
  have sized : buffer.length = 64 := by
    rw [length_memcpy (by rw [c.sized]; exact fits), c.sized]
  if full : c.bufferLength + data.length = 64 then
    { c with state := processBlock c.state buffer, buffer, bufferLength := 0, sized,
             partlyFilled := by decide }
  else
    { c with buffer, bufferLength := c.bufferLength + data.length, sized, partlyFilled := by omega }

def updateLoop (c : Sha256Context) (data : List UInt8) : Sha256Context :=
  if data.length > 0 then
    let take := min (64 - c.bufferLength) data.length
    updateLoop (c.fill (data.take take) (by have := c.partlyFilled; simp [take]; omega)) (data.drop take)
  else c
termination_by data.length
decreasing_by
  have := c.partlyFilled
  simp
  omega

def update (c : Sha256Context) (data : List UInt8) : Sha256Context :=
  updateLoop { c with totalLength := c.totalLength + .ofNat data.length } data

/-- The chaining value and the bytes that are not a block yet. -/
def stream (c : Sha256Context) : Vector UInt32 8 × List UInt8 :=
  (c.state, c.buffer.take c.bufferLength)

theorem length_stream (c : Sha256Context) : c.stream.2.length = c.bufferLength := by
  have bound := c.partlyFilled
  rw [stream, List.length_take, c.sized]
  omega

theorem stream_fill (c : Sha256Context) (data : List UInt8) (some : data ≠ [])
    (fits : c.bufferLength + data.length ≤ 64) :
    (c.fill data fits).stream = data.foldl (BlockStream.push 64 processBlock) c.stream := by
  have kept := c.length_stream
  have offset : (c.buffer.take c.bufferLength).length = c.bufferLength := kept
  by_cases full : c.bufferLength + data.length = 64
  · have rest : c.buffer.drop 64 = [] := by
      rw [List.drop_eq_nil_iff, c.sized]
    rw [BlockStream.foldl_push_full 64 processBlock data c.stream some (by rw [kept, full])]
    simp [fill, full, stream, memcpy, rest]
  · rw [BlockStream.foldl_push_open 64 processBlock data c.stream (by rw [kept]; omega)]
    simp only [fill, full, dite_false, stream, memcpy, Prod.mk.injEq, true_and]
    apply List.take_left'
    rw [List.length_append, offset]

theorem stream_updateLoop (c : Sha256Context) (data : List UInt8) :
    (c.updateLoop data).stream = data.foldl (BlockStream.push 64 processBlock) c.stream := by
  fun_induction updateLoop c data with
  | case1 c data more take ih =>
    have bound := c.partlyFilled
    have some : data.take take ≠ [] := by
      apply List.ne_nil_of_length_pos
      rw [List.length_take]
      omega
    rw [ih, stream_fill c _ some, ← List.foldl_append, List.take_append_drop]
  | case2 c data none =>
    have empty : data = [] := List.eq_nil_of_length_eq_zero (by omega)
    rw [empty, List.foldl_nil]

/-- However the bytes fall into blocks, `update` consumes them one by one. -/
theorem stream_update (c : Sha256Context) (data : List UInt8) :
    (c.update data).stream = data.foldl (BlockStream.push 64 processBlock) c.stream :=
  stream_updateLoop _ data

theorem bufferLength_update (c : Sha256Context) (data : List UInt8) :
    (c.update data).bufferLength = (c.bufferLength + data.length) % 64 := by
  have room : c.stream.2.length < 64 := by
    rw [length_stream]
    exact c.partlyFilled
  rw [← length_stream, stream_update,
    BlockStream.length_foldl_push 64 processBlock (by decide) data c.stream room, length_stream]

/-- The loop of `finish` that appends zeros up to the length's place. -/
def padZeros (c : Sha256Context) : Sha256Context :=
  if c.bufferLength ≠ 56 then padZeros (c.update [0]) else c
termination_by (120 - c.bufferLength) % 64
decreasing_by
  have := c.partlyFilled
  rw [bufferLength_update, List.length_singleton]
  omega

def finish (c : Sha256Context) : Sha256Digest :=
  let bitLength := c.totalLength * 8
  let c := (c.update [0x80]).padZeros
  let lengthBytes := (List.range 8).map (fun i => ((bitLength >>> .ofNat (56 - 8 * i)) &&& 0xff).toUInt8)
  let c := c.update lengthBytes
  c.state.toList.flatMap
    (fun word : UInt32 => [((word >>> 24) &&& 0xff).toUInt8, ((word >>> 16) &&& 0xff).toUInt8,
      ((word >>> 8) &&& 0xff).toUInt8, (word &&& 0xff).toUInt8])

end Sha256Context

def sha256 (data : List UInt8) : Sha256Digest :=
  (({} : Sha256Context).update data).finish

def hmacSha256 (key message : List UInt8) : Sha256Digest :=
  let blockKey := List.replicate 64 0
  let blockKey :=
    if key.length > 64 then memcpy blockKey 0 (sha256 key)
    else if key ≠ [] then memcpy blockKey 0 key
    else blockKey
  let innerPad := blockKey.map (· ^^^ 0x36)
  let outerPad := blockKey.map (· ^^^ 0x5c)
  let inner := ((({} : Sha256Context).update innerPad).update message).finish
  ((({} : Sha256Context).update outerPad).update inner).finish

def toHex (bytes : List UInt8) : Text :=
  let digits := text "0123456789abcdef"
  bytes.flatMap (fun byte : UInt8 =>
    [digits.getD ((byte >>> 4) &&& 0x0f).toNat 0, digits.getD (byte &&& 0x0f).toNat 0])

def hmacSha256Hex (key message : List UInt8) : Text := toHex (hmacSha256 key message)

end Asterion
