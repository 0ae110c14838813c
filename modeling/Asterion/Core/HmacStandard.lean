import Asterion.Core.HmacSha256
import Asterion.Core.SecureHashStandard

/-! The streaming code computes the standards' functions. -/
namespace Asterion
open Lib

namespace Fips180

theorem root_eq {degree n r : Nat} (positive : degree ≠ 0) (atMost : r ^ degree ≤ n)
    (next : n < (r + 1) ^ degree) : root degree n = r := by
  apply Nat.findGreatest_eq_iff.mpr
  refine ⟨(Nat.le_self_pow positive r).trans atMost, fun _ => atMost, ?_⟩
  intro m above _ fits
  have larger : (r + 1) ^ degree ≤ m ^ degree := Nat.pow_le_pow_left above degree
  omega

/-- A word is the fraction of a root if with some integer part it is the root of the scaled prime. -/
theorem rootFraction_eq {degree p : Nat} (positive : degree ≠ 0) {word : UInt32} {whole : Nat}
    (atMost : (whole * 2 ^ 32 + word.toNat) ^ degree ≤ p * 2 ^ (32 * degree))
    (next : p * 2 ^ (32 * degree) < (whole * 2 ^ 32 + word.toNat + 1) ^ degree) :
    rootFraction degree p = word := by
  have small : word.toNat < 2 ^ 32 := word.toNat_lt
  rw [rootFraction, root_eq positive atMost next]
  apply UInt32.toNat_inj.mp
  rw [UInt32.toNat_ofNat']
  omega

theorem schedule_first (block : List UInt8) {t : Nat} (first : t < 16) :
    schedule block t = .ofNat (bigEndian ((block.drop (4 * t)).take 4)) := by
  rw [schedule, if_pos first]

theorem schedule_later (block : List UInt8) {t : Nat} (later : 16 ≤ t) :
    schedule block t = smallSigma1 (schedule block (t - 2)) + schedule block (t - 7) +
      smallSigma0 (schedule block (t - 15)) + schedule block (t - 16) := by
  rw [schedule, if_neg (by omega)]

end Fips180

theorem roundConstants_eq {t : Nat} (round : t < 64) :
    roundConstants.getD t 0 = Fips180.constant t := by
  have table : ∀ t < 64, ∃ whole < 7,
      (whole * 2 ^ 32 + (roundConstants.getD t 0).toNat) ^ 3 ≤ Fips180.primes.getD t 0 * 2 ^ (32 * 3) ∧
      Fips180.primes.getD t 0 * 2 ^ (32 * 3) <
        (whole * 2 ^ 32 + (roundConstants.getD t 0).toNat + 1) ^ 3 := by
    decide
  obtain ⟨whole, _, atMost, next⟩ := table t round
  exact (Fips180.rootFraction_eq (by decide) atMost next).symm

theorem initialState_eq : ({} : Sha256Context).state = Fips180.initialHash := by
  have table : ∀ i : Fin 8, ∃ whole < 5,
      (whole * 2 ^ 32 + (({} : Sha256Context).state[i]).toNat) ^ 2 ≤
        Fips180.primes.getD i 0 * 2 ^ (32 * 2) ∧
      Fips180.primes.getD i 0 * 2 ^ (32 * 2) <
        (whole * 2 ^ 32 + (({} : Sha256Context).state[i]).toNat + 1) ^ 2 := by
    decide
  apply Vector.ext
  intro i small
  obtain ⟨whole, _, atMost, next⟩ := table ⟨i, small⟩
  rw [Fips180.initialHash, Vector.getElem_ofFn]
  exact (Fips180.rootFraction_eq (by decide) atMost next).symm

theorem rotr_eq (x : UInt32) {n : Nat} (some : 0 < n) (inside : n < 32) :
    rotr x (.ofNat n) = Fips180.rotr n x := by
  have right : (UInt32.ofNat n).toNat % 32 = n := by
    rw [UInt32.toNat_ofNat']
    omega
  have left : (32 - UInt32.ofNat n).toNat % 32 = 32 - n := by
    rw [UInt32.toNat_sub, UInt32.toNat_ofNat']
    change (2 ^ 32 - n % 2 ^ 32 + 32) % 2 ^ 32 % 32 = 32 - n
    omega
  apply UInt32.toBitVec_inj.mp
  change x.toBitVec >>> ((UInt32.ofNat n).toBitVec % 32) |||
      x.toBitVec <<< ((32 - UInt32.ofNat n).toBitVec % 32) =
    x.toBitVec.rotateRight n
  rw [BitVec.rotateRight_def, BitVec.ushiftRight_eq', BitVec.shiftLeft_eq']
  congr 2
  · rw [BitVec.toNat_umod]
    exact right.trans (Nat.mod_eq_of_lt inside).symm
  · rw [BitVec.toNat_umod]
    rw [Nat.mod_eq_of_lt inside]
    exact left

theorem shr_eq (x : UInt32) {n : Nat} (inside : n < 32) :
    x >>> .ofNat n = Fips180.shr n x := by
  apply UInt32.toBitVec_inj.mp
  change x.toBitVec >>> ((UInt32.ofNat n).toBitVec % 32) = x.toBitVec >>> n
  rw [BitVec.ushiftRight_eq', BitVec.toNat_umod]
  congr 1
  change n % 2 ^ 32 % 32 = n
  omega

theorem or_eq_add {high low place : Nat} (below : low < 2 ^ place) :
    (high <<< place) ||| low = high * 2 ^ place + low := by
  rw [← Nat.shiftLeft_add_eq_or_of_lt below, Nat.shiftLeft_eq]

theorem joined_eq (b0 b1 b2 b3 : UInt8) :
    (b0.toUInt32 <<< 24) ||| (b1.toUInt32 <<< 16) ||| (b2.toUInt32 <<< 8) ||| b3.toUInt32 =
      .ofNat (Fips180.bigEndian [b0, b1, b2, b3]) := by
  have h0 : b0.toNat < 2 ^ 8 := b0.toNat_lt
  have h1 : b1.toNat < 2 ^ 8 := b1.toNat_lt
  have h2 : b2.toNat < 2 ^ 8 := b2.toNat_lt
  have h3 : b3.toNat < 2 ^ 8 := b3.toNat_lt
  have shifted : ∀ (b : UInt8) (n : Nat), n ≤ 24 →
      (b.toUInt32 <<< UInt32.ofNat n).toNat = b.toNat <<< n := by
    intro b n few
    have small : b.toNat < 2 ^ 8 := b.toNat_lt
    have place : (UInt32.ofNat n).toNat % 32 = n := by
      rw [UInt32.toNat_ofNat']
      omega
    rw [UInt32.toNat_shiftLeft, UInt8.toNat_toUInt32, place, Nat.shiftLeft_eq]
    apply Nat.mod_eq_of_lt
    calc b.toNat * 2 ^ n < 2 ^ 8 * 2 ^ n := Nat.mul_lt_mul_of_pos_right small (by positivity)
      _ ≤ 2 ^ 8 * 2 ^ 24 := Nat.mul_le_mul_left _ (Nat.pow_le_pow_right (by decide) few)
  have first : b2.toNat <<< 8 ||| b3.toNat = b2.toNat * 2 ^ 8 + b3.toNat := or_eq_add h3
  have second : b1.toNat <<< 16 ||| (b2.toNat * 2 ^ 8 + b3.toNat) =
      b1.toNat * 2 ^ 16 + (b2.toNat * 2 ^ 8 + b3.toNat) := or_eq_add (by omega)
  have third : b0.toNat <<< 24 ||| (b1.toNat * 2 ^ 16 + (b2.toNat * 2 ^ 8 + b3.toNat)) =
      b0.toNat * 2 ^ 24 + (b1.toNat * 2 ^ 16 + (b2.toNat * 2 ^ 8 + b3.toNat)) := or_eq_add (by omega)
  apply UInt32.toNat_inj.mp
  change ((b0.toUInt32 <<< UInt32.ofNat 24) ||| (b1.toUInt32 <<< UInt32.ofNat 16) |||
    (b2.toUInt32 <<< UInt32.ofNat 8) ||| b3.toUInt32).toNat = _
  rw [UInt32.toNat_or, UInt32.toNat_or, UInt32.toNat_or, shifted b0 24 (by decide),
    shifted b1 16 (by decide), shifted b2 8 (by decide), UInt8.toNat_toUInt32, Nat.or_assoc,
    Nat.or_assoc, first, second, third, UInt32.toNat_ofNat']
  simp only [Fips180.bigEndian, List.foldl]
  omega

namespace Sha256Context

theorem loadWord_eq {block : List UInt8} (sized : block.length = 64) {i : Nat} (first : i < 16) :
    loadWord block i = Fips180.schedule block i := by
  have four : (block.drop (4 * i)).take 4 =
      [block.getD (i * 4 + 0) 0, block.getD (i * 4 + 1) 0, block.getD (i * 4 + 2) 0,
        block.getD (i * 4 + 3) 0] := by
    have inside : ∀ j (few : j < 4), block.getD (i * 4 + j) 0 = block.get ⟨i * 4 + j, by omega⟩ := by
      intro j few
      exact List.getD_eq_getElem _ _ (by omega)
    rw [Nat.mul_comm, inside 0 (by decide), inside 1 (by decide), inside 2 (by decide),
      inside 3 (by decide), List.drop_eq_getElem_cons (by omega), List.drop_eq_getElem_cons (by omega),
      List.drop_eq_getElem_cons (by omega), List.drop_eq_getElem_cons (by omega)]
    rfl
  rw [loadWord, Fips180.schedule_first block first, four, joined_eq]

/-- The words with those below `i` computed. -/
structure Computed (block : List UInt8) (words : List UInt32) (i : Nat) : Prop where
  sized : words.length = 64
  known : ∀ j < i, words.getD j 0 = Fips180.schedule block j

theorem Computed.set {block : List UInt8} {words : List UInt32} {i : Nat} (h : Computed block words i)
    (small : i < 64) {word : UInt32} (same : word = Fips180.schedule block i) :
    Computed block (words.set i word) (i + 1) := by
  constructor
  · rw [List.length_set, h.sized]
  · intro j below
    by_cases here : j = i
    · subst here
      rw [List.getD_eq_getElem?_getD, List.getElem?_set_self (by rw [h.sized]; exact small)]
      exact same
    · rw [List.getD_eq_getElem?_getD, List.getElem?_set_ne (Ne.symm here), ← List.getD_eq_getElem?_getD]
      exact h.known j (by omega)

theorem extendWord_eq {block : List UInt8} {words : List UInt32} {i : Nat} (h : Computed block words i)
    (later : 16 ≤ i) : extendWord words i = Fips180.schedule block i := by
  have sigma0 : ∀ x, rotr x 7 ^^^ rotr x 18 ^^^ (x >>> 3) = Fips180.smallSigma0 x := by
    intro x
    rw [Fips180.smallSigma0, ← rotr_eq x (by decide) (by decide), ← rotr_eq x (by decide) (by decide),
      ← shr_eq x (by decide)]
    rfl
  have sigma1 : ∀ x, rotr x 17 ^^^ rotr x 19 ^^^ (x >>> 10) = Fips180.smallSigma1 x := by
    intro x
    rw [Fips180.smallSigma1, ← rotr_eq x (by decide) (by decide), ← rotr_eq x (by decide) (by decide),
      ← shr_eq x (by decide)]
    rfl
  rw [Fips180.schedule_later block later, extendWord, h.known (i - 15) (by omega),
    h.known (i - 2) (by omega), h.known (i - 16) (by omega), h.known (i - 7) (by omega), sigma0, sigma1]
  ac_rfl

theorem computed_loaded {block : List UInt8} (sized : block.length = 64) (n : Nat) (few : n ≤ 16) :
    Computed block ((List.range n).foldl (fun words i => words.set i (loadWord block i))
      (List.replicate 64 0)) n := by
  induction n with
  | zero => exact ⟨List.length_replicate, fun j below => absurd below (Nat.not_lt_zero j)⟩
  | succ n ih =>
    have before := ih (by omega)
    have word := loadWord_eq sized (i := n) (by omega)
    rw [List.range_succ, List.foldl_append]
    exact before.set (by omega) word

theorem Computed.extended {block : List UInt8} {words : List UInt32} (h : Computed block words 16)
    (n : Nat) (few : n ≤ 48) :
    Computed block ((List.range' 16 n).foldl (fun words i => words.set i (extendWord words i)) words)
      (16 + n) := by
  induction n with
  | zero => exact h
  | succ n ih =>
    have before := ih (by omega)
    have word := extendWord_eq before (by omega)
    rw [List.range'_concat, List.foldl_append, Nat.one_mul]
    exact before.set (by omega) word

theorem messageWords_computed {block : List UInt8} (sized : block.length = 64) :
    Computed block (messageWords block) 64 := by
  rw [messageWords]
  exact (computed_loaded sized 16 (le_refl _)).extended 48 (le_refl _)

def Working.vector (v : Working) : Vector UInt32 8 := #v[v.a, v.b, v.c, v.d, v.e, v.f, v.g, v.h]

theorem round_eq {block : List UInt8} {words : List UInt32} (h : Computed block words 64) (v : Working)
    {t : Nat} (small : t < 64) : (round words v t).vector = Fips180.round block v.vector t := by
  have sigma1 : rotr v.e 6 ^^^ rotr v.e 11 ^^^ rotr v.e 25 = Fips180.bigSigma1 v.e := by
    rw [Fips180.bigSigma1, ← rotr_eq v.e (by decide) (by decide),
      ← rotr_eq v.e (by decide) (by decide), ← rotr_eq v.e (by decide) (by decide)]
    rfl
  have sigma0 : rotr v.a 2 ^^^ rotr v.a 13 ^^^ rotr v.a 22 = Fips180.bigSigma0 v.a := by
    rw [Fips180.bigSigma0, ← rotr_eq v.a (by decide) (by decide),
      ← rotr_eq v.a (by decide) (by decide), ← rotr_eq v.a (by decide) (by decide)]
    rfl
  rw [round, sigma1, sigma0, roundConstants_eq small, h.known t small]
  rfl

theorem rounds_eq {block : List UInt8} {words : List UInt32} (h : Computed block words 64) (v : Working)
    (ts : List Nat) (small : ∀ t ∈ ts, t < 64) :
    (ts.foldl (round words) v).vector = ts.foldl (Fips180.round block) v.vector := by
  induction ts generalizing v with
  | nil => rfl
  | cons t ts ih =>
    rw [List.foldl_cons, List.foldl_cons, ih _ (fun t' there => small t' (List.mem_cons_of_mem _ there)),
      round_eq h v (small t List.mem_cons_self)]

/-- A block is processed as the standard compresses it. -/
theorem processBlock_eq (state : Vector UInt32 8) {block : List UInt8} (sized : block.length = 64) :
    processBlock state block = Fips180.compress state block := by
  let start : Working :=
    { a := state[0], b := state[1], c := state[2], d := state[3],
      e := state[4], f := state[5], g := state[6], h := state[7] }
  have started : start.vector = state := by
    apply Vector.ext
    intro i small
    interval_cases i <;> rfl
  have rounds := rounds_eq (messageWords_computed sized) start (List.range 64)
    (fun t there => List.mem_range.mp there)
  rw [started] at rounds
  rw [Fips180.compress, ← rounds]
  apply Vector.ext
  intro i small
  rw [Vector.getElem_map, Vector.getElem_zip]
  interval_cases i <;> rfl

theorem totalLength_updateLoop (c : Sha256Context) (data : List UInt8) :
    (c.updateLoop data).totalLength = c.totalLength := by
  fun_induction updateLoop c data with
  | case1 c data more take ih =>
    rw [ih, fill]
    split <;> rfl
  | case2 => rfl

theorem totalLength_update (c : Sha256Context) (data : List UInt8) :
    (c.update data).totalLength = c.totalLength + .ofNat data.length :=
  totalLength_updateLoop _ data

theorem stream_padZeros (c : Sha256Context) :
    c.padZeros.stream = (List.replicate ((120 - c.bufferLength) % 64) 0).foldl
      (BlockStream.push 64 processBlock) c.stream := by
  fun_induction padZeros c with
  | case1 c short ih =>
    have bound := c.partlyFilled
    have next : (120 - c.bufferLength) % 64 = (120 - (c.update [0]).bufferLength) % 64 + 1 := by
      rw [bufferLength_update, List.length_singleton]
      omega
    rw [ih, stream_update, next, List.replicate_succ]
    rfl
  | case2 c done =>
    have none : (120 - c.bufferLength) % 64 = 0 := by omega
    rw [none]
    rfl

/-- A context that has consumed a message. -/
structure Consumed (c : Sha256Context) (message : List UInt8) : Prop where
  stream : c.stream = message.foldl (BlockStream.push 64 processBlock) (({} : Sha256Context).state, [])
  totalLength : c.totalLength = .ofNat message.length

theorem consumed_new : Consumed {} [] := ⟨rfl, rfl⟩

theorem Consumed.update {c : Sha256Context} {message : List UInt8} (h : Consumed c message)
    (data : List UInt8) : Consumed (c.update data) (message ++ data) := by
  constructor
  · rw [stream_update, h.stream, List.foldl_append]
  · rw [totalLength_update, h.totalLength, List.length_append, UInt64.ofNat_add]

theorem Consumed.updates {c : Sha256Context} {message : List UInt8} (h : Consumed c message)
    (chunks : List (List UInt8)) :
    Consumed (chunks.foldl Sha256Context.update c) (message ++ chunks.flatten) := by
  induction chunks generalizing c message with
  | nil => simpa using h
  | cons chunk chunks ih =>
    have later := ih (h.update chunk)
    rwa [List.append_assoc] at later

theorem Consumed.bufferLength {c : Sha256Context} {message : List UInt8} (h : Consumed c message) :
    c.bufferLength = message.length % 64 := by
  rw [← length_stream, h.stream, BlockStream.length_foldl_push 64 processBlock (by decide) _ _ (by decide)]
  simp

theorem zeros_eq (length : Nat) :
    (120 - (length + 1) % 64) % 64 = (Fips180.zeroBits (8 * length) - 7) / 8 := by
  rw [Fips180.zeroBits]
  omega

theorem length_padded (message : List UInt8) : (Fips180.padded message).length % 64 = 0 := by
  simp only [Fips180.padded, Fips180.zeroBits, Fips180.bytesOf, List.length_append, List.length_map,
    List.length_range, List.length_replicate, List.length_singleton]
  omega

theorem lengthBytes_eq (length : Nat) :
    (List.range 8).map (fun i =>
        (((UInt64.ofNat length * 8) >>> .ofNat (56 - 8 * i)) &&& 0xff).toUInt8) =
      Fips180.bytesOf 8 (8 * length) := by
  apply List.map_congr_left
  intro i here
  have small := List.mem_range.mp here
  have bits : (UInt64.ofNat length * 8).toNat = 8 * length % 2 ^ 64 := by
    rw [UInt64.toNat_mul, UInt64.toNat_ofNat']
    change length % 2 ^ 64 * 8 % 2 ^ 64 = _
    omega
  have place : (UInt64.ofNat (56 - 8 * i)).toNat % 64 = 8 * (7 - i) := by
    rw [UInt64.toNat_ofNat']
    omega
  have power : (256 : Nat) ^ (8 - 1 - i) = 2 ^ (8 * (7 - i)) := by
    rw [Nat.pow_mul]
  apply UInt8.toNat_inj.mp
  rw [UInt64.toNat_toUInt8, UInt64.toNat_and, UInt64.toNat_shiftRight, bits, place,
    UInt8.toNat_ofNat', power, Nat.shiftRight_eq_div_pow]
  change (8 * length % 2 ^ 64 / 2 ^ (8 * (7 - i)) &&& 2 ^ 8 - 1) % 2 ^ 8 = _
  rw [Nat.and_two_pow_sub_one_eq_mod, Nat.mod_mod]
  interval_cases i <;> simp <;> omega

theorem wordBytes_eq (word : UInt32) :
    [((word >>> 24) &&& 0xff).toUInt8, ((word >>> 16) &&& 0xff).toUInt8,
      ((word >>> 8) &&& 0xff).toUInt8, (word &&& 0xff).toUInt8] = Fips180.bytesOf 4 word.toNat := by
  have byte : ∀ n < 32, ((word >>> UInt32.ofNat n) &&& 0xff).toUInt8 = .ofNat (word.toNat / 2 ^ n) := by
    intro n inside
    have place : (UInt32.ofNat n).toNat % 32 = n := by
      rw [UInt32.toNat_ofNat']
      omega
    apply UInt8.toNat_inj.mp
    rw [UInt32.toNat_toUInt8, UInt32.toNat_and, UInt32.toNat_shiftRight, place, UInt8.toNat_ofNat',
      Nat.shiftRight_eq_div_pow]
    change (word.toNat / 2 ^ n &&& 2 ^ 8 - 1) % 2 ^ 8 = _
    rw [Nat.and_two_pow_sub_one_eq_mod, Nat.mod_mod]
  have last := byte 0 (by decide)
  have zero : word >>> UInt32.ofNat 0 = word := UInt32.shiftRight_zero
  rw [zero] at last
  change [((word >>> UInt32.ofNat 24) &&& 0xff).toUInt8, ((word >>> UInt32.ofNat 16) &&& 0xff).toUInt8,
    ((word >>> UInt32.ofNat 8) &&& 0xff).toUInt8, (word &&& 0xff).toUInt8] = _
  rw [byte 24 (by decide), byte 16 (by decide), byte 8 (by decide), last]
  rfl

theorem Consumed.finish {c : Sha256Context} {message : List UInt8} (h : Consumed c message) :
    c.finish = Fips180.sha256 message := by
  have length : (c.update [0x80]).bufferLength = (message.length + 1) % 64 := by
    rw [bufferLength_update, h.bufferLength, List.length_singleton, Nat.mod_add_mod]
  have whole := length_padded message
  have stream : ((c.update [0x80]).padZeros.update (Fips180.bytesOf 8 (8 * message.length))).stream =
      (Fips180.padded message).foldl (BlockStream.push 64 processBlock)
        (({} : Sha256Context).state, []) := by
    rw [stream_update, stream_padZeros, stream_update, h.stream, length, zeros_eq, Fips180.padded,
      List.foldl_append, List.foldl_append, List.foldl_append]
  have blocks : ∀ (bs : List (List UInt8)) state, (∀ b ∈ bs, b.length = 64) →
      bs.foldl processBlock state = bs.foldl Fips180.compress state := by
    intro bs
    induction bs with
    | nil => exact fun _ _ => rfl
    | cons b bs ih =>
      intro state sized
      rw [List.foldl_cons, List.foldl_cons, processBlock_eq state (sized b List.mem_cons_self),
        ih _ (fun b' there => sized b' (List.mem_cons_of_mem _ there))]
  rw [BlockStream.foldl_push_whole 64 processBlock (by decide) whole,
    blocks _ _ (BlockStream.length_of_mem_blocks 64 (by decide) whole), initialState_eq] at stream
  have state := congrArg Prod.fst stream
  rw [Sha256Context.finish, h.totalLength, lengthBytes_eq, Fips180.sha256]
  simp only [wordBytes_eq]
  change _ = List.flatMap _ (Vector.toList _)
  exact congrArg (fun v : Vector UInt32 8 =>
    v.toList.flatMap (fun word => Fips180.bytesOf 4 word.toNat)) state

end Sha256Context

theorem sha256_eq (data : List UInt8) : sha256 data = Fips180.sha256 data :=
  (Sha256Context.consumed_new.update data).finish

theorem length_sha256 (data : List UInt8) : (Fips180.sha256 data).length = 32 := by
  simp [Fips180.sha256, Fips180.bytesOf, List.length_flatMap]

theorem blockKey_eq (key : List UInt8) :
    (if key.length > 64 then memcpy (List.replicate 64 0) 0 (sha256 key)
      else if key ≠ [] then memcpy (List.replicate 64 0) 0 key
      else List.replicate 64 0) = Rfc2104.blockKey key := by
  have placed : ∀ bytes : List UInt8,
      memcpy (List.replicate 64 0) 0 bytes = bytes ++ List.replicate (64 - bytes.length) 0 := by
    intro bytes
    rw [memcpy, List.take_zero, List.nil_append, Nat.zero_add, List.drop_replicate]
  rw [Rfc2104.blockKey]
  by_cases long : key.length > 64
  · have hashed : key.length > Rfc2104.blockSize := long
    rw [if_pos long, if_pos hashed, placed, sha256_eq]
    rfl
  · have short : ¬ key.length > Rfc2104.blockSize := long
    rw [if_neg long, if_neg short]
    by_cases some : key ≠ []
    · rw [if_pos some, placed]
      rfl
    · rw [if_neg some, not_not.mp some]
      rfl

theorem length_blockKey (key : List UInt8) : (Rfc2104.blockKey key).length = 64 := by
  have filled : ∀ bytes : List UInt8, bytes.length ≤ 64 →
      (bytes ++ List.replicate (Rfc2104.blockSize - bytes.length) 0).length = 64 := by
    intro bytes fits
    rw [List.length_append, List.length_replicate, Rfc2104.blockSize]
    omega
  rw [Rfc2104.blockKey]
  by_cases long : key.length > Rfc2104.blockSize
  · rw [if_pos long]
    exact filled _ (by rw [length_sha256]; decide)
  · rw [if_neg long]
    exact filled _ (Nat.le_of_not_gt long)

theorem map_xor_eq (bytes : List UInt8) (pad : UInt8) :
    bytes.map (· ^^^ pad) = List.zipWith (· ^^^ ·) bytes (List.replicate bytes.length pad) := by
  induction bytes with
  | nil => rfl
  | cons byte bytes ih =>
    rw [List.map_cons, ih, List.length_cons, List.replicate_succ, List.zipWith_cons_cons]

theorem hmacSha256_eq (key message : List UInt8) : hmacSha256 key message = Rfc2104.hmac key message := by
  have inner := (Sha256Context.consumed_new.update ((Rfc2104.blockKey key).map (· ^^^ 0x36))).update
    message
  have outer := (Sha256Context.consumed_new.update ((Rfc2104.blockKey key).map (· ^^^ 0x5c))).update
    (Fips180.sha256 ([] ++ (Rfc2104.blockKey key).map (· ^^^ 0x36) ++ message))
  simp only [hmacSha256, blockKey_eq]
  rw [inner.finish, outer.finish, map_xor_eq, map_xor_eq, length_blockKey]
  rfl

/-- However a message is cut into calls of `update`, empty ones included, the digest is that of the
standard, and so is the authentication code for a key of any length. -/
theorem hash_standards :
    (∀ chunks : List (List UInt8),
      (chunks.foldl Sha256Context.update {}).finish = Fips180.sha256 chunks.flatten) ∧
    (∀ key message : List UInt8, hmacSha256 key message = Rfc2104.hmac key message) := by
  constructor
  · intro chunks
    exact (Sha256Context.consumed_new.updates chunks).finish
  · exact hmacSha256_eq

end Asterion
