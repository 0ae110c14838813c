import Asterion.Book.PriceTimeMap
import Asterion.Core.LittleEndian
import Asterion.Lib.PrefixCode

/-! The bytes that the checksum of a book is taken of. For books that the operations lead to they
determine everything that a reader of the book sees. -/
namespace Asterion
open Lib Lib.PrefixCode

/-- The fields have the values of their types. -/
structure Order.Fits (o : Order) : Prop where
  orderId : o.orderId < 2 ^ 64
  clientOrderId : o.clientOrderId < 2 ^ 64
  symbolId : o.symbolId < 2 ^ 32
  priceTicks : -2 ^ 63 ≤ o.priceTicks ∧ o.priceTicks < 2 ^ 63
  quantity : -2 ^ 63 ≤ o.quantity ∧ o.quantity < 2 ^ 63
  timestampNs : -2 ^ 63 ≤ o.timestampNs ∧ o.timestampNs < 2 ^ 63
  sequenceNumber : o.sequenceNumber < 2 ^ 64

/-- The arguments have the values of their types. -/
def BookOperation.Fits : BookOperation → Prop
  | .clear => True
  | .add order => order.Fits
  | .cancel orderId => orderId < 2 ^ 64
  | .reduce orderId quantity => orderId < 2 ^ 64 ∧ -2 ^ 63 ≤ quantity ∧ quantity < 2 ^ 63
  | .replace orderId newPriceTicks newQuantity timestampNs sequenceNumber =>
    orderId < 2 ^ 64 ∧ (-2 ^ 63 ≤ newPriceTicks ∧ newPriceTicks < 2 ^ 63) ∧
      (-2 ^ 63 ≤ newQuantity ∧ newQuantity < 2 ^ 63) ∧
      (-2 ^ 63 ≤ timestampNs ∧ timestampNs < 2 ^ 63) ∧ sequenceNumber < 2 ^ 64

namespace OrderBook

def orderBytes (order : Order) : List UInt8 :=
  littleEndian 8 order.orderId ++ littleEndian 8 order.clientOrderId ++
    littleEndian 4 order.symbolId ++ littleEndian 8 order.quantity ++
    littleEndian 8 order.timestampNs ++ littleEndian 8 order.sequenceNumber

def levelBytes (e : Int × PriceLevel) : List UInt8 :=
  littleEndian 8 e.1 ++ littleEndian 8 e.2.totalQuantity ++
    (littleEndian 8 e.2.orders.length ++ e.2.orders.flatMap orderBytes)

def sideBytes (side : Side) (entries : List (Int × PriceLevel)) : List UInt8 :=
  littleEndian 1 side.toByte ++ (littleEndian 8 entries.length ++ entries.flatMap levelBytes)

/-- What `checksum` feeds into the hash. -/
def checksumBytes (b : OrderBook) : List UInt8 :=
  littleEndian 4 b.symbolId ++ (sideBytes .buy b.bids.entries ++ sideBytes .sell b.asks.entries)

theorem fnv1aAppend_append (seed : UInt64) (bytes bytes' : List UInt8) :
    fnv1aAppend seed (bytes ++ bytes') = fnv1aAppend (fnv1aAppend seed bytes) bytes' :=
  List.foldl_append

theorem foldl_fnv1aAppend {A : Type} {step : UInt64 → A → UInt64} {code : A → List UInt8}
    (same : ∀ seed x, step seed x = fnv1aAppend seed (code x)) (seed : UInt64) (xs : List A) :
    xs.foldl step seed = fnv1aAppend seed (xs.flatMap code) := by
  induction xs generalizing seed with
  | nil => rfl
  | cons x xs ih => rw [List.foldl_cons, ih, same, List.flatMap_cons, fnv1aAppend_append]

theorem checksumOrder_eq (seed : UInt64) (order : Order) :
    checksumOrder seed order = fnv1aAppend seed (orderBytes order) := by
  simp only [checksumOrder, checksumAppend, orderBytes, fnv1aAppend_append]

theorem checksumLevel_eq (seed : UInt64) (e : Int × PriceLevel) :
    checksumLevel seed e = fnv1aAppend seed (levelBytes e) := by
  simp only [checksumLevel, checksumAppend, levelBytes, fnv1aAppend_append,
    foldl_fnv1aAppend checksumOrder_eq]

theorem checksumLevels_eq (seed : UInt64) (side : Side) (entries : List (Int × PriceLevel)) :
    checksumLevels seed side entries = fnv1aAppend seed (sideBytes side entries) := by
  simp only [checksumLevels, checksumAppend, sideBytes, fnv1aAppend_append,
    foldl_fnv1aAppend checksumLevel_eq]

theorem checksum_eq (b : OrderBook) :
    b.checksum = fnv1aAppend fnvOffsetBasis b.checksumBytes := by
  simp only [checksum, checksumLevels_eq, checksumAppend, checksumBytes, fnv1aAppend_append]

theorem unsigned_injective {size m n : Nat} (hm : m < 2 ^ (8 * size)) (hn : n < 2 ^ (8 * size))
    (same : littleEndian size m = littleEndian size n) : m = n := by
  have read := congrArg ofLittleEndian same
  rwa [ofLittleEndian_littleEndian hm, ofLittleEndian_littleEndian hn] at read

theorem signed_injective {x y : Int} (hx : -2 ^ 63 ≤ x ∧ x < 2 ^ 63) (hy : -2 ^ 63 ≤ y ∧ y < 2 ^ 63)
    (same : littleEndian 8 x = littleEndian 8 y) : x = y := by
  have read : toSigned 8 (ofLittleEndian (littleEndian 8 x)) =
      toSigned 8 (ofLittleEndian (littleEndian 8 y)) :=
    congrArg (fun bytes => toSigned 8 (ofLittleEndian bytes)) same
  rwa [toSigned_littleEndian (by omega) (by omega), toSigned_littleEndian (by omega) (by omega)]
    at read

theorem separates_count : Separates (fun n => n < 2 ^ 64) (fun n : Nat => littleEndian 8 n) :=
  separates_fixed 8 (fun n _ => length_littleEndian 8 n) (fun _ _ hm hn => unsigned_injective hm hn)

/-- Side and price are not among the bytes of an order; its place in the book has them. -/
theorem separates_order (side : Side) (price : Int) :
    Separates (fun o : Order => (o.side = side ∧ o.priceTicks = price) ∧ o.Fits) orderBytes := by
  apply separates_fixed 44
  · intro o _
    simp [orderBytes]
  · rintro x y ⟨⟨sideX, priceX⟩, hx⟩ ⟨⟨sideY, priceY⟩, hy⟩ same
    unfold orderBytes at same
    obtain ⟨same, sequenceNumber⟩ := List.append_inj' same (by simp)
    obtain ⟨same, timestampNs⟩ := List.append_inj' same (by simp)
    obtain ⟨same, quantity⟩ := List.append_inj' same (by simp)
    obtain ⟨same, symbolId⟩ := List.append_inj' same (by simp)
    obtain ⟨orderId, clientOrderId⟩ := List.append_inj' same (by simp)
    have h1 := unsigned_injective hx.orderId hy.orderId orderId
    have h2 := unsigned_injective hx.clientOrderId hy.clientOrderId clientOrderId
    have h3 := unsigned_injective hx.symbolId hy.symbolId symbolId
    have h4 := signed_injective hx.quantity hy.quantity quantity
    have h5 := signed_injective hx.timestampNs hy.timestampNs timestampNs
    have h6 := unsigned_injective hx.sequenceNumber hy.sequenceNumber sequenceNumber
    cases x
    cases y
    simp_all

/-- A level of a book, with a number of orders that its type can count. -/
structure LevelFits (side : Side) (e : Int × PriceLevel) : Prop where
  wf : ∃ symbolId, LevelWF symbolId side e
  price : -2 ^ 63 ≤ e.1 ∧ e.1 < 2 ^ 63
  count : e.2.orders.length < 2 ^ 64
  orders : ∀ o ∈ e.2.orders, o.Fits

theorem separates_level (side : Side) : Separates (LevelFits side) levelBytes := by
  rintro ⟨p, l⟩ ⟨p', l'⟩ h h' rest rest' same
  simp only [levelBytes, List.append_assoc] at same
  obtain ⟨price, afterPrice⟩ := List.append_inj same (by simp)
  obtain ⟨_, afterTotal⟩ := List.append_inj afterPrice (by simp)
  have prices : p = p' := signed_injective h.price h'.price price
  subst prices
  obtain ⟨symbolId, wf⟩ := h.wf
  obtain ⟨symbolId', wf'⟩ := h'.wf
  have member : ∀ {k : PriceLevel} {id : Nat}, LevelWF id side (p, k) → (∀ o ∈ k.orders, o.Fits) →
      ∀ o ∈ k.orders, (o.side = side ∧ o.priceTicks = p) ∧ o.Fits :=
    fun kwf fits o ho => ⟨kwf.filed o ho, fits o ho⟩
  obtain ⟨orders, rests⟩ := (separates_count.counted (separates_order side p)) l.orders l'.orders
    ⟨h.count, member wf h.orders⟩ ⟨h'.count, member wf' h'.orders⟩ rest rest'
    (by simpa only [List.append_assoc] using afterTotal)
  have keys : l.priceTicks = l'.priceTicks := wf.key.trans wf'.key.symm
  have totals : l.totalQuantity = l'.totalQuantity := by
    rw [wf.total, wf'.total]
    exact congrArg (fun os : List Order => (os.map (·.quantity)).sum) orders
  have levels : l = l' := by
    cases l
    cases l'
    rw [PriceLevel.mk.injEq]
    exact ⟨keys, totals, orders⟩
  exact ⟨by rw [levels], rests⟩

/-- A book of which every order fits. -/
structure Fitting (b : OrderBook) : Prop where
  wf : b.WF
  symbolId : b.symbolId < 2 ^ 32
  orders : ∀ side, ∀ o ∈ b.queue side, o.Fits

section Fitting
variable {b c : OrderBook}

/-- What the queues of an operation's result hold either was there or is made of its arguments. -/
theorem Fitting.outcome (h : Fitting b) {applied : OrderBook × Bool} {result : Option Queues}
    (outcome : Outcome b applied result)
    (fits : ∀ q, result = some q → ∀ side, ∀ o ∈ q side, o.Fits) : Fitting applied.1 := by
  refine ⟨outcome.wf, by rw [outcome.symbol]; exact h.symbolId, ?_⟩
  intro side o ho
  rw [outcome.queue] at ho
  cases result with
  | none => exact h.orders side o ho
  | some q => exact fits q rfl side o ho

theorem fits_enqueue {o x : Order} {q : List Order} (ho : o.Fits) (hq : ∀ y ∈ q, y.Fits)
    (hx : x ∈ enqueue o q) : x.Fits := by
  rcases mem_enqueue.mp hx with rfl | there
  · exact ho
  · exact hq x there

theorem fits_consume {o x : Order} {q : List Order} {quantity : Int} (some : 0 < quantity)
    (ho : o.Fits) (hq : ∀ y ∈ q, y.Fits ∧ 0 < y.quantity) (hx : x ∈ consume (o, quantity) q) :
    x.Fits := by
  unfold consume at hx
  split at hx
  · rename_i part
    rw [shrink_eq_map] at hx
    obtain ⟨y, hy, rfl⟩ := List.mem_map.mp hx
    have fitsY := (hq y hy).1
    by_cases same : y.orderId = o.orderId
    · rw [shrinkOrder, if_pos same]
      have before := fitsY.quantity
      have positive := (hq y hy).2
      have bound := ho.quantity
      exact { fitsY with quantity := ⟨by simp only at part ⊢; omega, by simp only; omega⟩ }
    · rw [shrinkOrder_of_ne same]
      exact fitsY
  · exact (hq x (mem_dequeue.mp hx).1).1

theorem Fitting.found (h : Fitting b) {orderId : Nat} {o : Order}
    (found : Queues.find b.queue orderId = some o) : o.Fits := by
  rw [find_eq h.wf] at found
  obtain ⟨resting, _⟩ := (findOrder_eq_some h.wf).mp found
  exact h.orders _ o ((mem_resting h.wf).mp resting)

theorem Fitting.apply (h : Fitting b) {operation : BookOperation} (fits : operation.Fits) :
    Fitting (b.apply operation).1 := by
  cases operation with
  | clear =>
    refine ⟨(clear_wf b).1, h.symbolId, ?_⟩
    intro side o ho
    rw [OrderBook.apply, (clear_wf b).2 side] at ho
    cases ho
  | add order =>
    apply h.outcome (addOrder_outcome h.wf order)
    intro q hq side o ho
    rw [Queues.add, Option.ite_none_right_eq_some] at hq
    obtain rfl := Option.some.inj hq.2
    simp only at ho
    split at ho
    · exact fits_enqueue fits (h.orders side) ho
    · exact h.orders side o ho
  | cancel orderId =>
    apply h.outcome (cancelOrder_outcome h.wf orderId)
    intro q hq side o ho
    obtain ⟨_, _, rfl⟩ := Option.map_eq_some_iff.mp hq
    exact h.orders side o (mem_dequeue.mp ho).1
  | reduce orderId quantity =>
    apply h.outcome (reduceOrder_outcome h.wf orderId quantity)
    intro q hq side o ho
    rw [Queues.reduce, Option.ite_none_left_eq_some] at hq
    obtain ⟨some, hq⟩ := hq
    obtain ⟨x, found, rfl⟩ := Option.map_eq_some_iff.mp hq
    apply fits_consume (not_le.mp some) (h.found found) _ ho
    exact fun y hy => ⟨h.orders side y hy, quantity_pos h.wf (mem_resting_of_queue h.wf hy)⟩
  | replace orderId newPriceTicks newQuantity timestampNs sequenceNumber =>
    obtain ⟨_, price, quantity, timestamp, sequence⟩ := fits
    apply h.outcome (replaceOrder_outcome h.wf orderId _ _ _ _)
    intro q hq side o ho
    rw [Queues.replace, Option.ite_none_left_eq_some] at hq
    obtain ⟨x, found, rfl⟩ := Option.map_eq_some_iff.mp hq.2
    have fitsX := h.found found
    simp only at ho
    split at ho
    · apply fits_enqueue _ (fun y hy => h.orders side y (mem_dequeue.mp hy).1) ho
      exact { fitsX with
        priceTicks := price, quantity := quantity, timestampNs := timestamp
        sequenceNumber := sequence }
    · exact h.orders side o ho

theorem fitting_new {symbolId : Nat} (fits : symbolId < 2 ^ 32) : Fitting (new symbolId) := by
  refine ⟨new_wf symbolId, fits, ?_⟩
  intro side o ho
  cases side <;> cases ho

theorem Fitting.run (h : Fitting b) (operations : List BookOperation)
    (fits : ∀ operation ∈ operations, operation.Fits) : Fitting (b.run operations).1 := by
  induction operations generalizing b with
  | nil => exact h
  | cons operation operations ih =>
    exact ih (h.apply (fits operation List.mem_cons_self))
      (fun other there => fits other (List.mem_cons_of_mem _ there))

/-- Distinct numbers of a width are not more than the width can count. -/
theorem length_lt_of_nodup {ns : List Nat} (distinct : ns.Nodup) (small : ∀ n ∈ ns, 0 < n ∧ n < 2 ^ 64) :
    ns.length < 2 ^ 64 := by
  have inside : ns.toFinset ⊆ Finset.Ioo 0 (2 ^ 64) := by
    intro n hn
    exact Finset.mem_Ioo.mpr (small n (List.mem_toFinset.mp hn))
  have count := Finset.card_le_card inside
  rw [List.toFinset_card_of_nodup distinct, Nat.card_Ioo] at count
  omega

/-- The levels of a side, and their number, fit their types: prices are distinct and so are the ids of
orders. -/
theorem Fitting.levels (h : Fitting b) (side : Side) :
    (b.levels side).length < 2 ^ 64 ∧ ∀ e ∈ b.levels side, LevelFits side e := by
  have level : ∀ e ∈ b.levels side, LevelFits side e ∧ 0 < e.1 := by
    intro e he
    have wf := h.wf.levels side e he
    have orders : ∀ o ∈ e.2.orders, o.Fits := fun o ho =>
      h.orders side o (Lib.Buckets.mem_flat.mpr ⟨e, he, ho⟩)
    obtain ⟨o, ho⟩ := List.exists_mem_of_ne_nil _ wf.nonempty
    have price := (wf.filed o ho).2
    have valid := wf.valid o ho
    simp only [isValidRestingOrder, Bool.and_eq_true, decide_eq_true_eq] at valid
    have count : e.2.orders.length < 2 ^ 64 := by
      rw [← List.length_map (·.orderId)]
      apply length_lt_of_nodup (level_ids_nodup h.wf he)
      intro id hid
      obtain ⟨x, hx, rfl⟩ := List.mem_map.mp hid
      have proper := orderId_ne_invalid h.wf (mem_resting_of_queue h.wf
        (Lib.Buckets.mem_flat.mpr ⟨e, he, hx⟩))
      exact ⟨Nat.pos_of_ne_zero proper, (orders x hx).orderId⟩
    exact ⟨⟨⟨_, wf⟩, price ▸ (orders o ho).priceTicks, count, orders⟩, price ▸ valid.1.2⟩
  refine ⟨?_, fun e he => (level e he).1⟩
  have distinct : ((b.levels side).map (fun e => e.1.toNat)).Nodup := by
    rw [List.Nodup, List.pairwise_map]
    apply (b.levels_sorted side).imp_of_mem
    intro e e' he he' ordered same
    have equal : e.1 = e'.1 := by
      have hp := (level e he).2
      have hp' := (level e' he').2
      omega
    rw [equal] at ordered
    exact irrefl_of (before side) _ ordered
  rw [← List.length_map (fun e : Int × PriceLevel => e.1.toNat)]
  apply length_lt_of_nodup distinct
  intro n hn
  obtain ⟨e, he, rfl⟩ := List.mem_map.mp hn
  have fits := (level e he).1.price
  have positive := (level e he).2
  omega

theorem Fitting.side (hb : Fitting b) (hc : Fitting c) (side : Side) {rest rest' : List UInt8}
    (same : sideBytes side (b.levels side) ++ rest = sideBytes side (c.levels side) ++ rest') :
    b.levels side = c.levels side ∧ rest = rest' := by
  simp only [sideBytes, List.append_assoc] at same
  obtain ⟨_, after⟩ := List.append_inj same (by simp)
  exact (separates_count.counted (separates_level side)) _ _ (hb.levels side) (hc.levels side) rest rest'
    (by simpa only [List.append_assoc] using after)

theorem Fitting.determined (hb : Fitting b) (hc : Fitting c)
    (same : b.checksumBytes = c.checksumBytes) :
    b.symbolId = c.symbolId ∧ ∀ side, b.levels side = c.levels side := by
  obtain ⟨symbol, sides⟩ := List.append_inj same (by simp)
  have symbols := unsigned_injective hb.symbolId hc.symbolId symbol
  obtain ⟨buys, sells⟩ := hb.side hc .buy sides
  have rest : sideBytes .sell (b.levels .sell) ++ [] = sideBytes .sell (c.levels .sell) ++ [] := by
    rw [List.append_nil, List.append_nil]
    exact sells
  refine ⟨symbols, ?_⟩
  intro side
  cases side with
  | none => rfl
  | buy => exact buys
  | sell => exact (hb.side hc .sell rest).1

end Fitting

/-- The checksum is the hash of bytes that, of books that operations lead to, determine the symbol and
on each side the prices in order with the queue of orders at each. -/
theorem checksum_encoding_injective (symbolId symbolId' : Nat) (symbol : symbolId < 2 ^ 32)
    (symbol' : symbolId' < 2 ^ 32) (operations operations' : List BookOperation)
    (fits : ∀ operation ∈ operations, operation.Fits)
    (fits' : ∀ operation ∈ operations', operation.Fits) :
    let b := ((new symbolId).run operations).1
    let c := ((new symbolId').run operations').1
    b.checksum = fnv1aAppend fnvOffsetBasis b.checksumBytes ∧
      (b.checksumBytes = c.checksumBytes →
        b.symbolId = c.symbolId ∧
        ∀ side, (b.levels side).map (fun e => (e.1, e.2.orders)) =
          (c.levels side).map (fun e => (e.1, e.2.orders))) := by
  refine ⟨checksum_eq _, ?_⟩
  intro same
  obtain ⟨symbols, levels⟩ := ((fitting_new symbol).run operations fits).determined
    ((fitting_new symbol').run operations' fits') same
  exact ⟨symbols, fun side => by rw [levels side]⟩

/-- Two orders that differ in their timestamps. -/
theorem checksum_encoding_timestamps :
    ((new 7).run [.add
      { orderId := 1, symbolId := 7, side := .buy, priceTicks := 100, quantity := 5
        timestampNs := 1 }]).1.checksumBytes ≠
    ((new 7).run [.add
      { orderId := 1, symbolId := 7, side := .buy, priceTicks := 100, quantity := 5
        timestampNs := 2 }]).1.checksumBytes := by
  have fits : ∀ timestampNs : Int, -2 ^ 63 ≤ timestampNs ∧ timestampNs < 2 ^ 63 →
      ∀ operation ∈ [BookOperation.add
        { orderId := 1, symbolId := 7, side := .buy, priceTicks := 100, quantity := 5, timestampNs }],
        operation.Fits := by
    intro timestampNs fits operation there
    obtain rfl := List.mem_singleton.mp there
    constructor <;> simp [invalidClientOrderId]
    exact fits
  intro same
  have levels := ((checksum_encoding_injective 7 7 (by decide) (by decide) _ _ (fits 1 (by decide))
    (fits 2 (by decide))).2 same).2 .buy
  exact absurd levels (by decide)

end OrderBook
end Asterion
