import Asterion.Book.Representation

/-! One specification for each operation of the default book: what it does to the two
queues, and that the representation invariant survives. -/
namespace Asterion

open Lib Lib.SortedMap Lib.Buckets

section Queues

theorem perm_enqueue (o : Order) (q : List Order) : (enqueue o q).Perm (o :: q) :=
  List.perm_orderedInsert _ _ _

theorem mem_enqueue {o x : Order} {q : List Order} : x ∈ enqueue o q ↔ x = o ∨ x ∈ q := by
  rw [(perm_enqueue o q).mem_iff, List.mem_cons]

theorem mem_dequeue {id : Nat} {x : Order} {q : List Order} :
    x ∈ dequeue id q ↔ x ∈ q ∧ x.orderId ≠ id := by
  simp [dequeue]

theorem perm_cons_dequeue {o : Order} {q : List Order} (ids : (q.map (·.orderId)).Nodup)
    (h : o ∈ q) : q.Perm (o :: dequeue o.orderId q) := by
  induction q with
  | nil => cases h
  | cons x q ih =>
    rw [List.map_cons, List.nodup_cons] at ids
    rcases List.mem_cons.mp h with rfl | h
    · have same : dequeue o.orderId q = q := by
        refine List.filter_eq_self.mpr (fun y hy => ?_)
        have hne : y.orderId ≠ o.orderId := fun he => ids.1 (he ▸ List.mem_map_of_mem hy)
        simpa using hne
      have drop : dequeue o.orderId (o :: q) = dequeue o.orderId q := by simp [dequeue]
      rw [drop, same]
    · have hne : x.orderId ≠ o.orderId := fun he => ids.1 (he ▸ List.mem_map_of_mem h)
      have keep : dequeue o.orderId (x :: q) = x :: dequeue o.orderId q := by simp [dequeue, hne]
      rw [keep]
      exact ((ih ids.2 h).cons x).trans (List.Perm.swap _ _ _)

theorem sum_dequeue {o : Order} {q : List Order} (ids : (q.map (·.orderId)).Nodup) (h : o ∈ q) :
    ((dequeue o.orderId q).map (·.quantity)).sum = (q.map (·.quantity)).sum - o.quantity := by
  have hs := ((perm_cons_dequeue ids h).map (·.quantity)).sum_eq
  rw [List.map_cons, List.sum_cons] at hs
  omega

def shrinkOrder (id : Nat) (quantity : Int) (o : Order) : Order :=
  if o.orderId = id then { o with quantity := o.quantity - quantity } else o

@[simp] theorem shrinkOrder_orderId (id : Nat) (n : Int) (o : Order) :
    (shrinkOrder id n o).orderId = o.orderId := by unfold shrinkOrder; split <;> rfl

@[simp] theorem shrinkOrder_side (id : Nat) (n : Int) (o : Order) :
    (shrinkOrder id n o).side = o.side := by unfold shrinkOrder; split <;> rfl

@[simp] theorem shrinkOrder_priceTicks (id : Nat) (n : Int) (o : Order) :
    (shrinkOrder id n o).priceTicks = o.priceTicks := by unfold shrinkOrder; split <;> rfl

@[simp] theorem shrinkOrder_symbolId (id : Nat) (n : Int) (o : Order) :
    (shrinkOrder id n o).symbolId = o.symbolId := by unfold shrinkOrder; split <;> rfl

@[simp] theorem shrinkOrder_locator (id : Nat) (n : Int) (o : Order) :
    (shrinkOrder id n o).locator = o.locator := by unfold shrinkOrder; split <;> rfl

theorem shrinkOrder_of_ne {id : Nat} {n : Int} {o : Order} (h : o.orderId ≠ id) :
    shrinkOrder id n o = o := if_neg h

theorem shrink_eq_map (id : Nat) (n : Int) (q : List Order) :
    shrink id n q = q.map (shrinkOrder id n) := rfl

theorem sum_shrink {o : Order} {n : Int} {q : List Order} (ids : (q.map (·.orderId)).Nodup)
    (h : o ∈ q) :
    ((shrink o.orderId n q).map (·.quantity)).sum = (q.map (·.quantity)).sum - n := by
  have hp := perm_cons_dequeue ids h
  have rest : shrink o.orderId n (dequeue o.orderId q) = dequeue o.orderId q := by
    refine (List.map_congr_left ?_).trans (List.map_id _)
    intro x hx
    exact shrinkOrder_of_ne (mem_dequeue.mp hx).2
  have hs := (hp.map (·.quantity)).sum_eq
  have ht := ((hp.map (shrinkOrder o.orderId n)).map (·.quantity)).sum_eq
  rw [List.map_cons, ← shrink_eq_map, ← shrink_eq_map, rest] at ht
  have ho : (shrinkOrder o.orderId n o).quantity = o.quantity - n := by simp [shrinkOrder]
  simp only [List.map_cons, List.sum_cons, ho] at hs ht
  omega

theorem shrinkOrder_valid {id : Nat} {n : Int} {o : Order}
    (valid : isValidRestingOrder o = true) (less : o.orderId = id → n < o.quantity) :
    isValidRestingOrder (shrinkOrder id n o) = true := by
  unfold shrinkOrder
  split
  · rename_i h
    have hn := less h
    simp only [isValidRestingOrder, Bool.and_eq_true, decide_eq_true_eq] at valid ⊢
    exact ⟨valid.1, Int.sub_pos_of_lt hn⟩
  · exact valid

end Queues

namespace OrderBook

section Writes
variable (b : OrderBook)

theorem mutableLevel_spec {side : Side} (p : Int) (valid : isValidSide side = true) :
    ∃ b', b.mutableLevel side p = some b' ∧ b'.symbolId = b.symbolId ∧
      b'.orderIndex = b.orderIndex ∧
      ∀ s, b'.levels s =
        if s = side then emplaceEntries (before s) p {} (b.levels s) else b.levels s := by
  cases side
  · cases valid
  · refine ⟨_, rfl, rfl, rfl, ?_⟩
    intro s; cases s <;> rfl
  · refine ⟨_, rfl, rfl, rfl, ?_⟩
    intro s; cases s <;> rfl

theorem updateLevel_spec (side : Side) (p : Int) (write : PriceLevel → PriceLevel) :
    (b.updateLevel side p write).symbolId = b.symbolId ∧
      (b.updateLevel side p write).orderIndex = b.orderIndex ∧
      ∀ s, (b.updateLevel side p write).levels s =
        if s = side then modifyEntries p write (b.levels s) else b.levels s := by
  cases side
  · refine ⟨rfl, rfl, ?_⟩
    intro s; cases s <;> rfl
  · refine ⟨rfl, rfl, ?_⟩
    intro s; cases s <;> rfl
  · refine ⟨rfl, rfl, ?_⟩
    intro s; cases s <;> rfl

def keepLevel (p : Int) (e : Int × PriceLevel) : Bool :=
  decide (e.1 ≠ p ∨ e.2.orders ≠ [])

theorem eraseLevelIfEmpty_spec (side : Side) (p : Int) :
    (b.eraseLevelIfEmpty side p).symbolId = b.symbolId ∧
      (b.eraseLevelIfEmpty side p).orderIndex = b.orderIndex ∧
      ∀ s, (b.eraseLevelIfEmpty side p).levels s =
        if s = side then (b.levels s).filter (keepLevel p) else b.levels s := by
  have keep_all : ∀ s : Side, (∀ l, (p, l) ∈ b.levels s → l.orders ≠ []) →
      (b.levels s).filter (keepLevel p) = b.levels s := by
    intro s h
    rw [List.filter_eq_self]
    intro e he
    by_cases hp : e.1 = p
    · simp [keepLevel, h e.2 (hp ▸ he)]
    · simp [keepLevel, hp]
  unfold eraseLevelIfEmpty
  cases hl : b.level side p with
  | none =>
    refine ⟨rfl, rfl, ?_⟩
    intro s
    by_cases hs : s = side
    · subst hs
      rw [if_pos rfl]
      refine (keep_all _ ?_).symm
      intro l hm
      rw [level_eq_some.mpr hm] at hl
      cases hl
    · rw [if_neg hs]
  | some l =>
    have hm := level_eq_some.mp hl
    have only : ∀ l', (p, l') ∈ b.levels side → l' = l := by
      intro l' h'
      exact Option.some.inj ((level_eq_some.mpr h').symm.trans hl)
    by_cases he : l.orders = []
    · have drop : ∀ es : List (Int × PriceLevel), (∀ l', (p, l') ∈ es → l' = l) →
          es.filter (fun e => e.1 ≠ p) = es.filter (keepLevel p) := by
        intro es hes
        apply List.filter_congr
        intro e hmem
        by_cases hp : e.1 = p
        · have := hes e.2 (hp ▸ hmem)
          simp [keepLevel, hp, this, he]
        · simp [keepLevel, hp]
      simp only [he, List.isEmpty_nil, if_true]
      cases side
      · simp at hm
      · refine ⟨rfl, rfl, ?_⟩
        intro s; cases s
        · rfl
        · exact drop _ only
        · rfl
      · refine ⟨rfl, rfl, ?_⟩
        intro s; cases s
        · rfl
        · rfl
        · exact drop _ only
    · have hne : l.orders.isEmpty = false := by simpa using he
      simp only [hne, Bool.false_eq_true, if_false]
      refine ⟨trivial, trivial, ?_⟩
      intro s
      by_cases hs : s = side
      · subst hs
        rw [if_pos rfl]
        refine (keep_all _ ?_).symm
        intro l' h'
        exact only l' h' ▸ he
      · rw [if_neg hs]

end Writes

theorem resting_perm_enqueue {b b' : OrderBook} {o : Order} (valid : isValidSide o.side = true)
    (h : ∀ s, b'.queue s = if s = o.side then enqueue o (b.queue s) else b.queue s) :
    b'.resting.Perm (o :: b.resting) := by
  unfold resting
  rw [h .buy, h .sell]
  cases hs : o.side with
  | none => simp [hs] at valid
  | buy =>
    simp only [if_true, reduceCtorEq, if_false]
    exact (perm_enqueue o _).append_right _
  | sell =>
    simp only [if_true, reduceCtorEq, if_false]
    exact ((perm_enqueue o _).append_left _).trans List.perm_middle

section Add
variable {b : OrderBook} {o : Order}

theorem addOrder_refused
    (h : isValidRestingOrder o = false ∨ o.symbolId ≠ b.symbolId ∨ b.findOrder o.orderId ≠ none) :
    b.addOrder o = (b, false) := by
  unfold addOrder
  rcases h with h | h | h
  · simp [h]
  · simp [h]
  · split
    · rfl
    · have hs : (b.orderIndex.lookup o.orderId).isSome = true := by
        rw [findOrder, Ne, Option.map_eq_none_iff] at h
        exact Option.isSome_iff_ne_none.mpr h
      rw [if_pos hs]

theorem LevelWF.join {symbolId : Nat} {l : PriceLevel}
    (old : l = {} ∨ LevelWF symbolId o.side (o.priceTicks, l))
    (valid : isValidRestingOrder o = true) (symbol : o.symbolId = symbolId) :
    LevelWF symbolId o.side (o.priceTicks,
      { priceTicks := o.priceTicks
        totalQuantity := l.totalQuantity + o.quantity
        orders := l.orders ++ [o] }) := by
  have htotal : l.totalQuantity = (l.orders.map (·.quantity)).sum := by
    rcases old with rfl | h
    · rfl
    · exact h.total
  have hmem : ∀ x ∈ l.orders ++ [o], isValidRestingOrder x = true ∧
      x.symbolId = symbolId ∧ x.side = o.side ∧ x.priceTicks = o.priceTicks := by
    intro x hx
    rcases List.mem_append.mp hx with hx | hx
    · rcases old with rfl | h
      · cases hx
      · exact ⟨h.valid x hx, h.symbol x hx, h.filed x hx⟩
    · rw [List.mem_singleton.mp hx]
      exact ⟨valid, symbol, rfl, rfl⟩
  exact
    { key := rfl
      nonempty := by simp
      total := by simp [htotal]
      valid := fun x hx => (hmem x hx).1
      symbol := fun x hx => (hmem x hx).2.1
      filed := fun x hx => (hmem x hx).2.2 }

theorem WF.index_insert (wf : b.WF) (fresh : b.findOrder o.orderId = none) {resting : List Order}
    (perm : resting.Perm (o :: b.resting)) (id : Nat) (locator : Locator) :
    (b.orderIndex.insert o.orderId o.locator).lookup id = some locator ↔
      ∃ x ∈ resting, x.orderId = id ∧ locator = x.locator := by
  by_cases h : id = o.orderId
  · subst h
    rw [AList.lookup_insert]
    constructor
    · intro hl
      exact ⟨o, perm.mem_iff.mpr List.mem_cons_self, rfl, (Option.some.inj hl).symm⟩
    · rintro ⟨x, hx, hid, rfl⟩
      rcases List.mem_cons.mp (perm.mem_iff.mp hx) with rfl | hx
      · rfl
      · exact absurd hid ((findOrder_eq_none wf).mp fresh x hx)
  · rw [AList.lookup_insert_ne h, wf.index]
    constructor
    · rintro ⟨x, hx, hid⟩
      exact ⟨x, perm.mem_iff.mpr (List.mem_cons_of_mem _ hx), hid⟩
    · rintro ⟨x, hx, hid, hloc⟩
      rcases List.mem_cons.mp (perm.mem_iff.mp hx) with rfl | hx
      · exact absurd hid.symm h
      · exact ⟨x, hx, hid, hloc⟩

theorem addOrder_accepted (wf : b.WF) (valid : isValidRestingOrder o = true)
    (symbol : o.symbolId = b.symbolId) (fresh : b.findOrder o.orderId = none) :
    ∃ b', b.addOrder o = (b', true) ∧ b'.WF ∧ b'.symbolId = b.symbolId ∧
      ∀ s, b'.queue s = if s = o.side then enqueue o (b.queue s) else b.queue s := by
  have hside : isValidSide o.side = true := by
    simp only [isValidRestingOrder, Bool.and_eq_true] at valid
    exact valid.1.1.2
  have hidx : b.orderIndex.lookup o.orderId = none := by
    rwa [findOrder, Option.map_eq_none_iff] at fresh
  obtain ⟨b₁, hb₁, hsym₁, hidx₁, hlev₁⟩ := b.mutableLevel_spec o.priceTicks hside
  let write : PriceLevel → PriceLevel := fun l =>
    { priceTicks := o.priceTicks, totalQuantity := l.totalQuantity + o.quantity
      orders := l.orders ++ [o] }
  obtain ⟨hsym₂, hidx₂, hlev₂⟩ := b₁.updateLevel_spec o.side o.priceTicks write
  let b₂ := b₁.updateLevel o.side o.priceTicks write
  let b' : OrderBook := { b₂ with orderIndex := b₂.orderIndex.insert o.orderId o.locator }
  have hlev : ∀ s, b'.levels s = if s = o.side then
      modifyEntries o.priceTicks write (emplaceEntries (before s) o.priceTicks {} (b.levels s))
      else b.levels s := by
    intro s
    refine (hlev₂ s).trans ?_
    rw [hlev₁ s]
    split <;> rfl
  have hsym : b'.symbolId = b.symbolId := hsym₂.trans hsym₁
  have hq : ∀ s, b'.queue s = if s = o.side then enqueue o (b.queue s) else b.queue s := by
    intro s
    unfold queue
    rw [hlev s]
    split
    · subst_vars
      exact flat_push (b.levels_sorted o.side) (filed wf o.side) rfl (fun _ => rfl) rfl
    · rfl
  have perm := resting_perm_enqueue hside hq
  refine ⟨b', ?_, ⟨?_, ?_, ?_⟩, hsym, hq⟩
  · unfold addOrder
    rw [if_neg (by simp [valid, symbol]), hidx, hb₁]
    rfl
  · intro s e he
    rw [hsym]
    rw [hlev s] at he
    split at he
    · subst_vars
      rcases mem_modifyEntries.mp he with ⟨he, hp⟩ | ⟨l, hl, rfl⟩
      · rcases mem_of_mem_emplaceEntries he with he | rfl
        · exact wf.levels _ e he
        · exact absurd rfl hp
      · refine LevelWF.join ?_ valid symbol
        rcases mem_of_mem_emplaceEntries hl with hl | hl
        · exact Or.inr (wf.levels _ _ hl)
        · exact Or.inl (congrArg Prod.snd hl)
    · exact wf.levels s e he
  · rw [(perm.map _).nodup_iff]
    refine List.nodup_cons.mpr ⟨?_, wf.ids⟩
    intro hm
    obtain ⟨x, hx, hid⟩ := List.mem_map.mp hm
    exact (findOrder_eq_none wf).mp fresh x hx hid
  · intro id locator
    have hi : b'.orderIndex = b.orderIndex.insert o.orderId o.locator := by
      simp only [b', b₂, hidx₂, hidx₁]
    rw [hi]
    exact wf.index_insert fresh perm id locator

end Add

theorem mutableLevel_existing {b : OrderBook} {side : Side} {p : Int} {l : PriceLevel}
    (h : b.level side p = some l) : b.mutableLevel side p = some b := by
  have hm := level_eq_some.mp h
  cases side
  · simp at hm
  · have he : b.bids.tryEmplace p {} = b.bids :=
      SortedMap.ext (emplaceEntries_present b.bids.sorted hm)
    simp [mutableLevel, he]
  · have he : b.asks.tryEmplace p {} = b.asks :=
      SortedMap.ext (emplaceEntries_present b.asks.sorted hm)
    simp [mutableLevel, he]

theorem level_ids_nodup {b : OrderBook} (wf : b.WF) {side : Side} {e : Int × PriceLevel}
    (h : e ∈ b.levels side) : (e.2.orders.map (·.orderId)).Nodup := by
  have hsub : e.2.orders.Sublist (b.queue side) :=
    List.sublist_flatten_of_mem (List.mem_map_of_mem h)
  have hres : (b.queue side).Sublist b.resting := by
    cases side
    · exact List.nil_sublist _
    · exact List.sublist_append_left _ _
    · exact List.sublist_append_right _ _
  exact wf.ids.sublist ((hsub.trans hres).map _)

theorem cancelOrder_unknown {b : OrderBook} {id : Nat} (h : b.findOrder id = none) :
    b.cancelOrder id = (b, false) := by
  rw [findOrder, Option.map_eq_none_iff] at h
  simp [cancelOrder, h]

section Remove
variable {b : OrderBook} (wf : b.WF)
include wf

theorem ne_of_other_side {o x : Order} {s : Side} (ho : o ∈ b.resting) (hs : s ≠ o.side)
    (hx : x ∈ b.queue s) : x.orderId ≠ o.orderId := by
  intro hid
  have he := resting_unique wf (mem_resting_of_queue wf hx) ho hid
  exact hs (he ▸ (mem_queue wf hx).1.symm)

theorem dequeue_other_side {o : Order} {s : Side} (ho : o ∈ b.resting) (hs : s ≠ o.side) :
    dequeue o.orderId (b.queue s) = b.queue s :=
  List.filter_eq_self.mpr (fun x hx => by simpa using ne_of_other_side wf ho hs hx)

theorem shrink_other_side {o : Order} {s : Side} (n : Int) (ho : o ∈ b.resting)
    (hs : s ≠ o.side) : shrink o.orderId n (b.queue s) = b.queue s :=
  (List.map_congr_left (fun _ hx => shrinkOrder_of_ne (ne_of_other_side wf ho hs hx))).trans
    (List.map_id _)

theorem cancelOrder_resting {o : Order} (ho : o ∈ b.resting) :
    ∃ b', b.cancelOrder o.orderId = (b', true) ∧ b'.WF ∧ b'.symbolId = b.symbolId ∧
      ∀ s, b'.queue s = dequeue o.orderId (b.queue s) := by
  obtain ⟨l, hl, hol⟩ := level_of_mem wf ho
  have hmem := level_eq_some.mp hl
  let write : PriceLevel → PriceLevel := fun l =>
    { l with
      totalQuantity := l.totalQuantity - o.quantity
      orders := l.orders.filter (fun x => x.orderId ≠ o.orderId) }
  obtain ⟨hsym₁, hidx₁, hlev₁⟩ := b.updateLevel_spec o.side o.priceTicks write
  let b₁ := b.updateLevel o.side o.priceTicks write
  let b₂ : OrderBook := { b₁ with orderIndex := b₁.orderIndex.erase o.orderId }
  obtain ⟨hsym₂, hidx₂, hlev₂⟩ := b₂.eraseLevelIfEmpty_spec o.side o.priceTicks
  let b' := b₂.eraseLevelIfEmpty o.side o.priceTicks
  have hlev : ∀ s, b'.levels s = if s = o.side then
      (modifyEntries o.priceTicks write (b.levels s)).filter (keepLevel o.priceTicks)
      else b.levels s := by
    intro s
    have h₂ : b₂.levels s = b₁.levels s := by cases s <;> rfl
    refine (hlev₂ s).trans ?_
    rw [h₂, hlev₁ s]
    split <;> rfl
  have hsym : b'.symbolId = b.symbolId := hsym₂.trans hsym₁
  have hq : ∀ s, b'.queue s = dequeue o.orderId (b.queue s) := by
    intro s
    unfold queue
    rw [hlev s]
    by_cases hs : s = o.side
    · subst hs
      rw [if_pos rfl, flat_erase]
      · refine flat_filter (filed wf o.side) (fun _ _ => rfl) ?_
        intro x hx hp
        have hne : x.orderId ≠ o.orderId := fun hid =>
          hp (resting_unique wf (mem_resting_of_queue wf hx) ho hid ▸ rfl)
        simpa using hne
      · intro e _ hk
        simp only [keepLevel, decide_eq_false_iff_not, not_or, not_not] at hk
        exact hk.2
    · rw [if_neg hs]
      exact (dequeue_other_side wf ho hs).symm
  have hrest : b'.resting = dequeue o.orderId b.resting := by
    simp only [resting, hq, dequeue, List.filter_append]
  refine ⟨b', ?_, ?_, hsym, hq⟩
  · have hm : b.mutableLevel o.locator.side o.locator.priceTicks = some b :=
      mutableLevel_existing hl
    simp only [cancelOrder, lookup_of_mem wf ho, hm, deref_locator wf ho]
    rfl
  · constructor
    · intro s e he
      rw [hsym]
      rw [hlev s] at he
      by_cases hs : s = o.side
      · subst hs
        rw [if_pos rfl] at he
        obtain ⟨he, hk⟩ := List.mem_filter.mp he
        rcases mem_modifyEntries.mp he with ⟨he, _⟩ | ⟨l', hl', rfl⟩
        · exact wf.levels _ e he
        · have hw := wf.levels _ _ hl'
          have hsame : l' = l := Option.some.inj ((level_eq_some.mpr hl').symm.trans hl)
          subst hsame
          have hin : ∀ x ∈ (write l').orders, x ∈ l'.orders := fun x hx =>
            (List.mem_filter.mp hx).1
          exact
            { key := hw.key
              nonempty := by simpa [keepLevel] using hk
              total := by
                have ht := sum_dequeue (level_ids_nodup wf hl') hol
                have hl' : l'.totalQuantity = (l'.orders.map (·.quantity)).sum := hw.total
                simp only [write, hl']
                exact ht.symm
              valid := fun x hx => hw.valid x (hin x hx)
              symbol := fun x hx => hw.symbol x (hin x hx)
              filed := fun x hx => hw.filed x (hin x hx) }
      · rw [if_neg hs] at he
        exact wf.levels s e he
    · rw [hrest]
      exact wf.ids.sublist (List.filter_sublist.map _)
    · intro id locator
      have hi : b'.orderIndex = b.orderIndex.erase o.orderId := by
        refine hidx₂.trans ?_
        simp only [b₂, b₁, hidx₁]
      rw [hi, hrest]
      by_cases h : id = o.orderId
      · subst h
        rw [AList.lookup_erase]
        constructor
        · intro hn; cases hn
        · rintro ⟨x, hx, hid, _⟩
          exact absurd hid (mem_dequeue.mp hx).2
      · rw [AList.lookup_erase_ne h, wf.index]
        constructor
        · rintro ⟨x, hx, hid, hloc⟩
          exact ⟨x, mem_dequeue.mpr ⟨hx, hid ▸ h⟩, hid, hloc⟩
        · rintro ⟨x, hx, hid, hloc⟩
          exact ⟨x, (mem_dequeue.mp hx).1, hid, hloc⟩

theorem reduceOrder_full {o : Order} {n : Int} (ho : o ∈ b.resting) (all : o.quantity ≤ n) :
    b.reduceOrder o.orderId n = b.cancelOrder o.orderId := by
  obtain ⟨l, hl, _⟩ := level_of_mem wf ho
  have pos := quantity_pos wf ho
  have hm : b.mutableLevel o.locator.side o.locator.priceTicks = some b :=
    mutableLevel_existing hl
  have hn : ¬ n ≤ 0 := by omega
  simp only [reduceOrder, if_neg hn, lookup_of_mem wf ho, hm, deref_locator wf ho]
  exact if_pos all

theorem reduceOrder_partial {o : Order} {n : Int} (ho : o ∈ b.resting) (pos : 0 < n)
    (less : n < o.quantity) :
    ∃ b', b.reduceOrder o.orderId n = (b', true) ∧ b'.WF ∧ b'.symbolId = b.symbolId ∧
      ∀ s, b'.queue s = shrink o.orderId n (b.queue s) := by
  obtain ⟨l, hl, hol⟩ := level_of_mem wf ho
  let write : PriceLevel → PriceLevel := fun l =>
    { l with
      totalQuantity := l.totalQuantity - n
      orders := l.orders.map (shrinkOrder o.orderId n) }
  obtain ⟨hsym, hidx, hlev⟩ := b.updateLevel_spec o.side o.priceTicks write
  let b' := b.updateLevel o.side o.priceTicks write
  have hq : ∀ s, b'.queue s = shrink o.orderId n (b.queue s) := by
    intro s
    unfold queue
    rw [hlev s]
    by_cases hs : s = o.side
    · subst hs
      rw [if_pos rfl, shrink_eq_map]
      have same : flat PriceLevel.orders (modifyEntries o.priceTicks write (b.levels o.side)) =
          (b.queue o.side).map (shrinkOrder o.orderId n) := by
        refine flat_map_mem (filed wf o.side) (fun _ _ => rfl) ?_
        intro x hx hp
        refine shrinkOrder_of_ne (fun hid => ?_)
        exact hp (resting_unique wf (mem_resting_of_queue wf hx) ho hid ▸ rfl)
      exact same
    · rw [if_neg hs]
      exact (shrink_other_side wf n ho hs).symm
  have hrest : b'.resting = b.resting.map (shrinkOrder o.orderId n) := by
    simp only [resting, hq, shrink_eq_map, List.map_append]
  have hless : ∀ x ∈ b.resting, x.orderId = o.orderId → n < x.quantity := fun x hx hid =>
    resting_unique wf hx ho hid ▸ less
  refine ⟨b', ?_, ?_, hsym, hq⟩
  · have hm : b.mutableLevel o.locator.side o.locator.priceTicks = some b :=
      mutableLevel_existing hl
    have hn : ¬ n ≤ 0 := by omega
    have hless : ¬ n ≥ o.quantity := by omega
    simp only [reduceOrder, if_neg hn, lookup_of_mem wf ho, hm, deref_locator wf ho, if_neg hless]
    rfl
  · constructor
    · intro s e he
      rw [hsym]
      rw [hlev s] at he
      by_cases hs : s = o.side
      · subst hs
        rw [if_pos rfl] at he
        rcases mem_modifyEntries.mp he with ⟨he, _⟩ | ⟨l', hl', rfl⟩
        · exact wf.levels _ e he
        · have hw := wf.levels _ _ hl'
          have hsame : l' = l := Option.some.inj ((level_eq_some.mpr hl').symm.trans hl)
          subst hsame
          have hin : ∀ x ∈ (write l').orders, ∃ y ∈ l'.orders, x = shrinkOrder o.orderId n y :=
            fun x hx => (List.mem_map.mp hx).imp fun y hy => ⟨hy.1, hy.2.symm⟩
          exact
            { key := hw.key
              nonempty := by simpa [write] using hw.nonempty
              total := by
                have ht := sum_shrink (n := n) (level_ids_nodup wf hl') hol
                have hl' : l'.totalQuantity = (l'.orders.map (·.quantity)).sum := hw.total
                simp only [write, hl']
                exact ht.symm
              valid := by
                intro x hx
                obtain ⟨y, hy, rfl⟩ := hin x hx
                exact shrinkOrder_valid (hw.valid y hy) (hless y (mem_of_level wf hl hy))
              symbol := by
                intro x hx
                obtain ⟨y, hy, rfl⟩ := hin x hx
                rw [shrinkOrder_symbolId]
                exact hw.symbol y hy
              filed := by
                intro x hx
                obtain ⟨y, hy, rfl⟩ := hin x hx
                rw [shrinkOrder_side, shrinkOrder_priceTicks]
                exact hw.filed y hy }
      · rw [if_neg hs] at he
        exact wf.levels s e he
    · have hids : b'.resting.map (·.orderId) = b.resting.map (·.orderId) := by
        rw [hrest, List.map_map]
        exact List.map_congr_left (fun x _ => shrinkOrder_orderId _ _ x)
      rw [hids]
      exact wf.ids
    · intro id locator
      rw [hidx, hrest, wf.index]
      constructor
      · rintro ⟨x, hx, hid, hloc⟩
        exact ⟨shrinkOrder o.orderId n x, List.mem_map_of_mem hx, by simpa using hid,
          by simpa using hloc⟩
      · rintro ⟨x, hx, hid, hloc⟩
        obtain ⟨y, hy, rfl⟩ := List.mem_map.mp hx
        exact ⟨y, hy, by simpa using hid, by simpa using hloc⟩

omit wf in
theorem reduceOrder_nonpositive {id : Nat} {n : Int} (h : n ≤ 0) :
    b.reduceOrder id n = (b, false) := by
  simp [reduceOrder, h]

omit wf in
theorem reduceOrder_unknown {id : Nat} {n : Int} (h : b.findOrder id = none) :
    b.reduceOrder id n = (b, false) := by
  rw [findOrder, Option.map_eq_none_iff] at h
  unfold reduceOrder
  rw [h]
  split <;> rfl

omit wf in
theorem replaceOrder_refused {id : Nat} {p q ts : Int} {n : Nat}
    (h : p ≤ 0 ∨ q ≤ 0 ∨ b.findOrder id = none) : b.replaceOrder id p q ts n = (b, false) := by
  unfold replaceOrder
  split
  · rfl
  · rename_i hpq
    rcases h with h | h | h
    · exact absurd (Or.inl h) hpq
    · exact absurd (Or.inr h) hpq
    · rw [h]

theorem replaceOrder_resting {o : Order} {p q ts : Int} {n : Nat} (ho : o ∈ b.resting)
    (hp : 0 < p) (hq : 0 < q) :
    ∃ b', b.replaceOrder o.orderId p q ts n = (b', true) ∧ b'.WF ∧ b'.symbolId = b.symbolId ∧
      ∀ s, b'.queue s = if s = o.side then
        enqueue { o with priceTicks := p, quantity := q, timestampNs := ts, sequenceNumber := n }
          (dequeue o.orderId (b.queue s)) else b.queue s := by
  let replacement : Order :=
    { o with priceTicks := p, quantity := q, timestampNs := ts, sequenceNumber := n }
  obtain ⟨b₁, hb₁, wf₁, hsym₁, hq₁⟩ := cancelOrder_resting wf ho
  have hm := mem_queue wf ((mem_resting wf).mp ho)
  have hvalid : isValidRestingOrder replacement = true := by
    have hv := hm.2.1
    simp only [isValidRestingOrder, Bool.and_eq_true, decide_eq_true_eq] at hv ⊢
    exact ⟨⟨hv.1.1, hp⟩, hq⟩
  have hfresh : b₁.findOrder replacement.orderId = none := by
    rw [findOrder_eq_none wf₁]
    intro x hx
    have hx' := (mem_resting wf₁).mp hx
    rw [hq₁] at hx'
    exact (mem_dequeue.mp hx').2
  obtain ⟨b₂, hb₂, wf₂, hsym₂, hq₂⟩ :=
    addOrder_accepted wf₁ hvalid (hm.2.2.trans hsym₁.symm) hfresh
  refine ⟨b₂, ?_, wf₂, hsym₂.trans hsym₁, ?_⟩
  · unfold replaceOrder
    rw [if_neg (by omega), (findOrder_eq_some wf).mpr ⟨ho, rfl⟩]
    simp only [hb₁]
    exact hb₂
  · intro s
    rw [hq₂ s]
    split
    · rw [hq₁ s]
    · rename_i hs
      rw [hq₁ s]
      exact dequeue_other_side wf ho hs

end Remove

theorem clear_wf (b : OrderBook) : b.clear.WF ∧ ∀ s, b.clear.queue s = [] := by
  have hq : ∀ s, b.clear.queue s = [] := by intro s; cases s <;> rfl
  refine ⟨⟨?_, ?_, ?_⟩, hq⟩
  · intro side e he
    cases side <;> cases he
  · simp [resting, hq]
  · intro id locator
    have hr : b.clear.resting = [] := by simp [resting, hq]
    rw [hr]
    simp [clear]

end OrderBook
end Asterion
