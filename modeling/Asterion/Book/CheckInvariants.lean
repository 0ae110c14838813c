import Asterion.Book.Operations

/-! The invariant walk of the default book finds nothing to report in any state that
satisfies the representation invariant. -/
namespace Asterion

open Lib Lib.SortedMap Lib.Buckets

theorem violationIf_neg {bad : Prop} [Decidable bad] (h : ¬ bad) (message : String)
    (report : BookInvariantReport) : violationIf bad message report = report := if_neg h

namespace OrderBook

theorem mem_orderIndex {b : OrderBook} (wf : b.WF) {id : Nat} {locator : Locator} :
    (⟨id, locator⟩ : Sigma (fun _ : Nat => Locator)) ∈ b.orderIndex.entries ↔
      ∃ o ∈ b.resting, o.orderId = id ∧ locator = o.locator := by
  rw [← wf.index, ← AList.mem_lookup_iff]
  rfl

theorem orderCount_eq {b : OrderBook} (wf : b.WF) : b.orderCount = b.resting.length := by
  have hperm : b.orderIndex.keys.Perm (b.resting.map (·.orderId)) := by
    rw [List.perm_ext_iff_of_nodup b.orderIndex.keys_nodup wf.ids]
    intro id
    rw [← AList.mem_keys, ← AList.lookup_isSome, Option.isSome_iff_exists, List.mem_map]
    constructor
    · rintro ⟨locator, hl⟩
      obtain ⟨o, ho, hid, _⟩ := (wf.index id locator).mp hl
      exact ⟨o, ho, hid⟩
    · rintro ⟨o, ho, rfl⟩
      exact ⟨o.locator, lookup_of_mem wf ho⟩
  have hl := hperm.length_eq
  rw [List.length_map] at hl
  rw [← hl]
  exact (List.length_map ..).symm

theorem bids_find?_ne_none {b : OrderBook} (wf : b.WF) {o : Order} (ho : o ∈ b.resting) :
    b.level o.side o.priceTicks ≠ none := by
  obtain ⟨l, hl, _⟩ := level_of_mem wf ho
  rw [hl]
  exact Option.some_ne_none l

section Walk
variable {b : OrderBook} (wf : b.WF)
include wf

theorem checkOrder_clean {side : Side} {price : Int} {o : Order} (ho : o ∈ b.resting)
    (place : o.side = side ∧ o.priceTicks = price) (s : CheckState) (fresh : o.orderId ∉ s.seen) :
    b.checkOrder side price s o =
      { s with seen := insert o.orderId s.seen, childSum := s.childSum + o.quantity } := by
  have pos := quantity_pos wf ho
  have hd := congrArg Order.orderId (deref_locator wf ho)
  have hloc : ¬ (o.locator.side ≠ side ∨ o.locator.priceTicks ≠ price ∨
      (b.deref o.locator).orderId ≠ o.orderId) := by
    rintro (h | h | h)
    · exact h place.1
    · exact h place.2
    · exact h hd
  have hpos : ¬ o.quantity ≤ 0 := by omega
  have hplace : ¬ (o.side ≠ side ∨ o.priceTicks ≠ price) := by tauto
  simp only [checkOrder, lookup_of_mem wf ho, violationIf_neg hpos, violationIf_neg fresh,
    violationIf_neg hplace, violationIf_neg hloc]

theorem checkOrders_clean (side : Side) (price : Int) (os : List Order) (s : CheckState)
    (ho : ∀ o ∈ os, o ∈ b.resting ∧ o.side = side ∧ o.priceTicks = price)
    (ids : (os.map (·.orderId)).Nodup) (fresh : ∀ o ∈ os, o.orderId ∉ s.seen) :
    os.foldl (b.checkOrder side price) s =
      { s with
        seen := s.seen ∪ (os.map (·.orderId)).toFinset
        childSum := s.childSum + (os.map (·.quantity)).sum } := by
  induction os generalizing s with
  | nil => simp
  | cons o os ih =>
    obtain ⟨hmem, place⟩ := ho o List.mem_cons_self
    rw [List.map_cons, List.nodup_cons] at ids
    rw [List.foldl_cons, checkOrder_clean wf hmem place s (fresh o List.mem_cons_self)]
    rw [ih _ (fun x hx => ho x (List.mem_cons_of_mem _ hx)) ids.2]
    · simp only [List.map_cons, List.sum_cons, List.toFinset_cons, Finset.insert_union,
        Finset.union_insert, add_assoc]
    · intro x hx hin
      rcases Finset.mem_insert.mp hin with he | hin
      · exact ids.1 (he ▸ List.mem_map_of_mem hx)
      · exact fresh x (List.mem_cons_of_mem _ hx) hin

theorem checkLevels_clean (side : Side) (es : List (Int × PriceLevel)) (s : CheckState)
    (he : ∀ e ∈ es, e ∈ b.levels side)
    (ids : ((flat PriceLevel.orders es).map (·.orderId)).Nodup)
    (fresh : ∀ o ∈ flat PriceLevel.orders es, o.orderId ∉ s.seen) :
    (es.foldl (b.checkLevel side) s).report = s.report ∧
      (es.foldl (b.checkLevel side) s).seen =
        s.seen ∪ ((flat PriceLevel.orders es).map (·.orderId)).toFinset := by
  induction es generalizing s with
  | nil => simp
  | cons e es ih =>
    have hw := wf.levels side e (he e List.mem_cons_self)
    rw [flat_cons, List.map_append, List.nodup_append] at ids
    have hmem : ∀ o ∈ e.2.orders, o ∈ b.resting ∧ o.side = side ∧ o.priceTicks = e.1 :=
      fun o ho => ⟨mem_resting_of_queue wf (mem_flat.mpr ⟨e, he e List.mem_cons_self, ho⟩),
        hw.filed o ho⟩
    have hstep : b.checkLevel side s e =
        { s with
          seen := s.seen ∪ (e.2.orders.map (·.orderId)).toFinset
          childSum := 0 + (e.2.orders.map (·.quantity)).sum } := by
      have hkey : ¬ e.2.priceTicks ≠ e.1 := not_not_intro hw.key
      have htotal : ¬ 0 + (e.2.orders.map (·.quantity)).sum ≠ e.2.totalQuantity := by
        rw [hw.total, zero_add]
        exact not_not_intro rfl
      have hwalk := checkOrders_clean wf side e.1 e.2.orders
        { s with childSum := 0 } hmem ids.1 (fun o ho => fresh o (List.mem_append_left _ ho))
      simp only [checkLevel, violationIf_neg hw.nonempty, violationIf_neg hkey, hwalk,
        violationIf_neg htotal]
    rw [List.foldl_cons, hstep]
    obtain ⟨hr, hs⟩ := ih { s with
        seen := s.seen ∪ (e.2.orders.map (·.orderId)).toFinset
        childSum := 0 + (e.2.orders.map (·.quantity)).sum }
      (fun x hx => he x (List.mem_cons_of_mem _ hx)) ids.2.1 (by
        intro o ho hin
        rcases Finset.mem_union.mp hin with hin | hin
        · exact fresh o (List.mem_append_right _ ho) hin
        · exact ids.2.2 _ (List.mem_toFinset.mp hin) _ (List.mem_map_of_mem ho) rfl)
    refine ⟨hr, hs.trans ?_⟩
    simp only [flat_cons, List.map_append, List.toFinset_append, Finset.union_assoc]

theorem checkIndex_clean (seen : Finset Nat)
    (hseen : ∀ o ∈ b.resting, o.orderId ∈ seen) (report : BookInvariantReport)
    (es : List (Sigma (fun _ : Nat => Locator))) (he : es ⊆ b.orderIndex.entries) :
    es.foldl (b.checkIndexEntry seen) report = report := by
  induction es generalizing report with
  | nil => rfl
  | cons e es ih =>
    obtain ⟨o, ho, hid, hloc⟩ := (mem_orderIndex wf).mp (he List.mem_cons_self)
    have hl := bids_find?_ne_none wf ho
    have hstep : b.checkIndexEntry seen report e = report := by
      have hin : ¬ e.1 ∉ seen := not_not_intro (hid ▸ hseen o ho)
      have hbid : ¬ (e.2.side = .buy ∧ b.bids.find? e.2.priceTicks = none) := by
        rw [hloc]
        rintro ⟨hs, hn⟩
        exact hl (by rw [show o.side = .buy from hs]; exact hn)
      have hask : ¬ (e.2.side = .sell ∧ b.asks.find? e.2.priceTicks = none) := by
        rw [hloc]
        rintro ⟨hs, hn⟩
        exact hl (by rw [show o.side = .sell from hs]; exact hn)
      simp only [checkIndexEntry, violationIf_neg hin, violationIf_neg hbid, violationIf_neg hask]
    rw [List.foldl_cons, hstep]
    exact ih report (fun x hx => he (List.mem_cons_of_mem _ hx))

theorem head_orders_ne_nil (side : Side) :
    ¬ (b.levels side).head?.map (fun e => e.2.orders) = some [] := by
  intro h
  obtain ⟨e, he, hn⟩ := Option.map_eq_some_iff.mp h
  exact (wf.levels side e (List.mem_of_head? he)).nonempty hn

theorem checkInvariants_clean : b.checkInvariants = {} := by
  have ids := wf.ids
  rw [resting, List.map_append, List.nodup_append] at ids
  obtain ⟨hr₁, hs₁⟩ := checkLevels_clean wf .buy b.bids.entries {} (fun _ h => h) ids.1
    (fun _ _ h => by cases h)
  obtain ⟨hr₂, hs₂⟩ := checkLevels_clean wf .sell b.asks.entries
    (b.bids.entries.foldl (b.checkLevel .buy) {}) (fun _ h => h) ids.2.1 (by
      intro o ho hin
      rw [hs₁] at hin
      rcases Finset.mem_union.mp hin with hin | hin
      · cases hin
      · exact ids.2.2 _ (List.mem_toFinset.mp hin) _ (List.mem_map_of_mem ho) rfl)
  rw [hr₁] at hr₂
  have hseen : (b.asks.entries.foldl (b.checkLevel .sell)
      (b.bids.entries.foldl (b.checkLevel .buy) {})).seen =
      (b.resting.map (·.orderId)).toFinset := by
    rw [hs₂, hs₁, resting, List.map_append, List.toFinset_append]
    exact congrArg (· ∪ _) (Finset.empty_union _)
  have hsize : ¬ (b.resting.map (·.orderId)).toFinset.card ≠ b.orderCount := by
    rw [List.toFinset_card_of_nodup wf.ids, List.length_map, orderCount_eq wf]
    exact not_not_intro rfl
  have hindex := fun report => checkIndex_clean wf (b.resting.map (·.orderId)).toFinset
    (fun o ho => List.mem_toFinset.mpr (List.mem_map_of_mem ho)) report _ (fun _ h => h)
  simp only [checkInvariants, hr₂, hseen, violationIf_neg hsize, hindex]
  have hbids : ¬ b.bids.entries.head?.map (fun e => e.2.orders) = some [] :=
    head_orders_ne_nil wf .buy
  have hasks : ¬ b.asks.entries.head?.map (fun e => e.2.orders) = some [] :=
    head_orders_ne_nil wf .sell
  rw [violationIf_neg hasks, violationIf_neg hbids]

end Walk
end OrderBook
end Asterion
