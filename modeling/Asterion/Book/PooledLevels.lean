import Asterion.Book.PooledNodes

/-! The sorted vectors of the pooled book's levels beside the price maps of the default book: a level is
found or created, worked on, and erased at the same place. -/
namespace Asterion.PooledOrderBook

open Lib Lib.SortedMap Lib.LinkedPath List

def place (m : NodeMap) (orderId : Nat) : Nat := (m.lookup orderId).getD 0

def chain (m : NodeMap) (orders : List Order) : List Nat := orders.map (fun o => place m o.orderId)

/-- A level of the pooled book stands for an entry of a price map. -/
structure Keeps (nodes : List OrderNode) (m : NodeMap) (level : LevelNode) (e : Int × PriceLevel) : Prop where
  price : level.priceTicks = e.1
  total : level.totalQuantity = e.2.totalQuantity
  count : level.orderCount = e.2.orders.length
  queued : Queued nodes level (chain m e.2.orders)

section Positions
variable {nodes nodes' : List OrderNode} {m m' : NodeMap} {side : Side} {price : Int}
  {level : LevelNode} {l : PriceLevel} {ls front back : List LevelNode}
  {es front' back' : List (Int × PriceLevel)}

theorem Keeps.new (nodes : List OrderNode) (m : NodeMap) (price : Int) :
    Keeps nodes m { priceTicks := price } (price, {}) :=
  ⟨rfl, rfl, rfl, Linked.nil⟩

theorem Keeps.frame {e : Int × PriceLevel} (keeps : Keeps nodes m level e)
    (same : ∀ o ∈ e.2.orders, place m' o.orderId = place m o.orderId)
    (untouched : ∀ o ∈ e.2.orders, Untouched nodes nodes' (place m o.orderId)) :
    Keeps nodes' m' level e := by
  have chains : chain m' e.2.orders = chain m e.2.orders := map_congr_left same
  refine ⟨keeps.price, keeps.total, keeps.count, ?_⟩
  rw [chains]
  refine keeps.queued.frame fun i hi => ?_
  obtain ⟨o, ho, rfl⟩ := mem_map.mp hi
  exact untouched o ho

theorem keeps_frame (keeps : Forall₂ (Keeps nodes m) ls es)
    (same : ∀ e ∈ es, ∀ o ∈ e.2.orders,
      place m' o.orderId = place m o.orderId ∧ Untouched nodes nodes' (place m o.orderId)) :
    Forall₂ (Keeps nodes' m') ls es := by
  induction keeps with
  | nil => exact .nil
  | cons first rest ih =>
    have here := same _ mem_cons_self
    exact .cons (first.frame (fun o ho => (here o ho).1) (fun o ho => (here o ho).2))
      (ih (fun e he => same e (mem_cons_of_mem _ he)))

def reached (side : Side) (price : Int) (level : LevelNode) : Bool :=
  !decide (before side level.priceTicks price)

theorem mutableBidLevel_eq (ls : List LevelNode) (price : Int) :
    mutableBidLevel ls price = levelFrom (reached .buy price) ls price := by
  have stops : (fun level : LevelNode => decide (level.priceTicks ≤ price)) = reached .buy price := by
    funext level
    rw [reached, Bool.eq_iff_iff]
    simp
  rw [mutableBidLevel, stops]

theorem mutableAskLevel_eq (ls : List LevelNode) (price : Int) :
    mutableAskLevel ls price = levelFrom (reached .sell price) ls price := by
  have stops : (fun level : LevelNode => decide (level.priceTicks ≥ price)) = reached .sell price := by
    funext level
    rw [reached, Bool.eq_iff_iff]
    simp
  rw [mutableAskLevel, stops]

/-- A pair of level lists cut at a price: a level of the pooled book at its position, and the entry. -/
structure Cut (nodes : List OrderNode) (m : NodeMap) (price : Int) (front back : List LevelNode)
    (level : LevelNode) (front' back' : List (Int × PriceLevel)) (l : PriceLevel) : Prop where
  front : Forall₂ (Keeps nodes m) front front'
  here : Keeps nodes m level (price, l)
  back : Forall₂ (Keeps nodes m) back back'
  others : ∀ e ∈ front' ++ back', e.1 ≠ price

theorem Cut.forall₂ (cut : Cut nodes m price front back level front' back' l) :
    Forall₂ (Keeps nodes m) (front ++ level :: back) (front' ++ (price, l) :: back') :=
  rel_append cut.front (.cons cut.here cut.back)

theorem levelFrom_cons {first : LevelNode} (past : reached side price first = false) :
    levelFrom (reached side price) (first :: ls) price =
      (first :: (levelFrom (reached side price) ls price).1,
        (levelFrom (reached side price) ls price).2 + 1) := by
  unfold levelFrom
  simp only [findIdx_cons, past, cond_false, getElem?_cons_succ, insertIdx_succ_cons]
  split <;> rfl

theorem levelFrom_cut (keeps : Forall₂ (Keeps nodes m) ls es)
    (sorted : es.Pairwise (fun a c => before side a.1 c.1)) (price : Int) :
    ∃ front level back front' l back',
      levelFrom (reached side price) ls price = (front ++ level :: back, front.length) ∧
      emplaceEntries (before side) price {} es = front' ++ (price, l) :: back' ∧
      Cut nodes m price front back level front' back' l := by
  induction keeps with
  | nil =>
    refine ⟨[], { priceTicks := price }, [], [], {}, [], rfl, rfl, .nil, .new _ _ _, .nil, ?_⟩
    exact fun e he => absurd he (not_mem_nil)
  | @cons first e ls es keeps rest ih =>
    have later (a : Int × PriceLevel) (ha : a ∈ es) : before side e.1 a.1 := rel_of_pairwise_cons sorted ha
    by_cases ahead : before side e.1 price
    · obtain ⟨front, level, back, front', l, back', found, entry, cut⟩ := ih sorted.of_cons
      have past : reached side price first = false := by simpa [reached, keeps.price] using ahead
      refine ⟨first :: front, level, back, e :: front', l, back', ?_, ?_,
        .cons keeps cut.front, cut.here, cut.back, ?_⟩
      · rw [levelFrom_cons past, found]
        rfl
      · rw [emplaceEntries, if_neg (asymm_of (before side) ahead),
          if_neg (ne_of_irrefl ahead), entry]
        rfl
      · intro a ha
        rcases mem_cons.mp ha with rfl | ha
        · exact ne_of_irrefl ahead
        · exact cut.others a ha
    · have stops : reached side price first = true := by simpa [reached, keeps.price] using ahead
      by_cases same : e.1 = price
      · obtain ⟨p, l⟩ := e
        obtain rfl : p = price := same
        refine ⟨[], first, ls, [], l, es, ?_, ?_, .nil, keeps, rest, ?_⟩
        · have hit : first.priceTicks = p := keeps.price
          simp [levelFrom, findIdx_cons, stops, hit]
        · rw [emplaceEntries, if_neg (irrefl_of (before side) p), if_pos rfl]
          rfl
        · exact fun a ha => (ne_of_irrefl (later a ha)).symm
      · have behind : before side price e.1 := by
          rcases trichotomous_of (before side) e.1 price with h | h | h
          · exact absurd h ahead
          · exact absurd h same
          · exact h
        refine ⟨[], { priceTicks := price }, first :: ls, [], {}, e :: es, ?_, ?_,
          .nil, .new _ _ _, .cons keeps rest, ?_⟩
        · have miss : first.priceTicks ≠ price := keeps.price ▸ same
          simp [levelFrom, findIdx_cons, stops, miss]
        · rw [emplaceEntries, if_pos behind]
          rfl
        · intro a ha
          rcases mem_cons.mp ha with rfl | ha
          · exact same
          · exact (ne_of_irrefl (trans_of (before side) behind (later a ha))).symm

theorem modifyEntries_cut (others : ∀ e ∈ front' ++ back', e.1 ≠ price) (f : PriceLevel → PriceLevel) :
    modifyEntries price f (front' ++ (price, l) :: back') = front' ++ (price, f l) :: back' := by
  have front : modifyEntries price f front' = front' :=
    modifyEntries_absent (fun e he => others e (mem_append_left _ he))
  have back : modifyEntries price f back' = back' :=
    modifyEntries_absent (fun e he => others e (mem_append_right _ he))
  unfold modifyEntries at *
  rw [map_append, map_cons, front, back]
  simp

theorem Cut.erase (cut : Cut nodes m price front back level front' back' l) :
    Forall₂ (Keeps nodes m)
      (if level.orderCount = 0 then front ++ back else front ++ level :: back)
      ((front' ++ (price, l) :: back').filter (OrderBook.keepLevel price)) := by
  have kept (es : List (Int × PriceLevel)) (apart : ∀ e ∈ es, e.1 ≠ price) :
      es.filter (OrderBook.keepLevel price) = es := by
    refine filter_eq_self.mpr fun e he => ?_
    simp [OrderBook.keepLevel, apart e he]
  rw [filter_append, filter_cons, kept front' (fun e he => cut.others e (mem_append_left _ he)),
    kept back' (fun e he => cut.others e (mem_append_right _ he))]
  have empty : level.orderCount = 0 ↔ l.orders = [] := by
    rw [cut.here.count, length_eq_zero_iff]
  by_cases gone : l.orders = []
  · have drop : OrderBook.keepLevel price (price, l) = false := by simp [OrderBook.keepLevel, gone]
    rw [if_pos (empty.mpr gone), if_neg (by rw [drop]; exact Bool.false_ne_true)]
    exact rel_append cut.front cut.back
  · have keep : OrderBook.keepLevel price (price, l) = true := by simp [OrderBook.keepLevel, gone]
    rw [if_neg (empty.not.mpr gone), if_pos keep]
    exact cut.forall₂

end Positions

section Levels
variable {p : PooledOrderBook} {nodes : List OrderNode} {m : NodeMap} {side : Side} {price : Int}
  {level : LevelNode} {front back : List LevelNode}

@[simp] theorem setLevels_symbolId (side : Side) (ls : List LevelNode) :
    (p.setLevels side ls).symbolId = p.symbolId := by cases side <;> rfl

@[simp] theorem setLevels_orderNodes (side : Side) (ls : List LevelNode) :
    (p.setLevels side ls).orderNodes = p.orderNodes := by cases side <;> rfl

@[simp] theorem setLevels_freeHead (side : Side) (ls : List LevelNode) :
    (p.setLevels side ls).freeHead = p.freeHead := by cases side <;> rfl

@[simp] theorem setLevels_orderIndex (side : Side) (ls : List LevelNode) :
    (p.setLevels side ls).orderIndex = p.orderIndex := by cases side <;> rfl

theorem setLevels_levels (valid : isValidSide side = true) (ls : List LevelNode) (s : Side) :
    (p.setLevels side ls).levels s = if s = side then ls else p.levels s := by
  cases side
  · cases valid
  · cases s <;> rfl
  · cases s <;> rfl

theorem mutableLevel_cut {es : List (Int × PriceLevel)} (valid : isValidSide side = true)
    (keeps : Forall₂ (Keeps nodes m) (p.levels side) es)
    (sorted : es.Pairwise (fun a c => before side a.1 c.1)) (price : Int) :
    ∃ front level back front' l back',
      p.mutableLevel side price = some (p.setLevels side (front ++ level :: back), front.length) ∧
      emplaceEntries (before side) price {} es = front' ++ (price, l) :: back' ∧
      Cut nodes m price front back level front' back' l := by
  obtain ⟨front, level, back, front', l, back', found, entry, cut⟩ := levelFrom_cut keeps sorted price
  refine ⟨front, level, back, front', l, back', ?_, entry, cut⟩
  cases side with
  | none => cases valid
  | buy =>
    have bids : mutableBidLevel p.bids price = _ := (mutableBidLevel_eq _ _).trans found
    rw [mutableLevel, bids]
    rfl
  | sell =>
    have asks : mutableAskLevel p.asks price = _ := (mutableAskLevel_eq _ _).trans found
    rw [mutableLevel, asks]
    rfl

theorem eraseLevelIfEmpty_eq (valid : isValidSide side = true) (ls : p.levels side = front ++ level :: back)
    (here : level.priceTicks = price) (others : ∀ level' ∈ front, level'.priceTicks ≠ price) :
    p.eraseLevelIfEmpty side price =
      p.setLevels side (if level.orderCount = 0 then front ++ back else front ++ level :: back) := by
  have found : (front ++ level :: back).findIdx (fun level => level.priceTicks == price) =
      front.length := by
    rw [findIdx_append, findIdx_eq_length.mpr (by simpa using others), if_neg (lt_irrefl _)]
    simp [findIdx_cons, here]
  have same : p.setLevels side (front ++ level :: back) = p := by
    cases side with
    | none => cases valid
    | buy => exact congrArg (fun bids => { p with bids }) ls.symm
    | sell => exact congrArg (fun asks => { p with asks }) ls.symm
  unfold eraseLevelIfEmpty
  simp only [ls, found]
  by_cases empty : level.orderCount = 0
  · simp [empty, eraseIdx_append_of_length_le]
  · simp [empty, same]

end Levels
end Asterion.PooledOrderBook
