import Asterion.Risk.WorkingMoves

/-! The books of a client, which the self-trade check consults. Quantity that is put in while
self-trade prevention is off is not in them, so they are exact only where none of it is still working
when the prevention is switched on. -/
namespace Asterion
open Lib Lib.Tally Lib.Along

namespace ClientWorkingBook

def level (book : ClientWorkingBook) : Side → Int → Option Int
  | .buy, price => book.buyQtyByPrice.find? price
  | .sell, price => book.sellQtyByPrice.find? price
  | .none, _ => none

variable {fit : Int → Int} {book : ClientWorkingBook} {side : Side} {price quantity : Int}

@[simp] theorem level_new (side : Side) (price : Int) : level {} side price = none := by
  cases side <;> rfl

theorem level_empty (h : book.isEmpty = true) (side : Side) (price : Int) :
    book.level side price = none := by
  obtain ⟨buys, sells⟩ := Bool.and_eq_true_iff.mp h
  cases side with
  | none => rfl
  | buy =>
    rw [level, SortedMap.find?, List.isEmpty_iff.mp buys]
    rfl
  | sell =>
    rw [level, SortedMap.find?, List.isEmpty_iff.mp sells]
    rfl

section Levels
variable {K : Type} {r : K → K → Prop} [DecidableEq K] [IsStrictTotalOrder K r]
  {m : SortedMap r Int} {k : K} {amount : Int}

theorem find?_addLevel [DecidableRel r] (j : K) : (addLevel fit m k amount).find? j =
    if j = k then some (added fit amount (m.find? k)) else m.find? j := by
  unfold addLevel
  split
  · rename_i same
    rw [same, SortedMap.find?_upsert_self]
    rfl
  · rename_i other
    rw [SortedMap.find?_upsert_ne _ _ _ other]

theorem find?_reduceLevel (j : K) : (reduceLevel fit m k amount).find? j =
    if j = k then reduced fit amount (m.find? k) else m.find? j := by
  unfold reduceLevel
  cases hk : m.find? k with
  | none =>
    dsimp only
    split
    · rename_i same
      rw [same, hk]
      rfl
    · rfl
  | some x =>
    dsimp only [reduced, Option.bind_some]
    split
    · split
      · rename_i same
        rw [same, SortedMap.find?_erase_self]
      · rename_i other
        rw [SortedMap.find?_erase_ne m other]
    · split
      · rename_i same
        rw [same, SortedMap.find?_modify_self, hk]
        rfl
      · rename_i other
        rw [SortedMap.find?_modify_ne m _ other]

end Levels

theorem level_add (side' : Side) (price' : Int) : (book.add fit side price quantity).level side' price' =
    if side ≠ .none ∧ side = side' ∧ price' = price then
      some (added fit quantity (book.level side price))
    else book.level side' price' := by
  cases side <;> cases side' <;> simp [add, level, find?_addLevel]

theorem level_reduce (side' : Side) (price' : Int) :
    (book.reduce fit side price quantity).level side' price' =
      if side ≠ .none ∧ side = side' ∧ price' = price then
        reduced fit quantity (book.level side price)
      else book.level side' price' := by
  cases side <;> cases side' <;> simp [reduce, level, find?_reduceLevel]

end ClientWorkingBook

namespace RiskGateway

/-- A side of the book of a client in a symbol, at a price. -/
structure BookPlace where
  clientId : Nat
  symbolId : Nat
  side : Side
  priceTicks : Int
  deriving DecidableEq

def place (order : WorkingOrder) : BookPlace :=
  ⟨order.clientId, order.symbolId, order.side, order.priceTicks⟩

def clientLevel (g : RiskGateway) (place : BookPlace) : Option Int :=
  (g.clientBooks.lookup (place.clientId, place.symbolId)).bind (fun book =>
    book.level place.side place.priceTicks)

/-- The books of the clients hold the sums over the working orders, and nothing where these are
zero. -/
def BooksExact (g : RiskGateway) : Prop :=
  ∀ p : BookPlace, p.side ≠ .none →
    g.clientLevel p = kept (g.workingTotal (fun order => place order == p))

/-- Orders without a side are in no book. -/
def placeKey (order : WorkingOrder) : Option BookPlace :=
  if order.side = .none then none else some (place order)

theorem placeKey_eq_some {order : WorkingOrder} {p : BookPlace} :
    placeKey order = some p ↔ order.side ≠ .none ∧ place order = p := by
  unfold placeKey
  split
  · rename_i sideless
    exact ⟨fun h => absurd h (Option.some_ne_none p).symm, fun h => absurd sideless h.1⟩
  · rename_i sided
    exact ⟨fun h => ⟨sided, Option.some.inj h⟩, fun h => congrArg some h.2⟩

def Prevents (limits : RiskLimits) : Prop := limits.enableSelfTradePrevention = true

instance (limits : RiskLimits) : Decidable (Prevents limits) :=
  inferInstanceAs (Decidable (limits.enableSelfTradePrevention = true))

section Ledger
variable {fit : Int → Int} {g : RiskGateway} {order : WorkingOrder} {quantity : Int}

theorem clientLevel_add (positive : 0 < quantity) (p : BookPlace) :
    clientLevel (addWorkingOrderQuantity fit g order quantity) p =
      if Prevents g.limits ∧ placeKey order = some p then
        some (added fit quantity (clientLevel g p))
      else clientLevel g p := by
  unfold clientLevel addWorkingOrderQuantity
  rw [if_neg (not_le.mpr positive)]
  dsimp only
  by_cases switched : Prevents g.limits
  · have on : g.limits.enableSelfTradePrevention = true := switched
    rw [if_pos on]
    by_cases same : (p.clientId, p.symbolId) = (order.clientId, order.symbolId)
    · obtain ⟨client, symbol⟩ := Prod.mk.inj same
      rw [same, AList.lookup_insert, Option.bind_some, ClientWorkingBook.level_add]
      have book : ((g.clientBooks.lookup (order.clientId, order.symbolId)).getD {}).level p.side
          p.priceTicks = (g.clientBooks.lookup (order.clientId, order.symbolId)).bind
            (fun book => book.level p.side p.priceTicks) := by
        cases g.clientBooks.lookup (order.clientId, order.symbolId) with
        | none => exact ClientWorkingBook.level_new _ _
        | some book => rfl
      by_cases here : placeKey order = some p
      · obtain ⟨sided, rfl⟩ := placeKey_eq_some.mp here
        rw [if_pos ⟨sided, rfl, rfl⟩, if_pos ⟨switched, here⟩, ← book]
        rfl
      · rw [if_neg, if_neg (fun h => here h.2), book]
        rintro ⟨sided, side, price⟩
        apply here
        rw [placeKey_eq_some, place, ← client, ← symbol, side, ← price]
        exact ⟨side ▸ sided, rfl⟩
    · rw [AList.lookup_insert_ne same, if_neg]
      rintro ⟨-, here⟩
      obtain ⟨-, rfl⟩ := placeKey_eq_some.mp here
      exact same rfl
  · have off : ¬ g.limits.enableSelfTradePrevention = true := switched
    rw [if_neg off, if_neg (fun h => switched h.1)]

theorem clientLevel_release (positive : 0 < order.quantity) (p : BookPlace) :
    clientLevel (releaseWorkingOrderQuantity fit g order order.quantity) p =
      if placeKey order = some p then reduced fit order.quantity (clientLevel g p)
      else clientLevel g p := by
  unfold clientLevel releaseWorkingOrderQuantity
  rw [if_neg (fun none => none.elim (not_le.mpr positive) (not_le.mpr positive)), min_self]
  dsimp only
  by_cases same : (p.clientId, p.symbolId) = (order.clientId, order.symbolId)
  · obtain ⟨client, symbol⟩ := Prod.mk.inj same
    rw [same]
    cases found : g.clientBooks.lookup (order.clientId, order.symbolId) with
    | none =>
      dsimp only
      rw [found]
      split
      · rfl
      · rfl
    | some book =>
      have left : (book.reduce fit order.side order.priceTicks order.quantity).level p.side
          p.priceTicks = if placeKey order = some p then
            reduced fit order.quantity (book.level p.side p.priceTicks)
          else book.level p.side p.priceTicks := by
        rw [ClientWorkingBook.level_reduce]
        by_cases here : placeKey order = some p
        · obtain ⟨sided, rfl⟩ := placeKey_eq_some.mp here
          rw [if_pos here, if_pos ⟨sided, rfl, rfl⟩]
          rfl
        · rw [if_neg here, if_neg]
          rintro ⟨sided, side, price⟩
          apply here
          rw [placeKey_eq_some, place, ← client, ← symbol, side, ← price]
          exact ⟨side ▸ sided, rfl⟩
      dsimp only [Option.bind_some]
      rw [← left]
      split
      · rename_i empty
        rw [AList.lookup_erase, ClientWorkingBook.level_empty empty]
        rfl
      · rw [AList.lookup_insert]
        rfl
  · have books : ∀ book : ClientWorkingBook, ∀ keep : Bool, AList.lookup (p.clientId, p.symbolId)
        (if keep then g.clientBooks.erase (order.clientId, order.symbolId)
          else g.clientBooks.insert (order.clientId, order.symbolId) book) =
        g.clientBooks.lookup (p.clientId, p.symbolId) := by
      intro book keep
      cases keep with
      | true => exact AList.lookup_erase_ne same
      | false => exact AList.lookup_insert_ne same
    rw [if_neg]
    · split
      · rfl
      · rw [books]
    · intro here
      obtain ⟨-, rfl⟩ := placeKey_eq_some.mp here
      exact same rfl

theorem bookLedger : Ledger placeKey clientLevel Prevents where
  tables {g g'} _ books := by
    funext p
    rw [clientLevel, clientLevel, books]
  exchange _ _ := rfl
  cleared {g} cleared p := by
    rw [clientLevel, cleared.books]
    rfl
  add g order p positive := by
    rw [clientLevel_add positive]
    exact ⟨fun h => if_pos h, fun h => if_neg h⟩
  release g order p positive := clientLevel_release positive p

end Ledger

theorem exact_iff_booksExact {g : RiskGateway} : Exact placeKey clientLevel g ↔ BooksExact g := by
  have sums : ∀ p : BookPlace, p.side ≠ .none →
      sumOf placeKey g.workingOrders p = g.workingTotal (fun order => place order == p) := by
    intro p sided
    have kind : (fun order => Decidable.decide (placeKey order = some p)) =
        fun order => place order == p := by
      funext order
      rw [Bool.eq_iff_iff, decide_eq_true_iff, placeKey_eq_some, beq_iff_eq]
      exact ⟨fun h => h.2, fun same => ⟨fun none => sided (same ▸ none), same⟩⟩
    rw [sumOf_eq_workingTotal, kind]
  constructor
  · intro exact p sided
    rw [exact p, sums p sided]
  · intro exact p
    by_cases sided : p.side = .none
    · have nothing : sumOf placeKey g.workingOrders p = 0 := by
        have kind : (fun order => Decidable.decide (placeKey order = some p)) = fun _ => false := by
          funext order
          rw [decide_eq_false_iff_not, placeKey_eq_some]
          rintro ⟨other, rfl⟩
          exact other sided
        rw [sumOf_eq_workingTotal, kind, workingTotal, List.filter_false]
        rfl
      rw [nothing, clientLevel, sided]
      cases g.clientBooks.lookup (p.clientId, p.symbolId) with
      | none => rfl
      | some book => rfl
    · rw [exact p sided, sums p sided]

section Best
variable {g : RiskGateway}

/-- The price of a working order of the same client in the same symbol on the other side. -/
def Opposing (g : RiskGateway) (request : NewOrderRequest) (price : Int) : Prop :=
  ∃ id order, g.workingOrders.lookup id = some order ∧
    place order = ⟨request.clientId, request.symbolId, opposite request.side, price⟩

/-- The opposing price that the request would trade at first. -/
def BestOpposing (g : RiskGateway) (request : NewOrderRequest) (price : Int) : Prop :=
  match request.side with
  | .buy => IsLeast {price | Opposing g request price} price
  | .sell => IsGreatest {price | Opposing g request price} price
  | .none => False

def staysBehind (request : NewOrderRequest) (price : Int) : Bool :=
  request.orderType != .market &&
    (if request.side = .buy then Decidable.decide (request.priceTicks < price)
      else Decidable.decide (request.priceTicks > price))

/-- The self-trade check compares with the best opposing working price of the client. -/
def ChecksBest (g : RiskGateway) : Prop :=
  ∀ request : NewOrderRequest, request.side ≠ .none → request.postOnly = false →
    (∃ price, BestOpposing g request price ∧
      selfTradeCheckAllows g request = (staysBehind request price, price)) ∨
    ((∀ price, ¬ Opposing g request price) ∧ selfTradeCheckAllows g request = (true, 0))

theorem opposite_ne_none {side : Side} (sided : side ≠ .none) : opposite side ≠ .none := by
  cases side with
  | none => exact absurd rfl sided
  | buy => decide
  | sell => decide

/-- The head of the opposite side of the client's book decides, where that side has the prices of
the opposing orders. -/
theorem comparesBest (switched : Prevents g.limits) {request : NewOrderRequest}
    (sided : request.side ≠ .none) (postOnly : request.postOnly = false)
    (opposes : ∀ price, Opposing g request price ↔
      clientLevel g ⟨request.clientId, request.symbolId, opposite request.side, price⟩ ≠ none) :
    (∃ price, BestOpposing g request price ∧
      selfTradeCheckAllows g request = (staysBehind request price, price)) ∨
    ((∀ price, ¬ Opposing g request price) ∧ selfTradeCheckAllows g request = (true, 0)) := by
  have on : g.limits.enableSelfTradePrevention = true := switched
  unfold selfTradeCheckAllows
  rw [on, postOnly, if_neg (fun h => nomatch h), if_neg Bool.false_ne_true]
  cases found : g.clientBooks.lookup (request.clientId, request.symbolId) with
  | none =>
    refine Or.inr ⟨fun price => ?_, rfl⟩
    rw [opposes, clientLevel, found]
    exact fun h => h rfl
  | some book =>
    have levels : ∀ price, Opposing g request price ↔
        book.level (opposite request.side) price ≠ none := by
      intro price
      rw [opposes, clientLevel, found, Option.bind_some]
    dsimp only
    cases side : request.side with
    | none => exact absurd side sided
    | buy =>
      rw [side] at levels
      cases entries : book.sellQtyByPrice.entries with
      | nil =>
        refine Or.inr ⟨fun price => ?_, rfl⟩
        rw [levels, opposite, ClientWorkingBook.level, SortedMap.find?, entries]
        exact fun h => h rfl
      | cons best rest =>
        obtain ⟨price, quantity⟩ := best
        have here : (price, quantity) ∈ book.sellQtyByPrice.entries := by
          rw [entries]
          exact List.mem_cons_self
        refine Or.inl ⟨price, ?_, ?_⟩
        · rw [BestOpposing, side]
          constructor
          · rw [Set.mem_ofPred_eq, levels, opposite, ClientWorkingBook.level,
              (SortedMap.find?_eq_some _).mpr here]
            exact Option.some_ne_none _
          · intro other opposing
            have present := (levels other).mp opposing
            rcases SortedMap.first_least _ entries present with rfl | above
            · exact le_refl _
            · exact le_of_lt above
        · rw [staysBehind, if_pos side]
    | sell =>
      rw [side] at levels
      cases entries : book.buyQtyByPrice.entries with
      | nil =>
        refine Or.inr ⟨fun price => ?_, rfl⟩
        rw [levels, opposite, ClientWorkingBook.level, SortedMap.find?, entries]
        exact fun h => h rfl
      | cons best rest =>
        obtain ⟨price, quantity⟩ := best
        have here : (price, quantity) ∈ book.buyQtyByPrice.entries := by
          rw [entries]
          exact List.mem_cons_self
        refine Or.inl ⟨price, ?_, ?_⟩
        · rw [BestOpposing, side]
          constructor
          · rw [Set.mem_ofPred_eq, levels, opposite, ClientWorkingBook.level,
              (SortedMap.find?_eq_some _).mpr here]
            exact Option.some_ne_none _
          · intro other opposing
            have present := (levels other).mp opposing
            rcases SortedMap.first_least _ entries present with rfl | below
            · exact le_refl _
            · exact le_of_lt below
        · rw [staysBehind, side]
          rfl

variable (positive : ∀ {id order}, g.workingOrders.lookup id = some order → 0 < order.quantity)
  (exact : Exact placeKey clientLevel g)
include positive exact

theorem clientLevel_ne_none {p : BookPlace} (sided : p.side ≠ .none) :
    clientLevel g p ≠ none ↔
      ∃ id order, g.workingOrders.lookup id = some order ∧ place order = p := by
  rw [exact p]
  constructor
  · intro some
    by_contra absent
    apply some
    have nothing : sumOf placeKey g.workingOrders p = 0 := by
      apply sumOf_eq_zero
      intro id order found here
      exact absent ⟨id, order, found, (placeKey_eq_some.mp here).2⟩
    rw [nothing]
    rfl
  · rintro ⟨id, order, found, rfl⟩
    have here : placeKey order = some (place order) := placeKey_eq_some.mpr ⟨sided, rfl⟩
    have counts : part placeKey (place order) order ≤ sumOf placeKey g.workingOrders (place order) :=
      part_le_sumOf positive found (place order)
    have whole : part placeKey (place order) order = order.quantity := if_pos here
    have size := positive found
    rw [kept_ne (by omega)]
    exact Option.some_ne_none _

theorem checksBest (switched : Prevents g.limits) : ChecksBest g := by
  intro request sided postOnly
  apply comparesBest switched sided postOnly
  intro price
  exact (clientLevel_ne_none positive exact (opposite_ne_none sided)).symm

end Best

/-- The books are exact and decide the self-trade check wherever the prevention is on. -/
def SelfTradeSound (g : RiskGateway) : Prop :=
  g.limits.enableSelfTradePrevention = true → BooksExact g ∧ ChecksBest g

theorem sound_of_booked {g : RiskGateway} (booked : Booked placeKey clientLevel Prevents g) :
    SelfTradeSound g := by
  intro switched
  have exact := booked.exact switched
  exact ⟨exact_iff_booksExact.mp exact, checksBest booked.positive exact switched⟩

section Missed

/-- The places where quantity has been put in while the prevention was off, for as long as some
quantity works there. -/
def missedAfter (g : RiskGateway) (missed : Set BookPlace) (operation : Operation) :
    Set BookPlace :=
  {p | (p ∈ missed ∨ ¬ Prevents g.limits ∧ 0 < putPart placeKey p (putsIn g operation)) ∧
    0 < sumOf placeKey (step id g operation).workingOrders p}

/-- An operation of the gateway, with the missed places beside it. -/
def watch (s : RiskGateway × Set BookPlace) (operation : Operation) :
    RiskGateway × Set BookPlace :=
  (step id s.1 operation, missedAfter s.1 s.2 operation)

/-- Self-trade prevention is switched on only where no place is missed. -/
def SwitchedOnUnmissed (s : RiskGateway × Set BookPlace) (operation : Operation) : Prop :=
  ∀ limits, operation = .setLimits limits → limits.enableSelfTradePrevention = true → s.2 = ∅

/-- The missed places are those where the books fall short. -/
structure Watched (s : RiskGateway × Set BookPlace) : Prop where
  booked : Booked placeKey clientLevel Prevents s.1
  missed : ∀ p, p ∈ s.2 ↔ clientLevel s.1 p ≠ kept (sumOf placeKey s.1.workingOrders p)

variable {s : RiskGateway × Set BookPlace}

theorem Watched.exact_iff (watched : Watched s) : BooksExact s.1 ↔ s.2 = ∅ := by
  rw [← exact_iff_booksExact, Set.eq_empty_iff_forall_notMem]
  exact forall_congr' (fun p => by rw [watched.missed, not_not])

theorem Watched.next (watched : Watched s) {operation : Operation}
    (unmissed : SwitchedOnUnmissed s operation) : Watched (watch s operation) where
  booked := bookLedger.kept.perform watched.booked operation (fun limits same switched =>
    exact_iff_booksExact.mpr (watched.exact_iff.mpr (unmissed limits same switched)))
  missed p := by
    obtain ⟨out, moves⟩ := bookLedger.step_moves watched.booked operation p
    obtain ⟨x, level, low, high, same⟩ := watched.booked.holds p
    have table := moves.table x low high level
    have before := watched.missed p
    have covered := moves.covered
    have outNonneg := moves.low
    have gain := moves.gain
    rw [level, Ne, kept_inj] at before
    change (_ ∨ _) ∧ 0 < sumOf placeKey (step id s.1 operation).workingOrders p ↔
      clientLevel (step id s.1 operation) p ≠
        kept (sumOf placeKey (step id s.1 operation).workingOrders p)
    rw [before, table, Ne, kept_inj]
    have sums := moves.sums
    by_cases switched : Prevents s.1.limits
    · -- what goes in is written, and nothing was missed before
      have whole := same switched
      rw [if_pos switched]
      constructor
      · rintro ⟨short | ⟨off, -⟩, -⟩
        · exact absurd whole short
        · exact absurd switched off
      · intro short
        omega
    · rw [if_neg switched]
      constructor
      · rintro ⟨short | ⟨-, put⟩, works⟩
        · omega
        · omega
      · intro short
        refine ⟨?_, by omega⟩
        by_cases put : 0 < putPart placeKey p (putsIn s.1 operation)
        · exact Or.inr ⟨switched, put⟩
        · exact Or.inl (by omega)

end Missed

/-- Self-trade prevention is switched on only where it is on already, or nothing works. -/
def SwitchedOnIdle (g : RiskGateway) (operation : Operation) : Prop :=
  ∀ limits, operation = .setLimits limits → limits.enableSelfTradePrevention = true →
    g.limits.enableSelfTradePrevention = true ∨ g.workingOrders = ∅

theorem self_trade_books_idle {limits : RiskLimits} {operations : List Operation}
    (idle : Each (step id) SwitchedOnIdle { limits } operations) :
    Always (step id) SelfTradeSound { limits } operations := by
  have booked : Always (step id) (Booked placeKey clientLevel Prevents) { limits } operations := by
    apply always_of_each _ (booked_new bookLedger limits) idle
    intro g operation booked idle
    apply bookLedger.kept.perform booked operation
    intro limits same switched
    rcases idle limits same switched with already | nothing
    · exact booked.exact already
    · intro p
      obtain ⟨x, level, low, high, -⟩ := booked.holds p
      rw [nothing] at high ⊢
      have zero : sumOf placeKey (∅ : AList (fun _ : Nat => WorkingOrder)) p = 0 := rfl
      rw [zero] at high ⊢
      rw [level, le_antisymm high low]
  exact booked.imp (fun g booked => sound_of_booked booked)

end RiskGateway

end Asterion
