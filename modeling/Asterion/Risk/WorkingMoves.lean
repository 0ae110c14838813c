import Asterion.Risk.WorkingTables

/-! What one operation does to the working quantity under a key: it takes some out and puts the
quantity of at most one order in. A table of quantities loses as much as it has, and gains where it
is switched on. -/
namespace Asterion
open Lib Lib.Tally

namespace RiskGateway

/-- The order whose quantity an operation puts in: the one it registers, resizes or reprices. -/
def putsIn (g : RiskGateway) : Operation → Option WorkingOrder
  | .checkNewOrder request nowNs =>
    if (checkNewOrder id g request nowNs).2.accepted = true ∧ g.tracksWorkingOrders = true ∧
        request.orderType = .limit ∧ request.timeInForce = .gtc then
      some { clientId := request.clientId, symbolId := request.symbolId, side := request.side
             priceTicks := request.priceTicks, quantity := request.quantity }
    else none
  | .checkReplaceOrder request nowNs =>
    if (checkReplaceOrder id g request nowNs).2.accepted = true then
      ((g.exchangeToClientOrderIds.lookup request.exchangeOrderId).bind (fun clientOrderId =>
        g.workingOrders.lookup clientOrderId)).map (fun existing =>
          { existing with priceTicks := request.newPriceTicks, quantity := request.newQuantity })
    else none
  | .onExecutionReport report =>
    if report.clientOrderId = invalidClientOrderId then none
    else
      (findReported g report).bind (fun found =>
        let order := found.2
        let newPrice :=
          if report.restingPriceTicks > 0 then report.restingPriceTicks else order.priceTicks
        if closesOrder report = false ∧
            (order.quantity ≠ report.remainingQuantity ∨ order.priceTicks ≠ newPrice) then
          some { order with priceTicks := newPrice, quantity := report.remainingQuantity }
        else none)
  | _ => none

section Moves
variable {κ : Type} [DecidableEq κ] (key : WorkingOrder → Option κ)
  (amount : RiskGateway → κ → Option Int) (on : RiskLimits → Prop) [DecidablePred on]

def putPart (k : κ) : Option WorkingOrder → Int
  | none => 0
  | some order => part key k order

/-- Under the key some quantity goes out and some is put in. -/
structure Moves (k : κ) (g g' : RiskGateway) (out put : Int) : Prop where
  low : 0 ≤ out
  covered : out ≤ sumOf key g.workingOrders k
  gain : 0 ≤ put
  sums : sumOf key g'.workingOrders k = sumOf key g.workingOrders k - out + put
  table : ∀ x, 0 ≤ x → x ≤ sumOf key g.workingOrders k → amount g k = kept x →
    amount g' k = kept (max 0 (x - out) + if on g.limits then put else 0)

variable {key amount on} {g g' : RiskGateway} {k : κ} {order : WorkingOrder}

theorem sumOf_nonneg {orders : AList (fun _ : Nat => WorkingOrder)}
    (positive : ∀ {id order}, orders.lookup id = some order → 0 < order.quantity) (k : κ) :
    0 ≤ sumOf key orders k :=
  total_nonneg (fun _ _ found => part_nonneg (positive found) k)

section Tables
variable (ledger : Ledger key amount on)
include ledger

omit [DecidablePred on] in
theorem Ledger.amount_same (g g' : RiskGateway) (k : κ)
    (quantity : g'.workingQuantity = g.workingQuantity) (books : g'.clientBooks = g.clientBooks) :
    amount g' k = amount g k :=
  congrFun (ledger.tables quantity books) k

theorem Ledger.amount_put (positive : 0 < order.quantity) {x : Int} (low : 0 ≤ x)
    (here : amount g k = Tally.kept x) :
    amount (addWorkingOrderQuantity id g order order.quantity) k =
      Tally.kept (x + if on g.limits then part key k order else 0) := by
  by_cases there : on g.limits ∧ key order = some k
  · have whole : part key k order = order.quantity := if_pos there.2
    rw [(ledger.add g order k positive).1 there, here, added_kept low positive, if_pos there.1,
      whole]
  · rw [(ledger.add g order k positive).2 there, here]
    split
    · rename_i switched
      have nothing : part key k order = 0 := if_neg (fun h => there ⟨switched, h⟩)
      rw [nothing, add_zero]
    · rw [add_zero]

omit [DecidablePred on] in
theorem Ledger.amount_out (positive : 0 < order.quantity) {x : Int} (low : 0 ≤ x)
    (here : amount g k = Tally.kept x) :
    amount (releaseWorkingOrderQuantity id g order order.quantity) k =
      Tally.kept (max 0 (x - part key k order)) := by
  rw [ledger.release g order k positive]
  by_cases there : key order = some k
  · have whole : part key k order = order.quantity := if_pos there
    rw [if_pos there, here, reduced_kept low positive, whole]
  · have nothing : part key k order = 0 := if_neg there
    rw [if_neg there, nothing, sub_zero, max_eq_right low, here]

end Tables

theorem moves_none (sum : 0 ≤ sumOf key g.workingOrders k)
    (sums : sumOf key g'.workingOrders k = sumOf key g.workingOrders k)
    (table : amount g' k = amount g k) : Moves key amount on k g g' 0 0 where
  low := le_refl 0
  covered := sum
  gain := le_refl 0
  sums := by rw [sums, sub_zero, add_zero]
  table x low _ here := by
    rw [table, here, sub_zero, max_eq_right low, ite_self, add_zero]

/-- Changes in front that leave the sum, the table and the limits alone do not count. -/
theorem Moves.behind {g₁ : RiskGateway} {out put : Int} (moves : Moves key amount on k g₁ g' out put)
    (sums : sumOf key g₁.workingOrders k = sumOf key g.workingOrders k)
    (table : amount g₁ k = amount g k) (limits : g₁.limits = g.limits) :
    Moves key amount on k g g' out put where
  low := moves.low
  covered := sums ▸ moves.covered
  gain := moves.gain
  sums := sums ▸ moves.sums
  table x low high here := by
    rw [← limits]
    exact moves.table x low (sums ▸ high) (table.trans here)

theorem Moves.before {g₁ : RiskGateway} {out put : Int} (moves : Moves key amount on k g g₁ out put)
    (sums : sumOf key g'.workingOrders k = sumOf key g₁.workingOrders k)
    (table : amount g' k = amount g₁ k) : Moves key amount on k g g' out put where
  low := moves.low
  covered := moves.covered
  gain := moves.gain
  sums := sums.trans moves.sums
  table x low high here := table.trans (moves.table x low high here)

section Steps
variable (ledger : Ledger key amount on) (booked : Booked key amount on g)
include ledger booked

theorem Ledger.moves_register {request : NewOrderRequest} (k : κ)
    (fresh : g.workingOrders.lookup request.clientOrderId = none) (positive : 0 < request.quantity)
    (limit : request.orderType = .limit) (gtc : request.timeInForce = .gtc) :
    Moves key amount on k g (registerWorkingOrder id g request) 0
      (part key k { clientId := request.clientId, symbolId := request.symbolId
                    side := request.side, priceTicks := request.priceTicks
                    quantity := request.quantity }) := by
  obtain ⟨order, ho⟩ : ∃ order : WorkingOrder, order =
      { clientId := request.clientId, symbolId := request.symbolId, side := request.side
        priceTicks := request.priceTicks, quantity := request.quantity } := ⟨_, rfl⟩
  have size : 0 < order.quantity := by
    rw [ho]
    exact positive
  have whole : registerWorkingOrder id g request =
      addWorkingOrderQuantity id (g.setOrder request.clientOrderId order) order
        order.quantity := by
    unfold registerWorkingOrder
    rw [if_neg (fun none => none.elim (fun h => h limit) (fun h => h gtc)), ho]
  obtain ⟨quantities, books, frame⟩ :=
    @addWorkingOrderQuantity_frame id (g.setOrder request.clientOrderId order) order order.quantity
  rw [← ho, whole]
  refine ⟨le_refl 0, sumOf_nonneg booked.positive k, part_nonneg size k, ?_, ?_⟩
  · rw [frame, sub_zero]
    exact sumOf_insert_new k fresh
  · intro x low _ here
    have set : amount (g.setOrder request.clientOrderId order) k = Tally.kept x := by
      rw [← here]
      exact ledger.amount_same _ _ k rfl rfl
    rw [ledger.amount_put size low set, sub_zero, max_eq_right low]
    rfl

theorem Ledger.moves_resize {clientOrderId : Nat} {price quantity : Int} (k : κ)
    (lookup : g.workingOrders.lookup clientOrderId = some order) (positive : 0 < quantity) :
    Moves key amount on k g (resizeOrder id g clientOrderId order price quantity)
      (part key k order) (part key k { order with priceTicks := price, quantity := quantity }) := by
  obtain ⟨resized, hr⟩ : ∃ resized : WorkingOrder, resized =
      { order with priceTicks := price, quantity := quantity } := ⟨_, rfl⟩
  have size : 0 < resized.quantity := by
    rw [hr]
    exact positive
  obtain ⟨_, _, release⟩ := @releaseWorkingOrderQuantity_frame id g order order.quantity
  obtain ⟨quantities, books, frame⟩ := @resizeOrder_frame id g order clientOrderId price quantity
  have whole : resizeOrder id g clientOrderId order price quantity =
      addWorkingOrderQuantity id ((releaseWorkingOrderQuantity id g order order.quantity).setOrder
        clientOrderId resized) resized resized.quantity := by
    rw [hr]
    rfl
  have limits : (releaseWorkingOrderQuantity id g order order.quantity).limits = g.limits := by
    rw [release]
  rw [← hr]
  refine ⟨part_nonneg (booked.positive lookup) k, part_le_sumOf booked.positive lookup k,
    part_nonneg size k, ?_, ?_⟩
  · rw [frame, hr]
    exact sumOf_insert k lookup _
  · intro x low _ here
    have out := ledger.amount_out (booked.positive lookup) low here
    have set : amount ((releaseWorkingOrderQuantity id g order order.quantity).setOrder
        clientOrderId resized) k = Tally.kept (max 0 (x - part key k order)) := by
      rw [← out]
      exact ledger.amount_same _ _ k rfl rfl
    rw [whole, ledger.amount_put size (le_max_left _ _) set]
    change Tally.kept (_ + if on (releaseWorkingOrderQuantity id g order order.quantity).limits then _
      else _) = _
    rw [limits]

theorem Ledger.moves_release (clientOrderId : Nat) (k : κ) :
    ∃ out, Moves key amount on k g (releaseOrder id g clientOrderId) out 0 := by
  cases lookup : g.workingOrders.lookup clientOrderId with
  | none =>
    have same : releaseOrder id g clientOrderId = g := by
      unfold releaseOrder
      rw [lookup]
    rw [same]
    exact ⟨0, moves_none (sumOf_nonneg booked.positive k) rfl rfl⟩
  | some order =>
    obtain ⟨quantities, books, index, frame⟩ := @releaseOrder_frame id g order clientOrderId lookup
    have tables : amount (releaseOrder id g clientOrderId) =
        amount (releaseWorkingOrderQuantity id g order order.quantity) := by
      apply ledger.tables
      · unfold releaseOrder
        rw [lookup]
      · unfold releaseOrder
        rw [lookup]
    refine ⟨part key k order, part_nonneg (booked.positive lookup) k,
      part_le_sumOf booked.positive lookup k, le_refl 0, ?_, ?_⟩
    · rw [frame, add_zero]
      exact sumOf_erase k lookup
    · intro x low _ here
      rw [tables, ledger.amount_out (booked.positive lookup) low here, ite_self, add_zero]

theorem Ledger.moves_clear (cleared : Cleared g') (k : κ) :
    Moves key amount on k g g' (sumOf key g.workingOrders k) 0 where
  low := sumOf_nonneg booked.positive k
  covered := le_refl _
  gain := le_refl 0
  sums := by
    rw [cleared.orders, sub_self]
    rfl
  table x low high _ := by
    rw [ledger.cleared cleared, ite_self, add_zero, max_eq_left (by omega)]
    rfl

theorem Ledger.moves_same (same : SameOrders g g') (k : κ) : Moves key amount on k g g' 0 0 :=
  moves_none (sumOf_nonneg booked.positive k) (by rw [same.orders])
    (ledger.amount_same g g' k same.quantity same.books)

theorem Ledger.moves_newOrder (request : NewOrderRequest) (nowNs : Int) (k : κ) :
    Moves key amount on k g (step id g (.checkNewOrder request nowNs)) 0
      (putPart key k (putsIn g (.checkNewOrder request nowNs))) := by
  have outcome := checkNewOrder_outcome id g nowNs request
  change Moves key amount on k g (checkNewOrder id g request nowNs).1 0 _
  rcases outcome with ⟨rejected, rates, recorder, result⟩ | ⟨accepted, passed, rates, recorder, result⟩
  · have nothing : putsIn g (.checkNewOrder request nowNs) = none :=
      if_neg (fun h => by rw [rejected] at h; exact Bool.false_ne_true h.1)
    rw [nothing, result]
    have same : SameOrders g { g with rateStates := rates, recorder := recorder } :=
      ⟨rfl, rfl, rfl, rfl, rfl, rfl⟩
    exact ledger.moves_same booked same k
  · rw [result]
    by_cases registers : g.tracksWorkingOrders = true ∧ request.orderType = .limit ∧
        request.timeInForce = .gtc
    · obtain ⟨tracks, limit, gtc⟩ := registers
      have put : putsIn g (.checkNewOrder request nowNs) = some
          { clientId := request.clientId, symbolId := request.symbolId, side := request.side
            priceTicks := request.priceTicks, quantity := request.quantity } :=
        if_pos ⟨accepted, tracks, limit, gtc⟩
      have fresh : g.workingOrders.lookup request.clientOrderId = none := by
        cases h : g.workingOrders.lookup request.clientOrderId with
        | none => rfl
        | some order => exact absurd (booked.accepted h) passed.unused
      have inserted : Booked key amount on { g with
          rateStates := rates
          acceptedClientOrderIds := insert request.clientOrderId g.acceptedClientOrderIds } :=
        ⟨fun h => Finset.mem_insert_of_mem (booked.accepted h), booked.positive,
          ledger.holds_same booked.holds rfl rfl rfl⟩
      have moves := ledger.moves_register inserted k fresh passed.positive limit gtc
      have admits : admitted id { g with rateStates := rates } request =
          registerWorkingOrder id { g with
            rateStates := rates
            acceptedClientOrderIds := insert request.clientOrderId g.acceptedClientOrderIds }
            request := if_pos tracks
      rw [put, admits]
      refine (moves.behind (g := g) rfl ?_ rfl).before rfl ?_
      · exact ledger.amount_same _ _ k rfl rfl
      · exact ledger.amount_same _ _ k rfl rfl
    · have nothing : putsIn g (.checkNewOrder request nowNs) = none :=
        if_neg (fun h => registers h.2)
      rw [nothing]
      have still : ∃ accepted, admitted id { g with rateStates := rates } request =
          { g with rateStates := rates, acceptedClientOrderIds := accepted } := by
        refine ⟨insert request.clientOrderId g.acceptedClientOrderIds, ?_⟩
        unfold admitted registerWorkingOrder
        dsimp only
        split
        · rename_i tracks
          rw [if_pos]
          by_contra rests
          rw [not_or, not_not, not_not] at rests
          exact registers ⟨tracks, rests⟩
        · rfl
      obtain ⟨accepted, still⟩ := still
      rw [still]
      exact moves_none (sumOf_nonneg booked.positive k) rfl (ledger.amount_same _ _ k rfl rfl)

theorem Ledger.moves_replaceOrder (request : ReplaceOrderRequest) (nowNs : Int) (k : κ) :
    ∃ out, Moves key amount on k g (step id g (.checkReplaceOrder request nowNs)) out
      (putPart key k (putsIn g (.checkReplaceOrder request nowNs))) := by
  have outcome := checkReplaceOrder_outcome id g nowNs request
  change ∃ out, Moves key amount on k g (checkReplaceOrder id g request nowNs).1 out _
  rcases outcome with ⟨rejected, rates, recorder, result⟩ |
    ⟨id', existing, accepted, passed, rates, recorder, result⟩
  · have nothing : putsIn g (.checkReplaceOrder request nowNs) = none :=
      if_neg (fun h => by rw [rejected] at h; exact Bool.false_ne_true h)
    rw [nothing, result]
    have same : SameOrders g { g with rateStates := rates, recorder := recorder } :=
      ⟨rfl, rfl, rfl, rfl, rfl, rfl⟩
    exact ⟨0, ledger.moves_same booked same k⟩
  · have put : putsIn g (.checkReplaceOrder request nowNs) = some { existing with
        priceTicks := request.newPriceTicks, quantity := request.newQuantity } := by
      refine (if_pos accepted).trans ?_
      rw [passed.mapped, Option.bind_some, passed.order, Option.map_some]
    have rated : Booked key amount on { g with rateStates := rates } :=
      ⟨booked.accepted, booked.positive, ledger.holds_same booked.holds rfl rfl rfl⟩
    have moves := @Ledger.moves_resize _ _ key amount on _ { g with rateStates := rates } existing
      ledger rated id' request.newPriceTicks request.newQuantity k passed.order passed.positive
    rw [put, result]
    refine ⟨_, (moves.behind (g := g) rfl ?_ rfl).before rfl ?_⟩
    · exact ledger.amount_same _ _ k rfl rfl
    · exact ledger.amount_same _ _ k rfl rfl

theorem Ledger.moves_report (report : ExecutionReport) (k : κ) :
    ∃ out, Moves key amount on k g (step id g (.onExecutionReport report)) out
      (putPart key k (putsIn g (.onExecutionReport report))) := by
  change ∃ out, Moves key amount on k g (onExecutionReport id g report) out _
  have still : ∃ out, Moves key amount on k g g out 0 :=
    ⟨0, moves_none (sumOf_nonneg booked.positive k) rfl rfl⟩
  by_cases attributed : report.clientOrderId = invalidClientOrderId
  · have nothing : putsIn g (.onExecutionReport report) = none := if_pos attributed
    unfold onExecutionReport
    rw [nothing, if_pos attributed]
    exact still
  have put : putsIn g (.onExecutionReport report) = (findReported g report).bind
      (fun found =>
        let order := found.2
        let newPrice :=
          if report.restingPriceTicks > 0 then report.restingPriceTicks else order.priceTicks
        if closesOrder report = false ∧
            (order.quantity ≠ report.remainingQuantity ∨ order.priceTicks ≠ newPrice) then
          some { order with priceTicks := newPrice, quantity := report.remainingQuantity }
        else none) := if_neg attributed
  cases found : findReported g report with
  | none =>
    unfold onExecutionReport upsertWorkingOrderFromReport
    rw [put, if_neg attributed, found]
    exact still
  | some p =>
    obtain ⟨clientOrderId, order⟩ := p
    rw [found, Option.bind_some] at put
    cases closes : closesOrder report with
    | true =>
      unfold onExecutionReport upsertWorkingOrderFromReport
      rw [put, if_neg attributed, found, closes]
      dsimp only
      rw [if_pos rfl, if_neg (fun h => nomatch h.1)]
      exact ledger.moves_release booked report.clientOrderId k
    | false =>
      obtain ⟨price, hp, result⟩ :=
        @onExecutionReport_open id g report clientOrderId order attributed found closes
      have known := findReported_lookup found
      have lookup := bindExchangeOrderId_lookup known report.exchangeOrderId
      have bound : Booked key amount on (bindExchangeOrderId g clientOrderId order
          report.exchangeOrderId) := ledger.booked_bind booked known
      have sums : sumOf key (bindExchangeOrderId g clientOrderId order
          report.exchangeOrderId).workingOrders k = sumOf key g.workingOrders k := by
        unfold bindExchangeOrderId
        split
        · rfl
        · have same : part key k { order with exchangeOrderId := report.exchangeOrderId } =
              part key k order := by
            unfold part
            rw [ledger.exchange]
          refine (sumOf_insert k known _).trans ?_
          rw [same, sub_add_cancel]
      have tables : amount (bindExchangeOrderId g clientOrderId order report.exchangeOrderId) k =
          amount g k := by
        apply ledger.amount_same
        · unfold bindExchangeOrderId
          split <;> rfl
        · unfold bindExchangeOrderId
          split <;> rfl
      have limits : (bindExchangeOrderId g clientOrderId order report.exchangeOrderId).limits =
          g.limits := by
        unfold bindExchangeOrderId
        split <;> rfl
      simp only [closes, true_and, ← hp] at put
      rw [put, result]
      split
      · have moves := @Ledger.moves_resize _ _ key amount on _ _ _ ledger bound clientOrderId price
          report.remainingQuantity k lookup (closesOrder_remaining closes)
        have same : part key k { withExchangeId order report.exchangeOrderId with
              priceTicks := price, quantity := report.remainingQuantity } =
            part key k { order with priceTicks := price, quantity := report.remainingQuantity } := by
          unfold withExchangeId
          split
          · rfl
          · unfold part
            rw [ledger.exchange { order with
              priceTicks := price, quantity := report.remainingQuantity }]
        rw [same] at moves
        exact ⟨_, moves.behind sums tables limits⟩
      · exact ⟨0, moves_none (sumOf_nonneg booked.positive k) sums tables⟩

/-- Every operation moves quantity under a key, and puts in that of its order at most. -/
theorem Ledger.step_moves (operation : Operation) (k : κ) :
    ∃ out, Moves key amount on k g (step id g operation) out
      (putPart key k (putsIn g operation)) := by
  have quiet : ∀ g', SameOrders g g' → ∃ out, Moves key amount on k g g' out 0 :=
    fun _ same => ⟨0, ledger.moves_same booked same k⟩
  cases operation with
  | setLimits limits =>
    exact ⟨0, moves_none (sumOf_nonneg booked.positive k) rfl (ledger.amount_same _ _ k rfl rfl)⟩
  | enableKillSwitch timestampNs =>
    exact ⟨_, ledger.moves_clear booked cancelAllWorkingOrders_cleared k⟩
  | disableKillSwitch => exact quiet _ ⟨rfl, rfl, rfl, rfl, rfl, rfl⟩
  | onDisconnect timestampNs =>
    change ∃ out, Moves key amount on k g (onDisconnect g timestampNs) out 0
    unfold onDisconnect
    split
    · exact quiet _ ⟨rfl, rfl, rfl, rfl, rfl, rfl⟩
    · dsimp only
      split
      · exact ⟨_, ledger.moves_clear booked cancelAllWorkingOrders_cleared k⟩
      · exact quiet _ ⟨rfl, rfl, rfl, rfl, rfl, rfl⟩
  | onReconnect => exact quiet _ ⟨rfl, rfl, rfl, rfl, rfl, rfl⟩
  | onMarketData symbolId price timestampNs => exact quiet _ ⟨rfl, rfl, rfl, rfl, rfl, rfl⟩
  | setPosition symbolId position => exact quiet _ ⟨rfl, rfl, rfl, rfl, rfl, rfl⟩
  | checkNewOrder request nowNs => exact ⟨0, ledger.moves_newOrder booked request nowNs k⟩
  | checkReplaceOrder request nowNs => exact ledger.moves_replaceOrder booked request nowNs k
  | releaseOrder clientOrderId => exact ledger.moves_release booked clientOrderId k
  | onExecutionReport report => exact ledger.moves_report booked report k
  | setAuditEnabled enabled => exact quiet _ ⟨rfl, rfl, rfl, rfl, rfl, rfl⟩
  | clearAudit => exact quiet _ ⟨rfl, rfl, rfl, rfl, rfl, rfl⟩

end Steps

end Moves

end RiskGateway

end Asterion
