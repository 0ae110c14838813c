import Asterion.Risk.WorkingTables
import Asterion.Lib.InverseIndex

/-! The index from exchange ids to working orders. Engines number their orders on their own, so a
report can bind an order to an id that another working order has; the index is the inverse of the
ids on the orders exactly as long as no report does. -/
namespace Asterion
open Lib Lib.Tally Lib.Along Lib.InverseIndex

namespace RiskGateway

def boundId (order : WorkingOrder) : Option Nat :=
  if order.exchangeOrderId = invalidOrderId then none else some order.exchangeOrderId

theorem boundId_eq_some {order : WorkingOrder} {x : Nat} :
    boundId order = some x ↔ order.exchangeOrderId ≠ invalidOrderId ∧ order.exchangeOrderId = x := by
  unfold boundId
  split
  · rename_i unbound
    exact ⟨fun h => absurd h (Option.some_ne_none x).symm, fun h => absurd unbound h.1⟩
  · rename_i bound
    exact ⟨fun h => ⟨bound, Option.some.inj h⟩, fun h => congrArg some h.2⟩

theorem boundId_resized {order : WorkingOrder} {price quantity : Int} :
    boundId { order with priceTicks := price, quantity := quantity } = boundId order := rfl

/-- Each exchange id leads to the one working order that carries it. -/
def Indexed (g : RiskGateway) : Prop :=
  ∀ exchangeOrderId clientOrderId,
    g.exchangeToClientOrderIds.lookup exchangeOrderId = some clientOrderId ↔
      exchangeOrderId ≠ invalidOrderId ∧
        ∃ order, g.workingOrders.lookup clientOrderId = some order ∧
          order.exchangeOrderId = exchangeOrderId

theorem indexed_iff {g : RiskGateway} :
    Indexed g ↔ Inverse boundId g.exchangeToClientOrderIds g.workingOrders := by
  have side : ∀ x c, (x ≠ invalidOrderId ∧ ∃ order, g.workingOrders.lookup c = some order ∧
      order.exchangeOrderId = x) ↔
        ∃ order, g.workingOrders.lookup c = some order ∧ boundId order = some x := by
    intro x c
    constructor
    · rintro ⟨valid, order, found, rfl⟩
      exact ⟨order, found, boundId_eq_some.mpr ⟨valid, rfl⟩⟩
    · rintro ⟨order, found, bound⟩
      obtain ⟨valid, rfl⟩ := boundId_eq_some.mp bound
      exact ⟨valid, order, found, rfl⟩
  exact forall_congr' (fun x => forall_congr' (fun c => by rw [side]))

/-- A report that keeps an order working carries no exchange id that another working order has. -/
def BindsFresh (g : RiskGateway) (operation : Operation) : Prop :=
  ∀ report, operation = .onExecutionReport report → report.clientOrderId ≠ invalidClientOrderId →
    report.exchangeOrderId ≠ invalidOrderId → closesOrder report = false →
    ∀ clientOrderId order, findReported g report = some (clientOrderId, order) →
      ∀ clientOrderId' order', g.workingOrders.lookup clientOrderId' = some order' →
        order'.exchangeOrderId = report.exchangeOrderId → clientOrderId' = clientOrderId

section Steps
variable {fit : Int → Int} {g : RiskGateway} {clientOrderId : Nat} {order : WorkingOrder}

/-- Working orders have accepted ids, and the index is the inverse of their exchange ids. -/
structure Mapped (g : RiskGateway) : Prop where
  accepted : ∀ {id order}, g.workingOrders.lookup id = some order → id ∈ g.acceptedClientOrderIds
  inverse : Inverse boundId g.exchangeToClientOrderIds g.workingOrders

theorem untag_boundId {index : AList (fun _ : Nat => Nat)} :
    (if order.exchangeOrderId ≠ invalidOrderId then index.erase order.exchangeOrderId else index) =
      untag index (boundId order) := by
  unfold boundId
  by_cases unbound : order.exchangeOrderId = invalidOrderId
  · rw [if_neg (not_not.mpr unbound), if_pos unbound]
    rfl
  · rw [if_pos unbound, if_neg unbound]
    rfl

/-- Binding an id keeps the index the inverse exactly where no other working order has the id. -/
theorem bindExchangeOrderId_inverse {exchangeOrderId : Nat}
    (inverse : Inverse boundId g.exchangeToClientOrderIds g.workingOrders)
    (found : g.workingOrders.lookup clientOrderId = some order)
    (bound : exchangeOrderId ≠ invalidOrderId) :
    Inverse boundId (bindExchangeOrderId g clientOrderId order exchangeOrderId).exchangeToClientOrderIds
        (bindExchangeOrderId g clientOrderId order exchangeOrderId).workingOrders ↔
      ∀ clientOrderId' order', g.workingOrders.lookup clientOrderId' = some order' →
        order'.exchangeOrderId = exchangeOrderId → clientOrderId' = clientOrderId := by
  unfold bindExchangeOrderId
  by_cases same : order.exchangeOrderId = exchangeOrderId
  · have here : boundId order = some exchangeOrderId := boundId_eq_some.mpr ⟨same ▸ bound, same⟩
    rw [if_pos (Or.inr same)]
    refine ⟨fun _ id other lookup carries => ?_, fun _ => inverse⟩
    exact inverse.unique lookup (boundId_eq_some.mpr ⟨carries ▸ bound, carries⟩) found here
  · have changes : boundId order ≠ some exchangeOrderId :=
      fun h => same (boundId_eq_some.mp h).2
    have tagged : boundId { order with exchangeOrderId } = some exchangeOrderId :=
      boundId_eq_some.mpr ⟨bound, rfl⟩
    rw [if_neg (fun h => h.elim bound same)]
    dsimp only [setOrder]
    rw [untag_boundId, inverse.retag found changes tagged]
    constructor
    · intro free id other lookup carries
      exact absurd (boundId_eq_some.mpr ⟨carries ▸ bound, carries⟩) (free id other lookup)
    · intro free id other lookup carries
      have only := free id other lookup (boundId_eq_some.mp carries).2
      rw [only, found] at lookup
      obtain rfl := Option.some.inj lookup
      exact changes carries

theorem Mapped.register (mapped : Mapped g) {request : NewOrderRequest}
    (accepted : request.clientOrderId ∈ g.acceptedClientOrderIds)
    (fresh : g.workingOrders.lookup request.clientOrderId = none) :
    Mapped (registerWorkingOrder fit g request) := by
  unfold registerWorkingOrder
  split
  · exact mapped
  dsimp only
  obtain ⟨quantities, books, frame⟩ := @addWorkingOrderQuantity_frame fit
    (g.setOrder request.clientOrderId
      { clientId := request.clientId, symbolId := request.symbolId, side := request.side
        priceTicks := request.priceTicks, quantity := request.quantity })
    { clientId := request.clientId, symbolId := request.symbolId, side := request.side
      priceTicks := request.priceTicks, quantity := request.quantity } request.quantity
  rw [frame]
  refine ⟨fun h => ?_, mapped.inverse.insert_untagged fresh rfl⟩
  rcases lookup_insert_cases h with ⟨rfl, -⟩ | old
  · exact accepted
  · exact mapped.accepted old

theorem Mapped.resize (mapped : Mapped g) {price quantity : Int}
    (found : g.workingOrders.lookup clientOrderId = some order) :
    Mapped (resizeOrder fit g clientOrderId order price quantity) := by
  obtain ⟨quantities, books, frame⟩ := @resizeOrder_frame fit g order clientOrderId price quantity
  rw [frame]
  refine ⟨fun h => ?_, (inverse_insert_same found boundId_resized).mpr mapped.inverse⟩
  rcases lookup_insert_cases h with ⟨rfl, -⟩ | old
  · exact mapped.accepted found
  · exact mapped.accepted old

theorem Mapped.release (mapped : Mapped g) (clientOrderId : Nat) :
    Mapped (releaseOrder fit g clientOrderId) := by
  unfold releaseOrder
  split
  · exact mapped
  rename_i order found
  obtain ⟨quantities, books, frame⟩ :=
    @releaseWorkingOrderQuantity_frame fit g order order.quantity
  dsimp only
  rw [frame, untag_boundId]
  refine ⟨fun {id order} h => ?_, mapped.inverse.erase found⟩
  rcases eq_or_ne id clientOrderId with rfl | other
  · rw [AList.lookup_erase] at h
    cases h
  · rw [AList.lookup_erase_ne other] at h
    exact mapped.accepted h

theorem bindExchangeOrderId_accepted (mapped : Mapped g) {exchangeOrderId : Nat}
    (found : g.workingOrders.lookup clientOrderId = some order) {id : Nat} {order' : WorkingOrder}
    (h : (bindExchangeOrderId g clientOrderId order exchangeOrderId).workingOrders.lookup id =
      some order') :
    id ∈ (bindExchangeOrderId g clientOrderId order exchangeOrderId).acceptedClientOrderIds := by
  unfold bindExchangeOrderId at h ⊢
  split at h
  · rename_i unchanged
    rw [if_pos unchanged]
    exact mapped.accepted h
  · rename_i changed
    rw [if_neg changed]
    rcases lookup_insert_cases h with ⟨rfl, -⟩ | old
    · exact mapped.accepted found
    · exact mapped.accepted old

theorem mapped_kept : KeptBy fit BindsFresh Mapped where
  same {g g'} mapped same := by
    constructor
    · rw [same.orders, same.accepted]
      exact mapped.accepted
    · rw [same.orders, same.index]
      exact mapped.inverse
  cleared {g g'} _ cleared _ _ := by
    constructor
    · intro id order h
      rw [cleared.orders] at h
      cases h
    · rw [cleared.orders, cleared.index]
      exact inverse_empty
  limits mapped _ := ⟨mapped.accepted, mapped.inverse⟩
  accepted id mapped := ⟨fun h => Finset.mem_insert_of_mem (mapped.accepted h), mapped.inverse⟩
  admitted {g request} mapped unused _ := by
    have fresh : g.workingOrders.lookup request.clientOrderId = none := by
      cases h : g.workingOrders.lookup request.clientOrderId with
      | none => rfl
      | some order => exact absurd (mapped.accepted h) unused
    have inserted : Mapped { g with
        acceptedClientOrderIds := insert request.clientOrderId g.acceptedClientOrderIds } :=
      ⟨fun h => Finset.mem_insert_of_mem (mapped.accepted h), mapped.inverse⟩
    unfold admitted
    dsimp only
    split
    · exact inserted.register (Finset.mem_insert_self _ _) fresh
    · exact inserted
  resized mapped found _ := mapped.resize found
  released id mapped := mapped.release id
  bound {g report id order} mapped fresh attributed found open_ := by
    have lookup := findReported_lookup found
    refine ⟨bindExchangeOrderId_accepted mapped lookup, ?_⟩
    by_cases bound : report.exchangeOrderId = invalidOrderId
    · unfold bindExchangeOrderId
      rw [if_pos (Or.inl bound)]
      exact mapped.inverse
    · rw [bindExchangeOrderId_inverse mapped.inverse lookup bound]
      exact fresh report rfl attributed bound open_ id order found

/-- After a report the index is the inverse of the exchange ids only where the report was fresh. -/
theorem bindsFresh_of_report (mapped : Mapped g) {report : ExecutionReport}
    (after : Indexed (onExecutionReport fit g report)) :
    BindsFresh g (.onExecutionReport report) := by
  intro _ same attributed bound open_ id order found
  obtain rfl := Operation.onExecutionReport.inj same
  have lookup := findReported_lookup found
  rw [← bindExchangeOrderId_inverse mapped.inverse lookup bound]
  have resting := bindExchangeOrderId_lookup lookup report.exchangeOrderId
  rw [indexed_iff] at after
  obtain ⟨price, -, result⟩ := @onExecutionReport_open fit g report id order attributed found open_
  rw [result] at after
  split at after
  · obtain ⟨quantities, books, frame⟩ := @resizeOrder_frame fit
      (bindExchangeOrderId g id order report.exchangeOrderId)
      (withExchangeId order report.exchangeOrderId) id price report.remainingQuantity
    rw [frame] at after
    exact (inverse_insert_same resting boundId_resized).mp after
  · exact after

/-- A replacement for an exchange id is checked against, and resizes, the order that carries it. -/
def ReplacesMeant (fit : Int → Int) (g : RiskGateway) : Prop :=
  ∀ request nowNs clientOrderId order, g.workingOrders.lookup clientOrderId = some order →
    order.exchangeOrderId ≠ invalidOrderId → request.exchangeOrderId = order.exchangeOrderId →
    (checkReplaceOrder fit g request nowNs).2.accepted = true →
      ReplaceAccepted fit g nowNs request clientOrderId order (checkReplaceOrder fit g request nowNs)

theorem Indexed.replacesMeant (indexed : Indexed g) : ReplacesMeant fit g := by
  intro request nowNs id order found bound same accepted
  have mapped := (indexed request.exchangeOrderId id).mpr ⟨same ▸ bound, order, found, same.symm⟩
  rcases checkReplaceOrder_outcome fit g nowNs request with ⟨rejected, -⟩ | ⟨id', order', passed⟩
  · rw [rejected] at accepted
    cases accepted
  · have checks := passed.2.1
    obtain rfl := Option.some.inj (mapped.symm.trans checks.mapped)
    obtain rfl := Option.some.inj (found.symm.trans checks.order)
    exact passed

/-- An order that has an exchange id has one as long as it works. -/
def StaysBound (fit : Int → Int) (g : RiskGateway) (operation : Operation) : Prop :=
  ∀ clientOrderId order order', g.workingOrders.lookup clientOrderId = some order →
    (step fit g operation).workingOrders.lookup clientOrderId = some order' →
    order.exchangeOrderId ≠ invalidOrderId → order'.exchangeOrderId ≠ invalidOrderId

/-- Working orders have accepted ids, and the one under this id, if any, has an exchange id. -/
structure KnownBound (clientOrderId : Nat) (g : RiskGateway) : Prop where
  accepted : ∀ {id order}, g.workingOrders.lookup id = some order → id ∈ g.acceptedClientOrderIds
  known : clientOrderId ∈ g.acceptedClientOrderIds
  bound : ∀ {order}, g.workingOrders.lookup clientOrderId = some order →
    order.exchangeOrderId ≠ invalidOrderId

/-- An order that is put in its own place keeps the exchange id it has. -/
theorem KnownBound.insert {id : Nat} {g' : RiskGateway} (known : KnownBound clientOrderId g)
    (found : g.workingOrders.lookup id = some order) {order' : WorkingOrder}
    (keeps : order.exchangeOrderId ≠ invalidOrderId → order'.exchangeOrderId ≠ invalidOrderId)
    (orders : g'.workingOrders = g.workingOrders.insert id order')
    (accepted : g'.acceptedClientOrderIds = g.acceptedClientOrderIds) :
    KnownBound clientOrderId g' := by
  constructor
  · intro i o h
    rw [orders] at h
    rw [accepted]
    rcases lookup_insert_cases h with ⟨rfl, -⟩ | old
    · exact known.accepted found
    · exact known.accepted old
  · rw [accepted]
    exact known.known
  · intro o h
    rw [orders] at h
    rcases lookup_insert_cases h with ⟨rfl, rfl⟩ | old
    · exact keeps (known.bound found)
    · exact known.bound old

theorem KnownBound.register (known : KnownBound clientOrderId g) {request : NewOrderRequest}
    (accepted : request.clientOrderId ∈ g.acceptedClientOrderIds)
    (other : request.clientOrderId ≠ clientOrderId) :
    KnownBound clientOrderId (registerWorkingOrder fit g request) := by
  unfold registerWorkingOrder
  split
  · exact known
  dsimp only
  obtain ⟨quantities, books, frame⟩ := @addWorkingOrderQuantity_frame fit
    (g.setOrder request.clientOrderId
      { clientId := request.clientId, symbolId := request.symbolId, side := request.side
        priceTicks := request.priceTicks, quantity := request.quantity })
    { clientId := request.clientId, symbolId := request.symbolId, side := request.side
      priceTicks := request.priceTicks, quantity := request.quantity } request.quantity
  rw [frame]
  refine ⟨fun h => ?_, known.known, fun h => ?_⟩
  · rcases lookup_insert_cases h with ⟨rfl, -⟩ | old
    · exact accepted
    · exact known.accepted old
  · rcases lookup_insert_cases h with ⟨same, -⟩ | old
    · exact absurd same.symm other
    · exact known.bound old

theorem knownBound_kept (clientOrderId : Nat) :
    KeptBy fit (fun _ _ => True) (KnownBound clientOrderId) where
  same {g g'} known same := by
    constructor
    · rw [same.orders, same.accepted]
      exact known.accepted
    · rw [same.accepted]
      exact known.known
    · rw [same.orders]
      exact known.bound
  cleared {g g'} known cleared _ accepted := by
    constructor
    · intro id order h
      rw [cleared.orders] at h
      cases h
    · rw [accepted]
      exact known.known
    · intro order h
      rw [cleared.orders] at h
      cases h
  limits known _ := ⟨known.accepted, known.known, known.bound⟩
  accepted id known := ⟨fun h => Finset.mem_insert_of_mem (known.accepted h),
    Finset.mem_insert_of_mem known.known, known.bound⟩
  admitted {g request} known unused _ := by
    have other : request.clientOrderId ≠ clientOrderId := fun same => unused (same ▸ known.known)
    have inserted : KnownBound clientOrderId { g with
        acceptedClientOrderIds := insert request.clientOrderId g.acceptedClientOrderIds } :=
      ⟨fun h => Finset.mem_insert_of_mem (known.accepted h),
        Finset.mem_insert_of_mem known.known, known.bound⟩
    unfold admitted
    dsimp only
    split
    · exact inserted.register (Finset.mem_insert_self _ _) other
    · exact inserted
  resized {g id order price quantity} known found _ := by
    obtain ⟨quantities, books, frame⟩ := @resizeOrder_frame fit g order id price quantity
    have keeps : order.exchangeOrderId ≠ invalidOrderId →
        { order with priceTicks := price, quantity := quantity }.exchangeOrderId ≠ invalidOrderId :=
      fun bound => bound
    rw [frame]
    exact known.insert found keeps rfl rfl
  released {g} id known := by
    cases lookup : g.workingOrders.lookup id with
    | none =>
      unfold releaseOrder
      rw [lookup]
      exact known
    | some order =>
      obtain ⟨quantities, books, index, frame⟩ := @releaseOrder_frame fit g order id lookup
      have looks : ∀ {id' order'}, (g.workingOrders.erase id).lookup id' = some order' →
          g.workingOrders.lookup id' = some order' := lookup_of_erase
      rw [frame]
      exact ⟨fun h => known.accepted (looks h), known.known, fun h => known.bound (looks h)⟩
  bound {g report id order} known _ _ found _ := by
    unfold bindExchangeOrderId
    split
    · exact known
    · rename_i changes
      have valid : report.exchangeOrderId ≠ invalidOrderId := fun h => changes (Or.inl h)
      exact known.insert (findReported_lookup found) (fun _ => valid) rfl rfl

theorem staysBound {g : RiskGateway}
    (accepted : ∀ {id order}, g.workingOrders.lookup id = some order →
      id ∈ g.acceptedClientOrderIds) (operation : Operation) : StaysBound fit g operation := by
  intro id order order' found after bound
  have known : KnownBound id g := by
    refine ⟨accepted, accepted found, fun here => ?_⟩
    obtain rfl := Option.some.inj (found.symm.trans here)
    exact bound
  exact ((knownBound_kept id).perform known operation trivial).bound after

end Steps

/-- The index is the inverse of the exchange ids in every state of a run exactly where each report
binds a fresh id. Then replacements reach the order that is meant, and open orders stay mapped. -/
theorem exchange_index_iff (fit : Int → Int) (limits : RiskLimits) (operations : List Operation) :
    (Always (step fit) (fun g => Indexed g ∧ ReplacesMeant fit g) { limits } operations ∧
        Each (step fit) (StaysBound fit) { limits } operations) ↔
      Each (step fit) BindsFresh { limits } operations := by
  have start : Mapped { limits } := ⟨fun h => absurd h (Option.some_ne_none _).symm, inverse_empty⟩
  have states : Always (step fit) (fun g => Indexed g ∧ ReplacesMeant fit g) { limits } operations ↔
      Each (step fit) BindsFresh { limits } operations := by
    apply always_iff_each (I := Mapped)
    · exact fun g operation mapped _ fresh => mapped_kept.perform mapped operation fresh
    · intro g operation mapped _
      constructor
      · rintro ⟨indexed, -⟩ report rfl
        exact bindsFresh_of_report mapped indexed report rfl
      · intro fresh
        have next : Mapped (step fit g operation) := mapped_kept.perform mapped operation fresh
        have indexed := indexed_iff.mpr next.inverse
        exact ⟨indexed, indexed.replacesMeant⟩
    · exact start
    · exact ⟨indexed_iff.mpr start.inverse, (indexed_iff.mpr start.inverse).replacesMeant⟩
  constructor
  · rintro ⟨indexed, -⟩
    exact states.mp indexed
  · intro fresh
    have mapped : Always (step fit) Mapped { limits } operations :=
      always_of_each (fun g operation mapped fresh => mapped_kept.perform mapped operation fresh)
        start fresh
    refine ⟨states.mpr fresh, each_of_always ?_ mapped⟩
    exact fun g operation mapped => staysBound mapped.accepted operation

section Collision

/-- The reports of an engine of its own on the first order in a symbol. -/
def firstReports (symbolId : Nat) (request : NewOrderRequest) : List Operation :=
  ((MatchingEngine.new symbolId).submitOrder request).reports.map .onExecutionReport

def restingOrder (clientOrderId symbolId : Nat) : NewOrderRequest :=
  { clientOrderId, symbolId, side := .buy, priceTicks := 100, quantity := 10 }

/-- Two symbols, each with an engine of its own, that both number their first order one. -/
def twoEngines : List Operation :=
  [.onMarketData 1 100 0, .onMarketData 2 100 0, .checkNewOrder (restingOrder 1 1) 0,
    .checkNewOrder (restingOrder 2 2) 0] ++
  firstReports 1 (restingOrder 1 1) ++ firstReports 2 (restingOrder 2 2)

theorem exchange_index_fails : ¬ Always (step wrap64) Indexed
    { limits := { maxOpenOrderQuantity := 1000 } } twoEngines := by
  intro always
  have last := always.last
  have first := (last 1 1).mpr ⟨by decide, { symbolId := 1, side := .buy, priceTicks := 100
                                             quantity := 10, exchangeOrderId := 1 },
    by decide, rfl⟩
  exact absurd first (by decide)

end Collision

end RiskGateway

end Asterion
