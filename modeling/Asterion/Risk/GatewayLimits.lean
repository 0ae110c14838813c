import Asterion.Risk.GatewaySteps
import Asterion.Risk.PortfolioOverflow

/-! The limits of the gateway over the integers. The checks compute in words; where the values
they compare are within a word's magnitude, what has passed them is within the limits exactly. -/
namespace Asterion

open Lib

namespace RiskGateway

def HasWord (x : Int) : Prop := -2 ^ 63 < x ∧ x < 2 ^ 63

instance (x : Int) : Decidable (HasWord x) := inferInstanceAs (Decidable (_ ∧ _))

theorem HasWord.wrap {x : Int} (h : HasWord x) : wrap64 x = x := wrap64_eq h.1.le h.2

theorem HasWord.neg {x : Int} (h : HasWord x) : HasWord (-x) := by
  obtain ⟨low, high⟩ := h
  exact ⟨by omega, by omega⟩

theorem HasWord.abs {x : Int} (h : HasWord x) : absI64 wrap64 (wrap64 x) = absI64 id x := by
  rw [h.wrap]
  unfold absI64
  split
  · exact h.neg.wrap
  · rfl

theorem absI64_modEq (x : Int) : absI64 wrap64 x ≡ absI64 id x [ZMOD 2 ^ 64] := by
  unfold absI64
  split
  · exact wrap64_modEq (-x)
  · exact Int.ModEq.refl x

theorem signedDelta_modEq (side : Side) (quantity : Int) :
    signedDelta wrap64 side quantity ≡ signedDelta id side quantity [ZMOD 2 ^ 64] := by
  unfold signedDelta
  split
  · exact Int.ModEq.refl quantity
  · exact wrap64_modEq (-quantity)

section Values
variable (g : RiskGateway) (request : NewOrderRequest)

/-- The sum may leave the word on the way, as long as it ends in it. -/
theorem gross_word (entries : List (Sigma fun _ : Nat => Int)) {word whole : Int}
    (same : word = wrap64 whole) :
    entries.foldl (fun gross position =>
        match g.marketState.lookup position.1 with
        | none => gross
        | some market =>
          wrap64 (gross + wrap64 (absI64 wrap64 position.2 * market.referencePriceTicks))) word =
      wrap64 (entries.foldl (fun gross position =>
        match g.marketState.lookup position.1 with
        | none => gross
        | some market =>
          id (gross + id (absI64 id position.2 * market.referencePriceTicks))) whole) := by
  induction entries generalizing word whole with
  | nil => exact same
  | cons position entries ih =>
    apply ih
    dsimp only
    cases g.marketState.lookup position.1 with
    | none => exact same
    | some market =>
      apply wrap64_congr
      have product := (absI64_modEq position.2).mul_right market.referencePriceTicks
      exact (same ▸ wrap64_modEq whole).add ((wrap64_modEq _).trans product)

theorem notional_exact (fits : HasWord (notionalFor id g request)) :
    notionalFor wrap64 g request = notionalFor id g request := by
  unfold notionalFor at fits ⊢
  dsimp only [id] at fits ⊢
  generalize (if request.orderType = .market then
    match g.marketState.lookup request.symbolId with
    | none => 0
    | some market => market.referencePriceTicks
    else request.priceTicks) * request.quantity = value at fits ⊢
  have whole : HasWord value := by
    unfold absI64 at fits
    split at fits
    · exact neg_neg value ▸ fits.neg
    · exact fits
  exact whole.abs

theorem gross_exact (notional : HasWord (notionalFor id g request))
    (fits : HasWord (grossExposureWith id g request)) :
    grossExposureWith wrap64 g request = grossExposureWith id g request := by
  have same := notional_exact g request notional
  have sums := g.gross_word g.positions.entries (same.trans notional.wrap.symm)
  calc grossExposureWith wrap64 g request
      = wrap64 (grossExposureWith id g request) := sums
    _ = grossExposureWith id g request := fits.wrap

theorem position_exact (position : Int)
    (fits : HasWord (position + signedDelta id request.side request.quantity)) :
    absI64 wrap64 (wrap64 (position + signedDelta wrap64 request.side request.quantity)) =
      absI64 id (id (position + signedDelta id request.side request.quantity)) := by
  have same := wrap64_congr ((signedDelta_modEq request.side request.quantity).add_left position)
  rw [same]
  exact fits.abs

end Values

/-- The values the checks compare with the limits, over the integers, are words. -/
structure ComputesWords (g : RiskGateway) (request : NewOrderRequest) (nowNs : Int) : Prop where
  age : ∀ market, g.marketState.lookup request.symbolId = some market →
    HasWord (nowNs - market.lastTimestampNs)
  distance : ∀ market, g.marketState.lookup request.symbolId = some market →
    HasWord (request.priceTicks - market.referencePriceTicks)
  notional : HasWord (notionalFor id g request)
  position : HasWord
    (g.position request.symbolId + signedDelta id request.side request.quantity)
  gross : HasWord (grossExposureWith id g request)

section Checks
variable {g : RiskGateway} {request : NewOrderRequest} {nowNs : Int} {market : MarketState}

theorem ComputesWords.withinLimits_iff (words : ComputesWords g request nowNs) :
    WithinLimits wrap64 g request nowNs market ↔ WithinLimits id g request nowNs market := by
  have notional := notional_exact g request words.notional
  have position := position_exact request _ words.position
  have gross := gross_exact g request words.notional words.gross
  constructor
  · intro h
    have age := (words.age market h.known).wrap
    have distance := (words.distance market h.known).abs
    exact ⟨h.quantity, h.known, fun on => age ▸ h.fresh on, fun limit => distance ▸ h.band limit,
      notional ▸ h.notional, h.selfTrade, position ▸ h.position, gross ▸ h.gross⟩
  · intro h
    have age := (words.age market h.known).wrap
    have distance := (words.distance market h.known).abs
    exact ⟨h.quantity, h.known, fun on => age.symm ▸ h.fresh on,
      fun limit => distance.symm ▸ h.band limit, notional.symm ▸ h.notional, h.selfTrade,
      position.symm ▸ h.position, gross.symm ▸ h.gross⟩

theorem NewOrderPassed.exact (passed : NewOrderPassed wrap64 g request nowNs)
    (words : ComputesWords g request nowNs)
    (working : HasWord (g.workingQuantityOf request.symbolId + request.quantity)) :
    NewOrderPassed id g request nowNs := by
  obtain ⟨market, within⟩ := passed.limits
  exact ⟨passed.isOpen, passed.positive, passed.priced, passed.unused,
    ⟨market, words.withinLimits_iff.mp within⟩,
    fun on limit gtc => working.wrap ▸ passed.working on limit gtc⟩

theorem ReplacePassed.exact {request : ReplaceOrderRequest} {clientOrderId : Nat}
    {existing : WorkingOrder} (passed : ReplacePassed wrap64 g request nowNs clientOrderId existing)
    (words : ComputesWords g (replacementFor existing request) nowNs)
    (working : HasWord
      (g.workingQuantityOf existing.symbolId - existing.quantity + request.newQuantity)) :
    ReplacePassed id g request nowNs clientOrderId existing := by
  obtain ⟨market, within⟩ := passed.limits
  refine ⟨passed.isOpen, passed.positive, passed.priced, passed.unused, passed.mapped,
    passed.order, ⟨market, words.withinLimits_iff.mp within⟩, fun on => ?_⟩
  have h := passed.working on
  rw [wrap64_wraps, working.wrap] at h
  exact h

end Checks

/-- The values that a replacement computes are words, for the order it replaces. -/
def ReplaceComputesWords (g : RiskGateway) (request : ReplaceOrderRequest) (nowNs : Int) : Prop :=
  ∀ clientOrderId existing, g.exchangeToClientOrderIds.lookup request.exchangeOrderId =
      some clientOrderId → g.workingOrders.lookup clientOrderId = some existing →
    ComputesWords g (replacementFor existing request) nowNs ∧
      HasWord (g.workingQuantityOf existing.symbolId - existing.quantity + request.newQuantity)

/-- What either check accepts is within every limit over the integers, from any state. -/
theorem accepted_within_exact_limits (g : RiskGateway) (nowNs : Int) :
    (∀ request, ComputesWords g request nowNs →
      HasWord (g.workingQuantityOf request.symbolId + request.quantity) →
      (checkNewOrder wrap64 g request nowNs).2.accepted = true →
        NewOrderPassed id g request nowNs) ∧
    ∀ request, g.ReplaceComputesWords request nowNs →
      (checkReplaceOrder wrap64 g request nowNs).2.accepted = true →
        ∃ clientOrderId existing, ReplacePassed id g request nowNs clientOrderId existing := by
  constructor
  · intro request words working accepted
    rcases checkNewOrder_outcome wrap64 g nowNs request with rejected | ⟨-, passed, -⟩
    · rw [rejected.rejected] at accepted
      cases accepted
    · exact passed.exact words working
  · intro request words accepted
    rcases checkReplaceOrder_outcome wrap64 g nowNs request with
      rejected | ⟨clientOrderId, existing, -, passed, -⟩
    · rw [rejected.rejected] at accepted
      cases accepted
    · obtain ⟨computes, working⟩ := words clientOrderId existing passed.mapped passed.order
      exact ⟨clientOrderId, existing, passed.exact computes working⟩

def quoting : RiskGateway :=
  { limits := { maxOpenOrderQuantity := 20 }
    marketState := AList.insert 1 { referencePriceTicks := 100 } ∅
    positions := AList.insert 1 (-30) ∅
    workingQuantity := AList.insert 1 5 ∅
    workingOrders := AList.insert 1
      { exchangeOrderId := 7, symbolId := 1, side := .sell, priceTicks := 100, quantity := 5 } ∅
    exchangeToClientOrderIds := AList.insert 7 1 ∅ }

theorem quoting_computes (request : NewOrderRequest) (symbol : request.symbolId = 1)
    (price : HasWord (request.priceTicks - 100))
    (others : HasWord (notionalFor id quoting request) ∧
      HasWord (quoting.position request.symbolId + signedDelta id request.side request.quantity) ∧
      HasWord (grossExposureWith id quoting request)) : ComputesWords quoting request 10 := by
  have market : quoting.marketState.lookup request.symbolId =
      some { referencePriceTicks := 100 } := by
    rw [symbol]
    rfl
  refine ⟨fun m known => ?_, fun m known => ?_, others.1, others.2.1, others.2.2⟩
  · cases Option.some.inj (market.symm.trans known)
    decide
  · cases Option.some.inj (market.symm.trans known)
    exact price

theorem accepted_within_exact_limits_quoting :
    NewOrderPassed id quoting
        { clientOrderId := 2, symbolId := 1, side := .sell, priceTicks := 101, quantity := 10 } 10 ∧
      ∃ clientOrderId existing, ReplacePassed id quoting
        { clientOrderId := 3, exchangeOrderId := 7, newPriceTicks := 99, newQuantity := 8 } 10
        clientOrderId existing := by
  refine ⟨(accepted_within_exact_limits quoting 10).1 _
      (quoting_computes _ rfl (by decide) (by decide)) (by decide) (by decide),
    (accepted_within_exact_limits quoting 10).2 _ (fun clientOrderId existing mapped order => ?_)
      (by decide)⟩
  cases Option.some.inj (show some 1 = some clientOrderId from mapped)
  cases Option.some.inj order
  exact ⟨quoting_computes _ rfl (by decide) (by decide), by decide⟩

/-- Without the condition a notional of 2^64 ticks passes as zero. -/
example :
    let g : RiskGateway :=
      { limits := { maxOrderQuantity := 2 ^ 32, maxPositionPerSymbol := 2 ^ 32 }
        marketState := AList.insert 1 { referencePriceTicks := 2 ^ 32 } ∅ }
    let request : NewOrderRequest :=
      { clientOrderId := 1, symbolId := 1, side := .buy, priceTicks := 2 ^ 32, quantity := 2 ^ 32 }
    (checkNewOrder wrap64 g request 0).2.accepted = true ∧
      ¬ notionalFor id g request ≤ g.limits.maxNotionalTicks := by
  decide

end RiskGateway
end Asterion
