import Asterion.Lib.SortedMap
import Asterion.Risk.RiskAudit

/-! The portfolio monitor: signed positions with their average cost, marks that the caller gives,
and limits over all symbols. Amounts are exact integers. -/
namespace Asterion
open Lib

/-- A limit of zero is disabled. -/
structure PortfolioRiskLimits where
  maxGrossExposureTicks : Int := 0
  maxNetExposureTicks : Int := 0
  maxSymbolConcentrationBps : Int := 0
  maxLossTicks : Int := 0
  deriving DecidableEq, Repr

inductive PortfolioBreach where
  | none | grossExposure | netExposure | concentration | loss
  deriving DecidableEq, Repr

def portfolioCheckName : PortfolioBreach → Text
  | .none => text "portfolio_accepted"
  | .grossExposure => text "portfolio_gross_exposure"
  | .netExposure => text "portfolio_net_exposure"
  | .concentration => text "portfolio_concentration"
  | .loss => text "portfolio_loss"

def rejectReasonFor : PortfolioBreach → RejectReason
  | .grossExposure => .maxPortfolioGrossExposure
  | .netExposure => .maxPortfolioNetExposure
  | .concentration => .maxSymbolConcentration
  | .loss => .maxPortfolioLoss
  | .none => .none

structure PortfolioCheckResult where
  accepted : Bool := true
  breach : PortfolioBreach := .none
  symbolId : Nat := invalidSymbolId
  limitValue : Int := 0
  observedValue : Int := 0
  deriving DecidableEq, Repr

structure PortfolioSnapshot where
  grossExposureTicks : Int := 0
  netExposureTicks : Int := 0
  realisedPnlTicks : Int := 0
  unrealisedPnlTicks : Int := 0
  totalPnlTicks : Int := 0
  maxConcentrationSymbol : Nat := invalidSymbolId
  maxConcentrationBps : Int := 0
  symbolCount : Nat := 0
  checksum : UInt64 := 0
  deriving DecidableEq, Repr

structure SymbolPosition where
  quantity : Int := 0
  averageCost : Int := 0
  mark : Int := 0
  hasMark : Bool := false
  deriving DecidableEq, Repr

abbrev Positions := SortedMap (fun a b : Nat => a < b) SymbolPosition

def Portfolio.absI64 (value : Int) : Int := if value < 0 then -value else value

theorem Portfolio.absI64_eq (value : Int) : Portfolio.absI64 value = |value| := by
  unfold Portfolio.absI64
  split
  · rw [abs_of_neg ‹_›]
  · rw [abs_of_nonneg (by omega)]

def markOf (position : SymbolPosition) : Int :=
  if position.hasMark then position.mark else position.averageCost

section Fill
variable (position : SymbolPosition) (realisedPnl : Int) (side : Side) (quantity priceTicks : Int)

def signedQuantity : Int := if side = .buy then quantity else -quantity

/-- Whether a signed quantity opens or extends the position. -/
def SymbolPosition.Extending (signedQty : Int) : Prop :=
  (0 ≤ position.quantity ∧ 0 < signedQty) ∨ (position.quantity ≤ 0 ∧ signedQty < 0)

instance (signedQty : Int) : Decidable (position.Extending signedQty) :=
  inferInstanceAs (Decidable (_ ∨ _))

def SymbolPosition.totalCost : Int :=
  position.averageCost * Portfolio.absI64 position.quantity + priceTicks * quantity

/-- The position and the realised amount behind a fill; the division is that of the machine. -/
def applyFillTo : SymbolPosition × Int :=
  if quantity ≤ 0 ∨ isValidSide side = false then (position, realisedPnl)
  else
    let signedQty := signedQuantity side quantity
    let current := position.quantity
    if position.Extending signedQty then
      let newQty := current + signedQty
      let averageCost :=
        if newQty = 0 then 0
        else (position.totalCost quantity priceTicks).tdiv (Portfolio.absI64 newQty)
      ({ position with averageCost, quantity := newQty }, realisedPnl)
    else
      let closingQty := min quantity (Portfolio.absI64 current)
      let realisedPnl :=
        if 0 < current then realisedPnl + (priceTicks - position.averageCost) * closingQty
        else realisedPnl + (position.averageCost - priceTicks) * closingQty
      let newSigned := current + signedQty
      let averageCost :=
        if newSigned = 0 then 0
        else if (0 < current ∧ newSigned < 0) ∨ (current < 0 ∧ 0 < newSigned) then priceTicks
        else position.averageCost
      ({ position with averageCost, quantity := newSigned }, realisedPnl)

end Fill

/-- The loop over the shares of the gross exposure, in `evaluate` and in `snapshot`. -/
def worstConcentration (gross : Int) (positions : Positions) : Nat × Int :=
  positions.entries.foldl (fun worst entry =>
    let symbolGross := Portfolio.absI64 entry.2.quantity * markOf entry.2
    let bps := (symbolGross * 10000).tdiv gross
    if worst.2 < bps then (entry.1, bps) else worst) (invalidSymbolId, 0)

structure PortfolioRiskMonitor where
  limits : PortfolioRiskLimits := {}
  positions : Positions := .empty
  realisedPnl : Int := 0
  audit : RiskAuditTrail := {}
  recordAudit : Bool := false

namespace PortfolioRiskMonitor
variable (monitor : PortfolioRiskMonitor)

def active : Bool :=
  decide (0 < monitor.limits.maxGrossExposureTicks ∨ 0 < monitor.limits.maxNetExposureTicks ∨
    0 < monitor.limits.maxSymbolConcentrationBps ∨ 0 < monitor.limits.maxLossTicks)

def setMark (symbolId : Nat) (markTicks : Int) : PortfolioRiskMonitor :=
  { monitor with
    positions := monitor.positions.upsert symbolId {} (fun position =>
      { position with mark := markTicks, hasMark := true }) }

def setPosition (symbolId : Nat) (signedQuantity averageCostTicks : Int) : PortfolioRiskMonitor :=
  { monitor with
    positions := monitor.positions.upsert symbolId {} (fun position =>
      { position with quantity := signedQuantity, averageCost := averageCostTicks }) }

/-- The position of a symbol, created by `operator[]` where there is none. -/
def positionOf (symbolId : Nat) : SymbolPosition := (monitor.positions.find? symbolId).getD {}

def applyFill (symbolId : Nat) (side : Side) (quantity priceTicks : Int) : PortfolioRiskMonitor :=
  let (position, realisedPnl) :=
    applyFillTo (monitor.positionOf symbolId) monitor.realisedPnl side quantity priceTicks
  { monitor with
    positions := monitor.positions.upsert symbolId {} (fun _ => position), realisedPnl }

def grossExposureTicks : Int :=
  monitor.positions.entries.foldl (fun gross entry =>
    gross + Portfolio.absI64 entry.2.quantity * markOf entry.2) 0

def netExposureTicks : Int :=
  Portfolio.absI64 (monitor.positions.entries.foldl (fun net entry =>
    net + entry.2.quantity * markOf entry.2) 0)

def unrealisedPnlTicks : Int :=
  monitor.positions.entries.foldl (fun pnl entry =>
    pnl + (markOf entry.2 - entry.2.averageCost) * entry.2.quantity) 0

def totalPnlTicks : Int := monitor.realisedPnl + monitor.unrealisedPnlTicks

def evaluate (positions : Positions) (realisedPnl : Int) : PortfolioCheckResult :=
  let limits := monitor.limits
  let (gross, net, unrealised) := positions.entries.foldl (fun sums entry =>
    let mark := markOf entry.2
    (sums.1 + Portfolio.absI64 entry.2.quantity * mark, sums.2.1 + entry.2.quantity * mark,
      sums.2.2 + (mark - entry.2.averageCost) * entry.2.quantity)) ((0, 0, 0) : Int × Int × Int)
  let net := Portfolio.absI64 net
  let totalPnl := realisedPnl + unrealised
  if 0 < limits.maxGrossExposureTicks ∧ limits.maxGrossExposureTicks < gross then
    { accepted := false, breach := .grossExposure, limitValue := limits.maxGrossExposureTicks
      observedValue := gross }
  else if 0 < limits.maxNetExposureTicks ∧ limits.maxNetExposureTicks < net then
    { accepted := false, breach := .netExposure, limitValue := limits.maxNetExposureTicks
      observedValue := net }
  else
    let worst := worstConcentration gross positions
    if (0 < limits.maxSymbolConcentrationBps ∧ 0 < gross) ∧
        limits.maxSymbolConcentrationBps < worst.2 then
      { accepted := false, breach := .concentration, symbolId := worst.1
        limitValue := limits.maxSymbolConcentrationBps, observedValue := worst.2 }
    else if 0 < limits.maxLossTicks ∧ totalPnl ≤ -limits.maxLossTicks then
      { accepted := false, breach := .loss, limitValue := limits.maxLossTicks
        observedValue := -totalPnl }
    else {}

/-- The limits on a copy of the positions that has the order filled. -/
def evaluateOrder (symbolId : Nat) (side : Side) (quantity priceTicks : Int) :
    PortfolioCheckResult :=
  let (position, realised) :=
    applyFillTo (monitor.positionOf symbolId) monitor.realisedPnl side quantity priceTicks
  let hypothetical := monitor.positions.upsert symbolId {} (fun _ => position)
  monitor.evaluate hypothetical realised

def evaluateState : PortfolioCheckResult := monitor.evaluate monitor.positions monitor.realisedPnl

def checkOrder (symbolId : Nat) (side : Side) (quantity priceTicks nowNs : Int) :
    PortfolioCheckResult × PortfolioRiskMonitor :=
  let result := monitor.evaluateOrder symbolId side quantity priceTicks
  if monitor.recordAudit then
    let entry : RiskAuditEntry :=
      { timestampNs := .ofInt nowNs, symbolId := .ofNat symbolId, side, accepted := result.accepted
        rejectReason := rejectReasonFor result.breach, checkName := portfolioCheckName result.breach
        limitValue := .ofInt result.limitValue, observedValue := .ofInt result.observedValue }
    (result, { monitor with audit := monitor.audit.record entry })
  else (result, monitor)

def snapshotChecksum : UInt64 :=
  let seed := fnvOffsetBasis
  let seed := checksumAppend 8 seed monitor.limits.maxGrossExposureTicks
  let seed := checksumAppend 8 seed monitor.limits.maxNetExposureTicks
  let seed := checksumAppend 8 seed monitor.limits.maxSymbolConcentrationBps
  let seed := checksumAppend 8 seed monitor.limits.maxLossTicks
  let seed := checksumAppend 8 seed monitor.realisedPnl
  let seed := checksumAppend 8 seed monitor.positions.entries.length
  monitor.positions.entries.foldl (fun seed entry =>
    let seed := checksumAppend 4 seed entry.1
    let seed := checksumAppend 8 seed entry.2.quantity
    let seed := checksumAppend 8 seed entry.2.averageCost
    let seed := checksumAppend 8 seed entry.2.mark
    checksumAppend 1 seed (if entry.2.hasMark then 1 else 0)) seed

def snapshot : PortfolioSnapshot :=
  let gross := monitor.grossExposureTicks
  let worst :=
    if 0 < gross then worstConcentration gross monitor.positions else (invalidSymbolId, 0)
  { grossExposureTicks := gross, netExposureTicks := monitor.netExposureTicks
    realisedPnlTicks := monitor.realisedPnl, unrealisedPnlTicks := monitor.unrealisedPnlTicks
    totalPnlTicks := monitor.realisedPnl + monitor.unrealisedPnlTicks
    maxConcentrationSymbol := worst.1, maxConcentrationBps := worst.2
    symbolCount := monitor.positions.entries.length, checksum := monitor.snapshotChecksum }

end PortfolioRiskMonitor
end Asterion
