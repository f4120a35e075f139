import Coplanar.Scalar

/-! What a caller can choose about a corrector. -/
namespace Coplanar

structure Settings (α : Type) where
  /-- In wavelengths. -/
  wTolerance : α
  /-- Refuse rows that are left out of tolerance. -/
  checkResidual : Bool
  /-- Fit for a moment ahead. -/
  predict : Bool
  /-- Seconds per step of the search ahead. -/
  interval : α
  maxSteps : Nat
  /-- Tangent points closer than this are the same. -/
  tangentTolerance : α
  verbose : Bool
deriving DecidableEq, Repr

structure Settings.InRange {α : Type} [Scalar α] (s : Settings α) : Prop where
  wTolerance_pos : Scalar.less 0 s.wTolerance = true
  interval_pos : Scalar.less 0 s.interval = true
  maxSteps_pos : 0 < s.maxSteps
  tangentTolerance_nonneg : Scalar.less s.tangentTolerance 0 = false
  tangentTolerance_le_pi : Scalar.less Scalar.pi s.tangentTolerance = false

end Coplanar
