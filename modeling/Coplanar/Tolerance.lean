import Coplanar.Plane

/-! From a tolerance in wavelengths to one in metres, and the check against it. -/
namespace Coplanar

variable {α : Type} [Scalar α]

def highest? : List α → Option α
  | [] => none
  | f :: rest => some (rest.foldl Scalar.larger f)

/-- The shortest wavelength is the strictest: it belongs to the highest channel. -/
def toleranceInMetres (wTolerance : α) (channels : List α) : Except (Fault α) α :=
  match highest? channels with
  | none => .error .noChannels
  | some f =>
    if Scalar.less 0 f then .ok (wTolerance * speedOfLight / f)
    else .error (.noPositiveFrequency f)

theorem toleranceInMetres_eq_ok {wTolerance tolerance : α} {channels : List α}
    (h : toleranceInMetres wTolerance channels = .ok tolerance) :
    ∃ highest, highest? channels = some highest ∧ Scalar.less 0 highest = true ∧
      wTolerance * speedOfLight / highest = tolerance := by
  unfold toleranceInMetres at h
  split at h
  · cases h
  · rename_i highest hhighest
    split at h
    · rename_i hpositive
      exact ⟨highest, hhighest, hpositive, Except.ok.inj h⟩
    · cases h

def checkResidual (rows : Chunk α) (plane : Plane α) (tolerance wTolerance : α) :
    Except (Fault α) α :=
  let deviation := plane.maxDeviation rows
  if Scalar.less deviation tolerance then .ok deviation
  else .error (.toleranceExceeded deviation wTolerance tolerance)

end Coplanar
