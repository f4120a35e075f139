import Coplanar.Plane.Fit

/-! When to fit a new plane, judging by the current chunk alone. -/
namespace Coplanar

/-- The deviation from the plane to use, and that plane if it is a new one. -/
structure Verdict (α : Type) where
  deviation : α
  plane : Option (Plane α)
deriving DecidableEq, Repr

inductive Note (α : Type) where
  /-- The deviation from the plane in use, before anything else. -/
  | current (deviation tolerance : α) (plane : Plane α)
  | degenerate
  /-- A fresh fit is out of tolerance already. -/
  | poorFit (deviation : α)
  | ahead (steps : Nat) (deviation : α)
  /-- The search ran out of steps with the plane still good. -/
  | gaveUp (steps : Nat)
  | settled (steps : Nat) (plane : Plane α) (deviation : α)
  | committed (plane : Plane α) (deviation : α)
deriving DecidableEq, Repr

def Note.isWarning {α : Type} : Note α → Bool
  | .gaveUp _ => true
  | _ => false

variable {α : Type} [Scalar α]

def Verdict.keep (current : Plane α) (rows : Chunk α) : Verdict α :=
  ⟨current.maxDeviation rows, none⟩

def Verdict.replace (plane : Plane α) (rows : Chunk α) : Verdict α :=
  ⟨plane.maxDeviation rows, some plane⟩

/-- Fits once the deviation from the current plane reaches the tolerance. -/
def reactive (rows : Chunk α) (tolerance : α) (current : Plane α) :
    Except (Fault α) (Verdict α) :=
  if rows.length < minFitRows || Scalar.less (current.maxDeviation rows) tolerance then
    .ok (.keep current rows)
  else
    rows.fit.map fun
      | none => .keep current rows
      | some plane => .replace plane rows

end Coplanar
