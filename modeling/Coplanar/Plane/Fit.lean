import Coplanar.Plane

/-! Least-squares fit of a plane through the origin, by the normal equations
`uu * a + uv * b = uw` and `uv * a + vv * b = vw`. -/
namespace Coplanar

structure Moments (α : Type) where
  uu : α
  vv : α
  uv : α
  uw : α
  vw : α
deriving DecidableEq, Repr

variable {α : Type} [Scalar α]

namespace Moments

def zero : Moments α := ⟨0, 0, 0, 0, 0⟩

def add (m : Moments α) (r : Uvw α) : Moments α where
  uu := m.uu + r.u * r.u
  vv := m.vv + r.v * r.v
  uv := m.uv + r.u * r.v
  uw := m.uw + r.u * r.w
  vw := m.vw + r.v * r.w

/-- The determinant of the normal equations, unless its square overflows. -/
def determinant? (m : Moments α) : Option α :=
  (Scalar.square? m.uv).map (m.uu * m.vv - ·)

def solve (m : Moments α) (det : α) : Plane α where
  a := (m.vv * m.uw - m.uv * m.vw) / det
  b := (m.uu * m.vw - m.uv * m.uw) / det

end Moments

def Chunk.moments (rows : Chunk α) : Moments α := rows.foldl Moments.add .zero

/-- A determinant this close to zero leaves the fit unconstrained; a missing
one does not. -/
def isSingular (det : α) : Bool := Scalar.less (Scalar.abs det) singularDeterminant

def Chunk.fit (rows : Chunk α) : Except (Fault α) (Option (Plane α)) :=
  if rows.length < minFitRows then .error (.tooFewRows rows.length)
  else
    match rows.moments.determinant? with
    | none => .error .overflow
    | some det => .ok (if isSingular det then none else some (rows.moments.solve det))

end Coplanar
