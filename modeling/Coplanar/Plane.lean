import Coplanar.Nested
import Coplanar.Scalar

/-! Rows of coordinates and planes `w = a * u + b * v` through the origin. -/
namespace Coplanar

/-- One row, in metres: `u` east, `v` north, `w` towards the tangent point. -/
structure Uvw (α : Type) where
  u : α
  v : α
  w : α
deriving DecidableEq, Repr

abbrev Chunk (α : Type) := List (Uvw α)

variable {α : Type}

def Chunk.ofCells : List α → Except (Fault α) (Chunk α)
  | [] => .ok []
  | u :: v :: w :: rest => (Chunk.ofCells rest).map (⟨u, v, w⟩ :: ·)
  | _ => .error .malformed

def Chunk.ofNested (x : Nested α) : Except (Fault α) (Chunk α) :=
  x.rectangular.bind Chunk.ofCells

structure Plane (α : Type) where
  a : α
  b : α
deriving DecidableEq, Repr

namespace Plane

variable [Scalar α]

def level : Plane α := ⟨0, 0⟩

def height (p : Plane α) (r : Uvw α) : α := p.a * r.u + p.b * r.v

def deviation (p : Plane α) (r : Uvw α) : α := Scalar.abs (p.height r - r.w)

/-- The larger of `m` and `d`, where a missing `d` counts as nothing. -/
def raise (m d : α) : α := if Scalar.less m d then d else m

def maxDeviation (p : Plane α) (rows : Chunk α) : α :=
  rows.foldl (fun m r => raise m (p.deviation r)) 0

def subtract (p : Plane α) (r : Uvw α) : Uvw α := { r with w := r.w - p.height r }

/-- Equal coefficients; a plane with a missing coefficient equals none. -/
def same (p q : Plane α) : Bool := Scalar.same p.a q.a && Scalar.same p.b q.b

@[simp] theorem maxDeviation_nil (p : Plane α) : p.maxDeviation [] = 0 := rfl

@[simp] theorem subtract_u (p : Plane α) (r : Uvw α) : (p.subtract r).u = r.u := rfl

@[simp] theorem subtract_v (p : Plane α) (r : Uvw α) : (p.subtract r).v = r.v := rfl

@[simp] theorem subtract_w (p : Plane α) (r : Uvw α) :
    (p.subtract r).w = r.w - (p.a * r.u + p.b * r.v) := rfl

end Plane

end Coplanar
