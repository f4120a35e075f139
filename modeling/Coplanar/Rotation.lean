import Coplanar.Direction
import Coplanar.Plane

/-! Rotation of baselines into the frame of a direction.  Baselines are row
vectors, so a matrix acts from the right. -/
namespace Coplanar

/-- `xu` is what the first coordinate contributes to `u`, and so on. -/
structure Rotation (α : Type) where
  xu : α
  xv : α
  xw : α
  yu : α
  yv : α
  yw : α
  zu : α
  zv : α
  zw : α
deriving DecidableEq, Repr

namespace Rotation

variable {α : Type}

def transpose (m : Rotation α) : Rotation α where
  xu := m.xu
  xv := m.yu
  xw := m.zu
  yu := m.xv
  yv := m.yv
  yw := m.zv
  zu := m.xw
  zv := m.yw
  zw := m.zw

def entries (m : Rotation α) : List (List α) :=
  [[m.xu, m.xv, m.xw], [m.yu, m.yv, m.yw], [m.zu, m.zv, m.zw]]

section Action

variable [Scalar α]

def act (m : Rotation α) (x y z : α) : Uvw α where
  u := x * m.xu + y * m.yu + z * m.zu
  v := x * m.xv + y * m.yv + z * m.zv
  w := x * m.xw + y * m.yw + z * m.zw

def mul (m n : Rotation α) : Rotation α :=
  let p := n.act m.xu m.xv m.xw
  let q := n.act m.yu m.yv m.yw
  let r := n.act m.zu m.zv m.zw
  ⟨p.u, p.v, p.w, q.u, q.v, q.w, r.u, r.v, r.w⟩

def constant (x : α) : Rotation α := ⟨x, x, x, x, x, x, x, x, x⟩

end Action

variable [Trig α]

def turns (p q : α) : Rotation α where
  xu := Trig.cos p
  xv := -(Trig.sin p * Trig.cos q)
  xw := Trig.sin p * Trig.sin q
  yu := Trig.sin p
  yv := Trig.cos p * Trig.cos q
  yw := -(Trig.cos p * Trig.sin q)
  zu := 0
  zv := Trig.sin q
  zw := Trig.cos q

/-- From equatorial baselines to the frame of a direction at the given hour
angle and declination.  An angle that is not finite leaves nothing known. -/
def toward (hourAngle dec : α) : Rotation α :=
  let p := Scalar.pi / Scalar.natural 2 - hourAngle
  let q := Scalar.pi / Scalar.natural 2 - dec
  if Scalar.isFinite p && Scalar.isFinite q then turns p q
  else constant ((p - p) + (q - q))

def between (here there : Direction α) : Rotation α :=
  (toward (-here.ra) here.dec).transpose.mul (toward (-there.ra) there.dec)

end Rotation

end Coplanar
