import Coplanar.Nested
import Coplanar.Scalar

/-! Directions on the sky, and the angle between two of them. -/
namespace Coplanar

/-- Right ascension and declination, in radians. -/
structure Direction (α : Type) where
  ra : α
  dec : α
deriving DecidableEq, Repr

variable {α : Type}

def Direction.ofNested (x : Nested α) : Except (Fault α) (Direction α) :=
  match x.shape?, x.cells with
  | none, _ => .error .malformed
  | some [2], [ra, dec] => .ok ⟨ra, dec⟩
  | some shape, _ => .error (.notADirection shape)

def Direction.ofVector (x : Nested α) : Except (Fault α) (Direction α) :=
  match x.shape?, x.cells with
  | none, _ => .error .malformed
  | some [_], ra :: dec :: _ => .ok ⟨ra, dec⟩
  | some [_], _ => .error .outOfRange
  | some _, _ => .error .notAVector

structure Vec3 (α : Type) where
  x : α
  y : α
  z : α
deriving DecidableEq, Repr

namespace Vec3

variable [Scalar α]

def dot (p q : Vec3 α) : α := p.x * q.x + p.y * q.y + p.z * q.z

def cross (p q : Vec3 α) : Vec3 α where
  x := p.y * q.z - p.z * q.y
  y := p.z * q.x - p.x * q.z
  z := p.x * q.y - p.y * q.x

end Vec3

def Vec3.norm [Trig α] (p : Vec3 α) : α := Trig.root (p.dot p)

namespace Direction

def shift [Scalar α] (d : Direction α) (angle : α) : Direction α :=
  { d with ra := d.ra + angle }

variable [Trig α]

def cosines (d : Direction α) : Vec3 α where
  x := Trig.cos d.ra * Trig.cos d.dec
  y := Trig.sin d.ra * Trig.cos d.dec
  z := Trig.sin d.dec

/-- The great-circle distance.  The polar angle of cosine and sine keeps its
precision where an arc cosine would lose it. -/
def separation (d e : Direction α) : α :=
  Trig.angle (d.cosines.cross e.cosines).norm (d.cosines.dot e.cosines)

def isNear (d e : Direction α) (tolerance : α) : Bool :=
  Scalar.less (d.separation e) tolerance

end Direction

def defaultTangentTolerance [Scalar α] : α :=
  Scalar.natural 1 / Scalar.natural 1000000

end Coplanar
