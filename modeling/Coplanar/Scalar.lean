/-! The arithmetic everything else is written in.  The fitting, the search and
the bookkeeping are generic in the numbers, so that one text has both its
floating meaning and its exact one. -/
namespace Coplanar

/-- A number type with partial comparisons: `less` and `same` may both be false
of a missing value.  `square?` is absent when a finite number has no finite
square. -/
class Scalar (α : Type) extends Zero α, Add α, Sub α, Mul α, Div α, Neg α where
  natural : Nat → α
  pi : α
  abs : α → α
  less : α → α → Bool
  same : α → α → Bool
  square? : α → Option α

class Trig (α : Type) extends Scalar α where
  sin : α → α
  cos : α → α
  root : α → α
  angle : α → α → α

namespace Scalar

variable {α : Type} [Scalar α]

/-- Only a missing value differs from itself. -/
def isMissing (x : α) : Bool := !same x x

/-- Only an infinite or missing value leaves something when taken from itself. -/
def isFinite (x : α) : Bool := same (x - x) 0

def larger (x y : α) : α :=
  if isMissing x then x
  else if isMissing y then y
  else if less x y then y
  else x

end Scalar

instance : Scalar Float where
  zero := 0.0
  add := Float.add
  sub := Float.sub
  mul := Float.mul
  div := Float.div
  neg := Float.neg
  natural := Float.ofNat
  pi := 3.141592653589793
  abs := Float.abs
  less x y := x < y
  same x y := x == y
  square? x :=
    let s := Float.pow x 2.0
    if s.isInf && x.isFinite then none else some s

instance : Trig Float where
  sin := Float.sin
  cos := Float.cos
  root := Float.sqrt
  angle := Float.atan2

/-! The physical constants and thresholds. -/

section Constants

variable {α : Type} [Scalar α]
open Scalar

def minFitRows : Nat := 2

def siderealDay : α := natural 86400

def earthRotationRate : α := natural 2 * pi / siderealDay

def singularDeterminant : α := natural 1 / natural 10000000

def speedOfLight : α := natural 299792458

end Constants

end Coplanar
