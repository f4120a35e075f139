import Coplanar.Decimal.Rounding
import Coplanar.Scalar
import Coplanar.Text.Reading

/-! Numbers as parameter values: what they have to do with whole numbers, with
texts, and with the narrower format. -/
namespace Coplanar

class Numeral (α : Type) extends Scalar α where
  /-- The least positive number of full precision. -/
  tiny : α
  infinity : α
  missing : α
  /-- The nearest number, unless it is beyond the range. -/
  ofInt? : Int → Option α
  /-- The number nearest to `digits * 10 ^ place`, negated if so marked. -/
  ofDecimal : Bool → Nat → Int → α
  /-- Exact comparison; a missing number compares with none. -/
  compareInt : α → Int → Option Ordering
  /-- The whole part, toward zero, of a finite number. -/
  truncate? : α → Option Int
  /-- The nearest number of the narrower format. -/
  single : α → α
  /-- The root of an order. -/
  rootOf : Nat → α → α

instance : Numeral Float where
  tiny := 2.2250738585072014e-308
  infinity := 1.0 / 0.0
  missing := 0.0 / 0.0
  ofInt? n :=
    let x := Decimal.toFloat (n < 0) n.natAbs 0
    if x.isInf then none else some x
  ofDecimal := Decimal.toFloat
  compareInt x n := (Double.ofFloat x).compareInt n
  truncate? x := (Double.ofFloat x).truncate?
  single := Double.narrow
  rootOf n x := Float.pow x (1.0 / Float.ofNat n)

class Quantity (α : Type) extends Trig α, Numeral α

instance : Quantity Float where

namespace Numeral

variable {α : Type} [Numeral α]

def ofNumeric : Text.Numeric → α
  | .missing => missing
  | .infinite negative => if negative then -infinity else infinity
  | .decimal negative digits place => ofDecimal negative digits place

def ofText? (s : String) : Option α := (Text.readNumber? s).map ofNumeric

end Numeral

end Coplanar
