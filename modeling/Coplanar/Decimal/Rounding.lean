import Coplanar.Decimal.Double

/-! Decimals near a positive fraction: where its leading digit stands, and the
nearest decimal with a given last place. -/
namespace Coplanar.Decimal

/-- The fraction `num / den` in units of `10 ^ place`, again as a fraction. -/
def inUnits (num den : Nat) (place : Int) : Nat × Nat :=
  (num * Nat.pow 10 (-place).toNat, den * Nat.pow 10 place.toNat)

def atLeastPower (num den : Nat) (place : Int) : Bool :=
  let (n, d) := inUnits num den place
  d ≤ n

/-- The place of the leading digit of `m * 2 ^ e`, for positive `m`: the binary
length gives an estimate that is at most two off. -/
def leadingPlace (m : Nat) (e : Int) : Int :=
  let (num, den) := Double.ratio m e
  let estimate := (((Nat.log2 m : Int) + e) * 30103) / 100000
  let candidates := [estimate + 2, estimate + 1, estimate, estimate - 1]
  (candidates.find? (atLeastPower num den)).getD (estimate - 2)

def roundHalfEven (num den : Nat) : Nat :=
  let q := num / den
  let r := num % den
  if 2 * r < den then q
  else if den < 2 * r then q + 1
  else if q % 2 = 0 then q else q + 1

def nearest (m : Nat) (e place : Int) : Nat :=
  let (num, den) := Double.ratio m e
  let (n, d) := inUnits num den place
  roundHalfEven n d

def toFloat (negative : Bool) (digits : Nat) (place : Int) : Float :=
  let x := Float.ofScientific digits (place < 0) place.natAbs
  if negative then -x else x

def ceiling (n : Int) : Float :=
  let x := toFloat (n < 0) n.natAbs 0
  if (Double.ofFloat x).compareInt n = some .lt then
    Float.ofBits (if n < 0 then x.toBits - 1 else x.toBits + 1)
  else x

def toPlaces (places : Nat) (x : Float) : Float :=
  match Double.ofFloat x with
  | .finite negative m e => toFloat negative (nearest m e (-(places : Int))) (-(places : Int))
  | _ => x

def toDigits (digits : Nat) (x : Float) : Float :=
  match Double.ofFloat x with
  | .finite _ 0 _ => x
  | .finite negative m e =>
    let place := leadingPlace m e - ((digits : Int) - 1)
    toFloat negative (nearest m e place) place
  | _ => x

end Coplanar.Decimal
