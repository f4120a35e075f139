import Coplanar.Decimal.Text

/-! Numbers written one below the other.  They share a form, positional or with
an exponent, and as much room before and behind the point as the longest of them
needs, with at most eight digits behind it. -/
namespace Coplanar.Decimal

def columnPlaces : Nat := 8

structure Column where
  /-- Written with an exponent of this many digits, or positionally. -/
  exponentWidth : Option Nat
  /-- Characters before the point, the sign among them. -/
  left : Nat
  /-- Digits behind the point. -/
  places : Nat
deriving DecidableEq, Repr

/-- The shortest digits of `m * 2 ^ e`, or the nearest ones that end at a place
where the shortest go below it. -/
def digitsDownTo (m : Nat) (e last : Int) : Nat × Int :=
  let (digits, place) := shortest binary64 m e
  if place < last then stripZeros (nearest m e last) last else stripZeros digits place

def splitAtPoint (digits : Nat) (place : Int) : String × String :=
  if 0 ≤ place then (toString (digits * Nat.pow 10 place.toNat), "")
  else
    let unit := Nat.pow 10 (-place).toNat
    (toString (digits / unit), padded (-place).toNat (digits % unit))

def positionalParts (m : Nat) (e : Int) : String × String :=
  let (digits, place) := digitsDownTo m e (-(columnPlaces : Int))
  splitAtPoint digits place

def mantissaNeeds (m : Nat) (e : Int) : Nat × Int :=
  let (digits, place) := digitsDownTo m e (leadingPlace m e - columnPlaces)
  let count := (toString digits).length
  (count - 1, place + (count : Int) - 1)

/-- The nearest mantissa with a number of digits behind the point, and its power
of ten; one that rounds up to ten is a one of the next power. -/
def mantissa (places m : Nat) (e : Int) : Nat × Int :=
  let leading := leadingPlace m e
  let c := nearest m e (leading - places)
  if c = Nat.pow 10 (places + 1) then (Nat.pow 10 places, leading + 1) else (c, leading)

def signText (negative : Bool) : String := if negative then "-" else ""

structure Needs where
  left : Nat
  places : Nat
  exponentWidth : Nat
deriving DecidableEq, Repr

def Needs.of (withExponent negative : Bool) (m : Nat) (e : Int) : Needs :=
  let sign := (signText negative).length
  if m = 0 then ⟨sign + 1, 0, 2⟩
  else if withExponent then
    let (places, power) := mantissaNeeds m e
    ⟨sign + 1, places, max 2 (toString power.natAbs).length⟩
  else
    let (whole, fraction) := positionalParts m e
    ⟨sign + whole.length, fraction.length, 0⟩

def Needs.join (a b : Needs) : Needs :=
  ⟨max a.left b.left, max a.places b.places, max a.exponentWidth b.exponentWidth⟩

namespace Column

/-- Numbers too large, too small or too different in size are written with
exponents; zeros do not count. -/
def wantsExponent (xs : List Float) : Bool :=
  match (xs.filter fun x => x.isFinite && x != 0.0).map Float.abs with
  | [] => false
  | x :: rest =>
    let greatest := rest.foldl max x
    let least := rest.foldl min x
    1e8 ≤ greatest || least < 1e-4 || 1000.0 < greatest / least

def rightWidth (c : Column) : Nat := 1 + c.places + c.exponentWidth.elim 0 (· + 2)

def wordOf : Double → Option String
  | .missing => some layout.missing
  | .infinite negative => some (signText negative ++ layout.infinite)
  | .finite .. => none

def ofList (xs : List Float) : Column :=
  let withExponent := wantsExponent xs
  let doubles := xs.map Double.ofFloat
  let needs := doubles.filterMap fun
    | .finite negative m e => some (Needs.of withExponent negative m e)
    | _ => none
  let words := doubles.filterMap wordOf
  let room := needs.foldl Needs.join ⟨0, 0, 0⟩
  let column : Column :=
    { exponentWidth := if withExponent then some room.exponentWidth else none
      left := room.left
      places := room.places }
  -- Words stand in the whole width of the column; none is shorter than three.
  let widest := (words.map String.length).foldl max (if words.isEmpty then 0 else 3)
  { column with left := max column.left (widest - column.rightWidth) }

def blanks (n : Nat) : String := String.ofList (List.replicate n ' ')

def alignRight (width : Nat) (s : String) : String := blanks (width - s.length) ++ s

def write (c : Column) (x : Float) : String :=
  match Double.ofFloat x, c.exponentWidth with
  | .finite negative m e, none =>
    let (whole, fraction) := if m = 0 then ("0", "") else positionalParts m e
    alignRight c.left (signText negative ++ whole) ++ "." ++ fraction ++
      blanks (c.places - fraction.length)
  | .finite negative m e, some width =>
    let (digits, power) := if m = 0 then (0, 0) else mantissa c.places m e
    let unit := Nat.pow 10 c.places
    let fraction := if c.places = 0 then "" else padded c.places (digits % unit)
    alignRight c.left (signText negative ++ toString (digits / unit)) ++ "." ++ fraction ++
      powerText width power
  | other, _ => alignRight (c.left + c.rightWidth) ((wordOf other).getD "")

end Column

end Coplanar.Decimal
