import Coplanar.Decimal.Shortest

/-! How numbers are written: shortest digits, positional from `1e-4` on and below
`1e16`, with an exponent of at least two digits outside.  For numbers of half
the width the positional ones end at `1e6`. -/
namespace Coplanar.Decimal

structure Layout where
  /-- From this power of ten on numbers are written positionally. -/
  least : Int
  /-- From this one on they are not. -/
  limit : Int
  exponentWidth : Nat
  missing : String
  infinite : String

def layout : Layout := ⟨-4, 16, 2, "nan", "inf"⟩

def singleLayout : Layout := { layout with limit := 6 }

/-- Whether `m * 2 ^ e` itself, and not its digits, is in the positional range. -/
def Layout.isPositional (l : Layout) (m : Nat) (e : Int) : Bool :=
  let (num, den) := Double.ratio m e
  atLeastPower num den l.least && !atLeastPower num den l.limit

def zeros (n : Nat) : String := String.ofList (List.replicate n '0')

def padded (width n : Nat) : String :=
  let text := toString n
  zeros (width - text.length) ++ text

/-- Trailing zeros of the digits move into the place. -/
def stripZeros (digits : Nat) (place : Int) : Nat × Int :=
  if digits ≠ 0 ∧ digits % 10 = 0 then stripZeros (digits / 10) (place + 1)
  else (digits, place)
termination_by digits
decreasing_by omega

def positional (digits : String) (leading : Int) : String :=
  let count := digits.length
  if leading < 0 then
    "0." ++ zeros ((-leading).toNat - 1) ++ digits
  else
    let whole := leading.toNat + 1
    if count ≤ whole then digits ++ zeros (whole - count) ++ ".0"
    else
      let cs := digits.toList
      String.ofList (cs.take whole) ++ "." ++ String.ofList (cs.drop whole)

def powerText (width : Nat) (power : Int) : String :=
  "e" ++ (if power < 0 then "-" else "+") ++ padded width power.natAbs

def scientific (l : Layout) (digits : String) (leading : Int) : String :=
  let cs := digits.toList
  let mantissa :=
    match cs with
    | c :: (d :: rest) => String.ofList (c :: '.' :: d :: rest)
    | cs => String.ofList cs
  mantissa ++ powerText l.exponentWidth leading

def write (l : Layout) (isPositional : Bool) (digits : Nat) (place : Int) : String :=
  let (digits, place) := stripZeros digits place
  let text := toString digits
  let leading := place + (text.length : Int) - 1
  if isPositional then positional text leading else scientific l text leading

def textOf (l : Layout) (f : Format) : Double → String
  | .missing => l.missing
  | .infinite negative => (if negative then "-" else "") ++ l.infinite
  | .finite negative m e =>
    (if negative then "-" else "") ++
      (if m = 0 then "0.0"
      else
        let (m, e) := f.fit m e
        let (digits, place) := shortest f m e
        write l (l.isPositional m e) digits place)

def text (x : Float) : String := textOf layout binary64 (Double.ofFloat x)

def singleText (x : Float) : String := textOf singleLayout binary32 (Double.ofFloat x)

end Coplanar.Decimal
