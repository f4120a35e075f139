import Coplanar.Decimal.Rounding

/-! The shortest decimal that reads back as a given binary number: the fewest
digits, and of those the nearest. -/
namespace Coplanar.Decimal

structure Format where
  precision : Nat
  lowest : Int
deriving DecidableEq, Repr

def binary64 : Format := ⟨53, -1074⟩

def binary32 : Format := ⟨24, -149⟩

/-- The reals that read as the number `m * 2 ^ e` of a format, in units of
`2 ^ (e - 2)`: from halfway to the neighbour below, which is nearer when `m` is
the least significand of its binade, to halfway to the one above.  The ends
belong to it when `m` is even. -/
structure Basin where
  low : Nat
  mid : Nat
  high : Nat
  closed : Bool
deriving Repr

def Basin.of (f : Format) (m : Nat) (e : Int) : Basin where
  low := if m = Nat.pow 2 (f.precision - 1) ∧ f.lowest < e then 4 * m - 1 else 4 * m - 2
  mid := 4 * m
  high := 4 * m + 2
  closed := m % 2 = 0

def Basin.holds (b : Basin) (c n d : Nat) : Bool :=
  let x := c * n
  if b.closed then b.low * d ≤ x && x ≤ b.high * d
  else b.low * d < x && x < b.high * d

/-- The decimal with the given last place that reads back as `m * 2 ^ e`, if
one of the two around the value does; of two the nearer, of two equally near
the even one. -/
def onGrid (f : Format) (m : Nat) (e place : Int) : Option Nat :=
  let b := Basin.of f m e
  -- One in the last place is `n / d` units of the basin.
  let (n, d) :=
    let (p, q) := inUnits 1 1 (-place)
    let (s, t) := Double.ratio 1 (2 - e)
    (p * s, q * t)
  let below := b.mid * d / n
  let above := below + 1
  match b.holds below n d, b.holds above n d with
  | true, true =>
    let down := b.mid * d - below * n
    let up := above * n - b.mid * d
    some (if down < up then below
      else if up < down then above
      else if below % 2 = 0 then below else above)
  | true, false => some below
  | false, true => some above
  | false, false => none

def shortestFrom (f : Format) (m : Nat) (e top : Int) : Nat → Nat → Nat × Int
  | 0, digits => (nearest m e (top - digits), top - digits)
  | more + 1, digits =>
    match onGrid f m e (top - digits) with
    | some c => (c, top - digits)
    | none => shortestFrom f m e top more (digits + 1)

/-- Digits and last place of the shortest decimal for positive `m * 2 ^ e`;
seventeen digits always suffice. -/
def shortest (f : Format) (m : Nat) (e : Int) : Nat × Int :=
  shortestFrom f m e (leadingPlace m e) 17 0

def Format.fit (f : Format) (m : Nat) (e : Int) : Nat × Int :=
  let exponent := max f.lowest (e + (Nat.log2 m + 1 : Nat) - f.precision)
  if exponent ≤ e then (m * Nat.pow 2 (e - exponent).toNat, exponent)
  else (m / Nat.pow 2 (exponent - e).toNat, exponent)

end Coplanar.Decimal
