import Coplanar.Value

/-! Amounts of memory as texts: a number and a unit, with blanks anywhere. -/
namespace Coplanar

def byteUnits : List (String × Nat) :=
  [("", 1), ("b", 1),
   ("k", 1000), ("m", Nat.pow 1000 2), ("g", Nat.pow 1000 3), ("t", Nat.pow 1000 4),
   ("p", Nat.pow 1000 5),
   ("kb", 1000), ("mb", Nat.pow 1000 2), ("gb", Nat.pow 1000 3), ("tb", Nat.pow 1000 4),
   ("pb", Nat.pow 1000 5),
   ("ki", 1024), ("mi", Nat.pow 1024 2), ("gi", Nat.pow 1024 3), ("ti", Nat.pow 1024 4),
   ("pi", Nat.pow 1024 5),
   ("kib", 1024), ("mib", Nat.pow 1024 2), ("gib", Nat.pow 1024 3), ("tib", Nat.pow 1024 4),
   ("pib", Nat.pow 1024 5)]

/-- The sign of the kelvin, which is a capital k. -/
def kelvin : Char := Char.ofNat 0x212a

def isUnitLetter (c : Char) : Bool := c.isAlpha || c == kelvin

def smallLetter (c : Char) : Char := if c = kelvin then 'k' else c.toLower

def bytesOfUnit? (unit : List Char) : Option Nat :=
  byteUnits.lookup (String.ofList (unit.map smallLetter))

/-- A text as its number and its unit, the letters at the end; a unit without any
digits is one of it. -/
def splitByteSize (s : String) : String × List Char :=
  let cs := s.toList.filter (· != ' ')
  let cs := if cs.any fun c => (Text.digit? c).isSome then cs else '1' :: cs
  let unit := cs.reverse.takeWhile isUnitLetter
  (String.ofList (cs.take (cs.length - unit.length)), unit.reverse)

def byteSize {α : Type} [Numeral α] (s : String) : Except (Fault α) Int :=
  let (number, unit) := splitByteSize s
  match Numeral.ofText? number, bytesOfUnit? unit with
  | some (x : α), some bytes => Value.wholePart (x * Scalar.natural bytes)
  | _, _ => .error .malformed

end Coplanar
