/-! A double taken apart into whole numbers, so that what is said about its
exact value is said by integer arithmetic. -/
namespace Coplanar

/-- `finite s m e` stands for `m * 2 ^ e`, negated if `s`. -/
inductive Double where
  | missing
  | infinite (negative : Bool)
  | finite (negative : Bool) (significand : Nat) (exponent : Int)
deriving DecidableEq, Repr

namespace Double

def ofBits (bits : Nat) : Double :=
  -- The leading bit of a normal number is not stored.
  let hidden := Nat.pow 2 52
  let negative := bits / Nat.pow 2 63 % 2 == 1
  let exponent : Nat := bits / hidden % 2048
  let fraction : Nat := bits % hidden
  if exponent = 2047 then
    if fraction = 0 then .infinite negative else .missing
  else if exponent = 0 then .finite negative fraction (-1074)
  else .finite negative (hidden + fraction) ((exponent : Int) - 1075)

def ofFloat (x : Float) : Double := ofBits x.toBits.toNat

def ratio (m : Nat) (e : Int) : Nat × Nat :=
  (m * Nat.pow 2 e.toNat, Nat.pow 2 (-e).toNat)

def compareInt : Double → Int → Option Ordering
  | .missing, _ => none
  | .infinite negative, _ => some (if negative then .lt else .gt)
  | .finite negative m e, n =>
    let (num, den) := ratio m e
    let signed : Int := if negative then -(num : Int) else num
    some (compare signed (n * den))

def truncate? : Double → Option Int
  | .finite negative m e =>
    let (num, den) := ratio m e
    let whole : Int := (num / den : Nat)
    some (if negative then -whole else whole)
  | _ => none

/-- The bits of a value in a format: those of the number nearest to it, a half going to the
even one. -/
def packed (spec : Float.Model.Format) : Float.Model.UnpackedFloat → BitVec spec.numBits
  | .finite s m e _ => (Float.Model.UnpackedFloat.round spec s m e).pack spec
  | x => x.pack spec

def narrow (x : Float) : Float :=
  let bits := packed .binary32 (.unpack .binary64 x.toBits.toBitVec)
  Float.ofBits ⟨packed .binary64 (.unpack .binary32 bits)⟩

end Double

end Coplanar
