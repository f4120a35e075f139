import Coplanar.Dataset.Blocks
import Coplanar.Dataset.ByteSize
import Coplanar.Value.Amount

/-! Cutting dimensions into blocks.  For each dimension there is a size or the sizes
of all blocks, or they are to be chosen so that a block of all dimensions takes up a
limited number of bytes. -/
namespace Coplanar

inductive Cut (α : Type) where
  /-- Blocks of one size, the last one being smaller. -/
  | even (size : Amount α)
  | given (sizes : List (Value α))
  /-- The size is to be chosen. -/
  | automatic
  /-- Names with values, which say nothing about sizes. -/
  | named (count : Nat)
deriving Repr

namespace Cut

variable {α : Type}

def isAutomatic : Cut α → Bool
  | .automatic => true
  | _ => false

def isNamed : Cut α → Bool
  | .named _ => true
  | _ => false

def isWhole : Cut α → Bool
  | .even (.whole _) => true
  | _ => false

/-- The text for a size that is to be chosen within the usual limit; other texts say
the limit. -/
def automaticText : String := "auto"

def usualLimit : Int := 134217728

def elementBytes : Nat := 8

variable [Numeral α]

/-- What a caller says of a dimension of a length: nothing or minus one for a single
block. -/
def ofValue (length : Nat) : Value α → Cut α
  | .list sizes => .given sizes
  | .text _ => .automatic
  | .nothing => .even (.whole length)
  | v =>
    match v.amount? with
    | some size => .even (if size.order (.whole (-1)) = some .eq then .whole length else size)
    | none => .named (v.items?.getD []).length

def limit (said : List (Value α)) : Except (Fault α) Int :=
  (·.getD usualLimit) <$> said.foldlM
    (fun limit v =>
      match v with
      | .text s =>
        if s = automaticText then .ok limit
        else
          (byteSize s).bind fun bytes =>
            if limit.all (· == bytes) then .ok (some bytes) else .error .malformed
      | _ => .ok limit)
    none

def size (v : Value α) : Except (Fault α) (Amount α) :=
  match v.amount? with
  | some (.whole n) =>
    if Value.wordLow ≤ n ∧ n < Value.naturalLimit then .ok (.whole n) else .error .wrongType
  | some (.real x) => if Scalar.isMissing x then .error .malformed else .ok (.real x)
  | none => .error .wrongType

def known : Cut α → Except (Fault α) (Option (List (Amount α)))
  | .even n => (size (.ofAmount n)).map fun n => some [n]
  | .given sizes => (sizes.mapM size).map some
  | .named 0 => .ok (some [])
  | .automatic | .named _ => .ok none

def largest : List (Amount α) → Except (Fault α) (Amount α)
  | [] => .error .malformed
  | n :: sizes => .ok (sizes.foldl Amount.larger n)

def area (sizes : List (List (Amount α))) : Except (Fault α) (Amount α) :=
  sizes.foldlM (fun (n : Amount α) sizes => (largest sizes).bind (n.combine .times)) (.whole 1)

/-- The size along each of a number of automatic dimensions that makes the largest block as
large as it may be. -/
def share (limit : Int) (count : Nat) (cuts : List (Cut α)) : Except (Fault α) α := do
  let sizes ← cuts.mapM known
  let area ← area (sizes.filterMap id)
  if cuts.any isNamed then throw .wrongType
  let area ← area.toReal
  let bytes ← Value.ofInt (max 1 limit)
  if Scalar.same area 0 then throw .emptyBlocks
  let room := bytes / Scalar.natural elementBytes / area
  if 1 < count ∧ Scalar.less room 0 then throw .wrongType
  return Numeral.rootOf count room

def isBelow (length : Nat) (size : α) : Bool := Numeral.compareInt size length == some .gt

/-- The greatest divisor of a length that is no more than a size, but more than half of
it, or else the size without its fraction. -/
def roundSize (size : α) (length : Nat) : Except (Fault α) Int :=
  let fits (f : Nat) : Bool :=
    length % f == 0 && !isBelow f (size / Scalar.natural 2) &&
      (Numeral.compareInt size f).any (· != .lt)
  if length = 0 then .error .wrongType
  else
    match (List.range' 1 length).reverse.find? fits with
    | some f => .ok f
    | none => (Value.wholePart size).map (max 1 ·)

/-- Chooses sizes for the automatic dimensions.  Those that are shorter than their
share stay whole, and the others share again: each round settles a dimension, so that
as many rounds will do as there are dimensions, and one. -/
def choose (limit : Int) : (rounds : Nat) → List (Nat × Cut α) → Except (Fault α) (List (Cut α))
  | 0, each => .ok (each.map (·.2))
  | rounds + 1, each => do
    let count := each.countP fun (_, cut) => cut.isAutomatic
    if count = 0 then return each.map (·.2)
    let size ← share limit count (each.map (·.2))
    let isShort (length : Nat) (cut : Cut α) := cut.isAutomatic && isBelow length size
    if each.any fun (length, cut) => isShort length cut then
      choose limit rounds (each.map fun (length, cut) =>
        (length, if isShort length cut then .given [.integer length] else cut))
    else
      each.mapM fun (length, cut) =>
        if cut.isAutomatic then (roundSize size length).map fun n => .even (.whole n)
        else .ok cut

def sizes (length : Nat) : Cut α → Except (Fault α) (List (Value α))
  | .even n => do
    let n ← size (.ofAmount n)
    match n.toInt with
    | .error _ => throw .malformed
    | .ok whole =>
      if n.order (.whole whole) ≠ some .eq then throw .malformed
      if whole = 0 ∧ length ≠ 0 then throw .emptyBlocks
      return (evenBlocks whole length).map .integer
  | .given sizes => .ok sizes
  | .automatic | .named _ => .error .wrongType

def checkTotal (length : Nat) (sizes : List (Value α)) : Except (Fault α) Unit := do
  let total ← Value.total sizes
  if total.order (.whole length) = some .eq then return ()
  -- What is not a number is in no order, and passes.
  if !Scalar.isMissing (← total.toReal) then throw .malformed

def wholeSize (v : Value α) : Except (Fault α) Int :=
  match v.amount? with
  | some n => n.toInt
  | none => .error .wrongType

/-- The blocks of dimensions of lengths.  Those of one whole number each need not add up:
a negative size leaves only what remains. -/
def blocks (lengths : List Nat) (cuts : List (Cut α)) : Except (Fault α) (List (List Int)) := do
  let all ← (lengths.zip cuts).mapM fun (length, cut) => cut.sizes length
  if all.any List.isEmpty then throw .malformed
  if !cuts.all isWhole then
    (lengths.zip all).forM fun (length, sizes) => checkTotal length sizes
  all.mapM fun sizes => sizes.mapM wholeSize

def blocksOfValues (lengths : List Nat) (said : List (Value α)) :
    Except (Fault α) (List (List Int)) := do
  if said.isEmpty && lengths.all (· == 0) then return lengths.map fun _ => [0]
  if lengths.length ≠ said.length then throw .malformed
  let limit ← limit said
  let each := (lengths.zip said).map fun (length, v) => (length, ofValue length v)
  blocks lengths (← choose limit (lengths.length + 1) each)

def blocksOfValue (lengths : List Nat) (said : Value α) : Except (Fault α) (List (List Int)) :=
  match said with
  | .list items => blocksOfValues lengths items
  | .dict _ => blocksOfValues lengths (lengths.map fun _ => .nothing)
  | v => blocksOfValues lengths (lengths.map fun _ => v)

def usualBlocks (lengths : List Nat) : Except (Fault α) (List (List Int)) :=
  blocksOfValue lengths (.text automaticText)

end Cut

end Coplanar
