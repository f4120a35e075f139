import Coplanar.Keyed
import Coplanar.Nested
import Coplanar.Numeral

/-! Parameter values as a caller may give them, of any type. -/
namespace Coplanar

inductive Value (α : Type) where
  | nothing
  | truth (b : Bool)
  | integer (n : Int)
  | real (x : α)
  | text (s : String)
  | list (items : List (Value α))
  | tuple (items : List (Value α))
  | dict (entries : List (String × Value α))
  | array (cells : Nested α)
  | complex (re im : α)
  /-- A number of 64 bits from an array; it is a `real` too. -/
  | double (x : α)
  /-- A number of 32 bits from an array. -/
  | single (x : α)
  /-- A whole number of 64 bits from an array. -/
  | word (n : Int)
  /-- A truth value from an array, which is no number. -/
  | flag (b : Bool)
deriving Repr

inductive Kind where
  | real
  | integer
  | text
  | truth
  | list
  | tuple
  | dict
  | array
  /-- Any number. -/
  | number
  /-- Any number but a complex one. -/
  | ordered
  /-- Any whole number. -/
  | whole
deriving DecidableEq, Repr

namespace Value

variable {α : Type}

def isA : Value α → Kind → Bool
  | .truth _, k => k == .truth || k == .integer || k == .whole || k == .ordered || k == .number
  | .integer _, k => k == .integer || k == .whole || k == .ordered || k == .number
  | .word _, k => k == .whole || k == .ordered || k == .number
  | .real _, k => k == .real || k == .ordered || k == .number
  | .double _, k => k == .real || k == .ordered || k == .number
  | .single _, k => k == .ordered || k == .number
  | .complex _ _, k => k == .number
  | .text _, k => k == .text
  | .list _, k => k == .list
  | .tuple _, k => k == .tuple
  | .dict _, k => k == .dict
  | .array _, k => k == .array
  | .nothing, _ => false
  | .flag _, _ => false

def isOneOf (v : Value α) (kinds : List Kind) : Bool := kinds.any v.isA

def ofNested : Nested α → Value α
  | .leaf x => .double x
  | x => .array x

def items? : Value α → Option (List (Value α))
  | .list xs => some xs
  | .tuple xs => some xs
  | .dict entries => some (entries.map fun entry => .text entry.1)
  | .text s => some (s.toList.map fun c => .text (String.singleton c))
  | .array (.node xs) => some (xs.map ofNested)
  | _ => none

def length? (v : Value α) : Except (Fault α) Nat :=
  match v.items? with
  | some xs => .ok xs.length
  | none => .error .wrongType

def item (v : Value α) (i : Nat) : Except (Fault α) (Value α) :=
  match v with
  | .dict _ => .error .unknownName
  | .array (.leaf _) | .double _ | .single _ | .word _ | .flag _ => .error .outOfRange
  | v =>
    match v.items? with
    | none => .error .wrongType
    | some xs =>
      match xs[i]? with
      | some x => .ok x
      | none => .error .outOfRange

def isFromArray : Value α → Bool
  | .array _ | .double _ | .single _ | .word _ | .flag _ => true
  | _ => false

mutual

def toGrid : Value α → Nested (Value α)
  | .list xs => .node (toGrids xs)
  | .tuple xs => .node (toGrids xs)
  | .array x => x.map .double
  | v => .leaf v

def toGrids : List (Value α) → List (Nested (Value α))
  | [] => []
  | v :: rest => v.toGrid :: toGrids rest

end

def grid (v : Value α) : Except (Fault α) (Nested (Value α)) := v.toGrid.whole

section Conversion

variable [Numeral α]

def bit (b : Bool) : Int := if b then 1 else 0

def ofInt (n : Int) : Except (Fault α) α :=
  match Numeral.ofInt? n with
  | some x => .ok x
  | none => .error .overflow

/-- The value as a number; an array is one only if it has no axes. -/
def toNumber : Value α → Except (Fault α) α
  | .truth b => ofInt (bit b)
  | .flag b => ofInt (bit b)
  | .integer n => ofInt n
  | .word n => ofInt n
  | .real x => .ok x
  | .double x => .ok x
  | .single x => .ok x
  | .text s =>
    match Numeral.ofText? s with
    | some x => .ok x
    | none => .error .malformed
  | .array (.leaf x) => .ok x
  | _ => .error .wrongType

def wholePart (x : α) : Except (Fault α) Int :=
  match Numeral.truncate? x with
  | some n => .ok n
  | none => .error (if Scalar.isMissing x then .malformed else .overflow)

def toInt : Value α → Except (Fault α) Int
  | .truth b => .ok (bit b)
  | .flag b => .ok (bit b)
  | .integer n => .ok n
  | .word n => .ok n
  | .real x => wholePart x
  | .double x => wholePart x
  | .single x => wholePart x
  | .text s =>
    match Text.readInt? s with
    | some n => .ok n
    | none => .error .malformed
  | .array (.leaf x) => wholePart x
  | _ => .error .wrongType

/-- Whole numbers of 64 bits: the least one, and the first ones beyond the range
with a sign and without. -/
def wordLow : Int := -9223372036854775808
def wordLimit : Int := 9223372036854775808
def naturalLimit : Int := 18446744073709551616

def isWord (n : Int) : Bool := wordLow ≤ n && n < wordLimit

def toWord (v : Value α) : Except (Fault α) Int :=
  v.toInt.bind fun n => if isWord n then .ok n else .error .overflow

/-- A single value as an element of an array of numbers, where nothing stands
for a missing one. -/
def toCell : Value α → Except (Fault α) α
  | .nothing => .ok Numeral.missing
  | v => v.toNumber

/-- The value as an array of numbers: first its shape, then its elements in
order. -/
def toNested (v : Value α) : Except (Fault α) (Nested α) :=
  v.grid.bind (Nested.convert toCell)

/-- The value where it meets numbers from arrays in arithmetic: lists count as
arrays, and nothing as no number. -/
def toOperand (v : Value α) : Except (Fault α) (Nested α) :=
  v.grid.bind (Nested.convert toNumber)

/-- The value as a list of coordinates; a lone number is not one. -/
def coordinates (v : Value α) : Except (Fault α) (List (Value α)) :=
  match v.toNested with
  | .error fault => .error fault
  | .ok (.leaf _) => .error .wrongType
  | .ok (.node items) => .ok (items.map ofNested)

end Conversion

end Value

abbrev Dict (α : Type) := Keyed (Value α)

end Coplanar
