import Coplanar.Value

/-! What the elements of an array are.  Values that are to stand in one array
take the least type that has room for all of them, and so do two arrays that are
compared. -/
namespace Coplanar

inductive CellType where
  | truth
  /-- Whole numbers of 64 bits. -/
  | word
  /-- Whole numbers of 64 bits without a sign. -/
  | natural
  | single
  | double
  | singleComplex
  | doubleComplex
  | text
  /-- Values of any kind. -/
  | any
deriving DecidableEq, Repr

namespace CellType

def isComplex : CellType → Bool
  | .singleComplex | .doubleComplex => true
  | _ => false

def isNarrow : CellType → Bool
  | .truth | .single | .singleComplex => true
  | _ => false

def isWhole : CellType → Bool
  | .truth | .word | .natural => true
  | _ => false

def join (s t : CellType) : CellType :=
  if s = t then s
  else if s = .any ∨ t = .any then .any
  else if s = .text ∨ t = .text then .text
  else if s = .truth then t
  else if t = .truth then s
  else
    match s.isComplex || t.isComplex, s.isNarrow && t.isNarrow with
    | false, false => .double
    | false, true => .single
    | true, false => .doubleComplex
    | true, true => .singleComplex

/-- The type that two arrays are compared in; whole numbers keep their values. -/
def common (s t : CellType) : CellType :=
  if s.isWhole && t.isWhole then .word else s.join t

end CellType

namespace Value

variable {α : Type}

def cellType : Value α → CellType
  | .truth _ | .flag _ => .truth
  | .integer n =>
    if isWord n then .word else if 0 ≤ n ∧ n < naturalLimit then .natural else .any
  | .word _ => .word
  | .real _ | .double _ => .double
  | .single _ => .single
  | .complex _ _ => .doubleComplex
  | .text _ => .text
  | _ => .any

/-- The type of an array of single values; that of an empty one is numbers. -/
def cellsType : List (Value α) → CellType
  | [] => .double
  | v :: rest => rest.foldl (fun t w => t.join w.cellType) v.cellType

/-- The type in which an array of a type is compared with a single value of no
array.  A number takes the width of the array; a whole number beyond 64 bits
cannot be compared with truth values. -/
def loneType (t : CellType) : Value α → Except (Fault α) CellType
  | .integer n =>
    if t = .truth then if isWord n then .ok .word else .error .overflow else .ok t
  | .real _ => .ok (if t = .single then .single else t.join .double)
  | .complex _ _ => .ok (t.join (if t = .single then .singleComplex else .doubleComplex))
  | v => .ok (t.join v.cellType)

def hasItems : Value α → Bool
  | .list _ | .tuple _ | .array _ => true
  | _ => false

def commonType (v w : Value α) : Except (Fault α) CellType :=
  let typeOf (v : Value α) := cellsType v.toGrid.cells
  if v.isFromArray then
    if w.isFromArray || w.hasItems then .ok ((typeOf v).common (typeOf w))
    else loneType (typeOf v) w
  else if v.hasItems then .ok ((typeOf v).common (typeOf w))
  else loneType (typeOf w) v

def bare : Value α → Value α
  | .double x => .real x
  | .single x => .real x
  | .word n => .integer n
  | .flag b => .truth b
  | v => v

end Value

end Coplanar
