import Coplanar.Nested.Stretch
import Coplanar.Value.Amount
import Coplanar.Value.CellType

/-! How values compare.  Single values compare exactly, and lists item by item.
As soon as a value comes from an array, both sides are taken as arrays of one
type, and compared element by element. -/
namespace Coplanar

inductive Relation where
  | equal
  | less
deriving DecidableEq, Repr

def Relation.holds : Relation → Option Ordering → Bool
  | .equal, o => o == some .eq
  | .less, o => o == some .lt

variable {α : Type} [Numeral α]

inductive Cell (α : Type) where
  | whole (n : Int)
  | number (re im : α)
deriving DecidableEq, Repr

namespace Cell

/-- The real parts decide, and after them the imaginary ones. -/
def holds : Relation → Cell α → Cell α → Bool
  | r, .whole m, .whole n => r.holds (some (compare m n))
  | .equal, .number a b, .number c d => Scalar.same a c && Scalar.same b d
  | .less, .number a b, .number c d =>
    (Scalar.less a c && !Scalar.isMissing b && !Scalar.isMissing d) ||
      (Scalar.same a c && Scalar.less b d)
  | _, _, _ => false

def ofValue (t : CellType) (v : Value α) : Except (Fault α) (Cell α) :=
  if t.isWhole then v.toInt.map .whole
  else
    let narrow (x : α) := if t.isNarrow then Numeral.single x else x
    match v with
    | .complex re im => .ok (.number (narrow re) (narrow im))
    | v => v.toNumber.map fun x => .number (narrow x) 0

end Cell

namespace Value

def parts? : Value α → Option (Amount α × α)
  | .truth b => some (.whole (bit b), 0)
  | .integer n => some (.whole n, 0)
  | .real x => some (.real x, 0)
  | .complex re im => some (.real re, im)
  | _ => none

def isComplex : Value α → Bool
  | .complex _ _ => true
  | _ => false

def plainRelation (r : Relation) (v w : Value α) : Except (Fault α) Bool :=
  match r, v, w with
  | .equal, .nothing, .nothing => .ok true
  | .equal, .text s, .text t => .ok (s == t)
  | .less, .text s, .text t => .ok (s < t)
  | .equal, v, w =>
    match v.parts?, w.parts? with
    | some (m, a), some (n, b) => .ok (r.holds (m.order n) && Scalar.same a b)
    | _, _ => .ok false
  | .less, v, w =>
    match v.parts?, w.parts? with
    | some (m, _), some (n, _) =>
      if v.isComplex || w.isComplex then .error .wrongType else .ok (r.holds (m.order n))
    | _, _ => .error .wrongType

/-- The relation of single values.  Numbers from arrays first take a common type;
where that is none of numbers they count as numbers of their own. -/
def singleRelation (r : Relation) (v w : Value α) : Except (Fault α) Bool :=
  if v.isFromArray || w.isFromArray then
    (commonType v w).bind fun t =>
      match t, r with
      | .text, .equal => .ok false
      | .text, .less => .error .unordered
      | .any, r => plainRelation r v.bare w.bare
      | t, r =>
        (Cell.ofValue t v).bind fun x => (Cell.ofValue t w).map fun y => Cell.holds r x y
  else plainRelation r v w

def pairsOf {β γ : Type} (x : Nested β) (y : Nested γ) : Except (Fault α) (List (β × γ)) :=
  match x.meet? y with
  | some pairs => .ok pairs
  | none => .error .malformed

/-- The relation element by element, one of the values being from an array.  The
elements of that one count as numbers of their own where the other side holds
values of any kind. -/
def arrayRelation (r : Relation) (v w : Value α) : Except (Fault α) (List Bool) := do
  let x ← v.grid
  let y ← w.grid
  match ← commonType v w, r with
  | .text, .equal => return (← pairsOf x y).map fun _ => false
  | .text, .less => throw .unordered
  | .any, r =>
    let own (v c : Value α) := if v.isFromArray then c.bare else c
    (← pairsOf x y).mapM fun (a, b) => singleRelation r (own v a) (own w b)
  | t, r =>
    let xs ← x.convert (Cell.ofValue t)
    let ys ← y.convert (Cell.ofValue t)
    return (← pairsOf xs ys).map fun (a, b) => Cell.holds r a b

def onlyAnswer : List Bool → Except (Fault α) Bool
  | [b] => .ok b
  | _ => .error .malformed

def oneAnswer (r : Relation) (v w : Value α) : Except (Fault α) Bool :=
  if v.isFromArray || w.isFromArray then (arrayRelation r v w).bind onlyAnswer
  else plainRelation r v w

mutual

/-- Equality; that of lists, tuples and dictionaries is settled by the first
difference. -/
def equal : Value α → Value α → Except (Fault α) Bool
  | .list xs, .list ys => if xs.length = ys.length then equalItems xs ys else .ok false
  | .tuple xs, .tuple ys => equalItems xs ys
  | .dict xs, .dict ys => if xs.length = ys.length then equalEntries xs ys else .ok false
  | v, w => oneAnswer .equal v w

def equalItems : List (Value α) → List (Value α) → Except (Fault α) Bool
  | [], [] => .ok true
  | x :: xs, y :: ys =>
    match equal x y with
    | .ok true => equalItems xs ys
    | other => other
  | _, _ => .ok false

def equalEntries : List (String × Value α) → Dict α → Except (Fault α) Bool
  | [], _ => .ok true
  | (key, x) :: rest, ys =>
    match Keyed.get? ys key with
    | none => .ok false
    | some y =>
      match equal x y with
      | .ok true => equalEntries rest ys
      | other => other

end

mutual

def less : Value α → Value α → Except (Fault α) Bool
  | .list xs, .list ys => lessItems xs ys
  | .tuple xs, .tuple ys => lessItems xs ys
  | v, w => oneAnswer .less v w

def lessItems : List (Value α) → List (Value α) → Except (Fault α) Bool
  | [], ys => .ok !ys.isEmpty
  | _ :: _, [] => .ok false
  | x :: xs, y :: ys =>
    match equal x y with
    | .error fault => .error fault
    | .ok true => lessItems xs ys
    | .ok false => less x y

end

def equalsAny (v : Value α) : List (Value α) → Except (Fault α) Bool
  | [] => .ok false
  | x :: rest =>
    match equal x v with
    | .ok false => v.equalsAny rest
    | other => other

def occurs (s t : List Char) : Bool :=
  s.isPrefixOf t ||
    match t with
    | [] => false
    | _ :: rest => occurs s rest

mutual

/-- What can change cannot be looked up by key, nor can what holds it. -/
def isKey : Value α → Bool
  | .list _ | .dict _ | .array _ => false
  | .tuple items => areKeys items
  | _ => true

def areKeys : List (Value α) → Bool
  | [] => true
  | v :: rest => v.isKey && areKeys rest

end

def isIn (v container : Value α) : Except (Fault α) Bool :=
  match container, v with
  | .list xs, v | .tuple xs, v => v.equalsAny xs
  | .text t, .text s => .ok (occurs s.toList t.toList)
  | .dict entries, .text s => .ok (Keyed.get? entries s).isSome
  | .dict _, v => if v.isKey then .ok false else .error .wrongType
  | .array x, v => (arrayRelation .equal (.array x) v).map (·.any id)
  | _, _ => .error .wrongType

end Value

end Coplanar
