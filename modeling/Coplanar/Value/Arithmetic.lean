import Coplanar.Nested.Stretch
import Coplanar.Value.Amount
import Coplanar.Value.CellType

/-! Arithmetic on values.  Numbers of their own make numbers of their own.  As soon
as a value comes from an array, both sides are taken as arrays of numbers, and
combined element by element once they have the same shape. -/
namespace Coplanar.Value

variable {α : Type} [Numeral α]

def combineNumbers (op : Operation α) (v w : Value α) : Except (Fault α) (Value α) :=
  match v.amount?, w.amount? with
  | some a, some b => (a.combine op b).map ofAmount
  | _, _ => .error .wrongType

def toElement (v : Value α) : Except (Fault α) α :=
  match v.bare.amount? with
  | some a => a.toReal
  | none => .error .wrongType

/-- Of values one of which is from an array.  An array without elements has none
that could be at fault. -/
def combineArrays (op : α → α → α) (v w : Value α) : Except (Fault α) (Value α) := do
  let x ← v.grid
  let y ← w.grid
  if cellsType x.cells = .text ∨ cellsType y.cells = .text then throw .unordered
  match Nested.joined? x y with
  | none => throw .malformed
  | some (shape, pairs) =>
    let cells ← pairs.mapM fun (a, b) => do return op (← a.toElement) (← b.toElement)
    return ofNested (.ofShape shape cells)

def combine (op : Operation α) (v w : Value α) : Except (Fault α) (Value α) :=
  if v.isFromArray || w.isFromArray then combineArrays op.real v w else combineNumbers op v w

/-- A text is not added to a single number. -/
def plus (v w : Value α) : Except (Fault α) (Value α) :=
  match v with
  | .text _ => if w.hasItems then combine .plus v w else .error .wrongType
  | v => combine .plus v w

def minus (v w : Value α) : Except (Fault α) (Value α) := combine .minus v w

def isSequence : Value α → Bool
  | .list _ | .tuple _ | .text _ => true
  | _ => false

/-- Sequences take part in products as arrays do, but not beside a single number. -/
def times (v w : Value α) : Except (Fault α) (Value α) :=
  if (v.isSequence && !w.hasItems) || (w.isSequence && !v.hasItems) then .error .wrongType
  else combine .times v w

def dividedBy (v : Value α) (x : α) : Except (Fault α) (Value α) :=
  match v with
  | .array cells => .ok (.array (cells.map (· / x)))
  | .double y => .ok (.double (y / x))
  | v =>
    match v.amount? with
    | some a => a.toReal.map fun y => .real (y / x)
    | none => .error .wrongType

end Coplanar.Value
