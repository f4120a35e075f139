import Coplanar.Value.Order

/-! Rules that one entry of a parameter dictionary has to keep.  A check tells
what it found wrong, and fills in the default of an entry that is absent. -/
namespace Coplanar

inductive Complaint (α : Type) where
  | unspecified (key : String)
  | wrongKind (key : String) (kinds : List Kind)
  | wrongLength (key : String) (kinds : Option (List Kind)) (length : Value α)
  | notAllowed (key : String) (allowed : Value α)
  | notInRange (key : String) (range : Value α)
  | noVariable (name : Value α)

structure Rule (α : Type) where
  kinds : List Kind
  allowed : Option (Value α) := none
  /-- The least and the greatest value. -/
  range : Option (Value α) := none
  /-- The kinds of the items, if the value is to be a list or an array. -/
  itemKinds : Option (List Kind) := none
  /-- The number of items; `-1` is any. -/
  length : Value α := .nothing
  default : Option (Value α) := none

/-- The outcome of a check: passed or not, or a fault on the way; the complaints
so far; and the parameters afterwards. -/
structure Checked (α β : Type) where
  result : Except (Fault α) β
  complaints : List (Complaint α)
  parameters : Value α

variable {α : Type}

def Checked.bind {β γ : Type} (c : Checked α β) (next : β → Value α → Checked α γ) :
    Checked α γ :=
  match c.result with
  | .error fault => ⟨.error fault, c.complaints, c.parameters⟩
  | .ok x =>
    let d := next x c.parameters
    { d with complaints := c.complaints ++ d.complaints }

variable [Numeral α]

namespace Value

def hasEntry (parameters : Value α) (key : String) : Except (Fault α) Bool :=
  (Value.text key).isIn parameters

def entry (parameters : Value α) (key : String) : Except (Fault α) (Value α) :=
  match parameters with
  | .dict d =>
    match Keyed.get? d key with
    | some v => .ok v
    | none => .error .unknownName
  | .array _ => .error .outOfRange
  | _ => .error .wrongType

def setEntry (parameters : Value α) (key : String) (value : Value α) :
    Except (Fault α) (Value α) :=
  match parameters with
  | .dict d => .ok (.dict (Keyed.put d key value))
  | .array _ => .error .outOfRange
  | _ => .error .wrongType

end Value

namespace Rule

def isOutside (range v : Value α) : Except (Fault α) Bool := do
  let low ← range.item 0
  if ← v.less low then return true
  let high ← range.item 1
  high.less v

def objection? (r : Rule α) (key : String) (kinds : List Kind) (v : Value α) :
    Except (Fault α) (Option (Complaint α)) := do
  if !v.isOneOf kinds then return some (.wrongKind key kinds)
  if let some allowed := r.allowed then
    if !(← v.isIn allowed) then return some (.notAllowed key allowed)
  if let some range := r.range then
    if ← isOutside range v then return some (.notInRange key range)
  return none

def firstObjection? (r : Rule α) (key : String) (kinds : List Kind) :
    List (Value α) → Except (Fault α) (Option (Complaint α))
  | [] => .ok none
  | v :: rest =>
    match r.objection? key kinds v with
    | .ok none => r.firstObjection? key kinds rest
    | other => other

def ofItems (r : Rule α) : Bool := r.kinds.contains .list || r.kinds.contains .array

def hasWrongLength (r : Rule α) (v : Value α) : Except (Fault α) Bool := do
  let count ← v.length?
  if ← Value.equal (.integer count) r.length then return false
  return !(← Value.equal r.length (.integer (-1)))

def itemsObjection? (r : Rule α) (key : String) (v : Value α) :
    Except (Fault α) (Option (Complaint α)) := do
  if !v.isOneOf r.kinds then return some (.wrongKind key r.kinds)
  if ← r.hasWrongLength v then return some (.wrongLength key r.itemKinds r.length)
  match r.itemKinds, v.items?.getD [] with
  | _, [] => return none
  | none, _ => throw .wrongType
  | some kinds, items => r.firstObjection? key kinds items

def valueObjection? (r : Rule α) (key : String) (v : Value α) :
    Except (Fault α) (Option (Complaint α)) :=
  if r.ofItems then r.itemsObjection? key v else r.objection? key r.kinds v

def check (r : Rule α) (key : String) (parameters : Value α) : Checked α Bool :=
  match parameters.hasEntry key, r.default with
  | .error fault, _ => ⟨.error fault, [], parameters⟩
  | .ok false, none => ⟨.ok false, [.unspecified key], parameters⟩
  | .ok false, some value =>
    match parameters.setEntry key value with
    | .error fault => ⟨.error fault, [], parameters⟩
    | .ok filled => ⟨.ok true, [], filled⟩
  | .ok true, _ =>
    match (parameters.entry key).bind (r.valueObjection? key) with
    | .error fault => ⟨.error fault, [], parameters⟩
    | .ok none => ⟨.ok true, [], parameters⟩
    | .ok (some complaint) => ⟨.ok false, [complaint], parameters⟩

/-- Checks one entry after the other; one that fails does not keep the others
from being checked. -/
def checkAll : List (String × Rule α) → Value α → Checked α Bool
  | [], parameters => ⟨.ok true, [], parameters⟩
  | (key, r) :: rest, parameters =>
    (r.check key parameters).bind fun passed parameters =>
      (checkAll rest parameters).bind fun others parameters =>
        ⟨.ok (passed && others), [], parameters⟩

end Rule

end Coplanar
