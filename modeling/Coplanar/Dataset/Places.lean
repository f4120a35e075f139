import Coplanar.Value

/-! Places along a dimension: one, or several in any order.  A caller gives them as a
whole number, a list of these, or a list with a mark for each place. -/
namespace Coplanar

inductive Places where
  | one (i : Nat)
  | several (is : List Nat)
deriving DecidableEq, Repr

/-- A place counted from the end if it is negative. -/
def place? (i : Int) (count : Nat) : Option Nat :=
  let j := if i < 0 then i + count else i
  if 0 ≤ j ∧ j < count then some j.toNat else none

theorem place?_natCast {i count : Nat} (h : i < count) : place? i count = some i := by
  have hi : ¬ (i : Int) < 0 := Int.not_lt.mpr (Int.natCast_nonneg _)
  unfold place?
  rw [if_neg hi, if_pos ⟨Int.natCast_nonneg _, Int.ofNat_lt.mpr h⟩, Int.toNat_natCast]

namespace Places

variable {α : Type}

def find (count : Nat) (i : Int) : Except (Fault α) Nat :=
  match place? i count with
  | some j => .ok j
  | none => .error .outOfRange

def index : Value α → Except (Fault α) Int
  | .integer n =>
    if Value.wordLow ≤ n ∧ n < Value.naturalLimit then .ok n else .error .wrongType
  | .truth b => .ok (Value.bit b)
  | _ => .error .wrongType

def mark? : Value α → Option Bool
  | .truth b => some b
  | _ => none

def marked (marks : List Bool) : List Nat :=
  (marks.zip (List.range marks.length)).filterMap fun (mark, i) => if mark then some i else none

def ofItems (count : Nat) (items : List (Value α)) : Except (Fault α) (List Nat) :=
  match items, items.mapM mark? with
  | _ :: _, some marks =>
    if marks.length = count then .ok (marked marks) else .error .outOfRange
  | items, _ => (items.mapM index).bind fun is => is.mapM (find count)

def ofValue (count : Nat) : Value α → Except (Fault α) Places
  | .integer i => (find count i).map .one
  | .list items =>
    (Value.list items).grid.bind fun grid =>
      if (grid.shape?.getD []).length = 1 then (ofItems count items).map .several
      else .error .outOfRange
  | _ => .error .wrongType

end Places

end Coplanar
