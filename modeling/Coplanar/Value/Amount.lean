import Coplanar.Value

/-! Whole numbers, which stay exact, and real ones. -/
namespace Coplanar

inductive Amount (α : Type) where
  | whole (n : Int)
  | real (x : α)
deriving DecidableEq, Repr

structure Operation (α : Type) where
  whole : Int → Int → Int
  real : α → α → α

namespace Operation

variable {α : Type} [Scalar α]

def plus : Operation α := ⟨(· + ·), (· + ·)⟩

def minus : Operation α := ⟨(· - ·), (· - ·)⟩

def times : Operation α := ⟨(· * ·), (· * ·)⟩

end Operation

namespace Value

variable {α : Type}

def amount? : Value α → Option (Amount α)
  | .truth b => some (.whole (bit b))
  | .integer n => some (.whole n)
  | .real x => some (.real x)
  | _ => none

def ofAmount : Amount α → Value α
  | .whole n => .integer n
  | .real x => .real x

end Value

variable {α : Type} [Numeral α]

namespace Amount

def orderReals (x y : α) : Option Ordering :=
  if Scalar.less x y then some .lt
  else if Scalar.same x y then some .eq
  else if Scalar.less y x then some .gt
  else none

def order : Amount α → Amount α → Option Ordering
  | .whole m, .whole n => some (compare m n)
  | .whole n, .real x => (Numeral.compareInt x n).map Ordering.swap
  | .real x, .whole n => Numeral.compareInt x n
  | .real x, .real y => orderReals x y

def toReal : Amount α → Except (Fault α) α
  | .whole n => Value.ofInt n
  | .real x => .ok x

def toInt : Amount α → Except (Fault α) Int
  | .whole n => .ok n
  | .real x => Value.wholePart x

/-- Whole numbers only make whole ones. -/
def combine (op : Operation α) : Amount α → Amount α → Except (Fault α) (Amount α)
  | .whole m, .whole n => .ok (.whole (op.whole m n))
  | a, b => do return .real (op.real (← a.toReal) (← b.toReal))

@[simp] theorem combine_whole (op : Operation α) (m n : Int) :
    combine op (.whole m) (.whole n) = .ok (.whole (op.whole m n)) := rfl

/-- The larger one; the first of equal ones. -/
def larger (a b : Amount α) : Amount α := if a.order b = some .lt then b else a

end Amount

def Value.total (vs : List (Value α)) : Except (Fault α) (Amount α) :=
  vs.foldlM
    (fun sum v =>
      match v.amount? with
      | some a => sum.combine .plus a
      | none => .error .wrongType)
    (.whole 0)

end Coplanar
