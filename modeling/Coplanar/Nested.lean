import Coplanar.Fault

/-! Arrays as callers write them: lists within lists.  `shape?` is the shape of
a rectangular one, `cells` lists its elements in order. -/
namespace Coplanar

inductive Nested (α : Type) where
  | leaf (x : α)
  | node (items : List (Nested α))
deriving Repr

namespace Nested

variable {α β : Type}

mutual

/-- The length along each axis; a ragged array has none. -/
def lengths? : Nested α → Option (List Nat)
  | .leaf _ => some []
  | .node items => (commonLengths? items).map (items.length :: ·)

def commonLengths? : List (Nested α) → Option (List Nat)
  | [] => some []
  | [x] => x.lengths?
  | x :: y :: rest =>
    match x.lengths?, commonLengths? (y :: rest) with
    | some s, some t => if s = t then some s else none
    | _, _ => none

end

def maxAxes : Nat := 64

/-- The shape of an array; lists that are ragged or nested too deep are none. -/
def shape? (x : Nested α) : Option (List Nat) :=
  match x.lengths? with
  | some shape => if shape.length ≤ maxAxes then some shape else none
  | none => none

mutual

def cells : Nested α → List α
  | .leaf x => [x]
  | .node items => cellsOf items

def cellsOf : List (Nested α) → List α
  | [] => []
  | x :: rest => x.cells ++ cellsOf rest

end

mutual

def map (f : α → β) : Nested α → Nested β
  | .leaf x => .leaf (f x)
  | .node items => .node (mapItems f items)

def mapItems (f : α → β) : List (Nested α) → List (Nested β)
  | [] => []
  | x :: rest => x.map f :: mapItems f rest

end

mutual

/-- The same lists, each element converted; the first fault ends it. -/
def convert {ε : Type} (f : α → Except ε β) : Nested α → Except ε (Nested β)
  | .leaf x => (f x).map .leaf
  | .node items => (convertItems f items).map .node

def convertItems {ε : Type} (f : α → Except ε β) :
    List (Nested α) → Except ε (List (Nested β))
  | [] => .ok []
  | x :: rest =>
    match x.convert f with
    | .error fault => .error fault
    | .ok y => (convertItems f rest).map (y :: ·)

end

def whole (x : Nested α) : Except (Fault β) (Nested α) :=
  match x.shape? with
  | some _ => .ok x
  | none => .error .malformed

def rectangular (x : Nested α) : Except (Fault α) (List α) :=
  match x.shape? with
  | some _ => .ok x.cells
  | none => .error .malformed

def ofList (xs : List α) : Nested α := .node (xs.map .leaf)

@[simp] theorem cells_ofList (xs : List α) : (ofList xs).cells = xs := by
  show cellsOf (xs.map .leaf) = xs
  induction xs with
  | nil => rfl
  | cons x rest ih => simp [cellsOf, cells, ih]

theorem commonLengths?_leaves (xs : List α) :
    commonLengths? (xs.map Nested.leaf) = some [] := by
  induction xs with
  | nil => rfl
  | cons x rest ih =>
    cases rest with
    | nil => rfl
    | cons y rest =>
      rw [List.map_cons] at ih
      simp [commonLengths?, lengths?, ih]

@[simp] theorem shape?_ofList (xs : List α) : (ofList xs).shape? = some [xs.length] := by
  simp [ofList, shape?, lengths?, commonLengths?_leaves, maxAxes]

@[simp] theorem rectangular_ofList (xs : List α) : (ofList xs).rectangular = .ok xs := by
  simp [rectangular]

def pieces (size : Nat) : Nat → List α → List (List α)
  | 0, _ => []
  | count + 1, xs => xs.take size :: pieces size count (xs.drop size)

def volume (shape : List Nat) : Nat := shape.foldl (· * ·) 1

def ofShape : List Nat → List α → Nested α
  | [], x :: _ => .leaf x
  | [], [] => .node []
  | n :: shape, xs => .node ((pieces (volume shape) n xs).map (ofShape shape))

def atLeastOne : Nested α → Nested α
  | .leaf x => .node [.leaf x]
  | x => x

end Nested

end Coplanar
