import Coplanar.Nested

/-! Arrays laid out in lines: brackets around every list, each row broken where
it would become too wide, and one row below the other.  Of a large array only
the ends are shown. -/
namespace Coplanar.Nested

variable {α : Type}

def shownCells : Nat := 1000

def shownEnds : Nat := 3

def abridged (items : List (Nested (Option α))) : List (Nested (Option α)) :=
  if 2 * shownEnds < items.length then
    items.take shownEnds ++ .leaf none :: items.drop (items.length - shownEnds)
  else items

mutual

def ends : Nested α → Nested (Option α)
  | .leaf x => .leaf (some x)
  | .node items => .node (abridged (endsOf items))

def endsOf : List (Nested α) → List (Nested (Option α))
  | [] => []
  | x :: rest => x.ends :: endsOf rest

end

def shown (x : Nested α) : Nested (Option α) :=
  if shownCells < x.cells.length then x.ends else x.map some

structure Frame where
  /-- Behind every item but the last; a blank or a line break follows. -/
  mark : String
  /-- Characters of a line. -/
  width : Nat
  /-- Characters before the items of the outermost list. -/
  indent : Nat
deriving DecidableEq, Repr

/-- A row in the making: complete lines, and the one that still grows. -/
structure Lines where
  complete : List String
  line : String

def blanks (n : Nat) : String := String.ofList (List.replicate n ' ')

def trimEnd (s : String) : String :=
  String.ofList (s.toList.reverse.dropWhile (· == ' ')).reverse

/-- Adds a word, on a line of its own if it does not fit; a line that holds no
word yet takes any. -/
def Lines.add (indent width : Nat) (row : Lines) (word : String) : Lines :=
  if width < row.line.length + word.length ∧ indent < row.line.length then
    ⟨row.complete ++ [trimEnd row.line], blanks indent ++ word⟩
  else { row with line := row.line ++ word }

def Lines.addAll (mark : String) (indent width : Nat) (row : Lines) : List String → Lines
  | [] => row
  | [word] => row.add indent width word
  | word :: next :: rest =>
    let row := row.add indent width word
    { row with line := row.line ++ mark ++ " " }.addAll mark indent width (next :: rest)

def rowText (mark : String) (indent width : Nat) (words : List String) : String :=
  let row := Lines.addAll mark indent width ⟨[], blanks indent⟩ words
  let lines := "\n".intercalate (row.complete ++ [row.line])
  "[" ++ String.ofList (lines.toList.drop indent) ++ "]"

mutual

/-- An array of written elements with a number of axes.  Items that are lists
stand on lines of their own, further apart the more axes they have. -/
def frameText (mark : String) : (axes indent width : Nat) → Nested String → String
  | _, _, _, .leaf word => word
  | axes, indent, width, .node items =>
    let words := frameTexts mark (axes - 1) (indent + 1) (width - 1) items
    if axes ≤ 1 then rowText mark indent (width - 1) words
    else
      let gap := mark ++ String.ofList (List.replicate (axes - 1) '\n') ++ blanks indent
      "[" ++ gap.intercalate words ++ "]"

def frameTexts (mark : String) (axes indent width : Nat) : List (Nested String) → List String
  | [] => []
  | x :: rest =>
    frameText mark axes indent width x :: frameTexts mark axes indent width rest

end

def Frame.text (f : Frame) (axes : Nat) (x : Nested String) : String :=
  frameText f.mark axes f.indent f.width x

end Coplanar.Nested
