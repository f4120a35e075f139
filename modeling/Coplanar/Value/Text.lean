import Coplanar.Decimal.Column
import Coplanar.Nested.Layout
import Coplanar.Text.Quoted
import Coplanar.Value

/-! How values are written in messages: on their own, and inside of others,
where texts are quoted and numbers from arrays name their type. -/
namespace Coplanar

def Kind.name : Kind → String
  | .real => "float"
  | .integer => "int"
  | .text => "str"
  | .truth => "bool"
  | .list => "list"
  | .tuple => "tuple"
  | .dict => "dict"
  | .array => "numpy.ndarray"
  | .number => "numbers.Number"
  | .ordered => "numbers.Real"
  | .whole => "numbers.Integral"

def Kind.written (k : Kind) : String := "<class '" ++ k.name ++ "'>"

def commas (items : List String) : String := ", ".intercalate items

def bracketed (items : List String) : String := "[" ++ commas items ++ "]"

def shapeText : List Nat → String
  | [n] => "(" ++ toString n ++ ",)"
  | shape => "(" ++ commas (shape.map toString) ++ ")"

def writtenKinds (kinds : List Kind) : String := bracketed (kinds.map Kind.written)

namespace Value

def lineWidth : Nat := 75

def truthText (b : Bool) : String := if b then "True" else "False"

def partText (x : Float) : String :=
  let t := Decimal.text x
  if t.endsWith ".0" then String.ofList (t.toList.dropLast.dropLast) else t

/-- The sign of the imaginary part is always written, unless it stands alone. -/
def complexText (re im : Float) : String :=
  if re == 0.0 && re.toBits == 0 then partText im ++ "j"
  else
    let second := partText im
    "(" ++ partText re ++ (if second.startsWith "-" then "" else "+") ++ second ++ "j)"

def cellsText (frame : Nested.Frame) (shape : List Nat) (x : Nested Float) : String :=
  let shown := x.shown
  let column := Decimal.Column.ofList (shown.cells.filterMap id)
  frame.text shape.length (shown.map fun cell => cell.elim "..." column.write)

def arrayText (frame : Nested.Frame) (x : Nested Float) : String :=
  if x.cells.isEmpty then "[]" else cellsText frame (x.shape?.getD []) x

def outerArray : Nested Float → String
  | .leaf x => Decimal.text x
  | x => arrayText ⟨"", lineWidth, 1⟩ x

/-- What the elements do not tell about an array. -/
def arrayRemarks (x : Nested Float) : List String :=
  let shape := x.shape?.getD []
  let count := x.cells.length
  (if (count = 0 ∧ shape ≠ [0]) ∨ Nested.shownCells < count then ["shape=" ++ shapeText shape]
    else []) ++
  (if count = 0 then ["dtype=float64"] else [])

def lastLineLength (s : String) : Nat := (s.toList.reverse.takeWhile (· != '\n')).length

/-- An array inside of other values.  Remarks that do not fit behind the elements
stand below them. -/
def innerArray (x : Nested Float) : String :=
  let opening := "array("
  let text := opening ++ arrayText ⟨",", lineWidth - 1, opening.length + 1⟩ x
  match arrayRemarks x with
  | [] => text ++ ")"
  | remarks =>
    let closing := commas remarks ++ ")"
    let gap :=
      if lineWidth < lastLineLength text + 1 + closing.length + 1 then
        "\n" ++ Nested.blanks opening.length
      else " "
    text ++ "," ++ gap ++ closing

mutual

def inner : Value Float → String
  | .nothing => "None"
  | .truth b => truthText b
  | .integer n => toString n
  | .real x => Decimal.text x
  | .text s => Text.quoted s
  | .list items => bracketed (inners items)
  | .tuple [item] => "(" ++ inner item ++ ",)"
  | .tuple items => "(" ++ commas (inners items) ++ ")"
  | .dict entries => "\x7b" ++ commas (innerEntries entries) ++ "\x7d"
  | .array x => innerArray x
  | .complex re im => complexText re im
  | .double x => "np.float64(" ++ Decimal.text x ++ ")"
  | .single x => "np.float32(" ++ Decimal.singleText x ++ ")"
  | .word n => "np.int64(" ++ toString n ++ ")"
  | .flag b => "np." ++ truthText b ++ "_"

def inners : List (Value Float) → List String
  | [] => []
  | v :: rest => inner v :: inners rest

def innerEntries : List (String × Value Float) → List String
  | [] => []
  | (key, v) :: rest => (Text.quoted key ++ ": " ++ inner v) :: innerEntries rest

end

def outer : Value Float → String
  | .text s => s
  | .double x => Decimal.text x
  | .single x => Decimal.singleText x
  | .word n => toString n
  | .flag b => truthText b
  | .array x => outerArray x
  | v => v.inner

end Value

end Coplanar
