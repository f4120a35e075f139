import Coplanar.Text.Unassigned

/-! Classes of characters that matter to reading and quoting. -/
namespace Coplanar.Text

def inRanges (ranges : List (Nat × Nat)) (c : Char) : Bool :=
  ranges.any fun (low, high) => low ≤ c.toNat && c.toNat ≤ high

def blankRanges : List (Nat × Nat) :=
  [(9, 13), (32, 32), (133, 133), (160, 160), (5760, 5760), (8192, 8202), (8232, 8233),
   (8239, 8239), (8287, 8287), (12288, 12288)]

def isBlank (c : Char) : Bool := inRanges blankRanges c

def breakRanges : List (Nat × Nat) := [(10, 13), (28, 30), (133, 133), (8232, 8233)]

def isBreak (c : Char) : Bool := inRanges breakRanges c

def hiddenRanges : List (Nat × Nat) :=
  [(0, 31), (127, 160), (173, 173), (1536, 1541), (1564, 1564), (1757, 1757), (1807, 1807),
   (2192, 2193), (2274, 2274), (5760, 5760), (6158, 6158), (8192, 8207), (8232, 8239),
   (8287, 8292), (8294, 8303), (12288, 12288), (55296, 63743), (65279, 65279),
   (65529, 65531), (69821, 69821), (69837, 69837), (78896, 78904), (113824, 113827),
   (119155, 119162), (917505, 917505), (917536, 917631), (983040, 1114111)]

def isHidden (c : Char) : Bool := inRanges hiddenRanges c || inRanges unassignedRanges c

/-- The zeros of the decimal digits of all scripts; nine more digits follow each. -/
def zeroDigits : List Nat :=
  [0x30, 0x660, 0x6f0, 0x7c0, 0x966, 0x9e6, 0xa66, 0xae6, 0xb66, 0xbe6, 0xc66, 0xce6, 0xd66,
   0xde6, 0xe50, 0xed0, 0xf20, 0x1040, 0x1090, 0x17e0, 0x1810, 0x1946, 0x19d0, 0x1a80, 0x1a90,
   0x1b50, 0x1bb0, 0x1c40, 0x1c50, 0xa620, 0xa8d0, 0xa900, 0xa9d0, 0xa9f0, 0xaa50, 0xabf0,
   0xff10, 0x104a0, 0x10d30, 0x11066, 0x110f0, 0x11136, 0x111d0, 0x112f0, 0x11450, 0x114d0,
   0x11650, 0x116c0, 0x11730, 0x118e0, 0x11950, 0x11c50, 0x11d50, 0x11da0, 0x16a60, 0x16ac0,
   0x16b50, 0x1d7ce, 0x1d7d8, 0x1d7e2, 0x1d7ec, 0x1d7f6, 0x1e140, 0x1e2f0, 0x1e950, 0x1fbf0]

def digit? (c : Char) : Option Nat :=
  (zeroDigits.find? fun low => low ≤ c.toNat && c.toNat < low + 10).map (c.toNat - ·)

def trim (cs : List Char) : List Char :=
  ((cs.dropWhile isBlank).reverse.dropWhile isBlank).reverse

/-- The lines of a text; a carriage return and the line feed after it are one
break, and a break at the end starts no line. -/
def linesOf (cs : List Char) : List (List Char) :=
  let rec go : List Char → List Char → List (List Char)
    | [], [] => []
    | [], line => [line.reverse]
    | '\r' :: '\n' :: rest, line => line.reverse :: go rest []
    | c :: rest, line => if isBreak c then line.reverse :: go rest [] else go rest (c :: line)
  go cs []

def lines (s : String) : List String := (linesOf s.toList).map String.ofList

end Coplanar.Text
