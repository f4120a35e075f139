import Coplanar.Text.Characters

/-! Numbers as callers write them in texts: blanks around, a sign, digits of any
script with single underscores between them. -/
namespace Coplanar.Text

inductive Numeric where
  | missing
  | infinite (negative : Bool)
  /-- `digits * 10 ^ place`. -/
  | decimal (negative : Bool) (digits : Nat) (place : Int)
deriving DecidableEq, Repr

def sign : List Char → Bool × List Char
  | '-' :: rest => (true, rest)
  | '+' :: rest => (false, rest)
  | cs => (false, cs)

/-- Reads digits on top of those of `n`, of which there were `count`. -/
def digitsFrom (n count : Nat) : List Char → Nat × Nat × List Char
  | [] => (n, count, [])
  | '_' :: c :: rest =>
    match count, digit? c with
    | _ + 1, some d => digitsFrom (10 * n + d) (count + 1) rest
    | _, _ => (n, count, '_' :: c :: rest)
  | c :: rest =>
    match digit? c with
    | some d => digitsFrom (10 * n + d) (count + 1) rest
    | none => (n, count, c :: rest)

/-- A whole number has no more digits than these, leading zeros among them. -/
def maxDigits : Nat := 4300

def readInt? (s : String) : Option Int :=
  let (negative, rest) := sign (trim s.toList)
  match digitsFrom 0 0 rest with
  | (n, count + 1, []) =>
    if count < maxDigits then some (if negative then -(n : Int) else n) else none
  | _ => none

def exponent? : List Char → Option Int
  | [] => some 0
  | e :: rest =>
    if e = 'e' ∨ e = 'E' then
      let (negative, rest) := sign rest
      match digitsFrom 0 0 rest with
      | (n, _ + 1, []) => some (if negative then -(n : Int) else n)
      | _ => none
    else none

def word? (cs : List Char) : Option (Bool → Numeric) :=
  match String.ofList (cs.map Char.toLower) with
  | "inf" | "infinity" => some .infinite
  | "nan" => some fun _ => .missing
  | _ => none

def readNumber? (s : String) : Option Numeric :=
  let (negative, rest) := sign (trim s.toList)
  match word? rest with
  | some numeric => some (numeric negative)
  | none =>
    let (whole, before, rest) := digitsFrom 0 0 rest
    let (digits, count, rest) :=
      match rest with
      | '.' :: c :: tail =>
        if (digit? c).isSome then digitsFrom whole 0 (c :: tail) else (whole, 0, c :: tail)
      | ['.'] => (whole, 0, [])
      | rest => (whole, 0, rest)
    if before + count = 0 then none
    else (exponent? rest).map fun e => .decimal negative digits (e - count)

end Coplanar.Text
