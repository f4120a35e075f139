/-! What can go wrong, by cause. -/
namespace Coplanar

inductive Question where
  | rows
  | channels
deriving DecidableEq, Repr

inductive Fault (α : Type) where
  | tooFewRows (rows : Nat)
  | notADirection (shape : List Nat)
  /-- A corrector bound to one tangent point was asked for another. -/
  | otherTangentPoint
  | noSource
  | noChannels
  | noPositiveFrequency (highest : α)
  | settingsRefused
  | selectionRefused
  | toleranceExceeded (deviation wTolerance tolerance : α)
  /-- The source does not answer this question at all. -/
  | notServed (question : Question)
  /-- A value of the right type that cannot be used: a ragged array, a row
  count that is no multiple of three, a text that is no number. -/
  | malformed
  | wrongType
  /-- Text and numbers in arrays are neither compared nor combined. -/
  | unordered
  | overflow
  | unknownName
  | outOfRange
  /-- Arrays that share a dimension have different lengths along it. -/
  | lengthsDisagree
  /-- A datum has the name of a dimension. -/
  | ambiguousName
  /-- The axes of a coordinate have no names. -/
  | unnamedAxes
  /-- Something is to be cut into blocks of size zero. -/
  | emptyBlocks
  /-- An array of other than one axis where only a vector has a meaning. -/
  | notAVector
  /-- Corrected coordinates are handed out read-only. -/
  | readOnly
deriving DecidableEq, Repr

section Success

variable {ε β γ : Type}

theorem bind_eq_ok_iff {x : Except ε β} {next : β → Except ε γ} {z : γ} :
    x.bind next = .ok z ↔ ∃ y, x = .ok y ∧ next y = .ok z := by
  cases x <;> simp [Except.bind]

theorem map_eq_ok_iff {x : Except ε β} {f : β → γ} {z : γ} :
    x.map f = .ok z ↔ ∃ y, x = .ok y ∧ f y = z := by
  cases x <;> simp [Except.map]

end Success

end Coplanar
