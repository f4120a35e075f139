import Mathlib.Data.List.Forall2
import Coplanar.Keyed

/-! Tables of the same names in the same order, whose items correspond. -/
namespace Coplanar.Keyed

variable {β γ : Type} {R : β → γ → Prop} {d : Keyed β} {e : Keyed γ}

def Related (R : β → γ → Prop) (d : Keyed β) (e : Keyed γ) : Prop :=
  List.Forall₂ (fun x y => y.1 = x.1 ∧ R x.2 y.2) d e

namespace Related

theorem names (h : Related R d e) : e.names = d.names := by
  induction h with
  | nil => rfl
  | cons hfirst _ ih => exact congrArg₂ List.cons hfirst.1 ih

theorem get? (h : Related R d e) (name : String) :
    Option.Rel R (d.get? name) (e.get? name) := by
  induction h with
  | nil => exact .none
  | @cons x y _ _ hfirst _ ih =>
    obtain ⟨key, v⟩ := x
    obtain ⟨key', w⟩ := y
    obtain ⟨rfl, hvw⟩ := hfirst
    simp only [get?_cons]
    split
    · exact .some hvw
    · exact ih

theorem isSome_get? (h : Related R d e) (name : String) :
    (e.get? name).isSome = (d.get? name).isSome := by
  have hrel := h.get? name
  generalize d.get? name = v at hrel ⊢
  generalize e.get? name = w at hrel ⊢
  cases hrel <;> rfl

theorem put (h : Related R d e) (name : String) {v : β} {w : γ} (hvw : R v w) :
    Related R (d.put name v) (e.put name w) := by
  induction h with
  | nil => exact .cons ⟨rfl, hvw⟩ .nil
  | @cons x y _ _ hfirst hrest ih =>
    obtain ⟨key, v'⟩ := x
    obtain ⟨key', w'⟩ := y
    obtain ⟨rfl, hvw'⟩ := hfirst
    by_cases hkey : key' = name
    · rw [Keyed.put, if_pos hkey, Keyed.put, if_pos hkey]
      exact .cons ⟨rfl, hvw⟩ hrest
    · rw [Keyed.put, if_neg hkey, Keyed.put, if_neg hkey]
      exact .cons ⟨rfl, hvw'⟩ ih

end Related

theorem put_of_get? {name : String} {x : β} (h : d.get? name = some x) : d.put name x = d := by
  induction d with
  | nil => cases h
  | cons entry rest ih =>
    obtain ⟨key, y⟩ := entry
    rw [get?_cons] at h
    by_cases hkey : key = name
    · rw [if_pos hkey] at h
      cases h
      rw [Keyed.put, if_pos hkey]
    · rw [if_neg hkey] at h
      rw [Keyed.put, if_neg hkey, ih h]

end Coplanar.Keyed
