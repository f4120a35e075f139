/-! Things by name, in the order in which the names came. -/
namespace Coplanar

abbrev Keyed (β : Type) := List (String × β)

namespace Keyed

variable {β : Type}

def get? : Keyed β → String → Option β
  | [], _ => none
  | (k, x) :: rest, name => if k = name then some x else get? rest name

/-- Replaces the entry of that name in its place, or appends it. -/
def put : Keyed β → String → β → Keyed β
  | [], name, x => [(name, x)]
  | (k, y) :: rest, name, x =>
    if k = name then (k, x) :: rest else (k, y) :: put rest name x

def erase (d : Keyed β) (name : String) : Keyed β := d.filter fun entry => entry.1 != name

def names (d : Keyed β) : List String := d.map (·.1)

@[simp] theorem get?_nil (name : String) : get? ([] : Keyed β) name = none := rfl

theorem get?_cons (k name : String) (x : β) (rest : Keyed β) :
    get? ((k, x) :: rest) name = if k = name then some x else get? rest name := rfl

@[simp] theorem get?_put_self (d : Keyed β) (name : String) (x : β) :
    (d.put name x).get? name = some x := by
  induction d with
  | nil => simp [put, get?]
  | cons entry rest ih =>
    obtain ⟨k, y⟩ := entry
    by_cases h : k = name <;> simp [put, get?, h, ih]

theorem get?_put_of_ne (d : Keyed β) {name other : String} (x : β) (h : name ≠ other) :
    (d.put name x).get? other = d.get? other := by
  induction d with
  | nil => simp [put, get?, h]
  | cons entry rest ih =>
    obtain ⟨k, y⟩ := entry
    by_cases hk : k = name
    · simp [put, get?, hk, h]
    · simp [put, get?, hk, ih]

@[simp] theorem get?_erase_self (d : Keyed β) (name : String) :
    (d.erase name).get? name = none := by
  induction d with
  | nil => rfl
  | cons entry rest ih =>
    obtain ⟨k, y⟩ := entry
    by_cases h : k = name
    · simpa [erase, h] using ih
    · simpa [erase, get?, h] using ih

theorem get?_erase_of_ne (d : Keyed β) {name other : String} (h : name ≠ other) :
    (d.erase name).get? other = d.get? other := by
  induction d with
  | nil => rfl
  | cons entry rest ih =>
    obtain ⟨k, y⟩ := entry
    by_cases hk : k = name
    · simpa [erase, get?, hk, h] using ih
    · by_cases ho : k = other
      · simp [erase, get?, ho, Ne.symm h]
      · simpa [erase, get?, hk, ho] using ih

end Keyed

end Coplanar
