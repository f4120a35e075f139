import Coplanar.Nested

/-! Arrays of different shapes, element by element.  Axes are matched from the
last one; along an axis of length one an array is repeated, and an axis that it
lacks is one of length one.  An array stretched to its own shape is unchanged. -/
namespace Coplanar.Nested

variable {α β : Type}

def jointReversed? : List Nat → List Nat → Option (List Nat)
  | [], t => some t
  | s, [] => some s
  | m :: s, n :: t =>
    if m = n ∨ n = 1 then (jointReversed? s t).map (m :: ·)
    else if m = 1 then (jointReversed? s t).map (n :: ·)
    else none

def joint? (s t : List Nat) : Option (List Nat) :=
  (jointReversed? s.reverse t.reverse).map List.reverse

def wrapped : Nat → Nested α → Nested α
  | 0, x => x
  | n + 1, x => .node [wrapped n x]

/-- The elements of an array stretched along its axes to a shape. -/
def stretched : List Nat → Nested α → List α
  | [], x => x.cells
  | _ :: _, .leaf x => [x]
  | n :: shape, .node [x] => (List.replicate n (stretched shape x)).flatten
  | _ :: shape, .node items => items.flatMap (stretched shape)

def joined? (x : Nested α) (y : Nested β) : Option (List Nat × List (α × β)) :=
  match x.shape?, y.shape? with
  | some s, some t =>
    (joint? s t).map fun shape =>
      (shape, (stretched shape (wrapped (shape.length - s.length) x)).zip
        (stretched shape (wrapped (shape.length - t.length) y)))
  | _, _ => none

def meet? (x : Nested α) (y : Nested β) : Option (List (α × β)) := (joined? x y).map (·.2)

theorem jointReversed?_self (s : List Nat) : jointReversed? s s = some s := by
  induction s with
  | nil => rfl
  | cons n s ih => simp [jointReversed?, ih]

@[simp] theorem joint?_self (s : List Nat) : joint? s s = some s := by
  simp [joint?, jointReversed?_self]

theorem commonLengths?_cons {x : Nested α} {rest : List (Nested α)} {s : List Nat}
    (h : commonLengths? (x :: rest) = some s) : x.lengths? = some s := by
  cases rest with
  | nil => exact h
  | cons y rest =>
    rw [commonLengths?] at h
    split at h
    · rename_i hs _
      split at h
      · rw [hs]; exact h
      · cases h
    · cases h

theorem commonLengths?_tail {x : Nested α} {rest : List (Nested α)} {s : List Nat}
    (h : commonLengths? (x :: rest) = some s) :
    rest = [] ∨ commonLengths? rest = some s := by
  cases rest with
  | nil => exact .inl rfl
  | cons y rest =>
    refine .inr ?_
    rw [commonLengths?] at h
    split at h
    · rename_i ht
      split at h
      · rename_i hst
        rw [ht, ← hst]; exact h
      · cases h
    · cases h

theorem flatMap_stretched_eq {s : List Nat} (items : List (Nested α))
    (keep : ∀ x : Nested α, x.lengths? = some s → stretched s x = x.cells)
    (h : commonLengths? items = some s) : items.flatMap (stretched s) = cellsOf items := by
  induction items with
  | nil => rfl
  | cons x rest ih =>
    rw [List.flatMap_cons, cellsOf, keep x (commonLengths?_cons h)]
    rcases commonLengths?_tail h with rfl | hr
    · rfl
    · rw [ih hr]

/-- A rectangular array stretched to its own lengths keeps its elements. -/
theorem stretched_lengths? (s : List Nat) (x : Nested α) (h : x.lengths? = some s) :
    stretched s x = x.cells := by
  induction s generalizing x with
  | nil => rfl
  | cons n s ih =>
    cases x with
    | leaf x => rfl
    | node items =>
      rw [lengths?, Option.map_eq_some_iff] at h
      obtain ⟨t, ht, hnt⟩ := h
      obtain ⟨hn, rfl⟩ := List.cons.inj hnt
      rcases items with _ | ⟨x, _ | ⟨y, rest⟩⟩
      · rfl
      · subst hn
        simp [stretched, cells, cellsOf, ih x (commonLengths?_cons ht)]
      · exact flatMap_stretched_eq _ ih ht

end Coplanar.Nested
