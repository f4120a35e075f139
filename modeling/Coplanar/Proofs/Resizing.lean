import Coplanar.Proofs.Outputs
import Coplanar.Proofs.Related

/-! Datasets of which one dimension has another length.  What can be put into a dataset
depends on names and on lengths that agree, so what fits before fits after, once it is as
long as the dimension has become. -/
namespace Coplanar

def resize (dim : String) (n : Int) (entry : String × Int) : String × Int :=
  (entry.1, if entry.1 = dim then n else entry.2)

section Lengths

variable {dim : String} {n : Int}

@[simp] theorem resize_self (m : Int) : resize dim n (dim, m) = (dim, n) := by simp [resize]

theorem resize_of_ne {name : String} (h : name ≠ dim) (m : Int) :
    resize dim n (name, m) = (name, m) := by
  simp [resize, h]

@[simp] theorem map_fst_resize (lengths : List (String × Int)) :
    (lengths.map (resize dim n)).map (·.1) = lengths.map (·.1) := by
  rw [List.map_map]
  rfl

theorem agree_iff (lengths : List (String × Int)) :
    agree lengths = true ↔ ∀ x ∈ lengths, ∀ y ∈ lengths, x.1 = y.1 → x.2 = y.2 := by
  simp only [agree, List.all_eq_true, Bool.or_eq_true, bne_iff_ne, beq_iff_eq, ne_eq,
    ← imp_iff_not_or]

theorem agree_resize (dim : String) (n : Int) {lengths : List (String × Int)}
    (h : agree lengths = true) :
    agree (lengths.map (resize dim n)) = true := by
  rw [agree_iff] at h ⊢
  simp only [List.forall_mem_map]
  intro x hx y hy hname
  have hname : x.1 = y.1 := hname
  simp only [resize, hname, h x hx y hy hname]

theorem map_resize_put (lengths : Keyed Int) (name : String) (m : Int) :
    (lengths.put name m).map (resize dim n) =
      Keyed.put (lengths.map (resize dim n)) name (resize dim n (name, m)).2 := by
  induction lengths with
  | nil => rfl
  | cons first rest ih =>
    obtain ⟨key, k⟩ := first
    by_cases hkey : key = name
    · subst hkey
      simp [Keyed.put, resize]
    · simp only [Keyed.put, if_neg hkey, List.map_cons, ih]
      simp [resize, hkey]

end Lengths

variable {α : Type}

theorem agree_of_get? {vs : Keyed (Variable α)} {name : String} {v : Variable α}
    (h : areConsistent vs = true) (hv : vs.get? name = some v) : agree v.extents = true := by
  rw [areConsistent, Bool.and_eq_true, agree_iff] at h
  rw [agree_iff]
  have hmem : ∀ x ∈ v.extents, x ∈ extents vs := fun x hx =>
    List.mem_flatMap.mpr ⟨_, mem_of_get? hv, hx⟩
  exact fun x hx y hy => h.1 x (hmem x hx) y (hmem y hy)

structure Variable.Resized (dim : String) (n : Int) (v w : Variable α) : Prop where
  dims : w.dims = v.dims
  extents : w.extents = v.extents.map (resize dim n)

theorem Variable.Resized.sizes {dim : String} {n : Int} {v w : Variable α}
    (h : v.Resized dim n w) : w.sizes = v.sizes.map (resize dim n) := by
  have hfold : ∀ (lengths : List (String × Int)) (found : Keyed Int),
      (lengths.map (resize dim n)).foldl (fun (d : Keyed Int) x => d.put x.1 x.2)
        (found.map (resize dim n)) =
      (lengths.foldl (fun (d : Keyed Int) x => d.put x.1 x.2) found).map (resize dim n) := by
    intro lengths
    induction lengths with
    | nil => exact fun _ => rfl
    | cons first rest ih =>
      intro found
      rw [List.map_cons, List.foldl_cons, List.foldl_cons, ← ih, map_resize_put]
      rfl
  rw [Variable.sizes, h.extents]
  exact hfold v.extents []

/-- Variables of the same names, of which one dimension has another length. -/
def Resized (dim : String) (n : Int) (vs ws : Keyed (Variable α)) : Prop :=
  List.Forall₂ (fun x y => y.1 = x.1 ∧ x.2.Resized dim n y.2) vs ws

namespace Resized

variable {dim : String} {n : Int} {vs ws added added' : Keyed (Variable α)}

theorem related (h : Resized dim n vs ws) : Keyed.Related (Variable.Resized dim n) vs ws := h

theorem names (h : Resized dim n vs ws) : Keyed.names ws = Keyed.names vs := h.related.names

theorem extents (h : Resized dim n vs ws) :
    Coplanar.extents ws = (Coplanar.extents vs).map (resize dim n) := by
  induction h with
  | nil => rfl
  | cons hfirst _ ih =>
    rw [Coplanar.extents, Coplanar.extents, List.flatMap_cons, List.flatMap_cons, List.map_append]
    exact congrArg₂ (· ++ ·) hfirst.2.extents ih

theorem sizes (h : Resized dim n vs ws) :
    Coplanar.sizes ws = (Coplanar.sizes vs).map (resize dim n) := by
  induction h with
  | nil => rfl
  | cons hfirst _ ih =>
    rw [Coplanar.sizes, Coplanar.sizes, List.flatMap_cons, List.flatMap_cons, List.map_append]
    exact congrArg₂ (· ++ ·) hfirst.2.sizes ih

theorem filter (h : Resized dim n vs ws) {p : String × Variable α → Bool}
    (hp : ∀ name (v w : Variable α), v.Resized dim n w → p (name, w) = p (name, v)) :
    Resized dim n (vs.filter p) (ws.filter p) := by
  refine List.rel_filter (fun x y hxy => ?_) h
  obtain ⟨name, v⟩ := x
  obtain ⟨name', w⟩ := y
  obtain ⟨rfl, hvw⟩ := hxy
  simp [hp name' v w hvw]

theorem isSome_get? (h : Resized dim n vs ws) (name : String) :
    (Keyed.get? ws name).isSome = (Keyed.get? vs name).isSome := h.related.isSome_get? name

theorem isEmpty (h : Resized dim n vs ws) : ws.isEmpty = vs.isEmpty := by
  cases h <;> rfl

theorem putAll (h : Resized dim n vs ws) (hadded : Resized dim n added added') :
    Resized dim n (putAll vs added) (putAll ws added') := by
  induction hadded generalizing vs ws with
  | nil => exact h
  | @cons x y _ _ hfirst _ ih =>
    obtain ⟨key, v⟩ := x
    obtain ⟨key', w⟩ := y
    obtain ⟨rfl, hvw⟩ := hfirst
    exact ih (h.related.put _ hvw)

theorem areConsistent (h : Resized dim n vs ws) (hvs : areConsistent vs = true) :
    areConsistent ws = true := by
  have hnames : ∀ name, (Coplanar.extents ws).any (fun x => x.1 == name) =
      (Coplanar.extents vs).any fun x => x.1 == name := fun name => by
    rw [h.extents, List.any_map]
    rfl
  have hpoints : ∀ p : String → Bool, (ws.all fun x => !x.2.dims.isEmpty || !p x.1) =
      vs.all fun x => !x.2.dims.isEmpty || !p x.1 := fun p => by
    clear hvs hnames
    induction h with
    | nil => rfl
    | cons hfirst _ ih => rw [List.all_cons, List.all_cons, ih, hfirst.1, hfirst.2.dims]
  unfold Coplanar.areConsistent at hvs ⊢
  simp only [hnames, Bool.and_eq_true] at hvs ⊢
  rw [h.extents]
  exact ⟨agree_resize dim n hvs.1,
    (hpoints fun name => (Coplanar.extents vs).any fun x => x.1 == name).trans hvs.2⟩

end Resized

namespace Dataset

def kept (d : Dataset α) (added : Keyed (Variable α)) : Keyed (Variable α) :=
  d.entries.filter fun x => d.isCoordinate x.1 && !(x.2.isLabel x.1 && (added.get? x.1).isSome)

theorem relabel_eq (d : Dataset α) (added : Keyed (Variable α)) :
    d.relabel added =
      if !areConsistent added then .error .malformed
      else if !agree (sizes (d.kept added) ++ sizes added) then .error .lengthsDisagree
      else d.settle (putAll d.entries added) := rfl

structure Resized (dim : String) (n : Int) (d e : Dataset α) : Prop where
  coordinates : e.coordinates = d.coordinates
  entries : Coplanar.Resized dim n d.entries e.entries

namespace Resized

variable {dim : String} {n : Int} {d e d' : Dataset α} {vs ws added added' : Keyed (Variable α)}

theorem isCoordinate (h : d.Resized dim n e) : e.isCoordinate = d.isCoordinate := by
  funext name
  rw [Dataset.isCoordinate, h.coordinates]
  rfl

theorem names (h : d.Resized dim n e) : e.names = d.names := by
  rw [Dataset.names, Dataset.names, h.entries.names, h.isCoordinate]

theorem settle (h : d.Resized dim n e) (hvs : Coplanar.Resized dim n vs ws)
    (hd : d.settle vs = .ok d') : ∃ e', e.settle ws = .ok e' ∧ d'.Resized dim n e' := by
  unfold Dataset.settle at hd
  split at hd
  · rename_i hconsistent
    cases hd
    unfold Dataset.settle
    rw [if_pos (hvs.areConsistent hconsistent)]
    refine ⟨_, rfl, ?_, hvs⟩
    dsimp only
    rw [h.coordinates, hvs.names, hvs.extents, map_fst_resize]
  · cases hd

theorem kept (h : d.Resized dim n e) (hadded : Coplanar.Resized dim n added added') :
    Coplanar.Resized dim n (d.kept added) (e.kept added') := by
  rw [Dataset.kept, Dataset.kept, h.isCoordinate]
  simp only [hadded.isSome_get?]
  exact h.entries.filter fun _ _ _ hvw => by simp only [Variable.isLabel, hvw.dims]

theorem moved (h : d.Resized dim n e) (hadded : Coplanar.Resized dim n added added') :
    Coplanar.Resized dim n (d.moved added) (e.moved added') := by
  rw [Dataset.moved, Dataset.moved, h.isCoordinate]
  exact hadded.filter fun _ _ _ _ => rfl

theorem others (h : d.Resized dim n e) (hadded : Coplanar.Resized dim n added added') :
    Coplanar.Resized dim n (d.others added) (e.others added') := by
  rw [Dataset.others, Dataset.others, h.isCoordinate]
  exact hadded.filter fun _ _ _ _ => rfl

theorem relabel (h : d.Resized dim n e) (hadded : Coplanar.Resized dim n added added')
    (hd : d.relabel added = .ok d') : ∃ e', e.relabel added' = .ok e' ∧ d'.Resized dim n e' := by
  rw [relabel_eq] at hd
  split at hd
  · cases hd
  · rename_i hconsistent
    split at hd
    · cases hd
    · rename_i hagree
      rw [Bool.not_eq_true, Bool.not_eq_false'] at hconsistent hagree
      have hagree' := agree_resize dim n hagree
      rw [List.map_append, ← (h.kept hadded).sizes, ← hadded.sizes] at hagree'
      rw [relabel_eq, hadded.areConsistent hconsistent, hagree']
      exact h.settle (h.entries.putAll hadded) hd

theorem prepare (h : d.Resized dim n e) (hadded : Coplanar.Resized dim n added added')
    (hd : d.prepare added = .ok d') : ∃ e', e.prepare added' = .ok e' ∧ d'.Resized dim n e' := by
  have hmoved := h.moved hadded
  have hothers := h.others hadded
  rw [prepare_eq] at hd
  obtain ⟨ready, hready, hagree⟩ := bind_eq_ok_iff.mp hd
  obtain ⟨ready', hready', hresized⟩ : ∃ ready',
      (if (e.moved added').isEmpty then .ok e else e.relabel (e.moved added')) = .ok ready' ∧
        ready.Resized dim n ready' := by
    rw [hmoved.isEmpty]
    split at hready
    · rename_i hempty
      cases hready
      exact ⟨e, if_pos hempty, h⟩
    · rename_i hempty
      rw [if_neg hempty]
      exact h.relabel hmoved hready
  split at hagree
  · rename_i hlengths
    cases hagree
    refine ⟨ready', ?_, hresized⟩
    rw [prepare_eq, hready']
    change (if _ then _ else _) = _
    rw [hresized.entries.sizes, hothers.sizes, ← List.map_append,
      if_pos (agree_resize dim n hlengths)]
  · cases hagree

theorem absorb (h : d.Resized dim n e) (hadded : Coplanar.Resized dim n added added')
    (hd : d.absorb added = .ok d') : ∃ e', e.absorb added' = .ok e' ∧ d'.Resized dim n e' := by
  obtain ⟨new, hnew, hchecked⟩ := bind_eq_ok_iff.mp hd
  obtain ⟨new', hnew', hresized⟩ := h.settle (h.entries.putAll hadded) hnew
  split at hchecked
  · cases hchecked
  · rename_i hnames
    cases hchecked
    refine ⟨new', ?_, hresized⟩
    rw [Dataset.absorb, hnew']
    change (if _ then _ else _) = _
    rw [h.names, hresized.isCoordinate, if_neg hnames]

theorem assign (h : d.Resized dim n e) (hadded : Coplanar.Resized dim n added added')
    (hd : d.assign added = .ok d') : ∃ e', e.assign added' = .ok e' ∧ d'.Resized dim n e' := by
  obtain ⟨ready, hready, habsorbed⟩ := bind_eq_ok_iff.mp hd
  obtain ⟨ready', hready', hresized⟩ := h.prepare hadded hready
  obtain ⟨new', hnew', hnew⟩ := hresized.absorb (h.others hadded) habsorbed
  refine ⟨new', ?_, hnew⟩
  rw [Dataset.assign, hready']
  exact hnew'

end Resized

end Dataset

end Coplanar
