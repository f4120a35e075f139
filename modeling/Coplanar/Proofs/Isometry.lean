import Coplanar.Proofs.Turning

/-! Turned rows keep their lengths and the angles between them.  Of the circular functions
nothing is needed but that they name points of the unit circle: each rotation toward a
direction is then undone by its transpose.  So rows that were turned away come back as they
were, and the way by a third direction leads to the same rows as the direct one. -/
namespace Coplanar

def OnUnitCircle (K : Type) [Field K] [Circular K] : Prop :=
  ∀ x : K, Circular.sin x * Circular.sin x + Circular.cos x * Circular.cos x = 1

def Uvw.dot {α : Type} [Scalar α] (r s : Uvw α) : α := r.u * s.u + r.v * s.v + r.w * s.w

attribute [ext] Rotation

namespace Rotation

variable {K : Type} [Field K] [LinearOrder K] [Circular K]

/-- What the rotation does its transpose undoes, and the other way round. -/
structure IsOrthogonal (m : Rotation K) : Prop where
  mul_transpose : m.mul m.transpose = identity
  transpose_mul_self : m.transpose.mul m = identity

@[simp] theorem act_identity (r : Uvw K) : (identity : Rotation K).act r.u r.v r.w = r := by
  simp [act, identity]

namespace IsOrthogonal

variable {m n : Rotation K}

theorem transpose (h : m.IsOrthogonal) : m.transpose.IsOrthogonal :=
  ⟨h.transpose_mul_self, h.mul_transpose⟩

theorem mul_transpose_mul (h : m.IsOrthogonal) (n : Rotation K) :
    m.mul (m.transpose.mul n) = n := by
  rw [← Rotation.mul_assoc, h.mul_transpose, identity_mul]

theorem transpose_mul_mul (h : m.IsOrthogonal) (n : Rotation K) :
    m.transpose.mul (m.mul n) = n := by
  rw [← Rotation.mul_assoc, h.transpose_mul_self, identity_mul]

theorem mul (hm : m.IsOrthogonal) (hn : n.IsOrthogonal) : (m.mul n).IsOrthogonal where
  mul_transpose := by
    rw [Rotation.transpose_mul, Rotation.mul_assoc, hn.mul_transpose_mul, hm.mul_transpose]
  transpose_mul_self := by
    rw [Rotation.transpose_mul, Rotation.mul_assoc, hm.transpose_mul_mul,
      hn.transpose_mul_self]

theorem dot_act (h : m.IsOrthogonal) (r s : Uvw K) :
    (m.act r.u r.v r.w).dot (m.act s.u s.v s.w) = r.dot s := by
  have hentries := h.mul_transpose
  simp only [Rotation.mul, Rotation.transpose, act, identity, mk.injEq] at hentries
  obtain ⟨hxx, hxy, hxz, -, hyy, hyz, -, -, hzz⟩ := hentries
  simp only [Uvw.dot, act]
  linear_combination r.u * s.u * hxx + (r.u * s.v + r.v * s.u) * hxy +
    (r.u * s.w + r.w * s.u) * hxz + r.v * s.v * hyy + (r.v * s.w + r.w * s.v) * hyz +
    r.w * s.w * hzz

end IsOrthogonal

variable (hcircle : OnUnitCircle K)
include hcircle

theorem turns_isOrthogonal (p q : K) : (turns p q).IsOrthogonal := by
  have hp := hcircle p
  have hq := hcircle q
  constructor
  · ext <;> simp only [turns, transpose, mul, act, identity, Trig.sin, Trig.cos]
    · linear_combination hp + Circular.sin p * Circular.sin p * hq
    · linear_combination -(Circular.sin p * Circular.cos p) * hq
    · ring
    · linear_combination -(Circular.sin p * Circular.cos p) * hq
    · linear_combination hp + Circular.cos p * Circular.cos p * hq
    · ring
    · ring
    · ring
    · linear_combination hq
  · ext <;> simp only [turns, transpose, mul, act, identity, Trig.sin, Trig.cos]
    · linear_combination hp
    · ring
    · ring
    · ring
    · linear_combination Circular.cos q * Circular.cos q * hp + hq
    · linear_combination -(Circular.sin q * Circular.cos q) * hp
    · ring
    · linear_combination -(Circular.sin q * Circular.cos q) * hp
    · linear_combination Circular.sin q * Circular.sin q * hp + hq

theorem toward_isOrthogonal (hourAngle dec : K) : (toward hourAngle dec).IsOrthogonal := by
  rw [toward_eq, ← turns_eq]
  exact turns_isOrthogonal hcircle _ _

theorem between_isOrthogonal (here there : Direction K) : (between here there).IsOrthogonal :=
  (toward_isOrthogonal hcircle _ _).transpose.mul (toward_isOrthogonal hcircle _ _)

theorem between_self (d : Direction K) : between d d = identity :=
  (toward_isOrthogonal hcircle _ _).transpose_mul_self

/-- On the way by `via` the second rotation first undoes what the first one did last. -/
theorem between_mul_between (here via there : Direction K) :
    (between here via).mul (between via there) = between here there := by
  rw [between, between, mul_assoc, (toward_isOrthogonal hcircle _ _).mul_transpose_mul]
  rfl

theorem map_act_between (rows : Chunk K) (here via there : Direction K) :
    (rows.map fun r => (between here via).act r.u r.v r.w).map
        (fun r => (between via there).act r.u r.v r.w) =
      rows.map fun r => (between here there).act r.u r.v r.w := by
  rw [List.map_map]
  apply List.map_congr_left
  intro r _
  rw [Function.comp_apply, act_act, between_mul_between hcircle]

end Rotation

section Stored

variable {K : Type} [Field K] [LinearOrder K] [Circular K]

theorem Chunk.exists_known (chunk : Chunk (Sample K)) :
    ∃ rows : Chunk K, chunk.filter Uvw.isComplete = rows.map Uvw.known := by
  induction chunk with
  | nil => exact ⟨[], rfl⟩
  | cons r rest ih =>
    obtain ⟨rows, hrows⟩ := ih
    cases hr : r.isComplete with
    | false => exact ⟨rows, by rw [List.filter_cons_of_neg (by simp [hr]), hrows]⟩
    | true =>
      obtain ⟨q, rfl⟩ := Uvw.exists_known ((Uvw.isComplete_iff r).mp hr)
      exact ⟨q :: rows, by rw [List.filter_cons_of_pos hr, hrows, List.map_cons]⟩

theorem filter_map_known (rows : Chunk K) :
    (rows.map Uvw.known).filter Uvw.isComplete = rows.map Uvw.known :=
  List.filter_eq_self.mpr (by simp)

end Stored

/-- A stored chunk is served, for its own direction, as it is stored: without the rows of
which a coordinate is missing.  For any other direction it is served turned, and no product
of two rows changes by that, their lengths included.  Stored again as rows of that direction,
what was served is served everywhere as the first chunk is. -/
theorem stored_rows_turn {K : Type} [Field K] [LinearOrder K] [IsStrictOrderedRing K] [Circular K]
    (hcircle : OnUnitCircle K) {ds : Dataset (Sample K)} {name : String} {time : Value (Sample K)}
    {chunk : Chunk (Sample K)} {channels : Nested (Sample K)} (hstores : ds.Stores name time chunk)
    (hchannels : ds.frequencies = .ok channels) (p q : Direction K) :
    ∃ (s : Slice (Sample K)) (turn : Uvw (Sample K) → Uvw (Sample K)),
      ds.slice name (.ok p.known) time = .ok s ∧
      s.toward p.known = .ok (chunk.filter Uvw.isComplete) ∧
      s.toward q.known = .ok ((chunk.filter Uvw.isComplete).map turn) ∧
      (∀ r ∈ chunk.filter Uvw.isComplete, ∀ r' ∈ chunk.filter Uvw.isComplete,
        (turn r).dot (turn r') = r.dot r') ∧
      ∀ (ds' : Dataset (Sample K)) (name' : String) (time' : Value (Sample K))
        (channels' : Nested (Sample K)),
        ds'.Stores name' time' ((chunk.filter Uvw.isComplete).map turn) →
        ds'.frequencies = .ok channels' →
        ∃ s', ds'.slice name' (.ok q.known) time' = .ok s' ∧
          ∀ r : Direction K, s'.toward r.known = s.toward r.known := by
  obtain ⟨rows, hrows⟩ := Chunk.exists_known chunk
  let s := Slice.ofChunk chunk p.known channels
  let turn (r : Uvw (Sample K)) := (Rotation.between p q).known.act r.u r.v r.w
  have hserved : ∀ r : Direction K, s.toward r.known = .ok ((rows.map fun row =>
      (Rotation.between p r).act row.u row.v row.w).map Uvw.known) :=
    Slice.toward_known (congrArg Except.ok hrows) rfl
  have hturned : (rows.map Uvw.known).map turn =
      (rows.map fun row => (Rotation.between p q).act row.u row.v row.w).map Uvw.known := by
    rw [List.map_map, List.map_map]
    rfl
  refine ⟨s, turn, hstores.slice_eq hchannels _, ?_, ?_, ?_, ?_⟩
  · simp [hserved, hrows, Rotation.between_self hcircle]
  · rw [hserved, hrows, hturned]
  · intro r hr r' hr'
    rw [hrows] at hr hr'
    obtain ⟨row, -, rfl⟩ := List.mem_map.mp hr
    obtain ⟨row', -, rfl⟩ := List.mem_map.mp hr'
    exact congrArg Sample.known
      ((Rotation.between_isOrthogonal hcircle p q).dot_act row row')
  · intro ds' name' time' channels' hstores' hchannels'
    rw [hrows, hturned] at hstores'
    refine ⟨_, hstores'.slice_eq hchannels' _, fun r => ?_⟩
    rw [hserved, Slice.toward_known (congrArg Except.ok (filter_map_known _)) rfl,
      Rotation.map_act_between hcircle]

theorem stored_rows_turn_incomplete :
    let chunk : Chunk (Sample ℝ) :=
      [⟨.known 100, .known 20, .known 5⟩, ⟨.known 7, .missing, .known 3⟩,
        ⟨.known (-30), .known 70, .known 200⟩]
    let p : Direction ℝ := ⟨1, -1 / 2⟩
    let q : Direction ℝ := ⟨3, 1⟩
    OnUnitCircle ℝ ∧ (Dataset.momentary chunk).Stores "UVW" (.integer 0) chunk ∧
      ∃ (s s' : Slice (Sample ℝ)) (rows : Chunk (Sample ℝ)), rows.length = 2 ∧
        (Dataset.momentary chunk).slice "UVW" (.ok p.known) (.integer 0) = .ok s ∧
        s.toward q.known = .ok rows ∧
        (Dataset.momentary rows).slice "UVW" (.ok q.known) (.integer 0) = .ok s' ∧
        s'.toward p.known =
          .ok [⟨.known 100, .known 20, .known 5⟩, ⟨.known (-30), .known 70, .known 200⟩] := by
  intro chunk p q
  have hcircle : OnUnitCircle ℝ := LawfulCircular.sin_mul_self_add_cos_mul_self
  have hstores : (Dataset.momentary chunk).Stores "UVW" (.integer 0) chunk :=
    ⟨rfl, _, rfl, rfl⟩
  have hcomplete : chunk.filter Uvw.isComplete =
      [⟨.known 100, .known 20, .known 5⟩, ⟨.known (-30), .known 70, .known 200⟩] := by
    simp [chunk, Uvw.isComplete, Uvw.cells, hasMissing, Scalar.isMissing, Scalar.same,
      Sample.compare]
  have hchannels : ∀ rows : Chunk (Sample ℝ),
      (Dataset.momentary rows).frequencies = .ok (.ofList [.known 300000000]) := fun _ => rfl
  obtain ⟨s, turn, hslice, hback, haway, -, hagain⟩ :=
    stored_rows_turn hcircle hstores (hchannels chunk) p q
  rw [hcomplete] at hback haway hagain
  obtain ⟨s', hslice', hserved⟩ := hagain (Dataset.momentary _) "UVW" (.integer 0) _
    ⟨rfl, _, rfl, rfl⟩ (hchannels _)
  exact ⟨hcircle, hstores, s, s', _, rfl, hslice, haway, hslice', (hserved p).trans hback⟩

end Coplanar
