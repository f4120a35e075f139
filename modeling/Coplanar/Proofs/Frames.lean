import Mathlib.Analysis.SpecialFunctions.Pow.Real
import Mathlib.Tactic.LinearCombination
import Coplanar.Proofs.Quantities
import Coplanar.Proofs.Slices
import Coplanar.Proofs.Sphere

/-! Frames of directions.  A rotation toward a direction turns about the pole and then
tilts.  The turns add up, and between two directions one tilt is undone by the other: so
rows stored for one direction, turned to another, are the baselines as this one sees them,
and a longitude taken back is time that has passed. -/
namespace Coplanar

/-- The circular functions of a circle whose points add up. -/
class AdditiveCircular (K : Type) [Field K] [Circular K] : Prop where
  sin_mul_self_add_cos_mul_self :
    ∀ x : K, Circular.sin x * Circular.sin x + Circular.cos x * Circular.cos x = 1
  sin_add : ∀ x y : K, Circular.sin (x + y) =
    Circular.sin x * Circular.cos y + Circular.cos x * Circular.sin y
  cos_add : ∀ x y : K, Circular.cos (x + y) =
    Circular.cos x * Circular.cos y - Circular.sin x * Circular.sin y

instance : AdditiveCircular ℝ where
  sin_mul_self_add_cos_mul_self := LawfulCircular.sin_mul_self_add_cos_mul_self
  sin_add := Real.sin_add
  cos_add := Real.cos_add

noncomputable instance : Roots ℝ where
  rootOf n x := x ^ (1 / n : ℝ)

namespace AdditiveCircular

variable {K : Type} [Field K] [Circular K] [AdditiveCircular K]

theorem sin_zero : Circular.sin (0 : K) = 0 := by
  have hunit := sin_mul_self_add_cos_mul_self (0 : K)
  have hsin := sin_add (0 : K) 0
  have hcos := cos_add (0 : K) 0
  rw [add_zero] at hsin hcos
  generalize Circular.sin (0 : K) = s at *
  generalize Circular.cos (0 : K) = c at *
  linear_combination (1 - 2 * c * c) * hsin + 2 * s * c * hcos - 2 * s * c * hunit

theorem cos_zero : Circular.cos (0 : K) = 1 := by
  have hunit := sin_mul_self_add_cos_mul_self (0 : K)
  have hcos := cos_add (0 : K) 0
  rw [sin_zero] at hunit hcos
  rw [add_zero] at hcos
  linear_combination hcos + hunit

theorem sin_neg (x : K) : Circular.sin (-x) = -Circular.sin x := by
  have hunit := sin_mul_self_add_cos_mul_self x
  have hsin := sin_add x (-x)
  have hcos := cos_add x (-x)
  rw [add_neg_cancel, sin_zero] at hsin
  rw [add_neg_cancel, cos_zero] at hcos
  linear_combination
    Circular.sin x * hcos - Circular.cos x * hsin - Circular.sin (-x) * hunit

theorem cos_neg (x : K) : Circular.cos (-x) = Circular.cos x := by
  have hunit := sin_mul_self_add_cos_mul_self x
  have hsin := sin_add x (-x)
  have hcos := cos_add x (-x)
  rw [add_neg_cancel, sin_zero] at hsin
  rw [add_neg_cancel, cos_zero] at hcos
  linear_combination
    -Circular.cos x * hcos - Circular.sin x * hsin - Circular.cos (-x) * hunit

end AdditiveCircular

namespace Rotation

section Exact

variable {K : Type} [Field K] [LinearOrder K] [Circular K]

def spin (p : K) : Rotation K :=
  ⟨Circular.cos p, -Circular.sin p, 0, Circular.sin p, Circular.cos p, 0, 0, 0, 1⟩

def tilt (q : K) : Rotation K :=
  ⟨1, 0, 0, 0, Circular.cos q, -Circular.sin q, 0, Circular.sin q, Circular.cos q⟩

def identity : Rotation K := ⟨1, 0, 0, 0, 1, 0, 0, 0, 1⟩

theorem mul_assoc (l m n : Rotation K) : (l.mul m).mul n = l.mul (m.mul n) := by
  simp only [mul, act, mk.injEq]
  refine ⟨?_, ?_, ?_, ?_, ?_, ?_, ?_, ?_, ?_⟩ <;> ring

@[simp] theorem identity_mul (m : Rotation K) : identity.mul m = m := by
  simp [mul, act, identity]

theorem transpose_mul (m n : Rotation K) :
    (m.mul n).transpose = n.transpose.mul m.transpose := by
  simp only [mul, act, transpose, mk.injEq]
  refine ⟨?_, ?_, ?_, ?_, ?_, ?_, ?_, ?_, ?_⟩ <;> ring

theorem act_act (m n : Rotation K) (x y z : K) :
    n.act (m.act x y z).u (m.act x y z).v (m.act x y z).w = (m.mul n).act x y z := by
  simp only [mul, act, Uvw.mk.injEq]
  refine ⟨?_, ?_, ?_⟩ <;> ring

theorem turns_eq (p q : K) : turns p q = (spin p).mul (tilt q) := by
  simp [turns, mul, act, spin, tilt, Trig.sin, Trig.cos]

theorem toward_eq (hourAngle dec : K) :
    toward hourAngle dec =
      (spin (Circular.pi / 2 - hourAngle)).mul (tilt (Circular.pi / 2 - dec)) := by
  have hfinite : ∀ x : K, Scalar.isFinite x = true := fun x => by simp [Scalar.isFinite]
  rw [toward, if_pos (by simp [hfinite]), turns_eq]
  simp [Scalar.pi]

variable [AdditiveCircular K]

theorem spin_mul_spin_mul (p q : K) (m : Rotation K) :
    (spin p).mul ((spin q).mul m) = (spin (p + q)).mul m := by
  have hsum : (spin p).mul (spin q) = spin (p + q) := by
    simp only [spin, mul, act, AdditiveCircular.sin_add, AdditiveCircular.cos_add, mk.injEq]
    refine ⟨?_, ?_, ?_, ?_, ?_, ?_, ?_, ?_, ?_⟩ <;> ring
  rw [← mul_assoc, hsum]

theorem transpose_spin (p : K) : (spin p).transpose = spin (-p) := by
  simp [spin, transpose, AdditiveCircular.sin_neg, AdditiveCircular.cos_neg]

theorem tilt_mul_transpose_mul (q : K) (m : Rotation K) :
    (tilt q).mul ((tilt q).transpose.mul m) = m := by
  have hunit := AdditiveCircular.sin_mul_self_add_cos_mul_self q
  have hone : (tilt q).mul (tilt q).transpose = identity := by
    simp only [tilt, transpose, mul, act, identity, mk.injEq]
    refine ⟨by ring, by ring, by ring, by ring, ?_, by ring, by ring, by ring, ?_⟩
    · linear_combination hunit
    · linear_combination hunit
  rw [← mul_assoc, hone, identity_mul]

/-- From the equator to the frame of a direction, and on to that of another: where the
first is seen at some time, this is where the other is seen. -/
theorem toward_mul_between (here there : Direction K) (time : K) :
    (toward (time - here.ra) here.dec).mul (between here there) =
      toward (time - there.ra) there.dec := by
  have hangle : Circular.pi / 2 - (time - here.ra) +
      (-(Circular.pi / 2 - -here.ra) + (Circular.pi / 2 - -there.ra)) =
        Circular.pi / 2 - (time - there.ra) := by ring
  simp only [between, toward_eq, transpose_mul, transpose_spin, mul_assoc, tilt_mul_transpose_mul,
    spin_mul_spin_mul, hangle]

theorem map_act_baselineRows (xyz : List (Vec3 K)) (here there : Direction K) (time : K) :
    (Source.baselineRows xyz (time - here.ra) here.dec).map
        (fun r => (between here there).act r.u r.v r.w) =
      Source.baselineRows xyz (time - there.ra) there.dec := by
  rw [Source.baselineRows, Source.baselineRows, List.map_map]
  refine List.map_congr_left fun p _ => ?_
  rw [Function.comp_apply, act_act, toward_mul_between]

end Exact

end Rotation

/-! What is known of all that goes into it is known of what comes out. -/

section Known

variable {K : Type}

def Vec3.known (p : Vec3 K) : Vec3 (Sample K) := ⟨.known p.x, .known p.y, .known p.z⟩

def Uvw.known (r : Uvw K) : Uvw (Sample K) := ⟨.known r.u, .known r.v, .known r.w⟩

def Direction.known (d : Direction K) : Direction (Sample K) := ⟨.known d.ra, .known d.dec⟩

def Rotation.known (m : Rotation K) : Rotation (Sample K) :=
  ⟨.known m.xu, .known m.xv, .known m.xw, .known m.yu, .known m.yv, .known m.yw, .known m.zu,
    .known m.zv, .known m.zw⟩

theorem Rotation.transpose_known (m : Rotation K) :
    m.known.transpose = m.transpose.known := rfl

variable [Field K] [LinearOrder K] [Circular K]

@[simp] theorem Uvw.isComplete_known (r : Uvw K) : r.known.isComplete = true := by
  simp [known, isComplete, cells, hasMissing, Scalar.isMissing, Scalar.same, Sample.compare]

namespace Rotation

theorem mul_known (m n : Rotation K) : m.known.mul n.known = (m.mul n).known := rfl

variable [IsStrictOrderedRing K]

theorem toward_known (hourAngle dec : K) :
    toward (Sample.known hourAngle) (.known dec) = (toward hourAngle dec).known := by
  have hquarter : (Scalar.pi / Scalar.natural 2 : Sample K) = .known (Circular.pi / 2) := by
    rw [Sample.natural_known, Nat.cast_ofNat]
    exact Sample.div_known _ two_ne_zero
  have hfinite : ∀ x : K, Scalar.isFinite (Sample.known x) = true := fun x =>
    decide_eq_true (sub_self x)
  rw [toward_eq, ← turns_eq, toward, hquarter]
  change (if (Scalar.isFinite (Sample.known (Circular.pi / 2 - hourAngle)) &&
    Scalar.isFinite (Sample.known (Circular.pi / 2 - dec))) = true then _ else _) = _
  rw [if_pos (by rw [hfinite, hfinite]; rfl)]
  rfl

theorem between_known (here there : Direction K) :
    between here.known there.known = (between here there).known := by
  unfold between Direction.known
  change (toward (Sample.known (-here.ra)) (.known here.dec)).transpose.mul
    (toward (Sample.known (-there.ra)) (.known there.dec)) = _
  rw [toward_known, toward_known, transpose_known, mul_known]

end Rotation

variable [IsStrictOrderedRing K]

theorem Slice.toward_known {s : Slice (Sample K)} {rows : Chunk K} {here : Direction K}
    (hrows : s.rows = .ok (rows.map Uvw.known)) (hcenter : s.center = here.known)
    (there : Direction K) :
    s.toward there.known =
      .ok ((rows.map fun r => (Rotation.between here there).act r.u r.v r.w).map Uvw.known) := by
  rw [Slice.toward, hrows, hcenter, Rotation.between_known]
  change Except.ok ((rows.map Uvw.known).map _) = _
  rw [List.map_map, List.map_map]
  rfl

theorem stepAngle_known (interval : K) :
    stepAngle (Sample.known interval) = .known (stepAngle interval) := by
  have hrate : (earthRotationRate : Sample K) = .known earthRotationRate :=
    Sample.div_known _ (Nat.cast_ne_zero.mpr (by decide))
  rw [stepAngle, hrate]
  rfl

variable [FloorRing K] [Roots K]

def baselinesAt (xyz : List (Vec3 K)) (channels : Nested (Sample K)) (lst : K) :
    Source (Sample K) :=
  .baselines (xyz.map Vec3.known) (.real (.known lst)) channels

theorem serve_baselinesAt (xyz : List (Vec3 K)) (channels : Nested (Sample K)) (lst : K)
    (d : Direction K) :
    ((baselinesAt xyz channels lst).serve d.known).1 =
      .ok ((Source.baselineRows xyz (lst - d.ra) d.dec).map Uvw.known) := by
  change Except.ok (Source.baselineRows (xyz.map Vec3.known) (Sample.known (lst - d.ra))
    (.known d.dec)) = _
  rw [Source.baselineRows, Rotation.toward_known, Source.baselineRows, List.map_map, List.map_map]
  rfl

end Known

/-- Rows that a dataset has stored of baselines as one direction sees them are, for every
other direction, those baselines as that one sees them; and they are what it sees at a later
time, for a longitude as much behind.  So the search ahead is given the rows that will be
observed. -/
theorem stored_baselines_elapse {K : Type} [Field K] [LinearOrder K] [IsStrictOrderedRing K]
    [FloorRing K] [Circular K] [AdditiveCircular K] [Roots K] (xyz : List (Vec3 K))
    (channels : Nested (Sample K)) (lst : K) (here : Direction K) (ds : Dataset (Sample K))
    (name : String) (time : Value (Sample K)) (chunk : Chunk (Sample K))
    (frequencies : Nested (Sample K)) (hfrequencies : ds.frequencies = .ok frequencies)
    (hchunk : ((baselinesAt xyz channels lst).serve here.known).1 = .ok chunk)
    (hstores : ds.Stores name time chunk) :
    ∃ s, ds.slice name (.ok here.known) time = .ok s ∧
      (∀ (p : Direction K) (x : K), ∃ rows, rows.length = xyz.length ∧
        ((Source.slice s).serve (p.known.shift (-.known x))).1 = .ok rows ∧
        ((baselinesAt xyz channels (lst + x)).serve p.known).1 = .ok rows) ∧
      ∀ (p : Direction K) (interval : K) (n : Nat), ∃ rows, rows.length = xyz.length ∧
        Track.ofFeed (Correction.feed s) p.known (.known interval) n () = (.ok rows, ()) ∧
        ((baselinesAt xyz channels (lst + n * (earthRotationRate * interval))).serve
          p.known).1 = .ok rows := by
  rw [serve_baselinesAt] at hchunk
  cases hchunk
  let s : Slice (Sample K) :=
    ⟨.ok ((Source.baselineRows xyz (lst - here.ra) here.dec).map Uvw.known),
      .ofList (((Source.baselineRows xyz (lst - here.ra) here.dec).map Uvw.known).map
        Uvw.isComplete), here.known, frequencies⟩
  have hslice : ds.slice name (.ok here.known) time = .ok s := by
    rw [hstores.slice_eq hfrequencies, Slice.ofChunk, List.filter_eq_self.mpr (by simp)]
  -- To wait is to look at a point that lies back by as much.
  have hlater : ∀ (p : Direction K) (x : K), s.toward (p.known.shift (-.known x)) =
      .ok ((Source.baselineRows xyz (lst + x - p.ra) p.dec).map Uvw.known) := by
    intro p x
    have htime : lst - (p.ra + -x) = lst + x - p.ra := by ring
    have hturned := Slice.toward_known (s := s) rfl rfl ⟨p.ra + -x, p.dec⟩
    rwa [Rotation.map_act_baselineRows, htime] at hturned
  refine ⟨s, hslice, fun p x => ⟨_, ?_, hlater p x, serve_baselinesAt ..⟩,
    fun p interval n => ⟨_, ?_, ?_, serve_baselinesAt ..⟩⟩
  · simp [Source.baselineRows]
  · simp [Source.baselineRows]
  · have hback : (n : K) * stepAngle interval = -(n * (earthRotationRate * interval)) := by
      rw [stepAngle]
      ring
    have hshift : p.known.shift (Scalar.natural n * stepAngle (.known interval)) =
        p.known.shift (-.known (n * (earthRotationRate * interval))) := by
      rw [stepAngle_known]
      exact congrArg (fun x => p.known.shift (.known x)) hback
    change (s.toward _, ()) = _
    rw [hshift, hlater]

def Dataset.momentary (chunk : Chunk (Sample ℝ)) : Dataset (Sample ℝ) where
  entries :=
    [("UVW", { dims := ["time", "baseline", "uvw_label"], shape := [1, chunk.length, 3]
               content := .cube [chunk.map Uvw.cells] }),
      ("chan", .along "chan" [.known 300000000])]
  coordinates := ["chan"]
  attributes := []

theorem stored_baselines_elapse_tilted :
    let xyz : List (Vec3 ℝ) := [⟨100, 20, 5⟩, ⟨-30, 70, 200⟩]
    let here : Direction ℝ := ⟨1, -1 / 2⟩
    let chunk := (Source.baselineRows xyz (2 - here.ra) here.dec).map Uvw.known
    ((baselinesAt xyz (.ofList []) 2).serve here.known).1 = .ok chunk ∧
      (Dataset.momentary chunk).Stores "UVW" (.integer 0) chunk ∧
      ∃ s, (Dataset.momentary chunk).slice "UVW" (.ok here.known) (.integer 0) = .ok s ∧
        ∃ rows, rows.length = 2 ∧
          Track.ofFeed (Correction.feed s) (Direction.known ⟨1, 0⟩) (.known 6) 3 () =
            (.ok rows, ()) := by
  intro xyz here chunk
  have hchunk := serve_baselinesAt xyz (.ofList []) 2 here
  have hstores : (Dataset.momentary chunk).Stores "UVW" (.integer 0) chunk :=
    ⟨rfl, _, rfl, rfl⟩
  obtain ⟨s, hslice, -, hahead⟩ := stored_baselines_elapse xyz (.ofList []) 2 here
    (Dataset.momentary chunk) "UVW" (.integer 0) chunk (.ofList [.known 300000000]) rfl hchunk
    hstores
  obtain ⟨rows, hlength, hrows, -⟩ := hahead ⟨1, 0⟩ 6 3
  exact ⟨hchunk, hstores, s, hslice, rows, hlength, hrows⟩

end Coplanar
