import Coplanar.Proofs.Agreement
import Coplanar.Proofs.Channels
import Coplanar.Proofs.Frames
import Coplanar.Proofs.Recovery
import Coplanar.Proofs.Repetition

/-! Arrays in the plane of the equator.  Toward every direction of one declination their rows
lie in one plane, at all times, and are as well spread about it.  So a corrector takes over
this plane at most once, and from then on nothing is left of `w`. -/
namespace Coplanar

section Declination

/-- The sine of a declination, which a rotation has as the cosine of what is left to the
pole. -/
def sinDeclination {α : Type} [Trig α] (dec : α) : α :=
  Trig.cos (Scalar.pi / Scalar.natural 2 - dec)

def cosDeclination {α : Type} [Trig α] (dec : α) : α :=
  Trig.sin (Scalar.pi / Scalar.natural 2 - dec)

theorem sinDeclination_eq {K : Type} [Field K] [LinearOrder K] [Circular K] (dec : K) :
    sinDeclination dec = Circular.cos (Circular.pi / 2 - dec) := by
  simp [sinDeclination, Trig.cos, Scalar.pi]

theorem cosDeclination_eq {K : Type} [Field K] [LinearOrder K] [Circular K] (dec : K) :
    cosDeclination dec = Circular.sin (Circular.pi / 2 - dec) := by
  simp [cosDeclination, Trig.sin, Scalar.pi]

theorem sinDeclination_real (dec : ℝ) : sinDeclination dec = Real.sin dec :=
  (sinDeclination_eq dec).trans (Real.cos_pi_div_two_sub dec)

theorem cosDeclination_real (dec : ℝ) : cosDeclination dec = Real.cos dec :=
  (cosDeclination_eq dec).trans (Real.sin_pi_div_two_sub dec)

end Declination

section Rows

variable {K : Type} [Field K] [LinearOrder K] [Circular K] {xyz : List (Vec3 K)}

def Equatorial (xyz : List (Vec3 K)) : Prop := ∀ p ∈ xyz, p.z = 0

def equatorPlane (dec : K) : Plane K := ⟨0, -(cosDeclination dec / sinDeclination dec)⟩

/-- How well the array is spread over its plane: the determinant of the normal equations of
its coordinates. -/
def spread (xyz : List (Vec3 K)) : K :=
  (xyz.map fun p => p.x * p.x).sum * (xyz.map fun p => p.y * p.y).sum -
    (xyz.map fun p => p.x * p.y).sum * (xyz.map fun p => p.x * p.y).sum

theorem sum_products (xyz : List (Vec3 K)) (a b c d : K) :
    (xyz.map fun p => (p.x * a + p.y * b) * (p.x * c + p.y * d)).sum =
      a * c * (xyz.map fun p => p.x * p.x).sum + b * d * (xyz.map fun p => p.y * p.y).sum +
        (a * d + b * c) * (xyz.map fun p => p.x * p.y).sum := by
  induction xyz with
  | nil => simp
  | cons p rest ih =>
    simp only [List.map_cons, List.sum_cons, ih]
    ring

theorem act_of_equatorial {p : Vec3 K} (hp : p.z = 0) (hourAngle dec : K) :
    let quarter := Circular.pi / 2 - hourAngle
    (Rotation.toward hourAngle dec).act p.x p.y p.z = {
      u := p.x * Circular.cos quarter + p.y * Circular.sin quarter
      v := p.x * -(Circular.sin quarter * sinDeclination dec) +
        p.y * (Circular.cos quarter * sinDeclination dec)
      w := p.x * (Circular.sin quarter * cosDeclination dec) +
        p.y * -(Circular.cos quarter * cosDeclination dec) } := by
  intro quarter
  rw [Rotation.toward_eq, ← Rotation.turns_eq, hp]
  simp [Rotation.act, Rotation.turns, Trig.sin, Trig.cos, quarter, sinDeclination_eq, cosDeclination_eq]

theorem equatorPlane_contains (hxyz : Equatorial xyz) (hourAngle : K) {dec : K}
    (hdec : sinDeclination dec ≠ 0) :
    (equatorPlane dec).Contains (Source.baselineRows xyz hourAngle dec) := by
  intro r hr
  obtain ⟨p, hp, rfl⟩ := List.mem_map.mp hr
  rw [act_of_equatorial (hxyz p hp)]
  simp only [Plane.height, equatorPlane]
  field_simp
  ring

theorem determinant_baselineRows [LawfulCircular K] (hxyz : Equatorial xyz) (hourAngle dec : K) :
    (Source.baselineRows xyz hourAngle dec).determinant =
      sinDeclination dec * sinDeclination dec * spread xyz := by
  -- Every moment is a sum of products of two coordinates that the turn has mixed.
  have htotal : ∀ (f : Uvw K → K) (a b c d : K),
      (∀ p ∈ xyz, f ((Rotation.toward hourAngle dec).act p.x p.y p.z) =
        (p.x * a + p.y * b) * (p.x * c + p.y * d)) →
      (Source.baselineRows xyz hourAngle dec).total f =
        a * c * (xyz.map fun p => p.x * p.x).sum + b * d * (xyz.map fun p => p.y * p.y).sum +
          (a * d + b * c) * (xyz.map fun p => p.x * p.y).sum := by
    intro f a b c d hf
    rw [← sum_products, Chunk.total, Source.baselineRows, List.map_map]
    exact congrArg List.sum (List.map_congr_left hf)
  have hact := fun p hp => act_of_equatorial (hxyz p hp) hourAngle dec
  rw [Chunk.determinant, spread, htotal _ _ _ _ _ fun p hp => by rw [hact p hp],
    htotal _ _ _ _ _ fun p hp => by rw [hact p hp], htotal _ _ _ _ _ fun p hp => by rw [hact p hp]]
  have hunit := LawfulCircular.sin_mul_self_add_cos_mul_self (Circular.pi / 2 - hourAngle)
  generalize Circular.sin (Circular.pi / 2 - hourAngle) = sine at *
  generalize Circular.cos (Circular.pi / 2 - hourAngle) = cosine at *
  generalize sinDeclination dec = scale
  generalize (xyz.map fun p => p.x * p.x).sum = xx
  generalize (xyz.map fun p => p.y * p.y).sum = yy
  generalize (xyz.map fun p => p.x * p.y).sum = xy
  linear_combination scale * scale * (xx * yy - xy * xy) *
    (sine * sine + cosine * cosine + 1) * hunit

theorem plane?_baselineRows [IsStrictOrderedRing K] [LawfulCircular K] (hxyz : Equatorial xyz)
    (hcount : minFitRows ≤ xyz.length) (hourAngle : K) {dec : K} (hdec : sinDeclination dec ≠ 0)
    (hregular : singularDeterminant ≤ sinDeclination dec * sinDeclination dec * spread xyz) :
    (Source.baselineRows xyz hourAngle dec).plane? = some (equatorPlane dec) := by
  refine Plane.plane?_of_contains (equatorPlane_contains hxyz hourAngle hdec) ?_ ?_
  · rwa [Source.baselineRows, List.length_map]
  · rw [determinant_baselineRows hxyz]
    exact hregular.trans (le_abs_self _)

end Rows

section Policies

variable {ι K : Type} [Field K] [LinearOrder K] [IsStrictOrderedRing K] [Circular K]
  {xyz : List (Vec3 K)}

def Scene.ofBaselines (xyz : List (Vec3 K)) (lst : K) (channels : List K) : Scene K where
  rows d := .ok (Source.baselineRows xyz (lst - d.ra) d.dec)
  channels := .ok channels

omit [IsStrictOrderedRing K] in
theorem ahead_ofBaselines (xyz : List (Vec3 K)) (lst interval : K) (d : Direction K) (n : Nat) :
    ∃ hourAngle, ahead (fun e => Source.baselineRows xyz (lst - e.ra) e.dec) d interval
      (Source.baselineRows xyz (lst - d.ra) d.dec) n =
        Source.baselineRows xyz hourAngle d.dec := by
  cases n with
  | zero => exact ⟨lst - d.ra, rfl⟩
  | succ n => exact ⟨_, rfl⟩

/-- On rows of an equatorial array looking ahead comes to what the rows of now call for: a
plane that fits them is good at every time. -/
theorem opinion_ofBaselines (hxyz : Equatorial xyz) {d : Direction K}
    (hdec : sinDeclination d.dec ≠ 0) (c : Corrector ι K) (lst : K) (channels : List K)
    {tolerance : K} (hpos : 0 < tolerance) :
    let rows := Source.baselineRows xyz (lst - d.ra) d.dec
    c.opinion (.ofBaselines xyz lst channels) d rows tolerance =
      reactive rows tolerance c.plane := by
  intro rows
  cases hpredict : c.settings.predict with
  | false => rw [Corrector.opinion, Corrector.judge_of_reactive hpredict]
  | true =>
    have hserves : (Scene.ofBaselines xyz lst channels).feed.Serves
        fun e => Source.baselineRows xyz (lst - e.ra) e.dec := fun _ _ => rfl
    have htrack := shows_ahead hserves d c.settings.interval rows
    rw [Corrector.opinion, Corrector.judge_of_predictive hpredict, reactive_eq]
    by_cases hnear : c.plane.maxDeviation rows < tolerance
    · rw [if_pos hnear]
      exact (predictive_of_foreseen tolerance htrack (.near hnear) ()).1
    · rw [if_neg hnear]
      cases hbest : rows.plane? with
      | none => exact (predictive_of_foreseen tolerance htrack (.unfit hbest) ()).1
      | some best =>
        -- The array turns about the pole, so that at each step ahead its plane is still the same.
        have hzero : ∀ n, best.maxDeviation (ahead (fun e => Source.baselineRows xyz (lst - e.ra)
            e.dec) d c.settings.interval rows n) = 0 := by
          intro n
          obtain ⟨hourAngle, hrows⟩ := ahead_ofBaselines xyz lst c.settings.interval d n
          rw [Plane.eq_of_contains (equatorPlane_contains hxyz _ hdec) hbest, hrows]
          exact Plane.maxDeviation_of_contains (equatorPlane_contains hxyz hourAngle hdec)
        have hlasts : ¬ ∃ top ≤ c.settings.maxSteps, Leaves (ahead (fun e => Source.baselineRows xyz
            (lst - e.ra) e.dec) d c.settings.interval rows) tolerance best top := by
          rintro ⟨top, -, hleaves⟩
          have hout := hleaves.1.2
          rw [hzero] at hout
          exact absurd hpos (not_lt.mpr hout)
        exact (predictive_of_foreseen tolerance htrack
          (.lasting best (not_lt.mp hnear) hbest ((hzero 0).trans_lt hpos) hlasts) ()).1

end Policies

namespace Corrector

section Calls

variable {ι K : Type} [Field K] [LinearOrder K] [IsStrictOrderedRing K] [Circular K]
  {xyz : List (Vec3 K)} {c : Corrector ι K} {d : Direction K} {tolerance : K} {channels : List K}

/-- Still at the plane of the start, or at `plane` since the first commit. -/
def Settled (plane : Plane K) (c : Corrector ι K) : Prop :=
  (c.plane = .level ∧ c.epoch.plane = 0) ∨ (c.plane = plane ∧ c.epoch.plane = 1)

omit [IsStrictOrderedRing K] in
theorem Settled.epoch_le {plane : Plane K} (h : c.Settled plane) : c.epoch.plane ≤ 1 := by
  obtain ⟨-, hepoch⟩ | ⟨-, hepoch⟩ := h
  · omega
  · omega

omit [IsStrictOrderedRing K] in
theorem Settled.plane_eq {plane : Plane K} (h : c.Settled plane) (hepoch : c.epoch.plane ≠ 0) :
    c.plane = plane := by
  obtain ⟨-, hzero⟩ | ⟨hplane, -⟩ := h
  · exact absurd hzero hepoch
  · exact hplane

omit [IsStrictOrderedRing K] in
theorem Settled.adopt {plane : Plane K} (h : c.Settled plane) {v : Verdict K}
    (hnew : ∀ q, v.plane = some q → q = plane) (d : Direction K) (tolerance : K) :
    (c.adopt d tolerance v).Settled plane := by
  unfold Settled
  rw [adopt_plane, adopt_epoch_plane]
  cases hplane : c.newPlane? v with
  | none => exact h
  | some q =>
    obtain ⟨hq, hother⟩ := Option.filter_eq_some_iff.mp hplane
    obtain rfl := hnew q hq
    obtain ⟨-, hepoch⟩ | ⟨hsame, -⟩ := h
    · exact .inr ⟨rfl, by simp [hepoch]⟩
    · simp [hsame] at hother

theorem Settled.of_far {plane : Plane K} {rows : Chunk K} (h : c.Settled plane)
    (hcontains : plane.Contains rows) (hpos : 0 < tolerance)
    (hfar : tolerance ≤ c.plane.maxDeviation rows) : plane ≠ c.plane ∧ c.epoch.plane = 0 := by
  have hother : plane ≠ c.plane := by
    rintro rfl
    rw [Plane.maxDeviation_of_contains hcontains] at hfar
    exact absurd hpos (not_lt.mpr hfar)
  obtain ⟨-, hepoch⟩ | ⟨hsame, -⟩ := h
  · exact ⟨hother, hepoch⟩
  · exact absurd hsame.symm hother

theorem Settled.attend (lst : K) (hxyz : Equatorial xyz) (hdec : sinDeclination d.dec ≠ 0)
    (hcheck : c.settings.checkResidual = false)
    (htolerance : toleranceInMetres c.settings.wTolerance channels = .ok tolerance)
    (hpos : 0 < tolerance) (h : c.Settled (equatorPlane d.dec)) (identity : Nat) :
    let rows := Source.baselineRows xyz (lst - d.ra) d.dec
    let after := c.attend (.ofBaselines xyz lst channels) d identity
    after.2.Settled (equatorPlane d.dec) ∧
      (∃ served, after.1 = .ok served ∧ served.rows = rows.map after.2.plane.subtract) ∧
      (tolerance ≤ c.plane.maxDeviation rows → rows.plane?.isSome →
        after.2.plane = equatorPlane d.dec ∧ after.2.epoch.plane = 1) := by
  intro rows after
  have hchunk : (Scene.ofBaselines xyz lst channels).chunk c.settings.wTolerance d =
      .ok (rows, tolerance) := by
    simp [Scene.chunk, Scene.ofBaselines, Except.bind, htolerance, rows]
  obtain ⟨v, hv⟩ : ∃ v, reactive rows tolerance c.plane = .ok v := ⟨_, reactive_eq ..⟩
  have hpasses : (c.adopt d tolerance v).passes rows tolerance = true := by
    simp [passes, hcheck]
  have hafter : after = _ := (attend_of_opinion_ok hchunk
    ((opinion_ofBaselines hxyz hdec c lst channels hpos).trans hv) identity).trans
      (deliver_of_passes hpasses identity)
  rw [hafter]
  have hcontains := equatorPlane_contains hxyz (lst - d.ra) hdec
  refine ⟨h.adopt (fun q hq => ?_) d tolerance, ⟨_, rfl, rfl⟩, fun hfar hsome => ?_⟩
  · obtain ⟨-, hfit, -⟩ := reactive_replaces hv hq
    exact Plane.eq_of_contains hcontains ((plane?_eq_some_iff _ _).mpr hfit)
  · obtain ⟨best, hbest⟩ := Option.isSome_iff_exists.mp hsome
    obtain rfl := Plane.eq_of_contains hcontains hbest
    have hreplaces : v = .replace (equatorPlane d.dec) rows := by
      rw [reactive_eq, if_neg (not_lt.mpr hfar), hbest] at hv
      exact (Except.ok.inj hv).symm
    obtain ⟨hother, hepoch⟩ := h.of_far hcontains hpos hfar
    have hnew : c.newPlane? v = some (equatorPlane d.dec) := by
      simp [newPlane?, hreplaces, Verdict.replace, Option.filter_some, hother]
    change (c.adopt d tolerance v).plane = _ ∧ (c.adopt d tolerance v).epoch.plane = 1
    rw [adopt_plane, adopt_epoch_plane, hnew, hepoch]
    exact ⟨rfl, rfl⟩

end Calls

section Runs

variable {ι K : Type} [Field K] [LinearOrder K] [IsStrictOrderedRing K] [Circular K]
  [LawfulCircular K] {xyz : List (Vec3 K)} {c : Corrector ι K} {d : Direction K} (lst : ι → K)
  {channels : ι → List K}

def baselineFeeds (xyz : List (Vec3 K)) (lst : ι → K) (channels : ι → List K) (i : ι) :
    Feed Unit K := (Scene.ofBaselines xyz (lst i) (channels i)).feed

omit [LawfulCircular K] in
theorem Settled.reply (hxyz : Equatorial xyz) (hdec : sinDeclination d.dec ≠ 0)
    (hcheck : c.settings.checkResidual = false) (hready : Ready d c)
    (h : c.Settled (equatorPlane d.dec)) {r : Round ι Unit} {i : ι} (hr : r.source = some i)
    {tolerance : K} (htolerance : toleranceInMetres c.settings.wTolerance (channels i) = .ok tolerance)
    (hpos : 0 < tolerance) :
    let rows := Source.baselineRows xyz (lst i - d.ra) d.dec
    let reply := c.reply (baselineFeeds xyz lst channels) d r
    reply.corrector.Settled (equatorPlane d.dec) ∧
      (∃ served, reply.result = .ok served ∧
        served.rows = rows.map reply.corrector.plane.subtract) ∧
      (tolerance ≤ c.plane.maxDeviation rows → rows.plane?.isSome →
        reply.corrector.plane = equatorPlane d.dec ∧ reply.corrector.epoch.plane = 1) := by
  intro rows reply
  have hshows : (baselineFeeds xyz lst channels i).Shows
      (.ofBaselines xyz (lst i) (channels i)) r.sources := Feed.shows_feed _ _
  obtain ⟨hresult, hcorrector⟩ := reply_of_shows hready (by rw [hr]; rfl) hshows
  have hannounced : (c.next (baselineFeeds xyz lst channels) r.announcement).Settled
      (equatorPlane d.dec) := by
    rw [next_announcement]
    exact h
  have hplane : (c.next (baselineFeeds xyz lst channels) r.announcement).plane = c.plane := by
    rw [next_announcement]
  rw [← next_settings (baselineFeeds xyz lst channels) c r.announcement] at hcheck htolerance
  have hattend := hannounced.attend (lst i) hxyz hdec hcheck htolerance hpos r.identity
  rw [hplane] at hattend
  change reply.result = _ at hresult
  change reply.corrector = _ at hcorrector
  rw [hresult, hcorrector]
  exact hattend

theorem Settled.run (hxyz : Equatorial xyz) (hdec : sinDeclination d.dec ≠ 0)
    (hcheck : c.settings.checkResidual = false) (htangent : 0 < c.settings.tangentTolerance)
    (htolerance : ∀ i, ∃ tolerance,
      toleranceInMetres c.settings.wTolerance (channels i) = .ok tolerance ∧ 0 < tolerance)
    (hready : Ready d c) (h : c.Settled (equatorPlane d.dec)) {rounds : List (Round ι Unit)}
    (hrounds : ∀ r ∈ rounds, r.source.isSome) :
    let after := c.run (baselineFeeds xyz lst channels) (rounds.flatMap (Round.moments d))
    Ready d after ∧ after.Settled (equatorPlane d.dec) := by
  induction rounds generalizing c with
  | nil => exact ⟨hready, h⟩
  | cons r rest ih =>
    obtain ⟨i, hr⟩ := Option.isSome_iff_exists.mp (hrounds r List.mem_cons_self)
    obtain ⟨tolerance, hi, hpos⟩ := htolerance i
    obtain ⟨hsettled, -, -⟩ := h.reply lst hxyz hdec hcheck hready hr hi hpos
    have hsettings : (c.reply (baselineFeeds xyz lst channels) d r).corrector.settings =
        c.settings := run_settings _ c (r.moments d)
    rw [List.flatMap_cons, run_append, run_moments]
    exact ih (by rwa [hsettings]) (by rwa [hsettings]) (by rwa [hsettings]) (hready.reply htangent)
      hsettled fun r hr => hrounds r (List.mem_cons_of_mem _ hr)

end Runs

end Corrector

/-- Toward a declination with a sine, the rows of an equatorial array lie at every hour angle
in the same plane and with the same determinant, and where that is not singular they are
fitted by this plane.  So a corrector with either policy, given the rows at one time after the
other and no residual to check, returns them all with one new plane at the most.  It takes it
over as soon as a chunk is out of tolerance, and what it returns from then on has no `w`. -/
theorem equatorial_array_keeps_plane {ι K : Type} [Field K] [LinearOrder K]
    [IsStrictOrderedRing K] [Circular K] [LawfulCircular K]
    (xyz : List (Vec3 K)) (hxyz : ∀ p ∈ xyz, p.z = 0) (hcount : 2 ≤ xyz.length) (ra dec : K)
    (hdec : sinDeclination dec ≠ 0) :
    let slope := -(cosDeclination dec / sinDeclination dec)
    let determinant := sinDeclination dec * sinDeclination dec *
      ((xyz.map fun p => p.x * p.x).sum * (xyz.map fun p => p.y * p.y).sum -
        (xyz.map fun p => p.x * p.y).sum * (xyz.map fun p => p.x * p.y).sum)
    (∀ x : ℝ, sinDeclination x = Real.sin x ∧ cosDeclination x = Real.cos x) ∧
      (∀ [FloorRing K] [Roots K] lst channels,
        ((baselinesAt xyz channels lst).serve (Direction.known ⟨ra, dec⟩)).1 =
          .ok ((Source.baselineRows xyz (lst - ra) dec).map Uvw.known)) ∧
      (∀ hourAngle,
        let rows := Source.baselineRows xyz hourAngle dec
        (∀ r ∈ rows, r.w = slope * r.v) ∧ rows.moments.determinant? = some determinant ∧
          (singularDeterminant ≤ determinant → rows.fit = .ok (some ⟨0, slope⟩))) ∧
      ∀ (lst : ι → K) (channels : ι → List K) (settings : Settings K)
        (rounds : List (Round ι Unit)) (r : Round ι Unit),
        (∀ i, channels i ≠ [] ∧ ∀ f ∈ channels i, 0 < f) → 0 < settings.wTolerance →
        0 < settings.tangentTolerance → settings.checkResidual = false →
        (∀ x ∈ r :: rounds, x.source.isSome) →
        let feeds := Corrector.baselineFeeds xyz lst channels
        let found := Corrector.run feeds (.create settings)
          (rounds.flatMap (Round.moments ⟨ra, dec⟩))
        let reply := found.reply feeds ⟨ra, dec⟩ r
        found.epoch.plane ≤ 1 ∧ reply.corrector.epoch.plane ≤ 1 ∧
          (∃ served, reply.result = .ok served ∧
            (reply.corrector.epoch.plane ≠ 0 → ∀ row ∈ served.rows, row.w = 0)) ∧
          (singularDeterminant ≤ determinant → ∀ i tolerance, r.source = some i →
            toleranceInMetres settings.wTolerance (channels i) = .ok tolerance →
            tolerance ≤ found.plane.maxDeviation (Source.baselineRows xyz (lst i - ra) dec) →
            reply.corrector.plane = ⟨0, slope⟩ ∧ reply.corrector.epoch.plane = 1) := by
  intro slope determinant
  have hbest : ∀ hourAngle, singularDeterminant ≤ determinant →
      (Source.baselineRows xyz hourAngle dec).plane? = some (equatorPlane dec) :=
    fun hourAngle hregular => plane?_baselineRows hxyz hcount hourAngle hdec hregular
  refine ⟨fun x => ⟨sinDeclination_real x, cosDeclination_real x⟩,
    fun lst channels => serve_baselinesAt xyz channels lst ⟨ra, dec⟩, fun hourAngle => ⟨?_, ?_, ?_⟩, ?_⟩
  · intro row hrow
    rw [equatorPlane_contains hxyz hourAngle hdec row hrow, Plane.height, equatorPlane, zero_mul,
      zero_add]
  · exact (determinant?_eq _).trans (congrArg some (determinant_baselineRows hxyz hourAngle dec))
  · exact fun hregular => (plane?_eq_some_iff _ _).mp (hbest hourAngle hregular)
  · intro lst channels settings rounds r hchannels hw htangent hcheck hsources feeds found reply
    have htolerance := fun i => exists_toleranceInMetres (hchannels i).1 (hchannels i).2 hw
    have hready : Corrector.Ready ⟨ra, dec⟩ (.create settings : Corrector ι K) :=
      ⟨rfl, [], Corrector.coherent_create settings⟩
    have hstart : Corrector.Settled (equatorPlane dec) (.create settings : Corrector ι K) :=
      .inl ⟨rfl, rfl⟩
    -- A run is in the first plane or, after its only change, in that of the equator.
    obtain ⟨hfound, hsettled⟩ := hstart.run (d := ⟨ra, dec⟩) lst hxyz hdec hcheck htangent
      htolerance hready fun x hx => hsources x (List.mem_cons_of_mem _ hx)
    have hsettings : found.settings = settings := Corrector.run_settings ..
    obtain ⟨i, hi⟩ := Option.isSome_iff_exists.mp (hsources r List.mem_cons_self)
    obtain ⟨tolerance, hok, hpos⟩ := htolerance i
    obtain ⟨hafter, ⟨served, hserved, hrows⟩, htakes⟩ :=
      hsettled.reply lst hxyz hdec (by rwa [hsettings]) hfound hi (by rwa [hsettings]) hpos
    refine ⟨hsettled.epoch_le, hafter.epoch_le, ⟨served, hserved, fun hepoch => ?_⟩, ?_⟩
    · rw [hrows, hafter.plane_eq hepoch]
      exact Plane.w_eq_zero_of_contains (equatorPlane_contains hxyz _ hdec)
    · intro hregular other bound hother hbound hfar
      obtain rfl : i = other := Option.some.inj (hi.symm.trans hother)
      obtain rfl : tolerance = bound := Except.ok.inj (hok.symm.trans hbound)
      exact htakes hfar (by rw [hbest _ hregular]; rfl)

def crossed : List (Vec3 ℝ) := [⟨1, 0, 0⟩, ⟨0, 1, 0⟩]

def hopeful : Settings ℝ := ⟨1, false, true, 1, 10, 1, false⟩

theorem sinDeclination_halfway : sinDeclination (Real.pi / 4) = √2 / 2 :=
  (sinDeclination_real _).trans Real.sin_pi_div_four

theorem cosDeclination_halfway : cosDeclination (Real.pi / 4) = √2 / 2 :=
  (cosDeclination_real _).trans Real.cos_pi_div_four

theorem crossed_regular : (singularDeterminant : ℝ) ≤
    sinDeclination (Real.pi / 4) * sinDeclination (Real.pi / 4) *
      ((crossed.map fun p => p.x * p.x).sum * (crossed.map fun p => p.y * p.y).sum -
        (crossed.map fun p => p.x * p.y).sum * (crossed.map fun p => p.x * p.y).sum) := by
  have hhalf : √2 / 2 * (√2 / 2) = (1 / 2 : ℝ) := by
    rw [div_mul_div_comm, Real.mul_self_sqrt zero_le_two]
    norm_num
  have hbound : (singularDeterminant : ℝ) = (1 : Nat) / (10000000 : Nat) := rfl
  rw [sinDeclination_halfway, hhalf, hbound]
  norm_num [crossed]

theorem crossed_far : 1 / 2 ≤ (Plane.level : Plane ℝ).maxDeviation
    (Source.baselineRows crossed (0 - 0) (Real.pi / 4)) := by
  have hlong : 1 / 2 ≤ √2 / 2 := by
    have hone : (1 : ℝ) ≤ √2 := Real.one_le_sqrt.mpr one_le_two
    linarith
  have hquarter : Circular.sin (Circular.pi / 2 - (0 - 0) : ℝ) = 1 := by
    rw [sub_self, sub_zero]
    exact Real.sin_pi_div_two
  have hdeviation : (Plane.level : Plane ℝ).deviation
      ((Rotation.toward (0 - 0) (Real.pi / 4)).act 1 0 0) = |-(√2 / 2)| := by
    rw [act_of_equatorial (p := ⟨1, 0, 0⟩) rfl, hquarter, cosDeclination_halfway]
    simp [Plane.deviation, Plane.height, Plane.level, Scalar.abs]
  rw [maxDeviation_eq]
  refine le_trans ?_ (le_max_left _ _)
  change 1 / 2 ≤ (Plane.level : Plane ℝ).deviation _
  rw [hdeviation, abs_neg]
  exact hlong.trans (le_abs_self _)

theorem equatorial_array_keeps_plane_crossed :
    let feeds : ℝ → Feed Unit ℝ := Corrector.baselineFeeds crossed id fun _ => [2 * 299792458]
    let reply := (Corrector.create hopeful).reply feeds ⟨0, Real.pi / 4⟩ ⟨some 0, (), 0⟩
    (∀ p ∈ crossed, p.z = 0) ∧ 2 ≤ crossed.length ∧ sinDeclination (Real.pi / 4) ≠ 0 ∧
      (∀ hourAngle,
        (Source.baselineRows crossed hourAngle (Real.pi / 4)).fit = .ok (some ⟨0, -1⟩)) ∧
      reply.corrector.plane = ⟨0, -1⟩ ∧ reply.corrector.epoch.plane = 1 ∧
      ∃ served, reply.result = .ok served ∧ ∀ row ∈ served.rows, row.w = 0 := by
  intro feeds reply
  have hflat : ∀ p ∈ crossed, p.z = 0 := by simp [crossed]
  have hroot : √2 / 2 ≠ (0 : ℝ) := by positivity
  have hdec : sinDeclination (Real.pi / 4) ≠ 0 := by rwa [sinDeclination_halfway]
  have hslope : -(cosDeclination (Real.pi / 4) / sinDeclination (Real.pi / 4)) = -1 := by
    rw [sinDeclination_halfway, cosDeclination_halfway, div_self hroot]
  have htolerance : toleranceInMetres (1 : ℝ) [2 * 299792458] = .ok (1 / 2) := by
    have hlight : (speedOfLight : ℝ) = (299792458 : Nat) := rfl
    simp [toleranceInMetres, highest?, hlight]
    norm_num
  obtain ⟨-, -, hrows, hruns⟩ :=
    equatorial_array_keeps_plane (ι := ℝ) crossed hflat le_rfl 0 (Real.pi / 4) hdec
  obtain ⟨-, -, ⟨served, hserved, hzero⟩, htakes⟩ := hruns id (fun _ => [2 * 299792458]) hopeful []
    ⟨some 0, (), 0⟩ (by norm_num) (by norm_num [hopeful]) (by norm_num [hopeful]) rfl (by simp)
  obtain ⟨hplane, hepoch⟩ := htakes crossed_regular 0 (1 / 2) rfl htolerance crossed_far
  rw [hslope] at hplane
  refine ⟨hflat, le_rfl, hdec, fun hourAngle => ?_, hplane, hepoch, served, hserved,
    hzero (by rw [hepoch]; decide)⟩
  rw [(hrows hourAngle).2.2 crossed_regular, hslope]

end Coplanar
