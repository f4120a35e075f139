import Mathlib.Data.List.Chain
import Mathlib.Tactic.Linarith
import Coplanar.Proofs.Recovery
import Coplanar.Proofs.Repetition

/-! A layout in a plane that tilts at a steady rate.  Either policy keeps every chunk of it
within the tolerance.  A plane fitted for a later moment is never given up before one fitted
for an earlier moment, so the policy that looks ahead takes over no more planes. -/
namespace Coplanar

theorem foldr_max_mul {K β : Type} [Field K] [LinearOrder K] [IsStrictOrderedRing K] {c : K}
    (hc : 0 ≤ c) (f : β → K) (l : List β) :
    (l.map fun p => c * f p).foldr max 0 = c * (l.map f).foldr max 0 := by
  induction l with
  | nil => simp
  | cons p rest ih => simp only [List.map_cons, List.foldr_cons, ih, mul_max_of_nonneg _ _ hc]

structure Sweep (K : Type) [Field K] [LinearOrder K] [Circular K] where
  uv : List (K × K)
  /-- The plane at time zero. -/
  start : Plane K
  /-- What its coefficients gain in a second. -/
  rate : Plane K
  enough : minFitRows ≤ uv.length
  regular : singularDeterminant ≤
    (uv.map fun p => p.1 * p.1).sum * (uv.map fun p => p.2 * p.2).sum -
      (uv.map fun p => p.1 * p.2).sum * (uv.map fun p => p.1 * p.2).sum

namespace Sweep

variable {K : Type} [Field K] [LinearOrder K] [Circular K]

def plane (g : Sweep K) (x : K) : Plane K :=
  ⟨g.start.a + g.rate.a * x, g.start.b + g.rate.b * x⟩

def rows (g : Sweep K) (x : K) : Chunk K :=
  g.uv.map fun p => ⟨p.1, p.2, (g.plane x).a * p.1 + (g.plane x).b * p.2⟩

def speed (g : Sweep K) : K := (g.uv.map fun p => |g.rate.a * p.1 + g.rate.b * p.2|).foldr max 0

/-- The source at a time.  Longitude that the tangent point loses is time that passes. -/
def scene (g : Sweep K) (ra frequency t : K) : Scene K where
  rows d := .ok (g.rows (t + (ra - d.ra) / earthRotationRate))
  channels := .ok [frequency]

variable (g : Sweep K)

theorem contains_rows (x : K) : (g.plane x).Contains (g.rows x) := by
  intro r hr
  obtain ⟨p, -, rfl⟩ := List.mem_map.mp hr
  rfl

section Ordered

variable [IsStrictOrderedRing K]

theorem rows_plane? (x : K) : (g.rows x).plane? = some (g.plane x) := by
  refine Plane.plane?_of_contains (g.contains_rows x) (by simpa [rows] using g.enough) ?_
  have hdeterminant : singularDeterminant ≤ (g.rows x).determinant := by
    simpa [Chunk.determinant, Chunk.total, rows, Function.comp_def] using g.regular
  exact hdeterminant.trans (le_abs_self _)

theorem maxDeviation_rows (x y : K) :
    (g.plane x).maxDeviation (g.rows y) = |x - y| * g.speed := by
  have hrow : ∀ p : K × K,
      (g.plane x).deviation ⟨p.1, p.2, (g.plane y).a * p.1 + (g.plane y).b * p.2⟩ =
        |x - y| * |g.rate.a * p.1 + g.rate.b * p.2| := by
    intro p
    rw [← abs_mul]
    change |_| = _
    refine congrArg abs ?_
    simp only [Plane.height, plane]
    ring
  rw [maxDeviation_eq, rows, List.map_map, speed, ← foldr_max_mul (abs_nonneg _)]
  exact congrArg _ (List.map_congr_left fun p _ => hrow p)

omit [IsStrictOrderedRing K] in
theorem speed_nonneg : 0 ≤ g.speed := by
  unfold speed
  induction g.uv.map fun p => |g.rate.a * p.1 + g.rate.b * p.2| with
  | nil => exact le_rfl
  | cons h rest ih => exact ih.trans (le_max_right _ _)

/-- Where the search settles: a step before the plane of now is first out of tolerance, or
here if that is out of reach. -/
def Settles (tolerance interval : K) (limit steps : Nat) : Prop :=
  IsLeast {n : Nat | 1 ≤ n ∧ tolerance ≤ n * interval * g.speed} (steps + 1) ∧ steps + 1 ≤ limit ∨
    (∀ n : Nat, 1 ≤ n → n ≤ limit → n * interval * g.speed < tolerance) ∧ steps = 0

omit [IsStrictOrderedRing K] in
theorem exists_settles (tolerance interval : K) (limit : Nat) :
    ∃ steps, g.Settles tolerance interval limit steps := by
  by_cases hleaves : ∃ n : Nat, n ≤ limit ∧ 1 ≤ n ∧ tolerance ≤ n * interval * g.speed
  · obtain ⟨n, hlimit, hn⟩ := hleaves
    classical
    have hex : ∃ n : Nat, 1 ≤ n ∧ tolerance ≤ n * interval * g.speed := ⟨n, hn⟩
    have hfind := Nat.find_spec hex
    have hmin : ∀ k : Nat, 1 ≤ k ∧ tolerance ≤ k * interval * g.speed → Nat.find hex ≤ k :=
      fun k hk => Nat.find_min' hex hk
    obtain ⟨steps, hsteps⟩ : ∃ steps, Nat.find hex = steps + 1 :=
      ⟨Nat.find hex - 1, by have := hfind.1; omega⟩
    rw [hsteps] at hfind hmin
    exact ⟨steps, .inl ⟨⟨hfind, hmin⟩, (hmin n hn).trans hlimit⟩⟩
  · refine ⟨0, .inr ⟨fun n hn hlimit => ?_, rfl⟩⟩
    by_contra hfar
    exact hleaves ⟨n, hlimit, hn, not_lt.mp hfar⟩

omit [IsStrictOrderedRing K] in
theorem near_of_settles {tolerance interval : K} {limit steps : Nat} (hpos : 0 < tolerance)
    (h : g.Settles tolerance interval limit steps) : steps * interval * g.speed < tolerance := by
  by_contra hfar
  cases steps with
  | zero => simp [hpos] at hfar
  | succ n =>
    obtain ⟨⟨-, hleast⟩, -⟩ | ⟨-, hzero⟩ := h
    · have hle := hleast ⟨by omega, not_lt.mp hfar⟩
      omega
    · cases hzero

def verdict (tolerance lead t : K) (current : Plane K) : Verdict K :=
  if current.maxDeviation (g.rows t) < tolerance then .keep current (g.rows t)
  else .replace (g.plane (t + lead)) (g.rows t)

theorem verdict_near {tolerance lead : K} (hlead : 0 ≤ lead) (hnear : lead * g.speed < tolerance)
    (t : K) (current : Plane K) : (g.verdict tolerance lead t current).deviation < tolerance := by
  unfold verdict
  split
  · assumption
  · change (g.plane (t + lead)).maxDeviation (g.rows t) < tolerance
    rwa [maxDeviation_rows, add_sub_cancel_left, abs_of_nonneg hlead]

theorem reactive_rows {tolerance : K} (t : K) (current : Plane K) :
    reactive (g.rows t) tolerance current = .ok (g.verdict tolerance 0 t current) := by
  have hfit := (plane?_eq_some_iff _ _).mp (g.rows_plane? t)
  have hfew := not_few_of_plane? (g.rows_plane? t)
  by_cases hnear : current.maxDeviation (g.rows t) < tolerance
  · simp [reactive, verdict, hnear]
  · simp [reactive, verdict, hnear, hfew, hfit, Except.map]

theorem foreseen_of_settles {f : Nat → Chunk K} {t interval tolerance : K} {current : Plane K}
    {limit steps : Nat} (hf : ∀ n : Nat, f n = g.rows (t + n * interval)) (hpos : 0 < tolerance)
    (hinterval : 0 < interval) (hsettles : g.Settles tolerance interval limit steps)
    (hfar : tolerance ≤ current.maxDeviation (f 0)) :
    ∃ warnings, Foreseen f tolerance current limit
      (.replace (g.plane (t + steps * interval)) (f 0)) warnings := by
  have hfit : ∀ n : Nat, (f n).plane? = some (g.plane (t + n * interval)) := fun n => by
    rw [hf, rows_plane?]
  have hlead : ∀ n : Nat, 0 ≤ n * interval := fun n => mul_nonneg n.cast_nonneg hinterval.le
  have hdeviation : ∀ n : Nat, (g.plane t).maxDeviation (f n) = n * interval * g.speed := fun n => by
    rw [hf, maxDeviation_rows, sub_add_cancel_left, abs_neg, abs_of_nonneg (hlead n)]
  have hback : ∀ n : Nat, (g.plane (t + n * interval)).maxDeviation (f 0) =
      n * interval * g.speed := fun n => by
    rw [hf, maxDeviation_rows, Nat.cast_zero, zero_mul, add_zero, add_sub_cancel_left,
      abs_of_nonneg (hlead n)]
  have hnow : (f 0).plane? = some (g.plane t) := by simpa using hfit 0
  have hgood : (g.plane t).maxDeviation (f 0) < tolerance := by simpa [hdeviation] using hpos
  have hnear := g.near_of_settles hpos hsettles
  -- Either the plane goes out of tolerance within the steps allowed or it lasts for all of them.
  obtain ⟨hleast, hlimit⟩ | ⟨hlasts, rfl⟩ := hsettles
  · have hleaves : Leaves f tolerance (g.plane t) (steps + 1) := by
      simpa only [Leaves, hdeviation] using hleast
    have hreturns : Returns f tolerance (steps + 1) steps :=
      ⟨⟨Nat.lt_succ_self _, .inr ⟨_, hfit steps, by rwa [hback]⟩⟩, fun n hn => Nat.le_of_lt_succ hn.1⟩
    exact ⟨0, .settled (g.plane t) (steps + 1) steps _ hfar hnow hgood hleaves hlimit hreturns
      (hfit steps)⟩
  · refine ⟨1, ?_⟩
    rw [Nat.cast_zero, zero_mul, add_zero]
    refine .lasting (g.plane t) hfar hnow hgood ?_
    rintro ⟨top, htop, ⟨hone, hleft⟩, -⟩
    rw [hdeviation] at hleft
    exact absurd (hlasts top hone htop) (not_lt.mpr hleft)

end Ordered

structure Tenure (K : Type) where
  plane : Plane K
  epoch : Int

/-- A chunk of the time `t` served: the plane is kept, or another is taken `lead` seconds
ahead. -/
def refit (tolerance lead t : K) (held : Tenure K) : Tenure K :=
  if held.plane.maxDeviation (g.rows t) < tolerance then held
  else ⟨g.plane (t + lead), held.epoch + 1⟩

variable {g} in
theorem plane_of_refit {tolerance lead t : K} {held : Tenure K}
    (h : (g.refit tolerance lead t held).epoch ≠ held.epoch) :
    (g.refit tolerance lead t held).plane = g.plane (t + lead) := by
  unfold refit at h ⊢
  split at h
  · exact absurd rfl h
  · rename_i hfar
    rw [if_neg hfar]

/-- One that fits for now and one that fits ahead, when all that is to come is at `last` or
later.  The second has taken no more planes; with as many, its plane is the later one. -/
inductive Race (lead last : K) : Tenure K → Tenure K → Prop where
  | level (held : Tenure K) : Race lead last held held
  | apart (r p : K) (m n : Int) (hr : r ≤ last) (hp : p ≤ last) (hle : n ≤ m)
    (hlater : n = m → r ≤ p + lead) :
    Race lead last ⟨g.plane r, m⟩ ⟨g.plane (p + lead), n⟩

section Ordered

variable [IsStrictOrderedRing K] {g} {tolerance lead last t : K}

omit [IsStrictOrderedRing K] in
theorem Race.epoch_le {a b : Tenure K} (h : g.Race lead last a b) : b.epoch ≤ a.epoch := by
  cases h with
  | level => exact le_rfl
  | apart _ _ _ _ _ _ hle _ => exact hle

theorem Race.refit {a b : Tenure K} (h : g.Race lead last a b) (hlead : 0 ≤ lead)
    (hnear : lead * g.speed < tolerance) (ht : last ≤ t) :
    g.Race lead t (g.refit tolerance 0 t a) (g.refit tolerance lead t b) := by
  have hahead : t ≤ t + lead := le_add_of_nonneg_right hlead
  unfold Sweep.refit
  cases h with
  | level =>
    split
    · exact .level _
    · rw [add_zero]
      exact .apart t t _ _ le_rfl le_rfl le_rfl fun _ => hahead
  | apart r p m n hr hp hle hlater =>
    rw [add_zero, maxDeviation_rows, maxDeviation_rows]
    by_cases ha : |r - t| * g.speed < tolerance <;> by_cases hb : |p + lead - t| * g.speed < tolerance
    · rw [if_pos ha, if_pos hb]
      exact .apart r p m n (hr.trans ht) (hp.trans ht) hle hlater
    · -- Only the one ahead takes a plane, so it was behind in their number.
      have hne : n ≠ m := by
        intro heq
        refine hb ?_
        rcases le_total t (p + lead) with hbefore | hafter
        · refine (mul_le_mul_of_nonneg_right ?_ g.speed_nonneg).trans_lt hnear
          rw [abs_of_nonneg (sub_nonneg.mpr hbefore)]
          linarith
        · refine (mul_le_mul_of_nonneg_right ?_ g.speed_nonneg).trans_lt ha
          rw [abs_of_nonpos (sub_nonpos.mpr hafter), abs_of_nonpos (sub_nonpos.mpr (hr.trans ht))]
          linarith [hlater heq]
      rw [if_pos ha, if_neg hb]
      exact .apart r t m (n + 1) (hr.trans ht) le_rfl (by omega) fun _ => (hr.trans ht).trans hahead
    · rw [if_neg ha, if_pos hb]
      exact .apart t p (m + 1) n le_rfl (hp.trans ht) (by omega) (by omega)
    · rw [if_neg ha, if_neg hb]
      exact .apart t t (m + 1) (n + 1) le_rfl le_rfl (by omega) fun _ => hahead

/-- Fitting ahead stays ahead. -/
theorem Race.foldl_epoch_le {a b : Tenure K} {times : List K} (h : g.Race lead last a b) (hlead : 0 ≤ lead)
    (hnear : lead * g.speed < tolerance) (htimes : (last :: times).IsChain (· ≤ ·)) :
    (times.foldl (fun held t => g.refit tolerance lead t held) b).epoch ≤
      (times.foldl (fun held t => g.refit tolerance 0 t held) a).epoch := by
  induction times generalizing last a b with
  | nil => exact h.epoch_le
  | cons t rest ih =>
    rw [List.isChain_cons_cons] at htimes
    exact ih (h.refit hlead hnear htimes.1) htimes.2

theorem foldl_refit_epoch_le (hlead : 0 ≤ lead) (hnear : lead * g.speed < tolerance)
    (held : Tenure K) {times : List K} (hsorted : times.IsChain (· ≤ ·)) :
    (times.foldl (fun held t => g.refit tolerance lead t held) held).epoch ≤
      (times.foldl (fun held t => g.refit tolerance 0 t held) held).epoch := by
  cases times with
  | nil => exact le_rfl
  | cons t rest =>
    exact Race.foldl_epoch_le (.level held) hlead hnear (List.isChain_cons_cons.mpr ⟨le_rfl, hsorted⟩)

end Ordered

end Sweep

namespace Corrector

variable {ι σ K : Type} [Field K] [LinearOrder K] [IsStrictOrderedRing K] [Circular K]
  [LawfulCircular K] {g : Sweep K} {d : Direction K} {frequency tolerance lead t : K}

def tenure (c : Corrector ι K) : Sweep.Tenure K := ⟨c.plane, c.epoch.plane⟩

structure Aims (g : Sweep K) (d : Direction K) (frequency : K) (settings : Settings K)
    (tolerance lead : K) : Prop where
  lead_nonneg : 0 ≤ lead
  near : lead * g.speed < tolerance
  opinion_eq : ∀ {ι : Type} (c : Corrector ι K) (t : K), c.settings = settings →
    c.opinion (g.scene d.ra frequency t) d (g.rows t) tolerance =
      .ok (g.verdict tolerance lead t c.plane)

omit [LawfulCircular K] in
theorem aims_of_reactive (g : Sweep K) (d : Direction K) (frequency : K) {settings : Settings K}
    (hpredict : settings.predict = false) (hpos : 0 < tolerance) :
    Aims g d frequency settings tolerance 0 where
  lead_nonneg := le_rfl
  near := by rwa [zero_mul]
  opinion_eq c t hc := by
    subst hc
    rw [opinion, judge_of_reactive hpredict, g.reactive_rows]

theorem aims_of_predictive (g : Sweep K) (d : Direction K) (frequency : K) {settings : Settings K}
    {steps : Nat} (hpredict : settings.predict = true) (hpos : 0 < tolerance)
    (hinterval : 0 < settings.interval)
    (hsettles : g.Settles tolerance settings.interval settings.maxSteps steps) :
    Aims g d frequency settings tolerance (steps * settings.interval) where
  lead_nonneg := mul_nonneg steps.cast_nonneg hinterval.le
  near := g.near_of_settles hpos hsettles
  opinion_eq c t hc := by
    subst hc
    have hserves : (g.scene d.ra frequency t).feed.Serves
        fun e => g.rows (t + (d.ra - e.ra) / earthRotationRate) := fun _ _ => rfl
    have hrows : ∀ n : Nat, ahead (fun e => g.rows (t + (d.ra - e.ra) / earthRotationRate)) d
        c.settings.interval (g.rows t) n = g.rows (t + n * c.settings.interval) := by
      intro n
      cases n with
      | zero => simp [ahead]
      | succ n =>
        have hshift : (d.ra - (d.ra - (n + 1 : Nat) * earthRotationRate * c.settings.interval)) /
            earthRotationRate = (n + 1 : Nat) * c.settings.interval := by
          rw [sub_sub_cancel, div_eq_iff earthRotationRate_pos.ne']
          ring
        rw [ahead, hshift]
    have htrack := shows_ahead hserves d c.settings.interval (g.rows t)
    rw [opinion, judge_of_predictive hpredict]
    by_cases hnear : c.plane.maxDeviation (g.rows t) < tolerance
    · rw [Sweep.verdict, if_pos hnear]
      exact (predictive_of_foreseen tolerance htrack (.near hnear) ()).1
    · rw [Sweep.verdict, if_neg hnear]
      obtain ⟨warnings, hforeseen⟩ :=
        g.foreseen_of_settles hrows hpos hinterval hsettles (not_lt.mp hnear)
      exact (predictive_of_foreseen tolerance htrack hforeseen ()).1

def Succeeds (tolerance : K) (result : Except (Fault K) (Served K)) (c : Corrector ι K) : Prop :=
  (∃ served, result = .ok served) ∧
    ∃ deviation, c.deviation = some deviation ∧ c.tolerance = some tolerance ∧ deviation < tolerance

omit [LawfulCircular K] [IsStrictOrderedRing K] in
theorem toleranceInMetres_singleton (hfrequency : 0 < frequency) (wTolerance : K) :
    toleranceInMetres wTolerance [frequency] = .ok (wTolerance * speedOfLight / frequency) := by
  simp [toleranceInMetres, highest?, hfrequency]

omit [LawfulCircular K] [IsStrictOrderedRing K] in
theorem chunk_scene (hfrequency : 0 < frequency) (wTolerance : K) :
    (g.scene d.ra frequency t).chunk wTolerance d =
      .ok (g.rows t, wTolerance * speedOfLight / frequency) := by
  simp [Scene.chunk, Sweep.scene, Except.bind, toleranceInMetres_singleton hfrequency]

omit [LawfulCircular K] in
theorem newPlane?_verdict {c : Corrector ι K} (hlead : 0 ≤ lead)
    (hnear : lead * g.speed < tolerance) :
    c.newPlane? (g.verdict tolerance lead t c.plane) =
      if c.plane.maxDeviation (g.rows t) < tolerance then none else some (g.plane (t + lead)) := by
  have hverdict := g.verdict_near hlead hnear t c.plane
  unfold Sweep.verdict at hverdict ⊢
  split
  · rfl
  · rename_i hfar
    rw [if_neg hfar] at hverdict
    -- The plane in use is out of tolerance and the new one is not.
    have hne : g.plane (t + lead) ≠ c.plane := by
      intro heq
      rw [← heq] at hfar
      exact hfar hverdict
    simp [newPlane?, Verdict.replace, hne]

omit [LawfulCircular K] in
theorem attend_of_aims {c : Corrector ι K} (haims : Aims g d frequency c.settings tolerance lead)
    (hchunk : (g.scene d.ra frequency t).chunk c.settings.wTolerance d = .ok (g.rows t, tolerance))
    (identity : Nat) :
    let after := c.attend (g.scene d.ra frequency t) d identity
    Succeeds tolerance after.1 after.2 ∧ after.2.tenure = g.refit tolerance lead t c.tenure := by
  intro after
  have hopinion := haims.opinion_eq c t rfl
  have hnear := g.verdict_near haims.lead_nonneg haims.near t c.plane
  have hpasses : (c.adopt d tolerance (g.verdict tolerance lead t c.plane)).passes (g.rows t)
      tolerance = true := by
    rw [passes, (less_iff _ _).mpr ((adopt_less_iff hopinion).mpr hnear), Bool.or_true]
  have hafter := (attend_of_opinion_ok hchunk hopinion identity).trans
    (deliver_of_passes hpasses identity)
  change after = _ at hafter
  rw [hafter]
  refine ⟨⟨⟨_, rfl⟩, _, adopt_deviation .., adopt_tolerance .., hnear⟩, ?_⟩
  change (c.adopt d tolerance _).tenure = _
  rw [tenure, adopt_plane, adopt_epoch_plane, newPlane?_verdict haims.lead_nonneg haims.near,
    Sweep.refit, tenure]
  split <;> rfl

section Rounds

variable {feeds : K → Feed σ K} {c : Corrector K K}

omit [LawfulCircular K] in
theorem reply_of_aims (hready : Ready d c)
    (haims : Aims g d frequency c.settings (c.settings.wTolerance * speedOfLight / frequency) lead)
    (hfrequency : 0 < frequency) (hfeeds : ∀ t s, (feeds t).Shows (g.scene d.ra frequency t) s)
    {r : Round K σ} (hr : r.source = some t) :
    let reply := c.reply feeds d r
    Succeeds (c.settings.wTolerance * speedOfLight / frequency) reply.result reply.corrector ∧
      reply.corrector.tenure =
        g.refit (c.settings.wTolerance * speedOfLight / frequency) lead t c.tenure := by
  intro reply
  obtain ⟨hresult, hcorrector⟩ :=
    reply_of_shows hready (by rw [hr]; rfl) (hfeeds t r.sources)
  have hsettings : (c.next feeds r.announcement).settings = c.settings := next_settings ..
  have htenure : (c.next feeds r.announcement).tenure = c.tenure := by
    rw [next_announcement]
    rfl
  rw [← hsettings] at haims
  obtain ⟨hsucceeds, hafter⟩ := attend_of_aims (t := t) haims (chunk_scene hfrequency _) r.identity
  rw [← hresult, ← hcorrector, hsettings] at hsucceeds
  rw [← hcorrector, hsettings, htenure] at hafter
  exact ⟨hsucceeds, hafter⟩

theorem run_of_aims (htangent : 0 < c.settings.tangentTolerance) (hready : Ready d c)
    (haims : Aims g d frequency c.settings (c.settings.wTolerance * speedOfLight / frequency) lead)
    (hfrequency : 0 < frequency) (hfeeds : ∀ t s, (feeds t).Shows (g.scene d.ra frequency t) s)
    {rounds : List (Round K σ)} {times : List K}
    (hrounds : rounds.map Round.source = times.map some) :
    let after := c.run feeds (rounds.flatMap (Round.moments d))
    Ready d after ∧ after.tenure = times.foldl
      (fun held t => g.refit (c.settings.wTolerance * speedOfLight / frequency) lead t held)
      c.tenure := by
  induction rounds generalizing c times with
  | nil =>
    obtain rfl : times = [] := by simpa using hrounds
    exact ⟨hready, rfl⟩
  | cons r rest ih =>
    cases times with
    | nil => cases hrounds
    | cons t times =>
      obtain ⟨hr, hrest⟩ := List.cons_eq_cons.mp hrounds
      obtain ⟨-, htenure⟩ := reply_of_aims hready haims hfrequency hfeeds hr
      have hsettings : (c.reply feeds d r).corrector.settings = c.settings :=
        run_settings feeds c (r.moments d)
      rw [List.flatMap_cons, run_append, run_moments, List.foldl_cons, ← htenure, ← hsettings]
      exact ih (by rwa [hsettings]) (hready.reply htangent) (by rwa [hsettings]) hrest

/-- A track of a sweep, for a corrector that fits for now and one that looks ahead.  At no
time has the second taken more planes.  Every chunk is handed out by both with a deviation
within the tolerance, and each plane that the second takes is exactly the one of the moment
at which its search settles. -/
theorem sweep_refits {τ : Type} (g : Sweep K) (settings : Settings K)
    (hpos : 0 < settings.wTolerance) (htangent : 0 < settings.tangentTolerance)
    (hinterval : 0 < settings.interval) {frequency : K} (hfrequency : 0 < frequency)
    (d : Direction K) (feeds : K → Feed σ K) (feeds' : K → Feed τ K)
    (hfeeds : ∀ t s, (feeds t).Shows (g.scene d.ra frequency t) s)
    (hfeeds' : ∀ t s, (feeds' t).Shows (g.scene d.ra frequency t) s) (times : List K)
    (hsorted : times.IsChain (· ≤ ·)) (rounds : List (Round K σ)) (rounds' : List (Round K τ))
    (hrounds : rounds.map Round.source = times.map some)
    (hrounds' : rounds'.map Round.source = times.map some) (n : Nat) :
    let tolerance := settings.wTolerance * speedOfLight / frequency
    let reactive := run feeds (create { settings with predict := false })
      ((rounds.take n).flatMap (Round.moments d))
    let predictive := run feeds' (create { settings with predict := true })
      ((rounds'.take n).flatMap (Round.moments d))
    predictive.epoch.plane ≤ reactive.epoch.plane ∧
      ∀ t r r', times[n]? = some t → rounds[n]? = some r → rounds'[n]? = some r' →
        let a := reactive.reply feeds d r
        let b := predictive.reply feeds' d r'
        Succeeds tolerance a.result a.corrector ∧ Succeeds tolerance b.result b.corrector ∧
          (b.corrector.epoch.plane ≠ predictive.epoch.plane →
            ∃ steps, g.Settles tolerance settings.interval settings.maxSteps steps ∧
              b.corrector.plane = g.plane (t + steps * settings.interval)) := by
  intro tolerance reactive predictive
  have htolerance : 0 < tolerance := toleranceInMetres_pos hpos (toleranceInMetres_singleton hfrequency _)
  obtain ⟨steps, hsettles⟩ := g.exists_settles tolerance settings.interval settings.maxSteps
  have haims : Aims g d frequency { settings with predict := false } tolerance 0 :=
    aims_of_reactive g d frequency rfl htolerance
  have haims' : Aims g d frequency { settings with predict := true } tolerance
      (steps * settings.interval) :=
    aims_of_predictive g d frequency rfl htolerance hinterval hsettles
  have htake : (rounds.take n).map Round.source = (times.take n).map some := by
    rw [List.map_take, hrounds, List.map_take]
  have htake' : (rounds'.take n).map Round.source = (times.take n).map some := by
    rw [List.map_take, hrounds', List.map_take]
  have hready : ∀ settings, Ready d (create settings : Corrector K K) :=
    fun settings => ⟨rfl, [], coherent_create settings⟩
  obtain ⟨hfound, htenure⟩ := run_of_aims htangent (hready { settings with predict := false }) haims
    hfrequency hfeeds htake
  obtain ⟨hfound', htenure'⟩ := run_of_aims htangent (hready { settings with predict := true }) haims'
    hfrequency hfeeds' htake'
  change reactive.tenure = _ at htenure
  change predictive.tenure = _ at htenure'
  -- Both runs refit as the sweep does, so that it is enough to race the two.
  have hfewer : predictive.tenure.epoch ≤ reactive.tenure.epoch := by
    rw [htenure, htenure']
    exact Sweep.foldl_refit_epoch_le haims'.lead_nonneg haims'.near _ (hsorted.take n)
  refine ⟨hfewer, ?_⟩
  intro t r r' ht hr hr' a b
  have hsource : r.source = some t := eq_of_map_eq hrounds hr ht
  have hsource' : r'.source = some t := eq_of_map_eq hrounds' hr' ht
  have hsettings : reactive.settings = { settings with predict := false } := run_settings ..
  have hsettings' : predictive.settings = { settings with predict := true } := run_settings ..
  obtain ⟨hsucceeds, -⟩ := reply_of_aims hfound (by rwa [hsettings]) hfrequency hfeeds hsource
  obtain ⟨hsucceeds', hafter⟩ :=
    reply_of_aims hfound' (by rwa [hsettings']) hfrequency hfeeds' hsource'
  rw [hsettings] at hsucceeds
  rw [hsettings'] at hsucceeds' hafter
  refine ⟨hsucceeds, hsucceeds', fun htakes => ⟨steps, hsettles, ?_⟩⟩
  change b.corrector.tenure = g.refit tolerance _ t predictive.tenure at hafter
  change b.corrector.tenure.epoch ≠ predictive.tenure.epoch at htakes
  change b.corrector.tenure.plane = _
  rw [hafter] at htakes ⊢
  exact Sweep.plane_of_refit htakes

end Rounds

def leaning : Sweep ℚ where
  uv := [(100, 0), (0, 100)]
  start := ⟨0, 0⟩
  rate := ⟨1 / 1000, 0⟩
  enough := by decide
  regular := by decide +kernel

def patient : Settings ℚ := ⟨1, true, false, 3, 10, 1 / 1000000, false⟩

def leaningFeeds (t : ℚ) : Feed Unit ℚ := (leaning.scene 0 299792458 t).feed

def leaningRounds : List (Round ℚ Unit) := [⟨some 10, (), 0⟩, ⟨some 20, (), 1⟩, ⟨some 29, (), 2⟩]

theorem sweep_refits_leaning :
    let reactive : Corrector ℚ ℚ := run leaningFeeds (create { patient with predict := false })
      ((leaningRounds.take 2).flatMap (Round.moments ⟨0, 0⟩))
    let predictive : Corrector ℚ ℚ := run leaningFeeds (create { patient with predict := true })
      ((leaningRounds.take 2).flatMap (Round.moments ⟨0, 0⟩))
    reactive.epoch.plane = 2 ∧ predictive.epoch.plane = 1 ∧
      predictive.epoch.plane ≤ reactive.epoch.plane ∧ predictive.plane = leaning.plane (10 + 3 * 3) ∧
      Succeeds 1 (predictive.reply leaningFeeds ⟨0, 0⟩ ⟨some 29, (), 2⟩).result
        (predictive.reply leaningFeeds ⟨0, 0⟩ ⟨some 29, (), 2⟩).corrector := by
  intro reactive predictive
  have hfeeds : ∀ (t : ℚ) (s : Unit), (leaningFeeds t).Shows (leaning.scene 0 299792458 t) s :=
    fun t s => Feed.shows_feed _ s
  have hsorted : ([10, 20, 29] : List ℚ).IsChain (· ≤ ·) := by
    simp only [List.isChain_cons_cons, List.IsChain.singleton]
    norm_num
  obtain ⟨hfewer, hreplies⟩ := sweep_refits leaning patient (by decide +kernel) (by decide +kernel)
    (by decide +kernel) (by decide +kernel : (0 : ℚ) < 299792458) ⟨0, 0⟩ leaningFeeds leaningFeeds
    hfeeds hfeeds [10, 20, 29] hsorted leaningRounds leaningRounds rfl rfl 2
  obtain ⟨-, hsucceeds, -⟩ := hreplies 29 _ _ rfl rfl rfl
  have htolerance : patient.wTolerance * speedOfLight / 299792458 = 1 := by decide +kernel
  rw [htolerance] at hsucceeds
  exact ⟨by decide +kernel, by decide +kernel, hfewer, by decide +kernel, hsucceeds⟩

end Corrector

end Coplanar
