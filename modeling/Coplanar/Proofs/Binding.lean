import Coplanar.Proofs.Failing
import Coplanar.Proofs.Recovery
import Coplanar.Proofs.Repetition
import Coplanar.Proofs.Sphere
import Coplanar.Proofs.Telling

/-! The tangent point that a corrector is bound to.  A request is compared with the point
bound last, and every chunk that is fetched for a request binds its point anew, so that
the points served one after the other form a chain in which only neighbours are near each
other. -/
namespace Coplanar

open Direction

namespace Corrector

variable {ι σ α : Type} [Trig α]

def Serves (c : Corrector ι α) (feeds : ι → Feed σ α) (m : Moment ι σ α) (p : Direction α) : Prop :=
  ∃ identity served, m.call = .correct (.ok p) identity ∧
    (c.correctedRows feeds (.ok p) identity m.sources).result = .ok served

def binding? (c : Corrector ι α) (feeds : ι → Feed σ α) (m : Moment ι σ α) : Option (Direction α) :=
  match m.call, c.current?, c.source with
  | .correct (.ok d) _, none, some source =>
    match (feeds source).rows d m.sources with
    | (.error _, _) => none
    | (.ok _, next) =>
      match ((feeds source).channels next).bind (toleranceInMetres c.settings.wTolerance) with
      | .error _ => none
      | .ok _ => if c.accepts d then some d else none
  | _, _, _ => none

def bindings (c : Corrector ι α) (feeds : ι → Feed σ α) : List (Moment ι σ α) → List (Direction α)
  | [] => []
  | m :: rest => (c.binding? feeds m).toList ++ (c.next feeds m).bindings feeds rest

/-- In some run `p0` is the first point that is served, then the points `bound` are bound,
and then `p` is served. -/
def ServesLater (settings : Settings α) (p0 : Direction α) (bound : List (Direction α))
    (p : Direction α) : Prop :=
  ∃ (ι σ : Type) (feeds : ι → Feed σ α) (before : List (Moment ι σ α)) (first : Moment ι σ α)
    (between : List (Moment ι σ α)) (later : Moment ι σ α),
    (create settings).Throughout feeds (fun c m => ∀ q, ¬ c.Serves feeds m q) before ∧
    (run feeds (create settings) before).Serves feeds first p0 ∧
    (run feeds (create settings) (before ++ first :: between)).Serves feeds later p ∧
    (run feeds (create settings) (before ++ [first])).bindings feeds between = bound

variable {c : Corrector ι α} {feeds : ι → Feed σ α} {m : Moment ι σ α} {d p q : Direction α}

theorem binding?_of_fetches {identity : Nat} {source : ι} {rows : Chunk α} {tolerance : α}
    {next : σ}
    (hcall : m.call = .correct (.ok d) identity)
    (h : c.Fetches feeds d m.sources source rows tolerance next) : c.binding? feeds m = some d := by
  simp [binding?, hcall, h.outdated, h.source_eq, h.rows_eq, h.tolerance_eq, h.accepted]

theorem fetches_of_binding? (h : c.binding? feeds m = some d) :
    ∃ identity source rows tolerance next, m.call = .correct (.ok d) identity ∧
      c.Fetches feeds d m.sources source rows tolerance next := by
  unfold binding? at h
  split at h
  · rename_i hcall houtdated hsource
    split at h
    · cases h
    · rename_i hrows
      split at h
      · cases h
      · rename_i htolerance
        split at h
        · rename_i haccepts
          cases h
          exact ⟨_, _, _, _, _, hcall, haccepts, houtdated, hsource, hrows, htolerance⟩
        · cases h
  · cases h

theorem accepts_of_binding? (h : c.binding? feeds m = some d) : c.accepts d = true := by
  obtain ⟨_, _, _, _, _, _, hfetches⟩ := fetches_of_binding? h
  exact hfetches.accepted

theorem center_of_fetches {source : ι} {rows : Chunk α} {tolerance : α} {s next : σ}
    (h : c.Fetches feeds d s source rows tolerance next) (identity : Nat) :
    (c.correctedRows feeds (.ok d) identity s).corrector.center = some d := by
  rw [correctedRows_of_fetches h]
  cases hjudge : (c.judge (feeds source) d rows tolerance next).result with
  | error fault => rw [(process_of_error hjudge identity).2]
  | ok v =>
    rw [(process_of_ok hjudge identity).2]
    obtain hsame | hserved :=
      (c.adopt d tolerance v).deliver_corrector_cases rows tolerance identity
    · rw [hsame, adopt_center]
    · rw [hserved, adopt_center]

theorem next_center (c : Corrector ι α) (feeds : ι → Feed σ α) (m : Moment ι σ α) :
    (c.next feeds m).center = (c.binding? feeds m).or c.center := by
  obtain ⟨call, s⟩ := m
  cases call with
  | correct tangentPoint identity =>
    cases hbinding : c.binding? feeds ⟨.correct tangentPoint identity, s⟩ with
    | some d =>
      obtain ⟨_, source, rows, tolerance, next, hcall, hfetches⟩ := fetches_of_binding? hbinding
      cases hcall
      exact center_of_fetches hfetches identity
    | none =>
      change (c.correctedRows feeds tangentPoint identity s).corrector.center = c.center
      obtain ⟨_, -, hsame⟩ | ⟨_, -, -, hsame⟩ | ⟨d, source, rows, tolerance, next, rfl, hfetches⟩ :=
        c.correctedRows_cases feeds tangentPoint identity s
      · rw [hsame]
      · rw [hsame]
      · rw [binding?_of_fetches rfl hfetches] at hbinding
        cases hbinding
  | _ => rfl

theorem Serves.accepts (h : c.Serves feeds m p) : c.accepts p = true := by
  obtain ⟨identity, served, -, hserved⟩ := h
  cases haccepts : c.accepts p with
  | true => rfl
  | false => simp [correctedRows, rowsToward, haccepts] at hserved

theorem Serves.binding?_eq (h : c.Serves feeds m p) (houtdated : c.current? = none) :
    c.binding? feeds m = some p := by
  obtain ⟨identity, served, hcall, hserved⟩ := h
  obtain ⟨_, hfails, -⟩ | ⟨_, hcurrent, -⟩ | ⟨d, source, rows, tolerance, next, hpoint, hfetches⟩ :=
    c.correctedRows_cases feeds (.ok p) identity m.sources
  · rw [hserved] at hfails
    cases hfails
  · rw [houtdated] at hcurrent
    cases hcurrent
  · cases hpoint
    exact binding?_of_fetches hcall hfetches

theorem next_cache_of_not_serves (h : ∀ q, ¬ c.Serves feeds m q) :
    (c.next feeds m).cache = none ↔ c.cache = none := by
  obtain ⟨call, s⟩ := m
  cases call with
  | correct tangentPoint identity =>
    cases hresult : (c.correctedRows feeds tangentPoint identity s).result with
    | error fault => exact Eq.congr_left (spared_of_failing hresult).cache
    | ok served =>
      cases tangentPoint with
      | error fault => cases hresult
      | ok d => exact absurd ⟨identity, served, rfl, hresult⟩ (h d)
  | duplicate identity => simp [next, duplicate]
  | _ => exact Iff.rfl

theorem run_cache_of_not_serves {moments : List (Moment ι σ α)}
    (h : c.Throughout feeds (fun c m => ∀ q, ¬ c.Serves feeds m q) moments) :
    (c.run feeds moments).cache = none ↔ c.cache = none := by
  induction moments generalizing c with
  | nil => rfl
  | cons m rest ih => rw [run_cons, ih h.2, next_cache_of_not_serves h.1]

theorem accepts_iff_linked (h : c.center = some q) :
    c.accepts p = true ↔ Linked c.settings.tangentTolerance q p := by
  rw [accepts, h]
  rfl

theorem isChain_of_serves {moments : List (Moment ι σ α)} (hcenter : c.center = some q)
    (hserves : (c.run feeds moments).Serves feeds m p) :
    (q :: (c.bindings feeds moments ++ [p])).IsChain (Linked c.settings.tangentTolerance) := by
  induction moments generalizing c q with
  | nil => simpa [bindings] using (accepts_iff_linked hcenter).mp hserves.accepts
  | cons n rest ih =>
    have hnext := c.next_center feeds n
    cases hbinding : c.binding? feeds n with
    | none =>
      rw [hbinding] at hnext
      simpa [bindings, hbinding] using ih (hnext.trans hcenter) hserves
    | some d =>
      rw [hbinding] at hnext
      have hrest := ih hnext hserves
      rw [next_settings] at hrest
      simpa [bindings, hbinding] using
        ⟨(accepts_iff_linked hcenter).mp (accepts_of_binding? hbinding), hrest⟩

theorem ServesLater.isChain {settings : Settings α} {p0 : Direction α} {bound : List (Direction α)}
    (h : ServesLater settings p0 bound p) :
    (p0 :: (bound ++ [p])).IsChain (Linked settings.tangentTolerance) := by
  obtain ⟨ι, σ, feeds, before, first, between, later, hbefore, hfirst, hlater, rfl⟩ := h
  have hcache : (run feeds (create settings) before).cache = none :=
    (run_cache_of_not_serves hbefore).mpr rfl
  have hbinding := hfirst.binding?_eq (by simp [current?, hcache])
  have hcenter : (run feeds (create settings) (before ++ [first])).center = some p0 := by
    rw [run_append, run_cons, run_nil, next_center, hbinding]
    rfl
  have hsettings : (run feeds (create settings) (before ++ [first])).settings = settings :=
    run_settings ..
  rw [List.append_cons, run_append] at hlater
  have hchain := isChain_of_serves hcenter hlater
  rwa [hsettings] at hchain

section Tour

variable {K : Type} [Field K] [LinearOrder K] [Circular K]

def flat : Chunk K := [⟨100, 0, 0⟩, ⟨0, 100, 0⟩]

def flatFeeds (_ : Unit) : Feed Unit K := .ofChunks (fun _ => flat) [1]

def request (d : Direction K) : Moment Unit Unit K := ⟨.correct (.ok d) 0, ()⟩

def tour (points : List (Direction K)) : List (Moment Unit Unit K) :=
  points.flatMap fun d => [⟨.notify, ()⟩, request d]

structure Poised (settings : Settings K) (q : Direction K) (c : Corrector Unit K) : Prop where
  settings : c.settings = settings
  plane : c.plane = .level
  source : c.source = some ()
  center : c.center = some q
  current : ∃ served, c.current? = some served

variable [IsStrictOrderedRing K] {settings : Settings K} {c : Corrector Unit K}
  {p q d : Direction K}

theorem maxDeviation_flat : (Plane.level : Plane K).maxDeviation flat = 0 := by
  apply Plane.maxDeviation_of_contains
  simp [Plane.Contains, flat, Plane.level, Plane.height]

theorem judge_flat (hplane : c.plane = .level) (d : Direction K) {tolerance : K}
    (hpos : 0 < tolerance) :
    (c.judge (flatFeeds ()) d flat tolerance ()).result = .ok (.keep .level flat) := by
  have hless : Scalar.less ((Plane.level : Plane K).maxDeviation flat) tolerance = true := by
    rwa [maxDeviation_flat, less_iff]
  cases hpredict : c.settings.predict with
  | true => simp [judge_of_predictive hpredict, predictive, hplane, Verdict.keep, hless]
  | false => simp [judge_of_reactive hpredict, reactive, hplane, hless]

theorem poised_of_request (hsettings : c.settings = settings) (hpos : 0 < settings.wTolerance)
    (hplane : c.plane = .level) (hsource : c.source = some ()) (houtdated : c.current? = none)
    (haccepts : c.accepts d = true) :
    c.binding? flatFeeds (request d) = some d ∧ c.Serves flatFeeds (request d) d ∧
      Poised settings d (c.next flatFeeds (request d)) := by
  obtain ⟨tolerance, htolerance⟩ : ∃ tolerance : K,
      toleranceInMetres settings.wTolerance [1] = .ok tolerance := by
    simp [toleranceInMetres, highest?]
  have hfetches : c.Fetches flatFeeds d () () flat tolerance () :=
    ⟨haccepts, houtdated, hsource, rfl, by rw [hsettings]; exact htolerance⟩
  have hless := toleranceInMetres_pos hpos htolerance
  have hjudge := judge_flat hplane d hless
  have hkept : (c.adopt d tolerance (.keep .level flat)).plane = .level := by
    simp [newPlane?, Verdict.keep, hplane]
  have hpasses : (c.adopt d tolerance (.keep .level flat)).passes flat tolerance = true := by
    rw [passes, hkept, maxDeviation_flat]
    simp [hless]
  have hreply := correctedRows_of_fetches hfetches 0
  obtain ⟨hresult, hcorrector⟩ := process_of_ok hjudge 0
  rw [← hreply, deliver_of_passes hpasses] at hresult hcorrector
  refine ⟨binding?_of_fetches rfl hfetches, ⟨0, _, rfl, hresult⟩, ?_⟩
  change Poised settings d (c.correctedRows flatFeeds (.ok d) 0 ()).corrector
  rw [hcorrector]
  exact ⟨by simpa using hsettings, hkept, by simpa using hsource, adopt_center .., _,
    (current?_eq_some_iff ..).mpr ⟨rfl, rfl⟩⟩

theorem Poised.visit (h : Poised settings q c) (hpos : 0 < settings.wTolerance)
    (hlinked : Linked settings.tangentTolerance q d) :
    c.notify.binding? flatFeeds (request d) = some d ∧
      Poised settings d (c.notify.next flatFeeds (request d)) := by
  have houtdated : c.notify.current? = none := by
    obtain ⟨served, hserved⟩ := h.current
    obtain ⟨hcache, hepoch⟩ := (current?_eq_some_iff ..).mp hserved
    simp [current?, notify, hcache, hepoch, Option.filter]
  have haccepts : c.notify.accepts d = true := by
    rw [accepts_iff_linked (c := c.notify) h.center]
    rwa [← h.settings] at hlinked
  obtain ⟨hbinding, -, hpoised⟩ :=
    poised_of_request (c := c.notify) h.settings hpos h.plane h.source houtdated haccepts
  exact ⟨hbinding, hpoised⟩

theorem Poised.run_tour (h : Poised settings q c) (hpos : 0 < settings.wTolerance)
    {points : List (Direction K)}
    (hchain : (q :: (points ++ [p])).IsChain (Linked settings.tangentTolerance)) :
    c.bindings flatFeeds (tour points) = points ∧
      (c.run flatFeeds (tour points)).Serves flatFeeds (request p) p := by
  induction points generalizing c q with
  | nil =>
    rw [List.nil_append, List.isChain_pair] at hchain
    obtain ⟨served, hserved⟩ := h.current
    have haccepts : c.accepts p = true := by
      rwa [accepts_iff_linked h.center, h.settings]
    refine ⟨rfl, 0, served, rfl, ?_⟩
    rw [tour, List.flatMap_nil, run_nil, correctedRows_of_current haccepts hserved]
  | cons d points ih =>
    rw [List.cons_append, List.isChain_cons_cons] at hchain
    obtain ⟨hbinding, hpoised⟩ := h.visit hpos hchain.1
    obtain ⟨hbindings, hserves⟩ := ih hpoised hchain.2
    refine ⟨?_, hserves⟩
    change [] ++ ((c.notify.binding? flatFeeds (request d)).toList ++
      (c.notify.next flatFeeds (request d)).bindings flatFeeds (tour points)) = d :: points
    rw [hbinding, hbindings]
    rfl

theorem servesLater_of_isChain (hpos : 0 < settings.wTolerance) {p0 : Direction K}
    {bound : List (Direction K)}
    (hchain : (p0 :: (bound ++ [p])).IsChain (Linked settings.tangentTolerance)) :
    ServesLater settings p0 bound p := by
  have hfirst := poised_of_request (c := (create settings).associate (some ())) (d := p0)
    rfl hpos rfl rfl rfl rfl
  obtain ⟨-, hserves, hpoised⟩ := hfirst
  obtain ⟨hbindings, hlater⟩ := hpoised.run_tour hpos hchain
  refine ⟨Unit, Unit, flatFeeds, [⟨.associate (some ()), ()⟩], request p0, tour bound, request p,
    ⟨?_, trivial⟩, hserves, hlater, hbindings⟩
  rintro q ⟨identity, served, hcall, -⟩
  cases hcall

end Tour

/-- What can be served after `p0` are the points linked to it by others that are bound in
between.  Each recomputation leads up to the tolerance further away, and without one the
point is near `p0`.  Unless the tolerance is zero, recomputations lead from any point to
any other, as soon as there are enough of them; so only a tolerance of zero keeps what is
served near the point served first. -/
theorem served_later_iff (settings : Settings ℝ) (hrange : settings.InRange) :
    (∀ p0 bound p, ServesLater settings p0 bound p ↔
        (p0 :: (bound ++ [p])).IsChain (Linked settings.tangentTolerance)) ∧
      (∀ p0 bound p, ServesLater settings p0 bound p →
        p.separation p0 < (bound.length + 1) * settings.tangentTolerance) ∧
      (∀ (n : ℕ) (p0 p : Direction ℝ),
        |p.ra - p0.ra| + |p.dec - p0.dec| < (n + 1) * settings.tangentTolerance →
        ∃ bound, bound.length = n ∧ ServesLater settings p0 bound p) ∧
      (0 < settings.tangentTolerance → ∀ p0 p, ∃ bound, ServesLater settings p0 bound p) ∧
      ((∀ p0 bound p, ServesLater settings p0 bound p →
        p.isNear p0 settings.tangentTolerance = true) ↔ settings.tangentTolerance = 0) := by
  have hpos : 0 < settings.wTolerance := by simpa using hrange.wTolerance_pos
  have hchain : ∀ p0 bound p, ServesLater settings p0 bound p ↔
      (p0 :: (bound ++ [p])).IsChain (Linked settings.tangentTolerance) :=
    fun p0 bound p => ⟨ServesLater.isChain, servesLater_of_isChain hpos⟩
  have hreach : ∀ (n : ℕ) (p0 p : Direction ℝ),
      |p.ra - p0.ra| + |p.dec - p0.dec| < (n + 1) * settings.tangentTolerance →
      ∃ bound, bound.length = n ∧ ServesLater settings p0 bound p := by
    intro n p0 p hway
    obtain ⟨bound, hlength, hbound⟩ := exists_isChain n hway
    exact ⟨bound, hlength, servesLater_of_isChain hpos hbound⟩
  have hanywhere : 0 < settings.tangentTolerance →
      ∀ p0 p, ∃ bound, ServesLater settings p0 bound p := by
    intro htolerance p0 p
    obtain ⟨n, hn⟩ :=
      exists_nat_gt ((|p.ra - p0.ra| + |p.dec - p0.dec|) / settings.tangentTolerance)
    rw [div_lt_iff₀ htolerance] at hn
    obtain ⟨bound, -, hbound⟩ := hreach n p0 p (hn.trans (by linarith))
    exact ⟨bound, hbound⟩
  refine ⟨hchain, ?_, hreach, hanywhere, ?_, ?_⟩
  · intro p0 bound p hserves
    exact separation_lt_of_isChain hserves.isChain
  · -- Half a turn away from a point nothing is near it.
    intro hkeeps
    by_contra hne
    have htolerance : 0 < settings.tangentTolerance := by
      have hnonneg : 0 ≤ settings.tangentTolerance := by simpa using hrange.tangentTolerance_nonneg
      exact lt_of_le_of_ne hnonneg (Ne.symm hne)
    have hpi : settings.tangentTolerance ≤ Real.pi := by
      have hle := hrange.tangentTolerance_le_pi
      rwa [less_eq_false_iff] at hle
    obtain ⟨bound, hbound⟩ := hanywhere htolerance ⟨0, 0⟩ ⟨Real.pi, 0⟩
    have hnear := hkeeps _ _ _ hbound
    rw [isNear, less_iff, separation_on_equator, sub_zero,
      Real.arccos_cos Real.pi_nonneg le_rfl] at hnear
    exact absurd hnear (not_lt.mpr hpi)
  · intro hzero p0 bound p hserves
    have hfar := separation_lt_of_isChain hserves.isChain
    rw [hzero, mul_zero] at hfar
    exact absurd hfar (not_lt.mpr (separation_nonneg p p0))

noncomputable def usual : Settings ℝ := ⟨1, true, false, 60, 1440, 1 / 1000000, false⟩

theorem usual_inRange : usual.InRange where
  wTolerance_pos := by norm_num [usual]
  interval_pos := by norm_num [usual]
  maxSteps_pos := by norm_num [usual]
  tangentTolerance_nonneg := by norm_num [usual]
  tangentTolerance_le_pi := by
    rw [less_eq_false_iff]
    change (1 / 1000000 : ℝ) ≤ Real.pi
    linarith [Real.two_le_pi]

theorem served_later_iff_pole :
    usual.InRange ∧ ∃ bound, ServesLater usual ⟨0, 0⟩ bound ⟨0, Real.pi / 2⟩ := by
  obtain ⟨-, -, -, hanywhere, -⟩ := served_later_iff usual usual_inRange
  exact ⟨usual_inRange, hanywhere (by norm_num [usual]) _ _⟩

/-- Two steps of nine tenths of a microradian, with one recomputation in between, lead to
a point that is not near the first one. -/
theorem serves_beyond_tolerance :
    usual.InRange ∧ ServesLater usual ⟨0, 0⟩ [⟨9 / 10000000, 0⟩] ⟨18 / 10000000, 0⟩ ∧
      (⟨18 / 10000000, 0⟩ : Direction ℝ).isNear ⟨0, 0⟩ usual.tangentTolerance = false := by
  have hequator : ∀ x y : ℝ, |x - y| ≤ 1 → separation ⟨x, 0⟩ ⟨y, 0⟩ = |x - y| := by
    intro x y h
    exact separation_on_equator_of_le (h.trans (by linarith [Real.two_le_pi]))
  refine ⟨usual_inRange, servesLater_of_isChain (by norm_num [usual]) ?_, ?_⟩
  · rw [List.singleton_append, List.isChain_cons_cons, List.isChain_pair, linked_iff, linked_iff,
      hequator _ _ (by norm_num [abs_le]), hequator _ _ (by norm_num [abs_le])]
    norm_num [usual, abs_lt]
  · rw [isNear, less_eq_false_iff, hequator _ _ (by norm_num [abs_le])]
    norm_num [usual, le_abs]

end Corrector

end Coplanar
