import Mathlib.Order.Bounds.Basic
import Mathlib.Tactic.Ring
import Coplanar.Proofs.Exact

/-! What the search ahead comes to, told by the rows at each step ahead and not by
the order in which they are looked at.  The way up ends at the first step at
which the plane of now is out of tolerance, the way back at the last step before
it that allows no fit or whose plane is good now. -/
namespace Coplanar

/-- The rows depend on the tangent point alone, whatever was asked before. -/
def Feed.Serves {σ α : Type} (feed : Feed σ α) (chunk : Direction α → Chunk α) : Prop :=
  ∀ d s, (feed.rows d s).1 = .ok (chunk d)

def Feed.ofChunks {σ α : Type} (chunk : Direction α → Chunk α) (channels : List α) : Feed σ α where
  rows d s := (.ok (chunk d), s)
  channels _ := .ok channels

theorem Feed.serves_ofChunks {σ α : Type} (chunk : Direction α → Chunk α) (channels : List α) :
    (Feed.ofChunks chunk channels : Feed σ α).Serves chunk := fun _ _ => rfl

def Track.Shows {σ α : Type} (track : Track σ α) (f : Nat → Chunk α) : Prop :=
  ∀ n s, (track (n + 1) s).1 = .ok (f (n + 1))

theorem Track.Shows.answer {σ α : Type} {track : Track σ α} {f : Nat → Chunk α}
    (htrack : track.Shows f) (n : Nat) (s : σ) :
    ∃ next, track (n + 1) s = (.ok (f (n + 1)), next) :=
  ⟨(track (n + 1) s).2, Prod.ext (htrack n s) rfl⟩

theorem rowsAt_answer {σ α : Type} {track : Track σ α} {f : Nat → Chunk α}
    (htrack : track.Shows f) (n : Nat) (s : σ) :
    ∃ next, rowsAt track (f 0) n s = (.ok (f n), next) := by
  cases n with
  | zero => exact ⟨s, rfl⟩
  | succ n => exact htrack.answer n s

def Outcome.warnings {σ α : Type} (outcome : Outcome σ α) : Nat :=
  outcome.notes.countP Note.isWarning

theorem countP_climbNotes {α : Type} (readings : List α) :
    (climbNotes readings).countP Note.isWarning = 0 := by
  simp [climbNotes, List.countP_eq_zero, Note.isWarning]

section Specification

variable {K : Type} [Field K] [LinearOrder K] [Circular K]

def ahead (chunk : Direction K → Chunk K) (center : Direction K) (interval : K) (now : Chunk K) :
    Nat → Chunk K
  | 0 => now
  | n + 1 => chunk { center with ra := center.ra - (n + 1 : Nat) * earthRotationRate * interval }

theorem shows_ahead {σ : Type} {feed : Feed σ K} {chunk : Direction K → Chunk K}
    (hfeed : feed.Serves chunk) (center : Direction K) (interval : K) (now : Chunk K) :
    (Track.ofFeed feed center interval).Shows (ahead chunk center interval now) := by
  intro n s
  have hra : center.ra + (n + 1 : Nat) * stepAngle interval =
      center.ra - (n + 1 : Nat) * earthRotationRate * interval := by
    simp only [stepAngle]
    ring
  unfold Track.ofFeed
  rw [hfeed, Direction.shift, natural_eq, hra]
  rfl

variable (f : Nat → Chunk K) (tolerance : K)

/-- `steps` is the first step ahead at which `plane` is out of tolerance. -/
def Leaves (plane : Plane K) (steps : Nat) : Prop :=
  IsLeast {n | 1 ≤ n ∧ tolerance ≤ plane.maxDeviation (f n)} steps

/-- No plane fits there, or the one that fits is good now. -/
def Halts (steps : Nat) : Prop :=
  (f steps).plane? = none ∨
    ∃ plane, (f steps).plane? = some plane ∧ plane.maxDeviation (f 0) < tolerance

def Returns (top steps : Nat) : Prop := IsGreatest {n | n < top ∧ Halts f tolerance n} steps

/-- The verdict that rows ahead call for, and the number of warnings.  Those of
now are `f 0`. -/
inductive Foreseen (current : Plane K) (limit : Nat) : Verdict K → Nat → Prop where
  | near (h : current.maxDeviation (f 0) < tolerance) :
    Foreseen current limit (.keep current (f 0)) 0
  | unfit (h : (f 0).plane? = none) : Foreseen current limit (.keep current (f 0)) 0
  | poor (plane : Plane K) (hcurrent : tolerance ≤ current.maxDeviation (f 0))
    (hfit : (f 0).plane? = some plane) (hpoor : tolerance < plane.maxDeviation (f 0)) :
    Foreseen current limit ⟨plane.maxDeviation (f 0), none⟩ 0
  | edge (plane : Plane K) (hcurrent : tolerance ≤ current.maxDeviation (f 0))
    (hfit : (f 0).plane? = some plane) (hedge : plane.maxDeviation (f 0) = tolerance) :
    Foreseen current limit ⟨tolerance, some plane⟩ 0
  /-- The plane of now lasts as far as the search may go. -/
  | lasting (plane : Plane K) (hcurrent : tolerance ≤ current.maxDeviation (f 0))
    (hfit : (f 0).plane? = some plane) (hgood : plane.maxDeviation (f 0) < tolerance)
    (hlasts : ¬ ∃ top ≤ limit, Leaves f tolerance plane top) :
    Foreseen current limit (.replace plane (f 0)) 1
  | settled (plane : Plane K) (top steps : Nat) (best : Plane K)
    (hcurrent : tolerance ≤ current.maxDeviation (f 0)) (hfit : (f 0).plane? = some plane)
    (hgood : plane.maxDeviation (f 0) < tolerance) (hleaves : Leaves f tolerance plane top)
    (hlimit : top ≤ limit) (hreturns : Returns f tolerance top steps)
    (hbest : (f steps).plane? = some best) :
    Foreseen current limit (.replace best (f 0)) 0
  /-- The way back ends without a fit: the last plane before that is the best. -/
  | cutShort (plane : Plane K) (top steps : Nat) (best : Plane K)
    (hcurrent : tolerance ≤ current.maxDeviation (f 0)) (hfit : (f 0).plane? = some plane)
    (hgood : plane.maxDeviation (f 0) < tolerance) (hleaves : Leaves f tolerance plane top)
    (hlimit : top ≤ limit) (hreturns : Returns f tolerance top steps)
    (hnone : (f steps).plane? = none) (hbefore : steps + 1 < top)
    (hbest : (f (steps + 1)).plane? = some best) :
    Foreseen current limit (.replace best (f 0)) 0
  /-- The way back ends without a fit at its first step. -/
  | lost (plane : Plane K) (top steps : Nat)
    (hcurrent : tolerance ≤ current.maxDeviation (f 0)) (hfit : (f 0).plane? = some plane)
    (hgood : plane.maxDeviation (f 0) < tolerance) (hleaves : Leaves f tolerance plane top)
    (hlimit : top ≤ limit) (hreturns : Returns f tolerance top steps)
    (hnone : (f steps).plane? = none) (hfirst : steps + 1 = top) :
    Foreseen current limit (.keep current (f 0)) 0

end Specification

section Search

variable {σ K : Type} [Field K] [LinearOrder K] [Circular K]
  {track : Track σ K} {f : Nat → Chunk K} (tolerance : K) (plane : Plane K)

theorem climb_of_isLeast (htrack : track.Shows f) {limit n top : Nat}
    (htop : IsLeast {k | n < k ∧ tolerance ≤ plane.maxDeviation (f k)} top)
    (hlimit : top ≤ n + limit) (s : σ) :
    (climb track tolerance plane limit n s).ending = .left ∧
      n + (climb track tolerance plane limit n s).readings.length = top := by
  induction limit generalizing n s with
  | zero =>
    have hn : n < top := htop.1.1
    omega
  | succ limit ih =>
    obtain ⟨next, hstep⟩ := htrack.answer n s
    by_cases hless : plane.maxDeviation (f (n + 1)) < tolerance
    · have hnext : IsLeast {k | n + 1 < k ∧ tolerance ≤ plane.maxDeviation (f k)} top := by
        refine ⟨⟨?_, htop.1.2⟩, fun k hk => htop.2 ⟨by have := hk.1; omega, hk.2⟩⟩
        have hne : top ≠ n + 1 := by
          rintro rfl
          exact absurd htop.1.2 (not_le.mpr hless)
        have hn : n < top := htop.1.1
        omega
      obtain ⟨hend, hlength⟩ := ih hnext (by omega) next
      simp only [climb, hstep, less_iff, hless, if_true, List.length_cons]
      exact ⟨hend, by omega⟩
    · have hfirst : top = n + 1 := by
        have hle : top ≤ n + 1 := htop.2 ⟨by omega, not_lt.mp hless⟩
        have hn : n < top := htop.1.1
        omega
      simp [climb, hstep, hless, hfirst]

theorem climb_of_forall (htrack : track.Shows f) {limit n : Nat}
    (hgood : ∀ k, n < k → k ≤ n + limit → plane.maxDeviation (f k) < tolerance) (s : σ) :
    (climb track tolerance plane limit n s).ending = .exhausted := by
  induction limit generalizing n s with
  | zero => rfl
  | succ limit ih =>
    obtain ⟨next, hstep⟩ := htrack.answer n s
    have hless := hgood (n + 1) (by omega) (by omega)
    simp only [climb, hstep, less_iff, hless, if_true]
    exact ih (fun k hk hlimit => hgood k (by omega) (by omega)) next

theorem descend_of_returns (htrack : track.Shows f) {top steps : Nat}
    (hreturns : Returns f tolerance top steps) (best : Option (Plane K)) (s : σ) :
    (descend track (f 0) tolerance top best s).ending =
      .stopped steps ((f steps).plane?.or
        (if steps + 1 < top then (f (steps + 1)).plane? else best)) := by
  induction top generalizing best s with
  | zero => exact absurd hreturns.1.1 (Nat.not_lt_zero steps)
  | succ top ih =>
    obtain ⟨next, hstep⟩ := rowsAt_answer htrack top s
    by_cases hhalts : Halts f tolerance top
    · -- The way back ends at once.
      have hsteps : steps = top := by
        have hle : top ≤ steps := hreturns.2 ⟨by omega, hhalts⟩
        have hlt : steps < top + 1 := hreturns.1.1
        omega
      subst hsteps
      simp only [descend, hstep]
      by_cases hfew : (f steps).length < minFitRows
      · simp [hfew, plane?_of_few hfew]
      · obtain ⟨plane, hfit⟩ := fit_of_rows (f steps) (by omega)
        cases plane with
        | none => simp [hfew, hfit, plane?_of_fit hfit]
        | some plane =>
          have hgood : plane.maxDeviation (f 0) < tolerance := by
            obtain hnone | ⟨q, hq, hgood⟩ := hhalts
            · simp [plane?_of_fit hfit] at hnone
            · rw [plane?_of_fit hfit] at hq
              cases hq
              exact hgood
          simp [hfew, hfit, plane?_of_fit hfit, hgood]
    · have hnext : Returns f tolerance top steps := by
        refine ⟨⟨?_, hreturns.1.2⟩, fun k hk => hreturns.2 ⟨by have := hk.1; omega, hk.2⟩⟩
        have hne : steps ≠ top := by
          rintro rfl
          exact hhalts hreturns.1.2
        have hlt : steps < top + 1 := hreturns.1.1
        omega
      obtain ⟨plane, hplane⟩ : ∃ plane, (f top).plane? = some plane := by
        by_contra hnone
        exact hhalts (.inl (Option.eq_none_iff_forall_ne_some.mpr fun p hp => hnone ⟨p, hp⟩))
      have hfew := not_few_of_plane? hplane
      have hbad : ¬ plane.maxDeviation (f 0) < tolerance := fun h => hhalts (.inr ⟨plane, hplane, h⟩)
      have hfit := (plane?_eq_some_iff _ _).mp hplane
      simp only [descend, hstep, if_neg hfew, hfit, less_iff, if_neg hbad]
      rw [ih hnext (some plane) next]
      by_cases hbefore : steps + 1 < top
      · simp [hbefore, Nat.lt_succ_of_lt hbefore]
      · -- The plane kept is the one just above.
        have htop : steps + 1 = top := by
          have hlt : steps < top := hnext.1.1
          omega
        simp [htop, hplane]

theorem search_of_returns (htrack : track.Shows f) {limit top steps : Nat} (current : Plane K)
    (hleaves : Leaves f tolerance plane top) (hlimit : top ≤ limit)
    (hreturns : Returns f tolerance top steps) (s : σ) :
    let best := (f steps).plane?.or (if steps + 1 < top then (f (steps + 1)).plane? else none)
    let outcome := search track (f 0) tolerance current plane limit s
    outcome.result = .ok (best.elim (.keep current (f 0)) (.replace · (f 0))) ∧
      outcome.warnings = 0 := by
  have hfrom : top ≤ 0 + limit := by omega
  obtain ⟨hend, hlength⟩ := climb_of_isLeast tolerance plane htrack hleaves hfrom s
  have hdown := descend_of_returns tolerance htrack hreturns none
    (climb track tolerance plane limit 0 s).state
  rw [Nat.zero_add] at hlength
  simp only [search, Outcome.warnings, hend, hlength, hdown]
  cases (f steps).plane?.or (if steps + 1 < top then (f (steps + 1)).plane? else none) with
  | none => exact ⟨rfl, countP_climbNotes _⟩
  | some best => exact ⟨rfl, by simp [countP_climbNotes, Note.isWarning]⟩

theorem search_of_lasting (htrack : track.Shows f) {limit : Nat} (current : Plane K)
    (hlasts : ¬ ∃ top ≤ limit, Leaves f tolerance plane top) (s : σ) :
    let outcome := search track (f 0) tolerance current plane limit s
    outcome.result = .ok (.replace plane (f 0)) ∧ outcome.warnings = 1 := by
  have hgood : ∀ k, 0 < k → k ≤ 0 + limit → plane.maxDeviation (f k) < tolerance := by
    intro k hk hle
    by_contra hbad
    have hex : ∃ n, 1 ≤ n ∧ tolerance ≤ plane.maxDeviation (f n) := ⟨k, hk, not_lt.mp hbad⟩
    classical
    refine hlasts ⟨Nat.find hex, ?_, Nat.find_spec hex, fun n hn => Nat.find_min' hex hn⟩
    have hfind := Nat.find_min' hex ⟨hk, not_lt.mp hbad⟩
    omega
  have hend := climb_of_forall tolerance plane htrack hgood s
  simp [search, Outcome.warnings, hend, countP_climbNotes, Note.isWarning]

theorem predictive_eq_search {now : Chunk K} {current : Plane K} {limit : Nat}
    (hcurrent : tolerance ≤ current.maxDeviation now) (hfit : now.plane? = some plane)
    (hgood : plane.maxDeviation now < tolerance) (s : σ) :
    (predictive track now tolerance current limit s).result =
        (search track now tolerance current plane limit s).result ∧
      (predictive track now tolerance current limit s).warnings =
        (search track now tolerance current plane limit s).warnings := by
  have hfew := not_few_of_plane? hfit
  have hplane := (plane?_eq_some_iff _ _).mp hfit
  have hclear : ¬ tolerance < plane.maxDeviation now := not_lt.mpr hgood.le
  have hnear : ¬ current.maxDeviation now < tolerance := not_lt.mpr hcurrent
  simp [predictive, Verdict.keep, Verdict.replace, hnear, hfew, hplane, hclear, hgood,
    Outcome.warnings, Note.isWarning]

theorem predictive_of_foreseen (htrack : track.Shows f) {current : Plane K} {limit : Nat}
    {verdict : Verdict K} {warnings : Nat}
    (h : Foreseen f tolerance current limit verdict warnings) (s : σ) :
    (predictive track (f 0) tolerance current limit s).result = .ok verdict ∧
      (predictive track (f 0) tolerance current limit s).warnings = warnings := by
  -- Four of the cases end before the search; the others are the ways for it to end.
  cases h with
  | near h => simp [predictive, Verdict.keep, h, Outcome.warnings, Note.isWarning]
  | unfit h =>
    rcases (plane?_eq_none_iff _).mp h with hfew | hnone
    · simp [predictive, Verdict.keep, hfew, Outcome.warnings, Note.isWarning]
    · simp only [predictive, hnone]
      split <;> simp [Verdict.keep, Outcome.warnings, Note.isWarning]
  | poor plane hcurrent hfit hpoor =>
    have hfew := not_few_of_plane? hfit
    have hplane := (plane?_eq_some_iff _ _).mp hfit
    simp [predictive, Verdict.keep, Verdict.replace, not_lt.mpr hcurrent, hfew, hplane, hpoor,
      Outcome.warnings, Note.isWarning]
  | edge plane hcurrent hfit hedge =>
    have hfew := not_few_of_plane? hfit
    have hplane := (plane?_eq_some_iff _ _).mp hfit
    simp [predictive, Verdict.keep, Verdict.replace, not_lt.mpr hcurrent, hfew, hplane, hedge,
      Outcome.warnings, Note.isWarning]
  | lasting plane hcurrent hfit hgood hlasts =>
    obtain ⟨hresult, hwarnings⟩ := predictive_eq_search tolerance plane hcurrent hfit hgood s
    rw [hresult, hwarnings]
    exact search_of_lasting tolerance plane htrack current hlasts s
  | settled plane top steps best hcurrent hfit hgood hleaves hlimit hreturns hbest =>
    obtain ⟨hresult, hwarnings⟩ := predictive_eq_search tolerance plane hcurrent hfit hgood s
    rw [hresult, hwarnings]
    simpa [hbest] using search_of_returns tolerance plane htrack current hleaves hlimit hreturns s
  | cutShort plane top steps best hcurrent hfit hgood hleaves hlimit hreturns hnone hbefore hbest =>
    obtain ⟨hresult, hwarnings⟩ := predictive_eq_search tolerance plane hcurrent hfit hgood s
    rw [hresult, hwarnings]
    simpa [hnone, hbefore, hbest] using
      search_of_returns tolerance plane htrack current hleaves hlimit hreturns s
  | lost plane top steps hcurrent hfit hgood hleaves hlimit hreturns hnone hfirst =>
    obtain ⟨hresult, hwarnings⟩ := predictive_eq_search tolerance plane hcurrent hfit hgood s
    rw [hresult, hwarnings]
    simpa [hnone, hfirst] using
      search_of_returns tolerance plane htrack current hleaves hlimit hreturns s

end Search

section Totality

variable {K : Type} [Field K] [LinearOrder K] [Circular K] (f : Nat → Chunk K) (tolerance : K)

theorem exists_returns {top : Nat} (htop : 1 ≤ top) (hnow : Halts f tolerance 0) :
    ∃ steps, Returns f tolerance top steps := by
  induction top with
  | zero => omega
  | succ top ih =>
    by_cases hhalts : Halts f tolerance top
    · exact ⟨top, ⟨by omega, hhalts⟩, fun k hk => by have := hk.1; omega⟩
    · have hpos : 1 ≤ top := by
        by_contra hzero
        have htop : top = 0 := by omega
        exact hhalts (htop ▸ hnow)
      obtain ⟨steps, hsteps, hlast⟩ := ih hpos
      refine ⟨steps, ⟨by have := hsteps.1; omega, hsteps.2⟩, fun k hk => ?_⟩
      have hne : k ≠ top := by
        rintro rfl
        exact hhalts hk.2
      exact hlast ⟨by have := hk.1; omega, hk.2⟩

theorem exists_foreseen (current : Plane K) (limit : Nat) :
    ∃ verdict warnings, Foreseen f tolerance current limit verdict warnings := by
  rcases lt_or_ge (current.maxDeviation (f 0)) tolerance with hnear | hcurrent
  · exact ⟨_, _, .near hnear⟩
  cases hfit : (f 0).plane? with
  | none => exact ⟨_, _, .unfit hfit⟩
  | some plane =>
    rcases lt_trichotomy (plane.maxDeviation (f 0)) tolerance with hgood | hedge | hpoor
    · by_cases hlasts : ∃ top ≤ limit, Leaves f tolerance plane top
      · obtain ⟨top, hlimit, hleaves⟩ := hlasts
        obtain ⟨steps, hreturns⟩ :=
          exists_returns f tolerance hleaves.1.1 (.inr ⟨plane, hfit, hgood⟩)
        cases hbest : (f steps).plane? with
        | some best =>
          exact ⟨_, _, .settled plane top steps best hcurrent hfit hgood hleaves hlimit hreturns hbest⟩
        | none =>
          by_cases hfirst : steps + 1 = top
          · exact ⟨_, _, .lost plane top steps hcurrent hfit hgood hleaves hlimit hreturns hbest hfirst⟩
          · have hbefore : steps + 1 < top := by
              have hlt : steps < top := hreturns.1.1
              omega
            -- The step above the last halt is none, so a plane fits there.
            have hpassed : ¬ Halts f tolerance (steps + 1) := fun hhalts => by
              have hle : steps + 1 ≤ steps := hreturns.2 ⟨hbefore, hhalts⟩
              omega
            obtain ⟨best, hplane⟩ := Option.ne_none_iff_exists'.mp fun h => hpassed (.inl h)
            exact ⟨_, _, .cutShort plane top steps best hcurrent hfit hgood hleaves hlimit hreturns
              hbest hbefore hplane⟩
      · exact ⟨_, _, .lasting plane hcurrent hfit hgood hlasts⟩
    · exact ⟨_, _, .edge plane hcurrent hfit hedge⟩
    · exact ⟨_, _, .poor plane hcurrent hfit hpoor⟩

end Totality

/-- The policy that looks ahead always comes to a verdict, and it and the number of
its warnings are the ones that the rows ahead call for. -/
theorem predictive_foresees {σ K : Type} [Field K] [LinearOrder K] [Circular K]
    (feed : Feed σ K) (chunk : Direction K → Chunk K) (hfeed : feed.Serves chunk)
    (center : Direction K) (interval tolerance : K) (now : Chunk K) (current : Plane K)
    (limit : Nat) (s : σ) :
    let outcome := predictive (.ofFeed feed center interval) now tolerance current limit s
    ∃ verdict, outcome.result = .ok verdict ∧
      ∀ other warnings,
        Foreseen (ahead chunk center interval now) tolerance current limit other warnings ↔
          other = verdict ∧ warnings = outcome.warnings := by
  intro outcome
  have htrack := shows_ahead hfeed center interval now
  obtain ⟨verdict, warnings, hforeseen⟩ :=
    exists_foreseen (ahead chunk center interval now) tolerance current limit
  obtain ⟨hresult, hwarnings⟩ := predictive_of_foreseen tolerance htrack hforeseen s
  refine ⟨verdict, hresult, fun other count => ⟨fun h => ?_, ?_⟩⟩
  · obtain ⟨hother, hcount⟩ := predictive_of_foreseen tolerance htrack h s
    exact ⟨Except.ok.inj (hother.symm.trans hresult), hcount.symm⟩
  · rintro ⟨rfl, rfl⟩
    exact hwarnings ▸ hforeseen

def tilting (d : Direction ℚ) : Chunk ℚ := [⟨100, 0, -d.ra * 100⟩, ⟨0, 100, 0⟩]

theorem predictive_foresees_tilting :
    (Feed.ofChunks tilting [] : Feed Unit ℚ).Serves tilting ∧
      Foreseen (ahead tilting ⟨0, 0⟩ (1 / earthRotationRate) (tilting ⟨0, 0⟩)) 250 ⟨5, 0⟩ 3
        ⟨200, some ⟨2, 0⟩⟩ 0 := by
  have hfeed : (Feed.ofChunks tilting [] : Feed Unit ℚ).Serves tilting := Feed.serves_ofChunks _ _
  obtain ⟨verdict, hresult, hiff⟩ :=
    predictive_foresees _ tilting hfeed ⟨0, 0⟩ (1 / earthRotationRate) 250 (tilting ⟨0, 0⟩)
      ⟨5, 0⟩ 3 ()
  have hverdict : verdict = ⟨200, some ⟨2, 0⟩⟩ :=
    Except.ok.inj (hresult.symm.trans (by decide +kernel))
  exact ⟨hfeed, (hiff _ _).mpr ⟨hverdict.symm, by decide +kernel⟩⟩

end Coplanar
