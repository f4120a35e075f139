import Coplanar.Proofs.Prediction
import Coplanar.Proofs.Recomputation

/-! The policy that looks ahead beside the one that judges by the current chunk.
Looking ahead keeps every chunk within the tolerance that the other does, unless
its way back meets rows that no plane fits. -/
namespace Coplanar

section Cases

variable {σ α : Type} [Scalar α]

/-- The plane fits rows that the track shows at some step, be it those of now. -/
def Track.Fits (track : Track σ α) (now : Chunk α) (plane : Plane α) : Prop :=
  ∃ n s rows, (rowsAt track now n s).1 = .ok rows ∧ rows.fit = .ok (some plane)

theorem reactive_cases {rows : Chunk α} {tolerance : α} {current : Plane α} {verdict : Verdict α}
    (h : reactive rows tolerance current = .ok verdict) :
    verdict = .keep current rows ∨
      ∃ plane, rows.fit = .ok (some plane) ∧ verdict = .replace plane rows := by
  unfold reactive at h
  split at h
  · exact .inl (Except.ok.inj h).symm
  · cases hfit : rows.fit with
    | error fault => simp [hfit, Except.map] at h
    | ok plane =>
      rw [hfit] at h
      cases plane with
      | none => exact .inl (Except.ok.inj h).symm
      | some plane => exact .inr ⟨plane, rfl, (Except.ok.inj h).symm⟩

theorem descend_fits {track : Track σ α} {now : Chunk α} {tolerance : α} {top steps : Nat}
    {best : Option (Plane α)} {s : σ} {plane : Plane α}
    (hbest : ∀ plane, best = some plane → track.Fits now plane)
    (h : (descend track now tolerance top best s).ending = .stopped steps (some plane)) :
    track.Fits now plane := by
  fun_induction descend track now tolerance top best s with
  | case1 best s =>
    cases h
    exact hbest plane rfl
  | case2 => cases h
  | case3 =>
    cases h
    exact hbest plane rfl
  | case4 => cases h
  | case5 =>
    cases h
    exact hbest plane rfl
  | case6 n best s rows next hrows hfew fitted hfit hgood =>
    cases h
    exact ⟨_, s, rows, by rw [hrows], hfit⟩
  | case7 n best s rows next hrows hfew fitted hfit hbad ih =>
    refine ih (fun plane hplane => ?_) h
    cases hplane
    exact ⟨n, s, rows, by rw [hrows], hfit⟩

/-- Every way in which the policy that looks ahead comes to a verdict, for any
source. -/
theorem predictive_cases {track : Track σ α} {now : Chunk α} {tolerance : α} {current : Plane α}
    {limit : Nat} {s : σ} {verdict : Verdict α}
    (h : (predictive track now tolerance current limit s).result = .ok verdict) :
    verdict = .keep current now ∨
      (∃ plane, now.fit = .ok (some plane) ∧ verdict = ⟨plane.maxDeviation now, none⟩ ∧
        Scalar.less tolerance (plane.maxDeviation now) ∧
        Scalar.less (current.maxDeviation now) tolerance = false) ∨
      ∃ plane, track.Fits now plane ∧ verdict = .replace plane now := by
  unfold predictive at h
  dsimp only at h
  split at h
  · exact .inl (Except.ok.inj h).symm
  · rename_i hstay
    split at h
    · cases h
    · exact .inl (Except.ok.inj h).symm
    · rename_i plane hfit
      have hnow : track.Fits now plane := ⟨0, s, now, rfl, hfit⟩
      split at h
      · rename_i hpoor
        have hfar : Scalar.less (current.maxDeviation now) tolerance = false := by
          rw [Bool.or_eq_true, not_or, Bool.not_eq_true] at hstay
          exact hstay.1
        exact .inr (.inl ⟨plane, hfit, (Except.ok.inj h).symm, hpoor, hfar⟩)
      · split at h
        · -- The search proper.
          simp only [search] at h
          split at h
          · cases h
          · exact .inr (.inr ⟨plane, hnow, (Except.ok.inj h).symm⟩)
          · split at h
            · cases h
            · exact .inl (Except.ok.inj h).symm
            · rename_i steps best hend
              exact .inr (.inr ⟨best, descend_fits (by simp) hend, (Except.ok.inj h).symm⟩)
        · exact .inr (.inr ⟨plane, hnow, (Except.ok.inj h).symm⟩)

theorem climb_failed {track : Track σ α} {tolerance : α} {plane : Plane α} {limit n : Nat} {s : σ}
    {fault : Fault α} (h : (climb track tolerance plane limit n s).ending = .failed fault) :
    ∃ n s, (track n s).1 = .error fault := by
  fun_induction climb track tolerance plane limit n s with
  | case1 => cases h
  | case2 limit n s fault' next hrows =>
    cases h
    exact ⟨n + 1, s, by rw [hrows]⟩
  | case3 _ _ _ _ _ _ _ _ _ ih => exact ih h
  | case4 => cases h

theorem descend_failed {track : Track σ α} {now : Chunk α} {tolerance : α} {top : Nat}
    {best : Option (Plane α)} {s : σ} {fault : Fault α}
    (h : (descend track now tolerance top best s).ending = .failed fault) :
    (∃ n s, (track n s).1 = .error fault) ∨ ∃ rows : Chunk α, rows.fit = .error fault := by
  fun_induction descend track now tolerance top best s with
  | case1 => cases h
  | case2 n best s fault' next hrows =>
    cases h
    cases n with
    | zero => cases hrows
    | succ n => exact .inl ⟨n + 1, s, by rw [← rowsAt.eq_2 track now, hrows]⟩
  | case3 => cases h
  | case4 n best s rows next hrows hfew fault' hfit =>
    cases h
    exact .inr ⟨rows, hfit⟩
  | case5 => cases h
  | case6 => cases h
  | case7 _ _ _ _ _ _ _ _ _ _ ih => exact ih h

theorem predictive_failed {track : Track σ α} {now : Chunk α} {tolerance : α} {current : Plane α}
    {limit : Nat} {s : σ} {fault : Fault α}
    (h : (predictive track now tolerance current limit s).result = .error fault) :
    (∃ n s, (track n s).1 = .error fault) ∨ ∃ rows : Chunk α, rows.fit = .error fault := by
  unfold predictive at h
  dsimp only at h
  split at h
  · cases h
  · split at h
    · rename_i hfit
      cases h
      exact .inr ⟨now, hfit⟩
    · cases h
    · split at h
      · cases h
      · split at h
        · -- The search proper.
          simp only [search] at h
          split at h
          · rename_i hend
            cases h
            exact .inl (climb_failed hend)
          · cases h
          · split at h
            · rename_i hend
              cases h
              exact descend_failed hend
            · cases h
            · cases h
        · cases h

theorem reactive_failed {rows : Chunk α} {tolerance : α} {current : Plane α} {fault : Fault α}
    (h : reactive rows tolerance current = .error fault) : rows.fit = .error fault := by
  unfold reactive at h
  split at h
  · cases h
  · cases hfit : rows.fit with
    | error fault' =>
      rw [hfit] at h
      cases h
      rfl
    | ok plane =>
      rw [hfit] at h
      cases plane <;> cases h

theorem Corrector.judge_failed {ι : Type} {c : Corrector ι α} {feed : Feed σ α} {d : Direction α}
    {rows : Chunk α} {tolerance : α} {s : σ} {fault : Fault α}
    (h : (c.judge feed d rows tolerance s).result = .error fault) :
    (∃ e s, (feed.rows e s).1 = .error fault) ∨ ∃ rows : Chunk α, rows.fit = .error fault := by
  cases hpredict : c.settings.predict with
  | true =>
    rw [judge_of_predictive hpredict] at h
    exact (predictive_failed h).imp_left fun ⟨_, s, hrows⟩ => ⟨_, s, hrows⟩
  | false =>
    rw [judge_of_reactive hpredict] at h
    exact .inr ⟨rows, reactive_failed h⟩

theorem Corrector.fits_of_judge {ι : Type} {c : Corrector ι α} {feed : Feed σ α} {d : Direction α}
    {rows : Chunk α} {tolerance : α} {s : σ} {v : Verdict α} {plane : Plane α}
    (h : (c.judge feed d rows tolerance s).result = .ok v) (hplane : v.plane = some plane) :
    (Track.ofFeed feed d c.settings.interval).Fits rows plane := by
  cases hpredict : c.settings.predict with
  | true =>
    rw [judge_of_predictive hpredict] at h
    obtain rfl | ⟨fresh, -, rfl, -⟩ | ⟨best, hfits, rfl⟩ := predictive_cases h
    · cases hplane
    · cases hplane
    · cases hplane
      exact hfits
  | false =>
    rw [judge_of_reactive hpredict] at h
    obtain rfl | ⟨fresh, hfit, rfl⟩ := reactive_cases h
    · cases hplane
    · cases hplane
      exact ⟨0, s, rows, rfl, hfit⟩

end Cases

def Within {α : Type} [Scalar α] (tolerance : α) (result : Except (Fault α) (Verdict α)) : Prop :=
  ∃ verdict, result = .ok verdict ∧ Scalar.less verdict.deviation tolerance

section Comparison

variable {K : Type} [Field K] [LinearOrder K] [Circular K] (f : Nat → Chunk K) (tolerance : K)

/-- The plane of now is lost on the way up, and the way back meets rows that no plane
fits before any plane that is good now. -/
def Interrupted (limit : Nat) : Prop :=
  ∃ plane top steps, (f 0).plane? = some plane ∧ Leaves f tolerance plane top ∧ top ≤ limit ∧
    Returns f tolerance top steps ∧ (f steps).plane? = none

theorem not_interrupted_of_lasting {limit : Nat} {plane : Plane K} (hfit : (f 0).plane? = some plane)
    (hlasts : ¬ ∃ top ≤ limit, Leaves f tolerance plane top) : ¬ Interrupted f tolerance limit := by
  rintro ⟨other, top, steps, hother, hleaves, hlimit, -, -⟩
  rw [hfit] at hother
  cases hother
  exact hlasts ⟨top, hlimit, hleaves⟩

theorem not_interrupted_of_settled {limit top steps : Nat} {plane best : Plane K}
    (hfit : (f 0).plane? = some plane) (hleaves : Leaves f tolerance plane top)
    (hreturns : Returns f tolerance top steps) (hbest : (f steps).plane? = some best) :
    ¬ Interrupted f tolerance limit := by
  rintro ⟨other, top', steps', hother, hleaves', -, hreturns', hnone⟩
  rw [hfit] at hother
  cases hother
  obtain rfl : top = top' := hleaves.unique hleaves'
  obtain rfl : steps = steps' := hreturns.unique hreturns'
  simp [hbest] at hnone

/-- With a plane that fits now within the tolerance, looking ahead ends within it
unless it is interrupted. -/
theorem Foreseen.less_iff {current plane : Plane K} {limit warnings : Nat} {verdict : Verdict K}
    (h : Foreseen f tolerance current limit verdict warnings)
    (hcurrent : tolerance ≤ current.maxDeviation (f 0)) (hfit : (f 0).plane? = some plane)
    (hgood : plane.maxDeviation (f 0) < tolerance) :
    verdict.deviation < tolerance ↔ ¬ Interrupted f tolerance limit := by
  cases h with
  | near h => exact absurd h (not_lt.mpr hcurrent)
  | unfit h => simp [hfit] at h
  | poor other _ hother hpoor =>
    rw [hfit] at hother
    cases hother
    exact absurd hgood (not_lt.mpr hpoor.le)
  | edge other _ hother hedge =>
    rw [hfit] at hother
    cases hother
    exact absurd hgood hedge.not_lt
  | lasting other _ hother hless hlasts =>
    exact iff_of_true hless (not_interrupted_of_lasting f tolerance hother hlasts)
  | settled other top steps best _ hother _ hleaves hlimit hreturns hbest =>
    -- A plane fits where the way back ended, so that its deviation has ended it.
    have hless : best.maxDeviation (f 0) < tolerance := by
      obtain hnone | ⟨q, hq, hless⟩ := hreturns.1.2
      · simp [hbest] at hnone
      · rw [hbest] at hq
        cases hq
        exact hless
    exact iff_of_true hless (not_interrupted_of_settled f tolerance hother hleaves hreturns hbest)
  | cutShort other top steps best _ hother _ hleaves hlimit hreturns hnone hbefore hbest =>
    have hbad : ¬ best.maxDeviation (f 0) < tolerance := fun hless => by
      have hle : steps + 1 ≤ steps := hreturns.2 ⟨hbefore, .inr ⟨best, hbest, hless⟩⟩
      omega
    exact iff_of_false hbad
      (not_not.mpr ⟨other, top, steps, hother, hleaves, hlimit, hreturns, hnone⟩)
  | lost other top steps _ hother _ hleaves hlimit hreturns hnone _ =>
    exact iff_of_false (not_lt.mpr hcurrent)
      (not_not.mpr ⟨other, top, steps, hother, hleaves, hlimit, hreturns, hnone⟩)

variable {f tolerance} {current : Plane K} {now : Chunk K}

theorem within_reactive_iff :
    Within tolerance (reactive now tolerance current) ↔
      current.maxDeviation now < tolerance ∨
        ∃ plane, now.plane? = some plane ∧ plane.maxDeviation now < tolerance := by
  by_cases hnear : current.maxDeviation now < tolerance
  · simp [Within, reactive, Verdict.keep, hnear]
  · by_cases hfew : now.length < minFitRows
    · simp [Within, reactive, Verdict.keep, hnear, hfew, plane?_of_few hfew]
    · obtain ⟨plane, hfit⟩ := fit_of_rows now (by omega)
      have hresult : reactive now tolerance current =
          .ok (plane.elim (.keep current now) (.replace · now)) := by
        cases plane <;> simp [reactive, hnear, hfew, hfit, Except.map]
      rw [hresult, plane?_of_fit hfit]
      cases plane <;> simp [Within, Verdict.keep, Verdict.replace, hnear]

theorem within_predictive_iff {σ : Type} {track : Track σ K} (htrack : track.Shows f) {limit : Nat}
    (h : Within tolerance (reactive (f 0) tolerance current)) (s : σ) :
    Within tolerance (predictive track (f 0) tolerance current limit s).result ↔
      current.maxDeviation (f 0) < tolerance ∨ ¬ Interrupted f tolerance limit := by
  obtain ⟨verdict, warnings, hforeseen⟩ := exists_foreseen f tolerance current limit
  have hresult := (predictive_of_foreseen tolerance htrack hforeseen s).1
  have hwithin : Within tolerance (predictive track (f 0) tolerance current limit s).result ↔
      verdict.deviation < tolerance := by
    simp [Within, hresult]
  rw [hwithin]
  rcases lt_or_ge (current.maxDeviation (f 0)) tolerance with hnear | hcurrent
  · refine iff_of_true ?_ (.inl hnear)
    cases hforeseen with
    | near => exact hnear
    | unfit => exact hnear
    | _ => exact absurd hnear (not_lt.mpr ‹_›)
  · obtain hnear | ⟨plane, hfit, hgood⟩ := within_reactive_iff.mp h
    · exact absurd hnear (not_lt.mpr hcurrent)
    · rw [hforeseen.less_iff f tolerance hcurrent hfit hgood, or_iff_right (not_lt.mpr hcurrent)]

theorem Corrector.plane_of_adopt {ι : Type} (c : Corrector ι K) (d : Direction K) (tolerance : K)
    (v : Verdict K) : (c.adopt d tolerance v).plane = v.plane.getD c.plane := by
  rw [adopt_plane, newPlane?]
  cases v.plane with
  | none => rfl
  | some plane => by_cases hsame : plane = c.plane <;> simp [hsame, Option.filter]

theorem Corrector.adopt_less_iff {ι σ : Type} {c : Corrector ι K} {feed : Feed σ K}
    {d : Direction K} {s : σ} {v : Verdict K}
    (h : (c.judge feed d now tolerance s).result = .ok v) :
    (c.adopt d tolerance v).plane.maxDeviation now < tolerance ↔ v.deviation < tolerance := by
  rw [plane_of_adopt]
  unfold judge at h
  split at h
  · obtain rfl | ⟨plane, -, rfl, hpoor, hfar⟩ | ⟨plane, -, rfl⟩ := predictive_cases h
    · rfl
    · rw [less_iff] at hpoor
      rw [less_eq_false_iff] at hfar
      exact iff_of_false (not_lt.mpr hfar) (not_lt.mpr hpoor.le)
    · rfl
  · obtain rfl | ⟨plane, -, rfl⟩ := reactive_cases h
    · rfl
    · rfl

theorem Corrector.process_ok_iff {ι σ : Type} {c : Corrector ι K} (feed : Feed σ K)
    (d : Direction K) (hcheck : c.settings.checkResidual = true) (identity : Nat) (s : σ) :
    (∃ served, (c.process feed d now tolerance identity s).result = .ok served) ↔
      Within tolerance (c.judge feed d now tolerance s).result := by
  cases hjudge : (c.judge feed d now tolerance s).result with
  | error fault => simp [(process_of_error hjudge identity).1, Within]
  | ok v =>
    rw [(process_of_ok hjudge identity).1]
    have hchecked : (c.adopt d tolerance v).settings.checkResidual = true := by
      rw [adopt_settings, hcheck]
    have hpasses := passes_of_checked hchecked now tolerance
    by_cases hgood : v.deviation < tolerance
    · have hless := (adopt_less_iff hjudge).mpr hgood
      rw [deliver_of_passes (hpasses.trans (by rwa [less_iff]))]
      simp [Within, hgood]
    · have hless := mt (adopt_less_iff hjudge).mp hgood
      rw [deliver_of_objection (hpasses.trans (by rwa [less_eq_false_iff, ← not_lt]))]
      simp [Within, hgood]

def Corrector.predicting {ι : Type} (c : Corrector ι K) (predict : Bool) : Corrector ι K :=
  { c with settings := { c.settings with predict := predict } }

end Comparison

/-- A chunk that is kept within the tolerance by itself is kept within it by looking
ahead, unless it takes a new plane and the way back is interrupted.  Only then does a
corrector that checks the residual refuse a chunk for looking ahead. -/
theorem predicting_keeps_iff {ι σ K : Type} [Field K] [LinearOrder K] [Circular K]
    (c : Corrector ι K) (feed : Feed σ K) (chunk : Direction K → Chunk K) (hfeed : feed.Serves chunk)
    (d : Direction K) (now : Chunk K) (tolerance : K)
    (hwithin : Within tolerance (reactive now tolerance c.plane)) (s : σ) :
    let keeps := c.plane.maxDeviation now < tolerance ∨
      ¬ Interrupted (ahead chunk d c.settings.interval now) tolerance c.settings.maxSteps
    (Within tolerance (predictive (.ofFeed feed d c.settings.interval) now tolerance c.plane
        c.settings.maxSteps s).result ↔ keeps) ∧
      ∀ identity, c.settings.checkResidual = true →
        (∃ served, ((c.predicting false).process feed d now tolerance identity s).result =
          .ok served) ∧
        ((∃ served, ((c.predicting true).process feed d now tolerance identity s).result =
          .ok served) ↔ keeps) := by
  intro keeps
  have hkeeps : Within tolerance (predictive (.ofFeed feed d c.settings.interval) now tolerance
      c.plane c.settings.maxSteps s).result ↔ keeps :=
    within_predictive_iff (shows_ahead hfeed d c.settings.interval now) hwithin s
  refine ⟨hkeeps, fun identity hcheck => ?_⟩
  have hchecked : ∀ predict, (c.predicting predict).settings.checkResidual = true :=
    fun _ => hcheck
  constructor
  · rw [Corrector.process_ok_iff feed d (hchecked false) identity s, Corrector.judge_of_reactive rfl]
    exact hwithin
  · rw [Corrector.process_ok_iff feed d (hchecked true) identity s,
      Corrector.judge_of_predictive rfl]
    exact hkeeps

/-- A single row at each step ahead, in a plane that has the slope `1 / 2` at
`ra = 1 / 2` and gains `1 / 1000` a second. -/
def narrowing (d : Direction ℚ) : Chunk ℚ :=
  [⟨100, 0, (1 / 2 + (1 / 2 - d.ra) / earthRotationRate / 1000) * 100⟩]

def upright : Chunk ℚ := [⟨100, 0, 50⟩, ⟨0, 100, 0⟩]

def tenSteps : Corrector Unit ℚ := .create ⟨1, true, false, 6, 10, 0, false⟩

theorem within_upright : Within 1 (reactive upright 1 tenSteps.plane) :=
  ⟨⟨0, some ⟨1 / 2, 0⟩⟩, by decide +kernel, by decide +kernel⟩

theorem not_within_narrowing :
    ¬ Within 1 (predictive (.ofFeed (Feed.ofChunks narrowing [] : Feed Unit ℚ) ⟨1 / 2, 0⟩ 6) upright
      1 tenSteps.plane 10 ()).result := by
  have hresult : (predictive (.ofFeed (Feed.ofChunks narrowing [] : Feed Unit ℚ) ⟨1 / 2, 0⟩ 6)
      upright 1 tenSteps.plane 10 ()).result = .ok ⟨50, none⟩ := by decide +kernel
  rintro ⟨verdict, hverdict, hless⟩
  rw [hresult] at hverdict
  cases hverdict
  exact absurd hless (by decide +kernel)

/-- The way back from the second step is interrupted at the first. -/
theorem predicting_keeps_iff_narrowing :
    (Feed.ofChunks narrowing [] : Feed Unit ℚ).Serves narrowing ∧
      Within 1 (reactive upright 1 tenSteps.plane) ∧
      Interrupted (ahead narrowing ⟨1 / 2, 0⟩ 6 upright) 1 10 := by
  have hfeed : (Feed.ofChunks narrowing [] : Feed Unit ℚ).Serves narrowing :=
    Feed.serves_ofChunks _ _
  obtain ⟨hkeeps, -⟩ :=
    predicting_keeps_iff tenSteps _ narrowing hfeed ⟨1 / 2, 0⟩ upright 1 within_upright ()
  have hlost := mt hkeeps.mpr not_within_narrowing
  rw [not_or, not_not] at hlost
  exact ⟨hfeed, within_upright, hlost.2⟩

theorem predicting_loses_upright :
    (Feed.ofChunks narrowing [] : Feed Unit ℚ).Serves narrowing ∧
      Within 1 (reactive upright 1 tenSteps.plane) ∧
      ¬ Within 1 (predictive (.ofFeed (Feed.ofChunks narrowing [] : Feed Unit ℚ) ⟨1 / 2, 0⟩ 6) upright
        1 tenSteps.plane 10 ()).result :=
  ⟨Feed.serves_ofChunks _ _, within_upright, not_within_narrowing⟩

end Coplanar
