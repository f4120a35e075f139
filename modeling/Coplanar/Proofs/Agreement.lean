import Coplanar.Proofs.Policies
import Coplanar.Proofs.Requests

/-! The two policies where the future does not matter.  What the policy of the current chunk
keeps, the one that looks ahead keeps without looking; what it does replace, the other replaces
with a plane of its own or leaves, and on rows that stay as they are with the same plane. -/
namespace Coplanar

section Scalar

variable {σ α : Type} [Scalar α] {now : Chunk α} {tolerance : α} {current : Plane α}
  {verdict : Verdict α}

theorem predictive_of_reactive_keeps (h : reactive now tolerance current = .ok verdict)
    (hplane : verdict.plane = none) (track : Track σ α) (limit : Nat) (s : σ)
    (exceeds : α → Bool) :
    (predictive track now tolerance current limit s exceeds).result = .ok verdict ∧
      (predictive track now tolerance current limit s exceeds).state = s := by
  have hkept : (Verdict.keep current now).deviation = current.maxDeviation now := rfl
  unfold reactive at h
  rw [Bool.or_comm] at h
  simp only [predictive, hkept]
  split at h
  · rename_i hstay
    rw [if_pos hstay]
    exact ⟨h, rfl⟩
  · rename_i hmove
    rw [if_neg hmove]
    cases hfit : now.fit with
    | error fault =>
      rw [hfit] at h
      cases h
    | ok plane =>
      rw [hfit] at h
      cases plane with
      | none => exact ⟨h, rfl⟩
      | some plane =>
        cases h
        cases hplane

theorem reactive_replaces {plane : Plane α} (h : reactive now tolerance current = .ok verdict)
    (hplane : verdict.plane = some plane) :
    Scalar.less (current.maxDeviation now) tolerance = false ∧
      now.fit = .ok (some plane) ∧ verdict = .replace plane now := by
  obtain rfl | ⟨fitted, hfit, rfl⟩ := reactive_cases h
  · cases hplane
  · obtain rfl : fitted = plane := Option.some.inj hplane
    refine ⟨?_, hfit, rfl⟩
    unfold reactive at h
    split at h
    · cases congrArg Verdict.plane (Except.ok.inj h)
    · rename_i hmove
      rw [Bool.or_eq_true, not_or, Bool.not_eq_true, Bool.not_eq_true] at hmove
      exact hmove.2

end Scalar

section Exact

variable {σ K : Type} [Field K] [LinearOrder K] [Circular K] {now : Chunk K} {tolerance : K}
  {current plane : Plane K}

theorem reactive_eq (now : Chunk K) (tolerance : K) (current : Plane K) :
    reactive now tolerance current =
      .ok (if current.maxDeviation now < tolerance then .keep current now
        else now.plane?.elim (.keep current now) (.replace · now)) := by
  by_cases hnear : current.maxDeviation now < tolerance
  · simp [reactive, hnear]
  · by_cases hfew : now.length < minFitRows
    · simp [reactive, hnear, hfew, plane?_of_few hfew]
    · obtain ⟨fitted, hfit⟩ := fit_of_rows now (by omega)
      rw [plane?_of_fit hfit]
      cases fitted <;> simp [reactive, hnear, hfew, hfit, Except.map]

theorem predictive_of_poor_fit (hcurrent : tolerance ≤ current.maxDeviation now)
    (hfit : now.plane? = some plane) (hpoor : tolerance ≤ plane.maxDeviation now)
    (track : Track σ K) (limit : Nat) (s : σ) :
    (predictive track now tolerance current limit s).result =
      .ok ⟨plane.maxDeviation now,
        (some plane).filter fun fit => fit.maxDeviation now ≤ tolerance⟩ := by
  have hfew := not_few_of_plane? hfit
  have hplane := (plane?_eq_some_iff _ _).mp hfit
  by_cases hbeyond : tolerance < plane.maxDeviation now
  · simp [predictive, Verdict.keep, Verdict.replace, not_lt.mpr hcurrent, hfew, hplane, hbeyond,
      Option.filter_some]
  · have hedge : plane.maxDeviation now ≤ tolerance := not_lt.mp hbeyond
    simp [predictive, Verdict.keep, Verdict.replace, not_lt.mpr hcurrent, hfew, hplane, hbeyond,
      not_lt.mpr hpoor, hedge, Option.filter_some]

theorem ahead_const (center : Direction K) (interval : K) (now : Chunk K) :
    ahead (fun _ => now) center interval now = fun _ => now := by
  funext n
  cases n <;> rfl

theorem predictive_of_lasting_fit (hcurrent : tolerance ≤ current.maxDeviation now)
    (hfit : now.plane? = some plane) (hgood : plane.maxDeviation now < tolerance) {feed : Feed σ K}
    (hfeed : feed.Serves fun _ => now) (center : Direction K) (interval : K) (limit : Nat) (s : σ) :
    (predictive (.ofFeed feed center interval) now tolerance current limit s).result =
      .ok (.replace plane now) := by
  have htrack := shows_ahead hfeed center interval now
  rw [ahead_const] at htrack
  have hlasts : ¬ ∃ top ≤ limit, Leaves (fun _ => now) tolerance plane top := by
    rintro ⟨top, -, hleaves⟩
    exact absurd hleaves.1.2 (not_le.mpr hgood)
  exact (predictive_of_foreseen tolerance htrack (.lasting plane hcurrent hfit hgood hlasts) s).1

end Exact

/-- The policy that looks ahead brings a plane, or ends within the tolerance, only where the
policy of the current chunk does.  What that one keeps it keeps too, and asks for nothing.  On
rows that are the same everywhere the two come to the same, but that a fit beyond the
tolerance is left by the policy that looks ahead. -/
theorem policies_agree {σ K : Type} [Field K] [LinearOrder K] [Circular K] (feed : Feed σ K)
    (center : Direction K) (interval tolerance : K) (now : Chunk K) (current : Plane K)
    (limit : Nat) (s : σ) :
    let outcome := predictive (.ofFeed feed center interval) now tolerance current limit s
    ∃ plain, reactive now tolerance current = .ok plain ∧
      (∀ plane, plain.plane = some plane →
        now.fit = .ok (some plane) ∧ plain.deviation = plane.maxDeviation now) ∧
      (∀ verdict, outcome.result = .ok verdict →
        (verdict.plane.isSome → plain.plane.isSome) ∧
          (verdict.deviation < tolerance → plain.deviation < tolerance)) ∧
      (plain.plane = none →
        outcome.result = .ok plain ∧
          predictiveRequests feed center interval now tolerance current limit s
            (Scalar.less tolerance) = []) ∧
      (feed.Serves (fun _ => now) →
        outcome.result = .ok ⟨plain.deviation,
          plain.plane.filter fun fit => fit.maxDeviation now ≤ tolerance⟩) := by
  intro outcome
  obtain ⟨plain, hplain⟩ : ∃ plain, reactive now tolerance current = .ok plain :=
    ⟨_, reactive_eq now tolerance current⟩
  refine ⟨plain, hplain, fun plane hplane => ?_, ?_⟩
  · obtain ⟨-, hfit, rfl⟩ := reactive_replaces hplain hplane
    exact ⟨hfit, rfl⟩
  -- Where the shorter policy keeps the plane, the longer one does too and looks no further.
  cases hplane : plain.plane with
  | none =>
    have hresult : outcome.result = .ok plain :=
      (predictive_of_reactive_keeps hplain hplane _ limit s _).1
    have hasked := (predictive_of_reactive_keeps hplain hplane
      (.ofFeed feed.recorded center interval) limit (s, []) (Scalar.less tolerance)).2
    refine ⟨fun verdict hverdict => ?_, fun _ => ⟨hresult, ?_⟩, fun _ => ?_⟩
    · obtain rfl : plain = verdict := Except.ok.inj (hresult.symm.trans hverdict)
      exact ⟨fun hsome => hplane ▸ hsome, id⟩
    · rw [predictiveRequests, hasked]
      rfl
    · rw [hresult, Option.filter_none, ← hplane]
  | some plane =>
    obtain ⟨hfar, hfit, rfl⟩ := reactive_replaces hplain hplane
    have hcurrent := (less_eq_false_iff _ _).mp hfar
    have hbest := (plane?_eq_some_iff _ _).mpr hfit
    refine ⟨fun verdict hverdict => ⟨fun _ => rfl, fun hless => ?_⟩,
      fun hnone => absurd hnone (Option.some_ne_none plane), fun hfeed => ?_⟩
    · by_contra hpoor
      have hresult : outcome.result = _ :=
        predictive_of_poor_fit hcurrent hbest (not_lt.mp hpoor) _ limit s
      obtain rfl := Except.ok.inj (hresult.symm.trans hverdict)
      exact hpoor hless
    · rcases lt_or_ge (plane.maxDeviation now) tolerance with hgood | hpoor
      · have hresult : outcome.result = _ :=
          predictive_of_lasting_fit hcurrent hbest hgood hfeed center interval limit s
        simp [hresult, Verdict.replace, hgood.le, Option.filter_some]
      · exact predictive_of_poor_fit hcurrent hbest hpoor _ limit s

def warped : Chunk ℚ := [⟨1, 0, 0⟩, ⟨0, 1, 0⟩, ⟨1, 1, 3⟩]

theorem policies_agree_warped :
    (Feed.ofChunks (fun _ => warped) [] : Feed Unit ℚ).Serves (fun _ => warped) ∧
      (predictive (.ofFeed (Feed.ofChunks (fun _ => warped) [] : Feed Unit ℚ) ⟨0, 0⟩ 1) warped 1
        .level 3 ()).result = .ok ⟨1, some ⟨1, 1⟩⟩ ∧
      (predictive (.ofFeed (Feed.ofChunks (fun _ => warped) [] : Feed Unit ℚ) ⟨0, 0⟩ 1) warped
        (1 / 2) .level 3 ()).result = .ok ⟨1, none⟩ := by
  have hfeed : (Feed.ofChunks (fun _ => warped) [] : Feed Unit ℚ).Serves (fun _ => warped) :=
    Feed.serves_ofChunks _ _
  have hreactive : ∀ tolerance ∈ [1, (1 / 2 : ℚ)],
      reactive warped tolerance .level = .ok ⟨1, some ⟨1, 1⟩⟩ := by decide +kernel
  refine ⟨hfeed, ?_, ?_⟩
  · obtain ⟨plain, hplain, -, -, -, hsame⟩ := policies_agree _ ⟨0, 0⟩ 1 1 warped .level 3 ()
    obtain rfl := Except.ok.inj (hplain.symm.trans (hreactive 1 (by simp)))
    exact (hsame hfeed).trans (by decide +kernel)
  · obtain ⟨plain, hplain, -, -, -, hsame⟩ := policies_agree _ ⟨0, 0⟩ 1 (1 / 2) warped .level 3 ()
    obtain rfl := Except.ok.inj (hplain.symm.trans (hreactive (1 / 2) (by simp)))
    exact (hsame hfeed).trans (by decide +kernel)

end Coplanar
