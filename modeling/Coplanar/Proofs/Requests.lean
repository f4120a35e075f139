import Coplanar.Proofs.Prediction
import Coplanar.Proofs.Likeness

/-! What a source is asked for.  The search ahead goes up one step at a time and comes
back the same way, so that the tangent points it asks for are a scan up and down, bounded
by the steps that are allowed, whatever the source answers. -/
namespace Coplanar

variable {ι σ α : Type}

/-- The steps from the first up to `top`, and from there back down to `bottom`. -/
def scan (top bottom : Nat) : List Nat :=
  List.range' 1 top ++ (List.range' bottom (top - bottom)).reverse

theorem scan_max (top : Nat) : scan top (max 1 top) = List.range' 1 top := by
  rw [scan, Nat.sub_eq_zero_of_le (Nat.le_max_right 1 top)]
  exact List.append_nil _

theorem length_scan_le {top bottom limit : Nat} (htop : top ≤ limit) (hbottom : 1 ≤ bottom) :
    (scan top bottom).length ≤ 2 * limit - 1 := by
  rw [scan, List.length_append, List.length_reverse, List.length_range', List.length_range']
  omega

theorem mem_scan {top bottom n : Nat} (hbottom : 1 ≤ bottom) (h : n ∈ scan top bottom) :
    1 ≤ n ∧ n ≤ top := by
  rw [scan, List.mem_append, List.mem_reverse, List.mem_range'_1, List.mem_range'_1] at h
  omega

def Recording (s : σ × List (Direction α)) (t : σ) : Prop := s.1 = t

theorem alike_recorded (feed : Feed σ α) : Feed.Alike Recording feed.recorded feed where
  rows d s t hst := by
    obtain rfl : s.1 = t := hst
    exact ⟨rfl, rfl⟩
  channels s t hst := by
    obtain rfl : s.1 = t := hst
    rfl

section Search

variable [Scalar α]

def Direction.ahead (center : Direction α) (interval : α) (n : Nat) : Direction α :=
  ⟨center.ra + Scalar.natural n * (-earthRotationRate * interval), center.dec⟩

theorem ofFeed_recorded (feed : Feed σ α) (center : Direction α) (interval : α) (n : Nat) (s : σ)
    (asked : List (Direction α)) :
    Track.ofFeed feed.recorded center interval n (s, asked) =
      ((Track.ofFeed feed center interval n s).1, (Track.ofFeed feed center interval n s).2,
        center.ahead interval n :: asked) := rfl

variable (feed : Feed σ α) (center : Direction α) (interval : α)

theorem climb_recorded (tolerance : α) (plane : Plane α) (limit n : Nat) (s : σ)
    (asked : List (Direction α)) :
    let up := climb (.ofFeed feed.recorded center interval) tolerance plane limit n (s, asked)
    ∃ count ≤ limit,
      up.state.2 = ((List.range' (n + 1) count).map (center.ahead interval)).reverse ++ asked ∧
        (up.ending = .left → up.readings.length = count) := by
  induction limit generalizing n s asked with
  | zero => exact ⟨0, Nat.le_refl 0, rfl, fun hleft => by cases hleft⟩
  | succ limit ih =>
    have hstep := ofFeed_recorded feed center interval (n + 1) s asked
    rcases hanswer : Track.ofFeed feed center interval (n + 1) s with ⟨answer, next⟩
    rw [hanswer] at hstep
    simp only [climb, hstep]
    cases answer with
    | error fault => exact ⟨1, by omega, by simp, fun hleft => by cases hleft⟩
    | ok there =>
      dsimp only
      split
      · obtain ⟨count, hcount, hasked, hlength⟩ := ih (n + 1) next
          (center.ahead interval (n + 1) :: asked)
        refine ⟨count + 1, by omega, ?_, fun hleft => congrArg Nat.succ (hlength hleft)⟩
        rw [hasked, List.range'_succ, List.map_cons, List.reverse_cons, List.append_assoc]
        rfl
      · exact ⟨1, by omega, by simp, fun _ => rfl⟩

theorem rowsAt_recorded (now : Chunk α) (n : Nat) (s : σ) (asked : List (Direction α)) :
    rowsAt (.ofFeed feed.recorded center interval) now n (s, asked) =
      ((rowsAt (.ofFeed feed center interval) now n s).1,
        (rowsAt (.ofFeed feed center interval) now n s).2,
        (List.range' (max 1 n) (n + 1 - max 1 n)).map (center.ahead interval) ++ asked) := by
  cases n with
  | zero => rfl
  | succ n =>
    rw [Nat.max_eq_right (by omega), Nat.add_sub_cancel_left]
    rfl

theorem descend_recorded (now : Chunk α) (tolerance : α) (top : Nat) (best : Option (Plane α))
    (s : σ) (asked : List (Direction α)) :
    let down := descend (.ofFeed feed.recorded center interval) now tolerance top best (s, asked)
    ∃ bottom, 1 ≤ bottom ∧ bottom ≤ max 1 top ∧
      down.state.2 = (List.range' bottom (top - bottom)).map (center.ahead interval) ++ asked := by
  induction top generalizing best s asked with
  | zero => exact ⟨1, Nat.le_refl _, Nat.le_refl _, rfl⟩
  | succ top ih =>
    have hstep := rowsAt_recorded feed center interval now top s asked
    rcases hanswer : rowsAt (.ofFeed feed center interval) now top s with ⟨answer, next⟩
    rw [hanswer] at hstep
    have hhere : ∃ bottom, 1 ≤ bottom ∧ bottom ≤ max 1 (top + 1) ∧
        (List.range' (max 1 top) (top + 1 - max 1 top)).map (center.ahead interval) ++ asked =
          (List.range' bottom (top + 1 - bottom)).map (center.ahead interval) ++ asked :=
      ⟨max 1 top, by omega, by omega, rfl⟩
    simp only [descend, hstep]
    cases answer with
    | error fault => exact hhere
    | ok there =>
      dsimp only
      split
      · exact hhere
      · cases there.fit with
        | error fault => exact hhere
        | ok plane =>
          cases plane with
          | none => exact hhere
          | some plane =>
            dsimp only
            split
            · exact hhere
            · -- What is asked from here on comes before what was asked for this step.
              obtain ⟨bottom, hbottom, hle, hasked⟩ := ih (some plane) next
                ((List.range' (max 1 top) (top + 1 - max 1 top)).map (center.ahead interval) ++ asked)
              refine ⟨bottom, hbottom, by omega, ?_⟩
              have hjoin := List.range'_append_1 (s := bottom) (m := top - bottom)
                (n := top + 1 - max 1 top)
              rw [show bottom + (top - bottom) = max 1 top by omega,
                show top - bottom + (top + 1 - max 1 top) = top + 1 - bottom by omega] at hjoin
              rw [hasked, ← hjoin, List.map_append, List.append_assoc]

theorem search_recorded (now : Chunk α) (tolerance : α) (current plane : Plane α) (limit : Nat)
    (s : σ) (asked : List (Direction α)) :
    ∃ top bottom, top ≤ limit ∧ 1 ≤ bottom ∧
      (search (.ofFeed feed.recorded center interval) now tolerance current plane limit
        (s, asked)).state.2 =
          ((scan top bottom).map (center.ahead interval)).reverse ++ asked := by
  obtain ⟨top, htop, hup, hlength⟩ :=
    climb_recorded feed center interval tolerance plane limit 0 s asked
  unfold search
  dsimp only
  generalize climb (.ofFeed feed.recorded center interval) tolerance plane limit 0 (s, asked) = up
    at hup hlength ⊢
  obtain ⟨readings, ending, reached, upward⟩ := up
  obtain rfl : upward = ((List.range' 1 top).map (center.ahead interval)).reverse ++ asked := hup
  cases ending with
  | failed fault => exact ⟨top, max 1 top, htop, Nat.le_max_left .., by rw [scan_max]⟩
  | exhausted => exact ⟨top, max 1 top, htop, Nat.le_max_left .., by rw [scan_max]⟩
  | left =>
    obtain rfl : readings.length = top := hlength rfl
    obtain ⟨bottom, hbottom, -, hdown⟩ := descend_recorded feed center interval now tolerance
      readings.length none reached
        (((List.range' 1 readings.length).map (center.ahead interval)).reverse ++ asked)
    refine ⟨readings.length, bottom, htop, hbottom, ?_⟩
    have hall : ((List.range' bottom (readings.length - bottom)).map (center.ahead interval)) ++
        (((List.range' 1 readings.length).map (center.ahead interval)).reverse ++ asked) =
          ((scan readings.length bottom).map (center.ahead interval)).reverse ++ asked := by
      simp [scan]
    dsimp only
    split <;> exact hdown.trans hall

theorem predictive_recorded (now : Chunk α) (tolerance : α) (current : Plane α) (limit : Nat)
    (s : σ) (asked : List (Direction α)) (exceeds : α → Bool) :
    ∃ top bottom, top ≤ limit ∧ 1 ≤ bottom ∧
      (predictive (.ofFeed feed.recorded center interval) now tolerance current limit (s, asked)
        exceeds).state.2 = ((scan top bottom).map (center.ahead interval)).reverse ++ asked := by
  have hidle : ∃ top bottom, top ≤ limit ∧ 1 ≤ bottom ∧
      asked = ((scan top bottom).map (center.ahead interval)).reverse ++ asked :=
    ⟨0, 1, by omega, Nat.le_refl _, rfl⟩
  unfold predictive
  dsimp only
  split
  · exact hidle
  · split
    · exact hidle
    · exact hidle
    · split
      · exact hidle
      · split
        · exact search_recorded feed center interval now tolerance current _ limit s asked
        · exact hidle

def predictiveRequests (now : Chunk α) (tolerance : α) (current : Plane α) (limit : Nat) (s : σ)
    (exceeds : α → Bool) : List (Direction α) :=
  (predictive (.ofFeed feed.recorded center interval) now tolerance current limit (s, [])
    exceeds).state.2.reverse

theorem predictive_alike_recorded (now : Chunk α) (tolerance : α) (current : Plane α) (limit : Nat)
    (s : σ) (exceeds : α → Bool) :
    Outcome.Alike Recording
      (predictive (.ofFeed feed.recorded center interval) now tolerance current limit (s, []) exceeds)
      (predictive (.ofFeed feed center interval) now tolerance current limit s exceeds) :=
  predictive_equivalent (Track.Alike.equivalent fun _ => (alike_recorded feed).rows _) (.refl now)
    tolerance current limit rfl exceeds

theorem exists_predictiveRequests_eq (now : Chunk α) (tolerance : α) (current : Plane α)
    (limit : Nat) (s : σ) (exceeds : α → Bool) :
    ∃ top bottom, top ≤ limit ∧ 1 ≤ bottom ∧
      predictiveRequests feed center interval now tolerance current limit s exceeds =
        (scan top bottom).map (center.ahead interval) := by
  obtain ⟨top, bottom, htop, hbottom, hasked⟩ :=
    predictive_recorded feed center interval now tolerance current limit s [] exceeds
  refine ⟨top, bottom, htop, hbottom, ?_⟩
  rw [predictiveRequests, hasked, List.append_nil, List.reverse_reverse]

end Search

namespace Corrector

def reach (c : Corrector ι α) : Nat := if c.settings.predict then c.settings.maxSteps else 0

theorem reach_le (c : Corrector ι α) : c.reach ≤ c.settings.maxSteps := by
  unfold reach
  split
  · exact Nat.le_refl _
  · exact Nat.zero_le _

def requests [Trig α] (c : Corrector ι α) (feeds : ι → Feed σ α)
    (tangentPoint : Except (Fault α) (Direction α)) (identity : Nat) (s : σ) :
    List (Direction α) :=
  (c.correctedRows (fun i => (feeds i).recorded) tangentPoint identity (s, [])).sources.2.reverse

theorem judge_recorded [Scalar α] (c : Corrector ι α) (feed : Feed σ α) (d : Direction α)
    (rows : Chunk α) (tolerance : α) (s : σ) (asked : List (Direction α)) :
    ∃ top bottom, top ≤ c.reach ∧ 1 ≤ bottom ∧
      (c.judge feed.recorded d rows tolerance (s, asked)).state.2 =
        ((scan top bottom).map (d.ahead c.settings.interval)).reverse ++ asked := by
  unfold judge reach
  split
  · exact predictive_recorded feed d c.settings.interval rows tolerance c.plane
      c.settings.maxSteps s asked _
  · exact ⟨0, 1, Nat.le_refl 0, Nat.le_refl 1, rfl⟩

theorem process_sources [Scalar α] (c : Corrector ι α) (feed : Feed σ α) (d : Direction α)
    (rows : Chunk α) (tolerance : α) (identity : Nat) (s : σ) :
    (c.process feed d rows tolerance identity s).sources =
      (c.judge feed d rows tolerance s).state := by
  have hjudge : judge { c with center := some d } feed d rows tolerance s =
    c.judge feed d rows tolerance s := rfl
  simp only [process, hjudge]
  split <;> rfl

theorem recompute_recorded [Scalar α] (c : Corrector ι α) (feed : Feed σ α) (d : Direction α)
    (identity : Nat) (s : σ) (asked : List (Direction α)) :
    ∃ top bottom, top ≤ c.reach ∧ 1 ≤ bottom ∧
      (c.recompute feed.recorded d identity (s, asked)).sources.2 =
        ((scan top bottom).map (d.ahead c.settings.interval)).reverse ++ d :: asked := by
  have hstep : feed.recorded.rows d (s, asked) =
    ((feed.rows d s).1, (feed.rows d s).2, d :: asked) := rfl
  have hidle : ∃ top bottom, top ≤ c.reach ∧ 1 ≤ bottom ∧ d :: asked =
        ((scan top bottom).map (d.ahead c.settings.interval)).reverse ++ d :: asked :=
    ⟨0, 1, Nat.zero_le _, Nat.le_refl 1, rfl⟩
  simp only [recompute, hstep]
  cases (feed.rows d s).1 with
  | error fault => exact hidle
  | ok rows =>
    dsimp only
    split
    · exact hidle
    · rw [process_sources]
      exact c.judge_recorded feed d rows _ _ (d :: asked)

variable [Trig α] (c : Corrector ι α) (feeds : ι → Feed σ α)
  (tangentPoint : Except (Fault α) (Direction α)) (identity : Nat) (s : σ)

theorem correctedRows_alike_recorded :
    Reply.Alike Recording
      (c.correctedRows (fun i => (feeds i).recorded) tangentPoint identity (s, []))
      (c.correctedRows feeds tangentPoint identity s) :=
  c.correctedRows_alike (fun i => alike_recorded (feeds i)) rfl tangentPoint identity

theorem requests_cases :
    c.requests feeds tangentPoint identity s = [] ∨
      ∃ d top bottom, tangentPoint = .ok d ∧ c.current? = none ∧
        top ≤ c.reach ∧ 1 ≤ bottom ∧
        c.requests feeds tangentPoint identity s =
          d :: (scan top bottom).map (d.ahead c.settings.interval) := by
  cases tangentPoint with
  | error fault => exact .inl rfl
  | ok d =>
    simp only [requests, correctedRows, rowsToward]
    cases c.accepts d with
    | false => exact .inl rfl
    | true =>
      cases c.current? with
      | some served => exact .inl rfl
      | none =>
        cases c.source with
        | none => exact .inl rfl
        | some source =>
          obtain ⟨top, bottom, htop, hbottom, hasked⟩ :=
            c.recompute_recorded (feeds source) d identity s []
          refine .inr ⟨d, top, bottom, rfl, rfl, htop, hbottom, ?_⟩
          change (c.recompute (feeds source).recorded d identity (s, [])).sources.2.reverse = _
          rw [hasked]
          simp

theorem requests_of_fitted (h : c.phase = .fitted) :
    c.requests feeds tangentPoint identity s = [] := by
  obtain hnone | ⟨d, top, bottom, -, hcurrent, -⟩ := c.requests_cases feeds tangentPoint identity s
  · exact hnone
  · simp [phase_eq_fitted_iff, hcurrent] at h

theorem length_requests_of_reactive (h : c.settings.predict = false) :
    (c.requests feeds tangentPoint identity s).length ≤ 1 := by
  obtain hnone | ⟨d, top, bottom, -, -, htop, -, hasked⟩ :=
    c.requests_cases feeds tangentPoint identity s
  · rw [hnone]
    exact Nat.zero_le 1
  · obtain rfl : top = 0 := by simpa [reach, h] using htop
    simp [hasked, scan]

theorem length_requests_le (h : 0 < c.settings.maxSteps) :
    (c.requests feeds tangentPoint identity s).length ≤ 2 * c.settings.maxSteps := by
  obtain hnone | ⟨d, top, bottom, -, -, htop, hbottom, hasked⟩ :=
    c.requests_cases feeds tangentPoint identity s
  · rw [hnone]
    exact Nat.zero_le _
  · have hscan := length_scan_le (Nat.le_trans htop c.reach_le) hbottom
    rw [hasked, List.length_cons, List.length_map]
    omega

end Corrector

/-- For every source, whatever it answers and however it fails: the policy that looks ahead
asks for the tangent points of a scan up and down, each counted from the longitude of now, and
not for the one of now itself where a step moves it at all.  A call asks for nothing while it
has rows at hand, for one tangent point at the most where it judges by the rows of this one
alone, and for no more than twice the allowed steps where it looks ahead. -/
theorem requests_scan_ahead [Trig α] (feeds : ι → Feed σ α) (s : σ) :
    (∀ source center interval now tolerance current limit exceeds,
      let feed := feeds source
      let asked :=
        predictiveRequests feed center interval now tolerance current limit s exceeds
      Outcome.Alike Recording
          (predictive (.ofFeed feed.recorded center interval) now tolerance current limit (s, [])
            exceeds)
          (predictive (.ofFeed feed center interval) now tolerance current limit s exceeds) ∧
        (∃ top bottom, top ≤ limit ∧ 1 ≤ bottom ∧
          asked = (List.range' 1 top ++ (List.range' bottom (top - bottom)).reverse).map fun n =>
            ⟨center.ra + Scalar.natural n * (-earthRotationRate * interval), center.dec⟩) ∧
        asked.length ≤ 2 * limit - 1 ∧
        (∀ d ∈ asked, ∃ n, 1 ≤ n ∧ n ≤ limit ∧ d = center.ahead interval n) ∧
        ((∀ n, 1 ≤ n → center.ahead interval n ≠ center) → center ∉ asked)) ∧
      ∀ (c : Corrector ι α) tangentPoint identity,
        let asked := c.requests feeds tangentPoint identity s
        Reply.Alike Recording
            (c.correctedRows (fun i => (feeds i).recorded) tangentPoint identity (s, []))
            (c.correctedRows feeds tangentPoint identity s) ∧
          (c.phase = .fitted → asked = []) ∧
          (c.settings.predict = false → asked.length ≤ 1) ∧
          (0 < c.settings.maxSteps → asked.length ≤ 2 * c.settings.maxSteps) := by
  constructor
  · intro source center interval now tolerance current limit exceeds feed asked
    obtain ⟨top, bottom, htop, hbottom, hasked⟩ :=
      exists_predictiveRequests_eq feed center interval now tolerance current limit s exceeds
    have hahead : ∀ d ∈ asked, ∃ n, 1 ≤ n ∧ n ≤ limit ∧ d = center.ahead interval n := by
      intro d hd
      rw [show asked = _ from hasked] at hd
      obtain ⟨n, hn, rfl⟩ := List.mem_map.mp hd
      obtain ⟨hfirst, hlast⟩ := mem_scan hbottom hn
      exact ⟨n, hfirst, Nat.le_trans hlast htop, rfl⟩
    refine ⟨predictive_alike_recorded feed center interval now tolerance current limit s exceeds,
      ⟨top, bottom, htop, hbottom, hasked⟩, ?_, hahead, fun hmoves hcenter => ?_⟩
    · rw [show asked = _ from hasked, List.length_map]
      exact length_scan_le htop hbottom
    · obtain ⟨n, hn, -, heq⟩ := hahead center hcenter
      exact hmoves n hn heq.symm
  · intro c tangentPoint identity asked
    exact ⟨c.correctedRows_alike_recorded feeds tangentPoint identity s,
      c.requests_of_fitted feeds tangentPoint identity s,
      c.length_requests_of_reactive feeds tangentPoint identity s,
      c.length_requests_le feeds tangentPoint identity s⟩

theorem ahead_ne_center {K : Type} [Field K] [LinearOrder K] [IsStrictOrderedRing K] [Circular K]
    [LawfulCircular K] (center : Direction K) {interval : K} (hinterval : 0 < interval) {n : Nat}
    (hn : 1 ≤ n) : center.ahead interval n ≠ center := by
  intro heq
  have hra : center.ra + (n : K) * (-earthRotationRate * interval) = center.ra :=
    congrArg Direction.ra heq
  have hsteps : (n : K) ≠ 0 := Nat.cast_ne_zero.mpr (by omega)
  have hstep : -earthRotationRate * interval ≠ 0 :=
    mul_ne_zero (neg_ne_zero.mpr earthRotationRate_pos.ne') hinterval.ne'
  exact mul_ne_zero hsteps hstep (add_eq_left.mp hra)

theorem requests_scan_ahead_tilting :
    let asked := predictiveRequests (Feed.ofChunks tilting [] : Feed Unit ℚ) ⟨0, 0⟩
      (1 / earthRotationRate) (tilting ⟨0, 0⟩) 250 ⟨5, 0⟩ 3 () (Scalar.less 250)
    asked = [⟨-1, 0⟩, ⟨-2, 0⟩, ⟨-3, 0⟩, ⟨-2, 0⟩] ∧ asked.length ≤ 5 ∧ ⟨0, 0⟩ ∉ asked := by
  intro asked
  have hscan := (requests_scan_ahead (fun _ : Unit => (Feed.ofChunks tilting [] : Feed Unit ℚ)) ()).1
    () ⟨0, 0⟩ (1 / earthRotationRate) (tilting ⟨0, 0⟩) 250 ⟨5, 0⟩ 3 (Scalar.less 250)
  obtain ⟨-, -, hlength, -, hcenter⟩ := hscan
  exact ⟨by decide +kernel, hlength, hcenter fun n hn =>
    ahead_ne_center _ (one_div_pos.mpr earthRotationRate_pos) hn⟩

end Coplanar
