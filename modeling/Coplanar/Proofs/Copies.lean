import Coplanar.Proofs.Lineages
import Coplanar.Proofs.Quantities

/-! Duplicates.  A duplicate answers as the original would, neither notices what becomes of
the other, and no array is handed out by both. -/
namespace Coplanar

variable {α : Type} [Quantity α]

def Source.Settled (s : Source α) : Prop := ∃ scene, Source.feed.Shows scene s

theorem Source.settled_steady (rows : Except (Fault α) (Chunk α))
    (channels : Except (Fault α) (Nested α)) : (Source.steady rows channels).Settled := by
  refine ⟨⟨fun _ => rows, channels.bind Nested.rectangular⟩, fun asked => ?_⟩
  have hafter : Source.feed.after (.steady rows channels) asked = .steady rows channels := by
    induction asked with
    | nil => rfl
    | cons d asked ih => exact ih
  rw [hafter]
  rfl

theorem Roster.exists_shows {sources : Keyed (Source α)}
    (h : ∀ entry ∈ sources, entry.2.Settled) : ∃ scenes, (ofSources sources).Shows scenes := by
  induction sources with
  | nil => exact ⟨[], .nil⟩
  | cons entry rest ih =>
    rw [List.forall_mem_cons] at h
    obtain ⟨scenes, hscenes⟩ := ih h.2
    obtain ⟨scene, hshows⟩ := h.1
    exact ⟨(entry.1, scene) :: scenes, .cons ⟨rfl, hshows⟩ hscenes⟩

namespace World

theorem slot?_run_of_ne {w : World α} {n : String} {steps : List (String × Deed α)}
    (h : ∀ step ∈ steps, step.2.target step.1 ≠ n) : (w.run steps).slot? n = w.slot? n := by
  induction steps generalizing w with
  | nil => rfl
  | cons step rest ih =>
    rw [List.forall_mem_cons] at h
    exact (ih h.2).trans (slot?_act_of_ne step.2 h.1)

/-- After `x` was duplicated into `y`, whatever is done to whichever slots: what is done to
others leaves a slot as it is; a series of deeds on `y` is answered as it would be on `x`;
slots with the same behind them since then, where `x` and `y` count as one, answer a deed
alike, with whatever else done in between.  And in every history two calls hand out one array
exactly if they are on one slot, and nothing done to it in between called for new rows; then
the rows are the same and no source is asked. -/
theorem duplicate_independent {sources : Keyed (Source α)}
    (hsettled : ∀ entry ∈ sources, entry.2.Settled) {before : List (String × Deed α)}
    {x y : String} (hx : ((start sources).run before).slot? x ≠ none) :
    let w := (start sources).run (before ++ [(x, .duplicate y)])
    (∀ later n, (∀ step ∈ later, step.2.target step.1 ≠ n) →
        (w.run later).slot? n = w.slot? n) ∧
      (∀ (deeds : List (Deed α)) d, (w.run (deeds.map fun d => (y, d))).account y d =
        (w.run (deeds.map fun d => (x, d))).account x d) ∧
      (∀ later later' n n', (w.lineage later n).Same x y (w.lineage later' n') →
        ∀ d, (w.run later).account n d = (w.run later').account n' d) ∧
      ∀ history n m p q between served later,
        let u := (start sources).run history
        let v := (u.act n (.correct p)).run between
        u.served? n p = some served → v.served? m q = some later →
          (later.identity = served.identity ↔
              m = n ∧ (u.act n (.correct p)).renewed n between = false) ∧
            (later.identity = served.identity →
              later = served ∧ (v.step (.correct m q)).2.requests = []) := by
  intro w
  obtain ⟨scenes, hscenes⟩ := Roster.exists_shows hsettled
  have hw : w.sources.Shows scenes := shows_run hscenes _
  obtain ⟨slot, hslot⟩ := Option.ne_none_iff_exists'.mp hx
  have hw_eq : w = ((start sources).run before).act x (.duplicate y) := run_append ..
  have hxy : w.state? y = w.state? x := by
    by_cases hyx : y = x
    · rw [hyx]
    · rw [hw_eq, state?_duplicate hslot, state?_act_of_ne (.duplicate y) hyx]
  refine ⟨fun later n h => slot?_run_of_ne h, fun deeds d => ?_,
    fun later later' n n' h d => ?_, ?_⟩
  · exact account_eq (shows_run hw _) (shows_run hw _) (state?_run hw hw hxy deeds) d
  · exact account_eq_of_same hw hxy.symm h d
  · intro history n m p q between served later u v hserved hlater
    have hsound : u.Sound := (sound_start sources).run history
    exact (served?_cases hserved).2.identity_eq_iff (hsound.act n (.correct p)) hlater

def slope : Keyed (Source (Sample ℚ)) :=
  [("slope", .steady (.ok [⟨.known 100, .known 0, .known 50⟩, ⟨.known 0, .known 100, .known 0⟩])
    (.ok (.node [.leaf (.known 299792458)])))]

def zenith : Value (Sample ℚ) := .list [.real (.known 0), .real (.known 0)]

def ascent : List (String × Deed (Sample ℚ)) :=
  [("x", .create (.dict [("w_tolerance", .real (.known 1))])), ("x", .associate (some "slope")),
    ("x", .correct zenith)]

theorem duplicate_independent_slope :
    let w := (start slope).run (ascent ++ [("x", .duplicate "y")])
    (w.run [("x", .notify)]).slot? "y" = w.slot? "y" ∧
      (∀ d, (w.run [("x", .notify)]).account "y" d = w.account "x" d) ∧
      ∃ served later, ((start slope).run (ascent.take 2)).served? "x" zenith = some served ∧
        (w.run [("y", .notify)]).served? "x" zenith = some later ∧
        later = served ∧ ((w.run [("y", .notify)]).step (.correct "x" zenith)).2.requests = [] := by
  have hsettled : ∀ entry ∈ slope, entry.2.Settled := by
    simp [slope, Source.settled_steady]
  have hx : ((start slope).run ascent).slot? "x" ≠ none := by
    rw [← Option.isSome_iff_ne_none]
    decide +kernel
  obtain ⟨hframe, -, hlineage, harrays⟩ := duplicate_independent hsettled (y := "y") hx
  have hsame : (((start slope).run (ascent ++ [("x", .duplicate "y")])).lineage [("x", .notify)]
      "y").Same "x" "y" (((start slope).run (ascent ++ [("x", .duplicate "y")])).lineage [] "x") :=
    ⟨rfl, .inr ⟨by decide, by decide⟩⟩
  obtain ⟨served, hserved⟩ := Option.isSome_iff_exists.mp (by decide +kernel :
    (((start slope).run (ascent.take 2)).served? "x" zenith).isSome = true)
  obtain ⟨later, hlater⟩ := Option.isSome_iff_exists.mp (by decide +kernel :
    ((((start slope).run (ascent ++ [("x", .duplicate "y")])).run [("y", .notify)]).served? "x"
      zenith).isSome = true)
  obtain ⟨hidentity, hagain⟩ := harrays (ascent.take 2) "x" "x" zenith zenith
    [("x", .duplicate "y"), ("y", .notify)] served later hserved hlater
  exact ⟨hframe [("x", .notify)] "y" (by decide), hlineage [("x", .notify)] [] "y" "x" hsame,
    served, later, hserved, hlater, hagain (hidentity.mpr ⟨rfl, rfl⟩)⟩

end World

end Coplanar
