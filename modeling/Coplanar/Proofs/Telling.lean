import Coplanar.Proofs.Run
import Coplanar.Proofs.Scene

/-! Runs told by what the sources show.  Where the answers of the sources depend on the
tangent point alone, a run is the same as one on sources that are nothing but their answers,
and two runs can be compared although their sources have been asked different questions. -/
namespace Coplanar

variable {ι σ α : Type}

def sceneFeed (i : ι) : Feed (ι → Scene α) α where
  rows d scenes := ((scenes i).rows d, scenes)
  channels scenes := (scenes i).channels

theorem shows_sceneFeed (i : ι) (scenes : ι → Scene α) :
    (sceneFeed i).Shows (scenes i) scenes := by
  intro asked
  have hafter : (sceneFeed i).after scenes asked = scenes := by
    induction asked with
    | nil => rfl
    | cons d asked ih => exact ih
  rw [hafter]
  rfl

namespace Moment

def told (feeds : ι → Feed σ α) (m : Moment ι σ α) : Moment ι (ι → Scene α) α :=
  ⟨m.call, fun i => (feeds i).scene m.sources⟩

def Settled (feeds : ι → Feed σ α) (m : Moment ι σ α) : Prop :=
  ∀ i, (feeds i).Shows ((feeds i).scene m.sources) m.sources

def Announces (m : Moment ι σ α) : Prop :=
  (∃ source, m.call = .associate source) ∨ m.call = .notify

/-- From one call to the next the sources show the same, unless one of the two announces a
change. -/
def Steady (m m' : Moment ι (ι → Scene α) α) : Prop :=
  m.Announces ∨ m'.Announces ∨ m.sources = m'.sources

end Moment

namespace Corrector

variable [Trig α]

theorem correctedRows_of_current {c : Corrector ι α} {d : Direction α} {served : Served α}
    (haccepts : c.accepts d = true) (hcurrent : c.current? = some served) (feeds : ι → Feed σ α)
    (identity : Nat) (s : σ) :
    c.correctedRows feeds (.ok d) identity s = ⟨.ok served, c, [], s⟩ := by
  simp [correctedRows, rowsToward, haccepts, hcurrent]

theorem correctedRows_of_noSource {c : Corrector ι α} {d : Direction α}
    (haccepts : c.accepts d = true) (hcurrent : c.current? = none) (hsource : c.source = none)
    (feeds : ι → Feed σ α) (identity : Nat) (s : σ) :
    c.correctedRows feeds (.ok d) identity s = ⟨.error .noSource, c, [], s⟩ := by
  simp [correctedRows, rowsToward, haccepts, hcurrent, hsource]

theorem correctedRows_told (c : Corrector ι α) {feeds : ι → Feed σ α} {m : Moment ι σ α}
    (hsettled : m.Settled feeds) (tangentPoint : Except (Fault α) (Direction α)) (identity : Nat) :
    let reply := c.correctedRows feeds tangentPoint identity m.sources
    let told := c.correctedRows sceneFeed tangentPoint identity (m.told feeds).sources
    reply.result = told.result ∧ reply.corrector = told.corrector := by
  cases tangentPoint with
  | error fault => exact ⟨rfl, rfl⟩
  | ok d =>
    cases haccepts : c.accepts d with
    | false => simp [correctedRows, rowsToward, haccepts]
    | true =>
      cases hcurrent : c.current? with
      | some served =>
        rw [correctedRows_of_current haccepts hcurrent, correctedRows_of_current haccepts hcurrent]
        exact ⟨rfl, rfl⟩
      | none =>
        cases hsource : c.source with
        | none =>
          rw [correctedRows_of_noSource haccepts hcurrent hsource,
            correctedRows_of_noSource haccepts hcurrent hsource]
          exact ⟨rfl, rfl⟩
        | some source =>
          have hreply := correctedRows_of_shows haccepts hcurrent hsource (hsettled source) identity
          have htold := correctedRows_of_shows haccepts hcurrent hsource
            (shows_sceneFeed source (m.told feeds).sources) identity
          exact ⟨hreply.1.trans htold.1.symm, hreply.2.trans htold.2.symm⟩

theorem next_told (c : Corrector ι α) {feeds : ι → Feed σ α} {m : Moment ι σ α}
    (hsettled : m.Settled feeds) : c.next feeds m = c.next sceneFeed (m.told feeds) := by
  obtain ⟨call, s⟩ := m
  cases call with
  | correct tangentPoint identity => exact (c.correctedRows_told hsettled tangentPoint identity).2
  | _ => rfl

theorem run_told (c : Corrector ι α) {feeds : ι → Feed σ α} {moments : List (Moment ι σ α)}
    (hsettled : ∀ m ∈ moments, m.Settled feeds) :
    c.run feeds moments = c.run sceneFeed (moments.map (Moment.told feeds)) := by
  induction moments generalizing c with
  | nil => rfl
  | cons m rest ih =>
    rw [List.forall_mem_cons] at hsettled
    rw [List.map_cons, run_cons, run_cons, next_told c hsettled.1, ih _ hsettled.2]

end Corrector

end Coplanar
