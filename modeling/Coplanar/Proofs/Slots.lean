import Coplanar.Proofs.Recomputation
import Coplanar.World

/-! Correctors by name, and which array objects they hand out.  Arrays are numbered as they
are made; what a corrector has at hand it made itself, or it was made for it when it was
duplicated, so no two ever hold the same one. -/
namespace Coplanar

variable {α : Type}

theorem Corrector.correctedRows_of_current? {ι σ : Type} [Trig α] {c : Corrector ι α}
    {served : Served α} (h : c.current? = some served) (feeds : ι → Feed σ α)
    (tangentPoint : Except (Fault α) (Direction α)) (identity : Nat) (s : σ) :
    (c.correctedRows feeds tangentPoint identity s).sources = s ∧
      ∀ other, (c.correctedRows feeds tangentPoint identity s).result = .ok other →
        other = served := by
  cases tangentPoint with
  | error fault => exact ⟨rfl, nofun⟩
  | ok d =>
    dsimp only [correctedRows, rowsToward]
    cases c.accepts d with
    | false => exact ⟨rfl, nofun⟩
    | true =>
      rw [h]
      exact ⟨rfl, fun _ hresult => (Except.ok.inj hresult).symm⟩

theorem Roster.requests_unasked (r : Roster α) : r.unasked.requests = [] := by
  simp [requests, unasked, List.filterMap_map]

inductive Deed (α : Type) where
  | create (parameters : Value α)
  | associate (source : Option String)
  | notify
  | correct (tangentPoint : Value α)
  | duplicate (target : String)

namespace Deed

def on (slot : String) : Deed α → Command α
  | .create parameters => .create slot parameters
  | .associate source => .associate slot source
  | .notify => .notify slot
  | .correct tangentPoint => .correct slot tangentPoint
  | .duplicate target => .duplicate slot target

def target (slot : String) : Deed α → String
  | .duplicate target => target
  | _ => slot

end Deed

namespace World

def corrector? (w : World α) (n : String) : Option (Corrector String α) :=
  (w.slot? n).map Slot.corrector

@[simp] theorem slot?_putSlot_self (w : World α) (n : String) (slot : Slot α) :
    (w.putSlot n slot).slot? n = some slot := Keyed.get?_put_self ..

theorem slot?_putSlot_of_ne (w : World α) {m n : String} (slot : Slot α) (h : m ≠ n) :
    (w.putSlot m slot).slot? n = w.slot? n := Keyed.get?_put_of_ne _ _ h

@[simp] theorem slot?_without_self (w : World α) (n : String) : (w.without n).slot? n = none :=
  Keyed.get?_erase_self ..

theorem slot?_without_of_ne (w : World α) {m n : String} (h : m ≠ n) :
    (w.without m).slot? n = w.slot? n := Keyed.get?_erase_of_ne _ h

section Steps

variable {w : World α} {s : String} {slot : Slot α}

/-- The source is there, or it is none. -/
def knows (w : World α) (source : Option String) : Bool :=
  source.all fun name => (w.sources.get? name).isSome

theorem update_of_some (h : w.slot? s = some slot) (f : Corrector String α → Corrector String α) :
    w.update s f =
      (w.putSlot s { slot with corrector := f slot.corrector }, { response := .done }) := by
  simp [update, h]

theorem update_of_none (h : w.slot? s = none) (f : Corrector String α → Corrector String α) :
    w.update s f = (w, { response := .skipped }) := by
  simp [update, h]

theorem associate_of_knows {source : Option String} (h : w.knows source = true) :
    w.associate s source = w.update s (·.associate source) := by
  cases source with
  | none => rfl
  | some name =>
    obtain ⟨x, hx⟩ := Option.isSome_iff_exists.mp h
    cases hslot : w.slot? s <;> simp [associate, hx, hslot]

theorem associate_of_not_knows {source : Option String} (h : w.knows source = false)
    (hslot : w.slot? s = some slot) :
    w.associate s source = (w, { response := .refused .unknownName }) := by
  cases source with
  | none => cases h
  | some name =>
    have hnone : w.sources.get? name = none := by simpa [knows] using h
    simp [associate, hnone, hslot]

theorem associate_of_none (h : w.slot? s = none) (source : Option String) :
    w.associate s source = (w, { response := .skipped }) := by
  cases source with
  | none => exact update_of_none h (·.associate none)
  | some name => simp [associate, h, update_of_none h]

theorem duplicate_of_some (h : w.slot? s = some slot) (target : String) :
    w.duplicate s target =
      ({ w.putSlot target ⟨slot.corrector.duplicate w.fresh, slot.parameters, none⟩ with
          fresh := w.fresh + 1 }, { response := .done }) := by
  simp [duplicate, h]

theorem duplicate_of_none (h : w.slot? s = none) (target : String) :
    w.duplicate s target = (w, { response := .skipped }) := by
  simp [duplicate, h]

end Steps

section Arrays

variable {w : World α} {n s : String}

/-- What the slot handed out it will not hand out again. -/
def renews (w : World α) (n s : String) : Deed α → Bool
  | .create _ => s = n
  | .associate source => s = n && w.knows source
  | .notify => s = n
  | .correct _ => false
  | .duplicate target => target = n && (w.slot? s).isSome

theorem target_eq_of_renews {d : Deed α} (h : w.renews n s d = true) : d.target s = n := by
  cases d <;> simp_all [renews, Deed.target]

def Holds (w : World α) (n : String) (c : Corrector String α) (served : Served α) : Prop :=
  w.corrector? n = some c ∧ c.cache = some served

/-- Arrays are numbered as they are made, and each is at one slot only. -/
structure Sound (w : World α) : Prop where
  identity_lt : ∀ n c served, w.Holds n c served → served.identity < w.fresh
  apart : ∀ n n' c c' served served', w.Holds n c served → w.Holds n' c' served' →
    served.identity = served'.identity → n = n'

theorem sound_start (sources : Keyed (Source α)) : (start sources).Sound where
  identity_lt _ _ _ h := nomatch h.1
  apart _ _ _ _ _ _ h := nomatch h.1

def Offers (w : World α) (n : String) (served : Served α) : Prop :=
  ∃ c, w.corrector? n = some c ∧ c.current? = some served

theorem Offers.holds {served : Served α} (h : w.Offers n served) :
    ∃ c, w.Holds n c served ∧ served.epoch = c.epoch.source := by
  obtain ⟨c, hc, hcurrent⟩ := h
  obtain ⟨hcache, hepoch⟩ := (c.current?_eq_some_iff served).mp hcurrent
  exact ⟨c, ⟨hc, hcache⟩, hepoch⟩

structure Spent (w : World α) (identity : Nat) : Prop where
  lt_fresh : identity < w.fresh
  outdated : ∀ n c served, w.Holds n c served → served.identity = identity →
    served.epoch < c.epoch.source

end Arrays

variable [Quantity α] {w : World α} {n s : String}

def act (w : World α) (s : String) (d : Deed α) : World α := (w.step (d.on s)).1

def run (w : World α) (steps : List (String × Deed α)) : World α :=
  steps.foldl (fun w step => w.act step.1 step.2) w

theorem run_append (w : World α) (steps rest : List (String × Deed α)) :
    w.run (steps ++ rest) = (w.run steps).run rest := List.foldl_append

def reply (w : World α) (slot : Slot α) (p : Value α) : Reply String (Roster α) α :=
  slot.corrector.correctedRows Roster.feed (Direction.ofValue p) w.fresh w.sources.unasked

def answer (w : World α) (slot : Slot α) (p : Value α) : Answer α where
  response :=
    match (w.reply slot p).result with
    | .error fault => .refused fault
    | .ok served => .rows served (w.holders served.identity)
  messages := Message.ofNotes slot.corrector.settings.verbose slot.corrector.settings.interval
    (w.reply slot p).notes
  requests := (w.reply slot p).sources.requests

def afterwards (w : World α) (slot : Slot α) (p : Value α) : Slot α where
  corrector := (w.reply slot p).corrector
  parameters := slot.parameters
  returned := ((w.reply slot p).result.toOption.map Served.identity).or slot.returned

section Calls

variable {slot : Slot α}

theorem step_correct (h : w.slot? s = some slot) (p : Value α) :
    w.step (.correct s p) =
      ({ w with sources := (w.reply slot p).sources, fresh := w.fresh + 1 }.putSlot s
        (w.afterwards slot p), w.answer slot p) := by
  simp only [step, correct, h, answer, afterwards, reply]
  cases (slot.corrector.correctedRows Roster.feed (Direction.ofValue p) w.fresh
    w.sources.unasked).result <;> rfl

theorem step_correct_of_none (h : w.slot? s = none) (p : Value α) :
    w.step (.correct s p) = (w, { response := .skipped }) := by
  simp [step, correct, h]

/-- What a deed leaves alone: the slots other than its target, and the sources but for what
they are asked. -/
structure Frame (w : World α) (target : String) (next : World α) : Prop where
  slots : ∀ n, target ≠ n → next.slot? n = w.slot? n
  fresh : w.fresh ≤ next.fresh
  sources : next.sources = w.sources ∨ ∃ slot p, next.sources = (w.reply slot p).sources

theorem Frame.refl (w : World α) (target : String) : w.Frame target w :=
  ⟨fun _ _ => rfl, Nat.le_refl w.fresh, .inl rfl⟩

theorem frame_putSlot (w : World α) (target : String) (slot : Slot α) :
    w.Frame target (w.putSlot target slot) :=
  ⟨fun _ h => slot?_putSlot_of_ne w slot h, Nat.le_refl w.fresh, .inl rfl⟩

theorem frame_update (w : World α) (s : String) (f : Corrector String α → Corrector String α) :
    w.Frame s (w.update s f).1 := by
  cases hslot : w.slot? s with
  | none =>
    rw [update_of_none hslot]
    exact .refl w s
  | some slot =>
    rw [update_of_some hslot]
    exact w.frame_putSlot s _

theorem frame_act (w : World α) (s : String) (d : Deed α) :
    w.Frame (d.target s) (w.act s d) := by
  cases d with
  | create parameters =>
    simp only [act, Deed.on, step, create]
    split
    · exact ⟨fun _ h => slot?_without_of_ne w h, Nat.le_refl w.fresh, .inl rfl⟩
    · exact ⟨fun _ h => (slot?_putSlot_of_ne _ _ h).trans (slot?_without_of_ne w h),
        Nat.le_refl w.fresh, .inl rfl⟩
  | associate source =>
    rw [act, Deed.on, step]
    cases hknows : w.knows source with
    | true =>
      rw [associate_of_knows hknows]
      exact w.frame_update s _
    | false =>
      cases hslot : w.slot? s with
      | none =>
        rw [associate_of_none hslot]
        exact .refl w s
      | some slot =>
        rw [associate_of_not_knows hknows hslot]
        exact .refl w s
  | notify => exact w.frame_update s _
  | correct p =>
    rw [act, Deed.on]
    cases hslot : w.slot? s with
    | none =>
      rw [step_correct_of_none hslot]
      exact .refl w s
    | some slot =>
      rw [step_correct hslot]
      exact ⟨fun _ h => slot?_putSlot_of_ne _ _ h, Nat.le_succ w.fresh, .inr ⟨slot, p, rfl⟩⟩
  | duplicate target =>
    rw [act, Deed.on, step]
    cases hslot : w.slot? s with
    | none =>
      rw [duplicate_of_none hslot]
      exact .refl w target
    | some slot =>
      rw [duplicate_of_some hslot]
      exact ⟨fun _ h => slot?_putSlot_of_ne w _ h, Nat.le_succ w.fresh, .inl rfl⟩

theorem slot?_act_of_ne (d : Deed α) (h : d.target s ≠ n) :
    (w.act s d).slot? n = w.slot? n := (w.frame_act s d).slots n h

end Calls

def served? (w : World α) (n : String) (p : Value α) : Option (Served α) :=
  match (w.step (.correct n p)).2.response with
  | .rows served _ => some served
  | _ => none

theorem exists_of_served? {p : Value α} {served : Served α} (h : w.served? n p = some served) :
    ∃ slot, w.slot? n = some slot ∧ (w.reply slot p).result = .ok served := by
  unfold served? at h
  cases hslot : w.slot? n with
  | none =>
    rw [step_correct_of_none hslot] at h
    cases h
  | some slot =>
    rw [step_correct hslot, answer] at h
    refine ⟨slot, rfl, ?_⟩
    cases hresult : (w.reply slot p).result with
    | error fault =>
      rw [hresult] at h
      cases h
    | ok other =>
      rw [hresult] at h
      exact congrArg _ (Option.some.inj h)

def renewed (w : World α) (n : String) : List (String × Deed α) → Bool
  | [] => false
  | step :: rest => w.renews n step.1 step.2 || (w.act step.1 step.2).renewed n rest

inductive Change (w : World α) (s : String) (d : Deed α) : Option (Corrector String α) → Prop where
  | idle (hrenews : w.renews (d.target s) s d = false) : Change w s d (w.corrector? (d.target s))
  | cleared (after : Option (Corrector String α)) (hrenews : w.renews (d.target s) s d = true)
    (hempty : ∀ c, after = some c → c.cache = none) : Change w s d after
  | announced (c after : Corrector String α) (hrenews : w.renews (d.target s) s d = true)
    (hbefore : w.corrector? (d.target s) = some c) (hcache : after.cache = c.cache)
    (hepoch : after.epoch.source = c.epoch.source + 1) : Change w s d (some after)
  /-- With nothing at hand, rows may have been computed anew. -/
  | worked (c after : Corrector String α) (hrenews : w.renews (d.target s) s d = false)
    (hbefore : w.corrector? (d.target s) = some c) (houtdated : c.current? = none)
    (hcache : after.cache = c.cache ∨ ∃ served, after.cache = some served ∧
      served.identity = w.fresh)
    (hepoch : after.epoch.source = c.epoch.source) (hfresh : w.fresh < (w.act s d).fresh) :
    Change w s d (some after)
  | copied (c : Corrector String α) (hrenews : w.renews (d.target s) s d = true)
    (hfresh : w.fresh < (w.act s d).fresh) : Change w s d (some (c.duplicate w.fresh))

theorem change_of_update {d : Deed α} {f : Corrector String α → Corrector String α}
    (hact : w.act s d = (w.update s f).1) (htarget : d.target s = s)
    (hrenews : w.renews s s d = true) (hcache : ∀ c, (f c).cache = c.cache)
    (hepoch : ∀ c, (f c).epoch.source = c.epoch.source + 1) :
    w.Change s d ((w.act s d).corrector? s) := by
  rw [hact]
  cases hslot : w.slot? s with
  | none =>
    rw [update_of_none hslot]
    exact .cleared _ (htarget.symm ▸ hrenews) (by simp [corrector?, hslot])
  | some slot =>
    have hafter : (w.update s f).1.corrector? s = some (f slot.corrector) := by
      rw [update_of_some hslot]
      simp [corrector?]
    rw [hafter]
    exact .announced slot.corrector _ (htarget.symm ▸ hrenews)
      (by rw [htarget]; simp [corrector?, hslot]) (hcache _) (hepoch _)

theorem exists_course {slot : Slot α} (h : w.slot? s = some slot) (p : Value α) :
    ∃ result after renewal, (w.reply slot p).result = result ∧
      (w.act s (.correct p)).corrector? s = some after ∧
      slot.corrector.Course Roster.feed (Direction.ofValue p) w.fresh w.sources.unasked
        result after renewal := by
  refine ⟨_, _, _, rfl, ?_, slot.corrector.course Roster.feed (Direction.ofValue p) w.fresh
    w.sources.unasked⟩
  rw [act, Deed.on, step_correct h]
  simp [corrector?, afterwards, reply]

theorem change_correct (w : World α) (s : String) (p : Value α) :
    w.Change s (.correct p) ((w.act s (.correct p)).corrector? s) := by
  have hrenews : w.renews s s (.correct p) = false := rfl
  cases hslot : w.slot? s with
  | none =>
    have hact : w.act s (.correct p) = w := by rw [act, Deed.on, step_correct_of_none hslot]
    rw [hact]
    exact .idle hrenews
  | some slot =>
    have hbefore : w.corrector? s = some slot.corrector := by simp [corrector?, hslot]
    have hfresh : w.fresh < (w.act s (.correct p)).fresh := by
      rw [act, Deed.on, step_correct hslot]
      exact Nat.lt_succ_self w.fresh
    obtain ⟨result, after, renewal, -, hafter, hcourse⟩ := exists_course hslot p
    rw [hafter]
    cases hcourse with
    | refused => exact hbefore ▸ .idle hrenews
    | answered => exact hbefore ▸ .idle hrenews
    | undecided d source rows tolerance next fault hpoint hfetch =>
      exact .worked slot.corrector _ hrenews hbefore hfetch.outdated (.inl rfl) rfl hfresh
    | exceeded d source rows tolerance next v hdecides =>
      exact .worked slot.corrector _ hrenews hbefore hdecides.fetches.outdated
        (.inl (slot.corrector.adopt_cache d tolerance v))
        (slot.corrector.adopt_epoch_source d tolerance v) hfresh
    | renewed d source rows tolerance next v hdecides =>
      exact .worked slot.corrector _ hrenews hbefore hdecides.fetches.outdated
        (.inr ⟨_, rfl, rfl⟩) (slot.corrector.adopt_epoch_source d tolerance v) hfresh

theorem change (w : World α) (s : String) (d : Deed α) :
    w.Change s d ((w.act s d).corrector? (d.target s)) := by
  cases d with
  | create parameters =>
    refine .cleared _ (by simp [renews, Deed.target]) ?_
    simp only [act, Deed.on, step, create, Deed.target]
    cases (Settings.ofParameters parameters).result with
    | error fault => simp [corrector?]
    | ok settings => simp [corrector?, Corrector.create]
  | associate source =>
    cases hknows : w.knows source with
    | true =>
      have hact : w.act s (.associate source) = (w.update s (·.associate source)).1 := by
        rw [act, Deed.on, step, associate_of_knows hknows]
      exact change_of_update hact rfl (by simp [renews, hknows]) (fun _ => rfl) fun _ => rfl
    | false =>
      have hact : w.act s (.associate source) = w := by
        cases hslot : w.slot? s with
        | none => rw [act, Deed.on, step, associate_of_none hslot]
        | some slot => rw [act, Deed.on, step, associate_of_not_knows hknows hslot]
      rw [hact]
      exact .idle (by simp [renews, hknows])
  | notify =>
    exact change_of_update rfl rfl (by simp [renews]) (fun _ => rfl) fun _ => rfl
  | correct p => exact w.change_correct s p
  | duplicate target =>
    cases hslot : w.slot? s with
    | none =>
      have hact : w.act s (.duplicate target) = w := by
        rw [act, Deed.on, step, duplicate_of_none hslot]
      rw [hact]
      exact .idle (by simp [renews, hslot])
    | some slot =>
      have hafter : (w.act s (.duplicate target)).corrector? target =
          some (slot.corrector.duplicate w.fresh) := by
        rw [act, Deed.on, step, duplicate_of_some hslot]
        simp [corrector?, putSlot, slot?]
      change w.Change s _ ((w.act s (.duplicate target)).corrector? target)
      rw [hafter]
      refine .copied slot.corrector (by simp [renews, hslot, Deed.target]) ?_
      rw [act, Deed.on, step, duplicate_of_some hslot]
      exact Nat.lt_succ_self w.fresh

theorem corrector?_act_of_ne (d : Deed α) (h : d.target s ≠ n) :
    (w.act s d).corrector? n = w.corrector? n := by
  rw [corrector?, slot?_act_of_ne d h, corrector?]

theorem holds_act {d : Deed α} {after : Corrector String α} {served : Served α}
    (h : (w.act s d).Holds n after served) :
    (∃ c, w.Holds n c served ∧ c.epoch.source ≤ after.epoch.source ∧
        (w.renews n s d = true → c.epoch.source < after.epoch.source)) ∨
      served.identity = w.fresh ∧ d.target s = n ∧ w.fresh < (w.act s d).fresh := by
  obtain ⟨hafter, hheld⟩ := h
  by_cases htarget : d.target s = n
  · subst htarget
    have hchange := w.change s d
    rw [hafter] at hchange
    generalize hfinal : some after = final at hchange
    cases hchange with
    | idle hrenews => exact .inl ⟨after, ⟨hfinal.symm, hheld⟩, Int.le_refl _, by simp [hrenews]⟩
    | cleared _ _ hempty =>
      rw [hempty after hfinal.symm] at hheld
      cases hheld
    | announced c _ _ hbefore hcache hepoch =>
      cases hfinal
      exact .inl ⟨c, ⟨hbefore, hcache ▸ hheld⟩, by omega, fun _ => by omega⟩
    | worked c _ hrenews hbefore _ hcache hepoch hfresh =>
      cases hfinal
      obtain hcache | ⟨new, hnew, hidentity⟩ := hcache
      · exact .inl ⟨c, ⟨hbefore, hcache ▸ hheld⟩, Int.le_of_eq hepoch.symm, by simp [hrenews]⟩
      · cases hheld.symm.trans hnew
        exact .inr ⟨hidentity, rfl, hfresh⟩
    | copied c _ hfresh =>
      cases hfinal
      obtain ⟨original, -, rfl⟩ := Option.map_eq_some_iff.mp hheld
      exact .inr ⟨rfl, rfl, hfresh⟩
  · refine .inl ⟨after, ⟨corrector?_act_of_ne d htarget ▸ hafter, hheld⟩, Int.le_refl _, ?_⟩
    exact fun hrenews => absurd (target_eq_of_renews hrenews) htarget

theorem Sound.act (h : w.Sound) (s : String) (d : Deed α) : (w.act s d).Sound where
  identity_lt n c served hholds := by
    obtain ⟨before, hbefore, -⟩ | ⟨hidentity, -, hfresh⟩ := holds_act hholds
    · exact Nat.lt_of_lt_of_le (h.identity_lt n before served hbefore) (w.frame_act s d).fresh
    · exact hidentity ▸ hfresh
  apart n n' c c' served served' hholds hholds' heq := by
    obtain ⟨before, hbefore, -⟩ | ⟨hidentity, htarget, -⟩ := holds_act hholds <;>
      obtain ⟨before', hbefore', -⟩ | ⟨hidentity', htarget', -⟩ := holds_act hholds'
    · exact h.apart n n' before before' served served' hbefore hbefore' heq
    · have hlt := h.identity_lt n before served hbefore
      omega
    · have hlt := h.identity_lt n' before' served' hbefore'
      omega
    · exact htarget.symm.trans htarget'

theorem Sound.run (h : w.Sound) (steps : List (String × Deed α)) : (w.run steps).Sound := by
  induction steps generalizing w with
  | nil => exact h
  | cons step rest ih => exact ih (h.act step.1 step.2)

theorem Spent.act {identity : Nat} (h : w.Spent identity) (s : String) (d : Deed α) :
    (w.act s d).Spent identity where
  lt_fresh := Nat.lt_of_lt_of_le h.lt_fresh (w.frame_act s d).fresh
  outdated n c served hholds heq := by
    obtain ⟨before, hbefore, hle, -⟩ | ⟨hidentity, -⟩ := holds_act hholds
    · exact Int.lt_of_lt_of_le (h.outdated n before served hbefore heq) hle
    · have hlt := h.lt_fresh
      omega

theorem Spent.run {identity : Nat} (h : w.Spent identity) (steps : List (String × Deed α)) :
    (w.run steps).Spent identity := by
  induction steps generalizing w with
  | nil => exact h
  | cons step rest ih => exact ih (h.act step.1 step.2)

section Offers

variable {served : Served α}

theorem Offers.act (h : w.Offers n served) {d : Deed α} (hrenews : w.renews n s d = false) :
    (w.act s d).Offers n served := by
  obtain ⟨c, hc, hcurrent⟩ := h
  by_cases htarget : d.target s = n
  · subst htarget
    have hchange := w.change s d
    generalize hfinal : (w.act s d).corrector? (d.target s) = final at hchange
    cases hchange with
    | idle => exact ⟨c, hfinal.trans hc, hcurrent⟩
    | worked before _ _ hbefore houtdated =>
      cases hc.symm.trans hbefore
      cases hcurrent.symm.trans houtdated
    | cleared _ htrue => cases hrenews.symm.trans htrue
    | announced _ _ htrue => cases hrenews.symm.trans htrue
    | copied _ htrue => cases hrenews.symm.trans htrue
  · exact ⟨c, (corrector?_act_of_ne d htarget).trans hc, hcurrent⟩

theorem Offers.spent (h : w.Offers n served) (hsound : w.Sound) {d : Deed α}
    (hrenews : w.renews n s d = true) : (w.act s d).Spent served.identity := by
  obtain ⟨c, hholds, hepoch⟩ := h.holds
  have hlt := hsound.identity_lt n c served hholds
  refine ⟨Nat.lt_of_lt_of_le hlt (w.frame_act s d).fresh, fun m after other hafter heq => ?_⟩
  -- Where the array still is it was before, which is this slot, and the epoch has moved on.
  obtain ⟨before, hbefore, -, hstrict⟩ | ⟨hidentity, -⟩ := holds_act hafter
  · obtain rfl := hsound.apart m n before c other served hbefore hholds heq
    obtain rfl : before = c := Option.some.inj (hbefore.1.symm.trans hholds.1)
    obtain rfl : other = served := Option.some.inj (hbefore.2.symm.trans hholds.2)
    exact hepoch ▸ hstrict hrenews
  · omega

/-- What a slot offers it goes on offering until it is renewed; then no slot ever does. -/
theorem Offers.run (h : w.Offers n served) (hsound : w.Sound) (steps : List (String × Deed α)) :
    (w.renewed n steps = false → (w.run steps).Offers n served) ∧
      (w.renewed n steps = true → (w.run steps).Spent served.identity) := by
  induction steps generalizing w with
  | nil => exact ⟨fun _ => h, nofun⟩
  | cons step rest ih =>
    cases hrenews : w.renews n step.1 step.2 with
    | true =>
      simp only [renewed, hrenews, Bool.true_or, reduceCtorEq, false_implies, true_implies,
        true_and]
      exact (h.spent hsound hrenews).run rest
    | false =>
      simp only [renewed, hrenews, Bool.false_or]
      exact ih (h.act hrenews) (hsound.act step.1 step.2)

end Offers

section Served

variable {served : Served α} {p : Value α}

theorem served?_of_offers {other : Served α} (hoffers : w.Offers n served)
    (h : w.served? n p = some other) :
    other = served ∧ (w.step (.correct n p)).2.requests = [] := by
  obtain ⟨slot, hslot, hresult⟩ := exists_of_served? h
  obtain ⟨c, hc, hcurrent⟩ := hoffers
  obtain rfl : slot.corrector = c := by simpa [corrector?, hslot] using hc
  obtain ⟨hsources, hserved⟩ := Corrector.correctedRows_of_current? hcurrent Roster.feed
    (Direction.ofValue p) w.fresh w.sources.unasked
  refine ⟨hserved other hresult, ?_⟩
  rw [step_correct hslot, answer, reply, hsources, Roster.requests_unasked]

theorem served?_cases (h : w.served? n p = some served) :
    (w.Offers n served ∨ served.identity = w.fresh) ∧
      (w.act n (.correct p)).Offers n served := by
  obtain ⟨slot, hslot, hserved⟩ := exists_of_served? h
  have hbefore : w.corrector? n = some slot.corrector := by simp [corrector?, hslot]
  obtain ⟨result, after, renewal, hresult, hafter, hcourse⟩ := exists_course hslot p
  obtain rfl : result = .ok served := hresult.symm.trans hserved
  cases hcourse with
  | answered _ hcurrent => exact ⟨.inl ⟨_, hbefore, hcurrent⟩, _, hafter, hcurrent⟩
  | renewed d source rows tolerance next v =>
    refine ⟨.inr rfl, _, hafter, ?_⟩
    simp [Corrector.current?, Corrector.serving, Option.filter]

theorem Spent.identity_ne {identity : Nat} (hspent : w.Spent identity)
    (h : w.served? n p = some served) : served.identity ≠ identity := by
  intro heq
  obtain ⟨hoffers | hnew, -⟩ := served?_cases h
  · obtain ⟨c, hholds, hepoch⟩ := hoffers.holds
    have hlt := hspent.outdated n c served hholds heq
    omega
  · have hlt := hspent.lt_fresh
    omega

theorem Offers.eq_of_identity_eq {m : String} {other : Served α} (hoffers : w.Offers n served)
    (hsound : w.Sound) (h : w.served? m p = some other)
    (heq : other.identity = served.identity) : m = n := by
  obtain ⟨c, hholds, -⟩ := hoffers.holds
  obtain ⟨hother | hnew, -⟩ := served?_cases h
  · obtain ⟨c', hholds', -⟩ := hother.holds
    exact hsound.apart m n c' c other served hholds' hholds heq
  · have hlt := hsound.identity_lt n c served hholds
    omega

/-- What was offered is handed out again by the slot that offered it, as long as nothing
renews the slot, and by no other.  Then no source is asked. -/
theorem Offers.identity_eq_iff {m : String} {later : Served α} (hoffers : w.Offers n served)
    (hsound : w.Sound) {between : List (String × Deed α)}
    (h : (w.run between).served? m p = some later) :
    (later.identity = served.identity ↔ m = n ∧ w.renewed n between = false) ∧
      (later.identity = served.identity →
        later = served ∧ ((w.run between).step (.correct m p)).2.requests = []) := by
  obtain ⟨hkeeps, hspends⟩ := hoffers.run hsound between
  cases hrenewed : w.renewed n between with
  | true =>
    have hne := (hspends hrenewed).identity_ne h
    exact ⟨iff_of_false hne (by simp), fun heq => absurd heq hne⟩
  | false =>
    have hstill := hkeeps hrenewed
    have hslot := hstill.eq_of_identity_eq (hsound.run between) h
    refine ⟨⟨fun heq => ⟨hslot heq, rfl⟩, ?_⟩, fun heq => ?_⟩
    · rintro ⟨rfl, -⟩
      exact congrArg Served.identity (served?_of_offers hstill h).1
    · obtain rfl := hslot heq
      exact served?_of_offers hstill h

end Served

end World

end Coplanar
