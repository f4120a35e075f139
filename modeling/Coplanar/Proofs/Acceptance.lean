import Mathlib.Data.List.Nodup
import Coplanar.Direction
import Coplanar.Parameter.Settings

/-! What becomes of a parameter dictionary that is accepted.  The checks fill in the
entries that are absent, the conversions bring some entries to one type, and all others
stay as they were given. -/
namespace Coplanar

variable {α : Type}

theorem Checked.bind_eq_ok {β γ : Type} {c : Checked α β} {next : β → Value α → Checked α γ} {y : γ}
    (h : (c.bind next).result = .ok y) :
    ∃ x, c.result = .ok x ∧ (next x c.parameters).result = .ok y ∧
      (c.bind next).parameters = (next x c.parameters).parameters := by
  unfold Checked.bind at h ⊢
  cases hresult : c.result with
  | error fault => simp [hresult] at h
  | ok x =>
    rw [hresult] at h
    exact ⟨x, rfl, h, rfl⟩

variable {parameters v : Value α} {entries : Dict α} {key : String}

namespace Value

theorem hasEntry_dict [Numeral α] (entries : Dict α) (key : String) :
    (Value.dict entries).hasEntry key = .ok (entries.get? key).isSome := rfl

theorem entry_eq_ok (h : parameters.entry key = .ok v) :
    ∃ entries, parameters = .dict entries ∧ Keyed.get? entries key = some v := by
  unfold entry at h
  split at h
  · rename_i entries
    split at h
    · rename_i hentry
      cases h
      exact ⟨entries, rfl, hentry⟩
    · cases h
  · cases h
  · cases h

theorem setEntry_eq_ok {filled : Value α} (h : parameters.setEntry key v = .ok filled) :
    ∃ entries, parameters = .dict entries ∧ filled = .dict (Keyed.put entries key v) := by
  unfold setEntry at h
  split at h
  · cases h
    exact ⟨_, rfl, rfl⟩
  · cases h
  · cases h

end Value

namespace Rule

def default? : List (String × Rule α) → String → Option (Value α)
  | [], _ => none
  | (key, r) :: rest, name =>
    if key = name then r.default.or (default? rest name) else default? rest name

variable [Numeral α]

theorem check_passed {r : Rule α} (h : (r.check key parameters).result = .ok true) :
    ∃ entries filled, parameters = .dict entries ∧
      (r.check key parameters).parameters = .dict filled ∧
      ∀ name, Keyed.get? filled name =
        (Keyed.get? entries name).or (if key = name then r.default else none) := by
  unfold check at h ⊢
  -- An entry that is there is judged and left alone; one that is not takes the default.
  cases hhas : parameters.hasEntry key with
  | error fault => simp [hhas] at h
  | ok found =>
    rw [hhas] at h
    cases found with
    | true =>
      dsimp only at h ⊢
      cases hentry : parameters.entry key with
      | error fault => simp [hentry, Except.bind] at h
      | ok v =>
        obtain ⟨entries, rfl, hget⟩ := Value.entry_eq_ok hentry
        refine ⟨entries, entries, rfl, ?_, ?_⟩
        · split <;> rfl
        · intro name
          by_cases hname : key = name
          · simp [← hname, hget]
          · simp [hname]
    | false =>
      cases hdefault : r.default with
      | none => simp [hdefault] at h
      | some value =>
        rw [hdefault] at h
        dsimp only at h ⊢
        cases hset : parameters.setEntry key value with
        | error fault => simp [hset] at h
        | ok filled =>
          obtain ⟨entries, rfl, rfl⟩ := Value.setEntry_eq_ok hset
          have hnone : Keyed.get? entries key = none := by simpa [Value.hasEntry_dict] using hhas
          refine ⟨entries, Keyed.put entries key value, rfl, rfl, ?_⟩
          intro name
          by_cases hname : key = name
          · simp [← hname, hnone]
          · simp [hname, Keyed.get?_put_of_ne]

theorem checkAll_cons_passed {r : Rule α} {rest : List (String × Rule α)}
    (h : (checkAll ((key, r) :: rest) parameters).result = .ok true) :
    (r.check key parameters).result = .ok true ∧
      (checkAll rest (r.check key parameters).parameters).result = .ok true ∧
      (checkAll ((key, r) :: rest) parameters).parameters =
        (checkAll rest (r.check key parameters).parameters).parameters := by
  obtain ⟨passed, hfirst, hothers, hparameters⟩ := Checked.bind_eq_ok h
  obtain ⟨others, hrest, hboth, hparameters'⟩ := Checked.bind_eq_ok hothers
  obtain ⟨rfl, rfl⟩ : passed = true ∧ others = true := by simpa using hboth
  exact ⟨hfirst, hrest, hparameters.trans hparameters'⟩

theorem exists_dict_of_checkAll {r : Rule α} {rest : List (String × Rule α)}
    (h : (checkAll ((key, r) :: rest) parameters).result = .ok true) :
    ∃ entries, parameters = .dict entries := by
  obtain ⟨entries, -, hdict, -⟩ := check_passed (checkAll_cons_passed h).1
  exact ⟨entries, hdict⟩

theorem checkAll_passed {rules : List (String × Rule α)}
    (h : (checkAll rules (.dict entries)).result = .ok true) :
    ∃ filled, (checkAll rules (.dict entries)).parameters = .dict filled ∧
      ∀ name, Keyed.get? filled name = (entries.get? name).or (default? rules name) := by
  induction rules generalizing entries with
  | nil => exact ⟨entries, rfl, by simp [default?]⟩
  | cons first rest ih =>
    obtain ⟨key, r⟩ := first
    obtain ⟨hfirst, hrest, hparameters⟩ := checkAll_cons_passed h
    obtain ⟨_, filled, hdict, hfilled, hget⟩ := check_passed hfirst
    cases hdict
    rw [hfilled] at hrest hparameters
    obtain ⟨last, hlast, hget'⟩ := ih hrest
    refine ⟨last, hparameters.trans hlast, ?_⟩
    intro name
    rw [hget', hget, Option.or_assoc, default?]
    split <;> simp

end Rule

namespace Settings

theorem convertEntry_eq_ok {convert : Value α → Except (Fault α) (Value α)} {u : Unit}
    (h : (convertEntry key convert (.dict entries)).result = .ok u) :
    ∃ v w, Keyed.get? entries key = some v ∧ convert v = .ok w ∧
      (convertEntry key convert (.dict entries)).parameters = .dict (entries.put key w) := by
  unfold convertEntry at h ⊢
  cases hentry : (Value.dict entries).entry key with
  | error fault => simp [hentry, Except.bind] at h
  | ok v =>
    obtain ⟨_, hdict, hget⟩ := Value.entry_eq_ok hentry
    cases hdict
    cases hconvert : convert v with
    | error fault => simp [hentry, Except.bind, hconvert] at h
    | ok w => exact ⟨v, w, hget, hconvert, by simp [Except.bind, hconvert, Value.setEntry]⟩

theorem convertAll_eq_ok {conversions : List (String × (Value α → Except (Fault α) (Value α)))}
    {u : Unit} (hnodup : (conversions.map Prod.fst).Nodup)
    (h : (convertAll conversions (.dict entries)).result = .ok u) :
    ∃ converted, (convertAll conversions (.dict entries)).parameters = .dict converted ∧
      (∀ name, name ∉ conversions.map Prod.fst → Keyed.get? converted name = entries.get? name) ∧
      ∀ key convert, (key, convert) ∈ conversions → ∃ v w, Keyed.get? entries key = some v ∧
        convert v = .ok w ∧ Keyed.get? converted key = some w := by
  induction conversions generalizing entries with
  | nil => exact ⟨entries, rfl, by simp, by simp⟩
  | cons first rest ih =>
    obtain ⟨key, convert⟩ := first
    obtain ⟨_, hfirst, hrest, hparameters⟩ := Checked.bind_eq_ok h
    obtain ⟨v, w, hget, hconvert, hput⟩ := convertEntry_eq_ok hfirst
    rw [List.map_cons, List.nodup_cons] at hnodup
    rw [hput] at hrest hparameters
    obtain ⟨converted, hlast, hothers, hconverted⟩ := ih hnodup.2 hrest
    refine ⟨converted, hparameters.trans hlast, ?_, ?_⟩
    · intro name hname
      rw [List.map_cons, List.mem_cons, not_or] at hname
      rw [hothers name hname.2, Keyed.get?_put_of_ne _ _ (Ne.symm hname.1)]
    · intro name convert' hmem
      obtain hhead | htail := List.mem_cons.mp hmem
      · cases hhead
        exact ⟨v, w, hget, hconvert, by rw [hothers key hnodup.1, Keyed.get?_put_self]⟩
      · obtain ⟨v', w', hget', hconvert', hlast'⟩ := hconverted name convert' htail
        have hne : key ≠ name := fun heq =>
          hnodup.1 (List.mem_map.mpr ⟨(name, convert'), htail, heq.symm⟩)
        exact ⟨v', w', by rwa [Keyed.get?_put_of_ne _ _ hne] at hget', hconvert', hlast'⟩

theorem ofDict?_tangentTolerance {settings : Settings α} (h : ofDict? entries = some settings) :
    Keyed.get? entries tangentToleranceKey = some (.real settings.tangentTolerance) := by
  unfold ofDict? at h
  split at h
  · rename_i htolerance _
    cases h
    exact htolerance
  · cases h

variable [Numeral α]

theorem asReal_eq_ok {w : Value α} (h : asReal v = .ok w) :
    ∃ x, w = .real x ∧ v.toNumber = .ok x := by
  obtain ⟨x, hx, rfl⟩ := map_eq_ok_iff.mp h
  exact ⟨x, rfl, hx⟩

theorem asWhole_eq_ok {w : Value α} (h : asWhole v = .ok w) :
    ∃ n, w = .integer n ∧ v.toInt = .ok n := by
  obtain ⟨n, hn, rfl⟩ := map_eq_ok_iff.mp h
  exact ⟨n, rfl, hn⟩

theorem check_eq_ok (h : (check parameters).result = .ok true) :
    ∃ entries converted, parameters = .dict entries ∧
      (check parameters).parameters = .dict converted ∧
      (∀ name, name ∉ (conversions (α := α)).map Prod.fst →
        Keyed.get? converted name = (Keyed.get? entries name).or (Rule.default? rules name)) ∧
      ∀ key convert, (key, convert) ∈ conversions → ∃ v w,
        (Keyed.get? entries key).or (Rule.default? rules key) = some v ∧ convert v = .ok w ∧
          Keyed.get? converted key = some w := by
  obtain ⟨passed, hchecked, hconverted, hparameters⟩ := Checked.bind_eq_ok h
  cases passed with
  | false => cases hconverted
  | true =>
    rw [if_pos rfl] at hconverted hparameters
    obtain ⟨_, hall, -, hparameters'⟩ := Checked.bind_eq_ok hconverted
    obtain ⟨entries, rfl⟩ := Rule.exists_dict_of_checkAll hchecked
    obtain ⟨filled, hfilled, hget⟩ := Rule.checkAll_passed hchecked
    rw [hfilled] at hall hparameters hparameters'
    have hnodup : ((conversions (α := α)).map Prod.fst).Nodup := by
      simp [conversions, wToleranceKey, intervalKey, maxStepsKey, tangentToleranceKey]
    obtain ⟨converted, hlast, hothers, hentries⟩ := convertAll_eq_ok hnodup hall
    refine ⟨entries, converted, rfl, (hparameters.trans hparameters').trans hlast, ?_, ?_⟩
    · intro name hname
      rw [hothers name hname, hget]
    · intro key convert hmem
      obtain ⟨v, w, hv, hw, hlast⟩ := hentries key convert hmem
      exact ⟨v, w, by rw [← hget, hv], hw, hlast⟩

theorem tangentTolerance_of_accepted {settings : Settings α}
    (h : (ofParameters parameters).result = .ok settings) :
    ∃ entries, parameters = .dict entries ∧
      ((Keyed.get? entries tangentToleranceKey).getD (.real defaultTangentTolerance)).toNumber =
        .ok settings.tangentTolerance := by
  obtain ⟨passed, hchecked, hsettings, -⟩ := Checked.bind_eq_ok h
  cases passed with
  | false => cases hsettings
  | true =>
    obtain ⟨entries, converted, rfl, hconverted, -, hentries⟩ := check_eq_ok hchecked
    refine ⟨entries, rfl, ?_⟩
    obtain ⟨v, w, hv, hw, hget⟩ := hentries tangentToleranceKey asReal (by simp [conversions])
    rw [hconverted] at hsettings
    obtain ⟨x, rfl, hnumber⟩ := asReal_eq_ok hw
    obtain rfl : x = settings.tangentTolerance := by
      cases hdict : ofDict? converted with
      | none => simp [hdict] at hsettings
      | some found =>
        simp only [hdict] at hsettings
        obtain rfl := Except.ok.inj hsettings
        simpa [hget] using ofDict?_tangentTolerance hdict
    have hdefault : Rule.default? rules tangentToleranceKey =
        some (.real (defaultTangentTolerance : α)) := rfl
    rw [hdefault] at hv
    cases hgiven : Keyed.get? entries tangentToleranceKey with
    | none =>
      rw [hgiven, Option.none_or] at hv
      cases hv
      exact hnumber
    | some given =>
      rw [hgiven, Option.some_or] at hv
      cases hv
      exact hnumber

end Settings

end Coplanar
