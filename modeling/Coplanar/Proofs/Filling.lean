import Coplanar.Proofs.Acceptance
import Coplanar.Proofs.Related

/-! What a list of rules makes of a dictionary, whatever comes of the checks.  Each rule looks
at its own entry only, says what is wrong with it, and fills it in if it is absent.  So the
checks of rules about different entries come to what the rules say of the dictionary that was
given, and a fault stops them with the defaults of the rules before it filled in. -/
namespace Coplanar

section Bind

variable {α β γ : Type} {c : Checked α β} {next : β → Value α → Checked α γ}

theorem Checked.bind_of_ok {x : β} (h : c.result = .ok x) :
    c.bind next = { next x c.parameters with
      complaints := c.complaints ++ (next x c.parameters).complaints } := by
  unfold Checked.bind
  rw [h]

theorem Checked.bind_of_error {fault : Fault α} (h : c.result = .error fault) :
    c.bind next = ⟨.error fault, c.complaints, c.parameters⟩ := by
  unfold Checked.bind
  rw [h]

end Bind

namespace Rule

variable {α : Type} {r : Rule α} {rules : List (String × Rule α)} {entries given : Dict α}
  {key name : String} {v : Value α}

/-! ### Defaults filled in -/

def fill (r : Rule α) (key : String) (entries : Dict α) : Dict α :=
  match Keyed.get? entries key, r.default with
  | none, some value => Keyed.put entries key value
  | _, _ => entries

def fillAll (rules : List (String × Rule α)) (entries : Dict α) : Dict α :=
  rules.foldl (fun entries (key, r) => r.fill key entries) entries

theorem fill_of_present (h : Keyed.get? entries key = some v) : r.fill key entries = entries := by
  rw [fill, h]

theorem fill_of_no_default (h : r.default = none) : r.fill key entries = entries := by
  rw [fill, h]
  split
  · rename_i hdefault
    cases hdefault
  · rfl

theorem get?_fill (r : Rule α) (key : String) (entries : Dict α) (name : String) :
    Keyed.get? (r.fill key entries) name =
      (Keyed.get? entries name).or (if key = name then r.default else none) := by
  unfold fill
  by_cases hname : key = name
  · subst hname
    cases hget : Keyed.get? entries key <;> cases hdefault : r.default <;> simp [hget]
  · cases Keyed.get? entries key <;> cases r.default <;>
      simp [hname, Keyed.get?_put_of_ne]

theorem get?_fillAll (rules : List (String × Rule α)) (entries : Dict α) (name : String) :
    Keyed.get? (fillAll rules entries) name =
      (Keyed.get? entries name).or (default? rules name) := by
  induction rules generalizing entries with
  | nil => simp [fillAll, default?]
  | cons first rest ih =>
    obtain ⟨key, r⟩ := first
    change Keyed.get? (fillAll rest (r.fill key entries)) name = _
    rw [ih, get?_fill, Option.or_assoc, default?]
    split <;> simp

theorem fillAll_of_present
    (h : ∀ rule ∈ rules, ∃ v, Keyed.get? entries rule.1 = some v) :
    fillAll rules entries = entries := by
  induction rules with
  | nil => rfl
  | cons first rest ih =>
    obtain ⟨v, hv⟩ := h first List.mem_cons_self
    change fillAll rest (first.2.fill first.1 entries) = entries
    rw [fill_of_present hv]
    exact ih fun rule hrule => h rule (List.mem_cons_of_mem _ hrule)

theorem default?_append (rules others : List (String × Rule α)) (name : String) :
    default? (rules ++ others) name = (default? rules name).or (default? others name) := by
  induction rules with
  | nil => simp [default?]
  | cons first rest ih =>
    rw [List.cons_append, default?, default?, ih]
    split <;> simp [Option.or_assoc]

theorem default?_eq_none (h : name ∉ rules.map Prod.fst) : default? rules name = none := by
  induction rules with
  | nil => rfl
  | cons first rest ih =>
    rw [List.map_cons, List.mem_cons, not_or] at h
    rw [default?, if_neg (Ne.symm h.1)]
    exact ih h.2

theorem get?_fill_of_mem (hnodup : (((key, r) :: rules).map Prod.fst).Nodup)
    {rule : String × Rule α} (hmem : rule ∈ rules) :
    Keyed.get? (r.fill key entries) rule.1 = Keyed.get? entries rule.1 := by
  rw [List.map_cons, List.nodup_cons] at hnodup
  have hne : key ≠ rule.1 := fun heq =>
    hnodup.1 (List.mem_map.mpr ⟨rule, hmem, heq.symm⟩)
  rw [get?_fill, if_neg hne, Option.or_none]

variable [Numeral α]

/-! ### What the rules say -/

def verdict (r : Rule α) (key : String) : Option (Value α) →
    Except (Fault α) (Option (Complaint α))
  | some v => r.valueObjection? key v
  | none => .ok (if r.default.isSome then none else some (.unspecified key))

theorem exists_of_verdict {fault : Fault α} {given : Option (Value α)}
    (h : r.verdict key given = .error fault) :
    ∃ v, given = some v ∧ r.valueObjection? key v = .error fault := by
  cases given with
  | none => cases h
  | some v => exact ⟨v, rfl, h⟩

theorem check_dict (r : Rule α) (key : String) (entries : Dict α) :
    r.check key (.dict entries) =
      match r.verdict key (Keyed.get? entries key) with
      | .error fault => ⟨.error fault, [], .dict (r.fill key entries)⟩
      | .ok complaint => ⟨.ok complaint.isNone, complaint.toList, .dict (r.fill key entries)⟩ := by
  unfold check
  rw [Value.hasEntry_dict]
  cases hget : Keyed.get? entries key with
  | none =>
    cases hdefault : r.default <;> simp [verdict, fill, hget, hdefault, Value.setEntry]
  | some v =>
    rw [fill_of_present hget, verdict]
    simp only [Option.isSome_some, Value.entry, hget, Except.bind]
    cases r.valueObjection? key v with
    | error fault => rfl
    | ok complaint => cases complaint <;> rfl

/-- Where no rule faults, everything that one of them finds wrong is told, all defaults are
filled in, and the dictionary passes if nothing is wrong. -/
theorem checkAll_of_verdicts (hnodup : (rules.map Prod.fst).Nodup)
    {judge : String × Rule α → Option (Complaint α)}
    (h : ∀ rule ∈ rules, rule.2.verdict rule.1 (Keyed.get? entries rule.1) = .ok (judge rule)) :
    checkAll rules (.dict entries) =
      ⟨.ok (rules.all fun rule => (judge rule).isNone), rules.filterMap judge,
        .dict (fillAll rules entries)⟩ := by
  induction rules generalizing entries with
  | nil => rfl
  | cons first rest ih =>
    obtain ⟨key, r⟩ := first
    have hfirst := check_dict r key entries
    rw [h (key, r) List.mem_cons_self] at hfirst
    have hrest : ∀ rule ∈ rest,
        rule.2.verdict rule.1 (Keyed.get? (r.fill key entries) rule.1) = .ok (judge rule) :=
      fun rule hrule => by
        rw [get?_fill_of_mem hnodup hrule]
        exact h rule (List.mem_cons_of_mem _ hrule)
    rw [checkAll, hfirst, Checked.bind_of_ok rfl, ih (List.nodup_cons.mp hnodup).2 hrest,
      Checked.bind_of_ok rfl]
    cases hjudge : judge (key, r) <;> simp [hjudge, fillAll]

theorem checkAll_of_faultless (hnodup : (rules.map Prod.fst).Nodup)
    (h : ∀ rule ∈ rules, ∃ complaint,
      rule.2.verdict rule.1 (Keyed.get? entries rule.1) = .ok complaint) :
    ∃ passed, (checkAll rules (.dict entries)).result = .ok passed ∧
      (checkAll rules (.dict entries)).parameters = .dict (fillAll rules entries) ∧
      (passed = true ↔ ∀ rule ∈ rules,
        rule.2.verdict rule.1 (Keyed.get? entries rule.1) = .ok none) := by
  choose! judge hjudge using h
  rw [checkAll_of_verdicts hnodup hjudge]
  refine ⟨_, rfl, rfl, ?_⟩
  rw [List.all_eq_true]
  refine forall₂_congr fun rule hrule => ?_
  rw [hjudge rule hrule, Except.ok.injEq, Option.isNone_iff_eq_none]

/-- A fault is that of the first rule that faults, and the defaults of those before it have
been filled in. -/
theorem checkAll_of_error (hnodup : (rules.map Prod.fst).Nodup) {fault : Fault α}
    (h : (checkAll rules (.dict entries)).result = .error fault) :
    ∃ reached key r rest v, rules = reached ++ (key, r) :: rest ∧
      Keyed.get? entries key = some v ∧ r.valueObjection? key v = .error fault ∧
      (checkAll rules (.dict entries)).parameters = .dict (fillAll reached entries) := by
  -- The fault is at the first rule or at a later one, whose entry the first has left alone.
  induction rules generalizing entries with
  | nil => cases h
  | cons first rest ih =>
    obtain ⟨key, r⟩ := first
    have hfirst := check_dict r key entries
    cases hverdict : r.verdict key (Keyed.get? entries key) with
    | error found =>
      obtain ⟨v, hget, hobjection⟩ := exists_of_verdict hverdict
      rw [hverdict] at hfirst
      rw [checkAll, hfirst, Checked.bind_of_error rfl] at h ⊢
      cases h
      exact ⟨[], key, r, rest, v, rfl, hget, hobjection, by rw [fill_of_present hget]; rfl⟩
    | ok complaint =>
      rw [hverdict] at hfirst
      rw [checkAll, hfirst, Checked.bind_of_ok rfl] at h ⊢
      have hrest : (checkAll rest (.dict (r.fill key entries))).result = .error fault := by
        cases hresult : (checkAll rest (.dict (r.fill key entries))).result with
        | error found =>
          rw [Checked.bind_of_error hresult] at h
          exact h
        | ok others =>
          rw [Checked.bind_of_ok hresult] at h
          cases h
      obtain ⟨reached, key', r', later, v, rfl, hget, hobjection, hparameters⟩ :=
        ih (List.nodup_cons.mp hnodup).2 hrest
      have hlater : (key', r') ∈ reached ++ (key', r') :: later := by simp
      rw [get?_fill_of_mem hnodup hlater] at hget
      refine ⟨(key, r) :: reached, key', r', later, v, rfl, hget, hobjection, ?_⟩
      rw [Checked.bind_of_error hrest]
      exact hparameters

theorem verdict_of_checkAll (hnodup : (rules.map Prod.fst).Nodup) {passed : Bool}
    (h : (checkAll rules (.dict entries)).result = .ok passed) :
    ∀ rule ∈ rules, ∃ complaint,
      rule.2.verdict rule.1 (Keyed.get? entries rule.1) = .ok complaint := by
  induction rules generalizing entries passed with
  | nil => simp
  | cons first rest ih =>
    obtain ⟨key, r⟩ := first
    have hfirst := check_dict r key entries
    cases hverdict : r.verdict key (Keyed.get? entries key) with
    | error fault =>
      rw [hverdict] at hfirst
      rw [checkAll, hfirst, Checked.bind_of_error rfl] at h
      cases h
    | ok complaint =>
      rw [hverdict] at hfirst
      rw [checkAll, hfirst, Checked.bind_of_ok rfl] at h
      intro rule hmem
      obtain rfl | hrest := List.mem_cons.mp hmem
      · exact ⟨complaint, hverdict⟩
      · obtain ⟨others, hothers, -⟩ := Checked.bind_eq_ok h
        obtain ⟨complaint', h'⟩ := ih (List.nodup_cons.mp hnodup).2 hothers rule hrest
        exact ⟨complaint', by rwa [get?_fill_of_mem hnodup hrest] at h'⟩

theorem checkAll_of_ok (hnodup : (rules.map Prod.fst).Nodup) {passed : Bool}
    (h : (checkAll rules (.dict entries)).result = .ok passed) :
    (checkAll rules (.dict entries)).parameters = .dict (fillAll rules entries) ∧
      (passed = true ↔ ∀ rule ∈ rules,
        rule.2.verdict rule.1 (Keyed.get? entries rule.1) = .ok none) := by
  obtain ⟨_, hresult, hfilled, hpassed⟩ :=
    checkAll_of_faultless hnodup (verdict_of_checkAll hnodup h)
  cases h.symm.trans hresult
  exact ⟨hfilled, hpassed⟩

end Rule

namespace Settings

/-! ### Conversions -/

variable {α : Type} {entries : Dict α}
  {conversions : List (String × (Value α → Except (Fault α) (Value α)))}

theorem convertEntry_dict {key : String} {convert : Value α → Except (Fault α) (Value α)}
    {v w : Value α} (hget : Keyed.get? entries key = some v) (hconvert : convert v = .ok w) :
    convertEntry key convert (.dict entries) = ⟨.ok (), [], .dict (Keyed.put entries key w)⟩ := by
  have hentry : (Value.dict entries).entry key = .ok v := by rw [Value.entry, hget]
  simp only [convertEntry, hentry, Except.bind, hconvert, Value.setEntry]

theorem exists_convertAll (hnodup : (conversions.map Prod.fst).Nodup)
    (h : ∀ conversion ∈ conversions, ∃ v w, Keyed.get? entries conversion.1 = some v ∧
      conversion.2 v = .ok w) :
    ∃ converted, convertAll conversions (.dict entries) = ⟨.ok (), [], .dict converted⟩ := by
  induction conversions generalizing entries with
  | nil => exact ⟨entries, rfl⟩
  | cons first rest ih =>
    obtain ⟨key, convert⟩ := first
    obtain ⟨v, w, hget, hconvert⟩ := h (key, convert) List.mem_cons_self
    rw [List.map_cons, List.nodup_cons] at hnodup
    have hothers : ∀ conversion ∈ rest, ∃ v' w',
        Keyed.get? (Keyed.put entries key w) conversion.1 = some v' ∧ conversion.2 v' = .ok w' :=
      fun conversion hmem => by
        have hne : key ≠ conversion.1 := fun heq =>
          hnodup.1 (List.mem_map.mpr ⟨conversion, hmem, heq.symm⟩)
        rw [Keyed.get?_put_of_ne _ _ hne]
        exact h conversion (List.mem_cons_of_mem _ hmem)
    obtain ⟨converted, hrest⟩ := ih hnodup.2 hothers
    refine ⟨converted, ?_⟩
    rw [convertAll, convertEntry_dict hget hconvert, Checked.bind_of_ok rfl, hrest]
    rfl

theorem convertAll_of_fixed
    (h : ∀ conversion ∈ conversions, ∃ v, Keyed.get? entries conversion.1 = some v ∧
      conversion.2 v = .ok v) :
    convertAll conversions (.dict entries) = ⟨.ok (), [], .dict entries⟩ := by
  induction conversions with
  | nil => rfl
  | cons first rest ih =>
    obtain ⟨key, convert⟩ := first
    obtain ⟨v, hget, hconvert⟩ := h (key, convert) List.mem_cons_self
    rw [convertAll, convertEntry_dict hget hconvert, Keyed.put_of_get? hget,
      Checked.bind_of_ok rfl, ih fun conversion hmem => h conversion (List.mem_cons_of_mem _ hmem)]
    rfl

end Settings

end Coplanar
