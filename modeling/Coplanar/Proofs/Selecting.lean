import Coplanar.Dataset
import Coplanar.Parameter.Selection
import Coplanar.Proofs.Filling

/-! What a selection comes to.  The checks always come to an answer: the selection is accepted
just if its names are texts, the variable chosen is one of the data, and each direction is a
pair of numbers or can be filled in.  What is filled in is taken from the dataset where it has
a center, and from the image center where it has none. -/
namespace Coplanar

variable {v : Value Float} {key : String} {given entries : Dict Float}

namespace Value

def IsPair (v : Value Float) : Prop :=
  v.isOneOf [.list, .array] = true ∧
    ∃ x y, v.items? = some [x, y] ∧ x.isA .number = true ∧ y.isA .number = true

theorem equal_integer (m n : Int) :
    (Value.integer m : Value Float).equal (.integer n) = .ok (m == n) := by
  have hequal : (Value.integer m : Value Float).equal (.integer n) =
      .ok (Relation.equal.holds (some (compare m n)) && Scalar.same (0 : Float) 0) := rfl
  have hzero : Scalar.same (0 : Float) 0 = true := by decide +kernel
  rw [hequal, hzero, Bool.and_true, Except.ok.injEq, Bool.eq_iff_iff, beq_iff_eq,
    ← Std.compare_eq_iff_eq (a := m)]
  simp [Relation.holds]

theorem exists_items (hkind : v.isOneOf [.list, .array] = true)
    (haxes : ∀ x, v ≠ .array (.leaf x)) : ∃ items, v.items? = some items := by
  cases v
  case list items => exact ⟨items, rfl⟩
  case array cells =>
    cases cells with
    | leaf x => exact absurd rfl (haxes x)
    | node items => exact ⟨items.map ofNested, rfl⟩
  all_goals cases hkind

theorem text_of_isOneOf (h : v.isOneOf [.text] = true) : ∃ s, v = .text s := by
  cases v
  case text s => exact ⟨s, rfl⟩
  all_goals cases h

end Value

namespace Selection

/-! ### What the rules say -/

theorem exists_verdict_of_name {rule : String × Rule Float} (hmem : rule ∈ nameRules)
    (given : Option (Value Float)) :
    ∃ complaint, rule.2.verdict rule.1 given = .ok complaint ∧
      (complaint = none ↔ ∀ v, given = some v → ∃ s, v = .text s) := by
  obtain ⟨default, hrule⟩ : ∃ default,
      rule.2 = { kinds := [.text], default := some (.text default) } := by
    simp only [nameRules, List.mem_cons, List.not_mem_nil, or_false] at hmem
    obtain rfl | rfl := hmem
    · exact ⟨"UVW", rfl⟩
    · exact ⟨"UVW_WPLANE", rfl⟩
  cases given with
  | none => exact ⟨none, by rw [hrule]; rfl, by simp⟩
  | some v =>
    have hverdict : rule.2.verdict rule.1 (some v) =
        .ok (if v.isOneOf [.text] then none else some (.wrongKind rule.1 [.text])) := by
      rw [hrule]
      cases hkind : v.isOneOf [.text] <;>
        simp only [Rule.verdict, Rule.valueObjection?, Rule.objection?, hkind] <;> rfl
    refine ⟨_, hverdict, ?_⟩
    cases hkind : v.isOneOf [.text] with
    | true => simpa using Value.text_of_isOneOf hkind
    | false =>
      suffices ∀ s, v ≠ .text s by simpa
      rintro s rfl
      cases hkind

theorem exists_firstObjection {r : Rule Float} (hallowed : r.allowed = none)
    (hrange : r.range = none) (key : String) (kind : Kind) (items : List (Value Float)) :
    ∃ complaint, r.firstObjection? key [kind] items = .ok complaint ∧
      (complaint = none ↔ ∀ v ∈ items, v.isA kind = true) := by
  induction items with
  | nil => exact ⟨none, rfl, by simp⟩
  | cons v rest ih =>
    have hfirst : r.objection? key [kind] v =
        .ok (if v.isA kind then none else some (.wrongKind key [kind])) := by
      have hkind : v.isOneOf [kind] = v.isA kind := by simp [Value.isOneOf]
      simp only [Rule.objection?, hkind, hallowed, hrange]
      cases v.isA kind <;> rfl
    rw [Rule.firstObjection?, hfirst]
    cases hkind : v.isA kind with
    | true => simpa [hkind] using ih
    | false => exact ⟨_, rfl, by simp [hkind]⟩

theorem hasWrongLength_center (default : Option (Value Float)) {items : List (Value Float)}
    (hitems : v.items? = some items) :
    (centerRule default).hasWrongLength v = .ok (decide (items.length ≠ 2)) := by
  have hequal : ((items.length : Int) == 2) = !decide (items.length ≠ 2) := by
    by_cases htwo : items.length = 2
    · simp [htwo]
    · simpa [htwo] using fun h => htwo (by exact_mod_cast h)
  simp only [Rule.hasWrongLength, centerRule, Value.length?, hitems, Value.equal_integer, hequal,
    bind, Except.bind]
  cases decide (items.length ≠ 2) <;> rfl

theorem exists_objection_of_center (default : Option (Value Float)) (key : String)
    (haxes : ∀ x, v ≠ .array (.leaf x)) :
    ∃ complaint, (centerRule default).valueObjection? key v = .ok complaint ∧
      (complaint = none ↔ v.IsPair) := by
  change ∃ complaint, (centerRule default).itemsObjection? key v = .ok complaint ∧ _
  unfold Rule.itemsObjection?
  cases hkind : v.isOneOf [.list, .array] with
  | false =>
    refine ⟨some (.wrongKind key [.list, .array]), ?_, by simp [Value.IsPair, hkind]⟩
    simp only [centerRule, hkind]
    rfl
  | true =>
    obtain ⟨items, hitems⟩ := Value.exists_items hkind haxes
    rw [hasWrongLength_center default hitems, hitems]
    simp only [centerRule, hkind]
    by_cases htwo : items.length = 2
    · obtain ⟨x, y, rfl⟩ := List.length_eq_two.mp htwo
      obtain ⟨complaint, hfirst, hiff⟩ :=
        exists_firstObjection (r := centerRule default) rfl rfl key .number [x, y]
      refine ⟨complaint, hfirst, ?_⟩
      rw [hiff]
      simp [Value.IsPair, hkind, hitems]
    · refine ⟨some (.wrongLength key (some [.number]) (.integer 2)), ?_, ?_⟩
      · rw [decide_eq_true htwo]
        rfl
      · simp only [reduceCtorEq, false_iff]
        rintro ⟨-, x, y, hpair, -⟩
        cases hitems.symm.trans hpair
        exact htwo rfl

theorem exists_verdict_of_center (default : Option (Value Float)) (key : String)
    {given : Option (Value Float)} (haxes : ∀ x, given ≠ some (.array (.leaf x))) :
    ∃ complaint, (centerRule default).verdict key given = .ok complaint ∧
      (complaint = none ↔
        (∀ v, given = some v → v.IsPair) ∧ (given.or default).isSome = true) := by
  cases given with
  | none =>
    refine ⟨_, rfl, ?_⟩
    cases default <;> simp [centerRule]
  | some v =>
    obtain ⟨complaint, hobjection, hiff⟩ :=
      exists_objection_of_center default key fun x hx => haxes x (congrArg some hx)
    exact ⟨complaint, hobjection, by simpa using hiff⟩

/-! ### The centers -/

/-- No center that is given is an array without axes. -/
structure HasAxes (given : Dict Float) : Prop where
  data : ∀ x, Keyed.get? given dataCenterKey ≠ some (.array (.leaf x))
  image : ∀ x, Keyed.get? given imageCenterKey ≠ some (.array (.leaf x))

@[mk_iff]
structure ArePairs (given : Dict Float) : Prop where
  data : ∀ v, Keyed.get? given dataCenterKey = some v → v.IsPair
  image : ∀ v, Keyed.get? given imageCenterKey = some v → v.IsPair

def centerRules (items : List (Value Float)) : List (String × Rule Float) :=
  [(dataCenterKey, centerRule (some (.list items))),
   (imageCenterKey, centerRule (some (.list items)))]

theorem nodup_centerRules (items : List (Value Float)) :
    ((centerRules items).map Prod.fst).Nodup := by
  change [dataCenterKey, imageCenterKey].Nodup
  decide

theorem default?_centerRules (items : List (Value Float)) (name : String) :
    Rule.default? (centerRules items) name =
      if name ∈ [dataCenterKey, imageCenterKey] then some (.list items) else none := by
  simp only [centerRules, Rule.default?, centerRule, List.mem_cons, List.not_mem_nil, or_false,
    eq_comm (a := name)]
  split_ifs <;> simp_all

theorem checkCentersFrom_spec {center : Value Float} {items : List (Value Float)}
    (hcenter : center.coordinates = .ok items) (haxes : HasAxes entries) :
    ∃ passed filled, (checkCentersFrom center (.dict entries)).result = .ok passed ∧
      (checkCentersFrom center (.dict entries)).parameters = .dict filled ∧
      (passed = true ↔ ArePairs entries) ∧
      ∀ name, Keyed.get? filled name = (Keyed.get? entries name).or
        (if name ∈ [dataCenterKey, imageCenterKey] then some (.list items) else none) := by
  obtain ⟨_, hdata, hdataPair⟩ :=
    exists_verdict_of_center (some (.list items)) dataCenterKey haxes.data
  obtain ⟨_, himage, himagePair⟩ :=
    exists_verdict_of_center (some (.list items)) imageCenterKey haxes.image
  have hfaultless : ∀ rule ∈ centerRules items, ∃ complaint,
      rule.2.verdict rule.1 (Keyed.get? entries rule.1) = .ok complaint := by
    simp only [centerRules, List.forall_mem_cons, List.not_mem_nil, false_imp_iff, implies_true,
      and_true]
    exact ⟨⟨_, hdata⟩, ⟨_, himage⟩⟩
  obtain ⟨passed, hresult, hfilled, hpassed⟩ :=
    Rule.checkAll_of_faultless (nodup_centerRules items) hfaultless
  rw [checkCentersFrom, hcenter]
  refine ⟨passed, _, hresult, hfilled, ?_, fun name => ?_⟩
  · rw [hpassed]
    simp only [centerRules, List.forall_mem_cons, List.not_mem_nil, false_imp_iff, implies_true,
      and_true]
    rw [hdata, himage, Except.ok.injEq, Except.ok.injEq, hdataPair, himagePair, arePairs_iff]
    simp
  · rw [Rule.get?_fillAll, default?_centerRules]

theorem checkCentersAlone_spec (haxes : HasAxes entries) :
    ∃ passed filled, (checkCentersAlone (.dict entries)).result = .ok passed ∧
      (checkCentersAlone (.dict entries)).parameters = .dict filled ∧
      (passed = true ↔ ArePairs entries ∧ (Keyed.get? entries imageCenterKey).isSome = true) ∧
      (∀ name v, Keyed.get? entries name = some v → Keyed.get? filled name = some v) ∧
      (passed = true → ∃ image items, Keyed.get? entries imageCenterKey = some image ∧
        image.items? = some items ∧ ∀ name, Keyed.get? filled name =
          (Keyed.get? entries name).or
            (if name = dataCenterKey then some (.list items) else none)) := by
  obtain ⟨complaint, himage, himagePair⟩ :=
    exists_verdict_of_center none imageCenterKey haxes.image
  have hfirst := Rule.check_dict (centerRule none) imageCenterKey entries
  rw [himage, Rule.fill_of_no_default rfl] at hfirst
  rw [checkCentersAlone, hfirst, Checked.bind_of_ok rfl]
  cases complaint with
  | some complaint =>
    refine ⟨false, entries, rfl, rfl, ?_, fun _ _ hget => hget, fun h => by cases h⟩
    simp only [Bool.false_eq_true, false_iff, not_and]
    intro hpairs hgiven
    cases himagePair.mpr ⟨hpairs.image, by rwa [Option.or_none]⟩
  | none =>
    obtain ⟨hpair, hgiven⟩ := himagePair.mp rfl
    rw [Option.or_none] at hgiven
    obtain ⟨image, hget⟩ := Option.isSome_iff_exists.mp hgiven
    obtain ⟨-, x, y, hitems, -⟩ := hpair image hget
    obtain ⟨complaint, hdata, hdataPair⟩ :=
      exists_verdict_of_center (some (.list [x, y])) dataCenterKey haxes.data
    have hsecond := Rule.check_dict (centerRule (some (.list [x, y]))) dataCenterKey entries
    rw [hdata] at hsecond
    have hfilled := Rule.get?_fill (centerRule (some (.list [x, y]))) dataCenterKey entries
    have hentry : (Value.dict entries).entry imageCenterKey = .ok image := by
      rw [Value.entry, hget]
    simp only [Option.isNone_none, if_true, hentry, hitems, Option.getD_some, hsecond]
    refine ⟨_, _, rfl, rfl, ?_, fun name v hname => ?_,
      fun _ => ⟨image, _, hget, hitems, ?_⟩⟩
    · rw [Option.isNone_iff_eq_none, hdataPair, arePairs_iff]
      simpa [hgiven] using fun _ => hpair
    · rw [hfilled, hname, Option.some_or]
    · simpa [centerRule, eq_comm] using hfilled

/-! ### The variable -/

structure AreTexts (given : Dict Float) : Prop where
  uvw : ∀ v, Keyed.get? given uvwKey = some v → ∃ s, v = .text s
  uvwOut : ∀ v, Keyed.get? given uvwOutKey = some v → ∃ s, v = .text s

theorem checkNames_spec (given : Dict Float) :
    ∃ named, (Rule.checkAll nameRules (.dict given)).result = .ok named ∧
      (Rule.checkAll nameRules (.dict given)).parameters = .dict (Rule.fillAll nameRules given) ∧
      (named = true ↔ AreTexts given) := by
  have hverdict : ∀ rule ∈ nameRules (α := Float), ∃ complaint,
      rule.2.verdict rule.1 (Keyed.get? given rule.1) = .ok complaint ∧
        (complaint = none ↔ ∀ v, Keyed.get? given rule.1 = some v → ∃ s, v = .text s) :=
    fun rule hrule => exists_verdict_of_name hrule (Keyed.get? given rule.1)
  obtain ⟨named, hresult, hfilled, hnamed⟩ := Rule.checkAll_of_faultless (by decide)
    fun rule hrule => (hverdict rule hrule).imp fun _ h => h.1
  have htext (rule) (hrule : rule ∈ nameRules (α := Float)) :
      rule.2.verdict rule.1 (Keyed.get? given rule.1) = .ok none ↔
        ∀ v, Keyed.get? given rule.1 = some v → ∃ s, v = .text s := by
    obtain ⟨complaint, hcomplaint, hiff⟩ := hverdict rule hrule
    rw [hcomplaint, Except.ok.injEq, hiff]
  refine ⟨named, hresult, hfilled, ?_⟩
  rw [hnamed]
  constructor
  · intro h
    exact ⟨(htext _ (.head _)).mp (h _ (.head _)),
      (htext _ (.tail _ (.head _))).mp (h _ (.tail _ (.head _)))⟩
  · intro h rule hrule
    rw [htext rule hrule]
    simp only [nameRules, List.mem_cons, List.not_mem_nil, or_false] at hrule
    obtain rfl | rfl := hrule
    · exact h.uvw
    · exact h.uvwOut

theorem checkVariable_spec (names : List String) {name : String}
    (h : Keyed.get? entries uvwKey = some (.text name)) :
    (checkVariable names (.dict entries)).result = .ok (names.contains name) ∧
      (checkVariable names (.dict entries)).parameters = .dict entries := by
  have hentry : (Value.dict entries).entry uvwKey = .ok (.text name) := by rw [Value.entry, h]
  simp only [checkVariable, hentry]
  cases names.contains name <;> exact ⟨rfl, rfl⟩

end Selection

/-- A variable that is no coordinate. -/
def Dataset.IsDatum (d : Dataset Float) (name : String) : Prop :=
  (d.get? name).isSome = true ∧ d.isCoordinate name = false

theorem Keyed.mem_names_iff {β : Type} {entries : Keyed β} {name : String} :
    name ∈ entries.names ↔ (entries.get? name).isSome = true := by
  induction entries with
  | nil => simp [Keyed.names]
  | cons entry rest ih =>
    obtain ⟨key, x⟩ := entry
    rw [Keyed.get?_cons, Keyed.names, List.map_cons, List.mem_cons]
    by_cases hkey : key = name
    · simp [hkey]
    · rw [if_neg hkey, ← ih]
      simp [Keyed.names, Ne.symm hkey]

theorem Dataset.contains_names_iff {d : Dataset Float} {name : String} :
    d.names.contains name = true ↔ d.IsDatum name := by
  rw [List.contains_iff_mem, Dataset.names, List.mem_filter, Keyed.mem_names_iff]
  simp [IsDatum, Dataset.get?]

namespace Selection

/-! ### The whole selection -/

structure Acceptable (d : Dataset Float) (given : Dict Float) : Prop where
  texts : AreTexts given
  datum : ∃ name, (Keyed.get? given uvwKey).or (some (.text "UVW")) = some (.text name) ∧
    d.IsDatum name
  pairs : ArePairs given
  image : Keyed.get? d.attributes centerAttribute = none →
    (Keyed.get? given imageCenterKey).isSome = true

structure Centered (d : Dataset Float) (given selection : Dict Float) : Prop where
  /-- An absent direction is the center of the dataset. -/
  fromCenter : ∀ center items, Keyed.get? d.attributes centerAttribute = some center →
    center.coordinates = .ok items → ∀ key ∈ [dataCenterKey, imageCenterKey],
      Keyed.get? selection key = (Keyed.get? given key).or (some (.list items))
  /-- Without one, stored rows refer to the image center. -/
  alone : Keyed.get? d.attributes centerAttribute = none →
    ∃ image items, Keyed.get? given imageCenterKey = some image ∧ image.items? = some items ∧
      Keyed.get? selection imageCenterKey = some image ∧
      Keyed.get? selection dataCenterKey =
        (Keyed.get? given dataCenterKey).or (some (.list items))

structure Completes (d : Dataset Float) (given selection : Dict Float) : Prop
    extends Centered d given selection where
  uvw : Keyed.get? selection uvwKey = (Keyed.get? given uvwKey).or (some (.text "UVW"))
  uvwOut :
    Keyed.get? selection uvwOutKey = (Keyed.get? given uvwOutKey).or (some (.text "UVW_WPLANE"))
  others : ∀ name, name ∉ [uvwKey, uvwOutKey, dataCenterKey, imageCenterKey] →
    Keyed.get? selection name = Keyed.get? given name

def checkCenters (attributes : Dict Float) (parameters : Value Float) : Checked Float Bool :=
  match Keyed.get? attributes centerAttribute with
  | some center => checkCentersFrom center parameters
  | none => checkCentersAlone parameters

theorem checkCenters_spec {d : Dataset Float}
    (hcenter : ∀ center, Keyed.get? d.attributes centerAttribute = some center →
      ∃ items, center.coordinates = .ok items) (haxes : HasAxes entries) :
    ∃ centered selection, (checkCenters d.attributes (.dict entries)).result = .ok centered ∧
      (checkCenters d.attributes (.dict entries)).parameters = .dict selection ∧
      (centered = true ↔ ArePairs entries ∧ (Keyed.get? d.attributes centerAttribute = none →
        (Keyed.get? entries imageCenterKey).isSome = true)) ∧
      (∀ name v, Keyed.get? entries name = some v → Keyed.get? selection name = some v) ∧
      (centered = true → Centered d entries selection ∧
        ∀ name, name ∉ [dataCenterKey, imageCenterKey] →
          Keyed.get? selection name = Keyed.get? entries name) := by
  cases hattribute : Keyed.get? d.attributes centerAttribute with
  | some center =>
    obtain ⟨items, hitems⟩ := hcenter center hattribute
    obtain ⟨centered, selection, hresult, hselection, hcentered, hfilled⟩ :=
      checkCentersFrom_spec hitems haxes
    simp only [checkCenters, hattribute]
    refine ⟨centered, selection, hresult, hselection, by simp [hcentered], ?_,
      fun _ => ⟨?_, ?_⟩⟩
    · intro name v hname
      rw [hfilled, hname, Option.some_or]
    · refine ⟨fun center' items' hsame hitems' key hkey => ?_, fun hnone => ?_⟩
      · cases hattribute.symm.trans hsame
        cases hitems.symm.trans hitems'
        rw [hfilled, if_pos hkey]
      · cases hattribute.symm.trans hnone
    · intro name hname
      rw [hfilled, if_neg hname, Option.or_none]
  | none =>
    obtain ⟨centered, selection, hresult, hselection, hcentered, hkept, hfilled⟩ :=
      checkCentersAlone_spec haxes
    simp only [checkCenters, hattribute]
    refine ⟨centered, selection, hresult, hselection, by simp [hcentered], hkept,
      fun hpassed => ?_⟩
    obtain ⟨image, items, hget, hitems, hfilled⟩ := hfilled hpassed
    refine ⟨⟨fun center _ hsome => ?_, fun _ => ?_⟩, fun name hname => ?_⟩
    · cases hattribute.symm.trans hsome
    · exact ⟨image, items, hget, hitems, hkept _ _ hget, by rw [hfilled, if_pos rfl]⟩
    · have hdata : name ≠ dataCenterKey := fun heq => hname (heq ▸ List.mem_cons_self)
      rw [hfilled, if_neg hdata, Option.or_none]

def checkChosen (names : List String) (named : Bool) (parameters : Value Float) :
    Checked Float Bool :=
  if named then checkVariable names parameters else ⟨.ok false, [], parameters⟩

theorem checkChosen_spec {d : Dataset Float} {named : Bool}
    (hnamed : named = true ↔ AreTexts given)
    (hentry : Keyed.get? entries uvwKey = (Keyed.get? given uvwKey).or (some (.text "UVW"))) :
    ∃ chosen, (checkChosen d.names named (.dict entries)).result = .ok chosen ∧
      (checkChosen d.names named (.dict entries)).parameters = .dict entries ∧
      (chosen = true ↔ AreTexts given ∧ ∃ name,
        (Keyed.get? given uvwKey).or (some (.text "UVW")) = some (.text name) ∧
          d.IsDatum name) := by
  cases named with
  | false => exact ⟨false, rfl, rfl, by simpa using fun h => absurd (hnamed.mpr h) (by simp)⟩
  | true =>
    have htexts := hnamed.mp rfl
    obtain ⟨name, hname⟩ : ∃ name,
        (Keyed.get? given uvwKey).or (some (.text "UVW")) = some (.text name) := by
      cases hget : Keyed.get? given uvwKey with
      | none => exact ⟨"UVW", rfl⟩
      | some v =>
        obtain ⟨s, rfl⟩ := htexts.uvw v hget
        exact ⟨s, rfl⟩
    obtain ⟨hresult, hparameters⟩ := checkVariable_spec d.names (hentry.trans hname)
    refine ⟨d.names.contains name, hresult, hparameters, ?_⟩
    rw [Dataset.contains_names_iff, hname]
    constructor
    · exact fun hdatum => ⟨htexts, name, rfl, hdatum⟩
    · rintro ⟨-, _, hsame, hdatum⟩
      cases hsame
      exact hdatum

theorem check_eq (names : List String) (attributes : Dict Float) (parameters : Value Float) :
    check names attributes parameters =
      (Rule.checkAll nameRules parameters).bind fun named parameters =>
        (checkChosen names named parameters).bind fun chosen parameters =>
          (checkCenters attributes parameters).bind fun centered parameters =>
            ⟨.ok (chosen && centered), [], parameters⟩ := by
  unfold check checkChosen checkCenters
  cases Keyed.get? attributes centerAttribute <;> rfl

/-- The checks of a selection come to an answer.  It is accepted just if it is acceptable, and
then all that was not given is filled in; what was given stays as it is in any case. -/
theorem check_settles (d : Dataset Float) (given : Dict Float)
    (hcenter : ∀ center, Keyed.get? d.attributes centerAttribute = some center →
      ∃ items, center.coordinates = .ok items) (haxes : HasAxes given) :
    ∃ passed selection, (check d.names d.attributes (.dict given)).result = .ok passed ∧
      (check d.names d.attributes (.dict given)).parameters = .dict selection ∧
      (passed = true ↔ Acceptable d given) ∧
      (∀ name v, Keyed.get? given name = some v → Keyed.get? selection name = some v) ∧
      (passed = true → Completes d given selection) := by
  obtain ⟨named, hnames, hfilled, hnamed⟩ := checkNames_spec given
  have hentry := Rule.get?_fillAll nameRules given
  generalize Rule.fillAll nameRules given = entries at hfilled hentry
  have huvw := hentry uvwKey
  have huvwOut := hentry uvwOutKey
  -- The names are filled in first, which leaves the centers alone.
  have hsame (name : String) (hname : name ∉ [uvwKey, uvwOutKey]) :
      Keyed.get? entries name = Keyed.get? given name := by
    rw [hentry, Rule.default?_eq_none hname, Option.or_none]
  have hdata := hsame dataCenterKey (by decide)
  have himage := hsame imageCenterKey (by decide)
  have haxes' : HasAxes entries :=
    ⟨by rw [hdata]; exact haxes.data, by rw [himage]; exact haxes.image⟩
  obtain ⟨chosen, hchosenResult, hchosenEntries, hchosen⟩ :=
    checkChosen_spec (d := d) hnamed huvw
  obtain ⟨centered, selection, hresult, hselection, hcentered, hkept, hcompletes⟩ :=
    checkCenters_spec hcenter haxes'
  rw [check_eq, Checked.bind_of_ok hnames, hfilled, Checked.bind_of_ok hchosenResult,
    hchosenEntries, Checked.bind_of_ok hresult, hselection]
  refine ⟨chosen && centered, selection, rfl, rfl, ?_, ?_, fun hpassed => ?_⟩
  · rw [Bool.and_eq_true, hchosen, hcentered, arePairs_iff, hdata, himage, ← arePairs_iff]
    constructor
    · rintro ⟨⟨htexts, hdatum⟩, hpairs, hgiven⟩
      exact ⟨htexts, hdatum, hpairs, hgiven⟩
    · rintro ⟨htexts, hdatum, hpairs, hgiven⟩
      exact ⟨⟨htexts, hdatum⟩, hpairs, hgiven⟩
  · intro name v hname
    exact hkept name v (by rw [hentry, hname, Option.some_or])
  · obtain ⟨hcenters, hothers⟩ := hcompletes ((Bool.and_eq_true _ _).mp hpassed).2
    refine ⟨⟨fun center items hsome hitems key hkey => ?_, fun hnone => ?_⟩, ?_, ?_, ?_⟩
    · rw [hcenters.fromCenter center items hsome hitems key hkey]
      obtain rfl | rfl : key = dataCenterKey ∨ key = imageCenterKey := by simpa using hkey
      · rw [hdata]
      · rw [himage]
    · rw [← himage, ← hdata]
      exact hcenters.alone hnone
    · rw [hothers uvwKey (by decide)]
      exact huvw
    · rw [hothers uvwOutKey (by decide)]
      exact huvwOut
    · intro name hname
      have hcenter : name ∉ [dataCenterKey, imageCenterKey] := fun hmem =>
        hname (List.mem_append_right [uvwKey, uvwOutKey] hmem)
      have hname' : name ∉ [uvwKey, uvwOutKey] := fun hmem =>
        hname (List.mem_append_left [dataCenterKey, imageCenterKey] hmem)
      rw [hothers name hcenter, hsame name hname']

def pointed (attributes : Dict Float) : Dataset Float :=
  ⟨[("UVW", .along "time" [])], [], attributes⟩

def center : Dict Float := [(centerAttribute, .list [.real 1, .real 2])]

def aside : Dict Float := [(imageCenterKey, .list [.integer 3, .integer 4])]

theorem check_settles_aside :
    HasAxes aside ∧
    (∃ selection, (check (pointed center).names center (.dict aside)).result = .ok true ∧
      (check (pointed center).names center (.dict aside)).parameters = .dict selection ∧
      Acceptable (pointed center) aside ∧ Completes (pointed center) aside selection) ∧
    ∃ selection, (check (pointed []).names [] (.dict aside)).result = .ok true ∧
      (check (pointed []).names [] (.dict aside)).parameters = .dict selection ∧
      Acceptable (pointed []) aside ∧ Completes (pointed []) aside selection := by
  have haxes : HasAxes aside := ⟨fun x h => (by cases h), fun x h => (by cases h)⟩
  have hcenter : (check (pointed center).names center (.dict aside)).result = .ok true := by
    decide +kernel
  have hnone : (check (pointed []).names [] (.dict aside)).result = .ok true := by decide +kernel
  refine ⟨haxes, ?_, ?_⟩
  · obtain ⟨_, selection, hresult, hselection, hpassed, -, hcompletes⟩ :=
      check_settles (pointed center) aside (fun value hvalue => by cases hvalue; exact ⟨_, rfl⟩)
        haxes
    cases hcenter.symm.trans hresult
    exact ⟨selection, hcenter, hselection, hpassed.mp rfl, hcompletes rfl⟩
  · obtain ⟨_, selection, hresult, hselection, hpassed, -, hcompletes⟩ :=
      check_settles (pointed []) aside (fun value hvalue => by cases hvalue) haxes
    cases hnone.symm.trans hresult
    exact ⟨selection, hnone, hselection, hpassed.mp rfl, hcompletes rfl⟩

end Selection

end Coplanar
