import Coplanar.Dataset.Correction

/-! Whose fault it is.  What a caller supplies can be unusable in many ways, in which
values, parameters and datasets fail.  None of these is a fault that a source or a
corrector raises, so that of a correction which fails by one of the latter it is known that
it failed at a time step. -/
namespace Coplanar

variable {α : Type}

/-- The faults of what is supplied; the others are raised by sources and correctors. -/
def Fault.IsOfData : Fault α → Prop
  | .tooFewRows _ | .otherTangentPoint | .noSource | .noChannels | .noPositiveFrequency _
  | .toleranceExceeded _ _ _ | .notServed _ | .readOnly => False
  | _ => True

def FailsByData {β : Type} (x : Except (Fault α) β) : Prop :=
  ∀ fault, x = .error fault → fault.IsOfData

namespace FailsByData

variable {β γ : Type} {x : Except (Fault α) β}

@[simp] theorem ok (y : β) : FailsByData (.ok y : Except (Fault α) β) := nofun

@[simp] theorem pure_ok (y : β) : FailsByData (pure y : Except (Fault α) β) := nofun

@[simp] theorem error_iff (fault : Fault α) :
    FailsByData (.error fault : Except (Fault α) β) ↔ fault.IsOfData := by
  constructor
  · intro h
    exact h fault rfl
  · rintro h other hother
    cases hother
    exact h

theorem passed_on {fault : Fault α} (h : FailsByData x) (hx : x = .error fault) :
    FailsByData (.error fault : Except (Fault α) γ) :=
  (error_iff fault).mpr (h fault hx)

theorem ne_otherTangentPoint (h : FailsByData x) : x ≠ .error .otherTangentPoint := fun hx => h _ hx

@[simp] theorem throw_iff (fault : Fault α) :
    FailsByData (throw fault : Except (Fault α) β) ↔ fault.IsOfData := error_iff fault

@[simp] theorem map_iff (f : β → γ) : FailsByData (x.map f) ↔ FailsByData x := by
  cases x <;> simp [Except.map]

theorem bind {next : β → Except (Fault α) γ} (h : FailsByData x)
    (hnext : ∀ y, x = .ok y → FailsByData (next y)) : FailsByData (x.bind next) := by
  cases x with
  | error fault => exact (error_iff fault).mpr (h fault rfl)
  | ok y => exact hnext y rfl

theorem ite {p : Prop} [Decidable p] {x' : Except (Fault α) β} (h : FailsByData x)
    (h' : FailsByData x') : FailsByData (if p then x else x') := by
  split
  · exact h
  · exact h'

theorem guarded {p : Prop} [Decidable p] {fault : Fault α} {next : PUnit → Except (Fault α) β}
    (hfault : fault.IsOfData) (h : FailsByData (next ⟨⟩)) :
    FailsByData (if p then (throw fault : Except (Fault α) PUnit) >>= next else next ⟨⟩) := by
  split
  · exact (error_iff fault).mpr hfault
  · exact h

theorem mapM {f : β → Except (Fault α) γ} (h : ∀ y, FailsByData (f y)) (ys : List β) :
    FailsByData (ys.mapM f) := by
  induction ys with
  | nil => simp
  | cons y ys ih =>
    rw [List.mapM_cons]
    exact (h y).bind fun _ _ => ih.bind fun _ _ => by simp

theorem foldlM {f : γ → β → Except (Fault α) γ} (h : ∀ z y, FailsByData (f z y)) (ys : List β)
    (z : γ) : FailsByData (ys.foldlM f z) := by
  induction ys generalizing z with
  | nil => simp
  | cons y ys ih =>
    rw [List.foldlM_cons]
    exact (h z y).bind fun z' _ => ih z'

theorem forM {f : β → Except (Fault α) PUnit} (h : ∀ y, FailsByData (f y)) (ys : List β) :
    FailsByData (ys.forM f) := by
  induction ys with
  | nil => simp
  | cons y ys ih => exact (h y).bind fun _ _ => ih

end FailsByData

open Fault

section Conversions

theorem whole_failsByData {β : Type} (x : Nested β) : FailsByData (α := α) x.whole := by
  unfold Nested.whole
  split <;> simp [IsOfData]

mutual

theorem convert_failsByData {β γ : Type} {f : β → Except (Fault α) γ}
    (h : ∀ y, FailsByData (f y)) :
    ∀ x : Nested β, FailsByData (x.convert f)
  | .leaf y => by
    rw [Nested.convert, FailsByData.map_iff]
    exact h y
  | .node items => by
    rw [Nested.convert, FailsByData.map_iff]
    exact convertItems_failsByData h items

theorem convertItems_failsByData {β γ : Type} {f : β → Except (Fault α) γ}
    (h : ∀ y, FailsByData (f y)) :
    ∀ items : List (Nested β), FailsByData (Nested.convertItems f items)
  | [] => by simp [Nested.convertItems]
  | x :: rest => by
    have hx := convert_failsByData h x
    rw [Nested.convertItems]
    split
    · rename_i hfault
      exact hx.passed_on hfault
    · rw [FailsByData.map_iff]
      exact convertItems_failsByData h rest

end

theorem length?_failsByData (v : Value α) : FailsByData v.length? := by
  unfold Value.length?
  split <;> simp [IsOfData]

theorem item_failsByData (v : Value α) (i : Nat) : FailsByData (v.item i) := by
  unfold Value.item
  split <;> try simp [IsOfData]
  split <;> try simp [IsOfData]
  split <;> simp [IsOfData]

variable [Numeral α]

theorem ofInt_failsByData (n : Int) : FailsByData (Value.ofInt n : Except (Fault α) α) := by
  unfold Value.ofInt
  split <;> simp [IsOfData]

theorem toNumber_failsByData (v : Value α) : FailsByData v.toNumber := by
  unfold Value.toNumber
  split
  case h_8 => split <;> simp [IsOfData]
  all_goals simp [IsOfData, ofInt_failsByData]

theorem wholePart_failsByData (x : α) : FailsByData (Value.wholePart x) := by
  unfold Value.wholePart
  split
  · simp
  · split <;> simp [IsOfData]

theorem toInt_failsByData (v : Value α) : FailsByData v.toInt := by
  unfold Value.toInt
  split
  case h_8 => split <;> simp [IsOfData]
  all_goals simp [IsOfData, wholePart_failsByData]

theorem toCell_failsByData (v : Value α) : FailsByData v.toCell := by
  unfold Value.toCell
  split
  · simp
  · exact toNumber_failsByData _

theorem toNested_failsByData (v : Value α) : FailsByData v.toNested :=
  (whole_failsByData _).bind fun x _ => convert_failsByData toCell_failsByData x

theorem coordinates_failsByData (v : Value α) : FailsByData v.coordinates := by
  have hnested := toNested_failsByData v
  unfold Value.coordinates
  split
  · rename_i hfault
    exact hnested.passed_on hfault
  · simp [IsOfData]
  · simp

theorem direction_failsByData (v : Value α) : FailsByData (Direction.ofValue v) := by
  refine (toNested_failsByData v).bind fun x _ => ?_
  unfold Direction.ofNested
  split <;> simp [IsOfData]

end Conversions

section Comparisons

theorem loneType_failsByData (t : CellType) (v : Value α) : FailsByData (Value.loneType t v) := by
  unfold Value.loneType
  split <;> try simp
  split <;> try simp
  split <;> simp [IsOfData]

theorem commonType_failsByData (v w : Value α) : FailsByData (Value.commonType v w) := by
  unfold Value.commonType
  dsimp only
  split
  · exact FailsByData.ite (by simp) (loneType_failsByData _ _)
  · exact FailsByData.ite (by simp) (loneType_failsByData _ _)

theorem pairsOf_failsByData {β γ : Type} (x : Nested β) (y : Nested γ) :
    FailsByData (α := α) (Value.pairsOf x y) := by
  unfold Value.pairsOf
  split <;> simp [IsOfData]

variable [Numeral α]

theorem cell_failsByData (t : CellType) (v : Value α) : FailsByData (Cell.ofValue t v) := by
  unfold Cell.ofValue
  split
  · rw [FailsByData.map_iff]
    exact toInt_failsByData v
  · dsimp only
    split
    · simp
    · rw [FailsByData.map_iff]
      exact toNumber_failsByData _

theorem plainRelation_failsByData (r : Relation) (v w : Value α) :
    FailsByData (Value.plainRelation r v w) := by
  unfold Value.plainRelation
  split <;> try simp
  · split <;> simp
  · split
    · split <;> simp [IsOfData]
    · simp [IsOfData]

theorem singleRelation_failsByData (r : Relation) (v w : Value α) :
    FailsByData (Value.singleRelation r v w) := by
  unfold Value.singleRelation
  split
  · refine (commonType_failsByData v w).bind fun t _ => ?_
    split
    · simp
    · simp [IsOfData]
    · exact plainRelation_failsByData _ _ _
    · refine (cell_failsByData _ v).bind fun x _ => ?_
      rw [FailsByData.map_iff]
      exact cell_failsByData _ w
  · exact plainRelation_failsByData r v w

theorem arrayRelation_failsByData (r : Relation) (v w : Value α) :
    FailsByData (Value.arrayRelation r v w) := by
  refine (whole_failsByData _).bind fun x _ => (whole_failsByData _).bind fun y _ =>
    (commonType_failsByData v w).bind fun t _ => ?_
  split
  · exact (pairsOf_failsByData x y).bind fun _ _ => by simp
  · simp [IsOfData]
  · exact (pairsOf_failsByData x y).bind fun _ _ =>
      FailsByData.mapM (fun _ => singleRelation_failsByData _ _ _) _
  · refine (convert_failsByData (cell_failsByData _) x).bind fun xs _ => ?_
    refine (convert_failsByData (cell_failsByData _) y).bind fun ys _ => ?_
    exact (pairsOf_failsByData xs ys).bind fun _ _ => by simp

theorem oneAnswer_failsByData (r : Relation) (v w : Value α) :
    FailsByData (Value.oneAnswer r v w) := by
  unfold Value.oneAnswer
  refine FailsByData.ite ?_ (plainRelation_failsByData r v w)
  refine (arrayRelation_failsByData r v w).bind fun answers _ => ?_
  unfold Value.onlyAnswer
  split <;> simp [IsOfData]

theorem equal_failsByData (v w : Value α) : FailsByData (v.equal w) := by
  -- Values, entries and items are compared by mutual recursion: a case for each clause.
  apply Value.equal.induct (fun v w => FailsByData (v.equal w))
    (fun xs ys => FailsByData (Value.equalEntries xs ys))
    (fun xs ys => FailsByData (Value.equalItems xs ys))
  · intro xs ys hlength ih
    rwa [Value.equal, if_pos hlength]
  · intro xs ys hlength
    simp [Value.equal, hlength]
  · intro xs ys ih
    rwa [Value.equal]
  · intro xs ys hlength ih
    rwa [Value.equal, if_pos hlength]
  · intro xs ys hlength
    simp [Value.equal, hlength]
  · intro v w hlists htuples hdicts
    rw [Value.equal.eq_4 v w hlists htuples hdicts]
    exact oneAnswer_failsByData _ _ _
  · simp [Value.equalItems]
  · intro x xs y ys hequal _ ih
    rwa [Value.equalItems, hequal]
  · intro x xs y ys hdiffer ih
    rw [Value.equalItems]
    split
    · rename_i hequal
      exact absurd hequal hdiffer
    · exact ih
  · intro xs ys hempty hcons
    rw [Value.equalItems.eq_3 xs ys hempty hcons]
    simp
  · intro ys
    simp [Value.equalEntries]
  · intro key x rest ys hnone
    simp [Value.equalEntries, hnone]
  · intro key x rest ys y hsome hequal _ ih
    simpa [Value.equalEntries, hsome, hequal] using ih
  · intro key x rest ys y hsome hdiffer ih
    rw [Value.equalEntries, hsome]
    dsimp only
    split
    · rename_i hequal
      exact absurd hequal hdiffer
    · exact ih

theorem less_failsByData (v w : Value α) : FailsByData (v.less w) := by
  apply Value.less.induct (fun v w => FailsByData (v.less w))
    (fun xs ys => FailsByData (Value.lessItems xs ys))
  · intro xs ys ih
    rwa [Value.less]
  · intro xs ys ih
    rwa [Value.less]
  · intro v w hlists htuples
    rw [Value.less.eq_3 v w hlists htuples]
    exact oneAnswer_failsByData _ _ _
  · intro ys
    simp [Value.lessItems]
  · intro x xs
    simp [Value.lessItems]
  · intro x xs y ys fault hfault
    have hequal := equal_failsByData x y
    rw [hfault] at hequal
    simpa [Value.lessItems, hfault] using hequal
  · intro x xs y ys hequal ih
    simpa [Value.lessItems, hequal] using ih
  · intro x xs y ys hequal ih
    simpa [Value.lessItems, hequal] using ih

theorem equalsAny_failsByData (v : Value α) (xs : List (Value α)) :
    FailsByData (v.equalsAny xs) := by
  induction xs with
  | nil => simp [Value.equalsAny]
  | cons x rest ih =>
    rw [Value.equalsAny]
    split
    · exact ih
    · exact equal_failsByData x v

theorem isIn_failsByData (v container : Value α) : FailsByData (v.isIn container) := by
  unfold Value.isIn
  split <;> try simp [IsOfData, equalsAny_failsByData]
  · split <;> simp [IsOfData]
  · exact arrayRelation_failsByData _ _ _

end Comparisons

section Rules

theorem checked_bind_failsByData {β γ : Type} {c : Checked α β} {next : β → Value α → Checked α γ}
    (h : FailsByData c.result) (hnext : ∀ y parameters, FailsByData (next y parameters).result) :
    FailsByData (c.bind next).result := by
  unfold Checked.bind
  split
  · rename_i hfault
    exact h.passed_on hfault
  · exact hnext _ _

theorem entry_failsByData (parameters : Value α) (key : String) :
    FailsByData (parameters.entry key) := by
  unfold Value.entry
  split <;> try simp [IsOfData]
  split <;> simp [IsOfData]

theorem setEntry_failsByData (parameters : Value α) (key : String) (value : Value α) :
    FailsByData (parameters.setEntry key value) := by
  unfold Value.setEntry
  split <;> simp [IsOfData]

variable [Numeral α]

theorem isOutside_failsByData (range v : Value α) : FailsByData (Rule.isOutside range v) := by
  refine (item_failsByData range 0).bind fun low _ => ?_
  refine (less_failsByData v low).bind fun below _ => FailsByData.ite (by simp) ?_
  exact (item_failsByData range 1).bind fun high _ => less_failsByData high v

theorem objection?_failsByData (r : Rule α) (key : String) (kinds : List Kind) (v : Value α) :
    FailsByData (r.objection? key kinds v) := by
  have hrange : ∀ range, FailsByData ((Rule.isOutside range v).bind fun outside =>
      if outside = true then pure (some (.notInRange key range))
      else pure (none : Option (Complaint α))) :=
    fun range => (isOutside_failsByData range v).bind fun _ _ => FailsByData.ite (by simp) (by simp)
  unfold Rule.objection?
  refine FailsByData.ite (by simp) ?_
  dsimp only
  split
  · refine (isIn_failsByData v _).bind fun allowed _ => FailsByData.ite (by simp) ?_
    split
    · exact hrange _
    · simp
  · split
    · exact hrange _
    · simp

theorem firstObjection?_failsByData (r : Rule α) (key : String) (kinds : List Kind)
    (items : List (Value α)) : FailsByData (r.firstObjection? key kinds items) := by
  induction items with
  | nil => simp [Rule.firstObjection?]
  | cons v rest ih =>
    rw [Rule.firstObjection?]
    split
    · exact ih
    · exact objection?_failsByData r key kinds v

theorem hasWrongLength_failsByData (r : Rule α) (v : Value α) :
    FailsByData (r.hasWrongLength v) := by
  refine (length?_failsByData v).bind fun count _ => (equal_failsByData _ _).bind fun same _ => ?_
  exact FailsByData.ite (by simp) ((equal_failsByData _ _).bind fun _ _ => by simp)

theorem itemsObjection?_failsByData (r : Rule α) (key : String) (v : Value α) :
    FailsByData (r.itemsObjection? key v) := by
  unfold Rule.itemsObjection?
  refine FailsByData.ite (by simp) ?_
  refine (hasWrongLength_failsByData r v).bind fun wrong _ => FailsByData.ite (by simp) ?_
  split
  · simp
  · simp [IsOfData]
  · exact firstObjection?_failsByData r key _ _

theorem valueObjection?_failsByData (r : Rule α) (key : String) (v : Value α) :
    FailsByData (r.valueObjection? key v) :=
  FailsByData.ite (itemsObjection?_failsByData r key v) (objection?_failsByData r key r.kinds v)

theorem check_failsByData (r : Rule α) (key : String) (parameters : Value α) :
    FailsByData (r.check key parameters).result := by
  have hhas : FailsByData (parameters.hasEntry key) := isIn_failsByData _ _
  unfold Rule.check
  split
  · rename_i hfault
    exact hhas.passed_on hfault
  · simp
  · rename_i value _ _
    have hset := setEntry_failsByData parameters key value
    split
    · rename_i hfault
      exact hset.passed_on hfault
    · simp
  · have hvalue : FailsByData ((parameters.entry key).bind (r.valueObjection? key)) :=
      (entry_failsByData parameters key).bind fun v _ => valueObjection?_failsByData r key v
    split
    · rename_i hfault
      exact hvalue.passed_on hfault
    · simp
    · simp

theorem checkAll_failsByData (rules : List (String × Rule α)) (parameters : Value α) :
    FailsByData (Rule.checkAll rules parameters).result := by
  induction rules generalizing parameters with
  | nil => simp [Rule.checkAll]
  | cons first rest ih =>
    exact checked_bind_failsByData (check_failsByData _ _ _) fun _ _ =>
      checked_bind_failsByData (ih _) fun _ _ => by simp

omit [Numeral α] in
theorem convertEntry_failsByData (key : String) {convert : Value α → Except (Fault α) (Value α)}
    (h : ∀ v, FailsByData (convert v)) (parameters : Value α) :
    FailsByData (Settings.convertEntry key convert parameters).result := by
  have hvalue : FailsByData ((parameters.entry key).bind convert) :=
    (entry_failsByData parameters key).bind fun v _ => h v
  unfold Settings.convertEntry
  split
  · rename_i hfault
    exact hvalue.passed_on hfault
  · split
    · rename_i hfault
      exact (setEntry_failsByData parameters key _).passed_on hfault
    · simp

omit [Numeral α] in
theorem convertAll_failsByData
    {conversions : List (String × (Value α → Except (Fault α) (Value α)))}
    (h : ∀ conversion ∈ conversions, ∀ v, FailsByData (conversion.2 v)) (parameters : Value α) :
    FailsByData (Settings.convertAll conversions parameters).result := by
  induction conversions generalizing parameters with
  | nil => simp [Settings.convertAll]
  | cons first rest ih =>
    rw [List.forall_mem_cons] at h
    exact checked_bind_failsByData (convertEntry_failsByData _ h.1 parameters)
      fun _ next => ih h.2 next

theorem conversions_failByData (v : Value α) :
    ∀ conversion ∈ (Settings.conversions (α := α)), FailsByData (conversion.2 v) := by
  have hreal : FailsByData (Settings.asReal v) := by
    rw [Settings.asReal, FailsByData.map_iff]
    exact toNumber_failsByData v
  have hwhole : FailsByData (Settings.asWhole v) := by
    rw [Settings.asWhole, FailsByData.map_iff]
    exact toInt_failsByData v
  simp [Settings.conversions, hreal, hwhole]

theorem ofParameters_failsByData (parameters : Value α) :
    FailsByData (Settings.ofParameters parameters).result := by
  have hcheck : FailsByData (Settings.check parameters).result := by
    refine checked_bind_failsByData (checkAll_failsByData _ _) fun passed filled => ?_
    split
    · refine checked_bind_failsByData (convertAll_failsByData ?_ _) fun _ _ => by simp
      exact fun conversion hmem v => conversions_failByData v conversion hmem
    · simp
  refine checked_bind_failsByData hcheck fun passed _ => ?_
  split
  · split <;> simp [IsOfData]
  · simp [IsOfData]

omit [Numeral α] in
theorem checkVariable_failsByData (names : List String) (parameters : Value α) :
    FailsByData (Selection.checkVariable names parameters).result := by
  unfold Selection.checkVariable
  split
  · rename_i hfault
    exact (entry_failsByData parameters _).passed_on hfault
  · split <;> simp
  · simp

theorem checkCentersFrom_failsByData (center parameters : Value α) :
    FailsByData (Selection.checkCentersFrom center parameters).result := by
  unfold Selection.checkCentersFrom
  split
  · rename_i hfault
    exact (coordinates_failsByData center).passed_on hfault
  · exact checkAll_failsByData _ _

theorem checkCentersAlone_failsByData (parameters : Value α) :
    FailsByData (Selection.checkCentersAlone parameters).result := by
  refine checked_bind_failsByData (check_failsByData _ _ _) fun passed filled => ?_
  split
  · split
    · rename_i hfault
      exact (entry_failsByData filled _).passed_on hfault
    · exact check_failsByData _ _ _
  · simp

theorem selection_failsByData (names : List String) (attributes : Dict α) (parameters : Value α) :
    FailsByData (Selection.check names attributes parameters).result := by
  refine checked_bind_failsByData (checkAll_failsByData _ _) fun named filled => ?_
  refine checked_bind_failsByData ?_ fun chosen filled =>
    checked_bind_failsByData ?_ fun _ _ => by simp
  · split
    · exact checkVariable_failsByData _ _
    · simp
  · split
    · exact checkCentersFrom_failsByData _ _
    · exact checkCentersAlone_failsByData _

omit [Numeral α] in
theorem resolve_failsByData (parameters : Value α) :
    FailsByData (Correction.resolve parameters) := by
  refine (entry_failsByData _ _).bind fun name _ => (entry_failsByData _ _).bind fun outName _ =>
    (entry_failsByData _ _).bind fun _ _ => (entry_failsByData _ _).bind fun _ _ => ?_
  split <;> simp [IsOfData]

end Rules

section Reading

theorem ofCells_failsByData (cells : List α) : FailsByData (Chunk.ofCells cells) := by
  fun_induction Chunk.ofCells cells with
  | case1 => simp
  | case2 _ _ _ _ ih => simpa using ih
  | case3 => simp [IsOfData]

theorem places_failsByData (count : Nat) (i : Int) :
    FailsByData (Places.ofValue count (.integer i : Value α)) := by
  rw [Places.ofValue, FailsByData.map_iff, Places.find]
  split <;> simp [IsOfData]

theorem readable_failsByData (steps : List (Option (List (List α)))) :
    FailsByData (Variable.readable steps) := by
  unfold Variable.readable
  split <;> simp [IsOfData]

theorem variable_read_failsByData (v : Variable α) (i : Int) :
    FailsByData (v.read (.integer i)) := by
  unfold Variable.read
  split
  · simp [IsOfData]
  · exact (places_failsByData 0 i).bind fun _ _ => by simp [IsOfData]
  · split
    · rw [FailsByData.map_iff]
      exact readable_failsByData _
    · refine (places_failsByData _ i).bind fun places _ => ?_
      cases places with
      | one j =>
        dsimp only
        split <;> simp [IsOfData]
      | several js =>
        rw [FailsByData.map_iff]
        exact readable_failsByData _

theorem dataset_read_failsByData (d : Dataset α) (name : String) (i : Int) :
    FailsByData (d.read name (.integer i)) := by
  unfold Dataset.read
  split
  · exact FailsByData.ite (variable_read_failsByData _ i) (by simp [IsOfData])
  · exact variable_read_failsByData _ i

variable [Scalar α]

theorem frequencies_failsByData (d : Dataset α) : FailsByData d.frequencies := by
  unfold Dataset.frequencies
  split
  · exact FailsByData.ite (by simp) (by simp [IsOfData])
  · split <;> simp [IsOfData]

theorem slice_failsByData (d : Dataset α) (name : String) {center : Except (Fault α) (Direction α)}
    (hcenter : FailsByData center) (i : Int) : FailsByData (d.slice name center (.integer i)) := by
  refine (dataset_read_failsByData d name i).bind fun reading _ => ?_
  refine (frequencies_failsByData d).bind fun channels _ => ?_
  rwa [FailsByData.map_iff]

theorem served_failsByData (rows : List (List α)) (width : Int) :
    FailsByData (Slice.served rows width) :=
  FailsByData.ite (ofCells_failsByData _) (by simp [IsOfData])

theorem slice_rows_failsByData {d : Dataset α} {name : String}
    {center : Except (Fault α) (Direction α)} {time : Value α} {s : Slice α} (h : d.slice name center time = .ok s) : FailsByData s.rows := by
  unfold Dataset.slice at h
  cases hread : d.read name time with
  | error fault => simp [hread, Except.bind] at h
  | ok reading =>
    cases hchannels : d.frequencies with
    | error fault => simp [hread, hchannels, Except.bind] at h
    | ok channels =>
      cases center with
      | error fault => simp [hread, hchannels, Except.bind, Except.map] at h
      | ok c =>
        simp only [hread, hchannels, Except.bind, Except.map] at h
        cases reading with
        | step rows =>
          cases h
          exact served_failsByData _ _
        | steps steps =>
          cases h
          exact served_failsByData _ _

end Reading

section Assembly

theorem settle_failsByData (d : Dataset α) (vs : Keyed (Variable α)) : FailsByData (d.settle vs) :=
  FailsByData.ite (by simp) (by simp [IsOfData])

theorem relabel_failsByData (d : Dataset α) (added : Keyed (Variable α)) :
    FailsByData (d.relabel added) :=
  FailsByData.ite (by simp [IsOfData])
    (FailsByData.ite (by simp [IsOfData]) (settle_failsByData _ _))

theorem prepare_failsByData (d : Dataset α) (added : Keyed (Variable α)) :
    FailsByData (d.prepare added) := by
  have hlengths : ∀ ready : Dataset α, ∀ others : Keyed (Variable α),
      FailsByData (if agree (sizes ready.entries ++ sizes others) = true then pure ready else
        throw lengthsDisagree : Except (Fault α) (Dataset α)) :=
    fun _ _ => FailsByData.ite (.pure_ok _) ((FailsByData.throw_iff _).mpr trivial)
  unfold Dataset.prepare
  split
  exact FailsByData.ite ((FailsByData.pure_ok d).bind fun _ _ => hlengths _ _)
    ((relabel_failsByData d _).bind fun _ _ => hlengths _ _)

theorem assign_failsByData (d : Dataset α) (added : Keyed (Variable α)) :
    FailsByData (d.assign added) := by
  refine (prepare_failsByData d added).bind fun ready _ => ?_
  refine (settle_failsByData _ _).bind fun _ _ => ?_
  exact FailsByData.ite (by simp [IsOfData]) (by simp)

variable [Numeral α]

theorem toReal_failsByData (a : Amount α) : FailsByData a.toReal := by
  unfold Amount.toReal
  split
  · exact ofInt_failsByData _
  · simp

theorem amount_toInt_failsByData (a : Amount α) : FailsByData a.toInt := by
  unfold Amount.toInt
  split
  · simp
  · exact wholePart_failsByData _

theorem combine_failsByData (op : Operation α) (a b : Amount α) : FailsByData (a.combine op b) := by
  unfold Amount.combine
  split
  · simp
  · exact (toReal_failsByData a).bind fun _ _ => (toReal_failsByData b).bind fun _ _ => by simp

theorem total_failsByData (vs : List (Value α)) : FailsByData (Value.total vs) := by
  refine FailsByData.foldlM (fun sum v => ?_) vs _
  split
  · exact combine_failsByData _ _ _
  · simp [IsOfData]

namespace Cut

theorem byteSize_failsByData (s : String) : FailsByData (α := α) (byteSize s) := by
  unfold byteSize
  dsimp only
  split
  · exact wholePart_failsByData _
  · simp [IsOfData]

theorem limit_failsByData (said : List (Value α)) : FailsByData (limit said) := by
  refine FailsByData.bind (FailsByData.foldlM (fun limit v => ?_) said none) fun _ _ => by simp
  split
  · refine FailsByData.ite (by simp) ((byteSize_failsByData _).bind fun _ _ => ?_)
    exact FailsByData.ite (by simp) (by simp [IsOfData])
  · simp

theorem size_failsByData (v : Value α) : FailsByData (size v) := by
  unfold size
  split
  · split <;> simp [IsOfData]
  · split <;> simp [IsOfData]
  · simp [IsOfData]

theorem known_failsByData (cut : Cut α) : FailsByData cut.known := by
  unfold known
  split
  · rw [FailsByData.map_iff]
    exact size_failsByData _
  · rw [FailsByData.map_iff]
    exact FailsByData.mapM size_failsByData _
  all_goals simp

theorem area_failsByData (sizes : List (List (Amount α))) : FailsByData (area sizes) := by
  refine FailsByData.foldlM (fun n sizes => ?_) sizes _
  have hlargest : FailsByData (largest sizes) := by
    unfold largest
    split <;> simp [IsOfData]
  exact hlargest.bind fun _ _ => combine_failsByData _ _ _

theorem share_failsByData (limit : Int) (count : Nat) (cuts : List (Cut α)) :
    FailsByData (share limit count cuts) := by
  refine (FailsByData.mapM known_failsByData cuts).bind fun sizes _ => ?_
  refine (area_failsByData _).bind fun area _ => ?_
  refine FailsByData.guarded trivial ((toReal_failsByData _).bind fun _ _ => ?_)
  refine (ofInt_failsByData _).bind fun bytes _ => ?_
  exact FailsByData.guarded trivial (FailsByData.guarded trivial (by simp))

theorem roundSize_failsByData (size : α) (length : Nat) : FailsByData (roundSize size length) := by
  refine FailsByData.ite (by simp [IsOfData]) ?_
  split
  · simp
  · rw [FailsByData.map_iff]
    exact wholePart_failsByData _

theorem choose_failsByData (limit : Int) (rounds : Nat) (each : List (Nat × Cut α)) :
    FailsByData (choose limit rounds each) := by
  induction rounds generalizing each with
  | zero => simp [choose]
  | succ rounds ih =>
    refine FailsByData.ite (by simp) ((share_failsByData _ _ _).bind fun size _ => ?_)
    refine FailsByData.ite (ih _) (FailsByData.mapM (fun dimension => ?_) each)
    refine FailsByData.ite ?_ (by simp)
    rw [FailsByData.map_iff]
    exact roundSize_failsByData _ _

theorem sizes_failsByData (length : Nat) (cut : Cut α) : FailsByData (cut.sizes length) := by
  unfold sizes
  split
  · refine (size_failsByData _).bind fun n _ => ?_
    split
    · simp [IsOfData]
    · exact FailsByData.guarded trivial (FailsByData.guarded trivial (by simp))
  all_goals simp [IsOfData]

theorem checkTotal_failsByData (length : Nat) (sizes : List (Value α)) :
    FailsByData (checkTotal length sizes) := by
  refine (total_failsByData sizes).bind fun total _ => FailsByData.ite (by simp) ?_
  refine (toReal_failsByData total).bind fun _ _ => ?_
  exact FailsByData.ite (by simp [IsOfData]) (by simp)

theorem wholeSize_failsByData (v : Value α) : FailsByData (wholeSize v) := by
  unfold wholeSize
  split
  · exact amount_toInt_failsByData _
  · simp [IsOfData]

theorem blocks_failsByData (lengths : List Nat) (cuts : List (Cut α)) :
    FailsByData (blocks lengths cuts) := by
  refine (FailsByData.mapM (fun _ => sizes_failsByData _ _) _).bind fun all _ => ?_
  refine FailsByData.guarded trivial ?_
  have hwhole : FailsByData (all.mapM fun sizes => sizes.mapM wholeSize) :=
    FailsByData.mapM (fun sizes => FailsByData.mapM wholeSize_failsByData sizes) _
  refine FailsByData.ite ?_ hwhole
  exact (FailsByData.forM (fun _ => checkTotal_failsByData _ _) _).bind fun _ _ => hwhole

theorem blocksOfValues_failsByData (lengths : List Nat) (said : List (Value α)) :
    FailsByData (blocksOfValues lengths said) := by
  refine FailsByData.ite (by simp) (FailsByData.guarded trivial ?_)
  refine (limit_failsByData said).bind fun limit _ => ?_
  exact (choose_failsByData _ _ _).bind fun cuts _ => blocks_failsByData lengths cuts

theorem blocksOfValue_failsByData (lengths : List Nat) (said : Value α) :
    FailsByData (blocksOfValue lengths said) := by
  unfold blocksOfValue
  split <;> exact blocksOfValues_failsByData _ _

end Cut

theorem newBlocks_failsByData (shape : List Nat) (blocks : Option (List (List Int))) :
    FailsByData (Correction.newBlocks (α := α) shape blocks) := by
  cases blocks with
  | none => exact Cut.blocksOfValue_failsByData shape (.text Cut.automaticText)
  | some blocks => exact Cut.blocksOfValues_failsByData (α := α) _ _

omit [Numeral α] in
theorem assemble_failsByData [Quantity α] (d : Dataset α) (old : Variable α) (outName : String)
    (parameters center : Value α) (results : List (StepResult α)) :
    FailsByData (Correction.assemble d old outName parameters center results).result := by
  unfold Correction.assemble
  split
  · rename_i hfault
    exact (newBlocks_failsByData _ _).passed_on hfault
  · dsimp only
    split
    · rename_i hfault
      exact (prepare_failsByData d _).passed_on hfault
    · rename_i hfault
      exact (assign_failsByData d _).passed_on hfault
    · split
      · rename_i hfault
        exact (coordinates_failsByData center).passed_on hfault
      · simp

end Assembly

end Coplanar
