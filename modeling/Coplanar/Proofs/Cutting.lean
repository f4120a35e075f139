import Coplanar.Dataset.Cut
import Coplanar.Proofs.Quantities

/-! Arrays that can be cut.  Where there is something along every dimension, the sizes that
are chosen, or given as positive numbers, make blocks that cover each dimension. -/
namespace Coplanar

namespace Cut

variable {K : Type}

def IsSize (n : Int) : Prop := 0 < n ∧ n < Value.naturalLimit

def IsLength (n : Nat) : Prop := IsSize n

instance (n : Nat) : Decidable (IsLength n) :=
  inferInstanceAs (Decidable ((0 : Int) < n ∧ (n : Int) < Value.naturalLimit))

/-- A length that is cut, into a single block or into blocks of one positive size. -/
inductive Settled (length : Nat) : Cut (Sample K) → Prop where
  | single : Settled length (.given [.integer length])
  | even {n : Int} (h : IsSize n) : Settled length (.even (.whole n))

/-- A length to be cut, in a way that is known or is to be chosen. -/
def Ready (p : Nat × Cut (Sample K)) : Prop :=
  IsLength p.1 ∧ (p.2 = .automatic ∨ Settled p.1 p.2)

theorem Ready.settled {p : Nat × Cut (Sample K)} (h : Ready p) (hauto : p.2.isAutomatic = false) :
    Settled p.1 p.2 := by
  refine h.2.resolve_left fun hcut => ?_
  rw [hcut] at hauto
  cases hauto

theorem not_isNamed_of_ready {each : List (Nat × Cut (Sample K))} (h : ∀ p ∈ each, Ready p) :
    (each.map (·.2)).any isNamed = false := by
  rw [List.any_eq_false]
  intro cut hcut
  obtain ⟨⟨length, cut⟩, hp, rfl⟩ := List.mem_map.mp hcut
  obtain ⟨-, hcut⟩ := h _ hp
  dsimp only at hcut ⊢
  obtain rfl | hsettled := hcut
  · exact Bool.false_ne_true
  · cases hsettled <;> exact Bool.false_ne_true

variable [Field K] [LinearOrder K] [FloorRing K] [Circular K] [Roots K]

theorem size_integer {n : Int} (h : IsSize n) :
    size (.integer n : Value (Sample K)) = .ok (.whole n) := by
  have hlow : Value.wordLow ≤ n := le_trans (by decide) h.1.le
  exact if_pos ⟨hlow, h.2⟩

/-! ### The blocks of a length -/

theorem total_append (vs : List (Value (Sample K))) (n : Int) :
    Value.total (vs ++ [.integer n]) =
      (Value.total vs).bind fun sum => sum.combine .plus (.whole n) := by
  unfold Value.total
  rw [List.foldlM_append]
  exact congrArg _ (funext fun sum => bind_pure (sum.combine .plus (.whole n)))

theorem total_integers (sizes : List Int) :
    Value.total (sizes.map (.integer : Int → Value (Sample K))) = .ok (.whole (covered sizes)) := by
  induction sizes using List.reverseRecOn with
  | nil => rfl
  | append_singleton sizes n ih =>
    rw [List.map_append, List.map_singleton, total_append, ih, covered_append]
    simp [Except.bind, Operation.plus, covered]

theorem checkTotal_of_covered {length : Nat} {sizes : List Int} (h : covered sizes = length) :
    checkTotal length (sizes.map (.integer : Int → Value (Sample K))) = .ok () := by
  have htotal : Value.total (sizes.map (.integer : Int → Value (Sample K))) =
      .ok (.whole (length : Int)) := by
    rw [total_integers, h]
  have horder : (Amount.whole (length : Int) : Amount (Sample K)).order (.whole length) =
      some .eq := by
    simp [Amount.order]
  simp only [checkTotal, htotal, bind, Except.bind, horder, if_true]
  rfl

theorem wholeSizes (sizes : List Int) :
    (sizes.map (.integer : Int → Value (Sample K))).mapM wholeSize = .ok sizes := by
  induction sizes with
  | nil => rfl
  | cons n sizes ih =>
    have hn : wholeSize (.integer n : Value (Sample K)) = .ok n := rfl
    simp [List.mapM_cons, hn, ih, bind, Except.bind, pure, Except.pure]

theorem sizes_of_settled {length : Nat} {cut : Cut (Sample K)} (hlength : IsLength length)
    (h : Settled length cut) :
    ∃ sizes : List Int, cut.sizes length = .ok (sizes.map .integer) ∧ sizes ≠ [] ∧
      covered sizes = length := by
  cases h with
  | single => exact ⟨[(length : Int)], rfl, by simp, by simp [covered]⟩
  | @even n hsize =>
    have hcovered := covered_evenBlocks hsize.1 length
    refine ⟨evenBlocks n length, ?_, fun hnil => ?_, hcovered⟩
    · have horder : (Amount.whole n : Amount (Sample K)).order (.whole n) = some .eq := by
        simp [Amount.order]
      have hsome : size (Value.ofAmount (.whole n) : Value (Sample K)) = .ok (.whole n) :=
        size_integer hsize
      have hzero : ¬ (n = 0 ∧ length ≠ 0) := fun h => hsize.1.ne' h.1
      simp only [sizes, hsome, bind, Except.bind, Amount.toInt, horder, hzero, ne_eq,
        not_true_eq_false, if_false]
      rfl
    · rw [hnil, covered] at hcovered
      have := hlength.1
      omega

/-! ### The blocks of all lengths -/

theorem allSizes_of_settled {lengths : List Nat} {cuts : List (Cut (Sample K))}
    (h : List.Forall₂ (fun n cut => IsLength n ∧ Settled n cut) lengths cuts) :
    ∃ each : List (List Int),
      (lengths.zip cuts).mapM (fun (length, cut) => cut.sizes length) =
        .ok (each.map (·.map .integer)) ∧
      (∀ sizes ∈ each, sizes ≠ []) ∧
      List.Forall₂ (fun (n : Nat) sizes => covered sizes = n) lengths each := by
  induction h with
  | nil => exact ⟨[], rfl, by simp, .nil⟩
  | cons hfirst _ ih =>
    obtain ⟨sizes, hsizes, hne, hcovered⟩ := sizes_of_settled hfirst.1 hfirst.2
    obtain ⟨each, heach, hall, hrest⟩ := ih
    refine ⟨sizes :: each, ?_, by simpa using ⟨hne, hall⟩, .cons hcovered hrest⟩
    simp [List.zip_cons_cons, List.mapM_cons, hsizes, heach, bind, Except.bind, pure, Except.pure]

theorem checkTotals_of_covered {lengths : List Nat} {each : List (List Int)}
    (h : List.Forall₂ (fun (n : Nat) sizes => covered sizes = n) lengths each) :
    (lengths.zip (each.map (·.map (.integer : Int → Value (Sample K))))).forM
      (fun (length, sizes) => checkTotal length sizes) = .ok () := by
  induction h with
  | nil => rfl
  | cons hfirst _ ih =>
    rw [List.map_cons, List.zip_cons_cons, List.forM]
    dsimp only
    rw [checkTotal_of_covered hfirst]
    exact ih

theorem wholeSizes_all (each : List (List Int)) :
    (each.map (·.map (.integer : Int → Value (Sample K)))).mapM
      (fun sizes => sizes.mapM wholeSize) = .ok each := by
  induction each with
  | nil => rfl
  | cons sizes each ih =>
    simp only [List.map_cons, List.mapM_cons, wholeSizes, ih]
    rfl

theorem blocks_of_settled {lengths : List Nat} {cuts : List (Cut (Sample K))}
    (h : List.Forall₂ (fun n cut => IsLength n ∧ Settled n cut) lengths cuts) :
    ∃ each, blocks lengths cuts = .ok each ∧
      List.Forall₂ (fun (n : Nat) sizes => covered sizes = n) lengths each := by
  obtain ⟨each, hsizes, hne, hcovered⟩ := allSizes_of_settled h
  have hempty : (each.map (·.map (.integer : Int → Value (Sample K)))).any List.isEmpty =
      false := by
    simpa using hne
  refine ⟨each, ?_, hcovered⟩
  simp only [blocks, hsizes, bind, Except.bind, hempty, checkTotals_of_covered hcovered,
    wholeSizes_all, Bool.false_eq_true, if_false]
  split <;> rfl

/-! ### Sizes that are chosen -/

theorem known_of_settled {length : Nat} {cut : Cut (Sample K)} (hlength : IsLength length)
    (h : Settled length cut) : ∃ n, IsSize n ∧ cut.known = .ok (some [.whole n]) := by
  cases h with
  | single =>
    refine ⟨length, hlength, ?_⟩
    rw [known, List.mapM_cons, size_integer hlength]
    rfl
  | @even n hn => exact ⟨n, hn, by rw [known, Value.ofAmount, size_integer hn]; rfl⟩

theorem knowns_of_ready {each : List (Nat × Cut (Sample K))} (h : ∀ p ∈ each, Ready p) :
    ∃ sizes : List Int, (∀ n ∈ sizes, 0 < n) ∧
      ∃ all, (each.map (·.2)).mapM known = .ok all ∧
        all.filterMap id = sizes.map fun n => [.whole n] := by
  induction each with
  | nil => exact ⟨[], by simp, [], rfl, rfl⟩
  | cons p each ih =>
    obtain ⟨hlength, hcut⟩ := h p List.mem_cons_self
    obtain ⟨sizes, hpos, all, hall, hsizes⟩ := ih fun q hq => h q (List.mem_cons_of_mem _ hq)
    obtain hauto | hsettled := hcut
    · refine ⟨sizes, hpos, none :: all, ?_, by simpa using hsizes⟩
      have hnone : p.2.known = .ok none := by rw [hauto]; rfl
      simp only [List.map_cons, List.mapM_cons, hnone, hall]
      rfl
    · obtain ⟨n, hn, hknown⟩ := known_of_settled hlength hsettled
      refine ⟨n :: sizes, by simpa using ⟨hn.1, hpos⟩, some [.whole n] :: all, ?_, ?_⟩
      · simp only [List.map_cons, List.mapM_cons, hknown, hall]
        rfl
      · rw [List.filterMap_cons_some (f := id) rfl, hsizes, List.map_cons]

theorem area_of_pos {sizes : List Int} (h : ∀ n ∈ sizes, 0 < n) {start : Int} (hstart : 0 < start) :
    ∃ m, 0 < m ∧ (sizes.map fun n => [(.whole n : Amount (Sample K))]).foldlM
      (fun (n : Amount (Sample K)) sizes => (largest sizes).bind (n.combine .times))
      (.whole start) = .ok (.whole m) := by
  induction sizes generalizing start with
  | nil => exact ⟨start, hstart, rfl⟩
  | cons n sizes ih =>
    exact ih (fun m hm => h m (List.mem_cons_of_mem _ hm))
      (mul_pos hstart (h n List.mem_cons_self))

/-- The cut of a length once those below their share stay whole. -/
def shorten (size : Sample K) (p : Nat × Cut (Sample K)) : Nat × Cut (Sample K) :=
  (p.1, if p.2.isAutomatic && isBelow p.1 size then .given [.integer p.1] else p.2)

theorem Ready.shorten {p : Nat × Cut (Sample K)} (h : Ready p) (size : Sample K) :
    Ready (shorten size p) := by
  refine ⟨h.1, ?_⟩
  unfold Cut.shorten
  split
  · exact .inr .single
  · exact h.2

theorem countP_shorten (size : Sample K) (each : List (Nat × Cut (Sample K))) :
    (each.map (shorten size)).countP (fun (_, cut) => cut.isAutomatic) +
      each.countP (fun (length, cut) => cut.isAutomatic && isBelow length size) =
        each.countP fun (_, cut) => cut.isAutomatic := by
  induction each with
  | nil => rfl
  | cons p each ih =>
    obtain ⟨length, cut⟩ := p
    have hgiven : (given [.integer length] : Cut (Sample K)).isAutomatic = false := rfl
    rw [List.map_cons, List.countP_cons, List.countP_cons, List.countP_cons, ← ih, shorten]
    cases hauto : cut.isAutomatic <;> cases hbelow : isBelow length size <;>
      simp only [hauto, hbelow, hgiven, Bool.and_false, Bool.and_true, Bool.false_eq_true, if_true,
        if_false] <;> omega

/-- What can be said of a length: that its size is to be chosen, or a size. -/
inductive Saying : Value (Sample K) → Prop where
  | automatic : Saying (.text automaticText)
  | size {n : Int} (h : IsSize n) : Saying (.integer n)

theorem ready_of_saying {length : Nat} {v : Value (Sample K)} (hlength : IsLength length)
    (h : Saying v) : Ready (length, ofValue length v) := by
  refine ⟨hlength, ?_⟩
  cases h with
  | automatic => exact .inl rfl
  | @size n hn =>
    have horder : (Amount.whole n : Amount (Sample K)).order (.whole (-1)) ≠ some .eq := by
      have := hn.1
      simp only [Amount.order, ne_eq, Option.some.injEq, Std.compare_eq_iff_eq]
      omega
    have hcut : ofValue length (.integer n : Value (Sample K)) = .even (.whole n) :=
      congrArg even (if_neg horder)
    exact .inr (hcut ▸ .even hn)

theorem readies_of_sayings {lengths : List Nat} {said : List (Value (Sample K))}
    (hlengths : ∀ n ∈ lengths, IsLength n) (hsaid : ∀ v ∈ said, Saying v) :
    ∀ p ∈ (lengths.zip said).map fun (length, v) => (length, ofValue length v), Ready p := by
  rintro _ hp
  obtain ⟨⟨n, v⟩, hmem, rfl⟩ := List.mem_map.mp hp
  have hpair := List.of_mem_zip hmem
  exact ready_of_saying (hlengths n hpair.1) (hsaid v hpair.2)

theorem limit_of_sayings {said : List (Value (Sample K))} (h : ∀ v ∈ said, Saying v) :
    limit said = .ok usualLimit := by
  induction said with
  | nil => rfl
  | cons v said ih =>
    have hrest := ih fun w hw => h w (List.mem_cons_of_mem _ hw)
    cases h v List.mem_cons_self <;> exact hrest

variable [IsStrictOrderedRing K]

/-- Sizes that are known leave room for the others. -/
theorem share_of_ready {each : List (Nat × Cut (Sample K))} (h : ∀ p ∈ each, Ready p)
    (limit : Int) (count : Nat) :
    ∃ x : K, share limit count (each.map (·.2)) = .ok (.known x) := by
  obtain ⟨sizes, hpos, all, hall, hsizes⟩ := knowns_of_ready h
  obtain ⟨m, hm, hproduct⟩ := area_of_pos (K := K) hpos Int.one_pos
  have harea : area (all.filterMap id) = .ok (.whole m) := by
    rw [hsizes]
    exact hproduct
  have hint (n : Int) : (Value.ofInt n : Except (Fault (Sample K)) (Sample K)) = .ok (.known n) :=
    rfl
  have hpositive : (0 : K) < m := by exact_mod_cast hm
  have hzero : Scalar.same (.known (m : K)) (0 : Sample K) = false :=
    decide_eq_false hpositive.ne'
  have hroom : (.known ((max 1 limit : Int) : K) / Scalar.natural elementBytes / .known (m : K) :
      Sample K) = .known ((max 1 limit : Int) / (8 : Nat) / m) := by
    have hbytes : ((8 : Nat) : K) ≠ 0 := Nat.cast_ne_zero.mpr (by decide)
    change (.known _ / .known ((8 : Nat) : K) / .known (m : K) : Sample K) = _
    rw [Sample.div_known _ hbytes, Sample.div_known _ hpositive.ne']
  have hless : Scalar.less (.known ((max 1 limit : Int) / (8 : Nat) / m : K)) (0 : Sample K) =
      false := by
    refine decide_eq_false (not_lt.mpr ?_)
    have hlimit : (0 : K) ≤ (max 1 limit : Int) := by exact_mod_cast le_max_of_le_left zero_le_one
    positivity
  simp only [share, hall, harea, bind, Except.bind, not_isNamed_of_ready h, Amount.toReal, hint,
    hzero, hroom, hless, Bool.false_eq_true, and_false, if_false]
  exact ⟨_, rfl⟩

theorem roundSize_of_not_isBelow {x : K} {length : Nat} (hlength : IsLength length)
    (h : isBelow length (Sample.known x) = false) :
    ∃ n, IsSize n ∧ roundSize (Sample.known x) length = .ok n := by
  have hle : x ≤ length := by
    refine not_lt.mp fun hlt => ?_
    have hgt : compare x ((length : Int) : K) = .gt := compare_gt_iff_gt.mpr (by exact_mod_cast hlt)
    change (some (compare x ((length : Int) : K)) == some .gt) = false at h
    rw [hgt] at h
    cases h
  have hpos : 0 < length := Int.natCast_pos.mp hlength.1
  simp only [roundSize, if_neg hpos.ne']
  split
  · rename_i f hfound
    have hf := List.mem_range'_1.mp (List.mem_reverse.mp (List.mem_of_find?_eq_some hfound))
    refine ⟨f, ⟨by omega, lt_of_le_of_lt ?_ hlength.2⟩, rfl⟩
    omega
  · -- Nothing is known of roots, so that a share may be negative.
    have hwhole : (if 0 ≤ x then ⌊x⌋ else ⌈x⌉) ≤ (length : Int) := by
      split_ifs with hnonneg
      · exact_mod_cast (Int.floor_le x).trans hle
      · exact Int.ceil_le.mpr (by exact_mod_cast hle)
    refine ⟨max 1 (if 0 ≤ x then ⌊x⌋ else ⌈x⌉), ⟨by omega, ?_⟩, rfl⟩
    exact lt_of_le_of_lt (max_le hlength.1 hwhole) hlength.2

theorem exists_settled {each : List (Nat × Cut (Sample K))} {x : K} (h : ∀ p ∈ each, Ready p)
    (hlong : ∀ p ∈ each, (p.2.isAutomatic && isBelow p.1 (Sample.known x)) = false) :
    ∃ cuts, each.mapM (fun p =>
        if p.2.isAutomatic then
          (roundSize (Sample.known x) p.1).map fun n => (.even (.whole n) : Cut (Sample K))
        else .ok p.2) = .ok cuts ∧
      List.Forall₂ (fun n cut => IsLength n ∧ Settled n cut) (each.map Prod.fst) cuts := by
  induction each with
  | nil => exact ⟨[], rfl, .nil⟩
  | cons p each ih =>
    have hready := h p List.mem_cons_self
    have hfirst := hlong p List.mem_cons_self
    obtain ⟨cuts, hcuts, hrest⟩ := ih (fun q hq => h q (List.mem_cons_of_mem _ hq))
      fun q hq => hlong q (List.mem_cons_of_mem _ hq)
    cases hauto : p.2.isAutomatic with
    | false =>
      refine ⟨p.2 :: cuts, ?_, .cons ⟨hready.1, hready.settled hauto⟩ hrest⟩
      simp only [List.mapM_cons, hauto, hcuts, Bool.false_eq_true, if_false]
      rfl
    | true =>
      rw [hauto, Bool.true_and] at hfirst
      obtain ⟨n, hn, hround⟩ := roundSize_of_not_isBelow hready.1 hfirst
      refine ⟨.even (.whole n) :: cuts, ?_, .cons ⟨hready.1, .even hn⟩ hrest⟩
      simp only [List.mapM_cons, hauto, hcuts, hround, if_true]
      rfl

theorem exists_choose {each : List (Nat × Cut (Sample K))} (h : ∀ p ∈ each, Ready p) (limit : Int)
    {rounds : Nat} (hrounds : each.countP (fun (_, cut) => cut.isAutomatic) < rounds) :
    ∃ cuts, choose limit rounds each = .ok cuts ∧
      List.Forall₂ (fun n cut => IsLength n ∧ Settled n cut) (each.map Prod.fst) cuts := by
  -- A round that goes on settles a length, so that fewer lengths are left than rounds.
  induction rounds generalizing each with
  | zero => omega
  | succ rounds ih =>
    obtain ⟨x, hshare⟩ := share_of_ready h limit (each.countP fun (_, cut) => cut.isAutomatic)
    by_cases hnone : each.countP (fun (_, cut) => cut.isAutomatic) = 0
    · refine ⟨each.map Prod.snd, ?_, ?_⟩
      · simp only [choose, hnone, if_true]
        rfl
      · rw [List.forall₂_map_left_iff, List.forall₂_map_right_iff, List.forall₂_same]
        intro p hp
        have hauto := List.countP_eq_zero.mp hnone p hp
        exact ⟨(h p hp).1, (h p hp).settled (Bool.eq_false_iff.mpr hauto)⟩
    · simp only [choose, hnone, if_false, hshare, bind, Except.bind]
      split
      · rename_i hshort
        have hcount := countP_shorten (Sample.known x) each
        have hpos : 0 < each.countP fun (length, cut) =>
            cut.isAutomatic && isBelow length (Sample.known x) :=
          List.countP_pos_iff.mpr (List.any_eq_true.mp hshort)
        obtain ⟨cuts, hcuts, hsettled⟩ := @ih (each.map (shorten (Sample.known x)))
          (List.forall_mem_map.mpr fun p hp => (h p hp).shorten _) (by omega)
        rw [List.map_map] at hsettled
        exact ⟨cuts, hcuts, hsettled⟩
      · rename_i hlong
        rw [Bool.not_eq_true, List.any_eq_false] at hlong
        exact exists_settled h fun p hp => Bool.eq_false_iff.mpr (hlong p hp)

/-- Lengths of which something is left are cut into blocks that cover them. -/
theorem exists_blocksOfValues {lengths : List Nat} {said : List (Value (Sample K))}
    (hlength : lengths.length = said.length) (hlengths : ∀ n ∈ lengths, IsLength n)
    (hsaid : ∀ v ∈ said, Saying v) :
    ∃ each, blocksOfValues lengths said = .ok each ∧
      List.Forall₂ (fun (n : Nat) sizes => covered sizes = n) lengths each := by
  cases lengths with
  | nil =>
    rw [List.eq_nil_of_length_eq_zero hlength.symm]
    exact ⟨[], rfl, .nil⟩
  | cons n lengths =>
    have hready := readies_of_sayings hlengths hsaid
    have hfst : (((n :: lengths).zip said).map fun (length, v) =>
        (length, ofValue length v)).map Prod.fst = n :: lengths := by
      rw [List.map_map]
      exact List.map_fst_zip hlength.le
    have hrounds : (((n :: lengths).zip said).map fun (length, v) =>
        (length, ofValue length v)).countP (fun (_, cut) => cut.isAutomatic) <
          (n :: lengths).length + 1 := by
      refine Nat.lt_succ_of_le (List.countP_le_length.trans ?_)
      rw [← List.length_map Prod.fst, hfst]
    obtain ⟨cuts, hcuts, hsettled⟩ := exists_choose hready usualLimit hrounds
    rw [hfst] at hsettled
    obtain ⟨each, hblocks, hcovered⟩ := blocks_of_settled hsettled
    refine ⟨each, ?_, hcovered⟩
    have hsome : said.isEmpty = false := by
      cases said with
      | nil => cases hlength
      | cons => rfl
    simp only [blocksOfValues, hsome, Bool.false_and, Bool.false_eq_true, if_false, hlength,
      ne_eq, not_true_eq_false, limit_of_sayings hsaid, bind, Except.bind]
    rw [← hlength]
    exact bind_eq_ok_iff.mpr ⟨cuts, hcuts, hblocks⟩

end Cut

end Coplanar
