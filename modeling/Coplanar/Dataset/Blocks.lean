/-! Dimensions in blocks.  The sizes of blocks say which slice of a list each block
is; where all sizes are there and none is negative, the slices make up the list. -/
namespace Coplanar

def covered : List Int → Int
  | [] => 0
  | n :: sizes => n + covered sizes

@[simp] theorem covered_append (s t : List Int) : covered (s ++ t) = covered s + covered t := by
  induction s with
  | nil => exact (Int.zero_add _).symm
  | cons n s ih => rw [List.cons_append, covered, covered, ih, Int.add_assoc]

@[simp] theorem covered_replicate (count : Nat) (size : Int) :
    covered (List.replicate count size) = count * size := by
  induction count with
  | zero => exact (Int.zero_mul size).symm
  | succ count ih =>
    rw [List.replicate_succ, covered, ih, Int.natCast_succ, Int.add_mul, Int.one_mul, Int.add_comm]

/-- Blocks of a size, the last one being smaller.  A length of zero is one block. -/
def evenBlocks (size : Int) (length : Nat) : List Int :=
  if length = 0 then [0]
  else
    let rest := Int.fmod length size
    List.replicate (Int.fdiv length size).toNat size ++ (if rest = 0 then [] else [rest])

theorem covered_evenBlocks {size : Int} (h : 0 < size) (length : Nat) :
    covered (evenBlocks size length) = length := by
  unfold evenBlocks
  split
  · rename_i hl
    rw [hl]; rfl
  · have hd : 0 ≤ Int.fdiv length size := Int.fdiv_nonneg (Int.natCast_nonneg _) (Int.le_of_lt h)
    have hm := Int.mul_fdiv_add_fmod (length : Int) size
    rw [covered_append, covered_replicate, Int.toNat_of_nonneg hd, Int.mul_comm]
    split
    · rename_i hr
      rw [hr] at hm
      exact hm
    · simpa [covered] using hm

example : evenBlocks 2 5 = [2, 2, 1] := by decide

variable {β : Type}

/-- An end of a slice of `length` items, counted from their end if it is negative. -/
def sliceEnd (length : Nat) (i : Int) : Nat :=
  min length (if i < 0 then i + length else i).toNat

def slice (xs : List β) (start stop : Int) : List β :=
  (xs.take (sliceEnd xs.length stop)).drop (sliceEnd xs.length start)

def blocksFrom (xs : List β) : Int → List Int → List (List β)
  | _, [] => []
  | start, n :: sizes => slice xs start (start + n) :: blocksFrom xs (start + n) sizes

def blocksOf (xs : List β) (sizes : List Int) : List (List β) := blocksFrom xs 0 sizes

def endsFrom : Int → List Int → List Int
  | _, [] => []
  | start, n :: sizes => (start + n) :: endsFrom (start + n) sizes

/-- The first end beyond `i`, found by halving the part from `low` up to `high`.  Ends
that do not ascend are searched as if they did. -/
def firstBeyond (ends : List Int) (i : Int) (low high : Nat) : Nat :=
  if low < high then
    let middle := (low + high) / 2
    if i < (ends[middle]?).getD 0 then firstBeyond ends i low middle
    else firstBeyond ends i (middle + 1) high
  else low
termination_by high - low

def inBlocks? (xs : List β) (sizes : List Int) (i : Nat) : Option β :=
  let ends := endsFrom 0 sizes
  let block := firstBeyond ends i 0 ends.length
  let before := if block = 0 then 0 else (ends[block - 1]?).getD 0
  (slice xs before ((ends[block]?).getD before))[(i - before).toNat]?

theorem slice_of_le (xs : List β) {start stop : Nat} (h : stop ≤ xs.length) :
    slice xs start stop = (xs.take stop).drop start := by
  have hs : ¬ (start : Int) < 0 := Int.not_lt.mpr (Int.natCast_nonneg _)
  have ht : ¬ (stop : Int) < 0 := Int.not_lt.mpr (Int.natCast_nonneg _)
  unfold slice sliceEnd
  rw [if_neg hs, if_neg ht, Int.toNat_natCast, Int.toNat_natCast, Nat.min_eq_right h]
  rcases Nat.le_total start xs.length with hle | hle
  · rw [Nat.min_eq_right hle]
  · rw [Nat.min_eq_left hle]
    have hlen : (xs.take stop).length ≤ xs.length := by rw [List.length_take]; omega
    rw [List.drop_eq_nil_of_le hlen, List.drop_eq_nil_of_le (Nat.le_trans hlen hle)]

theorem flatten_blocksFrom (xs : List β) (sizes : List Int) (start : Nat)
    (nonneg : ∀ n ∈ sizes, 0 ≤ n) (fits : start + covered sizes = xs.length) :
    (blocksFrom xs start sizes).flatten = xs.drop start := by
  induction sizes generalizing start with
  | nil =>
    have h : start = xs.length := by rw [covered] at fits; omega
    rw [blocksFrom, h, List.drop_length]; rfl
  | cons n sizes ih =>
    obtain ⟨k, rfl⟩ := Int.eq_ofNat_of_zero_le (nonneg n List.mem_cons_self)
    have rest : ∀ m ∈ sizes, 0 ≤ m := fun m hm => nonneg m (List.mem_cons_of_mem _ hm)
    have hc : 0 ≤ covered sizes := by
      clear ih fits nonneg
      induction sizes with
      | nil => exact Int.le_refl 0
      | cons m sizes ih =>
        rw [covered]
        exact Int.add_nonneg (rest m List.mem_cons_self)
          (ih fun m hm => rest m (List.mem_cons_of_mem _ hm))
    rw [covered] at fits
    have hk : start + k ≤ xs.length := by omega
    have next := ih (start + k) rest (by omega)
    rw [blocksFrom, List.flatten_cons, ← Int.natCast_add, next, slice_of_le xs hk]
    conv => rhs; rw [← List.take_append_drop (start + k) xs]
    rw [List.drop_append, List.length_take, Nat.min_eq_left hk]
    simp

/-- Blocks of sizes that are not negative and cover the length make up the list. -/
theorem flatten_blocksOf (xs : List β) {sizes : List Int} (nonneg : ∀ n ∈ sizes, 0 ≤ n)
    (fits : covered sizes = xs.length) : (blocksOf xs sizes).flatten = xs :=
  flatten_blocksFrom xs sizes 0 nonneg (by rw [fits]; exact Int.zero_add _)

example : blocksOf [1, 2, 3] [2, 1] = [[1, 2], [3]] ∧
    blocksOf [1, 2, 3] [4, -1] = [[1, 2, 3], []] := by decide

end Coplanar
