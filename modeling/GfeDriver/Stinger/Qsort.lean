import Mathlib

/-!
# The comparator handed to `qsort`

`lcc_count_triangles` sorts the gathered neighbour array with
`qsort(neighbours, degree, sizeof(int64_t), compare)`, where `compare`, copied from
`stinger_alg`, returns the `int64_t` difference of its two arguments as an `int`. The
narrowing keeps the difference modulo `2^32`, read in `[-2^31, 2^31)`.

The C library promises of `qsort` only a permutation that is in ascending order as the
comparator reads it; `QsortResult` is that promise, and the model takes whatever array the
library leaves as an argument satisfying it. When every id is below `2^31` the comparator
reads the ids in their own order, so any such array is sorted (`QsortResult.sorted`), and one
exists (`qsortResult_mergeSort`). For ids `2^32` apart the narrowed difference is `0`, and the
promise is met by an array that is not sorted.
-/

namespace GfeDriver

namespace Stinger

/-- `compare` of `local_clustering_coefficient.cpp`: `*(int64_t*)a - *(int64_t*)b`, taken
modulo `2^64` as an `int64_t` and returned as an `int`, that is modulo `2^32`. -/
def compare (a b : Int) : Int := Int.bmod (Int.bmod (a - b) (2 ^ 64)) (2 ^ 32)

/-- What the C library promises of `qsort(base, n, size, cmp)`: the array ends up holding a
permutation of what it held, each element comparing at most the next one. -/
def QsortResult (cmp : Int → Int → Int) (before after : List Int) : Prop :=
  after.Perm before ∧ after.Chain' fun x y => cmp x y ≤ 0

/-- The `int64_t` step does not matter: the result is the difference modulo `2^32`. -/
theorem compare_eq_bmod (a b : Int) : compare a b = Int.bmod (a - b) (2 ^ 32) := by
  simp only [compare, Int.bmod_def]
  split_ifs <;> omega

/-- Between ids in `[0, 2^31)` the narrowed difference is the difference. -/
theorem compare_eq_sub {a b : Int} (ha : 0 ≤ a ∧ a < 2 ^ 31) (hb : 0 ≤ b ∧ b < 2 ^ 31) :
    compare a b = a - b := by
  rw [compare_eq_bmod, Int.bmod_def]
  split_ifs <;> omega

/-- Ids `2^32` apart compare equal. -/
theorem compare_two_pow_32 (a : Int) : compare (a + 2 ^ 32) a = 0 := by
  rw [compare_eq_bmod, Int.bmod_def]
  split_ifs <;> omega

variable {before after : List Int}

/-- With every id in `[0, 2^31)`, what `qsort` leaves is sorted. -/
theorem QsortResult.sorted (hids : ∀ x ∈ before, 0 ≤ x ∧ x < 2 ^ 31)
    (h : QsortResult compare before after) : after.Sorted (· ≤ ·) := by
  have hmem : ∀ x ∈ after, 0 ≤ x ∧ x < 2 ^ 31 := fun x hx => hids x (h.1.mem_iff.1 hx)
  refine List.chain'_iff_pairwise.1 ((List.Chain'.iff_mem.1 h.2).imp ?_)
  rintro x y ⟨hx, hy, hxy⟩
  rw [compare_eq_sub (hmem x hx) (hmem y hy)] at hxy
  omega

theorem QsortResult.mem_iff (h : QsortResult compare before after) {x : Int} :
    x ∈ after ↔ x ∈ before :=
  h.1.mem_iff

/-- With every id in `[0, 2^31)` the promise can be kept: the merge sort of the array keeps it. -/
theorem qsortResult_mergeSort (hids : ∀ x ∈ before, 0 ≤ x ∧ x < 2 ^ 31) :
    QsortResult compare before (before.mergeSort fun a b => decide (a ≤ b)) := by
  have hperm := List.mergeSort_perm before fun a b => decide (a ≤ b)
  have hsorted := @List.sorted_mergeSort _ (fun a b : Int => decide (a ≤ b))
    (by simpa using fun _ _ _ => le_trans) (by simpa using le_total) before
  refine ⟨hperm, List.Pairwise.chain' ?_⟩
  refine (List.Pairwise.and_mem.1 hsorted).imp ?_
  rintro x y ⟨hx, hy, hxy⟩
  rw [compare_eq_sub (hids x (hperm.mem_iff.1 hx)) (hids y (hperm.mem_iff.1 hy))]
  simp only [decide_eq_true_eq] at hxy
  omega

end Stinger

end GfeDriver
