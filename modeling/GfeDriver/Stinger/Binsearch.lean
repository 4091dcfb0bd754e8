import Mathlib.Data.List.Sort
import Mathlib.Data.Fintype.Basic

/-!
# The binary search of `lcc_count_intersections`

`lcc_count_intersections` looks each candidate third vertex up in the sorted neighbour array
of the first one with a `binsearch` lambda: a `while (first <= last)` loop over a closed window
`[first, last]` of `int64_t` indices, probing `middle = (first + last)/2`. The loop is
`binsearchFrom`, a recursion on the window; a read outside the array is not a value of the
array, so the model answers `none` there.

Two facts are proved. For every array the window stays inside it, so `binsearch` never reads
out of bounds and always answers (`binsearch_isSome`); this needs no order on the array. On a
sorted array the answer is membership (`binsearch_sorted`), from the invariant `Brackets`: every
element left of the window is below the key and every element right of it above.
-/

namespace GfeDriver

namespace Stinger

/-- `vertex1_neighbours[i]` for an `int64_t` index `i`; `none` outside the array. -/
def readAt (a : List Int) (i : Int) : Option Int := if 0 ≤ i then a[i.toNat]? else none

theorem readAt_of_mem (a : List Int) {i : Int} (h0 : 0 ≤ i) (hi : i < a.length) :
    readAt a i = some (a.get ⟨i.toNat, by omega⟩) := by
  simp [readAt, h0]

/-- C's `/` truncates toward zero, which is `Int.tdiv`; on a non-negative sum it is `/ 2`. -/
theorem tdiv_two_eq (z : Int) : z.tdiv 2 = if 0 ≤ z then z / 2 else -((-z) / 2) := by
  split
  · exact Int.tdiv_eq_ediv ‹_› (by decide)
  · rw [← Int.neg_neg z, Int.neg_tdiv, Int.tdiv_eq_ediv (by omega) (by decide), Int.neg_neg]

/-- The probe of a non-empty window lies in the window. -/
theorem middle_mem_window {first last : Int} (h : first ≤ last) :
    first ≤ (first + last).tdiv 2 ∧ (first + last).tdiv 2 ≤ last := by
  rw [tdiv_two_eq]
  split <;> omega

/-- The `while (first <= last)` loop of `binsearch`, entered with the window `[first, last]`.
The source computes `middle = (first + last)/2` before the loop and again at the end of every
pass, so each pass starts from that value. A pass moves `first` past `middle`, returns `true`,
or moves `last` before `middle`; an empty window returns `false`. -/
def binsearchFrom (a : List Int) (vertex3 : Int) (first last : Int) : Option Bool :=
  if first ≤ last then
    let middle := (first + last).tdiv 2
    match readAt a middle with
    | none => none
    | some m =>
      if m < vertex3 then binsearchFrom a vertex3 (middle + 1) last
      else if m = vertex3 then some true
      else binsearchFrom a vertex3 first (middle - 1)
  else some false
termination_by (last - first + 1).toNat
decreasing_by
  all_goals have := middle_mem_window (by assumption)
  all_goals omega

/-- The `binsearch` lambda: the loop from `first = 0`, `last = vertex1_neighbours_sz - 1`. -/
def binsearch (a : List Int) (vertex3 : Int) : Option Bool :=
  binsearchFrom a vertex3 0 (a.length - 1)

/-- The probe of a non-empty window inside the array reads an element. -/
theorem readAt_middle {a : List Int} {first last : Int} (h0 : 0 ≤ first) (hl : last < a.length)
    (h : first ≤ last) :
    readAt a ((first + last).tdiv 2) =
      some (a.get ⟨((first + last).tdiv 2).toNat, by have := middle_mem_window h; omega⟩) :=
  have := middle_mem_window h
  readAt_of_mem a (by omega) (by omega)

/-- A window inside the array stays inside it, so no pass reads out of bounds. -/
theorem binsearchFrom_isSome (a : List Int) (vertex3 : Int) {first last : Int}
    (h0 : 0 ≤ first) (hl : last < a.length) : (binsearchFrom a vertex3 first last).isSome := by
  induction first, last using binsearchFrom.induct a vertex3 with
  | case1 first last h middle hread =>
    rw [readAt_middle h0 hl h] at hread
    cases hread
  | case2 first last h middle m hread hlt ih =>
    have hm := middle_mem_window h
    rw [binsearchFrom, if_pos h]
    simp only [hread, if_pos hlt]
    exact ih (by omega) hl
  | case3 first last h middle hread hlt =>
    rw [binsearchFrom, if_pos h]
    simp [hread]
  | case4 first last h middle m hread hlt hne ih =>
    have hm := middle_mem_window h
    rw [binsearchFrom, if_pos h]
    simp only [hread, if_neg hlt, if_neg hne]
    exact ih h0 (by omega)
  | case5 first last h =>
    rw [binsearchFrom, if_neg h]
    rfl

/-- `binsearch` reads only inside the array, whatever the array holds. -/
theorem binsearch_isSome (a : List Int) (vertex3 : Int) : (binsearch a vertex3).isSome :=
  binsearchFrom_isSome a vertex3 le_rfl (by omega)

/-- The answer of `binsearch`, which it always gives (`binsearch_isSome`). -/
def binsearchFound (a : List Int) (vertex3 : Int) : Bool :=
  (binsearch a vertex3).get (binsearch_isSome a vertex3)

/-- What the window `[first, last]` knows of `vertex3`: every element left of the window is
below it, and every element right of it above. -/
def Brackets (a : List Int) (vertex3 first last : Int) : Prop :=
  ∀ i : Fin a.length, ((i : Int) < first → a.get i < vertex3) ∧ (last < i → vertex3 < a.get i)

theorem binsearchFrom_sorted {a : List Int} (ha : a.Sorted (· ≤ ·)) (vertex3 : Int)
    {first last : Int} (h0 : 0 ≤ first) (hl : last < a.length)
    (hb : Brackets a vertex3 first last) :
    binsearchFrom a vertex3 first last = some (decide (vertex3 ∈ a)) := by
  induction first, last using binsearchFrom.induct a vertex3 with
  | case1 first last h middle hread =>
    rw [readAt_middle h0 hl h] at hread
    cases hread
  | case2 first last h middle m hread hlt ih =>
    have hm := middle_mem_window h
    have hget := hread
    rw [readAt_middle h0 hl h, Option.some_inj] at hget
    rw [binsearchFrom, if_pos h]
    simp only [hread, if_pos hlt]
    refine ih (by omega) hl fun i => ⟨fun hi => ?_, (hb i).2⟩
    have : a.get i ≤ m := hget ▸ ha.rel_get_of_le (show (i : Nat) ≤ middle.toNat by omega)
    omega
  | case3 first last h middle hread hlt =>
    have hget := hread
    rw [readAt_middle h0 hl h, Option.some_inj] at hget
    rw [binsearchFrom, if_pos h]
    simp only [hread, lt_irrefl, if_false, if_true]
    simp [← hget, List.get_mem]
  | case4 first last h middle m hread hlt hne ih =>
    have hm := middle_mem_window h
    have hget := hread
    rw [readAt_middle h0 hl h, Option.some_inj] at hget
    rw [binsearchFrom, if_pos h]
    simp only [hread, if_neg hlt, if_neg hne]
    refine ih h0 (by omega) fun i => ⟨(hb i).1, fun hi => ?_⟩
    have : m ≤ a.get i := hget ▸ ha.rel_get_of_le (show middle.toNat ≤ (i : Nat) by omega)
    omega
  | case5 first last h =>
    rw [binsearchFrom, if_neg h]
    simp only [Option.some_inj, false_eq_decide_iff, List.mem_iff_get, not_exists]
    intro i hi
    rcases lt_or_le (i : Int) first with hf | hf
    · exact absurd hi ((hb i).1 hf).ne
    · exact absurd hi ((hb i).2 (by omega)).ne'

/-- On a sorted array `binsearch` answers whether `vertex3` is an element. -/
theorem binsearch_sorted {a : List Int} (ha : a.Sorted (· ≤ ·)) (vertex3 : Int) :
    binsearch a vertex3 = some (decide (vertex3 ∈ a)) :=
  binsearchFrom_sorted ha vertex3 le_rfl (by omega) fun _ => ⟨by omega, by omega⟩

theorem binsearchFound_sorted {a : List Int} (ha : a.Sorted (· ≤ ·)) (vertex3 : Int) :
    binsearchFound a vertex3 = decide (vertex3 ∈ a) := by
  simp [binsearchFound, binsearch_sorted ha]

/-- The loop of `binsearch` on a sorted array, whatever its length and duplicates: a pass on a
non-empty window continues on a strictly shorter one, so the loop ends; no pass reads outside
the array; and the answer is whether some element equals `vertex3`. -/
theorem binsearch_spec (a : List Int) (ha : a.Sorted (· ≤ ·)) (vertex3 : Int) :
    (∀ first last : Int, first ≤ last →
      last - ((first + last).tdiv 2 + 1) < last - first ∧
        (first + last).tdiv 2 - 1 - first < last - first) ∧
    binsearch a vertex3 = some (decide (∃ i : Fin a.length, a.get i = vertex3)) := by
  refine ⟨fun first last h => ?_, ?_⟩
  · have := middle_mem_window h
    omega
  · simp only [binsearch_sorted ha, ← List.mem_iff_get]

theorem binsearch_spec_duplicates :
    List.Sorted (· ≤ ·) [1, 3, 3, 7] ∧ binsearch [1, 3, 3, 7] 3 = some true ∧
      binsearch [1, 3, 3, 7] 4 = some false :=
  ⟨by decide, by simpa using (binsearch_spec [1, 3, 3, 7] (by decide) 3).2,
    by simpa using (binsearch_spec [1, 3, 3, 7] (by decide) 4).2⟩

/-- An `int64_t` result: the value modulo `2^64`, read in `[-2^63, 2^63)`. -/
def int64 (z : Int) : Int := Int.bmod z 18446744073709551616

/-- The loop of `binsearch` as the machine runs it: `first + last`, `middle + 1` and
`middle - 1` are `int64_t` and wrap. Since a wrapped window need not shrink, the passes are
counted by `fuel`, and `none` also stands for running out of it. -/
def binsearchFrom64 (a : List Int) (vertex3 : Int) : Nat → Int → Int → Option Bool
  | 0, _, _ => none
  | fuel + 1, first, last =>
    if first ≤ last then
      let middle := (int64 (first + last)).tdiv 2
      match readAt a middle with
      | none => none
      | some m =>
        if m < vertex3 then binsearchFrom64 a vertex3 fuel (int64 (middle + 1)) last
        else if m = vertex3 then some true
        else binsearchFrom64 a vertex3 fuel first (int64 (middle - 1))
    else some false

/-- The `binsearch` lambda with `int64_t` arithmetic, from `last = vertex1_neighbours_sz - 1`,
with one pass more than the array has elements. -/
def binsearch64 (a : List Int) (vertex3 : Int) : Option Bool :=
  binsearchFrom64 a vertex3 (a.length + 1) 0 (int64 (a.length - 1))

theorem int64_of_lt {z : Int} (h0 : -9223372036854775808 ≤ z) (h1 : z < 9223372036854775808) :
    int64 z = z := by
  rw [int64, Int.bmod_def]
  split_ifs <;> omega

/-- On an array of fewer than `2^62` elements no window the loop reaches wraps: the machine loop
with enough passes is the loop on unbounded integers. -/
theorem binsearchFrom64_eq (a : List Int) (vertex3 : Int) (hlen : a.length < 4611686018427387904)
    {first last : Int} (h0 : 0 ≤ first) (hl : last < a.length) :
    ∀ fuel : Nat, (last - first + 1).toNat < fuel →
      binsearchFrom64 a vertex3 fuel first last = binsearchFrom a vertex3 first last := by
  induction first, last using binsearchFrom.induct a vertex3 with
  | case1 first last h middle hread =>
    rw [readAt_middle h0 hl h] at hread
    cases hread
  | case2 first last h middle m hread hlt ih =>
    rintro (_ | fuel) hfuel
    · omega
    have hm := middle_mem_window h
    rw [binsearchFrom64, binsearchFrom, if_pos h, if_pos h, int64_of_lt (by omega) (by omega)]
    simp only [hread, if_pos hlt]
    rw [int64_of_lt (by omega) (by omega)]
    exact ih (by omega) hl fuel (by omega)
  | case3 first last h middle hread hlt =>
    rintro (_ | fuel) hfuel
    · omega
    rw [binsearchFrom64, binsearchFrom, if_pos h, if_pos h, int64_of_lt (by omega) (by omega)]
    simp [hread]
  | case4 first last h middle m hread hlt hne ih =>
    rintro (_ | fuel) hfuel
    · omega
    have hm := middle_mem_window h
    rw [binsearchFrom64, binsearchFrom, if_pos h, if_pos h, int64_of_lt (by omega) (by omega)]
    simp only [hread, if_neg hlt, if_neg hne]
    rw [int64_of_lt (by omega) (by omega)]
    exact ih h0 (by omega) fuel (by omega)
  | case5 first last h =>
    rintro (_ | fuel) hfuel
    · omega
    rw [binsearchFrom64, binsearchFrom, if_neg h, if_neg h]

/-- The `binsearch` lambda with its `int64_t` arithmetic, on any array of fewer than `2^62`
elements: no sum or update of the window wraps, the loop ends within one pass more than the
array has elements, and it answers as the loop on unbounded integers; on a sorted array that
answer is whether `vertex3` is an element. -/
theorem binsearch64_eq_binsearch (a : List Int) (hlen : a.length < 4611686018427387904)
    (vertex3 : Int) :
    binsearch64 a vertex3 = binsearch a vertex3 ∧
      (a.Sorted (· ≤ ·) → binsearch64 a vertex3 = some (decide (vertex3 ∈ a))) := by
  have heq : binsearch64 a vertex3 = binsearch a vertex3 := by
    rw [binsearch64, int64_of_lt (by omega) (by omega)]
    exact binsearchFrom64_eq a vertex3 hlen le_rfl (by omega) _ (by omega)
  exact ⟨heq, fun ha => heq.trans (binsearch_sorted ha vertex3)⟩

theorem binsearch64_eq_binsearch_duplicates :
    ([1, 3, 3, 7] : List Int).length < 4611686018427387904 ∧
      binsearch64 [1, 3, 3, 7] 3 = binsearch [1, 3, 3, 7] 3 :=
  ⟨by decide, (binsearch64_eq_binsearch [1, 3, 3, 7] (by decide) 3).1⟩

end Stinger

end GfeDriver
