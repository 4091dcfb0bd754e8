import Mathlib.Data.List.Perm.Basic
import Mathlib.Data.List.Range

/-!
# `SortledtonDriver::translate`: from slots to logical ids

After a Graphalytics kernel has filled `values[v]` for each slot `v` of a snapshot,
`translate(tx, values)` pairs each slot with its logical id: `int N = values.size()` sizes a
vector `logical_result(N)` of value-initialised pairs, and an `omp parallel for` over
`uint v < N` stores `(tx.logical_id(v), values[v])` for a slot that holds a vertex and
`(v, numeric_limits<T>::max())` for one that does not.

The iterations run in any order (`Schedule`). Each writes only its own slot, so what the loop
leaves in a slot is that slot's pair once an iteration has visited it (`translateLoop_getElem?`)
and the order does not matter. `N` is the size narrowed to `int`: below `2^31` entries the
result is one pair per slot in slot order (`translate_eq_of_lt`); from `2^31` on the narrowing
either makes `N` negative, read as a `size_t` no vector can be allocated with, or, from `2^32`
on, drops every slot from `N` on.
-/

namespace GfeDriver

namespace Sortledton

/-- What `translate` reads of the snapshot `tx`: whether a slot holds a vertex
(`has_vertex_p`), and the slot's logical id (`logical_id`). -/
structure Snapshot where
  hasVertexP : Nat → Bool
  logicalId : Nat → UInt64

/-- `int N = values.size()`: the size narrowed modulo `2^32` into `[-2^31, 2^31)`. -/
def narrowSize (n : Nat) : Int := Int.bmod n 4294967296

variable {T : Type} [Inhabited T]

/-- The pair the loop body stores for slot `v`; `maxValue` is `numeric_limits<T>::max()`. -/
def translateEntry (tx : Snapshot) (values : List T) (maxValue : T) (v : Nat) : UInt64 × T :=
  if tx.hasVertexP v then (tx.logicalId v, values.getD v default) else (v.toUInt64, maxValue)

/-- The body of the `omp parallel for` for slot `v`: `logical_result[v] = ...`. -/
def translateBody (tx : Snapshot) (values : List T) (maxValue : T)
    (result : List (UInt64 × T)) (v : Nat) : List (UInt64 × T) :=
  result.set v (translateEntry tx values maxValue v)

/-- The iterations of the loop in the order `order` they run in. -/
def translateLoop (tx : Snapshot) (values : List T) (maxValue : T) (order : List Nat)
    (result : List (UInt64 × T)) : List (UInt64 × T) :=
  order.foldl (translateBody tx values maxValue) result

/-- An order the `omp parallel for` over `v < n` may run its iterations in: each once. -/
structure Schedule (n : Nat) where
  order : List Nat
  order_perm : order.Perm (List.range n)

/-- `translate(tx, values)`: `none` when `N` is negative, since `logical_result(N)` then asks
for a `size_t` above `max_size()`; otherwise the loop over value-initialised pairs. -/
def translate (tx : Snapshot) (values : List T) (maxValue : T)
    (schedule : Schedule (narrowSize values.length).toNat) : Option (List (UInt64 × T)) :=
  if narrowSize values.length < 0 then none
  else some (translateLoop tx values maxValue schedule.order
    (List.replicate (narrowSize values.length).toNat (0, default)))

variable {tx : Snapshot} {values : List T} {maxValue : T}

/-- The run lemma: a slot holds its pair once some iteration visited it, and its initial value
otherwise; every visit writes the same pair, so the order does not matter. -/
theorem translateLoop_getElem? (order : List Nat) (result : List (UInt64 × T)) (w : Nat) :
    (translateLoop tx values maxValue order result)[w]? =
      if w ∈ order then result[w]?.map fun _ => translateEntry tx values maxValue w
      else result[w]? := by
  induction order generalizing result with
  | nil => rfl
  | cons v order ih =>
    simp only [translateLoop, List.foldl_cons] at ih ⊢
    rw [ih, translateBody]
    by_cases hvw : v = w
    · subst hvw
      simp [List.getElem?_set', Option.map_map, Function.comp_def, Function.const_def]
    · simp [List.getElem?_set_ne hvw, Ne.symm hvw]

/-- Whatever order the iterations run in, `translate` gives, for a non-negative `N`, the pair of
each slot `v < N` in slot order. -/
theorem translate_eq (schedule : Schedule (narrowSize values.length).toNat) :
    translate tx values maxValue schedule =
      if narrowSize values.length < 0 then none
      else some ((List.range (narrowSize values.length).toNat).map
        (translateEntry tx values maxValue)) := by
  unfold translate
  split
  · rfl
  · refine congrArg some (List.ext_getElem? fun w => ?_)
    rw [translateLoop_getElem?]
    simp only [schedule.order_perm.mem_iff, List.mem_range, List.getElem?_map,
      List.getElem?_replicate]
    by_cases hw : w < (narrowSize values.length).toNat
    · simp [hw, List.getElem?_range hw]
    · have hnone : (List.range (narrowSize values.length).toNat)[w]? = none :=
        List.getElem?_eq_none (by rw [List.length_range]; omega)
      simp [hw, hnone]

/-- The narrowing of `int N = values.size()`: the size modulo `2^32`, less `2^32` from `2^31` on. -/
theorem narrowSize_eq (n : Nat) :
    narrowSize n = if n % 4294967296 < 2147483648 then ((n % 4294967296 : Nat) : Int)
      else ((n % 4294967296 : Nat) : Int) - 4294967296 := by
  rw [narrowSize, Int.bmod_def]
  split_ifs <;> omega

/-- `translate` for every snapshot, every array of values and every order of the iterations:
the size narrowed to `int` decides. When it stays non-negative, that is when `values.size()`
modulo `2^32` is below `2^31` (every size below `2^31` included), the result is one pair per
slot `v` below the size modulo `2^32`, in slot order: `(logical_id(v), values[v])` for a slot
holding a vertex, `(v, max)` for one that does not. Otherwise `logical_result(N)` throws. -/
theorem translate_spec (tx : Snapshot) (values : List T) (maxValue : T)
    (schedule : Schedule (narrowSize values.length).toNat) :
    translate tx values maxValue schedule =
      if values.length % 4294967296 < 2147483648 then
        some ((List.range (values.length % 4294967296)).map (translateEntry tx values maxValue))
      else none := by
  rw [translate_eq, narrowSize_eq]
  split_ifs with h1 h2 h2
  · omega
  · rfl
  · rfl
  · omega

end Sortledton

end GfeDriver
