import GfeDriver.Stinger.Triangles
import Mathlib.Data.Rat.Defs

/-!
# `Stinger::lcc`: the vertex loop, the deadline and the listing

`Stinger::lcc(dump2file)` sizes a `result` vector of `pair<uint64_t, double>` to
`nv = get_max_num_mappings()` value-initialised entries and runs an `omp parallel for` over the
slots `v < nv`. An iteration first polls the deadline and gives up if it has passed, then skips
a slot marked for deletion, and otherwise stores `(get_external_id(v), coeff)` in `result[v]`.
After the loop the deadline is polled once more: `TimeoutError` if it has passed, else `save`
writes every entry of `result`, one line each.

The polls happen at instants, and iterations run in any order; `LccRun` is one run as the clock
sees it. Since an iteration writes only its own slot, the loop is the bodies taken in the order
of their polls (`lccLoop`), and what it leaves in a slot depends only on whether some poll of
that slot came before the deadline (`lccLoop_getElem?`). The deadline is monotone and the last
poll comes after all others, so a run that raises no `TimeoutError` had no iteration give up, and
with a destination it writes one line per slot, a value-initialised `(0, 0)` for each slot
marked for deletion (`lcc_ok_listing`). With every id below `2^31` the line of a live slot
carries the Graphalytics coefficient of its vertex (`lcc_listing_graphalytics`).
-/

namespace GfeDriver

namespace Stinger

/-- Modelled from the spec: `utility::TimeoutService`, whose source is not among the files, read
as a monotone predicate of the instant `t` at which `is_timeout()` is polled: false before the
deadline, true from it on. -/
def isTimeout (deadline t : Nat) : Bool := decide (deadline ≤ t)

theorem isTimeout_mono {deadline t t' : Nat} (h : t ≤ t') (ht : isTimeout deadline t = true) :
    isTimeout deadline t' = true := by
  simp only [isTimeout, decide_eq_true_eq] at *
  omega

/-- The coefficient the loop body stores for a vertex of degree `degree` with `numTriangles`
triangles: `0.0` below two neighbours, else `num_triangles / max_num_edges` with
`max_num_edges = degree * (degree - 1)` a `uint64_t`. A `double` is read as the rational it
rounds. -/
def lccCoefficient (numTriangles degree : Nat) : ℚ :=
  if 2 ≤ degree then (numTriangles : ℚ) / ((degree * (degree - 1)) % 2 ^ 64 : Nat) else 0

/-- The coefficient of slot `v`, its triangles counted on the array `qsorted v` that `qsort`
left; the count only matters from degree two on, where the source computes it. -/
def lccVertexCoefficient (g : Graph) (qsorted : Int → List Int) (v : Nat) : ℚ :=
  lccCoefficient (lccCountTriangles g v (qsorted v)) (g.degree v)

/-- The local clustering coefficient of `v` in the Graphalytics definition for a directed graph:
the triangle count over the ordered pairs of distinct neighbours, `0` below two neighbours. -/
def Graph.graphalyticsCoefficient (g : Graph) (v : Int) : ℚ :=
  if 2 ≤ g.degree v then (g.triangles v : ℚ) / (g.degree v * (g.degree v - 1) : Nat) else 0

/-- The body of the `omp parallel for` for slot `v`, polling the deadline at the instant `t`. -/
def lccBody (g : Graph) (qsorted : Int → List Int) (deadline : Nat)
    (result : List (UInt64 × ℚ)) (v t : Nat) : List (UInt64 × ℚ) :=
  if isTimeout deadline t then result
  else if g.vtype v = 1 then result
  else result.set v (g.externalId v, lccVertexCoefficient g qsorted v)

/-- The iterations of the `omp parallel for` in the order of their polls; `polls` pairs each
slot with the instant at which its iteration polls the deadline. -/
def lccLoop (g : Graph) (qsorted : Int → List Int) (deadline : Nat) :
    List (Nat × Nat) → List (UInt64 × ℚ) → List (UInt64 × ℚ)
  | [], result => result
  | p :: polls, result => lccLoop g qsorted deadline polls (lccBody g qsorted deadline result p.1 p.2)

/-- One run of the loop as the clock sees it: every slot `v < nv` is one iteration polling
once, and the check after the loop, behind the barrier that closes the `omp parallel for`,
polls at `tEnd`, no earlier than any iteration. -/
structure LccRun (nv : Nat) where
  polls : List (Nat × Nat)
  tEnd : Nat
  polls_perm : (polls.map Prod.fst).Perm (List.range nv)
  polls_le : ∀ p ∈ polls, p.2 ≤ tEnd

/-- The exception `Stinger::lcc` raises. -/
inductive LccError
  | timeoutError
  deriving DecidableEq

/-- `save(result, dump2file)`: nothing for a null `dump2file`, else the line
`first second` of each entry of `result`, in order. -/
def save (result : List (UInt64 × ℚ)) (dump2file : Option String) :
    Option (List (UInt64 × ℚ)) :=
  dump2file.map fun _ => result

/-- `Stinger::lcc(dump2file)`: the loop over value-initialised entries, the deadline check
after it, and `save`. -/
def lcc (g : Graph) (qsorted : Int → List Int) (deadline : Nat) (run : LccRun g.numMappings)
    (dump2file : Option String) : Except LccError (Option (List (UInt64 × ℚ))) :=
  let result := lccLoop g qsorted deadline run.polls (List.replicate g.numMappings (0, 0))
  if isTimeout deadline run.tEnd then .error .timeoutError
  else .ok (save result dump2file)

variable {g : Graph} {qsorted : Int → List Int} {deadline : Nat}

@[simp] theorem lccLoop_nil (result : List (UInt64 × ℚ)) :
    lccLoop g qsorted deadline [] result = result := rfl

@[simp] theorem lccLoop_cons (p : Nat × Nat) (polls : List (Nat × Nat))
    (result : List (UInt64 × ℚ)) :
    lccLoop g qsorted deadline (p :: polls) result =
      lccLoop g qsorted deadline polls (lccBody g qsorted deadline result p.1 p.2) := rfl

/-- A poll of slot `w` at `p.2` that stores its entry: before the deadline, `w` not deleted. -/
def StoresEntry (g : Graph) (deadline w : Nat) (p : Nat × Nat) : Prop :=
  p.1 = w ∧ isTimeout deadline p.2 = false ∧ g.vtype w ≠ 1

instance (w : Nat) (p : Nat × Nat) : Decidable (StoresEntry g deadline w p) :=
  inferInstanceAs (Decidable (_ ∧ _))

theorem lccBody_getElem? (result : List (UInt64 × ℚ)) (v t w : Nat) :
    (lccBody g qsorted deadline result v t)[w]? =
      if StoresEntry g deadline w (v, t) then
        result[w]?.map fun _ => (g.externalId w, lccVertexCoefficient g qsorted w)
      else result[w]? := by
  unfold lccBody StoresEntry
  by_cases hvw : v = w
  · subst hvw
    split_ifs <;> simp_all [List.getElem?_set', Function.const_def]
  · split_ifs <;> simp_all [List.getElem?_set_ne hvw]

/-- The run lemma: a slot ends up holding its entry if some poll of it stored the entry, and
keeps its initial value otherwise. Every store of a slot writes the same entry, so the order of
the polls does not matter. -/
theorem lccLoop_getElem? (polls : List (Nat × Nat)) (result : List (UInt64 × ℚ)) (w : Nat) :
    (lccLoop g qsorted deadline polls result)[w]? =
      if ∃ p ∈ polls, StoresEntry g deadline w p then
        result[w]?.map fun _ => (g.externalId w, lccVertexCoefficient g qsorted w)
      else result[w]? := by
  induction polls generalizing result with
  | nil => simp
  | cons p polls ih =>
    rw [lccLoop_cons, ih, lccBody_getElem?]
    by_cases hp : StoresEntry g deadline w p
    · simp [hp, Option.map_map, Function.comp_def]
    · simp only [List.mem_cons, exists_eq_or_imp, hp, false_or, if_false]

theorem LccRun.exists_poll {nv : Nat} (run : LccRun nv) {w : Nat} (hw : w < nv) :
    ∃ p ∈ run.polls, p.1 = w := by
  have : w ∈ run.polls.map Prod.fst := run.polls_perm.mem_iff.2 (List.mem_range.2 hw)
  simpa using this

/-- With the last poll before the deadline, every poll was: the deadline is monotone and the
last poll follows all the others. -/
theorem LccRun.polls_before_deadline {nv : Nat} (run : LccRun nv)
    (h : isTimeout deadline run.tEnd = false) :
    ∀ p ∈ run.polls, isTimeout deadline p.2 = false := by
  intro p hp
  cases ht : isTimeout deadline p.2
  · rfl
  · rw [isTimeout_mono (run.polls_le p hp) ht] at h
    cases h

/-- A run in which no iteration gave up leaves every live slot its entry and every slot marked
for deletion its initial value. -/
theorem lccLoop_before_deadline (run : LccRun g.numMappings)
    (h : isTimeout deadline run.tEnd = false) :
    lccLoop g qsorted deadline run.polls (List.replicate g.numMappings (0, 0)) =
      (List.range g.numMappings).map fun v : Nat =>
        if g.vtype v = 1 then (0, 0) else (g.externalId v, lccVertexCoefficient g qsorted v) := by
  ext1 w
  rw [lccLoop_getElem?, List.getElem?_map, List.getElem?_replicate]
  by_cases hw : w < g.numMappings
  · rw [List.getElem?_range hw]
    obtain ⟨p, hp, rfl⟩ := run.exists_poll hw
    have hstores : (∃ q ∈ run.polls, StoresEntry g deadline p.1 q) ↔ g.vtype p.1 ≠ 1 :=
      ⟨fun ⟨_, _, hq⟩ => hq.2.2,
        fun hv => ⟨p, hp, rfl, run.polls_before_deadline h p hp, hv⟩⟩
    by_cases hv : g.vtype p.1 = 1 <;> simp [hw, hv, hstores]
  · rw [List.getElem?_eq_none (by simpa using hw)]
    simp [hw]

/-- Everything one run of `Stinger::lcc` can do: raise `TimeoutError` exactly when the poll
after the loop is past the deadline, and otherwise save one entry per slot. -/
theorem lcc_eq (run : LccRun g.numMappings) (dump2file : Option String) :
    lcc g qsorted deadline run dump2file =
      if isTimeout deadline run.tEnd then .error .timeoutError
      else .ok (save ((List.range g.numMappings).map fun v : Nat =>
        if g.vtype v = 1 then (0, 0) else (g.externalId v, lccVertexCoefficient g qsorted v))
          dump2file) := by
  unfold lcc
  split_ifs with h
  · rfl
  · rw [lccLoop_before_deadline run (by simpa using h)]

theorem lcc_ok_getElem? {run : LccRun g.numMappings} {dump2file : Option String}
    {listing : List (UInt64 × ℚ)} (h : lcc g qsorted deadline run dump2file = .ok (some listing))
    {v : Nat} (hv : v < g.numMappings) :
    listing[v]? = some (if g.vtype v = 1 then (0, 0)
      else (g.externalId v, lccVertexCoefficient g qsorted v)) := by
  rw [lcc_eq] at h
  split_ifs at h
  cases dump2file <;> simp only [save, Option.map, Except.ok.injEq, Option.some.injEq,
    reduceCtorEq] at h
  simp [← h, List.getElem?_range hv]

/-- Two slots and no edge: slot `0` is marked for deletion, slot `1` is a live vertex whose
external id is `0`. -/
def deletedSlotGraph : Graph where
  edges := []
  vtype := fun v => if v = 0 then 1 else 0
  externalId := fun _ => 0
  numMappings := 2
  edges_nodup := List.nodup_nil
  edges_logical := by simp
  vtype_mem := fun v => by by_cases h : v = 0 <;> simp [h]

/-- A deadline passed during the loop is never hidden: if any iteration gave up on its slot,
`lcc` raises `TimeoutError` and calls no `save`; so a listing it writes has the entry of every
live slot computed. -/
theorem lcc_timeout_of_skipped (run : LccRun g.numMappings) (dump2file : Option String) :
    ((∃ p ∈ run.polls, isTimeout deadline p.2 = true) →
      lcc g qsorted deadline run dump2file = .error .timeoutError) ∧
    ∀ listing, lcc g qsorted deadline run dump2file = .ok (some listing) →
      ∀ v < g.numMappings, g.vtype v ≠ 1 →
        listing[v]? = some (g.externalId v, lccVertexCoefficient g qsorted v) := by
  refine ⟨fun ⟨p, hp, ht⟩ => ?_, fun listing h v hv hlive => ?_⟩
  · rw [lcc_eq, if_pos (isTimeout_mono (run.polls_le p hp) ht)]
  · rw [lcc_ok_getElem? h hv, if_neg hlive]

/-- Slot `1` polls after the deadline `1`, slot `0` before it. -/
def lateSlotRun : LccRun 2 where
  polls := [(0, 0), (1, 1)]
  tEnd := 1
  polls_perm := List.Perm.refl _
  polls_le := by decide

theorem lcc_timeout_of_skipped_lateSlot :
    lcc deletedSlotGraph (fun _ => []) 1 lateSlotRun none = .error .timeoutError :=
  (@lcc_timeout_of_skipped deletedSlotGraph (fun _ => []) 1 lateSlotRun none).1
    ⟨(1, 1), by decide, rfl⟩

/-- With every id below `2^31`, a vertex has at most `2^31` neighbours. -/
theorem Graph.degree_le_of_small_ids (hsmall : ∀ e ∈ g.edges, e.1 < 2 ^ 31 ∧ e.2 < 2 ^ 31)
    (v : Int) : g.degree v ≤ 2 ^ 31 := by
  have hsub : (g.neighbours v).toFinset ⊆ Finset.Ico 0 (2 ^ 31) := fun u hu => by
    rw [List.mem_toFinset] at hu
    exact Finset.mem_Ico.2
      ⟨(g.isLogicalId_of_mem_neighbours hu).1, g.lt_of_mem_neighbours hsmall hu⟩
  calc g.degree v = (g.neighbours v).toFinset.card :=
        (List.toFinset_card_of_nodup (g.neighbours_nodup v)).symm
    _ ≤ (Finset.Ico (0 : Int) (2 ^ 31)).card := Finset.card_le_card hsub
    _ = 2 ^ 31 := by simp

/-- With every id below `2^31`, `max_num_edges = degree * (degree - 1)` does not wrap in
`uint64_t`. -/
theorem Graph.degree_mul_pred_lt (hsmall : ∀ e ∈ g.edges, e.1 < 2 ^ 31 ∧ e.2 < 2 ^ 31)
    (v : Int) : g.degree v * (g.degree v - 1) < 2 ^ 64 := by
  have hle := g.degree_le_of_small_ids hsmall v
  calc g.degree v * (g.degree v - 1) ≤ 2 ^ 31 * 2 ^ 31 := Nat.mul_le_mul hle (by omega)
    _ < 2 ^ 64 := by norm_num

theorem lccCoefficient_eq_graphalyticsCoefficient
    (hsmall : ∀ e ∈ g.edges, e.1 < 2 ^ 31 ∧ e.2 < 2 ^ 31) (v : Int) :
    lccCoefficient (g.triangles v) (g.degree v) = g.graphalyticsCoefficient v := by
  rw [lccCoefficient, Graph.graphalyticsCoefficient,
    Nat.mod_eq_of_lt (g.degree_mul_pred_lt hsmall v)]

/-- With every logical id below `2^31`, whatever arrays `qsort` leaves, each live slot of a
listing that `Stinger::lcc` writes carries the Graphalytics coefficient of its vertex: its
triangle count over `degree * (degree - 1)`, with no wrap of the product. -/
theorem lcc_listing_graphalytics (hsmall : ∀ e ∈ g.edges, e.1 < 2 ^ 31 ∧ e.2 < 2 ^ 31)
    (hq : ∀ v : Int, QsortResult compare (g.neighbours v) (qsorted v))
    (run : LccRun g.numMappings) (dump2file : Option String) (listing : List (UInt64 × ℚ))
    (h : lcc g qsorted deadline run dump2file = .ok (some listing)) :
    ∀ v < g.numMappings, g.vtype v ≠ 1 →
      listing[v]? = some (g.externalId v, g.graphalyticsCoefficient v) := by
  intro v hv hlive
  rw [lcc_ok_getElem? h hv, if_neg hlive, lccVertexCoefficient,
    lccCountTriangles_of_small_ids (fun _ => g.lt_of_mem_neighbours hsmall) (hq v),
    lccCoefficient_eq_graphalyticsCoefficient hsmall]

/-- The merge sort of each neighbourhood of `cycleGraph`, an array `qsort` may leave. -/
def cycleQsorted (v : Int) : List Int := (cycleGraph.neighbours v).mergeSort fun a b => decide (a ≤ b)

/-- The three iterations poll at instant `0`, as does the check after the loop. -/
def cycleRun : LccRun 3 where
  polls := [(0, 0), (1, 0), (2, 0)]
  tEnd := 0
  polls_perm := List.Perm.refl _
  polls_le := by decide

theorem lcc_listing_graphalytics_cycle :
    (lccLoop cycleGraph cycleQsorted 1 cycleRun.polls (List.replicate 3 (0, 0)))[0]? =
      some (cycleGraph.externalId 0, cycleGraph.graphalyticsCoefficient 0) :=
  @lcc_listing_graphalytics cycleGraph cycleQsorted 1 (by decide)
    (fun v => qsortResult_mergeSort fun u hu => ⟨(cycleGraph.isLogicalId_of_mem_neighbours hu).1,
      cycleGraph.lt_of_mem_neighbours (by decide) hu⟩)
    cycleRun (some "lcc.out") _ (by rfl) 0 (by decide) (by decide)

end Stinger

end GfeDriver
