import GfeDriver.Stinger.Graph
import GfeDriver.Stinger.Binsearch
import GfeDriver.Stinger.Qsort
import Mathlib

/-!
# Counting the triangles at one vertex

`lcc_count_triangles(v)` gathers the neighbours of `v`, sorts them with `qsort` and, for each
neighbour `u ≠ v` met by `STINGER_FORALL_EDGES_OF_VTX`, adds `lcc_count_intersections(v, u)`:
the out-edges `u → w` with `w ≠ v` whose destination the binary search finds among the
neighbours of `v`. The sorted array is an argument, constrained by `QsortResult` where a
statement needs it.

Whenever the binary search answers membership in `N(v)` the two loops count exactly the
edges of `triangles`, grouped by their source (`lccCountTriangles_eq_triangles`). That holds
when every neighbour id is below `2^31` (`lccCountTriangles_of_small_ids`). With ids `2^32`
apart, `compare` calls them equal, `qsort` may leave them unsorted, and a triangle is missed.
-/

namespace GfeDriver

namespace Stinger

/-- `lcc_count_intersections(vertex1, vertex2, vertex1_neighbours, vertex1_neighbours_sz)`: the
out-edges `vertex2 → w` with `w ≠ vertex1` whose destination `binsearch` finds in the array. -/
def lccCountIntersections (g : Graph) (vertex1 vertex2 : Int) (vertex1Neighbours : List Int) :
    Nat :=
  (g.outNeighbours vertex2).countP fun w => w ≠ vertex1 && binsearchFound vertex1Neighbours w

/-- `lcc_count_triangles(vertex_id)`, where `neighbours` is the array `qsort` left after
`stinger_gather_neighbors`: over the neighbours of `vertex_id` other than itself (self-loops
are skipped), the sum of `lcc_count_intersections`. Its `assert` that `vertex_id` is not marked
for deletion is left out: `lcc` calls it only on vertices of type `0`, the other type the
driver uses. -/
def lccCountTriangles (g : Graph) (vertexId : Int) (neighbours : List Int) : Nat :=
  (((g.neighbours vertexId).filter (· ≠ vertexId)).map fun u =>
    lccCountIntersections g vertexId u neighbours).sum

namespace Graph

variable (g : Graph)

/-- The triangle edges leaving `u`, for a `u` that is a neighbour of `v` other than `v`. -/
def trianglesFrom (v u : Int) : Finset (Int × Int) :=
  g.edges.toFinset.filter fun e => e.1 = u ∧ e.2 ≠ v ∧ g.Adjacent v e.2

end Graph

variable {g : Graph} {v : Int} {neighbours : List Int}

theorem lccCountIntersections_eq (hfound : ∀ w, binsearchFound neighbours w = decide (g.Adjacent v w))
    (u : Int) : lccCountIntersections g v u neighbours = (g.trianglesFrom v u).card := by
  rw [lccCountIntersections, Graph.outNeighbours, List.countP_map, List.countP_eq_length_filter,
    List.filter_filter, ← List.toFinset_card_of_nodup (g.edges_nodup.filter _), Graph.trianglesFrom]
  congr 1
  ext e
  simp only [List.mem_toFinset, List.mem_filter, Finset.mem_filter, Function.comp, hfound,
    Bool.and_eq_true, bne_iff_ne, ne_eq, decide_eq_true_eq]
  tauto

/-- When `binsearch` answers membership in `N(v)`, the loops of `lcc_count_triangles` count the
triangle edges at `v`, each under its source. -/
theorem lccCountTriangles_eq_triangles
    (hfound : ∀ w, binsearchFound neighbours w = decide (g.Adjacent v w)) :
    lccCountTriangles g v neighbours = g.triangles v := by
  set sources := (g.neighbours v).filter (· ≠ v)
  have hsources : ∀ e ∈ g.edges.toFinset.filter (fun e =>
      g.Adjacent v e.1 ∧ e.1 ≠ v ∧ e.2 ≠ v ∧ g.Adjacent v e.2), e.1 ∈ sources.toFinset := by
    intro e he
    simp only [Finset.mem_filter] at he
    simp [sources, g.mem_neighbours, he.2.1, he.2.2.1]
  rw [lccCountTriangles, Graph.triangles,
    @Finset.card_eq_sum_card_fiberwise _ _ _ Prod.fst _ sources.toFinset hsources,
    ← List.sum_toFinset _ ((g.neighbours_nodup v).filter _)]
  refine Finset.sum_congr rfl fun u hu => ?_
  simp only [List.mem_toFinset, List.mem_filter, sources, g.mem_neighbours,
    decide_eq_true_eq] at hu
  rw [lccCountIntersections_eq hfound, Graph.trianglesFrom, Finset.filter_filter]
  congr 1
  refine Finset.filter_congr fun e _ => ?_
  constructor
  · rintro ⟨rfl, h2, h3⟩
    exact ⟨⟨hu.1, hu.2, h2, h3⟩, rfl⟩
  · rintro ⟨⟨-, -, h2, h3⟩, rfl⟩
    exact ⟨rfl, h2, h3⟩

/-- With every neighbour id below `2^31`, whatever array `qsort` leaves, `lcc_count_triangles`
returns the Graphalytics triangle count of `v`. -/
theorem lccCountTriangles_of_small_ids (hsmall : ∀ u ∈ g.neighbours v, u < 2 ^ 31)
    (hq : QsortResult compare (g.neighbours v) neighbours) :
    lccCountTriangles g v neighbours = g.triangles v := by
  have hids : ∀ u ∈ g.neighbours v, 0 ≤ u ∧ u < 2 ^ 31 :=
    fun u hu => ⟨(g.isLogicalId_of_mem_neighbours hu).1, hsmall u hu⟩
  refine lccCountTriangles_eq_triangles fun w => ?_
  simp only [binsearchFound_sorted (hq.sorted hids), hq.mem_iff, g.mem_neighbours]

/-- Three vertices `0 → 1 → 2 → 0` in a cycle: one triangle edge, `1 → 2`, at vertex `0`. -/
def cycleGraph : Graph where
  edges := [(0, 1), (1, 2), (2, 0)]
  vtype := fun _ => 0
  externalId := fun v => v.toNat.toUInt64
  numMappings := 3
  edges_nodup := by decide
  edges_logical := by decide
  vtype_mem := fun _ => .inl rfl

/-- Logical ids `0`, `1` and `2^32 = 4294967296`: vertex `1` is joined to `0` and to `2^32`,
and the edge `2^32 → 0` closes a triangle at `1`. -/
def wideIdGraph : Graph where
  edges := [(1, 4294967296), (1, 0), (4294967296, 0)]
  vtype := fun _ => 0
  externalId := fun v => v.toNat.toUInt64
  numMappings := 4294967297
  edges_nodup := by decide
  edges_logical := by decide
  vtype_mem := fun _ => .inl rfl

/-- `binsearch` on the unsorted `[2^32, 0]` probes `2^32`, moves left and misses `0`. -/
theorem binsearch_wideIds : binsearch [4294967296, 0] 0 = some false := by
  have hmid : ((0 : Int) + ((([4294967296, 0] : List Int).length : Int) - 1)).tdiv 2 = 0 := by
    decide
  have hread : readAt [4294967296, 0] 0 = some 4294967296 := by decide
  rw [binsearch, binsearchFrom, if_pos (by decide)]
  simp only [hmid, hread]
  rw [if_neg (by decide), if_neg (by decide), binsearchFrom, if_neg (by decide)]

/-- At vertex `1` of `wideIdGraph`, a live vertex of degree two, `compare` reads `2^32` and `0`
as equal, so the gathered order `[2^32, 0]` keeps the promise of `qsort`; the binary search then
misses `0`, and `lcc_count_triangles(1)` returns `0` where the triangle count is `1`. -/
theorem lccCountTriangles_wideIdGraph :
    wideIdGraph.vtype 1 ≠ 1 ∧ wideIdGraph.degree 1 = 2 ∧
      QsortResult compare (wideIdGraph.neighbours 1) [4294967296, 0] ∧
      lccCountTriangles wideIdGraph 1 [4294967296, 0] = 0 ∧ wideIdGraph.triangles 1 = 1 := by
  have hn : wideIdGraph.neighbours 1 = [4294967296, 0] := by decide
  have hfound : binsearchFound [4294967296, 0] 0 = false := by
    simp only [binsearchFound, binsearch_wideIds]
    rfl
  refine ⟨by decide, by rw [Graph.degree, hn]; rfl,
    ⟨by rw [hn], List.chain'_pair.2 (by simpa using (compare_two_pow_32 0).le)⟩,
    ?_, by rw [Graph.triangles_eq_length]; decide⟩
  have ho : wideIdGraph.outNeighbours 4294967296 = [0] := by decide
  have ho0 : wideIdGraph.outNeighbours 0 = [] := by decide
  simp [lccCountTriangles, lccCountIntersections, hn, ho, ho0, hfound]

end Stinger

end GfeDriver
