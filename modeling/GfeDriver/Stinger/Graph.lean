import Mathlib.Data.Finset.Card
import Mathlib.Data.List.Dedup

/-!
# The Stinger graph read by the LCC kernel

`Stinger::lcc` and its two helpers in `local_clustering_coefficient.cpp` see a Stinger
instance only through a few calls: `get_max_num_mappings()`, `stinger_vtype_get`,
`stinger_degree_get`, `get_external_id`, `stinger_gather_neighbors` and the edge loops
`STINGER_FORALL_EDGES_OF_VTX` and `STINGER_FORALL_OUT_EDGES_OF_VTX`. A `Graph` keeps what
these calls return: the stored directed edges between logical vertex ids, the vertex types
and the external ids. The two edge loops and the degree are read off the edges, so they agree
with each other by construction, as Stinger keeps them in one edge list per vertex.

`Adjacent` is the neighbourhood `N(v)` of the Graphalytics definition and `triangles` the
count the kernel is meant to return; both are stated over the edge set, not over the loops.
-/

namespace GfeDriver

namespace Stinger

/-- A logical vertex id of Stinger: a non-negative `int64_t`. -/
def IsLogicalId (z : Int) : Prop := 0 ≤ z ∧ z < 2 ^ 63

instance (z : Int) : Decidable (IsLogicalId z) := inferInstanceAs (Decidable (_ ∧ _))

/-- A Stinger instance as the LCC kernel reads it. `edges` are the stored directed edges
`(source, destination)`, each once; `vtype v` is `stinger_vtype_get(v)`, `0` for a live vertex
and `1` for one marked for deletion, the two types the driver uses; `externalId v` is
`get_external_id(v)`; `numMappings` is `get_max_num_mappings()`. With no other type, the
`assert(stinger_vtype_get(v) == 0)` of `lcc_count_triangles` holds on every vertex `lcc` passes
it, since `lcc` skips the type `1`. -/
structure Graph where
  edges : List (Int × Int)
  vtype : Int → Int
  externalId : Int → UInt64
  numMappings : Nat
  edges_nodup : edges.Nodup
  edges_logical : ∀ e ∈ edges, IsLogicalId e.1 ∧ IsLogicalId e.2
  vtype_mem : ∀ v, vtype v = 0 ∨ vtype v = 1

namespace Graph

variable (g : Graph)

/-- The endpoint of `e` other than `v` when `e` touches `v`; a self-loop at `v` gives `v`. -/
def otherEnd (v : Int) (e : Int × Int) : Option Int :=
  if e.1 = v then some e.2 else if e.2 = v then some e.1 else none

/-- `STINGER_FORALL_EDGES_OF_VTX(v)`, and what `stinger_gather_neighbors` copies out: every
vertex joined to `v` in either direction, once, since an edge stored in both directions sits
in one slot of the edge list of `v`. -/
def neighbours (v : Int) : List Int := (g.edges.filterMap (otherEnd v)).dedup

/-- `STINGER_FORALL_OUT_EDGES_OF_VTX(u)`: the destinations of the edges leaving `u`. -/
def outNeighbours (u : Int) : List Int := (g.edges.filter fun e => e.1 = u).map Prod.snd

/-- `stinger_degree_get(v)`: the number of slots in the edge list of `v`. -/
def degree (v : Int) : Nat := (g.neighbours v).length

/-- `u ∈ N(v)`: an edge joins `v` and `u` in one direction or the other. -/
def Adjacent (v u : Int) : Prop := (v, u) ∈ g.edges ∨ (u, v) ∈ g.edges

instance (v u : Int) : Decidable (g.Adjacent v u) := inferInstanceAs (Decidable (_ ∨ _))

/-- The triangle count of the Graphalytics LCC at `v`: the edges `(u, w)` whose two ends are
neighbours of `v` other than `v` itself. -/
def triangles (v : Int) : Nat :=
  (g.edges.toFinset.filter fun e =>
    g.Adjacent v e.1 ∧ e.1 ≠ v ∧ e.2 ≠ v ∧ g.Adjacent v e.2).card

theorem mem_neighbours {v u : Int} : u ∈ g.neighbours v ↔ g.Adjacent v u := by
  simp only [neighbours, List.mem_dedup, List.mem_filterMap, otherEnd, Adjacent]
  constructor
  · rintro ⟨⟨a, b⟩, he, h⟩
    split_ifs at h with h1 h2 <;> cases h
    · exact .inl (h1 ▸ he)
    · exact .inr (h2 ▸ he)
  · rintro (h | h)
    · exact ⟨_, h, by simp⟩
    · by_cases hu : u = v
      · exact ⟨_, h, by simp [hu]⟩
      · exact ⟨_, h, by simp [hu]⟩

theorem neighbours_nodup (v : Int) : (g.neighbours v).Nodup := List.nodup_dedup _

theorem mem_outNeighbours {u w : Int} : w ∈ g.outNeighbours u ↔ (u, w) ∈ g.edges := by
  simp only [outNeighbours, List.mem_map, List.mem_filter, decide_eq_true_eq]
  constructor
  · rintro ⟨⟨a, b⟩, ⟨he, rfl⟩, rfl⟩
    exact he
  · exact fun h => ⟨_, ⟨h, rfl⟩, rfl⟩

theorem outNeighbours_nodup (u : Int) : (g.outNeighbours u).Nodup := by
  refine (g.edges_nodup.filter _).map_on ?_
  rintro ⟨a, b⟩ ha ⟨c, d⟩ hc (rfl : b = d)
  simp only [List.mem_filter, decide_eq_true_eq] at ha hc
  rw [ha.2, hc.2]

theorem isLogicalId_of_mem_neighbours {v u : Int} (h : u ∈ g.neighbours v) : IsLogicalId u := by
  rcases (g.mem_neighbours).1 h with h | h
  · exact (g.edges_logical _ h).2
  · exact (g.edges_logical _ h).1

theorem lt_of_mem_neighbours {b : Int} (hb : ∀ e ∈ g.edges, e.1 < b ∧ e.2 < b) {v u : Int}
    (h : u ∈ g.neighbours v) : u < b := by
  rcases (g.mem_neighbours).1 h with h | h
  · exact (hb _ h).2
  · exact (hb _ h).1

/-- Over the stored list, which has no repeated edge, the triangle count is a list length. -/
theorem triangles_eq_length (v : Int) :
    g.triangles v = (g.edges.filter fun e =>
      g.Adjacent v e.1 ∧ e.1 ≠ v ∧ e.2 ≠ v ∧ g.Adjacent v e.2).length := by
  rw [triangles, ← List.toFinset_card_of_nodup (g.edges_nodup.filter _)]
  congr 1
  ext e
  simp

end Graph

end Stinger

end GfeDriver
