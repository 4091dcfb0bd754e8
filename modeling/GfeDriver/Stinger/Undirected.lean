import GfeDriver.Stinger.Lcc

/-!
# `Stinger::lcc` on an undirected graph

The comment above the out-edge loop of `lcc_count_intersections` says that the kernel follows
the Graphalytics definition for undirected and directed graphs alike. Stinger holds an
undirected graph with each edge stored in both directions (`IsUndirected`). There the directed
triangle count meets every edge between two neighbours twice, once each way
(`triangles_eq_two_mul`), so the Graphalytics coefficient is the one of the undirected
definition, the edges between the neighbours of `v` over the pairs of neighbours
(`graphalyticsCoefficient_undirected`). With ids below `2^31`, a listing that `lcc` writes
carries that coefficient (`lcc_listing_undirected`).
-/

namespace GfeDriver

namespace Stinger

namespace Graph

variable (g : Graph)

/-- The graph is undirected as Stinger holds it: each edge is stored in both directions, and
none is a self-loop. -/
structure IsUndirected : Prop where
  swap_mem : ∀ e ∈ g.edges, e.swap ∈ g.edges
  ne : ∀ e ∈ g.edges, e.1 ≠ e.2

/-- The undirected edges between two neighbours of `v` other than `v`, each counted once, by
its stored direction from the lower id to the higher. -/
def neighbourEdges (v : Int) : Nat :=
  (g.edges.toFinset.filter fun e =>
    (g.Adjacent v e.1 ∧ e.1 ≠ v ∧ e.2 ≠ v ∧ g.Adjacent v e.2) ∧ e.1 < e.2).card

/-- The local clustering coefficient of `v` in the undirected definition: the edges between
the neighbours of `v` over the pairs of neighbours, `0` below two neighbours. -/
def undirectedCoefficient (v : Int) : ℚ :=
  if 2 ≤ g.degree v then (g.neighbourEdges v : ℚ) / ((g.degree v).choose 2 : Nat) else 0

variable {g}

/-- In an undirected graph each edge between neighbours is met twice by the directed count,
once from each end. -/
theorem triangles_eq_two_mul (hu : g.IsUndirected) (v : Int) :
    g.triangles v = 2 * g.neighbourEdges v := by
  set s := g.edges.toFinset.filter fun e =>
    g.Adjacent v e.1 ∧ e.1 ≠ v ∧ e.2 ≠ v ∧ g.Adjacent v e.2
  have hswap : ∀ e ∈ s, e.swap ∈ s := by
    rintro ⟨a, b⟩ he
    simp only [s, Finset.mem_filter, List.mem_toFinset] at he ⊢
    exact ⟨hu.swap_mem _ he.1, he.2.2.2.2, he.2.2.2.1, he.2.2.1, he.2.1⟩
  have hne : ∀ e ∈ s, e.1 ≠ e.2 := fun e he =>
    hu.ne e (List.mem_toFinset.1 (Finset.mem_filter.1 he).1)
  have hsplit : (s.filter fun e => e.1 < e.2).card + (s.filter fun e => ¬ e.1 < e.2).card =
      s.card := Finset.filter_card_add_filter_neg_card_eq_card _
  have hhalf : (s.filter fun e => ¬ e.1 < e.2).card = (s.filter fun e => e.1 < e.2).card := by
    apply Finset.card_nbij' Prod.swap Prod.swap
    · intro e he
      rw [Finset.mem_filter] at he ⊢
      exact ⟨hswap e he.1, lt_of_le_of_ne (not_lt.1 he.2) (hne e he.1).symm⟩
    · intro e he
      rw [Finset.mem_filter] at he ⊢
      exact ⟨hswap e he.1, not_lt.2 he.2.le⟩
    · exact fun e _ => e.swap_swap
    · exact fun e _ => e.swap_swap
  have hedges : g.neighbourEdges v = (s.filter fun e => e.1 < e.2).card := by
    rw [Finset.filter_filter]
    rfl
  show s.card = _
  omega

/-- In an undirected graph the Graphalytics coefficient is the undirected one: the factor two
of the directed count cancels against the ordered pairs of neighbours. -/
theorem graphalyticsCoefficient_undirected (hu : g.IsUndirected) (v : Int) :
    g.graphalyticsCoefficient v = g.undirectedCoefficient v := by
  rw [graphalyticsCoefficient, undirectedCoefficient, triangles_eq_two_mul hu]
  split_ifs
  · have hpairs : g.degree v * (g.degree v - 1) = 2 * (g.degree v).choose 2 := by
      rw [Nat.choose_two_right, Nat.mul_div_cancel' (Nat.even_mul_pred_self _).two_dvd]
    rw [hpairs]
    push_cast
    exact mul_div_mul_left _ _ two_ne_zero
  · rfl

end Graph

/-- On an undirected graph whose ids are below `2^31`, the directed triangle count of every
vertex is twice the number of edges between its neighbours, `degree * (degree - 1)` does not
wrap, and whatever arrays `qsort` leaves, each live slot of a listing that `Stinger::lcc` writes
carries the coefficient of the undirected definition: the edges between the neighbours of the
vertex over its pairs of neighbours. -/
theorem lcc_listing_undirected {g : Graph} {qsorted : Int → List Int} {deadline : Nat}
    (hu : g.IsUndirected) (hsmall : ∀ e ∈ g.edges, e.1 < 2 ^ 31 ∧ e.2 < 2 ^ 31)
    (hq : ∀ v : Int, QsortResult compare (g.neighbours v) (qsorted v))
    (run : LccRun g.numMappings) (dump2file : Option String) (listing : List (UInt64 × ℚ))
    (h : lcc g qsorted deadline run dump2file = .ok (some listing)) :
    (∀ v : Int, g.triangles v = 2 * g.neighbourEdges v ∧ g.degree v * (g.degree v - 1) < 2 ^ 64) ∧
      ∀ v < g.numMappings, g.vtype v ≠ 1 →
        listing[v]? = some (g.externalId v, g.undirectedCoefficient v) := by
  refine ⟨fun v => ⟨Graph.triangles_eq_two_mul hu v, g.degree_mul_pred_lt hsmall v⟩,
    fun v hv hlive => ?_⟩
  rw [lcc_ok_getElem? h hv, if_neg hlive, lccVertexCoefficient,
    lccCountTriangles_of_small_ids (fun _ => g.lt_of_mem_neighbours hsmall) (hq v),
    lccCoefficient_eq_graphalyticsCoefficient hsmall, Graph.graphalyticsCoefficient_undirected hu]

/-- The triangle `0 - 1 - 2` of an undirected graph, each edge stored in both directions. -/
def triangleGraph : Graph where
  edges := [(0, 1), (1, 0), (1, 2), (2, 1), (0, 2), (2, 0)]
  vtype := fun _ => 0
  externalId := fun v => v.toNat.toUInt64
  numMappings := 3
  edges_nodup := by decide
  edges_logical := by decide
  vtype_mem := fun _ => .inl rfl

/-- The merge sort of each neighbourhood of `triangleGraph`. -/
def triangleQsorted (v : Int) : List Int :=
  (triangleGraph.neighbours v).mergeSort fun a b => decide (a ≤ b)

theorem lcc_listing_undirected_triangle :
    triangleGraph.undirectedCoefficient 0 = 1 ∧
      (∀ v : Int, triangleGraph.triangles v = 2 * triangleGraph.neighbourEdges v ∧
        triangleGraph.degree v * (triangleGraph.degree v - 1) < 2 ^ 64) ∧
      (lccLoop triangleGraph triangleQsorted 1 cycleRun.polls (List.replicate 3 (0, 0)))[0]? =
        some (triangleGraph.externalId 0, triangleGraph.undirectedCoefficient 0) := by
  have hlisting := @lcc_listing_undirected triangleGraph triangleQsorted 1
    ⟨by decide, by decide⟩ (by decide)
    (fun v => qsortResult_mergeSort fun u hu =>
      ⟨(triangleGraph.isLogicalId_of_mem_neighbours hu).1,
        triangleGraph.lt_of_mem_neighbours (by decide) hu⟩)
    cycleRun (some "lcc.out") _ (by rfl)
  refine ⟨?_, hlisting.1, hlisting.2 0 (by decide) (by decide)⟩
  simp [Graph.undirectedCoefficient, (by decide : triangleGraph.neighbourEdges 0 = 1),
    (by decide : triangleGraph.degree 0 = 2)]

end Stinger

end GfeDriver
