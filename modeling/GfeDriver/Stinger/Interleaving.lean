import GfeDriver.Stinger.Lcc

/-!
# The iterations of `Stinger::lcc` interleaved across threads

`lccLoop` runs the bodies of the `omp parallel for` one after another, in the order of their
polls. On the machine the threads of `schedule(dynamic, 64)` interleave them: between the poll of
one iteration and its store into `result[v]`, other iterations poll and store. This module runs
the loop at that grain. An iteration is a poll of the deadline, with the read of the vertex
type, and then, when it goes on, a store into its own slot (`lccIteration`); a trace is any
interleaving of the iterations, that is a list of steps in which the steps of each slot are
exactly the iterations of that slot, in order (`IsInterleaving`). The sequential order is one
(`isInterleaving_flatMap`).

No slot is stored twice in a trace of a run (`count_store_le_one`), so no two threads write the
same element of `result`; and whatever the interleaving, the vector at the barrier is the one
`lccLoop` leaves (`lccSteps_eq_lccLoop`), so `lcc` at the grain of the threads is `lcc`
(`lccInterleaved_eq_lcc`).
-/

namespace GfeDriver

namespace Stinger

/-- One step of an iteration of the `omp parallel for`: `poll v t` is `tcheck->is_timeout()` at
the instant `t` followed by `stinger_vtype_get(STINGER, v)`, and `store v` is
`result[v] = make_pair(get_external_id(v), coeff)`. -/
inductive LccStep
  | poll (v t : Nat)
  | store (v : Nat)
  deriving DecidableEq

/-- The slot whose iteration takes the step. -/
def LccStep.slot : LccStep → Nat
  | .poll v _ => v
  | .store v => v

/-- The steps of the iteration of slot `v` polling at `t`: the poll, then the store unless the
deadline has passed or the slot is marked for deletion. -/
def lccIteration (g : Graph) (deadline v t : Nat) : List LccStep :=
  .poll v t :: if isTimeout deadline t then [] else if g.vtype v = 1 then [] else [.store v]

/-- What a step does to `result`: a poll reads, a store writes the entry of its slot. -/
def lccStep (g : Graph) (qsorted : Int → List Int) (result : List (UInt64 × ℚ)) :
    LccStep → List (UInt64 × ℚ)
  | .poll _ _ => result
  | .store v => result.set v (g.externalId v, lccVertexCoefficient g qsorted v)

/-- The steps of a trace taken in turn on `result`. -/
def lccSteps (g : Graph) (qsorted : Int → List Int) (steps : List LccStep)
    (result : List (UInt64 × ℚ)) : List (UInt64 × ℚ) :=
  steps.foldl (lccStep g qsorted) result

/-- `steps` interleaves the iterations that poll as `polls` says: picked out of `steps`, the
steps of each slot are the iterations of that slot, in order. -/
def IsInterleaving (g : Graph) (deadline : Nat) (polls : List (Nat × Nat))
    (steps : List LccStep) : Prop :=
  ∀ v, steps.filter (fun s => s.slot = v) =
    (polls.filter fun p => p.1 = v).flatMap fun p => lccIteration g deadline p.1 p.2

/-- `Stinger::lcc(dump2file)` with the iterations of its loop interleaved as `steps`. -/
def lccInterleaved (g : Graph) (qsorted : Int → List Int) (deadline : Nat)
    (run : LccRun g.numMappings) (steps : List LccStep) (dump2file : Option String) :
    Except LccError (Option (List (UInt64 × ℚ))) :=
  let result := lccSteps g qsorted steps (List.replicate g.numMappings (0, 0))
  if isTimeout deadline run.tEnd then .error .timeoutError
  else .ok (save result dump2file)

variable {g : Graph} {qsorted : Int → List Int} {deadline : Nat}

@[simp] theorem lccSteps_nil (result : List (UInt64 × ℚ)) :
    lccSteps g qsorted [] result = result := rfl

theorem lccSteps_cons (s : LccStep) (steps : List LccStep) (result : List (UInt64 × ℚ)) :
    lccSteps g qsorted (s :: steps) result = lccSteps g qsorted steps (lccStep g qsorted result s) :=
  rfl

/-- Every step of an iteration is a step of its slot. -/
theorem slot_of_mem_lccIteration {v t : Nat} {s : LccStep} (h : s ∈ lccIteration g deadline v t) :
    s.slot = v := by
  unfold lccIteration at h
  cases s <;> split_ifs at h <;> simp_all [LccStep.slot]

/-- An iteration stores into its own slot exactly when its poll stores the entry. -/
theorem store_mem_lccIteration (v t w : Nat) :
    LccStep.store w ∈ lccIteration g deadline v t ↔ StoresEntry g deadline w (v, t) := by
  unfold lccIteration StoresEntry
  split_ifs with ht hv
  · simp [ht]
  · simp only [List.mem_singleton, reduceCtorEq, false_iff, not_and]
    rintro rfl - hw
    exact hw hv
  · simp only [List.mem_cons, reduceCtorEq, List.mem_singleton, LccStep.store.injEq, false_or,
      List.not_mem_nil, or_false]
    constructor
    · rintro rfl
      exact ⟨rfl, by simpa using ht, hv⟩
    · rintro ⟨rfl, -, -⟩
      rfl

theorem count_store_lccIteration_le (v t w : Nat) :
    (lccIteration g deadline v t).count (.store w) ≤ 1 := by
  unfold lccIteration
  split_ifs <;> simp [List.count_cons]
  split <;> simp

/-- The iterations run one after another form an interleaving. -/
theorem isInterleaving_flatMap (polls : List (Nat × Nat)) :
    IsInterleaving g deadline polls (polls.flatMap fun p => lccIteration g deadline p.1 p.2) := by
  intro v
  induction polls with
  | nil => rfl
  | cons p polls ih =>
    have hslot : ∀ s ∈ lccIteration g deadline p.1 p.2, s.slot = p.1 :=
      fun s hs => slot_of_mem_lccIteration hs
    rw [List.flatMap_cons, List.filter_append, ih, List.filter_cons]
    by_cases hp : p.1 = v
    · rw [List.filter_eq_self.2 fun s hs => by simp [hslot s hs, hp]]
      simp [hp]
    · rw [List.filter_eq_nil_iff.2 fun s hs => by simp [hslot s hs, hp]]
      simp [hp]

/-- The run lemma: a slot holds its entry once a step stored it, and its initial value
otherwise. -/
theorem lccSteps_getElem? (steps : List LccStep) (result : List (UInt64 × ℚ)) (w : Nat) :
    (lccSteps g qsorted steps result)[w]? =
      if LccStep.store w ∈ steps then
        result[w]?.map fun _ => (g.externalId w, lccVertexCoefficient g qsorted w)
      else result[w]? := by
  induction steps generalizing result with
  | nil => simp
  | cons s steps ih =>
    rw [lccSteps_cons, ih]
    cases s with
    | poll v t => simp [lccStep]
    | store v =>
      by_cases hvw : v = w
      · subst hvw
        simp [lccStep, List.getElem?_set', Option.map_map, Function.comp_def, Function.const_def]
      · simp [lccStep, List.getElem?_set_ne hvw, Ne.symm hvw]

/-- In an interleaving a slot is stored exactly when one of its polls stores the entry. -/
theorem IsInterleaving.store_mem_iff {polls : List (Nat × Nat)} {steps : List LccStep}
    (h : IsInterleaving g deadline polls steps) (w : Nat) :
    LccStep.store w ∈ steps ↔ ∃ p ∈ polls, StoresEntry g deadline w p := by
  have hw : LccStep.store w ∈ steps ↔ LccStep.store w ∈ steps.filter fun s => s.slot = w := by
    simp [LccStep.slot]
  rw [hw, h w, List.mem_flatMap]
  constructor
  · rintro ⟨p, hp, hs⟩
    exact ⟨p, (List.mem_filter.1 hp).1, (store_mem_lccIteration p.1 p.2 w).1 hs⟩
  · rintro ⟨p, hp, hs⟩
    exact ⟨p, List.mem_filter.2 ⟨hp, by simpa using hs.1⟩, (store_mem_lccIteration p.1 p.2 w).2 hs⟩

/-- Whatever the interleaving, the steps leave `result` as the loop run in the order of the
polls leaves it. -/
theorem lccSteps_eq_lccLoop {polls : List (Nat × Nat)} {steps : List LccStep}
    (h : IsInterleaving g deadline polls steps) (result : List (UInt64 × ℚ)) :
    lccSteps g qsorted steps result = lccLoop g qsorted deadline polls result := by
  ext1 w
  rw [lccSteps_getElem?, lccLoop_getElem?]
  simp only [h.store_mem_iff w]

/-- With the slots of the polls distinct, as in a run, each slot is stored at most once. -/
theorem IsInterleaving.count_store_le_one {polls : List (Nat × Nat)} {steps : List LccStep}
    (h : IsInterleaving g deadline polls steps) (hpolls : (polls.map Prod.fst).Nodup) (w : Nat) :
    steps.count (.store w) ≤ 1 := by
  have hfilter : steps.count (.store w) =
      ((polls.filter fun p => p.1 = w).flatMap fun p => lccIteration g deadline p.1 p.2).count
        (.store w) := by
    rw [← h w, List.count_filter (by simp [LccStep.slot])]
  have hlen : (polls.filter fun p => p.1 = w).length ≤ 1 := by
    have hcount : (polls.map Prod.fst).count w = (polls.filter fun p => p.1 = w).length := by
      rw [List.count, List.countP_map, List.countP_eq_length_filter]
      rfl
    exact hcount ▸ List.nodup_iff_count_le_one.1 hpolls w
  rw [hfilter]
  match hp : polls.filter fun p => p.1 = w with
  | [] => simp [hp]
  | [p] => simpa [hp] using count_store_lccIteration_le p.1 p.2 w
  | _ :: _ :: _ => simp [hp] at hlen
/-- `Stinger::lcc` at the grain of the threads: in every interleaving of the iterations of a
run no slot of `result` is stored twice, so no two threads write the same element, and the
outcome is the one `lcc` gives, the listing and `TimeoutError` alike. -/
theorem lccInterleaved_eq_lcc (run : LccRun g.numMappings) (steps : List LccStep)
    (h : IsInterleaving g deadline run.polls steps) (dump2file : Option String) :
    (∀ w, steps.count (.store w) ≤ 1) ∧
      lccInterleaved g qsorted deadline run steps dump2file =
        lcc g qsorted deadline run dump2file := by
  refine ⟨h.count_store_le_one (run.polls_perm.nodup_iff.2 (List.nodup_range _)), ?_⟩
  simp only [lccInterleaved, lcc, lccSteps_eq_lccLoop h]

/-- The iterations of `cycleRun` interleaved out of their order: slot `1` polls and stores
between the poll and the store of slot `0`. -/
def cycleSteps : List LccStep :=
  [.poll 0 0, .poll 1 0, .store 1, .poll 2 0, .store 0, .store 2]

theorem lccInterleaved_eq_lcc_cycle :
    IsInterleaving cycleGraph 1 cycleRun.polls cycleSteps ∧
      lccInterleaved cycleGraph cycleQsorted 1 cycleRun cycleSteps none =
        lcc cycleGraph cycleQsorted 1 cycleRun none := by
  have hinter : IsInterleaving cycleGraph 1 cycleRun.polls cycleSteps := by
    intro v
    rcases (by omega : v = 0 ∨ v = 1 ∨ v = 2 ∨ 3 ≤ v) with rfl | rfl | rfl | hv
    · rfl
    · rfl
    · rfl
    · have h0 : (0 : Nat) ≠ v := by omega
      have h1 : (1 : Nat) ≠ v := by omega
      have h2 : (2 : Nat) ≠ v := by omega
      simp [cycleSteps, cycleRun, LccStep.slot, h0, h1, h2]
  exact ⟨hinter, (@lccInterleaved_eq_lcc cycleGraph cycleQsorted 1 cycleRun cycleSteps hinter none).2⟩

end Stinger

end GfeDriver
