import Mathlib.Data.Fintype.Defs
import Mathlib.Data.Finset.Insert

/-!
# The metric catalogue

The families of `spec/metrics-contract.json` and the label sets that more than one lane writes. The
three lanes (Python, Node, Go) implement the same catalogue, so their models share these types.
-/

namespace SimsysMetrics

/-- The metric families of the contract. -/
inductive Family where
  | buildInfo
  | httpRequestsTotal
  | httpRequestDurationSeconds
  | queueDepth
  | jobsTotal
  | jobDurationSeconds
  | progressProcessedTotal
  | progressRemaining
  | progressRatePerSecond
  | progressEstimatedCompletionTimestamp
  | poolActive
  | poolIdle
  | poolWaiting
  | poolMax
  | processCpuSecondsTotal
  | processMemoryBytes
  | processOpenFds
  | scrapeDurationSeconds
  | scrapeErrorsTotal
  | processThreads
  | processUptimeSeconds
  | runtimeGcPauseTotalSeconds
  | runtimeGoroutines
  | runtimeGcCollectionsTotal
  | runtimeGcCollectionsByGenerationTotal
  | collectorErrorsTotal
deriving DecidableEq, Repr

/-- The name under which a family is registered. -/
def Family.name : Family → String
  | .buildInfo => "simsys_build_info"
  | .httpRequestsTotal => "simsys_http_requests_total"
  | .httpRequestDurationSeconds => "simsys_http_request_duration_seconds"
  | .queueDepth => "simsys_queue_depth"
  | .jobsTotal => "simsys_jobs_total"
  | .jobDurationSeconds => "simsys_job_duration_seconds"
  | .progressProcessedTotal => "simsys_progress_processed_total"
  | .progressRemaining => "simsys_progress_remaining"
  | .progressRatePerSecond => "simsys_progress_rate_per_second"
  | .progressEstimatedCompletionTimestamp => "simsys_progress_estimated_completion_timestamp"
  | .poolActive => "simsys_pool_active"
  | .poolIdle => "simsys_pool_idle"
  | .poolWaiting => "simsys_pool_waiting"
  | .poolMax => "simsys_pool_max"
  | .processCpuSecondsTotal => "simsys_process_cpu_seconds_total"
  | .processMemoryBytes => "simsys_process_memory_bytes"
  | .processOpenFds => "simsys_process_open_fds"
  | .scrapeDurationSeconds => "simsys_scrape_duration_seconds"
  | .scrapeErrorsTotal => "simsys_scrape_errors_total"
  | .processThreads => "simsys_process_threads"
  | .processUptimeSeconds => "simsys_process_uptime_seconds"
  | .runtimeGcPauseTotalSeconds => "simsys_runtime_gc_pause_total_seconds"
  | .runtimeGoroutines => "simsys_runtime_goroutines"
  | .runtimeGcCollectionsTotal => "simsys_runtime_gc_collections_total"
  | .runtimeGcCollectionsByGenerationTotal => "simsys_runtime_gc_collections_by_generation_total"
  | .collectorErrorsTotal => "simsys_collector_errors_total"

/-- One sample written: the family and the value of its `service` label. -/
structure Written where
  /-- The family of the sample. -/
  family : Family
  /-- The value of the sample's `service` label. -/
  service : String
deriving DecidableEq, Repr

/-- The labels of `simsys_build_info`. -/
structure BuildInfoLabels where
  service : String
  version : String
  commit : String
  startedAt : String
deriving DecidableEq, Repr

/-- The status classes, the values of the `status` label. -/
inductive StatusClass where
  | c1xx
  | c2xx
  | c3xx
  | c4xx
  | c5xx
deriving DecidableEq, Repr

instance : Fintype StatusClass :=
  ⟨{.c1xx, .c2xx, .c3xx, .c4xx, .c5xx}, fun c => by cases c <;> decide⟩

/-- The methods that have their own series, and the one that all others share. -/
inductive Method where
  | GET
  | HEAD
  | POST
  | PUT
  | DELETE
  | CONNECT
  | OPTIONS
  | TRACE
  | PATCH
  | OTHER
deriving DecidableEq, Repr

instance : Fintype Method :=
  ⟨{.GET, .HEAD, .POST, .PUT, .DELETE, .CONNECT, .OPTIONS, .TRACE, .PATCH, .OTHER},
    fun m => by cases m <;> decide⟩

/-- The labels of `simsys_http_requests_total`, over the type of the lane's route labels. -/
structure HttpLabels (ρ : Type) where
  service : String
  method : Method
  route : ρ
  status : StatusClass
deriving DecidableEq, Repr

/-- The values of the `outcome` label. -/
inductive JobOutcome where
  | success
  | error
deriving DecidableEq, Repr

/-- The labels of `simsys_jobs_total` and of `simsys_job_duration_seconds`. -/
structure JobLabels where
  service : String
  job : String
  outcome : JobOutcome
deriving DecidableEq, Repr

end SimsysMetrics
