import Mathlib.Algebra.Order.Field.Rat
import Mathlib.Data.NNRat.Lemmas
import SimsysMetrics.Contract
import SimsysMetrics.Lib.Fallback

/-!
# The scrapes of the Python and the Go process collector

`SimsysProcessCollector.collect` of `simsys_metrics/_process.py`, and `Collect` of `go/process.go`.
Both read the operating system at every scrape and keep nothing between scrapes. A read that fails
is reported as zero, so that its series stays present.

For the CPU counter this means that the emitted values do not decrease only as long as no read fails
after one above zero (`cpu_values_nondecreasing_iff`). Seconds and bytes are exact numbers: the
rounding of the doubles is left out.
-/

namespace SimsysMetrics

/-- A sample of a process collector: its family, the `service` label, the other label where the
family has one, and the value. -/
structure ProcessSample where
  family : Family
  service : String
  label : Option String
  value : ℚ≥0
deriving DecidableEq

/-- The values of the CPU counter among some samples. -/
def cpuValues (samples : List ProcessSample) : List ℚ≥0 :=
  (samples.filter (·.family = .processCpuSecondsTotal)).map (·.value)

namespace Python

/-- What a scrape reads: none where the read raises an error that `collect` handles. -/
structure Reads where
  /-- `cpu_times()`: the user and the system seconds. -/
  cpuTimes : Option (ℚ≥0 × ℚ≥0)
  /-- `memory_info()`: `rss` and `vms`. -/
  memoryInfo : Option (ℕ × ℕ)
  numFds : Option ℕ
  activeCount : ℕ
  /-- `collections` of each generation of `gc.get_stats()`; none where it is missing. -/
  gcStats : List (Option ℕ)

/-- The cumulative CPU seconds of a read. -/
def Reads.cpuSeconds (r : Reads) : Option ℚ≥0 := r.cpuTimes.map fun (user, system) => user + system

/-- `SimsysProcessCollector.collect`. The loop over the generations ends at the first one without
its count. -/
def collect (service : String) (r : Reads) : List ProcessSample :=
  let cpuTotal := r.cpuSeconds.getD 0
  let (rss, vms) := r.memoryInfo.getD (0, 0)
  let numFds := r.numFds.getD 0
  let generations := (r.gcStats.takeWhile Option.isSome).reduceOption
  [⟨.processCpuSecondsTotal, service, none, cpuTotal⟩,
    ⟨.processMemoryBytes, service, some "rss", rss⟩,
    ⟨.processMemoryBytes, service, some "vms", vms⟩,
    ⟨.processOpenFds, service, none, numFds⟩,
    ⟨.processThreads, service, none, r.activeCount⟩] ++
  generations.zipIdx.map fun (collections, i) =>
    ⟨.runtimeGcCollectionsByGenerationTotal, service, some (toString i), collections⟩

/-- A scrape emits one value of the CPU counter. -/
theorem cpuValues_collect (service : String) (r : Reads) :
    cpuValues (collect service r) = [r.cpuSeconds.getD 0] := by
  simp [cpuValues, collect, List.filter_map]

end Python

namespace Go

/-- What `Stat` of `procfs` has for `Collect`. -/
structure Stat where
  cpuTime : ℚ≥0
  residentMemory : ℕ
  virtualMemory : ℕ
  numThreads : ℕ

/-- What a scrape reads: none where the read returns an error. -/
structure Reads where
  stat : Option Stat
  fileDescriptorsLen : Option ℕ
  numGoroutine : ℕ
  numGC : ℕ
  pauseTotalNs : ℕ

/-- `Collect`; `ok` says whether the collector found its process when it was constructed. -/
def collect (ok : Bool) (service : String) (r : Reads) : List ProcessSample :=
  let stat := if ok then r.stat else none
  let fds := if ok then r.fileDescriptorsLen else none
  [⟨.processCpuSecondsTotal, service, none, (stat.map (·.cpuTime)).getD 0⟩,
    ⟨.processMemoryBytes, service, some "rss", (stat.map (·.residentMemory)).getD 0⟩,
    ⟨.processMemoryBytes, service, some "vms", (stat.map (·.virtualMemory)).getD 0⟩,
    ⟨.processOpenFds, service, none, fds.getD 0⟩,
    ⟨.processThreads, service, none, (stat.map (·.numThreads)).getD 0⟩,
    ⟨.runtimeGoroutines, service, none, r.numGoroutine⟩,
    ⟨.runtimeGcCollectionsTotal, service, none, r.numGC⟩,
    ⟨.runtimeGcPauseTotalSeconds, service, none, r.pauseTotalNs / 1000000000⟩]

/-- The cumulative CPU seconds that a collector reads. -/
def Reads.cpuSeconds (ok : Bool) (r : Reads) : Option ℚ≥0 :=
  (if ok then r.stat else none).map (·.cpuTime)

/-- A scrape emits one value of the CPU counter. -/
theorem cpuValues_collect (ok : Bool) (service : String) (r : Reads) :
    cpuValues (collect ok service r) = [(r.cpuSeconds ok).getD 0] := by
  simp [cpuValues, collect, Reads.cpuSeconds]

end Go

/-- The scrapes of one collector. -/
inductive Scrapes where
  | python (service : String) (reads : List Python.Reads)
  | go (ok : Bool) (service : String) (reads : List Go.Reads)

namespace Scrapes

/-- The CPU readings of the scrapes; none where the read fails. -/
def readings : Scrapes → List (Option ℚ≥0)
  | .python _ reads => reads.map (·.cpuSeconds)
  | .go ok _ reads => reads.map (·.cpuSeconds ok)

/-- The values of the CPU counter that the scrapes emit. -/
def cpuEmitted : Scrapes → List ℚ≥0
  | .python service reads => reads.flatMap fun r => cpuValues (Python.collect service r)
  | .go ok service reads => reads.flatMap fun r => cpuValues (Go.collect ok service r)

/-- Each scrape emits its reading, or zero. -/
theorem cpuEmitted_eq (s : Scrapes) : s.cpuEmitted = s.readings.map (·.getD ⊥) := by
  cases s with
  | python service reads =>
    simp only [cpuEmitted, readings, Python.cpuValues_collect, List.map_map]
    exact List.map_eq_flatMap.symm
  | go ok service reads =>
    simp only [cpuEmitted, readings, Go.cpuValues_collect, List.map_map]
    exact List.map_eq_flatMap.symm

end Scrapes

/-- Over any scrapes whose successful CPU readings do not decrease, the emitted values of the
counter do not decrease exactly when no read fails after one above zero. -/
theorem cpu_values_nondecreasing_iff (s : Scrapes) (h : s.readings.reduceOption.Pairwise (· ≤ ·)) :
    s.cpuEmitted.Pairwise (· ≤ ·) ↔ s.readings.Pairwise Lib.NoLapse := by
  rw [Scrapes.cpuEmitted_eq]
  exact Lib.pairwise_getD_iff h

/-- A Go collector whose first read fails, and no later one. -/
theorem late_readings_nondecreasing :
    let reads : List Go.Reads :=
      [⟨none, none, 1, 0, 0⟩, ⟨some ⟨2, 0, 0, 1⟩, none, 1, 0, 0⟩,
        ⟨some ⟨3, 0, 0, 1⟩, none, 1, 0, 0⟩]
    (Scrapes.go true "portal" reads).cpuEmitted.Pairwise (· ≤ ·) :=
  (cpu_values_nondecreasing_iff _ (by decide)).mpr
    (by simp [Scrapes.readings, Go.Reads.cpuSeconds, Lib.NoLapse])

/-- A read of the Python collector that fails after a successful one: the counter falls to zero. -/
theorem failed_read_drops_counter :
    let reads : List Python.Reads := [⟨some (2, 1), none, none, 1, []⟩, ⟨none, none, none, 1, []⟩]
    (Scrapes.python "portal" reads).readings.reduceOption.Pairwise (· ≤ ·) ∧
      (Scrapes.python "portal" reads).cpuEmitted = [3, 0] ∧
      ¬ (Scrapes.python "portal" reads).cpuEmitted.Pairwise (· ≤ ·) := by
  refine ⟨by decide, by decide +kernel, by decide +kernel⟩

end SimsysMetrics
