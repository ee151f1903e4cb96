import SimsysMetrics.Lib.Float64
import SimsysMetrics.Progress

/-!
# Progress trackers of the Go lane

`TrackProgress` of `go/progress.go`, whose calls run one after another here. The code counts with
`int64`, which wraps; `GoInt` has what it does with a count, so the same definitions run on exact
integers as well. The arithmetic of floats is exact, and a `Conversion` takes an integer to a float:
it may round (`Conversion.rounded`), and keeps the sign.
-/

namespace SimsysMetrics.Go.Progress

open SimsysMetrics.Progress (Key ofNanoseconds)
open Lib (Store)

/-- The integers that a tracker counts with. -/
class GoInt (N : Type) extends Add N, Sub N where
  ofInt : ℤ → N
  toInt : N → ℤ

export GoInt (ofInt toInt)

/-- The integers of the code. -/
scoped instance : GoInt Int64 where
  ofInt := Int64.ofInt
  toInt := Int64.toInt

/-- Exact integers. -/
scoped instance : GoInt ℤ where
  ofInt n := n
  toInt n := n

/-- `float64` of an integer. -/
structure Conversion (V : Type) [Field V] [LinearOrder V] where
  float64 : ℤ → V
  float64_pos : ∀ {n}, 0 < float64 n ↔ 0 < n
  float64_neg : ∀ {n}, float64 n < 0 ↔ n < 0

section Tracker

variable {N V : Type} [GoInt N] [Field V] [LinearOrder V]

/-- The exact conversion. -/
def Conversion.exact [IsStrictOrderedRing V] : Conversion V where
  float64 n := n
  float64_pos := Int.cast_pos
  float64_neg := Int.cast_lt_zero

/-- The magnitude of an integer other than zero is not rounded to zero. -/
theorem round53_natAbs_pos {n : ℤ} (hn : n ≠ 0) : 0 < (Lib.F64.round53 n.natAbs : ℤ) :=
  Int.natCast_pos.mpr (Lib.F64.round53_pos (Int.natAbs_pos.mpr hn))

/-- The conversion to the nearest float. -/
def Conversion.rounded [IsStrictOrderedRing V] : Conversion V where
  float64 n := (n.sign * Lib.F64.round53 n.natAbs : ℤ)
  float64_pos := by
    intro n
    rw [Int.cast_pos]
    rcases eq_or_ne n 0 with rfl | hn
    · decide
    · rw [mul_pos_iff_of_pos_right (round53_natAbs_pos hn), Int.sign_pos_iff]
  float64_neg := by
    intro n
    rw [Int.cast_lt_zero]
    rcases eq_or_ne n 0 with rfl | hn
    · decide
    · rw [← neg_pos, ← neg_mul, mul_pos_iff_of_pos_right (round53_natAbs_pos hn), neg_pos,
        Int.sign_neg_iff]

/-- `progressTracker`. -/
structure ProgressTracker (N V : Type) where
  service : String
  operation : String
  processed : N
  total : N
  rateEwma : V
  rateEwmaValid : Bool
  lastProcessed : N
  lastTickMonoNs : N
  window : N

/-- The key of one of the series of a tracker. -/
def ProgressTracker.key (t : ProgressTracker N V) (family : Family) : Key :=
  ⟨family, t.service, t.operation⟩

/-- What a tick copies under the lock. -/
structure Copies (N V : Type) where
  processed : N
  total : N
  rate : V

/-- `if remaining < 0 { remaining = 0 }`. -/
def clamp (remaining : N) : N := if toInt remaining < 0 then ofInt 0 else remaining

/-- What is left of a total. -/
def Copies.remaining (x : Copies N V) : N := clamp (x.total - x.processed)

section Tick

variable (c : Conversion V)

/-- `Duration.Seconds`. -/
def seconds (d : N) : V :=
  c.float64 (toInt d / 10^9) + ofNanoseconds (c.float64 (toInt d % 10^9))

/-- The elapsed seconds of a tick. -/
def elapsedSec (nowNs : N) (t : ProgressTracker N V) : V :=
  ofNanoseconds (c.float64 (toInt (nowNs - t.lastTickMonoNs)))

/-- The rate of a tick. -/
def instantRate (nowNs : N) (t : ProgressTracker N V) : V :=
  c.float64 (toInt (t.processed - t.lastProcessed)) / elapsedSec c nowNs t

/-- The smoothed rate after a tick. -/
def smooth (nowNs : N) (t : ProgressTracker N V) : ProgressTracker N V :=
  if 0 < elapsedSec c nowNs t then
    let alpha := elapsedSec c nowNs t / seconds c t.window
    let alpha := if 1 < alpha then 1 else alpha
    if !t.rateEwmaValid then { t with rateEwma := instantRate c nowNs t, rateEwmaValid := true }
    else { t with rateEwma := alpha * instantRate c nowNs t + (1 - alpha) * t.rateEwma }
  else t

/-- The section of `tick` under the lock: what it copies, and the tracker after it. -/
def locked (nowNs : N) (t : ProgressTracker N V) : Copies N V × ProgressTracker N V :=
  let t' := smooth c nowNs t
  (⟨t.processed, t.total, t'.rateEwma⟩,
    { t' with lastProcessed := t.processed, lastTickMonoNs := nowNs })

/-- The first gauge of a tick. -/
def setRemaining (t : ProgressTracker N V) (x : Copies N V) (samples : Store Key V) :
    Store Key V :=
  samples.set (t.key .progressRemaining) (c.float64 (toInt x.remaining))

/-- The second gauge of a tick. -/
def setRate (t : ProgressTracker N V) (x : Copies N V) (samples : Store Key V) : Store Key V :=
  samples.set (t.key .progressRatePerSecond) x.rate

/-- The estimated completion, at a reading of `time.Now().Unix()`. -/
def completionTs (unix : N) (x : Copies N V) : V :=
  if 0 < x.rate ∧ 0 < toInt x.remaining then
    c.float64 (toInt unix) + c.float64 (toInt x.remaining) / x.rate
  else 0

/-- The third gauge of a tick. -/
def setCompletion (t : ProgressTracker N V) (unix : N) (x : Copies N V) (samples : Store Key V) :
    Store Key V :=
  samples.set (t.key .progressEstimatedCompletionTimestamp) (completionTs c unix x)

/-! ## The calls, one after another -/

/-- A tracker, the samples of its registry, and whether `once` has run. -/
structure State (N V : Type) where
  tracker : ProgressTracker N V
  samples : Store Key V
  stopped : Bool

/-- The sample of one of the series of the tracker. -/
def State.sample (s : State N V) (family : Family) : Option V := s.samples (s.tracker.key family)

/-- `tick`, at readings of `time.Now()` in nanoseconds and in seconds. -/
def tick (nowNs unix : N) (s : State N V) : State N V :=
  let (x, tracker) := locked c nowNs s.tracker
  { s with
    tracker
    samples := setCompletion c s.tracker unix x (setRate s.tracker x
      (setRemaining c s.tracker x s.samples)) }

/-- `Inc`: an error is the text of a panic. -/
def inc (n : N) (s : State N V) : Except String Unit × State N V :=
  if toInt n < 0 then
    (.error ("simsys-metrics: ProgressTracker.Inc n must be >= 0, got " ++ toString (toInt n)), s)
  else if toInt n = 0 then (.ok (), s)
  else
    (.ok (), { s with
      tracker := { s.tracker with processed := s.tracker.processed + n }
      samples := s.samples.add (s.tracker.key .progressProcessedTotal) (c.float64 (toInt n)) })

/-- `SetTotal`: an error is the text of a panic. -/
def setTotal (total : N) (s : State N V) : Except String Unit × State N V :=
  if toInt total < 0 then
    (.error ("simsys-metrics: ProgressTracker.SetTotal must be >= 0, got " ++
      toString (toInt total)), s)
  else (.ok (), { s with tracker := { s.tracker with total } })

/-- `Stop`: the first call ticks once more. -/
def stop (nowNs unix : N) (s : State N V) : State N V :=
  if s.stopped then s else tick c nowNs unix { s with stopped := true }

/-- What a caller or the goroutine does with a tracker. -/
inductive Call (N : Type) where
  | inc (n : N)
  | setTotal (total : N)
  | tick (nowNs unix : N)
  | stop (nowNs unix : N)

/-- The state after a call. -/
def step (s : State N V) : Call N → State N V
  | .inc n => (inc c n s).2
  | .setTotal total => (setTotal total s).2
  | .tick nowNs unix => tick c nowNs unix s
  | .stop nowNs unix => stop c nowNs unix s

/-- `ProgressOpts`. -/
structure ProgressOpts (N : Type) where
  operation : String
  total : N
  window : N
  interval : N

/-- `5 * time.Second` for a duration that is zero. -/
def orDefault (d : N) : N := if toInt d = 0 then ofInt 5000000000 else d

/-- `TrackProgress` of a handle of the service, at a reading of the clock. The interval paces the
goroutine, which is left to the calls. -/
def trackProgress (service : String) (nowNs : N) (opts : ProgressOpts N) (samples : Store Key V) :
    Except String (State N V) :=
  if opts.operation = "" then
    .error "simsys-metrics: TrackProgress opts.Operation required"
  else if toInt opts.total < 0 then
    .error ("simsys-metrics: TrackProgress opts.Total must be >= 0, got " ++
      toString (toInt opts.total))
  else if toInt (orDefault opts.window) ≤ 0 ∨ toInt (orDefault opts.interval) ≤ 0 then
    .error "simsys-metrics: TrackProgress opts.Window and Interval must be > 0"
  else
    let t : ProgressTracker N V :=
      { service, operation := opts.operation, processed := ofInt 0, total := opts.total,
        rateEwma := 0, rateEwmaValid := false, lastProcessed := ofInt 0, lastTickMonoNs := nowNs,
        window := orDefault opts.window }
    .ok ⟨t,
      ((samples.set (t.key .progressRemaining) (c.float64 (toInt opts.total))).set
        (t.key .progressRatePerSecond) 0).set (t.key .progressEstimatedCompletionTimestamp) 0,
      false⟩

/-- A new tracker: what it counts is zero, and its total is the one of the options. -/
structure New (opts : ProgressOpts N) (s : State N V) : Prop where
  processed : s.tracker.processed = ofInt 0
  lastProcessed : s.tracker.lastProcessed = ofInt 0
  total : s.tracker.total = opts.total
  total_nonneg : 0 ≤ toInt opts.total
  stopped : s.stopped = false

variable {c} in
/-- An accepted tracker is new. -/
theorem new_of_trackProgress {service : String} {nowNs : N} {opts : ProgressOpts N}
    {samples : Store Key V} {s : State N V}
    (h : trackProgress c service nowNs opts samples = .ok s) : New opts s := by
  unfold trackProgress at h
  split_ifs at h with hoperation htotal hpaces
  obtain rfl := Except.ok.inj h
  exact ⟨rfl, rfl, rfl, not_lt.mp htotal, rfl⟩

/-! ## What a step does -/

/-- What a call reads from the clocks, where it ticks. -/
def reading (s : State N V) : Call N → Option (N × N)
  | .tick nowNs unix => some (nowNs, unix)
  | .stop nowNs unix => if s.stopped then none else some (nowNs, unix)
  | .inc _ => none
  | .setTotal _ => none

/-- The processed count after a call. -/
def Call.processed (p : N) : Call N → N
  | .inc n => if toInt n ≤ 0 then p else p + n
  | .setTotal _ | .tick _ _ | .stop _ _ => p

/-- The total after a call. -/
def Call.total (total : N) : Call N → N
  | .setTotal n => if toInt n < 0 then total else n
  | .inc _ | .tick _ _ | .stop _ _ => total

variable {c} {s : State N V}

/-- A call that ticks is a tick, but for the flag of `Stop`. -/
theorem step_of_reading {call : Call N} {nowNs unix : N}
    (h : reading s call = some (nowNs, unix)) :
    ∃ stopped, step c s call = tick c nowNs unix { s with stopped } := by
  cases call with
  | inc | setTotal => cases h
  | tick nowNs' unix' =>
    obtain ⟨rfl, rfl⟩ := Prod.mk.inj (Option.some.inj h)
    exact ⟨s.stopped, rfl⟩
  | stop nowNs' unix' =>
    by_cases hstopped : s.stopped
    · rw [reading, if_pos hstopped] at h
      cases h
    · rw [reading, if_neg hstopped] at h
      obtain ⟨rfl, rfl⟩ := Prod.mk.inj (Option.some.inj h)
      exact ⟨true, if_neg hstopped⟩

/-- A call that does not tick changes the count and the total only. -/
theorem step_of_not_reading {call : Call N} (h : reading s call = none) :
    (step c s call).tracker = { s.tracker with
      processed := call.processed s.tracker.processed
      total := call.total s.tracker.total } := by
  cases call with
  | tick => cases h
  | stop nowNs unix =>
    by_cases hstopped : s.stopped
    · rw [step, stop, if_pos hstopped]
      rfl
    · rw [reading, if_neg hstopped] at h
      cases h
  | setTotal total =>
    rw [step, setTotal, Call.processed, Call.total]
    split_ifs <;> rfl
  | inc n =>
    rw [step, inc, Call.processed, Call.total]
    rcases lt_trichotomy (toInt n) 0 with hneg | hzero | hpos
    · rw [if_pos hneg, if_pos hneg.le]
    · rw [if_neg hzero.not_lt, if_pos hzero, if_pos hzero.le]
    · rw [if_neg hpos.not_gt, if_neg hpos.ne', if_neg hpos.not_ge]

omit [Field V] [LinearOrder V] in
/-- A call that ticks leaves the count and the total. -/
theorem counts_of_reading {call : Call N} {r : N × N} (h : reading s call = some r) :
    (∀ p : N, call.processed p = p) ∧ ∀ total : N, call.total total = total := by
  cases call with
  | inc | setTotal => cases h
  | tick | stop => exact ⟨fun _ => rfl, fun _ => rfl⟩

/-- Smoothing leaves the counts. -/
theorem smooth_counts (nowNs : N) (t : ProgressTracker N V) :
    (smooth c nowNs t).processed = t.processed ∧ (smooth c nowNs t).total = t.total := by
  unfold smooth
  split_ifs <;> exact ⟨rfl, rfl⟩

/-- A tick samples the count, and leaves it and the total. -/
theorem tracker_tick (nowNs unix : N) (s : State N V) :
    (tick c nowNs unix s).tracker.processed = s.tracker.processed ∧
      (tick c nowNs unix s).tracker.total = s.tracker.total ∧
      (tick c nowNs unix s).tracker.lastProcessed = s.tracker.processed :=
  ⟨(smooth_counts nowNs s.tracker).1, (smooth_counts nowNs s.tracker).2, rfl⟩

/-- The section under the lock keeps the labels of its tracker. -/
theorem key_locked (nowNs : N) (t : ProgressTracker N V) (family : Family) :
    (locked c nowNs t).2.key family = t.key family := by
  have hkey : (smooth c nowNs t).key family = t.key family := by
    unfold smooth
    split_ifs <;> rfl
  exact hkey

/-- A tick keeps the labels of its tracker. -/
theorem key_tick (nowNs unix : N) (s : State N V) (family : Family) :
    (tick c nowNs unix s).tracker.key family = s.tracker.key family := by
  exact key_locked nowNs s.tracker family

/-- The gauge of the remaining items after a tick. -/
theorem remaining_tick (nowNs unix : N) (s : State N V) :
    (tick c nowNs unix s).sample .progressRemaining =
      some (c.float64 (toInt (clamp (s.tracker.total - s.tracker.processed)))) := by
  rw [State.sample, key_tick]
  simp [tick, locked, setCompletion, setRate, setRemaining, ProgressTracker.key, Copies.remaining]

end Tick

end Tracker

/-! ## Exact integers -/

section Exact

variable {V : Type} [Field V] [LinearOrder V] [IsStrictOrderedRing V]

/-- With exact integers a tracker is a metered system: its ticks sample the processed count. -/
def metered : Lib.Metered (step (N := ℤ) (.exact : Conversion V)) V where
  count s := s.tracker.processed
  base s := s.tracker.lastProcessed
  elapsed s call := (reading s call).map fun r => elapsedSec .exact r.1 s.tracker
  count_of_sample := by
    intro s call d h
    obtain ⟨⟨nowNs, unix⟩, hreading, -⟩ := Option.map_eq_some_iff.mp h
    obtain ⟨stopped, hstep⟩ := step_of_reading (c := (.exact : Conversion V)) hreading
    rw [hstep, (tracker_tick nowNs unix _).1]
  base_of_sample := by
    intro s call d h
    obtain ⟨⟨nowNs, unix⟩, hreading, -⟩ := Option.map_eq_some_iff.mp h
    obtain ⟨stopped, hstep⟩ := step_of_reading (c := (.exact : Conversion V)) hreading
    rw [hstep, (tracker_tick nowNs unix _).2.2]
  le_count_of_other := by
    intro s call h
    rw [step_of_not_reading (c := (.exact : Conversion V)) (Option.map_eq_none_iff.mp h)]
    refine Int.cast_le.mpr ?_
    cases call with
    | setTotal | tick | stop => exact le_rfl
    | inc n =>
      dsimp only [Call.processed]
      split_ifs with hn
      · exact le_rfl
      · exact le_add_of_nonneg_right (not_le.mp hn).le
  base_of_other := by
    intro s call h
    rw [step_of_not_reading (c := (.exact : Conversion V)) (Option.map_eq_none_iff.mp h)]

end Exact

end SimsysMetrics.Go.Progress
