import SimsysMetrics.Contract
import SimsysMetrics.Lib.Metering
import SimsysMetrics.Lib.Samples

/-!
# Progress trackers of the Python and Node lanes

`ProgressTracker` of `simsys_metrics/progress.py` and `trackProgress` of `node/src/progress.ts` do
the same with their own numbers and clocks. So they are one definition here, and a `Lane` has what
is their own: what `inc` and `set_total` accept, and the time between two readings of the clock. The
arithmetic is exact, in an ordered field `𝕜`, and a clock may read anything at any time.

A tracker is a metered system: a tick samples the processed count (`Lane.smoothed`). `upholds` says
what holds after any calls.
-/

namespace SimsysMetrics.Progress

open Lib (Store Metered Smoothed Between run)

/-- The key of a series of a tracker: its family and its labels. -/
structure Key where
  family : Family
  service : String
  operation : String
deriving DecidableEq, Repr

/-- Where two steps return, so does the first one. -/
theorem ok_of_bind {ε α β : Type} {x : Except ε α} {f : α → Except ε β} {b : β}
    (h : x >>= f = .ok b) : ∃ a, x = .ok a ∧ f a = .ok b := by
  cases x with
  | error e => cases h
  | ok a => exact ⟨a, rfl, h⟩

/-- Where what is computed of a result is there, so is the result. -/
theorem ok_of_map {ε α β : Type} {x : Except ε α} {f : α → β} {b : β}
    (h : x.toOption.map f = some b) : ∃ a, x = .ok a ∧ f a = b := by
  cases x with
  | error e => cases h
  | ok a => exact ⟨a, rfl, Option.some.inj h⟩

section Tracker

variable {α τ 𝕜 ρ : Type} [Field 𝕜] [LinearOrder 𝕜]

/-- Nanoseconds in seconds. -/
def ofNanoseconds (n : 𝕜) : 𝕜 := n / 10^9

/-- A tracker: the variables of the closure in Node, and the attributes of the object in Python. -/
structure Tracker (𝕜 τ : Type) [Field 𝕜] [LinearOrder 𝕜] where
  service : String
  operation : String
  /-- The window of the smoothing, in seconds. -/
  window : { w : 𝕜 // 0 < w }
  processed : 𝕜
  total : 𝕜
  rateEwma : Option 𝕜
  lastProcessed : 𝕜
  lastTick : τ
  stopped : Bool

/-- The key of one of the series of a tracker. -/
def Tracker.key (t : Tracker 𝕜 τ) (family : Family) : Key := ⟨family, t.service, t.operation⟩

/-- A tracker, and the samples of the registry. -/
structure State (𝕜 τ : Type) [Field 𝕜] [LinearOrder 𝕜] where
  tracker : Tracker 𝕜 τ
  samples : Store Key 𝕜

/-- The sample of one of the series of the tracker. -/
def State.sample (s : State 𝕜 τ) (family : Family) : Option 𝕜 := s.samples (s.tracker.key family)

/-- The gauges of a tracker set to some values. -/
def setGauges (t : Tracker 𝕜 τ) (remaining rate completionTs : 𝕜) (samples : Store Key 𝕜) :
    Store Key 𝕜 :=
  ((samples.set (t.key .progressRemaining) remaining).set
    (t.key .progressRatePerSecond) rate).set
      (t.key .progressEstimatedCompletionTimestamp) completionTs

/-- A new tracker. Its gauges are seeded, so that the series exist before the first `inc`. -/
def start (service operation : String) (total : 𝕜) (window : { w : 𝕜 // 0 < w }) (now : τ)
    (samples : Store Key 𝕜) : State 𝕜 τ :=
  let t : Tracker 𝕜 τ := ⟨service, operation, window, 0, total, none, 0, now, false⟩
  ⟨t, setGauges t total 0 0 samples⟩

/-- What a tracker is started with: the service that is set, its options in seconds, the reading of
its clock, and the samples of the registry. -/
structure Setup (𝕜 τ : Type) [Field 𝕜] [LinearOrder 𝕜] where
  service : String
  operation : String
  total : 𝕜
  window : { w : 𝕜 // 0 < w }
  now : τ
  samples : Store Key 𝕜

/-- The key of one of the series of a tracker that is started with this. -/
def Setup.key (o : Setup 𝕜 τ) (family : Family) : Key := ⟨family, o.service, o.operation⟩

/-- What is a lane's own. -/
structure Lane (α τ 𝕜 ρ : Type) [Field 𝕜] [LinearOrder 𝕜] where
  /-- The seconds between two readings of the clock of the ticks. -/
  seconds : τ → τ → 𝕜
  /-- The checks of `inc`. -/
  checkInc : α → Except ρ 𝕜
  /-- The checks of `set_total` or `setTotal`. -/
  checkTotal : α → Except ρ 𝕜
  nonneg_of_checkInc : ∀ {a n}, checkInc a = .ok n → 0 ≤ n

/-- What a caller or the timer does with a tracker. A tick reads its own clock, and the time of day
for the completion. -/
inductive Call (α τ 𝕜 : Type) where
  | inc (n : α)
  | setTotal (total : α)
  | tick (now : τ) (wall : 𝕜)
  | stop (now : τ) (wall : 𝕜)

namespace Lane

variable (L : Lane α τ 𝕜 ρ)

/-- `inc`. -/
def inc (n : α) (s : State 𝕜 τ) : Except ρ Unit × State 𝕜 τ :=
  match L.checkInc n with
  | .error e => (.error e, s)
  | .ok n =>
    if n = 0 then (.ok (), s)
    else
      (.ok (), ⟨{ s.tracker with processed := s.tracker.processed + n },
        s.samples.add (s.tracker.key .progressProcessedTotal) n⟩)

/-- `set_total` and `setTotal`. -/
def setTotal (total : α) (s : State 𝕜 τ) : Except ρ Unit × State 𝕜 τ :=
  match L.checkTotal total with
  | .error e => (.error e, s)
  | .ok total => (.ok (), { s with tracker := { s.tracker with total } })

/-- The weight of a rate: the elapsed time over the window, and at most one. -/
def alpha (t : Tracker 𝕜 τ) (elapsed : 𝕜) : 𝕜 := min 1 (elapsed / t.window)

/-- `_tick` and `tick`. -/
def tick (now : τ) (wall : 𝕜) (s : State 𝕜 τ) : State 𝕜 τ :=
  let t := s.tracker
  let elapsed := L.seconds t.lastTick now
  let rateEwma :=
    if 0 < elapsed then
      let delta := t.processed - t.lastProcessed
      let instantRate := delta / elapsed
      match t.rateEwma with
      | none => some instantRate
      | some ewma => some (alpha t elapsed * instantRate + (1 - alpha t elapsed) * ewma)
    else t.rateEwma
  let remaining := max 0 (t.total - t.processed)
  let rate := rateEwma.getD 0
  let completionTs := if 0 < rate ∧ 0 < remaining then wall + remaining / rate else 0
  -- The baseline moves on, also where no time has passed.
  ⟨{ t with rateEwma, lastProcessed := t.processed, lastTick := now },
    setGauges t remaining rate completionTs s.samples⟩

/-- `stop`: the first call ticks once more. -/
def stop (now : τ) (wall : 𝕜) (s : State 𝕜 τ) : State 𝕜 τ :=
  if s.tracker.stopped then s
  else L.tick now wall { s with tracker := { s.tracker with stopped := true } }

/-- The state after a call. -/
def step (s : State 𝕜 τ) : Call α τ 𝕜 → State 𝕜 τ
  | .inc n => (L.inc n s).2
  | .setTotal total => (L.setTotal total s).2
  | .tick now wall => L.tick now wall s
  | .stop now wall => L.stop now wall s

/-- What a call reads from the clocks, where it ticks. -/
def reading (s : State 𝕜 τ) : Call α τ 𝕜 → Option (τ × 𝕜)
  | .tick now wall => some (now, wall)
  | .stop now wall => if s.tracker.stopped then none else some (now, wall)
  | .inc _ => none
  | .setTotal _ => none

/-- The increment of a call, where `inc` accepts it. -/
def increment : Call α τ 𝕜 → 𝕜
  | .inc n => (L.checkInc n).toOption.getD 0
  | .setTotal _ | .tick _ _ | .stop _ _ => 0

/-- The total after a call. -/
def nextTotal (total : 𝕜) : Call α τ 𝕜 → 𝕜
  | .setTotal n => (L.checkTotal n).toOption.getD total
  | .inc _ | .tick _ _ | .stop _ _ => total

/-! ## What a step does -/

section Steps

variable {L} {s : State 𝕜 τ}

/-- A call that ticks is a tick, but for the flag of `stop`. -/
theorem step_of_reading {c : Call α τ 𝕜} {now : τ} {wall : 𝕜}
    (h : reading s c = some (now, wall)) : ∃ stopped,
      L.step s c = L.tick now wall { s with tracker := { s.tracker with stopped } } := by
  cases c with
  | inc | setTotal => cases h
  | tick now' wall' =>
    obtain ⟨rfl, rfl⟩ := Prod.mk.inj (Option.some.inj h)
    exact ⟨s.tracker.stopped, rfl⟩
  | stop now' wall' =>
    by_cases hstopped : s.tracker.stopped
    · rw [reading, if_pos hstopped] at h
      cases h
    · rw [reading, if_neg hstopped] at h
      obtain ⟨rfl, rfl⟩ := Prod.mk.inj (Option.some.inj h)
      exact ⟨true, if_neg hstopped⟩

/-- A sample is a tick. -/
theorem step_of_sample {c : Call α τ 𝕜} {d : 𝕜} {elapsed : τ × 𝕜 → 𝕜}
    (h : (reading s c).map elapsed = some d) : ∃ now wall stopped, elapsed (now, wall) = d ∧
      L.step s c = L.tick now wall { s with tracker := { s.tracker with stopped } } := by
  obtain ⟨⟨now, wall⟩, hreading, helapsed⟩ := Option.map_eq_some_iff.mp h
  obtain ⟨stopped, hstep⟩ := step_of_reading (L := L) hreading
  exact ⟨now, wall, stopped, helapsed, hstep⟩

/-- A call that does not tick leaves the gauges and the smoothing, and adds its increment. -/
theorem step_of_not_reading {c : Call α τ 𝕜} (h : reading s c = none) :
    (L.step s c).tracker = { s.tracker with
      processed := s.tracker.processed + L.increment c
      total := L.nextTotal s.tracker.total c } ∧
      ∀ family, family ≠ .progressProcessedTotal →
        (L.step s c).sample family = s.sample family := by
  cases c with
  | tick => cases h
  | stop now wall =>
    by_cases hstopped : s.tracker.stopped
    · rw [step, stop, if_pos hstopped, increment, nextTotal, add_zero]
      exact ⟨rfl, fun _ _ => rfl⟩
    · rw [reading, if_neg hstopped] at h
      cases h
  | setTotal total =>
    rw [step, setTotal, increment, nextTotal, add_zero]
    cases L.checkTotal total <;> exact ⟨rfl, fun _ _ => rfl⟩
  | inc n =>
    rw [step, inc, increment, nextTotal]
    rcases L.checkInc n with e | n
    · dsimp only [Except.toOption, Option.getD_none]
      rw [add_zero]
      exact ⟨rfl, fun _ _ => rfl⟩
    · dsimp only [Except.toOption, Option.getD_some]
      -- An accepted zero returns before the counter.
      split_ifs with hzero
      · rw [hzero, add_zero]
        exact ⟨rfl, fun _ _ => rfl⟩
      · refine ⟨rfl, fun family hfamily => ?_⟩
        exact Lib.Store.set_of_ne _ _ fun hkey => hfamily (congrArg Key.family hkey)

/-- A tick keeps the labels of its tracker. -/
theorem key_tick (now : τ) (wall : 𝕜) (family : Family) :
    (L.tick now wall s).tracker.key family = s.tracker.key family := rfl

/-- The gauge of the remaining items after a tick. -/
theorem remaining_tick (now : τ) (wall : 𝕜) :
    (L.tick now wall s).sample .progressRemaining =
      some (max 0 (s.tracker.total - s.tracker.processed)) := by
  simp [State.sample, tick, setGauges, Tracker.key]

/-- The gauge of the rate after a tick: the mean of the rates, and zero when there is none. -/
theorem rate_tick (now : τ) (wall : 𝕜) :
    (L.tick now wall s).sample .progressRatePerSecond =
      some ((L.tick now wall s).tracker.rateEwma.getD 0) := by
  simp [State.sample, tick, setGauges, Tracker.key]

/-- The gauge of the completion after a tick. -/
theorem completion_tick (now : τ) (wall : 𝕜) :
    let rate := (L.tick now wall s).tracker.rateEwma.getD 0
    let remaining := max 0 (s.tracker.total - s.tracker.processed)
    (L.tick now wall s).sample .progressEstimatedCompletionTimestamp =
      some (if 0 < rate ∧ 0 < remaining then wall + remaining / rate else 0) :=
  Lib.Store.set_self ..

/-- A tick leaves the counter. -/
theorem processed_tick (now : τ) (wall : 𝕜) :
    (L.tick now wall s).sample .progressProcessedTotal = s.sample .progressProcessedTotal := by
  simp [State.sample, tick, setGauges, Tracker.key]

/-- Where no time has passed, a tick leaves the mean of the rates. -/
theorem rateEwma_tick_of_not {now : τ} {wall : 𝕜}
    (h : ¬ 0 < L.seconds s.tracker.lastTick now) :
    (L.tick now wall s).tracker.rateEwma = s.tracker.rateEwma :=
  if_neg h

/-- Where time has passed, a tick blends its rate into the mean. -/
theorem rateEwma_tick_of_pos {now : τ} {wall : 𝕜} (h : 0 < L.seconds s.tracker.lastTick now) :
    (L.tick now wall s).tracker.rateEwma =
      some (Lib.blend (alpha s.tracker (L.seconds s.tracker.lastTick now)) s.tracker.rateEwma
        ((s.tracker.processed - s.tracker.lastProcessed) /
          L.seconds s.tracker.lastTick now)) := by
  rw [tick, if_pos h]
  cases s.tracker.rateEwma <;> rfl

/-- A call that ticks has no increment, and sets no total. -/
theorem increment_of_reading {c : Call α τ 𝕜} {r : τ × 𝕜} (h : reading s c = some r) :
    L.increment c = 0 ∧ ∀ total, L.nextTotal total c = total := by
  cases c with
  | inc | setTotal => cases h
  | tick | stop => exact ⟨rfl, fun _ => rfl⟩

/-- A call adds its increment to the counter. -/
theorem counter_step (s : State 𝕜 τ) (c : Call α τ 𝕜) :
    ((L.step s c).sample .progressProcessedTotal).getD 0 =
      (s.sample .progressProcessedTotal).getD 0 + L.increment c := by
  rcases hreading : reading s c with _ | ⟨now, wall⟩
  · cases c with
    | tick => cases hreading
    | stop now wall =>
      by_cases hstopped : s.tracker.stopped
      · rw [step, stop, if_pos hstopped, increment, add_zero]
      · rw [reading, if_neg hstopped] at hreading
        cases hreading
    | setTotal total =>
      rw [step, setTotal, increment, add_zero]
      cases L.checkTotal total <;> rfl
    | inc n =>
      rw [step, inc, increment]
      rcases L.checkInc n with e | n
      · exact (add_zero _).symm
      · dsimp only [Except.toOption, Option.getD_some]
        split_ifs with hzero
        · rw [hzero, add_zero]
        · exact congrArg (Option.getD · 0) (Lib.Store.add_self _ _ n)
  · obtain ⟨stopped, hstep⟩ := step_of_reading (L := L) hreading
    rw [hstep, processed_tick, (increment_of_reading hreading).1, add_zero]
    rfl

/-- A tracker that was stopped stays so. -/
theorem stopped_step (h : s.tracker.stopped = true) (c : Call α τ 𝕜) :
    (L.step s c).tracker.stopped = true := by
  cases c with
  | tick => exact h
  | stop now wall =>
    rw [step, stop, if_pos h]
    exact h
  | inc | setTotal =>
    rw [(step_of_not_reading rfl).1]
    exact h

/-- `stop` stops a tracker. -/
theorem stopped_stop (s : State 𝕜 τ) (now : τ) (wall : 𝕜) :
    (L.stop now wall s).tracker.stopped = true := by
  rw [stop]
  split_ifs with hstopped
  · exact hstopped
  · rfl

/-- An accepted increment is not negative. -/
theorem increment_nonneg (c : Call α τ 𝕜) : 0 ≤ L.increment c := by
  cases c with
  | setTotal | tick | stop => exact le_rfl
  | inc n =>
    rw [increment]
    rcases hcheck : L.checkInc n with e | n
    · exact le_rfl
    · exact L.nonneg_of_checkInc hcheck

end Steps

section Smoothed

variable [IsStrictOrderedRing 𝕜]

/-- A tracker is a metered system: its ticks sample the processed count. -/
def metered : Metered L.step 𝕜 where
  count s := s.tracker.processed
  base s := s.tracker.lastProcessed
  elapsed s c := (reading s c).map fun r => L.seconds s.tracker.lastTick r.1
  count_of_sample := by
    intro s c d h
    obtain ⟨now, wall, stopped, -, hstep⟩ := step_of_sample (L := L) h
    rw [hstep]
    rfl
  base_of_sample := by
    intro s c d h
    obtain ⟨now, wall, stopped, -, hstep⟩ := step_of_sample (L := L) h
    rw [hstep]
    rfl
  le_count_of_other := by
    intro s c h
    rw [(step_of_not_reading (L := L) (Option.map_eq_none_iff.mp h)).1]
    exact le_add_of_nonneg_right (increment_nonneg c)
  base_of_other := by
    intro s c h
    rw [(step_of_not_reading (L := L) (Option.map_eq_none_iff.mp h)).1]

/-- It keeps a mean of the rates. -/
def smoothed : Smoothed L.step 𝕜 where
  toMetered := L.metered
  mean s := s.tracker.rateEwma
  weight s := alpha s.tracker
  weight_nonneg := by
    intro s d hpos
    exact le_min zero_le_one (div_nonneg hpos.le s.tracker.window.2.le)
  weight_le_one s d := min_le_left _ _
  mean_of_passed := by
    intro s c d h
    obtain ⟨hsample, hpos⟩ := Option.filter_eq_some_iff.mp h
    obtain ⟨now, wall, stopped, rfl, hstep⟩ := step_of_sample (L := L) hsample
    rw [hstep]
    exact rateEwma_tick_of_pos (of_decide_eq_true hpos)
  mean_of_not := by
    intro s c h
    rcases hreading : reading s c with _ | ⟨now, wall⟩
    · rw [(step_of_not_reading (L := L) hreading).1]
    · obtain ⟨stopped, hstep⟩ := step_of_reading (L := L) hreading
      rw [hstep]
      refine rateEwma_tick_of_not fun hpos => ?_
      have helapsed : L.metered.elapsed s c = some (L.seconds s.tracker.lastTick now) :=
        congrArg (Option.map _) hreading
      rw [Lib.Metered.passed, helapsed, Option.filter_some, if_pos (decide_eq_true hpos)] at h
      cases h

end Smoothed

/-! ## What holds after any calls -/

/-- The sum of the increments that are accepted. -/
def incremented (calls : List (Call α τ 𝕜)) : 𝕜 := (calls.map L.increment).sum

/-- The increments of one more call. -/
theorem incremented_concat (calls : List (Call α τ 𝕜)) (c : Call α τ 𝕜) :
    L.incremented (calls ++ [c]) = L.incremented calls + L.increment c := by
  simp [incremented]

/-- The latest total that is accepted. -/
def latestTotal (total : 𝕜) (calls : List (Call α τ 𝕜)) : 𝕜 := run L.nextTotal total calls

/-- A new tracker: it has what it was started with, and nothing is processed. -/
structure New (o : Setup 𝕜 τ) (s : State 𝕜 τ) : Prop where
  service : s.tracker.service = o.service
  operation : s.tracker.operation = o.operation
  window : s.tracker.window = o.window
  total : s.tracker.total = o.total
  lastTick : s.tracker.lastTick = o.now
  processed : s.tracker.processed = 0
  lastProcessed : s.tracker.lastProcessed = 0
  rateEwma : s.tracker.rateEwma = none
  stopped : s.tracker.stopped = false
  /-- The gauges are seeded, and the other samples are those of the registry. -/
  samples : s.samples = setGauges s.tracker o.total 0 0 o.samples

/-- A tracker that was just started is new. -/
theorem new_start (o : Setup 𝕜 τ) :
    New o (start o.service o.operation o.total o.window o.now o.samples) :=
  ⟨rfl, rfl, rfl, rfl, rfl, rfl, rfl, rfl, rfl, rfl⟩

/-- A new tracker shows no rate. -/
theorem New.rate {o : Setup 𝕜 τ} {s : State 𝕜 τ} (hs : New o s) :
    s.sample .progressRatePerSecond = some 0 := by
  rw [State.sample, hs.samples]
  simp [setGauges, Tracker.key]

/-- A new tracker leaves its counter. -/
theorem New.counter {o : Setup 𝕜 τ} {s : State 𝕜 τ} (hs : New o s) :
    s.sample .progressProcessedTotal = o.samples (s.tracker.key .progressProcessedTotal) := by
  rw [State.sample, hs.samples]
  simp [setGauges, Tracker.key]

/-- How a state after some calls follows from the first one. -/
structure Follows (s : State 𝕜 τ) (calls : List (Call α τ 𝕜)) (t : State 𝕜 τ) : Prop where
  service : t.tracker.service = s.tracker.service
  operation : t.tracker.operation = s.tracker.operation
  window : t.tracker.window = s.tracker.window
  processed : t.tracker.processed = s.tracker.processed + L.incremented calls
  total : t.tracker.total = L.latestTotal s.tracker.total calls
  counter : (t.sample .progressProcessedTotal).getD 0 =
    (s.sample .progressProcessedTotal).getD 0 + L.incremented calls
  rate : t.sample .progressRatePerSecond = some (t.tracker.rateEwma.getD 0)
  stopped : (∃ now wall, .stop now wall ∈ calls) → t.tracker.stopped = true

section Follows

variable {L} {s t : State 𝕜 τ} {calls : List (Call α τ 𝕜)}

/-- A call keeps a state following from the first one. -/
theorem Follows.step (h : L.Follows s calls t) (c : Call α τ 𝕜) :
    L.Follows s (calls ++ [c]) (L.step t c) := by
  have htotal : L.latestTotal s.tracker.total (calls ++ [c]) =
      L.nextTotal (L.latestTotal s.tracker.total calls) c := Lib.run_concat _ _ _ _
  have hstopped : (∃ now wall, .stop now wall ∈ calls ++ [c]) →
      (L.step t c).tracker.stopped = true := by
    rintro ⟨now, wall, hmem⟩
    rcases List.mem_append.mp hmem with hmem | hmem
    · exact stopped_step (h.stopped ⟨now, wall, hmem⟩) c
    · obtain rfl := List.mem_singleton.mp hmem
      exact stopped_stop t now wall
  have hcounter := counter_step (L := L) t c
  rw [h.counter, add_assoc, ← incremented_concat] at hcounter
  rcases hreading : reading t c with _ | ⟨now, wall⟩
  · -- No tick: only the counts move, and with them the counter.
    obtain ⟨htracker, hsamples⟩ := step_of_not_reading (L := L) hreading
    refine ⟨htracker ▸ h.service, htracker ▸ h.operation, htracker ▸ h.window, ?_, ?_, hcounter, ?_,
      hstopped⟩
    · rw [htracker, incremented_concat, ← add_assoc, ← h.processed]
    · rw [htracker, htotal, ← h.total]
    · rw [hsamples _ (by decide), htracker]
      exact h.rate
  · -- A tick: the counts stand, and the gauges follow them.
    obtain ⟨stopped, hstep⟩ := step_of_reading (L := L) hreading
    obtain ⟨hincrement, hnext⟩ := increment_of_reading (L := L) hreading
    refine ⟨hstep ▸ h.service, hstep ▸ h.operation, hstep ▸ h.window, ?_, ?_, hcounter, ?_,
      hstopped⟩
    · rw [incremented_concat, hincrement, add_zero, ← h.processed, hstep]
      rfl
    · rw [htotal, hnext, ← h.total, hstep]
      rfl
    · rw [hstep]
      exact rate_tick now wall

/-- Every state of a run follows from the first one. -/
theorem follows_run {o : Setup 𝕜 τ} (hs : New o s) (calls : List (Call α τ 𝕜)) :
    L.Follows s calls (run L.step s calls) := by
  induction calls using List.reverseRecOn with
  | nil =>
    refine ⟨rfl, rfl, rfl, (add_zero _).symm, rfl, (add_zero _).symm, ?_, ?_⟩
    · rw [Lib.run, List.foldl_nil, hs.rate, hs.rateEwma]
      rfl
    · rintro ⟨now, wall, hmem⟩
      cases hmem
  | append_singleton calls c ih =>
    rw [Lib.run_concat]
    exact ih.step c

/-- After some calls the series of a tracker are those that it was started with. -/
theorem sample_run {o : Setup 𝕜 τ} (hs : New o s) (calls : List (Call α τ 𝕜)) (family : Family) :
    (run L.step s calls).samples (o.key family) = (run L.step s calls).sample family := by
  have hfollows := follows_run (L := L) hs calls
  rw [State.sample, Tracker.key, hfollows.service, hfollows.operation, hs.service, hs.operation]
  rfl

/-- The same after one more call. -/
theorem sample_step_run {o : Setup 𝕜 τ} (hs : New o s) (calls : List (Call α τ 𝕜)) (c : Call α τ 𝕜)
    (family : Family) :
    (L.step (run L.step s calls) c).samples (o.key family) =
      (L.step (run L.step s calls) c).sample family := by
  rw [← Lib.run_concat L.step]
  exact sample_run hs (calls ++ [c]) family

/-- A tick of a tracker shows what is left of the latest total. -/
theorem remaining_run {o : Setup 𝕜 τ} (hs : New o s) (calls : List (Call α τ 𝕜))
    {c : Call α τ 𝕜} {r : τ × 𝕜} (hreading : reading (run L.step s calls) c = some r) :
    (L.step (run L.step s calls) c).sample .progressRemaining =
      some (max 0 (L.latestTotal o.total calls - L.incremented calls)) := by
  have hfollows := follows_run (L := L) hs calls
  obtain ⟨now, wall⟩ := r
  obtain ⟨stopped, hstep⟩ := step_of_reading (L := L) hreading
  rw [hstep, remaining_tick, hfollows.total, hfollows.processed, hs.total, hs.processed, zero_add]

end Follows

section Upholds

variable [IsStrictOrderedRing 𝕜]

/-- What a tracker upholds after some calls, from the state `s` of one that was started with `o`.
The samples are those of the service and the operation that it was started with. -/
structure Upholds (o : Setup 𝕜 τ) (s : State 𝕜 τ) (calls : List (Call α τ 𝕜)) : Prop where
  /-- The tracker keeps its labels and its window. -/
  setup : (run L.step s calls).tracker.service = o.service ∧
    (run L.step s calls).tracker.operation = o.operation ∧
    (run L.step s calls).tracker.window = o.window
  /-- The counter has grown by the accepted increments. -/
  processed : ((run L.step s calls).samples (o.key .progressProcessedTotal)).getD 0 =
    (o.samples (o.key .progressProcessedTotal)).getD 0 + L.incremented calls
  /-- A tick shows what is left of the latest total, and zero where it is overshot. -/
  remaining : ∀ c r, reading (run L.step s calls) c = some r →
    (L.step (run L.step s calls) c).samples (o.key .progressRemaining) =
      some (max 0 (L.latestTotal o.total calls - L.incremented calls))
  /-- The rate is zero before the first tick at which time has passed, and then between the smallest
  and the largest rate so far. -/
  rate : ∃ rate, (run L.step s calls).samples (o.key .progressRatePerSecond) = some rate ∧
    (L.metered.rates s calls = [] → rate = 0) ∧
      (L.metered.rates s calls ≠ [] → Between (L.metered.rates s calls) rate)
  /-- No rate is negative, and so no mean of them. -/
  rate_nonneg : ∀ rate,
    (run L.step s calls).samples (o.key .progressRatePerSecond) = some rate → 0 ≤ rate
  /-- A tick at which time has passed blends its rate into the one before it, by the share of the
  window that has passed. -/
  blended : ∀ c d, L.metered.passed (run L.step s calls) c = some d →
    (L.step (run L.step s calls) c).samples (o.key .progressRatePerSecond) =
      some (Lib.blend (min 1 (d / o.window)) (run L.step s calls).tracker.rateEwma
        (L.metered.instantRate (run L.step s calls) d))
  /-- A tick shows zero for the completion where the rate or what is left is zero, and else a time
  after the one that it reads. -/
  completion : ∀ c now wall, reading (run L.step s calls) c = some (now, wall) →
    ∃ rate remaining completionTs,
      (L.step (run L.step s calls) c).samples (o.key .progressRatePerSecond) = some rate ∧
      (L.step (run L.step s calls) c).samples (o.key .progressRemaining) = some remaining ∧
      (L.step (run L.step s calls) c).samples (o.key .progressEstimatedCompletionTimestamp) =
        some completionTs ∧
      (rate = 0 ∨ remaining = 0 → completionTs = 0) ∧
      (rate ≠ 0 → remaining ≠ 0 → wall < completionTs)
  /-- A rejected `inc` changes nothing. -/
  inc_rejected : ∀ n e, L.checkInc n = .error e →
    L.inc n (run L.step s calls) = (.error e, run L.step s calls)
  /-- A rejected `setTotal` changes nothing. -/
  setTotal_rejected : ∀ total e, L.checkTotal total = .error e →
    L.setTotal total (run L.step s calls) = (.error e, run L.step s calls)
  /-- A second `stop` changes nothing. -/
  stop_again : (∃ now wall, .stop now wall ∈ calls) → ∀ now wall,
    L.stop now wall (run L.step s calls) = run L.step s calls

variable {L} {o : Setup 𝕜 τ} {s : State 𝕜 τ}

/-- The rate of a tracker is shown, lies between its rates, and is zero before the first one. -/
theorem rate_run (hs : New o s) (calls : List (Call α τ 𝕜)) :
    ∃ rate, (run L.step s calls).sample .progressRatePerSecond = some rate ∧
      (L.metered.rates s calls = [] → rate = 0) ∧
        (L.metered.rates s calls ≠ [] → Between (L.metered.rates s calls) rate) := by
  obtain ⟨hnone, hbetween⟩ := L.smoothed.between_rates hs.rateEwma calls
  refine ⟨_, (follows_run hs calls).rate, ?_, ?_⟩
  · intro hrates
    have hmean : (run L.step s calls).tracker.rateEwma = none := hnone.mpr hrates
    rw [hmean]
    rfl
  · intro hrates
    -- The gauge shows the mean, and zero in its place only where there was no rate.
    rcases hmean : (run L.step s calls).tracker.rateEwma with _ | mean
    · exact absurd (hnone.mp hmean) hrates
    · exact hbetween mean hmean

/-- The rate of a tracker is not negative. -/
theorem rate_nonneg (hs : New o s) (calls : List (Call α τ 𝕜)) {rate : 𝕜}
    (h : (run L.step s calls).sample .progressRatePerSecond = some rate) : 0 ≤ rate := by
  obtain ⟨rate', hrate, hzero, hbetween⟩ := rate_run (L := L) hs calls
  obtain rfl : rate = rate' := Option.some.inj (h.symm.trans hrate)
  by_cases hrates : L.metered.rates s calls = []
  · exact (hzero hrates).ge
  · obtain ⟨⟨lo, hlo, hle⟩, -⟩ := hbetween hrates
    have hbase : s.tracker.lastProcessed ≤ s.tracker.processed := by
      rw [hs.lastProcessed, hs.processed]
    exact (L.metered.rates_nonneg hbase calls lo hlo).trans hle

/-- A tick of a tracker at which time has passed blends its rate into the mean, by the share of the
window that the tracker was started with. -/
theorem blended_run (hs : New o s) (calls : List (Call α τ 𝕜)) {c : Call α τ 𝕜} {d : 𝕜}
    (hpassed : L.metered.passed (run L.step s calls) c = some d) :
    (L.step (run L.step s calls) c).sample .progressRatePerSecond =
      some (Lib.blend (min 1 (d / o.window)) (run L.step s calls).tracker.rateEwma
        (L.metered.instantRate (run L.step s calls) d)) := by
  have hwindow : (run L.step s calls).tracker.window = o.window :=
    (follows_run (L := L) hs calls).window.trans hs.window
  have hmean : (L.step (run L.step s calls) c).tracker.rateEwma =
      some (Lib.blend (alpha (run L.step s calls).tracker d) (run L.step s calls).tracker.rateEwma
        (L.metered.instantRate (run L.step s calls) d)) := L.smoothed.mean_of_passed hpassed
  have hrate := (follows_run (L := L) hs (calls ++ [c])).rate
  rw [Lib.run_concat, hmean, alpha, hwindow] at hrate
  exact hrate

/-- The completion that a tick of a tracker shows. -/
theorem completion_run (hs : New o s) (calls : List (Call α τ 𝕜)) {c : Call α τ 𝕜} {now : τ}
    {wall : 𝕜} (hreading : reading (run L.step s calls) c = some (now, wall)) :
    ∃ rate remaining completionTs,
      (L.step (run L.step s calls) c).sample .progressRatePerSecond = some rate ∧
      (L.step (run L.step s calls) c).sample .progressRemaining = some remaining ∧
      (L.step (run L.step s calls) c).sample .progressEstimatedCompletionTimestamp =
        some completionTs ∧
      (rate = 0 ∨ remaining = 0 → completionTs = 0) ∧
      (rate ≠ 0 → remaining ≠ 0 → wall < completionTs) := by
  -- The gauges after the tick, and that the rate among them is not negative.
  have hnonneg : ∀ rate, (L.step (run L.step s calls) c).sample .progressRatePerSecond =
      some rate → 0 ≤ rate := by
    intro rate hrate
    rw [← Lib.run_concat L.step] at hrate
    exact rate_nonneg hs (calls ++ [c]) hrate
  obtain ⟨stopped, hstep⟩ := step_of_reading (L := L) hreading
  rw [hstep] at hnonneg ⊢
  refine ⟨_, _, _, rate_tick now wall, remaining_tick now wall, completion_tick now wall, ?_, ?_⟩
  · rintro (hzero | hzero)
    · exact if_neg fun hpos => hpos.1.ne' hzero
    · exact if_neg fun hpos => hpos.2.ne' hzero
  · intro hrate hremaining
    have hpos := lt_of_le_of_ne (hnonneg _ (rate_tick now wall)) hrate.symm
    have hleft := lt_of_le_of_ne (le_max_left 0 _) hremaining.symm
    rw [if_pos ⟨hpos, hleft⟩]
    exact lt_add_of_pos_right wall (div_pos hleft hpos)

/-- A new tracker upholds all of this, whatever is called and whatever the clocks read. -/
theorem upholds (hs : New o s) (calls : List (Call α τ 𝕜)) : L.Upholds o s calls := by
  have hfollows := follows_run (L := L) hs calls
  constructor
  · exact ⟨hfollows.service.trans hs.service, hfollows.operation.trans hs.operation,
      hfollows.window.trans hs.window⟩
  · have hkey : s.tracker.key .progressProcessedTotal = o.key .progressProcessedTotal := by
      rw [Tracker.key, hs.service, hs.operation]
      rfl
    rw [sample_run hs, hfollows.counter, hs.counter, hkey]
  · intro c r hreading
    rw [sample_step_run hs]
    exact remaining_run hs calls hreading
  · rw [sample_run hs]
    exact rate_run hs calls
  · intro rate hrate
    rw [sample_run hs] at hrate
    exact rate_nonneg hs calls hrate
  · intro c d hpassed
    rw [sample_step_run hs]
    exact blended_run hs calls hpassed
  · intro c now wall hreading
    simp only [sample_step_run hs]
    exact completion_run hs calls hreading
  · intro n e hcheck
    rw [inc, hcheck]
  · intro total e hcheck
    rw [setTotal, hcheck]
  · intro hmem now wall
    exact if_pos (hfollows.stopped hmem)

end Upholds

end Lane

end Tracker

end SimsysMetrics.Progress
