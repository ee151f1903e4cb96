import Mathlib.Algebra.Order.Field.Rat
import SimsysMetrics.Lib.Runs
import SimsysMetrics.Python.Progress

/-!
# The threads of a Python progress tracker

`ProgressTracker` of `simsys_metrics/progress.py` with its `_loop` thread and any number of threads
that call `inc`, `set_total` and `stop`. The counts are read and written under the lock; all else
that a `_tick` reads and writes, it reads and writes outside. Each of its writes is one step here,
and so are the readings that its new mean of the rates is made of.

`stop` sets the event, joins the thread, and ticks. So ticks do not overlap where one caller at most
passes the test of `stop` and its join does not time out. Then the tracker is the sequential one of
`Python.Progress`, on its calls in the order of their sections under the lock, and once `stop` has
returned, no gauge changes any more (`progress_threads`).
-/

namespace SimsysMetrics.Python.ProgressThreads

open Lib (Along Store run trace)
open Python.Progress (ProgressOpts Raised Value lane trackProgress)
open SimsysMetrics.Progress (Call Key Lane State ok_of_bind ok_of_map)

/-! ## The threads -/

/-- Where a `_tick` is. -/
inductive TickPc (𝕜 : Type) where
  | called
  /-- At the lock, after the reading of `time.monotonic()`. -/
  | timed (now : 𝕜)
  /-- After the section under the lock. -/
  | copied (now processed total : 𝕜)
  /-- It has the new mean of the rates, where time has passed. -/
  | smoothed (now processed total : 𝕜) (ewma : Option 𝕜)
  /-- After `_rate_ewma` is written. -/
  | blended (now processed total : 𝕜)
  /-- After `_last_processed` is written. -/
  | counted (now remaining : 𝕜)
  /-- After `_last_tick` is written. -/
  | based (remaining : 𝕜)
  | remainingSet (remaining : 𝕜)
  /-- After `_rate_ewma` is read again. -/
  | rated (remaining rate : 𝕜)
  | rateSet (remaining rate : 𝕜)
deriving DecidableEq

/-- Where the thread of `_loop` is. -/
inductive Loop (𝕜 : Type) where
  /-- In `_stop.wait`. -/
  | waiting
  /-- The interval is over before the event was set. -/
  | due
  | ticking (pc : TickPc 𝕜)
  | exited
deriving DecidableEq

/-- Where a call of `stop` is that found the event unset. -/
inductive StopCall (𝕜 : Type) where
  | passed
  | joining
  | ticking (pc : TickPc 𝕜)
  | returned
deriving DecidableEq

section Places

variable {𝕜 : Type}

/-- The loop after a step of its tick. -/
def Loop.next : Option (TickPc 𝕜) → Loop 𝕜
  | some pc => .ticking pc
  | none => .waiting

/-- A call of `stop` after a step of its tick. -/
def StopCall.next : Option (TickPc 𝕜) → StopCall 𝕜
  | some pc => .ticking pc
  | none => .returned

/-- The tick of a call of `stop`. -/
def StopCall.ticks : StopCall 𝕜 → List (TickPc 𝕜)
  | .ticking pc => [pc]
  | .passed | .joining | .returned => []

/-- The tick of the loop. -/
def Loop.ticks : Loop 𝕜 → List (TickPc 𝕜)
  | .ticking pc => [pc]
  | .waiting | .due | .exited => []

/-- A call of `stop` is past its join. -/
def StopCall.joined : StopCall 𝕜 → Bool
  | .passed | .joining => false
  | .ticking _ | .returned => true

/-- The ticks of the loop after a step of its tick. -/
theorem Loop.ticks_next (after : Option (TickPc 𝕜)) : (Loop.next after).ticks = after.toList := by
  cases after <;> rfl

/-- The ticks of a call of `stop` after a step of its tick. -/
theorem StopCall.ticks_next (after : Option (TickPc 𝕜)) :
    (StopCall.next after).ticks = after.toList := by
  cases after <;> rfl

/-- A call of `stop` that is not past its join does not tick. -/
theorem StopCall.ticks_of_not_joined {c : StopCall 𝕜} (h : ¬ c.joined = true) : c.ticks = [] := by
  cases c with
  | passed | joining | returned => rfl
  | ticking => exact absurd rfl h

end Places

section Threads

variable {𝕜 : Type} [Field 𝕜] [LinearOrder 𝕜]

/-- A tracker with its threads. `state.tracker.stopped` is the event `_stop`. -/
structure Threads (𝕜 : Type) [Field 𝕜] [LinearOrder 𝕜] where
  state : State 𝕜 𝕜
  /-- What the calls of `inc` that are past the lock have yet to add to the counter. -/
  adding : List 𝕜
  loop : Loop 𝕜
  stops : List (StopCall 𝕜)

/-- One step of a thread. Where a `_tick` reads a clock, it reads `now` or `wall`. -/
inductive Event (𝕜 : Type) where
  /-- `inc`, up to the end of its section under the lock. -/
  | inc (n : Value 𝕜)
  /-- The counter of one of the calls of `inc` that are past the lock. -/
  | add (i : ℕ)
  | setTotal (total : Value 𝕜)
  /-- The wait of the loop times out. -/
  | timeout
  | loop (now wall : 𝕜)
  /-- A call of `stop`. -/
  | stop
  /-- The `i`-th call of `stop` goes on; where it joins, the loop has exited. -/
  | caller (i : ℕ) (now wall : 𝕜)
  | joinTimeout (i : ℕ)

/-- The mean of the rates after a tick that found this time elapsed. -/
def nextEwma (t : SimsysMetrics.Progress.Tracker 𝕜 𝕜) (now processed : 𝕜) : Option 𝕜 :=
  let elapsed := now - t.lastTick
  if 0 < elapsed then
    let instantRate := (processed - t.lastProcessed) / elapsed
    let alpha := min 1 (elapsed / t.window)
    match t.rateEwma with
    | none => some instantRate
    | some ewma => some (alpha * instantRate + (1 - alpha) * ewma)
  else none

/-- The gauge of a tracker set to a value. -/
def setGauge (family : Family) (v : 𝕜) (s : State 𝕜 𝕜) : State 𝕜 𝕜 :=
  { s with samples := s.samples.set (s.tracker.key family) v }

/-- The next step of a `_tick`: where it is then, and the state. -/
def advance (now wall : 𝕜) : TickPc 𝕜 → State 𝕜 𝕜 → Option (TickPc 𝕜) × State 𝕜 𝕜
  | .called, s => (some (.timed now), s)
  | .timed now, s => (some (.copied now s.tracker.processed s.tracker.total), s)
  | .copied now processed total, s =>
    (some (.smoothed now processed total (nextEwma s.tracker now processed)), s)
  | .smoothed now processed total (some ewma), s =>
    (some (.blended now processed total), { s with tracker := { s.tracker with rateEwma := ewma } })
  | .smoothed now processed total none, s => (some (.blended now processed total), s)
  | .blended now processed total, s =>
    (some (.counted now (max 0 (total - processed))),
      { s with tracker := { s.tracker with lastProcessed := processed } })
  | .counted now remaining, s =>
    (some (.based remaining), { s with tracker := { s.tracker with lastTick := now } })
  | .based remaining, s =>
    (some (.remainingSet remaining), setGauge .progressRemaining remaining s)
  | .remainingSet remaining, s =>
    (some (.rated remaining (s.tracker.rateEwma.getD 0)), s)
  | .rated remaining rate, s =>
    (some (.rateSet remaining rate), setGauge .progressRatePerSecond rate s)
  | .rateSet remaining rate, s =>
    let completionTs := if 0 < rate ∧ 0 < remaining then wall + remaining / rate else 0
    (none, setGauge .progressEstimatedCompletionTimestamp completionTs s)

/-- The section of `inc` under the lock, after its checks. -/
def Threads.inc (s : Threads 𝕜) (n : Value 𝕜) : Threads 𝕜 :=
  match lane.checkInc n with
  | .error _ => s
  | .ok n =>
    if n = 0 then s
    else
      { s with
        state :=
          { s.state with
            tracker := { s.state.tracker with processed := s.state.tracker.processed + n } }
        adding := s.adding ++ [n] }

/-- The counter of a call of `inc`. -/
def Threads.add (s : Threads 𝕜) (i : ℕ) : Threads 𝕜 :=
  match s.adding[i]? with
  | some n =>
    { s with
      state :=
        { s.state with
          samples := s.state.samples.add (s.state.tracker.key .progressProcessedTotal) n }
      adding := s.adding.eraseIdx i }
  | none => s

/-- A step of the loop. -/
def Threads.goLoop (s : Threads 𝕜) (now wall : 𝕜) : Threads 𝕜 :=
  match s.loop with
  | .waiting => if s.state.tracker.stopped then { s with loop := .exited } else s
  | .due => { s with loop := .ticking .called }
  | .ticking pc =>
    let after := advance now wall pc s.state
    { s with loop := .next after.1, state := after.2 }
  | .exited => s

/-- A step of a call of `stop`. -/
def Threads.goCaller (s : Threads 𝕜) (i : ℕ) (now wall : 𝕜) : Threads 𝕜 :=
  match s.stops[i]? with
  | some .passed =>
    { s with
      state := { s.state with tracker := { s.state.tracker with stopped := true } }
      stops := s.stops.set i .joining }
  | some .joining =>
    match s.loop with
    | .exited => { s with stops := s.stops.set i (.ticking .called) }
    | .waiting | .due | .ticking _ => s
  | some (.ticking pc) =>
    let after := advance now wall pc s.state
    { s with stops := s.stops.set i (.next after.1), state := after.2 }
  | some .returned | none => s

/-- One step. -/
def step (s : Threads 𝕜) : Event 𝕜 → Threads 𝕜
  | .inc n => s.inc n
  | .add i => s.add i
  | .setTotal total => { s with state := (lane.setTotal total s.state).2 }
  | .timeout =>
    if s.loop = .waiting ∧ s.state.tracker.stopped = false then { s with loop := .due } else s
  | .loop now wall => s.goLoop now wall
  | .stop => if s.state.tracker.stopped then s else { s with stops := s.stops ++ [.passed] }
  | .caller i now wall => s.goCaller i now wall
  | .joinTimeout i =>
    match s.stops[i]? with
    | some .joining => { s with stops := s.stops.set i (.ticking .called) }
    | some .passed | some (.ticking _) | some .returned | none => s

/-- A tracker whose thread has just been started. -/
def launch (s : State 𝕜 𝕜) : Threads 𝕜 := ⟨s, [], .waiting, []⟩

/-- No join times out, and no call of `stop` finds the event unset after another one did. -/
def Orderly (s : Threads 𝕜) : Event 𝕜 → Prop
  | .stop => s.state.tracker.stopped = true ∨ s.stops = []
  | .joinTimeout _ => False
  | .inc _ | .add _ | .setTotal _ | .timeout | .loop .. | .caller .. => True

instance (s : Threads 𝕜) (e : Event 𝕜) : Decidable (Orderly s e) :=
  match e with
  | .stop => inferInstanceAs (Decidable (_ ∨ _))
  | .joinTimeout _ => inferInstanceAs (Decidable False)
  | .inc _ | .add _ | .setTotal _ | .timeout | .loop .. | .caller .. =>
    inferInstanceAs (Decidable True)

/-! ## What is left of a tick -/

/-- The mean of the rates written, where there is a new one. -/
def blend : Option 𝕜 → State 𝕜 𝕜 → State 𝕜 𝕜
  | some ewma, s => { s with tracker := { s.tracker with rateEwma := ewma } }
  | none, s => s

/-- The gauge of the completion. -/
def complete (wall remaining rate : 𝕜) (s : State 𝕜 𝕜) : State 𝕜 𝕜 :=
  setGauge .progressEstimatedCompletionTimestamp
    (if 0 < rate ∧ 0 < remaining then wall + remaining / rate else 0) s

/-- The gauges of the rate and of the completion. -/
def publish (wall remaining : 𝕜) (s : State 𝕜 𝕜) : State 𝕜 𝕜 :=
  let rate := s.tracker.rateEwma.getD 0
  complete wall remaining rate (setGauge .progressRatePerSecond rate s)

/-- The base line moved on, and the gauges. -/
def moveOn (wall now processed remaining : 𝕜) (s : State 𝕜 𝕜) : State 𝕜 𝕜 :=
  publish wall remaining (setGauge .progressRemaining remaining
    { s with tracker := { s.tracker with lastProcessed := processed, lastTick := now } })

/-- The state when a tick that is past the lock has ended, if nothing else happens until then. -/
def finish (wall : 𝕜) : TickPc 𝕜 → State 𝕜 𝕜 → State 𝕜 𝕜
  | .called, s => s
  | .timed _, s => s
  | .copied now processed total, s =>
    moveOn wall now processed (max 0 (total - processed))
      (blend (nextEwma s.tracker now processed) s)
  | .smoothed now processed total ewma, s =>
    moveOn wall now processed (max 0 (total - processed)) (blend ewma s)
  | .blended now processed total, s => moveOn wall now processed (max 0 (total - processed)) s
  | .counted now remaining, s =>
    publish wall remaining (setGauge .progressRemaining remaining
      { s with tracker := { s.tracker with lastTick := now } })
  | .based remaining, s => publish wall remaining (setGauge .progressRemaining remaining s)
  | .remainingSet remaining, s => publish wall remaining s
  | .rated remaining rate, s =>
    complete wall remaining rate (setGauge .progressRatePerSecond rate s)
  | .rateSet remaining rate, s => complete wall remaining rate s

/-- The state when the tick that is under way, if any, has ended. -/
def finishAny (wall : 𝕜) : Option (TickPc 𝕜) → State 𝕜 𝕜 → State 𝕜 𝕜
  | some pc, s => finish wall pc s
  | none, s => s

/-- The mean of the rates after a tick, with the new one written. -/
theorem blend_nextEwma (now : 𝕜) (s : State 𝕜 𝕜) :
    blend (nextEwma s.tracker now s.tracker.processed) s =
      { s with
        tracker :=
          { s.tracker with
            rateEwma := (Python.Progress.tick now 0 s).tracker.rateEwma } } := by
  by_cases hpassed : 0 < now - s.tracker.lastTick
  · have hlane : 0 < (lane (𝕜 := 𝕜)).seconds s.tracker.lastTick now := hpassed
    rw [Python.Progress.tick, Lane.rateEwma_tick_of_pos hlane, nextEwma, if_pos hpassed]
    cases s.tracker.rateEwma <;> rfl
  · have hlane : ¬ 0 < (lane (𝕜 := 𝕜)).seconds s.tracker.lastTick now := hpassed
    rw [Python.Progress.tick, Lane.rateEwma_tick_of_not hlane, nextEwma, if_neg hpassed]
    rfl

/-- From the lock on, what is left of a tick is the tick. -/
theorem finish_copied (now wall : 𝕜) (s : State 𝕜 𝕜) :
    finish wall (.copied now s.tracker.processed s.tracker.total) s =
      Python.Progress.tick now wall s := by
  rw [finish, blend_nextEwma]
  rfl

/-- The calls that the end of a section under the lock is, up to the time of day. -/
def TickPc.commits : TickPc 𝕜 → List (Call (Value 𝕜) 𝕜 𝕜)
  | .timed now => [.tick now 0]
  | .called | .copied .. | .smoothed .. | .blended .. | .counted .. | .based _ | .remainingSet _
  | .rated .. | .rateSet .. => []

/-- A call without the time of day. -/
def eraseWall : Call (Value 𝕜) 𝕜 𝕜 → Call (Value 𝕜) 𝕜 𝕜
  | .tick now _ => .tick now 0
  | .stop now _ => .stop now 0
  | .inc n => .inc n
  | .setTotal total => .setTotal total

/-- A step of a tick: the calls that it completes, whatever the time of day when it ends. -/
theorem advance_follows (now wall : 𝕜) {pc : TickPc 𝕜} {s start : State 𝕜 𝕜}
    {calls : 𝕜 → List (Call (Value 𝕜) 𝕜 𝕜)} {committed : List (Call (Value 𝕜) 𝕜 𝕜)}
    (hcommitted : ∀ wall, (calls wall).map eraseWall = committed)
    (h : ∀ wall, finish wall pc s = run (lane (𝕜 := 𝕜)).step start (calls wall)) :
    ∃ calls' : 𝕜 → List (Call (Value 𝕜) 𝕜 𝕜),
      (∀ wall, (calls' wall).map eraseWall = committed ++ pc.commits) ∧
      ∀ wall', finishAny wall' (advance now wall pc s).1 (advance now wall pc s).2 =
        run (lane (𝕜 := 𝕜)).step start (calls' wall') := by
  cases pc with
  | timed now =>
    refine ⟨fun wall => calls wall ++ [.tick now wall], ?_, ?_⟩
    · intro wall
      rw [List.map_append, hcommitted]
      rfl
    · intro wall'
      rw [Lib.run_concat, ← h wall']
      exact finish_copied now wall' s
  | rateSet remaining rate =>
    -- The tick reads the time of day now.
    refine ⟨fun _ => calls wall, ?_, ?_⟩
    · intro _
      rw [hcommitted]
      exact (List.append_nil _).symm
    · intro _
      rw [← h wall]
      rfl
  | smoothed now processed total ewma =>
    refine ⟨calls, fun wall => (hcommitted wall).trans (List.append_nil _).symm, ?_⟩
    intro wall'
    rw [← h wall']
    cases ewma <;> rfl
  | called | copied | blended | counted | based | remainingSet | rated =>
    refine ⟨calls, fun wall => (hcommitted wall).trans (List.append_nil _).symm, ?_⟩
    intro wall'
    rw [← h wall']
    rfl

/-! ## What happens beside a tick -/

/-- A state in which something happened beside a tick: the counts changed, and the counter was
increased. -/
def beside (processed total : 𝕜 → 𝕜) (stopped : Bool → Bool) (ns : List 𝕜) (s : State 𝕜 𝕜) :
    State 𝕜 𝕜 :=
  ⟨{ s.tracker with
      processed := processed s.tracker.processed
      total := total s.tracker.total
      stopped := stopped s.tracker.stopped },
    s.samples.addAll (s.tracker.key .progressProcessedTotal) ns⟩

variable (processed total : 𝕜 → 𝕜) (stopped : Bool → Bool) (ns : List 𝕜)

/-- A gauge is set independently. -/
theorem setGauge_beside {family : Family} (hfamily : family ≠ .progressProcessedTotal) (v : 𝕜)
    (s : State 𝕜 𝕜) :
    setGauge family v (beside processed total stopped ns s) =
      beside processed total stopped ns (setGauge family v s) := by
  have hkey : s.tracker.key family ≠ s.tracker.key .progressProcessedTotal :=
    fun heq => hfamily (congrArg Key.family heq)
  exact congrArg (State.mk _) (Store.set_addAll s.samples ns v hkey)

/-- The gauges are published independently. -/
theorem publish_beside (wall remaining : 𝕜) (s : State 𝕜 𝕜) :
    publish wall remaining (beside processed total stopped ns s) =
      beside processed total stopped ns (publish wall remaining s) := by
  rw [publish, complete, setGauge_beside _ _ _ _ (by decide), setGauge_beside _ _ _ _ (by decide)]
  rfl

/-- What is left of a tick that is past the lock does not see what happens beside it. -/
theorem finish_beside (wall : 𝕜) (pc : TickPc 𝕜) (s : State 𝕜 𝕜) :
    finish wall pc (beside processed total stopped ns s) =
      beside processed total stopped ns (finish wall pc s) := by
  have hremaining (remaining : 𝕜) (s : State 𝕜 𝕜) :=
    setGauge_beside processed total stopped ns
      (by decide : Family.progressRemaining ≠ .progressProcessedTotal) remaining s
  have hmoveOn (now p remaining : 𝕜) (s : State 𝕜 𝕜) :
      moveOn wall now p remaining (beside processed total stopped ns s) =
        beside processed total stopped ns (moveOn wall now p remaining s) := by
    rw [moveOn, moveOn, ← publish_beside, ← hremaining]
    rfl
  have hblend (ewma : Option 𝕜) (s : State 𝕜 𝕜) :
      blend ewma (beside processed total stopped ns s) =
        beside processed total stopped ns (blend ewma s) := by
    cases ewma <;> rfl
  cases pc with
  | called | timed => rfl
  | copied now p t => rw [finish, finish, ← hmoveOn, ← hblend]; rfl
  | smoothed now p t ewma => rw [finish, finish, ← hmoveOn, ← hblend]
  | blended now p t => exact hmoveOn ..
  | counted now remaining =>
    rw [finish, finish, ← publish_beside, ← hremaining]
    rfl
  | based remaining => rw [finish, finish, ← publish_beside, ← hremaining]
  | remainingSet remaining => exact publish_beside ..
  | rated remaining rate =>
    rw [finish, finish, complete, complete, setGauge_beside _ _ _ _ (by decide),
      setGauge_beside _ _ _ _ (by decide)]
  | rateSet remaining rate =>
    rw [finish, finish, complete, complete, setGauge_beside _ _ _ _ (by decide)]

/-- A step of a tick, where the counts are the same. -/
theorem advance_beside (now wall : 𝕜) (pc : TickPc 𝕜) (s : State 𝕜 𝕜) :
    advance now wall pc (beside id id stopped ns s) =
      ((advance now wall pc s).1, beside id id stopped ns (advance now wall pc s).2) := by
  cases pc with
  | smoothed now p t ewma => cases ewma <;> rfl
  | based | rated | rateSet => exact congrArg _ (setGauge_beside _ _ _ _ (by decide) _ _)
  | called | timed | copied | blended | counted | remainingSet => rfl

/-! ## The threads together -/

namespace Threads

/-- The ticks that are under way. -/
def ticks (s : Threads 𝕜) : List (TickPc 𝕜) := s.loop.ticks ++ s.stops.flatMap StopCall.ticks

/-- The tracker, with the increments of the counter that are yet to come; `stop` has not set its
event there. -/
def settled (s : Threads 𝕜) : State 𝕜 𝕜 := beside id id (fun _ => false) s.adding s.state

/-- One call of `stop` at most is past its test, and it ticks when the loop has exited. -/
def Solo (s : Threads 𝕜) : Prop :=
  match s.stops with
  | [] => True
  | [c] => c.joined = true → s.loop = .exited
  | _ :: _ :: _ => False

end Threads

/-- The call of the tracker that a step is: one for each section under the lock, a tick without the
time of day. -/
def commits (s : Threads 𝕜) : Event 𝕜 → List (Call (Value 𝕜) 𝕜 𝕜)
  | .inc n => [.inc n]
  | .setTotal total => [.setTotal total]
  | .loop .. =>
    match s.loop with
    | .ticking pc => pc.commits
    | .waiting | .due | .exited => []
  | .caller i .. =>
    match s.stops[i]? with
    | some (.ticking pc) => pc.commits
    | some .passed | some .joining | some .returned | none => []
  | .add _ | .timeout | .stop | .joinTimeout _ => []

variable {s : Threads 𝕜}

/-- Before the loop has exited, no call of `stop` ticks. -/
theorem stops_of_loop (hsolo : s.Solo) (hloop : s.loop ≠ .exited) :
    s.stops.flatMap StopCall.ticks = [] ∧ ∀ s' : Threads 𝕜, s'.stops = s.stops → s'.Solo := by
  unfold Threads.Solo at hsolo ⊢
  match hstops : s.stops with
  | [] =>
    refine ⟨rfl, fun s' hs' => ?_⟩
    rw [hs']
    trivial
  | [c] =>
    rw [hstops] at hsolo
    have hjoined : ¬ c.joined = true := fun h => hloop (hsolo h)
    refine ⟨?_, fun s' hs' => ?_⟩
    · rw [List.flatMap_singleton]
      exact StopCall.ticks_of_not_joined hjoined
    · rw [hs']
      exact fun h => absurd h hjoined
  | _ :: _ :: _ =>
    rw [hstops] at hsolo
    exact False.elim hsolo

/-- Ticks do not overlap. -/
theorem ticks_length_le (hsolo : s.Solo) : s.ticks.length ≤ 1 := by
  by_cases hloop : s.loop = .exited
  · rw [Threads.ticks, hloop]
    unfold Threads.Solo at hsolo
    match hstops : s.stops with
    | [] => exact Nat.zero_le 1
    | [c] => cases c <;> exact Nat.le_of_ble_eq_true rfl
    | _ :: _ :: _ =>
      rw [hstops] at hsolo
      exact False.elim hsolo
  · rw [Threads.ticks, (stops_of_loop hsolo hloop).1, List.append_nil]
    cases s.loop <;> exact Nat.le_of_ble_eq_true rfl

/-- The section of `inc` under the lock. -/
theorem settled_inc (s : Threads 𝕜) (n : Value 𝕜) :
    (s.inc n).settled = lane.step s.settled (.inc n) := by
  rw [Threads.inc, Lane.step, Lane.inc]
  cases lane.checkInc n with
  | error => rfl
  | ok n =>
    dsimp only
    split_ifs
    · rfl
    · exact congrArg (State.mk _) (Store.addAll_concat ..)

/-- The section of `set_total` under the lock. -/
theorem settled_setTotal (s : Threads 𝕜) (total : Value 𝕜) :
    (step s (.setTotal total)).settled = lane.step s.settled (.setTotal total) := by
  rw [step, Lane.step, Lane.setTotal, Lane.setTotal]
  cases lane.checkTotal total <;> rfl

/-- The counter of a call of `inc`. -/
theorem settled_add (s : Threads 𝕜) (i : ℕ) : (s.add i).settled = s.settled := by
  rw [Threads.add]
  cases hn : s.adding[i]? with
  | none => rfl
  | some n => exact congrArg (State.mk _) (Store.addAll_eraseIdx _ _ hn)

/-- What a step is beside the ticks, to the tick under way, or to both. -/
inductive Does (s s' : Threads 𝕜) : List (Call (Value 𝕜) 𝕜 𝕜) → Prop where
  | nothing (hticks : s'.ticks = s.ticks) (hsettled : s'.settled = s.settled) : Does s s' []
  /-- A tick begins. -/
  | begins (hnone : s.ticks = []) (hticks : s'.ticks = [.called])
      (hsettled : s'.settled = s.settled) : Does s s' []
  | calls {c : Call (Value 𝕜) 𝕜 𝕜} (hc : ∃ v, c = .inc v ∨ c = .setTotal v)
      (hticks : s'.ticks = s.ticks) (hsettled : s'.settled = lane.step s.settled c) : Does s s' [c]
  | goesOn {pc : TickPc 𝕜} (now wall : 𝕜) (htick : s.ticks = [pc])
      (hticks : s'.ticks = (advance now wall pc s.settled).1.toList)
      (hsettled : s'.settled = (advance now wall pc s.settled).2) : Does s s' pc.commits

/-- A step of a tick changes the settled state as it changes the state. -/
theorem goesOn_of_advance (now wall : 𝕜) {s s' : Threads 𝕜} {pc : TickPc 𝕜}
    (htick : s.ticks = [pc]) (hadding : s'.adding = s.adding)
    (hstate : s'.state = (advance now wall pc s.state).2)
    (hticks : s'.ticks = (advance now wall pc s.state).1.toList) : Does s s' pc.commits := by
  have hbeside := advance_beside (fun _ => false) s.adding now wall pc s.state
  refine .goesOn now wall htick ?_ ?_
  · rw [hticks, Threads.settled, hbeside]
  · rw [Threads.settled, Threads.settled, hbeside, hadding, hstate]

/-- A step of the loop. -/
theorem goLoop_does (hsolo : s.Solo) (now wall : 𝕜) :
    (step s (.loop now wall)).Solo ∧
      Does s (step s (.loop now wall)) (commits s (.loop now wall)) := by
  rw [step, Threads.goLoop, commits]
  cases hloop : s.loop with
  | exited => exact ⟨hsolo, .nothing rfl rfl⟩
  | waiting =>
    obtain ⟨-, hsolo'⟩ := stops_of_loop hsolo (by rw [hloop]; nofun)
    dsimp only
    split_ifs
    · refine ⟨hsolo' _ rfl, .nothing ?_ rfl⟩
      rw [Threads.ticks, Threads.ticks, hloop]
      rfl
    · exact ⟨hsolo, .nothing rfl rfl⟩
  | due =>
    -- The interval is over: a tick begins, and no call of `stop` has joined.
    obtain ⟨hstops, hsolo'⟩ := stops_of_loop hsolo (by rw [hloop]; nofun)
    refine ⟨hsolo' _ rfl, .begins ?_ ?_ rfl⟩
    · rw [Threads.ticks, hloop, hstops]
      rfl
    · rw [Threads.ticks, hstops]
      rfl
  | ticking pc =>
    obtain ⟨hstops, hsolo'⟩ := stops_of_loop hsolo (by rw [hloop]; nofun)
    have htick : s.ticks = [pc] := by
      rw [Threads.ticks, hloop, hstops]
      rfl
    refine ⟨hsolo' _ rfl, goesOn_of_advance now wall htick rfl rfl ?_⟩
    rw [Threads.ticks, hstops, List.append_nil]
    exact Loop.ticks_next _

/-- A step of a call of `stop`. -/
theorem goCaller_does (hsolo : s.Solo) (i : ℕ) (now wall : 𝕜) :
    (step s (.caller i now wall)).Solo ∧
      Does s (step s (.caller i now wall)) (commits s (.caller i now wall)) := by
  rw [step, Threads.goCaller, commits]
  match hstops : s.stops, i with
  | [], _ => exact ⟨hsolo, .nothing rfl rfl⟩
  | [_], i + 1 => exact ⟨hsolo, .nothing rfl rfl⟩
  | _ :: _ :: _, _ =>
    rw [Threads.Solo, hstops] at hsolo
    exact False.elim hsolo
  | [.returned], 0 => exact ⟨hsolo, .nothing rfl rfl⟩
  | [.passed], 0 =>
    -- The call sets the event, and joins the thread.
    refine ⟨?_, .nothing ?_ rfl⟩
    · show StopCall.joining.joined = true → _
      nofun
    · rw [Threads.ticks, Threads.ticks, hstops]
      rfl
  | [.joining], 0 =>
    dsimp only [List.getElem?_cons_zero]
    cases hloop : s.loop with
    | waiting | due | ticking => exact ⟨hsolo, .nothing rfl rfl⟩
    | exited =>
      -- The join returns only when the loop has exited, so that its tick is the only one.
      refine ⟨fun _ => rfl, .begins ?_ rfl rfl⟩
      rw [Threads.ticks, hloop, hstops]
      rfl
  | [.ticking pc], 0 =>
    rw [Threads.Solo, hstops] at hsolo
    have hloop : s.loop = .exited := hsolo rfl
    have htick : s.ticks = [pc] := by
      rw [Threads.ticks, hloop, hstops]
      rfl
    refine ⟨fun _ => hloop, goesOn_of_advance now wall htick rfl rfl ?_⟩
    rw [Threads.ticks]
    show s.loop.ticks ++ ((StopCall.next _).ticks ++ []) = _
    rw [hloop, StopCall.ticks_next, List.append_nil]
    rfl

/-- A step of threads that are not in each other's way. -/
theorem step_does (hsolo : s.Solo) {e : Event 𝕜} (hok : Orderly s e) :
    (step s e).Solo ∧ Does s (step s e) (commits s e) := by
  cases e with
  | inc n =>
    have hsame : (s.inc n).stops = s.stops ∧ (s.inc n).loop = s.loop := by
      rw [Threads.inc]
      cases lane.checkInc n with
      | error => exact ⟨rfl, rfl⟩
      | ok n =>
        dsimp only
        split_ifs <;> exact ⟨rfl, rfl⟩
    refine ⟨?_, .calls ⟨n, .inl rfl⟩ ?_ (settled_inc s n)⟩
    · rw [step, Threads.Solo, hsame.1, hsame.2]
      exact hsolo
    · rw [step, Threads.ticks, hsame.1, hsame.2]
      rfl
  | add i =>
    have hsame : (s.add i).stops = s.stops ∧ (s.add i).loop = s.loop := by
      rw [Threads.add]
      cases s.adding[i]? <;> exact ⟨rfl, rfl⟩
    refine ⟨?_, .nothing ?_ (settled_add s i)⟩
    · rw [step, Threads.Solo, hsame.1, hsame.2]
      exact hsolo
    · rw [step, Threads.ticks, hsame.1, hsame.2]
      rfl
  | setTotal total => exact ⟨hsolo, .calls ⟨total, .inr rfl⟩ rfl (settled_setTotal s total)⟩
  | joinTimeout => exact hok.elim
  | stop =>
    rw [step]
    split_ifs with hstopped
    · exact ⟨hsolo, .nothing rfl rfl⟩
    · have hstops : s.stops = [] := hok.resolve_left hstopped
      refine ⟨?_, .nothing ?_ rfl⟩
      · rw [Threads.Solo, hstops]
        show StopCall.passed.joined = true → _
        nofun
      · rw [Threads.ticks, Threads.ticks, hstops]
        rfl
  | timeout =>
    rw [step]
    split_ifs with h
    · obtain ⟨hloop, -⟩ := h
      obtain ⟨-, hsolo'⟩ := stops_of_loop hsolo (by rw [hloop]; nofun)
      refine ⟨hsolo' _ rfl, .nothing ?_ rfl⟩
      rw [Threads.ticks, Threads.ticks, hloop]
      rfl
    · exact ⟨hsolo, .nothing rfl rfl⟩
  | loop now wall => exact goLoop_does hsolo now wall
  | caller i now wall => exact goCaller_does hsolo i now wall

/-- A call that does not tick only happens beside ticks. -/
theorem exists_beside {c : Call (Value 𝕜) 𝕜 𝕜} (hc : ∃ v, c = .inc v ∨ c = .setTotal v) :
    ∃ processed total ns, ∀ s, (lane (𝕜 := 𝕜)).step s c = beside processed total id ns s := by
  obtain ⟨v, rfl | rfl⟩ := hc
  · cases hn : (lane (𝕜 := 𝕜)).checkInc v with
    | error e =>
      refine ⟨id, id, [], fun s => ?_⟩
      rw [Lane.step, Lane.inc, hn]
      rfl
    | ok n =>
      by_cases hzero : n = 0
      · refine ⟨id, id, [], fun s => ?_⟩
        rw [Lane.step, Lane.inc, hn]
        exact congrArg Prod.snd (if_pos hzero)
      · refine ⟨(· + n), id, [n], fun s => ?_⟩
        rw [Lane.step, Lane.inc, hn]
        exact congrArg Prod.snd (if_neg hzero)
  · cases ht : (lane (𝕜 := 𝕜)).checkTotal v with
    | error e =>
      refine ⟨id, id, [], fun s => ?_⟩
      rw [Lane.step, Lane.setTotal, ht]
      rfl
    | ok total =>
      refine ⟨id, fun _ => total, [], fun s => ?_⟩
      rw [Lane.step, Lane.setTotal, ht]
      rfl

/-- The threads follow the tracker of which some calls were made: whenever the tick under way ends,
it is the last of the ticks among them. -/
def Follows (start : State 𝕜 𝕜) (s : Threads 𝕜) (committed : List (Call (Value 𝕜) 𝕜 𝕜)) : Prop :=
  s.Solo ∧ ∃ calls : 𝕜 → List (Call (Value 𝕜) 𝕜 𝕜),
    (∀ wall, (calls wall).map eraseWall = committed) ∧
    ∀ wall, finishAny wall s.ticks.head? s.settled =
      run (lane (𝕜 := 𝕜)).step start (calls wall)

/-- After an orderly step, the threads follow the tracker that made the calls of the step, too. -/
theorem follows_step {start : State 𝕜 𝕜} {committed : List (Call (Value 𝕜) 𝕜 𝕜)}
    (h : Follows start s committed) {e : Event 𝕜} (hok : Orderly s e) :
    Follows start (step s e) (committed ++ commits s e) := by
  obtain ⟨hsolo, calls, hcommitted, hcalls⟩ := h
  obtain ⟨hsolo', hdoes⟩ := step_does hsolo hok
  refine ⟨hsolo', ?_⟩
  generalize step s e = s' at hdoes
  generalize commits s e = new at hdoes ⊢
  cases hdoes with
  | nothing hticks hsettled =>
    refine ⟨calls, fun wall => (hcommitted wall).trans (List.append_nil _).symm, fun wall => ?_⟩
    rw [hticks, hsettled, hcalls]
  | begins hnone hticks hsettled =>
    refine ⟨calls, fun wall => (hcommitted wall).trans (List.append_nil _).symm, fun wall => ?_⟩
    rw [hticks, hsettled, ← hcalls, hnone]
    rfl
  | @calls c hc hticks hsettled =>
    refine ⟨fun wall => calls wall ++ [c], fun wall => ?_, fun wall => ?_⟩
    · rw [List.map_append, hcommitted]
      obtain ⟨v, rfl | rfl⟩ := hc <;> rfl
    · obtain ⟨processed, total, ns, hbeside⟩ := exists_beside hc
      rw [hticks, hsettled, Lib.run_concat, ← hcalls, hbeside, hbeside]
      cases s.ticks.head? with
      | none => rfl
      | some pc => exact finish_beside ..
  | goesOn now wall htick hticks hsettled =>
    rw [htick] at hcalls
    obtain ⟨calls', hcommitted', hcalls'⟩ := advance_follows now wall hcommitted hcalls
    refine ⟨calls', hcommitted', fun wall' => ?_⟩
    rw [hticks, hsettled, Option.head?_toList]
    exact hcalls' wall'

/-! ## After `stop` -/

/-- The call of `stop` has returned, and the gauges read so. -/
structure Flushed (gauges : Store Key 𝕜) (s : Threads 𝕜) : Prop where
  stops : s.stops = [.returned]
  loop : s.loop = .exited
  gauges (key : Key) (hkey : key.family ≠ .progressProcessedTotal) :
    s.state.samples key = gauges key

/-- A call of `stop` that has returned leaves threads that do not touch the gauges. -/
theorem flushed_of_returned (hsolo : s.Solo) (h : .returned ∈ s.stops) :
    Flushed s.state.samples s := by
  unfold Threads.Solo at hsolo
  match hstops : s.stops with
  | [] =>
    rw [hstops] at h
    cases h
  | [c] =>
    rw [hstops] at h hsolo
    obtain rfl := List.mem_singleton.mp h
    exact ⟨hstops, hsolo rfl, fun _ _ => rfl⟩
  | _ :: _ :: _ =>
    rw [hstops] at hsolo
    exact False.elim hsolo

/-- Once the call of `stop` has returned, an orderly step leaves the gauges, and the loop has
ended. -/
theorem flushed_step {gauges : Store Key 𝕜} (h : Flushed gauges s) {e : Event 𝕜}
    (hok : Orderly s e) : Flushed gauges (step s e) := by
  cases e with
  | inc n =>
    rw [step, Threads.inc]
    cases lane.checkInc n with
    | error => exact h
    | ok n =>
      dsimp only
      split_ifs
      · exact h
      · exact ⟨h.stops, h.loop, h.gauges⟩
  | add i =>
    rw [step, Threads.add]
    cases s.adding[i]? with
    | none => exact h
    | some n =>
      -- An increment that was on its way: only the counter, which is no gauge.
      refine ⟨h.stops, h.loop, fun key hkey => ?_⟩
      rw [← h.gauges key hkey]
      exact Function.update_of_ne (fun heq => hkey (congrArg Key.family heq)) ..
  | setTotal total =>
    rw [step, Lane.setTotal]
    cases lane.checkTotal total <;> exact ⟨h.stops, h.loop, h.gauges⟩
  | timeout =>
    rw [step, if_neg]
    · exact h
    · rw [h.loop]
      rintro ⟨hwaiting, -⟩
      cases hwaiting
  | loop now wall =>
    rw [step, Threads.goLoop, h.loop]
    exact h
  | stop =>
    rcases hok with hstopped | hstops
    · rw [step, if_pos hstopped]
      exact h
    · rw [h.stops] at hstops
      cases hstops
  | caller i now wall =>
    rw [step, Threads.goCaller, h.stops]
    cases i <;> exact h
  | joinTimeout => exact hok.elim

/-- In threads where at most one call of `stop` passes its test and its join does not time out:
1. Ticks do not overlap.
2. When no tick is under way, the tracker and the samples, with the increments of the counter that
   are yet to come, are those of a tracker that nobody shares, after its calls in the order of their
   sections under the lock.
3. When `stop` has returned, the loop has exited, no tick is under way, and no gauge changes after
   that, whatever the threads do. -/
theorem progress_threads {service : Option String} {now : 𝕜} {opts : ProgressOpts 𝕜}
    {samples : Store Key 𝕜} {start : State 𝕜 𝕜}
    (hstart : trackProgress service now opts samples = .ok start) {events : List (Event 𝕜)}
    (hevents : Along step Orderly (launch start) events) :
    let s := run step (launch start) events
    s.ticks.length ≤ 1 ∧
      (s.ticks = [] → ∃ calls : List (Call (Value 𝕜) 𝕜 𝕜),
        calls.map eraseWall = trace step commits (launch start) events ∧
          s.settled = run lane.step start calls) ∧
      (.returned ∈ s.stops → ∀ later, Along step Orderly s later →
        (run step s later).loop = .exited ∧ (run step s later).ticks = [] ∧
          ∀ key : Key, key.family ≠ .progressProcessedTotal →
            (run step s later).state.samples key = s.state.samples key) := by
  intro s
  -- At the start nothing is on its way.
  have hsettled : (launch start).settled = start := by
    obtain ⟨total, -, h⟩ := ok_of_bind hstart
    obtain ⟨window, -, h⟩ := ok_of_bind h
    obtain ⟨interval, -, h⟩ := ok_of_bind h
    obtain ⟨service, -, h⟩ := ok_of_bind h
    obtain rfl := Except.ok.inj h
    rfl
  have hlaunch : Follows start (launch start) [] :=
    ⟨trivial, fun _ => [], fun _ => rfl, fun _ => hsettled⟩
  have hfollows : Follows start s (trace step commits (launch start) events) :=
    Lib.invariant_trace_along (I := Follows start) (fun _ _ _ h hok => follows_step h hok) hlaunch
      hevents
  obtain ⟨hsolo, calls, hcommitted, hcalls⟩ := hfollows
  refine ⟨ticks_length_le hsolo, fun hnone => ?_, fun hreturned later hlater => ?_⟩
  · refine ⟨calls 0, hcommitted 0, ?_⟩
    rw [← hcalls, hnone]
    rfl
  · have hflushed : Flushed s.state.samples (run step s later) :=
      Lib.invariant_along (I := Flushed s.state.samples) (fun _ _ h hok => flushed_step h hok)
        (flushed_of_returned hsolo hreturned) hlater
    refine ⟨hflushed.loop, ?_, hflushed.gauges⟩
    rw [Threads.ticks, hflushed.loop, hflushed.stops]
    rfl

end Threads

/-- A batch that is half done when its tracker is stopped, in the middle of a tick. -/
def halfDone : List (Event ℚ) :=
  [.inc (.int 5), .add 0, .timeout, .loop 2 100, .loop 2 100, .stop, .caller 0 2 100] ++
    List.replicate 10 (.loop 2 100) ++ List.replicate 11 (.caller 0 3 101)

/-- Its gauge says so for good. -/
theorem progress_threads_half :
    ∃ start, trackProgress (some "portal") 0 ⟨"scan", .int 10, .float 5, .float 5⟩
        (fun _ => (none : Option ℚ)) = .ok start ∧
      ∀ later, Along step Orderly (run step (launch start) halfDone) later →
        (run step (run step (launch start) halfDone) later).state.samples
          ⟨.progressRemaining, "portal", "scan"⟩ = some 5 := by
  obtain ⟨start, hstart, hruns⟩ := ok_of_map
    (x := trackProgress (some "portal") 0 ⟨"scan", .int 10, .float 5, .float 5⟩
      fun _ => (none : Option ℚ))
    (f := fun start => let s := run step (launch start) halfDone
      (decide (Along step Orderly (launch start) halfDone), s.stops,
        s.state.samples ⟨.progressRemaining, "portal", "scan"⟩))
    (b := (true, [.returned], some 5)) (by decide +kernel)
  obtain ⟨hevents, hstate⟩ := Prod.mk.inj hruns
  obtain ⟨hstops, hgauge⟩ := Prod.mk.inj hstate
  obtain ⟨-, -, hflushed⟩ := progress_threads hstart (of_decide_eq_true hevents)
  refine ⟨start, hstart, fun later hlater => ?_⟩
  obtain ⟨-, -, hkept⟩ := hflushed (hstops ▸ List.mem_singleton_self _) later hlater
  exact (hkept _ (by decide)).trans hgauge

end SimsysMetrics.Python.ProgressThreads
