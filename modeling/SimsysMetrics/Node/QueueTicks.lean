import SimsysMetrics.Lib.Attempts
import SimsysMetrics.Pollers

/-!
# Overlapping ticks of a queue poller

`trackQueue` of `node/src/baseline.ts` calls `tick` at once, and then at every firing of its
interval. `tick` is asynchronous: it awaits what `depthFn` returns, and the interval fires
meanwhile. So several ticks may wait at the same time, and their promises settle in any order. Each
tick that succeeds sets `simsys_queue_depth` as its promise settles.

The gauge shows the depth of the tick that settled last, and `ShowsNewest` asks for the one of the
tick that started last. They are the same at every moment of a run if and only if no tick that
succeeds does so when a tick started after it has succeeded with another depth
(`showsNewest_iff`). In a run where the interval fires only while no tick waits, as the threads of
Python and the goroutines of Go have it, they always are (`showsNewest_of_settled`).
-/

namespace SimsysMetrics.Node.QueueTicks

open Lib (F64 Attempt Along newest run)

variable {ε : Type}

/-- A queue poller: its ticks, in the order in which they started, whether its interval fires, and
what the ticks read and change. -/
structure Queue (ε : Type) where
  ticks : List (Attempt F64)
  timer : Bool
  poller : Poller ε

/-- What a call of `depthFn` does at once: it throws, or it returns what the tick awaits. -/
inductive Call (ε : Type) where
  | threw (err : ε)
  | awaited

/-- What happens to a queue poller. -/
inductive Event (ε : Type) where
  /-- A call of `tick`: the first one, or a firing of the interval. -/
  | fire (call : Call ε)
  /-- The promise of the tick that started as the `i`-th resolves or rejects. -/
  | settle (i : ℕ) (outcome : Except ε Result)
  /-- `stop` of the handle, which clears the interval. -/
  | stop

/-- How a tick ends. -/
def ended : Except ε Result → Attempt F64
  | .ok raw => .succeeded raw.count
  | .error _ => .failed

/-- One event. A cleared interval does not fire, and only a promise that is awaited settles. -/
def step (service queue : String) (s : Queue ε) : Event ε → Queue ε
  | .fire (.threw err) =>
    -- `await` is not reached: the tick is over before the call returns.
    if s.timer then
      { s with
        ticks := s.ticks ++ [.failed]
        poller := trackQueueTick service queue (.error err) s.poller }
    else s
  | .fire .awaited => if s.timer then { s with ticks := s.ticks ++ [.running] } else s
  | .settle i outcome =>
    if s.ticks[i]? = some .running then
      { s with
        ticks := s.ticks.set i (ended outcome)
        poller := trackQueueTick service queue outcome s.poller }
    else s
  -- The ticks that wait go on, and set the gauge when they settle.
  | .stop => { s with timer := false }

/-- A poller before its first tick. -/
def start (p : Poller ε) : Queue ε := ⟨[], true, p⟩

/-- The key of the gauge of a queue. -/
def depthKey (service queue : String) : GaugeKey := ⟨.queueDepth, service, queue⟩

/-- The gauge shows the depth of the tick that started last among those that have succeeded, and
what it showed before the first tick when none has. -/
def ShowsNewest (service queue : String) (before : Option F64) (s : Queue ε) : Prop :=
  s.poller.gauges (depthKey service queue) = (newest s.ticks).or before

/-- A tick that succeeds does so when no tick that started after it has succeeded, or when the last
of these to start has the same depth. -/
def InOrder (s : Queue ε) : Event ε → Prop
  | .settle i (.ok raw) => s.ticks[i]? = some .running →
    ∀ depth, newest (s.ticks.drop (i + 1)) = some depth → depth = raw.count
  | _ => True

/-- The interval fires only while no tick waits. -/
def FiresSettled (s : Queue ε) : Event ε → Prop
  | .fire _ => .running ∉ s.ticks
  | _ => True

section Steps

variable {service queue : String} {before : Option F64} {s : Queue ε}

/-- A tick that succeeds sets the gauge. -/
theorem trackQueueTick_ok (raw : Result) (p : Poller ε) :
    (trackQueueTick service queue (.ok raw) p).gauges (depthKey service queue) =
      some raw.count :=
  Lib.Store.set_self ..

/-- A tick that fails leaves the gauges. -/
theorem trackQueueTick_error (err : ε) (p : Poller ε) :
    (trackQueueTick service queue (.error err) p).gauges = p.gauges := rfl

/-- A call of `tick` sets no gauge, and is no success. -/
theorem showsNewest_fire (h : ShowsNewest service queue before s) (call : Call ε) :
    ShowsNewest service queue before (step service queue s (.fire call)) := by
  unfold ShowsNewest at h ⊢
  cases call with
  | threw err =>
    by_cases htimer : s.timer
    · rw [step, if_pos htimer, Lib.newest_concat, trackQueueTick_error, h]
      rfl
    · rwa [step, if_neg htimer]
  | awaited =>
    by_cases htimer : s.timer
    · rw [step, if_pos htimer, Lib.newest_concat, h]
      rfl
    · rwa [step, if_neg htimer]

/-- After an event the gauge shows the newest depth exactly when the event is in order. -/
theorem showsNewest_step_iff (h : ShowsNewest service queue before s) (e : Event ε) :
    ShowsNewest service queue before (step service queue s e) ↔ InOrder s e := by
  cases e with
  | fire call => exact iff_of_true (showsNewest_fire h call) trivial
  | stop => exact iff_of_true h trivial
  | settle i outcome =>
    by_cases hwaits : s.ticks[i]? = some .running
    · cases outcome with
      | error err =>
        -- A failure writes nothing, and is not among the successes.
        refine iff_of_true ?_ trivial
        unfold ShowsNewest at h ⊢
        rw [step, if_pos hwaits, ended, trackQueueTick_error, Lib.newest_set_failed hwaits, h]
      | ok raw =>
        -- The gauge shows this depth, whether or not it is the newest.
        have horder : InOrder s (.settle i (.ok raw : Except ε Result)) ↔
            newest (s.ticks.set i (.succeeded raw.count)) = some raw.count := by
          rw [Lib.newest_set_succeeded_eq_iff hwaits]
          exact forall_prop_of_true hwaits
        unfold ShowsNewest
        rw [horder, step, if_pos hwaits, ended, trackQueueTick_ok, Lib.newest_set_succeeded hwaits]
        rcases newest (s.ticks.drop (i + 1)) with _ | depth
        · exact iff_of_true rfl rfl
        · exact eq_comm
    · -- No tick waits for this promise.
      have hidle : step service queue s (.settle i outcome) = s := if_neg hwaits
      rw [hidle]
      refine iff_of_true h ?_
      cases outcome with
      | ok raw => exact fun hrunning => absurd hrunning hwaits
      | error err => trivial

end Steps

/-- The gauge shows the newest depth at every moment of a run if and only if every event of the run
is in order. -/
theorem showsNewest_iff (service queue : String) (p : Poller ε) (events : List (Event ε)) :
    (∀ pre, pre <+: events →
        ShowsNewest service queue (p.gauges (depthKey service queue))
          (run (step service queue) (start p) pre)) ↔
      Along (step service queue) InOrder (start p) events := by
  have hstart : ShowsNewest service queue (p.gauges (depthKey service queue)) (start p) := rfl
  have hiff : ∀ (s : Queue ε) (e : Event ε),
      ShowsNewest service queue (p.gauges (depthKey service queue)) s →
        (ShowsNewest service queue (p.gauges (depthKey service queue)) (step service queue s e) ↔
          InOrder s e) :=
    fun s e h => showsNewest_step_iff h e
  rw [Lib.forall_prefix_iff_along hstart]
  exact Lib.along_iff hiff (fun s e h => (hiff s e h).mpr) hstart events

/-- Two ticks wait at the same time; the later one settles first, with 5, and the earlier one then
sets the gauge to 3, which was read before. -/
theorem overtaken_tick_writes_late :
    let events : List (Event Unit) :=
      [.fire .awaited, .fire .awaited, .settle 1 (.ok (.number (.int 5))),
        .settle 0 (.ok (.number (.int 3)))]
    let s := run (step "portal" "jobs") (start .empty) events
    s.poller.gauges ⟨.queueDepth, "portal", "jobs"⟩ = some (.int 3) ∧
      newest s.ticks = some (.int 5) ∧
      ¬ ∀ pre, pre <+: events →
        ShowsNewest "portal" "jobs" none (run (step "portal" "jobs") (start .empty) pre) := by
  intro events s
  have hshown : s.poller.gauges (depthKey "portal" "jobs") = some (.int 3) := rfl
  have hnewest : newest s.ticks = some (.int 5) := rfl
  refine ⟨hshown, hnewest, ?_⟩
  intro h
  have hlast : s.poller.gauges (depthKey "portal" "jobs") = (newest s.ticks).or none :=
    h events List.prefix_rfl
  rw [hshown, hnewest] at hlast
  cases hlast

section Settled

variable {service queue : String} {s : Queue ε}

/-- A tick that ended no longer waits. -/
theorem ended_ne_running (outcome : Except ε Result) : ended outcome ≠ .running := by
  cases outcome <;> simp [ended]

/-- An interval that fires only while no tick waits keeps the ticks sequential. -/
theorem sequential_step (h : Lib.Sequential s.ticks) {e : Event ε} (he : FiresSettled s e) :
    Lib.Sequential (step service queue s e).ticks := by
  cases e with
  | fire call =>
    cases call with
    | threw err =>
      by_cases htimer : s.timer
      · rw [step, if_pos htimer]
        exact Lib.sequential_concat he .failed
      · rwa [step, if_neg htimer]
    | awaited =>
      by_cases htimer : s.timer
      · rw [step, if_pos htimer]
        exact Lib.sequential_concat he .running
      · rwa [step, if_neg htimer]
  | settle i outcome =>
    by_cases hwaits : s.ticks[i]? = some .running
    · rw [step, if_pos hwaits]
      exact Lib.sequential_set h (ended_ne_running outcome)
    · rwa [step, if_neg hwaits]
  | stop => exact h

/-- While the ticks are sequential, every event is in order. -/
theorem inOrder_of_sequential (h : Lib.Sequential s.ticks) (e : Event ε) : InOrder s e := by
  rcases e with call | ⟨i, err | raw⟩ | _
  · trivial
  · trivial
  · -- The tick that waits is the last one that started.
    intro hwaits depth hdepth
    rw [h i hwaits] at hdepth
    cases hdepth
  · trivial

/-- In a run whose interval fires only while no tick waits, the gauge shows the newest depth at
every moment. -/
theorem showsNewest_of_settled (p : Poller ε) {events : List (Event ε)}
    (h : Along (step service queue) FiresSettled (start p) events) {pre : List (Event ε)}
    (hpre : pre <+: events) :
    ShowsNewest service queue (p.gauges (depthKey service queue))
      (run (step service queue) (start p) pre) := by
  have hstart : Lib.Sequential (start p).ticks := fun i hi => nomatch hi
  have hstep : ∀ (s : Queue ε) (e : Event ε), Lib.Sequential s.ticks → FiresSettled s e →
      Lib.Sequential (step service queue s e).ticks :=
    fun s e hs he => sequential_step hs he
  have hstay : ∀ (s : Queue ε) (e : Event ε), Lib.Sequential s.ticks → FiresSettled s e →
      InOrder s e :=
    fun s e hs _ => inOrder_of_sequential hs e
  have horder : Along (step service queue) InOrder (start p) events :=
    Lib.along_of_along hstep hstay hstart h h
  exact (showsNewest_iff service queue p events).mpr horder pre hpre

end Settled

end SimsysMetrics.Node.QueueTicks
