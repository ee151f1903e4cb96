import Mathlib.Algebra.Order.Field.Rat
import SimsysMetrics.Lib.Potential
import SimsysMetrics.PollerTicks
import SimsysMetrics.Python.Progress

/-!
# The thread of a Python poller

`PollerThread` of `simsys_metrics/_baseline.py`, and `track_queue` and `track_pool`, which start
one. The loop of the thread tests its stop event and whether the interpreter is finalizing, polls,
and waits for the event. Any threads may call `stop`, at any moment.

A test does not hold the others up: a poll may begin after a call of `stop`, or after finalization
has begun, if the thread was past the test. There is at most one such poll, and the loop ends within
four of its steps after a call of `stop`, and within six after finalization has begun
(`thread_stops`).

An exception ends the thread before that if a callback raises it and it is no `Exception`, or if
`wait` raises it: the checks of an interval let pass what is above `threading.TIMEOUT_MAX`.
-/

namespace SimsysMetrics.Python.PollerThread

open PollerTicks
open Python.Progress (Value Raised checkPositive getService)
open SimsysMetrics.Progress (ok_of_bind ok_of_map)
open Lib (F64 Store run trace tally)

/-! ## The loop -/

/-- Where the loop of a thread is. -/
inductive Pc where
  /-- At the test of `_stop_event`. -/
  | top
  /-- At the test of `sys.is_finalizing()`. -/
  | guarded
  /-- At the call of `_poll`. -/
  | cleared
  | polling
  /-- At the call of `_stop_event.wait`. -/
  | polled
  | waiting
  | exited
deriving DecidableEq, Repr

/-- A thread, over what its `_poll` reads and changes. -/
structure Thread (μ : Type) where
  /-- `_stop_event` is set. -/
  stopped : Bool
  finalizing : Bool
  /-- An exception has ended the thread. -/
  died : Bool
  pc : Pc
  poll : μ

/-- One step: of a caller of `stop`, of the interpreter, or of the thread. -/
inductive Event (β : Type) where
  | stop
  | finalize
  /-- The loop goes on; where it waits, because the event is set. -/
  | go
  | work (b : β)
  /-- The interval is over before the event is set. -/
  | timeout
  /-- A callback raises what is no `Exception`. -/
  | raised
  /-- `wait` raises `OverflowError`. -/
  | overflow

/-- A `_poll`: what its call does, its steps, whether it runs, whether it runs its callbacks, and
what an exception leaves that one of them raises through it. -/
structure Loop (μ β : Type) where
  call : μ → μ
  body : μ → β → μ
  running : μ → Bool
  calling : μ → Bool
  abort : μ → μ
  running_call : ∀ m, running (call m) = true
  running_abort : ∀ m, running (abort m) = false

section Thread

variable {μ β : Type} (l : Loop μ β)

/-- One step of the loop. -/
def Thread.go (s : Thread μ) : Thread μ :=
  match s.pc with
  | .top => { s with pc := if s.stopped then .exited else .guarded }
  | .guarded => { s with pc := if s.finalizing then .exited else .cleared }
  | .cleared => { s with pc := .polling, poll := l.call s.poll }
  | .polled => { s with pc := if s.stopped then .exited else .waiting }
  | .waiting => { s with pc := if s.stopped then .exited else .waiting }
  | .polling | .exited => s

/-- One step. -/
def step (s : Thread μ) : Event β → Thread μ
  | .stop => { s with stopped := true }
  | .finalize => { s with finalizing := true }
  | .go => s.go l
  | .work b =>
    if s.pc = .polling then
      let poll := l.body s.poll b
      { s with pc := if l.running poll then .polling else .polled, poll }
    else s
  | .timeout => if s.pc = .waiting then { s with pc := .top } else s
  | .raised =>
    if s.pc = .polling ∧ l.calling s.poll then
      { s with died := true, pc := .exited, poll := l.abort s.poll }
    else s
  | .overflow =>
    -- An event that is set is not waited for.
    if s.pc = .polled ∧ s.stopped = false then { s with died := true, pc := .exited } else s

/-- A thread that has just been started. -/
def started (poll : μ) : Thread μ := ⟨false, false, false, .top, poll⟩

/-- The polls that begin in a step. -/
def begun (s : Thread μ) : Event β → ℕ
  | .go => if s.pc = .cleared then 1 else 0
  | .stop | .finalize | .work _ | .timeout | .raised | .overflow => 0

/-- The steps in which the loop gets on. -/
def advances (s : Thread μ) (event : Event β) : ℕ := if (step l s event).pc = s.pc then 0 else 1

/-- How many steps a loop whose event is set has left. -/
def Pc.rank : Pc → ℕ
  | .top => 1
  | .guarded => 4
  | .cleared => 3
  | .polling => 2
  | .polled => 1
  | .waiting => 2
  | .exited => 0

/-- How many steps a loop has left where the interpreter finalizes. -/
def Pc.rankFinalizing : Pc → ℕ
  | .guarded => 1
  | .top => 2
  | .waiting => 3
  | .polled => 4
  | .polling => 5
  | .cleared => 6
  | .exited => 0

/-- The poll that a thread may still begin when it is stopped. -/
def Pc.afterStop : Pc → ℕ
  | .guarded | .cleared => 1
  | .top | .polling | .polled | .waiting | .exited => 0

/-- The poll that a thread may still begin when the interpreter finalizes. -/
def Pc.afterFinalize : Pc → ℕ
  | .cleared => 1
  | .top | .guarded | .polling | .polled | .waiting | .exited => 0

variable {l} {s : Thread μ}

/-- The event stays set, finalization does not end, and an exception has ended the thread for good.
-/
theorem flags_step (s : Thread μ) (event : Event β) :
    (s.stopped = true → (step l s event).stopped = true) ∧
      (s.finalizing = true → (step l s event).finalizing = true) ∧
      (s.died = true → (step l s event).died = true) := by
  cases event with
  | stop => exact ⟨fun _ => rfl, id, id⟩
  | finalize => exact ⟨id, fun _ => rfl, id⟩
  | go =>
    rw [step, Thread.go]
    cases s.pc <;> exact ⟨id, id, id⟩
  | work b =>
    rw [step]
    split_ifs <;> exact ⟨id, id, id⟩
  | timeout =>
    rw [step]
    split_ifs <;> exact ⟨id, id, id⟩
  | raised =>
    rw [step]
    split_ifs
    · exact ⟨id, id, fun _ => rfl⟩
    · exact ⟨id, id, id⟩
  | overflow =>
    rw [step]
    split_ifs
    · exact ⟨id, id, fun _ => rfl⟩
    · exact ⟨id, id, id⟩

/-- What other steps do to the place of the loop: a `_poll` or a wait is over, or an exception ends
the thread. -/
theorem pc_step {event : Event β} (h : event ≠ .go) :
    (step l s event).pc = s.pc ∨ s.pc = .polling ∧ (step l s event).pc = .polled ∨
      s.pc = .waiting ∧ (step l s event).pc = .top ∨
      (s.pc = .polling ∨ s.pc = .polled) ∧ (step l s event).pc = .exited := by
  cases event with
  | go => exact absurd rfl h
  | stop | finalize => exact .inl rfl
  | work b =>
    rw [step]
    split_ifs with hpolling
    · dsimp only
      split_ifs
      · exact .inl hpolling.symm
      · exact .inr (.inl ⟨hpolling, rfl⟩)
    · exact .inl rfl
  | timeout =>
    rw [step]
    split_ifs with hwaiting
    · exact .inr (.inr (.inl ⟨hwaiting, rfl⟩))
    · exact .inl rfl
  | raised =>
    rw [step]
    split_ifs with hcalling
    · exact .inr (.inr (.inr ⟨.inl hcalling.1, rfl⟩))
    · exact .inl rfl
  | overflow =>
    rw [step]
    split_ifs with hpolled
    · exact .inr (.inr (.inr ⟨.inr hpolled.1, rfl⟩))
    · exact .inl rfl

/-- They begin no poll. -/
theorem begun_eq_zero {event : Event β} (h : event ≠ .go) : begun s event = 0 := by
  cases event with
  | go => exact absurd rfl h
  | stop | finalize | work | timeout | raised | overflow => rfl

/-- Once the event is set, the polls that begin use up what the place of the loop allows. -/
theorem begun_afterStop (hstopped : s.stopped = true) (event : Event β) :
    begun s event + (step l s event).pc.afterStop ≤ s.pc.afterStop := by
  by_cases hgo : event = .go
  · subst hgo
    rw [step, begun, Thread.go, hstopped]
    cases hpc : s.pc with
    | guarded =>
      by_cases hfinalizing : s.finalizing = true <;> simp [Pc.afterStop, hfinalizing]
    | top | cleared | polling | polled | waiting | exited => simp [Pc.afterStop, hpc]
  · rw [begun_eq_zero hgo, Nat.zero_add]
    rcases pc_step (l := l) (s := s) hgo with
      heq | ⟨hpc, hnext⟩ | ⟨hpc, hnext⟩ | ⟨hpc | hpc, hnext⟩
    · rw [heq]
    all_goals simp [Pc.afterStop, hpc, hnext]

/-- Once the interpreter finalizes, the polls that begin use up what the place of the loop
allows. -/
theorem begun_afterFinalize (hfinalizing : s.finalizing = true) (event : Event β) :
    begun s event + (step l s event).pc.afterFinalize ≤ s.pc.afterFinalize := by
  by_cases hgo : event = .go
  · subst hgo
    rw [step, begun, Thread.go, hfinalizing]
    cases hpc : s.pc with
    | top | polled | waiting =>
      by_cases hstopped : s.stopped = true <;> simp [Pc.afterFinalize, hstopped]
    | guarded | cleared | polling | exited => simp [Pc.afterFinalize, hpc]
  · rw [begun_eq_zero hgo, Nat.zero_add]
    rcases pc_step (l := l) (s := s) hgo with
      heq | ⟨hpc, hnext⟩ | ⟨hpc, hnext⟩ | ⟨hpc | hpc, hnext⟩
    · rw [heq]
    all_goals simp [Pc.afterFinalize, hpc, hnext]

/-- Once the event is set, every step in which the loop gets on brings it nearer to its end. -/
theorem advances_rank (hstopped : s.stopped = true) (event : Event β) :
    advances l s event + (step l s event).pc.rank ≤ s.pc.rank := by
  unfold advances
  split_ifs with hsame
  · rw [hsame, Nat.zero_add]
  by_cases hgo : event = .go
  · subst hgo
    rw [step, Thread.go, hstopped] at hsame ⊢
    cases hpc : s.pc with
    | guarded =>
      by_cases hfinalizing : s.finalizing = true <;> simp [Pc.rank, hfinalizing]
    | top | cleared | polled | waiting => simp [Pc.rank]
    | polling | exited => simp [hpc] at hsame
  · rcases pc_step (l := l) (s := s) hgo with
      heq | ⟨hpc, hnext⟩ | ⟨hpc, hnext⟩ | ⟨hpc | hpc, hnext⟩
    · exact absurd heq hsame
    all_goals simp [Pc.rank, hpc, hnext]

/-- Once the interpreter finalizes, every step in which the loop gets on brings it nearer to its
end. -/
theorem advances_rankFinalizing (hfinalizing : s.finalizing = true) (event : Event β) :
    advances l s event + (step l s event).pc.rankFinalizing ≤ s.pc.rankFinalizing := by
  unfold advances
  split_ifs with hsame
  · rw [hsame, Nat.zero_add]
  by_cases hgo : event = .go
  · subst hgo
    rw [step, Thread.go, hfinalizing] at hsame ⊢
    cases hpc : s.pc with
    | top | polled =>
      by_cases hstopped : s.stopped = true <;> simp [Pc.rankFinalizing, hstopped]
    | waiting =>
      by_cases hstopped : s.stopped = true
      · simp [Pc.rankFinalizing, hstopped]
      · simp [hpc, hstopped] at hsame
    | guarded | cleared => simp [Pc.rankFinalizing]
    | polling | exited => simp [hpc] at hsame
  · rcases pc_step (l := l) (s := s) hgo with
      heq | ⟨hpc, hnext⟩ | ⟨hpc, hnext⟩ | ⟨hpc | hpc, hnext⟩
    · exact absurd heq hsame
    all_goals simp [Pc.rankFinalizing, hpc, hnext]

/-- The loop polls as long as its `_poll` runs. -/
def Coupled (l : Loop μ β) (s : Thread μ) : Prop := l.running s.poll = true ↔ s.pc = .polling

/-- Every step keeps the loop and its `_poll` together. -/
theorem coupled_step (h : Coupled l s) (event : Event β) : Coupled l (step l s event) := by
  unfold Coupled at h ⊢
  cases event with
  | stop | finalize => exact h
  | go =>
    rw [step, Thread.go]
    cases hpc : s.pc with
    | cleared =>
      -- The loop calls `_poll` here, and nowhere else.
      exact iff_of_true (l.running_call _) rfl
    | guarded =>
      rw [hpc] at h
      dsimp only
      split_ifs <;> simpa using h
    | top | polled | waiting =>
      rw [hpc] at h
      dsimp only
      split_ifs <;> simpa using h
    | polling | exited =>
      rw [hpc] at h
      simpa [hpc] using h
  | work b =>
    rw [step]
    split_ifs with hpolling
    · dsimp only
      split_ifs with hrunning
      · exact iff_of_true hrunning rfl
      · -- That was the last step of `_poll`, which returns to the loop.
        exact iff_of_false hrunning (by decide)
    · exact h
  | timeout =>
    rw [step]
    split_ifs with hwaiting
    · rw [hwaiting] at h
      simpa using h
    · exact h
  | raised =>
    rw [step]
    split_ifs
    · exact iff_of_false (by rw [l.running_abort]; decide) (by decide)
    · exact h
  | overflow =>
    rw [step]
    split_ifs with hpolled
    · rw [hpolled.1] at h
      simpa using h
    · exact h

/-- How a thread stops, from one of its states on. -/
structure Stops (l : Loop μ β) (s : Thread μ) : Prop where
  /-- After a call of `stop`, a poll begins only if the loop was past the test of the event, and
  then at most one. -/
  stop : s.stopped = true → ∀ later, tally (step l) begun s later ≤ s.pc.afterStop
  /-- After finalization has begun, a poll begins only if the loop was past its test, and then at
  most one. -/
  finalize : s.finalizing = true → ∀ later, tally (step l) begun s later ≤ s.pc.afterFinalize
  /-- After a call of `stop`, the loop gets on at most four times. -/
  bound : s.stopped = true → ∀ later, tally (step l) (advances l) s later ≤ 4
  /-- It may always get on then, unless it polls or has ended. -/
  ready : s.stopped = true → s.pc ≠ .polling → s.pc ≠ .exited → advances l s .go = 1
  /-- After finalization has begun, the loop gets on at most six times. -/
  boundFinalizing : s.finalizing = true → ∀ later, tally (step l) (advances l) s later ≤ 6
  /-- It may always get on then, unless it polls, or has ended; where it waits, at the latest when
  the interval is over. -/
  readyFinalizing : s.finalizing = true → s.pc ≠ .polling → s.pc ≠ .exited →
    advances l s (if s.pc = .waiting then .timeout else .go) = 1
  /-- It ends only when it is stopped, the interpreter finalizes, or an exception ends it, and does
  nothing any more. -/
  exit : s.pc = .exited → (s.stopped = true ∨ s.finalizing = true ∨ s.died = true) ∧ ∀ later,
    (run (step l) s later).pc = .exited ∧ (run (step l) s later).poll = s.poll

/-- A thread that has ended does nothing any more. -/
theorem step_exited (hpc : s.pc = .exited) (event : Event β) :
    (step l s event).pc = .exited ∧ (step l s event).poll = s.poll := by
  cases event with
  | stop | finalize => exact ⟨hpc, rfl⟩
  | go =>
    rw [step, Thread.go, hpc]
    exact ⟨hpc, rfl⟩
  | work b =>
    rw [step, if_neg (by rw [hpc]; decide)]
    exact ⟨hpc, rfl⟩
  | timeout =>
    rw [step, if_neg (by rw [hpc]; decide)]
    exact ⟨hpc, rfl⟩
  | raised =>
    rw [step, if_neg (by rw [hpc]; exact nofun)]
    exact ⟨hpc, rfl⟩
  | overflow =>
    rw [step, if_neg (by rw [hpc]; exact nofun)]
    exact ⟨hpc, rfl⟩

/-- The loop ends only when its event is set, the interpreter finalizes, or an exception ends it. -/
theorem exited_step
    (h : s.pc = .exited → s.stopped = true ∨ s.finalizing = true ∨ s.died = true)
    (event : Event β) (hexited : (step l s event).pc = .exited) :
    (step l s event).stopped = true ∨ (step l s event).finalizing = true ∨
      (step l s event).died = true := by
  obtain ⟨hstopped, hfinalizing, hdied⟩ := flags_step (l := l) s event
  by_cases hpc : s.pc = .exited
  · exact (h hpc).imp hstopped (Or.imp hfinalizing hdied)
  cases event with
  | stop | finalize => exact absurd hexited hpc
  | go =>
    rw [step, Thread.go] at hexited ⊢
    cases hat : s.pc with
    | guarded =>
      -- The only way out at this test is that the interpreter finalizes.
      by_cases hflag : s.finalizing = true
      · exact .inr (.inl hflag)
      · simp [hat, hflag] at hexited
    | top | polled | waiting =>
      -- The `while` test and the result of `wait`, where the event must be set.
      by_cases hflag : s.stopped = true
      · exact .inl hflag
      · simp [hat, hflag] at hexited
    | cleared => simp [hat] at hexited
    | polling => simp [hat] at hexited
    | exited => exact absurd hat hpc
  | work b =>
    rw [step] at hexited
    split_ifs at hexited
    · dsimp only at hexited
      split_ifs at hexited
    · exact absurd hexited hpc
  | timeout =>
    rw [step] at hexited
    split_ifs at hexited
    exact absurd hexited hpc
  | raised =>
    rw [step] at hexited ⊢
    split_ifs at hexited ⊢
    · exact .inr (.inr rfl)
    · exact absurd hexited hpc
  | overflow =>
    rw [step] at hexited ⊢
    split_ifs at hexited ⊢
    · exact .inr (.inr rfl)
    · exact absurd hexited hpc

/-- How a thread stops, after any run. -/
theorem thread_stops (poll : μ) (events : List (Event β)) :
    Stops l (run (step l) (started poll) events) := by
  have hexited : (run (step l) (started poll) events).pc = .exited →
      (run (step l) (started poll) events).stopped = true ∨
        (run (step l) (started poll) events).finalizing = true ∨
        (run (step l) (started poll) events).died = true := by
    refine Lib.invariant_run (I := fun s : Thread μ => s.pc = .exited →
      s.stopped = true ∨ s.finalizing = true ∨ s.died = true) ?_ ?_ events
    · exact fun s event h => exited_step h event
    · intro hpc
      cases hpc
  -- The rest holds from any state on in which the loop has ended for one of the reasons.
  generalize run (step l) (started poll) events = s at hexited ⊢
  refine ⟨?_, ?_, ?_, ?_, ?_, ?_, ?_⟩
  · intro hstopped later
    exact Lib.tally_le (I := fun s : Thread μ => s.stopped = true) (fun s => s.pc.afterStop)
      (fun s event => (flags_step s event).1) (fun s event h => begun_afterStop h event) hstopped
      later
  · intro hfinalizing later
    exact Lib.tally_le (I := fun s : Thread μ => s.finalizing = true)
      (fun s => s.pc.afterFinalize) (fun s event => (flags_step s event).2.1)
      (fun s event h => begun_afterFinalize h event) hfinalizing later
  · intro hstopped later
    have hle : tally (step l) (advances l) s later ≤ s.pc.rank :=
      Lib.tally_le (I := fun s : Thread μ => s.stopped = true) (fun s => s.pc.rank)
        (fun s event => (flags_step s event).1) (fun s event h => advances_rank h event) hstopped
        later
    refine hle.trans ?_
    cases s.pc <;> decide
  · -- Elsewhere the loop has a step of its own, and the event is set, so that no wait blocks.
    intro hstopped hpolling hpc
    unfold advances
    rw [step, Thread.go, hstopped]
    cases hat : s.pc with
    | guarded =>
      by_cases hfinalizing : s.finalizing = true <;> simp [hfinalizing]
    | top | cleared | polled | waiting => simp
    | polling => exact absurd hat hpolling
    | exited => exact absurd hat hpc
  · intro hfinalizing later
    have hle : tally (step l) (advances l) s later ≤ s.pc.rankFinalizing :=
      Lib.tally_le (I := fun s : Thread μ => s.finalizing = true) (fun s => s.pc.rankFinalizing)
        (fun s event => (flags_step s event).2.1)
        (fun s event h => advances_rankFinalizing h event) hfinalizing later
    refine hle.trans ?_
    cases s.pc <;> decide
  · -- The event may still be unset, so that a wait takes its whole interval.
    intro hfinalizing hpolling hpc
    by_cases hwaiting : s.pc = .waiting
    · rw [if_pos hwaiting, advances, step, if_pos hwaiting, hwaiting]
      rfl
    · rw [if_neg hwaiting, advances, step, Thread.go, hfinalizing]
      cases hat : s.pc with
      | top | polled =>
        by_cases hstopped : s.stopped = true <;> simp [hstopped]
      | guarded | cleared => simp
      | waiting => exact absurd hat hwaiting
      | polling => exact absurd hat hpolling
      | exited => exact absurd hat hpc
  · intro hpc
    refine ⟨hexited hpc, ?_⟩
    intro later
    refine Lib.invariant_run (I := fun s' : Thread μ => s'.pc = .exited ∧ s'.poll = s.poll)
      ?_ ⟨hpc, rfl⟩ later
    rintro s' event ⟨hpc', hpoll⟩
    exact ⟨(step_exited hpc' event).1, (step_exited hpc' event).2.trans hpoll⟩

end Thread

/-! ## The pollers -/

/-- One step of `_poll`: the callbacks have returned, or one of them has raised; or the next call
that writes a gauge. -/
inductive Work where
  | returned (callbacks : Family → Except Exn Result)
  | write

/-- Where the `_poll` of `track_queue` is. -/
inductive QueuePc where
  | polling
  /-- At the call of `set`, after the one of `labels`. -/
  | labelled (depth : ℤ)
deriving DecidableEq, Repr

/-- The `_poll` of `track_queue`, where it runs, with what it reads and changes. -/
structure QueuePoll where
  pc : Option QueuePc
  poller : Poller Exn

section Pollers

variable (service name : String) (waiting : Bool)

/-- The `_poll` of `track_queue`, step by step. -/
def QueuePoll.work (m : QueuePoll) : Work → QueuePoll
  | .returned callbacks =>
    if m.pc = some .polling then
      let t := queueTracker service name
      match (callbacks .queueDepth).bind Result.toInt with
      | .error e => ⟨none, m.poller.fail t e⟩
      | .ok depth =>
        ⟨some (.labelled depth),
          { m.poller with gauges := m.poller.gauges.touch (t.gaugeKey .queueDepth) (.int 0) }⟩
    else m
  | .write =>
    match m.pc with
    | some (.labelled depth) =>
      let key := (queueTracker service name).gaugeKey .queueDepth
      match floatOfInt depth with
      | .ok value => ⟨none, { m.poller with gauges := m.poller.gauges.set key value }⟩
      | .error _ => ⟨none, { m.poller with log := m.poller.log ++ [.setFailed] }⟩
    | some .polling | none => m

/-- The tracker of `track_pool`. -/
def poolTracker : Tracker := ⟨.pool, service, name⟩

/-- What a poll of a pool makes of the callbacks. -/
def poolRead (callbacks : Family → Except Exn Result) (g : Family) : Except Exn F64 :=
  (callbacks g).bind Result.toFloat

/-- The `_poll` of `track_pool`, step by step. -/
def poolWork (m : Machine Exn) : Work → Machine Exn
  | .returned callbacks =>
    if m.tick = some .polling then
      m.poll (poolTracker service name) (poolSources waiting) (poolRead callbacks)
    else m
  | .write => m.publish (poolTracker service name)

/-- The `_poll` of `track_queue` as one of a thread. -/
def queueLoop : Loop QueuePoll Work where
  call m := { m with pc := some .polling }
  body := QueuePoll.work service name
  running m := m.pc.isSome
  calling m := m.pc = some .polling
  abort m := { m with pc := none }
  running_call _ := rfl
  running_abort _ := rfl

/-- The `_poll` of `track_pool` as one of a thread. -/
def poolLoop : Loop (Machine Exn) Work where
  call m := { m with tick := some .polling }
  body := poolWork service name waiting
  running m := m.tick.isSome
  calling m := m.tick = some .polling
  abort m := { m with tick := none }
  running_call _ := rfl
  running_abort _ := rfl

end Pollers

/-- What the callbacks gave in a step. -/
def polled {μ : Type} (l : Loop μ Work) (s : Thread μ) :
    Event Work → List (Family → Except Exn Result)
  | .work (.returned callbacks) => if s.pc = .polling ∧ l.calling s.poll then [callbacks] else []
  | .work .write | .stop | .finalize | .go | .timeout | .raised | .overflow => []

/-- A step of the loop leaves what its `_poll` reads and changes, or calls it. -/
theorem poll_go {μ β : Type} {l : Loop μ β} (s : Thread μ) :
    (s.go l).poll = s.poll ∨ s.pc = .cleared ∧ (s.go l).poll = l.call s.poll := by
  unfold Thread.go
  cases hpc : s.pc with
  | cleared => exact .inr ⟨rfl, rfl⟩
  | top | guarded | polling | polled | waiting | exited => exact .inl rfl

/-- The check of an interval; a `bool` is no number there. -/
def checkInterval {𝕜 : Type} [Field 𝕜] [LinearOrder 𝕜] (message : String) :
    Value 𝕜 → Except (Raised 𝕜) { w : 𝕜 // 0 < w }
  | .bool b => .error (.valueError message (.bool b))
  | v => checkPositive message v

/-- `track_queue`, with the service that is set: the service and the thread of the poller. -/
def trackQueue {𝕜 : Type} [Field 𝕜] [LinearOrder 𝕜] (service : Option String) (interval : Value 𝕜)
    (p : Poller Exn) : Except (Raised 𝕜) (String × Thread QueuePoll) := do
  let _ ← checkInterval
    "track_queue: interval must be a positive finite number of seconds, got " interval
  let service ← getService service
  return (service, started ⟨none, p⟩)

/-- `track_pool`, with the service that is set: the service and the thread of the poller, which
finds the maximum of the pool in its gauge, if one is given. -/
def trackPool {𝕜 : Type} [Field 𝕜] [LinearOrder 𝕜] (service : Option String) (name : String)
    (interval : Value 𝕜) (maxSize : Option ℤ) (p : Poller Exn) :
    Except (Raised 𝕜) (String × Thread (Machine Exn)) := do
  let _ ← checkInterval
    "track_pool: interval must be a positive finite number of seconds, got " interval
  let service ← getService service
  match maxSize with
  | none => return (service, started ⟨none, p⟩)
  | some size =>
    match floatOfInt size with
    | .ok value =>
      let key := (poolTracker service name).gaugeKey .poolMax
      return (service, started ⟨none, { p with gauges := p.gauges.set key value }⟩)
    | .error _ => throw .overflowError

/-! ## Runs of the pollers -/

section Runs

variable {service name : String} {waiting : Bool} {p : Poller Exn}

/-- What a poller shows: what the whole polls leave, between them, and what a scrape finds at any
moment; and how its thread stops. -/
structure PoolPolls (service name : String) (waiting : Bool) (p : Poller Exn)
    (s : Thread (Machine Exn)) (calls : List (Family → Except Exn Result)) : Prop where
  whole : s.pc ≠ .polling → s.poll.poller =
    run (fun p callbacks => trackPoolPoll service name waiting callbacks p) p calls
  seen : Seen (poolTracker service name) (poolSources waiting) p
    (calls.map poolRead) s.poll
  stops : Stops (poolLoop service name waiting) s

/-- The thread of a pool, after its callbacks gave `calls`. -/
structure PoolInv (service name : String) (waiting : Bool) (p : Poller Exn)
    (s : Thread (Machine Exn)) (calls : List (Family → Except Exn Result)) : Prop where
  coupled : Coupled (poolLoop service name waiting) s
  machine : s.poll.Inv (poolTracker service name) (poolSources waiting) p (calls.map poolRead)

/-- Every step of the thread of a pool keeps the invariant. -/
theorem PoolInv.step {s : Thread (Machine Exn)} {calls : List (Family → Except Exn Result)}
    (h : PoolInv service name waiting p s calls) (event : Event Work) :
    PoolInv service name waiting p (step (poolLoop service name waiting) s event)
      (calls ++ polled (poolLoop service name waiting) s event) := by
  refine ⟨coupled_step h.coupled event, ?_⟩
  cases event with
  | stop | finalize =>
    rw [polled, List.append_nil]
    exact h.machine
  | timeout =>
    rw [polled, List.append_nil, PollerThread.step]
    split_ifs <;> exact h.machine
  | raised =>
    rw [polled, List.append_nil, PollerThread.step]
    split_ifs with hcalling
    · exact h.machine.abort (of_decide_eq_true hcalling.2)
    · exact h.machine
  | overflow =>
    rw [polled, List.append_nil, PollerThread.step]
    split_ifs <;> exact h.machine
  | go =>
    rw [polled, List.append_nil]
    show (s.go _).poll.Inv _ _ _ _
    rcases poll_go s with hpoll | ⟨hpc, hpoll⟩
    · rw [hpoll]
      exact h.machine
    · rw [hpoll]
      refine h.machine.begin ?_
      -- The loop is not in a poll as it calls one.
      have hidle : ¬s.poll.tick.isSome = true := by
        intro hrunning
        exact absurd (hpc.symm.trans (h.coupled.mp hrunning)) (by decide)
      simpa using hidle
  | work w =>
    rw [PollerThread.step]
    by_cases hpolling : s.pc = .polling
    · rw [if_pos hpolling]
      cases w with
      | returned callbacks =>
        rw [polled]
        show (poolWork service name waiting s.poll (.returned callbacks)).Inv _ _ _ _
        rw [poolWork]
        by_cases htick : s.poll.tick = some .polling
        · rw [if_pos htick, if_pos ⟨hpolling, decide_eq_true htick⟩, List.map_append]
          exact h.machine.poll htick _
        · rw [if_neg htick, if_neg fun hready => htick (of_decide_eq_true hready.2),
            List.append_nil]
          exact h.machine
      | write =>
        rw [polled, List.append_nil]
        exact h.machine.publish
    · rw [if_neg hpolling]
      cases w with
      | returned callbacks =>
        rw [polled, if_neg (fun hready => hpolling hready.1), List.append_nil]
        exact h.machine
      | write =>
        rw [polled, List.append_nil]
        exact h.machine

/-- A pool that is accepted starts its thread, under the service that is set. -/
theorem started_of_trackPool {𝕜 : Type} [Field 𝕜] [LinearOrder 𝕜] {set : Option String}
    {interval : Value 𝕜} {maxSize : Option ℤ} {s : Thread (Machine Exn)}
    (h : trackPool set name interval maxSize p = .ok (service, s)) :
    ∃ p', s = started ⟨none, p'⟩ := by
  obtain ⟨interval, -, h⟩ := ok_of_bind h
  obtain ⟨service', -, h⟩ := ok_of_bind h
  cases maxSize with
  | none =>
    obtain ⟨-, rfl⟩ := Prod.mk.inj (Except.ok.inj h)
    exact ⟨_, rfl⟩
  | some size =>
    dsimp only at h
    cases hsize : floatOfInt size with
    | ok value =>
      rw [hsize] at h
      obtain ⟨-, rfl⟩ := Prod.mk.inj (Except.ok.inj h)
      exact ⟨_, rfl⟩
    | error e =>
      rw [hsize] at h
      cases h

/-- What the whole polls of a queue leave. -/
def queuePolled (service name : String) (p : Poller Exn)
    (calls : List (Family → Except Exn Result)) : Poller Exn :=
  run (fun p callbacks => trackQueuePoll service name (callbacks .queueDepth) p) p calls

/-- A queue's `_poll` that started with `p`, after its callback gave these results. -/
inductive QueuePoll.Inv (service name : String) (p : Poller Exn) :
    List (Family → Except Exn Result) → QueuePoll → Prop where
  | whole {calls : List (Family → Except Exn Result)} {pc : Option QueuePc}
      (hpc : pc = none ∨ pc = some .polling) :
      Inv service name p calls ⟨pc, queuePolled service name p calls⟩
  /-- The gauge has its child, and the depth is yet to be set. -/
  | labelled {before : List (Family → Except Exn Result)}
      {callbacks : Family → Except Exn Result} {depth : ℤ}
      (hdepth : (callbacks .queueDepth).bind Result.toInt = .ok depth) :
      Inv service name p (before ++ [callbacks])
        ⟨some (.labelled depth),
          { queuePolled service name p before with
            gauges := (queuePolled service name p before).gauges.touch
              ((queueTracker service name).gaugeKey .queueDepth) (.int 0) }⟩

/-- What a queue shows: what the whole polls leave, between them, and what a scrape finds at any
moment; and how its thread stops. -/
structure QueuePolls (service name : String) (p : Poller Exn) (s : Thread QueuePoll)
    (calls : List (Family → Except Exn Result)) : Prop where
  whole : s.pc ≠ .polling → s.poll.poller = queuePolled service name p calls
  errors : s.poll.poller.collectorErrors = (queuePolled service name p calls).collectorErrors
  /-- The gauge shows what it shows after the last whole poll or after the one before, or it has
  just been created. -/
  seen : ∃ before, before <+: calls ∧ calls.length ≤ before.length + 1 ∧
    let key := (queueTracker service name).gaugeKey .queueDepth
    (s.poll.poller.gauges key = (queuePolled service name p calls).gauges key ∨
      s.poll.poller.gauges key = (queuePolled service name p before).gauges key ∨
      (queuePolled service name p before).gauges key = none ∧
        s.poll.poller.gauges key = some (.int 0))
  stops : Stops (queueLoop service name) s

variable {m : QueuePoll} {calls : List (Family → Except Exn Result)}

/-- The last result is the last whole poll. -/
theorem queuePolled_concat (before : List (Family → Except Exn Result))
    (callbacks : Family → Except Exn Result) :
    queuePolled service name p (before ++ [callbacks]) =
      trackQueuePoll service name (callbacks .queueDepth) (queuePolled service name p before) :=
  Lib.run_concat ..

/-- The callback of a queue gives a result. -/
theorem QueuePoll.Inv.returned (h : m.Inv service name p calls) (hm : m.pc = some .polling)
    (callbacks : Family → Except Exn Result) :
    (m.work service name (.returned callbacks)).Inv service name p (calls ++ [callbacks]) := by
  cases h with
  | labelled hdepth => cases hm
  | whole hpc =>
    rw [QueuePoll.work, if_pos hm]
    have hpoll : queuePolled service name p (calls ++ [callbacks]) = _ :=
      queuePolled_concat calls callbacks
    unfold trackQueuePoll at hpoll
    cases hdepth : (callbacks .queueDepth).bind Result.toInt with
    | error e =>
      rw [hdepth] at hpoll
      dsimp only at hpoll ⊢
      rw [← hpoll]
      exact .whole (.inl rfl)
    | ok depth => exact .labelled hdepth

/-- The depth of a queue is set, or it has no float. -/
theorem QueuePoll.Inv.write (h : m.Inv service name p calls) :
    (m.work service name .write).Inv service name p calls := by
  cases h with
  | whole hpc => rcases hpc with rfl | rfl <;> exact .whole (by simp)
  | @labelled before callbacks depth hdepth =>
    have hpoll : queuePolled service name p (before ++ [callbacks]) = _ :=
      queuePolled_concat before callbacks
    unfold trackQueuePoll at hpoll
    rw [hdepth] at hpoll
    rw [QueuePoll.work]
    dsimp only at hpoll ⊢
    cases hvalue : floatOfInt depth with
    | ok value =>
      rw [hvalue] at hpoll
      dsimp only at hpoll ⊢
      rw [Store.set_touch] at hpoll
      rw [Store.set_touch, ← hpoll]
      exact .whole (.inl rfl)
    | error e =>
      rw [hvalue] at hpoll
      dsimp only at hpoll ⊢
      rw [← hpoll]
      exact .whole (.inl rfl)

/-- An exception that a callback raises leaves the samples. -/
theorem QueuePoll.Inv.abort (h : m.Inv service name p calls) (hm : m.pc = some .polling) :
    QueuePoll.Inv service name p calls { m with pc := none } := by
  cases h with
  | whole hpc => exact .whole (.inl rfl)
  | labelled hdepth => cases hm

/-- What a scrape finds at any moment. -/
theorem QueuePoll.Inv.seen (h : m.Inv service name p calls) :
    ∃ before, before <+: calls ∧ calls.length ≤ before.length + 1 ∧
      let key := (queueTracker service name).gaugeKey .queueDepth
      (m.poller.gauges key = (queuePolled service name p calls).gauges key ∨
        m.poller.gauges key = (queuePolled service name p before).gauges key ∨
        (queuePolled service name p before).gauges key = none ∧
          m.poller.gauges key = some (.int 0)) := by
  cases h with
  | whole hpc => exact ⟨calls, List.prefix_rfl, Nat.le_succ _, .inl rfl⟩
  | @labelled before callbacks depth hdepth =>
    refine ⟨before, List.prefix_append _ _, by simp, .inr ?_⟩
    dsimp only
    rw [Store.touch, Function.update_self]
    cases hbefore : (queuePolled service name p before).gauges
        ((queueTracker service name).gaugeKey .queueDepth) with
    | none => exact .inr ⟨rfl, rfl⟩
    | some value => exact .inl rfl

/-- A failure of the callback is counted as it is returned. -/
theorem QueuePoll.Inv.errors (h : m.Inv service name p calls) :
    m.poller.collectorErrors = (queuePolled service name p calls).collectorErrors := by
  cases h with
  | whole hpc => rfl
  | @labelled before callbacks depth hdepth =>
    rw [queuePolled_concat, trackQueuePoll, hdepth]
    dsimp only
    cases floatOfInt depth <;> rfl

/-- The thread of a queue, after its callback gave these results. -/
structure QueueInv (service name : String) (p : Poller Exn) (s : Thread QueuePoll)
    (calls : List (Family → Except Exn Result)) : Prop where
  coupled : Coupled (queueLoop service name) s
  poll : s.poll.Inv service name p calls

/-- Every step of the thread of a queue keeps the invariant. -/
theorem QueueInv.step {s : Thread QueuePoll} (h : QueueInv service name p s calls)
    (event : Event Work) :
    QueueInv service name p (step (queueLoop service name) s event)
      (calls ++ polled (queueLoop service name) s event) := by
  refine ⟨coupled_step h.coupled event, ?_⟩
  cases event with
  | stop | finalize =>
    rw [polled, List.append_nil]
    exact h.poll
  | timeout =>
    rw [polled, List.append_nil, PollerThread.step]
    split_ifs <;> exact h.poll
  | raised =>
    rw [polled, List.append_nil, PollerThread.step]
    split_ifs with hcalling
    · exact h.poll.abort (of_decide_eq_true hcalling.2)
    · exact h.poll
  | overflow =>
    rw [polled, List.append_nil, PollerThread.step]
    split_ifs <;> exact h.poll
  | go =>
    rw [polled, List.append_nil]
    show (s.go _).poll.Inv _ _ _ _
    rcases poll_go s with hpoll | ⟨hpc, hpoll⟩
    · rw [hpoll]
      exact h.poll
    · rw [hpoll]
      -- The loop is not in a poll as it calls one.
      have hidle : ¬s.poll.pc.isSome = true := by
        intro hrunning
        exact absurd (hpc.symm.trans (h.coupled.mp hrunning)) (by decide)
      have hpoll := h.poll
      generalize s.poll = m at hidle hpoll
      cases hpoll with
      | whole hpc => exact .whole (.inr rfl)
      | labelled hdepth => exact absurd rfl hidle
  | work w =>
    rw [PollerThread.step]
    by_cases hpolling : s.pc = .polling
    · rw [if_pos hpolling]
      cases w with
      | returned callbacks =>
        rw [polled]
        by_cases hpc : s.poll.pc = some .polling
        · rw [if_pos ⟨hpolling, decide_eq_true hpc⟩]
          exact h.poll.returned hpc callbacks
        · rw [if_neg fun hready => hpc (of_decide_eq_true hready.2), List.append_nil]
          show (QueuePoll.work service name s.poll (.returned callbacks)).Inv _ _ _ _
          rw [QueuePoll.work, if_neg hpc]
          exact h.poll
      | write =>
        rw [polled, List.append_nil]
        exact h.poll.write
    · rw [if_neg hpolling]
      cases w with
      | returned callbacks =>
        rw [polled, if_neg (fun hready => hpolling hready.1), List.append_nil]
        exact h.poll
      | write =>
        rw [polled, List.append_nil]
        exact h.poll

/-- A queue that is accepted starts its thread. -/
theorem started_of_trackQueue {𝕜 : Type} [Field 𝕜] [LinearOrder 𝕜] {set : Option String}
    {interval : Value 𝕜} {s : Thread QueuePoll}
    (h : trackQueue set interval p = .ok (service, s)) : s = started ⟨none, p⟩ := by
  obtain ⟨interval, -, h⟩ := ok_of_bind h
  obtain ⟨service', -, h⟩ := ok_of_bind h
  exact (Prod.mk.inj (Except.ok.inj h)).2.symm

/-- `track_queue`, whatever its thread, the interpreter and any number of callers of `stop` do, in
any order. -/
theorem queue_polls {𝕜 : Type} [Field 𝕜] [LinearOrder 𝕜] {set : Option String}
    {interval : Value 𝕜} {s : Thread QueuePoll}
    (h : trackQueue set interval p = .ok (service, s)) (name : String)
    (events : List (Event Work)) :
    let l := queueLoop service name
    QueuePolls service name p (run (step l) s events) (trace (step l) (polled l) s events) := by
  intro l
  obtain rfl := started_of_trackQueue h
  have hstart : QueueInv service name p (started ⟨none, p⟩) [] :=
    ⟨by simp [Coupled, started, queueLoop], .whole (.inl rfl)⟩
  obtain ⟨hcoupled, hpoll⟩ := Lib.invariant_trace (fun _ event _ h => h.step event) hstart events
  have hstops : Stops l (run (step l) (started ⟨none, p⟩) events) := thread_stops _ events
  generalize trace (step l) _ _ events = calls at hpoll ⊢
  generalize run (step l) _ events = s at hcoupled hpoll hstops ⊢
  refine ⟨?_, hpoll.errors, hpoll.seen, hstops⟩
  · intro hpc
    have hidle : ¬s.poll.pc.isSome = true := fun hrunning => hpc (hcoupled.mp hrunning)
    generalize s.poll = m at hidle hpoll
    cases hpoll with
    | whole hpc => rfl
    | labelled hdepth => exact absurd rfl hidle

/-- A queue that is polled every five seconds is accepted. -/
theorem queue_polls_jobs :
    ∃ s, trackQueue (some "portal") (.int 5 : Value ℚ) .empty = .ok ("portal", s) ∧
      ∀ events, let l := queueLoop "portal" "jobs"
        QueuePolls "portal" "jobs" .empty (run (step l) s events)
          (trace (step l) (polled l) s events) := by
  obtain ⟨⟨service, s⟩, haccepted, rfl⟩ := ok_of_map (f := Prod.fst) (b := "portal")
    (x := trackQueue (some "portal") (.int 5 : Value ℚ) .empty) (by decide +kernel)
  exact ⟨s, haccepted, fun events => queue_polls haccepted "jobs" events⟩

end Runs

end SimsysMetrics.Python.PollerThread
