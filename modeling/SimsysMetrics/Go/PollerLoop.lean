import SimsysMetrics.Lib.Once
import SimsysMetrics.Lib.Potential
import SimsysMetrics.PollerTicks

/-!
# The goroutine of a Go poller

`TrackQueue` and `TrackPool` of `go/baseline.go` launch a goroutine that ticks once and then selects
between its ticker, the channel `done` and the context. The returned `stop` closes `done` in a
`sync.Once`, and any goroutines may call it, any number of times and at the same time.

To the goroutine, a cancelled context and a closed `done` are the same request (`requested_run`).
`select` takes any case that is ready, so after a request it may still receive firings of its
ticker. Each tick but the first takes a firing of its own, and the ticker keeps at most one; so
after a request at most one tick more begins than the ticker fires from then on
(`Disciplined.late`).
-/

namespace SimsysMetrics.Go.PollerLoop

open PollerTicks
open Lib (F64 Once OnceEvent run trace tally)

/-- What a poller tracks. -/
inductive Tracked where
  | queue (service name : String)
  | pool (service name : String) (waiting : Bool) (max : Int64)
deriving DecidableEq, Repr

/-- The tracker of a poller. -/
def Tracked.tracker : Tracked → Tracker
  | .queue service name => ⟨.queue, service, name⟩
  | .pool service name _ _ => ⟨.pool, service, name⟩

/-- The gauges that a tick writes. -/
def Tracked.sources : Tracked → List Family
  | .queue _ _ => [.queueDepth]
  | .pool _ _ waiting _ => poolSources waiting

/-- What a tick makes of the callbacks. -/
def Tracked.read {ε : Type} (callbacks : Family → Except ε Int64) : Tracked → Family → Except ε F64
  | .queue _ _ => fun g => (callbacks g).map fun depth => float64 (if depth < 0 then 0 else depth)
  | .pool _ _ _ _ => fun g => (callbacks g).map fun n => float64 (max 0 n)

/-- The `tick` of `TrackQueue` or `TrackPool`, as a whole. -/
def Tracked.tick {ε : Type} (callbacks : Family → Except ε Int64) (p : Poller ε) :
    Tracked → Poller ε
  | .queue service name => trackQueueTick service name (callbacks .queueDepth) p
  | .pool service name waiting _ => trackPoolTick service name waiting callbacks p

/-- The goroutine of a poller, with its ticker. -/
structure Goroutine (ε : Type) where
  /-- `ticker.C` has a firing, of which it keeps one. -/
  fired : Bool
  /-- The goroutine has returned, and stopped its ticker. -/
  exited : Bool
  /-- The tick of the goroutine; where there is none, it is at its `select`, or has returned. -/
  machine : Machine ε

/-- What the ticker does, or the goroutine. -/
inductive Move (ε : Type) where
  | fire
  /-- `select` receives from `ticker.C`. -/
  | receive
  /-- `select` receives from `done` or from `ctx.Done()`. -/
  | leave
  /-- The callbacks have returned, or one of them has panicked. -/
  | poll (callbacks : Family → Except ε Int64)
  | publish

/-- A poller: its `stopOnce` with the calls of `stop`, its channels, and its goroutine. -/
structure Loop (ε : Type) where
  stopOnce : Once Unit Unit
  /-- `done` is closed. -/
  closed : Bool
  /-- A call of `stop` closed `done` when it was closed. -/
  panicked : Bool
  /-- `ctx.Done()` is closed. -/
  cancelled : Bool
  goroutine : Goroutine ε

/-- One step: of a call of `stop`, of the context, or of the goroutine. -/
inductive Event (ε : Type) where
  | stop (event : OnceEvent Unit)
  | cancel
  | goroutine (move : Move ε)

section Loop

variable {ε : Type} (k : Tracked)

/-- The goroutine is at its `select`. -/
def Goroutine.Selecting (g : Goroutine ε) : Prop := g.machine.tick = none ∧ g.exited = false

instance (g : Goroutine ε) : Decidable g.Selecting :=
  inferInstanceAs (Decidable (_ ∧ _))

/-- A move where the goroutine is requested to stop or not. A case of `select` that is not ready
changes nothing. -/
def Goroutine.step (requested : Bool) (g : Goroutine ε) : Move ε → Goroutine ε
  | .fire => if g.exited then g else { g with fired := true }
  | .receive =>
    if g.Selecting ∧ g.fired then
      { g with fired := false, machine := { g.machine with tick := some .polling } }
    else g
  | .leave => if g.Selecting ∧ requested then { g with exited := true } else g
  | .poll callbacks =>
    if g.machine.tick = some .polling then
      { g with machine := g.machine.poll k.tracker k.sources (k.read callbacks) }
    else g
  | .publish => { g with machine := g.machine.publish k.tracker }

/-- What `stop` does in its `stopOnce.Do`. -/
def closeDone (_ : Unit) : List Unit := [()]

/-- `close(done)`. -/
def Loop.close (s : Loop ε) : Loop ε :=
  if s.closed then { s with panicked := true } else { s with closed := true }

/-- The goroutine was requested to stop. -/
def Loop.requested (s : Loop ε) : Bool := s.closed || s.cancelled

/-- One step of a poller. -/
def step (s : Loop ε) : Event ε → Loop ε
  | .stop event =>
    (s.stopOnce.emit closeDone event).foldl (fun s _ => s.close)
      { s with stopOnce := s.stopOnce.step closeDone event }
  | .cancel => { s with cancelled := true }
  | .goroutine move => { s with goroutine := s.goroutine.step k s.requested move }

/-- A poller whose goroutine begins its first tick. -/
def launch (p : Poller ε) : Loop ε :=
  ⟨.fresh, false, false, false, false, false, ⟨some .polling, p⟩⟩

/-- The name of the function that tracks. -/
def Tracked.function : Tracked → String
  | .queue _ _ => "TrackQueue"
  | .pool _ _ _ _ => "TrackPool"

/-- `poolMax` is set for a pool whose `Max` is positive. -/
def Tracked.setMax (p : Poller ε) : Tracked → Poller ε
  | .queue _ _ => p
  | .pool service name _ max =>
    if 0 < max then
      { p with
        gauges := p.gauges.set ((⟨.pool, service, name⟩ : Tracker).gaugeKey .poolMax)
          (float64 max) }
    else p

/-- `TrackQueue` and `TrackPool`: an interval that is not positive panics, with its text in the
message. -/
def track (durationText : Int64 → String) (interval : Int64) (p : Poller ε) :
    Except String (Loop ε) :=
  if interval ≤ 0 then
    .error ("simsys-metrics: " ++ k.function ++ " interval must be > 0, got " ++
      durationText interval)
  else .ok (launch (k.setMax p))

/-- What the callbacks gave in a step. -/
def polled (s : Loop ε) : Event ε → List (Family → Except ε Int64)
  | .goroutine (.poll callbacks) =>
    if s.goroutine.machine.tick = some .polling then [callbacks] else []
  | .goroutine .fire | .goroutine .receive | .goroutine .leave | .goroutine .publish => []
  | .stop _ | .cancel => []

/-- The ticks that begin in a step. -/
def begun (s : Loop ε) : Event ε → ℕ
  | .goroutine .receive => if s.goroutine.Selecting ∧ s.goroutine.fired then 1 else 0
  | .goroutine .fire | .goroutine .leave | .goroutine (.poll _) | .goroutine .publish => 0
  | .stop _ | .cancel => 0

/-- The firings of the ticker in a step. -/
def firings (_ : Loop ε) : Event ε → ℕ
  | .goroutine .fire => 1
  | .goroutine .receive | .goroutine .leave | .goroutine (.poll _) | .goroutine .publish => 0
  | .stop _ | .cancel => 0

/-! ## Requests -/

/-- What the goroutine goes by: whether it was requested to stop, and where it is. -/
structure Requested (ε : Type) where
  requested : Bool
  goroutine : Goroutine ε

/-- What happens to the goroutine: a request, or a move. -/
inductive Happening (ε : Type) where
  | request
  | move (move : Move ε)

/-- One step of the goroutine. -/
def Requested.step (s : Requested ε) : Happening ε → Requested ε
  | .request => { s with requested := true }
  | .move move => { s with goroutine := s.goroutine.step k s.requested move }

/-- What the goroutine sees of a poller. -/
def Loop.view (s : Loop ε) : Requested ε := ⟨s.requested, s.goroutine⟩

/-- What the goroutine sees of a step: a cancelled context and a call of `stop` that closes `done`
are the same request, and the other steps of `stop` are nothing to it. -/
def happenings (s : Loop ε) : Event ε → List (Happening ε)
  | .stop event => (s.stopOnce.emit closeDone event).map fun _ => .request
  | .cancel => [.request]
  | .goroutine move => [.move move]

variable {k} {p : Poller ε} {s : Loop ε}

/-- Closing `done` is a request. -/
theorem view_close (s : Loop ε) : s.close.view = { s.view with requested := true } := by
  unfold Loop.close Loop.view Loop.requested
  split_ifs with hclosed
  · simp [hclosed]
  · simp

/-- A step of the poller is what the goroutine sees of it. -/
theorem view_step (s : Loop ε) (event : Event ε) :
    (step k s event).view = run (Requested.step k) s.view (happenings s event) := by
  cases event with
  | stop event =>
    rw [step, happenings]
    generalize s.stopOnce.emit closeDone event = closes
    generalize hstart : { s with stopOnce := s.stopOnce.step closeDone event } = s'
    have hview : s.view = s'.view := by
      rw [← hstart]
      rfl
    rw [hview]
    clear hstart hview
    induction closes generalizing s' with
    | nil => rfl
    | cons close closes ih =>
      rw [List.foldl_cons, ih, view_close]
      rfl
  | cancel => simp [step, Loop.view, Loop.requested, happenings, run, Requested.step]
  | goroutine move => rfl

/-- The goroutine goes by requests: what it does is the same whether they come from `stop`, whose
calls may overlap in any way, or from the context. -/
theorem requested_run (s : Loop ε) (events : List (Event ε)) :
    (run (step k) s events).view =
      run (Requested.step k) s.view
        (trace (step k) happenings s events) := by
  induction events generalizing s with
  | nil => rfl
  | cons event events ih =>
    show (run (step k) (step k s event) events).view = _
    rw [ih, view_step, trace, Lib.run_append]

/-! ## Runs -/

/-- The gauges of a tick are distinct. -/
theorem Tracked.nodup_sources (k : Tracked) : k.sources.Nodup := by
  cases k with
  | queue service name => exact List.nodup_singleton _
  | pool service name waiting max => exact nodup_poolSources waiting

/-- A whole tick reads every callback before it writes any gauge. -/
theorem Tracked.tick_eq (k : Tracked) (callbacks : Family → Except ε Int64) (p : Poller ε) :
    k.tick callbacks p = pollTick k.tracker k.sources (k.read callbacks) p := by
  cases k with
  | pool service name waiting max => rfl
  | queue service name =>
    show pollTick _ [.queueDepth] _ p = pollTick _ [.queueDepth] _ p
    unfold pollTick
    rw [Lib.readAll_cons, Lib.readAll_cons]
    rfl

/-- `stop` closes `done` when its first call gets in, and never again. -/
theorem stopOnce_step {o : Once Unit Unit} (hleft : o.left = []) (event : OnceEvent Unit) :
    (o.step closeDone event).left = [] ∧
      (o.ran = none ∧ o.emit closeDone event = [()] ∧ (o.step closeDone event).ran = some () ∨
        o.emit closeDone event = [] ∧ (o.step closeDone event).ran = o.ran) := by
  cases event with
  | call arg => exact ⟨hleft, .inr ⟨rfl, rfl⟩⟩
  | go i =>
    rw [Once.step, Once.emit]
    cases hcall : o.calls[i]? with
    | none => exact ⟨hleft, .inr ⟨rfl, rfl⟩⟩
    | some call =>
      obtain ⟨arg, pc⟩ := call
      cases hran : o.ran with
      | none =>
        cases pc with
        | arrived => exact ⟨rfl, .inl ⟨rfl, rfl, rfl⟩⟩
        | inside | returned => exact ⟨hleft, .inr ⟨rfl, hran⟩⟩
      | some ran =>
        cases pc with
        | arrived =>
          dsimp only
          rw [if_pos hleft]
          exact ⟨hleft, .inr ⟨rfl, rfl⟩⟩
        | inside =>
          dsimp only
          rw [hleft]
          exact ⟨rfl, .inr ⟨rfl, rfl⟩⟩
        | returned => exact ⟨hleft, .inr ⟨rfl, hran⟩⟩

/-- What holds of a poller that started with `p`, after its callbacks gave `calls`. -/
structure Loop.Inv (k : Tracked) (p : Poller ε) (s : Loop ε)
    (calls : List (Family → Except ε Int64)) : Prop where
  panicked : s.panicked = false
  once : s.stopOnce.Inv closeDone (s.stopOnce.done closeDone)
  left : s.stopOnce.left = []
  closed : s.closed = s.stopOnce.ran.isSome
  exited : s.goroutine.exited = true → s.requested = true ∧ s.goroutine.machine.tick = none
  machine : s.goroutine.machine.Inv k.tracker k.sources p (calls.map k.read)

variable {calls : List (Family → Except ε Int64)}

/-- A step of a call of `stop`. -/
theorem Loop.Inv.stop (h : s.Inv k p calls) (event : OnceEvent Unit) :
    (step k s (.stop event)).Inv k p calls := by
  have honce := h.once.step event
  rw [← honce.done_eq] at honce
  obtain ⟨hleft, ⟨hran, hemit, hclosed⟩ | ⟨hemit, hran⟩⟩ := stopOnce_step h.left event
  · -- The call closes `done`, which is open.
    have hopen : s.closed = false := by
      rw [h.closed, hran]
      rfl
    have hstep : step k s (.stop event) =
        { s with stopOnce := s.stopOnce.step closeDone event, closed := true } := by
      rw [step, hemit, List.foldl_cons, List.foldl_nil, Loop.close]
      simp [hopen]
    rw [hstep]
    refine ⟨h.panicked, honce, hleft, ?_, ?_, h.machine⟩
    · dsimp only
      rw [hclosed]
      rfl
    · intro hexited
      exact ⟨rfl, (h.exited hexited).2⟩
  · rw [step, hemit, List.foldl_nil]
    refine ⟨h.panicked, honce, hleft, ?_, h.exited, h.machine⟩
    dsimp only
    rw [hran]
    exact h.closed

/-- A move of the goroutine. -/
theorem Loop.Inv.goroutine (h : s.Inv k p calls) (move : Move ε) :
    (step k s (.goroutine move)).Inv k p (calls ++ polled s (.goroutine move)) := by
  rw [step]
  cases move with
  | fire =>
    rw [polled, List.append_nil, Goroutine.step]
    split_ifs
    · exact h
    · exact ⟨h.panicked, h.once, h.left, h.closed, h.exited, h.machine⟩
  | receive =>
    -- The `select` chooses the ticker, also where the context has ended already.
    rw [polled, List.append_nil, Goroutine.step]
    split_ifs with hready
    · obtain ⟨⟨htick, hrunning⟩, -⟩ := hready
      refine ⟨h.panicked, h.once, h.left, h.closed, ?_, h.machine.begin htick⟩
      intro hexited
      exact absurd (hrunning.symm.trans hexited) (by decide)
    · exact h
  | leave =>
    -- It chooses the end of the context, which a call of `stop` or the caller has requested.
    rw [polled, List.append_nil, Goroutine.step]
    split_ifs with hready
    · obtain ⟨⟨htick, -⟩, hrequested⟩ := hready
      exact ⟨h.panicked, h.once, h.left, h.closed, fun _ => ⟨hrequested, htick⟩, h.machine⟩
    · exact h
  | poll callbacks =>
    rw [polled, Goroutine.step]
    by_cases htick : s.goroutine.machine.tick = some .polling
    · rw [if_pos htick, if_pos htick]
      refine ⟨h.panicked, h.once, h.left, h.closed, ?_, ?_⟩
      · intro hexited
        exact absurd ((h.exited hexited).2.symm.trans htick) (by simp)
      · rw [List.map_append]
        exact h.machine.poll htick (k.read callbacks)
    · rw [if_neg htick, if_neg htick, List.append_nil]
      exact h
  | publish =>
    rw [polled, List.append_nil, Goroutine.step]
    refine ⟨h.panicked, h.once, h.left, h.closed, ?_, h.machine.publish⟩
    intro hexited
    obtain ⟨hrequested, htick⟩ := h.exited hexited
    refine ⟨hrequested, ?_⟩
    show (s.goroutine.machine.publish k.tracker).tick = none
    rw [Machine.publish, htick]
    exact htick

/-- Every step keeps the invariant. -/
theorem Loop.Inv.step (h : s.Inv k p calls) (event : Event ε) :
    (step k s event).Inv k p (calls ++ polled s event) := by
  cases event with
  | stop event =>
    rw [polled, List.append_nil]
    exact h.stop event
  | cancel =>
    rw [polled, List.append_nil]
    refine ⟨h.panicked, h.once, h.left, h.closed, ?_, h.machine⟩
    intro hexited
    exact ⟨Bool.or_true _, (h.exited hexited).2⟩
  | goroutine move => exact h.goroutine move

/-- An event where `stop` is given up for the context: each closing of `done` is a cancellation. -/
def withCancel (s : Loop ε) : Event ε → List (Event ε)
  | .stop event => (s.stopOnce.emit closeDone event).map fun _ => .cancel
  | .cancel => [.cancel]
  | .goroutine move => [.goroutine move]

/-- A poller in which `stop` is given up for the context leaves the goroutine in the same place. -/
theorem view_withCancel (s : Loop ε) (events : List (Event ε)) :
    (run (step k) s (trace (step k) withCancel s events)).view = (run (step k) s events).view := by
  rw [requested_run, requested_run s events]
  congr 1
  -- Both runs are the same to the goroutine, event by event.
  have hsame : ∀ s' : Loop ε, s'.view = s.view → trace (step k) happenings s'
      (trace (step k) withCancel s events) = trace (step k) happenings s events := by
    induction events generalizing s with
    | nil => exact fun _ _ => rfl
    | cons event events ih =>
      intro s' hview
      rw [trace, Lib.trace_append, trace]
      have hhead : ∀ s' : Loop ε,
          trace (step k) happenings s' (withCancel s event) = happenings s event := by
        intro s'
        cases event with
        | stop event =>
          rw [withCancel, happenings]
          generalize s.stopOnce.emit closeDone event = closes
          induction closes generalizing s' with
          | nil => rfl
          | cons close closes ih => exact congrArg (_ :: ·) (ih _)
        | cancel => rfl
        | goroutine move => rfl
      rw [hhead]
      congr 1
      refine ih _ _ ?_
      rw [requested_run, hhead, hview, view_step]
  exact hsame s rfl

/-- A call of `stop` leaves the goroutine. -/
theorem goroutine_stop (s : Loop ε) (event : OnceEvent Unit) :
    (step k s (.stop event)).goroutine = s.goroutine := by
  rw [step]
  refine List.foldlRecOn (motive := fun s' : Loop ε => s'.goroutine = s.goroutine) _ _ rfl ?_
  intro s' hs' _ _
  unfold Loop.close
  split_ifs <;> exact hs'

/-- The potential of a poller: the firing that its ticker keeps. -/
def Loop.kept (s : Loop ε) : ℕ := s.goroutine.fired.toNat

/-- No tick begins without a firing of its own, of which the ticker keeps one. -/
theorem begun_add_le (s : Loop ε) (events : List (Event ε)) :
    tally (step k) begun s events + (run (step k) s events).kept ≤
      s.kept + tally (step k) firings s events := by
  refine Lib.tally_add_le (fun _ => True) Loop.kept (fun _ _ _ => trivial) ?_ trivial events
  intro s event _
  cases event with
  | stop event =>
    show 0 + _ ≤ _
    rw [Loop.kept, Loop.kept, goroutine_stop]
    exact (Nat.zero_add _).le
  | cancel => exact (Nat.zero_add _).le
  | goroutine move =>
    cases move with
    | fire =>
      -- The ticker keeps at most one firing: another one before it is received is dropped.
      have hle := Bool.toNat_le (step k s (.goroutine .fire)).goroutine.fired
      show 0 + _ ≤ _ + 1
      unfold Loop.kept
      omega
    | receive =>
      -- A tick begins, and takes the firing that the ticker kept.
      show begun s (.goroutine .receive) + _ ≤ _
      rw [begun, Loop.kept, Loop.kept, step, Goroutine.step]
      split_ifs with hready
      · simp [hready.2]
      · exact (Nat.zero_add _).le
    | leave =>
      show 0 + _ ≤ _
      rw [Loop.kept, Loop.kept, step, Goroutine.step]
      split_ifs <;> exact (Nat.zero_add _).le
    | poll callbacks =>
      show 0 + _ ≤ _
      rw [Loop.kept, Loop.kept, step, Goroutine.step]
      split_ifs <;> exact (Nat.zero_add _).le
    | publish => exact (Nat.zero_add _).le

/-- Whether the callbacks of a poller run. -/
def Loop.polling (s : Loop ε) : ℕ := if s.goroutine.machine.tick = some .polling then 1 else 0

/-- A tick polls its callbacks once. -/
theorem polled_add_le (s : Loop ε) (events : List (Event ε)) :
    tally (step k) (fun s event => (polled s event).length) s events +
        (run (step k) s events).polling ≤
      s.polling + tally (step k) begun s events := by
  refine Lib.tally_add_le (fun _ => True) Loop.polling (fun _ _ _ => trivial) ?_ trivial events
  intro s event _
  cases event with
  | stop event =>
    show 0 + _ ≤ _
    rw [Loop.polling, Loop.polling, goroutine_stop]
    exact (Nat.zero_add _).le
  | cancel => exact (Nat.zero_add _).le
  | goroutine move =>
    cases move with
    | fire =>
      show 0 + _ ≤ _
      rw [Loop.polling, Loop.polling, step, Goroutine.step]
      split_ifs <;> omega
    | receive =>
      -- The tick that begins is the one whose callbacks run.
      show 0 + _ ≤ _ + begun s (.goroutine .receive)
      rw [begun, Loop.polling, Loop.polling, step, Goroutine.step]
      split_ifs <;> omega
    | leave =>
      show 0 + _ ≤ _
      rw [Loop.polling, Loop.polling, step, Goroutine.step]
      split_ifs <;> omega
    | poll callbacks =>
      show (polled s (.goroutine (.poll callbacks))).length + _ ≤ _
      rw [polled, Loop.polling, Loop.polling, step, Goroutine.step]
      by_cases htick : s.goroutine.machine.tick = some .polling
      · rw [if_pos htick, if_pos htick, if_pos htick, if_neg (Machine.poll_ne_polling _ _)]
        rfl
      · rw [if_neg htick, if_neg htick]
        exact (Nat.zero_add _).le
    | publish =>
      -- A write of a gauge neither begins nor ends the callbacks.
      have hiff := s.goroutine.machine.publish_eq_polling_iff (t := k.tracker)
      show 0 + _ ≤ _
      rw [Loop.polling, Loop.polling, step, Goroutine.step]
      dsimp only
      split_ifs with hafter hbefore
      · exact (Nat.zero_add _).le
      · exact absurd (hiff.mp hafter) hbefore
      · exact Nat.zero_le _
      · exact (Nat.zero_add _).le

/-- A goroutine that has returned does nothing any more. -/
theorem goroutine_run_exited (hexited : s.goroutine.exited = true)
    (htick : s.goroutine.machine.tick = none) (events : List (Event ε)) :
    (run (step k) s events).goroutine = s.goroutine := by
  refine Lib.invariant_run (I := fun s' : Loop ε => s'.goroutine = s.goroutine) ?_ rfl events
  intro s' event hs'
  cases event with
  | stop event => rw [goroutine_stop, hs']
  | cancel => exact hs'
  | goroutine move =>
    rw [← hs'] at hexited htick
    rw [← hs', step]
    cases move with
    | fire => exact if_pos hexited
    | receive | leave =>
      refine if_neg ?_
      rintro ⟨⟨-, hrunning⟩, -⟩
      exact absurd (hrunning.symm.trans hexited) (by decide)
    | poll callbacks =>
      refine if_neg ?_
      rw [htick]
      simp
    | publish =>
      show { s'.goroutine with machine := s'.goroutine.machine.publish k.tracker } = _
      rw [Machine.publish, htick]

/-- What holds of a poller that started with `p` as a registry, after some events in which its
callbacks gave `calls`. -/
structure Disciplined (k : Tracked) (p : Poller ε) (s : Loop ε) (events : List (Event ε))
    (s' : Loop ε) (calls : List (Family → Except ε Int64)) : Prop where
  /-- No call of `stop` closes `done` twice, and one that has returned left it closed. -/
  stop : s'.panicked = false ∧
    ∀ call ∈ s'.stopOnce.calls, call.pc = .returned → s'.closed = true
  /-- Giving up `stop` for the context makes no difference to the goroutine. -/
  cancel : (run (step k) s (trace (step k) withCancel s events)).goroutine = s'.goroutine
  /-- The goroutine returns on request only, and does nothing any more then. -/
  exit : s'.goroutine.exited = true → s'.requested = true ∧
    ∀ later, (run (step k) s' later).goroutine = s'.goroutine
  /-- The callbacks are polled once, and then at most once for each firing. -/
  polls : calls.length ≤ 1 + tally (step k) firings s events
  /-- From now on, at most one tick more begins than the ticker fires. -/
  late : ∀ later,
    tally (step k) begun s' later ≤ 1 + tally (step k) firings s' later
  /-- Between its ticks, the poller is what the whole ticks leave. -/
  whole : s'.goroutine.machine.tick = none →
    s'.goroutine.machine.poller = run (fun p callbacks => k.tick callbacks p) p calls
  /-- What a scrape finds at any moment. -/
  seen : Seen k.tracker k.sources p (calls.map k.read) s'.goroutine.machine

/-- `TrackQueue` and `TrackPool`, whatever their goroutine, their ticker, their context and any
number of calls of `stop` do, in any order. -/
theorem poller_disciplined (k : Tracked) (durationText : Int64 → String) (interval : Int64)
    (p : Poller ε) :
    match track k durationText interval p with
    | .error _ => interval ≤ 0
    | .ok s => ∀ events, Disciplined k (k.setMax p) s events (run (step k) s events)
        (trace (step k) polled s events) := by
  rw [track]
  split_ifs with hinterval
  · exact hinterval
  dsimp only
  intro events
  -- What a pool has set before its goroutine begins is where the poller starts.
  generalize k.setMax p = p
  have hstart : (launch p).Inv k p [] := by
    refine ⟨rfl, Once.inv_fresh, rfl, rfl, ?_, .whole (.inr rfl)⟩
    intro hexited
    cases hexited
  have hinv : (run (step k) (launch p) events).Inv k p (trace (step k) polled (launch p) events) :=
    Lib.invariant_trace (I := Loop.Inv k p) (fun _ event _ h => h.step event) hstart events
  have hpolls := polled_add_le (k := k) (launch p) events
  have hbegun := begun_add_le (k := k) (launch p) events
  refine ⟨⟨hinv.panicked, ?_⟩, ?_, ?_, ?_, ?_, ?_, hinv.machine.seen k.nodup_sources⟩
  · -- A call of `stop` that has returned has had the body of the `sync.Once` run.
    intro call hcall hpc
    rw [hinv.closed]
    cases hran : (run (step k) (launch p) events).stopOnce.ran with
    | some ran => rfl
    | none =>
      have harrived := (hinv.once.unused hran).2.2 call hcall
      cases harrived.symm.trans hpc
  · exact congrArg Requested.goroutine (view_withCancel (launch p) events)
  · intro hexited
    obtain ⟨hrequested, htick⟩ := hinv.exited hexited
    exact ⟨hrequested, goroutine_run_exited hexited htick⟩
  · -- The goroutine begins with the poll before its loop, and every other one has a firing of its
    -- own.
    rw [Lib.length_trace]
    have hkept : (launch p).kept = 0 := rfl
    have hpolling : (launch p).polling = 1 := rfl
    omega
  · -- From here on: the firing that the ticker keeps, and those to come.
    intro later
    have hlater := begun_add_le (k := k) (run (step k) (launch p) events) later
    have hkept := Bool.toNat_le (run (step k) (launch p) events).goroutine.fired
    unfold Loop.kept at hlater
    omega
  · intro htick
    rw [hinv.machine.poller_eq htick, ticked, run, run, List.foldl_map]
    congr 1
    funext p callbacks
    exact (k.tick_eq callbacks p).symm

end Loop

end SimsysMetrics.Go.PollerLoop
