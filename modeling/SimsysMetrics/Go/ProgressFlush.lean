import Mathlib.Algebra.Order.Field.Rat
import SimsysMetrics.Go.Progress
import SimsysMetrics.Lib.Runs

/-!
# The flush of `Stop`

A progress tracker of `go/progress.go` with the goroutine of `TrackProgress`. A `tick` copies the
counts under the lock and sets its gauges after that, one by one, so that the tick of the goroutine,
the one of `Stop` and the calls of `Inc` and `SetTotal` may overlap. Each section under the lock,
each gauge set and each reading of the clock is one step here, and the steps come in any order.

`Stop` promises to flush a final state. It closes `done` and ticks, and does not wait for the
goroutine, whose tick may set the gauge of the remaining items after the flush, from counts that it
copied before a call of `Inc` or `SetTotal` (`older_tick_overwrites`). Where the schedule has no
such set, the gauge shows what remains from the flush on (`remaining_flushed`).
-/

namespace SimsysMetrics.Go.ProgressFlush

open SimsysMetrics.Progress (ok_of_map)
open Lib (run Along)
open Go.Progress

deriving instance DecidableEq for Copies

/-- Where a `tick` is. -/
inductive TickPc (N V : Type) where
  | called
  /-- After the reading of `time.Now()`. -/
  | timed (nowNs : N)
  /-- After the section under the lock. -/
  | copied (x : Copies N V)
  | remainingSet (x : Copies N V)
  | rateSet (x : Copies N V)
  deriving DecidableEq

/-- Where the goroutine of `TrackProgress` is. -/
inductive Goroutine (N V : Type) where
  /-- At its `select`. -/
  | waiting
  | ticking (pc : TickPc N V)
  | exited
  deriving DecidableEq

/-- Where the first call of `Stop` is. Later ones wait for it in `once.Do`. -/
inductive StopCall (N V : Type) where
  | notCalled
  | ticking (pc : TickPc N V)
  | returned
  deriving DecidableEq

/-- A tracker with its goroutine and the calls that use it. `state.stopped` is that `done` is
closed. -/
structure System (N V : Type) where
  state : State N V
  /-- `ctx.Done()` is closed. -/
  cancelled : Bool
  /-- The calls of `Inc` that are yet to add to their counter. -/
  adding : List N
  goroutine : Goroutine N V
  stop : StopCall N V

/-- One step of the system: of a caller, of the goroutine, or of `Stop`. -/
inductive Event (N : Type) where
  /-- `Inc` up to its unlock. -/
  | inc (n : N)
  /-- The counter of one of the calls of `Inc` that are past their unlock. -/
  | add (i : ℕ)
  | setTotal (total : N)
  | cancel
  /-- The goroutine receives from `ticker.C`. -/
  | fire
  /-- The goroutine receives from `done` or from `ctx.Done()`. -/
  | leave
  | stop
  /-- The tick of the goroutine goes on; the clock has the reading where it is read. -/
  | background (reading : N)
  /-- The tick of `Stop` goes on. -/
  | flush (reading : N)

/-- The event is a call of `Inc` or of `SetTotal` that takes the lock. -/
def Event.counts {N : Type} [GoInt N] : Event N → Bool
  | .inc n => decide (0 < toInt n)
  | .setTotal total => decide (0 ≤ toInt total)
  | .add _ | .cancel | .fire | .leave | .stop | .background _ | .flush _ => false

section System

variable {N V : Type} [GoInt N] [Field V] [LinearOrder V] (c : Conversion V)

/-- The next step of a `tick`: where it is then (`none` after its return), and the state. -/
def advance (reading : N) (pc : TickPc N V) (s : State N V) : Option (TickPc N V) × State N V :=
  match pc with
  | .called => (some (.timed reading), s)
  | .timed nowNs =>
    let (x, tracker) := locked c nowNs s.tracker
    (some (.copied x), { s with tracker })
  | .copied x =>
    (some (.remainingSet x), { s with samples := setRemaining c s.tracker x s.samples })
  | .remainingSet x => (some (.rateSet x), { s with samples := setRate s.tracker x s.samples })
  | .rateSet x => (none, { s with samples := setCompletion c s.tracker reading x s.samples })

/-- The goroutine after a step of its tick. -/
def Goroutine.next : Option (TickPc N V) → Goroutine N V
  | some pc => .ticking pc
  | none => .waiting

/-- `Stop` after a step of its tick. -/
def StopCall.next : Option (TickPc N V) → StopCall N V
  | some pc => .ticking pc
  | none => .returned

/-- The section of `Inc` under the lock, after its checks. -/
def inc (n : N) (s : System N V) : System N V :=
  if toInt n ≤ 0 then s
  else
    { s with
      state.tracker.processed := s.state.tracker.processed + n
      adding := s.adding ++ [n] }

/-- What `Inc` does after its unlock. -/
def add (i : ℕ) (s : System N V) : System N V :=
  match s.adding[i]? with
  | some n =>
    { s with
      state.samples :=
        s.state.samples.add (s.state.tracker.key .progressProcessedTotal) (c.float64 (toInt n))
      adding := s.adding.eraseIdx i }
  | none => s

/-- One step of the system. An event whose party is elsewhere changes nothing. -/
def step (s : System N V) : Event N → System N V
  | .inc n => inc n s
  | .add i => add c i s
  | .setTotal total => { s with state := (Progress.setTotal total s.state).2 }
  | .cancel => { s with cancelled := true }
  | .fire =>
    match s.goroutine with
    | .waiting => { s with goroutine := .ticking .called }
    | .ticking _ | .exited => s
  | .leave =>
    match s.goroutine with
    | .waiting => if s.state.stopped ∨ s.cancelled then { s with goroutine := .exited } else s
    | .ticking _ | .exited => s
  | .stop =>
    -- `once` runs its body in the first call only.
    match s.stop with
    | .notCalled => { s with state.stopped := true, stop := .ticking .called }
    | .ticking _ | .returned => s
  | .background reading =>
    match s.goroutine with
    | .ticking pc =>
      let (next, state) := advance c reading pc s.state
      { s with state, goroutine := .next next }
    | .waiting | .exited => s
  | .flush reading =>
    match s.stop with
    | .ticking pc =>
      let (next, state) := advance c reading pc s.state
      { s with state, stop := .next next }
    | .notCalled | .returned => s

/-- A tracker as `TrackProgress` returns it, with its goroutine launched. -/
def launch (state : State N V) : System N V := ⟨state, false, [], .waiting, .notCalled⟩

/-- What the gauge of the remaining items has to show. -/
def remaining (s : State N V) : V :=
  c.float64 (toInt (clamp (s.tracker.total - s.tracker.processed)))

/-- What a tick shows with its copies. -/
def shown (x : Copies N V) : V := c.float64 (toInt x.remaining)

/-- `Inc` and `SetTotal` do not follow the call of `Stop`. -/
def CountsBeforeStop (s : System N V) : Event N → Prop
  | .inc _ | .setTotal _ => s.stop = .notCalled
  | .add _ | .cancel | .fire | .leave | .stop | .background _ | .flush _ => True

instance [DecidableEq N] (s : System N V) (event : Event N) :
    Decidable (CountsBeforeStop s event) :=
  match event with
  | .inc _ | .setTotal _ => inferInstanceAs (Decidable (s.stop = .notCalled))
  | .add _ | .cancel | .fire | .leave | .stop | .background _ | .flush _ => .isTrue trivial

/-- A system, and whether a call of `Inc` or of `SetTotal` has taken the lock since the goroutine's
tick last did: then the counts that the tick holds are older. -/
structure Observed (N V : Type) where
  system : System N V
  stale : Bool

/-- Whether the counts of the goroutine are older after an event. -/
def staleAfter (s : System N V) (stale : Bool) (event : Event N) : Bool :=
  if event.counts then true
  else
    match event, s.goroutine with
    | .background _, .ticking (.timed _) => false
    | _, _ => stale

/-- One step of an observed system. -/
def Observed.step (o : Observed N V) (event : Event N) : Observed N V :=
  ⟨ProgressFlush.step c o.system event, staleAfter o.system o.stale event⟩

/-- An observed system at its start. -/
def Observed.launch (state : State N V) : Observed N V := ⟨ProgressFlush.launch state, false⟩

/-- The tick of `Stop` has set the gauge of the remaining items. -/
def StopCall.hasSet : StopCall N V → Bool
  | .ticking (.remainingSet _) | .ticking (.rateSet _) | .returned => true
  | .notCalled | .ticking _ => false

/-- The tick of the goroutine sets the gauge of the remaining items next. -/
def Goroutine.setsNext : Goroutine N V → Bool
  | .ticking (.copied _) => true
  | .waiting | .ticking _ | .exited => false

/-- After `Stop` has set the gauge of the remaining items, the goroutine does not set it from older
counts. -/
def SetsFresh (o : Observed N V) : Event N → Prop
  | .background _ => o.system.goroutine.setsNext → o.system.stop.hasSet → o.stale = false
  | .inc _ | .add _ | .setTotal _ | .cancel | .fire | .leave | .stop | .flush _ => True

instance (o : Observed N V) (event : Event N) : Decidable (SetsFresh o event) :=
  match event with
  | .background _ => inferInstanceAs (Decidable (_ → _ → _ = _))
  | .inc _ | .add _ | .setTotal _ | .cancel | .fire | .leave | .stop | .flush _ => .isTrue trivial

/-- No call of `Inc` or `SetTotal` follows the call of `Stop`, and no older tick sets the gauge
after `Stop` has. -/
def Scheduled (o : Observed N V) (event : Event N) : Prop :=
  CountsBeforeStop o.system event ∧ SetsFresh o event

instance [DecidableEq N] (o : Observed N V) (event : Event N) : Decidable (Scheduled o event) :=
  inferInstanceAs (Decidable (_ ∧ _))

/-! ## What a step of a tick does -/

variable {c} {reading : N} {pc : TickPc N V} {x : Copies N V}

/-- A tick leaves what remains. -/
theorem remaining_advance (reading : N) (pc : TickPc N V) (s : State N V) :
    remaining c (advance c reading pc s).2 = remaining c s := by
  cases pc with
  | timed nowNs =>
    obtain ⟨hprocessed, htotal⟩ := smooth_counts (c := c) nowNs s.tracker
    show c.float64 (toInt (clamp
      ((smooth c nowNs s.tracker).total - (smooth c nowNs s.tracker).processed))) = _
    rw [hprocessed, htotal]
    rfl
  | called | copied | remainingSet | rateSet => rfl

/-- A tick that holds copies sets the gauge to what they show. -/
theorem sample_advance_copied (reading : N) (x : Copies N V) (s : State N V) :
    (advance c reading (.copied x) s).2.sample .progressRemaining = some (shown c x) := by
  exact Lib.Store.set_self ..

/-- Elsewhere a tick leaves the gauge. -/
theorem sample_advance_of_ne (hpc : ∀ x, pc ≠ .copied x) (s : State N V) :
    (advance c reading pc s).2.sample .progressRemaining = s.sample .progressRemaining := by
  cases pc with
  -- The other gauges belong to other series.
  | called | remainingSet | rateSet => rfl
  | timed nowNs => exact congrArg s.samples (key_locked nowNs s.tracker .progressRemaining)
  | copied x => exact absurd rfl (hpc x)

/-- The copies of a tick are made under the lock, and show what remains then. -/
theorem shown_of_advance {s : State N V} (h : (advance c reading pc s).1 = some (.copied x)) :
    (∃ nowNs, pc = .timed nowNs) ∧ shown c x = remaining c s := by
  cases pc with
  | timed nowNs =>
    obtain rfl : _ = x := TickPc.copied.inj (Option.some.inj h)
    exact ⟨⟨nowNs, rfl⟩, rfl⟩
  | called | copied | remainingSet => cases Option.some.inj h
  | rateSet => cases h

omit [GoInt N] [Field V] [LinearOrder V] in
/-- The goroutine is in its tick as long as that goes on. -/
theorem Goroutine.eq_some_of_next {next : Option (TickPc N V)} (h : .next next = ticking pc) :
    next = some pc := by
  cases next with
  | none => cases h
  | some pc' => exact congrArg some (ticking.inj h)

omit [GoInt N] [Field V] [LinearOrder V] in
/-- `Stop` is in its tick as long as that goes on. -/
theorem StopCall.eq_some_of_next {next : Option (TickPc N V)} (h : .next next = ticking pc) :
    next = some pc := by
  cases next with
  | none => cases h
  | some pc' => exact congrArg some (ticking.inj h)

/-- What a step does, where the counts precede `Stop`: it is a call of `Inc` or `SetTotal` that
comes before the call of `Stop`, it leaves what remains and what shows it, it calls `Stop`, or it is
one of a tick. -/
inductive Effect (c : Conversion V) (s : System N V) : Event N → System N V → Prop where
  | counts {event : Event N} {s' : System N V} (hcounts : event.counts = true)
      (hstop : s'.stop = .notCalled) : Effect c s event s'
  | idle {event : Event N} {s' : System N V} (hstop : s'.stop = s.stop)
      (hremaining : remaining c s'.state = remaining c s.state)
      (hsample : s'.state.sample .progressRemaining = s.state.sample .progressRemaining)
      (hgoroutine : ∀ x, s'.goroutine = .ticking (.copied x) → s.goroutine = .ticking (.copied x))
      (hstale : ∀ stale, staleAfter s stale event = stale) : Effect c s event s'
  | stop (hstop : s.stop = .notCalled) :
      Effect c s .stop { s with state.stopped := true, stop := .ticking .called }
  | background {reading : N} {pc : TickPc N V} (hpc : s.goroutine = .ticking pc) :
      Effect c s (.background reading) { s with
        state := (advance c reading pc s.state).2
        goroutine := .next (advance c reading pc s.state).1 }
  | flush {reading : N} {pc : TickPc N V} (hpc : s.stop = .ticking pc) :
      Effect c s (.flush reading) { s with
        state := (advance c reading pc s.state).2
        stop := .next (advance c reading pc s.state).1 }

/-- A step that changes nothing is idle. -/
theorem Effect.refl {s : System N V} {event : Event N}
    (h : ∀ stale, staleAfter s stale event = stale) : Effect c s event s :=
  .idle rfl rfl rfl (fun _ hx => hx) h

/-- What a step does. -/
theorem effect_step (c : Conversion V) (s : System N V) (event : Event N)
    (hok : CountsBeforeStop s event) : Effect c s event (step c s event) := by
  cases event with
  | inc n =>
    simp only [step, inc]
    by_cases hn : toInt n ≤ 0
    · have hcounts : (Event.inc n).counts = false := by simpa [Event.counts] using hn
      rw [if_pos hn]
      exact .refl fun _ => if_neg (by simp [hcounts])
    · rw [if_neg hn]
      exact .counts (by simpa [Event.counts] using hn) hok
  | setTotal total =>
    simp only [step, Progress.setTotal]
    by_cases htotal : toInt total < 0
    · have hcounts : (Event.setTotal total).counts = false := by
        simpa [Event.counts] using htotal
      rw [if_pos htotal]
      exact .refl fun _ => if_neg (by simp [hcounts])
    · rw [if_neg htotal]
      exact .counts (by simpa [Event.counts] using htotal) hok
  | add i =>
    -- The counter is added to after the lock is released, and no tick reads it.
    simp only [step, add]
    cases s.adding[i]? with
    | none => exact .refl fun _ => rfl
    | some n => exact .idle rfl rfl rfl (fun _ hx => hx) fun _ => rfl
  | cancel => exact .idle rfl rfl rfl (fun _ hx => hx) fun _ => rfl
  | fire =>
    rw [step]
    cases hgoroutine : s.goroutine with
    | waiting =>
      exact .idle rfl rfl rfl (fun _ hx => by cases Goroutine.ticking.inj hx) fun _ => rfl
    | ticking | exited => exact .refl fun _ => rfl
  | leave =>
    rw [step]
    cases hgoroutine : s.goroutine with
    | waiting =>
      dsimp only
      split_ifs
      · exact .idle rfl rfl rfl (fun _ hx => by cases hx) fun _ => rfl
      · exact .refl fun _ => rfl
    | ticking | exited => exact .refl fun _ => rfl
  | stop =>
    rw [step]
    cases hstop : s.stop with
    | notCalled => exact .stop hstop
    | ticking | returned => exact .refl fun _ => rfl
  | background reading =>
    rw [step]
    cases hgoroutine : s.goroutine with
    | ticking pc => exact .background hgoroutine
    | waiting | exited =>
      -- Without a tick under way there is no copy that could be stale.
      refine .refl fun stale => ?_
      simp [staleAfter, Event.counts, hgoroutine]
  | flush reading =>
    rw [step]
    cases hstop : s.stop with
    | ticking pc => exact .flush hstop
    | notCalled | returned => exact .refl fun _ => rfl

/-! ## What the gauge shows after the flush -/

omit [GoInt N] [Field V] [LinearOrder V] in
/-- A tick of `Stop` that has set the gauge follows its call. -/
theorem StopCall.ne_notCalled_of_hasSet {stop : StopCall N V} (h : stop.hasSet = true) :
    stop ≠ .notCalled := by
  rintro rfl
  cases h

/-- What holds of an observed system: the copies of `Stop`, and those of the goroutine unless they
are older, show what remains, and from the set of `Stop` on, the gauge does. -/
structure Flushed (c : Conversion V) (o : Observed N V) : Prop where
  copies : ∀ x, o.system.stop = .ticking (.copied x) → shown c x = remaining c o.system.state
  fresh : o.stale = false → ∀ x, o.system.goroutine = .ticking (.copied x) →
    shown c x = remaining c o.system.state
  gauge : o.system.stop.hasSet = true →
    o.system.state.sample .progressRemaining = some (remaining c o.system.state)

/-- A system at its start is flushed: nobody holds copies, and `Stop` is not called. -/
theorem flushed_launch (state : State N V) : Flushed c (.launch state) := by
  refine ⟨fun x hx => ?_, fun _ x hx => ?_, nofun⟩
  · cases hx
  · cases hx

variable {o : Observed N V}

/-- The step of a tick of the goroutine keeps a system flushed: its copies show what remains as they
are made, and where it sets the gauge after `Stop` has, they still do. -/
theorem Flushed.background (ho : Flushed c o) (hpc : o.system.goroutine = .ticking pc)
    (hok : SetsFresh o (.background reading)) :
    Flushed c ⟨{ o.system with
        state := (advance c reading pc o.system.state).2
        goroutine := .next (advance c reading pc o.system.state).1 },
      staleAfter o.system o.stale (.background reading)⟩ := by
  have hremaining := remaining_advance (c := c) reading pc o.system.state
  refine ⟨fun x hx => hremaining ▸ ho.copies x hx, fun _ x hx => ?_, fun hset => ?_⟩
  · rw [hremaining]
    exact (shown_of_advance (Goroutine.eq_some_of_next hx)).2
  · rw [hremaining]
    by_cases hcopied : ∃ x, pc = .copied x
    · obtain ⟨x, rfl⟩ := hcopied
      have hnext : o.system.goroutine.setsNext = true := by rw [hpc]; rfl
      rw [sample_advance_copied, ho.fresh (hok hnext hset) x hpc]
    · rw [sample_advance_of_ne fun x hx => hcopied ⟨x, hx⟩]
      exact ho.gauge hset

/-- The step of the tick of `Stop` keeps a system flushed: its copies show what remains, and no step
changes that. -/
theorem Flushed.flush (ho : Flushed c o) (hpc : o.system.stop = .ticking pc) :
    Flushed c ⟨{ o.system with
        state := (advance c reading pc o.system.state).2
        stop := .next (advance c reading pc o.system.state).1 }, o.stale⟩ := by
  have hremaining := remaining_advance (c := c) reading pc o.system.state
  refine ⟨fun x hx => ?_, fun hstale x hx => hremaining ▸ ho.fresh hstale x hx, fun hset => ?_⟩
  · rw [hremaining]
    exact (shown_of_advance (StopCall.eq_some_of_next hx)).2
  · rw [hremaining]
    cases pc with
    | called | timed => cases hset
    | copied x => rw [sample_advance_copied, ho.copies x hpc]
    | remainingSet x | rateSet x =>
      rw [sample_advance_of_ne (by simp)]
      exact ho.gauge (hpc ▸ rfl)

/-- A scheduled step keeps a system flushed. -/
theorem flushed_step (o : Observed N V) (event : Event N) (ho : Flushed c o)
    (hok : Scheduled o event) : Flushed c (o.step c event) := by
  obtain ⟨hcounts, hfresh⟩ := hok
  have heffect := effect_step c o.system event hcounts
  unfold Observed.step
  generalize step c o.system event = s' at heffect ⊢
  cases heffect with
  | counts hevent hstop =>
    -- `Stop` is not called yet, and the copies of the goroutine are older now.
    refine ⟨fun x hx => ?_, fun hstale => ?_, fun hset => ?_⟩
    · rw [hstop] at hx
      cases hx
    · have hstale' : staleAfter o.system o.stale event = true := if_pos hevent
      rw [hstale'] at hstale
      cases hstale
    · exact absurd hstop (StopCall.ne_notCalled_of_hasSet hset)
  | idle hstop hremaining hsample hgoroutine hstale =>
    rw [hstale]
    refine ⟨?_, fun hfalse x hx => ?_, ?_⟩
    · rw [hstop, hremaining]
      exact ho.copies
    · rw [hremaining]
      exact ho.fresh hfalse x (hgoroutine x hx)
    · rw [hstop, hremaining, hsample]
      exact ho.gauge
  | stop hstop =>
    refine ⟨fun x hx => ?_, fun hstale x hx => ho.fresh hstale x hx, nofun⟩
    cases StopCall.ticking.inj hx
  | background hpc => exact ho.background hpc hfresh
  | flush hpc => exact ho.flush hpc

/-- In every order of the steps in which no call of `Inc` or `SetTotal` follows the call of `Stop`,
and the goroutine does not set the gauge of the remaining items after `Stop` has from counts that it
copied before such a call: once `Stop` has returned, the gauge shows what remains. -/
theorem remaining_flushed (c : Conversion V) (state : State N V) (events : List (Event N))
    (hschedule : Along (Observed.step c) Scheduled (.launch state) events)
    (hreturned : (run (Observed.step c) (.launch state) events).system.stop = .returned) :
    (run (Observed.step c) (.launch state) events).system.state.sample .progressRemaining =
      some (remaining c (run (Observed.step c) (.launch state) events).system.state) := by
  have hflushed := Lib.invariant_along flushed_step (flushed_launch (c := c) state) hschedule
  exact hflushed.gauge (hreturned ▸ rfl)

end System

/-- The tick of `Stop`, from its call to its return. -/
def flushes (nowNs unix : Int64) : List (Event Int64) :=
  [.flush nowNs, .flush nowNs, .flush nowNs, .flush nowNs, .flush unix]

/-- Three of ten items are done, and `Stop` flushes while the goroutine is in a tick that has copied
its counts after that, and sets its gauges last: the gauge shows seven. -/
theorem flush_shows_seven :
    ∃ s, trackProgress (.rounded : Conversion ℚ) "portal" (0 : Int64) ⟨"scan", 10, 0, 0⟩
        (fun _ => none) = .ok s ∧
      let events := [.inc 3, .add 0, .fire, .background 1000000000, .background 0, .stop] ++
        flushes 1000000000 1 ++ [.background 0, .background 0, .background 1, .leave]
      (run (Observed.step .rounded) (.launch s) events).system.state.sample .progressRemaining =
        some (remaining .rounded
          (run (Observed.step .rounded) (.launch s) events).system.state) := by
  obtain ⟨s, hs, hrun⟩ := ok_of_map
    (x := trackProgress (.rounded : Conversion ℚ) "portal" (0 : Int64) ⟨"scan", 10, 0, 0⟩
      fun _ => none)
    (f := fun s =>
      let events := [.inc 3, .add 0, .fire, .background 1000000000, .background 0, .stop] ++
        flushes 1000000000 1 ++ [.background 0, .background 0, .background 1, .leave]
      (decide (Along (Observed.step .rounded) Scheduled (.launch s) events),
        (run (Observed.step .rounded) (.launch s) events).system.stop))
    (b := (true, .returned)) (by decide +kernel)
  obtain ⟨hschedule, hreturned⟩ := Prod.mk.inj hrun
  exact ⟨s, hs, remaining_flushed .rounded s _ (of_decide_eq_true hschedule) hreturned⟩

/-- The goroutine copies its counts before three of ten items are done, and sets its gauge after
`Stop` has flushed: when it has left, the gauge shows ten, and seven remain. -/
theorem older_tick_overwrites :
    ∃ s, trackProgress (.rounded : Conversion ℚ) "portal" (0 : Int64) ⟨"scan", 10, 0, 0⟩
        (fun _ => none) = .ok s ∧
      let events := [.fire, .background 1000000000, .background 0, .inc 3, .add 0, .stop] ++
        flushes 1000000000 1 ++ [.background 0, .background 0, .background 1, .leave]
      let t := run (step .rounded) (launch s) events
      Along (step .rounded) CountsBeforeStop (launch s) events ∧ t.stop = .returned ∧
        t.goroutine = .exited ∧ t.state.sample .progressRemaining = some 10 ∧
        remaining .rounded t.state = 7 := by
  obtain ⟨s, hs, hrun⟩ := ok_of_map
    (x := trackProgress (.rounded : Conversion ℚ) "portal" (0 : Int64) ⟨"scan", 10, 0, 0⟩
      fun _ => none)
    (f := fun s =>
      let events := [.fire, .background 1000000000, .background 0, .inc 3, .add 0, .stop] ++
        flushes 1000000000 1 ++ [.background 0, .background 0, .background 1, .leave]
      let t := run (step .rounded) (launch s) events
      decide (Along (step .rounded) CountsBeforeStop (launch s) events ∧ t.stop = .returned ∧
        t.goroutine = .exited ∧ t.state.sample .progressRemaining = some 10 ∧
        remaining .rounded t.state = 7))
    (b := true) (by decide +kernel)
  exact ⟨s, hs, of_decide_eq_true hrun⟩

end SimsysMetrics.Go.ProgressFlush
