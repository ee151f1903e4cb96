import SimsysMetrics.Contract
import SimsysMetrics.Lib.Float64
import SimsysMetrics.Lib.Runs
import SimsysMetrics.Lib.TickPolicy

/-!
# The pollers of queues and pools

`track_queue` and `track_pool` of `simsys_metrics/_baseline.py`, `trackQueue` and `trackPool` of
`node/src/baseline.ts`, and `TrackQueue` and `TrackPool` of `go/baseline.go`. Each polls callbacks
at an interval; a tick here is one call of the closure, on what the callbacks return.

All six follow one policy, which `poller_failure_policy` of the contract specifies and
`Lib.Display` states: a failed tick writes no gauge, it is counted, and the first one is logged.
Five of them are `pollTick`, which reads every callback before it writes any gauge. Python's
`track_queue` converts its reading to a float outside the `try`, when the gauge has been created
already; so it follows the policy as long as no depth is too large for a float, and leaves it at the
first one that is (`pollers_follow_policy`).
-/

namespace SimsysMetrics

open Lib (F64 Store Display readAll writeAll run)

/-- The kinds of tracked things, the values of the `collector` label. -/
inductive CollectorKind where
  | queue
  | pool
deriving DecidableEq, Repr

/-- The key of a polled gauge: its family and its labels. -/
structure GaugeKey where
  family : Family
  service : String
  name : String
deriving DecidableEq, Repr

/-- The labels of `simsys_collector_errors_total`. -/
structure ErrorLabels where
  service : String
  collector : CollectorKind
  name : String
deriving DecidableEq, Repr

/-- A tracker: what it tracks, under which service. -/
structure Tracker where
  collector : CollectorKind
  service : String
  name : String
deriving DecidableEq, Repr

/-- The key of a gauge of a tracker. -/
def Tracker.gaugeKey (t : Tracker) (family : Family) : GaugeKey := ⟨family, t.service, t.name⟩

/-- The labels under which a tracker counts its failures. -/
def Tracker.errorLabels (t : Tracker) : ErrorLabels := ⟨t.service, t.collector, t.name⟩

/-- Distinct families have distinct keys. -/
theorem Tracker.gaugeKey_injective (t : Tracker) : Function.Injective t.gaugeKey :=
  fun _ _ h => congrArg GaugeKey.family h

/-- What a tracker logs. -/
inductive Warning (ε : Type) where
  /-- A callback failed. Later failures are silent. -/
  | callbackFailed (e : ε)
  /-- The gauge could not be set. -/
  | setFailed
deriving DecidableEq, Repr

/-- What the ticks of a tracker read and change: the samples of the registry, and its own flag and
log. -/
structure Poller (ε : Type) where
  gauges : Store GaugeKey F64
  collectorErrors : Store ErrorLabels ℕ
  /-- `seen_failure`, `warnedFailure` or `loggedPanic`. -/
  seenFailure : Bool
  log : List (Warning ε)

section Policy

variable {ε : Type}

/-- The poller of a tracker on an empty registry. -/
def Poller.empty : Poller ε := ⟨fun _ => none, fun _ => none, false, []⟩

/-- A failed tick: it is counted, and logged if it is the first. -/
def Poller.fail (t : Tracker) (e : ε) (p : Poller ε) : Poller ε :=
  { p with
    collectorErrors := p.collectorErrors.add t.errorLabels 1
    seenFailure := true
    log := if p.seenFailure then p.log else p.log ++ [.callbackFailed e] }

/-- A tick: every source is read, in order, before any gauge is written. -/
def pollTick (t : Tracker) (sources : List Family) (read : Family → Except ε F64) (p : Poller ε) :
    Poller ε :=
  match readAll sources read with
  | .error e => p.fail t e
  | .ok values => { p with gauges := writeAll t.gaugeKey values p.gauges }

/-- The polled gauges of a pool, in the order in which its callbacks are read; the one of the
waiting requests needs its optional callback. -/
def poolSources (waiting : Bool) : List Family :=
  if waiting then [.poolActive, .poolIdle, .poolWaiting] else [.poolActive, .poolIdle]

/-- The polled gauges of a pool are distinct. -/
theorem nodup_poolSources (waiting : Bool) : (poolSources waiting).Nodup := by
  cases waiting <;> decide

/-- A tracker that has not ticked, under labels that nobody wrote. -/
structure Poller.Fresh (t : Tracker) (sources : List Family) (p : Poller ε) : Prop where
  /-- None of its gauges exists. -/
  gauges : ∀ g ∈ sources, p.gauges (t.gaugeKey g) = none
  /-- It has no errors. -/
  errors : p.collectorErrors t.errorLabels = none
  /-- It has not seen a failure. -/
  unseen : p.seenFailure = false
  /-- It has logged nothing. -/
  log : p.log = []

/-- What the policy leaves of a fresh tracker after ticks with these readings of its sources. -/
structure Follows (t : Tracker) (sources : List Family) (reads : List (Family → Except ε F64))
    (p : Poller ε) : Prop where
  /-- If no tick succeeded, no gauge exists. -/
  absent : Display.successes (reads.map (readAll sources)) = [] →
    ∀ g ∈ sources, p.gauges (t.gaugeKey g) = none
  /-- Otherwise every gauge holds its value of the last tick that succeeded. -/
  last : ∀ values, (Display.successes (reads.map (readAll sources))).getLast? = some values →
    ∀ g ∈ sources, ∃ v, values.lookup g = some v ∧ p.gauges (t.gaugeKey g) = some v
  /-- The failed ticks are counted. -/
  errors : (p.collectorErrors t.errorLabels).getD 0 =
    (Display.failuresOf (reads.map (readAll sources))).length
  /-- The first failure is logged, and nothing else. -/
  logged : p.log =
    (Display.failuresOf (reads.map (readAll sources))).head?.toList.map .callbackFailed

/-- A poller shows what a display shows. -/
structure Shows (t : Tracker) (sources : List Family) (p : Poller ε)
    (d : Display ε (List (Family × F64))) : Prop where
  gauges : ∀ g ∈ sources, p.gauges (t.gaugeKey g) = d.shown.bind (·.lookup g)
  errors : (p.collectorErrors t.errorLabels).getD 0 = d.failures
  seen : p.seenFailure = decide (d.failures ≠ 0)
  log : p.log = d.logged.map .callbackFailed

variable {t : Tracker} {sources : List Family} {p : Poller ε}

/-- A fresh tracker shows a blank display. -/
theorem shows_blank (h : p.Fresh t sources) : Shows t sources p Display.blank where
  gauges := h.gauges
  errors := by rw [h.errors]; rfl
  seen := h.unseen
  log := h.log

/-- A tick of the poller is a tick of the display. -/
theorem shows_pollTick (hnodup : sources.Nodup) {d : Display ε (List (Family × F64))}
    (h : Shows t sources p d) (read : Family → Except ε F64) :
    Shows t sources (pollTick t sources read p) (d.tick (readAll sources read)) := by
  unfold pollTick
  rcases hread : readAll sources read with e | values
  · -- A failed tick writes no gauge.
    refine ⟨h.gauges, ?_, ?_, ?_⟩
    · show ((p.collectorErrors.add t.errorLabels 1) t.errorLabels).getD 0 = d.failures + 1
      rw [Store.add_self, h.errors]
      rfl
    · simp [Poller.fail, Display.tick]
    · show (if p.seenFailure then p.log else p.log ++ [.callbackFailed e]) =
        (if d.failures = 0 then d.logged ++ [e] else d.logged).map .callbackFailed
      rw [h.seen, h.log]
      by_cases hzero : d.failures = 0 <;> simp [hzero]
  · -- Every source was read, so every gauge is written.
    refine ⟨?_, h.errors, h.seen, h.log⟩
    intro g hg
    obtain ⟨v, -, hv⟩ := Lib.lookup_of_readAll hread hg
    have hkeys : (values.map Prod.fst).Nodup := by
      rw [Lib.map_fst_of_readAll hread]
      exact hnodup
    show writeAll t.gaugeKey values p.gauges (t.gaugeKey g) = values.lookup g
    rw [Lib.writeAll_of_lookup t.gaugeKey_injective hkeys hv, hv]

/-- What a poller shows after the ticks of a display is what the policy leaves. -/
theorem follows_of_shows {reads : List (Family → Except ε F64)}
    (h : Shows t sources p ((reads.map (readAll sources)).foldl Display.tick Display.blank)) :
    Follows t sources reads p := by
  rw [Display.foldl_tick] at h
  refine ⟨?_, ?_, h.errors, h.log⟩
  · intro hnone g hg
    rw [h.gauges g hg, hnone]
    rfl
  · intro values hlast g hg
    have hmem : values ∈ Display.successes (reads.map (readAll sources)) :=
      List.mem_of_getLast? hlast
    -- The last success is a reading of all sources.
    obtain ⟨reading, hreading, hvalues⟩ := List.mem_filterMap.mp hmem
    obtain ⟨read, -, rfl⟩ := List.mem_map.mp hreading
    have hok : readAll sources read = .ok values := by
      rcases hread : readAll sources read with e | values'
      · rw [hread] at hvalues
        cases hvalues
      · rw [hread] at hvalues
        exact congrArg Except.ok (Option.some.inj hvalues)
    obtain ⟨v, -, hv⟩ := Lib.lookup_of_readAll hok hg
    refine ⟨v, hv, ?_⟩
    rw [h.gauges g hg, hlast]
    exact hv

/-- A run of ticks that are all `pollTick`, from a fresh tracker, leaves what the policy does. -/
theorem follows_run {τ : Type} {step : Poller ε → τ → Poller ε} {read : τ → Family → Except ε F64}
    {ticks : List τ} (hstep : ∀ x ∈ ticks, ∀ p, step p x = pollTick t sources (read x) p)
    (hnodup : sources.Nodup) (hfresh : p.Fresh t sources) :
    Follows t sources (ticks.map read) (run step p ticks) := by
  apply follows_of_shows
  have hshows := shows_blank hfresh
  clear hfresh
  generalize Display.blank = d at hshows ⊢
  -- A run of the poller is a run of the display, tick by tick.
  induction ticks generalizing p d with
  | nil => exact hshows
  | cons x ticks ih =>
    show Shows t sources (run step (step p x) ticks) _
    rw [hstep x List.mem_cons_self]
    exact ih (fun y hy => hstep y (List.mem_cons_of_mem _ hy)) _
      (shows_pollTick hnodup hshows (read x))

/-- A poller whose ticks are all `pollTick` follows the policy at every point of a sequence. -/
theorem follows_prefixes {τ : Type} {step : Poller ε → τ → Poller ε}
    {read : τ → Family → Except ε F64} (hstep : ∀ x p, step p x = pollTick t sources (read x) p)
    (hnodup : sources.Nodup) (hfresh : p.Fresh t sources) (ticks : List τ) :
    ∀ pre, pre <+: ticks → Follows t sources (pre.map read) (run step p pre) := by
  intro pre _
  exact follows_run (fun x _ p => hstep x p) hnodup hfresh

end Policy

/-! ## Python -/

namespace Python

/-- The exceptions that a tick meets: those of a conversion, and the others that a callback raises,
by their identity. -/
inductive Exn where
  | valueError
  | typeError
  | overflowError
  | other (id : ℕ)
deriving DecidableEq, Repr

/-- What a callback returns: an integer, a float, `None`, or a text that is no number. -/
inductive Result where
  | int (n : ℤ)
  | float (f : F64)
  | none
  | text (s : String)
deriving DecidableEq, Repr

/-- `int` of a result. -/
def Result.toInt : Result → Except Exn ℤ
  | .int n => .ok n
  | .float (.int n) => .ok n
  | .float .nan => .error .valueError
  | .float _ => .error .overflowError
  | .none => .error .typeError
  | .text _ => .error .valueError

/-- `float` of an integer. -/
def floatOfInt (n : ℤ) : Except Exn F64 :=
  match F64.ofInt? n with
  | some f => .ok f
  | .none => .error .overflowError

/-- `float` of a result. -/
def Result.toFloat : Result → Except Exn F64
  | .int n => floatOfInt n
  | .float f => .ok f
  | .none => .error .typeError
  | .text _ => .error .valueError

/-- The tracker of `track_queue`. -/
def queueTracker (service queue : String) : Tracker := ⟨.queue, service, queue⟩

/-- `_poll` of `track_queue`. `labels` creates the gauge, and then `set` converts the depth; when
that raises, the failure is logged at every tick, and nothing is counted. -/
def trackQueuePoll (service queue : String) (depthFn : Except Exn Result) (p : Poller Exn) :
    Poller Exn :=
  let t := queueTracker service queue
  match depthFn.bind Result.toInt with
  | .error e => p.fail t e
  | .ok depth =>
    let labelled := p.gauges.touch (t.gaugeKey .queueDepth) (.int 0)
    match floatOfInt depth with
    | .ok value => { p with gauges := labelled.set (t.gaugeKey .queueDepth) value }
    | .error _ => { p with gauges := labelled, log := p.log ++ [.setFailed] }

/-- `_poll` of `track_pool`; `callbacks` is what the callback of each gauge returns. -/
def trackPoolPoll (service name : String) (waiting : Bool)
    (callbacks : Family → Except Exn Result) (p : Poller Exn) : Poller Exn :=
  pollTick ⟨.pool, service, name⟩ (poolSources waiting)
    (fun g => (callbacks g).bind Result.toFloat) p

/-- A depth that has a float is written at once, as any other tick does. -/
theorem trackQueuePoll_of_fits {service queue : String} {x : Except Exn ℤ}
    (hfits : ∀ n, x = .ok n → (F64.ofInt? n).isSome) (p : Poller Exn) :
    trackQueuePoll service queue (x.map .int) p =
      pollTick (queueTracker service queue) [.queueDepth] (fun _ => x.bind floatOfInt) p := by
  rcases x with e | n
  · rfl
  · obtain ⟨f, hf⟩ := Option.isSome_iff_exists.mp (hfits n rfl)
    simp [trackQueuePoll, pollTick, Except.map, Except.bind, Result.toInt, floatOfInt, hf,
      Lib.readAll_cons, writeAll]

/-- A depth that has no float creates the gauge with zero, and is logged but not counted. -/
theorem trackQueuePoll_of_overflow {service queue : String} {n : ℤ} (hn : F64.ofInt? n = none)
    (p : Poller Exn) :
    trackQueuePoll service queue (.ok (.int n)) p =
      { p with
        gauges := p.gauges.touch ((queueTracker service queue).gaugeKey .queueDepth) (.int 0)
        log := p.log ++ [.setFailed] } := by
  simp [trackQueuePoll, Except.bind, Result.toInt, floatOfInt, hn]

/-- From a fresh tracker, `track_queue` follows the policy at every point of a sequence of ticks if
and only if every depth in it has a float. -/
theorem trackQueuePoll_follows_iff {service queue : String} {p : Poller Exn}
    (hfresh : p.Fresh (queueTracker service queue) [.queueDepth]) (ticks : List (Except Exn ℤ)) :
    (∀ pre, pre <+: ticks → Follows (queueTracker service queue) [.queueDepth]
        (pre.map fun x _ => x.bind floatOfInt)
        (run (fun p x => trackQueuePoll service queue (x.map .int) p) p pre)) ↔
      ∀ n, .ok n ∈ ticks → (F64.ofInt? n).isSome := by
  constructor
  · intro h n hn
    by_contra hnone
    have hoverflow : F64.ofInt? n = none := by simpa using hnone
    obtain ⟨pre, post, rfl⟩ := List.append_of_mem hn
    -- The tick adds a failure, and the code counts none.
    have hbefore := (h pre (List.prefix_append _ _)).errors
    have hafter := (h (pre ++ [.ok n]) ⟨post, by simp⟩).errors
    have hread : readAll [Family.queueDepth] (fun _ => (Except.ok n).bind floatOfInt) =
        .error .overflowError := by
      simp [Lib.readAll_cons, Except.bind, floatOfInt, hoverflow]
    rw [Lib.run_concat, show (Except.ok n : Except Exn ℤ).map Result.int = .ok (.int n) from rfl,
      trackQueuePoll_of_overflow hoverflow, List.map_append, List.map_append, List.map_singleton,
      List.map_singleton, hread, Display.failuresOf_concat_error, List.length_append,
      List.length_singleton, ← hbefore] at hafter
    dsimp only at hafter
    omega
  · intro hfits pre hpre
    refine follows_run ?_ (List.nodup_singleton _) hfresh
    intro x hx p
    refine trackQueuePoll_of_fits ?_ p
    rintro n rfl
    exact hfits n (hpre.subset hx)

end Python

/-! ## Node -/

namespace Node

/-- What a callback returns, or its promise resolves to: a number, `null`, `undefined`, or a text
that is no number. -/
inductive Result where
  | number (f : F64)
  | null
  | undefined
  | text (s : String)
deriving DecidableEq, Repr

/-- `Number` of a result. -/
def Result.toNumber : Result → F64
  | .number f => f
  | .null => .int 0
  | .undefined => .nan
  | .text _ => .nan

/-- `Math.trunc(Number(raw) || 0)`. The numbers here have no fraction to drop. -/
def Result.count (raw : Result) : F64 :=
  match raw.toNumber with
  | .nan => .int 0
  | f => f

/-- `Math.max(0, x)`. -/
def maxZero : F64 → F64
  | .int n => .int (max 0 n)
  | .posInf => .posInf
  | .negInf => .int 0
  | .nan => .nan

/-- The `tick` of `trackQueue`. -/
def trackQueueTick {ε : Type} (service queue : String) (depthFn : Except ε Result) (p : Poller ε) :
    Poller ε :=
  pollTick ⟨.queue, service, queue⟩ [.queueDepth] (fun _ => depthFn.map Result.count) p

/-- The `tick` of `trackPool`. -/
def trackPoolTick {ε : Type} (service name : String) (waiting : Bool)
    (callbacks : Family → Except ε Result) (p : Poller ε) : Poller ε :=
  pollTick ⟨.pool, service, name⟩ (poolSources waiting)
    (fun g => (callbacks g).map fun raw => maxZero raw.count) p

end Node

/-! ## Go -/

namespace Go

/-- `float64(n)`. -/
def float64 (n : Int64) : F64 := .ofInt n.toInt

/-- The `tick` of `TrackQueue`. -/
def trackQueueTick {ε : Type} (service queue : String) (depthFn : Except ε Int64) (p : Poller ε) :
    Poller ε :=
  pollTick ⟨.queue, service, queue⟩ [.queueDepth]
    (fun _ => depthFn.map fun depth => float64 (if depth < 0 then 0 else depth)) p

/-- The `tick` of `TrackPool`. -/
def trackPoolTick {ε : Type} (service name : String) (waiting : Bool)
    (callbacks : Family → Except ε Int64) (p : Poller ε) : Poller ε :=
  pollTick ⟨.pool, service, name⟩ (poolSources waiting)
    (fun g => (callbacks g).map fun n => float64 (max 0 n)) p

/-- The pool's clamping, on the integers that the words stand for. -/
theorem toInt_max_zero (n : Int64) : (max 0 n).toInt = max 0 n.toInt := by
  show (if 0 ≤ n then n else 0 : Int64).toInt = _
  split_ifs with h
  · have hle : (0 : ℤ) ≤ n.toInt := by simpa using Int64.le_iff_toInt_le.mp h
    omega
  · have hlt : n.toInt < 0 := by simpa using Int64.lt_iff_toInt_lt.mp (Int64.not_le.mp h)
    rw [Int64.toInt_zero]
    omega

/-- The queue's clamping is the pool's. -/
theorem toInt_clamp (n : Int64) : (if n < 0 then 0 else n).toInt = max 0 n.toInt := by
  rw [← toInt_max_zero]
  show _ = (if 0 ≤ n then n else 0 : Int64).toInt
  by_cases h : n < 0
  · rw [if_pos h, if_neg (Int64.not_le.mpr h)]
  · rw [if_neg h, if_pos (Int64.not_lt.mp h)]

end Go

/-! ## The policy -/

/-- A poller of one of the six kinds, with what its callbacks return at each tick of a sequence:
integers, or failures. -/
inductive Polling (ε : Type) where
  | pythonQueue (service queue : String) (p : Poller Python.Exn)
      (ticks : List (Except Python.Exn ℤ))
  | pythonPool (service name : String) (waiting : Bool) (p : Poller Python.Exn)
      (ticks : List (Family → Except Python.Exn ℤ))
  | nodeQueue (service queue : String) (p : Poller ε) (ticks : List (Except ε ℤ))
  | nodePool (service name : String) (waiting : Bool) (p : Poller ε)
      (ticks : List (Family → Except ε ℤ))
  | goQueue (service queue : String) (p : Poller ε) (ticks : List (Except ε Int64))
  | goPool (service name : String) (waiting : Bool) (p : Poller ε)
      (ticks : List (Family → Except ε Int64))

namespace Polling

variable {ε : Type}

/-- The tracker has not ticked, and nobody wrote its labels. -/
def Fresh : Polling ε → Prop
  | .pythonQueue service queue p _ => p.Fresh ⟨.queue, service, queue⟩ [.queueDepth]
  | .pythonPool service name waiting p _ => p.Fresh ⟨.pool, service, name⟩ (poolSources waiting)
  | .nodeQueue service queue p _ => p.Fresh ⟨.queue, service, queue⟩ [.queueDepth]
  | .nodePool service name waiting p _ => p.Fresh ⟨.pool, service, name⟩ (poolSources waiting)
  | .goQueue service queue p _ => p.Fresh ⟨.queue, service, queue⟩ [.queueDepth]
  | .goPool service name waiting p _ => p.Fresh ⟨.pool, service, name⟩ (poolSources waiting)

/-- At every point of the sequence the poller is as the policy leaves it. The values are those of
the integers after the lane's clamping; in Python an integer that has no float is a failure. -/
def FollowsPolicy : Polling ε → Prop
  | .pythonQueue service queue p ticks => ∀ pre, pre <+: ticks →
    Follows ⟨.queue, service, queue⟩ [.queueDepth] (pre.map fun x _ => x.bind Python.floatOfInt)
      (run (fun p x => Python.trackQueuePoll service queue (x.map .int) p) p pre)
  | .pythonPool service name waiting p ticks => ∀ pre, pre <+: ticks →
    Follows ⟨.pool, service, name⟩ (poolSources waiting)
      (pre.map fun x g => (x g).bind Python.floatOfInt)
      (run (fun p x => Python.trackPoolPoll service name waiting (fun g => (x g).map .int) p) p pre)
  | .nodeQueue service queue p ticks => ∀ pre, pre <+: ticks →
    Follows ⟨.queue, service, queue⟩ [.queueDepth] (pre.map fun x _ => x.map .int)
      (run (fun p x => Node.trackQueueTick service queue (x.map fun n => .number (.int n)) p) p pre)
  | .nodePool service name waiting p ticks => ∀ pre, pre <+: ticks →
    Follows ⟨.pool, service, name⟩ (poolSources waiting)
      (pre.map fun x g => (x g).map fun n => .int (max 0 n))
      (run (fun p x => Node.trackPoolTick service name waiting
        (fun g => (x g).map fun n => .number (.int n)) p) p pre)
  | .goQueue service queue p ticks => ∀ pre, pre <+: ticks →
    Follows ⟨.queue, service, queue⟩ [.queueDepth]
      (pre.map fun x _ => x.map fun n => .ofInt (max 0 n.toInt))
      (run (fun p x => Go.trackQueueTick service queue x p) p pre)
  | .goPool service name waiting p ticks => ∀ pre, pre <+: ticks →
    Follows ⟨.pool, service, name⟩ (poolSources waiting)
      (pre.map fun x g => (x g).map fun n => .ofInt (max 0 n.toInt))
      (run (fun p x => Go.trackPoolTick service name waiting x p) p pre)

/-- Every depth of a queue in Python has a float. -/
def DepthsFit : Polling ε → Prop
  | .pythonQueue _ _ _ ticks => ∀ n, .ok n ∈ ticks → (F64.ofInt? n).isSome
  | _ => True

end Polling

/-- A tracker on an empty registry is fresh. -/
theorem fresh_empty {ε : Type} (t : Tracker) (sources : List Family) :
    (Poller.empty : Poller ε).Fresh t sources where
  gauges := fun _ _ => rfl
  errors := rfl
  unseen := rfl
  log := rfl

end SimsysMetrics
