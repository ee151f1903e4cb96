import Mathlib.Algebra.Order.Field.Rat
import Mathlib.Data.Finset.Card
import SimsysMetrics.Node.AsyncTicks
import SimsysMetrics.Node.Progress
import SimsysMetrics.Service

/-!
# The calls of `trackQueue` and `trackPool` in one process

`trackQueue` and `trackPool` of `node/src/baseline.ts`, called any number of times in one process,
with their timers, their asynchronous ticks, and the handles that they return. The sets of the
timers and the samples are shared by all copies of the module that a bundler makes; each copy has a
set of its own of the warnings that it gave.

An event never takes a handle away, and leaves what it tracks (`later_step`).
-/

namespace SimsysMetrics.Node.TrackCalls

open AsyncTicks (Called Pending proceed)
open Lib (F64 Store)
open Node.Progress (Thrown Value checkPositive getService orDefault)

variable {ε : Type}

/-! ## The process -/

/-- A tracker that a call has accepted: what its closures hold, and its timer. -/
structure Handle (ε : Type) where
  tracker : Tracker
  /-- The gauges of its callbacks, in the order in which a tick calls them. -/
  sources : List Family
  /-- The interval fires. -/
  armed : Bool
  /-- `stopped`, of its `stop`. -/
  stopped : Bool
  warnedFailure : Bool
  log : List (Warning ε)
  /-- Its ticks, in the order in which they started; none for one that has ended. -/
  ticks : List (Option Pending)

/-- A timer that was added to the set of its kind. -/
structure Attachment where
  /-- The copy of the module through which it was added. -/
  copy : ℕ
  kind : CollectorKind
  /-- The size of the set afterwards. -/
  size : ℕ
  name : String
deriving DecidableEq, Repr

/-- What the calls print. -/
inductive Printed where
  | emptyName (kind : CollectorKind) (name : String)
  /-- There are many live trackers. -/
  | live (attachment : Attachment)
deriving DecidableEq, Repr

/-- A process: the state that the copies of the module share, and what each has for its own. -/
structure Trackers (ε : Type) where
  service : Option String
  handles : List (Handle ε)
  /-- `queueTimers` and `poolTimers`, by the places of their handles. -/
  timers : CollectorKind → Finset ℕ
  /-- `_warnedSets` of each copy. -/
  warnedSets : ℕ → CollectorKind → Bool
  gauges : Store GaugeKey F64
  collectorErrors : Store ErrorLabels ℕ
  printed : List Printed

/-- A process in which nothing is tracked. -/
def start : Trackers ε := ⟨none, [], fun _ => ∅, fun _ _ => false, fun _ => none, fun _ => none, []⟩

/-- `_LIVE_TRACKER_WARN_AT`. -/
def liveTrackerWarnAt : ℕ := 64

/-- `_liveTrackerCounts`. -/
def Trackers.liveTrackerCounts (s : Trackers ε) (kind : CollectorKind) : ℕ := (s.timers kind).card

/-- The number that a tick makes of what a callback returns. -/
def count : CollectorKind → Result → F64
  | .queue, raw => raw.count
  | .pool, raw => maxZero raw.count

/-- What the ticks of a tracker read and change. -/
def Trackers.poller (s : Trackers ε) (h : Handle ε) : Poller ε :=
  ⟨s.gauges, s.collectorErrors, h.warnedFailure, h.log⟩

/-- The process after a tick of the handle in the place `i` has changed `p`. -/
def Trackers.write (s : Trackers ε) (i : ℕ) (h : Handle ε) (ticks : List (Option Pending))
    (p : Poller ε) : Trackers ε :=
  { s with
    handles := s.handles.set i { h with warnedFailure := p.seenFailure, log := p.log, ticks }
    gauges := p.gauges
    collectorErrors := p.collectorErrors }

/-- A call of `tick`; `call` is what its first callback does at once. -/
def Trackers.tick (s : Trackers ε) (i : ℕ) (call : Called ε) : Trackers ε :=
  match s.handles[i]? with
  | some h =>
    let after := proceed h.tracker [] (s.poller h) h.sources call
    s.write i h (h.ticks ++ [after.1]) after.2
  | none => s

/-- The promise that the `j`-th tick awaits settles; `call` is what the callback that it calls next
does at once. -/
def Trackers.resume (s : Trackers ε) (i j : ℕ) (outcome : Except ε Result) (call : Called ε) :
    Trackers ε :=
  match s.handles[i]? with
  | some h =>
    match h.ticks[j]? with
    | some (some w) =>
      let after := w.resume h.tracker (count h.tracker.collector) outcome call (s.poller h)
      s.write i h (h.ticks.set j after.1) after.2
    | some none | none => s
  | none => s

/-- The arguments of `trackQueue` and of `trackPool`, as far as they are not callbacks. -/
structure TrackCall where
  kind : CollectorKind
  name : String
  intervalMs : Value ℚ
  /-- A pool has a `waitingFn`. -/
  waiting : Bool
  /-- `max` of a pool. -/
  max : Option F64

/-- The gauges of the callbacks. -/
def TrackCall.sources (c : TrackCall) : List Family :=
  match c.kind with
  | .queue => [.queueDepth]
  | .pool => poolSources c.waiting

/-- The text for an interval that is refused. -/
def intervalMessage : CollectorKind → String
  | .queue =>
    "trackQueue: opts.intervalMs must be a positive finite number of milliseconds, got "
  | .pool => "trackPool: opts.intervalMs must be a positive finite number of milliseconds, got "

/-- The checks of a call, with the service that is set: the service that its samples carry. -/
def TrackCall.accept (c : TrackCall) (service : Option String) : Except (Thrown ℚ) String := do
  let service ← getService service
  let _ ← checkPositive (intervalMessage c.kind) (orDefault c.intervalMs)
  return service

/-- `_warnEmptyName`. -/
def Trackers.warnEmptyName (s : Trackers ε) (kind : CollectorKind) (name : String) : Trackers ε :=
  if trim name = "" then { s with printed := s.printed ++ [.emptyName kind name] } else s

/-- `opts.max > 0`. -/
def isPositive : F64 → Bool
  | .int n => decide (0 < n)
  | .posInf => true
  | .negInf | .nan => false

/-- The gauges after a call of `trackPool` has set the maximum of the pool, if there is one. -/
def TrackCall.setMax (c : TrackCall) (service : String) (gauges : Store GaugeKey F64) :
    Store GaugeKey F64 :=
  match c.kind, c.max with
  | .pool, some max =>
    if isPositive max then gauges.set ⟨.poolMax, service, c.name⟩ max else gauges
  | .pool, none | .queue, _ => gauges

/-- The process with the closures of a call that is accepted, before its first tick. -/
def Trackers.create (s : Trackers ε) (c : TrackCall) (service : String) : Trackers ε :=
  { s with
    handles := s.handles ++ [⟨⟨c.kind, service, c.name⟩, c.sources, true, false, false, [], []⟩]
    gauges := c.setMax service s.gauges }

/-- The attachment of the timer in the place `i`, which a call makes through a copy. -/
def Trackers.attachment (s : Trackers ε) (copy : ℕ) (c : TrackCall) (i : ℕ) : Attachment :=
  ⟨copy, c.kind, (insert i (s.timers c.kind)).card, c.name⟩

/-- `_attachStop`, in a copy of the module. -/
def Trackers.attachStop (s : Trackers ε) (copy : ℕ) (c : TrackCall) (i : ℕ) : Trackers ε :=
  let a := s.attachment copy c i
  let s := { s with
    timers := Function.update s.timers c.kind (insert i (s.timers c.kind)) }
  if liveTrackerWarnAt < a.size ∧ s.warnedSets copy c.kind = false then
    { s with
      warnedSets := Function.update s.warnedSets copy
        (Function.update (s.warnedSets copy) c.kind true)
      printed := s.printed ++ [.live a] }
  else s

/-- `trackQueue` or `trackPool`, called in a copy of the module: the place of the handle, or the
error. The first tick starts at once. -/
def Trackers.track (s : Trackers ε) (copy : ℕ) (c : TrackCall) (call : Called ε) :
    Except (Thrown ℚ) ℕ × Trackers ε :=
  let s := s.warnEmptyName c.kind c.name
  match c.accept s.service with
  | .error e => (.error e, s)
  | .ok service =>
    let i := s.handles.length
    (.ok i, ((s.create c service).tick i call).attachStop copy c i)

/-- `stop` of a handle. -/
def Trackers.stop (s : Trackers ε) (i : ℕ) : Trackers ε :=
  match s.handles[i]? with
  | some h =>
    if h.stopped then s
    else
      { s with
        handles := s.handles.set i { h with stopped := true, armed := false }
        timers := Function.update s.timers h.tracker.collector
          ((s.timers h.tracker.collector).erase i) }
  | none => s

/-- `clearInterval` of a handle. -/
def Trackers.clearInterval (s : Trackers ε) (i : ℕ) : Trackers ε :=
  match s.handles[i]? with
  | some h => { s with handles := s.handles.set i { h with armed := false } }
  | none => s

/-- What happens in a process. -/
inductive Event (ε : Type) where
  | setService (service : Option String)
  | track (copy : ℕ) (c : TrackCall) (call : Called ε)
  /-- An interval fires. -/
  | fire (i : ℕ) (call : Called ε)
  | resume (i j : ℕ) (outcome : Except ε Result) (call : Called ε)
  | stop (i : ℕ)
  | clearInterval (i : ℕ)

/-- One event. A cleared interval does not fire. -/
def step (s : Trackers ε) : Event ε → Trackers ε
  | .setService service => { s with service := setService service }
  | .track copy c call => (s.track copy c call).2
  | .fire i call => if s.handles[i]?.any (·.armed) then s.tick i call else s
  | .resume i j outcome call => s.resume i j outcome call
  | .stop i => s.stop i
  | .clearInterval i => s.clearInterval i

/-! ## What happens in an event -/

/-- A tick of the handle in the place `i` begins. -/
def begun (i : ℕ) (s : Trackers ε) : Event ε → ℕ
  | .track _ c _ =>
    match c.accept s.service with
    | .ok _ => if s.handles.length = i then 1 else 0
    | .error _ => 0
  | .fire j _ => if j = i ∧ s.handles[i]?.any (·.armed) then 1 else 0
  | .setService _ | .resume .. | .stop _ | .clearInterval _ => 0

/-- The readings of the ticks that end in a call of `tick`, with the places of their handles. -/
def Trackers.endedTick (s : Trackers ε) (i : ℕ) (call : Called ε) :
    List (ℕ × (Family → Except ε F64)) :=
  match s.handles[i]? with
  | some h => (AsyncTicks.ended [] h.sources call).map (i, ·)
  | none => []

/-- The readings of the ticks that end in an event, with the places of their handles. -/
def ended (s : Trackers ε) : Event ε → List (ℕ × (Family → Except ε F64))
  | .track _ c call =>
    match c.accept s.service with
    | .ok service => (s.create c service).endedTick s.handles.length call
    | .error _ => []
  | .fire i call => if s.handles[i]?.any (·.armed) then s.endedTick i call else []
  | .resume i j outcome call =>
    match s.handles[i]? with
    | some h =>
      match h.ticks[j]? with
      | some (some w) => (w.ended (count h.tracker.collector) outcome call).map (i, ·)
      | some none | none => []
    | none => []
  | .setService _ | .stop _ | .clearInterval _ => []

/-- The readings of the ticks of the handle in the place `i`. -/
def readings (i : ℕ) (ends : List (ℕ × (Family → Except ε F64))) : List (Family → Except ε F64) :=
  (ends.filter fun e => e.1 = i).map Prod.snd

/-- The ticks of a handle that await a callback. -/
def Trackers.awaiting (s : Trackers ε) (i : ℕ) : ℕ :=
  match s.handles[i]? with
  | some h => h.ticks.countP Option.isSome
  | none => 0

/-- A handle after some steps. -/
structure Handle.Later (h h' : Handle ε) : Prop where
  tracker : h'.tracker = h.tracker
  sources : h'.sources = h.sources
  armed : h.armed = false → h'.armed = false
  stopped : h.stopped = true → h'.stopped = true

variable {s : Trackers ε} {i j : ℕ} {h : Handle ε}

/-- A handle is later than itself. -/
theorem Handle.Later.refl (h : Handle ε) : h.Later h := ⟨rfl, rfl, id, id⟩

/-- The handles after one of them has changed. -/
theorem getElem?_set_handle {l : List (Handle ε)} (hi : l[i]? = some h) (h' : Handle ε) (j : ℕ) :
    (l.set i h')[j]? = if i = j then some h' else l[j]? := by
  have hlt : i < l.length := (List.getElem?_eq_some_iff.mp hi).1
  rw [List.getElem?_set, if_pos hlt]

/-- A handle that changes becomes a later one. -/
theorem later_set {l : List (Handle ε)} (hi : l[i]? = some h) {k h' : Handle ε}
    (hk : l[j]? = some k) (hlater : h.Later h') :
    ∃ k', (l.set i h')[j]? = some k' ∧ k.Later k' := by
  rw [getElem?_set_handle hi]
  by_cases hij : i = j
  · subst hij
    obtain rfl := Option.some.inj (hi.symm.trans hk)
    exact ⟨h', if_pos rfl, hlater⟩
  · exact ⟨k, (if_neg hij).trans hk, .refl k⟩

/-- A call of `tick` leaves later handles. -/
theorem later_tick (i : ℕ) (call : Called ε) {k : Handle ε} (hk : s.handles[j]? = some k) :
    ∃ k', (s.tick i call).handles[j]? = some k' ∧ k.Later k' := by
  unfold Trackers.tick
  cases hi : s.handles[i]? with
  | none => exact ⟨k, hk, .refl k⟩
  | some h =>
    refine later_set hi hk ?_
    exact ⟨rfl, rfl, id, id⟩

/-- `_attachStop` leaves the handles. -/
theorem handles_attachStop (s : Trackers ε) (copy : ℕ) (c : TrackCall) (i : ℕ) :
    (s.attachStop copy c i).handles = s.handles := by
  unfold Trackers.attachStop
  dsimp only
  split_ifs <;> rfl

/-- `_attachStop` leaves the samples. -/
theorem samples_attachStop (s : Trackers ε) (copy : ℕ) (c : TrackCall) (i : ℕ) :
    (s.attachStop copy c i).gauges = s.gauges ∧
      (s.attachStop copy c i).collectorErrors = s.collectorErrors := by
  unfold Trackers.attachStop
  dsimp only
  split_ifs <;> exact ⟨rfl, rfl⟩

/-- The warnings of live trackers that a copy has printed for a kind. -/
def warnings (copy : ℕ) (kind : CollectorKind) (printed : List Printed) : List Attachment :=
  printed.filterMap fun line => match line with
    | .live a => if a.copy = copy ∧ a.kind = kind then some a else none
    | .emptyName .. => none

/-- `_warnEmptyName` only prints, and nothing of live trackers. -/
theorem warnEmptyName_eq (s : Trackers ε) (kind : CollectorKind) (name : String) :
    ∃ printed, (∀ copy kind, warnings copy kind printed = warnings copy kind s.printed) ∧
      s.warnEmptyName kind name = { s with printed } := by
  unfold Trackers.warnEmptyName
  split_ifs
  · refine ⟨_, ?_, rfl⟩
    intro copy kind
    rw [warnings, List.filterMap_append]
    exact List.append_nil _
  · exact ⟨s.printed, fun _ _ => rfl, rfl⟩

/-- A call that throws only prints. -/
theorem track_of_error {c : TrackCall} {err : Thrown ℚ} (h : c.accept s.service = .error err)
    (copy : ℕ) (call : Called ε) :
    ∃ printed, (∀ copy kind, warnings copy kind printed = warnings copy kind s.printed) ∧
      (s.track copy c call).2 = { s with printed } := by
  obtain ⟨printed, hprinted, hwarn⟩ := warnEmptyName_eq s c.kind c.name
  refine ⟨printed, hprinted, ?_⟩
  unfold Trackers.track
  rw [hwarn]
  dsimp only
  rw [h]

/-- A call that returns. -/
theorem track_of_ok {c : TrackCall} {service : String} (h : c.accept s.service = .ok service)
    (copy : ℕ) (call : Called ε) :
    ∃ printed, (∀ copy kind, warnings copy kind printed = warnings copy kind s.printed) ∧
      (s.track copy c call).2 =
        ((({ s with printed } : Trackers ε).create c service).tick s.handles.length call).attachStop
          copy c s.handles.length := by
  obtain ⟨printed, hprinted, hwarn⟩ := warnEmptyName_eq s c.kind c.name
  refine ⟨printed, hprinted, ?_⟩
  unfold Trackers.track
  rw [hwarn]
  dsimp only
  rw [h]

/-- A call that is accepted adds a handle to the process. -/
theorem handles_tick_create (s : Trackers ε) (c : TrackCall) (service : String) (call : Called ε) :
    ∃ k, ((s.create c service).tick s.handles.length call).handles = s.handles ++ [k] ∧
      k.tracker = ⟨c.kind, service, c.name⟩ ∧ k.stopped = false := by
  have hnew : (s.create c service).handles[s.handles.length]? =
      some ⟨⟨c.kind, service, c.name⟩, c.sources, true, false, false, [], []⟩ :=
    List.getElem?_concat_length
  unfold Trackers.tick
  rw [hnew]
  dsimp only [Trackers.write, Trackers.create]
  rw [List.set_append_right _ _ le_rfl, Nat.sub_self]
  exact ⟨_, rfl, rfl, rfl⟩

/-- A call leaves the handles that there are. -/
theorem getElem?_track (copy : ℕ) (c : TrackCall) (call : Called ε) (hj : j < s.handles.length) :
    (s.track copy c call).2.handles[j]? = s.handles[j]? := by
  cases haccept : c.accept s.service with
  | error err =>
    obtain ⟨printed, -, htrack⟩ := track_of_error haccept copy call
    rw [htrack]
  | ok service =>
    obtain ⟨printed, -, htrack⟩ := track_of_ok haccept copy call
    obtain ⟨k, hhandles, -⟩ := handles_tick_create { s with printed } c service call
    rw [htrack, handles_attachStop, hhandles]
    exact List.getElem?_append_left hj

/-- Every event leaves later handles. -/
theorem later_step (e : Event ε) {k : Handle ε} (hk : s.handles[j]? = some k) :
    ∃ k', (step s e).handles[j]? = some k' ∧ k.Later k' := by
  cases e with
  | setService service => exact ⟨k, hk, .refl k⟩
  | track copy c call =>
    have hlt : j < s.handles.length := (List.getElem?_eq_some_iff.mp hk).1
    exact ⟨k, (getElem?_track copy c call hlt).trans hk, .refl k⟩
  | fire i call =>
    rw [step]
    split_ifs
    · exact later_tick i call hk
    · exact ⟨k, hk, .refl k⟩
  | resume i m outcome call =>
    -- Only a tick under way is resumed, and it leaves what the handle is about.
    show ∃ k', (s.resume i m outcome call).handles[j]? = some k' ∧ _
    unfold Trackers.resume
    cases hi : s.handles[i]? with
    | none => exact ⟨k, hk, .refl k⟩
    | some h =>
      dsimp only
      rcases h.ticks[m]? with _ | _ | w
      · exact ⟨k, hk, .refl k⟩
      · exact ⟨k, hk, .refl k⟩
      · refine later_set hi hk ?_
        exact ⟨rfl, rfl, id, id⟩
  | stop i =>
    show ∃ k', (s.stop i).handles[j]? = some k' ∧ _
    unfold Trackers.stop
    cases hi : s.handles[i]? with
    | none => exact ⟨k, hk, .refl k⟩
    | some h =>
      dsimp only
      split_ifs
      · exact ⟨k, hk, .refl k⟩
      · refine later_set hi hk ?_
        exact ⟨rfl, rfl, fun _ => rfl, fun _ => rfl⟩
  | clearInterval i =>
    show ∃ k', (s.clearInterval i).handles[j]? = some k' ∧ _
    unfold Trackers.clearInterval
    cases hi : s.handles[i]? with
    | none => exact ⟨k, hk, .refl k⟩
    | some h =>
      refine later_set hi hk ?_
      exact ⟨rfl, rfl, fun _ => rfl, id⟩

/-- `_attachStop` adds a timer to the set of its kind. -/
theorem timers_attachStop (s : Trackers ε) (copy : ℕ) (c : TrackCall) (i : ℕ) :
    (s.attachStop copy c i).timers =
      Function.update s.timers c.kind (insert i (s.timers c.kind)) := by
  unfold Trackers.attachStop
  dsimp only
  split_ifs <;> rfl

/-- A call of `tick` leaves the sets. -/
theorem timers_tick (s : Trackers ε) (i : ℕ) (call : Called ε) :
    (s.tick i call).timers = s.timers := by
  unfold Trackers.tick
  cases s.handles[i]? <;> rfl

/-- The readings of another handle are not among these. -/
theorem readings_map_of_ne (hij : j ≠ i) (reads : List (Family → Except ε F64)) :
    readings i (reads.map (j, ·)) = [] := by
  simp [readings, List.filter_map, Function.comp_def, hij]

/-- The readings of one handle. -/
theorem readings_map_self (reads : List (Family → Except ε F64)) :
    readings i (reads.map (i, ·)) = reads := by
  simp [readings, List.filter_map, Function.comp_def]

end SimsysMetrics.Node.TrackCalls
