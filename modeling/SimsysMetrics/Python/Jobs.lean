import Mathlib.Data.List.Basic
import SimsysMetrics.Contract
import SimsysMetrics.Lib.Runs

/-!
# Tracked jobs of the Python lane

`_job_span` and `track_job` of `simsys_metrics/_baseline.py`. The span is a generator: entered, it
is suspended in its `yield`; left, it records once, and one that is dropped while it is suspended is
left by `GeneratorExit`.

As a decorator, `track_job` puts the span around the await where it takes the function for a
coroutine function, and else around the call. `inspect` sees through `functools.partial` and bound
methods only, and through no bound method of a partial inside a partial. So a job is recorded after
its work exactly where nothing else is around its `async def`, but for one instance with such a
`__call__` outside (`recordedAfter_iff`).

As a context manager, a tracker has one slot for its span. So every block is recorded once, at its
exit, exactly in the runs that enter no block while another one of the tracker is open
(`blocks_recorded_iff`).
-/

namespace SimsysMetrics.Python.Jobs

open Lib (Along)

/-! ## The span -/

/-- A generator of `_job_span` that was started: it is suspended in its `yield`, with the service
that it read, or it is finished. -/
inductive JobSpan where
  | suspended (service : String)
  | finished
deriving DecidableEq, Repr

/-- The outcome of a block. -/
def outcomeOf (raised : Bool) : JobOutcome := if raised then .error else .success

/-- What a span records when it is left, normally or by an exception. -/
def JobSpan.leave (job : String) (raised : Bool) : JobSpan → List JobLabels
  | .suspended service => [⟨service, job, outcomeOf raised⟩]
  | .finished => []

/-- What a span records when it is dropped: a suspended generator is left by `GeneratorExit`. -/
def JobSpan.drop (job : String) (span : JobSpan) : List JobLabels := span.leave job true

/-- The start of a span: `get_service` raises if no service is set. -/
def JobSpan.start : Option String → JobSpan
  | some service => .suspended service
  | none => .finished

/-! ## The decorator -/

/-- A callable that is built from an `async def` function: the function itself, a
`functools.partial`, a plain function that returns the coroutine of the one that it wraps, a bound
method, or an instance whose class has a `__call__`. -/
inductive Callable where
  | asyncDef
  | partialApp (func : Callable)
  | wraps (wrapped : Callable)
  | boundMethod (func : Callable)
  | callableInstance (call : Callable)
deriving DecidableEq, Repr

/-- What bound methods are bound to. -/
def unwrapMethods : Callable → Callable
  | .boundMethod func => unwrapMethods func
  | fn => fn

/-- What partials are applications of. -/
def unwrapPartial : Callable → Callable
  | .partialApp func => unwrapPartial func
  | fn => fn

/-- The flag in the `__code__` of a function; a bound method shows the attributes of its function.
-/
def hasCodeFlag : Callable → Bool
  | .asyncDef => true
  | .boundMethod func => hasCodeFlag func
  | .partialApp _ | .wraps _ | .callableInstance _ => false

/-- `inspect.iscoroutinefunction`: it looks through bound methods, then through partials, and then
at the flag. -/
def iscoroutinefunction (fn : Callable) : Bool := hasCodeFlag (unwrapPartial (unwrapMethods fn))

/-- `is_async`. The `__call__` of a function, a partial or a method is the one of its built-in
type. -/
def isAsync (fn : Callable) : Bool :=
  iscoroutinefunction fn ||
    match fn with
    | .callableInstance call => iscoroutinefunction call
    | _ => false

/-- What happens when the result of a call is awaited. -/
inductive Moment where
  /-- The awaited work has finished, and raised or not. -/
  | finished (raised : Bool)
  /-- A job observation. -/
  | recorded (labels : JobLabels)
deriving DecidableEq, Repr

/-- What happens in a call of a callable, and what when the coroutine that it returns is awaited. -/
def Callable.call (raised : Bool) : Callable → List Moment × List Moment
  | .asyncDef => ([], [.finished raised])
  | .partialApp func => func.call raised
  | .wraps wrapped => wrapped.call raised
  | .boundMethod func => func.call raised
  | .callableInstance call => call.call raised

/-- A block under `with _job_span(job)`; it is not entered without a service. -/
def withSpan (service : Option String) (job : String) (block : List Moment) (raised : Bool) :
    List Moment :=
  match service with
  | some s => block ++ ((JobSpan.suspended s).leave job raised).map .recorded
  | none => []

/-- One call of `track_job(job)(fn)`, with its result awaited. -/
def trackJob (service : Option String) (job : String) (fn : Callable) (raised : Bool) :
    List Moment :=
  let (called, awaited) := fn.call raised
  if isAsync fn then withSpan service job (called ++ awaited) raised
  else
    -- The call returns the coroutine, if `get_service` did not raise.
    withSpan service job called false ++ (if service.isSome then awaited else [])

/-- Exactly one observation is made, after the awaited work has finished, with the outcome of the
work. -/
def RecordedAfter (raised : Bool) (moments : List Moment) : Prop :=
  ∃ before labels, moments = before ++ [.recorded labels] ∧ .finished raised ∈ before ∧
    (∀ l, .recorded l ∉ before) ∧ labels.outcome = outcomeOf raised

/-- A callable with nothing but bound methods around its `async def`. -/
inductive Bound : Callable → Prop where
  | asyncDef : Bound .asyncDef
  | boundMethod {func : Callable} (h : Bound func) : Bound (.boundMethod func)

/-- Any partials of such a callable. -/
inductive Applied : Callable → Prop where
  | bound {func : Callable} (h : Bound func) : Applied func
  | partialApp {func : Callable} (h : Applied func) : Applied (.partialApp func)

/-- A callable with nothing but partials and bound methods around its `async def`, and no bound
method of a partial inside a partial: any bound methods of these partials. -/
inductive Transparent : Callable → Prop where
  | applied {func : Callable} (h : Applied func) : Transparent func
  | boundMethod {func : Callable} (h : Transparent func) : Transparent (.boundMethod func)

/-- Bound methods show the flag. -/
theorem hasCodeFlag_iff (fn : Callable) : hasCodeFlag fn = true ↔ Bound fn := by
  induction fn with
  | asyncDef => exact iff_of_true rfl .asyncDef
  | boundMethod func ih =>
    refine ih.trans ⟨.boundMethod, ?_⟩
    rintro (_ | h)
    exact h
  | partialApp | wraps | callableInstance =>
    refine iff_of_false Bool.false_ne_true ?_
    rintro ⟨⟩

/-- The flag of what partials are applications of. -/
theorem unwrapPartial_iff (fn : Callable) :
    hasCodeFlag (unwrapPartial fn) = true ↔ Applied fn := by
  induction fn with
  | partialApp func ih =>
    refine ih.trans ⟨.partialApp, ?_⟩
    rintro (⟨⟨⟩⟩ | h)
    exact h
  | asyncDef | wraps | boundMethod | callableInstance =>
    refine (hasCodeFlag_iff _).trans ⟨.bound, ?_⟩
    rintro ⟨h⟩
    exact h

/-- `inspect` sees the transparent callables. -/
theorem iscoroutinefunction_iff (fn : Callable) :
    iscoroutinefunction fn = true ↔ Transparent fn := by
  induction fn with
  | boundMethod func ih =>
    refine ih.trans ⟨.boundMethod, ?_⟩
    rintro (⟨⟨_ | h⟩⟩ | h)
    · exact .applied (.bound h)
    · exact h
  | asyncDef | wraps | partialApp | callableInstance =>
    refine (unwrapPartial_iff _).trans ⟨.applied, ?_⟩
    rintro ⟨h⟩
    exact h

/-- It does not see through a bound method of a partial inside a partial. -/
example : iscoroutinefunction (.partialApp (.boundMethod (.partialApp .asyncDef))) = false := rfl

/-- `track_job` takes a callable for a coroutine function exactly where it is transparent, or an
instance whose `__call__` is. -/
theorem isAsync_iff (fn : Callable) :
    isAsync fn = true ↔
      Transparent fn ∨ ∃ call, fn = .callableInstance call ∧ Transparent call := by
  unfold isAsync
  rw [Bool.or_eq_true, iscoroutinefunction_iff]
  refine or_congr_right ?_
  cases fn with
  | callableInstance call => simp [iscoroutinefunction_iff]
  | asyncDef => simp
  | partialApp func => simp
  | wraps wrapped => simp
  | boundMethod func => simp

/-- Nothing happens in a call, and the work when its result is awaited. -/
theorem call_eq (raised : Bool) (fn : Callable) : fn.call raised = ([], [.finished raised]) := by
  induction fn with
  | asyncDef => rfl
  | partialApp func ih => exact ih
  | wraps wrapped ih => exact ih
  | boundMethod func ih => exact ih
  | callableInstance call ih => exact ih

/-- Without a service the work is not started. -/
theorem trackJob_no_service (job : String) (fn : Callable) (raised : Bool) :
    trackJob none job fn raised = [] := by
  have hspan : ∀ block raised, withSpan none job block raised = [] := fun _ _ => rfl
  simp [trackJob, hspan]

/-- One call of a tracked job is recorded once, after its work, with its outcome, exactly where a
service is set and the callable is transparent, or an instance whose `__call__` is. -/
theorem recordedAfter_iff (service : Option String) (job : String) (fn : Callable)
    (raised : Bool) : RecordedAfter raised (trackJob service job fn raised) ↔
      service.isSome ∧
        (Transparent fn ∨ ∃ call, fn = .callableInstance call ∧ Transparent call) := by
  rw [← isAsync_iff]
  cases service with
  | none =>
    rw [trackJob_no_service]
    refine iff_of_false ?_ (by simp)
    rintro ⟨before, labels, heq, -⟩
    exact absurd heq.symm (List.append_ne_nil_of_right_ne_nil _ (List.cons_ne_nil _ _))
  | some s =>
    cases hasync : isAsync fn with
    | true =>
      refine iff_of_true ⟨[.finished raised], ⟨s, job, outcomeOf raised⟩, ?_, by simp, by simp, rfl⟩
        ⟨rfl, rfl⟩
      simp [trackJob, hasync, call_eq, withSpan, JobSpan.leave]
    | false =>
      -- The observation was made when the coroutine was returned.
      have htrace : trackJob (some s) job fn raised =
          [.recorded ⟨s, job, outcomeOf false⟩] ++ [.finished raised] := by
        simp [trackJob, hasync, call_eq, withSpan, JobSpan.leave]
      rw [htrace]
      refine iff_of_false ?_ (by simp)
      rintro ⟨before, labels, heq, -⟩
      have hlast := (List.append_inj' heq rfl).2
      cases hlast

/-- A decorated job that raised is recorded as a success before it has run. -/
theorem wraps_recorded_before :
    trackJob (some "portal") "export" (.wraps .asyncDef) true =
        [.recorded ⟨"portal", "export", .success⟩, .finished true] ∧
      ¬ RecordedAfter true (trackJob (some "portal") "export" (.wraps .asyncDef) true) := by
  refine ⟨rfl, ?_⟩
  rintro ⟨before, labels, heq, -⟩
  have hlast := (List.append_inj' (heq : [_] ++ [_] = _) rfl).2
  cases hlast

/-! ## The context manager -/

/-- A tracker, with the blocks of it that are open. -/
structure Tracker where
  /-- `self._cm`. -/
  cm : Option JobSpan
  opened : List ℕ
deriving DecidableEq, Repr

/-- A tracker that was not used. -/
def Tracker.fresh : Tracker := ⟨none, []⟩

/-- A block is entered, with the service that is set then, or exited. -/
inductive Event where
  | enter (block : ℕ) (service : Option String)
  | exit (block : ℕ) (raised : Bool)
deriving DecidableEq, Repr

/-- `__enter__` and `__exit__`. A block whose `__enter__` raises is not entered. -/
def step (s : Tracker) : Event → Tracker
  -- The slot is overwritten, whatever it holds.
  | .enter block service =>
    ⟨some (.start service), if service.isSome then block :: s.opened else s.opened⟩
  -- The span in the slot is left, be it this block's or another's.
  | .exit block _ => ⟨s.cm.map fun _ => .finished, s.opened.erase block⟩

/-- What an event records: entering a block drops the span that was in the slot, and exiting one
leaves the span that is. -/
def recorded (job : String) (s : Tracker) : Event → List JobLabels
  | .enter _ _ => (s.cm.map (·.drop job)).getD []
  | .exit _ raised => (s.cm.map (·.leave job raised)).getD []

/-- Each exit is of a block that is open, and each block that is entered is another one. -/
def Matches (s : Tracker) : Event → Prop
  | .enter block _ => block ∉ s.opened
  | .exit block _ => block ∈ s.opened

/-- An exit records one observation, with the outcome of the block, and nothing else records. -/
def RecordsBlock (job : String) (s : Tracker) (e : Event) : Prop :=
  match e with
  | .enter _ _ => recorded job s e = []
  | .exit _ raised => (recorded job s e).map (·.outcome) = [outcomeOf raised]

/-- No block is entered while another one is open. -/
def Alone (s : Tracker) : Event → Prop
  | .enter _ _ => s.opened = []
  | .exit _ _ => True

/-- The states of runs in which no blocks overlap: one block is open and the slot has its span, or
none is and the slot has no suspended one. -/
def Single (s : Tracker) : Prop :=
  (∃ service block, s.cm = some (.suspended service) ∧ s.opened = [block]) ∨
    s.opened = [] ∧ (s.cm = none ∨ s.cm = some .finished)

instance (s : Tracker) : ∀ e, Decidable (Matches s e)
  | .enter block _ => inferInstanceAs (Decidable (block ∉ s.opened))
  | .exit block _ => inferInstanceAs (Decidable (block ∈ s.opened))

/-- In such a state, an event records what it should exactly where it enters no second block. -/
theorem recordsBlock_iff {s : Tracker} (h : Single s) {e : Event} (he : Matches s e)
    (job : String) : RecordsBlock job s e ↔ Alone s e := by
  rcases h with ⟨service, block, hcm, hopened⟩ | ⟨hopened, hcm⟩
  · cases e with
    | enter b service' =>
      -- The span of the open block is dropped.
      refine iff_of_false ?_ ?_
      · simp [RecordsBlock, recorded, hcm, JobSpan.drop, JobSpan.leave]
      · simp [Alone, hopened]
    | exit b raised => simp [RecordsBlock, recorded, hcm, JobSpan.leave, Alone]
  · cases e with
    | enter b service' =>
      refine iff_of_true ?_ hopened
      rcases hcm with hcm | hcm <;> simp [RecordsBlock, recorded, hcm, JobSpan.drop, JobSpan.leave]
    | exit b raised =>
      have hb : b ∈ s.opened := he
      rw [hopened] at hb
      cases hb

/-- An event that enters no second block leaves such a state. -/
theorem single_step {s : Tracker} (h : Single s) {e : Event} (he : Matches s e)
    (halone : Alone s e) : Single (step s e) := by
  cases e with
  | enter b service =>
    have hopened : s.opened = [] := halone
    cases service with
    | none => exact Or.inr ⟨hopened, Or.inr rfl⟩
    | some v => exact Or.inl ⟨v, b, rfl, by simp [step, hopened]⟩
  | exit b raised =>
    have hb : b ∈ s.opened := he
    rcases h with ⟨service, block, hcm, hopened⟩ | ⟨hopened, -⟩
    · rw [hopened, List.mem_singleton] at hb
      subst hb
      exact Or.inr ⟨by simp [step, hopened], Or.inr (by simp [step, hcm])⟩
    · rw [hopened] at hb
      cases hb

/-- In every run in which each exit matches an earlier enter, every block is recorded once, at its
exit, with its outcome, and nothing else is, exactly where no block is entered while another one of
the tracker is open. -/
theorem blocks_recorded_iff (job : String) {es : List Event}
    (h : Along step Matches .fresh es) :
    Along step (RecordsBlock job) .fresh es ↔ Along step Alone .fresh es := by
  have hall : ∀ s, Single s → Along step Matches s es →
      (Along step (RecordsBlock job) s es ↔ Along step Alone s es) := by
    clear h
    induction es with
    | nil => exact fun _ _ _ => Iff.rfl
    | cons e es ih =>
      rintro s hs ⟨he, hes⟩
      -- Up to the first event that is not alone both conditions keep the state single.
      refine and_congr_left' (recordsBlock_iff hs he job) |>.trans ?_
      refine and_congr_right_iff.mpr fun halone => ?_
      exact ih (step s e) (single_step hs he halone) hes
  exact hall .fresh (Or.inr ⟨rfl, Or.inl rfl⟩) h

/-- Two nested blocks of one tracker. -/
def nestedBlocks : List Event :=
  [.enter 0 (some "portal"), .enter 1 (some "portal"), .exit 1 false, .exit 0 false]

/-- Neither raises, but the outer one is recorded as an error when the inner one is entered, and not
at its own exit. -/
theorem nested_not_recorded : Along step Matches .fresh nestedBlocks ∧
    ¬ Along step (RecordsBlock "export") .fresh nestedBlocks := by
  refine ⟨by decide, ?_⟩
  rintro ⟨-, hsecond, -⟩
  cases hsecond

/-- For the nested blocks. -/
theorem blocks_recorded_iff_nested :
    Along step (RecordsBlock "export") .fresh nestedBlocks ↔
      Along step Alone .fresh nestedBlocks :=
  blocks_recorded_iff "export" (by decide)

end SimsysMetrics.Python.Jobs
