import Mathlib.Data.Nat.Notation
import SimsysMetrics.Contract
import SimsysMetrics.Lib.Thenable

/-!
# Tracked jobs of the Node lane

`trackJob` of `node/src/baseline.ts`, in both shapes: the wrapper (`wrapClean`) and `run`. A call of
the job's function throws, returns a plain value, or returns a thenable. What the service is when
the tracker records depends on the moment, so it is a parameter; so is the moment in which `run`
goes on after its `await`.

`run` awaits the job, and records what that gives. The wrapper records the first thing that the
job's thenable tells, which need not be what awaiting it gives: a thenable may be fulfilled with
another one, for which the wrapper does not wait. If no service is set when a tracker records,
`record` throws in place of what the job gave. The caller of the wrapper gets what `then` of the
job's thenable makes of the callbacks (`trackJob_eq`). So a tracked job is counted by its outcome
and keeps its result exactly where its thenable is not fulfilled with one that does not fulfil, and
hands its result on (`trackJob_once_iff`); and, if the service may be missing, one is set when it is
recorded (`trackJob_own_iff`).
-/

namespace SimsysMetrics.Node.Jobs

open Lib (Thenable First Handlers)

/-- An exception: the one of `getService`, or another. -/
inductive Thrown (E : Type) where
  | noService
  | thrown (e : E)
deriving DecidableEq, Repr

/-- What a call of the job's function does: it throws, returns a value without a method `then`, or
returns a thenable. -/
inductive Call (σ V E : Type) where
  | throws (m : σ) (e : Thrown E)
  | returns (m : σ) (v : V)
  | thenable (t : Thenable σ V (Thrown E))

/-- The two shapes of a tracked job. -/
inductive Shape where
  | wrapper
  | run
deriving DecidableEq, Repr

/-- What a tracked call does: whether it invoked the function, what its caller gets, if anything,
and the labels under which it is counted and its duration is observed. -/
structure Tracked (V E : Type) where
  invoked : Bool
  received : Option (Except (Thrown E) V)
  records : List JobLabels

section TrackJob

variable {σ V E : Type} (service : σ → Option String) (job : String)

/-- `record`: `getService` throws if no service is set. -/
def record (m : σ) (outcome : JobOutcome) : Except (Thrown E) JobLabels :=
  match service m with
  | some s => .ok ⟨s, job, outcome⟩
  | none => .error .noService

/-- The outcome label of what a job gives. -/
def outcomeOf : Except (Thrown E) V → JobOutcome
  | .ok _ => .success
  | .error _ => .error

/-- The outcome label of the first thing that a thenable tells. -/
def outcomeOfFirst : First σ V (Thrown E) → JobOutcome
  | .fulfilled _ _ | .adopted _ _ => .success
  | .rejected _ _ | .threw _ _ => .error

/-- What one call of the wrapper shares with its callbacks: `settled`, and what was recorded. -/
structure Span where
  settled : Bool
  records : List JobLabels

/-- Recording unless it is settled: what is thrown, if anything, and the state afterwards. -/
def Span.settle (s : Span) (m : σ) (outcome : JobOutcome) : Option (Thrown E) × Span :=
  if s.settled then (none, s)
  else
    match record service job m outcome with
    | .ok r => (none, ⟨true, s.records ++ [r]⟩)
    | .error x => (some x, ⟨true, s.records⟩)

/-- The callbacks that the wrapper gives to `then`, and its `catch` block: each passes on what it is
given unless recording throws. -/
def callbacks : Handlers σ (Thrown E) Span where
  onFulfilled s m := s.settle service job m .success
  onRejected s m := s.settle service job m .error
  onThrow s m := s.settle service job m .error

/-- A call of the function that `wrapClean` returns. -/
def wrapClean (c : Call σ V E) : Tracked V E :=
  match c with
  -- `fn.apply` throws inside the `try`, as a `then` that throws does.
  | .throws m e =>
    let (x, s) := (callbacks service job : Handlers σ (Thrown E) Span).onThrow ⟨false, []⟩ m
    ⟨true, some (.error (x.getD e)), s.records⟩
  | .returns m v =>
    match record service job m .success with
    | .ok r => ⟨true, some (.ok v), [r]⟩
    -- `settled` is set, so the `catch` block throws it again.
    | .error x => ⟨true, some (.error x), []⟩
  | .thenable t =>
    let (received, s) := t.run (callbacks service job) .calling ⟨false, []⟩
    ⟨true, received, s.records⟩

/-- The `catch` block of `run`. -/
def runCatch (m : σ) (e : Thrown E) : Tracked V E :=
  match record service job m .error with
  | .ok r => ⟨true, some (.error e), [r]⟩
  | .error x => ⟨true, some (.error x), []⟩

/-- The rest of `run` after its `await`. -/
def runResume (m : σ) : Except (Thrown E) V → Tracked V E
  | .ok v =>
    match record service job m .success with
    | .ok r => ⟨true, some (.ok v), [r]⟩
    | .error x => runCatch service job m x
  | .error e => runCatch service job m e

/-- `tracker.run`, which goes on in the moment `resumed` after its `await`. -/
def trackerRun (c : Call σ V E) (resumed : σ) : Tracked V E :=
  match c with
  | .throws m e => runCatch service job m e
  -- `await` of a plain value goes on in a later moment as well.
  | .returns _ v => runResume service job resumed (.ok v)
  | .thenable t =>
    match t.awaited .calling with
    | some r => runResume service job resumed r
    | none => ⟨true, none, []⟩

/-- A tracked call in one of the shapes. -/
def trackJob (shape : Shape) (c : Call σ V E) (resumed : σ) : Tracked V E :=
  match shape with
  | .wrapper => wrapClean service job c
  | .run => trackerRun service job c resumed

end TrackJob

/-! ## What the job gives by itself -/

section Own

variable {σ V E : Type}

/-- What awaiting a call of the function gives, if anything. -/
def Call.own : Call σ V E → Option (Except (Thrown E) V)
  | .throws _ e => some (.error e)
  | .returns _ v => some (.ok v)
  | .thenable t => t.awaited .calling

/-- What a tracker records, if anything: the moment, and the outcome. The wrapper takes the first
thing that a thenable tells, `run` what awaiting it gives. -/
def Call.recorded (shape : Shape) (c : Call σ V E) (resumed : σ) : Option (σ × JobOutcome) :=
  match shape, c with
  | _, .throws m _ => some (m, .error)
  | .wrapper, .returns m _ => some (m, .success)
  | .run, .returns _ _ => some (resumed, .success)
  | .wrapper, .thenable t => (t.first .calling).map fun x => (x.moment, outcomeOfFirst x)
  | .run, .thenable t => (t.awaited .calling).map fun r => (resumed, outcomeOf r)

/-- What the caller gets where the tracker answers by passing on, or by throwing `x`: the wrapper
leaves it to the job's thenable. -/
def Call.handed (shape : Shape) (c : Call σ V E) (x : Option (Thrown E)) :
    Option (Except (Thrown E) V) :=
  match shape, c with
  | .wrapper, .thenable t => t.handed x
  | _, c => c.own.map fun r => (x.map .error).getD r

/-- What the tracker throws instead of passing on: the exception of `getService`. -/
def answer : Option String → Option (Thrown E)
  | some _ => none
  | none => some .noService

/-- What the tracker counts and observes under a service. -/
def recordsOf (service : Option String) (job : String) (outcome : JobOutcome) : List JobLabels :=
  match service with
  | some s => [⟨s, job, outcome⟩]
  | none => []

variable (service : σ → Option String) (job : String)

/-- The first thing that a thenable tells is answered and recorded, if a service is set. -/
theorem first_callbacks (x : First σ V (Thrown E)) :
    (callbacks service job).first ⟨false, []⟩ x = (answer (service x.moment),
      ⟨true, recordsOf (service x.moment) job (outcomeOfFirst x)⟩) := by
  cases x with
  | fulfilled m v =>
    cases hm : service m <;> simp [Handlers.first, callbacks, Span.settle, record, hm, answer,
      recordsOf, outcomeOfFirst, First.moment]
  | adopted m inner =>
    cases hm : service m <;> simp [Handlers.first, callbacks, Span.settle, record, hm, answer,
      recordsOf, outcomeOfFirst, First.moment]
  | rejected m e =>
    cases hm : service m <;> simp [Handlers.first, callbacks, Span.settle, record, hm, answer,
      recordsOf, outcomeOfFirst, First.moment]
  | threw m e =>
    cases hm : service m <;> simp [Handlers.first, callbacks, Span.settle, record, hm, answer,
      recordsOf, outcomeOfFirst, First.moment]

/-- A span that is settled passes on what it is given. -/
theorem passive_callbacks (records : List JobLabels) :
    (callbacks service job : Handlers σ (Thrown E) Span).Passive ⟨true, records⟩ :=
  ⟨fun _ => rfl, fun _ => rfl, fun _ => rfl⟩

/-- Settling a span leaves it settled. -/
theorem settle_settled (m : σ) (outcome : JobOutcome) :
    ∃ records, ((Span.mk false []).settle service job m outcome : Option (Thrown E) × Span).2 =
      ⟨true, records⟩ := by
  cases hm : service m <;> simp [Span.settle, record, hm]

/-- The callbacks of the wrapper act once. -/
theorem once_callbacks :
    (callbacks service job : Handlers σ (Thrown E) Span).Once ⟨false, []⟩ := by
  have hpassive : ∀ m outcome, (callbacks service job : Handlers σ (Thrown E) Span).Passive
      ((Span.mk false []).settle service job m outcome : Option (Thrown E) × Span).2 := by
    intro m outcome
    obtain ⟨records, hrecords⟩ := settle_settled (E := E) service job m outcome
    rw [hrecords]
    exact passive_callbacks service job records
  exact ⟨fun m => hpassive m .success, fun m => hpassive m .error, fun m => hpassive m .error⟩

/-- `run` answers and records what it awaited. -/
theorem runResume_eq (m : σ) (r : Except (Thrown E) V) :
    runResume service job m r =
      ⟨true, some (((answer (service m)).map .error).getD r),
        recordsOf (service m) job (outcomeOf r)⟩ := by
  cases r <;> cases hm : service m <;>
    simp [runResume, runCatch, record, hm, answer, recordsOf, outcomeOf]

/-- A tracked call is counted for what the tracker records, and its caller gets what is handed on
for the tracker's answer; where the tracker records nothing, it answers nothing. -/
theorem trackJob_eq (shape : Shape) (c : Call σ V E) (resumed : σ) :
    trackJob service job shape c resumed =
      match c.recorded shape resumed with
      | some (m, outcome) =>
        ⟨true, c.handed shape (answer (service m)), recordsOf (service m) job outcome⟩
      | none => ⟨true, c.handed shape none, []⟩ := by
  cases shape with
  | wrapper =>
    cases c with
    | throws m e =>
      cases hm : service m <;> simp [Call.recorded, trackJob, wrapClean, callbacks, Span.settle,
        record, hm, Call.handed, Call.own, answer, recordsOf]
    | returns m v =>
      cases hm : service m <;> simp [Call.recorded, trackJob, wrapClean, record, hm, Call.handed,
        Call.own, answer, recordsOf]
    | thenable t =>
      -- The callbacks act once, however often the thenable calls them: what the first call records
      -- is what the whole run records.
      have htracked : trackJob service job .wrapper (.thenable t) resumed =
          ⟨true, (t.run (callbacks service job) .calling ⟨false, []⟩).1,
            (t.run (callbacks service job) .calling ⟨false, []⟩).2.records⟩ := rfl
      rw [htracked]
      cases hx : t.first .calling with
      | none =>
        simp only [Call.recorded, hx, Option.map_none]
        rw [Thenable.run_untold hx none]
        rfl
      | some x =>
        simp only [Call.recorded, hx, Option.map_some]
        rw [(once_callbacks service job).run hx, first_callbacks]
        rfl
  | run =>
    cases c with
    | throws m e => exact runResume_eq service job m (.error e)
    | returns m v => exact runResume_eq service job resumed (.ok v)
    | thenable t =>
      -- `run` awaits, and resumes with the settled result.
      cases hr : t.awaited .calling with
      | none => simp [Call.recorded, hr, trackJob, trackerRun, Call.handed, Call.own]
      | some r =>
        simp only [Call.recorded, hr, Option.map_some, trackJob, trackerRun, Call.handed, Call.own]
        exact runResume_eq service job resumed r

end Own

/-! ## The two promises -/

/-- One call is counted once when the job settles, with its outcome and under the service that is
set when the tracker knows of it, and not before; and the caller gets what the job gave. -/
structure CountedOnce {σ V E : Type} (service : σ → Option String) (job : String) (shape : Shape)
    (c : Call σ V E) (resumed : σ) : Prop where
  once : ∀ r, c.own = some r → ∃ m s, (c.recorded shape resumed).map Prod.fst = some m ∧
    service m = some s ∧ (trackJob service job shape c resumed).records = [⟨s, job, outcomeOf r⟩]
  before : c.own = none → (trackJob service job shape c resumed).records = []
  receives : (trackJob service job shape c resumed).received = c.own

section Promises

variable {σ V E : Type} {service : σ → Option String}

/-- A thenable that the wrapper is given is not fulfilled first with one that does not fulfil: that
one is awaited by whoever awaits the job, but not by the wrapper. -/
def Call.Final (shape : Shape) (c : Call σ V E) : Prop :=
  match shape, c with
  | .wrapper, .thenable t => ∀ m inner, t.first .calling = some (.adopted m inner) →
    ∃ v, inner.awaited .calling = some (.ok v)
  | _, _ => True

/-- What awaiting gives has the outcome of the first thing that is told, unless it is a thenable
that does not fulfil. -/
theorem outcomeOf_result_iff (x : First σ V (Thrown E)) :
    x.result.map outcomeOf = some (outcomeOfFirst x) ↔
      ∀ m inner, x = .adopted m inner → ∃ v, inner.awaited .calling = some (.ok v) := by
  cases x with
  | fulfilled m v => exact iff_of_true rfl nofun
  | rejected m e => exact iff_of_true rfl nofun
  | threw m e => exact iff_of_true rfl nofun
  | adopted m inner =>
    have hresult : (First.adopted m inner).result = inner.awaited .calling := rfl
    rw [hresult]
    rcases hr : inner.awaited .calling with _ | (e | v)
    · refine iff_of_false (by simp) fun h => ?_
      obtain ⟨v, hv⟩ := h m inner rfl
      rw [hr] at hv
      cases hv
    · refine iff_of_false (by simp [outcomeOf, outcomeOfFirst]) fun h => ?_
      obtain ⟨v, hv⟩ := h m inner rfl
      rw [hr] at hv
      cases hv
    · refine iff_of_true rfl ?_
      rintro m' inner' ⟨⟩
      exact ⟨v, hr⟩

/-- A tracker records the outcome of what the job gives exactly where the job is final. -/
theorem recorded_outcome_iff (shape : Shape) (c : Call σ V E) (resumed : σ) :
    (c.recorded shape resumed).map Prod.snd = c.own.map outcomeOf ↔ c.Final shape := by
  cases shape with
  | run =>
    cases c with
    | throws m e => exact iff_of_true rfl trivial
    | returns m v => exact iff_of_true rfl trivial
    | thenable t =>
      refine iff_of_true ?_ trivial
      show ((t.awaited .calling).map _).map _ = (t.awaited .calling).map _
      rw [Option.map_map]
      rfl
  | wrapper =>
    cases c with
    | throws m e => exact iff_of_true rfl trivial
    | returns m v => exact iff_of_true rfl trivial
    | thenable t =>
      unfold Call.recorded Call.own Call.Final
      dsimp only
      rw [t.awaited_eq]
      cases hx : t.first .calling with
      | none => exact iff_of_true rfl nofun
      | some x =>
        rw [Option.bind_some, Option.map_some, Option.map_some, eq_comm,
          outcomeOf_result_iff]
        simp only [Option.some.injEq]

/-- Either the function is not invoked, or the caller gets what the job gave. -/
def KeepsOutcome (own : Option (Except (Thrown E) V)) (tracked : Tracked V E) : Prop :=
  tracked.invoked = false ∨ tracked.received = own

/-- Whatever the service is in each moment, a tracked call keeps the outcome of its job exactly
where a service is set in the moment in which the tracker records it, if it does, and the wrapper's
thenable hands its result on; or, without a service, where what is handed on for the exception of
`getService` is that result all the same. -/
theorem trackJob_own_iff (job : String) (shape : Shape) (c : Call σ V E) (resumed : σ) :
    KeepsOutcome c.own (trackJob service job shape c resumed) ↔
      (∀ m outcome, c.recorded shape resumed = some (m, outcome) → (service m).isSome) ∧
          c.handed shape none = c.own ∨
        (∃ m outcome, c.recorded shape resumed = some (m, outcome) ∧ service m = none) ∧
          c.handed shape (some .noService) = c.own := by
  have htracked := trackJob_eq service job shape c resumed
  unfold KeepsOutcome
  rcases hrecorded : c.recorded shape resumed with _ | ⟨m, outcome⟩
  · rw [hrecorded] at htracked
    rw [htracked]
    simp
  · rw [hrecorded] at htracked
    -- The job ran, so it is the answer to what it told that counts.
    cases hs : service m with
    | none => simp [htracked, hs, answer]
    | some s => simp [htracked, hs, answer]

end Promises

/-! ## Thenables -/

section Thenables

variable {σ V E : Type}

/-- A promise that settles: `then` returns at once, and what it returned settles with the answer of
the callback. -/
def promise (m : σ) : Except (Thrown E) V → Thenable σ V (Thrown E)
  | .ok v => .ret (.fulfil m v fun x => .settle ((x.map .error).getD (.ok v)) .stop)
  | .error e => .ret (.reject m e fun x => .settle (.error (x.getD e)) .stop)

/-- A thenable that calls the callback for its value while `then` runs, and returns nothing. -/
def bareThenable (m : σ) (v undefined : V) : Thenable σ V (Thrown E) :=
  .fulfil m v fun _ => .ret (.settle (.ok undefined) .stop)

/-- A thenable that calls the callback for its value with a promise that rejects, and returns a
promise for what the callback returns. -/
def adoptingThenable (m : σ) (e : Thrown E) : Thenable σ V (Thrown E) :=
  .adopt m (promise m (.error e)) fun x => .ret (.settle (.error (x.getD e)) .stop)

/-- Without a service, a job that returned 42 throws at its caller in both shapes. -/
theorem missing_service_replaces_result :
    let c : Call Unit ℕ String := .returns () 42
    ∀ shape, ¬ KeepsOutcome c.own (trackJob (fun _ => none) "export" shape c ()) := by
  intro c shape h
  rcases h with hinvoked | hreceived
  · cases shape <;> cases hinvoked
  · cases shape <;> cases hreceived

end Thenables

end SimsysMetrics.Node.Jobs
