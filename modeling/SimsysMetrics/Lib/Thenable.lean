import Mathlib.Logic.Basic

/-!
# Thenables

An object with a method `then` may do anything with the two callbacks that it is given: call them
while `then` runs or later, one or both of them, several times, or throw. What it does next may
depend on whether a callback returns. It may give the callback for a value a thenable instead, which
whoever awaits it adopts: the result is then the one of awaiting that thenable. A `Thenable` is the
tree of what it does, `run` what the caller of `then` gets from it and what becomes of the state
that the callbacks share, and `awaited` what awaiting it gives.

Callbacks that act on the first call only, and pass on what they are given after that, change their
state once, by that call (`first`); the caller of `then` gets what the thenable makes of their first
answer (`Once.run`). The first call need not tell what awaiting gives: a callback that is given a
thenable does not wait for it (`awaited_eq`).
-/

namespace SimsysMetrics.Lib

/-- What a thenable does when its `then` is called, in a moment of type `σ`, with values of type `V`
and exceptions of type `E`. A callback answers by passing on what it was given, or by throwing
something else. -/
inductive Thenable (σ V E : Type) where
  /-- It calls the callback for a value, which answers. -/
  | fulfil (m : σ) (v : V) (next : Option E → Thenable σ V E)
  /-- It calls the callback for a value with a thenable, and the callback answers. -/
  | adopt (m : σ) (inner : Thenable σ V E) (next : Option E → Thenable σ V E)
  /-- It calls the callback for an exception, which answers. -/
  | reject (m : σ) (e : E) (next : Option E → Thenable σ V E)
  /-- It throws. -/
  | throw (m : σ) (e : E) (next : Thenable σ V E)
  /-- Its `then` returns. -/
  | ret (next : Thenable σ V E)
  /-- Awaiting what its `then` returned gives a result. -/
  | settle (r : Except E V) (next : Thenable σ V E)
  /-- It does nothing more. -/
  | stop

/-- Where a call of `then` stands: it runs, it has returned, or it was left by an exception. -/
inductive Thenable.Phase where
  | calling
  | returned
  | thrown
deriving DecidableEq, Repr

/-- The phase after `then` returns. -/
def Thenable.Phase.ret : Thenable.Phase → Thenable.Phase
  | .calling => .returned
  | p => p

/-- Callbacks that share a state of type `τ`, and what the caller makes of an exception of `then`:
each passes on what it is given, or throws something else, and leaves a state. -/
structure Handlers (σ E τ : Type) where
  onFulfilled : τ → σ → Option E × τ
  onRejected : τ → σ → Option E × τ
  onThrow : τ → σ → Option E × τ

/-- The first thing that a thenable tells the caller of its `then`. -/
inductive First (σ V E : Type) where
  | fulfilled (m : σ) (v : V)
  | adopted (m : σ) (inner : Thenable σ V E)
  | rejected (m : σ) (e : E)
  | threw (m : σ) (e : E)

namespace Thenable

variable {σ V E τ : Type}

/-- What awaiting the thenable gives, if anything: its first call of a callback decides, and a
thenable that is given to the callback for a value is awaited in turn. An exception that leaves
`then` is a result only while `then` runs. -/
def awaited : Thenable σ V E → Phase → Option (Except E V)
  | .fulfil _ v _, _ => some (.ok v)
  | .adopt _ inner _, _ => inner.awaited .calling
  | .reject _ e _, _ => some (.error e)
  | .throw _ e _, .calling => some (.error e)
  | .throw _ _ next, p => next.awaited p
  | .ret next, p => next.awaited p.ret
  | .settle _ next, p => next.awaited p
  | .stop, _ => none

/-- The first thing that the thenable tells. -/
def first : Thenable σ V E → Phase → Option (First σ V E)
  | .fulfil m v _, _ => some (.fulfilled m v)
  | .adopt m inner _, _ => some (.adopted m inner)
  | .reject m e _, _ => some (.rejected m e)
  | .throw m e _, .calling => some (.threw m e)
  | .throw _ _ next, p => next.first p
  | .ret next, p => next.first p.ret
  | .settle _ next, p => next.first p
  | .stop, _ => none

/-- What the caller of `then` gets, if anything, and the state of the callbacks in the end. -/
def run (h : Handlers σ E τ) : Thenable σ V E → Phase → τ → Option (Except E V) × τ
  | .fulfil m _ next, p, s => (next (h.onFulfilled s m).1).run h p (h.onFulfilled s m).2
  | .adopt m _ next, p, s => (next (h.onFulfilled s m).1).run h p (h.onFulfilled s m).2
  | .reject m _ next, p, s => (next (h.onRejected s m).1).run h p (h.onRejected s m).2
  | .throw m e next, .calling, s =>
    (some (.error ((h.onThrow s m).1.getD e)), (next.run h .thrown (h.onThrow s m).2).2)
  | .throw _ _ next, p, s => next.run h p s
  | .ret next, p, s => next.run h p.ret s
  | .settle r next, .returned, s => (some r, (next.run h .returned s).2)
  | .settle _ next, p, s => next.run h p s
  | .stop, _, s => (none, s)

end Thenable

namespace First

variable {σ V E : Type}

/-- When it happened. -/
def moment : First σ V E → σ
  | .fulfilled m _ => m
  | .adopted m _ => m
  | .rejected m _ => m
  | .threw m _ => m

/-- What awaiting gives after it. -/
def result : First σ V E → Option (Except E V)
  | .fulfilled _ v => some (.ok v)
  | .adopted _ inner => inner.awaited .calling
  | .rejected _ e => some (.error e)
  | .threw _ e => some (.error e)

end First

/-- What awaiting a thenable gives is decided by the first thing that it tells. -/
theorem Thenable.awaited_eq {σ V E : Type} (t : Thenable σ V E) (p : Phase) :
    t.awaited p = (t.first p).bind First.result := by
  induction t generalizing p with
  | fulfil m v next ih => rfl
  | adopt m inner next hinner ih => rfl
  | reject m e next ih => rfl
  | throw m e next ih =>
    cases p with
    | calling => rfl
    | returned => exact ih .returned
    | thrown => exact ih .thrown
  | ret next ih => exact ih p.ret
  | settle r next ih => cases p <;> exact ih _
  | stop => rfl

section Once

variable {σ V E τ : Type}

/-- The answer to the first thing that a thenable tells, and the state that it leaves. -/
def Handlers.first (h : Handlers σ E τ) (s : τ) : First σ V E → Option E × τ
  | .fulfilled m _ => h.onFulfilled s m
  | .adopted m _ => h.onFulfilled s m
  | .rejected m _ => h.onRejected s m
  | .threw m _ => h.onThrow s m

/-- In the states that are done, callbacks pass on what they are given and change nothing. -/
structure Handlers.Passive (h : Handlers σ E τ) (s : τ) : Prop where
  onFulfilled : ∀ m, h.onFulfilled s m = (none, s)
  onRejected : ∀ m, h.onRejected s m = (none, s)
  onThrow : ∀ m, h.onThrow s m = (none, s)

/-- Callbacks that act once: after their first call they are passive. -/
structure Handlers.Once (h : Handlers σ E τ) (s : τ) : Prop where
  onFulfilled : ∀ m, h.Passive (h.onFulfilled s m).2
  onRejected : ∀ m, h.Passive (h.onRejected s m).2
  onThrow : ∀ m, h.Passive (h.onThrow s m).2

/-- The callbacks that give one answer, and pass on what they are given after that. -/
def answering (x : Option E) : Handlers σ E Bool where
  onFulfilled answered _ := (if answered then none else x, true)
  onRejected answered _ := (if answered then none else x, true)
  onThrow answered _ := (if answered then none else x, true)

/-- What a thenable hands to the caller of `then` for a first answer. -/
def Thenable.handed (t : Thenable σ V E) (x : Option E) : Option (Except E V) :=
  (t.run (answering x) .calling false).1

variable {h : Handlers σ E τ} {s : τ}

/-- A thenable that meets passive callbacks leaves their state, and hands on what it does to
callbacks that pass on. -/
theorem Handlers.Passive.run (hs : h.Passive s) (x : Option E) (t : Thenable σ V E)
    (p : Thenable.Phase) : t.run h p s = ((t.run (answering x) p true).1, s) := by
  induction t generalizing p with
  | fulfil m v next ih =>
    simp only [Thenable.run, hs.onFulfilled]
    exact ih none p
  | adopt m inner next hinner ih =>
    simp only [Thenable.run, hs.onFulfilled]
    exact ih none p
  | reject m e next ih =>
    simp only [Thenable.run, hs.onRejected]
    exact ih none p
  | throw m e next ih =>
    -- Only what `then` throws itself is told to `onThrow`.
    cases p with
    | calling =>
      simp only [Thenable.run, hs.onThrow, ih]
      rfl
    | returned => exact ih .returned
    | thrown => exact ih .thrown
  | ret next ih => exact ih p.ret
  | settle r next ih =>
    cases p with
    | calling => exact ih .calling
    | returned => simp only [Thenable.run, ih]
    | thrown => exact ih .thrown
  | stop => rfl

/-- Where a thenable tells nothing, the callbacks are never called, and the caller of `then` gets
what it gets with any callbacks. -/
theorem Thenable.run_untold {t : Thenable σ V E} {p : Phase} (ht : t.first p = none)
    (x : Option E) : t.run h p s = ((t.run (answering x) p false).1, s) := by
  induction t generalizing p with
  | fulfil m v next ih => cases ht
  | adopt m inner next hinner ih => cases ht
  | reject m e next ih => cases ht
  | throw m e next ih =>
    cases p with
    | calling => cases ht
    | returned => exact ih ht
    | thrown => exact ih ht
  | ret next ih => exact ih ht
  | settle r next ih =>
    cases p with
    | calling => exact ih ht
    | returned => simp only [Thenable.run, ih ht]
    | thrown => exact ih ht
  | stop => rfl

/-- Callbacks that act once change their state by the first call, and the caller of `then` gets what
the thenable makes of their answer to it. -/
theorem Handlers.Once.run (hs : h.Once s) {t : Thenable σ V E} {p : Thenable.Phase}
    {x : First σ V E} (ht : t.first p = some x) :
    t.run h p s = ((t.run (answering (h.first s x).1) p false).1, (h.first s x).2) := by
  induction t generalizing p with
  | fulfil m v next ih =>
    -- The first call of a callback leaves passive callbacks for the rest.
    obtain rfl := Option.some.inj ht
    exact (hs.onFulfilled m).run (h.onFulfilled s m).1 _ p
  | adopt m inner next hinner ih =>
    obtain rfl := Option.some.inj ht
    exact (hs.onFulfilled m).run (h.onFulfilled s m).1 _ p
  | reject m e next ih =>
    obtain rfl := Option.some.inj ht
    exact (hs.onRejected m).run (h.onRejected s m).1 _ p
  | throw m e next ih =>
    cases p with
    | calling =>
      obtain rfl := Option.some.inj ht
      have hrest := (hs.onThrow m).run none next .thrown
      simp only [Handlers.first, Thenable.run, hrest]
      rfl
    | returned => exact ih ht
    | thrown => exact ih ht
  | ret next ih => exact ih ht
  | settle r next ih =>
    cases p with
    | calling => exact ih ht
    | returned => simp only [Thenable.run, ih ht]
    | thrown => exact ih ht
  | stop => cases ht

end Once

end SimsysMetrics.Lib
