import Mathlib.Logic.Basic

/-!
# Actions with a compensating undo

A multi-step change that may fail in the middle is undone by hand: each step leaves a record, and a
failure replays the records backwards. An `Action` is such a step: `exec` changes the state and
returns the record, `undo` takes the record back. `Action.andThen` runs two steps in order and
undoes them in the reverse order, so a chain of steps is again an action.

`Action.Undoes` says that undoing right after executing gives the state back, on the states of an
invariant `I`. It composes (`Undoes.andThen`), so a whole chain is restored when each of its steps
is.
-/

namespace SimsysMetrics.Lib

universe u v w

/-- A step that changes a state, with the record that its undo needs. -/
structure Action (σ : Type u) (ρ : Type v) where
  /-- The change, and the record of what it did. -/
  exec : σ → σ × ρ
  /-- The compensation for a recorded change. -/
  undo : ρ → σ → σ

namespace Action

variable {σ : Type u} {ρ : Type v} {τ : Type w}

/-- Undoing right after executing restores every state that satisfies `I`. -/
def Undoes (a : Action σ ρ) (I : σ → Prop) : Prop :=
  ∀ s, I s → a.undo (a.exec s).2 (a.exec s).1 = s

/-- `a` and then `b`; the undo runs backwards. -/
def andThen (a : Action σ ρ) (b : Action σ τ) : Action σ (ρ × τ) where
  exec s := ((b.exec (a.exec s).1).1, (a.exec s).2, (b.exec (a.exec s).1).2)
  undo r s := a.undo r.1 (b.undo r.2 s)

/-- A chain is restored when each step is, where the first step leads into the invariant of the
second. -/
theorem Undoes.andThen {a : Action σ ρ} {b : Action σ τ} {I J : σ → Prop} (ha : a.Undoes I)
    (hb : b.Undoes J) (h : ∀ s, I s → J (a.exec s).1) : (a.andThen b).Undoes I := by
  intro s hs
  have hmid : b.undo (b.exec (a.exec s).1).2 (b.exec (a.exec s).1).1 = (a.exec s).1 :=
    hb _ (h s hs)
  calc (a.andThen b).undo ((a.andThen b).exec s).2 ((a.andThen b).exec s).1
      = a.undo (a.exec s).2 (b.undo (b.exec (a.exec s).1).2 (b.exec (a.exec s).1).1) := rfl
    _ = a.undo (a.exec s).2 (a.exec s).1 := by rw [hmid]
    _ = s := ha s hs

end Action

end SimsysMetrics.Lib
