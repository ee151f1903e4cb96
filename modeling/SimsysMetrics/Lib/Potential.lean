import Mathlib.Data.Nat.Notation
import SimsysMetrics.Lib.Runs

/-!
# Counting along a run

How often something happens in a run, bounded by what pays for it. `tally` sums what the events
count, each in the state where it happens. If every step that costs something is paid for by a
credit of the step or by a fall of a potential, the costs of a run are bounded by its credits and
the potential at its start (`tally_add_le`).
-/

namespace SimsysMetrics.Lib

section Tally

variable {σ ε : Type*} (step : σ → ε → σ)

/-- The sum of what the events of a run count. -/
def tally (count : σ → ε → ℕ) : σ → List ε → ℕ
  | _, [] => 0
  | s, e :: es => count s e + tally count (step s e) es

variable {step}

/-- The length of what a run emits. -/
theorem length_trace {β : Type*} (emit : σ → ε → List β) (s : σ) (es : List ε) :
    (trace step emit s es).length = tally step (fun s e => (emit s e).length) s es := by
  induction es generalizing s with
  | nil => rfl
  | cons e es ih =>
    rw [trace, List.length_append, ih]
    rfl

/-- If the potential pays for every step, up to its credit, the costs of a run are at most its
credits and the potential that the run uses up. -/
theorem tally_add_le (I : σ → Prop) (potential : σ → ℕ) {cost credit : σ → ε → ℕ}
    (hI : ∀ s e, I s → I (step s e))
    (hstep : ∀ s e, I s → cost s e + potential (step s e) ≤ potential s + credit s e) {s : σ}
    (hs : I s) (es : List ε) :
    tally step cost s es + potential (run step s es) ≤ potential s + tally step credit s es := by
  induction es generalizing s with
  | nil => exact Nat.le_of_eq (Nat.zero_add _)
  | cons e es ih =>
    have hfirst := hstep s e hs
    have hrest := ih (hI s e hs)
    show cost s e + tally step cost (step s e) es + potential (run step (step s e) es) ≤
      potential s + (credit s e + tally step credit (step s e) es)
    omega

/-- If the potential pays for every step, the costs of a run are at most the potential at its
start. -/
theorem tally_le {I : σ → Prop} {cost : σ → ε → ℕ} (potential : σ → ℕ)
    (hI : ∀ s e, I s → I (step s e))
    (hstep : ∀ s e, I s → cost s e + potential (step s e) ≤ potential s) {s : σ} (hs : I s)
    (es : List ε) : tally step cost s es ≤ potential s := by
  induction es generalizing s with
  | nil => exact Nat.zero_le _
  | cons e es ih =>
    have hfirst := hstep s e hs
    have hrest := ih (hI s e hs)
    show cost s e + tally step cost (step s e) es ≤ potential s
    omega

end Tally

end SimsysMetrics.Lib
