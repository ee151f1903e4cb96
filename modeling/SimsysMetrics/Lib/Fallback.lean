import Mathlib.Order.BoundedOrder.Basic
import Mathlib.Data.List.ReduceOption

/-!
# Readings that may fail

A source is read again and again, and a reading may fail. Where a failed reading is reported as the
least value, the reports of nondecreasing readings are nondecreasing exactly when no reading fails
after one above that value (`pairwise_getD_iff`).
-/

namespace SimsysMetrics.Lib

variable {α : Type*} [PartialOrder α] [OrderBot α]

/-- The later of two readings does not fail after the earlier one was above the least value. -/
def NoLapse (a b : Option α) : Prop := b = none → ∀ v, a = some v → v = ⊥

/-- Two readings that do not decrease where both succeed: their reports do not either, exactly when
there is no lapse. -/
theorem getD_le_getD_iff {a b : Option α} (h : ∀ v w, a = some v → b = some w → v ≤ w) :
    a.getD ⊥ ≤ b.getD ⊥ ↔ NoLapse a b := by
  unfold NoLapse
  cases a with
  | none => simp
  | some v =>
    cases b with
    | none => simp
    | some w =>
      have hle := h v w rfl rfl
      simpa using hle

/-- The reports of nondecreasing readings are nondecreasing exactly when there is no lapse. -/
theorem pairwise_getD_iff {l : List (Option α)} (h : l.reduceOption.Pairwise (· ≤ ·)) :
    (l.map (·.getD ⊥)).Pairwise (· ≤ ·) ↔ l.Pairwise NoLapse := by
  have hle : l.Pairwise fun a b => ∀ v w, a = some v → b = some w → v ≤ w := by
    have hfilter := List.pairwise_filterMap.mp h
    refine hfilter.imp ?_
    intro a b hab v w ha hb
    exact hab v ha w hb
  rw [List.pairwise_map]
  constructor
  · intro hreports
    refine (hle.and hreports).imp ?_
    rintro a b ⟨hab, hreport⟩
    exact (getD_le_getD_iff hab).mp hreport
  · intro hlapse
    refine (hle.and hlapse).imp ?_
    rintro a b ⟨hab, hno⟩
    exact (getD_le_getD_iff hab).mpr hno

end SimsysMetrics.Lib
