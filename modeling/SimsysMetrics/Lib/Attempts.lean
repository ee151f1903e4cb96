import Mathlib.Data.List.Basic
import Mathlib.Data.Nat.Notation

/-!
# Attempts that overlap

Attempts are started one after another and end in any order, each with a value or without one. A
list of them, in the order of their starts, says how far each has come, and `newest` is the value
of the one started last among those that have succeeded.

When an attempt ends, the newest value changes only if the attempt succeeded and no attempt started
after it has: `newest_set_failed` and `newest_set_succeeded`. So a cell that every success writes as
it ends keeps the newest value at a success exactly when no attempt started later has succeeded
with another value (`newest_set_succeeded_eq_iff`). Where an attempt starts only when no other one
runs, no attempt is started after one that runs (`Sequential`), and this is always so.
-/

namespace SimsysMetrics.Lib

/-- How far an attempt has come. -/
inductive Attempt (α : Type*) where
  | running
  | succeeded (a : α)
  | failed
deriving DecidableEq, Repr

section Attempts

variable {α : Type*}

/-- The value of an attempt that has succeeded. -/
def Attempt.value? : Attempt α → Option α
  | .succeeded a => some a
  | .running => none
  | .failed => none

/-- The value of the attempt started last among those that have succeeded. -/
def newest (l : List (Attempt α)) : Option α := (l.filterMap Attempt.value?).getLast?

/-- The newest value is among the attempts started later, if one of these has succeeded. -/
theorem newest_append (l l' : List (Attempt α)) :
    newest (l ++ l') = (newest l').or (newest l) := by
  rw [newest, List.filterMap_append, List.getLast?_append]
  rfl

/-- One more attempt, started last. -/
@[simp]
theorem newest_concat (l : List (Attempt α)) (x : Attempt α) :
    newest (l ++ [x]) = x.value?.or (newest l) := by
  rw [newest_append]
  cases x <;> rfl

/-- One more attempt, started first. -/
theorem newest_cons (x : Attempt α) (l : List (Attempt α)) :
    newest (x :: l) = (newest l).or x.value? := by
  have h := newest_append [x] l
  rw [List.singleton_append] at h
  rw [h]
  cases x <;> rfl

variable {l : List (Attempt α)} {i : ℕ}

/-- The newest value after an attempt that was running has come to `x`. -/
theorem newest_set (h : l[i]? = some .running) (x : Attempt α) :
    newest (l.set i x) = ((newest (l.drop (i + 1))).or x.value?).or (newest (l.take i)) := by
  have hlt : i < l.length := (List.getElem?_eq_some_iff.mp h).1
  rw [List.set_eq_take_append_cons_drop, if_pos hlt, newest_append, newest_cons]

/-- Writing back that an attempt runs changes nothing. -/
theorem set_running (h : l[i]? = some .running) : l.set i .running = l := by
  obtain ⟨hlt, hget⟩ := List.getElem?_eq_some_iff.mp h
  rw [← hget, List.set_getElem_self]

/-- A failure leaves the newest value. -/
theorem newest_set_failed (h : l[i]? = some .running) : newest (l.set i .failed) = newest l := by
  calc newest (l.set i .failed)
      = newest (l.set i .running) := by rw [newest_set h, newest_set h]; rfl
    _ = newest l := by rw [set_running h]

/-- A success gives the newest value unless an attempt started later has succeeded. -/
theorem newest_set_succeeded (h : l[i]? = some .running) (a : α) :
    newest (l.set i (.succeeded a)) = (newest (l.drop (i + 1))).or (some a) := by
  rw [newest_set h]
  rcases newest (l.drop (i + 1)) with _ | b <;> rfl

/-- A success gives the newest value exactly when no attempt started later has succeeded with
another one. -/
theorem newest_set_succeeded_eq_iff (h : l[i]? = some .running) (a : α) :
    newest (l.set i (.succeeded a)) = some a ↔
      ∀ b, newest (l.drop (i + 1)) = some b → b = a := by
  rw [newest_set_succeeded h]
  rcases newest (l.drop (i + 1)) with _ | b <;> simp

/-- No attempt is started after one that runs. -/
def Sequential (l : List (Attempt α)) : Prop :=
  ∀ i, l[i]? = some .running → l.drop (i + 1) = []

/-- An attempt that starts when no other one runs keeps the attempts sequential. -/
theorem sequential_concat (h : .running ∉ l) (x : Attempt α) : Sequential (l ++ [x]) := by
  intro i hi
  -- None of the attempts before runs, so the one that does is the new one.
  have hge : l.length ≤ i := by
    by_contra hlt
    rw [List.getElem?_append_left (by omega)] at hi
    exact h (List.mem_of_getElem? hi)
  exact List.drop_eq_nil_of_le (by rw [List.length_append, List.length_singleton]; omega)

/-- An attempt that ends keeps the attempts sequential. -/
theorem sequential_set (h : Sequential l) {x : Attempt α} (hx : x ≠ .running) :
    Sequential (l.set i x) := by
  intro j hj
  have hne : i ≠ j := by
    -- The attempt that ended is not the one that runs.
    rintro rfl
    have hlt : i < (l.set i x).length := (List.getElem?_eq_some_iff.mp hj).1
    rw [List.getElem?_set_self (by simpa using hlt)] at hj
    exact hx (Option.some.inj hj)
  rw [List.getElem?_set_ne hne] at hj
  have hlen : l.length ≤ j + 1 := List.drop_eq_nil_iff.mp (h j hj)
  exact List.drop_eq_nil_of_le (by rw [List.length_set]; exact hlen)

end Attempts

end SimsysMetrics.Lib
