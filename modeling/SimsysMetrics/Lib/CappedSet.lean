import Mathlib.Data.List.Basic

/-!
# A set that admits a bounded number of distinct values

`capped cap overflow seen x` is the usual guard against an unbounded label space: a value that was
seen before passes, a new one passes while fewer than `cap` distinct values were seen, and every
other one becomes `overflow`. The values seen are a list in the order of their admission.

At most `cap` values are ever seen (`length_capped_le`), what comes out is `overflow` or a value
seen (`capped_fst`), and a value that is seen stays seen and passes from then on
(`seen_subset_capped`, `capped_of_mem`).
-/

namespace SimsysMetrics.Lib

variable {α : Type*} [DecidableEq α]

/-- One value at the guard: what comes out, and the values seen afterwards. -/
def capped (cap : ℕ) (overflow : α) (seen : List α) (x : α) : α × List α :=
  if x ∈ seen then (x, seen)
  else if cap ≤ seen.length then (overflow, seen)
  else (x, seen ++ [x])

/-- A value seen before passes and leaves the set as it is. -/
theorem capped_of_mem {cap : ℕ} {overflow x : α} {seen : List α} (h : x ∈ seen) :
    capped cap overflow seen x = (x, seen) :=
  if_pos h

/-- What comes out is `overflow` or a value seen afterwards. -/
theorem capped_fst (cap : ℕ) (overflow : α) (seen : List α) (x : α) :
    (capped cap overflow seen x).1 = overflow ∨
      (capped cap overflow seen x).1 = x ∧ x ∈ (capped cap overflow seen x).2 := by
  unfold capped
  split_ifs with hmem hcap
  · exact Or.inr ⟨rfl, hmem⟩
  · exact Or.inl rfl
  · exact Or.inr ⟨rfl, by simp⟩

/-- A value that comes out as itself is seen afterwards, unless it is `overflow`. -/
theorem mem_of_capped_fst {cap : ℕ} {overflow x : α} {seen : List α}
    (h : (capped cap overflow seen x).1 = x) (hx : x ≠ overflow) :
    x ∈ (capped cap overflow seen x).2 := by
  rcases capped_fst cap overflow seen x with ho | ⟨-, hmem⟩
  · exact absurd (h.symm.trans ho) hx
  · exact hmem

/-- Nothing seen is forgotten. -/
theorem seen_subset_capped (cap : ℕ) (overflow : α) (seen : List α) (x : α) :
    seen ⊆ (capped cap overflow seen x).2 := by
  unfold capped
  split_ifs
  · exact List.Subset.refl _
  · exact List.Subset.refl _
  · exact List.subset_append_left _ _

/-- The guard never sees more than `cap` values. -/
theorem length_capped_le {cap : ℕ} {seen : List α} (h : seen.length ≤ cap) (overflow x : α) :
    (capped cap overflow seen x).2.length ≤ cap := by
  unfold capped
  split_ifs with hmem hcap
  · exact h
  · exact h
  · rw [List.length_append, List.length_singleton]
    omega

end SimsysMetrics.Lib
