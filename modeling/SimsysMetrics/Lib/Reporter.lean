import Mathlib.Data.List.Induction

/-!
# Reports that are made once

A component that reports what it is given, but only once for each key, keeps the keys that it has
reported. Of what it was given it has reported the first one of each key, and nothing else
(`filter_reportAll`).
-/

namespace SimsysMetrics.Lib

/-- The keys that were reported, and the reports. -/
structure Reporter (κ β : Type*) where
  seen : List κ
  reports : List β
deriving DecidableEq

namespace Reporter

variable {κ β : Type*} [DecidableEq κ] (key : β → κ)

/-- Nothing is reported. -/
def empty : Reporter κ β := ⟨[], []⟩

/-- A report, unless there is one for its key. -/
def report (r : Reporter κ β) (b : β) : Reporter κ β :=
  if key b ∈ r.seen then r else ⟨r.seen ++ [key b], r.reports ++ [b]⟩

/-- What is reported of some things that come one after another. -/
def reportAll (bs : List β) : Reporter κ β := bs.foldl (report key) empty

/-- More things. -/
theorem reportAll_append (bs cs : List β) :
    reportAll key (bs ++ cs) = cs.foldl (report key) (reportAll key bs) := by
  rw [reportAll, List.foldl_append]
  rfl

/-- One more thing. -/
theorem reportAll_concat (bs : List β) (b : β) :
    reportAll key (bs ++ [b]) = (reportAll key bs).report key b :=
  reportAll_append key bs [b]

/-- The keys that were seen are those of all things that came. -/
theorem mem_seen_reportAll {bs : List β} {k : κ} :
    k ∈ (reportAll key bs).seen ↔ ∃ b ∈ bs, key b = k := by
  induction bs using List.reverseRecOn with
  | nil => exact iff_of_false List.not_mem_nil (by simp)
  | append_singleton bs b ih =>
    have hlast : (∃ b' ∈ bs ++ [b], key b' = k) ↔ (∃ b' ∈ bs, key b' = k) ∨ key b = k := by
      simp [or_and_right, exists_or]
    rw [reportAll_concat, report, hlast]
    split_ifs with hseen
    · rw [← ih]
      refine (or_iff_left_of_imp ?_).symm
      rintro rfl
      exact hseen
    · rw [List.mem_append, List.mem_singleton, ih, eq_comm (a := k)]

/-- Of each key, the first thing that came with it is reported. -/
theorem filter_reportAll (bs : List β) (k : κ) :
    (reportAll key bs).reports.filter (key · = k) = (bs.find? (key · = k)).toList := by
  induction bs using List.reverseRecOn with
  | nil => rfl
  | append_singleton bs b ih =>
    have hfound : bs.find? (key · = k) = none ↔ k ∉ (reportAll key bs).seen := by
      rw [mem_seen_reportAll, List.find?_eq_none]
      simp
    rw [reportAll_concat, report, List.find?_append]
    by_cases hk : key b = k
    · subst hk
      have hlast : [b].find? (key · = key b) = some b := List.find?_cons_of_pos (by simp)
      split_ifs with hseen
      · obtain ⟨first, hfirst⟩ := Option.ne_none_iff_exists'.mp (mt hfound.mp (not_not.mpr hseen))
        rw [ih, hfirst, Option.some_or]
      · rw [List.filter_append, ih, hfound.mpr hseen, hlast]
        simp
    · have hlast : [b].find? (key · = k) = none := by simp [hk]
      rw [hlast, Option.or_none, ← ih]
      split_ifs
      · rfl
      · simp [List.filter_append, hk]

/-- The keys that were seen are those of the reports. -/
theorem seen_reportAll (bs : List β) :
    (reportAll key bs).seen = (reportAll key bs).reports.map key := by
  induction bs using List.reverseRecOn with
  | nil => rfl
  | append_singleton bs b ih =>
    rw [reportAll_concat, report]
    split_ifs
    · exact ih
    · rw [List.map_append, ← ih]
      rfl

/-- A thing that came has a report of its key. -/
theorem exists_report {bs : List β} {b : β} (h : b ∈ bs) :
    ∃ b' ∈ (reportAll key bs).reports, key b' = key b := by
  have hfound : (bs.find? (key · = key b)).isSome := List.find?_isSome.mpr ⟨b, h, by simp⟩
  obtain ⟨b', hb'⟩ := Option.isSome_iff_exists.mp hfound
  have hmem : b' ∈ (reportAll key bs).reports.filter (key · = key b) := by
    rw [filter_reportAll, hb']
    exact List.mem_singleton_self _
  obtain ⟨hreport, hkey⟩ := List.mem_filter.mp hmem
  exact ⟨b', hreport, of_decide_eq_true hkey⟩

end Reporter

end SimsysMetrics.Lib
