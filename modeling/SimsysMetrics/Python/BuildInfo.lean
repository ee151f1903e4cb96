import Mathlib.Data.Finset.Basic
import SimsysMetrics.Contract

/-!
# `simsys_build_info` in the Python lane

`register_build_info` and `unregister_build_info_if_owned` of `simsys_metrics/build_info.py`. The
state is the ownership set `_owned_label_keys` and the label sets that have a sample.

Registering adds the key first and makes the sample then, so where `build_info.labels(...)` or
`.set(1)` raises, the key stays behind (`registerBuildInfoRaised`); the caller has no labels then,
and unregisters nothing. So a label set with a sample is owned (`BuildInfo.Covered`), and the two
sets are equal (`BuildInfo.Owned`) as long as no call raised so late. Unregistering with the flag
that registering returned undoes it exactly where the label set was not owned without a sample
(`unregister_register_iff`).
-/

namespace SimsysMetrics.Python

/-- The ownership set, and the label sets of the samples of `simsys_build_info`. -/
structure BuildInfo where
  owned : Finset BuildInfoLabels
  samples : Finset BuildInfoLabels
deriving DecidableEq

/-- The state without any install. -/
def BuildInfo.empty : BuildInfo := ⟨∅, ∅⟩

/-- The label set that `register_build_info` resolves: `detected` is what `_detect_commit` returns,
and `now` the formatted time. -/
def resolveLabels (service version : String) (commit : Option String) (detected now : String) :
    BuildInfoLabels :=
  ⟨service, version, commit.getD detected, now⟩

/-- The locked section of `register_build_info`, where it does not raise: the state afterwards, and
whether the label set was new. -/
def registerBuildInfo (labels : BuildInfoLabels) (s : BuildInfo) : BuildInfo × Bool :=
  let wasNew := decide (labels ∉ s.owned)
  let owned := if wasNew then insert labels s.owned else s.owned
  (⟨owned, insert labels s.samples⟩, wasNew)

/-- The places where `register_build_info` may raise. -/
inductive BuildInfoFault where
  /-- Before the locked section: the detection of the commit, or the clock. -/
  | detect
  /-- In `build_info.labels(...)`, which makes the child: in the multi-process mode it opens a file
  in `PROMETHEUS_MULTIPROC_DIR`, which may be missing. -/
  | labels
  /-- In `.set(1)`, or after it: the child is kept, so the label set has a sample. -/
  | set
deriving DecidableEq, Repr

/-- What `register_build_info` leaves where it raises. An owned key is added again by neither
branch, so the insertion says both. -/
def registerBuildInfoRaised (place : BuildInfoFault) (labels : BuildInfoLabels) (s : BuildInfo) :
    BuildInfo :=
  match place with
  | .detect => s
  | .labels => { s with owned := insert labels s.owned }
  | .set => ⟨insert labels s.owned, insert labels s.samples⟩

/-- `unregister_build_info_if_owned`. -/
def unregisterBuildInfoIfOwned (labels : BuildInfoLabels) (wasNew : Bool) (s : BuildInfo) :
    BuildInfo :=
  if wasNew then ⟨s.owned.erase labels, s.samples.erase labels⟩ else s

/-- The label sets that have a sample are owned. -/
def BuildInfo.Covered (s : BuildInfo) : Prop := s.samples ⊆ s.owned

/-- The owned label sets are the ones that have a sample. -/
def BuildInfo.Owned (s : BuildInfo) : Prop := s.owned = s.samples

/-- Registering keeps the samples owned. -/
theorem covered_register (labels : BuildInfoLabels) {s : BuildInfo} (h : s.Covered) :
    (registerBuildInfo labels s).1.Covered := by
  intro l hl
  obtain rfl | hl := Finset.mem_insert.mp hl
  · by_cases hmem : l ∈ s.owned <;> simp [registerBuildInfo, hmem]
  · by_cases hmem : labels ∈ s.owned
    · simpa [registerBuildInfo, hmem] using h hl
    · simpa [registerBuildInfo, hmem] using Or.inr (h hl)

/-- Registering keeps the samples owned also where it raises. -/
theorem covered_registerRaised (place : BuildInfoFault) (labels : BuildInfoLabels) {s : BuildInfo}
    (h : s.Covered) : (registerBuildInfoRaised place labels s).Covered := by
  cases place with
  | detect => exact h
  | labels => exact h.trans (Finset.subset_insert labels s.owned)
  | set => exact Finset.insert_subset_insert labels h

/-- Unregistering keeps the samples owned. -/
theorem covered_unregister (labels : BuildInfoLabels) (wasNew : Bool) {s : BuildInfo}
    (h : s.Covered) : (unregisterBuildInfoIfOwned labels wasNew s).Covered := by
  cases wasNew with
  | false => exact h
  | true => exact Finset.erase_subset_erase labels h

/-- Registering keeps the owned label sets those with a sample. -/
theorem owned_register (labels : BuildInfoLabels) {s : BuildInfo} (h : s.Owned) :
    (registerBuildInfo labels s).1.Owned := by
  unfold BuildInfo.Owned at *
  by_cases hmem : labels ∈ s.owned
  · simp [registerBuildInfo, hmem, ← h]
  · simp [registerBuildInfo, hmem, ← h]

/-- Where registering raises, nothing is left exactly where it raised before its first change or had
nothing to change. -/
theorem registerRaised_eq_iff (place : BuildInfoFault) (labels : BuildInfoLabels) {s : BuildInfo}
    (h : s.Covered) :
    registerBuildInfoRaised place labels s = s ↔ match place with
      | .detect => True
      | .labels => labels ∈ s.owned
      | .set => labels ∈ s.samples := by
  obtain ⟨owned, samples⟩ := s
  cases place with
  | detect => exact iff_of_true rfl trivial
  | labels => simp [registerBuildInfoRaised]
  | set =>
    simp only [registerBuildInfoRaised, BuildInfo.mk.injEq, Finset.insert_eq_self]
    exact and_iff_right_of_imp fun hmem => h hmem

/-- Unregistering right after registering gives the state back exactly where the label set was not
owned without a sample. -/
theorem unregister_register_iff (labels : BuildInfoLabels) {s : BuildInfo} (h : s.Covered) :
    unregisterBuildInfoIfOwned labels (registerBuildInfo labels s).2
      (registerBuildInfo labels s).1 = s ↔ (labels ∈ s.owned → labels ∈ s.samples) := by
  obtain ⟨owned, samples⟩ := s
  by_cases hmem : labels ∈ owned
  · -- Owned before: the flag says so, and the sample stays.
    simp [registerBuildInfo, unregisterBuildInfoIfOwned, hmem]
  · have hsample : labels ∉ samples := fun hl => hmem (h hl)
    simp [registerBuildInfo, unregisterBuildInfoIfOwned, hmem, hsample]

end SimsysMetrics.Python
