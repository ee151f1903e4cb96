import Mathlib.Data.Finset.Basic
import Mathlib.Data.Finset.Image
import SimsysMetrics.Contract

/-!
# `simsys_build_info` in the Node lane

`registerBuildInfo` and `unregisterBuildInfoIfOwned` of `node/src/buildinfo.ts`. The ownership set
holds texts: the labels of a label set joined by NUL. It holds the keys of exactly the label sets
that have a sample (`BuildInfo.Owned`). Two label sets may have one key when a label contains NUL,
so the flag that registering returns is about the key, and unregistering undoes registering exactly
where the key was new, or the label set had its sample already (`unregister_register_iff`). Two
keys are the same exactly when the labels are made of the same pieces between NULs
(`labelKey_eq_iff`).
-/

namespace SimsysMetrics.Node

/-- `_labelKey`. -/
def labelKey (l : BuildInfoLabels) : String :=
  String.intercalate "\x00" [l.service, l.version, l.commit, l.startedAt]

/-- The pieces between NULs of the labels, one label after the other. -/
def labelPieces (l : BuildInfoLabels) : List (List Char) :=
  [l.service, l.version, l.commit, l.startedAt].flatMap (·.toList.splitOn '\x00')

/-- The pieces of the key are those of its labels. -/
theorem splitOn_labelKey (l : BuildInfoLabels) :
    (labelKey l).toList.splitOn '\x00' = labelPieces l := by
  have hnul : ("\x00" : String).toList = ['\x00'] := rfl
  simp only [labelKey, labelPieces, String.toList_intercalate, hnul, List.map_cons, List.map_nil,
    List.intercalate_cons_cons, List.intercalate_singleton, List.append_assoc,
    List.singleton_append, List.splitOn_append_cons_self, List.flatMap_cons, List.flatMap_nil,
    List.append_nil]

/-- Two label sets have one key exactly when their labels are made of the same pieces. -/
theorem labelKey_eq_iff (l l' : BuildInfoLabels) :
    labelKey l = labelKey l' ↔ labelPieces l = labelPieces l' := by
  constructor
  · intro h
    rw [← splitOn_labelKey, ← splitOn_labelKey, h]
  · intro h
    rw [← splitOn_labelKey, ← splitOn_labelKey] at h
    have hjoin := congrArg (List.intercalate ['\x00']) h
    rw [List.intercalate_splitOn, List.intercalate_splitOn] at hjoin
    exact String.toList_inj.mp hjoin

/-- `_ownedLabelKeys`, and the label sets of the samples of `simsys_build_info`. -/
structure BuildInfo where
  owned : Finset String
  samples : Finset BuildInfoLabels
deriving DecidableEq

/-- The state without any install. -/
def BuildInfo.empty : BuildInfo := ⟨∅, ∅⟩

/-- `registerBuildInfo`: the state afterwards, and `wasNew`. -/
def registerBuildInfo (labels : BuildInfoLabels) (s : BuildInfo) : BuildInfo × Bool :=
  let key := labelKey labels
  let wasNew := decide (key ∉ s.owned)
  let owned := if wasNew then insert key s.owned else s.owned
  (⟨owned, insert labels s.samples⟩, wasNew)

/-- `unregisterBuildInfoIfOwned`. -/
def unregisterBuildInfoIfOwned (labels : BuildInfoLabels) (wasNew : Bool) (s : BuildInfo) :
    BuildInfo :=
  if wasNew then ⟨s.owned.erase (labelKey labels), s.samples.erase labels⟩ else s

/-- The owned keys are those of the label sets that have a sample. -/
def BuildInfo.Owned (s : BuildInfo) : Prop := s.owned = s.samples.image labelKey

/-- Registering keeps the owned keys those of the samples. -/
theorem owned_register (labels : BuildInfoLabels) {s : BuildInfo} (h : s.Owned) :
    (registerBuildInfo labels s).1.Owned := by
  unfold BuildInfo.Owned at *
  unfold registerBuildInfo
  dsimp only
  rw [Finset.image_insert, ← h]
  by_cases hmem : labelKey labels ∈ s.owned
  · simp [hmem]
  · simp [hmem]

/-- A label set whose key is not owned has no sample. -/
theorem notMem_samples {labels : BuildInfoLabels} {s : BuildInfo} (h : s.Owned)
    (hkey : labelKey labels ∉ s.owned) : labels ∉ s.samples := by
  intro hmem
  apply hkey
  rw [h]
  exact Finset.mem_image_of_mem labelKey hmem

/-- Unregistering right after registering gives the state back exactly where the key was not owned,
or the label set had its sample. -/
theorem unregister_register_iff (labels : BuildInfoLabels) {s : BuildInfo} (h : s.Owned) :
    unregisterBuildInfoIfOwned labels (registerBuildInfo labels s).2
        (registerBuildInfo labels s).1 = s ↔ labelKey labels ∉ s.owned ∨ labels ∈ s.samples := by
  have hfresh := @notMem_samples labels s h
  obtain ⟨owned, samples⟩ := s
  by_cases hmem : labelKey labels ∈ owned
  · -- The key is owned, so nothing is unregistered.
    simp [registerBuildInfo, unregisterBuildInfoIfOwned, hmem]
  · refine iff_of_true ?_ (Or.inl hmem)
    have howned := Finset.erase_insert hmem
    have hsamples := Finset.erase_insert (hfresh hmem)
    simp [registerBuildInfo, unregisterBuildInfoIfOwned, hmem, howned, hsamples]

/-- Unregistering right after registering keeps the owned keys those of the samples. -/
theorem owned_unregister_register (labels : BuildInfoLabels) {s : BuildInfo} (h : s.Owned) :
    (unregisterBuildInfoIfOwned labels (registerBuildInfo labels s).2
      (registerBuildInfo labels s).1).Owned := by
  by_cases hmem : labelKey labels ∈ s.owned
  · have hflag : (registerBuildInfo labels s).2 = false := by simp [registerBuildInfo, hmem]
    rw [hflag]
    exact owned_register labels h
  · rw [(unregister_register_iff labels h).mpr (Or.inl hmem)]
    exact h

end SimsysMetrics.Node
