import SimsysMetrics.Lib.Ownership
import SimsysMetrics.Node.BuildInfo
import SimsysMetrics.Python.BuildInfo

/-!
# The sample of `simsys_build_info` over interleaved installs

Any number of installs register a label set each, and each one later commits or rolls back. Both
lanes keep one flag per install, whether its label set was new, and are ledgers of
`Lib/Ownership.lean`: in the Python lane a label set is its own key, in the Node lane its key is the
text of `labelKey`.

The sample of a label set is there exactly while an install that registered it has not rolled back,
as long as who rolls back leaves one that registered the label set earlier, or nobody
(`buildInfo_lawful_iff`). Where the first of two goes, the sample goes with it
(`first_rollback_drops_sample`).
-/

namespace SimsysMetrics

/-- The ledger of the Python lane. -/
def Python.buildInfoLedger : Lib.Ledger Python.BuildInfo BuildInfoLabels BuildInfoLabels where
  key := id
  owned := (·.owned)
  samples := (·.samples)
  register := Python.registerBuildInfo
  unregister := Python.unregisterBuildInfoIfOwned
  owned_register l s := by
    by_cases h : l ∈ s.owned
    · simp [Python.registerBuildInfo, h]
    · simp [Python.registerBuildInfo, h]
  samples_register _ _ := rfl
  wasNew_register _ _ := rfl
  owned_unregister _ _ := rfl
  samples_unregister _ _ := rfl
  unregister_false _ _ := rfl

/-- The ledger of the Node lane. -/
def Node.buildInfoLedger : Lib.Ledger Node.BuildInfo BuildInfoLabels String where
  key := Node.labelKey
  owned := (·.owned)
  samples := (·.samples)
  register := Node.registerBuildInfo
  unregister := Node.unregisterBuildInfoIfOwned
  owned_register l s := by
    by_cases h : Node.labelKey l ∈ s.owned
    · simp [Node.registerBuildInfo, h]
    · simp [Node.registerBuildInfo, h]
  samples_register _ _ := rfl
  wasNew_register _ _ := rfl
  owned_unregister _ _ := rfl
  samples_unregister _ _ := rfl
  unregister_false _ _ := rfl

open Lib (RegistrarEvent Along Orderly run)

/-- Along every interleaving from the empty state: the sample of each label set is there exactly
while an install that registered it has not rolled back, exactly when every rollback is orderly. In
the Node lane this is so, and distinct label sets have distinct keys, exactly when also the label
sets that are registered differ in their pieces. -/
theorem buildInfo_lawful_iff (es : List (RegistrarEvent BuildInfoLabels)) :
    ((∀ pre, pre <+: es → Python.buildInfoLedger.Lawful
        (run Python.buildInfoLedger.step (.start Python.BuildInfo.empty) pre)) ↔
      Along Python.buildInfoLedger.step (Orderly fun _ _ => True)
        (.start Python.BuildInfo.empty) es) ∧
    ((∀ pre, pre <+: es → Node.buildInfoLedger.Lawful
        (run Node.buildInfoLedger.step (.start Node.BuildInfo.empty) pre) ∧
        Node.buildInfoLedger.Apart
          (run Node.buildInfoLedger.step (.start Node.BuildInfo.empty) pre)) ↔
      Along Node.buildInfoLedger.step
        (Orderly fun l l' => Node.labelPieces l = Node.labelPieces l' → l = l')
        (.start Node.BuildInfo.empty) es) := by
  constructor
  · have hsound := @Lib.Ledger.sound_iff_orderly _ _ _ _ _ Python.buildInfoLedger (fun _ _ => True)
      (fun l l' => iff_of_true trivial id) Python.BuildInfo.empty rfl rfl es
    rw [← hsound]
    refine forall₂_congr fun pre _ => (and_iff_left ?_).symm
    intro h _ h' _ hkey
    exact hkey
  · exact Lib.Ledger.sound_iff_orderly
      (fun l l' => imp_congr_left (Node.labelKey_eq_iff l l').symm) rfl rfl es

/-- Two installs share a label set, and the first one rolls back: the sample of the other is gone.
In the Node lane also two label sets with one key: the second one rolls back, and its sample
stays. -/
theorem first_rollback_drops_sample :
    let l : BuildInfoLabels := ⟨"portal", "1.0", "abc", "2025-01-01T00:00:00Z"⟩
    let es : List (RegistrarEvent BuildInfoLabels) :=
      [.register l, .register l, .rollback 0, .commit 1]
    let l₁ : BuildInfoLabels := ⟨"a\x00b", "c", "abc", "2025-01-01T00:00:00Z"⟩
    let l₂ : BuildInfoLabels := ⟨"a", "b\x00c", "abc", "2025-01-01T00:00:00Z"⟩
    let fs : List (RegistrarEvent BuildInfoLabels) :=
      [.register l₁, .register l₂, .rollback 1, .commit 0]
    let python := run Python.buildInfoLedger.step (.start Python.BuildInfo.empty) es
    let node := run Node.buildInfoLedger.step (.start Node.BuildInfo.empty) es
    let node' := run Node.buildInfoLedger.step (.start Node.BuildInfo.empty) fs
    (python.ledger.samples = ∅ ∧ python.StandsAt l 1 ∧ ¬ Python.buildInfoLedger.Lawful python) ∧
      (node.ledger.samples = ∅ ∧ node.StandsAt l 1 ∧ ¬ Node.buildInfoLedger.Lawful node) ∧
      (Node.labelKey l₁ = Node.labelKey l₂ ∧ l₁ ≠ l₂ ∧ l₂ ∈ node'.ledger.samples ∧
        ¬ Node.buildInfoLedger.Lawful node') := by
  intro l es l₁ l₂ fs python node node'
  have hpython : python.StandsAt l 1 := ⟨_, rfl, rfl, by decide⟩
  have hnode : node.StandsAt l 1 := ⟨_, rfl, rfl, by decide⟩
  have hgone : python.ledger.samples = ∅ ∧ node.ledger.samples = ∅ := by decide
  have hkept : l₂ ∈ node'.ledger.samples := by decide
  have hholders : node'.holders = [⟨l₁, true, .committed⟩, ⟨l₂, false, .rolledBack⟩] := by decide
  refine ⟨⟨hgone.1, hpython, ?_⟩, ⟨hgone.2, hnode, ?_⟩, by decide, by decide, hkept, ?_⟩
  · -- The second holder stands in both lanes, but the sample has gone with the first.
    intro hlaw
    have hmem := (hlaw l).mpr ⟨1, hpython⟩
    simp [Python.buildInfoLedger, hgone.1] at hmem
  · intro hlaw
    have hmem := (hlaw l).mpr ⟨1, hnode⟩
    simp [Node.buildInfoLedger, hgone.2] at hmem
  · -- The sample of the second label set is there, but its only holder has rolled back.
    intro hlaw
    obtain ⟨j, h, hget, hlabel, hphase⟩ := (hlaw l₂).mp hkept
    rw [hholders] at hget
    rcases j with _ | _ | j
    · cases hget
      exact absurd hlabel (by decide)
    · cases hget
      exact hphase rfl
    · cases hget

end SimsysMetrics
