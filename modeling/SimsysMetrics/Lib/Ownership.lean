import Mathlib.Data.Finset.Image
import SimsysMetrics.Lib.Runs

/-!
# Samples with an ownership flag

A ledger keeps a set of samples and, beside it, the set of their keys. `register` writes the sample
of a label and returns a flag, whether its key was new; `unregister` drops the sample where the flag
is set. `Registrars` is a ledger with those who registered: each one registers a label, and later
commits or rolls back, which unregisters the label with the flag that it was given.

The ledger is `Lawful` when a label has its sample exactly while one of those who registered it has
not rolled back. One flag cannot count them. What is needed is `Orderly`: who rolls back a label
that others still hold does so while one who registered it earlier still holds it, and two labels
that are registered do not have one key. Along every run the ledger stays lawful and the keys apart
exactly when the steps are orderly (`sound_iff_orderly`).
-/

namespace SimsysMetrics.Lib

/-- Samples and the keys of their labels, with the two operations on both. -/
structure Ledger (σ L K : Type*) [DecidableEq L] [DecidableEq K] where
  key : L → K
  owned : σ → Finset K
  samples : σ → Finset L
  register : L → σ → σ × Bool
  unregister : L → Bool → σ → σ
  owned_register : ∀ l s, owned (register l s).1 = insert (key l) (owned s)
  samples_register : ∀ l s, samples (register l s).1 = insert l (samples s)
  /-- The flag says whether the key was new. -/
  wasNew_register : ∀ l s, (register l s).2 = decide (key l ∉ owned s)
  owned_unregister : ∀ l s, owned (unregister l true s) = (owned s).erase (key l)
  samples_unregister : ∀ l s, samples (unregister l true s) = (samples s).erase l
  unregister_false : ∀ l s, unregister l false s = s

/-- Where a registrar is: it has registered, then it has committed or rolled back. -/
inductive Phase where
  | running
  | committed
  | rolledBack
deriving DecidableEq, Repr

/-- One who registered: the label, and the flag it was given. -/
structure Holder (L : Type*) where
  label : L
  wasNew : Bool
  phase : Phase
deriving DecidableEq, Repr

/-- A ledger, and those who registered, in their order. -/
structure Registrars (σ L : Type*) where
  ledger : σ
  holders : List (Holder L)

/-- What happens: someone registers a label, or the one with the index commits or rolls back. -/
inductive RegistrarEvent (L : Type*) where
  | register (label : L)
  | commit (k : ℕ)
  | rollback (k : ℕ)

namespace Registrars

variable {σ L : Type*}

/-- Nobody has registered. -/
def start (ledger : σ) : Registrars σ L := ⟨ledger, []⟩

/-- The holder with the index, while it has neither committed nor rolled back. -/
def running (s : Registrars σ L) (k : ℕ) : Option (Holder L) :=
  s.holders[k]?.filter (·.phase = .running)

/-- The registrar with the index registered the label and has not rolled back. -/
def StandsAt (s : Registrars σ L) (l : L) (j : ℕ) : Prop :=
  ∃ h, s.holders[j]? = some h ∧ h.label = l ∧ h.phase ≠ .rolledBack

/-- The holder with the index has moved to a phase. -/
def moved (s : Registrars σ L) (k : ℕ) (h : Holder L) (phase : Phase) : List (Holder L) :=
  s.holders.set k { h with phase }

/-- A running holder is one of the holders. -/
theorem running_eq_some {s : Registrars σ L} {k : ℕ} {h : Holder L} :
    s.running k = some h ↔ s.holders[k]? = some h ∧ h.phase = .running := by
  simp [running, Option.filter_eq_some_iff]

section Moved

variable {s : Registrars σ L} {l : L} {j k : ℕ} {h : Holder L}

/-- A running holder stands for its own label. -/
theorem standsAt_running (hk : s.running k = some h) : s.StandsAt l k ↔ l = h.label := by
  obtain ⟨hget, hrun⟩ := running_eq_some.mp hk
  simp [StandsAt, hget, hrun, eq_comm]

/-- Who stands after a running holder has moved: the others as before, and the holder unless it
rolled back. -/
theorem standsAt_moved (hk : s.running k = some h) (phase : Phase) (ledger : σ) :
    (⟨ledger, s.moved k h phase⟩ : Registrars σ L).StandsAt l j ↔
      s.StandsAt l j ∧ (j = k → phase ≠ .rolledBack) := by
  obtain ⟨hget, hrun⟩ := running_eq_some.mp hk
  have hlt : k < s.holders.length := (List.getElem?_eq_some_iff.mp hget).1
  unfold StandsAt moved
  dsimp only
  by_cases hjk : j = k
  · subst hjk
    simp [List.getElem?_set_self hlt, hget, hrun]
  · rw [List.getElem?_set_ne (Ne.symm hjk)]
    simp [hjk]

/-- The holders after one of them has moved have the same labels and flags, and who stands stood
before. -/
theorem getElem?_moved (hk : s.running k = some h) {phase : Phase} {h' : Holder L}
    (hj : (s.moved k h phase)[j]? = some h') :
    ∃ h₀, s.holders[j]? = some h₀ ∧ h₀.label = h'.label ∧ h₀.wasNew = h'.wasNew ∧
      (h'.phase ≠ .rolledBack → h₀.phase ≠ .rolledBack) := by
  obtain ⟨hget, hrun⟩ := running_eq_some.mp hk
  have hlt : k < s.holders.length := (List.getElem?_eq_some_iff.mp hget).1
  by_cases hjk : j = k
  · subst hjk
    rw [moved, List.getElem?_set_self hlt, Option.some.injEq] at hj
    subst hj
    exact ⟨h, hget, rfl, rfl, fun _ => by simp [hrun]⟩
  · rw [moved, List.getElem?_set_ne (Ne.symm hjk)] at hj
    exact ⟨h', hj, rfl, rfl, id⟩

/-- Who stands is one of the holders. -/
theorem StandsAt.mem (hj : s.StandsAt l j) : ∃ h ∈ s.holders, h.label = l := by
  obtain ⟨h, hget, hl, -⟩ := hj
  exact ⟨h, List.mem_of_getElem? hget, hl⟩

end Moved

end Registrars

namespace Ledger

variable {σ L K : Type*} [DecidableEq L] [DecidableEq K] (A : Ledger σ L K)

/-- One step. Committing and rolling back do nothing the second time. -/
def step (s : Registrars σ L) : RegistrarEvent L → Registrars σ L
  | .register l =>
    ⟨(A.register l s.ledger).1, s.holders ++ [⟨l, (A.register l s.ledger).2, .running⟩]⟩
  | .commit k =>
    match s.running k with
    | some h => ⟨s.ledger, s.moved k h .committed⟩
    | none => s
  | .rollback k =>
    match s.running k with
    | some h => ⟨A.unregister h.label h.wasNew s.ledger, s.moved k h .rolledBack⟩
    | none => s

/-- A label has its sample exactly while one who registered it has not rolled back. -/
def Lawful (s : Registrars σ L) : Prop := ∀ l, l ∈ A.samples s.ledger ↔ ∃ j, s.StandsAt l j

/-- Two labels that were registered do not have one key. -/
def Apart (s : Registrars σ L) : Prop :=
  ∀ h ∈ s.holders, ∀ h' ∈ s.holders, A.key h.label = A.key h'.label → h.label = h'.label

/-- The ledger is lawful, and the keys are apart. -/
def Sound (s : Registrars σ L) : Prop := A.Lawful s ∧ A.Apart s

end Ledger

/-- A label that is registered is apart from the earlier ones. Who rolls back a label that another
one holds does so while one who registered it earlier holds it. -/
def Orderly {σ L : Type*} (apart : L → L → Prop) (s : Registrars σ L) : RegistrarEvent L → Prop
  | .register l => ∀ h ∈ s.holders, apart h.label l
  | .commit _ => True
  | .rollback k => ∀ h, s.running k = some h →
      (∃ j, j ≠ k ∧ s.StandsAt h.label j) → ∃ i < k, s.StandsAt h.label i

namespace Ledger

variable {σ L K : Type*} [DecidableEq L] [DecidableEq K] {A : Ledger σ L K}

variable {s : Registrars σ L} {l : L} {k : ℕ} {h : Holder L}

/-- What committing does to a running holder. -/
theorem step_commit (hk : s.running k = some h) :
    A.step s (.commit k) = ⟨s.ledger, s.moved k h .committed⟩ := by
  simp only [step, hk]

/-- What rolling back does to a running holder. -/
theorem step_rollback (hk : s.running k = some h) :
    A.step s (.rollback k) =
      ⟨A.unregister h.label h.wasNew s.ledger, s.moved k h .rolledBack⟩ := by
  simp only [step, hk]

/-- Without a running holder neither does anything. -/
theorem step_of_not_running (hk : s.running k = none) :
    A.step s (.commit k) = s ∧ A.step s (.rollback k) = s := by
  simp only [step, hk, and_self]

/-- Registering adds one who holds the label. -/
theorem standsAt_register (l' : L) (j : ℕ) :
    (A.step s (.register l')).StandsAt l j ↔ s.StandsAt l j ∨ j = s.holders.length ∧ l = l' := by
  unfold Registrars.StandsAt step
  dsimp only
  rcases lt_trichotomy j s.holders.length with hlt | heq | hgt
  · rw [List.getElem?_append_left hlt]
    simp [hlt.ne]
  · subst heq
    simp [eq_comm]
  · have hnone : s.holders[j]? = none := List.getElem?_eq_none hgt.le
    have hnone' : (s.holders ++ [(⟨l', (A.register l' s.ledger).2, .running⟩ : Holder L)])[j]? =
        none := by
      refine List.getElem?_eq_none ?_
      rw [List.length_append, List.length_singleton]
      omega
    simp [hnone, hnone', hgt.ne']

/-- What holds between the ledger and those who registered: the ledger is sound, the owned keys are
those of the samples, and the one with the flag is the first of those who hold a label. -/
structure Inv (A : Ledger σ L K) (s : Registrars σ L) : Prop where
  lawful : A.Lawful s
  apart : A.Apart s
  owned : A.owned s.ledger = (A.samples s.ledger).image A.key
  wasNew : ∀ j h, s.holders[j]? = some h → h.phase ≠ .rolledBack →
    (h.wasNew = true ↔ ∀ i < j, ¬ s.StandsAt h.label i)

/-- The key of a label that is apart from the registered ones is owned exactly when the label has
its sample. -/
theorem Inv.key_mem_owned (hinv : A.Inv s)
    (hap : ∀ h ∈ s.holders, A.key h.label = A.key l → h.label = l) :
    A.key l ∈ A.owned s.ledger ↔ l ∈ A.samples s.ledger := by
  rw [hinv.owned, Finset.mem_image]
  constructor
  · rintro ⟨l', hl', hkey⟩
    obtain ⟨j, hj⟩ := (hinv.lawful l').mp hl'
    obtain ⟨h, hmem, rfl⟩ := hj.mem
    rw [← hap h hmem hkey]
    exact hl'
  · intro hl
    exact ⟨l, hl, rfl⟩

/-- Registering writes the sample that the law asks for. -/
theorem lawful_register (h : A.Lawful s) (l : L) : A.Lawful (A.step s (.register l)) := by
  intro l'
  have hsamples : A.samples (A.step s (.register l)).ledger = insert l (A.samples s.ledger) :=
    A.samples_register l s.ledger
  rw [hsamples, Finset.mem_insert, h l']
  simp only [standsAt_register, exists_or, exists_eq_left, or_comm]

/-- The keys stay apart exactly when that of the registered label is apart from the others. -/
theorem apart_register_iff (h : A.Apart s) :
    A.Apart (A.step s (.register l)) ↔
      ∀ h ∈ s.holders, A.key h.label = A.key l → h.label = l := by
  unfold Apart step at *
  dsimp only
  constructor
  · intro hap h' hh'
    exact hap h' (List.mem_append_left _ hh') _
      (List.mem_append_right _ (List.mem_singleton_self _))
  · intro hap a ha b hb hkey
    rw [List.mem_append, List.mem_singleton] at ha hb
    rcases ha with ha | rfl <;> rcases hb with hb | rfl
    · exact h a ha b hb hkey
    · exact hap a ha hkey
    · exact (hap b hb hkey.symm).symm
    · rfl

/-- Registering a label that is apart keeps the invariant. -/
theorem Inv.register (hinv : A.Inv s)
    (hap : ∀ h ∈ s.holders, A.key h.label = A.key l → h.label = l) :
    A.Inv (A.step s (.register l)) := by
  have hledger : (A.step s (.register l)).ledger = (A.register l s.ledger).1 := rfl
  refine ⟨lawful_register hinv.lawful l, (apart_register_iff hinv.apart).mpr hap, ?_, ?_⟩
  · rw [hledger, A.owned_register, A.samples_register, Finset.image_insert, hinv.owned]
  · intro j h hget hphase
    -- Who registers comes last, and is none of those before a holder.
    have hstands : ∀ i < j, (A.step s (.register l)).StandsAt h.label i ↔ s.StandsAt h.label i := by
      intro i hi
      have hlt : j < (A.step s (.register l)).holders.length :=
        (List.getElem?_eq_some_iff.mp hget).1
      have hne : i ≠ s.holders.length := by
        simp only [step, List.length_append, List.length_singleton] at hlt
        omega
      simp [standsAt_register, hne]
    have hiff : (∀ i < j, ¬ (A.step s (.register l)).StandsAt h.label i) ↔
        ∀ i < j, ¬ s.StandsAt h.label i :=
      forall₂_congr fun i hi => not_congr (hstands i hi)
    rw [hiff]
    change (s.holders ++ [⟨l, (A.register l s.ledger).2, .running⟩])[j]? = some h at hget
    by_cases hlt : j < s.holders.length
    · rw [List.getElem?_append_left hlt] at hget
      exact hinv.wasNew j h hget hphase
    · -- The one who registers: its key is new exactly when nobody holds its label.
      have hj : j = s.holders.length := by
        have := (List.getElem?_eq_some_iff.mp hget).1
        rw [List.length_append, List.length_singleton] at this
        omega
      subst hj
      rw [List.getElem?_concat_length, Option.some.injEq] at hget
      subst hget
      have hnew : (A.register l s.ledger).2 = true ↔ ∀ j, ¬ s.StandsAt l j := by
        rw [A.wasNew_register, decide_eq_true_eq, hinv.key_mem_owned hap, hinv.lawful l, not_exists]
      refine hnew.trans ⟨fun hnot i _ => hnot i, fun hnot i hi => hnot i ?_ hi⟩
      obtain ⟨_, hget', -⟩ := hi
      exact (List.getElem?_eq_some_iff.mp hget').1

/-- Rolling back takes away the one who rolls back. -/
theorem standsAt_rollback (hk : s.running k = some h) (l : L) (j : ℕ) :
    (A.step s (.rollback k)).StandsAt l j ↔ s.StandsAt l j ∧ j ≠ k := by
  rw [step_rollback hk, Registrars.standsAt_moved hk]
  simp

/-- The first holder of a label drops the sample, which is lawful exactly when nobody else holds
it. -/
theorem lawful_rollback_first (hlaw : A.Lawful s) (hk : s.running k = some h)
    (hnew : h.wasNew = true) :
    A.Lawful (A.step s (.rollback k)) ↔ ¬ ∃ j, j ≠ k ∧ s.StandsAt h.label j := by
  have hsamples : A.samples (A.step s (.rollback k)).ledger =
      (A.samples s.ledger).erase h.label := by
    rw [step_rollback hk, hnew]
    exact A.samples_unregister h.label s.ledger
  constructor
  · rintro hlaw' ⟨j, hjk, hj⟩
    have hmem := (hlaw' h.label).mpr ⟨j, (standsAt_rollback hk _ _).mpr ⟨hj, hjk⟩⟩
    rw [hsamples] at hmem
    exact absurd hmem (Finset.notMem_erase _ _)
  · intro halone l
    rw [hsamples, Finset.mem_erase, hlaw l]
    simp only [standsAt_rollback hk]
    constructor
    · rintro ⟨hne, j, hj⟩
      refine ⟨j, hj, ?_⟩
      rintro rfl
      exact hne ((Registrars.standsAt_running hk).mp hj)
    · rintro ⟨j, hj, hjk⟩
      refine ⟨?_, j, hj⟩
      rintro rfl
      exact halone ⟨j, hjk, hj⟩

/-- A later holder of a label leaves the sample, and so does one who registered it earlier. -/
theorem lawful_rollback_later (hlaw : A.Lawful s) (hk : s.running k = some h)
    (hnew : h.wasNew = false) (hfirst : ∃ i < k, s.StandsAt h.label i) :
    A.Lawful (A.step s (.rollback k)) := by
  have hledger : (A.step s (.rollback k)).ledger = s.ledger := by
    rw [step_rollback hk, hnew]
    exact A.unregister_false h.label s.ledger
  intro l
  rw [hledger, hlaw l]
  simp only [standsAt_rollback hk]
  constructor
  · rintro ⟨j, hj⟩
    by_cases hjk : j = k
    · subst hjk
      obtain ⟨i, hi, hsi⟩ := hfirst
      rw [(Registrars.standsAt_running hk).mp hj]
      exact ⟨i, hsi, hi.ne⟩
    · exact ⟨j, hj, hjk⟩
  · rintro ⟨j, hj, -⟩
    exact ⟨j, hj⟩

/-- After a rollback the ledger is lawful exactly when the one who rolled back held the label alone,
or one who registered it earlier holds it. -/
theorem lawful_rollback_iff (hinv : A.Inv s) (hk : s.running k = some h) :
    A.Lawful (A.step s (.rollback k)) ↔
      ((∃ j, j ≠ k ∧ s.StandsAt h.label j) → ∃ i < k, s.StandsAt h.label i) := by
  obtain ⟨hget, hrun⟩ := Registrars.running_eq_some.mp hk
  have hflag := hinv.wasNew k h hget (by simp [hrun])
  cases hnew : h.wasNew with
  | true =>
    have hfirst : ¬ ∃ i < k, s.StandsAt h.label i := by
      rintro ⟨i, hi, hsi⟩
      exact hflag.mp hnew i hi hsi
    rw [lawful_rollback_first hinv.lawful hk hnew]
    exact ⟨fun halone hother => absurd hother halone, fun hcond hother => hfirst (hcond hother)⟩
  | false =>
    have hfirst : ∃ i < k, s.StandsAt h.label i := by
      by_contra hnone
      push Not at hnone
      exact Bool.false_ne_true (hnew.symm.trans (hflag.mpr hnone))
    exact iff_of_true (lawful_rollback_later hinv.lawful hk hnew hfirst) fun _ => hfirst

/-- Moving a holder keeps the keys apart. -/
theorem Apart.moved (hap : A.Apart s) (hk : s.running k = some h) (phase : Phase) (ledger : σ) :
    A.Apart ⟨ledger, s.moved k h phase⟩ := by
  have horigin : ∀ a ∈ s.moved k h phase, ∃ a₀ ∈ s.holders, a₀.label = a.label := by
    intro a ha
    obtain ⟨j, hj⟩ := List.mem_iff_getElem?.mp ha
    obtain ⟨a₀, hget, hlabel, -⟩ := Registrars.getElem?_moved hk hj
    exact ⟨a₀, List.mem_of_getElem? hget, hlabel⟩
  intro a ha b hb hkey
  obtain ⟨a₀, ha₀, hla⟩ := horigin a ha
  obtain ⟨b₀, hb₀, hlb⟩ := horigin b hb
  rw [← hla, ← hlb] at hkey ⊢
  exact hap a₀ ha₀ b₀ hb₀ hkey

/-- Who is first among those who hold a label stays so when a holder moves, where one who rolls back
leaves an earlier one, or nobody. -/
theorem Inv.wasNew_moved (hinv : A.Inv s) (hk : s.running k = some h) {phase : Phase} (ledger : σ)
    (hok : phase = .rolledBack → (∃ j, j ≠ k ∧ s.StandsAt h.label j) →
      ∃ i < k, s.StandsAt h.label i) (j : ℕ) (h' : Holder L)
    (hget : (s.moved k h phase)[j]? = some h') (hphase : h'.phase ≠ .rolledBack) :
    h'.wasNew = true ↔
      ∀ i < j, ¬ (⟨ledger, s.moved k h phase⟩ : Registrars σ L).StandsAt h'.label i := by
  have hstandsj : s.StandsAt h'.label j ∧ (j = k → phase ≠ .rolledBack) :=
    (Registrars.standsAt_moved hk phase ledger).mp ⟨h', hget, rfl, hphase⟩
  obtain ⟨h₀, hget₀, hlabel, hflag, hphase₀⟩ := Registrars.getElem?_moved hk hget
  rw [← hflag, hinv.wasNew j h₀ hget₀ (hphase₀ hphase), hlabel]
  simp only [Registrars.standsAt_moved hk]
  constructor
  · intro hnot i hi hsi
    exact hnot i hi hsi.1
  · intro hnot i hi hsi
    by_cases hback : i = k ∧ phase = .rolledBack
    · -- The one who rolls back stood before `j`, so an even earlier one stands.
      obtain ⟨rfl, hroll⟩ := hback
      have hl : h'.label = h.label := by
        obtain ⟨a, ha, hla, -⟩ := hsi
        rw [(Registrars.running_eq_some.mp hk).1, Option.some.injEq] at ha
        rw [← hla, ha]
      obtain ⟨i', hi', hsi'⟩ := hok hroll ⟨j, hi.ne', hl ▸ hstandsj.1⟩
      exact hnot i' (hi'.trans hi) ⟨hl ▸ hsi', fun h => absurd h hi'.ne⟩
    · exact hnot i hi ⟨hsi, fun hik hroll => hback ⟨hik, hroll⟩⟩

/-- Committing keeps the invariant. -/
theorem Inv.commit (hinv : A.Inv s) (k : ℕ) : A.Inv (A.step s (.commit k)) := by
  cases hk : s.running k with
  | none =>
    rw [(step_of_not_running hk).1]
    exact hinv
  | some h =>
    rw [step_commit hk]
    refine ⟨?_, hinv.apart.moved hk _ _, hinv.owned,
      hinv.wasNew_moved hk _ fun hroll => nomatch hroll⟩
    intro l
    simp only [Registrars.standsAt_moved hk]
    simpa using hinv.lawful l

/-- An orderly rollback keeps the invariant. -/
theorem Inv.rollback (hinv : A.Inv s) {k : ℕ} {apart : L → L → Prop}
    (hok : Orderly apart s (.rollback k)) : A.Inv (A.step s (.rollback k)) := by
  cases hk : s.running k with
  | none =>
    rw [(step_of_not_running hk).2]
    exact hinv
  | some h =>
    have hlaw := (lawful_rollback_iff hinv hk).mpr (hok h hk)
    rw [step_rollback hk] at hlaw ⊢
    refine ⟨hlaw, hinv.apart.moved hk _ _, ?_, hinv.wasNew_moved hk _ fun _ => hok h hk⟩
    cases h.wasNew with
    | false =>
      rw [A.unregister_false]
      exact hinv.owned
    | true =>
      rw [A.owned_unregister, A.samples_unregister, hinv.owned]
      -- No other label with a sample has the key of the dropped one.
      ext κ
      simp only [Finset.mem_erase, Finset.mem_image]
      constructor
      · rintro ⟨hne, l, hl, rfl⟩
        exact ⟨l, ⟨fun heq => hne (heq ▸ rfl), hl⟩, rfl⟩
      · rintro ⟨l, ⟨hne, hl⟩, rfl⟩
        refine ⟨fun hkey => hne ?_, l, hl, rfl⟩
        obtain ⟨j, hj⟩ := (hinv.lawful l).mp hl
        obtain ⟨a, ha, rfl⟩ := hj.mem
        have hmem := List.mem_of_getElem? (Registrars.running_eq_some.mp hk).1
        exact hinv.apart a ha h hmem hkey

/-- An empty ledger satisfies the invariant. -/
theorem inv_start {ledger : σ} (howned : A.owned ledger = ∅) (hsamples : A.samples ledger = ∅) :
    A.Inv (.start ledger) := by
  refine ⟨?_, ?_, by simp [Registrars.start, howned, hsamples], ?_⟩
  · intro l
    simp [Registrars.start, hsamples, Registrars.StandsAt]
  · intro h hmem
    cases hmem
  · intro j h hget
    simp [Registrars.start] at hget

/-- From an empty ledger, every state of a run is sound exactly when every step is orderly. -/
theorem sound_iff_orderly {apart : L → L → Prop}
    (hapart : ∀ l l', apart l l' ↔ (A.key l = A.key l' → l = l')) {ledger : σ}
    (howned : A.owned ledger = ∅) (hsamples : A.samples ledger = ∅)
    (es : List (RegistrarEvent L)) :
    (∀ pre, pre <+: es → A.Sound (run A.step (.start ledger) pre)) ↔
      Along A.step (Orderly apart) (.start ledger) es := by
  have hinv := inv_start howned hsamples
  -- In a state that keeps the invariant, a step leads to a sound one exactly when it is orderly.
  have hsound : ∀ s e, A.Inv s → (A.Sound (A.step s e) ↔ Orderly apart s e) := by
    intro s e hs
    cases e with
    | register l =>
      unfold Sound
      rw [and_iff_right (lawful_register hs.lawful l), apart_register_iff hs.apart]
      exact forall₂_congr fun h _ => (hapart h.label l).symm
    | commit k => exact iff_of_true ⟨(hs.commit k).lawful, (hs.commit k).apart⟩ trivial
    | rollback k =>
      cases hk : s.running k with
      | none =>
        rw [(step_of_not_running hk).2]
        refine iff_of_true ⟨hs.lawful, hs.apart⟩ ?_
        intro h hh
        rw [hk] at hh
        cases hh
      | some h =>
        have hap : A.Apart (A.step s (.rollback k)) := by
          rw [step_rollback hk]
          exact hs.apart.moved hk _ _
        unfold Sound
        rw [and_iff_left hap, lawful_rollback_iff hs hk]
        simp only [Orderly, hk, Option.some.injEq, forall_eq']
  -- An orderly step keeps the invariant, so that this applies to the whole run.
  have hstep : ∀ s e, A.Inv s → Orderly apart s e → A.Inv (A.step s e) := by
    intro s e hs hok
    cases e with
    | register l => exact hs.register fun h hh => (hapart h.label l).mp (hok h hh)
    | commit k => exact hs.commit k
    | rollback k => exact hs.rollback hok
  rw [forall_prefix_iff_along ⟨hinv.lawful, hinv.apart⟩]
  exact along_iff hsound hstep hinv es

end Ledger

end SimsysMetrics.Lib
