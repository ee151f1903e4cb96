import Mathlib.Data.Set.Basic
import Mathlib.Logic.Function.Basic
import SimsysMetrics.Lib.Runs

/-!
# Chains of tests that remember

A chain asks its tests in order, and answers with the position of the first that accepts. A test
has a cell of memory, which asking it may change, so the answer about one input may depend on the
inputs that were asked before. A test may stand at several places of a chain; they share its cell.

The answers do not depend on the past exactly where every test is `Stable` (`forgetful_iff`): from
every state that the inputs can leave in its cell it accepts each input at the same one of its
places, or at none, as from the first state. An input reaches the places in front of the first other
test that accepts it from the first memory (`reached`).

The proof looks at one cell at a time. Memories that agree in their answer about an input can be
mixed cell by cell, and the mixture gives the same answer (`first_mixed`). With all other cells in
their first states, a chain is the test of one cell, asked at the places that the input reaches
(`first_cell`, `first_eq_iff`).
-/

namespace SimsysMetrics.Lib.FirstMatch

/-- A test: the identity of its cell, and, from a state of the cell and an input, whether it accepts
and the state that it leaves. -/
structure Test (α σ : Type*) where
  id : ℕ
  ask : σ → α → Bool × σ

variable {α σ : Type*}

/-- The position of the first test that accepts an input, and the memory afterwards. -/
def first : List (Test α σ) → (ℕ → σ) → α → Option ℕ × (ℕ → σ)
  | [], m, _ => (none, m)
  | t :: ts, m, a =>
    let m' := Function.update m t.id (t.ask (m t.id) a).2
    if (t.ask (m t.id) a).1 then (some 0, m')
    else ((first ts m' a).1.map (· + 1), (first ts m' a).2)

/-- An input that the test in front accepts. -/
theorem first_of_accepts {t : Test α σ} {ts : List (Test α σ)} {m : ℕ → σ} {a : α}
    (h : (t.ask (m t.id) a).1 = true) :
    first (t :: ts) m a = (some 0, Function.update m t.id (t.ask (m t.id) a).2) := by
  rw [first, if_pos h]

/-- An input that the test in front refuses goes on to the tests behind it. -/
theorem first_of_refuses {t : Test α σ} {ts : List (Test α σ)} {m : ℕ → σ} {a : α}
    (h : (t.ask (m t.id) a).1 = false) :
    first (t :: ts) m a =
      ((first ts (Function.update m t.id (t.ask (m t.id) a).2) a).1.map (· + 1),
        (first ts (Function.update m t.id (t.ask (m t.id) a).2) a).2) := by
  rw [first, if_neg (by simpa using h)]

/-- The memory after some inputs. -/
def after (ts : List (Test α σ)) (m : ℕ → σ) (as : List α) : ℕ → σ :=
  run (fun m a => (first ts m a).2) m as

/-- The answer about an input does not depend on the inputs before it. -/
def Forgetful (m₀ : ℕ → σ) (D : Set α) (ts : List (Test α σ)) : Prop :=
  ∀ as as' : List α, (∀ a ∈ as, a ∈ D) → (∀ a ∈ as', a ∈ D) →
    ∀ a ∈ D, (first ts (after ts m₀ as) a).1 = (first ts (after ts m₀ as') a).1

/-- A test that is asked about an input up to `n` times in a row: which time it accepts, if it does,
and the state that it leaves. -/
def repeated (t : Test α σ) (a : α) : ℕ → σ → Option ℕ × σ
  | 0, s => (none, s)
  | n + 1, s =>
    if (t.ask s a).1 then (some 0, (t.ask s a).2)
    else ((repeated t a n (t.ask s a).2).1.map (· + 1), (repeated t a n (t.ask s a).2).2)

/-- How many places of a cell an input reaches as long as these refuse it: those in front of the
first other test that accepts it. -/
def reached (i : ℕ) : List (Test α σ) → (ℕ → σ) → α → ℕ
  | [], _, _ => 0
  | t :: ts, m, a =>
    if t.id = i then reached i ts m a + 1
    else if (t.ask (m t.id) a).1 then 0
    else reached i ts (Function.update m t.id (t.ask (m t.id) a).2) a

/-- The states that inputs of a set can leave in the cell of a test that is asked about each of them
up to a number of times. -/
inductive Left (D : Set α) (n : α → ℕ) (t : Test α σ) (s₀ : σ) : σ → Prop where
  | start : Left D n t s₀ s₀
  | asked {s : σ} {a : α} (hs : Left D n t s₀ s) (ha : a ∈ D) :
    Left D n t s₀ (repeated t a (n a) s).2

/-- From every state that the inputs can leave in its cell, a test accepts each of them the same
time as from the first. -/
def Stable (D : Set α) (n : α → ℕ) (t : Test α σ) (s₀ : σ) : Prop :=
  ∀ s, Left D n t s₀ s → ∀ a ∈ D, (repeated t a (n a) s).1 = (repeated t a (n a) s₀).1

/-- Every test of a chain is stable at the places that the inputs reach. -/
def Steady (m₀ : ℕ → σ) (D : Set α) (ts : List (Test α σ)) : Prop :=
  ∀ t ∈ ts, Stable D (reached t.id ts m₀) t (m₀ t.id)

/-- Tests with the same cell are the same. -/
def Coherent (ts : List (Test α σ)) : Prop := ∀ t ∈ ts, ∀ u ∈ ts, t.id = u.id → t = u

/-! ## Mixtures of memories -/

section Mixed

variable {ts : List (Test α σ)} {a : α}

/-- A memory whose cells are taken from memories with one answer has this answer as well, and leaves
each cell as the memory does that it was taken from. -/
theorem first_mixed {M : ℕ → ℕ → σ} {m : ℕ → σ} (hm : ∀ i, m i = M i i) {p : Option ℕ}
    (hp : ∀ i, (first ts (M i) a).1 = p) :
    (first ts m a).1 = p ∧ ∀ i, (first ts m a).2 i = (first ts (M i) a).2 i := by
  induction ts generalizing M m p with
  | nil => exact ⟨hp 0, hm⟩
  | cons t ts ih =>
    have hhead : t.ask (m t.id) a = t.ask (M t.id t.id) a := by rw [hm]
    have hcells : ∀ i, Function.update m t.id (t.ask (m t.id) a).2 i =
        Function.update (M i) t.id (t.ask (M i t.id) a).2 i := by
      intro i
      by_cases hi : i = t.id
      · subst hi
        rw [Function.update_self, Function.update_self, hhead]
      · rw [Function.update_of_ne hi, Function.update_of_ne hi, hm]
    cases hanswer : (t.ask (m t.id) a).1 with
    | true =>
      -- The memory of this cell accepts here, so all of them do.
      have hzero : p = some 0 := by
        rw [← hp t.id, first_of_accepts (hhead ▸ hanswer)]
      have hall : ∀ i, (t.ask (M i t.id) a).1 = true := by
        intro i
        by_contra hrefuses
        have hbehind := hp i
        rw [first_of_refuses (by simpa using hrefuses), hzero, Option.map_eq_some_iff] at hbehind
        obtain ⟨k, -, hk⟩ := hbehind
        omega
      rw [first_of_accepts hanswer]
      refine ⟨hzero.symm, ?_⟩
      intro i
      rw [first_of_accepts (hall i)]
      exact hcells i
    | false =>
      have hall : ∀ i, (t.ask (M i t.id) a).1 = false := by
        intro i
        by_contra haccepts
        have hbehind := (hp t.id).trans (hp i).symm
        rw [first_of_refuses (hhead ▸ hanswer), first_of_accepts (by simpa using haccepts),
          Option.map_eq_some_iff] at hbehind
        obtain ⟨k, -, hk⟩ := hbehind
        omega
      have hbehind : ∀ i, (first ts (Function.update (M i) t.id (t.ask (M i t.id) a).2) a).1 =
          (first ts (Function.update (M t.id) t.id (t.ask (M t.id t.id) a).2) a).1 := by
        intro i
        have hsame := (hp i).trans (hp t.id).symm
        rw [first_of_refuses (hall i), first_of_refuses (hall t.id)] at hsame
        exact Option.map_injective Nat.succ_injective hsame
      obtain ⟨hposition, hmemory⟩ := ih hcells hbehind
      rw [first_of_refuses hanswer]
      refine ⟨?_, ?_⟩
      · rw [← hp t.id, first_of_refuses (hall t.id), hposition]
      · intro i
        rw [first_of_refuses (hall i)]
        exact hmemory i

/-- A cell that does not occur in a chain has no part in its answers. -/
theorem first_update_of_absent {i : ℕ} (h : ∀ t ∈ ts, t.id ≠ i) (m : ℕ → σ) (s : σ) :
    (first ts (Function.update m i s) a).1 = (first ts m a).1 := by
  induction ts generalizing m with
  | nil => rfl
  | cons t ts ih =>
    have ht : t.id ≠ i := h t List.mem_cons_self
    have hcell : Function.update m i s t.id = m t.id := Function.update_of_ne ht s m
    cases hanswer : (t.ask (m t.id) a).1 with
    | true => rw [first_of_accepts hanswer, first_of_accepts (hcell ▸ hanswer)]
    | false =>
      rw [first_of_refuses hanswer, first_of_refuses (hcell ▸ hanswer), hcell,
        Function.update_comm ht.symm, ih fun u hu => h u (List.mem_cons_of_mem _ hu)]

end Mixed

/-! ## One cell -/

section Cell

variable {ts : List (Test α σ)} {t : Test α σ} {a : α}

/-- With all other cells as they are, a chain leaves the cell of a test as asking the test at the
places that the input reaches does. -/
theorem first_cell (hid : ∀ u ∈ ts, u.id = t.id → u = t) (m : ℕ → σ) (s : σ) :
    (first ts (Function.update m t.id s) a).2 t.id =
      (repeated t a (reached t.id ts m a) s).2 := by
  induction ts generalizing m s with
  | nil => exact Function.update_self ..
  | cons u ts ih =>
    have hid' : ∀ v ∈ ts, v.id = t.id → v = t := fun v hv => hid v (List.mem_cons_of_mem _ hv)
    by_cases hu : u.id = t.id
    · obtain rfl := hid u List.mem_cons_self hu
      rw [reached, if_pos rfl, repeated]
      cases hanswer : (u.ask s a).1 with
      | true =>
        rw [first_of_accepts (by rw [Function.update_self, hanswer]), if_pos rfl,
          Function.update_self]
        exact Function.update_self ..
      | false =>
        rw [first_of_refuses (by rw [Function.update_self, hanswer]), Function.update_self,
          Function.update_idem]
        exact ih hid' m _
    · have hcell : Function.update m t.id s u.id = m u.id := Function.update_of_ne hu s m
      rw [reached, if_neg hu]
      cases hanswer : (u.ask (m u.id) a).1 with
      | true =>
        rw [first_of_accepts (hcell ▸ hanswer), if_pos rfl]
        dsimp only
        rw [Function.update_of_ne (Ne.symm hu)]
        exact Function.update_self ..
      | false =>
        rw [first_of_refuses (hcell ▸ hanswer), hcell, Function.update_comm (Ne.symm hu)]
        exact ih hid' _ s

/-- With all other cells as they are, a chain gives one answer from two states of the cell of a test
exactly where the test, asked at the places that the input reaches, accepts the same time. -/
theorem first_eq_iff (hid : ∀ u ∈ ts, u.id = t.id → u = t) (m : ℕ → σ) (s s' : σ) :
    (first ts (Function.update m t.id s) a).1 = (first ts (Function.update m t.id s') a).1 ↔
      (repeated t a (reached t.id ts m a) s).1 = (repeated t a (reached t.id ts m a) s').1 := by
  induction ts generalizing m s s' with
  | nil => exact iff_of_true rfl rfl
  | cons u ts ih =>
    have hid' : ∀ v ∈ ts, v.id = t.id → v = t := fun v hv => hid v (List.mem_cons_of_mem _ hv)
    by_cases hu : u.id = t.id
    · obtain rfl := hid u List.mem_cons_self hu
      have hstep : ∀ s, (first (u :: ts) (Function.update m u.id s) a).1 =
          if (u.ask s a).1 then some 0
          else (first ts (Function.update m u.id (u.ask s a).2) a).1.map (· + 1) := by
        intro s
        rw [first, Function.update_self, Function.update_idem]
        split_ifs <;> rfl
      have htimes : ∀ n s, (repeated u a (n + 1) s).1 =
          if (u.ask s a).1 then some 0 else (repeated u a n (u.ask s a).2).1.map (· + 1) := by
        intro n s
        rw [repeated]
        split_ifs <;> rfl
      rw [reached, if_pos rfl, hstep, hstep, htimes, htimes]
      -- Accepting at once is no later answer, and the later answers go on as before.
      have hlater : ∀ o : Option ℕ, o.map (· + 1) ≠ some 0 := by
        intro o
        cases o <;> simp
      split_ifs
      · exact iff_of_true rfl rfl
      · exact iff_of_false (hlater _).symm (hlater _).symm
      · exact iff_of_false (hlater _) (hlater _)
      · have hinj := Option.map_injective Nat.succ_injective
        exact hinj.eq_iff.trans ((ih hid' m _ _).trans hinj.eq_iff.symm)
    · have hcell : ∀ s, Function.update m t.id s u.id = m u.id := fun s =>
        Function.update_of_ne hu s m
      rw [reached, if_neg hu]
      cases hanswer : (u.ask (m u.id) a).1 with
      | true =>
        rw [first_of_accepts (hcell s ▸ hanswer), first_of_accepts (hcell s' ▸ hanswer)]
        exact iff_of_true rfl rfl
      | false =>
        rw [first_of_refuses (hcell s ▸ hanswer), first_of_refuses (hcell s' ▸ hanswer), hcell,
          hcell, Function.update_comm (Ne.symm hu), Function.update_comm (Ne.symm hu)]
        exact (Option.map_injective Nat.succ_injective).eq_iff.trans (ih hid' _ s s')

end Cell

/-! ## Chains without a past -/

section Forgetful

variable {m₀ : ℕ → σ} {D : Set α} {ts : List (Test α σ)}

/-- After some inputs and one more. -/
theorem after_concat (m : ℕ → σ) (as : List α) (a : α) :
    after ts m (as ++ [a]) = (first ts (after ts m as) a).2 :=
  run_concat _ m as a

/-- In a forgetful chain, the cell of a test moves as if all other cells were in their first states,
and the answer is the one from the first memory. -/
theorem Forgetful.cell (h : Forgetful m₀ D ts) {as : List α} (has : ∀ a ∈ as, a ∈ D) {a : α}
    (ha : a ∈ D) (i : ℕ) :
    (first ts (Function.update m₀ i (after ts m₀ as i)) a).1 = (first ts m₀ a).1 ∧
      (first ts (Function.update m₀ i (after ts m₀ as i)) a).2 i =
        (first ts (after ts m₀ as) a).2 i := by
  have hsame : (first ts (after ts m₀ as) a).1 = (first ts m₀ a).1 := h as [] has (by simp) a ha
  -- This cell is taken from the memory after the inputs, and the others from the first one.
  have hcells : ∀ j, Function.update m₀ i (after ts m₀ as i) j =
      (if j = i then after ts m₀ as else m₀) j := by
    intro j
    by_cases hj : j = i
    · rw [hj, Function.update_self, if_pos rfl]
    · rw [Function.update_of_ne hj, if_neg hj]
  have hanswers : ∀ j, (first ts (if j = i then after ts m₀ as else m₀) a).1 =
      (first ts m₀ a).1 := by
    intro j
    split_ifs
    · exact hsame
    · rfl
  obtain ⟨hposition, hmemory⟩ := first_mixed hcells hanswers
  refine ⟨hposition, ?_⟩
  rw [hmemory i, if_pos rfl]

/-- In a forgetful chain each state that the inputs can leave in the cell of a test is the one after
a history of inputs. -/
theorem Forgetful.exists_history (h : Forgetful m₀ D ts) {t : Test α σ}
    (hid : ∀ u ∈ ts, u.id = t.id → u = t) {s : σ}
    (hs : Left D (reached t.id ts m₀) t (m₀ t.id) s) :
    ∃ as : List α, (∀ a ∈ as, a ∈ D) ∧ after ts m₀ as t.id = s := by
  induction hs with
  | start => exact ⟨[], by simp, rfl⟩
  | @asked s a hs ha ih =>
    obtain ⟨as, has, rfl⟩ := ih
    refine ⟨as ++ [a], by simpa [or_imp, forall_and] using ⟨has, ha⟩, ?_⟩
    rw [after_concat, ← (h.cell has ha t.id).2]
    exact first_cell hid m₀ _

/-- A forgetful chain is steady. -/
theorem Forgetful.steady (h : Forgetful m₀ D ts) (hid : Coherent ts) : Steady m₀ D ts := by
  intro t ht s hs a ha
  have ht' : ∀ u ∈ ts, u.id = t.id → u = t := fun u hu => hid u hu t ht
  obtain ⟨as, has, rfl⟩ := h.exists_history ht' hs
  rw [← first_eq_iff ht' m₀, Function.update_eq_self]
  exact (h.cell has ha t.id).1

/-- Every cell is in a state that the inputs can leave in it. -/
def Within (m₀ : ℕ → σ) (D : Set α) (ts : List (Test α σ)) (m : ℕ → σ) : Prop :=
  ∀ t ∈ ts, Left D (reached t.id ts m₀) t (m₀ t.id) (m t.id)

/-- In a steady chain such a memory gives the answer of the first one, and another such memory. -/
theorem Steady.first_within (h : Steady m₀ D ts) (hid : Coherent ts) {m : ℕ → σ}
    (hm : Within m₀ D ts m) {a : α} (ha : a ∈ D) :
    (first ts m a).1 = (first ts m₀ a).1 ∧ Within m₀ D ts (first ts m a).2 := by
  have hcell : ∀ i, (first ts (Function.update m₀ i (m i)) a).1 = (first ts m₀ a).1 := by
    intro i
    by_cases hi : ∃ t ∈ ts, t.id = i
    · obtain ⟨t, ht, rfl⟩ := hi
      have hstable := h t ht (m t.id) (hm t ht) a ha
      rw [← first_eq_iff (fun u hu => hid u hu t ht) m₀, Function.update_eq_self] at hstable
      exact hstable
    · have habsent : ∀ t ∈ ts, t.id ≠ i := fun t ht heq => hi ⟨t, ht, heq⟩
      exact first_update_of_absent habsent m₀ (m i)
  obtain ⟨hposition, hmemory⟩ := @first_mixed _ _ ts a (fun i => Function.update m₀ i (m i)) m
    (fun i => (Function.update_self i (m i) m₀).symm) _ hcell
  refine ⟨hposition, ?_⟩
  intro t ht
  rw [hmemory t.id, first_cell (fun u hu => hid u hu t ht) m₀ (m t.id)]
  exact .asked (hm t ht) ha

/-- A steady chain is forgetful. -/
theorem Steady.forgetful (h : Steady m₀ D ts) (hid : Coherent ts) : Forgetful m₀ D ts := by
  have hafter : ∀ as : List α, (∀ a ∈ as, a ∈ D) → Within m₀ D ts (after ts m₀ as) := by
    intro as has
    refine invariant_run_of_mem ?_ (fun _ _ => .start) has
    intro m a hm ha
    exact (h.first_within hid hm ha).2
  intro as as' has has' a ha
  have hleft := (h.first_within hid (hafter as has) ha).1
  have hright := (h.first_within hid (hafter as' has') ha).1
  exact hleft.trans hright.symm

/-- A chain is forgetful exactly where it is steady. -/
theorem forgetful_iff (hid : Coherent ts) : Forgetful m₀ D ts ↔ Steady m₀ D ts :=
  ⟨fun h => h.steady hid, fun h => h.forgetful hid⟩

end Forgetful

end SimsysMetrics.Lib.FirstMatch
