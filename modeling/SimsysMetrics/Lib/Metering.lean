import Mathlib.Algebra.Order.Field.Basic
import Mathlib.Data.List.Induction
import SimsysMetrics.Lib.Runs

/-!
# Rates of a count

A system counts, and samples its count from time to time. A sample knows the time since the one
before it, `elapsed`, and the count at the one before it, `base`; where time has passed, what was
counted since, over the time, is its rate (`instantRate`). `Metered` says what a system does to its
count and its base: a sample makes the count the base, whether time has passed or not, and between
samples the count only grows. The time is a value of an ordered field, and may be zero or negative.

So what is counted before a sample at which no time has passed is in no rate. The rates of the
samples, each times its time, add up to the count at the last one of them exactly when no such
sample before it finds anything new (`conserved_iff`).

`Smoothed` is a metered system that keeps a weighted mean of its rates. The mean lies between the
smallest and the largest rate so far (`between_rates`).
-/

namespace SimsysMetrics.Lib

variable {σ ε 𝕜 : Type*} [Field 𝕜] [LinearOrder 𝕜]

/-- A system that counts, and samples its count. -/
structure Metered (step : σ → ε → σ) (𝕜 : Type*) [Field 𝕜] [LinearOrder 𝕜] where
  /-- The count. -/
  count : σ → 𝕜
  /-- The count at the last sample. -/
  base : σ → 𝕜
  /-- For an event that is a sample, the time since the one before it. -/
  elapsed : σ → ε → Option 𝕜
  count_of_sample : ∀ {s e d}, elapsed s e = some d → count (step s e) = count s
  base_of_sample : ∀ {s e d}, elapsed s e = some d → base (step s e) = count s
  le_count_of_other : ∀ {s e}, elapsed s e = none → count s ≤ count (step s e)
  base_of_other : ∀ {s e}, elapsed s e = none → base (step s e) = base s

namespace Metered

variable {step : σ → ε → σ} (M : Metered step 𝕜)

/-- The rate of a sample: what was counted since the one before it, over the time. -/
def instantRate (s : σ) (d : 𝕜) : 𝕜 := (M.count s - M.base s) / d

/-- The time of an event that is a sample, where time has passed. -/
def passed (s : σ) (e : ε) : Option 𝕜 := (M.elapsed s e).filter (0 < ·)

/-- The rates of the samples of a run at which time has passed. -/
def rates : σ → List ε → List 𝕜 :=
  trace step fun s e => ((M.passed s e).map (M.instantRate s)).toList

/-- The same, each times its time: what the rates account for. -/
def accounts : σ → List ε → List 𝕜 :=
  trace step fun s e => ((M.passed s e).map fun d => M.instantRate s d * d).toList

/-- The counts at the samples of a run at which time has passed. -/
def counts : σ → List ε → List 𝕜 :=
  trace step fun s e => ((M.passed s e).map fun _ => M.count s).toList

/-- What is counted before the samples of a run at which no time has passed, up to the last one at
which it has. -/
def lost : σ → List ε → 𝕜
  | _, [] => 0
  | s, e :: es =>
    (if (M.elapsed s e).isSome ∧ M.passed s e = none ∧ M.counts (step s e) es ≠ [] then
      M.count s - M.base s else 0) + lost (step s e) es

/-- The rates of a run, each times its time, add up to what was counted up to the last sample at
which time has passed. -/
def Conserved (s : σ) (es : List ε) : Prop :=
  ∀ c, (M.counts s es).getLast? = some c → (M.accounts s es).sum = c - M.base s

/-- A sample at which no time has passed finds nothing new, if one at which it has comes later. -/
def LosesNothing (s : σ) (es : List ε) : Prop :=
  ∀ pre e post, es = pre ++ e :: post →
    (M.elapsed (run step s pre) e).isSome → M.passed (run step s pre) e = none →
      M.counts (run step s (pre ++ [e])) post ≠ [] →
        M.count (run step s pre) = M.base (run step s pre)

/-- Time has passed at every sample of a run. -/
def TimePasses : σ → List ε → Prop :=
  Along step fun s e => (M.elapsed s e).isSome → (M.passed s e).isSome

instance (s : σ) (es : List ε) : Decidable (M.TimePasses s es) :=
  inferInstanceAs (Decidable (Along step _ s es))

/-- A run in which time has passed at every sample loses nothing. -/
theorem losesNothing_of_timePasses {s : σ} {es : List ε} (h : M.TimePasses s es) :
    M.LosesNothing s es := by
  rintro pre e post rfl hsample hnone -
  have hpassed := along_iff_forall.mp h pre e ⟨post, by simp⟩ hsample
  rw [hnone] at hpassed
  cases hpassed

/-- An event is no sample, or a sample at which no time has passed, or one at which it has. -/
theorem cases_elapsed (s : σ) (e : ε) :
    M.elapsed s e = none ∧ M.passed s e = none ∨
      (∃ d, M.elapsed s e = some d ∧ M.passed s e = none) ∨
        ∃ d, 0 < d ∧ M.elapsed s e = some d ∧ M.passed s e = some d := by
  unfold passed
  rcases helapsed : M.elapsed s e with _ | d
  · exact Or.inl ⟨rfl, rfl⟩
  · rcases lt_or_ge 0 d with hpos | hneg
    · exact Or.inr (Or.inr ⟨d, hpos, rfl, by simp [hpos]⟩)
    · exact Or.inr (Or.inl ⟨d, rfl, by simp [hneg]⟩)

/-- The counts of a run that begins with an event at which no time has passed. -/
theorem counts_cons_of_none {s : σ} {e : ε} (h : M.passed s e = none) (es : List ε) :
    M.counts s (e :: es) = M.counts (step s e) es := by
  rw [counts, trace, h]
  rfl

/-- The counts of a run that begins with a sample at which time has passed. -/
theorem counts_cons_of_some {s : σ} {e : ε} {d : 𝕜} (h : M.passed s e = some d) (es : List ε) :
    M.counts s (e :: es) = M.count s :: M.counts (step s e) es := by
  rw [counts, trace, h]
  rfl

/-- The accounts of a run that begins with an event at which no time has passed. -/
theorem accounts_cons_of_none {s : σ} {e : ε} (h : M.passed s e = none) (es : List ε) :
    M.accounts s (e :: es) = M.accounts (step s e) es := by
  rw [accounts, trace, h]
  rfl

/-- The accounts of a run that begins with a sample at which time has passed: what was counted since
the sample before it comes first. -/
theorem accounts_cons_of_some {s : σ} {e : ε} {d : 𝕜} (hpos : 0 < d) (h : M.passed s e = some d)
    (es : List ε) :
    M.accounts s (e :: es) = (M.count s - M.base s) :: M.accounts (step s e) es := by
  have haccount : M.instantRate s d * d = M.count s - M.base s :=
    div_mul_cancel₀ _ hpos.ne'
  rw [accounts, trace, h, ← haccount]
  rfl

/-- A run whose samples all see no time pass accounts for nothing, and loses nothing. -/
theorem accounts_of_counts_eq_nil {s : σ} {es : List ε} (h : M.counts s es = []) :
    M.accounts s es = [] ∧ M.lost s es = 0 := by
  induction es generalizing s with
  | nil => exact ⟨rfl, rfl⟩
  | cons e es ih =>
    have hnone : M.passed s e = none := by
      rcases hpassed : M.passed s e with _ | d
      · rfl
      · rw [M.counts_cons_of_some hpassed] at h
        cases h
    rw [M.counts_cons_of_none hnone] at h
    obtain ⟨haccounts, hlost⟩ := ih h
    refine ⟨(M.accounts_cons_of_none hnone es).trans haccounts, ?_⟩
    rw [lost, hlost, if_neg fun hlater => hlater.2.2 h, add_zero]

/-- What was counted up to the last sample at which time has passed is in the rates, or lost. -/
theorem sum_accounts {s : σ} {es : List ε} {c : 𝕜} (h : (M.counts s es).getLast? = some c) :
    c - M.base s = (M.accounts s es).sum + M.lost s es := by
  induction es generalizing s with
  | nil => cases h
  | cons e es ih =>
    rw [lost]
    rcases M.cases_elapsed s e with
      ⟨hother, hnone⟩ | ⟨d, hsample, hnone⟩ | ⟨d, hpos, hsample, hsome⟩
    · -- No sample: the base stands.
      rw [M.counts_cons_of_none hnone] at h
      have hrest := ih h
      rw [M.base_of_other hother] at hrest
      rw [M.accounts_cons_of_none hnone, if_neg (by simp [hother]), hrest, zero_add]
    · -- No time has passed: what is new is lost, for a later sample at which time has passed.
      rw [M.counts_cons_of_none hnone] at h
      have hlater : M.counts (step s e) es ≠ [] := by
        intro hnil
        rw [hnil] at h
        cases h
      have hrest := ih h
      rw [M.base_of_sample hsample] at hrest
      rw [M.accounts_cons_of_none hnone, if_pos ⟨by rw [hsample]; rfl, hnone, hlater⟩,
        ← add_assoc, add_right_comm, ← hrest, sub_add_sub_cancel]
    · -- Time has passed: what is new is the first account.
      rw [M.accounts_cons_of_some hpos hsome, List.sum_cons, if_neg (by simp [hsome]), zero_add,
        add_assoc]
      rw [M.counts_cons_of_some hsome] at h
      rcases hcounts : M.counts (step s e) es with _ | ⟨c', cs⟩
      · -- It is the last such sample.
        obtain ⟨haccounts, hlost⟩ := M.accounts_of_counts_eq_nil hcounts
        rw [hcounts] at h
        obtain rfl : M.count s = c := by simpa using h
        rw [haccounts, hlost, List.sum_nil, add_zero, add_zero]
      · rw [hcounts, List.getLast?_cons_cons, ← hcounts] at h
        rw [← ih h, M.base_of_sample hsample, sub_add_sub_cancel']

/-- The base never exceeds the count. -/
theorem base_le_count_step {s : σ} (h : M.base s ≤ M.count s) (e : ε) :
    M.base (step s e) ≤ M.count (step s e) := by
  rcases helapsed : M.elapsed s e with _ | d
  · rw [M.base_of_other helapsed]
    exact h.trans (M.le_count_of_other helapsed)
  · rw [M.base_of_sample helapsed, M.count_of_sample helapsed]

section Order

variable [IsStrictOrderedRing 𝕜]

/-- The rate of a sample at which time has passed is not negative. -/
theorem instantRate_nonneg {s : σ} (h : M.base s ≤ M.count s) {d : 𝕜} (hpos : 0 < d) :
    0 ≤ M.instantRate s d :=
  div_nonneg (sub_nonneg.mpr h) hpos.le

/-- No rate of a run is negative. -/
theorem rates_nonneg {s : σ} (h : M.base s ≤ M.count s) (es : List ε) :
    ∀ r ∈ M.rates s es, 0 ≤ r := by
  induction es generalizing s with
  | nil => exact fun r hr => absurd hr List.not_mem_nil
  | cons e es ih =>
    intro r hr
    rcases List.mem_append.mp hr with hr | hr
    · obtain ⟨d, hd, rfl⟩ := Option.map_eq_some_iff.mp (Option.mem_toList.mp hr)
      have hpos : 0 < d := by simpa using (Option.filter_eq_some_iff.mp hd).2
      exact M.instantRate_nonneg h hpos
    · exact ih (M.base_le_count_step h e) r hr

/-- What a run loses is not negative. -/
theorem lost_nonneg {s : σ} (h : M.base s ≤ M.count s) (es : List ε) : 0 ≤ M.lost s es := by
  induction es generalizing s with
  | nil => exact le_rfl
  | cons e es ih =>
    rw [lost]
    refine add_nonneg ?_ (ih (M.base_le_count_step h e))
    split_ifs
    · exact sub_nonneg.mpr h
    · exact le_rfl

/-- A run loses nothing exactly when its samples at which no time has passed do not. -/
theorem lost_eq_zero_iff {s : σ} (h : M.base s ≤ M.count s) (es : List ε) :
    M.lost s es = 0 ↔ M.LosesNothing s es := by
  unfold LosesNothing
  induction es generalizing s with
  | nil =>
    refine iff_of_true rfl ?_
    intro pre e post hes
    simp at hes
  | cons e es ih =>
    have hstep := M.base_le_count_step h e
    have hfirst : 0 ≤ if (M.elapsed s e).isSome ∧ M.passed s e = none ∧
        M.counts (step s e) es ≠ [] then M.count s - M.base s else 0 := by
      split_ifs
      · exact sub_nonneg.mpr h
      · exact le_rfl
    rw [lost, add_eq_zero_iff_of_nonneg hfirst (M.lost_nonneg hstep es), ih hstep]
    -- All terms of the sum are at least zero, so each of them is zero when the sum is.
    constructor
    · rintro ⟨hzero, hrest⟩ (_ | ⟨e', pre⟩) f post hes hsample hnone hlater
      · obtain ⟨rfl, rfl⟩ := List.cons.inj hes
        rw [if_pos ⟨hsample, hnone, hlater⟩] at hzero
        exact sub_eq_zero.mp hzero
      · obtain ⟨rfl, rfl⟩ := List.cons.inj hes
        exact hrest pre f post rfl hsample hnone hlater
    · intro hall
      refine ⟨?_, fun pre f post hes => hall (e :: pre) f post (congrArg _ hes)⟩
      split_ifs with hcond
      · exact sub_eq_zero.mpr (hall [] e es rfl hcond.1 hcond.2.1 hcond.2.2)
      · rfl

/-- What is counted is in the rates exactly when nothing is lost at a sample at which no time has
passed. -/
theorem conserved_iff {s : σ} (h : M.base s ≤ M.count s) (es : List ε) :
    M.Conserved s es ↔ M.LosesNothing s es := by
  rw [← M.lost_eq_zero_iff h]
  constructor
  · intro hall
    rcases hlast : (M.counts s es).getLast? with _ | c
    -- Without a sample at which time has passed, nothing counts as lost.
    · exact (M.accounts_of_counts_eq_nil (List.getLast?_eq_none_iff.mp hlast)).2
    · have hsum := M.sum_accounts hlast
      rw [hall c hlast] at hsum
      exact left_eq_add.mp hsum
  · intro hzero c hlast
    rw [M.sum_accounts hlast, hzero, add_zero]

end Order

end Metered

/-! ## The mean of the rates -/

/-- A mean with one more value: the value itself, if it is the first one. -/
def blend (alpha : 𝕜) : Option 𝕜 → 𝕜 → 𝕜
  | none, r => r
  | some mean, r => alpha * r + (1 - alpha) * mean

/-- A value that is at least one of the values `l`, and at most one of them. -/
def Between (l : List 𝕜) (r : 𝕜) : Prop := (∃ lo ∈ l, lo ≤ r) ∧ ∃ hi ∈ l, r ≤ hi

/-- A metered system that keeps a mean of its rates. -/
structure Smoothed (step : σ → ε → σ) (𝕜 : Type*) [Field 𝕜] [LinearOrder 𝕜]
    extends Metered step 𝕜 where
  /-- The mean, if there was a rate. -/
  mean : σ → Option 𝕜
  /-- The weight of a rate, by its time. -/
  weight : σ → 𝕜 → 𝕜
  weight_nonneg : ∀ s {d}, 0 < d → 0 ≤ weight s d
  weight_le_one : ∀ s d, weight s d ≤ 1
  mean_of_passed : ∀ {s e d}, toMetered.passed s e = some d →
    mean (step s e) = some (blend (weight s d) (mean s) (toMetered.instantRate s d))
  mean_of_not : ∀ {s e}, toMetered.passed s e = none → mean (step s e) = mean s

section Mean

variable [IsStrictOrderedRing 𝕜]

/-- A mean of a value between some values, or of none, and one more value lies between them all. -/
theorem between_blend {alpha : 𝕜} (hnonneg : 0 ≤ alpha) (hle : alpha ≤ 1) {l : List 𝕜}
    {mean : Option 𝕜} (hmean : ∀ m ∈ mean, Between l m) (r : 𝕜) :
    Between (l ++ [r]) (blend alpha mean r) := by
  have hr : r ∈ l ++ [r] := List.mem_append_right _ List.mem_cons_self
  cases mean with
  | none => exact ⟨⟨r, hr, le_rfl⟩, ⟨r, hr, le_rfl⟩⟩
  | some m =>
    obtain ⟨⟨lo, hlo, hlom⟩, ⟨hi, hhi, hmhi⟩⟩ := hmean m rfl
    have hrest : 0 ≤ 1 - alpha := sub_nonneg.mpr hle
    have hconst : ∀ x : 𝕜, alpha * x + (1 - alpha) * x = x := by
      intro x
      rw [← add_mul, add_sub_cancel, one_mul]
    constructor
    · -- The smaller one of `lo` and `r` is a lower bound.
      refine ⟨min lo r, ?_, ?_⟩
      · rcases min_choice lo r with hmin | hmin
        · rw [hmin]
          exact List.mem_append_left _ hlo
        · rw [hmin]
          exact hr
      · calc min lo r
            = alpha * min lo r + (1 - alpha) * min lo r := (hconst _).symm
          _ ≤ alpha * r + (1 - alpha) * m :=
            add_le_add (mul_le_mul_of_nonneg_left (min_le_right lo r) hnonneg)
              (mul_le_mul_of_nonneg_left ((min_le_left lo r).trans hlom) hrest)
    · -- The larger one of `hi` and `r` is an upper bound.
      refine ⟨max hi r, ?_, ?_⟩
      · rcases max_choice hi r with hmax | hmax
        · rw [hmax]
          exact List.mem_append_left _ hhi
        · rw [hmax]
          exact hr
      · calc alpha * r + (1 - alpha) * m
            ≤ alpha * max hi r + (1 - alpha) * max hi r :=
              add_le_add (mul_le_mul_of_nonneg_left (le_max_right hi r) hnonneg)
                (mul_le_mul_of_nonneg_left (hmhi.trans (le_max_left hi r)) hrest)
          _ = max hi r := hconst _

namespace Smoothed

variable {step : σ → ε → σ} (M : Smoothed step 𝕜)

/-- After a run there is a mean exactly if there was a rate, and it lies between the rates. -/
theorem between_rates {s : σ} (h : M.mean s = none) (es : List ε) :
    (M.mean (run step s es) = none ↔ M.rates s es = []) ∧
      ∀ m ∈ M.mean (run step s es), Between (M.rates s es) m := by
  induction es using List.reverseRecOn with
  | nil => exact ⟨iff_of_true h rfl, fun m hm => by simp [run, h] at hm⟩
  | append_singleton es e ih =>
    have hrates : M.rates s (es ++ [e]) = M.rates s es ++
        ((M.passed (run step s es) e).map (M.instantRate (run step s es))).toList :=
      trace_concat step _ s es e
    rw [run_concat, hrates]
    rcases hpassed : M.passed (run step s es) e with _ | d
    · -- No rate, and the mean stands.
      rw [M.mean_of_not hpassed, Option.map_none, Option.toList_none, List.append_nil]
      exact ih
    · have hpos : 0 < d := by simpa using (Option.filter_eq_some_iff.mp hpassed).2
      rw [M.mean_of_passed hpassed, Option.map_some, Option.toList_some]
      refine ⟨iff_of_false (Option.some_ne_none _) (by simp), ?_⟩
      intro m hm
      obtain rfl := Option.mem_some_iff.mp hm
      exact between_blend (M.weight_nonneg _ hpos) (M.weight_le_one _ _) ih.2 _

end Smoothed

end Mean

end SimsysMetrics.Lib
