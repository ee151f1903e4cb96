import Mathlib.Data.List.Basic
import Mathlib.Data.List.Induction

/-!
# Runs of a deterministic system

A system takes one event after another: `step s e` is the state after the event `e` in the state
`s`, and `run` the state after a list of them. A property that a step preserves holds after every
run (`invariant_run`).

Some properties are preserved only by the events that meet a condition in the state where they
happen. `Along` says that every event of a run does; then the property holds after the run
(`invariant_along`). Two conditions that agree in every state of an invariant agree along every run
that one of them keeps in it (`along_iff`).

A run may emit something at each step; `trace` is all that it emits, in order.
-/

namespace SimsysMetrics.Lib

section Runs

variable {σ ε β : Type*} (step : σ → ε → σ)

/-- The state after a run. -/
def run (s : σ) (es : List ε) : σ := es.foldl step s

/-- What the events of a run emit, each in the state where it happens. -/
def trace (emit : σ → ε → List β) : σ → List ε → List β
  | _, [] => []
  | s, e :: es => emit s e ++ trace emit (step s e) es

/-- Every event of the run meets `ok` in the state where it happens. -/
def Along (ok : σ → ε → Prop) : σ → List ε → Prop
  | _, [] => True
  | s, e :: es => ok s e ∧ Along ok (step s e) es

/-- Whether a condition holds along a run. -/
def decAlong (ok : σ → ε → Prop) [∀ s e, Decidable (ok s e)] :
    ∀ s es, Decidable (Along step ok s es)
  | _, [] => .isTrue trivial
  | s, e :: es =>
    have := decAlong ok (step s e) es
    inferInstanceAs (Decidable (ok s e ∧ Along step ok (step s e) es))

instance {ok : σ → ε → Prop} [∀ s e, Decidable (ok s e)] (s : σ) (es : List ε) :
    Decidable (Along step ok s es) :=
  decAlong step ok s es

/-- A run of two parts. -/
theorem run_append (s : σ) (es fs : List ε) :
    run step s (es ++ fs) = run step (run step s es) fs := by
  exact List.foldl_append

/-- The last event of a run is the last step. -/
theorem run_concat (s : σ) (es : List ε) (e : ε) :
    run step s (es ++ [e]) = step (run step s es) e := by
  rw [run_append]
  rfl

/-- What a run of two parts emits. -/
theorem trace_append (emit : σ → ε → List β) (s : σ) (es fs : List ε) :
    trace step emit s (es ++ fs) =
      trace step emit s es ++ trace step emit (run step s es) fs := by
  induction es generalizing s with
  | nil => rfl
  | cons e es ih =>
    show emit s e ++ trace step emit (step s e) (es ++ fs) = _
    rw [ih, ← List.append_assoc]
    rfl

/-- The last event of a run emits last. -/
theorem trace_concat (emit : σ → ε → List β) (s : σ) (es : List ε) (e : ε) :
    trace step emit s (es ++ [e]) = trace step emit s es ++ emit (run step s es) e := by
  rw [trace_append]
  exact congrArg _ (List.append_nil _)

variable {step} {I : σ → Prop}

/-- A property that holds at the start and is preserved by every step holds after every run. -/
theorem invariant_run (hstep : ∀ s e, I s → I (step s e)) {s : σ} (hs : I s) (es : List ε) :
    I (run step s es) := by
  induction es generalizing s with
  | nil => exact hs
  | cons e es ih => exact ih (hstep s e hs)

/-- A property that holds at the start and is preserved by every event of a kind holds after every
run of such events. -/
theorem invariant_run_of_mem {ok : ε → Prop} (hstep : ∀ s e, I s → ok e → I (step s e)) {s : σ}
    (hs : I s) {es : List ε} (h : ∀ e ∈ es, ok e) : I (run step s es) := by
  induction es generalizing s with
  | nil => exact hs
  | cons e es ih =>
    obtain ⟨he, hes⟩ := List.forall_mem_cons.mp h
    exact ih (hstep s e hs he) hes

/-- A property that holds at the start and is preserved by every step under the condition holds
after every run whose steps meet it. -/
theorem invariant_along {ok : σ → ε → Prop} (hstep : ∀ s e, I s → ok s e → I (step s e)) {s : σ}
    (hs : I s) {es : List ε} (h : Along step ok s es) : I (run step s es) := by
  induction es generalizing s with
  | nil => exact hs
  | cons e es ih =>
    obtain ⟨hok, hrest⟩ := h
    exact ih (hstep s e hs hok) hrest

/-- A condition holds along a run of two parts exactly when it holds along both. -/
theorem along_append {ok : σ → ε → Prop} {s : σ} {es fs : List ε} :
    Along step ok s (es ++ fs) ↔ Along step ok s es ∧ Along step ok (run step s es) fs := by
  induction es generalizing s with
  | nil => exact (iff_of_eq (true_and _)).symm
  | cons e es ih =>
    show ok s e ∧ Along step ok (step s e) (es ++ fs) ↔ _
    rw [ih, ← and_assoc]
    rfl

/-- A property of the state and of what has been emitted, which every step preserves, holds after
every run. -/
theorem invariant_trace {emit : σ → ε → List β} {I : σ → List β → Prop}
    (hstep : ∀ s e emitted, I s emitted → I (step s e) (emitted ++ emit s e)) {s : σ}
    (hs : I s []) (es : List ε) : I (run step s es) (trace step emit s es) := by
  -- The last event is the last step, so the induction takes it off the end.
  induction es using List.reverseRecOn with
  | nil => exact hs
  | append_singleton es e ih =>
    rw [run_concat, trace_concat]
    exact hstep _ e _ ih

/-- A property of the state and of what has been emitted, which every step under the condition
preserves, holds after every run whose steps meet it. -/
theorem invariant_trace_along {emit : σ → ε → List β} {I : σ → List β → Prop} {ok : σ → ε → Prop}
    (hstep : ∀ s e emitted, I s emitted → ok s e → I (step s e) (emitted ++ emit s e)) {s : σ}
    {emitted : List β} (hs : I s emitted) {es : List ε} (h : Along step ok s es) :
    I (run step s es) (emitted ++ trace step emit s es) := by
  induction es generalizing s emitted with
  | nil =>
    rw [trace, List.append_nil]
    exact hs
  | cons e es ih =>
    obtain ⟨hok, hrest⟩ := h
    rw [trace, ← List.append_assoc]
    exact ih (hstep s e emitted hs hok) hrest

/-- A condition on the events alone holds along a run where each event meets it. -/
theorem along_of_mem {ok : ε → Prop} {s : σ} {es : List ε} (h : ∀ e ∈ es, ok e) :
    Along step (fun _ e => ok e) s es := by
  induction es generalizing s with
  | nil => trivial
  | cons e es ih =>
    obtain ⟨he, hes⟩ := List.forall_mem_cons.mp h
    exact ⟨he, ih hes⟩

/-- Two conditions that agree under an invariant, which the second preserves, agree along every
run. -/
theorem along_iff {p q : σ → ε → Prop} (hiff : ∀ s e, I s → (p s e ↔ q s e))
    (hstep : ∀ s e, I s → q s e → I (step s e)) {s : σ} (hs : I s) (es : List ε) :
    Along step p s es ↔ Along step q s es := by
  induction es generalizing s with
  | nil => exact Iff.rfl
  | cons e es ih =>
    refine and_congr_right_iff.mpr ?_ |>.trans (and_congr_left_iff.mpr fun _ => hiff s e hs)
    intro hp
    exact ih (hstep s e hs ((hiff s e hs).mp hp))

/-- A condition that one condition implies under an invariant, which another preserves, holds along
every run along which both hold. -/
theorem along_of_along {v q r : σ → ε → Prop} (hstep : ∀ s e, I s → v s e → I (step s e))
    (himp : ∀ s e, I s → q s e → r s e) {s : σ} (hs : I s) {es : List ε}
    (hv : Along step v s es) (hq : Along step q s es) : Along step r s es := by
  induction es generalizing s with
  | nil => trivial
  | cons e es ih =>
    obtain ⟨hve, hvs⟩ := hv
    obtain ⟨hqe, hqs⟩ := hq
    exact ⟨himp s e hs hqe, ih (hstep s e hs hve) hvs hqs⟩

/-- A condition holds along a run exactly when it holds of the last event of each of its
prefixes. -/
theorem along_iff_forall {p : σ → ε → Prop} {s : σ} {es : List ε} :
    Along step p s es ↔ ∀ pre e, pre ++ [e] <+: es → p (run step s pre) e := by
  induction es generalizing s with
  | nil =>
    refine iff_of_true trivial ?_
    intro pre e hpre
    simp at hpre
  | cons e es ih =>
    unfold Along
    rw [ih]
    constructor
    · rintro ⟨hp, hrest⟩ (_ | ⟨a, pre⟩) f hpre
      · obtain ⟨rfl, -⟩ := List.cons_prefix_cons.mp hpre
        exact hp
      · obtain ⟨rfl, htail⟩ := List.cons_prefix_cons.mp hpre
        exact hrest pre f htail
    · intro h
      refine ⟨h [] e (List.cons_prefix_cons.mpr ⟨rfl, List.nil_prefix⟩), ?_⟩
      intro pre f hpre
      exact h (e :: pre) f (List.cons_prefix_cons.mpr ⟨rfl, hpre⟩)

/-- A property of the start holds in every state of a run exactly when every event of the run leads
to a state where it holds. -/
theorem forall_prefix_iff_along {P : σ → Prop} {s : σ} (hs : P s) {es : List ε} :
    (∀ pre, pre <+: es → P (run step s pre)) ↔ Along step (fun s e => P (step s e)) s es := by
  rw [along_iff_forall]
  constructor
  · intro h pre e hpre
    have hrun := h (pre ++ [e]) hpre
    rw [run_concat] at hrun
    exact hrun
  · intro h pre hpre
    rcases pre.eq_nil_or_concat with rfl | ⟨pre, e, rfl⟩
    · exact hs
    · rw [List.concat_eq_append] at hpre ⊢
      rw [run_concat]
      exact h pre e hpre

end Runs

end SimsysMetrics.Lib
