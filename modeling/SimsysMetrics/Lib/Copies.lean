import SimsysMetrics.Lib.Runs

/-!
# Copies of a module that share a state

A module that is loaded several times keeps its state behind one global reference: a copy that is
loaded takes the state that the reference leads to, and initialises one where there is none. The
copies then are one module: one state is initialised (`cells_run`), and each copy shows what a
single copy shows after all that happened to any of them (`shows_run`).
-/

namespace SimsysMetrics.Lib

/-- The states that were initialised, which of them the global reference leads to, and which of them
each copy took. -/
structure Copies (σ : Type*) where
  cells : List σ
  shared : Option ℕ
  copies : List ℕ
deriving DecidableEq

/-- A copy is loaded, or something happens to the copy at a position. -/
inductive CopyEvent (ε : Type*) where
  | load
  | act (k : ℕ) (e : ε)

namespace Copies

section Shared

variable {σ ε : Type*} (init : σ) (step : σ → ε → σ)

/-- Nothing is loaded. -/
def unloaded : Copies σ := ⟨[], none, []⟩

/-- One step. -/
def next (p : Copies σ) : CopyEvent ε → Copies σ
  | .load =>
    match p.shared with
    | some i => { p with copies := p.copies ++ [i] }
    | none => ⟨p.cells ++ [init], some p.cells.length, p.copies ++ [p.cells.length]⟩
  | .act k e =>
    match p.copies[k]? with
    | some i => { p with cells := p.cells.modify i (step · e) }
    | none => p

/-- What happens to a copy that is loaded. -/
def acts (p : Copies σ) : CopyEvent ε → List ε
  | .load => []
  | .act k e => if k < p.copies.length then [e] else []

/-- What a copy shows. -/
def shows (p : Copies σ) (k : ℕ) : Option σ := p.copies[k]?.bind (p.cells[·]?)

variable {init step}

/-- Either nothing is loaded, or there is one state, and all copies took it. -/
inductive One (init : σ) (step : σ → ε → σ) : Copies σ → List ε → Prop where
  | unloaded : One init step unloaded []
  | loaded {copies : List ℕ} {es : List ε} (hne : copies ≠ []) (h : ∀ i ∈ copies, i = 0) :
    One init step ⟨[run step init es], some 0, copies⟩ es

/-- Each step keeps the one state that all copies took, and does to it what happens to any of them.
-/
theorem one_next {p : Copies σ} {es : List ε} (h : One init step p es) (e : CopyEvent ε) :
    One init step (next init step p e) (es ++ acts p e) := by
  cases h with
  | unloaded =>
    cases e with
    | load =>
      show One init step ⟨[run step init []], some 0, [0]⟩ []
      exact .loaded (List.cons_ne_nil _ _) fun i hi => List.mem_singleton.mp hi
    | act k e => exact .unloaded
  | @loaded copies es hne h =>
    cases e with
    | load =>
      rw [acts, List.append_nil]
      refine .loaded (List.append_ne_nil_of_left_ne_nil hne _) fun i hi => ?_
      rcases List.mem_append.mp hi with hi | hi
      · exact h i hi
      · exact List.mem_singleton.mp hi
    | act k e =>
      rw [next, acts]
      cases hk : copies[k]? with
      | none =>
        rw [if_neg (Nat.not_lt.mpr (List.getElem?_eq_none_iff.mp hk)), List.append_nil]
        exact .loaded hne h
      | some i =>
        obtain ⟨hlt, -⟩ := List.getElem?_eq_some_iff.mp hk
        obtain rfl := h i (List.mem_of_getElem? hk)
        rw [if_pos hlt]
        show One init step ⟨[step (run step init es) e], some 0, copies⟩ (es ++ [e])
        rw [← run_concat step init es e]
        exact .loaded hne h

/-- Nothing is initialised before a copy is loaded. Then there is one state, to which the reference
leads: what one copy has after all that happened to any of them. -/
theorem cells_run (events : List (CopyEvent ε)) :
    let p := run (next init step) unloaded events
    (p.copies = [] → p.cells = [] ∧ p.shared = none) ∧
      (p.copies ≠ [] → p.cells = [run step init (trace (next init step) acts unloaded events)] ∧
        p.shared = some 0) := by
  have h := invariant_trace (I := One init step) (fun _ e _ h => one_next h e) .unloaded events
  intro p
  generalize trace (next init step) acts unloaded events = es at h ⊢
  change One init step p es at h
  clear_value p
  cases h with
  | unloaded => exact ⟨fun _ => ⟨rfl, rfl⟩, fun hne => absurd rfl hne⟩
  | loaded hne h => exact ⟨fun hnil => absurd hnil hne, fun _ => ⟨rfl, rfl⟩⟩

/-- Every copy that is loaded shows what one copy shows after all that happened to any of them. -/
theorem shows_run (events : List (CopyEvent ε)) {k : ℕ}
    (hk : k < (run (next init step) unloaded events).copies.length) :
    (run (next init step) unloaded events).shows k =
      some (run step init (trace (next init step) acts unloaded events)) := by
  have h := invariant_trace (I := One init step) (fun _ e _ h => one_next h e) .unloaded events
  generalize run (next init step) unloaded events = p at h hk ⊢
  generalize trace (next init step) acts unloaded events = es at h ⊢
  cases h with
  | unloaded => exact absurd hk (Nat.not_lt_zero k)
  | @loaded copies _ _ h =>
    have hzero : copies[k]? = some 0 := by
      rw [List.getElem?_eq_getElem hk]
      exact congrArg some (h _ (List.getElem_mem hk))
    rw [shows, hzero]
    rfl

end Shared

end Copies

end SimsysMetrics.Lib
