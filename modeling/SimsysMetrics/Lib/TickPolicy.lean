import Mathlib.Data.List.Basic
import Mathlib.Data.List.Induction
import SimsysMetrics.Lib.Samples

/-!
# A display fed by ticks that may fail

A poller reads some sources at every tick and shows what it read. The policy for a tick that fails
is: keep what is shown, count the failure, and log the first one. `Display` is the abstract poller
under this policy, over an arbitrary reading `α` and failure `ε`, and `foldl_tick` says what any
sequence of ticks leaves on it: the reading of the last tick that succeeded, the number of failed
ticks, and the first failure.

A tick that reads several sources succeeds as a whole or not at all: `readAll` reads the sources in
order and stops at the first failure.
-/

namespace SimsysMetrics.Lib

/-- What a poller shows, how many ticks failed, and the failures that it logged. -/
structure Display (ε α : Type*) where
  /-- The reading on display; none before the first success. -/
  shown : Option α
  /-- The number of failed ticks. -/
  failures : ℕ
  /-- The logged failures, in order. -/
  logged : List ε

namespace Display

variable {ε α : Type*}

/-- The display before any tick. -/
def blank : Display ε α := ⟨none, 0, []⟩

/-- One tick under the policy. -/
def tick (d : Display ε α) : Except ε α → Display ε α
  | .ok a => { d with shown := some a }
  | .error e =>
    { d with
      failures := d.failures + 1
      logged := if d.failures = 0 then d.logged ++ [e] else d.logged }

/-- The readings of the ticks that succeeded. -/
def successes (ts : List (Except ε α)) : List α := ts.filterMap Except.toOption

/-- The failures of the ticks that failed. -/
def failuresOf (ts : List (Except ε α)) : List ε :=
  ts.filterMap fun t => match t with
    | .ok _ => none
    | .error e => some e

@[simp]
theorem successes_concat_ok (ts : List (Except ε α)) (a : α) :
    successes (ts ++ [.ok a]) = successes ts ++ [a] := by
  simp [successes, Except.toOption]

@[simp]
theorem successes_concat_error (ts : List (Except ε α)) (e : ε) :
    successes (ts ++ [.error e]) = successes ts := by
  simp [successes, Except.toOption]

@[simp]
theorem failuresOf_concat_ok (ts : List (Except ε α)) (a : α) :
    failuresOf (ts ++ [.ok a]) = failuresOf ts := by
  simp [failuresOf]

@[simp]
theorem failuresOf_concat_error (ts : List (Except ε α)) (e : ε) :
    failuresOf (ts ++ [.error e]) = failuresOf ts ++ [e] := by
  simp [failuresOf]

/-- The first element of a list extended by one. -/
theorem head?_toList_concat (l : List ε) (e : ε) :
    (l ++ [e]).head?.toList =
      if l.length = 0 then l.head?.toList ++ [e] else l.head?.toList := by
  cases l <;> simp

/-- What a sequence of ticks leaves: the last reading, the number of failures, the first one. -/
theorem foldl_tick (ts : List (Except ε α)) :
    ts.foldl tick blank =
      ⟨(successes ts).getLast?, (failuresOf ts).length, (failuresOf ts).head?.toList⟩ := by
  -- The last tick is the last step, so the induction takes it off the end.
  induction ts using List.reverseRecOn with
  | nil => rfl
  | append_singleton ts t ih =>
    rw [List.foldl_concat, ih]
    cases t with
    | ok a => simp [tick]
    | error e =>
      simp only [tick, successes_concat_error, failuresOf_concat_error, head?_toList_concat,
        List.length_append, List.length_singleton]

end Display

section ReadAll

variable {ε γ ν : Type*}

/-- One reading of every source, in order; the first failure ends it. -/
def readAll (sources : List γ) (read : γ → Except ε ν) : Except ε (List (γ × ν)) :=
  sources.mapM fun g => (read g).map fun v => (g, v)

@[simp]
theorem readAll_nil (read : γ → Except ε ν) : readAll [] read = .ok [] := rfl

/-- Reading one more source in front. -/
theorem readAll_cons (g : γ) (sources : List γ) (read : γ → Except ε ν) :
    readAll (g :: sources) read =
      match read g with
      | .error e => .error e
      | .ok v => (readAll sources read).map fun l => (g, v) :: l := by
  rw [readAll, List.mapM_cons]
  cases read g with
  | error e => rfl
  | ok v =>
    change Except.bind (readAll sources read) _ = _
    cases readAll sources read <;> rfl

/-- Reading sources whose values are known in front. -/
theorem readAll_append {read : γ → Except ε ν} {known : List (γ × ν)} {left : List γ}
    (h : ∀ w ∈ known, read w.1 = .ok w.2) :
    readAll (known.map Prod.fst ++ left) read = (readAll left read).map (known ++ ·) := by
  induction known with
  | nil => exact (congrFun Except.map_id _).symm
  | cons w known ih =>
    rw [List.map_cons, List.cons_append, readAll_cons, h w List.mem_cons_self,
      ih fun w' hw' => h w' (List.mem_cons_of_mem _ hw')]
    cases readAll left read <;> rfl

/-- A reading that succeeds has the value of every source. -/
theorem lookup_of_readAll [DecidableEq γ] {sources : List γ} {read : γ → Except ε ν}
    {l : List (γ × ν)} (h : readAll sources read = .ok l) {g : γ} (hg : g ∈ sources) :
    ∃ v, read g = .ok v ∧ l.lookup g = some v := by
  induction sources generalizing l with
  | nil => cases hg
  | cons g' sources ih =>
    rw [readAll_cons] at h
    cases hr : read g' with
    | error e => simp [hr] at h
    | ok v =>
      cases hl : readAll sources read with
      | error e => simp [hr, hl, Except.map] at h
      | ok l' =>
        simp only [hr, hl, Except.map, Except.ok.injEq] at h
        subst h
        by_cases heq : g = g'
        · subst heq
          exact ⟨v, hr, by simp⟩
        · obtain ⟨v', hv', hl'⟩ := ih hl ((List.mem_cons.mp hg).resolve_left heq)
          exact ⟨v', hv', by simp [List.lookup_cons, beq_eq_false_iff_ne.mpr heq, hl']⟩

/-- The sources of a successful reading, in order. -/
theorem map_fst_of_readAll {sources : List γ} {read : γ → Except ε ν} {l : List (γ × ν)}
    (h : readAll sources read = .ok l) : l.map Prod.fst = sources := by
  induction sources generalizing l with
  | nil =>
    rw [readAll_nil, Except.ok.injEq] at h
    rw [← h, List.map_nil]
  | cons g' sources ih =>
    rw [readAll_cons] at h
    cases hr : read g' with
    | error e => simp [hr] at h
    | ok v =>
      cases hl : readAll sources read with
      | error e => simp [hr, hl, Except.map] at h
      | ok l' =>
        simp only [hr, hl, Except.map, Except.ok.injEq] at h
        rw [← h, List.map_cons, ih hl]

end ReadAll

/-- The writes of a reading, in order, to a store whose keys are made from the sources. -/
def writeAll {γ κ ν : Type*} [DecidableEq κ] (key : γ → κ) (l : List (γ × ν)) (s : Store κ ν) :
    Store κ ν :=
  l.foldl (fun s w => s.set (key w.1) w.2) s

/-- Writing changes no key outside the reading. -/
theorem writeAll_of_notMem {γ κ ν : Type*} [DecidableEq κ] {key : γ → κ} {k : κ}
    {l : List (γ × ν)} (h : ∀ w ∈ l, key w.1 ≠ k) (s : Store κ ν) : writeAll key l s k = s k := by
  induction l generalizing s with
  | nil => rfl
  | cons w l ih =>
    have htail := ih (fun w' hw' => h w' (List.mem_cons_of_mem _ hw')) (s.set (key w.1) w.2)
    have hw : k ≠ key w.1 := (h w List.mem_cons_self).symm
    rw [writeAll, List.foldl_cons]
    exact htail.trans (Store.set_of_ne s w.2 hw)

/-- Writing a reading of distinct sources leaves each source's value at its key. -/
theorem writeAll_of_lookup {γ κ ν : Type*} [DecidableEq γ] [DecidableEq κ] {key : γ → κ}
    (hkey : Function.Injective key) {l : List (γ × ν)} (hnodup : (l.map Prod.fst).Nodup) {g : γ}
    {v : ν} (h : l.lookup g = some v) (s : Store κ ν) : writeAll key l s (key g) = some v := by
  induction l generalizing s with
  | nil => cases h
  | cons w l ih =>
    obtain ⟨g', v'⟩ := w
    rw [List.map_cons, List.nodup_cons] at hnodup
    rw [writeAll, List.foldl_cons]
    by_cases heq : g = g'
    · -- The value is written now, and no later write has the same key.
      subst heq
      have hv : v' = v := by simpa using h
      have hlater : ∀ w' ∈ l, key w'.1 ≠ key g := by
        intro w' hw' hk
        have hmem : w'.1 ∈ l.map Prod.fst := List.mem_map_of_mem hw'
        rw [hkey hk] at hmem
        exact hnodup.1 hmem
      have hrest := writeAll_of_notMem hlater (s.set (key g) v')
      exact hrest.trans (by rw [Store.set_self, hv])
    · have hlookup : l.lookup g = some v := by
        simpa [List.lookup_cons, beq_eq_false_iff_ne.mpr heq] using h
      exact ih hnodup.2 hlookup _

end SimsysMetrics.Lib
