import SimsysMetrics.Lib.Runs

/-!
# A body that runs once

Go's `sync.Once`, over any number of concurrent calls of `Do`. The first call to get in runs the
body, whose actions depend on the argument of that call; the others wait until the body is complete,
and return without running it. Getting in and the first action are one step here, since the calls
exclude each other.

Whatever the order of the steps, the actions are a prefix of the body of one call, and complete as
soon as any call has returned (`Inv`); every step keeps this (`Inv.step`).
-/

namespace SimsysMetrics.Lib

/-- Where a call of `Do` is. -/
inductive DoPc where
  | arrived
  | inside
  | returned
deriving DecidableEq, Repr

/-- A call of `Do`. -/
structure DoCall (α : Type*) where
  arg : α
  pc : DoPc
deriving DecidableEq, Repr

/-- A `sync.Once` with the calls of its `Do`. -/
structure Once (α β : Type*) where
  /-- The argument of the call that runs the body, or ran it. -/
  ran : Option α
  /-- The actions of the body that are left. -/
  left : List β
  calls : List (DoCall α)
deriving DecidableEq

/-- A call arrives, or one of the calls goes on. -/
inductive OnceEvent (α : Type*) where
  | call (arg : α)
  | go (i : ℕ)
deriving DecidableEq, Repr

namespace Once

variable {α β : Type*} (body : α → List β)

/-- A `sync.Once` that nobody used. -/
def fresh : Once α β := ⟨none, [], []⟩

/-- A call does the first of some actions, if there is one. -/
def act (o : Once α β) (i : ℕ) (call : DoCall α) (ran : α) (actions : List β) : Once α β :=
  let pc := if actions.tail = [] then DoPc.returned else .inside
  ⟨some ran, actions.tail, o.calls.set i { call with pc }⟩

/-- One step. A call that waits for the body to be complete changes nothing. -/
def step (o : Once α β) : OnceEvent α → Once α β
  | .call arg => { o with calls := o.calls ++ [⟨arg, .arrived⟩] }
  | .go i =>
    match o.calls[i]? with
    | some call =>
      match call.pc, o.ran with
      | .arrived, none => o.act i call call.arg (body call.arg)
      | .arrived, some _ =>
        if o.left = [] then { o with calls := o.calls.set i { call with pc := .returned } } else o
      | .inside, some ran => o.act i call ran o.left
      | .inside, none | .returned, _ => o
    | none => o

/-- What a step does. -/
def emit (o : Once α β) : OnceEvent α → List β
  | .call _ => []
  | .go i =>
    match o.calls[i]? with
    | some call =>
      match call.pc, o.ran with
      | .arrived, none => (body call.arg).head?.toList
      | .inside, some _ => o.left.head?.toList
      | .arrived, some _ | .inside, none | .returned, _ => []
    | none => []

/-- The actions of the body that are done. -/
def done (o : Once α β) : List β :=
  match o.ran with
  | some ran => (body ran).take ((body ran).length - o.left.length)
  | none => []

/-- What the calls and the actions done so far have to do with each other. -/
structure Inv (o : Once α β) (log : List β) : Prop where
  /-- As long as nobody got in, nothing is done, and nothing left to do. -/
  unused : o.ran = none → log = [] ∧ o.left = [] ∧ ∀ call ∈ o.calls, call.pc = .arrived
  /-- What is done and what is left is the body. -/
  body : ∀ ran, o.ran = some ran → log ++ o.left = body ran ∧ ∃ call ∈ o.calls, call.arg = ran
  /-- A call returns when nothing is left. -/
  complete : ∀ call ∈ o.calls, call.pc = .returned → o.left = []
  /-- As long as something is left, a call is inside. -/
  busy : o.left ≠ [] → ∃ call ∈ o.calls, call.pc = .inside

variable {body} {o : Once α β} {log : List β}

/-- A `sync.Once` that nobody used did nothing. -/
theorem inv_fresh : Inv body fresh [] where
  unused _ := ⟨rfl, rfl, fun _ h => by cases h⟩
  body _ h := by cases h
  complete _ h := by cases h
  busy h := absurd rfl h

/-- The calls after one of them went on. -/
theorem mem_set {i : ℕ} {call : DoCall α} (hcall : o.calls[i]? = some call) (pc : DoPc) :
    { call with pc } ∈ o.calls.set i { call with pc } := by
  obtain ⟨hi, -⟩ := List.getElem?_eq_some_iff.mp hcall
  exact List.mem_set hi _

/-- The arguments of the calls stay. -/
theorem exists_arg_set {i : ℕ} {call : DoCall α} (hcall : o.calls[i]? = some call) (pc : DoPc)
    {arg : α} (h : ∃ c ∈ o.calls, c.arg = arg) :
    ∃ c ∈ o.calls.set i { call with pc }, c.arg = arg := by
  obtain ⟨c, hc, rfl⟩ := h
  obtain ⟨j, hj⟩ := List.mem_iff_getElem?.mp hc
  by_cases hij : i = j
  · subst hij
    obtain rfl : call = c := Option.some.inj (hcall.symm.trans hj)
    exact ⟨_, mem_set hcall pc, rfl⟩
  · refine ⟨c, List.mem_iff_getElem?.mpr ⟨j, ?_⟩, rfl⟩
    rw [List.getElem?_set_ne hij, hj]

/-- The first of the actions that are left, or of a body that begins, is done. -/
theorem inv_act {i : ℕ} {call : DoCall α} (hcall : o.calls[i]? = some call)
    {ran : α} {actions : List β} (hactions : log ++ actions = body ran)
    (harg : ∃ c ∈ o.calls, c.arg = ran)
    (hreturned : actions ≠ [] → ∀ c ∈ o.calls, c.pc ≠ .returned) :
    Inv body (o.act i call ran actions) (log ++ actions.head?.toList) where
  unused h := by cases h
  body := by
    rintro _ ⟨⟩
    refine ⟨?_, exists_arg_set hcall _ harg⟩
    show log ++ actions.head?.toList ++ actions.tail = _
    rw [← hactions, List.append_assoc]
    cases actions <;> rfl
  complete := by
    intro c hc hpc
    by_contra hrest
    change actions.tail ≠ [] at hrest
    rcases List.mem_or_eq_of_mem_set hc with hmem | rfl
    · refine hreturned ?_ c hmem hpc
      rintro rfl
      exact hrest rfl
    · cases (if_neg hrest).symm.trans hpc
  busy := by
    intro hrest
    exact ⟨_, mem_set hcall _, if_neg hrest⟩

/-- Every step keeps the calls and the actions in line. -/
theorem Inv.step (h : Inv body o log) (event : OnceEvent α) :
    Inv body (o.step body event) (log ++ o.emit body event) := by
  cases event with
  | call arg =>
    rw [emit, List.append_nil]
    refine ⟨?_, ?_, ?_, ?_⟩
    · intro hran
      obtain ⟨hlog, hleft, harrived⟩ := h.unused hran
      refine ⟨hlog, hleft, ?_⟩
      intro call hcall
      rcases List.mem_append.mp hcall with hcall | hcall
      · exact harrived call hcall
      · rw [List.mem_singleton.mp hcall]
    · intro ran hran
      obtain ⟨hbody, call, hcall, harg⟩ := h.body ran hran
      exact ⟨hbody, call, List.mem_append_left _ hcall, harg⟩
    · intro call hcall hpc
      rcases List.mem_append.mp hcall with hcall | hcall
      · exact h.complete call hcall hpc
      · rw [List.mem_singleton.mp hcall] at hpc
        cases hpc
    · intro hleft
      obtain ⟨call, hcall, hpc⟩ := h.busy hleft
      exact ⟨call, List.mem_append_left _ hcall, hpc⟩
  | go i =>
    rw [Once.step, emit]
    cases hcall : o.calls[i]? with
    | none => simpa using h
    | some call =>
      have hmem := List.mem_of_getElem? hcall
      obtain ⟨arg, pc⟩ := call
      cases hran : o.ran with
      | none =>
        obtain ⟨rfl, -, harrived⟩ := h.unused hran
        obtain rfl : pc = .arrived := harrived _ hmem
        -- The call gets in.
        refine inv_act hcall rfl ⟨_, hmem, rfl⟩ ?_
        intro _ c hc hreturned
        cases (harrived c hc).symm.trans hreturned
      | some ran =>
        obtain ⟨hbody, harg⟩ := h.body ran hran
        cases pc with
        | returned => simpa using h
        | inside =>
          refine inv_act hcall hbody harg ?_
          intro hleft c hc hreturned
          exact hleft (h.complete c hc hreturned)
        | arrived =>
          dsimp only
          rw [List.append_nil]
          split_ifs with hleft
          · -- The body is complete, and the call returns.
            refine ⟨?_, ?_, fun _ _ _ => hleft, fun hne => absurd hleft hne⟩
            · intro hnone
              cases hnone
            · rintro _ ⟨⟩
              exact ⟨hbody, exists_arg_set hcall _ harg⟩
          · exact h

/-- What was done is the part of the body that is not left. -/
theorem Inv.done_eq (h : Inv body o log) : o.done body = log := by
  unfold done
  cases hran : o.ran with
  | none => exact (h.unused hran).1.symm
  | some ran =>
    obtain ⟨hbody, -⟩ := h.body ran hran
    dsimp only
    rw [← hbody, List.length_append, Nat.add_sub_cancel, List.take_left]

end Once

end SimsysMetrics.Lib
