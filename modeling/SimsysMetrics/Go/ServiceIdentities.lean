import SimsysMetrics.Go.Install
import SimsysMetrics.Lib.Reporter

/-!
# The service identities of all registries

`recordServiceIdentity` of `go/service_identity.go` for all registries of a process. Its two maps
are read and written under one mutex, so calls of it from any goroutines come one after another. For
each registry the maps and the log are what `Go.recordServiceIdentity` makes of the calls with that
registry (`identities_separate`).
-/

namespace SimsysMetrics.Go.ServiceIdentities

open Lib (Reporter run trace)

/-- A call of `recordServiceIdentity`; registries are told apart by their pointers, and there is
none for `nil`. -/
structure Call where
  registry : Option ℕ
  service : String
deriving DecidableEq, Repr

/-- What is logged. -/
structure Conflict where
  registry : ℕ
  prior : String
  service : String
deriving DecidableEq, Repr

/-- The key of `registryServiceWarned`. -/
def Conflict.key (c : Conflict) : ℕ × String := (c.registry, c.service)

/-- `registryService`, and `registryServiceWarned` with the log. -/
structure State where
  registryService : ℕ → Option String
  warned : Reporter (ℕ × String) Conflict

/-- `recordServiceIdentity`: the service that it returns, and the state after that. -/
def recordServiceIdentity (s : State) (c : Call) : String × State :=
  match c.registry with
  | none => (c.service, s)
  | some reg =>
    match s.registryService reg with
    | none =>
      (c.service,
        { s with registryService := Function.update s.registryService reg (some c.service) })
    | some prior =>
      if prior = c.service then (prior, s)
      else (prior, { s with warned := s.warned.report Conflict.key ⟨reg, prior, c.service⟩ })

/-- The state after a call. -/
def step (s : State) (c : Call) : State := (recordServiceIdentity s c).2

/-- The conflict that a call is. -/
def conflicts (s : State) (c : Call) : List Conflict :=
  match c.registry with
  | none => []
  | some reg =>
    match s.registryService reg with
    | none => []
    | some prior => if prior = c.service then [] else [⟨reg, prior, c.service⟩]

/-- Nothing was installed. -/
def initial : State := ⟨fun _ => none, .empty⟩

/-- The first service that some calls name for a registry. -/
def firstService (reg : ℕ) (calls : List Call) : Option String :=
  (calls.find? (·.registry = some reg)).map Call.service

/-- What the maps and the log have of one registry. -/
def State.identity (reg : ℕ) (s : State) : ServiceIdentity :=
  let conflicts := s.warned.reports.filter (·.registry = reg)
  ⟨s.registryService reg, (conflicts.map Conflict.service).toFinset,
    conflicts.map fun c => .identityChange c.prior c.service⟩

/-- The services that some calls name for a registry. -/
def services (reg : ℕ) (calls : List Call) : List String :=
  (calls.filter (·.registry = some reg)).map Call.service

/-! ## Steps -/

/-- A registry keeps its first service. -/
theorem registryService_step (s : State) (c : Call) (reg : ℕ) :
    (step s c).registryService reg =
      if c.registry = some reg then (s.registryService reg).or (some c.service)
      else s.registryService reg := by
  rw [step, recordServiceIdentity]
  cases hreg : c.registry with
  | none => exact (if_neg nofun).symm
  | some reg' =>
    dsimp only
    by_cases heq : reg' = reg
    · subst heq
      rw [if_pos rfl]
      cases hprior : s.registryService reg' with
      | none => exact Function.update_self reg' (some c.service) s.registryService
      | some prior =>
        dsimp only
        split_ifs <;> exact hprior
    · rw [if_neg fun h => heq (Option.some.inj h)]
      cases s.registryService reg' with
      | none => exact Function.update_of_ne (Ne.symm heq) _ _
      | some prior =>
        dsimp only
        split_ifs <;> rfl

/-- The conflict of a call is reported. -/
theorem warned_step (s : State) (c : Call) :
    (step s c).warned = (conflicts s c).foldl (Reporter.report Conflict.key) s.warned := by
  rw [step, recordServiceIdentity, conflicts]
  cases c.registry with
  | none => rfl
  | some reg =>
    dsimp only
    cases s.registryService reg with
    | none => rfl
    | some prior =>
      dsimp only
      split_ifs <;> rfl

/-- One more conflict of a registry. -/
theorem identity_report {s : State} (hseen : s.warned.seen = s.warned.reports.map Conflict.key)
    (x : Conflict) (reg : ℕ) :
    ({ s with warned := s.warned.report Conflict.key x } : State).identity reg =
      if x.registry = reg ∧ x.service ∉ (s.identity reg).warned then
        { s.identity reg with
          warned := insert x.service (s.identity reg).warned
          log := (s.identity reg).log ++ [.identityChange x.prior x.service] }
      else s.identity reg := by
  have hmem : Conflict.key x ∈ s.warned.seen ↔ x.service ∈ (s.identity x.registry).warned := by
    rw [hseen, State.identity]
    simp [Conflict.key, and_assoc, and_left_comm]
  rw [Reporter.report]
  by_cases hreg : x.registry = reg
  · subst hreg
    by_cases hwarned : x.service ∈ (s.identity x.registry).warned
    · rw [if_pos (hmem.mpr hwarned), if_neg fun h => h.2 hwarned]
    · rw [if_neg (mt hmem.mp hwarned), if_pos ⟨rfl, hwarned⟩]
      simp [State.identity, List.filter_append, List.toFinset_append]
  · have hother : ¬ (x.registry = reg ∧ x.service ∉ (s.identity reg).warned) := fun h => hreg h.1
    rw [if_neg hother]
    split_ifs
    · rfl
    · simp [State.identity, List.filter_append, hreg]

/-- For a registry, the maps and the log change as they do where there is no other one. -/
theorem identity_step {s : State} (hseen : s.warned.seen = s.warned.reports.map Conflict.key)
    (c : Call) (reg : ℕ) :
    (step s c).identity reg =
      if c.registry = some reg then (Go.recordServiceIdentity c.service (s.identity reg)).2
      else s.identity reg := by
  have hservice : (s.identity reg).service = s.registryService reg := rfl
  rw [step, recordServiceIdentity]
  cases hreg : c.registry with
  | none => exact (if_neg nofun).symm
  | some reg' =>
    dsimp only
    by_cases heq : reg' = reg
    · subst heq
      rw [if_pos rfl, Go.recordServiceIdentity, hservice]
      cases hprior : s.registryService reg' with
      | none =>
        -- The first service of the registry is remembered.
        show (⟨Function.update s.registryService reg' (some c.service) reg', _, _⟩ :
          ServiceIdentity) = _
        rw [Function.update_self]
        rfl
      | some prior =>
        -- The prior service stays, and another one is warned of unless it has been.
        dsimp only
        by_cases hsame : prior = c.service
        · rw [if_pos hsame, if_pos (.inl hsame)]
        · rw [if_neg hsame]
          refine (identity_report hseen ⟨reg', prior, c.service⟩ reg').trans ?_
          by_cases hwarned : c.service ∈ (s.identity reg').warned
          · rw [if_neg fun h => h.2 hwarned, if_pos (.inr hwarned)]
          · rw [if_pos ⟨rfl, hwarned⟩, if_neg fun h => h.elim hsame hwarned]
            show (⟨s.registryService reg', _, _⟩ : ServiceIdentity) = _
            rw [hprior]
    · -- The call names another registry.
      rw [if_neg fun h => heq (Option.some.inj h)]
      cases s.registryService reg' with
      | none =>
        show (⟨Function.update s.registryService reg' (some c.service) reg, _, _⟩ :
          ServiceIdentity) = _
        rw [Function.update_of_ne (Ne.symm heq)]
        rfl
      | some prior =>
        dsimp only
        split_ifs
        · rfl
        · have hother : ¬ (reg' = reg ∧ c.service ∉ (s.identity reg).warned) := fun h => heq h.1
          exact (identity_report hseen ⟨reg', prior, c.service⟩ reg).trans (if_neg hother)

/-! ## Runs -/

/-- The first service of a registry. -/
theorem registryService_run (calls : List Call) (reg : ℕ) :
    (run step initial calls).registryService reg = firstService reg calls := by
  induction calls using List.reverseRecOn with
  | nil => rfl
  | append_singleton calls c ih =>
    rw [Lib.run_concat, registryService_step, ih, firstService, firstService, List.find?_append]
    split_ifs with hreg
    · rw [List.find?_cons_of_pos (by simp [hreg])]
      cases calls.find? (·.registry = some reg) <;> rfl
    · rw [List.find?_cons_of_neg (by simp [hreg]), List.find?_nil, Option.or_none]

/-- The conflicts that are reported. -/
theorem warned_run (calls : List Call) : (run step initial calls).warned =
    Reporter.reportAll Conflict.key (trace step conflicts initial calls) := by
  induction calls using List.reverseRecOn with
  | nil => rfl
  | append_singleton calls c ih =>
    rw [Lib.run_concat, Lib.trace_concat, warned_step, Reporter.reportAll_append, ih]

/-- The maps and the log have of a registry what the calls with it make, alone. -/
theorem identity_run (calls : List Call) (reg : ℕ) :
    (run step initial calls).identity reg =
      run (fun i service => (Go.recordServiceIdentity service i).2) ⟨none, ∅, []⟩
        (services reg calls) := by
  induction calls using List.reverseRecOn with
  | nil => rfl
  | append_singleton calls c ih =>
    have hseen : (run step initial calls).warned.seen =
        (run step initial calls).warned.reports.map Conflict.key := by
      rw [warned_run, Reporter.seen_reportAll]
    rw [Lib.run_concat, identity_step hseen, ih, services, services, List.filter_append,
      List.map_append]
    split_ifs with hreg
    · rw [List.filter_cons_of_pos (by simp [hreg])]
      show _ = run _ _ (_ ++ [c.service])
      rw [Lib.run_concat]
    · rw [List.filter_cons_of_neg (by simp [hreg])]
      simp

/-- What a call returns. -/
theorem returns (s : State) (reg : ℕ) (service : String) :
    (recordServiceIdentity s ⟨some reg, service⟩).1 = (s.registryService reg).getD service := by
  rw [recordServiceIdentity]
  dsimp only
  cases s.registryService reg with
  | none => rfl
  | some prior =>
    dsimp only
    split_ifs <;> rfl

/-- A service is named for a registry that has a first one. -/
theorem services_eq_nil {reg : ℕ} {calls : List Call} (h : firstService reg calls = none) :
    services reg calls = [] := by
  rw [services, List.map_eq_nil_iff, List.filter_eq_nil_iff]
  exact List.find?_eq_none.mp (Option.map_eq_none_iff.mp h)

/-- The conflict that a call is. -/
theorem mem_conflicts_call {s : State} {c : Call} {x : Conflict} :
    x ∈ conflicts s c ↔ c.registry = some x.registry ∧
      s.registryService x.registry = some x.prior ∧ x.prior ≠ x.service ∧
        x.service = c.service := by
  obtain ⟨reg, prior, service⟩ := x
  rw [conflicts]
  cases hreg : c.registry with
  | none => simp
  | some reg' =>
    dsimp only
    cases hprior : s.registryService reg' with
    | none =>
      refine iff_of_false List.not_mem_nil ?_
      rintro ⟨hreg', hservice, -⟩
      rw [← Option.some.inj hreg', hprior] at hservice
      cases hservice
    | some prior' =>
      dsimp only
      constructor
      · intro h
        split_ifs at h with hsame
        · cases h
        · obtain ⟨rfl, rfl, rfl⟩ := Conflict.mk.inj (List.mem_singleton.mp h)
          exact ⟨rfl, hprior, hsame, rfl⟩
      · rintro ⟨hreg', hservice, hne, rfl⟩
        obtain rfl := Option.some.inj hreg'
        obtain rfl := Option.some.inj (hprior.symm.trans hservice)
        rw [if_neg hne]
        exact List.mem_singleton_self _

/-- The conflicts are the calls that name another service than the first one. -/
theorem mem_conflicts {calls : List Call} {x : Conflict} :
    x ∈ trace step conflicts initial calls ↔ firstService x.registry calls = some x.prior ∧
      x.prior ≠ x.service ∧ x.service ∈ services x.registry calls := by
  induction calls using List.reverseRecOn with
  | nil => exact iff_of_false List.not_mem_nil fun h => nomatch h.1
  | append_singleton calls c ih =>
    have hfirst : firstService x.registry (calls ++ [c]) =
        if c.registry = some x.registry then
          (firstService x.registry calls).or (some c.service)
        else firstService x.registry calls := by
      rw [← registryService_run, ← registryService_run, Lib.run_concat, registryService_step]
    have hservices : services x.registry (calls ++ [c]) =
        services x.registry calls ++ if c.registry = some x.registry then [c.service] else [] := by
      rw [services, services, List.filter_append, List.map_append]
      split_ifs with hreg
      · rw [List.filter_cons_of_pos (by simp [hreg])]
        rfl
      · rw [List.filter_cons_of_neg (by simp [hreg])]
        rfl
    rw [Lib.trace_concat, List.mem_append, ih, hfirst, hservices, mem_conflicts_call]
    by_cases hreg : c.registry = some x.registry
    · rw [if_pos hreg, if_pos hreg, registryService_run]
      cases hprior : firstService x.registry calls with
      | none =>
        -- The first call with a registry is no conflict.
        rw [services_eq_nil hprior]
        refine iff_of_false (fun h => h.elim (fun h => nomatch h.1) fun h => nomatch h.2.1) ?_
        rintro ⟨hfirst, hne, hservice⟩
        exact hne ((Option.some.inj hfirst).symm.trans (List.mem_singleton.mp hservice).symm)
      | some prior =>
        rw [Option.some_or, List.mem_append, List.mem_singleton]
        constructor
        · rintro (⟨hprior, hne, hservice⟩ | ⟨-, hprior, hne, hservice⟩)
          · exact ⟨hprior, hne, .inl hservice⟩
          · exact ⟨hprior, hne, .inr hservice⟩
        · rintro ⟨hprior, hne, hservice | hservice⟩
          · exact .inl ⟨hprior, hne, hservice⟩
          · exact .inr ⟨hreg, hprior, hne, hservice⟩
    · rw [if_neg hreg, if_neg hreg, List.append_nil]
      exact or_iff_left fun h => hreg h.1

/-- After any calls:
1. A registry has the service that the first call with it named, and a further call returns that
   one.
2. There is one warning for each other service that a later call named for the registry, and none
   for any other.
3. The registry has what it had if there were no other registries. -/
theorem identities_separate (calls : List Call) (reg : ℕ) :
    let s := run step initial calls
    s.registryService reg = firstService reg calls ∧
      (∀ service, (recordServiceIdentity s ⟨some reg, service⟩).1 =
        (firstService reg calls).getD service) ∧
      (∀ service, s.warned.reports.filter (·.key = (reg, service)) =
        match firstService reg calls with
        | none => []
        | some prior =>
          if prior ≠ service ∧ service ∈ services reg calls then [⟨reg, prior, service⟩] else []) ∧
      s.identity reg =
        run (fun i service => (Go.recordServiceIdentity service i).2) ⟨none, ∅, []⟩
          (services reg calls) := by
  intro s
  refine ⟨registryService_run calls reg, fun service => ?_, fun service => ?_,
    identity_run calls reg⟩
  · rw [returns, registryService_run]
  · rw [warned_run, Reporter.filter_reportAll]
    cases hfind : (trace step conflicts initial calls).find? (·.key = (reg, service)) with
    | none =>
      -- No conflict has the key, so the statement asks for no warning.
      cases hfirst : firstService reg calls with
      | none => rfl
      | some prior =>
        refine (if_neg fun h => ?_).symm
        have hmem : ⟨reg, prior, service⟩ ∈ trace step conflicts initial calls :=
          mem_conflicts.mpr ⟨hfirst, h.1, h.2⟩
        exact List.find?_eq_none.mp hfind _ hmem (decide_eq_true rfl)
    | some x =>
      -- The first conflict with the key is the one that is reported.
      obtain ⟨reg', prior, service'⟩ := x
      have hkey := List.find?_some hfind
      obtain ⟨rfl, rfl⟩ := Prod.mk.inj (of_decide_eq_true hkey)
      obtain ⟨hfirst, hne, hservice⟩ := mem_conflicts.mp (List.mem_of_find?_eq_some hfind)
      dsimp only at hfirst
      rw [hfirst]
      exact (if_pos ⟨hne, hservice⟩).symm

end SimsysMetrics.Go.ServiceIdentities
