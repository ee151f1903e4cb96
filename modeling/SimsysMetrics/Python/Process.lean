import Mathlib.Data.Finset.Option
import SimsysMetrics.Lib.Runs

/-!
# The process collector of the Python lane

`register_process_collector` and `restore_process_collector` of `simsys_metrics/_process.py`. The
state is the singleton `_collector` and the simsys collectors registered in `REGISTRY`. A collector
is an object: its `id` is its identity, so `is` is equality.

`register_process_collector` changes the state between two calls that may raise, the constructor of
the collector and `REGISTRY.register`, and undoes nothing when one does. Where it returns, the
record that it returns lets `restore_process_collector` undo it exactly (`restore_register`), as
long as no collector but the singleton is registered (`Collectors.Consistent`), which every
operation keeps, also the ones that raise.

A call that raises keeps more only where nothing was changed before: a swap has unregistered the
prior collector when the constructor raises, and the singleton is assigned when
`REGISTRY.register` raises. Then the next call may reuse a singleton that is not registered. The
calls that raise without harm, and those that return a registered collector, are the ones that
`RegisterCall.Clean` describes, along every run of them (`registerCalls_sound_iff`).
-/

namespace SimsysMetrics.Python

/-- A `SimsysProcessCollector`: its object identity, and its `_service`. -/
structure Collector where
  id : ℕ
  service : String
deriving DecidableEq, Repr

/-- The singleton `_collector`, and the simsys collectors in `REGISTRY`. -/
structure Collectors where
  collector : Option Collector
  registry : Finset Collector
deriving DecidableEq

/-- `ProcessCollectorRollbackState`: the action taken, with the collectors that its undo needs. -/
inductive RollbackState where
  /-- The singleton already had the service. -/
  | reused (installed : Collector)
  /-- There was no collector. -/
  | registered (installed : Collector)
  /-- The singleton had another service. -/
  | serviceSwap (prior installed : Collector)
deriving DecidableEq, Repr

/-- The calls that may raise while a collector is installed. -/
inductive CollectorFault where
  /-- The constructor: `psutil.Process()` raises. -/
  | construct
  /-- `REGISTRY.register` raises on a duplicated timeseries. -/
  | register
deriving DecidableEq, Repr

/-- The collectors without any install. -/
def Collectors.empty : Collectors := ⟨none, ∅⟩

/-- The two lines that install a new collector: assign the singleton, then register it. -/
def installCollector (id : ℕ) (fault : Option CollectorFault) (service : String)
    (s : Collectors) : Collectors × Option Collector :=
  match fault with
  | some .construct => (s, none)
  | some .register => ({ s with collector := some ⟨id, service⟩ }, none)
  | none => (⟨some ⟨id, service⟩, insert ⟨id, service⟩ s.registry⟩, some ⟨id, service⟩)

/-- `register_process_collector`: the state afterwards, and the rollback state where it returns.
`id` is the identity of the object it may construct. -/
def registerProcessCollector (id : ℕ) (fault : Option CollectorFault) (service : String)
    (s : Collectors) : Collectors × Option RollbackState :=
  match s.collector with
  | some prior =>
    if prior.service ≠ service then
      -- `REGISTRY.unregister` raises `KeyError` on a collector that is not registered.
      if prior ∈ s.registry then
        let (s, c) :=
          installCollector id fault service { s with registry := s.registry.erase prior }
        (s, c.map (.serviceSwap prior))
      else (s, none)
    else (s, some (.reused prior))
  | none =>
    let (s, c) := installCollector id fault service s
    (s, c.map .registered)

/-- `restore_process_collector`. -/
def restoreProcessCollector (state : RollbackState) (s : Collectors) : Collectors :=
  match state with
  | .reused _ => s
  | .registered installed =>
    if s.collector = some installed then ⟨none, s.registry.erase installed⟩ else s
  | .serviceSwap prior installed =>
    if s.collector = some installed then
      ⟨some prior, insert prior (s.registry.erase installed)⟩
    else s

/-- No collector but the singleton is registered. -/
def Collectors.Consistent (s : Collectors) : Prop :=
  ∀ c ∈ s.registry, s.collector = some c

/-- No collector is registered before any install. -/
theorem Collectors.consistent_empty : Collectors.empty.Consistent := by
  intro c hc
  cases hc

/-- Installing a collector over an empty registry keeps the singleton the only one registered. -/
theorem consistent_installCollector (id : ℕ) (fault : Option CollectorFault) (service : String)
    {s : Collectors} (h : s.registry = ∅) :
    (installCollector id fault service s).1.Consistent := by
  intro c hc
  rcases fault with _ | (_ | _)
  · simp only [installCollector, h, Finset.mem_insert, Finset.notMem_empty, or_false] at hc
    rw [hc]
    rfl
  · simp [installCollector, h] at hc
  · simp [installCollector, h] at hc

/-- Without its singleton the registry of a consistent state is empty. -/
theorem Collectors.Consistent.registry_eq {s : Collectors} (h : s.Consistent) :
    s.registry = match s.collector with
      | none => ∅
      | some c => if c ∈ s.registry then {c} else ∅ := by
  have hle : ∀ c ∈ s.registry, ∀ c' ∈ s.registry, c = c' := fun c hc c' hc' =>
    Option.some.inj ((h c hc).symm.trans (h c' hc'))
  cases hcol : s.collector with
  | none =>
    refine Finset.eq_empty_of_forall_notMem fun c hc => ?_
    rw [h c hc] at hcol
    cases hcol
  | some c =>
    show s.registry = if c ∈ s.registry then {c} else ∅
    split_ifs with hc
    · exact Finset.eq_singleton_iff_unique_mem.mpr ⟨hc, fun c' hc' => hle c' hc' c hc⟩
    · refine Finset.eq_empty_of_forall_notMem fun c' hc' => ?_
      rw [h c' hc', Option.some.injEq] at hcol
      exact hc (hcol ▸ hc')

/-- Registering keeps the singleton the only one registered, also where it raises. -/
theorem consistent_register (id : ℕ) (fault : Option CollectorFault) (service : String)
    {s : Collectors} (h : s.Consistent) :
    (registerProcessCollector id fault service s).1.Consistent := by
  have hreg := h.registry_eq
  unfold registerProcessCollector
  cases hcol : s.collector with
  | none =>
    rw [hcol] at hreg
    exact consistent_installCollector id fault service hreg
  | some prior =>
    dsimp only
    split_ifs with hsvc hmem
    · rw [hcol] at hreg
      simp only [if_pos hmem] at hreg
      exact consistent_installCollector id fault service (by simp [hreg])
    · exact h
    · exact h

/-- Restoring right after registering gives the state back; where registering raised on an
unregistered singleton, it changed nothing. -/
theorem restore_register (id : ℕ) (service : String) {s : Collectors} (h : s.Consistent) :
    ((registerProcessCollector id none service s).2.elim
      (registerProcessCollector id none service s).1
      (restoreProcessCollector · (registerProcessCollector id none service s).1)) = s := by
  have hreg := h.registry_eq
  obtain ⟨collector, registry⟩ := s
  unfold registerProcessCollector
  cases collector with
  | none =>
    -- Registered fresh: the undo drops the new collector from a registry that had none.
    simp only at hreg
    subst hreg
    simp [installCollector, restoreProcessCollector]
  | some prior =>
    dsimp only at hreg ⊢
    split_ifs with hsvc hmem
    · -- Swapped: the undo drops the new collector and registers the prior one again.
      rw [if_pos hmem] at hreg
      subst hreg
      simp [installCollector, restoreProcessCollector]
    · rfl
    · rfl

/-- The singleton, where it has another service, is registered, so it can be swapped. -/
def Collectors.Accepts (service : String) (s : Collectors) : Prop :=
  ∀ prior, s.collector = some prior → prior.service ≠ service → prior ∈ s.registry

/-- Without a fault, registering returns exactly where the singleton can be swapped. -/
theorem register_isSome_iff (id : ℕ) (service : String) (s : Collectors) :
    (registerProcessCollector id none service s).2.isSome ↔ s.Accepts service := by
  obtain ⟨_ | prior, registry⟩ := s
  · -- There is no singleton to unregister.
    refine iff_of_true rfl ?_
    intro prior hprior
    cases hprior
  · unfold registerProcessCollector Collectors.Accepts
    dsimp only
    split_ifs with hsvc hmem
    · refine iff_of_true rfl ?_
      intro c hc _
      rw [← Option.some.inj hc]
      exact hmem
    · refine iff_of_false (by simp) ?_
      intro h
      exact hmem (h prior rfl hsvc)
    · refine iff_of_true rfl ?_
      intro c hc hne
      rw [← Option.some.inj hc] at hne
      exact absurd hne hsvc

/-! ## Runs of calls -/

/-- The collector that the call returns beside its rollback state, the state's
`installed_collector`. -/
def RollbackState.installed : RollbackState → Collector
  | .reused installed | .registered installed | .serviceSwap _ installed => installed

/-- The states between installs: the singleton is registered, and no other collector is. -/
def Collectors.live (collector : Option Collector) : Collectors := ⟨collector, collector.toFinset⟩

/-- A call of `register_process_collector`. -/
structure RegisterCall where
  id : ℕ
  fault : Option CollectorFault
  service : String
deriving DecidableEq, Repr

namespace RegisterCall

/-- What the call leaves and returns. -/
def result (s : Collectors) (c : RegisterCall) : Collectors × Option RollbackState :=
  registerProcessCollector c.id c.fault c.service s

/-- The state after the call. -/
def step (s : Collectors) (c : RegisterCall) : Collectors := (c.result s).1

/-- The call changes nothing where it raises, and leaves the collector that it returns registered
where it does not. -/
def Sound (s : Collectors) (c : RegisterCall) : Prop :=
  match c.result s with
  | (s', none) => s' = s
  | (s', some state) => state.installed ∈ s'.registry

/-- Nothing raises after the first change: without a singleton, `REGISTRY.register` does not; over a
singleton of another service, neither call does. -/
def Clean (s : Collectors) (c : RegisterCall) : Prop :=
  match s.collector with
  | none => c.fault ≠ some .register
  | some prior => prior.service = c.service ∨ c.fault = none

/-- From a live state, a call is sound exactly when it is clean. -/
theorem sound_iff_clean (collector : Option Collector) (c : RegisterCall) :
    c.Sound (.live collector) ↔ c.Clean (.live collector) := by
  obtain ⟨id, fault, service⟩ := c
  cases collector with
  | none =>
    -- The constructor raises before anything is assigned.
    rcases fault with _ | (_ | _) <;>
      simp [Sound, Clean, result, registerProcessCollector, installCollector, Collectors.live,
        RollbackState.installed]
  | some prior =>
    by_cases hsvc : prior.service = service
    · simp [Sound, Clean, result, registerProcessCollector, Collectors.live, hsvc,
        RollbackState.installed]
    · -- The prior collector is unregistered before either call may raise.
      rcases fault with _ | (_ | _) <;>
        simp [Sound, Clean, result, registerProcessCollector, installCollector, Collectors.live,
          hsvc, RollbackState.installed]

/-- From a live state, a clean call leaves a live state. -/
theorem live_step {s : Collectors} {c : RegisterCall} (hs : ∃ collector, s = .live collector)
    (hc : c.Clean s) : ∃ collector, step s c = .live collector := by
  obtain ⟨collector, rfl⟩ := hs
  obtain ⟨id, fault, service⟩ := c
  cases collector with
  | none =>
    rcases fault with _ | (_ | _)
    · exact ⟨some ⟨id, service⟩, rfl⟩
    · exact ⟨none, rfl⟩
    · exact absurd rfl hc
  | some prior =>
    by_cases hsvc : prior.service = service
    · refine ⟨some prior, ?_⟩
      simp [step, result, registerProcessCollector, Collectors.live, hsvc]
    · obtain rfl : fault = none := hc.resolve_left hsvc
      refine ⟨some ⟨id, service⟩, ?_⟩
      simp [step, result, registerProcessCollector, installCollector, Collectors.live, hsvc]

end RegisterCall

/-- Along every run of calls from a live state: each call that raises changes nothing and each that
returns leaves its collector registered, exactly when every call of the run is clean. -/
theorem registerCalls_sound_iff (collector : Option Collector) (calls : List RegisterCall) :
    Lib.Along RegisterCall.step RegisterCall.Sound (.live collector) calls ↔
      Lib.Along RegisterCall.step RegisterCall.Clean (.live collector) calls := by
  have hiff : ∀ s (c : RegisterCall), (∃ collector, s = .live collector) →
      (c.Sound s ↔ c.Clean s) := by
    rintro s c ⟨collector, rfl⟩
    exact RegisterCall.sound_iff_clean collector c
  exact Lib.along_iff hiff (fun s c => RegisterCall.live_step) ⟨collector, rfl⟩ calls

/-- The constructor raises while `api` takes over from `portal`: the collector of `portal` is no
longer registered, and a later call for `portal` returns it all the same. -/
theorem failed_swap_unregisters :
    let portal : Collector := ⟨1, "portal"⟩
    let failed : RegisterCall := ⟨2, some .construct, "api"⟩
    let later : RegisterCall := ⟨3, none, "portal"⟩
    let s := RegisterCall.step (.live (some portal)) failed
    (failed.result (.live (some portal))).2 = none ∧ s.registry = ∅ ∧
      later.result s = (s, some (.reused portal)) ∧
      ¬ Lib.Along RegisterCall.step RegisterCall.Sound (.live (some portal)) [failed, later] := by
  refine ⟨by decide, by decide, by decide, ?_⟩
  rintro ⟨hfailed, -⟩
  have hclean := (RegisterCall.sound_iff_clean _ _).mp hfailed
  simp [RegisterCall.Clean, Collectors.live] at hclean

end SimsysMetrics.Python
