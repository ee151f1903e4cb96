import SimsysMetrics.Lib.Compensation
import SimsysMetrics.Service
import SimsysMetrics.Python.Process
import SimsysMetrics.Python.BuildInfo

/-!
# The install of the Python lane

`install_fastapi` and `install_flask` change the same process-wide state in the same order: the
service, the process collector, and the build info; then each wires its own framework. When a step
raises, both undo the framework, then the build info, the collector, and the service, and raise
again. `installOn` is this common body, over an `Adapter` that supplies what the framework does.

The undo of the service and of the collector is the reverse of these steps, so they are a chain of
compensated actions, which restores every state of the invariant `Proc.Inv`
(`service_collector_undoes`). Every install keeps that invariant (`inv_installOn`). The build info
is undone only where `register_build_info` returned, so what is left of a failed install is what is
left of its build info: `installOn_restores_iff` says exactly when that is nothing.
-/

namespace SimsysMetrics.Python

open Lib (Action)

/-- The process-wide state: `_SERVICE`, the process collector, and the build info. -/
structure Proc where
  service : Option String
  collectors : Collectors
  buildInfo : BuildInfo
deriving DecidableEq

/-- A fresh process. -/
def Proc.fresh : Proc := ⟨none, .empty, .empty⟩

/-- The options of an install. -/
structure InstallOpts where
  service : String
  version : String
  commit : Option String
  metricsPath : String
deriving DecidableEq, Repr

/-- `_DEFAULT_HEALTH_PATHS` of both adapters. -/
def defaultHealthPaths : Finset String := {"/health", "/ready", "/healthz"}

/-- `_build_exempt_paths` of both adapters. -/
def buildExemptPaths (metricsPath : String) : Finset String :=
  insert metricsPath defaultHealthPaths

/-- What the runtime supplies to an install: whether `PROMETHEUS_MULTIPROC_DIR` is set, the identity
of a collector that is constructed, what `_detect_commit` returns, and the formatted time. -/
structure Env where
  multiproc : Bool
  collectorId : ℕ
  detectedCommit : String
  now : String
deriving DecidableEq, Repr

/-- The label set of `simsys_build_info` that an install registers. -/
def InstallOpts.labels (o : InstallOpts) (env : Env) : BuildInfoLabels :=
  resolveLabels o.service o.version o.commit env.detectedCommit env.now

/-- The options of an install of `portal` at the default metrics path. -/
def portalOpts : InstallOpts := ⟨"portal", "1.0", none, "/metrics"⟩

/-- A single-process runtime. -/
def singleProcess : Env := ⟨false, 1, "unknown", "2026-08-05T00:00:00Z"⟩

/-- The step of the `try` block that raises; `ω` are the places where the framework's wiring may
raise. -/
inductive Fault (ω : Type) where
  | setService
  | registerProcessCollector (call : CollectorFault)
  | registerBuildInfo (place : BuildInfoFault)
  | wire (place : ω)
deriving DecidableEq, Repr

/-- What a framework's adapter does to the app of type `α`. -/
structure Adapter (α ω : Type) where
  /-- Whether the sentinel of an earlier install is set. -/
  installed : α → Bool
  /-- The sentinel and the attributes that are set before the `try` block. -/
  mark : InstallOpts → α → α
  /-- The wiring, up to the place where it raises, and whether it raised. -/
  wire : InstallOpts → Option ω → α → α × Bool
  /-- The undo, from the app before the `try` block and the app where a step raised. -/
  unwire : α → α → α

/-- The process-wide part of the `except` block: the records are there as far as the `try` block
came, and `pre` is the service that was read before it. -/
def rollback (pre : Option String) (collectorState : Option RollbackState)
    (labels : Option (BuildInfoLabels × Bool)) (p : Proc) : Proc :=
  let p := match labels with
    | some (l, wasNew) => { p with buildInfo := unregisterBuildInfoIfOwned l wasNew p.buildInfo }
    | none => p
  let p := match collectorState with
    | some state => { p with collectors := restoreProcessCollector state p.collectors }
    | none => p
  { p with service := setService pre }

/-- What an install leaves: the process, the app, and whether it raised. -/
structure Installed (α : Type) where
  proc : Proc
  app : α
  raised : Bool

section InstallOn

variable {α ω : Type} [DecidableEq ω]

/-- The collector that a fault makes raise. -/
def Fault.collector? : Option (Fault ω) → Option CollectorFault
  | some (.registerProcessCollector call) => some call
  | _ => none

/-- The place in the wiring that a fault makes raise. -/
def Fault.wire? : Option (Fault ω) → Option ω
  | some (.wire place) => some place
  | _ => none

/-- The place in `register_build_info` that a fault makes raise. -/
def Fault.buildInfo? : Option (Fault ω) → Option BuildInfoFault
  | some (.registerBuildInfo place) => some place
  | _ => none

/-- The collector step of the `try` block; it is skipped in the multi-process mode. -/
def collectorStep (env : Env) (fault : Option CollectorFault) (service : String)
    (s : Collectors) : Collectors × Option (Option RollbackState) :=
  if env.multiproc then (s, some none)
  else
    let (s, state) := registerProcessCollector env.collectorId fault service s
    (s, state.map some)

/-- The common body of `install_fastapi` and `install_flask`. -/
def installOn (ad : Adapter α ω) (env : Env) (o : InstallOpts) (fault : Option (Fault ω))
    (p : Proc) (app : α) : Installed α :=
  if ad.installed app then ⟨p, app, false⟩
  else
    let marked := ad.mark o app
    let pre := p.service
    if fault = some .setService then ⟨rollback pre none none p, ad.unwire marked marked, true⟩
    else
      let p := { p with service := setService (some o.service) }
      match collectorStep env (Fault.collector? fault) o.service p.collectors with
      | (collectors, none) =>
        ⟨rollback pre none none { p with collectors }, ad.unwire marked marked, true⟩
      | (collectors, some state) =>
        let p := { p with collectors }
        let labels := o.labels env
        match Fault.buildInfo? fault with
        | some place =>
          -- `build_info_labels` is still `None`, so the rollback does not unregister.
          let p := { p with buildInfo := registerBuildInfoRaised place labels p.buildInfo }
          ⟨rollback pre state none p, ad.unwire marked marked, true⟩
        | none =>
          let (buildInfo, wasNew) := registerBuildInfo labels p.buildInfo
          let p := { p with buildInfo }
          match ad.wire o (Fault.wire? fault) marked with
          | (wired, true) =>
            ⟨rollback pre state (some (labels, wasNew)) p, ad.unwire marked wired, true⟩
          | (wired, false) => ⟨p, wired, false⟩

end InstallOn

/-! ## The steps of the `try` block as compensated actions -/

/-- `set_service`, undone by setting the service that was read before. -/
def serviceAction (service : String) : Action Proc (Option String) where
  exec p := ({ p with service := setService (some service) }, p.service)
  undo pre p := { p with service := setService pre }

/-- The collector step, undone by its rollback state, if it returned one. -/
def collectorAction (env : Env) (service : String) : Action Proc (Option RollbackState) where
  exec p :=
    ({ p with collectors := (collectorStep env none service p.collectors).1 },
      (collectorStep env none service p.collectors).2.join)
  undo state p :=
    match state with
    | some state => { p with collectors := restoreProcessCollector state p.collectors }
    | none => p

/-- The states of the process that installs leave. -/
structure Proc.Inv (p : Proc) : Prop where
  /-- The service is none or trimmed. -/
  service : Trimmed isSpace p.service
  /-- No collector but the singleton is registered. -/
  collectors : p.collectors.Consistent
  /-- The label sets that have a sample are owned. -/
  buildInfo : p.buildInfo.Covered

/-- A fresh process satisfies the invariant. -/
theorem Proc.inv_fresh : Proc.fresh.Inv where
  service := by
    intro s hs
    cases hs
  collectors := Collectors.consistent_empty
  buildInfo := Finset.Subset.refl ∅

/-- The service step is undone exactly. -/
theorem serviceAction_undoes (service : String) : (serviceAction service).Undoes Proc.Inv := by
  intro p hp
  have hrestore : setService p.service = p.service := setServiceBy_restore isSpace hp.service
  show { p with service := setService p.service } = p
  rw [hrestore]

/-- The collector step is undone exactly. -/
theorem collectorAction_undoes (env : Env) (service : String) :
    (collectorAction env service).Undoes Proc.Inv := by
  intro p hp
  have hrestore := restore_register env.collectorId service hp.collectors
  unfold collectorAction collectorStep
  by_cases hm : env.multiproc
  · simp [hm]
  · cases hreg : registerProcessCollector env.collectorId none service p.collectors with
    | mk collectors state =>
      rw [hreg] at hrestore
      cases state with
      | none => simpa [hm, hreg] using congrArg (fun c => { p with collectors := c }) hrestore
      | some state =>
        simpa [hm, hreg] using congrArg (fun c => { p with collectors := c }) hrestore

/-- The service step keeps the invariant. -/
theorem inv_serviceAction (service : String) {p : Proc} (hp : p.Inv) :
    ((serviceAction service).exec p).1.Inv := by
  refine ⟨?_, hp.collectors, hp.buildInfo⟩
  show Trimmed isSpace (setServiceBy isSpace (some service))
  exact setServiceBy_trimmed isSpace (some service)

/-- The collector step keeps the invariant, also where it raises. -/
theorem inv_collectorStep (env : Env) (fault : Option CollectorFault) (service : String) {p : Proc}
    (hp : p.Inv) :
    Proc.Inv { p with collectors := (collectorStep env fault service p.collectors).1 } := by
  refine ⟨hp.service, ?_, hp.buildInfo⟩
  unfold collectorStep
  split_ifs
  · exact hp.collectors
  · exact consistent_register env.collectorId fault service hp.collectors

/-- The two steps in order restore the state when they are undone. -/
theorem service_collector_undoes (env : Env) (service : String) :
    ((serviceAction service).andThen (collectorAction env service)).Undoes Proc.Inv :=
  (serviceAction_undoes service).andThen (collectorAction_undoes env service)
    fun _ => inv_serviceAction service

/-! ## What an install leaves -/

/-- Without a fault, the collector step returns in the multi-process mode, and where the singleton
can be swapped. -/
theorem collectorStep_isSome_iff (env : Env) (service : String) (s : Collectors) :
    (collectorStep env none service s).2.isSome ↔ env.multiproc = true ∨ s.Accepts service := by
  have hreg := register_isSome_iff env.collectorId service s
  unfold collectorStep
  by_cases hm : env.multiproc
  · simp [hm]
  · simp [hm, hreg]

/-- A collector step that returns does so without its fault. -/
theorem collectorStep_of_returned {env : Env} {fault : Option CollectorFault} {service : String}
    {s c : Collectors} {state : Option RollbackState}
    (h : collectorStep env fault service s = (c, some state)) :
    collectorStep env none service s = (c, some state) := by
  unfold collectorStep at h ⊢
  split_ifs at h ⊢ with hm
  · exact h
  · rw [← h]
    rcases fault with _ | fault
    · rfl
    -- A fault that did not raise was not reached: the collector was reused, or is not registered.
    · unfold registerProcessCollector installCollector at h ⊢
      obtain ⟨_ | prior, registry⟩ := s <;> cases fault <;> grind

/-- The rollback of the service step alone gives the state back. -/
theorem rollback_service (service : String) {p : Proc} (hp : p.Inv) :
    rollback p.service none none { p with service := setService (some service) } = p :=
  serviceAction_undoes service p hp

/-- The rollback after the collector step gives the state back, with the build info as it is. -/
theorem rollback_collector {env : Env} {fault : Option CollectorFault} {service : String}
    {p : Proc} (hp : p.Inv) {c : Collectors} {state : Option RollbackState}
    (h : collectorStep env fault service p.collectors = (c, some state)) (b : BuildInfo) :
    rollback p.service state none ⟨setService (some service), c, b⟩ =
      { p with buildInfo := b } := by
  -- The code's rollback is the undo of the chain, on the records of this run.
  have hchain := service_collector_undoes env service p hp
  have hstep := collectorStep_of_returned h
  simp only [Action.andThen, serviceAction, collectorAction, hstep, Option.join_some] at hchain
  cases state with
  | none => exact congrArg (fun q : Proc => { q with buildInfo := b }) hchain
  | some state => exact congrArg (fun q : Proc => { q with buildInfo := b }) hchain

/-- The rollback after the build-info step gives the state back, but for what unregistering leaves
of the build info. -/
theorem rollback_buildInfo {env : Env} {fault : Option CollectorFault} {service : String}
    {p : Proc} (hp : p.Inv) {c : Collectors} {state : Option RollbackState}
    (h : collectorStep env fault service p.collectors = (c, some state)) (labels : BuildInfoLabels)
    (wasNew : Bool) (b : BuildInfo) :
    rollback p.service state (some (labels, wasNew)) ⟨setService (some service), c, b⟩ =
      { p with buildInfo := unregisterBuildInfoIfOwned labels wasNew b } :=
  rollback_collector hp h (unregisterBuildInfoIfOwned labels wasNew b)

/-- Where the collector step raises without a fault, it changed nothing. -/
theorem collectorStep_raised {env : Env} {service : String} {s : Collectors} (hs : s.Consistent)
    {c : Collectors} (h : collectorStep env none service s = (c, none)) : c = s := by
  have hrestore := restore_register env.collectorId service hs
  unfold collectorStep at h
  by_cases hm : env.multiproc
  · rw [if_pos hm] at h
    cases h
  · rw [if_neg hm] at h
    rcases hreg : registerProcessCollector env.collectorId none service s with ⟨c', _ | state⟩
    · rw [hreg] at h hrestore
      exact (Prod.mk.inj h).1.symm.trans hrestore
    · rw [hreg] at h
      cases h

/-- The service and the collector come before the step that raises: in the single-process mode, a
singleton of another service is registered, so that it can be swapped. -/
def PastCollector (env : Env) (o : InstallOpts) (p : Proc) : Prop :=
  env.multiproc = true ∨ p.collectors.Accepts o.service

/-- The step that raises is not `register_build_info` after it has added the key. -/
def Fault.Timely {ω : Type} (fault : Option (Fault ω)) : Prop :=
  Fault.buildInfo? fault = none ∨ Fault.buildInfo? fault = some .detect

/-- An install that raises after the collector step leaves the build info as it was; `labels` is its
label set. -/
def Fault.Undone {ω : Type} (labels : BuildInfoLabels) (s : BuildInfo) : Option (Fault ω) → Prop
  | some .setService | some (.registerBuildInfo .detect) => True
  -- The key is added before the sample, and the rollback unregisters nothing.
  | some (.registerBuildInfo .labels) => labels ∈ s.owned
  | some (.registerBuildInfo .set) => labels ∈ s.samples
  -- In the wiring: a key that was owned without a sample has got one, and was not new.
  | _ => labels ∈ s.owned → labels ∈ s.samples

/-- Where the owned label sets are those with a sample, only a late raise of `register_build_info`
leaves something of the build info. -/
theorem Fault.undone_of_timely {ω : Type} {fault : Option (Fault ω)} {labels : BuildInfoLabels}
    {s : BuildInfo} (howned : s.Owned) (htimely : Fault.Timely fault) :
    Fault.Undone labels s fault := by
  have hsample : labels ∈ s.owned → labels ∈ s.samples := fun hmem => howned ▸ hmem
  rcases fault with _ | (_ | _ | (_ | _ | _) | place)
  · exact hsample
  · trivial
  · exact hsample
  · trivial
  · rcases htimely with h | h <;> cases h
  · rcases htimely with h | h <;> cases h
  · exact hsample

section Outcome

variable {α ω : Type} [DecidableEq ω] (ad : Adapter α ω) (env : Env) (o : InstallOpts)
  (fault : Option (Fault ω)) (p : Proc) (app : α)

/-- The ways an install can go, each with what it leaves. -/
inductive Outcome : Installed α → Prop where
  | alreadyInstalled : ad.installed app = true → Outcome ⟨p, app, false⟩
  | serviceRaised : ad.installed app = false → fault = some .setService →
      Outcome ⟨rollback p.service none none p, ad.unwire (ad.mark o app) (ad.mark o app), true⟩
  | collectorRaised (c : Collectors) : ad.installed app = false →
      collectorStep env (Fault.collector? fault) o.service p.collectors = (c, none) →
      Outcome ⟨rollback p.service none none ⟨setService (some o.service), c, p.buildInfo⟩,
        ad.unwire (ad.mark o app) (ad.mark o app), true⟩
  | buildInfoRaised (c : Collectors) (state : Option RollbackState) (place : BuildInfoFault) :
      ad.installed app = false → fault = some (.registerBuildInfo place) →
      collectorStep env (Fault.collector? fault) o.service p.collectors = (c, some state) →
      Outcome ⟨rollback p.service state none ⟨setService (some o.service), c,
        registerBuildInfoRaised place (o.labels env) p.buildInfo⟩,
        ad.unwire (ad.mark o app) (ad.mark o app), true⟩
  | wireRaised (c : Collectors) (state : Option RollbackState) (wired : α) :
      ad.installed app = false → fault ≠ some .setService → Fault.buildInfo? fault = none →
      collectorStep env (Fault.collector? fault) o.service p.collectors = (c, some state) →
      ad.wire o (Fault.wire? fault) (ad.mark o app) = (wired, true) →
      Outcome ⟨rollback p.service state
        (some (o.labels env, (registerBuildInfo (o.labels env) p.buildInfo).2))
        ⟨setService (some o.service), c, (registerBuildInfo (o.labels env) p.buildInfo).1⟩,
        ad.unwire (ad.mark o app) wired, true⟩
  | succeeded (c : Collectors) (state : Option RollbackState) (wired : α) :
      ad.installed app = false → Fault.buildInfo? fault = none →
      collectorStep env (Fault.collector? fault) o.service p.collectors = (c, some state) →
      ad.wire o (Fault.wire? fault) (ad.mark o app) = (wired, false) →
      Outcome ⟨⟨setService (some o.service), c,
        (registerBuildInfo (o.labels env) p.buildInfo).1⟩, wired, false⟩

/-- Every install goes one of these ways. -/
theorem outcome_installOn : Outcome ad env o fault p app (installOn ad env o fault p app) := by
  unfold installOn
  dsimp only
  split_ifs with hinst hset
  · exact .alreadyInstalled hinst
  · exact .serviceRaised (by simpa using hinst) hset
  · have hinst' : ad.installed app = false := by simpa using hinst
    rcases hstep : collectorStep env (Fault.collector? fault) o.service p.collectors
      with ⟨c, _ | state⟩
    · exact .collectorRaised c hinst' hstep
    · rcases hbi : Fault.buildInfo? fault with _ | place
      · rcases hwire : ad.wire o (Fault.wire? fault) (ad.mark o app) with ⟨wired, _ | _⟩
        · exact .succeeded c state wired hinst' hbi hstep hwire
        · exact .wireRaised c state wired hinst' hset hbi hstep hwire
      · have hfault : fault = some (.registerBuildInfo place) := by
          rcases fault with _ | (_ | _ | place' | _) <;> cases hbi
          rfl
        exact .buildInfoRaised c state place hinst' hfault hstep

variable {ad env o fault p app}

/-- An install that returns on an app without its sentinel has taken every step. -/
theorem steps_of_returned (hclear : ad.installed app = false)
    (hreturned : (installOn ad env o fault p app).raised = false) :
    ∃ c state wired, collectorStep env none o.service p.collectors = (c, some state) ∧
      ad.wire o (Fault.wire? fault) (ad.mark o app) = (wired, false) ∧
      installOn ad env o fault p app = ⟨⟨setService (some o.service), c,
        (registerBuildInfo (o.labels env) p.buildInfo).1⟩, wired, false⟩ := by
  have hout := outcome_installOn ad env o fault p app
  generalize installOn ad env o fault p app = r at hout hreturned ⊢
  cases hout with
  | alreadyInstalled hinst =>
    rw [hclear] at hinst
    cases hinst
  | succeeded c state wired hinst hbi hstep hwire =>
    exact ⟨c, state, wired, collectorStep_of_returned hstep, hwire, rfl⟩
  | serviceRaised => cases hreturned
  | collectorRaised => cases hreturned
  | buildInfoRaised => cases hreturned
  | wireRaised => cases hreturned

/-- Every install keeps the invariant of the process-wide state. -/
theorem inv_installOn (hp : p.Inv) : (installOn ad env o fault p app).proc.Inv := by
  have hout := outcome_installOn ad env o fault p app
  have htrim : ∀ s, Trimmed isSpace (setService s) := setServiceBy_trimmed isSpace
  generalize installOn ad env o fault p app = r at hout ⊢
  cases hout with
  | alreadyInstalled => exact hp
  | serviceRaised => exact ⟨htrim p.service, hp.collectors, hp.buildInfo⟩
  | collectorRaised c hinst hstep =>
    have hinv := inv_collectorStep env (Fault.collector? fault) o.service hp
    rw [hstep] at hinv
    exact ⟨htrim p.service, hinv.collectors, hp.buildInfo⟩
  | buildInfoRaised c state place hinst hbi hstep =>
    dsimp only
    rw [rollback_collector hp hstep]
    exact ⟨hp.service, hp.collectors, covered_registerRaised place _ hp.buildInfo⟩
  | wireRaised c state wired hinst hset hbi hstep =>
    dsimp only
    rw [rollback_buildInfo hp hstep]
    exact ⟨hp.service, hp.collectors, covered_unregister _ _ (covered_register _ hp.buildInfo)⟩
  | succeeded c state wired hinst hbi hstep =>
    have hinv := inv_collectorStep env (Fault.collector? fault) o.service hp
    rw [hstep] at hinv
    exact ⟨htrim (some o.service), hinv.collectors, covered_register _ hp.buildInfo⟩

/-- An install keeps the owned label sets those with a sample, unless `register_build_info` raises
after it has added the key. -/
theorem owned_installOn (hp : p.Inv) (howned : p.buildInfo.Owned) (htimely : Fault.Timely fault) :
    (installOn ad env o fault p app).proc.buildInfo.Owned := by
  have hout := outcome_installOn ad env o fault p app
  generalize installOn ad env o fault p app = r at hout ⊢
  cases hout with
  | alreadyInstalled => exact howned
  | serviceRaised => exact howned
  | collectorRaised => exact howned
  | buildInfoRaised c state place hinst hbi hstep =>
    dsimp only
    rw [rollback_collector hp hstep]
    obtain hnone | hdetect := htimely
    · rw [hbi] at hnone
      cases hnone
    · rw [hbi] at hdetect
      obtain rfl : place = .detect := Option.some.inj hdetect
      exact howned
  | wireRaised c state wired hinst hset hbi hstep =>
    have hundone := (unregister_register_iff (o.labels env) hp.buildInfo).mpr
      fun hmem => howned ▸ hmem
    dsimp only
    rw [rollback_buildInfo hp hstep, hundone]
    exact howned
  | succeeded => exact owned_register _ howned

/-- An install that raises elsewhere than in the collector's own calls leaves the process-wide state
as it was, exactly where it leaves the build info. -/
theorem installOn_restores_iff (hp : p.Inv) (hfault : Fault.collector? fault = none)
    (hraised : (installOn ad env o fault p app).raised = true) :
    (installOn ad env o fault p app).proc = p ↔
      (PastCollector env o p → Fault.Undone (o.labels env) p.buildInfo fault) := by
  have hout := outcome_installOn ad env o fault p app
  have hpast := collectorStep_isSome_iff env o.service p.collectors
  have hbuildInfo : ∀ b, { p with buildInfo := b } = p ↔ b = p.buildInfo := by
    intro b
    obtain ⟨service, collectors, buildInfo⟩ := p
    simp
  generalize installOn ad env o fault p app = r at hout hraised ⊢
  cases hout with
  | alreadyInstalled => cases hraised
  | serviceRaised hinst hset =>
    have hrestore : setService p.service = p.service := setServiceBy_restore isSpace hp.service
    refine iff_of_true ?_ fun _ => hset ▸ trivial
    show { p with service := setService p.service } = p
    rw [hrestore]
  | collectorRaised c hinst hstep =>
    rw [hfault] at hstep
    rw [hstep] at hpast
    refine iff_of_true ?_ fun h => absurd (hpast.mpr h) (by simp)
    rw [collectorStep_raised hp.collectors hstep]
    exact rollback_service o.service hp
  | buildInfoRaised c state place hinst hbi hstep =>
    rw [collectorStep_of_returned hstep] at hpast
    have hreached : PastCollector env o p := hpast.mp rfl
    dsimp only
    rw [rollback_collector hp hstep, hbuildInfo, registerRaised_eq_iff _ _ hp.buildInfo, hbi,
      forall_prop_of_true hreached]
    cases place <;> rfl
  | wireRaised c state wired hinst hset hbi hstep hwire =>
    rw [collectorStep_of_returned hstep] at hpast
    have hreached : PastCollector env o p := hpast.mp rfl
    dsimp only
    rw [rollback_buildInfo hp hstep, hbuildInfo, unregister_register_iff _ hp.buildInfo,
      forall_prop_of_true hreached]
    -- The step that raised is in the wiring: the fault is of no earlier step.
    rcases fault with _ | (_ | _ | _ | place)
    · rfl
    · exact absurd rfl hset
    · cases hfault
    · cases hbi
    · rfl
  | succeeded => cases hraised

end Outcome

end SimsysMetrics.Python
