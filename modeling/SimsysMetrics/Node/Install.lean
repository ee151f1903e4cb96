import SimsysMetrics.Lib.Runs
import SimsysMetrics.Service
import SimsysMetrics.Node.Process
import SimsysMetrics.Node.BuildInfo

/-!
# The install of the Node lane

`installExpress`, `installHono` and `installNext` change the same process-wide state in the same
order: the service, the process collector, the default label of the shared registry and its default
metrics, and the build info. Then each wires its own framework. When a step throws, each undoes the
build info, the collector and the service by hand. `installOn` is this common body, over an
`Adapter` that supplies what the framework does.

The default label has no undo. The state that other code reads as the identity of the process
(`Proc.identity`) is given back exactly where that label did not change, nothing was added under an
owned key, and the first construction of the process metrics did not throw
(`identity_of_raised_iff`).
-/

namespace SimsysMetrics.Node

/-- The process-wide state: `_state.service`, the process collector, the label that
`setDefaultLabels` set last, `_state.defaultMetricsRegistered`, and the build info. -/
structure Proc where
  service : Option String
  process : ProcessState
  defaultLabel : Option String
  defaultMetricsRegistered : Bool
  buildInfo : BuildInfo

/-- A fresh process. -/
def Proc.fresh : Proc := ⟨none, .fresh, none, false, .empty⟩

/-- The options of an install. -/
structure InstallOpts where
  service : String
  version : String
  commit : Option String
  metricsPath : Option String
deriving DecidableEq, Repr

/-- What the runtime supplies to an install: what `detectCommit` and `startedAtNow` return. -/
structure Env where
  detectedCommit : String
  startedAt : String
deriving DecidableEq, Repr

/-- The step of the `try` block that throws; `ω` are the places where the framework's wiring may
throw. -/
inductive Fault (ω : Type) where
  | setService
  /-- The constructor of one of the process metrics. -/
  | registerProcessCollector (metric : ProcessMetric)
  /-- `registry.setDefaultLabels`. -/
  | setDefaultLabels
  /-- `collectDefaultMetrics`, which runs once in a process. -/
  | collectDefaultMetrics
  | registerBuildInfo
  | wire (place : ω)
deriving DecidableEq, Repr

/-- What a framework's adapter does to the state of type `α` that it wires. -/
structure Adapter (α ω : Type) where
  /-- Whether the sentinel of an earlier install is set. -/
  installed : α → Bool
  /-- The wiring, and whether it threw; where it did, also its part of the `catch` block. -/
  wire : InstallOpts → Option ω → α → α × Bool
  /-- Its part of the `catch` block where an earlier step threw. -/
  unwire : α → α
  /-- Without a fault the wiring returns. -/
  returns : ∀ o app, (wire o none app).2 = false

/-- `DEFAULT_HEALTH_PATHS` of the Express and the Hono adapter. -/
def defaultHealthPaths : Finset String := {"/health", "/ready", "/healthz"}

/-- `buildExemptPaths` of both adapters. -/
def buildExemptPaths (metricsPath : String) : Finset String :=
  insert metricsPath defaultHealthPaths

/-- The label set of `simsys_build_info` that an install registers. -/
def buildInfoLabels (env : Env) (o : InstallOpts) : BuildInfoLabels :=
  ⟨o.service, o.version, o.commit.getD env.detectedCommit, env.startedAt⟩

/-- `registerNodeDefaultMetrics`: the state afterwards, and whether it threw. -/
def registerNodeDefaultMetrics (labelsThrow metricsThrow : Bool) (service : String) (p : Proc) :
    Proc × Bool :=
  if labelsThrow then (p, true)
  else
    let p := { p with defaultLabel := some service }
    if p.defaultMetricsRegistered then (p, false)
    else ({ p with defaultMetricsRegistered := true }, metricsThrow)

/-- The process-wide part of the `catch` block: the records are there as far as the `try` block
came, and `pre` is the service that was read before it. -/
def rollback (pre : Option String) (collectorState : Option RollbackState)
    (labels : Option (BuildInfoLabels × Bool)) (p : Proc) : Proc :=
  let p := match labels with
    | some (l, wasNew) => { p with buildInfo := unregisterBuildInfoIfOwned l wasNew p.buildInfo }
    | none => p
  let p := match collectorState with
    | some state => { p with process := restoreProcessCollector state p.process }
    | none => p
  { p with service := setService pre }

/-- The process after the service and the process collector are set. -/
def Proc.named (p : Proc) (service : String) (process : ProcessState) : Proc :=
  { p with service := setService (some service), process }

/-- What an install leaves: the process, the framework's state, and whether it threw. -/
structure Installed (α : Type) where
  proc : Proc
  app : α
  raised : Bool

section InstallOn

variable {α ω : Type}

/-- The process metric whose constructor a fault makes throw. -/
def Fault.metric? : Option (Fault ω) → Option ProcessMetric
  | some (.registerProcessCollector metric) => some metric
  | _ => none

/-- The place in the wiring that a fault makes throw. -/
def Fault.wire? : Option (Fault ω) → Option ω
  | some (.wire place) => some place
  | _ => none

/-- A fault with a place in the wiring is the one at that place. -/
theorem Fault.eq_wire {fault : Option (Fault ω)} {place : ω} (h : Fault.wire? fault = some place) :
    fault = some (.wire place) := by
  unfold Fault.wire? at h
  split at h
  · rw [Option.some.inj h]
  · cases h

/-- A fault with a metric is the one in its constructor. -/
theorem Fault.eq_collector {fault : Option (Fault ω)} {metric : ProcessMetric}
    (h : Fault.metric? fault = some metric) : fault = some (.registerProcessCollector metric) := by
  unfold Fault.metric? at h
  split at h
  · rw [Option.some.inj h]
  · cases h

variable [DecidableEq ω]

/-- The common body of `installExpress`, `installHono` and `installNext`. -/
def installOn (ad : Adapter α ω) (env : Env) (o : InstallOpts) (fault : Option (Fault ω))
    (p : Proc) (app : α) : Installed α :=
  if ad.installed app then ⟨p, app, false⟩
  else
    let pre := p.service
    if fault = some .setService then ⟨rollback pre none none p, ad.unwire app, true⟩
    else
      match registerProcessCollector (Fault.metric? fault) o.service p.process with
      | (process, none) =>
        ⟨rollback pre none none (p.named o.service process), ad.unwire app, true⟩
      | (process, some state) =>
        match registerNodeDefaultMetrics (fault = some .setDefaultLabels)
            (fault = some .collectDefaultMetrics) o.service (p.named o.service process) with
        | (p, true) => ⟨rollback pre (some state) none p, ad.unwire app, true⟩
        | (p, false) =>
          let labels := buildInfoLabels env o
          if fault = some .registerBuildInfo then
            -- `buildInfoWasNew` still has its initial value.
            ⟨rollback pre (some state) (some (labels, false)) p, ad.unwire app, true⟩
          else
            let (buildInfo, wasNew) := registerBuildInfo labels p.buildInfo
            let p := { p with buildInfo }
            match ad.wire o (Fault.wire? fault) app with
            | (wired, true) => ⟨rollback pre (some state) (some (labels, wasNew)) p, wired, true⟩
            | (wired, false) => ⟨p, wired, false⟩

end InstallOn

/-! ## The identity of the process -/

/-- What other code reads as the identity of the process: the service, the service under which the
process collector reports, the default label, and the samples of the build info with their
ownership set. -/
structure Identity where
  service : Option String
  collector : Option String
  defaultLabel : Option String
  buildInfo : BuildInfo
deriving DecidableEq

/-- The identity of the process. -/
def Proc.identity (p : Proc) : Identity :=
  ⟨p.service, p.process.reporting, p.defaultLabel, p.buildInfo⟩

/-- The states of the process that installs leave. -/
structure Proc.Inv (p : Proc) : Prop where
  /-- The service is none or trimmed. -/
  service : Trimmed isSpace p.service
  /-- A registered collector has a service. -/
  process : p.process.Named
  /-- The owned keys are those of the label sets that have a sample. -/
  buildInfo : p.buildInfo.Owned

/-- A fresh process satisfies the invariant. -/
theorem Proc.inv_fresh : Proc.fresh.Inv where
  service := by
    intro s hs
    cases hs
  process := by
    intro hreg
    cases hreg
  buildInfo := rfl

/-- `registerNodeDefaultMetrics` changes the default label, unless `setDefaultLabels` throws, and
nothing else but its own flag. -/
theorem registerNodeDefaultMetrics_frame {labelsThrow metricsThrow thrown : Bool} {service : String}
    {p q : Proc}
    (h : registerNodeDefaultMetrics labelsThrow metricsThrow service p = (q, thrown)) :
    q.service = p.service ∧ q.process = p.process ∧ q.buildInfo = p.buildInfo ∧
      q.defaultLabel = if labelsThrow then p.defaultLabel else some service := by
  unfold registerNodeDefaultMetrics at h
  dsimp only at h
  split_ifs at h ⊢ with hl hreg
  all_goals
    obtain ⟨rfl, -⟩ := Prod.mk.inj h
    exact ⟨rfl, rfl, rfl, rfl⟩

/-- `registerNodeDefaultMetrics` throws in one of its two calls. -/
theorem registerNodeDefaultMetrics_thrown {labelsThrow metricsThrow : Bool} {service : String}
    {p q : Proc} (h : registerNodeDefaultMetrics labelsThrow metricsThrow service p = (q, true)) :
    labelsThrow = true ∨ labelsThrow = false ∧ metricsThrow = true := by
  unfold registerNodeDefaultMetrics at h
  dsimp only at h
  split_ifs at h with hl hreg
  · exact Or.inl hl
  · cases h
  · exact Or.inr ⟨by simpa using hl, (Prod.mk.inj h).2⟩

section Outcome

variable {α ω : Type} [DecidableEq ω] (ad : Adapter α ω) (env : Env) (o : InstallOpts)
  (fault : Option (Fault ω)) (p : Proc) (app : α)

/-- The ways an install can go, each with what it leaves. -/
inductive Outcome : Installed α → Prop where
  | alreadyInstalled : ad.installed app = true → Outcome ⟨p, app, false⟩
  | serviceThrew : fault = some .setService →
      Outcome ⟨rollback p.service none none p, ad.unwire app, true⟩
  | collectorThrew (process : ProcessState) :
      registerProcessCollector (Fault.metric? fault) o.service p.process = (process, none) →
      Outcome ⟨rollback p.service none none (p.named o.service process), ad.unwire app, true⟩
  | defaultsThrew (process : ProcessState) (state : RollbackState) (q : Proc) :
      registerProcessCollector (Fault.metric? fault) o.service p.process = (process, some state) →
      registerNodeDefaultMetrics (fault = some .setDefaultLabels)
        (fault = some .collectDefaultMetrics) o.service (p.named o.service process) = (q, true) →
      Outcome ⟨rollback p.service (some state) none q, ad.unwire app, true⟩
  | buildInfoThrew (process : ProcessState) (state : RollbackState) (q : Proc) :
      registerProcessCollector (Fault.metric? fault) o.service p.process = (process, some state) →
      registerNodeDefaultMetrics (fault = some .setDefaultLabels)
        (fault = some .collectDefaultMetrics) o.service (p.named o.service process) = (q, false) →
      fault = some .registerBuildInfo →
      Outcome ⟨rollback p.service (some state) (some (buildInfoLabels env o, false)) q,
        ad.unwire app, true⟩
  | wireThrew (process : ProcessState) (state : RollbackState) (q : Proc) (place : ω) (wired : α) :
      registerProcessCollector (Fault.metric? fault) o.service p.process = (process, some state) →
      registerNodeDefaultMetrics (fault = some .setDefaultLabels)
        (fault = some .collectDefaultMetrics) o.service (p.named o.service process) = (q, false) →
      fault = some (.wire place) → ad.wire o (some place) app = (wired, true) →
      Outcome ⟨rollback p.service (some state)
        (some (buildInfoLabels env o, (registerBuildInfo (buildInfoLabels env o) q.buildInfo).2))
        { q with buildInfo := (registerBuildInfo (buildInfoLabels env o) q.buildInfo).1 },
        wired, true⟩
  | succeeded (process : ProcessState) (state : RollbackState) (q : Proc) (wired : α) :
      ad.installed app = false →
      registerProcessCollector (Fault.metric? fault) o.service p.process = (process, some state) →
      registerNodeDefaultMetrics (fault = some .setDefaultLabels)
        (fault = some .collectDefaultMetrics) o.service (p.named o.service process) = (q, false) →
      ad.wire o (Fault.wire? fault) app = (wired, false) →
      Outcome ⟨{ q with buildInfo := (registerBuildInfo (buildInfoLabels env o) q.buildInfo).1 },
        wired, false⟩

/-- Every install goes one of these ways. -/
theorem outcome_installOn : Outcome ad env o fault p app (installOn ad env o fault p app) := by
  unfold installOn
  dsimp only
  split_ifs with hinst hset hbi
  · exact .alreadyInstalled hinst
  · exact .serviceThrew hset
  all_goals
    rcases hreg : registerProcessCollector (Fault.metric? fault) o.service p.process
      with ⟨process, _ | state⟩
    · exact .collectorThrew process hreg
    dsimp only
    rcases hdef : registerNodeDefaultMetrics (fault = some .setDefaultLabels)
      (fault = some .collectDefaultMetrics) o.service (p.named o.service process)
      with ⟨q, _ | _⟩
    rotate_left
    · exact .defaultsThrew process state q hreg hdef
  · exact .buildInfoThrew process state q hreg hdef hbi
  · rcases hwire : ad.wire o (Fault.wire? fault) app with ⟨wired, _ | _⟩
    · exact .succeeded process state q wired (by simpa using hinst) hreg hdef hwire
    · obtain ⟨place, hplace⟩ : ∃ place, Fault.wire? fault = some place := by
        -- Without a fault the wiring would have returned.
        rcases hfault : Fault.wire? fault with _ | place
        · have hret := ad.returns o app
          rw [hfault] at hwire
          rw [hwire] at hret
          cases hret
        · exact ⟨place, rfl⟩
      rw [hplace] at hwire
      exact .wireThrew process state q place wired hreg hdef (Fault.eq_wire hplace) hwire

end Outcome

/-! ## What a failed install leaves of the identity -/

/-- The build info after the rollback, by the record of its registration. -/
def undoBuildInfo (labels : Option (BuildInfoLabels × Bool)) (s : BuildInfo) : BuildInfo :=
  match labels with
  | some (l, wasNew) => unregisterBuildInfoIfOwned l wasNew s
  | none => s

/-- The rollback gives the service and the collector back; it leaves the default label. -/
theorem identity_rollback {fault : Option ProcessMetric} {service : String} {p q : Proc}
    {process : ProcessState} {state : RollbackState} (hp : p.Inv)
    (hreg : registerProcessCollector fault service p.process = (process, some state))
    (hq : q.process = process) (labels : Option (BuildInfoLabels × Bool)) :
    (rollback p.service (some state) labels q).identity =
      ⟨p.service, p.process.reporting, q.defaultLabel, undoBuildInfo labels q.buildInfo⟩ := by
  have hservice : setService p.service = p.service := setServiceBy_restore isSpace hp.service
  have hreport := reporting_restore hp.process hreg
  subst hq
  rcases labels with _ | ⟨l, wasNew⟩
  · simp [rollback, Proc.identity, undoBuildInfo, hservice, hreport]
  · simp [rollback, Proc.identity, undoBuildInfo, hservice, hreport]

/-- The rollback leaves the invariant. -/
theorem inv_rollback (pre : Option String) (state : RollbackState)
    (labels : Option (BuildInfoLabels × Bool)) {q : Proc} (hnamed : q.process.Named)
    (howned : (undoBuildInfo labels q.buildInfo).Owned) :
    (rollback pre (some state) labels q).Inv := by
  refine ⟨setServiceBy_trimmed isSpace pre, ?_, ?_⟩
  · rcases labels with _ | ⟨l, wasNew⟩
    · exact named_restore state hnamed
    · exact named_restore state hnamed
  · rcases labels with _ | ⟨l, wasNew⟩
    · exact howned
    · exact howned

/-- A state with the service and the collector of `p` has its identity when the default label and
the build info agree too. -/
theorem identity_eq_iff (p : Proc) (label : Option String) (buildInfo : BuildInfo) :
    Identity.mk p.service p.process.reporting label buildInfo = p.identity ↔
      label = p.defaultLabel ∧ buildInfo = p.buildInfo := by
  simp [Proc.identity]

section Restorable

variable {α ω : Type} [DecidableEq ω]

/-- The condition under which a failed install gives the identity back: it throws before the default
label is set, and not in a constructor of the process metrics; or the default label is the service
already, and, if the wiring threw, the label set of the build info is not one that was added under
an owned key. -/
def Restorable (env : Env) (o : InstallOpts) (fault : Option (Fault ω)) (p : Proc) : Prop :=
  match fault with
  | some .setService => True
  | some .setDefaultLabels => True
  | some (.registerProcessCollector _) => False
  | some (.wire _) =>
    p.defaultLabel = some o.service ∧
      (labelKey (buildInfoLabels env o) ∉ p.buildInfo.owned ∨
        buildInfoLabels env o ∈ p.buildInfo.samples)
  | _ => p.defaultLabel = some o.service

variable {ad : Adapter α ω} {env : Env} {o : InstallOpts} {fault : Option (Fault ω)} {p : Proc}
  {app : α}

/-- An install that returns on an app without its sentinel has taken every step. -/
theorem steps_of_returned (hclear : ad.installed app = false)
    (hreturned : (installOn ad env o fault p app).raised = false) :
    ∃ process state q wired,
      registerProcessCollector (Fault.metric? fault) o.service p.process = (process, some state) ∧
      registerNodeDefaultMetrics (fault = some .setDefaultLabels)
        (fault = some .collectDefaultMetrics) o.service (p.named o.service process) = (q, false) ∧
      ad.wire o (Fault.wire? fault) app = (wired, false) ∧
      installOn ad env o fault p app =
        ⟨{ q with buildInfo := (registerBuildInfo (buildInfoLabels env o) q.buildInfo).1 }, wired,
          false⟩ := by
  have hout := outcome_installOn ad env o fault p app
  generalize installOn ad env o fault p app = r at hout hreturned ⊢
  cases hout with
  | alreadyInstalled hinst =>
    rw [hclear] at hinst
    cases hinst
  | succeeded process state q wired hinst hreg hdef hwire =>
    exact ⟨process, state, q, wired, hreg, hdef, hwire, rfl⟩
  | serviceThrew => cases hreturned
  | collectorThrew => cases hreturned
  | defaultsThrew => cases hreturned
  | buildInfoThrew => cases hreturned
  | wireThrew => cases hreturned

/-- The identity of the process that an install leaves when it returns. -/
theorem identity_of_returned (hclear : ad.installed app = false)
    (hreturned : (installOn ad env o fault p app).raised = false) :
    (installOn ad env o fault p app).proc.identity =
      ⟨setService (some o.service), some o.service, some o.service,
        (registerBuildInfo (buildInfoLabels env o) p.buildInfo).1⟩ := by
  obtain ⟨process, state, q, wired, hreg, hdef, -, hinstall⟩ := steps_of_returned hclear hreturned
  obtain ⟨hservice, hproc, hbuild, hlabel⟩ := registerNodeDefaultMetrics_frame hdef
  have hreport : process.reporting = some o.service := by
    have h := reporting_register (Fault.metric? fault) o.service p.process
    rw [hreg] at h
    exact h
  have hlabel' : q.defaultLabel = some o.service := by
    -- A `setDefaultLabels` that throws would not have returned.
    by_cases hthrow : fault = some .setDefaultLabels
    · simp [registerNodeDefaultMetrics, hthrow] at hdef
    · rw [hlabel, if_neg (by simpa using hthrow)]
  have hproc' : q.process = process := hproc
  have hbuild' : q.buildInfo = p.buildInfo := hbuild
  have hservice' : q.service = setService (some o.service) := hservice
  rw [hinstall]
  simp only [Proc.identity, hproc', hbuild', hservice', hlabel', hreport]

/-- Every install keeps the invariant of the process-wide state. -/
theorem inv_installOn (hp : p.Inv) : (installOn ad env o fault p app).proc.Inv := by
  have hout := outcome_installOn ad env o fault p app
  have htrim : ∀ s, Trimmed isSpace (setService s) := setServiceBy_trimmed isSpace
  have hnamed := named_register (Fault.metric? fault) o.service p.process
  generalize installOn ad env o fault p app = r at hout ⊢
  cases hout with
  | alreadyInstalled => exact hp
  | serviceThrew =>
    -- Whatever an attempt left, the service is trimmed, as `setService` trims it.
    exact ⟨htrim p.service, hp.process, hp.buildInfo⟩
  | collectorThrew process hreg =>
    rw [hreg] at hnamed
    exact ⟨htrim p.service, hnamed, hp.buildInfo⟩
  | defaultsThrew process state q hreg hdef =>
    obtain ⟨-, hproc, hbuild, -⟩ := registerNodeDefaultMetrics_frame hdef
    rw [hreg, ← show q.process = process from hproc] at hnamed
    exact inv_rollback p.service state none hnamed (hbuild ▸ hp.buildInfo)
  | buildInfoThrew process state q hreg hdef =>
    obtain ⟨-, hproc, hbuild, -⟩ := registerNodeDefaultMetrics_frame hdef
    rw [hreg, ← show q.process = process from hproc] at hnamed
    have howned : q.buildInfo.Owned := hbuild ▸ hp.buildInfo
    exact inv_rollback p.service state (some (buildInfoLabels env o, false)) hnamed howned
  | wireThrew process state q place wired hreg hdef =>
    -- The rollback takes the label set away only if the attempt has added it.
    obtain ⟨-, hproc, hbuild, -⟩ := registerNodeDefaultMetrics_frame hdef
    rw [hreg, ← show q.process = process from hproc] at hnamed
    have howned : q.buildInfo.Owned := hbuild ▸ hp.buildInfo
    refine inv_rollback p.service state (some (buildInfoLabels env o,
      (registerBuildInfo (buildInfoLabels env o) q.buildInfo).2)) ?_ ?_
    · exact hnamed
    · exact owned_unregister_register (buildInfoLabels env o) howned
  | succeeded process state q wired hinst hreg hdef =>
    obtain ⟨hservice, hproc, hbuild, -⟩ := registerNodeDefaultMetrics_frame hdef
    rw [hreg, ← show q.process = process from hproc] at hnamed
    have howned : q.buildInfo.Owned := hbuild ▸ hp.buildInfo
    refine ⟨?_, hnamed, owned_register _ howned⟩
    show Trimmed isSpace q.service
    rw [hservice]
    exact htrim (some o.service)

/-- An install that throws gives the identity of the process back exactly under the condition. -/
theorem identity_of_raised_iff (hp : p.Inv)
    (hraised : (installOn ad env o fault p app).raised = true) :
    (installOn ad env o fault p app).proc.identity = p.identity ↔ Restorable env o fault p := by
  have hout := outcome_installOn ad env o fault p app
  generalize installOn ad env o fault p app = r at hout hraised ⊢
  cases hout with
  | alreadyInstalled => cases hraised
  | serviceThrew hfault =>
    subst hfault
    have hservice : setService p.service = p.service := setServiceBy_restore isSpace hp.service
    refine iff_of_true ?_ trivial
    simp [rollback, Proc.identity, hservice]
  | collectorThrew process hreg =>
    obtain ⟨-, metric, hmetric⟩ := unregistered_of_thrown hreg
    have hreport := reporting_of_thrown hreg
    rw [Fault.eq_collector hmetric]
    -- No rollback state was returned, so the collector still reports under the service.
    refine iff_of_false ?_ id
    intro hid
    exact hreport (congrArg Identity.collector hid)
  | defaultsThrew process state q hreg hdef =>
    obtain ⟨-, hproc, hbuild, hlabel⟩ := registerNodeDefaultMetrics_frame hdef
    dsimp only
    rw [identity_rollback hp hreg hproc none, identity_eq_iff]
    -- The default label was not set, or it was and stays.
    rcases registerNodeDefaultMetrics_thrown hdef with hl | ⟨hl, hm⟩
    · obtain rfl := of_decide_eq_true hl
      refine iff_of_true ⟨?_, hbuild⟩ trivial
      exact hlabel.trans (if_pos (by simp))
    · obtain rfl := of_decide_eq_true hm
      rw [hlabel, if_neg (by simp)]
      exact ⟨fun h => h.1.symm, fun h => ⟨h.symm, hbuild⟩⟩
  | buildInfoThrew process state q hreg hdef hfault =>
    subst hfault
    obtain ⟨-, hproc, hbuild, hlabel⟩ := registerNodeDefaultMetrics_frame hdef
    dsimp only
    rw [identity_rollback hp hreg hproc _, identity_eq_iff, hlabel, if_neg (by simp)]
    exact ⟨fun h => h.1.symm, fun h => ⟨h.symm, hbuild⟩⟩
  | wireThrew process state q place wired hreg hdef hfault hwire =>
    subst hfault
    obtain ⟨-, hproc, hbuild, hlabel⟩ := registerNodeDefaultMetrics_frame hdef
    have hundo := unregister_register_iff (buildInfoLabels env o) hp.buildInfo
    have hbuild' : q.buildInfo = p.buildInfo := hbuild
    have hproc' : Proc.process { q with
        buildInfo := (registerBuildInfo (buildInfoLabels env o) q.buildInfo).1 } = process := hproc
    dsimp only
    rw [identity_rollback hp hreg hproc' _, identity_eq_iff]
    -- What is left is the default label, and the build info by its ownership.
    dsimp only [undoBuildInfo]
    rw [hlabel, if_neg (by simp), hbuild', hundo]
    exact ⟨fun h => ⟨h.1.symm, h.2⟩, fun h => ⟨h.1.symm, h.2⟩⟩
  | succeeded => cases hraised

end Restorable

end SimsysMetrics.Node
