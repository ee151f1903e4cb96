import SimsysMetrics.Go.Middleware
import SimsysMetrics.Identity
import SimsysMetrics.Lib.Runs
import SimsysMetrics.ProcessScrapes
import SimsysMetrics.Service

/-!
# `Install` of the Go lane on one registry

`Install` of `go/metrics.go` returns a handle. A second one on the same registry reuses the vectors
and the process collector that are registered (`registerOrExistingWithStatus` of `go/registry.go`),
and writes no second build info. `recordServiceIdentity` of `go/service_identity.go` remembers the
first service, and warns about another one.

The comments there say that the reused collectors keep emitting under the first service. The process
collector does. But a vector is written under the service of the handle that writes, and a second
`Install` under another service at once initialises `simsys_scrape_errors_total` under it. So all
samples but the build info carry the first service exactly when every `Install` that is accepted
names it (`all_samples_first_iff`); `second_install_splits_registry` is a run where they do not.

The registry holds no collector of another library with one of these names: then `Register` answers
only with the existing collector, and nothing panics.
-/

namespace SimsysMetrics.Go

/-! ## The registry -/

/-- `registerOrExistingWithStatus`: the registered collector, whether it is the given one, and what
is registered now. -/
def registerOrExistingWithStatus {T : Type} (sameDescs : T → T → Bool) (registered : List T)
    (c : T) : (T × Bool) × List T :=
  match registered.find? (sameDescs c) with
  | some existing => ((existing, false), registered)
  | none => ((c, true), registered ++ [c])

/-- A vector of a family; the identity tells two objects apart. -/
structure Vec where
  family : Family
  id : ℕ
deriving DecidableEq, Repr

/-- Vectors of one family have equal descriptors. -/
def Vec.sameDescs (v v' : Vec) : Bool := v.family = v'.family

/-- `simsysProcessCollector`, without the process that it reads. -/
structure SimsysProcessCollector where
  service : String
deriving DecidableEq, Repr

/-- The collectors of this library in a `prometheus.Registry`. -/
structure Registry where
  vecs : List Vec
  processCollectors : List SimsysProcessCollector
deriving DecidableEq, Repr

/-- What is registered stays, and the collector that is handed out is registered. -/
theorem registerOrExisting_spec {T : Type} (sameDescs : T → T → Bool) (registered : List T)
    (c : T) :
    let r := registerOrExistingWithStatus sameDescs registered c
    registered ⊆ r.2 ∧ r.1.1 ∈ r.2 ∧ (r.1.1 = c ∨ sameDescs c r.1.1 = true) ∧
      ∀ c' ∈ r.2, c' ∈ registered ∨ c' = c := by
  unfold registerOrExistingWithStatus
  cases hfind : registered.find? (sameDescs c) with
  | some existing =>
    exact ⟨List.Subset.refl _, List.mem_of_find?_eq_some hfind, Or.inr (List.find?_some hfind),
      fun c' hc' => Or.inl hc'⟩
  | none =>
    refine ⟨List.subset_append_left _ _, List.mem_append_right _ List.mem_cons_self, Or.inl rfl, ?_⟩
    intro c' hc'
    exact (List.mem_append.mp hc').imp_right List.mem_singleton.mp

/-! ## The service identity of a registry -/

/-- What is kept for a registry: its entry of `registryService`, the services that
`registryServiceWarned` has for it, and what was logged. -/
structure ServiceIdentity where
  service : Option String
  warned : Finset String
  log : List ServiceLog
deriving DecidableEq

/-- `recordServiceIdentity`. -/
def recordServiceIdentity (service : String) (i : ServiceIdentity) : String × ServiceIdentity :=
  match i.service with
  | none => (service, { i with service := some service })
  | some prior =>
    if prior = service ∨ service ∈ i.warned then (prior, i)
    else
      (prior,
        { i with
          warned := insert service i.warned
          log := i.log ++ [.identityChange prior service] })

/-- The first service stays. -/
theorem service_recordServiceIdentity (service : String) (i : ServiceIdentity) :
    (recordServiceIdentity service i).2.service = i.service.or (some service) := by
  unfold recordServiceIdentity
  cases hservice : i.service with
  | none => rfl
  | some prior =>
    dsimp only
    split_ifs <;> simp [hservice]

/-! ## `Install` -/

/-- `InstallOpts`, without the registry. -/
structure InstallOpts where
  service : String
  version : String
  commit : String
deriving DecidableEq, Repr

/-- What the runtime supplies to an install: what `detectCommit` returns, and the time it starts. -/
structure Env where
  detectedCommit : String
  startedAt : String
deriving DecidableEq, Repr

/-- The text of `ErrInvalidInstallOpts`. -/
def errInvalidInstallOpts : String :=
  "simsys-metrics: Install requires non-empty Service and Version"

/-- `Metrics`, the handle that `Install` returns: its service and the vectors that it writes. -/
structure Metrics where
  service : String
  vecs : List Vec
deriving DecidableEq, Repr

/-- The families that `Install` makes after `simsys_build_info`, in order. -/
def baselineFamilies : List Family :=
  [.httpRequestsTotal, .httpRequestDurationSeconds, .queueDepth, .collectorErrorsTotal, .jobsTotal,
    .jobDurationSeconds, .progressProcessedTotal, .progressRemaining, .progressRatePerSecond,
    .progressEstimatedCompletionTimestamp, .poolActive, .poolIdle, .poolWaiting, .poolMax,
    .scrapeErrorsTotal, .scrapeDurationSeconds]

/-- `MakeCounter`, `MakeGauge` and `MakeHistogram` for some families in order. Each constructs a
vector; `next` is the identity of the first one. -/
def makeVecs (next : ℕ) : List Family → List Vec → List Vec × List Vec
  | [], registered => ([], registered)
  | f :: fs, registered =>
    let r := registerOrExistingWithStatus Vec.sameDescs registered ⟨f, next⟩
    let rest := makeVecs (next + 1) fs r.2
    (r.1.1 :: rest.1, rest.2)

/-- The registered vector has the family of the given one. -/
theorem family_registered (registered : List Vec) (v : Vec) :
    (registerOrExistingWithStatus Vec.sameDescs registered v).1.1.family = v.family := by
  obtain ⟨-, -, heq | hsame, -⟩ := registerOrExisting_spec Vec.sameDescs registered v
  · rw [heq]
  · exact (of_decide_eq_true hsame).symm

/-- What is registered stays. The vectors that are made are registered, one for each family. -/
theorem makeVecs_spec (fs : List Family) (next : ℕ) (registered : List Vec) :
    let r := makeVecs next fs registered
    registered ⊆ r.2 ∧ r.1 ⊆ r.2 ∧ r.1.map (·.family) = fs := by
  induction fs generalizing next registered with
  | nil => exact ⟨List.Subset.refl _, List.nil_subset _, rfl⟩
  | cons f fs ih =>
    obtain ⟨hkeep, hmem, -, -⟩ := registerOrExisting_spec Vec.sameDescs registered ⟨f, next⟩
    obtain ⟨hrest, hheld, hfamilies⟩ :=
      ih (next + 1) (registerOrExistingWithStatus Vec.sameDescs registered ⟨f, next⟩).2
    exact ⟨fun v hv => hrest (hkeep hv), List.cons_subset.mpr ⟨hrest hmem, hheld⟩,
      List.cons_eq_cons.mpr ⟨family_registered registered ⟨f, next⟩, hfamilies⟩⟩

/-- A child of a vector: its `service` label; the other labels are left out. -/
structure Child where
  vec : Vec
  service : String
deriving DecidableEq, Repr

/-- A tracker that a handle started. -/
structure Tracker where
  kind : TrackerKind
  m : Metrics
deriving DecidableEq, Repr

/-- A registry with all that its handles do: how many vectors were constructed for it, the children
of the vectors, those of the build info with all their labels, the handles and the trackers. -/
structure State where
  registry : Registry
  constructed : ℕ
  children : Finset Child
  buildInfo : Finset (Vec × BuildInfoLabels)
  identity : ServiceIdentity
  handles : List Metrics
  trackers : List Tracker

/-- A registry on which nothing was installed. -/
def State.fresh : State := ⟨⟨[], []⟩, 0, ∅, ∅, ⟨none, ∅, []⟩, [], []⟩

/-- `WithLabelValues` on the vectors of a handle, for the samples that it writes. -/
def State.write (s : State) (m : Metrics) (ws : Finset Written) : State :=
  { s with
    children := s.children ∪
      ((m.vecs.toFinset ×ˢ ws).filter fun (v, w) => v.family = w.family).image
        fun (v, w) => ⟨v, w.service⟩ }

/-- `WithLabelValues` on the vector of the build info. -/
def State.setBuildInfo (s : State) (v : Vec) (labels : BuildInfoLabels) : State :=
  { s with buildInfo := insert (v, labels) s.buildInfo }

/-- The handle is returned. -/
def State.addHandle (s : State) (m : Metrics) : State := { s with handles := s.handles ++ [m] }

/-- The service and the version of options that `Install` accepts, trimmed. -/
def InstallOpts.accepted (o : InstallOpts) : Option (String × String) :=
  let service := trimSpace o.service
  let version := trimSpace o.version
  if service = "" ∨ version = "" then none else some (service, version)

/-- What `Install` registers: the handle, its vector of the build info and whether it is new, and
the registry. -/
structure Registered where
  m : Metrics
  buildInfo : Vec
  isNew : Bool
  registry : Registry
deriving DecidableEq, Repr

/-- The part of `Install` that registers, for a trimmed service; `next` is the identity of the first
vector that is constructed. -/
def registerBaseline (service : String) (next : ℕ) (registry : Registry) : Registered :=
  let b := registerOrExistingWithStatus Vec.sameDescs registry.vecs ⟨.buildInfo, next⟩
  let r := makeVecs (next + 1) baselineFamilies b.2
  let p := registerOrExistingWithStatus (fun _ _ => true) registry.processCollectors ⟨service⟩
  ⟨⟨service, b.1.1 :: r.1⟩, b.1.1, b.1.2, ⟨r.2, p.2⟩⟩

/-- The state after the identity of an install is recorded, and its collectors are registered. -/
def State.register (s : State) (service : String) (registry : Registry) : State :=
  { s with
    registry
    constructed := s.constructed + 1 + baselineFamilies.length
    identity := (recordServiceIdentity service s.identity).2 }

/-- `Install` with accepted options, trimmed. -/
def installAccepted (env : Env) (commit service version : String) (s : State) : Metrics × State :=
  let r := registerBaseline service s.constructed s.registry
  -- The error counter is initialised to 0 under the service of this call.
  let t := (s.register service r.registry).write r.m (samplesOf {.scrapeErrorsTotal} {service})
  let commit := if commit = "" then env.detectedCommit else commit
  let labels : BuildInfoLabels := ⟨service, version, commit, env.startedAt⟩
  (r.m, (if r.isNew then t.setBuildInfo r.buildInfo labels else t).addHandle r.m)

/-- `Install`. -/
def install (env : Env) (o : InstallOpts) (s : State) : Except String Metrics × State :=
  match o.accepted with
  | none => (.error errInvalidInstallOpts, s)
  | some (service, version) =>
    let r := installAccepted env o.commit service version s
    (.ok r.1, r.2)

section Accepted

variable {env : Env} {o : InstallOpts} {s : State}

/-- An install with an empty service or version returns an error and changes nothing. -/
theorem install_rejected (h : o.accepted = none) :
    install env o s = (.error errInvalidInstallOpts, s) := by
  unfold install
  rw [h]

/-- An install with accepted options. -/
theorem install_accepted {service version : String} (h : o.accepted = some (service, version)) :
    install env o s = (.ok (installAccepted env o.commit service version s).1,
      (installAccepted env o.commit service version s).2) := by
  unfold install
  rw [h]

end Accepted

/-! ## What the handles do -/

/-- What happens on a registry, over the values that handlers panic with. -/
inductive Event (π : Type) where
  | install (env : Env) (o : InstallOpts)
  /-- A request through a middleware of a handle. -/
  | request (k : ℕ) (metricsPath : String) (r : Request) (calls : List Call) (ending : Ending π)
  /-- The end of a job of a handle. -/
  | job (k : ℕ)
  /-- A scrape through the metrics handler of a handle, with the errors of gathering. -/
  | scrape (k errors : ℕ)
  | start (k : ℕ) (kind : TrackerKind)
  /-- An event of the tracker that was started at this position. -/
  | tracker (k : ℕ) (event : TrackerEvent)

/-- The samples that a handle writes in an event, where it is the handle of it. -/
def Metrics.written {π : Type} (m : Metrics) : Event π → Finset Written
  | .request _ metricsPath r calls ending =>
    httpWritten (serveHTTP m.service (metricsPathOf metricsPath) r calls ending).observations
  | .job _ => samplesOf {.jobsTotal, .jobDurationSeconds} {m.service}
  | .scrape _ errors =>
    samplesOf (if errors = 0 then {.scrapeDurationSeconds}
      else {.scrapeErrorsTotal, .scrapeDurationSeconds}) {m.service}
  | .start _ kind => samplesOf (kind.families .started) {m.service}
  | .install _ _ | .tracker _ _ => ∅

/-- The state after a handle, if there is one at the position, writes its samples of an event. -/
def State.emit {π : Type} (s : State) (k : ℕ) (e : Event π) : State :=
  match s.handles[k]? with
  | some m => s.write m (m.written e)
  | none => s

/-- The state after a handle, if there is one at the position, starts a tracker. -/
def State.startTracker (s : State) (k : ℕ) (kind : TrackerKind) : State :=
  { s with trackers := s.trackers ++ s.handles[k]?.toList.map fun m => ⟨kind, m⟩ }

/-- The state after an event of a tracker, if there is one at the position. -/
def State.emitTracker (s : State) (k : ℕ) (event : TrackerEvent) : State :=
  match s.trackers[k]? with
  | some t => s.write t.m (samplesOf (t.kind.families event) {t.m.service})
  | none => s

/-- The state after an event. -/
def step {π : Type} (s : State) : Event π → State
  | .install env o => (install env o s).2
  | .start k kind => (s.emit k (.start k kind : Event π)).startTracker k kind
  | .tracker k event => s.emitTracker k event
  | .request k metricsPath r calls ending => s.emit k (.request k metricsPath r calls ending)
  | .job k => s.emit k (.job k : Event π)
  | .scrape k errors => s.emit k (.scrape k errors : Event π)

/-- The families of `simsysProcessCollector`. -/
def processFamilies : Finset Family :=
  {.processCpuSecondsTotal, .processMemoryBytes, .processOpenFds, .processThreads,
    .runtimeGoroutines, .runtimeGcCollectionsTotal, .runtimeGcPauseTotalSeconds}

/-- What a scrape gathers: the children of the registered vectors, and what the registered process
collectors collect. -/
def State.gathered (s : State) : Finset Written :=
  (s.children.filter (·.vec ∈ s.registry.vecs)).image (fun c => ⟨c.vec.family, c.service⟩) ∪
    (s.buildInfo.filter (·.1 ∈ s.registry.vecs)).image (fun b => ⟨b.1.family, b.2.service⟩) ∪
    samplesOf processFamilies (s.registry.processCollectors.map (·.service)).toFinset

/-! ## The samples carry the first service -/

/-- The service that an event installs, where it is an `Install` that is accepted. -/
def Event.installed {π : Type} : Event π → Option String
  | .install _ o => o.accepted.map (·.1)
  | _ => none

/-- The service of the first accepted `Install`. -/
def firstService {π : Type} (es : List (Event π)) : Option String :=
  (es.filterMap Event.installed).head?

/-- All children of the vectors, and all samples that a scrape gathers but the build info, carry the
first service. -/
def State.Carries (s : State) (first : Option String) : Prop :=
  (∀ c ∈ s.children, first = some c.service) ∧
    ∀ w ∈ s.gathered, w.family ≠ .buildInfo → first = some w.service

/-- What is kept of the services: they all meet `P`. The build info is left out. -/
structure State.Inv (P : String → Prop) (s : State) : Prop where
  children : ∀ c ∈ s.children, P c.service
  handles : ∀ m ∈ s.handles, P m.service
  trackers : ∀ t ∈ s.trackers, P t.m.service
  processCollectors : ∀ c ∈ s.registry.processCollectors, P c.service
  buildInfo : ∀ b ∈ s.buildInfo, b.1.family = .buildInfo

/-- A registry on which nothing was installed keeps no service. -/
theorem inv_fresh (P : String → Prop) : State.fresh.Inv P where
  children := by
    intro c hc
    cases hc
  handles := by
    intro m hm
    cases hm
  trackers := by
    intro t ht
    cases ht
  processCollectors := by
    intro c hc
    cases hc
  buildInfo := by
    intro b hb
    cases hb

section Write

variable {s : State} {m : Metrics} {ws : Finset Written} {P : String → Prop}

/-- A child after a write was there, or one of the samples makes it on a vector of the handle. -/
theorem mem_write {c : Child} : c ∈ (s.write m ws).children ↔
    c ∈ s.children ∨ ∃ v ∈ m.vecs, ∃ w ∈ ws, v.family = w.family ∧ ⟨v, w.service⟩ = c := by
  unfold State.write
  simp only [Finset.mem_union, Finset.mem_image, Finset.mem_filter, Finset.mem_product,
    List.mem_toFinset, Prod.exists]
  refine or_congr_right ⟨?_, ?_⟩
  · rintro ⟨v, w, ⟨⟨hv, hw⟩, hfamily⟩, hc⟩
    exact ⟨v, hv, w, hw, hfamily, hc⟩
  · rintro ⟨v, hv, w, hw, hfamily, hc⟩
    exact ⟨v, w, ⟨⟨hv, hw⟩, hfamily⟩, hc⟩

/-- Samples under such services keep the invariant. -/
theorem State.Inv.write (hs : s.Inv P) (hws : ∀ w ∈ ws, P w.service) : (s.write m ws).Inv P := by
  refine { hs with children := ?_ }
  intro c hc
  rcases mem_write.mp hc with hc | ⟨v, -, w, hw, -, rfl⟩
  · exact hs.children c hc
  · exact hws w hw

end Write

/-- The middleware records under the service of its handle. -/
theorem service_of_serveHTTP {π : Type} (service metricsPath : String) (r : Request)
    (calls : List Call) (ending : Ending π) :
    ∀ l ∈ (serveHTTP service metricsPath r calls ending).observations, l.service = service := by
  intro l hl
  unfold serveHTTP at hl
  by_cases hpath : r.path = metricsPath
  · simp [hpath] at hl
  · cases ending <;> simp only [if_neg hpath, List.mem_singleton] at hl <;> rw [hl] <;> rfl

/-- A handle writes under its service. -/
theorem service_of_written {π : Type} (m : Metrics) (e : Event π) :
    ∀ w ∈ m.written e, w.service = m.service := by
  cases e with
  | install | tracker =>
    intro w hw
    cases hw
  | request k metricsPath r calls ending =>
    refine service_of_httpWritten ?_
    intro l hl
    exact service_of_serveHTTP _ _ _ _ _ l hl
  | job | scrape | start => exact service_of_samplesOf

/-- A handle that writes its samples keeps the invariant. -/
theorem State.Inv.emit {π : Type} {P : String → Prop} {s : State} (hs : s.Inv P) (k : ℕ)
    (e : Event π) : (s.emit k e).Inv P := by
  unfold State.emit
  cases hk : s.handles[k]? with
  | none => exact hs
  | some m =>
    refine hs.write ?_
    intro w hw
    rw [service_of_written m e w hw]
    exact hs.handles m (List.mem_of_getElem? hk)

/-- A tracker that a handle starts keeps the invariant. -/
theorem State.Inv.startTracker {P : String → Prop} {s : State} (hs : s.Inv P) (k : ℕ)
    (kind : TrackerKind) : (s.startTracker k kind).Inv P := by
  refine { hs with trackers := ?_ }
  intro t ht
  rcases List.mem_append.mp ht with ht | ht
  · exact hs.trackers t ht
  · obtain ⟨m, hm, rfl⟩ := List.mem_map.mp ht
    exact hs.handles m (List.mem_of_getElem? (Option.mem_toList.mp hm))

/-- An event of a tracker keeps the invariant. -/
theorem State.Inv.emitTracker {P : String → Prop} {s : State} (hs : s.Inv P) (k : ℕ)
    (event : TrackerEvent) : (s.emitTracker k event).Inv P := by
  unfold State.emitTracker
  cases hk : s.trackers[k]? with
  | none => exact hs
  | some t =>
    refine hs.write ?_
    intro w hw
    rw [service_of_samplesOf w hw]
    exact hs.trackers t (List.mem_of_getElem? hk)

/-- A handle of a service that meets `P` keeps the invariant. -/
theorem State.Inv.addHandle {P : String → Prop} {s : State} (hs : s.Inv P) {m : Metrics}
    (hm : P m.service) : (s.addHandle m).Inv P := by
  refine { hs with handles := ?_ }
  intro m' hm'
  rcases List.mem_append.mp hm' with hm' | hm'
  · exact hs.handles m' hm'
  · rw [List.mem_singleton.mp hm']
    exact hm

/-- A build info on a vector of its family keeps the invariant. -/
theorem State.Inv.setBuildInfo {P : String → Prop} {s : State} (hs : s.Inv P) {v : Vec}
    (hv : v.family = .buildInfo) (labels : BuildInfoLabels) : (s.setBuildInfo v labels).Inv P := by
  refine { hs with buildInfo := ?_ }
  intro b hb
  rcases Finset.mem_insert.mp hb with rfl | hb
  · exact hv
  · exact hs.buildInfo b hb

/-- Process collectors of services that meet `P` keep the invariant. -/
theorem State.Inv.register {P : String → Prop} {s : State} (hs : s.Inv P) (service : String)
    {registry : Registry} (hregistry : ∀ c ∈ registry.processCollectors, P c.service) :
    (s.register service registry).Inv P :=
  ⟨hs.children, hs.handles, hs.trackers, hregistry, hs.buildInfo⟩

section Baseline

variable (service : String) (next : ℕ) (registry : Registry)

/-- The registered process collectors are those before, or the one of the service. -/
theorem mem_registerBaseline {c : SimsysProcessCollector}
    (hc : c ∈ (registerBaseline service next registry).registry.processCollectors) :
    c ∈ registry.processCollectors ∨ c.service = service := by
  obtain ⟨-, -, -, honly⟩ :=
    registerOrExisting_spec (fun _ _ => true) registry.processCollectors ⟨service⟩
  exact (honly c hc).imp_right (congrArg SimsysProcessCollector.service)

/-- The handle has a registered error counter. -/
theorem exists_scrapeErrors : ∃ v ∈ (registerBaseline service next registry).m.vecs,
    v.family = .scrapeErrorsTotal ∧ v ∈ (registerBaseline service next registry).registry.vecs := by
  unfold registerBaseline
  dsimp only
  generalize registerOrExistingWithStatus Vec.sameDescs registry.vecs ⟨.buildInfo, next⟩ = b
  obtain ⟨-, hheld, hfamilies⟩ := makeVecs_spec baselineFamilies (next + 1) b.2
  -- Generalized, so that nothing computes the vectors.
  generalize makeVecs (next + 1) baselineFamilies b.2 = r at hheld hfamilies ⊢
  have hmem : .scrapeErrorsTotal ∈ r.1.map (·.family) := by
    rw [hfamilies]
    decide
  obtain ⟨v, hv, hfamily⟩ := List.mem_map.mp hmem
  exact ⟨v, List.mem_cons_of_mem _ hv, hfamily, hheld hv⟩

end Baseline

section Install

variable {P : String → Prop} {s : State} (env : Env) (commit service version : String)

/-- An install that is accepted keeps the invariant if its service meets `P`. -/
theorem State.Inv.installAccepted (hs : s.Inv P) (hP : P service) :
    (installAccepted env commit service version s).2.Inv P := by
  unfold Go.installAccepted
  have hbuildInfo : (registerBaseline service s.constructed s.registry).buildInfo.family =
    .buildInfo := family_registered s.registry.vecs ⟨.buildInfo, s.constructed⟩
  have hservice : (registerBaseline service s.constructed s.registry).m.service = service := rfl
  have hcollectors := @mem_registerBaseline service s.constructed s.registry
  generalize registerBaseline service s.constructed s.registry = r
    at hbuildInfo hservice hcollectors ⊢
  have hm : P r.m.service := hservice ▸ hP
  have ht : ((s.register service r.registry).write r.m
      (samplesOf {.scrapeErrorsTotal} {service})).Inv P := by
    refine (hs.register service ?_).write ?_
    · intro c hc
      rcases hcollectors hc with hc | heq
      · exact hs.processCollectors c hc
      · rw [heq]
        exact hP
    · intro w hw
      rw [service_of_samplesOf w hw]
      exact hP
  by_cases hnew : r.isNew
  · simp only [if_pos hnew]
    exact (ht.setBuildInfo hbuildInfo _).addHandle hm
  · simp only [if_neg hnew]
    exact ht.addHandle hm

/-- An install that is accepted initialises a registered error counter under its service. -/
theorem mem_installAccepted : ∃ v : Vec, v.family = .scrapeErrorsTotal ∧
    v ∈ (installAccepted env commit service version s).2.registry.vecs ∧
    ⟨v, service⟩ ∈ (installAccepted env commit service version s).2.children := by
  unfold Go.installAccepted
  obtain ⟨v, hv, hfamily, hreg⟩ := exists_scrapeErrors service s.constructed s.registry
  generalize registerBaseline service s.constructed s.registry = r at hv hreg ⊢
  have hchild : ⟨v, service⟩ ∈ ((s.register service r.registry).write r.m
      (samplesOf {.scrapeErrorsTotal} {service})).children :=
    mem_write.mpr (Or.inr
      ⟨v, hv, ⟨.scrapeErrorsTotal, service⟩, mem_samplesOf.mpr (by simp), hfamily, rfl⟩)
  refine ⟨v, hfamily, ?_⟩
  by_cases hnew : r.isNew
  · simp only [if_pos hnew]
    exact ⟨hreg, hchild⟩
  · simp only [if_neg hnew]
    exact ⟨hreg, hchild⟩

/-- An install that is accepted records its service. -/
theorem identity_installAccepted :
    (installAccepted env commit service version s).2.identity =
      (recordServiceIdentity service s.identity).2 := by
  unfold Go.installAccepted
  generalize registerBaseline service s.constructed s.registry = r
  by_cases hnew : r.isNew
  · simp only [if_pos hnew]
    rfl
  · simp only [if_neg hnew]
    rfl

end Install

/-- An event keeps the invariant if the service that it installs, if any, meets `P`. -/
theorem State.Inv.step {π : Type} {P : String → Prop} {s : State} {e : Event π} (hs : s.Inv P)
    (hP : ∀ g, e.installed = some g → P g) : (Go.step s e).Inv P := by
  cases e with
  | install env o =>
    rw [Go.step]
    rcases ho : o.accepted with _ | ⟨service, version⟩
    · rw [install_rejected ho]
      exact hs
    · rw [install_accepted ho]
      refine hs.installAccepted env o.commit service version (hP service ?_)
      rw [Event.installed, ho]
      rfl
  | request | job | scrape => exact hs.emit _ _
  | start k kind => exact (hs.emit k _).startTracker k kind
  | tracker k event => exact hs.emitTracker k event

/-- A handle that writes its samples leaves the identity. -/
theorem identity_emit {π : Type} (s : State) (k : ℕ) (e : Event π) :
    (s.emit k e).identity = s.identity := by
  unfold State.emit
  cases s.handles[k]? <;> rfl

/-- The service of a registry is the first one that is installed. -/
theorem service_step {π : Type} (s : State) (e : Event π) :
    (step s e).identity.service = s.identity.service.or e.installed := by
  cases e with
  | install env o =>
    rw [step, Event.installed]
    rcases ho : o.accepted with _ | ⟨service, version⟩
    · rw [install_rejected ho, Option.map_none, Option.or_none]
    · rw [install_accepted ho, identity_installAccepted, service_recordServiceIdentity]
      rfl
  | request | job | scrape | start =>
    show (s.emit _ _).identity.service = s.identity.service.or none
    rw [identity_emit, Option.or_none]
  | tracker k event =>
    show (s.emitTracker k event).identity.service = s.identity.service.or none
    rw [Option.or_none]
    unfold State.emitTracker
    cases s.trackers[k]? <;> rfl

/-- After a run, the registry has the service that it had, or else the first one that the run
installs. -/
theorem service_run {π : Type} (s : State) (es : List (Event π)) :
    (Lib.run step s es).identity.service = s.identity.service.or (firstService es) := by
  induction es generalizing s with
  | nil => exact (Option.or_none).symm
  | cons e es ih =>
    show (Lib.run step (step s e) es).identity.service = _
    rw [ih, service_step, Option.or_assoc]
    congr 1
    unfold firstService
    cases he : e.installed with
    | none => rw [List.filterMap_cons_none he, Option.none_or]
    | some g =>
      rw [List.filterMap_cons_some he]
      rfl

/-- Where every service that a run installs meets `P`, so does every service that is kept. -/
theorem inv_run {π : Type} {P : String → Prop} {es : List (Event π)}
    (h : ∀ e ∈ es, ∀ g, e.installed = some g → P g) : (Lib.run step .fresh es).Inv P := by
  exact @Lib.invariant_run_of_mem _ _ step (State.Inv P) (fun e => ∀ g, e.installed = some g → P g)
    (fun _ _ hs he => hs.step he) _ (inv_fresh P) _ h

/-- What is gathered under the invariant carries a service that meets `P`. -/
theorem State.Inv.gathered {P : String → Prop} {s : State} (hs : s.Inv P) :
    ∀ w ∈ s.gathered, w.family ≠ .buildInfo → P w.service := by
  intro w hw hfamily
  rcases Finset.mem_union.mp hw with hw | hw
  · rcases Finset.mem_union.mp hw with hw | hw
    · obtain ⟨c, hc, rfl⟩ := Finset.mem_image.mp hw
      exact hs.children c (Finset.mem_of_mem_filter c hc)
    · obtain ⟨b, hb, rfl⟩ := Finset.mem_image.mp hw
      exact absurd (hs.buildInfo b (Finset.mem_of_mem_filter b hb)) hfamily
  · have hservice := List.mem_toFinset.mp (mem_samplesOf.mp hw).2
    obtain ⟨c, hc, heq⟩ := List.mem_map.mp hservice
    rw [← heq]
    exact hs.processCollectors c hc

/-- A child of a registered vector is gathered. -/
theorem State.mem_gathered {s : State} {c : Child} (hc : c ∈ s.children)
    (hvec : c.vec ∈ s.registry.vecs) : ⟨c.vec.family, c.service⟩ ∈ s.gathered := by
  refine Finset.mem_union_left _ (Finset.mem_union_left _ ?_)
  exact Finset.mem_image.mpr ⟨c, Finset.mem_filter.mpr ⟨hc, hvec⟩, rfl⟩

/-- After an accepted install, the error counter is gathered under its service. -/
theorem mem_gathered_of_installed {π : Type} (s : State) {e : Event π} {g : String}
    (hg : e.installed = some g) : ⟨.scrapeErrorsTotal, g⟩ ∈ (step s e).gathered := by
  cases e with
  | install env o =>
    obtain ⟨⟨service, version⟩, ho, rfl⟩ := Option.map_eq_some_iff.mp hg
    rw [step, install_accepted ho]
    obtain ⟨v, hfamily, hreg, hchild⟩ := @mem_installAccepted s env o.commit service version
    rw [← hfamily]
    exact State.mem_gathered hchild hreg
  | request | job | scrape | start | tracker => cases hg

/-- In every run on a registry, the recorded identity is the service of the first accepted install;
and all samples but the build info carry it throughout exactly when every accepted install names
it. -/
theorem all_samples_first_iff {π : Type} (es : List (Event π)) :
    (Lib.run step .fresh es).identity.service = firstService es ∧
      ((∀ pre, pre <+: es → (Lib.run step .fresh pre).Carries (firstService es)) ↔
        ∀ e ∈ es, ∀ g, e.installed = some g → firstService es = some g) := by
  refine ⟨service_run .fresh es, ?_, ?_⟩
  · intro h e he g hg
    obtain ⟨before, after, rfl⟩ := List.append_of_mem he
    have hpre : before ++ [e] <+: before ++ e :: after := ⟨after, by simp⟩
    refine (h _ hpre).2 ⟨.scrapeErrorsTotal, g⟩ ?_ Family.noConfusion
    rw [Lib.run_concat]
    exact mem_gathered_of_installed _ hg
  · intro h pre hpre
    have hinv := inv_run fun e he => h e (hpre.subset he)
    exact ⟨hinv.children, hinv.gathered⟩

/-- A second install names another service, and a job runs through its handle. -/
theorem second_install_splits_registry :
    let env : Env := ⟨"abc1234", "2026-08-05T00:00:00Z"⟩
    let es : List (Event Unit) :=
      [.install env ⟨"first", "1.0.0", ""⟩, .install env ⟨"second", "2.0.0", ""⟩, .job 1]
    let s := Lib.run step .fresh es
    firstService es = some "first" ∧ s.identity.log = [.identityChange "first" "second"] ∧
      ⟨.jobsTotal, "second"⟩ ∈ s.gathered ∧ ⟨.scrapeErrorsTotal, "second"⟩ ∈ s.gathered ∧
      ⟨.processCpuSecondsTotal, "first"⟩ ∈ s.gathered ∧ ¬ s.Carries (firstService es) := by
  refine ⟨by decide, by decide +kernel, by decide +kernel, by decide +kernel, by decide +kernel, ?_⟩
  intro h
  have hjob := h.2 ⟨.jobsTotal, "second"⟩ (by decide +kernel) (by decide)
  exact absurd hjob (by decide)

end SimsysMetrics.Go
