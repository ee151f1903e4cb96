import Mathlib.Data.Finset.Option
import Mathlib.Data.Finset.Prod
import SimsysMetrics.Pollers
import SimsysMetrics.Python.FastApi
import SimsysMetrics.Python.Flask
import SimsysMetrics.Node.Express
import SimsysMetrics.Node.Hono
import SimsysMetrics.Node.Next

/-!
# The service label after one install

What a process writes after one install returned: each sample carries a `service` label, which
reaches it in one of several ways. The trackers read the process-wide service, which is trimmed. The
middlewares close over the service that was given to the install, or read it from the app; the
process collector and the build info have it too, and it is trimmed in none of them.

`Surfaces` is what of an install reaches a sample, and `writtenBy` all samples of any activity
afterwards. They carry one service exactly where the given one has no white space at its ends
(`one_service_iff`).
-/

namespace SimsysMetrics

/-! ## What is written -/

/-- The samples of some families under some services. -/
def samplesOf (families : Finset Family) (services : Finset String) : Finset Written :=
  (families ×ˢ services).image fun w => ⟨w.1, w.2⟩

/-- A sample has one of the families and one of the services. -/
theorem mem_samplesOf {families : Finset Family} {services : Finset String} {w : Written} :
    w ∈ samplesOf families services ↔ w.family ∈ families ∧ w.service ∈ services := by
  constructor
  · intro hw
    obtain ⟨⟨f, s⟩, hmem, rfl⟩ := Finset.mem_image.mp hw
    exact Finset.mem_product.mp hmem
  · intro hw
    exact Finset.mem_image.mpr ⟨(w.family, w.service), Finset.mem_product.mpr hw, rfl⟩

/-- Samples under one service carry it. -/
theorem service_of_samplesOf {families : Finset Family} {service : String} :
    ∀ w ∈ samplesOf families {service}, w.service = service := by
  intro w hw
  exact Finset.mem_singleton.mp (mem_samplesOf.mp hw).2

/-- The trackers that keep the service that they read when they are started: a queue; a pool, with
whether it has its optional callback and a maximum; a progress. -/
inductive TrackerKind where
  | queue
  | pool (waiting max : Bool)
  | progress
deriving DecidableEq, Repr

/-- What a tracker does once it is started; a poller's tick may fail. -/
inductive TrackerEvent where
  | started
  | tick
  | failedTick
  | inc
deriving DecidableEq, Repr

/-- The families that a tracker writes in an event. -/
def TrackerKind.families : TrackerKind → TrackerEvent → Finset Family
  | .queue, .tick => {.queueDepth}
  | .queue, .failedTick => {.collectorErrorsTotal}
  | .pool _ max, .started => if max then {.poolMax} else ∅
  | .pool waiting _, .tick => (poolSources waiting).toFinset
  | .pool _ _, .failedTick => {.collectorErrorsTotal}
  | .progress, .started | .progress, .tick =>
    {.progressRemaining, .progressRatePerSecond, .progressEstimatedCompletionTimestamp}
  | .progress, .inc => {.progressProcessedTotal}
  | _, _ => ∅

/-- A started tracker. -/
structure Started where
  kind : TrackerKind
  service : String
deriving DecidableEq, Repr

/-- What happens in a process after an install, over the requests of its framework. -/
inductive Activity (ρ : Type) where
  | request (req : ρ)
  | scrape
  | start (kind : TrackerKind)
  /-- An event of the tracker that was started at this position. -/
  | tracker (index : ℕ) (event : TrackerEvent)
  /-- A job, which reads the service itself. -/
  | job

/-- What of an install reaches a sample: the process-wide service, what a scrape collects or writes,
and what is counted for a request. -/
structure Surfaces (ρ : Type) where
  /-- What `get_service` returns; none where it raises. -/
  getService : Option String
  onScrape : Finset Written
  onRequest : ρ → Finset Written

namespace Surfaces

variable {ρ : Type} (s : Surfaces ρ)

/-- The samples of an activity. -/
def written (trackers : List Started) : Activity ρ → Finset Written
  | .request req => s.onRequest req
  | .scrape => s.onScrape
  | .start kind => samplesOf (kind.families .started) s.getService.toFinset
  | .tracker index event =>
    match trackers[index]? with
    | some t => samplesOf (t.kind.families event) {t.service}
    | none => ∅
  | .job => samplesOf {.jobsTotal, .jobDurationSeconds} s.getService.toFinset

/-- The started trackers after an activity. -/
def startedBy (trackers : List Started) : Activity ρ → List Started
  | .start kind => trackers ++ s.getService.toList.map (⟨kind, ·⟩)
  | _ => trackers

/-- The samples of a sequence of activities. -/
def writtenBy : List Started → List (Activity ρ) → Finset Written
  | _, [] => ∅
  | trackers, a :: as => s.written trackers a ∪ writtenBy (s.startedBy trackers a) as

/-- After the install, `get_service` returns `g`, and everything that is written carries it. -/
def OneService (g : String) : Prop :=
  s.getService = some g ∧ ∀ activities, ∀ w ∈ s.writtenBy [] activities, w.service = g

variable {s} {g : String}

/-- An activity starts trackers under the process-wide service only. -/
theorem service_of_startedBy (hget : s.getService = some g) {trackers : List Started}
    (htrackers : ∀ t ∈ trackers, t.service = g) (a : Activity ρ) :
    ∀ t ∈ s.startedBy trackers a, t.service = g := by
  cases a with
  | start kind =>
    intro t ht
    rcases List.mem_append.mp ht with ht | ht
    · exact htrackers t ht
    · rw [hget] at ht
      rw [List.mem_singleton.mp ht]
  | request | scrape | tracker | job => exact htrackers

/-- An activity writes under the process-wide service, where a scrape and the requests do. -/
theorem service_of_written (hget : s.getService = some g)
    (hscrape : ∀ w ∈ s.onScrape, w.service = g)
    (hrequest : ∀ req, ∀ w ∈ s.onRequest req, w.service = g)
    {trackers : List Started} (htrackers : ∀ t ∈ trackers, t.service = g) (a : Activity ρ) :
    ∀ w ∈ s.written trackers a, w.service = g := by
  intro w hw
  cases a with
  | request req => exact hrequest req w hw
  | scrape => exact hscrape w hw
  | start kind =>
    have hservice := (mem_samplesOf.mp hw).2
    simpa [hget] using hservice
  | tracker index event =>
    -- A tracker writes under the service that it kept when it was started.
    unfold written at hw
    rcases hidx : trackers[index]? with _ | t
    · simp [hidx] at hw
    · simp only [hidx] at hw
      rw [service_of_samplesOf w hw]
      exact htrackers t (List.mem_of_getElem? hidx)
  | job =>
    have hservice := (mem_samplesOf.mp hw).2
    simpa [hget] using hservice

/-- A sequence of activities writes under the process-wide service, where a scrape and the requests
do. -/
theorem service_of_writtenBy (hget : s.getService = some g)
    (hscrape : ∀ w ∈ s.onScrape, w.service = g)
    (hrequest : ∀ req, ∀ w ∈ s.onRequest req, w.service = g)
    {trackers : List Started} (htrackers : ∀ t ∈ trackers, t.service = g)
    (activities : List (Activity ρ)) : ∀ w ∈ s.writtenBy trackers activities, w.service = g := by
  induction activities generalizing trackers with
  | nil =>
    intro w hw
    cases hw
  | cons a activities ih =>
    intro w hw
    rcases Finset.mem_union.mp hw with hw | hw
    · exact service_of_written hget hscrape hrequest htrackers a w hw
    · exact ih (service_of_startedBy hget htrackers a) w hw

/-- Where the process-wide service is the trimming `g` of the service `raw` that a scrape and the
requests write, and a scrape writes something, all is under one service exactly when they agree. -/
theorem oneService_iff {raw : String} (hget : s.getService = some g)
    (hscrape : ∀ w ∈ s.onScrape, w.service = raw)
    (hrequest : ∀ req, ∀ w ∈ s.onRequest req, w.service = raw) (hne : s.onScrape.Nonempty) :
    s.OneService g ↔ g = raw := by
  constructor
  · rintro ⟨-, hall⟩
    -- One scrape shows the raw service.
    obtain ⟨w, hw⟩ := hne
    have hmem : w ∈ s.writtenBy [] [.scrape] := Finset.mem_union_left _ hw
    rw [← hall [.scrape] w hmem, hscrape w hw]
  · rintro rfl
    refine ⟨hget, ?_⟩
    exact service_of_writtenBy hget hscrape hrequest (fun t ht => by cases ht)

end Surfaces

/-- The two families of requests, under the services of what is counted. -/
def httpWritten {ρ : Type} (counted : List (HttpLabels ρ)) : Finset Written :=
  samplesOf {.httpRequestsTotal, .httpRequestDurationSeconds} (counted.map (·.service)).toFinset

/-- What is counted under one service is written under it. -/
theorem service_of_httpWritten {ρ : Type} {counted : List (HttpLabels ρ)} {service : String}
    (h : ∀ l ∈ counted, l.service = service) : ∀ w ∈ httpWritten counted, w.service = service := by
  intro w hw
  have hservice := (mem_samplesOf.mp hw).2
  obtain ⟨l, hl, hlw⟩ := List.mem_map.mp (List.mem_toFinset.mp hservice)
  rw [← hlw]
  exact h l hl

/-! ## Python -/

namespace Python

/-- The families of `SimsysProcessCollector.collect`. -/
def processFamilies : Finset Family :=
  {.processCpuSecondsTotal, .processMemoryBytes, .processOpenFds, .processThreads,
    .runtimeGcCollectionsByGenerationTotal}

/-- What a scrape collects: the process families of every registered collector, and the build
info. -/
def Proc.scraped (p : Proc) : Finset Written :=
  samplesOf processFamilies (p.collectors.registry.image (·.service)) ∪
    samplesOf {.buildInfo} (p.buildInfo.samples.image (·.service))

/-- What of an installed FastAPI app reaches a sample. -/
def FastApi.surfaces (host : FastApi.Host) (p : Proc) (app : FastApi.App) : Surfaces Request :=
  ⟨p.service, p.scraped, fun req => httpWritten (app.handle host req).counted⟩

/-- What of an installed Flask app reaches a sample. The metrics view writes the duration of a
scrape, and an error where it raises. An observation without its start has no duration. -/
def Flask.surfaces (host : Flask.HostHooks) (p : Proc) (app : Flask.App) :
    Surfaces (Flask.Request × Flask.Ending) where
  getService := p.service
  onScrape := p.scraped ∪
    samplesOf {.scrapeDurationSeconds, .scrapeErrorsTotal} app.viewServices.toFinset
  onRequest := fun (req, ending) =>
    let out := (app.handle host req ending).out
    samplesOf {.httpRequestsTotal} (out.map (·.labels.service)).toFinset ∪
      samplesOf {.httpRequestDurationSeconds}
        ((out.filter (·.timed)).map (·.labels.service)).toFinset

section Returned

variable {α ω : Type} [DecidableEq ω] {ad : Adapter α ω} {env : Env} {o : InstallOpts}
  {fault : Option (Fault ω)} {app : α}

/-- A first install that returned sets the trimmed service, and a scrape then collects something,
all of it under the given service. -/
theorem scraped_of_returned (hclear : ad.installed app = false)
    (hreturned : (installOn ad env o fault .fresh app).raised = false) :
    (installOn ad env o fault .fresh app).proc.service = some (strip o.service) ∧
      (∀ w ∈ (installOn ad env o fault .fresh app).proc.scraped, w.service = o.service) ∧
      (installOn ad env o fault .fresh app).proc.scraped.Nonempty := by
  obtain ⟨c, state, wired, hstep, -, hinstall⟩ := steps_of_returned hclear hreturned
  rw [hinstall]
  -- Only the collector of this install may be registered.
  have hregistry : ∀ col ∈ c.registry, col.service = o.service := by
    unfold collectorStep at hstep
    by_cases hm : env.multiproc
    · rw [if_pos hm] at hstep
      obtain ⟨rfl, -⟩ := Prod.mk.inj hstep
      intro col hcol
      cases hcol
    · rw [if_neg hm] at hstep
      obtain ⟨rfl, -⟩ := Prod.mk.inj hstep
      intro col hcol
      have hcol' : col ∈ ({⟨env.collectorId, o.service⟩} : Finset Collector) := hcol
      rw [Finset.mem_singleton.mp hcol']
  refine ⟨rfl, ?_, ?_⟩
  · intro w hw
    rcases Finset.mem_union.mp hw with hw | hw
    · obtain ⟨col, hcol, hw⟩ := Finset.mem_image.mp (mem_samplesOf.mp hw).2
      rw [← hw]
      exact hregistry col hcol
    · obtain ⟨l, hl, hw⟩ := Finset.mem_image.mp (mem_samplesOf.mp hw).2
      have hl' : l ∈ ({resolveLabels o.service o.version o.commit env.detectedCommit env.now} :
          Finset BuildInfoLabels) := hl
      rw [← hw, Finset.mem_singleton.mp hl']
      rfl
  · refine ⟨⟨.buildInfo, o.service⟩, Finset.mem_union_right _ (mem_samplesOf.mpr ⟨?_, ?_⟩)⟩
    · exact Finset.mem_singleton_self _
    · exact Finset.mem_image.mpr ⟨_, Finset.mem_singleton_self _, rfl⟩

end Returned

end Python

/-! ## Node -/

namespace Node

/-- The families of the process collector. -/
def processFamilies : Finset Family :=
  {.processCpuSecondsTotal, .processMemoryBytes, .processOpenFds, .processUptimeSeconds}

/-- What a scrape collects: the process families of the collector, and the build info. -/
def Proc.scraped (p : Proc) : Finset Written :=
  samplesOf processFamilies p.process.reporting.toFinset ∪
    samplesOf {.buildInfo} (p.buildInfo.samples.image (·.service))

/-- What of an installed Express app reaches a sample. -/
def Express.surfaces (router : Express.Router) (p : Proc) (app : Express.App) : Surfaces Request :=
  ⟨p.service, p.scraped, fun req => httpWritten (app.handle router req).counted⟩

/-- What of an installed Hono app reaches a sample. -/
def Hono.surfaces (router : Hono.Router) (p : Proc) (app : Hono.App) : Surfaces Request :=
  ⟨p.service, p.scraped, fun req => httpWritten (app.handle router req).counted⟩

/-- What of an install for Next.js reaches a sample, over the requests and the states in which they
are counted. -/
def Next.surfaces (p : Proc) (g : Next.Globals) : Surfaces (Next.NextState × Next.Request) :=
  ⟨p.service, p.scraped, fun (s, req) => httpWritten (g.emit.counted s req)⟩

section Returned

variable {α ω : Type} [DecidableEq ω] {ad : Adapter α ω} {env : Env} {o : InstallOpts}
  {fault : Option (Fault ω)} {app : α}

/-- A first install that returned sets the trimmed service, and a scrape then collects something,
all of it under the given service. -/
theorem scraped_of_returned (hclear : ad.installed app = false)
    (hreturned : (installOn ad env o fault .fresh app).raised = false) :
    (installOn ad env o fault .fresh app).proc.service = some (trim o.service) ∧
      (∀ w ∈ (installOn ad env o fault .fresh app).proc.scraped, w.service = o.service) ∧
      (installOn ad env o fault .fresh app).proc.scraped.Nonempty := by
  have hid := identity_of_returned hclear hreturned
  generalize (installOn ad env o fault .fresh app).proc = p at hid ⊢
  have hservice : p.service = some (trim o.service) := congrArg Identity.service hid
  have hreport : p.process.reporting = some o.service := congrArg Identity.collector hid
  have hbuild : p.buildInfo.samples = {buildInfoLabels env o} :=
    congrArg (fun i => i.buildInfo.samples) hid
  unfold Proc.scraped
  rw [hreport, hbuild]
  refine ⟨hservice, ?_, ?_⟩
  · intro w hw
    rcases Finset.mem_union.mp hw with hw | hw
    · simpa using (mem_samplesOf.mp hw).2
    · obtain ⟨l, hl, hw⟩ := Finset.mem_image.mp (mem_samplesOf.mp hw).2
      rw [← hw, Finset.mem_singleton.mp hl]
      rfl
  · refine ⟨⟨.buildInfo, o.service⟩, Finset.mem_union_right _ (mem_samplesOf.mpr ⟨?_, ?_⟩)⟩
    · exact Finset.mem_singleton_self _
    · exact Finset.mem_image.mpr ⟨_, Finset.mem_singleton_self _, rfl⟩

end Returned

end Node

/-! ## One service -/

namespace Python

/-- After an install of a FastAPI app returned, its requests are counted under the given service,
whatever the host adds. -/
theorem FastApi.service_of_request {env : Env} {o : InstallOpts}
    {fault : Option (Fault FastApi.WireFault)} {p : Proc} {middlewares routes : List ℕ}
    (hreturned : (FastApi.installFastapi env o fault p (.hosted middlewares routes)).raised = false)
    (host : FastApi.Host) (middlewares' routes' : List ℕ) (req : Request) :
    ∀ w ∈ httpWritten (((FastApi.installFastapi env o fault p
        (.hosted middlewares routes)).app.addHost middlewares' routes').handle host req).counted,
      w.service = o.service := by
  have happ := FastApi.app_of_returned rfl hreturned
  refine service_of_httpWritten ?_
  rw [happ]
  refine FastApi.service_of_counted host req (FastApi.counted_routeRequest host req _) ?_
  -- The only simsys middleware is the one of the install.
  intro s path hmem
  rcases List.mem_append.mp hmem with hmem | hmem
  · obtain ⟨id, -, hid⟩ := List.mem_map.mp hmem
    cases hid
  rcases List.mem_cons.mp hmem with hmem | hmem
  · exact (FastApi.Middleware.simsys.inj hmem).1
  · obtain ⟨id, -, hid⟩ := List.mem_map.mp hmem
    cases hid

/-- The metrics view of a wired app writes under the service of the install. -/
theorem Flask.service_of_views {o : InstallOpts} {app : Flask.App} (hwired : Flask.Wired o app)
    {families : Finset Family} :
    ∀ w ∈ samplesOf families app.viewServices.toFinset, w.service = o.service := by
  rw [hwired.views, List.toFinset_cons, List.toFinset_nil, insert_empty_eq]
  exact service_of_samplesOf

/-- A scrape through the view of a wired app is under the service of the install, where the process
is scraped under it. -/
theorem Flask.service_of_scrape {o : InstallOpts} {p : Proc} {app : Flask.App}
    (hscrape : ∀ w ∈ p.scraped, w.service = o.service) (hwired : Flask.Wired o app)
    (host : Flask.HostHooks) :
    ∀ w ∈ (Flask.surfaces host p app).onScrape, w.service = o.service := by
  intro w hw
  rcases Finset.mem_union.mp hw with hw | hw
  · exact hscrape w hw
  · exact Flask.service_of_views hwired w hw

/-- The requests of a wired app are counted under the service of the install. -/
theorem Flask.service_of_request {o : InstallOpts} {app : Flask.App} (hwired : Flask.Wired o app)
    (host : Flask.HostHooks) (p : Proc) (req : Flask.Request × Flask.Ending) :
    ∀ w ∈ (Flask.surfaces host p app).onRequest req, w.service = o.service := by
  have hservice := Flask.service_of_handle hwired host req.1 req.2
  intro w hw
  rcases Finset.mem_union.mp hw with hw | hw
  · obtain ⟨ob, hob, hw⟩ := List.mem_map.mp (List.mem_toFinset.mp (mem_samplesOf.mp hw).2)
    rw [← hw]
    exact hservice ob hob
  · obtain ⟨ob, hob, hw⟩ := List.mem_map.mp (List.mem_toFinset.mp (mem_samplesOf.mp hw).2)
    rw [← hw]
    exact hservice ob (List.mem_of_mem_filter hob)

end Python

namespace Node

/-- After an install of an Express app returned, its requests are counted under the given service,
whatever the host adds. -/
theorem Express.service_of_request {env : Env} {o : InstallOpts}
    {fault : Option (Fault Express.WireFault)} {p : Proc} {layers : List ℕ}
    (hreturned : (Express.installExpress env o fault p (.hosted layers)).raised = false)
    (router : Express.Router) (later : List ℕ) (req : Request) :
    ∀ w ∈ httpWritten (((Express.installExpress env o fault p
        (.hosted layers)).app.addHost later).handle router req).counted,
      w.service = o.service := by
  have hstack := Express.stack_of_returned rfl hreturned
  refine service_of_httpWritten ?_
  unfold Express.App.handle Express.App.addHost
  dsimp only
  rw [hstack]
  refine Express.service_of_counted router req ?_
  -- The only recording middleware is the one of the install.
  intro s path hmem
  rcases List.mem_append.mp hmem with hmem | hmem
  · rcases List.mem_append.mp hmem with hmem | hmem
    · obtain ⟨id, -, hid⟩ := List.mem_map.mp hmem
      cases hid
    · obtain ⟨rfl, -⟩ : s = o.service ∧ path = Express.metricsPath o := by simpa using hmem
      rfl
  · obtain ⟨id, -, hid⟩ := List.mem_map.mp hmem
    cases hid

/-- After an install of a Hono app returned, its requests are counted under the given service,
whatever the host adds. -/
theorem Hono.service_of_request {env : Env} {o : InstallOpts}
    {fault : Option (Fault Hono.WireFault)} {p : Proc} {basePath : String} {handlers : List ℕ}
    (hreturned : (Hono.installHono env o fault p (.hosted basePath handlers)).raised = false)
    (router : Hono.Router) (later : List ℕ) (req : Request) :
    ∀ w ∈ httpWritten (((Hono.installHono env o fault p
        (.hosted basePath handlers)).app.addHost later).handle router req).counted,
      w.service = o.service := by
  have hwired := @Hono.wired_install env o fault p (.hosted basePath handlers) rfl
  refine service_of_httpWritten ?_
  generalize Hono.installHono env o fault p (.hosted basePath handlers) = r at hwired hreturned ⊢
  cases hwired with
  | returned =>
    obtain ⟨-, -, hservice, -⟩ := Hono.props_wired (.hosted basePath handlers) o
    -- What the host adds leaves the properties.
    exact @Hono.service_of_counted router (((Hono.App.hosted basePath handlers).wired o).addHost
      later) req o.service hservice _
  | threw => cases hreturned
  | threwLate => cases hreturned

/-- After an install for Next.js returned, its requests are counted under the given service. -/
theorem Next.service_of_request {env : Env} {o : InstallOpts} {n : Next.NextOpts}
    {fault : Option (Fault Next.WireFault)} {p : Proc}
    (hreturned : (Next.installNext env o n fault p .fresh).raised = false)
    (req : Next.NextState × Next.Request) :
    ∀ w ∈ httpWritten ((Next.installNext env o n fault p .fresh).app.emit.counted req.1 req.2),
      w.service = o.service := by
  have hemit := congrArg Next.Globals.emit (Next.app_of_returned hreturned)
  refine service_of_httpWritten ?_
  rw [hemit]
  intro l hl
  rcases List.mem_append.mp hl with hl | hl
  · exact Next.service_of_handle (Next.patchOf o n) req.1 req.2 l hl
  · cases hl

end Node

/-- One install in a fresh process, of an app of a host, with what the host adds to the app later
and what the framework and the host supply to a request. -/
inductive FirstInstall where
  | fastapi (env : Python.Env) (o : Python.InstallOpts)
      (fault : Option (Python.Fault Python.FastApi.WireFault)) (middlewares routes : List ℕ)
      (laterMiddlewares laterRoutes : List ℕ) (host : Python.FastApi.Host)
  | flask (env : Python.Env) (o : Python.InstallOpts)
      (fault : Option (Python.Fault Python.Flask.WireFault)) (parts later : Python.Flask.HostParts)
      (host : Python.Flask.HostHooks)
  | express (env : Node.Env) (o : Node.InstallOpts)
      (fault : Option (Node.Fault Node.Express.WireFault)) (layers later : List ℕ)
      (router : Node.Express.Router)
  | hono (env : Node.Env) (o : Node.InstallOpts) (fault : Option (Node.Fault Node.Hono.WireFault))
      (basePath : String) (handlers later : List ℕ) (router : Node.Hono.Router)
  | next (env : Node.Env) (o : Node.InstallOpts) (n : Node.Next.NextOpts)
      (fault : Option (Node.Fault Node.Next.WireFault))

namespace FirstInstall

/-- The service that is given to the install. -/
def service : FirstInstall → String
  | .fastapi _ o _ _ _ _ _ _ => o.service
  | .flask _ o _ _ _ _ => o.service
  | .express _ o _ _ _ _ => o.service
  | .hono _ o _ _ _ _ _ => o.service
  | .next _ o _ _ => o.service

/-- The service as its lane trims it. -/
def trimmed : FirstInstall → String
  | .fastapi _ o _ _ _ _ _ _ => Python.strip o.service
  | .flask _ o _ _ _ _ => Python.strip o.service
  | .express _ o _ _ _ _ => Node.trim o.service
  | .hono _ o _ _ _ _ _ => Node.trim o.service
  | .next _ o _ _ => Node.trim o.service

/-- Whether the install throws. -/
def raised : FirstInstall → Bool
  | .fastapi env o fault middlewares routes _ _ _ =>
    (Python.FastApi.installFastapi env o fault .fresh (.hosted middlewares routes)).raised
  | .flask env o fault parts _ _ =>
    (Python.Flask.installFlask env o fault .fresh (.hosted parts)).raised
  | .express env o fault layers _ _ =>
    (Node.Express.installExpress env o fault .fresh (.hosted layers)).raised
  | .hono env o fault basePath handlers _ _ =>
    (Node.Hono.installHono env o fault .fresh (.hosted basePath handlers)).raised
  | .next env o n fault => (Node.Next.installNext env o n fault .fresh .fresh).raised

/-- Everything that is written after the install carries the trimmed service, which `get_service`
returns. -/
def OneService : FirstInstall → Prop
  | .fastapi env o fault middlewares routes laterMiddlewares laterRoutes host =>
    let r := Python.FastApi.installFastapi env o fault .fresh (.hosted middlewares routes)
    (Python.FastApi.surfaces host r.proc
      (r.app.addHost laterMiddlewares laterRoutes)).OneService (Python.strip o.service)
  | .flask env o fault parts later host =>
    let r := Python.Flask.installFlask env o fault .fresh (.hosted parts)
    (Python.Flask.surfaces host r.proc (r.app.addHost later)).OneService (Python.strip o.service)
  | .express env o fault layers later router =>
    let r := Node.Express.installExpress env o fault .fresh (.hosted layers)
    (Node.Express.surfaces router r.proc (r.app.addHost later)).OneService (Node.trim o.service)
  | .hono env o fault basePath handlers later router =>
    let r := Node.Hono.installHono env o fault .fresh (.hosted basePath handlers)
    (Node.Hono.surfaces router r.proc (r.app.addHost later)).OneService (Node.trim o.service)
  | .next env o n fault =>
    let r := Node.Next.installNext env o n fault .fresh .fresh
    (Node.Next.surfaces r.proc r.app).OneService (Node.trim o.service)

end FirstInstall

/-- After one install in a fresh process returned, with any of the five adapters, everything that is
written carries the one service that `get_service` returns if and only if the given service is
trimmed. -/
theorem one_service_iff (i : FirstInstall) (hreturned : i.raised = false) :
    i.OneService ↔ i.trimmed = i.service := by
  cases i with
  | fastapi env o fault middlewares routes laterMiddlewares laterRoutes host =>
    obtain ⟨hget, hscrape, hne⟩ := Python.scraped_of_returned rfl hreturned
    exact Surfaces.oneService_iff hget hscrape
      (Python.FastApi.service_of_request hreturned host laterMiddlewares laterRoutes) hne
  | flask env o fault parts later host =>
    obtain ⟨hget, hscrape, hne⟩ := Python.scraped_of_returned rfl hreturned
    have hwired := (Python.Flask.wired_of_returned hreturned).addHost later
    exact Surfaces.oneService_iff hget (Python.Flask.service_of_scrape hscrape hwired host)
      (Python.Flask.service_of_request hwired host _) (hne.mono Finset.subset_union_left)
  | express env o fault layers later router =>
    obtain ⟨hget, hscrape, hne⟩ := Node.scraped_of_returned rfl hreturned
    exact Surfaces.oneService_iff hget hscrape
      (Node.Express.service_of_request hreturned router later) hne
  | hono env o fault basePath handlers later router =>
    obtain ⟨hget, hscrape, hne⟩ := Node.scraped_of_returned rfl hreturned
    exact Surfaces.oneService_iff hget hscrape
      (Node.Hono.service_of_request hreturned router later) hne
  | next env o n fault =>
    have hrequest := Node.Next.service_of_request hreturned
    -- Options that are not accepted would have thrown.
    have haccepted : Node.Next.Accepted o := by
      by_contra h
      simp [FirstInstall.raised, Node.Next.installNext, h] at hreturned
    simp only [FirstInstall.raised, FirstInstall.OneService, Node.Next.installNext,
      if_pos haccepted] at hreturned hrequest ⊢
    obtain ⟨hget, hscrape, hne⟩ := Node.scraped_of_returned rfl hreturned
    exact Surfaces.oneService_iff hget hscrape hrequest hne

/-- A host whose middlewares pass every request on and whose routes match none. -/
def Python.FastApi.Host.silent : Python.FastApi.Host where
  answers _ _ := none
  routes _ _ := none
  unmatched _ := ⟨some (.int 404), none⟩

/-- An install of a trimmed service: it is the one of everything that is written. -/
theorem portal_one_service :
    let i := FirstInstall.fastapi Python.singleProcess Python.portalOpts none [0] [1] [2] [3]
      .silent
    i.raised = false ∧ i.trimmed = i.service ∧ i.OneService := by
  refine ⟨by decide, by decide, ?_⟩
  exact (one_service_iff _ (by decide)).mpr (by decide)

/-- A service with a blank at each end: a job writes the trimmed one, and a scrape and a request the
given one. -/
theorem padded_service_splits :
    let o : Python.InstallOpts := { Python.portalOpts with service := " portal " }
    let r := Python.FastApi.installFastapi Python.singleProcess o none .fresh (.hosted [] [])
    let s := Python.FastApi.surfaces .silent r.proc r.app
    let activities := [.job, .scrape, .request ⟨"/x", "GET"⟩]
    r.raised = false ∧ s.getService = some "portal" ∧
      ⟨.jobsTotal, "portal"⟩ ∈ s.writtenBy [] activities ∧
      ⟨.buildInfo, " portal "⟩ ∈ s.writtenBy [] activities ∧
      ⟨.processMemoryBytes, " portal "⟩ ∈ s.writtenBy [] activities ∧
      ⟨.httpRequestsTotal, " portal "⟩ ∈ s.writtenBy [] activities ∧
      ¬ (FirstInstall.fastapi Python.singleProcess o none [] [] [] [] .silent).OneService := by
  refine ⟨by decide, by decide, by decide, by decide, by decide, by decide, ?_⟩
  rintro ⟨-, hall⟩
  have hservice := hall [.scrape] ⟨.buildInfo, " portal "⟩ (by decide)
  revert hservice
  decide

end SimsysMetrics
