import Mathlib.Data.List.DropRight
import SimsysMetrics.Http
import SimsysMetrics.Node.Install

/-!
# The Hono adapter

`installHono` of `node/src/adapters/hono.ts`. Hono cannot unregister a handler, so the install wires
its middleware and its metrics route at most once per app, and the handlers read the live properties
of the app on every request: a failed install clears them, which leaves the handlers inert, and a
later install sets them again. The metrics route keeps the path of the install that registered it.

Hono merges a registered pattern with the app's base path; how it does is a parameter of what a
request meets (`Router`).
-/

namespace SimsysMetrics.Node.Hono

/-- A registered handler: one of the host's, by its identity, the recording middleware with the
service that it closes over, or the metrics route with the path given to `app.get`. -/
inductive Handler where
  | host (id : ℕ)
  | recorder (service : String)
  | metricsRoute (path : String)
deriving DecidableEq, Repr

/-- The properties that an install keeps on the app (`appProps`). -/
structure Props where
  simsysMetricsInstalled : Bool
  simsysExemptPaths : Option (Finset String)
  simsysService : Option String
  simsysVersion : Option String
  simsysMetricsPath : Option String
  simsysHonoMwInstalled : Bool
  simsysHonoRouteInstalled : Bool
deriving DecidableEq

/-- The properties of an app without an install. -/
def Props.empty : Props := ⟨false, none, none, none, none, false, false⟩

/-- The parts of an app that an install reads and changes. -/
structure App where
  /-- `app._basePath`. -/
  basePath : String
  props : Props
  /-- The handlers in the order in which they were registered. -/
  handlers : List Handler
deriving DecidableEq

/-- The app with handlers that a host adds. -/
def App.addHost (app : App) (handlers : List ℕ) : App :=
  { app with handlers := app.handlers ++ handlers.map .host }

/-- An app with the handlers of its host only. -/
def App.hosted (basePath : String) (handlers : List ℕ) : App :=
  ⟨basePath, .empty, handlers.map .host⟩

/-- Where the wiring may throw. -/
inductive WireFault where
  /-- `app.use` throws. -/
  | use
  /-- `app.get` throws. -/
  | get
deriving DecidableEq, Repr

/-- The metrics path of an install. -/
def metricsPath (o : InstallOpts) : String := o.metricsPath.getD "/metrics"

/-- `stripTrailingSlashes`. -/
def stripTrailingSlashes (s : String) : String := String.ofList (s.toList.rdropWhile (· = '/'))

/-- `absoluteMetricsPath`. -/
def absoluteMetricsPath (basePath metricsPath : String) : String :=
  if basePath ≠ "" ∧ basePath ≠ "/" then stripTrailingSlashes basePath ++ metricsPath
  else metricsPath

/-- The part of the `catch` block about the app. The flags about the handlers stay, since the
handlers do. -/
def App.rollback (app : App) : App :=
  { app with
    props := { app.props with
      simsysMetricsInstalled := false
      simsysExemptPaths := none
      simsysService := none
      simsysVersion := none
      simsysMetricsPath := none } }

/-- The app with the properties that an install sets before it wires. -/
def App.describe (app : App) (o : InstallOpts) : App :=
  { app with
    props := { app.props with
      simsysExemptPaths := some (buildExemptPaths (metricsPath o))
      simsysService := some o.service
      simsysVersion := some o.version
      simsysMetricsPath := some (absoluteMetricsPath app.basePath (metricsPath o)) } }

/-- The registration of the middleware, unless an earlier install did it. -/
def App.useRecorder (app : App) (o : InstallOpts) : App :=
  if app.props.simsysHonoMwInstalled then app
  else
    { app with
      props := { app.props with simsysHonoMwInstalled := true }
      handlers := app.handlers ++ [.recorder o.service] }

/-- The registration of the metrics route, unless an earlier install did it. -/
def App.getMetrics (app : App) (o : InstallOpts) : App :=
  if app.props.simsysHonoRouteInstalled then app
  else
    { app with
      props := { app.props with simsysHonoRouteInstalled := true }
      handlers := app.handlers ++ [.metricsRoute (metricsPath o)] }

/-- The app with its sentinel set. -/
def App.arm (app : App) : App :=
  { app with props := { app.props with simsysMetricsInstalled := true } }

/-- What `installHono` does to its app. -/
def adapter : Adapter App WireFault where
  installed app := app.props.simsysMetricsInstalled
  wire o fault app :=
    let described := app.describe o
    let used := described.useRecorder o
    -- A call that is skipped does not throw.
    match fault with
    | some .use =>
      if described.props.simsysHonoMwInstalled then ((used.getMetrics o).arm, false)
      else (described.rollback, true)
    | some .get =>
      if used.props.simsysHonoRouteInstalled then ((used.getMetrics o).arm, false)
      else (used.rollback, true)
    | none => ((used.getMetrics o).arm, false)
  unwire app := app.rollback
  returns _ _ := rfl

/-- `installHono`. -/
def installHono (env : Env) (o : InstallOpts) (fault : Option (Fault WireFault)) (p : Proc)
    (app : App) : Installed App :=
  installOn adapter env o fault p app

/-! ## The handlers that installs leave -/

/-- Whether a handler is the recording middleware. -/
def Handler.isRecorder : Handler → Bool
  | .recorder _ => true
  | _ => false

/-- Whether a handler is the metrics route. -/
def Handler.isMetricsRoute : Handler → Bool
  | .metricsRoute _ => true
  | _ => false

/-- The handlers in front of the middleware; all of them where it is not registered. -/
def aheadOfRecorder (handlers : List Handler) : List Handler :=
  handlers.takeWhile (!·.isRecorder)

/-- The handlers in front of the metrics route; all of them where it is not registered. -/
def aheadOfRoute (handlers : List Handler) : List Handler :=
  handlers.takeWhile (!·.isMetricsRoute)

/-- Handlers of the host at the start are in front of the middleware. -/
@[simp]
theorem aheadOfRecorder_hosts (ids : List ℕ) (handlers : List Handler) :
    aheadOfRecorder (ids.map .host ++ handlers) = ids.map .host ++ aheadOfRecorder handlers := by
  induction ids with
  | nil => rfl
  | cons id ids ih => exact congrArg (.host id :: ·) ih

/-- Handlers of the host at the start are in front of the metrics route. -/
@[simp]
theorem aheadOfRoute_hosts (ids : List ℕ) (handlers : List Handler) :
    aheadOfRoute (ids.map .host ++ handlers) = ids.map .host ++ aheadOfRoute handlers := by
  induction ids with
  | nil => rfl
  | cons id ids ih => exact congrArg (.host id :: ·) ih

/-- The middleware in front of the metrics route leaves the handlers behind it. -/
@[simp]
theorem aheadOfRoute_recorder (service : String) (handlers : List Handler) :
    aheadOfRoute (.recorder service :: handlers) = .recorder service :: aheadOfRoute handlers :=
  rfl

/-- The lists of handlers that installs and a host leave, by the flags of the middleware and of the
metrics route. -/
inductive Shape : List Handler → Bool → Bool → Prop where
  /-- Nothing of an install. -/
  | bare (ids : List ℕ) : Shape (ids.map .host) false false
  /-- The middleware only. -/
  | used (before : List ℕ) (service : String) (after : List ℕ) :
      Shape (before.map .host ++ .recorder service :: after.map .host) true false
  /-- The middleware, and the metrics route behind it. -/
  | routed (before : List ℕ) (service : String) (between : List ℕ) (path : String)
      (after : List ℕ) :
      Shape (before.map .host ++ .recorder service ::
        (between.map .host ++ .metricsRoute path :: after.map .host)) true true

/-- The handlers of an app have the shape that its flags say. -/
def Shaped (app : App) : Prop :=
  Shape app.handlers app.props.simsysHonoMwInstalled app.props.simsysHonoRouteInstalled

/-- An app of a host is shaped. -/
theorem shaped_hosted (basePath : String) (ids : List ℕ) : Shaped (.hosted basePath ids) :=
  .bare ids

/-- Handlers of the host keep the shape. -/
theorem shaped_addHost {app : App} (h : Shaped app) (ids : List ℕ) : Shaped (app.addHost ids) := by
  show Shape (app.handlers ++ ids.map .host) app.props.simsysHonoMwInstalled
    app.props.simsysHonoRouteInstalled
  unfold Shaped at h
  generalize app.handlers = handlers, app.props.simsysHonoMwInstalled = mw,
    app.props.simsysHonoRouteInstalled = route at h ⊢
  cases h with
  | bare ids' => simpa using Shape.bare (ids' ++ ids)
  | used before service after => simpa using Shape.used before service (after ++ ids)
  | routed before service between path after =>
    simpa using Shape.routed before service between path (after ++ ids)

/-- Registering the middleware keeps the shape. -/
theorem shaped_useRecorder (o : InstallOpts) {app : App} (h : Shaped app) :
    Shaped (app.useRecorder o) := by
  unfold App.useRecorder
  split_ifs with hmw
  · exact h
  · show Shape (app.handlers ++ [.recorder o.service]) true app.props.simsysHonoRouteInstalled
    unfold Shaped at h
    generalize app.handlers = handlers, app.props.simsysHonoMwInstalled = mw,
      app.props.simsysHonoRouteInstalled = route at h hmw ⊢
    -- Without the middleware there is no metrics route either.
    cases h with
    | bare ids => exact .used ids o.service []
    | used => exact absurd rfl hmw
    | routed => exact absurd rfl hmw

/-- The app that an install leaves when it returns. -/
def App.wired (app : App) (o : InstallOpts) : App :=
  (((app.describe o).useRecorder o).getMetrics o).arm

/-- The handlers of a wired app: those that were there, and what was not registered yet. -/
theorem handlers_wired (app : App) (o : InstallOpts) :
    (app.wired o).handlers = app.handlers ++
      ((if app.props.simsysHonoMwInstalled then [] else [.recorder o.service]) ++
        (if app.props.simsysHonoRouteInstalled then [] else [.metricsRoute (metricsPath o)])) ∧
    (app.wired o).props.simsysHonoMwInstalled = true ∧
      (app.wired o).props.simsysHonoRouteInstalled = true := by
  unfold App.wired App.arm App.getMetrics App.useRecorder App.describe
  by_cases hmw : app.props.simsysHonoMwInstalled <;>
    by_cases hroute : app.props.simsysHonoRouteInstalled <;> simp [hmw, hroute]

/-- A wired app has its middleware and its metrics route behind it. The handlers of the host in
front of either were in front of it before, and the path of the route is the one of the install, or
was there. -/
theorem routed_wired (o : InstallOpts) {app : App} (h : Shaped app) :
    ∃ (before : List ℕ) (service : String) (between : List ℕ) (path : String) (after : List ℕ),
      (app.wired o).handlers = before.map .host ++ .recorder service ::
        (between.map .host ++ .metricsRoute path :: after.map .host) ∧
      (∀ id ∈ before, .host id ∈ aheadOfRecorder app.handlers) ∧
      (∀ id ∈ between, .host id ∈ aheadOfRoute app.handlers) ∧
      (path = metricsPath o ∨ .metricsRoute path ∈ app.handlers) := by
  rw [(handlers_wired app o).1]
  unfold Shaped at h
  generalize app.handlers = handlers, app.props.simsysHonoMwInstalled = mw,
    app.props.simsysHonoRouteInstalled = route at h ⊢
  -- The handlers of the host at the start of a list are in front of both.
  have hrec {ids : List ℕ} {rest : List Handler} :
      ∀ id ∈ ids, .host id ∈ aheadOfRecorder (ids.map .host ++ rest) := by
    intro id hid
    rw [aheadOfRecorder_hosts]
    exact List.mem_append_left _ (List.mem_map_of_mem hid)
  have hroute {before ids : List ℕ} {service : String} {rest : List Handler} :
      ∀ id ∈ ids, .host id ∈
        aheadOfRoute (before.map .host ++ .recorder service :: (ids.map .host ++ rest)) := by
    intro id hid
    rw [aheadOfRoute_hosts, aheadOfRoute_recorder, aheadOfRoute_hosts]
    simp [hid]
  cases h with
  | bare ids =>
    refine ⟨ids, o.service, [], metricsPath o, [], rfl, ?_, by simp, Or.inl rfl⟩
    rw [← List.append_nil (ids.map Handler.host)]
    exact hrec
  | used before service after =>
    refine ⟨before, service, after, metricsPath o, [], by simp, hrec, ?_, Or.inl rfl⟩
    rw [← List.append_nil (after.map Handler.host)]
    exact hroute
  | routed before service between path after =>
    exact ⟨before, service, between, path, after, by simp, hrec, hroute, Or.inr (by simp)⟩

/-- A wired app is shaped. -/
theorem shaped_wired (o : InstallOpts) {app : App} (h : Shaped app) : Shaped (app.wired o) := by
  obtain ⟨before, service, between, path, after, hhandlers, -⟩ := routed_wired o h
  obtain ⟨-, hmw, hroute⟩ := handlers_wired app o
  unfold Shaped
  rw [hhandlers, hmw, hroute]
  exact .routed before service between path after

/-- The properties of a wired app that its handlers read. -/
theorem props_wired (app : App) (o : InstallOpts) :
    (app.wired o).basePath = app.basePath ∧
      (app.wired o).props.simsysMetricsInstalled = true ∧
      (app.wired o).props.simsysService = some o.service ∧
      (app.wired o).props.simsysMetricsPath =
        some (absoluteMetricsPath app.basePath (metricsPath o)) := by
  unfold App.wired App.arm App.getMetrics App.useRecorder
  split_ifs <;> exact ⟨rfl, rfl, rfl, rfl⟩

/-- What an install leaves of its app. -/
inductive Wired (o : InstallOpts) (app : App) : Installed App → Prop where
  /-- It returned: everything is registered, and the properties are set. -/
  | returned (p : Proc) : Wired o app ⟨p, app.wired o, false⟩
  /-- It threw before it registered the middleware. -/
  | threw (p : Proc) : Wired o app ⟨p, app.rollback, true⟩
  /-- It threw after that. -/
  | threwLate (p : Proc) : Wired o app ⟨p, ((app.describe o).useRecorder o).rollback, true⟩

/-- Every install of an app without its sentinel leaves one of these. -/
theorem wired_install (env : Env) (o : InstallOpts) (fault : Option (Fault WireFault)) (p : Proc)
    {app : App} (hclear : app.props.simsysMetricsInstalled = false) :
    Wired o app (installHono env o fault p app) := by
  have hout := outcome_installOn adapter env o fault p app
  unfold installHono
  generalize installOn adapter env o fault p app = r at hout ⊢
  cases hout with
  | alreadyInstalled hinst =>
    have hset : app.props.simsysMetricsInstalled = true := hinst
    rw [hclear] at hset
    cases hset
  | serviceThrew => exact .threw _
  | collectorThrew => exact .threw _
  | defaultsThrew => exact .threw _
  | buildInfoThrew => exact .threw _
  | wireThrew process state q place wired hreg hdef hfault hwire =>
    simp only [adapter] at hwire
    -- A registration that is skipped does not throw.
    rcases place with _ | _
    · dsimp only at hwire
      split_ifs at hwire with hmw
      · cases hwire
      · obtain ⟨rfl, -⟩ := Prod.mk.inj hwire
        exact .threw _
    · dsimp only at hwire
      split_ifs at hwire with hroute
      · cases hwire
      · obtain ⟨rfl, -⟩ := Prod.mk.inj hwire
        exact .threwLate _
  | succeeded process state q wired hinst hreg hdef hwire =>
    simp only [adapter] at hwire
    rcases hplace : Fault.wire? fault with _ | (_ | _)
    · rw [hplace] at hwire
      obtain ⟨rfl, -⟩ := Prod.mk.inj hwire
      exact .returned _
    · rw [hplace] at hwire
      dsimp only at hwire
      split_ifs at hwire
      · obtain ⟨rfl, -⟩ := Prod.mk.inj hwire
        exact .returned _
      · cases hwire
    · rw [hplace] at hwire
      dsimp only at hwire
      split_ifs at hwire
      · obtain ⟨rfl, -⟩ := Prod.mk.inj hwire
        exact .returned _
      · cases hwire

/-- Every install of an app without its sentinel keeps its shape. -/
theorem shaped_install (env : Env) (o : InstallOpts) (fault : Option (Fault WireFault)) (p : Proc)
    {app : App} (hclear : app.props.simsysMetricsInstalled = false) (h : Shaped app) :
    Shaped (installHono env o fault p app).app := by
  have hwired := wired_install env o fault p hclear
  have hused := shaped_useRecorder o (show Shaped (app.describe o) from h)
  generalize installHono env o fault p app = r at hwired ⊢
  cases hwired with
  | returned => exact shaped_wired o h
  | threw => exact h
  | threwLate => exact hused

/-! ## A request -/

/-- The route label: the patterns that Hono reports when no route handler matched count as none. -/
def routeLabel (rawRoute : String) : String :=
  if rawRoute ≠ "" ∧ rawRoute ≠ "/*" ∧ rawRoute ≠ "*" then rawRoute else "__unmatched__"

/-- What the middleware reads once the later handlers are done: `c.req.method`, `c.req.routePath`,
and `c.res.status`, if there is a response. -/
structure Finished where
  method : Option String
  routePath : Option String
  status : Option StatusCode
deriving DecidableEq, Repr

/-- The recording middleware: what it counts for a request with a path. `service` is the variable
that it closes over. -/
def record (props : Props) (service path : String) (f : Finished) : Option (HttpLabels String) :=
  if props.simsysMetricsInstalled = false then none
  else if path = props.simsysMetricsPath.getD "/metrics" then none
  else
    some ⟨props.simsysService.getD service, normalizeMethod f.method,
      routeLabel (f.routePath.getD ""), statusBucket (f.status.getD (.number 500))⟩

/-- What Hono and the host supply to a request: how a pattern is merged with the base path, which
paths a pattern matches, what a handler of the host answers by itself instead of calling the next
one, and what `notFound` answers. -/
structure Router where
  mergePath : String → String → String
  covers : String → String → Bool
  answers : ℕ → Request → Option Finished
  notFound : Request → Finished

/-- What a request meets: whether the exposition answers it, what the middleware reads of the
answer, and what is counted. -/
structure Served where
  exposition : Bool
  finished : Finished
  counted : List (HttpLabels String)
deriving DecidableEq, Repr

/-- The handlers in order. The middleware counts after the later handlers are done. -/
def serve (router : Router) (app : App) (req : Request) : List Handler → Served
  | [] => ⟨false, router.notFound req, []⟩
  | .host id :: handlers =>
    match router.answers id req with
    | some finished => ⟨false, finished, []⟩
    | none => serve router app req handlers
  | .recorder service :: handlers =>
    let served := serve router app req handlers
    if router.covers (router.mergePath app.basePath "*") req.path then
      { served with counted :=
          served.counted ++ (record app.props service req.path served.finished).toList }
    else served
  | .metricsRoute metricsPath :: handlers =>
    let pattern := router.mergePath app.basePath metricsPath
    -- `app.get` also takes `HEAD` requests.
    if router.covers pattern req.path ∧ (req.method = "GET" ∨ req.method = "HEAD") then
      if app.props.simsysMetricsInstalled then
        ⟨true, ⟨some req.method, some pattern, some (.number 200)⟩, []⟩
      else ⟨false, { router.notFound req with routePath := some pattern }, []⟩
    else serve router app req handlers

/-- What a request to the app meets. -/
def App.handle (router : Router) (app : App) (req : Request) : Served :=
  serve router app req app.handlers

/-- What is counted carries the service that is set on the app. -/
theorem service_of_counted (router : Router) {app : App} (req : Request) {service : String}
    (h : app.props.simsysService = some service) (handlers : List Handler) :
    ∀ l ∈ (serve router app req handlers).counted, l.service = service := by
  induction handlers with
  | nil =>
    intro l hl
    cases hl
  | cons handler handlers ih =>
    rcases handler with id | s | path
    · unfold serve
      cases router.answers id req with
      | none => exact ih
      | some finished =>
        intro l hl
        cases hl
    · -- The middleware counts under the service on the app, not under its own.
      unfold serve
      dsimp only
      split_ifs
      · intro l hl
        rcases List.mem_append.mp hl with hl | hl
        · exact ih l hl
        · unfold record at hl
          split_ifs at hl
          · cases hl
          · cases hl
          · rw [List.mem_singleton.mp hl, h]
            rfl
      · exact ih
    · -- The metrics route answers a scrape, and leaves the rest to the handlers after it.
      unfold serve
      dsimp only
      split_ifs
      · intro l hl
        cases hl
      · intro l hl
        cases hl
      · exact ih

end SimsysMetrics.Node.Hono
