import Mathlib.Data.List.Basic
import SimsysMetrics.Http
import SimsysMetrics.Python.Install

/-!
# The FastAPI adapter

`install_fastapi` of `simsys_metrics/fastapi.py`, over the lists of Starlette that it changes. An
application keeps its middlewares outermost first, and `add_middleware` puts the new one in front;
the router tries its routes in order, and registering one appends it.

The `except` block truncates both lists to the lengths that they had. That drops what was appended
to the routes. It does not drop what was put in front of the middlewares: it drops the innermost
middleware of the host instead (`app_of_mountRaises`). So a failed install gives back the lists of
an app without middlewares, and of every app where something else than mounting raised, and of no
other (`rollback_exact_iff`).
-/

namespace SimsysMetrics.Python.FastApi

/-- An entry of `app.user_middleware`: one of the host's, by its identity, or `_SimsysHTTPMetrics`
with the variables that it closes over. -/
inductive Middleware where
  | host (id : ℕ)
  | simsys (service metricsPath : String)
deriving DecidableEq, Repr

/-- An entry of `app.router.routes`: one of the host's, by its identity, or a metrics route. -/
inductive Route where
  | host (id : ℕ)
  | metrics (path : String)
deriving DecidableEq, Repr

/-- The parts of an app that an install reads and changes. -/
structure App where
  /-- `app.state.simsys_metrics_installed`. -/
  metricsInstalled : Bool
  /-- `app.state.simsys_service`. -/
  service : Option String
  /-- `app.state.simsys_version`. -/
  version : Option String
  /-- `app.state.simsys_exempt_paths`. -/
  exemptPaths : Option (Finset String)
  /-- `app.user_middleware`, outermost first. -/
  userMiddleware : List Middleware
  /-- `app.router.routes`, in the order in which they are tried. -/
  routes : List Route
deriving DecidableEq

/-- An app with the middlewares and routes of its host only. -/
def App.hosted (middlewares routes : List ℕ) : App :=
  ⟨false, none, none, none, middlewares.map .host, routes.map .host⟩

/-- Where the wiring may raise. -/
inductive WireFault where
  /-- `add_middleware` raises, on an app that has started serving. -/
  | addMiddleware
  /-- Mounting the metrics endpoint raises, after it has registered `added`. -/
  | mount (added : List Route)
deriving DecidableEq, Repr

/-- `Starlette.add_middleware`. -/
def App.addMiddleware (app : App) (m : Middleware) : App :=
  { app with userMiddleware := m :: app.userMiddleware }

/-- The registration of routes. -/
def App.addRoutes (app : App) (routes : List Route) : App :=
  { app with routes := app.routes ++ routes }

/-- The app with middlewares and routes that a host adds; the middlewares are given outermost
first. -/
def App.addHost (app : App) (middlewares routes : List ℕ) : App :=
  { app with
    userMiddleware := middlewares.map .host ++ app.userMiddleware
    routes := app.routes ++ routes.map .host }

/-- What `install_fastapi` does to its app. -/
def adapter : Adapter App WireFault where
  installed app := app.metricsInstalled
  mark o app :=
    { app with
      metricsInstalled := true
      service := some o.service
      version := some o.version
      exemptPaths := some (buildExemptPaths o.metricsPath) }
  wire o fault app :=
    let wired := app.addMiddleware (.simsys o.service o.metricsPath)
    match fault with
    | some .addMiddleware => (app, true)
    | some (.mount added) => (wired.addRoutes added, true)
    | none => (wired.addRoutes [.metrics o.metricsPath], false)
  unwire pre app :=
    { metricsInstalled := false
      service := none
      version := none
      exemptPaths := none
      userMiddleware := app.userMiddleware.take pre.userMiddleware.length
      routes := app.routes.take pre.routes.length }

/-- `install_fastapi`. -/
def installFastapi (env : Env) (o : InstallOpts) (fault : Option (Fault WireFault)) (p : Proc)
    (app : App) : Installed App :=
  installOn adapter env o fault p app

/-! ## A request -/

/-- What `dispatch` sees of the rest of the stack: the status of the response, none where it raised,
and the path of `scope["route"]`. -/
structure Handled where
  status : Option StatusCode
  routePath : Option String
deriving DecidableEq, Repr

/-- The route label; an empty path counts as none. -/
def routeLabel (routePath : Option String) : String :=
  match routePath with
  | some path => if path = "" then "__unmatched__" else path
  | none => "__unmatched__"

/-- `_SimsysHTTPMetrics.dispatch`: what it counts for a request. -/
def dispatch (service metricsPath : String) (req : Request) (h : Handled) :
    Option (HttpLabels String) :=
  if req.path = metricsPath then none
  else
    some ⟨service, normalizeMethod (some req.method), routeLabel h.routePath,
      statusBucket (h.status.getD (.int 500))⟩

/-- What the host and the framework do with a request: what a middleware answers by itself instead
of calling the next one, what a route that matches answers, and what is answered where none does. -/
structure Host where
  answers : ℕ → Request → Option Handled
  routes : ℕ → Request → Option Handled
  unmatched : Request → Handled

/-- What a request meets: whether the exposition answers it, what is seen of the answer, and what is
counted. -/
structure Served where
  exposition : Bool
  handled : Handled
  counted : List (HttpLabels String)
deriving DecidableEq, Repr

/-- The router: the first route that matches. -/
def routeRequest (host : Host) (req : Request) : List Route → Served
  | [] => ⟨false, host.unmatched req, []⟩
  | .host id :: routes =>
    match host.routes id req with
    | some h => ⟨false, h, []⟩
    | none => routeRequest host req routes
  | .metrics path :: routes =>
    if req.path = path ∧ req.method = "GET" then ⟨true, ⟨some (.int 200), some path⟩, []⟩
    else routeRequest host req routes

/-- The middlewares, outermost first, around the router. -/
def callNext (host : Host) (req : Request) (inner : Served) : List Middleware → Served
  | [] => inner
  | .host id :: middlewares =>
    match host.answers id req with
    | some h => ⟨false, h, []⟩
    | none => callNext host req inner middlewares
  | .simsys service metricsPath :: middlewares =>
    let served := callNext host req inner middlewares
    { served with counted :=
        served.counted ++ (dispatch service metricsPath req served.handled).toList }

/-- What a request to the app meets. -/
def App.handle (host : Host) (app : App) (req : Request) : Served :=
  callNext host req (routeRequest host req app.routes) app.userMiddleware

/-- The router counts nothing. -/
theorem counted_routeRequest (host : Host) (req : Request) (routes : List Route) :
    (routeRequest host req routes).counted = [] := by
  induction routes with
  | nil => rfl
  | cons r routes ih =>
    rcases r with id | path
    · unfold routeRequest
      cases host.routes id req with
      | none => exact ih
      | some h => rfl
    · unfold routeRequest
      split_ifs
      · rfl
      · exact ih

/-- What is counted carries the service of the simsys middlewares. -/
theorem service_of_counted (host : Host) (req : Request) {inner : Served}
    (hinner : inner.counted = []) {service : String} {ms : List Middleware}
    (hms : ∀ s path, .simsys s path ∈ ms → s = service) :
    ∀ l ∈ (callNext host req inner ms).counted, l.service = service := by
  induction ms with
  | nil =>
    intro l hl
    rw [callNext, hinner] at hl
    cases hl
  | cons m ms ih =>
    have hrest := ih fun s path hm => hms s path (List.mem_cons_of_mem _ hm)
    rcases m with id | ⟨s, path⟩
    · unfold callNext
      cases host.answers id req with
      | none => exact hrest
      | some h =>
        intro l hl
        cases hl
    · obtain rfl := hms s path List.mem_cons_self
      intro l hl
      rw [callNext] at hl
      rcases List.mem_append.mp hl with hl | hl
      · exact hrest l hl
      · unfold dispatch at hl
        split_ifs at hl
        · cases hl
        · rw [List.mem_singleton.mp hl]

/-! ## The rollback of the app -/

/-- The app without what an install sets on `app.state`. -/
def App.cleared (app : App) : App :=
  { app with metricsInstalled := false, service := none, version := none, exemptPaths := none }

/-- Mounting the metrics endpoint is what raises: the fault is in it, and the collector step, which
comes before it, goes through. -/
def MountRaises (env : Env) (o : InstallOpts) (fault : Option (Fault WireFault)) (p : Proc) :
    Prop :=
  (∃ added, fault = some (.wire (.mount added))) ∧
    (env.multiproc = true ∨ p.collectors.Accepts o.service)

section Rollback

variable {env : Env} {o : InstallOpts} {fault : Option (Fault WireFault)} {p : Proc} {app : App}

/-- The rollback of an app where nothing was wired. -/
theorem unwire_marked (o : InstallOpts) (app : App) :
    adapter.unwire (adapter.mark o app) (adapter.mark o app) = app.cleared := by
  simp [adapter, App.cleared]

/-- The rollback of an app where a middleware was put in front and routes were appended: it keeps
the middleware, and drops the innermost one. -/
theorem unwire_wired (o : InstallOpts) (app : App) (m : Middleware) (added : List Route) :
    adapter.unwire (adapter.mark o app) (((adapter.mark o app).addMiddleware m).addRoutes added) =
      { app.cleared with userMiddleware := (m :: app.userMiddleware).dropLast } := by
  rw [List.dropLast_eq_take]
  simp [adapter, App.cleared, App.addMiddleware, App.addRoutes]

/-- An install that raises before or in `add_middleware` gives the lists back. -/
theorem app_of_raised (h : (installFastapi env o fault p app).raised = true)
    (hm : ¬ MountRaises env o fault p) :
    (installFastapi env o fault p app).app = app.cleared := by
  have hout := outcome_installOn adapter env o fault p app
  have hstep := collectorStep_isSome_iff env o.service p.collectors
  unfold installFastapi at h ⊢
  generalize installOn adapter env o fault p app = r at hout h ⊢
  cases hout with
  | alreadyInstalled => cases h
  | serviceRaised => exact unwire_marked o app
  | collectorRaised => exact unwire_marked o app
  | buildInfoRaised => exact unwire_marked o app
  | wireRaised c state wired hinst hset hbi hc hwire =>
    obtain _ | _ | _ | _ | (_ | added) := fault
    · cases hwire
    · cases hwire
    · cases hwire
    · cases hwire
    · obtain ⟨rfl, -⟩ := Prod.mk.inj hwire
      exact unwire_marked o app
    · refine absurd ⟨⟨added, rfl⟩, hstep.mp ?_⟩ hm
      rw [show collectorStep env none o.service p.collectors = (c, some state) from hc]
      rfl
  | succeeded => cases h

/-- An install whose mounting raises drops the innermost middleware, not its own. -/
theorem app_of_mountRaises (h : (installFastapi env o fault p app).raised = true)
    (hm : MountRaises env o fault p) :
    (installFastapi env o fault p app).app =
      { app.cleared with
        userMiddleware :=
          (Middleware.simsys o.service o.metricsPath :: app.userMiddleware).dropLast } := by
  have hout := outcome_installOn adapter env o fault p app
  have hstep := collectorStep_isSome_iff env o.service p.collectors
  obtain ⟨⟨added, rfl⟩, hpass⟩ := hm
  unfold installFastapi at h ⊢
  generalize installOn adapter env o (some (.wire (.mount added))) p app = r at hout h ⊢
  cases hout with
  | alreadyInstalled => cases h
  | serviceRaised hinst hfault => cases hfault
  | collectorRaised c hinst hc =>
    have hsome := hstep.mpr hpass
    rw [show collectorStep env none o.service p.collectors = (c, none) from hc] at hsome
    cases hsome
  | buildInfoRaised c state place hinst hfault => cases hfault
  | wireRaised c state wired hinst hset hbi hc hwire =>
    obtain ⟨rfl, -⟩ := Prod.mk.inj hwire
    exact unwire_wired o app _ added
  | succeeded => cases h

end Rollback

/-- Whether the middleware is simsys'. -/
def Middleware.isSimsys : Middleware → Bool
  | .host _ => false
  | .simsys _ _ => true

/-- After a later install that returns, the app has the host's own middlewares and exactly one
simsys middleware. -/
def RetryComplete (middlewares : List ℕ) (app : App) : Prop :=
  ∀ env o p, (installFastapi env o none p app).raised = false →
    let retried := (installFastapi env o none p app).app.userMiddleware
    retried.filter (!·.isSimsys) = middlewares.map .host ∧ retried.countP (·.isSimsys) = 1

/-- The lists of the app are those of the host, and a retry completes them. -/
def RolledBack (middlewares routes : List ℕ) (app : App) : Prop :=
  app.userMiddleware = middlewares.map .host ∧ app.routes = routes.map .host ∧
    RetryComplete middlewares app

/-- An install that returns puts its middleware in front and appends its route. -/
theorem app_of_returned {env : Env} {o : InstallOpts} {fault : Option (Fault WireFault)} {p : Proc}
    {app : App} (hclear : app.metricsInstalled = false)
    (hreturned : (installFastapi env o fault p app).raised = false) :
    (installFastapi env o fault p app).app = ((adapter.mark o app).addMiddleware
      (.simsys o.service o.metricsPath)).addRoutes [.metrics o.metricsPath] := by
  obtain ⟨c, state, wired, -, hwire, hinstall⟩ := steps_of_returned hclear hreturned
  unfold installFastapi
  rw [hinstall]
  -- Only the wiring without a fault returns.
  rcases hplace : Fault.wire? fault with _ | (_ | added)
  · rw [hplace] at hwire
    exact (Prod.mk.inj hwire).1.symm
  · rw [hplace] at hwire
    cases hwire
  · rw [hplace] at hwire
    cases hwire

/-- An app with the middlewares of its host only is complete after a retry. -/
theorem retryComplete_of_hosted {middlewares : List ℕ} {app : App}
    (hclear : app.metricsInstalled = false) (hmw : app.userMiddleware = middlewares.map .host) :
    RetryComplete middlewares app := by
  intro env o p hreturned
  have hlist : (installFastapi env o none p app).app.userMiddleware =
      .simsys o.service o.metricsPath :: middlewares.map .host := by
    rw [app_of_returned hclear hreturned, ← hmw]
    rfl
  dsimp only
  rw [hlist]
  constructor
  · simp [Middleware.isSimsys, List.filter_map, Function.comp_def]
  · simp [Middleware.isSimsys, List.countP_map, Function.comp_def]

/-- A failed install gives an app's lists back, and a retry then completes them, exactly where the
host has no middleware, or something else than mounting the metrics endpoint raised. -/
theorem rollback_exact_iff (env : Env) (o : InstallOpts) (fault : Option (Fault WireFault))
    (p : Proc) (middlewares routes : List ℕ)
    (hraised : (installFastapi env o fault p (.hosted middlewares routes)).raised = true) :
    RolledBack middlewares routes (installFastapi env o fault p (.hosted middlewares routes)).app ↔
      middlewares = [] ∨ ¬ MountRaises env o fault p := by
  constructor
  · rintro ⟨hmw, -, -⟩
    by_cases hm : MountRaises env o fault p
    · left
      rw [app_of_mountRaises hraised hm] at hmw
      -- The truncated list starts with the simsys middleware, unless it is empty.
      rcases middlewares with _ | ⟨id, middlewares⟩
      · rfl
      · simp [App.hosted] at hmw
    · exact Or.inr hm
  · intro h
    by_cases hm : MountRaises env o fault p
    · -- Without a middleware of the host, the truncation drops the one that was put in front.
      obtain rfl := h.resolve_right (not_not_intro hm)
      have happ := app_of_mountRaises hraised hm
      refine ⟨by rw [happ]; rfl, by rw [happ]; rfl, ?_⟩
      exact retryComplete_of_hosted (by rw [happ]; rfl) (by rw [happ]; rfl)
    · have happ := app_of_raised hraised hm
      refine ⟨by rw [happ]; rfl, by rw [happ]; rfl, ?_⟩
      exact retryComplete_of_hosted (by rw [happ]; rfl) (by rw [happ]; rfl)

/-- An app without middlewares and with one route is given back when mounting raises. -/
theorem rollback_exact_bare :
    (installFastapi singleProcess portalOpts (some (.wire (.mount []))) .fresh
        (.hosted [] [7])).raised = true ∧
      (RolledBack [] [7] (installFastapi singleProcess portalOpts (some (.wire (.mount []))) .fresh
        (.hosted [] [7])).app ↔
          ([] : List ℕ) = [] ∨
            ¬ MountRaises singleProcess portalOpts (some (.wire (.mount []))) .fresh) :=
  ⟨by decide, rollback_exact_iff singleProcess portalOpts (some (.wire (.mount []))) .fresh [] [7]
    (by decide)⟩

/-- An app with one middleware loses it when mounting raises, and keeps simsys' instead; a retry
then stacks a second one. -/
theorem mount_failure_drops_host_middleware :
    (installFastapi singleProcess portalOpts (some (.wire (.mount []))) .fresh
        (.hosted [0] [])).raised = true ∧
      (installFastapi singleProcess portalOpts none .fresh
        (installFastapi singleProcess portalOpts (some (.wire (.mount []))) .fresh
          (.hosted [0] [])).app).app.userMiddleware =
        [.simsys "portal" "/metrics", .simsys "portal" "/metrics"] ∧
      ¬ RolledBack [0] [] (installFastapi singleProcess portalOpts (some (.wire (.mount []))) .fresh
        (.hosted [0] [])).app := by
  refine ⟨by decide, by decide, ?_⟩
  rintro ⟨hmw, -, -⟩
  revert hmw
  decide

end SimsysMetrics.Python.FastApi
