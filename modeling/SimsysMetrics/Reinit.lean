import SimsysMetrics.Python.FastApi
import SimsysMetrics.Node.Rollback

/-!
# Re-initialising an app

A caller re-initialises an app by dropping its sentinel and installing again; between the installs
the host goes on wiring its own parts. `AsInstalledOnce` says what is owed after an install that
returned: the app behaves as if it had been installed once, with the latest options.

The earlier wiring stays in place. Express and FastAPI wire again, so every request is then counted
by both; Hono does not, so its metrics route keeps the path of the install that registered it. So an
app behaves as installed once where the install finds no earlier wiring (`FastApi.Ready`,
`Express.Ready`), or, for Hono, none whose path differs (`Hono.Ready`). What such an install leaves
(`WiredFor`) is kept by what the host adds, so along every run whose steps meet the condition the
app behaves as installed once, with the options of the latest install, in every state where that
install returned (`reinit_as_installed_once`).
-/

namespace SimsysMetrics

open Lib (run Along invariant_along)

/-- The app behaves as installed once: a request that is not about the metrics endpoint is counted
once, under the service, and the metrics path is answered by the exposition and not counted. -/
structure AsInstalledOnce (aboutMetrics : Request → Prop) (service metricsPath : String)
    (exposition : Request → Bool) (counted : Request → List (HttpLabels String)) : Prop where
  /-- Every request that is not about the metrics endpoint is counted once. -/
  counts : ∀ req, ¬ aboutMetrics req → ∃ l, counted req = [l] ∧ l.service = service
  /-- The metrics endpoint is served at the metrics path. -/
  serves : exposition ⟨metricsPath, "GET"⟩ = true
  /-- The metrics path is exempt, whatever the method. -/
  exempts : ∀ method, counted ⟨metricsPath, method⟩ = []

/-! ## FastAPI -/

namespace Python.FastApi

/-- What happens to an app: an install after its sentinel was dropped, with the step that raises, if
any, or the host adds middlewares and routes. -/
inductive Step where
  | install (env : Env) (o : InstallOpts) (fault : Option (Fault WireFault))
  | addHost (middlewares routes : List ℕ)

/-- The process and the app in a run, and the options of the latest install, if it returned. -/
structure Live where
  proc : Proc
  app : App
  latest : Option InstallOpts

/-- The app without the sentinel. -/
def App.dropSentinel (app : App) : App := { app with metricsInstalled := false }

/-- The state after a step. -/
def step (s : Live) : Step → Live
  | .install env o fault =>
    let r := installFastapi env o fault s.proc s.app.dropSentinel
    ⟨r.proc, r.app, if r.raised then none else some o⟩
  | .addHost middlewares routes => { s with app := s.app.addHost middlewares routes }

/-- An install finds no simsys middleware, and middlewares and routes of the host that leave the
metrics path to it. -/
structure Ready (host : Host) (app : App) (o : InstallOpts) : Prop where
  /-- The middlewares are the host's, and none answers the metrics path. -/
  middlewares : ∀ m ∈ app.userMiddleware,
    ∃ id, m = .host id ∧ host.answers id ⟨o.metricsPath, "GET"⟩ = none
  /-- No route of the host matches the metrics path. -/
  routes : ∀ id, .host id ∈ app.routes → host.routes id ⟨o.metricsPath, "GET"⟩ = none

/-- The condition on a step. The middlewares that the host puts in front of the one of an install
pass every request on. -/
def Admits (host : Host) (s : Live) : Step → Prop
  | .install _ o _ => Ready host s.app o
  | .addHost middlewares _ =>
    s.latest.isSome → ∀ id ∈ middlewares, ∀ req, host.answers id req = none

/-- The app is wired by one install: its middleware is behind middlewares that pass every request
on, the others leave the metrics path to it, and so do the routes in front of its own. -/
structure WiredFor (host : Host) (o : InstallOpts) (app : App) : Prop where
  /-- The middlewares. -/
  middlewares : ∃ front back : List Middleware,
    app.userMiddleware = front ++ .simsys o.service o.metricsPath :: back ∧
    (∀ m ∈ front, ∃ id, m = .host id ∧ ∀ req, host.answers id req = none) ∧
    ∀ m ∈ back, ∃ id, m = .host id ∧ host.answers id ⟨o.metricsPath, "GET"⟩ = none
  /-- The routes. -/
  routes : ∃ before after : List Route, app.routes = before ++ .metrics o.metricsPath :: after ∧
    ∀ id, .host id ∈ before → host.routes id ⟨o.metricsPath, "GET"⟩ = none

/-- The host's middlewares count nothing. -/
theorem counted_callNext (host : Host) (req : Request) {inner : Served}
    (hinner : inner.counted = []) {ms : List Middleware} (hms : ∀ m ∈ ms, ∃ id, m = .host id) :
    (callNext host req inner ms).counted = [] := by
  induction ms with
  | nil => exact hinner
  | cons m ms ih =>
    obtain ⟨id, rfl⟩ := hms m List.mem_cons_self
    unfold callNext
    cases host.answers id req with
    | none => exact ih fun m hm => hms m (List.mem_cons_of_mem _ hm)
    | some h => rfl

/-- Middlewares that pass a request on leave what the later ones do. -/
theorem callNext_of_passes (host : Host) (req : Request) (inner : Served) {front : List Middleware}
    (h : ∀ m ∈ front, ∃ id, m = .host id ∧ host.answers id req = none) (ms : List Middleware) :
    callNext host req inner (front ++ ms) = callNext host req inner ms := by
  induction front with
  | nil => rfl
  | cons m front ih =>
    obtain ⟨id, rfl, hpass⟩ := h m List.mem_cons_self
    rw [List.cons_append, callNext, hpass]
    exact ih fun m hm => h m (List.mem_cons_of_mem _ hm)

/-- A metrics route behind routes of the host that do not match its path answers it. -/
theorem exposition_routeRequest (host : Host) (path : String) {before : List Route}
    (h : ∀ id, .host id ∈ before → host.routes id ⟨path, "GET"⟩ = none) (after : List Route) :
    (routeRequest host ⟨path, "GET"⟩ (before ++ .metrics path :: after)).exposition = true := by
  induction before with
  | nil => simp [routeRequest]
  | cons r before ih =>
    have hrest := ih fun id hid => h id (List.mem_cons_of_mem _ hid)
    rcases r with id | path'
    · rw [List.cons_append, routeRequest, h id List.mem_cons_self]
      exact hrest
    · rw [List.cons_append, routeRequest]
      split_ifs
      · rfl
      · exact hrest

/-- A wired app behaves as installed once. -/
theorem WiredFor.asInstalledOnce {host : Host} {o : InstallOpts} {app : App}
    (h : WiredFor host o app) :
    AsInstalledOnce (·.path = o.metricsPath) o.service o.metricsPath
      (fun req => (app.handle host req).exposition) (fun req => (app.handle host req).counted) := by
  obtain ⟨front, back, hmw, hfront, hback⟩ := h.middlewares
  obtain ⟨before, after, hroutes, hbefore⟩ := h.routes
  -- The middlewares in front pass every request on, and those behind count nothing.
  have hhandle : ∀ req, app.handle host req = callNext host req (routeRequest host req app.routes)
      (.simsys o.service o.metricsPath :: back) := by
    intro req
    unfold App.handle
    rw [hmw]
    apply callNext_of_passes
    intro m hm
    obtain ⟨id, rfl, hpass⟩ := hfront m hm
    exact ⟨id, rfl, hpass req⟩
  have hnone : ∀ req,
      (callNext host req (routeRequest host req app.routes) back).counted = [] := by
    intro req
    refine counted_callNext host req (counted_routeRequest host req app.routes) fun m hm => ?_
    obtain ⟨id, hid, -⟩ := hback m hm
    exact ⟨id, hid⟩
  constructor
  · intro req hreq
    rw [hhandle, callNext]
    dsimp only
    rw [hnone, dispatch, if_neg hreq]
    exact ⟨_, rfl, rfl⟩
  · have hpass := callNext_of_passes host ⟨o.metricsPath, "GET"⟩
      (routeRequest host ⟨o.metricsPath, "GET"⟩ app.routes) hback []
    rw [List.append_nil] at hpass
    rw [hhandle, callNext, hpass, callNext, hroutes]
    exact exposition_routeRequest host o.metricsPath hbefore after
  · intro method
    rw [hhandle, callNext]
    dsimp only
    rw [hnone, dispatch, if_pos rfl]
    rfl

/-- An install that returns on a ready app wires it. -/
theorem wiredFor_of_returned {host : Host} {env : Env} {o : InstallOpts}
    {fault : Option (Fault WireFault)} {p : Proc} {app : App} (hready : Ready host app o)
    (hreturned : (installFastapi env o fault p app.dropSentinel).raised = false) :
    WiredFor host o (installFastapi env o fault p app.dropSentinel).app := by
  rw [app_of_returned rfl hreturned]
  constructor
  · refine ⟨[], app.userMiddleware, rfl, ?_, hready.middlewares⟩
    intro m hm
    cases hm
  · exact ⟨app.routes, [], rfl, hready.routes⟩

/-- Every step that meets the condition leaves the app wired by the latest install, if that
returned. -/
theorem wiredFor_step {host : Host} {s : Live} {e : Step}
    (h : ∀ o, s.latest = some o → WiredFor host o s.app) (hadmits : Admits host s e) :
    ∀ o, (step s e).latest = some o → WiredFor host o (step s e).app := by
  intro o ho
  cases e with
  | install env o' fault =>
    simp only [step] at ho ⊢
    split_ifs at ho with hraised
    obtain rfl := Option.some.inj ho
    exact wiredFor_of_returned hadmits (by simpa using hraised)
  | addHost middlewares routes =>
    obtain ⟨⟨front, back, hmw, hfront, hback⟩, before, after, hroutes, hbefore⟩ := h o ho
    have hpass := hadmits (Option.isSome_of_eq_some ho)
    refine ⟨⟨middlewares.map .host ++ front, back, ?_, ?_, hback⟩, before,
      after ++ routes.map .host, ?_, hbefore⟩
    -- The host's middlewares come in front of all others, and its routes behind.
    · show middlewares.map Middleware.host ++ s.app.userMiddleware = _
      rw [hmw, List.append_assoc]
    · intro m hm
      rcases List.mem_append.mp hm with hm | hm
      · obtain ⟨id, hid, rfl⟩ := List.mem_map.mp hm
        exact ⟨id, rfl, hpass id hid⟩
      · exact hfront m hm
    · show s.app.routes ++ routes.map Route.host = _
      rw [hroutes, List.append_assoc, List.cons_append]

/-- Along a run whose steps meet the condition, the app is wired by the latest install, if that
returned. -/
theorem wiredFor_run {host : Host} {s : Live} (hs : s.latest = none) {steps : List Step}
    (h : Along step (Admits host) s steps) :
    ∀ o, (run step s steps).latest = some o → WiredFor host o (run step s steps).app := by
  refine @invariant_along _ _ step (fun s => ∀ o, s.latest = some o → WiredFor host o s.app)
    _ (fun _ _ => wiredFor_step) s ?_ steps h
  intro o ho
  rw [hs] at ho
  cases ho

end Python.FastApi

/-! ## Node -/

namespace Node

/-- What happens to an app: an install after its sentinel was dropped, with the step that throws, if
any, or the host adds layers. -/
inductive Step (ω : Type) where
  | install (env : Env) (o : InstallOpts) (fault : Option (Fault ω))
  | addHost (ids : List ℕ)

/-- The process and the app in a run, and the options of the latest install, if it returned. -/
structure Live (α : Type) where
  proc : Proc
  app : α
  latest : Option InstallOpts

/-- The state after a step, by what an install does to an app without its sentinel, and how the host
adds layers. -/
def Live.stepBy {α ω : Type}
    (reinstall : Env → InstallOpts → Option (Fault ω) → Proc → α → Installed α)
    (addHost : α → List ℕ → α) (s : Live α) : Step ω → Live α
  | .install env o fault =>
    let r := reinstall env o fault s.proc s.app
    ⟨r.proc, r.app, if r.raised then none else some o⟩
  | .addHost ids => { s with app := addHost s.app ids }

end Node

/-! ## Express -/

namespace Node.Express

/-- The app without the sentinel. -/
def App.dropSentinel (app : App) : App :=
  { app with locals := { app.locals with simsysMetricsInstalled := false } }

/-- The state after a step. -/
def step : Live App → Step WireFault → Live App :=
  Live.stepBy (fun env o fault p app => installExpress env o fault p app.dropSentinel) App.addHost

/-- A request about the metrics endpoint of an install: its path is the metrics path, or the metrics
route takes it. -/
def AboutMetrics (router : Router) (o : InstallOpts) (req : Request) : Prop :=
  req.path = metricsPath o ∨
    router.routeMatches (metricsPath o) req.path ∧ (req.method = "GET" ∨ req.method = "HEAD")

instance (router : Router) (o : InstallOpts) (req : Request) :
    Decidable (AboutMetrics router o req) :=
  inferInstanceAs (Decidable (_ ∨ _ ∧ _))

/-- An install finds no simsys layer, layers of the host that pass every request on, and a metrics
path that its own pattern matches. -/
structure Ready (router : Router) (app : App) (o : InstallOpts) : Prop where
  /-- The layers are the host's, and none answers a request. -/
  stack : ∀ layer ∈ app.stack, ∃ id, layer = .host id ∧ ∀ req, router.answers id req = none
  /-- The metrics path has no pattern syntax. -/
  plain : router.routeMatches (metricsPath o) (metricsPath o) = true

/-- The condition on a step. -/
def Admits (router : Router) (s : Live App) : Step WireFault → Prop
  | .install _ o _ => Ready router s.app o
  | .addHost _ => True

/-- The app is wired by one install: its layers are behind layers that pass every request on, and no
other layer is simsys'. -/
structure WiredFor (router : Router) (o : InstallOpts) (app : App) : Prop where
  /-- The layers. -/
  stack : ∃ before after : List StackLayer, app.stack = before ++
      .metricsRoute (metricsPath o) :: .recorder o.service (metricsPath o) :: after ∧
    (∀ layer ∈ before, ∃ id, layer = .host id ∧ ∀ req, router.answers id req = none) ∧
    ∀ layer ∈ after, ∃ id, layer = .host id
  /-- The metrics path has no pattern syntax. -/
  plain : router.routeMatches (metricsPath o) (metricsPath o) = true

/-- Layers that pass a request on leave what the later ones do. -/
theorem serve_of_passes (router : Router) (req : Request) {hosts : List StackLayer}
    (h : ∀ layer ∈ hosts, ∃ id, layer = .host id ∧ ∀ req, router.answers id req = none)
    (layers : List StackLayer) : serve router req (hosts ++ layers) = serve router req layers := by
  induction hosts with
  | nil => rfl
  | cons layer hosts ih =>
    obtain ⟨id, rfl, hpass⟩ := h layer List.mem_cons_self
    rw [List.cons_append, serve, hpass req]
    exact ih fun layer hl => h layer (List.mem_cons_of_mem _ hl)

/-- The layers of the host count nothing. -/
theorem counted_hosts (router : Router) (req : Request) {layers : List StackLayer}
    (h : ∀ layer ∈ layers, ∃ id, layer = .host id) : (serve router req layers).counted = [] := by
  induction layers with
  | nil => rfl
  | cons layer layers ih =>
    obtain ⟨id, rfl⟩ := h layer List.mem_cons_self
    unfold serve
    cases router.answers id req with
    | none => exact ih fun layer hl => h layer (List.mem_cons_of_mem _ hl)
    | some finished => rfl

/-- A wired app behaves as installed once. -/
theorem WiredFor.asInstalledOnce {router : Router} {o : InstallOpts} {app : App}
    (h : WiredFor router o app) :
    AsInstalledOnce (AboutMetrics router o) o.service (metricsPath o)
      (fun req => (app.handle router req).exposition)
      (fun req => (app.handle router req).counted) := by
  obtain ⟨before, after, hstack, hbefore, hafter⟩ := h.stack
  -- The layers in front pass every request on to those of the install.
  have hserve : ∀ req, app.handle router req = serve router req
      (.metricsRoute (metricsPath o) :: .recorder o.service (metricsPath o) :: after) := by
    intro req
    unfold App.handle
    rw [hstack, serve_of_passes router req hbefore]
  have hnone := fun req => counted_hosts router req hafter
  constructor
  · intro req hreq
    -- The metrics route does not take the request, and the middleware does not exempt it.
    obtain ⟨hne, hroute⟩ := not_or.mp hreq
    rw [hserve, serve, if_neg hroute, serve]
    dsimp only
    rw [hnone, record, if_neg hne]
    exact ⟨_, rfl, rfl⟩
  · rw [hserve, serve, if_pos ⟨h.plain, Or.inl rfl⟩]
  · intro method
    rw [hserve, serve]
    split_ifs
    · rfl
    · rw [serve]
      dsimp only
      rw [hnone, record, if_pos rfl]
      rfl

/-- An install that returns on a ready app wires it. -/
theorem wiredFor_of_returned {router : Router} {env : Env} {o : InstallOpts}
    {fault : Option (Fault WireFault)} {p : Proc} {app : App} (hready : Ready router app o)
    (hreturned : (installExpress env o fault p app.dropSentinel).raised = false) :
    WiredFor router o (installExpress env o fault p app.dropSentinel).app := by
  refine ⟨⟨app.stack, [], stack_of_returned rfl hreturned, hready.stack, ?_⟩, hready.plain⟩
  intro layer hlayer
  cases hlayer

/-- Every step that meets the condition leaves the app wired by the latest install, if that
returned. -/
theorem wiredFor_step {router : Router} {s : Live App} {e : Step WireFault}
    (h : ∀ o, s.latest = some o → WiredFor router o s.app) (hadmits : Admits router s e) :
    ∀ o, (step s e).latest = some o → WiredFor router o (step s e).app := by
  intro o ho
  cases e with
  | install env o' fault =>
    simp only [step, Live.stepBy] at ho ⊢
    split_ifs at ho with hraised
    obtain rfl := Option.some.inj ho
    exact wiredFor_of_returned hadmits (by simpa using hraised)
  | addHost ids =>
    obtain ⟨⟨before, after, hstack, hbefore, hafter⟩, hplain⟩ := h o ho
    refine ⟨⟨before, after ++ ids.map .host, ?_, hbefore, ?_⟩, hplain⟩
    · show s.app.stack ++ ids.map StackLayer.host = _
      rw [hstack, List.append_assoc, List.cons_append, List.cons_append]
    · intro layer hlayer
      rcases List.mem_append.mp hlayer with hlayer | hlayer
      · exact hafter layer hlayer
      · obtain ⟨id, -, rfl⟩ := List.mem_map.mp hlayer
        exact ⟨id, rfl⟩

/-- Along a run whose steps meet the condition, the app is wired by the latest install, if that
returned. -/
theorem wiredFor_run {router : Router} {s : Live App} (hs : s.latest = none)
    {steps : List (Step WireFault)} (h : Along step (Admits router) s steps) :
    ∀ o, (run step s steps).latest = some o → WiredFor router o (run step s steps).app := by
  refine @invariant_along _ _ step (fun s => ∀ o, s.latest = some o → WiredFor router o s.app)
    _ (fun _ _ => wiredFor_step) s ?_ steps h
  intro o ho
  rw [hs] at ho
  cases ho

end Node.Express

/-! ## Hono -/

namespace Node.Hono

/-- The app without the sentinel. -/
def App.dropSentinel (app : App) : App :=
  { app with props := { app.props with simsysMetricsInstalled := false } }

/-- The state after a step. -/
def step : Live App → Step WireFault → Live App :=
  Live.stepBy (fun env o fault p app => installHono env o fault p app.dropSentinel) App.addHost

/-- The absolute metrics path of an install of an app. -/
def absolutePath (app : App) (o : InstallOpts) : String :=
  absoluteMetricsPath app.basePath (metricsPath o)

/-- An install finds no metrics route, or one with its path; handlers of the host that pass every
request on in front of the middleware, and the metrics path in front of the metrics route; no base
path; and a pattern that Hono merges to the stored absolute path, which matches itself. -/
structure Ready (router : Router) (app : App) (o : InstallOpts) : Prop where
  /-- A metrics route that is there has the path of this install. -/
  route : ∀ path, .metricsRoute path ∈ app.handlers → path = metricsPath o
  /-- No handler of the host in front of the middleware answers a request. -/
  recorded : ∀ id, .host id ∈ aheadOfRecorder app.handlers → ∀ req, router.answers id req = none
  /-- No handler of the host in front of the metrics route answers the metrics path. -/
  served : ∀ id, .host id ∈ aheadOfRoute app.handlers →
    router.answers id ⟨absolutePath app o, "GET"⟩ = none
  /-- The pattern of the middleware matches every path. -/
  base : ∀ path, router.covers (router.mergePath app.basePath "*") path = true
  /-- The merged pattern is the stored path. -/
  merged : router.mergePath app.basePath (metricsPath o) = absolutePath app o
  /-- The stored path has no pattern syntax. -/
  plain : router.covers (absolutePath app o) (absolutePath app o) = true

/-- The condition on a step. -/
def Admits (router : Router) (s : Live App) : Step WireFault → Prop
  | .install _ o _ => Ready router s.app o
  | .addHost _ => True

/-- The app is wired for an install: its middleware is behind handlers that pass every request on,
the handlers between it and the metrics route leave the metrics path to that, and the properties are
those of the install. -/
structure WiredFor (router : Router) (o : InstallOpts) (app : App) : Prop where
  /-- The handlers. -/
  handlers : ∃ (before : List ℕ) (service : String) (between after : List ℕ),
    app.handlers = before.map .host ++ .recorder service ::
      (between.map .host ++ .metricsRoute (metricsPath o) :: after.map .host) ∧
    (∀ id ∈ before, ∀ req, router.answers id req = none) ∧
    ∀ id ∈ between, router.answers id ⟨absolutePath app o, "GET"⟩ = none
  /-- The properties that the handlers read. -/
  props : app.props.simsysMetricsInstalled = true ∧ app.props.simsysService = some o.service ∧
    app.props.simsysMetricsPath = some (absolutePath app o)
  /-- The pattern of the middleware matches every path. -/
  base : ∀ path, router.covers (router.mergePath app.basePath "*") path = true
  /-- The merged pattern is the stored path. -/
  merged : router.mergePath app.basePath (metricsPath o) = absolutePath app o
  /-- The stored path has no pattern syntax. -/
  plain : router.covers (absolutePath app o) (absolutePath app o) = true

/-- Handlers that pass a request on leave what the later ones do. -/
theorem serve_of_passes (router : Router) (app : App) (req : Request) {ids : List ℕ}
    (h : ∀ id ∈ ids, router.answers id req = none) (handlers : List Handler) :
    serve router app req (ids.map .host ++ handlers) = serve router app req handlers := by
  induction ids with
  | nil => rfl
  | cons id ids ih =>
    rw [List.map_cons, List.cons_append, serve, h id List.mem_cons_self]
    exact ih fun id hid => h id (List.mem_cons_of_mem _ hid)

/-- Handlers without the middleware count nothing. -/
theorem counted_of_no_recorder (router : Router) (app : App) (req : Request)
    {handlers : List Handler} (h : ∀ handler ∈ handlers, handler.isRecorder = false) :
    (serve router app req handlers).counted = [] := by
  induction handlers with
  | nil => rfl
  | cons handler handlers ih =>
    have hrest := ih fun handler hh => h handler (List.mem_cons_of_mem _ hh)
    have hhead := h handler List.mem_cons_self
    rcases handler with id | service | path
    · unfold serve
      cases router.answers id req with
      | none => exact hrest
      | some finished => rfl
    · cases hhead
    · unfold serve
      dsimp only
      split_ifs
      · rfl
      · rfl
      · exact hrest

/-- The middleware leaves the answer to the later handlers. -/
theorem exposition_recorder (router : Router) (app : App) (req : Request) (service : String)
    (handlers : List Handler) : (serve router app req (.recorder service :: handlers)).exposition =
      (serve router app req handlers).exposition := by
  rw [serve]
  split_ifs <;> rfl

/-- The metrics route of an installed app answers a path that its merged pattern matches. -/
theorem exposition_metricsRoute {router : Router} {app : App} {path path' : String}
    (hinst : app.props.simsysMetricsInstalled = true)
    (hcovers : router.covers (router.mergePath app.basePath path) path' = true)
    (handlers : List Handler) :
    (serve router app ⟨path', "GET"⟩ (.metricsRoute path :: handlers)).exposition = true := by
  unfold serve
  dsimp only
  rw [if_pos ⟨hcovers, Or.inl rfl⟩, if_pos hinst]

/-- A wired app behaves as installed once. -/
theorem WiredFor.asInstalledOnce {router : Router} {o : InstallOpts} {app : App}
    (h : WiredFor router o app) :
    AsInstalledOnce (·.path = absolutePath app o) o.service (absolutePath app o)
      (fun req => (app.handle router req).exposition)
      (fun req => (app.handle router req).counted) := by
  obtain ⟨before, service, between, after, hhandlers, hbefore, hbetween⟩ := h.handlers
  obtain ⟨hinst, hservice, hpath⟩ := h.props
  let rest : List Handler :=
    between.map .host ++ .metricsRoute (metricsPath o) :: after.map .host
  -- The handlers in front pass every request on to the middleware, and those behind count nothing.
  have hserve : ∀ req,
      app.handle router req = serve router app req (.recorder service :: rest) := by
    intro req
    unfold App.handle
    rw [hhandlers, serve_of_passes router app req fun id hid => hbefore id hid req]
  have hnone : ∀ req, (serve router app req rest).counted = [] := by
    intro req
    apply counted_of_no_recorder
    intro handler hmem
    rcases List.mem_append.mp hmem with hmem | hmem
    · obtain ⟨id, -, rfl⟩ := List.mem_map.mp hmem
      rfl
    · rcases List.mem_cons.mp hmem with rfl | hmem
      · rfl
      · obtain ⟨id, -, rfl⟩ := List.mem_map.mp hmem
        rfl
  have hlive : app.props.simsysMetricsPath.getD "/metrics" = absolutePath app o := by
    rw [hpath]
    rfl
  constructor
  · intro req hne
    rw [hserve, serve, if_pos (h.base req.path), hnone, record, hinst, hlive, if_neg (by simp),
      if_neg hne, hservice]
    exact ⟨_, rfl, rfl⟩
  · have hcovers : router.covers (router.mergePath app.basePath (metricsPath o))
        (absolutePath app o) = true := by
      rw [h.merged]
      exact h.plain
    rw [hserve, exposition_recorder, serve_of_passes router app _ hbetween]
    exact exposition_metricsRoute hinst hcovers _
  · intro method
    rw [hserve, serve, if_pos (h.base _), hnone, record, hinst, hlive, if_neg (by simp), if_pos rfl]
    rfl

/-- An install that returns on a ready app wires it. -/
theorem wiredFor_of_returned {router : Router} {env : Env} {o : InstallOpts}
    {fault : Option (Fault WireFault)} {p : Proc} {app : App} (hshape : Shaped app)
    (hready : Ready router app o)
    (hreturned : (installHono env o fault p app.dropSentinel).raised = false) :
    WiredFor router o (installHono env o fault p app.dropSentinel).app := by
  have happ : (installHono env o fault p app.dropSentinel).app = app.dropSentinel.wired o := by
    have hwired := wired_install env o fault p
      (rfl : app.dropSentinel.props.simsysMetricsInstalled = false)
    generalize installHono env o fault p app.dropSentinel = r at hwired hreturned ⊢
    cases hwired with
    | returned => rfl
    | threw => cases hreturned
    | threwLate => cases hreturned
  obtain ⟨hbase, hinst, hservice, hpath⟩ := props_wired app.dropSentinel o
  obtain ⟨before, service, between, path, after, hhandlers, hbefore, hbetween, hroute⟩ :=
    routed_wired o (show Shaped app.dropSentinel from hshape)
  -- The metrics route has the path of this install, whichever install registered it.
  obtain rfl : path = metricsPath o := hroute.elim id (hready.route path)
  have habs : absolutePath (app.dropSentinel.wired o) o = absolutePath app o :=
    congrArg (absoluteMetricsPath · (metricsPath o)) hbase
  rw [happ]
  constructor
  · refine ⟨before, service, between, after, hhandlers, ?_, ?_⟩
    · exact fun id hid => hready.recorded id (hbefore id hid)
    · rw [habs]
      exact fun id hid => hready.served id (hbetween id hid)
  · rw [habs]
    exact ⟨hinst, hservice, hpath⟩
  · rw [hbase]
    exact hready.base
  · rw [habs, hbase]
    exact hready.merged
  · rw [habs]
    exact hready.plain

/-- Every step keeps the shape of the handlers. -/
theorem shaped_step {s : Live App} (h : Shaped s.app) (e : Step WireFault) :
    Shaped (step s e).app := by
  cases e with
  | install env o fault => exact shaped_install env o fault s.proc rfl h
  | addHost ids => exact shaped_addHost h ids

/-- Every step that meets the condition leaves the app wired for the latest install, if that
returned. -/
theorem wiredFor_step {router : Router} {s : Live App} {e : Step WireFault} (hshape : Shaped s.app)
    (h : ∀ o, s.latest = some o → WiredFor router o s.app) (hadmits : Admits router s e) :
    ∀ o, (step s e).latest = some o → WiredFor router o (step s e).app := by
  intro o ho
  cases e with
  | install env o' fault =>
    simp only [step, Live.stepBy] at ho ⊢
    split_ifs at ho with hraised
    obtain rfl := Option.some.inj ho
    exact wiredFor_of_returned hshape hadmits (by simpa using hraised)
  | addHost ids =>
    obtain ⟨⟨before, service, between, after, hhandlers, hpass⟩, hprops, hbase, hmerged, hplain⟩ :=
      h o ho
    refine ⟨⟨before, service, between, after ++ ids, ?_, hpass⟩, hprops, hbase, hmerged, hplain⟩
    show s.app.handlers ++ ids.map Handler.host = _
    rw [hhandlers]
    simp

/-- Along a run whose steps meet the condition, the app is wired for the latest install, if that
returned. -/
theorem wiredFor_run {router : Router} {s : Live App} (hs : s.latest = none) (hshape : Shaped s.app)
    {steps : List (Step WireFault)} (h : Along step (Admits router) s steps) :
    ∀ o, (run step s steps).latest = some o → WiredFor router o (run step s steps).app := by
  -- The invariant also needs the shape of the handlers.
  refine (@invariant_along _ _ step
    (fun s => Shaped s.app ∧ ∀ o, s.latest = some o → WiredFor router o s.app) _ ?_ s ?_ steps h).2
  · intro t e ht hadmits
    exact ⟨shaped_step ht.1 e, wiredFor_step ht.1 ht.2 hadmits⟩
  · refine ⟨hshape, ?_⟩
    intro o ho
    rw [hs] at ho
    cases ho

end Node.Hono

/-! ## Runs of re-initialisations -/

/-- A run of an app of a host, with what the framework and the host supply to a request. -/
inductive Reinit where
  | fastapi (host : Python.FastApi.Host) (p : Python.Proc) (middlewares routes : List ℕ)
      (steps : List Python.FastApi.Step)
  | express (router : Node.Express.Router) (p : Node.Proc) (layers : List ℕ)
      (steps : List (Node.Step Node.Express.WireFault))
  | hono (router : Node.Hono.Router) (p : Node.Proc) (basePath : String) (handlers : List ℕ)
      (steps : List (Node.Step Node.Hono.WireFault))

namespace Reinit

/-- A FastAPI app after some steps. -/
def fastapiState (p : Python.Proc) (middlewares routes : List ℕ)
    (steps : List Python.FastApi.Step) : Python.FastApi.Live :=
  run Python.FastApi.step ⟨p, .hosted middlewares routes, none⟩ steps

/-- An Express app after some steps. -/
def expressState (p : Node.Proc) (layers : List ℕ)
    (steps : List (Node.Step Node.Express.WireFault)) : Node.Live Node.Express.App :=
  run Node.Express.step ⟨p, .hosted layers, none⟩ steps

/-- A Hono app after some steps. -/
def honoState (p : Node.Proc) (basePath : String) (handlers : List ℕ)
    (steps : List (Node.Step Node.Hono.WireFault)) : Node.Live Node.Hono.App :=
  run Node.Hono.step ⟨p, .hosted basePath handlers, none⟩ steps

/-- Every step meets the condition of its adapter in the state where it happens. -/
def Ready : Reinit → Prop
  | .fastapi host p middlewares routes steps =>
    Along Python.FastApi.step (Python.FastApi.Admits host)
      ⟨p, .hosted middlewares routes, none⟩ steps
  | .express router p layers steps =>
    Along Node.Express.step (Node.Express.Admits router) ⟨p, .hosted layers, none⟩ steps
  | .hono router p basePath handlers steps =>
    Along Node.Hono.step (Node.Hono.Admits router) ⟨p, .hosted basePath handlers, none⟩ steps

/-- If the latest install returned, the app behaves as installed once, with its options. -/
def AsInstalledOnce : Reinit → Prop
  | .fastapi host p middlewares routes steps =>
    let s := fastapiState p middlewares routes steps
    ∀ o, s.latest = some o → SimsysMetrics.AsInstalledOnce (·.path = o.metricsPath) o.service
      o.metricsPath
      (fun req => (s.app.handle host req).exposition) (fun req => (s.app.handle host req).counted)
  | .express router p layers steps =>
    let s := expressState p layers steps
    ∀ o, s.latest = some o → SimsysMetrics.AsInstalledOnce (Node.Express.AboutMetrics router o)
      o.service (Node.Express.metricsPath o)
      (fun req => (s.app.handle router req).exposition)
      (fun req => (s.app.handle router req).counted)
  | .hono router p basePath handlers steps =>
    let s := honoState p basePath handlers steps
    ∀ o, s.latest = some o → SimsysMetrics.AsInstalledOnce
      (·.path = Node.Hono.absolutePath s.app o) o.service (Node.Hono.absolutePath s.app o)
      (fun req => (s.app.handle router req).exposition)
      (fun req => (s.app.handle router req).counted)

end Reinit

/-- Along every run whose steps meet the condition, the app behaves as installed once, with the
options of the latest install, if that returned. -/
theorem reinit_as_installed_once (r : Reinit) (hready : r.Ready) : r.AsInstalledOnce := by
  cases r with
  | fastapi host p middlewares routes steps =>
    intro o ho
    exact (Python.FastApi.wiredFor_run rfl hready o ho).asInstalledOnce
  | express router p layers steps =>
    intro o ho
    exact (Node.Express.wiredFor_run rfl hready o ho).asInstalledOnce
  | hono router p basePath handlers steps =>
    intro o ho
    have hshape := Node.Hono.shaped_hosted basePath handlers
    exact (Node.Hono.wiredFor_run rfl hshape hready o ho).asInstalledOnce

/-! ## One app of each adapter -/

namespace Node

/-- The options of an install of `service`. -/
def optsOf (service : String) (metricsPath : Option String) : InstallOpts :=
  ⟨service, "1.0", none, metricsPath⟩

/-- An Express router that matches texts, over layers that pass every request on. -/
def Express.textRouter : Express.Router where
  routeMatches pattern path := pattern = path
  answers _ _ := none
  final req := ⟨some req.method, none, "", .number 404⟩

/-- A Hono router that matches texts and `*`, over handlers of which each answers one path. -/
def Hono.textRouter (path : ℕ → String) : Hono.Router where
  mergePath _ path := path
  covers pattern path := pattern = "*" ∨ pattern = path
  answers id req :=
    if req.path = path id then some ⟨some req.method, some (path id), some (.number 200)⟩ else none
  notFound req := ⟨some req.method, some "/*", some (.number 404)⟩

end Node

/-- A second install of a Hono app, under another service and after the host has added a route,
leaves it as installed once. -/
theorem reinit_renamed :
    let router := Node.Hono.textRouter fun _ => "/x"
    let r := Reinit.hono router .fresh "/" []
      [.install Node.checkout (Node.optsOf "portal" none) none, .addHost [0],
        .install Node.checkout (Node.optsOf "api" none) none]
    r.Ready ∧ r.AsInstalledOnce := by
  intro router r
  -- The first install registered its middleware and its route, in front of the host's.
  let s := Reinit.honoState .fresh "/" []
    [.install Node.checkout (Node.optsOf "portal" none) none, .addHost [0]]
  have hhandlers : s.app.handlers = [.recorder "portal", .metricsRoute "/metrics", .host 0] := by
    decide
  have hfirst : Node.Hono.Ready router (.hosted "/" []) (Node.optsOf "portal" none) := by
    refine ⟨?_, ?_, ?_, fun _ => rfl, by decide, by decide⟩
    · intro path hpath
      cases hpath
    · intro id hid
      cases hid
    · intro id hid
      cases hid
  have hsecond : Node.Hono.Ready router s.app (Node.optsOf "api" none) := by
    refine ⟨?_, ?_, ?_, fun _ => rfl, by decide, by decide⟩
    · intro path hpath
      rw [hhandlers] at hpath
      obtain rfl : path = "/metrics" := by simpa using hpath
      rfl
    · intro id hid
      rw [hhandlers] at hid
      cases hid
    · intro id hid
      rw [hhandlers] at hid
      obtain _ | ⟨_, hid⟩ := hid
      cases hid
  have hready : r.Ready := ⟨hfirst, trivial, hsecond, trivial⟩
  exact ⟨hready, reinit_as_installed_once r hready⟩

/-- An Express app that is re-initialised under another service counts a request twice, once under
either service, and a Hono app that is re-initialised with another metrics path does not serve
it. -/
theorem reinit_counts_twice_and_keeps_route :
    (let steps := [.install Node.checkout (Node.optsOf "portal" none) none,
        .install Node.checkout (Node.optsOf "api" none) none]
      let s := Reinit.expressState .fresh [] steps
      s.latest = some (Node.optsOf "api" none) ∧
        (s.app.handle Node.Express.textRouter ⟨"/x", "GET"⟩).counted.map (·.service) =
          ["api", "portal"] ∧
        ¬ (Reinit.express Node.Express.textRouter .fresh [] steps).AsInstalledOnce) ∧
    (let steps := [.install Node.checkout (Node.optsOf "portal" none) none,
        .install Node.checkout (Node.optsOf "portal" (some "/internal")) none]
      let s := Reinit.honoState .fresh "/" [] steps
      let router := Node.Hono.textRouter fun _ => "/x"
      s.latest = some (Node.optsOf "portal" (some "/internal")) ∧
        ¬ (Reinit.hono router .fresh "/" [] steps).AsInstalledOnce) := by
  refine ⟨⟨by decide, by decide, ?_⟩, ⟨by decide, ?_⟩⟩
  · intro h
    obtain ⟨l, hl, -⟩ := (h (Node.optsOf "api" none) (by decide)).counts ⟨"/x", "GET"⟩ (by decide)
    have hlength := congrArg List.length hl
    rw [List.length_singleton] at hlength
    revert hlength
    decide
  · intro h
    have hserves := (h (Node.optsOf "portal" (some "/internal")) (by decide)).serves
    revert hserves
    decide

end SimsysMetrics
