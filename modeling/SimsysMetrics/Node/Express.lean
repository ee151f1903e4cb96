import SimsysMetrics.Http
import SimsysMetrics.Node.Install

/-!
# The Express adapter

`installExpress` of `node/src/adapters/express.ts`, over the layers of the router's stack that it
appends to, and what its recording middleware counts. The route label joins two texts:
`req.route.path`, the pattern of the matched route, and `req.baseUrl`, the part of the URL that the
mounts of its routers matched.
-/

namespace SimsysMetrics.Node.Express

/-- `app.locals`, as far as an install sets it. -/
structure Locals where
  simsysMetricsInstalled : Bool
  simsysExemptPaths : Option (Finset String)
  simsysService : Option String
  simsysVersion : Option String
deriving DecidableEq

/-- The locals of an app without an install. -/
def Locals.empty : Locals := ⟨false, none, none, none⟩

/-- A layer of the router's stack: one of the host's, by its identity, the metrics route, or the
recording middleware with the variables that it closes over. -/
inductive StackLayer where
  | host (id : ℕ)
  | metricsRoute (path : String)
  | recorder (service metricsPath : String)
deriving DecidableEq, Repr

/-- The parts of an app that an install reads and changes. -/
structure App where
  locals : Locals
  /-- `app.router.stack`, in the order in which the layers are tried. -/
  stack : List StackLayer
deriving DecidableEq

/-- The app with layers that a host adds. -/
def App.addHost (app : App) (layers : List ℕ) : App :=
  { app with stack := app.stack ++ layers.map .host }

/-- An app with the layers of its host only. -/
def App.hosted (layers : List ℕ) : App := ⟨.empty, layers.map .host⟩

/-- Where the wiring may throw. -/
inductive WireFault where
  /-- `app.get` throws. -/
  | get
  /-- `app.use` throws. -/
  | use
deriving DecidableEq, Repr

/-- The metrics path of an install. -/
def metricsPath (o : InstallOpts) : String := o.metricsPath.getD "/metrics"

/-- The part of the `catch` block about the app: the locals are deleted, and the stack is truncated
to its earlier length. -/
def App.rollback (preMiddlewareCount : ℕ) (app : App) : App :=
  ⟨.empty, app.stack.take preMiddlewareCount⟩

/-- What `installExpress` does to its app. -/
def adapter : Adapter App WireFault where
  installed app := app.locals.simsysMetricsInstalled
  wire o fault app :=
    let locals : Locals := { app.locals with
      simsysExemptPaths := some (buildExemptPaths (metricsPath o))
      simsysService := some o.service
      simsysVersion := some o.version }
    let routed := app.stack ++ [.metricsRoute (metricsPath o)]
    match fault with
    | some .get => (App.rollback app.stack.length ⟨locals, app.stack⟩, true)
    | some .use => (App.rollback app.stack.length ⟨locals, routed⟩, true)
    | none =>
      (⟨{ locals with simsysMetricsInstalled := true },
        routed ++ [.recorder o.service (metricsPath o)]⟩, false)
  unwire app := app.rollback app.stack.length
  returns _ _ := rfl

/-- `installExpress`. -/
def installExpress (env : Env) (o : InstallOpts) (fault : Option (Fault WireFault)) (p : Proc)
    (app : App) : Installed App :=
  installOn adapter env o fault p app

/-- An install that returns appends its route and its middleware. -/
theorem stack_of_returned {env : Env} {o : InstallOpts} {fault : Option (Fault WireFault)}
    {p : Proc} {app : App} (hclear : app.locals.simsysMetricsInstalled = false)
    (hreturned : (installExpress env o fault p app).raised = false) :
    (installExpress env o fault p app).app.stack =
      app.stack ++ [.metricsRoute (metricsPath o), .recorder o.service (metricsPath o)] := by
  obtain ⟨process, state, q, wired, -, -, hwire, hinstall⟩ := steps_of_returned hclear hreturned
  unfold installExpress
  rw [hinstall]
  -- Only the wiring without a fault returns.
  rcases hplace : Fault.wire? fault with _ | (_ | _)
  · rw [hplace] at hwire
    obtain ⟨rfl, -⟩ := Prod.mk.inj hwire
    simp
  · rw [hplace] at hwire
    cases hwire
  · rw [hplace] at hwire
    cases hwire

/-! ## The label of a request -/

/-- What `finalize` reads of a request and its response: `req.method`, `req.route.path` where it is
a string, `req.baseUrl`, and `res.statusCode`. -/
structure Finished where
  method : Option String
  routePath : Option String
  baseUrl : String
  statusCode : StatusCode
deriving DecidableEq, Repr

/-- The route label: `matchedRoutePath` with the base URL in front; an empty text counts as none. -/
def routeLabel (matchedRoutePath : Option String) (baseUrl : String) : String :=
  match matchedRoutePath with
  | some path =>
    if path = "" then "__unmatched__" else if baseUrl = "" then path else baseUrl ++ path
  | none => "__unmatched__"

/-- The labels that `finalize` counts. -/
def finalize (service : String) (f : Finished) : HttpLabels String :=
  ⟨service, normalizeMethod f.method, routeLabel f.routePath f.baseUrl, statusBucket f.statusCode⟩

/-- The recording middleware: what it counts for a request with a path. -/
def record (service metricsPath path : String) (f : Finished) : Option (HttpLabels String) :=
  if path = metricsPath then none else some (finalize service f)

/-! ## A request -/

/-- What Express and the host supply to a request: which paths a route's pattern matches, what a
layer of the host answers by itself instead of calling the next one, and what the final handler
answers. -/
structure Router where
  routeMatches : String → String → Bool
  answers : ℕ → Request → Option Finished
  final : Request → Finished

/-- What a request meets: whether the exposition answers it, what `finalize` reads of the answer,
and what is counted. -/
structure Served where
  exposition : Bool
  finished : Finished
  counted : List (HttpLabels String)
deriving DecidableEq, Repr

/-- The layers in order. The recording middleware counts when the response is finished. -/
def serve (router : Router) (req : Request) : List StackLayer → Served
  | [] => ⟨false, router.final req, []⟩
  | .host id :: layers =>
    match router.answers id req with
    | some finished => ⟨false, finished, []⟩
    | none => serve router req layers
  | .metricsRoute path :: layers =>
    -- `app.get` also takes `HEAD` requests.
    if router.routeMatches path req.path ∧ (req.method = "GET" ∨ req.method = "HEAD") then
      ⟨true, ⟨some req.method, some path, "", .number 200⟩, []⟩
    else serve router req layers
  | .recorder service metricsPath :: layers =>
    let served := serve router req layers
    { served with counted :=
        served.counted ++ (record service metricsPath req.path served.finished).toList }

/-- What a request to the app meets. -/
def App.handle (router : Router) (app : App) (req : Request) : Served := serve router req app.stack

/-- What is counted carries the service of the recording middlewares. -/
theorem service_of_counted (router : Router) (req : Request) {service : String}
    {layers : List StackLayer} (h : ∀ s path, .recorder s path ∈ layers → s = service) :
    ∀ l ∈ (serve router req layers).counted, l.service = service := by
  induction layers with
  | nil =>
    intro l hl
    cases hl
  | cons layer layers ih =>
    have hrest := ih fun s path hmem => h s path (List.mem_cons_of_mem _ hmem)
    rcases layer with id | path | ⟨s, path⟩
    · unfold serve
      cases router.answers id req with
      | none => exact hrest
      | some finished =>
        intro l hl
        cases hl
    · unfold serve
      split_ifs
      · intro l hl
        cases hl
      · exact hrest
    · obtain rfl := h s path List.mem_cons_self
      intro l hl
      rw [serve] at hl
      rcases List.mem_append.mp hl with hl | hl
      · exact hrest l hl
      · unfold record at hl
        split_ifs at hl
        · cases hl
        · rw [List.mem_singleton.mp hl]
          rfl

end SimsysMetrics.Node.Express
