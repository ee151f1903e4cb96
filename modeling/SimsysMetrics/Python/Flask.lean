import Mathlib.Data.List.Basic
import SimsysMetrics.Http
import SimsysMetrics.Python.Install

/-!
# The Flask adapter

`install_flask` of `simsys_metrics/flask.py` and the hooks that it registers. A request is counted
by `_simsys_after` when its response passes through the after-request hooks, and by
`_simsys_on_exception` when an exception reaches the signal `got_request_exception`; the flag
`g.simsys_recorded` keeps the two from counting it twice.

The functions are objects of the install's frame. The app keeps the hooks and the view alive, and a
function keeps alive what it closes over (`Fn.closure`). The signal keeps only a weak reference to
`_simsys_on_exception`, which nothing else refers to once the frame has returned, so it is dropped
there (`receivers_dropFrame`). An exception that no response follows is then not counted, and
every other request is counted once (`counted_once_iff`).
-/

namespace SimsysMetrics.Python.Flask

/-- A function object: one of the host's, by its identity, or one of an install's frame, with the
variables that it closes over. -/
inductive Fn where
  | host (id : ℕ)
  /-- `_simsys_before`. -/
  | before
  /-- `_record`. -/
  | record (service : String)
  /-- `_simsys_after`. -/
  | after (service metricsPath : String)
  /-- `_simsys_on_exception`. -/
  | onException (service metricsPath : String)
  /-- `_simsys_metrics_view`. -/
  | metricsView (service : String)
deriving DecidableEq, Repr

/-- The function objects that a function object refers to by its closure. -/
def Fn.closure : Fn → List Fn
  | .after service _ => [.record service]
  | .onException service _ => [.record service]
  | _ => []

/-- A receiver of `got_request_exception` for the app as its sender. -/
structure Receiver where
  fn : Fn
  weak : Bool
deriving DecidableEq, Repr

/-- An entry of `app.url_map`. -/
structure Rule where
  rule : String
  endpoint : String
deriving DecidableEq, Repr

/-- `app.extensions["simsys_metrics"]`. -/
structure Extension where
  service : String
  version : String
  exemptPaths : Finset String
  installed : Bool
deriving DecidableEq

/-- The parts of an app that an install reads and changes. -/
structure App where
  extension : Option Extension
  /-- `app.before_request_funcs[None]`. -/
  beforeRequest : List Fn
  /-- `app.after_request_funcs[None]`. -/
  afterRequest : List Fn
  receivers : List Receiver
  urlRules : List Rule
  viewFunctions : List (String × Fn)
deriving DecidableEq

/-- What a host adds to an app: its hooks, its receivers, each with whether it is connected weakly,
and its views. -/
structure HostParts where
  before : List ℕ
  after : List ℕ
  receivers : List (ℕ × Bool)
  rules : List Rule
  views : List (String × ℕ)

/-- The app with the parts that a host adds. -/
def App.addHost (app : App) (h : HostParts) : App :=
  { app with
    beforeRequest := app.beforeRequest ++ h.before.map .host
    afterRequest := app.afterRequest ++ h.after.map .host
    receivers := app.receivers ++ h.receivers.map fun r => ⟨.host r.1, r.2⟩
    urlRules := app.urlRules ++ h.rules
    viewFunctions := app.viewFunctions ++ h.views.map fun v => (v.1, .host v.2) }

/-- An app with the parts of its host only. -/
def App.hosted (h : HostParts) : App := App.addHost ⟨none, [], [], [], [], []⟩ h

/-! ## The install -/

/-- The function objects that the app keeps alive: its hooks and views, and what they refer to. -/
def App.held (app : App) : List Fn :=
  let roots := app.beforeRequest ++ app.afterRequest ++ app.viewFunctions.map (·.2)
  roots ++ roots.flatMap Fn.closure

/-- Whether a receiver is alive without a frame that names it. The host keeps its own functions. -/
def App.alive (app : App) (r : Receiver) : Bool :=
  match r.fn with
  | .host _ => true
  | fn => !r.weak || app.held.contains fn

/-- The return of the install's frame: a weak receiver that nothing else refers to is dropped. -/
def App.dropFrame (app : App) : App := { app with receivers := app.receivers.filter app.alive }

/-- Where the wiring may raise. -/
inductive WireFault where
  /-- `app.before_request` raises. -/
  | beforeRequest
  /-- `app.after_request` raises. -/
  | afterRequest
  /-- `got_request_exception.connect` raises. -/
  | connect
  /-- `app.route` raises, after it has added `added` to the URL map. -/
  | route (added : List Rule)
deriving DecidableEq, Repr

/-- The endpoint that `app.route` gives the metrics view: its name. -/
def metricsEndpoint : String := "_simsys_metrics_view"

/-- `@app.route(metrics_path)`: the app, and whether it raised. An endpoint that already has another
view makes it raise after the rule is added. -/
def App.route (app : App) (metricsPath service : String) : App × Bool :=
  let app := { app with urlRules := app.urlRules ++ [⟨metricsPath, metricsEndpoint⟩] }
  if metricsEndpoint ∈ app.viewFunctions.map (·.1) then (app, true)
  else
    ({ app with viewFunctions := app.viewFunctions ++ [(metricsEndpoint, .metricsView service)] },
      false)

/-- The extension that an install sets before its `try` block. -/
def extensionOf (o : InstallOpts) : Extension :=
  ⟨o.service, o.version, buildExemptPaths o.metricsPath, true⟩

/-- The hooks and the receiver of an install. `connect` is called without `weak=False`. -/
def App.hook (app : App) (o : InstallOpts) : App :=
  { app with
    beforeRequest := app.beforeRequest ++ [.before]
    afterRequest := app.afterRequest ++ [.after o.service o.metricsPath]
    receivers := app.receivers ++ [⟨.onException o.service o.metricsPath, true⟩] }

/-- What `install_flask` does to its app. -/
def adapter : Adapter App WireFault where
  installed app := app.extension.any (·.installed)
  mark o app := { app with extension := some (extensionOf o) }
  wire o fault app :=
    match fault with
    | some .beforeRequest => (app, true)
    | some .afterRequest => ({ app with beforeRequest := (app.hook o).beforeRequest }, true)
    | some .connect => ({ app.hook o with receivers := app.receivers }, true)
    | some (.route added) => ({ app.hook o with urlRules := app.urlRules ++ added }, true)
    | none =>
      match (app.hook o).route o.metricsPath o.service with
      | (routed, true) => (routed, true)
      | (routed, false) => (routed.dropFrame, false)
  unwire pre app :=
    let app := { app with
      extension := none
      beforeRequest := pre.beforeRequest
      afterRequest := pre.afterRequest
      receivers := app.receivers.filter fun r =>
        match r.fn with
        | .onException _ _ => false
        | _ => true }
    -- The URL map is rebuilt only when an endpoint was added.
    if app.urlRules.any fun r => r.endpoint ∉ pre.urlRules.map (·.endpoint) then
      { app with urlRules := pre.urlRules, viewFunctions := pre.viewFunctions }
    else app

/-- `install_flask`. The collector does not depend on the multi-process mode. -/
def installFlask (env : Env) (o : InstallOpts) (fault : Option (Fault WireFault)) (p : Proc)
    (app : App) : Installed App :=
  installOn adapter { env with multiproc := false } o fault p app

/-! ## A request -/

/-- A request, with the rule that matched it (`request.url_rule`). -/
structure Request where
  path : String
  method : String
  urlRule : Option String
deriving DecidableEq, Repr

/-- What the install keeps on `flask.g`: whether `simsys_start` is set, and `simsys_recorded`. -/
structure G where
  started : Bool
  recorded : Bool
deriving DecidableEq, Repr

/-- An observation of `_record`: one of the counter, and, where the start is known, one of the
duration. -/
structure Observation where
  labels : HttpLabels String
  timed : Bool
deriving DecidableEq, Repr

/-- The application context of a request, and the observations made in it. -/
structure Ctx where
  g : G
  out : List Observation
deriving DecidableEq, Repr

/-- The context of a new request. -/
def Ctx.fresh : Ctx := ⟨⟨false, false⟩, []⟩

/-- `_record`. -/
def record (service : String) (method : Method) (route : String) (status : ℤ) (started : Bool) :
    Observation :=
  ⟨⟨service, method, route, statusBucket (.int status)⟩, started⟩

/-- The body that `_simsys_after` and `_simsys_on_exception` share: count the request with a status,
unless it is a scrape or was counted. -/
def recordOnce (service metricsPath : String) (status : ℤ) (req : Request) (c : Ctx) : Ctx :=
  if req.path = metricsPath then c
  else if c.g.recorded then c
  else
    let route := req.urlRule.getD "__unmatched__"
    ⟨{ c.g with recorded := true },
      c.out ++ [record service (normalizeMethod (some req.method)) route status c.g.started]⟩

/-- `_simsys_before`. -/
def simsysBefore (c : Ctx) : Ctx := { c with g := { c.g with started := true } }

/-- `_simsys_after`. -/
def simsysAfter (service metricsPath : String) (status : ℤ) (req : Request) (c : Ctx) : Ctx :=
  recordOnce service metricsPath status req c

/-- `_simsys_on_exception`. -/
def simsysOnException (service metricsPath : String) (req : Request) (c : Ctx) : Ctx :=
  recordOnce service metricsPath 500 req c

/-- What the host's hooks do: whether a before-request hook answers or raises, which ends the hooks,
and the status that an after-request hook gives a response. -/
structure HostHooks where
  ends : ℕ → Bool
  status : ℕ → ℤ → ℤ

/-- `Flask.preprocess_request`: the before-request hooks in order, until one ends them. -/
def preprocess (host : HostHooks) : List Fn → Ctx → Ctx
  | [], c => c
  | .host id :: fns, c => if host.ends id then c else preprocess host fns c
  | .before :: fns, c => preprocess host fns (simsysBefore c)
  | _ :: fns, c => preprocess host fns c

/-- One after-request hook, on the status of the response and the context. -/
def afterHook (host : HostHooks) (req : Request) (c : ℤ × Ctx) : Fn → ℤ × Ctx
  | .host id => (host.status id c.1, c.2)
  | .after service metricsPath => (c.1, simsysAfter service metricsPath c.1 req c.2)
  | _ => c

/-- `Flask.process_response`: the after-request hooks, the last registered first. -/
def processResponse (host : HostHooks) (app : App) (req : Request) (status : ℤ) (c : Ctx) : Ctx :=
  (app.afterRequest.reverse.foldl (afterHook host req) (status, c)).2

/-- One receiver of the signal. -/
def receive (req : Request) (c : Ctx) (r : Receiver) : Ctx :=
  match r.fn with
  | .onException service metricsPath => simsysOnException service metricsPath req c
  | _ => c

/-- `got_request_exception.send(app)`. -/
def sendException (app : App) (req : Request) (c : Ctx) : Ctx := app.receivers.foldl (receive req) c

/-- The ways a request ends. -/
inductive Ending where
  /-- The view, or a before-request hook, answers. -/
  | returned (status : ℤ)
  /-- An error handler turns an exception into a response. -/
  | errorHandled (status : ℤ)
  /-- An unhandled exception becomes a 500 response. -/
  | unhandled
  /-- An unhandled exception is propagated to the server. -/
  | propagated
deriving DecidableEq, Repr

/-- The dispatch of a request in its own application context. -/
def App.handle (app : App) (host : HostHooks) (req : Request) (ending : Ending) : Ctx :=
  let c := preprocess host app.beforeRequest .fresh
  match ending with
  | .returned status => processResponse host app req status c
  | .errorHandled status => processResponse host app req status c
  | .unhandled => processResponse host app req 500 (sendException app req c)
  | .propagated => sendException app req c

/-! ## What an install leaves of its hooks -/

/-- No function object closes over `_simsys_on_exception`. -/
theorem onException_notMem_closure (service metricsPath : String) (fn : Fn) :
    Fn.onException service metricsPath ∉ fn.closure := by
  cases fn <;> simp [Fn.closure]

/-- `_simsys_on_exception` is held only as a hook or a view. -/
theorem onException_mem_held {app : App} {service metricsPath : String}
    (h : Fn.onException service metricsPath ∈ app.held) :
    Fn.onException service metricsPath ∈
      app.beforeRequest ++ app.afterRequest ++ app.viewFunctions.map (·.2) := by
  unfold App.held at h
  rcases List.mem_append.mp h with h | h
  · exact h
  · obtain ⟨fn, -, hfn⟩ := List.mem_flatMap.mp h
    exact absurd hfn (onException_notMem_closure service metricsPath fn)

/-- The services that the metrics views of an app close over. -/
def App.viewServices (app : App) : List String :=
  app.viewFunctions.filterMap fun v =>
    match v.2 with
    | .metricsView service => some service
    | _ => none

/-- The app has one `_simsys_after` among the hooks of its host, no receiver but its host's, and no
metrics view but the one of the install. -/
structure Wired (o : InstallOpts) (app : App) : Prop where
  /-- The after-request hooks. -/
  afterRequest : ∃ ids ids' : List ℕ,
    app.afterRequest = ids.map .host ++ .after o.service o.metricsPath :: ids'.map .host
  /-- The receivers. -/
  receivers : ∃ rs : List (ℕ × Bool), app.receivers = rs.map fun r => ⟨.host r.1, r.2⟩
  /-- The metrics view. -/
  views : app.viewServices = [o.service]

/-- The views of a host are no metrics views. -/
theorem viewServices_addHost (app : App) (parts : HostParts) :
    (app.addHost parts).viewServices = app.viewServices := by
  unfold App.viewServices App.addHost
  rw [List.filterMap_append, List.filterMap_map]
  simp

/-- What a host adds to a wired app leaves it wired. -/
theorem Wired.addHost {o : InstallOpts} {app : App} (h : Wired o app) (parts : HostParts) :
    Wired o (app.addHost parts) := by
  obtain ⟨ids, ids', hafter⟩ := h.afterRequest
  obtain ⟨rs, hrs⟩ := h.receivers
  constructor
  · refine ⟨ids, ids' ++ parts.after, ?_⟩
    simp [App.addHost, hafter]
  · refine ⟨rs ++ parts.receivers, ?_⟩
    simp [App.addHost, hrs]
  · rw [viewServices_addHost, h.views]

/-- The return of the frame drops a weak `_simsys_on_exception` that is no hook and no view, and
keeps the receivers of the host. -/
theorem receivers_dropFrame {app : App} (service metricsPath : String) {rs : List (ℕ × Bool)}
    (hrs : app.receivers =
      (rs.map fun r => ⟨.host r.1, r.2⟩) ++ [⟨.onException service metricsPath, true⟩])
    (hheld : Fn.onException service metricsPath ∉
      app.beforeRequest ++ app.afterRequest ++ app.viewFunctions.map (·.2)) :
    app.dropFrame.receivers = rs.map fun r => ⟨.host r.1, r.2⟩ := by
  -- Only the weak reference of the signal is left to the receiver.
  have hdead : app.alive ⟨.onException service metricsPath, true⟩ = false := by
    have hnot : Fn.onException service metricsPath ∉ app.held := fun h =>
      hheld (onException_mem_held h)
    simpa [App.alive] using hnot
  have hkept : ∀ r ∈ rs.map fun r : ℕ × Bool => (⟨.host r.1, r.2⟩ : Receiver), app.alive r := by
    intro r hr
    obtain ⟨r', -, rfl⟩ := List.mem_map.mp hr
    rfl
  unfold App.dropFrame
  dsimp only
  rw [hrs, List.filter_append, List.filter_eq_self.mpr hkept]
  simp [hdead]

/-- The app with everything that an install adds to it, before the frame returns. -/
def App.routed (app : App) (o : InstallOpts) : App :=
  { app.hook o with
    urlRules := app.urlRules ++ [⟨o.metricsPath, metricsEndpoint⟩]
    viewFunctions := app.viewFunctions ++ [(metricsEndpoint, .metricsView o.service)] }

/-- Of an install on the app of a host, no receiver remains. -/
theorem receivers_routed (parts : HostParts) (o : InstallOpts) :
    ((adapter.mark o (.hosted parts)).routed o).dropFrame.receivers =
      parts.receivers.map fun r => ⟨.host r.1, r.2⟩ := by
  apply receivers_dropFrame o.service o.metricsPath
  · simp [adapter, App.routed, App.hook, App.hosted, App.addHost]
  · simp [adapter, App.routed, App.hook, App.hosted, App.addHost]

/-- A wiring that returns adds everything, and drops the frame. -/
theorem wire_returned {o : InstallOpts} {fault : Option WireFault} {app wired : App}
    (h : adapter.wire o fault app = (wired, false)) : wired = (app.routed o).dropFrame := by
  obtain _ | _ | _ | _ | added := fault
  · unfold adapter App.route at h
    by_cases hmem : metricsEndpoint ∈ (app.hook o).viewFunctions.map (·.1)
    · simp [hmem] at h
    · simp only [hmem, if_false, Prod.mk.injEq, and_true] at h
      exact h.symm
  all_goals cases h

/-- An install that returns wires the app of a host. -/
theorem wired_of_returned {env : Env} {o : InstallOpts} {fault : Option (Fault WireFault)}
    {p : Proc} {parts : HostParts}
    (h : (installFlask env o fault p (.hosted parts)).raised = false) :
    Wired o (installFlask env o fault p (.hosted parts)).app := by
  obtain ⟨c, state, wired, -, hwire, hinstall⟩ := steps_of_returned rfl h
  unfold installFlask
  rw [hinstall]
  obtain rfl := wire_returned hwire
  constructor
  · exact ⟨parts.after, [], rfl⟩
  · exact ⟨parts.receivers, receivers_routed parts o⟩
  · have hhost : (App.hosted parts).viewServices = [] := viewServices_addHost _ parts
    unfold App.viewServices at hhost ⊢
    show List.filterMap _ ((App.hosted parts).viewFunctions ++ [_]) = _
    rw [List.filterMap_append, hhost]
    rfl

/-! ## The count of a request -/

/-- The before-request hooks leave the observations and the flag. -/
theorem preprocess_counted (host : HostHooks) (fns : List Fn) (c : Ctx) :
    (preprocess host fns c).out = c.out ∧ (preprocess host fns c).g.recorded = c.g.recorded := by
  induction fns generalizing c with
  | nil => exact ⟨rfl, rfl⟩
  | cons fn fns ih =>
    cases fn with
    | host id =>
      unfold preprocess
      split_ifs
      · exact ⟨rfl, rfl⟩
      · exact ih c
    | before => exact ih (simsysBefore c)
    | record | after | onException | metricsView => exact ih c

/-- The after-request hooks of the host leave the context. -/
theorem foldl_afterHook_host (host : HostHooks) (req : Request) (ids : List ℕ) (c : ℤ × Ctx) :
    ((ids.map Fn.host).foldl (afterHook host req) c).2 = c.2 := by
  induction ids generalizing c with
  | nil => rfl
  | cons id ids ih => exact ih (afterHook host req c (.host id))

/-- In a wired app a response is counted by the one `_simsys_after`. -/
theorem processResponse_wired {o : InstallOpts} {app : App} (h : Wired o app) (host : HostHooks)
    (req : Request) (status : ℤ) (c : Ctx) :
    ∃ status', processResponse host app req status c =
      simsysAfter o.service o.metricsPath status' req c := by
  obtain ⟨ids, ids', hafter⟩ := h.afterRequest
  -- The hooks run from the last to the first; those of the host leave the context.
  unfold processResponse
  rw [hafter, List.reverse_append, List.reverse_cons, ← List.map_reverse, ← List.map_reverse,
    List.foldl_append, List.foldl_append, foldl_afterHook_host, List.foldl_cons, List.foldl_nil]
  refine ⟨((ids'.reverse.map Fn.host).foldl (afterHook host req) (status, c)).1, ?_⟩
  show simsysAfter _ _ _ _ _ = _
  rw [foldl_afterHook_host]

/-- In a wired app the signal leaves the context. -/
theorem sendException_wired {o : InstallOpts} {app : App} (h : Wired o app) (req : Request)
    (c : Ctx) : sendException app req c = c := by
  obtain ⟨rs, hrs⟩ := h.receivers
  unfold sendException
  rw [hrs, List.foldl_map]
  exact List.foldl_fixed' (fun _ => rfl) rs

/-- A request that was not counted is counted once. -/
theorem length_recordOnce {service metricsPath : String} {status : ℤ} {req : Request} {c : Ctx}
    (hpath : req.path ≠ metricsPath) (hc : c.g.recorded = false) :
    (recordOnce service metricsPath status req c).out.length = c.out.length + 1 := by
  simp [recordOnce, hpath, hc]

/-- In a wired app a request is counted once, unless its exception is propagated. -/
theorem length_handle {o : InstallOpts} {app : App} (h : Wired o app) (host : HostHooks)
    {req : Request} (hpath : req.path ≠ o.metricsPath) (ending : Ending) :
    (app.handle host req ending).out.length = if ending = .propagated then 0 else 1 := by
  obtain ⟨hout, hrec⟩ := preprocess_counted host app.beforeRequest .fresh
  have hresponse : ∀ status,
      (processResponse host app req status
        (preprocess host app.beforeRequest .fresh)).out.length = 1 := by
    intro status
    obtain ⟨status', hstatus⟩ :=
      processResponse_wired h host req status (preprocess host app.beforeRequest .fresh)
    rw [hstatus, simsysAfter, length_recordOnce hpath hrec, hout]
    rfl
  unfold App.handle
  cases ending with
  | returned status => exact hresponse status
  | errorHandled status => exact hresponse status
  | unhandled =>
    dsimp only
    rw [sendException_wired h]
    exact hresponse 500
  | propagated =>
    dsimp only
    rw [sendException_wired h, hout]
    rfl

/-- The body that counts a request does so under its service. -/
theorem service_of_recordOnce {service metricsPath : String} {status : ℤ} {req : Request} {c : Ctx}
    (hc : ∀ ob ∈ c.out, ob.labels.service = service) :
    ∀ ob ∈ (recordOnce service metricsPath status req c).out, ob.labels.service = service := by
  unfold recordOnce
  split_ifs
  · exact hc
  · exact hc
  · intro ob hob
    rcases List.mem_append.mp hob with hob | hob
    · exact hc ob hob
    · rw [List.mem_singleton.mp hob]
      rfl

/-- In a wired app a request is counted under the service of the install. -/
theorem service_of_handle {o : InstallOpts} {app : App} (h : Wired o app) (host : HostHooks)
    (req : Request) (ending : Ending) :
    ∀ ob ∈ (app.handle host req ending).out, ob.labels.service = o.service := by
  obtain ⟨hout, -⟩ := preprocess_counted host app.beforeRequest .fresh
  -- Nothing is counted before the response.
  have hbefore : ∀ ob ∈ (preprocess host app.beforeRequest .fresh).out,
      ob.labels.service = o.service := by
    rw [hout]
    intro ob hob
    cases hob
  have hresponse : ∀ status, ∀ ob ∈ (processResponse host app req status
      (preprocess host app.beforeRequest .fresh)).out, ob.labels.service = o.service := by
    intro status
    obtain ⟨status', hstatus⟩ :=
      processResponse_wired h host req status (preprocess host app.beforeRequest .fresh)
    rw [hstatus]
    exact service_of_recordOnce hbefore
  unfold App.handle
  cases ending with
  | returned status => exact hresponse status
  | errorHandled status => exact hresponse status
  | unhandled =>
    dsimp only
    rw [sendException_wired h]
    exact hresponse 500
  | propagated =>
    dsimp only
    rw [sendException_wired h]
    exact hbefore

/-- After an install that returned, and whatever the host has added since, a request outside the
metrics path adds exactly one to the counter exactly when its exception is not propagated. -/
theorem counted_once_iff (env : Env) (o : InstallOpts) (fault : Option (Fault WireFault)) (p : Proc)
    (parts later : HostParts)
    (hreturned : (installFlask env o fault p (.hosted parts)).raised = false) (host : HostHooks)
    (req : Request) (hpath : req.path ≠ o.metricsPath) (ending : Ending) :
    (((installFlask env o fault p (.hosted parts)).app.addHost later).handle host req
        ending).out.length = 1 ↔ ending ≠ .propagated := by
  rw [length_handle ((wired_of_returned hreturned).addHost later) host hpath ending]
  by_cases hend : ending = .propagated
  · simp [hend]
  · simp [hend]

/-- A host without parts. -/
def HostParts.none : HostParts := ⟨[], [], [], [], []⟩

/-- A request that an error handler answers is counted once. -/
theorem errorHandled_counted_once :
    (installFlask singleProcess portalOpts none .fresh (.hosted .none)).raised = false ∧
      ("/items/7" : String) ≠ portalOpts.metricsPath ∧
      ((((installFlask singleProcess portalOpts none .fresh (.hosted .none)).app.addHost
        .none).handle ⟨fun _ => false, fun _ s => s⟩ ⟨"/items/7", "GET", some "/items/<id>"⟩
          (.errorHandled 500)).out.length = 1 ↔ Ending.errorHandled 500 ≠ .propagated) :=
  ⟨by decide, by decide, counted_once_iff singleProcess portalOpts none .fresh .none .none
    (by decide) ⟨fun _ => false, fun _ s => s⟩ ⟨"/items/7", "GET", some "/items/<id>"⟩ (by decide)
    (.errorHandled 500)⟩

/-- A request whose exception is propagated is not counted. -/
theorem propagated_not_counted :
    (installFlask singleProcess portalOpts none .fresh (.hosted .none)).raised = false ∧
      ((installFlask singleProcess portalOpts none .fresh (.hosted .none)).app.handle
        ⟨fun _ => false, fun _ s => s⟩ ⟨"/boom", "GET", some "/boom"⟩ .propagated).out = [] := by
  constructor <;> decide

end SimsysMetrics.Python.Flask
