import SimsysMetrics.Lib.Runs
import SimsysMetrics.Node.Hono

/-!
# Runs of installs and requests of the Hono adapter

In a run, `installHono` is attempted on one app, the host adds handlers, and requests reach the
recording middleware and are done with at any later point. No caller drops the sentinel.

As long as no attempt returned, the app is `Inert`: its handlers are those of the host and at most
the middleware, which records nothing. The attempt that returns is the one that registers the
metrics route, so from then on the app is `Armed` for its options, and stays so. Every request that
then reaches the middleware outside the stored path is recorded once when it is done, under that
attempt's service (`attempt_discipline`).
-/

namespace SimsysMetrics.Node.Hono.Attempts

open Lib (run run_append run_concat Along invariant_run invariant_along)

/-- Whether the middleware goes on to record a request with a path: its check of the sentinel and of
the stored metrics path. -/
def goesOn (props : Props) (path : String) : Bool :=
  props.simsysMetricsInstalled && path ≠ props.simsysMetricsPath.getD "/metrics"

/-- What the middleware counts once the later handlers are done. -/
def labels (props : Props) (service : String) (f : Finished) : HttpLabels String :=
  ⟨props.simsysService.getD service, normalizeMethod f.method,
    routeLabel (f.routePath.getD ""), statusBucket (f.status.getD (.number 500))⟩

/-- A request in the middleware: the service that the middleware closes over, and whether it is
still to be recorded. -/
structure Reached where
  service : String
  recording : Bool
deriving DecidableEq

/-- A process with an app in a run: the requests that reached the middleware so far, and what was
recorded for which of them. -/
structure Live where
  proc : Proc
  app : App
  reached : List Reached
  records : List (ℕ × HttpLabels String)

/-- An app of a host before the first attempt. -/
def Live.fresh (p : Proc) (basePath : String) (handlers : List ℕ) : Live :=
  ⟨p, .hosted basePath handlers, [], []⟩

/-- What happens in a run. -/
inductive Event where
  /-- A call of `installHono`, with the step that throws, if any. -/
  | attempt (env : Env) (o : InstallOpts) (fault : Option (Fault WireFault))
  /-- The host adds handlers. -/
  | addHost (handlers : List ℕ)
  /-- A request reaches a handler that is a recording middleware. -/
  | reach (position : ℕ) (path : String)
  /-- The later handlers are done with a request. -/
  | done (i : ℕ) (f : Finished)

/-- The state after an event. -/
def step (s : Live) : Event → Live
  | .attempt env o fault =>
    let r := installHono env o fault s.proc s.app
    { s with proc := r.proc, app := r.app }
  | .addHost handlers => { s with app := s.app.addHost handlers }
  | .reach position path =>
    match s.app.handlers[position]? with
    -- The sentinel and the stored path are read now, before the later handlers.
    | some (.recorder service) =>
      { s with reached := s.reached ++ [⟨service, goesOn s.app.props path⟩] }
    | _ => s
  | .done i f =>
    match s.reached[i]? with
    -- `finally`: the service is read again, when the later handlers are done.
    | some ⟨service, true⟩ =>
      { s with
        reached := s.reached.set i ⟨service, false⟩
        records := s.records ++ [(i, labels s.app.props service f)] }
    | _ => s

/-- An attempt that returns, on an app that no earlier one installed. -/
def Succeeds (s : Live) : Event → Prop
  | .attempt env o fault => s.app.props.simsysMetricsInstalled = false ∧
      (installHono env o fault s.proc s.app).raised = false
  | _ => False

/-! ## The app -/

/-- Handlers of one shape hold at most one middleware and at most one metrics route. -/
theorem count_of_shape {handlers : List Handler} {mw route : Bool} (h : Shape handlers mw route) :
    handlers.countP (·.isRecorder) ≤ 1 ∧ handlers.countP (·.isMetricsRoute) ≤ 1 := by
  have hhosts : ∀ ids : List ℕ, (ids.map Handler.host).countP (·.isRecorder) = 0 ∧
      (ids.map Handler.host).countP (·.isMetricsRoute) = 0 := by
    intro ids
    simp [List.countP_map, List.countP_eq_zero, Handler.isRecorder, Handler.isMetricsRoute]
  cases h with
  | bare ids =>
    rw [(hhosts ids).1, (hhosts ids).2]
    exact ⟨Nat.zero_le 1, Nat.zero_le 1⟩
  | used before service after =>
    simp only [List.countP_append, List.countP_cons, hhosts]
    simp [Handler.isRecorder, Handler.isMetricsRoute]
  | routed before service between path after =>
    simp only [List.countP_append, List.countP_cons, hhosts]
    simp [Handler.isRecorder, Handler.isMetricsRoute]

/-- An app on which no attempt returned: it has no metrics route, and its sentinel is not set. -/
structure Inert (app : App) : Prop where
  shaped : Shaped app
  sentinel : app.props.simsysMetricsInstalled = false
  unrouted : ∀ path, .metricsRoute path ∉ app.handlers

/-- An app that an attempt installed: its properties are that attempt's, and so is its only metrics
route. -/
structure Armed (o : InstallOpts) (basePath : String) (app : App) : Prop where
  shaped : Shaped app
  sentinel : app.props.simsysMetricsInstalled = true
  service : app.props.simsysService = some o.service
  path : app.props.simsysMetricsPath = some (absoluteMetricsPath basePath (metricsPath o))
  base : app.basePath = basePath
  route : ∀ path, .metricsRoute path ∈ app.handlers ↔ path = metricsPath o

/-- An app without a metrics route has not registered one. -/
theorem Inert.flag {app : App} (h : Inert app) : app.props.simsysHonoRouteInstalled = false := by
  have hshape := h.shaped
  have hroute := h.unrouted
  unfold Shaped at hshape
  generalize app.handlers = handlers, app.props.simsysHonoMwInstalled = mw,
    app.props.simsysHonoRouteInstalled = route at hshape hroute ⊢
  cases hshape with
  | bare => rfl
  | used => rfl
  | routed before service between path after => exact absurd (by simp) (hroute path)

/-- Handlers of the host are not metrics routes. -/
theorem mem_addHost {app : App} {ids : List ℕ} {path : String} :
    .metricsRoute path ∈ (app.addHost ids).handlers ↔ .metricsRoute path ∈ app.handlers := by
  simp [App.addHost]

/-- An attempt on an inert app leaves it inert where it throws, and armed where it returns. -/
theorem attempt_inert {app : App} (h : Inert app) (env : Env) (o : InstallOpts)
    (fault : Option (Fault WireFault)) (p : Proc) :
    ((installHono env o fault p app).raised = true ∧ Inert (installHono env o fault p app).app ∧
        (installHono env o fault p app).app.basePath = app.basePath) ∨
      ((installHono env o fault p app).raised = false ∧
        Armed o app.basePath (installHono env o fault p app).app) := by
  have hwired := wired_install env o fault p h.sentinel
  have hshaped := shaped_install env o fault p h.sentinel h.shaped
  generalize installHono env o fault p app = r at hwired hshaped ⊢
  cases hwired with
  | returned q =>
    right
    obtain ⟨hbase, hsentinel, hservice, hpath⟩ := props_wired app o
    refine ⟨rfl, hshaped, hsentinel, hservice, hpath, hbase, ?_⟩
    intro path
    dsimp only
    rw [(handlers_wired app o).1, h.flag, if_neg Bool.false_ne_true]
    have hnone := h.unrouted path
    split_ifs <;> simp [hnone]
  | threw q => exact Or.inl ⟨rfl, ⟨hshaped, rfl, h.unrouted⟩, rfl⟩
  | threwLate q =>
    -- At most the middleware was registered.
    refine Or.inl ⟨rfl, ⟨hshaped, rfl, ?_⟩, ?_⟩
    all_goals
      unfold App.rollback App.useRecorder App.describe
      dsimp only
    · intro path
      split_ifs
      · exact h.unrouted path
      · simp [h.unrouted path]
    · split_ifs <;> rfl

/-- An attempt on an app with its sentinel does nothing. -/
theorem attempt_installed {app : App} (h : app.props.simsysMetricsInstalled = true) (env : Env)
    (o : InstallOpts) (fault : Option (Fault WireFault)) (p : Proc) :
    installHono env o fault p app = ⟨p, app, false⟩ := by
  unfold installHono installOn
  exact if_pos h

/-! ## The runs -/

/-- As long as no attempt returned, the app is inert, and no request is or will be recorded. -/
structure Quiet (basePath : String) (s : Live) : Prop where
  inert : Inert s.app
  base : s.app.basePath = basePath
  reached : ∀ r ∈ s.reached, r.recording = false
  records : s.records = []

/-- Every event that is not a successful attempt keeps the run quiet. -/
theorem quiet_step {basePath : String} {s : Live} {e : Event} (h : Quiet basePath s)
    (hfail : ¬ Succeeds s e) : Quiet basePath (step s e) := by
  cases e with
  | attempt env o fault =>
    -- An attempt that throws leaves the app inert; one that returns is successful.
    rcases attempt_inert h.inert env o fault s.proc with ⟨-, hinert, hbase⟩ | ⟨hreturned, -⟩
    · exact ⟨hinert, hbase.trans h.base, h.reached, h.records⟩
    · exact absurd ⟨h.inert.sentinel, hreturned⟩ hfail
  | addHost handlers =>
    refine ⟨⟨shaped_addHost h.inert.shaped handlers, h.inert.sentinel, ?_⟩, h.base, h.reached,
      h.records⟩
    intro path hpath
    exact h.inert.unrouted path (mem_addHost.mp hpath)
  | reach position path =>
    unfold step
    dsimp only
    split
    · refine ⟨h.inert, h.base, ?_, h.records⟩
      intro r hr
      rcases List.mem_append.mp hr with hr | hr
      · exact h.reached r hr
      · rw [List.mem_singleton.mp hr, goesOn, h.inert.sentinel]
        rfl
    · exact h
  | done i f =>
    unfold step
    dsimp only
    split
    · -- None of the requests that reached the middleware is to be recorded.
      rename_i service hreached
      have hrecording := h.reached _ (List.mem_of_getElem? hreached)
      cases hrecording
    · exact h

/-- A run without a successful attempt is quiet. -/
theorem quiet_run (p : Proc) (basePath : String) (handlers : List ℕ) {es : List Event}
    (h : Along step (fun s e => ¬ Succeeds s e) (.fresh p basePath handlers) es) :
    Quiet basePath (run step (.fresh p basePath handlers) es) := by
  refine @invariant_along _ _ _ (Quiet basePath) _ (fun _ _ => quiet_step) _ ?_ _ h
  refine ⟨⟨shaped_hosted basePath handlers, rfl, ?_⟩, rfl, by simp [Live.fresh], rfl⟩
  simp [Live.fresh, App.hosted]

/-- The first successful attempt of a run arms the app. -/
theorem armed_of_succeeds {basePath : String} {s : Live} (h : Quiet basePath s) {env : Env}
    {o : InstallOpts} {fault : Option (Fault WireFault)}
    (hsucceeds : Succeeds s (.attempt env o fault)) :
    Armed o basePath (step s (.attempt env o fault)).app := by
  rcases attempt_inert h.inert env o fault s.proc with ⟨hraised, -⟩ | ⟨-, harmed⟩
  · rw [hsucceeds.2] at hraised
    cases hraised
  · rw [h.base] at harmed
    exact harmed

section Armed

variable {o : InstallOpts} {basePath : String} {s : Live}

/-- Every event keeps an armed app armed. -/
theorem armed_step (h : Armed o basePath s.app) (e : Event) :
    Armed o basePath (step s e).app := by
  cases e with
  | attempt env o' fault =>
    unfold step
    dsimp only
    rw [attempt_installed h.sentinel]
    exact h
  | addHost handlers =>
    refine ⟨shaped_addHost h.shaped handlers, h.sentinel, h.service, h.path, h.base, ?_⟩
    intro path
    exact mem_addHost.trans (h.route path)
  | reach position path =>
    unfold step
    dsimp only
    split <;> exact h
  | done i f =>
    unfold step
    dsimp only
    split <;> exact h

/-- Every run keeps an armed app armed. -/
theorem armed_run (h : Armed o basePath s.app) (es : List Event) :
    Armed o basePath (run step s es).app := by
  exact @invariant_run _ _ _ (fun s : Live => Armed o basePath s.app)
    (fun _ e hs => armed_step hs e) _ h es

/-- The services under which a request was recorded. -/
def Live.recordsOf (s : Live) (i : ℕ) : List String :=
  (s.records.filter (·.1 = i)).map (·.2.service)

/-- When the later handlers are done with a request that is to be recorded, it is recorded. -/
theorem step_done {i : ℕ} {service : String} (hi : s.reached[i]? = some ⟨service, true⟩)
    (f : Finished) :
    step s (.done i f) =
      { s with
        reached := s.reached.set i ⟨service, false⟩
        records := s.records ++ [(i, labels s.app.props service f)] } := by
  unfold step
  dsimp only
  rw [hi]

/-- What an event does to a request in the middleware: when the later handlers are done with it, it
is recorded if it still is to be, and nothing else touches it. -/
theorem recordsOf_step (h : Armed o basePath s.app) {i : ℕ} {r : Reached}
    (hr : s.reached[i]? = some r) (e : Event) :
    (∃ f, e = .done i f) ∧ (step s e).reached[i]? = some ⟨r.service, false⟩ ∧
        (step s e).recordsOf i = s.recordsOf i ++ (if r.recording then [o.service] else []) ∨
      (¬ ∃ f, e = .done i f) ∧ (step s e).reached[i]? = some r ∧
        (step s e).recordsOf i = s.recordsOf i := by
  cases e with
  | attempt env o' fault => exact Or.inr ⟨by simp, hr, rfl⟩
  | addHost handlers => exact Or.inr ⟨by simp, hr, rfl⟩
  | reach position path =>
    -- A request that reaches the middleware comes after those that did before.
    right
    have hlt := (List.getElem?_eq_some_iff.mp hr).1
    unfold step
    dsimp only
    split
    · refine ⟨by simp, ?_, rfl⟩
      rw [List.getElem?_append_left hlt]
      exact hr
    · exact ⟨by simp, hr, rfl⟩
  | done j f =>
    by_cases hij : j = i
    · left
      subst hij
      refine ⟨⟨f, rfl⟩, ?_⟩
      have hlt := (List.getElem?_eq_some_iff.mp hr).1
      obtain ⟨service, _ | _⟩ := r
      · -- It has been left to the later handlers, so nothing is recorded.
        simp [step, hr]
      · rw [step_done hr]
        simp [Live.recordsOf, labels, h.service, hlt]
    · right
      refine ⟨by simpa using hij, ?_⟩
      unfold step
      dsimp only
      split
      · refine ⟨?_, ?_⟩
        · rw [List.getElem?_set_ne hij]
          exact hr
        · simp [Live.recordsOf, hij]
      · exact ⟨hr, rfl⟩

/-- What a run records for a request in the middleware. -/
theorem recordsOf_run (h : Armed o basePath s.app) {i : ℕ} {r : Reached}
    (hr : s.reached[i]? = some r) (hnew : s.recordsOf i = []) (es : List Event) :
    (∃ f, .done i f ∈ es) ∧ (run step s es).reached[i]? = some ⟨r.service, false⟩ ∧
        (run step s es).recordsOf i = (if r.recording then [o.service] else []) ∨
      (¬ ∃ f, .done i f ∈ es) ∧ (run step s es).reached[i]? = some r ∧
        (run step s es).recordsOf i = [] := by
  induction es using List.reverseRecOn with
  | nil => exact Or.inr ⟨by simp, hr, hnew⟩
  | append_singleton es e ih =>
    have harmed := armed_run h es
    rw [run_concat]
    rcases ih with ⟨⟨f, hf⟩, hreached, hrecords⟩ | ⟨hnot, hreached, hrecords⟩
    · -- It was recorded before, if at all.
      refine Or.inl ⟨⟨f, List.mem_append_left _ hf⟩, ?_⟩
      rcases recordsOf_step harmed hreached e with ⟨-, hr', hrec⟩ | ⟨-, hr', hrec⟩
      · exact ⟨hr', by rw [hrec, hrecords]; simp⟩
      · exact ⟨hr', hrec.trans hrecords⟩
    · rcases recordsOf_step harmed hreached e with ⟨⟨f, rfl⟩, hr', hrec⟩ | ⟨hother, hr', hrec⟩
      · refine Or.inl ⟨⟨f, by simp⟩, hr', ?_⟩
        rw [hrec, hrecords, List.nil_append]
      · refine Or.inr ⟨?_, hr', hrec.trans hrecords⟩
        rintro ⟨f, hf⟩
        rcases List.mem_append.mp hf with hf | hf
        · exact hnot ⟨f, hf⟩
        · exact hother ⟨f, (List.mem_singleton.mp hf).symm⟩

/-- A request that reaches the recording middleware of an armed app outside the stored metrics path
is still to be recorded. -/
theorem reach_armed (h : Armed o basePath s.app) {position : ℕ} {service path : String}
    (hposition : s.app.handlers[position]? = some (.recorder service))
    (hne : s.app.props.simsysMetricsPath ≠ some path) :
    step s (.reach position path) = { s with reached := s.reached ++ [⟨service, true⟩] } := by
  have hgoes : goesOn s.app.props path = true := by
    rw [h.path] at hne
    unfold goesOn
    rw [h.sentinel, h.path]
    simpa using fun heq => hne (congrArg some heq.symm)
  unfold step
  dsimp only
  rw [hposition, hgoes]

/-- The next request in the middleware has no records yet. -/
theorem recordsOf_next (h : ∀ r ∈ s.records, r.1 < s.reached.length) :
    s.recordsOf s.reached.length = [] := by
  simp only [Live.recordsOf, List.map_eq_nil_iff, List.filter_eq_nil_iff]
  intro r hr heq
  have hlt : r.1 < s.reached.length := h r hr
  have heq' : r.1 = s.reached.length := by simpa using heq
  omega

end Armed

/-- Every event keeps the shape of the handlers, and records only requests that reached the
middleware. -/
theorem sound_step {s : Live} (h : Shaped s.app ∧ ∀ r ∈ s.records, r.1 < s.reached.length)
    (e : Event) :
    Shaped (step s e).app ∧ ∀ r ∈ (step s e).records, r.1 < (step s e).reached.length := by
  obtain ⟨hshaped, hrecords⟩ := h
  cases e with
  | attempt env o fault =>
    refine ⟨?_, hrecords⟩
    show Shaped (installHono env o fault s.proc s.app).app
    -- A second attempt on an installed app adds no handlers.
    by_cases hinst : s.app.props.simsysMetricsInstalled
    · rw [attempt_installed hinst]
      exact hshaped
    · exact shaped_install env o fault s.proc (by simpa using hinst) hshaped
  | addHost handlers => exact ⟨shaped_addHost hshaped handlers, hrecords⟩
  | reach position path =>
    unfold step
    dsimp only
    split
    · refine ⟨hshaped, ?_⟩
      intro r hr
      have hlt := hrecords r hr
      rw [List.length_append]
      omega
    · exact ⟨hshaped, hrecords⟩
  | done i f =>
    unfold step
    dsimp only
    split
    · rename_i service hreached
      refine ⟨hshaped, ?_⟩
      intro r hr
      rw [List.length_set]
      rcases List.mem_append.mp hr with hr | hr
      · exact hrecords r hr
      · rw [List.mem_singleton.mp hr]
        exact (List.getElem?_eq_some_iff.mp hreached).1
    · exact ⟨hshaped, hrecords⟩

/-- Every run keeps the shape, and records only requests that reached the middleware. -/
theorem sound_run (p : Proc) (basePath : String) (handlers : List ℕ) (es : List Event) :
    let s := run step (.fresh p basePath handlers) es
    Shaped s.app ∧ ∀ r ∈ s.records, r.1 < s.reached.length := by
  refine @invariant_run _ _ _
    (fun s : Live => Shaped s.app ∧ ∀ r ∈ s.records, r.1 < s.reached.length) ?_ _ ?_ es
  · intro s e h
    exact sound_step h e
  · exact ⟨shaped_hosted basePath handlers, by simp [Live.fresh]⟩

/-- What every run of attempts and requests on an app of a host keeps to. -/
structure AttemptDiscipline (p : Proc) (basePath : String) (handlers : List ℕ) (es : List Event) :
    Prop where
  /-- At most one recording middleware and at most one metrics route are registered. -/
  registered :
    let app := (run step (.fresh p basePath handlers) es).app
    app.handlers.countP (·.isRecorder) ≤ 1 ∧ app.handlers.countP (·.isMetricsRoute) ≤ 1
  /-- While no attempt has succeeded, nothing is recorded, and a metrics route that a request
  reaches answers not found. -/
  quiet : Along step (fun s e => ¬ Succeeds s e) (.fresh p basePath handlers) es →
    let s := run step (.fresh p basePath handlers) es
    s.records = [] ∧
    ∀ (router : Router) (req : Request) (path : String) (rest : List Handler),
      router.covers (router.mergePath s.app.basePath path) req.path = true →
      req.method = "GET" ∨ req.method = "HEAD" →
      serve router s.app req (.metricsRoute path :: rest) =
        ⟨false, { router.notFound req with
          routePath := some (router.mergePath s.app.basePath path) }, []⟩
  /-- From the first success on, the metrics route is the one at that attempt's metrics path, and it
  answers with the exposition. -/
  route : ∀ pre env o fault post, es = pre ++ .attempt env o fault :: post →
    Along step (fun s e => ¬ Succeeds s e) (.fresh p basePath handlers) pre →
    Succeeds (run step (.fresh p basePath handlers) pre) (.attempt env o fault) →
    let app := (run step (.fresh p basePath handlers) es).app
    app.props.simsysMetricsPath = some (absoluteMetricsPath basePath (metricsPath o)) ∧
    (∀ path, .metricsRoute path ∈ app.handlers ↔ path = metricsPath o) ∧
    ∀ (router : Router) (req : Request) (rest : List Handler),
      router.covers (router.mergePath basePath (metricsPath o)) req.path = true →
      req.method = "GET" ∨ req.method = "HEAD" →
      (serve router app req (.metricsRoute (metricsPath o) :: rest)).exposition = true
  /-- From the first success on, a request that reaches the recording middleware outside the stored
  metrics path is recorded once, under that attempt's service, as soon as the later handlers are
  done with it. -/
  recorded : ∀ pre env o fault mid position path post,
    es = pre ++ .attempt env o fault :: (mid ++ .reach position path :: post) →
    Along step (fun s e => ¬ Succeeds s e) (.fresh p basePath handlers) pre →
    Succeeds (run step (.fresh p basePath handlers) pre) (.attempt env o fault) →
    let s := run step (.fresh p basePath handlers) (pre ++ .attempt env o fault :: mid)
    (∃ service, s.app.handlers[position]? = some (.recorder service)) →
    s.app.props.simsysMetricsPath ≠ some path →
    (run step (.fresh p basePath handlers) es).recordsOf s.reached.length = [o.service] ∧
        (∃ f, .done s.reached.length f ∈ post) ∨
      (run step (.fresh p basePath handlers) es).recordsOf s.reached.length = [] ∧
        ¬ ∃ f, .done s.reached.length f ∈ post

/-- Every run of attempts and requests keeps to the discipline. -/
theorem attempt_discipline (p : Proc) (basePath : String) (handlers : List ℕ) (es : List Event) :
    AttemptDiscipline p basePath handlers es := by
  have harm : ∀ pre env o fault post,
      Along step (fun s e => ¬ Succeeds s e) (.fresh p basePath handlers) pre →
      Succeeds (run step (.fresh p basePath handlers) pre) (.attempt env o fault) →
      Armed o basePath
        (run step (.fresh p basePath handlers) (pre ++ .attempt env o fault :: post)).app := by
    intro pre env o fault post hpre hsucceeds
    rw [run_append]
    exact armed_run (armed_of_succeeds (quiet_run p basePath handlers hpre) hsucceeds) post
  constructor
  · exact count_of_shape (sound_run p basePath handlers es).1
  · intro hquiet s
    obtain ⟨hinert, -, -, hrecords⟩ := quiet_run p basePath handlers hquiet
    refine ⟨hrecords, ?_⟩
    intro router req path rest hcovers hmethod
    rw [serve, if_pos ⟨hcovers, hmethod⟩, if_neg (by rw [hinert.sentinel]; decide)]
  · rintro pre env o fault post rfl hpre hsucceeds app
    have harmed := harm pre env o fault post hpre hsucceeds
    refine ⟨harmed.path, harmed.route, ?_⟩
    intro router req rest hcovers hmethod
    rw [← harmed.base] at hcovers
    rw [serve, if_pos ⟨hcovers, hmethod⟩, if_pos harmed.sentinel]
  · rintro pre env o fault mid position path post rfl hpre hsucceeds s ⟨service, hposition⟩ hne
    have harmed : Armed o basePath s.app := harm pre env o fault mid hpre hsucceeds
    have hrecords : ∀ r ∈ s.records, r.1 < s.reached.length :=
      (sound_run p basePath handlers (pre ++ .attempt env o fault :: mid)).2
    -- The request is the next one in the middleware, and still to be recorded.
    have hstep := reach_armed harmed hposition hne
    have hreached : (step s (.reach position path)).reached[s.reached.length]? =
        some ⟨service, true⟩ := by
      rw [hstep]
      exact List.getElem?_concat_length
    have hnew : (step s (.reach position path)).recordsOf s.reached.length = [] := by
      rw [hstep]
      exact recordsOf_next hrecords
    have hrun := recordsOf_run (armed_step harmed (.reach position path)) hreached hnew post
    have hsplit : run step (.fresh p basePath handlers)
        (pre ++ .attempt env o fault :: (mid ++ .reach position path :: post)) =
          run step (step s (.reach position path)) post := by
      rw [← List.cons_append, ← List.append_assoc, run_append]
      rfl
    rw [hsplit]
    rcases hrun with ⟨hdone, -, hrec⟩ | ⟨hnot, -, hrec⟩
    · exact Or.inl ⟨hrec, hdone⟩
    · exact Or.inr ⟨hrec, hnot⟩

end SimsysMetrics.Node.Hono.Attempts
