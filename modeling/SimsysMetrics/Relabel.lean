import SimsysMetrics.Identity
import SimsysMetrics.Lib.Runs

/-!
# Several installs in one process

A process installs several apps, each under a service of its own, and meanwhile serves requests and
scrapes, and runs trackers and job spans. The process-wide service and the process collector follow
the latest install. But a middleware closes over the service of its install, and so does the metrics
view of a Flask app; a tracker keeps the service that it read when it was started; a job span of the
Python lane keeps it too, and one of the Node lane reads it at the end.

So every sample carries the service of the latest install exactly when its writer is `Current`: what
keeps a service, keeps the one of the latest install (`writes_latest_iff`). What was started before
stays with the earlier service (`old_tracker_keeps_service`).

A `Lane` is what the two lanes have in common here. The request of an app is a request as that app
counts it.
-/

namespace SimsysMetrics

/-- A lane: how it installs an app in a process, and what reaches the samples. -/
structure Lane where
  Proc : Type
  App : Type
  Install : Type
  Request : Type
  fresh : Proc
  /-- The states of the process that successful installs leave. -/
  Inv : Proc → Prop
  /-- The install is of a new app, under a trimmed service, and returns. -/
  Succeeds : Install → Proc → Prop
  proc : Install → Proc → Proc
  app : Install → Proc → App
  service : Install → String
  getService : Proc → Option String
  counted : App → Request → Finset Written
  /-- What the metrics view of an app collects from the process collector. -/
  collected : App → Proc → Finset Written
  /-- What the metrics view of an app writes itself. -/
  viewed : App → Finset Written
  /-- A job span reads the service when it begins, and not when it ends. -/
  spanKeeps : Bool
  inv_fresh : Inv fresh
  getService_fresh : getService fresh = none
  inv_proc : ∀ i p, Inv p → Succeeds i p → Inv (proc i p)
  getService_proc : ∀ i p, Inv p → Succeeds i p → getService (proc i p) = some (service i)
  counted_app : ∀ i p, Inv p → Succeeds i p →
    ∀ req, ∀ w ∈ counted (app i p) req, w.service = service i
  viewed_app : ∀ i p, Inv p → Succeeds i p → ∀ w ∈ viewed (app i p), w.service = service i
  collected_app : ∀ i p, Inv p → Succeeds i p →
    ∀ w ∈ collected (app i p) (proc i p), w.service = service i
  /-- A view that writes nothing itself collects under the process-wide service. -/
  collected_of_viewed : ∀ a p, Inv p → viewed a = ∅ →
    ∀ w ∈ collected a p, getService p = some w.service

namespace Lane

/-- A tracker or a job span: what it is, and after how many installs it was started. -/
structure Dated (α : Type) where
  val : α
  epoch : ℕ
deriving DecidableEq, Repr

/-- What happens in a process. -/
inductive Event (L : Lane) where
  | install (i : L.Install)
  | request (k : ℕ) (req : L.Request)
  /-- A scrape through the metrics view of an app. -/
  | scrape (k : ℕ)
  | start (kind : TrackerKind)
  | tracker (k : ℕ) (event : TrackerEvent)
  /-- A job begins, and the one with the index ends. -/
  | enter
  | exit (k : ℕ)

/-- A process with its installed apps and their services, its trackers, and its job spans with the
service that a span keeps, in the order in which they began. -/
structure State (L : Lane) where
  proc : L.Proc
  apps : List L.App
  services : List String
  trackers : List (Dated Started)
  spans : List (Dated (Option String))

variable (L : Lane)

/-- A fresh process. -/
def start : L.State := ⟨L.fresh, [], [], [], []⟩

variable {L}

/-- How many apps are installed. -/
def State.epoch (s : L.State) : ℕ := s.apps.length

/-- The service of the latest install. -/
def State.latest (s : L.State) : Option String := s.services.getLast?

/-- The spans that a job which begins adds: without a service there is nothing to keep, and the
Python lane raises. -/
def State.begun (s : L.State) : List (Dated (Option String)) :=
  if L.spanKeeps then (L.getService s.proc).toList.map fun g => ⟨some g, s.epoch⟩
  else [⟨none, s.epoch⟩]

/-- The state after an event. -/
def step (s : L.State) : L.Event → L.State
  | .install i =>
    { s with
      proc := L.proc i s.proc
      apps := s.apps ++ [L.app i s.proc]
      services := s.services ++ [L.service i] }
  | .start kind =>
    { s with
      trackers := s.trackers ++ (L.getService s.proc).toList.map fun g => ⟨⟨kind, g⟩, s.epoch⟩ }
  | .enter => { s with spans := s.spans ++ s.begun }
  | _ => s

/-- The samples that an event writes. -/
def written (s : L.State) : L.Event → Finset Written
  | .install i => samplesOf {.buildInfo} {L.service i}
  | .request k req => s.apps[k]?.elim ∅ (L.counted · req)
  | .scrape k => s.apps[k]?.elim ∅ fun a => L.viewed a ∪ L.collected a s.proc
  | .start kind => samplesOf (kind.families .started) (L.getService s.proc).toFinset
  | .tracker k event =>
    s.trackers[k]?.elim ∅ fun t => samplesOf (t.val.kind.families event) {t.val.service}
  | .enter => ∅
  | .exit k =>
    s.spans[k]?.elim ∅ fun span => samplesOf {.jobsTotal, .jobDurationSeconds}
      (span.val.or (L.getService s.proc)).toFinset

/-- An install succeeds, and is the first one under its service. -/
def Valid (s : L.State) : L.Event → Prop
  | .install i => L.Succeeds i s.proc ∧ L.service i ∉ s.services
  | _ => True

/-- What writes under a service that it keeps began with the latest install or since. An app keeps
one where a request is counted, and where its metrics view writes itself. -/
def Current (s : L.State) : L.Event → Prop
  | .request k req => ∀ a, s.apps[k]? = some a → (L.counted a req).Nonempty → k + 1 = s.epoch
  | .scrape k => ∀ a, s.apps[k]? = some a → (L.viewed a).Nonempty → k + 1 = s.epoch
  | .tracker k event =>
    ∀ t, s.trackers[k]? = some t → (t.val.kind.families event).Nonempty → t.epoch = s.epoch
  | .exit k => ∀ span, s.spans[k]? = some span → span.val.isSome → span.epoch = s.epoch
  | _ => True

/-- Everything that an event writes carries the service of the latest install. -/
def WritesLatest (s : L.State) (e : L.Event) : Prop :=
  ∀ w ∈ written s e, (step s e).latest = some w.service

/-- The service of an app, or of what was started after so many installs. -/
def State.ServiceAt (s : L.State) (epoch : ℕ) (g : String) : Prop :=
  ∃ k, epoch = k + 1 ∧ s.services[k]? = some g

/-- What holds after every run of valid events: the process follows the latest install, and what
keeps a service keeps the one of its time. -/
structure State.Inv (s : L.State) : Prop where
  proc : L.Inv s.proc
  getService : L.getService s.proc = s.latest
  nodup : s.services.Nodup
  length : s.services.length = s.epoch
  counted : ∀ k a, s.apps[k]? = some a → ∀ req, ∀ w ∈ L.counted a req, s.ServiceAt (k + 1) w.service
  viewed : ∀ k a, s.apps[k]? = some a → ∀ w ∈ L.viewed a, s.ServiceAt (k + 1) w.service
  collected : ∀ k a, s.apps[k]? = some a → k + 1 = s.epoch →
    ∀ w ∈ L.collected a s.proc, s.latest = some w.service
  trackers : ∀ t ∈ s.trackers, s.ServiceAt t.epoch t.val.service
  spans : ∀ span ∈ s.spans, ∀ g, span.val = some g → s.ServiceAt span.epoch g

/-- A fresh process satisfies the invariant. -/
theorem inv_start : L.start.Inv where
  proc := L.inv_fresh
  getService := L.getService_fresh
  nodup := List.nodup_nil
  length := rfl
  counted := by
    intro k a hk
    simp [start] at hk
  viewed := by
    intro k a hk
    simp [start] at hk
  collected := by
    intro k a hk
    simp [start] at hk
  trackers := by
    intro t ht
    cases ht
  spans := by
    intro span hspan
    cases hspan

section Service

variable {s : L.State}

/-- What is started in a process with a service starts under the service of its time. -/
theorem State.Inv.serviceAt_epoch (hs : s.Inv) {g : String} (hg : L.getService s.proc = some g) :
    s.ServiceAt s.epoch g := by
  rw [hs.getService, State.latest, List.getLast?_eq_getElem?] at hg
  obtain ⟨hlt, -⟩ := List.getElem?_eq_some_iff.mp hg
  refine ⟨s.services.length - 1, ?_, hg⟩
  rw [← hs.length]
  omega

/-- Among services that differ, the latest is the one of the latest install only. -/
theorem State.Inv.latest_iff (hs : s.Inv) {n : ℕ} {g : String} (hg : s.ServiceAt n g) :
    s.latest = some g ↔ n = s.epoch := by
  obtain ⟨k, rfl, hk⟩ := hg
  obtain ⟨hlt, -⟩ := List.getElem?_eq_some_iff.mp hk
  rw [State.latest, List.getLast?_eq_getElem?, ← hs.length]
  constructor
  · intro hlast
    have hidx : s.services.length - 1 = k :=
      (List.getElem?_inj (by omega) hs.nodup).mp (hlast.trans hk.symm)
    omega
  · intro heq
    rw [← heq, Nat.add_sub_cancel]
    exact hk

/-- Samples that keep one service carry the latest exactly when there are none, or it is kept since
the latest install. -/
theorem State.Inv.keep_iff (hs : s.Inv) {n : ℕ} {W : Finset Written}
    (hW : ∀ w ∈ W, s.ServiceAt n w.service) :
    (∀ w ∈ W, s.latest = some w.service) ↔ (W.Nonempty → n = s.epoch) := by
  constructor
  · rintro h ⟨w, hw⟩
    exact (hs.latest_iff (hW w hw)).mp (h w hw)
  · intro h w hw
    exact (hs.latest_iff (hW w hw)).mpr (h ⟨w, hw⟩)

/-- A later install leaves what is kept. -/
theorem State.ServiceAt.install {n : ℕ} {g : String} (h : s.ServiceAt n g) (i : L.Install) :
    (step s (.install i)).ServiceAt n g := by
  obtain ⟨k, rfl, hk⟩ := h
  obtain ⟨hlt, -⟩ := List.getElem?_eq_some_iff.mp hk
  refine ⟨k, rfl, ?_⟩
  show (s.services ++ [L.service i])[k]? = some g
  rw [List.getElem?_append_left hlt]
  exact hk

/-- An app after an install is an earlier one or the new one. -/
theorem getElem?_install {i : L.Install} {k : ℕ} {a : L.App}
    (hk : (step s (.install i)).apps[k]? = some a) :
    s.apps[k]? = some a ∨ k = s.epoch ∧ a = L.app i s.proc := by
  have hk' : (s.apps ++ [L.app i s.proc])[k]? = some a := hk
  rcases lt_or_ge k s.apps.length with hlt | hge
  · rw [List.getElem?_append_left hlt] at hk'
    exact Or.inl hk'
  · rw [List.getElem?_append_right hge, List.getElem?_singleton] at hk'
    split_ifs at hk' with hzero
    exact Or.inr ⟨by unfold State.epoch; omega, (Option.some.inj hk').symm⟩

/-- The service of an install is the one of its time. -/
theorem State.Inv.serviceAt_install (hs : s.Inv) (i : L.Install) :
    (step s (.install i)).ServiceAt (s.epoch + 1) (L.service i) := by
  refine ⟨s.epoch, rfl, ?_⟩
  rw [← hs.length]
  exact List.getElem?_concat_length

end Service

/-- A valid install keeps the invariant: its service is new, and what began before keeps its own. -/
theorem State.Inv.install {s : L.State} (hs : s.Inv) {i : L.Install}
    (hvalid : Valid s (.install i)) :
    (step s (.install i)).Inv := by
  obtain ⟨hsucceeds, hnew⟩ := hvalid
  have hlatest : (step s (.install i)).latest = some (L.service i) := List.getLast?_concat
  have hown := hs.serviceAt_install i
  refine ⟨L.inv_proc i s.proc hs.proc hsucceeds, ?_, ?_, ?_, ?_, ?_, ?_, ?_, ?_⟩
  · rw [hlatest]
    exact L.getService_proc i s.proc hs.proc hsucceeds
  · exact List.nodup_append.mpr ⟨hs.nodup, List.nodup_singleton _, by
      rintro g hg _ hi rfl
      rw [List.mem_singleton] at hi
      exact hnew (hi ▸ hg)⟩
  · show (s.services ++ [L.service i]).length = (s.apps ++ [L.app i s.proc]).length
    rw [List.length_append, List.length_append, hs.length]
    rfl
  · -- What an app counts, views or collects: for the new app under the new service, for an earlier
    -- one as before.
    intro k a hk req w hw
    rcases getElem?_install hk with hk | ⟨rfl, rfl⟩
    · exact (hs.counted k a hk req w hw).install i
    · rw [L.counted_app i s.proc hs.proc hsucceeds req w hw]
      exact hown
  · intro k a hk w hw
    rcases getElem?_install hk with hk | ⟨rfl, rfl⟩
    · exact (hs.viewed k a hk w hw).install i
    · rw [L.viewed_app i s.proc hs.proc hsucceeds w hw]
      exact hown
  · intro k a hk hlast w hw
    rcases getElem?_install hk with hk | ⟨rfl, rfl⟩
    · -- An earlier app is not the last one.
      obtain ⟨hlt, -⟩ := List.getElem?_eq_some_iff.mp hk
      have hepoch : (step s (.install i)).epoch = s.apps.length + 1 := List.length_append
      omega
    · rw [L.collected_app i s.proc hs.proc hsucceeds w hw]
      exact hlatest
  · intro t ht
    exact (hs.trackers t ht).install i
  · intro span hspan g hg
    exact (hs.spans span hspan g hg).install i

/-- A service that a span which begins keeps is the process-wide one. -/
theorem State.getService_of_begun {s : L.State} {span : Dated (Option String)}
    (hspan : span ∈ s.begun) {g : String} (hg : span.val = some g) :
    span.epoch = s.epoch ∧ L.getService s.proc = some g := by
  unfold State.begun at hspan
  split_ifs at hspan
  · obtain ⟨h, hh, rfl⟩ := List.mem_map.mp hspan
    obtain rfl := Option.some.inj hg
    exact ⟨rfl, Option.mem_toList.mp hh⟩
  · rw [List.mem_singleton.mp hspan] at hg
    cases hg

/-- Every valid event keeps the invariant. -/
theorem State.Inv.step {s : L.State} (hs : s.Inv) {e : L.Event} (hvalid : Valid s e) :
    (Lane.step s e).Inv := by
  cases e with
  | install i => exact hs.install hvalid
  | request | scrape | tracker | exit => exact hs
  | start kind =>
    refine { hs with trackers := ?_ }
    intro t ht
    rcases List.mem_append.mp ht with ht | ht
    · exact hs.trackers t ht
    · obtain ⟨g, hg, rfl⟩ := List.mem_map.mp ht
      exact hs.serviceAt_epoch (Option.mem_toList.mp hg)
  | enter =>
    refine { hs with spans := ?_ }
    intro span hspan g hg
    rcases List.mem_append.mp hspan with hspan | hspan
    · exact hs.spans span hspan g hg
    · obtain ⟨hepoch, hget⟩ := State.getService_of_begun hspan hg
      rw [hepoch]
      exact hs.serviceAt_epoch hget

/-- Some families under one service give a sample exactly when there is a family. -/
theorem samplesOf_singleton_nonempty {families : Finset Family} {g : String} :
    (samplesOf families {g}).Nonempty ↔ families.Nonempty := by
  unfold samplesOf
  rw [Finset.image_nonempty, Finset.nonempty_product]
  exact and_iff_left (Finset.singleton_nonempty g)

/-- What the writer at a position writes, where there is one. -/
theorem forall_elim_iff {α : Type} {o : Option α} {f : α → Finset Written} {P : Written → Prop}
    {Q : α → Prop} (h : ∀ a, o = some a → ((∀ w ∈ f a, P w) ↔ Q a)) :
    (∀ w ∈ o.elim ∅ f, P w) ↔ ∀ a, o = some a → Q a := by
  cases o with
  | none => simp
  | some a =>
    rw [Option.elim_some, h a rfl]
    simp

/-- Samples under the process-wide service carry the latest. -/
theorem State.Inv.latest_of_getService {s : L.State} (hs : s.Inv) {families : Finset Family} :
    ∀ w ∈ samplesOf families (L.getService s.proc).toFinset, s.latest = some w.service := by
  intro w hw
  have hservice := (mem_samplesOf.mp hw).2
  rw [hs.getService] at hservice
  exact Option.mem_toFinset.mp hservice

/-- An event writes under the latest service exactly when it is current. -/
theorem State.Inv.writesLatest_iff {s : L.State} (hs : s.Inv) (e : L.Event) :
    WritesLatest s e ↔ Current s e := by
  cases e with
  | install i =>
    refine iff_of_true ?_ trivial
    intro w hw
    rw [service_of_samplesOf w hw]
    exact List.getLast?_concat
  | start kind => exact iff_of_true hs.latest_of_getService trivial
  | enter =>
    refine iff_of_true ?_ trivial
    intro w hw
    cases hw
  | request k req =>
    refine forall_elim_iff ?_
    intro a hk
    exact hs.keep_iff (hs.counted k a hk req)
  | scrape k =>
    refine forall_elim_iff ?_
    intro a hk
    rw [← hs.keep_iff (hs.viewed k a hk)]
    constructor
    · intro h w hw
      exact h w (Finset.mem_union_left _ hw)
    · intro h w hw
      rcases Finset.mem_union.mp hw with hw | hw
      · exact h w hw
      · -- What it collects is current if the view writes nothing, or if the app is the last one.
        rcases (L.viewed a).eq_empty_or_nonempty with hnone | hsome
        · have hget := L.collected_of_viewed a s.proc hs.proc hnone w hw
          rw [hs.getService] at hget
          exact hget
        · have hlast := (hs.keep_iff (hs.viewed k a hk)).mp h hsome
          exact hs.collected k a hk hlast w hw
  | tracker k event =>
    refine forall_elim_iff ?_
    intro t hk
    rw [← @samplesOf_singleton_nonempty _ t.val.service]
    refine hs.keep_iff ?_
    intro w hw
    rw [service_of_samplesOf w hw]
    exact hs.trackers t (List.mem_of_getElem? hk)
  | exit k =>
    -- A span writes under the service that it kept, or asks for the latest one where it kept none.
    refine forall_elim_iff ?_
    intro span hk
    cases hval : span.val with
    | none => exact iff_of_true hs.latest_of_getService (by simp)
    | some g =>
      have hat := hs.spans span (List.mem_of_getElem? hk) g hval
      rw [Option.some_or, Option.toFinset_some, Option.isSome_some, eq_self, true_imp_iff,
        ← hs.latest_iff hat]
      constructor
      · intro h
        exact h ⟨.jobsTotal, g⟩ (mem_samplesOf.mpr (by simp))
      · intro h w hw
        rw [service_of_samplesOf w hw]
        exact h

/-- In every run of valid events, every sample carries the service of the latest install exactly
when every event is current. -/
theorem writesLatest_along_iff {es : List L.Event} (hvalid : Lib.Along step Valid L.start es) :
    Lib.Along step WritesLatest L.start es ↔ Lib.Along step Current L.start es := by
  constructor
  · exact Lib.along_of_along (fun _ _ hs hv => hs.step hv)
      (fun _ e hs => (hs.writesLatest_iff e).mp) inv_start hvalid
  · exact Lib.along_of_along (fun _ _ hs hv => hs.step hv)
      (fun _ e hs => (hs.writesLatest_iff e).mpr) inv_start hvalid

end Lane

/-! ## The Python lane -/

namespace Python

/-- The install of an app of a host, with what the host adds to the app later and what the framework
and the host supply to a request. -/
inductive AppInstall where
  | fastapi (env : Env) (o : InstallOpts) (fault : Option (Fault FastApi.WireFault))
      (middlewares routes laterMiddlewares laterRoutes : List ℕ) (host : FastApi.Host)
  | flask (env : Env) (o : InstallOpts) (fault : Option (Fault Flask.WireFault))
      (parts later : Flask.HostParts) (host : Flask.HostHooks)

/-- An app that is installed, with its host. -/
inductive InstalledApp where
  | fastapi (app : FastApi.App) (host : FastApi.Host)
  | flask (app : Flask.App) (host : Flask.HostHooks)

/-- A request of an app. -/
inductive AppRequest where
  | fastapi (req : Request)
  | flask (req : Flask.Request) (ending : Flask.Ending)

namespace AppInstall

/-- The service that is given to the install. -/
def service : AppInstall → String
  | .fastapi _ o _ _ _ _ _ _ => o.service
  | .flask _ o _ _ _ _ => o.service

/-- What the install leaves, in a process where `PROMETHEUS_MULTIPROC_DIR` is set or not. -/
def result (multiproc : Bool) (p : Proc) : AppInstall → Installed InstalledApp
  | .fastapi env o fault middlewares routes laterMiddlewares laterRoutes host =>
    let r := FastApi.installFastapi { env with multiproc } o fault p (.hosted middlewares routes)
    ⟨r.proc, .fastapi (r.app.addHost laterMiddlewares laterRoutes) host, r.raised⟩
  | .flask env o fault parts later host =>
    let r := Flask.installFlask { env with multiproc } o fault p (.hosted parts)
    ⟨r.proc, .flask (r.app.addHost later) host, r.raised⟩

end AppInstall

/-- What is counted for a request of an app. -/
def InstalledApp.counted : InstalledApp → AppRequest → Finset Written
  | .fastapi app host, .fastapi req => httpWritten (app.handle host req).counted
  | .flask app host, .flask req ending => (Flask.surfaces host .fresh app).onRequest (req, ending)
  | _, _ => ∅

/-- What the registered collectors collect. -/
def Proc.collected (p : Proc) : Finset Written :=
  samplesOf processFamilies (p.collectors.registry.image (·.service))

/-- What the metrics view of an app collects from `REGISTRY`. In the multi-process mode the view of
a FastAPI app has a registry of its own, without the collectors. -/
def InstalledApp.collected (multiproc : Bool) : InstalledApp → Proc → Finset Written
  | .fastapi _ _, p => if multiproc then ∅ else p.collected
  | .flask app _, p => if app.viewServices = [] then ∅ else p.collected

/-- What the metrics view of an app writes itself. -/
def InstalledApp.viewed : InstalledApp → Finset Written
  | .fastapi _ _ => ∅
  | .flask app _ => samplesOf {.scrapeDurationSeconds, .scrapeErrorsTotal} app.viewServices.toFinset

/-- A registration that returns leaves a singleton of the service. -/
theorem service_of_register {id : ℕ} {service : String} {s : Collectors} {state : RollbackState}
    (h : (registerProcessCollector id none service s).2 = some state) {col : Collector}
    (hcol : (registerProcessCollector id none service s).1.collector = some col) :
    col.service = service := by
  obtain ⟨_ | prior, registry⟩ := s
  · cases hcol
    rfl
  · unfold registerProcessCollector at h hcol
    dsimp only at h hcol
    split_ifs at h hcol with hsvc hmem
    · cases hcol
      rfl
    · cases hcol
      exact not_not.mp hsvc

section Returned

variable {α ω : Type} [DecidableEq ω] {ad : Adapter α ω} {env : Env} {o : InstallOpts}
  {fault : Option (Fault ω)} {p : Proc} {app : α}

/-- What an install that returned on an app without its sentinel leaves: the trimmed service, no
collector but the singleton, and outside the multi-process mode one of the service. -/
theorem proc_of_returned (hp : p.collectors.Consistent) (hclear : ad.installed app = false)
    (hreturned : (installOn ad env o fault p app).raised = false) :
    (installOn ad env o fault p app).proc.service = some (strip o.service) ∧
      (installOn ad env o fault p app).proc.collectors.Consistent ∧
      (env.multiproc = false →
        ∀ w ∈ (installOn ad env o fault p app).proc.collected, w.service = o.service) := by
  obtain ⟨c, state, wired, hstep, -, hinstall⟩ := steps_of_returned hclear hreturned
  rw [hinstall]
  unfold collectorStep at hstep
  by_cases hm : env.multiproc
  · rw [if_pos hm] at hstep
    obtain ⟨rfl, -⟩ := Prod.mk.inj hstep
    refine ⟨rfl, hp, ?_⟩
    rw [hm]
    exact Bool.noConfusion
  · rw [if_neg hm] at hstep
    obtain ⟨rfl, hstate⟩ := Prod.mk.inj hstep
    obtain ⟨state', hstate', -⟩ := Option.map_eq_some_iff.mp hstate
    have hconsistent := consistent_register env.collectorId none o.service hp
    refine ⟨rfl, hconsistent, ?_⟩
    intro _ w hw
    obtain ⟨col, hcol, hw⟩ := Finset.mem_image.mp (mem_samplesOf.mp hw).2
    rw [← hw]
    exact service_of_register hstate' (hconsistent col hcol)

end Returned

/-- What a metrics view collects from `REGISTRY` carries the process-wide service; in the
multi-process mode the collector may be an earlier one. -/
def Proc.Follows (multiproc : Bool) (p : Proc) : Prop :=
  p.collectors.Consistent ∧ (multiproc = false → ∀ w ∈ p.collected, p.service = some w.service)

namespace AppInstall

/-- The install registers a process collector; in the multi-process mode only one of Flask does. -/
def registers (multiproc : Bool) : AppInstall → Bool
  | .fastapi .. => !multiproc
  | .flask .. => true

/-- The install is under a trimmed service, and returns. -/
def Succeeds (multiproc : Bool) (i : AppInstall) (p : Proc) : Prop :=
  (i.result multiproc p).raised = false ∧ strip i.service = i.service

variable {multiproc : Bool} {p : Proc} {i : AppInstall}

/-- What a successful install leaves: its service, no collector but the singleton, and where it
registers one, one of its service. -/
theorem proc_of_succeeds (hp : p.Follows multiproc) (h : i.Succeeds multiproc p) :
    (i.result multiproc p).proc.service = some i.service ∧
      (i.result multiproc p).proc.collectors.Consistent ∧
      (i.registers multiproc = true →
        ∀ w ∈ (i.result multiproc p).proc.collected, w.service = i.service) := by
  obtain ⟨hreturned, htrim⟩ := h
  rw [← congrArg some htrim]
  cases i with
  | fastapi env o fault middlewares routes laterMiddlewares laterRoutes host =>
    obtain ⟨hservice, hconsistent, hcollected⟩ := @Python.proc_of_returned _ _ _ FastApi.adapter
      { env with multiproc } o fault p (.hosted middlewares routes) hp.1 rfl hreturned
    exact ⟨hservice, hconsistent,
      fun hregisters => hcollected (Bool.not_eq_true' _ |>.mp hregisters)⟩
  | flask env o fault parts later host =>
    obtain ⟨hservice, hconsistent, hcollected⟩ := @Python.proc_of_returned _ _ _ Flask.adapter
      { env with multiproc := false } o fault p (.hosted parts) hp.1 rfl hreturned
    exact ⟨hservice, hconsistent, fun _ => hcollected rfl⟩

/-- A successful install keeps what holds of the collectors. -/
theorem follows_of_succeeds (hp : p.Follows multiproc) (h : i.Succeeds multiproc p) :
    (i.result multiproc p).proc.Follows multiproc := by
  obtain ⟨hservice, hconsistent, hcollected⟩ := proc_of_succeeds hp h
  refine ⟨hconsistent, ?_⟩
  intro hm w hw
  have hregisters : i.registers multiproc = true := by
    cases i <;> simp [registers, hm]
  rw [hservice, hcollected hregisters w hw]

/-- The metrics view of an app that was just installed collects under its service. -/
theorem service_of_collected (hp : p.Follows multiproc) (h : i.Succeeds multiproc p) :
    ∀ w ∈ (i.result multiproc p).app.collected multiproc (i.result multiproc p).proc,
      w.service = i.service := by
  intro w hw
  have hcollected := (proc_of_succeeds hp h).2.2
  cases i with
  | fastapi env o fault middlewares routes laterMiddlewares laterRoutes host =>
    cases multiproc with
    | true => cases hw
    | false => exact hcollected rfl w hw
  | flask env o fault parts later host =>
    refine hcollected rfl w ?_
    simp only [result, InstalledApp.collected] at hw
    split_ifs at hw with hnone
    · cases hw
    · exact hw

/-- An app whose install returned counts its requests under the service. -/
theorem service_of_counted (hreturned : (i.result multiproc p).raised = false) (req : AppRequest) :
    ∀ w ∈ (i.result multiproc p).app.counted req, w.service = i.service := by
  cases i with
  | fastapi env o fault middlewares routes laterMiddlewares laterRoutes host =>
    cases req with
    | fastapi req =>
      exact FastApi.service_of_request hreturned host laterMiddlewares laterRoutes req
    | flask req ending =>
      intro w hw
      cases hw
  | flask env o fault parts later host =>
    cases req with
    | fastapi req =>
      intro w hw
      cases hw
    | flask req ending =>
      have hwired := (Flask.wired_of_returned hreturned).addHost later
      exact Flask.service_of_request hwired host .fresh (req, ending)

/-- The metrics view of an app whose install returned writes under the service. -/
theorem service_of_viewed (hreturned : (i.result multiproc p).raised = false) :
    ∀ w ∈ (i.result multiproc p).app.viewed, w.service = i.service := by
  cases i with
  | fastapi =>
    intro w hw
    cases hw
  | flask env o fault parts later host =>
    have hwired := (Flask.wired_of_returned hreturned).addHost later
    exact Flask.service_of_views hwired

end AppInstall

/-- A metrics view that writes nothing itself collects under the process-wide service. -/
theorem Proc.Follows.collected {multiproc : Bool} {p : Proc} (hp : p.Follows multiproc)
    (a : InstalledApp) (hviewed : a.viewed = ∅) :
    ∀ w ∈ a.collected multiproc p, p.service = some w.service := by
  intro w hw
  cases a with
  | fastapi app host =>
    cases multiproc with
    | true => cases hw
    | false => exact hp.2 rfl w hw
  | flask app host =>
    -- A metrics view of Flask writes the duration of the scrape.
    have hnone : app.viewServices = [] := by
      by_contra hsome
      obtain ⟨g, hg⟩ := List.exists_mem_of_ne_nil _ hsome
      have hmem : ⟨.scrapeErrorsTotal, g⟩ ∈ (InstalledApp.flask app host).viewed :=
        mem_samplesOf.mpr ⟨by simp, List.mem_toFinset.mpr hg⟩
      rw [hviewed] at hmem
      cases hmem
    simp [InstalledApp.collected, hnone] at hw

/-- The Python lane, in a process where `PROMETHEUS_MULTIPROC_DIR` is set or not. -/
def lane (multiproc : Bool) : Lane where
  Proc := Proc
  App := InstalledApp
  Install := AppInstall
  Request := AppRequest
  fresh := .fresh
  Inv := Proc.Follows multiproc
  Succeeds := AppInstall.Succeeds multiproc
  proc i p := (i.result multiproc p).proc
  app i p := (i.result multiproc p).app
  service := AppInstall.service
  getService p := p.service
  counted := InstalledApp.counted
  collected := InstalledApp.collected multiproc
  viewed := InstalledApp.viewed
  spanKeeps := true
  inv_fresh := by
    refine ⟨Collectors.consistent_empty, ?_⟩
    intro _ w hw
    cases hw
  getService_fresh := rfl
  inv_proc _ _ := AppInstall.follows_of_succeeds
  getService_proc _ _ hp h := (AppInstall.proc_of_succeeds hp h).1
  counted_app _ _ _ h := AppInstall.service_of_counted h.1
  viewed_app _ _ _ h := AppInstall.service_of_viewed h.1
  collected_app _ _ := AppInstall.service_of_collected
  collected_of_viewed a _ hp := hp.collected a

end Python

/-! ## The Node lane -/

namespace Node

/-- The install of an app of a host, with what the host adds to the app later and the router of its
framework, or the one install for Next.js. -/
inductive AppInstall where
  | express (env : Env) (o : InstallOpts) (fault : Option (Fault Express.WireFault))
      (layers later : List ℕ) (router : Express.Router)
  | hono (env : Env) (o : InstallOpts) (fault : Option (Fault Hono.WireFault)) (basePath : String)
      (handlers later : List ℕ) (router : Hono.Router)
  | next (env : Env) (o : InstallOpts) (n : Next.NextOpts) (fault : Option (Fault Next.WireFault))

/-- An app that is installed, with its router, or the patched `emit`. -/
inductive InstalledApp where
  | express (app : Express.App) (router : Express.Router)
  | hono (app : Hono.App) (router : Hono.Router)
  | next (emit : Next.Emit)

/-- A request of an app; for Next.js in the state that its requests share. -/
inductive AppRequest where
  | express (req : Request)
  | hono (req : Request)
  | next (s : Next.NextState) (req : Next.Request)

/-- A process: its state, and the globals that the install for Next.js changes. -/
structure Process where
  proc : Proc
  globals : Next.Globals

namespace AppInstall

/-- The service that is given to the install. -/
def service : AppInstall → String
  | .express _ o _ _ _ _ => o.service
  | .hono _ o _ _ _ _ _ => o.service
  | .next _ o _ _ => o.service

/-- What the install leaves. -/
def result (p : Process) : AppInstall → Process × InstalledApp × Bool
  | .express env o fault layers later router =>
    let r := Express.installExpress env o fault p.proc (.hosted layers)
    (⟨r.proc, p.globals⟩, .express (r.app.addHost later) router, r.raised)
  | .hono env o fault basePath handlers later router =>
    let r := Hono.installHono env o fault p.proc (.hosted basePath handlers)
    (⟨r.proc, p.globals⟩, .hono (r.app.addHost later) router, r.raised)
  | .next env o n fault =>
    let r := Next.installNext env o n fault p.proc p.globals
    (⟨r.proc, r.app⟩, .next r.app.emit, r.raised)

/-- The app has no earlier install. Next.js is one app in a process. -/
def IsNew (p : Process) : AppInstall → Prop
  | .next _ _ _ _ => p.globals.installed = false
  | _ => True

end AppInstall

/-- What is counted for a request of an app. -/
def InstalledApp.counted : InstalledApp → AppRequest → Finset Written
  | .express app router, .express req => httpWritten (app.handle router req).counted
  | .hono app router, .hono req => httpWritten (app.handle router req).counted
  | .next emit, .next s req => httpWritten (emit.counted s req)
  | _, _ => ∅

/-- What a metrics view collects from the process collector. -/
def Process.collected (p : Process) : Finset Written :=
  samplesOf processFamilies p.proc.process.reporting.toFinset

/-- The globals are fresh, or the install for Next.js returned. -/
def Process.Follows (p : Process) : Prop := p.globals = .fresh ∨ p.globals.installed = true

namespace AppInstall

variable {p : Process} {i : AppInstall}

/-- A new app for Next.js finds fresh globals. -/
theorem globals_of_isNew (hp : p.Follows) {env : Env} {o : InstallOpts} {n : Next.NextOpts}
    {fault : Option (Fault Next.WireFault)} (hnew : (next env o n fault).IsNew p) :
    p.globals = .fresh := by
  refine hp.resolve_right ?_
  have hclear : p.globals.installed = false := hnew
  simp [hclear]

/-- What an install that returned leaves of the service and the process collector. -/
theorem identity_of_returned (hp : p.Follows) (hnew : i.IsNew p)
    (hreturned : (i.result p).2.2 = false) :
    (i.result p).1.proc.service = some (trim i.service) ∧
      (i.result p).1.proc.process.reporting = some i.service := by
  cases i with
  | express env o fault layers later router =>
    have hid := @Node.identity_of_returned _ _ _ Express.adapter env o fault p.proc (.hosted layers)
      rfl hreturned
    exact ⟨congrArg Identity.service hid, congrArg Identity.collector hid⟩
  | hono env o fault basePath handlers later router =>
    have hid := @Node.identity_of_returned _ _ _ Hono.adapter env o fault p.proc
      (.hosted basePath handlers) rfl hreturned
    exact ⟨congrArg Identity.service hid, congrArg Identity.collector hid⟩
  | next env o n fault =>
    have hfresh := globals_of_isNew hp hnew
    -- Options that are not accepted would have thrown.
    have haccepted : Next.Accepted o := by
      by_contra h
      simp [result, Next.installNext, h] at hreturned
    simp only [result, Next.installNext, if_pos haccepted, hfresh] at hreturned ⊢
    have hid := @Node.identity_of_returned _ _ _ (Next.adapter n) env o fault p.proc .fresh rfl
      hreturned
    exact ⟨congrArg Identity.service hid, congrArg Identity.collector hid⟩

/-- An install that returned keeps what holds of the globals. -/
theorem follows_of_returned (hp : p.Follows) (hnew : i.IsNew p)
    (hreturned : (i.result p).2.2 = false) : (i.result p).1.Follows := by
  cases i with
  | express | hono => exact hp
  | next env o n fault =>
    have hfresh := globals_of_isNew hp hnew
    refine Or.inr ?_
    simp only [result, hfresh] at hreturned ⊢
    exact congrArg Next.Globals.installed (Next.app_of_returned hreturned)

/-- An app whose install returned counts its requests under the service. -/
theorem service_of_counted (hp : p.Follows) (hnew : i.IsNew p)
    (hreturned : (i.result p).2.2 = false) (req : AppRequest) :
    ∀ w ∈ (i.result p).2.1.counted req, w.service = i.service := by
  cases i with
  | express env o fault layers later router =>
    cases req with
    | express req => exact Express.service_of_request hreturned router later req
    | hono | next =>
      intro w hw
      cases hw
  | hono env o fault basePath handlers later router =>
    cases req with
    | hono req => exact Hono.service_of_request hreturned router later req
    | express | next =>
      intro w hw
      cases hw
  | next env o n fault =>
    have hfresh := globals_of_isNew hp hnew
    cases req with
    | next s req =>
      simp only [result, hfresh] at hreturned ⊢
      exact Next.service_of_request hreturned (s, req)
    | express | hono =>
      intro w hw
      cases hw

end AppInstall

/-- The install is of a new app, under a trimmed service, and returns. -/
def AppInstall.Succeeds (i : AppInstall) (p : Process) : Prop :=
  i.IsNew p ∧ (i.result p).2.2 = false ∧ trim i.service = i.service

/-- The process collector reports under the process-wide service. -/
def Process.Reports (p : Process) : Prop := ∀ w ∈ p.collected, p.proc.service = some w.service

namespace AppInstall

variable {p : Process} {i : AppInstall}

/-- A successful install leaves the process with its service. -/
theorem getService_of_succeeds (hp : p.Follows) (h : i.Succeeds p) :
    (i.result p).1.proc.service = some i.service := by
  obtain ⟨hnew, hreturned, htrim⟩ := h
  rw [(identity_of_returned hp hnew hreturned).1, htrim]

/-- After a successful install, the process collector reports under its service. -/
theorem service_of_collected (hp : p.Follows) (h : i.Succeeds p) :
    ∀ w ∈ (i.result p).1.collected, w.service = i.service := by
  intro w hw
  have hservice := (mem_samplesOf.mp hw).2
  rw [(identity_of_returned hp h.1 h.2.1).2, Option.toFinset_some] at hservice
  exact Finset.mem_singleton.mp hservice

/-- A successful install leaves a process collector that reports under the process-wide service. -/
theorem reports_of_succeeds (hp : p.Follows) (h : i.Succeeds p) : (i.result p).1.Reports := by
  intro w hw
  rw [getService_of_succeeds hp h, service_of_collected hp h w hw]

end AppInstall

/-- The Node lane. Its metrics views write nothing of the contract themselves. -/
def lane : Lane where
  Proc := Process
  App := InstalledApp
  Install := AppInstall
  Request := AppRequest
  fresh := ⟨.fresh, .fresh⟩
  Inv p := p.Follows ∧ p.Reports
  Succeeds := AppInstall.Succeeds
  proc i p := (i.result p).1
  app i p := (i.result p).2.1
  service := AppInstall.service
  getService p := p.proc.service
  counted := InstalledApp.counted
  collected _ := Process.collected
  viewed _ := ∅
  spanKeeps := false
  inv_fresh := by
    refine ⟨Or.inl rfl, ?_⟩
    intro w hw
    cases hw
  getService_fresh := rfl
  inv_proc _ _ hp h :=
    ⟨AppInstall.follows_of_returned hp.1 h.1 h.2.1, AppInstall.reports_of_succeeds hp.1 h⟩
  getService_proc _ _ hp h := AppInstall.getService_of_succeeds hp.1 h
  counted_app _ _ hp h := AppInstall.service_of_counted hp.1 h.1 h.2.1
  viewed_app _ _ _ _ w hw := by cases hw
  collected_app _ _ hp h := AppInstall.service_of_collected hp.1 h
  collected_of_viewed _ _ hp _ := hp.2

end Node

/-! ## Both lanes -/

/-- In every run of installs that succeed under services that differ, with any activity between
them, every sample carries the service of the latest install exactly when every event is current: in
the Python lane, and in the Node lane. -/
theorem writes_latest_iff (multiproc : Bool) (es : List (Python.lane multiproc).Event)
    (fs : List Node.lane.Event)
    (hes : Lib.Along Lane.step Lane.Valid (Python.lane multiproc).start es)
    (hfs : Lib.Along Lane.step Lane.Valid Node.lane.start fs) :
    (Lib.Along Lane.step Lane.WritesLatest (Python.lane multiproc).start es ↔
        Lib.Along Lane.step Lane.Current (Python.lane multiproc).start es) ∧
      (Lib.Along Lane.step Lane.WritesLatest Node.lane.start fs ↔
        Lib.Along Lane.step Lane.Current Node.lane.start fs) :=
  ⟨Lane.writesLatest_along_iff hes, Lane.writesLatest_along_iff hfs⟩

/-- A FastAPI app without routes of a host. -/
def Python.appUnder (service : String) : AppInstall :=
  .fastapi singleProcess { portalOpts with service } none [] [] [] []
    ⟨fun _ _ => none, fun _ _ => none, fun _ => ⟨some (.int 404), none⟩⟩

/-- An Express app without layers of a host. -/
def Node.appUnder (service : String) : AppInstall :=
  .express ⟨"abc1234", "2026-08-05T00:00:00Z"⟩ ⟨service, "1.0", none, none⟩ none [] []
    ⟨fun _ _ => false, fun _ _ => none, fun req => ⟨some req.method, none, "", .number 404⟩⟩

/-- A queue that is started after the second install is polled. -/
theorem new_queue_writes_latest :
    Lib.Along Lane.step Lane.WritesLatest (Python.lane false).start
        [.install (Python.appUnder "foo"), .start .queue, .tracker 0 .tick,
          .install (Python.appUnder "bar"), .start .queue, .tracker 1 .tick] ∧
      Lib.Along Lane.step Lane.WritesLatest Node.lane.start
        [.install (Node.appUnder "foo"), .start .queue, .tracker 0 .tick,
          .install (Node.appUnder "bar"), .start .queue, .tracker 1 .tick] := by
  obtain ⟨hpython, hnode⟩ := writes_latest_iff false
    [.install (Python.appUnder "foo"), .start .queue, .tracker 0 .tick,
      .install (Python.appUnder "bar"), .start .queue, .tracker 1 .tick]
    [.install (Node.appUnder "foo"), .start .queue, .tracker 0 .tick,
      .install (Node.appUnder "bar"), .start .queue, .tracker 1 .tick]
    ⟨⟨⟨rfl, by decide⟩, by decide⟩, trivial, trivial, ⟨⟨rfl, by decide⟩, by decide⟩, trivial,
      trivial, trivial⟩
    ⟨⟨⟨trivial, rfl, by decide⟩, by decide⟩, trivial, trivial,
      ⟨⟨trivial, rfl, by decide⟩, by decide⟩, trivial, trivial, trivial⟩
  refine ⟨hpython.mpr ?_, hnode.mpr ?_⟩
  all_goals
    refine ⟨trivial, trivial, ?_, trivial, trivial, ?_, trivial⟩
    all_goals
      rintro _ ⟨⟩ -
      rfl

/-- A queue that is started before the second install is polled after it, and the first app serves a
request. -/
theorem old_tracker_keeps_service :
    (let es : List (Python.lane false).Event :=
      [.install (Python.appUnder "foo"), .start .queue, .install (Python.appUnder "bar")]
    let s := Lib.run Lane.step (Python.lane false).start es
    Lib.Along Lane.step Lane.Valid (Python.lane false).start es ∧ s.latest = some "bar" ∧
      ⟨.queueDepth, "foo"⟩ ∈ Lane.written s (.tracker 0 .tick) ∧
      ⟨.httpRequestsTotal, "foo"⟩ ∈ Lane.written s (.request 0 (.fastapi ⟨"GET", "/"⟩))) ∧
    let es : List Node.lane.Event :=
      [.install (Node.appUnder "foo"), .start .queue, .install (Node.appUnder "bar")]
    let s := Lib.run Lane.step Node.lane.start es
    Lib.Along Lane.step Lane.Valid Node.lane.start es ∧ s.latest = some "bar" ∧
      ⟨.queueDepth, "foo"⟩ ∈ Lane.written s (.tracker 0 .tick) ∧
      ⟨.httpRequestsTotal, "foo"⟩ ∈ Lane.written s (.request 0 (.express ⟨"GET", "/"⟩)) := by
  refine ⟨⟨?_, rfl, by decide, by decide⟩, ?_, rfl, by decide, by decide⟩
  · exact ⟨⟨⟨rfl, by decide⟩, by decide⟩, trivial, ⟨⟨rfl, by decide⟩, by decide⟩, trivial⟩
  · exact ⟨⟨⟨trivial, rfl, by decide⟩, by decide⟩, trivial, ⟨⟨trivial, rfl, by decide⟩, by decide⟩,
      trivial⟩

end SimsysMetrics
