import SimsysMetrics.Node.HonoRuns

/-!
# The effective paths of a Hono app

An install computes the path of its metrics endpoint in four places: `app.get` merges the metrics
path with the base path of the app, the exemption compares a request's path with a prefix of its
own, the exempt set holds the metrics path as it was given, and a request that no route handler
matched is recognised by the pattern `/*` or `*` of the middleware. Hono joins a base path and a
pattern with one slash.

They agree exactly on an app without a base path of its own, for a metrics path that starts with a
slash and that Hono matches against itself only, and for requests to other paths: the middleware
leaves out every request to the stored path, also one that the metrics route does not answer, such
as a `POST` (`pathsAgree_iff`).
-/

namespace SimsysMetrics.Node.Hono

/-- A path of a request, or a base path. -/
def Rooted (path : String) : Prop := path.toList.head? = some '/'

instance (path : String) : Decidable (Rooted path) := inferInstanceAs (Decidable (_ = _))

/-- A base path and a pattern with one slash between them. -/
def joined (base sub : String) : String :=
  String.ofList ((if base.toList.getLast? = some '/' then base.toList.dropLast else base.toList) ++
    '/' :: (if sub.toList.head? = some '/' then sub.toList.tail else sub.toList))

/-- What the adapter relies on in Hono: patterns are merged with the base path, with one slash at
the join, and the pattern `/*` matches every path. How the pattern `/` is merged with a base path
depends on the version. -/
structure Merges (router : Router) : Prop where
  join : ∀ base sub, Rooted base → (sub = "/" → base = "/") →
    router.mergePath base sub = joined base sub
  wildcard : ∀ path, Rooted path → router.covers "/*" path = true

/-- Hono serves the metrics handler at a request path. -/
def ServedAt (router : Router) (app : App) (path : String) : Prop :=
  Rooted path ∧ ∃ sub, .metricsRoute sub ∈ app.handlers ∧
    router.covers (router.mergePath app.basePath sub) path = true

/-- The places that compute the effective path agree, for a request to `path` that no route handler
matched, with what the middleware reads afterwards. -/
structure PathsAgree (router : Router) (app : App) (service path : String) (f : Finished) :
    Prop where
  /-- The metrics handler is served at the stored metrics path and nowhere else. -/
  stored : ∀ p, ServedAt router app p ↔ app.props.simsysMetricsPath = some p
  /-- Where it is served is exempt. -/
  exempt : ∀ p, ServedAt router app p →
    ∃ exempt, app.props.simsysExemptPaths = some exempt ∧ p ∈ exempt
  /-- The request reaches the middleware, and is recorded as unmatched. -/
  unmatched : router.covers (router.mergePath app.basePath "*") path = true ∧
    ∃ l, record app.props service path f = some l ∧ l.route = "__unmatched__"

/-- The metrics path is one that the places agree on: the app has no base path of its own, and the
metrics path starts with a slash and is matched by itself only. -/
def Plain (router : Router) (basePath : String) (metricsPath : String) : Prop :=
  basePath = "/" ∧ Rooted metricsPath ∧
    ∀ path, Rooted path → (router.covers metricsPath path = true ↔ path = metricsPath)

/-- Joining at the root leaves a pattern that starts with a slash. -/
theorem joined_root {sub : String} (h : Rooted sub) : joined "/" sub = sub := by
  obtain ⟨rest, hrest⟩ := List.head?_eq_some_iff.mp h
  have hroot : "/".toList = ['/'] := by decide
  unfold joined
  rw [hroot, hrest]
  simp only [List.getLast?_singleton, List.dropLast_singleton, List.head?_cons, List.tail_cons,
    if_true, List.nil_append]
  rw [← hrest, String.ofList_toList]

/-- A base path without its last slash, as joining leaves it. -/
def front (base : String) : List Char :=
  if base.toList.getLast? = some '/' then base.toList.dropLast else base.toList

/-- Joining keeps nothing of the root only. -/
theorem front_eq_nil_iff {base : String} (h : Rooted base) : front base = [] ↔ base = "/" := by
  obtain ⟨rest, hrest⟩ := List.head?_eq_some_iff.mp h
  constructor
  · intro hfront
    unfold front at hfront
    split_ifs at hfront with hlast
    · -- The slash that is dropped is the first character.
      rw [hrest] at hfront
      have hnone : rest = [] := by
        cases rest with
        | nil => rfl
        | cons c rest => cases hfront
      rw [← String.toList_inj, hrest, hnone]
      rfl
    · rw [hfront] at hrest
      cases hrest
  · rintro rfl
    decide

/-- The characters of a base path that is joined with the pattern of the middleware. -/
theorem toList_joined_star (base : String) :
    (joined base "*").toList = front base ++ ['/', '*'] := by
  have hstar : "*".toList = ['*'] := by decide
  rw [joined, String.toList_ofList, hstar]
  rfl

/-- Joining a base path with the pattern of the middleware gives `/*` at the root only, and never
one of the other patterns that count as unmatched. -/
theorem joined_star {base : String} (h : Rooted base) :
    (joined base "*" = "/*" ↔ base = "/") ∧ joined base "*" ≠ "" ∧ joined base "*" ≠ "*" ∧
      joined base "*" ≠ "__unmatched__" := by
  have hlist := toList_joined_star base
  have hlen : (joined base "*").toList.length = (front base).length + 2 := by
    rw [hlist, List.length_append]
    rfl
  have hlast : (joined base "*").toList.getLast? = some '*' := by
    rw [hlist, List.getLast?_append_of_ne_nil _ (by simp)]
    rfl
  have hwild : "/*".toList = ['/', '*'] := by decide
  refine ⟨?_, ?_, ?_, ?_⟩
  · rw [← front_eq_nil_iff h, ← String.toList_inj, hlist, hwild]
    exact List.append_left_eq_self
  · intro heq
    rw [heq] at hlast
    exact absurd hlast (by decide)
  · intro heq
    rw [heq] at hlen
    exact absurd hlen (by simp)
  · intro heq
    rw [heq] at hlast
    exact absurd hlast (by decide)

/-- The pattern of the middleware counts as unmatched at the root only. -/
theorem routeLabel_joined {base : String} (h : Rooted base) :
    routeLabel (joined base "*") = "__unmatched__" ↔ base = "/" := by
  obtain ⟨hroot, hempty, hstar, hunmatched⟩ := joined_star h
  unfold routeLabel
  rw [← hroot]
  split_ifs with hne
  · exact iff_of_false hunmatched hne.2.1
  · refine iff_of_true rfl ?_
    by_contra hnot
    exact hne ⟨hempty, hnot, hstar⟩

/-- The properties that an install sets. -/
theorem exempt_wired (app : App) (o : InstallOpts) :
    (app.wired o).props.simsysExemptPaths = some (buildExemptPaths (metricsPath o)) := by
  unfold App.wired App.arm App.getMetrics App.useRecorder
  split_ifs <;> rfl

section Agree

variable {router : Router} {app : App} {o : InstallOpts}

/-- After an attempt that returned, the app has the exempt set of its metrics path. -/
theorem exempt_of_returned {env : Env} {fault : Option (Fault WireFault)} {p : Proc}
    (hinert : Attempts.Inert app) (hreturned : (installHono env o fault p app).raised = false) :
    Attempts.Armed o app.basePath (installHono env o fault p app).app ∧
      (installHono env o fault p app).app.props.simsysExemptPaths =
        some (buildExemptPaths (metricsPath o)) := by
  constructor
  · rcases Attempts.attempt_inert hinert env o fault p with ⟨hraised, -⟩ | ⟨-, harmed⟩
    · rw [hreturned] at hraised
      cases hraised
    · exact harmed
  · have hwired := wired_install env o fault p hinert.sentinel
    generalize installHono env o fault p app = r at hwired hreturned ⊢
    cases hwired with
    | returned => exact exempt_wired app o
    | threw => cases hreturned
    | threwLate => cases hreturned

/-- Where the metrics handler of an armed app is served. -/
theorem servedAt_armed {basePath : String} (h : Attempts.Armed o basePath app) (path : String) :
    ServedAt router app path ↔ Rooted path ∧
      router.covers (router.mergePath basePath (metricsPath o)) path = true := by
  unfold ServedAt
  rw [h.base]
  refine and_congr_right_iff.mpr fun _ => ?_
  constructor
  · rintro ⟨sub, hsub, hcovers⟩
    rw [(h.route sub).mp hsub] at hcovers
    exact hcovers
  · intro hcovers
    exact ⟨metricsPath o, (h.route _).mpr rfl, hcovers⟩

/-- What the middleware of an armed app records for a request that no route handler matched. -/
theorem record_armed {basePath : String} (h : Attempts.Armed o basePath app) {path : String}
    (hpath : app.props.simsysMetricsPath ≠ some path) (service : String) (f : Finished) :
    record app.props service path f = some ⟨o.service, normalizeMethod f.method,
      routeLabel (f.routePath.getD ""), statusBucket (f.status.getD (.number 500))⟩ := by
  rw [h.path] at hpath
  unfold record
  rw [h.sentinel, h.path, h.service, if_neg (by decide), if_neg]
  · rfl
  · intro heq
    exact hpath (congrArg some heq.symm)

/-- A request that is recorded is to another path than the stored one. -/
theorem ne_stored_of_record {basePath : String} (h : Attempts.Armed o basePath app)
    {service path : String} {f : Finished} {l : HttpLabels String}
    (hrecord : record app.props service path f = some l) :
    app.props.simsysMetricsPath ≠ some path := by
  intro hstored
  unfold record at hrecord
  rw [h.sentinel, hstored, if_neg (by decide), if_pos (by rfl)] at hrecord
  cases hrecord

/-- At the root the stored path is the metrics path as it was given. -/
theorem stored_root (h : Attempts.Armed o "/" app) :
    app.props.simsysMetricsPath = some (metricsPath o) := by
  rw [h.path]
  rfl

/-- Where the metrics handler of an armed app at the root is served. -/
theorem servedAt_root (hrouter : Merges router) (h : Attempts.Armed o "/" app)
    (hmetrics : Rooted (metricsPath o)) (path : String) :
    ServedAt router app path ↔ Rooted path ∧ router.covers (metricsPath o) path = true := by
  rw [servedAt_armed h, hrouter.join _ _ (by decide) (fun _ => rfl), joined_root hmetrics]

/-- If the four places of an armed app agree for a request that no route handler matched, its base
path is the root, its metrics path is plain, and the request is to another path. -/
theorem plain_of_pathsAgree {basePath : String} (hrouter : Merges router) (hbase : Rooted basePath)
    (harmed : Attempts.Armed o basePath app) {service path : String} {f : Finished}
    (hreported : f.routePath = some (router.mergePath basePath "*"))
    (h : PathsAgree router app service path f) :
    Plain router basePath (metricsPath o) ∧ path ≠ metricsPath o := by
  have hstar : router.mergePath basePath "*" = joined basePath "*" :=
    hrouter.join _ _ hbase fun h => absurd h (by decide)
  -- The request tells the base path by its route.
  obtain ⟨-, l, hrecord, hroute⟩ := h.unmatched
  have hne := ne_stored_of_record harmed hrecord
  rw [record_armed harmed hne, hreported, Option.getD_some, hstar] at hrecord
  obtain rfl := Option.some.inj hrecord
  obtain rfl : basePath = "/" := (routeLabel_joined hbase).mp hroute
  have hmetrics : Rooted (metricsPath o) := ((h.stored _).mpr (stored_root harmed)).1
  refine ⟨⟨rfl, hmetrics, ?_⟩, ?_⟩
  · intro p hp
    have hiff := h.stored p
    rw [servedAt_root hrouter harmed hmetrics, stored_root harmed, Option.some_inj,
      and_iff_right hp] at hiff
    exact hiff.trans eq_comm
  · rintro rfl
    exact hne (stored_root harmed)

/-- At the root the four places of an armed app agree on a plain metrics path, for a request to
another path. -/
theorem pathsAgree_of_plain (hrouter : Merges router) (harmed : Attempts.Armed o "/" app)
    (hexempt : app.props.simsysExemptPaths = some (buildExemptPaths (metricsPath o)))
    (hplain : Plain router "/" (metricsPath o)) {path : String} {f : Finished}
    (hpath : Rooted path) (hreported : f.routePath = some (router.mergePath "/" "*"))
    (hother : path ≠ metricsPath o) (service : String) :
    PathsAgree router app service path f := by
  obtain ⟨-, hmetrics, hitself⟩ := hplain
  -- The handler answers at the metrics path alone, as its pattern matches nothing else.
  have hat : ∀ p, ServedAt router app p ↔ p = metricsPath o := by
    intro p
    rw [servedAt_root hrouter harmed hmetrics]
    constructor
    · rintro ⟨hp, hcovers⟩
      exact (hitself p hp).mp hcovers
    · rintro rfl
      exact ⟨hmetrics, (hitself _ hmetrics).mpr rfl⟩
  constructor
  · intro p
    rw [hat, stored_root harmed, Option.some_inj]
    exact eq_comm
  · intro p hp
    refine ⟨_, hexempt, ?_⟩
    rw [(hat p).mp hp]
    exact Finset.mem_insert_self _ _
  · have hne : app.props.simsysMetricsPath ≠ some path := by
      rw [stored_root harmed]
      exact fun heq => hother (Option.some.inj heq).symm
    -- At the root the merged pattern of the middleware is one that the wildcard test knows.
    have hwild : router.mergePath "/" "*" = "/*" := by
      rw [hrouter.join _ _ (by decide) fun h => absurd h (by decide)]
      decide
    rw [hwild] at hreported
    rw [harmed.base, hwild]
    refine ⟨hrouter.wildcard path hpath, _, record_armed harmed hne service f, ?_⟩
    show routeLabel (f.routePath.getD "") = "__unmatched__"
    rw [hreported]
    decide

/-- After an attempt that returned, and for a request that no route handler matched, for which Hono
reports the merged pattern of the middleware: the four places agree exactly for a plain metrics path
on an app without a base path, and a request to another path. -/
theorem pathsAgree_iff {env : Env} {fault : Option (Fault WireFault)} {p : Proc}
    (hrouter : Merges router) (hbase : Rooted app.basePath) (hinert : Attempts.Inert app)
    (hreturned : (installHono env o fault p app).raised = false) {service path : String}
    {f : Finished} (hpath : Rooted path)
    (hunmatched : f.routePath = some (router.mergePath app.basePath "*")) :
    PathsAgree router (installHono env o fault p app).app service path f ↔
      Plain router app.basePath (metricsPath o) ∧ path ≠ metricsPath o := by
  obtain ⟨harmed, hexempt⟩ := exempt_of_returned hinert hreturned
  constructor
  · exact plain_of_pathsAgree hrouter hbase harmed hunmatched
  · rintro ⟨hplain, hother⟩
    rw [hplain.1] at harmed hunmatched
    rw [hplain.1] at hplain
    exact pathsAgree_of_plain hrouter harmed hexempt hplain hpath hunmatched hother service

end Agree

/-- A router for patterns that are paths, with an asterisk at the end for any rest. -/
def literalRouter : Router where
  mergePath := joined
  covers pattern path :=
    if pattern.toList.getLast? = some '*' then pattern.toList.dropLast.isPrefixOf path.toList
    else pattern = path
  answers _ _ := none
  notFound req := ⟨some req.method, none, some (.number 404)⟩

/-- Options without a metrics path of their own. -/
def defaultOpts : InstallOpts := ⟨"portal", "1.0", some "abc", none⟩

/-- Under the base path `/api` the metrics handler is served at a path that is not exempt, and an
unmatched request is recorded with the pattern of the middleware. Without a base path, a `POST` to
the metrics path, which no route handler matches, is not recorded. -/
theorem basePath_not_exempt :
    (∀ service path f, ¬ PathsAgree literalRouter
      (installHono ⟨"abc", "now"⟩ defaultOpts none .fresh (.hosted "/api" [])).app
      service path f) ∧
    record (installHono ⟨"abc", "now"⟩ defaultOpts none .fresh (.hosted "/api" [])).app.props
      "portal" "/api/nope" ⟨some "GET", some "/api/*", some (.number 404)⟩ =
        some ⟨"portal", .GET, "/api/*", .c4xx⟩ ∧
    record (installHono ⟨"abc", "now"⟩ defaultOpts none .fresh (.hosted "/" [])).app.props
      "portal" "/metrics" ⟨some "POST", some "/*", some (.number 404)⟩ = none := by
  refine ⟨?_, by decide +kernel, by decide +kernel⟩
  intro service path f h
  obtain ⟨exempt, hset, hmem⟩ := h.exempt "/api/metrics"
    ⟨by decide, "/metrics", by decide +kernel, by decide +kernel⟩
  have hexempt : (installHono ⟨"abc", "now"⟩ defaultOpts none .fresh
      (.hosted "/api" [])).app.props.simsysExemptPaths = some (buildExemptPaths "/metrics") := by
    decide +kernel
  rw [hexempt] at hset
  obtain rfl := Option.some.inj hset
  revert hmem
  decide

/-- The patterns of a literal router are merged with the base path, and `/*` matches every path. -/
theorem merges_literalRouter : Merges literalRouter := by
  refine ⟨fun _ _ _ _ => rfl, ?_⟩
  intro path hpath
  obtain ⟨rest, hrest⟩ := List.head?_eq_some_iff.mp hpath
  have hpattern : "/*".toList = ['/', '*'] := by decide
  simp [literalRouter, hrest, hpattern]

/-- The default metrics path is plain. -/
theorem plain_defaultOpts : Plain literalRouter "/" (metricsPath defaultOpts) := by
  refine ⟨rfl, by decide, ?_⟩
  intro path _
  have hpattern : ¬ (metricsPath defaultOpts).toList.getLast? = some '*' := by decide
  unfold literalRouter
  dsimp only
  rw [if_neg hpattern, decide_eq_true_iff]
  exact eq_comm

/-- Without a base path they agree on the default metrics path, for an unmatched request to another
path. -/
theorem pathsAgree_iff_default :
    PathsAgree literalRouter
      (installHono ⟨"abc", "now"⟩ defaultOpts none .fresh (.hosted "/" [])).app "portal" "/nope"
      ⟨some "GET", some "/*", some (.number 404)⟩ := by
  refine (@pathsAgree_iff literalRouter (.hosted "/" []) defaultOpts ⟨"abc", "now"⟩ none .fresh
    merges_literalRouter (by decide) ⟨shaped_hosted "/" [], rfl, by simp [App.hosted]⟩
    (by decide +kernel) "portal" "/nope" ⟨some "GET", some "/*", some (.number 404)⟩ (by decide)
    (by decide +kernel)).mpr ⟨plain_defaultOpts, by decide⟩

end SimsysMetrics.Node.Hono
