import Mathlib.Data.Finset.Card
import Mathlib.Data.Finset.Prod
import Mathlib.Data.Fintype.Card
import SimsysMetrics.Node.Install
import SimsysMetrics.Node.NextRoutes

/-!
# The Next.js adapter

`installNext` of `node/src/adapters/next.ts`. It patches `http.Server.prototype.emit`, and the
patch counts a request when its response first emits `finish` or `close`. A request that finished
with 404 is counted under `/__unmatched__` and touches nothing; any other is bucketed and capped.

Over every run of finished requests, from an empty set of routes, there are at most two more labels
than the cap, a route that passed the cap once passes from then on, requests with 404 do not change
the label of another, and each request is counted under one label tuple (`routeDiscipline`).
-/

namespace SimsysMetrics.Node.Next

open Lib (JsString js)

/-- The variables that a patch of `emit` closes over. -/
structure Patch where
  service : String
  metricsPath : JsString
  routeTemplates : List RouteTemplate
  maxRoutes : ℕ

/-- A value of `http.Server.prototype.emit`: the built-in, or a patch over the one that it calls. -/
inductive Emit where
  | builtin
  | patched (patch : Patch) (origEmit : Emit)

/-- What an install reads and changes of the global object and of `http.Server`. -/
structure Globals where
  /-- `globalThis.__simsysNextInstalled`. -/
  installed : Bool
  /-- `globalThis.__simsysNextOrigEmit`. -/
  origEmit : Option Emit
  /-- `http.Server.prototype.emit`. -/
  emit : Emit

/-- The globals of a fresh process. -/
def Globals.fresh : Globals := ⟨false, none, .builtin⟩

/-- Where the wiring may throw. -/
inductive WireFault where
  /-- Before or in the assignment of `emit`. -/
  | patch
  /-- In the assignment of the sentinel. -/
  | sentinel
  /-- In the assignment of the original `emit`. -/
  | origEmit
deriving DecidableEq, Repr

/-- The options of `installNext` that are its own. -/
structure NextOpts where
  routeTemplates : List RouteTemplate
  maxRoutes : Option ℕ

/-- The patch of an install. -/
def patchOf (o : InstallOpts) (n : NextOpts) : Patch :=
  ⟨o.service, js (o.metricsPath.getD "/api/metrics"), n.routeTemplates, n.maxRoutes.getD 300⟩

/-- What `installNext` does to the globals. The original `emit` is the one that the first install
saved, if there was one. -/
def adapter (n : NextOpts) : Adapter Globals WireFault where
  installed g := g.installed
  wire o fault g :=
    let origEmit := g.origEmit.getD g.emit
    let patched := { g with emit := .patched (patchOf o n) origEmit }
    let armed := { patched with installed := true }
    match fault with
    | some .patch => (g, true)
    -- The `catch` block gives `emit` its original back.
    | some .sentinel => ({ patched with emit := origEmit }, true)
    | some .origEmit => ({ armed with emit := origEmit }, true)
    | none => ({ armed with origEmit := some origEmit }, false)
  unwire g := g
  returns _ _ := rfl

/-- The options pass the checks before the `try` block. -/
def Accepted (o : InstallOpts) : Prop := o.service ≠ "" ∧ o.version ≠ ""

instance (o : InstallOpts) : Decidable (Accepted o) :=
  inferInstanceAs (Decidable (_ ∧ _))

/-- `installNext`. -/
def installNext (env : Env) (o : InstallOpts) (n : NextOpts) (fault : Option (Fault WireFault))
    (p : Proc) (g : Globals) : Installed Globals :=
  if Accepted o then installOn (adapter n) env o fault p g else ⟨p, g, true⟩

/-! ## A finished request -/

/-- What `finalize` reads of a request and its response. -/
structure Finished where
  url : JsString
  method : Option String
  statusCode : StatusCode
deriving DecidableEq

/-- The path without the query, as the patch compares it with the metrics path. -/
def pathOnly (url : JsString) : JsString := url.takeWhile (· ≠ 63)

/-- The bucketed route of a request in a state. -/
def bucketOf (patch : Patch) (s : NextState) (f : Finished) : JsString :=
  (bucketRoute patch.routeTemplates s.lastIndex f.url).1

/-- The route label of a request, and the state afterwards. -/
def routeOf (patch : Patch) (s : NextState) (f : Finished) : JsString × NextState :=
  if f.statusCode = .number 404 then (unmatchedRoute, s)
  else
    let (bucket, lastIndex) := bucketRoute patch.routeTemplates s.lastIndex f.url
    let (route, seen) := capRoute bucket patch.maxRoutes s.seen
    (route, ⟨lastIndex, seen⟩)

/-- `finalize`: the labels that it counts, and the state afterwards. -/
def finalize (patch : Patch) (s : NextState) (f : Finished) : HttpLabels JsString × NextState :=
  let (route, s') := routeOf patch s f
  (⟨patch.service, normalizeMethod f.method, route, statusBucket f.statusCode⟩, s')

/-- The events of a response that `finalize` listens to. -/
inductive ResponseEvent where
  | finish
  | close
deriving DecidableEq, Repr

/-- The events of a response, from whether `finalize` listens: it runs on the first, and then stops
listening to both. -/
def respond (patch : Patch) (f : Finished) :
    Bool → NextState → List ResponseEvent → List (HttpLabels JsString) × NextState
  | _, s, [] => ([], s)
  | false, s, _ :: events => respond patch f false s events
  | true, s, _ :: events =>
    let (labels, s') := finalize patch s f
    let (rest, s'') := respond patch f false s' events
    (labels :: rest, s'')

/-- A request with what its response emits. -/
structure Request where
  finished : Finished
  events : List ResponseEvent
deriving DecidableEq

/-- The patch on a request: what is counted, and the state afterwards. -/
def handle (patch : Patch) (s : NextState) (r : Request) :
    List (HttpLabels JsString) × NextState :=
  if pathOnly r.finished.url = patch.metricsPath then ([], s)
  else respond patch r.finished true s r.events

/-- A request at a value of `emit`: a patch counts it, and calls the one beneath. -/
def Emit.counted (s : NextState) (r : Request) : Emit → List (HttpLabels JsString)
  | .builtin => []
  | .patched patch origEmit =>
    let (labels, s') := handle patch s r
    labels ++ origEmit.counted s' r

/-- A first install that returns leaves its patch over the built-in `emit`, which it has saved, and
its sentinel. -/
theorem app_of_returned {env : Env} {o : InstallOpts} {n : NextOpts}
    {fault : Option (Fault WireFault)} {p : Proc}
    (h : (installNext env o n fault p .fresh).raised = false) :
    (installNext env o n fault p .fresh).app =
      ⟨true, some .builtin, .patched (patchOf o n) .builtin⟩ := by
  unfold installNext at h ⊢
  split_ifs at h ⊢ with haccepted
  obtain ⟨process, state, q, wired, -, -, hwire, hinstall⟩ := steps_of_returned rfl h
  rw [hinstall]
  -- Only the wiring without a fault returns.
  rcases hplace : Fault.wire? fault with _ | (_ | _ | _)
  · rw [hplace] at hwire
    obtain ⟨rfl, -⟩ := Prod.mk.inj hwire
    rfl
  all_goals
    rw [hplace] at hwire
    cases hwire

/-- What is counted carries the service of the patch. -/
theorem service_of_handle (patch : Patch) (s : NextState) (r : Request) :
    ∀ l ∈ (handle patch s r).1, l.service = patch.service := by
  have hrespond : ∀ (events : List ResponseEvent) (listening : Bool) (s : NextState),
      ∀ l ∈ (respond patch r.finished listening s events).1, l.service = patch.service := by
    intro events
    induction events with
    | nil =>
      intro listening s l hl
      cases hl
    | cons event events ih =>
      intro listening s l hl
      cases listening with
      | false => exact ih false s l hl
      | true =>
        rcases List.mem_cons.mp hl with rfl | hl
        · rfl
        · exact ih false _ l hl
  unfold handle
  split_ifs
  · intro l hl
    cases hl
  · exact hrespond r.events true s

/-! ## Runs of finished requests -/

/-- A finished request outside the metrics path: its response emitted an event. -/
structure Counted (patch : Patch) where
  request : Request
  outside : pathOnly request.finished.url ≠ patch.metricsPath
  finished : request.events ≠ []

/-- Whether a request finished with another status than 404. -/
def Counted.matched {patch : Patch} (c : Counted patch) : Bool :=
  c.request.finished.statusCode ≠ .number 404

section Runs

variable {patch : Patch}

/-- The state after the requests. -/
def after (s : NextState) (cs : List (Counted patch)) : NextState :=
  Lib.run (fun s c => (handle patch s c.request).2) s cs

/-- What is counted for each of the requests. -/
def counted (s : NextState) : List (Counted patch) → List (List (HttpLabels JsString))
  | [] => []
  | c :: cs => (handle patch s c.request).1 :: counted (handle patch s c.request).2 cs

/-- After its first event a response counts nothing. -/
theorem respond_silent (f : Finished) (s : NextState) (events : List ResponseEvent) :
    respond patch f false s events = ([], s) := by
  induction events with
  | nil => rfl
  | cons _ events ih => exact ih

/-- A finished request is counted once, as `finalize` does. -/
theorem handle_counted (s : NextState) (c : Counted patch) :
    handle patch s c.request =
      ([(finalize patch s c.request.finished).1], (finalize patch s c.request.finished).2) := by
  obtain ⟨⟨f, events⟩, houtside, hfinished⟩ := c
  obtain _ | ⟨event, events⟩ := events
  · exact absurd rfl hfinished
  · unfold handle
    rw [if_neg houtside]
    simp [respond, respond_silent]

/-- The state that a request leaves: a 404 leaves it alone. -/
theorem handle_unmatched (s : NextState) {c : Counted patch} (h : c.matched = false) :
    handle patch s c.request = ([⟨patch.service, normalizeMethod c.request.finished.method,
      unmatchedRoute, statusBucket c.request.finished.statusCode⟩], s) := by
  have hstatus : c.request.finished.statusCode = .number 404 := by
    simpa [Counted.matched] using h
  rw [handle_counted]
  simp [finalize, routeOf, hstatus]

/-- The label of a request that is not a 404, and the state that it leaves. -/
theorem routeOf_matched (s : NextState) {f : Finished} (h : f.statusCode ≠ .number 404) :
    routeOf patch s f =
      ((Lib.capped patch.maxRoutes overflowRoute s.seen (bucketOf patch s f)).1,
        ⟨(bucketRoute patch.routeTemplates s.lastIndex f.url).2,
          (Lib.capped patch.maxRoutes overflowRoute s.seen (bucketOf patch s f)).2⟩) := by
  unfold routeOf
  rw [if_neg h]
  rfl

/-- The route label of a request is one of the two sentinels, or a route seen afterwards. -/
theorem routeOf_mem (s : NextState) (f : Finished) :
    (routeOf patch s f).1 = unmatchedRoute ∨ (routeOf patch s f).1 = overflowRoute ∨
      (routeOf patch s f).1 ∈ (routeOf patch s f).2.seen := by
  by_cases h : f.statusCode = .number 404
  · left
    simp [routeOf, h]
  · right
    rw [routeOf_matched s h]
    rcases Lib.capped_fst patch.maxRoutes overflowRoute s.seen (bucketOf patch s f)
      with hover | ⟨hself, hmem⟩
    · exact Or.inl hover
    · right
      dsimp only
      rw [hself]
      exact hmem

/-- No seen route is forgotten. -/
theorem seen_subset_routeOf (s : NextState) (f : Finished) :
    s.seen ⊆ (routeOf patch s f).2.seen := by
  by_cases h : f.statusCode = .number 404
  · simp [routeOf, h]
  · rw [routeOf_matched s h]
    exact Lib.seen_subset_capped _ _ _ _

/-- The cap bounds the routes seen. -/
theorem length_routeOf_le {s : NextState} (hs : s.seen.length ≤ patch.maxRoutes) (f : Finished) :
    (routeOf patch s f).2.seen.length ≤ patch.maxRoutes := by
  by_cases h : f.statusCode = .number 404
  · simpa [routeOf, h] using hs
  · rw [routeOf_matched s h]
    exact Lib.length_capped_le hs _ _

/-- The state after a request is the one that `routeOf` leaves. -/
theorem handle_state (s : NextState) (c : Counted patch) :
    (handle patch s c.request).2 = (routeOf patch s c.request.finished).2 := by
  rw [handle_counted]
  rfl

/-- A run forgets no seen route. -/
theorem seen_subset_after (s : NextState) (cs : List (Counted patch)) :
    s.seen ⊆ (after s cs).seen := by
  have hstep : ∀ (t : NextState) (c : Counted patch), s.seen ⊆ t.seen →
      s.seen ⊆ (handle patch t c.request).2.seen := by
    intro t c ht
    rw [handle_state]
    exact List.Subset.trans ht (seen_subset_routeOf t c.request.finished)
  exact @Lib.invariant_run _ _ _ (fun t => s.seen ⊆ t.seen) hstep s (List.Subset.refl _) cs

/-- A run keeps the bound of the routes seen. -/
theorem length_after_le {s : NextState} (hs : s.seen.length ≤ patch.maxRoutes)
    (cs : List (Counted patch)) : (after s cs).seen.length ≤ patch.maxRoutes := by
  have hstep : ∀ (t : NextState) (c : Counted patch), t.seen.length ≤ patch.maxRoutes →
      (handle patch t c.request).2.seen.length ≤ patch.maxRoutes := by
    intro t c ht
    rw [handle_state]
    exact length_routeOf_le ht c.request.finished
  exact @Lib.invariant_run _ _ _ (fun t => t.seen.length ≤ patch.maxRoutes) hstep s hs cs

/-- Every route label of a run is one of the two sentinels, or a route seen after the run. -/
theorem route_mem_after {s : NextState} {cs : List (Counted patch)} {l : HttpLabels JsString}
    (h : l ∈ (counted s cs).flatten) :
    l.route = unmatchedRoute ∨ l.route = overflowRoute ∨ l.route ∈ (after s cs).seen := by
  induction cs generalizing s with
  | nil => cases h
  | cons c cs ih =>
    rw [counted, List.flatten_cons, List.mem_append] at h
    -- A route that the first request left among the seen ones stays there.
    rcases h with h | h
    · rw [handle_counted, List.mem_singleton] at h
      rw [h]
      rcases routeOf_mem s c.request.finished with hun | hover | hseen
      · exact Or.inl hun
      · exact Or.inr (Or.inl hover)
      · refine Or.inr (Or.inr (seen_subset_after (handle patch s c.request).2 cs ?_))
        rw [handle_state]
        exact hseen
    · exact ih h

/-- There are at most two more route labels than the cap. -/
theorem card_routes_le {s : NextState} (hs : s.seen.length ≤ patch.maxRoutes)
    (cs : List (Counted patch)) :
    ((counted s cs).flatten.map (·.route)).toFinset.card ≤ patch.maxRoutes + 2 := by
  have hsub : ((counted s cs).flatten.map (·.route)).toFinset ⊆
      insert unmatchedRoute (insert overflowRoute (after s cs).seen.toFinset) := by
    intro route hroute
    obtain ⟨l, hl, rfl⟩ := List.mem_map.mp (List.mem_toFinset.mp hroute)
    simpa using route_mem_after hl
  calc ((counted s cs).flatten.map (·.route)).toFinset.card
      ≤ (insert unmatchedRoute (insert overflowRoute (after s cs).seen.toFinset)).card :=
        Finset.card_le_card hsub
    _ ≤ (after s cs).seen.toFinset.card + 1 + 1 :=
        (Finset.card_insert_le _ _).trans (Nat.succ_le_succ (Finset.card_insert_le _ _))
    _ ≤ patch.maxRoutes + 2 := by
        have hlen := (List.toFinset_card_le (after s cs).seen).trans (length_after_le hs cs)
        omega

/-- There are at most fifty times as many label tuples as route labels. -/
theorem card_tuples_le (ls : List (HttpLabels JsString)) :
    (ls.map fun l => (l.method, l.route, l.status)).toFinset.card ≤
      50 * (ls.map (·.route)).toFinset.card := by
  have hsub : (ls.map fun l => (l.method, l.route, l.status)).toFinset ⊆
      (Finset.univ : Finset Method) ×ˢ (ls.map (·.route)).toFinset ×ˢ
        (Finset.univ : Finset StatusClass) := by
    intro t ht
    obtain ⟨l, hl, rfl⟩ := List.mem_map.mp (List.mem_toFinset.mp ht)
    simp only [Finset.mem_product, Finset.mem_univ, List.mem_toFinset, true_and, and_true]
    exact List.mem_map_of_mem hl
  calc (ls.map fun l => (l.method, l.route, l.status)).toFinset.card
      ≤ _ := Finset.card_le_card hsub
    _ = 10 * ((ls.map (·.route)).toFinset.card * 5) := by
        rw [Finset.card_product, Finset.card_product]
        rfl
    _ = 50 * (ls.map (·.route)).toFinset.card := by omega

/-- A route that passes the cap as itself passes from then on. -/
theorem capped_stable {cap : ℕ} {seen seen' : List JsString} {bucket : JsString}
    (h : (Lib.capped cap overflowRoute seen bucket).1 = bucket)
    (hsub : (Lib.capped cap overflowRoute seen bucket).2 ⊆ seen') :
    (Lib.capped cap overflowRoute seen' bucket).1 = bucket := by
  by_cases hover : bucket = overflowRoute
  · -- Passing and overflowing are the same.
    rcases Lib.capped_fst cap overflowRoute seen' bucket with ho | ⟨hself, -⟩
    · exact ho.trans hover.symm
    · exact hself
  · have hmem := Lib.mem_of_capped_fst h hover
    rw [Lib.capped_of_mem (hsub hmem)]

/-- Once a request that is no 404 is recorded under its own bucketed route, every later one with
that bucketed route is recorded under it. -/
theorem route_stable {s : NextState} {mid : List (Counted patch)} {c c' : Counted patch}
    (hc : c.matched = true) (hc' : c'.matched = true)
    (hown : (finalize patch s c.request.finished).1.route = bucketOf patch s c.request.finished)
    (hbucket : bucketOf patch (after s (c :: mid)) c'.request.finished =
      bucketOf patch s c.request.finished) :
    (finalize patch (after s (c :: mid)) c'.request.finished).1.route =
      bucketOf patch s c.request.finished := by
  have hstatus : c.request.finished.statusCode ≠ .number 404 := by
    simpa [Counted.matched] using hc
  have hstatus' : c'.request.finished.statusCode ≠ .number 404 := by
    simpa [Counted.matched] using hc'
  -- The route was seen when it passed, and no request forgets a seen route.
  have hseen : (routeOf patch s c.request.finished).2.seen ⊆ (after s (c :: mid)).seen := by
    rw [← handle_state]
    exact seen_subset_after (handle patch s c.request).2 mid
  have hpass : (routeOf patch s c.request.finished).1 = bucketOf patch s c.request.finished := hown
  rw [routeOf_matched s hstatus] at hseen hpass
  show (routeOf patch (after s (c :: mid)) c'.request.finished).1 = _
  rw [routeOf_matched _ hstatus', hbucket]
  exact capped_stable hpass hseen

/-- Without the requests that finished with 404, the other requests are counted as with them. -/
theorem counted_filter (s : NextState) (cs : List (Counted patch)) :
    (cs.zip (counted s cs)).filter (·.1.matched) =
      (cs.filter (·.matched)).zip (counted s (cs.filter (·.matched))) := by
  induction cs generalizing s with
  | nil => rfl
  | cons c cs ih =>
    rw [counted, List.zip_cons_cons]
    by_cases hc : c.matched
    · rw [List.filter_cons_of_pos (by simpa using hc), List.filter_cons_of_pos (by simpa using hc),
        ih, counted, List.zip_cons_cons]
    · -- A 404 leaves the state, so the others are counted as without it.
      have hstate : (handle patch s c.request).2 = s := by
        rw [handle_unmatched s (by simpa using hc)]
      rw [List.filter_cons_of_neg (by simpa using hc), List.filter_cons_of_neg (by simpa using hc),
        hstate, ih]

/-- Each finished request is counted under one label tuple. -/
theorem length_counted {s : NextState} {cs : List (Counted patch)}
    {ls : List (HttpLabels JsString)} (h : ls ∈ counted s cs) : ls.length = 1 := by
  induction cs generalizing s with
  | nil => cases h
  | cons c cs ih =>
    rw [counted, List.mem_cons] at h
    rcases h with rfl | h
    · rw [handle_counted]
      rfl
    · exact ih h

end Runs

/-- What the route labels of a process keep to, over every run of finished requests from an empty
set of routes. -/
structure RouteDiscipline (patch : Patch) (lastIndex : ℕ → ℕ) : Prop where
  /-- There are at most two more route labels than the cap. -/
  routes : ∀ cs : List (Counted patch),
    ((counted (.fresh lastIndex) cs).flatten.map (·.route)).toFinset.card ≤ patch.maxRoutes + 2
  /-- There are at most fifty times as many tuples of a method, a route and a status. -/
  tuples : ∀ cs : List (Counted patch),
    ((counted (.fresh lastIndex) cs).flatten.map
      fun l => (l.method, l.route, l.status)).toFinset.card ≤ 50 * (patch.maxRoutes + 2)
  /-- Once a request that is no 404 is recorded under its own bucketed route, every later one with
  that bucketed route is recorded under it, and not under the overflow label, unless that label is
  the bucketed route itself. -/
  stable : ∀ (pre mid : List (Counted patch)) (c c' : Counted patch),
    let s := after (.fresh lastIndex) pre
    let s' := after s (c :: mid)
    let bucket := bucketOf patch s c.request.finished
    c.matched = true → c'.matched = true →
    (finalize patch s c.request.finished).1.route = bucket →
    bucketOf patch s' c'.request.finished = bucket →
    (finalize patch s' c'.request.finished).1.route = bucket ∧
      (bucket ≠ overflowRoute →
        (finalize patch s' c'.request.finished).1.route ≠ overflowRoute)
  /-- The requests that finished with 404 change the label of no other. -/
  unmatched : ∀ cs : List (Counted patch),
    (cs.zip (counted (.fresh lastIndex) cs)).filter (·.1.matched) =
      (cs.filter (·.matched)).zip (counted (.fresh lastIndex) (cs.filter (·.matched)))
  /-- Each request is counted under one label tuple. -/
  once : ∀ cs : List (Counted patch), (counted (.fresh lastIndex) cs).length = cs.length ∧
    ∀ ls ∈ counted (.fresh lastIndex) cs, ls.length = 1

/-- The requests of a run are counted one by one. -/
theorem length_counted_run {patch : Patch} (s : NextState) (cs : List (Counted patch)) :
    (counted s cs).length = cs.length := by
  induction cs generalizing s with
  | nil => rfl
  | cons c cs ih => rw [counted, List.length_cons, List.length_cons, ih]

/-- The route labels of every installed patch keep to the discipline. -/
theorem routeDiscipline (patch : Patch) (lastIndex : ℕ → ℕ) : RouteDiscipline patch lastIndex := by
  have hempty : (NextState.fresh lastIndex).seen.length ≤ patch.maxRoutes := Nat.zero_le _
  constructor
  · exact card_routes_le hempty
  · intro cs
    calc _ ≤ 50 * ((counted (.fresh lastIndex) cs).flatten.map (·.route)).toFinset.card :=
          card_tuples_le _
      _ ≤ 50 * (patch.maxRoutes + 2) := Nat.mul_le_mul_left 50 (card_routes_le hempty cs)
  · intro pre mid c c' s s' bucket hc hc' hown hbucket
    have hroute := route_stable hc hc' hown hbucket
    refine ⟨hroute, ?_⟩
    rw [hroute]
    exact id
  · exact counted_filter _
  · intro cs
    exact ⟨length_counted_run _ cs, fun ls hls => length_counted hls⟩

/-- A template whose pattern matches every path and whose label is the overflow label. -/
def overflowTemplate : RouteTemplate := ⟨⟨0, fun s _ => some s.length, false, false⟩, overflowRoute⟩

/-- The patch of an install with that template. -/
def overflowPatch : Patch :=
  patchOf ⟨"portal", "1.0", none, none⟩ ⟨[overflowTemplate], none⟩

/-- A request for `/x` that finishes with 200. -/
def okRequest : Counted overflowPatch where
  request := ⟨⟨js "/x", some "GET", .number 200⟩, [.finish, .close]⟩
  outside := by decide +kernel
  finished := List.cons_ne_nil _ _

/-- A bucketed route may be the overflow label itself: the first request is recorded under its own
bucketed route, and the second, with the same one, under the overflow label. -/
theorem overflow_template_recorded :
    let s := NextState.fresh fun _ => 0
    let s' := after s [okRequest]
    okRequest.matched = true ∧
      (finalize overflowPatch s okRequest.request.finished).1.route =
        bucketOf overflowPatch s okRequest.request.finished ∧
      bucketOf overflowPatch s' okRequest.request.finished =
        bucketOf overflowPatch s okRequest.request.finished ∧
      (finalize overflowPatch s' okRequest.request.finished).1.route = overflowRoute := by
  refine ⟨?_, ?_, ?_, ?_⟩ <;> decide +kernel

end SimsysMetrics.Node.Next
