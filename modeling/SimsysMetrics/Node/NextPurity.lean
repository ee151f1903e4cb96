import SimsysMetrics.Lib.FirstMatch
import SimsysMetrics.Node.NextLabels

/-!
# `bucketRoute` over histories of requests

The patterns of the templates are `RegExp` objects that all requests share, and a global or sticky
one remembers its `lastIndex`. So the loop of `bucketRoute` over the templates is a chain of tests
that remember (`matchTemplates_eq`). The label of a URL does not depend on the requests before it,
whatever the templates' labels, exactly where every pattern accepts each path as it does at the
start, from every last index that the paths can leave in it (`bucketRoute_pure_iff`).
-/

namespace SimsysMetrics.Node.Next

open Lib (JsString js run)
open Lib.FirstMatch (Test first after repeated Forgetful Steady Coherent)

/-- The pattern as a test that remembers its last index. -/
def RegExp.asked (r : RegExp) : Test JsString ℕ where
  id := r.id
  ask i s := ((r.test (fun _ => i) s).1, (r.test (fun _ => i) s).2 r.id)

/-- Testing a pattern reads and changes the last index of its own object. -/
theorem RegExp.test_eq (r : RegExp) (lastIndex : ℕ → ℕ) (s : JsString) :
    r.test lastIndex s = ((r.asked.ask (lastIndex r.id) s).1,
      Function.update lastIndex r.id (r.asked.ask (lastIndex r.id) s).2) := by
  simp only [RegExp.asked, RegExp.test]
  split_ifs
  · simp
  · cases r.search s (lastIndex r.id) <;> simp
  · simp

/-- The templates as a chain of tests. -/
def chain (patterns : List RegExp) : List (Test JsString ℕ) := patterns.map RegExp.asked

/-- The loop over the templates is the chain of their patterns. -/
theorem matchTemplates_eq (templates : List RouteTemplate) (lastIndex : ℕ → ℕ) (path : JsString) :
    matchTemplates templates lastIndex path =
      ((first (chain (templates.map (·.pattern))) lastIndex path).1.bind
          fun k => templates[k]?.map (·.template),
        (first (chain (templates.map (·.pattern))) lastIndex path).2) := by
  induction templates generalizing lastIndex with
  | nil => rfl
  | cons t templates ih =>
    simp only [chain, List.map_cons] at ih ⊢
    rw [matchTemplates, RegExp.test_eq]
    have hid : t.pattern.asked.id = t.pattern.id := rfl
    cases hask : (t.pattern.asked.ask (lastIndex t.pattern.id) path).1 with
    | true =>
      rw [Lib.FirstMatch.first_of_accepts (by rw [hid, hask]), hid]
      rfl
    | false =>
      rw [Lib.FirstMatch.first_of_refuses (by rw [hid, hask]), hid]
      dsimp only
      rw [ih]
      generalize first _ _ path = r
      cases r.1 <;> simp

/-- The path of a URL that `bucketRoute` tests the templates against, if it comes to that. -/
def testedPath (url : JsString) : Option JsString :=
  if maxPathLength < url.length ∨ pathOf url = [] ∨ pathOf url = js "/" then none
  else some (pathOf url)

/-- The paths that the templates are tested against. -/
def testedPaths : Set JsString := {path | ∃ url, testedPath url = some path}

/-- A URL that is answered before the templates has one label, and tests nothing. -/
theorem bucketRoute_of_untested {url : JsString} (h : testedPath url = none) :
    ∃ label, ∀ templates lastIndex, bucketRoute templates lastIndex url = (label, lastIndex) := by
  unfold testedPath at h
  split_ifs at h with hcut
  unfold bucketRoute
  dsimp only
  rcases hcut with hlong | hroot
  · exact ⟨_, fun _ _ => if_pos hlong⟩
  · split_ifs with hlong hpath
    · exact ⟨_, fun _ _ => rfl⟩
    · exact ⟨_, fun _ _ => rfl⟩
    · exact absurd hroot hpath

/-- The label of any other URL is that of the first template whose pattern accepts its path, or the
default bucket. -/
theorem bucketRoute_of_tested {url path : JsString} (h : testedPath url = some path)
    (templates : List RouteTemplate) (lastIndex : ℕ → ℕ) :
    bucketRoute templates lastIndex url =
      (((first (chain (templates.map (·.pattern))) lastIndex path).1.bind
          fun k => templates[k]?.map (·.template)).getD (bucketSegments path),
        (first (chain (templates.map (·.pattern))) lastIndex path).2) := by
  unfold testedPath at h
  split_ifs at h with hcut
  obtain ⟨hlong, hpath⟩ := not_or.mp hcut
  obtain rfl := Option.some.inj h
  unfold bucketRoute
  dsimp only
  rw [if_neg hlong]
  unfold pathOf at hpath ⊢
  rw [if_neg hpath, matchTemplates_eq]
  generalize first _ _ _ = r
  cases (r.1.bind fun k => templates[k]?.map (·.template)) <;> rfl

/-- The last indices after some requests. -/
def served (templates : List RouteTemplate) (lastIndex : ℕ → ℕ) (urls : List JsString) : ℕ → ℕ :=
  run (fun lastIndex url => (bucketRoute templates lastIndex url).2) lastIndex urls

/-- The label of a URL is the same after any two histories of requests. -/
def PureFunction (templates : List RouteTemplate) (lastIndex : ℕ → ℕ) : Prop :=
  ∀ urls urls' url, (bucketRoute templates (served templates lastIndex urls) url).1 =
    (bucketRoute templates (served templates lastIndex urls') url).1

/-- Every pattern, from every last index that the tested paths can leave in its object, accepts each
path at the same one of its places in the list, or at none, as from the last index it starts with. A
path reaches those places of an object that are in front of the first other pattern that accepts it
at the start; an object that is listed once has one. -/
def IndexFree (patterns : List RegExp) (lastIndex : ℕ → ℕ) : Prop :=
  Steady lastIndex testedPaths (chain patterns)

/-- One object is one pattern. -/
def Objects (patterns : List RegExp) : Prop :=
  ∀ r ∈ patterns, ∀ r' ∈ patterns, r.id = r'.id → r = r'

section Pure

variable {patterns : List RegExp} {templates : List RouteTemplate} {lastIndex : ℕ → ℕ}

/-- The tests of a chain of objects have one cell each. -/
theorem Objects.coherent (h : Objects patterns) : Coherent (chain patterns) := by
  intro t ht u hu heq
  obtain ⟨r, hr, rfl⟩ := List.mem_map.mp ht
  obtain ⟨r', hr', rfl⟩ := List.mem_map.mp hu
  rw [h r hr r' hr' heq]

/-- The requests test the paths of their URLs. -/
theorem served_eq (urls : List JsString) : served templates lastIndex urls =
    after (chain (templates.map (·.pattern))) lastIndex (urls.filterMap testedPath) := by
  induction urls generalizing lastIndex with
  | nil => rfl
  | cons url urls ih =>
    show served templates (bucketRoute templates lastIndex url).2 urls = _
    rw [ih]
    cases hurl : testedPath url with
    | none =>
      obtain ⟨label, hlabel⟩ := bucketRoute_of_untested hurl
      rw [hlabel, List.filterMap_cons_none hurl]
    | some path =>
      rw [bucketRoute_of_tested hurl, List.filterMap_cons_some hurl]
      rfl

/-- Patterns whose answers do not depend on the history give labels that do not. -/
theorem pureFunction_of_forgetful
    (h : Forgetful lastIndex testedPaths (chain (templates.map (·.pattern)))) :
    PureFunction templates lastIndex := by
  intro urls urls' url
  cases hurl : testedPath url with
  | none =>
    obtain ⟨label, hlabel⟩ := bucketRoute_of_untested hurl
    rw [hlabel, hlabel]
  | some path =>
    have hmem : ∀ urls : List JsString, ∀ path ∈ urls.filterMap testedPath, path ∈ testedPaths := by
      intro urls path hpath
      obtain ⟨url, -, hurl⟩ := List.mem_filterMap.mp hpath
      exact ⟨url, hurl⟩
    rw [bucketRoute_of_tested hurl, bucketRoute_of_tested hurl, served_eq, served_eq,
      h _ _ (hmem urls) (hmem urls') path ⟨url, hurl⟩]

/-- Paths that are tested are those of some requests. -/
theorem exists_urls {paths : List JsString} (h : ∀ path ∈ paths, path ∈ testedPaths) :
    ∃ urls : List JsString, urls.filterMap testedPath = paths := by
  induction paths with
  | nil => exact ⟨[], rfl⟩
  | cons path paths ih =>
    obtain ⟨⟨url, hurl⟩, hrest⟩ := List.forall_mem_cons.mp h
    obtain ⟨urls, hurls⟩ := ih hrest
    exact ⟨url :: urls, by rw [List.filterMap_cons_some hurl, hurls]⟩

/-- The position of a test that accepts is one of the chain. -/
theorem lt_of_first {ts : List (Test JsString ℕ)} {m : ℕ → ℕ} {a : JsString} {k : ℕ}
    (h : (first ts m a).1 = some k) : k < ts.length := by
  induction ts generalizing m k with
  | nil => cases h
  | cons t ts ih =>
    cases hask : (t.ask (m t.id) a).1 with
    | true =>
      rw [Lib.FirstMatch.first_of_accepts hask] at h
      obtain rfl := Option.some.inj h
      simp
    | false =>
      rw [Lib.FirstMatch.first_of_refuses hask] at h
      obtain ⟨j, hj, rfl⟩ := Option.map_eq_some_iff.mp h
      simpa using ih hj

/-- A label that no default bucket is, another one for each position. -/
def marker (k : ℕ) : JsString := List.replicate (k + 1) 0

/-- The patterns with the markers as labels. -/
def marked (patterns : List RegExp) : List RouteTemplate :=
  patterns.mapIdx fun k r => ⟨r, marker k⟩

/-- They are the patterns. -/
theorem map_pattern_marked (patterns : List RegExp) :
    (marked patterns).map (·.pattern) = patterns := by
  refine List.ext_getElem? ?_
  intro k
  simp [marked, Option.map_map, Function.comp_def]

/-- A default bucket starts with a slash. -/
theorem bucketSegments_ne_marker (path : JsString) (k : ℕ) : bucketSegments path ≠ marker k := by
  have hslash : js "/" = [47] := by decide
  have hhead : (bucketSegments path).head? = some 47 := by
    unfold bucketSegments
    dsimp only
    rw [hslash]
    split_ifs <;> simp
  intro heq
  rw [heq] at hhead
  cases hhead

/-- The markers tell the positions apart. -/
theorem marker_label_inj {path : JsString} {o o' : Option ℕ}
    (ho : ∀ k, o = some k → k < patterns.length) (ho' : ∀ k, o' = some k → k < patterns.length)
    (h : (o.bind fun k => (marked patterns)[k]?.map (·.template)).getD (bucketSegments path) =
      (o'.bind fun k => (marked patterns)[k]?.map (·.template)).getD (bucketSegments path)) :
    o = o' := by
  have hlabel : ∀ k, k < patterns.length →
      (marked patterns)[k]?.map (·.template) = some (marker k) := by
    intro k hk
    simp [marked, hk]
  rcases o with _ | k <;> rcases o' with _ | k'
  · rfl
  · simp only [Option.bind_none, Option.bind_some, hlabel k' (ho' k' rfl), Option.getD_none,
      Option.getD_some] at h
    exact absurd h (bucketSegments_ne_marker path k')
  · simp only [Option.bind_none, Option.bind_some, hlabel k (ho k rfl), Option.getD_none,
      Option.getD_some] at h
    exact absurd h.symm (bucketSegments_ne_marker path k)
  · simp only [Option.bind_some, hlabel k (ho k rfl), hlabel k' (ho' k' rfl),
      Option.getD_some] at h
    have hlen := congrArg List.length h
    simp only [marker, List.length_replicate] at hlen
    rw [Nat.succ.inj hlen]

/-- Labels that do not depend on the history, with the markers, come from patterns whose answers do
not. -/
theorem forgetful_of_pureFunction (h : PureFunction (marked patterns) lastIndex) :
    Forgetful lastIndex testedPaths (chain patterns) := by
  intro paths paths' hmem hmem' path hpath
  obtain ⟨urls, hurls⟩ := exists_urls hmem
  obtain ⟨urls', hurls'⟩ := exists_urls hmem'
  obtain ⟨url, hurl⟩ := hpath
  have hlabel := h urls urls' url
  rw [bucketRoute_of_tested hurl, bucketRoute_of_tested hurl, served_eq, served_eq, hurls, hurls',
    map_pattern_marked] at hlabel
  refine @marker_label_inj patterns path _ _ ?_ ?_ hlabel
  all_goals
    intro k hk
    simpa [chain] using lt_of_first hk

/-- Whatever the labels of the templates, the label of a URL is the same after any two histories of
requests, exactly where every pattern accepts each path as at the start from every last index that
the paths can leave in it. -/
theorem bucketRoute_pure_iff (h : Objects patterns) :
    (∀ templates : List RouteTemplate, templates.map (·.pattern) = patterns →
      PureFunction templates lastIndex) ↔ IndexFree patterns lastIndex := by
  have hiff : Forgetful lastIndex testedPaths (chain patterns) ↔ IndexFree patterns lastIndex :=
    Lib.FirstMatch.forgetful_iff h.coherent
  rw [← hiff]
  constructor
  · intro hpure
    exact forgetful_of_pureFunction (hpure (marked patterns) (map_pattern_marked patterns))
  · rintro hforget templates rfl
    exact pureFunction_of_forgetful hforget

end Pure

/-- The pattern `/^\/api/g`. -/
def globalApi : RegExp :=
  ⟨0, fun s i => if i = 0 ∧ s.take 4 = js "/api" then some 4 else none, true, false⟩

/-- A template with that pattern. -/
def globalApiTemplate : RouteTemplate := ⟨globalApi, js "/api/:path"⟩

/-- The second request for `/api/users` gets another label than the first. -/
theorem bucketRoute_not_pure : ¬ PureFunction [globalApiTemplate] fun _ => 0 := by
  intro h
  have hlabel := h [] [js "/api/users"] (js "/api/users")
  revert hlabel
  decide +kernel

/-- For a list of this pattern alone. -/
theorem bucketRoute_pure_iff_globalApi :
    (∀ templates : List RouteTemplate, templates.map (·.pattern) = [globalApi] →
      PureFunction templates fun _ => 0) ↔ IndexFree [globalApi] fun _ => 0 :=
  bucketRoute_pure_iff (by simp [Objects])

end SimsysMetrics.Node.Next
