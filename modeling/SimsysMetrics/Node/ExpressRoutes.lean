import Mathlib.Data.Finset.Card
import SimsysMetrics.Lib.PathPattern
import SimsysMetrics.Node.Express

/-!
# The route labels of nested Express routers

A route label starts with `req.baseUrl`, which is the text of the URL that the mounts above the
route matched, not their patterns. So the requests to one registered route have one label exactly
when its pattern is empty, or the mounts above it can match one text only
(`label_of_patterns_iff`): a mount with a parameter gives a label for each value of it, and a mount
with a letter gives a label for each spelling of it.

Routers nest to any depth (`Layer`). Which route answers a request depends on the layers in front of
it, which may pass the request on, so `Dispatch` relates a path to every route whose mounts and
pattern match it. The letters that a matching identifies are a parameter, `canon`.
-/

namespace SimsysMetrics.Node.Express

open Lib (Token Pattern Matches Rigid Boundary loosen)

/-- A layer of a router: another router mounted at a pattern, or a route with a pattern. -/
inductive Layer where
  | mount (pattern : Pattern) (router : List Layer)
  | route (pattern : Pattern)

/-- A registered route, with the patterns of the mounts above it, outermost first. -/
structure Endpoint where
  chain : List Pattern
  route : Pattern
deriving DecidableEq

mutual

/-- The routes that a layer registers. -/
def Layer.endpoints : Layer → List Endpoint
  | .mount pattern router => (endpointsOf router).map fun e => ⟨pattern :: e.chain, e.route⟩
  | .route pattern => [⟨[], pattern⟩]

/-- The routes that a router registers. -/
def endpointsOf : List Layer → List Endpoint
  | [] => []
  | layer :: layers => layer.endpoints ++ endpointsOf layers

end

section Dispatch

variable (canon : Char → Char)

/-- A route matches a path with or without a separator at its end. -/
def RouteMatches (pattern : Pattern) (path : List Char) : Prop :=
  ∃ cs, Matches canon (loosen pattern.tokens) cs ∧ (path = cs ∨ path = cs ++ ['/'])

/-- The paths that a router may dispatch to a registered route, each with the base URL there: the
text that the mounts matched. Layers in front of a match may pass the request on. -/
inductive Dispatch : List Layer → List Char → List Char → Endpoint → Prop
  | route {layers : List Layer} {pattern : Pattern} {path : List Char} :
      .route pattern ∈ layers → RouteMatches canon pattern path →
      Dispatch layers path [] ⟨[], pattern⟩
  | mount {layers router : List Layer} {pattern : Pattern} {layerPath path base : List Char}
      {e : Endpoint} :
      .mount pattern router ∈ layers → Matches canon (loosen pattern.tokens) layerPath →
      Boundary path → Dispatch router path base e →
      Dispatch layers (layerPath ++ path) (layerPath ++ base) ⟨pattern :: e.chain, e.route⟩

/-- The texts that a chain of mounts matches. -/
inductive ChainMatches : List Pattern → List Char → Prop
  | nil : ChainMatches [] []
  | cons {pattern : Pattern} {chain : List Pattern} {layerPath base : List Char} :
      Matches canon (loosen pattern.tokens) layerPath → ChainMatches chain base →
      ChainMatches (pattern :: chain) (layerPath ++ base)

end Dispatch

/-! ## The registered routes -/

/-- A router registers the routes of its layers. -/
theorem mem_endpointsOf {layers : List Layer} {e : Endpoint} :
    e ∈ endpointsOf layers ↔ ∃ layer ∈ layers, e ∈ layer.endpoints := by
  induction layers with
  | nil => simp [endpointsOf]
  | cons layer layers ih => simp [endpointsOf, ih]

/-- A route layer registers its own pattern. -/
theorem mem_endpoints_route {pattern : Pattern} {e : Endpoint} :
    e ∈ (Layer.route pattern).endpoints ↔ e = ⟨[], pattern⟩ := by
  simp [Layer.endpoints]

/-- A mounted router registers its routes below its pattern. -/
theorem mem_endpoints_mount {pattern : Pattern} {router : List Layer} {e : Endpoint} :
    e ∈ (Layer.mount pattern router).endpoints ↔
      ∃ e' ∈ endpointsOf router, ⟨pattern :: e'.chain, e'.route⟩ = e := by
  simp [Layer.endpoints]

section Chain

variable {canon : Char → Char}

/-- A dispatch reaches a registered route, at a base URL that its chain of mounts matches. -/
theorem Dispatch.spec {layers : List Layer} {path base : List Char} {e : Endpoint}
    (h : Dispatch canon layers path base e) :
    e ∈ endpointsOf layers ∧ ChainMatches canon e.chain base := by
  induction h with
  | route hmem _ => exact ⟨mem_endpointsOf.mpr ⟨_, hmem, mem_endpoints_route.mpr rfl⟩, .nil⟩
  | mount hmem hmatch _ _ ih =>
    obtain ⟨hreg, hchain⟩ := ih
    exact ⟨mem_endpointsOf.mpr ⟨_, hmem, mem_endpoints_mount.mpr ⟨_, hreg, rfl⟩⟩,
      .cons hmatch hchain⟩

/-- A text that a chain of mounts matches is a boundary. -/
theorem ChainMatches.boundary {chain : List Pattern} {base : List Char}
    (h : ChainMatches canon chain base) : Boundary base := by
  induction h with
  | nil => exact Or.inl rfl
  | cons hmatch _ ih => exact (Pattern.boundary _ hmatch).append ih

/-- Every registered route is reached through every text that its mounts and its pattern match. -/
theorem dispatch_of_matches {layers : List Layer} {e : Endpoint} (he : e ∈ endpointsOf layers)
    {base path : List Char} (hchain : ChainMatches canon e.chain base)
    (hroute : RouteMatches canon e.route path) (hpath : Boundary path) :
    Dispatch canon layers (base ++ path) base e := by
  obtain ⟨chain, route⟩ := e
  -- By the chain: each mount takes its own part of the base URL.
  induction chain generalizing layers base with
  | nil =>
    obtain ⟨pattern | pattern, hmem, he⟩ := mem_endpointsOf.mp he
    · obtain ⟨e', -, heq⟩ := mem_endpoints_mount.mp he
      cases heq
    · cases hchain
      obtain ⟨-, rfl⟩ := Endpoint.mk.inj (mem_endpoints_route.mp he)
      exact .route hmem hroute
  | cons pattern chain ih =>
    obtain ⟨⟨pattern', router⟩ | pattern', hmem, he⟩ := mem_endpointsOf.mp he
    · obtain ⟨e', he', heq⟩ := mem_endpoints_mount.mp he
      obtain ⟨hcons, rfl⟩ := Endpoint.mk.inj heq
      obtain ⟨rfl, rfl⟩ := List.cons.inj hcons
      obtain _ | ⟨hmatch, hrest⟩ := hchain
      rw [List.append_assoc]
      exact .mount hmem hmatch (hrest.boundary.append hpath) (ih he' hrest hroute)
    · cases mem_endpoints_route.mp he

/-- One text at most matches a chain of rigid mounts. -/
theorem ChainMatches.eq_of_rigid {chain : List Pattern} (h : ∀ p ∈ chain, Rigid canon p.tokens)
    {base base' : List Char} (hm : ChainMatches canon chain base)
    (hm' : ChainMatches canon chain base') : base = base' := by
  induction hm generalizing base' with
  | nil =>
    cases hm'
    rfl
  | @cons pattern chain layerPath base hmatch _ ih =>
    obtain _ | ⟨hmatch', hrest'⟩ := hm'
    have hrigid := Lib.rigid_loosen_iff pattern.tokens |>.mpr (h pattern List.mem_cons_self)
    rw [hrigid.eq_of_matches hmatch hmatch',
      ih (fun p hp => h p (List.mem_cons_of_mem _ hp)) hrest']

/-- Some text matches every chain of mounts. -/
theorem exists_chainMatches (chain : List Pattern) : ∃ base, ChainMatches canon chain base := by
  induction chain with
  | nil => exact ⟨[], .nil⟩
  | cons pattern chain ih =>
    obtain ⟨base, hbase⟩ := ih
    obtain ⟨layerPath, hmatch⟩ := @Lib.exists_matches canon (loosen pattern.tokens)
    exact ⟨layerPath ++ base, .cons hmatch hbase⟩

/-- Two texts match a chain with a mount that is not rigid; neither is empty. -/
theorem exists_ne_chainMatches {chain : List Pattern} (h : ∃ p ∈ chain, ¬ Rigid canon p.tokens) :
    ∃ base base', ChainMatches canon chain base ∧ ChainMatches canon chain base' ∧ base ≠ base' ∧
      base ≠ [] ∧ base' ≠ [] := by
  induction chain with
  | nil =>
    obtain ⟨p, hp, -⟩ := h
    cases hp
  | cons pattern chain ih =>
    by_cases hpat : Rigid canon pattern.tokens
    · -- A later mount is not rigid, and its texts stay apart behind one text of this mount.
      have hrest : ∃ p ∈ chain, ¬ Rigid canon p.tokens := by
        obtain ⟨p, hp, hnot⟩ := h
        rcases List.mem_cons.mp hp with rfl | hp
        · exact absurd hpat hnot
        · exact ⟨p, hp, hnot⟩
      obtain ⟨base, base', hm, hm', hne, hnil, hnil'⟩ := ih hrest
      obtain ⟨layerPath, hmatch⟩ := @Lib.exists_matches canon (loosen pattern.tokens)
      refine ⟨layerPath ++ base, layerPath ++ base', .cons hmatch hm, .cons hmatch hm', ?_, ?_, ?_⟩
      · exact fun h => hne (List.append_cancel_left h)
      · exact fun h => hnil (List.append_eq_nil_iff.mp h).2
      · exact fun h => hnil' (List.append_eq_nil_iff.mp h).2
    · -- This mount has two texts, and any text of the later mounts completes them.
      have hloose : ¬ Rigid canon (loosen pattern.tokens) :=
        fun h => hpat ((Lib.rigid_loosen_iff pattern.tokens).mp h)
      have htokens : loosen pattern.tokens ≠ [] := by
        intro hnil
        rw [hnil] at hloose
        exact hloose (by simp [Rigid])
      obtain ⟨layerPath, layerPath', hmatch, hmatch', hne⟩ := Lib.exists_ne_of_not_rigid hloose
      obtain ⟨base, hbase⟩ := @exists_chainMatches canon chain
      refine ⟨layerPath ++ base, layerPath' ++ base, .cons hmatch hbase, .cons hmatch' hbase,
        ?_, ?_, ?_⟩
      · exact fun h => hne (List.append_cancel_right h)
      · exact fun h => hmatch.ne_nil htokens (List.append_eq_nil_iff.mp h).1
      · exact fun h => hmatch'.ne_nil htokens (List.append_eq_nil_iff.mp h).1

end Chain

/-! ## The labels of an app -/

section Labels

variable (canon : Char → Char) (service metricsPath : String) (layers : List Layer)

/-- The labels that a request to a registered route may be recorded with: its path is dispatched to
the route, and the recording middleware counts it. -/
def Recorded (e : Endpoint) (l : HttpLabels String) : Prop :=
  ∃ path base method statusCode, path.head? = some '/' ∧ Dispatch canon layers path base e ∧
    record service metricsPath (String.ofList path)
      ⟨method, some e.route.text, String.ofList base, statusCode⟩ = some l

/-- The route labels come from the registered patterns. -/
structure LabelOfPatterns : Prop where
  /-- Two requests to one registered route have one label. -/
  same : ∀ e l l', Recorded canon service metricsPath layers e l →
    Recorded canon service metricsPath layers e l' → l.route = l'.route
  /-- There are at most as many labels as registered routes, and the one of unmatched requests. -/
  bounded : ∀ labels : Finset String,
    (∀ label ∈ labels, label = "__unmatched__" ∨
      ∃ e l, Recorded canon service metricsPath layers e l ∧ l.route = label) →
    labels.card ≤ (endpointsOf layers).toFinset.card + 1

variable {canon service metricsPath layers}

/-- The route label of a recorded request. -/
theorem Recorded.route_eq {e : Endpoint} {l : HttpLabels String}
    (h : Recorded canon service metricsPath layers e l) :
    e ∈ endpointsOf layers ∧ ∃ base, ChainMatches canon e.chain base ∧
      l.route = routeLabel (some e.route.text) (String.ofList base) := by
  obtain ⟨path, base, method, statusCode, -, hdispatch, hrecord⟩ := h
  obtain ⟨hreg, hchain⟩ := hdispatch.spec
  unfold record at hrecord
  split_ifs at hrecord
  -- The metrics path is not recorded, so the labels are those of `finalize`.
  rw [← Option.some.inj hrecord]
  exact ⟨hreg, base, hchain, rfl⟩

/-- Every text that the mounts above a registered route match is the base URL of a recorded
request to it. -/
theorem exists_recorded {e : Endpoint} (he : e ∈ endpointsOf layers) {base : List Char}
    (hchain : ChainMatches canon e.chain base) (hbase : base ≠ []) :
    ∃ l, Recorded canon service metricsPath layers e l ∧
      l.route = routeLabel (some e.route.text) (String.ofList base) := by
  obtain ⟨cs, hcs⟩ := @Lib.exists_matches canon (loosen e.route.tokens)
  have hcsBound : Boundary cs := Pattern.boundary _ hcs
  -- The path with and without a separator at its end; one of the two is not the metrics path.
  obtain ⟨path, hroute, hpath, hne⟩ : ∃ path, RouteMatches canon e.route path ∧ Boundary path ∧
      String.ofList (base ++ path) ≠ metricsPath := by
    by_cases hmetrics : String.ofList (base ++ cs) = metricsPath
    · refine ⟨cs ++ ['/'], ⟨cs, hcs, Or.inr rfl⟩, hcsBound.append (Or.inr rfl), ?_⟩
      rw [← hmetrics]
      intro h
      have hlen := congrArg List.length (String.ofList_injective h)
      simp at hlen
    · exact ⟨cs, ⟨cs, hcs, Or.inl rfl⟩, hcsBound, hmetrics⟩
  have hhead : (base ++ path).head? = some '/' := by
    rw [List.head?_append, hchain.boundary.resolve_left hbase]
    rfl
  refine ⟨finalize service ⟨none, some e.route.text, String.ofList base, .number 200⟩, ?_, rfl⟩
  refine ⟨base ++ path, base, none, .number 200, hhead, ?_, ?_⟩
  · exact dispatch_of_matches he hchain hroute hpath
  · exact if_neg hne

/-- If one label at most is recorded for each registered route, there are no more labels than
routes, and the one of unmatched requests. -/
theorem labelOfPatterns_of_same
    (hsame : ∀ e l l', Recorded canon service metricsPath layers e l →
      Recorded canon service metricsPath layers e l' → l.route = l'.route) :
    LabelOfPatterns canon service metricsPath layers := by
  classical
  refine ⟨hsame, fun labels hlabels => ?_⟩
  -- The one label of each registered route.
  let labelOf (e : Endpoint) : String :=
    if h : ∃ l, Recorded canon service metricsPath layers e l then h.choose.route else ""
  have hsub : labels ⊆ insert "__unmatched__" ((endpointsOf layers).toFinset.image labelOf) := by
    intro label hlabel
    rcases hlabels label hlabel with rfl | ⟨e, l, hrec, rfl⟩
    · exact Finset.mem_insert_self _ _
    · apply Finset.mem_insert_of_mem
      have hex : ∃ l, Recorded canon service metricsPath layers e l := ⟨l, hrec⟩
      have hlabelOf : labelOf e = l.route := by
        show (if h : _ then _ else _) = _
        rw [dif_pos hex]
        exact hsame e _ _ hex.choose_spec hrec
      rw [← hlabelOf]
      exact Finset.mem_image_of_mem labelOf (List.mem_toFinset.mpr hrec.route_eq.1)
  calc labels.card
      ≤ (insert "__unmatched__" ((endpointsOf layers).toFinset.image labelOf)).card :=
        Finset.card_le_card hsub
    _ ≤ ((endpointsOf layers).toFinset.image labelOf).card + 1 := Finset.card_insert_le _ _
    _ ≤ (endpointsOf layers).toFinset.card + 1 := Nat.succ_le_succ Finset.card_image_le

end Labels

/-- Only the empty pattern has an empty text. -/
theorem text_eq_empty_iff (p : Pattern) : p.text = "" ↔ p.tokens = [] := by
  unfold Pattern.text
  rw [String.ofList_eq_empty_iff]
  constructor
  · intro h
    rcases p.rooted with hnil | hhead
    · exact hnil
    · obtain ⟨ts, hts⟩ := List.head?_eq_some_iff.mp hhead
      rw [hts] at h
      cases h
  · intro h
    rw [h]
    rfl

/-- The route labels come from the registered patterns exactly when each registered route has an
empty pattern, or only mounts above it that one text at most matches. -/
theorem label_of_patterns_iff (canon : Char → Char) (service metricsPath : String)
    (layers : List Layer) :
    LabelOfPatterns canon service metricsPath layers ↔
      ∀ e ∈ endpointsOf layers, e.route.tokens = [] ∨ ∀ p ∈ e.chain, Rigid canon p.tokens := by
  constructor
  · intro h e he
    by_contra hnot
    -- A mount that is not rigid gives the route two base URLs, and so two labels.
    obtain ⟨htokens, hchain⟩ := not_or.mp hnot
    have hmount : ∃ p ∈ e.chain, ¬ Rigid canon p.tokens := by
      simpa using hchain
    obtain ⟨base, base', hm, hm', hne, hnil, hnil'⟩ := exists_ne_chainMatches hmount
    obtain ⟨l, hrec, hl⟩ :=
      @exists_recorded canon service metricsPath layers e he base hm hnil
    obtain ⟨l', hrec', hl'⟩ :=
      @exists_recorded canon service metricsPath layers e he base' hm' hnil'
    have hsame := h.same e l l' hrec hrec'
    have htext : e.route.text ≠ "" := fun h => htokens ((text_eq_empty_iff _).mp h)
    have hbase : String.ofList base ≠ "" := fun h => hnil (String.ofList_eq_empty_iff.mp h)
    have hbase' : String.ofList base' ≠ "" := fun h => hnil' (String.ofList_eq_empty_iff.mp h)
    rw [hl, hl', routeLabel, routeLabel, if_neg htext, if_neg htext, if_neg hbase, if_neg hbase',
      String.append_left_inj] at hsame
    exact hne (String.ofList_injective hsame)
  · intro h
    apply labelOfPatterns_of_same
    intro e l l' hrec hrec'
    obtain ⟨he, base, hm, hl⟩ := hrec.route_eq
    obtain ⟨-, base', hm', hl'⟩ := hrec'.route_eq
    rw [hl, hl']
    -- The route is recorded as unmatched, or there is one base URL.
    rcases h e he with htokens | hrigid
    · have htext := (text_eq_empty_iff e.route).mpr htokens
      rw [htext]
      rfl
    · rw [hm.eq_of_rigid hrigid hm']

/-- The mount pattern `/t/:id`. -/
def tenantMount : Pattern := ⟨[.sep, .lit 't', .sep, .param "id"], Or.inr rfl⟩

/-- The route pattern `/x`. -/
def tenantRoute : Pattern := ⟨[.sep, .lit 'x'], Or.inr rfl⟩

/-- The mount has no separator at its end. -/
theorem matches_tenantMount (c : Char) (hc : '/' ≠ c) :
    Matches asciiUpper (loosen tenantMount.tokens) ['/', 't', '/', c] := by
  have hloose : loosen tenantMount.tokens = [.sep, .lit 't', .sep, .param "id"] := by decide
  rw [hloose]
  exact .sep (.lit rfl (.sep (@Matches.param asciiUpper "id" [c] [] [] (by simp) (by simpa using hc)
    .nil)))

/-- A request to `/t/c/x` is dispatched to the route, so it is recorded. -/
theorem recorded_tenant (c : Char) (hc : '/' ≠ c)
    (hpath : String.ofList ['/', 't', '/', c, '/', 'x'] ≠ "/metrics") :
    Recorded asciiUpper "portal" "/metrics" [.mount tenantMount [.route tenantRoute]]
      ⟨[tenantMount], tenantRoute⟩
      (finalize "portal" ⟨some "GET", some tenantRoute.text, String.ofList ['/', 't', '/', c],
        .number 200⟩) := by
  have hloose : loosen tenantRoute.tokens = [.sep, .lit 'x'] := by decide
  have hroute : RouteMatches asciiUpper tenantRoute ['/', 'x'] := by
    refine ⟨['/', 'x'], ?_, Or.inl rfl⟩
    rw [hloose]
    exact .sep (.lit rfl .nil)
  refine ⟨['/', 't', '/', c] ++ ['/', 'x'], ['/', 't', '/', c] ++ [], some "GET", .number 200, rfl,
    ?_, ?_⟩
  · exact .mount List.mem_cons_self (matches_tenantMount c hc) (Or.inr rfl)
      (.route List.mem_cons_self hroute)
  · exact if_neg hpath

/-- The requests `/t/1/x` and `/t/2/x` to one route have two labels. -/
theorem tenant_labels_differ :
    ¬ LabelOfPatterns asciiUpper "portal" "/metrics" [.mount tenantMount [.route tenantRoute]] := by
  intro h
  have hone := recorded_tenant '1' (by decide) (by decide)
  have htwo := recorded_tenant '2' (by decide) (by decide)
  have hsame := h.same _ _ _ hone htwo
  revert hsame
  decide

end SimsysMetrics.Node.Express
