import SimsysMetrics.Factories
import SimsysMetrics.Go.Collectors

/-!
# The factories of the Go lane

`MakeCounter`, `MakeGauge` and `MakeHistogram` of `go/registry.go`, called by any goroutines with
handles of any registries. A call is two steps here: the section of `warnIfMissingService` under its
mutex, and the rest, whose only effect is `Register` of the registry, which has a lock of its own.
Other goroutines may register collectors there at any time, as `Install` does.

A handle comes from `Install`, so its registry holds the collectors of `Install` at the start, and
perhaps others; no two of them have one `simsys_` name (`Distinct`). Then all calls that return for
one registry and name return one vector, whatever the interleaving, and no metric without the label
`service` is made silently (`factories_share`).
-/

namespace SimsysMetrics.Go.Installs.Factories

open Lib (Along Reporter run trace)

/-- What a warning is logged with. -/
abbrev Warned := SimsysMetrics.Factories.Warning

/-! ## Calls -/

/-- What a factory is called with; the bounds of a histogram stand in no descriptor. -/
structure Vec where
  goType : GoType
  name : String
  help : String
  labels : List String
deriving DecidableEq

/-- A vector without the label `service`. -/
def Vec.missing (v : Vec) : Bool := "service" ∉ v.labels

/-- The warning of a vector. -/
def Vec.warning (v : Vec) : Warned := ⟨v.name, v.labels⟩

/-- What the factory constructs. -/
def Vec.prototype (v : Vec) : Prototype := ⟨v.goType, [⟨v.name, v.help, [], v.labels⟩]⟩

/-- A call through a handle of a registry. -/
structure Call where
  registry : ℕ
  vec : Vec
deriving DecidableEq

/-- `warnIfMissingService`. -/
def warnIfMissingService (v : Vec) (r : Reporter String Warned) : Reporter String Warned :=
  if v.missing then r.report (·.name) v.warning else r

/-- `MakeCounter`. -/
def makeCounter (name help : String) (labels : List String) : Vec :=
  ⟨.counterVec, name, help, labels⟩

/-- `MakeGauge`. -/
def makeGauge (name help : String) (labels : List String) : Vec := ⟨.gaugeVec, name, help, labels⟩

/-- `MakeHistogram`. -/
def makeHistogram (name help : String) (labels : List String) : Vec :=
  ⟨.histogramVec, name, help, labels⟩

/-- A process: the warnings, the registries, how many collectors were constructed, the calls that
are past their warning, and what the calls returned. -/
structure State (R : Type) where
  warned : Reporter String Warned
  registries : ℕ → R
  constructed : ℕ
  pending : List Call
  returned : List (Call × Collector)

/-- A step of a call. -/
inductive Event where
  /-- A call, up to the end of the section under the mutex. -/
  | call (c : Call)
  /-- The rest of one of the calls that are past it. -/
  | go (i : ℕ)
  /-- Another registration. -/
  | register (registry : ℕ) (c : Collector)

/-- What others register under a `simsys_` name has no constant labels. -/
def Event.Plain : Event → Prop
  | .register _ c => ∀ d ∈ c.descs, Prefixed d.fqName → d.constLabels = []
  | .call _ | .go _ => True

instance : DecidablePred Event.Plain
  | .register _ c =>
    inferInstanceAs (Decidable (∀ d ∈ c.descs, Prefixed d.fqName → d.constLabels = []))
  | .call _ | .go _ => inferInstanceAs (Decidable True)

section Steps

variable {R : Type} (P : Registerer R)

/-- The rest of a factory: `guardName`, the constructor, and `registerOrExisting`. -/
def make (r : R) (creator : ℕ) (v : Vec) : Except Panic (Collector × R) := do
  let _ ← guardName v.name
  let (registered, r) ← registerOrExistingWithStatus P r ⟨v.prototype, creator⟩
  return (registered.1, r)

/-- One step; a call that panics has no effect. -/
def step (s : State R) : Event → State R
  | .call c => { s with warned := warnIfMissingService c.vec s.warned, pending := s.pending ++ [c] }
  | .go i =>
    -- The call goes on after its warning, while other calls may have registered.
    match s.pending[i]? with
    | none => s
    | some c =>
      let rest := { s with constructed := s.constructed + 1, pending := s.pending.eraseIdx i }
      match make P (s.registries c.registry) s.constructed c.vec with
      | .error _ => rest
      | .ok (collector, r) =>
        { rest with
          registries := Function.update s.registries c.registry r
          returned := s.returned ++ [(c, collector)] }
  | .register k c =>
    { s with registries := Function.update s.registries k (P.register (s.registries k) c).2 }

/-- The vector that a step asks for. -/
def asks (_ : State R) : Event → List Vec
  | .call c => [c.vec]
  | .go _ | .register _ _ => []

/-- A process that has made nothing. -/
def initial (registries : ℕ → R) : State R := ⟨.empty, registries, 0, [], []⟩

/-- What `Register` is documented to do beside `Registerer`. -/
structure Documented (P : Registerer R) : Prop where
  /-- The name of a metric without constant labels is new where it is registered. -/
  registered {r r' : R} {c : Collector} (h : P.register r c = (none, r')) :
    P.collectors r' = P.collectors r ++ [c] ∧ ∀ d ∈ c.descs, d.constLabels = [] →
      ∀ e ∈ P.collectors r, ∀ d' ∈ e.descs, d'.fqName ≠ d.fqName
  refused {r r' : R} {c : Collector} {err : RegisterError} (h : P.register r c = (some err, r')) :
    P.collectors r' = P.collectors r
  /-- The existing collector collects the same metrics. -/
  existing {r r' : R} {c e : Collector} (h : P.register r c = (some (.alreadyRegistered e), r')) :
    e ∈ P.collectors r ∧ ∀ name, c.describes name = true → e.describes name = true

/-- No two collectors have one `simsys_` name. -/
def Distinct (collectors : List Collector) : Prop :=
  collectors.Pairwise fun a b =>
    ∀ d ∈ a.descs, ∀ d' ∈ b.descs, d.fqName = d'.fqName → ¬ Prefixed d.fqName

instance (collectors : List Collector) : Decidable (Distinct collectors) := by
  unfold Distinct
  infer_instance

variable {P} {registries : ℕ → R} {events : List Event} {vecs : List Vec} {s : State R}

/-- The vector that a call constructs. -/
theorem describes_prototype (v : Vec) : v.prototype.describes v.name = true := by
  simp [Prototype.describes, Vec.prototype]

/-- What a call that returns leaves. -/
theorem make_ok (hP : Documented P) {r r' : R} {creator : ℕ} {v : Vec} {c : Collector}
    (h : make P r creator v = .ok (c, r')) :
    Prefixed v.name ∧ c.goType = v.goType ∧ c.describes v.name = true ∧
      ((c.toPrototype = v.prototype ∧ (∀ e ∈ P.collectors r, e.Disjoint v.prototype) ∧
          P.collectors r' = P.collectors r ++ [c]) ∨
        (c ∈ P.collectors r ∧ P.collectors r' = P.collectors r)) := by
  rw [make, guardName] at h
  by_cases hprefixed : Prefixed v.name
  · rw [if_pos hprefixed] at h
    refine ⟨hprefixed, ?_⟩
    simp only [registerOrExistingWithStatus] at h
    have hconst : ∀ d ∈ (⟨v.prototype, creator⟩ : Collector).descs, d.constLabels = [] := by
      intro d hd
      obtain rfl := List.mem_singleton.mp hd
      rfl
    match hregister : P.register r ⟨v.prototype, creator⟩ with
    | (none, r'') =>
      rw [hregister] at h
      obtain ⟨rfl, rfl⟩ := Prod.mk.inj (Except.ok.inj h)
      obtain ⟨hcollectors, hnew⟩ := hP.registered hregister
      refine ⟨rfl, describes_prototype v, .inl ⟨rfl, fun e he d hd d' hd' => ?_, hcollectors⟩⟩
      exact hnew d' hd' (hconst d' hd') e he d hd
    | (some (.alreadyRegistered existing), r'') =>
      rw [hregister] at h
      dsimp only at h
      split_ifs at h with htype
      · obtain ⟨rfl, rfl⟩ := Prod.mk.inj (Except.ok.inj h)
        obtain ⟨hmem, hnames⟩ := hP.existing hregister
        exact ⟨htype, hnames v.name (describes_prototype v), .inr ⟨hmem, hP.refused hregister⟩⟩
      · -- A collector of another type: `registerOrExisting` panics.
        cases h
    | (some (.other text), r'') =>
      rw [hregister] at h
      cases h
  · rw [if_neg hprefixed] at h
    -- Every other error of `Register` panics.
    cases h

/-! ## Runs -/

/-- What a registry holds: what was there, what others registered, and what the factories made. -/
def Accounted (P : Registerer R) (registries : ℕ → R) (events : List Event) (vecs : List Vec)
    (k : ℕ) (collectors : List Collector) : Prop :=
  ∀ c ∈ collectors, c ∈ P.collectors (registries k) ∨ .register k c ∈ events ∨
    ∃ v ∈ vecs, c.toPrototype = v.prototype ∧ Prefixed v.name

/-- What the calls of a run share: in each registry, the factories have added some of the vectors,
and no two collectors have one `simsys_` name. -/
structure Inv (P : Registerer R) (registries : ℕ → R) (events : List Event) (s : State R)
    (vecs : List Vec) : Prop where
  warned : s.warned = Reporter.reportAll (·.name) ((vecs.filter Vec.missing).map Vec.warning)
  pending (c : Call) (hc : c ∈ s.pending) : c.vec ∈ vecs
  distinct (k : ℕ) : Distinct (P.collectors (s.registries k))
  added (k : ℕ) : Accounted P registries events vecs k (P.collectors (s.registries k))
  returned (r : Call × Collector) (hr : r ∈ s.returned) :
    Prefixed r.1.vec.name ∧ r.2 ∈ P.collectors (s.registries r.1.registry) ∧
      r.2.goType = r.1.vec.goType ∧ r.2.describes r.1.vec.name = true

/-- A call begins. -/
theorem Inv.call (h : Inv P registries events s vecs) (c : Call) :
    Inv P registries events (step P s (.call c)) (vecs ++ [c.vec]) := by
  refine ⟨?_, ?_, h.distinct, ?_, h.returned⟩
  · show warnIfMissingService c.vec s.warned = _
    rw [warnIfMissingService, h.warned, List.filter_append, List.map_append]
    split_ifs with hmissing
    · rw [← Reporter.reportAll_concat]
      simp [hmissing]
    · simp [hmissing]
  · intro c' hc'
    rcases List.mem_append.mp hc' with hc' | hc'
    · exact List.mem_append_left _ (h.pending c' hc')
    · obtain rfl := List.mem_singleton.mp hc'
      exact List.mem_append_right _ (List.mem_singleton_self _)
  · intro k c' hc'
    refine (h.added k c' hc').imp_right fun hadded => hadded.imp_right fun ⟨v, hv, hproto⟩ => ?_
    exact ⟨v, List.mem_append_left _ hv, hproto⟩

/-- A collector joins those of a registry, where none has one of its `simsys_` names. -/
theorem Distinct.concat {collectors : List Collector} (h : Distinct collectors) {c : Collector}
    (hnew : ∀ e ∈ collectors, ∀ d ∈ e.descs, ∀ d' ∈ c.descs, d.fqName = d'.fqName →
      ¬ Prefixed d.fqName) : Distinct (collectors ++ [c]) := by
  refine List.pairwise_append.mpr ⟨h, List.pairwise_singleton _ _, fun e he e' he' => ?_⟩
  obtain rfl := List.mem_singleton.mp he'
  exact hnew e he

/-- A collector joins those of a registry, where another has registered it or the factories have
made it. -/
theorem Accounted.concat {k : ℕ} {collectors : List Collector}
    (h : Accounted P registries events vecs k collectors) {c : Collector}
    (hc : .register k c ∈ events ∨ ∃ v ∈ vecs, c.toPrototype = v.prototype ∧ Prefixed v.name) :
    Accounted P registries events vecs k (collectors ++ [c]) := by
  intro e he
  rcases List.mem_append.mp he with he | he
  · exact h e he
  · obtain rfl := List.mem_singleton.mp he
    exact .inr hc

/-- What a call that returns leaves in its registry. -/
theorem Inv.added_make (hP : Documented P) (h : Inv P registries events s vecs) {c : Call}
    (hc : c.vec ∈ vecs) {collector : Collector} {r : R}
    (hmake : make P (s.registries c.registry) s.constructed c.vec = .ok (collector, r)) :
    Distinct (P.collectors r) ∧
      Accounted P registries events vecs c.registry (P.collectors r) := by
  have hdistinct := h.distinct c.registry
  have hadded := h.added c.registry
  obtain ⟨hprefixed, -, -, ⟨hproto, hnew, hcollectors⟩ | ⟨-, hcollectors⟩⟩ := make_ok hP hmake
  · rw [hcollectors]
    refine ⟨hdistinct.concat fun e he d hd d' hd' hname => ?_,
      hadded.concat (.inr ⟨c.vec, hc, hproto, hprefixed⟩)⟩
    rw [hproto] at hd'
    exact absurd hname (hnew e he d hd d' hd')
  · rw [hcollectors]
    exact ⟨hdistinct, hadded⟩

/-- What is registered stays, where a registry takes the place of one whose collectors it has. -/
theorem mem_update {k k' : ℕ} {r : R} {e : Collector}
    (hr : P.collectors (s.registries k) ⊆ P.collectors r)
    (he : e ∈ P.collectors (s.registries k')) :
    e ∈ P.collectors (Function.update s.registries k r k') := by
  by_cases hk : k' = k
  · subst hk
    rw [Function.update_self]
    exact hr he
  · rw [Function.update_of_ne hk]
    exact he

/-- A registration leaves what is registered. -/
theorem subset_register (hP : Documented P) (r : R) (c : Collector) :
    P.collectors r ⊆ P.collectors (P.register r c).2 := by
  match hregister : P.register r c with
  | (none, r') =>
    rw [(hP.registered hregister).1]
    exact List.subset_append_left _ _
  | (some err, r') =>
    rw [hP.refused hregister]
    exact List.Subset.refl _

/-- What holds of the collectors of each registry, where one is replaced. -/
theorem forall_update {Q : ℕ → List Collector → Prop} {k : ℕ} {r : R} (hr : Q k (P.collectors r))
    (h : ∀ k, Q k (P.collectors (s.registries k))) (k' : ℕ) :
    Q k' (P.collectors (Function.update s.registries k r k')) := by
  by_cases hk : k' = k
  · subst hk
    rwa [Function.update_self]
  · rw [Function.update_of_ne hk]
    exact h k'

/-- A call ends. -/
theorem Inv.go (hP : Documented P) (h : Inv P registries events s vecs) (i : ℕ) :
    Inv P registries events (step P s (.go i)) vecs := by
  rw [step]
  cases hi : s.pending[i]? with
  | none => exact h
  | some c =>
    have hpending (c' : Call) (hc' : c' ∈ s.pending.eraseIdx i) : c'.vec ∈ vecs :=
      h.pending c' (List.mem_of_mem_eraseIdx hc')
    dsimp only
    cases hmake : make P (s.registries c.registry) s.constructed c.vec with
    | error => exact ⟨h.warned, hpending, h.distinct, h.added, h.returned⟩
    | ok made =>
      obtain ⟨collector, r⟩ := made
      obtain ⟨hdistinct, hadded⟩ := h.added_make hP (h.pending c (List.mem_of_getElem? hi)) hmake
      obtain ⟨hprefixed, htype, hdescribes, hregistered⟩ := make_ok hP hmake
      have hsubset : P.collectors (s.registries c.registry) ⊆ P.collectors r := by
        -- The registry keeps what it had, whether the vector is new or the existing one.
        rcases hregistered with ⟨-, -, hcollectors⟩ | ⟨-, hcollectors⟩
        · rw [hcollectors]
          exact List.subset_append_left _ _
        · rw [hcollectors]
          exact List.Subset.refl _
      refine ⟨h.warned, hpending, forall_update (Q := fun _ => Distinct) hdistinct h.distinct,
        forall_update (Q := Accounted P registries events vecs) hadded h.added,
        fun result hresult => ?_⟩
      rcases List.mem_append.mp hresult with hresult | hresult
      · obtain ⟨hprefixed, hmem, hrest⟩ := h.returned result hresult
        exact ⟨hprefixed, mem_update hsubset hmem, hrest⟩
      · obtain rfl := List.mem_singleton.mp hresult
        refine ⟨hprefixed, ?_, htype, hdescribes⟩
        show collector ∈ P.collectors (Function.update s.registries c.registry r c.registry)
        rw [Function.update_self]
        rcases hregistered with ⟨-, -, hcollectors⟩ | ⟨hmem, hcollectors⟩
        · rw [hcollectors]
          exact List.mem_append_right _ (List.mem_singleton_self _)
        · rw [hcollectors]
          exact hmem

/-- Another registration. -/
theorem Inv.register (hP : Documented P) (h : Inv P registries events s vecs) {k : ℕ}
    {c : Collector} (hmem : .register k c ∈ events) (hplain : (Event.register k c).Plain) :
    Inv P registries events (step P s (.register k c)) vecs := by
  have hdistinct := h.distinct k
  have hadded := h.added k
  have hafter : Distinct (P.collectors (P.register (s.registries k) c).2) ∧
      Accounted P registries events vecs k (P.collectors (P.register (s.registries k) c).2) := by
    match hregister : P.register (s.registries k) c with
    | (none, r') =>
      obtain ⟨hcollectors, hnew⟩ := hP.registered hregister
      rw [hcollectors]
      refine ⟨hdistinct.concat fun e he d hd d' hd' hname hprefixed => ?_,
        hadded.concat (.inl hmem)⟩
      exact hnew d' hd' (hplain d' hd' (hname ▸ hprefixed)) e he d hd hname
    | (some err, r') =>
      rw [hP.refused hregister]
      exact ⟨hdistinct, hadded⟩
  refine ⟨h.warned, h.pending, forall_update (Q := fun _ => Distinct) hafter.1 h.distinct,
    forall_update (Q := Accounted P registries events vecs) hafter.2 h.added,
    fun result hresult => ?_⟩
  obtain ⟨hprefixed, hregistered, hrest⟩ := h.returned result hresult
  exact ⟨hprefixed, mem_update (subset_register hP _ c) hregistered, hrest⟩

/-- Each step keeps what the calls share, over the vectors that it asks for. -/
theorem inv_step (hP : Documented P) (h : Inv P registries events s vecs) {e : Event}
    (he : e ∈ events ∧ e.Plain) : Inv P registries events (step P s e) (vecs ++ asks s e) := by
  cases e with
  | call c => exact h.call c
  | go i =>
    rw [asks, List.append_nil]
    exact h.go hP i
  | register k c =>
    rw [asks, List.append_nil]
    exact h.register hP he.1 he.2

/-- A process that has made nothing. -/
theorem inv_initial (hdistinct : ∀ k, Distinct (P.collectors (registries k))) :
    Inv P registries events (initial registries) [] :=
  ⟨rfl, nofun, hdistinct, fun _ _ => .inl, nofun⟩

/-- A `simsys_` name stands in one of the collectors. -/
theorem Distinct.eq_of_describes {collectors : List Collector} (h : Distinct collectors)
    {a b : Collector} (ha : a ∈ collectors) (hb : b ∈ collectors) {name : String}
    (hprefixed : Prefixed name) (hname : a.describes name = true)
    (hname' : b.describes name = true) : a = b := by
  have hsymm : Std.Symm fun a b : Collector =>
      ∀ d ∈ a.descs, ∀ d' ∈ b.descs, d.fqName = d'.fqName → ¬ Prefixed d.fqName :=
    ⟨fun a b h d hd d' hd' heq => heq ▸ h d' hd' d hd heq.symm⟩
  by_contra hne
  obtain ⟨d, hd, hd_name⟩ := List.any_eq_true.mp hname
  obtain ⟨d', hd', hd'_name⟩ := List.any_eq_true.mp hname'
  have hd_name : d.fqName = name := of_decide_eq_true hd_name
  have hnames : d.fqName = d'.fqName := hd_name.trans (of_decide_eq_true hd'_name).symm
  exact h.forall ha hb hne d hd d' hd' hnames (hd_name.symm ▸ hprefixed)

/-- Whatever the goroutines do with handles of registries in which no two collectors have one
`simsys_` name at the start, if those that others register have no constant labels:
1. Each name has one warning, that of the first call with it whose labels lack `service`, if there
   is one.
2. All that the factories add to a registry has the prefix, and the label `service` or a warning.
3. All calls that return for one registry and name return one vector, which is registered. -/
theorem factories_share (hP : Documented P) (registries : ℕ → R)
    (hdistinct : ∀ k, Distinct (P.collectors (registries k))) (events : List Event)
    (hplain : ∀ e ∈ events, e.Plain) :
    let s := run (step P) (initial registries) events
    let vecs := trace (step P) asks (initial registries) events
    (∀ name, s.warned.reports.filter (·.name = name) =
      (((vecs.filter Vec.missing).find? (·.name = name)).map Vec.warning).toList) ∧
    (∀ k, ∀ c ∈ P.collectors (s.registries k), c ∈ P.collectors (registries k) ∨
      .register k c ∈ events ∨ ∃ v ∈ vecs, c.toPrototype = v.prototype ∧ Prefixed v.name ∧
        ("service" ∈ v.labels ∨ ∃ w ∈ s.warned.reports, w.name = v.name)) ∧
    ∀ r ∈ s.returned, r.2 ∈ P.collectors (s.registries r.1.registry) ∧
      r.2.goType = r.1.vec.goType ∧
      ∀ r' ∈ s.returned, r'.1.registry = r.1.registry → r'.1.vec.name = r.1.vec.name →
        r'.2 = r.2 := by
  intro s vecs
  have hinv : Inv P registries events s vecs := by
    have halong : Along (step P) (fun _ e => e ∈ events ∧ e.Plain) (initial registries) events :=
      Lib.along_of_mem fun e he => ⟨he, hplain e he⟩
    exact Lib.invariant_trace_along (I := Inv P registries events)
      (fun _ _ _ h he => inv_step hP h he) (inv_initial hdistinct) halong
  refine ⟨fun name => ?_, fun k c hc => ?_, fun r hr => ?_⟩
  · rw [hinv.warned, Reporter.filter_reportAll, List.find?_map]
    rfl
  · refine (hinv.added k c hc).imp_right fun hadded =>
      hadded.imp_right fun ⟨v, hv, hproto, hprefixed⟩ => ?_
    refine ⟨v, hv, hproto, hprefixed, ?_⟩
    -- A vector without the label `service` was reported by the first call with its name.
    by_cases hservice : "service" ∈ v.labels
    · exact .inl hservice
    · have hwarned : v.warning ∈ (vecs.filter Vec.missing).map Vec.warning :=
        List.mem_map_of_mem (List.mem_filter.mpr ⟨hv, decide_eq_true hservice⟩)
      rw [hinv.warned]
      exact .inr (Reporter.exists_report _ hwarned)
  · obtain ⟨hprefixed, hmem, htype, hdescribes⟩ := hinv.returned r hr
    refine ⟨hmem, htype, fun r' hr' hregistry hname => ?_⟩
    obtain ⟨-, hmem', -, hdescribes'⟩ := hinv.returned r' hr'
    rw [hregistry] at hmem'
    rw [hname] at hdescribes'
    exact (hinv.distinct _).eq_of_describes hmem' hmem hprefixed hdescribes' hdescribes

end Steps

/-! ## A registry with the collectors of `Install` -/

/-- A registry does what is documented. -/
theorem documented_client : Documented Registerer.client where
  registered := by
    intro r r' c h
    rcases r.register_cases c with ⟨_, _, _, heq⟩ | ⟨hseparate, hconsistent, heq⟩ | ⟨_, heq⟩ <;>
      obtain ⟨herr, rfl⟩ := Prod.mk.inj (heq.symm.trans h)
    · cases herr
    · refine ⟨rfl, fun d hd hconst e he d' hd' hname => ?_⟩
      -- Without constant labels, a metric is told apart by its name alone.
      have hremembered := List.mem_append_left c.descs (r.covered e he d' hd')
      obtain ⟨-, hlabels, -⟩ := hconsistent d' hremembered d hd hname
      have hnone : d'.constLabels = [] := by
        rw [hconst, List.map_nil] at hlabels
        exact List.map_eq_nil_iff.mp hlabels.eq_nil
      refine hseparate e he d' hd' d hd ?_
      rw [Desc.id, Desc.id, hname, hnone, hconst]
    · cases herr
  refused := by
    intro r r' c err h
    rcases r.register_cases c with ⟨_, _, _, heq⟩ | ⟨_, _, heq⟩ | ⟨_, heq⟩ <;>
      obtain ⟨herr, rfl⟩ := Prod.mk.inj (heq.symm.trans h)
    · rfl
    · cases herr
    · rfl
  existing := by
    intro r r' c e h
    rcases r.register_cases c with ⟨e', he', hsame, heq⟩ | ⟨_, _, heq⟩ | ⟨_, heq⟩ <;>
      obtain ⟨herr, rfl⟩ := Prod.mk.inj (heq.symm.trans h)
    · obtain rfl := RegisterError.alreadyRegistered.inj (Option.some.inj herr)
      refine ⟨he', fun name hname => ?_⟩
      obtain ⟨d, hd, hd_name⟩ := List.any_eq_true.mp hname
      obtain ⟨d', hd', hid⟩ := List.mem_map.mp (hsame.2.2 d hd)
      have hd'_name : d'.fqName = d.fqName := congrArg Prod.fst hid
      exact List.any_eq_true.mpr ⟨d', hd', hd'_name.symm ▸ hd_name⟩
    · cases herr
    · cases herr

/-- A registry after `Install`. -/
def installed : ClientRegistry :=
  prototypes.foldl (fun r p => (r.register ⟨p, 0⟩).2) .empty

/-- A gauge of `Install`. -/
def poolMax : Vec := makeGauge "simsys_pool_max" "Maximum pool size." ["service", "pool"]

/-- Two goroutines that make one counter without the label `service`, a third one with a bare name,
and one that makes a gauge of `Install` again, while `Install` registers it again. -/
def fourCalls : List Event :=
  [.call ⟨0, makeCounter "simsys_orders_total" "Orders." ["shop"]⟩,
    .call ⟨0, makeCounter "simsys_orders_total" "Orders." ["shop"]⟩,
    .call ⟨0, makeGauge "orders" "Orders." ["service"]⟩, .call ⟨0, poolMax⟩, .go 1,
    .register 0 ⟨poolMax.prototype, 1⟩, .go 1, .go 0, .go 0]

/-- The two share it, and there is one warning. -/
theorem factories_share_counters :
    let s := run (step .client) (initial fun _ => installed) fourCalls
    s.returned.map (fun r => (r.1.vec.name, r.2.goType)) =
        [("simsys_orders_total", .counterVec), ("simsys_orders_total", .counterVec),
          ("simsys_pool_max", .gaugeVec)] ∧
      (∀ r ∈ s.returned, ∀ r' ∈ s.returned, r'.1.registry = r.1.registry →
        r'.1.vec.name = r.1.vec.name → r'.2 = r.2) ∧
      s.warned.reports.filter (·.name = "simsys_orders_total") =
        [⟨"simsys_orders_total", ["shop"]⟩] := by
  have hnames : (run (step .client) (initial fun _ => installed) fourCalls).returned.map
      (fun r => (r.1.vec.name, r.2.goType)) =
        [("simsys_orders_total", .counterVec), ("simsys_orders_total", .counterVec),
          ("simsys_pool_max", .gaugeVec)] := by
    decide +kernel
  obtain ⟨hwarnings, -, hreturned⟩ := factories_share documented_client (fun _ => installed)
    (fun _ => by decide +kernel) fourCalls (by decide +kernel)
  have hwarning := (hwarnings "simsys_orders_total").trans
    (c := [⟨"simsys_orders_total", ["shop"]⟩]) (by decide +kernel)
  -- The run itself is of no interest from here on.
  generalize run (step .client) (initial fun _ => installed) fourCalls = s
    at hnames hreturned hwarning ⊢
  refine ⟨hnames, fun r hr r' hr' => ?_, hwarning⟩
  obtain ⟨-, -, hone⟩ := hreturned r hr
  exact hone r' hr'

end SimsysMetrics.Go.Installs.Factories
