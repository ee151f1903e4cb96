import SimsysMetrics.Go.Install
import SimsysMetrics.Lib.SharedLog

/-!
# The collectors of `Install` and their registration

The collectors that `Install` of `go/metrics.go` registers, with the descriptors that their
constructors are given, and `registerOrExistingWithStatus` of `go/registry.go` with its panics.

`prometheus.Registry` is another library: `Registerer` has what its `Register` is documented to do,
and `ClientRegistry` is a registry that does so. A registry remembers the help and the labels of all
metrics that it ever had, also of collectors that were unregistered, and refuses a collector that
differs from them.

On a registry that holds no other collector with a `simsys_` name, and remembers none that differs,
the collectors of `Install`, which are registered in one order, are a log that the calls write
together: a registration takes the entry of its position, or appends it, and does not panic
(`registerOrExisting_eq_propose`).
-/

namespace SimsysMetrics.Go.Installs

open Lib (propose)

/-! ## Collectors -/

/-- `prometheus.Desc`. -/
structure Desc where
  fqName : String
  help : String
  constLabels : List (String × String)
  variableLabels : List String
deriving DecidableEq

/-- What tells a metric apart in a registry: its name, and the values of its constant labels. -/
def Desc.id (d : Desc) : String × List String := (d.fqName, d.constLabels.map (·.2))

/-- Two descriptors of one name have one help and the same labels. -/
def Desc.Consistent (d d' : Desc) : Prop :=
  d.fqName = d'.fqName → d.help = d'.help ∧
    (d.constLabels.map (·.1)).Perm (d'.constLabels.map (·.1)) ∧
    d.variableLabels.Perm d'.variableLabels

instance (d d' : Desc) : Decidable (d.Consistent d') := by
  unfold Desc.Consistent
  infer_instance

/-- It does not matter which of two descriptors comes first. -/
theorem Desc.Consistent.symm {d d' : Desc} (h : d.Consistent d') : d'.Consistent d := by
  intro hname
  obtain ⟨hhelp, hconst, hvariable⟩ := h hname.symm
  exact ⟨hhelp.symm, hconst.symm, hvariable.symm⟩

/-- The types of collectors. -/
inductive GoType where
  | counterVec
  | gaugeVec
  | histogramVec
  | simsysProcessCollector
  /-- Of another library. -/
  | other (name : String)
deriving DecidableEq

/-- What a collector is constructed as. -/
structure Prototype where
  goType : GoType
  descs : List Desc
deriving DecidableEq

/-- A collector; `creator` is the call of `Install` that constructed it, which tells two objects
apart. -/
structure Collector extends Prototype where
  creator : ℕ
deriving DecidableEq

/-- Two collectors describe no metric of one name. -/
def Prototype.Disjoint (a b : Prototype) : Prop :=
  ∀ d ∈ a.descs, ∀ d' ∈ b.descs, d.fqName ≠ d'.fqName

instance (a b : Prototype) : Decidable (a.Disjoint b) :=
  inferInstanceAs (Decidable (∀ d ∈ a.descs, ∀ d' ∈ b.descs, d.fqName ≠ d'.fqName))

/-- Whether a collector describes a metric of a name. -/
def Prototype.describes (name : String) (p : Prototype) : Bool := p.descs.any (·.fqName = name)

/-- The names of metrics and of labels that a registry accepts in any of its versions; those of
metrics may have a colon. -/
def legalName (colon : Bool) (name : String) : Bool :=
  match name.toList with
  | [] => false
  | c :: cs =>
    let legal (c : Char) := c = '_' || colon && c = ':'
    (c.isAlpha || legal c) && cs.all fun c => c.isAlphanum || legal c

/-- A descriptor that is consistent in itself. -/
def Desc.Valid (d : Desc) : Prop :=
  legalName true d.fqName ∧ d.help ≠ "" ∧ d.constLabels = [] ∧ d.variableLabels.Nodup ∧
    ∀ label ∈ d.variableLabels, legalName false label ∧ ¬ "__".toList <+: label.toList

instance (d : Desc) : Decidable d.Valid := by
  unfold Desc.Valid
  infer_instance

/-- A collector whose descriptors are consistent in themselves. -/
def Prototype.Valid (p : Prototype) : Prop :=
  p.descs ≠ [] ∧ (∀ d ∈ p.descs, d.Valid) ∧ (p.descs.map (·.fqName)).Nodup

instance (p : Prototype) : Decidable p.Valid := by
  unfold Prototype.Valid
  infer_instance

/-! ## The collectors of `Install` -/

/-- `PREFIX`. -/
def PREFIX : String := "simsys_"

/-- The name of a metric of this library. -/
def Prefixed (name : String) : Prop := PREFIX.toList <+: name.toList

instance (name : String) : Decidable (Prefixed name) :=
  inferInstanceAs (Decidable (PREFIX.toList <+: name.toList))

/-- The options of a vector. -/
structure VecOpts where
  goType : GoType
  family : Family
  help : String
  labels : List String
deriving DecidableEq

/-- The vector of some options. -/
def VecOpts.prototype (opts : VecOpts) : Prototype :=
  ⟨opts.goType, [⟨opts.family.name, opts.help, [], opts.labels⟩]⟩

/-- `simsys_build_info`. -/
def buildInfoOpts : VecOpts :=
  ⟨.gaugeVec, .buildInfo,
    "Service build information. Always equal to 1; read labels for actual data.",
    ["service", "version", "commit", "started_at"]⟩

/-- The vectors that `MakeCounter`, `MakeGauge` and `MakeHistogram` make after it, in order. -/
def baseline : List VecOpts :=
  [⟨.counterVec, .httpRequestsTotal, "Total HTTP requests handled, bucketed by status class.",
      ["service", "method", "route", "status"]⟩,
    ⟨.histogramVec, .httpRequestDurationSeconds,
      "HTTP request duration in seconds, labelled by route template.",
      ["service", "method", "route"]⟩,
    ⟨.gaugeVec, .queueDepth, "Current depth of an application-owned queue.", ["service", "queue"]⟩,
    ⟨.counterVec, .collectorErrorsTotal,
      "Poller callback failures, by collector kind and tracked name.",
      ["service", "collector", "name"]⟩,
    ⟨.counterVec, .jobsTotal, "Jobs completed, labelled by name and outcome (success/error).",
      ["service", "job", "outcome"]⟩,
    ⟨.histogramVec, .jobDurationSeconds, "Job duration in seconds.", ["service", "job", "outcome"]⟩,
    ⟨.counterVec, .progressProcessedTotal,
      "Items completed in a batch operation (monotonic counter).", ["service", "operation"]⟩,
    ⟨.gaugeVec, .progressRemaining, "Items not yet completed in a batch operation.",
      ["service", "operation"]⟩,
    ⟨.gaugeVec, .progressRatePerSecond, "EWMA-smoothed processing rate in items per second.",
      ["service", "operation"]⟩,
    ⟨.gaugeVec, .progressEstimatedCompletionTimestamp,
      "Estimated completion time as a Unix timestamp (0 when unknown).", ["service", "operation"]⟩,
    ⟨.gaugeVec, .poolActive, "Number of active (checked-out) connections in a pool.",
      ["service", "pool"]⟩,
    ⟨.gaugeVec, .poolIdle, "Number of idle connections in a pool.", ["service", "pool"]⟩,
    ⟨.gaugeVec, .poolWaiting, "Number of requests waiting for a pool connection.",
      ["service", "pool"]⟩,
    ⟨.gaugeVec, .poolMax, "Maximum pool size.", ["service", "pool"]⟩,
    ⟨.counterVec, .scrapeErrorsTotal, "Errors encountered while generating the /metrics response.",
      ["service"]⟩,
    ⟨.gaugeVec, .scrapeDurationSeconds, "Time taken to generate the /metrics response.",
      ["service"]⟩]

/-- `newSimsysProcessCollector`, without the process that it reads. -/
def processCollector : Prototype :=
  ⟨.simsysProcessCollector,
    [⟨"simsys_process_cpu_seconds_total", "Process CPU time (user + system) in seconds.", [],
        ["service"]⟩,
      ⟨"simsys_process_memory_bytes",
        "Process memory in bytes; type=rss (resident) or vms (virtual).", [], ["service", "type"]⟩,
      ⟨"simsys_process_open_fds", "Number of open file descriptors.", [], ["service"]⟩,
      ⟨"simsys_process_threads", "Number of OS threads in the process.", [], ["service"]⟩,
      ⟨"simsys_runtime_goroutines", "Number of live goroutines.", [], ["service"]⟩,
      ⟨"simsys_runtime_gc_collections_total", "Total number of completed GC cycles.", [],
        ["service"]⟩,
      ⟨"simsys_runtime_gc_pause_total_seconds",
        "Cumulative time spent in GC stop-the-world pauses.", [], ["service"]⟩]⟩

/-- All collectors of `Install`, in the order of their registration. -/
def prototypes : List Prototype :=
  (buildInfoOpts :: baseline).map (·.prototype) ++ [processCollector]

/-- The families of the vectors are those of the sequential model. -/
theorem map_family_baseline : baseline.map (·.family) = baselineFamilies := by
  rfl

/-- All names have the prefix. -/
theorem prefixed_of_mem : ∀ p ∈ prototypes, ∀ d ∈ p.descs, Prefixed d.fqName := by
  decide +kernel

/-- The collectors are consistent in themselves. -/
theorem valid_of_mem : ∀ p ∈ prototypes, p.Valid := by
  decide +kernel

/-- No two of them describe metrics of one name. -/
theorem pairwise_disjoint : prototypes.Pairwise Prototype.Disjoint := by
  decide +kernel

/-- What a registry remembers agrees with the collectors of `Install`, where it has their names. -/
def Compatible (remembered : List Desc) : Prop :=
  ∀ d ∈ remembered, ∀ p ∈ prototypes, ∀ d' ∈ p.descs, d.Consistent d'

instance (remembered : List Desc) : Decidable (Compatible remembered) :=
  inferInstanceAs (Decidable (∀ d ∈ remembered, ∀ p ∈ prototypes, ∀ d' ∈ p.descs, d.Consistent d'))

/-- They agree with each other. -/
theorem compatible_descs : ∀ p ∈ prototypes, Compatible p.descs := by
  decide +kernel

/-- What is remembered in two parts. -/
theorem Compatible.append {remembered descs : List Desc} (h : Compatible remembered)
    (hdescs : Compatible descs) : Compatible (remembered ++ descs) := by
  intro d hd
  rcases List.mem_append.mp hd with hd | hd
  · exact h d hd
  · exact hdescs d hd

/-- A name stands in one of them only. -/
theorem eq_of_not_disjoint {i j : ℕ} {a b : Prototype} (ha : prototypes[i]? = some a)
    (hb : prototypes[j]? = some b) (hab : ¬ a.Disjoint b) : i = j := by
  obtain ⟨hi, rfl⟩ := List.getElem?_eq_some_iff.mp ha
  obtain ⟨hj, rfl⟩ := List.getElem?_eq_some_iff.mp hb
  have hpairwise := List.pairwise_iff_getElem.mp pairwise_disjoint
  rcases lt_trichotomy i j with hlt | heq | hgt
  · exact absurd (hpairwise i j hi hj hlt) hab
  · exact heq
  · refine absurd (fun d hd d' hd' hname => ?_) hab
    exact hpairwise j i hj hi hgt d' hd' d hd hname.symm

/-- Collectors with the same descriptors share their names. -/
theorem Prototype.not_disjoint_of_eq {a b : Prototype} (hb : b.descs ≠ []) (h : a.descs = b.descs) :
    ¬ a.Disjoint b := by
  obtain ⟨d, hd⟩ := List.exists_mem_of_ne_nil b.descs hb
  intro hdisjoint
  exact hdisjoint d (h ▸ hd) d hd rfl

/-- A name stands in the collector that describes it. -/
theorem describes_iff {a b : Prototype} {name : String} (ha : a ∈ prototypes) (hb : b ∈ prototypes)
    (hname : a.describes name = true) : b.describes name = true ↔ b = a := by
  refine ⟨fun hname' => ?_, fun heq => heq ▸ hname⟩
  obtain ⟨i, hi⟩ := List.mem_iff_getElem?.mp ha
  obtain ⟨j, hj⟩ := List.mem_iff_getElem?.mp hb
  obtain ⟨d, hd, hd_name⟩ := List.any_eq_true.mp hname
  obtain ⟨d', hd', hd'_name⟩ := List.any_eq_true.mp hname'
  have hshared : ¬ b.Disjoint a := by
    intro hdisjoint
    have hsame : d'.fqName = d.fqName :=
      (of_decide_eq_true hd'_name).trans (of_decide_eq_true hd_name).symm
    exact hdisjoint d' hd' d hd hsame
  obtain rfl := eq_of_not_disjoint hj hi hshared
  exact Option.some.inj (hj.symm.trans hi)

/-- The collectors are different. -/
theorem nodup_prototypes : prototypes.Nodup := by
  refine pairwise_disjoint.imp_of_mem fun {a b} _ hb hdisjoint heq => ?_
  exact Prototype.not_disjoint_of_eq (valid_of_mem b hb).1 (congrArg Prototype.descs heq) hdisjoint

/-! ## Registration -/

/-- Why a registration is refused. -/
inductive RegisterError where
  /-- `AlreadyRegisteredError`. -/
  | alreadyRegistered (existing : Collector)
  | other (text : String)
deriving DecidableEq

/-- `Register` of `prometheus.Registry`, over the states of a registry. -/
structure Registerer (R : Type) where
  /-- What is registered, in the order of the registrations. -/
  collectors : R → List Collector
  /-- The descriptors that were ever registered. -/
  remembered : R → List Desc
  register : R → Collector → Option RegisterError × R
  /-- A collector with the descriptors of a registered one is refused, with such a one. -/
  register_of_same : ∀ {r : R} {c e : Collector}, c.descs ≠ [] → e ∈ collectors r →
    e.descs = c.descs → ∃ existing ∈ collectors r, existing.descs = c.descs ∧
      register r c = (some (.alreadyRegistered existing), r)
  /-- A collector that is consistent in itself and with all that was ever registered, and describes
  no metric whose name is registered, is registered. -/
  register_of_new : ∀ {r : R} {c : Collector}, c.Valid →
    (∀ e ∈ collectors r, e.Disjoint c.toPrototype) →
    (∀ d ∈ remembered r, ∀ d' ∈ c.descs, d.Consistent d') →
      ∃ r', register r c = (none, r') ∧ collectors r' = collectors r ++ [c] ∧
        remembered r' = remembered r ++ c.descs

/-- A panic. -/
inductive Panic where
  /-- Of `guardName`. -/
  | unguarded (text : String)
  /-- Of `registerOrExistingWithStatus`. -/
  | register (err : RegisterError)
  /-- Of `WithLabelValues`, where the labels are more or fewer than the values. -/
  | labelValues
  /-- Of `WithLabelValues`, where a value is not valid UTF-8. -/
  | notUtf8
  /-- A vector of the handle is missing. -/
  | nilVec
deriving DecidableEq

/-- `guardName`. -/
def guardName (name : String) : Except Panic String :=
  if Prefixed name then .ok name
  else .error (.unguarded ("simsys-metrics refuses to register metric " ++ name.quote ++
    ": all metric names must start with " ++ PREFIX.quote))

section Register

variable {R : Type} (P : Registerer R)

/-- `registerOrExistingWithStatus`: the registered collector, whether it is the given one, and the
registry after that. -/
def registerOrExistingWithStatus (r : R) (c : Collector) :
    Except Panic ((Collector × Bool) × R) :=
  match P.register r c with
  | (none, r') => .ok ((c, true), r')
  | (some (.alreadyRegistered existing), r') =>
    if existing.goType = c.goType then .ok ((existing, false), r')
    else .error (.register (.alreadyRegistered existing))
  | (some (.other text), _) => .error (.register (.other text))

/-- `MakeCounter`, `MakeGauge` and `MakeHistogram`, by a call of `Install`, and what it does for the
build info. -/
def makeVec (r : R) (creator : ℕ) (opts : VecOpts) : Except Panic ((Collector × Bool) × R) := do
  let _ ← guardName opts.family.name
  registerOrExistingWithStatus P r ⟨opts.prototype, creator⟩

/-- A registry without collectors of this library. -/
def Fresh (collectors : List Collector) : Prop :=
  ∀ c ∈ collectors, ∀ d ∈ c.descs, ¬ Prefixed d.fqName

instance (collectors : List Collector) : Decidable (Fresh collectors) :=
  inferInstanceAs (Decidable (∀ c ∈ collectors, ∀ d ∈ c.descs, ¬ Prefixed d.fqName))

variable {P} {initial log : List Collector} {p : ℕ} {proto : Prototype} {r : R}

/-- An entry of the log is the collector of its position. -/
theorem getElem?_prototypes (hlog : log.map (·.toPrototype) <+: prototypes) {i : ℕ} {e : Collector}
    (hi : log[i]? = some e) : prototypes[i]? = some e.toPrototype := by
  have hmap : (log.map (·.toPrototype))[i]? = some e.toPrototype := by
    rw [List.getElem?_map, hi]
    rfl
  obtain ⟨hlt, -⟩ := List.getElem?_eq_some_iff.mp hmap
  obtain ⟨rest, hrest⟩ := hlog
  rw [← hrest, List.getElem?_append_left hlt, hmap]

/-- The collectors of a fresh registry share no name with those of `Install`. -/
theorem Fresh.disjoint (h : Fresh initial) {e : Collector} (he : e ∈ initial)
    (hproto : proto ∈ prototypes) : e.Disjoint proto := by
  intro d hd d' hd' hname
  exact h e he d hd (hname ▸ prefixed_of_mem proto hproto d' hd')

/-- On a registry that was fresh, a registration takes its entry of the log, or appends it. -/
theorem registerOrExisting_eq_propose (creator : ℕ) (hfresh : Fresh initial)
    (hregistered : P.collectors r = initial ++ log) (hcompatible : Compatible (P.remembered r))
    (hlog : log.map (·.toPrototype) <+: prototypes) (hp : p ≤ log.length)
    (hproto : prototypes[p]? = some proto) :
    ∃ r', registerOrExistingWithStatus P r ⟨proto, creator⟩ =
        .ok ((propose log p ⟨proto, creator⟩).1, r') ∧
      P.collectors r' = initial ++ (propose log p ⟨proto, creator⟩).2 ∧
      Compatible (P.remembered r') := by
  have hmem : proto ∈ prototypes := List.mem_of_getElem? hproto
  have hvalid := valid_of_mem proto hmem
  unfold registerOrExistingWithStatus propose
  cases hentry : log[p]? with
  | some chosen =>
    obtain rfl : chosen.toPrototype = proto := by
      exact Option.some.inj ((getElem?_prototypes hlog hentry).symm.trans hproto)
    have hchosen : chosen ∈ P.collectors r := by
      rw [hregistered]
      exact List.mem_append_right _ (List.mem_of_getElem? hentry)
    obtain ⟨existing, hexisting, hdescs, hregister⟩ :=
      P.register_of_same (c := ⟨chosen.toPrototype, creator⟩) hvalid.1 hchosen rfl
    have hshared := Prototype.not_disjoint_of_eq hvalid.1 hdescs
    -- The existing collector can only be the entry of this position.
    obtain rfl : existing = chosen := by
      rw [hregistered] at hexisting
      rcases List.mem_append.mp hexisting with hmem' | hmem'
      · exact absurd (hfresh.disjoint hmem' hmem) hshared
      · obtain ⟨i, hi⟩ := List.mem_iff_getElem?.mp hmem'
        obtain rfl := eq_of_not_disjoint (getElem?_prototypes hlog hi) hproto hshared
        exact Option.some.inj (hi.symm.trans hentry)
    rw [hregister]
    exact ⟨r, if_pos rfl, hregistered, hcompatible⟩
  | none =>
    have hlength : log.length = p := (List.getElem?_eq_none_iff.mp hentry).antisymm hp
    have hnew : ∀ e ∈ P.collectors r, e.Disjoint proto := by
      intro e he
      rw [hregistered] at he
      rcases List.mem_append.mp he with he | he
      · exact hfresh.disjoint he hmem
      · -- An earlier entry belongs to an earlier position.
        obtain ⟨i, hi⟩ := List.mem_iff_getElem?.mp he
        obtain ⟨hlt, -⟩ := List.getElem?_eq_some_iff.mp hi
        by_contra hshared
        have heq := eq_of_not_disjoint (getElem?_prototypes hlog hi) hproto hshared
        omega
    obtain ⟨r', hregister, hcollectors, hremembered⟩ :=
      P.register_of_new (c := ⟨proto, creator⟩) hvalid hnew fun d hd => hcompatible d hd proto hmem
    rw [hregister]
    refine ⟨r', rfl, by rw [hcollectors, hregistered, List.append_assoc], ?_⟩
    rw [hremembered]
    exact hcompatible.append (compatible_descs proto hmem)

end Register

/-! ## A registry that does so -/

/-- Two collectors share no metric. -/
def Prototype.Separate (a b : Prototype) : Prop := ∀ d ∈ a.descs, ∀ d' ∈ b.descs, d.id ≠ d'.id

instance (a b : Prototype) : Decidable (a.Separate b) :=
  inferInstanceAs (Decidable (∀ d ∈ a.descs, ∀ d' ∈ b.descs, d.id ≠ d'.id))

/-- Two collectors have the same metrics, and have some. -/
def Prototype.Same (a b : Prototype) : Prop :=
  b.descs ≠ [] ∧ (∀ d ∈ a.descs, d.id ∈ b.descs.map Desc.id) ∧
    ∀ d ∈ b.descs, d.id ∈ a.descs.map Desc.id

instance (a b : Prototype) : Decidable (a.Same b) := by
  unfold Prototype.Same
  infer_instance

/-- A `prometheus.Registry`: its collectors, and the descriptors that were ever registered. -/
structure ClientRegistry where
  collectors : List Collector
  remembered : List Desc
  separate : collectors.Pairwise fun a b => a.Separate b.toPrototype
  covered : ∀ c ∈ collectors, ∀ d ∈ c.descs, d ∈ remembered
  consistent : ∀ d ∈ remembered, ∀ d' ∈ remembered, d.Consistent d'

namespace ClientRegistry

/-- A registry without collectors. -/
def empty : ClientRegistry := ⟨[], [], .nil, nofun, nofun⟩

/-- A collector that is new, and consistent with what is remembered, is added. -/
def add (r : ClientRegistry) (c : Collector)
    (hseparate : ∀ e ∈ r.collectors, e.Separate c.toPrototype)
    (hconsistent : ∀ d ∈ r.remembered ++ c.descs, ∀ d' ∈ c.descs, d.Consistent d') :
    ClientRegistry where
  collectors := r.collectors ++ [c]
  remembered := r.remembered ++ c.descs
  separate := by
    refine List.pairwise_append.mpr ⟨r.separate, List.pairwise_singleton _ _, fun e he e' he' => ?_⟩
    obtain rfl := List.mem_singleton.mp he'
    exact hseparate e he
  covered := by
    intro e he d hd
    rcases List.mem_append.mp he with he | he
    · exact List.mem_append_left _ (r.covered e he d hd)
    · obtain rfl := List.mem_singleton.mp he
      exact List.mem_append_right _ hd
  consistent := by
    intro d hd d' hd'
    rcases List.mem_append.mp hd' with hd' | hd'
    · rcases List.mem_append.mp hd with hd | hd
      · exact r.consistent d hd d' hd'
      · exact (hconsistent d' (List.mem_append_left _ hd') d hd).symm
    · exact hconsistent d hd d' hd'

/-- `Register`, of a collector whose descriptors have no error. -/
def register (r : ClientRegistry) (c : Collector) : Option RegisterError × ClientRegistry :=
  if hconsistent : ∀ d ∈ r.remembered ++ c.descs, ∀ d' ∈ c.descs, d.Consistent d' then
    match r.collectors.find? fun e => e.Same c.toPrototype with
    | some existing => (some (.alreadyRegistered existing), r)
    | none =>
      if hseparate : ∀ e ∈ r.collectors, e.Separate c.toPrototype then
        (none, r.add c hseparate hconsistent)
      else (some (.other "already exists with the same fully-qualified name"), r)
  else (some (.other "has different label names or a different help string"), r)

/-- `Unregister`: what was registered is remembered. -/
def unregister (r : ClientRegistry) (c : Prototype) : ClientRegistry where
  collectors := r.collectors.filter fun e => ¬ e.Same c
  remembered := r.remembered
  separate := r.separate.filter _
  covered := fun e he => r.covered e (List.mem_of_mem_filter he)
  consistent := r.consistent

variable {r r' : ClientRegistry} {c e : Collector}

/-- A collector has the same metrics as itself. -/
theorem same_self {p : Prototype} (h : p.descs ≠ []) : p.Same p :=
  ⟨h, fun _ hd => List.mem_map_of_mem hd, fun _ hd => List.mem_map_of_mem hd⟩

/-- No two of its collectors have the same metrics as a third one. -/
theorem eq_of_same (he : e ∈ r.collectors) (hc : c ∈ r.collectors) {p : Prototype}
    (he_same : e.Same p) (hc_same : c.Same p) : e = c := by
  have hsymm : Std.Symm fun a b : Collector => a.Separate b.toPrototype :=
    ⟨fun a b h d hd d' hd' heq => h d' hd' d hd heq.symm⟩
  by_contra hne
  obtain ⟨d, hd⟩ := List.exists_mem_of_ne_nil p.descs he_same.1
  obtain ⟨d₁, hd₁, heq₁⟩ := List.mem_map.mp (he_same.2.2 d hd)
  obtain ⟨d₂, hd₂, heq₂⟩ := List.mem_map.mp (hc_same.2.2 d hd)
  exact r.separate.forall he hc hne d₁ hd₁ d₂ hd₂ (heq₁.trans heq₂.symm)

/-- What it answers. -/
theorem register_cases (r : ClientRegistry) (c : Collector) :
    (∃ e ∈ r.collectors, e.Same c.toPrototype ∧ r.register c = (some (.alreadyRegistered e), r)) ∨
      (∃ hseparate hconsistent, r.register c = (none, r.add c hseparate hconsistent)) ∨
      ∃ text, r.register c = (some (.other text), r) := by
  by_cases hconsistent : ∀ d ∈ r.remembered ++ c.descs, ∀ d' ∈ c.descs, d.Consistent d'
  · rw [register, dif_pos hconsistent]
    cases hfind : r.collectors.find? fun e => e.Same c.toPrototype with
    | some existing =>
      have hsame := List.find?_some hfind
      exact .inl ⟨existing, List.mem_of_find?_eq_some hfind, of_decide_eq_true hsame, rfl⟩
    | none =>
      by_cases hseparate : ∀ e ∈ r.collectors, e.Separate c.toPrototype
      · exact .inr (.inl ⟨hseparate, hconsistent, dif_pos hseparate⟩)
      · exact .inr (.inr ⟨_, dif_neg hseparate⟩)
  · exact .inr (.inr ⟨_, dif_neg hconsistent⟩)

/-- A registered collector is refused again. -/
theorem register_of_same (hne : c.descs ≠ []) (he : e ∈ r.collectors) (hdescs : e.descs = c.descs) :
    r.register c = (some (.alreadyRegistered e), r) := by
  have hconsistent : ∀ d ∈ r.remembered ++ c.descs, ∀ d' ∈ c.descs, d.Consistent d' := by
    have hcovered : ∀ d ∈ c.descs, d ∈ r.remembered := fun d hd =>
      r.covered e he d (hdescs ▸ hd)
    intro d hd d' hd'
    refine r.consistent d ?_ d' (hcovered d' hd')
    exact (List.mem_append.mp hd).elim id (hcovered d)
  have hsame : e.Same c.toPrototype := by
    have hself := same_self (p := c.toPrototype) hne
    unfold Prototype.Same at hself ⊢
    rwa [hdescs]
  rw [register, dif_pos hconsistent]
  cases hfind : r.collectors.find? fun e => e.Same c.toPrototype with
  | none => exact absurd (decide_eq_true hsame) (List.find?_eq_none.mp hfind e he)
  | some existing =>
    have hsame' := List.find?_some hfind
    obtain rfl := eq_of_same (List.mem_of_find?_eq_some hfind) he (of_decide_eq_true hsame') hsame
    rfl

/-- A collector with new names that is consistent with what is remembered is registered. -/
theorem register_of_new (hvalid : c.Valid) (hnew : ∀ e ∈ r.collectors, e.Disjoint c.toPrototype)
    (hremembered : ∀ d ∈ r.remembered, ∀ d' ∈ c.descs, d.Consistent d') :
    ∃ r', r.register c = (none, r') ∧ r'.collectors = r.collectors ++ [c] ∧
      r'.remembered = r.remembered ++ c.descs := by
  obtain ⟨hne, -, hnames⟩ := hvalid
  have hconsistent : ∀ d ∈ r.remembered ++ c.descs, ∀ d' ∈ c.descs, d.Consistent d' := by
    intro d hd d' hd'
    rcases List.mem_append.mp hd with hd | hd
    · exact hremembered d hd d' hd'
    -- A name stands in one of its descriptors only.
    · intro hname
      obtain rfl := List.inj_on_of_nodup_map hnames hd hd' hname
      exact ⟨rfl, .rfl, .rfl⟩
  have hseparate : ∀ e ∈ r.collectors, e.Separate c.toPrototype := by
    intro e he d hd d' hd' hid
    exact hnew e he d hd d' hd' (congrArg Prod.fst hid)
  have hnone : r.collectors.find? (fun e => e.Same c.toPrototype) = none := by
    refine List.find?_eq_none.mpr fun e he hsame => ?_
    obtain ⟨d, hd⟩ := List.exists_mem_of_ne_nil c.descs hne
    obtain ⟨d', hd', hid⟩ := List.mem_map.mp ((of_decide_eq_true hsame).2.2 d hd)
    exact hseparate e he d' hd' d hd hid
  refine ⟨r.add c hseparate hconsistent, ?_, rfl, rfl⟩
  rw [register, dif_pos hconsistent, hnone]
  exact dif_pos hseparate

end ClientRegistry

/-- It does what is documented. -/
def Registerer.client : Registerer ClientRegistry where
  collectors := ClientRegistry.collectors
  remembered := ClientRegistry.remembered
  register := ClientRegistry.register
  register_of_same hne he hdescs :=
    ⟨_, he, hdescs, ClientRegistry.register_of_same hne he hdescs⟩
  register_of_new := ClientRegistry.register_of_new

end SimsysMetrics.Go.Installs
