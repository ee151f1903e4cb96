import SimsysMetrics.Lib.Copies
import SimsysMetrics.Lib.Reporter

/-!
# The factories of metrics

`make_counter`, `make_gauge` and `make_histogram` of `simsys_metrics/_registry.py`, and
`makeCounter`, `makeGauge` and `makeHistogram` of `node/src/registry.ts`. Each warns of a metric
without the label `service`, once for its name in a process, then refuses a name without the prefix,
and then calls the constructor of its client library, which registers the metric or throws. The
client library is a parameter; a constructor that throws may have registered something before. Calls
come one after another: nothing locks the names that `make_counter` and the others have warned of.

A name that is refused is warned of too. So the warnings follow from the calls alone
(`Kept.warnings`), whatever the client library does. The registry is what the constructors make of
the calls with the prefix (`Kept.registry`), and no metric without `service` gets there silently
(`Kept.reached`).

In Node the registry and the names that were warned of stand behind `globalThis`, which the copies
of the module share: it is initialised once (`copies_keep`).
-/

namespace SimsysMetrics.Factories

open Lib (Copies CopyEvent Reporter run trace)

/-- `PREFIX`. -/
def PREFIX : String := "simsys_"

/-- A name that the guards accept. -/
def Prefixed (name : String) : Prop := PREFIX.toList <+: name.toList

instance (name : String) : Decidable (Prefixed name) :=
  inferInstanceAs (Decidable (PREFIX.toList <+: name.toList))

/-- The class of the client library that a factory constructs, over the bounds of buckets. -/
inductive MetricType (β : Type) where
  | counter
  | gauge (multiprocessMode : Option String)
  | histogram (buckets : Option (List β))
deriving DecidableEq, Repr

/-- What a factory is called with. -/
structure Metric (β : Type) where
  type : MetricType β
  name : String
  help : String
  labels : List String
deriving DecidableEq, Repr

/-- What a warning is formatted with. -/
structure Warning where
  name : String
  labels : List String
deriving DecidableEq, Repr

/-- Why a factory throws. -/
inductive Refused (ε : Type) where
  /-- `simsys-metrics refuses to register metric`, with the name and the prefix. -/
  | unprefixed (name : String)
  /-- What the client library throws. -/
  | client (error : ε)
deriving DecidableEq, Repr

/-- A metric without the label `service`. -/
def Metric.missing {β : Type} (m : Metric β) : Bool := "service" ∉ m.labels

/-- The warning of a metric. -/
def Metric.warning {β : Type} (m : Metric β) : Warning := ⟨m.name, m.labels⟩

/-- The names that were warned of with the warnings, and the registry of the client library. -/
structure State (R : Type) where
  warned : Reporter String Warning
  registry : R

/-- `_guard_name` and `guardName`. -/
def guardName {ε : Type} (name : String) : Except (Refused ε) String :=
  if Prefixed name then .ok name else .error (.unprefixed name)

section Make

variable {R β ε : Type} (create : R → Metric β → Option ε × R)

/-- `_warn_if_missing_service` and `warnIfMissingService`. -/
def State.warnIfMissingService (s : State R) (name : String) (labels : List String) : State R :=
  if "service" ∈ labels then s
  else { s with warned := s.warned.report Warning.name ⟨name, labels⟩ }

/-- What the factories share; the constructor of the client library, `create`, gives what it throws,
if it does, and the registry after that. -/
def make (m : Metric β) (s : State R) : Except (Refused ε) Unit × State R :=
  let s := s.warnIfMissingService m.name m.labels
  match guardName m.name with
  | .error e => (.error e, s)
  | .ok name =>
    match create s.registry { m with name } with
    | (some e, registry) => (.error (.client e), { s with registry })
    | (none, registry) => (.ok (), { s with registry })

/-- The state after a call. -/
def step (s : State R) (m : Metric β) : State R := (make create m s).2

/-- The call, if it returns. -/
def accepts (s : State R) (m : Metric β) : List (Metric β) :=
  match (make create m s).1 with
  | .ok () => [m]
  | .error _ => []

/-- A process that has made nothing. -/
def State.initial (registry : R) : State R := ⟨.empty, registry⟩

/-! ## Runs -/

/-- What some calls keep. -/
structure Kept (initial : R) (calls : List (Metric β)) (s : State R)
    (accepted : List (Metric β)) : Prop where
  /-- Each name has one warning, that of the first call with it that lacks `service`, if there is
  one. -/
  warnings (name : String) : s.warned.reports.filter (·.name = name) =
    (((calls.filter Metric.missing).find? (·.name = name)).map Metric.warning).toList
  /-- The registry is what the constructors make of the calls with the prefix. -/
  registry : s.registry =
    run (fun registry m => (create registry m).2) initial (calls.filter (Prefixed ·.name))
  /-- These have a warning if they lack `service`. -/
  reached (m : Metric β) (hm : m ∈ calls) (hprefixed : Prefixed m.name)
    (hmissing : m.missing = true) : ∃ w ∈ s.warned.reports, w.name = m.name
  /-- Only these return. -/
  accepted (m : Metric β) (hm : m ∈ accepted) : m ∈ calls ∧ Prefixed m.name

variable {create} {s : State R}

/-- A call reports its name where it lacks the label. -/
theorem warned_make (s : State R) (m : Metric β) : (make create m s).2.warned =
    if m.missing then s.warned.report Warning.name m.warning else s.warned := by
  have hwarned : (s.warnIfMissingService m.name m.labels).warned =
      if m.missing then s.warned.report Warning.name m.warning else s.warned := by
    rw [State.warnIfMissingService, Metric.missing]
    by_cases hservice : "service" ∈ m.labels <;> simp [hservice, Metric.warning]
  rw [make, ← hwarned]
  cases guardName m.name with
  | error => rfl
  | ok name =>
    dsimp only
    split <;> rfl

/-- A call with the prefix leaves what the constructor makes of the registry, whether it throws or
not; any other leaves the registry. -/
theorem registry_make (s : State R) (m : Metric β) : (make create m s).2.registry =
    if Prefixed m.name then (create s.registry m).2 else s.registry := by
  have hregistry : (s.warnIfMissingService m.name m.labels).registry = s.registry := by
    rw [State.warnIfMissingService]
    split_ifs <;> rfl
  rw [make, guardName, ← hregistry]
  split_ifs with hprefixed
  · dsimp only
    cases create (s.warnIfMissingService m.name m.labels).registry m with
    | mk thrown registry => cases thrown <;> rfl
  · rfl

/-- A call that returns has the prefix. -/
theorem prefixed_of_mem_accepts {m m' : Metric β} (hm : m ∈ accepts create s m') :
    m = m' ∧ Prefixed m'.name := by
  rw [accepts, make, guardName] at hm
  by_cases hprefixed : Prefixed m'.name
  · refine ⟨?_, hprefixed⟩
    split at hm
    · exact List.mem_singleton.mp hm
    · cases hm
  · rw [if_neg hprefixed] at hm
    cases hm

/-- The warnings after some calls. -/
theorem warned_run (initial : R) (calls : List (Metric β)) :
    (run (step create) (.initial initial) calls).warned =
      Reporter.reportAll Warning.name ((calls.filter Metric.missing).map Metric.warning) := by
  induction calls using List.reverseRecOn with
  | nil => rfl
  | append_singleton calls m ih =>
    rw [Lib.run_concat, step, warned_make, ih, List.filter_append, List.map_append]
    split_ifs with hmissing
    · rw [← Reporter.reportAll_concat]
      simp [hmissing]
    · simp [hmissing]

/-- The registry after some calls. -/
theorem registry_run (initial : R) (calls : List (Metric β)) :
    (run (step create) (.initial initial) calls).registry =
      run (fun registry m => (create registry m).2) initial (calls.filter (Prefixed ·.name)) := by
  induction calls using List.reverseRecOn with
  | nil => rfl
  | append_singleton calls m ih =>
    rw [Lib.run_concat, step, registry_make, List.filter_append, Lib.run_append, ih]
    by_cases hprefixed : Prefixed m.name
    · have hlast : [m].filter (Prefixed ·.name) = [m] :=
        List.filter_cons_of_pos (decide_eq_true hprefixed)
      rw [if_pos hprefixed, hlast]
      rfl
    · have hlast : [m].filter (Prefixed ·.name) = [] :=
        List.filter_cons_of_neg (mt of_decide_eq_true hprefixed)
      rw [if_neg hprefixed, hlast]
      rfl

/-- A call that returned was made, with the prefix. -/
theorem prefixed_of_mem_trace {initial : R} {calls : List (Metric β)} {m : Metric β}
    (hm : m ∈ trace (step create) (accepts create) (.initial initial) calls) :
    m ∈ calls ∧ Prefixed m.name := by
  induction calls using List.reverseRecOn with
  | nil => cases hm
  | append_singleton calls last ih =>
    rw [Lib.trace_concat] at hm
    rcases List.mem_append.mp hm with hm | hm
    · obtain ⟨hmem, hprefixed⟩ := ih hm
      exact ⟨List.mem_append_left _ hmem, hprefixed⟩
    · obtain ⟨rfl, hprefixed⟩ := prefixed_of_mem_accepts hm
      exact ⟨List.mem_append_right _ (List.mem_singleton_self _), hprefixed⟩

/-- Of any calls, the ones with the prefix reach the client library, with a warning if they lack
`service`, and each name is warned of once. -/
theorem factories_keep (create : R → Metric β → Option ε × R) (initial : R)
    (calls : List (Metric β)) :
    Kept create initial calls (run (step create) (.initial initial) calls)
      (trace (step create) (accepts create) (.initial initial) calls) := by
  refine ⟨fun name => ?_, registry_run initial calls, fun m hm _ hmissing => ?_,
    fun m hm => prefixed_of_mem_trace hm⟩
  · rw [warned_run, Reporter.filter_reportAll, List.find?_map]
    rfl
  · rw [warned_run]
    have hwarned : m.warning ∈ (calls.filter Metric.missing).map Metric.warning :=
      List.mem_map_of_mem (List.mem_filter.mpr ⟨hm, hmissing⟩)
    exact Reporter.exists_report Warning.name hwarned

/-- The copies of the module are one module: what stands behind `globalThis` is initialised by the
first copy that is loaded, and by no other, and each copy shows what the calls through all of them
keep there. -/
theorem copies_keep (create : R → Metric β → Option ε × R) (initial : R)
    (events : List (CopyEvent (Metric β))) :
    let next := Copies.next (.initial initial) (step create)
    let p := run next .unloaded events
    let calls := trace next Copies.acts .unloaded events
    (p.copies = [] → p.cells = [] ∧ p.shared = none) ∧
    (p.copies ≠ [] → ∃ s, p.cells = [s] ∧ p.shared = some 0 ∧
      (∀ k : Fin p.copies.length, p.shows k = some s) ∧
      Kept create initial calls s
        (trace (step create) (accepts create) (.initial initial) calls)) := by
  intro next p calls
  obtain ⟨hunloaded, hloaded⟩ : (p.copies = [] → _) ∧ (p.copies ≠ [] → _) :=
    Copies.cells_run events
  refine ⟨hunloaded, fun hne => ?_⟩
  obtain ⟨hcells, hshared⟩ := hloaded hne
  exact ⟨_, hcells, hshared, fun k => Copies.shows_run events k.isLt,
    factories_keep create initial calls⟩

end Make

/-! ## The factories of the lanes -/

section Lanes

variable {R β ε : Type} (create : R → Metric β → Option ε × R)

namespace Python

/-- `make_counter`. -/
def makeCounter (name documentation : String) (labelnames : List String) :
    State R → Except (Refused ε) Unit × State R :=
  make create ⟨.counter, name, documentation, labelnames⟩

/-- `make_gauge`. -/
def makeGauge (name documentation : String) (labelnames : List String)
    (multiprocessMode : Option String) : State R → Except (Refused ε) Unit × State R :=
  make create ⟨.gauge multiprocessMode, name, documentation, labelnames⟩

/-- `make_histogram`. -/
def makeHistogram (name documentation : String) (labelnames : List String)
    (buckets : Option (List β)) : State R → Except (Refused ε) Unit × State R :=
  make create ⟨.histogram buckets, name, documentation, labelnames⟩

end Python

namespace Node

/-- `makeCounter`. -/
def makeCounter (name help : String) (labelNames : List String) :
    State R → Except (Refused ε) Unit × State R :=
  make create ⟨.counter, name, help, labelNames⟩

/-- `makeGauge`. -/
def makeGauge (name help : String) (labelNames : List String) :
    State R → Except (Refused ε) Unit × State R :=
  make create ⟨.gauge none, name, help, labelNames⟩

/-- `makeHistogram`. -/
def makeHistogram (name help : String) (labelNames : List String) (buckets : Option (List β)) :
    State R → Except (Refused ε) Unit × State R :=
  make create ⟨.histogram buckets, name, help, labelNames⟩

end Node

end Lanes

end SimsysMetrics.Factories
