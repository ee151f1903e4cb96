import Mathlib.Algebra.Order.Field.Rat
import SimsysMetrics.Go.Collectors
import SimsysMetrics.Lib.Runs
import SimsysMetrics.Lib.Samples

/-!
# Concurrent calls of `Install` on one registry

Any number of calls of `Install` of `go/metrics.go` on one registry, in any order of their steps.
The section under the lock of `recordServiceIdentity`, each registration and each write of a sample
is one step.

On a registry without collectors of this library, the calls share the log of its collectors, and
each has taken the first entries of it (`System.Inv`). So no call panics, all handles have the same
vectors, and a call whose build info is new has written the first entry: there is one such call, and
it alone sets the build info (`installs_share_baseline`).

There are two conditions. A registry that had other collectors with these names remembers their help
and labels although they were unregistered, and a registration panics. And a service, a version and
a commit that are not valid UTF-8 are accepted, but `WithLabelValues` panics on them; where the call
has registered the build info, no later one sets it (`installs_may_panic`).
-/

namespace SimsysMetrics.Go.Installs

open Lib (propose run Store)

/-! ## Texts -/

/-- A Go string: the characters that are read in it, and the bytes that are part of none. -/
structure Text where
  read : List (Char ⊕ UInt8)
deriving DecidableEq

/-- A text that is valid UTF-8. -/
def Text.ofString (s : String) : Text := ⟨s.toList.map .inl⟩

instance : Coe String Text := ⟨Text.ofString⟩

/-- `utf8.ValidString`. -/
def Text.Valid (t : Text) : Prop := ∀ x ∈ t.read, x.isLeft

instance (t : Text) : Decidable t.Valid :=
  inferInstanceAs (Decidable (∀ x ∈ t.read, x.isLeft))

/-- `strings.TrimSpace`; a byte that is part of no character is no white space. -/
def Text.trimSpace (t : Text) : Text := ⟨Lib.trimBy (Sum.elim isSpace fun _ => false) t.read⟩

/-- `InstallOpts`, without the registry. -/
structure InstallOpts where
  service : Text
  version : Text
  commit : Text
deriving DecidableEq

/-- What the runtime supplies to a call: what `detectCommit` returns, and the time it starts. -/
structure Env where
  detectedCommit : Text
  startedAt : String
deriving DecidableEq

/-- The service and the version of options that `Install` accepts, trimmed. -/
def InstallOpts.accepted (o : InstallOpts) : Option (Text × Text) :=
  let service := o.service.trimSpace
  let version := o.version.trimSpace
  if service = "" ∨ version = "" then none else some (service, version)

/-! ## The steps of a call -/

/-- One step of `Install`. -/
inductive Action where
  | recordServiceIdentity
  | registerBuildInfo
  /-- `MakeCounter`, `MakeGauge` or `MakeHistogram`. -/
  | make (opts : VecOpts)
  /-- `m.scrapeErrors.WithLabelValues(opts.Service).Add(0)`. -/
  | initScrapeErrors
  | registerProcessCollector
  /-- `m.buildInfo.WithLabelValues(..).Set(1)`, if the build info is new. -/
  | setBuildInfo
deriving DecidableEq

/-- The steps of `Install` with options that it accepts, in order. -/
def body : List Action :=
  [.recordServiceIdentity, .registerBuildInfo] ++ baseline.map .make ++
    [.initScrapeErrors, .registerProcessCollector, .setBuildInfo]

/-- What a step registers. -/
def Action.prototype : Action → Option Prototype
  | .registerBuildInfo => some buildInfoOpts.prototype
  | .make opts => some opts.prototype
  | .registerProcessCollector => some processCollector
  | .recordServiceIdentity | .initScrapeErrors | .setBuildInfo => none

/-- Where a call is. -/
inductive Status where
  /-- Before the step at this position. -/
  | running (pc : ℕ)
  | returned
  /-- Returned with an error. -/
  | failed (text : String)
  | panicked (p : Panic)
deriving DecidableEq

/-- A call of `Install`. -/
structure InstallCall where
  env : Env
  opts : InstallOpts
  /-- What `registerOrExisting` has returned, in order: the vectors of the handle, and the process
  collector, which is not kept. -/
  got : List Collector
  buildInfoIsNew : Bool
  status : Status

/-- The call begins. -/
def InstallCall.start (env : Env) (opts : InstallOpts) : InstallCall :=
  { env, opts, got := [], buildInfoIsNew := false
    status := if opts.accepted = none then .failed errInvalidInstallOpts else .running 0 }

/-- The service of the handle. -/
def InstallCall.service (call : InstallCall) : Text := call.opts.service.trimSpace

/-- The values of the labels of the build info. -/
def InstallCall.buildInfoLabels (call : InstallCall) : List Text :=
  [call.service, call.opts.version.trimSpace,
    if call.opts.commit = "" then call.env.detectedCommit else call.opts.commit, call.env.startedAt]

/-- What the call labels its samples with is valid UTF-8, if its options are accepted. -/
def InstallCall.Utf8 (call : InstallCall) : Prop :=
  call.opts.accepted ≠ none → ∀ value ∈ call.buildInfoLabels, value.Valid

instance (call : InstallCall) : Decidable call.Utf8 := by
  unfold InstallCall.Utf8
  infer_instance

/-- The field of the handle for a family. -/
def InstallCall.field (call : InstallCall) (family : Family) : Option Collector :=
  call.got.find? (·.describes family.name)

/-- The call keeps a collector. -/
def InstallCall.take (call : InstallCall) (c : Collector) : InstallCall :=
  { call with got := call.got ++ [c] }

/-- The step at a position is done. -/
def InstallCall.next (call : InstallCall) (pc : ℕ) : InstallCall :=
  { call with status := if pc + 1 = body.length then .returned else .running (pc + 1) }

/-- The next step of a call that runs, with its position. -/
def InstallCall.action (call : InstallCall) : Option (ℕ × Action) :=
  match call.status with
  | .running pc => body[pc]?.map (pc, ·)
  | .returned | .failed _ | .panicked _ => none

/-- A child of a vector. -/
structure Series where
  vec : Collector
  labelValues : List Text
deriving DecidableEq

/-- The labels of a vector. -/
def Prototype.variableLabels (p : Prototype) : List String :=
  (p.descs.head?.map (·.variableLabels)).getD []

/-- `WithLabelValues` on a field of a handle. -/
def withLabelValues (field : Option Collector) (labelValues : List Text) : Except Panic Series :=
  match field with
  | some vec =>
    if vec.variableLabels.length = labelValues.length then
      if ∀ value ∈ labelValues, value.Valid then .ok ⟨vec, labelValues⟩ else .error .notUtf8
    else .error .labelValues
  | none => .error .nilVec

/-! ## The calls together -/

/-- What the calls share: the registry, and the samples of the vectors. -/
structure World (R : Type) where
  registry : R
  samples : Store Series ℚ

/-- The calls, in the order in which they began, with what they share. -/
structure System (R : Type) where
  world : World R
  calls : List InstallCall

/-- A call begins, or goes on. -/
inductive Event where
  | install (env : Env) (opts : InstallOpts)
  | advance (k : ℕ)

/-- A call that begins labels its samples with valid UTF-8. -/
def Event.Utf8 : Event → Prop
  | .install env opts => (InstallCall.start env opts).Utf8
  | .advance _ => True

instance : DecidablePred Event.Utf8
  | .install env opts => inferInstanceAs (Decidable (InstallCall.start env opts).Utf8)
  | .advance _ => inferInstanceAs (Decidable True)

section System

variable {R : Type} (P : Registerer R)

/-- A step of the call at a position. -/
def exec (k : ℕ) (call : InstallCall) (w : World R) :
    Action → Except Panic (InstallCall × World R)
  -- It touches only what `service_identity.go` keeps, which no other step reads.
  | .recordServiceIdentity => .ok (call, w)
  | .registerBuildInfo =>
    (makeVec P w.registry k buildInfoOpts).map fun ((c, isNew), registry) =>
      ({ call.take c with buildInfoIsNew := isNew }, { w with registry })
  | .make opts =>
    (makeVec P w.registry k opts).map fun ((c, _), registry) => (call.take c, { w with registry })
  | .initScrapeErrors =>
    (withLabelValues (call.field .scrapeErrorsTotal) [call.service]).map fun series =>
      (call, { w with samples := w.samples.add series 0 })
  | .registerProcessCollector =>
    (registerOrExistingWithStatus P w.registry ⟨processCollector, k⟩).map
      fun ((c, _), registry) => (call.take c, { w with registry })
  | .setBuildInfo =>
    if call.buildInfoIsNew then
      (withLabelValues (call.field .buildInfo) call.buildInfoLabels).map fun series =>
        (call, { w with samples := w.samples.set series 1 })
    else .ok (call, w)

/-- The system after a step of the call at a position. -/
def advance (s : System R) (k : ℕ) (call : InstallCall) (pc : ℕ) (a : Action) : System R :=
  match exec P k call s.world a with
  | .ok (call', world) => ⟨world, s.calls.set k (call'.next pc)⟩
  | .error p => { s with calls := s.calls.set k { call with status := .panicked p } }

/-- One step of the system. -/
def step (s : System R) : Event → System R
  | .install env opts => { s with calls := s.calls ++ [.start env opts] }
  | .advance k =>
    match s.calls[k]?.bind fun call => call.action.map (call, ·) with
    | some (call, pc, a) => advance P s k call pc a
    | none => s

/-- A registry on which nothing was installed. -/
def launch (r : R) : System R := ⟨⟨r, fun _ => none⟩, []⟩

/-- A sample that is gathered from the registry, with its value. -/
def System.Gathers (s : System R) (series : Series) (v : ℚ) : Prop :=
  series.vec ∈ P.collectors s.world.registry ∧ s.world.samples series = some v

end System

/-! ## The positions of a call -/

/-- The steps register the collectors in their order. -/
theorem filterMap_body : body.filterMap Action.prototype = prototypes := by
  rfl

/-- How many collectors a call has registered before the step at a position. -/
def registrations (pc : ℕ) : ℕ := ((body.take pc).filterMap Action.prototype).length

section Positions

variable {pc : ℕ} {a : Action} {proto : Prototype}

/-- The steps up to and with the one at a position. -/
theorem take_succ_body (ha : body[pc]? = some a) : body.take (pc + 1) = body.take pc ++ [a] := by
  rw [List.take_add_one, ha]
  rfl

/-- A step that registers is the next registration. -/
theorem registrations_succ (ha : body[pc]? = some a) (hproto : a.prototype = some proto) :
    registrations (pc + 1) = registrations pc + 1 := by
  rw [registrations, take_succ_body ha, List.filterMap_append, List.length_append]
  simp [registrations, hproto]

/-- Other steps register nothing. -/
theorem registrations_succ_of_none (ha : body[pc]? = some a) (hproto : a.prototype = none) :
    registrations (pc + 1) = registrations pc := by
  rw [registrations, take_succ_body ha, List.filterMap_append, List.length_append]
  simp [registrations, hproto]

/-- A step registers one collector or none. -/
theorem registrations_le_succ (ha : body[pc]? = some a) :
    registrations pc ≤ registrations (pc + 1) := by
  cases hproto : a.prototype with
  | some proto =>
    rw [registrations_succ ha hproto]
    exact Nat.le_succ _
  | none => exact (registrations_succ_of_none ha hproto).ge

/-- The collector that a step registers is the next one. -/
theorem getElem?_registrations (ha : body[pc]? = some a) (hproto : a.prototype = some proto) :
    prototypes[registrations pc]? = some proto := by
  have hsplit : prototypes = (body.take pc).filterMap Action.prototype ++
      proto :: (body.drop (pc + 1)).filterMap Action.prototype := by
    calc prototypes = (body.take (pc + 1) ++ body.drop (pc + 1)).filterMap Action.prototype := by
          rw [List.take_append_drop, filterMap_body]
      _ = _ := by
          rw [take_succ_body ha, List.filterMap_append, List.filterMap_append, List.append_assoc]
          simp [hproto]
  rw [hsplit, registrations, List.getElem?_append_right le_rfl, Nat.sub_self]
  rfl

/-- The build info is registered first. -/
theorem registrations_pos (ha : body[pc]? = some a) (hproto : a.prototype = some proto)
    (hne : a ≠ .registerBuildInfo) : 0 < registrations pc := by
  have hall : ∀ x ∈ body.zipIdx, x.1.prototype.isSome → x.1 ≠ .registerBuildInfo →
      0 < registrations x.2 := by
    decide +kernel
  have hmem : (a, pc) ∈ body.zipIdx := List.mk_mem_zipIdx_iff_getElem?.mpr ha
  exact hall (a, pc) hmem (by rw [hproto]; rfl) hne

/-- The build info is set last. -/
theorem last_iff (ha : body[pc]? = some a) : pc + 1 = body.length ↔ a = .setBuildInfo := by
  have hall : ∀ x ∈ body.zipIdx, x.2 + 1 = body.length ↔ x.1 = .setBuildInfo := by
    decide +kernel
  exact hall (a, pc) (List.mk_mem_zipIdx_iff_getElem?.mpr ha)

/-- The error counter, with its one label, is registered before it is initialised. -/
theorem find?_scrapeErrors (ha : body[pc]? = some Action.initScrapeErrors) :
    ((prototypes.take (registrations pc)).find? (·.describes Family.scrapeErrorsTotal.name)).map
      (fun p => (p.variableLabels.length, p.describes Family.buildInfo.name)) =
        some (1, false) := by
  have hall : ∀ x ∈ body.zipIdx, x.1 = .initScrapeErrors → registrations x.2 = 17 := by
    decide +kernel
  have hmem := List.mk_mem_zipIdx_iff_getElem?.mpr ha
  rw [hall _ hmem rfl]
  decide +kernel

/-- A call that begins has registered nothing. -/
theorem registrations_zero : registrations 0 = 0 := by
  rw [registrations, List.take_zero]
  rfl

/-- A call that returns has registered all collectors. -/
theorem registrations_length : registrations body.length = prototypes.length := by
  rw [registrations, List.take_length, filterMap_body]

/-- It has registered them before it sets the build info. -/
theorem registrations_setBuildInfo (ha : body[pc]? = some Action.setBuildInfo) :
    registrations pc = prototypes.length := by
  rw [← registrations_succ_of_none ha rfl, (last_iff ha).mpr rfl, registrations_length]

end Positions

/-! ## What holds of a call -/

/-- The position of a call that has neither failed nor panicked. -/
def Status.position : Status → Option ℕ
  | .running pc => some pc
  | .returned => some body.length
  | .failed _ | .panicked _ => none

/-- The first entry of the log is of a call. -/
def First (log : List Collector) (k : ℕ) : Prop := ∃ c, log.head? = some c ∧ c.creator = k

/-- What holds of a call, where the calls share a log: it has failed only if its options are
rejected, it has not panicked, it has taken the first entries of the log, and its build info is new
exactly if it has taken the first entry, and has written it. Its labels are valid UTF-8. -/
structure InstallCall.Follows (log : List Collector) (k : ℕ) (call : InstallCall) : Prop where
  failed : ∀ text, call.status = .failed text → call.opts.accepted = none
  panicked : ∀ p, call.status ≠ .panicked p
  position : ∀ pc, call.status.position = some pc →
    registrations pc ≤ log.length ∧ call.got = log.take (registrations pc)
  isNew : call.buildInfoIsNew = true ↔
    ∃ pc, call.status.position = some pc ∧ 0 < registrations pc ∧ First log k
  utf8 : ∀ pc, call.status.position = some pc → ∀ value ∈ call.buildInfoLabels, value.Valid

section Call

variable {log log' : List Collector} {k pc : ℕ} {call : InstallCall} {a : Action}

/-- The first entry of a log stays. -/
theorem head?_of_prefix (h : log <+: log') (hlog : 0 < log.length) : log'.head? = log.head? := by
  obtain ⟨rest, rfl⟩ := h
  exact List.head?_append_of_ne_nil log (List.ne_nil_of_length_pos hlog)

/-- The position after a step. -/
theorem position_next (call : InstallCall) (pc : ℕ) :
    (call.next pc).status.position = some (pc + 1) := by
  unfold InstallCall.next
  by_cases hlast : pc + 1 = body.length
  · rw [if_pos hlast, hlast]
    rfl
  · rw [if_neg hlast]
    rfl

/-- A call after a step has not failed. -/
theorem next_ne_failed (call : InstallCall) (pc : ℕ) (text : String) :
    (call.next pc).status ≠ .failed text := by
  intro hfailed
  have hposition := position_next call pc
  rw [hfailed] at hposition
  cases hposition

/-- A call after a step has not panicked. -/
theorem next_ne_panicked (call : InstallCall) (pc : ℕ) (p : Panic) :
    (call.next pc).status ≠ .panicked p := by
  intro hpanicked
  have hposition := position_next call pc
  rw [hpanicked] at hposition
  cases hposition

/-- A call returns after it has set the build info. -/
theorem next_ne_returned (ha : body[pc]? = some a) (hne : a ≠ .setBuildInfo) :
    (call.next pc).status ≠ .returned := by
  rw [InstallCall.next, if_neg fun hlast => hne ((last_iff ha).mp hlast)]
  exact Status.noConfusion

/-- Where a call begins. -/
theorem status_start (env : Env) (opts : InstallOpts) : (InstallCall.start env opts).status =
    if opts.accepted = none then .failed errInvalidInstallOpts else .running 0 := by
  rw [InstallCall.start]

/-- A call that begins. -/
theorem follows_start {env : Env} {opts : InstallOpts} (hutf8 : (InstallCall.start env opts).Utf8)
    (log : List Collector) (k : ℕ) : (InstallCall.start env opts).Follows log k := by
  by_cases haccepted : opts.accepted = none
  · -- Rejected options: the call has failed before any registration.
    have hstatus : (InstallCall.start env opts).status = .failed errInvalidInstallOpts := by
      rw [status_start, if_pos haccepted]
    refine ⟨fun _ _ => haccepted, fun p hp => ?_, fun pc hpc => ?_, iff_of_false ?_ ?_,
      fun pc hpc => ?_⟩
    · rw [hstatus] at hp
      cases hp
    · rw [hstatus] at hpc
      cases hpc
    · exact Bool.false_ne_true
    · rintro ⟨pc, hpc, -⟩
      rw [hstatus] at hpc
      cases hpc
    · rw [hstatus] at hpc
      cases hpc
  · -- Accepted options: the call has made none of its registrations yet.
    have hstatus : (InstallCall.start env opts).status = .running 0 := by
      rw [status_start, if_neg haccepted]
    refine ⟨fun text htext => ?_, fun p hp => ?_, fun pc hpc => ?_, iff_of_false ?_ ?_,
      fun _ _ => hutf8 haccepted⟩
    · rw [hstatus] at htext
      cases htext
    · rw [hstatus] at hp
      cases hp
    · rw [hstatus] at hpc
      obtain rfl := Option.some.inj hpc
      rw [registrations_zero]
      exact ⟨Nat.zero_le _, List.take_zero.symm⟩
    · exact Bool.false_ne_true
    · rintro ⟨pc, hpc, hpos, -⟩
      rw [hstatus] at hpc
      obtain rfl := Option.some.inj hpc
      rw [registrations_zero] at hpos
      exact absurd hpos (Nat.lt_irrefl 0)

/-- A call that begins has not returned. -/
theorem start_ne_returned (env : Env) (opts : InstallOpts) :
    (InstallCall.start env opts).status ≠ .returned := by
  rw [status_start]
  split_ifs <;> exact Status.noConfusion

/-- A call that runs is at its next step. -/
theorem position_of_running (hstatus : call.status = .running pc) :
    call.status.position = some pc := by
  rw [hstatus]
  rfl

/-- A call that runs has not returned. -/
theorem ne_returned_of_running (hstatus : call.status = .running pc) :
    call.status ≠ .returned := by
  rw [hstatus]
  exact Status.noConfusion

/-- The build info of a call that runs is new exactly if it has constructed the first entry. -/
theorem InstallCall.Follows.isNew_of_running (h : call.Follows log k)
    (hstatus : call.status = .running pc) :
    call.buildInfoIsNew = true ↔ 0 < registrations pc ∧ First log k := by
  rw [h.isNew, position_of_running hstatus]
  simp

/-- What other calls append leaves what holds of a call. -/
theorem InstallCall.Follows.mono (h : call.Follows log k) (hlog : log <+: log') :
    call.Follows log' k := by
  refine ⟨h.failed, h.panicked, fun pc hpc => ?_, h.isNew.trans ?_, h.utf8⟩
  · obtain ⟨hle, hgot⟩ := h.position pc hpc
    exact ⟨hle.trans hlog.length_le, hgot.trans (Lib.take_eq_of_prefix hlog hle).symm⟩
  · refine exists_congr fun pc => and_congr_right fun hpc => and_congr_right fun hpos => ?_
    have hhead := head?_of_prefix hlog (hpos.trans_le (h.position pc hpc).1)
    rw [First, First, hhead]

/-- A step that registers nothing. -/
theorem InstallCall.Follows.skip (h : call.Follows log k) (hstatus : call.status = .running pc)
    (ha : body[pc]? = some a) (hnone : a.prototype = none) : (call.next pc).Follows log k := by
  have hposition := position_of_running hstatus
  refine ⟨fun text htext => absurd htext (next_ne_failed call pc text), next_ne_panicked call pc,
    fun pc' hpc' => ?_, h.isNew.trans ?_, fun _ _ => h.utf8 pc hposition⟩
  · rw [position_next] at hpc'
    obtain rfl := Option.some.inj hpc'
    rw [registrations_succ_of_none ha hnone]
    exact h.position pc hposition
  · rw [position_next, hposition]
    simp [registrations_succ_of_none ha hnone]

/-- The build info is the first collector. -/
theorem registrations_eq_zero (ha : body[pc]? = some Action.registerBuildInfo) :
    registrations pc = 0 := by
  have hproto := getElem?_registrations ha rfl
  have hfirst : prototypes[0]? = some buildInfoOpts.prototype := rfl
  have hshared := Prototype.not_disjoint_of_eq (a := buildInfoOpts.prototype)
    (b := buildInfoOpts.prototype) (by decide) rfl
  exact eq_of_not_disjoint hproto hfirst hshared

/-- The call after a step that registers. -/
def InstallCall.registered (call : InstallCall) (a : Action) (r : Collector × Bool) : InstallCall :=
  { call.take r.1 with
    buildInfoIsNew := if a = .registerBuildInfo then r.2 else call.buildInfoIsNew }

/-- A step that registers: the call takes the next entry of the log. Nobody but the call that
constructed the first entry has a new build info. -/
theorem InstallCall.Follows.take {proto : Prototype} (h : call.Follows log k)
    (hstatus : call.status = .running pc) (ha : body[pc]? = some a)
    (hproto : a.prototype = some proto) (hfirst : a = .registerBuildInfo → ¬ First log k) :
    let r := propose log (registrations pc) ⟨proto, k⟩
    ((call.registered a r.1).next pc).Follows r.2 k := by
  have hposition := position_of_running hstatus
  obtain ⟨hle, hgot⟩ := h.position pc hposition
  refine ⟨fun text htext => absurd htext (next_ne_failed _ pc text), next_ne_panicked _ pc,
    fun pc' hpc' => ?_, ?_, fun _ _ => h.utf8 pc hposition⟩
  · rw [position_next] at hpc'
    obtain rfl := Option.some.inj hpc'
    rw [registrations_succ ha hproto]
    refine ⟨?_, ?_⟩
    · obtain ⟨hlt, -⟩ := List.getElem?_eq_some_iff.mp (Lib.getElem?_propose hle ⟨proto, k⟩)
      exact hlt
    · rw [Lib.take_succ_propose hle, ← hgot]
      rfl
  · have hposition' := fun call : InstallCall => position_next call pc
    have hpos : 0 < registrations (pc + 1) := by
      rw [registrations_succ ha hproto]
      exact Nat.succ_pos _
    rw [hposition']
    simp only [Option.some.injEq, exists_eq_left', hpos, true_and]
    show (if a = Action.registerBuildInfo then _ else call.buildInfoIsNew) = true ↔ _
    by_cases hbuildInfo : a = .registerBuildInfo
    -- The build info is new exactly on an empty log, where the call writes the first entry.
    · rw [if_pos hbuildInfo, Lib.isNew_propose hle]
      subst hbuildInfo
      have hzero := registrations_eq_zero ha
      rw [hzero]
      cases log with
      | nil => exact iff_of_true rfl ⟨⟨proto, k⟩, rfl, rfl⟩
      | cons c rest => exact iff_of_false (Nat.succ_ne_zero _) (hfirst rfl)
    -- Any other registration comes after it, so that the first entry is written already.
    · have hpos' := registrations_pos ha hproto hbuildInfo
      have hhead := head?_of_prefix (Lib.prefix_propose log (registrations pc) ⟨proto, k⟩)
        (hpos'.trans_le hle)
      rw [if_neg hbuildInfo, h.isNew_of_running hstatus, First, First, hhead]
      simp [hpos']

end Call

/-! ## What holds of the calls together -/

section Shared

variable {R : Type} {P : Registerer R} {initial log log' : List Collector} {s : System R}
  {w : World R} {call call' : InstallCall} {k pc : ℕ} {a : Action} {proto : Prototype}

/-- What holds of the calls together, where they share a log: what is registered is the log after
what was there, what is remembered agrees with it, each call follows the log, and the creator of the
first entry has a new build info. -/
structure System.Shares (P : Registerer R) (initial : List Collector) (s : System R)
    (log : List Collector) : Prop where
  registered : P.collectors s.world.registry = initial ++ log
  compatible : Compatible (P.remembered s.world.registry)
  keys : log.map (·.toPrototype) <+: prototypes
  calls : ∀ (k : ℕ) (call : InstallCall), s.calls[k]? = some call → call.Follows log k
  first : ∀ c, log.head? = some c →
    ∃ call, s.calls[c.creator]? = some call ∧ call.buildInfoIsNew = true

/-- A call that goes on is at a step. -/
theorem of_action
    (h : s.calls[k]?.bind (fun call => call.action.map (call, ·)) = some (call, pc, a)) :
    s.calls[k]? = some call ∧ call.status = .running pc ∧ body[pc]? = some a := by
  obtain ⟨other, hk, hmap⟩ := Option.bind_eq_some_iff.mp h
  obtain ⟨⟨pc', a'⟩, haction, heq⟩ := Option.map_eq_some_iff.mp hmap
  obtain ⟨rfl, hnext⟩ := Prod.mk.inj heq
  obtain ⟨rfl, rfl⟩ := Prod.mk.inj hnext
  unfold InstallCall.action at haction
  cases hstatus : other.status with
  | running pc =>
    rw [hstatus] at haction
    obtain ⟨a', ha', heq'⟩ := Option.map_eq_some_iff.mp haction
    obtain ⟨rfl, rfl⟩ := Prod.mk.inj heq'
    exact ⟨hk, rfl, ha'⟩
  | returned | failed | panicked =>
    rw [hstatus] at haction
    cases haction

/-- `guardName` lets the collectors pass. -/
theorem makeVec_eq {opts : VecOpts} (hmem : opts.prototype ∈ prototypes) (r : R) :
    makeVec P r k opts = registerOrExistingWithStatus P r ⟨opts.prototype, k⟩ := by
  have hprefixed : Prefixed opts.family.name := by
    exact prefixed_of_mem opts.prototype hmem _ List.mem_cons_self
  rw [makeVec, guardName, if_pos hprefixed]
  rfl

/-- A step that registers. -/
theorem exec_register (call : InstallCall) (hproto : a.prototype = some proto)
    (hmem : proto ∈ prototypes) {r : Collector × Bool} {registry : R}
    (h : registerOrExistingWithStatus P w.registry ⟨proto, k⟩ = .ok (r, registry)) :
    exec P k call w a = .ok (call.registered a r, { w with registry }) := by
  cases a with
  | recordServiceIdentity | initScrapeErrors | setBuildInfo => cases hproto
  | registerBuildInfo =>
    obtain rfl := Option.some.inj hproto
    rw [exec, makeVec_eq hmem, h]
    rfl
  | make opts =>
    obtain rfl := Option.some.inj hproto
    rw [exec, makeVec_eq hmem, h]
    rfl
  | registerProcessCollector =>
    obtain rfl := Option.some.inj hproto
    rw [exec, h]
    rfl

/-- A step that does not panic. -/
theorem advance_of_ok (h : exec P k call s.world a = .ok (call', w)) :
    advance P s k call pc a = ⟨w, s.calls.set k (call'.next pc)⟩ := by
  rw [advance, h]

/-- A call in the place of another one. -/
theorem getElem?_set_call (hk : s.calls[k]? = some call) (call' : InstallCall) :
    (s.calls.set k call')[k]? = some call' := by
  rw [List.getElem?_set_self', hk]
  rfl

/-- A call that goes on keeps what is shared, if it appends to the log what it has constructed. -/
theorem System.Shares.advance (hs : s.Shares P initial log) (hk : s.calls[k]? = some call)
    (hstatus : call.status = .running pc) (ha : body[pc]? = some a) (hlog : log <+: log')
    (hregistered : P.collectors w.registry = initial ++ log')
    (hcompatible : Compatible (P.remembered w.registry))
    (hkeys : log'.map (·.toPrototype) <+: prototypes)
    (hcall : call'.Follows log' k) (hposition : call'.status.position = some (pc + 1))
    (hcreator : ∀ c, log'.head? = some c →
      log.head? = some c ∨ c.creator = k ∧ 0 < registrations (pc + 1)) :
    (⟨w, s.calls.set k call'⟩ : System R).Shares P initial log' := by
  have hself := getElem?_set_call hk call'
  refine ⟨hregistered, hcompatible, hkeys, fun i other hi => ?_, fun c hc => ?_⟩
  · by_cases hik : k = i
    · subst hik
      obtain rfl := Option.some.inj (hself.symm.trans hi)
      exact hcall
    · exact (hs.calls i other ((List.getElem?_set_ne hik).symm.trans hi)).mono hlog
  · -- The build info of the call is new if it has constructed the entry.
    have hnew : c.creator = k → 0 < registrations (pc + 1) → call'.buildInfoIsNew = true := by
      intro hcreated hpos
      exact hcall.isNew.mpr ⟨pc + 1, hposition, hpos, c, hc, hcreated⟩
    rcases hcreator c hc with hold | ⟨hcreated, hpos⟩
    · obtain ⟨other, hother, hisNew⟩ := hs.first c hold
      by_cases hck : k = c.creator
      · refine ⟨call', hck ▸ hself, hnew hck.symm ?_⟩
        obtain rfl : call = other := Option.some.inj (hk.symm.trans (hck ▸ hother))
        obtain ⟨hpos, -⟩ := ((hs.calls k call hk).isNew_of_running hstatus).mp hisNew
        exact hpos.trans_le (registrations_le_succ ha)
      · exact ⟨other, (List.getElem?_set_ne hck).trans hother, hisNew⟩
    · exact ⟨call', hcreated ▸ hself, hnew hcreated hpos⟩

/-- The call that has constructed the first entry has set this build info on it, and returned. -/
def System.Sets (s : System R) (log : List Collector) (series : Series) : Prop :=
  log.head? = some series.vec ∧ ∃ call, s.calls[series.vec.creator]? = some call ∧
    call.status = .returned ∧ series.labelValues = call.buildInfoLabels

/-- What holds of the calls together, and of the samples of the build info. -/
structure System.Inv (P : Registerer R) (initial : List Collector) (s : System R)
    (log : List Collector) : Prop extends s.Shares P initial log where
  samples : ∀ series v, series.vec.describes Family.buildInfo.name →
    (s.world.samples series = some v ↔ v = 1 ∧ s.Sets log series)

/-- A call that goes on, and does not return, sets no build info. -/
theorem sets_of_ne_returned {series : Series} (hk : s.calls[k]? = some call)
    (hrunning : call.status ≠ .returned) (hrunning' : call'.status ≠ .returned)
    (hhead : log'.head? = log.head? ∨
      ∀ c, log'.head? = some c ∨ log.head? = some c → c.creator = k) :
    (⟨w, s.calls.set k call'⟩ : System R).Sets log' series ↔ s.Sets log series := by
  have hself := getElem?_set_call hk call'
  by_cases hcreator : k = series.vec.creator
  -- The build info on a collector of the call is set by the call only, and at its return.
  · refine iff_of_false ?_ ?_
    · rintro ⟨-, other, hother, hreturned, -⟩
      rw [← hcreator] at hother
      obtain rfl : call' = other := Option.some.inj (hself.symm.trans hother)
      exact hrunning' hreturned
    · rintro ⟨-, other, hother, hreturned, -⟩
      rw [← hcreator] at hother
      obtain rfl : call = other := Option.some.inj (hk.symm.trans hother)
      exact hrunning hreturned
  · unfold System.Sets
    rw [List.getElem?_set_ne hcreator]
    refine and_congr_left fun _ => ?_
    rcases hhead with heq | hnew
    · rw [heq]
    · exact iff_of_false (fun h => hcreator (hnew _ (.inl h)).symm)
        (fun h => hcreator (hnew _ (.inr h)).symm)

/-- The call that registers the build info has not constructed the first entry. -/
theorem System.Shares.not_first (hs : s.Shares P initial log) (hk : s.calls[k]? = some call)
    (hstatus : call.status = .running pc) (ha : body[pc]? = some Action.registerBuildInfo) :
    ¬ First log k := by
  rintro ⟨c, hc, rfl⟩
  obtain ⟨other, hother, hisNew⟩ := hs.first c hc
  obtain rfl : call = other := Option.some.inj (hk.symm.trans hother)
  obtain ⟨hpos, -⟩ := ((hs.calls c.creator call hk).isNew_of_running hstatus).mp hisNew
  rw [registrations_eq_zero ha] at hpos
  exact absurd hpos (Nat.lt_irrefl 0)

/-- A step that registers keeps the invariant, with the entry that it appends, if any. -/
theorem System.Inv.register (hs : s.Inv P initial log) (hfresh : Fresh initial)
    (hk : s.calls[k]? = some call) (hstatus : call.status = .running pc)
    (ha : body[pc]? = some a) (hproto : a.prototype = some proto) :
    (Installs.advance P s k call pc a).Inv P initial
      (propose log (registrations pc) ⟨proto, k⟩).2 := by
  have hcall := hs.calls k call hk
  obtain ⟨hle, -⟩ := hcall.position pc (position_of_running hstatus)
  have hnext := getElem?_registrations ha hproto
  obtain ⟨registry, hregister, hcollectors, hcompatible⟩ :=
    registerOrExisting_eq_propose k hfresh hs.registered hs.compatible hs.keys hle hnext
  have hexec := exec_register call hproto (List.mem_of_getElem? hnext) hregister
  have hrunning := ne_returned_of_running hstatus
  have hrunning' : ((call.registered a (propose log (registrations pc) ⟨proto, k⟩).1).next
      pc).status ≠ .returned := by
    refine next_ne_returned ha ?_
    rintro rfl
    cases hproto
  -- The first entry stays, or the call has constructed it.
  have hhead := Lib.head?_propose log (registrations pc) ⟨proto, k⟩
  rw [advance_of_ok hexec]
  refine ⟨hs.toShares.advance hk hstatus ha (Lib.prefix_propose ..) hcollectors hcompatible
    (Lib.map_propose_prefix hs.keys hle hnext) (hcall.take hstatus ha hproto ?_)
    (position_next _ pc) ?_, ?_⟩
  · rintro rfl
    exact hs.not_first hk hstatus ha
  · intro c hc
    rw [hhead] at hc
    cases log with
    | nil =>
      obtain rfl := Option.some.inj hc
      exact .inr ⟨rfl, registrations_succ ha hproto ▸ Nat.succ_pos _⟩
    | cons first rest => exact .inl hc
  · intro series v hseries
    rw [sets_of_ne_returned hk hrunning hrunning' ?_]
    · exact hs.samples series v hseries
    · rw [hhead]
      cases log with
      | nil => exact .inr (by simp)
      | cons first rest => exact .inl rfl

/-- A step that registers nothing, and does not set the build info, keeps the invariant. -/
theorem System.Inv.skip (hs : s.Inv P initial log) (hk : s.calls[k]? = some call)
    (hstatus : call.status = .running pc) (ha : body[pc]? = some a) (hnone : a.prototype = none)
    (hne : a ≠ .setBuildInfo) (hregistry : w.registry = s.world.registry)
    (hsamples : ∀ series, series.vec.describes Family.buildInfo.name →
      w.samples series = s.world.samples series) :
    (⟨w, s.calls.set k (call.next pc)⟩ : System R).Inv P initial log := by
  have hrunning := ne_returned_of_running hstatus
  refine ⟨hs.toShares.advance hk hstatus ha List.prefix_rfl (hregistry ▸ hs.registered)
    (hregistry ▸ hs.compatible) hs.keys ((hs.calls k call hk).skip hstatus ha hnone)
    (position_next _ pc) fun _ => .inl, ?_⟩
  intro series v hseries
  rw [sets_of_ne_returned hk hrunning (next_ne_returned ha hne) (.inl rfl)]
  show w.samples series = some v ↔ _
  rw [hsamples series hseries]
  exact hs.samples series v hseries

/-- The field of a call is the collector of the family among the first ones. -/
theorem map_field (hkeys : log.map (·.toPrototype) <+: prototypes) (hcall : call.Follows log k)
    (hposition : call.status.position = some pc) (family : Family) :
    (call.field family).map (·.toPrototype) =
      (prototypes.take (registrations pc)).find? (·.describes family.name) := by
  obtain ⟨hle, hgot⟩ := hcall.position pc hposition
  have htake : (prototypes.take (registrations pc)) = call.got.map (·.toPrototype) := by
    rw [Lib.take_eq_of_prefix hkeys (by rwa [List.length_map]), hgot, List.map_take]
  rw [htake, List.find?_map]
  rfl

/-- The call has made its error counter when it initialises it. -/
theorem exec_initScrapeErrors (hkeys : log.map (·.toPrototype) <+: prototypes)
    (hcall : call.Follows log k) (hstatus : call.status = .running pc)
    (ha : body[pc]? = some Action.initScrapeErrors) :
    ∃ series, ¬ series.vec.describes Family.buildInfo.name ∧ exec P k call w .initScrapeErrors =
      .ok (call, { w with samples := w.samples.add series 0 }) := by
  have hfield := map_field hkeys hcall (position_of_running hstatus) .scrapeErrorsTotal
  have hfound := find?_scrapeErrors ha
  rw [← hfield, Option.map_map] at hfound
  obtain ⟨vec, hvec, hlabels⟩ := Option.map_eq_some_iff.mp hfound
  obtain ⟨hlength, hother⟩ := Prod.mk.inj hlabels
  have hlength : vec.variableLabels.length = [call.service].length := hlength
  have hutf8 : ∀ value ∈ [call.service], value.Valid := by
    intro value hvalue
    obtain rfl := List.mem_singleton.mp hvalue
    exact hcall.utf8 pc (position_of_running hstatus) call.service List.mem_cons_self
  refine ⟨⟨vec, [call.service]⟩, Bool.not_eq_true _ ▸ hother, ?_⟩
  rw [exec, hvec, withLabelValues, if_pos hlength, if_pos hutf8]
  rfl

/-- The build info of a call is the first entry of the log. -/
theorem field_buildInfo (hkeys : log.map (·.toPrototype) <+: prototypes)
    (hcall : call.Follows log k) (hposition : call.status.position = some pc)
    (hpos : 0 < registrations pc) {c : Collector} (hc : log.head? = some c) :
    call.field .buildInfo = some c ∧ c.toPrototype = buildInfoOpts.prototype := by
  obtain ⟨-, hgot⟩ := hcall.position pc hposition
  rw [List.head?_eq_getElem?] at hc
  have hproto : c.toPrototype = buildInfoOpts.prototype := by
    exact (Option.some.inj (getElem?_prototypes hkeys hc)).symm
  have hdescribes : c.describes Family.buildInfo.name = true := by
    rw [hproto]
    decide +kernel
  refine ⟨?_, hproto⟩
  obtain ⟨n, hn⟩ := Nat.exists_eq_add_of_lt hpos
  rw [Nat.zero_add] at hn
  cases log with
  | nil => cases hc
  | cons first rest =>
    obtain rfl := Option.some.inj hc
    rw [InstallCall.field, hgot, hn, List.take_succ_cons]
    exact List.find?_cons_of_pos hdescribes

/-- A call whose build info is not new leaves it. -/
theorem exec_setBuildInfo_of_not_new (hold : ¬ call.buildInfoIsNew = true) :
    exec P k call w .setBuildInfo = .ok (call, w) := by
  exact if_neg hold

/-- The call whose build info is new sets it on the first entry of the log. -/
theorem exec_setBuildInfo_of_new (hkeys : log.map (·.toPrototype) <+: prototypes)
    (hcall : call.Follows log k) (hposition : call.status.position = some pc)
    (hpos : 0 < registrations pc) (hnew : call.buildInfoIsNew = true) {c : Collector}
    (hc : log.head? = some c) :
    exec P k call w .setBuildInfo =
      .ok (call, { w with samples := w.samples.set ⟨c, call.buildInfoLabels⟩ 1 }) := by
  obtain ⟨hfield, hproto⟩ := field_buildInfo hkeys hcall hposition hpos hc
  have hlabels : buildInfoOpts.prototype.variableLabels.length = 4 := rfl
  have hvalues : call.buildInfoLabels.length = 4 := rfl
  have hlength : c.variableLabels.length = call.buildInfoLabels.length := by
    rw [hproto, hlabels, hvalues]
  rw [exec, if_pos hnew, hfield, withLabelValues, if_pos hlength,
    if_pos (hcall.utf8 pc hposition)]
  rfl

/-- The last step keeps the invariant. -/
theorem System.Inv.setBuildInfo (hs : s.Inv P initial log) (hk : s.calls[k]? = some call)
    (hstatus : call.status = .running pc) (ha : body[pc]? = some Action.setBuildInfo) :
    (Installs.advance P s k call pc .setBuildInfo).Inv P initial log := by
  have hcall := hs.calls k call hk
  have hposition := position_of_running hstatus
  have hself := getElem?_set_call hk (call.next pc)
  have hreturned : (call.next pc).status = .returned := if_pos ((last_iff ha).mpr rfl)
  have hshares : ∀ w : World R, w.registry = s.world.registry →
      (⟨w, s.calls.set k (call.next pc)⟩ : System R).Shares P initial log := by
    intro w hregistry
    exact hs.toShares.advance hk hstatus ha List.prefix_rfl (hregistry ▸ hs.registered)
      (hregistry ▸ hs.compatible) hs.keys (hcall.skip hstatus ha rfl) (position_next _ pc)
      fun _ => .inl
  have hpos : 0 < registrations pc := by
    rw [registrations_setBuildInfo ha]
    decide
  have hrunning := ne_returned_of_running hstatus
  -- The call itself has set nothing before this step.
  have hunset : ∀ series, series.vec.creator = k → ¬ s.Sets log series := by
    rintro series rfl ⟨-, other, hother, hother_returned, -⟩
    obtain rfl : call = other := Option.some.inj (hk.symm.trans hother)
    exact hrunning hother_returned
  by_cases hnew : call.buildInfoIsNew = true
  · obtain ⟨-, c, hc, hcreator⟩ := (hcall.isNew_of_running hstatus).mp hnew
    rw [advance_of_ok (exec_setBuildInfo_of_new hs.keys hcall hposition hpos hnew hc)]
    refine ⟨hshares _ rfl, fun series v hseries => ?_⟩
    by_cases heq : series = ⟨c, call.buildInfoLabels⟩
    · subst heq
      have hsets : (⟨{ s.world with samples := s.world.samples.set ⟨c, call.buildInfoLabels⟩ 1 },
          s.calls.set k (call.next pc)⟩ : System R).Sets log ⟨c, call.buildInfoLabels⟩ := by
        exact ⟨hc, call.next pc, hcreator ▸ hself, hreturned, rfl⟩
      rw [and_iff_left hsets]
      show (s.world.samples.set ⟨c, call.buildInfoLabels⟩ 1) _ = some v ↔ _
      rw [Store.set_self, Option.some.injEq]
      exact eq_comm
    · show (s.world.samples.set ⟨c, call.buildInfoLabels⟩ 1) series = some v ↔ _
      rw [Store.set_of_ne _ _ heq, hs.samples series v hseries]
      refine and_congr_right fun _ => iff_of_false ?_ ?_
      · intro hsets
        obtain rfl : c = series.vec := Option.some.inj (hc.symm.trans hsets.1)
        exact hunset series hcreator hsets
      · rintro ⟨hhead, other, hother, -, hlabels⟩
        obtain rfl : c = series.vec := Option.some.inj (hc.symm.trans hhead)
        rw [hcreator] at hother
        obtain rfl : call.next pc = other := Option.some.inj (hself.symm.trans hother)
        exact heq (by rw [← show series.labelValues = call.buildInfoLabels from hlabels])
  · rw [advance_of_ok (exec_setBuildInfo_of_not_new hnew)]
    refine ⟨hshares _ rfl, fun series v hseries => ?_⟩
    rw [hs.samples series v hseries]
    refine and_congr_right fun _ => ?_
    by_cases hcreator : series.vec.creator = k
    · refine iff_of_false (hunset series hcreator) ?_
      rintro ⟨hhead, -⟩
      exact hnew ((hcall.isNew_of_running hstatus).mpr ⟨hpos, series.vec, hhead, hcreator⟩)
    · unfold System.Sets
      rw [List.getElem?_set_ne (Ne.symm hcreator)]

/-- A call that begins keeps the invariant. -/
theorem System.Inv.install (hs : s.Inv P initial log) {env : Env} {opts : InstallOpts}
    (hutf8 : (InstallCall.start env opts).Utf8) :
    ({ s with calls := s.calls ++ [.start env opts] } : System R).Inv P initial log := by
  have hstarted : ∀ (i : ℕ) other, (s.calls ++ [InstallCall.start env opts])[i]? = some other →
      s.calls[i]? = some other ∨ other = InstallCall.start env opts := by
    intro i other hother
    rw [List.getElem?_append] at hother
    split_ifs at hother with hi
    · exact .inl hother
    · exact .inr (List.mem_singleton.mp (List.mem_of_getElem? hother))
  have hkeeps : ∀ (i : ℕ) other, s.calls[i]? = some other →
      (s.calls ++ [InstallCall.start env opts])[i]? = some other := by
    intro i other hother
    obtain ⟨hlt, -⟩ := List.getElem?_eq_some_iff.mp hother
    rw [List.getElem?_append_left hlt, hother]
  -- The positions of the other calls stay, and the new one has neither taken nor set anything.
  refine ⟨⟨hs.registered, hs.compatible, hs.keys, fun i other hother => ?_, fun c hc => ?_⟩,
    fun series v hseries => (hs.samples series v hseries).trans ?_⟩
  · rcases hstarted i other hother with hold | rfl
    · exact hs.calls i other hold
    · exact follows_start hutf8 log i
  · obtain ⟨other, hother, hnew⟩ := hs.first c hc
    exact ⟨other, hkeeps c.creator other hother, hnew⟩
  · refine and_congr_right fun _ => and_congr_right fun _ => exists_congr fun other => ?_
    refine and_congr_left fun ⟨hreturned, _⟩ => ⟨hkeeps _ other, fun hother => ?_⟩
    rcases hstarted _ other hother with hold | rfl
    · exact hold
    · exact absurd hreturned (start_ne_returned env opts)

/-- Each step keeps the invariant. -/
theorem System.Inv.step (hs : s.Inv P initial log) (hfresh : Fresh initial) {e : Event}
    (hutf8 : e.Utf8) : ∃ log', (Installs.step P s e).Inv P initial log' := by
  cases e with
  | install env opts => exact ⟨log, hs.install hutf8⟩
  | advance k =>
    rw [Installs.step]
    cases haction : s.calls[k]?.bind fun call => call.action.map (call, ·) with
    | none => exact ⟨log, hs⟩
    | some next =>
      obtain ⟨call, pc, a⟩ := next
      obtain ⟨hk, hstatus, ha⟩ := of_action haction
      cases hproto : a.prototype with
      | some proto => exact ⟨_, hs.register hfresh hk hstatus ha hproto⟩
      | none =>
        refine ⟨log, ?_⟩
        cases a with
        | registerBuildInfo | make | registerProcessCollector => cases hproto
        | setBuildInfo => exact hs.setBuildInfo hk hstatus ha
        -- Neither of the other two touches what is registered or the samples of the build info.
        | recordServiceIdentity =>
          dsimp only
          rw [advance_of_ok rfl]
          exact hs.skip hk hstatus ha rfl (by decide) rfl fun _ _ => rfl
        | initScrapeErrors =>
          obtain ⟨series, hother, hexec⟩ := exec_initScrapeErrors (P := P) (w := s.world) hs.keys
            (hs.calls k call hk) hstatus ha
          dsimp only
          rw [advance_of_ok hexec]
          refine hs.skip hk hstatus ha rfl (by decide) rfl fun series' hseries' => ?_
          refine Function.update_of_ne ?_ _ _
          rintro rfl
          exact hother hseries'

/-- After every run, the calls share a log. -/
theorem exists_inv (P : Registerer R) {r : R} (hfresh : Fresh (P.collectors r))
    (hcompatible : Compatible (P.remembered r)) {events : List Event}
    (hutf8 : ∀ e ∈ events, e.Utf8) :
    ∃ log, (run (Installs.step P) (launch r) events).Inv P (P.collectors r) log := by
  -- By induction on the run; a step may append to the log.
  refine Lib.invariant_run_of_mem (I := fun s => ∃ log, System.Inv P (P.collectors r) s log) ?_ ?_
    hutf8
  · rintro s e ⟨log, hs⟩ he
    exact hs.step hfresh he
  · refine ⟨[], ⟨(List.append_nil _).symm, hcompatible, List.nil_prefix, ?_, ?_⟩, ?_⟩
    · intro k call hk
      cases hk
    · intro c hc
      cases hc
    · intro series v _
      refine iff_of_false (fun hset => ?_) fun ⟨_, hhead, _⟩ => ?_
      · cases hset
      · cases hhead

/-! ## What the calls have done when they have returned -/

/-- A call that has returned has taken the whole log, which has all collectors. -/
theorem got_of_returned (hkeys : log.map (·.toPrototype) <+: prototypes)
    (hcall : call.Follows log k) (hreturned : call.status = .returned) :
    call.got = log ∧ log.map (·.toPrototype) = prototypes := by
  obtain ⟨hle, hgot⟩ := hcall.position body.length (by rw [hreturned]; rfl)
  rw [registrations_length] at hle hgot
  have hlength := hkeys.length_le
  rw [List.length_map] at hlength
  refine ⟨?_, hkeys.eq_of_length_le (by rwa [List.length_map])⟩
  rw [hgot, List.take_of_length_le hlength]

/-- What is registered under a name of this library is in the log. -/
theorem System.Shares.filter_collectors (hs : s.Shares P initial log) (hfresh : Fresh initial)
    {name : String} (hname : Prefixed name) :
    (P.collectors s.world.registry).filter (·.describes name) = log.filter (·.describes name) := by
  have hnone : initial.filter (·.describes name) = [] := by
    refine List.filter_eq_nil_iff.mpr fun e he hdescribes => ?_
    obtain ⟨d, hd, heq⟩ := List.any_eq_true.mp hdescribes
    exact hfresh e he d hd (of_decide_eq_true heq ▸ hname)
  rw [hs.registered, List.filter_append, hnone, List.nil_append]

/-- A log that has all collectors has one that is constructed as each of them, and that one alone
under the names that it describes. -/
theorem exists_filter_log (hlog : log.map (·.toPrototype) = prototypes)
    (hproto : proto ∈ prototypes) :
    ∃ c : Collector, c.toPrototype = proto ∧
      ∀ name, proto.describes name = true → log.filter (·.describes name) = [c] := by
  have hcount : prototypes.count proto = 1 := List.count_eq_one_of_mem nodup_prototypes hproto
  have hmap : (log.filter (·.toPrototype = proto)).map (·.toPrototype) = [proto] := by
    calc (log.filter (·.toPrototype = proto)).map (·.toPrototype)
        = (log.map (·.toPrototype)).filter (· = proto) := by
          rw [List.filter_map]
          rfl
      _ = [proto] := by
          rw [hlog, List.filter_eq, hcount]
          rfl
  obtain ⟨c, hc, hproto'⟩ := List.map_eq_singleton_iff.mp hmap
  refine ⟨c, hproto', fun name hname => ?_⟩
  rw [← hc]
  refine List.filter_congr fun e he => ?_
  have hmem : e.toPrototype ∈ prototypes := hlog ▸ List.mem_map_of_mem he
  rw [Bool.eq_iff_iff, decide_eq_true_iff]
  exact describes_iff hproto hmem hname

/-- Each family of a vector is registered once, and the field of a returned handle is the vector. -/
theorem System.Shares.filter_field (hs : s.Shares P initial log) (hfresh : Fresh initial)
    (hk : s.calls[k]? = some call) (hreturned : call.status = .returned) {family : Family}
    (hfamily : family ∈ Family.buildInfo :: baselineFamilies) :
    ∃ vec, call.field family = some vec ∧
      (P.collectors s.world.registry).filter (·.describes family.name) = [vec] := by
  obtain ⟨hgot, hlog⟩ := got_of_returned hs.keys (hs.calls k call hk) hreturned
  have hmem : family ∈ (buildInfoOpts :: baseline).map (·.family) := by
    rw [List.map_cons, map_family_baseline]
    exact hfamily
  obtain ⟨opts, hopts, rfl⟩ := List.mem_map.mp hmem
  have hproto : opts.prototype ∈ prototypes :=
    List.mem_append_left _ (List.mem_map_of_mem hopts)
  have hprefixed : Prefixed opts.family.name :=
    prefixed_of_mem opts.prototype hproto _ List.mem_cons_self
  have hname : opts.prototype.describes opts.family.name = true := by
    simp [Prototype.describes, VecOpts.prototype]
  obtain ⟨vec, -, hvec⟩ := exists_filter_log hlog hproto
  refine ⟨vec, ?_, (hs.filter_collectors hfresh hprefixed).trans (hvec _ hname)⟩
  rw [InstallCall.field, hgot, ← List.head?_filter, hvec _ hname]
  rfl

/-- The process collector is registered once. -/
theorem System.Shares.filter_process (hs : s.Shares P initial log) (hfresh : Fresh initial)
    (hlog : log.map (·.toPrototype) = prototypes) :
    ∃ c : Collector, c.toPrototype = processCollector ∧ ∀ family ∈ processFamilies,
      (P.collectors s.world.registry).filter (·.describes family.name) = [c] := by
  have hproto : processCollector ∈ prototypes := List.mem_append_right _ List.mem_cons_self
  have hfamilies : ∀ family ∈ processFamilies,
      Prefixed family.name ∧ processCollector.describes family.name = true := by
    decide +kernel
  obtain ⟨c, hc, hfilter⟩ := exists_filter_log hlog hproto
  refine ⟨c, hc, fun family hfamily => ?_⟩
  obtain ⟨hprefixed, hname⟩ := hfamilies family hfamily
  exact (hs.filter_collectors hfresh hprefixed).trans (hfilter _ hname)

/-- Where the log has all collectors, and no call runs, one call has a new build info, has returned,
and has set the one sample of the build info. -/
theorem System.Inv.buildInfo (hs : s.Inv P initial log)
    (hlog : log.map (·.toPrototype) = prototypes)
    (hrunning : ∀ call ∈ s.calls, ∀ pc, call.status ≠ .running pc) :
    ∃ (k : ℕ) (call : InstallCall) (vec : Collector), s.calls[k]? = some call ∧
      call.status = .returned ∧ call.buildInfoIsNew = true ∧
      (∀ (k' : ℕ) (call' : InstallCall), s.calls[k']? = some call' →
        call'.buildInfoIsNew = true → k' = k) ∧
      call.field .buildInfo = some vec ∧
      ∀ series v, series.vec.describes Family.buildInfo.name = true →
        (s.Gathers P series v ↔ series = ⟨vec, call.buildInfoLabels⟩ ∧ v = 1) := by
  obtain ⟨vec, rest, rfl, hvec, -⟩ := List.map_eq_cons_iff.mp hlog
  obtain ⟨call, hcall, hnew⟩ := hs.first vec rfl
  have hfollows := hs.calls _ _ hcall
  obtain ⟨pc, hposition, hpos, -⟩ := hfollows.isNew.mp hnew
  -- A call whose build info is new has neither failed nor panicked, as it is at a position.
  have hreturned : call.status = .returned := by
    cases hstatus : call.status with
    | returned => rfl
    | running pc => exact absurd hstatus (hrunning call (List.mem_of_getElem? hcall) pc)
    | failed | panicked =>
      rw [hstatus] at hposition
      cases hposition
  refine ⟨vec.creator, call, vec, hcall, hreturned, hnew, ?_,
    (field_buildInfo hs.keys hfollows hposition hpos rfl).1, ?_⟩
  · intro k' call' hk' hnew'
    obtain ⟨-, -, -, c, hc, hcreator⟩ := (hs.calls k' call' hk').isNew.mp hnew'
    obtain rfl : vec = c := Option.some.inj hc
    exact hcreator.symm
  · intro series v hseries
    unfold System.Gathers
    rw [hs.samples series v hseries]
    constructor
    · rintro ⟨-, rfl, hhead, other, hother, -, hlabels⟩
      obtain rfl : vec = series.vec := Option.some.inj hhead
      obtain rfl : call = other := Option.some.inj (hcall.symm.trans hother)
      exact ⟨by rw [← hlabels], rfl⟩
    · rintro ⟨rfl, rfl⟩
      refine ⟨?_, rfl, rfl, call, hcall, hreturned, rfl⟩
      rw [hs.registered]
      exact List.mem_append_right _ List.mem_cons_self

/-- On every registry without collectors of this library, that remembers none which differs from the
ones of `Install`, after any steps of any calls with valid UTF-8: no call panics, and none with
valid options fails. All handles that are returned have the same vectors, each the only collector of
its family, and there is one process collector. When some call has valid options and no call runs,
there is one sample of the build info: it has the value 1 and the labels of the only call whose
build info is new. -/
theorem installs_share_baseline (P : Registerer R) (r : R) (hfresh : Fresh (P.collectors r))
    (hcompatible : Compatible (P.remembered r)) (events : List Event)
    (hutf8 : ∀ e ∈ events, e.Utf8) :
    let s := run (Installs.step P) (launch r) events
    (∀ call ∈ s.calls, (∀ p, call.status ≠ .panicked p) ∧
      (call.opts.accepted ≠ none → ∀ text, call.status ≠ .failed text)) ∧
    (∀ call ∈ s.calls, call.status = .returned →
      (∀ call' ∈ s.calls, call'.status = .returned → ∀ family,
        call'.field family = call.field family) ∧
      (∀ family ∈ Family.buildInfo :: baselineFamilies, ∃ vec, call.field family = some vec ∧
        (P.collectors s.world.registry).filter (·.describes family.name) = [vec]) ∧
      ∃ c : Collector, c.toPrototype = processCollector ∧ ∀ family ∈ processFamilies,
        (P.collectors s.world.registry).filter (·.describes family.name) = [c]) ∧
    ((∃ call ∈ s.calls, call.opts.accepted ≠ none) →
      (∀ call ∈ s.calls, ∀ pc, call.status ≠ .running pc) →
        ∃ (k : ℕ) (call : InstallCall) (vec : Collector), s.calls[k]? = some call ∧
          call.status = .returned ∧ call.buildInfoIsNew = true ∧
          (∀ (k' : ℕ) (call' : InstallCall), s.calls[k']? = some call' →
            call'.buildInfoIsNew = true → k' = k) ∧
          call.field .buildInfo = some vec ∧
          ∀ series v, series.vec.describes Family.buildInfo.name = true →
            (s.Gathers P series v ↔ series = ⟨vec, call.buildInfoLabels⟩ ∧ v = 1)) := by
  intro s
  obtain ⟨log, hs⟩ := exists_inv P hfresh hcompatible hutf8
  have hfollows : ∀ call ∈ s.calls, ∃ k, s.calls[k]? = some call ∧ call.Follows log k := by
    intro call hmem
    obtain ⟨k, hk⟩ := List.mem_iff_getElem?.mp hmem
    exact ⟨k, hk, hs.calls k call hk⟩
  refine ⟨fun call hmem => ?_, fun call hmem hreturned => ?_,
    fun ⟨call, hmem, hvalid⟩ hrunning => ?_⟩
  · obtain ⟨k, hk, hcall⟩ := hfollows call hmem
    exact ⟨hcall.panicked, fun hvalid text hfailed => hvalid (hcall.failed text hfailed)⟩
  · -- A returned call has been given the first vector that the log has of each family, whichever
    -- call constructed it.
    obtain ⟨k, hk, hcall⟩ := hfollows call hmem
    obtain ⟨hgot, hlog⟩ := got_of_returned hs.keys hcall hreturned
    refine ⟨fun call' hmem' hreturned' family => ?_, fun family hfamily => ?_, ?_⟩
    · obtain ⟨k', hk', hcall'⟩ := hfollows call' hmem'
      obtain ⟨hgot', -⟩ := got_of_returned hs.keys hcall' hreturned'
      rw [InstallCall.field, InstallCall.field, hgot, hgot']
    · exact hs.filter_field hfresh hk hreturned hfamily
    · exact hs.filter_process hfresh hlog
  · -- With valid options a call that runs no more has returned, so its registrations are in the
    -- log.
    obtain ⟨k, hk, hcall⟩ := hfollows call hmem
    have hreturned : call.status = .returned := by
      cases hstatus : call.status with
      | returned => rfl
      | running pc => exact absurd hstatus (hrunning call hmem pc)
      | failed text => exact absurd (hcall.failed text hstatus) hvalid
      | panicked p => exact absurd hstatus (hcall.panicked p)
    obtain ⟨-, hlog⟩ := got_of_returned hs.keys hcall hreturned
    exact hs.buildInfo hlog hrunning

end Shared

/-- A registry with a collector of another library. -/
def foreign : ClientRegistry :=
  (ClientRegistry.empty.register ⟨⟨.other "goCollector",
    [⟨"go_goroutines", "Number of goroutines that currently exist.", [], []⟩]⟩, 0⟩).2

/-- Two services that are installed at once; the second call is a step ahead of the first one. -/
def race : List Event :=
  [.install ⟨"unknown", "2026-08-05T00:00:00Z"⟩ ⟨"portal", "1.0.0", "abc1234"⟩,
    .install ⟨"unknown", "2026-08-05T00:00:01Z"⟩ ⟨" billing ", "2.0.0", ""⟩] ++
  (List.replicate 21 [.advance 1, .advance 0]).flatten

/-- Both calls return, and the build info is the one of the second. -/
theorem raced_installs_share :
    let s := run (step .client) (launch foreign) race
    s.calls.map (fun call => (call.status, call.buildInfoIsNew)) =
        [(.returned, false), (.returned, true)] ∧
      ∃ (k : ℕ) (call : InstallCall) (vec : Collector), s.calls[k]? = some call ∧
        call.status = .returned ∧ call.buildInfoIsNew = true ∧
        ∀ series v, series.vec.describes Family.buildInfo.name = true →
          (s.Gathers .client series v ↔ series = ⟨vec, call.buildInfoLabels⟩ ∧ v = 1) := by
  have hcalls : (run (step .client) (launch foreign) race).calls.map
      (fun call => (call.status, call.buildInfoIsNew, call.opts.accepted.isSome)) =
        [(.returned, false, true), (.returned, true, true)] := by
    decide +kernel
  obtain ⟨-, -, hbuildInfo⟩ := installs_share_baseline .client foreign (by decide +kernel)
    (by decide +kernel) race (by decide +kernel)
  -- The run itself is of no interest from here on.
  generalize run (step .client) (launch foreign) race = s at hcalls hbuildInfo ⊢
  obtain ⟨first, rest, hs, hfirst, hrest⟩ := List.map_eq_cons_iff.mp hcalls
  obtain ⟨second, hrest', hsecond⟩ := List.map_eq_singleton_iff.mp hrest
  obtain ⟨hfirst_status, hfirst_rest⟩ := Prod.mk.inj hfirst
  obtain ⟨hfirst_new, hfirst_accepted⟩ := Prod.mk.inj hfirst_rest
  obtain ⟨hsecond_status, hsecond_rest⟩ := Prod.mk.inj hsecond
  obtain ⟨hsecond_new, -⟩ := Prod.mk.inj hsecond_rest
  have hsome : ∃ call ∈ s.calls, call.opts.accepted ≠ none := by
    rw [hs]
    exact ⟨first, List.mem_cons_self, Option.isSome_iff_ne_none.mp hfirst_accepted⟩
  have hnone : ∀ call ∈ s.calls, ∀ pc, call.status ≠ .running pc := by
    rw [hs, hrest']
    simp [hfirst_status, hsecond_status]
  obtain ⟨k, call, vec, hcall, hreturned, hisNew, -, -, hsamples⟩ := hbuildInfo hsome hnone
  refine ⟨?_, k, call, vec, hcall, hreturned, hisNew, hsamples⟩
  rw [hs, hrest']
  simp [hfirst_status, hfirst_new, hsecond_status, hsecond_new]

/-- A gauge that the application gave one of the names, before it was unregistered. -/
def ownGauge : Prototype :=
  ⟨.gaugeVec, [⟨"simsys_queue_depth", "Messages that wait.", [], ["queue"]⟩]⟩

/-- A registry without collectors, that remembers it. -/
def unregistered : ClientRegistry :=
  (ClientRegistry.empty.register ⟨ownGauge, 0⟩).2.unregister ownGauge

/-- Some calls, one after another, each to its end. -/
def sequence (calls : List (Env × InstallOpts)) : List Event :=
  calls.zipIdx.flatMap fun ((env, opts), k) => .install env opts :: List.replicate 21 (.advance k)

/-- Where another gauge is remembered, `Install` panics. It does for a service that is not valid
UTF-8, too; then a valid call returns, but nobody has set the build info. -/
theorem installs_may_panic :
    (let s := run (step .client) (launch unregistered)
      (sequence [(⟨"unknown", "2026-08-05T00:00:00Z"⟩, ⟨"portal", "1.0.0", "abc1234"⟩)])
    Fresh unregistered.collectors ∧ s.calls.map (·.status) =
      [.panicked (.register (.other "has different label names or a different help string"))]) ∧
    let s := run (step .client) (launch .empty)
      (sequence [(⟨"unknown", "2026-08-05T00:00:00Z"⟩, ⟨⟨[.inr 0xff]⟩, "1.0.0", "abc1234"⟩),
        (⟨"unknown", "2026-08-05T00:00:01Z"⟩, ⟨"portal", "1.0.0", "abc1234"⟩)])
    Fresh ClientRegistry.empty.collectors ∧
      s.calls.map (fun call => (call.opts.accepted.isSome, call.status, call.buildInfoIsNew)) =
        [(true, .panicked .notUtf8, true), (true, .returned, false)] := by
  decide +kernel

end SimsysMetrics.Go.Installs
