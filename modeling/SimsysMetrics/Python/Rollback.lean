import SimsysMetrics.Lib.Runs
import SimsysMetrics.Python.FastApi
import SimsysMetrics.Python.Flask

/-!
# Runs of installs in a Python process

The installs of a process, one after another, on any apps of either framework. They share the
process-wide state, and each keeps its invariant (`inv_history`).

An install that fails in the build info or in the wiring undoes the service and the collector. The
build info it undoes only where `register_build_info` returned: one that raises after it has added
the key leaves the key owned without a sample, and a later install with the same labels, whose flag
then says that the key was not new, leaves its sample behind when it fails.
`failed_install_restores_iff` says in every reachable state when a failed install restores it.
-/

namespace SimsysMetrics.Python

/-- A call of an install, on an app in any state, with the step that raises, if any. -/
inductive Call where
  | fastapi (env : Env) (o : InstallOpts) (fault : Option (Fault FastApi.WireFault))
      (app : FastApi.App)
  | flask (env : Env) (o : InstallOpts) (fault : Option (Fault Flask.WireFault)) (app : Flask.App)

namespace Call

/-- The process-wide state after a call. -/
def proc (p : Proc) : Call → Proc
  | .fastapi env o fault app => (FastApi.installFastapi env o fault p app).proc
  | .flask env o fault app => (Flask.installFlask env o fault p app).proc

/-- Whether a call raises. -/
def raised (p : Proc) : Call → Bool
  | .fastapi env o fault app => (FastApi.installFastapi env o fault p app).raised
  | .flask env o fault app => (Flask.installFlask env o fault p app).raised

/-- The step that raises is none of the calls that the collector's registration makes: it is the
service, the build info, or one of the framework's wiring. -/
def OutsideCollector : Call → Prop
  | .fastapi _ _ fault _ => Fault.collector? fault = none
  | .flask _ _ fault _ => Fault.collector? fault = none

/-- The step that raises is not `register_build_info` after it has added the key. -/
def Timely : Call → Prop
  | .fastapi _ _ fault _ => Fault.Timely fault
  | .flask _ _ fault _ => Fault.Timely fault

/-- The call, where it comes past the collector, leaves the build info as it was. -/
def Undone (p : Proc) : Call → Prop
  | .fastapi env o fault _ =>
    PastCollector env o p → Fault.Undone (o.labels env) p.buildInfo fault
  | .flask env o fault _ =>
    p.collectors.Accepts o.service → Fault.Undone (o.labels env) p.buildInfo fault

end Call

/-- The process-wide state after a history of calls in a fresh process. -/
def history (calls : List Call) : Proc := Lib.run Call.proc .fresh calls

/-- The state after every history satisfies the invariant. -/
theorem inv_history (calls : List Call) : (history calls).Inv := by
  apply Lib.invariant_run _ Proc.inv_fresh
  rintro p (_ | _) hp
  · exact inv_installOn hp
  · exact inv_installOn hp

/-- A history in which no `register_build_info` raises late leaves the owned label sets those with a
sample. -/
theorem owned_history {calls : List Call} (h : ∀ call ∈ calls, call.Timely) :
    (history calls).buildInfo.Owned := by
  have hboth : (history calls).Inv ∧ (history calls).buildInfo.Owned := by
    refine Lib.invariant_run_of_mem (I := fun p : Proc => p.Inv ∧ p.buildInfo.Owned) ?_
      ⟨Proc.inv_fresh, rfl⟩ h
    rintro p (_ | _) ⟨hp, howned⟩ htimely
    · exact ⟨inv_installOn hp, owned_installOn hp howned htimely⟩
    · exact ⟨inv_installOn hp, owned_installOn hp howned htimely⟩
  exact hboth.2

/-- In the state after a history, a call that fails outside the collector's registration leaves the
process-wide state as it was, exactly where it leaves the build info. -/
theorem call_restores_iff {p : Proc} (hp : p.Inv) {call : Call} (hfault : call.OutsideCollector)
    (hraised : call.raised p = true) : call.proc p = p ↔ call.Undone p := by
  rcases call with ⟨env, o, fault, app⟩ | ⟨env, o, fault, app⟩
  · exact installOn_restores_iff hp hfault hraised
  · refine (installOn_restores_iff hp hfault hraised).trans ?_
    unfold PastCollector Call.Undone
    simp only [Bool.false_eq_true, false_or]
    rfl

/-- After every history, an install that fails outside the collector's registration, so in the build
info or anywhere in the wiring, leaves the process-wide state as it was exactly where
`Call.Undone` says so; and where no `register_build_info` of the run raises after it has added its
key, every such install does. -/
theorem failed_install_restores_iff (calls : List Call) :
    (∀ call : Call, call.OutsideCollector → call.raised (history calls) = true →
      (call.proc (history calls) = history calls ↔ call.Undone (history calls))) ∧
    ((∀ call ∈ calls, call.Timely) → ∀ call : Call, call.Timely → call.OutsideCollector →
      call.raised (history calls) = true → call.proc (history calls) = history calls) := by
  have hinv := inv_history calls
  refine ⟨fun call hfault hraised => call_restores_iff hinv hfault hraised, ?_⟩
  intro htimely call hcall hfault hraised
  have howned := owned_history htimely
  refine (call_restores_iff hinv hfault hraised).mpr ?_
  rcases call with ⟨env, o, fault, app⟩ | ⟨env, o, fault, app⟩
  · exact fun _ => Fault.undone_of_timely howned hcall
  · exact fun _ => Fault.undone_of_timely howned hcall

/-- After a FastAPI install of `portal`, a Flask install of `api` whose route raises swaps the
collector and gives it back. -/
theorem swap_then_fail_restores :
    let calls := [Call.fastapi singleProcess portalOpts none (.hosted [] [])]
    let call := Call.flask { singleProcess with collectorId := 2 }
      { portalOpts with service := "api" } (some (.wire (.route []))) (.hosted .none)
    (∀ call ∈ calls, call.Timely) ∧ call.Timely ∧ call.OutsideCollector ∧
      call.raised (history calls) = true ∧ call.proc (history calls) = history calls := by
  intro calls call
  have hcalls : ∀ call ∈ calls, call.Timely := by
    intro call hcall
    obtain rfl := List.mem_singleton.mp hcall
    exact .inl rfl
  refine ⟨hcalls, .inl rfl, rfl, by decide, ?_⟩
  exact (failed_install_restores_iff calls).2 hcalls call (.inl rfl) rfl (by decide)

/-- `build_info.labels(...)` raises in a Flask install: its key stays owned without a sample, and
the sample of a second install in the same second, whose wiring raises, stays behind. -/
theorem late_raise_leaves_key :
    let labels := portalOpts.labels singleProcess
    let late := Call.flask singleProcess portalOpts (some (.registerBuildInfo .labels))
      (.hosted .none)
    let second := Call.flask singleProcess portalOpts (some (.wire .beforeRequest)) (.hosted .none)
    late.OutsideCollector ∧ late.raised (history []) = true ∧
      late.proc (history []) = { history [] with buildInfo := ⟨{labels}, ∅⟩ } ∧
      late.proc (history []) ≠ history [] ∧
      second.OutsideCollector ∧ second.raised (history [late]) = true ∧
      second.proc (history [late]) = { history [] with buildInfo := ⟨{labels}, {labels}⟩ } := by
  refine ⟨rfl, by decide, by decide, by decide, rfl, by decide, by decide⟩

end SimsysMetrics.Python
