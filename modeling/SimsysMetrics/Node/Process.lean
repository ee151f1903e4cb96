import Mathlib.Data.Rat.Defs
import SimsysMetrics.Lib.Samples

/-!
# The process collector of the Node lane

`registerProcessCollector` and `restoreProcessCollector` of `node/src/process.ts`, over the state
that they keep on `globalThis`. The first registration constructs the four metrics one after
another, after it has set the service and the flag, and undoes nothing when a constructor throws.
Another service swaps the label, and drops the samples of the prior one.

What the collector reports under (`ProcessState.reporting`) is given back by restoring right after
registering (`reporting_restore`), wherever the registration returned. A registration that threw
has changed it (`reporting_of_thrown`).
-/

namespace SimsysMetrics.Node

open Lib (Store)

/-- The metrics of the collector, in the order in which they are constructed. -/
inductive ProcessMetric where
  | cpuTotal
  | memoryBytes
  | openFds
  | uptimeSeconds
deriving DecidableEq, Repr

/-- The values of the label `type` of `simsys_process_memory_bytes`. -/
inductive MemoryType where
  | rss
  | heapUsed
  | heapTotal
  | external
deriving DecidableEq, Repr

/-- `SimsysProcessState`: each metric has the samples of its label sets once it is constructed. -/
structure ProcessState where
  registered : Bool
  service : Option String
  cpuTotal : Option (Store String ℚ)
  memoryBytes : Option (Store (String × MemoryType) ℚ)
  openFds : Option (Store String ℚ)
  uptimeSeconds : Option (Store String ℚ)
  lastCpuSeconds : ℚ

/-- `ProcessCollectorRollbackState`. -/
inductive RollbackState where
  | reused
  | registered
  | serviceSwap (priorService : String)
deriving DecidableEq, Repr

/-- The state of a fresh process. -/
def ProcessState.fresh : ProcessState := ⟨false, none, none, none, none, none, 0⟩

/-- The state without the samples of a service. -/
def ProcessState.removeService (service : String) (s : ProcessState) : ProcessState :=
  { s with
    cpuTotal := s.cpuTotal.map (·.remove service)
    memoryBytes := s.memoryBytes.map fun m =>
      (((m.remove (service, .rss)).remove (service, .heapUsed)).remove
        (service, .heapTotal)).remove (service, .external)
    openFds := s.openFds.map (·.remove service)
    uptimeSeconds := s.uptimeSeconds.map (·.remove service) }

/-- The construction of the four metrics, up to the one whose constructor throws. -/
def ProcessState.construct (fault : Option ProcessMetric) (s : ProcessState) :
    ProcessState × Bool :=
  let empty {κ : Type} : Option (Store κ ℚ) := some fun _ => none
  match fault with
  | some .cpuTotal => (s, true)
  | some .memoryBytes => ({ s with cpuTotal := empty }, true)
  | some .openFds => ({ s with cpuTotal := empty, memoryBytes := empty }, true)
  | some .uptimeSeconds =>
    ({ s with cpuTotal := empty, memoryBytes := empty, openFds := empty }, true)
  | none =>
    ({ s with cpuTotal := empty, memoryBytes := empty, openFds := empty, uptimeSeconds := empty },
      false)

/-- The first registration: the service and the flag are set before the metrics are constructed. -/
def registerFresh (fault : Option ProcessMetric) (svc : String) (s : ProcessState) :
    ProcessState × Option RollbackState :=
  let r := { s with service := some svc, registered := true }.construct fault
  (r.1, if r.2 then none else some .registered)

/-- `registerProcessCollector`: the state afterwards, and the rollback state where it returns. -/
def registerProcessCollector (fault : Option ProcessMetric) (svc : String) (s : ProcessState) :
    ProcessState × Option RollbackState :=
  if s.registered then
    if s.service = some svc then (s, some .reused)
    else
      let priorService := s.service.getD ""
      ({ s with service := some svc }.removeService priorService, some (.serviceSwap priorService))
  else registerFresh fault svc s

/-- `_unregisterAll`. -/
def unregisterAll : ProcessState := .fresh

/-- `restoreProcessCollector`. -/
def restoreProcessCollector (state : RollbackState) (s : ProcessState) : ProcessState :=
  match state with
  | .reused => s
  | .serviceSwap priorService =>
    let failedService := s.service.getD ""
    let s := { s with service := some priorService }
    if failedService ≠ "" ∧ failedService ≠ priorService then s.removeService failedService else s
  | .registered => unregisterAll

/-- The service under which the collector reports; none when it is not registered. -/
def ProcessState.reporting (s : ProcessState) : Option String :=
  if s.registered then s.service else none

/-- A registered collector has a service. -/
def ProcessState.Named (s : ProcessState) : Prop := s.registered = true → s.service.isSome = true

/-- The construction of the metrics leaves what the collector reports under. -/
theorem reporting_construct (fault : Option ProcessMetric) (s : ProcessState) :
    (s.construct fault).1.reporting = s.reporting := by
  obtain _ | _ | _ | _ | _ := fault <;> rfl

/-- After a registration, the collector reports under the service, also where it threw. -/
theorem reporting_register (fault : Option ProcessMetric) (svc : String) (s : ProcessState) :
    (registerProcessCollector fault svc s).1.reporting = some svc := by
  unfold registerProcessCollector
  split_ifs with hreg hsvc
  · show (if s.registered then s.service else none) = some svc
    rw [if_pos hreg, hsvc]
  · show (if s.registered then some svc else none) = some svc
    rw [if_pos hreg]
  · exact reporting_construct fault { s with service := some svc, registered := true }

/-- Only a first registration throws, in a constructor. -/
theorem unregistered_of_thrown {fault : Option ProcessMetric} {svc : String} {s s' : ProcessState}
    (h : registerProcessCollector fault svc s = (s', none)) :
    s.registered = false ∧ ∃ metric, fault = some metric := by
  unfold registerProcessCollector at h
  by_cases hreg : s.registered
  · rw [if_pos hreg] at h
    have hnone := congrArg Prod.snd h
    split_ifs at hnone
  · rw [if_neg hreg] at h
    obtain _ | metric := fault
    · cases h
    · exact ⟨by simpa using hreg, metric, rfl⟩

/-- A registration that threw changed what the collector reports under. -/
theorem reporting_of_thrown {fault : Option ProcessMetric} {svc : String} {s s' : ProcessState}
    (h : registerProcessCollector fault svc s = (s', none)) : s'.reporting ≠ s.reporting := by
  -- Before the call nothing was reported; after it the service is.
  obtain ⟨hreg, -⟩ := unregistered_of_thrown h
  have hafter := reporting_register fault svc s
  have hbefore : s.reporting = none := by simp [ProcessState.reporting, hreg]
  rw [h] at hafter
  rw [hbefore, hafter]
  simp

/-- Restoring right after registering gives back what the collector reports under. -/
theorem reporting_restore {fault : Option ProcessMetric} {svc : String} {s s' : ProcessState}
    {state : RollbackState} (hs : s.Named)
    (h : registerProcessCollector fault svc s = (s', some state)) :
    (restoreProcessCollector state s').reporting = s.reporting := by
  unfold registerProcessCollector at h
  by_cases hreg : s.registered
  · rw [if_pos hreg] at h
    split_ifs at h with hsvc
    · obtain ⟨rfl, hstate⟩ := Prod.mk.inj h
      obtain rfl := Option.some.inj hstate
      rfl
    · -- Swapped: the prior service is set again, whether or not samples are dropped.
      obtain ⟨rfl, hstate⟩ := Prod.mk.inj h
      obtain rfl := Option.some.inj hstate
      obtain ⟨prior, hprior⟩ := Option.isSome_iff_exists.mp (hs hreg)
      unfold restoreProcessCollector
      dsimp only
      split_ifs <;> simp [ProcessState.reporting, ProcessState.removeService, hreg, hprior]
  · -- A first registration: everything is unregistered again.
    rw [if_neg hreg] at h
    obtain ⟨-, hstate⟩ := Prod.mk.inj h
    split_ifs at hstate
    obtain rfl := Option.some.inj hstate
    simp [restoreProcessCollector, unregisterAll, ProcessState.fresh, ProcessState.reporting, hreg]

/-- A collector that reports under a service has one. -/
theorem named_of_reporting {service : String} {s : ProcessState}
    (h : s.reporting = some service) : s.Named := by
  intro hreg
  unfold ProcessState.reporting at h
  rw [if_pos hreg] at h
  exact Option.isSome_of_eq_some h

/-- Registering leaves a collector with a service, also where it threw. -/
theorem named_register (fault : Option ProcessMetric) (svc : String) (s : ProcessState) :
    (registerProcessCollector fault svc s).1.Named :=
  named_of_reporting (reporting_register fault svc s)

/-- Restoring leaves a registered collector with a service. -/
theorem named_restore (state : RollbackState) {s : ProcessState} (hs : s.Named) :
    (restoreProcessCollector state s).Named := by
  obtain _ | _ | priorService := state
  · exact hs
  · intro hreg
    cases hreg
  · unfold restoreProcessCollector
    dsimp only
    split_ifs <;> exact fun _ => rfl

end SimsysMetrics.Node
