import Mathlib.Algebra.BigOperators.Group.List.Basic
import Mathlib.Algebra.Order.Ring.Rat
import Mathlib.Tactic.Linarith
import Mathlib.Tactic.Positivity
import SimsysMetrics.Lib.Float64
import SimsysMetrics.Lib.Runs
import SimsysMetrics.Node.Process

/-!
# The CPU counter of the Node lane

`simsys_process_cpu_seconds_total` as `node/src/process.ts` counts it. Each scrape queues a callback
on `cpuCollectMutex`; when it runs, it reads `process.cpuUsage()` and increments the sample of the
service that is live then by what was used since the last reading. The code computes the seconds in
doubles: `collectCpuBy` takes the rounding of an operation, and `collectCpu` has none.

In exact arithmetic the increments add up to the last reading, in whatever order scrapes, callbacks,
swaps and rollbacks happen, and the sample of each service is the sum of its increments since the
label set was last removed (`increments_add_up`). In doubles they need not: two increments of one
service may add up to more than the process has used (`rounded_increments_exceed`).

A swap drops the sample of the prior service, and the rollback of the swap has nothing to give it
back from. So a service keeps its counter over the failed installs of others only where it has no
sample yet (`cpuCounter_kept_iff`).
-/

namespace SimsysMetrics.Node

open Lib (Store)

/-- The value of the CPU counter for a service; none where there is no sample. -/
def ProcessState.cpuSample (s : ProcessState) (service : String) : Option ℚ :=
  s.cpuTotal.bind (· service)

/-- The result of `process.cpuUsage()`, in microseconds since the process was started. -/
structure CpuUsage where
  user : ℕ
  system : ℕ
deriving DecidableEq, Repr

/-- `total` of the callback: the cumulative seconds. -/
def CpuUsage.seconds (u : CpuUsage) : ℚ := (u.user + u.system) / 1000000

/-- The callback that `collect` queues: the state afterwards, and the increment that it applied with
the label of its service. Without a service the label would be the text of `null`. The result of an
operation on seconds is rounded by `round`; the microseconds, below `2^53`, add up exactly. -/
def collectCpuBy (round : ℚ → ℚ) (u : CpuUsage) (s : ProcessState) :
    ProcessState × Option (String × ℚ) :=
  let total := round u.seconds
  let delta := max 0 (round (total - s.lastCpuSeconds))
  let service := s.service.getD "null"
  let s := { s with lastCpuSeconds := total }
  if 0 < delta then
    let inc (m : Store String ℚ) := m.set service (round ((m service).getD 0 + delta))
    ({ s with cpuTotal := s.cpuTotal.map inc }, some (service, delta))
  else (s, none)

/-- The callback in exact arithmetic. -/
def collectCpu (u : CpuUsage) (s : ProcessState) : ProcessState × Option (String × ℚ) :=
  collectCpuBy id u s

/-- The callback in exact arithmetic, written out. -/
theorem collectCpu_eq (u : CpuUsage) (s : ProcessState) :
    collectCpu u s =
      let delta := max 0 (u.seconds - s.lastCpuSeconds)
      let service := s.service.getD "null"
      let s := { s with lastCpuSeconds := u.seconds }
      if 0 < delta then
        ({ s with cpuTotal := s.cpuTotal.map (·.add service delta) }, some (service, delta))
      else (s, none) :=
  rfl

/-- The callback leaves the service, and takes its reading as the last one. -/
theorem collectCpu_frame (u : CpuUsage) (s : ProcessState) :
    (collectCpu u s).1.registered = s.registered ∧ (collectCpu u s).1.service = s.service ∧
      (collectCpu u s).1.lastCpuSeconds = u.seconds := by
  rw [collectCpu_eq]
  dsimp only
  split_ifs <;> exact ⟨rfl, rfl, rfl⟩

/-- The callback leaves the counter constructed. -/
theorem isSome_cpuTotal_collectCpu (u : CpuUsage) {s : ProcessState}
    (h : s.cpuTotal.isSome = true) : (collectCpu u s).1.cpuTotal.isSome = true := by
  rw [collectCpu_eq]
  dsimp only
  split_ifs
  · rw [Option.isSome_map]
    exact h
  · exact h

/-- No callback decreases a sample. -/
theorem le_cpuSample_collectCpu (u : CpuUsage) {s : ProcessState} {service : String} {v : ℚ}
    (h : s.cpuSample service = some v) :
    ∃ w, (collectCpu u s).1.cpuSample service = some w ∧ v ≤ w := by
  obtain ⟨store, hstore, hv⟩ := Option.bind_eq_some_iff.mp h
  unfold ProcessState.cpuSample
  rw [collectCpu_eq]
  dsimp only
  split_ifs with hdelta
  · rw [hstore]
    by_cases hsvc : service = s.service.getD "null"
    · -- The sample of the live service grows.
      refine ⟨v + max 0 (u.seconds - s.lastCpuSeconds), ?_, by linarith⟩
      subst hsvc
      simp [hv]
    · refine ⟨v, ?_, le_rfl⟩
      simpa [Store.add, Function.update_of_ne hsvc] using hv
  · exact ⟨v, by simpa [hstore] using hv, le_rfl⟩

/-! ## Failed installs of other services -/

/-- The collector is registered for a service. -/
def ProcessState.Serves (s : ProcessState) (service : String) : Prop :=
  s.registered = true ∧ s.service = some service

/-- An install that registers the collector and then fails: its rollback restores the collector. -/
def failedInstall (service : String) (s : ProcessState) : ProcessState :=
  match registerProcessCollector none service s with
  | (s, some state) => restoreProcessCollector state s
  | (s, none) => s

/-- The samples of a dropped service. -/
theorem cpuSample_removeService (service service' : String) (s : ProcessState) :
    (s.removeService service).cpuSample service' =
      if service' = service then none else s.cpuSample service' := by
  unfold ProcessState.cpuSample ProcessState.removeService
  by_cases h : service' = service
  · subst h
    cases s.cpuTotal <;> simp [Store.remove]
  · cases s.cpuTotal <;> simp [Store.remove, h]

/-- The registration of another service is a swap. -/
theorem register_swap {service other : String} {s : ProcessState} (hs : s.Serves service)
    (hother : other ≠ service) :
    registerProcessCollector none other s =
      ({ s with service := some other }.removeService service, some (.serviceSwap service)) := by
  obtain ⟨hreg, hsvc⟩ := hs
  have hne : ¬ s.service = some other := by
    rw [hsvc]
    exact fun h => hother (Option.some.inj h).symm
  unfold registerProcessCollector
  rw [if_pos hreg, if_neg hne, hsvc]
  rfl

/-- A failed install of another service gives the service back, and loses its sample. -/
theorem failedInstall_spec {service other : String} {s : ProcessState} (hs : s.Serves service)
    (hother : other ≠ service) :
    (failedInstall other s).Serves service ∧ (failedInstall other s).cpuSample service = none := by
  have hreg := hs.1
  -- The swap has dropped the sample before the rollback runs.
  have hswap :
      ({ s with service := some other }.removeService service).cpuSample service = none := by
    rw [cpuSample_removeService, if_pos rfl]
  unfold failedInstall
  rw [register_swap hs hother]
  unfold restoreProcessCollector
  dsimp only
  split_ifs
  · refine ⟨⟨hreg, rfl⟩, ?_⟩
    rw [cpuSample_removeService]
    split_ifs
    · rfl
    · exact hswap
  · exact ⟨⟨hreg, rfl⟩, hswap⟩

/-- What happens to the collector of a service: an install of another one fails, or a scrape runs
its callback. -/
inductive CounterEvent where
  | failedInstall (service : String)
  | scrape (usage : CpuUsage)
deriving DecidableEq, Repr

namespace CounterEvent

/-- The state after an event. -/
def step (s : ProcessState) : CounterEvent → ProcessState
  | .failedInstall service => Node.failedInstall service s
  | .scrape usage => (collectCpu usage s).1

/-- The counter of the service does not decrease: a value that it has stays, or grows. -/
def Kept (service : String) (s : ProcessState) (e : CounterEvent) : Prop :=
  ∀ v, s.cpuSample service = some v → ∃ w, (step s e).cpuSample service = some w ∧ v ≤ w

/-- An install fails only while the service has no sample. -/
def Bare (service : String) (s : ProcessState) : CounterEvent → Prop
  | .failedInstall _ => s.cpuSample service = none
  | .scrape _ => True

/-- The service is another one. -/
def Other (service : String) : CounterEvent → Prop
  | .failedInstall other => other ≠ service
  | .scrape _ => True

/-- An event leaves the collector to its service. -/
theorem serves_step {service : String} {s : ProcessState} (hs : s.Serves service)
    {e : CounterEvent} (he : e.Other service) : (step s e).Serves service := by
  cases e with
  | failedInstall other => exact (failedInstall_spec hs he).1
  | scrape usage =>
    obtain ⟨hreg, hsvc, -⟩ := collectCpu_frame usage s
    exact ⟨hreg.trans hs.1, hsvc.trans hs.2⟩

/-- An event keeps the counter exactly where no sample is there to lose. -/
theorem kept_iff_bare {service : String} {s : ProcessState} (hs : s.Serves service)
    {e : CounterEvent} (he : e.Other service) : e.Kept service s ↔ e.Bare service s := by
  cases e with
  | failedInstall other =>
    have hlost := (failedInstall_spec hs he).2
    constructor
    · intro hkept
      by_contra hsample
      obtain ⟨v, hv⟩ := Option.ne_none_iff_exists'.mp hsample
      obtain ⟨w, hw, -⟩ := hkept v hv
      rw [show (step s (.failedInstall other)).cpuSample service = none from hlost] at hw
      cases hw
    · intro hbare v hv
      rw [show s.cpuSample service = none from hbare] at hv
      cases hv
  | scrape usage => exact iff_of_true (fun v hv => le_cpuSample_collectCpu usage hv) trivial

end CounterEvent

/-- A swap to another service and its rollback give the live service back, and the value of its CPU
counter exactly where it had none. Over failed installs of other services and scrapes, in any order,
the counter never decreases exactly when every install fails before it has a value. -/
theorem cpuCounter_kept_iff {service : String} {s : ProcessState} (hs : s.Serves service) :
    (∀ other, other ≠ service →
      ((failedInstall other s).service = some service ∧
        (failedInstall other s).cpuSample service = s.cpuSample service ↔
        s.cpuSample service = none)) ∧
    ∀ es : List CounterEvent, (∀ e ∈ es, e.Other service) →
      (Lib.Along CounterEvent.step (CounterEvent.Kept service) s es ↔
        Lib.Along CounterEvent.step (CounterEvent.Bare service) s es) := by
  constructor
  · intro other hother
    obtain ⟨⟨-, hsvc⟩, hlost⟩ := failedInstall_spec hs hother
    rw [hlost]
    exact ⟨fun h => h.2.symm, fun h => ⟨hsvc, h.symm⟩⟩
  · intro es hes
    induction es generalizing s with
    | nil => exact Iff.rfl
    | cons e es ih =>
      have he := hes e List.mem_cons_self
      have hrest := ih (CounterEvent.serves_step hs he)
        fun e he => hes e (List.mem_cons_of_mem _ he)
      exact and_congr (CounterEvent.kept_iff_bare hs he) hrest

/-- The collector of `portal` right after its registration has no sample, so an install of `api`
that fails costs it nothing. -/
theorem bare_counter_kept :
    let s := (registerProcessCollector none "portal" .fresh).1
    s.Serves "portal" ∧ (failedInstall "api" s).cpuSample "portal" = s.cpuSample "portal" ∧
      Lib.Along CounterEvent.step (CounterEvent.Kept "portal") s
        [.failedInstall "api", .scrape ⟨1, 1⟩] := by
  have hserves : (registerProcessCollector none "portal" .fresh).1.Serves "portal" := ⟨rfl, rfl⟩
  obtain ⟨hswap, hrun⟩ := cpuCounter_kept_iff hserves
  refine ⟨hserves, ((hswap "api" (by decide)).mpr rfl).2, ?_⟩
  refine (hrun _ ?_).mpr ⟨rfl, trivial, trivial⟩
  simp [CounterEvent.Other]

/-- After a scrape the counter of `portal` has a value; an install of `api` that fails removes
it. -/
theorem failed_install_drops_counter :
    let s := (collectCpu ⟨1500000, 500000⟩ (registerProcessCollector none "portal" .fresh).1).1
    s.Serves "portal" ∧ s.cpuSample "portal" = some 2 ∧
      (failedInstall "api" s).cpuSample "portal" = none := by
  have hserves := @CounterEvent.serves_step "portal"
    (registerProcessCollector none "portal" .fresh).1 ⟨rfl, rfl⟩ (.scrape ⟨1500000, 500000⟩) trivial
  refine ⟨hserves, ?_, (failedInstall_spec hserves (by decide)).2⟩
  norm_num [collectCpu, collectCpuBy, CpuUsage.seconds, registerProcessCollector, registerFresh,
    ProcessState.construct, ProcessState.fresh, ProcessState.cpuSample, Store.add]

/-! ## Queued callbacks -/

/-- A callback that ran: the service that was live, its cumulative reading, and its increment. -/
structure CpuCredit where
  live : Option String
  reading : ℚ
  credited : Option (String × ℚ)
deriving DecidableEq, Repr

/-- The amount of the increment. -/
def CpuCredit.amount (c : CpuCredit) : ℚ := c.credited.elim 0 (·.2)

/-- The amount of the increment to a service. -/
def CpuCredit.amountTo (service : String) (c : CpuCredit) : ℚ :=
  c.credited.elim 0 fun (live, amount) => if live = service then amount else 0

/-- What happens to the samples of the counter. -/
inductive CpuEntry where
  /-- A callback ran. -/
  | credit (c : CpuCredit)
  /-- A swap, or the rollback of one, removed the label set of a service. -/
  | removed (service : String)
deriving DecidableEq, Repr

/-- The amount of the increment, if it is one. -/
def CpuEntry.amount : CpuEntry → ℚ
  | .credit c => c.amount
  | .removed _ => 0

/-- The amount of the increment to a service, if it is one. -/
def CpuEntry.amountTo (service : String) : CpuEntry → ℚ
  | .credit c => c.amountTo service
  | .removed _ => 0

/-- The service whose label set a registration removes. -/
def RollbackState.swappedOut : RollbackState → Option String
  | .serviceSwap priorService => some priorService
  | _ => none

/-- The service whose label set `restoreProcessCollector` removes. -/
def RollbackState.rolledBack (p : ProcessState) : RollbackState → Option String
  | .serviceSwap priorService =>
    let failedService := p.service.getD ""
    if failedService ≠ "" ∧ failedService ≠ priorService then some failedService else none
  | _ => none

/-- The collector between the steps of scrapes and installs. -/
structure CpuRun where
  process : ProcessState
  /-- The callbacks that are queued on `cpuCollectMutex`. The metric that each captured is the same
  one, as long as the collector is not unregistered. -/
  queued : ℕ
  /-- The rollback states that the registrations since the first one returned. -/
  returned : List RollbackState
  /-- What `process.cpuUsage()` returns now. -/
  usage : CpuUsage
  /-- What happened to the samples, the last entry first. -/
  log : List CpuEntry

/-- A step of a scrape, of an install, or of the process itself. -/
inductive CpuEvent where
  /-- A scrape queues its callback. -/
  | scrape
  /-- The callback that was queued first runs. -/
  | callback
  /-- An install registers the collector for a service. -/
  | register (service : String)
  /-- An install restores the collector, with the state of this position in `returned`. -/
  | restore (index : ℕ)
  /-- The process has used more CPU time. -/
  | burn (usage : CpuUsage)
deriving DecidableEq, Repr

namespace CpuRun

/-- The state after a step, where the operations of the callback are rounded by `round`. -/
def step (round : ℚ → ℚ) (s : CpuRun) : CpuEvent → CpuRun
  | .scrape => { s with queued := s.queued + 1 }
  | .callback =>
    -- It reads the service and the last reading when it runs.
    if s.queued = 0 then s
    else
      let (process, credited) := collectCpuBy round s.usage s.process
      { s with
        process
        queued := s.queued - 1
        log := .credit ⟨s.process.service, s.usage.seconds, credited⟩ :: s.log }
  | .register service =>
    let (process, state) := registerProcessCollector none service s.process
    { s with
      process
      returned := s.returned ++ state.toList
      log := ((state.bind RollbackState.swappedOut).map .removed).toList ++ s.log }
  | .restore index =>
    match s.returned[index]? with
    | some state =>
      { s with
        process := restoreProcessCollector state s.process
        log := ((state.rolledBack s.process).map .removed).toList ++ s.log }
    | none => s
  | .burn usage => { s with usage }

/-- The state right after a first registration. -/
def registered (service : String) (usage : CpuUsage) : CpuRun :=
  ⟨(registerProcessCollector none service .fresh).1, 0, [], usage, []⟩

/-- The readings of `process.cpuUsage()` do not decrease. -/
def Advances (s : CpuRun) : CpuEvent → Prop
  | .burn usage => s.usage.seconds ≤ usage.seconds
  | _ => True

/-- The reading of the callback that ran last; zero before the first one. -/
def lastReading : List CpuEntry → ℚ
  | [] => 0
  | .credit c :: _ => c.reading
  | .removed _ :: log => lastReading log

/-- Each callback credited what was used since the one before it, to the service that was live. -/
def CreditsUsage : List CpuEntry → Prop
  | [] => True
  | .credit c :: log =>
    c.amount = c.reading - lastReading log ∧
      (∀ service amount, c.credited = some (service, amount) → c.live = some service) ∧
      CreditsUsage log
  | .removed _ :: log => CreditsUsage log

/-- What was credited to a service since its label set was last removed. -/
def creditedTo (service : String) (log : List CpuEntry) : ℚ :=
  ((log.takeWhile (· ≠ .removed service)).map (CpuEntry.amountTo service)).sum

/-- What the steps in exact arithmetic keep after a first registration. -/
structure Inv (s : CpuRun) : Prop where
  registered : s.process.registered = true
  service : s.process.service.isSome = true
  /-- No rollback state unregisters the collector. -/
  returned : ∀ state ∈ s.returned, state ≠ .registered
  last : s.process.lastCpuSeconds = lastReading s.log
  usage : s.process.lastCpuSeconds ≤ s.usage.seconds
  credits : CreditsUsage s.log
  /-- The counter is constructed. -/
  counter : s.process.cpuTotal.isSome = true
  /-- The sample of each service is the sum of its credits. -/
  samples : ∀ service, (s.process.cpuSample service).getD 0 = creditedTo service s.log

/-- A first registration satisfies the invariant. -/
theorem inv_registered (service : String) (usage : CpuUsage) :
    (registered service usage).Inv where
  registered := rfl
  service := rfl
  returned := by
    intro state hstate
    cases hstate
  last := rfl
  usage := by
    show (0 : ℚ) ≤ (usage.user + usage.system) / 1000000
    positivity
  credits := trivial
  counter := rfl
  samples _ := rfl

/-- A callback credits the difference of its reading to the last one. -/
theorem amount_collectCpu {s : CpuRun} (hs : s.Inv) :
    (CpuCredit.mk s.process.service s.usage.seconds (collectCpu s.usage s.process).2).amount =
      s.usage.seconds - lastReading s.log := by
  have hle := hs.usage
  rw [← hs.last]
  unfold CpuCredit.amount
  rw [collectCpu_eq]
  dsimp only
  split_ifs with hdelta
  · exact max_eq_right (by linarith)
  · -- Nothing was used, so nothing is credited.
    have hmax := le_max_right 0 (s.usage.seconds - s.process.lastCpuSeconds)
    show (0 : ℚ) = _
    linarith

/-- A callback credits the service that is live. -/
theorem live_of_credited {s : CpuRun} (hs : s.Inv) {service : String} {amount : ℚ}
    (h : (collectCpu s.usage s.process).2 = some (service, amount)) :
    s.process.service = some service := by
  obtain ⟨live, hlive⟩ := Option.isSome_iff_exists.mp hs.service
  rw [collectCpu_eq] at h
  dsimp only at h
  split_ifs at h
  rw [hlive] at h ⊢
  exact congrArg some (Prod.mk.inj (Option.some.inj h)).1

/-- A callback increments the sample of a service by what it credits to it. -/
theorem cpuSample_collectCpu {p : ProcessState} (hcounter : p.cpuTotal.isSome = true)
    (u : CpuUsage) (live : Option String) (reading : ℚ) (service : String) :
    ((collectCpu u p).1.cpuSample service).getD 0 =
      (p.cpuSample service).getD 0 +
        (CpuCredit.mk live reading (collectCpu u p).2).amountTo service := by
  obtain ⟨store, hstore⟩ := Option.isSome_iff_exists.mp hcounter
  unfold ProcessState.cpuSample CpuCredit.amountTo
  rw [collectCpu_eq]
  dsimp only
  split_ifs with hdelta
  · rw [hstore]
    exact Store.getD_add store (p.service.getD "null") service _
  · exact (add_zero _).symm

/-- A registration over a registered collector leaves the last reading, and returns a state that
does not unregister it. The sample that it drops is the one that the state names. -/
theorem register_frame {p : ProcessState} (hreg : p.registered = true) (service : String) :
    ∃ q state, registerProcessCollector none service p = (q, some state) ∧
      q.registered = true ∧ q.service.isSome = true ∧ q.lastCpuSeconds = p.lastCpuSeconds ∧
      state ≠ .registered ∧ q.cpuTotal.isSome = p.cpuTotal.isSome ∧
      ∀ k, q.cpuSample k = if state.swappedOut = some k then none else p.cpuSample k := by
  unfold registerProcessCollector
  rw [if_pos hreg]
  split_ifs with hsvc
  · exact ⟨p, .reused, rfl, hreg, Option.isSome_of_eq_some hsvc, rfl, by simp, rfl, fun k => rfl⟩
  · refine ⟨_, _, rfl, hreg, rfl, rfl, by simp, Option.isSome_map, fun k => ?_⟩
    rw [cpuSample_removeService]
    simp only [RollbackState.swappedOut, Option.some.injEq, eq_comm]
    rfl

/-- Restoring such a state leaves the collector registered, and the last reading. The sample that it
drops is the one that `RollbackState.rolledBack` names. -/
theorem restore_frame {p : ProcessState} (hreg : p.registered = true)
    (hsvc : p.service.isSome = true) {state : RollbackState} (hstate : state ≠ .registered) :
    (restoreProcessCollector state p).registered = true ∧
      (restoreProcessCollector state p).service.isSome = true ∧
      (restoreProcessCollector state p).lastCpuSeconds = p.lastCpuSeconds ∧
      (restoreProcessCollector state p).cpuTotal.isSome = p.cpuTotal.isSome ∧
      ∀ k, (restoreProcessCollector state p).cpuSample k =
        if state.rolledBack p = some k then none else p.cpuSample k := by
  cases state with
  | reused => exact ⟨hreg, hsvc, rfl, rfl, fun k => rfl⟩
  | registered => exact absurd rfl hstate
  | serviceSwap prior =>
    -- The rollback takes away the samples of the failed service, unless it is the prior one.
    by_cases hfailed : p.service.getD "" ≠ "" ∧ p.service.getD "" ≠ prior
    · have hrestored : restoreProcessCollector (.serviceSwap prior) p =
          { p with service := some prior }.removeService (p.service.getD "") := if_pos hfailed
      have hrolled : RollbackState.rolledBack p (.serviceSwap prior) =
          some (p.service.getD "") := if_pos hfailed
      rw [hrestored]
      refine ⟨hreg, rfl, rfl, Option.isSome_map, fun k => ?_⟩
      rw [cpuSample_removeService]
      simp only [hrolled, Option.some.injEq, eq_comm]
      rfl
    · have hrestored : restoreProcessCollector (.serviceSwap prior) p =
          { p with service := some prior } := if_neg hfailed
      have hrolled : RollbackState.rolledBack p (.serviceSwap prior) = none := if_neg hfailed
      rw [hrestored]
      refine ⟨hreg, rfl, rfl, rfl, fun k => ?_⟩
      simp only [hrolled, reduceCtorEq, if_false]
      rfl

/-- Removing a label set takes what was credited to its service. -/
theorem creditedTo_removed (service : String) (removed : Option String) (log : List CpuEntry) :
    creditedTo service ((removed.map CpuEntry.removed).toList ++ log) =
      if removed = some service then 0 else creditedTo service log := by
  rcases removed with _ | service'
  · rfl
  · by_cases h : service' = service
    · simp [creditedTo, h]
    · simp [creditedTo, h, CpuEntry.amountTo]

/-- A removed label set leaves the reading of the last callback. -/
theorem lastReading_removed (removed : Option String) (log : List CpuEntry) :
    lastReading ((removed.map CpuEntry.removed).toList ++ log) = lastReading log := by
  rcases removed with _ | service <;> rfl

/-- A removed label set leaves what the callbacks credited. -/
theorem creditsUsage_removed {removed : Option String} {log : List CpuEntry}
    (h : CreditsUsage log) : CreditsUsage ((removed.map CpuEntry.removed).toList ++ log) := by
  rcases removed with _ | service
  · exact h
  · exact h

/-- A process whose samples are the earlier ones but for a removed label set has the credits. -/
theorem samples_removed {p q : ProcessState} {log : List CpuEntry} {removed : Option String}
    (hsamples : ∀ k, (p.cpuSample k).getD 0 = creditedTo k log)
    (hq : ∀ k, q.cpuSample k = if removed = some k then none else p.cpuSample k) (k : String) :
    (q.cpuSample k).getD 0 = creditedTo k ((removed.map CpuEntry.removed).toList ++ log) := by
  rw [hq, creditedTo_removed]
  split_ifs
  · rfl
  · exact hsamples k

/-- Every step in exact arithmetic keeps the invariant. -/
theorem inv_step (s : CpuRun) (e : CpuEvent) (hs : s.Inv) (he : s.Advances e) :
    (s.step id e).Inv := by
  obtain ⟨hreg, hsvc, hreturned, hlast, husage, hcredits, hcounter, hsamples⟩ := hs
  cases e with
  | scrape => exact ⟨hreg, hsvc, hreturned, hlast, husage, hcredits, hcounter, hsamples⟩
  | callback =>
    have hs : s.Inv := ⟨hreg, hsvc, hreturned, hlast, husage, hcredits, hcounter, hsamples⟩
    obtain ⟨hreg', hsvc', hlast'⟩ := collectCpu_frame s.usage s.process
    by_cases hqueued : s.queued = 0
    · rw [step, if_pos hqueued]
      exact hs
    · have hstep : s.step id .callback =
          { s with
            process := (collectCpu s.usage s.process).1
            queued := s.queued - 1
            log := .credit ⟨s.process.service, s.usage.seconds,
              (collectCpu s.usage s.process).2⟩ :: s.log } := by
        rw [step, if_neg hqueued]
        rfl
      rw [hstep]
      refine ⟨hreg'.trans hreg, ?_, hreturned, hlast', hlast'.le, ?_, ?_, ?_⟩
      · show (collectCpu s.usage s.process).1.service.isSome = true
        rw [hsvc']
        exact hsvc
      · -- The new credit is what was used since the last reading, which the log ends with.
        exact ⟨amount_collectCpu hs, fun service amount h => live_of_credited hs h, hcredits⟩
      · exact isSome_cpuTotal_collectCpu s.usage hcounter
      · intro k
        have hsample := cpuSample_collectCpu hcounter s.usage s.process.service s.usage.seconds k
        rw [hsamples k, add_comm] at hsample
        rw [hsample]
        simp [creditedTo, CpuEntry.amountTo]
  | register service =>
    -- A swap removes the samples of the service that it takes the place of, and the log says so.
    obtain ⟨q, state, hq, hqreg, hqsvc, hqlast, hstate, hqcounter, hqsamples⟩ :=
      register_frame hreg service
    have hstep : s.step id (.register service) =
        { s with
          process := q
          returned := s.returned ++ [state]
          log := (state.swappedOut.map .removed).toList ++ s.log } := by
      simp only [step, hq]
      rfl
    rw [hstep]
    refine ⟨hqreg, hqsvc, ?_, ?_, hqlast.trans_le husage, creditsUsage_removed hcredits,
      hqcounter.trans hcounter, samples_removed hsamples hqsamples⟩
    · intro st hst
      rcases List.mem_append.mp hst with hst | hst
      · exact hreturned st hst
      · rw [List.mem_singleton.mp hst]
        exact hstate
    · rw [lastReading_removed]
      exact hqlast.trans hlast
  | restore index =>
    -- A rollback removes those of the service that was swapped in; the state that it takes back is
    -- one that a registration has returned.
    unfold step
    dsimp only
    split
    · rename_i state hstate
      have hne := hreturned state (List.mem_of_getElem? hstate)
      obtain ⟨hreg', hsvc', hlast', hcounter', hsamples'⟩ := restore_frame hreg hsvc hne
      refine ⟨hreg', hsvc', hreturned, ?_, hlast'.trans_le husage, creditsUsage_removed hcredits,
        hcounter'.trans hcounter, samples_removed hsamples hsamples'⟩
      rw [lastReading_removed]
      exact hlast'.trans hlast
    · exact ⟨hreg, hsvc, hreturned, hlast, husage, hcredits, hcounter, hsamples⟩
  | burn usage =>
    exact ⟨hreg, hsvc, hreturned, hlast, husage.trans he, hcredits, hcounter, hsamples⟩

/-- Credits of what was used between two readings add up to the last reading. -/
theorem sum_amount {log : List CpuEntry} (h : CreditsUsage log) :
    (log.map CpuEntry.amount).sum = lastReading log := by
  induction log with
  | nil => rfl
  | cons entry log ih =>
    rw [List.map_cons, List.sum_cons]
    cases entry with
    | credit c =>
      obtain ⟨hamount, -, hrest⟩ := h
      rw [ih hrest]
      show c.amount + lastReading log = c.reading
      rw [hamount]
      exact sub_add_cancel c.reading (lastReading log)
    | removed service =>
      rw [ih h]
      exact zero_add _

end CpuRun

/-- After a first registration, through any order of scrapes, queued callbacks, swaps and rollbacks,
with readings that do not decrease, and in exact arithmetic: the increments add up to the last
reading, which is at most the CPU time of the process; each callback credits what was used since the
one before it, to the service that is live; and the sample of each service is the sum of its
increments since its label set was last removed. -/
theorem increments_add_up (service : String) (usage : CpuUsage) (es : List CpuEvent)
    (h : Lib.Along (CpuRun.step id) CpuRun.Advances (.registered service usage) es) :
    let s := Lib.run (CpuRun.step id) (.registered service usage) es
    (s.log.map CpuEntry.amount).sum = s.process.lastCpuSeconds ∧
      s.process.lastCpuSeconds ≤ s.usage.seconds ∧ CpuRun.CreditsUsage s.log ∧
      ∀ k, (s.process.cpuSample k).getD 0 = CpuRun.creditedTo k s.log := by
  intro s
  have hinv : s.Inv := Lib.invariant_along CpuRun.inv_step (CpuRun.inv_registered service usage) h
  refine ⟨?_, hinv.usage, hinv.credits, hinv.samples⟩
  rw [hinv.last]
  exact CpuRun.sum_amount hinv.credits

/-- In doubles, the increments for readings of 1 ms and 9 ms add up to more than the process has
used, and more than the last reading; so does the sample. -/
theorem rounded_increments_exceed :
    let es := [.scrape, .callback, .burn ⟨9000, 0⟩, .scrape, .callback]
    let start := CpuRun.registered "portal" ⟨1000, 0⟩
    let s := Lib.run (CpuRun.step Lib.F64.roundRat) start es
    Lib.Along (CpuRun.step Lib.F64.roundRat) CpuRun.Advances start es ∧
      s.process.lastCpuSeconds = Lib.F64.roundRat (9 / 1000) ∧
      s.process.lastCpuSeconds < (s.log.map CpuEntry.amount).sum ∧
      s.usage.seconds < (s.log.map CpuEntry.amount).sum ∧
      s.process.cpuSample "portal" = some (Lib.F64.roundRat (9000000000000001 / 10^18)) ∧
      s.usage.seconds < Lib.F64.roundRat (9000000000000001 / 10^18) := by
  refine ⟨⟨trivial, trivial, ?_, trivial, trivial, trivial⟩, ?_, ?_, ?_, ?_, ?_⟩
  · show CpuUsage.seconds ⟨1000, 0⟩ ≤ CpuUsage.seconds ⟨9000, 0⟩
    norm_num [CpuUsage.seconds]
  all_goals decide +kernel

/-- Two scrapes overlap, and a swap comes between their callbacks. -/
theorem overlapping_scrapes_add_up :
    let es := [.scrape, .scrape, .callback, .register "api", .burn ⟨3, 0⟩, .callback, .restore 0]
    let s := Lib.run (CpuRun.step id) (.registered "portal" ⟨1, 0⟩) es
    Lib.Along (CpuRun.step id) CpuRun.Advances (.registered "portal" ⟨1, 0⟩) es ∧
      (s.log.map CpuEntry.amount).sum = s.process.lastCpuSeconds := by
  have hes : Lib.Along (CpuRun.step id) CpuRun.Advances (.registered "portal" ⟨1, 0⟩)
      [.scrape, .scrape, .callback, .register "api", .burn ⟨3, 0⟩, .callback, .restore 0] := by
    refine ⟨trivial, trivial, trivial, trivial, ?_, trivial, trivial, trivial⟩
    show CpuUsage.seconds ⟨1, 0⟩ ≤ CpuUsage.seconds ⟨3, 0⟩
    norm_num [CpuUsage.seconds]
  exact ⟨hes, (increments_add_up "portal" ⟨1, 0⟩ _ hes).1⟩

end SimsysMetrics.Node
