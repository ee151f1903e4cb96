import SimsysMetrics.Service
import SimsysMetrics.Python.Process

/-!
# Concurrent installs of the Python lane

Installs on several threads, over `_SERVICE` and the process collector. Each one reads the service,
sets its own, registers its collector, and then commits, or rolls back in two steps: it restores the
collector, and then sets the service to the value that it read. Each step holds a lock, so a run is
any interleaving of them.

In every run `REGISTRY` has exactly the singleton (`registry_eq`). The service and the singleton are
those of a committed install, or the initial ones, as long as the installs nest
(`concurrent_installs`). `Nested` is the condition: the installs register in the order in which they
set the service, and one rolls back only while it is the latest that set it, and below it stand
those that stood when it read the service. Only then is what it read what has to come back.
-/

namespace SimsysMetrics.Python

/-! ## The collectors between two steps -/

/-- Registering from a live state returns, and leaves a live state with a collector of the
service. -/
theorem register_live (id : ℕ) (service : String) (collector : Option Collector) :
    ∃ c state, registerProcessCollector id none service (.live collector) =
      (.live (some c), some state) ∧ c.service = service := by
  cases collector with
  | none => exact ⟨⟨id, service⟩, .registered ⟨id, service⟩, rfl, rfl⟩
  | some prior =>
    by_cases hsvc : prior.service = service
    · refine ⟨prior, .reused prior, ?_, hsvc⟩
      simp [registerProcessCollector, Collectors.live, hsvc]
    · refine ⟨⟨id, service⟩, .serviceSwap prior ⟨id, service⟩, ?_, rfl⟩
      simp [registerProcessCollector, installCollector, Collectors.live, hsvc]

/-- Restoring from a live state leaves a live state, whatever the record is. -/
theorem restore_live (state : RollbackState) (collector : Option Collector) :
    ∃ collector', restoreProcessCollector state (.live collector) = .live collector' := by
  cases state with
  | reused installed => exact ⟨collector, rfl⟩
  | registered installed =>
    by_cases hcol : collector = some installed
    · refine ⟨none, ?_⟩
      simp [restoreProcessCollector, Collectors.live, hcol]
    · refine ⟨collector, ?_⟩
      simp [restoreProcessCollector, Collectors.live, hcol]
  | serviceSwap prior installed =>
    by_cases hcol : collector = some installed
    · refine ⟨some prior, ?_⟩
      simp [restoreProcessCollector, Collectors.live, hcol]
    · refine ⟨collector, ?_⟩
      simp [restoreProcessCollector, Collectors.live, hcol]

/-- In a live state no collector but the singleton is registered. -/
theorem Collectors.consistent_live (collector : Option Collector) :
    (Collectors.live collector).Consistent := by
  intro c hc
  simpa [Collectors.live] using hc

/-! ## The steps -/

/-- How far an install is. -/
inductive InstallPhase where
  /-- It has read the service. -/
  | peeked
  /-- It has set its own. -/
  | set
  /-- It has registered its collector, with the rollback state. -/
  | registered (state : RollbackState)
  | committed
  /-- It is rolling back, and has restored the collector. -/
  | restored
  | rolledBack
deriving DecidableEq, Repr

/-- The install has registered its collector, and neither committed nor restored it. -/
def InstallPhase.isRegistered : InstallPhase → Bool
  | .registered _ => true
  | _ => false

/-- An install that set the service: its index, and its service. -/
structure Setter where
  k : ℕ
  service : String
deriving DecidableEq, Repr

/-- An install: its service, the service that it read, those that stood then, and its phase. -/
structure Attempt where
  service : String
  pre : Option String
  below : List Setter
  phase : InstallPhase
deriving DecidableEq, Repr

/-- The process-wide state, and the installs in the order in which they began. `setters` and
`registrants` are those that set the service or registered and have not undone it, the latest
first; no step of the code reads them. -/
structure Installs where
  service : Option String
  collectors : Collectors
  attempts : List Attempt
  setters : List Setter
  registrants : List Setter
deriving DecidableEq

/-- A step of an install after it has read the service. -/
inductive InstallMove where
  | set
  | register
  | commit
  | restore
  | unset
deriving DecidableEq, Repr

/-- An install begins by reading the service, or the one with the index takes its next step. -/
inductive InstallEvent where
  | peek (service : String)
  | move (k : ℕ) (m : InstallMove)
deriving DecidableEq, Repr

namespace Installs

/-- No install has begun; the service and the collector are what the process has. -/
def start (service collector : Option String) : Installs :=
  ⟨setService service, .live (collector.map (⟨0, ·⟩)), [], [], []⟩

/-- The installs after the one with the index has moved to a phase. -/
def moved (s : Installs) (k : ℕ) (a : Attempt) (phase : InstallPhase) : List Attempt :=
  s.attempts.set k { a with phase }

/-- A step of an install, in the phase in which it takes it. The collector that it constructs is
its own object. -/
def act (s : Installs) (k : ℕ) (a : Attempt) : InstallMove → Installs
  | .set =>
    match a.phase with
    | .peeked =>
      { s with
        service := setService (some a.service), attempts := s.moved k a .set
        setters := ⟨k, a.service⟩ :: s.setters }
    | _ => s
  | .register =>
    match a.phase with
    | .set =>
      match registerProcessCollector (k + 1) none a.service s.collectors with
      | (collectors, some state) =>
        { s with
          collectors, attempts := s.moved k a (.registered state)
          registrants := ⟨k, a.service⟩ :: s.registrants }
      -- It raised: there is nothing to restore.
      | (collectors, none) => { s with collectors, attempts := s.moved k a .restored }
    | _ => s
  | .commit =>
    match a.phase with
    | .registered _ => { s with attempts := s.moved k a .committed }
    | _ => s
  | .restore =>
    match a.phase with
    | .registered state =>
      { s with
        collectors := restoreProcessCollector state s.collectors, attempts := s.moved k a .restored
        registrants := s.registrants.erase ⟨k, a.service⟩ }
    | _ => s
  | .unset =>
    match a.phase with
    | .restored =>
      { s with
        service := setService a.pre, attempts := s.moved k a .rolledBack
        setters := s.setters.erase ⟨k, a.service⟩ }
    | _ => s

/-- One step. -/
def step (s : Installs) : InstallEvent → Installs
  | .peek service =>
    { s with attempts := s.attempts ++ [⟨service, s.service, s.setters, .peeked⟩] }
  | .move k m =>
    match s.attempts[k]? with
    | some a => s.act k a m
    | none => s

/-- The installs nest. One that registers set the service after all that have registered. One that
rolls back is the latest that set it, and below it stand those that stood when it read the
service. -/
def Nested (s : Installs) : InstallEvent → Prop
  | .move k .register => ∀ a ∈ s.attempts[k]?, a.phase = .set →
      (⟨k, a.service⟩ :: s.registrants).Sublist s.setters
  | .move k .restore => ∀ a ∈ s.attempts[k]?, a.phase.isRegistered →
      s.setters = ⟨k, a.service⟩ :: a.below
  | .move k .unset => ∀ a ∈ s.attempts[k]?, a.phase = .restored →
      s.setters = ⟨k, a.service⟩ :: a.below
  | _ => True

instance (s : Installs) (e : InstallEvent) : Decidable (s.Nested e) := by
  unfold Nested
  split <;> infer_instance

/-- No install is in progress. -/
def Quiescent (s : Installs) : Prop :=
  ∀ a ∈ s.attempts, a.phase = .committed ∨ a.phase = .rolledBack

instance (s : Installs) : Decidable s.Quiescent :=
  inferInstanceAs (Decidable (∀ a ∈ s.attempts, _))

/-- The service and the live collector are those of a committed install; without one they are the
initial ones. -/
def Settled (service collector : Option String) (s : Installs) : Prop :=
  if ∃ a ∈ s.attempts, a.phase = .committed then
    ∃ a ∈ s.attempts, a.phase = .committed ∧ s.service = setService (some a.service) ∧
      ∃ c, s.collectors.collector = some c ∧ c.service = a.service
  else
    s.service = (start service collector).service ∧
      s.collectors = (start service collector).collectors

/-! ## Which installs stand -/

/-- The phases in which an install has set the service and not set it back. -/
def HasSet : InstallPhase → Prop
  | .peeked | .rolledBack => False
  | _ => True

/-- The phases in which an install has registered and not restored. -/
def HasRegistered : InstallPhase → Prop
  | .registered _ | .committed => True
  | _ => False

/-- The list has exactly the installs whose phase meets the condition. -/
def Tracks (P : InstallPhase → Prop) (attempts : List Attempt) (ws : List Setter) : Prop :=
  ∀ w : Setter, w ∈ ws ↔ ∃ a, attempts[w.k]? = some a ∧ a.service = w.service ∧ P a.phase

section Tracks

variable {P : InstallPhase → Prop} {s : Installs} {ws : List Setter} {k : ℕ} {a : Attempt}
  {phase : InstallPhase}

/-- An install of the list after one has moved: the one in its new phase, or another as before. -/
theorem getElem?_moved (hk : s.attempts[k]? = some a) (j : ℕ) (b : Attempt) :
    (s.moved k a phase)[j]? = some b ↔
      j = k ∧ b = { a with phase } ∨ j ≠ k ∧ s.attempts[j]? = some b := by
  have hlt : k < s.attempts.length := (List.getElem?_eq_some_iff.mp hk).1
  by_cases hjk : j = k
  · subst hjk
    simp [moved, List.getElem?_set_self hlt, eq_comm]
  · simp [moved, List.getElem?_set_ne (Ne.symm hjk), hjk]

/-- Who is in the list after an install has moved: the install if its new phase meets the condition,
and the others as before. -/
theorem tracks_moved_iff (h : Tracks P s.attempts ws) (hk : s.attempts[k]? = some a)
    (ws' : List Setter) :
    Tracks P (s.moved k a phase) ws' ↔
      ∀ w, w ∈ ws' ↔ w = ⟨k, a.service⟩ ∧ P phase ∨ w.k ≠ k ∧ w ∈ ws := by
  refine forall_congr' fun w => iff_congr Iff.rfl ?_
  simp only [getElem?_moved hk, h w]
  constructor
  · rintro ⟨b, ⟨hwk, rfl⟩ | ⟨hwk, hb⟩, hservice, hphase⟩
    · refine Or.inl ⟨?_, hphase⟩
      obtain ⟨j, service⟩ := w
      simp only at hwk hservice
      rw [hwk, ← hservice]
    · exact Or.inr ⟨hwk, b, hb, hservice, hphase⟩
  · rintro (⟨rfl, hphase⟩ | ⟨hwk, b, hb, hservice, hphase⟩)
    · exact ⟨_, Or.inl ⟨rfl, rfl⟩, rfl, hphase⟩
    · exact ⟨b, Or.inr ⟨hwk, hb⟩, hservice, hphase⟩

/-- Of the setters with the index of an install only the install itself may be in the list. -/
theorem Tracks.mem_iff (h : Tracks P s.attempts ws) (hk : s.attempts[k]? = some a) {w : Setter}
    (hw : w.k = k) : w ∈ ws ↔ w = ⟨k, a.service⟩ ∧ P a.phase := by
  obtain ⟨j, service⟩ := w
  simp only at hw
  subst hw
  rw [h]
  simp [hk, eq_comm]

/-- An install that comes to meet the condition is added to the list. -/
theorem Tracks.push (h : Tracks P s.attempts ws) (hk : s.attempts[k]? = some a) (hold : ¬ P a.phase)
    (hnew : P phase) : Tracks P (s.moved k a phase) (⟨k, a.service⟩ :: ws) := by
  rw [tracks_moved_iff h hk]
  intro w
  by_cases hw : w.k = k
  · have hmem := h.mem_iff hk hw
    simp [hw, hmem, hold, hnew]
  · simp [hw, hnew]

/-- An install that meets the condition as before keeps its place. -/
theorem Tracks.keep (h : Tracks P s.attempts ws) (hk : s.attempts[k]? = some a)
    (hiff : P phase ↔ P a.phase) : Tracks P (s.moved k a phase) ws := by
  rw [tracks_moved_iff h hk]
  intro w
  by_cases hw : w.k = k
  · have hmem := h.mem_iff hk hw
    simp [hw, hmem, hiff]
  · have hne : w ≠ ⟨k, a.service⟩ := fun heq => hw (by rw [heq])
    simp [hw, hne]

/-- The head of the list is taken off when it no longer meets the condition. -/
theorem Tracks.pop (h : Tracks P s.attempts (⟨k, a.service⟩ :: ws)) (hk : s.attempts[k]? = some a)
    (hnodup : (⟨k, a.service⟩ :: ws : List Setter).Nodup) (hnew : ¬ P phase) :
    Tracks P (s.moved k a phase) ws := by
  rw [tracks_moved_iff h hk]
  intro w
  by_cases hw : w.k = k
  · have hnot : w ∉ ws := by
      intro hmem
      obtain ⟨heq, -⟩ := (h.mem_iff hk hw).mp (List.mem_cons_of_mem _ hmem)
      exact (List.nodup_cons.mp hnodup).1 (heq ▸ hmem)
    simp [hw, hnot, hnew]
  · have hne : w ≠ ⟨k, a.service⟩ := fun heq => hw (by rw [heq])
    simp [hw, hne, hnew]

/-- An install that begins is not in the list. -/
theorem Tracks.begin (h : Tracks P s.attempts ws) (b : Attempt) (hb : ¬ P b.phase) :
    Tracks P (s.attempts ++ [b]) ws := by
  intro w
  rw [h w]
  rcases lt_or_ge w.k s.attempts.length with hlt | hge
  · rw [List.getElem?_append_left hlt]
  · have hnone : s.attempts[w.k]? = none := List.getElem?_eq_none hge
    rw [hnone, List.getElem?_append_right hge]
    refine iff_of_false (by simp) ?_
    rintro ⟨c, hc, -, hphase⟩
    have hcb : c = b := List.mem_singleton.mp (List.mem_of_getElem? hc)
    exact hb (hcb ▸ hphase)

end Tracks

/-! ## What the standing installs determine -/

/-- The service of the latest install that stands. -/
def topService (init : Option String) : List Setter → Option String
  | [] => init
  | w :: _ => setService (some w.service)

/-- The service of the latest install is none or trimmed. -/
theorem trimmed_topService (service₀ : Option String) (ws : List Setter) :
    Trimmed isSpace (topService (setService service₀) ws) := by
  cases ws with
  | nil => exact setServiceBy_trimmed isSpace service₀
  | cons w ws => exact setServiceBy_trimmed isSpace (some w.service)

/-- The collectors after the installs have registered, the earliest first. -/
def layered (collector : Option Collector) : List Setter → Collectors
  | [] => .live collector
  | w :: ws => (registerProcessCollector (w.k + 1) none w.service (layered collector ws)).1

/-- The layered collectors are a live state. -/
theorem exists_layered_eq_live (collector : Option Collector) (ws : List Setter) :
    ∃ collector', layered collector ws = .live collector' := by
  cases ws with
  | nil => exact ⟨collector, rfl⟩
  | cons w ws =>
    obtain ⟨collector', hlive⟩ := exists_layered_eq_live collector ws
    obtain ⟨c, state, hreg, -⟩ := register_live (w.k + 1) w.service collector'
    refine ⟨some c, ?_⟩
    rw [layered, hlive, hreg]

/-- The live collector is one of the service of the install that registered last. -/
theorem layered_cons_service (collector : Option Collector) (w : Setter) (ws : List Setter) :
    ∃ c, (layered collector (w :: ws)).collector = some c ∧ c.service = w.service := by
  obtain ⟨collector', hlive⟩ := exists_layered_eq_live collector ws
  obtain ⟨c, state, hreg, hservice⟩ := register_live (w.k + 1) w.service collector'
  refine ⟨c, ?_, hservice⟩
  rw [layered, hlive, hreg]
  rfl

/-- Restoring with the state that registering returned takes the latest layer off. -/
theorem restore_layered (collector : Option Collector) (w : Setter) (ws : List Setter)
    {state : RollbackState}
    (hstate : (registerProcessCollector (w.k + 1) none w.service (layered collector ws)).2 =
      some state) :
    restoreProcessCollector state (layered collector (w :: ws)) = layered collector ws := by
  obtain ⟨collector', hlive⟩ := exists_layered_eq_live collector ws
  have hcons : (layered collector ws).Consistent := by
    rw [hlive]
    exact Collectors.consistent_live collector'
  have hrestore := restore_register (w.k + 1) w.service hcons
  rw [hstate] at hrestore
  exact hrestore

/-- What the standing installs determine: the service is that of the latest one, the collectors are
layered, and each one has the record and the service that undo it. -/
structure Inv (service₀ collector₀ : Option String) (s : Installs) : Prop where
  service : s.service = topService (setService service₀) s.setters
  collectors : s.collectors = layered (collector₀.map (⟨0, ·⟩)) s.registrants
  order : s.registrants.Sublist s.setters
  nodup : s.setters.Nodup
  setters : Tracks HasSet s.attempts s.setters
  registrants : Tracks HasRegistered s.attempts s.registrants
  pre : ∀ a ∈ s.attempts, a.pre = topService (setService service₀) a.below
  record : ∀ k a state, s.attempts[k]? = some a → a.phase = .registered state →
    ∀ ws, (⟨k, a.service⟩ :: ws) <:+ s.registrants →
      (registerProcessCollector (k + 1) none a.service
        (layered (collector₀.map (⟨0, ·⟩)) ws)).2 = some state

section Steps

variable {service₀ collector₀ : Option String} {s : Installs} {k : ℕ} {a : Attempt}

/-- The invariant holds before any install. -/
theorem inv_start : (start service₀ collector₀).Inv service₀ collector₀ where
  service := rfl
  collectors := rfl
  order := List.Sublist.refl _
  nodup := List.nodup_nil
  setters := by
    intro w
    simp [start]
  registrants := by
    intro w
    simp [start]
  pre := by
    intro a ha
    cases ha
  record := by
    intro k a state hk
    simp [start] at hk

/-- Moving an install keeps what every install has read. -/
theorem Inv.pre_moved (hinv : s.Inv service₀ collector₀) (hk : s.attempts[k]? = some a)
    (phase : InstallPhase) :
    ∀ b ∈ s.moved k a phase, b.pre = topService (setService service₀) b.below := by
  intro b hb
  obtain ⟨j, hj⟩ := List.mem_iff_getElem?.mp hb
  rcases (getElem?_moved hk j b).mp hj with ⟨-, rfl⟩ | ⟨-, hget⟩
  · exact hinv.pre a (List.mem_of_getElem? hk)
  · exact hinv.pre b (List.mem_of_getElem? hget)

/-- The records of the others stay good when the installs that registered become fewer. -/
theorem Inv.record_moved (hinv : s.Inv service₀ collector₀) (hk : s.attempts[k]? = some a)
    {phase : InstallPhase} (hphase : ∀ state, phase ≠ .registered state) {ws : List Setter}
    (hws : ws <:+ s.registrants) :
    ∀ j b state, (s.moved k a phase)[j]? = some b → b.phase = .registered state →
      ∀ vs, (⟨j, b.service⟩ :: vs) <:+ ws →
        (registerProcessCollector (j + 1) none b.service
          (layered (collector₀.map (⟨0, ·⟩)) vs)).2 = some state := by
  intro j b state hj hb vs hvs
  rcases (getElem?_moved hk j b).mp hj with ⟨-, rfl⟩ | ⟨-, hget⟩
  · exact absurd hb (hphase state)
  · exact hinv.record j b state hget hb vs (hvs.trans hws)

/-- Reading the service keeps the invariant. -/
theorem Inv.peek (hinv : s.Inv service₀ collector₀) (service : String) :
    (s.step (.peek service)).Inv service₀ collector₀ where
  service := hinv.service
  collectors := hinv.collectors
  order := hinv.order
  nodup := hinv.nodup
  setters := hinv.setters.begin _ id
  registrants := hinv.registrants.begin _ id
  pre := by
    intro b hb
    rcases List.mem_append.mp hb with hb | hb
    · exact hinv.pre b hb
    · rw [List.mem_singleton.mp hb]
      exact hinv.service
  record := by
    intro j b state hj hb
    change (s.attempts ++ [_])[j]? = some b at hj
    rcases lt_or_ge j s.attempts.length with hlt | hge
    · rw [List.getElem?_append_left hlt] at hj
      exact hinv.record j b state hj hb
    · rw [List.getElem?_append_right hge] at hj
      rw [List.mem_singleton.mp (List.mem_of_getElem? hj)] at hb
      cases hb

/-- Setting the service keeps the invariant. -/
theorem Inv.set (hinv : s.Inv service₀ collector₀) (hk : s.attempts[k]? = some a)
    (hphase : a.phase = .peeked) : (s.act k a .set).Inv service₀ collector₀ := by
  have hnotset : ¬ HasSet a.phase := by
    rw [hphase]
    exact id
  have hnotreg : HasRegistered .set ↔ HasRegistered a.phase := by
    rw [hphase]
    exact Iff.rfl
  have hnew : (⟨k, a.service⟩ : Setter) ∉ s.setters := fun hmem =>
    hnotset ((hinv.setters.mem_iff hk rfl).mp hmem).2
  unfold act
  rw [hphase]
  refine ⟨rfl, hinv.collectors, hinv.order.cons _, ?_, ?_, ?_, hinv.pre_moved hk _, ?_⟩
  · exact List.nodup_cons.mpr ⟨hnew, hinv.nodup⟩
  · exact hinv.setters.push hk hnotset trivial
  · exact hinv.registrants.keep hk hnotreg
  · exact hinv.record_moved hk (by simp) (List.suffix_refl _)

/-- Committing keeps the invariant. -/
theorem Inv.commit (hinv : s.Inv service₀ collector₀) (hk : s.attempts[k]? = some a)
    {state : RollbackState} (hphase : a.phase = .registered state) :
    (s.act k a .commit).Inv service₀ collector₀ := by
  have hset : HasSet .committed ↔ HasSet a.phase := by
    rw [hphase]
    exact Iff.rfl
  have hreg : HasRegistered .committed ↔ HasRegistered a.phase := by
    rw [hphase]
    exact Iff.rfl
  unfold act
  rw [hphase]
  refine ⟨hinv.service, hinv.collectors, hinv.order, hinv.nodup, hinv.setters.keep hk hset,
    hinv.registrants.keep hk hreg, hinv.pre_moved hk _, ?_⟩
  exact hinv.record_moved hk (by simp) (List.suffix_refl _)

/-- Registering in the order of the setters keeps the invariant. -/
theorem Inv.register (hinv : s.Inv service₀ collector₀) (hk : s.attempts[k]? = some a)
    (hphase : a.phase = .set) (hok : (⟨k, a.service⟩ :: s.registrants).Sublist s.setters) :
    (s.act k a .register).Inv service₀ collector₀ := by
  obtain ⟨collector, hlive⟩ := exists_layered_eq_live (collector₀.map (⟨0, ·⟩)) s.registrants
  obtain ⟨c, state, hreg, -⟩ := register_live (k + 1) a.service collector
  have hcollectors : registerProcessCollector (k + 1) none a.service s.collectors =
      (.live (some c), some state) := by
    rw [hinv.collectors, hlive, hreg]
  have hset : HasSet (.registered state) ↔ HasSet a.phase := by
    rw [hphase]
    exact Iff.rfl
  have hnotreg : ¬ HasRegistered a.phase := by
    rw [hphase]
    exact id
  -- It registers for the first time, so that no earlier record is about it.
  have hnew : (⟨k, a.service⟩ : Setter) ∉ s.registrants := fun hmem =>
    hnotreg ((hinv.registrants.mem_iff hk rfl).mp hmem).2
  unfold act
  rw [hphase]
  simp only [hcollectors]
  refine ⟨hinv.service, ?_, hok, hinv.nodup, hinv.setters.keep hk hset,
    hinv.registrants.push hk hnotreg trivial, hinv.pre_moved hk _, ?_⟩
  · rw [layered, hlive, hreg]
  · intro j b state' hj hb ws hws
    rcases (getElem?_moved hk j b).mp hj with ⟨rfl, rfl⟩ | ⟨hjk, hget⟩
    · -- The record of the one that registers is about all that had registered.
      cases hb
      rcases List.suffix_cons_iff.mp hws with heq | hsuffix
      · obtain rfl : ws = s.registrants := (List.cons.inj heq).2
        rw [hlive, hreg]
      · exact absurd (hsuffix.subset List.mem_cons_self) hnew
    · rcases List.suffix_cons_iff.mp hws with heq | hsuffix
      · exact absurd (congrArg Setter.k (List.cons.inj heq).1) hjk
      · exact hinv.record j b state' hget hb ws hsuffix

/-- The one that restores is the latest that registered. -/
theorem Inv.registrants_eq (hinv : s.Inv service₀ collector₀) (hk : s.attempts[k]? = some a)
    (hphase : HasRegistered a.phase) {below : List Setter}
    (hok : s.setters = ⟨k, a.service⟩ :: below) :
    ∃ ws, s.registrants = ⟨k, a.service⟩ :: ws ∧ ws.Sublist below := by
  have hmem : (⟨k, a.service⟩ : Setter) ∈ s.registrants :=
    (hinv.registrants.mem_iff hk rfl).mpr ⟨rfl, hphase⟩
  have horder := hinv.order
  have hnodup := hinv.nodup
  rw [hok] at horder hnodup
  rcases List.sublist_cons_iff.mp horder with hsub | ⟨ws, heq, hsub⟩
  · exact absurd (hsub.subset hmem) (List.nodup_cons.mp hnodup).1
  · exact ⟨ws, heq, hsub⟩

/-- Restoring the latest collector keeps the invariant. -/
theorem Inv.restore (hinv : s.Inv service₀ collector₀) (hk : s.attempts[k]? = some a)
    {state : RollbackState} (hphase : a.phase = .registered state)
    (hok : s.setters = ⟨k, a.service⟩ :: a.below) :
    (s.act k a .restore).Inv service₀ collector₀ := by
  have hset : HasSet .restored ↔ HasSet a.phase := by
    rw [hphase]
    exact Iff.rfl
  have hreg : HasRegistered a.phase := by
    rw [hphase]
    trivial
  obtain ⟨ws, heq, hsub⟩ := hinv.registrants_eq hk hreg hok
  have htracks := hinv.registrants
  have hnodup := hinv.order.nodup hinv.nodup
  have hrecord := hinv.record k a state hk hphase ws
  rw [heq] at htracks hnodup hrecord
  have hrestored := restore_layered _ ⟨k, a.service⟩ ws (hrecord (List.suffix_refl _))
  unfold act
  rw [hphase]
  refine ⟨hinv.service, ?_, ?_, hinv.nodup, hinv.setters.keep hk hset, ?_, hinv.pre_moved hk _, ?_⟩
  · simp only [hinv.collectors, heq, List.erase_cons_head]
    exact hrestored
  · simp only [heq, List.erase_cons_head, hok]
    exact hsub.cons _
  · simp only [heq, List.erase_cons_head]
    exact htracks.pop hk hnodup id
  · simp only [heq, List.erase_cons_head]
    refine hinv.record_moved hk (by simp) ?_
    rw [heq]
    exact List.suffix_cons _ _

/-- Setting the service back keeps the invariant. -/
theorem Inv.unset (hinv : s.Inv service₀ collector₀) (hk : s.attempts[k]? = some a)
    (hphase : a.phase = .restored) (hok : s.setters = ⟨k, a.service⟩ :: a.below) :
    (s.act k a .unset).Inv service₀ collector₀ := by
  have hreg : HasRegistered .rolledBack ↔ HasRegistered a.phase := by
    rw [hphase]
    exact Iff.rfl
  have hnotreg : (⟨k, a.service⟩ : Setter) ∉ s.registrants := by
    intro hmem
    have hreg := ((hinv.registrants.mem_iff hk rfl).mp hmem).2
    rw [hphase] at hreg
    exact hreg
  have htracks := hinv.setters
  have hnodup := hinv.nodup
  have horder := hinv.order
  rw [hok] at htracks hnodup horder
  -- The service that it peeked is that of the setter below.
  have hpre : setService a.pre = topService (setService service₀) a.below := by
    rw [hinv.pre a (List.mem_of_getElem? hk)]
    exact setServiceBy_restore isSpace (trimmed_topService service₀ a.below)
  unfold act
  rw [hphase]
  refine ⟨?_, hinv.collectors, ?_, ?_, ?_, hinv.registrants.keep hk hreg, hinv.pre_moved hk _, ?_⟩
  · simp only [hok, List.erase_cons_head]
    exact hpre
  · simp only [hok, List.erase_cons_head]
    rcases List.sublist_cons_iff.mp horder with hsub | ⟨ws, heq, hsub⟩
    · exact hsub
    · exact absurd (heq ▸ List.mem_cons_self) hnotreg
  · simp only [hok, List.erase_cons_head]
    exact (List.nodup_cons.mp hnodup).2
  · simp only [hok, List.erase_cons_head]
    exact htracks.pop hk hnodup id
  · exact hinv.record_moved hk (by simp) (List.suffix_refl _)

/-- A step keeps the invariant as long as the installs nest. -/
theorem Inv.step (hinv : s.Inv service₀ collector₀) {e : InstallEvent} (hok : s.Nested e) :
    (s.step e).Inv service₀ collector₀ := by
  cases e with
  | peek service => exact hinv.peek service
  | move k m =>
    cases hk : s.attempts[k]? with
    | none =>
      simp only [Installs.step, hk]
      exact hinv
    | some a =>
      simp only [Installs.step, hk]
      -- A step that the phase does not admit changes nothing.
      cases m with
      | set =>
        by_cases hphase : a.phase = .peeked
        · exact hinv.set hk hphase
        · simpa [act] using hinv
      | register =>
        by_cases hphase : a.phase = .set
        · exact hinv.register hk hphase (hok a hk hphase)
        · simpa [act] using hinv
      | commit =>
        cases hphase : a.phase with
        | registered state => exact hinv.commit hk hphase
        | _ => simpa [act, hphase] using hinv
      | restore =>
        cases hphase : a.phase with
        | registered state => exact hinv.restore hk hphase (hok a hk (by rw [hphase]; rfl))
        | _ => simpa [act, hphase] using hinv
      | unset =>
        by_cases hphase : a.phase = .restored
        · exact hinv.unset hk hphase (hok a hk hphase)
        · simpa [act] using hinv

/-- Where no install is in progress, the ones that set the service are those that have committed. -/
theorem Inv.mem_setters_iff (hinv : s.Inv service₀ collector₀) (hquiet : s.Quiescent) (w : Setter) :
    w ∈ s.setters ↔
      ∃ a, s.attempts[w.k]? = some a ∧ a.service = w.service ∧ a.phase = .committed := by
  rw [hinv.setters w]
  refine exists_congr fun a => and_congr_right fun hk => and_congr_right fun _ => ?_
  rcases hquiet a (List.mem_of_getElem? hk) with hphase | hphase <;> simp [hphase, HasSet]

/-- Where no install is in progress, the ones that set the service are those that registered. -/
theorem Inv.registrants_eq_setters (hinv : s.Inv service₀ collector₀) (hquiet : s.Quiescent) :
    s.registrants = s.setters := by
  have hsubset : s.setters ⊆ s.registrants := by
    intro w hw
    obtain ⟨a, hk, hservice, hphase⟩ := (hinv.mem_setters_iff hquiet w).mp hw
    refine (hinv.registrants w).mpr ⟨a, hk, hservice, ?_⟩
    rw [hphase]
    trivial
  have hle : s.setters.length ≤ s.registrants.length :=
    (List.subperm_of_subset hinv.nodup hsubset).length_le
  exact hinv.order.eq_of_length_le hle

/-- Where no install is in progress, the invariant settles the service and the collector. -/
theorem Inv.settled (hinv : s.Inv service₀ collector₀) (hquiet : s.Quiescent) :
    s.Settled service₀ collector₀ := by
  have hservice := hinv.service
  have hcollectors := hinv.collectors
  rw [hinv.registrants_eq_setters hquiet] at hcollectors
  have hmem := hinv.mem_setters_iff hquiet
  unfold Settled
  cases hset : s.setters with
  | nil =>
    rw [hset] at hservice hcollectors hmem
    have hnone : ¬ ∃ a ∈ s.attempts, a.phase = .committed := by
      rintro ⟨a, ha, hphase⟩
      obtain ⟨k, hk⟩ := List.mem_iff_getElem?.mp ha
      exact absurd ((hmem ⟨k, a.service⟩).mpr ⟨a, hk, rfl, hphase⟩) List.not_mem_nil
    rw [if_neg hnone]
    exact ⟨hservice, hcollectors⟩
  | cons w ws =>
    rw [hset] at hservice hcollectors hmem
    obtain ⟨a, hk, hw, hphase⟩ := (hmem w).mp List.mem_cons_self
    have ha := List.mem_of_getElem? hk
    obtain ⟨c, hc, hcw⟩ := layered_cons_service (collector₀.map (⟨0, ·⟩)) w ws
    rw [if_pos ⟨a, ha, hphase⟩]
    refine ⟨a, ha, hphase, ?_, c, ?_, hcw.trans hw.symm⟩
    · rw [hservice, hw]
      rfl
    · rw [hcollectors]
      exact hc

/-- Every step leads from a live state of the collectors to one. -/
theorem live_step (h : ∃ collector, s.collectors = .live collector) (e : InstallEvent) :
    ∃ collector, (s.step e).collectors = .live collector := by
  obtain ⟨collector, hlive⟩ := h
  cases e with
  | peek service => exact ⟨collector, hlive⟩
  | move k m =>
    cases hk : s.attempts[k]? with
    | none =>
      simp only [Installs.step, hk]
      exact ⟨collector, hlive⟩
    | some a =>
      simp only [Installs.step, hk]
      -- Only two moves touch the collectors, each from the phase before it.
      cases m with
      | set =>
        by_cases hphase : a.phase = .peeked
        · exact ⟨collector, by simpa only [act, hphase] using hlive⟩
        · exact ⟨collector, by simpa [act] using hlive⟩
      | register =>
        by_cases hphase : a.phase = .set
        · obtain ⟨c, state, hreg, -⟩ := register_live (k + 1) a.service collector
          exact ⟨some c, by simp only [act, hphase, hlive, hreg]⟩
        · exact ⟨collector, by simpa [act] using hlive⟩
      | commit =>
        cases hphase : a.phase <;> exact ⟨collector, by simpa only [act, hphase] using hlive⟩
      | restore =>
        cases hphase : a.phase with
        | registered state =>
          obtain ⟨collector', hrestore⟩ := restore_live state collector
          exact ⟨collector', by simp only [act, hphase, hlive, hrestore]⟩
        | _ => exact ⟨collector, by simpa only [act, hphase] using hlive⟩
      | unset =>
        by_cases hphase : a.phase = .restored
        · exact ⟨collector, by simpa only [act, hphase] using hlive⟩
        · exact ⟨collector, by simpa [act] using hlive⟩

end Steps

end Installs

/-- In every run `REGISTRY` has exactly the singleton. In every run in which the installs nest, the
service and the live collector of each state without an install in progress are those of a committed
install, or the initial ones without one. -/
theorem concurrent_installs (service collector : Option String) (es : List InstallEvent) :
    (∀ pre, pre <+: es →
      (Lib.run Installs.step (.start service collector) pre).collectors.registry =
        (Lib.run Installs.step (.start service collector) pre).collectors.collector.toFinset) ∧
    (Lib.Along Installs.step Installs.Nested (.start service collector) es →
      ∀ pre, pre <+: es → (Lib.run Installs.step (.start service collector) pre).Quiescent →
        (Lib.run Installs.step (.start service collector) pre).Settled service collector) := by
  constructor
  · intro pre _
    have hstep : ∀ (s : Installs) e, (∃ c, s.collectors = .live c) →
        ∃ c, (s.step e).collectors = .live c := fun s e h => Installs.live_step h e
    have hstart : ∃ c, (Installs.start service collector).collectors = .live c := ⟨_, rfl⟩
    obtain ⟨c, hc⟩ := Lib.invariant_run hstep hstart pre
    rw [hc]
    rfl
  · rintro hnest pre ⟨rest, rfl⟩ hquiet
    have hstep : ∀ (s : Installs) e, s.Inv service collector → s.Nested e →
        (s.step e).Inv service collector := fun s e h hok => h.step hok
    have hinv := Lib.invariant_along hstep Installs.inv_start (Lib.along_append.mp hnest).1
    exact hinv.settled hquiet

/-- Two installs that overlap and nest: the second one fails and rolls back, and then the first one
commits. -/
theorem nested_installs_settle :
    let es : List InstallEvent := [.peek "portal", .move 0 .set, .peek "api", .move 0 .register,
      .move 1 .set, .move 1 .register, .move 1 .restore, .move 1 .unset, .move 0 .commit]
    (Lib.run Installs.step (.start none none) es).Settled none none :=
  (concurrent_installs none none _).2 (by decide) _ (List.prefix_refl _) (by decide)

/-- The first install fails after the second one has registered: the collector stays that of the
second one, and the service goes back to none. -/
theorem overlapping_rollback_clears_service :
    let es : List InstallEvent := [.peek "portal", .move 0 .set, .move 0 .register, .peek "api",
      .move 1 .set, .move 1 .register, .move 0 .restore, .move 0 .unset, .move 1 .commit]
    let s := Lib.run Installs.step (.start none none) es
    s.Quiescent ∧ s.service = none ∧ s.collectors.collector = some ⟨2, "api"⟩ ∧
      ¬ s.Settled none none := by
  intro es s
  have hservice : s.service = none := by decide
  have hcommitted : ∃ a ∈ s.attempts, a.phase = .committed := by decide
  refine ⟨by decide, hservice, by decide, ?_⟩
  unfold Installs.Settled
  rw [if_pos hcommitted]
  rintro ⟨a, -, -, hset, -⟩
  rw [hservice] at hset
  cases hset

end SimsysMetrics.Python
