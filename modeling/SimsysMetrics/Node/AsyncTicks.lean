import SimsysMetrics.Node.QueueTicks
import SimsysMetrics.PollerTicks

/-!
# The asynchronous ticks of the Node lane

`tick` of `trackQueue` and of `trackPool` of `node/src/baseline.ts`. It calls its callbacks one
after another and awaits what each of them returns; other code runs meanwhile, other ticks of the
same poller among it. Once all have given their numbers it writes the gauges, without awaiting
anything.

So a tick takes effect as it ends, and at once: whatever other ticks wait, its end does what a whole
tick with the same readings does (`proceed_eq_ticked` and `Pending.resume_eq_ticked`).
-/

namespace SimsysMetrics.Node.AsyncTicks

open Lib (F64 readAll writeAll run)
open PollerTicks (ticked)

/-- What a call of a callback does at once. -/
abbrev Called (ε : Type) := QueueTicks.Call ε

/-- A tick that awaits a callback. -/
structure Pending where
  /-- `writes`, the numbers that it has. -/
  writes : List (Family × F64)
  /-- The gauge of the callback that it awaits. -/
  awaited : Family
  /-- The gauges of the callbacks that it has yet to call. -/
  left : List Family
deriving DecidableEq

section Ticks

variable {ε : Type}

/-- A tick with these numbers goes on: it calls its next callback, which throws or returns what the
tick awaits; or it writes the gauges, where no callback is left. -/
def proceed (t : Tracker) (writes : List (Family × F64)) (p : Poller ε) :
    List Family → Called ε → Option Pending × Poller ε
  | [], _ => (none, { p with gauges := writeAll t.gaugeKey writes p.gauges })
  | g :: left, .awaited => (some ⟨writes, g, left⟩, p)
  | _ :: _, .threw err => (none, p.fail t err)

/-- The promise that a tick awaits settles, and the tick goes on. -/
def Pending.resume (t : Tracker) (count : Result → F64) (w : Pending) (outcome : Except ε Result)
    (call : Called ε) (p : Poller ε) : Option Pending × Poller ε :=
  match outcome with
  | .error err => (none, p.fail t err)
  | .ok raw => proceed t (w.writes ++ [(w.awaited, count raw)]) p w.left call

/-- The reading with these numbers, and `rest` of the other gauges. -/
def reading (writes : List (Family × F64)) (rest : Except ε F64) (g : Family) : Except ε F64 :=
  match writes.lookup g with
  | some v => .ok v
  | none => rest

/-- The reading of a tick with these numbers, if it ends as it goes on. -/
def ended (writes : List (Family × F64)) : List Family → Called ε → List (Family → Except ε F64)
  | [], _ => [reading writes (.ok .nan)]
  | _ :: _, .awaited => []
  | _ :: _, .threw err => [reading writes (.error err)]

/-- The reading of a tick that awaits a promise, if it ends as the promise settles. -/
def Pending.ended (count : Result → F64) (w : Pending) (outcome : Except ε Result)
    (call : Called ε) : List (Family → Except ε F64) :=
  match outcome with
  | .error err => [reading w.writes (.error err)]
  | .ok raw => AsyncTicks.ended (w.writes ++ [(w.awaited, count raw)]) w.left call

/-- A tick of a poller with these sources. -/
def Pending.Of (sources : List Family) (w : Pending) : Prop :=
  w.writes.map Prod.fst ++ w.awaited :: w.left = sources

variable {t : Tracker} {sources left : List Family} {writes : List (Family × F64)} {p : Poller ε}

/-- A reading has the numbers that it was made of. -/
theorem reading_of_mem (hnodup : (writes.map Prod.fst).Nodup) {w : Family × F64} (hw : w ∈ writes)
    (rest : Except ε F64) : reading writes rest w.1 = .ok w.2 := by
  obtain ⟨before, after, rfl⟩ := List.append_of_mem hw
  have hlookup : (before ++ w :: after).lookup w.1 = some w.2 := by
    refine List.lookup_eq_some_iff.mpr ⟨before, after, rfl, ?_⟩
    intro w' hw'
    rw [List.map_append, List.map_cons] at hnodup
    have hne : w'.1 ≠ w.1 :=
      (List.nodup_append.mp hnodup).2.2 w'.1 (List.mem_map_of_mem hw') w.1 List.mem_cons_self
    simpa using hne.symm
  rw [reading, hlookup]

/-- A reading has no number of another gauge. -/
theorem reading_of_notMem {g : Family} (hg : g ∉ writes.map Prod.fst) (rest : Except ε F64) :
    reading writes rest g = rest := by
  have hlookup : writes.lookup g = none := by
    refine List.lookup_eq_none_iff.mpr ?_
    intro w hw
    have hne : g ≠ w.1 := by
      rintro rfl
      exact hg (List.mem_map_of_mem hw)
    simpa using hne
  rw [reading, hlookup]

/-- A tick that has read all its gauges reads what it has. -/
theorem readAll_reading (hnodup : (writes.map Prod.fst).Nodup) (rest : Except ε F64) :
    readAll (writes.map Prod.fst) (reading writes rest) = .ok writes := by
  have hread : readAll (writes.map Prod.fst ++ []) (reading writes rest) =
      (readAll [] (reading writes rest)).map (writes ++ ·) :=
    Lib.readAll_append fun w hw => reading_of_mem hnodup hw rest
  rw [List.append_nil] at hread
  rw [hread, Lib.readAll_nil]
  exact congrArg Except.ok (List.append_nil writes)

/-- A tick that fails at a gauge reads that failure. -/
theorem readAll_reading_error {g : Family} (hnodup : (writes.map Prod.fst ++ g :: left).Nodup)
    (err : ε) :
    readAll (writes.map Prod.fst ++ g :: left) (reading writes (.error err)) = .error err := by
  obtain ⟨hwrites, -, hdisjoint⟩ := List.nodup_append.mp hnodup
  have hg : g ∉ writes.map Prod.fst := fun hmem => hdisjoint g hmem g List.mem_cons_self rfl
  rw [Lib.readAll_append (fun w hw => reading_of_mem hwrites hw _), Lib.readAll_cons,
    reading_of_notMem hg]
  rfl

/-- What a tick that goes on does is what a whole tick does with its reading, as it ends; until
then it does nothing. -/
theorem proceed_eq_ticked (hnodup : sources.Nodup) (h : writes.map Prod.fst ++ left = sources)
    (call : Called ε) :
    (proceed t writes p left call).2 = ticked t sources p (ended writes left call) := by
  subst h
  cases left with
  | nil =>
    rw [List.append_nil] at hnodup ⊢
    show _ = pollTick t _ _ p
    rw [pollTick, readAll_reading hnodup]
    rfl
  | cons g left =>
    cases call with
    | awaited => rfl
    | threw err =>
      show _ = pollTick t _ _ p
      rw [pollTick, readAll_reading_error hnodup]
      rfl

/-- What is left of a tick that goes on is a tick of the same poller. -/
theorem of_proceed (h : writes.map Prod.fst ++ left = sources) {call : Called ε} {w : Pending}
    (hw : (proceed t writes p left call).1 = some w) : w.Of sources := by
  cases left with
  | nil => cases hw
  | cons g left =>
    cases call with
    | awaited =>
      obtain rfl := Option.some.inj hw
      exact h
    | threw err => cases hw

/-- A tick that goes on either awaits or ends. -/
theorem length_ended (call : Called ε) :
    (ended writes left call).length + (proceed t writes p left call).1.toList.length = 1 := by
  cases left with
  | nil => rfl
  | cons g left => cases call <;> rfl

namespace Pending

variable {w : Pending} {count : Result → F64} {outcome : Except ε Result} {call : Called ε}

/-- The numbers after one more, and what is left. -/
theorem Of.append (h : w.Of sources) (v : F64) :
    (w.writes ++ [(w.awaited, v)]).map Prod.fst ++ w.left = sources := by
  rw [List.map_append, List.append_assoc]
  exact h

/-- What a tick does as its promise settles is what a whole tick does with its reading, if it ends;
else it does nothing. -/
theorem resume_eq_ticked (hnodup : sources.Nodup) (h : w.Of sources) :
    (w.resume t count outcome call p).2 = ticked t sources p (w.ended count outcome call) := by
  cases outcome with
  | error err =>
    show _ = pollTick t sources _ p
    rw [← h] at hnodup
    rw [pollTick, ← h, readAll_reading_error hnodup]
    rfl
  | ok raw => exact proceed_eq_ticked hnodup (h.append _) call

/-- What is left of a tick is a tick of the same poller. -/
theorem of_resume (h : w.Of sources) {w' : Pending}
    (hw : (w.resume t count outcome call p).1 = some w') : w'.Of sources := by
  cases outcome with
  | error err => cases hw
  | ok raw => exact of_proceed (h.append _) hw

/-- A tick whose promise settles either awaits or ends. -/
theorem length_resume :
    (w.ended count outcome call).length +
      (w.resume t count outcome call p).1.toList.length = 1 := by
  cases outcome with
  | error err => rfl
  | ok raw => exact length_ended call

end Pending

end Ticks

end SimsysMetrics.Node.AsyncTicks
