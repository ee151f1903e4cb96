import SimsysMetrics.Pollers

/-!
# The ticks of a poller, step by step

`pollTick` does a whole tick at once. In the lanes with threads a scrape may come at any moment of
it, so this module takes a tick apart: the callbacks return, and then each gauge is written by a
call that creates its child, if it has none, and one that sets it.

The steps refine `pollTick`: once the tick that is under way has ended, the poller is what the whole
ticks leave (`Machine.settled_eq`). In between, a gauge shows what it shows after the last whole
tick or after the one before; or it has just been created, and shows zero (`Machine.Inv.seen`).
-/

namespace SimsysMetrics.PollerTicks

open Lib (F64 Store readAll writeAll run)

/-- Where a tick is. -/
inductive TickPc where
  /-- The callbacks run. -/
  | polling
  /-- The next of the gauges that are left to write has its child, or may have none. -/
  | publishing (created : Bool) (left : List (Family × F64))
deriving DecidableEq

/-- A poller with the tick that is under way. -/
structure Machine (ε : Type) where
  tick : Option TickPc
  poller : Poller ε

section Machine

variable {ε : Type} (t : Tracker) (sources : List Family)

/-- What is left of a tick with these gauges left to write. -/
def publishing : List (Family × F64) → Option TickPc
  | [] => none
  | left => some (.publishing false left)

/-- The callbacks have returned, or one of them has failed. -/
def Machine.poll (read : Family → Except ε F64) (m : Machine ε) : Machine ε :=
  match readAll sources read with
  | .error e => ⟨none, m.poller.fail t e⟩
  | .ok values => ⟨publishing values, m.poller⟩

/-- The next call of a tick that writes its gauges. -/
def Machine.publish (m : Machine ε) : Machine ε :=
  match m.tick with
  | some (.publishing false (w :: left)) =>
    ⟨some (.publishing true (w :: left)),
      { m.poller with gauges := m.poller.gauges.touch (t.gaugeKey w.1) (.int 0) }⟩
  | some (.publishing true (w :: left)) =>
    ⟨publishing left, { m.poller with gauges := m.poller.gauges.set (t.gaugeKey w.1) w.2 }⟩
  | some (.publishing _ []) | some .polling | none => m

/-- The poller when the tick that is under way has ended. -/
def Machine.settled (m : Machine ε) : Poller ε :=
  match m.tick with
  | some (.publishing _ left) =>
    { m.poller with gauges := writeAll t.gaugeKey left m.poller.gauges }
  | some .polling | none => m.poller

/-- What whole ticks with these readings leave. -/
def ticked (p : Poller ε) (reads : List (Family → Except ε F64)) : Poller ε :=
  run (fun p read => pollTick t sources read p) p reads

/-- A machine that started with the poller `p`, after its callbacks gave these readings. -/
inductive Machine.Inv (p : Poller ε) : List (Family → Except ε F64) → Machine ε → Prop where
  /-- No gauge is left to write. -/
  | whole {reads : List (Family → Except ε F64)} {tick : Option TickPc}
      (htick : tick = none ∨ tick = some .polling) : Inv p reads ⟨tick, ticked t sources p reads⟩
  /-- Some gauges of the last reading are written. -/
  | publishing {before : List (Family → Except ε F64)} {read : Family → Except ε F64}
      (written : List (Family × F64)) (created : Bool) {left : List (Family × F64)}
      {w : Family × F64} (hread : readAll sources read = .ok (written ++ w :: left)) :
      Inv p (before ++ [read])
        ⟨some (.publishing created (w :: left)),
          { ticked t sources p before with
            gauges :=
              let gauges := writeAll t.gaugeKey written (ticked t sources p before).gauges
              if created then gauges.touch (t.gaugeKey w.1) (.int 0) else gauges }⟩

variable {t sources} {p : Poller ε} {reads : List (Family → Except ε F64)} {m : Machine ε}

/-- The last reading is the last whole tick. -/
theorem ticked_concat (before : List (Family → Except ε F64)) (read : Family → Except ε F64) :
    ticked t sources p (before ++ [read]) = pollTick t sources read (ticked t sources p before) :=
  Lib.run_concat ..

/-- Writing a reading in two parts. -/
theorem writeAll_append (written left : List (Family × F64)) (gauges : Store GaugeKey F64) :
    writeAll t.gaugeKey (written ++ left) gauges =
      writeAll t.gaugeKey left (writeAll t.gaugeKey written gauges) :=
  List.foldl_append

/-- The callbacks run no longer once they have given a reading. -/
theorem Machine.poll_ne_polling (m : Machine ε) (read : Family → Except ε F64) :
    (m.poll t sources read).tick ≠ some .polling := by
  unfold Machine.poll
  cases readAll sources read with
  | error e => simp
  | ok values => cases values <;> simp [PollerTicks.publishing]

/-- Writing a gauge does not start the callbacks. -/
theorem Machine.publish_eq_polling_iff (m : Machine ε) :
    (m.publish t).tick = some .polling ↔ m.tick = some .polling := by
  obtain ⟨tick, p⟩ := m
  rcases tick with _ | _ | ⟨_ | _, _ | ⟨w, left⟩⟩
  · rfl
  · rfl
  · rfl
  · simp [Machine.publish]
  · rfl
  · cases left <;> simp [Machine.publish, PollerTicks.publishing]

/-- A tick begins. -/
theorem Machine.Inv.begin (h : Inv t sources p reads m) (hm : m.tick = none) :
    Inv t sources p reads { m with tick := some .polling } := by
  cases h with
  | whole htick => exact .whole (.inr rfl)
  | publishing hread => cases hm

/-- A tick ends with an exception that a callback raises through it. -/
theorem Machine.Inv.abort (h : Inv t sources p reads m) (hm : m.tick = some .polling) :
    Inv t sources p reads { m with tick := none } := by
  cases h with
  | whole htick => exact .whole (.inl rfl)
  | publishing hread => cases hm

/-- The callbacks give a reading. -/
theorem Machine.Inv.poll (h : Inv t sources p reads m) (hm : m.tick = some .polling)
    (read : Family → Except ε F64) :
    Inv t sources p (reads ++ [read]) (m.poll t sources read) := by
  cases h with
  | publishing hread => cases hm
  | whole htick =>
    have htick : ticked t sources p (reads ++ [read]) = _ := ticked_concat reads read
    unfold pollTick at htick
    unfold Machine.poll
    cases hread : readAll sources read with
    | error e =>
      rw [hread] at htick
      dsimp only at htick ⊢
      rw [← htick]
      exact .whole (.inl rfl)
    | ok values =>
      rw [hread] at htick
      cases values with
      | nil =>
        have hwhole : ticked t sources p (reads ++ [read]) = ticked t sources p reads := htick
        dsimp only
        rw [← hwhole]
        exact .whole (.inl rfl)
      | cons w left => exact .publishing [] false hread

/-- A step that writes a gauge. -/
theorem Machine.Inv.publish (h : Inv t sources p reads m) :
    Inv t sources p reads (m.publish t) := by
  cases h with
  | whole htick => rcases htick with rfl | rfl <;> exact .whole (by simp)
  | @publishing before read written created left w hread =>
    cases created with
    | false => exact .publishing written true hread
    | true =>
      have hset : writeAll t.gaugeKey (written ++ [w]) (ticked t sources p before).gauges =
          (writeAll t.gaugeKey written (ticked t sources p before).gauges).set
            (t.gaugeKey w.1) w.2 :=
        writeAll_append written [w] _
      unfold Machine.publish
      dsimp only [if_true]
      rw [if_pos rfl, Store.set_touch, ← hset]
      cases left with
      | nil =>
        -- The last gauge ends the tick.
        have htick : ticked t sources p (before ++ [read]) = _ := ticked_concat before read
        unfold pollTick at htick
        rw [hread] at htick
        dsimp only at htick
        rw [← htick]
        exact .whole (.inl rfl)
      | cons w' left =>
        rw [List.append_cons] at hread
        exact .publishing (written ++ [w]) false hread

/-- Once the tick that is under way has ended, the poller is what whole ticks leave. -/
theorem Machine.Inv.settled_eq (h : Inv t sources p reads m) :
    m.settled t = ticked t sources p reads := by
  cases h with
  | whole htick => rcases htick with rfl | rfl <;> rfl
  | @publishing before read written created left w hread =>
    have htick : ticked t sources p (before ++ [read]) = _ := ticked_concat before read
    unfold pollTick at htick
    rw [hread] at htick
    rw [htick]
    unfold Machine.settled
    dsimp only
    congr 1
    rw [writeAll_append]
    cases created with
    | false => rfl
    | true =>
      rw [if_pos rfl, writeAll, List.foldl_cons, Store.set_touch]
      rfl

/-- Between two ticks, the poller is what whole ticks leave. -/
theorem Machine.Inv.poller_eq (h : Inv t sources p reads m) (hm : m.tick = none) :
    m.poller = ticked t sources p reads := by
  have hsettled := h.settled_eq
  unfold Machine.settled at hsettled
  rwa [hm] at hsettled

/-- What a scrape finds that comes at any moment: the errors and the log of the whole ticks, and for
each gauge the value after the last of them, or, of the gauges that come later in the order of
polling, the one after the ticks before it, where a gauge that has just been created is zero. -/
structure Seen (t : Tracker) (sources : List Family) (p : Poller ε)
    (reads : List (Family → Except ε F64)) (m : Machine ε) : Prop where
  errors : m.poller.collectorErrors = (ticked t sources p reads).collectorErrors
  log : m.poller.log = (ticked t sources p reads).log
  gauges : ∃ before written left, before <+: reads ∧ reads.length ≤ before.length + 1 ∧
    sources = written ++ left ∧
    (∀ g ∈ written,
      m.poller.gauges (t.gaugeKey g) = (ticked t sources p reads).gauges (t.gaugeKey g)) ∧
    ∀ g ∈ left,
      m.poller.gauges (t.gaugeKey g) = (ticked t sources p before).gauges (t.gaugeKey g) ∨
        left.head? = some g ∧ (ticked t sources p before).gauges (t.gaugeKey g) = none ∧
          m.poller.gauges (t.gaugeKey g) = some (.int 0)

/-- What a scrape finds at any moment. -/
theorem Machine.Inv.seen (hnodup : sources.Nodup) (h : Inv t sources p reads m) :
    Seen t sources p reads m := by
  cases h with
  | whole htick =>
    refine ⟨rfl, rfl, reads, sources, [], List.prefix_rfl, Nat.le_succ _, ?_, fun _ _ => rfl, ?_⟩
    · exact (List.append_nil _).symm
    · intro g hg
      cases hg
  | @publishing before read written created left w hread =>
    have htick : ticked t sources p (before ++ [read]) = _ := ticked_concat before read
    unfold pollTick at htick
    rw [hread] at htick
    have hsources := Lib.map_fst_of_readAll hread
    rw [List.map_append, List.map_cons] at hsources
    obtain ⟨-, -, hdisjoint⟩ := List.nodup_append.mp (hsources ▸ hnodup)
    -- The gauges that are left keep their values from before the reading.
    have hkeep : ∀ g ∈ w.1 :: left.map Prod.fst,
        writeAll t.gaugeKey written (ticked t sources p before).gauges (t.gaugeKey g) =
          (ticked t sources p before).gauges (t.gaugeKey g) := by
      intro g hg
      refine Lib.writeAll_of_notMem ?_ _
      intro w' hw' hkey
      exact hdisjoint _ (List.mem_map_of_mem hw') g hg (t.gaugeKey_injective hkey)
    have hne : ∀ g ∈ written.map Prod.fst, t.gaugeKey g ≠ t.gaugeKey w.1 := by
      intro g hg hkey
      exact hdisjoint g hg _ List.mem_cons_self (t.gaugeKey_injective hkey)
    refine ⟨by rw [htick], by rw [htick], before, written.map Prod.fst,
      w.1 :: left.map Prod.fst, List.prefix_append _ _, ?_, hsources.symm, ?_, ?_⟩
    · exact (List.length_append ..).le
    · intro g hg
      have hlater : ∀ w' ∈ w :: left, t.gaugeKey w'.1 ≠ t.gaugeKey g := by
        intro w' hw' hkey
        exact hdisjoint g hg _ (List.mem_map_of_mem hw') (t.gaugeKey_injective hkey).symm
      rw [htick]
      dsimp only
      rw [writeAll_append, Lib.writeAll_of_notMem hlater]
      cases created with
      | false => rfl
      | true => exact Function.update_of_ne (hne g hg) ..
    · intro g hg
      dsimp only
      cases created with
      | false => exact .inl (hkeep g hg)
      | true =>
        rw [if_pos rfl]
        by_cases hw : g = w.1
        · subst hw
          rw [Store.touch, Function.update_self, hkeep _ hg]
          cases hgauge : (ticked t sources p before).gauges (t.gaugeKey w.1) with
          | none => exact .inr ⟨rfl, rfl, rfl⟩
          | some value => exact .inl rfl
        · have hkey : t.gaugeKey g ≠ t.gaugeKey w.1 := fun hkey => hw (t.gaugeKey_injective hkey)
          rw [Store.touch, Function.update_of_ne hkey]
          exact .inl (hkeep g hg)

end Machine

end SimsysMetrics.PollerTicks
