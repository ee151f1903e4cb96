import Mathlib.Data.List.Induction
import SimsysMetrics.Lib.Potential
import SimsysMetrics.Node.TrackCalls

/-!
# The live trackers of the Node lane

A handle's `stop` clears the interval and takes the timer out of the set of live ones;
`clearInterval` of the handle clears the interval only, so its timer stays live. After either no
tick of the handle begins, and only those that await a callback may still write (`live_trackers`).

Each copy of the module warns at most once that a set has grown past 64, however many copies share
it (`leak_warnings`).
-/

namespace SimsysMetrics.Node.LiveTrackers

open AsyncTicks (Called Pending)
open Lib (Display F64 run tally trace)
open TrackCalls

variable {ε : Type} {s : Trackers ε} {i j : ℕ} {h : Handle ε}

/-! ## Live trackers -/

/-- The timers of a kind are those of its handles whose `stop` was not called, and a timer fires
only for one of these. -/
structure Live (s : Trackers ε) : Prop where
  timers : ∀ kind i, i ∈ s.timers kind ↔
    ∃ h, s.handles[i]? = some h ∧ h.tracker.collector = kind ∧ h.stopped = false
  armed : ∀ (i : ℕ) (h : Handle ε), s.handles[i]? = some h → h.armed = true → h.stopped = false

/-- A handle that changes, but not in what it tracks or in whether it was stopped, keeps the live
ones. -/
theorem Live.set {s' : Trackers ε} (hlive : Live s) (hi : s.handles[i]? = some h) {h' : Handle ε}
    (hhandles : s'.handles = s.handles.set i h') (htimers : s'.timers = s.timers)
    (htracker : h'.tracker = h.tracker) (hstopped : h'.stopped = h.stopped)
    (harmed : h'.armed = true → h.armed = true) : Live s' := by
  refine ⟨?_, ?_⟩
  · intro kind j
    rw [htimers, hlive.timers, hhandles, getElem?_set_handle hi]
    by_cases hij : i = j
    · subst hij
      rw [if_pos rfl, hi]
      simp [htracker, hstopped]
    · rw [if_neg hij]
  · intro j k hk hon
    rw [hhandles, getElem?_set_handle hi] at hk
    by_cases hij : i = j
    · rw [if_pos hij] at hk
      obtain rfl := Option.some.inj hk
      rw [hstopped]
      exact hlive.armed i h hi (harmed hon)
    · rw [if_neg hij] at hk
      exact hlive.armed j k hk hon

/-- A call of `tick` keeps the live ones. -/
theorem Live.tick (hlive : Live s) (i : ℕ) (call : Called ε) : Live (s.tick i call) := by
  unfold Trackers.tick
  cases hi : s.handles[i]? with
  | none => exact hlive
  | some h => exact hlive.set hi rfl rfl rfl rfl id

/-- A new handle, whose timer is added to its set, keeps the live ones. -/
theorem Live.attach {s' : Trackers ε} (hlive : Live s) {kind : CollectorKind}
    (hhandles : s'.handles = s.handles ++ [h])
    (htimers : s'.timers = Function.update s.timers kind (insert s.handles.length (s.timers kind)))
    (hkind : h.tracker.collector = kind) (hstopped : h.stopped = false) : Live s' := by
  have hold : ∀ {j : ℕ}, j ≠ s.handles.length → s'.handles[j]? = s.handles[j]? := by
    intro j hj
    rw [hhandles]
    rcases Nat.lt_or_gt_of_ne hj with hlt | hgt
    · exact List.getElem?_append_left hlt
    · rw [List.getElem?_eq_none (by simp; omega), List.getElem?_eq_none hgt.le]
  have hnew : s'.handles[s.handles.length]? = some h := by
    rw [hhandles]
    exact List.getElem?_concat_length
  refine ⟨?_, ?_⟩
  · intro kind' j
    rw [htimers]
    by_cases hj : j = s.handles.length
    · subst hj
      rw [hnew]
      by_cases hkind' : kind' = kind
      · subst hkind'
        simp [hkind, hstopped]
      · -- The timer is in no other set.
        rw [Function.update_of_ne hkind', hlive.timers]
        simp [hkind, Ne.symm hkind']
    · rw [hold hj, ← hlive.timers]
      by_cases hkind' : kind' = kind
      · subst hkind'
        simp [hj]
      · rw [Function.update_of_ne hkind']
  · intro j k hk hon
    by_cases hj : j = s.handles.length
    · subst hj
      obtain rfl := Option.some.inj (hnew.symm.trans hk)
      exact hstopped
    · rw [hold hj] at hk
      exact hlive.armed j k hk hon

/-- `stop` keeps the live ones. -/
theorem Live.stop (hlive : Live s) (i : ℕ) : Live (s.stop i) := by
  unfold Trackers.stop
  cases hi : s.handles[i]? with
  | none => exact hlive
  | some h =>
    dsimp only
    split_ifs with hstopped
    · exact hlive
    · refine ⟨?_, ?_⟩
      · -- The timer leaves the set of its kind, and no other timer does.
        intro kind j
        show j ∈ Function.update s.timers h.tracker.collector _ kind ↔
          ∃ k, (s.handles.set i _)[j]? = some k ∧ _
        rw [getElem?_set_handle hi]
        by_cases hij : i = j
        · subst hij
          rw [if_pos rfl]
          by_cases hkind : kind = h.tracker.collector
          · subst hkind
            simp
          · rw [Function.update_of_ne hkind, hlive.timers, hi]
            simp [Ne.symm hkind]
        · rw [if_neg hij, ← hlive.timers]
          by_cases hkind : kind = h.tracker.collector
          · subst hkind
            simp [Ne.symm hij]
          · rw [Function.update_of_ne hkind]
      · -- The handle that is stopped is not armed any more.
        intro j k hk hon
        change (s.handles.set i _)[j]? = some k at hk
        rw [getElem?_set_handle hi] at hk
        by_cases hij : i = j
        · rw [if_pos hij] at hk
          obtain rfl := Option.some.inj hk
          cases hon
        · rw [if_neg hij] at hk
          exact hlive.armed j k hk hon

/-- Every event keeps the live ones. -/
theorem Live.step (hlive : Live s) (e : Event ε) : Live (step s e) := by
  cases e with
  | setService service => exact ⟨hlive.timers, hlive.armed⟩
  | track copy c call =>
    show Live (s.track copy c call).2
    cases haccept : c.accept s.service with
    | error err =>
      obtain ⟨printed, -, htrack⟩ := track_of_error haccept copy call
      rw [htrack]
      exact ⟨hlive.timers, hlive.armed⟩
    | ok service =>
      obtain ⟨printed, -, htrack⟩ := track_of_ok haccept copy call
      obtain ⟨k, hhandles, htracker, hstopped⟩ :=
        handles_tick_create { s with printed } c service call
      rw [htrack]
      -- The first tick leaves the sets, and `_attachStop` adds the timer of the new handle.
      refine Live.attach hlive ((handles_attachStop ..).trans hhandles) ?_
        (congrArg Tracker.collector htracker) hstopped
      rw [timers_attachStop, timers_tick]
      rfl
  | fire i call =>
    rw [TrackCalls.step]
    split_ifs
    · exact hlive.tick i call
    · exact hlive
  | resume i m outcome call =>
    show Live (s.resume i m outcome call)
    unfold Trackers.resume
    cases hi : s.handles[i]? with
    | none => exact hlive
    | some h =>
      dsimp only
      rcases h.ticks[m]? with _ | _ | w
      · exact hlive
      · exact hlive
      · exact hlive.set hi rfl rfl rfl rfl id
  | stop i => exact hlive.stop i
  | clearInterval i =>
    -- The host clears the interval itself: the timer stays in its set.
    show Live (s.clearInterval i)
    unfold Trackers.clearInterval
    cases hi : s.handles[i]? with
    | none => exact hlive
    | some h =>
      refine hlive.set hi rfl rfl rfl rfl ?_
      intro hon
      cases hon

/-- Nothing is live where nothing is tracked. -/
theorem live_start : Live (start : Trackers ε) := by
  refine ⟨?_, ?_⟩
  · intro kind i
    simp [start]
  · intro i h hi
    cases hi

/-- A set of the places of a list with a property has as many elements as the list has there. -/
theorem card_eq_countP {α : Type} {P : α → Bool} {l : List α} {A : Finset ℕ}
    (hA : ∀ i, i ∈ A ↔ ∃ a, l[i]? = some a ∧ P a = true) : A.card = l.countP P := by
  induction l using List.reverseRecOn generalizing A with
  | nil =>
    have hempty : A = ∅ := Finset.eq_empty_of_forall_notMem fun i hi => by simpa using (hA i).mp hi
    rw [hempty]
    rfl
  | append_singleton l a ih =>
    have hlast : l.length ∈ A ↔ P a = true := by
      rw [hA, List.getElem?_concat_length]
      simp
    have hrest : ∀ i, i ∈ A.erase l.length ↔ ∃ b, l[i]? = some b ∧ P b = true := by
      intro i
      rw [Finset.mem_erase, hA]
      rcases Nat.lt_trichotomy i l.length with hlt | rfl | hgt
      · rw [List.getElem?_append_left hlt]
        simp [hlt.ne]
      · simp
      · have hlong : (l ++ [a]).length ≤ i := by
          rw [List.length_append, List.length_singleton]
          exact hgt
        simp [List.getElem?_eq_none hlong, List.getElem?_eq_none hgt.le]
    rw [List.countP_append, List.countP_singleton, ← ih hrest]
    by_cases hP : P a = true
    · rw [if_pos hP, Finset.card_erase_add_one (hlast.mpr hP)]
    · rw [if_neg hP, Finset.erase_eq_of_notMem (mt hlast.mp hP), Nat.add_zero]

/-! ## Ticks after a handle was stopped -/

/-- The ticks of other handles await as before. -/
theorem awaiting_of_getElem? {s' : Trackers ε} (hi : s'.handles[i]? = s.handles[i]?) :
    s'.awaiting i = s.awaiting i := by
  unfold Trackers.awaiting
  rw [hi]

/-- A handle that changes, but not in its ticks, awaits as before. -/
theorem awaiting_set {s' : Trackers ε} (hj : s.handles[j]? = some h) {h' : Handle ε}
    (hhandles : s'.handles = s.handles.set j h') (hticks : h'.ticks = h.ticks) :
    s'.awaiting i = s.awaiting i := by
  unfold Trackers.awaiting
  rw [hhandles, getElem?_set_handle hj]
  by_cases hij : j = i
  · subst hij
    rw [if_pos rfl, hj]
    dsimp only
    rw [hticks]
  · rw [if_neg hij]

/-- A call of `stop` leaves what the ticks of the handle await. -/
theorem awaiting_stop (s : Trackers ε) (i j : ℕ) : (s.stop j).awaiting i = s.awaiting i := by
  unfold Trackers.stop
  cases hj : s.handles[j]? with
  | none => rfl
  | some h =>
    dsimp only
    split_ifs
    · rfl
    · exact awaiting_set hj rfl rfl

/-- A call of `clearInterval` leaves what the ticks of the handle await. -/
theorem awaiting_clearInterval (s : Trackers ε) (i j : ℕ) :
    (s.clearInterval j).awaiting i = s.awaiting i := by
  unfold Trackers.clearInterval
  cases hj : s.handles[j]? with
  | none => rfl
  | some h => exact awaiting_set hj rfl rfl

/-- The ticks that await after one of them has gone on. -/
theorem countP_set_pending {ticks : List (Option Pending)} {w : Pending}
    (hj : ticks[j]? = some (some w)) (pending : Option Pending) :
    (ticks.set j pending).countP Option.isSome + 1 =
      ticks.countP Option.isSome + pending.toList.length := by
  obtain ⟨hlt, hget⟩ := List.getElem?_eq_some_iff.mp hj
  have hpos : 0 < ticks.countP Option.isSome :=
    List.countP_pos_iff.mpr ⟨some w, List.mem_of_getElem? hj, rfl⟩
  rw [List.countP_set hlt, hget]
  cases pending with
  | none => simp; omega
  | some w' => simp; omega

/-- The handle in the place `i` does not fire any more. -/
def Disarmed (i : ℕ) (s : Trackers ε) : Prop := ∃ h, s.handles[i]? = some h ∧ h.armed = false

/-- A handle that does not fire never does again. -/
theorem Disarmed.step (h : Disarmed i s) (e : Event ε) : Disarmed i (step s e) := by
  obtain ⟨k, hk, hoff⟩ := h
  obtain ⟨k', hk', hlater⟩ := later_step e hk
  exact ⟨k', hk', hlater.armed hoff⟩

/-- No tick of it begins. -/
theorem Disarmed.begun_eq (h : Disarmed i s) (e : Event ε) : begun i s e = 0 := by
  obtain ⟨k, hk, hoff⟩ := h
  have hlt : i < s.handles.length := (List.getElem?_eq_some_iff.mp hk).1
  cases e with
  | track copy c call =>
    rw [begun]
    cases c.accept s.service with
    | error e => rfl
    | ok service => exact if_neg hlt.ne'
  | fire m call =>
    rw [begun, hk]
    simp [hoff]
  | setService service => rfl
  | resume m n outcome call => rfl
  | stop m => rfl
  | clearInterval m => rfl

/-- The ticks of it that end are those that await. -/
theorem Disarmed.ended_add_awaiting_le (h : Disarmed i s) (e : Event ε) :
    (readings i (ended s e)).length + (TrackCalls.step s e).awaiting i ≤ s.awaiting i := by
  obtain ⟨k, hk, hoff⟩ := h
  have hlt : i < s.handles.length := (List.getElem?_eq_some_iff.mp hk).1
  -- An event that ends no tick of the handle, and leaves what awaits.
  have hidle : ∀ {ends : List (ℕ × (Family → Except ε F64))} {s' : Trackers ε},
      readings i ends = [] → s'.awaiting i = s.awaiting i →
      (readings i ends).length + s'.awaiting i ≤ s.awaiting i := by
    intro ends s' hends hawaiting
    rw [hends, hawaiting]
    exact (Nat.zero_add _).le
  cases e with
  | setService service => exact hidle rfl rfl
  | track copy c call =>
    refine hidle ?_ (awaiting_of_getElem? (getElem?_track copy c call hlt))
    rw [ended]
    cases c.accept s.service with
    | error err => rfl
    | ok service =>
      dsimp only
      unfold Trackers.endedTick
      cases (s.create c service).handles[s.handles.length]? with
      | none => rfl
      | some h => exact readings_map_of_ne hlt.ne' _
  | fire m call =>
    rw [ended, TrackCalls.step]
    by_cases hm : m = i
    · subst hm
      simp only [hk, Option.any_some, hoff]
      exact hidle rfl rfl
    · split_ifs
      · unfold Trackers.endedTick Trackers.tick
        cases hget : s.handles[m]? with
        | none => exact hidle rfl rfl
        | some h =>
          refine hidle (readings_map_of_ne hm _) (awaiting_of_getElem? ?_)
          exact List.getElem?_set_ne hm
      · exact hidle rfl rfl
  | resume m n outcome call =>
    show (readings i (ended s (.resume m n outcome call))).length +
      (s.resume m n outcome call).awaiting i ≤ s.awaiting i
    rw [ended]
    unfold Trackers.resume
    cases hget : s.handles[m]? with
    | none => exact hidle rfl rfl
    | some h =>
      dsimp only
      rcases hn : h.ticks[n]? with _ | _ | w
      · exact hidle rfl rfl
      · exact hidle rfl rfl
      · dsimp only
        by_cases hm : m = i
        · subst hm
          rw [readings_map_self]
          unfold Trackers.awaiting
          rw [hget]
          dsimp only [Trackers.write]
          rw [getElem?_set_handle hget, if_pos rfl]
          have hlength : (w.ended (count h.tracker.collector) outcome call).length +
              (w.resume h.tracker (count h.tracker.collector) outcome call
                (s.poller h)).1.toList.length = 1 := w.length_resume
          have hcount := countP_set_pending hn
            (w.resume h.tracker (count h.tracker.collector) outcome call (s.poller h)).1
          dsimp only
          omega
        · refine hidle (readings_map_of_ne hm _) (awaiting_of_getElem? ?_)
          exact List.getElem?_set_ne hm
  | stop m => exact hidle rfl (awaiting_stop s i m)
  | clearInterval m => exact hidle rfl (awaiting_clearInterval s i m)

/-- What a call that clears the interval of the handle in the place `i` leaves of its ticks. -/
structure Quiet (i : ℕ) (s s' : Trackers ε) : Prop where
  /-- None begins any more. -/
  begun : ∀ later, tally step (begun i) s' later = 0
  /-- Only those that await a callback may still end. -/
  ended : ∀ later, tally step (fun s e => (readings i (ended s e)).length) s' later ≤ s.awaiting i

/-- A handle that does not fire, with the ticks that it had, is quiet. -/
theorem quiet_of_disarmed {s' : Trackers ε} (h : Disarmed i s')
    (hawaiting : s'.awaiting i = s.awaiting i) : Quiet i s s' := by
  refine ⟨?_, ?_⟩
  · intro later
    have hle : tally step (TrackCalls.begun i) s' later ≤ 0 :=
      Lib.tally_le (I := Disarmed i) (fun _ => 0) (fun s e h => h.step e)
        (fun s e h => (h.begun_eq e).le) h later
    exact Nat.le_zero.mp hle
  · intro later
    rw [← hawaiting]
    exact Lib.tally_le (I := Disarmed i) (·.awaiting i) (fun s e h => h.step e)
      (fun s e h => h.ended_add_awaiting_le e) h later

/-- What `stop` of the handle in the place `i` does. -/
structure Stops (i : ℕ) (s : Trackers ε) : Prop where
  quiet : Quiet i s (step s (.stop i))
  /-- The handle is released, and its timer stays out of the sets. -/
  released : ∀ later kind, i ∉ (run step (step s (.stop i)) later).timers kind
  /-- A second call does nothing. -/
  idempotent : step (step s (.stop i)) (.stop i) = step s (.stop i)

/-- The handle in the place `i` is as `stop` leaves it. -/
theorem getElem?_stop (hi : s.handles[i]? = some h) (harmed : h.armed = true → h.stopped = false) :
    (s.stop i).handles[i]? = some { h with stopped := true, armed := false } := by
  unfold Trackers.stop
  rw [hi]
  dsimp only
  split_ifs with hstopped
  · have hoff : h.armed = false := by
      by_contra hon
      rw [harmed (by simpa using hon)] at hstopped
      cases hstopped
    rw [hi, ← hstopped, ← hoff]
  · dsimp only
    rw [getElem?_set_handle hi, if_pos rfl]

/-- What holds of the live trackers in every state of a run. -/
structure Accounted (s : Trackers ε) : Prop where
  /-- The live trackers are those whose `stop` was not called. -/
  counts : ∀ kind, s.liveTrackerCounts kind =
    s.handles.countP fun h => h.tracker.collector = kind && !h.stopped
  /-- `stop` clears the interval and releases the handle. -/
  stop : ∀ i < s.handles.length, Stops i s
  /-- `clearInterval` clears the interval, and leaks the handle. -/
  clearInterval : ∀ i < s.handles.length,
    Quiet i s (step s (.clearInterval i)) ∧ (step s (.clearInterval i)).timers = s.timers

/-- What holds of the live trackers in every state of a run, whatever is tracked, fires, settles, or
is stopped or cleared in it. -/
theorem live_trackers (events : List (Event ε)) : Accounted (run step start events) := by
  have hlive : Live (run step (start : Trackers ε) events) :=
    Lib.invariant_run (I := Live) (fun s e h => h.step e) live_start events
  generalize run step (start : Trackers ε) events = s at hlive
  refine ⟨?_, ?_, ?_⟩
  · intro kind
    refine card_eq_countP ?_
    intro i
    simpa using hlive.timers kind i
  · intro i hlt
    obtain ⟨h, hi⟩ : ∃ h, s.handles[i]? = some h := ⟨_, List.getElem?_eq_getElem hlt⟩
    have hstop : (step s (.stop i)).handles[i]? =
        some { h with stopped := true, armed := false } :=
      getElem?_stop hi (hlive.armed i h hi)
    refine ⟨quiet_of_disarmed ⟨_, hstop, rfl⟩ (awaiting_stop s i i), ?_, ?_⟩
    · intro later kind hmem
      -- No event starts a stopped handle again, so that its timer is in no set from there on.
      have hinv : Live (run step (step s (.stop i)) later) ∧
          ∃ k, (run step (step s (.stop i)) later).handles[i]? = some k ∧ k.stopped = true := by
        refine Lib.invariant_run
          (I := fun s => Live s ∧ ∃ k, s.handles[i]? = some k ∧ k.stopped = true) ?_
          ⟨hlive.step _, _, hstop, rfl⟩ later
        rintro s e ⟨hlive, k, hk, hstopped⟩
        obtain ⟨k', hk', hlater⟩ := later_step e hk
        exact ⟨hlive.step e, k', hk', hlater.stopped hstopped⟩
      obtain ⟨hlater, k, hk, hstopped⟩ := hinv
      obtain ⟨k', hk', -, hnot⟩ := (hlater.timers kind i).mp hmem
      obtain rfl := Option.some.inj (hk.symm.trans hk')
      rw [hstopped] at hnot
      cases hnot
    · -- A second call of `stop` returns at once.
      show (s.stop i).stop i = s.stop i
      rw [Trackers.stop, show (s.stop i).handles[i]? = _ from hstop]
      rfl
  · intro i hlt
    obtain ⟨h, hi⟩ : ∃ h, s.handles[i]? = some h := ⟨_, List.getElem?_eq_getElem hlt⟩
    have hclear : (step s (.clearInterval i)).handles[i]? = some { h with armed := false } := by
      show (s.clearInterval i).handles[i]? = _
      unfold Trackers.clearInterval
      rw [hi]
      dsimp only
      rw [getElem?_set_handle hi, if_pos rfl]
    refine ⟨quiet_of_disarmed ⟨_, hclear, rfl⟩ (awaiting_clearInterval s i i), ?_⟩
    show (s.clearInterval i).timers = s.timers
    unfold Trackers.clearInterval
    rw [hi]

/-! ## Warnings -/

/-- The timers that an event adds to the set of their kind. -/
def attachments (s : Trackers ε) : Event ε → List Attachment
  | .track copy c _ =>
    match c.accept s.service with
    | .ok _ => [s.attachment copy c s.handles.length]
    | .error _ => []
  | .setService _ | .fire .. | .resume .. | .stop _ | .clearInterval _ => []

/-- A timer that was added through a copy to the set of a kind, which is then larger than it should
be. -/
def crowds (copy : ℕ) (kind : CollectorKind) (a : Attachment) : Bool :=
  decide (a.copy = copy ∧ a.kind = kind ∧ liveTrackerWarnAt < a.size)

/-- The warnings of a copy, where these timers were added. -/
def Warned (s : Trackers ε) (added : List Attachment) : Prop :=
  ∀ copy kind, warnings copy kind s.printed = (added.filter (crowds copy kind)).head?.toList ∧
    (s.warnedSets copy kind = true ↔ added.filter (crowds copy kind) ≠ [])

/-- An event that adds no timer leaves the warnings. -/
theorem Warned.idle {s' : Trackers ε} {added : List Attachment} (h : Warned s added)
    (hprinted : ∀ copy kind, warnings copy kind s'.printed = warnings copy kind s.printed)
    (hsets : s'.warnedSets = s.warnedSets) : Warned s' (added ++ []) := by
  intro copy kind
  rw [List.append_nil, hprinted, hsets]
  exact h copy kind

/-- `_attachStop` warns of the first timer that crowds a set. -/
theorem Warned.attachStop {added : List Attachment} (h : Warned s added) (copy : ℕ) (c : TrackCall)
    (i : ℕ) : Warned (s.attachStop copy c i) (added ++ [s.attachment copy c i]) := by
  intro copy' kind'
  obtain ⟨hwarnings, hsets⟩ := h copy' kind'
  rw [List.filter_append]
  unfold Trackers.attachStop
  dsimp only
  by_cases hsame : copy = copy' ∧ c.kind = kind'
  · obtain ⟨rfl, rfl⟩ := hsame
    by_cases hlarge : liveTrackerWarnAt < (s.attachment copy c i).size
    · have hcrowds : crowds copy c.kind (s.attachment copy c i) = true :=
        decide_eq_true ⟨rfl, rfl, hlarge⟩
      have hfilter : [s.attachment copy c i].filter (crowds copy c.kind) =
          [s.attachment copy c i] := by
        rw [List.filter_cons_of_pos hcrowds, List.filter_nil]
      rw [hfilter, Display.head?_toList_concat]
      by_cases hnone : added.filter (crowds copy c.kind) = []
      · -- It is the first.
        have hunset : s.warnedSets copy c.kind = false := by
          simpa using mt hsets.mp (not_not_intro hnone)
        rw [if_pos ⟨hlarge, hunset⟩, hnone]
        refine ⟨?_, by simp⟩
        rw [warnings, List.filterMap_append, ← warnings, hwarnings, hnone]
        simp [Trackers.attachment]
      · -- The copy has warned of this set already.
        have hset : s.warnedSets copy c.kind = true := hsets.mpr hnone
        rw [if_neg (by simp [hset]), if_neg (by simpa using hnone)]
        exact ⟨hwarnings, by simp [hset]⟩
    · -- The set is small enough.
      have hcrowds : ¬crowds copy c.kind (s.attachment copy c i) = true :=
        fun h => hlarge (of_decide_eq_true h).2.2
      rw [if_neg (fun hboth => hlarge hboth.1), List.filter_cons_of_neg hcrowds, List.filter_nil,
        List.append_nil]
      exact ⟨hwarnings, hsets⟩
  · -- The timer is no concern of this copy, or of this set.
    have hcrowds : ¬crowds copy' kind' (s.attachment copy c i) = true :=
      fun h => hsame ⟨(of_decide_eq_true h).1, (of_decide_eq_true h).2.1⟩
    rw [List.filter_cons_of_neg hcrowds, List.filter_nil, List.append_nil]
    split_ifs with hboth
    · refine ⟨?_, ?_⟩
      · rw [← hwarnings, warnings, List.filterMap_append]
        simp [Trackers.attachment, hsame, warnings]
      · rw [← hsets]
        dsimp only
        by_cases hcopy : copy' = copy
        · subst hcopy
          rw [Function.update_self,
            Function.update_of_ne (fun hkind => hsame ⟨rfl, hkind.symm⟩)]
        · rw [Function.update_of_ne hcopy]
    · exact ⟨hwarnings, hsets⟩

/-- A call of `tick` warns of no live tracker. -/
theorem Warned.tick {added : List Attachment} (h : Warned s added) (i : ℕ) (call : Called ε) :
    Warned (s.tick i call) added := by
  unfold Trackers.tick
  cases s.handles[i]? with
  | none => exact h
  | some k => exact h

/-- Every event keeps the warnings. -/
theorem Warned.step {added : List Attachment} (h : Warned s added) (e : Event ε) :
    Warned (step s e) (added ++ attachments s e) := by
  cases e with
  | setService service => exact h.idle (fun _ _ => rfl) rfl
  | track copy c call =>
    show Warned (s.track copy c call).2 _
    rw [attachments]
    cases haccept : c.accept s.service with
    | error err =>
      obtain ⟨printed, hprinted, htrack⟩ := track_of_error haccept copy call
      rw [htrack]
      exact h.idle hprinted rfl
    | ok service =>
      obtain ⟨printed, hprinted, htrack⟩ := track_of_ok haccept copy call
      rw [htrack]
      -- The handle and its first tick warn of nothing; `_attachStop` may.
      have hcreated : Warned (({ s with printed } : Trackers ε).create c service) added := by
        intro copy kind
        rw [show (({ s with printed } : Trackers ε).create c service).printed = printed from rfl,
          hprinted]
        exact h copy kind
      have hattach := (hcreated.tick s.handles.length call).attachStop copy c s.handles.length
      rw [Trackers.attachment, timers_tick] at hattach
      exact hattach
  | fire i call =>
    rw [TrackCalls.step, attachments, List.append_nil]
    split_ifs
    · exact h.tick i call
    · exact h
  | resume i m outcome call =>
    show Warned (s.resume i m outcome call) _
    rw [attachments, List.append_nil]
    unfold Trackers.resume
    cases s.handles[i]? with
    | none => exact h
    | some k =>
      dsimp only
      rcases k.ticks[m]? with _ | _ | w <;> exact h
  | stop i =>
    show Warned (s.stop i) _
    rw [attachments, List.append_nil]
    unfold Trackers.stop
    cases s.handles[i]? with
    | none => exact h
    | some k =>
      dsimp only
      split_ifs <;> exact h
  | clearInterval i =>
    show Warned (s.clearInterval i) _
    rw [attachments, List.append_nil]
    unfold Trackers.clearInterval
    cases s.handles[i]? <;> exact h

/-- A copy of the module warns of a set once: when a timer that is added through it leaves the set
with more than 64 timers for the first time. -/
theorem leak_warnings (events : List (Event ε)) (copy : ℕ) (kind : CollectorKind) :
    warnings copy kind (run step start events).printed =
      ((trace step attachments start events).filter (crowds copy kind)).head?.toList := by
  have hstart : Warned (start : Trackers ε) [] := by
    intro copy kind
    exact ⟨rfl, by simp [start]⟩
  have hwarned : Warned (run step (start : Trackers ε) events)
      (trace step attachments start events) :=
    Lib.invariant_trace (I := Warned) (fun s e added h => h.step e) hstart events
  exact (hwarned copy kind).1

end SimsysMetrics.Node.LiveTrackers
