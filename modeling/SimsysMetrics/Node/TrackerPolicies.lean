import SimsysMetrics.Node.TrackCalls

/-!
# What the trackers of one process show

The trackers of a process share the registry, and their ticks overlap, with those of other trackers
and with each other. Nevertheless each tracker whose labels no other has follows the policy for
failures, on its own ticks in the order in which they end (`trackers_follow_policy`): it shows the
numbers of the tick that ended last among those that succeeded, all gauges of one tick, and none
before the first; it counts the ticks that failed; and it logs the first failure.
-/

namespace SimsysMetrics.Node.TrackerPolicies

open AsyncTicks (Called Pending)
open Lib (Display F64 readAll run trace)
open PollerTicks (ticked)
open TrackCalls

variable {ε : Type}

/-- The gauges of the callbacks of a kind of tracker. -/
def SourcesOf : CollectorKind → List Family → Prop
  | .queue, sources => sources = [.queueDepth]
  | .pool, sources => ∃ waiting, sources = poolSources waiting

/-- The gauges of a call are those of its kind. -/
theorem sourcesOf_sources (c : TrackCall) : SourcesOf c.kind c.sources := by
  unfold TrackCall.sources
  cases c.kind with
  | queue => rfl
  | pool => exact ⟨c.waiting, rfl⟩

section Sources

variable {kind kind' : CollectorKind} {sources sources' : List Family} {g : Family}

/-- The gauges of a tracker are distinct. -/
theorem SourcesOf.nodup (h : SourcesOf kind sources) : sources.Nodup := by
  cases kind with
  | queue =>
    obtain rfl := h
    exact List.nodup_singleton _
  | pool =>
    obtain ⟨waiting, rfl⟩ := h
    exact nodup_poolSources waiting

/-- No callback gives the maximum of a pool. -/
theorem SourcesOf.ne_poolMax (h : SourcesOf kind sources) (hg : g ∈ sources) : g ≠ .poolMax := by
  rintro rfl
  cases kind with
  | queue =>
    obtain rfl := h
    simp at hg
  | pool =>
    obtain ⟨waiting, rfl⟩ := h
    cases waiting <;> simp [poolSources] at hg

/-- Trackers of two kinds have no gauge in common. -/
theorem SourcesOf.kind_eq (h : SourcesOf kind sources) (h' : SourcesOf kind' sources')
    (hg : g ∈ sources) (hg' : g ∈ sources') : kind = kind' := by
  cases kind with
  | queue =>
    obtain rfl := h
    obtain rfl := List.mem_singleton.mp hg
    cases kind' with
    | queue => rfl
    | pool =>
      obtain ⟨waiting, rfl⟩ := h'
      cases waiting <;> simp [poolSources] at hg'
  | pool =>
    cases kind' with
    | pool => rfl
    | queue =>
      obtain ⟨waiting, rfl⟩ := h
      obtain rfl := h'
      obtain rfl := List.mem_singleton.mp hg'
      cases waiting <;> simp [poolSources] at hg

/-- Trackers that share the key of a gauge are the same. -/
theorem tracker_eq {t t' : Tracker} (h : SourcesOf t.collector sources)
    (h' : SourcesOf t'.collector sources') {g' : Family} (hg : g ∈ sources) (hg' : g' ∈ sources')
    (hkey : t.gaugeKey g = t'.gaugeKey g') : t = t' := by
  obtain ⟨rfl, hservice, hname⟩ : g = g' ∧ t.service = t'.service ∧ t.name = t'.name := by
    simpa [Tracker.gaugeKey] using hkey
  obtain ⟨kind, service, name⟩ := t
  obtain ⟨kind', service', name'⟩ := t'
  obtain rfl : kind = kind' := h.kind_eq h' hg hg'
  obtain rfl : service = service' := hservice
  obtain rfl : name = name' := hname
  rfl

end Sources

/-- Trackers that share the labels of their failures are the same. -/
theorem errorLabels_injective : Function.Injective Tracker.errorLabels := by
  rintro ⟨kind, service, name⟩ ⟨kind', service', name'⟩ h
  obtain ⟨hservice, hkind, hname⟩ := ErrorLabels.mk.inj h
  obtain rfl : service = service' := hservice
  obtain rfl : kind = kind' := hkind
  obtain rfl : name = name' := hname
  rfl

section Frame

variable {t : Tracker} {sources : List Family} {p : Poller ε}

/-- Whole ticks leave the gauges of others. -/
theorem gauges_ticked {key : GaugeKey} (hkey : ∀ g ∈ sources, t.gaugeKey g ≠ key)
    (reads : List (Family → Except ε F64)) :
    (ticked t sources p reads).gauges key = p.gauges key := by
  refine Lib.invariant_run (I := fun q : Poller ε => q.gauges key = p.gauges key) ?_ rfl reads
  intro q read hq
  unfold pollTick
  cases hread : readAll sources read with
  | error e => exact hq
  | ok values =>
    refine (Lib.writeAll_of_notMem ?_ _).trans hq
    intro w hw
    refine hkey w.1 ?_
    rw [← Lib.map_fst_of_readAll hread]
    exact List.mem_map_of_mem hw

/-- Whole ticks leave the failures of others. -/
theorem collectorErrors_ticked {labels : ErrorLabels} (hlabels : labels ≠ t.errorLabels)
    (reads : List (Family → Except ε F64)) :
    (ticked t sources p reads).collectorErrors labels = p.collectorErrors labels := by
  refine Lib.invariant_run
    (I := fun q : Poller ε => q.collectorErrors labels = p.collectorErrors labels) ?_ rfl reads
  intro q read hq
  unfold pollTick
  cases readAll sources read with
  | error e => exact (Function.update_of_ne hlabels ..).trans hq
  | ok values => exact hq

/-- What is shown after whole ticks. -/
theorem shows_ticked (hnodup : sources.Nodup) {readings : List (Except ε (List (Family × F64)))}
    (h : Shows t sources p (readings.foldl Display.tick Display.blank))
    (reads : List (Family → Except ε F64)) :
    Shows t sources (ticked t sources p reads)
      ((readings ++ reads.map (readAll sources)).foldl Display.tick Display.blank) := by
  induction reads using List.reverseRecOn with
  | nil =>
    rw [List.map_nil, List.append_nil]
    exact h
  | append_singleton reads read ih =>
    rw [PollerTicks.ticked_concat, List.map_append, List.map_singleton, ← List.append_assoc,
      List.foldl_concat]
    exact shows_pollTick hnodup ih read

end Frame

/-! ## Runs of a process -/

variable {s : Trackers ε} {i j : ℕ} {h k : Handle ε} {ends : List (ℕ × (Family → Except ε F64))}

/-- No other handle has the tracker of this one, in the place `i`. -/
def Alone (s : Trackers ε) (i : ℕ) (h : Handle ε) : Prop :=
  ∀ j h', s.handles[j]? = some h' → h'.tracker = h.tracker → j = i

/-- What holds in a process, after ticks with these readings have ended. -/
structure Inv (s : Trackers ε) (ends : List (ℕ × (Family → Except ε F64))) : Prop where
  handles : ∀ (i : ℕ) (h : Handle ε), s.handles[i]? = some h →
    SourcesOf h.tracker.collector h.sources ∧ ∀ w, some w ∈ h.ticks → w.Of h.sources
  shows : ∀ (i : ℕ) (h : Handle ε), s.handles[i]? = some h → Alone s i h →
    Shows h.tracker h.sources (s.poller h)
      (((readings i ends).map (readAll h.sources)).foldl Display.tick Display.blank)
  /-- Only handles that there are have ticks. -/
  future : ∀ i, s.handles.length ≤ i → readings i ends = []
  /-- Every gauge but the maxima of the pools is one of a handle. -/
  gauges : ∀ key, key.family ≠ .poolMax → s.gauges key ≠ none →
    ∃ h ∈ s.handles, ∃ g ∈ h.sources, h.tracker.gaugeKey g = key
  /-- Every failure is one of a handle. -/
  errors : ∀ labels, s.collectorErrors labels ≠ none →
    ∃ h ∈ s.handles, h.tracker.errorLabels = labels

/-- Readings of two parts. -/
theorem readings_append (i : ℕ) (ends ends' : List (ℕ × (Family → Except ε F64))) :
    readings i (ends ++ ends') = readings i ends ++ readings i ends' := by
  rw [readings, List.filter_append, List.map_append]
  rfl

/-- A process in which nothing is tracked. -/
theorem inv_start : Inv (start : Trackers ε) [] := by
  refine ⟨?_, ?_, fun _ _ => rfl, ?_, ?_⟩
  · intro i h hi
    cases hi
  · intro i h hi
    cases hi
  · intro key _ hkey
    exact absurd rfl hkey
  · intro labels hlabels
    exact absurd rfl hlabels

/-- Nothing depends on the sets of the timers, on the service, and on what is printed. -/
theorem Inv.congr {s' : Trackers ε} (hinv : Inv s ends) (hhandles : s'.handles = s.handles)
    (hgauges : s'.gauges = s.gauges) (herrors : s'.collectorErrors = s.collectorErrors) :
    Inv s' ends := by
  obtain ⟨service, handles, timers, warnedSets, gauges, collectorErrors, printed⟩ := s'
  obtain rfl : handles = s.handles := hhandles
  obtain rfl : gauges = s.gauges := hgauges
  obtain rfl : collectorErrors = s.collectorErrors := herrors
  exact ⟨hinv.handles, hinv.shows, hinv.future, hinv.gauges, hinv.errors⟩

/-- A handle in a list whose place another handle took. -/
theorem mem_set_tracker {l : List (Handle ε)} (hi : l[i]? = some h) {h' : Handle ε}
    (htracker : h'.tracker = h.tracker) (hsources : h'.sources = h.sources) (hk : k ∈ l) :
    ∃ k' ∈ l.set i h', k'.tracker = k.tracker ∧ k'.sources = k.sources := by
  obtain ⟨j, hj⟩ := List.getElem?_of_mem hk
  by_cases hij : i = j
  · subst hij
    obtain rfl := Option.some.inj (hi.symm.trans hj)
    refine ⟨h', List.mem_of_getElem? (i := i) ?_, htracker, hsources⟩
    rw [getElem?_set_handle hi, if_pos rfl]
  · refine ⟨k, List.mem_of_getElem? (i := j) ?_, rfl, rfl⟩
    rw [getElem?_set_handle hi, if_neg hij]
    exact hj

/-- A handle changes, and some of its ticks end, which do what whole ticks do. -/
theorem Inv.set {s' : Trackers ε} (hinv : Inv s ends) (hi : s.handles[i]? = some h)
    {h' : Handle ε} {reads : List (Family → Except ε F64)}
    (hhandles : s'.handles = s.handles.set i h') (htracker : h'.tracker = h.tracker)
    (hsources : h'.sources = h.sources)
    (hp : s'.poller h' = ticked h.tracker h.sources (s.poller h) reads)
    (hticks : ∀ w, some w ∈ h'.ticks → w.Of h.sources) :
    Inv s' (ends ++ reads.map (i, ·)) := by
  obtain ⟨hkind, -⟩ := hinv.handles i h hi
  have hget : ∀ j, s'.handles[j]? = if i = j then some h' else s.handles[j]? := by
    rw [hhandles]
    exact getElem?_set_handle hi h'
  have hmem : ∀ k ∈ s.handles, ∃ k' ∈ s'.handles,
      k'.tracker = k.tracker ∧ k'.sources = k.sources := by
    rw [hhandles]
    exact fun k hk => mem_set_tracker hi htracker hsources hk
  have hgauges : s'.gauges = (ticked h.tracker h.sources (s.poller h) reads).gauges :=
    congrArg Poller.gauges hp
  have herrors : s'.collectorErrors =
      (ticked h.tracker h.sources (s.poller h) reads).collectorErrors :=
    congrArg Poller.collectorErrors hp
  refine ⟨?_, ?_, ?_, ?_, ?_⟩
  · intro j k hj
    rw [hget] at hj
    by_cases hij : i = j
    · rw [if_pos hij] at hj
      obtain rfl := Option.some.inj hj
      rw [htracker, hsources]
      exact ⟨hkind, hticks⟩
    · rw [if_neg hij] at hj
      exact hinv.handles j k hj
  · intro j k hj halone
    rw [hget] at hj
    rw [readings_append]
    by_cases hij : i = j
    · subst hij
      rw [if_pos rfl] at hj
      obtain rfl := Option.some.inj hj
      rw [readings_map_self, List.map_append, hp, htracker, hsources]
      refine shows_ticked hkind.nodup (hinv.shows i h hi ?_) reads
      intro m k hm hsame
      by_contra hne
      exact hne (halone m k (by rw [hget, if_neg (Ne.symm hne), hm]) (hsame.trans htracker.symm))
    · rw [if_neg hij] at hj
      rw [readings_map_of_ne hij, List.append_nil]
      -- The tracker is another one, so its labels are.
      have hne : h.tracker ≠ k.tracker := fun heq =>
        hij (halone i h' ((hget i).trans (if_pos rfl)) (htracker.trans heq))
      have hbefore : Alone s j k := by
        intro m k' hm hsame
        by_cases him : i = m
        · subst him
          obtain rfl := Option.some.inj (hi.symm.trans hm)
          exact absurd hsame hne
        · exact halone m k' (by rw [hget, if_neg him, hm]) hsame
      obtain ⟨hshown, hcounted, hseen, hlog⟩ := hinv.shows j k hj hbefore
      obtain ⟨hkind', -⟩ := hinv.handles j k hj
      refine ⟨?_, ?_, hseen, hlog⟩
      · intro g hg
        refine Eq.trans ?_ (hshown g hg)
        show s'.gauges _ = s.gauges _
        rw [hgauges]
        refine gauges_ticked ?_ reads
        intro g' hg' hkey
        exact hne (tracker_eq hkind hkind' hg' hg hkey)
      · refine Eq.trans ?_ hcounted
        show (s'.collectorErrors _).getD 0 = (s.collectorErrors _).getD 0
        rw [herrors, collectorErrors_ticked (fun heq => hne (errorLabels_injective heq.symm))]
        rfl
  · intro j hj
    rw [hhandles, List.length_set] at hj
    have hne : i ≠ j := by
      rintro rfl
      exact absurd (List.getElem?_eq_some_iff.mp hi).1 (Nat.not_lt.mpr hj)
    rw [readings_append, readings_map_of_ne hne, hinv.future j hj, List.append_nil]
  · intro key hkey hsome
    by_cases hown : ∃ g ∈ h.sources, h.tracker.gaugeKey g = key
    · obtain ⟨k', hk', hsame, hsources'⟩ := hmem h (List.mem_of_getElem? hi)
      rw [← hsame, ← hsources'] at hown
      exact ⟨k', hk', hown⟩
    · rw [hgauges, gauges_ticked (fun g hg heq => hown ⟨g, hg, heq⟩)] at hsome
      obtain ⟨k, hk, howned⟩ := hinv.gauges key hkey hsome
      obtain ⟨k', hk', hsame, hsources'⟩ := hmem k hk
      rw [← hsame, ← hsources'] at howned
      exact ⟨k', hk', howned⟩
  · intro labels hsome
    by_cases hown : labels = h.tracker.errorLabels
    · obtain ⟨k', hk', hsame, -⟩ := hmem h (List.mem_of_getElem? hi)
      exact ⟨k', hk', by rw [hsame, hown]⟩
    · rw [herrors, collectorErrors_ticked hown] at hsome
      obtain ⟨k, hk, hlabels⟩ := hinv.errors labels hsome
      obtain ⟨k', hk', hsame, -⟩ := hmem k hk
      exact ⟨k', hk', by rw [hsame, hlabels]⟩

/-- A handle whose interval is cleared, or that is stopped. -/
theorem Inv.off {s' : Trackers ε} (hinv : Inv s ends) (hi : s.handles[i]? = some h)
    (stopped : Bool) (hhandles : s'.handles = s.handles.set i { h with armed := false, stopped })
    (hgauges : s'.gauges = s.gauges) (herrors : s'.collectorErrors = s.collectorErrors) :
    Inv s' ends := by
  obtain ⟨-, hticks⟩ := hinv.handles i h hi
  have hp : s'.poller { h with armed := false, stopped } =
      ticked h.tracker h.sources (s.poller h) [] := by
    rw [Trackers.poller, hgauges, herrors]
    rfl
  have hset := hinv.set hi hhandles rfl rfl hp hticks
  rw [List.map_nil, List.append_nil] at hset
  exact hset

/-- A call sets no gauge but the maximum of the pool. -/
theorem setMax_of_ne {key : GaugeKey} (hkey : key.family ≠ .poolMax) (c : TrackCall)
    (service : String) (gauges : Lib.Store GaugeKey F64) :
    c.setMax service gauges key = gauges key := by
  have hne : key ≠ ⟨.poolMax, service, c.name⟩ := by
    rintro rfl
    exact hkey rfl
  unfold TrackCall.setMax
  cases c.kind with
  | queue => rfl
  | pool =>
    cases c.max with
    | none => rfl
    | some max =>
      dsimp only
      split_ifs
      · exact Lib.Store.set_of_ne _ _ hne
      · rfl

/-- A list with one more element has its elements, and that one in the last place. -/
theorem getElem?_concat_cases {l : List (Handle ε)} (hj : (l ++ [h])[j]? = some k) :
    l[j]? = some k ∨ j = l.length ∧ k = h := by
  rcases Nat.lt_trichotomy j l.length with hlt | rfl | hgt
  · exact .inl ((List.getElem?_append_left hlt).symm.trans hj)
  · rw [List.getElem?_concat_length] at hj
    exact .inr ⟨rfl, (Option.some.inj hj).symm⟩
  · have hlong : (l ++ [h]).length ≤ j := by
      rw [List.length_append, List.length_singleton]
      exact hgt
    rw [List.getElem?_eq_none hlong] at hj
    cases hj

/-- A call that is accepted creates a handle. -/
theorem Inv.create (hinv : Inv s ends) (c : TrackCall) (service : String) :
    Inv (s.create c service) ends := by
  have hold : ∀ {j : ℕ} {k : Handle ε}, s.handles[j]? = some k →
      (s.create c service).handles[j]? = some k := by
    intro j k hj
    exact (List.getElem?_append_left (List.getElem?_eq_some_iff.mp hj).1).trans hj
  have hmem : ∀ {k : Handle ε}, k ∈ s.handles → k ∈ (s.create c service).handles :=
    fun hk => List.mem_append_left _ hk
  refine ⟨?_, ?_, ?_, ?_, ?_⟩
  · intro j k hj
    rcases getElem?_concat_cases hj with hj | ⟨rfl, rfl⟩
    · exact hinv.handles j k hj
    · exact ⟨sourcesOf_sources c, fun w hw => nomatch hw⟩
  · intro j k hj halone
    rcases getElem?_concat_cases hj with hj' | ⟨rfl, rfl⟩
    · obtain ⟨hsources, -⟩ := hinv.handles j k hj'
      have hbefore : Alone s j k := fun m k' hm htracker => halone m k' (hold hm) htracker
      obtain ⟨hgauges, herrors, hseen, hlog⟩ := hinv.shows j k hj' hbefore
      refine ⟨?_, herrors, hseen, hlog⟩
      intro g hg
      refine Eq.trans ?_ (hgauges g hg)
      exact setMax_of_ne (hsources.ne_poolMax hg) c service s.gauges
    · -- The labels are new, as no other handle has them.
      rw [hinv.future _ le_rfl, List.map_nil]
      have hnew : ∀ k' ∈ s.handles, k'.tracker ≠ ⟨c.kind, service, c.name⟩ := by
        intro k' hk' heq
        obtain ⟨m, hm⟩ := List.getElem?_of_mem hk'
        obtain rfl := halone m k' (hold hm) heq
        exact absurd (List.getElem?_eq_some_iff.mp hm).1 (Nat.lt_irrefl _)
      refine shows_blank ⟨?_, ?_, rfl, rfl⟩
      · intro g hg
        have hmax : g ≠ .poolMax := (sourcesOf_sources c).ne_poolMax hg
        refine (setMax_of_ne hmax c service s.gauges).trans ?_
        by_contra hsome
        obtain ⟨k', hk', g', hg', hkey⟩ := hinv.gauges _ hmax hsome
        obtain ⟨m, hm⟩ := List.getElem?_of_mem hk'
        obtain ⟨hsources, -⟩ := hinv.handles m k' hm
        exact hnew k' hk' (tracker_eq hsources (sourcesOf_sources c) hg' hg hkey)
      · by_contra hsome
        obtain ⟨k', hk', hlabels⟩ := hinv.errors _ hsome
        exact hnew k' hk' (errorLabels_injective hlabels)
  · intro j hj
    have hlength : s.handles.length + 1 ≤ j := by
      rw [Trackers.create, List.length_append, List.length_singleton] at hj
      exact hj
    exact hinv.future j (by omega)
  · -- What is set belongs to a handle, as the new one sets only the maximum of its pool.
    intro key hkey hsome
    change c.setMax service s.gauges key ≠ none at hsome
    rw [setMax_of_ne hkey] at hsome
    obtain ⟨k, hk, howned⟩ := hinv.gauges key hkey hsome
    exact ⟨k, hmem hk, howned⟩
  · intro labels hsome
    obtain ⟨k, hk, hlabels⟩ := hinv.errors labels hsome
    exact ⟨k, hmem hk, hlabels⟩

/-- A tick begins. -/
theorem Inv.tick (hinv : Inv s ends) (i : ℕ) (call : Called ε) :
    Inv (s.tick i call) (ends ++ s.endedTick i call) := by
  unfold Trackers.tick Trackers.endedTick
  cases hi : s.handles[i]? with
  | none =>
    dsimp only
    rw [List.append_nil]
    exact hinv
  | some h =>
    obtain ⟨hsources, hticks⟩ := hinv.handles i h hi
    refine hinv.set hi rfl rfl rfl ?_ ?_
    · exact AsyncTicks.proceed_eq_ticked hsources.nodup rfl call
    · intro w hw
      rcases List.mem_append.mp hw with hw | hw
      · exact hticks w hw
      · exact AsyncTicks.of_proceed rfl (List.mem_singleton.mp hw).symm

/-- Every event keeps the invariant. -/
theorem Inv.step (hinv : Inv s ends) (e : Event ε) : Inv (step s e) (ends ++ ended s e) := by
  cases e with
  | setService service =>
    rw [ended, List.append_nil]
    exact hinv.congr rfl rfl rfl
  | track copy c call =>
    show Inv (s.track copy c call).2 _
    rw [ended]
    cases haccept : c.accept s.service with
    | error err =>
      obtain ⟨printed, -, htrack⟩ := track_of_error haccept copy call
      rw [htrack, List.append_nil]
      exact hinv.congr rfl rfl rfl
    | ok service =>
      obtain ⟨printed, -, htrack⟩ := track_of_ok haccept copy call
      rw [htrack]
      have hprinted : Inv ({ s with printed } : Trackers ε) ends := hinv.congr rfl rfl rfl
      have hticked := (hprinted.create c service).tick s.handles.length call
      obtain ⟨hgauges, herrors⟩ := samples_attachStop
        ((({ s with printed } : Trackers ε).create c service).tick s.handles.length call) copy c
        s.handles.length
      exact hticked.congr (handles_attachStop ..) hgauges herrors
  | fire i call =>
    rw [TrackCalls.step, ended]
    split_ifs
    · exact hinv.tick i call
    · rw [List.append_nil]
      exact hinv
  | resume i m outcome call =>
    show Inv (s.resume i m outcome call) _
    rw [ended]
    unfold Trackers.resume
    cases hi : s.handles[i]? with
    | none =>
      dsimp only
      rw [List.append_nil]
      exact hinv
    | some h =>
      dsimp only
      rcases hm : h.ticks[m]? with _ | _ | w
      · dsimp only
        rw [List.append_nil]
        exact hinv
      · dsimp only
        rw [List.append_nil]
        exact hinv
      · -- The tick goes on where its callback has settled, and may end here.
        obtain ⟨hsources, hticks⟩ := hinv.handles i h hi
        have hw : w.Of h.sources := hticks w (List.mem_of_getElem? hm)
        refine hinv.set hi rfl rfl rfl (Pending.resume_eq_ticked hsources.nodup hw) ?_
        intro w' hw'
        rcases List.mem_or_eq_of_mem_set hw' with hmem | hnew
        · exact hticks w' hmem
        · exact Pending.of_resume hw hnew.symm
  | stop i =>
    -- `stop` and `clearInterval` turn the interval off, and leave the ticks under way.
    show Inv (s.stop i) _
    rw [ended, List.append_nil]
    unfold Trackers.stop
    cases hi : s.handles[i]? with
    | none => exact hinv
    | some h =>
      dsimp only
      split_ifs
      · exact hinv
      · exact hinv.off hi true rfl rfl rfl
  | clearInterval i =>
    show Inv (s.clearInterval i) _
    rw [ended, List.append_nil]
    unfold Trackers.clearInterval
    cases hi : s.handles[i]? with
    | none => exact hinv
    | some h => exact hinv.off hi h.stopped rfl rfl rfl

end SimsysMetrics.Node.TrackerPolicies
