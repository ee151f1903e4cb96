import SimsysMetrics.Node.Next

/-!
# Runs of installs and requests of the Next.js adapter

In a run, `installNext` is called, returns or throws, its sentinel is cleared, its module is
instantiated again, and in between requests arrive and their responses emit `finish` and `close`. No
other code assigns `http.Server.prototype.emit`. A request that arrives at a patch gets the listener
of each layer; the first event of its response runs them and takes them off.

The saved original is always the built-in `emit`, and the live one is the built-in or one patch over
it (`Globals.Layered`), so a request has at most one listener. Listeners turn into records one for
one (`recorded_add_pending`), so every request is recorded at most once, and once exactly where a
patch was live, its path was another than the metrics path, and its response emitted an event
(`request_discipline`).
-/

namespace SimsysMetrics.Node.Next

open Lib (JsString js run run_append run_concat invariant_run)

/-- The patches whose `finalize` a request with this URL gets as a listener, from the outer layer to
the inner one. -/
def Emit.listeners (url : JsString) : Emit → List Patch
  | .builtin => []
  | .patched patch origEmit =>
    if pathOnly url = patch.metricsPath then origEmit.listeners url
    else patch :: origEmit.listeners url

/-- The listeners run in turn: what they count, and the state afterwards. -/
def finalizeAll (f : Finished) : List Patch → NextState → List (HttpLabels JsString) × NextState
  | [], s => ([], s)
  | patch :: patches, s =>
    let (labels, s') := finalize patch s f
    let (rest, s'') := finalizeAll f patches s'
    (labels :: rest, s'')

/-- A request that arrived: its URL, and the listeners that are on its response. -/
structure Open where
  url : JsString
  listeners : List Patch

/-- A process in a run: the global state, the requests that arrived so far, and what was recorded
for which of them. -/
structure Live where
  proc : Proc
  globals : Globals
  next : NextState
  requests : List Open
  records : List (ℕ × HttpLabels JsString)

/-- A process before the first install. -/
def Live.fresh (lastIndex : ℕ → ℕ) : Live := ⟨.fresh, .fresh, .fresh lastIndex, [], []⟩

/-- What happens in a run. -/
inductive Event where
  /-- A call of `installNext`, with the step that throws, if any. -/
  | install (env : Env) (o : InstallOpts) (n : NextOpts) (fault : Option (Fault WireFault))
  /-- The caller clears `globalThis.__simsysNextInstalled`. -/
  | clearSentinel
  /-- The module is instantiated again: all its state is on `globalThis`, and stays. -/
  | instantiate
  /-- `emit` is called for a request with its response. -/
  | request (url : JsString)
  /-- The response of a request emits an event; what `finalize` reads then. -/
  | response (i : ℕ) (event : ResponseEvent) (method : Option String) (statusCode : StatusCode)

/-- The state after an event. Each `finalize` listens to both events of a response, and the first
takes it off both. -/
def step (s : Live) : Event → Live
  | .install env o n fault =>
    let r := installNext env o n fault s.proc s.globals
    { s with proc := r.proc, globals := r.app }
  | .clearSentinel => { s with globals := { s.globals with installed := false } }
  | .instantiate => s
  | .request url => { s with requests := s.requests ++ [⟨url, s.globals.emit.listeners url⟩] }
  | .response i _ method statusCode =>
    match s.requests[i]? with
    | none => s
    -- The listeners are off afterwards, so the other event of the response finds none.
    | some r =>
      let (labels, next) := finalizeAll ⟨r.url, method, statusCode⟩ r.listeners s.next
      { s with
        next
        requests := s.requests.set i { r with listeners := [] }
        records := s.records ++ labels.map (i, ·) }

section Responses

variable {s : Live} {j : ℕ}

/-- An event of a response whose request never arrived. -/
theorem step_response_of_none (hj : s.requests[j]? = none) (event : ResponseEvent)
    (method : Option String) (statusCode : StatusCode) :
    step s (.response j event method statusCode) = s := by
  unfold step
  dsimp only
  rw [hj]

/-- An event of a response runs the listeners that are on it, and takes them off. -/
theorem step_response_of_some {r : Open} (hj : s.requests[j]? = some r) (event : ResponseEvent)
    (method : Option String) (statusCode : StatusCode) :
    step s (.response j event method statusCode) =
      { s with
        next := (finalizeAll ⟨r.url, method, statusCode⟩ r.listeners s.next).2
        requests := s.requests.set j { r with listeners := [] }
        records := s.records ++
          (finalizeAll ⟨r.url, method, statusCode⟩ r.listeners s.next).1.map (j, ·) } := by
  unfold step
  dsimp only
  rw [hj]

end Responses

/-! ## The layers of `emit` -/

/-- The live `emit` is the built-in or one patch over it, and the saved original is the built-in,
which is live as long as nothing is saved. -/
structure Globals.Layered (g : Globals) : Prop where
  emit : g.emit = .builtin ∨ ∃ patch, g.emit = .patched patch .builtin
  origEmit : g.origEmit = none ∧ g.emit = .builtin ∨ g.origEmit = some .builtin

/-- The original that an install layers its patch on is the built-in. -/
theorem Globals.Layered.original {g : Globals} (h : g.Layered) :
    g.origEmit.getD g.emit = .builtin := by
  rcases h.origEmit with ⟨hnone, hemit⟩ | hsome
  · rw [hnone]
    exact hemit
  · rw [hsome]
    rfl

/-- Wherever the wiring throws, if it does, it keeps the layers. -/
theorem layered_wire {g : Globals} (h : g.Layered) (o : InstallOpts) (n : NextOpts)
    (fault : Option WireFault) : ((adapter n).wire o fault g).1.Layered := by
  have horiginal := h.original
  have hsaved : g.origEmit = none ∨ g.origEmit = some .builtin := h.origEmit.imp_left And.left
  rcases fault with _ | _ | _ | _
  all_goals simp only [adapter, horiginal]
  · exact ⟨Or.inr ⟨_, rfl⟩, Or.inr rfl⟩
  · exact h
  · exact ⟨Or.inl rfl, hsaved.imp_left fun hnone => ⟨hnone, rfl⟩⟩
  · exact ⟨Or.inl rfl, hsaved.imp_left fun hnone => ⟨hnone, rfl⟩⟩

/-- An install keeps the layers, whether it returns or throws. -/
theorem layered_installNext {g : Globals} (h : g.Layered) (env : Env) (o : InstallOpts)
    (n : NextOpts) (fault : Option (Fault WireFault)) (p : Proc) :
    (installNext env o n fault p g).app.Layered := by
  unfold installNext
  split_ifs
  · have hout := outcome_installOn (adapter n) env o fault p g
    generalize installOn (adapter n) env o fault p g = r at hout ⊢
    cases hout with
    | alreadyInstalled => exact h
    | serviceThrew => exact h
    | collectorThrew => exact h
    | defaultsThrew => exact h
    | buildInfoThrew => exact h
    | wireThrew process state q place wired _ _ _ hwire =>
      have hlayered := layered_wire h o n (some place)
      rw [hwire] at hlayered
      exact hlayered
    | succeeded process state q wired _ _ _ hwire =>
      have hlayered := layered_wire h o n (Fault.wire? fault)
      rw [hwire] at hlayered
      exact hlayered
  · exact h

/-- Every event keeps the layers. -/
theorem layered_step {s : Live} (h : s.globals.Layered) (e : Event) :
    (step s e).globals.Layered := by
  cases e with
  | install env o n fault => exact layered_installNext h env o n fault s.proc
  | clearSentinel => exact ⟨h.emit, h.origEmit⟩
  | instantiate => exact h
  | request url => exact h
  | response i event method statusCode =>
    rcases hi : s.requests[i]? with _ | r
    · rw [step_response_of_none hi]
      exact h
    · rw [step_response_of_some hi]
      exact h

/-- A live patch counts a request with this URL. -/
def Counts (emit : Emit) (url : JsString) : Prop :=
  ∃ patch origEmit, emit = .patched patch origEmit ∧ pathOnly url ≠ patch.metricsPath

/-- With the layers kept, a request gets one listener where the live patch counts it, and none
elsewhere. -/
theorem length_listeners {g : Globals} (h : g.Layered) (url : JsString) :
    (g.emit.listeners url).length ≤ 1 ∧
      ((g.emit.listeners url).length = 1 ↔ Counts g.emit url) := by
  rcases h.emit with hemit | ⟨patch, hemit⟩
  · rw [hemit]
    refine ⟨Nat.zero_le 1, iff_of_false Nat.zero_ne_one ?_⟩
    rintro ⟨patch, origEmit, heq, -⟩
    cases heq
  · rw [hemit]
    unfold Emit.listeners
    split_ifs with hpath
    · refine ⟨Nat.zero_le 1, iff_of_false Nat.zero_ne_one ?_⟩
      rintro ⟨_, _, heq, hne⟩
      cases heq
      exact hne hpath
    · exact ⟨le_refl 1, iff_of_true rfl ⟨patch, .builtin, rfl, hpath⟩⟩

/-! ## Listeners and records -/

/-- How often a request was recorded. -/
def Live.recorded (s : Live) (i : ℕ) : ℕ := s.records.countP (·.1 = i)

/-- How many listeners the response of a request still has. -/
def Live.pending (s : Live) (i : ℕ) : ℕ := (s.requests[i]?.map (·.listeners.length)).getD 0

/-- Each listener counts once. -/
theorem length_finalizeAll (f : Finished) (patches : List Patch) (s : NextState) :
    (finalizeAll f patches s).1.length = patches.length := by
  induction patches generalizing s with
  | nil => rfl
  | cons patch patches ih =>
    unfold finalizeAll
    exact congrArg (· + 1) (ih _)

/-- An event of the response of a request. -/
def Event.Responds (i : ℕ) (e : Event) : Prop :=
  ∃ event method statusCode, e = .response i event method statusCode

/-- The response of a request emits events of its own only. -/
theorem responds_response {i j : ℕ} {event : ResponseEvent} {method : Option String}
    {statusCode : StatusCode} : (Event.response j event method statusCode).Responds i ↔ j = i := by
  constructor
  · rintro ⟨_, _, _, ⟨⟩⟩
    rfl
  · rintro rfl
    exact ⟨event, method, statusCode, rfl⟩

/-- The records that listeners of one request make are all of this request. -/
theorem countP_map_pair {α : Type} (l : List α) (i j : ℕ) :
    (l.map (j, ·)).countP (·.1 = i) = if j = i then l.length else 0 := by
  rw [List.countP_map]
  split_ifs with hij
  · rw [List.countP_eq_length]
    simp [hij]
  · rw [List.countP_eq_zero]
    simp [hij]

/-- What an event does to a request that arrived: its listeners turn into records one for one. An
event of its response runs all of them, and another event runs none. -/
theorem recorded_add_pending {s : Live} {i : ℕ} (hi : i < s.requests.length) (e : Event) :
    i < (step s e).requests.length ∧
      (step s e).recorded i + (step s e).pending i = s.recorded i + s.pending i ∧
      (e.Responds i ∧ (step s e).pending i = 0 ∨
        ¬ e.Responds i ∧ (step s e).pending i = s.pending i) := by
  -- Most events neither touch the requests nor record.
  have hother : ∀ e : Event, (step s e).requests = s.requests → (step s e).records = s.records →
      ¬ e.Responds i → i < (step s e).requests.length ∧
      (step s e).recorded i + (step s e).pending i = s.recorded i + s.pending i ∧
      (e.Responds i ∧ (step s e).pending i = 0 ∨
        ¬ e.Responds i ∧ (step s e).pending i = s.pending i) := by
    intro e hrequests hrecords hresponds
    unfold Live.recorded Live.pending
    rw [hrequests, hrecords]
    exact ⟨hi, rfl, Or.inr ⟨hresponds, rfl⟩⟩
  cases e with
  | install env o n fault => exact hother _ rfl rfl (by rintro ⟨_, _, _, h⟩; cases h)
  | clearSentinel => exact hother _ rfl rfl (by rintro ⟨_, _, _, h⟩; cases h)
  | instantiate => exact hother _ rfl rfl (by rintro ⟨_, _, _, h⟩; cases h)
  | request url =>
    have hpending : (step s (.request url)).pending i = s.pending i := by
      unfold Live.pending step
      rw [List.getElem?_append_left hi]
    refine ⟨?_, ?_, Or.inr ⟨?_, hpending⟩⟩
    · show i < (s.requests ++ _).length
      rw [List.length_append]
      omega
    · rw [hpending]
      rfl
    · rintro ⟨_, _, _, h⟩
      cases h
  | response j event method statusCode =>
    rcases hj : s.requests[j]? with _ | r
    · -- No such request arrived, so it is another one.
      have hstep := step_response_of_none hj event method statusCode
      refine hother _ (by rw [hstep]) (by rw [hstep]) ?_
      intro hresponds
      obtain rfl := responds_response.mp hresponds
      rw [List.getElem?_eq_getElem hi] at hj
      cases hj
    · -- All listeners of the request run, and are gone; the records of other requests stand.
      have hlen := length_finalizeAll ⟨r.url, method, statusCode⟩ r.listeners s.next
      rw [step_response_of_some hj]
      generalize finalizeAll ⟨r.url, method, statusCode⟩ r.listeners s.next = out at hlen ⊢
      unfold Live.recorded Live.pending
      dsimp only
      rw [List.length_set, List.countP_append, countP_map_pair, responds_response]
      by_cases hij : j = i
      · subst hij
        rw [if_pos rfl, hlen, hj, List.getElem?_set_self hi]
        exact ⟨hi, rfl, Or.inl ⟨rfl, rfl⟩⟩
      · rw [if_neg hij, List.getElem?_set_ne hij]
        exact ⟨hi, rfl, Or.inr ⟨hij, rfl⟩⟩

/-- What a run from the arrival of a request records for it: its listeners, if its response emits an
event. -/
theorem recorded_run {s : Live} {i : ℕ} (hi : i < s.requests.length) (hnew : s.recorded i = 0)
    (es : List Event) :
    i < (run step s es).requests.length ∧
      ((∃ e ∈ es, e.Responds i) ∧ (run step s es).recorded i = s.pending i ∧
          (run step s es).pending i = 0 ∨
        (¬ ∃ e ∈ es, e.Responds i) ∧ (run step s es).recorded i = 0 ∧
          (run step s es).pending i = s.pending i) := by
  induction es using List.reverseRecOn with
  | nil => exact ⟨hi, Or.inr ⟨by simp, hnew, rfl⟩⟩
  | append_singleton es e ih =>
    obtain ⟨hlen, hrun⟩ := ih
    rw [run_concat]
    obtain ⟨hlen', hsum, hstep⟩ := recorded_add_pending hlen e
    refine ⟨hlen', ?_⟩
    rcases hrun with ⟨⟨e', he', hresponds⟩, hrecorded, hpending⟩ | ⟨hsilent, hrecorded, hpending⟩
    · -- The listeners have run, and there is none left.
      have hzero : (step (run step s es) e).pending i = 0 := by
        rcases hstep with ⟨-, hzero⟩ | ⟨-, hsame⟩
        · exact hzero
        · rw [hsame, hpending]
      refine Or.inl ⟨⟨e', List.mem_append_left _ he', hresponds⟩, ?_, hzero⟩
      omega
    · rcases hstep with ⟨hresponds, hzero⟩ | ⟨hother, hsame⟩
      · refine Or.inl ⟨⟨e, by simp, hresponds⟩, ?_, hzero⟩
        omega
      · refine Or.inr ⟨?_, by omega, hsame.trans hpending⟩
        rintro ⟨e', he', hresponds⟩
        rcases List.mem_append.mp he' with he' | he'
        · exact hsilent ⟨e', he', hresponds⟩
        · obtain rfl := List.mem_singleton.mp he'
          exact hother hresponds

/-- Only requests that arrived are recorded, and each at most once, listeners included. -/
def Live.Bounded (s : Live) : Prop :=
  s.globals.Layered ∧ (∀ r ∈ s.records, r.1 < s.requests.length) ∧
    ∀ i, s.recorded i + s.pending i ≤ 1

/-- Only requests that arrived are recorded. -/
theorem recorded_of_le {s : Live} (h : ∀ r ∈ s.records, r.1 < s.requests.length) {i : ℕ}
    (hi : s.requests.length ≤ i) : s.recorded i = 0 ∧ s.pending i = 0 := by
  constructor
  · unfold Live.recorded
    rw [List.countP_eq_zero]
    intro r hr heq
    have hlt := h r hr
    have hi' : r.1 = i := by simpa using heq
    omega
  · unfold Live.pending
    rw [List.getElem?_eq_none hi]
    rfl

/-- A request that arrives has the listeners of the live `emit`, and no record. -/
theorem arrival {s : Live} (h : ∀ r ∈ s.records, r.1 < s.requests.length) (url : JsString) :
    let s' := step s (.request url)
    s'.requests.length = s.requests.length + 1 ∧ s'.recorded s.requests.length = 0 ∧
      s'.pending s.requests.length = (s.globals.emit.listeners url).length := by
  refine ⟨List.length_append, (recorded_of_le h (le_refl _)).1, ?_⟩
  unfold Live.pending step
  simp

/-- Only an arrival adds a request, and a record is of a request that arrived. -/
theorem records_step {s : Live} (h : ∀ r ∈ s.records, r.1 < s.requests.length) (e : Event) :
    (∀ r ∈ (step s e).records, r.1 < (step s e).requests.length) ∧
      ((∃ url, e = .request url) ∨ (step s e).requests.length = s.requests.length) := by
  cases e with
  | install env o n fault => exact ⟨h, Or.inr rfl⟩
  | clearSentinel => exact ⟨h, Or.inr rfl⟩
  | instantiate => exact ⟨h, Or.inr rfl⟩
  | request url =>
    refine ⟨?_, Or.inl ⟨url, rfl⟩⟩
    intro r hr
    have hlt := h r hr
    rw [(arrival h url).1]
    omega
  | response j event method statusCode =>
    rcases hj : s.requests[j]? with _ | r
    · rw [step_response_of_none hj]
      exact ⟨h, Or.inr rfl⟩
    · have hlt := (List.getElem?_eq_some_iff.mp hj).1
      rw [step_response_of_some hj]
      dsimp only
      rw [List.length_set]
      refine ⟨?_, Or.inr rfl⟩
      intro p hp
      rcases List.mem_append.mp hp with hp | hp
      · exact h p hp
      · obtain ⟨l, -, rfl⟩ := List.mem_map.mp hp
        exact hlt

/-- Every event keeps the bounds. -/
theorem bounded_step {s : Live} (h : s.Bounded) (e : Event) : (step s e).Bounded := by
  obtain ⟨hlayered, hrecords, hsum⟩ := h
  obtain ⟨hrecords', hlength⟩ := records_step hrecords e
  refine ⟨layered_step hlayered e, hrecords', ?_⟩
  intro i
  by_cases hi : i < s.requests.length
  · rw [(recorded_add_pending hi e).2.1]
    exact hsum i
  · by_cases hi' : i < (step s e).requests.length
    · -- The request that has just arrived.
      rcases hlength with ⟨url, rfl⟩ | hsame
      · obtain ⟨hlen, hrecorded, hpending⟩ := arrival hrecords url
        obtain rfl : i = s.requests.length := by omega
        rw [hrecorded, hpending, Nat.zero_add]
        exact (length_listeners hlayered url).1
      · omega
    · obtain ⟨hrecorded, hpending⟩ := recorded_of_le hrecords' (Nat.le_of_not_lt hi')
      rw [hrecorded, hpending]
      exact Nat.zero_le 1

/-- After every run the bounds are kept. -/
theorem bounded_run (lastIndex : ℕ → ℕ) (es : List Event) :
    (run step (.fresh lastIndex) es).Bounded := by
  refine @invariant_run _ _ _ (fun s : Live => s.Bounded) ?_ _ ?_ es
  · intro s e h
    exact bounded_step h e
  · exact ⟨⟨Or.inl rfl, Or.inl ⟨rfl, rfl⟩⟩, by simp [Live.fresh], by simp [Live.fresh,
      Live.recorded, Live.pending]⟩

/-- What every run of installs, clears, instantiations and requests keeps to. -/
structure RequestDiscipline (lastIndex : ℕ → ℕ) (es : List Event) : Prop where
  /-- The live `emit` is the built-in, or one patch directly over it. -/
  emit : (run step (.fresh lastIndex) es).globals.emit = .builtin ∨
    ∃ patch, (run step (.fresh lastIndex) es).globals.emit = .patched patch .builtin
  /-- The saved original is undefined or the built-in. -/
  origEmit : (run step (.fresh lastIndex) es).globals.origEmit = none ∨
    (run step (.fresh lastIndex) es).globals.origEmit = some .builtin
  /-- Each request is recorded at most once. -/
  atMostOnce : ∀ i, (run step (.fresh lastIndex) es).recorded i ≤ 1
  /-- A request is recorded once exactly where a patch was live when it arrived, its path was not
  the metrics path, and its response emitted an event since. -/
  once : ∀ pre url post, es = pre ++ .request url :: post →
    let s := run step (.fresh lastIndex) pre
    (run step (.fresh lastIndex) es).recorded s.requests.length = 1 ↔
      Counts s.globals.emit url ∧ ∃ e ∈ post, e.Responds s.requests.length

/-- Every run keeps to the discipline. -/
theorem request_discipline (lastIndex : ℕ → ℕ) (es : List Event) :
    RequestDiscipline lastIndex es := by
  have hbounded := bounded_run lastIndex es
  refine ⟨hbounded.1.emit, hbounded.1.origEmit.imp_left And.left, ?_, ?_⟩
  · intro i
    have hsum := hbounded.2.2 i
    omega
  · rintro pre url post rfl s
    obtain ⟨hlayered, hrecords, -⟩ := bounded_run lastIndex pre
    obtain ⟨hlen, hnew, hpending⟩ := arrival hrecords url
    have hlt : s.requests.length < (step s (.request url)).requests.length := by
      rw [hlen]
      exact Nat.lt_succ_self _
    obtain ⟨-, hrun⟩ := recorded_run hlt hnew post
    rw [run_append]
    show (run step (step s (.request url)) post).recorded _ = 1 ↔ _
    rw [← (length_listeners hlayered url).2, ← hpending]
    rcases hrun with ⟨hresponds, hrecorded, -⟩ | ⟨hsilent, hrecorded, -⟩
    · rw [hrecorded]
      exact ⟨fun h => ⟨h, hresponds⟩, fun h => h.1⟩
    · rw [hrecorded]
      exact iff_of_false Nat.zero_ne_one fun h => hsilent h.2

end SimsysMetrics.Node.Next
