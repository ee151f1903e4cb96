import SimsysMetrics.Lib.Float64
import SimsysMetrics.Progress

/-!
# Progress trackers of the Python lane

`ProgressTracker` of `simsys_metrics/progress.py`, whose ticks run one at a time: the checks of its
options and of its calls. What a tracker does with an accepted number is `Progress.Lane`. The
numbers are exact: an integer counts with its value, if it has a float at all.
-/

namespace SimsysMetrics.Python.Progress

open SimsysMetrics.Progress (Key State Setup Lane start ok_of_bind)
open Lib (Store F64)

variable {𝕜 : Type} [Field 𝕜] [LinearOrder 𝕜]

/-- An object that is passed where a number is expected. -/
inductive Value (𝕜 : Type) where
  | int (n : ℤ)
  | float (x : 𝕜)
  | nan
  | posInf
  | negInf
  | bool (b : Bool)
  | other (text : String)
deriving DecidableEq, Repr

/-- An exception, with the value that is printed after its text, if one is. -/
inductive Raised (𝕜 : Type) where
  | valueError (message : String) (got : Value 𝕜)
  /-- `int too large to convert to float`, in `math.isfinite`. -/
  | overflowError
  | runtimeError (message : String)
deriving DecidableEq, Repr

/-- The number of an object that is an `int` or a `float` and that `math.isfinite` takes for finite;
`other` and `infinite` are the texts for those that are not. -/
def checkFinite (other infinite : String) (v : Value 𝕜) : Except (Raised 𝕜) 𝕜 :=
  match v with
  | .int n => if (F64.ofInt? n).isSome then .ok n else .error .overflowError
  | .float x => .ok x
  | .bool b => .ok (if b then 1 else 0)
  | .nan | .posInf | .negInf => .error (.valueError infinite v)
  | .other _ => .error (.valueError other v)

/-- The same, for a number that is not negative; `negative` is the text for one that is. -/
def checkNonneg (other infinite negative : String) (v : Value 𝕜) : Except (Raised 𝕜) 𝕜 := do
  let n ← checkFinite other infinite v
  if n < 0 then throw (.valueError negative v)
  return n

/-- The check of a positive finite number, with one text for all that fails. -/
def checkPositive (message : String) (v : Value 𝕜) : Except (Raised 𝕜) { w : 𝕜 // 0 < w } := do
  let n ← checkFinite message message v
  if h : 0 < n then return ⟨n, h⟩ else throw (.valueError message v)

/-- The checks of `inc` and of `set_total`: a `bool` is no number there. -/
def checkCall (other infinite negative : String) : Value 𝕜 → Except (Raised 𝕜) 𝕜
  | .bool b => .error (.valueError other (.bool b))
  | v => checkNonneg other infinite negative v

/-- A number that passes the check is not negative. -/
theorem nonneg_of_checkNonneg {other infinite negative : String} {v : Value 𝕜} {n : 𝕜}
    (h : checkNonneg other infinite negative v = .ok n) : 0 ≤ n := by
  obtain ⟨n', -, h⟩ := ok_of_bind h
  split_ifs at h with hneg
  · cases h
  · obtain rfl := Except.ok.inj h
    exact not_lt.mp hneg

/-- A number that passes the checks of a call is not negative. -/
theorem nonneg_of_checkCall {other infinite negative : String} {v : Value 𝕜} {n : 𝕜}
    (h : checkCall other infinite negative v = .ok n) : 0 ≤ n := by
  cases v with
  | bool => cases h
  | int | float | nan | posInf | negInf | other => exact nonneg_of_checkNonneg h

/-- What is Python's own: `time.monotonic()` reads seconds. -/
def lane : Lane (Value 𝕜) 𝕜 𝕜 (Raised 𝕜) where
  seconds last now := now - last
  checkInc := checkCall "ProgressTracker.inc n must be a number, got "
    "ProgressTracker.inc n must be a finite number, got "
    "ProgressTracker.inc n must be >= 0, got "
  checkTotal := checkCall "ProgressTracker.set_total must be a number, got "
    "ProgressTracker.set_total must be a finite number, got "
    "ProgressTracker.set_total must be >= 0, got "
  nonneg_of_checkInc := nonneg_of_checkCall

/-- `ProgressTracker.inc`. -/
def inc : Value 𝕜 → State 𝕜 𝕜 → Except (Raised 𝕜) Unit × State 𝕜 𝕜 := lane.inc

/-- `ProgressTracker.set_total`. -/
def setTotal : Value 𝕜 → State 𝕜 𝕜 → Except (Raised 𝕜) Unit × State 𝕜 𝕜 := lane.setTotal

/-- `ProgressTracker._tick`, at readings of `time.monotonic()` and of `time.time()`. -/
def tick : 𝕜 → 𝕜 → State 𝕜 𝕜 → State 𝕜 𝕜 := lane.tick

/-- `ProgressTracker.stop`. -/
def stop : 𝕜 → 𝕜 → State 𝕜 𝕜 → State 𝕜 𝕜 := lane.stop

/-- `ProgressOpts`. -/
structure ProgressOpts (𝕜 : Type) where
  operation : String
  total : Value 𝕜
  window : Value 𝕜
  interval : Value 𝕜
deriving DecidableEq, Repr

/-- `get_service`. -/
def getService : Option String → Except (Raised 𝕜) String
  | some service => .ok service
  | none => .error (.runtimeError ("simsys_metrics: no service set. Call install(app, " ++
      "service=..., version=...) first."))

/-- `track_progress`, with the service that is set, at a reading of the clock. An empty operation is
logged and accepted; the interval paces the thread, which is left to the calls. -/
def trackProgress (service : Option String) (now : 𝕜) (opts : ProgressOpts 𝕜)
    (samples : Store Key 𝕜) : Except (Raised 𝕜) (State 𝕜 𝕜) := do
  let total ← checkNonneg "ProgressOpts.total must be a finite number, got "
    "ProgressOpts.total must be a finite number, got " "ProgressOpts.total must be >= 0, got "
    opts.total
  let window ← checkPositive "ProgressOpts.window must be a positive finite number, got "
    opts.window
  let _ ← checkPositive "ProgressOpts.interval must be a positive finite number, got "
    opts.interval
  let service ← getService service
  return start service opts.operation total window now samples

/-- The number of an object that is one. -/
def Value.number? : Value 𝕜 → Option 𝕜
  | .int n => some n
  | .float x => some x
  | .bool b => some (if b then 1 else 0)
  | .nan | .posInf | .negInf | .other _ => none

/-- What a tracker is started with is what its options say. -/
structure SetUp (service : Option String) (now : 𝕜) (opts : ProgressOpts 𝕜) (samples : Store Key 𝕜)
    (o : Setup 𝕜 𝕜) : Prop where
  service : service = some o.service
  operation : o.operation = opts.operation
  total : opts.total.number? = some o.total
  window : opts.window.number? = some (o.window : 𝕜)
  now : o.now = now
  samples : o.samples = samples

omit [LinearOrder 𝕜] in
/-- A finite number that passes the check is the object's. -/
theorem number_of_checkFinite {other infinite : String} {v : Value 𝕜} {n : 𝕜}
    (h : checkFinite other infinite v = .ok n) : v.number? = some n := by
  cases v with
  | int k =>
    unfold checkFinite at h
    dsimp only at h
    split_ifs at h
    exact congrArg some (Except.ok.inj h)
  | float x => exact congrArg some (Except.ok.inj h)
  | bool b => exact congrArg some (Except.ok.inj h)
  | nan | posInf | negInf | other => cases h

/-- A number that passes the check is the object's. -/
theorem number_of_checkNonneg {other infinite negative : String} {v : Value 𝕜} {n : 𝕜}
    (h : checkNonneg other infinite negative v = .ok n) : v.number? = some n := by
  obtain ⟨n', hn', h⟩ := ok_of_bind h
  split_ifs at h
  · cases h
  · obtain rfl := Except.ok.inj h
    exact number_of_checkFinite hn'

/-- A positive number that passes the check is the object's. -/
theorem number_of_checkPositive {message : String} {v : Value 𝕜} {w : { w : 𝕜 // 0 < w }}
    (h : checkPositive message v = .ok w) : v.number? = some (w : 𝕜) := by
  obtain ⟨n, hn, h⟩ := ok_of_bind h
  by_cases hpos : 0 < n
  · rw [dif_pos hpos] at h
    obtain rfl := Except.ok.inj h
    exact number_of_checkFinite hn
  · rw [dif_neg hpos] at h
    cases h

omit [Field 𝕜] [LinearOrder 𝕜] in
/-- The service is the one that is set. -/
theorem eq_of_getService {service : Option String} {s : String}
    (h : (getService service : Except (Raised 𝕜) String) = .ok s) : service = some s := by
  cases service with
  | none => cases h
  | some service => rw [Except.ok.inj h]

/-- An accepted tracker is new, and set up by its options. -/
theorem new_of_trackProgress {service : Option String} {now : 𝕜} {opts : ProgressOpts 𝕜}
    {samples : Store Key 𝕜} {s : State 𝕜 𝕜} (h : trackProgress service now opts samples = .ok s) :
    ∃ o, SetUp service now opts samples o ∧ Lane.New o s := by
  obtain ⟨total, htotal, h⟩ := ok_of_bind h
  obtain ⟨window, hwindow, h⟩ := ok_of_bind h
  obtain ⟨interval, -, h⟩ := ok_of_bind h
  obtain ⟨svc, hservice, h⟩ := ok_of_bind h
  obtain rfl := Except.ok.inj h
  refine ⟨⟨svc, opts.operation, total, window, now, samples⟩, ?_, Lane.new_start _⟩
  exact ⟨eq_of_getService hservice, rfl, number_of_checkNonneg htotal,
    number_of_checkPositive hwindow, rfl, rfl⟩

end SimsysMetrics.Python.Progress
