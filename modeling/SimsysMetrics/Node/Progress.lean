import SimsysMetrics.Progress

/-!
# Progress trackers of the Node lane

`trackProgress` of `node/src/progress.ts`: the checks of its options and of its calls, and the units
of its clocks. What a tracker does with an accepted number is `Progress.Lane`. The numbers are
exact, and not-a-number and the infinities are values of their own.
-/

namespace SimsysMetrics.Node.Progress

open SimsysMetrics.Progress (Key State Setup Lane start ofNanoseconds ok_of_bind)
open Lib (Store)

variable {𝕜 : Type} [Field 𝕜] [LinearOrder 𝕜]

/-- A value that is passed where a number is expected. -/
inductive Value (𝕜 : Type) where
  | undefined
  | null
  | number (n : 𝕜)
  | nan
  | posInf
  | negInf
  | text (s : String)
deriving DecidableEq, Repr

/-- An error: its text, and the value that is printed after it, if one is. -/
structure Thrown (𝕜 : Type) where
  message : String
  got : Option (Value 𝕜)
deriving DecidableEq, Repr

/-- The check `!Number.isFinite(v) || v < 0`. -/
def checkNonneg (message : String) (v : Value 𝕜) : Except (Thrown 𝕜) 𝕜 :=
  match v with
  | .number n => if n < 0 then .error ⟨message, some v⟩ else .ok n
  | _ => .error ⟨message, some v⟩

/-- The check `!Number.isFinite(v) || v <= 0`. -/
def checkPositive (message : String) (v : Value 𝕜) : Except (Thrown 𝕜) { w : 𝕜 // 0 < w } :=
  match v with
  | .number n => if h : 0 < n then .ok ⟨n, h⟩ else .error ⟨message, some v⟩
  | _ => .error ⟨message, some v⟩

/-- `v ?? 5000`. -/
def orDefault : Value 𝕜 → Value 𝕜
  | .undefined => .number 5000
  | .null => .number 5000
  | v => v

/-- The argument of `inc`, which is 1 by default. -/
def incArg : Value 𝕜 → Value 𝕜
  | .undefined => .number 1
  | v => v

/-- A number that passes the check is that number, and not negative. -/
theorem nonneg_of_checkNonneg {message : String} {v : Value 𝕜} {n : 𝕜}
    (h : checkNonneg message v = .ok n) : 0 ≤ n := by
  unfold checkNonneg at h
  split at h
  · split_ifs at h with hneg
    obtain rfl := Except.ok.inj h
    exact not_lt.mp hneg
  · cases h

/-- What is Node's own: `process.hrtime.bigint()` reads nanoseconds. -/
def lane : Lane (Value 𝕜) ℤ 𝕜 (Thrown 𝕜) where
  seconds last now := ofNanoseconds ((now - last : ℤ) : 𝕜)
  checkInc n := checkNonneg "trackProgress.inc: n must be >= 0, got " (incArg n)
  checkTotal := checkNonneg "trackProgress.setTotal: must be >= 0, got "
  nonneg_of_checkInc := nonneg_of_checkNonneg

/-- `inc` of the handle. -/
def inc : Value 𝕜 → State 𝕜 ℤ → Except (Thrown 𝕜) Unit × State 𝕜 ℤ := lane.inc

/-- `setTotal` of the handle. -/
def setTotal : Value 𝕜 → State 𝕜 ℤ → Except (Thrown 𝕜) Unit × State 𝕜 ℤ := lane.setTotal

/-- `tick`, at a reading of `process.hrtime.bigint()` and at the seconds of `Date.now()`. -/
def tick : ℤ → 𝕜 → State 𝕜 ℤ → State 𝕜 ℤ := lane.tick

/-- `stop` of the handle. -/
def stop : ℤ → 𝕜 → State 𝕜 ℤ → State 𝕜 ℤ := lane.stop

/-- `ProgressOpts`. -/
structure ProgressOpts (𝕜 : Type) where
  operation : String
  total : Value 𝕜
  windowMs : Value 𝕜
  intervalMs : Value 𝕜
deriving DecidableEq, Repr

/-- `getService`. -/
def getService : Option String → Except (Thrown 𝕜) String
  | some service => .ok service
  | none =>
    .error ⟨"simsys-metrics: no service set. Call install(app, \x7b service, version \x7d) first.",
      none⟩

/-- `trackProgress`, with the service that is set, at a reading of the clock. The interval sets the
timer, which is left to the calls. -/
def trackProgress [IsStrictOrderedRing 𝕜] (service : Option String) (now : ℤ)
    (opts : ProgressOpts 𝕜) (samples : Store Key 𝕜) : Except (Thrown 𝕜) (State 𝕜 ℤ) := do
  if opts.operation = "" then
    throw ⟨"trackProgress: opts.operation must be a non-empty string", none⟩
  let total ← checkNonneg "trackProgress: opts.total must be a non-negative number, got " opts.total
  let windowMs ← checkPositive
    "trackProgress: opts.windowMs must be a positive finite number of milliseconds, got "
    (orDefault opts.windowMs)
  let _ ← checkPositive
    "trackProgress: opts.intervalMs must be a positive finite number of milliseconds, got "
    (orDefault opts.intervalMs)
  let service ← getService service
  return start service opts.operation total ⟨windowMs / 1000, div_pos windowMs.2 (by norm_num)⟩ now
    samples

/-- What a tracker is started with is what its options say: the window is in milliseconds, and has a
default. -/
structure SetUp (service : Option String) (now : ℤ) (opts : ProgressOpts 𝕜) (samples : Store Key 𝕜)
    (o : Setup 𝕜 ℤ) : Prop where
  service : service = some o.service
  operation : o.operation = opts.operation
  total : opts.total = .number o.total
  window : ∃ windowMs, orDefault opts.windowMs = .number windowMs ∧ (o.window : 𝕜) = windowMs / 1000
  now : o.now = now
  samples : o.samples = samples

/-- A number that passes the check is the value. -/
theorem eq_of_checkNonneg {message : String} {v : Value 𝕜} {n : 𝕜}
    (h : checkNonneg message v = .ok n) : v = .number n := by
  unfold checkNonneg at h
  split at h
  · split_ifs at h
    rw [Except.ok.inj h]
  · cases h

/-- A positive number that passes the check is the value. -/
theorem eq_of_checkPositive {message : String} {v : Value 𝕜} {w : { w : 𝕜 // 0 < w }}
    (h : checkPositive message v = .ok w) : v = .number w := by
  unfold checkPositive at h
  split at h
  · split_ifs at h
    rw [← Except.ok.inj h]
  · cases h

omit [Field 𝕜] [LinearOrder 𝕜] in
/-- The service is the one that is set. -/
theorem eq_of_getService {service : Option String} {s : String}
    (h : (getService service : Except (Thrown 𝕜) String) = .ok s) : service = some s := by
  cases service with
  | none => cases h
  | some service => rw [Except.ok.inj h]

/-- An accepted tracker is new, and set up by its options. -/
theorem new_of_trackProgress [IsStrictOrderedRing 𝕜] {service : Option String} {now : ℤ}
    {opts : ProgressOpts 𝕜} {samples : Store Key 𝕜} {s : State 𝕜 ℤ}
    (h : trackProgress service now opts samples = .ok s) :
    ∃ o, SetUp service now opts samples o ∧ Lane.New o s := by
  unfold trackProgress at h
  split_ifs at h
  · cases h
  · obtain ⟨total, htotal, h⟩ := ok_of_bind h
    obtain ⟨windowMs, hwindow, h⟩ := ok_of_bind h
    obtain ⟨intervalMs, -, h⟩ := ok_of_bind h
    obtain ⟨svc, hservice, h⟩ := ok_of_bind h
    obtain rfl := Except.ok.inj h
    refine ⟨⟨svc, opts.operation, total, _, now, samples⟩, ?_, Lane.new_start _⟩
    exact ⟨eq_of_getService hservice, rfl, eq_of_checkNonneg htotal,
      ⟨windowMs, eq_of_checkPositive hwindow, rfl⟩, rfl, rfl⟩

end SimsysMetrics.Node.Progress
