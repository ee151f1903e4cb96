import SimsysMetrics.Lib.Trim

/-!
# The service identity and how each runtime trims it

`service` is the label that every family carries. `set_service` of `simsys_metrics/_baseline.py`
and `setService` of `node/src/baseline.ts` keep it in a process-wide variable, trimmed with
`str.strip` and `String.prototype.trim`; `Install` of `go/metrics.go` trims with
`strings.TrimSpace`. The white-space classes below are those of the three language definitions.
Each consists of single UTF-16 units outside the surrogates, so trimming the scalar values of a
text and trimming its UTF-16 units give the same text.

The two setters do the same with their own trimming, so they are one definition (`setServiceBy`)
with two members. A service that is set is trimmed (`setServiceBy_trimmed`), so setting a value
read back from the variable restores it (`setServiceBy_restore`).
-/

namespace SimsysMetrics

/-- The white space that all three runtimes trim. -/
def commonSpace (c : Char) : Bool :=
  ('\u0009' ≤ c && c ≤ '\u000d') || c == ' ' || c == '\u00a0' || c == '\u1680' ||
    ('\u2000' ≤ c && c ≤ '\u200a') || c == '\u2028' || c == '\u2029' || c == '\u202f' ||
    c == '\u205f' || c == '\u3000'

namespace Python

/-- `str.isspace` of a character: also the control separators and NEL. -/
def isSpace (c : Char) : Bool :=
  commonSpace c || ('\u001c' ≤ c && c ≤ '\u001f') || c == '\u0085'

/-- `str.strip`. -/
def strip (s : String) : String := Lib.trimString isSpace s

end Python

namespace Node

/-- `WhiteSpace` and `LineTerminator` of ECMAScript: also the byte-order mark. -/
def isSpace (c : Char) : Bool := commonSpace c || c == '\ufeff'

/-- `String.prototype.trim`. -/
def trim (s : String) : String := Lib.trimString isSpace s

end Node

namespace Go

/-- `unicode.IsSpace`: also NEL. -/
def isSpace (c : Char) : Bool := commonSpace c || c == '\u0085'

/-- `strings.TrimSpace`. -/
def trimSpace (s : String) : String := Lib.trimString isSpace s

end Go

/-- What a setter of the service logs. -/
inductive ServiceLog where
  /-- The marker `SERVICE IDENTITY CHANGE`, with both identities. -/
  | identityChange (prior next : String)
  /-- The name has leading or trailing white space; its trimming is used. -/
  | padded (service trimmed : String)
  /-- The name is empty after trimming. -/
  | empty (service : String)
deriving DecidableEq, Repr

section SetService

variable (isSpace : Char → Bool)

/-- The value that a setter gives the process-wide variable; none clears it. -/
def setServiceBy (service : Option String) : Option String :=
  service.map (Lib.trimString isSpace)

/-- What a setter logs when the variable holds `prior`; clearing it logs nothing. -/
def setServiceLogBy (prior service : Option String) : List ServiceLog :=
  match service with
  | none => []
  | some s =>
    let stripped := Lib.trimString isSpace s
    (match prior with
      | some p => if p ≠ stripped then [.identityChange p stripped] else []
      | none => []) ++
      (if stripped ≠ s then [.padded s stripped] else []) ++
      (if stripped = "" then [.empty s] else [])

/-- A value of the process-wide variable that a setter can have left: none, or a trimmed name. -/
def Trimmed (service : Option String) : Prop :=
  ∀ s, service = some s → Lib.trimString isSpace s = s

/-- A setter leaves a trimmed value. -/
theorem setServiceBy_trimmed (service : Option String) :
    Trimmed isSpace (setServiceBy isSpace service) := by
  intro s hs
  obtain ⟨s', -, rfl⟩ := Option.map_eq_some_iff.mp hs
  exact Lib.trimString_idempotent isSpace s'

/-- Setting a value read back from the variable restores it. -/
theorem setServiceBy_restore {service : Option String} (h : Trimmed isSpace service) :
    setServiceBy isSpace service = service := by
  cases service with
  | none => rfl
  | some s => exact congrArg some (h s rfl)

end SetService

namespace Python

/-- `set_service` of `_baseline.py`: the new value of `_SERVICE`. -/
def setService : Option String → Option String := setServiceBy isSpace

/-- What `set_service` logs. -/
def setServiceLog : Option String → Option String → List ServiceLog := setServiceLogBy isSpace

end Python

namespace Node

/-- `setService` of `baseline.ts`: the new value of `_state.service`. -/
def setService : Option String → Option String := setServiceBy isSpace

/-- What `setService` logs. -/
def setServiceLog : Option String → Option String → List ServiceLog := setServiceLogBy isSpace

end Node

end SimsysMetrics
