import Mathlib.Data.Rat.Floor
import Mathlib.Tactic.Linarith
import SimsysMetrics.Contract

/-!
# Status classes and method labels in the three lanes

`status_bucket` and `normalize_method` of `simsys_metrics/_http.py`, `statusBucket` and
`normalizeMethod` of `node/src/registry.ts`, and `StatusBucket` and `NormalizeMethod` of
`go/http.go`.

The allow-list holds ASCII names only, so the upper-casing of each runtime matters only where its
result is ASCII: those mappings are listed in full, and a character with any other mapping is left
alone, since neither it nor its image is in the list.
-/

namespace SimsysMetrics

/-- The path and the method of a request, as its framework gives them. -/
structure Request where
  path : String
  method : String
deriving DecidableEq, Repr

/-- The text of a method label. -/
def Method.label : Method → String
  | .GET => "GET"
  | .HEAD => "HEAD"
  | .POST => "POST"
  | .PUT => "PUT"
  | .DELETE => "DELETE"
  | .CONNECT => "CONNECT"
  | .OPTIONS => "OPTIONS"
  | .TRACE => "TRACE"
  | .PATCH => "PATCH"
  | .OTHER => "OTHER"

/-- The allow-list: every method but `OTHER`. -/
def allowedMethods : List Method :=
  [.GET, .HEAD, .POST, .PUT, .DELETE, .CONNECT, .OPTIONS, .TRACE, .PATCH]

/-- The allowed method that a text names exactly. -/
def allowed? (method : String) : Option Method :=
  allowedMethods.find? fun m => m.label == method

/-- The ASCII upper case of a letter. -/
def asciiUpper (c : Char) : Char := if 'a' ≤ c ∧ c ≤ 'z' then Char.ofNat (c.toNat - 32) else c

/-- The single characters outside ASCII whose upper case is an ASCII letter: dotless i, long s. -/
def upperRune (c : Char) : Char :=
  if c = 'ı' then 'I' else if c = 'ſ' then 'S' else asciiUpper c

/-- Full upper-casing of a character, which also expands the ligatures that become ASCII. -/
def upperFull (c : Char) : List Char :=
  if c = 'ß' then ['S', 'S']
  else if c = 'ﬀ' then ['F', 'F']
  else if c = 'ﬁ' then ['F', 'I']
  else if c = 'ﬂ' then ['F', 'L']
  else if c = 'ﬃ' then ['F', 'F', 'I']
  else if c = 'ﬄ' then ['F', 'F', 'L']
  else if c = 'ﬅ' then ['S', 'T']
  else if c = 'ﬆ' then ['S', 'T']
  else [upperRune c]

/-- `str.upper` and `String.prototype.toUpperCase`, as far as their results can be ASCII. -/
def toUpperCase (s : String) : String := String.ofList (s.toList.flatMap upperFull)

/-- A method label, by an upper-casing. An exact match is taken before upper-casing. -/
def normalizeMethodBy (upper : String → String) (method : String) : Method :=
  match allowed? method with
  | some m => m
  | none => (allowed? (upper method)).getD .OTHER

/-- The class of an integer status code, by the comparisons of the Python and Go lanes. -/
def classOfCode (code : ℤ) : StatusClass :=
  if 200 ≤ code ∧ code < 300 then .c2xx
  else if 100 ≤ code ∧ code < 200 then .c1xx
  else if 300 ≤ code ∧ code < 400 then .c3xx
  else if 400 ≤ code ∧ code < 500 then .c4xx
  else .c5xx

namespace Python

/-- A status code as the Python lane receives it: an `int`, or another object with what `int()`
makes of it (none when it raises). -/
inductive StatusCode where
  | int (code : ℤ)
  | other (parsed : Option ℤ)
deriving DecidableEq, Repr

/-- `status_bucket` of `_http.py`. -/
def statusBucket : StatusCode → StatusClass
  | .int code => classOfCode code
  | .other (some code) => classOfCode code
  | .other none => .c5xx

/-- `normalize_method` of `_http.py`; none stands for an object that is not a `str`. -/
def normalizeMethod : Option String → Method
  | some method => normalizeMethodBy toUpperCase method
  | none => .OTHER

end Python

namespace Node

/-- A status code as the Node lane receives it: a finite number, a number that is not finite, or a
string with the finite number that it denotes, if any. -/
inductive StatusCode where
  | number (code : ℚ)
  | notFinite
  | text (parsed : Option ℚ)
deriving DecidableEq, Repr

/-- `Math.floor(code / 100) + "xx"` for a quotient in range. -/
def classOfHundreds (h : ℤ) : StatusClass :=
  match h with
  | 1 => .c1xx
  | 2 => .c2xx
  | 3 => .c3xx
  | 4 => .c4xx
  | _ => .c5xx

/-- The class of a finite number. -/
def classOfNumber (code : ℚ) : StatusClass :=
  if 100 ≤ code ∧ code < 600 then classOfHundreds ⌊code / 100⌋ else .c5xx

/-- `statusBucket` of `registry.ts`. -/
def statusBucket : StatusCode → StatusClass
  | .number code => classOfNumber code
  | .notFinite => .c5xx
  | .text (some code) => classOfNumber code
  | .text none => .c5xx

/-- `normalizeMethod` of `registry.ts`; none stands for a value that is not a string. -/
def normalizeMethod : Option String → Method
  | some method => normalizeMethodBy toUpperCase method
  | none => .OTHER

end Node

namespace Go

/-- `StatusBucket` of `http.go`. -/
def statusBucket (code : ℤ) : StatusClass := classOfCode code

/-- `strings.ToUpper`, which maps rune by rune, as far as its results can be ASCII. -/
def toUpper (s : String) : String := String.ofList (s.toList.map upperRune)

/-- `NormalizeMethod` of `http.go`, which looks up the upper-cased text only. -/
def normalizeMethod (method : String) : Method := (allowed? (toUpper method)).getD .OTHER

end Go

end SimsysMetrics
