import SimsysMetrics.Http
import SimsysMetrics.Lib.CappedSet
import SimsysMetrics.Lib.JsString

/-!
# The route labels of the Next.js adapter

`bucketRoute`, `classifySegment` and `capRoute` of `node/src/adapters/next.ts`, over the code units
of a URL. A regular expression of a template is an object with the end of the match that it finds
from an index as a parameter; `RegExp.prototype.test` starts at its `lastIndex`, and updates it,
when it is global or sticky. The state that requests share is `NextState`: the last indices, and the
distinct routes that were seen.
-/

namespace SimsysMetrics.Node.Next

open Lib (JsString js decodeURIComponent)

/-- A `RegExp` object: its identity, the end of the match that it finds in a string from an index
(for a sticky one, at the index), and its flags. -/
structure RegExp where
  id : ℕ
  search : JsString → ℕ → Option ℕ
  global : Bool
  sticky : Bool

/-- A `RouteTemplate`. -/
structure RouteTemplate where
  pattern : RegExp
  template : JsString

/-- `RegExp.prototype.test`: the result, and the last indices of the objects afterwards. -/
def RegExp.test (r : RegExp) (lastIndex : ℕ → ℕ) (s : JsString) : Bool × (ℕ → ℕ) :=
  if r.global || r.sticky then
    if s.length < lastIndex r.id then (false, Function.update lastIndex r.id 0)
    else
      match r.search s (lastIndex r.id) with
      | some e => (true, Function.update lastIndex r.id e)
      | none => (false, Function.update lastIndex r.id 0)
  else ((r.search s 0).isSome, lastIndex)

/-- `MAX_PATH_LENGTH`. -/
def maxPathLength : ℕ := 8192

/-- `UNMATCHED_ROUTE`. -/
def unmatchedRoute : JsString := js "/__unmatched__"

/-- `OVERFLOW_ROUTE`. -/
def overflowRoute : JsString := js "/__overflow__"

/-- An ASCII digit. -/
def isDigit (u : UInt16) : Bool := 48 ≤ u && u ≤ 57

/-- A lowercase ASCII letter. -/
def isLower (u : UInt16) : Bool := 97 ≤ u && u ≤ 122

/-- A hexadecimal digit of either case. -/
def isHex (u : UInt16) : Bool := isDigit u || (97 ≤ u && u ≤ 102) || (65 ≤ u && u ≤ 70)

/-- `NUMERIC_RE`. -/
def numericRe (s : JsString) : Bool := s ≠ [] && s.all isDigit

/-- The shape of a UUID: five groups of hexadecimal digits. -/
def uuidGroups : List ℕ := [8, 4, 4, 4, 12]

/-- `UUID_RE`. -/
def uuidRe (s : JsString) : Bool :=
  (s.splitOn 45).map List.length = uuidGroups && (s.splitOn 45).all (·.all isHex)

/-- `SAFE_TEXT_SEGMENT_RE`. -/
def safeTextSegmentRe (s : JsString) : Bool :=
  match s with
  | [] => false
  | u :: rest => isLower u && rest.length ≤ 31 && rest.all fun v => isLower v || v = 46 || v = 45

/-- `classifySegment`. -/
def classifySegment (raw : JsString) : JsString :=
  let decoded := (decodeURIComponent raw).getD raw
  if decoded = [] then []
  else if numericRe decoded then js ":id"
  else if uuidRe decoded then js ":uuid"
  else if decoded = js "." ∨ decoded = js ".." then decoded
  else if safeTextSegmentRe decoded then decoded
  else js ":str"

/-- The loop of `bucketRoute` over the templates: the first whose pattern matches. -/
def matchTemplates (templates : List RouteTemplate) (lastIndex : ℕ → ℕ) (path : JsString) :
    Option JsString × (ℕ → ℕ) :=
  match templates with
  | [] => (none, lastIndex)
  | t :: templates =>
    match t.pattern.test lastIndex path with
    | (true, lastIndex) => (some t.template, lastIndex)
    | (false, lastIndex) => matchTemplates templates lastIndex path

/-- The default buckets of `bucketRoute`, for a path that no template matches. -/
def bucketSegments (path : JsString) : JsString :=
  let parts := (path.splitOn 47).drop 1
  if 5 < parts.length then
    js "/" ++ classifySegment (parts.getD 0 []) ++ js "/" ++ classifySegment (parts.getD 1 []) ++
      js "/__deep__"
  else js "/" ++ [(47 : UInt16)].intercalate (parts.map classifySegment)

/-- `bucketRoute`: the label, and the last indices afterwards. -/
def bucketRoute (templates : List RouteTemplate) (lastIndex : ℕ → ℕ) (url : JsString) :
    JsString × (ℕ → ℕ) :=
  if maxPathLength < url.length then (js "/__toolong__", lastIndex)
  else
    -- The query starts at the first `?`, the fragment at the first `#` before it.
    let path := (url.takeWhile (· ≠ 63)).takeWhile (· ≠ 35)
    if path = [] ∨ path = js "/" then (js "/", lastIndex)
    else
      match matchTemplates templates lastIndex path with
      | (some template, lastIndex) => (template, lastIndex)
      | (none, lastIndex) => (bucketSegments path, lastIndex)

/-- The state that the finished requests of a process share: the last index of each regular
expression, and `globalThis.__simsysNextSeenRoutes`. -/
structure NextState where
  lastIndex : ℕ → ℕ
  seen : List JsString

/-- The state with an empty set of routes. -/
def NextState.fresh (lastIndex : ℕ → ℕ) : NextState := ⟨lastIndex, []⟩

/-- `capRoute`. -/
def capRoute (route : JsString) (maxRoutes : ℕ) (seen : List JsString) : JsString × List JsString :=
  Lib.capped maxRoutes overflowRoute seen route

end SimsysMetrics.Node.Next
