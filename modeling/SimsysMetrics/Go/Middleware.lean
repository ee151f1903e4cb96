import SimsysMetrics.Http

/-!
# The Go middleware records one observation per request

`Middleware` of `go/middleware.go` hands the handler a `statusRecorder` around the server's
response writer, and records one observation when the handler returns or panics. The model runs a
handler given by its calls on the writer, in order, and by how it ends (`serveHTTP`).

The recorder keeps the code of the first `WriteHeader`, while `net/http` treats the codes 100 to
199 other than 101 as informational: they are sent at once, and a later `WriteHeader` still sets
the final status. `recordedClass_eq_iff` says exactly when the recorded class is that of the final
status: unless the handler's first call is an informational `WriteHeader`, and the final status is
not 101, whose class is also `1xx`.
-/

namespace SimsysMetrics.Go

/-- A call of a handler on its response writer. -/
inductive Call where
  /-- `WriteHeader(code)`. -/
  | writeHeader (code : ℤ)
  /-- `Write`, with any bytes. -/
  | write
deriving DecidableEq, Repr

/-- How a handler ends, with the value of its panic. -/
inductive Ending (π : Type) where
  | returns
  | panics (value : π)
deriving DecidableEq, Repr

/-- The parts of a request that the middleware reads. -/
structure Request where
  path : String
  method : String
  /-- What the extractor makes of the request; none without an extractor. -/
  template : Option String
deriving DecidableEq, Repr

/-! ## The response writer of `net/http` -/

/-- The codes that `net/http` sends as informational responses, before the final one. -/
def Informational (code : ℤ) : Prop := 100 ≤ code ∧ code ≤ 199 ∧ code ≠ 101

instance (code : ℤ) : Decidable (Informational code) :=
  inferInstanceAs (Decidable (_ ∧ _ ∧ _))

/-- The final status that a call sets, if it sets one. -/
def Call.finalStatus : Call → Option ℤ
  | .writeHeader code => if Informational code then none else some code
  | .write => some 200

/-- The final status after a call: the first one set stays. -/
def sendCall (status : Option ℤ) (c : Call) : Option ℤ :=
  match status with
  | some code => some code
  | none => c.finalStatus

/-- The status class of the response as `net/http` sends it: that of the final status; 200 if the
handler returns without one, and a server error if it panics without one. -/
def responseClass {π : Type} (calls : List Call) (ending : Ending π) : StatusClass :=
  match calls.foldl sendCall none, ending with
  | some code, _ => statusBucket code
  | none, .returns => statusBucket 200
  | none, .panics _ => .c5xx

/-! ## The recorder and the middleware -/

/-- `statusRecorder`, without the writer that it wraps. -/
structure StatusRecorder where
  status : ℤ
  written : Bool
deriving DecidableEq, Repr

/-- `statusRecorder.WriteHeader`: the first code is kept. -/
def StatusRecorder.writeHeader (sr : StatusRecorder) (code : ℤ) : StatusRecorder :=
  if sr.written then sr else { status := code, written := true }

/-- `statusRecorder.Write`. -/
def StatusRecorder.write (sr : StatusRecorder) : StatusRecorder := { sr with written := true }

/-- A call on the recorder. -/
def StatusRecorder.call (sr : StatusRecorder) : Call → StatusRecorder
  | .writeHeader code => sr.writeHeader code
  | .write => sr.write

/-- `UnmatchedRouteLabel`. -/
def unmatchedRouteLabel : String := "__unmatched__"

/-- The labels of one observation, as `recordRequest` makes them; the observed duration is left
out. -/
def recordRequest (service : String) (r : Request) (status : ℤ) : HttpLabels String where
  service := service
  method := normalizeMethod r.method
  route :=
    match r.template with
    | some tmpl => if tmpl = "" then unmatchedRouteLabel else tmpl
    | none => unmatchedRouteLabel
  status := statusBucket status

/-- What a request leaves: the observations recorded, and the panic that reaches the server. -/
structure Served (π : Type) where
  observations : List (HttpLabels String)
  panic : Option π
deriving DecidableEq, Repr

/-- The handler that `Middleware` returns, around a handler with the given calls and ending. -/
def serveHTTP {π : Type} (service metricsPath : String) (r : Request) (calls : List Call)
    (ending : Ending π) : Served π :=
  let panic := match ending with
    | .returns => none
    | .panics value => some value
  if r.path = metricsPath then
    { observations := [], panic }
  else
    let wrapped := calls.foldl StatusRecorder.call { status := 200, written := false }
    match ending with
    | .returns => { observations := [recordRequest service r wrapped.status], panic }
    | .panics _ =>
      -- The recovered panic marks a request without a written status as a server error.
      let status := if wrapped.written then wrapped.status else 500
      { observations := [recordRequest service r status], panic }

/-- The metrics path of `MiddlewareOpts`, with its default. -/
def metricsPathOf (opt : String) : String := if opt = "" then "/metrics" else opt

/-! ## The recorded class -/

/-- A recorder that has its status keeps it. -/
theorem foldl_call_of_written {sr : StatusRecorder} (h : sr.written = true) (calls : List Call) :
    calls.foldl StatusRecorder.call sr = sr := by
  have hcall : ∀ c : Call, sr.call c = sr := by
    rintro (code | _)
    · exact if_pos h
    · unfold StatusRecorder.call StatusRecorder.write
      rw [← h]
  induction calls with
  | nil => rfl
  | cons c calls ih => rw [List.foldl_cons, hcall, ih]

/-- A final status that is set stays. -/
theorem foldl_sendCall_some (calls : List Call) (code : ℤ) :
    calls.foldl sendCall (some code) = some code := by
  induction calls with
  | nil => rfl
  | cons c calls ih => exact ih

/-- The final status of a handler is that of its first call that sets one. -/
theorem foldl_sendCall_none (calls : List Call) :
    calls.foldl sendCall none = calls.findSome? Call.finalStatus := by
  induction calls with
  | nil => rfl
  | cons c calls ih =>
    -- The first call sets the status, or it changes nothing.
    rw [List.foldl_cons, List.findSome?_cons]
    cases hc : c.finalStatus with
    | none => simpa [sendCall, hc] using ih
    | some code => simpa [sendCall, hc] using foldl_sendCall_some calls code

/-- The class that the middleware records. -/
def recordedClass {π : Type} (calls : List Call) (ending : Ending π) : StatusClass :=
  match calls.head?, ending with
  | some (.writeHeader code), _ => statusBucket code
  | some .write, _ => statusBucket 200
  | none, .returns => statusBucket 200
  | none, .panics _ => statusBucket 500

/-- Outside the metrics path there is exactly one observation, of the recorded class, and the panic
is raised again. -/
theorem serveHTTP_spec {π : Type} {metricsPath : String} {r : Request} (h : r.path ≠ metricsPath)
    (service : String) (calls : List Call) (ending : Ending π) :
    ∃ labels, (serveHTTP service metricsPath r calls ending).observations = [labels] ∧
      labels.status = recordedClass calls ending ∧
      (serveHTTP service metricsPath r calls ending).panic =
        match ending with
        | .returns => none
        | .panics value => some value := by
  unfold serveHTTP
  rw [if_neg h]
  cases calls with
  | nil => cases ending <;> exact ⟨_, rfl, rfl, rfl⟩
  | cons c calls =>
    -- The first call writes the recorder's status, and no later call changes it.
    have hw : ((StatusRecorder.mk 200 false).call c).written = true := by cases c <;> rfl
    rw [List.foldl_cons, foldl_call_of_written hw]
    cases c <;> cases ending <;> exact ⟨_, rfl, rfl, rfl⟩

/-- A status of class `1xx` that is not informational is 101. -/
theorem statusBucket_eq_c1xx_iff {code : ℤ} (h : ¬Informational code) :
    statusBucket code = .c1xx ↔ code = 101 := by
  unfold Informational at h
  unfold statusBucket classOfCode
  constructor
  · intro hc
    split_ifs at hc
    omega
  · rintro rfl
    decide

/-- An informational status is of class `1xx`. -/
theorem statusBucket_of_informational {code : ℤ} (h : Informational code) :
    statusBucket code = .c1xx := by
  unfold Informational at h
  unfold statusBucket classOfCode
  rw [if_neg (by omega), if_pos (by omega)]

/-- A handler whose first call sets a status gets that status's class. -/
theorem responseClass_cons {π : Type} {c : Call} {code : ℤ} (h : c.finalStatus = some code)
    (calls : List Call) (ending : Ending π) :
    responseClass (c :: calls) ending = statusBucket code := by
  have hfold : (c :: calls).foldl sendCall none = some code := by
    rw [foldl_sendCall_none, List.findSome?_cons, h]
  unfold responseClass
  rw [hfold]

/-- No call sets an informational status. -/
theorem not_informational_of_finalStatus {c : Call} {code : ℤ} (h : c.finalStatus = some code) :
    ¬Informational code := by
  cases c with
  | write =>
    cases h
    decide
  | writeHeader code' =>
    simp only [Call.finalStatus] at h
    split_ifs at h with hinf
    cases h
    exact hinf

/-- The response's class is `1xx` exactly when the first call that sets a status is
`WriteHeader(101)`. -/
theorem responseClass_eq_c1xx_iff {π : Type} (calls : List Call) (ending : Ending π) :
    responseClass calls ending = .c1xx ↔ calls.findSome? Call.finalStatus = some 101 := by
  unfold responseClass
  rw [foldl_sendCall_none]
  cases hfind : calls.findSome? Call.finalStatus with
  | none =>
    cases ending with
    | returns => simpa using show statusBucket 200 ≠ .c1xx by decide
    | panics value => simp
  | some code =>
    -- A final status is not informational, so of the class `1xx` only 101 is left.
    obtain ⟨c, -, hc⟩ := List.exists_of_findSome?_eq_some hfind
    simpa using statusBucket_eq_c1xx_iff (not_informational_of_finalStatus hc)

/-- The handlers whose recorded class is that of the response: the first call is not an
informational `WriteHeader`, or the first call that sets a status is `WriteHeader(101)`. -/
def RecordsFinalStatus (calls : List Call) : Prop :=
  (∀ code, calls.head? = some (.writeHeader code) → ¬Informational code) ∨
    calls.findSome? Call.finalStatus = some 101

/-- The recorded class is that of the response exactly for the handlers of `RecordsFinalStatus`. -/
theorem recordedClass_eq_iff {π : Type} (calls : List Call) (ending : Ending π) :
    recordedClass calls ending = responseClass calls ending ↔ RecordsFinalStatus calls := by
  cases calls with
  | nil => cases ending <;> simp [recordedClass, responseClass, RecordsFinalStatus]; decide
  | cons c calls =>
    cases c with
    | write =>
      have hresp : responseClass (.write :: calls) ending = statusBucket 200 :=
        responseClass_cons rfl calls ending
      simp [hresp, recordedClass, RecordsFinalStatus]
    | writeHeader code =>
      by_cases hinf : Informational code
      · -- The recorder holds `1xx`, so everything turns on the class of the response.
        have hrec : recordedClass (.writeHeader code :: calls) ending = .c1xx :=
          statusBucket_of_informational hinf
        rw [hrec, eq_comm, responseClass_eq_c1xx_iff]
        simp [RecordsFinalStatus, hinf]
      · have hresp : responseClass (.writeHeader code :: calls) ending = statusBucket code :=
          responseClass_cons (by simp [Call.finalStatus, hinf]) calls ending
        simp [hresp, recordedClass, RecordsFinalStatus, hinf]

/-- What the middleware owes a request: exactly one observation, of the class of the response's
final status, and the handler's panic raised again. -/
def ObservedOnce {π : Type} (served : Served π) (calls : List Call) (ending : Ending π) : Prop :=
  (∃ labels, served.observations = [labels] ∧ labels.status = responseClass calls ending) ∧
    served.panic = match ending with
      | .returns => none
      | .panics value => some value

end SimsysMetrics.Go
