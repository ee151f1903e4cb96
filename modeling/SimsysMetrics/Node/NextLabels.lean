import Mathlib.Algebra.Order.BigOperators.Group.List
import SimsysMetrics.Node.NextRoutes

/-!
# The labels that `bucketRoute` returns

Without templates, the label of a URL is one of three kinds: `/__toolong__` for a URL over the
bound, two segments and `__deep__` for a path of more than five, and else at most five segments,
each one `Ordinary` (`bucketRoute_grammar`). No ordinary segment has a slash or an underscore, so
the kinds do not overlap, and a label has the segments that it was made of (`segments_label`). All
this holds whatever `decodeURIComponent` returns, so the functions here take it as a parameter.
-/

namespace SimsysMetrics.Node.Next

open Lib (JsString js decodeURIComponent)

section Decode

variable (decode : JsString → Option JsString)

/-- `classifySegment` over a decoder. -/
def classifyBy (raw : JsString) : JsString :=
  let decoded := (decode raw).getD raw
  if decoded = [] then []
  else if numericRe decoded then js ":id"
  else if uuidRe decoded then js ":uuid"
  else if decoded = js "." ∨ decoded = js ".." then decoded
  else if safeTextSegmentRe decoded then decoded
  else js ":str"

/-- The path of a URL: what precedes the first `?` or `#`. -/
def pathOf (url : JsString) : JsString := (url.takeWhile (· ≠ 63)).takeWhile (· ≠ 35)

/-- The segments of a path or a label: what follows each of its slashes. -/
def segments (path : JsString) : List JsString := (path.splitOn 47).drop 1

/-- `bucketSegments` over a decoder. -/
def bucketSegmentsBy (path : JsString) : JsString :=
  let parts := segments path
  if 5 < parts.length then
    js "/" ++ classifyBy decode (parts.getD 0 []) ++ js "/" ++
      classifyBy decode (parts.getD 1 []) ++ js "/__deep__"
  else js "/" ++ [(47 : UInt16)].intercalate (parts.map (classifyBy decode))

/-- `bucketRoute` without templates, over a decoder. -/
def bucketRouteBy (url : JsString) : JsString :=
  if maxPathLength < url.length then js "/__toolong__"
  else if pathOf url = [] ∨ pathOf url = js "/" then js "/"
  else bucketSegmentsBy decode (pathOf url)

end Decode

/-- Without templates `bucketRoute` is `bucketRouteBy` over `decodeURIComponent`. -/
theorem bucketRoute_eq_bucketRouteBy (lastIndex : ℕ → ℕ) (url : JsString) :
    bucketRoute [] lastIndex url = (bucketRouteBy decodeURIComponent url, lastIndex) := by
  have hpath : pathOf url = (url.takeWhile (· ≠ 63)).takeWhile (· ≠ 35) := rfl
  have hsegments : bucketSegments (pathOf url) = bucketSegmentsBy decodeURIComponent (pathOf url) :=
    rfl
  unfold bucketRoute bucketRouteBy
  dsimp only
  rw [← hpath, ← hsegments]
  split_ifs <;> rfl

/-- The segments that `classifySegment` returns. -/
def Ordinary (s : JsString) : Prop :=
  s = [] ∨ s = js "." ∨ s = js ".." ∨ s = js ":id" ∨ s = js ":uuid" ∨ s = js ":str" ∨
    safeTextSegmentRe s

instance (s : JsString) : Decidable (Ordinary s) := by
  unfold Ordinary
  infer_instance

/-- A segment is classified as an ordinary one. -/
theorem ordinary_classifyBy (decode : JsString → Option JsString) (raw : JsString) :
    Ordinary (classifyBy decode raw) := by
  unfold classifyBy Ordinary
  dsimp only
  split_ifs with hnil hnum huuid hdot hsafe
  · simp
  · simp
  · simp
  · rcases hdot with hdot | hdot <;> simp [hdot]
  · simp [hsafe]
  · simp

/-- A safe text has no slash, and at most 32 code units. -/
theorem safe_bounds {s : JsString} (h : safeTextSegmentRe s) : 47 ∉ s ∧ s.length ≤ 32 := by
  cases s with
  | nil => cases h
  | cons u rest =>
    simp only [safeTextSegmentRe, Bool.and_eq_true, decide_eq_true_eq, List.all_eq_true] at h
    obtain ⟨⟨hu, hlen⟩, hrest⟩ := h
    constructor
    · intro hmem
      rcases List.mem_cons.mp hmem with rfl | hmem
      · exact absurd hu (by decide)
      · exact absurd (hrest 47 hmem) (by decide)
    · rw [List.length_cons]
      omega

/-- An ordinary segment has no slash, and at most 32 code units. -/
theorem Ordinary.bounds {s : JsString} (h : Ordinary s) : 47 ∉ s ∧ s.length ≤ 32 := by
  rcases h with rfl | rfl | rfl | rfl | rfl | rfl | h
  iterate 6 decide
  exact safe_bounds h

/-- The label of some segments: each one after a slash. -/
def label (segs : List JsString) : JsString := [(47 : UInt16)].intercalate ([] :: segs)

/-- A label has the segments that it was made of. -/
theorem segments_label {segs : List JsString} (h : ∀ s ∈ segs, 47 ∉ s) :
    segments (label segs) = segs := by
  have hall : ∀ s ∈ [] :: segs, (47 : UInt16) ∉ s := by
    intro s hs
    rcases List.mem_cons.mp hs with rfl | hs
    · exact List.not_mem_nil
    · exact h s hs
  rw [segments, label, List.splitOn_intercalate 47 hall (by simp)]
  rfl

/-- A label has a slash and the code units of each of its segments. -/
theorem length_label (segs : List JsString) :
    (label segs).length = (segs.map fun s => s.length + 1).sum := by
  unfold label
  induction segs with
  | nil => rfl
  | cons s segs ih =>
    rw [List.intercalate_cons_cons]
    cases segs with
    | nil => simp
    | cons t segs =>
      rw [List.intercalate_cons_cons] at ih ⊢
      simp only [List.nil_append, List.length_append, List.length_singleton] at ih ⊢
      rw [List.map_cons, List.sum_cons, ← ih]
      omega

/-- The segments of the label of a path, from the number of its own segments: two ordinary ones and
`__deep__`, or up to five ordinary ones. -/
inductive Buckets (depth : ℕ) : List JsString → Prop where
  | deep {a b : JsString} (hdepth : 5 < depth) (ha : Ordinary a) (hb : Ordinary b) :
      Buckets depth [a, b, js "__deep__"]
  | each {segs : List JsString} (hdepth : depth ≤ 5) (hne : segs ≠ []) (hlen : segs.length ≤ 5)
      (hsegs : ∀ s ∈ segs, Ordinary s) : Buckets depth segs

namespace Buckets

variable {depth : ℕ} {segs : List JsString}

/-- No segment of a label has a slash, and none is long. -/
theorem bounds (h : Buckets depth segs) :
    (∀ s ∈ segs, 47 ∉ s ∧ s.length ≤ 32) ∧ segs ≠ [] ∧ segs.length ≤ 5 := by
  cases h with
  | deep hdepth ha hb =>
    refine ⟨?_, by simp, by simp⟩
    intro s hs
    simp only [List.mem_cons, List.not_mem_nil, or_false] at hs
    rcases hs with rfl | rfl | rfl
    · exact ha.bounds
    · exact hb.bounds
    · decide
  | each hdepth hne hlen hsegs => exact ⟨fun s hs => (hsegs s hs).bounds, hne, hlen⟩

/-- The last segment is `__deep__` exactly for the deep paths. -/
theorem getLast_iff (h : Buckets depth segs) :
    segs.getLast? = some (js "__deep__") ↔ 5 < depth := by
  cases h with
  | deep hdepth ha hb => exact iff_of_true rfl hdepth
  | each hdepth hne hlen hsegs =>
    refine iff_of_false ?_ (by omega)
    intro hlast
    exact absurd (hsegs _ (List.mem_of_getLast? hlast)) (by decide)

/-- A label with a single segment has an ordinary one. -/
theorem ordinary_of_singleton {s : JsString} (h : Buckets depth [s]) : Ordinary s := by
  cases h with
  | each hdepth hne hlen hsegs => exact hsegs s List.mem_cons_self

/-- A label with a segment that is not ordinary is no label of a path. -/
theorem label_ne (h : Buckets depth segs) {s : JsString} (hslash : 47 ∉ s) (hs : ¬ Ordinary s) :
    label segs ≠ label [s] := by
  intro heq
  have hsegs := congrArg segments heq
  rw [segments_label fun t ht => (h.bounds.1 t ht).1,
    segments_label (by simpa using hslash)] at hsegs
  subst hsegs
  exact hs h.ordinary_of_singleton

/-- Five slashes with 32 code units each bound a label. -/
theorem length_label_le (h : Buckets depth segs) : (label segs).length ≤ 165 := by
  obtain ⟨hbounds, -, hlen⟩ := h.bounds
  have hsum :
      (segs.map fun s => s.length + 1).sum ≤ (segs.map fun s => s.length + 1).length * 33 := by
    refine List.sum_le_card_nsmul _ 33 ?_
    intro n hn
    obtain ⟨s, hs, rfl⟩ := List.mem_map.mp hn
    have := (hbounds s hs).2
    omega
  rw [List.length_map] at hsum
  rw [length_label]
  omega

end Buckets

/-- What `bucketSegments` returns, and `/` for an empty path. -/
theorem exists_buckets (decode : JsString → Option JsString) (url : JsString) :
    ∃ segs, (if pathOf url = [] ∨ pathOf url = js "/" then js "/"
      else bucketSegmentsBy decode (pathOf url)) = label segs ∧
      Buckets (segments (pathOf url)).length segs := by
  have hroot : js "/" = label [[]] := by decide
  have hslash : js "/" = [47] := by decide
  have hordinary : Ordinary [] := by decide
  generalize pathOf url = path
  split_ifs with hpath
  · -- The root has one empty segment.
    refine ⟨[[]], hroot, .each ?_ (by simp) (by simp) (by simpa using hordinary)⟩
    rcases hpath with rfl | rfl <;> decide
  · unfold bucketSegmentsBy
    dsimp only
    split_ifs with hdepth
    · -- Beyond five segments: the first two, and the sentinel for the others.
      refine ⟨_, ?_, .deep hdepth (ordinary_classifyBy decode ((segments path).getD 0 []))
        (ordinary_classifyBy decode ((segments path).getD 1 []))⟩
      generalize classifyBy decode ((segments path).getD 0 []) = a
      generalize classifyBy decode ((segments path).getD 1 []) = b
      have hdeep : js "/__deep__" = [47] ++ js "__deep__" := by decide
      rw [hdeep, hslash]
      simp only [label, List.intercalate_cons_cons, List.intercalate_singleton, List.append_assoc,
        List.nil_append]
    · cases hparts : segments path with
      | nil =>
        -- A path of slashes only, which has no segment.
        exact ⟨[[]], hroot, .each (by simp) (by simp) (by simp) (by simpa using hordinary)⟩
      | cons part parts =>
        rw [hparts] at hdepth
        refine ⟨(part :: parts).map (classifyBy decode), ?_, .each (by omega) (by simp) ?_ ?_⟩
        · rw [hslash, label, List.map_cons, List.intercalate_cons_cons, List.nil_append]
        · rw [List.length_map]
          omega
        · intro s hs
          obtain ⟨raw, -, rfl⟩ := List.mem_map.mp hs
          exact ordinary_classifyBy decode raw

/-- Without templates and whatever `decodeURIComponent` returns: the label is `/__toolong__` exactly
for a URL over the bound. Else it has the segments that `Buckets` says, of which the last is
`__deep__` exactly where the path has more than five. It is never one of the other two sentinels,
and has at most 165 code units. -/
theorem bucketRoute_grammar (url : JsString) :
    (∀ lastIndex,
      bucketRoute [] lastIndex url = (bucketRouteBy decodeURIComponent url, lastIndex)) ∧
    ∀ decode : JsString → Option JsString,
      (bucketRouteBy decode url = js "/__toolong__" ↔ maxPathLength < url.length) ∧
      (url.length ≤ maxPathLength →
        ((segments (bucketRouteBy decode url)).getLast? = some (js "__deep__") ↔
          5 < (segments (pathOf url)).length) ∧
        bucketRouteBy decode url = label (segments (bucketRouteBy decode url)) ∧
        Buckets (segments (pathOf url)).length (segments (bucketRouteBy decode url))) ∧
      bucketRouteBy decode url ≠ unmatchedRoute ∧ bucketRouteBy decode url ≠ overflowRoute ∧
      (bucketRouteBy decode url).length ≤ 165 := by
  refine ⟨fun lastIndex => bucketRoute_eq_bucketRouteBy lastIndex url, ?_⟩
  intro decode
  have hlong : js "/__toolong__" = label [js "__toolong__"] := by decide
  by_cases hlen : maxPathLength < url.length
  · have hroute : bucketRouteBy decode url = js "/__toolong__" := if_pos hlen
    rw [hroute]
    exact ⟨iff_of_true rfl hlen, fun hle => absurd hlen (by omega), by decide, by decide, by decide⟩
  · obtain ⟨segs, hlabel, hbuckets⟩ := exists_buckets decode url
    have hroute : bucketRouteBy decode url = label segs := (if_neg hlen).trans hlabel
    have hsegs : segments (label segs) = segs :=
      segments_label fun s hs => (hbuckets.bounds.1 s hs).1
    have hunmatched : unmatchedRoute = label [js "__unmatched__"] := by decide
    have hoverflow : overflowRoute = label [js "__overflow__"] := by decide
    rw [hroute, hsegs, hlong, hunmatched, hoverflow]
    refine ⟨iff_of_false ?_ hlen, fun _ => ⟨hbuckets.getLast_iff, rfl, hbuckets⟩, ?_, ?_, ?_⟩
    · exact hbuckets.label_ne (by decide) (by decide)
    · exact hbuckets.label_ne (by decide) (by decide)
    · exact hbuckets.label_ne (by decide) (by decide)
    · exact hbuckets.length_label_le

end SimsysMetrics.Node.Next
