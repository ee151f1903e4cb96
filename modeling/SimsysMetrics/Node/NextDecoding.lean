import Mathlib.Data.List.Forall2
import Mathlib.Data.List.TakeWhile
import SimsysMetrics.Lib.PercentEncoding
import SimsysMetrics.Node.NextLabels

/-!
# Labels and percent-encoding

`classifySegment` decodes a segment before it classifies it, and keeps it as it is where
`decodeURIComponent` throws. In both cases a `%` that is left makes the segment `:str`. So the class
of a segment is that of its lenient decoding, or `:str` (`classifySegment_eq`). Hence `bucketRoute`
returns one label for two paths whose segments agree pair by pair: they are the same, or decode to
the same text, or one is the other with some characters percent-encoded (`bucketRoute_agree`).

An escape that a segment has is decoded once. Encoding its own `%` therefore does change the label
(`encoded_percent_changes_label`).
-/

namespace SimsysMetrics.Node.Next

open Lib (JsString js decodeURIComponent lenientDecode Encodes)

/-- What `classifySegment` does with the decoded segment. -/
def classifyText (decoded : JsString) : JsString :=
  if decoded = [] then []
  else if numericRe decoded then js ":id"
  else if uuidRe decoded then js ":uuid"
  else if decoded = js "." ∨ decoded = js ".." then decoded
  else if safeTextSegmentRe decoded then decoded
  else js ":str"

/-- A code unit that does not separate is in one of the groups. -/
theorem exists_mem_splitOn {u sep : UInt16} {s : JsString} (hu : u ∈ s) (hne : u ≠ sep) :
    ∃ g ∈ s.splitOn sep, u ∈ g := by
  induction s with
  | nil => cases hu
  | cons v s ih =>
    rw [List.splitOn_cons_eq_if_modifyHead]
    cases hgroups : s.splitOn sep with
    | nil => exact absurd hgroups (List.splitOn_ne_nil sep s)
    | cons g gs =>
      rw [hgroups] at ih
      rcases List.mem_cons.mp hu with rfl | hu
      · refine ⟨u :: g, ?_, List.mem_cons_self⟩
        simp [hne]
      · obtain ⟨g', hg', hu'⟩ := ih hu
        by_cases hv : v = sep
        · refine ⟨g', ?_, hu'⟩
          simp only [hv, beq_self_eq_true, if_true]
          exact List.mem_cons_of_mem _ hg'
        · rcases List.mem_cons.mp hg' with rfl | hg'
          · refine ⟨v :: g', ?_, List.mem_cons_of_mem _ hu'⟩
            simp [hv]
          · refine ⟨g', ?_, hu'⟩
            simp [hv, hg']

/-- A text with a `%` is classified as `:str`. -/
theorem classifyText_of_mem {s : JsString} (h : 37 ∈ s) : classifyText s = js ":str" := by
  have hnil : s ≠ [] := List.ne_nil_of_mem h
  have hnum : ¬ numericRe s := by
    intro hnum
    simp only [numericRe, Bool.and_eq_true, List.all_eq_true] at hnum
    exact absurd (hnum.2 37 h) (by decide)
  have huuid : ¬ uuidRe s := by
    intro huuid
    obtain ⟨g, hg, hmem⟩ := @exists_mem_splitOn 37 45 s h (by decide)
    simp only [uuidRe, Bool.and_eq_true, List.all_eq_true] at huuid
    exact absurd (huuid.2 g hg 37 hmem) (by decide)
  have hdot : ¬ (s = js "." ∨ s = js "..") := by
    rintro (rfl | rfl) <;> exact absurd h (by decide)
  have hsafe : ¬ safeTextSegmentRe s := by
    intro hsafe
    have hchars : ∀ u ∈ s, isLower u || u = 46 || u = 45 := by
      cases s with
      | nil => exact absurd rfl hnil
      | cons u rest =>
        simp only [safeTextSegmentRe, Bool.and_eq_true, List.all_eq_true] at hsafe
        obtain ⟨⟨hu, -⟩, hrest⟩ := hsafe
        intro v hv
        rcases List.mem_cons.mp hv with rfl | hv
        · simp [hu]
        · simpa using hrest v hv
    exact absurd (hchars 37 h) (by decide)
  unfold classifyText
  rw [if_neg hnil, if_neg hnum, if_neg huuid, if_neg hdot, if_neg hsafe]

/-- The class of a segment is that of its lenient decoding, or `:str`. -/
theorem classifySegment_eq (raw : JsString) :
    classifySegment raw = ((lenientDecode raw).map classifyText).getD (js ":str") := by
  have htext : classifySegment raw = classifyText ((decodeURIComponent raw).getD raw) := rfl
  rw [htext]
  rcases Lib.decodeURIComponent_cases raw with ⟨d, hd, hlenient⟩ | ⟨hnone, hmem, hlenient⟩
  · rw [hd, hlenient]
    rfl
  · rw [hnone, Option.getD_none, classifyText_of_mem hmem]
    cases hd : lenientDecode raw with
    | none => rfl
    | some d => exact (classifyText_of_mem (hlenient d hd)).symm

/-- Two segments are the same, or decode to the same text, or one is the other with some characters
percent-encoded. -/
def Agree (s s' : JsString) : Prop :=
  s = s' ∨ (∃ d, decodeURIComponent s = some d ∧ decodeURIComponent s' = some d) ∨ Encodes s s'

/-- Segments that agree have one class. -/
theorem Agree.classifySegment_eq {s s' : JsString} (h : Agree s s') :
    classifySegment s = classifySegment s' := by
  rcases h with rfl | ⟨d, hd, hd'⟩ | h
  · rfl
  · have htext : ∀ raw, classifySegment raw = classifyText ((decodeURIComponent raw).getD raw) :=
      fun _ => rfl
    rw [htext, htext, hd, hd']
    rfl
  · rw [Next.classifySegment_eq, Next.classifySegment_eq, h.lenientDecode_eq]

/-- The buckets of a path are made of the classes of its segments. -/
theorem bucketSegments_congr {path path' : JsString}
    (h : (segments path).map classifySegment = (segments path').map classifySegment) :
    bucketSegments path = bucketSegments path' := by
  have hlen : (segments path).length = (segments path').length := by
    simpa using congrArg List.length h
  have hclass : ∀ i, classifySegment ((segments path).getD i []) =
      classifySegment ((segments path').getD i []) := by
    intro i
    have hget := congrArg (fun l => l.getD i (classifySegment [])) h
    simpa only [List.getD_eq_getElem?_getD, List.getElem?_map, Option.getD_map] using hget
  have hparts : ∀ p : JsString, (p.splitOn 47).drop 1 = segments p := fun _ => rfl
  unfold bucketSegments
  simp only [hparts, hlen, hclass, h]

/-- Without templates, the label of a URL within the bound is the buckets of its path. -/
theorem bucketRoute_nil (lastIndex : ℕ → ℕ) {url : JsString} (hlen : url.length ≤ maxPathLength) :
    bucketRoute [] lastIndex url = (bucketSegments (pathOf url), lastIndex) := by
  have hpath : (url.takeWhile (· ≠ 63)).takeWhile (· ≠ 35) = pathOf url := rfl
  unfold bucketRoute
  rw [if_neg (by omega)]
  dsimp only
  rw [hpath]
  split_ifs with hroot
  · rcases hroot with hroot | hroot
    · rw [hroot]
      exact congrArg (·, lastIndex) (by decide)
    · rw [hroot]
      exact congrArg (·, lastIndex) (by decide)
  · rfl

/-- The path of a URL after its query and its fragment are changed. -/
theorem pathOf_append (url : JsString) {tail : JsString}
    (htail : tail = [] ∨ tail.head? = some 63 ∨ tail.head? = some 35) :
    pathOf (pathOf url ++ tail) = pathOf url := by
  have hpathOf : ∀ s, pathOf s = s.takeWhile fun u => decide (u ≠ 35 ∧ u ≠ 63) := by
    intro s
    simp only [pathOf, List.takeWhile_takeWhile, decide_eq_true_eq]
  have hinside : ∀ u ∈ pathOf url, decide (u ≠ 35 ∧ u ≠ 63) = true := by
    intro u hu
    rw [hpathOf url] at hu
    exact @List.mem_takeWhile_imp _ (fun u => decide (u ≠ 35 ∧ u ≠ 63)) _ _ hu
  have hstop : tail.takeWhile (fun u => decide (u ≠ 35 ∧ u ≠ 63)) = [] := by
    cases tail with
    | nil => rfl
    | cons u tail =>
      have hu : u = 63 ∨ u = 35 := by simpa using htail
      rcases hu with rfl | rfl <;> rfl
  rw [hpathOf (pathOf url ++ tail), List.takeWhile_append_of_pos hinside, hstop, List.append_nil]

/-- Two urls within the bound whose paths have segments that agree pair by pair have one label, and
a url keeps its label when its query and its fragment are changed. -/
theorem bucketRoute_agree (lastIndex : ℕ → ℕ) {url url' : JsString}
    (hlen : url.length ≤ maxPathLength) (hlen' : url'.length ≤ maxPathLength)
    (h : List.Forall₂ Agree (segments (pathOf url)) (segments (pathOf url'))) :
    bucketRoute [] lastIndex url = bucketRoute [] lastIndex url' ∧
      ∀ tail : JsString, (tail = [] ∨ tail.head? = some 63 ∨ tail.head? = some 35) →
        (pathOf url ++ tail).length ≤ maxPathLength →
        bucketRoute [] lastIndex (pathOf url ++ tail) = bucketRoute [] lastIndex url := by
  constructor
  · have hclass : (segments (pathOf url)).map classifySegment =
        (segments (pathOf url')).map classifySegment := by
      rw [← List.forall₂_eq_eq_eq, List.forall₂_map_left_iff, List.forall₂_map_right_iff]
      exact h.imp fun _ _ hagree => hagree.classifySegment_eq
    rw [bucketRoute_nil lastIndex hlen, bucketRoute_nil lastIndex hlen',
      bucketSegments_congr hclass]
  · intro tail htail hbound
    rw [bucketRoute_nil lastIndex hbound, bucketRoute_nil lastIndex hlen, pathOf_append url htail]

/-- A segment that decodes to the other one, and a segment with a character encoded. -/
theorem encoded_segments_same_label :
    bucketRoute [] (fun _ => 0) (js "/Aa/é?q") =
      bucketRoute [] (fun _ => 0) (js "/%41a/%c3%A9") := by
  have hsegments : segments (pathOf (js "/Aa/é?q")) = [js "Aa", js "é"] := by decide
  have hsegments' : segments (pathOf (js "/%41a/%c3%A9")) = [js "%41a", js "%c3%A9"] := by decide
  have hfirst : Agree (js "Aa") (js "%41a") :=
    Or.inr (Or.inl ⟨js "Aa", by decide +kernel, by decide +kernel⟩)
  have hescapes : Lib.Escapes (Lib.utf8 'é'.toNat) (js "%c3%A9") :=
    .cons (by decide) (by decide) (.cons (by decide) (by decide) .nil)
  have hencodes : Encodes (Lib.unitsOfCodePoint 'é'.toNat ++ []) (js "%c3%A9" ++ []) :=
    .encode (by decide) hescapes .nil
  have hsecond : Agree (js "é") (js "%c3%A9") := Or.inr (Or.inr hencodes)
  refine (bucketRoute_agree (fun _ => 0) (by decide) (by decide) ?_).1
  rw [hsegments, hsegments']
  exact .cons hfirst (.cons hsecond .nil)

/-- The `%` of an escape is percent-encoded: the label changes. -/
theorem encoded_percent_changes_label :
    Lib.Escapes (Lib.utf8 '%'.toNat) (js "%25") ∧
      segments (pathOf (js "/%61")) = [js "%" ++ js "61"] ∧
      segments (pathOf (js "/%2561")) = [js "%25" ++ js "61"] ∧
      (bucketRoute [] (fun _ => 0) (js "/%61")).1 = js "/a" ∧
      (bucketRoute [] (fun _ => 0) (js "/%2561")).1 = js "/:str" :=
  ⟨.cons (by decide) (by decide) .nil, by decide, by decide, by decide +kernel, by decide +kernel⟩

end SimsysMetrics.Node.Next
