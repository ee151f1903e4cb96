import SimsysMetrics.Http

/-!
# Method labels across the lanes

`normalize_method`, `normalizeMethod` and `NormalizeMethod` look up an upper-cased method. Python
and Node upper-case with the full mapping, which makes two letters of a ligature, and take a method
that is in the list already before they do so; Go maps rune by rune.

The early return changes nothing (`normalizeMethodBy_eq`). The mappings differ on the ligatures
only, and of these one matters: the two that become `ST`. So the lanes agree on every text but the
eight spellings of `POST` with one of these (`method_lanes_agree_iff`).
-/

namespace SimsysMetrics

/-- The characters that full upper-casing expands into ASCII letters. -/
def expanding : List Char := ['ß', 'ﬀ', 'ﬁ', 'ﬂ', 'ﬃ', 'ﬄ', 'ﬅ', 'ﬆ']

/-- The ligatures that become `ST`. -/
def stLigatures : List Char := ['ﬅ', 'ﬆ']

/-- The spellings of `POST` with a ligature. -/
def ligaturePosts : List String :=
  ['p', 'P'].flatMap fun p => ['o', 'O'].flatMap fun o =>
    stLigatures.map fun st => String.ofList [p, o, st]

/-- A text is in the allow-list exactly when it is the label of an allowed method. -/
theorem allowed?_eq_some_iff {method : String} {m : Method} :
    allowed? method = some m ↔ m ≠ .OTHER ∧ method = m.label := by
  constructor
  · intro h
    have hmem : m ∈ allowedMethods := List.mem_of_find?_eq_some h
    have hlabel : (m.label == method) = true :=
      List.find?_some (p := fun m : Method => m.label == method) h
    refine ⟨?_, (eq_of_beq hlabel).symm⟩
    rintro rfl
    exact absurd hmem (by decide)
  · rintro ⟨hm, rfl⟩
    cases m with
    | OTHER => exact absurd rfl hm
    | _ => rfl

/-- An allowed label is upper case. -/
theorem toUpperCase_label {m : Method} : toUpperCase m.label = m.label := by
  cases m <;> decide +kernel

/-- The early return of Python and Node changes nothing. -/
theorem normalizeMethodBy_eq (method : String) :
    normalizeMethodBy toUpperCase method = (allowed? (toUpperCase method)).getD .OTHER := by
  unfold normalizeMethodBy
  cases hexact : allowed? method with
  | none => rfl
  | some m =>
    obtain ⟨-, rfl⟩ := allowed?_eq_some_iff.mp hexact
    rw [toUpperCase_label, hexact]
    rfl

/-- A character that does not expand is mapped like a rune. -/
theorem upperFull_of_notMem {c : Char} (h : c ∉ expanding) : upperFull c = [upperRune c] := by
  simp only [expanding, List.mem_cons, List.not_mem_nil, or_false, not_or] at h
  obtain ⟨h1, h2, h3, h4, h5, h6, h7, h8⟩ := h
  rw [upperFull, if_neg h1, if_neg h2, if_neg h3, if_neg h4, if_neg h5, if_neg h6, if_neg h7,
    if_neg h8]

/-- No mapping deletes a character. -/
theorem upperFull_ne_nil (c : Char) : upperFull c ≠ [] := by
  by_cases h : c ∈ expanding
  · have hcons : expanding.Forall (upperFull · ≠ []) := by decide
    exact List.forall_iff_forall_mem.mp hcons c h
  · rw [upperFull_of_notMem h]
    exact List.cons_ne_nil _ _

/-- The letters that become an upper-case one, other than `I` and `S`, in a rune-wise mapping. -/
theorem of_upperRune {c u : Char} (hupper : upperRune c = u) (hI : u ≠ 'I') (hS : u ≠ 'S') :
    c = u ∨ c.toNat = u.toNat + 32 := by
  unfold upperRune at hupper
  by_cases hi : c = 'ı'
  · rw [if_pos hi] at hupper
    exact absurd hupper.symm hI
  · by_cases hs : c = 'ſ'
    · rw [if_neg hi, if_pos hs] at hupper
      exact absurd hupper.symm hS
    · rw [if_neg hi, if_neg hs, asciiUpper] at hupper
      by_cases hlower : 'a' ≤ c ∧ c ≤ 'z'
      · rw [if_pos hlower] at hupper
        obtain ⟨hlow, hhigh⟩ := hlower
        have hlow' : 97 ≤ c.toNat := hlow
        have hhigh' : c.toNat ≤ 122 := hhigh
        have hletters : ∀ n < 123, 97 ≤ n → (Char.ofNat (n - 32)).toNat = n - 32 := by decide
        have hnat : u.toNat = c.toNat - 32 := by
          rw [← hupper]
          exact hletters c.toNat (by omega) hlow'
        exact .inr (by omega)
      · rw [if_neg hlower] at hupper
        exact .inl hupper

/-- A mapping that starts with another letter than `S` or `F` is that of a rune. -/
theorem upperFull_cons {c u : Char} {rest : List Char} (h : upperFull c = u :: rest)
    (hS : u ≠ 'S') (hF : u ≠ 'F') (hI : u ≠ 'I') :
    rest = [] ∧ (c = u ∨ c.toNat = u.toNat + 32) := by
  have hheads : expanding.Forall fun c =>
      (upperFull c).head? = some 'S' ∨ (upperFull c).head? = some 'F' := by decide
  have hnot : c ∉ expanding := by
    intro hc
    have hhead := List.forall_iff_forall_mem.mp hheads c hc
    rw [h, List.head?_cons] at hhead
    exact hhead.elim (fun heq => hS (Option.some.inj heq)) fun heq => hF (Option.some.inj heq)
  rw [upperFull_of_notMem hnot] at h
  obtain ⟨hupper, rfl⟩ := List.cons.inj h
  exact ⟨rfl, of_upperRune hupper hI hS⟩

/-- The only expansion that is a part of an allowed label is `ST`, of `POST`. -/
theorem label_of_expanding {m : Method} {c : Char} {before after : List Char} (hm : m ≠ .OTHER)
    (hc : c ∈ expanding) (h : before ++ (upperFull c ++ after) = m.label.toList) :
    c ∈ stLigatures ∧ before = ['P', 'O'] ∧ after = [] := by
  have hparts : allowedMethods.Forall fun m => expanding.Forall fun c =>
      upperFull c <:+: m.label.toList → m = .POST ∧ c ∈ stLigatures := by decide +kernel
  have hmem : m ∈ allowedMethods := List.mem_of_find?_eq_some (allowed?_eq_some_iff.mpr ⟨hm, rfl⟩)
  have hpart := List.forall_iff_forall_mem.mp (List.forall_iff_forall_mem.mp hparts m hmem) c hc
  obtain ⟨rfl, hst⟩ := hpart ⟨before, after, by rw [List.append_assoc, h]⟩
  have hupper : stLigatures.Forall (upperFull · = ['S', 'T']) := by decide
  have hpost : Method.POST.label.toList = ['P', 'O', 'S', 'T'] := by decide +kernel
  rw [List.forall_iff_forall_mem.mp hupper c hst, hpost] at h
  refine ⟨hst, ?_⟩
  -- The prefix has as many letters as stand before `ST`.
  match before with
  | [] => simp at h
  | [_] => simp at h
  | [p, o] => simpa [and_assoc] using h
  | [_, _, _] => simp at h
  | [_, _, _, _] => simp at h
  | _ :: _ :: _ :: _ :: _ :: _ => simp at h

/-- A text whose upper-casing starts with another letter than `S`, `F` or `I` starts with a spelling
of that letter. -/
theorem exists_of_flatMap {l rest : List Char} {u : Char} (h : l.flatMap upperFull = u :: rest)
    (hS : u ≠ 'S') (hF : u ≠ 'F') (hI : u ≠ 'I') :
    ∃ c tail, l = c :: tail ∧ (c = u ∨ c.toNat = u.toNat + 32) ∧
      tail.flatMap upperFull = rest := by
  cases l with
  | nil => cases h
  | cons c tail =>
    rw [List.flatMap_cons] at h
    cases hc : upperFull c with
    | nil => exact absurd hc (upperFull_ne_nil c)
    | cons v more =>
      rw [hc, List.cons_append] at h
      obtain ⟨hv, htail⟩ := List.cons.inj h
      subst hv
      obtain ⟨rfl, hletter⟩ := upperFull_cons hc hS hF hI
      exact ⟨c, tail, rfl, hletter, htail⟩

/-- A text whose upper-casing is empty is empty. -/
theorem eq_nil_of_flatMap {l : List Char} (h : l.flatMap upperFull = []) : l = [] := by
  cases l with
  | nil => rfl
  | cons c l =>
    rw [List.flatMap_cons] at h
    exact absurd (List.append_eq_nil_iff.mp h).1 (upperFull_ne_nil c)

/-- The texts whose upper-casing is `PO`. -/
theorem eq_of_flatMap_po {l : List Char} (h : l.flatMap upperFull = ['P', 'O']) :
    ∃ p ∈ ['p', 'P'], ∃ o ∈ ['o', 'O'], l = [p, o] := by
  have hletter : ∀ {c u low : Char}, c = u ∨ c.toNat = u.toNat + 32 →
      low.toNat = u.toNat + 32 → c ∈ [low, u] := by
    rintro c u low (rfl | hc) hlow
    · exact List.mem_cons_of_mem _ List.mem_cons_self
    · have heq : c = low := Char.toNat_inj.mp (hc.trans hlow.symm)
      rw [heq]
      exact List.mem_cons_self
  obtain ⟨p, tail, rfl, hp, htail⟩ := exists_of_flatMap h (by decide) (by decide) (by decide)
  obtain ⟨o, none, rfl, ho, hnone⟩ := exists_of_flatMap htail (by decide) (by decide) (by decide)
  obtain rfl := eq_nil_of_flatMap hnone
  exact ⟨p, hletter hp rfl, o, hletter ho rfl, rfl⟩

/-- Where no character expands, the two mappings agree. -/
theorem flatMap_upperFull {l : List Char} (h : ∀ c ∈ l, c ∉ expanding) :
    l.flatMap upperFull = l.map upperRune := by
  induction l with
  | nil => rfl
  | cons c l ih =>
    rw [List.flatMap_cons, upperFull_of_notMem (h c List.mem_cons_self),
      ih fun c' hc' => h c' (List.mem_cons_of_mem _ hc'), List.map_cons]
    rfl

/-- Where no character expands, Go and Python agree. -/
theorem agree_of_notMem {method : String} (h : ∀ c ∈ method.toList, c ∉ expanding) :
    Go.normalizeMethod method = Python.normalizeMethod (some method) := by
  have hupper : Go.toUpper method = toUpperCase method := by
    rw [Go.toUpper, toUpperCase, flatMap_upperFull h]
  rw [Go.normalizeMethod, Python.normalizeMethod, normalizeMethodBy_eq, hupper]

/-- A rune-wise mapping leaves a ligature, so Go finds no method with one. -/
theorem go_of_expanding {method : String} {c : Char} (hmem : c ∈ method.toList)
    (hc : c ∈ expanding) : Go.normalizeMethod method = .OTHER := by
  have hrune : expanding.Forall fun c => upperRune c = c := by decide
  have hlabels : allowedMethods.Forall fun m => expanding.Forall (· ∉ m.label.toList) := by
    decide +kernel
  unfold Go.normalizeMethod
  cases hfound : allowed? (Go.toUpper method) with
  | none => rfl
  | some m =>
    obtain ⟨hm, hlabel⟩ := allowed?_eq_some_iff.mp hfound
    have hlisted : m ∈ allowedMethods := List.mem_of_find?_eq_some hfound
    have himage : c ∈ (Go.toUpper method).toList := by
      rw [Go.toUpper, String.toList_ofList]
      exact List.mem_map.mpr ⟨c, hmem, List.forall_iff_forall_mem.mp hrune c hc⟩
    rw [hlabel] at himage
    have hlabel := List.forall_iff_forall_mem.mp hlabels m hlisted
    exact absurd himage (List.forall_iff_forall_mem.mp hlabel c hc)

/-- The three lanes give a text the same label, but for the spellings of `POST` with a ligature,
which Python and Node take for `POST` and Go for none of the list. -/
theorem method_lanes_agree_iff (method : String) :
    Node.normalizeMethod (some method) = Python.normalizeMethod (some method) ∧
      (Go.normalizeMethod method = Python.normalizeMethod (some method) ↔
        method ∉ ligaturePosts) := by
  refine ⟨rfl, ?_⟩
  constructor
  · intro hagree hmem
    have hdiffer : ∀ method ∈ ligaturePosts,
        Go.normalizeMethod method ≠ Python.normalizeMethod (some method) := by decide +kernel
    exact hdiffer method hmem hagree
  · intro hnot
    by_cases hplain : ∀ c ∈ method.toList, c ∉ expanding
    · exact agree_of_notMem hplain
    · obtain ⟨c, hmem, hc⟩ : ∃ c ∈ method.toList, c ∈ expanding := by
        by_contra hnone
        exact hplain fun c hmem hc => hnone ⟨c, hmem, hc⟩
      rw [go_of_expanding hmem hc, Python.normalizeMethod, normalizeMethodBy_eq]
      cases hfound : allowed? (toUpperCase method) with
      | none => rfl
      | some m =>
        -- A ligature makes a part of an allowed label only in `POST`.
        exfalso
        obtain ⟨hm, hlabel⟩ := allowed?_eq_some_iff.mp hfound
        obtain ⟨before, after, hsplit⟩ := List.append_of_mem hmem
        have hletters : before.flatMap upperFull ++ (upperFull c ++ after.flatMap upperFull) =
            m.label.toList := by
          rw [← hlabel, toUpperCase, String.toList_ofList, hsplit, List.flatMap_append,
            List.flatMap_cons]
        obtain ⟨hst, hbefore, hafter⟩ := label_of_expanding hm hc hletters
        obtain ⟨p, hp, o, ho, rfl⟩ := eq_of_flatMap_po hbefore
        obtain rfl := eq_nil_of_flatMap hafter
        refine hnot ?_
        rw [← String.ofList_toList (s := method), hsplit]
        exact List.mem_flatMap.mpr ⟨p, hp, List.mem_flatMap.mpr ⟨o, ho,
          List.mem_map.mpr ⟨c, hst, rfl⟩⟩⟩

end SimsysMetrics
