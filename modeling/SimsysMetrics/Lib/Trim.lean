import Mathlib.Data.List.DropRight

/-!
# Trimming a text at both ends

Every runtime trims with its own class of white space, so trimming is developed here over an
arbitrary predicate `p`: on lists (`trimBy`), and on strings through their characters
(`trimString`). A trimmed text is a fixed point (`trimString_idempotent`), which is what lets a
saved name be restored by a setter that trims.

Two classes of white space trim a text to the same one exactly when neither has an element at an end
of what remains after trimming what both of them have (`trimString_eq_iff`).
-/

namespace SimsysMetrics.Lib

variable {α : Type*} (p : α → Bool)

/-- `l` without the elements at either end that satisfy `p`. -/
def trimBy (l : List α) : List α := (l.dropWhile p).rdropWhile p

/-- Trimming the end of a list trimmed in front leaves nothing to trim in front. -/
theorem dropWhile_rdropWhile_dropWhile (l : List α) :
    ((l.dropWhile p).rdropWhile p).dropWhile p = (l.dropWhile p).rdropWhile p := by
  rw [List.dropWhile_eq_self_iff]
  intro hpos
  obtain ⟨t, ht⟩ := List.rdropWhile_prefix p (l.dropWhile p)
  -- The prefix and the whole list have the same head, and `dropWhile` stopped at it.
  have hpos' : 0 < (l.dropWhile p).length := by
    have := congrArg List.length ht
    rw [List.length_append] at this
    omega
  have hhead : ((l.dropWhile p).rdropWhile p)[0] = (l.dropWhile p)[0] :=
    (List.rdropWhile_prefix p (l.dropWhile p)).getElem hpos
  rw [hhead]
  exact List.dropWhile_get_zero_not p l hpos'

/-- Trimming a second time changes nothing. -/
theorem trimBy_idempotent (l : List α) : trimBy p (trimBy p l) = trimBy p l := by
  unfold trimBy
  rw [dropWhile_rdropWhile_dropWhile, List.rdropWhile_idempotent]

/-- A string trimmed at both ends of the characters that satisfy `p`. -/
def trimString (p : Char → Bool) (s : String) : String := String.ofList (trimBy p s.toList)

/-- A trimmed string is its own trimming. -/
@[simp]
theorem trimString_idempotent (p : Char → Bool) (s : String) :
    trimString p (trimString p s) = trimString p s := by
  simp [trimString, trimBy_idempotent]

/-! ## Two classes of white space -/

/-- An element at an end of a list. -/
def AtEnd (l : List α) (c : α) : Prop := l.head? = some c ∨ l.getLast? = some c

section TwoClasses

variable {p} {q : α → Bool} {l pre post : List α} {c : α}

/-- Nothing is trimmed where the ends are no white space. -/
theorem trimBy_eq_self (h : ∀ c, AtEnd l c → p c = false) : trimBy p l = l := by
  have hfront : l.dropWhile p = l := by
    refine List.dropWhile_eq_self_iff.mpr fun hpos => ?_
    rw [h l[0] (.inl (by rw [List.head?_eq_getElem?, List.getElem?_eq_getElem hpos]))]
    exact Bool.false_ne_true
  rw [trimBy, hfront]
  refine List.rdropWhile_eq_self_iff.mpr fun hne => ?_
  rw [h (l.getLast hne) (.inr (List.getLast?_eq_some_getLast hne))]
  exact Bool.false_ne_true

/-- The ends of a trimmed list are no white space. -/
theorem not_of_atEnd_trimBy (h : AtEnd (trimBy p l) c) : p c = false := by
  rcases h with hhead | hlast
  · have hfixed := List.dropWhile_eq_self_iff.mp (dropWhile_rdropWhile_dropWhile p l)
    obtain ⟨hpos, hc⟩ := List.getElem?_eq_some_iff.mp (List.head?_eq_getElem? ▸ hhead)
    rw [← hc]
    exact Bool.not_eq_true _ ▸ hfixed hpos
  · obtain ⟨hne, rfl⟩ := List.mem_getLast?_eq_getLast hlast
    exact Bool.not_eq_true _ ▸ List.rdropWhile_last_not p _ hne

/-- A head that is no white space stays. -/
theorem head?_trimBy (h : l.head? = some c) (hc : p c = false) : (trimBy p l).head? = some c := by
  obtain ⟨t, rfl⟩ := List.head?_eq_some_iff.mp h
  have hc' : ¬ p c = true := Bool.not_eq_true _ ▸ hc
  rw [trimBy, List.dropWhile_cons_of_neg hc']
  have hne : (c :: t).rdropWhile p ≠ [] := by
    intro hnil
    exact hc' (List.rdropWhile_eq_nil_iff.mp hnil c List.mem_cons_self)
  obtain ⟨rest, hrest⟩ := List.rdropWhile_prefix p (c :: t)
  have hhead : ((c :: t).rdropWhile p ++ rest).head? = ((c :: t).rdropWhile p).head? :=
    List.head?_append_of_ne_nil _ hne
  rw [hrest] at hhead
  exact hhead.symm

/-- So does such a last element. -/
theorem getLast?_trimBy (h : l.getLast? = some c) (hc : p c = false) :
    (trimBy p l).getLast? = some c := by
  have hc' : ¬ p c = true := Bool.not_eq_true _ ▸ hc
  obtain ⟨t, rfl⟩ := List.getLast?_eq_some_iff.mp h
  have hfront : ∃ t', (t ++ [c]).dropWhile p = t' ++ [c] := by
    rw [List.dropWhile_append]
    split_ifs
    · exact ⟨[], List.dropWhile_cons_of_neg hc'⟩
    · exact ⟨_, rfl⟩
  obtain ⟨t', ht'⟩ := hfront
  rw [trimBy, ht', List.rdropWhile_concat_neg p t' c hc']
  exact List.getLast?_concat

/-- White space around a list is trimmed with it. -/
theorem trimBy_append (hpre : ∀ c ∈ pre, p c = true) (hpost : ∀ c ∈ post, p c = true)
    (l : List α) : trimBy p (pre ++ l ++ post) = trimBy p l := by
  have hback : ∀ l : List α, (l ++ post).rdropWhile p = l.rdropWhile p := by
    intro l
    rw [List.rdropWhile, List.reverse_append, List.dropWhile_append_of_pos]
    · rfl
    · exact fun c hc => hpost c (List.mem_reverse.mp hc)
  rw [trimBy, List.append_assoc, List.dropWhile_append_of_pos hpre, List.dropWhile_append]
  split_ifs with hempty
  · have hnil : post.dropWhile p = [] := List.dropWhile_eq_nil_iff.mpr hpost
    rw [trimBy, hnil, List.isEmpty_iff.mp hempty]
  · exact hback _

/-- Trimming less before changes nothing. -/
theorem trimBy_trimBy (h : ∀ c, q c = true → p c = true) (l : List α) :
    trimBy p (trimBy q l) = trimBy p l := by
  have hsplit : l.takeWhile q ++ trimBy q l ++ (l.dropWhile q).rtakeWhile q = l := by
    rw [List.append_assoc, trimBy, List.rdropWhile_append_rtakeWhile,
      List.takeWhile_append_dropWhile]
  have hpre : ∀ c ∈ l.takeWhile q, p c = true := fun c hc => h c (List.mem_takeWhile_imp hc)
  have hpost : ∀ c ∈ (l.dropWhile q).rtakeWhile q, p c = true :=
    fun c hc => h c (List.mem_rtakeWhile_imp hc)
  rw [← trimBy_append hpre hpost, hsplit]

/-- Where two trimmings agree, an end that the first class has is in the second one. -/
theorem eq_true_of_trimBy_eq (heq : trimBy p l = trimBy q l) (h : AtEnd l c) (hc : p c = true) :
    q c = true := by
  by_contra hq
  have hq : q c = false := Bool.not_eq_true _ ▸ hq
  have hend : AtEnd (trimBy p l) c := by
    rw [heq]
    exact h.imp (head?_trimBy · hq) (getLast?_trimBy · hq)
  rw [not_of_atEnd_trimBy hend] at hc
  exact Bool.false_ne_true hc

/-- Two trimmings agree exactly when the ends that remain after trimming what both classes have are
in neither. -/
theorem trimBy_eq_iff (p q : α → Bool) (l : List α) : trimBy p l = trimBy q l ↔
    ∀ c, AtEnd (trimBy (fun c => p c && q c) l) c → p c = false ∧ q c = false := by
  have hp := trimBy_trimBy (p := p) (q := fun c => p c && q c)
    (fun c hc => (Bool.and_eq_true _ _ ▸ hc).1) l
  have hq := trimBy_trimBy (p := q) (q := fun c => p c && q c)
    (fun c hc => (Bool.and_eq_true _ _ ▸ hc).2) l
  constructor
  · intro heq c hc
    have hboth := not_of_atEnd_trimBy hc
    rw [← hp, ← hq] at heq
    refine ⟨?_, ?_⟩
    · by_contra hpc
      have hpc : p c = true := Bool.not_eq_false _ ▸ hpc
      rw [hpc, eq_true_of_trimBy_eq heq hc hpc] at hboth
      cases hboth
    · by_contra hqc
      have hqc : q c = true := Bool.not_eq_false _ ▸ hqc
      rw [hqc, eq_true_of_trimBy_eq heq.symm hc hqc] at hboth
      cases hboth
  · intro h
    rw [← hp, ← hq, trimBy_eq_self fun c hc => (h c hc).1, trimBy_eq_self fun c hc => (h c hc).2]

/-- Two trimmings of a string agree exactly when the ends that remain after trimming what both
classes have are in neither. -/
theorem trimString_eq_iff (p q : Char → Bool) (s : String) : trimString p s = trimString q s ↔
    ∀ c, AtEnd (trimString (fun c => p c && q c) s).toList c → p c = false ∧ q c = false := by
  rw [trimString, trimString, trimString, String.ofList_inj, String.toList_ofList]
  exact trimBy_eq_iff p q s.toList

/-- A class trims no more than a smaller one where it has neither end of what remains. -/
theorem trimString_eq_of_atEnd {q p : Char → Bool} (h : ∀ c, q c = true → p c = true) {s : String}
    (hends : ∀ c, AtEnd (trimString q s).toList c → p c = false) :
    trimString p s = trimString q s := by
  rw [trimString, String.toList_ofList] at hends
  rw [trimString, trimString, ← trimBy_trimBy h, trimBy_eq_self hends]

end TwoClasses

end SimsysMetrics.Lib
