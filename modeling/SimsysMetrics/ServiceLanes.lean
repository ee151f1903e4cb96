import SimsysMetrics.Service

/-!
# One service name in the three lanes

The service is the join key between the lanes, so its trimming has to give the same name in all of
them. It does not: the three runtimes have different classes of white space. The control separators
are white space in Python only, NEL in Python and in Go, and the byte-order mark in Node only. A
name that Go accepts is the same in the three lanes exactly when none of these is left at an end of
it after trimming what all runtimes trim (`service_lanes_iff`).

In each lane alone, trimming a second time changes nothing, and setting a saved service restores it.
-/

namespace SimsysMetrics

open Lib (AtEnd trimString)

/-- The white space of some of the runtimes only: the control separators, NEL, and the byte-order
mark. -/
def disputedSpace (c : Char) : Bool :=
  ('\u001c' ≤ c && c ≤ '\u001f') || c == '\u0085' || c == '\ufeff'

/-- What Python and Node both trim is what all runtimes trim. -/
theorem isSpace_and : (fun c => Python.isSpace c && Node.isSpace c) = commonSpace := by
  funext c
  unfold Python.isSpace Node.isSpace
  by_cases hbom : c = '\ufeff'
  · subst hbom
    decide
  · rw [beq_false_of_ne hbom]
    cases commonSpace c <;> simp

/-- The white space of Python or of Node is common, or disputed. -/
theorem isSpace_or (c : Char) :
    (Python.isSpace c || Node.isSpace c) = (commonSpace c || disputedSpace c) := by
  unfold Python.isSpace Node.isSpace disputedSpace
  cases commonSpace c <;> simp

/-- The white space of Go is white space of Python. -/
theorem python_isSpace_of_go {c : Char} (h : Go.isSpace c = true) : Python.isSpace c = true := by
  unfold Go.isSpace at h
  unfold Python.isSpace
  rcases Bool.or_eq_true_iff.mp h with hcommon | hnel
  · simp [hcommon]
  · simp [hnel]

/-- Common white space is white space of every runtime. -/
theorem isSpace_of_common {c : Char} (h : commonSpace c = true) :
    Python.isSpace c = true ∧ Node.isSpace c = true ∧ Go.isSpace c = true := by
  simp [Python.isSpace, Node.isSpace, Go.isSpace, h]

/-- Where no disputed white space is left at an end, all runtimes trim the same. -/
theorem trim_eq_common {service : String}
    (h : ∀ c, AtEnd (trimString commonSpace service).toList c → disputedSpace c = false) :
    Python.strip service = trimString commonSpace service ∧
      Node.trim service = trimString commonSpace service ∧
      Go.trimSpace service = trimString commonSpace service := by
  have hends : ∀ c, AtEnd (trimString commonSpace service).toList c →
      Python.isSpace c = false ∧ Node.isSpace c = false := by
    intro c hc
    have hcommon : commonSpace c = false := by
      rw [trimString, String.toList_ofList] at hc
      exact Lib.not_of_atEnd_trimBy hc
    have hor := isSpace_or c
    rw [hcommon, h c hc] at hor
    exact Bool.or_eq_false_iff.mp hor
  refine ⟨?_, ?_, ?_⟩
  · exact Lib.trimString_eq_of_atEnd (fun c hc => (isSpace_of_common hc).1)
      fun c hc => (hends c hc).1
  · exact Lib.trimString_eq_of_atEnd (fun c hc => (isSpace_of_common hc).2.1)
      fun c hc => (hends c hc).2
  · refine Lib.trimString_eq_of_atEnd (fun c hc => (isSpace_of_common hc).2.2) fun c hc => ?_
    by_contra hgo
    have hpython := python_isSpace_of_go (Bool.not_eq_false _ ▸ hgo)
    rw [(hends c hc).1] at hpython
    cases hpython

/-- For every service: a name that Go accepts is the same in the three lanes, trimming is idempotent
in each, and setting a saved service restores it, exactly when Go rejects the name, or no white
space of some of the runtimes only is left at an end of it after trimming what all runtimes
trim. -/
theorem service_lanes_iff (service : String) :
    ((Go.trimSpace service ≠ "" → Python.strip service = Node.trim service ∧
        Node.trim service = Go.trimSpace service) ∧
      (Python.strip (Python.strip service) = Python.strip service ∧
        Node.trim (Node.trim service) = Node.trim service ∧
        Go.trimSpace (Go.trimSpace service) = Go.trimSpace service) ∧
      (∀ prior, Python.setService (Python.setService prior) = Python.setService prior ∧
        Node.setService (Node.setService prior) = Node.setService prior)) ↔
      Go.trimSpace service = "" ∨
        ∀ c, AtEnd (trimString commonSpace service).toList c → disputedSpace c = false := by
  constructor
  · rintro ⟨hsame, -⟩
    by_cases haccepted : Go.trimSpace service = ""
    · exact .inl haccepted
    · refine .inr fun c hc => ?_
      obtain ⟨hpython, -⟩ := hsame haccepted
      rw [← isSpace_and] at hc
      obtain ⟨hp, hn⟩ := (Lib.trimString_eq_iff Python.isSpace Node.isSpace service).mp hpython c hc
      have hor := isSpace_or c
      rw [hp, hn] at hor
      exact (Bool.or_eq_false_iff.mp hor.symm).2
  · intro h
    refine ⟨fun haccepted => ?_, ?_, fun prior => ?_⟩
    · rcases h with hrejected | hends
      · exact absurd hrejected haccepted
      · obtain ⟨hpython, hnode, hgo⟩ := trim_eq_common hends
        exact ⟨hpython.trans hnode.symm, hnode.trans hgo.symm⟩
    · exact ⟨Lib.trimString_idempotent _ _, Lib.trimString_idempotent _ _,
        Lib.trimString_idempotent _ _⟩
    · exact ⟨setServiceBy_restore _ (setServiceBy_trimmed _ prior),
        setServiceBy_restore _ (setServiceBy_trimmed _ prior)⟩

/-- Three padded spellings of a name, which Go accepts: each is another name in Python and in
Node. -/
theorem padded_spellings_differ :
    (Go.trimSpace "\u001cportal" ≠ "" ∧
      Python.strip "\u001cportal" = "portal" ∧ Node.trim "\u001cportal" = "\u001cportal") ∧
    (Go.trimSpace "\u0085portal" = "portal" ∧
      Python.strip "\u0085portal" = "portal" ∧ Node.trim "\u0085portal" = "\u0085portal") ∧
    (Go.trimSpace "\ufeffportal" = "\ufeffportal" ∧
      Python.strip "\ufeffportal" = "\ufeffportal" ∧ Node.trim "\ufeffportal" = "portal") := by
  decide +kernel

end SimsysMetrics
