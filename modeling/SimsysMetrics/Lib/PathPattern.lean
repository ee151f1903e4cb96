import Mathlib.Data.List.Basic
import Mathlib.Data.List.DropRight

/-!
# Path patterns with named parameters

A path pattern is a list of tokens: separators, literal characters and named parameters. A path
matches it token by token (`Matches`): a literal matches the characters that a canonicalization
identifies with it (for a matching that ignores the case of letters, the upper case), and a
parameter matches any text that is not empty and has no separator. A pattern starts with a
separator, if it is not empty (`Pattern`).

A pattern is `Rigid` when it has no parameter, and no literal that another character is identified
with. Then one text at most matches it (`Rigid.eq_of_matches`); every other pattern is matched by
two (`exists_ne_of_not_rigid`).
-/

namespace SimsysMetrics.Lib

/-- A token of a path pattern. -/
inductive Token where
  /-- The separator `/`. -/
  | sep
  /-- A literal character. -/
  | lit (c : Char)
  /-- A named parameter. -/
  | param (name : String)
deriving DecidableEq, Repr

/-- The text of a token in a pattern. -/
def Token.text : Token → List Char
  | .sep => ['/']
  | .lit c => [c]
  | .param name => ':' :: name.toList

/-- A pattern, by its tokens: it is empty or starts with a separator. -/
structure Pattern where
  tokens : List Token
  rooted : tokens = [] ∨ tokens.head? = some .sep
deriving DecidableEq

/-- The text of a pattern. -/
def Pattern.text (p : Pattern) : String := String.ofList (p.tokens.flatMap Token.text)

/-- The tokens without the separators at their end. -/
def loosen (ts : List Token) : List Token := ts.rdropWhile (· = .sep)

section Matches

variable (canon : Char → Char)

/-- The texts that match a list of tokens. -/
inductive Matches : List Token → List Char → Prop
  | nil : Matches [] []
  | sep {ts : List Token} {cs : List Char} : Matches ts cs → Matches (.sep :: ts) ('/' :: cs)
  | lit {c d : Char} {ts : List Token} {cs : List Char} :
      canon d = canon c → Matches ts cs → Matches (.lit c :: ts) (d :: cs)
  | param {name : String} {v : List Char} {ts : List Token} {cs : List Char} :
      v ≠ [] → '/' ∉ v → Matches ts cs → Matches (.param name :: ts) (v ++ cs)

/-- A token that one text at most matches. -/
def Token.Rigid : Token → Prop
  | .sep => True
  | .lit c => ∀ d, canon d = canon c → d = c
  | .param _ => False

/-- All tokens are rigid. -/
def Rigid (ts : List Token) : Prop := ∀ t ∈ ts, t.Rigid canon

variable {canon}

/-- One text at most matches rigid tokens. -/
theorem Rigid.eq_of_matches {ts : List Token} (h : Rigid canon ts) {cs cs' : List Char}
    (hm : Matches canon ts cs) (hm' : Matches canon ts cs') : cs = cs' := by
  induction hm generalizing cs' with
  | nil =>
    cases hm'
    rfl
  | sep hm ih =>
    obtain _ | hm' := hm'
    rw [ih (fun t ht => h t (List.mem_cons_of_mem _ ht)) hm']
  | @lit c d ts cs hd hm ih =>
    have hc : ∀ d, canon d = canon c → d = c := h (.lit c) List.mem_cons_self
    obtain _ | _ | ⟨hd', hm'⟩ := hm'
    rw [hc _ hd, hc _ hd', ih (fun t ht => h t (List.mem_cons_of_mem _ ht)) hm']
  | @param name v ts cs hv hsep hm ih =>
    -- A parameter is not rigid.
    exact absurd (h (.param name) List.mem_cons_self) id

/-- No token matches the empty text. -/
theorem Matches.ne_nil {ts : List Token} {cs : List Char} (h : Matches canon ts cs)
    (hts : ts ≠ []) : cs ≠ [] := by
  cases h with
  | nil => exact absurd rfl hts
  | sep => exact List.cons_ne_nil _ _
  | lit => exact List.cons_ne_nil _ _
  | param hv => exact fun h => hv (List.append_eq_nil_iff.mp h).1

/-- Some text matches a token in front of a matched text. -/
theorem exists_matches_cons (t : Token) {ts : List Token} {cs : List Char}
    (h : Matches canon ts cs) : ∃ cs', Matches canon (t :: ts) cs' := by
  rcases t with _ | c | name
  · exact ⟨_, .sep h⟩
  · exact ⟨_, .lit (rfl : canon c = canon c) h⟩
  · exact ⟨['x'] ++ cs, .param (by simp) (by decide) h⟩

/-- Some text matches every list of tokens. -/
theorem exists_matches (ts : List Token) : ∃ cs, Matches canon ts cs := by
  induction ts with
  | nil => exact ⟨[], .nil⟩
  | cons t ts ih =>
    obtain ⟨cs, hcs⟩ := ih
    exact exists_matches_cons t hcs

/-- A token that is not rigid is matched by two texts in front of a matched text. -/
theorem exists_ne_cons {t : Token} (ht : ¬ t.Rigid canon) {ts : List Token} {cs : List Char}
    (h : Matches canon ts cs) :
    ∃ cs₁ cs₂, Matches canon (t :: ts) cs₁ ∧ Matches canon (t :: ts) cs₂ ∧ cs₁ ≠ cs₂ := by
  rcases t with _ | c | name
  · exact absurd trivial ht
  · -- Another spelling of the literal.
    obtain ⟨d, hd, hne⟩ : ∃ d, canon d = canon c ∧ d ≠ c := by
      simpa [Token.Rigid] using ht
    refine ⟨d :: cs, c :: cs, .lit hd h, .lit rfl h, ?_⟩
    simpa using hne
  · -- Another value of the parameter.
    refine ⟨['x'] ++ cs, ['y'] ++ cs, .param (by simp) (by decide) h,
      .param (by simp) (by decide) h, ?_⟩
    simp

/-- Two texts that match tokens are told apart behind a further token. -/
theorem exists_ne_cons_of_ne (t : Token) {ts : List Token} {cs₁ cs₂ : List Char}
    (h₁ : Matches canon ts cs₁) (h₂ : Matches canon ts cs₂) (hne : cs₁ ≠ cs₂) :
    ∃ cs₁' cs₂', Matches canon (t :: ts) cs₁' ∧ Matches canon (t :: ts) cs₂' ∧ cs₁' ≠ cs₂' := by
  rcases t with _ | c | name
  · exact ⟨_, _, .sep h₁, .sep h₂, by simpa using hne⟩
  · exact ⟨_, _, .lit (rfl : canon c = canon c) h₁, .lit (rfl : canon c = canon c) h₂,
      by simpa using hne⟩
  · refine ⟨['x'] ++ cs₁, ['x'] ++ cs₂, .param (by simp) (by decide) h₁,
      .param (by simp) (by decide) h₂, ?_⟩
    simpa using hne

/-- Two texts match a list of tokens that is not rigid. -/
theorem exists_ne_of_not_rigid {ts : List Token} (h : ¬ Rigid canon ts) :
    ∃ cs₁ cs₂, Matches canon ts cs₁ ∧ Matches canon ts cs₂ ∧ cs₁ ≠ cs₂ := by
  induction ts with
  | nil => exact absurd (by simp [Rigid]) h
  | cons t ts ih =>
    -- The first token that is not rigid has two texts; the ones in front keep them apart.
    by_cases ht : t.Rigid canon
    · have hts : ¬ Rigid canon ts := fun hts => h (by
        intro t' ht'
        rcases List.mem_cons.mp ht' with rfl | ht'
        · exact ht
        · exact hts t' ht')
      obtain ⟨cs₁, cs₂, h₁, h₂, hne⟩ := ih hts
      exact exists_ne_cons_of_ne t h₁ h₂ hne
    · obtain ⟨cs, hcs⟩ := @exists_matches canon ts
      exact exists_ne_cons ht hcs

/-- The separators at the end do not matter for rigidity. -/
theorem rigid_loosen_iff (ts : List Token) : Rigid canon (loosen ts) ↔ Rigid canon ts := by
  have hsplit : loosen ts ++ ts.rtakeWhile (· = .sep) = ts := List.rdropWhile_append_rtakeWhile ..
  constructor
  · intro h t ht
    rw [← hsplit, List.mem_append] at ht
    rcases ht with ht | ht
    · exact h t ht
    · have hsep : t = .sep := by simpa using List.mem_rtakeWhile_imp ht
      rw [hsep]
      trivial
  · intro h t ht
    apply h t
    rw [← hsplit]
    exact List.mem_append_left _ ht

end Matches

/-! ## Boundaries -/

/-- What may follow a matched prefix: nothing, or a text that starts with a separator. -/
def Boundary (cs : List Char) : Prop := cs = [] ∨ cs.head? = some '/'

/-- Boundaries are closed under concatenation. -/
theorem Boundary.append {cs cs' : List Char} (h : Boundary cs) (h' : Boundary cs') :
    Boundary (cs ++ cs') := by
  rcases h with rfl | h
  · exact h'
  · right
    rw [List.head?_append, h]
    rfl

/-- A text that matches a pattern without its last separators is a boundary. -/
theorem Pattern.boundary {canon : Char → Char} (p : Pattern) {cs : List Char}
    (h : Matches canon (loosen p.tokens) cs) : Boundary cs := by
  obtain ⟨rest, hrest⟩ : loosen p.tokens <+: p.tokens := List.rdropWhile_prefix ..
  rcases hloose : loosen p.tokens with _ | ⟨t, ts⟩
  · rw [hloose] at h
    cases h
    exact Or.inl rfl
  · -- The first token of the pattern, so it is a separator.
    have ht : t = .sep := by
      rw [hloose] at hrest
      rcases p.rooted with hnil | hhead
      · rw [hnil] at hrest
        cases hrest
      · rw [← hrest] at hhead
        exact Option.some.inj hhead
    rw [hloose, ht] at h
    cases h
    exact Or.inr rfl

end SimsysMetrics.Lib
