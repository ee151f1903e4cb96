import Mathlib.Data.List.Basic
import SimsysMetrics.Lib.JsString

/-!
# Percent-encoding some characters of a string

`Encodes s s'` says that `s'` is `s` with some of its characters percent-encoded: each one is a code
point, replaced by escapes of its UTF-8 octets. Escapes that `s` has already stay as they are.

Decoding does not see the difference. This holds also of strings with a `%` that begins no escape,
which `decodeURIComponent` refuses: `lenientDecode` keeps such a `%`, agrees with
`decodeURIComponent` on the others (`decodeURIComponent_cases`), and gives one result for `s` and
`s'` (`Encodes.lenientDecode_eq`). The proof follows the pieces: those of `s'` are those of `s` with
the code units of some code points replaced by octets (`Recodes`). The first octet of a code point
continues no other, so an octet of `s` finds the continuations that it found before, or none as
before (`continuations_recodes`).
-/

namespace SimsysMetrics.Lib

/-! ## Decoding an octet and what continues it -/

/-- How many octets continue a first octet; none where it begins no code point. -/
def arity (b : ℕ) : Option ℕ :=
  if b < 0x80 then some 0
  else if 0xC2 ≤ b ∧ b < 0xE0 then some 1
  else if 0xE0 ≤ b ∧ b < 0xF0 then some 2
  else if 0xF0 ≤ b ∧ b < 0xF5 then some 3
  else none

/-- The code point of a first octet and the payloads that continue it. -/
def codePoint (b : ℕ) : List ℕ → Option ℕ
  | [] => some b
  | [c₁] => some (64 * (b - 0xC0) + c₁)
  | [c₁, c₂] =>
    let cp := 4096 * (b - 0xE0) + 64 * c₁ + c₂
    if 0x800 ≤ cp ∧ ¬ (0xD800 ≤ cp ∧ cp < 0xE000) then some cp else none
  | [c₁, c₂, c₃] =>
    let cp := 262144 * (b - 0xF0) + 4096 * c₁ + 64 * c₂ + c₃
    if 0x10000 ≤ cp ∧ cp < 0x110000 then some cp else none
  | _ => none

/-- The payloads of some continuation octets, and the pieces after them. -/
def continuations : ℕ → List Piece → Option (List ℕ × List Piece)
  | 0, ps => some ([], ps)
  | n + 1, .octet b :: ps => do
    let c ← continuation b
    let (cs, rest) ← continuations n ps
    some (c :: cs, rest)
  | _, _ => none

/-- Decoding a first octet: its continuations, its code point, and then the rest. -/
theorem decodePieces_octet (b : ℕ) (ps : List Piece) :
    decodePieces (.octet b :: ps) = (do
      let n ← arity b
      let (cs, rest) ← continuations n ps
      let cp ← codePoint b cs
      let s ← decodePieces rest
      some (unitsOfCodePoint cp ++ s)) := by
  unfold arity
  -- The cases are the numbers of continuations, none to three; each of them may be missing or not
  -- be one.
  by_cases h0 : b < 0x80
  · have hunits : unitsOfCodePoint b = [UInt16.ofNat b] := if_pos (by omega)
    rw [decodePieces.eq_def]
    cases hs : decodePieces ps <;> simp [h0, continuations, codePoint, hunits, hs]
  by_cases h1 : 0xC2 ≤ b ∧ b < 0xE0
  · rcases ps with _ | ⟨_ | b₁, ps⟩
    · simp [decodePieces, h0, h1, continuations]
    · simp [decodePieces, h0, h1, continuations]
    · cases h₁ : continuation b₁ <;> simp [decodePieces, h0, h1, h₁, continuations, codePoint]
  by_cases h2 : 0xE0 ≤ b ∧ b < 0xF0
  · rcases ps with _ | ⟨_ | b₁, ps⟩
    iterate 2 simp [decodePieces, h0, h1, h2, continuations]
    rcases ps with _ | ⟨_ | b₂, ps⟩
    iterate 2 simp [decodePieces, h0, h1, h2, continuations]
    cases h₁ : continuation b₁ <;> cases h₂ : continuation b₂ <;> cases hs : decodePieces ps <;>
      simp [decodePieces, h0, h1, h2, h₁, h₂, hs, continuations, codePoint]
    split_ifs <;> rfl
  by_cases h3 : 0xF0 ≤ b ∧ b < 0xF5
  · rcases ps with _ | ⟨_ | b₁, ps⟩
    iterate 2 simp [decodePieces, h0, h1, h2, h3, continuations]
    rcases ps with _ | ⟨_ | b₂, ps⟩
    iterate 2 simp [decodePieces, h0, h1, h2, h3, continuations]
    rcases ps with _ | ⟨_ | b₃, ps⟩
    iterate 2 simp [decodePieces, h0, h1, h2, h3, continuations]
    cases h₁ : continuation b₁ <;> cases h₂ : continuation b₂ <;> cases h₃ : continuation b₃ <;>
      cases hs : decodePieces ps <;>
      simp [decodePieces, h0, h1, h2, h3, h₁, h₂, h₃, hs, continuations, codePoint]
    split_ifs <;> rfl
  · rw [decodePieces.eq_def]
    simp [h0, h1, h2, h3]

/-! ## The octets of a character -/

/-- The octets of the UTF-8 encoding of a code point. -/
def utf8 (cp : ℕ) : List ℕ :=
  if cp < 0x80 then [cp]
  else if cp < 0x800 then [0xC0 + cp / 64, 0x80 + cp % 64]
  else if cp < 0x10000 then [0xE0 + cp / 4096, 0x80 + cp / 64 % 64, 0x80 + cp % 64]
  else [0xF0 + cp / 262144, 0x80 + cp / 4096 % 64, 0x80 + cp / 64 % 64, 0x80 + cp % 64]

/-- The payload of the continuation octet of six bits. -/
theorem continuation_add {n : ℕ} (h : n < 64) : continuation (0x80 + n) = some n := by
  unfold continuation
  rw [if_pos (by omega), Nat.add_sub_cancel_left]

/-- The bounds of the code point of a character. -/
theorem toNat_bounds (c : Char) : c.toNat < 0xD800 ∨ 0xE000 ≤ c.toNat ∧ c.toNat < 0x110000 := by
  have hvalid := c.valid
  have htoNat : c.toNat = c.val.toNat := rfl
  unfold UInt32.isValidChar Nat.isValidChar at hvalid
  omega

/-- Payloads of six bits are read back from their continuation octets. -/
theorem continuations_payloads {cs : List ℕ} (hcs : ∀ c ∈ cs, c < 64) (ps : List Piece) :
    continuations cs.length ((cs.map fun c => .octet (0x80 + c)) ++ ps) = some (cs, ps) := by
  induction cs with
  | nil => rfl
  | cons c cs ih =>
    obtain ⟨hc, hcs⟩ := List.forall_mem_cons.mp hcs
    simp only [List.length_cons, List.map_cons, List.cons_append, continuations,
      continuation_add hc, ih hcs, Option.bind_eq_bind, Option.bind_some]

/-- A first octet and the payloads that continue it decode to their code point. -/
theorem decodePieces_payloads {b cp : ℕ} {cs : List ℕ} (harity : arity b = some cs.length)
    (hcs : ∀ c ∈ cs, c < 64) (hcp : codePoint b cs = some cp) (ps : List Piece) :
    decodePieces (.octet b :: (cs.map fun c => .octet (0x80 + c)) ++ ps) =
      (decodePieces ps).map (unitsOfCodePoint cp ++ ·) := by
  rw [List.cons_append, decodePieces_octet, harity]
  simp only [Option.bind_eq_bind, Option.bind_some, continuations_payloads hcs, hcp,
    Option.map_eq_bind]
  rfl

/-- Octets decode to the character that they encode. -/
theorem decodePieces_utf8 (c : Char) (ps : List Piece) :
    decodePieces ((utf8 c.toNat).map .octet ++ ps) =
      (decodePieces ps).map (unitsOfCodePoint c.toNat ++ ·) := by
  have hbounds := toNat_bounds c
  generalize c.toNat = cp at hbounds
  have hmod : ∀ n : ℕ, n % 64 < 64 := fun n => Nat.mod_lt n (by decide)
  unfold utf8
  -- By the length of the encoding: the first octet says it, and the octets give the code point
  -- back.
  split_ifs with h1 h2 h3
  · have harity : arity cp = some 0 := if_pos h1
    exact @decodePieces_payloads cp cp [] harity (by simp) rfl ps
  · have harity : arity (0xC0 + cp / 64) = some 1 := by
      unfold arity
      rw [if_neg (by omega), if_pos (by omega)]
    have hcp : codePoint (0xC0 + cp / 64) [cp % 64] = some cp := by
      have heq : 64 * (0xC0 + cp / 64 - 0xC0) + cp % 64 = cp := by omega
      rw [codePoint, heq]
    exact @decodePieces_payloads _ cp [cp % 64] harity (by simp [hmod]) hcp ps
  · have harity : arity (0xE0 + cp / 4096) = some 2 := by
      unfold arity
      rw [if_neg (by omega), if_neg (by omega), if_pos (by omega)]
    have hcp : codePoint (0xE0 + cp / 4096) [cp / 64 % 64, cp % 64] = some cp := by
      have heq : 4096 * (0xE0 + cp / 4096 - 0xE0) + 64 * (cp / 64 % 64) + cp % 64 = cp := by omega
      simp only [codePoint, heq]
      rw [if_pos (by omega)]
    exact @decodePieces_payloads _ cp [cp / 64 % 64, cp % 64] harity (by simp [hmod]) hcp ps
  · have harity : arity (0xF0 + cp / 262144) = some 3 := by
      unfold arity
      rw [if_neg (by omega), if_neg (by omega), if_neg (by omega), if_pos (by omega)]
    have hcp : codePoint (0xF0 + cp / 262144) [cp / 4096 % 64, cp / 64 % 64, cp % 64] =
        some cp := by
      have heq : 262144 * (0xF0 + cp / 262144 - 0xF0) + 4096 * (cp / 4096 % 64) +
          64 * (cp / 64 % 64) + cp % 64 = cp := by omega
      simp only [codePoint, heq]
      rw [if_pos (by omega)]
    exact @decodePieces_payloads _ cp [cp / 4096 % 64, cp / 64 % 64, cp % 64] harity
      (by simp [hmod]) hcp ps

/-- Code units decode to themselves. -/
theorem decodePieces_units (us : JsString) (ps : List Piece) :
    decodePieces (us.map .unit ++ ps) = (decodePieces ps).map (us ++ ·) := by
  induction us with
  | nil => simp
  | cons u us ih =>
    rw [List.map_cons, List.cons_append, decodePieces, ih, Option.map_map]
    rfl

/-! ## Pieces of which some characters are recoded -/

/-- The code units of some characters are replaced by their octets. -/
inductive Recodes : List Piece → List Piece → Prop where
  | nil : Recodes [] []
  | keep (p : Piece) {ps ps' : List Piece} (h : Recodes ps ps') : Recodes (p :: ps) (p :: ps')
  | encode (c : Char) {ps ps' : List Piece} (h : Recodes ps ps') :
      Recodes ((unitsOfCodePoint c.toNat).map .unit ++ ps) ((utf8 c.toNat).map .octet ++ ps')

/-- The pieces of a character begin with a unit before, and with no continuation octet after they
are recoded. -/
theorem exists_head (c : Char) :
    (∃ u us, unitsOfCodePoint c.toNat = u :: us) ∧
      ∃ b bs, utf8 c.toNat = b :: bs ∧ continuation b = none := by
  have hbounds := toNat_bounds c
  generalize c.toNat = cp at hbounds
  constructor
  · unfold unitsOfCodePoint
    split_ifs <;> exact ⟨_, _, rfl⟩
  · unfold utf8
    split_ifs with h1 h2 h3
    all_goals
      refine ⟨_, _, rfl, if_neg ?_⟩
      omega

/-- An octet finds the same continuations after recoding, and the rest recoded. -/
theorem continuations_recodes (n : ℕ) {ps ps' : List Piece} (h : Recodes ps ps') :
    continuations n ps = none ∧ continuations n ps' = none ∨
      ∃ cs rest rest', continuations n ps = some (cs, rest) ∧
        continuations n ps' = some (cs, rest') ∧ Recodes rest rest' ∧ rest.length ≤ ps.length := by
  induction n generalizing ps ps' with
  | zero => exact Or.inr ⟨[], ps, ps', rfl, rfl, h, Nat.le_refl _⟩
  | succ n ih =>
    cases h with
    | nil => exact Or.inl ⟨rfl, rfl⟩
    | keep p h =>
      cases p with
      | unit u => exact Or.inl ⟨rfl, rfl⟩
      | octet b =>
        cases hc : continuation b with
        | none => exact Or.inl ⟨by simp [continuations, hc], by simp [continuations, hc]⟩
        | some c =>
          rcases ih h with ⟨hnone, hnone'⟩ | ⟨cs, rest, rest', hsome, hsome', hrest, hlen⟩
          · exact Or.inl ⟨by simp [continuations, hnone], by simp [continuations, hnone']⟩
          · refine Or.inr ⟨c :: cs, rest, rest', ?_, ?_, hrest, by simp; omega⟩
            · simp [continuations, hc, hsome]
            · simp [continuations, hc, hsome']
    | encode c h =>
      obtain ⟨⟨u, us, hu⟩, b, bs, hb, hnone⟩ := exists_head c
      refine Or.inl ⟨?_, ?_⟩
      · rw [hu]
        rfl
      · rw [hb]
        simp [continuations, hnone]

/-- Recoded pieces decode to the same string. -/
theorem decodePieces_recodes {ps ps' : List Piece} (h : Recodes ps ps') :
    decodePieces ps = decodePieces ps' := by
  induction hlen : ps.length using Nat.strongRecOn generalizing ps ps' with
  | _ n ih =>
    subst hlen
    cases h with
    | nil => rfl
    | @keep p ps ps' h =>
      cases p with
      | unit u => rw [decodePieces, decodePieces, ih ps.length (by simp) h rfl]
      | octet b =>
        rw [decodePieces_octet, decodePieces_octet]
        cases arity b with
        | none => rfl
        | some k =>
          rcases continuations_recodes k h with
            ⟨hnone, hnone'⟩ | ⟨cs, rest, rest', hsome, hsome', hrest, hlen⟩
          · simp [hnone, hnone']
          · have hih := ih rest.length (by simp; omega) hrest rfl
            simp [hsome, hsome', hih]
    | @encode c ps ps' h =>
      obtain ⟨⟨u, us, hu⟩, -⟩ := exists_head c
      have hlt : ps.length < ((unitsOfCodePoint c.toNat).map Piece.unit ++ ps).length := by
        rw [hu, List.map_cons, List.cons_append, List.length_cons, List.length_append]
        omega
      rw [decodePieces_units, decodePieces_utf8, ih ps.length hlt h rfl]

/-! ## Strings of which some characters are encoded -/

/-- The octet of the escape that a string begins with, and what follows it. -/
def escape? : JsString → Option (ℕ × JsString)
  | u :: a :: b :: rest =>
    if u = 37 then do
      let high ← hexDigit a
      let low ← hexDigit b
      some (16 * high + low, rest)
    else none
  | _ => none

/-- A string that begins with an escape has its three code units and what follows. -/
theorem escape?_eq_some {s : JsString} {n : ℕ} {rest : JsString} (h : escape? s = some (n, rest)) :
    ∃ a b high low, s = 37 :: a :: b :: rest ∧ hexDigit a = some high ∧ hexDigit b = some low ∧
      n = 16 * high + low := by
  rcases s with _ | ⟨u, _ | ⟨a, _ | ⟨b, s⟩⟩⟩
  iterate 3 cases h
  simp only [escape?] at h
  split_ifs at h with hu
  simp only [Option.bind_eq_bind, Option.bind_eq_some_iff, Option.some.injEq, Prod.mk.injEq] at h
  obtain ⟨high, hhigh, low, hlow, rfl, rfl⟩ := h
  exact ⟨a, b, high, low, by rw [hu], hhigh, hlow, rfl⟩

/-- A `%` and two hexadecimal digits are an escape. -/
theorem escape?_of_digits {a b : UInt16} {high low : ℕ} (ha : hexDigit a = some high)
    (hb : hexDigit b = some low) (rest : JsString) :
    escape? (37 :: a :: b :: rest) = some (16 * high + low, rest) := by
  simp [escape?, ha, hb]

/-- A string that begins with no `%` begins with no escape. -/
theorem escape?_of_ne {u : UInt16} (hu : u ≠ 37) (s : JsString) : escape? (u :: s) = none := by
  rcases s with _ | ⟨a, _ | ⟨b, s⟩⟩
  · rfl
  · rfl
  · exact if_neg hu

/-- What follows an escape is shorter. -/
theorem length_of_escape? {u : UInt16} {s : JsString} {n : ℕ} {rest : JsString}
    (h : escape? (u :: s) = some (n, rest)) : rest.length ≤ s.length := by
  obtain ⟨a, b, -, -, hs, -⟩ := escape?_eq_some h
  rw [(List.cons.inj hs).2, List.length_cons, List.length_cons]
  omega

/-- The pieces of a string; a `%` that begins no escape is a unit. -/
def lenientPieces : JsString → List Piece
  | [] => []
  | u :: s =>
    match h : escape? (u :: s) with
    | some (n, rest) =>
      have := length_of_escape? h
      .octet n :: lenientPieces rest
    | none => .unit u :: lenientPieces s
termination_by s => s.length
decreasing_by
  · exact Nat.lt_succ_of_le this
  · exact Nat.lt_succ_self _

/-- The pieces of a string that begins with an escape. -/
theorem lenientPieces_escape {s : JsString} {n : ℕ} {rest : JsString}
    (h : escape? s = some (n, rest)) : lenientPieces s = .octet n :: lenientPieces rest := by
  obtain ⟨a, b, -, -, rfl, -⟩ := escape?_eq_some h
  rw [lenientPieces]
  split
  · next n' rest' h' =>
    rw [h] at h'
    cases h'
    rfl
  · next h' =>
    rw [h] at h'
    cases h'

/-- The pieces of a string that begins with none. -/
theorem lenientPieces_unit {u : UInt16} {s : JsString} (h : escape? (u :: s) = none) :
    lenientPieces (u :: s) = .unit u :: lenientPieces s := by
  rw [lenientPieces]
  split
  · next n' rest' h' =>
    rw [h] at h'
    cases h'
  · rfl

/-- The string is made of an escape for each octet, with digits of either case. -/
inductive Escapes : List ℕ → JsString → Prop where
  | nil : Escapes [] []
  | cons {b : ℕ} {high low : UInt16} {bs : List ℕ} {s : JsString}
      (hhigh : hexDigit high = some (b / 16)) (hlow : hexDigit low = some (b % 16))
      (h : Escapes bs s) : Escapes (b :: bs) (37 :: high :: low :: s)

/-- Some of the characters of a string are percent-encoded; the escapes that it has stay. -/
inductive Encodes : JsString → JsString → Prop where
  | nil : Encodes [] []
  /-- A code unit that begins no escape stays. -/
  | keep {u : UInt16} {s s' : JsString} (hu : escape? (u :: s) = none) (h : Encodes s s') :
      Encodes (u :: s) (u :: s')
  /-- An escape stays. -/
  | escape {a b : UInt16} {s s' : JsString} (hab : (escape? (37 :: a :: b :: s)).isSome)
      (h : Encodes s s') : Encodes (37 :: a :: b :: s) (37 :: a :: b :: s')
  /-- A character that begins no escape is encoded. -/
  | encode {c : Char} {e s s' : JsString} (hc : escape? (unitsOfCodePoint c.toNat ++ s) = none)
      (he : Escapes (utf8 c.toNat) e) (h : Encodes s s') :
      Encodes (unitsOfCodePoint c.toNat ++ s) (e ++ s')

/-- A hexadecimal digit that a string begins with after encoding began it before. -/
theorem Encodes.of_digit {s s' : JsString} {a : UInt16} (h : Encodes s (a :: s'))
    (ha : hexDigit a ≠ none) : ∃ t, s = a :: t ∧ Encodes t s' := by
  have hpercent : hexDigit 37 = none := by decide
  generalize hs : a :: s' = r at h
  cases h with
  | nil => cases hs
  | keep hu h =>
    cases hs
    exact ⟨_, rfl, h⟩
  | escape hab h =>
    cases hs
    exact absurd hpercent ha
  | encode hc he h =>
    rename_i c e t t'
    obtain ⟨-, b, bs, hb, -⟩ := exists_head c
    rw [hb] at he
    cases he
    cases hs
    exact absurd hpercent ha

/-- A `%` that begins no escape begins none after what follows it is encoded. -/
theorem Encodes.escape?_cons {u : UInt16} {s s' : JsString} (h : Encodes s s')
    (hu : escape? (u :: s) = none) : escape? (u :: s') = none := by
  by_contra hsome
  obtain ⟨⟨n, rest⟩, hesc⟩ := Option.ne_none_iff_exists'.mp hsome
  obtain ⟨a, b, high, low, hs, ha, hb, -⟩ := escape?_eq_some hesc
  obtain ⟨rfl, rfl⟩ := List.cons.inj hs
  obtain ⟨t, rfl, ht⟩ := h.of_digit (by simp [ha])
  obtain ⟨t', rfl, -⟩ := ht.of_digit (by simp [hb])
  rw [escape?_of_digits ha hb] at hu
  cases hu

/-- The pieces of escapes are their octets. -/
theorem lenientPieces_escapes {bs : List ℕ} {e : JsString} (he : Escapes bs e) (s : JsString) :
    lenientPieces (e ++ s) = bs.map .octet ++ lenientPieces s := by
  induction he with
  | nil => rfl
  | @cons b high low bs e hhigh hlow he ih =>
    have hesc := escape?_of_digits hhigh hlow (e ++ s)
    have hb : 16 * (b / 16) + b % 16 = b := by omega
    rw [hb] at hesc
    rw [List.cons_append, List.cons_append, List.cons_append, lenientPieces_escape hesc, ih]
    rfl

/-- The pieces of a character that begins no escape are its code units. -/
theorem lenientPieces_units {c : Char} {s : JsString}
    (hc : escape? (unitsOfCodePoint c.toNat ++ s) = none) :
    lenientPieces (unitsOfCodePoint c.toNat ++ s) =
      (unitsOfCodePoint c.toNat).map .unit ++ lenientPieces s := by
  generalize c.toNat = cp at hc
  unfold unitsOfCodePoint at hc ⊢
  split_ifs at hc ⊢ with hcp
  · exact lenientPieces_unit hc
  · -- The second unit is a surrogate, so it is no `%`.
    have hlow : UInt16.ofNat (0xDC00 + cp % 0x400) ≠ 37 := by
      intro heq
      have hval := congrArg UInt16.toNat heq
      have h37 : (37 : UInt16).toNat = 37 := rfl
      rw [UInt16.toNat_ofNat', h37] at hval
      omega
    have hunit := escape?_of_ne hlow s
    have hfirst : ∀ u v : UInt16, escape? ([u, v] ++ s) = none →
        lenientPieces ([u, v] ++ s) = .unit u :: lenientPieces (v :: s) := fun u v huv =>
      lenientPieces_unit huv
    rw [hfirst _ _ hc, lenientPieces_unit hunit]
    rfl

/-- Encoding recodes the pieces. -/
theorem Encodes.recodes {s s' : JsString} (h : Encodes s s') :
    Recodes (lenientPieces s) (lenientPieces s') := by
  induction h with
  | nil =>
    rw [lenientPieces]
    exact .nil
  | keep hu h ih =>
    rw [lenientPieces_unit hu, lenientPieces_unit (h.escape?_cons hu)]
    exact .keep _ ih
  | @escape a b s s' hab h ih =>
    obtain ⟨⟨n, rest⟩, hesc⟩ := Option.isSome_iff_exists.mp hab
    obtain ⟨a', b', high, low, hs, ha, hb, rfl⟩ := escape?_eq_some hesc
    cases hs
    rw [lenientPieces_escape hesc, lenientPieces_escape (escape?_of_digits ha hb s')]
    exact .keep _ ih
  | @encode c e s s' hc he h ih =>
    rw [lenientPieces_units hc, lenientPieces_escapes he]
    exact .encode c ih

/-- Decoding a string; a `%` that begins no escape stays. -/
def lenientDecode (s : JsString) : Option JsString := decodePieces (lenientPieces s)

/-- A string decodes as before after some of its characters are encoded. -/
theorem Encodes.lenientDecode_eq {s s' : JsString} (h : Encodes s s') :
    lenientDecode s = lenientDecode s' :=
  decodePieces_recodes h.recodes

/-- `pieces` of a string that begins with an escape. -/
theorem pieces_escape {s : JsString} {n : ℕ} {rest : JsString} (h : escape? s = some (n, rest)) :
    pieces s = (pieces rest).map (.octet n :: ·) := by
  obtain ⟨a, b, high, low, rfl, ha, hb, rfl⟩ := escape?_eq_some h
  cases hrest : pieces rest <;> simp [pieces, ha, hb, hrest]

/-- `pieces` of a string that begins with none. -/
theorem pieces_unit {u : UInt16} {s : JsString} (h : escape? (u :: s) = none) :
    pieces (u :: s) = if u = 37 then none else (pieces s).map (.unit u :: ·) := by
  rw [pieces.eq_def]
  split_ifs with hu
  · rcases s with _ | ⟨a, _ | ⟨b, s⟩⟩
    · simp [hu]
    · simp [hu]
    · cases ha : hexDigit a <;> cases hb : hexDigit b <;> simp_all [escape?]
  · simp [hu]

/-- The pieces of a string, when no `%` is left; none otherwise. -/
theorem pieces_eq (s : JsString) :
    pieces s = if .unit 37 ∈ lenientPieces s then none else some (lenientPieces s) := by
  induction hlen : s.length using Nat.strongRecOn generalizing s with
  | _ n ih =>
    subst hlen
    cases s with
    | nil =>
      rw [lenientPieces]
      rfl
    | cons u s =>
      cases hesc : escape? (u :: s) with
      | some p =>
        obtain ⟨n, rest⟩ := p
        have hlt : rest.length < (u :: s).length := by
          obtain ⟨a, b, -, -, hs, -⟩ := escape?_eq_some hesc
          rw [hs]
          simp only [List.length_cons]
          omega
        rw [pieces_escape hesc, lenientPieces_escape hesc, ih rest.length hlt rest rfl]
        split_ifs <;> simp_all
      | none =>
        rw [pieces_unit hesc, lenientPieces_unit hesc, ih s.length (by simp) s rfl]
        split_ifs <;> simp_all

/-- The pieces after some continuations have the units that were there before. -/
theorem mem_of_continuations {u : UInt16} {n : ℕ} {ps rest : List Piece} {cs : List ℕ}
    (h : continuations n ps = some (cs, rest)) (hu : .unit u ∈ ps) :
    .unit u ∈ rest ∧ rest.length ≤ ps.length := by
  induction n generalizing ps cs with
  | zero =>
    cases h
    exact ⟨hu, Nat.le_refl _⟩
  | succ n ih =>
    rcases ps with _ | ⟨v | b, ps⟩
    · cases h
    · cases h
    · simp only [continuations, Option.bind_eq_bind, Option.bind_eq_some_iff] at h
      obtain ⟨c, -, ⟨cs', rest'⟩, hrest, heq⟩ := h
      cases heq
      have hmem : Piece.unit u ∈ ps := by simpa using hu
      obtain ⟨hu', hlen⟩ := ih hrest hmem
      exact ⟨hu', Nat.le_succ_of_le hlen⟩

/-- A unit of the pieces is a unit of the string that they decode to. -/
theorem mem_of_decodePieces {u : UInt16} {ps : List Piece} (hu : .unit u ∈ ps) {d : JsString}
    (hd : decodePieces ps = some d) : u ∈ d := by
  induction hlen : ps.length using Nat.strongRecOn generalizing ps d with
  | _ n ih =>
    subst hlen
    rcases ps with _ | ⟨v | b, ps⟩
    · cases hu
    · rw [decodePieces, Option.map_eq_some_iff] at hd
      obtain ⟨s, hs, rfl⟩ := hd
      rcases List.mem_cons.mp hu with heq | hu
      · cases heq
        exact List.mem_cons_self
      · exact List.mem_cons_of_mem _ (ih ps.length (by simp) hu hs rfl)
    · rw [decodePieces_octet] at hd
      simp only [Option.bind_eq_bind, Option.bind_eq_some_iff] at hd
      obtain ⟨n, -, ⟨cs, rest⟩, hrest, cp, -, s, hs, heq⟩ := hd
      cases heq
      have hmem : Piece.unit u ∈ ps := by simpa using hu
      obtain ⟨hu', hlen⟩ := mem_of_continuations hrest hmem
      exact List.mem_append_right _
        (ih rest.length (by simp only [List.length_cons]; omega) hu' hs rfl)

/-- A string without a `%` is its own pieces. -/
theorem lenientPieces_of_notMem {s : JsString} (h : 37 ∉ s) : lenientPieces s = s.map .unit := by
  induction s with
  | nil =>
    rw [lenientPieces]
    rfl
  | cons u s ih =>
    obtain ⟨hu, hs⟩ := not_or.mp (List.mem_cons.not.mp h)
    rw [lenientPieces_unit (escape?_of_ne (Ne.symm hu) s), ih hs]
    rfl

/-- A string without a `%` decodes to itself. -/
theorem decodeURIComponent_of_notMem {s : JsString} (h : 37 ∉ s) :
    decodeURIComponent s = some s := by
  have hdecode := decodePieces_units s []
  rw [List.append_nil] at hdecode
  rw [decodeURIComponent, pieces_eq, lenientPieces_of_notMem h, if_neg (by simpa using h)]
  simpa [decodePieces] using hdecode

/-- Where `decodeURIComponent` returns, decoding leniently gives the same. Where it throws, the
string has a `%`, and so has what decoding leniently may give. -/
theorem decodeURIComponent_cases (s : JsString) :
    (∃ d, decodeURIComponent s = some d ∧ lenientDecode s = some d) ∨
      decodeURIComponent s = none ∧ 37 ∈ s ∧ ∀ d, lenientDecode s = some d → 37 ∈ d := by
  cases hs : decodeURIComponent s with
  | some d =>
    refine Or.inl ⟨d, rfl, ?_⟩
    rw [decodeURIComponent, pieces_eq] at hs
    split_ifs at hs
    · cases hs
    · exact hs
  | none =>
    have hmem : 37 ∈ s := by
      by_contra hnot
      rw [decodeURIComponent_of_notMem hnot] at hs
      cases hs
    refine Or.inr ⟨rfl, hmem, ?_⟩
    intro d hd
    rw [decodeURIComponent, pieces_eq] at hs
    split_ifs at hs with hunit
    · exact mem_of_decodePieces hunit hd
    · exact absurd (hs.symm.trans hd) (by simp)

end SimsysMetrics.Lib
