import Mathlib.Data.List.Basic
import Mathlib.Data.Fintype.Prod

/-!
# Dotted quads

The dotted-decimal form of an IPv4 address: four octets without leading zeros. `scan` reads it from
left to right, as `net/netip` does, and `parse` is its result. It accepts the texts of quads and no
others, and reads each as its own quad (`parse_eq_some_iff`).
-/

namespace SimsysMetrics.Lib.DottedQuad

/-! ## Digits -/

/-- A decimal digit. -/
def digit (k : ℕ) : Char := Char.ofNat (48 + k)

/-- The value of a decimal digit. -/
def digit? (c : Char) : Option ℕ := if '0' ≤ c ∧ c ≤ '9' then some (c.toNat - 48) else none

/-- The digits are read back. -/
theorem digit?_digit : ∀ k < 10, digit? (digit k) = some k := by
  decide

/-- Only digits are read. -/
theorem eq_digit {c : Char} {k : ℕ} (h : digit? c = some k) : k < 10 ∧ c = digit k := by
  rw [digit?] at h
  split_ifs at h with hrange
  obtain ⟨hlow, hhigh⟩ := hrange
  have hlow' : 48 ≤ c.toNat := UInt32.le_iff_toNat_le.mp (Char.le_def.mp hlow)
  have hhigh' : c.toNat ≤ 57 := UInt32.le_iff_toNat_le.mp (Char.le_def.mp hhigh)
  obtain rfl := Option.some.inj h
  refine ⟨by omega, ?_⟩
  rw [digit, Nat.add_sub_of_le hlow', Char.ofNat_toNat]

/-- The decimal form of an octet. -/
def octet (n : ℕ) : List Char :=
  if n < 10 then [digit n]
  else if n < 100 then [digit (n / 10), digit (n % 10)]
  else [digit (n / 100), digit (n / 10 % 10), digit (n % 10)]

/-- It is how a number is printed. -/
theorem octet_eq_toString : ∀ n : Fin 256, octet n = (toString n.val).toList := by
  decide +kernel

/-- One more digit of an octet. -/
theorem octet_append {v k : ℕ} (hv : v ≠ 0) (hk : k < 10) (hle : 10 * v + k < 256) :
    octet (10 * v + k) = octet v ++ [digit k] := by
  have htens : (10 * v + k) / 10 = v := by omega
  have hones : (10 * v + k) % 10 = k := by omega
  have hhundreds : (10 * v + k) / 100 = v / 10 := by omega
  unfold octet
  rw [htens, hones, hhundreds, if_neg (by omega : ¬ 10 * v + k < 10)]
  by_cases hten : v < 10
  · rw [if_pos (by omega : 10 * v + k < 100), if_pos hten]
    rfl
  · rw [if_neg (by omega : ¬ 10 * v + k < 100), if_neg hten, if_pos (by omega : v < 100)]
    rfl

/-! ## Scanning -/

/-- `parseIPv4Fields`, from the left: the value of the field that is being read, if it has a digit,
and the fields before it. -/
def scan : List Char → Option ℕ → List ℕ → Option (List ℕ)
  | [], none, _ => none
  | [], some v, fields => if fields.length = 3 then some (fields ++ [v]) else none
  | c :: cs, val, fields =>
    match digit? c with
    | some k =>
      match val with
      | none => scan cs (some k) fields
      | some v =>
        -- An octet with a leading zero has no further digit.
        if v = 0 ∨ 255 < 10 * v + k then none else scan cs (some (10 * v + k)) fields
    | none =>
      if c = '.' then
        match val with
        | none => none
        | some v => if fields.length = 3 then none else scan cs none (fields ++ [v])
      else none

/-- The text of some octets. -/
def text (octets : List ℕ) : List Char := ['.'].intercalate (octets.map octet)

/-- The first digit of a field. -/
theorem scan_digit {k : ℕ} (hk : k < 10) (cs : List Char) (fields : List ℕ) :
    scan (digit k :: cs) none fields = scan cs (some k) fields := by
  rw [scan, digit?_digit k hk]

/-- A further digit of a field. -/
theorem scan_further {v k : ℕ} (hv : v ≠ 0) (hk : k < 10) (hle : 10 * v + k < 256)
    (cs : List Char) (fields : List ℕ) :
    scan (digit k :: cs) (some v) fields = scan cs (some (10 * v + k)) fields := by
  rw [scan, digit?_digit k hk]
  exact if_neg (by omega)

/-- The digits of an octet are read. -/
theorem scan_octet {v : ℕ} (hv : v < 256) (cs : List Char) (fields : List ℕ) :
    scan (octet v ++ cs) none fields = scan cs (some v) fields := by
  unfold octet
  split_ifs with hten hhundred
  · exact scan_digit hten cs fields
  · show scan (digit (v / 10) :: digit (v % 10) :: cs) none fields = _
    rw [scan_digit (by omega), scan_further (by omega) (by omega) (by omega), Nat.div_add_mod]
  · show scan (digit (v / 100) :: digit (v / 10 % 10) :: digit (v % 10) :: cs) none fields = _
    have htens : 10 * (v / 100) + v / 10 % 10 = v / 10 := by omega
    rw [scan_digit (by omega), scan_further (by omega) (by omega) (by omega), htens,
      scan_further (by omega) (by omega) (by omega), Nat.div_add_mod]

/-- A field that is followed by others. -/
theorem scan_dot {v : ℕ} {fields : List ℕ} (hfields : fields.length ≠ 3) (cs : List Char) :
    scan ('.' :: cs) (some v) fields = scan cs none (fields ++ [v]) :=
  if_neg hfields

/-- The text of one octet. -/
theorem text_singleton (v : ℕ) : text [v] = octet v := by
  simp [text, List.intercalate]

/-- The text of an octet and of those after it. -/
theorem text_cons (v : ℕ) {octets : List ℕ} (h : octets ≠ []) :
    text (v :: octets) = octet v ++ '.' :: text octets := by
  obtain ⟨w, rest, rfl⟩ := List.exists_cons_of_ne_nil h
  rfl

/-- Four octets are read. -/
theorem scan_text {octets : List ℕ} (h : octets ≠ []) (hlt : ∀ v ∈ octets, v < 256)
    (fields : List ℕ) (hlength : fields.length + octets.length = 4) :
    scan (text octets) none fields = some (fields ++ octets) := by
  induction octets generalizing fields with
  | nil => exact absurd rfl h
  | cons v octets ih =>
    have hv := hlt v List.mem_cons_self
    cases octets with
    | nil =>
      rw [text_singleton, ← List.append_nil (octet v), scan_octet hv]
      exact if_pos (by simpa using hlength)
    | cons w rest =>
      rw [text_cons v (List.cons_ne_nil _ _), scan_octet hv, scan_dot (by simp at hlength; omega),
        ih (List.cons_ne_nil _ _) (fun u hu => hlt u (List.mem_cons_of_mem _ hu)) _
          (by simp at hlength ⊢; omega), List.append_assoc]
      rfl

/-- What is read is a text: of the field that is being read and those after it, or of the fields
that are still to come. -/
theorem of_scan (cs : List Char) :
    (∀ {v : ℕ} {fields r : List ℕ}, v < 256 → scan cs (some v) fields = some r →
      ∃ octets, octets ≠ [] ∧ octet v ++ cs = text octets ∧ r = fields ++ octets ∧
        (∀ u ∈ octets, u < 256) ∧ r.length = 4) ∧
    ∀ {fields r : List ℕ}, scan cs none fields = some r →
      ∃ octets, octets ≠ [] ∧ cs = text octets ∧ r = fields ++ octets ∧
        (∀ u ∈ octets, u < 256) ∧ r.length = 4 := by
  induction cs with
  | nil =>
    -- The text ends within a field, which is the last of four.
    refine ⟨fun {v fields r} hv h => ?_, fun h => nomatch h⟩
    rw [scan] at h
    split_ifs at h with hlength
    obtain rfl := Option.some.inj h
    refine ⟨[v], List.cons_ne_nil _ _, ?_, rfl, ?_, ?_⟩
    · rw [text_singleton, List.append_nil]
    · exact List.forall_mem_singleton.mpr hv
    · rw [List.length_append, hlength]
      rfl
  | cons c cs ih =>
    obtain ⟨ihSome, ihNone⟩ := ih
    constructor
    · intro v fields r hv h
      rw [scan] at h
      cases hc : digit? c with
      | none =>
        rw [hc] at h
        dsimp only at h
        -- A dot ends the field that is being read; any other character is refused.
        split_ifs at h with hdot hfields
        subst hdot
        obtain ⟨octets, hne, rfl, rfl, hlt, hlength⟩ := ihNone h
        refine ⟨v :: octets, List.cons_ne_nil _ _, (text_cons v hne).symm, ?_, ?_, hlength⟩
        · rw [List.append_assoc]
          rfl
        · exact List.forall_mem_cons.mpr ⟨hv, hlt⟩
      | some k =>
        rw [hc] at h
        dsimp only at h
        -- A digit continues the field, unless it has a leading zero or exceeds 255.
        split_ifs at h with hfull
        obtain ⟨hzero, hle⟩ := not_or.mp hfull
        obtain ⟨hk, rfl⟩ := eq_digit hc
        obtain ⟨octets, hne, htext, hrest⟩ := ihSome (by omega) h
        refine ⟨octets, hne, ?_, hrest⟩
        rw [← htext, octet_append hzero hk (by omega), List.append_assoc]
        rfl
    · -- A field has to begin with a digit.
      intro fields r h
      rw [scan] at h
      cases hc : digit? c with
      | none =>
        rw [hc] at h
        dsimp only at h
        split_ifs at h
      | some k =>
        rw [hc] at h
        obtain ⟨hk, rfl⟩ := eq_digit hc
        obtain ⟨octets, hne, htext, hrest⟩ := ihSome (by omega) h
        refine ⟨octets, hne, ?_, hrest⟩
        rw [← htext, octet, if_pos hk]
        rfl

/-! ## Quads -/

/-- An IPv4 address. -/
abbrev Quad := Fin 256 × Fin 256 × Fin 256 × Fin 256

/-- Its text. -/
def Quad.text (q : Quad) : List Char := DottedQuad.text [q.1, q.2.1, q.2.2.1, q.2.2.2]

/-- The quad of a dotted-decimal form. -/
def parse (cs : List Char) : Option Quad :=
  match scan cs none [] with
  | some [a, b, c, d] =>
    some (Fin.ofNat 256 a, Fin.ofNat 256 b, Fin.ofNat 256 c, Fin.ofNat 256 d)
  | some _ | none => none

/-- The texts of quads are accepted, each as its own quad, and no others. -/
theorem parse_eq_some_iff {cs : List Char} {q : Quad} : parse cs = some q ↔ cs = q.text := by
  constructor
  · intro h
    rw [parse] at h
    cases hscan : scan cs none [] with
    | none =>
      rw [hscan] at h
      cases h
    | some r =>
      obtain ⟨octets, -, htext, hr, hlt, hlength⟩ := (of_scan cs).2 hscan
      obtain rfl : r = octets := hr
      match r, hlength with
      | [a, b, c, d], _ =>
        rw [hscan] at h
        obtain rfl := Option.some.inj h
        have hmod (v : ℕ) (hv : v ∈ [a, b, c, d]) : v % 256 = v := Nat.mod_eq_of_lt (hlt v hv)
        rw [htext, Quad.text]
        simp only [Fin.val_ofNat, hmod a (by simp), hmod b (by simp), hmod c (by simp),
          hmod d (by simp)]
  · rintro rfl
    obtain ⟨a, b, c, d⟩ := q
    have hscan : scan (DottedQuad.text [a, b, c, d]) none [] = some [a.val, b.val, c.val, d.val] :=
      scan_text (List.cons_ne_nil _ _) (by simp) [] rfl
    rw [parse, Quad.text, hscan]
    simp

end SimsysMetrics.Lib.DottedQuad
