import Mathlib.Data.Set.Card
import Mathlib.Data.Set.Finite.Range
import SimsysMetrics.Lib.DottedQuad

/-!
# Labels of subnets in the Go lane

`IPToSubnet24` of `go/helpers.go`. `net.ParseIP` and `To4` are those of the Go library: dotted quads
without leading zeros, and the forms of IPv6 without a zone. A text that is not valid UTF-8 is not
accepted there, so texts are sequences of characters.

The labels of `IPToSubnet24` are `other` and one for each network of 256 addresses, so there are
`2^24 + 1` of them whatever the clients send (`subnet_labels`).
-/

namespace SimsysMetrics.Go.Helpers

open Lib.DottedQuad (Quad digit octet)

/-- `OtherLabel`. -/
def otherLabel : String := "other"

/-! ## `net.ParseIP` -/

/-- An address by its eight fields of 16 bits; `ParseIP` returns all addresses in this form. -/
abbrev IP := List ℕ

/-- A hexadecimal digit. -/
def hex? (c : Char) : Option ℕ :=
  if '0' ≤ c ∧ c ≤ '9' then some (c.toNat - 48)
  else if 'a' ≤ c ∧ c ≤ 'f' then some (c.toNat - 87)
  else if 'A' ≤ c ∧ c ≤ 'F' then some (c.toNat - 55)
  else none

/-- A field of at most four digits. -/
def hextet (cs : List Char) : Option ℕ :=
  if cs = [] ∨ 4 < cs.length then none
  else (cs.mapM hex?).map fun digits => digits.foldl (16 * · + ·) 0

/-- The two fields of an IPv4 address. -/
def quadFields (q : Quad) : List ℕ := [256 * q.1 + q.2.1, 256 * q.2.2.1 + q.2.2.2]

/-- Fields between colons; `v4` allows an IPv4 address for the last two. -/
def fields (v4 : Bool) : List (List Char) → Option (List ℕ)
  | [] => some []
  | [last] =>
    match hextet last with
    | some n => some [n]
    | none => if v4 then (Lib.DottedQuad.parse last).map quadFields else none
  | field :: rest => do
    let n ← hextet field
    let ns ← fields v4 rest
    return n :: ns

/-- The texts between colons. -/
def betweenColons (cs : List Char) : List (List Char) := if cs = [] then [] else cs.splitOn ':'

/-- What stands before and after the first `::`. -/
def ellipsis : List Char → Option (List Char × List Char)
  | [] => none
  | ':' :: ':' :: rest => some ([], rest)
  | c :: cs => (ellipsis cs).map fun (before, after) => (c :: before, after)

/-- The IPv6 forms, without a zone. -/
def parseIPv6 (cs : List Char) : Option IP :=
  if '%' ∈ cs then none
  else
    match ellipsis cs with
    | none => do
      let all ← fields true (betweenColons cs)
      if all.length = 8 then some all else none
    | some (before, after) => do
      let left ← fields false (betweenColons before)
      let right ← fields true (betweenColons after)
      -- The `::` stands for one field at least.
      if left.length + right.length ≤ 7 then
        some (left ++ List.replicate (8 - (left.length + right.length)) 0 ++ right)
      else none

/-- An IPv4 address as an IPv6 one. -/
def mapped (q : Quad) : IP := [0, 0, 0, 0, 0, 65535] ++ quadFields q

/-- `net.ParseIP`. -/
def parseIP (cs : List Char) : Option IP :=
  match cs.find? fun c => c = '.' ∨ c = ':' ∨ c = '%' with
  | some '.' => (Lib.DottedQuad.parse cs).map mapped
  | some ':' => parseIPv6 cs
  | some _ | none => none

/-- The low byte. -/
def byte (n : ℕ) : Fin 256 := ⟨n % 256, Nat.mod_lt n (Nat.succ_pos 255)⟩

/-- `To4`. -/
def to4 : IP → Option Quad
  | [0, 0, 0, 0, 0, 65535, high, low] =>
    some (byte (high / 256), byte high, byte (low / 256), byte low)
  | _ => none

/-- The label of the network of an address. -/
def subnet (q : Quad) : String :=
  toString q.1.val ++ "." ++ toString q.2.1.val ++ "." ++ toString q.2.2.1.val ++ ".0/24"

/-- `IPToSubnet24`. -/
def ipToSubnet24 (ip : String) : String :=
  match parseIP ip.toList with
  | none => otherLabel
  | some parsed =>
    match to4 parsed with
    | none => otherLabel
    | some v4 => subnet v4

/-! ## The texts of quads -/

/-- An octet is printed with digits. -/
theorem exists_digit {v : ℕ} (hv : v < 256) {c : Char} (hc : c ∈ octet v) :
    ∃ k < 10, c = digit k := by
  unfold octet at hc
  split_ifs at hc with hten hhundred
  · exact ⟨v, hten, List.mem_singleton.mp hc⟩
  · rcases List.mem_cons.mp hc with rfl | hc
    · exact ⟨v / 10, by omega, rfl⟩
    · exact ⟨v % 10, by omega, List.mem_singleton.mp hc⟩
  · rcases List.mem_cons.mp hc with rfl | hc
    · exact ⟨v / 100, by omega, rfl⟩
    · rcases List.mem_cons.mp hc with rfl | hc
      · exact ⟨v / 10 % 10, by omega, rfl⟩
      · exact ⟨v % 10, by omega, List.mem_singleton.mp hc⟩

/-- The digits are no separators. -/
theorem digit_ne : ∀ k < 10, digit k ≠ '.' ∧ digit k ≠ ':' ∧ digit k ≠ '%' := by
  decide

/-- The text of a quad. -/
theorem text_quad (q : Quad) : q.text = octet q.1 ++ '.' :: (octet q.2.1 ++ '.' ::
    (octet q.2.2.1 ++ '.' :: octet q.2.2.2)) := by
  simp [Quad.text, Lib.DottedQuad.text, List.intercalate]

/-- It has digits and dots. -/
theorem mem_text {q : Quad} {c : Char} (hc : c ∈ q.text) : c = '.' ∨ ∃ k < 10, c = digit k := by
  rw [text_quad] at hc
  simp only [List.mem_append, List.mem_cons] at hc
  rcases hc with hc | rfl | hc | rfl | hc | rfl | hc
  · exact .inr (exists_digit q.1.isLt hc)
  · exact .inl rfl
  · exact .inr (exists_digit q.2.1.isLt hc)
  · exact .inl rfl
  · exact .inr (exists_digit q.2.2.1.isLt hc)
  · exact .inl rfl
  · exact .inr (exists_digit q.2.2.2.isLt hc)

/-- It has neither a colon nor a percent sign. -/
theorem text_separators (q : Quad) : ':' ∉ q.text ∧ '%' ∉ q.text := by
  constructor <;> intro hc
  · rcases mem_text hc with heq | ⟨k, hk, heq⟩
    · cases heq
    · exact (digit_ne k hk).2.1 heq.symm
  · rcases mem_text hc with heq | ⟨k, hk, heq⟩
    · cases heq
    · exact (digit_ne k hk).2.2 heq.symm

/-- `To4` gives back an IPv4 address. -/
theorem to4_mapped (q : Quad) : to4 (mapped q) = some q := by
  obtain ⟨a, b, c, d⟩ := q
  have high (a b : Fin 256) : byte ((256 * a.val + b.val) / 256) = a :=
    Fin.ext (by simp only [byte]; omega)
  have low (a b : Fin 256) : byte (256 * a.val + b.val) = b :=
    Fin.ext (by simp only [byte]; omega)
  show some (byte ((256 * a.val + b.val) / 256), byte (256 * a.val + b.val),
    byte ((256 * c.val + d.val) / 256), byte (256 * c.val + d.val)) = _
  rw [high, low, high, low]

/-- A dotted quad is an IPv4 address. -/
theorem parseIP_text (q : Quad) : parseIP q.text = some (mapped q) := by
  have hdigits : (octet q.1).find? (fun c => c = '.' ∨ c = ':' ∨ c = '%') = none := by
    refine List.find?_eq_none.mpr fun c hc => ?_
    obtain ⟨k, hk, rfl⟩ := exists_digit q.1.isLt hc
    obtain ⟨hdot, hcolon, hpercent⟩ := digit_ne k hk
    simp [hdot, hcolon, hpercent]
  have hfind : q.text.find? (fun c => c = '.' ∨ c = ':' ∨ c = '%') = some '.' := by
    rw [text_quad, List.find?_append, hdigits]
    rfl
  rw [parseIP, hfind]
  exact congrArg (Option.map mapped) (Lib.DottedQuad.parse_eq_some_iff.mpr rfl)

/-- An address without a colon is a dotted quad. -/
theorem of_parseIP {cs : List Char} {parsed : IP} (h : parseIP cs = some parsed) :
    (∃ q : Quad, cs = q.text ∧ parsed = mapped q) ∨ ':' ∈ cs := by
  unfold parseIP at h
  split at h
  · obtain ⟨q, hq, rfl⟩ := Option.map_eq_some_iff.mp h
    exact .inl ⟨q, Lib.DottedQuad.parse_eq_some_iff.mp hq, rfl⟩
  · rename_i hfind
    exact .inr (List.mem_of_find?_eq_some hfind)
  · cases h
  · cases h

/-- A dotted quad is no field of an IPv6 address. -/
theorem hextet_text (q : Quad) : hextet q.text = none := by
  have hlength : 4 < q.text.length := by
    have hoctet (v : ℕ) : 1 ≤ (octet v).length := by
      unfold octet
      split_ifs <;> exact Nat.le_of_ble_eq_true rfl
    have ha := hoctet q.1
    have hb := hoctet q.2.1
    have hc := hoctet q.2.2.1
    have hd := hoctet q.2.2.2
    rw [text_quad]
    simp only [List.length_append, List.length_cons]
    omega
  exact if_pos (.inr hlength)

/-- The mapped form is the same address. -/
theorem parseIP_mapped (q : Quad) : parseIP ("::ffff:".toList ++ q.text) = some (mapped q) := by
  obtain ⟨hcolon, hpercent⟩ := text_separators q
  have hsplit : betweenColons ("ffff:".toList ++ q.text) = ["ffff".toList, q.text] := by
    show ("ffff".toList ++ ':' :: q.text).splitOn ':' = _
    rw [List.splitOn_append_cons_self, List.splitOn_eq_singleton hcolon,
      List.splitOn_eq_singleton (by decide)]
    rfl
  have hlast : fields true [q.text] = some (quadFields q) := by
    rw [fields, hextet_text, Lib.DottedQuad.parse_eq_some_iff.mpr rfl]
    rfl
  have hfields : fields true ["ffff".toList, q.text] = some (65535 :: quadFields q) := by
    show (hextet "ffff".toList >>= fun n => fields true [q.text] >>= fun ns => some (n :: ns)) = _
    have hffff : hextet "ffff".toList = some 65535 := by decide +kernel
    rw [hffff, hlast]
    rfl
  show parseIPv6 ("::ffff:".toList ++ q.text) = _
  rw [parseIPv6, if_neg (by simp [hpercent])]
  show (do
    let left ← fields false (betweenColons [])
    let right ← fields true (betweenColons ("ffff:".toList ++ q.text))
    if left.length + right.length ≤ 7 then
      some (left ++ List.replicate (8 - (left.length + right.length)) 0 ++ right)
    else none) = _
  rw [hsplit, hfields]
  rfl

/-! ## Labels -/

/-- The label of a network has its octets. -/
theorem toList_subnet (q : Quad) :
    (subnet q).toList = Quad.text (q.1, q.2.1, q.2.2.1, 0) ++ "/24".toList := by
  have hzero : octet (0 : Fin 256) = ['0'] := rfl
  rw [subnet, text_quad]
  simp only [String.toList_append, Lib.DottedQuad.octet_eq_toString, hzero]
  simp

/-- The labels of two addresses are the same where they are in one network. -/
theorem subnet_inj {q q' : Quad} : subnet q = subnet q' ↔
    q.1 = q'.1 ∧ q.2.1 = q'.2.1 ∧ q.2.2.1 = q'.2.2.1 := by
  constructor
  · intro h
    have htext := congrArg String.toList h
    rw [toList_subnet, toList_subnet] at htext
    have hparse := Lib.DottedQuad.parse_eq_some_iff.mpr (List.append_cancel_right htext).symm
    rw [Lib.DottedQuad.parse_eq_some_iff.mpr rfl] at hparse
    simpa [and_assoc] using hparse.symm
  · rintro ⟨ha, hb, hc⟩
    rw [subnet, subnet, ha, hb, hc]

/-- A network is not `other`. -/
theorem subnet_ne (q : Quad) : subnet q ≠ otherLabel := by
  intro h
  have hslash : '/' ∈ (subnet q).toList := by
    rw [toList_subnet]
    exact List.mem_append_right _ (by decide)
  rw [h] at hslash
  exact absurd hslash (by decide)

/-- The labels of `IPToSubnet24`:
1. A dotted quad and its mapped form have the label of its network.
2. Any other text than these has the label `other`, or it has a colon and the label of a network.
3. Two addresses have one label where they share their first three octets.
4. There are `2^24 + 1` labels. -/
theorem subnet_labels :
    (∀ q : Quad, ipToSubnet24 (String.ofList q.text) = subnet q ∧
      ipToSubnet24 (String.ofList ("::ffff:".toList ++ q.text)) = subnet q) ∧
    (∀ ip, ipToSubnet24 ip = otherLabel ∨
      ∃ q, ipToSubnet24 ip = subnet q ∧ (ip.toList = q.text ∨ ':' ∈ ip.toList)) ∧
    (∀ q q', subnet q = subnet q' ↔ q.1 = q'.1 ∧ q.2.1 = q'.2.1 ∧ q.2.2.1 = q'.2.2.1) ∧
    (Set.range ipToSubnet24).ncard = 2 ^ 24 + 1 := by
  have htexts (q : Quad) : ipToSubnet24 (String.ofList q.text) = subnet q ∧
      ipToSubnet24 (String.ofList ("::ffff:".toList ++ q.text)) = subnet q := by
    rw [ipToSubnet24, ipToSubnet24, String.toList_ofList, String.toList_ofList, parseIP_text,
      parseIP_mapped]
    dsimp only
    rw [to4_mapped]
    exact ⟨rfl, rfl⟩
  have hlabels (ip : String) : ipToSubnet24 ip = otherLabel ∨
      ∃ q, ipToSubnet24 ip = subnet q ∧ (ip.toList = q.text ∨ ':' ∈ ip.toList) := by
    rw [ipToSubnet24]
    cases hparse : parseIP ip.toList with
    | none => exact .inl rfl
    | some parsed =>
      dsimp only
      cases hv4 : to4 parsed with
      | none => exact .inl rfl
      | some v4 =>
        refine .inr ⟨v4, rfl, ?_⟩
        rcases of_parseIP hparse with ⟨q, htext, rfl⟩ | hcolon
        · -- The text is a dotted quad; else it has a colon.
          rw [to4_mapped] at hv4
          obtain rfl := Option.some.inj hv4
          exact .inl htext
        · exact .inr hcolon
  refine ⟨htexts, hlabels, fun _ _ => subnet_inj, ?_⟩
  -- The labels are the sentinel and one for each choice of the first three octets.
  have hrange : Set.range ipToSubnet24 = insert otherLabel
      (Set.range fun n : Fin 256 × Fin 256 × Fin 256 => subnet (n.1, n.2.1, n.2.2, 0)) := by
    ext label
    constructor
    · rintro ⟨ip, rfl⟩
      rcases hlabels ip with hother | ⟨q, hq, -⟩
      · exact .inl hother
      · exact .inr ⟨(q.1, q.2.1, q.2.2.1), (subnet_inj.mpr ⟨rfl, rfl, rfl⟩).trans hq.symm⟩
    · rintro (rfl | ⟨n, rfl⟩)
      · exact ⟨"", by decide +kernel⟩
      · exact ⟨_, (htexts (n.1, n.2.1, n.2.2, 0)).1⟩
  have hinjective : Function.Injective
      fun n : Fin 256 × Fin 256 × Fin 256 => subnet (n.1, n.2.1, n.2.2, 0) := by
    rintro ⟨a, b, c⟩ ⟨a', b', c'⟩ h
    obtain ⟨rfl, rfl, rfl⟩ := subnet_inj.mp h
    rfl
  rw [hrange, Set.ncard_insert_of_notMem _ (Set.finite_range _),
    Set.ncard_range_of_injective hinjective]
  · rw [Nat.card_prod, Nat.card_prod, Nat.card_fin]
    decide
  · rintro ⟨n, hn⟩
    exact subnet_ne _ hn

end SimsysMetrics.Go.Helpers
