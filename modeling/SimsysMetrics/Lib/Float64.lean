import Mathlib.Algebra.Order.Ring.Int
import Mathlib.Data.Nat.Log
import Mathlib.Data.Rat.Defs

/-!
# Integers as 64-bit floats

A sample's value is a 64-bit float, so a count that is written to it is converted. `F64` has the
float values that a count can become: the integral ones, by the integer that they represent, the
infinities, and not-a-number. `ofInt?` rounds an integer to the nearest float, ties to the even
one, and has no value where the rounding leaves the range of the format. Below `2^53` the
conversion is exact (`ofInt?_of_lt`).

The result of an operation on floats is the exact one, rounded: `roundRat` rounds a rational.
-/

namespace SimsysMetrics.Lib

/-- A float that a count can become. -/
inductive F64 where
  /-- The float that represents the integer `n`. -/
  | int (n : ℤ)
  /-- Positive infinity. -/
  | posInf
  /-- Negative infinity. -/
  | negInf
  /-- Not a number. -/
  | nan
deriving DecidableEq, Repr

namespace F64

/-- `m / 2^k` rounded to the nearest integer, ties to the even one. -/
def halfEven (m k : ℕ) : ℕ :=
  if 2 * (m % 2^k) < 2^k ∨ 2 * (m % 2^k) = 2^k ∧ m / 2^k % 2 = 0 then m / 2^k else m / 2^k + 1

/-- A magnitude rounded to 53 significant bits. -/
def round53 (m : ℕ) : ℕ := halfEven m (m.log2 - 52) * 2^(m.log2 - 52)

/-- A rational rounded to 53 significant bits, for magnitudes in the range of the normal floats. The
quotient is cut off far below the last bit that is kept; its own last bit says whether anything was
cut off, so that only an exact tie is taken for one. -/
def roundRat (q : ℚ) : ℚ :=
  let k := q.den.log2 + 55
  let m := 2 * (q.num.natAbs * 2^k / q.den) + if q.num.natAbs * 2^k % q.den = 0 then 0 else 1
  q.num.sign * (round53 m : ℚ) / (2^(k + 1) : ℕ)

/-- The exponent of the first power of two that the format cannot represent. It is irreducible, so
that no proof computes the power. -/
@[irreducible]
def overflowExp : ℕ := 1024

/-- The float nearest to an integer whose rounding is in the format's range. -/
def ofInt (n : ℤ) : F64 := .int (n.sign * round53 n.natAbs)

/-- The float nearest to `n`, and no value when that leaves the format's range. -/
def ofInt? (n : ℤ) : Option F64 :=
  if round53 n.natAbs < 2^overflowExp then some (ofInt n) else none

/-- A magnitude of at most 53 bits is not rounded. -/
theorem round53_of_lt {m : ℕ} (h : m < 2^53) : round53 m = m := by
  have hk : m.log2 - 52 = 0 := by
    rcases Nat.eq_zero_or_pos m with rfl | hpos
    · rfl
    · have := (Nat.log2_lt hpos.ne').mpr h
      omega
  simp [round53, halfEven, hk, Nat.mod_one]

/-- Below `2^53` in magnitude, the float of an integer is the integer. -/
theorem ofInt?_of_lt {n : ℤ} (h : n.natAbs < 2^53) : ofInt? n = some (.int n) := by
  have hlt : n.natAbs < 2^overflowExp :=
    lt_of_lt_of_le h (Nat.pow_le_pow_right (by decide) (by unfold overflowExp; decide))
  rw [ofInt?, ofInt, round53_of_lt h, if_pos hlt, Int.sign_mul_natAbs]

/-- A power of two is its own rounding. -/
theorem round53_two_pow (e : ℕ) : round53 (2^e) = 2^e := by
  rcases Nat.lt_or_ge e 53 with h | h
  · exact round53_of_lt (Nat.pow_lt_pow_right (by decide) h)
  · have hdvd : 2^(e - 52) ∣ 2^e := Nat.pow_dvd_pow 2 (Nat.sub_le e 52)
    have hpos : 2 * 0 < 2^(e - 52) := Nat.two_pow_pos _
    rw [round53, Nat.log2_two_pow, halfEven, Nat.mod_eq_zero_of_dvd hdvd, if_pos (Or.inl hpos),
      Nat.div_mul_cancel hdvd]

/-- The unit of a rounding is not above the magnitude. -/
theorem two_pow_le {m : ℕ} (hpos : 0 < m) : 2^(m.log2 - 52) ≤ m := by
  calc 2^(m.log2 - 52)
      ≤ 2^m.log2 := Nat.pow_le_pow_right (by decide) (Nat.sub_le _ _)
    _ ≤ m := Nat.log2_self_le hpos.ne'

/-- A magnitude above zero is not rounded to zero. -/
theorem round53_pos {m : ℕ} (hpos : 0 < m) : 0 < round53 m := by
  have hquot : 0 < m / 2^(m.log2 - 52) := Nat.div_pos (two_pow_le hpos) (Nat.two_pow_pos _)
  have hround : 0 < halfEven m (m.log2 - 52) := by
    unfold halfEven
    split_ifs <;> omega
  exact Nat.mul_pos hround (Nat.two_pow_pos _)

/-- Rounding at most doubles a magnitude. -/
theorem round53_le (m : ℕ) : round53 m ≤ 2 * m := by
  rcases Nat.eq_zero_or_pos m with rfl | hpos
  · decide
  have hround : halfEven m (m.log2 - 52) ≤ m / 2^(m.log2 - 52) + 1 := by
    unfold halfEven
    split_ifs <;> omega
  have hquot : m / 2^(m.log2 - 52) * 2^(m.log2 - 52) ≤ m := Nat.div_mul_le_self _ _
  have hunit : 2^(m.log2 - 52) ≤ m := two_pow_le hpos
  calc round53 m
      ≤ (m / 2^(m.log2 - 52) + 1) * 2^(m.log2 - 52) := Nat.mul_le_mul_right _ hround
    _ = m / 2^(m.log2 - 52) * 2^(m.log2 - 52) + 2^(m.log2 - 52) := Nat.succ_mul _ _
    _ ≤ 2 * m := by omega

/-- A float other than zero is not zero. -/
theorem ofInt_eq_zero_iff {n : ℤ} : ofInt n = .int 0 ↔ n = 0 := by
  rw [ofInt, int.injEq, Int.mul_eq_zero, Int.sign_eq_zero_iff_zero, Int.natCast_eq_zero]
  constructor
  · rintro (hn | hround)
    · exact hn
    · by_contra hn
      have hpos : 0 < round53 n.natAbs := round53_pos (Int.natAbs_pos.mpr hn)
      omega
  · exact Or.inl

/-- An integer that has a float has the rounded one. -/
theorem ofInt?_of_isSome {n : ℤ} (h : (ofInt? n).isSome) : ofInt? n = some (ofInt n) := by
  unfold ofInt? at h ⊢
  split_ifs at h ⊢ with hrange
  · rfl
  · cases h

/-- Every integer of 64 bits has a float. -/
theorem isSome_ofInt?_of_le {n : ℤ} (h : n.natAbs ≤ 2^63) : (ofInt? n).isSome := by
  have hround : round53 n.natAbs < 2^overflowExp := by
    calc round53 n.natAbs
        ≤ 2 * n.natAbs := round53_le _
      _ < 2^65 := by omega
      _ ≤ 2^overflowExp := Nat.pow_le_pow_right (by decide) (by unfold overflowExp; decide)
  rw [ofInt?, if_pos hround]
  rfl

/-- The first power of two outside the format has no float. -/
theorem ofInt?_two_pow_overflowExp : ofInt? (2^overflowExp : ℕ) = none := by
  rw [ofInt?, Int.natAbs_natCast, round53_two_pow, if_neg (lt_irrefl _)]

end F64

end SimsysMetrics.Lib
