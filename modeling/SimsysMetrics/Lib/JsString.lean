import Mathlib.Data.Nat.Notation

/-!
# ECMAScript strings

A string of ECMAScript is a list of UTF-16 code units, lone surrogates included. This library has
the texts of string literals (`js`), and `decodeURIComponent`, which throws (none) on a malformed
escape and on octets that are not the UTF-8 encoding of a code point.
-/

namespace SimsysMetrics.Lib

/-- A string of ECMAScript: its code units. -/
abbrev JsString := List UInt16

/-- The code units of a code point. -/
def unitsOfCodePoint (cp : ℕ) : JsString :=
  if cp < 0x10000 then [UInt16.ofNat cp]
  else [UInt16.ofNat (0xD800 + (cp - 0x10000) / 0x400), UInt16.ofNat (0xDC00 + cp % 0x400)]

/-- The code units of a text. -/
def js (s : String) : JsString := s.toList.flatMap fun c => unitsOfCodePoint c.toNat

/-- The value of a hexadecimal digit. -/
def hexDigit (u : UInt16) : Option ℕ :=
  let n := u.toNat
  if 48 ≤ n ∧ n ≤ 57 then some (n - 48)
  else if 65 ≤ n ∧ n ≤ 70 then some (n - 55)
  else if 97 ≤ n ∧ n ≤ 102 then some (n - 87)
  else none

/-- A piece of an escaped string: a code unit, or the octet of an escape. -/
inductive Piece where
  | unit (u : UInt16)
  | octet (b : ℕ)
deriving DecidableEq, Repr

/-- The pieces of a string; none when an escape is malformed. -/
def pieces : JsString → Option (List Piece)
  | [] => some []
  | u :: rest =>
    if u = 37 then
      match rest with
      | a :: b :: rest => do
        let high ← hexDigit a
        let low ← hexDigit b
        let ps ← pieces rest
        some (.octet (16 * high + low) :: ps)
      | _ => none
    else (pieces rest).map (.unit u :: ·)

/-- The payload of a continuation octet. -/
def continuation (b : ℕ) : Option ℕ := if 0x80 ≤ b ∧ b < 0xC0 then some (b - 0x80) else none

/-- The string of some pieces, with runs of octets decoded as UTF-8. -/
def decodePieces : List Piece → Option JsString
  | [] => some []
  | .unit u :: ps => (decodePieces ps).map (u :: ·)
  | .octet b :: ps =>
    if b < 0x80 then (decodePieces ps).map (UInt16.ofNat b :: ·)
    else if 0xC2 ≤ b ∧ b < 0xE0 then
      match ps with
      | .octet b₁ :: ps => do
        let c₁ ← continuation b₁
        let s ← decodePieces ps
        some (unitsOfCodePoint (64 * (b - 0xC0) + c₁) ++ s)
      | _ => none
    else if 0xE0 ≤ b ∧ b < 0xF0 then
      match ps with
      | .octet b₁ :: .octet b₂ :: ps => do
        let c₁ ← continuation b₁
        let c₂ ← continuation b₂
        let s ← decodePieces ps
        let cp := 4096 * (b - 0xE0) + 64 * c₁ + c₂
        -- Neither an overlong encoding nor a surrogate.
        if 0x800 ≤ cp ∧ ¬ (0xD800 ≤ cp ∧ cp < 0xE000) then some (unitsOfCodePoint cp ++ s) else none
      | _ => none
    else if 0xF0 ≤ b ∧ b < 0xF5 then
      match ps with
      | .octet b₁ :: .octet b₂ :: .octet b₃ :: ps => do
        let c₁ ← continuation b₁
        let c₂ ← continuation b₂
        let c₃ ← continuation b₃
        let s ← decodePieces ps
        let cp := 262144 * (b - 0xF0) + 4096 * c₁ + 64 * c₂ + c₃
        if 0x10000 ≤ cp ∧ cp < 0x110000 then some (unitsOfCodePoint cp ++ s) else none
      | _ => none
    else none

/-- `decodeURIComponent`; none when it throws. -/
def decodeURIComponent (s : JsString) : Option JsString := (pieces s).bind decodePieces

example : decodeURIComponent (js "%41%C3%A9") = some (js "Aé") := by decide +kernel

example : decodeURIComponent (js "100%") = none := by decide +kernel

end SimsysMetrics.Lib
