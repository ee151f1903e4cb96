import Mathlib.Data.List.Basic
import Mathlib.Data.List.Infix

/-!
# A log that several parties write

Several parties go through the same positions, each at its own pace. A party that comes to a
position proposes an entry for it: the first one to come writes its own, and the others take what is
written (`propose`). So the log only grows, and a party that has gone through `p` positions has
taken its first `p` entries (`take_succ_propose`). Where each entry has the key that its position
asks for, the keys of the log are the first of those (`map_propose_prefix`).
-/

namespace SimsysMetrics.Lib

section SharedLog

variable {α κ : Type*} {log log' : List α} {p : ℕ} {a : α}

/-- The entry at a position, whether it is the proposed one, and the log after that. -/
def propose (log : List α) (p : ℕ) (a : α) : (α × Bool) × List α :=
  match log[p]? with
  | some chosen => ((chosen, false), log)
  | none => ((a, true), log ++ [a])

/-- The first entries of a log stay. -/
theorem take_eq_of_prefix (h : log <+: log') (hp : p ≤ log.length) : log'.take p = log.take p := by
  obtain ⟨rest, rfl⟩ := h
  exact List.take_append_of_le_length hp

/-- The log only grows. -/
theorem prefix_propose (log : List α) (p : ℕ) (a : α) : log <+: (propose log p a).2 := by
  unfold propose
  cases log[p]? with
  | some chosen => exact List.prefix_rfl
  | none => exact List.prefix_append log [a]

/-- What a party is given is at its position. -/
theorem getElem?_propose (hp : p ≤ log.length) (a : α) :
    (propose log p a).2[p]? = some (propose log p a).1.1 := by
  unfold propose
  cases hentry : log[p]? with
  | some chosen => exact hentry
  | none =>
    have hlength : p = log.length := hp.antisymm (List.getElem?_eq_none_iff.mp hentry)
    rw [hlength]
    exact List.getElem?_concat_length

/-- The first entry is the one that was there, or else the proposed one. -/
theorem head?_propose (log : List α) (p : ℕ) (a : α) :
    (propose log p a).2.head? = log.head?.or (some a) := by
  unfold propose
  cases log with
  | nil => rfl
  | cons b log => cases (b :: log)[p]? <;> rfl

/-- A party takes the entries of the log in order. -/
theorem take_succ_propose (hp : p ≤ log.length) (a : α) :
    (propose log p a).2.take (p + 1) = log.take p ++ [(propose log p a).1.1] := by
  rw [List.take_add_one, getElem?_propose hp, take_eq_of_prefix (prefix_propose log p a) hp]
  rfl

/-- The proposed entry is written exactly when the party is the first to come. -/
theorem isNew_propose (hp : p ≤ log.length) (a : α) :
    (propose log p a).1.2 = true ↔ log.length = p := by
  unfold propose
  cases hentry : log[p]? with
  | some chosen =>
    obtain ⟨hlt, -⟩ := List.getElem?_eq_some_iff.mp hentry
    exact iff_of_false Bool.false_ne_true hlt.ne'
  | none => exact iff_of_true rfl ((List.getElem?_eq_none_iff.mp hentry).antisymm hp)

section Keys

variable {key : α → κ} {keys : List κ}

/-- The keys of the log are the first ones that the positions ask for. -/
theorem map_propose_prefix (hlog : log.map key <+: keys) (hp : p ≤ log.length)
    (hkey : keys[p]? = some (key a)) : (propose log p a).2.map key <+: keys := by
  unfold propose
  cases hentry : log[p]? with
  | some chosen => exact hlog
  | none =>
    obtain rfl : log.length = p := (List.getElem?_eq_none_iff.mp hentry).antisymm hp
    obtain ⟨rest, rfl⟩ := hlog
    rw [List.getElem?_append_right (by rw [List.length_map]), List.length_map, Nat.sub_self] at hkey
    cases rest with
    | nil => cases hkey
    | cons k rest =>
      obtain rfl : k = key a := Option.some.inj hkey
      refine ⟨rest, ?_⟩
      rw [List.map_append, List.append_assoc]
      rfl

end Keys

end SharedLog

end SimsysMetrics.Lib
