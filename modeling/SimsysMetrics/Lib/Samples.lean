import Mathlib.Algebra.Group.Defs
import Mathlib.Logic.Function.Basic

/-!
# Labelled sample stores

The samples of a metric family, as a client library keeps them: a child per label set, which is
absent until it is first asked for. `Store κ ν` maps a label set to its value, if the child exists.
`touch` creates the child with its initial value and leaves an existing one alone, `set` writes a
gauge, `add` increments a counter, and `remove` drops the child.
-/

namespace SimsysMetrics.Lib

/-- The children of a metric family: the value of each label set that has one. -/
abbrev Store (κ ν : Type*) := κ → Option ν

namespace Store

variable {κ ν : Type*} [DecidableEq κ]

/-- The child of `k`, created with the value `init` when there is none. -/
def touch (s : Store κ ν) (k : κ) (init : ν) : Store κ ν :=
  Function.update s k (some ((s k).getD init))

/-- The gauge of `k` set to `v`. -/
def set (s : Store κ ν) (k : κ) (v : ν) : Store κ ν := Function.update s k (some v)

/-- The counter of `k` increased by `v`. -/
def add [Add ν] [Zero ν] (s : Store κ ν) (k : κ) (v : ν) : Store κ ν :=
  Function.update s k (some ((s k).getD 0 + v))

/-- The counter of `k` increased by each of some values. -/
def addAll [Add ν] [Zero ν] (s : Store κ ν) (k : κ) (vs : List ν) : Store κ ν :=
  vs.foldl (fun s v => s.add k v) s

/-- The store without the child of `k`. -/
def remove (s : Store κ ν) (k : κ) : Store κ ν := Function.update s k none

@[simp]
theorem set_self (s : Store κ ν) (k : κ) (v : ν) : s.set k v k = some v :=
  Function.update_self ..

@[simp]
theorem set_of_ne (s : Store κ ν) {k k' : κ} (v : ν) (h : k' ≠ k) : s.set k v k' = s k' :=
  Function.update_of_ne h ..

@[simp]
theorem add_self [Add ν] [Zero ν] (s : Store κ ν) (k : κ) (v : ν) :
    s.add k v k = some ((s k).getD 0 + v) :=
  Function.update_self ..

/-- What a counter holds after an increment, where a child that is absent counts as zero. -/
theorem getD_add [AddZeroClass ν] (s : Store κ ν) (k k' : κ) (v : ν) :
    (s.add k v k').getD 0 = (s k').getD 0 + if k = k' then v else 0 := by
  by_cases h : k = k'
  · subst h
    rw [add_self, Option.getD_some, if_pos rfl]
  · rw [add, Function.update_of_ne (Ne.symm h), if_neg h, add_zero]

/-- A gauge and a counter are written independently. -/
theorem set_add [Add ν] [Zero ν] (s : Store κ ν) {k k' : κ} (v v' : ν) (h : k' ≠ k) :
    (s.add k v).set k' v' = (s.set k' v').add k v := by
  rw [add, add, set_of_ne s v' h.symm]
  exact (Function.update_comm h _ _ _).symm

/-- A gauge is written independently of the increments of a counter. -/
theorem set_addAll [Add ν] [Zero ν] (s : Store κ ν) {k k' : κ} (vs : List ν) (v' : ν)
    (h : k' ≠ k) : (s.addAll k vs).set k' v' = (s.set k' v').addAll k vs := by
  induction vs generalizing s with
  | nil => rfl
  | cons v vs ih =>
    show ((s.add k v).addAll k vs).set k' v' = ((s.set k' v').add k v).addAll k vs
    rw [ih, set_add s v v' h]

/-- One more increment. -/
theorem addAll_concat [Add ν] [Zero ν] (s : Store κ ν) (k : κ) (vs : List ν) (v : ν) :
    s.addAll k (vs ++ [v]) = (s.addAll k vs).add k v := by
  rw [addAll, List.foldl_append]
  rfl

/-- Two increments of one counter. -/
theorem add_add_self [AddMonoid ν] (s : Store κ ν) (k : κ) (v w : ν) :
    (s.add k v).add k w = s.add k (v + w) := by
  show Function.update (Function.update s k _) k (some ((s.add k v k).getD 0 + w)) = _
  rw [Function.update_idem, add_self, Option.getD_some, add_assoc]
  rfl

/-- The order of the increments of a counter does not matter. -/
theorem addAll_eraseIdx [AddCommMonoid ν] (s : Store κ ν) (k : κ) {vs : List ν} {i : ℕ} {v : ν}
    (h : vs[i]? = some v) : (s.add k v).addAll k (vs.eraseIdx i) = s.addAll k vs := by
  induction vs generalizing s i with
  | nil => cases h
  | cons w vs ih =>
    cases i with
    | zero =>
      obtain rfl := Option.some.inj h
      rfl
    | succ i =>
      show ((s.add k v).add k w).addAll k (vs.eraseIdx i) = (s.add k w).addAll k vs
      rw [add_add_self, add_comm, ← add_add_self, ih _ h]

/-- Writing a gauge right after its child was created is writing it. -/
@[simp]
theorem set_touch (s : Store κ ν) (k : κ) (init v : ν) : (s.touch k init).set k v = s.set k v :=
  Function.update_idem ..

end Store

end SimsysMetrics.Lib
