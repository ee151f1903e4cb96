import SimsysMetrics.Pollers

/-!
# What the queue pollers make of a result

The callback of a queue poller returns a result, and the three lanes convert it in three ways:
Python's `_poll` by `int`, inside its `try`; Node's `tick` by `Math.trunc(Number(raw) || 0)`; and
Go's `tick` takes an `int` and clamps it to zero from below. `Returned` has the results in terms
that the lanes share, and `Lane.tick` is the tick of a lane whose callback returns one.

The lanes agree on a result exactly when it is an integer that has a float and that Go does not
clamp (`agree_iff`): Python fails its tick on what is no number and on the infinities, where Node
writes zero or the infinity. `queue_results` says what each lane writes for an integer, and that
Python and Go publish nothing for any other result.
-/

namespace SimsysMetrics.QueueResults

open Lib (F64)

/-- The languages. -/
inductive Lane where
  | python
  | node
  | go
deriving DecidableEq, Repr

/-- What a callback returns: an integer, a float that is none, no value, or a text that is no
number. Python's `None` stands for `null` and for `undefined`. -/
inductive Returned where
  | int (n : ℤ)
  | nan
  | posInf
  | negInf
  | null
  | undefined
  | text (s : String)
deriving DecidableEq, Repr

namespace Returned

/-- The result in Python. -/
def python : Returned → Python.Result
  | .int n => .int n
  | .nan => .float .nan
  | .posInf => .float .posInf
  | .negInf => .float .negInf
  | .null => .none
  | .undefined => .none
  | .text s => .text s

/-- The number of an integer in Node: the nearest one, or an infinity beyond the range. -/
def numberOfInt (n : ℤ) : F64 :=
  (F64.ofInt? n).getD (if n < 0 then .negInf else .posInf)

/-- The result in Node. -/
def node : Returned → Node.Result
  | .int n => .number (numberOfInt n)
  | .nan => .number .nan
  | .posInf => .number .posInf
  | .negInf => .number .negInf
  | .null => .null
  | .undefined => .undefined
  | .text s => .text s

/-- The result in Go, whose callback returns an `int`. -/
def go? : Returned → Option Int64
  | .int n => if (Int64.ofInt n).toInt = n then some (.ofInt n) else none
  | _ => none

/-- The result is an integer. -/
def IsInt : Returned → Prop
  | .int _ => True
  | _ => False

end Returned

/-- The tick of a lane's queue poller when its callback returns `r`; none where the callback cannot
return it. -/
def Lane.tick (service queue : String) (r : Returned) (p : Poller Python.Exn) :
    Lane → Option (Poller Python.Exn)
  | .python => some (Python.trackQueuePoll service queue (.ok r.python) p)
  | .node => some (Node.trackQueueTick service queue (.ok r.node) p)
  -- Go's callback returns an `int`, so it has no tick for another result.
  | .go => r.go?.map fun n => Go.trackQueueTick service queue (.ok n) p

/-- The integer that a lane writes for an integer. -/
def Lane.clamp : Lane → ℤ → ℤ
  -- `if depth < 0 { depth = 0 }`; the other two have no such line.
  | .go, n => max 0 n
  | .python, n => n
  | .node, n => n

/-- The value of the gauge of a queue. -/
def depth (service queue : String) (p : Poller Python.Exn) : Option F64 :=
  p.gauges ⟨.queueDepth, service, queue⟩

/-- The lanes that can return a result leave the same gauge, whatever it showed before: they agree
on whether the tick writes it, and on the value. -/
def Agree (service queue : String) (r : Returned) : Prop :=
  ∀ (p : Poller Python.Exn) (lane lane' : Lane) (s s' : Poller Python.Exn),
    lane.tick service queue r p = some s → lane'.tick service queue r p = some s' →
      depth service queue s = depth service queue s'

/-- A result that is not an integer makes no lane publish zero. -/
def NoFabricatedZero (service queue : String) (r : Returned) : Prop :=
  ¬ r.IsInt → ∀ (p : Poller Python.Exn) (lane : Lane) (s : Poller Python.Exn),
    lane.tick service queue r p = some s → depth service queue p ≠ some (.int 0) →
      depth service queue s ≠ some (.int 0)

section Lanes

variable {service queue : String} {n : ℤ} (p : Poller Python.Exn)

/-- Python writes the float of an integer that has one. -/
theorem depth_python_of_fits (h : (F64.ofInt? n).isSome) :
    depth service queue (Python.trackQueuePoll service queue (.ok (.int n)) p) =
      some (.ofInt n) := by
  have hfloat : Python.floatOfInt n = .ok (.ofInt n) := by
    rw [Python.floatOfInt, F64.ofInt?_of_isSome h]
  have hread : (Except.ok (Python.Result.int n) : Except Python.Exn _).bind
      Python.Result.toInt = .ok n := rfl
  -- `labels` creates the gauge, and `set` overwrites it.
  rw [depth, Python.trackQueuePoll, hread]
  dsimp only
  rw [hfloat]
  exact Lib.Store.set_self ..

/-- Python creates the gauge of a queue with zero when the integer has no float. -/
theorem depth_python_of_overflow (h : F64.ofInt? n = none) :
    depth service queue (Python.trackQueuePoll service queue (.ok (.int n)) p) =
      some ((depth service queue p).getD (.int 0)) := by
  rw [Python.trackQueuePoll_of_overflow h]
  exact Function.update_self ..

/-- A result that is no integer fails Python's tick: the gauge stands, and the failure is
counted. -/
theorem python_of_not_isInt {r : Returned} (h : ¬ r.IsInt) :
    ∃ e, Python.trackQueuePoll service queue (.ok r.python) p =
      p.fail (Python.queueTracker service queue) e := by
  cases r with
  | int n => exact absurd trivial h
  | nan => exact ⟨.valueError, rfl⟩
  | posInf => exact ⟨.overflowError, rfl⟩
  | negInf => exact ⟨.overflowError, rfl⟩
  | null => exact ⟨.typeError, rfl⟩
  | undefined => exact ⟨.typeError, rfl⟩
  | text s => exact ⟨.valueError, rfl⟩

/-- Node writes every result, by its conversion. -/
theorem depth_node (r : Returned) :
    depth service queue (Node.trackQueueTick service queue (.ok r.node) p) =
      some r.node.count :=
  Lib.Store.set_self ..

/-- Node writes the number of an integer. -/
theorem count_node_int (n : ℤ) : (Returned.int n).node.count = Returned.numberOfInt n := by
  show Node.Result.count (.number (Returned.numberOfInt n)) = _
  unfold Returned.numberOfInt F64.ofInt?
  split_ifs <;> rfl

/-- The number of an integer that has a float is this float. -/
theorem numberOfInt_of_fits (h : (F64.ofInt? n).isSome) :
    Returned.numberOfInt n = .ofInt n := by
  rw [Returned.numberOfInt, F64.ofInt?_of_isSome h]
  rfl

/-- Go writes the clamped integer. -/
theorem depth_go (w : Int64) :
    depth service queue (Go.trackQueueTick service queue (.ok w) p) =
      some (.ofInt (max 0 w.toInt)) := by
  rw [← Go.toInt_clamp]
  exact Lib.Store.set_self ..

/-- Go's callback returns an integer as itself. -/
theorem toInt_of_go? {r : Returned} {w : Int64} (h : r.go? = some w) : r = .int w.toInt := by
  cases r with
  | int n =>
    have hword : (if (Int64.ofInt n).toInt = n then some (Int64.ofInt n) else none) = some w := h
    split_ifs at hword with hrange
    rw [← Option.some.inj hword, hrange]
  | _ => cases h

/-- Every integer that Go's callback can return has a float. -/
theorem isSome_ofInt?_toInt (w : Int64) : (F64.ofInt? w.toInt).isSome := by
  have hlow : -2^63 ≤ w.toInt := Int64.le_toInt w
  have hhigh : w.toInt < 2^63 := Int64.toInt_lt w
  exact F64.isSome_ofInt?_of_le (by omega)

/-- What a lane writes for an integer: the float of the integer that it makes of it. In Python and
Node the integer has to have a float. -/
theorem depth_tick_int {lane : Lane} {p s : Poller Python.Exn}
    (hfits : lane ≠ .go → (F64.ofInt? n).isSome)
    (h : lane.tick service queue (.int n) p = some s) :
    depth service queue s = some (.ofInt (lane.clamp n)) := by
  cases lane with
  | python =>
    obtain rfl := Option.some.inj h
    exact depth_python_of_fits p (hfits (by decide))
  | node =>
    obtain rfl := Option.some.inj h
    rw [depth_node, count_node_int, numberOfInt_of_fits (hfits (by decide))]
    rfl
  | go =>
    obtain ⟨w, hw, rfl⟩ := Option.map_eq_some_iff.mp h
    obtain rfl : n = w.toInt := Returned.int.inj (toInt_of_go? hw)
    exact depth_go p w

/-- Python and Go publish nothing for a result that is no integer: Python's tick fails, and Go's
callback cannot return it. -/
theorem tick_of_not_isInt {r : Returned} (hr : ¬ r.IsInt) {lane : Lane} (hlane : lane ≠ .node)
    {p s : Poller Python.Exn} (h : lane.tick service queue r p = some s) :
    ∃ e, s = p.fail (Python.queueTracker service queue) e := by
  cases lane with
  | python =>
    obtain rfl := Option.some.inj h
    exact python_of_not_isInt p hr
  | node => exact absurd rfl hlane
  | go =>
    obtain ⟨w, hw, -⟩ := Option.map_eq_some_iff.mp h
    rw [toInt_of_go? hw] at hr
    exact absurd trivial hr

/-- A lane writes the integer itself where it is not negative or Go's callback cannot return it. -/
theorem clamp_of_tick {lane : Lane} {p s : Poller Python.Exn}
    (hclamp : 0 ≤ n ∨ (Returned.int n).go? = none)
    (h : lane.tick service queue (.int n) p = some s) : lane.clamp n = n := by
  cases lane with
  | python => rfl
  | node => rfl
  | go =>
    obtain ⟨w, hw, -⟩ := Option.map_eq_some_iff.mp h
    have hpos : 0 ≤ n := hclamp.resolve_right (by rw [hw]; exact Option.some_ne_none w)
    exact max_eq_right hpos

/-- Python and Node agree on an integer only if it has a float. -/
theorem isSome_of_agree (h : Agree service queue (.int n)) : (F64.ofInt? n).isSome := by
  have hwrites := h .empty .python .node _ _ rfl rfl
  rw [depth_node, count_node_int] at hwrites
  by_contra hnone
  have hoverflow : F64.ofInt? n = none := by simpa using hnone
  -- Python creates the gauge with zero, and Node writes an infinity.
  have hzero : some (F64.int 0) = some (Returned.numberOfInt n) :=
    (depth_python_of_overflow .empty hoverflow).symm.trans hwrites
  rw [Returned.numberOfInt, hoverflow, Option.getD_none] at hzero
  split_ifs at hzero <;> cases hzero

/-- Go agrees with the others on a negative integer only if its callback cannot return it. -/
theorem nonneg_of_agree (h : Agree service queue (.int n)) :
    0 ≤ n ∨ (Returned.int n).go? = none := by
  rcases hgo : (Returned.int n).go? with _ | w
  · exact Or.inr rfl
  · left
    have hfits : (F64.ofInt? n).isSome := isSome_of_agree h
    have htick : Lane.go.tick service queue (.int n) .empty =
        some (Go.trackQueueTick service queue (.ok w) .empty) := by
      rw [Lane.tick, hgo]
      rfl
    have hsame : some (F64.ofInt n) = some (F64.ofInt (max 0 n)) := by
      calc some (F64.ofInt n)
          = depth service queue (Python.trackQueuePoll service queue (.ok (.int n)) .empty) :=
            (depth_python_of_fits .empty hfits).symm
        _ = depth service queue (Go.trackQueueTick service queue (.ok w) .empty) :=
            h .empty .python .go _ _ rfl htick
        _ = some (F64.ofInt (max 0 n)) := depth_tick_int (fun _ => hfits) htick
    -- Only zero has the float zero, so a clamped integer shows another value.
    by_contra hneg
    have hmax : max 0 n = 0 := by omega
    rw [hmax, Option.some.injEq] at hsame
    have hzero : n = 0 := F64.ofInt_eq_zero_iff.mp hsame
    omega

end Lanes

/-- The lanes agree on a result exactly when it is an integer that has a float and that Go, if its
callback can return it, does not clamp. -/
theorem agree_iff (service queue : String) (r : Returned) :
    Agree service queue r ↔
      ∃ n, r = .int n ∧ (F64.ofInt? n).isSome ∧ (0 ≤ n ∨ r.go? = none) := by
  constructor
  · intro h
    by_cases hint : r.IsInt
    · cases r with
      | int n => exact ⟨n, rfl, isSome_of_agree h, nonneg_of_agree h⟩
      | _ => cases hint
    · -- Python fails its tick, and Node writes.
      have hwrites := h .empty .python .node _ _ rfl rfl
      obtain ⟨e, he⟩ := python_of_not_isInt .empty hint
      rw [depth_node, he] at hwrites
      cases hwrites
  · rintro ⟨n, rfl, hfits, hclamp⟩ p lane lane' s s' h h'
    rw [depth_tick_int (fun _ => hfits) h, depth_tick_int (fun _ => hfits) h',
      clamp_of_tick hclamp h, clamp_of_tick hclamp h']

/-- What the lanes do with a result. All of them write a non-negative integer that has a float, as
every integer of 64 bits does, with the same value; Python and Node write a negative one as it is,
and Go writes zero for it. For a result that is no integer Python's tick fails, and Go's callback
cannot return it: neither lane publishes anything. -/
theorem queue_results (service queue : String) :
    (∀ n : ℤ, 0 ≤ n → (F64.ofInt? n).isSome → Agree service queue (.int n)) ∧
      (∀ w : Int64, (F64.ofInt? w.toInt).isSome) ∧
      (∀ (n : ℤ) (p s : Poller Python.Exn) (lane : Lane), (lane ≠ .go → (F64.ofInt? n).isSome) →
        lane.tick service queue (.int n) p = some s →
          depth service queue s = some (.ofInt (lane.clamp n))) ∧
      ∀ (r : Returned) (p s : Poller Python.Exn) (lane : Lane), ¬ r.IsInt → lane ≠ .node →
        lane.tick service queue r p = some s →
          s.gauges = p.gauges ∧
            s.collectorErrors = p.collectorErrors.add ⟨service, .queue, queue⟩ 1 := by
  refine ⟨?_, isSome_ofInt?_toInt, ?_, ?_⟩
  · intro n hpos hfits
    exact (agree_iff service queue (.int n)).mpr ⟨n, rfl, hfits, Or.inl hpos⟩
  · intro n p s lane hfits h
    exact depth_tick_int hfits h
  · intro r p s lane hr hlane h
    obtain ⟨e, rfl⟩ := tick_of_not_isInt hr hlane h
    exact ⟨rfl, rfl⟩

/-- The lanes agree on 3, Go writes zero for `-2`, and Python's gauge is absent after a first tick
that returns not-a-number. -/
theorem queue_results_small :
    Agree "portal" "jobs" (.int 3) ∧
      depth "portal" "jobs" (Go.trackQueueTick "portal" "jobs" (.ok (-2)) .empty) =
        some (.ofInt 0) ∧
      (Python.trackQueuePoll "portal" "jobs" (.ok (.float .nan)) .empty).gauges =
        fun _ => none := by
  have h := queue_results "portal" "jobs"
  have hfits : (F64.ofInt? 3).isSome := F64.isSome_ofInt?_of_le (by decide)
  refine ⟨h.1 3 (by decide) hfits, ?_, ?_⟩
  · exact h.2.2.1 (-2) .empty _ .go (absurd rfl) rfl
  · exact (h.2.2.2 .nan .empty _ .python id (by decide) rfl).1

/-- The lanes disagree on `-1`, which Go clamps, on `2^1024`, which has no float, and on everything
that is no integer; for a callback without a value Node publishes zero. -/
theorem queue_lanes_disagree :
    ¬ Agree "portal" "jobs" (.int (-1)) ∧ ¬ Agree "portal" "jobs" (.int (2^F64.overflowExp : ℕ)) ∧
      (∀ r ∈ [Returned.nan, .posInf, .negInf, .null, .undefined, .text "n/a"],
        ¬ Agree "portal" "jobs" r) ∧
      ¬ NoFabricatedZero "portal" "jobs" .null := by
  refine ⟨?_, ?_, ?_, ?_⟩
  · intro h
    obtain hpos | hgo := nonneg_of_agree h
    · omega
    · revert hgo
      decide
  · intro h
    have hfits := isSome_of_agree h
    rw [F64.ofInt?_two_pow_overflowExp] at hfits
    cases hfits
  · intro r hr h
    obtain ⟨n, rfl, -⟩ := (agree_iff "portal" "jobs" r).mp h
    simp at hr
  · intro h
    have hempty : depth "portal" "jobs" .empty ≠ some (.int 0) := nofun
    exact h id .empty .node _ rfl hempty rfl

end SimsysMetrics.QueueResults
