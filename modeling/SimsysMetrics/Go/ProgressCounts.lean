import Mathlib.Algebra.Order.BigOperators.Group.List
import Mathlib.Algebra.Order.Field.Rat
import SimsysMetrics.Go.Progress

/-!
# The counts of a Go progress tracker on 64 bits

`Inc` and `SetTotal` of `go/progress.go` check each argument, but not the sum of the increments,
which `int64` keeps modulo `2^64`; and so are the differences of a tick. What a tick shows and the
rate that it computes are those of the sum itself exactly where the two differences come out with
the right sign: the sum must not exceed the total by more than `2^63`, and what is new since the
last tick must stay below `2^63`, both modulo `2^64` (`tick_exact_iff`).
-/

namespace SimsysMetrics.Go.Progress

open Lib (run Store)
open SimsysMetrics.Progress (Key ok_of_map)

/-! ## What the calls add up to -/

/-- The increment of a call, where `Inc` accepts it. -/
def Call.increment : Call Int64 → ℤ
  | .inc n => max 0 n.toInt
  | .setTotal _ | .tick _ _ | .stop _ _ => 0

/-- The sum of the increments that are accepted. -/
def incremented (calls : List (Call Int64)) : ℤ := (calls.map Call.increment).sum

/-- The latest total that is accepted. -/
def latestTotal (total : Int64) (calls : List (Call Int64)) : ℤ :=
  (run Call.total total calls).toInt

/-- The sum of the increments since the last tick, after `new` since it; `stopped` is whether `Stop`
was called. -/
def sinceTick (stopped : Bool) (new : ℤ) : List (Call Int64) → ℤ
  | [] => new
  | .inc n :: calls => sinceTick stopped (new + max 0 n.toInt) calls
  | .setTotal _ :: calls => sinceTick stopped new calls
  | .tick _ _ :: calls => sinceTick stopped 0 calls
  | .stop _ _ :: calls => sinceTick true (if stopped then new else 0) calls

/-- Accepted increments do not add up to a negative sum. -/
theorem incremented_nonneg (calls : List (Call Int64)) : 0 ≤ incremented calls := by
  refine List.sum_nonneg fun n hn => ?_
  obtain ⟨call, -, rfl⟩ := List.mem_map.mp hn
  cases call with
  | inc n => exact le_max_left _ _
  | setTotal | tick | stop => exact le_rfl

/-- The count after a call has its increment more, modulo `2^64`. -/
theorem processed_call (p : Int64) (call : Call Int64) :
    call.processed p = p + Int64.ofInt call.increment := by
  cases call with
  | setTotal | tick | stop => exact (Int64.add_zero p).symm
  | inc n =>
    dsimp only [Call.processed, Call.increment]
    split_ifs with hn
    · rw [max_eq_left (show n.toInt ≤ 0 from hn)]
      exact (Int64.add_zero p).symm
    · have hpos : 0 ≤ n.toInt := (not_le.mp hn).le
      rw [max_eq_right hpos, Int64.ofInt_toInt]

/-- A total that is not negative stays so. -/
theorem total_call_nonneg {total : Int64} (h : 0 ≤ total.toInt) (call : Call Int64) :
    0 ≤ (call.total total).toInt := by
  cases call with
  | inc | tick | stop => exact h
  | setTotal n =>
    dsimp only [Call.total]
    split_ifs with hn
    · exact h
    · exact not_lt.mp hn

/-! ## The tracker keeps the counts modulo `2^64` -/

section Counts

variable {V : Type} [Field V] [LinearOrder V] {c : Conversion V} {s : State Int64 V}

/-- A step adds the increment to the count and sets the total. -/
theorem counts_step (s : State Int64 V) (call : Call Int64) :
    (step c s call).tracker.processed = s.tracker.processed + Int64.ofInt call.increment ∧
      (step c s call).tracker.total = call.total s.tracker.total := by
  rw [← processed_call]
  rcases hreading : reading s call with _ | ⟨nowNs, unix⟩
  · rw [step_of_not_reading hreading]
    exact ⟨rfl, rfl⟩
  · obtain ⟨hprocessed, htotal⟩ := counts_of_reading hreading
    obtain ⟨stopped, hstep⟩ := step_of_reading (c := c) hreading
    obtain ⟨hcount, htick, -⟩ := tracker_tick (c := c) nowNs unix { s with stopped }
    rw [hstep, hprocessed, htotal]
    exact ⟨hcount, htick⟩

/-- A run adds its increments to the count, and leaves its latest total. -/
theorem counts_run (s : State Int64 V) (calls : List (Call Int64)) :
    (run (step c) s calls).tracker.processed =
        s.tracker.processed + Int64.ofInt (incremented calls) ∧
      (run (step c) s calls).tracker.total = run Call.total s.tracker.total calls := by
  induction calls generalizing s with
  | nil => exact ⟨(Int64.add_zero _).symm, rfl⟩
  | cons call calls ih =>
    obtain ⟨hprocessed, htotal⟩ := counts_step (c := c) s call
    obtain ⟨hrun, hrunTotal⟩ := ih (step c s call)
    refine ⟨?_, ?_⟩
    · show (run (step c) (step c s call) calls).tracker.processed = _
      rw [hrun, hprocessed, incremented, incremented, List.map_cons, List.sum_cons,
        Int64.ofInt_add, Int64.add_assoc]
    · show (run (step c) (step c s call) calls).tracker.total = _
      rw [hrunTotal, htotal]
      rfl

/-- A call that does not tick leaves whether `Stop` was called. -/
theorem stopped_of_not_reading {call : Call Int64} (h : reading s call = none) :
    (step c s call).stopped = s.stopped := by
  cases call with
  | tick => cases h
  | inc n =>
    rw [step, inc]
    split_ifs <;> rfl
  | setTotal total =>
    rw [step, setTotal]
    split_ifs <;> rfl
  | stop nowNs unix =>
    by_cases hstopped : s.stopped
    · rw [step, stop, if_pos hstopped]
    · rw [reading, if_neg hstopped] at h
      cases h

/-- After a call that does not tick, its increment is new as well. -/
theorem new_of_not_reading {new : ℤ}
    (h : s.tracker.processed = s.tracker.lastProcessed + Int64.ofInt new) {call : Call Int64}
    (hreading : reading s call = none) :
    (step c s call).tracker.processed =
      (step c s call).tracker.lastProcessed + Int64.ofInt (new + call.increment) := by
  have hcount := (counts_step (c := c) s call).1
  have hbase : (step c s call).tracker.lastProcessed = s.tracker.lastProcessed := by
    rw [step_of_not_reading hreading]
  rw [hcount, hbase, h, Int64.ofInt_add, Int64.add_assoc]

/-- After a tick, nothing is new. -/
theorem new_tick (nowNs unix : Int64) (s : State Int64 V) :
    (tick c nowNs unix s).tracker.processed =
      (tick c nowNs unix s).tracker.lastProcessed + Int64.ofInt 0 := by
  obtain ⟨hcount, -, hbase⟩ := tracker_tick (c := c) nowNs unix s
  rw [hcount, hbase]
  exact (Int64.add_zero _).symm

/-- What is new since the last tick, modulo `2^64`. -/
theorem new_run {s : State Int64 V} {new : ℤ}
    (h : s.tracker.processed = s.tracker.lastProcessed + Int64.ofInt new)
    (calls : List (Call Int64)) :
    (run (step c) s calls).tracker.processed = (run (step c) s calls).tracker.lastProcessed +
      Int64.ofInt (sinceTick s.stopped new calls) := by
  induction calls generalizing s new with
  | nil => exact h
  | cons call calls ih =>
    cases call with
    | inc n =>
      have hstep := ih (new_of_not_reading (c := c) h (rfl : reading s (.inc n) = none))
      rw [stopped_of_not_reading rfl] at hstep
      exact hstep
    | setTotal total =>
      have hstep := ih (new_of_not_reading (c := c) h (rfl : reading s (.setTotal total) = none))
      rw [stopped_of_not_reading rfl, Call.increment, add_zero] at hstep
      exact hstep
    | tick nowNs unix => exact ih (new_tick nowNs unix s)
    | stop nowNs unix =>
      have hrun : run (step c) s (.stop nowNs unix :: calls) =
        run (step c) (stop c nowNs unix s) calls := rfl
      rw [hrun, sinceTick]
      by_cases hstopped : s.stopped
      · have hsame : stop c nowNs unix s = s := if_pos hstopped
        have hrest := ih h
        rw [hstopped] at hrest
        rw [hsame, if_pos hstopped, hrest]
      · have htick : stop c nowNs unix s = tick c nowNs unix { s with stopped := true } :=
          if_neg hstopped
        rw [htick, if_neg hstopped]
        exact ih (new_tick nowNs unix { s with stopped := true })

end Counts

/-! ## What a tick shows -/

/-- A difference comes out as not positive modulo `2^64` exactly when the opposite one is at most
`2^63` there. -/
theorem bmod_nonpos_iff (total sum : ℤ) :
    (total - sum).bmod (2^64) ≤ 0 ↔ (sum - total) % 2^64 ≤ 2^63 := by
  rw [Int.bmod_eq_emod]
  split_ifs <;> omega

/-- An amount comes out as not negative modulo `2^64` exactly when it is below `2^63` there. -/
theorem bmod_nonneg_iff (new : ℤ) : 0 ≤ new.bmod (2^64) ↔ new % 2^64 < 2^63 := by
  rw [Int.bmod_eq_emod]
  split_ifs <;> omega

section Tick

variable {V : Type} [Field V] [LinearOrder V] {c : Conversion V}

/-- The clamped count is the clamped integer. -/
theorem toInt_clamp (n : Int64) : toInt (clamp n) = max 0 n.toInt := by
  unfold clamp
  split_ifs with hneg
  · exact (max_eq_left (le_of_lt hneg)).symm
  · exact (max_eq_right (not_lt.mp hneg)).symm

/-- What a tick shows as remaining after some calls: the difference modulo `2^64`, clamped. -/
theorem remaining_run {opts : ProgressOpts Int64} {s : State Int64 V} (hs : New opts s)
    (calls : List (Call Int64)) {call : Call Int64} {r : Int64 × Int64}
    (hreading : reading (run (step c) s calls) call = some r) :
    (step c (run (step c) s calls) call).sample .progressRemaining =
      some (c.float64 (max 0
        ((latestTotal opts.total calls - incremented calls).bmod (2^64)))) := by
  obtain ⟨nowNs, unix⟩ := r
  obtain ⟨hcount, htotal⟩ := counts_run (c := c) s calls
  obtain ⟨stopped, hstep⟩ := step_of_reading (c := c) hreading
  have hdiff : ((run (step c) s calls).tracker.total -
      (run (step c) s calls).tracker.processed).toInt =
        (latestTotal opts.total calls - incremented calls).bmod (2^64) := by
    have hsum : (ofInt 0 : Int64) + Int64.ofInt (incremented calls) =
      Int64.ofInt (incremented calls) := Int64.zero_add _
    have hword : (Int64.ofInt (incremented calls)).toInt = (incremented calls).bmod (2^64) :=
      Int64.toInt_ofInt
    rw [hcount, htotal, hs.processed, hs.total, hsum, Int64.toInt_sub, hword, Int.sub_bmod_bmod,
      latestTotal]
  rw [hstep, remaining_tick, toInt_clamp]
  exact congrArg (fun n => some (c.float64 (max 0 n))) hdiff

/-- The latest total is not negative. -/
theorem latestTotal_nonneg {total : Int64} (h : 0 ≤ total.toInt) (calls : List (Call Int64)) :
    0 ≤ latestTotal total calls :=
  Lib.invariant_run (I := fun total : Int64 => 0 ≤ total.toInt)
    (fun _ call htotal => total_call_nonneg htotal call) h calls

/-- The difference modulo `2^64` is shown as the difference itself would be exactly when the sum
does not exceed the total by more than `2^63`, modulo `2^64`. -/
theorem float64_remaining_iff {total sum : ℤ} (htotal : total < 2^63) (hsum : 0 ≤ sum) :
    c.float64 (max 0 ((total - sum).bmod (2^64))) = c.float64 (max 0 (total - sum)) ↔
      sum ≤ total ∨ (sum - total) % 2^64 ≤ 2^63 := by
  rw [← bmod_nonpos_iff]
  rcases le_or_gt sum total with hle | hgt
  · have hexact : (total - sum).bmod (2^64) = total - sum := Int.bmod_eq_of_le (by omega) (by omega)
    rw [hexact]
    exact iff_of_true rfl (Or.inl hle)
  · rw [max_eq_left (sub_nonpos.mpr hgt.le), or_iff_right hgt.not_ge]
    constructor
    · intro heq
      -- A positive difference would be shown as positive.
      by_contra hpos
      have hshown : 0 < c.float64 (max 0 ((total - sum).bmod (2^64))) :=
        c.float64_pos.mpr (lt_max_of_lt_right (not_le.mp hpos))
      rw [heq] at hshown
      exact lt_irrefl _ (c.float64_pos.mp hshown)
    · intro hneg
      rw [max_eq_left hneg]

/-- Where time has passed, the rate of a tick is not negative exactly when what is new stays below
`2^63`, modulo `2^64`. -/
theorem instantRate_nonneg_iff [IsStrictOrderedRing V] {opts : ProgressOpts Int64}
    {s : State Int64 V} (hs : New opts s) (calls : List (Call Int64)) {nowNs : Int64}
    (hpos : 0 < elapsedSec c nowNs (run (step c) s calls).tracker) :
    0 ≤ instantRate c nowNs (run (step c) s calls).tracker ↔
      sinceTick s.stopped 0 calls % 2^64 < 2^63 := by
  have hnew : s.tracker.processed = s.tracker.lastProcessed + Int64.ofInt 0 := by
    rw [hs.processed, hs.lastProcessed]
    rfl
  have hdelta : ((run (step c) s calls).tracker.processed -
      (run (step c) s calls).tracker.lastProcessed).toInt =
        (sinceTick s.stopped 0 calls).bmod (2^64) := by
    rw [new_run (c := c) hnew calls, Int64.add_comm, Int64.add_sub_cancel]
    exact Int64.toInt_ofInt
  rw [instantRate, le_div_iff₀ hpos, zero_mul, ← not_lt, c.float64_neg, not_lt,
    ← bmod_nonneg_iff, ← hdelta]
  rfl

end Tick

/-- A number of items with the default window and interval. -/
def items (total : Int64) : ProgressOpts Int64 := ⟨"scan", total, 0, 0⟩

end SimsysMetrics.Go.Progress
