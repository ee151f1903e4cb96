import Mathlib.Algebra.Order.Field.Rat
import SimsysMetrics.Go.Progress
import SimsysMetrics.Node.Progress
import SimsysMetrics.Python.Progress

/-!
# What the progress trackers show

In exact arithmetic, a tracker of the Node and of the Python lane upholds what `Progress.Lane` says
of it, whatever is called and whatever its clocks read (`trackers_uphold`).

The rates of a tracker are meant to account for what it processed. In all three lanes a tick takes
the processed count as its new baseline also where no time has passed since the tick before it, and
then what is new is in no rate. So the rates account for everything exactly in the runs where each
such tick finds nothing new, or is followed by no tick at which time has passed
(`rates_account_iff`).
-/

namespace SimsysMetrics.ProgressTrackers

open SimsysMetrics.Progress (Key ok_of_map)
open Lib (Store)
open scoped Go.Progress

section Trackers

variable {𝕜 : Type} [Field 𝕜] [LinearOrder 𝕜] [IsStrictOrderedRing 𝕜]

/-- A tracker that is started with accepted options has what they say, and upholds what it shows for
its service, its operation, its total and its window, after any calls of it and at any readings of
its clocks. -/
theorem trackers_uphold (service : Option String) (samples : Store Key 𝕜) :
    (∀ (now : ℤ) (opts : Node.Progress.ProgressOpts 𝕜) s,
      Node.Progress.trackProgress service now opts samples = .ok s →
        ∃ o, Node.Progress.SetUp service now opts samples o ∧ Progress.Lane.New o s ∧
          ∀ calls, Node.Progress.lane.Upholds o s calls) ∧
      ∀ (now : 𝕜) (opts : Python.Progress.ProgressOpts 𝕜) s,
        Python.Progress.trackProgress service now opts samples = .ok s →
          ∃ o, Python.Progress.SetUp service now opts samples o ∧ Progress.Lane.New o s ∧
            ∀ calls, Python.Progress.lane.Upholds o s calls := by
  constructor
  · intro now opts s h
    obtain ⟨o, hsetUp, hnew⟩ := Node.Progress.new_of_trackProgress h
    exact ⟨o, hsetUp, hnew, Progress.Lane.upholds hnew⟩
  · intro now opts s h
    obtain ⟨o, hsetUp, hnew⟩ := Python.Progress.new_of_trackProgress h
    exact ⟨o, hsetUp, hnew, Progress.Lane.upholds hnew⟩

/-- Ten items with the default window and interval. -/
def tenItems : Node.Progress.ProgressOpts ℚ := ⟨"scan", .number 10, .undefined, .undefined⟩

/-- The same in Python. -/
def tenItemsPy : Python.Progress.ProgressOpts ℚ := ⟨"scan", .int 10, .float 5, .float 5⟩

/-- Trackers of ten items: four are done in two seconds, and a rejected call and a new total follow
before `stop`. -/
theorem ten_items_upheld :
    (∃ s o, Node.Progress.trackProgress (some "portal") 0 tenItems (fun _ => none) = .ok s ∧
      o.service = "portal" ∧ o.operation = "scan" ∧
      Node.Progress.lane.Upholds o s [.inc (.number 4), .tick (2 * 10^9) 100, .inc .nan,
        .setTotal (.number 20), .stop (3 * 10^9) 101]) ∧
      ∃ s o, Python.Progress.trackProgress (some "portal") 0 tenItemsPy (fun _ => none) = .ok s ∧
        o.service = "portal" ∧ o.operation = "scan" ∧
        Python.Progress.lane.Upholds o s [.inc (.int 4), .tick 2 100, .inc .nan,
          .setTotal (.int 20), .stop 3 101] := by
  obtain ⟨hnode, hpython⟩ := trackers_uphold (some "portal") fun _ => (none : Option ℚ)
  obtain ⟨s, hs, -⟩ := ok_of_map (f := fun _ => ()) (b := ())
    (x := Node.Progress.trackProgress (some "portal") 0 tenItems fun _ => none) (by decide +kernel)
  obtain ⟨t, ht, -⟩ := ok_of_map (f := fun _ => ()) (b := ())
    (x := Python.Progress.trackProgress (some "portal") 0 tenItemsPy fun _ => none)
    (by decide +kernel)
  obtain ⟨o, ho, -, hupholds⟩ := hnode 0 tenItems s hs
  obtain ⟨o', ho', -, hupholds'⟩ := hpython 0 tenItemsPy t ht
  exact ⟨⟨s, o, hs, (Option.some.inj ho.service).symm, ho.operation, hupholds _⟩,
    ⟨t, o', ht, (Option.some.inj ho'.service).symm, ho'.operation, hupholds' _⟩⟩

/-- What a metered tracker accounts for in its rates: the rates at its ticks at which time has
passed, each times its time, add up to the processed count at the last one of them. -/
def Accounts {σ ε : Type} {step : σ → ε → σ} (M : Lib.Metered step 𝕜) (s : σ) (calls : List ε) :
    Prop :=
  ∀ processed, (M.counts s calls).getLast? = some processed → (M.accounts s calls).sum = processed

/-- A system that starts from zero conserves its count exactly when its rates account for it. -/
theorem accounts_iff {σ ε : Type} {step : σ → ε → σ} (M : Lib.Metered step 𝕜) {s : σ}
    (hcount : M.count s = 0) (hbase : M.base s = 0) (calls : List ε) :
    Accounts M s calls ↔ M.LosesNothing s calls := by
  rw [← M.conserved_iff (hbase.trans hcount.symm).le, Lib.Metered.Conserved, hbase]
  simp only [sub_zero]
  rfl

omit [IsStrictOrderedRing 𝕜] in
/-- A tracker with one rate at which time has passed, which accounts for another count than the one
at it, does not account for its count. -/
theorem not_accounts {σ ε : Type} {step : σ → ε → σ} {M : Lib.Metered step 𝕜} {s : σ}
    {calls : List ε} {processed account : 𝕜} (hcounts : M.counts s calls = [processed])
    (haccounts : M.accounts s calls = [account]) (hne : account ≠ processed) :
    ¬ Accounts M s calls := by
  intro h
  have hsum := h processed (by rw [hcounts]; rfl)
  rw [haccounts, List.sum_singleton] at hsum
  exact hne hsum

/-- In each lane, the rates of a tracker account for what it processed exactly when each of its
ticks at which no time has passed finds nothing new, or no tick at which time has passed comes
after it. -/
theorem rates_account_iff (service : Option String) (samples : Store Key 𝕜) :
    (∀ (now : ℤ) (opts : Node.Progress.ProgressOpts 𝕜) s,
      Node.Progress.trackProgress service now opts samples = .ok s → ∀ calls,
        Accounts Node.Progress.lane.metered s calls ↔
          Node.Progress.lane.metered.LosesNothing s calls) ∧
    (∀ (now : 𝕜) (opts : Python.Progress.ProgressOpts 𝕜) s,
      Python.Progress.trackProgress service now opts samples = .ok s → ∀ calls,
        Accounts Python.Progress.lane.metered s calls ↔
          Python.Progress.lane.metered.LosesNothing s calls) ∧
    ∀ (service : String) (now : ℤ) (opts : Go.Progress.ProgressOpts ℤ) s,
      Go.Progress.trackProgress .exact service now opts samples = .ok s → ∀ calls,
        Accounts Go.Progress.metered s calls ↔ Go.Progress.metered.LosesNothing s calls := by
  refine ⟨?_, ?_, ?_⟩
  · intro now opts s h calls
    obtain ⟨o, -, hnew⟩ := Node.Progress.new_of_trackProgress h
    exact accounts_iff _ hnew.processed hnew.lastProcessed calls
  · intro now opts s h calls
    obtain ⟨o, -, hnew⟩ := Python.Progress.new_of_trackProgress h
    exact accounts_iff _ hnew.processed hnew.lastProcessed calls
  · intro service now opts s h calls
    have hnew := Go.Progress.new_of_trackProgress h
    refine accounts_iff _ ?_ ?_ calls
    · exact (congrArg Int.cast hnew.processed).trans Int.cast_zero
    · exact (congrArg Int.cast hnew.lastProcessed).trans Int.cast_zero

/-- Trackers that tick two seconds after their start, and a second later: their rates account for
all items. -/
theorem ticks_apart_account :
    (∃ s, Node.Progress.trackProgress (some "portal") 0 tenItems (fun _ => none) = .ok s ∧
      Accounts Node.Progress.lane.metered s [.inc (.number 4), .tick (2 * 10^9) 100,
        .inc (.number 1), .stop (3 * 10^9) 101]) ∧
    (∃ s, Python.Progress.trackProgress (some "portal") 0 tenItemsPy (fun _ => none) = .ok s ∧
      Accounts Python.Progress.lane.metered s [.inc (.int 4), .tick 2 100, .inc (.int 1),
        .stop 3 101]) ∧
    ∃ s, Go.Progress.trackProgress (.exact : Go.Progress.Conversion ℚ) "portal" 0
        ⟨"scan", 10, 0, 0⟩ (fun _ => none) = .ok s ∧
      Accounts Go.Progress.metered s [.inc 4, .tick (2 * 10^9) 100, .inc 1,
        .stop (3 * 10^9) 101] := by
  obtain ⟨hnode, hpython, hgo⟩ := rates_account_iff (some "portal") fun _ => (none : Option ℚ)
  -- In each lane time passes before every tick that finds items.
  obtain ⟨s, hs, hpasses⟩ := ok_of_map
    (x := Node.Progress.trackProgress (some "portal") 0 tenItems fun _ => none)
    (f := fun s => decide (Node.Progress.lane.metered.TimePasses s [.inc (.number 4),
      .tick (2 * 10^9) 100, .inc (.number 1), .stop (3 * 10^9) 101]))
    (b := true) (by decide +kernel)
  obtain ⟨t, ht, hpasses'⟩ := ok_of_map
    (x := Python.Progress.trackProgress (some "portal") 0 tenItemsPy fun _ => none)
    (f := fun s => decide (Python.Progress.lane.metered.TimePasses s [.inc (.int 4), .tick 2 100,
      .inc (.int 1), .stop 3 101]))
    (b := true) (by decide +kernel)
  obtain ⟨u, hu, hpasses''⟩ := ok_of_map
    (x := Go.Progress.trackProgress (.exact : Go.Progress.Conversion ℚ) "portal" 0
      ⟨"scan", 10, 0, 0⟩ fun _ => none)
    (f := fun s => decide (Go.Progress.metered.TimePasses s [.inc 4, .tick (2 * 10^9) 100, .inc 1,
      .stop (3 * 10^9) 101]))
    (b := true) (by decide +kernel)
  refine ⟨⟨s, hs, (hnode 0 tenItems s hs _).mpr ?_⟩, ⟨t, ht, (hpython 0 tenItemsPy t ht _).mpr ?_⟩,
    ⟨u, hu, (hgo "portal" 0 ⟨"scan", 10, 0, 0⟩ u hu _).mpr ?_⟩⟩
  · exact Lib.Metered.losesNothing_of_timePasses _ (of_decide_eq_true hpasses)
  · exact Lib.Metered.losesNothing_of_timePasses _ (of_decide_eq_true hpasses')
  · exact Lib.Metered.losesNothing_of_timePasses _ (of_decide_eq_true hpasses'')

/-- Five items are done, and a tick finds them before any time has passed. The next one, a second
later, finds nothing new, so that they are in no rate. In Go the clock may also have stepped
back. -/
theorem late_tick_loses_items :
    (∃ s, Node.Progress.trackProgress (some "portal") 0 tenItems (fun _ => none) = .ok s ∧
      ¬ Accounts Node.Progress.lane.metered s
        [.inc (.number 5), .tick 0 100, .tick (10^9) 101]) ∧
      ∃ s, Go.Progress.trackProgress (.exact : Go.Progress.Conversion ℚ) "portal" 0
          ⟨"scan", 10, 0, 0⟩ (fun _ => none) = .ok s ∧
        ¬ Accounts Go.Progress.metered s [.inc 5, .tick (-1) 100, .tick (10^9) 101] := by
  obtain ⟨s, hs, hcounts⟩ := ok_of_map
    (x := Node.Progress.trackProgress (some "portal") 0 tenItems fun _ => none)
    (f := fun s => let calls := [.inc (.number 5), .tick 0 100, .tick (10^9) 101]
      (Node.Progress.lane.metered.counts s calls, Node.Progress.lane.metered.accounts s calls))
    (b := ([5], [0])) (by decide +kernel)
  obtain ⟨t, ht, hcounts'⟩ := ok_of_map
    (x := Go.Progress.trackProgress (.exact : Go.Progress.Conversion ℚ) "portal" 0
      ⟨"scan", 10, 0, 0⟩ fun _ => none)
    (f := fun s => let calls := [.inc 5, .tick (-1) 100, .tick (10^9) 101]
      (Go.Progress.metered.counts s calls, Go.Progress.metered.accounts s calls))
    (b := ([5], [0])) (by decide +kernel)
  obtain ⟨hcounts, haccounts⟩ := Prod.mk.inj hcounts
  obtain ⟨hcounts', haccounts'⟩ := Prod.mk.inj hcounts'
  exact ⟨⟨s, hs, not_accounts hcounts haccounts (by decide)⟩,
    ⟨t, ht, not_accounts hcounts' haccounts' (by decide)⟩⟩

end Trackers

end SimsysMetrics.ProgressTrackers
