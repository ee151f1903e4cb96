import SimsysMetrics.Node.Express
import SimsysMetrics.Node.Hono
import SimsysMetrics.Node.Next

/-!
# Runs of installs in a Node process

The installs of a process, one after another, through any of the three adapters and on any apps.
They share the process-wide state, and each keeps its invariant (`inv_history`). So after any
history, an install that throws gives the identity of the process back exactly under the condition
of `Restorable` (`identity_restored_iff`): the default label of the shared registry, which has no
undo, must be the service already, or not yet be set when it throws.
-/

namespace SimsysMetrics.Node

/-- A call of an install, on an app in any state, with the step that throws, if any. -/
inductive Call where
  | express (env : Env) (o : InstallOpts) (fault : Option (Fault Express.WireFault))
      (app : Express.App)
  | hono (env : Env) (o : InstallOpts) (fault : Option (Fault Hono.WireFault)) (app : Hono.App)
  | next (env : Env) (o : InstallOpts) (n : Next.NextOpts) (fault : Option (Fault Next.WireFault))
      (g : Next.Globals)

namespace Call

/-- The process-wide state after a call. -/
def proc (p : Proc) : Call → Proc
  | .express env o fault app => (Express.installExpress env o fault p app).proc
  | .hono env o fault app => (Hono.installHono env o fault p app).proc
  | .next env o n fault g => (Next.installNext env o n fault p g).proc

/-- Whether a call throws. -/
def raised (p : Proc) : Call → Bool
  | .express env o fault app => (Express.installExpress env o fault p app).raised
  | .hono env o fault app => (Hono.installHono env o fault p app).raised
  | .next env o n fault g => (Next.installNext env o n fault p g).raised

/-- The call reaches its `try` block: `installNext` accepts its options. -/
def EntersTry : Call → Prop
  | .next _ o _ _ _ => Next.Accepted o
  | _ => True

/-- The condition under which a call that throws gives the identity back. -/
def Restorable (p : Proc) : Call → Prop
  | .express env o fault _ => Node.Restorable env o fault p
  | .hono env o fault _ => Node.Restorable env o fault p
  | .next env o _ fault _ => Node.Restorable env o fault p

end Call

/-- The process-wide state after a history of calls in a fresh process. -/
def history (calls : List Call) : Proc := Lib.run Call.proc .fresh calls

/-- The state after every history satisfies the invariant. -/
theorem inv_history (calls : List Call) : (history calls).Inv := by
  apply Lib.invariant_run _ Proc.inv_fresh
  rintro p (_ | _ | ⟨env, o, n, fault, g⟩) hp
  · exact inv_installOn hp
  · exact inv_installOn hp
  · show (Next.installNext env o n fault p g).proc.Inv
    unfold Next.installNext
    split_ifs
    · exact inv_installOn hp
    · exact hp

/-- After every history, an install that throws in its `try` block gives the identity of the process
back exactly under the condition. -/
theorem identity_restored_iff (calls : List Call) (call : Call) (htry : call.EntersTry)
    (hraised : call.raised (history calls) = true) :
    (call.proc (history calls)).identity = (history calls).identity ↔
      call.Restorable (history calls) := by
  have hinv := inv_history calls
  obtain ⟨env, o, fault, app⟩ | ⟨env, o, fault, app⟩ | ⟨env, o, n, fault, g⟩ := call
  · exact identity_of_raised_iff hinv hraised
  · exact identity_of_raised_iff hinv hraised
  · unfold Call.raised Next.installNext at hraised
    unfold Call.proc Next.installNext
    dsimp only at hraised ⊢
    rw [if_pos (show Next.Accepted o from htry)] at hraised ⊢
    exact identity_of_raised_iff hinv hraised

/-- The options of an install of `portal` at the default metrics path. -/
def portalOpts : InstallOpts := ⟨"portal", "1.0", none, none⟩

/-- A runtime in a checkout. -/
def checkout : Env := ⟨"abc1234", "2026-08-05T00:00:00Z"⟩

/-- A second app of the same service, in the same second, whose `app.get` throws: the identity is
given back. -/
theorem same_service_restored :
    let calls := [Call.express checkout portalOpts none (.hosted [])]
    let call := Call.express checkout portalOpts (some (.wire .get)) (.hosted [])
    call.EntersTry ∧ call.raised (history calls) = true ∧
      ((call.proc (history calls)).identity = (history calls).identity ↔
        call.Restorable (history calls)) := by
  refine ⟨trivial, by decide, ?_⟩
  exact identity_restored_iff _ _ trivial (by decide)

/-- A first install whose `app.get` throws leaves its service as the default label. -/
theorem first_install_leaves_default_label :
    let call := Call.express checkout portalOpts (some (.wire .get)) (.hosted [])
    call.EntersTry ∧ call.raised (history []) = true ∧
      (history []).identity.defaultLabel = none ∧
      (call.proc (history [])).identity.defaultLabel = some "portal" ∧
      (call.proc (history [])).identity ≠ (history []).identity := by
  refine ⟨trivial, by decide, by decide, by decide, ?_⟩
  intro h
  have hlabel := congrArg Identity.defaultLabel h
  revert hlabel
  decide

end SimsysMetrics.Node
