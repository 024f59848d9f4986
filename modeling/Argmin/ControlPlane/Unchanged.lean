import Argmin.ControlPlane.HistoryPrune

/-!
# Settled snapshots

A command whose flag is not set leaves the snapshot as it was (`unchanged_of_applyArm`).  So the
history of a reachable snapshot is always pruned (`settled_of_run`), and promoting a lease, which
prunes again, leaves it as it is.
-/

namespace Argmin.ControlPlane

open Fallible

/-! ### Pruned histories -/

/-- The snapshot is well formed and its history is pruned. -/
structure ClusterControlSnapshot.Settled (s : ClusterControlSnapshot) : Prop where
  valid : validatePublicationInvariants s = .ok ()
  pruned : pruneClusterMapHistory s.history s.historyProtection s.clusterEpoch = s.history

section Settled

variable {s t : ClusterControlSnapshot}

theorem pruned_recordHistoryFrom (s previous : ClusterControlSnapshot) :
    let t := s.recordHistoryFrom previous
    pruneClusterMapHistory t.history t.historyProtection t.clusterEpoch = t.history :=
  pruneClusterMapHistory_idem _ _ _

/-- A result is recorded with a pruned history, or is the snapshot before. -/
theorem snapshot_of_applyArm {command : ControlPlaneCommand} {a : AppliedControlPlaneCommand}
    (h : applyArm s command = .ok a) :
    a.snapshot = s ∨ ∃ next : ClusterControlSnapshot, a.snapshot = next.recordHistoryFrom s := by
  obtain ⟨next, response, changed, rfl, -, -⟩ := outcome_of_applyArm h
  have hunchanged := unchanged_of_applyArm h
  cases changed with
  | false => exact .inl (hunchanged rfl)
  | true => exact .inr ⟨next, rfl⟩

theorem settled_step {event : ControlPlaneEvent} (h : controlPlaneStep s event = some t)
    (hs : s.Settled) : t.Settled := by
  cases event with
  | command command =>
    obtain ⟨a, ha, rfl⟩ := acceptedCommand_eq_some h
    obtain ⟨harm, hvalid⟩ := applyControlPlaneCommand_eq_ok ha
    refine ⟨hvalid, ?_⟩
    rcases snapshot_of_applyArm harm with heq | ⟨next, heq⟩
    · rw [heq]
      exact hs.pruned
    · rw [heq]
      exact pruned_recordHistoryFrom next s
  | restart =>
    obtain ⟨bumped, -, rfl, hvalid⟩ := controlPlaneStep_restart h
    exact ⟨hvalid, pruned_recordHistoryFrom bumped s⟩

theorem settled_empty : ClusterControlSnapshot.empty.Settled :=
  ⟨by decide +kernel, by decide +kernel⟩

/-- **Every reachable snapshot is well formed, with a pruned history.** -/
theorem settled_of_run {Ok : ClusterControlSnapshot → ControlPlaneEvent → Prop}
    {past : List ClusterControlSnapshot} (h : Run controlPlaneStep Ok .empty past t) : t.Settled :=
  h.invariant settled_empty fun hs _ hstep => settled_step hstep hs

end Settled

end Argmin.ControlPlane
