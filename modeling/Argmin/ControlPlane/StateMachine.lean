import Argmin.ControlPlane.NodeCommands
import Argmin.ControlPlane.PgCommands

/-!
# The command state machine

`applyControlPlaneCommand` dispatches a command to its arm and refuses the result when the
snapshot it produced is not well formed.
-/

namespace Argmin.ControlPlane

open Fallible TreeMap

/-- The arm of a command, before the produced snapshot is validated. -/
def applyArm (self : ClusterControlSnapshot) :
    ControlPlaneCommand → Except ControlPlaneError AppliedControlPlaneCommand
  | .bootstrapInitialClusterMap nodes pgIds =>
    applyBootstrapInitialClusterMap self nodes (pgIds.map (·, nodes.map (·.1))) none
  | .bootstrapCertifiedInitialClusterMap nodes pgActingSets topology =>
    applyBootstrapInitialClusterMap self nodes pgActingSets (some topology)
  | .setNodeMembership nodeId membership => applySetNodeMembership self nodeId membership
  | .markNodeAvailability nodeId availability => applyMarkNodeAvailability self nodeId availability
  | .recordNodeHeartbeat heartbeat heartbeatAtMs leaseDeadlineMs authority =>
    applyRecordNodeHeartbeat self heartbeat heartbeatAtMs leaseDeadlineMs authority
  | .expireHeartbeatLeases expireAtMs => applyExpireHeartbeatLeases self expireAtMs
  | .expireNodeHeartbeatLeases authority expireAtMs expired =>
    applyExpireNodeHeartbeatLeases self authority expireAtMs expired
  | .promoteNodeHeartbeatLeases authority promoted =>
    applyPromoteNodeHeartbeatLeases self authority promoted
  | .beginUnavailablePgPlacementTransition body =>
    applyBeginUnavailablePgPlacementTransition self body
  | .completeUnavailablePgPlacementTransition body =>
    applyCompleteUnavailablePgPlacementTransition self body
  | .establishLeaseGrantHorizon authority authorityNowMs horizonDurationMs =>
    applyEstablishLeaseGrantHorizon self authority authorityNowMs horizonDurationMs
  | .setPgActingSet pgId actingSet => applySetPgActingSet self pgId actingSet
  | .setPgActingSetWithMetadataTransfer pgId actingSet transfer expected transition =>
    applySetPgActingSetWithMetadataTransfer self pgId actingSet transfer expected transition
  | .fencePgForMetadataTransfer pgId committed authority transition =>
    applyFencePgForMetadataTransfer self pgId committed authority transition
  | .setPgState pgId state => applySetPgState self pgId state
  | .completePgPeering pgId primary nodeIncarnation completeAtMs =>
    applyCompletePgPeering self pgId primary nodeIncarnation completeAtMs
  | .completeReadyPgPeerings readyAtMs ready => applyCompleteReadyPgPeerings self readyAtMs ready

def applyControlPlaneCommand (self : ClusterControlSnapshot) (command : ControlPlaneCommand) :
    Except ControlPlaneError AppliedControlPlaneCommand := do
  let applied ← applyArm self command
  validateControlPlaneSnapshot "control-plane command produced invalid snapshot" applied.snapshot
  pure applied

end Argmin.ControlPlane
