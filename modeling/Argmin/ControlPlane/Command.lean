import Argmin.ControlPlane.Types

/-!
# Commands, responses and errors of the control plane

The replicated commands (`control_plane_command.rs`), their responses, and the errors with which
a command is refused (`control_plane/error.rs`).  Only the errors that a modelled function can
return are listed; each keeps the fields of its source variant.
-/

namespace Argmin.ControlPlane

structure NodePgHeartbeatObservation where
  pgId : PgId
  state : PgState
  metadataProof : PgMetadataProof
  metadataLogEpoch : ClusterEpoch
  pendingMetadataCommand : Option PendingMetadataCommandObservation
deriving DecidableEq

structure NodeHeartbeat where
  nodeId : NodeId
  nodeIncarnation : Nat
  endpoint : String
  observedEpoch : ClusterEpoch
  requestedLeaseDurationMs : Nat
  clusterMapHistoryRouteScanGeneration : Nat
  clusterMapHistoryRouteReferences : PgClusterMapHistoryRouteReferences
  pgObservations : List NodePgHeartbeatObservation
deriving DecidableEq

structure ExpiredNodeHeartbeatLease where
  nodeId : NodeId
  leaseDeadlineMs : Nat
deriving DecidableEq

structure PromotedNodeHeartbeatLease where
  nodeId : NodeId
  nodeIncarnation : Nat
  leaseDeadlineMs : Nat
deriving DecidableEq

structure ReadyPgPeeringCompletion where
  pgId : PgId
  primary : NodeId
  nodeIncarnation : Nat
  activeMetadataProof : PgMetadataProof
  activeMetadataProofEpoch : ClusterEpoch
deriving DecidableEq

/-- The body of `BeginUnavailablePgPlacementTransition`. -/
structure BeginUnavailableTransition where
  pgId : PgId
  predecessorTransitionEpoch : Option ClusterEpoch
  sourceEpoch : ClusterEpoch
  sourceActingSet : List NodeId
  sourceNodeId : NodeId
  beginAuthorization : UnavailablePgTransitionBeginAuthorization
  unavailableNodeId : NodeId
  unavailableNodeIncarnation : Nat
  unavailableEndpoint : String
  unavailableLeaseDeadlineMs : Nat
  unavailableObservedAtMs : Nat
  graceCutoffMs : Nat
  topologyGeneration : Nat
  topologyDigest : TopologyDigest
  destinationActingSet : List NodeId
  expectedTransitionEpoch : ClusterEpoch
  beginAtMs : Nat
deriving DecidableEq

/-- The body of `CompleteUnavailablePgPlacementTransition`. -/
structure CompleteUnavailableTransition where
  unavailableTransition : UnavailablePgTransitionMutationBinding
  pgId : PgId
  transitionEpoch : ClusterEpoch
  destinationEpoch : ClusterEpoch
  topologyGeneration : Nat
  topologyDigest : TopologyDigest
  readyAtMs : Nat
  destinations : List UnavailablePgPayloadDestinationReadiness
  completion : ReadyPgPeeringCompletion
deriving DecidableEq

inductive ControlPlaneCommand
  | bootstrapInitialClusterMap (nodes : List (NodeId × String)) (pgIds : List PgId)
  | bootstrapCertifiedInitialClusterMap (nodes : List (NodeId × String))
      (pgActingSets : List (PgId × List NodeId)) (topology : InitialClusterTopologyCertificate)
  | setNodeMembership (nodeId : NodeId) (membership : NodeMembershipState)
  | markNodeAvailability (nodeId : NodeId) (availability : NodeAvailabilityState)
  | recordNodeHeartbeat (heartbeat : NodeHeartbeat) (heartbeatAtMs leaseDeadlineMs : Nat)
      (leaseHorizonAuthority : Option LeaseHorizonAuthorityBinding)
  | expireHeartbeatLeases (expireAtMs : Nat)
  | expireNodeHeartbeatLeases (authority : LeaseHorizonAuthorityBinding) (expireAtMs : Nat)
      (expired : List ExpiredNodeHeartbeatLease)
  | promoteNodeHeartbeatLeases (authority : LeaseHorizonAuthorityBinding)
      (promoted : List PromotedNodeHeartbeatLease)
  | beginUnavailablePgPlacementTransition (body : BeginUnavailableTransition)
  | completeUnavailablePgPlacementTransition (body : CompleteUnavailableTransition)
  | establishLeaseGrantHorizon (authority : LeaseHorizonAuthorityBinding)
      (authorityNowMs horizonDurationMs : Nat)
  | setPgActingSet (pgId : PgId) (actingSet : List NodeId)
  | setPgActingSetWithMetadataTransfer (pgId : PgId) (actingSet : List NodeId)
      (transfer : PgMetadataTransferProof) (expectedDestinationEpoch : ClusterEpoch)
      (unavailableTransition : Option UnavailablePgTransitionMutationBinding)
  | fencePgForMetadataTransfer (pgId : PgId) (sourcePrimaryLeaseDeadlineMs : Option Nat)
      (leaseHorizonAuthority : Option LeaseHorizonAuthorityBinding)
      (unavailableTransition : Option UnavailablePgTransitionMutationBinding)
  | setPgState (pgId : PgId) (state : PgState)
  | completePgPeering (pgId : PgId) (primary : NodeId) (nodeIncarnation completeAtMs : Nat)
  | completeReadyPgPeerings (readyAtMs : Nat) (ready : List ReadyPgPeeringCompletion)
deriving DecidableEq

inductive ControlPlaneCommandResponse
  | bootstrapInitialClusterMap
  | setNodeMembership
  | markNodeAvailability
  | recordNodeHeartbeat
  | establishLeaseGrantHorizon
  | promoteNodeHeartbeatLeases
  | beginUnavailablePgPlacementTransition
  | completeUnavailablePgPlacementTransition
  | expireHeartbeatLeases (expiredNodes : List NodeId) (peeringPgs : List PgId)
  | setPgActingSet
  | setPgActingSetWithMetadataTransfer
  | fencePgForMetadataTransfer (sourcePrimaryLeaseDeadlineMs : Option Nat)
  | setPgState
  | completePgPeering
  | completeReadyPgPeerings
deriving DecidableEq

structure AppliedControlPlaneCommand where
  snapshot : ClusterControlSnapshot
  response : ControlPlaneCommandResponse
  changed : Bool
deriving DecidableEq

inductive ControlPlaneError
  | rpcProtocol (message : String)
  | commandDecode (message : String)
  | snapshotInvariantViolation (context message : String)
  | unknownNode (nodeId : NodeId)
  | unknownPg (pgId : PgId)
  | unknownClusterMapEpoch (clusterEpoch : ClusterEpoch)
  | storageClusterMapHistoryRouteInFuture (nodeId : NodeId) (routeEpoch : ClusterEpoch)
      (pgId : PgId) (validationEpoch : ClusterEpoch)
  | storageClusterMapHistoryRouteNotRetained (nodeId : NodeId) (routeEpoch : ClusterEpoch)
      (pgId : PgId) (clusterEpoch : ClusterEpoch)
  | emptyActingSet (pgId : PgId)
  | unknownActingSetNode (pgId : PgId) (nodeId : NodeId)
  | duplicateActingSetNode (pgId : PgId) (nodeId : NodeId)
  | pgMetadataMigrationRequiresTransfer (pgId : PgId)
  | pgMetadataMigrationSourceNotReady (pgId : PgId) (clusterEpoch : ClusterEpoch)
  | pgActingSetChangeNotReady (pgId : PgId) (clusterEpoch : ClusterEpoch) (state : PgState)
  | pgMetadataTransferSourceEpochInFuture (pgId : PgId) (sourceEpoch clusterEpoch : ClusterEpoch)
  | pgMetadataTransferSourceEpochStale (pgId : PgId) (sourceEpoch clusterEpoch : ClusterEpoch)
  | pgMetadataTransferProofBelowFloor (pgId : PgId) (expected actual : PgMetadataProof)
  | pgMetadataTransferProofMismatch (pgId : PgId) (expected actual : PgMetadataTransferProof)
  | pgMetadataTransferDestinationEpochMismatch (pgId : PgId)
      (expectedDestinationEpoch actualDestinationEpoch : ClusterEpoch)
  | duplicateBootstrapPg (pgId : PgId)
  | duplicateReadyPgPeeringCompletion (pgId : PgId)
  | bootstrapRequiresEmptyState
  | invalidInitialTopology (message : String)
  | duplicatePgObservation (nodeId : NodeId) (pgId : PgId)
  | pgObservationNotInActingSet (nodeId : NodeId) (pgId : PgId)
  | activePgRequiresPeeringComplete (pgId : PgId)
  | activePgMissingMetadataProof (pgId : PgId)
  | pgMetadataTransferFenceRequiresTransferInstall (pgId : PgId)
  | pgPreviousPrimaryLeaseStillActive (pgId : PgId) (previousPrimary : NodeId)
      (previousPrimaryIncarnation : Nat) (previousPrimaryEndpoint : String)
      (proposedPrimary : NodeId) (proposedPrimaryIncarnation : Nat)
      (proposedPrimaryEndpoint : String) (completedAtMs leaseDeadlineMs : Nat)
  | pgPrimaryNotInActingSet (pgId : PgId) (nodeId : NodeId)
  | pgPrimaryNotServingCurrentEpoch (pgId : PgId) (nodeId : NodeId)
  | nodeIncarnationMismatch (nodeId : NodeId) (senderIncarnation currentIncarnation : Nat)
  | staleNodeObservedEpoch (nodeId : NodeId) (observedEpoch currentEpoch : ClusterEpoch)
  | futureNodeObservedEpoch (nodeId : NodeId) (observedEpoch currentEpoch : ClusterEpoch)
  | nodeNotServingCurrentEpoch (nodeId : NodeId) (clusterEpoch : ClusterEpoch)
  | nodeEndpointMissing (nodeId : NodeId) (clusterEpoch : ClusterEpoch)
  | nodeLeaseExpired (nodeId : NodeId) (nowMs : Nat) (leaseDeadlineMs : Option Nat)
  | pgNotActive (pgId : PgId) (clusterEpoch : ClusterEpoch) (state : PgState)
  | pgNotPeering (pgId : PgId) (clusterEpoch : ClusterEpoch) (state : PgState)
  | pgPeeringMissingObservation (pgId : PgId) (nodeId : NodeId) (clusterEpoch : ClusterEpoch)
  | pgPeeringObservationNotPeering (pgId : PgId) (nodeId : NodeId) (clusterEpoch : ClusterEpoch)
      (state : PgState)
  | pgPeeringMetadataProofMismatch (pgId : PgId) (nodeId : NodeId) (clusterEpoch : ClusterEpoch)
      (expected actual : PgMetadataProof)
  | pgPeeringMetadataProofEpochMismatch (pgId : PgId) (expected actual : ClusterEpoch)
  | pgPeeringMetadataProofBelowFloor (pgId : PgId) (nodeId : NodeId)
      (clusterEpoch : ClusterEpoch) (expected actual : PgMetadataProof)
  | pgPeeringPendingMetadataCommand (pgId : PgId) (nodeId : NodeId) (clusterEpoch : ClusterEpoch)
      (pending : PendingMetadataCommandObservation)
  | pgPeeringPendingMetadataCommandMismatch (pgId : PgId) (clusterEpoch : ClusterEpoch)
      (firstNodeId : NodeId) (first : PendingMetadataCommandObservation)
      (secondNodeId : NodeId) (second : PendingMetadataCommandObservation)
  | pgPeeringPendingMetadataCommandReporterNotHistoricalPrimary (pgId : PgId)
      (clusterEpoch : ClusterEpoch) (nodeId : NodeId) (pendingEpoch : ClusterEpoch)
      (historicalState : PgState) (historicalPrimaryNodeId : NodeId)
  | pgActiveMetadataProofMismatch (pgId : PgId) (nodeId : NodeId) (clusterEpoch : ClusterEpoch)
      (expected actual : PgMetadataProof)
  | pgPrimaryMissingActiveObservation (pgId : PgId) (nodeId : NodeId)
      (clusterEpoch : ClusterEpoch)
  | pgPrimaryObservationNotActive (pgId : PgId) (nodeId : NodeId) (clusterEpoch : ClusterEpoch)
      (state : PgState)
  | pgHasNoServingPrimary (pgId : PgId) (clusterEpoch : ClusterEpoch)
  | removedNodeCannotRejoin (nodeId : NodeId)
  | nodeCannotReceiveLease (nodeId : NodeId) (membership : NodeMembershipState)
  | staleNodeIncarnation (nodeId : NodeId) (heartbeatIncarnation currentIncarnation : Nat)
  | invalidLeaseDuration
  | leaseDurationTooLong (requestedMs maxMs : Nat)
  | invalidLeaseGrantHorizonDuration (durationMs maxMs : Nat)
  | leaseGrantHorizonTimestampOverflow (field : String)
  | previousLeaseGrantHorizonStillActive (authorityNowMs fencedUntilMs : Nat)
  | leaseDeadlineOverflow
  | leaseDeadlineOutOfBounds (servingDeadlineMs effectiveCommittedNowMs maxLeaseMs
      skewBudgetMs : Nat)
  | leaseDeadlineMismatch (nodeId : NodeId) (heartbeatAtMs requestedMs expectedDeadlineMs
      actualDeadlineMs : Nat)
  | nodeLeaseDeadlineRegression (nodeId : NodeId) (currentLeaseDeadlineMs
      requestedLeaseDeadlineMs : Nat)
  | committedTimestampRegression (timestampMs maxCommittedTimestampMs : Nat)
  | clusterEpochOverflow
  | authorityIncarnationOverflow
  | parse (line : Nat) (message : String)
  | invalidState (field value : String)
  | snapshotDecode (message : String)
  | controlPlaneLogIndexOverflow (index : Nat)
  | controlPlaneLogIndexMismatch (expectedIndex actualIndex : Nat)
  | controlPlaneLogTermRegression (previousTerm actualTerm index : Nat)
  | controlPlaneSnapshotMissingLogId (currentIndex : Nat)
  | controlPlaneSnapshotLogIndexRegression (currentIndex artifactIndex : Nat)
  | controlPlaneSnapshotLogTermMismatch (index currentTerm artifactTerm : Nat)
  | leaseGrantHorizonAuthorityTermMismatch (authorityTerm committedTerm : Option Nat)
deriving DecidableEq

def controlPlaneLeaseClockError : LeaseClockError → ControlPlaneError
  | .timestampOverflow _ => .leaseDeadlineOverflow
  | .servingDeadlineOutOfBounds s e m k => .leaseDeadlineOutOfBounds s e m k

def controlPlaneLeaseHorizonError : LeaseHorizonError → ControlPlaneError
  | .timestampOverflow field => .leaseGrantHorizonTimestampOverflow field
  | .previousHorizonStillActive now fenced => .previousLeaseGrantHorizonStillActive now fenced

end Argmin.ControlPlane
