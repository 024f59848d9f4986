import Argmin.ControlPlane.Lease
import Argmin.Lib.TreeMap
import Std.Data.ExtTreeSet

/-!
# The state of the control plane

The records that the control-plane authority replicates (`control_plane.rs`): one record per
storage node, one record per placement group (PG), the transitions that replace an unavailable
node, and the reverse deltas from which the routes of earlier epochs are reconstructed.  The
whole is a `ClusterControlSnapshot`.

A `BTreeMap` of the source is an extensional tree map, so that two maps with the same entries
are equal.  Identifiers, epochs, incarnations and timestamps are natural numbers; sums that the
source checks against 64 bits are checked here too.
-/

namespace Argmin.ControlPlane

open TreeMap

abbrev NodeId := Nat
abbrev PgId := Nat
abbrev ClusterEpoch := Nat
abbrev AuthorityIncarnation := Nat
abbrev TopologyDigest := Vector UInt8 32
abbrev BTreeMap (α β : Type) [Ord α] := Std.ExtTreeMap α β

/-! ### Keys with two or three components

A map keyed by a pair is ordered lexicographically, as derived orders of the source are. -/

/-- Compare `(pg_id, cluster_epoch)` keys. -/
abbrev cmpPgEpoch : PgId × ClusterEpoch → PgId × ClusterEpoch → Ordering := cmpPair

/-! ### Node records -/

inductive NodeMembershipState
  | joining | active | draining | out | removed
deriving DecidableEq, Repr

def NodeMembershipState.canServePrimary : NodeMembershipState → Bool
  | .active | .draining => true
  | _ => false

inductive NodeAvailabilityState
  | healthy | suspect | unavailable
deriving DecidableEq, Repr

/-- Placement-group availability state for one cluster epoch. -/
inductive PgState
  | active | peering | degraded | backfilling | inconsistent
deriving DecidableEq, Repr

inductive PgClusterMapHistoryRouteReferenceKind
  | livePlacement
  | durableBackfillSource
  | durableBackfillDesired
  | metadataCommandResource
  | objectPayloadReclaimClaim
deriving DecidableEq, Repr

def PgClusterMapHistoryRouteReferenceKind.rank : PgClusterMapHistoryRouteReferenceKind → Nat
  | .livePlacement => 0
  | .durableBackfillSource => 1
  | .durableBackfillDesired => 2
  | .metadataCommandResource => 3
  | .objectPayloadReclaimClaim => 4

structure PgClusterMapHistoryRouteReference where
  kind : PgClusterMapHistoryRouteReferenceKind
  clusterEpoch : ClusterEpoch
  pgId : PgId
deriving DecidableEq, Repr

/-- Compare route references by kind, epoch and PG. -/
abbrev cmpRouteReference :
    PgClusterMapHistoryRouteReference → PgClusterMapHistoryRouteReference → Ordering :=
  compareLex (compareOn fun r => r.kind.rank) (lexBy (·.clusterEpoch) (·.pgId))

instance : Std.TransCmp cmpRouteReference := inferInstance

instance : Std.LawfulEqCmp cmpRouteReference where
  eq_of_compare {a b} h := by
    obtain ⟨ka, ea, pa⟩ := a
    obtain ⟨kb, eb, pb⟩ := b
    simp only [cmpRouteReference, compareLex, compareOn, Ordering.then_eq_eq,
      Nat.compare_eq_eq] at h
    obtain ⟨hk, rfl, rfl⟩ := h
    cases ka <;> cases kb <;> first | rfl | cases hk

abbrev PgClusterMapHistoryRouteReferences :=
  Std.ExtTreeSet PgClusterMapHistoryRouteReference cmpRouteReference

structure MetadataCommandLogHash where
  encodingVersion : Nat
  value : Nat
deriving DecidableEq, Repr

structure CanonicalStateDigest where
  encodingVersion : Nat
  value : Nat
deriving DecidableEq, Repr

/-- The metadata progress that one replica reports: log position, log hash, state digest. -/
structure PgMetadataProof where
  appliedLogIndex : Nat
  appliedLogHash : MetadataCommandLogHash
  stateDigest : CanonicalStateDigest
deriving DecidableEq, Repr

structure PgMetadataTransferProof where
  sourceEpoch : ClusterEpoch
  sourceMetadataProof : PgMetadataProof
  importedMetadataProof : PgMetadataProof
deriving DecidableEq, Repr

structure PendingMetadataCommandObservation where
  clusterEpoch : ClusterEpoch
  logIndex : Nat
  commandChecksum : Nat
deriving DecidableEq, Repr

structure NodePgObservationRecord where
  pgId : PgId
  state : PgState
  observedEpoch : ClusterEpoch
  observedAtMs : Nat
  metadataProof : PgMetadataProof
  metadataLogEpoch : ClusterEpoch
  pendingMetadataCommand : Option PendingMetadataCommandObservation
deriving DecidableEq

structure NodeControlRecord where
  nodeId : NodeId
  membership : NodeMembershipState
  administrativelyAvailable : Bool
  observedAvailability : NodeAvailabilityState
  nodeIncarnation : Nat
  endpoint : String
  lastObservedEpoch : Option ClusterEpoch
  lastHeartbeatMs : Option Nat
  leaseDeadlineMs : Option Nat
  clusterMapHistoryRouteScanGeneration : Option Nat
  clusterMapHistoryRouteReferences : PgClusterMapHistoryRouteReferences
  retiringClusterMapHistoryRouteReferences : PgClusterMapHistoryRouteReferences
  pgObservations : BTreeMap PgId NodePgObservationRecord
deriving DecidableEq

structure NodeUnavailableObservation where
  nodeId : NodeId
  nodeIncarnation : Nat
  endpoint : String
  leaseDeadlineMs : Nat
  observedAtMs : Nat
deriving DecidableEq

/-! ### The certified initial topology -/

inductive CertifiedStorageFailureDomain
  | none | disk | host
deriving DecidableEq, Repr

structure CertifiedStorageNodeDomain where
  nodeId : NodeId
  host : String
  disk : String
deriving DecidableEq

structure CertifiedStoragePlacementPolicy where
  ecDataShards : Nat
  ecParityShards : Nat
  failureDomain : CertifiedStorageFailureDomain
  failureTolerance : Nat
  unavailableReplacementGraceMs : Nat
  nodes : List CertifiedStorageNodeDomain
deriving DecidableEq

structure InitialClusterTopologyCertificate where
  topologyGeneration : Nat
  topologyDigest : TopologyDigest
  bootstrapMapDigest : List UInt8
  raftVoters : List Nat
  placementPolicy : CertifiedStoragePlacementPolicy
deriving DecidableEq

/-! ### PG records -/

structure PreviousPrimaryLease where
  nodeId : NodeId
  nodeIncarnation : Nat
  endpoint : String
  leaseDeadlineMs : Nat
  preferReactivation : Bool
deriving DecidableEq

structure PeeringMetadataProofFloor where
  proof : PgMetadataProof
  epoch : Option ClusterEpoch
  imported : Bool
deriving DecidableEq, Repr

structure PgControlRecord where
  pgId : PgId
  state : PgState
  actingSet : List NodeId
  activePrimary : Option NodeId
  activeMetadataProof : Option PgMetadataProof
  activeMetadataProofEpoch : Option ClusterEpoch
  activeMetadataLogEpoch : Option ClusterEpoch
  activeMetadataTransferImported : Bool
  previousPrimaryLease : Option PreviousPrimaryLease
  peeringMetadataProofFloor : Option PgMetadataProof
  peeringMetadataProofFloorEpoch : Option ClusterEpoch
  peeringMetadataProofFloorImported : Bool
  peeringMetadataTransfer : Option PgMetadataTransferProof
  peeringMetadataTransferSourceRouteEpoch : Option ClusterEpoch
  peeringMetadataTransferSourceNodeId : Option NodeId
  metadataTransferFenced : Bool
  metadataTransferFenceSourceLeaseDeadlineMs : Option Nat
  metadataTransferFenceSourceImported : Bool
  metadataTransferFenceEpoch : Option ClusterEpoch
deriving DecidableEq

structure HistoricalPgRouteRecord where
  pgId : PgId
  state : PgState
  actingSet : List NodeId
  activePrimary : Option NodeId
  peeringMetadataProofFloor : Option PgMetadataProof
  peeringMetadataProofFloorEpoch : Option ClusterEpoch
  peeringMetadataProofFloorImported : Bool
  peeringMetadataTransfer : Option PgMetadataTransferProof
  peeringMetadataTransferSourceRouteEpoch : Option ClusterEpoch
  peeringMetadataTransferSourceNodeId : Option NodeId
deriving DecidableEq

/-- A reverse delta: the routes of `clusterEpoch` that differ from the following state, and the
PGs that the following state introduced. -/
structure ClusterMapHistoryRecord where
  authorityIncarnation : AuthorityIncarnation
  clusterEpoch : ClusterEpoch
  nodes : List NodeId
  pgs : List HistoricalPgRouteRecord
  absentPgs : List PgId
deriving DecidableEq

/-! ### Replacement of an unavailable node -/

structure UnavailablePgPayloadDestinationReadiness where
  nodeId : NodeId
  nodeIncarnation : Nat
  endpoint : String
  leaseDeadlineMs : Nat
deriving DecidableEq

structure UnavailablePgPayloadReadiness where
  pgId : PgId
  transitionEpoch : ClusterEpoch
  destinationEpoch : ClusterEpoch
  topologyGeneration : Nat
  topologyDigest : TopologyDigest
  readyAtMs : Nat
  destinations : List UnavailablePgPayloadDestinationReadiness
deriving DecidableEq

structure UnavailablePgTransitionBeginAuthorization where
  beginAtMs : Nat
  unavailableNode : NodeUnavailableObservation
  sourceRoute : HistoricalPgRouteRecord
  sourceMetadataFloor : PgMetadataProof
  sourceMetadataFloorEpoch : Option ClusterEpoch
  sourceMetadataFloorImported : Bool
  sourceNodeId : NodeId
  sourceNodeIncarnation : Nat
  sourceEndpoint : String
  sourceLeaseDeadlineMs : Nat
  sourceObservedAtMs : Nat
  sourceMetadataProof : PgMetadataProof
  replacementNodeId : NodeId
  replacementNodeIncarnation : Nat
  replacementEndpoint : String
  replacementLeaseDeadlineMs : Nat
deriving DecidableEq

structure UnavailablePgPlacementTransition where
  pgId : PgId
  transitionEpoch : ClusterEpoch
  predecessorTransitionEpoch : Option ClusterEpoch
  topologyGeneration : Nat
  topologyDigest : TopologyDigest
  sourceEpoch : ClusterEpoch
  sourceActingSet : List NodeId
  sourceNodeId : NodeId
  beginAuthorization : UnavailablePgTransitionBeginAuthorization
  unavailableNode : NodeUnavailableObservation
  graceCutoffMs : Nat
  destinationActingSet : List NodeId
  destinationEpoch : Option ClusterEpoch
  destinationRoute : Option HistoricalPgRouteRecord
  payloadReadiness : Option UnavailablePgPayloadReadiness
deriving DecidableEq

structure UnavailablePgTransitionMutationBinding where
  pgId : PgId
  transitionEpoch : ClusterEpoch
  sourceEpoch : ClusterEpoch
  sourceActingSet : List NodeId
  destinationActingSet : List NodeId
deriving DecidableEq

/-! ### The snapshot -/

structure ClusterControlSnapshot where
  authorityIncarnation : AuthorityIncarnation
  clusterEpoch : ClusterEpoch
  initialTopology : Option InitialClusterTopologyCertificate
  maxCommittedTimestampMs : Option Nat
  leaseGrantHorizon : Option CommittedLeaseGrantHorizon
  nodes : BTreeMap NodeId NodeControlRecord
  pgs : BTreeMap PgId PgControlRecord
  unavailableNodeObservations : BTreeMap NodeId NodeUnavailableObservation
  unavailablePgPlacementTransitions : BTreeMap PgId UnavailablePgPlacementTransition
  retainedUnavailablePgPlacementTransitions :
    Std.ExtTreeMap (PgId × ClusterEpoch) UnavailablePgPlacementTransition cmpPgEpoch
  history : List ClusterMapHistoryRecord
deriving DecidableEq

/-- The state of an authority that has not been bootstrapped. -/
def ClusterControlSnapshot.empty : ClusterControlSnapshot where
  authorityIncarnation := 1
  clusterEpoch := 1
  initialTopology := none
  maxCommittedTimestampMs := none
  leaseGrantHorizon := none
  nodes := ∅
  pgs := ∅
  unavailableNodeObservations := ∅
  unavailablePgPlacementTransitions := ∅
  retainedUnavailablePgPlacementTransitions := ∅
  history := []

end Argmin.ControlPlane
