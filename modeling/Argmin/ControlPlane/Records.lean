import Argmin.ControlPlane.Command

/-!
# Operations on single records

What the control plane does to one node record, one PG record and one metadata proof, without
looking at the rest of the snapshot.

The order of two metadata proofs is not that of their log indices alone: metadata command logs
are local to an epoch, so a proof observed after the epoch of the floor may be accepted with a
smaller index when its log hash and digest differ
(`metadataProofSatisfiesActivePrimaryObservationFloorImpl`).
-/

namespace Argmin.ControlPlane

open Fallible

def maxHeartbeatLeaseMs : Nat := 10000
def maxLeaseGrantHorizonMs : Nat := 60000
def controlPlaneLeaseGrantHorizonDurationMs : Nat := 2 * maxHeartbeatLeaseMs
def clusterMapHistoryLimit : Nat := 256

def nextEpoch (epoch : ClusterEpoch) : Except ControlPlaneError ClusterEpoch :=
  okOr (checkedAdd epoch 1) .clusterEpochOverflow

/-! ### Nodes -/

namespace NodeMembershipState

/-- Whether the node has left the cluster (`Out` or `Removed`). -/
def hasLeft : NodeMembershipState → Bool
  | .out | .removed => true
  | _ => false

end NodeMembershipState

namespace NodeControlRecord

def new (nodeId : NodeId) (membership : NodeMembershipState) : NodeControlRecord where
  nodeId := nodeId
  membership := membership
  administrativelyAvailable := !membership.hasLeft
  observedAvailability := if membership.hasLeft then .unavailable else .suspect
  nodeIncarnation := 0
  endpoint := ""
  lastObservedEpoch := none
  lastHeartbeatMs := none
  leaseDeadlineMs := none
  clusterMapHistoryRouteScanGeneration := none
  clusterMapHistoryRouteReferences := ∅
  retiringClusterMapHistoryRouteReferences := ∅
  pgObservations := ∅

variable (self : NodeControlRecord)

def recordObservedEpoch (observedEpoch : ClusterEpoch) : NodeControlRecord :=
  { self with lastObservedEpoch := some (match self.lastObservedEpoch with
      | none => observedEpoch
      | some previous => max previous observedEpoch) }

def pgObservationStateMatches (self other : NodeControlRecord) : Bool :=
  self.pgObservations.size == other.pgObservations.size &&
    self.pgObservations.toList.all fun (pgId, current) =>
      match other.pgObservations[pgId]? with
      | none => false
      | some updated =>
        current.pgId == updated.pgId && current.state == updated.state &&
          current.observedEpoch == updated.observedEpoch &&
          current.metadataProof == updated.metadataProof &&
          current.pendingMetadataCommand == updated.pendingMetadataCommand

def availability : NodeAvailabilityState :=
  if self.administrativelyAvailable then self.observedAvailability else .unavailable

def retainedClusterMapHistoryRouteReferences : List PgClusterMapHistoryRouteReference :=
  self.clusterMapHistoryRouteReferences.toList ++
    self.retiringClusterMapHistoryRouteReferences.toList

def recordClusterMapHistoryRouteReferences (scanGeneration : Nat)
    (reported : PgClusterMapHistoryRouteReferences) : NodeControlRecord :=
  if self.clusterMapHistoryRouteScanGeneration.any (scanGeneration ≤ ·) then self
  else
    { self with
      clusterMapHistoryRouteReferences := reported
      -- a reference that the new report drops is kept for one more report
      retiringClusterMapHistoryRouteReferences :=
        self.clusterMapHistoryRouteReferences.filter fun reference => !reported.contains reference
      clusterMapHistoryRouteScanGeneration := some scanGeneration }

def canServePrimary (self : NodeControlRecord) (clusterEpoch : ClusterEpoch) (nowMs : Nat) :
    Bool :=
  self.membership.canServePrimary && self.administrativelyAvailable &&
    self.observedAvailability == .healthy && self.lastObservedEpoch == some clusterEpoch &&
    self.leaseDeadlineMs.any (nowMs < ·)

end NodeControlRecord

/-! ### PGs -/

namespace PreviousPrimaryLease

variable (self : PreviousPrimaryLease)

def withoutReactivationPreference : PreviousPrimaryLease :=
  { self with preferReactivation := false }

def matchesProcess (nodeId : NodeId) (nodeIncarnation : Nat) (endpoint : String) : Bool :=
  self.nodeId == nodeId && self.nodeIncarnation == nodeIncarnation && self.endpoint == endpoint

def blocksActivation (primary : NodeId) (primaryIncarnation : Nat)
    (primaryEndpoint : String) (nowMs : Nat) : Bool :=
  !self.matchesProcess primary primaryIncarnation primaryEndpoint &&
    !successorActivationFenceSatisfied nowMs self.leaseDeadlineMs controlPlaneClockSkewBudgetMs

end PreviousPrimaryLease

namespace PgControlRecord

def new (pgId : PgId) (actingSet : List NodeId) : PgControlRecord where
  pgId := pgId
  state := .peering
  actingSet := actingSet
  activePrimary := none
  activeMetadataProof := none
  activeMetadataProofEpoch := none
  activeMetadataLogEpoch := none
  activeMetadataTransferImported := false
  previousPrimaryLease := none
  peeringMetadataProofFloor := none
  peeringMetadataProofFloorEpoch := none
  peeringMetadataProofFloorImported := false
  peeringMetadataTransfer := none
  peeringMetadataTransferSourceRouteEpoch := none
  peeringMetadataTransferSourceNodeId := none
  metadataTransferFenced := false
  metadataTransferFenceSourceLeaseDeadlineMs := none
  metadataTransferFenceSourceImported := false
  metadataTransferFenceEpoch := none

variable (self : PgControlRecord)

def peeringMetadataProofFloorContext : Option PeeringMetadataProofFloor :=
  self.peeringMetadataProofFloor.map fun proof =>
    ⟨proof, self.peeringMetadataProofFloorEpoch, self.peeringMetadataProofFloorImported⟩

/-- Leave the Active state for Peering: the active proof is dropped, and so are the transfer
marker and the transfer fence.  The proof floor is left to the caller. -/
def resetToPeering (previousPrimaryLease : Option PreviousPrimaryLease) : PgControlRecord :=
  { self with
    state := .peering
    activePrimary := none
    activeMetadataProof := none
    activeMetadataProofEpoch := none
    activeMetadataLogEpoch := none
    activeMetadataTransferImported := false
    previousPrimaryLease := previousPrimaryLease
    peeringMetadataTransfer := none
    peeringMetadataTransferSourceRouteEpoch := none
    peeringMetadataTransferSourceNodeId := none
    metadataTransferFenced := false
    metadataTransferFenceSourceLeaseDeadlineMs := none
    metadataTransferFenceSourceImported := false
    metadataTransferFenceEpoch := none }

/-- Become Active under `primary` with an accepted metadata proof.  The epoch of the proof is
recorded after the cluster epoch has advanced. -/
def activate (primary : NodeId) (proof : PgMetadataProof)
    (metadataLogEpoch : ClusterEpoch) : PgControlRecord :=
  { self with
    state := .active
    activePrimary := some primary
    activeMetadataProof := some proof
    activeMetadataLogEpoch := some metadataLogEpoch
    activeMetadataTransferImported := self.peeringMetadataTransfer.isSome
    previousPrimaryLease := none
    peeringMetadataProofFloor := none
    peeringMetadataProofFloorEpoch := none
    peeringMetadataProofFloorImported := false
    peeringMetadataTransfer := none
    peeringMetadataTransferSourceRouteEpoch := none
    peeringMetadataTransferSourceNodeId := none
    metadataTransferFenced := false
    metadataTransferFenceSourceLeaseDeadlineMs := none
    metadataTransferFenceSourceImported := false
    metadataTransferFenceEpoch := none }

end PgControlRecord

def HistoricalPgRouteRecord.ofRecord (record : PgControlRecord) : HistoricalPgRouteRecord where
  pgId := record.pgId
  state := record.state
  actingSet := record.actingSet
  activePrimary := record.activePrimary
  peeringMetadataProofFloor := record.peeringMetadataProofFloor
  peeringMetadataProofFloorEpoch := record.peeringMetadataProofFloorEpoch
  peeringMetadataProofFloorImported := record.peeringMetadataProofFloorImported
  peeringMetadataTransfer := record.peeringMetadataTransfer
  peeringMetadataTransferSourceRouteEpoch := record.peeringMetadataTransferSourceRouteEpoch
  peeringMetadataTransferSourceNodeId := record.peeringMetadataTransferSourceNodeId

def UnavailablePgTransitionMutationBinding.matchesTransition
    (self : UnavailablePgTransitionMutationBinding)
    (transition : UnavailablePgPlacementTransition) : Bool :=
  self.pgId == transition.pgId && self.transitionEpoch == transition.transitionEpoch &&
    self.sourceEpoch == transition.sourceEpoch &&
    self.sourceActingSet == transition.sourceActingSet &&
    self.destinationActingSet == transition.destinationActingSet

/-! ### Metadata proofs -/

variable (activeFloor observed : PgMetadataProof)
  (progressProvenance : Option MetadataProofProgressProvenance)

/-- `observed` has a larger log index than the floor, or is the floor. -/
def metadataProofSatisfiesActiveFloor : Bool :=
  activeFloor.appliedLogIndex < observed.appliedLogIndex || observed == activeFloor

inductive MetadataProofProgressKind
  | localEpoch | importedTransfer
deriving DecidableEq

structure MetadataProofProgressProvenance where
  floorEpoch : ClusterEpoch
  kind : MetadataProofProgressKind
deriving DecidableEq

def metadataProofProgressProvenance (importedTransfer : Bool) (floorEpoch : Option ClusterEpoch) :
    Option MetadataProofProgressProvenance :=
  floorEpoch.map fun floorEpoch =>
    ⟨floorEpoch, if importedTransfer then .importedTransfer else .localEpoch⟩

def metadataProofSatisfiesImportedTransferLocalProgressFloor : Bool :=
  metadataProofSatisfiesActiveFloor activeFloor observed ||
    (observed != activeFloor && observed.appliedLogHash.value != 0 &&
      observed.appliedLogHash != activeFloor.appliedLogHash &&
      observed.stateDigest != activeFloor.stateDigest)

/-- The observation satisfies the active floor, or shows the progress of a later epoch. -/
def metadataProofShowsProgress (observedEpoch : ClusterEpoch) (logEpochAdvanced : Bool) : Bool :=
  metadataProofSatisfiesActiveFloor activeFloor observed ||
    match progressProvenance with
    | none => false
    | some provenance =>
      decide (provenance.floorEpoch < observedEpoch) && observed != activeFloor &&
        observed.appliedLogHash.value != 0 &&
        observed.appliedLogHash != activeFloor.appliedLogHash &&
        (observed.stateDigest != activeFloor.stateDigest || logEpochAdvanced) &&
        match provenance.kind with
        | .localEpoch => true
        | .importedTransfer => logEpochAdvanced ||
            metadataProofSatisfiesImportedTransferLocalProgressFloor activeFloor observed

def metadataProofSatisfiesActivePrimaryObservationFloorImpl (observedEpoch : ClusterEpoch)
    (logEpochs : Option (ClusterEpoch × ClusterEpoch)) : Bool :=
  match logEpochs with
  | none =>
    metadataProofShowsProgress activeFloor observed progressProvenance observedEpoch false
  | some (floorLogEpoch, observedLogEpoch) =>
    if observedLogEpoch < floorLogEpoch ∨ observedEpoch < observedLogEpoch then false
    else if observedLogEpoch ≤ floorLogEpoch ∧
        observed.appliedLogIndex ≤ activeFloor.appliedLogIndex then
      observed == activeFloor
    else metadataProofShowsProgress activeFloor observed progressProvenance observedEpoch
      (floorLogEpoch < observedLogEpoch)

def metadataProofSatisfiesActivePrimaryObservationFloorAtLogEpoch (observedEpoch : ClusterEpoch)
    (floorLogEpoch : Option ClusterEpoch)
    (observedLogEpoch : ClusterEpoch) : Bool :=
  match floorLogEpoch with
  | none => false
  | some floorLogEpoch =>
    metadataProofSatisfiesActivePrimaryObservationFloorImpl activeFloor observed
      progressProvenance observedEpoch (some (floorLogEpoch, observedLogEpoch))

def metadataProofSatisfiesPeeringProofFloor (observedEpoch : ClusterEpoch) : Bool :=
  metadataProofSatisfiesActivePrimaryObservationFloorImpl activeFloor observed
    progressProvenance observedEpoch none

def metadataProofSatisfiesFencedTransferFloor (floor observed : PgMetadataProof)
    (floorEpoch : Option ClusterEpoch) (floorImported : Bool)
    (observedEpoch fenceEpoch : ClusterEpoch) : Bool :=
  if metadataProofSatisfiesActiveFloor floor observed then true
  else if fenceEpoch ≤ observedEpoch then false
  else match floorEpoch with
    | none => false
    | some floorEpoch =>
      metadataProofSatisfiesPeeringProofFloor floor observed
        (some ⟨floorEpoch, if floorImported then .importedTransfer else .localEpoch⟩)
        observedEpoch

/-! ### The certified topology -/

def CertifiedStorageFailureDomain.asStr : CertifiedStorageFailureDomain → String
  | .none => "none"
  | .disk => "disk"
  | .host => "host"

namespace CertifiedStoragePlacementPolicy

variable (self : CertifiedStoragePlacementPolicy)

def totalShards : Nat :=
  self.ecDataShards + self.ecParityShards

def node (nodeId : NodeId) : Option CertifiedStorageNodeDomain :=
  self.nodes.find? (·.nodeId == nodeId)

def validate : Except String Unit := do
  failIf (self.ecDataShards = 0 ∨ 255 < self.ecDataShards + self.ecParityShards)
    "certified storage EC shape is invalid"
  failIf (self.ecParityShards < self.failureTolerance)
    "certified failure tolerance exceeds parity shards"
  failIf (self.failureDomain = .none ∧ self.failureTolerance ≠ 0)
    "failure-domain none requires zero failure tolerance"
  failIf (self.unavailableReplacementGraceMs = 0)
    "unavailable replacement grace must be nonzero"
  failIf (self.nodes = []) "certified placement policy requires storage nodes"
  failIf (¬(self.nodes.map (·.nodeId)).Pairwise (· < ·))
    "certified storage node domains must be strictly ordered"
  self.nodes.forM fun node =>
    let nodeId := node.nodeId
    failIf (node.host.isEmpty ∨ node.disk.isEmpty)
      s!"certified storage node {nodeId} has an empty failure-domain identity"

/-- The failure domain of a node under the policy, when the policy separates domains. -/
def domainOf (node : CertifiedStorageNodeDomain) : Option String :=
  match self.failureDomain with
  | .none => none
  | .disk => some node.disk
  | .host => some node.host

/-- The loop of `validate_acting_set`: the nodes and domains seen so far. -/
def validateActingSetFrom (self : CertifiedStoragePlacementPolicy) :
    List NodeId → List NodeId → List String → Except String Unit
  | [], _, _ => pure ()
  | nodeId :: rest, nodes, domains => do
    failIf (nodeId ∈ nodes) s!"acting set repeats node {nodeId}"
    let node ← okOr (self.node nodeId)
      s!"acting set contains node {nodeId} outside certified topology"
    match self.domainOf node with
    | none => validateActingSetFrom self rest (nodeId :: nodes) domains
    | some domain => do
      let kind := self.failureDomain.asStr
      let quoted := domain.quote
      failIf (domain ∈ domains)
        s!"acting set repeats certified {kind} failure domain {quoted}"
      validateActingSetFrom self rest (nodeId :: nodes) (domain :: domains)

def validateActingSet (actingSet : List NodeId) : Except String Unit := do
  let len := actingSet.length
  let total := self.totalShards
  failIf (len ≠ total)
    s!"acting set has {len} nodes but certified EC policy requires {total}"
  self.validateActingSetFrom actingSet [] []

end CertifiedStoragePlacementPolicy

def InitialClusterTopologyCertificate.validate (self : InitialClusterTopologyCertificate) :
    Except String Unit := do
  failIf (self.topologyGeneration = 0) "initial topology generation must be nonzero"
  failIf (self.raftVoters = []) "initial topology must contain at least one Raft voter"
  failIf (¬self.raftVoters.Pairwise (· < ·))
    "initial topology Raft voters must be strictly increasing"
  self.placementPolicy.validate

end Argmin.ControlPlane
