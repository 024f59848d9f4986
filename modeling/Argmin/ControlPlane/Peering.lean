import Argmin.ControlPlane.Validate

/-!
# Peering

A PG leaves the Active state with the lease of its last primary and the metadata proof that was
last accepted for it.  It becomes Active again through `validatePgPeeringCompletion`: the
proposed primary serves the current epoch, no other process's lease is still running, every
healthy acting node reports one and the same proof, and that proof satisfies the floor.

The file also holds the checks that select the source of a metadata migration or transfer.
-/

namespace Argmin.ControlPlane

open Fallible TreeMap

variable (snapshot : ClusterControlSnapshot) (pgId : PgId) (record : PgControlRecord)

/-- Identity and lease of the primary of an Active PG. -/
def activePrimaryLease : Option PreviousPrimaryLease := do
  let nodeId ← if record.state = .active then record.activePrimary else none
  let node ← snapshot.nodes[nodeId]?
  let leaseDeadlineMs ← node.leaseDeadlineMs
  pure ⟨nodeId, node.nodeIncarnation, node.endpoint, leaseDeadlineMs, true⟩

/-! ### Pending metadata commands -/

/-- The loop of `pending_metadata_command_recovery_for_pg` over the nodes in key order. -/
def pendingRecoveryFrom (self : ClusterControlSnapshot) (pgId : PgId) :
    List (NodeId × NodeControlRecord) → Option PendingMetadataCommandRecovery →
    Except ControlPlaneError (Option PendingMetadataCommandRecovery)
  | [], recovery => pure recovery
  | (nodeId, node) :: rest, recovery =>
    match node.pgObservations[pgId]?.bind (·.pendingMetadataCommand) with
    | none => pendingRecoveryFrom self pgId rest recovery
    | some pending => do
      validatePendingMetadataCommandReporter self pgId nodeId pending
      match recovery with
      | some existing => do
        failIf (existing.pending ≠ pending)
          (.pgPeeringPendingMetadataCommandMismatch pgId self.clusterEpoch
            existing.reportingNodeId existing.pending nodeId pending)
        pendingRecoveryFrom self pgId rest recovery
      | none => pendingRecoveryFrom self pgId rest (some ⟨nodeId, pending⟩)

def pendingMetadataCommandRecoveryForPg (self : ClusterControlSnapshot)
    (record : PgControlRecord) :
    Except ControlPlaneError (Option PendingMetadataCommandRecovery) :=
  pendingRecoveryFrom self record.pgId self.nodes.toList none

def unavailableReplacementGraceElapsedForPg (self : ClusterControlSnapshot)
    (pg : PgControlRecord) (nowMs : Nat) : Bool :=
  match self.initialTopology with
  | none => false
  | some topology =>
    pg.actingSet.any fun nodeId =>
      self.unavailableNodeObservations[nodeId]?.any fun observation =>
        match checkedAdd observation.observedAtMs
            topology.placementPolicy.unavailableReplacementGraceMs with
        | none => true
        | some cutoffMs => decide (cutoffMs ≤ nowMs)

/-! ### The primary of a peering PG -/

def deterministicPgPrimaryForSnapshot (actingSet : List NodeId) (nowMs : Nat) : Option NodeId :=
  actingSet.find? fun nodeId =>
    snapshot.nodes[nodeId]?.any (·.canServePrimary snapshot.clusterEpoch nowMs)

/-- The previous primary process, when it is preferred, still leased and still serving. -/
def preferredReactivation (nowMs : Nat) : Option NodeId :=
  if record.peeringMetadataTransfer.isSome then none
  else
    (record.previousPrimaryLease.filter fun previous =>
      previous.preferReactivation && decide (nowMs < previous.leaseDeadlineMs) &&
        decide (previous.nodeId ∈ record.actingSet) &&
        snapshot.nodes[previous.nodeId]?.any fun node =>
          previous.matchesProcess node.nodeId node.nodeIncarnation node.endpoint &&
            node.canServePrimary snapshot.clusterEpoch nowMs).map (·.nodeId)

def peeringPgPrimaryForSnapshot (nowMs : Nat) : Option NodeId :=
  (preferredReactivation snapshot record nowMs).or
    (deterministicPgPrimaryForSnapshot snapshot record.actingSet nowMs)

def peeringMetadataProofIsReadCertified (committedFloor : PeeringMetadataProofFloor)
    (transfer : Option PgMetadataTransferProof) (actual : PgMetadataProof) : Bool :=
  actual == (transfer.map (·.importedMetadataProof)).getD committedFloor.proof

def peeringMetadataReadRouteForSnapshot (nowMs : Nat) : Option PgMetadataReadRoute := do
  let committedFloor ← record.peeringMetadataProofFloorContext
  record.actingSet.findSome? fun nodeId => do
    let node ← snapshot.nodes[nodeId]?
    let observation ← node.pgObservations[record.pgId]?
    if node.canServePrimary snapshot.clusterEpoch nowMs ∧
        observation.observedEpoch = snapshot.clusterEpoch ∧ observation.state = .peering ∧
        observation.pendingMetadataCommand = none ∧
        peeringMetadataProofIsReadCertified committedFloor record.peeringMetadataTransfer
          observation.metadataProof
    then some ⟨nodeId, observation.metadataProof⟩
    else none

/-! ### Completing peering -/

def authorizeNodeServiceForSnapshot (nodeId : NodeId)
    (nodeIncarnation : Nat) (observedEpoch : ClusterEpoch) (nowMs : Nat) :
    Except ControlPlaneError Unit := do
  let record ← okOr snapshot.nodes[nodeId]? (.unknownNode nodeId)
  failIf record.membership.hasLeft (.nodeCannotReceiveLease nodeId record.membership)
  failIf (nodeIncarnation ≠ record.nodeIncarnation)
    (.nodeIncarnationMismatch nodeId nodeIncarnation record.nodeIncarnation)
  failIf (observedEpoch ≠ snapshot.clusterEpoch)
    (.staleNodeObservedEpoch nodeId observedEpoch snapshot.clusterEpoch)
  let leaseDeadlineMs ← okOr record.leaseDeadlineMs (.nodeLeaseExpired nodeId nowMs none)
  failIf (leaseDeadlineMs ≤ nowMs) (.nodeLeaseExpired nodeId nowMs (some leaseDeadlineMs))
  failIf (¬record.canServePrimary snapshot.clusterEpoch nowMs)
    (.nodeNotServingCurrentEpoch nodeId snapshot.clusterEpoch)

/-- Whether a node's report counts in peering: it may serve, is healthy, and holds a lease. -/
def NodeControlRecord.countsForPeering (node : NodeControlRecord) (nowMs : Nat) : Bool :=
  node.membership.canServePrimary && node.availability == .healthy &&
    node.leaseDeadlineMs.any (nowMs < ·)

/-- The loop of `validate_pg_peering_observations`: every counting node reports the same proof. -/
def peeringProofFrom (snapshot : ClusterControlSnapshot) (pgId : PgId) (nowMs : Nat) :
    List NodeId → Option PgMetadataProof → Except ControlPlaneError (Option PgMetadataProof)
  | [], expected => pure expected
  | nodeId :: rest, expected => do
    let node ← okOr snapshot.nodes[nodeId]? (.unknownActingSetNode pgId nodeId)
    if node.countsForPeering nowMs then do
      let observation ← okOr node.pgObservations[pgId]?
        (.pgPeeringMissingObservation pgId nodeId snapshot.clusterEpoch)
      failIf (observation.observedEpoch ≠ snapshot.clusterEpoch)
        (.staleNodeObservedEpoch nodeId observation.observedEpoch snapshot.clusterEpoch)
      failIf (observation.state ≠ .peering)
        (.pgPeeringObservationNotPeering pgId nodeId snapshot.clusterEpoch observation.state)
      match observation.pendingMetadataCommand with
      | some pending =>
        .error (.pgPeeringPendingMetadataCommand pgId nodeId snapshot.clusterEpoch pending)
      | none =>
        match expected with
        | none => peeringProofFrom snapshot pgId nowMs rest (some observation.metadataProof)
        | some proof => do
          failIf (observation.metadataProof ≠ proof)
            (.pgPeeringMetadataProofMismatch pgId nodeId snapshot.clusterEpoch proof
              observation.metadataProof)
          peeringProofFrom snapshot pgId nowMs rest expected
    else peeringProofFrom snapshot pgId nowMs rest expected

def validatePgPeeringObservations (actingSet : List NodeId) (nowMs : Nat) :
    Except ControlPlaneError PgMetadataProof := do
  let proof ← peeringProofFrom snapshot pgId nowMs actingSet none
  okOr proof (.pgPeeringMissingObservation pgId 0 snapshot.clusterEpoch)

variable (clusterEpoch : ClusterEpoch)

/-- A later local epoch may restart its log and execute commands whose net effect is zero: the
unchanged state digest is then the durable floor. -/
def convergedPeeringProofPreservesLocalState (floor : Option PeeringMetadataProofFloor)
    (transfer : Option PgMetadataTransferProof)
    (actual : PgMetadataProof) : Bool :=
  floor.any fun floor =>
    transfer.isNone && !floor.imported && floor.epoch.any (· < clusterEpoch) &&
      actual != floor.proof && actual.appliedLogHash.value != 0 &&
      actual.appliedLogHash != floor.proof.appliedLogHash &&
      actual.stateDigest == floor.proof.stateDigest

def validatePeeringMetadataProofFloor (pgId : PgId)
    (nodeId : NodeId) (floor : Option PeeringMetadataProofFloor)
    (transfer : Option PgMetadataTransferProof) (actual : PgMetadataProof) :
    Except ControlPlaneError Unit :=
  match transfer, floor with
  | some transfer, _ =>
    failIf (actual ≠ transfer.importedMetadataProof)
      (.pgPeeringMetadataProofBelowFloor pgId nodeId clusterEpoch
        transfer.importedMetadataProof actual)
  | none, none => pure ()
  | none, some floor =>
    failIf (¬(metadataProofSatisfiesActiveFloor floor.proof actual ||
        floor.epoch.any fun floorEpoch =>
          metadataProofSatisfiesPeeringProofFloor floor.proof actual
            (some ⟨floorEpoch, if floor.imported then .importedTransfer else .localEpoch⟩)
            clusterEpoch))
      (.pgPeeringMetadataProofBelowFloor pgId nodeId clusterEpoch floor.proof actual)

def validateConvergedPeeringMetadataProofFloor (pgId : PgId)
    (nodeId : NodeId) (floor : Option PeeringMetadataProofFloor)
    (transfer : Option PgMetadataTransferProof) (actual : PgMetadataProof) :
    Except ControlPlaneError Unit :=
  if convergedPeeringProofPreservesLocalState clusterEpoch floor transfer actual then pure ()
  else validatePeeringMetadataProofFloor clusterEpoch pgId nodeId floor transfer actual

structure ExpectedPgPeeringCompletion where
  activeMetadataProof : PgMetadataProof
  activeMetadataProofEpoch : ClusterEpoch

inductive ValidatedPgPeeringCompletion
  | alreadyActive
  | complete (activeMetadataProof : PgMetadataProof) (activeMetadataProofEpoch : ClusterEpoch)
deriving DecidableEq

/-- The lease check of a completion: no lease of another process is still running. -/
def validatePreviousPrimaryLease (pgId : PgId) (primary : NodeId)
    (nodeIncarnation completedAtMs : Nat) :
    Except ControlPlaneError Unit :=
  onSome record.previousPrimaryLease fun previous => do
    let primaryNode ← okOr snapshot.nodes[primary]? (.unknownNode primary)
    failIf (previous.blocksActivation primary nodeIncarnation primaryNode.endpoint completedAtMs)
      (.pgPreviousPrimaryLeaseStillActive pgId previous.nodeId previous.nodeIncarnation
        previous.endpoint primary nodeIncarnation primaryNode.endpoint completedAtMs
        previous.leaseDeadlineMs)

/-- The checks of a completion on a PG that is not Active. -/
def validatePeeringToActive (pgId : PgId) (primary : NodeId) (nodeIncarnation completedAtMs : Nat)
    (expected : Option ExpectedPgPeeringCompletion) :
    Except ControlPlaneError PgMetadataProof := do
  failIf (unavailableReplacementGraceElapsedForPg snapshot record completedAtMs) (.commandDecode
    s!"PG {pgId} cannot complete peering after an acting-set node's unavailable replacement grace elapsed")
  failIf (peeringPgPrimaryForSnapshot snapshot record completedAtMs ≠ some primary)
    (.pgPrimaryNotServingCurrentEpoch pgId primary)
  failIf (record.state ≠ .peering) (.pgNotPeering pgId snapshot.clusterEpoch record.state)
  failIf record.metadataTransferFenced (.pgMetadataTransferFenceRequiresTransferInstall pgId)
  validatePreviousPrimaryLease snapshot record pgId primary nodeIncarnation completedAtMs
  onSome expected fun expected =>
    failIf (expected.activeMetadataProofEpoch ≠ snapshot.clusterEpoch)
      (.pgPeeringMetadataProofEpochMismatch pgId snapshot.clusterEpoch
        expected.activeMetadataProofEpoch)
  let observed ← validatePgPeeringObservations snapshot pgId record.actingSet completedAtMs
  onSome expected fun expected =>
    failIf (observed ≠ expected.activeMetadataProof)
      (.pgPeeringMetadataProofMismatch pgId primary snapshot.clusterEpoch observed
        expected.activeMetadataProof)
  validateConvergedPeeringMetadataProofFloor snapshot.clusterEpoch pgId primary
    record.peeringMetadataProofFloorContext record.peeringMetadataTransfer observed
  pure observed

def validatePgPeeringCompletion (primary : NodeId) (nodeIncarnation completedAtMs : Nat)
    (expected : Option ExpectedPgPeeringCompletion) :
    Except ControlPlaneError ValidatedPgPeeringCompletion := do
  let record ← okOr snapshot.pgs[pgId]? (.unknownPg pgId)
  failIf (primary ∉ record.actingSet) (.pgPrimaryNotInActingSet pgId primary)
  authorizeNodeServiceForSnapshot snapshot primary nodeIncarnation snapshot.clusterEpoch
    completedAtMs
  let recovery ← pendingMetadataCommandRecoveryForPg snapshot record
  match recovery with
  | some recovery =>
    .error (.pgPeeringPendingMetadataCommand pgId recovery.reportingNodeId snapshot.clusterEpoch
      recovery.pending)
  | none =>
    if record.state = .active then
      if record.activePrimary = some primary then pure .alreadyActive
      else .error (.pgNotPeering pgId snapshot.clusterEpoch record.state)
    else do
      let proof ← validatePeeringToActive snapshot record pgId primary nodeIncarnation
        completedAtMs expected
      pure (.complete proof snapshot.clusterEpoch)

/-! ### Migration and transfer sources -/

def validateMetadataTransferProof (requiredFloor : PgMetadataProof)
    (requiredFloorEpoch : Option ClusterEpoch) (transfer : PgMetadataTransferProof) :
    Except ControlPlaneError Unit := do
  failIf (snapshot.clusterEpoch < transfer.sourceEpoch)
    (.pgMetadataTransferSourceEpochInFuture pgId transfer.sourceEpoch snapshot.clusterEpoch)
  failIf (transfer.sourceEpoch < snapshot.clusterEpoch ∧
      ¬(record.state = .peering ∧ record.metadataTransferFenced))
    (.pgMetadataTransferSourceEpochStale pgId transfer.sourceEpoch snapshot.clusterEpoch)
  let satisfiesFloor ← match record.state with
    | .active => pure (metadataProofSatisfiesActiveFloor requiredFloor transfer.sourceMetadataProof)
    | .peering =>
      if record.metadataTransferFenced then do
        let fenceEpoch ← okOr record.metadataTransferFenceEpoch (.commandDecode
          s!"metadata transfer fenced PG {pgId} has no committed fence epoch")
        pure (metadataProofSatisfiesFencedTransferFloor requiredFloor
          transfer.sourceMetadataProof requiredFloorEpoch
          record.metadataTransferFenceSourceImported transfer.sourceEpoch fenceEpoch)
      else pure (metadataProofSatisfiesActiveFloor requiredFloor transfer.sourceMetadataProof)
    | _ => pure false
  failIf (¬satisfiesFloor)
    (.pgMetadataTransferProofBelowFloor pgId requiredFloor transfer.sourceMetadataProof)

/-- The loop of `validate_authoritative_metadata_migration_source` over the overlapping acting
nodes.  The active primary's report is taken at once; otherwise the report with the largest log
index is taken. -/
def migrationSourceFrom (snapshot : ClusterControlSnapshot) (record : PgControlRecord)
    (activeFloor : PgMetadataProof) :
    List NodeId → Option PgMetadataProof → Bool → Except ControlPlaneError PgMetadataProof
  | [], sourceFloor, awaiting =>
    okOr sourceFloor (if awaiting then
      .pgMetadataMigrationSourceNotReady record.pgId snapshot.clusterEpoch
      else .pgMetadataMigrationRequiresTransfer record.pgId)
  | nodeId :: rest, sourceFloor, awaiting =>
    match snapshot.nodes[nodeId]? with
    | none => migrationSourceFrom snapshot record activeFloor rest sourceFloor awaiting
    | some node =>
      match node.pgObservations[record.pgId]? with
      | none => migrationSourceFrom snapshot record activeFloor rest sourceFloor true
      | some observation =>
        if observation.observedEpoch ≠ snapshot.clusterEpoch then
          migrationSourceFrom snapshot record activeFloor rest sourceFloor true
        else
          let proofSatisfiesFloor :=
            if record.activePrimary = some nodeId then
              metadataProofSatisfiesActivePrimaryObservationFloorAtLogEpoch activeFloor
                observation.metadataProof
                (metadataProofProgressProvenance record.activeMetadataTransferImported
                  record.activeMetadataProofEpoch)
                observation.observedEpoch record.activeMetadataLogEpoch
                observation.metadataLogEpoch
            else metadataProofSatisfiesActiveFloor activeFloor observation.metadataProof
          if observation.state ≠ .active ∨ observation.pendingMetadataCommand.isSome ∨
              ¬proofSatisfiesFloor then
            migrationSourceFrom snapshot record activeFloor rest sourceFloor awaiting
          else if record.activePrimary = some nodeId then pure observation.metadataProof
          else
            let best := match sourceFloor with
              | some current =>
                if observation.metadataProof.appliedLogIndex ≤ current.appliedLogIndex then current
                else observation.metadataProof
              | none => observation.metadataProof
            migrationSourceFrom snapshot record activeFloor rest (some best) awaiting

def validateAuthoritativeMetadataMigrationSource (newActingSet : List NodeId) :
    Except ControlPlaneError PgMetadataProof := do
  let activeFloor ← okOr record.activeMetadataProof (.activePgMissingMetadataProof record.pgId)
  migrationSourceFrom snapshot record activeFloor
    (record.actingSet.filter (· ∈ newActingSet)) none false

def validatePeeringMetadataMigrationSource (newActingSet : List NodeId) (floor : PgMetadataProof) :
    Except ControlPlaneError Unit :=
  let qualifies (nodeId : NodeId) : Bool :=
    (snapshot.nodes[nodeId]?.bind (·.pgObservations[record.pgId]?)).any fun observation =>
      observation.observedEpoch == snapshot.clusterEpoch && observation.state == .peering &&
        observation.pendingMetadataCommand.isNone &&
        metadataProofSatisfiesActiveFloor floor observation.metadataProof
  failIf (¬(record.actingSet.filter (· ∈ newActingSet)).any qualifies)
    (.pgMetadataMigrationRequiresTransfer record.pgId)

end Argmin.ControlPlane
