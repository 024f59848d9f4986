import Argmin.ControlPlane.Snapshot

/-!
# Commands about PGs

Acting-set changes, metadata-transfer fences, replacement of an unavailable node and the
completion of peering: the arms of `apply_control_plane_command` that read and write PG records.
-/

namespace Argmin.ControlPlane

open Fallible TreeMap

/-! ### Acting sets -/

/-- The loop over a proposed acting set: no repeated and no unknown node. -/
def validateActingSetNodesFrom (snapshot : ClusterControlSnapshot) (pgId : PgId) :
    List NodeId → List NodeId → Except ControlPlaneError Unit
  | [], _ => pure ()
  | nodeId :: rest, seen => do
    failIf (nodeId ∈ seen) (.duplicateActingSetNode pgId nodeId)
    failIf (¬snapshot.nodes.contains nodeId) (.unknownActingSetNode pgId nodeId)
    validateActingSetNodesFrom snapshot pgId rest (nodeId :: seen)

def validateActingSet (snapshot : ClusterControlSnapshot) (pgId : PgId)
    (actingSet : List NodeId) : Except ControlPlaneError Unit := do
  failIf (actingSet = []) (.emptyActingSet pgId)
  validateActingSetNodesFrom snapshot pgId actingSet []
  onSome snapshot.initialTopology fun topology =>
    (topology.placementPolicy.validateActingSet actingSet).mapError fun message =>
      .commandDecode s!"PG {pgId} acting set violates placement policy: {message}"

variable (self snapshot : ClusterControlSnapshot) (pgId : PgId) (record : PgControlRecord)
  (body : BeginUnavailableTransition)

def validateActingSetChangeReady (actingSet : List NodeId) : Except ControlPlaneError Unit :=
  onSome snapshot.pgs[pgId]? fun record =>
    failIf (record.actingSet ≠ actingSet ∧ record.state ≠ .active ∧ record.state ≠ .peering)
      (.pgActingSetChangeNotReady pgId snapshot.clusterEpoch record.state)

def validateActingSetPreservesPendingRecovery (actingSet : List NodeId) :
    Except ControlPlaneError Unit :=
  onSome snapshot.pgs[pgId]? fun record => do
    let recovery ← pendingMetadataCommandRecoveryForPg snapshot record
    onSome recovery fun recovery =>
      failIf (recovery.reportingNodeId ∉ actingSet)
        (.pgPeeringPendingMetadataCommand pgId recovery.reportingNodeId snapshot.clusterEpoch
          recovery.pending)

/-- The floor that a PG takes into peering under a new acting set. -/
def actingSetChangeFloor (actingSet : List NodeId) :
    Except ControlPlaneError (Option PgMetadataProof × Option ClusterEpoch × Bool) :=
  match record.state with
  | .active => do
    let floor ← validateAuthoritativeMetadataMigrationSource self record actingSet
    pure (some floor, record.activeMetadataProofEpoch, record.activeMetadataTransferImported)
  | .peering =>
    match record.peeringMetadataProofFloor with
    | some floor => do
      validatePeeringMetadataMigrationSource self record actingSet floor
      pure (some floor, record.peeringMetadataProofFloorEpoch,
        record.peeringMetadataProofFloorImported)
    | none => pure (none, none, false)
  | _ => pure (none, none, false)

/-- The record after an acting-set change.  A transfer marker and a transfer fence are kept
while peering. -/
def PgControlRecord.changeActingSet (actingSet : List NodeId)
    (previousPrimaryLease : Option PreviousPrimaryLease)
    (floor : Option PgMetadataProof × Option ClusterEpoch × Bool) : PgControlRecord :=
  let keepTransfer := record.state == .peering && record.peeringMetadataTransfer.isSome
  let keepFence := record.state == .peering && record.metadataTransferFenced
  { record with
    actingSet := actingSet
    state := .peering
    activePrimary := none
    activeMetadataProof := none
    activeMetadataProofEpoch := none
    activeMetadataLogEpoch := none
    activeMetadataTransferImported := false
    previousPrimaryLease := previousPrimaryLease
    peeringMetadataProofFloor := floor.1
    peeringMetadataProofFloorEpoch := floor.2.1
    peeringMetadataProofFloorImported := floor.2.2
    peeringMetadataTransfer := if keepTransfer then record.peeringMetadataTransfer else none
    peeringMetadataTransferSourceRouteEpoch :=
      if keepTransfer then record.peeringMetadataTransferSourceRouteEpoch else none
    peeringMetadataTransferSourceNodeId :=
      if keepTransfer then record.peeringMetadataTransferSourceNodeId else none
    metadataTransferFenced := keepFence
    metadataTransferFenceSourceLeaseDeadlineMs :=
      if keepFence then record.metadataTransferFenceSourceLeaseDeadlineMs else none
    metadataTransferFenceSourceImported := keepFence && record.metadataTransferFenceSourceImported
    metadataTransferFenceEpoch := if keepFence then record.metadataTransferFenceEpoch else none }

def applySetPgActingSet (actingSet : List NodeId) :
    Except ControlPlaneError AppliedControlPlaneCommand := do
  failIf (self.unavailablePgPlacementTransitions.contains pgId) (.commandDecode
    s!"PG {pgId} acting set is owned by an unavailable placement transition")
  validateActingSet self pgId actingSet
  validateActingSetChangeReady self pgId actingSet
  validateActingSetPreservesPendingRecovery self pgId actingSet
  match self.pgs[pgId]? with
  | some record =>
    if record.actingSet = actingSet then
      pure (appliedControlPlaneCommand self self .setPgActingSet false)
    else do
      let floor ← actingSetChangeFloor self record actingSet
      let next ← (self.modifyPg pgId fun record => record.changeActingSet actingSet
        (fencingLeaseWithoutPreference self record) floor).bumpEpoch
      pure (appliedControlPlaneCommand self next .setPgActingSet true)
  | none => do
    let next ← { self with pgs := self.pgs.insert pgId (.new pgId actingSet) }.bumpEpoch
    pure (appliedControlPlaneCommand self next .setPgActingSet true)

/-! ### Metadata transfer -/

def validateUnavailableTransitionMutationBinding
    (supplied : Option UnavailablePgTransitionMutationBinding) : Except ControlPlaneError Unit :=
  match snapshot.unavailablePgPlacementTransitions[pgId]?, supplied with
  | none, none => pure ()
  | some transition, some binding =>
    failIf (¬binding.matchesTransition transition) (.commandDecode
      s!"PG {pgId} unavailable transition binding does not match the active transition")
  | some _, none => .error (.commandDecode
      s!"PG {pgId} metadata transfer requires its exact unavailable transition binding")
  | none, some _ => .error (.commandDecode
      s!"PG {pgId} unavailable transition binding has no active transition")

/-- The record of a transfer destination: the imported proof is the floor. -/
def PgControlRecord.installTransfer (actingSet : List NodeId)
    (previousPrimaryLease : Option PreviousPrimaryLease) (transfer : PgMetadataTransferProof)
    (clusterEpoch : ClusterEpoch) (sourceNodeId : NodeId) : PgControlRecord :=
  { record.resetToPeering previousPrimaryLease with
    actingSet := actingSet
    peeringMetadataProofFloor := some transfer.importedMetadataProof
    peeringMetadataProofFloorEpoch := some clusterEpoch
    peeringMetadataProofFloorImported := true
    peeringMetadataTransfer := some transfer
    peeringMetadataTransferSourceRouteEpoch := some clusterEpoch
    peeringMetadataTransferSourceNodeId := some sourceNodeId }

/-- The floor that a transfer must satisfy, with its epoch. -/
def transferFloor : Except ControlPlaneError (PgMetadataProof × Option ClusterEpoch) :=
  match record.state with
  | .active => do
    let floor ← okOr record.activeMetadataProof (.activePgMissingMetadataProof pgId)
    pure (floor, record.activeMetadataProofEpoch)
  | .peering => do
    let floor ← okOr record.peeringMetadataProofFloor (.pgMetadataMigrationRequiresTransfer pgId)
    pure (floor, record.peeringMetadataProofFloorEpoch)
  | _ => .error (.pgMetadataMigrationRequiresTransfer pgId)

def transferSourceNode : Except ControlPlaneError NodeId :=
  match self.unavailablePgPlacementTransitions[pgId]? with
  | some transition => pure transition.sourceNodeId
  | none =>
    match record.state with
    | .active => okOr record.activePrimary (.pgHasNoServingPrimary pgId self.clusterEpoch)
    | .peering => okOr record.actingSet.head? (.emptyActingSet pgId)
    | _ => .error (.pgMetadataMigrationRequiresTransfer pgId)

/-- A repeated transfer install: the marker and the destination epoch must be the recorded
ones. -/
def validateRepeatedTransfer (transfer : PgMetadataTransferProof)
    (expectedDestinationEpoch : ClusterEpoch) :
    Except ControlPlaneError Unit := do
  let existing ← okOr record.peeringMetadataTransfer (.pgMetadataMigrationRequiresTransfer pgId)
  failIf (existing ≠ transfer) (.pgMetadataTransferProofMismatch pgId existing transfer)
  let destinationEpoch ← peeringMetadataTransferDestinationEpoch record
  let actual ← okOr destinationEpoch (.pgMetadataMigrationRequiresTransfer pgId)
  failIf (actual ≠ expectedDestinationEpoch)
    (.pgMetadataTransferDestinationEpochMismatch pgId expectedDestinationEpoch actual)

def applySetPgActingSetWithMetadataTransfer (actingSet : List NodeId)
    (transfer : PgMetadataTransferProof)
    (expectedDestinationEpoch : ClusterEpoch)
    (unavailableTransition : Option UnavailablePgTransitionMutationBinding) :
    Except ControlPlaneError AppliedControlPlaneCommand := do
  validateUnavailableTransitionMutationBinding self pgId unavailableTransition
  failIf (unavailableTransition.any (actingSet != ·.destinationActingSet)) (.commandDecode
    s!"PG {pgId} metadata transfer does not match its unavailable placement destination")
  validateActingSet self pgId actingSet
  validateActingSetPreservesPendingRecovery self pgId actingSet
  let record ← okOr self.pgs[pgId]? (.unknownPg pgId)
  if record.actingSet = actingSet then do
    validateRepeatedTransfer pgId record transfer expectedDestinationEpoch
    pure (appliedControlPlaneCommand self self .setPgActingSetWithMetadataTransfer false)
  else do
    let actual ← nextEpoch self.clusterEpoch
    failIf (actual ≠ expectedDestinationEpoch)
      (.pgMetadataTransferDestinationEpochMismatch pgId expectedDestinationEpoch actual)
    let floor ← transferFloor pgId record
    validateMetadataTransferProof self pgId record floor.1 floor.2 transfer
    let sourceNodeId ← transferSourceNode self pgId record
    let installed := record.installTransfer actingSet (fencingLeaseWithoutPreference self record)
      transfer self.clusterEpoch sourceNodeId
    let next := { self with
      pgs := self.pgs.insert pgId installed
      unavailablePgPlacementTransitions :=
        self.unavailablePgPlacementTransitions.modify pgId fun transition =>
          { transition with
            destinationEpoch := some expectedDestinationEpoch
            destinationRoute := some (.ofRecord installed) } }
    let next ← next.bumpEpoch
    pure (appliedControlPlaneCommand self next .setPgActingSetWithMetadataTransfer true)

/-! ### Metadata-transfer fences -/

/-- The source lease that a fence observes: that of the Active primary, or of a fence already in
place. -/
def observedSourceLeaseDeadline : Except ControlPlaneError (Option Nat) :=
  if record.state = .active then do
    let primary ← okOr (record.activePrimary.filter (· ∈ record.actingSet))
      (.pgHasNoServingPrimary pgId self.clusterEpoch)
    let node ← okOr self.nodes[primary]? (.unknownActingSetNode pgId primary)
    let deadline ← okOr node.leaseDeadlineMs (.pgHasNoServingPrimary pgId self.clusterEpoch)
    pure (some deadline)
  else if record.state = .peering ∧ record.metadataTransferFenced then
    pure (record.metadataTransferFenceSourceLeaseDeadlineMs.or
      (record.actingSet.filterMap fun nodeId =>
        self.nodes[nodeId]?.bind (·.leaseDeadlineMs)).max?)
  else pure none

/-- The source lease that a fence commits: the observed one, or a later one that the command
carries and the grant horizon covers. -/
def committedSourceLeaseDeadline (committed : Option Nat)
    (authority : Option LeaseHorizonAuthorityBinding)
    (observed : Option Nat) : Except ControlPlaneError (Option Nat) :=
  match committed, authority, observed with
  | none, none, observed => pure observed
  | some committed, some authority, some observed =>
    if observed ≤ committed then do
      failIf (¬self.leaseGrantHorizonCovers authority committed) (.commandDecode
        s!"metadata transfer fence for PG {pgId} source lease deadline {committed} is not covered by the committed lease horizon")
      pure (some committed)
    else .error (.commandDecode
      s!"metadata transfer fence for PG {pgId} regresses source lease deadline from {observed} to {committed}")
  | some committed, some _, none => .error (.commandDecode
      s!"metadata transfer fence for PG {pgId} supplies source lease deadline {committed} without a live or retained source lease")
  | _, _, _ => .error (.commandDecode
      s!"metadata transfer fence for PG {pgId} must carry both source lease deadline and lease horizon authority, or neither")

/-- The lease that a fence records, with the committed source deadline. -/
def fencedLease (sourceDeadline : Option Nat) : Option PreviousPrimaryLease :=
  (fencingLease self record).map fun previous =>
    { previous with
      leaseDeadlineMs := sourceDeadline.getD previous.leaseDeadlineMs
        }.withoutReactivationPreference

/-- The fenced record of a PG that was Active. -/
def PgControlRecord.fenceActive (previousPrimaryLease : Option PreviousPrimaryLease)
    (floor : Option PgMetadataProof)
    (sourceDeadline : Option Nat) (fenceEpoch : Option ClusterEpoch) : PgControlRecord :=
  { record.resetToPeering previousPrimaryLease with
    peeringMetadataProofFloor := floor
    peeringMetadataProofFloorEpoch := record.activeMetadataProofEpoch
    peeringMetadataProofFloorImported := record.activeMetadataTransferImported
    metadataTransferFenced := true
    metadataTransferFenceSourceLeaseDeadlineMs := sourceDeadline
    metadataTransferFenceSourceImported := record.activeMetadataTransferImported
    metadataTransferFenceEpoch := fenceEpoch }

/-- The fenced record of a PG that was already peering. -/
def PgControlRecord.fencePeering (previousPrimaryLease : Option PreviousPrimaryLease)
    (sourceDeadline : Option Nat)
    (fenceEpoch : Option ClusterEpoch) : PgControlRecord :=
  { record with
    previousPrimaryLease := previousPrimaryLease
    metadataTransferFenced := true
    metadataTransferFenceSourceLeaseDeadlineMs := sourceDeadline
    metadataTransferFenceSourceImported := record.peeringMetadataProofFloorImported
    metadataTransferFenceEpoch := fenceEpoch }

/-- Install a fenced record and answer with the source lease it carries. -/
def finishFence (fenced : PgControlRecord)
    (sourceDeadline : Option Nat) : Except ControlPlaneError AppliedControlPlaneCommand := do
  let next ← (self.modifyPg pgId fun _ => fenced).bumpEpoch
  pure (appliedControlPlaneCommand self next
    (.fencePgForMetadataTransfer
      (fenced.metadataTransferFenceSourceLeaseDeadlineMs.or sourceDeadline)) true)

def applyFencePgForMetadataTransfer (committed : Option Nat)
    (authority : Option LeaseHorizonAuthorityBinding)
    (unavailableTransition : Option UnavailablePgTransitionMutationBinding) :
    Except ControlPlaneError AppliedControlPlaneCommand := do
  validateUnavailableTransitionMutationBinding self pgId unavailableTransition
  let record ← okOr self.pgs[pgId]? (.unknownPg pgId)
  let observed ← observedSourceLeaseDeadline self pgId record
  let sourceDeadline ← committedSourceLeaseDeadline self pgId committed authority observed
  let lease := fencedLease self record sourceDeadline
  match record.state with
  | .active => do
    let floor ← validateAuthoritativeMetadataMigrationSource self record record.actingSet
    let fenceEpoch ← nextEpoch self.clusterEpoch
    finishFence self pgId (record.fenceActive lease (some floor) sourceDeadline (some fenceEpoch))
      sourceDeadline
  | .peering =>
    if record.peeringMetadataTransfer.isSome then
      pure (appliedControlPlaneCommand self self (.fencePgForMetadataTransfer none) false)
    else if record.metadataTransferFenced then
      pure (appliedControlPlaneCommand self self
        (.fencePgForMetadataTransfer
          (record.metadataTransferFenceSourceLeaseDeadlineMs.or sourceDeadline)) false)
    else do
      let fenceEpoch ← nextEpoch self.clusterEpoch
      finishFence self pgId (record.fencePeering lease sourceDeadline (some fenceEpoch))
        sourceDeadline
  | state => .error (.pgNotActive pgId self.clusterEpoch state)

/-! ### Setting a state by hand -/

/-- The record after an operator sets a state other than Active. -/
def PgControlRecord.setState (state : PgState)
    (previousPrimaryLease : Option PreviousPrimaryLease) : PgControlRecord :=
  let keepFloor := record.state == .active && state == .peering
  { record with
    state := state
    activePrimary := none
    activeMetadataProof := none
    activeMetadataProofEpoch := none
    activeMetadataLogEpoch := none
    activeMetadataTransferImported := false
    previousPrimaryLease := previousPrimaryLease
    peeringMetadataProofFloor := if keepFloor then record.activeMetadataProof else none
    peeringMetadataProofFloorEpoch := if keepFloor then record.activeMetadataProofEpoch else none
    peeringMetadataProofFloorImported := keepFloor && record.activeMetadataTransferImported
    peeringMetadataTransfer :=
      if state = .peering then record.peeringMetadataTransfer else none
    peeringMetadataTransferSourceRouteEpoch :=
      if state = .peering then record.peeringMetadataTransferSourceRouteEpoch else none
    peeringMetadataTransferSourceNodeId :=
      if state = .peering then record.peeringMetadataTransferSourceNodeId else none
    metadataTransferFenced := false
    metadataTransferFenceSourceLeaseDeadlineMs := none
    metadataTransferFenceSourceImported := false
    metadataTransferFenceEpoch := none }

def applySetPgState (state : PgState) : Except ControlPlaneError AppliedControlPlaneCommand := do
  failIf (state = .active) (.activePgRequiresPeeringComplete pgId)
  let record ← okOr self.pgs[pgId]? (.unknownPg pgId)
  if record.state = state then
    pure (appliedControlPlaneCommand self self .setPgState false)
  else do
    let next ← (self.modifyPg pgId fun record =>
      record.setState state (fencingLeaseWithoutPreference self record)).bumpEpoch
    pure (appliedControlPlaneCommand self next .setPgState true)

/-! ### Completing peering -/

/-- The destinations of a readiness are exactly the acting nodes, each serving under the lease
it names. -/
def validateUnavailablePgPayloadReadiness (transition : UnavailablePgPlacementTransition)
    (readiness : UnavailablePgPayloadReadiness) :
    Except ControlPlaneError Unit := do
  let pgId := transition.pgId
  failIf (readiness.pgId ≠ pgId ∨ readiness.transitionEpoch ≠ transition.transitionEpoch ∨
      some readiness.destinationEpoch ≠ transition.destinationEpoch ∨
      readiness.topologyGeneration ≠ transition.topologyGeneration ∨
      readiness.topologyDigest ≠ transition.topologyDigest)
    (.commandDecode s!"PG {pgId} payload readiness does not match its active transition")
  let pg ← okOr snapshot.pgs[pgId]? (.unknownPg pgId)
  failIf (pg.state ≠ .peering ∨ pg.actingSet ≠ transition.destinationActingSet)
    (.commandDecode s!"PG {pgId} payload readiness does not match its Peering destination")
  failIf (readiness.destinations.length ≠ transition.destinationActingSet.length)
    (.commandDecode s!"PG {pgId} payload readiness does not cover every destination actor")
  (transition.destinationActingSet.zip readiness.destinations).forM fun (nodeId, supplied) => do
    let node ← okOr snapshot.nodes[nodeId]? (.unknownNode nodeId)
    failIf (supplied.nodeId ≠ nodeId ∨ supplied.nodeIncarnation ≠ node.nodeIncarnation ∨
        supplied.endpoint ≠ node.endpoint ∨ node.membership ≠ .active ∨
        ¬node.canServePrimary snapshot.clusterEpoch readiness.readyAtMs ∨
        node.leaseDeadlineMs ≠ some supplied.leaseDeadlineMs ∨
        supplied.leaseDeadlineMs ≤ readiness.readyAtMs)
      (.commandDecode s!"PG {pgId} destination node {nodeId} is not exactly payload-write ready")

def validateUnavailablePgPayloadReadinessAt (transition : UnavailablePgPlacementTransition)
    (activationAtMs : Nat) :
    Except ControlPlaneError Unit := do
  let pgId := transition.pgId
  let readiness ← okOr transition.payloadReadiness (.commandDecode
    s!"PG {pgId} unavailable placement is not payload-write ready")
  validateUnavailablePgPayloadReadiness snapshot transition readiness
  readiness.destinations.forM fun destination => do
    let nodeId := destination.nodeId
    let node ← okOr snapshot.nodes[nodeId]? (.unknownNode nodeId)
    failIf (node.nodeIncarnation ≠ destination.nodeIncarnation ∨
        node.endpoint ≠ destination.endpoint ∨
        node.leaseDeadlineMs ≠ some destination.leaseDeadlineMs ∨
        ¬node.canServePrimary snapshot.clusterEpoch activationAtMs ∨
        destination.leaseDeadlineMs ≤ activationAtMs)
      (.commandDecode
        s!"PG {pgId} payload-readiness destination {nodeId} changed before activation")

/-- The metadata log epoch that the new primary reported for the PG. -/
def primaryMetadataLogEpoch (primary : NodeId) : Except ControlPlaneError ClusterEpoch :=
  okOr ((self.nodes[primary]?.bind (·.pgObservations[pgId]?)).map (·.metadataLogEpoch))
    (.pgPrimaryMissingActiveObservation pgId primary self.clusterEpoch)

/-- Activate a PG and retire its placement transition. -/
def ClusterControlSnapshot.activatePg (primary : NodeId) (proof : PgMetadataProof)
    (metadataLogEpoch : ClusterEpoch) :
    ClusterControlSnapshot :=
  (self.modifyPg pgId (·.activate primary proof metadataLogEpoch)).retireTransition pgId

def applyCompletePgPeering (primary : NodeId) (nodeIncarnation completeAtMs : Nat) :
    Except ControlPlaneError AppliedControlPlaneCommand := do
  onSome self.unavailablePgPlacementTransitions[pgId]? fun transition =>
    validateUnavailablePgPayloadReadinessAt self transition completeAtMs
  self.validateServingTimestamp completeAtMs
  let validated ← validatePgPeeringCompletion self pgId primary nodeIncarnation completeAtMs none
  match validated with
  | .alreadyActive =>
    pure (appliedControlPlaneCommand self (self.recordCommittedTimestamp completeAtMs)
      .completePgPeering (self.timestampAdvances completeAtMs))
  | .complete proof proofEpoch => do
    let metadataLogEpoch ← primaryMetadataLogEpoch self pgId primary
    let next ← ((self.recordCommittedTimestamp completeAtMs).activatePg pgId primary proof
      metadataLogEpoch).bumpEpoch
    let next := next.modifyPg pgId fun record =>
      { record with activeMetadataProofEpoch := some proofEpoch }
    pure (appliedControlPlaneCommand self next .completePgPeering true)

/-- The loop over ready completions that checks that no PG is named twice. -/
def validateDistinctCompletionsFrom :
    List ReadyPgPeeringCompletion → List PgId → Except ControlPlaneError Unit
  | [], _ => pure ()
  | completion :: rest, seen => do
    failIf (completion.pgId ∈ seen) (.duplicateReadyPgPeeringCompletion completion.pgId)
    validateDistinctCompletionsFrom rest (completion.pgId :: seen)

def validateReadyCompletion (readyAtMs : Nat)
    (completion : ReadyPgPeeringCompletion) : Except ControlPlaneError Unit := do
  onSome self.unavailablePgPlacementTransitions[completion.pgId]? fun transition =>
    validateUnavailablePgPayloadReadinessAt self transition readyAtMs
  let _ ← validatePgPeeringCompletion self completion.pgId completion.primary
    completion.nodeIncarnation readyAtMs
    (some ⟨completion.activeMetadataProof, completion.activeMetadataProofEpoch⟩)
  pure ()

/-- Activate the ready PGs in order; a PG that is already Active is left as it is. -/
def activateReadyFrom (self : ClusterControlSnapshot) :
    List ReadyPgPeeringCompletion → ClusterControlSnapshot →
    Except ControlPlaneError ClusterControlSnapshot
  | [], next => pure next
  | completion :: rest, next => do
    let metadataLogEpoch ← primaryMetadataLogEpoch self completion.pgId completion.primary
    activateReadyFrom self rest
      (if next.pgs[completion.pgId]?.any (·.state == .active) then next
      else next.activatePg completion.pgId completion.primary completion.activeMetadataProof
        metadataLogEpoch)

/-- Record the proof epoch of a completion on the PG it describes. -/
def PgControlRecord.recordProofEpoch (completion : ReadyPgPeeringCompletion) : PgControlRecord :=
  if record.state = .active ∧ record.activePrimary = some completion.primary ∧
      record.activeMetadataProof = some completion.activeMetadataProof then
    { record with activeMetadataProofEpoch := some completion.activeMetadataProofEpoch }
  else record

def applyCompleteReadyPgPeerings (readyAtMs : Nat) (ready : List ReadyPgPeeringCompletion) :
    Except ControlPlaneError AppliedControlPlaneCommand := do
  self.validateServingTimestamp readyAtMs
  if ready = [] then
    pure (appliedControlPlaneCommand self (self.recordCommittedTimestamp readyAtMs)
      .completeReadyPgPeerings (self.timestampAdvances readyAtMs))
  else do
    validateDistinctCompletionsFrom ready []
    ready.forM (validateReadyCompletion self readyAtMs)
    let next ← activateReadyFrom self ready (self.recordCommittedTimestamp readyAtMs)
    let completedAny := ready.any fun completion =>
      self.pgs[completion.pgId]?.any (·.state != .active)
    if completedAny then do
      let next ← next.bumpEpoch
      let next := ready.foldl (fun next completion =>
        next.modifyPg completion.pgId (·.recordProofEpoch completion)) next
      pure (appliedControlPlaneCommand self next .completeReadyPgPeerings true)
    else
      pure (appliedControlPlaneCommand self next .completeReadyPgPeerings
        (self.timestampAdvances readyAtMs))

/-! ### Replacing an unavailable node -/

/-- The acting set with the unavailable node replaced by the first eligible spare. -/
def deterministicUnavailablePgDestination (sourceActingSet : List NodeId)
    (unavailableNodeId : NodeId) (nowMs : Nat) :
    Except ControlPlaneError (List NodeId) := do
  failIf (unavailableNodeId ∉ sourceActingSet) (.commandDecode
    s!"PG {pgId} unavailable node {unavailableNodeId} is outside the source acting set")
  let position := sourceActingSet.idxOf unavailableNodeId
  let topology ← okOr snapshot.initialTopology
    (.commandDecode "unavailable placement requires certified placement policy")
  let policy := topology.placementPolicy
  (policy.validateActingSet sourceActingSet).mapError fun message =>
    .commandDecode s!"PG {pgId} source placement violates policy: {message}"
  let replacement ← okOr ((values snapshot.nodes).find? fun node =>
      decide (node.nodeId ∉ sourceActingSet) && node.membership == .active &&
        node.canServePrimary snapshot.clusterEpoch nowMs &&
        (policy.validateActingSet (sourceActingSet.set position node.nodeId)).isOk)
    (.commandDecode
      s!"PG {pgId} has no eligible spare for unavailable node {unavailableNodeId}")
  pure (sourceActingSet.set position replacement.nodeId)

/-- The metadata source of a replacement: node, its proof, and the floor with its epoch and
provenance. -/
structure TransitionSource where
  nodeId : NodeId
  proof : PgMetadataProof
  floor : PeeringMetadataProofFloor

def activeTransitionSource (beginAtMs : Nat) : Except ControlPlaneError TransitionSource := do
  let pgId := record.pgId
  let sourceNodeId ← okOr record.activePrimary (.pgHasNoServingPrimary pgId snapshot.clusterEpoch)
  let node ← okOr snapshot.nodes[sourceNodeId]? (.unknownActingSetNode pgId sourceNodeId)
  failIf (¬node.canServePrimary snapshot.clusterEpoch beginAtMs)
    (.nodeLeaseExpired sourceNodeId beginAtMs node.leaseDeadlineMs)
  let observation ← okOr node.pgObservations[pgId]?
    (.pgPrimaryMissingActiveObservation pgId sourceNodeId snapshot.clusterEpoch)
  let floor ← okOr record.activeMetadataProof (.activePgMissingMetadataProof pgId)
  failIf (observation.observedEpoch ≠ snapshot.clusterEpoch ∨ observation.state ≠ .active ∨
      observation.pendingMetadataCommand.isSome ∨
      ¬metadataProofSatisfiesActivePrimaryObservationFloorAtLogEpoch floor
        observation.metadataProof
        (metadataProofProgressProvenance record.activeMetadataTransferImported
          record.activeMetadataProofEpoch)
        observation.observedEpoch record.activeMetadataLogEpoch observation.metadataLogEpoch)
    (.commandDecode
      s!"PG {pgId} Active metadata-transfer source is not exactly proof-qualified")
  pure ⟨sourceNodeId, observation.metadataProof,
    ⟨floor, record.activeMetadataProofEpoch, record.activeMetadataTransferImported⟩⟩

def peeringTransitionSource (beginAtMs : Nat) : Except ControlPlaneError TransitionSource := do
  let pgId := record.pgId
  let route ← okOr (peeringMetadataReadRouteForSnapshot snapshot record beginAtMs)
    (.commandDecode s!"PG {pgId} has no proof-qualified serving metadata-transfer source")
  let floor ← okOr record.peeringMetadataProofFloorContext
    (.commandDecode s!"PG {pgId} metadata-transfer source has no certified proof floor")
  pure ⟨route.nodeId, route.proof, floor⟩

def transitionSource (beginAtMs : Nat) : Except ControlPlaneError TransitionSource :=
  match record.state with
  | .active => activeTransitionSource snapshot record beginAtMs
  | .peering => peeringTransitionSource snapshot record beginAtMs
  | state => .error (.pgNotActive record.pgId snapshot.clusterEpoch state)

def unavailablePgTransitionBeginAuthorization (destinationActingSet : List NodeId)
    (unavailableNode : NodeUnavailableObservation) (beginAtMs : Nat) :
    Except ControlPlaneError UnavailablePgTransitionBeginAuthorization := do
  let pgId := record.pgId
  let source ← transitionSource snapshot record beginAtMs
  let sourceNode ← okOr snapshot.nodes[source.nodeId]? (.unknownNode source.nodeId)
  let observation ← okOr sourceNode.pgObservations[pgId]?
    (.pgPrimaryMissingActiveObservation pgId source.nodeId snapshot.clusterEpoch)
  let replacementNodeId ← okOr ((record.actingSet.zip destinationActingSet).findSome?
      fun (source, destination) => if source ≠ destination then some destination else none)
    (.commandDecode s!"PG {pgId} destination has no replacement actor")
  let replacement ← okOr snapshot.nodes[replacementNodeId]? (.unknownNode replacementNodeId)
  let sourceLeaseDeadlineMs ← okOr sourceNode.leaseDeadlineMs
    (.nodeLeaseExpired source.nodeId beginAtMs none)
  let replacementLeaseDeadlineMs ← okOr replacement.leaseDeadlineMs
    (.nodeLeaseExpired replacementNodeId beginAtMs none)
  pure {
    beginAtMs := beginAtMs
    unavailableNode := unavailableNode
    sourceRoute := .ofRecord record
    sourceMetadataFloor := source.floor.proof
    sourceMetadataFloorEpoch := source.floor.epoch
    sourceMetadataFloorImported := source.floor.imported
    sourceNodeId := source.nodeId
    sourceNodeIncarnation := sourceNode.nodeIncarnation
    sourceEndpoint := sourceNode.endpoint
    sourceLeaseDeadlineMs := sourceLeaseDeadlineMs
    sourceObservedAtMs := observation.observedAtMs
    sourceMetadataProof := source.proof
    replacementNodeId := replacementNodeId
    replacementNodeIncarnation := replacement.nodeIncarnation
    replacementEndpoint := replacement.endpoint
    replacementLeaseDeadlineMs := replacementLeaseDeadlineMs }

/-- The transition that a begin command asks for. -/
def BeginUnavailableTransition.requested : UnavailablePgPlacementTransition where
  pgId := body.pgId
  transitionEpoch := body.expectedTransitionEpoch
  predecessorTransitionEpoch := body.predecessorTransitionEpoch
  topologyGeneration := body.topologyGeneration
  topologyDigest := body.topologyDigest
  sourceEpoch := body.sourceEpoch
  sourceActingSet := body.sourceActingSet
  sourceNodeId := body.sourceNodeId
  beginAuthorization := body.beginAuthorization
  unavailableNode := ⟨body.unavailableNodeId, body.unavailableNodeIncarnation,
    body.unavailableEndpoint, body.unavailableLeaseDeadlineMs, body.unavailableObservedAtMs⟩
  graceCutoffMs := body.graceCutoffMs
  destinationActingSet := body.destinationActingSet
  destinationEpoch := none
  destinationRoute := none
  payloadReadiness := none

/-- A recorded transition without what was added after it began. -/
def UnavailablePgPlacementTransition.originalRequest (self : UnavailablePgPlacementTransition) :
    UnavailablePgPlacementTransition :=
  { self with destinationEpoch := none, destinationRoute := none, payloadReadiness := none }

/-- The newest retained transition of a PG up to the current epoch. -/
def retainedTip : Option ClusterEpoch :=
  ((self.retainedUnavailablePgPlacementTransitions.toList.filter fun (key, _) =>
    key.1 == pgId && decide (1 ≤ key.2) && decide (key.2 ≤ self.clusterEpoch)).getLast?).map
    (·.2.transitionEpoch)

/-- Whether a begin command repeats a recorded request (`true`), or may start a transition that
consumes the tip of the PG's lineage (`false`). -/
def beginRepeats : Except ControlPlaneError Bool :=
  let pgId := body.pgId
  match self.retainedUnavailablePgPlacementTransitions[(pgId, body.expectedTransitionEpoch)]? with
  | some existing => do
    failIf (existing.originalRequest ≠ body.requested) (.commandDecode
      s!"PG {pgId} retained transition epoch belongs to a different request")
    pure true
  | none =>
    match self.unavailablePgPlacementTransitions[pgId]? with
    | some existing =>
      if existing.originalRequest = body.requested then pure true
      else do
        failIf (body.predecessorTransitionEpoch ≠ some existing.transitionEpoch) (.commandDecode
          s!"PG {pgId} successor transition does not consume the active transition tip")
        pure false
    | none => do
      failIf (body.predecessorTransitionEpoch ≠ retainedTip self pgId) (.commandDecode
        s!"PG {pgId} successor transition does not consume the retained lineage tip")
      pure false

/-- The checks of a begin command against the current state; the PG record it starts from. -/
def validateBegin : Except ControlPlaneError PgControlRecord := do
  let pgId := body.pgId
  let nodeId := body.unavailableNodeId
  let observationSupplied := body.requested.unavailableNode
  self.validateServingTimestamp body.beginAtMs
  let sourceEpoch := body.sourceEpoch
  let clusterEpoch := self.clusterEpoch
  failIf (sourceEpoch ≠ clusterEpoch) (.commandDecode
    s!"PG {pgId} unavailable placement source epoch {sourceEpoch} does not match current epoch {clusterEpoch}")
  let transitionEpoch ← nextEpoch self.clusterEpoch
  failIf (body.expectedTransitionEpoch ≠ transitionEpoch) (.commandDecode
    s!"PG {pgId} unavailable placement transition epoch is not the next cluster epoch")
  let topology ← okOr self.initialTopology
    (.commandDecode "unavailable placement transition requires certified topology")
  failIf (topology.topologyGeneration ≠ body.topologyGeneration ∨
      topology.topologyDigest ≠ body.topologyDigest)
    (.commandDecode "unavailable placement transition topology changed")
  let observation ← okOr self.unavailableNodeObservations[nodeId]? (.commandDecode
    s!"node {nodeId} has no durable unavailable lease observation")
  failIf (observation ≠ observationSupplied)
    (.commandDecode s!"node {nodeId} unavailable lease observation changed")
  let expectedGrace ← okOr (checkedAdd body.unavailableObservedAtMs
      topology.placementPolicy.unavailableReplacementGraceMs)
    (.commandDecode "unavailable placement grace cutoff overflows")
  failIf (body.graceCutoffMs ≠ expectedGrace ∨ body.beginAtMs < body.graceCutoffMs)
    (.commandDecode s!"PG {pgId} unavailable placement grace has not elapsed")
  let record ← okOr self.pgs[pgId]? (.unknownPg pgId)
  failIf (¬(record.state = .active ∨ record.state = .peering) ∨
      record.actingSet ≠ body.sourceActingSet)
    (.commandDecode s!"PG {pgId} unavailable placement source changed")
  let destination ← deterministicUnavailablePgDestination self pgId body.sourceActingSet nodeId
    body.beginAtMs
  failIf (body.destinationActingSet ≠ destination) (.commandDecode
    s!"PG {pgId} unavailable placement destination is not the deterministic eligible replacement")
  let authorization ← unavailablePgTransitionBeginAuthorization self record
    body.destinationActingSet observationSupplied body.beginAtMs
  failIf (body.beginAuthorization ≠ authorization ∨
      body.sourceNodeId ≠ body.beginAuthorization.sourceNodeId)
    (.commandDecode s!"PG {pgId} unavailable placement begin authorization changed")
  pure record

/-- The record of a PG whose unavailable node is being replaced: fenced, and routed to the
metadata source first. -/
def PgControlRecord.beginReplacement (previousPrimaryLease : Option PreviousPrimaryLease) :
    PgControlRecord :=
  { record.resetToPeering previousPrimaryLease with
    actingSet := unavailableTransitionSourceRouteActingSet body.sourceActingSet body.sourceNodeId
    peeringMetadataProofFloor := some body.beginAuthorization.sourceMetadataFloor
    peeringMetadataProofFloorEpoch := body.beginAuthorization.sourceMetadataFloorEpoch
    peeringMetadataProofFloorImported := body.beginAuthorization.sourceMetadataFloorImported
    metadataTransferFenced := true
    metadataTransferFenceSourceLeaseDeadlineMs :=
      some ((previousPrimaryLease.map (·.leaseDeadlineMs)).getD body.unavailableLeaseDeadlineMs)
    metadataTransferFenceSourceImported := body.beginAuthorization.sourceMetadataFloorImported
    metadataTransferFenceEpoch := some body.expectedTransitionEpoch }

def applyBeginUnavailablePgPlacementTransition :
    Except ControlPlaneError AppliedControlPlaneCommand := do
  let repeats ← beginRepeats self body
  if repeats then
    pure (appliedControlPlaneCommand self self .beginUnavailablePgPlacementTransition false)
  else do
    let record ← validateBegin self body
    let next := (self.recordCommittedTimestamp body.beginAtMs).retireTransition body.pgId
    let next := { next with
      unavailablePgPlacementTransitions :=
        next.unavailablePgPlacementTransitions.insert body.pgId body.requested }
    let next ← (next.modifyPg body.pgId fun _ =>
      record.beginReplacement body (fencingLeaseWithoutPreference self record)).bumpEpoch
    pure (appliedControlPlaneCommand self next .beginUnavailablePgPlacementTransition true)

def CompleteUnavailableTransition.readiness (body : CompleteUnavailableTransition) :
    UnavailablePgPayloadReadiness :=
  ⟨body.pgId, body.transitionEpoch, body.destinationEpoch, body.topologyGeneration,
    body.topologyDigest, body.readyAtMs, body.destinations⟩

def applyCompleteUnavailablePgPlacementTransition (body : CompleteUnavailableTransition) :
    Except ControlPlaneError AppliedControlPlaneCommand := do
  let pgId := body.pgId
  let completion := body.completion
  self.validateServingTimestamp body.readyAtMs
  match self.unavailablePgPlacementTransitions[pgId]? with
  | none => do
    failIf (¬(self.retainedUnavailablePgPlacementTransitions[(pgId,
          body.unavailableTransition.transitionEpoch)]?.any
          body.unavailableTransition.matchesTransition &&
        self.pgs[pgId]?.any fun pg => pg.state == .active &&
          pg.actingSet == body.unavailableTransition.destinationActingSet))
      (.commandDecode s!"PG {pgId} has no matching active unavailable placement transition")
    pure (appliedControlPlaneCommand self self .completeUnavailablePgPlacementTransition false)
  | some transition => do
    failIf (¬body.unavailableTransition.matchesTransition transition) (.commandDecode
      s!"PG {pgId} completion does not match its active unavailable placement transition")
    validateUnavailablePgPayloadReadiness self transition body.readiness
    let ready := { self with
      unavailablePgPlacementTransitions :=
        self.unavailablePgPlacementTransitions.modify pgId fun transition =>
          { transition with payloadReadiness := some body.readiness } }
    let _ ← validatePgPeeringCompletion ready pgId completion.primary completion.nodeIncarnation
      body.readyAtMs (some ⟨completion.activeMetadataProof, completion.activeMetadataProofEpoch⟩)
    let metadataLogEpoch ← primaryMetadataLogEpoch self pgId completion.primary
    let next ← ((ready.recordCommittedTimestamp body.readyAtMs).activatePg pgId
      completion.primary completion.activeMetadataProof metadataLogEpoch).bumpEpoch
    let next := next.modifyPg pgId fun record =>
      { record with activeMetadataProofEpoch := some completion.activeMetadataProofEpoch }
    pure (appliedControlPlaneCommand self next .completeUnavailablePgPlacementTransition true)

end Argmin.ControlPlane
