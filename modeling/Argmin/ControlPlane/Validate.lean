import Argmin.ControlPlane.History

/-!
# Snapshot validation

Every command ends with a check of the snapshot it produced
(`validate_publication_invariants`): the history that current state refers to is retained, and
nodes, PGs and placement transitions are each well formed.  A snapshot that fails the check is
never published.

A message names the record that failed.  Where the source renders a whole record or a nested
error inside a message, the rendering is left out here.
-/

namespace Argmin.ControlPlane

open Fallible TreeMap

variable (self : ClusterControlSnapshot)

def ClusterControlSnapshot.leaseGrantHorizonCovers (authority : LeaseHorizonAuthorityBinding)
    (leaseDeadlineMs : Nat) : Bool :=
  self.leaseGrantHorizon.any fun horizon =>
    horizon.authority == authority && decide (leaseDeadlineMs ≤ horizon.grantNotAfterMs)

def unavailableTransitionSourceRouteActingSet (sourceActingSet : List NodeId)
    (sourceNodeId : NodeId) : List NodeId :=
  sourceNodeId :: sourceActingSet.filter (· ≠ sourceNodeId)

/-! ### Peering proof state -/

def validatePeeringMetadataProofState (pgId : PgId) (proofFloor : Option PgMetadataProof)
    (proofFloorEpoch : Option ClusterEpoch) (proofFloorImported : Bool)
    (transfer : Option PgMetadataTransferProof) (routeEpoch : ClusterEpoch) :
    Except String Unit := do
  failIf (proofFloorEpoch.isSome ∧ proofFloor = none)
    s!"peering PG {pgId} has a floor epoch without a proof floor"
  failIf (proofFloorImported ∧ proofFloorEpoch = none)
    s!"peering PG {pgId} has imported floor provenance without a floor epoch"
  failIf (proofFloorEpoch.any (routeEpoch < ·))
    s!"peering PG {pgId} has a proof floor epoch newer than its route"
  failIf (transfer.isSome ∧ proofFloor = none)
    s!"peering PG {pgId} has a transfer marker without a proof floor"
  match proofFloor, transfer with
  | some floor, some transfer =>
    failIf (¬metadataProofSatisfiesActiveFloor floor transfer.importedMetadataProof)
      s!"peering PG {pgId} metadata transfer proof is below the proof floor"
  | _, _ => pure ()

/-! ### Placement transitions -/

variable (transition : UnavailablePgPlacementTransition)

/-- The begin authorization of a transition agrees with the transition and its source route. -/
def validateTransitionBeginAuthorization : Except String Unit := do
  let pgId := transition.pgId
  let authorization := transition.beginAuthorization
  failIf (authorization.beginAtMs < transition.graceCutoffMs ∨
      authorization.unavailableNode ≠ transition.unavailableNode ∨
      authorization.sourceRoute.pgId ≠ pgId ∨
      authorization.sourceRoute.actingSet ≠ transition.sourceActingSet ∨
      authorization.sourceNodeId ≠ transition.sourceNodeId ∨
      authorization.sourceNodeIncarnation = 0 ∨
      authorization.sourceEndpoint.isEmpty ∨
      authorization.sourceLeaseDeadlineMs ≤ authorization.beginAtMs ∨
      authorization.beginAtMs < authorization.sourceObservedAtMs ∨
      authorization.replacementNodeIncarnation = 0 ∨
      authorization.replacementEndpoint.isEmpty ∨
      authorization.replacementLeaseDeadlineMs ≤ authorization.beginAtMs ∨
      authorization.sourceMetadataFloorEpoch.any (transition.sourceEpoch < ·))
    s!"unavailable PG transition {pgId} has invalid begin authorization"
  let route := authorization.sourceRoute
  match route.state with
  | .active =>
    failIf (route.activePrimary ≠ some authorization.sourceNodeId ∨
        route.peeringMetadataProofFloor.isSome ∨ route.peeringMetadataTransfer.isSome ∨
        ¬metadataProofSatisfiesActiveFloor authorization.sourceMetadataFloor
          authorization.sourceMetadataProof)
      s!"unavailable PG transition {pgId} has invalid Active source authorization"
  | .peering => do
    failIf (route.activePrimary.isSome ∨
        route.peeringMetadataProofFloor ≠ some authorization.sourceMetadataFloor ∨
        route.peeringMetadataProofFloorEpoch ≠ authorization.sourceMetadataFloorEpoch ∨
        route.peeringMetadataProofFloorImported ≠ authorization.sourceMetadataFloorImported)
      s!"unavailable PG transition {pgId} has invalid Peering source authorization"
    (validatePeeringMetadataProofState pgId (some authorization.sourceMetadataFloor)
      authorization.sourceMetadataFloorEpoch authorization.sourceMetadataFloorImported
      route.peeringMetadataTransfer transition.sourceEpoch).mapError fun error =>
        s!"unavailable PG transition {pgId} has invalid source proof authorization: {error}"
    let expectedSourceProof := match route.peeringMetadataTransfer with
      | some transfer => transfer.importedMetadataProof
      | none => authorization.sourceMetadataFloor
    failIf (authorization.sourceMetadataProof ≠ expectedSourceProof)
      s!"unavailable PG transition {pgId} source proof is not certified by its route"
  | _ => .error s!"unavailable PG transition {pgId} has invalid source route state"

/-- The destination route of a transition carries the transfer of the transition's source. -/
def validateTransitionDestinationRoute : Except String Unit :=
  onSome transition.destinationRoute fun route =>
    let pgId := transition.pgId
    failIf (route.pgId ≠ pgId ∨ route.state ≠ .peering ∨
        route.actingSet ≠ transition.destinationActingSet ∨ route.activePrimary.isSome ∨
        !route.peeringMetadataTransfer.any (fun transfer =>
          transfer.sourceMetadataProof == transition.beginAuthorization.sourceMetadataProof) ∨
        !route.peeringMetadataTransferSourceRouteEpoch.any (fun sourceRouteEpoch =>
          decide (transition.transitionEpoch ≤ sourceRouteEpoch) &&
            transition.destinationEpoch.any (sourceRouteEpoch < ·)) ∨
        route.peeringMetadataTransferSourceNodeId ≠ some transition.sourceNodeId)
      s!"unavailable PG transition {pgId} has invalid destination-route evidence"

/-- Recorded payload readiness names every destination node in order, with a live lease. -/
def validateTransitionPayloadReadiness : Except String Unit :=
  onSome transition.payloadReadiness fun readiness => do
    let pgId := transition.pgId
    failIf (readiness.pgId ≠ pgId ∨ readiness.transitionEpoch ≠ transition.transitionEpoch ∨
        some readiness.destinationEpoch ≠ transition.destinationEpoch ∨
        readiness.topologyGeneration ≠ transition.topologyGeneration ∨
        readiness.topologyDigest ≠ transition.topologyDigest ∨
        readiness.destinations.length ≠ transition.destinationActingSet.length)
      s!"unavailable PG transition {pgId} has mismatched payload readiness"
    (transition.destinationActingSet.zip readiness.destinations).forM fun (expected, destination) =>
      failIf (destination.nodeId ≠ expected ∨ destination.nodeIncarnation = 0 ∨
          destination.endpoint.isEmpty ∨ destination.leaseDeadlineMs ≤ readiness.readyAtMs)
        s!"unavailable PG transition {pgId} has invalid payload destination readiness"

variable (snapshot : ClusterControlSnapshot)

def validateUnavailablePgTransitionInvariant (transition : UnavailablePgPlacementTransition) :
    Except String Unit := do
  let pgId := transition.pgId
  let topology ← okOr snapshot.initialTopology
    s!"unavailable PG transition {pgId} requires certified topology"
  failIf (transition.topologyGeneration ≠ topology.topologyGeneration ∨
      transition.topologyDigest ≠ topology.topologyDigest)
    s!"unavailable PG transition {pgId} does not match certified topology"
  let nextSourceEpoch ← (nextEpoch transition.sourceEpoch).mapError fun _ =>
    "cluster epoch overflow"
  failIf (nextSourceEpoch ≠ transition.transitionEpoch ∨
      snapshot.clusterEpoch < transition.transitionEpoch ∨
      transition.destinationEpoch.any (fun epoch =>
        decide (epoch ≤ transition.transitionEpoch) || decide (snapshot.clusterEpoch < epoch)) ∨
      transition.destinationEpoch.isSome ≠ transition.destinationRoute.isSome)
    s!"unavailable PG transition {pgId} has invalid epoch ordering"
  let expectedGrace ← okOr (checkedAdd transition.unavailableNode.observedAtMs
      topology.placementPolicy.unavailableReplacementGraceMs)
    "unavailable PG transition grace cutoff overflows"
  failIf (transition.unavailableNode.leaseDeadlineMs = 0 ∨
      transition.unavailableNode.observedAtMs < transition.unavailableNode.leaseDeadlineMs ∨
      transition.graceCutoffMs ≠ expectedGrace)
    s!"unavailable PG transition {pgId} has invalid lease or grace evidence"
  topology.placementPolicy.validateActingSet transition.sourceActingSet
  topology.placementPolicy.validateActingSet transition.destinationActingSet
  failIf (transition.sourceNodeId ∉ transition.sourceActingSet ∨
      transition.sourceNodeId = transition.unavailableNode.nodeId)
    s!"unavailable PG transition {pgId} has an invalid metadata source"
  validateTransitionBeginAuthorization transition
  validateTransitionDestinationRoute transition
  failIf ((transition.sourceActingSet.zip transition.destinationActingSet).filter
        (fun (source, destination) => source ≠ destination) ≠
        [(transition.unavailableNode.nodeId, transition.beginAuthorization.replacementNodeId)] ∨
      transition.unavailableNode.nodeId ∈ transition.destinationActingSet)
    s!"unavailable PG transition {pgId} is not an exact one-node substitution"
  validateTransitionPayloadReadiness transition

/-- The loop over one lineage map: each transition consumes the tip before it. -/
def validateLineageFrom (what : String) :
    List UnavailablePgPlacementTransition → BTreeMap PgId ClusterEpoch →
    Except String (BTreeMap PgId ClusterEpoch)
  | [], tips => pure tips
  | transition :: rest, tips => do
    let epoch := transition.transitionEpoch
    failIf (transition.predecessorTransitionEpoch ≠ tips[transition.pgId]?)
      s!"{what} unavailable PG transition {epoch} does not consume its predecessor tip"
    validateLineageFrom what rest (tips.insert transition.pgId epoch)

def validateUnavailablePgTransitionLineages : Except String Unit := do
  let tips ← validateLineageFrom "retained"
    (values snapshot.retainedUnavailablePgPlacementTransitions) ∅
  (values snapshot.unavailablePgPlacementTransitions).forM fun transition =>
    let epoch := transition.transitionEpoch
    failIf (transition.predecessorTransitionEpoch ≠ tips[transition.pgId]?)
      s!"active unavailable PG transition {epoch} does not consume its predecessor tip"

/-! ### Horizon and unavailable observations -/

def validateLeaseGrantHorizonInvariant : Except String Unit :=
  onSome self.leaseGrantHorizon fun horizon => do
    let deadline := horizon.grantNotAfterMs
    failIf (deadline = 0) "lease grant horizon deadline must be nonzero"
    let highWater ← okOr self.maxCommittedTimestampMs
      "lease grant horizon requires a committed timestamp high-water"
    let futureCapacityMs := deadline - highWater
    let maximum := maxLeaseGrantHorizonMs
    failIf (maxLeaseGrantHorizonMs < futureCapacityMs)
      s!"lease grant horizon deadline {deadline} exceeds committed timestamp high-water {highWater} by {futureCapacityMs}ms, greater than maximum {maximum}ms"

def validateUnavailableNodeObservation (nodeId : NodeId)
    (observation : NodeUnavailableObservation) : Except String Unit := do
  failIf (nodeId ≠ observation.nodeId)
    "unavailable node observation key does not match its subject"
  let node ← okOr self.nodes[nodeId]? s!"unavailable observation references unknown node {nodeId}"
  failIf (node.nodeIncarnation ≠ observation.nodeIncarnation ∨
      node.endpoint ≠ observation.endpoint)
    s!"unavailable observation for node {nodeId} does not match its incarnation and endpoint"
  failIf (observation.leaseDeadlineMs = 0 ∨
      observation.observedAtMs < observation.leaseDeadlineMs)
    s!"unavailable observation for node {nodeId} has an invalid lease interval"
  failIf (node.observedAvailability ≠ .unavailable ∨ node.leaseDeadlineMs.isSome)
    s!"unavailable observation for node {nodeId} is retained after lease renewal"

def validateActiveTransition (pgId : PgId)
    (transition : UnavailablePgPlacementTransition) : Except String Unit := do
  failIf (pgId ≠ transition.pgId)
    "active unavailable PG transition key does not match its subject"
  failIf transition.payloadReadiness.isSome
    s!"active unavailable PG transition {pgId} retains standalone payload readiness"
  validateUnavailablePgTransitionInvariant self transition
  let pg ← okOr self.pgs[pgId]? s!"unavailable transition references unknown PG {pgId}"
  let placed : Bool := match transition.destinationEpoch with
    | none => pg.state == .peering && pg.actingSet ==
        unavailableTransitionSourceRouteActingSet transition.sourceActingSet
          transition.sourceNodeId
    | some destinationEpoch =>
      decide (transition.transitionEpoch < destinationEpoch) &&
        decide (destinationEpoch ≤ self.clusterEpoch) && pg.state == .peering &&
        pg.actingSet == transition.destinationActingSet
  failIf (¬placed)
    s!"active unavailable PG transition {pgId} does not match current Peering placement"

/-! ### PG records -/

/-- The record carries state of an accepted metadata proof. -/
def PgControlRecord.carriesActiveState (pg : PgControlRecord) : Bool :=
  pg.activePrimary.isSome || pg.activeMetadataProof.isSome ||
    pg.activeMetadataProofEpoch.isSome || pg.activeMetadataLogEpoch.isSome ||
    pg.activeMetadataTransferImported

/-- The record carries a peering floor, a transfer marker or a transfer fence. -/
def PgControlRecord.carriesPeeringState (pg : PgControlRecord) : Bool :=
  pg.peeringMetadataProofFloor.isSome || pg.peeringMetadataProofFloorEpoch.isSome ||
    pg.peeringMetadataProofFloorImported || pg.peeringMetadataTransfer.isSome ||
    pg.peeringMetadataTransferSourceRouteEpoch.isSome ||
    pg.peeringMetadataTransferSourceNodeId.isSome || pg.metadataTransferFenced ||
    pg.metadataTransferFenceSourceLeaseDeadlineMs.isSome ||
    pg.metadataTransferFenceSourceImported || pg.metadataTransferFenceEpoch.isSome

/-- The loop over an acting set: no repeated and no unknown node. -/
def validateActingNodesFrom (self : ClusterControlSnapshot) (pgId : PgId) :
    List NodeId → List NodeId → Except String Unit
  | [], _ => pure ()
  | nodeId :: rest, seen => do
    failIf (nodeId ∈ seen) s!"PG {pgId} acting set repeats node {nodeId}"
    failIf (¬self.nodes.contains nodeId) s!"PG {pgId} acting set references unknown node {nodeId}"
    validateActingNodesFrom self pgId rest (nodeId :: seen)

def validateActivePgState (pg : PgControlRecord) : Except String Unit := do
  let pgId := pg.pgId
  let primary ← okOr pg.activePrimary s!"active PG {pgId} has no primary"
  failIf (primary ∉ pg.actingSet)
    s!"active PG {pgId} primary {primary} is outside the acting set"
  failIf (pg.activeMetadataProof = none) s!"active PG {pgId} has no metadata proof"
  failIf (pg.activeMetadataProofEpoch = none) s!"active PG {pgId} has no metadata proof epoch"
  failIf (pg.activeMetadataLogEpoch = none) s!"active PG {pgId} has no metadata log epoch"
  failIf (pg.carriesPeeringState ∨ pg.previousPrimaryLease.isSome)
    s!"active PG {pgId} carries peering metadata-transfer state"

def validatePeeringPgState (clusterEpoch : ClusterEpoch) (pg : PgControlRecord) :
    Except String Unit := do
  let pgId := pg.pgId
  failIf pg.carriesActiveState s!"peering PG {pgId} carries active metadata state"
  validatePeeringMetadataProofState pgId pg.peeringMetadataProofFloor
    pg.peeringMetadataProofFloorEpoch pg.peeringMetadataProofFloorImported
    pg.peeringMetadataTransfer clusterEpoch
  failIf (pg.peeringMetadataTransfer.isSome ∧ pg.metadataTransferFenced)
    s!"peering PG {pgId} has destination metadata transfer state and source transfer fence"
  failIf (pg.peeringMetadataTransfer.isSome ∧
      (pg.peeringMetadataTransferSourceRouteEpoch = none ∨
        pg.peeringMetadataTransferSourceNodeId = none))
    s!"peering PG {pgId} has an incomplete transfer source route"
  failIf (pg.peeringMetadataTransfer = none ∧
      (pg.peeringMetadataTransferSourceRouteEpoch.isSome ∨
        pg.peeringMetadataTransferSourceNodeId.isSome))
    s!"peering PG {pgId} has transfer source route fields without a transfer marker"
  failIf (pg.metadataTransferFenceSourceImported ∧ ¬pg.metadataTransferFenced)
    s!"peering PG {pgId} has imported fence provenance without a transfer fence"
  failIf (pg.metadataTransferFenceSourceLeaseDeadlineMs.isSome ∧ ¬pg.metadataTransferFenced)
    s!"peering PG {pgId} has a fence source lease deadline without a transfer fence"
  failIf (pg.metadataTransferFenced ≠ pg.metadataTransferFenceEpoch.isSome)
    s!"peering PG {pgId} must carry a fence epoch exactly while transfer fenced"
  failIf (pg.metadataTransferFenceEpoch.any (clusterEpoch < ·))
    s!"peering PG {pgId} has a metadata transfer fence epoch in the future"

def validatePgRecord (pg : PgControlRecord) : Except String Unit := do
  let pgId := pg.pgId
  failIf (pg.actingSet = []) s!"PG {pgId} has an empty acting set"
  onSome self.initialTopology fun topology =>
    (topology.placementPolicy.validateActingSet pg.actingSet).mapError fun message =>
      s!"PG {pgId} violates certified placement policy: {message}"
  validateActingNodesFrom self pgId pg.actingSet []
  onSome pg.previousPrimaryLease fun previous => do
    let previousNode := previous.nodeId
    failIf (previous.nodeIncarnation = 0)
      s!"PG {pgId} previous primary has zero node incarnation"
    failIf (¬self.nodes.contains previous.nodeId)
      s!"PG {pgId} previous primary references unknown node {previousNode}"
  match pg.state with
  | .active => validateActivePgState pg
  | .peering => validatePeeringPgState self.clusterEpoch pg
  | _ =>
    failIf (pg.carriesActiveState ∨ pg.carriesPeeringState)
      s!"non-active/non-peering PG {pgId} carries active or peering metadata state"

/-! ### Node records -/

def validatePendingMetadataCommandReporter (pgId : PgId)
    (nodeId : NodeId) (pending : PendingMetadataCommandObservation) :
    Except ControlPlaneError Unit := do
  let historical ← snapshot.reconstructedPgRouteAtEpoch pgId pending.clusterEpoch
  failIf (historical.state ≠ .active ∨ historical.primaryNodeId ≠ nodeId)
    (.pgPeeringPendingMetadataCommandReporterNotHistoricalPrimary pgId snapshot.clusterEpoch
      nodeId pending.clusterEpoch historical.state historical.primaryNodeId)

def validateNodePgObservation (nodeId : NodeId)
    (observation : NodePgObservationRecord) : Except String Unit := do
  let pgId := observation.pgId
  let observed := observation.observedEpoch
  let current := self.clusterEpoch
  failIf (observed ≠ current)
    s!"node {nodeId} observation for PG {pgId} is from epoch {observed}, current is {current}"
  let pg ← okOr self.pgs[pgId]? s!"node {nodeId} observation references unknown PG {pgId}"
  let currentActor : Bool := nodeId ∈ pg.actingSet
  failIf (¬currentActor ∧ observation.pendingMetadataCommand = none)
    s!"node {nodeId} observation references PG {pgId} outside the acting set"
  onSome observation.pendingMetadataCommand fun pending => do
    (validatePendingMetadataCommandReporter self pgId nodeId pending).mapError fun _ =>
      s!"node {nodeId} historical pending observation for PG {pgId} is invalid"
    failIf ((¬currentActor ∨ pending.clusterEpoch ≠ self.clusterEpoch) ∧
        (pg.state ≠ .peering ∨ observation.state ≠ .peering))
      s!"node {nodeId} historical pending observation for PG {pgId} must retain a Peering fence"
  if pg.state = .active ∧ pg.activePrimary = some nodeId ∧ observation.state = .active then do
    let expected ← okOr pg.activeMetadataProof s!"active PG {pgId} is missing metadata proof"
    failIf (observation.pendingMetadataCommand = none ∧
        ¬metadataProofSatisfiesActivePrimaryObservationFloorAtLogEpoch expected
          observation.metadataProof
          (metadataProofProgressProvenance pg.activeMetadataTransferImported
            pg.activeMetadataProofEpoch)
          observation.observedEpoch pg.activeMetadataLogEpoch observation.metadataLogEpoch)
      s!"active primary node {nodeId} observation for PG {pgId} has proof below its floor"
  else pure ()

def validateNodeRecord (node : NodeControlRecord) : Except String Unit := do
  let nodeId := node.nodeId
  failIf (node.membership.hasLeft ∧ (node.administrativelyAvailable ∨
      node.observedAvailability ≠ .unavailable ∨ node.leaseDeadlineMs.isSome))
    s!"node {nodeId} that has left keeps availability or a lease deadline"
  onSome node.leaseDeadlineMs fun leaseDeadlineMs => do
    let highWater ← okOr self.maxCommittedTimestampMs
      s!"node {nodeId} has lease deadline {leaseDeadlineMs} without a committed timestamp high-water"
    if self.leaseGrantHorizon.any (leaseDeadlineMs ≤ ·.grantNotAfterMs) then pure ()
    else (validateServingDeadlineBound leaseDeadlineMs highWater maxHeartbeatLeaseMs
      controlPlaneClockSkewBudgetMs).mapError fun _ =>
        s!"node {nodeId} has an out-of-bounds serving lease"
  let current := self.clusterEpoch
  onSome node.lastObservedEpoch fun observed =>
    failIf (self.clusterEpoch < observed)
      s!"node {nodeId} observed future epoch {observed} above current {current}"
  node.retainedClusterMapHistoryRouteReferences.forM fun reference =>
    let epoch := reference.clusterEpoch
    let pgId := reference.pgId
    failIf (self.clusterEpoch < epoch)
      s!"node {nodeId} has future cluster-map history route ({epoch}, PG {pgId}) above current {current}"
  failIf (node.retiringClusterMapHistoryRouteReferences.toList.any
      node.clusterMapHistoryRouteReferences.contains)
    s!"node {nodeId} has a history route marked both current and retiring"
  failIf (node.clusterMapHistoryRouteScanGeneration = none ∧
      (¬node.clusterMapHistoryRouteReferences.isEmpty ∨
        ¬node.retiringClusterMapHistoryRouteReferences.isEmpty))
    s!"node {nodeId} has history route references without an accepted scan generation"
  (values node.pgObservations).forM (validateNodePgObservation self nodeId)

/-! ### Retained history -/

/-- The loop over introduction boundaries: a PG is introduced once, is present now, and has no
route at or before its introduction. -/
def validateIntroductionsFrom (history : List ClusterMapHistoryRecord)
    (pgs : BTreeMap PgId PgControlRecord) :
    List (Nat × PgId) → List PgId → Except String Unit
  | [], _ => pure ()
  | (index, pgId) :: rest, seen => do
    failIf (pgId ∈ seen) "history repeats a PG introduction boundary"
    failIf (¬pgs.contains pgId) "history absent PG is missing from current state"
    failIf ((history.take (index + 1)).any fun earlier => (earlier.pg pgId).isSome)
      "history PG route precedes its introduction boundary"
    validateIntroductionsFrom history pgs rest (pgId :: seen)

/-- One route that a transition requires, at an epoch with an acting set. -/
def validateTransitionRoute (pgId : PgId)
    (required : ClusterEpoch × List NodeId) : Except String Unit :=
  if required.1 = self.clusterEpoch then
    failIf (¬self.pgs[pgId]?.any (·.actingSet == required.2))
      "unavailable PG transition current route does not match retained evidence"
  else
    failIf (self.clusterEpoch < required.1 ∨
        ¬self.history.any (·.clusterEpoch == required.1) ∨
        historicalPgActingSetAtEpoch self.history self.pgs pgId required.1 ≠ some required.2)
      "unavailable PG transition route does not match retained cluster-map history"

def validateTransitionHistory (transition : UnavailablePgPlacementTransition) :
    Except String Unit := do
  failIf (historicalPgRouteRecordAtEpoch self.history self.pgs transition.pgId
      transition.sourceEpoch ≠ some transition.beginAuthorization.sourceRoute)
    "unavailable PG transition source route does not match retained CAS evidence"
  ([(transition.sourceEpoch, transition.sourceActingSet),
    (transition.transitionEpoch, unavailableTransitionSourceRouteActingSet
      transition.sourceActingSet transition.sourceNodeId)] ++
    (transition.destinationEpoch.map (·, transition.destinationActingSet)).toList).forM
    (validateTransitionRoute self transition.pgId)
  match transition.destinationEpoch, transition.destinationRoute with
  | some destinationEpoch, some destinationRoute =>
    let actual := if destinationEpoch = self.clusterEpoch then
        self.pgs[transition.pgId]?.map HistoricalPgRouteRecord.ofRecord
      else historicalPgRouteRecordAtEpoch self.history self.pgs transition.pgId destinationEpoch
    failIf (actual ≠ some destinationRoute)
      "unavailable PG transition destination route does not match retained CAS evidence"
  | _, _ => pure ()

def validateRequiredClusterMapHistory : Except String Unit := do
  validateIntroductionsFrom self.history self.pgs
    (self.history.zipIdx.flatMap fun (record, index) => record.absentPgs.map (index, ·)) []
  (values self.pgs).forM fun pg =>
    onSome pg.peeringMetadataTransferSourceRouteEpoch fun sourceRouteEpoch =>
      failIf (sourceRouteEpoch < self.clusterEpoch ∧
          ¬self.history.any (·.clusterEpoch == sourceRouteEpoch))
        "metadata transfer source route epoch is not retained in cluster-map history"
  (values self.nodes).forM fun node =>
    node.retainedClusterMapHistoryRouteReferences.forM fun reference =>
      let retained : Bool :=
        if reference.clusterEpoch = self.clusterEpoch then self.pgs.contains reference.pgId
        else if reference.clusterEpoch < self.clusterEpoch then
          self.history.any (·.clusterEpoch == reference.clusterEpoch) &&
            historicalPgExistsAtEpoch self.history self.pgs reference.pgId reference.clusterEpoch
        else false
      failIf (¬retained) "storage cluster-map history route reference is not retained"
  (values self.unavailablePgPlacementTransitions ++
    values self.retainedUnavailablePgPlacementTransitions).forM (validateTransitionHistory self)

/-! ### The whole check -/

def validateCurrentStateInvariants : Except String Unit := do
  onSome self.initialTopology fun certificate => do
    certificate.validate
    failIf (self.nodes.isEmpty ∨ self.pgs.isEmpty)
      "certified initial topology requires nonempty node and PG state"
  validateLeaseGrantHorizonInvariant self
  self.unavailableNodeObservations.toList.forM fun (nodeId, observation) =>
    validateUnavailableNodeObservation self nodeId observation
  self.retainedUnavailablePgPlacementTransitions.toList.forM fun (key, transition) => do
    failIf (key ≠ (transition.pgId, transition.transitionEpoch))
      "retained unavailable PG transition key does not match its subject"
    validateUnavailablePgTransitionInvariant self transition
  self.unavailablePgPlacementTransitions.toList.forM fun (pgId, transition) =>
    validateActiveTransition self pgId transition
  validateUnavailablePgTransitionLineages self
  (values self.pgs).forM (validatePgRecord self)
  (values self.nodes).forM (validateNodeRecord self)

def validatePublicationInvariants : Except String Unit := do
  (validateRequiredClusterMapHistory self).mapError fun message =>
    s!"control-plane state parse error at line 0: {message}"
  validateCurrentStateInvariants self

def validateControlPlaneSnapshot (context : String) (snapshot : ClusterControlSnapshot) :
    Except ControlPlaneError Unit :=
  (validatePublicationInvariants snapshot).mapError (.snapshotInvariantViolation context)

end Argmin.ControlPlane
