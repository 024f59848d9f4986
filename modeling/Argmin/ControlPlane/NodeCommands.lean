import Argmin.ControlPlane.Snapshot
import Argmin.Lib.Sha256

/-!
# Commands about nodes and leases

Bootstrap, membership, availability, heartbeats, lease expiry and promotion: the arms of
`apply_control_plane_command` that read and write node records.  Each arm that can end the
service of a node takes the PGs of that node out of the Active state and advances the epoch.
-/

namespace Argmin.ControlPlane

open Fallible TreeMap Sha256

/-! ### Membership and availability -/

variable (self snapshot : ClusterControlSnapshot) (record : NodeControlRecord)
  (heartbeat : NodeHeartbeat)

/-- What a membership change does to the record of a known node. -/
def NodeControlRecord.setMembership (membership : NodeMembershipState) : NodeControlRecord :=
  if membership.hasLeft then
    { record with
      membership := membership
      administrativelyAvailable := false
      observedAvailability := .unavailable
      leaseDeadlineMs := none }
  else if record.membership.hasLeft then
    { record with
      membership := membership
      administrativelyAvailable := true
      observedAvailability := .suspect }
  else { record with membership := membership }

def applySetNodeMembership (nodeId : NodeId) (membership : NodeMembershipState) :
    Except ControlPlaneError AppliedControlPlaneCommand :=
  match self.nodes[nodeId]? with
  | some record =>
    if record.membership = membership then
      pure (appliedControlPlaneCommand self self .setNodeMembership false)
    else do
      failIf (record.membership = .removed) (.removedNodeCannotRejoin nodeId)
      let next :=
        (self.modifyNode nodeId (·.setMembership membership)).removeUnavailableNodeObservation
        nodeId
      let next ← (markPgsPeeringForNodes next self [nodeId]).bumpEpoch
      pure (appliedControlPlaneCommand self next .setNodeMembership true)
  | none => do
    let next := { self with nodes := self.nodes.insert nodeId (.new nodeId membership) }
    let next ← (next.removeUnavailableNodeObservation nodeId).bumpEpoch
    pure (appliedControlPlaneCommand self next .setNodeMembership true)

/-- Whether marking the availability changes the record. -/
def NodeControlRecord.availabilityChanges : NodeAvailabilityState → Bool
  | .unavailable => record.administrativelyAvailable
  | availability =>
    !record.administrativelyAvailable || record.observedAvailability != availability

def NodeControlRecord.markAvailability : NodeAvailabilityState → NodeControlRecord
  | .unavailable =>
    { record with
      administrativelyAvailable := false
      observedAvailability := .unavailable
      leaseDeadlineMs := none }
  | .healthy =>
    { record with administrativelyAvailable := true, observedAvailability := .healthy }
  | .suspect =>
    { record with
      administrativelyAvailable := true
      observedAvailability := .suspect
      leaseDeadlineMs := none }

def applyMarkNodeAvailability (nodeId : NodeId) (availability : NodeAvailabilityState) :
    Except ControlPlaneError AppliedControlPlaneCommand := do
  let record ← okOr self.nodes[nodeId]? (.unknownNode nodeId)
  failIf (availability ≠ .unavailable ∧ record.membership.hasLeft)
    (.nodeCannotReceiveLease nodeId record.membership)
  if record.availabilityChanges availability then do
    let next :=
      (self.modifyNode nodeId (·.markAvailability availability)).removeUnavailableNodeObservation
      nodeId
    -- a node that is marked healthy keeps its PGs as they are
    let next ← (if availability = .healthy then next
      else markPgsPeeringForNodes next self [nodeId]).bumpEpoch
    pure (appliedControlPlaneCommand self next .markNodeAvailability true)
  else pure (appliedControlPlaneCommand self self .markNodeAvailability false)

/-! ### Horizon and promotion -/

def applyEstablishLeaseGrantHorizon (authority : LeaseHorizonAuthorityBinding)
    (authorityNowMs horizonDurationMs : Nat) :
    Except ControlPlaneError AppliedControlPlaneCommand := do
  failIf (horizonDurationMs = 0 ∨ maxLeaseGrantHorizonMs < horizonDurationMs)
    (.invalidLeaseGrantHorizonDuration horizonDurationMs maxLeaseGrantHorizonMs)
  self.validateServingTimestamp authorityNowMs
  let horizon ← (CommittedLeaseGrantHorizon.establish self.leaseGrantHorizon authority
    authorityNowMs horizonDurationMs controlPlaneClockSkewBudgetMs).mapError
    controlPlaneLeaseHorizonError
  let next := ({ self with leaseGrantHorizon := some horizon }).recordCommittedTimestamp
    authorityNowMs
  pure (appliedControlPlaneCommand self next .establishLeaseGrantHorizon
    (self.leaseGrantHorizon != some horizon || self.timestampAdvances authorityNowMs))

/-- One entry of a promotion: the durable node is the same healthy process and its lease is not
shortened. -/
def validatePromotedLease (horizon : CommittedLeaseGrantHorizon)
    (lease : PromotedNodeHeartbeatLease) : Except ControlPlaneError Unit := do
  let nodeId := lease.nodeId
  let deadline := lease.leaseDeadlineMs
  let bound := horizon.grantNotAfterMs
  failIf (deadline = 0 ∨ bound < deadline) (.commandDecode
    s!"heartbeat lease promotion for node {nodeId} has invalid deadline {deadline} under horizon {bound}")
  let record ← okOr self.nodes[nodeId]? (.unknownNode nodeId)
  failIf record.membership.hasLeft (.nodeCannotReceiveLease nodeId record.membership)
  failIf (¬record.administrativelyAvailable ∨ record.observedAvailability ≠ .healthy)
    (.commandDecode
      s!"heartbeat lease promotion for node {nodeId} requires a healthy available durable node")
  failIf (record.nodeIncarnation ≠ lease.nodeIncarnation)
    (.nodeIncarnationMismatch nodeId lease.nodeIncarnation record.nodeIncarnation)
  let current ← okOr record.leaseDeadlineMs (.commandDecode
    s!"heartbeat lease promotion for node {nodeId} has no durable base lease")
  failIf (deadline < current) (.nodeLeaseDeadlineRegression nodeId current deadline)

/-- A loop over entries whose node ids must increase strictly. -/
def forOrdered {α : Type} (nodeId : α → NodeId) (notOrdered : String)
    (check : α → Except ControlPlaneError Unit) :
    Option NodeId → List α → Except ControlPlaneError Unit
  | _, [] => pure ()
  | previous, entry :: rest => do
    failIf (previous.any (nodeId entry ≤ ·)) (.commandDecode notOrdered)
    check entry
    forOrdered nodeId notOrdered check (some (nodeId entry)) rest

def applyPromoteNodeHeartbeatLeases (authority : LeaseHorizonAuthorityBinding)
    (promoted : List PromotedNodeHeartbeatLease) :
    Except ControlPlaneError AppliedControlPlaneCommand := do
  failIf (promoted = [])
    (.commandDecode "heartbeat lease promotion requires at least one node")
  let horizon ← okOr self.leaseGrantHorizon
    (.commandDecode "heartbeat lease promotion requires a committed lease horizon")
  failIf (horizon.authority ≠ authority)
    (.commandDecode
      "heartbeat lease promotion authority does not match committed horizon authority")
  forOrdered (·.nodeId) "heartbeat lease promotion nodes are not strictly ordered"
    (validatePromotedLease self horizon) none promoted
  let next := promoted.foldl (fun next lease =>
    next.modifyNode lease.nodeId fun record =>
      { record with leaseDeadlineMs := some lease.leaseDeadlineMs }) self
  pure (appliedControlPlaneCommand self next .promoteNodeHeartbeatLeases
    (promoted.any fun lease =>
      self.nodes[lease.nodeId]?.any (·.leaseDeadlineMs != some lease.leaseDeadlineMs)))

/-! ### Heartbeats -/

/-- The heartbeat comes from a newer incarnation or another endpoint than the record. -/
def NodeControlRecord.processChanges : Bool :=
  decide (record.nodeIncarnation < heartbeat.nodeIncarnation) ||
    record.endpoint != heartbeat.endpoint

/-- Take over the process identity of a heartbeat.  A new incarnation restarts its history
scans. -/
def NodeControlRecord.observeProcess : NodeControlRecord :=
  { record with
    nodeIncarnation := max record.nodeIncarnation heartbeat.nodeIncarnation
    clusterMapHistoryRouteScanGeneration :=
      if record.nodeIncarnation < heartbeat.nodeIncarnation then none
      else record.clusterMapHistoryRouteScanGeneration
    endpoint := heartbeat.endpoint }

/-- Renew the lease and take over what the heartbeat reports, without its PG observations. -/
def NodeControlRecord.renewLease (heartbeatAtMs leaseDeadlineMs : Nat) : NodeControlRecord :=
  { ({ record.recordObservedEpoch heartbeat.observedEpoch with
      lastHeartbeatMs := some heartbeatAtMs
      leaseDeadlineMs := some leaseDeadlineMs }).recordClusterMapHistoryRouteReferences
        heartbeat.clusterMapHistoryRouteScanGeneration
        heartbeat.clusterMapHistoryRouteReferences with
    pgObservations := ∅ }

/-- Record PG observations as made in `observedEpoch`; `state` overrides the reported state. -/
def NodeControlRecord.insertObservations (observations : List NodePgHeartbeatObservation)
    (state : Option PgState)
    (observedEpoch : ClusterEpoch) (observedAtMs : Nat) : NodeControlRecord :=
  { record with pgObservations := observations.foldl (fun map observation =>
      map.insert observation.pgId {
        pgId := observation.pgId
        state := state.getD observation.state
        observedEpoch := observedEpoch
        observedAtMs := observedAtMs
        metadataProof := observation.metadataProof
        metadataLogEpoch := observation.metadataLogEpoch
        pendingMetadataCommand := observation.pendingMetadataCommand }) record.pgObservations }

def validateStorageClusterMapHistoryFloorAtEpoch (maxFloorEpoch : ClusterEpoch) :
    Except ControlPlaneError Unit :=
  heartbeat.clusterMapHistoryRouteReferences.toList.forM fun reference => do
    failIf (maxFloorEpoch < reference.clusterEpoch)
      (.storageClusterMapHistoryRouteInFuture heartbeat.nodeId reference.clusterEpoch
        reference.pgId maxFloorEpoch)
    let retained : Bool :=
      if reference.clusterEpoch = snapshot.clusterEpoch then snapshot.pgs.contains reference.pgId
      else (snapshot.reconstructedPgRouteAtEpoch reference.pgId reference.clusterEpoch).isOk
    failIf (¬retained)
      (.storageClusterMapHistoryRouteNotRetained heartbeat.nodeId reference.clusterEpoch
        reference.pgId snapshot.clusterEpoch)

/-- The loop over the observations of a stale heartbeat; only pending commands are kept. -/
def historicalPendingFrom (snapshot : ClusterControlSnapshot) (nodeId : NodeId) :
    List NodePgHeartbeatObservation → List PgId →
    Except ControlPlaneError (List NodePgHeartbeatObservation)
  | [], _ => pure []
  | observation :: rest, seen => do
    failIf (observation.pgId ∈ seen) (.duplicatePgObservation nodeId observation.pgId)
    failIf (¬snapshot.pgs.contains observation.pgId) (.unknownPg observation.pgId)
    match observation.pendingMetadataCommand with
    | none => historicalPendingFrom snapshot nodeId rest (observation.pgId :: seen)
    | some pending => do
      validatePendingMetadataCommandReporter snapshot observation.pgId nodeId pending
      let pendings ← historicalPendingFrom snapshot nodeId rest (observation.pgId :: seen)
      pure (observation :: pendings)

def validateHistoricalPendingPgHeartbeatObservations (nodeId : NodeId)
    (observations : List NodePgHeartbeatObservation) :
    Except ControlPlaneError (List NodePgHeartbeatObservation) :=
  historicalPendingFrom snapshot nodeId observations []

/-- The checks of one observation of a current heartbeat. -/
def validatePgHeartbeatObservation (nodeId : NodeId)
    (pg : PgControlRecord) (observation : NodePgHeartbeatObservation) :
    Except ControlPlaneError Unit := do
  failIf (nodeId ∉ pg.actingSet ∧ observation.pendingMetadataCommand = none)
    (.pgObservationNotInActingSet nodeId observation.pgId)
  onSome observation.pendingMetadataCommand
    (validatePendingMetadataCommandReporter snapshot observation.pgId nodeId)
  if pg.state = .active ∧ pg.activePrimary = some nodeId ∧ observation.state = .active ∧
      observation.pendingMetadataCommand = none then do
    let expected ← okOr pg.activeMetadataProof (.activePgMissingMetadataProof observation.pgId)
    failIf (¬metadataProofSatisfiesActivePrimaryObservationFloorAtLogEpoch expected
        observation.metadataProof
        (metadataProofProgressProvenance pg.activeMetadataTransferImported
          pg.activeMetadataProofEpoch)
        snapshot.clusterEpoch pg.activeMetadataLogEpoch observation.metadataLogEpoch)
      (.pgActiveMetadataProofMismatch observation.pgId nodeId snapshot.clusterEpoch expected
        observation.metadataProof)
  else pure ()

/-- The loop over the observations of a current heartbeat: the pending commands of an earlier
epoch that an Active PG still has. -/
def historicalPendingActiveFrom (snapshot : ClusterControlSnapshot) (nodeId : NodeId) :
    List NodePgHeartbeatObservation → List PgId →
    Except ControlPlaneError (List NodePgHeartbeatObservation)
  | [], _ => pure []
  | observation :: rest, seen => do
    failIf (observation.pgId ∈ seen) (.duplicatePgObservation nodeId observation.pgId)
    let pg ← okOr snapshot.pgs[observation.pgId]? (.unknownPg observation.pgId)
    validatePgHeartbeatObservation snapshot nodeId pg observation
    let pendings ← historicalPendingActiveFrom snapshot nodeId rest (observation.pgId :: seen)
    pure (if pg.state = .active ∧
        observation.pendingMetadataCommand.any (·.clusterEpoch < snapshot.clusterEpoch) then
      observation :: pendings else pendings)

def validatePgHeartbeatObservations (nodeId : NodeId)
    (observations : List NodePgHeartbeatObservation) :
    Except ControlPlaneError (List NodePgHeartbeatObservation) :=
  historicalPendingActiveFrom snapshot nodeId observations []

/-- The checks that every heartbeat passes before its observed epoch is looked at. -/
def validateHeartbeat (heartbeatAtMs leaseDeadlineMs : Nat) :
    Except ControlPlaneError NodeControlRecord := do
  let nodeId := heartbeat.nodeId
  failIf (heartbeat.requestedLeaseDurationMs = 0) .invalidLeaseDuration
  failIf (maxHeartbeatLeaseMs < heartbeat.requestedLeaseDurationMs)
    (.leaseDurationTooLong heartbeat.requestedLeaseDurationMs maxHeartbeatLeaseMs)
  let record ← okOr self.nodes[nodeId]? (.unknownNode nodeId)
  let committed ← self.heartbeatLeaseDeadline nodeId heartbeatAtMs
    heartbeat.requestedLeaseDurationMs
  onSome record.leaseDeadlineMs fun current =>
    failIf (leaseDeadlineMs < current) (.nodeLeaseDeadlineRegression nodeId current leaseDeadlineMs)
  failIf (leaseDeadlineMs ≠ committed)
    (.leaseDeadlineMismatch nodeId heartbeatAtMs heartbeat.requestedLeaseDurationMs committed
      leaseDeadlineMs)
  failIf record.membership.hasLeft (.nodeCannotReceiveLease nodeId record.membership)
  failIf (heartbeat.nodeIncarnation < record.nodeIncarnation)
    (.staleNodeIncarnation nodeId heartbeat.nodeIncarnation record.nodeIncarnation)
  failIf (self.clusterEpoch < heartbeat.observedEpoch)
    (.futureNodeObservedEpoch nodeId heartbeat.observedEpoch self.clusterEpoch)
  pure record

/-- The fences of a heartbeat: the PGs with pending commands, and those of the node when
`fenceNode` holds.  `previous` is the state before the heartbeat. -/
def fenceAfterHeartbeat (next previous : ClusterControlSnapshot) (nodeId : NodeId)
    (pendingIds : List PgId) (fenceNode epochChanged : Bool) :
    Except ControlPlaneError ClusterControlSnapshot :=
  let next := markPgsPeeringForPgIds next previous pendingIds
  if epochChanged then
    (if fenceNode then markPgsPeeringForNodes next previous [nodeId] else next).bumpEpoch
  else pure next

/-- A heartbeat that observed an earlier epoch renews the lease and keeps only the evidence of
pending commands. -/
def recordStaleHeartbeat (heartbeatAtMs leaseDeadlineMs : Nat)
    (leaseHorizonAuthority : Option LeaseHorizonAuthorityBinding) :
    Except ControlPlaneError AppliedControlPlaneCommand := do
  let nodeId := heartbeat.nodeId
  validateStorageClusterMapHistoryFloorAtEpoch self heartbeat self.clusterEpoch
  let pendings ← validateHistoricalPendingPgHeartbeatObservations self nodeId
    heartbeat.pgObservations
  let pendingIds := pendings.map (·.pgId)
  let next ← self.establishHeartbeatLeaseHorizon leaseHorizonAuthority heartbeatAtMs
    leaseDeadlineMs
  let next := (next.recordCommittedTimestamp heartbeatAtMs).modifyNode nodeId fun node =>
    (node.observeProcess heartbeat).renewLease heartbeat heartbeatAtMs leaseDeadlineMs
  let next := next.removeUnavailableNodeObservation nodeId
  let processChanged := record.processChanges heartbeat
  let epochChanged := processChanged || newlyPeering next pendingIds != []
  let next ← fenceAfterHeartbeat next self nodeId pendingIds processChanged epochChanged
  -- the evidence of pending commands survives the epoch bump as a Peering observation
  let next := next.modifyNode nodeId fun node =>
    node.insertObservations pendings (some .peering) next.clusterEpoch heartbeatAtMs
  pure (appliedControlPlaneCommand self next .recordNodeHeartbeat (decide (next ≠ self)))

/-- Follow the progress that the primary of an Active PG reports.  `restarted` says that this
heartbeat also fences the primary into Peering. -/
def PgControlRecord.advanceActiveProof (pg : PgControlRecord) (nodeId : NodeId)
    (observedEpoch : ClusterEpoch) (restarted : Bool)
    (observation : NodePgHeartbeatObservation) : PgControlRecord :=
  match pg.activeMetadataProof with
  | none => pg
  | some current =>
    if pg.state = .active ∧ pg.activePrimary = some nodeId ∧
        (observation.state = .active ∨ restarted ∧ observation.state = .peering) ∧
        observation.pendingMetadataCommand = none ∧
        observation.metadataProof ≠ current ∧
        metadataProofSatisfiesActivePrimaryObservationFloorAtLogEpoch current
          observation.metadataProof
          (metadataProofProgressProvenance pg.activeMetadataTransferImported
            pg.activeMetadataProofEpoch)
          observedEpoch pg.activeMetadataLogEpoch observation.metadataLogEpoch then
      { pg with
        activeMetadataProof := some observation.metadataProof
        activeMetadataProofEpoch := some observedEpoch
        activeMetadataLogEpoch := some observation.metadataLogEpoch
        activeMetadataTransferImported := false }
    else pg

/-- A heartbeat that observed the current epoch. -/
def recordCurrentHeartbeat (heartbeatAtMs leaseDeadlineMs : Nat)
    (leaseHorizonAuthority : Option LeaseHorizonAuthorityBinding) :
    Except ControlPlaneError AppliedControlPlaneCommand := do
  let nodeId := heartbeat.nodeId
  validateStorageClusterMapHistoryFloorAtEpoch self heartbeat heartbeat.observedEpoch
  let pendings ← validatePgHeartbeatObservations self nodeId heartbeat.pgObservations
  let next ← self.establishHeartbeatLeaseHorizon leaseHorizonAuthority heartbeatAtMs
    leaseDeadlineMs
  let next := (next.recordCommittedTimestamp heartbeatAtMs).modifyNode nodeId fun node =>
    ({ node.observeProcess heartbeat with observedAvailability := .healthy }.renewLease heartbeat
      heartbeatAtMs leaseDeadlineMs).insertObservations heartbeat.pgObservations none
      heartbeat.observedEpoch heartbeatAtMs
  let next := next.removeUnavailableNodeObservation nodeId
  -- a new process, or a node that becomes healthy again, fences the PGs of the node
  let affected := record.processChanges heartbeat ||
    (record.observedAvailability != .healthy && record.administrativelyAvailable)
  let next := heartbeat.pgObservations.foldl (fun next observation =>
    next.modifyPg observation.pgId fun pg =>
      pg.advanceActiveProof nodeId heartbeat.observedEpoch affected observation) next
  let epochChanged := affected || pendings != []
  let next ← fenceAfterHeartbeat next self nodeId (pendings.map (·.pgId)) affected epochChanged
  let next := if epochChanged then next.modifyNode nodeId fun node =>
      node.insertObservations pendings (some .peering) next.clusterEpoch heartbeatAtMs
    else next
  pure (appliedControlPlaneCommand self next .recordNodeHeartbeat (decide (next ≠ self)))

def applyRecordNodeHeartbeat (heartbeatAtMs leaseDeadlineMs : Nat)
    (leaseHorizonAuthority : Option LeaseHorizonAuthorityBinding) :
    Except ControlPlaneError AppliedControlPlaneCommand := do
  let record ← validateHeartbeat self heartbeat heartbeatAtMs leaseDeadlineMs
  if heartbeat.observedEpoch ≠ self.clusterEpoch then
    recordStaleHeartbeat self record heartbeat heartbeatAtMs leaseDeadlineMs
      leaseHorizonAuthority
  else
    recordCurrentHeartbeat self record heartbeat heartbeatAtMs leaseDeadlineMs
      leaseHorizonAuthority

/-! ### Lease expiry -/

/-- The node still counts as observed and its lease has run out at `expireAtMs`. -/
def NodeControlRecord.leaseExpired (expireAtMs : Nat) : Bool :=
  !record.membership.hasLeft && record.observedAvailability != .unavailable &&
    record.leaseDeadlineMs.any (· ≤ expireAtMs)

def NodeControlRecord.expireLease : NodeControlRecord :=
  { record with observedAvailability := .unavailable, leaseDeadlineMs := none }

/-- Record that a node became unavailable when its lease ran out. -/
def ClusterControlSnapshot.observeUnavailable (leaseDeadlineMs observedAtMs : Nat) :
    ClusterControlSnapshot :=
  { self with
    unavailableNodeObservations := self.unavailableNodeObservations.insert record.nodeId
      ⟨record.nodeId, record.nodeIncarnation, record.endpoint, leaseDeadlineMs, observedAtMs⟩ }

/-- The end of both expiry commands: the PGs of the expired nodes that were serving go to
Peering. -/
def finishExpiry (self next : ClusterControlSnapshot) (expired : List NodeControlRecord)
    (changed : Bool) : Except ControlPlaneError AppliedControlPlaneCommand := do
  let serving := (expired.filter (·.administrativelyAvailable)).map (·.nodeId)
  let peering := newlyPeering next (pgsActingOn next serving)
  let next ← if serving = [] then pure next
    else (markPgsPeeringForNodes next self serving).bumpEpoch
  pure (appliedControlPlaneCommand self next
    (.expireHeartbeatLeases (expired.map (·.nodeId)) (if serving = [] then [] else peering))
    (changed || expired != []))

def applyExpireHeartbeatLeases (expireAtMs : Nat) :
    Except ControlPlaneError AppliedControlPlaneCommand := do
  self.validateServingTimestamp expireAtMs
  let expired := (values self.nodes).filter (·.leaseExpired expireAtMs)
  let next := self.recordCommittedTimestamp expireAtMs
  let next := { next with nodes := next.nodes.map fun _ record =>
    if record.leaseExpired expireAtMs then record.expireLease else record }
  let next := expired.foldl (fun next record =>
    next.observeUnavailable record (record.leaseDeadlineMs.getD 0) expireAtMs) next
  finishExpiry self next expired (self.timestampAdvances expireAtMs)

/-- One entry of a targeted expiry: the lease has run out and is not shorter than the committed
one. -/
def validateExpiredLease (horizon : CommittedLeaseGrantHorizon)
    (expireAtMs : Nat) (lease : ExpiredNodeHeartbeatLease) : Except ControlPlaneError Unit := do
  let nodeId := lease.nodeId
  let deadline := lease.leaseDeadlineMs
  let bound := horizon.grantNotAfterMs
  failIf (deadline = 0 ∨ expireAtMs < deadline ∨ bound < deadline) (.commandDecode
    s!"targeted heartbeat expiry for node {nodeId} has invalid lease deadline {deadline} at expiry {expireAtMs} under horizon {bound}")
  let record ← okOr self.nodes[nodeId]? (.unknownNode nodeId)
  failIf (record.membership.hasLeft ∨ record.observedAvailability = .unavailable)
    (.commandDecode s!"targeted heartbeat expiry for node {nodeId} no longer applies")
  let current ← okOr record.leaseDeadlineMs (.commandDecode
    s!"targeted heartbeat expiry for node {nodeId} has no committed lease")
  failIf (deadline < current) (.nodeLeaseDeadlineRegression nodeId current deadline)

/-- Expire one listed node. -/
def ClusterControlSnapshot.expireNodeLease (expireAtMs : Nat)
    (lease : ExpiredNodeHeartbeatLease) : ClusterControlSnapshot :=
  match self.nodes[lease.nodeId]? with
  | none => self
  | some record => (self.modifyNode lease.nodeId (·.expireLease)).observeUnavailable record
      lease.leaseDeadlineMs expireAtMs

def applyExpireNodeHeartbeatLeases (authority : LeaseHorizonAuthorityBinding) (expireAtMs : Nat)
    (expired : List ExpiredNodeHeartbeatLease) :
    Except ControlPlaneError AppliedControlPlaneCommand := do
  failIf (expired = [])
    (.commandDecode "targeted heartbeat expiry requires at least one node")
  self.validateServingTimestamp expireAtMs
  let next ← self.establishHeartbeatLeaseHorizon (some authority) expireAtMs expireAtMs
  let horizon ← okOr next.leaseGrantHorizon (.snapshotInvariantViolation
    "targeted expiry" "targeted expiry establishes a committed lease horizon")
  forOrdered (·.nodeId) "targeted heartbeat expiry nodes are not strictly ordered"
    (validateExpiredLease self horizon expireAtMs) none expired
  let next := next.recordCommittedTimestamp expireAtMs
  let next := expired.foldl (·.expireNodeLease expireAtMs ·) next
  finishExpiry self next (expired.filterMap fun lease => self.nodes[lease.nodeId]?)
    (self.leaseGrantHorizon != some horizon || self.timestampAdvances expireAtMs)

/-! ### Bootstrap -/

/-- The nodes of a bootstrap are distinct and each has an endpoint. -/
def validateBootstrapNodesFrom (clusterEpoch : ClusterEpoch) :
    List (NodeId × String) → List NodeId → Except ControlPlaneError Unit
  | [], _ => pure ()
  | (nodeId, endpoint) :: rest, seen => do
    failIf (nodeId ∈ seen) (.duplicateActingSetNode 0 nodeId)
    failIf endpoint.isEmpty (.nodeEndpointMissing nodeId clusterEpoch)
    validateBootstrapNodesFrom clusterEpoch rest (nodeId :: seen)

def validateBootstrapActingSetFrom (nodes : List NodeId) (pgId : PgId) :
    List NodeId → List NodeId → Except ControlPlaneError Unit
  | [], _ => pure ()
  | nodeId :: rest, seen => do
    failIf (nodeId ∉ nodes) (.unknownActingSetNode pgId nodeId)
    failIf (nodeId ∈ seen) (.duplicateActingSetNode pgId nodeId)
    validateBootstrapActingSetFrom nodes pgId rest (nodeId :: seen)

def validateBootstrapPgsFrom (nodes : List NodeId) :
    List (PgId × List NodeId) → List PgId → Except ControlPlaneError Unit
  | [], _ => pure ()
  | (pgId, actingSet) :: rest, seen => do
    failIf (pgId ∈ seen) (.duplicateBootstrapPg pgId)
    failIf (actingSet = []) (.emptyActingSet pgId)
    validateBootstrapActingSetFrom nodes pgId actingSet []
    validateBootstrapPgsFrom nodes rest (pgId :: seen)

/-- A byte string with its length in front. -/
def digestBytes (bytes : List UInt8) : List UInt8 := beBytes 8 bytes.length ++ bytes

/-- The digest that a certificate carries of the bootstrap nodes and acting sets, in canonical
order. -/
def initialClusterBootstrapMapDigest (nodes : List (NodeId × String))
    (pgActingSets : List (PgId × List NodeId)) : List UInt8 :=
  let canonicalNodes := nodes.insertionSort fun a b => a.1 ≤ b.1
  let canonicalPgs := pgActingSets.insertionSort fun a b => a.1 ≤ b.1
  sha256 (digestBytes "argmin-control-plane-initial-bootstrap-map-v1".toUTF8.data.toList ++
    beBytes 8 canonicalNodes.length ++
    (canonicalNodes.flatMap fun (nodeId, endpoint) =>
      beBytes 4 nodeId ++ digestBytes endpoint.toUTF8.data.toList) ++
    beBytes 8 canonicalPgs.length ++
    canonicalPgs.flatMap fun (pgId, actingSet) =>
      beBytes 4 pgId ++ beBytes 8 actingSet.length ++ actingSet.flatMap (beBytes 4))

def validateBootstrapCertificate (nodes : List (NodeId × String))
    (pgActingSets : List (PgId × List NodeId)) (certificate : InitialClusterTopologyCertificate) :
    Except ControlPlaneError Unit := do
  failIf (certificate.bootstrapMapDigest ≠ initialClusterBootstrapMapDigest nodes pgActingSets)
    (.invalidInitialTopology
      "certified initial topology bootstrap-map digest does not match storage-node endpoints and PG acting sets")
  failIf (certificate.placementPolicy.nodes.map (·.nodeId) ≠
      (nodes.map (·.1)).insertionSort (· ≤ ·))
    (.invalidInitialTopology "certified storage domains do not match bootstrap nodes")
  pgActingSets.forM fun (pgId, actingSet) =>
    (certificate.placementPolicy.validateActingSet actingSet).mapError fun message =>
      .invalidInitialTopology s!"bootstrap PG {pgId} violates placement policy: {message}"

def applyBootstrapInitialClusterMap (nodes : List (NodeId × String))
    (pgActingSets : List (PgId × List NodeId))
    (initialTopology : Option InitialClusterTopologyCertificate) :
    Except ControlPlaneError AppliedControlPlaneCommand := do
  failIf (¬snapshot.nodes.isEmpty ∨ ¬snapshot.pgs.isEmpty) .bootstrapRequiresEmptyState
  failIf (nodes = []) (.emptyActingSet 0)
  validateBootstrapNodesFrom snapshot.clusterEpoch nodes []
  validateBootstrapPgsFrom (nodes.map (·.1)) pgActingSets []
  onSome initialTopology (validateBootstrapCertificate nodes pgActingSets)
  let next := { snapshot with
    initialTopology := initialTopology
    nodes := nodes.foldl (fun map (nodeId, endpoint) =>
      map.insert nodeId { NodeControlRecord.new nodeId .active with endpoint := endpoint })
      snapshot.nodes
    pgs := pgActingSets.foldl (fun map (pgId, actingSet) =>
      map.insert pgId (.new pgId actingSet)) snapshot.pgs }
  let next ← next.bumpEpoch
  pure (appliedControlPlaneCommand snapshot next .bootstrapInitialClusterMap true)

end Argmin.ControlPlane
