import Argmin.ControlPlane.StateMachine

/-!
# The serving authority

`SingleAuthorityControlPlane` serves heartbeats from memory: a heartbeat that only renews a
lease within the committed grant horizon changes the *live* snapshot and not the *durable* one.
Every other command first promotes the live leases into the durable snapshot and is then applied
to both.  A restart continues from the durable snapshot, with every Active PG fenced into
Peering.
-/

namespace Argmin.ControlPlane

open Fallible TreeMap

/-! ### Volatile heartbeats -/

/-- The heartbeat changed only what a lost live snapshot may forget: the lease, its time, the scan
generation while no reference is retiring, and observation details. -/
def NodeControlRecord.volatileUpdate (current updated : NodeControlRecord) : Bool :=
  current.nodeId == updated.nodeId && current.membership == updated.membership &&
    current.administrativelyAvailable == updated.administrativelyAvailable &&
    current.observedAvailability == updated.observedAvailability &&
    current.nodeIncarnation == updated.nodeIncarnation &&
    current.endpoint == updated.endpoint &&
    current.lastObservedEpoch == updated.lastObservedEpoch &&
    current.clusterMapHistoryRouteReferences == updated.clusterMapHistoryRouteReferences &&
    current.retiringClusterMapHistoryRouteReferences ==
      updated.retiringClusterMapHistoryRouteReferences &&
    (current.clusterMapHistoryRouteScanGeneration ==
        updated.clusterMapHistoryRouteScanGeneration ||
      current.retiringClusterMapHistoryRouteReferences.isEmpty &&
        updated.retiringClusterMapHistoryRouteReferences.isEmpty) &&
    current.pgObservationStateMatches updated

def heartbeatUpdateIsVolatile (self next : ClusterControlSnapshot) (heartbeatNodeId : NodeId) :
    Bool :=
  self.authorityIncarnation == next.authorityIncarnation &&
    self.clusterEpoch == next.clusterEpoch &&
    self.leaseGrantHorizon == next.leaseGrantHorizon && self.pgs == next.pgs &&
    self.history == next.history && self.nodes.size == next.nodes.size &&
    self.nodes.toList.all fun (nodeId, current) =>
      match next.nodes[nodeId]? with
      | none => false
      | some updated =>
        if nodeId ≠ heartbeatNodeId then current == updated else current.volatileUpdate updated

/-- Keep the observation times that the durable snapshot also has. -/
def NodeControlRecord.keepObservationTimes (record previous : NodeControlRecord) :
    NodeControlRecord :=
  { record with pgObservations := record.pgObservations.map fun pgId observation =>
      { observation with
        observedAtMs := (previous.pgObservations[pgId]?.map (·.observedAtMs)).getD
          observation.observedAtMs } }

variable (self : ClusterControlSnapshot)

/-- Whether a heartbeat may be served from memory: the committed horizon covers its lease and
the node is a healthy, leased one. -/
def ClusterControlSnapshot.coversVolatileHeartbeat (nodeId : NodeId) (leaseDeadlineMs : Nat)
    (authority : LeaseHorizonAuthorityBinding) : Bool :=
  self.leaseGrantHorizonCovers authority leaseDeadlineMs &&
    self.nodes[nodeId]?.any fun node =>
      node.administrativelyAvailable && node.observedAvailability == .healthy &&
        node.leaseDeadlineMs.isSome

def applyCoveredVolatileHeartbeat (command : ControlPlaneCommand) :
    Except ControlPlaneError (Option ClusterControlSnapshot) :=
  match command with
  | .recordNodeHeartbeat heartbeat heartbeatAtMs leaseDeadlineMs (some authority) =>
    if self.coversVolatileHeartbeat heartbeat.nodeId leaseDeadlineMs authority then do
      let applied ← applyControlPlaneCommand self
        (.recordNodeHeartbeat heartbeat heartbeatAtMs leaseDeadlineMs (some authority))
      if heartbeatUpdateIsVolatile self applied.snapshot heartbeat.nodeId then do
        let next := { applied.snapshot with
          maxCommittedTimestampMs := self.maxCommittedTimestampMs }
        let next := next.modifyNode heartbeat.nodeId fun record =>
          match self.nodes[heartbeat.nodeId]? with
          | none => record
          | some previous => record.keepObservationTimes previous
        validateControlPlaneSnapshot "attempted to publish invalid volatile heartbeat state" next
        pure (some next)
      else pure none
    else pure none
  | _ => pure none

/-! ### Promotion of live leases -/

/-- Compare one node of the durable and the live snapshot: the lease to promote, if any. -/
def promotedLease (live : ClusterControlSnapshot) (nodeId : NodeId)
    (durableNode : NodeControlRecord) :
    Except ControlPlaneError (Option PromotedNodeHeartbeatLease) := do
  let context := "volatile heartbeat lease promotion"
  let liveNode ← okOr live.nodes[nodeId]? (.snapshotInvariantViolation context
    s!"live snapshot is missing durable node {nodeId}")
  failIf (liveNode.nodeIncarnation ≠ durableNode.nodeIncarnation ∨
      liveNode.endpoint ≠ durableNode.endpoint)
    (.snapshotInvariantViolation context
      s!"live node {nodeId} identity differs from durable state")
  match durableNode.leaseDeadlineMs, liveNode.leaseDeadlineMs with
  | some durableDeadline, some liveDeadline =>
    if durableDeadline < liveDeadline then
      pure (some ⟨nodeId, liveNode.nodeIncarnation, liveDeadline⟩)
    else if liveDeadline < durableDeadline then
      .error (.nodeLeaseDeadlineRegression nodeId durableDeadline liveDeadline)
    else pure none
  | none, some liveDeadline => .error (.snapshotInvariantViolation context
      s!"live node {nodeId} has lease deadline {liveDeadline} without a durable base lease")
  | some _, none => .error (.snapshotInvariantViolation context
      s!"live node {nodeId} dropped its durable lease outside a replicated command")
  | none, none => pure none

def promoteVolatileHeartbeatLeasesCommand (self durable : ClusterControlSnapshot) :
    Except ControlPlaneError (Option ControlPlaneCommand) := do
  let context := "volatile heartbeat lease promotion"
  failIf (self.leaseGrantHorizon ≠ durable.leaseGrantHorizon ∨
      self.nodes.size ≠ durable.nodes.size)
    (.snapshotInvariantViolation context
      "live and durable snapshots do not share the same lease horizon and node set")
  let leases ← durable.nodes.toList.mapM fun (nodeId, node) => promotedLease self nodeId node
  let promoted := leases.filterMap id
  if promoted = [] then pure none
  else do
    let horizon ← okOr self.leaseGrantHorizon (.snapshotInvariantViolation context
      "live lease advances have no committed lease horizon")
    pure (some (.promoteNodeHeartbeatLeases horizon.authority promoted))

/-! ### Binding a transfer fence to the live lease -/

def fenceSourceDeadline (snapshot : ClusterControlSnapshot) (command : ControlPlaneCommand) :
    Except ControlPlaneError (Option Nat) := do
  let applied ← applyControlPlaneCommand snapshot command
  match applied.response with
  | .fencePgForMetadataTransfer deadline => pure deadline
  | _ => pure none

def bindMetadataTransferFenceCommand (self durable : ClusterControlSnapshot)
    (command : ControlPlaneCommand) : Except ControlPlaneError ControlPlaneCommand :=
  match command with
  | .fencePgForMetadataTransfer pgId _ _ transition => do
    let context := "metadata transfer fence volatile lease binding"
    let fenceCommand := .fencePgForMetadataTransfer pgId none none transition
    let liveDeadline ← fenceSourceDeadline self fenceCommand
    let durableDeadline ← fenceSourceDeadline durable fenceCommand
    if liveDeadline = durableDeadline then pure fenceCommand
    else
      match liveDeadline, durableDeadline with
      | some liveDeadline, some durableDeadline => do
        failIf (liveDeadline < durableDeadline) (.snapshotInvariantViolation context
          s!"live source lease deadline {liveDeadline} regresses durable deadline {durableDeadline} for PG {pgId}")
        let horizon ← okOr self.leaseGrantHorizon (.snapshotInvariantViolation context
          s!"live source lease deadline {liveDeadline} has no lease-horizon authority for PG {pgId}")
        pure (.fencePgForMetadataTransfer pgId (some liveDeadline) (some horizon.authority)
          transition)
      | _, _ => .error (.snapshotInvariantViolation context
          s!"live and durable source lease deadlines are incompatible for PG {pgId}")
  | command => pure command

/-! ### The authority -/

structure SingleAuthorityControlPlane where
  snapshot : ClusterControlSnapshot
  durableSnapshot : ClusterControlSnapshot
deriving DecidableEq

namespace SingleAuthorityControlPlane

variable (self : SingleAuthorityControlPlane)

/-- Install the results of one command in both snapshots, unless the durable one is unchanged. -/
def commitRebasedCommand (liveApplied durableApplied : AppliedControlPlaneCommand) :
    SingleAuthorityControlPlane :=
  if durableApplied.changed then ⟨liveApplied.snapshot, durableApplied.snapshot⟩ else self

def promoteVolatileHeartbeatLeasesIfNeeded :
    Except ControlPlaneError SingleAuthorityControlPlane := do
  let command ← promoteVolatileHeartbeatLeasesCommand self.snapshot self.durableSnapshot
  match command with
  | none => pure self
  | some command => do
    let liveApplied ← applyControlPlaneCommand self.snapshot command
    let durableApplied ← applyControlPlaneCommand self.durableSnapshot command
    pure (self.commitRebasedCommand liveApplied durableApplied)

/-- Apply a command to both snapshots; their outcomes must agree. -/
def rebaseCommand (command : ControlPlaneCommand) :
    Except ControlPlaneError SingleAuthorityControlPlane := do
  let command ← bindMetadataTransferFenceCommand self.snapshot self.durableSnapshot command
  let liveApplied ← applyControlPlaneCommand self.snapshot command
  let durableApplied ← applyControlPlaneCommand self.durableSnapshot command
  failIf (liveApplied.changed ≠ durableApplied.changed) (.snapshotInvariantViolation
    "single-authority volatile heartbeat command rebase"
    "command mutation outcome differs between live and durable state")
  pure (self.commitRebasedCommand liveApplied durableApplied)

/-- Apply a heartbeat that is not volatile.  The durable snapshot is only touched when the live
one changes. -/
def rebaseHeartbeat (command : ControlPlaneCommand) :
    Except ControlPlaneError SingleAuthorityControlPlane := do
  let applied ← applyControlPlaneCommand self.snapshot command
  if applied.changed then do
    let durableApplied ← applyControlPlaneCommand self.durableSnapshot command
    pure (self.commitRebasedCommand applied durableApplied)
  else pure self

/-- Promote the live leases and then run `step`.  A promotion stays when `step` fails. -/
def afterPromotion (step : SingleAuthorityControlPlane →
      Except ControlPlaneError SingleAuthorityControlPlane) :
    SingleAuthorityControlPlane × Option ControlPlaneError :=
  match self.promoteVolatileHeartbeatLeasesIfNeeded with
  | .error e => (self, some e)
  | .ok promoted =>
    match step promoted with
    | .error e => (promoted, some e)
    | .ok next => (next, none)

/-- The state after a command, and the error when it was refused. -/
def applyAndCommitCommand (command : ControlPlaneCommand) :
    SingleAuthorityControlPlane × Option ControlPlaneError :=
  self.afterPromotion (·.rebaseCommand command)

/-- The state after a heartbeat command, and the error when it was refused. -/
def applyHeartbeatCommand (command : ControlPlaneCommand) :
    SingleAuthorityControlPlane × Option ControlPlaneError :=
  match applyCoveredVolatileHeartbeat self.snapshot command with
  | .error e => (self, some e)
  | .ok (some next) => ({ self with snapshot := next }, none)
  | .ok none => self.afterPromotion (·.rebaseHeartbeat command)

end SingleAuthorityControlPlane

/-! ### Restart -/

/-- An Active PG is fenced with the lease of its primary; its accepted proof becomes the floor. -/
def PgControlRecord.fenceForRestart (record : PgControlRecord) (snapshot : ClusterControlSnapshot) :
    PgControlRecord :=
  if record.state = .active then
    { record.resetToPeering (activePrimaryLease snapshot record) with
      peeringMetadataProofFloor := record.activeMetadataProof
      peeringMetadataProofFloorEpoch := record.activeMetadataProofEpoch
      peeringMetadataProofFloorImported := record.activeMetadataTransferImported }
  else record

/-- Continue from a durable snapshot under the next authority incarnation: every Active PG is
fenced with the durable lease of its primary. -/
def bumpAuthorityAfterRestart : Except ControlPlaneError ClusterControlSnapshot := do
  let incarnation ← okOr (checkedAdd self.authorityIncarnation 1) .authorityIncarnationOverflow
  let epoch ← nextEpoch self.clusterEpoch
  pure { self with
    authorityIncarnation := incarnation
    clusterEpoch := epoch
    nodes := self.nodes.map fun _ record => { record with pgObservations := ∅ }
    pgs := self.pgs.map fun _ record => record.fenceForRestart self }

/-- Reopen an authority from its durable snapshot. -/
def SingleAuthorityControlPlane.reopen (loaded : ClusterControlSnapshot) :
    Except ControlPlaneError SingleAuthorityControlPlane := do
  let bumped ← bumpAuthorityAfterRestart loaded
  let snapshot := bumped.recordHistoryFrom loaded
  validateControlPlaneSnapshot "attempted to open invalid control-plane snapshot" snapshot
  pure ⟨snapshot, snapshot⟩

end Argmin.ControlPlane
