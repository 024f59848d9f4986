import Argmin.ControlPlane.StateMachine

/-!
# The lease view of a snapshot

What a lease argument may depend on: for each node its process identity, availability and lease,
for each PG its state, its primary and the recorded lease of its last primary, and the clock and
the grant horizon of the authority.  Metadata proofs, observations, history and placement
transitions are left out.

* `ClusterControlSnapshot.view` — the view of a snapshot.
* `LeaseView.after` — what an accepted command that changes the snapshot does to its view.

The result of a command has a view that depends on the view and the command only
(`view_apply` in `LeaseRefinement`).
-/

namespace Argmin.ControlPlane

open Fallible TreeMap

/-! ### Views -/

@[ext]
structure NodeView where
  nodeId : NodeId
  membership : NodeMembershipState
  administrativelyAvailable : Bool
  observedAvailability : NodeAvailabilityState
  nodeIncarnation : Nat
  endpoint : String
  lastObservedEpoch : Option ClusterEpoch
  leaseDeadlineMs : Option Nat

@[ext]
structure PgView where
  pgId : PgId
  state : PgState
  actingSet : List NodeId
  activePrimary : Option NodeId
  previousPrimaryLease : Option PreviousPrimaryLease

@[ext]
structure LeaseView where
  clusterEpoch : ClusterEpoch
  maxCommittedTimestampMs : Option Nat
  leaseGrantHorizon : Option CommittedLeaseGrantHorizon
  nodes : NodeId → Option NodeView
  pgs : PgId → Option PgView

@[simps]
def NodeControlRecord.view (record : NodeControlRecord) : NodeView where
  nodeId := record.nodeId
  membership := record.membership
  administrativelyAvailable := record.administrativelyAvailable
  observedAvailability := record.observedAvailability
  nodeIncarnation := record.nodeIncarnation
  endpoint := record.endpoint
  lastObservedEpoch := record.lastObservedEpoch
  leaseDeadlineMs := record.leaseDeadlineMs

@[simps]
def PgControlRecord.view (record : PgControlRecord) : PgView where
  pgId := record.pgId
  state := record.state
  actingSet := record.actingSet
  activePrimary := if record.state = .active then record.activePrimary else none
  previousPrimaryLease := record.previousPrimaryLease

def ClusterControlSnapshot.view (snapshot : ClusterControlSnapshot) : LeaseView where
  clusterEpoch := snapshot.clusterEpoch
  maxCommittedTimestampMs := snapshot.maxCommittedTimestampMs
  leaseGrantHorizon := snapshot.leaseGrantHorizon
  nodes nodeId := snapshot.nodes[nodeId]?.map NodeControlRecord.view
  pgs pgId := snapshot.pgs[pgId]?.map PgControlRecord.view

/-! ### Node and PG changes -/

namespace NodeView

def setMembership (membership : NodeMembershipState) (node : NodeView) : NodeView :=
  if membership.hasLeft then
    { node with
      membership := membership
      administrativelyAvailable := false
      observedAvailability := .unavailable
      leaseDeadlineMs := none }
  else if node.membership.hasLeft then
    { node with
      membership := membership
      administrativelyAvailable := true
      observedAvailability := .suspect }
  else { node with membership := membership }

def markAvailability (availability : NodeAvailabilityState) (node : NodeView) : NodeView :=
  { node with
    administrativelyAvailable := availability != .unavailable
    observedAvailability := availability
    leaseDeadlineMs := if availability = .healthy then node.leaseDeadlineMs else none }

/-- The heartbeat comes from a newer incarnation or another endpoint. -/
def processChanges (node : NodeView) (heartbeat : NodeHeartbeat) : Bool :=
  decide (node.nodeIncarnation < heartbeat.nodeIncarnation) || node.endpoint != heartbeat.endpoint

def renewLease (heartbeat : NodeHeartbeat) (leaseDeadlineMs : Nat) (node : NodeView) : NodeView :=
  { node with
    nodeIncarnation := max node.nodeIncarnation heartbeat.nodeIncarnation
    endpoint := heartbeat.endpoint
    lastObservedEpoch := some (match node.lastObservedEpoch with
      | none => heartbeat.observedEpoch
      | some previous => max previous heartbeat.observedEpoch)
    leaseDeadlineMs := some leaseDeadlineMs }

def setHealthy (node : NodeView) : NodeView := { node with observedAvailability := .healthy }

def leaseExpired (expireAtMs : Nat) (node : NodeView) : Bool :=
  !node.membership.hasLeft && node.observedAvailability != .unavailable &&
    node.leaseDeadlineMs.any (· ≤ expireAtMs)

def expireLease (node : NodeView) : NodeView :=
  { node with observedAvailability := .unavailable, leaseDeadlineMs := none }

def setLease (leaseDeadlineMs : Nat) (node : NodeView) : NodeView :=
  { node with leaseDeadlineMs := some leaseDeadlineMs }

end NodeView

namespace PgView

/-- Leave the Active state under a recorded lease. -/
def leave (state : PgState) (lease : Option PreviousPrimaryLease) (pg : PgView) : PgView :=
  { pg with state := state, activePrimary := none, previousPrimaryLease := lease }

/-- Become Active under `primary`; an Active PG stays as it is. -/
def activate (primary : NodeId) (pg : PgView) : PgView :=
  if pg.state = .active then pg
  else { pg with state := .active, activePrimary := some primary, previousPrimaryLease := none }

end PgView

/-! ### Changes of a view -/

namespace LeaseView

variable (v : LeaseView)

def modifyNode (nodeId : NodeId) (f : NodeView → NodeView) : LeaseView :=
  { v with nodes := fun k => if nodeId = k then (v.nodes k).map f else v.nodes k }

def setNode (nodeId : NodeId) (node : NodeView) : LeaseView :=
  { v with nodes := fun k => if nodeId = k then some node else v.nodes k }

def modifyPg (pgId : PgId) (f : PgView → PgView) : LeaseView :=
  { v with pgs := fun k => if pgId = k then (v.pgs k).map f else v.pgs k }

def setPg (pgId : PgId) (pg : PgView) : LeaseView :=
  { v with pgs := fun k => if pgId = k then some pg else v.pgs k }

def bumpEpoch : LeaseView := { v with clusterEpoch := v.clusterEpoch + 1 }

def recordTimestamp (timestampMs : Nat) : LeaseView :=
  { v with maxCommittedTimestampMs := some (match v.maxCommittedTimestampMs with
      | some maxCommitted => max maxCommitted timestampMs
      | none => timestampMs) }

/-- Bind or extend the grant horizon. -/
def establish (v : LeaseView) (authority : LeaseHorizonAuthorityBinding)
    (nowMs durationMs : Nat) : LeaseView :=
  { v with leaseGrantHorizon := (CommittedLeaseGrantHorizon.establish v.leaseGrantHorizon
      authority nowMs durationMs controlPlaneClockSkewBudgetMs).toOption }

/-- Establish a horizon that covers a lease, unless the current one does. -/
def coverLease (authority : Option LeaseHorizonAuthorityBinding)
    (nowMs leaseDeadlineMs : Nat) : LeaseView :=
  match authority with
  | none => v
  | some authority =>
    if v.leaseGrantHorizon.any fun horizon =>
        horizon.authority == authority && decide (leaseDeadlineMs ≤ horizon.grantNotAfterMs)
    then v
    else v.establish authority nowMs controlPlaneLeaseGrantHorizonDurationMs

/-- Identity and lease of the primary of an Active PG. -/
def activePrimaryLease (pg : PgView) : Option PreviousPrimaryLease := do
  let nodeId ← if pg.state = .active then pg.activePrimary else none
  let node ← v.nodes nodeId
  let leaseDeadlineMs ← node.leaseDeadlineMs
  pure ⟨nodeId, node.nodeIncarnation, node.endpoint, leaseDeadlineMs, true⟩

/-- The lease that fences a PG once it leaves the Active state. -/
def fencingLease (pg : PgView) : Option PreviousPrimaryLease :=
  (v.activePrimaryLease pg).or pg.previousPrimaryLease

variable (v previous : LeaseView)

open Classical in
/-- Take the affected PGs to Peering, fenced by the leases of the view `previous`. -/
noncomputable def markPeering (affected : PgId → PgView → Prop) : LeaseView :=
  { v with pgs := fun pgId => (v.pgs pgId).map fun pg =>
      if pg.state ≠ .peering ∧ affected pgId pg then
        pg.leave .peering (((previous.pgs pgId).bind previous.activePrimaryLease).or
          pg.previousPrimaryLease)
      else pg }

/-- Some node of `S` acts for the PG. -/
def ActsOn (S : NodeId → Prop) (_ : PgId) (pg : PgView) : Prop := ∃ n ∈ pg.actingSet, S n

/-- A PG as it leaves the Active state: fenced by its lease, under a new state and acting set.
`deadline` may extend the recorded lease. -/
def leftPg (state : PgState) (actingSet : List NodeId → List NodeId)
    (deadline : PgView → Option Nat) (pg : PgView) : PgView where
  pgId := pg.pgId
  state := state
  actingSet := actingSet pg.actingSet
  activePrimary := none
  previousPrimaryLease := (v.fencingLease pg).map fun previous =>
    { previous with
      leaseDeadlineMs := (deadline pg).getD previous.leaseDeadlineMs
      preferReactivation := false }

def leavePg (pgId : PgId) (state : PgState)
    (actingSet : List NodeId → List NodeId) (deadline : PgView → Option Nat) : LeaseView :=
  (v.modifyPg pgId (v.leftPg state actingSet deadline)).bumpEpoch

open Classical in
/-- Complete the peering of the listed PGs.  The epoch advances when one of them was not yet
Active. -/
noncomputable def complete (atMs : Nat) (completions : List (PgId × NodeId)) : LeaseView :=
  let next := completions.foldl (fun next completion =>
    next.modifyPg completion.1 (PgView.activate completion.2)) (v.recordTimestamp atMs)
  if ∃ completion ∈ completions, ∃ pg, v.pgs completion.1 = some pg ∧ pg.state ≠ .active then
    next.bumpEpoch
  else next

/-! ### The effect of a command -/

open Classical in
/-- The fences of a heartbeat: the PGs with pending commands, and those of the node when
`fenceNode` holds. -/
noncomputable def fenceAfterHeartbeat (nodeId : NodeId)
    (pending : PgId → Prop) (fenceNode epochChanged : Prop) : LeaseView :=
  let marked := v.markPeering previous fun pgId _ => pending pgId
  if epochChanged then
    (if fenceNode then marked.markPeering previous (ActsOn (· = nodeId)) else marked).bumpEpoch
  else marked

/-- The heartbeat reports a pending command of the PG. -/
def ReportsPending (heartbeat : NodeHeartbeat) (pgId : PgId) : Prop :=
  ∃ observation ∈ heartbeat.pgObservations,
    observation.pendingMetadataCommand.isSome ∧ observation.pgId = pgId

/-- The heartbeat reports a command of an earlier epoch as pending on an Active PG. -/
def ReportsPendingActive (heartbeat : NodeHeartbeat) (pgId : PgId) : Prop :=
  ∃ observation ∈ heartbeat.pgObservations,
    ((v.pgs observation.pgId).any (·.state == .active) ∧
      observation.pendingMetadataCommand.any (·.clusterEpoch < v.clusterEpoch)) ∧
      observation.pgId = pgId

open Classical in
/-- A heartbeat.  A new process fences the PGs of its node, a node that becomes healthy again
does too, and evidence of a pending command fences its PG. -/
noncomputable def heartbeat (v : LeaseView) (heartbeat : NodeHeartbeat)
    (heartbeatAtMs leaseDeadlineMs : Nat) (authority : Option LeaseHorizonAuthorityBinding) :
    LeaseView :=
  match v.nodes heartbeat.nodeId with
  | none => v
  | some node =>
    let covered := (v.coverLease authority heartbeatAtMs leaseDeadlineMs).recordTimestamp
      heartbeatAtMs
    let renew := NodeView.renewLease heartbeat leaseDeadlineMs
    if heartbeat.observedEpoch ≠ v.clusterEpoch then
      (covered.modifyNode heartbeat.nodeId renew).fenceAfterHeartbeat v heartbeat.nodeId
        (ReportsPending heartbeat) (node.processChanges heartbeat)
        (node.processChanges heartbeat ∨
          ∃ pgId pg, v.pgs pgId = some pg ∧ pg.state ≠ .peering ∧ ReportsPending heartbeat pgId)
    else
      let affected := node.processChanges heartbeat ∨
        node.observedAvailability ≠ .healthy ∧ node.administrativelyAvailable
      (covered.modifyNode heartbeat.nodeId fun node => (renew node).setHealthy).fenceAfterHeartbeat
        v heartbeat.nodeId (v.ReportsPendingActive heartbeat) affected
        (affected ∨ ∃ pgId, v.ReportsPendingActive heartbeat pgId)

open Classical in
/-- The end of an expiry: the PGs of the serving nodes among the expired ones are fenced. -/
noncomputable def finishExpiry (serving : NodeId → Prop) : LeaseView :=
  if ∃ nodeId, serving nodeId then (v.markPeering previous (ActsOn serving)).bumpEpoch else v

def bootstrap (nodes : List (NodeId × String))
    (pgActingSets : List (PgId × List NodeId)) : LeaseView :=
  let withNodes := nodes.foldl (fun next node => next.setNode node.1
    { NodeControlRecord.new node.1 .active with endpoint := node.2 }.view) v
  (pgActingSets.foldl (fun next pg => next.setPg pg.1 (PgControlRecord.new pg.1 pg.2).view)
    withNodes).bumpEpoch

/-- The view after an accepted command that changed the snapshot. -/
noncomputable def after : ControlPlaneCommand → LeaseView
  | .bootstrapInitialClusterMap nodes pgIds =>
    v.bootstrap nodes (pgIds.map (·, nodes.map (·.1)))
  | .bootstrapCertifiedInitialClusterMap nodes pgActingSets _ => v.bootstrap nodes pgActingSets
  | .setNodeMembership nodeId membership =>
    if (v.nodes nodeId).isSome then
      ((v.modifyNode nodeId (NodeView.setMembership membership)).markPeering v
        (ActsOn (· = nodeId))).bumpEpoch
    else (v.setNode nodeId (NodeControlRecord.new nodeId membership).view).bumpEpoch
  | .markNodeAvailability nodeId availability =>
    let marked := v.modifyNode nodeId (NodeView.markAvailability availability)
    (if availability = .healthy then marked
      else marked.markPeering v (ActsOn (· = nodeId))).bumpEpoch
  | .recordNodeHeartbeat heartbeat heartbeatAtMs leaseDeadlineMs authority =>
    v.heartbeat heartbeat heartbeatAtMs leaseDeadlineMs authority
  | .expireHeartbeatLeases expireAtMs =>
    finishExpiry { v.recordTimestamp expireAtMs with
        nodes := fun nodeId => (v.nodes nodeId).map fun node =>
          if node.leaseExpired expireAtMs then node.expireLease else node }
      v fun nodeId => ∃ node, v.nodes nodeId = some node ∧ node.leaseExpired expireAtMs ∧
        node.administrativelyAvailable
  | .expireNodeHeartbeatLeases authority expireAtMs expired =>
    finishExpiry (expired.foldl (fun next lease => next.modifyNode lease.nodeId
        NodeView.expireLease)
      ((v.coverLease (some authority) expireAtMs expireAtMs).recordTimestamp expireAtMs))
      v fun nodeId => (∃ lease ∈ expired, lease.nodeId = nodeId) ∧
        ∃ node, v.nodes nodeId = some node ∧ node.administrativelyAvailable
  | .promoteNodeHeartbeatLeases _ promoted =>
    promoted.foldl (fun next lease => next.modifyNode lease.nodeId
      (NodeView.setLease lease.leaseDeadlineMs)) v
  | .beginUnavailablePgPlacementTransition body =>
    (v.recordTimestamp body.beginAtMs).leavePg body.pgId .peering (fun _ =>
      unavailableTransitionSourceRouteActingSet body.sourceActingSet body.sourceNodeId)
      fun _ => none
  | .completeUnavailablePgPlacementTransition body =>
    v.complete body.readyAtMs [(body.pgId, body.completion.primary)]
  | .establishLeaseGrantHorizon authority authorityNowMs horizonDurationMs =>
    (v.establish authority authorityNowMs horizonDurationMs).recordTimestamp authorityNowMs
  | .setPgActingSet pgId actingSet =>
    if (v.pgs pgId).isSome then v.leavePg pgId .peering (fun _ => actingSet) fun _ => none
    else (v.setPg pgId (PgControlRecord.new pgId actingSet).view).bumpEpoch
  | .setPgActingSetWithMetadataTransfer pgId actingSet _ _ _ =>
    v.leavePg pgId .peering (fun _ => actingSet) fun _ => none
  | .fencePgForMetadataTransfer pgId committed _ _ =>
    v.leavePg pgId .peering id fun pg => if pg.state = .active then committed else none
  | .setPgState pgId state => v.leavePg pgId state id fun _ => none
  | .completePgPeering pgId primary _ completeAtMs => v.complete completeAtMs [(pgId, primary)]
  | .completeReadyPgPeerings readyAtMs ready =>
    v.complete readyAtMs (ready.map fun completion => (completion.pgId, completion.primary))

end LeaseView

end Argmin.ControlPlane
