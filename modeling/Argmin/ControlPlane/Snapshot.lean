import Argmin.ControlPlane.Peering

/-!
# Operations on a snapshot

The building blocks of the commands: advancing the epoch, recording a committed time, covering
a lease by the grant horizon, moving a placement transition to the retained ones, and taking
PGs out of the Active state.
-/

namespace Argmin.ControlPlane

open Fallible TreeMap

namespace ClusterControlSnapshot

variable (self : ClusterControlSnapshot)

def modifyNode (nodeId : NodeId)
    (f : NodeControlRecord → NodeControlRecord) : ClusterControlSnapshot :=
  { self with nodes := self.nodes.modify nodeId f }

def modifyPg (pgId : PgId) (f : PgControlRecord → PgControlRecord) : ClusterControlSnapshot :=
  { self with pgs := self.pgs.modify pgId f }

def removeUnavailableNodeObservation (nodeId : NodeId) : ClusterControlSnapshot :=
  { self with unavailableNodeObservations := self.unavailableNodeObservations.erase nodeId }

/-- Advance the cluster epoch.  Observations of the previous epoch are dropped. -/
def bumpEpoch : Except ControlPlaneError ClusterControlSnapshot := do
  let epoch ← nextEpoch self.clusterEpoch
  pure { self with
    clusterEpoch := epoch
    nodes := self.nodes.map fun _ record => { record with pgObservations := ∅ } }

def recordCommittedTimestamp (timestampMs : Nat) : ClusterControlSnapshot :=
  { self with maxCommittedTimestampMs := some (match self.maxCommittedTimestampMs with
      | some maxCommitted => max maxCommitted timestampMs
      | none => timestampMs) }

/-- Whether recording `timestampMs` raises the committed high-water mark. -/
def timestampAdvances (timestampMs : Nat) : Bool :=
  (self.recordCommittedTimestamp timestampMs).maxCommittedTimestampMs !=
    self.maxCommittedTimestampMs

def validateServingTimestamp (timestampMs : Nat) : Except ControlPlaneError Unit :=
  onSome self.maxCommittedTimestampMs fun maxCommittedTimestampMs =>
    failIf (timestampMs < maxCommittedTimestampMs)
      (.committedTimestampRegression timestampMs maxCommittedTimestampMs)

def heartbeatLeaseDeadline (nodeId : NodeId)
    (heartbeatAtMs requestedLeaseDurationMs : Nat) : Except ControlPlaneError Nat := do
  self.validateServingTimestamp heartbeatAtMs
  let node ← okOr self.nodes[nodeId]? (.unknownNode nodeId)
  (boundedRenewalDeadline node.leaseDeadlineMs heartbeatAtMs requestedLeaseDurationMs
    maxHeartbeatLeaseMs controlPlaneClockSkewBudgetMs).mapError controlPlaneLeaseClockError

/-- Bind the grant horizon to `authority` far enough to cover a lease, when an authority is
given. -/
def establishHeartbeatLeaseHorizon (authority : Option LeaseHorizonAuthorityBinding)
    (heartbeatAtMs leaseDeadlineMs : Nat) :
    Except ControlPlaneError ClusterControlSnapshot :=
  match authority with
  | none => pure self
  | some authority =>
    if self.leaseGrantHorizonCovers authority leaseDeadlineMs then pure self
    else do
      let horizon ← (CommittedLeaseGrantHorizon.establish self.leaseGrantHorizon authority
        heartbeatAtMs controlPlaneLeaseGrantHorizonDurationMs
        controlPlaneClockSkewBudgetMs).mapError controlPlaneLeaseHorizonError
      let next := { self with leaseGrantHorizon := some horizon }
      failIf (¬next.leaseGrantHorizonCovers authority leaseDeadlineMs)
        (.snapshotInvariantViolation
          "committed heartbeat lease horizon does not cover its lease"
          s!"lease deadline {leaseDeadlineMs} is outside the committed horizon")
      pure next

/-- Keep the active placement transition of a PG among the retained ones. -/
def retireTransition (pgId : PgId) : ClusterControlSnapshot :=
  match self.unavailablePgPlacementTransitions[pgId]? with
  | none => self
  | some transition =>
    { self with
      unavailablePgPlacementTransitions := self.unavailablePgPlacementTransitions.erase pgId
      retainedUnavailablePgPlacementTransitions :=
        self.retainedUnavailablePgPlacementTransitions.insert
          (pgId, transition.transitionEpoch) transition }

end ClusterControlSnapshot

/-! ### Leaving the Active state -/

variable (snapshot : ClusterControlSnapshot)

/-- The lease that fences a PG from now on: that of its Active primary, else the recorded one. -/
def fencingLease (record : PgControlRecord) : Option PreviousPrimaryLease :=
  (activePrimaryLease snapshot record).or record.previousPrimaryLease

/-- `fencingLease`, without the preference for the old primary. -/
def fencingLeaseWithoutPreference (record : PgControlRecord) : Option PreviousPrimaryLease :=
  (fencingLease snapshot record).map PreviousPrimaryLease.withoutReactivationPreference

/-- Take a PG that is not peering to Peering.  The lease is that of the primary in `previous`;
the accepted proof of an Active PG becomes the floor. -/
def PgControlRecord.markPeering (record : PgControlRecord) (previous : ClusterControlSnapshot) :
    PgControlRecord :=
  { record.resetToPeering
      ((previous.pgs[record.pgId]?.bind (activePrimaryLease previous)).or
        record.previousPrimaryLease) with
    peeringMetadataProofFloor :=
      if record.state = .active then record.activeMetadataProof else none
    peeringMetadataProofFloorEpoch :=
      if record.state = .active then record.activeMetadataProofEpoch else none
    peeringMetadataProofFloorImported :=
      record.state == .active && record.activeMetadataTransferImported }

def newlyPeering (pgIds : List PgId) : List PgId :=
  ((values snapshot.pgs).filter fun record =>
    record.state != .peering && decide (record.pgId ∈ pgIds)).map (·.pgId)

def markPgsPeeringForPgIds (snapshot previous : ClusterControlSnapshot) (pgIds : List PgId) :
    ClusterControlSnapshot :=
  { snapshot with pgs := snapshot.pgs.map fun _ record =>
      if record.state ≠ .peering ∧ record.pgId ∈ pgIds then record.markPeering previous
      else record }

/-- The PGs with one of `nodes` in their acting set. -/
def pgsActingOn (nodes : List NodeId) : List PgId :=
  ((values snapshot.pgs).filter fun record => record.actingSet.any (· ∈ nodes)).map (·.pgId)

def markPgsPeeringForNodes (snapshot previous : ClusterControlSnapshot) (nodes : List NodeId) :
    ClusterControlSnapshot :=
  markPgsPeeringForPgIds snapshot previous (pgsActingOn snapshot nodes)

/-! ### The result of a command -/

def appliedControlPlaneCommand (previous next : ClusterControlSnapshot)
    (response : ControlPlaneCommandResponse) (changed : Bool) : AppliedControlPlaneCommand :=
  ⟨if changed then next.recordHistoryFrom previous else next, response, changed⟩

end Argmin.ControlPlane
