import Argmin.ControlPlane.Records
import Mathlib.Data.List.Sort

/-!
# Cluster-map history

The snapshot keeps, for every retained earlier epoch, a reverse delta: the PG routes of that
epoch that differ from the state after it.  The route of a PG at an epoch is the first route
recorded at or after that epoch (`historyLookup`), or the current one.

`recordHistoryFrom` pushes the delta of one applied command and prunes what no protected route
depends on any more.
-/

namespace Argmin.ControlPlane

open Fallible TreeMap HistoricalPgRouteRecord

structure PgMetadataReadRoute where
  nodeId : NodeId
  proof : PgMetadataProof
deriving DecidableEq

structure PendingMetadataCommandRecovery where
  reportingNodeId : NodeId
  pending : PendingMetadataCommandObservation
deriving DecidableEq

structure PgRouteSnapshot where
  clusterEpoch : ClusterEpoch
  pgId : PgId
  primaryNodeId : NodeId
  actingSet : List NodeId
  state : PgState
  activeMetadataProof : Option PgMetadataProof
  metadataReadRoute : Option PgMetadataReadRoute
  primaryLeaseDeadlineMs : Option Nat
  peeringMetadataTransfer : Option PgMetadataTransferProof
  peeringMetadataTransferDestinationEpoch : Option ClusterEpoch
  peeringMetadataTransferSourceRouteEpoch : Option ClusterEpoch
  peeringMetadataTransferSourceNodeId : Option NodeId
  pendingMetadataCommandRecovery : Option PendingMetadataCommandRecovery
deriving DecidableEq

def ClusterMapHistoryRecord.pg (self : ClusterMapHistoryRecord) (pgId : PgId) :
    Option HistoricalPgRouteRecord :=
  self.pgs.find? (·.pgId == pgId)

/-! ### Looking up an earlier route -/

variable (history : List ClusterMapHistoryRecord)

/-- The first entry at or after `clusterEpoch` that mentions the PG: its recorded route, or
`some none` when that entry says the PG did not exist yet.  `none` when no entry mentions it. -/
def historyLookup (pgId : PgId)
    (clusterEpoch : ClusterEpoch) : Option (Option HistoricalPgRouteRecord) :=
  (history.filter (clusterEpoch ≤ ·.clusterEpoch)).findSome? fun record =>
    if pgId ∈ record.absentPgs then some none
    else (record.pg pgId).map some

def historicalPgRouteRecordAtEpoch (currentPgs : BTreeMap PgId PgControlRecord) (pgId : PgId)
    (clusterEpoch : ClusterEpoch) :
    Option HistoricalPgRouteRecord :=
  match historyLookup history pgId clusterEpoch with
  | some route => route
  | none => currentPgs[pgId]?.map ofRecord

def historicalPgActingSetAtEpoch (currentPgs : BTreeMap PgId PgControlRecord) (pgId : PgId)
    (clusterEpoch : ClusterEpoch) :
    Option (List NodeId) :=
  match historyLookup history pgId clusterEpoch with
  | some route => route.map (·.actingSet)
  | none => currentPgs[pgId]?.map (·.actingSet)

def historicalPgExistsAtEpoch (currentPgs : BTreeMap PgId PgControlRecord) (pgId : PgId)
    (clusterEpoch : ClusterEpoch) :
    Bool :=
  match historyLookup history pgId clusterEpoch with
  | some route => route.isSome
  | none => currentPgs.contains pgId

/-- The primary of a route: the active primary of an Active PG, else the first acting node. -/
def routePrimary (pgId : PgId) (clusterEpoch : ClusterEpoch) (state : PgState)
    (activePrimary : Option NodeId) (actingSet : List NodeId) :
    Except ControlPlaneError NodeId :=
  match state with
  | .active => okOr (activePrimary.filter (· ∈ actingSet))
    (.pgHasNoServingPrimary pgId clusterEpoch)
  | _ => okOr actingSet.head? (.emptyActingSet pgId)

def reconstructHistoricalPgRoute (clusterEpoch : ClusterEpoch) (record : HistoricalPgRouteRecord)
    (containsNode : NodeId → Bool) : Except ControlPlaneError PgRouteSnapshot := do
  let primary ← routePrimary record.pgId clusterEpoch record.state record.activePrimary
    record.actingSet
  record.actingSet.forM fun nodeId =>
    failIf (¬containsNode nodeId) (.unknownActingSetNode record.pgId nodeId)
  pure {
    clusterEpoch := clusterEpoch
    pgId := record.pgId
    primaryNodeId := primary
    actingSet := record.actingSet
    state := record.state
    activeMetadataProof := none
    metadataReadRoute := none
    primaryLeaseDeadlineMs := none
    peeringMetadataTransfer := record.peeringMetadataTransfer
    peeringMetadataTransferDestinationEpoch :=
      record.peeringMetadataTransfer.map fun _ => clusterEpoch
    peeringMetadataTransferSourceRouteEpoch := record.peeringMetadataTransferSourceRouteEpoch
    peeringMetadataTransferSourceNodeId := record.peeringMetadataTransferSourceNodeId
    pendingMetadataCommandRecovery := none }

def peeringMetadataTransferDestinationEpoch (record : PgControlRecord) :
    Except ControlPlaneError (Option ClusterEpoch) :=
  match record.peeringMetadataTransfer with
  | none => pure none
  | some _ => do
    let pgId := record.pgId
    let floorEpoch ← okOr record.peeringMetadataProofFloorEpoch (.rpcProtocol
      s!"PG {pgId} metadata transfer is missing its destination proof-floor epoch")
    let epoch ← nextEpoch floorEpoch
    pure (some epoch)

def reconstructPgRouteFromRecord (clusterEpoch : ClusterEpoch) (pgId : PgId)
    (record : PgControlRecord) (containsNode : NodeId → Bool) :
    Except ControlPlaneError PgRouteSnapshot := do
  let primary ← routePrimary pgId clusterEpoch record.state record.activePrimary record.actingSet
  record.actingSet.forM fun nodeId =>
    failIf (¬containsNode nodeId) (.unknownActingSetNode pgId nodeId)
  let destinationEpoch ← peeringMetadataTransferDestinationEpoch record
  pure {
    clusterEpoch := clusterEpoch
    pgId := pgId
    primaryNodeId := primary
    actingSet := record.actingSet
    state := record.state
    activeMetadataProof := if record.state = .active then record.activeMetadataProof else none
    metadataReadRoute := none
    primaryLeaseDeadlineMs := none
    peeringMetadataTransfer := record.peeringMetadataTransfer
    peeringMetadataTransferDestinationEpoch := destinationEpoch
    peeringMetadataTransferSourceRouteEpoch := record.peeringMetadataTransferSourceRouteEpoch
    peeringMetadataTransferSourceNodeId := record.peeringMetadataTransferSourceNodeId
    pendingMetadataCommandRecovery := none }

namespace ClusterControlSnapshot

def clusterMapAtEpoch (self : ClusterControlSnapshot) (epoch : ClusterEpoch) :
    Option ClusterMapHistoryRecord :=
  self.history.find? (·.clusterEpoch == epoch)

def reconstructedPgRouteAtEpoch (self : ClusterControlSnapshot) (pgId : PgId)
    (clusterEpoch : ClusterEpoch) : Except ControlPlaneError PgRouteSnapshot :=
  if clusterEpoch = self.clusterEpoch then do
    let record ← okOr self.pgs[pgId]? (.unknownPg pgId)
    reconstructPgRouteFromRecord clusterEpoch pgId record self.nodes.contains
  else do
    let history ← okOr (self.clusterMapAtEpoch clusterEpoch) (.unknownClusterMapEpoch clusterEpoch)
    match historyLookup self.history pgId clusterEpoch with
    | some none => .error (.unknownPg pgId)
    | some (some record) =>
      reconstructHistoricalPgRoute clusterEpoch record history.nodes.contains
    | none => do
      let record ← okOr self.pgs[pgId]? (.unknownPg pgId)
      reconstructPgRouteFromRecord clusterEpoch pgId record self.nodes.contains

end ClusterControlSnapshot

/-! ### Recording and pruning -/

def ClusterMapHistoryRecord.deltaBetween (previous current : ClusterControlSnapshot) :
    ClusterMapHistoryRecord where
  authorityIncarnation := previous.authorityIncarnation
  clusterEpoch := previous.clusterEpoch
  nodes := previous.nodes.keys
  pgs := ((values previous.pgs).filter fun previousPg =>
    match current.pgs[previousPg.pgId]? with
    | none => true
    | some currentPg =>
      ofRecord previousPg != ofRecord currentPg).map
    ofRecord
  absentPgs := current.pgs.keys.filter fun pgId => !previous.pgs.contains pgId

abbrev RouteKey := ClusterEpoch × PgId

instance : LawfulBEq RouteKey := inferInstance

/-- The exact routes that must stay reconstructible: transfer sources and destinations, the
routes that storage nodes still refer to, and the routes of placement transitions. -/
def requiredClusterMapHistoryProtection (pgs : List PgControlRecord)
    (nodes : List NodeControlRecord) (transitions : List UnavailablePgPlacementTransition) :
    List RouteKey :=
  (pgs.flatMap fun pg =>
    (pg.peeringMetadataTransferSourceRouteEpoch.map (·, pg.pgId)).toList ++
      match peeringMetadataTransferDestinationEpoch pg with
      | .ok (some destinationEpoch) => [(destinationEpoch, pg.pgId)]
      | _ => []) ++
  (nodes.flatMap fun node =>
    node.retainedClusterMapHistoryRouteReferences.map fun r => (r.clusterEpoch, r.pgId)) ++
  transitions.flatMap fun transition =>
    (transition.sourceEpoch, transition.pgId) :: (transition.transitionEpoch, transition.pgId) ::
      (transition.destinationEpoch.map (·, transition.pgId)).toList

def resolveClusterMapHistoryRouteKey (key : RouteKey) : Option RouteKey :=
  ((history.filter (key.1 ≤ ·.clusterEpoch)).findSome? fun record =>
    if key.2 ∈ record.absentPgs then some none
    else if (record.pg key.2).isSome then some (some (record.clusterEpoch, key.2))
    else none).join

/-- The transfer source of a recorded route, when the route carries one. -/
def transferSource (key : RouteKey) : Option RouteKey :=
  ((history.flatMap fun record => record.pgs.filterMap fun pg =>
    pg.peeringMetadataTransferSourceRouteEpoch.map fun sourceEpoch =>
      ((record.clusterEpoch, pg.pgId), (sourceEpoch, pg.pgId))).reverse.find? (·.1 == key)).map
        (·.2)

/-- The worklist of `cluster_map_history_route_dependency_closure`; `fuel` bounds the number of
iterations. -/
def routeClosureFrom (history : List ClusterMapHistoryRecord) :
    Nat → List RouteKey → List RouteKey → List RouteKey
  | 0, reachable, _ => reachable
  | _ + 1, reachable, [] => reachable
  | fuel + 1, reachable, route :: pending =>
    match (transferSource history route).bind (resolveClusterMapHistoryRouteKey history) with
    | none => routeClosureFrom history fuel reachable pending
    | some source =>
      if source ∈ reachable then routeClosureFrom history fuel reachable pending
      else routeClosureFrom history fuel (source :: reachable) (source :: pending)

/-- Close a set of routes under "was transferred from".  Every iteration pops one pending route
and a route is pushed at most once, so the roots and the recorded routes bound the work. -/
def clusterMapHistoryRouteDependencyClosure (roots : List RouteKey) : List RouteKey :=
  let reachable := (roots.filterMap (resolveClusterMapHistoryRouteKey history)).eraseDups
  routeClosureFrom history (reachable.length + (history.flatMap (·.pgs)).length) reachable reachable

def protectedHistoryAbsenceEpochs (protection : List RouteKey) : List ClusterEpoch :=
  match (protection.map (·.1)).min? with
  | none => []
  | some earliest =>
    (history.filter fun record =>
      decide (earliest ≤ record.clusterEpoch) && !record.absentPgs.isEmpty).map (·.clusterEpoch)

def pruneUnreachableOldHistoryRoutes (protection : List RouteKey) (ordinaryHistoryFloor : Nat) :
    List ClusterMapHistoryRecord :=
  let protectedEpochs := protection.map (·.1) ++ protectedHistoryAbsenceEpochs history protection
  let roots := protection ++
    (history.filter (ordinaryHistoryFloor ≤ ·.clusterEpoch)).flatMap fun record =>
      record.pgs.map fun pg => (record.clusterEpoch, pg.pgId)
  let reachableRoutes := clusterMapHistoryRouteDependencyClosure history roots
  history.filterMap fun record =>
    if ordinaryHistoryFloor ≤ record.clusterEpoch then some record
    else
      let pgs := record.pgs.filter fun pg => (record.clusterEpoch, pg.pgId) ∈ reachableRoutes
      if pgs ≠ [] ∨ record.clusterEpoch ∈ protectedEpochs then some { record with pgs := pgs }
      else none

def pruneClusterMapHistory (protection : List RouteKey) (currentEpoch : ClusterEpoch) :
    List ClusterMapHistoryRecord :=
  pruneUnreachableOldHistoryRoutes
    (history.insertionSort fun a b => a.clusterEpoch ≤ b.clusterEpoch) protection
    (currentEpoch - clusterMapHistoryLimit)

def ClusterControlSnapshot.recordHistoryFrom (self previous : ClusterControlSnapshot) :
    ClusterControlSnapshot :=
  let history :=
    if previous.clusterEpoch ≠ self.clusterEpoch then
      self.history.filter (·.clusterEpoch ≠ previous.clusterEpoch) ++
        [ClusterMapHistoryRecord.deltaBetween previous self]
    else self.history
  let protection := requiredClusterMapHistoryProtection (values self.pgs) (values self.nodes)
    (values self.unavailablePgPlacementTransitions ++
      values self.retainedUnavailablePgPlacementTransitions)
  { self with history := pruneClusterMapHistory history protection self.clusterEpoch }

end Argmin.ControlPlane
