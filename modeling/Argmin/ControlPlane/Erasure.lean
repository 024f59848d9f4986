import Argmin.ControlPlane.Overlay

/-!
# What commands do not read

A node record carries the time of its last heartbeat and the generation of its last route scan.
`erase` drops both, up to whether there was a scan at all, which validation asks of a node with
route references.  This file says that the commands other than heartbeats do not read them: what a
command does to the erased snapshot is what it does to the snapshot, erased
(`applyArm_erase`).

A lookup of the erased snapshot is the erased lookup, and what the checks read of a node record is
the same in the erased record.  So each check is taken to the same check (`*_erase`), one lemma per
function, and the commands follow.
-/

namespace Argmin.ControlPlane

open Fallible TreeMap ClusterControlSnapshot List
open Std (ExtTreeMap)

/-- A node record without the time of its last heartbeat and the generation of its last route
scan.  That there was a scan is kept where the record has route references. -/
def NodeControlRecord.erase (record : NodeControlRecord) : NodeControlRecord :=
  { record with
    lastHeartbeatMs := none
    clusterMapHistoryRouteScanGeneration :=
      if record.clusterMapHistoryRouteReferences.isEmpty ∧
          record.retiringClusterMapHistoryRouteReferences.isEmpty then none
      else record.clusterMapHistoryRouteScanGeneration.map fun _ => 0 }

def ClusterControlSnapshot.erase (s : ClusterControlSnapshot) : ClusterControlSnapshot :=
  { s with nodes := s.nodes.map fun _ record => record.erase }

def AppliedControlPlaneCommand.erase (a : AppliedControlPlaneCommand) :
    AppliedControlPlaneCommand :=
  { a with snapshot := a.snapshot.erase }

/-- The arm does not read what is erased. -/
def Unread (c : ControlPlaneCommand) : Prop :=
  ∀ s : ClusterControlSnapshot,
    applyArm s.erase c = AppliedControlPlaneCommand.erase <$> applyArm s c

variable {nodeId primary : NodeId} {membership : NodeMembershipState} {pgId : PgId}
  {availability : NodeAvailabilityState} {authority : LeaseHorizonAuthorityBinding}
  {authorityNowMs horizonDurationMs expireAtMs nodeIncarnation completeAtMs readyAtMs : Nat}
  {promoted : List PromotedNodeHeartbeatLease} {expired : List ExpiredNodeHeartbeatLease}
  {actingSet : List NodeId} {transfer : PgMetadataTransferProof} {destinationEpoch : ClusterEpoch}
  {transition : Option UnavailablePgTransitionMutationBinding} {committed : Option Nat}
  {horizonAuthority : Option LeaseHorizonAuthorityBinding} {state : PgState}
  {ready : List ReadyPgPeeringCompletion} {beginning : BeginUnavailableTransition}
  {completing : CompleteUnavailableTransition}

/-! ### Lookups -/

section Lookups

variable (s : ClusterControlSnapshot)

theorem erase_getElem? : s.erase.nodes[nodeId]? = s.nodes[nodeId]?.map NodeControlRecord.erase :=
  ExtTreeMap.getElem?_map

theorem erase_contains (nodeId : NodeId) :
    s.erase.nodes.contains nodeId = s.nodes.contains nodeId :=
  ExtTreeMap.contains_map

theorem erase_keys : s.erase.nodes.keys = s.nodes.keys :=
  ExtTreeMap.keys_map

theorem erase_toList :
    s.erase.nodes.toList = s.nodes.toList.map fun entry => (entry.1, entry.2.erase) :=
  ExtTreeMap.toList_map

theorem erase_values : values s.erase.nodes = (values s.nodes).map NodeControlRecord.erase := by
  rw [values, erase_toList, values, map_map, map_map]
  rfl

theorem erase_isEmpty : s.erase.nodes.isEmpty = s.nodes.isEmpty := by
  rw [ExtTreeMap.isEmpty_eq_size_beq_zero, ExtTreeMap.isEmpty_eq_size_beq_zero]
  exact congrArg (· == 0) ExtTreeMap.size_map

end Lookups

/-- A check of a looked-up record reads the record through `g`. -/
theorem okOr_map_bind {ε α β γ : Type} (o : Option α) (g : α → β) (e : ε) (f : β → Except ε γ) :
    (okOr (o.map g) e >>= f) = (okOr o e >>= fun a => f (g a)) := by
  cases o with
  | none => rfl
  | some a => rfl

/-! ### Peering -/

section Peering

variable (s : ClusterControlSnapshot)

theorem activePrimaryLease_erase : activePrimaryLease s.erase = activePrimaryLease s := by
  funext record
  unfold activePrimaryLease
  simp only [erase_getElem?, Option.bind_eq_bind, Option.bind_map]
  rfl

theorem reconstructedPgRouteAtEpoch_erase :
    s.erase.reconstructedPgRouteAtEpoch = s.reconstructedPgRouteAtEpoch := by
  funext pgId epoch
  have hcontains : (s.erase.nodes.contains : NodeId → Bool) = s.nodes.contains :=
    funext (erase_contains s)
  unfold reconstructedPgRouteAtEpoch
  rw [hcontains]
  rfl

theorem validatePendingMetadataCommandReporter_erase :
    validatePendingMetadataCommandReporter s.erase = validatePendingMetadataCommandReporter s := by
  funext pgId nodeId pending
  unfold validatePendingMetadataCommandReporter
  rw [reconstructedPgRouteAtEpoch_erase]
  rfl

theorem pendingRecoveryFrom_erase (pgId : PgId) (nodes : List (NodeId × NodeControlRecord))
    (recovery : Option PendingMetadataCommandRecovery) :
    pendingRecoveryFrom s.erase pgId (nodes.map fun entry => (entry.1, entry.2.erase)) recovery =
      pendingRecoveryFrom s pgId nodes recovery := by
  induction nodes generalizing recovery with
  | nil => rfl
  | cons entry rest ih =>
    obtain ⟨nodeId, node⟩ := entry
    rw [map_cons]
    unfold pendingRecoveryFrom
    rw [validatePendingMetadataCommandReporter_erase]
    simp only [ih]
    rfl

theorem pendingMetadataCommandRecoveryForPg_erase :
    pendingMetadataCommandRecoveryForPg s.erase = pendingMetadataCommandRecoveryForPg s := by
  funext record
  unfold pendingMetadataCommandRecoveryForPg
  rw [erase_toList]
  exact pendingRecoveryFrom_erase s _ _ _

theorem peeringProofFrom_erase (nowMs : Nat) (expected : Option PgMetadataProof) :
    peeringProofFrom s.erase pgId nowMs actingSet expected =
      peeringProofFrom s pgId nowMs actingSet expected := by
  induction actingSet generalizing expected with
  | nil => rfl
  | cons nodeId rest ih =>
    unfold peeringProofFrom
    rw [erase_getElem?, okOr_map_bind]
    simp only [ih]
    rfl

/-- What the checks of a completion read of the acting nodes is not erased. -/
theorem validatePgPeeringCompletion_erase :
    validatePgPeeringCompletion s.erase = validatePgPeeringCompletion s := by
  funext pgId primary nodeIncarnation completedAtMs expected
  unfold validatePgPeeringCompletion authorizeNodeServiceForSnapshot validatePeeringToActive
    validatePgPeeringObservations validatePreviousPrimaryLease peeringPgPrimaryForSnapshot
    preferredReactivation deterministicPgPrimaryForSnapshot
  simp only [pendingMetadataCommandRecoveryForPg_erase, peeringProofFrom_erase, erase_getElem?,
    okOr_map_bind, Option.any_map]
  rfl

theorem migrationSourceFrom_erase (record : PgControlRecord) (activeFloor : PgMetadataProof)
    (sourceFloor : Option PgMetadataProof) (awaiting : Bool) :
    migrationSourceFrom s.erase record activeFloor actingSet sourceFloor awaiting =
      migrationSourceFrom s record activeFloor actingSet sourceFloor awaiting := by
  induction actingSet generalizing sourceFloor awaiting with
  | nil => rfl
  | cons nodeId rest ih =>
    unfold migrationSourceFrom
    rw [erase_getElem?]
    cases s.nodes[nodeId]? with
    | none => exact ih _ _
    | some node =>
      simp only [Option.map_some, ih]
      rfl

theorem validateAuthoritativeMetadataMigrationSource_erase :
    validateAuthoritativeMetadataMigrationSource s.erase =
      validateAuthoritativeMetadataMigrationSource s := by
  funext record newActingSet
  unfold validateAuthoritativeMetadataMigrationSource
  simp only [migrationSourceFrom_erase]

end Peering

/-! ### Building blocks -/

section Blocks

variable (s : ClusterControlSnapshot) {f : NodeControlRecord → NodeControlRecord}

theorem erase_modifyNode (nodeId : NodeId) (hf : ∀ record, (f record).erase = f record.erase) :
    s.erase.modifyNode nodeId f = (s.modifyNode nodeId f).erase :=
  congrArg (fun nodes => { s.erase with nodes := nodes }) (map_modify hf)

theorem erase_modifyPg (f : PgControlRecord → PgControlRecord) :
    s.erase.modifyPg pgId f = (s.modifyPg pgId f).erase :=
  rfl

theorem erase_removeUnavailableNodeObservation : s.erase.removeUnavailableNodeObservation nodeId =
      (s.removeUnavailableNodeObservation nodeId).erase :=
  rfl

theorem erase_recordCommittedTimestamp (timestampMs : Nat) :
    s.erase.recordCommittedTimestamp timestampMs = (s.recordCommittedTimestamp timestampMs).erase :=
  rfl

/-- The nodes of a snapshot can be mapped before or after they are erased. -/
theorem erase_mapNodes (hf : ∀ record, (f record).erase = f record.erase) :
    { s.erase with nodes := s.erase.nodes.map fun _ record => f record } =
      ({ s with nodes := s.nodes.map fun _ record => f record } :
        ClusterControlSnapshot).erase := by
  simp only [erase, ExtTreeMap.map_map, hf]

theorem erase_bumpEpoch : s.erase.bumpEpoch = ClusterControlSnapshot.erase <$> s.bumpEpoch := by
  unfold bumpEpoch
  rw [map_bind]
  refine bind_congr fun epoch => ?_
  exact congrArg (fun t : ClusterControlSnapshot => Except.ok { t with clusterEpoch := epoch })
    (erase_mapNodes s (f := fun record => { record with pgObservations := ∅ }) fun _ => rfl)

/-- What follows an epoch bump of an erased snapshot. -/
theorem erase_bumpEpoch_bind {β : Type} (f : ClusterControlSnapshot → Except ControlPlaneError β) :
    (s.erase.bumpEpoch >>= f) = s.bumpEpoch >>= fun next => f next.erase := by
  rw [erase_bumpEpoch, bind_map_left]

theorem erase_establishHeartbeatLeaseHorizon (authority : Option LeaseHorizonAuthorityBinding)
    (heartbeatAtMs leaseDeadlineMs : Nat) :
    s.erase.establishHeartbeatLeaseHorizon authority heartbeatAtMs leaseDeadlineMs =
      ClusterControlSnapshot.erase <$>
        s.establishHeartbeatLeaseHorizon authority heartbeatAtMs leaseDeadlineMs := by
  unfold establishHeartbeatLeaseHorizon
  cases authority with
  | none => rfl
  | some authority =>
    rw [apply_ite (Functor.map erase)]
    simp only [map_bind, map_pure]
    rfl

theorem erase_retireTransition :
    s.erase.retireTransition pgId = (s.retireTransition pgId).erase := by
  unfold retireTransition
  rw [show s.erase.unavailablePgPlacementTransitions = s.unavailablePgPlacementTransitions from rfl]
  cases s.unavailablePgPlacementTransitions[pgId]? with
  | none => rfl
  | some transition => rfl

theorem fencingLease_erase : fencingLease s.erase = fencingLease s := by
  funext record
  rw [fencingLease, activePrimaryLease_erase, fencingLease]

theorem fencingLeaseWithoutPreference_erase :
    fencingLeaseWithoutPreference s.erase = fencingLeaseWithoutPreference s := by
  funext record
  rw [fencingLeaseWithoutPreference, fencingLease_erase, fencingLeaseWithoutPreference]

theorem erase_markPgsPeeringForPgIds (previous : ClusterControlSnapshot) (pgIds : List PgId) :
    markPgsPeeringForPgIds s.erase previous.erase pgIds =
      (markPgsPeeringForPgIds s previous pgIds).erase := by
  unfold markPgsPeeringForPgIds PgControlRecord.markPeering
  rw [activePrimaryLease_erase]
  rfl

theorem erase_markPgsPeeringForNodes (previous : ClusterControlSnapshot) (nodes : List NodeId) :
    markPgsPeeringForNodes s.erase previous.erase nodes =
      (markPgsPeeringForNodes s previous nodes).erase :=
  erase_markPgsPeeringForPgIds s previous (pgsActingOn s nodes)

theorem erase_recordHistoryFrom (previous : ClusterControlSnapshot) :
    s.erase.recordHistoryFrom previous.erase = (s.recordHistoryFrom previous).erase := by
  unfold recordHistoryFrom requiredClusterMapHistoryProtection ClusterMapHistoryRecord.deltaBetween
  rw [erase_keys, erase_values, flatMap_map]
  rfl

theorem erase_applied (next : ClusterControlSnapshot) (response : ControlPlaneCommandResponse)
    (changed : Bool) :
    appliedControlPlaneCommand s.erase next.erase response changed =
      (appliedControlPlaneCommand s next response changed).erase := by
  cases changed with
  | false => rfl
  | true =>
    unfold appliedControlPlaneCommand
    rw [if_pos rfl, if_pos rfl, erase_recordHistoryFrom]
    rfl

theorem erase_ite {c : Prop} [Decidable c]
    (x y : Except ControlPlaneError AppliedControlPlaneCommand) :
    AppliedControlPlaneCommand.erase <$> (if c then x else y) =
      if c then AppliedControlPlaneCommand.erase <$> x
      else AppliedControlPlaneCommand.erase <$> y :=
  apply_ite ..

end Blocks

/-! ### Commands about nodes -/

section NodeCommands

variable (s : ClusterControlSnapshot)

theorem NodeControlRecord.erase_setMembership (record : NodeControlRecord) :
    (record.setMembership membership).erase = record.erase.setMembership membership := by
  unfold NodeControlRecord.setMembership
  rw [show record.erase.membership = record.membership from rfl]
  split
  · rfl
  · split
    · rfl
    · rfl

theorem NodeControlRecord.erase_markAvailability (record : NodeControlRecord) :
    (record.markAvailability availability).erase = record.erase.markAvailability availability := by
  cases availability with
  | unavailable => rfl
  | healthy => rfl
  | suspect => rfl

theorem erase_insertNode (nodeId : NodeId) {record : NodeControlRecord}
    (hrecord : record.erase = record) :
    { s.erase with nodes := s.erase.nodes.insert nodeId record } =
      ({ s with nodes := s.nodes.insert nodeId record } : ClusterControlSnapshot).erase := by
  unfold erase
  rw [map_insert, hrecord]

theorem applySetNodeMembership_erase : Unread (.setNodeMembership nodeId membership) := by
  intro s
  unfold applyArm applySetNodeMembership
  dsimp only
  rw [erase_getElem?]
  cases s.nodes[nodeId]? with
  | none =>
    have hinsert := erase_insertNode s nodeId
      (show (NodeControlRecord.new nodeId membership).erase = _ from rfl)
    simp only [Option.map_none, hinsert, erase_removeUnavailableNodeObservation, erase_bumpEpoch,
      map_bind, bind_map_left, map_pure, erase_applied]
  | some record =>
    simp only [Option.map_some, erase_modifyNode s nodeId (NodeControlRecord.erase_setMembership),
      erase_removeUnavailableNodeObservation, erase_markPgsPeeringForNodes, erase_bumpEpoch,
      erase_ite, map_bind, bind_map_left, map_pure, erase_applied]
    rfl

theorem applyMarkNodeAvailability_erase : Unread (.markNodeAvailability nodeId availability) := by
  intro s
  unfold applyArm applyMarkNodeAvailability
  have hnext : ∀ t : ClusterControlSnapshot,
      (if availability = .healthy then t.erase
        else markPgsPeeringForNodes t.erase s.erase [nodeId]) =
      (if availability = .healthy then t else markPgsPeeringForNodes t s [nodeId]).erase := by
    intro t
    rw [erase_markPgsPeeringForNodes, apply_ite erase]
  simp only [erase_getElem?, okOr_map_bind,
    erase_modifyNode s nodeId (NodeControlRecord.erase_markAvailability),
    erase_removeUnavailableNodeObservation, hnext, erase_bumpEpoch, erase_ite, map_bind,
    bind_map_left, map_pure, erase_applied]
  rfl

theorem applyEstablishLeaseGrantHorizon_erase :
    Unread (.establishLeaseGrantHorizon authority authorityNowMs horizonDurationMs) := by
  intro s
  unfold applyArm applyEstablishLeaseGrantHorizon
  simp only [map_bind, map_pure, ← erase_applied]
  rfl

/-- Rewriting the erased nodes one after the other erases the rewritten nodes. -/
theorem erase_foldl {α : Type} {f : ClusterControlSnapshot → α → ClusterControlSnapshot}
    (hf : ∀ t entry, f t.erase entry = (f t entry).erase) (entries : List α) :
    entries.foldl f s.erase = (entries.foldl f s).erase :=
  foldl_hom erase hf

theorem applyPromoteNodeHeartbeatLeases_erase :
    Unread (.promoteNodeHeartbeatLeases authority promoted) := by
  intro s
  have hfold := erase_foldl s (f := fun next (lease : PromotedNodeHeartbeatLease) =>
    next.modifyNode lease.nodeId fun record =>
      { record with leaseDeadlineMs := some lease.leaseDeadlineMs })
    (fun t lease => erase_modifyNode t lease.nodeId fun _ => rfl) promoted
  unfold applyArm applyPromoteNodeHeartbeatLeases validatePromotedLease
  simp only [hfold, erase_getElem?, okOr_map_bind, Option.any_map, map_bind, map_pure,
    erase_applied]
  rfl

theorem finishExpiry_erase (next : ClusterControlSnapshot) (expired : List NodeControlRecord)
    (changed : Bool) :
    finishExpiry s.erase next.erase (expired.map NodeControlRecord.erase) changed =
      AppliedControlPlaneCommand.erase <$> finishExpiry s next expired changed := by
  have hids : (expired.map NodeControlRecord.erase).map (·.nodeId) = expired.map (·.nodeId) := by
    rw [map_map]
    rfl
  have hserving : ((expired.map NodeControlRecord.erase).filter
      (·.administrativelyAvailable)).map (·.nodeId) =
      (expired.filter (·.administrativelyAvailable)).map (·.nodeId) := by
    rw [filter_map, map_map]
    rfl
  have hany : (expired.map NodeControlRecord.erase != []) = (expired != []) := by
    cases expired with
    | nil => rfl
    | cons record rest => rfl
  unfold finishExpiry
  simp only [hids, hserving, hany, erase_markPgsPeeringForNodes, erase_bumpEpoch, erase_ite,
    map_bind, bind_map_left, pure_bind, map_pure, erase_applied]
  rfl

theorem applyExpireHeartbeatLeases_erase : Unread (.expireHeartbeatLeases expireAtMs) := by
  intro s
  have hexpired : (values s.erase.nodes).filter (·.leaseExpired expireAtMs) =
      ((values s.nodes).filter (·.leaseExpired expireAtMs)).map NodeControlRecord.erase := by
    rw [erase_values, filter_map]
    rfl
  have hnodes := erase_mapNodes (s.recordCommittedTimestamp expireAtMs)
    (f := fun record => if record.leaseExpired expireAtMs then record.expireLease else record)
    (fun record => by
      rw [apply_ite NodeControlRecord.erase]
      rfl)
  have hfold := fun t => erase_foldl t (f := fun next record =>
    next.observeUnavailable record.erase (record.erase.leaseDeadlineMs.getD 0) expireAtMs)
    (fun _ _ => rfl) ((values s.nodes).filter (·.leaseExpired expireAtMs))
  unfold applyArm applyExpireHeartbeatLeases
  simp only [hexpired, erase_recordCommittedTimestamp, hnodes, foldl_map, hfold, finishExpiry_erase,
    map_bind]
  rfl

theorem erase_expireNodeLease (lease : ExpiredNodeHeartbeatLease) :
    s.erase.expireNodeLease expireAtMs lease = (s.expireNodeLease expireAtMs lease).erase := by
  unfold expireNodeLease
  rw [erase_getElem?]
  cases s.nodes[lease.nodeId]? with
  | none => rfl
  | some record =>
    have hexpire := erase_modifyNode s lease.nodeId (f := (·.expireLease)) fun _ => rfl
    rw [hexpire]
    rfl

theorem applyExpireNodeHeartbeatLeases_erase :
    Unread (.expireNodeHeartbeatLeases authority expireAtMs expired) := by
  intro s
  have hfold := fun t => erase_foldl t (f := (·.expireNodeLease expireAtMs)) erase_expireNodeLease
    expired
  unfold applyArm applyExpireNodeHeartbeatLeases validateExpiredLease
  simp only [erase_getElem?, okOr_map_bind, erase_establishHeartbeatLeaseHorizon, ← map_filterMap,
    bind_map_left, erase_recordCommittedTimestamp, hfold, finishExpiry_erase, map_bind]
  rfl

end NodeCommands

/-! ### Commands about PGs -/

section PgCommands

variable (s : ClusterControlSnapshot)

theorem validateActingSetNodesFrom_erase (actingSet seen : List NodeId) :
    validateActingSetNodesFrom s.erase pgId actingSet seen =
      validateActingSetNodesFrom s pgId actingSet seen := by
  induction actingSet generalizing seen with
  | nil => rfl
  | cons nodeId rest ih =>
    unfold validateActingSetNodesFrom
    simp only [erase_contains, ih]

theorem validateActingSet_erase : validateActingSet s.erase = validateActingSet s := by
  funext pgId actingSet
  unfold validateActingSet
  rw [validateActingSetNodesFrom_erase]
  rfl

theorem validateActingSetPreservesPendingRecovery_erase :
    validateActingSetPreservesPendingRecovery s.erase =
      validateActingSetPreservesPendingRecovery s := by
  funext pgId actingSet
  unfold validateActingSetPreservesPendingRecovery
  rw [pendingMetadataCommandRecoveryForPg_erase]
  rfl

theorem actingSetChangeFloor_erase : actingSetChangeFloor s.erase = actingSetChangeFloor s := by
  funext record actingSet
  unfold actingSetChangeFloor validatePeeringMetadataMigrationSource
  simp only [validateAuthoritativeMetadataMigrationSource_erase, erase_getElem?, Option.bind_map]
  rfl

theorem erase_insertPg (record : PgControlRecord) :
    { s.erase with pgs := s.erase.pgs.insert pgId record } =
      ({ s with pgs := s.pgs.insert pgId record } : ClusterControlSnapshot).erase :=
  rfl

theorem applySetPgActingSet_erase : Unread (.setPgActingSet pgId actingSet) := by
  intro s
  unfold applyArm applySetPgActingSet
  simp only [validateActingSet_erase, validateActingSetPreservesPendingRecovery_erase,
    actingSetChangeFloor_erase, fencingLeaseWithoutPreference_erase, erase_modifyPg, erase_insertPg,
    erase_bumpEpoch, erase_applied, map_bind, bind_map_left]
  refine bind_congr fun _ => bind_congr fun _ => bind_congr fun _ => bind_congr fun _ => ?_
  rw [show s.erase.pgs = s.pgs from rfl]
  cases s.pgs[pgId]? with
  | none => simp only [map_bind, map_pure]
  | some record => simp only [erase_ite, map_bind, map_pure]

theorem applySetPgActingSetWithMetadataTransfer_erase :
    Unread (.setPgActingSetWithMetadataTransfer pgId actingSet transfer destinationEpoch
      transition) := by
  intro s
  unfold applyArm applySetPgActingSetWithMetadataTransfer
  simp only [validateActingSet_erase, validateActingSetPreservesPendingRecovery_erase,
    fencingLeaseWithoutPreference_erase, erase_ite, map_bind, map_pure, ← erase_applied]
  refine bind_congr fun _ => bind_congr fun _ => bind_congr fun _ => bind_congr fun _ =>
    bind_congr fun record => if_congr Iff.rfl rfl ?_
  refine bind_congr fun _ => bind_congr fun _ => bind_congr fun _ => bind_congr fun _ =>
    bind_congr fun sourceNodeId => ?_
  refine Eq.trans ?_ (erase_bumpEpoch_bind _ fun next =>
    pure (appliedControlPlaneCommand s.erase next .setPgActingSetWithMetadataTransfer true))
  rfl

theorem finishFence_erase (fenced : PgControlRecord) (sourceDeadline : Option Nat) :
    finishFence s.erase pgId fenced sourceDeadline =
      AppliedControlPlaneCommand.erase <$> finishFence s pgId fenced sourceDeadline := by
  unfold finishFence
  simp only [erase_modifyPg, erase_bumpEpoch, erase_applied, map_bind, bind_map_left, map_pure]

theorem applyFencePgForMetadataTransfer_erase :
    Unread (.fencePgForMetadataTransfer pgId committed horizonAuthority transition) := by
  intro s
  unfold applyArm applyFencePgForMetadataTransfer observedSourceLeaseDeadline fencedLease
  simp only [erase_getElem?, okOr_map_bind, Option.bind_map, fencingLease_erase,
    validateAuthoritativeMetadataMigrationSource_erase, finishFence_erase, erase_applied, map_bind]
  refine bind_congr fun _ => bind_congr fun record => bind_congr fun _ => bind_congr fun _ => ?_
  cases record.state with
  | active => simp only [map_bind]; rfl
  | peering =>
    simp only [erase_ite, map_bind, map_pure]
    rfl
  | _ => rfl

theorem applySetPgState_erase : Unread (.setPgState pgId state) := by
  intro s
  unfold applyArm applySetPgState
  simp only [fencingLeaseWithoutPreference_erase, erase_modifyPg, erase_bumpEpoch, erase_applied,
    erase_ite, map_bind, bind_map_left, map_pure]
  rfl

theorem validateUnavailablePgPayloadReadiness_erase :
    validateUnavailablePgPayloadReadiness s.erase = validateUnavailablePgPayloadReadiness s := by
  funext transition readiness
  unfold validateUnavailablePgPayloadReadiness
  simp only [erase_getElem?, okOr_map_bind]
  rfl

theorem validateUnavailablePgPayloadReadinessAt_erase :
    validateUnavailablePgPayloadReadinessAt s.erase =
      validateUnavailablePgPayloadReadinessAt s := by
  funext transition activationAtMs
  unfold validateUnavailablePgPayloadReadinessAt
  rw [validateUnavailablePgPayloadReadiness_erase]
  simp only [erase_getElem?, okOr_map_bind]
  rfl

theorem primaryMetadataLogEpoch_erase :
    primaryMetadataLogEpoch s.erase = primaryMetadataLogEpoch s := by
  funext pgId primary
  unfold primaryMetadataLogEpoch
  rw [erase_getElem?, Option.bind_map]
  rfl

theorem erase_activatePg (proof : PgMetadataProof) (metadataLogEpoch : ClusterEpoch) :
    s.erase.activatePg pgId primary proof metadataLogEpoch =
      (s.activatePg pgId primary proof metadataLogEpoch).erase := by
  unfold activatePg
  rw [erase_modifyPg, erase_retireTransition]

theorem applyCompletePgPeering_erase :
    Unread (.completePgPeering pgId primary nodeIncarnation completeAtMs) := by
  intro s
  unfold applyArm applyCompletePgPeering
  simp only [validateUnavailablePgPayloadReadinessAt_erase, validatePgPeeringCompletion_erase,
    primaryMetadataLogEpoch_erase, erase_recordCommittedTimestamp, erase_activatePg,
    erase_bumpEpoch, bind_map_left, erase_modifyPg, erase_applied, map_bind]
  refine bind_congr fun _ => bind_congr fun _ => bind_congr fun validated => ?_
  cases validated with
  | alreadyActive => rfl
  | complete proof proofEpoch => simp only [map_bind, map_pure]

theorem activateReadyFrom_erase (next : ClusterControlSnapshot) :
    activateReadyFrom s.erase ready next.erase =
      ClusterControlSnapshot.erase <$> activateReadyFrom s ready next := by
  induction ready generalizing next with
  | nil => rfl
  | cons completion rest ih =>
    unfold activateReadyFrom
    rw [primaryMetadataLogEpoch_erase, map_bind]
    refine bind_congr fun metadataLogEpoch => ?_
    rw [← ih, erase_activatePg, apply_ite erase]
    rfl

theorem applyCompleteReadyPgPeerings_erase : Unread (.completeReadyPgPeerings readyAtMs ready) := by
  intro s
  have hfold := fun t => erase_foldl t (f := fun next completion =>
    next.modifyPg completion.pgId (·.recordProofEpoch completion)) (fun _ _ => rfl) ready
  unfold applyArm applyCompleteReadyPgPeerings validateReadyCompletion
  simp only [erase_recordCommittedTimestamp, validateUnavailablePgPayloadReadinessAt_erase,
    validatePgPeeringCompletion_erase, activateReadyFrom_erase,
    erase_bumpEpoch, hfold, erase_applied, erase_ite, map_bind, bind_map_left, map_pure]
  rfl

theorem validateBegin_erase : validateBegin s.erase = validateBegin s := by
  funext body
  unfold validateBegin deterministicUnavailablePgDestination
    unavailablePgTransitionBeginAuthorization transitionSource activeTransitionSource
    peeringTransitionSource peeringMetadataReadRouteForSnapshot
  simp only [erase_values, find?_map, erase_getElem?, okOr_map_bind, Option.bind_eq_bind,
    Option.bind_map]
  rfl

theorem applyBeginUnavailablePgPlacementTransition_erase :
    Unread (.beginUnavailablePgPlacementTransition beginning) := by
  intro s
  unfold applyArm applyBeginUnavailablePgPlacementTransition
  simp only [validateBegin_erase, fencingLeaseWithoutPreference_erase,
    erase_recordCommittedTimestamp,
    erase_retireTransition, erase_ite, map_bind, map_pure, ← erase_applied]
  refine bind_congr fun repeats => if_congr Iff.rfl rfl (bind_congr fun record => ?_)
  refine Eq.trans ?_ (erase_bumpEpoch_bind _ fun next =>
    pure (appliedControlPlaneCommand s.erase next .beginUnavailablePgPlacementTransition true))
  rfl

theorem applyCompleteUnavailablePgPlacementTransition_erase :
    Unread (.completeUnavailablePgPlacementTransition completing) := by
  intro s
  unfold applyArm applyCompleteUnavailablePgPlacementTransition
  simp only [map_bind]
  refine bind_congr fun _ => ?_
  rw [show s.erase.unavailablePgPlacementTransitions = s.unavailablePgPlacementTransitions from rfl]
  cases s.unavailablePgPlacementTransitions[completing.pgId]? with
  | none =>
    simp only [map_bind, map_pure, ← erase_applied]
    rfl
  | some transition =>
    -- recording the readiness commutes with erasing
    have hready : ∀ transitions, { s.erase with unavailablePgPlacementTransitions := transitions } =
        ({ s with unavailablePgPlacementTransitions := transitions } :
          ClusterControlSnapshot).erase := fun _ => rfl
    simp only [hready, validateUnavailablePgPayloadReadiness_erase,
      validatePgPeeringCompletion_erase, primaryMetadataLogEpoch_erase,
      erase_recordCommittedTimestamp, erase_activatePg, erase_bumpEpoch, bind_map_left,
      erase_modifyPg, erase_applied, map_bind, map_pure]

end PgCommands

/-! ### Validation -/

section Validation

variable (s : ClusterControlSnapshot)

theorem validateActingNodesFrom_erase (actingSet seen : List NodeId) :
    validateActingNodesFrom s.erase pgId actingSet seen =
      validateActingNodesFrom s pgId actingSet seen := by
  induction actingSet generalizing seen with
  | nil => rfl
  | cons nodeId rest ih =>
    unfold validateActingNodesFrom
    simp only [erase_contains, ih]

/-- Whether a record has route references but no scan is kept by erasing. -/
theorem NodeControlRecord.erase_unscanned (record : NodeControlRecord) :
    (record.erase.clusterMapHistoryRouteScanGeneration = none ∧
        (¬record.erase.clusterMapHistoryRouteReferences.isEmpty ∨
          ¬record.erase.retiringClusterMapHistoryRouteReferences.isEmpty)) ↔
      record.clusterMapHistoryRouteScanGeneration = none ∧
        (¬record.clusterMapHistoryRouteReferences.isEmpty ∨
          ¬record.retiringClusterMapHistoryRouteReferences.isEmpty) := by
  refine and_congr_left fun hreferences => ?_
  have hsome : ¬(record.clusterMapHistoryRouteReferences.isEmpty ∧
      record.retiringClusterMapHistoryRouteReferences.isEmpty) := by
    rwa [not_and_or]
  unfold NodeControlRecord.erase
  rw [if_neg hsome, Option.map_eq_none_iff]

theorem failIf_congr {ε : Type} {c c' : Prop} [Decidable c] [Decidable c'] (h : c ↔ c') (e : ε) :
    failIf c e = failIf c' e :=
  if_congr h rfl rfl

theorem validateNodeRecord_erase (record : NodeControlRecord) :
    validateNodeRecord s.erase record.erase = validateNodeRecord s record := by
  unfold validateNodeRecord validateNodePgObservation
  simp only [validatePendingMetadataCommandReporter_erase, failIf_congr record.erase_unscanned]
  rfl

theorem validateCurrentStateInvariants_erase :
    validateCurrentStateInvariants s.erase = validateCurrentStateInvariants s := by
  unfold validateCurrentStateInvariants validateUnavailableNodeObservation validatePgRecord
  simp only [erase_isEmpty, erase_getElem?, okOr_map_bind, validateActingNodesFrom_erase,
    erase_contains, erase_values, forM_eq_forM, forM_map, validateNodeRecord_erase]
  rfl

theorem validateControlPlaneSnapshot_erase (context : String) :
    validateControlPlaneSnapshot context s.erase = validateControlPlaneSnapshot context s := by
  unfold validateControlPlaneSnapshot validatePublicationInvariants
    validateRequiredClusterMapHistory
  simp only [erase_values, forM_eq_forM, forM_map, validateCurrentStateInvariants_erase]
  rfl

end Validation

/-! ### Commands other than heartbeats -/

theorem applyBootstrapInitialClusterMap_erase (s : ClusterControlSnapshot)
    (nodes : List (NodeId × String)) (pgActingSets : List (PgId × List NodeId))
    (initialTopology : Option InitialClusterTopologyCertificate) :
    applyBootstrapInitialClusterMap s.erase nodes pgActingSets initialTopology =
      AppliedControlPlaneCommand.erase <$>
        applyBootstrapInitialClusterMap s nodes pgActingSets initialTopology := by
  unfold applyBootstrapInitialClusterMap
  simp only [erase_isEmpty, map_bind, map_pure, ← erase_applied]
  refine bind_congr fun _ => bind_congr fun _ => bind_congr fun _ => bind_congr fun _ =>
    bind_congr fun _ => ?_
  refine Eq.trans ?_ (erase_bumpEpoch_bind _ fun next =>
    pure (appliedControlPlaneCommand s.erase next .bootstrapInitialClusterMap true))
  refine congrArg (fun records : BTreeMap NodeId NodeControlRecord => bumpEpoch { s with
    initialTopology := initialTopology, nodes := records, pgs := _ } >>= _) ?_
  refine foldl_hom (fun records : BTreeMap NodeId NodeControlRecord =>
    records.map fun _ record => record.erase) fun _ _ => Eq.symm ?_
  exact map_insert

/-- **An arm other than the heartbeat does not read what is erased.** -/
theorem applyArm_erase (s : ClusterControlSnapshot) {command : ControlPlaneCommand}
    (h : ¬command.IsHeartbeat) :
    applyArm s.erase command = AppliedControlPlaneCommand.erase <$> applyArm s command := by
  cases command with
  | bootstrapInitialClusterMap => exact applyBootstrapInitialClusterMap_erase s _ _ _
  | bootstrapCertifiedInitialClusterMap => exact applyBootstrapInitialClusterMap_erase s _ _ _
  | setNodeMembership => exact applySetNodeMembership_erase s
  | markNodeAvailability => exact applyMarkNodeAvailability_erase s
  | recordNodeHeartbeat => exact absurd trivial h
  | expireHeartbeatLeases => exact applyExpireHeartbeatLeases_erase s
  | expireNodeHeartbeatLeases => exact applyExpireNodeHeartbeatLeases_erase s
  | promoteNodeHeartbeatLeases => exact applyPromoteNodeHeartbeatLeases_erase s
  | beginUnavailablePgPlacementTransition =>
    exact applyBeginUnavailablePgPlacementTransition_erase s
  | completeUnavailablePgPlacementTransition =>
    exact applyCompleteUnavailablePgPlacementTransition_erase s
  | establishLeaseGrantHorizon => exact applyEstablishLeaseGrantHorizon_erase s
  | setPgActingSet => exact applySetPgActingSet_erase s
  | setPgActingSetWithMetadataTransfer => exact applySetPgActingSetWithMetadataTransfer_erase s
  | fencePgForMetadataTransfer => exact applyFencePgForMetadataTransfer_erase s
  | setPgState => exact applySetPgState_erase s
  | completePgPeering => exact applyCompletePgPeering_erase s
  | completeReadyPgPeerings => exact applyCompleteReadyPgPeerings_erase s

end Argmin.ControlPlane
