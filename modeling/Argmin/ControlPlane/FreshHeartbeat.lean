import Argmin.ControlPlane.EpochMap
import Argmin.ControlPlane.Erasure

/-!
# Heartbeats that carry a new scan

A heartbeat with a route scan that its node has not reported before, or from a new process of the
node, overwrites what `erase` drops.  So it takes a snapshot and the erased snapshot to the same
state, up to what is erased, and it changes both (`applyRecordNodeHeartbeat_erase`).

With the other commands: two snapshots that agree once erased accept the same commands, with the
same response and flag, and their results agree once erased (`applyControlPlaneCommand_congr`).
-/

namespace Argmin.ControlPlane

open Fallible TreeMap ClusterControlSnapshot
open Std (ExtTreeMap)

variable {finish : ClusterControlSnapshot → ClusterControlSnapshot →
    Except ControlPlaneError ClusterControlSnapshot}
  {pendings : List NodePgHeartbeatObservation} {f : NodeControlRecord → NodeControlRecord}
  {k : NodeId}

/-- The heartbeat is from a newer process than the record, or its scan is newer than the last one
accepted from the process. -/
def NodeControlRecord.NewScan (record : NodeControlRecord) (heartbeat : NodeHeartbeat) : Prop :=
  record.nodeIncarnation < heartbeat.nodeIncarnation ∨
    ∀ generation, record.clusterMapHistoryRouteScanGeneration = some generation →
      generation < heartbeat.clusterMapHistoryRouteScanGeneration

instance (record : NodeControlRecord) (heartbeat : NodeHeartbeat) :
    Decidable (record.NewScan heartbeat) :=
  inferInstanceAs (Decidable (_ ∨ ∀ generation, _ = some generation → _ < _))

/-- A heartbeat command carries a new scan of its node; of the other commands nothing is asked. -/
def ControlPlaneCommand.ScanIsNew (s : ClusterControlSnapshot) : ControlPlaneCommand → Prop
  | .recordNodeHeartbeat heartbeat _ _ _ =>
    ∀ record, s.nodes[heartbeat.nodeId]? = some record → record.NewScan heartbeat
  | _ => True

/-! ### What the heartbeat checks read -/

section Checks

variable (s : ClusterControlSnapshot)

theorem validateHeartbeat_erase (heartbeat : NodeHeartbeat) (heartbeatAtMs leaseDeadlineMs : Nat) :
    validateHeartbeat s.erase heartbeat heartbeatAtMs leaseDeadlineMs =
      NodeControlRecord.erase <$> validateHeartbeat s heartbeat heartbeatAtMs leaseDeadlineMs := by
  unfold validateHeartbeat heartbeatLeaseDeadline
  simp only [erase_getElem?, okOr_map_bind, map_bind, map_pure]
  rfl

theorem validateStorageClusterMapHistoryFloorAtEpoch_erase :
    validateStorageClusterMapHistoryFloorAtEpoch s.erase =
      validateStorageClusterMapHistoryFloorAtEpoch s := by
  funext heartbeat maxFloorEpoch
  unfold validateStorageClusterMapHistoryFloorAtEpoch
  rw [reconstructedPgRouteAtEpoch_erase]
  rfl

theorem historicalPendingFrom_erase (nodeId : NodeId)
    (observations : List NodePgHeartbeatObservation) (seen : List PgId) :
    historicalPendingFrom s.erase nodeId observations seen =
      historicalPendingFrom s nodeId observations seen := by
  induction observations generalizing seen with
  | nil => rfl
  | cons observation rest ih =>
    unfold historicalPendingFrom
    simp only [validatePendingMetadataCommandReporter_erase, ih]
    rfl

theorem historicalPendingActiveFrom_erase (nodeId : NodeId)
    (observations : List NodePgHeartbeatObservation) (seen : List PgId) :
    historicalPendingActiveFrom s.erase nodeId observations seen =
      historicalPendingActiveFrom s nodeId observations seen := by
  induction observations generalizing seen with
  | nil => rfl
  | cons observation rest ih =>
    unfold historicalPendingActiveFrom validatePgHeartbeatObservation
    simp only [validatePendingMetadataCommandReporter_erase, ih]
    rfl

end Checks

/-! ### The rewritten record -/

section Record

variable {record : NodeControlRecord} {heartbeat : NodeHeartbeat}

/-- The process of a record after the heartbeat has not accepted its scan yet. -/
theorem NodeControlRecord.NewScan.accepts (h : record.NewScan heartbeat) :
    (record.observeProcess heartbeat).clusterMapHistoryRouteScanGeneration.any
      (heartbeat.clusterMapHistoryRouteScanGeneration ≤ ·) = false := by
  show (if record.nodeIncarnation < heartbeat.nodeIncarnation then none
    else record.clusterMapHistoryRouteScanGeneration).any _ = false
  by_cases hprocess : record.nodeIncarnation < heartbeat.nodeIncarnation
  · rw [if_pos hprocess]
    rfl
  · rw [if_neg hprocess]
    cases hgeneration : record.clusterMapHistoryRouteScanGeneration with
    | none => rfl
    | some generation =>
      have hnewer := h.resolve_left hprocess generation hgeneration
      exact decide_eq_false (not_le.mpr hnewer)

theorem NodeControlRecord.NewScan.erase (h : record.NewScan heartbeat) :
    record.erase.NewScan heartbeat := by
  refine h.imp_right fun hnewer generation hgeneration => ?_
  change (if _ then none else record.clusterMapHistoryRouteScanGeneration.map fun _ => 0) = _
    at hgeneration
  split at hgeneration
  · cases hgeneration
  · obtain ⟨scan, hscan, rfl⟩ := Option.map_eq_some_iff.mp hgeneration
    exact (Nat.zero_le scan).trans_lt (hnewer scan hscan)

/-- Recording a new scan overwrites the scan of the record. -/
theorem NodeControlRecord.NewScan.renewLease (h : record.NewScan heartbeat)
    (availability : NodeAvailabilityState) (heartbeatAtMs leaseDeadlineMs : Nat) :
    ({ record.observeProcess heartbeat with observedAvailability := availability } :
        NodeControlRecord).renewLease heartbeat heartbeatAtMs leaseDeadlineMs =
      { record with
        nodeIncarnation := max record.nodeIncarnation heartbeat.nodeIncarnation
        endpoint := heartbeat.endpoint
        observedAvailability := availability
        lastObservedEpoch := (record.recordObservedEpoch heartbeat.observedEpoch).lastObservedEpoch
        lastHeartbeatMs := some heartbeatAtMs
        leaseDeadlineMs := some leaseDeadlineMs
        clusterMapHistoryRouteReferences := heartbeat.clusterMapHistoryRouteReferences
        retiringClusterMapHistoryRouteReferences :=
          record.clusterMapHistoryRouteReferences.filter fun reference =>
            !heartbeat.clusterMapHistoryRouteReferences.contains reference
        clusterMapHistoryRouteScanGeneration := some heartbeat.clusterMapHistoryRouteScanGeneration
        pgObservations := ∅ } := by
  exact congrArg (fun renewed : NodeControlRecord => { renewed with pgObservations := ∅ })
    (if_neg (Bool.eq_false_iff.mp h.accepts))

/-- **The record after a new scan is the same when the record was erased before.** -/
theorem NodeControlRecord.NewScan.renewLease_erase (h : record.NewScan heartbeat)
    (availability : NodeAvailabilityState) (heartbeatAtMs leaseDeadlineMs : Nat) :
    ({ record.erase.observeProcess heartbeat with observedAvailability := availability } :
        NodeControlRecord).renewLease heartbeat heartbeatAtMs leaseDeadlineMs =
      ({ record.observeProcess heartbeat with observedAvailability := availability } :
        NodeControlRecord).renewLease heartbeat heartbeatAtMs leaseDeadlineMs := by
  rw [h.erase.renewLease, h.renewLease]
  rfl

end Record

/-! ### After the record is rewritten -/

theorem NodeControlRecord.erase_erase (record : NodeControlRecord) :
    record.erase.erase = record.erase := by
  have hscan : record.erase.erase.clusterMapHistoryRouteScanGeneration =
      record.erase.clusterMapHistoryRouteScanGeneration := by
    by_cases hempty : record.clusterMapHistoryRouteReferences.isEmpty ∧
        record.retiringClusterMapHistoryRouteReferences.isEmpty
    · exact (if_pos hempty).trans (if_pos hempty).symm
    · refine (if_neg hempty).trans ?_
      unfold NodeControlRecord.erase
      rw [if_neg hempty, Option.map_map]
      rfl
  exact congrArg (fun scan => { record.erase with clusterMapHistoryRouteScanGeneration := scan })
    hscan

theorem ClusterControlSnapshot.erase_erase (s : ClusterControlSnapshot) :
    s.erase.erase = s.erase := by
  simp only [erase, ExtTreeMap.map_map, NodeControlRecord.erase_erase]

/-- Rewriting a record that comes out the same when it was erased before. -/
theorem erase_modifyNode_overwrite (s : ClusterControlSnapshot) (nodeId : NodeId)
    (hf : ∀ record, s.nodes[nodeId]? = some record → f record.erase = f record) :
    (s.erase.modifyNode nodeId f).erase = (s.modifyNode nodeId f).erase := by
  have hnodes : (s.erase.modifyNode nodeId f).erase.nodes =
      (s.modifyNode nodeId f).erase.nodes := by
    refine ExtTreeMap.ext_getElem? fun k => ?_
    rw [erase_getElem?, erase_getElem?]
    show Option.map _ (s.erase.nodes.modify nodeId f)[k]? =
      Option.map _ (s.nodes.modify nodeId f)[k]?
    rw [getElem?_modify_eq, getElem?_modify_eq, erase_getElem?]
    split
    · next hk =>
      rw [Option.map_map, Option.map_map, Option.map_map]
      exact Option.map_congr fun record hrecord =>
        congrArg NodeControlRecord.erase (hf record (hk ▸ hrecord))
    · rw [Option.map_map]
      exact congrFun (congrArg Option.map (funext NodeControlRecord.erase_erase)) _
  exact congrArg (fun nodes => { s.erase with nodes := nodes }) hnodes

theorem fenceAfterHeartbeat_erase (next previous : ClusterControlSnapshot) (nodeId : NodeId)
    (pendingIds : List PgId) (fenceNode epochChanged : Bool) :
    fenceAfterHeartbeat next.erase previous.erase nodeId pendingIds fenceNode epochChanged =
      ClusterControlSnapshot.erase <$>
        fenceAfterHeartbeat next previous nodeId pendingIds fenceNode epochChanged := by
  unfold fenceAfterHeartbeat
  simp only [erase_markPgsPeeringForPgIds, erase_markPgsPeeringForNodes]
  cases epochChanged with
  | false => rfl
  | true =>
    cases fenceNode with
    | false => exact erase_bumpEpoch _
    | true => exact erase_bumpEpoch _

/-- What a stale heartbeat does after it has rewritten its record. -/
def finishStaleHeartbeat (nodeId : NodeId) (pendings : List NodePgHeartbeatObservation)
    (heartbeatAtMs : Nat) (processChanged : Bool) (self next : ClusterControlSnapshot) :
    Except ControlPlaneError ClusterControlSnapshot := do
  let pendingIds := pendings.map (·.pgId)
  let next ← fenceAfterHeartbeat next self nodeId pendingIds processChanged
    (processChanged || newlyPeering next pendingIds != [])
  pure (next.modifyNode nodeId fun node =>
    node.insertObservations pendings (some .peering) next.clusterEpoch heartbeatAtMs)

variable (heartbeat : NodeHeartbeat)

/-- What a current heartbeat does after it has rewritten its record. -/
def finishCurrentHeartbeat (pendings : List NodePgHeartbeatObservation)
    (heartbeatAtMs : Nat) (affected : Bool) (self next : ClusterControlSnapshot) :
    Except ControlPlaneError ClusterControlSnapshot := do
  let epochChanged := affected || pendings != []
  let next ← fenceAfterHeartbeat (heartbeat.pgObservations.foldl (fun next observation =>
      next.modifyPg observation.pgId fun pg =>
        pg.advanceActiveProof heartbeat.nodeId heartbeat.observedEpoch affected observation) next)
    self heartbeat.nodeId (pendings.map (·.pgId)) affected epochChanged
  pure (if epochChanged then next.modifyNode heartbeat.nodeId fun node =>
      node.insertObservations pendings (some .peering) next.clusterEpoch heartbeatAtMs
    else next)

section Finish

variable (self next : ClusterControlSnapshot)

theorem finishStaleHeartbeat_erase (nodeId : NodeId) (heartbeatAtMs : Nat) (processChanged : Bool) :
    finishStaleHeartbeat nodeId pendings heartbeatAtMs processChanged self.erase next.erase =
      ClusterControlSnapshot.erase <$>
        finishStaleHeartbeat nodeId pendings heartbeatAtMs processChanged self next := by
  unfold finishStaleHeartbeat
  simp only [fenceAfterHeartbeat_erase, bind_map_left, map_bind, map_pure]
  refine bind_congr fun fenced => congrArg pure ?_
  exact erase_modifyNode fenced nodeId fun _ => rfl

theorem finishCurrentHeartbeat_erase (heartbeat : NodeHeartbeat)
    (heartbeatAtMs : Nat) (affected : Bool) :
    finishCurrentHeartbeat heartbeat pendings heartbeatAtMs affected self.erase next.erase =
      ClusterControlSnapshot.erase <$>
        finishCurrentHeartbeat heartbeat pendings heartbeatAtMs affected self next := by
  have hfold := erase_foldl next (f := fun next observation =>
    next.modifyPg observation.pgId fun pg =>
      pg.advanceActiveProof heartbeat.nodeId heartbeat.observedEpoch affected observation)
    (fun _ _ => rfl) heartbeat.pgObservations
  unfold finishCurrentHeartbeat
  simp only [hfold, fenceAfterHeartbeat_erase, bind_map_left, map_bind, map_pure]
  refine bind_congr fun fenced => congrArg pure ?_
  rw [apply_ite erase]
  exact if_congr Iff.rfl (erase_modifyNode fenced heartbeat.nodeId fun _ => rfl) rfl

end Finish

/-! ### The flag -/

/-- The process of a node and its last accepted scan. -/
def ClusterControlSnapshot.scanOf (s : ClusterControlSnapshot) (nodeId : NodeId) :
    Option (Nat × Option Nat) :=
  s.nodes[nodeId]?.map fun record =>
    (record.nodeIncarnation, record.clusterMapHistoryRouteScanGeneration)

section Scans

variable {s t self next : ClusterControlSnapshot} {nodeId : NodeId}

/-- What a heartbeat does once the record of its node is rewritten: it changes PGs, advances the
epoch and notes the pending commands of the node. -/
inductive Finishes (nodeId : NodeId) (pendings : List NodePgHeartbeatObservation)
    (s : ClusterControlSnapshot) : ClusterControlSnapshot → Prop
  | refl : Finishes nodeId pendings s s
  | pgs {t : ClusterControlSnapshot} (prior : Finishes nodeId pendings s t)
      (pgs : BTreeMap PgId PgControlRecord) : Finishes nodeId pendings s { t with pgs := pgs }
  | bumpEpoch {t u : ClusterControlSnapshot} (prior : Finishes nodeId pendings s t)
      (h : t.bumpEpoch = .ok u) : Finishes nodeId pendings s u
  | observe {t : ClusterControlSnapshot} (prior : Finishes nodeId pendings s t)
      (state : Option PgState) (observedEpoch : ClusterEpoch) (observedAtMs : Nat) :
      Finishes nodeId pendings s (t.modifyNode nodeId fun node =>
        node.insertObservations pendings state observedEpoch observedAtMs)

theorem Finishes.foldl_modifyPg {α : Type} {pgId : α → PgId}
    {f : α → PgControlRecord → PgControlRecord} (h : Finishes k pendings s t) (entries : List α) :
    Finishes k pendings s
      (entries.foldl (fun next entry => next.modifyPg (pgId entry) (f entry)) t) := by
  induction entries generalizing t with
  | nil => exact h
  | cons entry rest ih => exact ih (h.pgs _)

theorem Finishes.fence {pendingIds : List PgId} {fenceNode epochChanged : Bool}
    (h : Finishes k pendings s t)
    (hfence : fenceAfterHeartbeat t self nodeId pendingIds fenceNode epochChanged = .ok next) :
    Finishes k pendings s next := by
  have hmarked := h.pgs (markPgsPeeringForPgIds t self pendingIds).pgs
  cases epochChanged with
  | false =>
    cases hfence
    exact hmarked
  | true =>
    cases fenceNode with
    | false => exact hmarked.bumpEpoch hfence
    | true => exact (hmarked.pgs _).bumpEpoch hfence

theorem finishes_of_stale {heartbeatAtMs : Nat} {processChanged : Bool}
    (h : finishStaleHeartbeat k pendings heartbeatAtMs processChanged self s = .ok next) :
    Finishes k pendings s next := by
  simp only [finishStaleHeartbeat, bind_eq_ok, pure_eq_ok] at h
  obtain ⟨fenced, hfence, rfl⟩ := h
  exact (Finishes.refl.fence hfence).observe ..

theorem finishes_of_current {heartbeat : NodeHeartbeat} {heartbeatAtMs : Nat} {affected : Bool}
    (h : finishCurrentHeartbeat heartbeat pendings heartbeatAtMs affected self s = .ok next) :
    Finishes heartbeat.nodeId pendings s next := by
  simp only [finishCurrentHeartbeat, bind_eq_ok, pure_eq_ok] at h
  obtain ⟨fenced, hfence, rfl⟩ := h
  have hfenced : Finishes heartbeat.nodeId pendings s fenced :=
    (Finishes.refl.foldl_modifyPg _).fence hfence
  split
  · exact hfenced.observe ..
  · exact hfenced

theorem Finishes.scanOf (h : Finishes k pendings s t) : t.scanOf nodeId = s.scanOf nodeId := by
  induction h with
  | refl => rfl
  | pgs _ _ ih => exact ih
  | @bumpEpoch t u _ h ih =>
    obtain ⟨-, rfl⟩ := bumpEpoch_eq_ok h
    refine Eq.trans ?_ ih
    show Option.map _ (t.nodes.map fun _ record => _)[nodeId]? = Option.map _ t.nodes[nodeId]?
    rw [ExtTreeMap.getElem?_map, Option.map_map]
    rfl
  | @observe t _ _ _ _ ih =>
    refine Eq.trans ?_ ih
    show Option.map _ (t.nodes.modify k _)[nodeId]? = Option.map _ t.nodes[nodeId]?
    rw [getElem?_modify_eq]
    split
    · rw [Option.map_map]
      rfl
    · rfl

end Scans

/-! ### Heartbeats -/

/-- Results that are the same once erased. -/
def ErasedAlike (x y : Except ControlPlaneError AppliedControlPlaneCommand) : Prop :=
  AppliedControlPlaneCommand.erase <$> x = AppliedControlPlaneCommand.erase <$> y

theorem ErasedAlike.bind {α : Type} {x : Except ControlPlaneError α}
    {g g' : α → Except ControlPlaneError AppliedControlPlaneCommand}
    (h : ∀ a, x = .ok a → ErasedAlike (g a) (g' a)) : ErasedAlike (x >>= g) (x >>= g') := by
  cases x with
  | error e => rfl
  | ok a => exact h a rfl

/-- The result of a heartbeat that leads to `next`. -/
def heartbeatApplied (s next : ClusterControlSnapshot) : AppliedControlPlaneCommand :=
  appliedControlPlaneCommand s next .recordNodeHeartbeat (decide (next ≠ s))

section Heartbeat

variable {s : ClusterControlSnapshot} {heartbeat : NodeHeartbeat}

/-- The flag of a heartbeat whose scan is new. -/
theorem ne_of_newScan {t next : ClusterControlSnapshot} {record : NodeControlRecord}
    (hrecord : s.nodes[heartbeat.nodeId]? = some record) (hnodes : t.nodes = s.nodes)
    (hnew : record.NewScan heartbeat)
    (hinc : (f record).nodeIncarnation = max record.nodeIncarnation heartbeat.nodeIncarnation)
    (hscan : (f record).clusterMapHistoryRouteScanGeneration =
      some heartbeat.clusterMapHistoryRouteScanGeneration)
    (hnext : next.scanOf heartbeat.nodeId =
      (t.modifyNode heartbeat.nodeId f).scanOf heartbeat.nodeId) :
    next ≠ s := by
  rintro rfl
  have hafter : (t.modifyNode heartbeat.nodeId f).scanOf heartbeat.nodeId =
      some ((f record).nodeIncarnation, (f record).clusterMapHistoryRouteScanGeneration) := by
    show Option.map _ (t.nodes.modify heartbeat.nodeId f)[heartbeat.nodeId]? = _
    rw [getElem?_modify_eq, if_pos rfl, hnodes, hrecord]
    rfl
  have hbefore : next.scanOf heartbeat.nodeId =
      some (record.nodeIncarnation, record.clusterMapHistoryRouteScanGeneration) := by
    show Option.map _ next.nodes[heartbeat.nodeId]? = _
    rw [hrecord]
    rfl
  rw [hbefore, hafter, hinc, hscan, Option.some.injEq, Prod.mk.injEq] at hnext
  rcases hnew with hprocess | hnewer
  · exact absurd (hnext.1 ▸ le_max_right _ _) (not_le.mpr hprocess)
  · exact lt_irrefl _ (hnewer _ hnext.2)

/-- A heartbeat that leads to another snapshot, erased. -/
theorem erase_heartbeatApplied {x : Except ControlPlaneError ClusterControlSnapshot}
    (h : ∀ next, x = .ok next → next ≠ s) :
    AppliedControlPlaneCommand.erase <$> (x >>= fun next => pure (heartbeatApplied s next)) =
      (appliedControlPlaneCommand s.erase · .recordNodeHeartbeat true) <$> erase <$> x := by
  cases x with
  | error e => rfl
  | ok next =>
    show Except.ok (heartbeatApplied s next).erase = Except.ok _
    rw [heartbeatApplied, decide_eq_true (h next rfl), ← erase_applied]

end Heartbeat

/-- The record that a stale heartbeat writes. -/
def NodeControlRecord.afterStaleHeartbeat (heartbeatAtMs leaseDeadlineMs : Nat)
    (record : NodeControlRecord) : NodeControlRecord :=
  (record.observeProcess heartbeat).renewLease heartbeat heartbeatAtMs leaseDeadlineMs

/-- The record that a current heartbeat writes. -/
def NodeControlRecord.afterCurrentHeartbeat (heartbeatAtMs leaseDeadlineMs : Nat)
    (record : NodeControlRecord) : NodeControlRecord :=
  ({ record.observeProcess heartbeat with observedAvailability := .healthy }.renewLease heartbeat
    heartbeatAtMs leaseDeadlineMs).insertObservations heartbeat.pgObservations none
    heartbeat.observedEpoch heartbeatAtMs

/-- The snapshot with the rewritten record of the heartbeat's node. -/
def ClusterControlSnapshot.rewriteNode (self : ClusterControlSnapshot) (nodeId : NodeId)
    (heartbeatAtMs : Nat) (f : NodeControlRecord → NodeControlRecord) : ClusterControlSnapshot :=
  ((self.recordCommittedTimestamp heartbeatAtMs).modifyNode nodeId
    f).removeUnavailableNodeObservation nodeId

section Arms

variable {s : ClusterControlSnapshot} {heartbeat : NodeHeartbeat} {record : NodeControlRecord}
  {heartbeatAtMs leaseDeadlineMs : Nat} {authority : Option LeaseHorizonAuthorityBinding}

theorem recordStaleHeartbeat_eq :
    recordStaleHeartbeat s record heartbeat heartbeatAtMs leaseDeadlineMs authority = (do
      validateStorageClusterMapHistoryFloorAtEpoch s heartbeat s.clusterEpoch
      let pendings ← validateHistoricalPendingPgHeartbeatObservations s heartbeat.nodeId
        heartbeat.pgObservations
      let covered ← s.establishHeartbeatLeaseHorizon authority heartbeatAtMs leaseDeadlineMs
      finishStaleHeartbeat heartbeat.nodeId pendings heartbeatAtMs (record.processChanges heartbeat)
        s (covered.rewriteNode heartbeat.nodeId heartbeatAtMs
          (.afterStaleHeartbeat heartbeat heartbeatAtMs leaseDeadlineMs)) >>= fun next =>
        pure (heartbeatApplied s next)) := by
  unfold recordStaleHeartbeat finishStaleHeartbeat
  simp only [bind_assoc, pure_bind]
  rfl

theorem recordCurrentHeartbeat_eq :
    recordCurrentHeartbeat s record heartbeat heartbeatAtMs leaseDeadlineMs authority = (do
      validateStorageClusterMapHistoryFloorAtEpoch s heartbeat heartbeat.observedEpoch
      let pendings ← validatePgHeartbeatObservations s heartbeat.nodeId heartbeat.pgObservations
      let covered ← s.establishHeartbeatLeaseHorizon authority heartbeatAtMs leaseDeadlineMs
      finishCurrentHeartbeat heartbeat pendings heartbeatAtMs
        (record.processChanges heartbeat ||
          (record.observedAvailability != .healthy && record.administrativelyAvailable))
        s (covered.rewriteNode heartbeat.nodeId heartbeatAtMs
          (.afterCurrentHeartbeat heartbeat heartbeatAtMs leaseDeadlineMs)) >>= fun next =>
        pure (heartbeatApplied s next)) := by
  unfold recordCurrentHeartbeat finishCurrentHeartbeat
  simp only [bind_assoc, pure_bind]
  rfl

/-- The end of both heartbeat arms: the checks before it agree, and `f` writes the same record
whether or not the snapshot was erased before. -/
theorem heartbeat_erase {covered : ClusterControlSnapshot}
    (hcover : s.establishHeartbeatLeaseHorizon authority heartbeatAtMs leaseDeadlineMs =
      .ok covered) (hrecord : s.nodes[heartbeat.nodeId]? = some record)
    (hnew : record.NewScan heartbeat) (hf : f record.erase = f record)
    (hinc : (f record).nodeIncarnation = max record.nodeIncarnation heartbeat.nodeIncarnation)
    (hscan : (f record).clusterMapHistoryRouteScanGeneration =
      some heartbeat.clusterMapHistoryRouteScanGeneration)
    (hfinish : ∀ self next, finish self.erase next.erase =
      ClusterControlSnapshot.erase <$> finish self next)
    (hkeeps : ∀ self next result, finish self next = .ok result →
      result.scanOf heartbeat.nodeId = next.scanOf heartbeat.nodeId) :
    ErasedAlike
      (finish s.erase (covered.erase.rewriteNode heartbeat.nodeId heartbeatAtMs f) >>= fun next =>
        pure (heartbeatApplied s.erase next))
      (finish s (covered.rewriteNode heartbeat.nodeId heartbeatAtMs f) >>= fun next =>
        pure (heartbeatApplied s next)) := by
  have hnodes := establishHeartbeatLeaseHorizon_nodes hcover
  have hrecord' : s.erase.nodes[heartbeat.nodeId]? = some record.erase := by
    rw [erase_getElem?, hrecord]
    rfl
  have hnodes' : covered.erase.nodes = s.erase.nodes :=
    congrArg (fun nodes : BTreeMap NodeId NodeControlRecord =>
      nodes.map fun _ (record : NodeControlRecord) => record.erase) hnodes
  unfold ErasedAlike
  rw [erase_heartbeatApplied, erase_heartbeatApplied, s.erase_erase, ← hfinish, ← hfinish,
    s.erase_erase]
  · have hover := erase_modifyNode_overwrite (covered.recordCommittedTimestamp heartbeatAtMs)
      heartbeat.nodeId (f := f) fun other hother => by
        have hsame : s.nodes[heartbeat.nodeId]? = some other := hnodes ▸ hother
        cases hrecord.symm.trans hsame
        exact hf
    exact congrArg (fun next => _ <$> finish s.erase
      (next.removeUnavailableNodeObservation heartbeat.nodeId)) hover
  · intro next hnext
    have hkept := hkeeps _ _ _ hnext
    exact ne_of_newScan (t := covered.recordCommittedTimestamp heartbeatAtMs) hrecord hnodes hnew
      hinc hscan hkept
  · intro next hnext
    have hkept := hkeeps _ _ _ hnext
    exact ne_of_newScan (t := covered.erase.recordCommittedTimestamp heartbeatAtMs) hrecord' hnodes'
      hnew.erase (hf ▸ hinc) (hf ▸ hscan) hkept

theorem recordStaleHeartbeat_erase (hrecord : s.nodes[heartbeat.nodeId]? = some record)
    (hnew : record.NewScan heartbeat) :
    ErasedAlike (recordStaleHeartbeat s.erase record.erase heartbeat heartbeatAtMs leaseDeadlineMs
        authority)
      (recordStaleHeartbeat s record heartbeat heartbeatAtMs leaseDeadlineMs authority) := by
  have hwritten := hnew.renewLease record.observedAvailability heartbeatAtMs leaseDeadlineMs
  rw [recordStaleHeartbeat_eq, recordStaleHeartbeat_eq,
    validateStorageClusterMapHistoryFloorAtEpoch_erase,
    validateHistoricalPendingPgHeartbeatObservations, historicalPendingFrom_erase,
    erase_establishHeartbeatLeaseHorizon]
  refine .bind fun _ _ => .bind fun pendings _ => ?_
  rw [bind_map_left]
  refine .bind fun covered hcover => ?_
  exact heartbeat_erase hcover hrecord hnew
    (hnew.renewLease_erase record.observedAvailability heartbeatAtMs leaseDeadlineMs)
    (congrArg NodeControlRecord.nodeIncarnation hwritten)
    (congrArg NodeControlRecord.clusterMapHistoryRouteScanGeneration hwritten)
    (fun self next => finishStaleHeartbeat_erase self next _ _ _)
    fun self next result h => (finishes_of_stale h).scanOf

theorem recordCurrentHeartbeat_erase (hrecord : s.nodes[heartbeat.nodeId]? = some record)
    (hnew : record.NewScan heartbeat) :
    ErasedAlike (recordCurrentHeartbeat s.erase record.erase heartbeat heartbeatAtMs leaseDeadlineMs
        authority)
      (recordCurrentHeartbeat s record heartbeat heartbeatAtMs leaseDeadlineMs authority) := by
  have hwritten := hnew.renewLease .healthy heartbeatAtMs leaseDeadlineMs
  rw [recordCurrentHeartbeat_eq, recordCurrentHeartbeat_eq,
    validateStorageClusterMapHistoryFloorAtEpoch_erase, validatePgHeartbeatObservations,
    historicalPendingActiveFrom_erase, erase_establishHeartbeatLeaseHorizon]
  refine .bind fun _ _ => .bind fun pendings _ => ?_
  rw [bind_map_left]
  refine .bind fun covered hcover => ?_
  refine heartbeat_erase hcover hrecord hnew ?_
    (congrArg NodeControlRecord.nodeIncarnation hwritten)
    (congrArg NodeControlRecord.clusterMapHistoryRouteScanGeneration hwritten)
    (fun self next => finishCurrentHeartbeat_erase self next _ _ _)
    fun self next result h => (finishes_of_current h).scanOf
  unfold NodeControlRecord.afterCurrentHeartbeat
  rw [hnew.renewLease_erase]

/-- **A heartbeat with a new scan takes a snapshot and its erasure to the same state.** -/
theorem applyRecordNodeHeartbeat_erase
    (hnew : ∀ record, s.nodes[heartbeat.nodeId]? = some record → record.NewScan heartbeat) :
    ErasedAlike
      (applyRecordNodeHeartbeat s.erase heartbeat heartbeatAtMs leaseDeadlineMs authority)
      (applyRecordNodeHeartbeat s heartbeat heartbeatAtMs leaseDeadlineMs authority) := by
  unfold applyRecordNodeHeartbeat
  rw [validateHeartbeat_erase, bind_map_left]
  refine .bind fun record hvalid => ?_
  have hrecord := (validateHeartbeat_eq_ok hvalid).1
  rw [show s.erase.clusterEpoch = s.clusterEpoch from rfl]
  split
  · exact recordStaleHeartbeat_erase hrecord (hnew record hrecord)
  · exact recordCurrentHeartbeat_erase hrecord (hnew record hrecord)

end Arms

/-! ### Every command -/

section Commands

variable {s t : ClusterControlSnapshot} {command : ControlPlaneCommand}

theorem applyArm_erase_of_new (h : command.ScanIsNew s) :
    ErasedAlike (applyArm s.erase command) (applyArm s command) := by
  by_cases hheartbeat : command.IsHeartbeat
  · cases command with
    | recordNodeHeartbeat heartbeat heartbeatAtMs leaseDeadlineMs authority =>
      exact applyRecordNodeHeartbeat_erase h
    | _ => exact absurd hheartbeat id
  · have herase : ∀ a : AppliedControlPlaneCommand, a.erase.erase = a.erase := fun a =>
      congrArg (fun snapshot => { a with snapshot := snapshot }) a.snapshot.erase_erase
    rw [ErasedAlike, applyArm_erase s hheartbeat, Functor.map_map]
    exact congrArg (· <$> applyArm s command) (funext herase)

/-- A validated result, erased, is the validated erased result. -/
theorem erase_applyControlPlaneCommand :
    AppliedControlPlaneCommand.erase <$> applyControlPlaneCommand s command = (do
      let applied ← AppliedControlPlaneCommand.erase <$> applyArm s command
      validateControlPlaneSnapshot "control-plane command produced invalid snapshot"
        applied.snapshot
      pure applied) := by
  unfold applyControlPlaneCommand
  rw [map_bind, bind_map_left]
  refine bind_congr fun applied => ?_
  rw [map_bind]
  show _ = validateControlPlaneSnapshot _ applied.snapshot.erase >>= _
  rw [validateControlPlaneSnapshot_erase]
  rfl

/-- **Snapshots that agree once erased go through a command alike.** -/
theorem applyControlPlaneCommand_congr (hst : s.erase = t.erase) (hs : command.ScanIsNew s)
    (ht : command.ScanIsNew t) :
    ErasedAlike (applyControlPlaneCommand s command) (applyControlPlaneCommand t command) := by
  rw [ErasedAlike, erase_applyControlPlaneCommand, erase_applyControlPlaneCommand,
    ← show _ = _ from applyArm_erase_of_new hs,
    ← show _ = _ from applyArm_erase_of_new ht, hst]

end Commands

end Argmin.ControlPlane
