import Argmin.ControlPlane.FreshHeartbeat
import Argmin.ControlPlane.Unchanged

/-!
# The overlay and the committed commands

A live snapshot is obtained from the durable one by volatile heartbeats.  This file asks what the
committed commands see of it, once its leases have been promoted.

* `withoutLiveness_of_volatile` — a volatile heartbeat that reports the metadata log epochs on
  record changes only when the node was heard of, how long its lease is and which scan it reported;
* `erase_promote` — after the promotion the two snapshots agree once erased;
* `overlay_invisible` — **so every command that is not a heartbeat, and every heartbeat with a new
  scan, is accepted on one exactly when it is accepted on the other**, with the same response and
  flag, and results that differ only in liveness.

The check that a heartbeat is volatile does not compare metadata log epochs.
`overlay_visible_log_epoch` shows what follows: the activation of a PG then records another log
epoch in the live snapshot than in the durable one.
-/

namespace Argmin.ControlPlane

open SingleAuthorityControlPlane Option
open Fallible TreeMap NodeControlRecord ClusterControlSnapshot
open Std (ExtTreeMap)

variable {a : AppliedControlPlaneCommand} {observations pendings : List NodePgHeartbeatObservation}
  {heartbeatAtMs leaseDeadlineMs : Nat} {f : NodeControlRecord → NodeControlRecord}
  {authority : Option LeaseHorizonAuthorityBinding}

/-- A node record without when it was heard of, how long its lease is and which scan it
reported. -/
def NodeControlRecord.withoutLiveness (record : NodeControlRecord) : NodeControlRecord :=
  { record with
    lastHeartbeatMs := none
    leaseDeadlineMs := none
    clusterMapHistoryRouteScanGeneration := none }

def ClusterControlSnapshot.withoutLiveness (s : ClusterControlSnapshot) : ClusterControlSnapshot :=
  { s with nodes := s.nodes.map fun _ record => record.withoutLiveness }

/-- One step of the live snapshot: a heartbeat that is served from memory. -/
def volatileStep (live : ClusterControlSnapshot) (command : ControlPlaneCommand) :
    Option ClusterControlSnapshot :=
  match applyCoveredVolatileHeartbeat live command with
  | .ok next => next
  | .error _ => none

/-- A heartbeat reports the metadata log epochs that are on record for its node. -/
def ControlPlaneCommand.KeepsLogEpochs (live : ClusterControlSnapshot) :
    ControlPlaneCommand → Prop
  | .recordNodeHeartbeat heartbeat _ _ _ =>
    ∀ observation ∈ heartbeat.pgObservations,
      ∀ current ∈ live.nodes[heartbeat.nodeId]?.bind (·.pgObservations[observation.pgId]?),
        observation.metadataLogEpoch = current.metadataLogEpoch
  | _ => True

/-! ### What a heartbeat leaves alone -/

/-- The parts of a snapshot that no heartbeat writes. -/
structure SameElsewhere (s t : ClusterControlSnapshot) : Prop where
  topology : t.initialTopology = s.initialTopology
  transitions : t.unavailablePgPlacementTransitions = s.unavailablePgPlacementTransitions
  retained :
    t.retainedUnavailablePgPlacementTransitions = s.retainedUnavailablePgPlacementTransitions
  observations : t.unavailableNodeObservations = s.unavailableNodeObservations

section Heartbeat

variable {s t u : ClusterControlSnapshot} {heartbeat : NodeHeartbeat} {record : NodeControlRecord}

theorem SameElsewhere.refl (s : ClusterControlSnapshot) : SameElsewhere s s :=
  ⟨rfl, rfl, rfl, rfl⟩

theorem SameElsewhere.trans (h : SameElsewhere s t) (h' : SameElsewhere t u) : SameElsewhere s u :=
  ⟨h'.topology.trans h.topology, h'.transitions.trans h.transitions, h'.retained.trans h.retained,
    h'.observations.trans h.observations⟩

theorem SameElsewhere.of_establish {nowMs deadlineMs : Nat}
    (h : s.establishHeartbeatLeaseHorizon authority nowMs deadlineMs = .ok t) :
    SameElsewhere s t := by
  obtain ⟨horizon, rfl⟩ := establishHeartbeatLeaseHorizon_eq_ok h
  exact ⟨rfl, rfl, rfl, rfl⟩

theorem Finishes.elsewhere {nodeId : NodeId} (h : Finishes nodeId pendings s t) :
    SameElsewhere s t := by
  induction h with
  | refl => exact .refl s
  | pgs _ _ ih => exact ih.trans ⟨rfl, rfl, rfl, rfl⟩
  | bumpEpoch _ h ih =>
    obtain ⟨-, rfl⟩ := bumpEpoch_eq_ok h
    exact ih.trans ⟨rfl, rfl, rfl, rfl⟩
  | observe _ _ _ _ ih => exact ih.trans ⟨rfl, rfl, rfl, rfl⟩

/-! ### What a heartbeat reports -/

/-- Every PG observation of the record comes from the heartbeat, with its metadata log epoch. -/
def NodeControlRecord.Reported (record : NodeControlRecord) (heartbeat : NodeHeartbeat) : Prop :=
  ∀ (pgId : PgId) current, record.pgObservations[pgId]? = some current →
    ∃ observation ∈ heartbeat.pgObservations, observation.pgId = pgId ∧
      current.metadataLogEpoch = observation.metadataLogEpoch

theorem NodeControlRecord.Reported.insertObservations (h : record.Reported heartbeat)
    (hsub : ∀ observation ∈ observations, observation ∈ heartbeat.pgObservations)
    (state : Option PgState) (observedEpoch : ClusterEpoch) (observedAtMs : Nat) :
    (record.insertObservations observations state observedEpoch observedAtMs).Reported
      heartbeat := by
  induction observations generalizing record with
  | nil => exact h
  | cons observation rest ih =>
    have hfirst : (record.insertObservations [observation] state observedEpoch
        observedAtMs).Reported heartbeat := by
      intro pgId current hcurrent
      change (record.pgObservations.insert observation.pgId _)[pgId]? = some current at hcurrent
      rw [getElem?_insert_eq] at hcurrent
      split at hcurrent
      · next hpg =>
        cases hcurrent
        exact ⟨observation, hsub observation List.mem_cons_self, hpg, rfl⟩
      · exact h pgId current hcurrent
    exact ih hfirst fun other hother => hsub other (List.mem_cons_of_mem _ hother)

theorem NodeControlRecord.Reported.of_empty (h : record.pgObservations = ∅) :
    record.Reported heartbeat := by
  intro pgId current hcurrent
  rw [h, ExtTreeMap.getElem?_empty] at hcurrent
  cases hcurrent

/-- The record of the heartbeat's node has only what the heartbeat reported. -/
def ClusterControlSnapshot.ReportedBy (s : ClusterControlSnapshot) (heartbeat : NodeHeartbeat) :
    Prop :=
  ∀ record, s.nodes[heartbeat.nodeId]? = some record → record.Reported heartbeat

theorem reportedBy_modifyNode {g : NodeControlRecord → NodeControlRecord}
    (hg : ∀ record, s.nodes[heartbeat.nodeId]? = some record → (g record).Reported heartbeat) :
    (s.modifyNode heartbeat.nodeId g).ReportedBy heartbeat := by
  intro record hrecord
  change (s.nodes.modify heartbeat.nodeId g)[heartbeat.nodeId]? = some record at hrecord
  rw [getElem?_modify_eq, if_pos rfl] at hrecord
  obtain ⟨old, hold, rfl⟩ := map_eq_some_iff.mp hrecord
  exact hg old hold

theorem Finishes.reportedBy (h : Finishes heartbeat.nodeId pendings s t)
    (hsub : ∀ observation ∈ pendings, observation ∈ heartbeat.pgObservations)
    (hs : s.ReportedBy heartbeat) : t.ReportedBy heartbeat := by
  induction h with
  | refl => exact hs
  | pgs _ _ ih => exact ih
  | bumpEpoch _ h ih =>
    obtain ⟨-, rfl⟩ := bumpEpoch_eq_ok h
    intro record hrecord
    rw [ExtTreeMap.getElem?_map] at hrecord
    obtain ⟨old, -, rfl⟩ := map_eq_some_iff.mp hrecord
    exact .of_empty rfl
  | observe _ _ _ _ ih =>
    exact reportedBy_modifyNode fun record hrecord =>
      (ih record hrecord).insertObservations hsub _ _ _

/-- The generation of the last scan does not go back. -/
def NodeControlRecord.ScanGrows (old new : NodeControlRecord) : Prop :=
  ∀ generation, old.clusterMapHistoryRouteScanGeneration = some generation →
    ∃ later, new.clusterMapHistoryRouteScanGeneration = some later ∧ generation ≤ later

theorem NodeControlRecord.scanGrows_renewLease {availability : NodeAvailabilityState}
    (hprocess : ¬record.nodeIncarnation < heartbeat.nodeIncarnation) :
    record.ScanGrows (({ record.observeProcess heartbeat with
      observedAvailability := availability } : NodeControlRecord).renewLease heartbeat heartbeatAtMs
      leaseDeadlineMs) := by
  intro generation hgeneration
  have hscan : (record.observeProcess heartbeat).clusterMapHistoryRouteScanGeneration =
      some generation := (if_neg hprocess).trans hgeneration
  unfold renewLease recordClusterMapHistoryRouteReferences
  split
  · exact ⟨generation, hscan, le_rfl⟩
  · next hnew =>
    refine ⟨heartbeat.clusterMapHistoryRouteScanGeneration, rfl, ?_⟩
    change
      ¬Option.any _ (record.observeProcess heartbeat).clusterMapHistoryRouteScanGeneration = true
      at hnew
    rw [hscan, any_some, decide_eq_true_eq, not_le] at hnew
    exact hnew.le

/-- What an accepted heartbeat does outside the record of its node, and what it writes there. -/
structure HeartbeatWritten (s t : ClusterControlSnapshot) (heartbeat : NodeHeartbeat)
    (record : NodeControlRecord) : Prop where
  known : s.nodes[heartbeat.nodeId]? = some record
  elsewhere : SameElsewhere (s.removeUnavailableNodeObservation heartbeat.nodeId) t
  reported : t.ReportedBy heartbeat
  written : ∃ new : NodeControlRecord, t.scanOf heartbeat.nodeId =
      some (new.nodeIncarnation, new.clusterMapHistoryRouteScanGeneration) ∧
    new.nodeIncarnation = max record.nodeIncarnation heartbeat.nodeIncarnation ∧
    (¬record.nodeIncarnation < heartbeat.nodeIncarnation → record.ScanGrows new)

theorem elsewhere_rewriteNode (h : SameElsewhere s t) :
    SameElsewhere (s.removeUnavailableNodeObservation heartbeat.nodeId)
      (t.rewriteNode heartbeat.nodeId heartbeatAtMs f) :=
  ⟨h.topology, h.transitions, h.retained,
    congrArg (fun observations : BTreeMap NodeId NodeUnavailableObservation =>
      observations.erase heartbeat.nodeId) h.observations⟩

theorem reported_renewLease :
    (record.renewLease heartbeat heartbeatAtMs leaseDeadlineMs).Reported heartbeat :=
  .of_empty rfl

theorem incarnation_renewLease :
    (record.renewLease heartbeat heartbeatAtMs leaseDeadlineMs).nodeIncarnation =
      record.nodeIncarnation :=
  congrArg Prod.fst identity_renewLease.2

/-- What both heartbeat arms write: `f` rewrites the record of the node. -/
theorem heartbeatWritten_of_finishes {covered next : ClusterControlSnapshot}
    (hrecord : s.nodes[heartbeat.nodeId]? = some record)
    (hcover : s.establishHeartbeatLeaseHorizon authority heartbeatAtMs leaseDeadlineMs =
      .ok covered)
    (hsub : ∀ observation ∈ pendings, observation ∈ heartbeat.pgObservations)
    (hnext : Finishes heartbeat.nodeId pendings
      (covered.rewriteNode heartbeat.nodeId heartbeatAtMs f) next)
    (hreported : ∀ record, (f record).Reported heartbeat)
    (hinc : (f record).nodeIncarnation = max record.nodeIncarnation heartbeat.nodeIncarnation)
    (hgrows : ¬record.nodeIncarnation < heartbeat.nodeIncarnation → record.ScanGrows (f record)) :
    HeartbeatWritten s next heartbeat record := by
  refine ⟨hrecord, (elsewhere_rewriteNode (.of_establish hcover)).trans hnext.elsewhere,
    hnext.reportedBy hsub (reportedBy_modifyNode fun record _ => hreported record), f record, ?_,
    hinc, hgrows⟩
  rw [hnext.scanOf]
  show Option.map _ (covered.nodes.modify heartbeat.nodeId f)[heartbeat.nodeId]? = _
  rw [getElem?_modify_eq, if_pos rfl, establishHeartbeatLeaseHorizon_nodes hcover, hrecord]
  rfl

theorem heartbeatWritten_of_stale (hrecord : s.nodes[heartbeat.nodeId]? = some record)
    (h : recordStaleHeartbeat s record heartbeat heartbeatAtMs leaseDeadlineMs authority = .ok a) :
    ∃ next, HeartbeatWritten s next heartbeat record ∧
      a = heartbeatApplied s next := by
  rw [recordStaleHeartbeat_eq] at h
  simp only [bind_eq_ok, pure_eq_ok] at h
  obtain ⟨-, -, pendings, hpendings, covered, hcover, next, hnext, rfl⟩ := h
  refine ⟨next, heartbeatWritten_of_finishes hrecord hcover (fun observation hmem => ?_)
    (finishes_of_stale hnext) (fun record => reported_renewLease) incarnation_renewLease
    scanGrows_renewLease, rfl⟩
  exact List.mem_of_mem_filter (historicalPendingFrom_eq hpendings ▸ hmem)

theorem heartbeatWritten_of_current (hrecord : s.nodes[heartbeat.nodeId]? = some record)
    (h : recordCurrentHeartbeat s record heartbeat heartbeatAtMs leaseDeadlineMs authority =
      .ok a) :
    ∃ next, HeartbeatWritten s next heartbeat record ∧
      a = heartbeatApplied s next := by
  rw [recordCurrentHeartbeat_eq] at h
  simp only [bind_eq_ok, pure_eq_ok] at h
  obtain ⟨-, -, pendings, hpendings, covered, hcover, next, hnext, rfl⟩ := h
  refine ⟨next, heartbeatWritten_of_finishes hrecord hcover (fun observation hmem => ?_)
    (finishes_of_current hnext)
    (fun record => reported_renewLease.insertObservations (fun _ hmem => hmem) _ _ _)
    incarnation_renewLease scanGrows_renewLease, rfl⟩
  exact List.mem_of_mem_filter (historicalPendingActiveFrom_eq hpendings ▸ hmem)

theorem heartbeatWritten
    (h : applyRecordNodeHeartbeat s heartbeat heartbeatAtMs leaseDeadlineMs authority = .ok a) :
    ∃ record, HeartbeatWritten s a.snapshot heartbeat record := by
  simp only [applyRecordNodeHeartbeat, bind_eq_ok] at h
  obtain ⟨record, hvalid, h⟩ := h
  have hrecord := (validateHeartbeat_eq_ok hvalid).1
  have hwritten : ∃ next, HeartbeatWritten s next heartbeat record ∧
      a = heartbeatApplied s next := by
    split at h
    · exact heartbeatWritten_of_stale hrecord h
    · exact heartbeatWritten_of_current hrecord h
  obtain ⟨next, hnext, rfl⟩ := hwritten
  refine ⟨record, ?_⟩
  -- recording the history touches none of it
  unfold heartbeatApplied appliedControlPlaneCommand
  split
  · exact ⟨hnext.known, hnext.elsewhere.trans ⟨rfl, rfl, rfl, rfl⟩, hnext.reported, hnext.written⟩
  · exact hnext

end Heartbeat

/-! ### What validation says of a node -/

section Valid

variable {s : ClusterControlSnapshot} {nodeId : NodeId} {record : NodeControlRecord}

theorem unavailable_of_validate (h : validatePublicationInvariants s = .ok ())
    {observation : NodeUnavailableObservation}
    (hobservation : s.unavailableNodeObservations[nodeId]? = some observation)
    (hrecord : s.nodes[nodeId]? = some record) : record.observedAvailability = .unavailable := by
  simp only [validatePublicationInvariants, validateCurrentStateInvariants, bind_eq_ok] at h
  obtain ⟨-, -, -, -, -, -, _, hobservations, -⟩ := h
  have hvalid := forM_eq_ok.mp hobservations (nodeId, observation)
    (ExtTreeMap.mem_toList_iff_getElem?_eq_some.mpr hobservation)
  simp only [validateUnavailableNodeObservation, bind_eq_ok, okOr_eq_ok, failIf_eq_ok, hrecord,
    some.injEq, exists_const] at hvalid
  obtain ⟨-, node, rfl, -, -, hunavailable⟩ := hvalid
  exact not_not.mp fun hne => hunavailable (.inl hne)

/-- A record without a scan has no references. -/
def NodeControlRecord.Scanned (record : NodeControlRecord) : Prop :=
  record.clusterMapHistoryRouteScanGeneration = none →
    record.clusterMapHistoryRouteReferences.isEmpty ∧
      record.retiringClusterMapHistoryRouteReferences.isEmpty

theorem scanned_of_validate (h : validatePublicationInvariants s = .ok ())
    (hrecord : s.nodes[nodeId]? = some record) : record.Scanned := by
  intro hscan
  simp only [validatePublicationInvariants, validateCurrentStateInvariants, bind_eq_ok] at h
  obtain ⟨-, -, -, -, -, -, -, -, -, -, -, -, -, -, -, -, hnodes⟩ := h
  have hvalid := forM_eq_ok.mp hnodes record (mem_values.mpr ⟨nodeId, hrecord⟩)
  simp only [validateNodeRecord, bind_eq_ok, failIf_eq_ok, exists_const] at hvalid
  obtain ⟨-, -, -, -, -, -, -, -, hreferences, -⟩ := hvalid
  by_contra hsome
  exact hreferences ⟨hscan, not_and_or.mp hsome⟩

end Valid

/-! ### Volatile heartbeats -/

section Volatile

variable {live next : ClusterControlSnapshot} {current updated : NodeControlRecord}

/-- The observations of a PG in both records have the same metadata log epoch. -/
def NodeControlRecord.SameLogEpochs (current updated : NodeControlRecord) : Prop :=
  ∀ (pgId : PgId) old new, current.pgObservations[pgId]? = some old →
    updated.pgObservations[pgId]? = some new → new.metadataLogEpoch = old.metadataLogEpoch

/-- A volatile record has the observations of the one before, up to their metadata log epochs,
once their times are restored. -/
theorem pgObservations_keepObservationTimes (h : current.pgObservationStateMatches updated = true)
    (hlog : current.SameLogEpochs updated) :
    (updated.keepObservationTimes current).pgObservations = current.pgObservations := by
  simp only [pgObservationStateMatches, Bool.and_eq_true, beq_iff_eq,
    List.all_eq_true] at h
  obtain ⟨hsize, hmatch⟩ := h
  have hnew : ∀ (pgId : PgId) old, current.pgObservations[pgId]? = some old →
      ∃ new, updated.pgObservations[pgId]? = some new ∧ { new with
        observedAtMs := old.observedAtMs } = old := by
    intro pgId old hold
    have hentry := hmatch (pgId, old) (ExtTreeMap.mem_toList_iff_getElem?_eq_some.mpr hold)
    split at hentry
    · cases hentry
    · next new hnew =>
      simp only [Bool.and_eq_true, beq_iff_eq] at hentry
      obtain ⟨⟨⟨⟨hpgId, hstate⟩, hepoch⟩, hproof⟩, hpending⟩ := hentry
      refine ⟨new, hnew, ?_⟩
      have hlogEpoch := hlog pgId old new hold hnew
      rw [← hpgId, ← hstate, ← hepoch, ← hproof, ← hpending, hlogEpoch]
  refine ExtTreeMap.ext_getElem? fun pgId => ?_
  show (updated.pgObservations.map fun pgId observation => _)[pgId]? = _
  rw [ExtTreeMap.getElem?_map]
  cases hold : current.pgObservations[pgId]? with
  | some old =>
    obtain ⟨new, hnew, heq⟩ := hnew pgId old hold
    rw [hnew, map_some, map_some, getD_some, heq]
  | none =>
    have hnone : updated.pgObservations[pgId]? = none := by
      refine getElem?_eq_none_of_size_eq hsize (fun k old hold => ?_) hold
      obtain ⟨new, hnew, -⟩ := hnew k old hold
      exact ⟨new, hnew⟩
    rw [hnone]
    rfl

/-- The record after a volatile heartbeat. -/
theorem withoutLiveness_of_volatileUpdate (h : current.volatileUpdate updated = true)
    (hlog : current.SameLogEpochs updated) :
    (updated.keepObservationTimes current).withoutLiveness = current.withoutLiveness ∧
      updated.nodeIncarnation = current.nodeIncarnation := by
  simp only [volatileUpdate, Bool.and_eq_true, beq_iff_eq] at h
  obtain ⟨⟨⟨⟨⟨⟨⟨⟨⟨⟨hid, hmembership⟩, hadmin⟩, havailability⟩, hinc⟩, hendpoint⟩, hobserved⟩,
    hreferences⟩, hretiring⟩, -⟩, hstate⟩ := h
  have hobservations := pgObservations_keepObservationTimes hstate hlog
  refine ⟨?_, hinc.symm⟩
  unfold NodeControlRecord.withoutLiveness
  rw [hobservations]
  unfold keepObservationTimes
  rw [hid, hmembership, hadmin, havailability, hinc, hendpoint, hobserved, hreferences, hretiring]

/-- Scans of known nodes grow, and their processes stay. -/
def ScansGrow (s t : ClusterControlSnapshot) : Prop :=
  ∀ (nodeId : NodeId) old, s.nodes[nodeId]? = some old → ∃ new, t.nodes[nodeId]? = some new ∧
    new.nodeIncarnation = old.nodeIncarnation ∧ old.ScanGrows new

theorem NodeControlRecord.ScanGrows.refl (record : NodeControlRecord) : record.ScanGrows record :=
  fun generation h => ⟨generation, h, le_rfl⟩

theorem volatileStep_eq_some {command : ControlPlaneCommand}
    (h : volatileStep live command = some next) :
    applyCoveredVolatileHeartbeat live command = .ok (some next) := by
  unfold volatileStep at h
  split at h
  · next result happ => exact happ.trans (congrArg _ h)
  · cases h

/-- **A volatile heartbeat that reports the log epochs on record changes only liveness.** -/
theorem withoutLiveness_of_volatile {command : ControlPlaneCommand}
    (hvalid : validatePublicationInvariants live = .ok ()) (hkeeps : command.KeepsLogEpochs live)
    (h : volatileStep live command = some next) :
    next.withoutLiveness = live.withoutLiveness ∧ ScansGrow live next := by
  obtain ⟨heartbeat, heartbeatAtMs, leaseDeadlineMs, authority, applied, rfl, hcovers, happlied,
    hvolatile, -, rfl⟩ := applyCoveredVolatileHeartbeat_eq_ok (volatileStep_eq_some h)
  obtain ⟨record, hwritten⟩ := heartbeatWritten (applyControlPlaneCommand_eq_ok happlied).1
  obtain ⟨hincarnation, hepoch, hhorizon, hpgs, hhistory, habsent, hnodes⟩ :=
    volatile_of_heartbeatUpdateIsVolatile hvolatile
  -- the observations of the node's PGs have the log epochs they had
  have hlog : ∀ updated, applied.snapshot.nodes[heartbeat.nodeId]? = some updated →
      record.SameLogEpochs updated := by
    intro updated hupdated pgId old new hold hnew
    obtain ⟨observation, hmem, rfl, hepoch⟩ := hwritten.reported updated hupdated pgId new hnew
    rw [hepoch]
    refine hkeeps observation hmem old ?_
    rw [hwritten.known]
    exact hold
  have hrewritten : ∀ updated, applied.snapshot.nodes[heartbeat.nodeId]? = some updated →
      record.volatileUpdate updated = true := by
    intro updated hupdated
    obtain ⟨other, hother, hvolatile⟩ := hnodes heartbeat.nodeId record hwritten.known
    cases hupdated.symm.trans hother
    simpa using hvolatile
  rw [hwritten.known]
  constructor
  · have hobservations : applied.snapshot.unavailableNodeObservations =
        live.unavailableNodeObservations := by
      rw [hwritten.elsewhere.observations]
      refine ExtTreeMap.ext_getElem? fun k => ?_
      show (live.unavailableNodeObservations.erase heartbeat.nodeId)[k]? = _
      rw [getElem?_erase_eq]
      by_cases hk : heartbeat.nodeId = k
      · subst hk
        rw [if_pos rfl]
        cases hobservation : live.unavailableNodeObservations[heartbeat.nodeId]? with
        | none => rfl
        | some observation =>
          -- the node of a volatile heartbeat is healthy
          have hunavailable := unavailable_of_validate hvalid hobservation hwritten.known
          simp [coversVolatileHeartbeat, hwritten.known,
            hunavailable] at hcovers
      · rw [if_neg hk]
    have hrecords : ((applied.snapshot.nodes.modify heartbeat.nodeId
        (·.keepObservationTimes record)).map fun _ record => record.withoutLiveness) =
        live.nodes.map fun _ record => record.withoutLiveness := by
      refine ExtTreeMap.ext_getElem? fun k => ?_
      rw [ExtTreeMap.getElem?_map, ExtTreeMap.getElem?_map, getElem?_modify_eq]
      cases hcurrent : live.nodes[k]? with
      | none =>
        rw [habsent k hcurrent, map_none, ite_self]
      | some current =>
        obtain ⟨updated, hupdated, hsame⟩ := hnodes k current hcurrent
        rw [hupdated]
        by_cases hk : heartbeat.nodeId = k
        · subst hk
          cases hwritten.known.symm.trans hcurrent
          rw [if_pos rfl, map_some, map_some, map_some,
            (withoutLiveness_of_volatileUpdate (hrewritten updated hupdated)
              (hlog updated hupdated)).1]
        · rw [if_neg hk]
          rw [if_pos (Ne.symm hk)] at hsame
          rw [hsame]
    unfold ClusterControlSnapshot.withoutLiveness ClusterControlSnapshot.modifyNode
    rw [hrecords, hobservations, hincarnation, hepoch, hhorizon, hpgs, hhistory,
      hwritten.elsewhere.topology, hwritten.elsewhere.transitions, hwritten.elsewhere.retained]
    rfl
  · intro k old hold
    obtain ⟨updated, hupdated, hsame⟩ := hnodes k old hold
    show ∃ new, (applied.snapshot.nodes.modify heartbeat.nodeId
      (·.keepObservationTimes record))[k]? = some new ∧ _
    rw [getElem?_modify_eq, hupdated]
    by_cases hk : heartbeat.nodeId = k
    · subst hk
      cases hwritten.known.symm.trans hold
      have hinc := (withoutLiveness_of_volatileUpdate (hrewritten updated hupdated)
        (hlog updated hupdated)).2
      rw [if_pos rfl]
      refine ⟨_, rfl, hinc, fun generation hgeneration => ?_⟩
      obtain ⟨new, hscan, hmax, hgrows⟩ := hwritten.written
      have hscan' : applied.snapshot.scanOf heartbeat.nodeId =
          some (updated.nodeIncarnation, updated.clusterMapHistoryRouteScanGeneration) := by
        unfold scanOf
        rw [hupdated]
        rfl
      have hsame := Prod.mk.inj (some.inj (hscan'.symm.trans hscan))
      have hprocess : ¬record.nodeIncarnation < heartbeat.nodeIncarnation := by
        have hle := le_max_right record.nodeIncarnation heartbeat.nodeIncarnation
        rw [← hmax, ← hsame.1, hinc] at hle
        exact not_lt.mpr hle
      obtain ⟨later, hlater, hle⟩ := hgrows hprocess generation hgeneration
      exact ⟨later, hsame.2.trans hlater, hle⟩
    · rw [if_neg hk]
      rw [if_pos (Ne.symm hk)] at hsame
      subst hsame
      exact ⟨old, rfl, rfl, .refl old⟩

end Volatile

/-! ### Snapshots that agree up to liveness -/

section Liveness

variable {s t : ClusterControlSnapshot} {old new : NodeControlRecord}

theorem withoutLiveness_getElem? (nodeId : NodeId) :
    s.withoutLiveness.nodes[nodeId]? = s.nodes[nodeId]?.map NodeControlRecord.withoutLiveness :=
  ExtTreeMap.getElem?_map

theorem withoutLiveness_erase (s : ClusterControlSnapshot) :
    s.erase.withoutLiveness = s.withoutLiveness := by
  unfold ClusterControlSnapshot.withoutLiveness ClusterControlSnapshot.erase
  rw [ExtTreeMap.map_map]
  rfl

theorem historyProtection_withoutLiveness :
    s.withoutLiveness.historyProtection = s.historyProtection := by
  have hvalues : values s.withoutLiveness.nodes =
      (values s.nodes).map NodeControlRecord.withoutLiveness := by
    rw [values, ClusterControlSnapshot.withoutLiveness, ExtTreeMap.toList_map, values, List.map_map,
      List.map_map]
    rfl
  unfold historyProtection requiredClusterMapHistoryProtection
  rw [hvalues, List.flatMap_map]
  rfl

/-- Records that agree up to liveness, with equal leases and scans where there are references. -/
theorem NodeControlRecord.erase_eq (h : old.withoutLiveness = new.withoutLiveness)
    (hlease : old.leaseDeadlineMs = new.leaseDeadlineMs) (hold : old.Scanned)
    (hnew : new.Scanned) : old.erase = new.erase := by
  have hreferences : old.clusterMapHistoryRouteReferences = new.clusterMapHistoryRouteReferences :=
    (congrArg clusterMapHistoryRouteReferences h :)
  have hretiring : old.retiringClusterMapHistoryRouteReferences =
      new.retiringClusterMapHistoryRouteReferences :=
    (congrArg retiringClusterMapHistoryRouteReferences h :)
  have hscan : old.erase.clusterMapHistoryRouteScanGeneration =
      new.erase.clusterMapHistoryRouteScanGeneration := by
    unfold erase
    rw [hreferences, hretiring]
    by_cases hempty : new.clusterMapHistoryRouteReferences.isEmpty ∧
        new.retiringClusterMapHistoryRouteReferences.isEmpty
    · rw [if_pos hempty, if_pos hempty]
    · rw [Scanned, hreferences, hretiring] at hold
      cases ho : old.clusterMapHistoryRouteScanGeneration with
      | none => exact absurd (hold ho) hempty
      | some generation =>
        cases hn : new.clusterMapHistoryRouteScanGeneration with
        | none => exact absurd (hnew hn) hempty
        | some generation' => rfl
  have hrecord := congrArg (fun record : NodeControlRecord => { record with
    leaseDeadlineMs := old.leaseDeadlineMs
    clusterMapHistoryRouteScanGeneration := old.erase.clusterMapHistoryRouteScanGeneration }) h
  refine hrecord.trans ?_
  rw [hscan, hlease]
  rfl

/-- **Well-formed snapshots that agree up to liveness, with equal leases, agree once erased.** -/
theorem erase_eq_of_withoutLiveness (h : s.withoutLiveness = t.withoutLiveness)
    (hlease : ∀ (nodeId : NodeId) old new, s.nodes[nodeId]? = some old →
      t.nodes[nodeId]? = some new → old.leaseDeadlineMs = new.leaseDeadlineMs)
    (hs : validatePublicationInvariants s = .ok ())
    (ht : validatePublicationInvariants t = .ok ()) : s.erase = t.erase := by
  have hnodes : s.erase.nodes = t.erase.nodes := by
    refine ExtTreeMap.ext_getElem? fun k => ?_
    have hk : s.nodes[k]?.map NodeControlRecord.withoutLiveness =
        t.nodes[k]?.map NodeControlRecord.withoutLiveness := by
      rw [← withoutLiveness_getElem?, ← withoutLiveness_getElem?, h]
    rw [erase_getElem?, erase_getElem?]
    cases hold : s.nodes[k]? with
    | none =>
      rw [hold, map_none, eq_comm, map_eq_none_iff] at hk
      rw [hk]
    | some old =>
      rw [hold, map_some, eq_comm] at hk
      obtain ⟨new, hnew, heq⟩ := map_eq_some_iff.mp hk
      rw [hnew, map_some, map_some, erase_eq heq.symm
        (hlease k old new hold hnew) (scanned_of_validate hs hold) (scanned_of_validate ht hnew)]
  have hrest := congrArg (fun u : ClusterControlSnapshot => { u with nodes := s.erase.nodes }) h
  refine hrest.trans ?_
  rw [hnodes]
  rfl

end Liveness

/-! ### Promotion -/

section Promote

variable {live durable : ClusterControlSnapshot} {plane : SingleAuthorityControlPlane}

/-- One promoted lease. -/
def ClusterControlSnapshot.promoteLease (s : ClusterControlSnapshot)
    (lease : PromotedNodeHeartbeatLease) : ClusterControlSnapshot :=
  s.modifyNode lease.nodeId fun record =>
    { record with leaseDeadlineMs := some lease.leaseDeadlineMs }

/-- Promoting leases writes the lease of the last entry of each node. -/
theorem foldl_promoteLease_getElem? (promoted : List PromotedNodeHeartbeatLease)
    (s : ClusterControlSnapshot) (nodeId : NodeId) :
    (promoted.foldl promoteLease s).nodes[nodeId]? =
      s.nodes[nodeId]?.map fun record => { record with
        leaseDeadlineMs := (promoted.filter (·.nodeId = nodeId)).foldl
          (fun _ lease => some lease.leaseDeadlineMs) record.leaseDeadlineMs } := by
  induction promoted generalizing s with
  | nil =>
    rw [List.foldl_nil, List.filter_nil]
    cases s.nodes[nodeId]? with
    | none => rfl
    | some record => rfl
  | cons lease rest ih =>
    rw [List.foldl_cons, ih]
    show Option.map _ (s.nodes.modify lease.nodeId _)[nodeId]? = _
    rw [getElem?_modify_eq]
    by_cases hk : lease.nodeId = nodeId
    · rw [if_pos hk, map_map, List.filter_cons_of_pos (by simpa using hk)]
      rfl
    · rw [if_neg hk, List.filter_cons_of_neg (by simpa using hk)]

/-- Promoting leases changes nothing but leases. -/
theorem foldl_promoteLease_eq (promoted : List PromotedNodeHeartbeatLease)
    (s : ClusterControlSnapshot) :
    promoted.foldl promoteLease s =
      { s with nodes := (promoted.foldl promoteLease s).nodes } := by
  induction promoted generalizing s with
  | nil => rfl
  | cons lease rest ih =>
    exact ih (s.promoteLease lease)

theorem withoutLiveness_foldl_promoteLease (promoted : List PromotedNodeHeartbeatLease)
    (s : ClusterControlSnapshot) :
    (promoted.foldl promoteLease s).withoutLiveness = s.withoutLiveness := by
  refine foldl_same ClusterControlSnapshot.withoutLiveness _ _ fun t lease => ?_
  refine congrArg (fun nodes => { t with nodes := nodes }) ?_
  exact (map_modify fun _ => by rfl).symm.trans (modify_eq_self (f := id) fun _ _ => rfl)

/-- Recording a history that is pruned already. -/
theorem recordHistoryFrom_of_pruned {s : ClusterControlSnapshot}
    (h : pruneClusterMapHistory s.history s.historyProtection s.clusterEpoch = s.history)
    {previous : ClusterControlSnapshot} (hepoch : previous.clusterEpoch = s.clusterEpoch) :
    s.recordHistoryFrom previous = s := by
  have hrecord : s.recordHistoryFrom previous = { s with
      history := pruneClusterMapHistory s.history s.historyProtection s.clusterEpoch } := by
    unfold recordHistoryFrom
    rw [if_neg (not_not.mpr hepoch)]
    rfl
  rw [hrecord, h]

/-- After a promotion the durable leases are the live ones. -/
theorem Promotes.leases {promoted : List PromotedNodeHeartbeatLease}
    (h : Promotes live durable promoted) {nodeId : NodeId} {old new : NodeControlRecord}
    (hold : (promoted.foldl promoteLease durable).nodes[nodeId]? = some old)
    (hnew : live.nodes[nodeId]? = some new) : new.leaseDeadlineMs = old.leaseDeadlineMs := by
  rw [foldl_promoteLease_getElem?] at hold
  obtain ⟨record, hrecord, rfl⟩ := map_eq_some_iff.mp hold
  exact (h.deadline hrecord hnew).symm

/-- **After a promotion** the live snapshot is as before, and the durable one has the live
leases. -/
theorem promote_eq (hdurable : durable.Settled)
    (h : promoteVolatileHeartbeatLeasesIfNeeded ⟨live, durable⟩ = .ok plane) :
    plane.snapshot = live ∧ ∃ promoted, Promotes live durable promoted ∧
      plane.durableSnapshot = promoted.foldl promoteLease durable ∧
      validatePublicationInvariants plane.durableSnapshot = .ok () := by
  obtain ⟨promoted, hpromotes, hcases⟩ := promote_cases h
  rcases hcases with ⟨rfl, rfl⟩ | ⟨authority, liveApplied, durableApplied, hla, hsame, hda,
    hchanged, rfl⟩
  · exact ⟨rfl, [], hpromotes, rfl, hdurable.valid⟩
  · obtain ⟨hlarm, -⟩ := applyControlPlaneCommand_eq_ok hla
    obtain ⟨hdarm, hvalid⟩ := applyControlPlaneCommand_eq_ok hda
    have hlive : liveApplied.snapshot = live := unchanged_of_applyArm hlarm hsame
    have hdurableApplied : durableApplied.snapshot = promoted.foldl promoteLease durable := by
      simp only [applyArm, applyPromoteNodeHeartbeatLeases, bind_eq_ok, pure_eq_ok] at hdarm
      obtain ⟨-, -, -, -, -, -, -, -, rfl⟩ := hdarm
      refine (if_pos hchanged).trans ?_
      have heq := foldl_promoteLease_eq promoted durable
      refine recordHistoryFrom_of_pruned (s := promoted.foldl promoteLease durable) ?_ ?_
      · rw [← historyProtection_withoutLiveness, withoutLiveness_foldl_promoteLease,
          historyProtection_withoutLiveness, heq]
        exact hdurable.pruned
      · rw [heq]
    rw [commitRebasedCommand, if_pos hchanged]
    exact ⟨hlive, _, hpromotes, hdurableApplied, hvalid⟩

end Promote

/-! ### The overlay -/

section Overlay

variable {live durable : ClusterControlSnapshot} {past volatile : List ClusterControlSnapshot}
  {plane : SingleAuthorityControlPlane} {command : ControlPlaneCommand}
  {Ok : ClusterControlSnapshot → ControlPlaneEvent → Prop}

theorem ScansGrow.refl (s : ClusterControlSnapshot) : ScansGrow s s :=
  fun _ old h => ⟨old, h, rfl, .refl old⟩

theorem ScansGrow.trans {s t u : ClusterControlSnapshot} (h : ScansGrow s t) (h' : ScansGrow t u) :
    ScansGrow s u := by
  intro nodeId old hold
  obtain ⟨mid, hmid, hinc, hgrows⟩ := h nodeId old hold
  obtain ⟨new, hnew, hinc', hgrows'⟩ := h' nodeId mid hmid
  refine ⟨new, hnew, hinc'.trans hinc, fun generation hgeneration => ?_⟩
  obtain ⟨later, hlater, hle⟩ := hgrows generation hgeneration
  obtain ⟨latest, hlatest, hle'⟩ := hgrows' later hlater
  exact ⟨latest, hlatest, hle.trans hle'⟩

/-- A live snapshot: well formed, and the durable one up to liveness. -/
structure LiveOver (durable live : ClusterControlSnapshot) : Prop where
  valid : validatePublicationInvariants live = .ok ()
  same : live.withoutLiveness = durable.withoutLiveness
  grows : ScansGrow durable live

theorem liveOver_of_run (hdurable : durable.Settled)
    (h : Run volatileStep (fun live command => command.KeepsLogEpochs live) durable volatile live) :
    LiveOver durable live := by
  refine h.invariant ⟨hdurable.valid, rfl, .refl durable⟩ fun hlive hkeeps hstep => ?_
  obtain ⟨hsame, hgrows⟩ := withoutLiveness_of_volatile hlive.valid hkeeps hstep
  obtain ⟨-, -, -, -, -, -, -, -, -, hvalid, -⟩ :=
    applyCoveredVolatileHeartbeat_eq_ok (volatileStep_eq_some hstep)
  exact ⟨hvalid, hsame.trans hlive.same, hlive.grows.trans hgrows⟩

/-- A heartbeat that is new to the live snapshot is new to the durable one. -/
theorem scanIsNew_durable (hgrows : ScansGrow durable live)
    (promoted : List PromotedNodeHeartbeatLease) (h : command.ScanIsNew live) :
    command.ScanIsNew (promoted.foldl promoteLease durable) := by
  cases command with
  | recordNodeHeartbeat heartbeat heartbeatAtMs leaseDeadlineMs authority =>
    intro record hrecord
    rw [foldl_promoteLease_getElem?] at hrecord
    obtain ⟨old, hold, rfl⟩ := map_eq_some_iff.mp hrecord
    obtain ⟨new, hnew, hinc, hscan⟩ := hgrows heartbeat.nodeId old hold
    rcases h new hnew with hprocess | hnewer
    · exact .inl (hinc ▸ hprocess)
    · refine .inr fun generation hgeneration => ?_
      obtain ⟨later, hlater, hle⟩ := hscan generation hgeneration
      exact hle.trans_lt (hnewer later hlater)
  | _ => trivial

/-- **After the promotion the two snapshots agree once erased.** -/
theorem erase_promote (hdurable : durable.Settled) (hlive : LiveOver durable live)
    (h : promoteVolatileHeartbeatLeasesIfNeeded ⟨live, durable⟩ =
      .ok plane) :
    plane.snapshot.erase = plane.durableSnapshot.erase ∧
      ∀ command : ControlPlaneCommand, command.ScanIsNew plane.snapshot →
        command.ScanIsNew plane.durableSnapshot := by
  obtain ⟨hsnapshot, promoted, hpromotes, hdurableSnapshot, hvalid⟩ := promote_eq hdurable h
  rw [hdurableSnapshot] at hvalid
  rw [hsnapshot, hdurableSnapshot]
  refine ⟨erase_eq_of_withoutLiveness ?_ ?_ hlive.valid hvalid,
    fun _ => scanIsNew_durable hlive.grows promoted⟩
  · rw [withoutLiveness_foldl_promoteLease]
    exact hlive.same
  · intro nodeId new old hnew hold
    exact hpromotes.leases hold hnew

/-- What an accepted command shows: the response, the flag, and the snapshot up to liveness. -/
def AppliedControlPlaneCommand.visible (a : AppliedControlPlaneCommand) :
    ControlPlaneCommandResponse × Bool × ClusterControlSnapshot :=
  (a.response, a.changed, a.snapshot.withoutLiveness)

/-- Applied commands that agree once erased show the same. -/
theorem visible_of_erase {x y : Except ControlPlaneError AppliedControlPlaneCommand}
    (h : ErasedAlike x y) (hx : x = .ok a) : ∃ b, y = .ok b ∧ b.visible = a.visible := by
  subst hx
  cases y with
  | error e => cases h
  | ok b =>
    have hvisible : ∀ c : AppliedControlPlaneCommand, c.erase.visible = c.visible := fun c =>
      congrArg (fun s => (c.response, c.changed, s)) (withoutLiveness_erase c.snapshot)
    refine ⟨b, rfl, ?_⟩
    rw [← hvisible, ← Except.ok.inj h, hvisible]

/-- **The overlay is invisible to the committed commands.**  Take a reachable durable snapshot, and
a live one obtained from it by volatile heartbeats that report the metadata log epochs on record.
After the promotion, a command is accepted on one exactly when it is accepted on the other, with the
same response and flag and the same result up to liveness.  A heartbeat has to carry a scan that is
new to the live snapshot. -/
theorem overlay_invisible (hdurable : Run controlPlaneStep Ok .empty past durable)
    (hlive : Run volatileStep (fun live command => command.KeepsLogEpochs live) durable volatile
      live)
    (hpromote : promoteVolatileHeartbeatLeasesIfNeeded ⟨live, durable⟩ =
      .ok plane) (hscan : command.ScanIsNew plane.snapshot) :
    (∀ a, applyControlPlaneCommand plane.snapshot command = .ok a →
      ∃ b, applyControlPlaneCommand plane.durableSnapshot command = .ok b ∧
        b.visible = a.visible) ∧
    ∀ b, applyControlPlaneCommand plane.durableSnapshot command = .ok b →
      ∃ a, applyControlPlaneCommand plane.snapshot command = .ok a ∧ a.visible = b.visible := by
  have hsettled := settled_of_run hdurable
  obtain ⟨herase, hnew⟩ := erase_promote hsettled (liveOver_of_run hsettled hlive) hpromote
  have hcongr := applyControlPlaneCommand_congr herase hscan (hnew command hscan)
  exact ⟨fun a ha => visible_of_erase hcongr ha, fun b hb => visible_of_erase (Eq.symm hcongr) hb⟩

end Overlay

/-! ### Runs -/

instance (live : ClusterControlSnapshot) (command : ControlPlaneCommand) :
    Decidable (command.KeepsLogEpochs live) := by
  unfold ControlPlaneCommand.KeepsLogEpochs
  split <;> infer_instance

/-- A cluster of one node and one PG, whose node has reported a metadata proof. -/
def reportedEvents : List ControlPlaneEvent :=
  [.command (.bootstrapInitialClusterMap [(1, "a")] [0]),
    .command (.establishLeaseGrantHorizon ⟨1, none⟩ 100000 60000),
    .command (.recordNodeHeartbeat ⟨1, 1, "a", 2, 10000, 1, ∅, []⟩ 100000 110000 (some ⟨1, none⟩)),
    .command (.recordNodeHeartbeat ⟨1, 1, "a", 3, 10000, 2, ∅,
      [⟨0, .peering, ⟨5, ⟨1, 7⟩, ⟨10, 9⟩⟩, 3, none⟩]⟩ 100000 110000 (some ⟨1, none⟩))]

/-- A later heartbeat of the node, which reports the metadata log epoch `logEpoch`. -/
def laterHeartbeat (logEpoch : ClusterEpoch) : ControlPlaneCommand :=
  .recordNodeHeartbeat ⟨1, 1, "a", 3, 10000, 3, ∅,
    [⟨0, .peering, ⟨5, ⟨1, 7⟩, ⟨10, 9⟩⟩, logEpoch, none⟩]⟩ 100001 110001 (some ⟨1, none⟩)

/-- The authority after its leases have been promoted, and the results of `command`. -/
def afterPromotion (live durable : ClusterControlSnapshot) (command : ControlPlaneCommand) :
    Option (SingleAuthorityControlPlane × AppliedControlPlaneCommand ×
      AppliedControlPlaneCommand) := do
  let plane ← (promoteVolatileHeartbeatLeasesIfNeeded
    ⟨live, durable⟩).toOption
  let a ← (applyControlPlaneCommand plane.snapshot command).toOption
  let b ← (applyControlPlaneCommand plane.durableSnapshot command).toOption
  pure (plane, a, b)

theorem afterPromotion_eq_some {live durable : ClusterControlSnapshot}
    {command : ControlPlaneCommand} {plane : SingleAuthorityControlPlane}
    {b : AppliedControlPlaneCommand}
    (h : afterPromotion live durable command = some (plane, a, b)) :
    promoteVolatileHeartbeatLeasesIfNeeded ⟨live, durable⟩ =
        .ok plane ∧
      applyControlPlaneCommand plane.snapshot command = .ok a ∧
      applyControlPlaneCommand plane.durableSnapshot command = .ok b := by
  simp only [afterPromotion, bind_eq_bind, bind_eq_some_iff, pure_def,
    some.injEq, Prod.mk.injEq] at h
  obtain ⟨plane, hplane, a, ha, b, hb, rfl, rfl, rfl⟩ := h
  exact ⟨toOption_eq_some.mp hplane, toOption_eq_some.mp ha, toOption_eq_some.mp hb⟩

/-- A live lease is promoted and the PG is activated alike on both snapshots. -/
theorem overlay_invisible_activation :
    ∃ past durable volatile live plane a b,
      Run controlPlaneStep (fun _ _ => True) .empty past durable ∧
      Run volatileStep (fun live command => command.KeepsLogEpochs live) durable volatile live ∧
      promoteVolatileHeartbeatLeasesIfNeeded ⟨live, durable⟩ =
        .ok plane ∧ live ≠ durable ∧
      applyControlPlaneCommand plane.snapshot (.completePgPeering 0 1 1 100002) = .ok a ∧
      a.changed = true ∧
      applyControlPlaneCommand plane.durableSnapshot (.completePgPeering 0 1 1 100002) = .ok b ∧
      b.visible = a.visible := by
  have h : ∃ past durable, Run controlPlaneStep (fun _ _ => True) .empty past durable ∧
      ∃ r ∈ replay volatileStep (fun live command => command.KeepsLogEpochs live) [] durable
        [laterHeartbeat 3], ∃ p ∈ afterPromotion r.2 durable (.completePgPeering 0 1 1 100002),
          r.2 ≠ durable ∧ p.2.1.changed = true :=
    exists_run_of_replay reportedEvents (by decide +kernel)
  obtain ⟨past, durable, hdurable, ⟨volatile, live⟩, hreplay, ⟨plane, a, b⟩, hp, hne, hchanged⟩ := h
  have hlive := Run.refl.of_replay hreplay
  obtain ⟨hpromote, ha, -⟩ := afterPromotion_eq_some hp
  have hscan : ControlPlaneCommand.ScanIsNew plane.snapshot (.completePgPeering 0 1 1 100002) :=
    trivial
  obtain ⟨b', hb', hvisible⟩ := (overlay_invisible hdurable hlive hpromote hscan).1 a ha
  exact ⟨past, durable, volatile, live, plane, a, b', hdurable, hlive, hpromote, hne, ha, hchanged,
    hb', hvisible⟩

/-- **What the volatility check leaves out.**  A volatile heartbeat that reports another metadata
log epoch, for the same proof, makes the activation of the PG record one log epoch in the live
snapshot and another in the durable one. -/
theorem overlay_visible_log_epoch :
    ∃ past durable volatile live plane a b,
      Run controlPlaneStep (fun _ _ => True) .empty past durable ∧
      Run volatileStep (fun _ _ => True) durable volatile live ∧
      promoteVolatileHeartbeatLeasesIfNeeded ⟨live, durable⟩ =
        .ok plane ∧
      applyControlPlaneCommand plane.snapshot (.completePgPeering 0 1 1 100002) = .ok a ∧
      applyControlPlaneCommand plane.durableSnapshot (.completePgPeering 0 1 1 100002) = .ok b ∧
      a.snapshot.withoutLiveness ≠ b.snapshot.withoutLiveness ∧
      a.snapshot.pgs[0]?.bind (·.activeMetadataLogEpoch) = some 2 ∧
      b.snapshot.pgs[0]?.bind (·.activeMetadataLogEpoch) = some 3 := by
  have h : ∃ past durable, Run controlPlaneStep (fun _ _ => True) .empty past durable ∧
      ∃ r ∈ replay volatileStep (fun _ _ => True) [] durable [laterHeartbeat 2],
        ∃ p ∈ afterPromotion r.2 durable (.completePgPeering 0 1 1 100002),
          p.2.1.snapshot.withoutLiveness ≠ p.2.2.snapshot.withoutLiveness ∧
          p.2.1.snapshot.pgs[0]?.bind (·.activeMetadataLogEpoch) = some 2 ∧
          p.2.2.snapshot.pgs[0]?.bind (·.activeMetadataLogEpoch) = some 3 :=
    exists_run_of_replay reportedEvents (by decide +kernel)
  obtain ⟨past, durable, hdurable, ⟨volatile, live⟩, hreplay, ⟨plane, a, b⟩, hp, hdiffers⟩ := h
  obtain ⟨hpromote, ha, hb⟩ := afterPromotion_eq_some hp
  exact ⟨past, durable, volatile, live, plane, a, b, hdurable, Run.refl.of_replay hreplay, hpromote,
    ha, hb, hdiffers⟩

end Argmin.ControlPlane
