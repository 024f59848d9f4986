import Argmin.ControlPlane.ChangedFlag
import Argmin.ControlPlane.LeaseView

/-!
# The state machine refines its lease view

`view_apply`: **an accepted command that changes the snapshot takes its view to
`LeaseView.after`, and one that does not leaves the view as it is**.  So the view of the result
depends on the view and the command only, and the live and the durable snapshot of an authority
stay in step.

The proof follows the code: first the view of each building block of `Snapshot.lean`, then one
lemma per command.  The records of a snapshot must carry the keys under which they are stored
(`LeaseView.Keyed`), as they do in every run (`keyed_apply`).
-/

namespace Argmin.ControlPlane

open Fallible TreeMap PgControlRecord ClusterControlSnapshot NodeControlRecord
open List hiding getElem?_modify_eq

variable {body : BeginUnavailableTransition} {changed : Bool} {c : ControlPlaneCommand}
  {response : ControlPlaneCommandResponse} {after : LeaseView} {actingSet nodes : List NodeId}
  {observations pendings : List NodePgHeartbeatObservation} {pgIds seen : List PgId}
  {promoted : List PromotedNodeHeartbeatLease} {ready : List ReadyPgPeeringCompletion}
  {durationMs expireAtMs : Nat}
  {committed observed : Option Nat} {transition : Option UnavailablePgTransitionMutationBinding}
  {state : PgState}

variable {a : AppliedControlPlaneCommand} {next s : ClusterControlSnapshot}
  {heartbeatAtMs leaseDeadlineMs nodeIncarnation nowMs : Nat}
  {f : NodeControlRecord → NodeControlRecord} {heartbeat : NodeHeartbeat} {nodeId primary : NodeId}
  {authority : Option LeaseHorizonAuthorityBinding} {record : PgControlRecord} {pgId : PgId}
  {pg : PgView}

/-- Every record carries the id under which it is stored. -/
structure LeaseView.Keyed (v : LeaseView) : Prop where
  node : ∀ {nodeId node}, v.nodes nodeId = some node → node.nodeId = nodeId
  pg : ∀ {pgId pg}, v.pgs pgId = some pg → pg.pgId = pgId

/-! ### Building blocks -/

variable (s nodeId pgId)

@[simp]
theorem view_nodes : s.view.nodes nodeId = s.nodes[nodeId]?.map NodeControlRecord.view := rfl

@[simp]
theorem view_pgs : s.view.pgs pgId = s.pgs[pgId]?.map PgControlRecord.view := rfl

theorem view_modifyNode {g : NodeView → NodeView}
    (hfg : ∀ record, (f record).view = g record.view) :
    (s.modifyNode nodeId f).view = s.view.modifyNode nodeId g := by
  refine LeaseView.ext rfl rfl rfl (funext fun k => ?_) rfl
  simp only [view_nodes, modifyNode, LeaseView.modifyNode,
    getElem?_modify_eq]
  split
  · cases s.nodes[k]? with
    | none => rfl
    | some record => simp [hfg]
  · rfl

/-- A change of a node that the view does not see. -/
theorem view_modifyNode_id (hf : ∀ record, (f record).view = record.view) :
    (s.modifyNode nodeId f).view = s.view := by
  rw [view_modifyNode s nodeId (g := id) hf]
  refine LeaseView.ext rfl rfl rfl (funext fun k => ?_) rfl
  simp [LeaseView.modifyNode]

theorem view_modifyNode_id_if (hf : ∀ record, (f record).view = record.view) :
    (if changed = true then s.modifyNode nodeId f else s).view = s.view := by
  split
  · exact view_modifyNode_id s nodeId hf
  · rfl

theorem view_modifyPg {f : PgControlRecord → PgControlRecord} {g : PgView → PgView}
    (hfg : ∀ record, s.pgs[pgId]? = some record → (f record).view = g record.view) :
    (s.modifyPg pgId f).view = s.view.modifyPg pgId g := by
  refine LeaseView.ext rfl rfl rfl rfl (funext fun k => ?_)
  simp only [view_pgs, modifyPg, LeaseView.modifyPg, getElem?_modify_eq]
  split
  · next h =>
    subst h
    cases hk : s.pgs[pgId]? with
    | none => rfl
    | some record => simp [hfg record hk]
  · rfl

/-- A change of a PG that the view does not see. -/
theorem view_modifyPg_id {f : PgControlRecord → PgControlRecord}
    (hf : ∀ record, (f record).view = record.view) :
    (s.modifyPg pgId f).view = s.view := by
  rw [view_modifyPg s pgId (g := id) fun record _ => hf record]
  refine LeaseView.ext rfl rfl rfl rfl (funext fun k => ?_)
  simp [LeaseView.modifyPg]

theorem view_insertNode (record : NodeControlRecord) :
    ({ s with nodes := s.nodes.insert nodeId record } : ClusterControlSnapshot).view =
      s.view.setNode nodeId record.view := by
  refine LeaseView.ext rfl rfl rfl (funext fun k => ?_) rfl
  simp only [view_nodes, LeaseView.setNode, getElem?_insert_eq]
  split <;> rfl

theorem view_insertPg : ({ s with pgs := s.pgs.insert pgId record } : ClusterControlSnapshot).view =
      s.view.setPg pgId record.view := by
  refine LeaseView.ext rfl rfl rfl rfl (funext fun k => ?_)
  simp only [view_pgs, LeaseView.setPg, getElem?_insert_eq]
  split <;> rfl

@[simp]
theorem view_removeUnavailableNodeObservation :
    (s.removeUnavailableNodeObservation nodeId).view = s.view := rfl

@[simp]
theorem view_recordCommittedTimestamp (timestampMs : Nat) :
    (s.recordCommittedTimestamp timestampMs).view = s.view.recordTimestamp timestampMs := rfl

@[simp]
theorem view_retireTransition : (s.retireTransition pgId).view = s.view := by
  unfold ClusterControlSnapshot.retireTransition
  split <;> rfl

@[simp]
theorem view_recordHistoryFrom (previous : ClusterControlSnapshot) :
    (s.recordHistoryFrom previous).view = s.view := rfl

variable {s nodeId pgId}

theorem view_node {record : NodeControlRecord} (h : s.nodes[nodeId]? = some record) :
    s.view.nodes nodeId = some record.view :=
  congrArg (Option.map NodeControlRecord.view) h

theorem view_pg (h : s.pgs[pgId]? = some record) : s.view.pgs pgId = some record.view :=
  congrArg (Option.map PgControlRecord.view) h

@[simp]
theorem view_applied (previous next : ClusterControlSnapshot) :
    (appliedControlPlaneCommand previous next response changed).snapshot.view = next.view := by
  unfold appliedControlPlaneCommand
  split <;> simp

theorem view_bumpEpoch (h : s.bumpEpoch = .ok next) :
    next.view = s.view.bumpEpoch := by
  obtain ⟨-, rfl⟩ := bumpEpoch_eq_ok h
  refine LeaseView.ext rfl rfl rfl (funext fun k => ?_) rfl
  simp only [view_nodes, LeaseView.bumpEpoch, Std.ExtTreeMap.getElem?_map, Option.map_map]
  rfl

theorem view_activePrimaryLease :
    activePrimaryLease s record = s.view.activePrimaryLease record.view := by
  simp only [activePrimaryLease, LeaseView.activePrimaryLease, PgControlRecord.view, view_nodes]
  by_cases hs : record.state = .active
  · simp only [hs, if_true]
    cases record.activePrimary with
    | none => rfl
    | some nodeId => cases hn : s.nodes[nodeId]? <;> simp [hn, NodeControlRecord.view]
  · simp only [hs, if_false]
    rfl

theorem view_fencingLease : fencingLease s record = s.view.fencingLease record.view := by
  simp only [fencingLease, LeaseView.fencingLease, view_activePrimaryLease]
  rfl

def ClusterControlSnapshot.PgsKeyed (s : ClusterControlSnapshot) : Prop :=
  ∀ (pgId : PgId) (record : PgControlRecord), s.pgs[pgId]? = some record → record.pgId = pgId

theorem pgsKeyed_of_view (hk : s.view.Keyed) (h : next.view.pgs = s.view.pgs) : next.PgsKeyed :=
  fun pgId _ hr => hk.pg ((congrFun h pgId).symm.trans (view_pg hr))

theorem view_markPgsPeeringForPgIds (hk : s.PgsKeyed)
    (previous : ClusterControlSnapshot) {affected : PgId → PgView → Prop}
    (h : ∀ {pgId record}, s.pgs[pgId]? = some record → (pgId ∈ pgIds ↔ affected pgId record.view)) :
    (markPgsPeeringForPgIds s previous pgIds).view =
      s.view.markPeering previous.view affected := by
  refine LeaseView.ext rfl rfl rfl rfl (funext fun k => ?_)
  simp only [view_pgs, markPgsPeeringForPgIds, LeaseView.markPeering,
    Std.ExtTreeMap.getElem?_map]
  cases hr : s.pgs[k]? with
  | none => rfl
  | some record =>
    have hid := hk k record hr
    have hlease : (previous.pgs[k]?.bind (activePrimaryLease previous)) =
        (previous.pgs[k]?.map PgControlRecord.view).bind previous.view.activePrimaryLease := by
      cases previous.pgs[k]? with
      | none => rfl
      | some record => exact view_activePrimaryLease
    have hcond : (record.state ≠ .peering ∧ record.pgId ∈ pgIds) ↔
        (record.view.state ≠ .peering ∧ affected k record.view) := by
      rw [hid, h hr]
      rfl
    simp only [Option.map_some, Option.some.injEq, ← hlease]
    by_cases hc : record.state ≠ .peering ∧ record.pgId ∈ pgIds
    · rw [if_pos hc, if_pos (hcond.mp hc)]
      simp [PgControlRecord.markPeering, resetToPeering, PgControlRecord.view,
        PgView.leave, hid]
    · rw [if_neg hc, if_neg (mt hcond.mpr hc)]

theorem mem_pgsActingOn (hk : s.PgsKeyed) (h : s.pgs[pgId]? = some record) :
    pgId ∈ pgsActingOn s nodes ↔ ∃ n ∈ record.actingSet, n ∈ nodes := by
  simp only [pgsActingOn, mem_map, mem_filter, mem_values, any_eq_true,
    decide_eq_true_eq]
  constructor
  · rintro ⟨other, ⟨⟨k, hk'⟩, hacts⟩, rfl⟩
    rw [hk k other hk', hk'] at h
    cases h
    exact hacts
  · intro hacts
    exact ⟨record, ⟨⟨pgId, h⟩, hacts⟩, hk pgId record h⟩

theorem view_markPgsPeeringForNodes (hk : s.PgsKeyed)
    (previous : ClusterControlSnapshot) {S : NodeId → Prop} (h : ∀ n, n ∈ nodes ↔ S n) :
    (markPgsPeeringForNodes s previous nodes).view =
      s.view.markPeering previous.view (LeaseView.ActsOn S) := by
  refine view_markPgsPeeringForPgIds hk previous fun hr => ?_
  rw [mem_pgsActingOn hk hr]
  simp only [h, LeaseView.ActsOn, PgControlRecord.view]

namespace LeaseView

@[simp]
theorem coverLease_nodes (v : LeaseView) (authority : Option LeaseHorizonAuthorityBinding)
    (nowMs leaseDeadlineMs : Nat) :
    (v.coverLease authority nowMs leaseDeadlineMs).nodes = v.nodes := by
  unfold coverLease
  split
  · rfl
  · split
    · rfl
    · simp only [establish]

@[simp]
theorem coverLease_pgs (v : LeaseView) :
    (v.coverLease authority nowMs leaseDeadlineMs).pgs = v.pgs := by
  unfold coverLease
  split
  · rfl
  · split
    · rfl
    · simp only [establish]

end LeaseView

/-! ### Keys are kept -/

theorem view_advanceActiveProof
    (observedEpoch : ClusterEpoch) (restarted : Bool) (observation : NodePgHeartbeatObservation) :
    (record.advanceActiveProof nodeId observedEpoch restarted observation).view = record.view := by
  unfold advanceActiveProof
  split
  · rfl
  · split <;> rfl

section Keys

variable {t u : ClusterControlSnapshot}

theorem PgEdit.pgId_eq {record' : PgControlRecord} (h : PgEdit s c pgId record record') :
    record'.pgId = record.pgId := by
  cases h with
  | advanceActiveProof => exact congrArg PgView.pgId (view_advanceActiveProof ..)
  | _ => rfl

theorem Edit.keyed (h : Edit s c t u) (hk : t.view.Keyed) : u.view.Keyed := by
  cases h with
  | timestamp timestampMs h => exact h ▸ ⟨hk.node, hk.pg⟩
  | aside h _ => exact h ▸ ⟨hk.node, hk.pg⟩
  | nodes h slots =>
    rw [h]
    refine ⟨fun {nodeId node} hn => ?_, hk.pg⟩
    obtain ⟨record, hrecord, rfl⟩ := Option.map_eq_some_iff.mp hn
    have hslot := slots nodeId
    rw [show u.nodes[nodeId]? = _ from hrecord] at hslot
    generalize hold : t.nodes[nodeId]? = old at hslot
    cases hslot with
    | new hid => exact hid
    | kept hid => exact hid.trans (hk.node (view_node hold))
  | pgs h slots =>
    rw [h]
    refine ⟨hk.node, fun {pgId pg} hp => ?_⟩
    obtain ⟨record, hrecord, rfl⟩ := Option.map_eq_some_iff.mp hp
    have hslot := slots pgId
    rw [show u.pgs[pgId]? = _ from hrecord] at hslot
    generalize hold : t.pgs[pgId]? = old at hslot
    cases hslot with
    | new => rfl
    | edit hedit => exact hedit.pgId_eq.trans (hk.pg (view_pg hold))
  | retire pgId h => exact h ▸ (view_retireTransition t pgId).symm ▸ hk
  | transition pgId f h => exact h ▸ ⟨hk.node, hk.pg⟩
  | begins _ h => exact h ▸ ⟨hk.node, hk.pg⟩

theorem Edits.keyed (h : Edits s c t u) (hk : t.view.Keyed) : u.view.Keyed := by
  induction h with
  | refl => exact hk
  | tail _ hedit ih => exact hedit.keyed ih

/-- **An accepted command keeps the records under their keys.** -/
theorem keyed_apply (hk : s.view.Keyed) (h : applyControlPlaneCommand s c = .ok a) :
    a.snapshot.view.Keyed := by
  obtain ⟨next, response, flag, rfl, hmoved⟩ :=
    (arm_of_applyArm (applyControlPlaneCommand_eq_ok h).1).moved
  rw [view_applied]
  cases hmoved with
  | keeps edits => exact edits.keyed hk
  | bumps bump before after =>
    refine after.keyed ?_
    have hbefore := before.keyed hk
    exact view_bumpEpoch bump ▸ ⟨hbefore.node, hbefore.pg⟩

end Keys

/-! ### Commands about nodes -/

/-- What a command does to the view: `LeaseView.after` when it changes the snapshot. -/
def AppliedControlPlaneCommand.Follows (applied : AppliedControlPlaneCommand)
    (v after : LeaseView) :
    Prop :=
  applied.snapshot.view = if applied.changed then after else v

/-- Where the command is accepted, it does to the view what `LeaseView.after` says. -/
def RefinesView (c : ControlPlaneCommand) : Prop :=
  ∀ {s : ClusterControlSnapshot} {a : AppliedControlPlaneCommand}, s.view.Keyed →
    applyArm s c = .ok a → a.Follows s.view (s.view.after c)

theorem follows_changed (h : next.view = after) :
    (appliedControlPlaneCommand s next response true).Follows s.view after := by
  simpa [AppliedControlPlaneCommand.Follows, appliedControlPlaneCommand] using h

theorem follows_unchanged :
    (appliedControlPlaneCommand s s response false).Follows s.view after := by
  simp [AppliedControlPlaneCommand.Follows, appliedControlPlaneCommand]

/-- The flag of the command is exact, so that only its result is left to look at. -/
theorem follows_of_keeps (hkeeps : a.KeepsUnlessChanged s) (h : a.snapshot.view = after) :
    a.Follows s.view after := by
  unfold AppliedControlPlaneCommand.Follows
  split
  · exact h
  · next hflag => rw [hkeeps (Bool.eq_false_iff.mpr hflag)]

theorem view_foldl_insertNode (nodes : List (NodeId × String)) :
    ClusterControlSnapshot.view { s with
      nodes := nodes.foldl (fun map (nodeId, endpoint) =>
        map.insert nodeId { NodeControlRecord.new nodeId .active with endpoint := endpoint })
        s.nodes } =
      nodes.foldl (fun next node => next.setNode node.1
        { NodeControlRecord.new node.1 .active with endpoint := node.2 }.view) s.view := by
  refine (foldl_hom (fun nodes => ClusterControlSnapshot.view { s with nodes := nodes })
    fun nodes node => ?_).symm
  exact (view_insertNode { s with nodes := nodes } node.1 _).symm

theorem view_foldl_insertPg (pgs : List (PgId × List NodeId)) : ClusterControlSnapshot.view { s with
      pgs := pgs.foldl (fun map (pgId, actingSet) =>
        map.insert pgId (.new pgId actingSet)) s.pgs } =
      pgs.foldl (fun next pg => next.setPg pg.1 (PgControlRecord.new pg.1 pg.2).view) s.view := by
  refine (foldl_hom (fun pgs => ClusterControlSnapshot.view { s with pgs := pgs })
    fun pgs pg => ?_).symm
  exact (view_insertPg { s with pgs := pgs } pg.1).symm

theorem follows_bootstrap {nodes : List (NodeId × String)}
    {pgs : List (PgId × List NodeId)} {topology : Option InitialClusterTopologyCertificate}
    (h : applyBootstrapInitialClusterMap s nodes pgs topology = .ok a) :
    a.Follows s.view (s.view.bootstrap nodes pgs) := by
  simp only [applyBootstrapInitialClusterMap, bind_eq_ok, failIf_eq_ok, pure_eq_ok,
    exists_const] at h
  obtain ⟨-, -, -, -, -, -, -, -, next, hbump, rfl⟩ := h
  refine follows_changed ?_
  rw [view_bumpEpoch hbump, LeaseView.bootstrap, ← view_foldl_insertNode, ← view_foldl_insertPg]
  rfl

theorem view_setMembership (membership : NodeMembershipState) (record : NodeControlRecord) :
    (record.setMembership membership).view = record.view.setMembership membership := by
  unfold setMembership NodeView.setMembership
  split
  · rfl
  · exact apply_ite NodeControlRecord.view _ _ _

theorem follows_setNodeMembership {membership : NodeMembershipState} :
    RefinesView (.setNodeMembership nodeId membership) := by
  intro s a hk h
  simp only [applyArm, applySetNodeMembership] at h
  split at h
  · next record hr =>
    split at h
    · cases h
      exact follows_unchanged ..
    · simp only [bind_eq_ok, failIf_eq_ok, pure_eq_ok, exists_const] at h
      obtain ⟨-, next, hbump, rfl⟩ := h
      have hmod : (s.modifyNode nodeId (·.setMembership membership)).view = _ :=
        view_modifyNode s nodeId (view_setMembership membership)
      refine follows_changed ?_
      rw [view_bumpEpoch hbump, view_markPgsPeeringForNodes (by exact pgsKeyed_of_view hk rfl) s
        (S := (· = nodeId)) (by simp)]
      simp [LeaseView.after, hr, hmod]
  · next hr =>
    simp only [bind_eq_ok, pure_eq_ok] at h
    obtain ⟨next, hbump, rfl⟩ := h
    refine follows_changed ?_
    rw [view_bumpEpoch hbump, view_removeUnavailableNodeObservation, view_insertNode]
    simp [LeaseView.after, hr]

theorem view_markAvailability (availability : NodeAvailabilityState) (record : NodeControlRecord) :
    (record.markAvailability availability).view = record.view.markAvailability availability := by
  cases availability <;> rfl

theorem follows_markNodeAvailability {availability : NodeAvailabilityState} :
    RefinesView (.markNodeAvailability nodeId availability) := by
  intro s a hk h
  simp only [applyArm, applyMarkNodeAvailability, okOr_bind_eq_ok, failIf_bind_eq_ok] at h
  obtain ⟨record, hr, -, h⟩ := h
  split at h
  · simp only [bind_eq_ok, pure_eq_ok] at h
    obtain ⟨next, hbump, rfl⟩ := h
    have hmod : (s.modifyNode nodeId (·.markAvailability availability)).view = _ :=
      view_modifyNode s nodeId (view_markAvailability availability)
    refine follows_changed ?_
    rw [view_bumpEpoch hbump, LeaseView.after, ← hmod]
    split
    · rfl
    · rw [view_markPgsPeeringForNodes (by exact pgsKeyed_of_view hk rfl) s (S := (· = nodeId))
        (by simp)]
      rfl
  · cases h
    exact follows_unchanged ..

theorem view_establish {authority : LeaseHorizonAuthorityBinding}
    {horizon : CommittedLeaseGrantHorizon}
    (h : CommittedLeaseGrantHorizon.establish s.leaseGrantHorizon authority nowMs durationMs
      controlPlaneClockSkewBudgetMs = .ok horizon) :
    ClusterControlSnapshot.view { s with leaseGrantHorizon := some horizon } =
      s.view.establish authority nowMs durationMs := by
  refine LeaseView.ext rfl rfl ?_ rfl rfl
  show some horizon = (CommittedLeaseGrantHorizon.establish s.leaseGrantHorizon authority nowMs
    durationMs controlPlaneClockSkewBudgetMs).toOption
  rw [h]
  rfl

theorem follows_establishLeaseGrantHorizon {authority : LeaseHorizonAuthorityBinding} :
    RefinesView (.establishLeaseGrantHorizon authority nowMs durationMs) := by
  intro s a _ h
  refine follows_of_keeps (exact_establishLeaseGrantHorizon h).1 ?_
  simp only [applyArm, applyEstablishLeaseGrantHorizon, bind_eq_ok, failIf_eq_ok, pure_eq_ok,
    exists_const, mapError_eq_ok] at h
  obtain ⟨-, -, -, horizon, hh, rfl⟩ := h
  rw [view_applied, view_recordCommittedTimestamp, view_establish hh]
  rfl

theorem view_establishHeartbeatLeaseHorizon
    (h : s.establishHeartbeatLeaseHorizon authority nowMs leaseDeadlineMs = .ok next) :
    next.view = s.view.coverLease authority nowMs leaseDeadlineMs := by
  rcases establishHeartbeatLeaseHorizon_cases h with ⟨rfl, hcovers⟩ | ⟨b, horizon, rfl, hcovers,
    hh, rfl, -⟩
  · cases authority with
    | none => rfl
    | some b => exact (if_pos (hcovers b rfl)).symm
  · exact (view_establish hh).trans (if_neg hcovers).symm

/-! ### Promotion -/

theorem view_foldl_setLease :
    (promoted.foldl (fun next lease => next.modifyNode lease.nodeId fun record =>
        { record with leaseDeadlineMs := some lease.leaseDeadlineMs }) s).view =
      promoted.foldl (fun next lease => next.modifyNode lease.nodeId
        (NodeView.setLease lease.leaseDeadlineMs)) s.view :=
  (foldl_hom ClusterControlSnapshot.view fun t lease =>
    (view_modifyNode t lease.nodeId fun _ => by rfl).symm).symm

theorem follows_promoteNodeHeartbeatLeases {authority : LeaseHorizonAuthorityBinding} :
    RefinesView (.promoteNodeHeartbeatLeases authority promoted) := by
  intro s a _ h
  refine follows_of_keeps (exact_promoteNodeHeartbeatLeases h).1 ?_
  simp only [applyArm, applyPromoteNodeHeartbeatLeases, bind_eq_ok, failIf_eq_ok, okOr_eq_ok,
    pure_eq_ok, exists_const] at h
  obtain ⟨-, -, -, -, -, -, rfl⟩ := h
  exact (view_applied ..).trans view_foldl_setLease

/-! ### Heartbeats -/

theorem historicalPendingFrom_eq
    (h : historicalPendingFrom s nodeId observations seen = .ok pendings) :
    pendings = observations.filter (·.pendingMetadataCommand.isSome) := by
  induction observations generalizing seen pendings with
  | nil => cases h; rfl
  | cons first rest ih =>
    simp only [historicalPendingFrom, bind_eq_ok, failIf_eq_ok, exists_const] at h
    obtain ⟨-, -, h⟩ := h
    split at h
    · next hp => rw [ih h, filter_cons_of_neg (by simp [hp])]
    · next pending hp =>
      simp only [bind_eq_ok, pure_eq_ok] at h
      obtain ⟨-, -, rest', hrest, rfl⟩ := h
      rw [ih hrest, filter_cons_of_pos (by simp [hp])]

theorem historicalPendingActiveFrom_eq
    (h : historicalPendingActiveFrom s nodeId observations seen = .ok pendings) :
    pendings = observations.filter fun observation =>
      (s.view.pgs observation.pgId).any (·.state == .active) ∧
        observation.pendingMetadataCommand.any (·.clusterEpoch < s.clusterEpoch) := by
  induction observations generalizing seen pendings with
  | nil => cases h; rfl
  | cons first rest ih =>
    simp only [historicalPendingActiveFrom, bind_eq_ok, failIf_eq_ok, okOr_eq_ok, pure_eq_ok,
      exists_const] at h
    obtain ⟨-, pg, hpg, -, -, rest', hrest, rfl⟩ := h
    simp [ih hrest, filter_cons, hpg, PgControlRecord.view]

theorem newlyPeering_ne_nil (hk : s.PgsKeyed) :
    newlyPeering s pgIds ≠ [] ↔
      ∃ pgId pg, s.view.pgs pgId = some pg ∧ pg.state ≠ .peering ∧ pgId ∈ pgIds := by
  rw [newlyPeering, ne_eq, map_eq_nil_iff, eq_nil_iff_forall_not_mem, not_forall]
  simp only [not_not, mem_filter, mem_values, Bool.and_eq_true, bne_iff_ne,
    decide_eq_true_eq]
  constructor
  · rintro ⟨record, ⟨k, hr⟩, hs, hm⟩
    exact ⟨k, record.view, view_pg hr, hs, hk k record hr ▸ hm⟩
  · rintro ⟨k, pg, hv, hs, hm⟩
    obtain ⟨record, hr, rfl⟩ := Option.map_eq_some_iff.mp hv
    exact ⟨record, ⟨k, hr⟩, hs, (hk k record hr).symm ▸ hm⟩

@[simp]
theorem view_recordClusterMapHistoryRouteReferences (record : NodeControlRecord)
    (scanGeneration : Nat) (reported : PgClusterMapHistoryRouteReferences) :
    (record.recordClusterMapHistoryRouteReferences scanGeneration reported).view = record.view := by
  unfold NodeControlRecord.recordClusterMapHistoryRouteReferences
  split <;> rfl

theorem view_clearObservations (record : NodeControlRecord) :
    ({ record with pgObservations := ∅ } : NodeControlRecord).view = record.view := rfl

theorem view_renewLease (record : NodeControlRecord) :
    ((record.observeProcess heartbeat).renewLease heartbeat heartbeatAtMs leaseDeadlineMs).view =
      record.view.renewLease heartbeat leaseDeadlineMs := by
  rw [renewLease, view_clearObservations,
    view_recordClusterMapHistoryRouteReferences]
  rfl

theorem view_renewLease_healthy (record : NodeControlRecord) :
    (({ record.observeProcess heartbeat with observedAvailability := .healthy } :
      NodeControlRecord).renewLease heartbeat heartbeatAtMs leaseDeadlineMs).view =
      (record.view.renewLease heartbeat leaseDeadlineMs).setHealthy := by
  rw [renewLease, view_clearObservations,
    view_recordClusterMapHistoryRouteReferences]
  rfl

theorem view_fenceAfterHeartbeat {previous : ClusterControlSnapshot} (hk : s.PgsKeyed)
    {pendingIds : List PgId} {fenceNode epochChanged : Bool}
    {pending : PgId → Prop} {fenceNode' epochChanged' : Prop}
    (hp : ∀ pgId, pgId ∈ pendingIds ↔ pending pgId) (hf : fenceNode = true ↔ fenceNode')
    (he : epochChanged = true ↔ epochChanged')
    (h : fenceAfterHeartbeat s previous nodeId pendingIds fenceNode epochChanged = .ok next) :
    next.view = s.view.fenceAfterHeartbeat previous.view nodeId pending fenceNode'
      epochChanged' := by
  have hmark : (markPgsPeeringForPgIds s previous pendingIds).view =
      s.view.markPeering previous.view fun pgId _ => pending pgId :=
    view_markPgsPeeringForPgIds hk previous fun {pgId _} _ => hp pgId
  have hkm : (markPgsPeeringForPgIds s previous pendingIds).PgsKeyed := by
    intro pgId record hr
    rw [markPgsPeeringForPgIds, Std.ExtTreeMap.getElem?_map] at hr
    obtain ⟨old, hold, rfl⟩ := Option.map_eq_some_iff.mp hr
    split
    · exact (hk pgId old hold :)
    · exact hk pgId old hold
  unfold fenceAfterHeartbeat at h
  unfold LeaseView.fenceAfterHeartbeat
  by_cases hchanged : epochChanged
  · rw [if_pos hchanged] at h
    rw [if_pos (he.mp hchanged), view_bumpEpoch h]
    by_cases hfence : fenceNode
    · rw [if_pos hfence, if_pos (hf.mp hfence),
        view_markPgsPeeringForNodes hkm previous (S := (· = nodeId)) (by simp), hmark]
    · rw [if_neg hfence, if_neg (mt hf.mpr hfence), hmark]
  · rw [if_neg hchanged] at h
    cases h
    rw [if_neg (mt he.mpr hchanged), hmark]

theorem follows_recordStaleHeartbeat (hk : s.view.Keyed) {record : NodeControlRecord}
    (hr : s.nodes[heartbeat.nodeId]? = some record)
    (hstale : heartbeat.observedEpoch ≠ s.clusterEpoch)
    (h : recordStaleHeartbeat s record heartbeat heartbeatAtMs leaseDeadlineMs authority = .ok a) :
    a.Follows s.view (s.view.heartbeat heartbeat heartbeatAtMs leaseDeadlineMs authority) := by
  simp only [recordStaleHeartbeat, bind_eq_ok, pure_eq_ok] at h
  obtain ⟨-, -, pendings, hpend, covered, hcover, next, hnext, rfl⟩ := h
  have hcv := view_establishHeartbeatLeaseHorizon hcover
  refine follows_of_keeps (.of_flag fun hc => not_not.mp (of_decide_eq_false hc)) ?_
  rw [view_applied]
  refine Eq.trans (view_modifyNode_id next heartbeat.nodeId fun _ => rfl) ?_
  -- the state before PGs are fenced
  generalize hg : ((covered.recordCommittedTimestamp heartbeatAtMs).modifyNode heartbeat.nodeId
    fun node => (node.observeProcess heartbeat).renewLease heartbeat heartbeatAtMs
      leaseDeadlineMs).removeUnavailableNodeObservation heartbeat.nodeId = renewed at hnext
  have hrenewed : renewed.view = ((s.view.coverLease authority heartbeatAtMs
      leaseDeadlineMs).recordTimestamp heartbeatAtMs).modifyNode heartbeat.nodeId
      (NodeView.renewLease heartbeat leaseDeadlineMs) := by
    rw [← hg, view_removeUnavailableNodeObservation, view_modifyNode _ _ fun node =>
      view_renewLease node, view_recordCommittedTimestamp,
      hcv]
  have hpgs : renewed.view.pgs = s.view.pgs := by
    rw [hrenewed]
    exact LeaseView.coverLease_pgs ..
  have hkr := pgsKeyed_of_view hk hpgs
  have hmem : ∀ pgId, pgId ∈ pendings.map (·.pgId) ↔ LeaseView.ReportsPending heartbeat pgId := by
    intro pgId
    simp only [historicalPendingFrom_eq hpend, mem_map, mem_filter, LeaseView.ReportsPending,
      and_assoc]
  have hnewly : (record.processChanges heartbeat || newlyPeering renewed (pendings.map (·.pgId)) !=
      []) = true ↔ (record.processChanges heartbeat = true ∨ ∃ pgId pg, s.view.pgs pgId = some pg ∧
        pg.state ≠ .peering ∧ LeaseView.ReportsPending heartbeat pgId) := by
    rw [Bool.or_eq_true, bne_iff_ne, newlyPeering_ne_nil hkr, hpgs]
    simp only [hmem]
  rw [view_fenceAfterHeartbeat hkr hmem Iff.rfl hnewly hnext, hrenewed, LeaseView.heartbeat,
    view_nodes, hr]
  exact (if_pos hstale).symm

theorem follows_recordCurrentHeartbeat (hk : s.view.Keyed) {record : NodeControlRecord}
    (hr : s.nodes[heartbeat.nodeId]? = some record)
    (hcurrent : heartbeat.observedEpoch = s.clusterEpoch)
    (h : recordCurrentHeartbeat s record heartbeat heartbeatAtMs leaseDeadlineMs authority =
      .ok a) :
    a.Follows s.view (s.view.heartbeat heartbeat heartbeatAtMs leaseDeadlineMs authority) := by
  simp only [recordCurrentHeartbeat, bind_eq_ok, pure_eq_ok] at h
  obtain ⟨-, -, pendings, hpend, covered, hcover, next, hnext, rfl⟩ := h
  have hcv := view_establishHeartbeatLeaseHorizon hcover
  refine follows_of_keeps (.of_flag fun hc => not_not.mp (of_decide_eq_false hc)) ?_
  rw [view_applied]
  refine Eq.trans (view_modifyNode_id_if next heartbeat.nodeId fun _ => rfl) ?_
  -- the state before PGs are fenced
  generalize hg : foldl _ _ heartbeat.pgObservations = renewed at hnext
  have hrenewed : renewed.view = ((s.view.coverLease authority heartbeatAtMs
      leaseDeadlineMs).recordTimestamp heartbeatAtMs).modifyNode heartbeat.nodeId
      fun node => (NodeView.renewLease heartbeat leaseDeadlineMs node).setHealthy := by
    rw [← hg, foldl_same ClusterControlSnapshot.view _ _ fun t observation =>
      view_modifyPg_id t _ fun pg => view_advanceActiveProof _ _ observation,
      view_removeUnavailableNodeObservation, ← hcv, ← view_recordCommittedTimestamp]
    exact view_modifyNode _ _ fun node =>
      view_renewLease_healthy node
  have hkr : renewed.PgsKeyed := by
    refine pgsKeyed_of_view hk ?_
    rw [hrenewed]
    exact LeaseView.coverLease_pgs ..
  have hmem : ∀ pgId, pgId ∈ pendings.map (·.pgId) ↔
      s.view.ReportsPendingActive heartbeat pgId := by
    intro pgId
    simp only [historicalPendingActiveFrom_eq hpend, mem_map, mem_filter,
      decide_eq_true_eq, LeaseView.ReportsPendingActive, and_assoc]
    rfl
  have haffected : (record.processChanges heartbeat || (record.observedAvailability != .healthy &&
      record.administrativelyAvailable)) = true ↔ (record.view.processChanges heartbeat = true ∨
        record.view.observedAvailability ≠ .healthy ∧
          record.view.administrativelyAvailable = true) := by
    rw [Bool.or_eq_true, Bool.and_eq_true, bne_iff_ne]
    rfl
  have hsome : (pendings != []) = true ↔ ∃ pgId, s.view.ReportsPendingActive heartbeat pgId := by
    rw [bne_iff_ne, ne_eq, ← map_eq_nil_iff (f := (·.pgId)), eq_nil_iff_forall_not_mem]
    simp only [hmem, not_forall, not_not]
  rw [view_fenceAfterHeartbeat hkr hmem haffected (by rw [Bool.or_eq_true, haffected, hsome]) hnext,
    hrenewed, LeaseView.heartbeat, view_nodes, hr]
  exact (if_neg (not_not.mpr hcurrent)).symm

/-- What an accepted heartbeat has checked and established. -/
theorem recordNodeHeartbeat_eq_ok
    (h : applyRecordNodeHeartbeat s heartbeat heartbeatAtMs leaseDeadlineMs authority = .ok a) :
    ∃ record next, s.nodes[heartbeat.nodeId]? = some record ∧
      (∀ current, record.leaseDeadlineMs = some current → current ≤ leaseDeadlineMs) ∧
      heartbeat.observedEpoch ≤ s.clusterEpoch ∧
      s.establishHeartbeatLeaseHorizon authority heartbeatAtMs leaseDeadlineMs = .ok next := by
  obtain ⟨record, hv, h⟩ := bind_eq_ok.mp h
  obtain ⟨hr, hlease, hepoch, -⟩ := validateHeartbeat_eq_ok hv
  split at h
  · simp only [recordStaleHeartbeat, bind_eq_ok] at h
    obtain ⟨-, -, -, -, next, hcover, -⟩ := h
    exact ⟨record, next, hr, hlease, hepoch, hcover⟩
  · simp only [recordCurrentHeartbeat, bind_eq_ok] at h
    obtain ⟨-, -, -, -, next, hcover, -⟩ := h
    exact ⟨record, next, hr, hlease, hepoch, hcover⟩

theorem follows_recordNodeHeartbeat :
    RefinesView (.recordNodeHeartbeat heartbeat heartbeatAtMs leaseDeadlineMs authority) := by
  intro s a hk h
  obtain ⟨record, hv, h⟩ := bind_eq_ok.mp h
  have hr := (validateHeartbeat_eq_ok hv).1
  split at h
  · next hstale => exact follows_recordStaleHeartbeat hk hr hstale h
  · next hcurrent => exact follows_recordCurrentHeartbeat hk hr (not_not.mp hcurrent) h

/-! ### Expiry -/

theorem follows_finishExpiry (hk : next.PgsKeyed)
    {expired : List NodeControlRecord} {serving : NodeId → Prop}
    (hserving : ∀ nodeId, (∃ record ∈ expired, record.administrativelyAvailable ∧
      record.nodeId = nodeId) ↔ serving nodeId)
    (hkeeps : a.KeepsUnlessChanged s) (h : finishExpiry s next expired changed = .ok a) :
    a.Follows s.view (next.view.finishExpiry s.view serving) := by
  refine follows_of_keeps hkeeps ?_
  have hmem : ∀ nodeId, nodeId ∈ (expired.filter (·.administrativelyAvailable)).map (·.nodeId) ↔
      serving nodeId := by
    intro nodeId
    rw [← hserving]
    simp [and_assoc]
  simp only [finishExpiry] at h
  split at h
  · next hnil =>
    simp only [pure_bind, pure_eq_ok] at h
    subst h
    have hnone : ¬∃ nodeId, serving nodeId := by
      rintro ⟨nodeId, hs⟩
      rw [← hmem, hnil] at hs
      cases hs
    exact (view_applied ..).trans (if_neg hnone).symm
  · next hne =>
    simp only [bind_eq_ok, pure_eq_ok] at h
    obtain ⟨bumped, hbump, rfl⟩ := h
    obtain ⟨nodeId, hs⟩ := exists_mem_of_ne_nil _ hne
    rw [view_applied, view_bumpEpoch hbump, view_markPgsPeeringForNodes hk s hmem]
    exact (if_pos ⟨nodeId, (hmem nodeId).mp hs⟩).symm

theorem view_expireLeases : ClusterControlSnapshot.view { s with
      nodes := s.nodes.map fun _ record =>
        if record.leaseExpired expireAtMs then record.expireLease else record } =
      { s.view with
        nodes := fun nodeId => (s.view.nodes nodeId).map fun node =>
          if node.leaseExpired expireAtMs then node.expireLease else node } := by
  refine LeaseView.ext rfl rfl rfl (funext fun k => ?_) rfl
  simp only [view_nodes, Std.ExtTreeMap.getElem?_map, Option.map_map]
  refine congrArg (Option.map · s.nodes[k]?) (funext fun record => ?_)
  exact apply_ite NodeControlRecord.view _ _ _

theorem follows_expireHeartbeatLeases : RefinesView (.expireHeartbeatLeases expireAtMs) := by
  intro s a hk h
  have hkeeps := (exact_expireHeartbeatLeases h).1
  simp only [applyArm, applyExpireHeartbeatLeases, bind_eq_ok] at h
  obtain ⟨-, -, h⟩ := h
  generalize hg : foldl _ _ _ = next at h
  have hview : next.view = { s.view.recordTimestamp expireAtMs with
      nodes := fun nodeId => (s.view.nodes nodeId).map fun node =>
        if node.leaseExpired expireAtMs then node.expireLease else node } := by
    have hobserved : ∀ (t : ClusterControlSnapshot) (record : NodeControlRecord),
        (t.observeUnavailable record (record.leaseDeadlineMs.getD 0) expireAtMs).view = t.view :=
      fun _ _ => rfl
    rw [← hg, foldl_same ClusterControlSnapshot.view _ _ hobserved]
    exact view_expireLeases
  have hpgs : next.view.pgs = s.view.pgs := by rw [hview]; rfl
  rw [LeaseView.after, ← hview]
  refine follows_finishExpiry (pgsKeyed_of_view hk hpgs) (fun nodeId => ?_) hkeeps h
  simp only [mem_filter, mem_values]
  constructor
  · rintro ⟨record, ⟨⟨k, hr⟩, hexpired⟩, hadmin, rfl⟩
    have hv := view_node hr
    exact ⟨record.view, (show record.nodeId = k from hk.node hv) ▸ hv, hexpired, hadmin⟩
  · rintro ⟨node, hv, hexpired, hadmin⟩
    obtain ⟨record, hr, rfl⟩ := Option.map_eq_some_iff.mp hv
    exact ⟨record, ⟨⟨nodeId, hr⟩, hexpired⟩, hadmin, hk.node hv⟩

theorem view_foldl_expireLease (expired : List ExpiredNodeHeartbeatLease) :
    (expired.foldl (·.expireNodeLease expireAtMs ·) s).view =
      expired.foldl (fun next lease => next.modifyNode lease.nodeId NodeView.expireLease)
        s.view := by
  refine (foldl_hom ClusterControlSnapshot.view fun t lease => ?_).symm
  unfold expireNodeLease
  split
  · next hn =>
    refine LeaseView.ext rfl rfl rfl (funext fun k => ?_) rfl
    simp only [LeaseView.modifyNode, view_nodes]
    split
    · next hk => subst hk; simp [hn]
    · rfl
  · exact (view_modifyNode t lease.nodeId fun _ => rfl).symm

theorem follows_expireNodeHeartbeatLeases {authority : LeaseHorizonAuthorityBinding}
    {expired : List ExpiredNodeHeartbeatLease} :
    RefinesView (.expireNodeHeartbeatLeases authority expireAtMs expired) := by
  intro s a hk h
  have hkeeps := (exact_expireNodeHeartbeatLeases h).1
  simp only [applyArm, applyExpireNodeHeartbeatLeases, bind_eq_ok] at h
  obtain ⟨-, -, -, -, covered, hcover, horizon, -, -, -, h⟩ := h
  have hcv := view_establishHeartbeatLeaseHorizon hcover
  generalize hg : foldl _ _ _ = next at h
  have hview : next.view = expired.foldl (fun next lease =>
      next.modifyNode lease.nodeId NodeView.expireLease)
      ((s.view.coverLease (some authority) expireAtMs expireAtMs).recordTimestamp expireAtMs) := by
    rw [← hg, view_foldl_expireLease, view_recordCommittedTimestamp, hcv]
  have hpgs : next.view.pgs = s.view.pgs := by
    rw [hview, foldl_same LeaseView.pgs _ _ fun _ _ => by rfl]
    exact LeaseView.coverLease_pgs ..
  rw [LeaseView.after, ← hview]
  refine follows_finishExpiry (pgsKeyed_of_view hk hpgs) (fun nodeId => ?_) hkeeps h
  simp only [mem_filterMap]
  constructor
  · rintro ⟨record, ⟨lease, hl, hr⟩, hadmin, rfl⟩
    have hv := view_node hr
    have hid : record.nodeId = lease.nodeId := hk.node hv
    exact ⟨⟨lease, hl, hid.symm⟩, record.view, hid ▸ hv, hadmin⟩
  · rintro ⟨⟨lease, hl, rfl⟩, node, hv, hadmin⟩
    obtain ⟨record, hr, rfl⟩ := Option.map_eq_some_iff.mp hv
    exact ⟨record, ⟨lease, hl, hr⟩, hadmin, hk.node hv⟩

/-! ### Commands about PGs -/

/-- A command that fences one PG and advances the epoch. -/
theorem view_leavePg {w : LeaseView}
    {f : PgControlRecord → PgControlRecord} {actingSet : List NodeId → List NodeId}
    {deadline : PgView → Option Nat} (hf : ∀ record, s.pgs[pgId]? = some record → (f record).view =
      w.leftPg state actingSet deadline record.view)
    (hw : s.view = w) (h : (s.modifyPg pgId f).bumpEpoch = .ok next) :
    next.view = w.leavePg pgId state actingSet deadline := by
  subst hw
  rw [view_bumpEpoch h, view_modifyPg s pgId hf]
  rfl

theorem follows_setPgActingSet : RefinesView (.setPgActingSet pgId actingSet) := by
  intro s a _ h
  simp only [applyArm, applySetPgActingSet, bind_eq_ok, failIf_eq_ok, exists_const] at h
  obtain ⟨-, -, -, -, -, -, -, h⟩ := h
  split at h
  · next record hr =>
    split at h
    · cases h
      exact follows_unchanged ..
    · simp only [bind_eq_ok, pure_eq_ok] at h
      obtain ⟨floor, -, next, hbump, rfl⟩ := h
      refine follows_changed ?_
      rw [LeaseView.after, if_pos (by simp [hr])]
      refine view_leavePg (fun record _ => ?_) rfl hbump
      simp only [changeActingSet, fencingLeaseWithoutPreference, view_fencingLease,
        PgControlRecord.view]
      rfl
  · next hr =>
    simp only [bind_eq_ok, pure_eq_ok] at h
    obtain ⟨next, hbump, rfl⟩ := h
    refine follows_changed ?_
    rw [view_bumpEpoch hbump, view_insertPg, LeaseView.after, if_neg (by simp [hr])]

theorem follows_setPgActingSetWithMetadataTransfer {transfer : PgMetadataTransferProof}
    {expectedDestinationEpoch : ClusterEpoch} : RefinesView (.setPgActingSetWithMetadataTransfer
      pgId actingSet transfer expectedDestinationEpoch transition) := by
  intro s a _ h
  simp only [applyArm, applySetPgActingSetWithMetadataTransfer, bind_eq_ok, failIf_eq_ok,
    okOr_eq_ok, exists_const] at h
  obtain ⟨-, -, -, -, -, -, -, record, hr, h⟩ := h
  split at h
  · simp only [bind_eq_ok, pure_eq_ok] at h
    obtain ⟨-, -, rfl⟩ := h
    exact follows_unchanged ..
  · simp only [bind_eq_ok, failIf_eq_ok, pure_eq_ok, exists_const] at h
    obtain ⟨-, -, -, floor, -, -, -, sourceNodeId, -, next, hbump, rfl⟩ := h
    refine follows_changed ?_
    rw [view_bumpEpoch hbump, LeaseView.after, LeaseView.leavePg]
    refine LeaseView.ext rfl rfl rfl rfl (funext fun k => ?_)
    simp only [LeaseView.bumpEpoch, view_pgs, LeaseView.modifyPg, getElem?_insert_eq]
    split
    · next hk =>
      subst hk
      simp only [hr, Option.map_some, Option.some.injEq]
      simp only [installTransfer, resetToPeering,
        fencingLeaseWithoutPreference, view_fencingLease, PgControlRecord.view]
      rfl
    · rfl

theorem follows_setPgState : RefinesView (.setPgState pgId state) := by
  intro s a _ h
  simp only [applyArm, applySetPgState, bind_eq_ok, failIf_eq_ok, okOr_eq_ok, exists_const] at h
  obtain ⟨-, record, hr, h⟩ := h
  split at h
  · cases h
    exact follows_unchanged ..
  · simp only [bind_eq_ok, pure_eq_ok] at h
    obtain ⟨next, hbump, rfl⟩ := h
    refine follows_changed (view_leavePg (fun record _ => ?_) rfl hbump)
    simp only [PgControlRecord.setState, fencingLeaseWithoutPreference, view_fencingLease,
      PgControlRecord.view, ite_self]
    rfl

theorem follows_beginUnavailablePgPlacementTransition :
    RefinesView (.beginUnavailablePgPlacementTransition body) := by
  intro s a _ h
  simp only [applyArm, applyBeginUnavailablePgPlacementTransition, bind_eq_ok] at h
  obtain ⟨repeats, -, h⟩ := h
  split at h
  · cases h
    exact follows_unchanged ..
  · simp only [bind_eq_ok, pure_eq_ok] at h
    obtain ⟨record, hrecord, next, hbump, rfl⟩ := h
    have hr := (validateBegin_eq_ok hrecord).1
    refine follows_changed ?_
    refine view_leavePg (fun other hother => ?_) (view_retireTransition _ _) hbump
    rw [retireTransition_pgs] at hother
    cases hr.symm.trans hother
    simp only [beginReplacement, resetToPeering,
      fencingLeaseWithoutPreference, view_fencingLease, PgControlRecord.view]
    rfl

theorem committedSourceLeaseDeadline_eq_ok {source : Option Nat}
    (h : committedSourceLeaseDeadline s pgId committed authority observed = .ok source) :
    committed = none ∧ source = observed ∨
      ∃ c d, committed = some c ∧ observed = some d ∧ d ≤ c ∧ source = some c := by
  unfold committedSourceLeaseDeadline at h
  split at h
  · cases h
    exact .inl ⟨rfl, rfl⟩
  · next c authority d =>
    split at h
    · next hle =>
      simp only [bind_eq_ok, failIf_eq_ok, pure_eq_ok, exists_const] at h
      obtain ⟨-, rfl⟩ := h
      exact .inr ⟨c, d, rfl, rfl, hle, rfl⟩
    · cases h
  · cases h
  · cases h

/-- The source lease of a fence on an Active PG is the lease of its primary. -/
theorem observedSourceLeaseDeadline_active (hactive : record.state = .active)
    (h : observedSourceLeaseDeadline s pgId record = .ok observed) :
    ∃ lease, activePrimaryLease s record = some lease ∧ observed = some lease.leaseDeadlineMs := by
  simp only [observedSourceLeaseDeadline, hactive, if_true, bind_eq_ok, okOr_eq_ok,
    pure_eq_ok] at h
  obtain ⟨primary, hp, node, hn, deadline, hd, rfl⟩ := h
  have hprimary : record.activePrimary = some primary := (Option.filter_eq_some_iff.mp hp).1
  exact ⟨⟨primary, node.nodeIncarnation, node.endpoint, deadline, true⟩,
    by simp [activePrimaryLease, hactive, hprimary, hn, hd], rfl⟩

theorem follows_fencePgForMetadataTransfer :
    RefinesView (.fencePgForMetadataTransfer pgId committed authority transition) := by
  intro s a _ h
  simp only [applyArm, applyFencePgForMetadataTransfer, bind_eq_ok, okOr_eq_ok] at h
  obtain ⟨-, -, record, hr, observed, hobserved, source, hsource, h⟩ := h
  split at h
  · next hactive =>
    simp only [finishFence, bind_eq_ok, pure_eq_ok] at h
    obtain ⟨floor, -, fenceEpoch, -, next, hbump, rfl⟩ := h
    refine follows_changed (view_leavePg (fun other hother => ?_) rfl hbump)
    cases hr.symm.trans hother
    have hlease : fencedLease s record source =
        (s.view.fencingLease record.view).map fun previous =>
          { previous with
            leaseDeadlineMs := committed.getD previous.leaseDeadlineMs
            preferReactivation := false } := by
      obtain ⟨lease, hl, rfl⟩ := observedSourceLeaseDeadline_active hactive hobserved
      have hfence : fencingLease s record = some lease := by rw [fencingLease, hl]; rfl
      rw [fencedLease, ← view_fencingLease, hfence]
      rcases committedSourceLeaseDeadline_eq_ok hsource with ⟨rfl, rfl⟩ | ⟨c, d, rfl, -, -, rfl⟩
      · rfl
      · rfl
    simp only [fenceActive, resetToPeering, hlease,
      PgControlRecord.view, LeaseView.leftPg, hactive, if_true]
    rfl
  · next hpeering =>
    split at h
    · cases h
      exact follows_unchanged ..
    · split at h
      · cases h
        exact follows_unchanged ..
      · next hfenced =>
        simp only [finishFence, bind_eq_ok, pure_eq_ok] at h
        obtain ⟨fenceEpoch, -, next, hbump, rfl⟩ := h
        refine follows_changed (view_leavePg (fun other hother => ?_) rfl hbump)
        cases hr.symm.trans hother
        have hnone : observed = none := by
          simp only [observedSourceLeaseDeadline, hpeering, hfenced] at hobserved
          exact (pure_eq_ok.mp hobserved).symm
        have hsrc : source = none := by
          rcases committedSourceLeaseDeadline_eq_ok hsource with ⟨-, rfl⟩ | ⟨c, d, -, hd, -⟩
          · exact hnone
          · rw [hnone] at hd
            cases hd
        simp only [fencePeering, fencedLease, hsrc, view_fencingLease,
          PgControlRecord.view, LeaseView.leftPg, hpeering]
        rfl
  · cases h

/-! ### Completions -/

theorem modifyPg_of_same {v : LeaseView} {f : PgView → PgView}
    (h : ∀ pg, v.pgs pgId = some pg → f pg = pg) : v.modifyPg pgId f = v := by
  refine LeaseView.ext rfl rfl rfl rfl (funext fun k => ?_)
  simp only [LeaseView.modifyPg]
  split
  · next hk =>
    subst hk
    cases hp : v.pgs pgId with
    | none => rfl
    | some pg => rw [Option.map_some, h pg hp]
  · rfl

theorem view_activatePg
    (hs : ∀ record, s.pgs[pgId]? = some record → record.state ≠ .active)
    (proof : PgMetadataProof) (metadataLogEpoch : ClusterEpoch) :
    (s.activatePg pgId primary proof metadataLogEpoch).view =
      s.view.modifyPg pgId (PgView.activate primary) := by
  rw [activatePg, view_retireTransition]
  refine view_modifyPg s pgId fun record hr => ?_
  have hne : record.view.state ≠ .active := hs record hr
  rw [PgView.activate, if_neg hne]
  rfl

theorem complete_of_active {v : LeaseView} (hp : v.pgs pgId = some pg)
    (hactive : pg.state = .active) (atMs : Nat) :
    v.complete atMs [(pgId, primary)] = v.recordTimestamp atMs := by
  have hsame : (v.recordTimestamp atMs).modifyPg pgId (PgView.activate primary) =
      v.recordTimestamp atMs := by
    refine modifyPg_of_same fun other ho => ?_
    cases hp.symm.trans ho
    exact if_pos hactive
  have hno : ¬∃ completion ∈ [(pgId, primary)], ∃ pg, v.pgs completion.1 = some pg ∧
      pg.state ≠ .active := by
    simp [hp, hactive]
  rw [LeaseView.complete, if_neg hno]
  exact hsame

/-- A PG that is activated in a new epoch; the view does not see the epoch of its proof. -/
theorem view_completed {atMs : Nat} {proof : PgMetadataProof} {logEpoch : ClusterEpoch}
    {v : LeaseView}
    (h : ((s.recordCommittedTimestamp atMs).activatePg pgId primary proof logEpoch).bumpEpoch =
      .ok next) (hv : s.view = v) (hr : s.pgs[pgId]? = some record) (hne : record.state ≠ .active)
    (epoch : ClusterEpoch) :
    (next.modifyPg pgId fun record => { record with activeMetadataProofEpoch := some epoch }).view =
      v.complete atMs [(pgId, primary)] := by
  subst hv
  refine (view_modifyPg_id next pgId fun _ => by rfl).trans ?_
  rw [view_bumpEpoch h, view_activatePg fun other ho => ?_, LeaseView.complete,
    if_pos ⟨_, mem_cons_self, record.view, view_pg hr, hne⟩]
  · rfl
  · cases hr.symm.trans ho
    exact hne

theorem follows_completePgPeering {completeAtMs : Nat} :
    RefinesView (.completePgPeering pgId primary nodeIncarnation completeAtMs) := by
  intro s a _ h
  simp only [applyArm, applyCompletePgPeering, bind_eq_ok] at h
  obtain ⟨-, -, -, -, validated, hv, h⟩ := h
  obtain ⟨record, hr, -, -, hcases⟩ := validatePgPeeringCompletion_eq_ok hv
  have hp := view_pg hr
  rcases hcases with ⟨hactive, -, rfl⟩ | ⟨proof, rfl, hcompletes⟩
  · cases h
    refine follows_of_keeps exact_timestamp.1 ?_
    rw [view_applied]
    exact (complete_of_active hp hactive completeAtMs).symm
  · have hne : record.state ≠ .active := by rw [hcompletes.peering]; decide
    simp only [bind_eq_ok, pure_eq_ok] at h
    obtain ⟨logEpoch, -, next, hbump, rfl⟩ := h
    exact follows_changed (view_completed hbump rfl hr hne _)

theorem follows_completeUnavailablePgPlacementTransition {body : CompleteUnavailableTransition} :
    RefinesView (.completeUnavailablePgPlacementTransition body) := by
  intro s a _ h
  simp only [applyArm, applyCompleteUnavailablePgPlacementTransition, bind_eq_ok] at h
  obtain ⟨-, -, h⟩ := h
  split at h
  · simp only [bind_eq_ok, failIf_eq_ok, pure_eq_ok, exists_const] at h
    obtain ⟨-, rfl⟩ := h
    exact follows_unchanged ..
  · simp only [bind_eq_ok, failIf_eq_ok, pure_eq_ok, exists_const] at h
    obtain ⟨-, _, hready, -, -, logEpoch, -, next, hbump, rfl⟩ := h
    obtain ⟨record, hr, hpeering⟩ := peering_of_payloadReadiness hready
    have hne : record.state ≠ .active := by rw [hpeering]; decide
    exact follows_changed (view_completed hbump rfl hr hne _)

theorem view_recordProofEpoch (completion : ReadyPgPeeringCompletion) :
    (record.recordProofEpoch completion).view = record.view := by
  unfold recordProofEpoch
  split <;> rfl

theorem view_activateReadyFrom {from' : ClusterControlSnapshot}
    (h : activateReadyFrom s ready from' = .ok next) :
    next.view = (ready.map fun completion => (completion.pgId, completion.primary)).foldl
      (fun next completion => next.modifyPg completion.1 (PgView.activate completion.2))
      from'.view := by
  induction ready generalizing from' with
  | nil =>
    cases h
    rfl
  | cons completion rest ih =>
    simp only [activateReadyFrom, bind_eq_ok] at h
    obtain ⟨logEpoch, -, h⟩ := h
    rw [ih h, map_cons, foldl_cons]
    congr 1
    split
    · next hactive =>
      refine (modifyPg_of_same fun pg hp => ?_).symm
      obtain ⟨record, hr, rfl⟩ := Option.map_eq_some_iff.mp hp
      have hs : record.view.state = .active := by simpa [hr] using hactive
      exact if_pos hs
    · next hactive =>
      refine view_activatePg (fun record hr hs => hactive ?_) _ _
      simp [hr, hs]

theorem follows_completeReadyPgPeerings {readyAtMs : Nat} :
    RefinesView (.completeReadyPgPeerings readyAtMs ready) := by
  intro s a _ h
  refine follows_of_keeps (arm_completeReadyPgPeerings h).exact.1 ?_
  simp only [applyArm, applyCompleteReadyPgPeerings, bind_eq_ok] at h
  obtain ⟨-, -, h⟩ := h
  split at h
  · next hnil =>
    cases h
    subst hnil
    simp [LeaseView.after, LeaseView.complete]
  · simp only [bind_eq_ok] at h
    obtain ⟨-, -, -, -, activated, hactivated, h⟩ := h
    have hview := view_activateReadyFrom hactivated
    have hany : (ready.any fun completion => s.pgs[completion.pgId]?.any (·.state != .active)) =
        true ↔ ∃ completion ∈ ready.map fun completion => (completion.pgId, completion.primary),
          ∃ pg, s.view.pgs completion.1 = some pg ∧ pg.state ≠ .active := by
      simp [Option.any_eq_true]
    split at h
    · next hc =>
      simp only [bind_eq_ok, pure_eq_ok] at h
      obtain ⟨next, hbump, rfl⟩ := h
      rw [view_applied, foldl_same ClusterControlSnapshot.view _ _ fun t completion =>
        view_modifyPg_id t _ fun record => view_recordProofEpoch completion,
        view_bumpEpoch hbump, hview]
      exact (if_pos (hany.mp hc)).symm
    · next hc =>
      cases h
      rw [view_applied, hview]
      exact (if_neg (mt hany.mpr hc)).symm

/-! ### The refinement -/

/-- **The state machine refines its lease view.**  An accepted command that changes the snapshot
takes its view to `LeaseView.after`; one that does not leaves the view as it is. -/
theorem view_apply (hk : s.view.Keyed) (h : applyControlPlaneCommand s c = .ok a) :
    a.snapshot.view = if a.changed then s.view.after c else s.view := by
  have harm := (applyControlPlaneCommand_eq_ok h).1
  cases c with
  | bootstrapInitialClusterMap => exact follows_bootstrap harm
  | bootstrapCertifiedInitialClusterMap => exact follows_bootstrap harm
  | setNodeMembership => exact follows_setNodeMembership hk harm
  | markNodeAvailability => exact follows_markNodeAvailability hk harm
  | recordNodeHeartbeat => exact follows_recordNodeHeartbeat hk harm
  | expireHeartbeatLeases => exact follows_expireHeartbeatLeases hk harm
  | expireNodeHeartbeatLeases => exact follows_expireNodeHeartbeatLeases hk harm
  | promoteNodeHeartbeatLeases => exact follows_promoteNodeHeartbeatLeases hk harm
  | beginUnavailablePgPlacementTransition =>
    exact follows_beginUnavailablePgPlacementTransition hk harm
  | completeUnavailablePgPlacementTransition =>
    exact follows_completeUnavailablePgPlacementTransition hk harm
  | establishLeaseGrantHorizon => exact follows_establishLeaseGrantHorizon hk harm
  | setPgActingSet => exact follows_setPgActingSet hk harm
  | setPgActingSetWithMetadataTransfer => exact follows_setPgActingSetWithMetadataTransfer hk harm
  | fencePgForMetadataTransfer => exact follows_fencePgForMetadataTransfer hk harm
  | setPgState => exact follows_setPgState hk harm
  | completePgPeering => exact follows_completePgPeering hk harm
  | completeReadyPgPeerings => exact follows_completeReadyPgPeerings hk harm

end Argmin.ControlPlane
