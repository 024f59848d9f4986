import Argmin.ControlPlane.LeaseMove
import Argmin.ControlPlane.SingleAuthority

/-!
# The live overlay

The live snapshot of an authority differs from the durable one by leases that were renewed in
memory.  `Overlay b v w` says this of their views: `w` is `v` with some leases raised, each raised
lease within the grant horizon that the authority `b` has committed.

* `Overlay.of_volatile` — a volatile heartbeat raises one more lease;
* `view_promote` — **after a promotion both views are the live one**;
* `commits_rebaseCommand`, `commits_rebaseHeartbeat` — a command then takes both to the same view,
  that of the durable result.
-/

namespace Argmin.ControlPlane

open Fallible TreeMap List ClusterControlSnapshot SingleAuthorityControlPlane

variable {a : AppliedControlPlaneCommand} {durable : ClusterControlSnapshot}
  {promoted : List PromotedNodeHeartbeatLease} {heartbeatAtMs leaseDeadlineMs : Nat}
  {nodeId : NodeId} {next : SingleAuthorityControlPlane}

variable {live s : ClusterControlSnapshot} {c : ControlPlaneCommand}
  {binding : LeaseHorizonAuthorityBinding} {v w : LeaseView} {heartbeat : NodeHeartbeat}
  {plane : SingleAuthorityControlPlane}

/-- A live lease: the durable one, or one raised within the horizon of `binding`. -/
def RaisedLease (binding : LeaseHorizonAuthorityBinding)
    (horizon : Option CommittedLeaseGrantHorizon) (durable live : Option Nat) : Prop :=
  live = durable ∨ ∃ d d' h, durable = some d ∧ live = some d' ∧ d ≤ d' ∧ horizon = some h ∧
    h.authority = binding ∧ d' ≤ h.grantNotAfterMs

/-- The live view `w` is the durable view `v` with some leases raised. -/
structure Overlay (binding : LeaseHorizonAuthorityBinding) (v w : LeaseView) : Prop where
  epoch : w.clusterEpoch = v.clusterEpoch
  timestamp : w.maxCommittedTimestampMs = v.maxCommittedTimestampMs
  horizon : w.leaseGrantHorizon = v.leaseGrantHorizon
  pgs : w.pgs = v.pgs
  absent : ∀ {n}, v.nodes n = none → w.nodes n = none
  known : ∀ {n node}, v.nodes n = some node → ∃ lease,
    w.nodes n = some { node with leaseDeadlineMs := lease } ∧
      RaisedLease binding v.leaseGrantHorizon node.leaseDeadlineMs lease

theorem Overlay.refl (binding : LeaseHorizonAuthorityBinding) (v : LeaseView) :
    Overlay binding v v :=
  ⟨rfl, rfl, rfl, rfl, id, fun {_ node} h => ⟨node.leaseDeadlineMs, h, .inl rfl⟩⟩

/-- A live node is a durable one up to its lease. -/
theorem Overlay.exists_durable (h : Overlay binding v w) {n : NodeId} {node' : NodeView}
    (hn : w.nodes n = some node') :
    ∃ node lease, v.nodes n = some node ∧ node' = { node with leaseDeadlineMs := lease } := by
  cases hv : v.nodes n with
  | none => exact nomatch (h.absent hv).symm.trans hn
  | some node =>
    obtain ⟨lease, hw, -⟩ := h.known hv
    exact ⟨node, lease, rfl, Option.some.inj (hn.symm.trans hw)⟩

theorem Overlay.keyed (h : Overlay binding v w) (hk : v.Keyed) : w.Keyed := by
  refine ⟨fun {n node'} hn => ?_, fun {p pg} hp => hk.pg (h.pgs ▸ hp)⟩
  obtain ⟨node, lease, hv, rfl⟩ := h.exists_durable hn
  exact (hk.node hv : node.nodeId = n)

theorem RaisedLease.trans
    {horizon : Option CommittedLeaseGrantHorizon} {first second third : Option Nat}
    (h : RaisedLease binding horizon first second)
    (h' : RaisedLease binding horizon second third) : RaisedLease binding horizon first third := by
  rcases h' with rfl | ⟨d, d', hz, rfl, rfl, hle, hh, ha, hg⟩
  · exact h
  · rcases h with heq | ⟨e, e', -, rfl, he, hle', -⟩
    · exact .inr ⟨d, d', hz, heq.symm, rfl, hle, hh, ha, hg⟩
    · cases he
      exact .inr ⟨e, d', hz, rfl, rfl, hle'.trans hle, hh, ha, hg⟩

theorem Overlay.trans {u : LeaseView}
    (h : Overlay binding u v) (h' : Overlay binding v w) : Overlay binding u w := by
  refine ⟨h'.epoch.trans h.epoch, h'.timestamp.trans h.timestamp, h'.horizon.trans h.horizon,
    h'.pgs.trans h.pgs, fun hu => h'.absent (h.absent hu), fun {n node} hu => ?_⟩
  obtain ⟨lease, hv, hraised⟩ := h.known hu
  obtain ⟨lease', hw, hraised'⟩ := h'.known hv
  exact ⟨lease', hw, hraised.trans (h.horizon ▸ hraised')⟩

/-! ### Promotion -/

theorem mem_promoted {leases : List (Option PromotedNodeHeartbeatLease)}
    (h : (durable.nodes.toList.mapM fun (nodeId, node) => promotedLease live nodeId node) =
      .ok leases) (entry : PromotedNodeHeartbeatLease) :
    entry ∈ leases.filterMap id ↔ ∃ nodeId node, durable.nodes[nodeId]? = some node ∧
      promotedLease live nodeId node = .ok (some entry) := by
  simp only [mem_filterMap, id, exists_eq_right, mem_of_mapM_eq_ok h]
  constructor
  · rintro ⟨⟨nodeId, node⟩, hm, hp⟩
    exact ⟨nodeId, node, Std.ExtTreeMap.mem_toList_iff_getElem?_eq_some.mp hm, hp⟩
  · rintro ⟨nodeId, node, hm, hp⟩
    exact ⟨(nodeId, node), Std.ExtTreeMap.mem_toList_iff_getElem?_eq_some.mpr hm, hp⟩

/-- One node of a promotion: its leases agree, or the live one is later and is promoted. -/
theorem promotedLease_eq_ok {node : NodeControlRecord} {entry : Option PromotedNodeHeartbeatLease}
    (h : promotedLease live nodeId node = .ok entry) :
    ∃ liveNode, live.nodes[nodeId]? = some liveNode ∧
      (entry = none ∧ liveNode.leaseDeadlineMs = node.leaseDeadlineMs ∨
        ∃ lease, entry = some lease ∧ lease.nodeId = nodeId ∧
          liveNode.leaseDeadlineMs = some lease.leaseDeadlineMs ∧
          node.leaseDeadlineMs ≠ some lease.leaseDeadlineMs) := by
  simp only [promotedLease, bind_eq_ok, okOr_eq_ok, failIf_eq_ok, exists_const] at h
  obtain ⟨liveNode, hl, -, h⟩ := h
  refine ⟨liveNode, hl, ?_⟩
  split at h
  · next durableDeadline liveDeadline hdurable hlive =>
    split at h
    · next hlt =>
      cases h
      refine .inr ⟨_, rfl, rfl, hlive, fun heq => ?_⟩
      rw [hdurable, Option.some.injEq] at heq
      exact absurd heq (Nat.ne_of_lt hlt)
    · next hnlt =>
      split at h
      · cases h
      · next hngt =>
        cases h
        exact .inl ⟨rfl, by rw [hdurable, hlive, le_antisymm (not_lt.mp hnlt) (not_lt.mp hngt)]⟩
  · cases h
  · cases h
  · next hdurable hlive =>
    cases h
    exact .inl ⟨rfl, by rw [hdurable, hlive]⟩

/-- The entries of a promotion carry the live leases, and there is one for every lease that
differs. -/
structure Promotes (live durable : ClusterControlSnapshot)
    (promoted : List PromotedNodeHeartbeatLease) : Prop where
  carries : ∀ lease ∈ promoted, ∀ record, live.nodes[lease.nodeId]? = some record →
    record.leaseDeadlineMs = some lease.leaseDeadlineMs
  complete : ∀ (nodeId : NodeId) old new, durable.nodes[nodeId]? = some old →
    live.nodes[nodeId]? = some new → new.leaseDeadlineMs ≠ old.leaseDeadlineMs →
      ∃ lease ∈ promoted, lease.nodeId = nodeId
  differs : ∀ lease ∈ promoted, ∃ record, durable.nodes[lease.nodeId]? = some record ∧
    record.leaseDeadlineMs ≠ some lease.leaseDeadlineMs

theorem promotes_of_mapM {leases : List (Option PromotedNodeHeartbeatLease)}
    (h : (durable.nodes.toList.mapM fun (nodeId, node) => promotedLease live nodeId node) =
      .ok leases) : Promotes live durable (leases.filterMap id) := by
  have hentries := mem_promoted h
  refine ⟨fun lease hm record hrecord => ?_, fun nodeId old new hold hnew hne => ?_,
    fun lease hm => ?_⟩
  · obtain ⟨nodeId, durableNode, -, hp⟩ := (hentries lease).mp hm
    obtain ⟨liveNode, hl, ⟨hnone, -⟩ | ⟨entry, heq, hid, hlease, -⟩⟩ := promotedLease_eq_ok hp
    · cases hnone
    · cases heq
      rw [hid, hl] at hrecord
      cases hrecord
      exact hlease
  · obtain ⟨entry, hentry⟩ := exists_of_mapM_eq_ok h (nodeId, old)
      (Std.ExtTreeMap.mem_toList_iff_getElem?_eq_some.mpr hold)
    obtain ⟨liveNode, hl, ⟨-, hsame⟩ | ⟨lease, rfl, hid, -, -⟩⟩ := promotedLease_eq_ok hentry
    · cases hl.symm.trans hnew
      exact absurd hsame hne
    · exact ⟨lease, (hentries lease).mpr ⟨nodeId, old, hold, hentry⟩, hid⟩
  · obtain ⟨nodeId, durableNode, hrecord, hp⟩ := (hentries lease).mp hm
    obtain ⟨liveNode, -, ⟨hnone, -⟩ | ⟨entry, heq, hid, -, hdiffers⟩⟩ := promotedLease_eq_ok hp
    · cases hnone
    · cases heq
      exact ⟨durableNode, hid ▸ hrecord, hdiffers⟩

/-- Entries that all carry the live lease. -/
theorem foldl_deadline {live deadline : Option Nat}
    (hlisted : ∀ lease ∈ promoted, some lease.leaseDeadlineMs = live)
    (hnil : promoted = [] → live = deadline) :
    promoted.foldl (fun _ lease => some lease.leaseDeadlineMs) deadline = live := by
  induction promoted generalizing deadline with
  | nil => exact (hnil rfl).symm
  | cons lease rest ih =>
    refine ih (fun other hother => hlisted other (mem_cons_of_mem _ hother)) fun _ => ?_
    exact (hlisted lease mem_cons_self).symm

/-- The entries of a node, in turn, lead to its live lease. -/
theorem Promotes.deadline {old new : NodeControlRecord} (h : Promotes live durable promoted)
    (hold : durable.nodes[nodeId]? = some old) (hnew : live.nodes[nodeId]? = some new) :
    (promoted.filter (·.nodeId = nodeId)).foldl (fun _ lease => some lease.leaseDeadlineMs)
      old.leaseDeadlineMs = new.leaseDeadlineMs := by
  refine foldl_deadline (fun lease hlease => ?_) fun hnil => ?_
  · obtain ⟨hm, hkey⟩ := mem_filter.mp hlease
    exact (h.carries lease hm new (by rw [of_decide_eq_true hkey]; exact hnew)).symm
  · by_contra hne
    obtain ⟨lease, hm, hkey⟩ := h.complete nodeId old new hold hnew hne
    exact filter_eq_nil_iff.mp hnil lease hm (decide_eq_true hkey)

theorem foldl_setLease {node : NodeView} :
    promoted.foldl (fun node lease => node.setLease lease.leaseDeadlineMs) node = { node with
      leaseDeadlineMs := promoted.foldl (fun _ lease => some lease.leaseDeadlineMs)
        node.leaseDeadlineMs } := by
  induction promoted generalizing node with
  | nil => rfl
  | cons lease rest ih => exact ih

/-- Setting every promoted lease in the durable view gives the live view. -/
theorem foldl_setLease_overlay (ho : Overlay binding durable.view live.view)
    (h : Promotes live durable promoted) :
    promoted.foldl (fun next lease => next.modifyNode lease.nodeId
      (NodeView.setLease lease.leaseDeadlineMs)) durable.view = live.view := by
  obtain ⟨hpgs, hepoch, hts, hhorizon⟩ := foldl_frame LeaseView.pgs (fun next lease =>
    next.modifyNode lease.nodeId (NodeView.setLease lease.leaseDeadlineMs)) promoted durable.view
    fun _ _ => ⟨rfl, rfl, rfl, rfl⟩
  refine LeaseView.ext (hepoch.trans ho.epoch.symm) (hts.trans ho.timestamp.symm)
    (hhorizon.trans ho.horizon.symm) (funext fun n => ?_) (hpgs.trans ho.pgs.symm)
  rw [foldl_modifyNode_nodes promoted (·.nodeId) fun lease =>
    NodeView.setLease lease.leaseDeadlineMs]
  cases hv : durable.view.nodes n with
  | none => rw [ho.absent hv, Option.map_none]
  | some node =>
    obtain ⟨lease, hw, -⟩ := ho.known hv
    obtain ⟨old, hold, rfl⟩ := Option.map_eq_some_iff.mp hv
    obtain ⟨new, hnew, hview⟩ := Option.map_eq_some_iff.mp hw
    have hlease : new.leaseDeadlineMs = lease := congrArg NodeView.leaseDeadlineMs hview
    rw [Option.map_some, foldl_setLease, hw, ← hlease, ← h.deadline hold hnew]
    rfl

theorem promote_changed {authority : LeaseHorizonAuthorityBinding}
    (h : applyPromoteNodeHeartbeatLeases s authority promoted = .ok a) :
    a.changed = promoted.any fun lease =>
      s.nodes[lease.nodeId]?.any (·.leaseDeadlineMs != some lease.leaseDeadlineMs) := by
  simp only [applyPromoteNodeHeartbeatLeases, bind_eq_ok, failIf_eq_ok, okOr_eq_ok, pure_eq_ok,
    exists_const] at h
  obtain ⟨-, -, -, -, -, -, rfl⟩ := h
  rfl

/-- **What a promotion does**: nothing, or it changes the durable snapshot only. -/
theorem promote_cases (h : plane.promoteVolatileHeartbeatLeasesIfNeeded = .ok next) :
    ∃ promoted, Promotes plane.snapshot plane.durableSnapshot promoted ∧
      (promoted = [] ∧ next = plane ∨ ∃ authority liveApplied durableApplied,
        applyControlPlaneCommand plane.snapshot (.promoteNodeHeartbeatLeases authority promoted) =
          .ok liveApplied ∧ liveApplied.changed = false ∧
        applyControlPlaneCommand plane.durableSnapshot
          (.promoteNodeHeartbeatLeases authority promoted) = .ok durableApplied ∧
        durableApplied.changed = true ∧
        next = plane.commitRebasedCommand liveApplied durableApplied) := by
  simp only [promoteVolatileHeartbeatLeasesIfNeeded,
    promoteVolatileHeartbeatLeasesCommand, bind_eq_ok] at h
  obtain ⟨command, ⟨-, -, leases, hleases, hcommand⟩, h⟩ := h
  have hpromotes := promotes_of_mapM hleases
  refine ⟨_, hpromotes, ?_⟩
  split at hcommand
  · next hnil =>
    cases hcommand
    cases h
    exact .inl ⟨hnil, rfl⟩
  · next hne =>
    simp only [bind_eq_ok, okOr_eq_ok, pure_eq_ok] at hcommand
    obtain ⟨horizon, -, rfl⟩ := hcommand
    simp only [bind_eq_ok, pure_eq_ok] at h
    obtain ⟨liveApplied, hla, durableApplied, hda, rfl⟩ := h
    refine .inr ⟨_, liveApplied, durableApplied, hla, ?_, hda, ?_, rfl⟩
    · rw [promote_changed (applyControlPlaneCommand_eq_ok hla).1, any_eq_false]
      intro lease hm
      cases hrecord : plane.snapshot.nodes[lease.nodeId]? with
      | none => simp
      | some record => simp [hpromotes.carries lease hm record hrecord]
    · obtain ⟨lease, hm⟩ := exists_mem_of_ne_nil _ hne
      obtain ⟨record, hrecord, hdiffers⟩ := hpromotes.differs lease hm
      rw [promote_changed (applyControlPlaneCommand_eq_ok hda).1, any_eq_true]
      exact ⟨lease, hm, by simp [hrecord, hdiffers]⟩

/-- **After a promotion the durable view is the live one, and the live view has not changed.** -/
theorem view_promote (hk : plane.durableSnapshot.view.Keyed)
    (ho : Overlay binding plane.durableSnapshot.view plane.snapshot.view)
    (h : plane.promoteVolatileHeartbeatLeasesIfNeeded = .ok next) :
    next.snapshot.view = plane.snapshot.view ∧
      next.durableSnapshot.view = plane.snapshot.view := by
  obtain ⟨promoted, hpromotes, hcases⟩ := promote_cases h
  have hraised := foldl_setLease_overlay ho hpromotes
  rcases hcases with ⟨rfl, rfl⟩ | ⟨authority, liveApplied, durableApplied, hla, hsame, hda,
    hchanged, rfl⟩
  · exact ⟨rfl, hraised⟩
  · rw [commitRebasedCommand, if_pos hchanged]
    rw [view_apply (ho.keyed hk) hla, hsame, view_apply hk hda, if_pos hchanged]
    exact ⟨rfl, hraised⟩

/-! ### Commands on both snapshots -/

/-- What an accepted command does to an authority whose views are equal: nothing, or it installs
the result of a command of the same kind. -/
def SingleAuthorityControlPlane.Commits (plane : SingleAuthorityControlPlane)
    (c : ControlPlaneCommand) (next : SingleAuthorityControlPlane) : Prop :=
  next = plane ∨ next.snapshot.view = next.durableSnapshot.view ∧
    ∃ applied, applyControlPlaneCommand plane.durableSnapshot c = .ok applied ∧
      applied.changed = true ∧ next.durableSnapshot = applied.snapshot

variable (hk : plane.durableSnapshot.view.Keyed)
  (hv : plane.snapshot.view = plane.durableSnapshot.view)
include hk hv

/-- Installing a command that both snapshots accept keeps their views equal. -/
theorem commits_commit {liveApplied durableApplied : AppliedControlPlaneCommand}
    (hl : applyControlPlaneCommand plane.snapshot c = .ok liveApplied)
    (hd : applyControlPlaneCommand plane.durableSnapshot c = .ok durableApplied)
    (hflag : durableApplied.changed = true → liveApplied.changed = true) :
    plane.Commits c (plane.commitRebasedCommand liveApplied durableApplied) := by
  unfold commitRebasedCommand
  split
  · next hchanged =>
    refine .inr ⟨?_, durableApplied, hd, hchanged, rfl⟩
    rw [view_apply (hv ▸ hk) hl, view_apply hk hd, if_pos hchanged, if_pos (hflag hchanged), hv]
  · exact .inl rfl

omit hk hv in
/-- Binding a fence to the live lease: another command stays, and a fence may get a deadline and an
authority. -/
theorem bindMetadataTransferFenceCommand_cases
    {c' : ControlPlaneCommand} (h : bindMetadataTransferFenceCommand live durable c = .ok c') :
    c' = c ∨ ∃ pgId deadline deadline' authority authority' transition,
      c = .fencePgForMetadataTransfer pgId deadline authority transition ∧
      c' = .fencePgForMetadataTransfer pgId deadline' authority' transition := by
  unfold bindMetadataTransferFenceCommand at h
  split at h
  · simp only [bind_eq_ok] at h
    obtain ⟨liveDeadline, -, durableDeadline, -, h⟩ := h
    split at h
    · cases h
      exact .inr ⟨_, _, _, _, _, _, rfl, rfl⟩
    · split at h
      · simp only [bind_eq_ok, failIf_eq_ok, okOr_eq_ok, pure_eq_ok, exists_const] at h
        obtain ⟨-, horizon, -, rfl⟩ := h
        exact .inr ⟨_, _, _, _, _, _, rfl, rfl⟩
      · cases h
  · cases h
    exact .inl rfl

theorem commits_rebaseCommand (h : plane.rebaseCommand c = .ok next) :
    ∃ c', c'.completions = c.completions ∧ (c = c' ∨ ¬c'.IsHeartbeat) ∧ plane.Commits c' next := by
  simp only [rebaseCommand, bind_eq_ok, failIf_eq_ok, pure_eq_ok,
    exists_const, not_not] at h
  obtain ⟨c', hbind, liveApplied, hl, durableApplied, hd, hflag, rfl⟩ := h
  refine ⟨c', ?_, ?_, commits_commit hk hv hl hd fun hc => hflag.trans hc⟩ <;>
    rcases bindMetadataTransferFenceCommand_cases hbind with rfl | ⟨_, _, _, _, _, _, rfl, rfl⟩
  · rfl
  · rfl
  · exact .inl rfl
  · exact .inr id

theorem commits_rebaseHeartbeat (h : plane.rebaseHeartbeat c = .ok next) :
    plane.Commits c next := by
  simp only [rebaseHeartbeat, bind_eq_ok] at h
  obtain ⟨liveApplied, hl, h⟩ := h
  split at h
  · next hchanged =>
    simp only [bind_eq_ok, pure_eq_ok] at h
    obtain ⟨durableApplied, hd, rfl⟩ := h
    exact commits_commit hk hv hl hd fun _ => hchanged
  · cases h
    exact .inl rfl

omit hk hv

/-- The fences of a heartbeat keep the horizon and what it made of its node. -/
theorem fenceAfterHeartbeat_modifyNode {node : NodeView} (hn : w.nodes nodeId = some node)
    (g : NodeView → NodeView) (pending : PgId → Prop) (fenceNode epochChanged : Prop) :
    let r := (w.modifyNode nodeId g).fenceAfterHeartbeat v nodeId pending fenceNode epochChanged
    r.leaseGrantHorizon = w.leaseGrantHorizon ∧ r.nodes nodeId = some (g node) := by
  obtain ⟨hnodes, -, hhorizon, -⟩ := fenceAfterHeartbeat_frame (w.modifyNode nodeId g) v pending
    fenceNode epochChanged
  refine ⟨hhorizon, ?_⟩
  rw [hnodes]
  simp [LeaseView.modifyNode, hn]

/-- The horizon after a heartbeat, and the granted lease in the record of its node. -/
theorem heartbeat_frame {node : NodeView}
    (hn : v.nodes heartbeat.nodeId = some node) (heartbeatAtMs leaseDeadlineMs : Nat)
    (authority : Option LeaseHorizonAuthorityBinding) :
    let w := v.heartbeat heartbeat heartbeatAtMs leaseDeadlineMs authority
    w.leaseGrantHorizon =
        (v.coverLease authority heartbeatAtMs leaseDeadlineMs).leaseGrantHorizon ∧
      ∃ node', w.nodes heartbeat.nodeId = some node' ∧
        node'.leaseDeadlineMs = some leaseDeadlineMs := by
  have hcovered : ((v.coverLease authority heartbeatAtMs leaseDeadlineMs).recordTimestamp
      heartbeatAtMs).nodes heartbeat.nodeId = some node := by
    rw [LeaseView.recordTimestamp_nodes, LeaseView.coverLease_nodes, hn]
  rw [LeaseView.heartbeat, hn]
  dsimp only
  split
  · obtain ⟨hhorizon, hnode⟩ := fenceAfterHeartbeat_modifyNode hcovered ..
    exact ⟨hhorizon, _, hnode, rfl⟩
  · obtain ⟨hhorizon, hnode⟩ := fenceAfterHeartbeat_modifyNode hcovered ..
    exact ⟨hhorizon, _, hnode, rfl⟩

/-- An accepted heartbeat that carries an authority leaves the horizon bound to it. -/
theorem horizon_of_heartbeat (hk : s.view.Keyed)
    (h : applyControlPlaneCommand s (.recordNodeHeartbeat heartbeat heartbeatAtMs leaseDeadlineMs
      (some binding)) = .ok a) (hchanged : a.changed = true) :
    ∃ horizon, a.snapshot.view.leaseGrantHorizon = some horizon ∧ horizon.authority = binding := by
  obtain ⟨record, next, hr, -, -, hcover⟩ :=
    recordNodeHeartbeat_eq_ok (applyControlPlaneCommand_eq_ok h).1
  obtain ⟨horizon, hh, hauthority, -⟩ := (clockMove_coverLease hcover).2 binding rfl
  refine ⟨horizon, ?_, hauthority⟩
  rw [view_apply hk h, if_pos hchanged]
  exact (heartbeat_frame (view_node hr) _ _ _).1.trans hh

/-! ### Volatile heartbeats -/

/-- What the volatility check compares. -/
structure Volatile (live next : ClusterControlSnapshot) (nodeId : NodeId) : Prop where
  incarnation : next.authorityIncarnation = live.authorityIncarnation
  epoch : next.clusterEpoch = live.clusterEpoch
  horizon : next.leaseGrantHorizon = live.leaseGrantHorizon
  pgs : next.pgs = live.pgs
  history : next.history = live.history
  absent : ∀ k : NodeId, live.nodes[k]? = none → next.nodes[k]? = none
  known : ∀ (k : NodeId) current, live.nodes[k]? = some current → ∃ updated,
    next.nodes[k]? = some updated ∧
      if k ≠ nodeId then current = updated else current.volatileUpdate updated = true

theorem volatile_of_heartbeatUpdateIsVolatile {next : ClusterControlSnapshot}
    (h : heartbeatUpdateIsVolatile live next nodeId = true) : Volatile live next nodeId := by
  simp only [heartbeatUpdateIsVolatile, Bool.and_eq_true, beq_iff_eq, all_eq_true] at h
  obtain ⟨⟨⟨⟨⟨⟨hincarnation, hepoch⟩, hhorizon⟩, hpgs⟩, hhistory⟩, hsize⟩, hnodes⟩ := h
  have hknown : ∀ (k : NodeId) current, live.nodes[k]? = some current → ∃ updated,
      next.nodes[k]? = some updated ∧
      if k ≠ nodeId then current = updated else current.volatileUpdate updated = true := by
    intro k current hcurrent
    have hnode := hnodes (k, current) (Std.ExtTreeMap.mem_toList_iff_getElem?_eq_some.mpr hcurrent)
    split at hnode
    · cases hnode
    · next updated hupdated =>
      refine ⟨updated, hupdated, ?_⟩
      split at hnode
      · next hne =>
        rw [if_pos hne]
        exact beq_iff_eq.mp hnode
      · next heq =>
        rw [if_neg heq]
        exact hnode
  refine ⟨hincarnation.symm, hepoch.symm, hhorizon.symm, hpgs.symm, hhistory.symm,
    fun k hnone => ?_,
    hknown⟩
  refine getElem?_eq_none_of_size_eq hsize (fun j current hcurrent => ?_) hnone
  obtain ⟨updated, hupdated, -⟩ := hknown j current hcurrent
  exact ⟨updated, hupdated⟩

/-- The parts of an accepted volatile heartbeat. -/
theorem applyCoveredVolatileHeartbeat_eq_ok {next : ClusterControlSnapshot}
    (h : applyCoveredVolatileHeartbeat live c = .ok (some next)) :
    ∃ heartbeat heartbeatAtMs leaseDeadlineMs authority applied,
      c = .recordNodeHeartbeat heartbeat heartbeatAtMs leaseDeadlineMs (some authority) ∧
      live.coversVolatileHeartbeat heartbeat.nodeId leaseDeadlineMs authority = true ∧
      applyControlPlaneCommand live c = .ok applied ∧
      heartbeatUpdateIsVolatile live applied.snapshot heartbeat.nodeId = true ∧
      validatePublicationInvariants next = .ok () ∧
      next = { applied.snapshot with
        maxCommittedTimestampMs := live.maxCommittedTimestampMs }.modifyNode heartbeat.nodeId
        fun record => match live.nodes[heartbeat.nodeId]? with
          | none => record
          | some previous => record.keepObservationTimes previous := by
  unfold applyCoveredVolatileHeartbeat at h
  split at h
  · next heartbeat heartbeatAtMs leaseDeadlineMs authority =>
    split at h
    · next hcovers =>
      simp only [bind_eq_ok] at h
      obtain ⟨applied, happlied, h⟩ := h
      split at h
      · next hvolatile =>
        simp only [bind_eq_ok, pure_eq_ok, Option.some.injEq] at h
        obtain ⟨_, hvalid, rfl⟩ := h
        exact ⟨heartbeat, heartbeatAtMs, leaseDeadlineMs, authority, applied, rfl, hcovers,
          happlied, hvolatile, mapError_eq_ok.mp hvalid, rfl⟩
      · cases h
    · cases h
  · cases h

/-- **A volatile heartbeat raises one lease within the committed horizon.** -/
theorem Overlay.of_volatile {next : ClusterControlSnapshot} (hk : live.view.Keyed)
    (h : applyCoveredVolatileHeartbeat live (.recordNodeHeartbeat heartbeat heartbeatAtMs
      leaseDeadlineMs (some binding)) = .ok (some next)) :
    Overlay binding live.view next.view := by
  obtain ⟨_, _, _, _, applied, heq, hcovers, happlied, hvolatile, -, rfl⟩ :=
    applyCoveredVolatileHeartbeat_eq_ok h
  cases heq
  -- the published snapshot: the applied one, with the committed time of the live one
  rw [view_modifyNode_id _ heartbeat.nodeId fun record => by split <;> rfl]
  have hsame := volatile_of_heartbeatUpdateIsVolatile hvolatile
  obtain ⟨record, -, hr, hlease, -, -⟩ :=
    recordNodeHeartbeat_eq_ok (applyControlPlaneCommand_eq_ok happlied).1
  obtain ⟨record', hr', hupdate⟩ := hsame.known heartbeat.nodeId record hr
  have hnv := view_node hr
  have happ := view_apply hk happlied
  have hlease' : record'.leaseDeadlineMs = record.leaseDeadlineMs ∨
      record'.leaseDeadlineMs = some leaseDeadlineMs := by
    have hn' : applied.snapshot.view.nodes heartbeat.nodeId = some record'.view := by
      rw [view_nodes, hr']; rfl
    rw [happ] at hn'
    split at hn'
    · obtain ⟨node', hn'', hl⟩ := (heartbeat_frame hnv heartbeatAtMs leaseDeadlineMs _).2
      have heq : node' = record'.view := Option.some.inj (hn''.symm.trans hn')
      exact .inr ((congrArg NodeView.leaseDeadlineMs heq).symm.trans hl)
    · have heq : record.view = record'.view := Option.some.inj (hnv.symm.trans hn')
      exact .inl (congrArg NodeView.leaseDeadlineMs heq).symm
  have hraised : RaisedLease binding live.view.leaseGrantHorizon record.leaseDeadlineMs
      record'.leaseDeadlineMs := by
    simp only [coversVolatileHeartbeat,
      leaseGrantHorizonCovers, Bool.and_eq_true, Option.any_eq_true,
      beq_iff_eq, decide_eq_true_eq, hr, Option.some.injEq, exists_eq_left',
      Option.isSome_iff_exists] at hcovers
    obtain ⟨⟨horizon, hh, hauthority, hgrant⟩, -, current, hcurrent⟩ := hcovers
    rcases hlease' with heq | heq
    · exact .inl heq
    · exact .inr ⟨current, leaseDeadlineMs, horizon, hcurrent, heq, hlease current hcurrent,
        hh, hauthority, hgrant⟩
  refine ⟨hsame.epoch, rfl, hsame.horizon, ?_, fun {k} hv => ?_, fun {k node} hv => ?_⟩
  · funext k
    exact congrArg (fun pgs : Std.ExtTreeMap PgId PgControlRecord => pgs[k]?.map
      PgControlRecord.view) hsame.pgs
  · exact congrArg (Option.map NodeControlRecord.view)
      (hsame.absent k (Option.map_eq_none_iff.mp hv))
  · obtain ⟨current, hcurrent, rfl⟩ := Option.map_eq_some_iff.mp hv
    obtain ⟨updated, hupdated, hnode⟩ := hsame.known k current hcurrent
    have hview := view_node hupdated
    refine ⟨updated.leaseDeadlineMs, hview.trans (congrArg some ?_), ?_⟩
    · split at hnode
      · rw [hnode]
        rfl
      · simp only [NodeControlRecord.volatileUpdate, Bool.and_eq_true, beq_iff_eq] at hnode
        obtain ⟨⟨⟨⟨⟨⟨⟨⟨⟨⟨hid, hmembership⟩, hadmin⟩, havailability⟩, hinc⟩, hendpoint⟩, hobserved⟩,
          -⟩, -⟩, -⟩, -⟩ := hnode
        exact NodeView.ext hid.symm hmembership.symm hadmin.symm havailability.symm hinc.symm
          hendpoint.symm hobserved.symm rfl
    · split at hnode
      · rw [hnode]
        exact .inl rfl
      · next heq =>
        obtain rfl := not_not.mp heq
        cases hr.symm.trans hcurrent
        cases hr'.symm.trans hupdated
        exact hraised

end Argmin.ControlPlane
