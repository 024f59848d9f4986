import Argmin.ControlPlane.ProofChain

/-!
# The fence of a targeted expiry

`ExpireNodeHeartbeatLeases` names the leases that have run out.  A named deadline may be later than
the committed one of its node, when the lease was renewed in memory only.  The PGs that leave the
Active state are fenced with the committed deadline: a leader commits the deadlines it granted
before it submits the expiry.

`expired_primary_fence`: a PG that was Active under an expired node records the committed deadline
of that node, which is the named one for every lease that `expiredNodeHeartbeatLeases` lists.
-/

namespace Argmin.ControlPlane

open Fallible TreeMap ClusterControlSnapshot

/-- The leases of a snapshot that have run out, as a targeted expiry names them. -/
def expiredNodeHeartbeatLeases (self : ClusterControlSnapshot) (expireAtMs : Nat) :
    List ExpiredNodeHeartbeatLease :=
  ((values self.nodes).filter fun record =>
    !record.membership.hasLeft && record.observedAvailability != .unavailable).filterMap
    fun record => (record.leaseDeadlineMs.filter (· ≤ expireAtMs)).map fun deadline =>
      ⟨record.nodeId, deadline⟩

variable {s : ClusterControlSnapshot} {a : AppliedControlPlaneCommand} {pgId : PgId}
  {record : PgControlRecord}

/-- A listed lease is one that its node holds. -/
theorem mem_expiredNodeHeartbeatLeases {expireAtMs : Nat} {lease : ExpiredNodeHeartbeatLease}
    (h : lease ∈ expiredNodeHeartbeatLeases s expireAtMs) :
    ∃ (nodeId : NodeId) (node : NodeControlRecord), s.nodes[nodeId]? = some node ∧
      node.nodeId = lease.nodeId ∧ node.leaseDeadlineMs = some lease.leaseDeadlineMs := by
  obtain ⟨node, hnode, hlease⟩ := List.mem_filterMap.mp h
  obtain ⟨nodeId, hfound⟩ := mem_values.mp (List.mem_filter.mp hnode).1
  obtain ⟨deadline, hdeadline, rfl⟩ := Option.map_eq_some_iff.mp hlease
  exact ⟨nodeId, node, hfound, rfl, (Option.filter_eq_some_iff.mp hdeadline).1⟩

/-- The end of an expiry leaves a PG as it is, or fences it with the leases of the snapshot
before. -/
theorem pg_of_finishExpiry {next : ClusterControlSnapshot} {expired : List NodeControlRecord}
    {changed : Bool} (h : finishExpiry s next expired changed = .ok a)
    (hr : next.pgs[pgId]? = some record) :
    a.snapshot.pgs[pgId]? = some record ∨ a.snapshot.pgs[pgId]? = some (record.markPeering s) := by
  simp only [finishExpiry] at h
  split at h
  · simp only [pure_bind, pure_eq_ok] at h
    subst h
    left
    rw [applied_pgs]
    exact hr
  · simp only [bind_eq_ok, pure_eq_ok] at h
    obtain ⟨bumped, hbump, rfl⟩ := h
    rw [applied_pgs, bumpEpoch_pgs hbump, markPgsPeeringForNodes, markPgsPeeringForPgIds,
      Std.ExtTreeMap.getElem?_map, hr, Option.map_some]
    split
    · exact .inr rfl
    · exact .inl rfl

/-- A PG that is taken from its Active primary is fenced with the lease that the primary holds. -/
theorem fence_of_markPeering (hr : s.pgs[record.pgId]? = some record)
    (hactive : record.state = .active) {nodeId : NodeId}
    (hprimary : record.activePrimary = some nodeId) {node : NodeControlRecord}
    (hnode : s.nodes[nodeId]? = some node) {deadline : Nat}
    (hlease : node.leaseDeadlineMs = some deadline) :
    (record.markPeering s).previousPrimaryLease =
      some ⟨nodeId, node.nodeIncarnation, node.endpoint, deadline, true⟩ := by
  have hprevious : activePrimaryLease s record =
      some ⟨nodeId, node.nodeIncarnation, node.endpoint, deadline, true⟩ := by
    simp [activePrimaryLease, hactive, hprimary, hnode, hlease]
  show (s.pgs[record.pgId]?.bind (activePrimaryLease s)).or record.previousPrimaryLease = _
  rw [hr, Option.bind_some, hprevious]
  rfl

/-- **A targeted expiry fences with the committed lease.**  A PG was Active under an expired node
and is Peering after the command.  It records the node with the deadline that the snapshot before
has for it: at most the named deadline, and the named one if the command took the lease from that
snapshot. -/
theorem expired_primary_fence {authority : LeaseHorizonAuthorityBinding} {expireAtMs : Nat}
    {expired : List ExpiredNodeHeartbeatLease}
    (h : applyControlPlaneCommand s (.expireNodeHeartbeatLeases authority expireAtMs expired) =
      .ok a) (hkeyed : s.view.Keyed) {lease : ExpiredNodeHeartbeatLease} (hlease : lease ∈ expired)
    (hr : s.pgs[pgId]? = some record) (hactive : record.state = .active)
    (hprimary : record.activePrimary = some lease.nodeId) {record' : PgControlRecord}
    (hr' : a.snapshot.pgs[pgId]? = some record') (hpeering : record'.state = .peering) :
    ∃ previous, record'.previousPrimaryLease = some previous ∧ previous.nodeId = lease.nodeId ∧
      s.nodes[lease.nodeId]?.bind (·.leaseDeadlineMs) = some previous.leaseDeadlineMs ∧
      previous.leaseDeadlineMs ≤ lease.leaseDeadlineMs ∧
      (lease ∈ expiredNodeHeartbeatLeases s expireAtMs →
        previous.leaseDeadlineMs = lease.leaseDeadlineMs) := by
  have harm := (applyControlPlaneCommand_eq_ok h).1
  simp only [applyArm, applyExpireNodeHeartbeatLeases, bind_eq_ok, failIf_eq_ok,
    exists_const] at harm
  obtain ⟨-, -, -, covered, hcover, horizon, -, _, hordered, hfinish⟩ := harm
  -- the check of the entry gives the committed deadline
  have hcheck := forOrdered_mem hordered lease hlease
  simp only [validateExpiredLease, bind_eq_ok, failIf_eq_ok, okOr_eq_ok, exists_const] at hcheck
  obtain ⟨-, node, hnode, -, deadline, hdeadline, hle⟩ := hcheck
  have hpgs : (expired.foldl (·.expireNodeLease expireAtMs ·)
      (covered.recordCommittedTimestamp expireAtMs)).pgs = s.pgs := by
    obtain ⟨_, rfl⟩ := establishHeartbeatLeaseHorizon_eq_ok hcover
    refine foldl_same pgs _ _ fun next lease => ?_
    unfold expireNodeLease
    split <;> rfl
  have hid : record.pgId = pgId := hkeyed.pg (view_pg hr)
  subst hid
  -- a PG that was not fenced is still Active
  rcases pg_of_finishExpiry hfinish (hpgs ▸ hr) with hsame | hmarked
  · cases hsame.symm.trans hr'
    exact absurd (hactive.symm.trans hpeering) (by decide)
  · cases hmarked.symm.trans hr'
    refine ⟨_, fence_of_markPeering hr hactive hprimary hnode hdeadline, rfl, ?_, not_lt.mp hle,
      fun hlisted => ?_⟩
    · rw [hnode]
      exact hdeadline
    · obtain ⟨nodeId, other, hother, hotherId, hsame⟩ := mem_expiredNodeHeartbeatLeases hlisted
      have hotherKey : other.nodeId = nodeId := hkeyed.node (view_node hother)
      rw [← hotherKey, hotherId] at hother
      cases hnode.symm.trans hother
      exact Option.some.inj (hdeadline.symm.trans hsame)

/-! ### A lease renewed in memory

One PG on one node is Active under a committed lease until 110000. -/

def expireCommand (leaseDeadlineMs : Nat) : ControlPlaneCommand :=
  .expireNodeHeartbeatLeases ⟨1, none⟩ 115000 [⟨1, leaseDeadlineMs⟩]

def ClusterControlSnapshot.fenceDeadline (s : ClusterControlSnapshot) (pgId : PgId) : Option Nat :=
  (s.pgs[pgId]?.filter (·.state == .peering)).bind fun record =>
    record.previousPrimaryLease.map (·.leaseDeadlineMs)

theorem expired_primary_fence_at_deadline :
    ∃ before s, Run acceptedCommand NotSetPgState .empty before s ∧
      ∃ a record previous, applyControlPlaneCommand s (expireCommand 110000) = .ok a ∧
        a.snapshot.pgs[0]? = some record ∧ record.previousPrimaryLease = some previous ∧
        previous.leaseDeadlineMs = 110000 := by
  refine exists_run_of_replay_imp activationCommands (P := fun _ s =>
    (∃ record ∈ s.pgs[0]?, record.state = .active ∧ record.activePrimary = some 1) ∧
    ⟨1, 110000⟩ ∈ expiredNodeHeartbeatLeases s 115000 ∧
    ∃ t ∈ acceptedCommand s (expireCommand 110000),
      ∃ record ∈ t.pgs[0]?, record.state = .peering) (by decide +kernel) ?_
  rintro before s hs ⟨⟨record, hr, hactive, hprimary⟩, hlisted, t, hnext, record', hr', hpeering⟩
  obtain ⟨a, ha, rfl⟩ := acceptedCommand_eq_some hnext
  have hkeyed : s.view.Keyed := keyed_of_commands hs
  obtain ⟨previous, hprevious, -, -, -, hnamed⟩ := expired_primary_fence ha hkeyed (.head _) hr
    hactive hprimary hr' hpeering
  exact ⟨a, record', previous, ha, hr', hprevious, hnamed hlisted⟩

/-- **A later deadline that the command names is not in the fence.** -/
theorem named_deadline_not_in_fence :
    ∃ before s, Run acceptedCommand NotSetPgState .empty before s ∧
      (s.pgs[0]?.any fun record =>
        record.state == .active && record.activePrimary == some 1) = true ∧
      ∃ t ∈ acceptedCommand s (expireCommand 115000), t.fenceDeadline 0 = some 110000 :=
  exists_run_of_replay activationCommands (by decide +kernel)

end Argmin.ControlPlane
