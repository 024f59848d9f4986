import Argmin.ControlPlane.Edits

/-!
# The flag of an accepted command

An accepted command reports whether it changed the snapshot.  Where the flag is not set the
snapshot is the one before, and where it is set the snapshot is another one.  Most commands set the
flag together with an advance of the epoch; the others compare a committed time, a horizon, a lease
or the availability of a node, which the history that is recorded afterwards does not touch.

`changed_iff_differs`: the flag is set exactly when the next snapshot differs from the current one.
-/

namespace Argmin.ControlPlane

open Fallible TreeMap ClusterControlSnapshot NodeControlRecord Option
open List hiding getElem?_modify_eq
open Std (ExtTreeMap)

variable {t : ClusterControlSnapshot} {command : ControlPlaneCommand}
  {authority : LeaseHorizonAuthorityBinding} {expired : List ExpiredNodeHeartbeatLease}
  {promoted : List PromotedNodeHeartbeatLease}
  {expireAtMs timestampMs : Nat} {nodeId : NodeId}

/-- The result keeps the snapshot, unless its flag says otherwise. -/
def AppliedControlPlaneCommand.KeepsUnlessChanged (a : AppliedControlPlaneCommand)
    (s : ClusterControlSnapshot) : Prop :=
  a.changed = false → a.snapshot = s

/-- The result is another snapshot, if its flag says so. -/
def AppliedControlPlaneCommand.DiffersIfChanged (a : AppliedControlPlaneCommand)
    (s : ClusterControlSnapshot) : Prop :=
  a.changed = true → a.snapshot ≠ s

section Arms

variable {s next : ClusterControlSnapshot} {a : AppliedControlPlaneCommand}
  {response : ControlPlaneCommandResponse} {flag : Bool}

theorem AppliedControlPlaneCommand.KeepsUnlessChanged.of_flag (h : flag = false → next = s) :
    (appliedControlPlaneCommand s next response flag).KeepsUnlessChanged s := by
  intro hflag
  subst hflag
  exact h rfl

/-- It is enough to look at what recording the history leaves alone. -/
theorem AppliedControlPlaneCommand.DiffersIfChanged.of_field {α : Type}
    (field : ClusterControlSnapshot → α)
    (hfield : ∀ t history, field { t with history := history } = field t)
    (h : flag = true → field next ≠ field s) :
    (appliedControlPlaneCommand s next response flag).DiffersIfChanged s := by
  intro hflag hsame
  subst hflag
  have hrecorded : field (next.recordHistoryFrom s) = field next := hfield next _
  exact h rfl (hrecorded.symm.trans (congrArg field hsame))

/-- The flag is set and the epoch advanced. -/
theorem exact_bump {changed bumped : ClusterControlSnapshot}
    (hbump : changed.bumpEpoch = .ok bumped) (hbefore : changed.clusterEpoch = s.clusterEpoch)
    (hafter : next.clusterEpoch = bumped.clusterEpoch) :
    (appliedControlPlaneCommand s next response true).KeepsUnlessChanged s ∧
      (appliedControlPlaneCommand s next response true).DiffersIfChanged s := by
  refine ⟨.of_flag fun hflag => absurd hflag (by decide),
    .of_field (·.clusterEpoch) (fun _ _ => rfl) fun _ => ?_⟩
  obtain ⟨-, rfl⟩ := bumpEpoch_eq_ok hbump
  rw [hafter, hbefore]
  exact Nat.succ_ne_self _

/-- A time that does not advance the committed one is not recorded. -/
theorem recordCommittedTimestamp_of_not_advances
    (h : s.timestampAdvances timestampMs = false) : s.recordCommittedTimestamp timestampMs = s := by
  have hsame : (s.recordCommittedTimestamp timestampMs).maxCommittedTimestampMs =
      s.maxCommittedTimestampMs := by
    simpa [timestampAdvances] using h
  exact congrArg (fun time => { s with maxCommittedTimestampMs := time }) hsame

/-- The flag says whether the committed time advanced, and nothing else changed. -/
theorem exact_timestamp :
    (appliedControlPlaneCommand s (s.recordCommittedTimestamp timestampMs) response
        (s.timestampAdvances timestampMs)).KeepsUnlessChanged s ∧
      (appliedControlPlaneCommand s (s.recordCommittedTimestamp timestampMs) response
        (s.timestampAdvances timestampMs)).DiffersIfChanged s :=
  ⟨.of_flag recordCommittedTimestamp_of_not_advances,
    .of_field (·.maxCommittedTimestampMs) (fun _ _ => rfl) fun hflag => bne_iff_ne.mp hflag⟩

/-! ### Nodes and leases -/

theorem exact_establishLeaseGrantHorizon {nowMs durationMs : Nat}
    (h : applyEstablishLeaseGrantHorizon s authority nowMs durationMs = .ok a) :
    a.KeepsUnlessChanged s ∧ a.DiffersIfChanged s := by
  simp only [applyEstablishLeaseGrantHorizon, bind_eq_ok, pure_eq_ok] at h
  obtain ⟨-, -, -, -, horizon, -, rfl⟩ := h
  refine ⟨.of_flag fun hflag => ?_, .of_field
    (fun t => (t.leaseGrantHorizon, t.maxCommittedTimestampMs)) (fun _ _ => rfl) ?_⟩
  · obtain ⟨hhorizon, htime⟩ := Bool.or_eq_false_iff.mp hflag
    have hsame : s.leaseGrantHorizon = some horizon := by simpa using hhorizon
    have hrecorded := recordCommittedTimestamp_of_not_advances htime
    have hself : { s with leaseGrantHorizon := some horizon } = s := by rw [← hsame]
    rw [hself, hrecorded]
  · intro hflag hsame
    obtain ⟨hhorizon, htime⟩ := Prod.mk.injEq .. ▸ hsame
    rcases (Bool.or_eq_true _ _).mp hflag with hnew | hadvances
    · exact bne_iff_ne.mp hnew hhorizon.symm
    · exact bne_iff_ne.mp hadvances htime

/-- Setting the lease that a node already has. -/
theorem modifyNode_setLease_of_same {deadline : Nat}
    (h : s.nodes[nodeId]?.any (·.leaseDeadlineMs != some deadline) = false) :
    (s.modifyNode nodeId fun record => { record with leaseDeadlineMs := some deadline }) = s := by
  refine congrArg (fun nodes => { s with nodes := nodes }) (modify_eq_self fun record hrecord => ?_)
  have hsame : record.leaseDeadlineMs = some deadline := by simpa [hrecord] using h
  rw [← hsame]

theorem foldl_setLease_same (h : ∀ lease ∈ promoted,
      s.nodes[lease.nodeId]?.any (·.leaseDeadlineMs != some lease.leaseDeadlineMs) = false) :
    promoted.foldl (fun next lease => next.modifyNode lease.nodeId fun record =>
      { record with leaseDeadlineMs := some lease.leaseDeadlineMs }) s = s := by
  induction promoted with
  | nil => rfl
  | cons lease rest ih =>
    rw [foldl_cons, modifyNode_setLease_of_same (h lease mem_cons_self)]
    exact ih fun other hother => h other (mem_cons_of_mem _ hother)

/-- A loop over strictly ordered entries sees every node at most once. -/
theorem pairwise_of_forOrdered {α : Type} {nodeId : α → NodeId} {message : String}
    {check : α → Except ControlPlaneError Unit} {previous : Option NodeId} {entries : List α}
    (h : forOrdered nodeId message check previous entries = .ok ()) :
    (∀ entry ∈ entries, previous.all (· < nodeId entry)) ∧
      entries.Pairwise fun entry later => nodeId entry ≠ nodeId later := by
  induction entries generalizing previous with
  | nil => exact ⟨fun _ hmem => absurd hmem not_mem_nil, .nil⟩
  | cons first rest ih =>
    simp only [forOrdered, bind_eq_ok, failIf_eq_ok, exists_const] at h
    obtain ⟨hfirst, _, -, hrest⟩ := h
    obtain ⟨habove, hpairwise⟩ := ih hrest
    have hlater : ∀ entry ∈ rest, nodeId first < nodeId entry := by
      intro entry hentry
      simpa using habove entry hentry
    have hbelow : previous.all (· < nodeId first) := by
      cases previous with
      | none => rfl
      | some bound => simpa using hfirst
    refine ⟨?_, .cons (fun entry hentry => Nat.ne_of_lt (hlater entry hentry)) hpairwise⟩
    intro entry hentry
    rcases mem_cons.mp hentry with rfl | hentry
    · exact hbelow
    · cases previous with
      | none => rfl
      | some bound =>
        have hbound : bound < nodeId first := by simpa using hbelow
        simpa using hbound.trans (hlater entry hentry)

theorem getElem?_foldl_modifyNode_of_ne {α : Type} {key : α → NodeId}
    {f : α → NodeControlRecord → NodeControlRecord} {entries : List α}
    (h : ∀ entry ∈ entries, key entry ≠ nodeId) :
    (entries.foldl (fun next entry => next.modifyNode (key entry) (f entry)) t).nodes[nodeId]? =
      t.nodes[nodeId]? := by
  induction entries generalizing t with
  | nil => rfl
  | cons entry rest ih =>
    rw [foldl_cons, ih fun other hother => h other (mem_cons_of_mem _ hother)]
    rw [modifyNode, getElem?_modify_eq,
      if_neg (h entry mem_cons_self)]

/-- Each of several different nodes is modified once. -/
theorem getElem?_foldl_modifyNode {α : Type} {key : α → NodeId}
    {f : α → NodeControlRecord → NodeControlRecord} {entries : List α}
    (hdistinct : entries.Pairwise fun entry later => key entry ≠ key later) {entry : α}
    (hentry : entry ∈ entries) (t : ClusterControlSnapshot) :
    (entries.foldl (fun next entry => next.modifyNode (key entry) (f entry)) t).nodes[key entry]? =
      t.nodes[key entry]?.map (f entry) := by
  induction entries generalizing t with
  | nil => exact absurd hentry not_mem_nil
  | cons first rest ih =>
    obtain ⟨hfirst, hrest⟩ := pairwise_cons.mp hdistinct
    rw [foldl_cons]
    rcases mem_cons.mp hentry with rfl | hmem
    · rw [getElem?_foldl_modifyNode_of_ne fun other hother => (hfirst other hother).symm,
        modifyNode, getElem?_modify_eq, if_pos rfl]
    · rw [ih hrest hmem, modifyNode, getElem?_modify_eq,
        if_neg (hfirst entry hmem)]

theorem exact_promoteNodeHeartbeatLeases
    (h : applyPromoteNodeHeartbeatLeases s authority promoted = .ok a) :
    a.KeepsUnlessChanged s ∧ a.DiffersIfChanged s := by
  simp only [applyPromoteNodeHeartbeatLeases, bind_eq_ok, pure_eq_ok] at h
  obtain ⟨-, -, horizon, -, -, -, _, hordered, rfl⟩ := h
  refine ⟨.of_flag fun hflag => foldl_setLease_same fun lease hlease => ?_,
    .of_field (·.nodes) (fun _ _ => rfl) fun hflag hsame => ?_⟩
  · exact Bool.eq_false_iff.mpr (any_eq_false.mp hflag lease hlease)
  · obtain ⟨lease, hlease, hnew⟩ := any_eq_true.mp hflag
    have hpromoted := getElem?_foldl_modifyNode (f := fun (lease : PromotedNodeHeartbeatLease)
      record => { record with leaseDeadlineMs := some lease.leaseDeadlineMs })
      (pairwise_of_forOrdered hordered).2 hlease s
    rw [hsame] at hpromoted
    cases hnode : s.nodes[lease.nodeId]? with
    | none => simp [hnode] at hnew
    | some node =>
      rw [hnode, map_some] at hpromoted
      have hdeadline := congrArg leaseDeadlineMs (some.inj hpromoted)
      have hne : node.leaseDeadlineMs ≠ some lease.leaseDeadlineMs := by simpa [hnode] using hnew
      exact hne hdeadline

/-- The flag of a heartbeat compares the whole snapshots, before the history is recorded. -/
theorem exact_ne (hhistory : next.history = s.history) :
    (appliedControlPlaneCommand s next response (decide (next ≠ s))).KeepsUnlessChanged s ∧
      (appliedControlPlaneCommand s next response (decide (next ≠ s))).DiffersIfChanged s := by
  refine ⟨.of_flag fun hflag => not_not.mp (of_decide_eq_false hflag),
    .of_field (fun t => { t with history := [] }) (fun _ _ => rfl) fun hflag hsame => ?_⟩
  refine of_decide_eq_true hflag ?_
  calc next = { { next with history := [] } with history := s.history } := by rw [← hhistory]
    _ = { { s with history := [] } with history := s.history } := by rw [hsame]
    _ = s := rfl

/-- The flag of every command but the expiries, the promotion and the horizon. -/
theorem PlainArm.exact (h : PlainArm s command a) :
    a.KeepsUnlessChanged s ∧ a.DiffersIfChanged s := by
  cases h with
  | unchanged => exact ⟨.of_flag fun _ => rfl, fun hflag => absurd hflag Bool.false_ne_true⟩
  | timed => exact exact_timestamp
  | compares moved => exact exact_ne moved.kept.1
  | bumps bump before after => exact exact_bump bump before.kept.1 after.kept.1

/-- What the end of an expiry leaves alone: the committed time, and which nodes are available. -/
def ClusterControlSnapshot.liveness (t : ClusterControlSnapshot) :
    Option Nat × (NodeId → Option NodeAvailabilityState) :=
  (t.maxCommittedTimestampMs, fun nodeId => t.nodes[nodeId]?.map (·.observedAvailability))

theorem liveness_bumpEpoch (h : t.bumpEpoch = .ok next) :
    next.liveness = t.liveness := by
  obtain ⟨-, rfl⟩ := bumpEpoch_eq_ok h
  refine Prod.ext rfl (funext fun nodeId => ?_)
  show Option.map _ (t.nodes.map _)[nodeId]? = _
  rw [Std.ExtTreeMap.getElem?_map, Option.map_map]
  rfl

/-- The end of both expiry commands. -/
theorem exact_finishExpiry {expired : List NodeControlRecord}
    (h : finishExpiry s t expired flag = .ok a) (hsame : flag = false → expired = [] → t = s)
    (hlive : (flag || expired != []) = true → t.liveness ≠ s.liveness) :
    a.KeepsUnlessChanged s ∧ a.DiffersIfChanged s := by
  have hnone : (flag || expired != []) = false → flag = false ∧ expired = [] := by
    intro hflag
    obtain ⟨hflag, hexpired⟩ := Bool.or_eq_false_iff.mp hflag
    exact ⟨hflag, by simpa using hexpired⟩
  simp only [finishExpiry] at h
  split at h
  · simp only [pure_bind, pure_eq_ok] at h
    subst h
    exact ⟨.of_flag fun hflag => hsame (hnone hflag).1 (hnone hflag).2,
      .of_field (·.liveness) (fun _ _ => rfl) hlive⟩
  · next hserving =>
    simp only [bind_eq_ok, pure_eq_ok] at h
    obtain ⟨next, hbump, rfl⟩ := h
    refine ⟨.of_flag fun hflag => ?_, .of_field (·.liveness) (fun _ _ => rfl) fun hflag => ?_⟩
    · rw [(hnone hflag).2] at hserving
      exact absurd rfl hserving
    · rw [liveness_bumpEpoch hbump]
      exact hlive hflag

theorem exact_expireHeartbeatLeases (h : applyExpireHeartbeatLeases s expireAtMs = .ok a) :
    a.KeepsUnlessChanged s ∧ a.DiffersIfChanged s := by
  simp only [applyExpireHeartbeatLeases, bind_eq_ok] at h
  obtain ⟨-, -, h⟩ := h
  refine exact_finishExpiry h (fun htime hexpired => ?_) fun hflag hsame => ?_
  · have hnone : ∀ (nodeId : NodeId) record, s.nodes[nodeId]? = some record →
        record.leaseExpired expireAtMs = false := by
      intro nodeId record hrecord
      have hmem := mem_values.mpr ⟨nodeId, hrecord⟩
      exact Bool.eq_false_iff.mpr (filter_eq_nil_iff.mp hexpired record hmem)
    have hnodes : (s.nodes.map fun _ record =>
        if record.leaseExpired expireAtMs then record.expireLease else record) = s.nodes := by
      refine ExtTreeMap.ext_getElem? fun k => ?_
      rw [ExtTreeMap.getElem?_map]
      cases hrecord : s.nodes[k]? with
      | none => rfl
      | some record =>
        rw [map_some, if_neg (Bool.eq_false_iff.mp (hnone k record hrecord))]
    rw [hexpired, foldl_nil, recordCommittedTimestamp_of_not_advances htime]
    exact congrArg (fun nodes => { s with nodes := nodes }) hnodes
  · have hobserved : ∀ (t : ClusterControlSnapshot) (record : NodeControlRecord),
        (t.observeUnavailable record (record.leaseDeadlineMs.getD 0) expireAtMs).liveness =
          t.liveness := fun _ _ => rfl
    rw [foldl_same liveness _ _ hobserved] at hsame
    rcases (Bool.or_eq_true _ _).mp hflag with hadvances | hexpired
    · exact bne_iff_ne.mp hadvances (congrArg Prod.fst hsame)
    · -- an expired node was observed as available before
      obtain ⟨record, hrecord⟩ := exists_mem_of_ne_nil _ (bne_iff_ne.mp hexpired)
      obtain ⟨hvalue, hlease⟩ := mem_filter.mp hrecord
      obtain ⟨nodeId, hnode⟩ := mem_values.mp hvalue
      have hnow := congrFun (congrArg Prod.snd hsame) nodeId
      simp only [liveness, Std.ExtTreeMap.getElem?_map,
        recordCommittedTimestamp, hnode, map_some, if_pos hlease,
        expireLease, some.injEq] at hnow
      simp only [leaseExpired, Bool.and_eq_true, bne_iff_ne] at hlease
      exact hlease.1.2 hnow.symm

/-- Targeted expiry makes every listed node unavailable. -/
theorem unavailable_of_expireNodeLease (expireAtMs : Nat) (hknown : (t.nodes[nodeId]?).isSome)
    (h : (∃ lease ∈ expired, lease.nodeId = nodeId) ∨
      t.nodes[nodeId]?.map (·.observedAvailability) = some .unavailable) :
    (expired.foldl (·.expireNodeLease expireAtMs ·) t).nodes[nodeId]?.map
      (·.observedAvailability) = some .unavailable := by
  induction expired generalizing t with
  | nil => exact h.resolve_left fun ⟨_, hmem, _⟩ => absurd hmem not_mem_nil
  | cons lease rest ih =>
    have hstep : (t.expireNodeLease expireAtMs lease).nodes[nodeId]? =
        if lease.nodeId = nodeId then t.nodes[nodeId]?.map (·.expireLease)
        else t.nodes[nodeId]? := by
      unfold expireNodeLease
      split
      · next hnone =>
        split
        · next heq => rw [← heq, hnone]; rfl
        · rfl
      · exact getElem?_modify_eq
    refine ih ?_ ?_
    · rw [hstep]
      split
      · rw [isSome_map]
        exact hknown
      · exact hknown
    · rw [hstep]
      by_cases heq : lease.nodeId = nodeId
      · obtain ⟨record, hrecord⟩ := isSome_iff_exists.mp hknown
        rw [if_pos heq, hrecord]
        exact .inr rfl
      · rw [if_neg heq]
        refine h.imp_left ?_
        rintro ⟨other, hother, hid⟩
        rcases mem_cons.mp hother with rfl | hrest
        · exact absurd hid heq
        · exact ⟨other, hrest, hid⟩

theorem exact_expireNodeHeartbeatLeases
    (h : applyExpireNodeHeartbeatLeases s authority expireAtMs expired = .ok a) :
    a.KeepsUnlessChanged s ∧ a.DiffersIfChanged s := by
  simp only [applyExpireNodeHeartbeatLeases, bind_eq_ok, failIf_eq_ok, exists_const] at h
  obtain ⟨hne, -, -, covered, hcover, horizon, -, _, hordered, h⟩ := h
  obtain ⟨lease, hlease⟩ := exists_mem_of_ne_nil _ hne
  have hcheck := forOrdered_mem hordered lease hlease
  simp only [validateExpiredLease, bind_eq_ok, failIf_eq_ok, okOr_eq_ok, exists_const,
    not_or] at hcheck
  obtain ⟨-, record, hrecord, ⟨-, havailable⟩, -⟩ := hcheck
  refine exact_finishExpiry h (fun _ hexpired => ?_) fun _ hsame => ?_
  · -- every listed node is known, so at least one has expired
    have hmem : record ∈ expired.filterMap fun lease => s.nodes[lease.nodeId]? :=
      mem_filterMap.mpr ⟨lease, hlease, hrecord⟩
    rw [hexpired] at hmem
    cases hmem
  · have hnodes := establishHeartbeatLeaseHorizon_nodes hcover
    have hknown : (covered.nodes[lease.nodeId]?).isSome := by
      rw [hnodes, hrecord]
      rfl
    have hnow := congrFun (congrArg Prod.snd hsame) lease.nodeId
    have hexpired := unavailable_of_expireNodeLease
        (t := covered.recordCommittedTimestamp expireAtMs)
      expireAtMs hknown (.inl ⟨lease, hlease, rfl⟩)
    have hbefore : s.nodes[lease.nodeId]?.map (·.observedAvailability) = some .unavailable :=
      hnow.symm.trans hexpired
    rw [hrecord] at hbefore
    exact havailable (some.inj hbefore)

/-- **The flag of a command is exact**, for every arm. -/
theorem exact_of_applyArm (h : applyArm s command = .ok a) :
    a.KeepsUnlessChanged s ∧ a.DiffersIfChanged s := by
  cases command with
  | expireHeartbeatLeases => exact exact_expireHeartbeatLeases h
  | expireNodeHeartbeatLeases => exact exact_expireNodeHeartbeatLeases h
  | promoteNodeHeartbeatLeases => exact exact_promoteNodeHeartbeatLeases h
  | establishLeaseGrantHorizon => exact exact_establishLeaseGrantHorizon h
  | _ => exact (plainArm_of_applyArm h id).exact

theorem unchanged_of_applyArm (h : applyArm s command = .ok a) :
    a.KeepsUnlessChanged s :=
  (exact_of_applyArm h).1

/-- **The flag of a command is exact.**  An accepted command reports a change exactly when the next
snapshot differs from the current one. -/
theorem changed_iff_differs {command : ControlPlaneCommand}
    (h : applyControlPlaneCommand s command = .ok a) : a.changed = true ↔ a.snapshot ≠ s := by
  have harm := (applyControlPlaneCommand_eq_ok h).1
  refine ⟨(exact_of_applyArm harm).2, fun hdiffers => ?_⟩
  by_contra hflag
  exact hdiffers (unchanged_of_applyArm harm (Bool.eq_false_iff.mpr hflag))

def oneNode : ClusterControlSnapshot :=
  match applyControlPlaneCommand .empty (.bootstrapInitialClusterMap [(1, "a")] [0]) with
  | .ok applied => applied.snapshot
  | .error _ => .empty

/-- Marking a node of a cluster in service as unavailable changes the snapshot, and marking it once
more does not. -/
theorem changed_by_first_mark :
    ∃ a b, applyControlPlaneCommand oneNode (.markNodeAvailability 1 .unavailable) = .ok a ∧
      a.changed = true ∧ a.snapshot ≠ oneNode ∧
      applyControlPlaneCommand a.snapshot (.markNodeAvailability 1 .unavailable) = .ok b ∧
      b.changed = false ∧ b.snapshot = a.snapshot := by
  have hruns : ∃ a ∈ (applyControlPlaneCommand oneNode
        (.markNodeAvailability 1 .unavailable)).toOption, a.changed = true ∧
      ∃ b ∈ (applyControlPlaneCommand a.snapshot
        (.markNodeAvailability 1 .unavailable)).toOption, b.changed = false := by
    decide +kernel
  obtain ⟨a, ha, hchanged, b, hb, hsame⟩ := hruns
  rw [Option.mem_def, toOption_eq_some] at ha hb
  refine ⟨a, b, ha, hchanged, (changed_iff_differs ha).mp hchanged, hb, hsame, ?_⟩
  exact not_not.mp (mt (changed_iff_differs hb).mpr (Bool.eq_false_iff.mp hsame))

end Arms

end Argmin.ControlPlane
