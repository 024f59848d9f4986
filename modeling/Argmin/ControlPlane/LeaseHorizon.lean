import Argmin.ControlPlane.LeaseSafety
import Argmin.ControlPlane.Unchanged

/-!
# The grant horizon fences authority changes

The committed grant horizon names an authority and a bound on the lease deadlines that this
authority may grant.  The horizon after an accepted command is a function of the command and of the
horizon before (`leaseGrantHorizon_apply`), so the live and the durable snapshot of an authority
always have the same one (`LeasedAuthority.step_horizon`).

`horizon_fences_authority_changes` is about every run of an authority, with heartbeats under any
binding: a granted deadline is within the committed horizon of its binding, the bound of a binding
only grows, and another binding is installed at a time by which every deadline granted before has
passed with the skew budget.
-/

namespace Argmin.ControlPlane

open Fallible LeaseView ClusterControlSnapshot

variable {durableApplied liveApplied : AppliedControlPlaneCommand} {command : ControlPlaneCommand}
  {nowMs : Nat} {r : SingleAuthorityControlPlane × Option ControlPlaneError}
  {s t : ClusterControlSnapshot} {c : ControlPlaneCommand}

/-! ### The horizon after a command -/

/-- The established horizon, or the present one when it is refused. -/
def establishHorizon (horizon : Option CommittedLeaseGrantHorizon)
    (authority : LeaseHorizonAuthorityBinding) (nowMs durationMs : Nat) :
    Option CommittedLeaseGrantHorizon :=
  match CommittedLeaseGrantHorizon.establish horizon authority nowMs durationMs
    controlPlaneClockSkewBudgetMs with
  | .ok established => some established
  | .error _ => horizon

/-- The horizon that covers a lease: the present one if it does, or else the established one. -/
def coverHorizon (horizon : Option CommittedLeaseGrantHorizon)
    (authority : LeaseHorizonAuthorityBinding) (nowMs leaseDeadlineMs : Nat) :
    Option CommittedLeaseGrantHorizon :=
  if horizon.any fun horizon =>
      horizon.authority == authority && decide (leaseDeadlineMs ≤ horizon.grantNotAfterMs)
  then horizon
  else establishHorizon horizon authority nowMs controlPlaneLeaseGrantHorizonDurationMs

/-- The authority and the time for which a command establishes a horizon. -/
def ControlPlaneCommand.bindsAt : ControlPlaneCommand → Option (LeaseHorizonAuthorityBinding × Nat)
  | .recordNodeHeartbeat _ heartbeatAtMs _ (some authority) => some (authority, heartbeatAtMs)
  | .expireNodeHeartbeatLeases authority expireAtMs _ => some (authority, expireAtMs)
  | .establishLeaseGrantHorizon authority authorityNowMs _ => some (authority, authorityNowMs)
  | _ => none

/-- The horizon after an accepted command. -/
def ControlPlaneCommand.horizonAfter (horizon : Option CommittedLeaseGrantHorizon) :
    ControlPlaneCommand → Option CommittedLeaseGrantHorizon
  | .recordNodeHeartbeat _ heartbeatAtMs leaseDeadlineMs (some authority) =>
    coverHorizon horizon authority heartbeatAtMs leaseDeadlineMs
  | .expireNodeHeartbeatLeases authority expireAtMs _ =>
    coverHorizon horizon authority expireAtMs expireAtMs
  | .establishLeaseGrantHorizon authority authorityNowMs horizonDurationMs =>
    establishHorizon horizon authority authorityNowMs horizonDurationMs
  | _ => horizon

theorem establishHorizon_cases (horizon : Option CommittedLeaseGrantHorizon)
    (authority : LeaseHorizonAuthorityBinding) (nowMs durationMs : Nat) :
    establishHorizon horizon authority nowMs durationMs = horizon ∨ ∃ established,
      CommittedLeaseGrantHorizon.establish horizon authority nowMs durationMs
        controlPlaneClockSkewBudgetMs = .ok established ∧
      establishHorizon horizon authority nowMs durationMs = some established := by
  unfold establishHorizon
  split
  · next established h => exact .inr ⟨established, h, rfl⟩
  · exact .inl rfl

/-- **What a command can do to the horizon**: nothing, or establish it at the time it binds. -/
theorem ControlPlaneCommand.horizonAfter_cases (c : ControlPlaneCommand)
    (horizon : Option CommittedLeaseGrantHorizon) :
    c.horizonAfter horizon = horizon ∨ ∃ authority nowMs durationMs established,
      c.bindsAt = some (authority, nowMs) ∧
      CommittedLeaseGrantHorizon.establish horizon authority nowMs durationMs
        controlPlaneClockSkewBudgetMs = .ok established ∧
      c.horizonAfter horizon = some established := by
  have hcover : ∀ authority nowMs deadlineMs, coverHorizon horizon authority nowMs deadlineMs =
      horizon ∨ coverHorizon horizon authority nowMs deadlineMs = establishHorizon horizon authority
        nowMs controlPlaneLeaseGrantHorizonDurationMs := by
    intro authority nowMs deadlineMs
    unfold coverHorizon
    split
    · exact .inl rfl
    · exact .inr rfl
  have hafter : c.horizonAfter horizon = horizon ∨ ∃ authority nowMs durationMs,
      c.bindsAt = some (authority, nowMs) ∧
      c.horizonAfter horizon = establishHorizon horizon authority nowMs durationMs := by
    unfold horizonAfter
    split
    · exact (hcover ..).imp_right fun h => ⟨_, _, _, rfl, h⟩
    · exact (hcover ..).imp_right fun h => ⟨_, _, _, rfl, h⟩
    · exact .inr ⟨_, _, _, rfl, rfl⟩
    · exact .inl rfl
  rcases hafter with hsame | ⟨authority, nowMs, durationMs, hbinds, hafter⟩
  · exact .inl hsame
  · rw [hafter]
    refine (establishHorizon_cases ..).imp_right ?_
    rintro ⟨established, h, hsome⟩
    exact ⟨authority, nowMs, durationMs, established, hbinds, h, hsome⟩

section Snapshot

variable {s next t : ClusterControlSnapshot} {a : AppliedControlPlaneCommand}
  {authority : LeaseHorizonAuthorityBinding} {leaseDeadlineMs heartbeatAtMs : Nat}
  {heartbeat : NodeHeartbeat} {c : ControlPlaneCommand}

theorem leaseGrantHorizon_applied (response : ControlPlaneCommandResponse) (changed : Bool) :
    (appliedControlPlaneCommand s next response changed).snapshot.leaseGrantHorizon =
      next.leaseGrantHorizon := by
  cases changed <;> rfl

theorem leaseGrantHorizon_bumpEpoch (h : t.bumpEpoch = .ok next) :
    next.leaseGrantHorizon = t.leaseGrantHorizon := by
  obtain ⟨-, rfl⟩ := bumpEpoch_eq_ok h
  rfl

/-- The horizon for a lease, and that it covers the lease. -/
theorem leaseGrantHorizon_establish {authority : Option LeaseHorizonAuthorityBinding}
    (h : s.establishHeartbeatLeaseHorizon authority nowMs leaseDeadlineMs = .ok next) :
    next.leaseGrantHorizon = (authority.elim s.leaseGrantHorizon fun authority =>
        coverHorizon s.leaseGrantHorizon authority nowMs leaseDeadlineMs) ∧
      ∀ b, authority = some b → next.leaseGrantHorizonCovers b leaseDeadlineMs := by
  rcases establishHeartbeatLeaseHorizon_cases h with ⟨rfl, hcovers⟩ | ⟨b, horizon, rfl, hcovers,
    hh, rfl, hnext⟩
  · refine ⟨?_, hcovers⟩
    cases authority with
    | none => rfl
    | some b => exact (if_pos (hcovers b rfl)).symm
  · refine ⟨Eq.trans ?_ (if_neg hcovers).symm, fun _ hb => by cases hb; exact hnext⟩
    rw [establishHorizon, hh]

theorem leaseGrantHorizon_fenceAfterHeartbeat {previous : ClusterControlSnapshot} {nodeId : NodeId}
    {pendingIds : List PgId} {fenceNode epochChanged : Bool}
    (h : fenceAfterHeartbeat t previous nodeId pendingIds fenceNode epochChanged = .ok next) :
    next.leaseGrantHorizon = t.leaseGrantHorizon := by
  cases epochChanged with
  | false => exact pure_eq_ok.mp h ▸ rfl
  | true =>
    rw [leaseGrantHorizon_bumpEpoch h]
    split <;> rfl

theorem leaseGrantHorizon_finishExpiry {expired : List NodeControlRecord} {changed : Bool}
    (h : finishExpiry s t expired changed = .ok a) :
    a.snapshot.leaseGrantHorizon = t.leaseGrantHorizon := by
  simp only [finishExpiry] at h
  split at h
  · simp only [pure_bind, pure_eq_ok] at h
    subst h
    exact leaseGrantHorizon_applied _ _
  · simp only [bind_eq_ok, pure_eq_ok] at h
    obtain ⟨bumped, hbump, rfl⟩ := h
    rw [leaseGrantHorizon_applied, leaseGrantHorizon_bumpEpoch hbump]
    rfl

theorem leaseGrantHorizon_heartbeat {authority : Option LeaseHorizonAuthorityBinding}
    (h : applyRecordNodeHeartbeat s heartbeat heartbeatAtMs leaseDeadlineMs authority = .ok a) :
    a.snapshot.leaseGrantHorizon = (ControlPlaneCommand.recordNodeHeartbeat heartbeat heartbeatAtMs
      leaseDeadlineMs authority).horizonAfter s.leaseGrantHorizon := by
  have hafter : ∀ {covered}, s.establishHeartbeatLeaseHorizon authority heartbeatAtMs
      leaseDeadlineMs = .ok covered → covered.leaseGrantHorizon =
        (ControlPlaneCommand.recordNodeHeartbeat heartbeat heartbeatAtMs leaseDeadlineMs
          authority).horizonAfter s.leaseGrantHorizon := by
    intro covered hcover
    rw [(leaseGrantHorizon_establish hcover).1]
    cases authority <;> rfl
  simp only [applyRecordNodeHeartbeat, bind_eq_ok] at h
  obtain ⟨record, -, h⟩ := h
  split at h
  · simp only [recordStaleHeartbeat, bind_eq_ok, pure_eq_ok] at h
    obtain ⟨-, -, pendings, -, covered, hcover, fenced, hfence, rfl⟩ := h
    rw [leaseGrantHorizon_applied, ← hafter hcover]
    exact (leaseGrantHorizon_fenceAfterHeartbeat hfence :)
  · simp only [recordCurrentHeartbeat, bind_eq_ok, pure_eq_ok] at h
    obtain ⟨-, -, pendings, -, covered, hcover, fenced, hfence, rfl⟩ := h
    have hfenced : fenced.leaseGrantHorizon = covered.leaseGrantHorizon :=
      (leaseGrantHorizon_fenceAfterHeartbeat hfence).trans
        (foldl_same ClusterControlSnapshot.leaseGrantHorizon _ _ fun _ _ => rfl)
    rw [leaseGrantHorizon_applied, ← hafter hcover, ← hfenced]
    split <;> rfl

theorem leaseGrantHorizon_of_not_binds (h : applyArm s c = .ok a)
    (hc : ¬c.BindsHorizon) : a.snapshot.leaseGrantHorizon = s.leaseGrantHorizon := by
  obtain ⟨next, response, flag, rfl, hmoved⟩ := (arm_of_applyArm h).moved
  rw [leaseGrantHorizon_applied]
  exact hmoved.kept.2 hc

/-- **The horizon after an accepted command** is a function of the horizon before. -/
theorem leaseGrantHorizon_apply (h : applyControlPlaneCommand s c = .ok a) :
    a.snapshot.leaseGrantHorizon = c.horizonAfter s.leaseGrantHorizon := by
  have harm := (applyControlPlaneCommand_eq_ok h).1
  cases c with
  | recordNodeHeartbeat => exact leaseGrantHorizon_heartbeat harm
  | expireNodeHeartbeatLeases authority expireAtMs expired =>
    simp only [applyArm, applyExpireNodeHeartbeatLeases, bind_eq_ok] at harm
    obtain ⟨-, -, -, -, covered, hcover, horizon, -, -, -, harm⟩ := harm
    have hfold := foldl_same ClusterControlSnapshot.leaseGrantHorizon expired
      (covered.recordCommittedTimestamp expireAtMs) (f := (·.expireNodeLease expireAtMs ·))
      fun t lease => by
        unfold expireNodeLease
        split <;> rfl
    rw [leaseGrantHorizon_finishExpiry harm, hfold]
    exact (leaseGrantHorizon_establish hcover).1
  | establishLeaseGrantHorizon authority authorityNowMs horizonDurationMs =>
    simp only [applyArm, applyEstablishLeaseGrantHorizon, bind_eq_ok, mapError_eq_ok,
      pure_eq_ok] at harm
    obtain ⟨-, -, -, -, horizon, hestablish, rfl⟩ := harm
    rw [leaseGrantHorizon_applied, ControlPlaneCommand.horizonAfter, establishHorizon,
      hestablish]
    rfl
  | _ => exact leaseGrantHorizon_of_not_binds harm id

/-- An accepted heartbeat is covered by the horizon of its authority. -/
theorem covered_of_heartbeat
    (h : applyControlPlaneCommand s (.recordNodeHeartbeat heartbeat heartbeatAtMs leaseDeadlineMs
      (some authority)) = .ok a) :
    ∃ horizon, a.snapshot.leaseGrantHorizon = some horizon ∧ horizon.authority = authority ∧
      leaseDeadlineMs ≤ horizon.grantNotAfterMs := by
  obtain ⟨record, next, -, -, -, hcover⟩ :=
    recordNodeHeartbeat_eq_ok (applyControlPlaneCommand_eq_ok h).1
  obtain ⟨hnext, hcovers⟩ := leaseGrantHorizon_establish hcover
  have hc := hcovers authority rfl
  rw [leaseGrantHorizonCovers, hnext] at hc
  simp only [Option.any_eq_true, Bool.and_eq_true, beq_iff_eq, decide_eq_true_eq] at hc
  rw [leaseGrantHorizon_apply h]
  exact hc

/-- An accepted promotion names the present authority, whose horizon covers every lease. -/
theorem covered_of_promotion {promoted : List PromotedNodeHeartbeatLease}
    (h : applyControlPlaneCommand s (.promoteNodeHeartbeatLeases authority promoted) = .ok a) :
    ∃ horizon, a.snapshot.leaseGrantHorizon = some horizon ∧ horizon.authority = authority ∧
      ∀ lease ∈ promoted, lease.leaseDeadlineMs ≤ horizon.grantNotAfterMs := by
  have harm := (applyControlPlaneCommand_eq_ok h).1
  simp only [applyArm, applyPromoteNodeHeartbeatLeases, bind_eq_ok, failIf_eq_ok, okOr_eq_ok,
    exists_const, not_not] at harm
  obtain ⟨-, horizon, hhorizon, hauthority, _, hleases, -⟩ := harm
  rw [leaseGrantHorizon_apply h]
  refine ⟨horizon, hhorizon, hauthority, fun lease hmem => ?_⟩
  have hlease := forOrdered_mem hleases lease hmem
  simp only [validatePromotedLease, bind_eq_ok, failIf_eq_ok, exists_const, not_or] at hlease
  exact not_lt.mp hlease.1.2

/-- A command that binds an authority is not served before the committed time. -/
theorem committed_le_of_bindsAt
    (h : applyControlPlaneCommand s c = .ok a) (hbinds : c.bindsAt = some (authority, nowMs)) :
    ∀ m, s.maxCommittedTimestampMs = some m → m ≤ nowMs := by
  have harm := (applyControlPlaneCommand_eq_ok h).1
  intro m hm
  unfold ControlPlaneCommand.bindsAt at hbinds
  split at hbinds
  · cases hbinds
    obtain ⟨record, hv, -⟩ := bind_eq_ok.mp harm
    exact (validateHeartbeat_eq_ok hv).2.2.2 m hm
  · cases hbinds
    simp only [applyArm, applyExpireNodeHeartbeatLeases, bind_eq_ok] at harm
    obtain ⟨-, -, _, hserving, -⟩ := harm
    exact validateServingTimestamp_eq_ok hserving m hm
  · cases hbinds
    simp only [applyArm, applyEstablishLeaseGrantHorizon, bind_eq_ok] at harm
    obtain ⟨-, -, _, hserving, -⟩ := harm
    exact validateServingTimestamp_eq_ok hserving m hm
  · cases hbinds

end Snapshot

/-! ### One horizon in both snapshots -/

namespace SingleAuthorityControlPlane

variable {p q : SingleAuthorityControlPlane} {c : ControlPlaneCommand}
  {horizon : Option CommittedLeaseGrantHorizon}

/-- Both snapshots have the horizon. -/
def Shares (p : SingleAuthorityControlPlane) (horizon : Option CommittedLeaseGrantHorizon) : Prop :=
  p.snapshot.leaseGrantHorizon = horizon ∧ p.durableSnapshot.leaseGrantHorizon = horizon

/-- An accepted command that changes nothing leaves the horizon. -/
theorem horizonAfter_of_not_changed {s : ClusterControlSnapshot} {a : AppliedControlPlaneCommand}
    (h : applyControlPlaneCommand s c = .ok a) (hc : a.changed ≠ true) :
    c.horizonAfter s.leaseGrantHorizon = s.leaseGrantHorizon := by
  have hsame := unchanged_of_applyArm (applyControlPlaneCommand_eq_ok h).1 (by simpa using hc)
  rw [← leaseGrantHorizon_apply h, hsame]

variable (h : p.Shares horizon)
include h

theorem Shares.commit
    (hl : applyControlPlaneCommand p.snapshot c = .ok liveApplied)
    (hd : applyControlPlaneCommand p.durableSnapshot c = .ok durableApplied) :
    (p.commitRebasedCommand liveApplied durableApplied).Shares (c.horizonAfter horizon) := by
  unfold commitRebasedCommand
  split
  · refine ⟨?_, ?_⟩
    · rw [leaseGrantHorizon_apply hl, h.1]
    · rw [leaseGrantHorizon_apply hd, h.2]
  · next hchanged =>
    have hsame := horizonAfter_of_not_changed hd hchanged
    rw [h.2] at hsame
    rw [hsame]
    exact h

/-- The durable snapshot of `q` is the one of `p`, or an accepted one of the commands leads
there. -/
def Committed (p : SingleAuthorityControlPlane) (commands : Set ControlPlaneCommand)
    (q : SingleAuthorityControlPlane) : Prop :=
  q.durableSnapshot = p.durableSnapshot ∨ ∃ c ∈ commands, ∃ a,
    applyControlPlaneCommand p.durableSnapshot c = .ok a ∧ q.durableSnapshot = a.snapshot

omit h in
theorem committed_commit {commands : Set ControlPlaneCommand} (hc : c ∈ commands)
    (hd : applyControlPlaneCommand p.durableSnapshot c = .ok durableApplied) :
    p.Committed commands (p.commitRebasedCommand liveApplied durableApplied) := by
  unfold commitRebasedCommand
  split
  · exact .inr ⟨c, hc, durableApplied, hd, rfl⟩
  · exact .inl rfl

theorem Shares.promote (hq : p.promoteVolatileHeartbeatLeasesIfNeeded = .ok q) :
    q.Shares horizon ∧ p.Committed .univ q := by
  obtain ⟨promoted, -, ⟨-, rfl⟩ | ⟨authority, liveApplied, durableApplied, hl, -, hd, -, rfl⟩⟩ :=
    promote_cases hq
  · exact ⟨h, .inl rfl⟩
  · -- a promotion leaves the horizon alone
    exact ⟨h.commit hl hd, committed_commit trivial hd⟩

/-- What an accepted command does to an authority: `bound` is the command as both snapshots
applied it. -/
structure Accepted (p : SingleAuthorityControlPlane) (c : ControlPlaneCommand)
    (q : SingleAuthorityControlPlane) (horizon : Option CommittedLeaseGrantHorizon) : Prop where
  shares : q.Shares (c.horizonAfter horizon)
  bound : ∃ c' a, bindMetadataTransferFenceCommand p.snapshot p.durableSnapshot c = .ok c' ∧
    applyControlPlaneCommand p.snapshot c' = .ok a ∧ p.Committed {c'} q

theorem Shares.rebaseCommand (hq : p.rebaseCommand c = .ok q) : p.Accepted c q horizon := by
  simp only [SingleAuthorityControlPlane.rebaseCommand, bind_eq_ok, failIf_eq_ok, pure_eq_ok,
    exists_const] at hq
  obtain ⟨c', hbind, liveApplied, hl, durableApplied, hd, -, rfl⟩ := hq
  refine ⟨?_, c', liveApplied, hbind, hl, committed_commit rfl hd⟩
  have hshares := h.commit hl hd
  rcases bindMetadataTransferFenceCommand_cases hbind with rfl | ⟨_, _, _, _, _, _, rfl, rfl⟩
  · exact hshares
  · exact hshares

variable {heartbeat : NodeHeartbeat} {heartbeatAtMs leaseDeadlineMs : Nat}
  {authority : Option LeaseHorizonAuthorityBinding}

variable (hc : c = .recordNodeHeartbeat heartbeat heartbeatAtMs leaseDeadlineMs authority)
include hc

theorem Shares.rebaseHeartbeat
    (hq : p.rebaseHeartbeat c = .ok q) : p.Accepted c q horizon := by
  have hbind : bindMetadataTransferFenceCommand p.snapshot p.durableSnapshot c = .ok c := by
    subst hc
    rfl
  simp only [SingleAuthorityControlPlane.rebaseHeartbeat, bind_eq_ok] at hq
  obtain ⟨liveApplied, hl, hq⟩ := hq
  split at hq
  · simp only [bind_eq_ok, pure_eq_ok] at hq
    obtain ⟨durableApplied, hd, rfl⟩ := hq
    exact ⟨h.commit hl hd, c, liveApplied, hbind, hl, committed_commit rfl hd⟩
  · next hchanged =>
    cases hq
    have hsame := horizonAfter_of_not_changed hl hchanged
    rw [h.1] at hsame
    refine ⟨?_, c, liveApplied, hbind, hl, .inl rfl⟩
    rw [hsame]
    exact h

/-- A heartbeat served from memory is within the horizon that both snapshots have. -/
theorem Shares.volatile {next : ClusterControlSnapshot}
    (hnext : applyCoveredVolatileHeartbeat p.snapshot c = .ok (some next)) :
    p.Accepted c { p with snapshot := next } horizon := by
  obtain ⟨_, _, _, _, applied, rfl, -, happlied, hvolatile, -, rfl⟩ :=
    applyCoveredVolatileHeartbeat_eq_ok hnext
  have hsame := (volatile_of_heartbeatUpdateIsVolatile hvolatile).horizon
  have hhorizon := leaseGrantHorizon_apply happlied
  rw [hsame, h.1] at hhorizon
  refine ⟨?_, _, applied, rfl, happlied, .inl rfl⟩
  rw [← hhorizon]
  exact ⟨hsame.trans h.1, h.2⟩

/-- What becomes of a command: the live leases are promoted, and then the command is refused or
accepted. -/
def Outcome (p : SingleAuthorityControlPlane) (c : ControlPlaneCommand)
    (r : SingleAuthorityControlPlane × Option ControlPlaneError)
    (horizon : Option CommittedLeaseGrantHorizon) : Prop :=
  ∃ promoted, promoted.Shares horizon ∧ p.Committed .univ promoted ∧
    (r.1 = promoted ∧ r.2 ≠ none ∨ promoted.Accepted c r.1 horizon ∧ r.2 = none)

omit hc

theorem Shares.afterPromotion
    {step : SingleAuthorityControlPlane → Except ControlPlaneError SingleAuthorityControlPlane}
    (hstep : ∀ {q r}, q.Shares horizon → step q = .ok r → q.Accepted c r horizon) :
    p.Outcome c (p.afterPromotion step) horizon := by
  unfold SingleAuthorityControlPlane.afterPromotion
  split
  · exact ⟨p, h, .inl rfl, .inl ⟨rfl, nofun⟩⟩
  · next promoted hpromoted =>
    obtain ⟨hshares, hcommitted⟩ := h.promote hpromoted
    split
    · exact ⟨promoted, hshares, hcommitted, .inl ⟨rfl, nofun⟩⟩
    · next next hnext =>
      exact ⟨promoted, hshares, hcommitted, .inr ⟨hstep hshares hnext, rfl⟩⟩

theorem Shares.applyHeartbeatCommand
    (hc : c = .recordNodeHeartbeat heartbeat heartbeatAtMs leaseDeadlineMs authority) :
    p.Outcome c (p.applyHeartbeatCommand c) horizon := by
  unfold SingleAuthorityControlPlane.applyHeartbeatCommand
  split
  · exact ⟨p, h, .inl rfl, .inl ⟨rfl, nofun⟩⟩
  · next next hnext => exact ⟨p, h, .inl rfl, .inr ⟨h.volatile hc hnext, rfl⟩⟩
  · exact h.afterPromotion fun hq hr => hq.rebaseHeartbeat hc hr

end SingleAuthorityControlPlane

/-! ### Deadlines that have passed -/

/-- A granted deadline is within the present horizon, or its fence has passed. -/
def Passed (deadlineMs : Nat) (s : ClusterControlSnapshot) : Prop :=
  (∃ horizon, s.leaseGrantHorizon = some horizon ∧ deadlineMs ≤ horizon.grantNotAfterMs) ∨
    ∃ m, s.maxCommittedTimestampMs = some m ∧ Fenced m deadlineMs

/-- What the durable snapshot keeps while an authority serves. -/
structure Later (s t : ClusterControlSnapshot) : Prop where
  wellFormed : t.view.WellFormed
  timestamp : ∀ m, s.maxCommittedTimestampMs = some m →
    ∃ m', t.maxCommittedTimestampMs = some m' ∧ m ≤ m'
  passed : ∀ deadlineMs, Passed deadlineMs s → Passed deadlineMs t

theorem Later.refl (h : s.view.WellFormed) : Later s s :=
  ⟨h, fun m hm => ⟨m, hm, le_rfl⟩, fun _ => id⟩

theorem Later.trans {u : ClusterControlSnapshot} (h : Later s t) (h' : Later t u) : Later s u := by
  refine ⟨h'.wellFormed, fun m hm => ?_, fun d hd => h'.passed d (h.passed d hd)⟩
  obtain ⟨m', hm', hle⟩ := h.timestamp m hm
  obtain ⟨m'', hm'', hle'⟩ := h'.timestamp m' hm'
  exact ⟨m'', hm'', hle.trans hle'⟩

theorem later_of_leaseMove (ht : t.view.WellFormed) (h : LeaseMove c s.view t.view) :
    Later s t := by
  refine ⟨ht, h.timestamp, fun d hd => ?_⟩
  rcases hd with ⟨horizon, hhorizon, hle⟩ | ⟨m, hm, hfenced⟩
  · obtain ⟨next, hnext, ⟨-, hgrows⟩ | ⟨now, hnow, hfenced⟩⟩ := h.horizon horizon hhorizon
    · exact .inl ⟨next, hnext, hle.trans hgrows⟩
    · exact .inr ⟨now, hnow, hfenced.mono le_rfl hle⟩
  · obtain ⟨m', hm', hle⟩ := h.timestamp m hm
    exact .inr ⟨m', hm', hfenced.mono hle le_rfl⟩

theorem SingleAuthorityControlPlane.Committed.later {p q : SingleAuthorityControlPlane}
    {commands : Set ControlPlaneCommand} (h : p.Committed commands q)
    (hw : p.durableSnapshot.view.WellFormed) : Later p.durableSnapshot q.durableSnapshot := by
  rcases h with hsame | ⟨c, -, a, ha, hq⟩
  · rw [hsame]
    exact .refl hw
  · rw [hq]
    have hmove := leaseMove_apply hw.toKeyed ha
    exact later_of_leaseMove (hmove.wellFormed hw (keyed_apply hw.toKeyed ha)) hmove

/-! ### Runs -/

/-- The command grants a lease under the authority. -/
def ControlPlaneCommand.Grants (authority : LeaseHorizonAuthorityBinding) (deadlineMs : Nat) :
    ControlPlaneCommand → Prop
  | .recordNodeHeartbeat _ _ leaseDeadlineMs binding =>
    binding = some authority ∧ leaseDeadlineMs = deadlineMs
  | .promoteNodeHeartbeatLeases binding promoted =>
    binding = authority ∧ ∃ lease ∈ promoted, lease.leaseDeadlineMs = deadlineMs
  | _ => False

namespace LeasedAuthority

variable {σ τ υ φ : LeasedAuthority} {event event' : AuthorityEvent}

/-- The command of an event and what becomes of it. -/
def attempt (σ : LeasedAuthority) : AuthorityEvent →
    Option (ControlPlaneCommand × SingleAuthorityControlPlane × Option ControlPlaneError)
  | .command command => some (command, σ.plane.applyAndCommitCommand command)
  | .heartbeat heartbeat heartbeatAtMs leaseDeadlineMs =>
    let command := .recordNodeHeartbeat heartbeat heartbeatAtMs leaseDeadlineMs (some σ.binding)
    some (command, σ.plane.applyHeartbeatCommand command)
  | .changeAuthority _ | .restart => none

/-- The event is an accepted grant. -/
def Acknowledges (σ : LeasedAuthority) (event : AuthorityEvent)
    (authority : LeaseHorizonAuthorityBinding) (deadlineMs : Nat) : Prop :=
  ∃ command plane, σ.attempt event = some (command, plane, none) ∧
    command.Grants authority deadlineMs

/-- The committed horizon. -/
def horizon (σ : LeasedAuthority) : Option CommittedLeaseGrantHorizon :=
  σ.plane.durableSnapshot.leaseGrantHorizon

/-- Both snapshots have the committed horizon, and the durable one is well formed. -/
structure Serves (σ : LeasedAuthority) : Prop where
  shares : σ.plane.Shares σ.horizon
  wellFormed : σ.plane.durableSnapshot.view.WellFormed

theorem outcome_of_attempt (h : σ.Serves)
    (hr : σ.attempt event = some (command, r)) : σ.plane.Outcome command r σ.horizon := by
  cases event with
  | command command =>
    cases hr
    exact h.shares.afterPromotion fun hq hnext => hq.rebaseCommand hnext
  | heartbeat =>
    cases hr
    exact h.shares.applyHeartbeatCommand rfl
  | changeAuthority => cases hr
  | restart => cases hr

/-- What a step does to the committed snapshot: it keeps the horizon, or a command that binds an
authority is accepted no earlier than the committed time. -/
structure HorizonStep (σ : LeasedAuthority) (event : AuthorityEvent) (τ : LeasedAuthority) :
    Prop where
  serves : τ.Serves
  later : Later σ.plane.durableSnapshot τ.plane.durableSnapshot
  horizon : τ.horizon = σ.horizon ∨ ∃ command r, σ.attempt event = some (command, r) ∧
    τ.horizon = command.horizonAfter σ.horizon ∧
    ∀ authority nowMs m, command.bindsAt = some (authority, nowMs) →
      σ.plane.durableSnapshot.maxCommittedTimestampMs = some m → m ≤ nowMs

theorem horizonStep_of_attempt (h : σ.Serves)
    (hr : σ.attempt event = some (command, r)) : HorizonStep σ event ⟨r.1, σ.binding⟩ := by
  obtain ⟨promoted, hshares, hpromotion, hresult⟩ := outcome_of_attempt h hr
  have hpromoted := hpromotion.later h.wellFormed
  rcases hresult with ⟨hsame, -⟩ | ⟨⟨haccepted, c', a, hbind, -, hcommitted⟩, -⟩
  · rw [hsame]
    exact ⟨⟨⟨hshares.1.trans hshares.2.symm, rfl⟩, hpromoted.wellFormed⟩, hpromoted,
      .inl hshares.2⟩
  · have hlater := hcommitted.later hpromoted.wellFormed
    refine ⟨⟨⟨haccepted.1.trans haccepted.2.symm, rfl⟩, hlater.wellFormed⟩,
      hpromoted.trans hlater, ?_⟩
    rcases hcommitted with hsame | ⟨_, heq, applied, happlied, -⟩
    · exact .inl ((congrArg ClusterControlSnapshot.leaseGrantHorizon hsame).trans hshares.2)
    · cases heq
      refine .inr ⟨command, r, hr, haccepted.2, fun authority nowMs m hbinds hm => ?_⟩
      have hbinds' : c'.bindsAt = some (authority, nowMs) := by
        rcases bindMetadataTransferFenceCommand_cases hbind with rfl | ⟨_, _, _, _, _, _, rfl, rfl⟩
        · exact hbinds
        · cases hbinds
      obtain ⟨m', hm', hle⟩ := hpromoted.timestamp m hm
      exact hle.trans (committed_le_of_bindsAt happlied hbinds' m' hm')

theorem step_horizon (h : σ.Serves) (hstep : σ.step event = some τ) : HorizonStep σ event τ := by
  cases event with
  | command command =>
    cases hstep
    exact horizonStep_of_attempt h rfl
  | heartbeat heartbeat heartbeatAtMs leaseDeadlineMs =>
    cases hstep
    exact horizonStep_of_attempt h rfl
  | changeAuthority binding =>
    cases hstep
    exact ⟨⟨⟨rfl, rfl⟩, h.wellFormed⟩, .refl h.wellFormed, .inl rfl⟩
  | restart =>
    simp only [LeasedAuthority.step] at hstep
    split at hstep
    · next plane hplane =>
      cases hstep
      obtain ⟨hsame, hview⟩ := view_reopen hplane
      rw [← hsame] at hview
      have hwellFormed : plane.durableSnapshot.view.WellFormed := hview ▸ h.wellFormed.restart
      have hhorizon : plane.durableSnapshot.leaseGrantHorizon = σ.horizon :=
        congrArg LeaseView.leaseGrantHorizon hview
      have htime : plane.durableSnapshot.maxCommittedTimestampMs =
          σ.plane.durableSnapshot.maxCommittedTimestampMs :=
        congrArg LeaseView.maxCommittedTimestampMs hview
      refine ⟨⟨⟨?_, rfl⟩, hwellFormed⟩, ⟨hwellFormed, fun m hm => ⟨m, htime.trans hm, le_rfl⟩,
        fun d hd => ?_⟩, .inl hhorizon⟩
      · exact congrArg ClusterControlSnapshot.leaseGrantHorizon hsame.symm
      · exact hd.imp (Exists.imp fun _ ha => ⟨hhorizon.trans ha.1, ha.2⟩)
          (Exists.imp fun _ hm => ⟨htime.trans hm.1, hm.2⟩)
    · cases hstep

/-- An acknowledged deadline is within the committed horizon of its authority. -/
theorem covered_of_acknowledges (h : σ.Serves) (hstep : σ.step event = some τ)
    {authority : LeaseHorizonAuthorityBinding} {deadlineMs : Nat}
    (hgrant : σ.Acknowledges event authority deadlineMs) :
    ∃ horizon, τ.horizon = some horizon ∧ horizon.authority = authority ∧
      deadlineMs ≤ horizon.grantNotAfterMs := by
  obtain ⟨command, plane, hattempt, hgrants⟩ := hgrant
  have hτ : τ.plane = plane := by
    cases event with
    | command =>
      cases hstep
      exact congrArg Prod.fst (Prod.mk.inj (Option.some.inj hattempt)).2
    | heartbeat =>
      cases hstep
      exact congrArg Prod.fst (Prod.mk.inj (Option.some.inj hattempt)).2
    | changeAuthority => cases hattempt
    | restart => cases hattempt
  obtain ⟨promoted, hshares, -, ⟨-, hrefused⟩ | ⟨⟨haccepted, c', a, hbind, ha, -⟩, -⟩⟩ :=
    outcome_of_attempt h hattempt
  · exact absurd rfl hrefused
  have hhorizon : τ.horizon = command.horizonAfter σ.horizon := by
    rw [LeasedAuthority.horizon, hτ]
    exact haccepted.2
  rw [hhorizon]
  unfold ControlPlaneCommand.Grants at hgrants
  split at hgrants
  · cases hbind
    obtain ⟨rfl, rfl⟩ := hgrants
    have hcovered := covered_of_heartbeat ha
    rw [leaseGrantHorizon_apply ha, hshares.1] at hcovered
    exact hcovered
  · cases hbind
    obtain ⟨rfl, lease, hmem, rfl⟩ := hgrants
    obtain ⟨horizon, hcovers, hauthority, hleases⟩ := covered_of_promotion ha
    rw [leaseGrantHorizon_apply ha, hshares.1] at hcovers
    exact ⟨horizon, hcovers, hauthority, hleases lease hmem⟩
  · exact hgrants.elim

theorem serves_start (binding : LeaseHorizonAuthorityBinding) : (start .empty binding).Serves := by
  refine ⟨⟨rfl, rfl⟩, ⟨fun h => ?_, fun h => ?_⟩, fun h => ?_, fun h => ?_⟩ <;>
    simp [start, empty] at h

theorem serves_of_run {start : LeaseHorizonAuthorityBinding} {past : List LeasedAuthority}
    (hrun : Run LeasedAuthority.step (fun _ _ => True) (.start .empty start) past σ) : σ.Serves :=
  hrun.invariant (serves_start start) fun hs _ hnext => (step_horizon hs hnext).serves

/-- A granted deadline stays within the horizon until its fence has passed. -/
theorem passed_of_acknowledges (hσ : σ.Serves) {later : List LeasedAuthority}
    {authority : LeaseHorizonAuthorityBinding} {deadlineMs : Nat}
    (hgrant : σ.Acknowledges event authority deadlineMs) (hstep : σ.step event = some τ)
    (hlater : Run LeasedAuthority.step (fun _ _ => True) τ later υ) :
    Passed deadlineMs υ.plane.durableSnapshot := by
  have hcovered := covered_of_acknowledges hσ hstep hgrant
  have hυ := hlater.invariant
    (I := fun ρ => ρ.Serves ∧ Passed deadlineMs ρ.plane.durableSnapshot)
    ⟨(step_horizon hσ hstep).serves, .inl (hcovered.imp fun _ h => ⟨h.1, h.2.2⟩)⟩
    fun hs _ hnext =>
      ⟨(step_horizon hs.1 hnext).serves, (step_horizon hs.1 hnext).later.passed _ hs.2⟩
  exact hυ.2

/-- **The grant horizon fences authority changes.**  At every step of every run of an authority

* a deadline that the step acknowledges is within the horizon that is committed with it, and this
  horizon is bound to the authority of the grant;
* a committed horizon is kept, and its bound does not decrease while the binding stays;
* if another binding is installed, then by a command of that binding at an authority time by which
  the bound of the previous binding, which covers all that could have been granted under it, and
  every deadline granted before in the run have passed, each with the skew budget. -/
theorem horizon_fences_authority_changes {start : LeaseHorizonAuthorityBinding}
    {past : List LeasedAuthority}
    (hrun : Run LeasedAuthority.step (fun _ _ => True) (.start .empty start) past υ)
    (hlast : υ.step event' = some φ) :
    (∀ authority deadlineMs, υ.Acknowledges event' authority deadlineMs →
        ∃ horizon, φ.horizon = some horizon ∧ horizon.authority = authority ∧
          deadlineMs ≤ horizon.grantNotAfterMs) ∧
      ∀ horizon, υ.horizon = some horizon → ∃ horizon', φ.horizon = some horizon' ∧
        (horizon'.authority = horizon.authority →
          horizon.grantNotAfterMs ≤ horizon'.grantNotAfterMs) ∧
        (horizon'.authority ≠ horizon.authority →
          ∃ command r nowMs, υ.attempt event' = some (command, r) ∧
            command.bindsAt = some (horizon'.authority, nowMs) ∧
            horizon.grantNotAfterMs + controlPlaneClockSkewBudgetMs ≤ nowMs ∧
            ∀ earlier σ event τ later authority deadlineMs,
              Run LeasedAuthority.step (fun _ _ => True) (.start .empty start) earlier σ →
              σ.Acknowledges event authority deadlineMs → σ.step event = some τ →
              Run LeasedAuthority.step (fun _ _ => True) τ later υ →
                deadlineMs + controlPlaneClockSkewBudgetMs ≤ nowMs) := by
  have hυ := serves_of_run hrun
  refine ⟨fun _ _ hgrant => covered_of_acknowledges hυ hlast hgrant, fun horizon hhorizon => ?_⟩
  rcases (step_horizon hυ hlast).horizon with hsame | ⟨command, r, hattempt, hafter, htime⟩
  · exact ⟨horizon, hsame.trans hhorizon, fun _ => le_rfl, fun hne => absurd rfl hne⟩
  rcases command.horizonAfter_cases υ.horizon with hkeeps | ⟨binding, nowMs, durationMs,
    established, hbinds, hestablish, hkeeps⟩
  · exact ⟨horizon, hafter.trans (hkeeps.trans hhorizon), fun _ => le_rfl,
      fun hne => absurd rfl hne⟩
  refine ⟨established, hafter.trans hkeeps, ?_⟩
  rw [hhorizon] at hestablish
  obtain ⟨hbinding, ⟨hsame, hgrows⟩ | ⟨hother, hfence⟩⟩ := establish_cases hestablish
  · exact ⟨fun _ => hgrows, fun hne => absurd hsame hne⟩
  have hfenced := (fenced_iff.mp hfence).2
  refine ⟨fun heq => absurd heq hother, fun _ => ⟨command, r, nowMs, hattempt, hbinding ▸ hbinds,
    hfenced, fun _ σ _ _ _ _ deadlineMs hearlier hgrant hstep hlater => ?_⟩⟩
  rcases passed_of_acknowledges (serves_of_run hearlier) hgrant hstep hlater with
    ⟨present, hpresent, hle⟩ | ⟨m, hm, hpast⟩
  · cases hhorizon.symm.trans hpresent
    omega
  · have hnow := htime binding nowMs m hbinds hm
    have := (fenced_iff.mp hpast).2
    omega

/-- A node is granted a lease until 110000, and a second authority binds the horizon at 200000. -/
theorem horizon_fences_second_authority :
    ∃ past υ φ horizon horizon', Run LeasedAuthority.step (fun _ _ => True)
        (.start .empty twoNodesBinding) past υ ∧
      υ.step (twoNodesHeartbeat 2 3 1 none 200000 210000) = some φ ∧
      υ.horizon = some horizon ∧ horizon.authority = twoNodesBinding ∧
      110000 ≤ horizon.grantNotAfterMs ∧
      φ.horizon = some horizon' ∧ horizon'.authority = ⟨2, none⟩ ∧
      horizon.grantNotAfterMs + controlPlaneClockSkewBudgetMs ≤ 200000 := by
  have h : ∃ past υ, Run LeasedAuthority.step (fun _ _ => True)
        (.start .empty twoNodesBinding) past υ ∧
      (υ.attempt (twoNodesHeartbeat 2 3 1 none 200000 210000)).bind (·.1.bindsAt) =
        some (⟨2, none⟩, 200000) ∧
      ∃ φ ∈ υ.step (twoNodesHeartbeat 2 3 1 none 200000 210000),
        ∃ horizon ∈ υ.horizon, ∃ horizon' ∈ φ.horizon, horizon.authority = twoNodesBinding ∧
          110000 ≤ horizon.grantNotAfterMs ∧ horizon'.authority = ⟨2, none⟩ :=
    exists_run_of_replay [.command (.bootstrapInitialClusterMap [(1, "a"), (2, "b")] [0]),
      twoNodesHeartbeat 1 2 1 none 100000 110000, .changeAuthority ⟨2, none⟩] (by decide +kernel)
  obtain ⟨past, υ, hrun, hbinds, φ, hφ, horizon, hhorizon, horizon', hhorizon', hfirst, hgranted,
    hsecond⟩ := h
  obtain ⟨new, hnew, -, hrebinds⟩ := (horizon_fences_authority_changes hrun hφ).2 horizon hhorizon
  cases hnew.symm.trans hhorizon'
  obtain ⟨command, r, nowMs, hattempt, hcommand, hpassed, -⟩ :=
    hrebinds fun heq => absurd (hsecond.symm.trans (heq.trans hfirst)) (by decide)
  rw [hattempt, Option.bind_some, hcommand] at hbinds
  obtain rfl := (Prod.mk.inj (Option.some.inj hbinds)).2
  exact ⟨past, υ, φ, horizon, horizon', hrun, hφ, hhorizon, hfirst, hgranted, hnew, hsecond,
    hpassed⟩

end LeasedAuthority

end Argmin.ControlPlane
