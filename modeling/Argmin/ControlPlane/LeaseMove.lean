import Argmin.ControlPlane.LeaseRefinement

/-!
# What a command can do to leases

`LeaseMove c v v'` says once what an accepted command `c` can do to a well-formed lease view:

* the epoch and the committed time never go back, and the grant horizon is extended or, once
  its skew fence has passed, bound to another authority;
* a PG stays as it is and, while Active, keeps its primary process and a lease at least as long;
* or it leaves the Active state, fenced by at least the lease its primary held, in a new epoch;
* or it becomes Active through a completion that respected its fence.

`leaseMove_apply`: **every accepted command is a `LeaseMove`**.  The invariants of `LeaseSafety`
are derived from this alone.
-/

namespace Argmin.ControlPlane

open Fallible TreeMap LeaseView List ClusterControlSnapshot NodeControlRecord PgControlRecord
  Option Nat

variable {nodes : List (NodeId × String)} {pgs : List (PgId × List NodeId)}
  {atMs deadline durationMs nodeIncarnation now : Nat} {n nodeId primary : NodeId}

variable {a : AppliedControlPlaneCommand} {s : ClusterControlSnapshot} {c : ControlPlaneCommand}
  {authority : LeaseHorizonAuthorityBinding} {v w : LeaseView} {leaseDeadlineMs nowMs : Nat}
  {heartbeat : NodeHeartbeat} {node : NodeView} {pgId : PgId} {pg : PgView}
  {actingSet : List NodeId}
  {membership : NodeMembershipState} {availability : NodeAvailabilityState}
  {heartbeatAtMs expireAtMs : Nat} {horizonAuthority : Option LeaseHorizonAuthorityBinding}

/-! ### Leases and processes -/

/-- A primary process: a node, its incarnation and its endpoint. -/
structure PrimaryProcess where
  nodeId : NodeId
  nodeIncarnation : Nat
  endpoint : String
deriving DecidableEq

def PreviousPrimaryLease.process (lease : PreviousPrimaryLease) : PrimaryProcess :=
  ⟨lease.nodeId, lease.nodeIncarnation, lease.endpoint⟩

/-- The successor activation fence for a lease deadline holds at `nowMs`. -/
def Fenced (nowMs deadlineMs : Nat) : Prop :=
  successorActivationFenceSatisfied nowMs deadlineMs controlPlaneClockSkewBudgetMs = true

instance (nowMs deadlineMs : Nat) : Decidable (Fenced nowMs deadlineMs) :=
  inferInstanceAs (Decidable
    (successorActivationFenceSatisfied nowMs deadlineMs controlPlaneClockSkewBudgetMs = true))

theorem fenced_iff {deadlineMs : Nat} :
    Fenced nowMs deadlineMs ↔
      deadlineMs + controlPlaneClockSkewBudgetMs < 2 ^ 64 ∧
        deadlineMs + controlPlaneClockSkewBudgetMs ≤ nowMs := by
  unfold Fenced successorActivationFenceSatisfied checkedAdd
  by_cases h : deadlineMs + controlPlaneClockSkewBudgetMs < 2 ^ 64
  · simp only [h, if_true, decide_eq_true_eq, true_and]
  · simp only [h, if_false, Bool.false_eq_true, false_and]

theorem Fenced.mono {now' deadline' : Nat} (h : Fenced now deadline)
    (hn : now ≤ now') (hd : deadline' ≤ deadline) : Fenced now' deadline' := by
  rw [fenced_iff] at h ⊢
  omega

/-- `later` is a lease of the same process that runs at least as long. -/
def LeaseCovers (earlier later : Option PreviousPrimaryLease) : Prop :=
  ∀ l, earlier = some l →
    ∃ l', later = some l' ∧ l'.process = l.process ∧ l.leaseDeadlineMs ≤ l'.leaseDeadlineMs

theorem LeaseCovers.refl (lease : Option PreviousPrimaryLease) : LeaseCovers lease lease :=
  fun l h => ⟨l, h, rfl, le_rfl⟩

/-- The node goes on as the same process, still serving, with a lease at least as long. -/
structure NodeView.Keeps (before after : NodeView) : Prop where
  nodeIncarnation : after.nodeIncarnation = before.nodeIncarnation
  endpoint : after.endpoint = before.endpoint
  administrativelyAvailable : before.administrativelyAvailable → after.administrativelyAvailable
  healthy : before.observedAvailability = .healthy → after.observedAvailability = .healthy
  lease : ∀ d, before.leaseDeadlineMs = some d → ∃ d', after.leaseDeadlineMs = some d' ∧ d ≤ d'

theorem NodeView.Keeps.refl (node : NodeView) : node.Keeps node :=
  ⟨rfl, rfl, id, id, fun d h => ⟨d, h, le_rfl⟩⟩

/-! ### Well-formed views -/

/-- The primary of an Active PG acts for it, serves, and holds a lease. -/
structure LeaseView.Serves (v : LeaseView) (pg : PgView) (n : NodeId) (node : NodeView)
    (deadline : Nat) : Prop where
  primary : pg.activePrimary = some n
  acts : n ∈ pg.actingSet
  known : v.nodes n = some node
  administrativelyAvailable : node.administrativelyAvailable
  healthy : node.observedAvailability = .healthy
  lease : node.leaseDeadlineMs = some deadline

structure LeaseView.WellFormed (v : LeaseView) : Prop extends v.Keyed where
  active : ∀ {pgId pg}, v.pgs pgId = some pg → pg.state = .active →
    pg.previousPrimaryLease = none ∧ ∃ n node deadline, v.Serves pg n node deadline
  observed : ∀ {n node e}, v.nodes n = some node → node.lastObservedEpoch = some e →
    e ≤ v.clusterEpoch

theorem LeaseView.Serves.activePrimaryLease (h : v.Serves pg n node deadline)
    (hactive : pg.state = .active) :
    v.activePrimaryLease pg = some ⟨n, node.nodeIncarnation, node.endpoint, deadline, true⟩ := by
  simp [LeaseView.activePrimaryLease, hactive, h.primary, h.known, h.lease]

theorem LeaseView.activePrimaryLease_of_not_active (v : LeaseView)
    (h : pg.state ≠ .active) : v.activePrimaryLease pg = none := by
  simp [activePrimaryLease, h]

theorem LeaseView.fencingLease_of_not_active (v : LeaseView)
    (h : pg.state ≠ .active) : v.fencingLease pg = pg.previousPrimaryLease := by
  rw [fencingLease, v.activePrimaryLease_of_not_active h, none_or]

/-! ### Moves -/

/-- The time of a completion command and the PGs and primaries it completes. -/
def ControlPlaneCommand.completions : ControlPlaneCommand → Option (Nat × List (PgId × NodeId))
  | .completePgPeering pgId primary _ completeAtMs => some (completeAtMs, [(pgId, primary)])
  | .completeReadyPgPeerings readyAtMs ready =>
    some (readyAtMs, ready.map fun completion => (completion.pgId, completion.primary))
  | .completeUnavailablePgPlacementTransition body =>
    some (body.readyAtMs, [(body.pgId, body.completion.primary)])
  | _ => none

def ControlPlaneCommand.IsHeartbeat : ControlPlaneCommand → Prop
  | .recordNodeHeartbeat .. => True
  | _ => False

/-- What a command may do to one PG. -/
inductive PgMove (c : ControlPlaneCommand) (v v' : LeaseView) (pgId : PgId) : Prop
  | absent (h : v.pgs pgId = none) (h' : v'.pgs pgId = none)
  | created (pg' : PgView) (h : v.pgs pgId = none) (h' : v'.pgs pgId = some pg')
      (hpeering : pg'.state ≠ .active)
  | stays (pg : PgView) (h : v.pgs pgId = some pg) (h' : v'.pgs pgId = some pg)
      (kept : pg.state = .active → ∀ n node deadline, v.Serves pg n node deadline →
        ∃ node', v'.nodes n = some node' ∧ node.Keeps node')
  | leaves (pg pg' : PgView) (h : v.pgs pgId = some pg) (h' : v'.pgs pgId = some pg')
      (hleft : pg'.state ≠ .active)
      (covers : LeaseCovers (v.fencingLease pg) pg'.previousPrimaryLease)
      (epoch : v.clusterEpoch < v'.clusterEpoch)
  | activates (pg pg' : PgView) (n : NodeId) (node : NodeView) (deadline atMs : Nat)
      (completions : List (PgId × NodeId)) (h : v.pgs pgId = some pg)
      (h' : v'.pgs pgId = some pg') (hne : pg.state ≠ .active) (hactive : pg'.state = .active)
      (hprevious : pg'.previousPrimaryLease = none) (serves : v'.Serves pg' n node deadline)
      (known : v.nodes n = some node) (observed : node.lastObservedEpoch = some v.clusterEpoch)
      (hcommand : c.completions = some (atMs, completions)) (hmem : (pgId, n) ∈ completions)
      (htime : v'.maxCommittedTimestampMs = some atMs)
      (respects : ∀ previous, pg.previousPrimaryLease = some previous →
        previous.process = ⟨n, node.nodeIncarnation, node.endpoint⟩ ∨
          Fenced atMs previous.leaseDeadlineMs)

/-- The grant horizon is extended, or bound anew once its fence has passed at `nowMs`. -/
def HorizonMove (horizon horizon' : Option CommittedLeaseGrantHorizon) (nowMs : Option Nat) :
    Prop :=
  ∀ h, horizon = some h → ∃ h', horizon' = some h' ∧
    (h'.authority = h.authority ∧ h.grantNotAfterMs ≤ h'.grantNotAfterMs ∨
      ∃ now, nowMs = some now ∧ Fenced now h.grantNotAfterMs)

theorem HorizonMove.refl (horizon : Option CommittedLeaseGrantHorizon) (nowMs : Option Nat) :
    HorizonMove horizon horizon nowMs :=
  fun h hh => ⟨h, hh, .inl ⟨rfl, le_rfl⟩⟩

/-- The committed time and the grant horizon only move on. -/
structure LeaseView.TimeMove (v w : LeaseView) : Prop where
  timestamp : ∀ m, v.maxCommittedTimestampMs = some m →
    ∃ m', w.maxCommittedTimestampMs = some m' ∧ m ≤ m'
  horizon : HorizonMove v.leaseGrantHorizon w.leaseGrantHorizon w.maxCommittedTimestampMs

theorem LeaseView.TimeMove.of_eq (ht : w.maxCommittedTimestampMs = v.maxCommittedTimestampMs)
    (hh : w.leaseGrantHorizon = v.leaseGrantHorizon) : v.TimeMove w :=
  ⟨fun m h => ⟨m, ht.trans h, le_rfl⟩, hh ▸ .refl _ _⟩

/-- **What a command may do to the leases of a snapshot.** -/
structure LeaseMove (c : ControlPlaneCommand) (v v' : LeaseView) : Prop extends v.TimeMove v' where
  epoch : v.clusterEpoch ≤ v'.clusterEpoch
  observed : ∀ n node' e, v'.nodes n = some node' → node'.lastObservedEpoch = some e →
    (∃ node, v.nodes n = some node ∧ node.lastObservedEpoch = some e) ∨
      c.IsHeartbeat ∧ e ≤ v.clusterEpoch
  pg : ∀ pgId, PgMove c v v' pgId

/-- A move keeps a view well formed. -/
theorem LeaseMove.wellFormed {v' : LeaseView} (h : LeaseMove c v v') (hw : v.WellFormed)
    (hk : v'.Keyed) : v'.WellFormed where
  toKeyed := hk
  active {pgId pg'} hp hactive := by
    cases h.pg pgId with
    | absent _ h' => rw [h'] at hp; cases hp
    | created pg _ h' hpeering => cases h'.symm.trans hp; exact absurd hactive hpeering
    | stays pg hold h' kept =>
      cases h'.symm.trans hp
      obtain ⟨hnone, n, node, deadline, hs⟩ := hw.active hold hactive
      obtain ⟨node', hn', hk⟩ := kept hactive n node deadline hs
      obtain ⟨deadline', hd', -⟩ := hk.lease deadline hs.lease
      exact ⟨hnone, n, node', deadline', hs.primary, hs.acts, hn',
        hk.administrativelyAvailable hs.administrativelyAvailable, hk.healthy hs.healthy, hd'⟩
    | leaves pg left _ h' hleft => cases h'.symm.trans hp; exact absurd hactive hleft
    | activates pg left n node deadline _ _ _ h' _ _ hprevious serves =>
      cases h'.symm.trans hp
      exact ⟨hprevious, n, node, deadline, serves⟩
  observed {n node e} hn he := by
    rcases h.observed n node e hn he with ⟨old, hold, heold⟩ | ⟨-, hle⟩
    · exact (hw.observed hold heold).trans h.epoch
    · exact hle.trans h.epoch

/-- Where the command is accepted and changes something, it is a lease move. -/
def MovesLeases (c : ControlPlaneCommand) : Prop :=
  ∀ {s : ClusterControlSnapshot} {a : AppliedControlPlaneCommand},
    applyArm s c = .ok a → a.changed = true → LeaseMove c s.view (s.view.after c)

/-! ### Kinds of moves -/

namespace LeaseView

@[simp]
theorem recordTimestamp_nodes (t : Nat) : (v.recordTimestamp t).nodes = v.nodes :=
  rfl

@[simp]
theorem recordTimestamp_pgs (t : Nat) : (v.recordTimestamp t).pgs = v.pgs := rfl

/-- Recording a time raises the high-water mark to at least that time. -/
theorem recordTimestamp_le (v : LeaseView) (t : Nat) :
    ∃ m', (v.recordTimestamp t).maxCommittedTimestampMs = some m' ∧ t ≤ m' ∧
      ∀ m, v.maxCommittedTimestampMs = some m → m ≤ m' := by
  unfold recordTimestamp
  cases v.maxCommittedTimestampMs with
  | none => exact ⟨t, rfl, le_rfl, fun _ h => nomatch h⟩
  | some m => exact ⟨max m t, rfl, le_max_right .., fun m' h => by cases h; exact le_max_left ..⟩

/-- A view in which only the clock and the horizon moved on. -/
structure ClockMove (v w : LeaseView) : Prop extends v.TimeMove w where
  epoch : w.clusterEpoch = v.clusterEpoch
  nodes : w.nodes = v.nodes
  pgs : w.pgs = v.pgs

theorem ClockMove.refl (v : LeaseView) : v.ClockMove v :=
  ⟨.of_eq rfl rfl, rfl, rfl, rfl⟩

theorem clockMove_recordTimestamp (v : LeaseView) (t : Nat) :
    v.ClockMove (v.recordTimestamp t) := by
  obtain ⟨m', hm', -, hle⟩ := v.recordTimestamp_le t
  exact ⟨⟨fun m h => ⟨m', hm', hle m h⟩, .refl _ _⟩, rfl, rfl, rfl⟩

end LeaseView

/-- An established horizon is bound to its authority; it grows under the same one, and another
one waited for the fence. -/
theorem establish_cases {horizon established : CommittedLeaseGrantHorizon}
    (h : CommittedLeaseGrantHorizon.establish (some horizon) authority nowMs durationMs
      controlPlaneClockSkewBudgetMs = .ok established) :
    established.authority = authority ∧
      (established.authority = horizon.authority ∧
          horizon.grantNotAfterMs ≤ established.grantNotAfterMs ∨
        established.authority ≠ horizon.authority ∧ Fenced nowMs horizon.grantNotAfterMs) := by
  simp only [CommittedLeaseGrantHorizon.establish, bind_eq_ok, okOr_eq_ok] at h
  obtain ⟨proposed, -, h⟩ := h
  split at h
  · next hsame =>
    cases h
    exact ⟨rfl, .inl ⟨hsame.symm, le_max_left ..⟩⟩
  · next hother =>
    simp only [bind_eq_ok, pure_eq_ok, CommittedLeaseGrantHorizon.validateRebinding, hother,
      if_false, okOr_eq_ok, failIf_eq_ok, checkedAdd_eq_some] at h
    obtain ⟨-, ⟨fencedUntil, ⟨hsum, hlt⟩, hnow⟩, rfl⟩ := h
    exact ⟨rfl, .inr ⟨Ne.symm hother, fenced_iff.mpr ⟨hlt, by omega⟩⟩⟩

theorem establish_move {previous : Option CommittedLeaseGrantHorizon}
    {horizon : CommittedLeaseGrantHorizon}
    (h : CommittedLeaseGrantHorizon.establish previous authority nowMs durationMs
      controlPlaneClockSkewBudgetMs = .ok horizon) :
    HorizonMove previous (some horizon) (some nowMs) := by
  intro old hold
  subst hold
  exact ⟨horizon, rfl, (establish_cases h).2.imp_right fun hf => ⟨nowMs, rfl, hf.2⟩⟩

/-- A horizon move at `now` is one at every later committed time. -/
theorem HorizonMove.later {h h' : Option CommittedLeaseGrantHorizon} {m : Nat}
    (hm : HorizonMove h h' (some now)) (hle : now ≤ m) : HorizonMove h h' (some m) := by
  intro old hold
  obtain ⟨new, hnew, hc | ⟨t, ht, hf⟩⟩ := hm old hold
  · exact ⟨new, hnew, .inl hc⟩
  · cases ht
    exact ⟨new, hnew, .inr ⟨m, rfl, hf.mono hle le_rfl⟩⟩

/-- An accepted horizon for a lease: the clock moves, and the horizon covers the lease. -/
theorem clockMove_coverLease {next : ClusterControlSnapshot}
    {authority : Option LeaseHorizonAuthorityBinding}
    (h : s.establishHeartbeatLeaseHorizon authority nowMs leaseDeadlineMs = .ok next) :
    s.view.ClockMove ((s.view.coverLease authority nowMs leaseDeadlineMs).recordTimestamp
      nowMs) ∧
    ∀ b, authority = some b → ∃ horizon,
      (s.view.coverLease authority nowMs leaseDeadlineMs).leaseGrantHorizon = some horizon ∧
        horizon.authority = b ∧ leaseDeadlineMs ≤ horizon.grantNotAfterMs := by
  have hview := view_establishHeartbeatLeaseHorizon h
  have hsame : next.maxCommittedTimestampMs = s.maxCommittedTimestampMs ∧
      next.clusterEpoch = s.clusterEpoch ∧
      HorizonMove s.leaseGrantHorizon next.leaseGrantHorizon (some nowMs) ∧
      ∀ b, authority = some b → next.leaseGrantHorizonCovers b leaseDeadlineMs := by
    rcases establishHeartbeatLeaseHorizon_cases h with ⟨rfl, hcovers⟩ | ⟨b, horizon, rfl, -, hh,
      rfl, hcovers⟩
    · exact ⟨rfl, rfl, .refl _ _, hcovers⟩
    · exact ⟨rfl, rfl, establish_move hh, fun _ hb => by cases hb; exact hcovers⟩
  obtain ⟨hts, hepoch, hhorizon, hcovers⟩ := hsame
  rw [← hview]
  obtain ⟨m', hm', hle, hmax⟩ := next.view.recordTimestamp_le nowMs
  refine ⟨⟨⟨fun m h => ⟨m', hm', hmax m (hts.trans h)⟩, ?_⟩, hepoch, ?_, ?_⟩, fun b hb => ?_⟩
  · rw [hm']
    exact hhorizon.later hle
  · rw [recordTimestamp_nodes, hview, coverLease_nodes]
  · rw [recordTimestamp_pgs, hview, coverLease_pgs]
  · have hc := hcovers b hb
    simp only [leaseGrantHorizonCovers, Option.any_eq_true,
      Bool.and_eq_true, beq_iff_eq, decide_eq_true_eq] at hc
    exact hc

/-- A command that fences one PG. -/
theorem leaseMove_leavePg (hc : v.ClockMove w) {state : PgState} (hstate : state ≠ .active)
    (actingSet : List NodeId → List NodeId) {deadline : PgView → Option Nat}
    (hd : ∀ pg l d, v.pgs pgId = some pg → v.fencingLease pg = some l → deadline pg = some d →
      l.leaseDeadlineMs ≤ d) :
    LeaseMove c v (w.leavePg pgId state actingSet deadline) := by
  have hfence : ∀ pg, w.fencingLease pg = v.fencingLease pg := by
    intro pg
    simp only [LeaseView.fencingLease, LeaseView.activePrimaryLease, hc.nodes]
  have hepoch : (w.leavePg pgId state actingSet deadline).clusterEpoch = v.clusterEpoch + 1 := by
    rw [← hc.epoch]
    rfl
  refine ⟨⟨hc.timestamp, hc.horizon⟩, hepoch ▸ le_succ _,
    fun n node' e hn he => .inl ⟨node', ?_, he⟩, fun k => ?_⟩
  · rw [← hc.nodes]
    exact hn
  · have hpgs : (w.leavePg pgId state actingSet deadline).pgs k =
        if pgId = k then (v.pgs k).map (w.leftPg state actingSet deadline) else v.pgs k := by
      rw [← hc.pgs]
      rfl
    cases hp : v.pgs k with
    | none => exact .absent hp (by rw [hpgs, hp]; simp)
    | some pg =>
      by_cases hkey : pgId = k
      · subst hkey
        refine .leaves pg (w.leftPg state actingSet deadline pg) hp (by rw [hpgs, hp]; simp)
          hstate (fun l hl => ?_) (hepoch ▸ lt_succ_self _)
        refine ⟨{ l with
          leaseDeadlineMs := (deadline pg).getD l.leaseDeadlineMs
          preferReactivation := false }, ?_, rfl, ?_⟩
        · simp only [leftPg, hfence, hl, map_some]
        · cases hdl : deadline pg with
          | none => exact le_rfl
          | some d => exact hd pg l d hp hl hdl
      · refine .stays pg hp (by rw [hpgs, hp, if_neg hkey]) fun _ n node d hs => ⟨node, ?_, .refl _⟩
        have hn : (w.leavePg pgId state actingSet deadline).nodes = v.nodes := hc.nodes
        rw [hn]
        exact hs.known

/-- Every PG of `w` is as in `v`, or was taken to Peering under the fencing lease of `v`. -/
structure LeaseView.Marked (v w : LeaseView) : Prop where
  pg : ∀ {pgId pg}, v.pgs pgId = some pg →
    w.pgs pgId = some pg ∨ w.pgs pgId = some (pg.leave .peering (v.fencingLease pg))
  none : ∀ {pgId}, v.pgs pgId = none → w.pgs pgId = none

theorem LeaseView.Marked.of_pgs (h : w.pgs = v.pgs) : v.Marked w :=
  ⟨fun hp => .inl (h ▸ hp), fun hp => h ▸ hp⟩

theorem LeaseView.Marked.markPeering (h : v.Marked w)
    (affected : PgId → PgView → Prop) : v.Marked (w.markPeering v affected) := by
  constructor
  · intro pgId pg hp
    simp only [LeaseView.markPeering]
    rcases h.pg hp with hw | hw
    · rw [hw, map_some]
      split
      · refine .inr ?_
        rw [hp]
        rfl
      · exact .inl rfl
    · rw [hw, map_some, if_neg (fun hc => hc.1 rfl)]
      exact .inr rfl
  · intro pgId hp
    simp only [LeaseView.markPeering, h.none hp, map_none]

/-- A PG that is still Active after a mark was not affected by it. -/
theorem LeaseView.active_of_markPeering {affected : PgId → PgView → Prop}
    (h : (w.markPeering v affected).pgs pgId = some pg)
    (hactive : pg.state = .active) : w.pgs pgId = some pg ∧ ¬affected pgId pg := by
  obtain ⟨old, hold, heq⟩ := map_eq_some_iff.mp h
  split at heq
  · subst heq
    cases hactive
  · next hc =>
    subst heq
    exact ⟨hold, fun ha => hc ⟨by rw [hactive]; decide, ha⟩⟩

/-- A command that changes nodes and fences PGs. -/
theorem leaseMove_marked (hepoch : v.clusterEpoch ≤ w.clusterEpoch)
    (htime : v.TimeMove w)
    (hobserved : ∀ n node' e, w.nodes n = some node' → node'.lastObservedEpoch = some e →
      (∃ node, v.nodes n = some node ∧ node.lastObservedEpoch = some e) ∨
        c.IsHeartbeat ∧ e ≤ v.clusterEpoch)
    (hmarked : v.Marked w) (hbump : ∀ {pgId pg}, v.pgs pgId = some pg → w.pgs pgId ≠ some pg →
      v.clusterEpoch < w.clusterEpoch)
    (hkept : ∀ {pgId pg n node d}, v.pgs pgId = some pg → w.pgs pgId = some pg →
      pg.state = .active → v.Serves pg n node d → ∃ node', w.nodes n = some node' ∧
        node.Keeps node') :
    LeaseMove c v w := by
  refine ⟨htime, hepoch, hobserved, fun pgId => ?_⟩
  cases hp : v.pgs pgId with
  | none => exact .absent hp (hmarked.none hp)
  | some pg =>
    by_cases hstay : w.pgs pgId = some pg
    · exact .stays pg hp hstay fun hactive n node d hs => hkept hp hstay hactive hs
    · refine .leaves pg _ hp ((hmarked.pg hp).resolve_left hstay) (by decide : PgState.peering ≠ _)
        (.refl _) (hbump hp hstay)

/-- A change of one node that fences the PGs it acts for. -/
theorem leaseMove_fenceNode {f : NodeView → NodeView}
    (hobs : ∀ node, (f node).lastObservedEpoch = node.lastObservedEpoch) :
    LeaseMove c v
      ((v.modifyNode nodeId f).markPeering v (LeaseView.ActsOn (· = nodeId))).bumpEpoch := by
  have hmarked : v.Marked (v.modifyNode nodeId f) := .of_pgs rfl
  refine leaseMove_marked (le_succ _) (.of_eq rfl rfl) (fun n node' e hn he => ?_)
    ⟨(hmarked.markPeering _).pg, (hmarked.markPeering _).none⟩ (fun _ _ => lt_succ_self _)
    fun {pgId pg n node d} hp hp' hactive hs => ?_
  · change (if nodeId = n then (v.nodes n).map f else v.nodes n) = some node' at hn
    split at hn
    · obtain ⟨node, hnode, rfl⟩ := map_eq_some_iff.mp hn
      exact .inl ⟨node, hnode, hobs node ▸ he⟩
    · exact .inl ⟨node', hn, he⟩
  · have hno := (active_of_markPeering hp' hactive).2
    have hne : nodeId ≠ n := fun heq => hno ⟨n, hs.acts, heq.symm⟩
    refine ⟨node, ?_, .refl _⟩
    change (if nodeId = n then (v.nodes n).map f else v.nodes n) = some node
    rw [if_neg hne]
    exact hs.known

/-- A change of nodes that every Active primary survives, without a fence. -/
theorem leaseMove_keepNodes
    (hpgs : w.pgs = v.pgs) (hepoch : v.clusterEpoch ≤ w.clusterEpoch) (htime : v.TimeMove w)
    (hobserved : ∀ n node' e, w.nodes n = some node' → node'.lastObservedEpoch = some e →
      ∃ node, v.nodes n = some node ∧ node.lastObservedEpoch = some e)
    (hkept : ∀ {n node}, v.nodes n = some node → ∃ node', w.nodes n = some node' ∧
      node.Keeps node') :
    LeaseMove c v w :=
  leaseMove_marked hepoch htime (fun n node' e hn he => .inl (hobserved n node' e hn he))
    (.of_pgs hpgs) (fun hp hne => absurd (hpgs ▸ hp) hne) fun _ _ _ hs => hkept hs.known

/-! ### Node commands -/

theorem leaseMove_setNodeMembership : MovesLeases (.setNodeMembership nodeId membership) := by
  intro s a _ _
  generalize s.view = v
  rw [LeaseView.after]
  split
  · refine leaseMove_fenceNode fun node => ?_
    unfold NodeView.setMembership
    split
    · rfl
    · split <;> rfl
  · next hnone =>
    rw [not_isSome_iff_eq_none] at hnone
    refine leaseMove_keepNodes rfl (le_succ _) (.of_eq rfl rfl)
      (fun n node' e hn he => ?_) fun {n node} hn => ?_
    · change (if nodeId = n then some _ else v.nodes n) = some node' at hn
      split at hn
      · cases hn
        cases he
      · exact ⟨node', hn, he⟩
    · refine ⟨node, ?_, .refl _⟩
      have hne : nodeId ≠ n := by
        rintro rfl
        rw [hnone] at hn
        cases hn
      change (if nodeId = n then some _ else v.nodes n) = some node
      rw [if_neg hne]
      exact hn

theorem leaseMove_markNodeAvailability :
    MovesLeases (.markNodeAvailability nodeId availability) := by
  intro s a _ _
  generalize s.view = v
  rw [LeaseView.after]
  split
  · next hh =>
    subst hh
    refine leaseMove_keepNodes rfl (le_succ _) (.of_eq rfl rfl)
      (fun n node' e hn he => ?_) fun {n node} hn => ?_
    · change (if nodeId = n then (v.nodes n).map _ else v.nodes n) = some node' at hn
      split at hn
      · obtain ⟨node, hnode, rfl⟩ := map_eq_some_iff.mp hn
        exact ⟨node, hnode, he⟩
      · exact ⟨node', hn, he⟩
    · change ∃ node', (if nodeId = n then (v.nodes n).map _ else v.nodes n) = some node' ∧ _
      split
      · rw [hn]
        exact ⟨_, rfl, rfl, rfl, fun _ => rfl, fun _ => rfl, fun d h => ⟨d, h, le_rfl⟩⟩
      · exact ⟨node, hn, .refl _⟩
  · exact leaseMove_fenceNode fun _ => rfl

/-! ### Heartbeats -/

/-- The fences of a heartbeat change PGs and the epoch only. -/
theorem fenceAfterHeartbeat_frame (v previous : LeaseView)
    (pending : PgId → Prop) (fenceNode epochChanged : Prop) :
    let w := v.fenceAfterHeartbeat previous nodeId pending fenceNode epochChanged
    w.nodes = v.nodes ∧ w.maxCommittedTimestampMs = v.maxCommittedTimestampMs ∧
      w.leaseGrantHorizon = v.leaseGrantHorizon ∧
      (w.clusterEpoch = v.clusterEpoch + 1 ∧ epochChanged ∨
        w.clusterEpoch = v.clusterEpoch ∧ ¬epochChanged) := by
  unfold LeaseView.fenceAfterHeartbeat
  split
  · next hchanged => split <;> exact ⟨rfl, rfl, rfl, .inl ⟨rfl, hchanged⟩⟩
  · next hchanged => exact ⟨rfl, rfl, rfl, .inr ⟨rfl, hchanged⟩⟩

theorem fenceAfterHeartbeat_marked (h : v.Marked w)
    (pending : PgId → Prop) (fenceNode epochChanged : Prop) :
    v.Marked (w.fenceAfterHeartbeat v nodeId pending fenceNode epochChanged) := by
  have hm := h.markPeering fun pgId _ => pending pgId
  have hm' := hm.markPeering (LeaseView.ActsOn (· = nodeId))
  unfold LeaseView.fenceAfterHeartbeat
  split
  · split
    · exact ⟨hm'.pg, hm'.none⟩
    · exact ⟨hm.pg, hm.none⟩
  · exact hm

/-- A heartbeat of a known node.  The node goes on as the same serving process unless it is
fenced. -/
theorem leaseMove_fenceAfterHeartbeat (hc : c.IsHeartbeat) (hclock : v.ClockMove w)
    (hn : v.nodes nodeId = some node) {g : NodeView → NodeView}
    (hobs : ∀ e, (g node).lastObservedEpoch = some e →
      node.lastObservedEpoch = some e ∨ e ≤ v.clusterEpoch)
    {pending : PgId → Prop} {fenceNode epochChanged : Prop}
    (hkeep : ¬fenceNode → node.Keeps (g node)) (hfence : fenceNode → epochChanged)
    (hpending : ∀ {pgId pg}, v.pgs pgId = some pg → pg.state ≠ .peering → pending pgId →
      epochChanged) :
    LeaseMove c v ((w.modifyNode nodeId g).fenceAfterHeartbeat v nodeId pending fenceNode
      epochChanged) := by
  obtain ⟨hfnodes, hfts, hfhorizon, hepoch⟩ := fenceAfterHeartbeat_frame (w.modifyNode nodeId g) v
    pending fenceNode epochChanged
  change _ = w.clusterEpoch + 1 ∧ _ ∨ _ = w.clusterEpoch ∧ _ at hepoch
  rw [hclock.epoch] at hepoch
  have hnodes : ∀ k, ((w.modifyNode nodeId g).fenceAfterHeartbeat v nodeId pending fenceNode
      epochChanged).nodes k = if nodeId = k then (v.nodes k).map g else v.nodes k := by
    intro k
    rw [hfnodes, ← hclock.nodes]
    rfl
  have hmodified : v.Marked (w.modifyNode nodeId g) := .of_pgs hclock.pgs
  refine leaseMove_marked ?_ ⟨hfts ▸ hclock.timestamp, hfts ▸ hfhorizon ▸ hclock.horizon⟩
    (fun k node' e hn' he => ?_)
    (fenceAfterHeartbeat_marked hmodified ..)
    (fun {pgId pg} hp hne => ?_) fun {pgId pg k serving d} hp hp' hactive hs => ?_
  · rcases hepoch with ⟨h, -⟩ | ⟨h, -⟩ <;> rw [h]
    exact le_succ _
  · rw [hnodes] at hn'
    split at hn'
    · next hkey =>
      subst hkey
      rw [hn] at hn'
      cases hn'
      rcases hobs e he with h | h
      · exact .inl ⟨node, hn, h⟩
      · exact .inr ⟨hc, h⟩
    · exact .inl ⟨node', hn', he⟩
  · rcases hepoch with ⟨h, -⟩ | ⟨-, hno⟩
    · rw [h]
      exact lt_succ_self _
    · exfalso
      apply hne
      have hpw : (w.modifyNode nodeId g).pgs pgId = some pg := by
        rw [← hp]
        exact congrFun hclock.pgs pgId
      unfold LeaseView.fenceAfterHeartbeat
      rw [if_neg hno]
      simp only [LeaseView.markPeering, hpw, map_some]
      rw [if_neg fun hc => hno (hpending hp hc.1 hc.2)]
  · rw [hnodes]
    by_cases hkey : nodeId = k
    · subst hkey
      cases hn.symm.trans hs.known
      rw [if_pos rfl, hn]
      refine ⟨g node, rfl, hkeep fun hf => ?_⟩
      have hresult := hp'
      unfold LeaseView.fenceAfterHeartbeat at hresult
      rw [if_pos (hfence hf), if_pos hf] at hresult
      exact (active_of_markPeering hresult hactive).2 ⟨nodeId, hs.acts, rfl⟩
    · rw [if_neg hkey]
      exact ⟨serving, hs.known, .refl _⟩

theorem keeps_renewLease (hlease : ∀ d, node.leaseDeadlineMs = some d → d ≤ leaseDeadlineMs)
    (hsame : ¬node.processChanges heartbeat) :
    node.Keeps (node.renewLease heartbeat leaseDeadlineMs) := by
  simp only [NodeView.processChanges, Bool.or_eq_true, decide_eq_true_eq, bne_iff_ne, ne_eq,
    not_or, not_lt, not_not] at hsame
  exact ⟨max_eq_left hsame.1, hsame.2.symm, id, id, fun d hd => ⟨leaseDeadlineMs, rfl, hlease d hd⟩⟩

theorem observed_renewLease (leaseDeadlineMs : Nat)
    {epoch : ClusterEpoch} (h : heartbeat.observedEpoch ≤ epoch) (e : ClusterEpoch)
    (he : (node.renewLease heartbeat leaseDeadlineMs).lastObservedEpoch = some e) :
    node.lastObservedEpoch = some e ∨ e ≤ epoch := by
  cases hp : node.lastObservedEpoch with
  | none =>
    simp only [NodeView.renewLease, hp, some.injEq] at he
    exact .inr (he ▸ h)
  | some previous =>
    simp only [NodeView.renewLease, hp, some.injEq] at he
    rcases le_total previous heartbeat.observedEpoch with hle | hle
    · rw [max_eq_right hle] at he
      exact .inr (he ▸ h)
    · rw [max_eq_left hle] at he
      exact .inl (he ▸ rfl)

theorem leaseMove_recordNodeHeartbeat : MovesLeases
    (.recordNodeHeartbeat heartbeat heartbeatAtMs leaseDeadlineMs horizonAuthority) := by
  intro s a h _
  obtain ⟨record, next, hr, hlease, hepoch, hcover⟩ := recordNodeHeartbeat_eq_ok h
  have hclock := (clockMove_coverLease hcover).1
  have hn := view_node hr
  rw [LeaseView.after, LeaseView.heartbeat, hn]
  dsimp only
  split
  · exact leaseMove_fenceAfterHeartbeat (by trivial) hclock hn
      (observed_renewLease leaseDeadlineMs hepoch) (keeps_renewLease hlease) Or.inl
      fun {pgId pg} hp hs hpend => Or.inr ⟨pgId, pg, hp, hs, hpend⟩
  · refine leaseMove_fenceAfterHeartbeat ?_ hclock hn ?_ (fun hno => ?_) Or.inl ?_
    · trivial
    · exact observed_renewLease leaseDeadlineMs hepoch
    · have hkeeps := keeps_renewLease hlease fun hp => hno (.inl hp)
      exact ⟨hkeeps.nodeIncarnation, hkeeps.endpoint, hkeeps.administrativelyAvailable,
        fun _ => rfl, hkeeps.lease⟩
    · exact fun {pgId pg} _ _ hpend => .inr ⟨pgId, hpend⟩

/-! ### Expiry and promotion -/

/-- An expiry: a node either keeps its record or is expired, and an expired node that could serve
fences its PGs. -/
theorem leaseMove_finishExpiry
    (hpgs : w.pgs = v.pgs) (hepoch : w.clusterEpoch = v.clusterEpoch) (htime : v.TimeMove w)
    {serving : NodeId → Prop} (hnodes : ∀ n node', w.nodes n = some node' →
      ∃ node, v.nodes n = some node ∧ node'.lastObservedEpoch = node.lastObservedEpoch)
    (hserving : ∀ n node, v.nodes n = some node → node.administrativelyAvailable → ¬serving n →
      w.nodes n = some node) :
    LeaseMove c v (w.finishExpiry v serving) := by
  have hobserved : ∀ n node' e, w.nodes n = some node' → node'.lastObservedEpoch = some e →
      ∃ node, v.nodes n = some node ∧ node.lastObservedEpoch = some e := by
    intro n node' e hn he
    obtain ⟨node, hnode, heq⟩ := hnodes n node' hn
    exact ⟨node, hnode, heq ▸ he⟩
  have hmarked : v.Marked w := .of_pgs hpgs
  unfold LeaseView.finishExpiry
  split
  · have hm := hmarked.markPeering (LeaseView.ActsOn serving)
    have hlt : v.clusterEpoch < w.clusterEpoch + 1 := by rw [hepoch]; exact lt_succ_self _
    refine leaseMove_marked hlt.le ⟨htime.timestamp, htime.horizon⟩
      (fun n node' e hn he => .inl (hobserved n node' e hn he)) ⟨hm.pg, hm.none⟩ (fun _ _ => hlt)
      fun {pgId pg n node d} _ hp' hactive hs => ?_
    have hno := (active_of_markPeering hp' hactive).2
    exact ⟨node, hserving n node hs.known hs.administrativelyAvailable fun hsv =>
      hno ⟨n, hs.acts, hsv⟩, .refl _⟩
  · next hnone =>
    refine leaseMove_marked hepoch.ge htime
      (fun n node' e hn he => .inl (hobserved n node' e hn he)) hmarked
      (fun hp hne => absurd (hpgs ▸ hp) hne) fun {_ _ n node _} _ _ _ hs => ?_
    exact ⟨node, hserving n node hs.known hs.administrativelyAvailable fun hsv =>
      hnone ⟨n, hsv⟩, .refl _⟩

theorem leaseMove_expireHeartbeatLeases : MovesLeases (.expireHeartbeatLeases expireAtMs) := by
  intro s a _ _
  have hclock := s.view.clockMove_recordTimestamp expireAtMs
  refine leaseMove_finishExpiry ?_ ?_ ?_ (fun n node' hn => ?_)
    fun n node hn hadmin hno => ?_
  · rfl
  · rfl
  · exact ⟨hclock.timestamp, hclock.horizon⟩
  · obtain ⟨node, hnode, rfl⟩ := map_eq_some_iff.mp hn
    exact ⟨node, hnode, by split <;> rfl⟩
  · simp only [hn, map_some]
    rw [if_neg fun hexpired => hno ⟨node, hn, hexpired, hadmin⟩]

/-- Changing listed nodes one after another: a node that is not listed keeps its record. -/
theorem foldl_modifyNode_nodes {α : Type} (entries : List α) (key : α → NodeId)
    (f : α → NodeView → NodeView) (v : LeaseView) (n : NodeId) :
    (entries.foldl (fun next entry => next.modifyNode (key entry) (f entry)) v).nodes n =
      (v.nodes n).map fun node => (entries.filter (key · = n)).foldl (fun node entry =>
        f entry node) node := by
  induction entries generalizing v with
  | nil => simp
  | cons entry rest ih =>
    rw [foldl_cons, ih]
    by_cases hkey : key entry = n
    · simp [LeaseView.modifyNode, hkey, Option.map_map, Function.comp_def]
    · simp [LeaseView.modifyNode, hkey]

/-- What a loop over one of the two maps leaves alone: the other map, `field`, and the rest. -/
theorem foldl_frame {α β : Type} (field : LeaseView → β) (f : LeaseView → α → LeaseView)
    (entries : List α) (v : LeaseView)
    (hf : ∀ v entry, field (f v entry) = field v ∧ (f v entry).clusterEpoch = v.clusterEpoch ∧
      (f v entry).maxCommittedTimestampMs = v.maxCommittedTimestampMs ∧
      (f v entry).leaseGrantHorizon = v.leaseGrantHorizon) :
    let w := entries.foldl f v
    field w = field v ∧ w.clusterEpoch = v.clusterEpoch ∧
      w.maxCommittedTimestampMs = v.maxCommittedTimestampMs ∧
      w.leaseGrantHorizon = v.leaseGrantHorizon :=
  ⟨foldl_same field entries v fun v entry => (hf v entry).1,
    foldl_same _ entries v fun v entry => (hf v entry).2.1,
    foldl_same _ entries v fun v entry => (hf v entry).2.2.1,
    foldl_same _ entries v fun v entry => (hf v entry).2.2.2⟩

theorem leaseMove_expireNodeHeartbeatLeases {expired : List ExpiredNodeHeartbeatLease} :
    MovesLeases (.expireNodeHeartbeatLeases authority expireAtMs expired) := by
  intro s a h _
  simp only [applyArm, applyExpireNodeHeartbeatLeases, bind_eq_ok, failIf_eq_ok, okOr_eq_ok,
    exists_const] at h
  obtain ⟨-, -, -, covered, hcover, -⟩ := h
  have hclock := (clockMove_coverLease hcover).1
  rw [LeaseView.after]
  generalize (s.view.coverLease (some authority) expireAtMs expireAtMs).recordTimestamp
    expireAtMs = w at hclock
  obtain ⟨hpgs, hepoch, hts, hhorizon⟩ := foldl_frame LeaseView.pgs (fun next lease =>
    next.modifyNode lease.nodeId NodeView.expireLease) expired w fun _ _ => ⟨rfl, rfl, rfl, rfl⟩
  have hnodes := foldl_modifyNode_nodes expired (·.nodeId) (fun _ => NodeView.expireLease) w
  refine leaseMove_finishExpiry (hpgs.trans hclock.pgs) (hepoch.trans hclock.epoch)
    ⟨hts ▸ hclock.timestamp, hts ▸ hhorizon ▸ hclock.horizon⟩ (fun n node' hn => ?_)
    fun n node hn hadmin hno => ?_
  · rw [hnodes, hclock.nodes] at hn
    obtain ⟨node, hnode, rfl⟩ := map_eq_some_iff.mp hn
    refine ⟨node, hnode, ?_⟩
    exact foldlRecOn (motive := fun other : NodeView =>
      other.lastObservedEpoch = node.lastObservedEpoch) _ _ rfl fun _ h _ _ => h
  · rw [hnodes, hclock.nodes, hn, filter_eq_nil_iff.mpr]
    · rfl
    · intro lease hl heq
      exact hno ⟨⟨lease, hl, of_decide_eq_true heq⟩, node, hn, hadmin⟩

theorem leaseMove_promoteNodeHeartbeatLeases {promoted : List PromotedNodeHeartbeatLease} :
    MovesLeases (.promoteNodeHeartbeatLeases authority promoted) := by
  intro s a h _
  simp only [applyArm, applyPromoteNodeHeartbeatLeases, bind_eq_ok, failIf_eq_ok, okOr_eq_ok,
    pure_eq_ok, exists_const] at h
  obtain ⟨-, horizon, -, -, _, hchecks, -⟩ := h
  rw [LeaseView.after]
  obtain ⟨hpgs, hepoch, hts, hhorizon⟩ := foldl_frame LeaseView.pgs (fun next lease =>
    next.modifyNode lease.nodeId (NodeView.setLease lease.leaseDeadlineMs)) promoted s.view
    fun _ _ => ⟨rfl, rfl, rfl, rfl⟩
  have hnodes := foldl_modifyNode_nodes promoted (·.nodeId)
    (fun lease => NodeView.setLease lease.leaseDeadlineMs) s.view
  refine leaseMove_keepNodes hpgs hepoch.ge (.of_eq hts hhorizon)
    (fun n node' e hn he => ?_) fun {n node} hn => ?_
  · rw [hnodes] at hn
    obtain ⟨node, hnode, rfl⟩ := map_eq_some_iff.mp hn
    refine ⟨node, hnode, ?_⟩
    rw [← he]
    exact foldlRecOn (motive := fun other : NodeView =>
      node.lastObservedEpoch = other.lastObservedEpoch) _ _ rfl fun _ h _ _ => h
  · rw [hnodes, hn]
    refine ⟨_, rfl, foldlRecOn (motive := node.Keeps) _ _ (.refl node)
      fun other hother lease hl => ?_⟩
    obtain ⟨hmem, hkey⟩ := mem_filter.mp hl
    have hcheck := forOrdered_mem hchecks lease hmem
    simp only [validatePromotedLease, bind_eq_ok, failIf_eq_ok, okOr_eq_ok, exists_const] at hcheck
    obtain ⟨-, record, hr, -, -, -, current, hcurrent, hle⟩ := hcheck
    have hrecord : node = record.view := by
      rw [view_nodes, ← of_decide_eq_true hkey, hr] at hn
      exact (some.inj hn).symm
    refine ⟨hother.nodeIncarnation, hother.endpoint, hother.administrativelyAvailable,
      hother.healthy, fun d hd => ⟨lease.leaseDeadlineMs, rfl, ?_⟩⟩
    rw [hrecord, view_leaseDeadlineMs, hcurrent] at hd
    cases hd
    exact not_lt.mp hle

/-! ### Completions -/

/-- What a completion has checked: the primary acts for the PG and serves the current epoch, and
it is the process of the recorded lease or that lease is fenced. -/
structure LeaseView.Completable (v : LeaseView) (atMs : Nat) (pg : PgView) (n : NodeId)
    (node : NodeView) (deadline : Nat) : Prop where
  acts : n ∈ pg.actingSet
  known : v.nodes n = some node
  administrativelyAvailable : node.administrativelyAvailable
  healthy : node.observedAvailability = .healthy
  observed : node.lastObservedEpoch = some v.clusterEpoch
  lease : node.leaseDeadlineMs = some deadline
  respects : pg.state ≠ .active → ∀ previous, pg.previousPrimaryLease = some previous →
    previous.process = ⟨n, node.nodeIncarnation, node.endpoint⟩ ∨
      Fenced atMs previous.leaseDeadlineMs

theorem completable_of_validate {expected : Option ExpectedPgPeeringCompletion}
    {validated : ValidatedPgPeeringCompletion}
    (h : validatePgPeeringCompletion s pgId primary nodeIncarnation atMs expected =
      .ok validated) :
    ∃ pg node deadline, s.view.pgs pgId = some pg ∧
      s.view.Completable atMs pg primary node deadline := by
  obtain ⟨record, hr, hacts, hauth, hcases⟩ := validatePgPeeringCompletion_eq_ok h
  simp only [authorizeNodeServiceForSnapshot, bind_eq_ok, failIf_eq_ok, okOr_eq_ok, exists_const,
    not_not] at hauth
  obtain ⟨node, hn, -, hinc, -, deadline, hd, -, hserve⟩ := hauth
  simp only [canServePrimary, Bool.and_eq_true, beq_iff_eq] at hserve
  obtain ⟨⟨⟨⟨-, hadmin⟩, hhealthy⟩, hobserved⟩, -⟩ := hserve
  refine ⟨record.view, node.view, deadline, view_pg hr, hacts,
    view_node hn, hadmin, hhealthy, hobserved, hd, fun hne previous hp => ?_⟩
  rcases hcases with ⟨hactive, -⟩ | ⟨proof, -, hcompletes⟩
  · exact absurd hactive hne
  · have hlease := hcompletes.lease
    simp only [validatePreviousPrimaryLease, onSome_eq_ok, bind_eq_ok, okOr_eq_ok,
      failIf_eq_ok] at hlease
    obtain ⟨other, hother, hblocks⟩ := hlease previous hp
    cases hn.symm.trans hother
    simp only [PreviousPrimaryLease.blocksActivation, PreviousPrimaryLease.matchesProcess,
      Bool.and_eq_true, Bool.not_eq_true', not_and_or, Bool.not_eq_false, beq_iff_eq] at hblocks
    rcases hblocks with ⟨⟨hid, hpinc⟩, hend⟩ | hf
    · refine .inl ?_
      rw [PreviousPrimaryLease.process, hid, hpinc, hend, hinc]
      rfl
    · exact .inr hf

theorem foldl_activate_pgs (completions : List (PgId × NodeId)) (hp : v.pgs pgId = some pg) :
    let w := completions.foldl (fun next completion =>
      next.modifyPg completion.1 (PgView.activate completion.2)) v
    w.pgs pgId = some pg ∨
      pg.state ≠ .active ∧ ∃ n, (pgId, n) ∈ completions ∧ w.pgs pgId = some (pg.activate n) := by
  induction completions generalizing v pg with
  | nil => exact .inl hp
  | cons completion rest ih =>
    by_cases hkey : completion.1 = pgId
    · have hfirst : (v.modifyPg completion.1 (PgView.activate completion.2)).pgs pgId =
          some (pg.activate completion.2) := by
        simp [LeaseView.modifyPg, hkey, hp]
      by_cases hactive : pg.state = .active
      · rw [PgView.activate, if_pos hactive] at hfirst
        exact .inl ((ih hfirst).resolve_right fun h => h.1 hactive)
      · have hnow : (pg.activate completion.2).state = .active := by
          rw [PgView.activate, if_neg hactive]
        exact .inr ⟨hactive, completion.2, by simp [← hkey],
          (ih hfirst).resolve_right fun h => h.1 hnow⟩
    · have hsame : (v.modifyPg completion.1 (PgView.activate completion.2)).pgs pgId = some pg := by
        simp [LeaseView.modifyPg, hkey, hp]
      rcases ih hsame with h | ⟨hne, n, hm, h⟩
      · exact .inl h
      · exact .inr ⟨hne, n, mem_cons_of_mem _ hm, h⟩

theorem leaseMove_complete
    {completions : List (PgId × NodeId)} (hc : c.completions = some (atMs, completions))
    (hts : ∀ m, v.maxCommittedTimestampMs = some m → m ≤ atMs)
    (hcompletable : ∀ completion ∈ completions, ∃ pg node deadline,
      v.pgs completion.1 = some pg ∧ v.Completable atMs pg completion.2 node deadline) :
    LeaseMove c v (v.complete atMs completions) := by
  obtain ⟨hnodes, hepoch, htime, hhorizon⟩ := foldl_frame LeaseView.nodes (fun next completion =>
    next.modifyPg completion.1 (PgView.activate completion.2)) completions (v.recordTimestamp atMs)
    fun _ _ => ⟨rfl, rfl, rfl, rfl⟩
  have hnone := fun pgId => foldl_same (fun w : LeaseView => (w.pgs pgId).isNone)
    (f := fun next completion => next.modifyPg completion.1 (PgView.activate completion.2))
    completions (v.recordTimestamp atMs) fun w completion => by
      simp only [LeaseView.modifyPg]
      split <;> simp
  have hpgs := fun {pgId pg} (hp : v.pgs pgId = some pg) =>
    foldl_activate_pgs completions (v := v.recordTimestamp atMs) hp
  have htime' : (v.recordTimestamp atMs).maxCommittedTimestampMs = some atMs := by
    unfold LeaseView.recordTimestamp
    cases hm : v.maxCommittedTimestampMs with
    | none => rfl
    | some m => simp [max_eq_right (hts m hm)]
  rw [htime'] at htime
  -- the result of the loop, with the epoch still to be advanced
  generalize hw : completions.foldl (fun next completion =>
    next.modifyPg completion.1 (PgView.activate completion.2)) (v.recordTimestamp atMs) = w
    at hnodes hepoch htime hhorizon hnone hpgs
  have hbase (epoch : ClusterEpoch) (hle : v.clusterEpoch ≤ epoch) :
      LeaseMove c v { w with clusterEpoch := epoch } := by
    refine ⟨⟨fun m hm => ⟨atMs, htime, hts m hm⟩, hhorizon ▸ .refl _ _⟩, hle,
      fun n node' e hn he => .inl ⟨node', ?_, he⟩, fun pgId => ?_⟩
    · rw [← show w.nodes = v.nodes from hnodes]
      exact hn
    · cases hp : v.pgs pgId with
      | none =>
        have hsame : (w.pgs pgId).isNone = (v.pgs pgId).isNone := hnone pgId
        rw [hp] at hsame
        exact .absent hp (isNone_iff_eq_none.mp hsame)
      | some pg =>
        rcases hpgs hp with hsame | ⟨hne, n, hm, hact⟩
        · refine .stays pg hp hsame fun _ k node d hs => ⟨node, ?_, .refl _⟩
          rw [hnodes]
          exact hs.known
        · obtain ⟨other, node, deadline, hother, hcomp⟩ := hcompletable (pgId, n) hm
          cases hp.symm.trans hother
          rw [PgView.activate, if_neg hne] at hact
          exact .activates pg { pg with
            state := .active, activePrimary := some n, previousPrimaryLease := none } n node
            deadline atMs completions hp hact hne rfl rfl ⟨rfl, hcomp.acts,
              by rw [hnodes]; exact hcomp.known, hcomp.administrativelyAvailable, hcomp.healthy,
              hcomp.lease⟩ hcomp.known hcomp.observed hc hm htime (hcomp.respects hne)
  have hle : v.clusterEpoch ≤ w.clusterEpoch := hepoch.ge
  unfold complete
  simp only [hw]
  split
  · exact hbase _ (hle.trans (le_succ _))
  · exact hbase _ hle

/-! ### Bootstrap -/

/-- An entry of a map that a loop fills is an old one or one that the loop has set. -/
theorem foldl_set {α β κ : Type} [DecidableEq κ] {g : LeaseView → κ → Option β}
    {f : LeaseView → α → LeaseView} {key : α → κ} {new : α → β} {entries : List α} {k : κ} {b : β}
    (hf : ∀ v entry, g (f v entry) k = if key entry = k then some (new entry) else g v k)
    (h : g (entries.foldl f v) k = some b) : g v k = some b ∨ ∃ entry, new entry = b := by
  induction entries generalizing v with
  | nil => exact .inl h
  | cons first rest ih =>
    rcases ih h with hb | hb
    · rw [hf] at hb
      split at hb
      · exact .inr ⟨first, some.inj hb⟩
      · exact .inl hb
    · exact .inr hb

theorem leaseMove_bootstrap {topology : Option InitialClusterTopologyCertificate}
    (h : applyBootstrapInitialClusterMap s nodes pgs topology = .ok a) :
    LeaseMove c s.view (s.view.bootstrap nodes pgs) := by
  have hempty : ∀ pgId, s.view.pgs pgId = none := by
    simp only [applyBootstrapInitialClusterMap, bind_eq_ok, failIf_eq_ok, exists_const, not_or,
      not_not] at h
    intro pgId
    rw [view_pgs, Std.ExtTreeMap.isEmpty_iff.mp h.1.2, Std.ExtTreeMap.getElem?_empty]
    rfl
  obtain ⟨hpgs, hepoch, hts, hhorizon⟩ := foldl_frame LeaseView.pgs (fun next node =>
    next.setNode node.1 { new node.1 .active with endpoint := node.2 }.view)
    nodes s.view fun _ _ => ⟨rfl, rfl, rfl, rfl⟩
  obtain ⟨hnodes', hepoch', hts', hhorizon'⟩ := foldl_frame LeaseView.nodes (fun next pg =>
    next.setPg pg.1 (new pg.1 pg.2).view) pgs (nodes.foldl _ s.view)
    fun _ _ => ⟨rfl, rfl, rfl, rfl⟩
  refine ⟨.of_eq (hts'.trans hts) (hhorizon'.trans hhorizon), ?_, fun n node' e hn he => ?_,
    fun pgId => ?_⟩
  · exact (hepoch'.trans hepoch).ge.trans (le_succ _)
  · have hn' : _ = some node' := hn
    simp only [bootstrap, LeaseView.bumpEpoch] at hn'
    rw [hnodes'] at hn'
    rcases foldl_set (g := LeaseView.nodes) (fun _ _ => rfl) hn' with hold | ⟨first, rfl⟩
    · exact .inl ⟨node', hold, he⟩
    · cases he
  · cases hp : (s.view.bootstrap nodes pgs).pgs pgId with
    | none => exact .absent (hempty pgId) hp
    | some pg =>
      refine .created pg (hempty pgId) hp ?_
      have hp' : _ = some pg := hp
      rcases foldl_set (g := LeaseView.pgs) (fun _ _ => rfl) hp' with hold | ⟨first, rfl⟩
      · rw [hpgs, hempty pgId] at hold
        cases hold
      · exact PgState.noConfusion

/-! ### Every command -/

theorem LeaseMove.refl (c : ControlPlaneCommand) (v : LeaseView) : LeaseMove c v v :=
  leaseMove_keepNodes rfl le_rfl (.of_eq rfl rfl)
    (fun _ node' _ hn he => ⟨node', hn, he⟩) fun {_ node} hn => ⟨node, hn, .refl _⟩

theorem leaseMove_clock (h : v.ClockMove w) : LeaseMove c v w := by
  refine leaseMove_keepNodes h.pgs h.epoch.ge h.toTimeMove
    (fun n node' e hn he => ⟨node', ?_, he⟩) fun {n node} hn => ⟨node, ?_, .refl _⟩
  · rw [← h.nodes]
    exact hn
  · rw [h.nodes]
    exact hn

theorem leaseMove_establishLeaseGrantHorizon :
    MovesLeases (.establishLeaseGrantHorizon authority nowMs durationMs) := by
  intro s a h _
  simp only [applyArm, applyEstablishLeaseGrantHorizon, bind_eq_ok, failIf_eq_ok, pure_eq_ok,
    exists_const, mapError_eq_ok] at h
  obtain ⟨-, -, -, horizon, hh, -⟩ := h
  obtain ⟨m', hm', hle, hmax⟩ := (s.view.establish authority nowMs durationMs).recordTimestamp_le
    nowMs
  refine leaseMove_clock ⟨⟨fun m hm => ⟨m', hm', hmax m hm⟩, ?_⟩, rfl, rfl, rfl⟩
  have hhorizon : (s.view.after (.establishLeaseGrantHorizon authority nowMs
      durationMs)).leaseGrantHorizon = some horizon :=
    (congrArg LeaseView.leaseGrantHorizon (view_establish hh)).symm
  have htime : (s.view.after (.establishLeaseGrantHorizon authority nowMs
      durationMs)).maxCommittedTimestampMs = some m' := hm'
  rw [hhorizon, htime]
  exact (establish_move hh).later hle

theorem leaseMove_fencePgForMetadataTransfer {committed : Option Nat}
    {transition : Option UnavailablePgTransitionMutationBinding} :
    MovesLeases (.fencePgForMetadataTransfer pgId committed horizonAuthority transition) := by
  intro s a h _
  simp only [applyArm, applyFencePgForMetadataTransfer, bind_eq_ok, okOr_eq_ok] at h
  obtain ⟨-, -, record, hr, observed, hobserved, source, hsource, -⟩ := h
  refine leaseMove_leavePg (.refl _) (by decide) id fun pg l d hp hl hd => ?_
  cases (view_pg hr).symm.trans hp
  split at hd
  · next hactive =>
    -- the recorded deadline is the committed one, which is not before the observed lease
    obtain ⟨lease, hlease, rfl⟩ := observedSourceLeaseDeadline_active hactive hobserved
    rw [LeaseView.fencingLease, ← view_activePrimaryLease, hlease] at hl
    cases hl
    rcases committedSourceLeaseDeadline_eq_ok hsource with ⟨rfl, -⟩ | ⟨c, d', rfl, hd', hle, -⟩
    · cases hd
    · cases hd
      cases hd'
      exact hle
  · cases hd

theorem leaseMove_setPgActingSet : MovesLeases (.setPgActingSet pgId actingSet) := by
  intro s a _ _
  generalize s.view = v
  rw [LeaseView.after]
  split
  · exact leaseMove_leavePg (.refl _) (by decide) _ fun _ _ _ _ _ hd => by cases hd
  · next hnone =>
    rw [not_isSome_iff_eq_none] at hnone
    refine ⟨.of_eq rfl rfl, le_succ _, fun n node' e hn he => .inl ⟨node', hn, he⟩, fun k => ?_⟩
    have hpgs : ((v.setPg pgId (new pgId actingSet).view).bumpEpoch).pgs k =
      if pgId = k then some (new pgId actingSet).view else v.pgs k := rfl
    by_cases hkey : pgId = k
    · subst hkey
      exact .created _ hnone (by rw [hpgs, if_pos rfl]) (by decide : PgState.peering ≠ .active)
    · rw [if_neg hkey] at hpgs
      cases hp : v.pgs k with
      | none => exact .absent hp (hpgs.trans hp)
      | some pg => exact .stays pg hp (hpgs.trans hp) fun _ n node d hs => ⟨node, hs.known, .refl _⟩

theorem validateServingTimestamp_eq_ok {t : Nat} (h : s.validateServingTimestamp t = .ok ()) :
    ∀ m, s.view.maxCommittedTimestampMs = some m → m ≤ t := by
  simp only [validateServingTimestamp, onSome_eq_ok, failIf_eq_ok,
    not_lt] at h
  exact h

theorem leaseMove_completePgPeering :
    MovesLeases (.completePgPeering pgId primary nodeIncarnation atMs) := by
  intro s a h _
  simp only [applyArm, applyCompletePgPeering, bind_eq_ok] at h
  obtain ⟨-, -, _, hts, validated, hv, -⟩ := h
  refine leaseMove_complete rfl (validateServingTimestamp_eq_ok hts) fun completion hm => ?_
  cases mem_singleton.mp hm
  exact completable_of_validate hv

theorem leaseMove_completeReadyPgPeerings {ready : List ReadyPgPeeringCompletion} :
    MovesLeases (.completeReadyPgPeerings atMs ready) := by
  intro s a h _
  simp only [applyArm, applyCompleteReadyPgPeerings, bind_eq_ok] at h
  obtain ⟨_, hts, h⟩ := h
  refine leaseMove_complete rfl (validateServingTimestamp_eq_ok hts) fun completion hm => ?_
  obtain ⟨entry, he, rfl⟩ := mem_map.mp hm
  rw [if_neg (ne_nil_of_mem he)] at h
  simp only [bind_eq_ok] at h
  obtain ⟨-, -, _, hready, -⟩ := h
  have hentry := forM_eq_ok.mp hready entry he
  simp only [validateReadyCompletion, bind_eq_ok] at hentry
  obtain ⟨-, -, validated, hv, -⟩ := hentry
  exact completable_of_validate hv

theorem leaseMove_completeUnavailablePgPlacementTransition {body : CompleteUnavailableTransition} :
    MovesLeases (.completeUnavailablePgPlacementTransition body) := by
  intro s a h hchanged
  simp only [applyArm, applyCompleteUnavailablePgPlacementTransition, bind_eq_ok] at h
  obtain ⟨_, hts, h⟩ := h
  refine leaseMove_complete rfl (validateServingTimestamp_eq_ok hts) fun completion hm => ?_
  cases mem_singleton.mp hm
  split at h
  · simp only [bind_eq_ok, failIf_eq_ok, pure_eq_ok, exists_const] at h
    obtain ⟨-, rfl⟩ := h
    cases hchanged
  · simp only [bind_eq_ok, failIf_eq_ok, pure_eq_ok, exists_const] at h
    obtain ⟨-, -, -, validated, hv, -⟩ := h
    have hc := completable_of_validate hv
    exact hc

/-- **Every accepted command is a lease move.** -/
theorem leaseMove_apply (hk : s.view.Keyed) (h : applyControlPlaneCommand s c = .ok a) :
    LeaseMove c s.view a.snapshot.view := by
  rw [view_apply hk h]
  split
  · next hchanged =>
    have harm := (applyControlPlaneCommand_eq_ok h).1
    cases c with
    | bootstrapInitialClusterMap => exact leaseMove_bootstrap harm
    | bootstrapCertifiedInitialClusterMap => exact leaseMove_bootstrap harm
    | setNodeMembership => exact leaseMove_setNodeMembership harm hchanged
    | markNodeAvailability => exact leaseMove_markNodeAvailability harm hchanged
    | recordNodeHeartbeat => exact leaseMove_recordNodeHeartbeat harm hchanged
    | expireHeartbeatLeases => exact leaseMove_expireHeartbeatLeases harm hchanged
    | expireNodeHeartbeatLeases => exact leaseMove_expireNodeHeartbeatLeases harm hchanged
    | promoteNodeHeartbeatLeases => exact leaseMove_promoteNodeHeartbeatLeases harm hchanged
    | beginUnavailablePgPlacementTransition body =>
      exact leaseMove_leavePg (s.view.clockMove_recordTimestamp body.beginAtMs) (by decide) _
        fun _ _ _ _ _ hd => nomatch hd
    | completeUnavailablePgPlacementTransition =>
      exact leaseMove_completeUnavailablePgPlacementTransition harm hchanged
    | establishLeaseGrantHorizon => exact leaseMove_establishLeaseGrantHorizon harm hchanged
    | setPgActingSet => exact leaseMove_setPgActingSet harm hchanged
    | setPgActingSetWithMetadataTransfer =>
      exact leaseMove_leavePg (.refl _) (by decide) _ fun _ _ _ _ _ hd => nomatch hd
    | fencePgForMetadataTransfer => exact leaseMove_fencePgForMetadataTransfer harm hchanged
    | setPgState pgId state =>
      refine leaseMove_leavePg (.refl _) ?_ _ fun _ _ _ _ _ hd => nomatch hd
      exact (failIf_bind_eq_ok.mp harm).1
    | completePgPeering => exact leaseMove_completePgPeering harm hchanged
    | completeReadyPgPeerings => exact leaseMove_completeReadyPgPeerings harm hchanged
  · exact .refl c _

end Argmin.ControlPlane
