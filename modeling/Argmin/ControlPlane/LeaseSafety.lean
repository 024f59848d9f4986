import Argmin.ControlPlane.LeaseCover
import Argmin.Lib.Run

/-!
# No two primaries by lease

The runs of a serving authority: accepted and refused commands, heartbeats served from memory,
authority changes that lose the live snapshot and continue under another lease-horizon binding,
and restarts that continue from the durable snapshot under the same one.

The lease that a primary process held while its PG was Active should hold back every other
process until the successor activation fence of its deadline has passed.  This fails in two
places of the code:

* a process that is reactivated drops the recorded lease, also when its own lease has become
  shorter (`early_successor_after_reactivation`);
* a restart fences with the durable lease and resumes the horizon binding, so that a lease which
  was renewed in memory is forgotten (`early_successor_after_restart`).

`LeasedAuthority.KeepsFence` excludes both, and then the fence holds in every run:
`successor_waits_for_leases` and `successor_waits_after_restart`.
-/

namespace Argmin.ControlPlane

open Fallible TreeMap LeaseView SingleAuthorityControlPlane ClusterControlSnapshot Option

/-! ### Observations of a snapshot -/

namespace ClusterControlSnapshot

variable (self : ClusterControlSnapshot)

/-- The process that is the primary of an Active PG. -/
def activeProcess (pgId : PgId) : Option PrimaryProcess :=
  self.pgs[pgId]?.bind fun record =>
    if record.state = .active then
      record.activePrimary.bind fun n =>
        self.nodes[n]?.map fun node => ⟨n, node.nodeIncarnation, node.endpoint⟩
    else none

/-- The lease that the primary of an Active PG holds. -/
def primaryLease (pgId : PgId) : Option PreviousPrimaryLease :=
  self.pgs[pgId]?.bind (activePrimaryLease self)

/-- Completing the peering of a PG under `n` at `atMs` does not shorten its fence: when the
recorded lease names the present process of `n`, the lease of `n` reaches the recorded deadline or
the fence of that deadline has passed. -/
def CompletionKeepsFence (atMs : Nat) (pgId : PgId) (n : NodeId) : Prop :=
  ∀ record ∈ self.pgs[pgId]?, ∀ node ∈ self.nodes[n]?, ∀ previous ∈ record.previousPrimaryLease,
    record.state ≠ .active → previous.process = ⟨n, node.nodeIncarnation, node.endpoint⟩ →
      (∃ deadline ∈ node.leaseDeadlineMs, previous.leaseDeadlineMs ≤ deadline) ∨
        Fenced atMs previous.leaseDeadlineMs

instance (self : ClusterControlSnapshot) (atMs : Nat) (pgId : PgId) (n : NodeId) :
    Decidable (self.CompletionKeepsFence atMs pgId n) := by
  unfold CompletionKeepsFence
  infer_instance

end ClusterControlSnapshot

theorem view_activeProcess (s : ClusterControlSnapshot) (pgId : PgId) :
    s.activeProcess pgId = s.view.activeProcess pgId := by
  unfold ClusterControlSnapshot.activeProcess LeaseView.activeProcess
  rw [view_pgs]
  cases s.pgs[pgId]? with
  | none => rfl
  | some record =>
    by_cases hactive : record.state = .active
    · simp only [bind_some, map_some, PgControlRecord.view, if_pos hactive, view_nodes,
        map_map]
      rfl
    · simp only [bind_some, map_some, PgControlRecord.view, if_neg hactive]

theorem view_primaryLease (s : ClusterControlSnapshot) (pgId : PgId) :
    s.primaryLease pgId = (s.view.pgs pgId).bind s.view.activePrimaryLease := by
  unfold primaryLease
  rw [view_pgs]
  cases s.pgs[pgId]? with
  | none => rfl
  | some record => exact view_activePrimaryLease

variable {s : ClusterControlSnapshot} {pgId : PgId} {v : LeaseView} {σ₀ σ : LeasedAuthority}
  {past : List LeasedAuthority}

theorem view_completionKeepsFence {atMs : Nat}
    {n : NodeId} (h : s.CompletionKeepsFence atMs pgId n) : s.view.KeepsFence atMs pgId n := by
  intro pg node previous hp hn hne hprevious hprocess
  rw [view_pgs, map_eq_some_iff] at hp
  rw [view_nodes, map_eq_some_iff] at hn
  obtain ⟨record, hr, rfl⟩ := hp
  obtain ⟨nodeRecord, hnr, rfl⟩ := hn
  rcases h record hr nodeRecord hnr previous hprevious hne hprocess with ⟨d, hd, hle⟩ | hf
  · exact .inl ⟨nodeRecord.view, d, view_node hnr, hd, hle⟩
  · exact .inr hf

/-! ### Events -/

/-- An authority with the binding that its heartbeats carry. -/
structure LeasedAuthority where
  plane : SingleAuthorityControlPlane
  binding : LeaseHorizonAuthorityBinding
deriving DecidableEq

inductive AuthorityEvent
  | command (command : ControlPlaneCommand)
  | heartbeat (heartbeat : NodeHeartbeat) (heartbeatAtMs leaseDeadlineMs : Nat)
  | changeAuthority (binding : LeaseHorizonAuthorityBinding)
  | restart

def AuthorityEvent.isRestart : AuthorityEvent → Bool
  | .restart => true
  | _ => false

namespace LeasedAuthority

variable (self : LeasedAuthority)

/-- One event.  A refused command leaves the promotion of live leases behind; an authority that
cannot be reopened does not go on. -/
def step : AuthorityEvent → Option LeasedAuthority
  | .command command => some ⟨(self.plane.applyAndCommitCommand command).1, self.binding⟩
  | .heartbeat heartbeat heartbeatAtMs leaseDeadlineMs =>
    some ⟨(self.plane.applyHeartbeatCommand (.recordNodeHeartbeat heartbeat heartbeatAtMs
      leaseDeadlineMs (some self.binding))).1, self.binding⟩
  | .changeAuthority binding =>
    some ⟨⟨self.plane.durableSnapshot, self.plane.durableSnapshot⟩, binding⟩
  | .restart =>
    match reopen self.plane.durableSnapshot with
    | .ok plane => some ⟨plane, self.binding⟩
    | .error _ => none

/-- The events of a run: every heartbeat carries the present binding, and an authority change
installs another one. -/
def Admissible : AuthorityEvent → Prop
  | .command (.recordNodeHeartbeat _ _ _ authority) => authority = some self.binding
  | .changeAuthority binding => binding ≠ self.binding
  | _ => True

instance (self : LeasedAuthority) (event : AuthorityEvent) : Decidable (self.Admissible event) := by
  unfold Admissible
  split <;> infer_instance

/-- The event does not shorten a fence. -/
def KeepsFence : AuthorityEvent → Prop
  -- a completed peering keeps the recorded lease of its own process
  | .command command => ∀ completion ∈ command.completions, ∀ entry ∈ completion.2,
    self.plane.snapshot.CompletionKeepsFence completion.1 entry.1 entry.2
  | .heartbeat .. => True
  -- the new binding is not the one that the durable horizon still has
  | .changeAuthority binding =>
    ∀ horizon ∈ self.plane.durableSnapshot.leaseGrantHorizon, horizon.authority ≠ binding
  -- no lease of an Active primary lives in memory only
  | .restart => ∀ pgId ∈ self.plane.durableSnapshot.pgs.keys,
    self.plane.snapshot.primaryLease pgId = self.plane.durableSnapshot.primaryLease pgId

instance (self : LeasedAuthority) (event : AuthorityEvent) : Decidable (self.KeepsFence event) := by
  unfold KeepsFence
  split <;> infer_instance

end LeasedAuthority

/-- The snapshot that an accepted bootstrap command installs. -/
def Bootstrapped (s : ClusterControlSnapshot) : Prop :=
  ∃ command applied, (match command with
      | .bootstrapInitialClusterMap .. => True
      | .bootstrapCertifiedInitialClusterMap .. => True
      | _ => False) ∧
    applyControlPlaneCommand .empty command = .ok applied ∧ s = applied.snapshot

/-- The authority that starts to serve a snapshot. -/
def LeasedAuthority.start (s : ClusterControlSnapshot) (binding : LeaseHorizonAuthorityBinding) :
    LeasedAuthority :=
  ⟨⟨s, s⟩, binding⟩

/-! ### Restart -/

/-- The view after a restart: every Active PG is fenced. -/
def LeaseView.restart (v : LeaseView) : LeaseView :=
  { v.bumpEpoch with pgs := fun pgId => (v.pgs pgId).map fun pg =>
      if pg.state = .active then pg.leave .peering (v.activePrimaryLease pg) else pg }

theorem view_fenceForRestart (record : PgControlRecord) :
    (record.fenceForRestart s).view = if record.view.state = .active then
        record.view.leave .peering (s.view.activePrimaryLease record.view)
      else record.view := by
  unfold PgControlRecord.fenceForRestart
  by_cases hactive : record.state = .active
  · rw [if_pos hactive, if_pos (show record.view.state = .active from hactive),
      ← view_activePrimaryLease]
    rfl
  · rw [if_neg hactive, if_neg (show record.view.state ≠ .active from hactive)]

theorem view_reopen {plane : SingleAuthorityControlPlane}
    (h : reopen s = .ok plane) :
    plane.durableSnapshot = plane.snapshot ∧ plane.snapshot.view = s.view.restart := by
  simp only [reopen, bumpAuthorityAfterRestart, bind_eq_ok, pure_eq_ok,
    okOr_eq_ok, nextEpoch, checkedAdd_eq_some] at h
  obtain ⟨-, ⟨incarnation, -, epoch, ⟨hepoch, -⟩, rfl⟩, -, -, rfl⟩ := h
  refine ⟨rfl, LeaseView.ext hepoch.symm rfl rfl (funext fun k => ?_) (funext fun k => ?_)⟩
  · simp only [view_recordHistoryFrom, view_nodes, Std.ExtTreeMap.getElem?_map, map_map]
    rfl
  · simp only [view_recordHistoryFrom, view_pgs, Std.ExtTreeMap.getElem?_map, map_map,
      LeaseView.restart]
    refine congrArg (fun f => s.pgs[k]?.map f) (funext fun record => ?_)
    exact view_fenceForRestart record

/-- **A restart fences every Active PG** with the durable lease of its primary; it is a move,
whatever the command. -/
theorem leaseMove_restart (hv : v.WellFormed) (c : ControlPlaneCommand) :
    LeaseMove c v v.restart := by
  have hlt : v.clusterEpoch < v.restart.clusterEpoch := Nat.lt_succ_self _
  refine ⟨.of_eq rfl rfl, hlt.le, fun n node' e hn he => .inl ⟨node', hn, he⟩, fun pgId => ?_⟩
  cases hpg : v.pgs pgId with
  | none => exact .absent hpg (by simp only [restart, hpg, map_none])
  | some pg =>
    have hp : v.restart.pgs pgId = some (if pg.state = .active then
        pg.leave .peering (v.activePrimaryLease pg) else pg) := by
      simp only [restart, hpg, map_some]
    by_cases hactive : pg.state = .active
    · rw [if_pos hactive] at hp
      obtain ⟨-, n, node, d, hs⟩ := hv.active hpg hactive
      refine .leaves pg _ hpg hp (by decide : PgState.peering ≠ .active) ?_ hlt
      rw [LeaseView.fencingLease, hs.activePrimaryLease hactive, some_or]
      exact .refl _
    · rw [if_neg hactive] at hp
      exact .stays pg hpg hp fun h => absurd h hactive

/-- A restart keeps a view well formed, as a move of whatever command. -/
theorem LeaseView.WellFormed.restart (hv : v.WellFormed) : v.restart.WellFormed := by
  refine (leaseMove_restart hv (.expireHeartbeatLeases 0)).wellFormed hv ⟨hv.node, fun hp => ?_⟩
  obtain ⟨pg, hpg, rfl⟩ := map_eq_some_iff.mp hp
  have hid := hv.pg hpg
  split
  · exact hid
  · exact hid

/-! ### Steps -/

theorem Overlay.activeProcess {binding : LeaseHorizonAuthorityBinding} {w : LeaseView}
    (h : Overlay binding v w) (pgId : PgId) : w.activeProcess pgId = v.activeProcess pgId := by
  unfold LeaseView.activeProcess
  rw [h.pgs]
  refine bind_congr fun pg _ => ?_
  split
  · refine bind_congr fun n _ => ?_
    cases hv : v.nodes n with
    | none => rw [h.absent hv]
    | some node =>
      obtain ⟨lease, hw, -⟩ := h.known hv
      rw [hw]
      rfl
  · rfl

namespace LeasedAuthority

/-- The durable view is well formed and the live one is an overlay of it. -/
structure Sound (σ : LeasedAuthority) : Prop where
  wellFormed : σ.plane.durableSnapshot.view.WellFormed
  overlay : Overlay σ.binding σ.plane.durableSnapshot.view σ.plane.snapshot.view

/-- A lease of `process` is covered. -/
def Covers (σ : LeasedAuthority) (pgId : PgId) (process : PrimaryProcess) (deadline : Nat) :
    Prop :=
  Covered σ.plane.durableSnapshot.view σ.plane.snapshot.view σ.binding pgId process
    deadline

/-- **What a step does**: leases stay covered when it keeps the fences, and a process that becomes
the Active primary does so by a completion that waited for the covered leases of others. -/
structure SafeStep (σ : LeasedAuthority) (event : AuthorityEvent) (next : LeasedAuthority) :
    Prop where
  sound : next.Sound
  covers : σ.KeepsFence event → ∀ {pgId process deadline}, σ.Covers pgId process deadline →
    next.Covers pgId process deadline
  waits : ∀ {pgId successor}, next.plane.snapshot.activeProcess pgId = some successor →
    σ.plane.snapshot.activeProcess pgId ≠ some successor →
    ∃ command completion, event = .command command ∧ command.completions = some completion ∧
      ∀ process deadline, σ.Covers pgId process deadline → process ≠ successor →
        Fenced completion.1 deadline

variable {σ next : LeasedAuthority} {event : AuthorityEvent}

/-- A step after which every PG has the primary process it had. -/
theorem SafeStep.of_same (sound : next.Sound)
    (covers : σ.KeepsFence event → ∀ {pgId process deadline}, σ.Covers pgId process deadline →
      next.Covers pgId process deadline)
    (same : ∀ pgId, next.plane.snapshot.view.activeProcess pgId =
      σ.plane.snapshot.view.activeProcess pgId) : SafeStep σ event next := by
  refine ⟨sound, covers, fun {pgId successor} hnew hold => absurd ?_ hold⟩
  rw [view_activeProcess] at hnew ⊢
  exact same pgId ▸ hnew

theorem Sound.promoted (h : σ.Sound) (event : AuthorityEvent)
    {promoted : SingleAuthorityControlPlane}
    (hp : σ.plane.promoteVolatileHeartbeatLeasesIfNeeded = .ok promoted) :
    SafeStep σ event ⟨promoted, σ.binding⟩ ∧
      promoted.snapshot.view = σ.plane.snapshot.view ∧
      promoted.durableSnapshot.view = σ.plane.snapshot.view := by
  obtain ⟨hlive, hdurable⟩ := view_promote h.wellFormed.toKeyed h.overlay hp
  refine ⟨.of_same ⟨?_, ?_⟩ (fun _ _ _ _ hc => ?_) fun pgId => ?_, hlive, hdurable⟩
  · rw [hdurable]
    exact h.overlay.wellFormed h.wellFormed
  · rw [hdurable, hlive]
    exact .refl _ _
  · show Covered promoted.durableSnapshot.view promoted.snapshot.view _ _ _ _
    rw [hdurable, hlive]
    exact hc.promoted h.overlay
  · rw [hlive]

/-- The outcome of a command after the promotion. -/
theorem Sound.commits (h : σ.Sound) {promoted after : SingleAuthorityControlPlane}
    {c : ControlPlaneCommand}
    (hp : σ.plane.promoteVolatileHeartbeatLeasesIfNeeded = .ok promoted)
    (hc : promoted.Commits c after)
    (hheartbeat : c.IsHeartbeat → ∃ heartbeat heartbeatAtMs leaseDeadlineMs,
      c = .recordNodeHeartbeat heartbeat heartbeatAtMs leaseDeadlineMs (some σ.binding))
    (hevent : ∀ completion, c.completions = some completion →
      ∃ command, event = .command command ∧ command.completions = some completion) :
    SafeStep σ event ⟨after, σ.binding⟩ := by
  obtain ⟨hsafe, hlive, hdurable⟩ := h.promoted event hp
  rcases hc with rfl | ⟨hviews, applied, happlied, hchanged, hnext⟩
  · exact hsafe
  have hw : σ.plane.snapshot.view.WellFormed := h.overlay.wellFormed h.wellFormed
  have hk : promoted.durableSnapshot.view.Keyed := hdurable ▸ hw.toKeyed
  have hmove := leaseMove_apply hk happlied
  rw [hdurable, ← hnext] at hmove
  refine ⟨⟨hmove.wellFormed hw (hnext ▸ keyed_apply hk happlied), ?_⟩,
    fun hkeeps pgId process deadline hcovered => ?_,
    fun {pgId successor} hnew hold => ?_⟩
  · rw [hviews]
    exact .refl _ _
  · show Covered after.durableSnapshot.view after.snapshot.view _ _ _ _
    rw [hviews]
    refine Covered.move hw hmove (fun hb => ?_) (fun atMs completions n hcompletions hmem => ?_)
      (hcovered.promoted h.overlay)
    · obtain ⟨heartbeat, heartbeatAtMs, leaseDeadlineMs, rfl⟩ := hheartbeat hb
      rw [hnext]
      exact horizon_of_heartbeat hk happlied hchanged
    · obtain ⟨command, rfl, hcommand⟩ := hevent _ hcompletions
      exact view_completionKeepsFence (hkeeps _ hcommand _ hmem)
  · rw [view_activeProcess] at hnew hold
    have hnew : after.durableSnapshot.view.activeProcess pgId = some successor := hviews ▸ hnew
    obtain ⟨atMs, completions, hcompletions, hwaits⟩ :=
      Covered.fenced_of_activates σ.binding hw hmove hnew hold
    obtain ⟨command, hcommand, hc⟩ := hevent _ hcompletions
    exact ⟨command, (atMs, completions), hcommand, hc, fun process deadline hcovered =>
      hwaits process deadline (hcovered.promoted h.overlay)⟩

theorem Sound.refl (h : σ.Sound) : SafeStep σ event σ :=
  .of_same h (fun _ _ _ _ => id) fun _ => rfl

theorem Sound.afterPromotion (h : σ.Sound)
    {f : SingleAuthorityControlPlane → Except ControlPlaneError SingleAuthorityControlPlane}
    (hf : ∀ promoted after, σ.plane.promoteVolatileHeartbeatLeasesIfNeeded = .ok promoted →
      f promoted = .ok after → SafeStep σ event ⟨after, σ.binding⟩) :
    SafeStep σ event ⟨(σ.plane.afterPromotion f).1, σ.binding⟩ := by
  unfold SingleAuthorityControlPlane.afterPromotion
  split
  · exact h.refl
  · next promoted hp =>
    split
    · exact (h.promoted event hp).1
    · next after hafter => exact hf promoted after hp hafter

/-- Losing the live snapshot under the binding `binding`. -/
theorem Sound.dropped (h : σ.Sound) (event : AuthorityEvent)
    (binding : LeaseHorizonAuthorityBinding)
    (hdrop : σ.KeepsFence event → ∀ hz, σ.plane.durableSnapshot.leaseGrantHorizon = some hz →
      hz.authority = binding → σ.binding = binding ∧ ∀ pgId,
        σ.plane.snapshot.primaryLease pgId = σ.plane.durableSnapshot.primaryLease pgId) :
    SafeStep σ event ⟨⟨σ.plane.durableSnapshot, σ.plane.durableSnapshot⟩, binding⟩ := by
  refine .of_same ⟨h.wellFormed, .refl _ _⟩ (fun hkeeps pgId process deadline hc => ?_)
    fun pgId => (h.overlay.activeProcess pgId).symm
  refine hc.dropped h.overlay fun hz hh hb => ?_
  obtain ⟨hbinding, hsame⟩ := hdrop hkeeps hz hh hb
  refine ⟨hbinding, fun pg hp => ?_⟩
  have hlease := hsame pgId
  rw [view_primaryLease, view_primaryLease, h.overlay.pgs, hp] at hlease
  exact hlease

theorem Sound.reopened (h : σ.Sound) {plane : SingleAuthorityControlPlane}
    (hplane : reopen σ.plane.durableSnapshot = .ok plane) :
    SafeStep σ .restart ⟨plane, σ.binding⟩ := by
  -- a restart that keeps the fences loses no live lease of an Active primary
  have hleases : σ.KeepsFence .restart → ∀ pgId,
      σ.plane.snapshot.primaryLease pgId = σ.plane.durableSnapshot.primaryLease pgId := by
    intro hkeeps pgId
    by_cases hmem : pgId ∈ σ.plane.durableSnapshot.pgs.keys
    · exact hkeeps pgId hmem
    · have hnone : σ.plane.durableSnapshot.pgs[pgId]? = none :=
        Std.ExtTreeMap.getElem?_eq_none (mt Std.ExtTreeMap.mem_keys.mpr hmem)
      rw [view_primaryLease, view_primaryLease, h.overlay.pgs, view_pgs, hnone]
      rfl
  have hdropped := h.dropped .restart σ.binding fun hkeeps _ _ _ => ⟨rfl, hleases hkeeps⟩
  obtain ⟨hsame, hview⟩ := view_reopen hplane
  -- any command that is neither a heartbeat nor a completion will do
  have hmove := leaseMove_restart h.wellFormed (.expireHeartbeatLeases 0)
  refine ⟨⟨?_, ?_⟩, fun hkeeps pgId process deadline hc => ?_,
    fun {pgId successor} hnew hold => ?_⟩
  · rw [hsame, hview]
    exact h.wellFormed.restart
  · rw [hsame]
    exact .refl _ _
  · show Covered plane.durableSnapshot.view plane.snapshot.view _ _ _ _
    rw [hsame, hview]
    exact Covered.move h.wellFormed hmove (fun hb => absurd hb id)
      (fun _ _ _ hcompletions => nomatch hcompletions) (hdropped.covers hkeeps hc)
  · rw [view_activeProcess, hview] at hnew
    rw [view_activeProcess, h.overlay.activeProcess] at hold
    obtain ⟨_, _, hcompletions, -⟩ := Covered.fenced_of_activates σ.binding h.wellFormed
      hmove hnew hold
    cases hcompletions

/-- **Every admissible step is safe.** -/
theorem Sound.step (h : σ.Sound) (hadmissible : σ.Admissible event)
    (hstep : σ.step event = some next) : SafeStep σ event next := by
  cases event with
  | command command =>
    cases hstep
    refine h.afterPromotion fun promoted after hp hafter => ?_
    have hdurable := (h.promoted (.command command) hp).2
    obtain ⟨c, hcompletions, hkind, hc⟩ := commits_rebaseCommand
      (hdurable.2 ▸ h.overlay.keyed h.wellFormed.toKeyed) (hdurable.1.trans hdurable.2.symm) hafter
    refine h.commits hp hc (fun hb => ?_) (fun completion hcompletion =>
      ⟨command, rfl, hcompletions ▸ hcompletion⟩)
    obtain rfl : command = c := hkind.resolve_right (not_not.mpr hb)
    cases command with
    | recordNodeHeartbeat heartbeat heartbeatAtMs leaseDeadlineMs authority =>
      exact ⟨heartbeat, heartbeatAtMs, leaseDeadlineMs, by rw [(hadmissible : authority = _)]⟩
    | _ => exact absurd hb id
  | heartbeat heartbeat heartbeatAtMs leaseDeadlineMs =>
    cases hstep
    unfold SingleAuthorityControlPlane.applyHeartbeatCommand
    split
    · exact h.refl
    · next live hlive =>
      -- a volatile heartbeat: only the live snapshot changes
      have ho := Overlay.of_volatile (h.overlay.keyed h.wellFormed.toKeyed) hlive
      exact .of_same ⟨h.wellFormed, h.overlay.trans ho⟩
        (fun _ _ _ _ hc => hc.raised ho) ho.activeProcess
    · refine h.afterPromotion fun promoted after hp hafter => ?_
      have hdurable := (h.promoted (.heartbeat heartbeat heartbeatAtMs leaseDeadlineMs) hp).2
      have hc := commits_rebaseHeartbeat (hdurable.2 ▸ h.overlay.keyed h.wellFormed.toKeyed)
        (hdurable.1.trans hdurable.2.symm) hafter
      exact h.commits hp hc (fun _ => ⟨heartbeat, heartbeatAtMs, leaseDeadlineMs, rfl⟩)
        (fun _ hcompletion => nomatch hcompletion)
  | changeAuthority binding =>
    cases hstep
    exact h.dropped _ binding fun hkeeps hz hh hb => absurd hb (hkeeps hz hh)
  | restart =>
    simp only [LeasedAuthority.step] at hstep
    split at hstep
    · next plane hplane =>
      cases hstep
      exact h.reopened hplane
    · cases hstep

end LeasedAuthority

/-! ### Runs -/

theorem Bootstrapped.sound (h : Bootstrapped s)
    (binding : LeaseHorizonAuthorityBinding) : (LeasedAuthority.start s binding).Sound := by
  obtain ⟨command, applied, -, happlied, rfl⟩ := h
  have hempty : empty.view.WellFormed := by
    refine ⟨⟨fun h => ?_, fun h => ?_⟩, fun h => ?_, fun h => ?_⟩ <;>
      simp [empty] at h
  exact ⟨(leaseMove_apply hempty.toKeyed happlied).wellFormed hempty
    (keyed_apply hempty.toKeyed happlied), .refl _ _⟩

/-- The events of a run that shorten no fence. -/
def LeasedAuthority.FenceKeeping (σ : LeasedAuthority) (event : AuthorityEvent) : Prop :=
  σ.Admissible event ∧ σ.KeepsFence event

instance (σ : LeasedAuthority) (event : AuthorityEvent) : Decidable (σ.FenceKeeping event) :=
  inferInstanceAs (Decidable (σ.Admissible event ∧ σ.KeepsFence event))

/-- **Every lease held in a run stays covered.** -/
theorem covers_of_run
    (h₀ : σ₀.Sound) (h : Run LeasedAuthority.step LeasedAuthority.FenceKeeping σ₀ past σ) :
    σ.Sound ∧ ∀ σ' ∈ σ :: past, ∀ pgId lease,
      σ'.plane.snapshot.primaryLease pgId = some lease →
        σ.Covers pgId lease.process lease.leaseDeadlineMs := by
  have hheld : ∀ {σ : LeasedAuthority}, σ.Sound → ∀ pgId lease,
      σ.plane.snapshot.primaryLease pgId = some lease →
        σ.Covers pgId lease.process lease.leaseDeadlineMs := fun hs pgId lease hlease =>
    .of_held hs.wellFormed hs.overlay (view_primaryLease .. ▸ hlease)
  induction h with
  | refl => exact ⟨h₀, List.forall_mem_singleton.mpr (hheld h₀)⟩
  | tail _ ok next ih =>
    have hsafe := ih.1.step ok.1 next
    refine ⟨hsafe.sound, List.forall_mem_cons.mpr ⟨hheld hsafe.sound, ?_⟩⟩
    exact fun σ' hmem pgId lease hlease => hsafe.covers ok.2 (ih.2 σ' hmem pgId lease hlease)

/-- A process that becomes the Active primary in a step waits for every lease held before. -/
theorem waits_of_run {next : LeasedAuthority} {event : AuthorityEvent} (h₀ : σ₀.Sound)
    (h : Run LeasedAuthority.step LeasedAuthority.FenceKeeping σ₀ past σ)
    (hevent : σ.FenceKeeping event) (hnext : σ.step event = some next)
    {successor : PrimaryProcess} (hnew : next.plane.snapshot.activeProcess pgId = some successor)
    (hold : σ.plane.snapshot.activeProcess pgId ≠ some successor) :
    ∃ command completion, event = .command command ∧ command.completions = some completion ∧
      ∀ σ' ∈ σ :: past, ∀ lease, σ'.plane.snapshot.primaryLease pgId = some lease →
        lease.process ≠ successor → Fenced completion.1 lease.leaseDeadlineMs := by
  obtain ⟨hsound, hcovers⟩ := covers_of_run h₀ h
  obtain ⟨command, completion, hcommand, hcompletion, hwaits⟩ :=
    (hsound.step hevent.1 hnext).waits hnew hold
  exact ⟨command, completion, hcommand, hcompletion, fun σ' hmem lease hlease =>
    hwaits _ _ (hcovers σ' hmem pgId lease hlease)⟩

/-! ### A cluster of two nodes

The runs below are those of one PG on two nodes. -/

def bootstrapTwoNodes : ControlPlaneCommand :=
  .bootstrapInitialClusterMap [(1, "a"), (2, "b")] [0]

def twoNodes : ClusterControlSnapshot :=
  match applyControlPlaneCommand .empty bootstrapTwoNodes with
  | .ok applied => applied.snapshot
  | .error _ => .empty

theorem bootstrapped_twoNodes : Bootstrapped twoNodes := by
  have hok : (applyControlPlaneCommand .empty bootstrapTwoNodes).isOk = true := by decide +kernel
  cases h : applyControlPlaneCommand .empty bootstrapTwoNodes with
  | ok applied => exact ⟨bootstrapTwoNodes, applied, trivial, h, by rw [twoNodes, h]⟩
  | error e => rw [h] at hok; cases hok

def twoNodesBinding : LeaseHorizonAuthorityBinding := ⟨1, none⟩

/-- A heartbeat of incarnation 1 with its scan generation and what it observes of the PG. -/
def twoNodesHeartbeat (nodeId : NodeId) (observedEpoch scanGeneration : Nat)
    (observed : Option (PgState × ClusterEpoch)) (heartbeatAtMs leaseDeadlineMs : Nat) :
    AuthorityEvent :=
  .heartbeat ⟨nodeId, 1, if nodeId = 1 then "a" else "b", observedEpoch,
    leaseDeadlineMs - heartbeatAtMs, scanGeneration, ∅, observed.toList.map fun (state, logEpoch) =>
      ⟨0, state, ⟨1, ⟨1, 7⟩, ⟨1, 9⟩⟩, logEpoch, none⟩⟩ heartbeatAtMs leaseDeadlineMs

/-- **No two primaries by lease.**  In a run of events that shorten no fence, whenever a PG
becomes Active under a process `successor`, it does so by a completion command at a time at which
the successor activation fence of every lease is satisfied that another process has held as the
Active primary of the PG in an earlier state. -/
theorem successor_waits_for_leases {s₀ : ClusterControlSnapshot} (h₀ : Bootstrapped s₀)
    {binding : LeaseHorizonAuthorityBinding} {σ next : LeasedAuthority}
    {past : List LeasedAuthority} {event : AuthorityEvent}
    (h : Run LeasedAuthority.step LeasedAuthority.FenceKeeping (.start s₀ binding) past σ)
    (hevent : σ.FenceKeeping event) (hnext : σ.step event = some next) {pgId : PgId}
    {successor : PrimaryProcess} (hnew : next.plane.snapshot.activeProcess pgId = some successor)
    (hold : σ.plane.snapshot.activeProcess pgId ≠ some successor) :
    ∃ command completion, event = .command command ∧ command.completions = some completion ∧
      ∀ σ' ∈ σ :: past, ∀ lease, σ'.plane.snapshot.primaryLease pgId = some lease →
        lease.process ≠ successor → Fenced completion.1 lease.leaseDeadlineMs :=
  waits_of_run (h₀.sound binding) h hevent hnext hnew hold

/-- The PG becomes Active under node 1, with a lease until `deadlineMs`. -/
def activatedUntil (deadlineMs : Nat) : List AuthorityEvent :=
  [twoNodesHeartbeat 1 2 1 none 100000 deadlineMs,
    twoNodesHeartbeat 2 3 1 none 100000 110000,
    twoNodesHeartbeat 1 4 2 (some (.peering, 4)) 100000 deadlineMs,
    twoNodesHeartbeat 2 4 2 (some (.peering, 4)) 100000 110000,
    .command (.completePgPeering 0 1 1 100000)]

/-- The takeover of a PG whose primary has let its lease run out. -/
def takeoverEvents : List AuthorityEvent :=
  activatedUntil 110000 ++ [.command (.expireHeartbeatLeases 110000),
    twoNodesHeartbeat 2 6 3 none 111000 121000,
    twoNodesHeartbeat 2 7 4 (some (.peering, 7)) 111000 121000]

theorem successor_waits_at_takeover :
    ∃ past σ, Run LeasedAuthority.step LeasedAuthority.FenceKeeping
        (.start twoNodes twoNodesBinding) past σ ∧
      (∃ σ' ∈ σ :: past, σ'.plane.snapshot.primaryLease 0 = some ⟨1, 1, "a", 110000, true⟩) ∧
      ∃ command completion, AuthorityEvent.command (.completePgPeering 0 2 1 111000) =
          .command command ∧ command.completions = some completion ∧
        ∀ σ' ∈ σ :: past, ∀ lease, σ'.plane.snapshot.primaryLease 0 = some lease →
          lease.process ≠ ⟨2, 1, "b"⟩ → Fenced completion.1 lease.leaseDeadlineMs := by
  refine exists_run_of_replay_imp takeoverEvents (P := fun past σ =>
    (∃ σ' ∈ σ :: past, σ'.plane.snapshot.primaryLease 0 = some ⟨1, 1, "a", 110000, true⟩) ∧
    σ.FenceKeeping (.command (.completePgPeering 0 2 1 111000)) ∧
    ∃ next ∈ σ.step (.command (.completePgPeering 0 2 1 111000)),
      next.plane.snapshot.activeProcess 0 = some ⟨2, 1, "b"⟩ ∧
      σ.plane.snapshot.activeProcess 0 ≠ some ⟨2, 1, "b"⟩) (by decide +kernel) ?_
  rintro past σ hrun ⟨hheld, hevent, next, hnext, hnew, hold⟩
  exact ⟨hheld, successor_waits_for_leases bootstrapped_twoNodes hrun hevent hnext hnew hold⟩

/-- The primary is marked suspect, which drops its lease until 110000, and is reactivated with a
lease until 100110, which replaces the recorded one.  Once the short lease has run out the other
node takes over. -/
def reactivationEvents : List AuthorityEvent :=
  activatedUntil 110000 ++ [.command (.markNodeAvailability 1 .suspect),
    twoNodesHeartbeat 1 6 3 none 100010 100110,
    twoNodesHeartbeat 1 7 4 (some (.peering, 7)) 100010 100110,
    twoNodesHeartbeat 2 7 4 (some (.peering, 7)) 100010 110010,
    .command (.completePgPeering 0 1 1 100020),
    .command (.expireHeartbeatLeases 100110),
    twoNodesHeartbeat 2 9 5 (some (.peering, 9)) 101110 111110]

/-- **A reactivated primary forgets its longer lease**: another process becomes Active although
the fence of a lease that the old primary held is not satisfied. -/
theorem early_successor_after_reactivation :
    ∃ past σ, Run LeasedAuthority.step
        (fun σ event => σ.Admissible event ∧ event.isRestart = false)
        (.start twoNodes twoNodesBinding) past σ ∧
      (∃ σ' ∈ σ :: past, σ'.plane.snapshot.primaryLease 0 = some ⟨1, 1, "a", 110000, true⟩) ∧
      σ.plane.snapshot.activeProcess 0 ≠ some ⟨2, 1, "b"⟩ ∧
      (∃ next ∈ σ.step (.command (.completePgPeering 0 2 1 101110)),
        next.plane.snapshot.activeProcess 0 = some ⟨2, 1, "b"⟩) ∧
      ¬Fenced 101110 110000 :=
  exists_run_of_replay reactivationEvents (by decide +kernel)

/-- **A restart shortens no fence**, when no lease of an Active primary lived in memory only.
`σ` is the authority before the crash and `reopened` the one after it. -/
theorem successor_waits_after_restart {s₀ : ClusterControlSnapshot} (h₀ : Bootstrapped s₀)
    {binding : LeaseHorizonAuthorityBinding} {σ reopened τ next : LeasedAuthority}
    {past later : List LeasedAuthority} {event : AuthorityEvent}
    (hbefore : Run LeasedAuthority.step LeasedAuthority.Admissible (.start s₀ binding) past σ)
    (hrestart : σ.KeepsFence .restart) (hreopened : σ.step .restart = some reopened)
    (hafter : Run LeasedAuthority.step LeasedAuthority.FenceKeeping reopened later τ)
    (hevent : τ.FenceKeeping event) (hnext : τ.step event = some next) {pgId : PgId}
    {lease : PreviousPrimaryLease} (hlease : σ.plane.snapshot.primaryLease pgId = some lease)
    {successor : PrimaryProcess} (hnew : next.plane.snapshot.activeProcess pgId = some successor)
    (hold : τ.plane.snapshot.activeProcess pgId ≠ some successor)
    (hother : successor ≠ lease.process) :
    ∃ command completion, event = .command command ∧ command.completions = some completion ∧
      Fenced completion.1 lease.leaseDeadlineMs := by
  have hsound : σ.Sound :=
    hbefore.invariant (h₀.sound binding) fun h hok hstep => (h.step hok hstep).sound
  have hok : σ.FenceKeeping .restart := ⟨trivial, hrestart⟩
  have hrun := (Run.refl.tail hok hreopened).trans hafter
  obtain ⟨command, completion, hcommand, hcompletion, hwaits⟩ :=
    waits_of_run hsound hrun hevent hnext hnew hold
  exact ⟨command, completion, hcommand, hcompletion, hwaits σ (by simp) lease hlease hother.symm⟩

/-- The primary with a lease until 101000. -/
def shortLeaseEvents : List AuthorityEvent :=
  activatedUntil 101000 ++ [twoNodesHeartbeat 1 5 3 (some (.active, 4)) 100000 101000]

/-- The primary renews its lease until 110500 in memory. -/
def renewalEvents : List AuthorityEvent :=
  shortLeaseEvents ++ [twoNodesHeartbeat 1 5 4 (some (.active, 4)) 100500 110500]

/-- After the restart the durable lease runs out and the other node is ready to take over. -/
def expiryEvents : List AuthorityEvent :=
  [.command (.expireHeartbeatLeases 101000),
    twoNodesHeartbeat 2 7 5 (some (.peering, 7)) 102000 112000]

theorem successor_waits_after_example_restart :
    ∃ past σ, Run LeasedAuthority.step LeasedAuthority.Admissible
        (.start twoNodes twoNodesBinding) past σ ∧
      ∃ command completion, AuthorityEvent.command (.completePgPeering 0 2 1 102000) =
          .command command ∧ command.completions = some completion ∧
            Fenced completion.1 101000 := by
  refine exists_run_of_replay_imp shortLeaseEvents (P := fun _ σ =>
    σ.plane.snapshot.primaryLease 0 = some ⟨1, 1, "a", 101000, true⟩ ∧ σ.KeepsFence .restart ∧
    ∃ reopened ∈ σ.step .restart,
    ∃ r ∈ replay LeasedAuthority.step LeasedAuthority.FenceKeeping [] reopened expiryEvents,
      r.2.FenceKeeping (.command (.completePgPeering 0 2 1 102000)) ∧
      ∃ next ∈ r.2.step (.command (.completePgPeering 0 2 1 102000)),
        next.plane.snapshot.activeProcess 0 = some ⟨2, 1, "b"⟩ ∧
        r.2.plane.snapshot.activeProcess 0 ≠ some ⟨2, 1, "b"⟩) (by decide +kernel) ?_
  rintro past σ hrun ⟨hlease, hrestart, reopened, hreopened, ⟨later, τ⟩, hreplay, hevent, next,
    hnext, hnew, hold⟩
  have hwaits := successor_waits_after_restart bootstrapped_twoNodes hrun hrestart hreopened
    (Run.refl.of_replay hreplay) hevent hnext hlease hnew hold (by decide)
  exact hwaits

/-- **A restart forgets a lease renewed in memory**: the other process becomes Active although
the fence of the lease held before the crash is not satisfied. -/
theorem early_successor_after_restart :
    ∃ past σ, Run LeasedAuthority.step LeasedAuthority.Admissible
        (.start twoNodes twoNodesBinding) past σ ∧
      σ.plane.snapshot.primaryLease 0 = some ⟨1, 1, "a", 110500, true⟩ ∧
      ∃ reopened ∈ σ.step .restart,
      ∃ r ∈ replay LeasedAuthority.step LeasedAuthority.Admissible [] reopened expiryEvents,
        r.2.plane.snapshot.activeProcess 0 ≠ some ⟨2, 1, "b"⟩ ∧
        (∃ next ∈ r.2.step (.command (.completePgPeering 0 2 1 102000)),
          next.plane.snapshot.activeProcess 0 = some ⟨2, 1, "b"⟩) ∧
        ¬Fenced 102000 110500 :=
  exists_run_of_replay renewalEvents (by decide +kernel)

end Argmin.ControlPlane
