import Argmin.ControlPlane.Overlay

/-!
# How a granted lease stays covered

A lease that a primary held while its PG was Active must hold back every other process until its
deadline has safely passed.  `Covered v w b pgId P D` says how the durable view `v` and the live
view `w` of an authority bound to `b` remember a lease `D` of the process `P`:

* its successor fence has passed at the last committed time;
* `P` is still the Active primary, and the lease it holds, or else the committed grant horizon,
  reaches `D`;
* the PG is fenced by a recorded lease of `P` that reaches `D`;
* the lease was lost with the live view, but no node can complete the peering before a heartbeat
  of the present authority, and that needs the horizon of the old one to have passed.

Each way an authority can go on keeps a lease covered: `Covered.raised` (a volatile heartbeat),
`Covered.promoted`, `Covered.dropped` (the live view is lost) and `Covered.move` (a command).
-/

namespace Argmin.ControlPlane

open LeaseView

variable {hz : CommittedLeaseGrantHorizon} {n : NodeId}

def NodeView.process (node : NodeView) (n : NodeId) : PrimaryProcess :=
  ⟨n, node.nodeIncarnation, node.endpoint⟩

/-- The process that is the primary of an Active PG. -/
def LeaseView.activeProcess (v : LeaseView) (pgId : PgId) : Option PrimaryProcess :=
  (v.pgs pgId).bind fun pg =>
    if pg.state = .active then pg.activePrimary.bind fun n => (v.nodes n).map (·.process n)
    else none

/-- The node holds a lease that reaches `deadline`. -/
def LeaseView.Holds (v : LeaseView) (n : NodeId) (deadline : Nat) : Prop :=
  ∃ node d, v.nodes n = some node ∧ node.leaseDeadlineMs = some d ∧ deadline ≤ d

inductive Covered (v w : LeaseView) (binding : LeaseHorizonAuthorityBinding) (pgId : PgId)
    (process : PrimaryProcess) (deadline : Nat) : Prop
  | past (m : Nat) (hm : v.maxCommittedTimestampMs = some m) (fenced : Fenced m deadline)
  | active (pg : PgView) (n : NodeId) (node : NodeView) (d : Nat) (h : v.pgs pgId = some pg)
      (hactive : pg.state = .active) (serves : v.Serves pg n node d)
      (hprocess : node.process n = process)
      (reaches : deadline ≤ d ∨ ∃ horizon, v.leaseGrantHorizon = some horizon ∧
        deadline ≤ horizon.grantNotAfterMs ∧ (horizon.authority = binding → w.Holds n deadline))
  | fenced (pg : PgView) (previous : PreviousPrimaryLease) (h : v.pgs pgId = some pg)
      (hne : pg.state ≠ .active) (hprevious : pg.previousPrimaryLease = some previous)
      (hprocess : previous.process = process) (reaches : deadline ≤ previous.leaseDeadlineMs)
  | lost (pg : PgView) (horizon : CommittedLeaseGrantHorizon) (h : v.pgs pgId = some pg)
      (hne : pg.state ≠ .active) (hhorizon : v.leaseGrantHorizon = some horizon)
      (reaches : deadline ≤ horizon.grantNotAfterMs) (hother : horizon.authority ≠ binding)
      (unseen : ∀ n node e, v.nodes n = some node → node.lastObservedEpoch = some e →
        e < v.clusterEpoch)

/-! ### Live leases -/

section Overlay

variable {binding : LeaseHorizonAuthorityBinding} {u v w : LeaseView} {pgId : PgId}
  {process : PrimaryProcess} {deadline : Nat}

theorem Overlay.holds (h : Overlay binding v w) (hn : v.Holds n deadline) :
    w.Holds n deadline := by
  obtain ⟨node, d, hv, hd, hle⟩ := hn
  obtain ⟨lease, hw, hlease | ⟨d₀, d', -, hd₀, hd', hle', -⟩⟩ := h.known hv
  · exact ⟨_, d, hw, hlease.trans hd, hle⟩
  · cases hd₀.symm.trans hd
    exact ⟨_, d', hw, hd', hle.trans hle'⟩

/-- The primary serves in the live view too, and holds its live lease there. -/
theorem Overlay.serves (h : Overlay binding v w) {pg : PgView} {node : NodeView}
    {d : Nat} (hs : v.Serves pg n node d) :
    ∃ d', w.Serves pg n { node with leaseDeadlineMs := some d' } d' ∧ d ≤ d' ∧
      RaisedLease binding v.leaseGrantHorizon (some d) (some d') := by
  obtain ⟨lease, hw, hr⟩ := h.known hs.known
  rw [hs.lease] at hr
  rcases hr with rfl | ⟨d₀, d', hz, hd₀, rfl, hle, hrest⟩
  · exact ⟨d, ⟨hs.primary, hs.acts, hw, hs.administrativelyAvailable, hs.healthy, rfl⟩, le_rfl,
      .inl rfl⟩
  · cases hd₀
    exact ⟨d', ⟨hs.primary, hs.acts, hw, hs.administrativelyAvailable, hs.healthy, rfl⟩, hle,
      .inr ⟨d, d', hz, rfl, rfl, hle, hrest⟩⟩

theorem Overlay.wellFormed (h : Overlay binding v w) (hv : v.WellFormed) : w.WellFormed where
  toKeyed := h.keyed hv.toKeyed
  active {pgId pg} hp hactive := by
    rw [h.pgs] at hp
    obtain ⟨hnone, n, node, d, hs⟩ := hv.active hp hactive
    obtain ⟨d', hs', -⟩ := h.serves hs
    exact ⟨hnone, n, _, d', hs'⟩
  observed {n node' e} hn he := by
    obtain ⟨node, lease, hv', rfl⟩ := h.exists_durable hn
    exact h.epoch ▸ hv.observed hv' he

/-- **A lease held in the live view is covered.** -/
theorem Covered.of_held (hv : v.WellFormed) (h : Overlay binding v w)
    {lease : PreviousPrimaryLease}
    (hheld : (w.pgs pgId).bind w.activePrimaryLease = some lease) :
    Covered v w binding pgId lease.process lease.leaseDeadlineMs := by
  obtain ⟨pg, hp, hlease⟩ := Option.bind_eq_some_iff.mp hheld
  have hactive : pg.state = .active := by
    by_contra hne
    rw [w.activePrimaryLease_of_not_active hne] at hlease
    cases hlease
  rw [h.pgs] at hp
  obtain ⟨-, n, node, d, hs⟩ := hv.active hp hactive
  obtain ⟨d', hs', hle, hr⟩ := h.serves hs
  rw [hs'.activePrimaryLease hactive] at hlease
  cases hlease
  refine .active pg n node d hp hactive hs rfl ?_
  rcases hr with heq | ⟨-, e, hz, -, he, -, hh, -, hgrant⟩
  · cases heq
    exact .inl le_rfl
  · cases he
    exact .inr ⟨hz, hh, hgrant, fun _ => ⟨_, d', hs'.known, rfl, le_rfl⟩⟩

/-- A volatile heartbeat only raises live leases. -/
theorem Covered.raised (h : Covered u v binding pgId process deadline) (ho : Overlay binding v w) :
    Covered u w binding pgId process deadline := by
  cases h with
  | past m hm hf => exact .past m hm hf
  | active pg n node d hp hactive hs hprocess reaches =>
    refine .active pg n node d hp hactive hs hprocess ?_
    rcases reaches with hle | ⟨hz, hh, hgrant, hlive⟩
    · exact .inl hle
    · exact .inr ⟨hz, hh, hgrant, fun hb => ho.holds (hlive hb)⟩
  | fenced pg previous hp hne hprevious hprocess hle =>
    exact .fenced pg previous hp hne hprevious hprocess hle
  | lost pg hz hp hne hh hgrant hother unseen =>
    exact .lost pg hz hp hne hh hgrant hother unseen

/-- A promotion makes the live view durable. -/
theorem Covered.promoted (h : Covered v w binding pgId process deadline)
    (ho : Overlay binding v w) : Covered w w binding pgId process deadline := by
  cases h with
  | past m hm hf => exact .past m (ho.timestamp ▸ hm) hf
  | active pg n node d hp hactive hs hprocess reaches =>
    obtain ⟨d', hs', hle, -⟩ := ho.serves hs
    refine .active pg n _ d' (ho.pgs ▸ hp) hactive hs' hprocess ?_
    rcases reaches with hd | ⟨hz, hh, hgrant, hlive⟩
    · exact .inl (hd.trans hle)
    · exact .inr ⟨hz, ho.horizon ▸ hh, hgrant, hlive⟩
  | fenced pg previous hp hne hprevious hprocess hle =>
    exact .fenced pg previous (ho.pgs ▸ hp) hne hprevious hprocess hle
  | lost pg hz hp hne hh hgrant hother unseen =>
    refine .lost pg hz (ho.pgs ▸ hp) hne (ho.horizon ▸ hh) hgrant hother fun n node' e hn he => ?_
    obtain ⟨node, lease, hv, rfl⟩ := ho.exists_durable hn
    exact ho.epoch ▸ unseen n node e hv he

/-- **Losing the live view** under the binding `binding'` keeps a lease covered, when the horizon
is not bound to `binding'` or the live leases of Active primaries were durable. -/
theorem Covered.dropped {binding' : LeaseHorizonAuthorityBinding}
    (h : Covered v w binding pgId process deadline) (ho : Overlay binding v w)
    (hdrop : ∀ hz, v.leaseGrantHorizon = some hz → hz.authority = binding' →
      binding = binding' ∧ ∀ pg, v.pgs pgId = some pg →
        w.activePrimaryLease pg = v.activePrimaryLease pg) :
    Covered v v binding' pgId process deadline := by
  cases h with
  | past m hm hf => exact .past m hm hf
  | active pg n node d hp hactive hs hprocess reaches =>
    refine .active pg n node d hp hactive hs hprocess ?_
    rcases reaches with hle | ⟨hz, hh, hgrant, hlive⟩
    · exact .inl hle
    · by_cases hb : hz.authority = binding'
      · obtain ⟨hbinding, hsame⟩ := hdrop hz hh hb
        -- the live lease that reached the deadline is the durable one
        obtain ⟨node', e, hn', he, hle⟩ := hlive (hb.trans hbinding.symm)
        obtain ⟨d', hs', -⟩ := ho.serves hs
        have hlease := hsame pg hp
        rw [hs'.activePrimaryLease hactive, hs.activePrimaryLease hactive] at hlease
        cases hn'.symm.trans hs'.known
        cases he
        cases hlease
        exact .inl hle
      · exact .inr ⟨hz, hh, hgrant, fun hb' => absurd hb' hb⟩
  | fenced pg previous hp hne hprevious hprocess hle =>
    exact .fenced pg previous hp hne hprevious hprocess hle
  | lost pg hz hp hne hh hgrant hother unseen =>
    exact .lost pg hz hp hne hh hgrant (fun hb => hother (hb.trans (hdrop hz hh hb).1.symm)) unseen

end Overlay

/-! ### Commands -/

section Commands

variable {binding : LeaseHorizonAuthorityBinding} {v v' : LeaseView} {c : ControlPlaneCommand}
  {pgId : PgId} {process : PrimaryProcess} {deadline : Nat}

/-- The completion of the peering of a PG under `n` at `atMs` does not shorten its fence: when the
recorded lease names the present process of `n`, the lease of `n` reaches the recorded deadline or
the fence of that deadline has passed. -/
def LeaseView.KeepsFence (v : LeaseView) (atMs : Nat) (pgId : PgId) (n : NodeId) : Prop :=
  ∀ pg node previous, v.pgs pgId = some pg → v.nodes n = some node → pg.state ≠ .active →
    pg.previousPrimaryLease = some previous → previous.process = node.process n →
    v.Holds n previous.leaseDeadlineMs ∨ Fenced atMs previous.leaseDeadlineMs

variable (h : LeaseMove c v v')
include h

/-- The horizon that covers a lost lease stays, unless its fence has passed. -/
theorem LeaseMove.horizon_or_fenced (hh : v.leaseGrantHorizon = some hz) :
    (∃ hz', v'.leaseGrantHorizon = some hz' ∧ hz'.authority = hz.authority ∧
        hz.grantNotAfterMs ≤ hz'.grantNotAfterMs) ∨
      ∃ m, v'.maxCommittedTimestampMs = some m ∧ Fenced m hz.grantNotAfterMs := by
  obtain ⟨hz', hh', ⟨hauthority, hle⟩ | hfenced⟩ := h.horizon hz hh
  · exact .inl ⟨hz', hh', hauthority, hle⟩
  · exact .inr hfenced

/-- A heartbeat of an authority that the horizon is not bound to needs the horizon to have
passed. -/
theorem LeaseMove.fenced_of_heartbeat
    (hh : v.leaseGrantHorizon = some hz) (hother : hz.authority ≠ binding)
    (hbound : ∃ hz', v'.leaseGrantHorizon = some hz' ∧ hz'.authority = binding) :
    ∃ m, v'.maxCommittedTimestampMs = some m ∧ Fenced m hz.grantNotAfterMs := by
  rcases h.horizon_or_fenced hh with ⟨hz', hh', hauthority, -⟩ | hfenced
  · obtain ⟨hz₁, hh₁, hb⟩ := hbound
    cases hh'.symm.trans hh₁
    exact absurd (hauthority.symm.trans hb) hother
  · exact hfenced

theorem LeaseMove.unseen (hc : ¬c.IsHeartbeat) {epoch : ClusterEpoch}
    (hv : ∀ n node e, v.nodes n = some node → node.lastObservedEpoch = some e → e < epoch)
    (n : NodeId) (node : NodeView) (e : ClusterEpoch) (hn : v'.nodes n = some node)
    (he : node.lastObservedEpoch = some e) : e < epoch := by
  rcases h.observed n node e hn he with ⟨old, hold, heold⟩ | ⟨hheartbeat, -⟩
  · exact hv n old e hold heold
  · exact absurd hheartbeat hc

/-- A lease that is only covered by a foreign horizon stays so while the PG is not Active. -/
theorem Covered.lost_move {pg' : PgView} (hp' : v'.pgs pgId = some pg') (hne : pg'.state ≠ .active)
    (hh : v.leaseGrantHorizon = some hz) (hgrant : deadline ≤ hz.grantNotAfterMs)
    (hother : hz.authority ≠ binding)
    (hunseen : ∀ n node e, v.nodes n = some node → node.lastObservedEpoch = some e →
      e < v'.clusterEpoch)
    (hheartbeat : c.IsHeartbeat →
      ∃ hz', v'.leaseGrantHorizon = some hz' ∧ hz'.authority = binding) :
    Covered v' v' binding pgId process deadline := by
  by_cases hc : c.IsHeartbeat
  · obtain ⟨m, hm, hf⟩ := h.fenced_of_heartbeat hh hother (hheartbeat hc)
    exact .past m hm (hf.mono le_rfl hgrant)
  · rcases h.horizon_or_fenced hh with ⟨hz', hh', hauthority, hle⟩ | ⟨m, hm, hf⟩
    · exact .lost pg' hz' hp' hne hh' (hgrant.trans hle) (hauthority ▸ hother)
        (h.unseen hc hunseen)
    · exact .past m hm (hf.mono le_rfl hgrant)

omit h

/-- **An accepted command keeps a lease covered**, unless it completes a peering without keeping
the fence. -/
theorem Covered.move (hv : v.WellFormed) (h : LeaseMove c v v')
    (hheartbeat : c.IsHeartbeat →
      ∃ hz', v'.leaseGrantHorizon = some hz' ∧ hz'.authority = binding)
    (hkeeps : ∀ atMs completions n, c.completions = some (atMs, completions) →
      (pgId, n) ∈ completions → v.KeepsFence atMs pgId n)
    (hcovered : Covered v v binding pgId process deadline) :
    Covered v' v' binding pgId process deadline := by
  have hmove := h.pg pgId
  cases hcovered with
  | past m hm hf =>
    obtain ⟨m', hm', hle⟩ := h.timestamp m hm
    exact .past m' hm' (hf.mono hle le_rfl)
  | active pg n node d hp hactive hs hprocess reaches =>
    -- the lease that the primary holds reaches the deadline, or the deadline was lost
    have hreaches : deadline ≤ d ∨ ∃ hz, v.leaseGrantHorizon = some hz ∧
        deadline ≤ hz.grantNotAfterMs ∧ hz.authority ≠ binding := by
      rcases reaches with hle | ⟨hz, hh, hgrant, hlive⟩
      · exact .inl hle
      · by_cases hb : hz.authority = binding
        · obtain ⟨node', e, hn', he, hle⟩ := hlive hb
          cases hn'.symm.trans hs.known
          cases he.symm.trans hs.lease
          exact .inl hle
        · exact .inr ⟨hz, hh, hgrant, hb⟩
    cases hmove with
    | absent h _ => rw [h] at hp; cases hp
    | created _ h _ _ => rw [h] at hp; cases hp
    | stays pg hold h' kept =>
      cases hold.symm.trans hp
      obtain ⟨node', hn', hk⟩ := kept hactive n node d hs
      obtain ⟨d', hd', hle⟩ := hk.lease d hs.lease
      have hs' : v'.Serves pg n node' d' := ⟨hs.primary, hs.acts, hn',
        hk.administrativelyAvailable hs.administrativelyAvailable, hk.healthy hs.healthy, hd'⟩
      have hprocess' : node'.process n = process := by
        rw [← hprocess, NodeView.process, NodeView.process, hk.nodeIncarnation, hk.endpoint]
      rcases hreaches with hdl | ⟨hz, hh, hgrant, hb⟩
      · exact .active pg n node' d' h' hactive hs' hprocess' (.inl (hdl.trans hle))
      · rcases h.horizon_or_fenced hh with ⟨hz', hh', hauthority, hle'⟩ | ⟨m, hm, hf⟩
        · exact .active pg n node' d' h' hactive hs' hprocess'
            (.inr ⟨hz', hh', hgrant.trans hle', fun hb' => absurd (hauthority ▸ hb') hb⟩)
        · exact .past m hm (hf.mono le_rfl hgrant)
    | leaves old pg' hold h' hleft covers epoch =>
      cases hold.symm.trans hp
      rcases hreaches with hdl | ⟨hz, hh, hgrant, hb⟩
      · have hfencing : v.fencingLease pg = some
            ⟨n, node.nodeIncarnation, node.endpoint, d, true⟩ := by
          rw [LeaseView.fencingLease, hs.activePrimaryLease hactive, Option.some_or]
        obtain ⟨l', hl', hp', hle⟩ := covers _ hfencing
        exact .fenced pg' l' h' hleft hl' (hp'.trans hprocess) (hdl.trans hle)
      · exact .lost_move h h' hleft hh hgrant hb
          (fun n node e hn he => (hv.observed hn he).trans_lt epoch) hheartbeat
    | activates old _ _ _ _ _ _ hold _ hne =>
      cases hold.symm.trans hp
      exact absurd hactive hne
  | fenced pg previous hp hne hprevious hprocess hle =>
    cases hmove with
    | absent h _ => rw [h] at hp; cases hp
    | created _ h _ _ => rw [h] at hp; cases hp
    | stays pg hold h' kept =>
      cases hold.symm.trans hp
      exact .fenced pg previous h' hne hprevious hprocess hle
    | leaves old pg' hold h' hleft covers epoch =>
      cases hold.symm.trans hp
      obtain ⟨l', hl', hp', hle'⟩ := covers previous
        ((v.fencingLease_of_not_active hne).trans hprevious)
      exact .fenced pg' l' h' hleft hl' (hp'.trans hprocess) (hle.trans hle')
    | activates old pg' n node d atMs completions hold h' _ hactive _ serves known _ hcommand hmem
        htime respects =>
      cases hold.symm.trans hp
      rcases respects previous hprevious with hsame | hf
      · rcases hkeeps atMs completions n hcommand hmem pg node previous hp known hne hprevious hsame
          with ⟨node', e, hn', he, hle'⟩ | hf
        · cases hn'.symm.trans known
          cases he.symm.trans serves.lease
          exact .active pg' n node d h' hactive serves (hsame.symm.trans hprocess)
            (.inl (hle.trans hle'))
        · exact .past atMs htime (hf.mono le_rfl hle)
      · exact .past atMs htime (hf.mono le_rfl hle)
  | lost pg hz hp hne hh hgrant hother unseen =>
    cases hmove with
    | absent h _ => rw [h] at hp; cases hp
    | created _ h _ _ => rw [h] at hp; cases hp
    | stays pg hold h' kept =>
      cases hold.symm.trans hp
      exact .lost_move h h' hne hh hgrant hother
        (fun n node e hn he => (unseen n node e hn he).trans_le h.epoch) hheartbeat
    | leaves old pg' hold h' hleft covers epoch =>
      exact .lost_move h h' hleft hh hgrant hother
        (fun n node e hn he => (unseen n node e hn he).trans epoch) hheartbeat
    | activates old pg' n node d atMs completions hold h' _ _ _ _ known observed =>
      exact absurd (unseen n node _ known observed) (lt_irrefl _)

theorem LeaseView.activeProcess_eq_some : v.activeProcess pgId = some process ↔
    ∃ pg n node, v.pgs pgId = some pg ∧ pg.state = .active ∧ pg.activePrimary = some n ∧
      v.nodes n = some node ∧ node.process n = process := by
  simp only [activeProcess, Option.bind_eq_some_iff, Option.ite_none_right_eq_some,
    Option.map_eq_some_iff]
  constructor
  · rintro ⟨pg, hp, hactive, n, hprimary, node, hn, hprocess⟩
    exact ⟨pg, n, node, hp, hactive, hprimary, hn, hprocess⟩
  · rintro ⟨pg, n, node, hp, hactive, hprimary, hn, hprocess⟩
    exact ⟨pg, hp, hactive, n, hprimary, node, hn, hprocess⟩

/-- **A process that becomes the Active primary waits for every covered lease of another
process.** -/
theorem Covered.fenced_of_activates (binding : LeaseHorizonAuthorityBinding) (hv : v.WellFormed)
    (h : LeaseMove c v v')
    {successor : PrimaryProcess} (hnew : v'.activeProcess pgId = some successor)
    (hold : v.activeProcess pgId ≠ some successor) :
    ∃ atMs completions, c.completions = some (atMs, completions) ∧
      ∀ process deadline, Covered v v binding pgId process deadline → process ≠ successor →
        Fenced atMs deadline := by
  obtain ⟨pg', n, node', hp', hactive, hprimary, hn', rfl⟩ := activeProcess_eq_some.mp hnew
  cases h.pg pgId with
  | absent _ h' => rw [h'] at hp'; cases hp'
  | created _ _ h' hpeering => cases h'.symm.trans hp'; exact absurd hactive hpeering
  | stays pg hp h' kept =>
    -- the primary of an Active PG stays the same process
    cases h'.symm.trans hp'
    obtain ⟨-, n₀, node, d, hs⟩ := hv.active hp hactive
    cases hs.primary.symm.trans hprimary
    obtain ⟨node'', hn'', hk⟩ := kept hactive n node d hs
    cases hn''.symm.trans hn'
    refine absurd (activeProcess_eq_some.mpr ⟨_, n, node, hp, hactive, hprimary, hs.known, ?_⟩)
      hold
    rw [NodeView.process, NodeView.process, hk.nodeIncarnation, hk.endpoint]
  | leaves _ _ _ h' hleft => cases h'.symm.trans hp'; exact absurd hactive hleft
  | activates pg pg'' n₀ node d atMs completions hp h' hne _ _ serves known observed hcommand _
      htime respects =>
    cases h'.symm.trans hp'
    cases serves.primary.symm.trans hprimary
    cases serves.known.symm.trans hn'
    refine ⟨atMs, completions, hcommand, fun process deadline hcovered hdiffers => ?_⟩
    cases hcovered with
    | past m hm hf =>
      obtain ⟨m', hm', hle⟩ := h.timestamp m hm
      cases hm'.symm.trans htime
      exact hf.mono hle le_rfl
    | active pg₀ _ _ _ hp₀ hactive₀ => cases hp₀.symm.trans hp; exact absurd hactive₀ hne
    | fenced pg₀ previous hp₀ _ hprevious hprocess hle =>
      cases hp₀.symm.trans hp
      rcases respects previous hprevious with hsame | hf
      · exact absurd (hprocess.symm.trans hsame) hdiffers
      · exact hf.mono le_rfl hle
    | lost _ _ _ _ _ _ _ unseen => exact absurd (unseen n _ _ known observed) (lt_irrefl _)

end Commands

end Argmin.ControlPlane
