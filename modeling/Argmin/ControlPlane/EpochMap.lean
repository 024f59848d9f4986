import Argmin.ControlPlane.ProofChain
import Argmin.ControlPlane.SingleAuthority

/-!
# One epoch, one map

Nodes and frontends take the cluster epoch as the name of a cluster map.  This file says what one
command does to the epoch and to the map: an arm either leaves the map as it is, or it advances
the epoch once (`Moves`), and only then does the state differ in anything that a route or a node
process is known by.

* `outcome_of_applyArm` — the shape of every accepted command: the moved state, with the history
  recorded when the command changed something;
* `PgControlRecord.TransferBelow` — the destination epoch of a metadata transfer is not ahead of
  the current epoch (`Frame.transfers`);
* `one_epoch_one_map` — along every run of commands and restarts the epoch, the authority
  incarnation and the committed time do not go back, and states of one epoch have one map.

What a primary reports while its PG stays Active (`withoutProgress`) is no part of the map.
-/

namespace Argmin.ControlPlane

open Fallible TreeMap
open Std (ExtTreeMap)

variable {state : PgState}

variable {command : ControlPlaneCommand}
  {actingSet : List NodeId} {nodeId : NodeId}

/-! ### Transfer markers -/

/-- A transfer marker is carried only while peering, over a proof floor of an epoch below
`bound`. -/
def PgControlRecord.TransferBelow (bound : Nat) (record : PgControlRecord) : Prop :=
  record.peeringMetadataTransfer.isSome → record.state = .peering ∧
    record.peeringMetadataProofFloor.isSome ∧
    ∃ floorEpoch, record.peeringMetadataProofFloorEpoch = some floorEpoch ∧ floorEpoch < bound

def ClusterControlSnapshot.TransfersBelow (bound : Nat) (s : ClusterControlSnapshot) : Prop :=
  ∀ (pgId : PgId) (record : PgControlRecord), s.pgs[pgId]? = some record →
    record.TransferBelow bound

section Transfers

variable {bound : Nat} {s t : ClusterControlSnapshot} {record : PgControlRecord}

theorem PgControlRecord.TransferBelow.of_none (h : record.peeringMetadataTransfer = none) :
    record.TransferBelow bound := by
  intro hsome
  rw [h] at hsome
  cases hsome

theorem PgControlRecord.TransferBelow.advanceActiveProof (h : record.TransferBelow bound)
    (nodeId : NodeId) (observedEpoch : ClusterEpoch) (restarted : Bool)
    (observation : NodePgHeartbeatObservation) :
    (record.advanceActiveProof nodeId observedEpoch restarted observation).TransferBelow bound := by
  unfold PgControlRecord.advanceActiveProof
  split
  · exact h
  · split
    · exact h
    · exact h

theorem PgControlRecord.TransferBelow.setState (h : record.TransferBelow bound)
    (hne : record.state ≠ state) (lease : Option PreviousPrimaryLease) :
    (record.setState state lease).TransferBelow bound := by
  refine .of_none ?_
  by_cases hstate : state = .peering
  · -- a record that is not peering carries no transfer marker
    have hnone : record.peeringMetadataTransfer = none := by
      by_contra hsome
      exact hne ((h (Option.isSome_iff_ne_none.mpr hsome)).1.trans hstate.symm)
    simp [PgControlRecord.setState, hnone]
  · simp [PgControlRecord.setState, hstate]

theorem PgControlRecord.TransferBelow.changeActingSet (h : record.TransferBelow bound)
    {floor : Option PgMetadataProof × Option ClusterEpoch × Bool}
    (hfloor : actingSetChangeFloor s record actingSet = .ok floor)
    (lease : Option PreviousPrimaryLease) :
    (record.changeActingSet actingSet lease floor).TransferBelow bound := by
  intro hsome
  have hkept : record.state = .peering ∧ record.peeringMetadataTransfer.isSome := by
    simp only [PgControlRecord.changeActingSet] at hsome
    split at hsome
    · next hkeep => simpa using hkeep
    · cases hsome
  obtain ⟨hpeering, hproof, floorEpoch, hfloorEpoch, hlt⟩ := h hkept.2
  obtain ⟨proof, hproof⟩ := Option.isSome_iff_exists.mp hproof
  simp only [actingSetChangeFloor, hpeering, hproof, bind_eq_ok, pure_eq_ok] at hfloor
  obtain ⟨-, -, rfl⟩ := hfloor
  exact ⟨rfl, rfl, floorEpoch, hfloorEpoch, hlt⟩

/-- A new marker is placed over the epoch of the command. -/
theorem PgEdit.transferBelow {record' : PgControlRecord} {pgId : PgId}
    (h : PgEdit s command pgId record record')
    (hbound : s.clusterEpoch < bound) (hbelow : record.TransferBelow bound) :
    record'.TransferBelow bound := by
  cases h with
  | kept => exact hbelow
  | advanceActiveProof nodeId restarted observation => exact hbelow.advanceActiveProof _ _ _ _
  | proofEpoch => exact hbelow
  | markPeering => exact .of_none rfl
  | changeActingSet hfloor lease => exact hbelow.changeActingSet hfloor lease
  | installTransfer => exact fun _ => ⟨rfl, rfl, s.clusterEpoch, rfl, hbound⟩
  | fenceActive => exact .of_none rfl
  | fencePeering htransfer => exact .of_none htransfer
  | beginReplacement => exact .of_none rfl
  | setState _ hne lease => exact hbelow.setState hne lease
  | activate => exact .of_none rfl

theorem ClusterControlSnapshot.TransfersBelow.of_pgs_eq (h : s.TransfersBelow bound)
    (hpgs : t.pgs = s.pgs) : t.TransfersBelow bound := by
  intro pgId record hrecord
  exact h pgId record (hpgs ▸ hrecord)

/-- What is no part of the progress of an Active PG decides. -/
theorem SameMap.transfersBelow (hsame : SameMap s t) (h : s.TransfersBelow bound) :
    t.TransfersBelow bound := by
  intro pgId record hrecord
  have heq := hsame.pgs pgId
  rw [hrecord, Option.map_some, eq_comm, Option.map_eq_some_iff] at heq
  obtain ⟨old, hold, heq⟩ := heq
  have hbelow : old.withoutProgress.TransferBelow bound := h pgId old hold
  rw [heq] at hbelow
  exact hbelow

end Transfers

/-! ### What every part of a command leaves alone -/

/-- The state has changed without a new epoch: the incarnation and the history are the same, the
committed time has not gone back, no node is gone, and a transfer marker that is new is placed
over the current epoch. -/
structure Frame (s t : ClusterControlSnapshot) : Prop where
  incarnation : t.authorityIncarnation = s.authorityIncarnation
  epoch : t.clusterEpoch = s.clusterEpoch
  history : t.history = s.history
  timestamp : ∀ earlier ∈ s.maxCommittedTimestampMs,
    ∃ later ∈ t.maxCommittedTimestampMs, earlier ≤ later
  nodes : ∀ nodeId, nodeId ∈ s.nodes → nodeId ∈ t.nodes
  transfers : s.TransfersBelow (s.clusterEpoch + 1) → t.TransfersBelow (s.clusterEpoch + 1)

namespace Frame

variable {s t u : ClusterControlSnapshot}

theorem refl (s : ClusterControlSnapshot) : Frame s s :=
  ⟨rfl, rfl, rfl, fun earlier h => ⟨earlier, h, le_rfl⟩, fun _ h => h, fun h => h⟩

theorem trans (h : Frame s t) (h' : Frame t u) : Frame s u where
  incarnation := h'.incarnation.trans h.incarnation
  epoch := h'.epoch.trans h.epoch
  history := h'.history.trans h.history
  timestamp := by
    intro earlier hearlier
    obtain ⟨middle, hmiddle, hle⟩ := h.timestamp earlier hearlier
    obtain ⟨later, hlater, hle'⟩ := h'.timestamp middle hmiddle
    exact ⟨later, hlater, hle.trans hle'⟩
  nodes := fun nodeId hn => h'.nodes nodeId (h.nodes nodeId hn)
  transfers := fun hs => h.epoch ▸ h'.transfers (h.epoch ▸ h.transfers hs)

/-- A change of other fields. -/
theorem of_eq (hincarnation : t.authorityIncarnation = s.authorityIncarnation)
    (hepoch : t.clusterEpoch = s.clusterEpoch) (hhistory : t.history = s.history)
    (htimestamp : t.maxCommittedTimestampMs = s.maxCommittedTimestampMs)
    (hnodes : t.nodes = s.nodes) (hpgs : t.pgs = s.pgs) : Frame s t :=
  ⟨hincarnation, hepoch, hhistory, fun earlier h => ⟨earlier, htimestamp ▸ h, le_rfl⟩,
    fun _ h => hnodes ▸ h, fun h => h.of_pgs_eq hpgs⟩

theorem retireTransition (s : ClusterControlSnapshot) (pgId : PgId) :
    Frame s (s.retireTransition pgId) := by
  unfold ClusterControlSnapshot.retireTransition
  split
  · exact .refl s
  · exact .of_eq rfl rfl rfl rfl rfl rfl

end Frame

section Edits

variable {s t u : ClusterControlSnapshot}

theorem NodeSlot.isSome {slot slot' : Option NodeControlRecord}
    (h : NodeSlot nodeId slot slot') (hsome : slot.isSome) : slot'.isSome := by
  cases h with
  | absent => cases hsome
  | new => cases hsome
  | kept => rfl

theorem Edit.frame (h : Edit s command t u) (hle : s.clusterEpoch ≤ t.clusterEpoch) :
    Frame t u := by
  cases h with
  | timestamp timestampMs h =>
    subst h
    refine { Frame.refl t with timestamp := fun earlier h => ⟨_, rfl, ?_⟩ }
    rw [Option.mem_def.mp h]
    exact Nat.le_max_left ..
  | aside h _ => exact h ▸ .of_eq rfl rfl rfl rfl rfl rfl
  | nodes h slots =>
    rw [h]
    refine { Frame.refl t with nodes := fun nodeId hn => ?_ }
    rw [← ExtTreeMap.isSome_getElem?_iff_mem] at hn ⊢
    exact (slots nodeId).isSome hn
  | pgs h slots =>
    rw [h]
    refine { Frame.refl t with transfers := fun hs pgId record' hrecord' => ?_ }
    have hslot := slots pgId
    rw [show u.pgs[pgId]? = some record' from hrecord'] at hslot
    cases hold : t.pgs[pgId]? with
    | none =>
      rw [hold] at hslot
      cases hslot with
      | new => exact .of_none rfl
    | some record =>
      rw [hold] at hslot
      cases hslot with
      | edit h => exact h.transferBelow (Nat.lt_succ_of_le hle) (hs pgId record hold)
  | retire pgId h => exact h ▸ .retireTransition t pgId
  | transition pgId f h => exact h ▸ .of_eq rfl rfl rfl rfl rfl rfl
  | begins _ h => exact h ▸ .of_eq rfl rfl rfl rfl rfl rfl

theorem Edits.frame (h : Edits s command t u) (hle : s.clusterEpoch ≤ t.clusterEpoch) :
    Frame t u := by
  induction h with
  | refl => exact .refl t
  | tail _ hedit ih => exact ih.trans (hedit.frame (ih.epoch ▸ hle))

end Edits

/-! ### Moves -/

/-- What a command does before the history is recorded: it keeps the map, or it advances the epoch
once. -/
inductive Moves (s t : ClusterControlSnapshot) : Prop
  | keeps (frame : Frame s t) (same : SameMap s t)
  | bumps {changed bumped : ClusterControlSnapshot} (bump : changed.bumpEpoch = .ok bumped)
      (before : Frame s changed) (after : Frame bumped t) (same : SameMap bumped t)

/-- The result of a command: the moved state, with its history recorded when `changed` is set, as
it is whenever the epoch advances. -/
def Outcome (s : ClusterControlSnapshot) (a : AppliedControlPlaneCommand) : Prop :=
  ∃ next response changed, a = appliedControlPlaneCommand s next response changed ∧
    Moves s next ∧ (next.clusterEpoch ≠ s.clusterEpoch → changed = true)

section Outcomes

variable {s next changed bumped : ClusterControlSnapshot}

theorem bumpEpoch_epoch (h : changed.bumpEpoch = .ok bumped) :
    bumped.clusterEpoch = changed.clusterEpoch + 1 := by
  obtain ⟨-, rfl⟩ := bumpEpoch_eq_ok h
  rfl

/-- The epoch after a move. -/
theorem Moves.epoch (h : Moves s next) : next.clusterEpoch = s.clusterEpoch ∧ SameMap s next ∨
    next.clusterEpoch = s.clusterEpoch + 1 := by
  cases h with
  | keeps frame same => exact .inl ⟨frame.epoch, same⟩
  | bumps bump before after same =>
    exact .inr (by rw [after.epoch, bumpEpoch_epoch bump, before.epoch])

end Outcomes

/-! ### Commands -/

section Commands

variable {s next : ClusterControlSnapshot} {a : AppliedControlPlaneCommand}

/-- The changes after the epoch has advanced. -/
theorem Edits.frame_after {changed bumped : ClusterControlSnapshot}
    (bump : changed.bumpEpoch = .ok bumped) (before : Edits s command s changed)
    (after : Edits s command bumped next) : Frame bumped next := by
  refine after.frame ?_
  rw [bumpEpoch_epoch bump, (before.frame le_rfl).epoch]
  exact Nat.le_succ _

theorem Moved.moves (h : Moved s command next) : Moves s next := by
  cases h with
  | keeps edits same => exact .keeps (edits.frame le_rfl) same
  | bumps bump before after same =>
    exact .bumps bump (before.frame le_rfl) (Edits.frame_after bump before after) same

/-- **Every accepted command keeps the map or advances the epoch once.** -/
theorem outcome_of_applyArm (h : applyArm s command = .ok a) :
    Outcome s a := by
  have hkeeps := unchanged_of_applyArm h
  obtain ⟨next, response, flag, rfl, hmoved⟩ := (arm_of_applyArm h).moved
  refine ⟨next, response, flag, rfl, hmoved.moves, fun hepoch => ?_⟩
  by_contra hflag
  obtain rfl : flag = false := Bool.eq_false_iff.mpr hflag
  have hsame : next = s := hkeeps rfl
  exact hepoch (hsame ▸ rfl)

end Commands

/-! ### Runs -/

inductive ControlPlaneEvent
  | command (command : ControlPlaneCommand)
  | restart

/-- A command is accepted, or the authority is reopened from its snapshot. -/
def controlPlaneStep (s : ClusterControlSnapshot) :
    ControlPlaneEvent → Option ClusterControlSnapshot
  | .command command => acceptedCommand s command
  | .restart =>
    match SingleAuthorityControlPlane.reopen s with
    | .ok reopened => some reopened.snapshot
    | .error _ => none

/-- `t` comes after `s`: nothing that orders snapshots has gone back, and a snapshot of the same
epoch has the same map. -/
structure ClusterControlSnapshot.Precedes (s t : ClusterControlSnapshot) : Prop where
  incarnation : s.authorityIncarnation ≤ t.authorityIncarnation
  timestamp : ∀ earlier ∈ s.maxCommittedTimestampMs, ∃ later ∈ t.maxCommittedTimestampMs,
    earlier ≤ later
  epoch : s.clusterEpoch ≤ t.clusterEpoch
  same : t.clusterEpoch = s.clusterEpoch → SameMap s t

section Runs

variable {s t u : ClusterControlSnapshot}

theorem ClusterControlSnapshot.Precedes.refl (s : ClusterControlSnapshot) : s.Precedes s :=
  ⟨le_rfl, fun earlier h => ⟨earlier, h, le_rfl⟩, le_rfl, fun _ => .refl s⟩

theorem ClusterControlSnapshot.Precedes.trans (h : s.Precedes t) (h' : t.Precedes u) :
    s.Precedes u where
  incarnation := h.incarnation.trans h'.incarnation
  timestamp := fun earlier hearlier => by
    obtain ⟨middle, hmiddle, hle⟩ := h.timestamp earlier hearlier
    obtain ⟨later, hlater, hle'⟩ := h'.timestamp middle hmiddle
    exact ⟨later, hlater, hle.trans hle'⟩
  epoch := h.epoch.trans h'.epoch
  same := fun heq => by
    have hmiddle : t.clusterEpoch = s.clusterEpoch := le_antisymm (heq ▸ h'.epoch) h.epoch
    exact (h.same hmiddle).trans (h'.same (heq.trans hmiddle.symm))

theorem Frame.precedes (h : Frame s t) (hsame : SameMap s t) : s.Precedes t :=
  ⟨h.incarnation.ge, h.timestamp, h.epoch.ge, fun _ => hsame⟩

theorem Moves.precedes (h : Moves s t) : s.Precedes t := by
  cases h with
  | keeps frame same => exact frame.precedes same
  | bumps bump before after same =>
    have hepoch := bumpEpoch_epoch bump
    obtain ⟨-, rfl⟩ := bumpEpoch_eq_ok bump
    have hlater : t.clusterEpoch = s.clusterEpoch + 1 := by
      rw [after.epoch, hepoch, before.epoch]
    refine ⟨?_, fun earlier hearlier => ?_, hlater ▸ Nat.le_succ _, fun heq => ?_⟩
    · exact (after.incarnation.trans before.incarnation).ge
    · obtain ⟨middle, hmiddle, hle⟩ := before.timestamp earlier hearlier
      obtain ⟨later, hlater, hle'⟩ := after.timestamp middle hmiddle
      exact ⟨later, hlater, hle.trans hle'⟩
    · exact absurd (hlater.symm.trans heq) (Nat.succ_ne_self _)

/-- Recording the history changes nothing else. -/
theorem precedes_recordHistoryFrom (s previous : ClusterControlSnapshot) :
    s.Precedes (s.recordHistoryFrom previous) :=
  ⟨le_rfl, fun earlier h => ⟨earlier, h, le_rfl⟩, le_rfl, fun _ => .of_eq rfl rfl⟩

theorem acceptedCommand_outcome
    (h : acceptedCommand s command = some t) : ∃ a, Outcome s a ∧ a.snapshot = t := by
  obtain ⟨a, ha, rfl⟩ := acceptedCommand_eq_some h
  simp only [applyControlPlaneCommand, bind_eq_ok, pure_eq_ok] at ha
  obtain ⟨_, harm, -, -, rfl⟩ := ha
  exact ⟨_, outcome_of_applyArm harm, rfl⟩

/-- One command: the state precedes the next, and the epoch advances by at most one. -/
theorem precedes_acceptedCommand (h : acceptedCommand s command = some t) : s.Precedes t ∧
      (t.clusterEpoch = s.clusterEpoch ∨ t.clusterEpoch = s.clusterEpoch + 1) := by
  obtain ⟨a, ⟨next, response, changed, rfl, hmoves, -⟩, rfl⟩ := acceptedCommand_outcome h
  have hepoch : next.clusterEpoch = s.clusterEpoch ∨ next.clusterEpoch = s.clusterEpoch + 1 :=
    hmoves.epoch.imp_left And.left
  unfold appliedControlPlaneCommand
  split
  · exact ⟨hmoves.precedes.trans (precedes_recordHistoryFrom next s), hepoch⟩
  · exact ⟨hmoves.precedes, hepoch⟩

/-- What a restart makes of the snapshot it reads. -/
theorem controlPlaneStep_restart (h : controlPlaneStep s .restart = some t) :
    ∃ bumped, bumpAuthorityAfterRestart s = .ok bumped ∧ t = bumped.recordHistoryFrom s ∧
      validatePublicationInvariants t = .ok () := by
  simp only [controlPlaneStep] at h
  split at h
  · next reopened hreopened =>
    simp only [SingleAuthorityControlPlane.reopen, bind_eq_ok, pure_eq_ok] at hreopened
    obtain ⟨bumped, hbumped, _, hvalid, rfl⟩ := hreopened
    cases h
    exact ⟨bumped, hbumped, rfl, mapError_eq_ok.mp hvalid⟩
  · cases h

theorem precedes_restart (h : bumpAuthorityAfterRestart s = .ok t) : s.Precedes t := by
  simp only [bumpAuthorityAfterRestart, nextEpoch, bind_eq_ok, okOr_eq_ok, checkedAdd_eq_some,
    pure_eq_ok] at h
  obtain ⟨incarnation, ⟨rfl, -⟩, epoch, ⟨rfl, -⟩, rfl⟩ := h
  exact ⟨Nat.le_succ _, fun earlier h => ⟨earlier, h, le_rfl⟩, Nat.le_succ _,
    fun heq => absurd heq (Nat.succ_ne_self _)⟩

theorem precedes_controlPlaneStep {event : ControlPlaneEvent}
    (h : controlPlaneStep s event = some t) : s.Precedes t := by
  cases event with
  | command command => exact (precedes_acceptedCommand h).1
  | restart =>
    obtain ⟨bumped, hbumped, rfl, -⟩ := controlPlaneStep_restart h
    exact (precedes_restart hbumped).trans (precedes_recordHistoryFrom bumped s)

/-- **One epoch, one map.**  Along every run of accepted commands and restarts the cluster epoch,
the authority incarnation and the committed time do not decrease; an accepted command raises the
epoch by zero or one; and any two snapshots of the run with the same epoch have the same PG
records, up to the progress reported for Active PGs, and the same incarnation and endpoint of every
node. -/
theorem one_epoch_one_map {Ok : ClusterControlSnapshot → ControlPlaneEvent → Prop}
    {past : List ClusterControlSnapshot} (h : Run controlPlaneStep Ok s past t) :
    ((t :: past).Pairwise fun later earlier => earlier.Precedes later) ∧
      ∀ command next, controlPlaneStep t (.command command) = some next →
        next.clusterEpoch = t.clusterEpoch ∨ next.clusterEpoch = t.clusterEpoch + 1 := by
  refine ⟨?_, fun command next hnext => (precedes_acceptedCommand hnext).2⟩
  exact h.pairwise (I := fun _ => True) trivial (fun _ _ _ => trivial) (fun _ => .refl _)
    fun hprior _ _ hnext => hprior.trans (precedes_controlPlaneStep hnext)

/-- A PG becomes Active, its primary reports progress within the epoch, and the authority is
restarted. -/
def restartEvents : List ControlPlaneEvent :=
  activationCommands.map .command ++
    [.command (reportProof 4 3 (some (.active, ⟨6, ⟨1, 8⟩, ⟨1, 9⟩⟩))), .restart]

theorem one_epoch_one_map_over_restart :
    ∃ past t, Run controlPlaneStep (fun _ _ => True) .empty past t ∧
      (t :: past).map (·.clusterEpoch) = [5, 4, 4, 3, 3, 2, 1] ∧
      (t :: past).map (·.authorityIncarnation) = [2, 1, 1, 1, 1, 1, 1] ∧
      (t :: past).Pairwise fun later earlier => earlier.Precedes later := by
  refine exists_run_of_replay_imp restartEvents (P := fun past t =>
    (t :: past).map (·.clusterEpoch) = [5, 4, 4, 3, 3, 2, 1] ∧
    (t :: past).map (·.authorityIncarnation) = [2, 1, 1, 1, 1, 1, 1]) (by decide +kernel) ?_
  rintro past t hrun ⟨hepochs, hincarnations⟩
  exact ⟨hepochs, hincarnations, (one_epoch_one_map hrun).1⟩

end Runs

end Argmin.ControlPlane
