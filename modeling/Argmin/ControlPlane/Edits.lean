import Argmin.ControlPlane.StateMachine

/-!
# What a command is made of

The arms of the state machine share a small number of changes: a PG takes a new record, a node
reports, a transition is retired, the committed time advances.  `Edit` lists them with what was
checked before each, and every accepted command is a sequence of such changes, with at most one
advance of the epoch between them.

* `PgEdit`, `NodeSlot` — what becomes of one PG and of one node;
* `Edits` — several changes within one command;
* `SameMap` — the snapshots have one map: what a primary reports while its PG stays Active
  (`withoutProgress`) is no part of it;
* `arm_of_applyArm` — the shape of every accepted command.

What holds along commands is shown for one `Edit` and then for several.
-/

namespace Argmin.ControlPlane

open Fallible TreeMap ClusterControlSnapshot NodeControlRecord PgControlRecord
open Std (ExtTreeMap)

variable {s t u previous : ClusterControlSnapshot} {c : ControlPlaneCommand}
  {epochChanged fenceNode : Bool} {pendingIds : List PgId}
  {expireAtMs nowMs readyAtMs heartbeatAtMs leaseDeadlineMs : Nat}
  {transition : Option UnavailablePgTransitionMutationBinding} {state : PgState}
  {actingSet : List NodeId} {ready : List ReadyPgPeeringCompletion} {heartbeat : NodeHeartbeat}
  {nodeId : NodeId} {authority : Option LeaseHorizonAuthorityBinding}
  {f : PgControlRecord → PgControlRecord} {pgId : PgId}

/-! ### What an accepted command has checked -/

section Checks

variable {next : ClusterControlSnapshot} {a : AppliedControlPlaneCommand}
  {body : BeginUnavailableTransition} {record : PgControlRecord} {primary : NodeId}
  {nodeIncarnation completedAtMs : Nat} {expected : Option ExpectedPgPeeringCompletion}

theorem bumpEpoch_eq_ok (h : s.bumpEpoch = .ok next) :
    s.clusterEpoch + 1 < 2 ^ 64 ∧ next = { s with
      clusterEpoch := s.clusterEpoch + 1
      nodes := s.nodes.map fun _ record => { record with pgObservations := ∅ } } := by
  simp only [bumpEpoch, nextEpoch, bind_eq_ok, okOr_eq_ok,
    checkedAdd_eq_some, pure_eq_ok] at h
  obtain ⟨epoch, ⟨rfl, hlt⟩, rfl⟩ := h
  exact ⟨hlt, rfl⟩

theorem validateHeartbeat_eq_ok {record : NodeControlRecord}
    (h : validateHeartbeat s heartbeat heartbeatAtMs leaseDeadlineMs = .ok record) :
    s.nodes[heartbeat.nodeId]? = some record ∧
      (∀ current, record.leaseDeadlineMs = some current → current ≤ leaseDeadlineMs) ∧
      heartbeat.observedEpoch ≤ s.clusterEpoch ∧
      (∀ maxCommitted, s.maxCommittedTimestampMs = some maxCommitted →
        maxCommitted ≤ heartbeatAtMs) := by
  simp only [validateHeartbeat, heartbeatLeaseDeadline,
    validateServingTimestamp, bind_eq_ok, failIf_eq_ok, okOr_eq_ok,
    onSome_eq_ok, pure_eq_ok, exists_const] at h
  obtain ⟨-, -, node, hn, committed, ⟨hts, -⟩, hlease, -, -, -, hepoch, rfl⟩ := h
  exact ⟨hn, fun current hc => not_lt.mp (hlease current hc), not_lt.mp hepoch,
    fun m hm => not_lt.mp (hts m hm)⟩

theorem forOrdered_mem {α : Type} {nodeId : α → NodeId} {message : String}
    {check : α → Except ControlPlaneError Unit} {previous : Option NodeId} {entries : List α}
    (h : forOrdered nodeId message check previous entries = .ok ()) :
    ∀ entry ∈ entries, check entry = .ok () := by
  induction entries generalizing previous with
  | nil => exact fun _ hm => nomatch hm
  | cons first rest ih =>
    simp only [forOrdered, bind_eq_ok, failIf_eq_ok, exists_const] at h
    obtain ⟨-, _, hfirst, hrest⟩ := h
    exact List.forall_mem_cons.mpr ⟨hfirst, ih hrest⟩

@[simp]
theorem retireTransition_pgs : (s.retireTransition pgId).pgs = s.pgs := by
  unfold ClusterControlSnapshot.retireTransition
  split <;> rfl

/-- An accepted begin command starts from the PG's record and carries the authorization that the
snapshot gives. -/
theorem validateBegin_eq_ok (h : validateBegin s body = .ok record) :
    s.pgs[body.pgId]? = some record ∧
      unavailablePgTransitionBeginAuthorization s record body.destinationActingSet
        body.requested.unavailableNode body.beginAtMs = .ok body.beginAuthorization := by
  simp only [validateBegin, bind_eq_ok, failIf_eq_ok, okOr_eq_ok, pure_eq_ok, exists_const, not_or,
    not_not] at h
  obtain ⟨-, -, -, -, -, -, -, -, -, -, -, -, -, -, -, found, hfound, -, -, -, -, authorization,
    hauthorization, ⟨rfl, -⟩, rfl⟩ := h
  exact ⟨hfound, hauthorization⟩

/-- What an accepted completion of a PG that was not Active has checked. -/
structure CompletesPeering (s : ClusterControlSnapshot) (record : PgControlRecord) (pgId : PgId)
    (primary : NodeId) (nodeIncarnation completedAtMs : Nat)
    (expected : Option ExpectedPgPeeringCompletion) (proof : PgMetadataProof) : Prop where
  peering : record.state = .peering
  unfenced : record.metadataTransferFenced = false
  lease : validatePreviousPrimaryLease s record pgId primary nodeIncarnation completedAtMs = .ok ()
  expectedEpoch : ∀ e, expected = some e → e.activeMetadataProofEpoch = s.clusterEpoch
  expectedProof : ∀ e, expected = some e → proof = e.activeMetadataProof
  floor : validateConvergedPeeringMetadataProofFloor s.clusterEpoch pgId primary
    record.peeringMetadataProofFloorContext record.peeringMetadataTransfer proof = .ok ()

theorem validatePeeringToActive_eq_ok {proof : PgMetadataProof}
    (h : validatePeeringToActive s record pgId primary nodeIncarnation completedAtMs expected =
      .ok proof) :
    CompletesPeering s record pgId primary nodeIncarnation completedAtMs expected proof := by
  simp only [validatePeeringToActive, bind_eq_ok, failIf_eq_ok, onSome_eq_ok, pure_eq_ok,
    exists_const] at h
  obtain ⟨-, -, hstate, hfenced, _, hlease, hepoch, observed, -, hproof, _, hfloor, rfl⟩ := h
  exact ⟨not_not.mp hstate, by simpa using hfenced, hlease, fun e he => not_not.mp (hepoch e he),
    fun e he => not_not.mp (hproof e he), hfloor⟩

/-- An accepted completion: the PG is known, the primary acts for it and serves, and the PG is
either Active under this primary already or completes its peering. -/
theorem validatePgPeeringCompletion_eq_ok {validated : ValidatedPgPeeringCompletion}
    (h : validatePgPeeringCompletion s pgId primary nodeIncarnation completedAtMs expected =
      .ok validated) :
    ∃ record, s.pgs[pgId]? = some record ∧ primary ∈ record.actingSet ∧
      authorizeNodeServiceForSnapshot s primary nodeIncarnation s.clusterEpoch completedAtMs =
        .ok () ∧
      (record.state = .active ∧ record.activePrimary = some primary ∧
          validated = .alreadyActive ∨
        ∃ proof, validated = .complete proof s.clusterEpoch ∧
          CompletesPeering s record pgId primary nodeIncarnation completedAtMs expected proof) := by
  simp only [validatePgPeeringCompletion, bind_eq_ok, failIf_eq_ok, okOr_eq_ok,
    exists_const] at h
  obtain ⟨record, hr, hacts, _, hauth, recovery, -, h⟩ := h
  refine ⟨record, hr, not_not.mp hacts, hauth, ?_⟩
  split at h
  · cases h
  · split at h
    · next hactive =>
      split at h
      · next hprimary =>
        cases h
        exact .inl ⟨hactive, hprimary, rfl⟩
      · cases h
    · simp only [bind_eq_ok, pure_eq_ok] at h
      obtain ⟨proof, hproof, rfl⟩ := h
      exact .inr ⟨proof, rfl, validatePeeringToActive_eq_ok hproof⟩

/-- A readiness is about a PG that is peering. -/
theorem peering_of_payloadReadiness
    {transition : UnavailablePgPlacementTransition} {readiness : UnavailablePgPayloadReadiness}
    (h : validateUnavailablePgPayloadReadiness s transition readiness = .ok ()) :
    ∃ record, s.pgs[readiness.pgId]? = some record ∧ record.state = .peering := by
  simp only [validateUnavailablePgPayloadReadiness, bind_eq_ok, failIf_eq_ok, okOr_eq_ok,
    exists_const, not_or, not_not] at h
  obtain ⟨⟨hid, -⟩, record, hr, ⟨hpeering, -⟩, -⟩ := h
  exact ⟨record, hid ▸ hr, hpeering⟩

theorem applyControlPlaneCommand_eq_ok (h : applyControlPlaneCommand s c = .ok a) :
    applyArm s c = .ok a ∧ validatePublicationInvariants a.snapshot = .ok () := by
  simp only [applyControlPlaneCommand, bind_eq_ok, pure_eq_ok] at h
  obtain ⟨applied, harm, _, hvalid, rfl⟩ := h
  exact ⟨harm, mapError_eq_ok.mp hvalid⟩

end Checks

/-! ### The map of a snapshot -/

/-- A PG record without the proof that the primary of an Active PG goes on to report. -/
def PgControlRecord.withoutProgress (record : PgControlRecord) : PgControlRecord :=
  { record with
    activeMetadataProof := none
    activeMetadataProofEpoch := none
    activeMetadataLogEpoch := none
    activeMetadataTransferImported := false }

/-- Incarnation and endpoint: what a node is addressed by. -/
def NodeControlRecord.identity (record : NodeControlRecord) : Nat × String :=
  (record.nodeIncarnation, record.endpoint)

/-- The snapshots have the same PG records up to reported progress, and the same node
identities. -/
structure SameMap (s t : ClusterControlSnapshot) : Prop where
  pgs : ∀ pgId : PgId, t.pgs[pgId]?.map PgControlRecord.withoutProgress =
    s.pgs[pgId]?.map PgControlRecord.withoutProgress
  nodes : ∀ nodeId : NodeId, t.nodes[nodeId]?.map NodeControlRecord.identity =
    s.nodes[nodeId]?.map NodeControlRecord.identity

namespace SameMap

variable {s t u : ClusterControlSnapshot}

theorem refl (s : ClusterControlSnapshot) : SameMap s s :=
  ⟨fun _ => rfl, fun _ => rfl⟩

theorem trans (h : SameMap s t) (h' : SameMap t u) : SameMap s u :=
  ⟨fun pgId => (h'.pgs pgId).trans (h.pgs pgId), fun nodeId =>
    (h'.nodes nodeId).trans (h.nodes nodeId)⟩

theorem of_eq (hpgs : t.pgs = s.pgs) (hnodes : t.nodes = s.nodes) : SameMap s t :=
  ⟨fun _ => by rw [hpgs], fun _ => by rw [hnodes]⟩

variable (s)

theorem modifyNode (nodeId : NodeId) {f : NodeControlRecord → NodeControlRecord}
    (hf : ∀ record, s.nodes[nodeId]? = some record → (f record).identity = record.identity) :
    SameMap s (s.modifyNode nodeId f) := by
  refine ⟨fun _ => rfl, rel_modify (P := fun _ o n => n.map _ = o.map _) (fun _ _ => rfl) ?_⟩
  exact fun record hrecord => congrArg some (hf record hrecord)

theorem modifyPg (pgId : PgId)
    (hf : ∀ record, (f record).withoutProgress = record.withoutProgress) :
    SameMap s (s.modifyPg pgId f) := by
  refine ⟨rel_modify (P := fun _ o n => n.map _ = o.map _) (fun _ _ => rfl) ?_, fun _ => rfl⟩
  exact fun record _ => congrArg some (hf record)

theorem removeUnavailableNodeObservation (nodeId : NodeId) :
    SameMap s (s.removeUnavailableNodeObservation nodeId) :=
  .of_eq rfl rfl

theorem observeUnavailable (record : NodeControlRecord) (leaseDeadlineMs observedAtMs : Nat) :
    SameMap s (s.observeUnavailable record leaseDeadlineMs observedAtMs) :=
  .of_eq rfl rfl

variable {s}

theorem foldl {α : Type} {f : ClusterControlSnapshot → α → ClusterControlSnapshot}
    (hf : ∀ s a, SameMap s (f s a)) (items : List α) (s : ClusterControlSnapshot) :
    SameMap s (items.foldl f s) := by
  induction items generalizing s with
  | nil => exact .refl s
  | cons first rest ih => exact (hf s first).trans (ih _)

end SameMap

/-- What every round of a loop leaves alone, the loop leaves alone. -/
theorem foldl_same {σ α β : Type} (field : σ → β) {f : σ → α → σ} (entries : List α) (t : σ)
    (hf : ∀ t entry, field (f t entry) = field t) : field (entries.foldl f t) = field t := by
  induction entries generalizing t with
  | nil => rfl
  | cons entry rest ih => exact (ih _).trans (hf t entry)

/-! ### Changes -/

/-- A batch of completions names a proof of the PG with an epoch. -/
def ControlPlaneCommand.NamesProof (pgId : PgId) (proof : PgMetadataProof)
    (epoch : Option ClusterEpoch) : ControlPlaneCommand → Prop
  | .completeReadyPgPeerings _ ready => ∃ completion ∈ ready, completion.pgId = pgId ∧
      completion.activeMetadataProof = proof ∧ some completion.activeMetadataProofEpoch = epoch
  | _ => False

/-- What a command given at `s` makes of the record of the PG `pgId`. -/
inductive PgEdit (s : ClusterControlSnapshot) (c : ControlPlaneCommand) (pgId : PgId) :
    PgControlRecord → PgControlRecord → Prop
  | kept (record : PgControlRecord) : PgEdit s c pgId record record
  | advanceActiveProof (record : PgControlRecord) (nodeId : NodeId) (restarted : Bool)
      (observation : NodePgHeartbeatObservation) :
      PgEdit s c pgId record (record.advanceActiveProof nodeId s.clusterEpoch restarted observation)
  | proofEpoch {record : PgControlRecord} {epoch : Option ClusterEpoch}
      (hactive : record.state = .active) (h : epoch = some s.clusterEpoch ∨
        ∃ proof, record.activeMetadataProof = some proof ∧ c.NamesProof pgId proof epoch) :
      PgEdit s c pgId record { record with activeMetadataProofEpoch := epoch }
  | markPeering {record : PgControlRecord} (previous : ClusterControlSnapshot)
      (hne : record.state ≠ .peering) : PgEdit s c pgId record (record.markPeering previous)
  | changeActingSet {record : PgControlRecord} {actingSet : List NodeId}
      {floor : Option PgMetadataProof × Option ClusterEpoch × Bool}
      (hfloor : actingSetChangeFloor s record actingSet = .ok floor)
      (lease : Option PreviousPrimaryLease) :
      PgEdit s c pgId record (record.changeActingSet actingSet lease floor)
  | installTransfer {record : PgControlRecord} {floor : PgMetadataProof × Option ClusterEpoch}
      {transfer : PgMetadataTransferProof} {actingSet : List NodeId} {expected : ClusterEpoch}
      {transition : Option UnavailablePgTransitionMutationBinding}
      (hc : c = .setPgActingSetWithMetadataTransfer pgId actingSet transfer expected transition)
      (hfloor : transferFloor pgId record = .ok floor)
      (hproof : validateMetadataTransferProof s pgId record floor.1 floor.2 transfer = .ok ())
      (lease : Option PreviousPrimaryLease) (sourceNodeId : NodeId) :
      PgEdit s c pgId record
        (record.installTransfer actingSet lease transfer s.clusterEpoch sourceNodeId)
  | fenceActive {record : PgControlRecord} {source : PgMetadataProof}
      (hactive : record.state = .active)
      (hsource : validateAuthoritativeMetadataMigrationSource s record record.actingSet =
        .ok source)
      (lease : Option PreviousPrimaryLease) (deadline : Option Nat)
      (fenceEpoch : Option ClusterEpoch) :
      PgEdit s c pgId record (record.fenceActive lease (some source) deadline fenceEpoch)
  | fencePeering {record : PgControlRecord} (htransfer : record.peeringMetadataTransfer = none)
      (lease : Option PreviousPrimaryLease) (deadline : Option Nat)
      (fenceEpoch : Option ClusterEpoch) :
      PgEdit s c pgId record (record.fencePeering lease deadline fenceEpoch)
  | beginReplacement {record : PgControlRecord} {body : BeginUnavailableTransition}
      (h : validateBegin s body = .ok record) (lease : Option PreviousPrimaryLease) :
      PgEdit s c pgId record (record.beginReplacement body lease)
  | setState {record : PgControlRecord} {state : PgState}
      (hc : c = .setPgState pgId state) (hne : record.state ≠ state)
      (lease : Option PreviousPrimaryLease) : PgEdit s c pgId record (record.setState state lease)
  | activate {record : PgControlRecord} {primary : NodeId}
      {nodeIncarnation completedAtMs : Nat} {expected : Option ExpectedPgPeeringCompletion}
      {proof : PgMetadataProof}
      (h : CompletesPeering s record pgId primary nodeIncarnation completedAtMs expected proof)
      (logEpoch : ClusterEpoch) : PgEdit s c pgId record (record.activate primary proof logEpoch)

/-- What becomes of the entry of a PG. -/
inductive PgSlot (s : ClusterControlSnapshot) (c : ControlPlaneCommand) (pgId : PgId) :
    Option PgControlRecord → Option PgControlRecord → Prop
  | absent : PgSlot s c pgId none none
  | new (actingSet : List NodeId) : PgSlot s c pgId none (some (.new pgId actingSet))
  | edit {record record' : PgControlRecord} (h : PgEdit s c pgId record record') :
      PgSlot s c pgId (some record) (some record')

/-- What becomes of the entry of a node: it keeps its id. -/
inductive NodeSlot (nodeId : NodeId) :
    Option NodeControlRecord → Option NodeControlRecord → Prop
  | absent : NodeSlot nodeId none none
  | new {record : NodeControlRecord} (h : record.nodeId = nodeId) :
      NodeSlot nodeId none (some record)
  | kept {record record' : NodeControlRecord} (h : record'.nodeId = record.nodeId) :
      NodeSlot nodeId (some record) (some record')

/-- The command establishes the grant horizon of an authority. -/
def ControlPlaneCommand.BindsHorizon : ControlPlaneCommand → Prop
  | .recordNodeHeartbeat .. | .expireNodeHeartbeatLeases .. | .establishLeaseGrantHorizon .. => True
  | _ => False

/-- One change from `t` to `u` within a command that was given at `s`. -/
inductive Edit (s : ClusterControlSnapshot) (c : ControlPlaneCommand)
    (t u : ClusterControlSnapshot) : Prop
  | timestamp (timestampMs : Nat) (h : u = t.recordCommittedTimestamp timestampMs)
  | aside (h : u = { t with
      leaseGrantHorizon := u.leaseGrantHorizon
      unavailableNodeObservations := u.unavailableNodeObservations
      initialTopology := u.initialTopology })
      (hhorizon : u.leaseGrantHorizon = t.leaseGrantHorizon ∨ c.BindsHorizon)
  | nodes (h : u = { t with nodes := u.nodes })
      (slots : ∀ nodeId : NodeId, NodeSlot nodeId t.nodes[nodeId]? u.nodes[nodeId]?)
  | pgs (h : u = { t with pgs := u.pgs })
      (slots : ∀ pgId : PgId, PgSlot s c pgId t.pgs[pgId]? u.pgs[pgId]?)
  | retire (pgId : PgId) (h : u = t.retireTransition pgId)
  | transition (pgId : PgId)
      (f : UnavailablePgPlacementTransition → UnavailablePgPlacementTransition)
      (h : u = { t with
        unavailablePgPlacementTransitions := t.unavailablePgPlacementTransitions.modify pgId f })
      (hf : ∀ transition, (f transition).originalRequest = transition.originalRequest)
  | begins {body : BeginUnavailableTransition}
      (hc : c = .beginUnavailablePgPlacementTransition body) (h : u = { t with
        unavailablePgPlacementTransitions :=
          t.unavailablePgPlacementTransitions.insert body.pgId body.requested })

/-- Several changes. -/
def Edits (s : ClusterControlSnapshot) (c : ControlPlaneCommand) :
    ClusterControlSnapshot → ClusterControlSnapshot → Prop :=
  Relation.ReflTransGen (Edit s c)

theorem NodeSlot.refl (slot : Option NodeControlRecord) : NodeSlot nodeId slot slot := by
  cases slot with
  | none => exact .absent
  | some record => exact .kept rfl

theorem PgSlot.refl (slot : Option PgControlRecord) : PgSlot s c pgId slot slot := by
  cases slot with
  | none => exact .absent
  | some record => exact .edit (.kept record)

namespace Edit

theorem removeObservation (t : ClusterControlSnapshot) (nodeId : NodeId) :
    Edit s c t (t.removeUnavailableNodeObservation nodeId) :=
  .aside rfl (.inl rfl)

theorem observeUnavailable (t : ClusterControlSnapshot) (record : NodeControlRecord)
    (leaseDeadlineMs observedAtMs : Nat) :
    Edit s c t (t.observeUnavailable record leaseDeadlineMs observedAtMs) :=
  .aside rfl (.inl rfl)

theorem modifyNode (t : ClusterControlSnapshot) (nodeId : NodeId)
    {f : NodeControlRecord → NodeControlRecord}
    (hf : ∀ record, (f record).nodeId = record.nodeId) : Edit s c t (t.modifyNode nodeId f) := by
  refine .nodes rfl (rel_modify (fun _ => .refl) ?_)
  exact fun record _ => .kept (hf record)

theorem modifyPg (t : ClusterControlSnapshot) (pgId : PgId)
    (hf : ∀ record, t.pgs[pgId]? = some record → PgEdit s c pgId record (f record)) :
    Edit s c t (t.modifyPg pgId f) := by
  refine .pgs rfl (rel_modify (fun _ => .refl) ?_)
  exact fun record hrecord => .edit (hf record hrecord)

theorem markPgsPeeringForPgIds (t previous : ClusterControlSnapshot) (pgIds : List PgId) :
    Edit s c t (markPgsPeeringForPgIds t previous pgIds) := by
  refine .pgs rfl fun pgId => ?_
  rw [ControlPlane.markPgsPeeringForPgIds, ExtTreeMap.getElem?_map]
  cases t.pgs[pgId]? with
  | none => exact .absent
  | some record =>
    rw [Option.map_some]
    split
    · next hmark => exact .edit (.markPeering previous hmark.1)
    · exact .refl _

/-- The epoch is advanced between changes and the history is recorded after them; the horizon is
left to the commands that bind it. -/
theorem kept (h : Edit s c t u) : u.clusterEpoch = t.clusterEpoch ∧ u.history = t.history ∧
    (¬c.BindsHorizon → u.leaseGrantHorizon = t.leaseGrantHorizon) := by
  cases h with
  | timestamp timestampMs h => exact h ▸ ⟨rfl, rfl, fun _ => rfl⟩
  | aside h hhorizon => exact ⟨h ▸ rfl, h ▸ rfl, fun hc => hhorizon.resolve_right hc⟩
  | nodes h => exact h ▸ ⟨rfl, rfl, fun _ => rfl⟩
  | pgs h => exact h ▸ ⟨rfl, rfl, fun _ => rfl⟩
  | retire pgId h =>
    rw [h, retireTransition]
    split
    · exact ⟨rfl, rfl, fun _ => rfl⟩
    · exact ⟨rfl, rfl, fun _ => rfl⟩
  | transition pgId f h => exact h ▸ ⟨rfl, rfl, fun _ => rfl⟩
  | begins hc h => exact h ▸ ⟨rfl, rfl, fun _ => rfl⟩

end Edit

namespace Edits

theorem refl (t : ClusterControlSnapshot) : Edits s c t t :=
  Relation.ReflTransGen.refl

theorem single (h : Edit s c t u) : Edits s c t u :=
  Relation.ReflTransGen.single h

theorem trans {v : ClusterControlSnapshot} (h : Edits s c t u) (h' : Edits s c u v) :
    Edits s c t v :=
  Relation.ReflTransGen.trans h h'

theorem tail {v : ClusterControlSnapshot} (h : Edits s c t u) (h' : Edit s c u v) :
    Edits s c t v :=
  Relation.ReflTransGen.tail h h'

theorem foldl {α : Type} {f : ClusterControlSnapshot → α → ClusterControlSnapshot} {items : List α}
    (hf : ∀ t, ∀ a ∈ items, Edits s c t (f t a)) (t : ClusterControlSnapshot) :
    Edits s c t (items.foldl f t) := by
  induction items generalizing t with
  | nil => exact .refl t
  | cons first rest ih =>
    exact (hf t first List.mem_cons_self).trans
      (ih (fun t a ha => hf t a (List.mem_cons_of_mem _ ha)) _)

theorem kept (h : Edits s c t u) : u.clusterEpoch = t.clusterEpoch ∧ u.history = t.history ∧
    (¬c.BindsHorizon → u.leaseGrantHorizon = t.leaseGrantHorizon) := by
  induction h with
  | refl => exact ⟨rfl, rfl, fun _ => rfl⟩
  | tail _ hedit ih =>
    obtain ⟨hepoch, hhistory, hhorizon⟩ := hedit.kept
    exact ⟨hepoch.trans ih.1, hhistory.trans ih.2.1, fun hc => (hhorizon hc).trans (ih.2.2 hc)⟩

end Edits

/-! ### The shape of a command -/

/-- Changes that keep the map, or that come with one advance of the epoch; what follows the advance
keeps the map again. -/
inductive Moved (s : ClusterControlSnapshot) (c : ControlPlaneCommand)
    (next : ClusterControlSnapshot) : Prop
  | keeps (edits : Edits s c s next) (same : SameMap s next)
  | bumps {changed bumped : ClusterControlSnapshot} (bump : changed.bumpEpoch = .ok bumped)
      (before : Edits s c s changed) (after : Edits s c bumped next) (same : SameMap bumped next)

/-- A result whose flag says whether something changed. -/
inductive PlainArm (s : ClusterControlSnapshot) (c : ControlPlaneCommand) :
    AppliedControlPlaneCommand → Prop
  | unchanged {response : ControlPlaneCommandResponse} :
      PlainArm s c (appliedControlPlaneCommand s s response false)
  | timed {timestampMs : Nat} {response : ControlPlaneCommandResponse} :
      PlainArm s c (appliedControlPlaneCommand s (s.recordCommittedTimestamp timestampMs) response
        (s.timestampAdvances timestampMs))
  | compares {next : ClusterControlSnapshot} {response : ControlPlaneCommandResponse}
      (moved : Moved s c next) :
      PlainArm s c (appliedControlPlaneCommand s next response (decide (next ≠ s)))
  | bumps {changed bumped next : ClusterControlSnapshot} {response : ControlPlaneCommandResponse}
      (bump : changed.bumpEpoch = .ok bumped) (before : Edits s c s changed)
      (after : Edits s c bumped next) (same : SameMap bumped next) :
      PlainArm s c (appliedControlPlaneCommand s next response true)

/-- The result of an accepted command. -/
inductive Arm (s : ClusterControlSnapshot) (c : ControlPlaneCommand) :
    AppliedControlPlaneCommand → Prop
  | plain {a : AppliedControlPlaneCommand} (h : PlainArm s c a) : Arm s c a
  | keeps {next : ClusterControlSnapshot} {response : ControlPlaneCommandResponse} {flag : Bool}
      (edits : Edits s c s next) (same : SameMap s next) :
      Arm s c (appliedControlPlaneCommand s next response flag)

section Arms

variable {a : AppliedControlPlaneCommand} {deadlineMs : Nat} {record : NodeControlRecord}
  {next : ClusterControlSnapshot} {primary : NodeId}

/-! Nodes and leases -/

/-- Entries that are inserted into an empty map are new. -/
theorem foldl_insert_slot {α β : Type} {P : Nat → Option β → Prop} {entries : List α}
    {key : α → Nat} {value : α → β} (hvalue : ∀ entry, P (key entry) (some (value entry)))
    (hnone : ∀ k, P k none) (k : Nat) :
    P k (entries.foldl (fun (map : BTreeMap Nat β) entry => map.insert (key entry) (value entry))
      ∅)[k]? := by
  have hfold : ∀ (entries : List α) (map : BTreeMap Nat β), (∀ k, P k map[k]?) →
      P k (entries.foldl (fun map entry => map.insert (key entry) (value entry)) map)[k]? := by
    intro entries
    induction entries with
    | nil => exact fun map hmap => hmap k
    | cons first rest ih =>
      refine fun map hmap => ih _ fun other => ?_
      rw [getElem?_insert_eq]
      split
      · next heq => exact heq ▸ hvalue first
      · exact hmap other
  refine hfold entries ∅ fun other => ?_
  exact hnone other

theorem arm_bootstrap {nodes : List (NodeId × String)} {pgActingSets : List (PgId × List NodeId)}
    {topology : Option InitialClusterTopologyCertificate}
    (h : applyBootstrapInitialClusterMap s nodes pgActingSets topology = .ok a) :
    PlainArm s c a := by
  simp only [applyBootstrapInitialClusterMap, bind_eq_ok, failIf_eq_ok, exists_const, not_or,
    not_not, pure_eq_ok] at h
  obtain ⟨⟨hnodes, hpgs⟩, -, -, -, -, -, -, -, next, hbump, rfl⟩ := h
  have hnodes := ExtTreeMap.isEmpty_iff.mp hnodes
  have hpgs := ExtTreeMap.isEmpty_iff.mp hpgs
  refine .bumps hbump ?_ (.refl next) (.refl next)
  refine Edits.tail (u := { s with initialTopology := topology, nodes := _ }) ?_
    (.pgs rfl fun pgId => ?_)
  · refine Edits.tail (u := { s with initialTopology := topology })
      (.single (.aside rfl (.inl rfl)))
      (.nodes rfl fun nodeId => ?_)
    simp only [hnodes, ExtTreeMap.getElem?_empty]
    exact foldl_insert_slot (P := (NodeSlot · none)) (fun _ => .new (by rfl))
      (fun _ => .absent) nodeId
  · simp only [hpgs, ExtTreeMap.getElem?_empty]
    exact foldl_insert_slot (P := fun k => PgSlot s c k none)
      (fun entry : PgId × List NodeId => .new entry.2) (fun _ => .absent) pgId

theorem arm_setNodeMembership {membership : NodeMembershipState}
    (h : applySetNodeMembership s nodeId membership = .ok a) : PlainArm s c a := by
  unfold applySetNodeMembership at h
  split at h
  · split at h
    · cases h
      exact .unchanged
    · simp only [bind_eq_ok, failIf_eq_ok, pure_eq_ok, exists_const] at h
      obtain ⟨-, next, hbump, rfl⟩ := h
      refine .bumps hbump (.tail (.tail (.single (.modifyNode s nodeId fun record => ?_))
        (.removeObservation ..)) (.markPgsPeeringForPgIds ..)) (.refl next) (.refl next)
      unfold setMembership
      split
      · rfl
      · split <;> rfl
  · next hnone =>
    simp only [bind_eq_ok, pure_eq_ok] at h
    obtain ⟨next, hbump, rfl⟩ := h
    refine .bumps hbump (Edits.tail (u := { s with nodes := _ })
      (.single (.nodes rfl fun other => ?_))
      (.aside rfl (.inl rfl))) (.refl next) (.refl next)
    rw [getElem?_insert_eq]
    split
    · next heq =>
      subst heq
      exact hnone ▸ .new rfl
    · exact .refl _

theorem arm_markNodeAvailability {availability : NodeAvailabilityState}
    (h : applyMarkNodeAvailability s nodeId availability = .ok a) : PlainArm s c a := by
  simp only [applyMarkNodeAvailability, bind_eq_ok, okOr_eq_ok, failIf_eq_ok, exists_const] at h
  obtain ⟨record, -, -, h⟩ := h
  split at h
  · simp only [bind_eq_ok, pure_eq_ok] at h
    obtain ⟨next, hbump, rfl⟩ := h
    have hnode : Edit s c s (s.modifyNode nodeId (·.markAvailability availability)) := by
      refine .modifyNode s nodeId fun record => ?_
      cases availability <;> rfl
    have hremoved := (Edits.single hnode).tail (.removeObservation _ nodeId)
    refine .bumps hbump (hremoved.trans ?_) (.refl next) (.refl next)
    split
    · exact .refl _
    · exact .single (.markPgsPeeringForPgIds ..)
  · cases h
    exact .unchanged

theorem arm_establishLeaseGrantHorizon {authority : LeaseHorizonAuthorityBinding}
    {durationMs : Nat} (hc : c.BindsHorizon)
    (h : applyEstablishLeaseGrantHorizon s authority nowMs durationMs = .ok a) : Arm s c a := by
  simp only [applyEstablishLeaseGrantHorizon, bind_eq_ok, pure_eq_ok] at h
  obtain ⟨-, -, -, -, horizon, -, rfl⟩ := h
  exact .keeps (Edits.tail (u := { s with leaseGrantHorizon := some horizon })
    (.single (.aside rfl (.inr hc))) (.timestamp nowMs rfl)) (.of_eq rfl rfl)

theorem arm_promoteNodeHeartbeatLeases {authority : LeaseHorizonAuthorityBinding}
    {promoted : List PromotedNodeHeartbeatLease}
    (h : applyPromoteNodeHeartbeatLeases s authority promoted = .ok a) : Arm s c a := by
  simp only [applyPromoteNodeHeartbeatLeases, bind_eq_ok, pure_eq_ok] at h
  obtain ⟨-, -, -, -, -, -, -, -, rfl⟩ := h
  refine .keeps (.foldl (fun next lease _ => ?_) s) (.foldl (fun next lease => ?_) promoted s)
  · exact .single (.modifyNode next lease.nodeId fun _ => rfl)
  · exact .modifyNode next lease.nodeId fun _ _ => rfl

/-! Heartbeats -/

variable (h : s.establishHeartbeatLeaseHorizon authority nowMs deadlineMs = .ok t)
include h

/-- Covering a lease leaves the snapshot alone where it is covered, or establishes the horizon. -/
theorem establishHeartbeatLeaseHorizon_cases :
    t = s ∧ (∀ b, authority = some b → s.leaseGrantHorizonCovers b deadlineMs) ∨
      ∃ b horizon, authority = some b ∧ ¬s.leaseGrantHorizonCovers b deadlineMs ∧
        CommittedLeaseGrantHorizon.establish s.leaseGrantHorizon b nowMs
          controlPlaneLeaseGrantHorizonDurationMs controlPlaneClockSkewBudgetMs = .ok horizon ∧
        t = { s with leaseGrantHorizon := some horizon } ∧
        t.leaseGrantHorizonCovers b deadlineMs := by
  unfold establishHeartbeatLeaseHorizon at h
  split at h
  · cases h
    exact .inl ⟨rfl, fun _ hb => nomatch hb⟩
  · next b =>
    split at h
    · next hcovers =>
      cases h
      exact .inl ⟨rfl, fun _ hb => by cases hb; exact hcovers⟩
    · next hcovers =>
      simp only [bind_eq_ok, failIf_eq_ok, pure_eq_ok, exists_const, not_not, mapError_eq_ok] at h
      obtain ⟨horizon, hh, hnext, rfl⟩ := h
      exact .inr ⟨b, horizon, rfl, hcovers, hh, rfl, hnext⟩

theorem establishHeartbeatLeaseHorizon_eq_ok :
    ∃ horizon, t = { s with leaseGrantHorizon := horizon } := by
  rcases establishHeartbeatLeaseHorizon_cases h with ⟨rfl, -⟩ | ⟨_, _, -, -, -, rfl, -⟩
  · exact ⟨_, rfl⟩
  · exact ⟨_, rfl⟩

theorem establishHeartbeatLeaseHorizon_nodes : t.nodes = s.nodes := by
  obtain ⟨_, rfl⟩ := establishHeartbeatLeaseHorizon_eq_ok h
  rfl

omit h

/-- PGs that are peering already are left alone. -/
theorem markPgsPeering_of_newlyPeering_nil {pgIds : List PgId}
    (h : newlyPeering s pgIds = []) : markPgsPeeringForPgIds s previous pgIds = s := by
  have hpgs : (markPgsPeeringForPgIds s previous pgIds).pgs = s.pgs := by
    refine ExtTreeMap.ext_getElem? fun pgId => ?_
    rw [markPgsPeeringForPgIds, ExtTreeMap.getElem?_map]
    cases hrecord : s.pgs[pgId]? with
    | none => rfl
    | some record =>
      have hvalue : record ∈ values s.pgs := mem_values.mpr ⟨pgId, hrecord⟩
      have hnot := List.filter_eq_nil_iff.mp (List.map_eq_nil_iff.mp h) record hvalue
      simp only [Bool.and_eq_true, bne_iff_ne, ne_eq, decide_eq_true_eq] at hnot
      rw [Option.map_some, if_neg hnot]
  exact congrArg (fun pgs => { s with pgs := pgs }) hpgs

theorem identity_renewLease :
    (record.renewLease heartbeat heartbeatAtMs leaseDeadlineMs).nodeId = record.nodeId ∧
      (record.renewLease heartbeat heartbeatAtMs leaseDeadlineMs).identity = record.identity := by
  unfold renewLease recordClusterMapHistoryRouteReferences
  split
  · exact ⟨rfl, rfl⟩
  · exact ⟨rfl, rfl⟩

/-- A heartbeat of the recorded process leaves its identity. -/
theorem identity_observeProcess (h : record.processChanges heartbeat = false) :
    (record.observeProcess heartbeat).identity = record.identity := by
  simp only [processChanges, Bool.or_eq_false_iff, decide_eq_false_iff_not,
    bne_eq_false_iff_eq] at h
  have hmax : max record.nodeIncarnation heartbeat.nodeIncarnation = record.nodeIncarnation :=
    Nat.max_eq_left (not_lt.mp h.1)
  exact Prod.ext hmax h.2.symm

theorem withoutProgress_advanceActiveProof (record : PgControlRecord)
    (observedEpoch : ClusterEpoch) (restarted : Bool) (observation : NodePgHeartbeatObservation) :
    (record.advanceActiveProof nodeId observedEpoch restarted observation).withoutProgress =
      record.withoutProgress := by
  unfold advanceActiveProof
  split
  · rfl
  · split
    · rfl
    · rfl

/-- Fencing after a heartbeat advances the epoch, or fences nothing. -/
theorem fenceAfterHeartbeat_cases (hpending : epochChanged = false → newlyPeering t pendingIds = [])
    (h : fenceAfterHeartbeat t previous nodeId pendingIds fenceNode epochChanged = .ok next) :
    epochChanged = false ∧ next = t ∨
      ∃ changed, Edits s c t changed ∧ changed.bumpEpoch = .ok next := by
  unfold fenceAfterHeartbeat at h
  cases epochChanged with
  | false =>
    rw [markPgsPeering_of_newlyPeering_nil (hpending rfl)] at h
    exact .inl ⟨rfl, (pure_eq_ok.mp h).symm⟩
  | true =>
    refine .inr ⟨_, ?_, h⟩
    have hpending : Edits s c t (markPgsPeeringForPgIds t previous pendingIds) :=
      .single (.markPgsPeeringForPgIds ..)
    split
    · exact hpending.tail (.markPgsPeeringForPgIds ..)
    · exact hpending

/-- The end of both heartbeat arms. -/
theorem arm_of_fenceAfterHeartbeat {fenced : ClusterControlSnapshot}
    {response : ControlPlaneCommandResponse} (hedits : Edits s c s t)
    (hsame : epochChanged = false → SameMap s t)
    (hpending : epochChanged = false → newlyPeering t pendingIds = [])
    (h : fenceAfterHeartbeat t previous nodeId pendingIds fenceNode epochChanged = .ok fenced)
    (hafter : Edits s c fenced next) (hafter' : SameMap fenced next) :
    PlainArm s c (appliedControlPlaneCommand s next response (decide (next ≠ s))) := by
  rcases fenceAfterHeartbeat_cases hpending h with ⟨hkept, rfl⟩ | ⟨changed, hchanged, hbump⟩
  · exact .compares (.keeps (hedits.trans hafter) ((hsame hkept).trans hafter'))
  · exact .compares (.bumps hbump (hedits.trans hchanged) hafter hafter')

/-- The process of the node is the recorded one, unless the heartbeat says otherwise. -/
theorem sameMap_modifyNode_of_identity {f : NodeControlRecord → NodeControlRecord}
    (hrecord : s.nodes[heartbeat.nodeId]? = some record) (hpgs : t.pgs = s.pgs)
    (hnodes : t.nodes = s.nodes)
    (hf : (f record).identity = (record.observeProcess heartbeat).identity)
    (hprocess : record.processChanges heartbeat = false) :
    SameMap s (t.modifyNode heartbeat.nodeId f) := by
  refine (SameMap.of_eq hpgs hnodes).trans (.modifyNode _ _ fun other hother => ?_)
  have heq : s.nodes[heartbeat.nodeId]? = some other := hnodes ▸ hother
  cases hrecord.symm.trans heq
  exact hf.trans (identity_observeProcess hprocess)

theorem arm_recordStaleHeartbeat (hc : c.BindsHorizon)
    (hrecord : s.nodes[heartbeat.nodeId]? = some record)
    (h : recordStaleHeartbeat s record heartbeat heartbeatAtMs leaseDeadlineMs authority = .ok a) :
    PlainArm s c a := by
  simp only [recordStaleHeartbeat, bind_eq_ok, pure_eq_ok] at h
  obtain ⟨-, -, pendings, -, covered, hcover, fenced, hfence, rfl⟩ := h
  obtain ⟨horizon, rfl⟩ := establishHeartbeatLeaseHorizon_eq_ok hcover
  refine arm_of_fenceAfterHeartbeat ?_ ?_ ?_ hfence
    (.single (.modifyNode _ _ fun _ => rfl)) (.modifyNode _ _ fun _ _ => rfl)
  · have hcovered : Edits s c s { s with leaseGrantHorizon := horizon } :=
      .single (.aside rfl (.inr hc))
    refine ((hcovered.tail (.timestamp heartbeatAtMs rfl)).tail (.modifyNode _ _ fun _ => ?_)).tail
      (.removeObservation ..)
    exact identity_renewLease.1
  · intro hchanged
    obtain ⟨hprocess, -⟩ := Bool.or_eq_false_iff.mp hchanged
    refine SameMap.trans ?_ (.removeUnavailableNodeObservation _ _)
    exact sameMap_modifyNode_of_identity hrecord rfl rfl identity_renewLease.2 hprocess
  · intro hchanged
    obtain ⟨-, hnewly⟩ := Bool.or_eq_false_iff.mp hchanged
    simpa using hnewly

theorem arm_recordCurrentHeartbeat (hc : c.BindsHorizon)
    (hcurrent : heartbeat.observedEpoch = s.clusterEpoch)
    (hrecord : s.nodes[heartbeat.nodeId]? = some record)
    (h : recordCurrentHeartbeat s record heartbeat heartbeatAtMs leaseDeadlineMs authority =
      .ok a) : PlainArm s c a := by
  simp only [recordCurrentHeartbeat, bind_eq_ok, pure_eq_ok] at h
  obtain ⟨-, -, pendings, -, covered, hcover, fenced, hfence, rfl⟩ := h
  obtain ⟨horizon, rfl⟩ := establishHeartbeatLeaseHorizon_eq_ok hcover
  refine arm_of_fenceAfterHeartbeat ?_ ?_ ?_ hfence ?_ ?_
  · have hcovered : Edits s c s { s with leaseGrantHorizon := horizon } :=
      .single (.aside rfl (.inr hc))
    refine Edits.trans (((hcovered.tail (.timestamp heartbeatAtMs rfl)).tail
      (.modifyNode _ _ fun _ => ?_)).tail (.removeObservation ..))
      (.foldl (fun next observation _ => .single (.modifyPg _ _ fun record _ => ?_)) _)
    · exact identity_renewLease.1
    · exact hcurrent ▸ .advanceActiveProof record heartbeat.nodeId _ observation
  · intro hchanged
    obtain ⟨haffected, -⟩ := Bool.or_eq_false_iff.mp hchanged
    obtain ⟨hprocess, -⟩ := Bool.or_eq_false_iff.mp haffected
    refine SameMap.trans ?_ (.foldl (fun next observation => ?_) _ _)
    · refine SameMap.trans ?_ (.removeUnavailableNodeObservation _ _)
      exact sameMap_modifyNode_of_identity hrecord rfl rfl identity_renewLease.2 hprocess
    · exact .modifyPg next _ fun record => withoutProgress_advanceActiveProof record ..
  · intro hchanged
    obtain ⟨-, hpendings⟩ := Bool.or_eq_false_iff.mp hchanged
    have hnil : pendings = [] := by simpa using hpendings
    subst hnil
    simp [newlyPeering]
  · split
    · exact .single (.modifyNode _ _ fun _ => rfl)
    · exact .refl _
  · split
    · exact .modifyNode _ _ fun _ _ => rfl
    · exact .refl _

theorem arm_recordNodeHeartbeat
    (h : applyRecordNodeHeartbeat s heartbeat heartbeatAtMs leaseDeadlineMs authority = .ok a) :
    PlainArm s (.recordNodeHeartbeat heartbeat heartbeatAtMs leaseDeadlineMs authority) a := by
  obtain ⟨record, hvalid, h⟩ := bind_eq_ok.mp h
  have hrecord := (validateHeartbeat_eq_ok hvalid).1
  split at h
  · exact arm_recordStaleHeartbeat trivial hrecord h
  · next hcurrent => exact arm_recordCurrentHeartbeat trivial (not_not.mp hcurrent) hrecord h

/-! Expiry -/

theorem arm_finishExpiry {expired : List NodeControlRecord} {flag : Bool} (hedits : Edits s c s t)
    (hsame : SameMap s t) (h : finishExpiry s t expired flag = .ok a) : Arm s c a := by
  simp only [finishExpiry] at h
  split at h
  · simp only [pure_bind, pure_eq_ok] at h
    subst h
    exact .keeps hedits hsame
  · next hserving =>
    simp only [bind_eq_ok, pure_eq_ok] at h
    obtain ⟨next, hbump, rfl⟩ := h
    have hchanged : (flag || expired != []) = true := by
      cases expired with
      | nil => exact absurd rfl hserving
      | cons first rest => simp
    rw [hchanged]
    exact .plain (.bumps hbump (hedits.tail (.markPgsPeeringForPgIds ..)) (.refl next) (.refl next))

theorem arm_expireHeartbeatLeases
    (h : applyExpireHeartbeatLeases s expireAtMs = .ok a) : Arm s c a := by
  simp only [applyExpireHeartbeatLeases, bind_eq_ok] at h
  obtain ⟨-, -, h⟩ := h
  refine arm_finishExpiry ?_ ?_ h
  · refine Edits.trans ?_ (.foldl (fun next record _ => .single (.observeUnavailable ..)) _)
    refine (Edits.single (.timestamp expireAtMs rfl)).tail (.nodes rfl fun nodeId => ?_)
    rw [ExtTreeMap.getElem?_map]
    change NodeSlot nodeId s.nodes[nodeId]? (Option.map _ s.nodes[nodeId]?)
    cases s.nodes[nodeId]? with
    | none => exact .absent
    | some record =>
      refine .kept ?_
      change (if record.leaseExpired expireAtMs then record.expireLease else record).nodeId = _
      split <;> rfl
  · refine SameMap.trans ?_ (.foldl (fun next record => .observeUnavailable _ _ _ _) _ _)
    refine ⟨fun _ => rfl, fun nodeId => ?_⟩
    rw [ExtTreeMap.getElem?_map, Option.map_map]
    refine congrFun (congrArg Option.map (funext fun record => ?_)) _
    change (if record.leaseExpired expireAtMs then record.expireLease else record).identity = _
    split
    · rfl
    · rfl

theorem arm_expireNodeHeartbeatLeases {authority : LeaseHorizonAuthorityBinding}
    {expired : List ExpiredNodeHeartbeatLease} (hc : c.BindsHorizon)
    (h : applyExpireNodeHeartbeatLeases s authority expireAtMs expired = .ok a) : Arm s c a := by
  simp only [applyExpireNodeHeartbeatLeases, bind_eq_ok] at h
  obtain ⟨-, -, -, -, covered, hcover, _, -, -, -, h⟩ := h
  obtain ⟨horizon, rfl⟩ := establishHeartbeatLeaseHorizon_eq_ok hcover
  refine arm_finishExpiry ?_ ?_ h
  · have hcovered : Edits s c s { s with leaseGrantHorizon := horizon } :=
      .single (.aside rfl (.inr hc))
    refine (hcovered.tail (.timestamp expireAtMs rfl)).trans (.foldl (fun next lease _ => ?_) _)
    unfold expireNodeLease
    split
    · exact .refl _
    · refine Edits.tail (.single (.modifyNode next lease.nodeId fun _ => ?_))
        (.observeUnavailable ..)
      rfl
  · refine SameMap.trans ?_ (.foldl (fun next lease => ?_) _ _)
    · exact .of_eq rfl rfl
    · unfold expireNodeLease
      split
      · exact .refl _
      · refine SameMap.trans ?_ (.observeUnavailable _ _ _ _)
        exact .modifyNode next lease.nodeId fun _ _ => rfl

/-! PGs -/

theorem arm_setPgActingSet (h : applySetPgActingSet s pgId actingSet = .ok a) :
    PlainArm s c a := by
  simp only [applySetPgActingSet, bind_eq_ok] at h
  obtain ⟨-, -, -, -, -, -, -, -, h⟩ := h
  split at h
  · next record hrecord =>
    split at h
    · cases h
      exact .unchanged
    · simp only [bind_eq_ok, pure_eq_ok] at h
      obtain ⟨floor, hfloor, next, hbump, rfl⟩ := h
      refine .bumps hbump (.single (.modifyPg _ _ fun other hother => ?_)) (.refl next) (.refl next)
      cases hrecord.symm.trans hother
      exact .changeActingSet hfloor _
  · next hnone =>
    simp only [bind_eq_ok, pure_eq_ok] at h
    obtain ⟨next, hbump, rfl⟩ := h
    refine .bumps hbump (.single (.pgs rfl fun other => ?_)) (.refl next) (.refl next)
    rw [getElem?_insert_eq]
    split
    · next heq =>
      subst heq
      exact hnone ▸ .new actingSet
    · exact .refl _

theorem arm_setPgActingSetWithMetadataTransfer
    {transfer : PgMetadataTransferProof} {expected : ClusterEpoch}
    (h : applySetPgActingSetWithMetadataTransfer s pgId actingSet transfer expected transition =
      .ok a) :
    PlainArm s
      (.setPgActingSetWithMetadataTransfer pgId actingSet transfer expected transition) a := by
  simp only [applySetPgActingSetWithMetadataTransfer, bind_eq_ok, okOr_eq_ok] at h
  obtain ⟨-, -, -, -, -, -, -, -, record, hrecord, h⟩ := h
  split at h
  · simp only [bind_eq_ok, pure_eq_ok] at h
    obtain ⟨-, -, rfl⟩ := h
    exact .unchanged
  · simp only [bind_eq_ok, pure_eq_ok] at h
    obtain ⟨-, -, -, -, floor, hfloor, _, hproof, source, -, next, hbump, rfl⟩ := h
    refine .bumps hbump (Edits.tail (u := { s with unavailablePgPlacementTransitions := _ })
      (.single (.transition pgId _ rfl ?_)) (.pgs rfl fun other => ?_)) (.refl next) (.refl next)
    · intro _
      rfl
    · rw [getElem?_insert_eq]
      split
      · next heq =>
        subst heq
        exact hrecord ▸ .edit (.installTransfer rfl hfloor hproof _ _)
      · exact .refl _

theorem arm_finishFence {record fenced : PgControlRecord} {deadline : Option Nat}
    (hrecord : s.pgs[pgId]? = some record) (hfenced : PgEdit s c pgId record fenced)
    (h : finishFence s pgId fenced deadline = .ok a) : PlainArm s c a := by
  simp only [finishFence, bind_eq_ok, pure_eq_ok] at h
  obtain ⟨next, hbump, rfl⟩ := h
  refine .bumps hbump (.single (.modifyPg _ _ fun other hother => ?_)) (.refl next) (.refl next)
  cases hrecord.symm.trans hother
  exact hfenced

theorem arm_fencePgForMetadataTransfer {committed : Option Nat}
    (h : applyFencePgForMetadataTransfer s pgId committed authority transition = .ok a) :
    PlainArm s c a := by
  simp only [applyFencePgForMetadataTransfer, bind_eq_ok, okOr_eq_ok] at h
  obtain ⟨-, -, record, hrecord, observed, -, deadline, -, h⟩ := h
  split at h
  · next hactive =>
    simp only [bind_eq_ok] at h
    obtain ⟨source, hsource, fenceEpoch, -, h⟩ := h
    exact arm_finishFence hrecord (.fenceActive hactive hsource _ _ _) h
  · split at h
    · cases h
      exact .unchanged
    · next htransfer =>
      split at h
      · cases h
        exact .unchanged
      · simp only [bind_eq_ok] at h
        obtain ⟨fenceEpoch, -, h⟩ := h
        have hnone : record.peeringMetadataTransfer = none :=
          Option.not_isSome_iff_eq_none.mp htransfer
        exact arm_finishFence hrecord (.fencePeering hnone _ _ _) h
  · cases h

theorem arm_setPgState (h : applySetPgState s pgId state = .ok a) :
    PlainArm s (.setPgState pgId state) a := by
  simp only [applySetPgState, bind_eq_ok, okOr_eq_ok] at h
  obtain ⟨-, -, record, hrecord, h⟩ := h
  split at h
  · cases h
    exact .unchanged
  · next hne =>
    simp only [bind_eq_ok, pure_eq_ok] at h
    obtain ⟨next, hbump, rfl⟩ := h
    refine .bumps hbump (.single (.modifyPg _ _ fun other hother => ?_)) (.refl next) (.refl next)
    cases hrecord.symm.trans hother
    exact .setState rfl hne _

theorem Edits.activatePg {proof : PgMetadataProof} {logEpoch : ClusterEpoch}
    (t : ClusterControlSnapshot) (h : ∀ record, t.pgs[pgId]? = some record →
      PgEdit s c pgId record (record.activate primary proof logEpoch)) :
    Edits s c t (t.activatePg pgId primary proof logEpoch) :=
  (Edits.single (.modifyPg t pgId h)).tail (.retire pgId rfl)

/-- An activated PG is Active after the epoch has advanced. -/
theorem active_of_activatePg {proof : PgMetadataProof} {logEpoch : ClusterEpoch}
    (hbump : (t.activatePg pgId primary proof logEpoch).bumpEpoch = .ok next)
    {record : PgControlRecord} (hr : next.pgs[pgId]? = some record) : record.state = .active := by
  obtain ⟨-, rfl⟩ := bumpEpoch_eq_ok hbump
  change (retireTransition _ pgId).pgs[pgId]? = _ at hr
  rw [retireTransition_pgs, modifyPg, getElem?_modify_eq, if_pos rfl] at hr
  obtain ⟨old, -, rfl⟩ := Option.map_eq_some_iff.mp hr
  rfl

theorem arm_completePgPeering {nodeIncarnation completeAtMs : Nat}
    (h : applyCompletePgPeering s pgId primary nodeIncarnation completeAtMs = .ok a) :
    PlainArm s c a := by
  simp only [applyCompletePgPeering, bind_eq_ok] at h
  obtain ⟨-, -, -, -, validated, hvalid, h⟩ := h
  obtain ⟨record, hrecord, -, -, hcases⟩ := validatePgPeeringCompletion_eq_ok hvalid
  rcases hcases with ⟨-, -, rfl⟩ | ⟨proof, rfl, hcompletes⟩
  · cases h
    exact .timed
  · simp only [bind_eq_ok, pure_eq_ok] at h
    obtain ⟨logEpoch, -, next, hbump, rfl⟩ := h
    refine .bumps hbump ((Edits.single (.timestamp completeAtMs rfl)).trans
      (.activatePg _ fun other hother => ?_))
      (.single (.modifyPg _ _ fun record hr =>
        .proofEpoch (active_of_activatePg hbump hr) (.inl rfl)))
      (.modifyPg _ _ fun _ => rfl)
    cases hrecord.symm.trans hother
    exact .activate hcompletes logEpoch

/-- Completions of PGs that are Active already. -/
theorem activateReadyFrom_of_active
    (hactive : ∀ completion ∈ ready, t.pgs[completion.pgId]?.any (·.state == .active) = true)
    (h : activateReadyFrom s ready t = .ok next) : next = t := by
  induction ready with
  | nil => exact (pure_eq_ok.mp h).symm
  | cons completion rest ih =>
    simp only [activateReadyFrom, bind_eq_ok] at h
    obtain ⟨logEpoch, -, h⟩ := h
    rw [if_pos (hactive completion (List.mem_cons_self ..))] at h
    exact ih (fun c hc => hactive c (List.mem_cons_of_mem _ hc)) h

/-- A batch that completes nothing names only PGs that are Active already. -/
theorem active_of_validateReadyCompletion
    (hready : ready.forM (validateReadyCompletion s readyAtMs) = .ok ())
    (hnone : ¬(ready.any fun completion =>
      s.pgs[completion.pgId]?.any (·.state != .active)) = true) :
    ∀ completion ∈ ready, s.pgs[completion.pgId]?.any (·.state == .active) = true := by
  intro completion hmem
  have hvalid := forM_eq_ok.mp hready completion hmem
  simp only [validateReadyCompletion, bind_eq_ok] at hvalid
  obtain ⟨-, -, validated, hvalid, -⟩ := hvalid
  obtain ⟨record, hrecord, -⟩ := validatePgPeeringCompletion_eq_ok hvalid
  have hnot : ¬(s.pgs[completion.pgId]?.any (·.state != .active)) = true := fun hany =>
    hnone (List.any_eq_true.mpr ⟨completion, hmem, hany⟩)
  simpa [hrecord] using hnot

/-- The activations of a batch.  A PG that the loop has not activated yet is as it was. -/
theorem edits_activateReadyFrom
    (hready : ∀ completion ∈ ready, validateReadyCompletion s readyAtMs completion = .ok ())
    (h : activateReadyFrom s ready t = .ok next)
    (hsame : ∀ (pgId : PgId) record, t.pgs[pgId]? = some record → record.state ≠ .active →
      s.pgs[pgId]? = some record) : Edits s c t next := by
  induction ready generalizing t with
  | nil =>
    cases h
    exact .refl _
  | cons completion rest ih =>
    simp only [activateReadyFrom, bind_eq_ok] at h
    obtain ⟨logEpoch, -, h⟩ := h
    have hrest := fun c hc => hready c (List.mem_cons_of_mem _ hc)
    split at h
    · exact ih hrest h hsame
    · next hinactive =>
      have hne : ∀ record, t.pgs[completion.pgId]? = some record → record.state ≠ .active :=
        fun record hr hactive => hinactive (by simp [hr, hactive])
      refine Edits.trans (.activatePg t fun record hr => ?_) (ih hrest h fun k record hr hk => ?_)
      · have hv := hready completion (List.mem_cons_self ..)
        simp only [validateReadyCompletion, bind_eq_ok, pure_eq_ok] at hv
        obtain ⟨-, -, validated, hv, -⟩ := hv
        obtain ⟨other, hother, -, -, hcases⟩ := validatePgPeeringCompletion_eq_ok hv
        cases hother.symm.trans (hsame _ record hr (hne record hr))
        rcases hcases with ⟨hactive, -⟩ | ⟨proof, -, hcompletes⟩
        · exact absurd hactive (hne _ hr)
        · obtain rfl := hcompletes.expectedProof _ rfl
          exact .activate hcompletes logEpoch
      · rw [activatePg, retireTransition_pgs,
          modifyPg, getElem?_modify_eq] at hr
        split at hr
        · obtain ⟨old, -, rfl⟩ := Option.map_eq_some_iff.mp hr
          exact absurd rfl hk
        · exact hsame k record hr hk

theorem withoutProgress_recordProofEpoch (record : PgControlRecord)
    (completion : ReadyPgPeeringCompletion) :
    (record.recordProofEpoch completion).withoutProgress = record.withoutProgress := by
  unfold recordProofEpoch
  split <;> rfl

theorem arm_completeReadyPgPeerings
    (h : applyCompleteReadyPgPeerings s readyAtMs ready = .ok a) :
    PlainArm s (.completeReadyPgPeerings readyAtMs ready) a := by
  simp only [applyCompleteReadyPgPeerings, bind_eq_ok] at h
  obtain ⟨-, -, h⟩ := h
  split at h
  · cases h
    exact .timed
  · simp only [bind_eq_ok] at h
    obtain ⟨-, -, _, hready, activated, hactivated, h⟩ := h
    split at h
    · simp only [bind_eq_ok, pure_eq_ok] at h
      obtain ⟨next, hbump, rfl⟩ := h
      refine .bumps hbump ((Edits.single (.timestamp readyAtMs rfl)).trans
        (edits_activateReadyFrom (forM_eq_ok.mp hready) hactivated fun _ _ hr _ => hr))
        (.foldl (fun next completion hmem => .single (.modifyPg _ _ fun record _ => ?_)) _)
        (.foldl (fun next completion => .modifyPg _ _ fun record => ?_) _ _)
      · unfold recordProofEpoch
        split
        · next hactive =>
          exact .proofEpoch hactive.1 (.inr ⟨_, hactive.2.2, completion, hmem, rfl, rfl, rfl⟩)
        · exact .kept record
      · exact withoutProgress_recordProofEpoch record completion
    · next hnone =>
      cases h
      have hactive := active_of_validateReadyCompletion hready hnone
      rw [activateReadyFrom_of_active (t := s.recordCommittedTimestamp readyAtMs) hactive
        hactivated]
      exact .timed

/-! Transitions -/

theorem arm_beginUnavailablePgPlacementTransition {body : BeginUnavailableTransition}
    (h : applyBeginUnavailablePgPlacementTransition s body = .ok a) :
    PlainArm s (.beginUnavailablePgPlacementTransition body) a := by
  simp only [applyBeginUnavailablePgPlacementTransition, bind_eq_ok] at h
  obtain ⟨repeats, -, h⟩ := h
  split at h
  · cases h
    exact .unchanged
  · simp only [bind_eq_ok, pure_eq_ok] at h
    obtain ⟨record, hrecord, next, hbump, rfl⟩ := h
    refine .bumps hbump (Edits.tail (((Edits.single (.timestamp body.beginAtMs rfl)).tail
      (.retire body.pgId rfl)).tail (.begins rfl rfl)) (.modifyPg _ _ fun other hother => ?_))
      (.refl next) (.refl next)
    rw [retireTransition_pgs] at hother
    cases (validateBegin_eq_ok hrecord).1.symm.trans hother
    exact .beginReplacement hrecord _

theorem arm_completeUnavailablePgPlacementTransition {body : CompleteUnavailableTransition}
    (h : applyCompleteUnavailablePgPlacementTransition s body = .ok a) : PlainArm s c a := by
  simp only [applyCompleteUnavailablePgPlacementTransition, bind_eq_ok] at h
  obtain ⟨-, -, h⟩ := h
  split at h
  · simp only [bind_eq_ok, pure_eq_ok] at h
    obtain ⟨-, -, rfl⟩ := h
    exact .unchanged
  · simp only [bind_eq_ok, pure_eq_ok] at h
    obtain ⟨-, -, _, hready, validated, hvalid, logEpoch, -, next, hbump, rfl⟩ := h
    obtain ⟨record, hrecord, hpeering⟩ := peering_of_payloadReadiness hready
    obtain ⟨other, hother, -, -, hcases⟩ := validatePgPeeringCompletion_eq_ok hvalid
    cases hrecord.symm.trans hother
    rcases hcases with ⟨hactive, -⟩ | ⟨proof, -, hcompletes⟩
    · exact absurd (hpeering.symm.trans hactive) (by decide)
    · obtain rfl := hcompletes.expectedProof _ rfl
      refine .bumps hbump (Edits.trans (Edits.tail (.single (.transition body.pgId _ rfl ?_))
        (.timestamp body.readyAtMs rfl)) (.activatePg _ fun other hother => ?_))
        (.single (.modifyPg _ _ fun record hr => .proofEpoch (active_of_activatePg hbump hr)
          (.inl (congrArg some (hcompletes.expectedEpoch _ rfl))))) (.modifyPg _ _ fun _ => rfl)
      · intro _
        rfl
      · cases hrecord.symm.trans hother
        have hsame : CompletesPeering s record body.pgId _ _ _ _ _ :=
          ⟨hcompletes.peering, hcompletes.unfenced, hcompletes.lease, hcompletes.expectedEpoch,
            hcompletes.expectedProof, hcompletes.floor⟩
        exact .activate hsame logEpoch

/-- The flag of the command is computed apart from the changes. -/
def ControlPlaneCommand.FlagsApart : ControlPlaneCommand → Prop
  | .expireHeartbeatLeases _ | .expireNodeHeartbeatLeases .. | .promoteNodeHeartbeatLeases ..
  | .establishLeaseGrantHorizon .. => True
  | _ => False

theorem plainArm_of_applyArm (h : applyArm s c = .ok a) (hc : ¬c.FlagsApart) : PlainArm s c a := by
  cases c with
  | bootstrapInitialClusterMap => exact arm_bootstrap h
  | bootstrapCertifiedInitialClusterMap => exact arm_bootstrap h
  | setNodeMembership => exact arm_setNodeMembership h
  | markNodeAvailability => exact arm_markNodeAvailability h
  | recordNodeHeartbeat => exact arm_recordNodeHeartbeat h
  | beginUnavailablePgPlacementTransition => exact arm_beginUnavailablePgPlacementTransition h
  | completeUnavailablePgPlacementTransition => exact arm_completeUnavailablePgPlacementTransition h
  | setPgActingSet => exact arm_setPgActingSet h
  | setPgActingSetWithMetadataTransfer => exact arm_setPgActingSetWithMetadataTransfer h
  | fencePgForMetadataTransfer => exact arm_fencePgForMetadataTransfer h
  | setPgState => exact arm_setPgState h
  | completePgPeering => exact arm_completePgPeering h
  | completeReadyPgPeerings => exact arm_completeReadyPgPeerings h
  | _ => exact absurd trivial hc

/-- **Every accepted command is a sequence of changes** that keep the map or come with one advance
of the epoch. -/
theorem arm_of_applyArm (h : applyArm s c = .ok a) : Arm s c a := by
  cases c with
  | expireHeartbeatLeases => exact arm_expireHeartbeatLeases h
  | expireNodeHeartbeatLeases => exact arm_expireNodeHeartbeatLeases trivial h
  | promoteNodeHeartbeatLeases => exact arm_promoteNodeHeartbeatLeases h
  | establishLeaseGrantHorizon => exact arm_establishLeaseGrantHorizon trivial h
  | _ => exact .plain (plainArm_of_applyArm h id)

theorem Arm.moved (h : Arm s c a) : ∃ next response flag,
    a = appliedControlPlaneCommand s next response flag ∧ Moved s c next := by
  cases h with
  | plain h =>
    cases h with
    | unchanged => exact ⟨_, _, _, rfl, .keeps (.refl s) (.refl s)⟩
    | @timed timestampMs response =>
      exact ⟨_, _, _, rfl, .keeps (.single (.timestamp timestampMs rfl)) (.of_eq rfl rfl)⟩
    | compares moved => exact ⟨_, _, _, rfl, moved⟩
    | bumps bump before after same => exact ⟨_, _, _, rfl, .bumps bump before after same⟩
  | keeps edits same => exact ⟨_, _, _, rfl, .keeps edits same⟩

theorem Moved.kept (h : Moved s c next) : next.history = s.history ∧
      (¬c.BindsHorizon → next.leaseGrantHorizon = s.leaseGrantHorizon) := by
  cases h with
  | keeps edits => exact edits.kept.2
  | bumps bump before after =>
    obtain ⟨-, rfl⟩ := bumpEpoch_eq_ok bump
    obtain ⟨-, hbefore, hhorizon⟩ := before.kept
    obtain ⟨-, hafter, hhorizon'⟩ := after.kept
    exact ⟨hafter.trans hbefore, fun hc => (hhorizon' hc).trans (hhorizon hc)⟩

end Arms

end Argmin.ControlPlane
