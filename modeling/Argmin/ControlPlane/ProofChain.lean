import Argmin.ControlPlane.LeaseMove
import Argmin.Lib.Run

/-!
# Acknowledged metadata is not forgotten

While a PG is Active the control plane holds the metadata proof that was accepted for it, and
while it is Peering the floor that the next activation must satisfy.  `acceptedFloor` is the one
or the other.  Every command takes it along `ProofLink`s:

* the same proof, or one with a larger log index;
* a proof of a later epoch-local log: the metadata log starts anew in an epoch after that of the
  floor, so that its index may be smaller and only the log hash tells it apart;
* the proof that the transfer of an accepted command imports, when the proof of its source is linked
  to the floor.

`acknowledged_proof_kept`: in every run of commands other than `SetPgState`, a PG that has been
Active keeps a floor, and every proof under which it is Active later is linked to the earlier ones.
-/

namespace Argmin.ControlPlane

open Fallible TreeMap Relation Option

variable {body : BeginUnavailableTransition}
  {epoch' : ClusterEpoch}
  {nodeIncarnation : Nat} {floorEpoch : Option ClusterEpoch} {floor' : PeeringMetadataProofFloor}
  {transfer : PgMetadataTransferProof}

variable {t : ClusterControlSnapshot} {observedEpoch : ClusterEpoch} {c : ControlPlaneCommand}
  {actingSet : List NodeId}
  {primary : NodeId}
  {floor : PeeringMetadataProofFloor} {pgId : PgId} {observed proof : PgMetadataProof}
  {epoch : ClusterEpoch} {s : ClusterControlSnapshot} {record : PgControlRecord}

/-! ### Links -/

/-- The proof that was last accepted for a PG, with its epoch and provenance. -/
def PgControlRecord.acceptedFloor (record : PgControlRecord) : Option PeeringMetadataProofFloor :=
  match record.state with
  | .active => record.activeMetadataProof.map fun proof =>
      ⟨proof, record.activeMetadataProofEpoch, record.activeMetadataTransferImported⟩
  | .peering => record.peeringMetadataProofFloorContext
  | _ => none

/-- `observed`, reported in `observedEpoch`, is accepted over the floor. -/
def ProofAdvances (floor : PgMetadataProof) (floorEpoch : Option ClusterEpoch)
    (observed : PgMetadataProof) (observedEpoch : ClusterEpoch) : Prop :=
  observed = floor ∨ floor.appliedLogIndex < observed.appliedLogIndex ∨
    observed.appliedLogHash.value ≠ 0 ∧ observed.appliedLogHash ≠ floor.appliedLogHash ∧
      ∃ epoch, floorEpoch = some epoch ∧ epoch < observedEpoch

/-- What a command given at `s` may make of the accepted proof of a PG.
* A proof that is accepted over it; the epoch is kept, dropped or the current one.
* The proof that the command's metadata transfer imports, when its source is accepted over it.
* The same proof with the epoch that a batch of completions names. -/
inductive ProofLink (s : ClusterControlSnapshot) (c : ControlPlaneCommand) (pgId : PgId)
    (floor floor' : PeeringMetadataProofFloor) : Prop
  | advance (h : ProofAdvances floor.proof floor.epoch floor'.proof s.clusterEpoch)
      (hepoch : floor'.epoch = floor.epoch ∨ floor'.epoch = none ∨
        floor'.epoch = some s.clusterEpoch)
  | transfer {actingSet : List NodeId} {transfer : PgMetadataTransferProof}
      {expected : ClusterEpoch} {transition : Option UnavailablePgTransitionMutationBinding}
      (hc : c = .setPgActingSetWithMetadataTransfer pgId actingSet transfer expected transition)
      (hsource : transfer.sourceEpoch ≤ s.clusterEpoch)
      (h : ProofAdvances floor.proof floor.epoch transfer.sourceMetadataProof transfer.sourceEpoch)
      (himported : floor' = ⟨transfer.importedMetadataProof, some s.clusterEpoch, true⟩)
  | named (hproof : floor'.proof = floor.proof) (h : c.NamesProof pgId floor.proof floor'.epoch)

/-! ### The proof comparisons -/

theorem advances_of_activeFloor {floor : PgMetadataProof}
    (h : metadataProofSatisfiesActiveFloor floor observed = true) :
    ProofAdvances floor floorEpoch observed observedEpoch := by
  simp only [metadataProofSatisfiesActiveFloor, Bool.or_eq_true, decide_eq_true_eq,
    beq_iff_eq] at h
  rcases h with hlt | heq
  · exact .inr (.inl hlt)
  · exact .inl heq

@[simp]
theorem provenance_floorEpoch (imported : Bool) (floorEpoch : Option ClusterEpoch) :
    (metadataProofProgressProvenance imported floorEpoch).map (·.floorEpoch) = floorEpoch := by
  cases floorEpoch <;> rfl

/-- The progress of a later local log. -/
theorem advances_of_observationFloor {floor : PgMetadataProof}
    {provenance : Option MetadataProofProgressProvenance}
    {logEpochs : Option (ClusterEpoch × ClusterEpoch)}
    (h : metadataProofSatisfiesActivePrimaryObservationFloorImpl floor observed provenance
      observedEpoch logEpochs = true) :
    ProofAdvances floor (provenance.map (·.floorEpoch)) observed observedEpoch := by
  have hprogress : ∀ advanced,
      metadataProofShowsProgress floor observed provenance observedEpoch advanced = true →
      ProofAdvances floor (provenance.map (·.floorEpoch)) observed observedEpoch := by
    intro advanced hp
    rcases (Bool.or_eq_true _ _).mp hp with hactive | hlater
    · exact advances_of_activeFloor hactive
    · cases provenance with
      | none => cases hlater
      | some provenance =>
        simp only [Bool.and_eq_true, bne_iff_ne, decide_eq_true_eq] at hlater
        obtain ⟨⟨⟨⟨⟨hepoch, -⟩, hzero⟩, hhash⟩, -⟩, -⟩ := hlater
        exact .inr (.inr ⟨hzero, hhash, provenance.floorEpoch, rfl, hepoch⟩)
  unfold metadataProofSatisfiesActivePrimaryObservationFloorImpl at h
  split at h
  · exact hprogress _ h
  · split at h
    · cases h
    · split at h
      · exact .inl (beq_iff_eq.mp h)
      · exact hprogress _ h

theorem advances_of_observationFloorAtLogEpoch {floor : PgMetadataProof}
    {imported : Bool} {floorLogEpoch : Option ClusterEpoch} {observedLogEpoch : ClusterEpoch}
    (h : metadataProofSatisfiesActivePrimaryObservationFloorAtLogEpoch floor observed
      (metadataProofProgressProvenance imported floorEpoch) observedEpoch floorLogEpoch
      observedLogEpoch = true) : ProofAdvances floor floorEpoch observed observedEpoch := by
  unfold metadataProofSatisfiesActivePrimaryObservationFloorAtLogEpoch at h
  split at h
  · cases h
  · exact provenance_floorEpoch imported floorEpoch ▸ advances_of_observationFloor h

/-! ### Records -/

/-- The PG holds `floor`; a transfer marker names its proof, and a PG in Peering has no Active
one. -/
structure PgControlRecord.Holds (record : PgControlRecord) (floor : PeeringMetadataProofFloor) :
    Prop where
  accepted : record.acceptedFloor = some floor
  cleared : record.state = .peering → record.activeMetadataProofEpoch = none
  transfer : ∀ marker, record.state = .peering → record.peeringMetadataTransfer = some marker →
    floor.proof = marker.importedMetadataProof

/-- Whatever floor the PG holds, it goes on to hold one that is linked to it. -/
def PgControlRecord.FloorKept (s : ClusterControlSnapshot) (c : ControlPlaneCommand) (pgId : PgId)
    (record record' : PgControlRecord) : Prop :=
  ∀ floor, record.Holds floor →
    ∃ floor', record'.Holds floor' ∧ ReflTransGen (ProofLink s c pgId) floor floor'

namespace PgControlRecord

variable {record' : PgControlRecord}

theorem FloorKept.refl (s : ClusterControlSnapshot) (c : ControlPlaneCommand) (pgId : PgId)
    (record : PgControlRecord) : record.FloorKept s c pgId record :=
  fun floor h => ⟨floor, h, .refl⟩

theorem FloorKept.trans {record'' : PgControlRecord} (h : record.FloorKept s c pgId record')
    (h' : record'.FloorKept s c pgId record'') : record.FloorKept s c pgId record'' := by
  intro floor hf
  obtain ⟨floor', hf', hc⟩ := h floor hf
  obtain ⟨floor'', hf'', hc'⟩ := h' floor' hf'
  exact ⟨floor'', hf'', ReflTransGen.trans hc hc'⟩

/-- What a held floor says about an Active record. -/
theorem Holds.active (h : record.Holds floor)
    (hactive : record.state = .active) : record.activeMetadataProof = some floor.proof ∧
      record.activeMetadataProofEpoch = floor.epoch ∧
      record.activeMetadataTransferImported = floor.imported := by
  have h := h.accepted
  rw [acceptedFloor, hactive] at h
  obtain ⟨proof, hproof, rfl⟩ := map_eq_some_iff.mp h
  exact ⟨hproof, rfl, rfl⟩

/-- What a held floor says about a Peering record. -/
theorem Holds.peering (h : record.Holds floor)
    (hpeering : record.state = .peering) : record.peeringMetadataProofFloor = some floor.proof ∧
      record.peeringMetadataProofFloorEpoch = floor.epoch ∧
      record.peeringMetadataProofFloorImported = floor.imported := by
  have h := h.accepted
  rw [acceptedFloor, hpeering] at h
  obtain ⟨proof, hproof, rfl⟩ := map_eq_some_iff.mp h
  exact ⟨hproof, rfl, rfl⟩

theorem Holds.state (h : record.Holds floor) :
    record.state = .active ∨ record.state = .peering := by
  have h := h.accepted
  unfold acceptedFloor at h
  split at h
  · next hactive => exact .inl hactive
  · next hpeering => exact .inr hpeering
  · cases h

/-- A Peering record without a transfer marker holds its floor. -/
theorem holds_of_peering (hpeering : record.state = .peering)
    (hproof : record.peeringMetadataProofFloor = some floor.proof)
    (hepoch : record.peeringMetadataProofFloorEpoch = floor.epoch)
    (himported : record.peeringMetadataProofFloorImported = floor.imported)
    (hcleared : record.activeMetadataProofEpoch = none)
    (htransfer : ∀ marker, record.peeringMetadataTransfer = some marker →
      floor.proof = marker.importedMetadataProof) : record.Holds floor := by
  refine ⟨?_, fun _ => hcleared, fun marker _ => htransfer marker⟩
  rw [acceptedFloor, hpeering]
  rw [peeringMetadataProofFloorContext, hproof, hepoch, himported]
  rfl

theorem holds_of_active (hactive : record.state = .active)
    (hproof : record.activeMetadataProof = some floor.proof)
    (hepoch : record.activeMetadataProofEpoch = floor.epoch)
    (himported : record.activeMetadataTransferImported = floor.imported) : record.Holds floor := by
  have hne (hpeering : record.state = .peering) : False := by
    rw [hactive] at hpeering
    cases hpeering
  refine ⟨?_, fun hpeering => (hne hpeering).elim, fun _ hpeering => (hne hpeering).elim⟩
  rw [acceptedFloor, hactive]
  rw [hproof, hepoch, himported]
  rfl

/-- A PG that leaves the Active state takes its proof along as the floor. -/
theorem floorKept_markPeering (previous : ClusterControlSnapshot) (hne : record.state ≠ .peering) :
    record.FloorKept s c pgId (record.markPeering previous) := by
  intro floor h
  have hactive := h.state.resolve_right hne
  obtain ⟨hproof, hepoch, himported⟩ := h.active hactive
  refine ⟨floor, holds_of_peering rfl ?_ ?_ ?_ rfl (fun _ hm => nomatch hm), .refl⟩
  · exact (if_pos hactive).trans hproof
  · exact (if_pos hactive).trans hepoch
  · show (record.state == .active && record.activeMetadataTransferImported) = floor.imported
    rw [hactive, himported]
    rfl

/-- A heartbeat of the primary moves the proof of an Active PG on. -/
theorem floorKept_advanceActiveProof (nodeId : NodeId) (restarted : Bool)
    (observation : NodePgHeartbeatObservation) :
    record.FloorKept s c pgId
      (record.advanceActiveProof nodeId s.clusterEpoch restarted observation) := by
  unfold advanceActiveProof
  split
  · exact .refl _ _ _ _
  · next current hcurrent =>
    split
    · next hadvance =>
      intro floor h
      obtain ⟨hproof, hepoch, himported⟩ := h.active hadvance.1
      cases hcurrent.symm.trans hproof
      refine ⟨⟨observation.metadataProof, some s.clusterEpoch, false⟩,
        holds_of_active hadvance.1 rfl rfl rfl, .single (.advance ?_ (.inr (.inr rfl)))⟩
      rw [← hepoch]
      exact advances_of_observationFloorAtLogEpoch hadvance.2.2.2.2.2
    · exact .refl _ _ _ _

/-- A completion records the epoch of the proof that it activates. -/
theorem floorKept_proofEpoch (hactive : record.state = .active)
    (h : floorEpoch = some s.clusterEpoch ∨
      ∃ proof, record.activeMetadataProof = some proof ∧ c.NamesProof pgId proof floorEpoch) :
    record.FloorKept s c pgId { record with activeMetadataProofEpoch := floorEpoch } := by
  intro floor hf
  obtain ⟨hproof, -, himported⟩ := hf.active hactive
  refine ⟨{ floor with epoch := floorEpoch }, holds_of_active hactive hproof rfl himported,
    .single ?_⟩
  rcases h with hepoch | ⟨proof, hnamed, hnames⟩
  · exact .advance (.inl rfl) (.inr (.inr hepoch))
  · cases hnamed.symm.trans hproof
    exact .named rfl hnames

/-- The proof that a completion activates is linked to the floor. -/
theorem floorKept_activate {completedAtMs : Nat} {expected : Option ExpectedPgPeeringCompletion}
    (h : CompletesPeering s record pgId primary nodeIncarnation completedAtMs expected proof)
    (logEpoch : ClusterEpoch) :
    record.FloorKept s c pgId (record.activate primary proof logEpoch) := by
  intro floor hf
  obtain ⟨hproof, hepoch, himported⟩ := hf.peering h.peering
  refine ⟨⟨proof, none, record.peeringMetadataTransfer.isSome⟩,
    holds_of_active rfl rfl (hf.cleared h.peering) rfl, .single (.advance ?_ (.inr (.inl rfl)))⟩
  have hfloor := h.floor
  rw [peeringMetadataProofFloorContext, hproof, map_some, hepoch, himported] at hfloor
  unfold validateConvergedPeeringMetadataProofFloor at hfloor
  split at hfloor
  · next hconverged =>
    simp only [convergedPeeringProofPreservesLocalState, any_some, Bool.and_eq_true,
      any_eq_true, decide_eq_true_eq, bne_iff_ne] at hconverged
    obtain ⟨⟨⟨⟨⟨-, e, he, hlt⟩, -⟩, hzero⟩, hhash⟩, -⟩ := hconverged
    exact .inr (.inr ⟨hzero, hhash, e, he, hlt⟩)
  · cases hmarker : record.peeringMetadataTransfer with
    | some marker =>
      rw [hmarker, validatePeeringMetadataProofFloor, failIf_eq_ok, not_not] at hfloor
      exact .inl (hfloor.trans (hf.transfer marker h.peering hmarker).symm)
    | none =>
      rw [hmarker, validatePeeringMetadataProofFloor, failIf_eq_ok, not_not, Bool.or_eq_true,
        any_eq_true] at hfloor
      rcases hfloor with hactive | ⟨e, he, hlater⟩
      · exact advances_of_activeFloor hactive
      · have hadvances := advances_of_observationFloor hlater
        exact he ▸ hadvances

end PgControlRecord

/-- The migration source is a proof accepted over the active one.  The invariant of the loop is
that the best proof so far is. -/
theorem advances_of_migrationSourceFrom {activeFloor : PgMetadataProof} {nodes : List NodeId}
    {sourceFloor : Option PgMetadataProof} {awaiting : Bool}
    (hsource : ∀ best, sourceFloor = some best →
      ProofAdvances activeFloor record.activeMetadataProofEpoch best s.clusterEpoch)
    (h : migrationSourceFrom s record activeFloor nodes sourceFloor awaiting = .ok proof) :
    ProofAdvances activeFloor record.activeMetadataProofEpoch proof s.clusterEpoch := by
  induction nodes generalizing sourceFloor awaiting with
  | nil =>
    rw [migrationSourceFrom, okOr_eq_ok] at h
    exact hsource proof h
  | cons nodeId rest ih =>
    unfold migrationSourceFrom at h
    split at h
    · exact ih hsource h
    · split at h
      · exact ih hsource h
      · next observation _ =>
        split at h
        · exact ih hsource h
        · next hcurrent =>
          rw [not_not] at hcurrent
          by_cases hprimary : record.activePrimary = some nodeId
          · simp only [hprimary, if_true] at h
            split at h
            · exact ih hsource h
            · next hready =>
              cases h
              have hsatisfies := not_not.mp fun hno => hready (.inr (.inr hno))
              exact hcurrent ▸ advances_of_observationFloorAtLogEpoch hsatisfies
          · simp only [hprimary, if_false] at h
            split at h
            · exact ih hsource h
            · next hready =>
              have hsatisfies := not_not.mp fun hno => hready (.inr (.inr hno))
              refine ih (fun best hbest => ?_) h
              cases hbest
              split
              · next current =>
                split
                · exact hsource current rfl
                · exact advances_of_activeFloor hsatisfies
              · exact advances_of_activeFloor hsatisfies

theorem advances_of_migrationSource {floor : PgMetadataProof}
    (hfloor : record.activeMetadataProof = some floor)
    (h : validateAuthoritativeMetadataMigrationSource s record actingSet = .ok proof) :
    ProofAdvances floor record.activeMetadataProofEpoch proof s.clusterEpoch := by
  simp only [validateAuthoritativeMetadataMigrationSource, bind_eq_ok, okOr_eq_ok] at h
  obtain ⟨activeFloor, hactive, h⟩ := h
  cases hactive.symm.trans hfloor
  exact advances_of_migrationSourceFrom (fun _ hnone => by cases hnone) h

theorem advances_of_fencedTransferFloor {floor : PgMetadataProof} {floorImported : Bool}
    {fenceEpoch : ClusterEpoch}
    (h : metadataProofSatisfiesFencedTransferFloor floor observed floorEpoch floorImported
      observedEpoch fenceEpoch = true) : ProofAdvances floor floorEpoch observed observedEpoch := by
  unfold metadataProofSatisfiesFencedTransferFloor at h
  split at h
  · next hactive => exact advances_of_activeFloor hactive
  · split at h
    · cases h
    · split at h
      · cases h
      · exact advances_of_observationFloor h

namespace PgControlRecord

theorem floorKept_changeActingSet {floor : Option PgMetadataProof × Option ClusterEpoch × Bool}
    (h : actingSetChangeFloor s record actingSet = .ok floor)
    (lease : Option PreviousPrimaryLease) :
    record.FloorKept s c pgId (record.changeActingSet actingSet lease floor) := by
  intro held hf
  rcases hf.state with hactive | hpeering
  · obtain ⟨hproof, hepoch, himported⟩ := hf.active hactive
    rw [actingSetChangeFloor, hactive] at h
    simp only [bind_eq_ok, pure_eq_ok] at h
    obtain ⟨source, hsource, rfl⟩ := h
    refine ⟨⟨source, held.epoch, held.imported⟩, holds_of_peering rfl rfl hepoch himported rfl ?_,
      .single (.advance ?_ (.inl rfl))⟩
    · intro marker hmarker
      simp [changeActingSet, hactive] at hmarker
    · exact hepoch ▸ advances_of_migrationSource hproof hsource
  · obtain ⟨hproof, hepoch, himported⟩ := hf.peering hpeering
    rw [actingSetChangeFloor, hpeering] at h
    simp only [hproof, bind_eq_ok, pure_eq_ok] at h
    obtain ⟨-, -, rfl⟩ := h
    refine ⟨held, holds_of_peering rfl rfl hepoch himported rfl ?_, .refl⟩
    intro marker hmarker
    refine hf.transfer marker hpeering ?_
    simp only [changeActingSet, hpeering] at hmarker
    split at hmarker
    · exact hmarker
    · cases hmarker

theorem floorKept_installTransfer {floor : PgMetadataProof × Option ClusterEpoch}
    {expected : ClusterEpoch} {transition : Option UnavailablePgTransitionMutationBinding}
    (hc : c = .setPgActingSetWithMetadataTransfer pgId actingSet transfer expected transition)
    (hfloor : transferFloor pgId record = .ok floor)
    (h : validateMetadataTransferProof s pgId record floor.1 floor.2 transfer = .ok ())
    (lease : Option PreviousPrimaryLease) (sourceNodeId : NodeId) :
    record.FloorKept s c pgId
      (record.installTransfer actingSet lease transfer s.clusterEpoch sourceNodeId) := by
  intro held hf
  refine ⟨⟨transfer.importedMetadataProof, some s.clusterEpoch, true⟩,
    holds_of_peering rfl rfl rfl rfl rfl (fun marker hmarker => by cases hmarker; rfl), ?_⟩
  simp only [validateMetadataTransferProof, bind_eq_ok, failIf_eq_ok, exists_const, not_lt] at h
  obtain ⟨hepoch, -, h⟩ := h
  refine .single (.transfer hc hepoch ?_ rfl)
  rcases hf.state with hactive | hpeering
  · obtain ⟨hproof, hproofEpoch, -⟩ := hf.active hactive
    simp only [transferFloor, hactive, bind_eq_ok, okOr_eq_ok, pure_eq_ok, hproof] at hfloor
    obtain ⟨_, hp, rfl⟩ := hfloor
    cases hp
    simp only [hactive, bind_eq_ok, pure_eq_ok, failIf_eq_ok, exists_eq_left', not_not] at h
    exact advances_of_activeFloor h
  · obtain ⟨hproof, hproofEpoch, himported⟩ := hf.peering hpeering
    simp only [transferFloor, hpeering, bind_eq_ok, okOr_eq_ok, pure_eq_ok, hproof] at hfloor
    obtain ⟨_, hp, rfl⟩ := hfloor
    cases hp
    simp only [hpeering] at h
    split at h
    · simp only [bind_eq_ok, okOr_eq_ok, pure_eq_ok, failIf_eq_ok, exists_eq_left', not_not,
        hproofEpoch] at h
      obtain ⟨fenceEpoch, -, h⟩ := h
      exact advances_of_fencedTransferFloor h
    · simp only [bind_eq_ok, pure_eq_ok, failIf_eq_ok, exists_eq_left', not_not] at h
      exact advances_of_activeFloor h

theorem floorKept_fenceActive (hactive : record.state = .active) {source : PgMetadataProof}
    (h : validateAuthoritativeMetadataMigrationSource s record record.actingSet = .ok source)
    (lease : Option PreviousPrimaryLease) (deadline : Option Nat)
    (fenceEpoch : Option ClusterEpoch) :
    record.FloorKept s c pgId (record.fenceActive lease (some source) deadline fenceEpoch) := by
  intro held hf
  obtain ⟨hproof, hepoch, himported⟩ := hf.active hactive
  refine ⟨⟨source, held.epoch, held.imported⟩,
    holds_of_peering rfl rfl hepoch himported rfl (fun _ hm => nomatch hm),
    .single (.advance ?_ (.inl rfl))⟩
  exact hepoch ▸ advances_of_migrationSource hproof h

/-- The authorization of a replacement carries the floor that the PG holds. -/
theorem floorKept_beginReplacement
    (h : validateBegin s body = .ok record) (lease : Option PreviousPrimaryLease) :
    record.FloorKept s c pgId (record.beginReplacement body lease) := by
  intro held hf
  -- the floor of the authorization is that of the source, which is the one held
  have hsource : ∀ source, transitionSource s record body.beginAtMs = .ok source →
      source.floor = held := by
    intro source hsource
    rcases hf.state with hactive | hpeering
    · obtain ⟨hproof, hepoch, himported⟩ := hf.active hactive
      simp only [transitionSource, hactive, activeTransitionSource, bind_eq_ok, okOr_eq_ok,
        failIf_eq_ok, pure_eq_ok, exists_const, hproof] at hsource
      obtain ⟨n, -, node, -, -, observation, -, floor, hfloor, -, rfl⟩ := hsource
      cases hfloor
      rw [hepoch, himported]
    · simp only [transitionSource, hpeering, peeringTransitionSource, bind_eq_ok, okOr_eq_ok,
        pure_eq_ok] at hsource
      obtain ⟨route, -, floor, hfloor, rfl⟩ := hsource
      have haccepted := hf.accepted
      rw [PgControlRecord.acceptedFloor, hpeering] at haccepted
      exact some.inj (hfloor.symm.trans haccepted)
  have hauthorization := (validateBegin_eq_ok h).2
  simp only [unavailablePgTransitionBeginAuthorization, bind_eq_ok, okOr_eq_ok,
    pure_eq_ok] at hauthorization
  obtain ⟨source, hs, sourceNode, -, observation, -, replacementId, -, replacement, -,
    sourceLease, -,
    replacementLease, -, hbody⟩ := hauthorization
  have hfloor := hsource source hs
  subst hfloor
  refine ⟨source.floor, holds_of_peering rfl ?_ ?_ ?_ rfl (fun _ hm => by cases hm), .refl⟩
  · exact congrArg (fun a => some a.sourceMetadataFloor) hbody.symm
  · exact congrArg (·.sourceMetadataFloorEpoch) hbody.symm
  · exact congrArg (·.sourceMetadataFloorImported) hbody.symm

end PgControlRecord

/-! ### Snapshots -/

/-- Every PG of `t` keeps its floor in `u`. -/
def FloorsKept (s : ClusterControlSnapshot) (c : ControlPlaneCommand)
    (t u : ClusterControlSnapshot) : Prop :=
  ∀ (pgId : PgId) (record : PgControlRecord), t.pgs[pgId]? = some record →
    ∃ record', u.pgs[pgId]? = some record' ∧ record.FloorKept s c pgId record'

section Snapshots

variable {s' u v : ClusterControlSnapshot}

theorem FloorsKept.of_pgs_eq (h : u.pgs = t.pgs) : FloorsKept s c t u :=
  fun _ record hr => ⟨record, h ▸ hr, .refl _ _ _ _⟩

theorem FloorsKept.trans (h : FloorsKept s c t u) (h' : FloorsKept s c u v) :
    FloorsKept s c t v := by
  intro pgId record hr
  obtain ⟨record', hr', hk⟩ := h pgId record hr
  obtain ⟨record'', hr'', hk'⟩ := h' pgId record' hr'
  exact ⟨record'', hr'', hk.trans hk'⟩

theorem bumpEpoch_pgs (h : s.bumpEpoch = .ok s') : s'.pgs = s.pgs := by
  obtain ⟨-, rfl⟩ := bumpEpoch_eq_ok h
  rfl

theorem applied_pgs (previous next : ClusterControlSnapshot)
    (response : ControlPlaneCommandResponse) (changed : Bool) :
    (appliedControlPlaneCommand previous next response changed).snapshot.pgs = next.pgs := by
  unfold appliedControlPlaneCommand
  split <;> rfl

end Snapshots

/-! ### Commands -/

section Commands

variable {s u : ClusterControlSnapshot} {a : AppliedControlPlaneCommand}

variable (hc : ∀ pgId state, c ≠ .setPgState pgId state)
include hc

/-- **No change of a record but that of `SetPgState` gives up the floor.** -/
theorem PgEdit.floorKept {record record' : PgControlRecord} (h : PgEdit s c pgId record record') :
    record.FloorKept s c pgId record' := by
  cases h with
  | kept => exact .refl _ _ _ _
  | advanceActiveProof nodeId restarted observation =>
    exact record.floorKept_advanceActiveProof nodeId restarted observation
  | proofEpoch hactive h => exact record.floorKept_proofEpoch hactive h
  | markPeering previous hne => exact record.floorKept_markPeering previous hne
  | changeActingSet hfloor lease => exact record.floorKept_changeActingSet hfloor lease
  | installTransfer hc hfloor hproof =>
    exact record.floorKept_installTransfer hc hfloor hproof _ _
  | fenceActive hactive hsource => exact record.floorKept_fenceActive hactive hsource _ _ _
  | fencePeering =>
    exact fun floor hf => ⟨floor, ⟨hf.accepted, hf.cleared, hf.transfer⟩, .refl⟩
  | beginReplacement h => exact record.floorKept_beginReplacement h _
  | setState h => exact absurd h (hc _ _)
  | activate h logEpoch => exact record.floorKept_activate h logEpoch

theorem Edit.floorsKept (h : Edit s c t u) : FloorsKept s c t u := by
  cases h with
  | timestamp timestampMs h => exact .of_pgs_eq (congrArg (·.pgs) h)
  | aside h _ => exact .of_pgs_eq (congrArg (·.pgs) h)
  | nodes h => exact .of_pgs_eq (congrArg (·.pgs) h)
  | pgs h slots =>
    intro pgId record hrecord
    have hslot := slots pgId
    rw [hrecord] at hslot
    generalize u.pgs[pgId]? = slot at hslot
    cases hslot with
    | edit h => exact ⟨_, rfl, h.floorKept hc⟩
  | retire pgId h => exact .of_pgs_eq (h ▸ retireTransition_pgs ..)
  | transition pgId f h => exact .of_pgs_eq (congrArg (·.pgs) h)
  | begins hbegins h => exact .of_pgs_eq (congrArg (·.pgs) h)

theorem Edits.floorsKept (h : Edits s c t u) : FloorsKept s c t u := by
  induction h with
  | refl => exact .of_pgs_eq rfl
  | tail _ hedit ih => exact ih.trans (hedit.floorsKept hc)

/-- **Every command other than `SetPgState` keeps the floors.** -/
theorem floorsKept_apply
    (h : applyControlPlaneCommand s c = .ok a) : FloorsKept s c s a.snapshot := by
  obtain ⟨next, response, flag, rfl, hmoved⟩ :=
    (arm_of_applyArm (applyControlPlaneCommand_eq_ok h).1).moved
  refine FloorsKept.trans ?_ (.of_pgs_eq (applied_pgs ..))
  cases hmoved with
  | keeps edits => exact edits.floorsKept hc
  | bumps bump before after =>
    exact ((before.floorsKept hc).trans (.of_pgs_eq (bumpEpoch_pgs bump))).trans
      (after.floorsKept hc)

end Commands

/-! ### Runs -/

/-- The state after an accepted command. -/
def acceptedCommand (s : ClusterControlSnapshot) (c : ControlPlaneCommand) :
    Option ClusterControlSnapshot :=
  match applyControlPlaneCommand s c with
  | .ok applied => some applied.snapshot
  | .error _ => none

/-- The commands of a run: all but `SetPgState`. -/
def NotSetPgState (_ : ClusterControlSnapshot) : ControlPlaneCommand → Prop
  | .setPgState .. => False
  | _ => True

instance (s : ClusterControlSnapshot) (c : ControlPlaneCommand) :
    Decidable (NotSetPgState s c) := by
  unfold NotSetPgState
  split <;> infer_instance

/-- The proof of an Active PG, with its epoch and provenance. -/
def ClusterControlSnapshot.activeProof (s : ClusterControlSnapshot) (pgId : PgId) :
    Option PeeringMetadataProofFloor :=
  (s.pgs[pgId]?.filter (·.state == .active)).bind PgControlRecord.acceptedFloor

theorem acceptedCommand_eq_some
    (h : acceptedCommand s c = some t) : ∃ a, applyControlPlaneCommand s c = .ok a ∧
      a.snapshot = t := by
  unfold acceptedCommand at h
  split at h
  · next a ha => exact ⟨a, ha, some.inj h⟩
  · cases h

/-- **The accepted proofs of a PG along a run**: from `floor` in `s`, each state of the run holds
the proof that the next command has made of it by its links. -/
inductive ProofChain (pgId : PgId) (s : ClusterControlSnapshot)
    (floor : PeeringMetadataProofFloor) : List ClusterControlSnapshot → ClusterControlSnapshot →
    PeeringMetadataProofFloor → Prop
  | refl : ProofChain pgId s floor [] s floor
  | tail {past : List ClusterControlSnapshot} {t u : ClusterControlSnapshot}
      {c : ControlPlaneCommand} {floor' floor'' : PeeringMetadataProofFloor}
      (prior : ProofChain pgId s floor past t floor') (next : acceptedCommand t c = some u)
      (links : ReflTransGen (ProofLink t c pgId) floor' floor'')
      (held : u.pgs[pgId]?.bind PgControlRecord.acceptedFloor = some floor'') :
      ProofChain pgId s floor (t :: past) u floor''

theorem keyed_empty : ClusterControlSnapshot.empty.view.Keyed := by
  refine ⟨fun h => ?_, fun h => ?_⟩ <;> simp [ClusterControlSnapshot.empty] at h

theorem keyed_of_commands {Ok : ClusterControlSnapshot → ControlPlaneCommand → Prop}
    {past : List ClusterControlSnapshot} (h : Run acceptedCommand Ok .empty past t) :
    t.view.Keyed := by
  refine h.invariant (I := fun t => t.view.Keyed) keyed_empty fun hk _ hnext => ?_
  obtain ⟨a, ha, rfl⟩ := acceptedCommand_eq_some hnext
  exact keyed_apply hk ha

/-- **A PG that holds a floor goes on to hold one that is linked to it.** -/
theorem holds_of_run {past : List ClusterControlSnapshot}
    (h : Run acceptedCommand NotSetPgState s past t) (hr : s.pgs[pgId]? = some record)
    (hf : record.Holds floor) :
    ∃ record' floor', t.pgs[pgId]? = some record' ∧ record'.Holds floor' ∧
      ProofChain pgId s floor past t floor' := by
  induction h with
  | refl => exact ⟨record, floor, hr, hf, .refl⟩
  | @tail past t u c _ ok next ih =>
    obtain ⟨record', floor', hr', hf', hchain⟩ := ih
    obtain ⟨a, ha, rfl⟩ := acceptedCommand_eq_some next
    have hkept : FloorsKept t c t a.snapshot := by
      refine floorsKept_apply (fun pgId state heq => ?_) ha
      rw [heq] at ok
      exact ok
    obtain ⟨record'', hr'', hfloor⟩ := hkept pgId record' hr'
    obtain ⟨floor'', hf'', hlinks⟩ := hfloor floor' hf'
    refine ⟨record'', floor'', hr'', hf'', hchain.tail next hlinks ?_⟩
    rw [hr'']
    exact hf''.accepted

/-- The proof of an Active PG is a floor that it holds. -/
theorem holds_of_activeProof
    {proof : PeeringMetadataProofFloor} (h : s.activeProof pgId = some proof) :
    ∃ record, s.pgs[pgId]? = some record ∧ record.state = .active ∧ record.Holds proof := by
  obtain ⟨record, hrecord, haccepted⟩ := bind_eq_some_iff.mp h
  obtain ⟨hr, hstate⟩ := filter_eq_some_iff.mp hrecord
  have hactive : record.state = .active := by simpa using hstate
  refine ⟨record, hr, hactive, haccepted, fun hpeering => ?_, fun _ hpeering => ?_⟩ <;>
    exact absurd (hactive.symm.trans hpeering) (by decide)

def reportProof (observedEpoch scanGeneration : Nat)
    (observed : Option (PgState × PgMetadataProof)) : ControlPlaneCommand :=
  .recordNodeHeartbeat ⟨1, 1, "a", observedEpoch, 10000, scanGeneration, ∅,
    observed.toList.map fun (state, proof) => ⟨0, state, proof, observedEpoch, none⟩⟩
    100000 110000 none

def activationCommands : List ControlPlaneCommand :=
  [.bootstrapInitialClusterMap [(1, "a")] [0], reportProof 2 1 none,
    reportProof 3 2 (some (.peering, ⟨5, ⟨1, 7⟩, ⟨1, 9⟩⟩)), .completePgPeering 0 1 1 100000]

def restartedLogCommands : List ControlPlaneCommand :=
  [reportProof 4 3 (some (.active, ⟨1, ⟨1, 8⟩, ⟨1, 9⟩⟩))]

/-- The commands that neither set a state by hand nor transfer metadata. -/
def NoTransfer (_ : ClusterControlSnapshot) : ControlPlaneCommand → Prop
  | .setPgState .. => False
  | .setPgActingSetWithMetadataTransfer .. => False
  | _ => True

instance (s : ClusterControlSnapshot) (c : ControlPlaneCommand) : Decidable (NoTransfer s c) := by
  unfold NoTransfer
  split <;> infer_instance

end Argmin.ControlPlane
