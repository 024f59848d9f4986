import Argmin.ControlPlane.Publication

/-!
# Completing peerings together

`readyPgPeeringCompletions` scans the Peering PGs for those that could become Active now, and
`CompleteReadyPgPeerings` activates a list of them under one new epoch.

* `ClusterControlSnapshot.afterBatch` — the state a batch produces, in closed form;
* `readyPgPeeringCompletion_eq_some` — what the scan checks for one PG;
* `ready_scan_sound_complete` — the list that the scan returns is accepted as one batch, and no PG
  that could be completed on its own is missing from it;
* `batch_completes_individually` — a batch does to every PG what its own command would have done.
-/

namespace Argmin.ControlPlane

open NodeControlRecord PgControlRecord

open Std (ExtTreeMap)
open List hiding getElem?_modify_eq
open Fallible TreeMap ClusterControlSnapshot

variable {a : AppliedControlPlaneCommand} {logEpoch : ClusterEpoch} {nodeId : NodeId}
  {expected : Option ExpectedPgPeeringCompletion}

variable {epoch : ClusterEpoch} {node : NodeControlRecord} {primary : NodeId} {pgId : PgId}
  {proof : PgMetadataProof}

/-! ### The scan -/

/-- The errors of the peering reports that leave a PG for a later scan. -/
def ControlPlaneError.postponesPeering : ControlPlaneError → Bool
  | .pgPeeringMissingObservation .. => true
  | .pgPeeringObservationNotPeering .. => true
  | .pgPeeringMetadataProofMismatch .. => true
  | .pgPeeringPendingMetadataCommand .. => true
  | _ => false

variable (self : ClusterControlSnapshot)

/-- One turn of the loop of `ready_pg_peering_completions`. -/
def readyPgPeeringCompletion (nowMs : Nat)
    (record : PgControlRecord) : Except ControlPlaneError (Option ReadyPgPeeringCompletion) :=
  if record.state ≠ .peering then pure none
  else do
    let recovery ← pendingMetadataCommandRecoveryForPg self record
    if recovery.isSome then pure none
    else if unavailableReplacementGraceElapsedForPg self record nowMs then pure none
    else if self.unavailablePgPlacementTransitions[record.pgId]?.any fun transition =>
        !(validateUnavailablePgPayloadReadinessAt self transition nowMs).isOk then pure none
    else if record.metadataTransferFenced then pure none
    else match peeringPgPrimaryForSnapshot self record nowMs with
      | none => pure none
      | some primary => do
        -- the source expects the primary to be a known node
        let primaryNode ← okOr self.nodes[primary]? (.unknownNode primary)
        if record.previousPrimaryLease.any (·.blocksActivation primary
            primaryNode.nodeIncarnation primaryNode.endpoint nowMs) then pure none
        else match validatePgPeeringObservations self record.pgId record.actingSet nowMs with
          | .ok proof =>
            if (validateConvergedPeeringMetadataProofFloor self.clusterEpoch record.pgId primary
                record.peeringMetadataProofFloorContext record.peeringMetadataTransfer proof).isOk
            then pure (some ⟨record.pgId, primary, primaryNode.nodeIncarnation, proof,
              self.clusterEpoch⟩)
            else pure none
          | .error error => if error.postponesPeering then pure none else .error error

def ClusterControlSnapshot.readyPgPeeringCompletions (nowMs : Nat) :
    Except ControlPlaneError (List ReadyPgPeeringCompletion) := do
  let ready ← (values self.pgs).mapM (readyPgPeeringCompletion self nowMs)
  pure (ready.filterMap id)

/-! ### The state after a batch -/

section Fold

variable {s t : ClusterControlSnapshot} {ready : List ReadyPgPeeringCompletion}
  {f : ReadyPgPeeringCompletion → PgControlRecord → PgControlRecord}

/-- Changing the records of distinct PGs one after the other changes each once. -/
theorem getElem?_foldl_modifyPg (hdistinct : (ready.map (·.pgId)).Nodup) (pgId : PgId) :
    (ready.foldl (fun next completion => next.modifyPg completion.pgId (f completion)) t).pgs[pgId]?
      = t.pgs[pgId]?.map fun record =>
        ((ready.find? (·.pgId == pgId)).map (f · record)).getD record := by
  induction ready generalizing t with
  | nil =>
    simp
  | cons completion rest ih =>
    obtain ⟨hfresh, hrest⟩ := nodup_cons.mp hdistinct
    rw [foldl_cons, ih hrest]
    change Option.map _ (t.pgs.modify completion.pgId (f completion))[pgId]? = _
    rw [getElem?_modify_eq]
    by_cases heq : completion.pgId = pgId
    · subst heq
      have hnone : rest.find? (·.pgId == completion.pgId) = none := by
        refine find?_eq_none.mpr fun other hother hsame => hfresh ?_
        exact mem_map.mpr ⟨other, hother, beq_iff_eq.mp hsame⟩
      have hfirst : (completion :: rest).find? (·.pgId == completion.pgId) = some completion :=
        find?_cons_of_pos (beq_self_eq_true _)
      rw [if_pos rfl, hnone, hfirst, Option.map_map]
      rfl
    · rw [if_neg heq, find?_cons_of_neg (by simpa using heq)]

theorem modifyPg_congr {f g : PgControlRecord → PgControlRecord}
    (h : ∀ record, t.pgs[pgId]? = some record → f record = g record) :
    t.modifyPg pgId f = t.modifyPg pgId g :=
  congrArg (fun pgs => { t with pgs := pgs }) (modify_congr h)

theorem modifyPg_eq_self {f : PgControlRecord → PgControlRecord}
    (h : ∀ record, t.pgs[pgId]? = some record → f record = record) : t.modifyPg pgId f = t :=
  congrArg (fun pgs => { t with pgs := pgs }) (modify_eq_self h)

theorem foldl_modifyPg_eq :
    ready.foldl (fun next completion => next.modifyPg completion.pgId (f completion)) t =
      { t with pgs := (ready.foldl (fun next completion =>
        next.modifyPg completion.pgId (f completion)) t).pgs } := by
  induction ready generalizing t with
  | nil => rfl
  | cons completion rest ih =>
    rw [foldl_cons, ih]
    rfl

end Fold

/-- The log epoch that the primary of a completion has reported for its PG. -/
def reportedLogEpoch (completion : ReadyPgPeeringCompletion) : ClusterEpoch :=
  ((self.nodes[completion.primary]?.bind (·.pgObservations[completion.pgId]?)).map
    (·.metadataLogEpoch)).getD 0

/-- What a completion makes of the record of its PG. -/
def activateReady (completion : ReadyPgPeeringCompletion)
    (record : PgControlRecord) : PgControlRecord :=
  if record.state = .active then record
  else record.activate completion.primary completion.activeMetadataProof
    (reportedLogEpoch self completion)

/-- What a batch makes of the record of a PG. -/
def batchRecord (ready : List ReadyPgPeeringCompletion)
    (pgId : PgId) (record : PgControlRecord) : PgControlRecord :=
  match ready.find? (·.pgId == pgId) with
  | none => record
  | some completion => (activateReady self completion record).recordProofEpoch completion

/-- **The state after a batch** that activates a PG. -/
def ClusterControlSnapshot.afterBatch (readyAtMs : Nat)
    (ready : List ReadyPgPeeringCompletion) : ClusterControlSnapshot :=
  { self.recordCommittedTimestamp readyAtMs with
    clusterEpoch := self.clusterEpoch + 1
    nodes := self.nodes.map fun _ node => { node with pgObservations := ∅ }
    pgs := self.pgs.map (batchRecord self ready) }

section AfterBatch

variable {s t : ClusterControlSnapshot} {readyAtMs : Nat} {ready : List ReadyPgPeeringCompletion}
  {completion : ReadyPgPeeringCompletion} {record : PgControlRecord}

theorem reportedLogEpoch_of_primaryMetadataLogEpoch
    (h : primaryMetadataLogEpoch s completion.pgId completion.primary = .ok epoch) :
    reportedLogEpoch s completion = epoch := by
  rw [primaryMetadataLogEpoch, okOr_eq_ok] at h
  rw [reportedLogEpoch, h]
  rfl

/-- A PG without a placement transition is activated by changing its record. -/
theorem activatePg_of_free (h : t.unavailablePgPlacementTransitions[pgId]? = none) :
    t.activatePg pgId primary proof logEpoch =
      t.modifyPg pgId (·.activate primary proof logEpoch) := by
  have hfree :
      (t.modifyPg pgId (·.activate primary proof logEpoch)).unavailablePgPlacementTransitions[
      pgId]? = none := h
  rw [activatePg, retireTransition, hfree]

/-- The loop over a batch of PGs without placement transitions. -/
theorem activateReadyFrom_eq
    (hlogged : ∀ completion ∈ ready,
      ∃ epoch, primaryMetadataLogEpoch s completion.pgId completion.primary = .ok epoch)
    (hfree : ∀ completion ∈ ready, t.unavailablePgPlacementTransitions[completion.pgId]? = none) :
    activateReadyFrom s ready t = .ok (ready.foldl (fun next completion =>
      next.modifyPg completion.pgId (activateReady s completion)) t) := by
  induction ready generalizing t with
  | nil => rfl
  | cons completion rest ih =>
    obtain ⟨epoch, hepoch⟩ := hlogged completion mem_cons_self
    have hstep : (if t.pgs[completion.pgId]?.any (·.state == .active) then t
        else t.activatePg completion.pgId completion.primary completion.activeMetadataProof
          epoch) = t.modifyPg completion.pgId (activateReady s completion) := by
      rw [activatePg_of_free (hfree completion mem_cons_self),
        ← reportedLogEpoch_of_primaryMetadataLogEpoch hepoch]
      by_cases hactive : t.pgs[completion.pgId]?.any (·.state == .active) = true
      · rw [if_pos hactive]
        refine (modifyPg_eq_self fun record hrecord => ?_).symm
        rw [hrecord, Option.any_some, beq_iff_eq] at hactive
        exact if_pos hactive
      · rw [if_neg hactive]
        refine modifyPg_congr fun record hrecord => ?_
        rw [hrecord, Option.any_some, beq_iff_eq] at hactive
        exact (if_neg hactive).symm
    rw [activateReadyFrom, hepoch, ok_bind, hstep, foldl_cons]
    refine ih (fun other hother => hlogged other (mem_cons_of_mem _ hother)) fun other hother => ?_
    exact hfree other (mem_cons_of_mem _ hother)

theorem validateDistinctCompletionsFrom_eq_ok {seen : List PgId} :
    validateDistinctCompletionsFrom ready seen = .ok () ↔
      (ready.map (·.pgId)).Nodup ∧ ∀ completion ∈ ready, completion.pgId ∉ seen := by
  induction ready generalizing seen with
  | nil => simp [validateDistinctCompletionsFrom]
  | cons completion rest ih =>
    simp only [validateDistinctCompletionsFrom, check_bind_eq_ok, failIf_eq_ok, ih, map_cons,
      nodup_cons, mem_cons, forall_eq_or_imp, not_or, mem_map, not_exists, not_and]
    constructor
    · rintro ⟨hfresh, hdistinct, hrest⟩
      refine ⟨⟨fun other hother => (hrest other hother).1, hdistinct⟩, hfresh,
        fun other hother => ?_⟩
      exact (hrest other hother).2
    · rintro ⟨⟨hnew, hdistinct⟩, hfresh, hrest⟩
      exact ⟨hfresh, hdistinct, fun other hother => ⟨hnew other hother, hrest other hother⟩⟩

/-- What a batch has to pass before anything is changed. -/
structure BatchChecked (s : ClusterControlSnapshot) (readyAtMs : Nat)
    (ready : List ReadyPgPeeringCompletion) : Prop where
  time : s.validateServingTimestamp readyAtMs = .ok ()
  distinct : (ready.map (·.pgId)).Nodup
  checked : ∀ completion ∈ ready, validateReadyCompletion s readyAtMs completion = .ok ()
  logged : ∀ completion ∈ ready,
    ∃ epoch, primaryMetadataLogEpoch s completion.pgId completion.primary = .ok epoch

/-- A PG of a batch has no placement transition: an active one records no payload readiness. -/
theorem free_of_validateReadyCompletion (hs : CurrentStateValid s)
    (h : validateReadyCompletion s readyAtMs completion = .ok ()) :
    s.unavailablePgPlacementTransitions[completion.pgId]? = none := by
  rw [validateReadyCompletion, check_bind_eq_ok, onSome_eq_ok] at h
  cases htransition : s.unavailablePgPlacementTransitions[completion.pgId]? with
  | none => rfl
  | some transition =>
    have hready := h.1 transition htransition
    have hactive := hs.active completion.pgId transition htransition
    simp only [validateActiveTransition, check_bind_eq_ok, failIf_eq_ok] at hactive
    rw [validateUnavailablePgPayloadReadinessAt, okOr_bind_eq_ok] at hready
    obtain ⟨readiness, hsome, -⟩ := hready
    exact absurd (Option.isSome_of_eq_some hsome) hactive.2.1

theorem BatchChecked.free (h : BatchChecked s readyAtMs ready) (hs : CurrentStateValid s) :
    ∀ completion ∈ ready, s.unavailablePgPlacementTransitions[completion.pgId]? = none :=
  fun completion hmem => free_of_validateReadyCompletion hs (h.checked completion hmem)

theorem getElem?_afterBatch : (s.afterBatch readyAtMs ready).pgs[pgId]? =
    s.pgs[pgId]?.map (batchRecord s ready pgId) :=
  ExtTreeMap.getElem?_map

/-- The epoch advances while there is a next one. -/
theorem exists_bumpEpoch (h : t.clusterEpoch + 1 < 2 ^ 64) :
    ∃ bumped, t.bumpEpoch = .ok bumped := by
  have hadd : checkedAdd t.clusterEpoch 1 = some (t.clusterEpoch + 1) :=
    checkedAdd_eq_some.mpr ⟨rfl, h⟩
  rw [bumpEpoch, nextEpoch, hadd]
  exact ⟨_, rfl⟩

/-- The two loops of a batch, around the end of the epoch. -/
theorem foldl_recordProofEpoch_eq (hdistinct : (ready.map (·.pgId)).Nodup)
    {activated bumped : ClusterControlSnapshot}
    (h : activated = ready.foldl (fun next completion =>
      next.modifyPg completion.pgId (activateReady s completion))
        (s.recordCommittedTimestamp readyAtMs)) (hbump : activated.bumpEpoch = .ok bumped) :
    ready.foldl (fun next completion =>
        next.modifyPg completion.pgId (·.recordProofEpoch completion)) bumped =
      s.afterBatch readyAtMs ready := by
  have hactivated := h.trans foldl_modifyPg_eq
  have hpgs (pgId : PgId) := h ▸ getElem?_foldl_modifyPg hdistinct
    (f := activateReady s) (t := s.recordCommittedTimestamp readyAtMs) pgId
  have hframe : bumped = { s.afterBatch readyAtMs ready with pgs := activated.pgs } := by
    rw [(bumpEpoch_eq_ok hbump).2, hactivated]
    rfl
  rw [hframe, foldl_modifyPg_eq]
  refine congrArg (fun pgs => { s.afterBatch readyAtMs ready with pgs := pgs })
    (ExtTreeMap.ext_getElem? fun pgId => ?_)
  rw [getElem?_foldl_modifyPg hdistinct, ExtTreeMap.getElem?_map]
  change Option.map _ activated.pgs[pgId]? = _
  rw [hpgs, Option.map_map]
  refine Option.map_congr fun record _ => ?_
  unfold batchRecord
  cases ready.find? (·.pgId == pgId) <;> rfl

/-- The PG is known and not Active. -/
def ClusterControlSnapshot.Inactive (s : ClusterControlSnapshot) (pgId : PgId) : Prop :=
  ∃ record, s.pgs[pgId]? = some record ∧ record.state ≠ .active

theorem any_inactive_iff : (ready.any fun completion =>
    s.pgs[completion.pgId]?.any (·.state != .active)) = true ↔
      ∃ completion ∈ ready, s.Inactive completion.pgId := by
  simp only [any_eq_true, Option.any_eq_true, bne_iff_ne]
  rfl

/-- **A checked batch that has a PG to activate** produces the state in closed form. -/
theorem BatchChecked.apply_eq (h : BatchChecked s readyAtMs ready) (hs : CurrentStateValid s)
    (hroom : s.clusterEpoch + 1 < 2 ^ 64)
    (hany : ∃ completion ∈ ready, s.Inactive completion.pgId) :
    applyCompleteReadyPgPeerings s readyAtMs ready =
      .ok (appliedControlPlaneCommand s (s.afterBatch readyAtMs ready) .completeReadyPgPeerings
        true) := by
  have hne : ready ≠ [] := by
    obtain ⟨completion, hmem, -⟩ := hany
    exact ne_nil_of_mem hmem
  have hdistinct : validateDistinctCompletionsFrom ready [] = .ok () :=
    validateDistinctCompletionsFrom_eq_ok.mpr ⟨h.distinct, fun _ _ => not_mem_nil⟩
  obtain ⟨activated, heq⟩ : ∃ activated, activated = ready.foldl (fun next completion =>
      next.modifyPg completion.pgId (activateReady s completion))
        (s.recordCommittedTimestamp readyAtMs) := ⟨_, rfl⟩
  have hactivated : activateReadyFrom s ready (s.recordCommittedTimestamp readyAtMs) =
      .ok activated := heq ▸ activateReadyFrom_eq h.logged (h.free hs)
  obtain ⟨bumped, hbump⟩ : ∃ bumped, activated.bumpEpoch = .ok bumped :=
    exists_bumpEpoch (by rw [heq, foldl_modifyPg_eq]; exact hroom)
  rw [applyCompleteReadyPgPeerings, h.time, ok_bind, if_neg hne, hdistinct, ok_bind,
    forM_eq_ok.mpr h.checked, ok_bind, hactivated, ok_bind]
  simp only [any_inactive_iff.mpr hany, if_true]
  rw [hbump, ok_bind]
  exact congrArg (fun next => Except.ok (appliedControlPlaneCommand s next
    .completeReadyPgPeerings true)) (foldl_recordProofEpoch_eq h.distinct heq hbump)

/-- A PG of a batch is Active under the primary named, or peering with that primary acting. -/
theorem primary_of_validateReadyCompletion
    (h : validateReadyCompletion s readyAtMs completion = .ok ()) :
    ∃ record, s.pgs[completion.pgId]? = some record ∧ completion.primary ∈ record.actingSet ∧
      (record.state = .active ∧ record.activePrimary = some completion.primary ∨
        record.state = .peering ∧ completion.activeMetadataProofEpoch = s.clusterEpoch) := by
  rw [validateReadyCompletion, check_bind_eq_ok, bind_eq_ok] at h
  obtain ⟨-, validated, hvalidated, -⟩ := h
  obtain ⟨record, hrecord, hacts, -, hcases⟩ := validatePgPeeringCompletion_eq_ok hvalidated
  refine ⟨record, hrecord, hacts, ?_⟩
  rcases hcases with ⟨hactive, hprimary, -⟩ | ⟨proof, -, hcompletes⟩
  · exact .inl ⟨hactive, hprimary⟩
  · exact .inr ⟨hcompletes.peering, hcompletes.expectedEpoch _ rfl⟩

/-- The record of a PG that a batch activates. -/
theorem recordProofEpoch_activateReady (h : record.state ≠ .active) :
    (activateReady s completion record).recordProofEpoch completion =
      { record.activate completion.primary completion.activeMetadataProof
          (reportedLogEpoch s completion) with
        activeMetadataProofEpoch := some completion.activeMetadataProofEpoch } := by
  rw [activateReady, if_neg h, recordProofEpoch, if_pos ⟨rfl, rfl, rfl⟩]

/-- A batch leaves an Active PG as it is, up to the epoch of its proof. -/
theorem recordProofEpoch_activateReady_active (h : record.state = .active) :
    ∃ epoch, (activateReady s completion record).recordProofEpoch completion =
        { record with activeMetadataProofEpoch := epoch } ∧
      (record.activeMetadataProofEpoch ≠ none → epoch ≠ none) := by
  rw [activateReady, if_pos h, recordProofEpoch]
  split
  · exact ⟨_, rfl, fun _ => Option.some_ne_none _⟩
  · exact ⟨record.activeMetadataProofEpoch, rfl, fun hsome => hsome⟩

/-- An activated PG record is well formed. -/
theorem validatePgRecord_activate (htopology : t.initialTopology = s.initialTopology)
    (hnodes : ∀ nodeId, s.nodes.contains nodeId = true → t.nodes.contains nodeId = true)
    {proofEpoch : ClusterEpoch} (hacts : primary ∈ record.actingSet)
    (h : validatePgRecord s record = .ok ()) :
    validatePgRecord t { record.activate primary proof logEpoch with
      activeMetadataProofEpoch := some proofEpoch } = .ok () := by
  simp only [validatePgRecord, htopology, check_bind_eq_ok, failIf_eq_ok, onSome_eq_ok] at h ⊢
  obtain ⟨hnonempty, hpolicy, hacting, -, -⟩ := h
  refine ⟨hnonempty, hpolicy, validateActingNodesFrom_mono hnodes hacting,
    (fun previous hsome => nomatch hsome), ?_⟩
  simp only [activate, validateActivePgState, okOr_bind_eq_ok, check_bind_eq_ok,
    failIf_eq_ok]
  exact ⟨primary, rfl, failIf_of_not (not_not.mpr hacts), failIf_of_not (Option.some_ne_none _),
    Option.some_ne_none _, failIf_of_not (Option.some_ne_none _),
    by simp [carriesPeeringState]⟩

/-- An Active PG record stays well formed when its proof epoch changes. -/
theorem validatePgRecord_proofEpoch {epoch : Option ClusterEpoch} (hactive : record.state = .active)
    (hepoch : record.activeMetadataProofEpoch ≠ none → epoch ≠ none)
    (h : validatePgRecord s record = .ok ()) :
    validatePgRecord s { record with activeMetadataProofEpoch := epoch } = .ok () := by
  simp only [validatePgRecord, hactive, check_bind_eq_ok] at h ⊢
  obtain ⟨hnonempty, hpolicy, hacting, hprevious, hstate⟩ := h
  refine ⟨hnonempty, hpolicy, hacting, hprevious, ?_⟩
  simp only [validateActivePgState, okOr_bind_eq_ok, check_bind_eq_ok, failIf_eq_ok] at hstate ⊢
  obtain ⟨primary, hprimary, hacts, hproof, hproofEpoch, hrest⟩ := hstate
  exact ⟨primary, hprimary, hacts, hproof, hepoch hproofEpoch, hrest⟩

theorem batchRecord_of_notMem (h : ∀ completion ∈ ready, completion.pgId ≠ pgId)
    (record : PgControlRecord) : batchRecord s ready pgId record = record := by
  have hnone : ready.find? (·.pgId == pgId) = none :=
    find?_eq_none.mpr fun completion hmem heq => h completion hmem (beq_iff_eq.mp heq)
  rw [batchRecord, hnone]

theorem batchRecord_of_mem (hdistinct : (ready.map (·.pgId)).Nodup)
    (hmem : completion ∈ ready) :
    batchRecord s ready completion.pgId record =
      (activateReady s completion record).recordProofEpoch completion := by
  have hfind : ready.find? (·.pgId == completion.pgId) = some completion := by
    cases hfound : ready.find? (·.pgId == completion.pgId) with
    | none =>
      exact absurd (beq_self_eq_true _) (find?_eq_none.mp hfound completion hmem)
    | some other =>
      have hother := mem_of_find?_eq_some hfound
      have hsame : other.pgId = completion.pgId := by simpa using find?_some hfound
      exact congrArg some (inj_on_of_nodup_map hdistinct hother hmem hsame)
  rw [batchRecord, hfind]

/-- The three ways in which a batch treats a PG. -/
theorem BatchChecked.record_cases (h : BatchChecked s readyAtMs ready)
    (hrecord : s.pgs[pgId]? = some record) :
    batchRecord s ready pgId record = record ∨
      (record.state = .active ∧ ∃ epoch, batchRecord s ready pgId record =
          { record with activeMetadataProofEpoch := epoch } ∧
        (record.activeMetadataProofEpoch ≠ none → epoch ≠ none)) ∨
      ∃ completion ∈ ready, completion.pgId = pgId ∧ completion.primary ∈ record.actingSet ∧
        record.state = .peering ∧ batchRecord s ready pgId record =
          { record.activate completion.primary completion.activeMetadataProof
              (reportedLogEpoch s completion) with
            activeMetadataProofEpoch := some completion.activeMetadataProofEpoch } := by
  by_cases hnamed : ∃ completion ∈ ready, completion.pgId = pgId
  · obtain ⟨completion, hmem, rfl⟩ := hnamed
    obtain ⟨other, hother, hacts, hcases⟩ :=
      primary_of_validateReadyCompletion (h.checked completion hmem)
    cases hrecord.symm.trans hother
    rw [batchRecord_of_mem h.distinct hmem]
    rcases hcases with ⟨hactive, -⟩ | ⟨hpeering, -⟩
    · exact .inr (.inl ⟨hactive, recordProofEpoch_activateReady_active hactive⟩)
    · refine .inr (.inr ⟨completion, hmem, rfl, hacts, hpeering, ?_⟩)
      exact recordProofEpoch_activateReady (hpeering ▸ PgState.noConfusion)
  · exact .inl (batchRecord_of_notMem (fun completion hmem heq => hnamed ⟨completion, hmem, heq⟩) _)

/-- **The state after a checked batch is well formed.** -/
theorem BatchChecked.valid (h : BatchChecked s readyAtMs ready) (hs : s.RouteInv)
    (hvalid : validatePublicationInvariants s = .ok ())
    (hclock : ClockAdvances s (s.afterBatch readyAtMs ready)) :
    validatePublicationInvariants ((s.afterBatch readyAtMs ready).recordHistoryFrom s) =
      .ok () := by
  obtain ⟨hhistory, hcurrent⟩ := (validatePublicationInvariants_eq_ok hs.order).mp hvalid
  have hends : EndsEpoch s (s.afterBatch readyAtMs ready) :=
    ⟨rfl, rfl, rfl, rfl, rfl, rfl, hclock, fun _ => ExtTreeMap.contains_map⟩
  have hle : s.clusterEpoch ≤ ((s.afterBatch readyAtMs ready).recordHistoryFrom s).clusterEpoch :=
    Nat.le_succ _
  have hnodes (nodeId : NodeId) (hknown : s.nodes.contains nodeId = true) :
      ((s.afterBatch readyAtMs ready).recordHistoryFrom s).nodes.contains nodeId = true :=
    ExtTreeMap.contains_map.trans hknown
  have hrecords (pg : PgControlRecord) (hpg : pg ∈ values (s.afterBatch readyAtMs ready).pgs) :
      ∃ pgId record, s.pgs[pgId]? = some record ∧ pg = batchRecord s ready pgId record := by
    obtain ⟨pgId, hget⟩ := mem_values.mp hpg
    rw [getElem?_afterBatch] at hget
    obtain ⟨record, hrecord, heq⟩ := Option.map_eq_some_iff.mp hget
    exact ⟨pgId, record, hrecord, heq.symm⟩
  refine valid_of_endsEpoch hends hs hvalid
    (hends.historyValid hs hhistory (fun pg hpg epoch hepoch hbelow => ?_)
      fun transition htransition => ?_)
    (fun key transition hget => ?_) (fun pgId transition hget => ?_) hcurrent.lineages
    fun pg hpg => ?_
  · -- an activated PG names no transfer source any more
    obtain ⟨pgId, record, hrecord, rfl⟩ := hrecords pg hpg
    have hsource : record.peeringMetadataTransferSourceRouteEpoch = some epoch := by
      rcases h.record_cases hrecord with heq | ⟨-, other, heq, -⟩ | ⟨completion, -, -, -, -, heq⟩
      · exact heq ▸ hepoch
      · rwa [heq] at hepoch
      · rw [heq] at hepoch
        cases hepoch
    rcases hbelow.lt_or_eq with hlt | heq
    · exact .inr ⟨hlt, hhistory.sources record (mem_values.mpr ⟨pgId, hrecord⟩) epoch hsource hlt⟩
    · exact .inl heq
  · exact (hhistory.transitions transition htransition).step hends.stepRecorded hs rfl htransition
  · obtain ⟨hkey, hinvariant⟩ := hcurrent.retained key transition hget
    refine ⟨hkey, validateUnavailablePgTransitionInvariant_mono ?_ hle hinvariant⟩
    rfl
  · refine validateActiveTransition_mono ?_ hle ?_ (hcurrent.active pgId transition hget)
    · rfl
    · change ((s.afterBatch readyAtMs ready).pgs[pgId]?).map _ = _
      rw [getElem?_afterBatch, Option.map_map]
      refine Option.map_congr fun record _ => ?_
      rw [Function.comp_apply, batchRecord_of_notMem]
      rintro completion hmem rfl
      exact Option.some_ne_none _ (hget.symm.trans (h.free hcurrent completion hmem))
  · obtain ⟨pgId, record, hrecord, rfl⟩ := hrecords pg hpg
    have hold := hcurrent.pgs record (mem_values.mpr ⟨pgId, hrecord⟩)
    rcases h.record_cases hrecord with heq | ⟨hactive, other, heq, hsome⟩ |
      ⟨completion, -, -, hacts, -, heq⟩
    · rw [heq]
      refine validatePgRecord_mono ?_ hle hnodes hold
      rfl
    · rw [heq]
      refine validatePgRecord_mono ?_ hle hnodes (validatePgRecord_proofEpoch hactive hsome hold)
      rfl
    · rw [heq]
      refine validatePgRecord_activate ?_ hnodes hacts hold
      rfl

end AfterBatch

/-! ### What the scan checks -/

/-- A PG that the scan returns, with its completion. -/
structure ReadyFor (s : ClusterControlSnapshot) (nowMs : Nat) (record : PgControlRecord)
    (completion : ReadyPgPeeringCompletion) : Prop where
  peering : record.state = .peering
  recovered : pendingMetadataCommandRecoveryForPg s record = .ok none
  inGrace : unavailableReplacementGraceElapsedForPg s record nowMs = false
  payload : ∀ transition, s.unavailablePgPlacementTransitions[record.pgId]? = some transition →
    validateUnavailablePgPayloadReadinessAt s transition nowMs = .ok ()
  unfenced : record.metadataTransferFenced = false
  primary : peeringPgPrimaryForSnapshot s record nowMs = some completion.primary
  lease : ∃ node, s.nodes[completion.primary]? = some node ∧
    node.nodeIncarnation = completion.nodeIncarnation ∧
    ∀ previous, record.previousPrimaryLease = some previous →
      previous.blocksActivation completion.primary completion.nodeIncarnation node.endpoint
        nowMs = false
  proof : validatePgPeeringObservations s record.pgId record.actingSet nowMs =
    .ok completion.activeMetadataProof
  floor : validateConvergedPeeringMetadataProofFloor s.clusterEpoch record.pgId completion.primary
    record.peeringMetadataProofFloorContext record.peeringMetadataTransfer
    completion.activeMetadataProof = .ok ()
  pgId : completion.pgId = record.pgId
  epoch : completion.activeMetadataProofEpoch = s.clusterEpoch

section Scan

variable {s : ClusterControlSnapshot} {nowMs : Nat} {record : PgControlRecord}
  {completion : ReadyPgPeeringCompletion}

theorem isOk_eq_true {ε : Type} {x : Except ε Unit} : x.isOk = true ↔ x = .ok () := by
  cases x with
  | error e => simp [Except.isOk, Except.toBool]
  | ok u => simp [Except.isOk, Except.toBool]

theorem isOk_any_eq_false {ε α : Type} {o : Option α} {f : α → Except ε Unit} :
    ¬o.any (fun a => !(f a).isOk) = true ↔ ∀ a, o = some a → f a = .ok () := by
  cases o with
  | none => simp
  | some a => simp [isOk_eq_true]

theorem readyFor_of_readyPgPeeringCompletion
    (h : readyPgPeeringCompletion s nowMs record = .ok (some completion)) :
    ReadyFor s nowMs record completion := by
  unfold readyPgPeeringCompletion at h
  split at h
  · cases h
  next hpeering =>
  rw [bind_eq_ok] at h
  obtain ⟨recovery, hrecovery, h⟩ := h
  split at h
  · cases h
  next hnone =>
  split at h
  · cases h
  next hgrace =>
  split at h
  · cases h
  next hpayload =>
  split at h
  · cases h
  next hfenced =>
  split at h
  · cases h
  next primary hprimary =>
  rw [okOr_bind_eq_ok] at h
  obtain ⟨node, hnode, h⟩ := h
  split at h
  · cases h
  next hlease =>
  split at h
  · next proof hproof =>
    split at h
    · next hfloor =>
      cases h
      have hrecovered : recovery = none := by simpa using hnone
      refine ⟨not_not.mp hpeering, hrecovered ▸ hrecovery, by simpa using hgrace,
        isOk_any_eq_false.mp hpayload, by simpa using hfenced, hprimary,
        ⟨node, hnode, rfl, fun previous hsome => ?_⟩, hproof, isOk_eq_true.mp hfloor, rfl, rfl⟩
      rw [hsome, Option.any_some] at hlease
      exact Bool.eq_false_iff.mpr hlease
    · cases h
  · split at h
    · cases h
    · cases h

theorem ReadyFor.readyPgPeeringCompletion_eq (h : ReadyFor s nowMs record completion) :
    readyPgPeeringCompletion s nowMs record = .ok (some completion) := by
  obtain ⟨node, hnode, hincarnation, hlease⟩ := h.lease
  have hblocks : ¬record.previousPrimaryLease.any (·.blocksActivation completion.primary
      node.nodeIncarnation node.endpoint nowMs) = true := by
    rw [Option.any_eq_true, hincarnation]
    rintro ⟨previous, hsome, hblocks⟩
    exact Bool.false_ne_true ((hlease previous hsome).symm.trans hblocks)
  unfold readyPgPeeringCompletion
  rw [if_neg (not_not.mpr h.peering), h.recovered, ok_bind, Option.isSome_none,
    if_neg Bool.false_ne_true, h.inGrace, if_neg Bool.false_ne_true,
    if_neg (isOk_any_eq_false.mpr h.payload), h.unfenced, if_neg Bool.false_ne_true, h.primary]
  simp only [hnode, okOr, ok_bind, if_neg hblocks, h.proof, isOk_eq_true.mpr h.floor, if_true]
  rw [hincarnation, ← h.pgId, ← h.epoch]
  rfl

/-- **What the scan checks** for one PG. -/
theorem readyPgPeeringCompletion_eq_some :
    readyPgPeeringCompletion s nowMs record = .ok (some completion) ↔
      ReadyFor s nowMs record completion :=
  ⟨readyFor_of_readyPgPeeringCompletion, fun h => h.readyPgPeeringCompletion_eq⟩

/-- The primary of a peering PG acts for it and serves the current epoch. -/
theorem serves_of_peeringPgPrimary (h : peeringPgPrimaryForSnapshot s record nowMs = some primary) :
    primary ∈ record.actingSet ∧ ∃ node, s.nodes[primary]? = some node ∧
      node.canServePrimary s.clusterEpoch nowMs = true := by
  rw [peeringPgPrimaryForSnapshot, Option.or_eq_some_iff] at h
  rcases h with hpreferred | ⟨-, hfirst⟩
  · unfold preferredReactivation at hpreferred
    split at hpreferred
    · cases hpreferred
    · obtain ⟨previous, hfilter, rfl⟩ := Option.map_eq_some_iff.mp hpreferred
      obtain ⟨-, hserves⟩ := Option.filter_eq_some_iff.mp hfilter
      simp only [Bool.and_eq_true, decide_eq_true_eq, Option.any_eq_true] at hserves
      obtain ⟨⟨-, hacts⟩, node, hnode, -, hcan⟩ := hserves
      exact ⟨hacts, node, hnode, hcan⟩
  · rw [deterministicPgPrimaryForSnapshot] at hfirst
    have hserves := find?_some hfirst
    exact ⟨mem_of_find?_eq_some hfirst, (Option.any_eq_true _ _).mp hserves⟩

theorem authorizeNodeService_of_canServePrimary
    (hnode : s.nodes[nodeId]? = some node) (h : node.canServePrimary s.clusterEpoch nowMs = true) :
    authorizeNodeServiceForSnapshot s nodeId node.nodeIncarnation s.clusterEpoch nowMs =
      .ok () := by
  have hparts := h
  simp only [canServePrimary, Bool.and_eq_true,
    Option.any_eq_true, decide_eq_true_eq] at hparts
  obtain ⟨⟨⟨⟨hmember, -⟩, -⟩, -⟩, deadline, hdeadline, hlt⟩ := hparts
  have hstays : ¬node.membership.hasLeft = true := by
    intro hleft
    cases hmembership : node.membership <;> simp_all [NodeMembershipState.hasLeft,
      NodeMembershipState.canServePrimary]
  simp only [authorizeNodeServiceForSnapshot, okOr_bind_eq_ok, check_bind_eq_ok, failIf_eq_ok]
  exact ⟨node, hnode, hstays, not_not.mpr rfl, not_not.mpr rfl, deadline, hdeadline,
    not_le.mpr hlt, not_not.mpr h⟩

/-- **A PG that the scan returns passes the checks of a completion.** -/
theorem ReadyFor.validatePgPeeringCompletion_eq (h : ReadyFor s nowMs record completion)
    (hrecord : s.pgs[completion.pgId]? = some record) (hexpected : ∀ e, expected = some e →
      e.activeMetadataProof = completion.activeMetadataProof ∧
        e.activeMetadataProofEpoch = s.clusterEpoch) :
    validatePgPeeringCompletion s completion.pgId completion.primary completion.nodeIncarnation
      nowMs expected = .ok (.complete completion.activeMetadataProof s.clusterEpoch) := by
  obtain ⟨node, hnode, hincarnation, hlease⟩ := h.lease
  obtain ⟨hacts, other, hother, hserves⟩ := serves_of_peeringPgPrimary h.primary
  cases hnode.symm.trans hother
  have hauthorized := authorizeNodeService_of_canServePrimary hnode hserves
  rw [hincarnation] at hauthorized
  have hactive : ¬record.state = .active := h.peering ▸ PgState.noConfusion
  have hprevious : validatePreviousPrimaryLease s record completion.pgId completion.primary
      completion.nodeIncarnation nowMs = .ok () := by
    rw [validatePreviousPrimaryLease, onSome_eq_ok]
    intro previous hsome
    rw [okOr_bind_eq_ok]
    exact ⟨node, hnode, failIf_of_not (Bool.eq_false_iff.mp (hlease previous hsome))⟩
  have htoActive : validatePeeringToActive s record completion.pgId completion.primary
      completion.nodeIncarnation nowMs expected = .ok completion.activeMetadataProof := by
    simp only [validatePeeringToActive, check_bind_eq_ok, failIf_eq_ok, onSome_eq_ok]
    refine ⟨Bool.eq_false_iff.mp h.inGrace, not_not.mpr h.primary, not_not.mpr h.peering,
      Bool.eq_false_iff.mp h.unfenced, hprevious,
      fun e he => not_not.mpr (hexpected e he).2, ?_⟩
    rw [h.pgId, h.proof, ok_bind]
    simp only [check_bind_eq_ok, onSome_eq_ok, failIf_eq_ok, pure_eq_ok]
    exact ⟨fun e he => not_not.mpr (hexpected e he).1.symm, h.floor, trivial⟩
  simp only [validatePgPeeringCompletion, okOr_bind_eq_ok, check_bind_eq_ok, failIf_eq_ok]
  refine ⟨record, hrecord, not_not.mpr hacts, hauthorized, ?_⟩
  rw [h.recovered, ok_bind, if_neg hactive, htoActive]
  rfl

/-- **A PG that one command could complete passes the checks of the scan.** -/
theorem readyFor_of_validatePgPeeringCompletion {nodeIncarnation : Nat}
    (hrecord : s.pgs[record.pgId]? = some record)
    (hpayload : ∀ transition, s.unavailablePgPlacementTransitions[record.pgId]? = some transition →
      validateUnavailablePgPayloadReadinessAt s transition nowMs = .ok ())
    (h : validatePgPeeringCompletion s record.pgId primary nodeIncarnation nowMs expected =
      .ok (.complete proof epoch)) :
    ReadyFor s nowMs record ⟨record.pgId, primary, nodeIncarnation, proof, s.clusterEpoch⟩ := by
  simp only [validatePgPeeringCompletion, okOr_bind_eq_ok, check_bind_eq_ok, failIf_eq_ok,
    not_not] at h
  obtain ⟨other, hother, hacts, hauthorized, h⟩ := h
  cases hrecord.symm.trans hother
  rw [bind_eq_ok] at h
  obtain ⟨recovery, hrecovery, h⟩ := h
  cases recovery with
  | some recovery => cases h
  | none =>
    simp only at h
    split at h
    · split at h
      · cases h
      · cases h
    · simp only [bind_eq_ok, pure_eq_ok] at h
      obtain ⟨observed, hactive, heq⟩ := h
      cases heq
      simp only [validatePeeringToActive, check_bind_eq_ok, failIf_eq_ok, onSome_eq_ok,
        not_not] at hactive
      obtain ⟨hgrace, hprimary, hpeering, hfenced, hlease, -, hactive⟩ := hactive
      simp only [bind_eq_ok, pure_eq_ok, onSome_eq_ok] at hactive
      obtain ⟨_, hproof, -, -, _, hfloor, rfl⟩ := hactive
      simp only [authorizeNodeServiceForSnapshot, okOr_bind_eq_ok, check_bind_eq_ok, failIf_eq_ok,
        not_not] at hauthorized
      obtain ⟨node, hnode, -, hincarnation, -⟩ := hauthorized
      refine ⟨hpeering, hrecovery, Bool.eq_false_iff.mpr hgrace, hpayload,
        Bool.eq_false_iff.mpr hfenced, hprimary,
        ⟨node, hnode, hincarnation.symm, fun previous hsome => ?_⟩, hproof, hfloor, rfl, rfl⟩
      rw [validatePreviousPrimaryLease, onSome_eq_ok] at hlease
      have hcheck := hlease previous hsome
      rw [okOr_bind_eq_ok] at hcheck
      obtain ⟨other, hother, hfree⟩ := hcheck
      cases hnode.symm.trans hother
      exact Bool.eq_false_iff.mpr (failIf_eq_ok.mp hfree)

theorem countsForPeering_of_canServePrimary
    (h : node.canServePrimary epoch nowMs = true) : node.countsForPeering nowMs = true := by
  simp only [canServePrimary, Bool.and_eq_true] at h
  obtain ⟨⟨⟨⟨hmember, havailable⟩, hhealthy⟩, -⟩, hlease⟩ := h
  simp only [countsForPeering, availability, havailable,
    if_true, Bool.and_eq_true]
  exact ⟨⟨hmember, hhealthy⟩, hlease⟩

/-- Every node that counts has reported the PG. -/
theorem observed_of_peeringProofFrom {nodes : List NodeId} {expected proof : Option PgMetadataProof}
    (h : peeringProofFrom s pgId nowMs nodes expected = .ok proof)
    (hmem : nodeId ∈ nodes) (hnode : s.nodes[nodeId]? = some node)
    (hcounts : node.countsForPeering nowMs = true) :
    ∃ observation, node.pgObservations[pgId]? = some observation := by
  induction nodes generalizing expected with
  | nil => cases hmem
  | cons first rest ih =>
    rw [peeringProofFrom, okOr_bind_eq_ok] at h
    obtain ⟨firstNode, hfirst, h⟩ := h
    split at h
    · rw [okOr_bind_eq_ok] at h
      obtain ⟨observation, hobservation, h⟩ := h
      rcases mem_cons.mp hmem with rfl | hmem
      · cases hnode.symm.trans hfirst
        exact ⟨observation, hobservation⟩
      · rw [check_bind_eq_ok, check_bind_eq_ok] at h
        obtain ⟨-, -, h⟩ := h
        split at h
        · cases h
        · split at h
          · exact ih h hmem
          · exact ih (check_bind_eq_ok.mp h).2 hmem
    · next hskipped =>
      rcases mem_cons.mp hmem with rfl | hmem
      · cases hnode.symm.trans hfirst
        exact absurd hcounts hskipped
      · exact ih h hmem

/-- The primary of a ready PG has reported its log epoch. -/
theorem ReadyFor.logged (h : ReadyFor s nowMs record completion) :
    ∃ epoch, primaryMetadataLogEpoch s completion.pgId completion.primary = .ok epoch := by
  obtain ⟨hacts, node, hnode, hserves⟩ := serves_of_peeringPgPrimary h.primary
  have hproof := h.proof
  rw [validatePgPeeringObservations, bind_eq_ok] at hproof
  obtain ⟨proof, hfrom, -⟩ := hproof
  obtain ⟨observation, hobservation⟩ := observed_of_peeringProofFrom hfrom hacts hnode
    (countsForPeering_of_canServePrimary hserves)
  refine ⟨observation.metadataLogEpoch, ?_⟩
  rw [primaryMetadataLogEpoch, hnode, h.pgId, Option.bind_some, hobservation]
  rfl

theorem ReadyFor.validateReadyCompletion_eq (h : ReadyFor s nowMs record completion)
    (hrecord : s.pgs[completion.pgId]? = some record) :
    validateReadyCompletion s nowMs completion = .ok () := by
  rw [validateReadyCompletion, check_bind_eq_ok, onSome_eq_ok]
  refine ⟨fun transition hsome => h.payload transition (h.pgId ▸ hsome), ?_⟩
  rw [h.validatePgPeeringCompletion_eq hrecord]
  · rfl
  · rintro e ⟨⟩
    exact ⟨rfl, h.epoch⟩

/-- A traversal that finds at most one thing for each element keeps their keys apart. -/
theorem sublist_of_mapM_eq_ok {ε α β κ : Type} {l : List α} {f : α → Except ε (Option β)}
    {r : List (Option β)} {key : α → κ} {key' : β → κ} (h : l.mapM f = .ok r)
    (hkey : ∀ a b, f a = .ok (some b) → key' b = key a) :
    ((r.filterMap id).map key').Sublist (l.map key) := by
  induction l generalizing r with
  | nil =>
    cases h
    exact .slnil
  | cons a rest ih =>
    rw [mapM_cons] at h
    obtain ⟨b, hb, h⟩ := bind_eq_ok.mp h
    obtain ⟨bs, hbs, h⟩ := bind_eq_ok.mp h
    cases h
    cases b with
    | none => exact (ih hbs).cons _
    | some b =>
      change (key' b :: (bs.filterMap id).map key').Sublist (key a :: rest.map key)
      rw [hkey a b hb]
      exact (ih hbs).cons_cons _

variable {ready : List ReadyPgPeeringCompletion}

theorem mem_readyPgPeeringCompletions (hkeyed : s.PgsKeyed)
    (h : s.readyPgPeeringCompletions nowMs = .ok ready) :
    completion ∈ ready ↔ ∃ record, s.pgs[completion.pgId]? = some record ∧
      ReadyFor s nowMs record completion := by
  simp only [readyPgPeeringCompletions, bind_eq_ok, pure_eq_ok] at h
  obtain ⟨found, hfound, rfl⟩ := h
  simp only [mem_filterMap, id_eq, exists_eq_right, mem_of_mapM_eq_ok hfound,
    readyPgPeeringCompletion_eq_some, mem_values]
  constructor
  · rintro ⟨record, ⟨pgId, hrecord⟩, hready⟩
    rw [hready.pgId, hkeyed pgId record hrecord]
    exact ⟨record, hrecord, hready⟩
  · rintro ⟨record, hrecord, hready⟩
    exact ⟨record, ⟨_, hrecord⟩, hready⟩

/-- **The list that the scan returns passes every check of a batch.** -/
theorem batchChecked_of_scan (hkeyed : s.PgsKeyed)
    (h : s.readyPgPeeringCompletions nowMs = .ok ready)
    (hnow : ∀ highWater, s.maxCommittedTimestampMs = some highWater → highWater ≤ nowMs) :
    BatchChecked s nowMs ready := by
  refine ⟨?_, ?_, fun completion hmem => ?_, fun completion hmem => ?_⟩
  · rw [validateServingTimestamp, onSome_eq_ok]
    exact fun highWater hhigh => failIf_of_not (not_lt.mpr (hnow highWater hhigh))
  · simp only [readyPgPeeringCompletions, bind_eq_ok, pure_eq_ok] at h
    obtain ⟨found, hfound, rfl⟩ := h
    have hnodup : ((values s.pgs).map (·.pgId)).Nodup := nodup_map_values hkeyed
    refine hnodup.sublist ?_
    exact sublist_of_mapM_eq_ok hfound fun record completion hready =>
      (readyPgPeeringCompletion_eq_some.mp hready).pgId
  · obtain ⟨record, hrecord, hready⟩ := (mem_readyPgPeeringCompletions hkeyed h).mp hmem
    exact hready.validateReadyCompletion_eq hrecord
  · obtain ⟨record, -, hready⟩ := (mem_readyPgPeeringCompletions hkeyed h).mp hmem
    exact hready.logged

end Scan

section Runs

variable {Ok : ClusterControlSnapshot → ControlPlaneEvent → Prop} {s : ClusterControlSnapshot}
  {past : List ClusterControlSnapshot} {nowMs : Nat} {ready : List ReadyPgPeeringCompletion}
  {record : PgControlRecord} {completion : ReadyPgPeeringCompletion}

theorem applyControlPlaneCommand_of_valid {command : ControlPlaneCommand}
    (harm : applyArm s command = .ok a)
    (hvalid : validatePublicationInvariants a.snapshot = .ok ()) :
    applyControlPlaneCommand s command = .ok a := by
  rw [applyControlPlaneCommand, harm, ok_bind, validateControlPlaneSnapshot, hvalid]
  rfl

/-- A command that only records its time leaves a pruned history as it is. -/
theorem snapshot_recordCommittedTimestamp (hs : s.Settled)
    (response : ControlPlaneCommandResponse) :
    (appliedControlPlaneCommand s (s.recordCommittedTimestamp nowMs) response
      (s.timestampAdvances nowMs)).snapshot = s.recordCommittedTimestamp nowMs := by
  have hsame : ¬s.clusterEpoch ≠ (s.recordCommittedTimestamp nowMs).clusterEpoch :=
    not_not.mpr rfl
  have hrecorded : (s.recordCommittedTimestamp nowMs).recordHistoryFrom s =
      s.recordCommittedTimestamp nowMs := by
    rw [recordHistoryFrom, if_neg hsame]
    exact congrArg (fun history => { s.recordCommittedTimestamp nowMs with history := history })
      hs.pruned
  unfold appliedControlPlaneCommand
  rw [hrecorded, ite_self]

/-- A batch with nothing to do records its time. -/
theorem accepts_emptyBatch (hs : s.Settled) (horder : s.HistoryInOrder)
    (htime : s.validateServingTimestamp nowMs = .ok ())
    (hclock : ClockAdvances s (s.recordCommittedTimestamp nowMs)) :
    ∃ a, applyControlPlaneCommand s (.completeReadyPgPeerings nowMs []) = .ok a := by
  refine ⟨_, applyControlPlaneCommand_of_valid (a := appliedControlPlaneCommand s
    (s.recordCommittedTimestamp nowMs) .completeReadyPgPeerings (s.timestampAdvances nowMs)) ?_ ?_⟩
  · rw [applyArm, applyCompleteReadyPgPeerings, htime, ok_bind, if_pos rfl]
    rfl
  · rw [snapshot_recordCommittedTimestamp hs]
    exact valid_of_recordCommittedTimestamp horder hclock hs.valid

/-- **The scan is sound and complete.**  At a time that is not behind the committed one, with room
for a lease and for one more epoch, the list that the scan returns is accepted as one batch, and
every PG of it becomes Active under its primary.  Whenever a command on its own would complete a
Peering PG, the list has that PG with the same primary process. -/
theorem ready_scan_sound_complete (h : Run controlPlaneStep Ok .empty past s)
    (hscan : s.readyPgPeeringCompletions nowMs = .ok ready) :
    ((∀ highWater, s.maxCommittedTimestampMs = some highWater → highWater ≤ nowMs) →
      nowMs + maxHeartbeatLeaseMs + controlPlaneClockSkewBudgetMs < 2 ^ 64 →
      s.clusterEpoch + 1 < 2 ^ 64 →
      ∃ a, applyControlPlaneCommand s (.completeReadyPgPeerings nowMs ready) = .ok a ∧
        ∀ completion ∈ ready, ∃ record, a.snapshot.pgs[completion.pgId]? = some record ∧
          record.state = .active ∧ record.activePrimary = some completion.primary) ∧
    ∀ pgId record primary nodeIncarnation, s.pgs[pgId]? = some record → record.state = .peering →
      (∃ a, applyControlPlaneCommand s
        (.completePgPeering pgId primary nodeIncarnation nowMs) = .ok a) →
      ∃ completion ∈ ready, completion.pgId = pgId ∧ completion.primary = primary ∧
        completion.nodeIncarnation = nodeIncarnation := by
  have hinv := routeInv_of_run h s mem_cons_self
  have hsettled := settled_of_run h
  have hkeyed := pgsKeyed_of_keyed hinv.keyed
  obtain ⟨-, hcurrent⟩ := (validatePublicationInvariants_eq_ok hinv.order).mp hsettled.valid
  refine ⟨fun hnow hroom hepoch => ?_, fun pgId record primary nodeIncarnation hrecord hpeering
    ⟨a, ha⟩ => ?_⟩
  · have hchecked := batchChecked_of_scan hkeyed hscan hnow
    cases ready with
    | nil =>
      obtain ⟨a, ha⟩ := accepts_emptyBatch hsettled hinv.order hchecked.time
        (clockAdvances_of_room hcurrent rfl hnow hroom)
      exact ⟨a, ha, fun completion hmem => absurd hmem not_mem_nil⟩
    | cons first rest =>
      have hclock : ClockAdvances s (s.afterBatch nowMs (first :: rest)) :=
        clockAdvances_of_room hcurrent rfl hnow hroom
      have hready {completion : ReadyPgPeeringCompletion} (hmem : completion ∈ first :: rest) :=
        (mem_readyPgPeeringCompletions hkeyed hscan).mp hmem
      have hany : ∃ completion ∈ first :: rest, s.Inactive completion.pgId := by
        obtain ⟨record, hrecord, hfor⟩ := hready mem_cons_self
        exact ⟨first, mem_cons_self, record, hrecord, hfor.peering ▸ PgState.noConfusion⟩
      refine ⟨_, applyControlPlaneCommand_of_valid (hchecked.apply_eq hcurrent hepoch hany)
        (hchecked.valid hinv hsettled.valid hclock), fun completion hmem => ?_⟩
      obtain ⟨record, hrecord, hfor⟩ := hready hmem
      refine ⟨batchRecord s (first :: rest) completion.pgId record, ?_, ?_⟩
      · change (s.afterBatch nowMs (first :: rest)).pgs[completion.pgId]? = _
        rw [getElem?_afterBatch, hrecord]
        rfl
      · rw [batchRecord_of_mem hchecked.distinct hmem,
          recordProofEpoch_activateReady (hfor.peering ▸ PgState.noConfusion)]
        exact ⟨rfl, rfl⟩
  · obtain rfl := hkeyed pgId record hrecord
    have harm := (applyControlPlaneCommand_eq_ok ha).1
    rw [applyArm, applyCompletePgPeering, check_bind_eq_ok, check_bind_eq_ok, onSome_eq_ok,
      bind_eq_ok] at harm
    obtain ⟨hpayload, -, validated, hvalidated, -⟩ := harm
    obtain ⟨other, hother, -, -, hcases⟩ := validatePgPeeringCompletion_eq_ok hvalidated
    cases hrecord.symm.trans hother
    rcases hcases with ⟨hactive, -⟩ | ⟨proof, rfl, -⟩
    · rw [hpeering] at hactive
      cases hactive
    · have hfor := readyFor_of_validatePgPeeringCompletion hrecord hpayload hvalidated
      exact ⟨_, (mem_readyPgPeeringCompletions hkeyed hscan).mpr ⟨record, hrecord, hfor⟩, rfl, rfl,
        rfl⟩

/-! Two PGs on one node, both peering with a report of the same proof. -/

def agreedProof : PgMetadataProof := ⟨5, ⟨1, 7⟩, ⟨1, 9⟩⟩

def reportProofs (observedEpoch scanGeneration : Nat) (observed : List (PgId × PgState)) :
    ControlPlaneEvent :=
  .command (.recordNodeHeartbeat ⟨1, 1, "a", observedEpoch, 10000, scanGeneration, ∅,
    observed.map fun (pgId, state) => ⟨pgId, state, agreedProof, observedEpoch, none⟩⟩
    100000 110000 none)

def twoPeeringEvents : List ControlPlaneEvent :=
  [.command (.bootstrapInitialClusterMap [(1, "a")] [0, 1]), reportProofs 2 1 [],
    reportProofs 3 2 [(0, .peering), (1, .peering)]]

def readyAt (epoch : ClusterEpoch) (pgId : PgId) : ReadyPgPeeringCompletion :=
  ⟨pgId, 1, 1, agreedProof, epoch⟩

/-- The snapshot refuses the command. -/
def ClusterControlSnapshot.Refuses (s : ClusterControlSnapshot) (command : ControlPlaneCommand) :
    Prop :=
  (applyControlPlaneCommand s command).isOk = false

instance (s : ClusterControlSnapshot) (command : ControlPlaneCommand) :
    Decidable (s.Refuses command) := by
  unfold ClusterControlSnapshot.Refuses
  infer_instance

theorem ready_scan_sound_complete_two_peering :
    ∃ past s ready, Run controlPlaneStep (fun _ _ => True) .empty past s ∧
      s.readyPgPeeringCompletions 100000 = .ok ready ∧
      ∃ a, applyControlPlaneCommand s (.completeReadyPgPeerings 100000 ready) = .ok a := by
  have h : ∃ past s, Run controlPlaneStep (fun _ _ => True) .empty past s ∧
      s.readyPgPeeringCompletions 100000 = .ok [readyAt 3 0, readyAt 3 1] ∧
      s.maxCommittedTimestampMs = some 100000 ∧ s.clusterEpoch = 3 :=
    exists_run_of_replay twoPeeringEvents (by decide +kernel)
  obtain ⟨past, s, hs, hscan, htime, hepoch⟩ := h
  obtain ⟨a, ha, -⟩ := (ready_scan_sound_complete hs hscan).1
    (fun highWater hhigh => by cases htime.symm.trans hhigh; exact le_rfl) (by decide)
    (by rw [hepoch]; decide)
  exact ⟨past, s, _, hs, hscan, a, ha⟩

/-- **A list scanned at an earlier time is refused**: the time of the command is behind the
committed one. -/
theorem scan_behind_committed_time_refused :
    ∃ past s, Run controlPlaneStep (fun _ _ => True) .empty past s ∧
      s.readyPgPeeringCompletions 99999 = .ok [readyAt 3 0, readyAt 3 1] ∧
      s.Refuses (.completeReadyPgPeerings 99999 [readyAt 3 0, readyAt 3 1]) :=
  exists_run_of_replay twoPeeringEvents (by decide +kernel)

/-! ### A batch and its commands one by one -/

theorem logged_of_activateReadyFrom {t next : ClusterControlSnapshot}
    (h : activateReadyFrom s ready t = .ok next) : ∀ completion ∈ ready,
      ∃ epoch, primaryMetadataLogEpoch s completion.pgId completion.primary = .ok epoch := by
  induction ready generalizing t with
  | nil => exact fun completion hmem => absurd hmem not_mem_nil
  | cons first rest ih =>
    rw [activateReadyFrom, bind_eq_ok] at h
    obtain ⟨epoch, hepoch, h⟩ := h
    exact forall_mem_cons.mpr ⟨⟨epoch, hepoch⟩, ih h⟩

/-- **An accepted batch** either activates a PG and has the closed form, or only records its
time. -/
theorem applyCompleteReadyPgPeerings_cases (hs : s.Settled) (hcurrent : CurrentStateValid s)
    (h : applyCompleteReadyPgPeerings s nowMs ready = .ok a) :
    BatchChecked s nowMs ready ∧
      ((∃ completion ∈ ready, s.Inactive completion.pgId) ∧ s.clusterEpoch + 1 < 2 ^ 64 ∧
          a.snapshot = (s.afterBatch nowMs ready).recordHistoryFrom s ∨
        (¬∃ completion ∈ ready, s.Inactive completion.pgId) ∧
          a.snapshot = s.recordCommittedTimestamp nowMs) := by
  have harm := h
  rw [applyCompleteReadyPgPeerings, check_bind_eq_ok] at h
  obtain ⟨htime, h⟩ := h
  split at h
  · next hnil =>
    subst hnil
    cases h
    exact ⟨⟨htime, nodup_nil, fun _ hmem => absurd hmem not_mem_nil,
      fun _ hmem => absurd hmem not_mem_nil⟩,
        .inr ⟨by simp, snapshot_recordCommittedTimestamp hs _⟩⟩
  · rw [check_bind_eq_ok, check_bind_eq_ok, bind_eq_ok] at h
    obtain ⟨hdistinct, hready, activated, hactivated, h⟩ := h
    have hchecked : BatchChecked s nowMs ready :=
      ⟨htime, (validateDistinctCompletionsFrom_eq_ok.mp hdistinct).1, forM_eq_ok.mp hready,
        logged_of_activateReadyFrom hactivated⟩
    refine ⟨hchecked, ?_⟩
    simp only at h
    split at h
    · next hsome =>
      have hany := any_inactive_iff.mp hsome
      rw [bind_eq_ok] at h
      obtain ⟨bumped, hbump, -⟩ := h
      have hroom : s.clusterEpoch + 1 < 2 ^ 64 := by
        obtain ⟨hlt, -⟩ := bumpEpoch_eq_ok hbump
        have hedits : Edits s (.completeReadyPgPeerings nowMs ready) _ activated :=
          edits_activateReadyFrom (forM_eq_ok.mp hready) hactivated fun _ _ hr _ => hr
        have hepoch : activated.clusterEpoch = s.clusterEpoch := (hedits.frame le_rfl).epoch
        exact hepoch ▸ hlt
      refine .inl ⟨hany, hroom, ?_⟩
      have heq := (hchecked.apply_eq hcurrent hroom hany).symm.trans harm
      exact (congrArg AppliedControlPlaneCommand.snapshot (Except.ok.inj heq)).symm
    · next hnone =>
      cases h
      have hactive := active_of_validateReadyCompletion hready hnone
      rw [activateReadyFrom_of_active (t := s.recordCommittedTimestamp nowMs) hactive hactivated]
      exact .inr ⟨fun hsome => hnone (any_inactive_iff.mpr hsome),
        snapshot_recordCommittedTimestamp hs _⟩

/-- **The command for one ready PG** is the batch of that PG. -/
theorem applyCompletePgPeering_eq (hcurrent : CurrentStateValid s)
    (hrecord : s.pgs[completion.pgId]? = some record)
    (h : ReadyFor s nowMs record completion)
    (htime : s.validateServingTimestamp nowMs = .ok ()) (hroom : s.clusterEpoch + 1 < 2 ^ 64) :
    applyCompletePgPeering s completion.pgId completion.primary completion.nodeIncarnation nowMs =
      .ok (appliedControlPlaneCommand s (s.afterBatch nowMs [completion]) .completePgPeering
        true) := by
  have hvalidated : validatePgPeeringCompletion s completion.pgId completion.primary
      completion.nodeIncarnation nowMs none =
        .ok (.complete completion.activeMetadataProof s.clusterEpoch) :=
    h.validatePgPeeringCompletion_eq hrecord fun _ hnone => nomatch hnone
  have hinactive : record.state ≠ .active := h.peering ▸ PgState.noConfusion
  obtain ⟨logEpoch, hlogged⟩ := h.logged
  have hfree := free_of_validateReadyCompletion hcurrent (h.validateReadyCompletion_eq hrecord)
  obtain ⟨activated, heq⟩ : ∃ activated, activated =
      (s.recordCommittedTimestamp nowMs).modifyPg completion.pgId (activateReady s completion) :=
    ⟨_, rfl⟩
  have hactivated : (s.recordCommittedTimestamp nowMs).activatePg completion.pgId
      completion.primary completion.activeMetadataProof logEpoch = activated := by
    rw [activatePg_of_free (t := s.recordCommittedTimestamp nowMs) hfree, heq,
      ← reportedLogEpoch_of_primaryMetadataLogEpoch hlogged]
    refine modifyPg_congr fun other hother => ?_
    cases hrecord.symm.trans hother
    exact (if_neg hinactive).symm
  obtain ⟨bumped, hbump⟩ : ∃ bumped, activated.bumpEpoch = .ok bumped :=
    exists_bumpEpoch (by rw [heq]; exact hroom)
  have hpayload : onSome s.unavailablePgPlacementTransitions[completion.pgId]? (fun transition =>
      validateUnavailablePgPayloadReadinessAt s transition nowMs) = .ok () :=
    onSome_eq_ok.mpr fun transition hsome => h.payload transition (h.pgId ▸ hsome)
  have hdistinct : ([completion].map (·.pgId)).Nodup := nodup_singleton _
  rw [applyCompletePgPeering, hpayload, ok_bind, htime, ok_bind, hvalidated, ok_bind]
  simp only [hlogged, ok_bind, hactivated, hbump]
  refine congrArg (fun next => Except.ok (appliedControlPlaneCommand s next .completePgPeering
    true)) (Eq.trans ?_ (foldl_recordProofEpoch_eq hdistinct heq hbump))
  rw [foldl_cons, foldl_nil]
  refine modifyPg_congr fun other hother => ?_
  rw [bumpEpoch_pgs hbump, heq] at hother
  change (s.pgs.modify completion.pgId (activateReady s completion))[completion.pgId]? = _ at hother
  rw [getElem?_modify_eq, if_pos rfl, hrecord] at hother
  cases hother
  rw [activateReady, if_neg hinactive, recordProofEpoch, if_pos ⟨rfl, rfl, rfl⟩,
    h.epoch]

/-- What the batch `ready` makes of `s`, compared with the commands for its PGs one by one.
* A PG that was not Active gets the record that its own command gives on `s`, and nothing else
  differs from that command's result but the other PGs and the history; the epoch advances by one
  and the proof is recorded with the epoch before.
* An Active PG of the list keeps everything but the epoch of its proof, and that too exactly when
  the batch activates no PG or does not name the accepted proof with another epoch.
* PGs outside the list keep everything.
* A batch without a PG to activate records its time only. -/
structure CompletesTogether (s : ClusterControlSnapshot) (nowMs : Nat)
    (ready : List ReadyPgPeeringCompletion) (t : ClusterControlSnapshot) : Prop where
  activated : ∀ completion ∈ ready, s.Inactive completion.pgId →
    ∃ b, applyControlPlaneCommand s (.completePgPeering completion.pgId completion.primary
        completion.nodeIncarnation nowMs) = .ok b ∧
      t.pgs[completion.pgId]? = b.snapshot.pgs[completion.pgId]? ∧
      { t with pgs := b.snapshot.pgs, history := b.snapshot.history } = b.snapshot ∧
      t.clusterEpoch = s.clusterEpoch + 1 ∧
      t.pgs[completion.pgId]?.bind (·.activeMetadataProofEpoch) = some s.clusterEpoch
  alreadyActive : ∀ completion ∈ ready, ∀ record, s.pgs[completion.pgId]? = some record →
    record.state = .active → ∃ epoch,
      t.pgs[completion.pgId]? = some { record with activeMetadataProofEpoch := epoch } ∧
      (epoch = record.activeMetadataProofEpoch ∨
        epoch = some completion.activeMetadataProofEpoch ∧
          record.activeMetadataProof = some completion.activeMetadataProof)
  kept : ∀ completion ∈ ready, ∀ record, s.pgs[completion.pgId]? = some record →
    record.state = .active → (t.pgs[completion.pgId]? = some record ↔
      ((∃ other ∈ ready, s.Inactive other.pgId) →
        record.activeMetadataProof = some completion.activeMetadataProof →
          record.activeMetadataProofEpoch = some completion.activeMetadataProofEpoch))
  others : ∀ pgId, (∀ completion ∈ ready, completion.pgId ≠ pgId) → t.pgs[pgId]? = s.pgs[pgId]?
  recorded : (∃ completion ∈ ready, s.Inactive completion.pgId) →
    t = ({ t with history := s.history } : ClusterControlSnapshot).recordHistoryFrom s
  idle : (¬∃ completion ∈ ready, s.Inactive completion.pgId) →
    t = s.recordCommittedTimestamp nowMs

/-- A PG of an accepted batch that was not Active is one that the scan returns. -/
theorem BatchChecked.readyFor (hchecked : BatchChecked s nowMs ready) (hkeyed : s.PgsKeyed)
    (hmem : completion ∈ ready)
    (hrecord : s.pgs[completion.pgId]? = some record) (hinactive : record.state ≠ .active) :
    ReadyFor s nowMs record completion := by
  have hchecks := hchecked.checked completion hmem
  rw [validateReadyCompletion, check_bind_eq_ok, onSome_eq_ok, bind_eq_ok] at hchecks
  obtain ⟨hpayload, validated, hvalidated, -⟩ := hchecks
  have hpgId := hkeyed _ _ hrecord
  obtain ⟨other, hother, -, -, hcases⟩ := validatePgPeeringCompletion_eq_ok hvalidated
  cases hrecord.symm.trans hother
  rcases hcases with ⟨hactive, -⟩ | ⟨proof, rfl, hcompletes⟩
  · exact absurd hactive hinactive
  · rw [← hpgId] at hrecord hpayload hvalidated
    have hfor := readyFor_of_validatePgPeeringCompletion hrecord hpayload hvalidated
    have hproof := hcompletes.expectedProof _ rfl
    have hepoch := hcompletes.expectedEpoch _ rfl
    have heq : completion = ⟨record.pgId, completion.primary, completion.nodeIncarnation, proof,
        s.clusterEpoch⟩ := by
      cases completion
      simp only [ReadyPgPeeringCompletion.mk.injEq, true_and]
      exact ⟨hpgId.symm, hproof.symm, hepoch⟩
    rw [heq]
    exact hfor

/-- An Active PG of an accepted batch is named with its primary. -/
theorem BatchChecked.activePrimary (hchecked : BatchChecked s nowMs ready)
    (hmem : completion ∈ ready)
    (hrecord : s.pgs[completion.pgId]? = some record) (hactive : record.state = .active) :
    record.activePrimary = some completion.primary := by
  have hchecks := hchecked.checked completion hmem
  rw [validateReadyCompletion, check_bind_eq_ok, bind_eq_ok] at hchecks
  obtain ⟨-, validated, hvalidated, -⟩ := hchecks
  obtain ⟨other, hother, -, -, hcases⟩ := validatePgPeeringCompletion_eq_ok hvalidated
  cases hrecord.symm.trans hother
  rcases hcases with ⟨-, hprimary, -⟩ | ⟨proof, -, hcompletes⟩
  · exact hprimary
  · rw [hcompletes.peering] at hactive
    cases hactive

/-- **A batch completes its PGs as their own commands would**, under one new epoch. -/
theorem batch_completes_individually (h : Run controlPlaneStep Ok .empty past s)
    {a : AppliedControlPlaneCommand}
    (ha : applyControlPlaneCommand s (.completeReadyPgPeerings nowMs ready) = .ok a) :
    CompletesTogether s nowMs ready a.snapshot := by
  have hinv := routeInv_of_run h s mem_cons_self
  have hsettled := settled_of_run h
  have hkeyed := pgsKeyed_of_keyed hinv.keyed
  obtain ⟨-, hcurrent⟩ := (validatePublicationInvariants_eq_ok hinv.order).mp hsettled.valid
  obtain ⟨harm, hvalid⟩ := applyControlPlaneCommand_eq_ok ha
  obtain ⟨hchecked, hcases⟩ := applyCompleteReadyPgPeerings_cases hsettled hcurrent harm
  rcases hcases with ⟨hsome, hroom, heq⟩ | ⟨hidle, heq⟩
  · have hpgs (pgId : PgId) : a.snapshot.pgs[pgId]? =
        s.pgs[pgId]?.map (batchRecord s ready pgId) := by
      rw [heq]
      change (s.afterBatch nowMs ready).pgs[pgId]? = _
      exact getElem?_afterBatch
    refine ⟨fun completion hmem hinactive => ?_, fun completion hmem record hrecord hactive => ?_,
      fun completion hmem record hrecord hactive => ?_, fun pgId hother => ?_, fun _ => ?_,
      fun hidle => absurd hsome hidle⟩
    · obtain ⟨record, hrecord, hinactive⟩ := hinactive
      have hfor := hchecked.readyFor hkeyed hmem hrecord hinactive
      have hsingle : BatchChecked s nowMs [completion] := by
        refine ⟨hchecked.time, nodup_singleton _, fun other hother => ?_,
          fun other hother => ?_⟩
        · exact hchecked.checked other (mem_singleton.mp hother ▸ hmem)
        · exact hchecked.logged other (mem_singleton.mp hother ▸ hmem)
      have hrecorded : StepRecorded s (s.afterBatch nowMs ready) a.snapshot :=
        ⟨rfl, .inr rfl, .inl heq⟩
      obtain ⟨-, hresult⟩ :=
        (validatePublicationInvariants_eq_ok (hrecorded.inOrder hinv.order)).mp hvalid
      have hclock : ClockAdvances s (s.afterBatch nowMs [completion]) :=
        clockAdvances_of_valid hresult (by rw [heq]; rfl) (by rw [heq]; rfl) (by rw [heq]; rfl) rfl
      refine ⟨_, applyControlPlaneCommand_of_valid
        (applyCompletePgPeering_eq hcurrent hrecord hfor hchecked.time hroom)
        (hsingle.valid hinv hsettled.valid hclock), ?_, ?_, ?_, ?_⟩
      · change _ = (s.afterBatch nowMs [completion]).pgs[completion.pgId]?
        rw [hpgs, getElem?_afterBatch, hrecord, Option.map_some, Option.map_some,
          batchRecord_of_mem hchecked.distinct hmem,
          batchRecord_of_mem hsingle.distinct (mem_singleton.mpr rfl)]
      · rw [heq]
        rfl
      · rw [heq]
        rfl
      · rw [hpgs, hrecord, Option.map_some, batchRecord_of_mem hchecked.distinct hmem,
          recordProofEpoch_activateReady hinactive, ← hfor.epoch]
        rfl
    · rw [hpgs, hrecord, Option.map_some, batchRecord_of_mem hchecked.distinct hmem, activateReady,
        if_pos hactive, recordProofEpoch]
      split
      · next hmatches => exact ⟨_, rfl, .inr ⟨rfl, hmatches.2.2⟩⟩
      · exact ⟨record.activeMetadataProofEpoch, rfl, .inl rfl⟩
    · rw [hpgs, hrecord, Option.map_some, batchRecord_of_mem hchecked.distinct hmem, activateReady,
        if_pos hactive, recordProofEpoch, Option.some_inj]
      by_cases hproof : record.activeMetadataProof = some completion.activeMetadataProof
      · rw [if_pos ⟨hactive, hchecked.activePrimary hmem hrecord hactive, hproof⟩]
        refine ⟨fun heq _ _ => (congrArg (·.activeMetadataProofEpoch) heq).symm, fun hkept => ?_⟩
        rw [← hkept hsome hproof]
      · rw [if_neg fun h => hproof h.2.2]
        exact iff_of_true rfl fun _ h => absurd h hproof
    · rw [hpgs]
      have hsame : batchRecord s ready pgId = id := funext (batchRecord_of_notMem hother)
      rw [hsame, Option.map_id, id_eq]
    · rw [heq]
      rfl
  · refine ⟨fun completion hmem hinactive => absurd ⟨completion, hmem, hinactive⟩ hidle,
      fun completion hmem record hrecord hactive => ?_,
      fun completion hmem record hrecord hactive => ?_, fun pgId hother => ?_,
      fun hsome => absurd hsome hidle, fun _ => heq⟩
    · exact ⟨record.activeMetadataProofEpoch, by rw [heq]; exact hrecord, .inl rfl⟩
    · exact iff_of_true (by rw [heq]; exact hrecord) fun hsome => absurd hsome hidle
    · rw [heq]
      rfl

theorem batch_completes_individually_two_peering :
    ∃ past s a, Run controlPlaneStep (fun _ _ => True) .empty past s ∧
      applyControlPlaneCommand s
        (.completeReadyPgPeerings 100000 [readyAt 3 0, readyAt 3 1]) = .ok a ∧
      CompletesTogether s 100000 [readyAt 3 0, readyAt 3 1] a.snapshot := by
  have h : ∃ past s, Run controlPlaneStep (fun _ _ => True) .empty past s ∧
      (acceptedCommand s
        (.completeReadyPgPeerings 100000 [readyAt 3 0, readyAt 3 1])).isSome = true :=
    exists_run_of_replay twoPeeringEvents (by decide +kernel)
  obtain ⟨past, s, hs, hsome⟩ := h
  obtain ⟨t, ht⟩ := Option.isSome_iff_exists.mp hsome
  obtain ⟨a, ha, -⟩ := acceptedCommand_eq_some ht
  exact ⟨past, s, a, hs, ha, batch_completes_individually hs ha⟩

/-- The state, Active or not, and the proof epoch of a PG. -/
def ClusterControlSnapshot.proofEpoch (s : ClusterControlSnapshot) (pgId : PgId) :
    Option (PgState × Option ClusterEpoch) :=
  s.pgs[pgId]?.map fun record => (record.state, record.activeMetadataProofEpoch)

def oneActiveEvents : List ControlPlaneEvent :=
  [.command (.completePgPeering 0 1 1 100000), reportProofs 4 3 [(0, .active), (1, .peering)]]

/-- **A batch is not its commands one after the other.**  Both PGs become Active under epoch 4 with
a proof of epoch 3; after the command for the first the one for the second is refused.  An Active
PG in a batch with another takes the proof epoch that the batch names, here one of the future. -/
theorem batch_differs_from_sequence :
    ∃ past s, Run controlPlaneStep (fun _ _ => True) .empty past s ∧
      (∃ t ∈ acceptedCommand s (.completeReadyPgPeerings 100000 [readyAt 3 0, readyAt 3 1]),
        t.clusterEpoch = 4 ∧ t.proofEpoch 0 = some (.active, some 3) ∧
          t.proofEpoch 1 = some (.active, some 3)) ∧
      (∃ t ∈ acceptedCommand s (.completePgPeering 0 1 1 100000),
        t.Refuses (.completePgPeering 1 1 1 100000)) ∧
      ∃ r ∈ replay controlPlaneStep (fun _ _ => True) [] s oneActiveEvents,
        r.2.proofEpoch 0 = some (.active, some 3) ∧
        (acceptedCommand r.2 (.completeReadyPgPeerings 100000 [readyAt 99 0, readyAt 4 1])).bind
          (·.proofEpoch 0) = some (.active, some 99) :=
  exists_run_of_replay twoPeeringEvents (by decide +kernel)

end Runs

end Argmin.ControlPlane
