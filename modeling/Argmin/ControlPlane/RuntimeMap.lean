import Mathlib.Data.List.MinMax
import Mathlib.Data.List.Pairwise
import Argmin.ControlPlane.PeeringBatch

/-!
# The runtime map

Frontends and storage nodes work from a runtime map: the current routes, and of the past the
recorded routes of every retained entry together with one baseline route per PG at its earliest
retained epoch.  An earlier route is reconstructed from that export as it is from the history: the
first exported route at or after the epoch, or the current one.

* `earliestRetainedPgEpoch_le` — the baseline of a PG is not after an epoch in which it existed;
* `recordedPresent_of_run` — a PG with a recorded route still exists;
* `sparse_route_refines` — for every PG and every epoch the export tells the route that the
  snapshot reconstructs, up to a pending command and the epoch of a transfer;
* `sparse_route_keeps_pending` — the pending command is kept for the current epoch.
-/

namespace Argmin.ControlPlane

open Fallible TreeMap SparseLog ClusterMapHistoryRecord List ClusterControlSnapshot
open Std (ExtTreeMap)

variable {event : ControlPlaneEvent} {record : HistoricalPgRouteRecord} {route : PgRouteSnapshot}

/-! ### Current routes -/

/-- The route without what only the current epoch may serve from. -/
def PgRouteSnapshot.withoutServingAuthority (self : PgRouteSnapshot) : PgRouteSnapshot :=
  { self with primaryLeaseDeadlineMs := none, metadataReadRoute := none }

def validatePgPrimaryActiveObservation (snapshot : ClusterControlSnapshot) (pgId : PgId)
    (primary : NodeId) : Except ControlPlaneError Unit := do
  let pg ← okOr snapshot.pgs[pgId]? (.unknownPg pgId)
  let expectedProof ← okOr pg.activeMetadataProof (.activePgMissingMetadataProof pgId)
  let node ← okOr snapshot.nodes[primary]? (.unknownNode primary)
  let observation ← okOr node.pgObservations[pgId]?
    (.pgPrimaryMissingActiveObservation pgId primary snapshot.clusterEpoch)
  failIf (observation.observedEpoch ≠ snapshot.clusterEpoch)
    (.staleNodeObservedEpoch primary observation.observedEpoch snapshot.clusterEpoch)
  failIf (observation.state ≠ .active)
    (.pgPrimaryObservationNotActive pgId primary snapshot.clusterEpoch observation.state)
  failIf (observation.pendingMetadataCommand = none ∧
      ¬metadataProofSatisfiesActivePrimaryObservationFloorAtLogEpoch expectedProof
        observation.metadataProof
        (metadataProofProgressProvenance pg.activeMetadataTransferImported
          pg.activeMetadataProofEpoch)
        observation.observedEpoch pg.activeMetadataLogEpoch observation.metadataLogEpoch)
    (.pgActiveMetadataProofMismatch pgId primary snapshot.clusterEpoch expectedProof
      observation.metadataProof)

namespace ClusterControlSnapshot

variable (self : ClusterControlSnapshot)

def activePgRoute (pgId : PgId) (nowMs : Nat) : Except ControlPlaneError PgRouteSnapshot := do
  let record ← okOr self.pgs[pgId]? (.unknownPg pgId)
  failIf (record.state ≠ .active) (.pgNotActive pgId self.clusterEpoch record.state)
  let primary ← okOr (record.activePrimary.filter (· ∈ record.actingSet))
    (.pgHasNoServingPrimary pgId self.clusterEpoch)
  let primaryRecord ← okOr self.nodes[primary]? (.unknownActingSetNode pgId primary)
  failIf (¬primaryRecord.canServePrimary self.clusterEpoch nowMs)
    (.pgHasNoServingPrimary pgId self.clusterEpoch)
  validatePgPrimaryActiveObservation self pgId primary
  let recovery ← pendingMetadataCommandRecoveryForPg self record
  pure {
    clusterEpoch := self.clusterEpoch
    pgId := pgId
    primaryNodeId := primary
    actingSet := record.actingSet
    state := .active
    activeMetadataProof := record.activeMetadataProof
    metadataReadRoute := none
    -- a node that can serve has a lease deadline
    primaryLeaseDeadlineMs := primaryRecord.leaseDeadlineMs
    peeringMetadataTransfer := none
    peeringMetadataTransferDestinationEpoch := none
    peeringMetadataTransferSourceRouteEpoch := none
    peeringMetadataTransferSourceNodeId := none
    pendingMetadataCommandRecovery := recovery }

def pgRoute (pgId : PgId) (nowMs : Nat) : Except ControlPlaneError PgRouteSnapshot := do
  let record ← okOr self.pgs[pgId]? (.unknownPg pgId)
  if record.state = .active then self.activePgRoute pgId nowMs
  else do
    let primary ← okOr record.actingSet.head? (.emptyActingSet pgId)
    record.actingSet.forM fun nodeId =>
      failIf (¬self.nodes.contains nodeId) (.unknownActingSetNode pgId nodeId)
    let recovery ← pendingMetadataCommandRecoveryForPg self record
    let destinationEpoch ← peeringMetadataTransferDestinationEpoch record
    pure {
      clusterEpoch := self.clusterEpoch
      pgId := pgId
      primaryNodeId := primary
      actingSet := record.actingSet
      state := record.state
      activeMetadataProof := none
      metadataReadRoute := peeringMetadataReadRouteForSnapshot self record nowMs
      primaryLeaseDeadlineMs := none
      peeringMetadataTransfer := record.peeringMetadataTransfer
      peeringMetadataTransferDestinationEpoch := destinationEpoch
      peeringMetadataTransferSourceRouteEpoch := record.peeringMetadataTransferSourceRouteEpoch
      peeringMetadataTransferSourceNodeId := record.peeringMetadataTransferSourceNodeId
      pendingMetadataCommandRecovery := recovery }

def pgRoutes (nowMs : Nat) : Except ControlPlaneError (List PgRouteSnapshot) :=
  (values self.pgs).mapM fun record => self.pgRoute record.pgId nowMs

end ClusterControlSnapshot

/-! ### The exported past -/

def ClusterMapHistoryRecord.reconstructedPgRoute (self : ClusterMapHistoryRecord) (pgId : PgId) :
    Except ControlPlaneError PgRouteSnapshot := do
  let record ← okOr (self.pg pgId) (.unknownPg pgId)
  reconstructHistoricalPgRoute self.clusterEpoch record self.nodes.contains

/-- The loop of `earliest_retained_pg_epoch` over the entries; `earliestEpoch` is that of the
first one. -/
def earliestRetainedPgEpochFrom (earliestEpoch : ClusterEpoch) (pgId : PgId) (present : Bool) :
    List ClusterMapHistoryRecord → Option ClusterEpoch
  | [] => if present then some earliestEpoch else none
  | record :: rest =>
    if pgId ∈ record.absentPgs then rest.head?.map (·.clusterEpoch)
    else if (record.pg pgId).isSome then some earliestEpoch
    else earliestRetainedPgEpochFrom earliestEpoch pgId present rest

namespace ClusterControlSnapshot

def earliestRetainedPgEpoch (self : ClusterControlSnapshot) (pgId : PgId) :
    Option ClusterEpoch := do
  let first ← self.history.head?
  earliestRetainedPgEpochFrom first.clusterEpoch pgId (self.pgs.contains pgId) self.history

/-- The loop that adds a baseline route for every PG that has none among the recorded ones. -/
def addBaselinePgRoutes (self : ClusterControlSnapshot) :
    List PgId → List PgRouteSnapshot → Except ControlPlaneError (List PgRouteSnapshot)
  | [], routes => pure routes
  | pgId :: rest, routes =>
    match self.earliestRetainedPgEpoch pgId with
    | none => self.addBaselinePgRoutes rest routes
    | some baselineEpoch =>
      if routes.any fun candidate =>
          candidate.pgId == pgId && candidate.clusterEpoch == baselineEpoch then
        self.addBaselinePgRoutes rest routes
      else do
        let route ← self.reconstructedPgRouteAtEpoch pgId baselineEpoch
        self.addBaselinePgRoutes rest (routes ++ [route])

def historicalPgRoutesForRuntimeMap (self : ClusterControlSnapshot) :
    Except ControlPlaneError (List PgRouteSnapshot) := do
  let recorded ← self.history.mapM fun history =>
    history.pgs.mapM fun pg => history.reconstructedPgRoute pg.pgId
  let routes ← self.addBaselinePgRoutes self.pgs.keys recorded.flatten
  pure (routes.insertionSort fun a b =>
    a.clusterEpoch < b.clusterEpoch ∨ a.clusterEpoch = b.clusterEpoch ∧ a.pgId ≤ b.pgId)

end ClusterControlSnapshot

/-- The routes of a runtime map.  The node table, the validity and the freshness proof that go
with them are left out: no route is read from them. -/
structure ClusterRuntimeMapSnapshot where
  clusterEpoch : ClusterEpoch
  pgRoutes : List PgRouteSnapshot
  historicalPgRoutes : List PgRouteSnapshot
  historicalClusterEpochs : List ClusterEpoch

def ClusterControlSnapshot.runtimeMap (self : ClusterControlSnapshot) (nowMs : Nat) :
    Except ControlPlaneError ClusterRuntimeMapSnapshot := do
  let pgRoutes ← self.pgRoutes nowMs
  let historicalPgRoutes ← self.historicalPgRoutesForRuntimeMap
  pure ⟨self.clusterEpoch, pgRoutes, historicalPgRoutes, self.history.map (·.clusterEpoch)⟩

/-! ### Reconstruction from the export -/

inductive SparsePgRouteReconstructionError
  | unknownClusterEpoch
  | unknownPg

def reconstructSparsePgRouteAtEpoch (currentEpoch : ClusterEpoch)
    (currentRoute : Option PgRouteSnapshot) (historicalPgRoutes : List PgRouteSnapshot)
    (historicalEpochRetained : Bool) (clusterEpoch : ClusterEpoch) :
    Except SparsePgRouteReconstructionError PgRouteSnapshot :=
  if clusterEpoch = currentEpoch then okOr currentRoute .unknownPg
  else do
    failIf (¬historicalEpochRetained) .unknownClusterEpoch
    failIf (¬historicalPgRoutes.any (·.clusterEpoch ≤ clusterEpoch)) .unknownPg
    let route ← okOr (((historicalPgRoutes.filter (clusterEpoch ≤ ·.clusterEpoch)).argmin
      (·.clusterEpoch)).or currentRoute) .unknownPg
    pure { route with clusterEpoch := clusterEpoch }

/-- The retained epochs are in order, so that the binary search of the source finds one exactly
when it is among them. -/
def ClusterRuntimeMapSnapshot.reconstructedPgRouteAtEpoch (self : ClusterRuntimeMapSnapshot)
    (pgId : PgId) (clusterEpoch : ClusterEpoch) : Except ControlPlaneError PgRouteSnapshot :=
  (reconstructSparsePgRouteAtEpoch self.clusterEpoch
    ((self.pgRoutes.find? (·.pgId == pgId)).map (·.withoutServingAuthority))
    (self.historicalPgRoutes.filter (·.pgId == pgId))
    (self.historicalClusterEpochs.contains clusterEpoch) clusterEpoch).mapError fun
      | .unknownClusterEpoch => .unknownClusterMapEpoch clusterEpoch
      | .unknownPg => .unknownPg pgId

/-- What both reconstructions tell of a route: all but a pending command, and of the destination
epoch of a transfer that there is one. -/
def PgRouteSnapshot.configuration (route : PgRouteSnapshot) : PgRouteSnapshot :=
  { route with
    pendingMetadataCommandRecovery := none
    peeringMetadataTransferDestinationEpoch :=
      route.peeringMetadataTransferDestinationEpoch.map fun _ => route.clusterEpoch }

/-! ### Introductions and baselines -/

section Baseline

variable {history : List ClusterMapHistoryRecord} {pgs : BTreeMap PgId PgControlRecord}
  {pgId : PgId} {epoch : ClusterEpoch}

/-- A PG has one introduction. -/
theorem Introductions.unique (h : Introductions history pgs) {a b : ClusterMapHistoryRecord}
    (ha : a ∈ history) (hb : b ∈ history) (hpa : pgId ∈ a.absentPgs) (hpb : pgId ∈ b.absentPgs) :
    a = b := by
  by_contra hne
  have hsymm : Std.Symm (Function.onFun List.Disjoint ClusterMapHistoryRecord.absentPgs) :=
    ⟨fun _ _ hab _ hb ha => hab ha hb⟩
  exact (nodup_flatMap.mp h.once).2.forall ha hb hne hpa hpb

/-- A PG is told to be absent at the epochs up to its introduction. -/
theorem Introductions.lookup_absent_iff (h : Introductions history pgs)
    (hsorted : history.Pairwise fun a b => a.clusterEpoch < b.clusterEpoch) :
    historyLookup history pgId epoch = some none ↔
      ∃ a ∈ history, pgId ∈ a.absentPgs ∧ epoch ≤ a.clusterEpoch := by
  rw [historyLookup_eq]
  constructor
  · intro hlookup
    obtain ⟨a, ha, hmention⟩ := exists_of_findSome?_eq_some hlookup
    obtain ⟨ha, hle⟩ := mem_filter.mp ha
    refine ⟨a, ha, ?_, of_decide_eq_true hle⟩
    by_contra habsent
    simp [mention, habsent] at hmention
  · rintro ⟨a, ha, habsent, hle⟩
    have hmention : (a.mention pgId).isSome := by
      rw [mention, if_pos habsent]
      rfl
    obtain ⟨first, hfirst, hbefore⟩ : ∃ first, firstEntry (·.clusterEpoch) (·.mention pgId)
        history epoch = some first ∧ first.clusterEpoch ≤ a.clusterEpoch :=
      le_of_firstEntry hsorted ha hle hmention
    obtain ⟨hmem, -, hsome⟩ := mem_of_firstEntry hfirst
    rw [firstFrom_of_firstEntry (fun _ => rfl) hfirst]
    by_cases hin : pgId ∈ first.absentPgs
    · exact if_pos hin
    · -- the first entry would record a route before the introduction
      have hnone := h.before a ha pgId habsent first hmem hbefore
      simp [mention, hin, hnone] at hsome

/-- Where the loop over the entries stops. -/
theorem earliestRetainedPgEpochFrom_cases {earliest : ClusterEpoch} {present : Bool}
    (hsorted : history.Pairwise fun a b => a.clusterEpoch < b.clusterEpoch)
    {found : Option ClusterEpoch}
    (h : earliestRetainedPgEpochFrom earliest pgId present history = found) :
    (found = some earliest ∧ ((∃ r ∈ history, (r.pg pgId).isSome ∧
          ∀ a ∈ history, pgId ∈ a.absentPgs → r.clusterEpoch ≤ a.clusterEpoch) ∨
        present = true ∧ ∀ a ∈ history, pgId ∉ a.absentPgs)) ∨
      (found = none ∧ present = false ∧ ∀ a ∈ history, pgId ∉ a.absentPgs) ∨
      ∃ a ∈ history, pgId ∈ a.absentPgs ∧ (∀ b, found = some b → a.clusterEpoch < b) ∧
        ∀ c ∈ history, a.clusterEpoch < c.clusterEpoch →
          ∃ b, found = some b ∧ b ≤ c.clusterEpoch := by
  induction history with
  | nil =>
    cases present with
    | true => exact .inl ⟨h.symm, .inr ⟨rfl, fun _ ha => absurd ha not_mem_nil⟩⟩
    | false => exact .inr (.inl ⟨h.symm, rfl, fun _ ha => absurd ha not_mem_nil⟩)
  | cons a rest ih =>
    obtain ⟨hafter, hrest⟩ := pairwise_cons.mp hsorted
    unfold earliestRetainedPgEpochFrom at h
    by_cases habsent : pgId ∈ a.absentPgs
    · rw [if_pos habsent] at h
      subst h
      refine .inr (.inr ⟨a, mem_cons_self, habsent, fun b hb => ?_, fun c hc hlt => ?_⟩)
      · obtain ⟨next, hnext, rfl⟩ := Option.map_eq_some_iff.mp hb
        exact hafter next (mem_of_mem_head? hnext)
      · have hmem : c ∈ rest := (mem_cons.mp hc).resolve_left fun heq =>
          absurd hlt (heq ▸ Nat.lt_irrefl _)
        cases rest with
        | nil => cases hmem
        | cons next more =>
          refine ⟨next.clusterEpoch, rfl, ?_⟩
          rcases mem_cons.mp hmem with rfl | hmore
          · exact Nat.le_refl _
          · exact ((pairwise_cons.mp hrest).1 c hmore).le
    · rw [if_neg habsent] at h
      by_cases hroute : (a.pg pgId).isSome
      · rw [if_pos hroute] at h
        refine .inl ⟨h.symm, .inl ⟨a, mem_cons_self, hroute, ?_⟩⟩
        exact forall_mem_cons.mpr ⟨fun _ => Nat.le_refl _, fun b hb _ => (hafter b hb).le⟩
      · rw [if_neg hroute] at h
        rcases ih hrest h with ⟨hfound, ⟨r, hr, hpr, hfirst⟩ | ⟨hpresent, hall⟩⟩ |
            ⟨hfound, hpresent, hall⟩ | ⟨b, hb, hpb, hbelow, hnext⟩
        · exact .inl ⟨hfound, .inl ⟨r, mem_cons_of_mem _ hr, hpr,
            forall_mem_cons.mpr ⟨fun h => absurd h habsent, hfirst⟩⟩⟩
        · exact .inl ⟨hfound, .inr ⟨hpresent, forall_mem_cons.mpr ⟨habsent, hall⟩⟩⟩
        · exact .inr (.inl ⟨hfound, hpresent, forall_mem_cons.mpr ⟨habsent, hall⟩⟩)
        · refine .inr (.inr ⟨b, mem_cons_of_mem _ hb, hpb, hbelow, ?_⟩)
          refine forall_mem_cons.mpr ⟨fun hlt => ?_, hnext⟩
          exact absurd ((hafter b hb).trans hlt) (Nat.lt_irrefl _)

end Baseline

section Epochs

variable {s : ClusterControlSnapshot} {entry : ClusterMapHistoryRecord}

/-- **Baselines.**  The baseline of a PG is after a retained epoch in which the PG did not exist,
and not after one in which it did; a present PG has a baseline for the latter. -/
theorem earliestRetainedPgEpoch_le (horder : s.HistoryInOrder)
    (hintro : Introductions s.history s.pgs) (hentry : entry ∈ s.history) (pgId : PgId) :
    (historyLookup s.history pgId entry.clusterEpoch = some none →
      ∀ b, s.earliestRetainedPgEpoch pgId = some b → entry.clusterEpoch < b) ∧
    (historyLookup s.history pgId entry.clusterEpoch ≠ some none → s.pgs.contains pgId = true →
      ∃ b, s.earliestRetainedPgEpoch pgId = some b ∧ b ≤ entry.clusterEpoch) ∧
    (historyLookup s.history pgId entry.clusterEpoch ≠ some none →
      ∀ b, s.earliestRetainedPgEpoch pgId = some b → b ≤ entry.clusterEpoch) := by
  obtain ⟨first, rest, hcons⟩ := exists_cons_of_ne_nil (ne_nil_of_mem hentry)
  have hfirst : first.clusterEpoch ≤ entry.clusterEpoch := by
    have hsorted := horder.sorted
    rw [hcons] at hentry hsorted
    rcases mem_cons.mp hentry with rfl | hmem
    · exact Nat.le_refl _
    · exact ((pairwise_cons.mp hsorted).1 entry hmem).le
  have hfound : earliestRetainedPgEpochFrom first.clusterEpoch pgId (s.pgs.contains pgId)
      s.history = s.earliestRetainedPgEpoch pgId := by
    rw [earliestRetainedPgEpoch, hcons]
    rfl
  have hlookup : historyLookup s.history pgId entry.clusterEpoch = some none ↔ _ :=
    hintro.lookup_absent_iff horder.sorted
  rcases earliestRetainedPgEpochFrom_cases horder.sorted hfound with
    ⟨hsome, hnone⟩ | ⟨hnone, hpresent, hall⟩ | ⟨a, ha, habsent, hbelow, hnext⟩
  · -- no entry tells that the PG is absent
    have hall : ∀ a ∈ s.history, pgId ∉ a.absentPgs := by
      rcases hnone with ⟨r, hr, hroute, hbefore⟩ | ⟨-, hall⟩
      · intro a ha habsent
        rw [hintro.before a ha pgId habsent r hr (hbefore a ha habsent)] at hroute
        cases hroute
      · exact hall
    rw [hsome]
    refine ⟨fun hin => ?_, fun _ _ => ⟨_, rfl, hfirst⟩, fun _ b hb => ?_⟩
    · obtain ⟨a, ha, habsent, -⟩ := hlookup.mp hin
      exact absurd habsent (hall a ha)
    · cases hb
      exact hfirst
  · refine ⟨fun hin => ?_, fun _ hp => ?_, fun _ b hb => ?_⟩
    · obtain ⟨a, ha, habsent, -⟩ := hlookup.mp hin
      exact absurd habsent (hall a ha)
    · exact absurd (hpresent.symm.trans hp) Bool.false_ne_true
    · cases hnone.symm.trans hb
  · refine ⟨fun hin b hb => ?_, fun hne _ => ?_, fun hne b hb => ?_⟩
    · obtain ⟨a', ha', habsent', hle⟩ := hlookup.mp hin
      cases hintro.unique ha ha' habsent habsent'
      exact hle.trans_lt (hbelow b hb)
    · refine hnext entry hentry ?_
      by_contra hle
      exact hne (hlookup.mpr ⟨a, ha, habsent, not_lt.mp hle⟩)
    · have hlt : a.clusterEpoch < entry.clusterEpoch := by
        by_contra hle
        exact hne (hlookup.mpr ⟨a, ha, habsent, not_lt.mp hle⟩)
      obtain ⟨b', hb', hle⟩ := hnext entry hentry hlt
      cases hb.symm.trans hb'
      exact hle

end Epochs

/-! ### Recorded PGs are present -/

section Present

variable {s t next : ClusterControlSnapshot}

/-- A PG with a recorded route still exists. -/
def ClusterControlSnapshot.RecordedPresent (s : ClusterControlSnapshot) : Prop :=
  ∀ record ∈ s.history, ∀ pgId, (record.pg pgId).isSome → s.pgs.contains pgId = true

/-- A step keeps the PGs. -/
theorem present_step (h : controlPlaneStep s event = some t)
    (hkeyed : s.view.Keyed) {pgId : PgId} (hpg : s.pgs.contains pgId = true) :
    t.pgs.contains pgId = true := by
  have hview (r : ClusterControlSnapshot) :
      r.pgs.contains pgId = true ↔ (r.view.pgs pgId).isSome = true := by
    rw [view_pgs, Option.isSome_map, ExtTreeMap.isSome_getElem?_eq_contains]
  cases event with
  | command command =>
    obtain ⟨a, ha, rfl⟩ := acceptedCommand_eq_some h
    rw [hview] at hpg ⊢
    cases (leaseMove_apply hkeyed ha).pg pgId with
    | absent h _ => rw [h] at hpg; cases hpg
    | created _ h _ _ => rw [h] at hpg; cases hpg
    | stays _ _ h' _ => rw [h']; rfl
    | leaves _ _ _ h' _ _ _ => rw [h']; rfl
    | activates _ _ _ _ _ _ _ _ h' => rw [h']; rfl
  | restart =>
    obtain ⟨bumped, hbumped, rfl, -⟩ := controlPlaneStep_restart h
    obtain ⟨-, -, -, hpgs, -⟩ := restart_eq_ok hbumped
    have hsame : (bumped.recordHistoryFrom s).pgs = bumped.pgs := rfl
    rw [← ExtTreeMap.isSome_getElem?_eq_contains] at hpg ⊢
    rw [hsame, hpgs, Option.isSome_map]
    exact hpg

theorem recordedPresent_step (h : controlPlaneStep s event = some t)
    (hs : s.RouteInv) (hpresent : s.RecordedPresent) : t.RecordedPresent := by
  obtain ⟨next, hrecorded⟩ := stepRecorded h
  obtain ⟨-, -, hhistory⟩ := hrecorded.history_eq hs.order
  have hpushed : ∀ record ∈ pushedHistory s next, ∀ pgId, (record.pg pgId).isSome →
      s.pgs.contains pgId = true := by
    rcases hrecorded.pushedHistory_eq hs.order with ⟨heq, -⟩ | ⟨heq, -⟩
    · rw [heq]
      exact hpresent
    · rw [heq]
      intro record hrecord pgId hpg
      rcases mem_append.mp hrecord with hold | hnew
      · exact hpresent record hold pgId hpg
      · rw [mem_singleton.mp hnew, deltaBetween_pg (pgsKeyed_of_keyed hs.keyed)] at hpg
        split at hpg
        · cases hpg
        · rw [Option.isSome_map, ExtTreeMap.isSome_getElem?_eq_contains] at hpg
          exact hpg
  intro record hrecord pgId hpg
  refine present_step h hs.keyed ?_
  rcases hhistory with hhistory | hhistory
  · exact hpushed record (hhistory ▸ hrecord) pgId hpg
  · rw [hhistory, pruneUnreachable_eq] at hrecord
    obtain ⟨old, hold, hkept⟩ := mem_filterMap.mp hrecord
    refine hpushed old hold pgId ?_
    by_contra hnone
    rw [pg_prunedRecord hkept (Option.not_isSome_iff_eq_none.mp hnone)] at hpg
    cases hpg

theorem recordedPresent_of_run {Ok : ClusterControlSnapshot → ControlPlaneEvent → Prop}
    {past : List ClusterControlSnapshot} (h : Run controlPlaneStep Ok .empty past t) :
    t.RecordedPresent := by
  have hboth : t.RouteInv ∧ t.RecordedPresent := by
    refine h.invariant (I := fun r => r.RouteInv ∧ r.RecordedPresent) ⟨routeInv_empty, ?_⟩ ?_
    · exact fun _ hr => absurd hr not_mem_nil
    · exact fun hs _ hstep => ⟨routeInv_step hstep hs.1, recordedPresent_step hstep hs.1 hs.2⟩
  exact hboth.2

end Present

/-! ### What is exported -/

section Export

variable {s : ClusterControlSnapshot} {pgId : PgId} {epoch : ClusterEpoch}
  {routes exported : List PgRouteSnapshot}

theorem pgId_of_pg {entry : ClusterMapHistoryRecord}
    (h : entry.pg pgId = some record) : record.pgId = pgId := by
  simpa using find?_some h

theorem reconstructedPgRoute_eq_ok {entry : ClusterMapHistoryRecord}
    (h : entry.reconstructedPgRoute pgId = .ok route) :
    ∃ record, entry.pg pgId = some record ∧
      reconstructHistoricalPgRoute entry.clusterEpoch record entry.nodes.contains = .ok route ∧
      route.pgId = pgId ∧ route.clusterEpoch = entry.clusterEpoch := by
  obtain ⟨record, hrecord, hroute⟩ := okOr_bind_eq_ok.mp h
  obtain ⟨hepoch, hpgId, -⟩ := shows_of_reconstructHistoricalPgRoute hroute
  exact ⟨record, hrecord, hroute, hpgId.trans (pgId_of_pg hrecord), hepoch⟩

/-- A recorded route that is looked up is that of an entry. -/
theorem mem_of_historyLookup {history : List ClusterMapHistoryRecord}
    (h : historyLookup history pgId epoch = some (some record)) :
    ∃ entry ∈ history, epoch ≤ entry.clusterEpoch ∧ entry.pg pgId = some record := by
  rw [historyLookup_eq] at h
  obtain ⟨entry, hentry, hmention⟩ := exists_of_findSome?_eq_some h
  obtain ⟨hentry, hle⟩ := mem_filter.mp hentry
  refine ⟨entry, hentry, of_decide_eq_true hle, ?_⟩
  by_cases habsent : pgId ∈ entry.absentPgs
  · simp [mention, habsent] at hmention
  · simpa [mention, habsent] using hmention

theorem reconstructed_key (horder : s.HistoryInOrder) (hkeyed : s.PgsKeyed)
    (h : s.reconstructedPgRouteAtEpoch pgId epoch = .ok route) :
    route.pgId = pgId ∧ route.clusterEpoch = epoch := by
  obtain ⟨record, hrecord, hepoch, hpgId, -⟩ := shows_of_reconstructed horder hkeyed h
  refine ⟨hpgId.trans ?_, hepoch⟩
  rw [routeAt_eq] at hrecord
  cases hlookup : historyLookup s.history pgId epoch with
  | none =>
    rw [hlookup] at hrecord
    obtain ⟨current, hcurrent, rfl⟩ := Option.map_eq_some_iff.mp hrecord
    exact hkeyed pgId current hcurrent
  | some found =>
    rw [hlookup] at hrecord
    cases (hrecord : found = some record)
    obtain ⟨entry, -, -, hpg⟩ := mem_of_historyLookup hlookup
    exact pgId_of_pg hpg

/-- What the loop over the PGs adds are baselines, one for every PG that has one. -/
theorem addBaselinePgRoutes_eq_ok (horder : s.HistoryInOrder) (hkeyed : s.PgsKeyed)
    {pgIds : List PgId} (h : s.addBaselinePgRoutes pgIds routes = .ok exported) :
    (∀ route ∈ routes, route ∈ exported) ∧
      (∀ route ∈ exported, route ∈ routes ∨ route.pgId ∈ pgIds ∧
        s.earliestRetainedPgEpoch route.pgId = some route.clusterEpoch ∧
          s.reconstructedPgRouteAtEpoch route.pgId route.clusterEpoch = .ok route) ∧
      ∀ pgId ∈ pgIds, ∀ b, s.earliestRetainedPgEpoch pgId = some b →
        ∃ route ∈ exported, route.pgId = pgId ∧ route.clusterEpoch = b := by
  induction pgIds generalizing routes with
  | nil =>
    cases h
    exact ⟨fun _ hr => hr, fun _ hr => .inl hr, fun _ hp => absurd hp not_mem_nil⟩
  | cons pgId rest ih =>
    unfold addBaselinePgRoutes at h
    split at h
    · next hnone =>
      obtain ⟨hkept, horigin, hrest⟩ := ih h
      refine ⟨hkept, fun r hr => (horigin r hr).imp_right (.imp_left (mem_cons_of_mem _)),
        forall_mem_cons.mpr ⟨fun b hb => ?_, hrest⟩⟩
      cases hnone.symm.trans hb
    · next baseline hbaseline =>
      split at h
      · next hany =>
        obtain ⟨hkept, horigin, hrest⟩ := ih h
        refine ⟨hkept, fun r hr => (horigin r hr).imp_right (.imp_left (mem_cons_of_mem _)),
          forall_mem_cons.mpr ⟨fun b hb => ?_, hrest⟩⟩
        cases hbaseline.symm.trans hb
        obtain ⟨route, hroute, hkey⟩ := any_eq_true.mp hany
        simp only [Bool.and_eq_true, beq_iff_eq] at hkey
        exact ⟨route, hkept route hroute, hkey⟩
      · obtain ⟨route, hroute, h⟩ := bind_eq_ok.mp h
        obtain ⟨hpgId, hepoch⟩ := reconstructed_key horder hkeyed hroute
        obtain ⟨hkept, horigin, hrest⟩ := ih h
        refine ⟨fun r hr => hkept r (mem_append_left _ hr), fun r hr => ?_,
          forall_mem_cons.mpr ⟨fun b hb => ?_, hrest⟩⟩
        · rcases horigin r hr with hr | hr
          · rcases mem_append.mp hr with hr | hr
            · exact .inl hr
            · rw [mem_singleton.mp hr, hpgId, hepoch]
              exact .inr ⟨mem_cons_self, hbaseline, hroute⟩
          · exact .inr (hr.imp_left (mem_cons_of_mem _))
        · cases hbaseline.symm.trans hb
          exact ⟨route, hkept route (mem_append_right _ mem_cons_self), hpgId, hepoch⟩

/-- **The exported routes** are the recorded ones and baselines, one for every PG that has one. -/
structure ClusterControlSnapshot.Exports (s : ClusterControlSnapshot)
    (exported : List PgRouteSnapshot) : Prop where
  recorded : ∀ entry ∈ s.history, ∀ pgId, (entry.pg pgId).isSome →
    ∃ route ∈ exported, entry.reconstructedPgRoute pgId = .ok route
  origin : ∀ route ∈ exported,
    (∃ entry ∈ s.history, entry.reconstructedPgRoute route.pgId = .ok route) ∨
      s.pgs.contains route.pgId = true ∧
        s.earliestRetainedPgEpoch route.pgId = some route.clusterEpoch ∧
        s.reconstructedPgRouteAtEpoch route.pgId route.clusterEpoch = .ok route
  baseline : ∀ pgId, s.pgs.contains pgId = true → ∀ b, s.earliestRetainedPgEpoch pgId = some b →
    ∃ route ∈ exported, route.pgId = pgId ∧ route.clusterEpoch = b

theorem exports_of_historicalPgRoutes (horder : s.HistoryInOrder) (hkeyed : s.PgsKeyed)
    (h : s.historicalPgRoutesForRuntimeMap = .ok exported) : s.Exports exported := by
  simp only [historicalPgRoutesForRuntimeMap, bind_eq_ok, pure_eq_ok] at h
  obtain ⟨recorded, hrecorded, added, hadded, rfl⟩ := h
  have hmem (route : PgRouteSnapshot) : route ∈ recorded.flatten ↔
      ∃ entry ∈ s.history, ∃ pg ∈ entry.pgs, entry.reconstructedPgRoute pg.pgId = .ok route := by
    rw [mem_flatten]
    constructor
    · rintro ⟨part, hpart, hroute⟩
      obtain ⟨entry, hentry, hpart⟩ := (mem_of_mapM_eq_ok hrecorded part).mp hpart
      exact ⟨entry, hentry, (mem_of_mapM_eq_ok hpart route).mp hroute⟩
    · rintro ⟨entry, hentry, hroute⟩
      obtain ⟨part, hpart⟩ := exists_of_mapM_eq_ok hrecorded entry hentry
      exact ⟨part, (mem_of_mapM_eq_ok hrecorded part).mpr ⟨entry, hentry, hpart⟩,
        (mem_of_mapM_eq_ok hpart route).mpr hroute⟩
  obtain ⟨hkept, horigin, hbaseline⟩ := addBaselinePgRoutes_eq_ok horder hkeyed hadded
  refine ⟨fun entry hentry pgId hpg => ?_, fun route hroute => ?_, fun pgId hpresent b hb => ?_⟩
  · obtain ⟨record, hrecord⟩ := Option.isSome_iff_exists.mp hpg
    obtain ⟨part, hpart⟩ := exists_of_mapM_eq_ok hrecorded entry hentry
    have hrecordMem : record ∈ entry.pgs := mem_of_find?_eq_some hrecord
    obtain ⟨route, hroute⟩ := exists_of_mapM_eq_ok hpart record hrecordMem
    refine ⟨route, mem_insertionSort _ |>.mpr (hkept route ?_), ?_⟩
    · exact (hmem route).mpr ⟨entry, hentry, record, hrecordMem, hroute⟩
    · rw [pgId_of_pg hrecord] at hroute
      exact hroute
  · rcases horigin route ((mem_insertionSort _).mp hroute) with hroute | hroute
    · obtain ⟨entry, hentry, pg, -, hroute⟩ := (hmem route).mp hroute
      refine .inl ⟨entry, hentry, ?_⟩
      obtain ⟨-, -, -, hpgId, -⟩ := reconstructedPgRoute_eq_ok hroute
      rw [hpgId]
      exact hroute
    · exact .inr (hroute.imp_left fun hkey =>
        ExtTreeMap.contains_iff_mem.mpr (ExtTreeMap.mem_keys.mp hkey))
  · have hkey : pgId ∈ s.pgs.keys := ExtTreeMap.mem_keys.mpr
      (ExtTreeMap.contains_iff_mem.mp hpresent)
    obtain ⟨route, hroute, hkeys⟩ := hbaseline pgId hkey b hb
    exact ⟨route, (mem_insertionSort _).mpr hroute, hkeys⟩

end Export

/-! ### Both reconstructions agree -/

section Refines

variable {s : ClusterControlSnapshot} {pgId : PgId} {epoch : ClusterEpoch} {nowMs : Nat}

theorem routePrimary_epoch {state : PgState} {active : Option NodeId} {actingSet : List NodeId}
    {primary : NodeId} (h : routePrimary pgId epoch state active actingSet = .ok primary)
    (epoch' : ClusterEpoch) : routePrimary pgId epoch' state active actingSet = .ok primary := by
  cases state with
  | active => exact okOr_eq_ok.mpr (okOr_eq_ok.mp h)
  | _ => exact h

/-- A recorded route tells the same at another epoch, when the nodes are known there. -/
theorem configuration_of_recorded {contains : NodeId → Bool}
    (h : reconstructHistoricalPgRoute epoch record contains = .ok route)
    (epoch' : ClusterEpoch) (contains' : NodeId → Bool) :
    (∃ nodeId, reconstructHistoricalPgRoute epoch' record contains' =
        .error (.unknownActingSetNode record.pgId nodeId)) ∨
      ∃ route', reconstructHistoricalPgRoute epoch' record contains' = .ok route' ∧
        { route with clusterEpoch := epoch' }.configuration = route'.configuration := by
  simp only [reconstructHistoricalPgRoute, bind_eq_ok, pure_eq_ok] at h
  obtain ⟨primary, hprimary, -, -, rfl⟩ := h
  simp only [reconstructHistoricalPgRoute, routePrimary_epoch hprimary epoch', ok_bind]
  cases hnodes : record.actingSet.forM fun nodeId =>
      failIf (¬contains' nodeId) (ControlPlaneError.unknownActingSetNode record.pgId nodeId) with
  | error e =>
    obtain ⟨nodeId, he⟩ := exists_of_forM_eq_error hnodes
    refine .inl ⟨nodeId, ?_⟩
    unfold failIf at he
    split at he
    · cases he
      rfl
    · cases he
  | ok =>
    refine .inr ⟨_, rfl, ?_⟩
    simp [PgRouteSnapshot.configuration, Function.comp_def]

/-- The current route tells what is reconstructed from the record of the PG. -/
theorem configuration_of_pgRoute (hinv : s.RouteInv) (hvalid : CurrentStateValid s)
    {record : PgControlRecord} (hrecord : s.pgs[pgId]? = some record)
    (h : s.pgRoute pgId nowMs = .ok route) (epoch : ClusterEpoch) :
    (route.pgId = pgId ∧ route.clusterEpoch = s.clusterEpoch) ∧
      ∃ route', reconstructPgRouteFromRecord epoch pgId record s.nodes.contains = .ok route' ∧
        { route.withoutServingAuthority with clusterEpoch := epoch }.configuration =
          route'.configuration := by
  obtain ⟨route', hroute'⟩ := reconstructPgRouteFromRecord_ok hinv hrecord epoch
  have hpg := hvalid.pgs record (mem_values.mpr ⟨pgId, hrecord⟩)
  rw [hroute']
  simp only [reconstructPgRouteFromRecord, bind_eq_ok, pure_eq_ok] at hroute'
  obtain ⟨primary, hprimary, -, -, destination, hdestination, rfl⟩ := hroute'
  simp only [pgRoute, okOr_bind_eq_ok] at h
  obtain ⟨record', hrecord', h⟩ := h
  cases hrecord.symm.trans hrecord'
  by_cases hactive : record.state = .active
  · rw [if_pos hactive] at h
    simp only [activePgRoute, okOr_bind_eq_ok, failIf_bind_eq_ok] at h
    obtain ⟨record', hrecord', -, primary', hprimary', _, -, -, h⟩ := h
    cases hrecord.symm.trans hrecord'
    obtain ⟨-, h⟩ := check_bind_eq_ok.mp h
    obtain ⟨recovery, -, h⟩ := bind_eq_ok.mp h
    cases h
    rw [hactive] at hprimary
    cases hprimary'.symm.trans (okOr_eq_ok.mp hprimary)
    -- an Active PG carries no transfer
    simp only [validatePgRecord, check_bind_eq_ok, hactive, validateActivePgState,
      okOr_bind_eq_ok, failIf_eq_ok, PgControlRecord.carriesPeeringState, not_or,
      Bool.or_eq_true, Bool.not_eq_true, Option.isSome_eq_false_iff, Option.isNone_iff_eq_none]
      at hpg
    obtain ⟨-, -, -, -, -, -, -, -, -, -, hnone, -⟩ := hpg
    obtain ⟨⟨⟨⟨⟨⟨⟨-, htransfer⟩, hsource⟩, hnode⟩, -⟩, -⟩, -⟩, -⟩ := hnone
    cases (show peeringMetadataTransferDestinationEpoch record = .ok none by
      rw [peeringMetadataTransferDestinationEpoch, htransfer]; rfl).symm.trans hdestination
    refine ⟨⟨rfl, rfl⟩, _, rfl, ?_⟩
    simp [PgRouteSnapshot.configuration, PgRouteSnapshot.withoutServingAuthority, hactive,
      htransfer, hsource, hnode]
  · rw [if_neg hactive] at h
    obtain ⟨primary', hprimary', h⟩ := okOr_bind_eq_ok.mp h
    obtain ⟨-, h⟩ := check_bind_eq_ok.mp h
    obtain ⟨recovery, -, h⟩ := bind_eq_ok.mp h
    obtain ⟨destination', hdestination', h⟩ := bind_eq_ok.mp h
    cases h
    cases hdestination.symm.trans hdestination'
    have hhead : record.actingSet.head? = some primary := by
      unfold routePrimary at hprimary
      split at hprimary
      · next hstate => exact absurd hstate hactive
      · exact okOr_eq_ok.mp hprimary
    cases hprimary'.symm.trans hhead
    refine ⟨⟨rfl, rfl⟩, _, rfl, ?_⟩
    simp [PgRouteSnapshot.configuration, PgRouteSnapshot.withoutServingAuthority, hactive]

/-- The current route that a runtime map holds for a PG. -/
theorem find?_pgRoutes (hinv : s.RouteInv) (hvalid : CurrentStateValid s)
    {routes : List PgRouteSnapshot} (h : s.pgRoutes nowMs = .ok routes) (pgId : PgId) :
    (s.pgs[pgId]? = none → routes.find? (·.pgId == pgId) = none) ∧
      ∀ record, s.pgs[pgId]? = some record →
        ∃ route, routes.find? (·.pgId == pgId) = some route ∧ s.pgRoute pgId nowMs = .ok route := by
  have hmem := mem_of_mapM_eq_ok h
  have hkey {route : PgRouteSnapshot} (hroute : route ∈ routes) :
      (∃ record, s.pgs[route.pgId]? = some record) ∧ s.pgRoute route.pgId nowMs = .ok route := by
    obtain ⟨record, hrecord, hroute⟩ := (hmem route).mp hroute
    obtain ⟨key, hget⟩ := mem_values.mp hrecord
    cases pgsKeyed_of_keyed hinv.keyed key record hget
    have hpgId := (configuration_of_pgRoute hinv hvalid hget hroute s.clusterEpoch).1.1
    rw [hpgId]
    exact ⟨⟨record, hget⟩, hroute⟩
  constructor
  · intro hnone
    refine find?_eq_none.mpr fun route hroute hpgId => ?_
    obtain ⟨⟨record, hrecord⟩, -⟩ := hkey hroute
    rw [beq_iff_eq.mp hpgId, hnone] at hrecord
    cases hrecord
  · intro record hrecord
    cases hfind : routes.find? (·.pgId == pgId) with
    | some route =>
      obtain ⟨-, hroute⟩ := hkey (mem_of_find?_eq_some hfind)
      have hpgId : route.pgId = pgId := by simpa using find?_some hfind
      exact ⟨route, rfl, hpgId ▸ hroute⟩
    | none =>
      obtain ⟨route, hroute⟩ := exists_of_mapM_eq_ok h record (mem_values.mpr ⟨pgId, hrecord⟩)
      have hin := (hmem route).mpr ⟨record, mem_values.mpr ⟨pgId, hrecord⟩, hroute⟩
      rw [pgsKeyed_of_keyed hinv.keyed pgId record hrecord] at hroute
      have hpgId := (configuration_of_pgRoute hinv hvalid hrecord hroute s.clusterEpoch).1.1
      exact absurd (beq_iff_eq.mpr hpgId) (find?_eq_none.mp hfind route hin)

end Refines

section Exported

variable {s : ClusterControlSnapshot} {pgId : PgId} {exported : List PgRouteSnapshot}
  {entry : ClusterMapHistoryRecord}

theorem exported_key (h : s.Exports exported) (hpresent : s.RecordedPresent)
    (hroute : route ∈ exported) :
    s.pgs.contains route.pgId = true := by
  rcases h.origin route hroute with ⟨origin, horigin, hrecorded⟩ | ⟨hkey, -⟩
  · obtain ⟨record, hrecord, -⟩ := reconstructedPgRoute_eq_ok hrecorded
    exact hpresent origin horigin route.pgId (by rw [hrecord]; rfl)
  · exact hkey

/-- The export has a route of the PG up to a retained epoch when the PG existed then. -/
theorem exported_any_iff (horder : s.HistoryInOrder) (hintro : Introductions s.history s.pgs)
    (hpresent : s.RecordedPresent) (h : s.Exports exported) (hentry : entry ∈ s.history)
    (pgId : PgId) :
    ((exported.filter (·.pgId == pgId)).any (·.clusterEpoch ≤ entry.clusterEpoch)) = true ↔
      historyLookup s.history pgId entry.clusterEpoch ≠ some none ∧
        s.pgs.contains pgId = true := by
  obtain ⟨hafter, hexists, -⟩ := earliestRetainedPgEpoch_le horder hintro hentry pgId
  simp only [any_eq_true, mem_filter, beq_iff_eq, decide_eq_true_eq]
  constructor
  · rintro ⟨route, ⟨hroute, rfl⟩, hle⟩
    refine ⟨fun hlookup => ?_, exported_key h hpresent hroute⟩
    rcases h.origin route hroute with ⟨origin, horigin, hrecorded⟩ | ⟨-, hbaseline, -⟩
    · -- a route recorded before the introduction
      obtain ⟨record, hrecord, -, -, hepoch⟩ := reconstructedPgRoute_eq_ok hrecorded
      obtain ⟨a, ha, habsent, hlater⟩ := (hintro.lookup_absent_iff horder.sorted).mp hlookup
      have hnone := hintro.before a ha _ habsent origin horigin (hepoch ▸ hle.trans hlater)
      cases hnone.symm.trans hrecord
    · exact absurd (hafter hlookup _ hbaseline) (not_lt.mpr hle)
  · rintro ⟨hlookup, hcontains⟩
    obtain ⟨b, hb, hle⟩ := hexists hlookup hcontains
    obtain ⟨route, hroute, hpgId, rfl⟩ := h.baseline pgId hcontains b hb
    exact ⟨route, ⟨hroute, hpgId⟩, hle⟩

/-- Where the PG existed, the first exported route at or after a retained epoch is the one that
the snapshot reconstructs there, or is that of the entry that is looked up. -/
theorem exported_argmin (horder : s.HistoryInOrder) (hintro : Introductions s.history s.pgs)
    (h : s.Exports exported) (hentry : entry ∈ s.history)
    (hexisted : historyLookup s.history pgId entry.clusterEpoch ≠ some none)
    {first : Option PgRouteSnapshot}
    (hfirst : ((exported.filter (·.pgId == pgId)).filter
      (entry.clusterEpoch ≤ ·.clusterEpoch)).argmin (·.clusterEpoch) = first) :
    (first = none → historyLookup s.history pgId entry.clusterEpoch = none) ∧
    ∀ route, first = some route →
      (s.reconstructedPgRouteAtEpoch pgId entry.clusterEpoch = .ok route ∧
        route.clusterEpoch = entry.clusterEpoch) ∨
      ∃ origin ∈ s.history, ∃ record,
        historyLookup s.history pgId entry.clusterEpoch = some (some record) ∧
        reconstructHistoricalPgRoute origin.clusterEpoch record origin.nodes.contains =
          .ok route := by
  subst hfirst
  have hcandidate {route : PgRouteSnapshot} : route ∈ (exported.filter (·.pgId == pgId)).filter
      (entry.clusterEpoch ≤ ·.clusterEpoch) ↔
      (route ∈ exported ∧ route.pgId = pgId) ∧ entry.clusterEpoch ≤ route.clusterEpoch := by
    simp only [mem_filter, beq_iff_eq, decide_eq_true_eq]
  -- an entry that records the PG has its route among the candidates
  have hlisted {origin : ClusterMapHistoryRecord} (horigin : origin ∈ s.history)
      (hle : entry.clusterEpoch ≤ origin.clusterEpoch) {record : HistoricalPgRouteRecord}
      (hrecord : origin.pg pgId = some record) :
      ∃ route ∈ (exported.filter (·.pgId == pgId)).filter (entry.clusterEpoch ≤ ·.clusterEpoch),
        route.clusterEpoch = origin.clusterEpoch := by
    obtain ⟨route, hroute, hreconstructed⟩ :=
      h.recorded origin horigin pgId (by rw [hrecord]; rfl)
    obtain ⟨-, -, -, hpgId, hepoch⟩ := reconstructedPgRoute_eq_ok hreconstructed
    exact ⟨route, hcandidate.mpr ⟨⟨hroute, hpgId⟩, hepoch ▸ hle⟩, hepoch⟩
  constructor
  · intro hnone
    have hempty := argmin_eq_none.mp hnone
    cases hlookup : historyLookup s.history pgId entry.clusterEpoch with
    | none => rfl
    | some found =>
      cases found with
      | none => exact absurd hlookup hexisted
      | some record =>
        obtain ⟨origin, horigin, hle, hrecord⟩ := mem_of_historyLookup hlookup
        obtain ⟨route, hmem, -⟩ := hlisted horigin hle hrecord
        rw [hempty] at hmem
        cases hmem
  · intro route hroute
    obtain ⟨⟨hexported, hpgId⟩, hle⟩ := hcandidate.mp (argmin_mem hroute)
    rcases h.origin route hexported with ⟨origin, horigin, hrecorded⟩ | ⟨-, hbaseline, hown⟩
    · rw [hpgId] at hrecorded
      obtain ⟨record, hrecord, hreconstructed, -, hepoch⟩ := reconstructedPgRoute_eq_ok hrecorded
      refine .inr ⟨origin, horigin, record, ?_, hreconstructed⟩
      -- no other entry that mentions the PG comes before the origin of the route
      have hmention : (origin.mention pgId).isSome := by
        unfold mention
        split
        · rfl
        · rw [hrecord]
          rfl
      obtain ⟨first, hfirst, hbefore⟩ : ∃ first, firstEntry (·.clusterEpoch) (·.mention pgId)
          s.history entry.clusterEpoch = some first ∧ first.clusterEpoch ≤ origin.clusterEpoch :=
        le_of_firstEntry horder.sorted horigin (hepoch ▸ hle) hmention
      obtain ⟨hmem, hstart, -⟩ := mem_of_firstEntry hfirst
      have hlookup : historyLookup s.history pgId entry.clusterEpoch = first.mention pgId :=
        firstFrom_of_firstEntry (fun _ => rfl) hfirst
      have habsent : pgId ∉ first.absentPgs := by
        intro habsent
        rw [mention, if_pos habsent] at hlookup
        exact hexisted hlookup
      have hpg : (first.pg pgId).isSome := by
        simpa [mention, habsent] using (mem_of_firstEntry hfirst).2.2
      obtain ⟨other, hother⟩ := Option.isSome_iff_exists.mp hpg
      obtain ⟨route', hroute', hepoch'⟩ := hlisted hmem hstart hother
      have hafter : origin.clusterEpoch ≤ first.clusterEpoch := by
        rw [← hepoch, ← hepoch']
        exact le_of_mem_argmin hroute' hroute
      have hepochs : (s.history.map (·.clusterEpoch)).Nodup :=
        pairwise_map.mpr (horder.sorted.imp fun hlt => Nat.ne_of_lt hlt)
      cases inj_on_of_nodup_map hepochs hmem horigin (Nat.le_antisymm hbefore hafter)
      rw [hlookup, mention, if_neg habsent, hrecord]
      rfl
    · left
      have hb : route.clusterEpoch = entry.clusterEpoch := by
        refine Nat.le_antisymm ?_ hle
        rw [hpgId] at hbaseline
        exact (earliestRetainedPgEpoch_le horder hintro hentry pgId).2.2 hexisted _ hbaseline
      rw [hpgId, hb] at hown
      exact ⟨hown, hb⟩

/-- A PG that did not exist in a retained epoch has no route there. -/
theorem reconstructed_of_not_existed (hpresent : s.RecordedPresent) (hentry : entry ∈ s.history)
    (hne : entry.clusterEpoch ≠ s.clusterEpoch)
    (hnot : ¬(historyLookup s.history pgId entry.clusterEpoch ≠ some none ∧
      s.pgs.contains pgId = true)) :
    s.reconstructedPgRouteAtEpoch pgId entry.clusterEpoch = .error (.unknownPg pgId) := by
  obtain ⟨found, hfound⟩ : ∃ found, s.clusterMapAtEpoch entry.clusterEpoch = some found :=
    Option.isSome_iff_exists.mp (find?_isSome.mpr ⟨entry, hentry, beq_self_eq_true _⟩)
  rw [reconstructedPgRouteAtEpoch, if_neg hne, hfound]
  cases hlookup : historyLookup s.history pgId entry.clusterEpoch with
  | none =>
    have hrecord : s.pgs[pgId]? = none := by
      by_contra hsome
      refine hnot ⟨by simp [hlookup], ?_⟩
      rw [← ExtTreeMap.isSome_getElem?_eq_contains]
      exact Option.isSome_iff_ne_none.mpr hsome
    simp only [hrecord]
    rfl
  | some route =>
    cases route with
    | none => rfl
    | some record =>
      obtain ⟨origin, horigin, -, hpg⟩ := mem_of_historyLookup hlookup
      exact absurd ⟨by simp [hlookup], hpresent origin horigin pgId (by rw [hpg]; rfl)⟩ hnot

end Exported

section Runs

variable {s : ClusterControlSnapshot} {Ok : ClusterControlSnapshot → ControlPlaneEvent → Prop}
  {past : List ClusterControlSnapshot}

/-- **The export refines the history.**  In every reachable snapshot whose runtime map is built,
for every PG and every epoch, the route that is reconstructed from the runtime map is the one that
is reconstructed from the snapshot, up to a pending command and the epoch that names a transfer's
destination, and both refuse the same epochs and PGs.  The exception is a retained epoch for which
the snapshot itself only finds a later route, on a node that did not exist yet. -/
theorem sparse_route_refines (h : Run controlPlaneStep Ok .empty past s) {nowMs : Nat}
    {map : ClusterRuntimeMapSnapshot} (hmap : s.runtimeMap nowMs = .ok map) (pgId : PgId)
    (epoch : ClusterEpoch) :
    (∃ nodeId, s.reconstructedPgRouteAtEpoch pgId epoch =
        .error (.unknownActingSetNode pgId nodeId)) ∨
      (map.reconstructedPgRouteAtEpoch pgId epoch).map (·.configuration) =
        (s.reconstructedPgRouteAtEpoch pgId epoch).map (·.configuration) := by
  have hinv := routeInv_of_run h s mem_cons_self
  have hpresent := recordedPresent_of_run h
  obtain ⟨hhistory, hvalid⟩ :=
    (validatePublicationInvariants_eq_ok hinv.order).mp (settled_of_run h).valid
  simp only [runtimeMap, bind_eq_ok, pure_eq_ok] at hmap
  obtain ⟨routes, hroutes, exported, hexported, rfl⟩ := hmap
  have hexports := exports_of_historicalPgRoutes hinv.order (pgsKeyed_of_keyed hinv.keyed) hexported
  obtain ⟨hmissing, hcurrent⟩ := find?_pgRoutes hinv hvalid hroutes pgId
  -- the current route stands for every epoch from which on the PG has not changed
  have hfallback (record : PgControlRecord) (hrecord : s.pgs[pgId]? = some record) :
      ∃ route, routes.find? (·.pgId == pgId) = some route ∧ route.clusterEpoch = s.clusterEpoch ∧
        (reconstructPgRouteFromRecord epoch pgId record s.nodes.contains).map (·.configuration) =
          .ok { route.withoutServingAuthority with clusterEpoch := epoch }.configuration := by
    obtain ⟨route, hfind, hroute⟩ := hcurrent record hrecord
    obtain ⟨⟨-, hepoch⟩, route', hroute', hsame⟩ :=
      configuration_of_pgRoute hinv hvalid hrecord hroute epoch
    refine ⟨route, hfind, hepoch, ?_⟩
    rw [hroute', hsame]
    rfl
  by_cases hnow : epoch = s.clusterEpoch
  · right
    rw [reconstructedPgRouteAtEpoch, if_pos hnow]
    simp only [ClusterRuntimeMapSnapshot.reconstructedPgRouteAtEpoch,
      reconstructSparsePgRouteAtEpoch, if_pos hnow]
    cases hrecord : s.pgs[pgId]? with
    | none =>
      rw [hmissing hrecord]
      rfl
    | some record =>
      obtain ⟨route, hfind, hepoch, hsame⟩ := hfallback record hrecord
      change _ = (reconstructPgRouteFromRecord epoch pgId record s.nodes.contains).map
        (·.configuration)
      rw [hfind, hsame, hnow, ← hepoch]
      rfl
  by_cases hretained : epoch ∈ s.history.map (·.clusterEpoch)
  · obtain ⟨entry, hentry, rfl⟩ := mem_map.mp hretained
    obtain ⟨found, hfound⟩ : ∃ found, s.clusterMapAtEpoch entry.clusterEpoch = some found :=
      Option.isSome_iff_exists.mp (find?_isSome.mpr ⟨entry, hentry, beq_self_eq_true _⟩)
    have hcontains := contains_iff_mem.mpr hretained
    have hany := exported_any_iff hinv.order hhistory.introductions hpresent hexports hentry pgId
    by_cases hexisted : historyLookup s.history pgId entry.clusterEpoch ≠ some none ∧
        s.pgs.contains pgId = true
    · have hargmin := exported_argmin hinv.order hhistory.introductions hexports hentry
        hexisted.1 rfl
      simp only [ClusterRuntimeMapSnapshot.reconstructedPgRouteAtEpoch,
        reconstructSparsePgRouteAtEpoch, if_neg hnow, hcontains, hany.mpr hexisted]
      cases hfirst : ((exported.filter (·.pgId == pgId)).filter
          (entry.clusterEpoch ≤ ·.clusterEpoch)).argmin (·.clusterEpoch) with
      | none =>
        right
        obtain ⟨record, hrecord⟩ : ∃ record, s.pgs[pgId]? = some record :=
          Option.isSome_iff_exists.mp
            (ExtTreeMap.isSome_getElem?_eq_contains.trans hexisted.2)
        obtain ⟨route, hfind, -, hsame⟩ := hfallback record hrecord
        rw [reconstructedPgRouteAtEpoch, if_neg hnow, hfound,
          hargmin.1 hfirst, hrecord, hfind]
        exact hsame.symm
      | some route =>
        rcases hargmin.2 route hfirst with ⟨hdirect, hepoch⟩ | ⟨origin, -, record, hlookup, hroute⟩
        · right
          rw [hdirect, ← hepoch]
          rfl
        · obtain ⟨origin', -, -, hpg⟩ := mem_of_historyLookup hlookup
          have hdirect : s.reconstructedPgRouteAtEpoch pgId entry.clusterEpoch =
              reconstructHistoricalPgRoute entry.clusterEpoch record found.nodes.contains := by
            rw [reconstructedPgRouteAtEpoch, if_neg hnow, hfound]
            simp only [hlookup]
            rfl
          rw [hdirect]
          rcases configuration_of_recorded hroute entry.clusterEpoch found.nodes.contains with
            ⟨nodeId, hnode⟩ | ⟨route', hroute', hsame⟩
          · rw [pgId_of_pg hpg] at hnode
            exact .inl ⟨nodeId, hnode⟩
          · right
            rw [hroute']
            exact congrArg Except.ok hsame
    · right
      have hdirect := reconstructed_of_not_existed hpresent hentry hnow hexisted
      simp only [ClusterRuntimeMapSnapshot.reconstructedPgRouteAtEpoch,
        reconstructSparsePgRouteAtEpoch, if_neg hnow, hcontains, hdirect]
      rw [failIf_of_not (by simp), ok_bind, failIf, if_pos (mt hany.mp hexisted)]
      rfl
  · right
    have hnone : s.clusterMapAtEpoch epoch = none := by
      refine find?_eq_none.mpr fun entry hentry hsame => hretained ?_
      exact mem_map.mpr ⟨entry, hentry, beq_iff_eq.mp hsame⟩
    rw [reconstructedPgRouteAtEpoch, if_neg hnow, hnone]
    simp only [ClusterRuntimeMapSnapshot.reconstructedPgRouteAtEpoch,
      reconstructSparsePgRouteAtEpoch, if_neg hnow]
    rw [failIf, if_pos (mt contains_iff_mem.mp hretained)]
    rfl

/-! Both PGs of the node become Active in epoch 4, and the primary reports a pending command. -/

def pendingEvents : List ControlPlaneEvent :=
  twoPeeringEvents ++ [.command (.completeReadyPgPeerings 100000 [readyAt 3 0, readyAt 3 1]),
    .command (.recordNodeHeartbeat ⟨1, 1, "a", 4, 10000, 3, ∅,
      [⟨0, .active, agreedProof, 4, some ⟨4, 6, 8⟩⟩, ⟨1, .active, agreedProof, 4, none⟩]⟩
      100000 110000 none)]

theorem sparse_route_refines_before_activation :
    ∃ past s map, Run controlPlaneStep (fun _ _ => True) .empty past s ∧
      s.runtimeMap 100000 = .ok map ∧ s.clusterEpoch = 4 ∧
      (map.reconstructedPgRouteAtEpoch 0 3).map (·.configuration) =
        (s.reconstructedPgRouteAtEpoch 0 3).map (·.configuration) := by
  have h : ∃ past s, Run controlPlaneStep (fun _ _ => True) .empty past s ∧
      (s.runtimeMap 100000).isOk = true ∧ s.clusterEpoch = 4 ∧
      (s.reconstructedPgRouteAtEpoch 0 3).isOk = true :=
    exists_run_of_replay pendingEvents (by decide +kernel)
  obtain ⟨past, s, hs, hok, hepoch, hdirect⟩ := h
  cases hmap : s.runtimeMap 100000 with
  | error e => rw [hmap] at hok; cases hok
  | ok map =>
    refine ⟨past, s, map, hs, hmap, hepoch, ?_⟩
    rcases sparse_route_refines hs hmap 0 3 with ⟨nodeId, herror⟩ | hsame
    · rw [herror] at hdirect
      cases hdirect
    · exact hsame

/-- **The export keeps a pending command.**  For the current epoch the runtime map gives the
current route, with the command that its primary has reported; the snapshot reconstructs the route
without it. -/
theorem sparse_route_keeps_pending :
    ∃ past s, Run controlPlaneStep (fun _ _ => True) .empty past s ∧
      ((s.runtimeMap 100000).toOption.bind fun map =>
          (map.reconstructedPgRouteAtEpoch 0 s.clusterEpoch).toOption).map
        (fun route => route.pendingMetadataCommandRecovery) = some (some ⟨1, 4, 6, 8⟩) ∧
      (s.reconstructedPgRouteAtEpoch 0 s.clusterEpoch).toOption.map
        (fun route => route.pendingMetadataCommandRecovery) = some none :=
  exists_run_of_replay pendingEvents (by decide +kernel)

end Runs

end Argmin.ControlPlane
