import Argmin.ControlPlane.Unchanged

/-!
# Publishing a new epoch

A command is accepted when the snapshot it produces is well formed.  For a command that ends an
epoch the part of the check that looks at the history does not depend on the command: the entry of
the epoch that ends is appended, what the new state protects is kept, and so every route that was
retained before is retained now.

* `Introductions` — what the check of introduction boundaries says, and that recording keeps it;
* `ClusterControlSnapshot.RouteKept` — a route whose epoch is current or retained, and that
  recording keeps it;
* `valid_of_endsEpoch` — the new snapshot is well formed when its PG records and its transitions
  are.
-/

namespace Argmin.ControlPlane

open List ClusterControlSnapshot

open Std (ExtTreeMap)
open Fallible TreeMap

/-! ### Introduction boundaries -/

/-- Every PG is introduced at most once, is present, and has no route up to its introduction. -/
structure Introductions (history : List ClusterMapHistoryRecord)
    (pgs : BTreeMap PgId PgControlRecord) : Prop where
  once : (history.flatMap (·.absentPgs)).Nodup
  present : ∀ record ∈ history, ∀ pgId ∈ record.absentPgs, pgs.contains pgId = true
  before : ∀ later ∈ history, ∀ pgId ∈ later.absentPgs, ∀ earlier ∈ history,
    earlier.clusterEpoch ≤ later.clusterEpoch → earlier.pg pgId = none

section Introductions

variable {history : List ClusterMapHistoryRecord} {pgs : BTreeMap PgId PgControlRecord}

theorem validateIntroductionsFrom_eq_ok {entries : List (Nat × PgId)} {seen : List PgId} :
    validateIntroductionsFrom history pgs entries seen = .ok () ↔
      (entries.map (·.2)).Nodup ∧ ∀ entry ∈ entries, entry.2 ∉ seen ∧
        pgs.contains entry.2 = true ∧
        ∀ earlier ∈ history.take (entry.1 + 1), earlier.pg entry.2 = none := by
  induction entries generalizing seen with
  | nil => simp [validateIntroductionsFrom]
  | cons entry rest ih =>
    obtain ⟨index, pgId⟩ := entry
    simp only [validateIntroductionsFrom, bind_eq_ok, failIf_eq_ok, exists_const, ih,
      map_cons, nodup_cons, mem_cons, forall_eq_or_imp, not_or, any_eq_true,
      not_exists, not_and, Bool.not_eq_true, Option.isSome_eq_false_iff, Option.isNone_iff_eq_none,
      Bool.not_eq_false, mem_map]
    constructor
    · rintro ⟨hseen, hpresent, hbefore, hnodup, hrest⟩
      refine ⟨⟨fun entry hentry heq => (hrest entry hentry).1.1 heq, hnodup⟩,
        ⟨hseen, hpresent, hbefore⟩, fun entry hentry => ?_⟩
      obtain ⟨⟨-, hnew⟩, hentryPresent, hentryBefore⟩ := hrest entry hentry
      exact ⟨hnew, hentryPresent, hentryBefore⟩
    · rintro ⟨⟨hfresh, hnodup⟩, ⟨hseen, hpresent, hbefore⟩, hrest⟩
      refine ⟨hseen, hpresent, hbefore, hnodup, fun entry hentry => ?_⟩
      obtain ⟨hnew, hentryPresent, hentryBefore⟩ := hrest entry hentry
      exact ⟨⟨fun heq => hfresh entry hentry heq, hnew⟩, hentryPresent, hentryBefore⟩

/-- Up to an entry of a sorted history are the entries of epochs up to its own. -/
theorem mem_take_iff (hsorted : history.Pairwise fun a b => a.clusterEpoch < b.clusterEpoch)
    {index : Nat} {record : ClusterMapHistoryRecord} (hrecord : history[index]? = some record)
    {earlier : ClusterMapHistoryRecord} : earlier ∈ history.take (index + 1) ↔
      earlier ∈ history ∧ earlier.clusterEpoch ≤ record.clusterEpoch := by
  obtain ⟨hindex, rfl⟩ := List.getElem?_eq_some_iff.mp hrecord
  rw [List.pairwise_iff_getElem] at hsorted
  constructor
  · intro hmem
    obtain ⟨j, hj, rfl⟩ := mem_take_iff_getElem.mp hmem
    have hjlen : j < history.length := by omega
    refine ⟨getElem_mem hjlen, ?_⟩
    rcases Nat.lt_or_ge j index with hlt | hge
    · exact (hsorted j index hjlen hindex hlt).le
    · have heq : j = index := by omega
      subst heq
      exact le_rfl
  · rintro ⟨hmem, hle⟩
    obtain ⟨j, hj, rfl⟩ := mem_iff_getElem.mp hmem
    have hup : j ≤ index := by
      by_contra hgt
      have hlater := hsorted index j hindex hj (by omega)
      exact absurd hle (not_le.mpr hlater)
    exact mem_take_iff_getElem.mpr ⟨j, by omega, rfl⟩

/-- The check of introduction boundaries, for a sorted history. -/
theorem validateIntroductions_iff
    (hsorted : history.Pairwise fun a b => a.clusterEpoch < b.clusterEpoch) :
    validateIntroductionsFrom history pgs
        (history.zipIdx.flatMap fun (record, index) => record.absentPgs.map (index, ·)) [] =
      .ok () ↔ Introductions history pgs := by
  have hmap : (history.zipIdx.flatMap fun (record, index) =>
      record.absentPgs.map (index, ·)).map (·.2) = history.flatMap (·.absentPgs) := by
    have hfst : history.zipIdx.map Prod.fst = history := zipIdx_map_fst 0 history
    conv_rhs => rw [← hfst]
    rw [flatMap_map, map_flatMap]
    refine flatMap_congr fun entry _ => ?_
    simp
  have hmem : ∀ entry : Nat × PgId, (entry ∈ history.zipIdx.flatMap fun (record, index) =>
      record.absentPgs.map (index, ·)) ↔
        ∃ record, history[entry.1]? = some record ∧ entry.2 ∈ record.absentPgs := by
    rintro ⟨index, pgId⟩
    simp only [mem_flatMap, mem_map, Prod.mk.injEq, Prod.exists,
      mk_mem_zipIdx_iff_getElem?]
    constructor
    · rintro ⟨record, i, hrecord, other, hother, rfl, rfl⟩
      exact ⟨record, hrecord, hother⟩
    · rintro ⟨record, hrecord, habsent⟩
      exact ⟨record, index, hrecord, pgId, habsent, rfl, rfl⟩
  rw [validateIntroductionsFrom_eq_ok, hmap]
  constructor
  · rintro ⟨hnodup, hentries⟩
    refine ⟨hnodup, fun record hrecord pgId habsent => ?_,
      fun later hlater pgId habsent earlier hearlier hle => ?_⟩
    · obtain ⟨index, hindex⟩ := mem_iff_getElem?.mp hrecord
      exact (hentries (index, pgId) ((hmem _).mpr ⟨record, hindex, habsent⟩)).2.1
    · obtain ⟨index, hindex⟩ := mem_iff_getElem?.mp hlater
      refine (hentries (index, pgId) ((hmem _).mpr ⟨later, hindex, habsent⟩)).2.2 earlier ?_
      exact (mem_take_iff hsorted hindex).mpr ⟨hearlier, hle⟩
  · intro h
    refine ⟨h.once, fun entry hentry => ?_⟩
    obtain ⟨record, hindex, habsent⟩ := (hmem _).mp hentry
    have hrecord := mem_of_getElem? hindex
    refine ⟨not_mem_nil, h.present record hrecord _ habsent, fun earlier hearlier => ?_⟩
    obtain ⟨hearlier, hle⟩ := (mem_take_iff hsorted hindex).mp hearlier
    exact h.before record hrecord _ habsent earlier hearlier hle

/-- An entry that introduces nothing may be appended. -/
theorem Introductions.append (h : Introductions history pgs) {record : ClusterMapHistoryRecord}
    (habsent : record.absentPgs = [])
    (hlast : ∀ earlier ∈ history, earlier.clusterEpoch < record.clusterEpoch) :
    Introductions (history ++ [record]) pgs where
  once := by
    rw [flatMap_append, flatMap_singleton, habsent, append_nil]
    exact h.once
  present := forall_mem_append.mpr ⟨h.present, forall_mem_singleton.mpr (by simp [habsent])⟩
  before := fun later hlater pgId hpg earlier hearlier hle => by
    rcases mem_append.mp hlater with hold | hnew
    · rcases mem_append.mp hearlier with hearlier | hearlier
      · exact h.before later hold pgId hpg earlier hearlier hle
      · rw [mem_singleton.mp hearlier] at hle
        exact absurd (hlast later hold) (not_lt.mpr hle)
    · rw [mem_singleton.mp hnew, habsent] at hpg
      exact absurd hpg not_mem_nil

/-- Thinning out the routes keeps the boundaries. -/
theorem Introductions.filterMap (h : Introductions history pgs)
    {g : ClusterMapHistoryRecord → Option ClusterMapHistoryRecord}
    (hg : ∀ record kept, g record = some kept → kept.clusterEpoch = record.clusterEpoch ∧
      kept.absentPgs = record.absentPgs ∧
      ∀ pgId, record.pg pgId = none → kept.pg pgId = none) :
    Introductions (history.filterMap g) pgs where
  once := by
    refine h.once.sublist ?_
    clear h
    induction history with
    | nil => exact .slnil
    | cons record rest ih =>
      cases hkept : g record with
      | none =>
        rw [filterMap_cons_none hkept, flatMap_cons]
        exact ih.trans (sublist_append_right _ _)
      | some kept =>
        rw [filterMap_cons_some hkept, flatMap_cons, flatMap_cons,
          (hg record kept hkept).2.1]
        exact (List.Sublist.refl _).append ih
  present := fun kept hkept pgId hpg => by
    obtain ⟨record, hrecord, hsome⟩ := mem_filterMap.mp hkept
    rw [(hg record kept hsome).2.1] at hpg
    exact h.present record hrecord pgId hpg
  before := fun later hlater pgId hpg earlier hearlier hle => by
    obtain ⟨laterRecord, hlaterRecord, hlaterSome⟩ := mem_filterMap.mp hlater
    obtain ⟨record, hrecord, hsome⟩ := mem_filterMap.mp hearlier
    obtain ⟨hepoch, -, hpgs⟩ := hg record earlier hsome
    obtain ⟨hlaterEpoch, habsent, -⟩ := hg laterRecord later hlaterSome
    rw [habsent] at hpg
    rw [hepoch, hlaterEpoch] at hle
    exact hpgs pgId (h.before laterRecord hlaterRecord pgId hpg record hrecord hle)

theorem Introductions.congr {pgs' : BTreeMap PgId PgControlRecord} (h : Introductions history pgs)
    (hpgs : ∀ pgId, pgs'.contains pgId = pgs.contains pgId) : Introductions history pgs' :=
  ⟨h.once, fun record hrecord pgId hpg => (hpgs pgId).trans (h.present record hrecord pgId hpg),
    h.before⟩

end Introductions

/-! ### Kept routes -/

namespace ClusterControlSnapshot

/-- The epoch of the key is current, or its entry is retained. -/
def RouteKept (s : ClusterControlSnapshot) (key : RouteKey) : Prop :=
  key.1 = s.clusterEpoch ∨ key.1 < s.clusterEpoch ∧ (s.nodesAtEpoch key.1).isSome = true

/-- What the history has to show for a placement transition. -/
structure TransitionKept (s : ClusterControlSnapshot)
    (transition : UnavailablePgPlacementTransition) : Prop where
  source : s.routeAt (transition.sourceEpoch, transition.pgId) =
    some transition.beginAuthorization.sourceRoute
  routes : ∀ required ∈ [(transition.sourceEpoch, transition.sourceActingSet),
      (transition.transitionEpoch, unavailableTransitionSourceRouteActingSet
        transition.sourceActingSet transition.sourceNodeId)] ++
      (transition.destinationEpoch.map (·, transition.destinationActingSet)).toList,
    s.RouteKept (required.1, transition.pgId) ∧
      (s.routeAt (required.1, transition.pgId)).map (·.actingSet) = some required.2
  destination : ∀ epoch route, transition.destinationEpoch = some epoch →
    transition.destinationRoute = some route → s.routeAt (epoch, transition.pgId) = some route

/-- The placement transitions of a snapshot, active ones first. -/
def placementTransitions (s : ClusterControlSnapshot) : List UnavailablePgPlacementTransition :=
  values s.unavailablePgPlacementTransitions ++ values s.retainedUnavailablePgPlacementTransitions

/-- What the history has to show for the current state. -/
structure HistoryValid (s : ClusterControlSnapshot) : Prop where
  introductions : Introductions s.history s.pgs
  sources : ∀ pg ∈ values s.pgs, ∀ epoch, pg.peeringMetadataTransferSourceRouteEpoch = some epoch →
    epoch < s.clusterEpoch → (s.nodesAtEpoch epoch).isSome = true
  references : ∀ node ∈ values s.nodes, ∀ reference ∈ node.retainedClusterMapHistoryRouteReferences,
    s.RouteKept (reference.clusterEpoch, reference.pgId) ∧
      (s.routeAt (reference.clusterEpoch, reference.pgId)).isSome = true
  transitions : ∀ transition ∈ s.placementTransitions, s.TransitionKept transition

end ClusterControlSnapshot

section HistoryValid

variable {s : ClusterControlSnapshot}

theorem nodesAtEpoch_isSome (epoch : ClusterEpoch) :
    (s.nodesAtEpoch epoch).isSome = s.history.any (·.clusterEpoch == epoch) := by
  rw [nodesAtEpoch, Option.isSome_map,
    clusterMapAtEpoch, isSome_find?]

theorem historicalPgActingSetAtEpoch_eq (key : RouteKey) :
    historicalPgActingSetAtEpoch s.history s.pgs key.2 key.1 =
      (s.routeAt key).map (·.actingSet) := by
  unfold historicalPgActingSetAtEpoch routeAt historicalPgRouteRecordAtEpoch
  cases historyLookup s.history key.2 key.1 with
  | some route => rfl
  | none => exact (Option.map_map (·.actingSet) HistoricalPgRouteRecord.ofRecord _).symm

theorem historicalPgExistsAtEpoch_eq (key : RouteKey) :
    historicalPgExistsAtEpoch s.history s.pgs key.2 key.1 = (s.routeAt key).isSome := by
  unfold historicalPgExistsAtEpoch routeAt historicalPgRouteRecordAtEpoch
  cases historyLookup s.history key.2 key.1 with
  | some route => rfl
  | none => rw [Option.isSome_map, ExtTreeMap.isSome_getElem?_eq_contains]

theorem validateTransitionRoute_eq_ok (horder : s.HistoryInOrder) {pgId : PgId}
    {required : ClusterEpoch × List NodeId} :
    validateTransitionRoute s pgId required = .ok () ↔ s.RouteKept (required.1, pgId) ∧
      (s.routeAt (required.1, pgId)).map (·.actingSet) = some required.2 := by
  unfold validateTransitionRoute ClusterControlSnapshot.RouteKept
  by_cases hcurrent : required.1 = s.clusterEpoch
  · rw [if_pos hcurrent, failIf_eq_ok, hcurrent, routeAt_current horder, Option.map_map]
    cases hpg : s.pgs[pgId]? with
    | none => simp
    | some record => simp [HistoricalPgRouteRecord.ofRecord]
  · rw [if_neg hcurrent, failIf_eq_ok, nodesAtEpoch_isSome,
      ← historicalPgActingSetAtEpoch_eq (required.1, pgId)]
    simp only [not_or, not_not, not_lt, ne_eq, hcurrent, false_or, and_assoc]
    refine and_congr_left fun _ => ⟨fun hle => ?_, fun hlt => hlt.le⟩
    exact lt_of_le_of_ne hle hcurrent

theorem validateTransitionHistory_eq_ok (horder : s.HistoryInOrder)
    {transition : UnavailablePgPlacementTransition} :
    validateTransitionHistory s transition = .ok () ↔ s.TransitionKept transition := by
  have hdestination (epoch : ClusterEpoch) :
      (if epoch = s.clusterEpoch then s.pgs[transition.pgId]?.map HistoricalPgRouteRecord.ofRecord
        else historicalPgRouteRecordAtEpoch s.history s.pgs transition.pgId epoch) =
      s.routeAt (epoch, transition.pgId) := by
    by_cases hcurrent : epoch = s.clusterEpoch
    · rw [if_pos hcurrent, hcurrent, routeAt_current horder]
    · rw [if_neg hcurrent]
      rfl
  simp only [validateTransitionHistory, check_bind_eq_ok, failIf_eq_ok, not_not, ne_eq,
    forM_eq_ok, validateTransitionRoute_eq_ok horder, hdestination]
  constructor
  · rintro ⟨hsource, hroutes, hlast⟩
    refine ⟨hsource, hroutes, fun epoch route hepoch hroute => ?_⟩
    rw [hepoch, hroute] at hlast
    exact not_not.mp (failIf_eq_ok.mp hlast)
  · rintro ⟨hsource, hroutes, hlast⟩
    refine ⟨hsource, hroutes, ?_⟩
    split
    · next epoch route hepoch hroute =>
      exact failIf_eq_ok.mpr (not_not.mpr (hlast epoch route hepoch hroute))
    · rfl

/-- **The check of the retained history**, for a history in order. -/
theorem validateRequiredClusterMapHistory_eq_ok (horder : s.HistoryInOrder) :
    validateRequiredClusterMapHistory s = .ok () ↔ s.HistoryValid := by
  have hreference (reference : PgClusterMapHistoryRouteReference) :
      ((if reference.clusterEpoch = s.clusterEpoch then s.pgs.contains reference.pgId
        else if reference.clusterEpoch < s.clusterEpoch then
          (s.nodesAtEpoch reference.clusterEpoch).isSome &&
            historicalPgExistsAtEpoch s.history s.pgs reference.pgId reference.clusterEpoch
        else false) = true) ↔ s.RouteKept (reference.clusterEpoch, reference.pgId) ∧
          (s.routeAt (reference.clusterEpoch, reference.pgId)).isSome = true := by
    unfold ClusterControlSnapshot.RouteKept
    by_cases hcurrent : reference.clusterEpoch = s.clusterEpoch
    · rw [if_pos hcurrent, hcurrent, routeAt_current horder, Option.isSome_map,
        ExtTreeMap.isSome_getElem?_eq_contains]
      simp
    · rw [if_neg hcurrent,
        ← historicalPgExistsAtEpoch_eq (reference.clusterEpoch, reference.pgId)]
      by_cases hlt : reference.clusterEpoch < s.clusterEpoch
      · simp [hcurrent, hlt]
      · simp [hcurrent, hlt]
  simp only [validateRequiredClusterMapHistory, check_bind_eq_ok,
    validateIntroductions_iff horder.sorted, forM_eq_ok, onSome_eq_ok, failIf_eq_ok,
    validateTransitionHistory_eq_ok horder, not_not, hreference, ← nodesAtEpoch_isSome]
  constructor
  · rintro ⟨hintroductions, hsources, hreferences, htransitions⟩
    refine ⟨hintroductions, fun pg hpg epoch hepoch hlt => ?_, hreferences, htransitions⟩
    by_contra hmissing
    exact hsources pg hpg epoch hepoch ⟨hlt, hmissing⟩
  · intro h
    refine ⟨h.introductions, fun pg hpg epoch hepoch hmissing => ?_, h.references, h.transitions⟩
    exact hmissing.2 (h.sources pg hpg epoch hepoch hmissing.1)

end HistoryValid

/-! ### The end of an epoch -/

section Step

variable {s next : ClusterControlSnapshot} {transition : UnavailablePgPlacementTransition}

/-- **A kept route stays** as long as the new state keeps its key. -/
theorem routeKept_step (h : StepRecorded s next (next.recordHistoryFrom s)) (hs : s.RouteInv)
    (hepoch : next.clusterEpoch = s.clusterEpoch + 1) {key : RouteKey}
    (hkeeps : (next.recordHistoryFrom s).Keeps key) (hkept : s.RouteKept key) :
    (next.recordHistoryFrom s).RouteKept key ∧
      (next.recordHistoryFrom s).routeAt key = s.routeAt key := by
  have hbelow : (next.recordHistoryFrom s).clusterEpoch = s.clusterEpoch + 1 := hepoch
  obtain ⟨hearlier, hlast⟩ := h.nodesAtEpoch hs.order hkeeps
  rcases hkept with heq | ⟨hlt, hsome⟩
  · have hpassed : s.clusterEpoch < (next.recordHistoryFrom s).clusterEpoch :=
      hbelow ▸ Nat.lt_succ_self _
    refine ⟨.inr ⟨heq ▸ hpassed, ?_⟩,
      h.routeAt hs.order (pgsKeyed_of_keyed hs.keyed) heq.le hkeeps⟩
    rw [hlast heq hpassed]
    rfl
  · refine ⟨.inr ⟨hbelow ▸ Nat.lt_succ_of_lt hlt, ?_⟩,
      h.routeAt hs.order (pgsKeyed_of_keyed hs.keyed) hlt.le hkeeps⟩
    rw [hearlier hlt]
    exact hsome

theorem mem_historyProtection_transition
    (h : transition ∈ s.placementTransitions) {epoch : ClusterEpoch}
    (hepoch : epoch = transition.sourceEpoch ∨ epoch = transition.transitionEpoch ∨
      transition.destinationEpoch = some epoch) :
    (epoch, transition.pgId) ∈ s.historyProtection := by
  refine mem_append_right _ (mem_flatMap.mpr ⟨transition, h, ?_⟩)
  rcases hepoch with rfl | rfl | hdestination
  · exact mem_cons_self
  · exact mem_cons_of_mem _ mem_cons_self
  · rw [hdestination]
    exact mem_cons_of_mem _ (mem_cons_of_mem _ mem_cons_self)

/-- A transition that is carried over keeps its routes. -/
theorem ClusterControlSnapshot.TransitionKept.step
    (h : StepRecorded s next (next.recordHistoryFrom s)) (hs : s.RouteInv)
    (hepoch : next.clusterEpoch = s.clusterEpoch + 1)
    (hmem : transition ∈ next.placementTransitions)
    (hkept : s.TransitionKept transition) :
    (next.recordHistoryFrom s).TransitionKept transition := by
  have hroute (epoch : ClusterEpoch) (hat : epoch = transition.sourceEpoch ∨
      epoch = transition.transitionEpoch ∨ transition.destinationEpoch = some epoch)
      (hold : s.RouteKept (epoch, transition.pgId)) :=
    routeKept_step h hs hepoch (.inl (mem_historyProtection_transition hmem hat)) hold
  have hsource := hkept.routes _ (mem_append_left _ mem_cons_self)
  have hdestination (epoch : ClusterEpoch) (hsome : transition.destinationEpoch = some epoch) :=
    hkept.routes (epoch, transition.destinationActingSet)
      (mem_append_right _ (by rw [hsome]; exact mem_cons_self))
  refine ⟨?_, fun required hrequired => ?_, fun epoch route hsome hroutes => ?_⟩
  · rw [(hroute _ (.inl rfl) hsource.1).2]
    exact hkept.source
  · obtain ⟨hold, hacting⟩ := hkept.routes required hrequired
    have hat : required.1 = transition.sourceEpoch ∨ required.1 = transition.transitionEpoch ∨
        transition.destinationEpoch = some required.1 := by
      simp only [cons_append, nil_append, mem_cons, Option.mem_toList,
        Option.map_eq_some_iff] at hrequired
      rcases hrequired with rfl | rfl | ⟨epoch, hsome, rfl⟩
      · exact .inl rfl
      · exact .inr (.inl rfl)
      · exact .inr (.inr hsome)
    obtain ⟨hnew, hroutes⟩ := hroute _ hat hold
    exact ⟨hnew, by rw [hroutes]; exact hacting⟩
  · rw [(hroute epoch (.inr (.inr hsome)) (hdestination epoch hsome).1).2]
    exact hkept.destination epoch route hsome hroutes

end Step

/-- The committed time has not gone back, and the serving leases are bounded at the new one. -/
structure ClockAdvances (s next : ClusterControlSnapshot) : Prop where
  later : ∀ highWater, s.maxCommittedTimestampMs = some highWater →
    ∃ later, next.maxCommittedTimestampMs = some later ∧ highWater ≤ later
  leases : ∀ node ∈ values s.nodes, ∀ deadline, node.leaseDeadlineMs = some deadline →
    ∀ later, next.maxCommittedTimestampMs = some later →
    ¬s.leaseGrantHorizon.any (deadline ≤ ·.grantNotAfterMs) = true →
    validateServingDeadlineBound deadline later maxHeartbeatLeaseMs
      controlPlaneClockSkewBudgetMs = .ok ()

/-- One epoch has ended and nothing else has changed but PGs, transitions and the committed time;
the reports of the epoch that ended are dropped. -/
structure EndsEpoch (s next : ClusterControlSnapshot) : Prop where
  epoch : next.clusterEpoch = s.clusterEpoch + 1
  history : next.history = s.history
  topology : next.initialTopology = s.initialTopology
  horizon : next.leaseGrantHorizon = s.leaseGrantHorizon
  unavailable : next.unavailableNodeObservations = s.unavailableNodeObservations
  nodes : next.nodes = s.nodes.map fun _ node => { node with pgObservations := ∅ }
  clock : ClockAdvances s next
  pgs : ∀ pgId, next.pgs.contains pgId = s.pgs.contains pgId

section EndsEpoch

variable {s next : ClusterControlSnapshot}

variable (h : EndsEpoch s next)
include h

theorem EndsEpoch.stepRecorded : StepRecorded s next (next.recordHistoryFrom s) :=
  ⟨h.history, .inr h.epoch, .inl rfl⟩

/-- A node of the new epoch is one of the old, without its reports. -/
theorem EndsEpoch.node {node : NodeControlRecord} (hnode : node ∈ values next.nodes) :
    ∃ old ∈ values s.nodes, node = { old with pgObservations := ∅ } := by
  obtain ⟨nodeId, hget⟩ := mem_values.mp hnode
  rw [h.nodes, ExtTreeMap.getElem?_map] at hget
  obtain ⟨old, hold, rfl⟩ := Option.map_eq_some_iff.mp hget
  exact ⟨old, mem_values.mpr ⟨nodeId, hold⟩, rfl⟩

omit h in
theorem pg_prunedRecord {history : List ClusterMapHistoryRecord} {protection : List RouteKey}
    {floor : Nat} {record kept : ClusterMapHistoryRecord}
    (h : prunedRecord history protection floor record = some kept) {pgId : PgId}
    (hpg : record.pg pgId = none) : kept.pg pgId = none := by
  have hsub : ∀ pg ∈ kept.pgs, pg ∈ record.pgs := by
    simp only [prunedRecord] at h
    split at h
    · cases h
      exact fun pg hmem => hmem
    · split at h
      · cases h
        exact fun pg hmem => mem_of_mem_filter hmem
      · cases h
  rw [ClusterMapHistoryRecord.pg, find?_eq_none] at hpg ⊢
  exact fun pg hmem => hpg pg (hsub pg hmem)

/-- The PGs are the same, so the epoch that ends introduces none. -/
theorem EndsEpoch.introductions (horder : s.HistoryInOrder) (hold : Introductions s.history s.pgs) :
    Introductions (next.recordHistoryFrom s).history next.pgs := by
  have habsent : (ClusterMapHistoryRecord.deltaBetween s next).absentPgs = [] := by
    refine filter_eq_nil_iff.mpr fun pgId hpg => ?_
    rw [← h.pgs, ExtTreeMap.contains_iff_mem.mpr (ExtTreeMap.mem_keys.mp hpg)]
    exact Bool.false_ne_true
  have hpushed : Introductions (pushedHistory s next) next.pgs := by
    rcases h.stepRecorded.pushedHistory_eq horder with ⟨-, hsame, -⟩ | ⟨heq, -⟩
    · exact absurd (hsame.symm.trans h.epoch) (Nat.succ_ne_self _).symm
    · rw [heq]
      exact (hold.append habsent horder.below).congr h.pgs
  obtain ⟨-, -, hhistory⟩ := h.stepRecorded.history_eq horder
  rcases hhistory with hhistory | hhistory
  · exact hhistory ▸ hpushed
  · rw [hhistory, pruneUnreachable_eq]
    refine hpushed.filterMap fun record kept hkept => ?_
    obtain ⟨hepoch, -, habsent, -⟩ := prunedRecord_eq_some hkept
    exact ⟨hepoch, habsent, fun pgId hpg => pg_prunedRecord hkept hpg⟩

/-- **The retained history of the new snapshot is valid** when its transfer sources and its
transitions were retained before. -/
theorem EndsEpoch.historyValid (hs : s.RouteInv) (hold : s.HistoryValid)
    (hsources : ∀ pg ∈ values next.pgs, ∀ epoch,
      pg.peeringMetadataTransferSourceRouteEpoch = some epoch → epoch ≤ s.clusterEpoch →
      s.RouteKept (epoch, pg.pgId))
    (htransitions : ∀ transition ∈ next.placementTransitions,
      (next.recordHistoryFrom s).TransitionKept transition) :
    (next.recordHistoryFrom s).HistoryValid where
  introductions := h.introductions hs.order hold.introductions
  sources := fun pg hpg epoch hepoch hlt => by
    have hbelow : epoch < s.clusterEpoch + 1 := h.epoch ▸ hlt
    have hprotected : (epoch, pg.pgId) ∈ (next.recordHistoryFrom s).historyProtection := by
      refine mem_append_left _ (mem_append_left _ (mem_flatMap.mpr ⟨pg, hpg, ?_⟩))
      rw [hepoch]
      exact mem_append_left _ mem_cons_self
    have hkept := (routeKept_step h.stepRecorded hs h.epoch (.inl hprotected)
      (hsources pg hpg epoch hepoch (Nat.le_of_lt_succ hbelow))).1
    rcases hkept with heq | hretained
    · exact absurd heq hlt.ne
    · exact hretained.2
  references := fun node hnode reference hreference => by
    obtain ⟨old, hold', rfl⟩ := h.node hnode
    have hprotected : (reference.clusterEpoch, reference.pgId) ∈
        (next.recordHistoryFrom s).historyProtection := by
      refine mem_append_left _ (mem_append_right _ (mem_flatMap.mpr ⟨_, hnode, ?_⟩))
      exact mem_map_of_mem hreference
    obtain ⟨hkept, hsome⟩ := hold.references old hold' reference hreference
    obtain ⟨hnew, hroute⟩ := routeKept_step h.stepRecorded hs h.epoch (.inl hprotected) hkept
    exact ⟨hnew, hroute ▸ hsome⟩
  transitions := htransitions

/-! The checks of the current state read the epoch, the topology, the horizon, the committed time,
the nodes and the records themselves, and each is monotone in what the end of an epoch changes. -/

omit h in
theorem validateLeaseGrantHorizonInvariant_mono (h : ClockAdvances s next)
    (hhorizon : next.leaseGrantHorizon = s.leaseGrantHorizon)
    (hvalid : validateLeaseGrantHorizonInvariant s = .ok ()) :
    validateLeaseGrantHorizonInvariant next = .ok () := by
  simp only [validateLeaseGrantHorizonInvariant, hhorizon, onSome_eq_ok, bind_eq_ok, failIf_eq_ok,
    okOr_eq_ok, exists_const] at hvalid ⊢
  intro horizon hsome
  obtain ⟨hnonzero, highWater, hhigh, hbound⟩ := hvalid horizon hsome
  obtain ⟨later, hlater, hle⟩ := h.later highWater hhigh
  refine ⟨hnonzero, later, hlater, ?_⟩
  omega

theorem validateUnavailableNodeObservation_mono {nodeId : NodeId}
    {observation : NodeUnavailableObservation}
    (hvalid : validateUnavailableNodeObservation s nodeId observation = .ok ()) :
    validateUnavailableNodeObservation (next.recordHistoryFrom s) nodeId observation = .ok () := by
  have hnodes : (next.recordHistoryFrom s).nodes[nodeId]? =
      s.nodes[nodeId]?.map ({ · with pgObservations := ∅ }) := by
    change next.nodes[nodeId]? = _
    rw [h.nodes, ExtTreeMap.getElem?_map]
  simp only [validateUnavailableNodeObservation, hnodes, bind_eq_ok, failIf_eq_ok, okOr_eq_ok,
    exists_const] at hvalid ⊢
  obtain ⟨hkey, node, hnode, hprocess, hinterval, hlease⟩ := hvalid
  rw [hnode]
  exact ⟨hkey, _, rfl, hprocess, hinterval, hlease⟩

omit h in
theorem validateNodeRecord_mono {node : NodeControlRecord}
    {observations : BTreeMap PgId NodePgObservationRecord} (h : ClockAdvances s next)
    (hhorizon : next.leaseGrantHorizon = s.leaseGrantHorizon)
    (hle : s.clusterEpoch ≤ next.clusterEpoch)
    (hobservations : (values node.pgObservations).forM (validateNodePgObservation s node.nodeId) =
      .ok () → (values observations).forM (validateNodePgObservation next node.nodeId) = .ok ())
    (hnode : node ∈ values s.nodes) (hvalid : validateNodeRecord s node = .ok ()) :
    validateNodeRecord next { node with pgObservations := observations } = .ok () := by
  simp only [validateNodeRecord, hhorizon, check_bind_eq_ok, okOr_bind_eq_ok, failIf_eq_ok,
    onSome_eq_ok] at hvalid ⊢
  obtain ⟨hleft, hlease, hobserved, hreferences, hboth, hscan, hreported⟩ := hvalid
  refine ⟨hleft, fun deadline hdeadline => ?_, fun observed hsome => ?_,
    forM_eq_ok.mpr fun reference hreference => ?_, hboth, hscan, hobservations hreported⟩
  · obtain ⟨highWater, hhigh, -⟩ := hlease deadline hdeadline
    obtain ⟨later, hlater, -⟩ := h.later highWater hhigh
    refine ⟨later, hlater, ?_⟩
    split
    · rfl
    · next hcovers =>
      exact mapError_eq_ok.mpr (h.leases node hnode deadline hdeadline later hlater hcovers)
  · exact fun hlt => hobserved observed hsome (lt_of_le_of_lt hle hlt)
  · have hpast := failIf_eq_ok.mp (forM_eq_ok.mp hreferences reference hreference)
    exact failIf_of_not fun hlt => hpast (lt_of_le_of_lt hle hlt)

end EndsEpoch

section Mono

variable {s t : ClusterControlSnapshot} {transition : UnavailablePgPlacementTransition}
  {pgId : PgId} {pg : PgControlRecord}

variable (htopology : t.initialTopology = s.initialTopology)
  (hle : s.clusterEpoch ≤ t.clusterEpoch)
include htopology hle

theorem validateUnavailablePgTransitionInvariant_mono
    (h : validateUnavailablePgTransitionInvariant s transition = .ok ()) :
    validateUnavailablePgTransitionInvariant t transition = .ok () := by
  simp only [validateUnavailablePgTransitionInvariant, htopology, bind_eq_ok, okOr_eq_ok,
    failIf_eq_ok, exists_const, not_or, Option.any_eq_true, Bool.or_eq_true,
    decide_eq_true_eq] at h ⊢
  obtain ⟨topology, hsome, hcertified, next, hnext, horder, hrest⟩ := h
  obtain ⟨hsuccessor, hcurrent, hdestination, hboth⟩ := horder
  refine ⟨topology, hsome, hcertified, next, hnext, ⟨hsuccessor, ?_, ?_, hboth⟩, hrest⟩
  · exact fun hlt => hcurrent (lt_of_le_of_lt hle hlt)
  · rintro ⟨epoch, hepoch, hany⟩
    exact hdestination ⟨epoch, hepoch, hany.imp_right (lt_of_le_of_lt hle)⟩

omit htopology hle

theorem validateActingNodesFrom_mono
    (hnodes : ∀ nodeId, s.nodes.contains nodeId = true → t.nodes.contains nodeId = true)
    {nodes seen : List NodeId}
    (h : validateActingNodesFrom s pgId nodes seen = .ok ()) :
    validateActingNodesFrom t pgId nodes seen = .ok () := by
  induction nodes generalizing seen with
  | nil => rfl
  | cons nodeId rest ih =>
    simp only [validateActingNodesFrom, check_bind_eq_ok, failIf_eq_ok, not_not] at h ⊢
    obtain ⟨hfresh, hknown, hrest⟩ := h
    exact ⟨hfresh, hnodes nodeId hknown, ih hrest⟩

theorem validatePeeringPgState_mono {epoch epoch' : ClusterEpoch} (hle : epoch ≤ epoch')
    (h : validatePeeringPgState epoch pg = .ok ()) :
    validatePeeringPgState epoch' pg = .ok () := by
  have hany {floor : Option ClusterEpoch} (hfloor : ¬floor.any (epoch < ·) = true) :
      ¬floor.any (epoch' < ·) = true := by
    simp only [Option.any_eq_true, decide_eq_true_eq] at hfloor ⊢
    rintro ⟨floorEpoch, hsome, hlt⟩
    exact hfloor ⟨floorEpoch, hsome, lt_of_le_of_lt hle hlt⟩
  simp only [validatePeeringPgState, validatePeeringMetadataProofState, check_bind_eq_ok,
    failIf_eq_ok] at h ⊢
  obtain ⟨hactive, ⟨hfloor, himported, hepoch, hproof⟩, hfenced, hsource, hnone, hprovenance,
    hdeadline, hfence, hfuture⟩ := h
  exact ⟨hactive, ⟨hfloor, himported, hany hepoch, hproof⟩, hfenced, hsource, hnone, hprovenance,
    hdeadline, hfence, hany hfuture⟩

include htopology hle

/-- A well-formed PG record stays well formed at later epochs. -/
theorem validatePgRecord_mono
    (hnodes : ∀ nodeId, s.nodes.contains nodeId = true → t.nodes.contains nodeId = true)
    (h : validatePgRecord s pg = .ok ()) : validatePgRecord t pg = .ok () := by
  simp only [validatePgRecord, htopology, check_bind_eq_ok, failIf_eq_ok, onSome_eq_ok,
    not_not] at h ⊢
  obtain ⟨hnonempty, hpolicy, hacting, hprevious, hstate⟩ := h
  refine ⟨hnonempty, hpolicy, validateActingNodesFrom_mono hnodes hacting,
    fun previous hsome => ?_, ?_⟩
  · obtain ⟨hincarnation, hknown⟩ := hprevious previous hsome
    exact ⟨hincarnation, hnodes _ hknown⟩
  · cases hpg : pg.state with
    | peering =>
      rw [hpg] at hstate
      exact validatePeeringPgState_mono hle hstate
    | _ =>
      rw [hpg] at hstate
      exact hstate

/-- An active transition stays one while its PG keeps its state and its acting set. -/
theorem validateActiveTransition_mono
    (hpg : t.pgs[pgId]?.map (fun pg => (pg.state, pg.actingSet)) =
      s.pgs[pgId]?.map fun pg => (pg.state, pg.actingSet))
    (h : validateActiveTransition s pgId transition = .ok ()) :
    validateActiveTransition t pgId transition = .ok () := by
  simp only [validateActiveTransition, check_bind_eq_ok, okOr_bind_eq_ok, failIf_eq_ok,
    not_not] at h ⊢
  obtain ⟨hkey, hreadiness, hinvariant, pg, hsome, hplaced⟩ := h
  rw [hsome, Option.map_some, Option.map_eq_some_iff] at hpg
  obtain ⟨pg', hsome', hsame⟩ := hpg
  obtain ⟨hstate, hacting⟩ := Prod.mk.inj hsame
  refine ⟨hkey, hreadiness, validateUnavailablePgTransitionInvariant_mono htopology hle hinvariant,
    pg', hsome', ?_⟩
  rw [hstate, hacting]
  cases hepoch : transition.destinationEpoch with
  | none =>
    rw [hepoch] at hplaced
    exact hplaced
  | some epoch =>
    rw [hepoch] at hplaced
    simp only [Bool.and_eq_true, decide_eq_true_eq] at hplaced ⊢
    obtain ⟨⟨⟨hlater, hcurrent⟩, hpeering⟩, hset⟩ := hplaced
    exact ⟨⟨⟨hlater, hcurrent.trans hle⟩, hpeering⟩, hset⟩

end Mono

/-- What the check of the current state says, part by part. -/
structure CurrentStateValid (s : ClusterControlSnapshot) : Prop where
  topology : ∀ certificate, s.initialTopology = some certificate →
    certificate.validate = .ok () ∧ ¬(s.nodes.isEmpty = true ∨ s.pgs.isEmpty = true)
  horizon : validateLeaseGrantHorizonInvariant s = .ok ()
  unavailable : ∀ nodeId observation, s.unavailableNodeObservations[nodeId]? = some observation →
    validateUnavailableNodeObservation s nodeId observation = .ok ()
  retained : ∀ key transition,
    s.retainedUnavailablePgPlacementTransitions[key]? = some transition →
    key = (transition.pgId, transition.transitionEpoch) ∧
      validateUnavailablePgTransitionInvariant s transition = .ok ()
  active : ∀ pgId transition, s.unavailablePgPlacementTransitions[pgId]? = some transition →
    validateActiveTransition s pgId transition = .ok ()
  lineages : validateUnavailablePgTransitionLineages s = .ok ()
  pgs : ∀ pg ∈ values s.pgs, validatePgRecord s pg = .ok ()
  nodes : ∀ node ∈ values s.nodes, validateNodeRecord s node = .ok ()

theorem validateCurrentStateInvariants_eq_ok {s : ClusterControlSnapshot} :
    validateCurrentStateInvariants s = .ok () ↔ CurrentStateValid s := by
  simp only [validateCurrentStateInvariants, check_bind_eq_ok, onSome_eq_ok, failIf_eq_ok,
    forM_eq_ok, Prod.forall, ExtTreeMap.mem_toList_iff_getElem?_eq_some, not_not, ne_eq]
  constructor
  · rintro ⟨htopology, hhorizon, hunavailable, hretained, hactive, hlineages, hpgs, hnodes⟩
    exact ⟨htopology, hhorizon, hunavailable, fun key => hretained key.1 key.2, hactive, hlineages,
      hpgs, hnodes⟩
  · intro h
    exact ⟨h.topology, h.horizon, h.unavailable, fun pgId epoch => h.retained (pgId, epoch),
      h.active, h.lineages, h.pgs, h.nodes⟩

/-- **The check of a snapshot**, for a history in order. -/
theorem validatePublicationInvariants_eq_ok {s : ClusterControlSnapshot}
    (horder : s.HistoryInOrder) :
    validatePublicationInvariants s = .ok () ↔ s.HistoryValid ∧ CurrentStateValid s := by
  rw [validatePublicationInvariants, check_bind_eq_ok, mapError_eq_ok,
    validateRequiredClusterMapHistory_eq_ok horder, validateCurrentStateInvariants_eq_ok]

section EndsEpoch

variable {s next : ClusterControlSnapshot}

theorem isEmpty_of_contains {α β γ : Type} {cmp : α → α → Ordering} [Std.TransCmp cmp]
    {a : ExtTreeMap α β cmp} {b : ExtTreeMap α γ cmp} (h : ∀ k, a.contains k = b.contains k) :
    a.isEmpty = b.isEmpty := by
  rw [Bool.eq_iff_iff, ExtTreeMap.isEmpty_iff, ExtTreeMap.isEmpty_iff,
    ExtTreeMap.eq_empty_iff_forall_contains, ExtTreeMap.eq_empty_iff_forall_contains]
  exact forall_congr' fun k => by rw [h k]

/-- **The new snapshot is published** when its history shows what its PGs and transitions need,
and its PG records and transitions are well formed. -/
theorem valid_of_endsEpoch (h : EndsEpoch s next) (hs : s.RouteInv)
    (hvalid : validatePublicationInvariants s = .ok ())
    (hhistory : (next.recordHistoryFrom s).HistoryValid)
    (hretained : ∀ key transition,
      next.retainedUnavailablePgPlacementTransitions[key]? = some transition →
      key = (transition.pgId, transition.transitionEpoch) ∧
        validateUnavailablePgTransitionInvariant (next.recordHistoryFrom s) transition = .ok ())
    (hactive : ∀ pgId transition,
      next.unavailablePgPlacementTransitions[pgId]? = some transition →
      validateActiveTransition (next.recordHistoryFrom s) pgId transition = .ok ())
    (hlineages : validateUnavailablePgTransitionLineages (next.recordHistoryFrom s) = .ok ())
    (hpgs : ∀ pg ∈ values next.pgs, validatePgRecord (next.recordHistoryFrom s) pg = .ok ()) :
    validatePublicationInvariants (next.recordHistoryFrom s) = .ok () := by
  obtain ⟨-, hold⟩ := (validatePublicationInvariants_eq_ok hs.order).mp hvalid
  have horder := h.stepRecorded.inOrder hs.order
  refine (validatePublicationInvariants_eq_ok horder).mpr ⟨hhistory, ?_⟩
  have hhorizon : validateLeaseGrantHorizonInvariant next = .ok () :=
    validateLeaseGrantHorizonInvariant_mono h.clock h.horizon hold.horizon
  refine ⟨fun certificate hsome => ?_, hhorizon, fun nodeId observation hsome => ?_, hretained,
    hactive, hlineages, hpgs, fun node hnode => ?_⟩
  · obtain ⟨hcertificate, hnonempty⟩ := hold.topology certificate (h.topology ▸ hsome)
    have hnodes : next.nodes.isEmpty = s.nodes.isEmpty := isEmpty_of_contains fun nodeId => by
      rw [h.nodes, ExtTreeMap.contains_map]
    have hpgsEmpty : next.pgs.isEmpty = s.pgs.isEmpty := isEmpty_of_contains h.pgs
    refine ⟨hcertificate, ?_⟩
    change ¬(next.nodes.isEmpty = true ∨ next.pgs.isEmpty = true)
    rw [hnodes, hpgsEmpty]
    exact hnonempty
  · exact validateUnavailableNodeObservation_mono h
      (hold.unavailable nodeId observation (h.unavailable ▸ hsome))
  · obtain ⟨old, hmem, rfl⟩ := h.node hnode
    have hrecord : validateNodeRecord next { old with pgObservations := ∅ } = .ok () :=
      validateNodeRecord_mono h.clock h.horizon (h.epoch ▸ Nat.le_succ _) (fun _ => rfl) hmem
        (hold.nodes old hmem)
    exact hrecord

end EndsEpoch

/-! ### The committed time -/

section Clock

variable {s t u : ClusterControlSnapshot} {nowMs : Nat}

theorem later_of_recordCommittedTimestamp
    (hmax : t.maxCommittedTimestampMs = (s.recordCommittedTimestamp nowMs).maxCommittedTimestampMs)
    {highWater : Nat} (hhigh : s.maxCommittedTimestampMs = some highWater) :
    ∃ later, t.maxCommittedTimestampMs = some later ∧ highWater ≤ later := by
  rw [hmax, recordCommittedTimestamp, hhigh]
  exact ⟨_, rfl, le_max_left ..⟩

/-- A time that is not behind the high-water mark may be committed while a lease from it fits. -/
theorem clockAdvances_of_room (hs : CurrentStateValid s)
    (hmax : t.maxCommittedTimestampMs = (s.recordCommittedTimestamp nowMs).maxCommittedTimestampMs)
    (hnow : ∀ highWater, s.maxCommittedTimestampMs = some highWater → highWater ≤ nowMs)
    (hroom : nowMs + maxHeartbeatLeaseMs + controlPlaneClockSkewBudgetMs < 2 ^ 64) :
    ClockAdvances s t := by
  refine ⟨fun highWater hhigh => later_of_recordCommittedTimestamp hmax hhigh,
    fun node hnode deadline hdeadline later hlater hcovers => ?_⟩
  have hvalid := hs.nodes node hnode
  simp only [validateNodeRecord, check_bind_eq_ok, okOr_bind_eq_ok, onSome_eq_ok] at hvalid
  obtain ⟨highWater, hhigh, hbound⟩ := hvalid.2.1 deadline hdeadline
  rw [if_neg hcovers, mapError_eq_ok] at hbound
  have hle := hnow highWater hhigh
  have heq : later = nowMs := by
    rw [hmax, recordCommittedTimestamp, hhigh] at hlater
    exact (Option.some.inj hlater).symm.trans (max_eq_right hle)
  rw [heq]
  simp only [validateServingDeadlineBound, bind_eq_ok, okOr_eq_ok, Option.bind_eq_some_iff,
    checkedAdd_eq_some, failIf_eq_ok] at hbound ⊢
  obtain ⟨maximum, ⟨sum, ⟨rfl, -⟩, rfl, -⟩, hdeadlineBound⟩ := hbound
  exact ⟨_, ⟨_, ⟨rfl, by omega⟩, rfl, hroom⟩, by omega⟩

/-- A time that one snapshot with the same leases has committed may be committed by another. -/
theorem clockAdvances_of_valid (hu : CurrentStateValid u)
    (hnodes : u.nodes = s.nodes.map fun _ node => { node with pgObservations := ∅ })
    (hhorizon : u.leaseGrantHorizon = s.leaseGrantHorizon)
    (hsame : t.maxCommittedTimestampMs = u.maxCommittedTimestampMs)
    (hmax : t.maxCommittedTimestampMs =
      (s.recordCommittedTimestamp nowMs).maxCommittedTimestampMs) : ClockAdvances s t := by
  refine ⟨fun highWater hhigh => later_of_recordCommittedTimestamp hmax hhigh,
    fun node hnode deadline hdeadline later hlater hcovers => ?_⟩
  obtain ⟨nodeId, hget⟩ := mem_values.mp hnode
  have hmem : ({ node with pgObservations := ∅ } : NodeControlRecord) ∈ values u.nodes := by
    refine mem_values.mpr ⟨nodeId, ?_⟩
    rw [hnodes, ExtTreeMap.getElem?_map, hget]
    rfl
  have hvalid := hu.nodes _ hmem
  simp only [validateNodeRecord, check_bind_eq_ok, okOr_bind_eq_ok, onSome_eq_ok] at hvalid
  obtain ⟨highWater, hhigh, hbound⟩ := hvalid.2.1 deadline hdeadline
  rw [hhorizon, if_neg hcovers, mapError_eq_ok] at hbound
  have heq : highWater = later := by
    rw [← hsame, hlater] at hhigh
    exact (Option.some.inj hhigh).symm
  exact heq ▸ hbound

/-- **Recording a time** keeps a snapshot well formed. -/
theorem valid_of_recordCommittedTimestamp (horder : s.HistoryInOrder)
    (h : ClockAdvances s (s.recordCommittedTimestamp nowMs))
    (hvalid : validatePublicationInvariants s = .ok ()) :
    validatePublicationInvariants (s.recordCommittedTimestamp nowMs) = .ok () := by
  obtain ⟨hhistory, hs⟩ := (validatePublicationInvariants_eq_ok horder).mp hvalid
  have horder' : (s.recordCommittedTimestamp nowMs).HistoryInOrder := ⟨horder.sorted, horder.below⟩
  refine (validatePublicationInvariants_eq_ok horder').mpr ⟨?_, ?_⟩
  · refine ⟨hhistory.introductions, hhistory.sources, hhistory.references,
      fun transition htransition => ?_⟩
    obtain ⟨hsource, hroutes, hdestination⟩ := hhistory.transitions transition htransition
    exact ⟨hsource, hroutes, hdestination⟩
  · refine ⟨hs.topology, validateLeaseGrantHorizonInvariant_mono h rfl hs.horizon, hs.unavailable,
      hs.retained, hs.active, hs.lineages, fun pg hpg => ?_, fun node hnode => ?_⟩
    · refine validatePgRecord_mono ?_ ?_ ?_ (hs.pgs pg hpg)
      · rfl
      · exact le_rfl
      · exact fun _ hknown => hknown
    · exact validateNodeRecord_mono h rfl le_rfl id hnode (hs.nodes node hnode)

end Clock

end Argmin.ControlPlane
