import Argmin.ControlPlane.HistoryRoutes
import Argmin.Lib.Worklist

/-!
# Pruning twice

A changed command prunes the history, also when the history itself has not grown.  This file says
that nothing is lost then: pruning a pruned history under the same protection leaves it as it is
(`pruneClusterMapHistory_idem`).

The routes that pruning keeps are those a worklist reaches from the protected keys.  A route that is
reached is kept, so the chain that leads to it is still there in the pruned history, and the
worklist finds it again (`mem_reachableRoutes_prune`).
-/

namespace Argmin.ControlPlane

open Fallible TreeMap SparseLog Worklist ClusterMapHistoryRecord List Option

variable {record : ClusterMapHistoryRecord} {key route : RouteKey}

section Prune

variable {history : List ClusterMapHistoryRecord} {protection : List RouteKey} {floor : Nat}

/-- The route that a recorded route was transferred from, as recorded. -/
def dependency (history : List ClusterMapHistoryRecord) (route : RouteKey) : Option RouteKey :=
  (transferSource history route).bind (resolveClusterMapHistoryRouteKey history)

/-- The keys that the worklist starts from, before they are resolved. -/
def rootKeys (history : List ClusterMapHistoryRecord) (protection : List RouteKey)
    (floor : Nat) : List RouteKey :=
  protection ++ (history.filter (floor ≤ ·.clusterEpoch)).flatMap fun record =>
    record.pgs.map fun pg => (record.clusterEpoch, pg.pgId)

/-- The recorded routes. -/
def recordedRoutes (history : List ClusterMapHistoryRecord) : List RouteKey :=
  history.flatMap fun record => record.pgs.map fun pg => (record.clusterEpoch, pg.pgId)

theorem routeClosureFrom_eq (fuel : Nat) (reachable pending : List RouteKey) :
    routeClosureFrom history fuel reachable pending =
      closureFrom (dependency history) fuel reachable pending := by
  induction fuel generalizing reachable pending with
  | zero => rfl
  | succ fuel ih =>
    cases pending with
    | nil => rfl
    | cons route pending =>
      unfold routeClosureFrom closureFrom
      simp only [ih]
      rw [show (transferSource history route).bind (resolveClusterMapHistoryRouteKey history) =
        dependency history route from rfl]
      cases dependency history route with
      | none => rfl
      | some source =>
        by_cases hmem : source ∈ reachable
        · simp only [if_pos hmem]
        · simp only [if_neg hmem]

theorem length_recordedRoutes :
    (recordedRoutes history).length = (history.flatMap (·.pgs)).length := by
  induction history with
  | nil => rfl
  | cons record rest ih =>
    rw [flatMap_cons, length_append, ← ih]
    show (_ ++ recordedRoutes rest).length = _
    rw [length_append, length_map]

/-! ### Resolving a key -/

/-- What one entry says about where a PG's route is recorded. -/
def ClusterMapHistoryRecord.resolves (pgId : PgId) (record : ClusterMapHistoryRecord) :
    Option (Option RouteKey) :=
  if pgId ∈ record.absentPgs then some none
  else if (record.pg pgId).isSome then some (some (record.clusterEpoch, pgId))
  else none

theorem resolves_eq (pgId : PgId) : record.resolves pgId =
      (record.mention pgId).map (Option.map fun _ => (record.clusterEpoch, pgId)) := by
  unfold resolves mention
  by_cases habsent : pgId ∈ record.absentPgs
  · rw [if_pos habsent, if_pos habsent]
    rfl
  · rw [if_neg habsent, if_neg habsent]
    cases record.pg pgId with
    | none => rfl
    | some route => rfl

theorem resolve_eq_some :
    resolveClusterMapHistoryRouteKey history key = some route ↔
      firstFrom (·.clusterEpoch) (·.resolves key.2) history key.1 = some (some route) :=
  join_eq_some_iff

/-- A resolved key names the entry that records its route. -/
theorem firstEntry_of_resolve (h : resolveClusterMapHistoryRouteKey history key = some route)
    (hfirst : firstEntry (·.clusterEpoch) (·.resolves key.2) history key.1 = some record) :
    (∃ pg, record.pg key.2 = some pg) ∧ route = (record.clusterEpoch, key.2) := by
  have hresolves := (firstFrom_of_firstEntry (fun _ => rfl) hfirst).symm.trans
    (resolve_eq_some.mp h)
  unfold resolves at hresolves
  split at hresolves
  · cases hresolves
  · split at hresolves
    · next hpg =>
      cases hresolves
      exact ⟨isSome_iff_exists.mp hpg, rfl⟩
    · cases hresolves

/-- A key resolves to a recorded route. -/
theorem mem_recordedRoutes_of_resolve
    (h : resolveClusterMapHistoryRouteKey history key = some route) :
    route ∈ recordedRoutes history := by
  cases hfirst : firstEntry (·.clusterEpoch) (·.resolves key.2) history key.1 with
  | none =>
    have hnone := firstFrom_of_firstEntry_none hfirst
    rw [resolve_eq_some.mp h] at hnone
    cases hnone
  | some record =>
    obtain ⟨⟨pg, hpg⟩, rfl⟩ := firstEntry_of_resolve h hfirst
    have hmem : pg ∈ record.pgs := mem_of_find?_eq_some hpg
    have hpgId : pg.pgId = key.2 := by simpa using find?_some hpg
    refine mem_flatMap.mpr ⟨record, (mem_of_firstEntry hfirst).1, ?_⟩
    exact mem_map.mpr ⟨pg, hmem, Prod.ext rfl hpgId⟩

/-! ### The worklist reaches the kept routes -/

theorem mem_reachableRoutes_iff :
    route ∈ reachableRoutes history protection floor ↔
      Reach (dependency history) ((rootKeys history protection floor).filterMap
        (resolveClusterMapHistoryRouteKey history)).eraseDups route := by
  show route ∈ routeClosureFrom history _ _ _ ↔ _
  rw [routeClosureFrom_eq]
  constructor
  · exact reach_of_mem_closureFrom (fun _ h => .root h) fun _ h => .root h
  · intro h
    refine mem_closureFrom_of_reach (recordedRoutes history) ?_ ?_ h
    · intro a b hb
      obtain ⟨key, -, hkey⟩ := bind_eq_some_iff.mp hb
      exact mem_recordedRoutes_of_resolve hkey
    · rw [length_recordedRoutes]

/-! ### The pruned history -/

/-- An entry keeps the routes that are reached. -/
theorem prunedRecord_of_reached {pgId : PgId}
    {route : HistoricalPgRouteRecord} (hroute : record.pg pgId = some route)
    (hreached : (record.clusterEpoch, pgId) ∈ reachableRoutes history protection floor) :
    ∃ kept, prunedRecord history protection floor record = some kept ∧
      kept.clusterEpoch = record.clusterEpoch ∧ kept.absentPgs = record.absentPgs ∧
      kept.pg pgId = some route := by
  unfold prunedRecord
  by_cases hfloor : floor ≤ record.clusterEpoch
  · exact ⟨record, if_pos hfloor, rfl, rfl, hroute⟩
  · have hkept : (record.pgs.filter fun pg =>
        decide ((record.clusterEpoch, pg.pgId) ∈ reachableRoutes history protection floor)).find?
          (·.pgId == pgId) = some route := by
      rw [find?_filter_pg _ fun pgId =>
        decide ((record.clusterEpoch, pgId) ∈ reachableRoutes history protection floor)]
      rw [if_pos (decide_eq_true hreached)]
      exact hroute
    simp only [if_neg hfloor]
    rw [if_pos (.inl (ne_nil_of_mem (mem_of_find?_eq_some hkept)))]
    exact ⟨_, rfl, rfl, rfl, hkept⟩

/-- A key that resolves to a reached route resolves to it in the pruned history. -/
theorem resolve_prune (h : resolveClusterMapHistoryRouteKey history key = some route)
    (hreached : route ∈ reachableRoutes history protection floor) :
    resolveClusterMapHistoryRouteKey (pruneUnreachableOldHistoryRoutes history protection floor)
      key = some route := by
  rw [resolve_eq_some, pruneUnreachable_eq, firstFrom_filterMap, ← resolve_eq_some]
  · exact h
  · intro record kept hkept
    obtain ⟨hepoch, -, -, hmention⟩ := prunedRecord_eq_some hkept
    refine ⟨hepoch, ?_⟩
    rw [resolves_eq, resolves_eq, hepoch]
    rcases hmention key.2 with hsame | hnone
    · exact .inl (by rw [hsame])
    · exact .inr (by rw [hnone]; rfl)
  · intro record hfirst
    obtain ⟨⟨pg, hpg⟩, rfl⟩ := firstEntry_of_resolve h hfirst
    obtain ⟨kept, hkept, hepoch, habsents, hkeptPg⟩ := prunedRecord_of_reached hpg hreached
    refine ⟨kept, hkept, ?_⟩
    unfold resolves
    rw [habsents, hkeptPg, hpg, hepoch]

/-- The transfers that an entry records, with the key of the route they led to. -/
def ClusterMapHistoryRecord.transfers (record : ClusterMapHistoryRecord) :
    List (RouteKey × RouteKey) :=
  record.pgs.filterMap fun pg => pg.peeringMetadataTransferSourceRouteEpoch.map fun sourceEpoch =>
    ((record.clusterEpoch, pg.pgId), (sourceEpoch, pg.pgId))

theorem transferSource_eq : transferSource history key =
      (((history.flatMap (·.transfers)).filter (·.1 == key)).reverse.head?).map (·.2) := by
  rw [← filter_reverse, head?_filter]
  rfl

/-- Of the transfers to a reached route an entry keeps every one. -/
theorem filter_transfers_prunedRecord (record : ClusterMapHistoryRecord)
    (hreached : key ∈ reachableRoutes history protection floor) :
    (((prunedRecord history protection floor record).toList.flatMap
      (·.transfers)).filter (·.1 == key)) = record.transfers.filter (·.1 == key) := by
  have hpgs : ∀ pgs : List HistoricalPgRouteRecord,
      (({ record with pgs := pgs.filter fun pg => decide ((record.clusterEpoch, pg.pgId) ∈
        reachableRoutes history protection floor) } : ClusterMapHistoryRecord).transfers.filter
          (·.1 == key)) =
        ({ record with pgs := pgs } : ClusterMapHistoryRecord).transfers.filter (·.1 == key) := by
    intro pgs
    unfold ClusterMapHistoryRecord.transfers
    rw [filter_filterMap, filter_filterMap, filterMap_filter]
    refine filterMap_congr fun pg _ => ?_
    by_cases hpg : (record.clusterEpoch, pg.pgId) ∈ reachableRoutes history protection floor
    · simp only [decide_eq_true hpg, if_pos]
    · have hne : (record.clusterEpoch, pg.pgId) ≠ key := fun heq => hpg (heq ▸ hreached)
      cases pg.peeringMetadataTransferSourceRouteEpoch with
      | none => simp
      | some sourceEpoch =>
        rw [if_neg (by simpa using hpg), map_some, filter_some,
          if_neg (by simpa using hne)]
  have hself := hpgs record.pgs
  unfold prunedRecord
  by_cases hfloor : floor ≤ record.clusterEpoch
  · simp only [if_pos hfloor, toList_some, flatMap_cons, flatMap_nil,
      append_nil]
  · simp only [if_neg hfloor]
    split
    · rw [toList_some, flatMap_cons, flatMap_nil, append_nil]
      exact hself
    · next hdropped =>
      -- no route of the entry is reached
      rw [not_or, not_not] at hdropped
      rw [hdropped.1] at hself
      exact hself

theorem transferSource_prune (hreached : key ∈ reachableRoutes history protection floor) :
    transferSource (pruneUnreachableOldHistoryRoutes history protection floor) key =
      transferSource history key := by
  have hfilter : ∀ records : List ClusterMapHistoryRecord,
      (((records.filterMap (prunedRecord history protection floor)).flatMap
        (·.transfers)).filter (·.1 == key)) =
        (records.flatMap (·.transfers)).filter (·.1 == key) := by
    intro records
    induction records with
    | nil => rfl
    | cons record rest ih =>
      have hhead := filter_transfers_prunedRecord record hreached
      rw [flatMap_cons, filter_append, ← hhead, ← ih]
      cases hkept : prunedRecord history protection floor record with
      | none =>
        rw [filterMap_cons_none hkept]
        rfl
      | some kept =>
        rw [filterMap_cons_some hkept, flatMap_cons, filter_append, toList_some,
          flatMap_cons, flatMap_nil, append_nil]
  rw [transferSource_eq, transferSource_eq, pruneUnreachable_eq, hfilter]

theorem rootKeys_prune (h : key ∈ rootKeys history protection floor) :
    key ∈
      rootKeys (pruneUnreachableOldHistoryRoutes history protection floor) protection floor := by
  rcases mem_append.mp h with h | h
  · exact mem_append_left _ h
  · obtain ⟨record, hrecord, hkey⟩ := mem_flatMap.mp h
    obtain ⟨hmem, hfloor⟩ := mem_filter.mp hrecord
    refine mem_append_right _ (mem_flatMap.mpr ⟨record, mem_filter.mpr ⟨?_, hfloor⟩,
      hkey⟩)
    exact mem_filterMap.mpr ⟨record, hmem, if_pos (of_decide_eq_true hfloor)⟩

/-- **A route that the worklist reaches is reached again in the pruned history.** -/
theorem mem_reachableRoutes_prune (h : route ∈ reachableRoutes history protection floor) :
    route ∈ reachableRoutes (pruneUnreachableOldHistoryRoutes history protection floor) protection
      floor := by
  have hreach := mem_reachableRoutes_iff.mp h
  rw [mem_reachableRoutes_iff]
  induction hreach with
  | root hroot =>
    obtain ⟨key, hkey, hresolve⟩ := mem_filterMap.mp (mem_eraseDups.mp hroot)
    refine .root (mem_eraseDups.mpr (mem_filterMap.mpr ⟨key, rootKeys_prune hkey, ?_⟩))
    exact resolve_prune hresolve h
  | step hfrom hdependency ih =>
    have hfrom' := mem_reachableRoutes_iff.mpr hfrom
    obtain ⟨key, hsource, hresolve⟩ := bind_eq_some_iff.mp hdependency
    refine .step (ih hfrom') (bind_eq_some_iff.mpr ⟨key, ?_, resolve_prune hresolve h⟩)
    rw [transferSource_prune hfrom', hsource]

theorem protectedHistoryAbsenceEpochs_prune {epoch : ClusterEpoch}
    (h : epoch ∈ protectedHistoryAbsenceEpochs history protection) :
    epoch ∈ protectedHistoryAbsenceEpochs
      (pruneUnreachableOldHistoryRoutes history protection floor) protection := by
  have hepoch := h
  unfold protectedHistoryAbsenceEpochs at h ⊢
  split at h
  · cases h
  · obtain ⟨record, hrecord, rfl⟩ := mem_map.mp h
    obtain ⟨hmem, habsent⟩ := mem_filter.mp hrecord
    obtain ⟨kept, hkept⟩ : ∃ kept, prunedRecord history protection floor record = some kept := by
      unfold prunedRecord
      by_cases hfloor : floor ≤ record.clusterEpoch
      · exact ⟨record, if_pos hfloor⟩
      · simp only [if_neg hfloor]
        exact ⟨_, if_pos (.inr (mem_append_right _ hepoch))⟩
    obtain ⟨hsame, -, habsents, -⟩ := prunedRecord_eq_some hkept
    refine mem_map.mpr ⟨kept, mem_filter.mpr ⟨?_, ?_⟩, hsame⟩
    · exact mem_filterMap.mpr ⟨record, hmem, hkept⟩
    · rw [hsame, habsents]
      exact habsent

/-- An entry of the pruned history is left as it is. -/
theorem prunedRecord_prune
    (h : record ∈ pruneUnreachableOldHistoryRoutes history protection floor) :
    prunedRecord (pruneUnreachableOldHistoryRoutes history protection floor) protection floor
      record = some record := by
  obtain ⟨old, -, hkept⟩ := mem_filterMap.mp h
  change prunedRecord history protection floor old = some record at hkept
  by_cases hfloor : floor ≤ record.clusterEpoch
  · exact if_pos hfloor
  · have hold : ¬floor ≤ old.clusterEpoch := (prunedRecord_eq_some hkept).1 ▸ hfloor
    unfold prunedRecord at hkept
    simp only [if_neg hold] at hkept
    split at hkept
    · next hcondition =>
      cases hkept
      unfold prunedRecord
      simp only [if_neg hfloor]
      -- every route that was kept is reached again
      have hagain : (old.pgs.filter fun pg => decide ((old.clusterEpoch, pg.pgId) ∈
          reachableRoutes history protection floor)).filter (fun pg =>
            decide ((old.clusterEpoch, pg.pgId) ∈ reachableRoutes
              (pruneUnreachableOldHistoryRoutes history protection floor) protection floor)) =
          old.pgs.filter fun pg => decide ((old.clusterEpoch, pg.pgId) ∈
            reachableRoutes history protection floor) := by
        refine filter_eq_self.mpr fun pg hpg => decide_eq_true ?_
        exact mem_reachableRoutes_prune (of_decide_eq_true (mem_filter.mp hpg).2)
      rw [hagain, if_pos]
      refine hcondition.imp_right fun hepoch => ?_
      rcases mem_append.mp hepoch with hepoch | hepoch
      · exact mem_append_left _ hepoch
      · exact mem_append_right _ (protectedHistoryAbsenceEpochs_prune hepoch)
    · cases hkept

theorem pruneUnreachableOldHistoryRoutes_idem :
    pruneUnreachableOldHistoryRoutes
        (pruneUnreachableOldHistoryRoutes history protection floor) protection floor =
      pruneUnreachableOldHistoryRoutes history protection floor := by
  exact (filterMap_congr fun record hrecord => prunedRecord_prune hrecord).trans
    filterMap_some

end Prune

/-- **Pruning a pruned history changes nothing.** -/
theorem pruneClusterMapHistory_idem (history : List ClusterMapHistoryRecord)
    (protection : List RouteKey) (epoch : ClusterEpoch) :
    pruneClusterMapHistory (pruneClusterMapHistory history protection epoch) protection epoch =
      pruneClusterMapHistory history protection epoch := by
  have hsorted : (pruneClusterMapHistory history protection epoch).Pairwise
      fun a b => a.clusterEpoch ≤ b.clusterEpoch := by
    have hbefore := pairwise_insertionSort
      (fun a b : ClusterMapHistoryRecord => a.clusterEpoch ≤ b.clusterEpoch) history
    rw [pruneClusterMapHistory, pruneUnreachable_eq]
    refine hbefore.filterMap _ fun a b hle a' ha' b' hb' => ?_
    rw [(prunedRecord_eq_some ha').1, (prunedRecord_eq_some hb').1]
    exact hle
  conv_lhs => rw [pruneClusterMapHistory, hsorted.insertionSort_eq]
  exact pruneUnreachableOldHistoryRoutes_idem

end Argmin.ControlPlane
