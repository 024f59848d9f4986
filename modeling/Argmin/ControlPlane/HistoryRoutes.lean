import Mathlib.Tactic.IntervalCases
import Argmin.ControlPlane.EpochMap
import Argmin.Lib.SparseLog

/-!
# Reconstructing earlier routes

The history of a snapshot is a sparse log: the entry of an epoch holds the routes that changed when
the epoch ended, and pruning drops entries and single routes again.  This file follows one route
(an epoch and a PG) along a run.

* `route_push` — recording the end of an epoch keeps the routes of all earlier epochs and adds that
  of the epoch itself;
* `historyLookup_prune` — pruning keeps the route of a key that is protected or lies in the ordinary
  window;
* `protected_route_reconstructed` — a route that has been protected since its epoch is reconstructed
  exactly;
* `kept_route_exact` — what is reconstructed for a key that has been kept is the route of that
  epoch; `unprotected_route_confused` — for other keys it may be the route of a different epoch.
-/

namespace Argmin.ControlPlane

open Fallible TreeMap SparseLog HistoricalPgRouteRecord ClusterMapHistoryRecord List
  ClusterControlSnapshot
open Std (ExtTreeMap)

variable {event : ControlPlaneEvent} {nodes : List NodeId} {bound bound' : Nat}

/-! ### Entries -/

/-- What an entry says about a PG: its route, that it was absent, or nothing. -/
def ClusterMapHistoryRecord.mention (record : ClusterMapHistoryRecord) (pgId : PgId) :
    Option (Option HistoricalPgRouteRecord) :=
  if pgId ∈ record.absentPgs then some none else (record.pg pgId).map some

/-- The nodes of an epoch, when the entry is that of the epoch. -/
def ClusterMapHistoryRecord.nodesAt (epoch : ClusterEpoch) (record : ClusterMapHistoryRecord) :
    Option (List NodeId) :=
  if record.clusterEpoch = epoch then some record.nodes else none

theorem historyLookup_eq (history : List ClusterMapHistoryRecord) (pgId : PgId)
    (epoch : ClusterEpoch) : historyLookup history pgId epoch =
      firstFrom (·.clusterEpoch) (·.mention pgId) history epoch := rfl

/-! ### Pruning -/

section Prune

variable {history : List ClusterMapHistoryRecord} {protection : List RouteKey} {floor : Nat}
  {key : RouteKey} {record : ClusterMapHistoryRecord}

/-- The routes that pruning must not lose. -/
def reachableRoutes (history : List ClusterMapHistoryRecord) (protection : List RouteKey)
    (floor : Nat) : List RouteKey :=
  clusterMapHistoryRouteDependencyClosure history (protection ++
    (history.filter (floor ≤ ·.clusterEpoch)).flatMap fun record =>
      record.pgs.map fun pg => (record.clusterEpoch, pg.pgId))

/-- What pruning leaves of an entry. -/
def prunedRecord (history : List ClusterMapHistoryRecord) (protection : List RouteKey)
    (floor : Nat) (record : ClusterMapHistoryRecord) : Option ClusterMapHistoryRecord :=
  let pgs := record.pgs.filter fun pg =>
    (record.clusterEpoch, pg.pgId) ∈ reachableRoutes history protection floor
  if floor ≤ record.clusterEpoch then some record
  else if pgs ≠ [] ∨ record.clusterEpoch ∈
      protection.map (·.1) ++ protectedHistoryAbsenceEpochs history protection then
    some { record with pgs := pgs }
  else none

theorem pruneUnreachable_eq : pruneUnreachableOldHistoryRoutes history protection floor =
    history.filterMap (prunedRecord history protection floor) := rfl

theorem find?_filter_pg (pgs : List HistoricalPgRouteRecord) (keep : PgId → Bool) (pgId : PgId) :
    (pgs.filter (keep ·.pgId)).find? (·.pgId == pgId) =
      if keep pgId then pgs.find? (·.pgId == pgId) else none := by
  rw [find?_filter]
  split
  · next hkeep =>
    congr 1
    funext pg
    by_cases heq : pg.pgId = pgId
    · simp [heq, hkeep]
    · simp [heq]
  · next hkeep =>
    refine find?_eq_none.mpr fun pg _ => ?_
    by_cases heq : pg.pgId = pgId
    · simp [heq, hkeep]
    · simp [heq]

theorem mem_routeClosureFrom (fuel : Nat) {reachable pending : List RouteKey}
    (h : key ∈ reachable) : key ∈ routeClosureFrom history fuel reachable pending := by
  induction fuel generalizing reachable pending with
  | zero => exact h
  | succ fuel ih =>
    cases pending with
    | nil => exact h
    | cons route pending =>
      unfold routeClosureFrom
      split
      · exact ih h
      · split
        · exact ih h
        · exact ih (mem_cons_of_mem _ h)

/-- The entry that a protected key resolves to is reachable. -/
theorem mem_reachableRoutes {root : RouteKey} (hroot : root ∈ protection)
    (hkey : resolveClusterMapHistoryRouteKey history root = some key) :
    key ∈ reachableRoutes history protection floor := by
  refine mem_routeClosureFrom _ (mem_eraseDups.mpr ?_)
  exact mem_filterMap.mpr ⟨root, mem_append_left _ hroot, hkey⟩

/-- An entry that records an absence is kept from the earliest protected epoch on. -/
theorem mem_protectedHistoryAbsenceEpochs
    (hkey : key ∈ protection) (hrecord : record ∈ history) (hle : key.1 ≤ record.clusterEpoch)
    (habsent : record.absentPgs ≠ []) :
    record.clusterEpoch ∈ protectedHistoryAbsenceEpochs history protection := by
  have hmem : key.1 ∈ protection.map (·.1) := mem_map_of_mem hkey
  unfold protectedHistoryAbsenceEpochs
  split
  · next hnone =>
    rw [min?_eq_none_iff.mp hnone] at hmem
    cases hmem
  · next earliest hsome =>
    have hearliest : earliest ≤ key.1 := (min?_eq_some_iff.mp hsome).2 key.1 hmem
    refine mem_map_of_mem (mem_filter.mpr ⟨hrecord, ?_⟩)
    simpa [habsent] using hearliest.trans hle

theorem prunedRecord_eq_some {kept : ClusterMapHistoryRecord}
    (h : prunedRecord history protection floor record = some kept) :
    kept.clusterEpoch = record.clusterEpoch ∧ kept.nodes = record.nodes ∧
      kept.absentPgs = record.absentPgs ∧
      ∀ pgId, kept.mention pgId = record.mention pgId ∨ kept.mention pgId = none := by
  unfold prunedRecord at h
  split at h
  · cases h
    exact ⟨rfl, rfl, rfl, fun _ => .inl rfl⟩
  · simp only at h
    split at h
    · cases h
      refine ⟨rfl, rfl, rfl, fun pgId => ?_⟩
      simp only [mention, ClusterMapHistoryRecord.pg]
      split
      · exact .inl rfl
      · rw [find?_filter_pg _ fun pgId =>
          decide ((record.clusterEpoch, pgId) ∈ reachableRoutes history protection floor)]
        split
        · exact .inl rfl
        · exact .inr rfl
    · cases h

/-- A key resolves to the entry of its first mention. -/
theorem resolve_of_firstEntry
    (hfirst : firstEntry (·.clusterEpoch) (·.mention key.2) history key.1 = some record)
    (habsent : key.2 ∉ record.absentPgs) :
    resolveClusterMapHistoryRouteKey history key = some (record.clusterEpoch, key.2) := by
  have hsame : ∀ record : ClusterMapHistoryRecord,
      (if key.2 ∈ record.absentPgs then some none
        else if (record.pg key.2).isSome then some (some (record.clusterEpoch, key.2))
        else none).isSome = (record.mention key.2).isSome := by
    intro record
    unfold mention
    split
    · rfl
    · cases record.pg key.2 <;> rfl
  have hpg : (record.pg key.2).isSome := by
    have hmention := (mem_of_firstEntry hfirst).2.2
    simpa [mention, habsent] using hmention
  have hresolved := firstFrom_of_firstEntry hsame hfirst
  rw [if_neg habsent, if_pos hpg] at hresolved
  exact congrArg Option.join hresolved

variable (hkey : key ∈ protection ∨ floor ≤ key.1)
include hkey

/-- The first mention of a kept key survives. -/
theorem prunedRecord_of_firstEntry
    (hfirst : firstEntry (·.clusterEpoch) (·.mention key.2) history key.1 = some record) :
    ∃ kept, prunedRecord history protection floor record = some kept ∧
      kept.mention key.2 = record.mention key.2 := by
  obtain ⟨hmem, hle, hmention⟩ := mem_of_firstEntry hfirst
  unfold prunedRecord
  by_cases hfloor : floor ≤ record.clusterEpoch
  · exact ⟨record, if_pos hfloor, rfl⟩
  have hprotected : key ∈ protection := hkey.resolve_right fun h => hfloor (h.trans hle)
  simp only [if_neg hfloor]
  by_cases habsent : key.2 ∈ record.absentPgs
  · have hepoch := mem_protectedHistoryAbsenceEpochs hprotected hmem hle (ne_nil_of_mem habsent)
    rw [if_pos (.inr (mem_append_right _ hepoch))]
    exact ⟨_, rfl, by simp only [mention, if_pos habsent]⟩
  · -- the route itself is what the key resolves to
    obtain ⟨route, hroute⟩ : ∃ route, record.pg key.2 = some route :=
      Option.isSome_iff_exists.mp (by simpa [mention, habsent] using hmention)
    have hreachable : (record.clusterEpoch, key.2) ∈ reachableRoutes history protection floor :=
      mem_reachableRoutes hprotected (resolve_of_firstEntry hfirst habsent)
    have hkept : (record.pgs.filter fun pg =>
        decide ((record.clusterEpoch, pg.pgId) ∈ reachableRoutes history protection floor)).find?
          (·.pgId == key.2) = some route := by
      rw [find?_filter_pg _ fun pgId =>
        decide ((record.clusterEpoch, pgId) ∈ reachableRoutes history protection floor)]
      rw [if_pos (decide_eq_true hreachable)]
      exact hroute
    rw [if_pos (.inl (ne_nil_of_mem (mem_of_find?_eq_some hkept)))]
    refine ⟨_, rfl, ?_⟩
    simp only [mention, if_neg habsent, ClusterMapHistoryRecord.pg, hkept]
    exact congrArg (Option.map some) hroute.symm

/-- The entry of a kept epoch survives. -/
theorem prunedRecord_of_epoch
    (hepoch : record.clusterEpoch = key.1) :
    ∃ kept, prunedRecord history protection floor record = some kept := by
  unfold prunedRecord
  by_cases hfloor : floor ≤ record.clusterEpoch
  · exact ⟨record, if_pos hfloor⟩
  · have hprotected : key ∈ protection := hkey.resolve_right (hepoch ▸ hfloor)
    have hmem : record.clusterEpoch ∈ protection.map (·.1) :=
      hepoch ▸ mem_map_of_mem hprotected
    simp only [if_neg hfloor]
    exact ⟨_, if_pos (.inr (mem_append_left _ hmem))⟩

/-- **Pruning keeps the route of a kept key.** -/
theorem historyLookup_prune :
    historyLookup (pruneUnreachableOldHistoryRoutes history protection floor) key.2 key.1 =
      historyLookup history key.2 key.1 := by
  refine firstFrom_filterMap (fun record kept hkept => ?_) fun record hfirst =>
    prunedRecord_of_firstEntry hkey hfirst
  obtain ⟨hepoch, -, -, hmention⟩ := prunedRecord_eq_some hkept
  exact ⟨hepoch, hmention key.2⟩

/-- **Pruning keeps the nodes of a kept epoch.** -/
theorem nodesAt_prune : firstFrom (·.clusterEpoch) (·.nodesAt key.1)
        (pruneUnreachableOldHistoryRoutes history protection floor) key.1 =
      firstFrom (·.clusterEpoch) (·.nodesAt key.1) history key.1 := by
  have hnodes : ∀ record kept, prunedRecord history protection floor record = some kept →
      kept.clusterEpoch = record.clusterEpoch ∧ kept.nodesAt key.1 = record.nodesAt key.1 := by
    intro record kept hkept
    obtain ⟨hepoch, hnodes, -, -⟩ := prunedRecord_eq_some hkept
    exact ⟨hepoch, by rw [nodesAt, hepoch, hnodes]; rfl⟩
  refine firstFrom_filterMap (fun record kept hkept => ?_) fun record hfirst => ?_
  · exact ⟨(hnodes record kept hkept).1, .inl (hnodes record kept hkept).2⟩
  · have hsome := (mem_of_firstEntry hfirst).2.2
    have hepoch : record.clusterEpoch = key.1 := by
      by_contra hne
      simp [nodesAt, hne] at hsome
    obtain ⟨kept, hkept⟩ : ∃ kept, prunedRecord history protection floor record = some kept :=
      prunedRecord_of_epoch hkey hepoch
    exact ⟨kept, hkept, (hnodes record kept hkept).2⟩

end Prune

/-! ### Recording the end of an epoch -/

section Record

variable {previous current : ClusterControlSnapshot}

/-- A route of the delta is that of a PG whose route is another one, or none, in the newer
state. -/
theorem mem_deltaBetween_pgs (hkeyed : previous.PgsKeyed) {route : HistoricalPgRouteRecord} :
    route ∈ (deltaBetween previous current).pgs ↔
      ∃ record, previous.pgs[route.pgId]? = some record ∧ .ofRecord record = route ∧
        current.pgs[route.pgId]?.map ofRecord ≠ some route := by
  simp only [deltaBetween, mem_map, mem_filter, mem_values]
  constructor
  · rintro ⟨record, ⟨⟨key, hkey⟩, hdiffers⟩, rfl⟩
    have hpgId : record.pgId = key := hkeyed key record hkey
    subst hpgId
    refine ⟨record, hkey, rfl, fun hsame => ?_⟩
    obtain ⟨other, hother, heq⟩ := Option.map_eq_some_iff.mp hsame
    have hother' : current.pgs[record.pgId]? = some other := hother
    simp [hother', heq] at hdiffers
  · rintro ⟨record, hrecord, rfl, hdiffers⟩
    refine ⟨record, ⟨⟨_, hrecord⟩, ?_⟩, rfl⟩
    have hdiffers' : current.pgs[record.pgId]?.map ofRecord ≠
      some (.ofRecord record) := hdiffers
    cases hcurrent : current.pgs[record.pgId]? with
    | none => rfl
    | some other =>
      rw [hcurrent, Option.map_some] at hdiffers'
      exact bne_iff_ne.mpr fun heq => hdiffers' (congrArg some heq.symm)

theorem deltaBetween_pg (hkeyed : previous.PgsKeyed) (pgId : PgId) :
    (deltaBetween previous current).pg pgId =
      if current.pgs[pgId]?.map ofRecord =
          previous.pgs[pgId]?.map ofRecord then none
      else previous.pgs[pgId]?.map ofRecord := by
  unfold ClusterMapHistoryRecord.pg
  cases hfind : (deltaBetween previous current).pgs.find?
      (·.pgId == pgId) with
  | none =>
    split
    · rfl
    · next hdiffers =>
      cases hrecord : previous.pgs[pgId]? with
      | none => rfl
      | some record =>
        have hpgId := hkeyed pgId record hrecord
        subst hpgId
        rw [hrecord] at hdiffers
        have hmem := (mem_deltaBetween_pgs hkeyed).mpr ⟨record, hrecord, rfl, hdiffers⟩
        exact absurd (beq_self_eq_true _) (find?_eq_none.mp hfind _ hmem)
  | some route =>
    obtain ⟨record, hrecord, hroute, hdiffers⟩ :=
      (mem_deltaBetween_pgs hkeyed).mp (mem_of_find?_eq_some hfind)
    have hpgId : route.pgId = pgId := by simpa using find?_some hfind
    subst hpgId
    rw [hrecord, Option.map_some, hroute, if_neg hdiffers]

/-- **What a delta says together with the newer state is the older state.** -/
theorem mention_deltaBetween (hkeyed : previous.PgsKeyed) (pgId : PgId) :
    ((deltaBetween previous current).mention pgId).getD
        (current.pgs[pgId]?.map ofRecord) =
      previous.pgs[pgId]?.map ofRecord := by
  have habsent : pgId ∈ (deltaBetween previous current).absentPgs ↔
      pgId ∈ current.pgs ∧ pgId ∉ previous.pgs := by
    rw [deltaBetween, mem_filter, ExtTreeMap.mem_keys,
      Bool.not_eq_true', ← Bool.not_eq_true, ExtTreeMap.contains_iff_mem]
  unfold mention
  rw [deltaBetween_pg hkeyed]
  split
  · next h =>
    rw [ExtTreeMap.getElem?_eq_none (habsent.mp h).2]
    rfl
  · next h =>
    split
    · next hsame => exact hsame
    · next hdiffers =>
      cases hprevious : previous.pgs[pgId]? with
      | some record => rfl
      | none =>
        -- a PG that is new in the newer state would be listed as absent
        have hnot : pgId ∉ previous.pgs := by
          rw [ExtTreeMap.mem_iff_isSome_getElem?, hprevious]
          exact Bool.false_ne_true
        have hcurrent := ExtTreeMap.getElem?_eq_none fun hmem => h (habsent.mpr ⟨hmem, hnot⟩)
        rw [hcurrent]
        rfl

end Record

/-! ### One step -/

namespace ClusterControlSnapshot

variable (s : ClusterControlSnapshot)

/-- The route of a PG at an epoch, as the history tells it. -/
def routeAt (key : RouteKey) : Option HistoricalPgRouteRecord :=
  historicalPgRouteRecordAtEpoch s.history s.pgs key.2 key.1

/-- The nodes of an epoch, when its entry is retained. -/
def nodesAtEpoch (epoch : ClusterEpoch) : Option (List NodeId) :=
  (s.clusterMapAtEpoch epoch).map (·.nodes)

/-- The keys that the current state protects from pruning. -/
def historyProtection : List RouteKey :=
  requiredClusterMapHistoryProtection (values s.pgs) (values s.nodes)
    (values s.unavailablePgPlacementTransitions ++
      values s.retainedUnavailablePgPlacementTransitions)

/-- The key is protected, or its epoch is one of the last `clusterMapHistoryLimit`. -/
def Keeps (key : RouteKey) : Prop :=
  key ∈ s.historyProtection ∨ s.clusterEpoch - clusterMapHistoryLimit ≤ key.1

/-- The entries are in order, and all of earlier epochs. -/
structure HistoryInOrder (s : ClusterControlSnapshot) : Prop where
  sorted : s.history.Pairwise fun a b => a.clusterEpoch < b.clusterEpoch
  below : ∀ record ∈ s.history, record.clusterEpoch < s.clusterEpoch

end ClusterControlSnapshot

/-- One step of the control plane, as far as the history is concerned: the state has moved on to
`next`, and the history is recorded and pruned unless nothing changed. -/
structure StepRecorded (s next t : ClusterControlSnapshot) : Prop where
  history : next.history = s.history
  moved : next.clusterEpoch = s.clusterEpoch ∧ SameMap s next ∨
    next.clusterEpoch = s.clusterEpoch + 1
  result : t = next.recordHistoryFrom s ∨ t = next ∧ next.clusterEpoch = s.clusterEpoch

section Step

variable {s next t : ClusterControlSnapshot}

theorem Moves.history (h : Moves s next) : next.history = s.history := by
  cases h with
  | keeps frame same => exact frame.history
  | bumps bump before after same =>
    obtain ⟨-, rfl⟩ := bumpEpoch_eq_ok bump
    exact after.history.trans before.history

theorem stepRecorded_of_outcome {a : AppliedControlPlaneCommand} (h : Outcome s a) :
    ∃ next, StepRecorded s next a.snapshot := by
  obtain ⟨next, response, changed, rfl, hmoves, hchanged⟩ := h
  refine ⟨next, hmoves.history, hmoves.epoch, ?_⟩
  by_cases hflag : changed = true
  · exact .inl (if_pos hflag)
  · refine .inr ⟨if_neg hflag, ?_⟩
    by_contra hepoch
    exact hflag (hchanged hepoch)

/-- The state after a restart, before its history is recorded. -/
theorem restart_eq_ok (h : bumpAuthorityAfterRestart s = .ok next) :
    next.clusterEpoch = s.clusterEpoch + 1 ∧ s.clusterEpoch + 1 < 2 ^ 64 ∧
      next.history = s.history ∧
      (∀ pgId : PgId, next.pgs[pgId]? = s.pgs[pgId]?.map (·.fenceForRestart s)) ∧
      ∀ nodeId : NodeId,
        next.nodes[nodeId]? = s.nodes[nodeId]?.map ({ · with pgObservations := ∅ }) := by
  simp only [bumpAuthorityAfterRestart, nextEpoch, bind_eq_ok, okOr_eq_ok, checkedAdd_eq_some,
    pure_eq_ok] at h
  obtain ⟨incarnation, -, epoch, ⟨rfl, hlt⟩, rfl⟩ := h
  exact ⟨rfl, hlt, rfl, fun pgId => ExtTreeMap.getElem?_map, fun nodeId => ExtTreeMap.getElem?_map⟩

theorem stepRecorded_of_restart (h : bumpAuthorityAfterRestart s = .ok next) :
    StepRecorded s next (next.recordHistoryFrom s) := by
  obtain ⟨hepoch, -, hhistory, -, -⟩ := restart_eq_ok h
  exact ⟨hhistory, .inr hepoch, .inl rfl⟩

theorem stepRecorded (h : controlPlaneStep s event = some t) :
    ∃ next, StepRecorded s next t := by
  cases event with
  | command command =>
    obtain ⟨a, houtcome, rfl⟩ := acceptedCommand_outcome h
    exact stepRecorded_of_outcome houtcome
  | restart =>
    obtain ⟨bumped, hbumped, rfl, -⟩ := controlPlaneStep_restart h
    exact ⟨bumped, stepRecorded_of_restart hbumped⟩

/-- The history before it is pruned. -/
def pushedHistory (s next : ClusterControlSnapshot) : List ClusterMapHistoryRecord :=
  if s.clusterEpoch ≠ next.clusterEpoch then
    next.history.filter (·.clusterEpoch ≠ s.clusterEpoch) ++
      [deltaBetween s next]
  else next.history

variable (h : StepRecorded s next t) (horder : s.HistoryInOrder)
include h horder

theorem StepRecorded.pushedHistory_eq :
    pushedHistory s next = s.history ∧ next.clusterEpoch = s.clusterEpoch ∧ SameMap s next ∨
      pushedHistory s next = s.history ++ [deltaBetween s next] ∧
        next.clusterEpoch = s.clusterEpoch + 1 := by
  unfold pushedHistory
  rcases h.moved with ⟨hepoch, hsame⟩ | hepoch
  · exact .inl ⟨by rw [hepoch, if_neg (by simp), h.history], hepoch, hsame⟩
  · have hne : s.clusterEpoch ≠ next.clusterEpoch := hepoch ▸ (Nat.succ_ne_self _).symm
    have hall : next.history.filter (·.clusterEpoch ≠ s.clusterEpoch) = s.history := by
      rw [h.history, filter_eq_self]
      exact fun record hrecord => decide_eq_true (horder.below record hrecord).ne
    exact .inr ⟨by rw [if_pos hne, hall], hepoch⟩

theorem StepRecorded.pushed_sorted :
    (pushedHistory s next).Pairwise (fun a b => a.clusterEpoch < b.clusterEpoch) ∧
      ∀ record ∈ pushedHistory s next, record.clusterEpoch < next.clusterEpoch := by
  rcases h.pushedHistory_eq horder with ⟨heq, hepoch, -⟩ | ⟨heq, hepoch⟩
  · exact heq ▸ ⟨horder.sorted, fun record hrecord => hepoch ▸ horder.below record hrecord⟩
  · rw [heq]
    refine ⟨pairwise_append.mpr ⟨horder.sorted, pairwise_singleton _ _, ?_⟩, ?_⟩
    · intro record hrecord last hlast
      rw [mem_singleton.mp hlast]
      exact horder.below record hrecord
    · intro record hrecord
      rw [hepoch]
      rcases mem_append.mp hrecord with hrecord | hrecord
      · exact (horder.below record hrecord).trans (Nat.lt_succ_self _)
      · rw [mem_singleton.mp hrecord]
        exact Nat.lt_succ_self _

/-- The history after a step: the pushed one, pruned or not. -/
theorem StepRecorded.history_eq :
    t.pgs = next.pgs ∧ t.clusterEpoch = next.clusterEpoch ∧
      (t.history = pushedHistory s next ∨
        t.history = pruneUnreachableOldHistoryRoutes (pushedHistory s next) t.historyProtection
          (t.clusterEpoch - clusterMapHistoryLimit)) := by
  rcases h.result with rfl | ⟨rfl, hepoch⟩
  · refine ⟨rfl, rfl, .inr ?_⟩
    have hsorted := (h.pushed_sorted horder).1.imp fun hlt => hlt.le
    exact congrArg (pruneUnreachableOldHistoryRoutes · _ _) hsorted.insertionSort_eq
  · exact ⟨rfl, rfl, .inl (by simp [pushedHistory, hepoch])⟩

theorem StepRecorded.inOrder : t.HistoryInOrder := by
  obtain ⟨-, hepoch, hhistory⟩ := h.history_eq horder
  obtain ⟨hsorted, hbelow⟩ := h.pushed_sorted horder
  rcases hhistory with hhistory | hhistory
  · exact ⟨hhistory ▸ hsorted, fun record hrecord => hepoch ▸ hbelow record (hhistory ▸ hrecord)⟩
  · rw [pruneUnreachable_eq] at hhistory
    refine ⟨hhistory ▸ hsorted.filterMap _ ?_, fun record hrecord => ?_⟩
    · intro a b hlt a' ha' b' hb'
      rw [(prunedRecord_eq_some ha').1, (prunedRecord_eq_some hb').1]
      exact hlt
    · rw [hhistory] at hrecord
      obtain ⟨old, hold, hkept⟩ := mem_filterMap.mp hrecord
      rw [(prunedRecord_eq_some hkept).1, hepoch]
      exact hbelow old hold

end Step

/-! ### What a step keeps of the past -/

section Past

variable {s next t : ClusterControlSnapshot} {key : RouteKey}

/-- Reported progress is no part of a route. -/
theorem SameMap.routes (h : SameMap s t) (pgId : PgId) :
    t.pgs[pgId]?.map ofRecord =
      s.pgs[pgId]?.map ofRecord := by
  have heq := congrArg (Option.map ofRecord) (h.pgs pgId)
  rw [Option.map_map, Option.map_map] at heq
  exact heq

theorem routeAt_eq : s.routeAt key = (historyLookup s.history key.2 key.1).getD
      (s.pgs[key.2]?.map ofRecord) := by
  unfold ClusterControlSnapshot.routeAt historicalPgRouteRecordAtEpoch
  cases historyLookup s.history key.2 key.1 with
  | none => rfl
  | some route => rfl

theorem nodesAtEpoch_eq (epoch : ClusterEpoch) :
    s.nodesAtEpoch epoch = firstFrom (·.clusterEpoch) (·.nodesAt epoch) s.history epoch := by
  unfold ClusterControlSnapshot.nodesAtEpoch clusterMapAtEpoch firstFrom
  induction s.history with
  | nil => rfl
  | cons record rest ih =>
    by_cases heq : record.clusterEpoch = epoch
    · simp [heq, nodesAt]
    · rw [find?_cons_of_neg (by simpa using heq), ih]
      by_cases hle : epoch ≤ record.clusterEpoch
      · simp [hle, nodesAt, heq]
      · simp [hle]

/-- At the current epoch the route is the current one. -/
theorem routeAt_current (horder : s.HistoryInOrder) (pgId : PgId) :
    s.routeAt (s.clusterEpoch, pgId) = s.pgs[pgId]?.map ofRecord := by
  rw [routeAt_eq, historyLookup_eq, firstFrom_of_forall_lt horder.below]
  rfl

variable (h : StepRecorded s next t) (horder : s.HistoryInOrder)
include h horder

/-- **Recording the end of an epoch** keeps the routes up to that epoch. -/
theorem route_push (hkeyed : s.PgsKeyed) (hle : key.1 ≤ s.clusterEpoch) :
    (historyLookup (pushedHistory s next) key.2 key.1).getD
      (next.pgs[key.2]?.map ofRecord) = s.routeAt key := by
  rw [routeAt_eq]
  rcases h.pushedHistory_eq horder with ⟨hpushed, -, hsame⟩ | ⟨hpushed, -⟩
  · rw [hpushed, hsame.routes]
  · have hdelta : key.1 ≤ (deltaBetween s next).clusterEpoch := hle
    rw [hpushed, historyLookup_eq, firstFrom_append, firstFrom_singleton hdelta, Option.getD_or,
      mention_deltaBetween hkeyed, ← historyLookup_eq]

/-- **A step keeps the route of a kept key.** -/
theorem StepRecorded.routeAt (hkeyed : s.PgsKeyed) (hle : key.1 ≤ s.clusterEpoch)
    (hkeeps : t.Keeps key) : t.routeAt key = s.routeAt key := by
  obtain ⟨hpgs, -, hhistory⟩ := h.history_eq horder
  have hlookup : historyLookup t.history key.2 key.1 =
      historyLookup (pushedHistory s next) key.2 key.1 := by
    rcases hhistory with hhistory | hhistory
    · rw [hhistory]
    · rw [hhistory]
      exact historyLookup_prune hkeeps
  rw [routeAt_eq, hlookup, hpgs, route_push h horder hkeyed hle]

/-- **A step keeps the nodes of a kept epoch**, and records those of an epoch that ends. -/
theorem StepRecorded.nodesAtEpoch (hkeeps : t.Keeps key) :
    (key.1 < s.clusterEpoch → t.nodesAtEpoch key.1 = s.nodesAtEpoch key.1) ∧
      (key.1 = s.clusterEpoch → s.clusterEpoch < t.clusterEpoch →
        t.nodesAtEpoch key.1 = some s.nodes.keys) := by
  obtain ⟨-, hepoch, hhistory⟩ := h.history_eq horder
  have hpruned : t.nodesAtEpoch key.1 =
      firstFrom (·.clusterEpoch) (·.nodesAt key.1) (pushedHistory s next) key.1 := by
    rw [nodesAtEpoch_eq]
    rcases hhistory with hhistory | hhistory
    · rw [hhistory]
    · rw [hhistory]
      exact nodesAt_prune hkeeps
  rw [hpruned, nodesAtEpoch_eq]
  rcases h.pushedHistory_eq horder with ⟨hpushed, hsame, -⟩ | ⟨hpushed, -⟩
  · rw [hpushed]
    refine ⟨fun _ => rfl, fun _ hlt => ?_⟩
    exact absurd hlt (by rw [hepoch, hsame]; exact lt_irrefl _)
  · have hdelta : (deltaBetween s next).clusterEpoch = s.clusterEpoch := rfl
    rw [hpushed, firstFrom_append]
    refine ⟨fun hlt => ?_, fun heq _ => ?_⟩
    · rw [firstFrom_singleton (hdelta ▸ hlt.le), nodesAt,
        if_neg (hdelta ▸ Ne.symm hlt.ne), Option.or_none]
    · rw [firstFrom_of_forall_lt (heq ▸ horder.below), firstFrom_singleton (hdelta ▸ heq.le),
        nodesAt, if_pos (hdelta ▸ heq.symm)]
      rfl

end Past

/-! ### Reconstructed routes -/

/-- The snapshot shows the route at the epoch. -/
structure PgRouteSnapshot.Shows (self : PgRouteSnapshot) (epoch : ClusterEpoch)
    (route : HistoricalPgRouteRecord) : Prop where
  clusterEpoch : self.clusterEpoch = epoch
  pgId : self.pgId = route.pgId
  state : self.state = route.state
  actingSet : self.actingSet = route.actingSet
  primary : routePrimary route.pgId epoch route.state route.activePrimary route.actingSet =
    .ok self.primaryNodeId
  transfer : self.peeringMetadataTransfer = route.peeringMetadataTransfer
  sourceRouteEpoch : self.peeringMetadataTransferSourceRouteEpoch =
    route.peeringMetadataTransferSourceRouteEpoch
  sourceNodeId : self.peeringMetadataTransferSourceNodeId =
    route.peeringMetadataTransferSourceNodeId

/-- The route names a primary, and its nodes are among `nodes`. -/
structure HistoricalPgRouteRecord.Routable (route : HistoricalPgRouteRecord)
    (nodes : List NodeId) : Prop where
  nonempty : route.actingSet ≠ []
  known : ∀ nodeId ∈ route.actingSet, nodeId ∈ nodes
  primary : route.state = .active → ∃ primary ∈ route.actingSet, route.activePrimary = some primary

section Reconstruct

variable {s : ClusterControlSnapshot} {epoch : ClusterEpoch} {route : HistoricalPgRouteRecord}
  {snapshot : PgRouteSnapshot} {contains : NodeId → Bool} {pgId : PgId} {record : PgControlRecord}

theorem shows_of_reconstructHistoricalPgRoute
    (h : reconstructHistoricalPgRoute epoch route contains = .ok snapshot) :
    snapshot.Shows epoch route := by
  simp only [reconstructHistoricalPgRoute, bind_eq_ok, pure_eq_ok] at h
  obtain ⟨primary, hprimary, -, -, rfl⟩ := h
  exact ⟨rfl, rfl, rfl, rfl, hprimary, rfl, rfl, rfl⟩

theorem shows_of_reconstructPgRouteFromRecord (hpgId : record.pgId = pgId)
    (h : reconstructPgRouteFromRecord epoch pgId record contains = .ok snapshot) :
    snapshot.Shows epoch (.ofRecord record) := by
  simp only [reconstructPgRouteFromRecord, bind_eq_ok, pure_eq_ok] at h
  obtain ⟨primary, hprimary, -, -, destinationEpoch, -, rfl⟩ := h
  exact ⟨rfl, hpgId.symm, rfl, rfl, hpgId ▸ hprimary, rfl, rfl, rfl⟩

/-- What is reconstructed is the route that the history tells. -/
theorem shows_of_reconstructed (horder : s.HistoryInOrder) (hkeyed : s.PgsKeyed)
    (h : s.reconstructedPgRouteAtEpoch pgId epoch = .ok snapshot) :
    ∃ route, s.routeAt (epoch, pgId) = some route ∧ snapshot.Shows epoch route := by
  unfold reconstructedPgRouteAtEpoch at h
  split at h
  · next heq =>
    subst heq
    simp only [bind_eq_ok, okOr_eq_ok] at h
    obtain ⟨record, hrecord, h⟩ := h
    refine ⟨.ofRecord record, ?_, shows_of_reconstructPgRouteFromRecord (hkeyed _ _ hrecord) h⟩
    rw [routeAt_current horder, hrecord]
    rfl
  · simp only [bind_eq_ok, okOr_eq_ok] at h
    obtain ⟨entry, -, h⟩ := h
    split at h
    · cases h
    · next route hlookup =>
      exact ⟨route, by rw [routeAt_eq, hlookup]; rfl, shows_of_reconstructHistoricalPgRoute h⟩
    · next hlookup =>
      simp only [bind_eq_ok, okOr_eq_ok] at h
      obtain ⟨record, hrecord, h⟩ := h
      refine ⟨.ofRecord record, ?_, shows_of_reconstructPgRouteFromRecord (hkeyed _ _ hrecord) h⟩
      rw [routeAt_eq, hlookup, hrecord]
      rfl

theorem routePrimary_of_routable (h : route.Routable nodes) :
    ∃ primary, routePrimary pgId epoch route.state route.activePrimary route.actingSet =
      .ok primary := by
  unfold routePrimary
  split
  · next hactive =>
    obtain ⟨primary, hmem, hprimary⟩ := h.primary hactive
    exact ⟨primary, by simp [hprimary, Option.filter, hmem, okOr]⟩
  · obtain ⟨first, rest, hcons⟩ := exists_cons_of_ne_nil h.nonempty
    exact ⟨first, by simp [hcons, okOr]⟩

theorem reconstructHistoricalPgRoute_of_routable (h : route.Routable nodes) :
    ∃ snapshot, reconstructHistoricalPgRoute epoch route nodes.contains = .ok snapshot := by
  obtain ⟨primary, hprimary⟩ := routePrimary_of_routable h
  refine ⟨_, bind_eq_ok.mpr ⟨primary, hprimary, bind_eq_ok.mpr ⟨(), ?_, rfl⟩⟩⟩
  refine forM_eq_ok.mpr fun nodeId hmem => ?_
  simpa [failIf_eq_ok] using h.known nodeId hmem

end Reconstruct

/-! ### Reachable snapshots -/

/-- What reconstruction relies on in every reachable snapshot. -/
structure ClusterControlSnapshot.RouteInv (s : ClusterControlSnapshot) : Prop where
  order : s.HistoryInOrder
  keyed : s.view.Keyed
  epoch : s.clusterEpoch < 2 ^ 64
  transfers : s.TransfersBelow s.clusterEpoch
  routable : ∀ (pgId : PgId) (record : PgControlRecord), s.pgs[pgId]? = some record →
    (ofRecord record).Routable s.nodes.keys

section Invariant

variable {s t next : ClusterControlSnapshot}

theorem pgsKeyed_of_keyed (h : s.view.Keyed) : s.PgsKeyed :=
  pgsKeyed_of_view h rfl

theorem known_of_validateActingNodesFrom {pgId : PgId} {seen : List NodeId}
    (h : validateActingNodesFrom s pgId nodes seen = .ok ()) :
    ∀ nodeId ∈ nodes, nodeId ∈ s.nodes.keys := by
  induction nodes generalizing seen with
  | nil => exact fun nodeId hmem => absurd hmem not_mem_nil
  | cons first rest ih =>
    simp only [validateActingNodesFrom, bind_eq_ok, failIf_eq_ok, exists_const, not_not] at h
    obtain ⟨-, hfirst, hrest⟩ := h
    refine forall_mem_cons.mpr ⟨?_, ih hrest⟩
    exact ExtTreeMap.mem_keys.mpr (ExtTreeMap.contains_iff_mem.mp hfirst)

theorem routable_of_validatePgRecord {record : PgControlRecord}
    (h : validatePgRecord s record = .ok ()) :
    (ofRecord record).Routable s.nodes.keys := by
  simp only [validatePgRecord, bind_eq_ok, failIf_eq_ok, exists_const] at h
  obtain ⟨hnonempty, -, -, _, hknown, -, -, hstate⟩ := h
  refine ⟨hnonempty, known_of_validateActingNodesFrom hknown, fun hactive => ?_⟩
  have hrecord : record.state = .active := hactive
  rw [hrecord] at hstate
  simp only [validateActivePgState, bind_eq_ok, okOr_eq_ok, failIf_eq_ok, exists_const,
    not_not] at hstate
  obtain ⟨primary, hprimary, hmem, -⟩ := hstate
  exact ⟨primary, hmem, hprimary⟩

/-- A published snapshot has routable PGs. -/
theorem routable_of_validate (h : validatePublicationInvariants s = .ok ()) (pgId : PgId)
    (record : PgControlRecord) (hrecord : s.pgs[pgId]? = some record) :
    (ofRecord record).Routable s.nodes.keys := by
  simp only [validatePublicationInvariants, validateCurrentStateInvariants, bind_eq_ok] at h
  obtain ⟨-, -, -, -, -, -, -, -, -, -, -, -, -, -, _, hpgs, -⟩ := h
  exact routable_of_validatePgRecord
    (forM_eq_ok.mp hpgs record (mem_values.mpr ⟨pgId, hrecord⟩))

theorem PgControlRecord.TransferBelow.mono {record : PgControlRecord}
    (h : record.TransferBelow bound) (hle : bound ≤ bound') : record.TransferBelow bound' := by
  intro hsome
  obtain ⟨hstate, hfloor, floorEpoch, hfloorEpoch, hlt⟩ := h hsome
  exact ⟨hstate, hfloor, floorEpoch, hfloorEpoch, hlt.trans_le hle⟩

theorem ClusterControlSnapshot.TransfersBelow.mono
    (h : s.TransfersBelow bound) (hle : bound ≤ bound') : s.TransfersBelow bound' :=
  fun pgId record hrecord => (h pgId record hrecord).mono hle

/-- Transfer markers stay below the current epoch, which fits in 64 bits. -/
theorem Moves.transfers (h : Moves s next) (htransfers : s.TransfersBelow s.clusterEpoch)
    (hepoch : s.clusterEpoch < 2 ^ 64) :
    next.TransfersBelow next.clusterEpoch ∧ next.clusterEpoch < 2 ^ 64 := by
  cases h with
  | keeps frame same => exact ⟨frame.epoch ▸ same.transfersBelow htransfers, frame.epoch ▸ hepoch⟩
  | @bumps changed bumped bump before after same =>
    have hchanged := before.transfers (htransfers.mono (Nat.le_succ _))
    have hpgs := bumpEpoch_pgs bump
    obtain ⟨hlt, rfl⟩ := bumpEpoch_eq_ok bump
    have hnext : next.clusterEpoch = s.clusterEpoch + 1 := by rw [after.epoch, ← before.epoch]
    refine ⟨?_, ?_⟩
    · rw [hnext]
      exact same.transfersBelow (hchanged.of_pgs_eq hpgs)
    · rw [hnext, ← before.epoch]
      exact hlt

theorem transfers_of_acceptedCommand {command : ControlPlaneCommand}
    (h : acceptedCommand s command = some t) (htransfers : s.TransfersBelow s.clusterEpoch)
    (hepoch : s.clusterEpoch < 2 ^ 64) :
    t.TransfersBelow t.clusterEpoch ∧ t.clusterEpoch < 2 ^ 64 := by
  obtain ⟨a, ⟨next, response, changed, rfl, hmoves, -⟩, rfl⟩ := acceptedCommand_outcome h
  have hnext := hmoves.transfers htransfers hepoch
  unfold appliedControlPlaneCommand
  split
  · exact hnext
  · exact hnext

theorem fenceForRestart_pgId (record : PgControlRecord) :
    (record.fenceForRestart s).pgId = record.pgId := by
  unfold PgControlRecord.fenceForRestart
  split <;> rfl

theorem restart_transfers (h : bumpAuthorityAfterRestart s = .ok next)
    (htransfers : s.TransfersBelow s.clusterEpoch) :
    next.TransfersBelow next.clusterEpoch ∧ next.clusterEpoch < 2 ^ 64 := by
  obtain ⟨hepoch, hlt, -, hpgs, -⟩ := restart_eq_ok h
  rw [hepoch]
  refine ⟨fun pgId record hrecord => ?_, hlt⟩
  rw [hpgs] at hrecord
  obtain ⟨old, hold, rfl⟩ := Option.map_eq_some_iff.mp hrecord
  unfold PgControlRecord.fenceForRestart
  split
  · exact .of_none rfl
  · exact (htransfers pgId old hold).mono (Nat.le_succ _)

theorem restart_keyed (h : bumpAuthorityAfterRestart s = .ok next) (hkeyed : s.view.Keyed) :
    next.view.Keyed := by
  obtain ⟨-, -, -, hpgs, hnodes⟩ := restart_eq_ok h
  constructor
  · intro nodeId node hnode
    rw [view_nodes, hnodes, Option.map_map] at hnode
    obtain ⟨old, hold, rfl⟩ := Option.map_eq_some_iff.mp hnode
    have hview := view_node hold
    exact (hkeyed.node hview :)
  · intro pgId pg hpg
    rw [view_pgs, hpgs, Option.map_map] at hpg
    obtain ⟨old, hold, rfl⟩ := Option.map_eq_some_iff.mp hpg
    exact (fenceForRestart_pgId old).trans (pgsKeyed_of_keyed hkeyed pgId old hold)

/-- **Every reachable snapshot** has its history in order and routable PGs. -/
theorem routeInv_step (h : controlPlaneStep s event = some t) (hs : s.RouteInv) : t.RouteInv := by
  obtain ⟨next, hrecorded⟩ := stepRecorded h
  have horder := hrecorded.inOrder hs.order
  cases event with
  | command command =>
    obtain ⟨htransfers, hepoch⟩ := transfers_of_acceptedCommand h hs.transfers hs.epoch
    obtain ⟨a, ha, rfl⟩ := acceptedCommand_eq_some h
    refine ⟨horder, keyed_apply hs.keyed ha, hepoch, htransfers, ?_⟩
    exact routable_of_validate (applyControlPlaneCommand_eq_ok ha).2
  | restart =>
    obtain ⟨bumped, hbumped, rfl, hvalid⟩ := controlPlaneStep_restart h
    obtain ⟨htransfers, hepoch⟩ := restart_transfers hbumped hs.transfers
    have hkeyed := restart_keyed hbumped hs.keyed
    exact ⟨horder, hkeyed, hepoch, htransfers, routable_of_validate hvalid⟩

theorem routeInv_empty : ClusterControlSnapshot.empty.RouteInv := by
  refine ⟨⟨.nil, fun _ h => absurd h not_mem_nil⟩, keyed_empty, by decide, ?_, ?_⟩ <;>
  · intro pgId record hrecord
    simp [empty] at hrecord

end Invariant

section Succeeds

variable {t : ClusterControlSnapshot} {pgId : PgId} {record : PgControlRecord}

/-- A transfer marker has a destination epoch. -/
theorem transferDestinationEpoch_of_below (h : record.TransferBelow bound)
    (hbound : bound < 2 ^ 64) :
    ∃ destinationEpoch, peeringMetadataTransferDestinationEpoch record = .ok destinationEpoch := by
  unfold peeringMetadataTransferDestinationEpoch
  split
  · exact ⟨none, rfl⟩
  · next htransfer =>
    obtain ⟨-, -, floorEpoch, hfloorEpoch, hlt⟩ := h (by rw [htransfer]; rfl)
    have hnext : nextEpoch floorEpoch = .ok (floorEpoch + 1) :=
      okOr_eq_ok.mpr (checkedAdd_eq_some.mpr ⟨rfl, (Nat.succ_le_of_lt hlt).trans_lt hbound⟩)
    exact ⟨some (floorEpoch + 1), bind_eq_ok.mpr ⟨floorEpoch, okOr_eq_ok.mpr hfloorEpoch,
      bind_eq_ok.mpr ⟨_, hnext, rfl⟩⟩⟩

theorem reconstructPgRouteFromRecord_ok (ht : t.RouteInv) (hrecord : t.pgs[pgId]? = some record)
    (epoch : ClusterEpoch) :
    ∃ snapshot, reconstructPgRouteFromRecord epoch pgId record t.nodes.contains =
      .ok snapshot := by
  have hroutable := ht.routable pgId record hrecord
  obtain ⟨primary, hprimary⟩ := routePrimary_of_routable hroutable
  obtain ⟨destinationEpoch, hdestination⟩ :=
    transferDestinationEpoch_of_below (ht.transfers pgId record hrecord) ht.epoch
  refine ⟨_, bind_eq_ok.mpr ⟨primary, hprimary, bind_eq_ok.mpr ⟨(), ?_,
    bind_eq_ok.mpr ⟨destinationEpoch, hdestination, rfl⟩⟩⟩⟩
  refine forM_eq_ok.mpr fun nodeId hmem => ?_
  have hknown : nodeId ∈ t.nodes := ExtTreeMap.mem_keys.mp (hroutable.known nodeId hmem)
  exact failIf_eq_ok.mpr (not_not.mpr (ExtTreeMap.contains_iff_mem.mpr hknown))

/-- A route that the history tells is reconstructed when its epoch is current or retained. -/
theorem reconstructed_ok (ht : t.RouteInv) {epoch : ClusterEpoch} {route : HistoricalPgRouteRecord}
    (hroute : t.routeAt (epoch, pgId) = some route)
    (hretained : epoch = t.clusterEpoch ∨
      ∃ nodes, t.nodesAtEpoch epoch = some nodes ∧ route.Routable nodes) :
    ∃ snapshot, t.reconstructedPgRouteAtEpoch pgId epoch = .ok snapshot := by
  unfold reconstructedPgRouteAtEpoch
  split
  · next heq =>
    rw [heq, routeAt_current ht.order] at hroute
    obtain ⟨record, hrecord, -⟩ := Option.map_eq_some_iff.mp hroute
    obtain ⟨snapshot, hsnapshot⟩ := reconstructPgRouteFromRecord_ok ht hrecord epoch
    exact ⟨snapshot, bind_eq_ok.mpr ⟨record, okOr_eq_ok.mpr hrecord, hsnapshot⟩⟩
  · next hne =>
    obtain ⟨nodes, hnodes, hroutable⟩ := hretained.resolve_left hne
    obtain ⟨entry, hentry, rfl⟩ := Option.map_eq_some_iff.mp hnodes
    rw [routeAt_eq] at hroute
    refine Exists.imp (fun _ h => bind_eq_ok.mpr ⟨entry, okOr_eq_ok.mpr hentry, h⟩) ?_
    cases hlookup : historyLookup t.history pgId epoch with
    | some found =>
      rw [hlookup, Option.getD_some] at hroute
      subst hroute
      exact reconstructHistoricalPgRoute_of_routable hroutable
    | none =>
      rw [hlookup, Option.getD_none] at hroute
      obtain ⟨record, hrecord, -⟩ := Option.map_eq_some_iff.mp hroute
      obtain ⟨snapshot, hsnapshot⟩ := reconstructPgRouteFromRecord_ok ht hrecord epoch
      exact ⟨snapshot, bind_eq_ok.mpr ⟨record, okOr_eq_ok.mpr hrecord, hsnapshot⟩⟩

end Succeeds

/-! ### Runs -/

section Runs

variable {Ok : ClusterControlSnapshot → ControlPlaneEvent → Prop} {t u : ClusterControlSnapshot}
  {past : List ClusterControlSnapshot} {pgId : PgId}

/-- The current epoch is always kept. -/
theorem keeps_of_le {key : RouteKey} (h : t.clusterEpoch ≤ key.1) : t.Keeps key :=
  .inr ((Nat.sub_le _ _).trans h)

variable (h : Run controlPlaneStep Ok .empty past t)
include h

theorem routeInv_of_run : ∀ r ∈ t :: past, r.RouteInv :=
  h.related (R := fun r _ => r.RouteInv) routeInv_empty (fun hs _ hnext => routeInv_step hnext hs)
    id fun hr _ _ _ => hr

theorem precedes_of_run : ∀ r ∈ t :: past, r.Precedes t :=
  h.related (I := fun _ => True) trivial (fun _ _ _ => trivial) (fun _ => .refl _)
    fun hprior _ _ hnext => hprior.trans (precedes_controlPlaneStep hnext)

variable (hu : u ∈ t :: past)
  (hkeeps : ∀ r ∈ t :: past, u.clusterEpoch < r.clusterEpoch → r.Keeps (u.clusterEpoch, pgId))
include hu hkeeps

/-- **The route of a key that was kept in every later epoch** is what the history tells. -/
theorem routeAt_of_run :
    t.routeAt (u.clusterEpoch, pgId) = u.pgs[pgId]?.map ofRecord := by
  induction h with
  | refl =>
    rw [mem_singleton.mp hu]
    exact routeAt_current routeInv_empty.order pgId
  | @tail past t v event prior ok next ih =>
    rcases mem_cons.mp hu with rfl | hu
    · exact routeAt_current (routeInv_of_run (prior.tail ok next) _ mem_cons_self).order pgId
    · have ht : t.RouteInv := routeInv_of_run prior t mem_cons_self
      have hle : u.clusterEpoch ≤ t.clusterEpoch := (precedes_of_run prior u hu).epoch
      have hkept : v.Keeps (u.clusterEpoch, pgId) := by
        rcases lt_or_ge u.clusterEpoch v.clusterEpoch with hlt | hge
        · exact hkeeps v mem_cons_self hlt
        · exact keeps_of_le hge
      obtain ⟨moved, hrecorded⟩ := stepRecorded next
      rw [hrecorded.routeAt ht.order (pgsKeyed_of_keyed ht.keyed) hle hkept]
      exact ih hu fun r hr => hkeeps r (mem_cons_of_mem _ hr)

/-- The entry of a kept epoch names the nodes of a snapshot of that epoch. -/
theorem nodesAtEpoch_of_run
    (hlt : u.clusterEpoch < t.clusterEpoch) :
    ∃ w ∈ t :: past, w.clusterEpoch = u.clusterEpoch ∧
      t.nodesAtEpoch u.clusterEpoch = some w.nodes.keys := by
  induction h with
  | refl =>
    rw [mem_singleton.mp hu] at hlt
    exact absurd hlt (lt_irrefl _)
  | @tail past t v event prior ok next ih =>
    have hu : u ∈ t :: past := by
      rcases mem_cons.mp hu with rfl | hu
      · exact absurd hlt (lt_irrefl _)
      · exact hu
    have ht : t.RouteInv := routeInv_of_run prior t mem_cons_self
    obtain ⟨moved, hrecorded⟩ := stepRecorded next
    obtain ⟨hearlier, hended⟩ :=
      hrecorded.nodesAtEpoch ht.order (hkeeps v mem_cons_self hlt)
    rcases (precedes_of_run prior u hu).epoch.lt_or_eq with hbefore | hsame
    · obtain ⟨w, hw, hepoch, hnodes⟩ := ih hu (fun r hr => hkeeps r (mem_cons_of_mem _ hr)) hbefore
      exact ⟨w, mem_cons_of_mem _ hw, hepoch, (hearlier hbefore).trans hnodes⟩
    · exact ⟨t, mem_cons_of_mem _ mem_cons_self, hsame.symm,
        hended hsame (hsame ▸ hlt)⟩

/-- **A kept route is reconstructed exactly.** -/
theorem reconstructed_of_kept
    {record : PgControlRecord} (hrecord : u.pgs[pgId]? = some record) :
    ∃ snapshot, t.reconstructedPgRouteAtEpoch pgId u.clusterEpoch = .ok snapshot ∧
      snapshot.Shows u.clusterEpoch (.ofRecord record) := by
  have ht : t.RouteInv := routeInv_of_run h t mem_cons_self
  have hroute : t.routeAt (u.clusterEpoch, pgId) = some (.ofRecord record) := by
    rw [routeAt_of_run h hu hkeeps, hrecord]
    rfl
  have hretained : u.clusterEpoch = t.clusterEpoch ∨ ∃ nodes,
      t.nodesAtEpoch u.clusterEpoch = some nodes ∧
        (ofRecord record).Routable nodes := by
    rcases (precedes_of_run h u hu).epoch.lt_or_eq with hlt | heq
    · obtain ⟨w, hw, hepoch, hnodes⟩ := nodesAtEpoch_of_run h hu hkeeps hlt
      -- the snapshot whose nodes are recorded has the same route
      have hsame : t.routeAt (w.clusterEpoch, pgId) =
          w.pgs[pgId]?.map ofRecord := routeAt_of_run h hw (hepoch ▸ hkeeps)
      rw [hepoch, hroute, eq_comm, Option.map_eq_some_iff] at hsame
      obtain ⟨other, hother, heq⟩ := hsame
      exact .inr ⟨_, hnodes, heq ▸ (routeInv_of_run h w hw).routable pgId other hother⟩
    · exact .inl heq
  obtain ⟨snapshot, hsnapshot⟩ := reconstructed_ok ht hroute hretained
  obtain ⟨route, hroute', hshows⟩ :=
    shows_of_reconstructed ht.order (pgsKeyed_of_keyed ht.keyed) hsnapshot
  cases hroute.symm.trans hroute'
  exact ⟨snapshot, hsnapshot, hshows⟩

omit h hu hkeeps

/-- **History completeness.**  The snapshots `u` and `t` belong to a run of commands and restarts,
`u` not after `t`, and in every snapshot since the epoch of `u` ended the current state protects
the route of the PG in that epoch.  Then the route of the PG in `u` is reconstructed in `t`, with
its state, acting set, primary and transfer fields, and the history tells the whole record of it,
proof floors included. -/
theorem protected_route_reconstructed (h : Run controlPlaneStep Ok .empty past t)
    (hu : u ∈ t :: past) {record : PgControlRecord} (hrecord : u.pgs[pgId]? = some record)
    (hprotected : ∀ r ∈ t :: past, u.clusterEpoch < r.clusterEpoch →
      (u.clusterEpoch, pgId) ∈ r.historyProtection) :
    (∃ snapshot, t.reconstructedPgRouteAtEpoch pgId u.clusterEpoch = .ok snapshot ∧
        snapshot.Shows u.clusterEpoch (.ofRecord record)) ∧
      historicalPgRouteRecordAtEpoch t.history t.pgs pgId u.clusterEpoch =
        some (.ofRecord record) := by
  have hkeeps : ∀ r ∈ t :: past, u.clusterEpoch < r.clusterEpoch →
      r.Keeps (u.clusterEpoch, pgId) := fun r hr hlt => .inl (hprotected r hr hlt)
  refine ⟨reconstructed_of_kept h hu hkeeps hrecord, ?_⟩
  have hroute := routeAt_of_run h hu hkeeps
  rw [hrecord] at hroute
  exact hroute

/-- **History soundness, for kept keys.**  What is reconstructed for an epoch of the run is the
route that the PG had in that epoch, when since then every snapshot has protected the key or had
the epoch in its ordinary window. -/
theorem kept_route_exact (h : Run controlPlaneStep Ok .empty past t) (hu : u ∈ t :: past)
    (hkeeps : ∀ r ∈ t :: past, u.clusterEpoch < r.clusterEpoch → r.Keeps (u.clusterEpoch, pgId))
    {snapshot : PgRouteSnapshot}
    (hsnapshot : t.reconstructedPgRouteAtEpoch pgId u.clusterEpoch = .ok snapshot) :
    ∃ record, u.pgs[pgId]? = some record ∧ snapshot.Shows u.clusterEpoch (.ofRecord record) := by
  have ht : t.RouteInv := routeInv_of_run h t mem_cons_self
  obtain ⟨route, hroute, hshows⟩ :=
    shows_of_reconstructed ht.order (pgsKeyed_of_keyed ht.keyed) hsnapshot
  rw [routeAt_of_run h hu hkeeps] at hroute
  obtain ⟨record, hrecord, rfl⟩ := Option.map_eq_some_iff.mp hroute
  exact ⟨record, hrecord, hshows⟩

/-! Two PGs on one node.  In epoch 4 the node refers to the route of PG 1, and then an operator
degrades the PGs. -/

def scanReport (observedEpoch scanGeneration : Nat)
    (references : PgClusterMapHistoryRouteReferences) : ControlPlaneEvent :=
  .command (.recordNodeHeartbeat ⟨1, 1, "a", observedEpoch, 10000, scanGeneration, references, []⟩
    100000 110000 none)

def referenceEvents : List ControlPlaneEvent :=
  [.command (.bootstrapInitialClusterMap [(1, "a")] [0, 1]),
    .command (.setNodeMembership 9 .active),
    scanReport 3 1 ∅, scanReport 4 2 (insert ⟨.livePlacement, 4, 1⟩ ∅)]

def degradeEvents : List ControlPlaneEvent :=
  [.command (.setPgState 0 .degraded), .command (.setPgState 1 .degraded)]

theorem protected_route_reconstructed_after_change :
    ∃ past t, Run controlPlaneStep (fun _ _ => True) .empty past t ∧
      ∃ u ∈ t :: past, ∃ record, u.pgs[1]? = some record ∧ record.state = .peering ∧
        t.pgs[1]?.map (·.state) = some .degraded ∧
        ∃ snapshot, t.reconstructedPgRouteAtEpoch 1 u.clusterEpoch = .ok snapshot ∧
          snapshot.Shows u.clusterEpoch (.ofRecord record) := by
  refine exists_run_of_replay_imp (referenceEvents ++ degradeEvents) (P := fun past t =>
    t.pgs[1]?.map (·.state) = some .degraded ∧
    ∃ u ∈ t :: past, (∃ record ∈ u.pgs[1]?, record.state = .peering) ∧ u.clusterEpoch = 4 ∧
      ∀ r ∈ t :: past, u.clusterEpoch < r.clusterEpoch →
        (u.clusterEpoch, 1) ∈ r.historyProtection) (by decide +kernel) ?_
  rintro past t h ⟨hdegraded, u, hu, ⟨record, hrecord, hpeering⟩, -, hprotected⟩
  exact ⟨u, hu, record, hrecord, hpeering, hdegraded,
    (protected_route_reconstructed h hu hrecord hprotected).1⟩

theorem kept_route_exact_after_change :
    ∃ past t, Run controlPlaneStep (fun _ _ => True) .empty past t ∧
      ∃ u ∈ t :: past, u.clusterEpoch = 4 ∧ t.clusterEpoch = 6 ∧
        ∃ snapshot, t.reconstructedPgRouteAtEpoch 0 u.clusterEpoch = .ok snapshot ∧
          ∃ record, u.pgs[0]? = some record ∧ snapshot.Shows u.clusterEpoch (.ofRecord record) := by
  refine exists_run_of_replay_imp (referenceEvents ++ degradeEvents) (P := fun past t =>
    t.clusterEpoch = 6 ∧ ∃ u ∈ t :: past, u.clusterEpoch = 4 ∧
      (t.reconstructedPgRouteAtEpoch 0 u.clusterEpoch).toOption.isSome = true ∧
      ∀ r ∈ t :: past, u.clusterEpoch < r.clusterEpoch →
        r.clusterEpoch - clusterMapHistoryLimit ≤ u.clusterEpoch) (by decide +kernel) ?_
  rintro past t h ⟨hepoch, u, hu, hu4, hok, hwindow⟩
  cases hsnapshot : t.reconstructedPgRouteAtEpoch 0 u.clusterEpoch with
  | error e => simp [hsnapshot, Except.toOption] at hok
  | ok snapshot =>
    exact ⟨u, hu, hu4, hepoch, snapshot, hsnapshot,
      kept_route_exact h hu (fun r hr hlt => .inr (hwindow r hr hlt)) hsnapshot⟩

/-! After the events above PG 0 is degraded, in epoch 5.  The membership of node 9, which holds no
PG, then goes back and forth: the epoch advances and no route changes. -/

/-- The state after `events`, an event that is rejected being dropped. -/
def stateAfter (events : List ControlPlaneEvent) : ClusterControlSnapshot :=
  events.foldl (fun s event => (controlPlaneStep s event).getD s) .empty

def degradedEvents : List ControlPlaneEvent :=
  referenceEvents ++ [.command (.setPgState 0 .degraded)]

def toggleMembership (n : Nat) : ControlPlaneEvent :=
  .command (.setNodeMembership 9 (if n % 2 = 0 then .draining else .active))

/-- The state after `n` membership changes, as long as nothing is pruned. -/
def toggledState (n : Nat) : ClusterControlSnapshot :=
  let base := stateAfter degradedEvents
  { base with
    clusterEpoch := base.clusterEpoch + n
    nodes := (stateAfter (degradedEvents ++ (List.range (n % 2)).map toggleMembership)).nodes
    history := base.history ++ (List.range n).map fun i =>
      ⟨base.authorityIncarnation, base.clusterEpoch + i, base.nodes.keys, [], []⟩ }

/-- Sixteen membership changes lead from `toggledState n` to a state that meets `P`. -/
def ToggleBlock (n : Nat) (P : ClusterControlSnapshot → Prop) : Prop :=
  ∃ r ∈ replay controlPlaneStep (fun _ _ => True) [] (toggledState n)
    ((List.range 16).map toggleMembership), P r.2

instance (n : Nat) (P : ClusterControlSnapshot → Prop) [DecidablePred P] :
    Decidable (ToggleBlock n P) := by
  unfold ToggleBlock
  infer_instance

theorem toggleBlock_next (k : Nat) (hk : k < 15) :
    ToggleBlock (16 * k) (· = toggledState (16 * (k + 1))) := by
  -- one evaluation for each block, so that none of them has the whole run in memory
  interval_cases k <;> decide +kernel

theorem toggledState_reachable
    (hrun : Run controlPlaneStep (fun _ _ => True) u past (toggledState 0)) (k : Nat)
    (hk : k ≤ 15) :
    ∃ later, Run controlPlaneStep (fun _ _ => True) u later (toggledState (16 * k)) := by
  induction k with
  | zero => exact ⟨past, hrun⟩
  | succ k ih =>
    obtain ⟨later, hlater⟩ := ih (by omega)
    obtain ⟨⟨block, t⟩, hblock, rfl⟩ := toggleBlock_next k (by omega)
    exact ⟨_, hlater.trans (Run.refl.of_replay hblock)⟩

/-- **A route of another epoch is returned.**  In epoch 4 PG 0 was Peering and it is Degraded from
epoch 5 on.  Once epoch 4 has left the ordinary window its entry is retained for PG 1 only, and the
lookup of PG 0 at epoch 4 answers with the Degraded route. -/
theorem unprotected_route_confused :
    ∃ before u, Run controlPlaneStep (fun _ _ => True) .empty before u ∧ u.clusterEpoch = 4 ∧
      u.pgs[0]?.map (·.state) = some .peering ∧
      ∃ later t, Run controlPlaneStep (fun _ _ => True) u later t ∧
        (t.reconstructedPgRouteAtEpoch 0 4).toOption.map (fun snapshot => snapshot.state) =
          some .degraded := by
  have hlast : ToggleBlock (16 * 15) fun t =>
      (t.reconstructedPgRouteAtEpoch 0 4).toOption.map (fun snapshot => snapshot.state) =
        some .degraded := by
    decide +kernel
  refine exists_run_of_replay_imp referenceEvents (P := fun _ u =>
    u.clusterEpoch = 4 ∧ u.pgs[0]?.map (·.state) = some .peering ∧
    ∃ r ∈ replay controlPlaneStep (fun _ _ => True) [] u [.command (.setPgState 0 .degraded)],
      r.2 = toggledState 0) (by decide +kernel) ?_
  rintro before u - ⟨hepoch, hstate, ⟨degraded, d⟩, hdegraded, rfl⟩
  obtain ⟨later, hlater⟩ := toggledState_reachable (Run.refl.of_replay hdegraded) 15 le_rfl
  obtain ⟨⟨block, t⟩, hblock, hconfused⟩ := hlast
  exact ⟨hepoch, hstate, _, t, hlater.trans (Run.refl.of_replay hblock), hconfused⟩

end Runs

end Argmin.ControlPlane
