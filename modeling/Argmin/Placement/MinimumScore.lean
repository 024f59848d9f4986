import Argmin.Lib.CappedGreedy
import Argmin.Placement.Placer
import Mathlib.Algebra.Order.Ring.Rat

/-!
# A placement is the minimum-score choice under the caps

The scan of `Placer.place` keeps a best choice (`Greedy.Chosen`) from the active nodes it has met,
for every constraint that keeps the source's contract: a fixed group for each node and a fixed cap
for each group (`PlacementConstraint.Capped`).

* `levelCap_capped`, `none_capped` — the constraints of the source keep the contract;
* `findWorst_spec`, `findWorstInGroup_spec`, `GroupCounts` — what the helpers compute;
* `Buffer.Exact.offer`, `group_counters_exact` — one iteration, and any number of them, keep the
  counters exact, whatever is scanned;
* `Tracks.offer`, `tracks_foldl` — one node of the scan, and the whole scan;
* `place_minimum_score` — when `place` succeeds, and which nodes it returns.
-/

namespace Argmin.Placement

open Fallible List ClusterMap Nat
open Greedy

variable {gc : List (UInt64 × Nat)} {i : Nat} {w : NodeInfo} {g : UInt64}

/-! ### Constraints that keep the contract -/

/-- **The contract of a constraint**: it admits a node to any slot while the node's group is below
its cap, and else only to the slots of the group. -/
def PlacementConstraint.Capped (constraint : PlacementConstraint) (cap : UInt64 → Option Nat) :
    Prop :=
  ∀ count node, constraint.admitFn count node =
    if room (cap (constraint.groupKey node)) count then .global else .constrained

/-- The group of the nodes without the level has no cap. -/
def levelCaps (max : Nat) (gk : UInt64) : Option Nat := if gk = u64Max then none else some max

theorem levelCap_capped (level : Level) (max : Nat) :
    (PlacementConstraint.levelCap level max).Capped (levelCaps max) := by
  intro count node
  cases hvalue : node.location.level level with
  | none =>
    simp only [PlacementConstraint.levelCap, levelCaps, hvalue, Option.isNone_none, if_pos,
      Option.map_none, Option.getD_none]
    rfl
  | some value =>
    have hne : value.toUInt64 ≠ u64Max := by
      intro heq
      have hnat := congrArg UInt64.toNat heq
      rw [UInt32.toNat_toUInt64] at hnat
      have := value.toNat_lt
      have hmax : u64Max.toNat = 18446744073709551615 := rfl
      omega
    simp only [PlacementConstraint.levelCap, levelCaps, hvalue, Option.map_some,
      Option.getD_some, Option.isNone_some, if_neg hne, room, Option.all_some]
    rw [if_neg Bool.false_ne_true]
    by_cases hlt : count < max
    · rw [if_pos hlt, if_pos (decide_eq_true hlt)]
    · rw [if_neg hlt, if_neg fun h => hlt (of_decide_eq_true h)]

theorem none_capped : PlacementConstraint.none.Capped fun _ => none := fun _ _ => rfl

/-! ### The counts of the groups -/

/-- What the count list says of the groups of the candidates. -/
structure GroupCounts (gc : List (UInt64 × Nat)) (groups : List UInt64) : Prop where
  get : ∀ gk, gcGet gc gk = groups.count gk
  distinct : (gc.map Prod.fst).Nodup
  positive : ∀ entry ∈ gc, 0 < entry.2

theorem gcGet_gcInc (gk g : UInt64) :
    gcGet (gcInc gc gk) g = gcGet gc g + if gk = g then 1 else 0 := by
  induction gc with
  | nil =>
    rw [gcInc, gcGet, gcGet, zero_add]
    rfl
  | cons entry rest ih =>
    obtain ⟨key, count⟩ := entry
    rw [gcInc]
    by_cases hkey : key = gk
    · subst hkey
      rw [if_pos rfl, gcGet, gcGet]
      split <;> omega
    · rw [if_neg hkey, gcGet, gcGet, ih]
      by_cases hg : key = g
      · subst hg
        rw [if_pos rfl, if_pos rfl, if_neg (Ne.symm hkey), add_zero]
      · rw [if_neg hg, if_neg hg]

theorem gcGet_of_not_mem (h : g ∉ gc.map Prod.fst) : gcGet gc g = 0 := by
  induction gc with
  | nil => rfl
  | cons entry rest ih =>
    obtain ⟨key, count⟩ := entry
    rw [map_cons, mem_cons, not_or] at h
    rw [gcGet, if_neg (Ne.symm h.1)]
    exact ih h.2

theorem gcGet_of_mem {n : Nat}
    (hdistinct : (gc.map Prod.fst).Nodup) (h : (g, n) ∈ gc) : gcGet gc g = n := by
  induction gc with
  | nil => exact absurd h not_mem_nil
  | cons entry rest ih =>
    obtain ⟨key, count⟩ := entry
    rw [map_cons, nodup_cons] at hdistinct
    rcases mem_cons.mp h with heq | hrest
    · cases heq
      rw [gcGet, if_pos rfl]
    · have hne : key ≠ g := by
        rintro rfl
        exact hdistinct.1 (mem_map.mpr ⟨_, hrest, rfl⟩)
      rw [gcGet, if_neg hne]
      exact ih hdistinct.2 hrest

theorem gcGet_gcDec (gk g : UInt64) (hdistinct : (gc.map Prod.fst).Nodup) :
    gcGet (gcDec gc gk) g = gcGet gc g - if gk = g then 1 else 0 := by
  induction gc with
  | nil => rw [gcDec, gcGet, Nat.zero_sub]
  | cons entry rest ih =>
    obtain ⟨key, count⟩ := entry
    rw [map_cons, nodup_cons] at hdistinct
    rw [gcDec]
    by_cases hkey : key = gk
    · subst hkey
      rw [if_pos rfl, gcGet]
      by_cases hg : key = g
      · subst hg
        rw [if_pos rfl, if_pos rfl]
        by_cases hlast : count ≤ 1
        · rw [if_pos hlast, gcGet_of_not_mem hdistinct.1]
          omega
        · rw [if_neg hlast, gcGet, if_pos rfl]
      · rw [if_neg hg, if_neg hg, Nat.sub_zero]
        by_cases hlast : count ≤ 1
        · rw [if_pos hlast]
        · rw [if_neg hlast, gcGet, if_neg hg]
    · rw [if_neg hkey, gcGet, gcGet, ih hdistinct.2]
      by_cases hg : key = g
      · subst hg
        rw [if_pos rfl, if_pos rfl, if_neg (Ne.symm hkey), Nat.sub_zero]
      · rw [if_neg hg, if_neg hg]

theorem keys_gcInc (gk : UInt64) : (gcInc gc gk).map Prod.fst =
      if gk ∈ gc.map Prod.fst then gc.map Prod.fst else gc.map Prod.fst ++ [gk] := by
  induction gc with
  | nil => rfl
  | cons entry rest ih =>
    obtain ⟨key, count⟩ := entry
    rw [gcInc]
    by_cases hkey : key = gk
    · subst hkey
      rw [if_pos rfl, map_cons, map_cons, if_pos mem_cons_self]
    · rw [if_neg hkey, map_cons, map_cons, ih]
      by_cases hmem : gk ∈ rest.map Prod.fst
      · rw [if_pos hmem, if_pos (mem_cons_of_mem _ hmem)]
      · rw [if_neg hmem, if_neg (not_mem_cons_of_ne_of_not_mem (Ne.symm hkey) hmem),
          cons_append]

theorem keys_gcDec_sublist (gk : UInt64) :
    ((gcDec gc gk).map Prod.fst).Sublist (gc.map Prod.fst) := by
  induction gc with
  | nil => exact List.Sublist.refl _
  | cons entry rest ih =>
    obtain ⟨key, count⟩ := entry
    rw [gcDec]
    split
    · split
      · exact sublist_cons_self ..
      · exact List.Sublist.refl _
    · exact ih.cons_cons key

/-- A replacement at a position, up to the order. -/
theorem perm_of_getElem? {α : Type} {l : List α} {w : α} (h : l[i]? = some w) (a : α) :
    l.Perm (w :: l.eraseIdx i) ∧ (l.set i a).Perm (a :: l.eraseIdx i) := by
  obtain ⟨hi, rfl⟩ := List.getElem?_eq_some_iff.mp h
  exact ⟨(List.getElem_cons_eraseIdx_perm hi).symm, List.set_perm_cons_eraseIdx hi a⟩

namespace GroupCounts

variable {gc : List (UInt64 × Nat)} {groups : List UInt64} {gk : UInt64}

theorem nil : GroupCounts [] [] := ⟨fun _ => rfl, nodup_nil, fun _ h => absurd h (by simp)⟩

theorem perm {groups' : List UInt64} (h : GroupCounts gc groups) (hperm : groups.Perm groups') :
    GroupCounts gc groups' :=
  { h with get := fun g => (h.get g).trans (hperm.count_eq g) }

theorem inc (h : GroupCounts gc groups) : GroupCounts (gcInc gc gk) (gk :: groups) where
  get g := by
    rw [gcGet_gcInc, h.get, count_cons]
    simp only [beq_iff_eq]
  distinct := by
    rw [keys_gcInc]
    split
    · exact h.distinct
    · next hmem => exact nodup_append.mpr ⟨h.distinct, nodup_singleton gk, by
        intro a ha b hb heq
        rw [mem_singleton] at hb
        exact hmem (hb ▸ heq ▸ ha)⟩
  positive := by
    have hpos := h.positive
    clear h
    induction gc with
    | nil => simp [gcInc]
    | cons entry rest ih =>
      obtain ⟨key, count⟩ := entry
      rw [gcInc]
      rw [forall_mem_cons] at hpos
      split
      · exact forall_mem_cons.mpr ⟨succ_pos _, hpos.2⟩
      · exact forall_mem_cons.mpr ⟨hpos.1, ih hpos.2⟩

theorem dec (h : GroupCounts gc (gk :: groups)) : GroupCounts (gcDec gc gk) groups where
  get g := by
    rw [gcGet_gcDec gk g h.distinct, h.get, count_cons]
    simp only [beq_iff_eq, Nat.add_sub_cancel_right]
  distinct := (keys_gcDec_sublist gk).nodup h.distinct
  positive := by
    have hpos := h.positive
    clear h
    induction gc with
    | nil => exact hpos
    | cons entry rest ih =>
      obtain ⟨key, count⟩ := entry
      rw [gcDec]
      rw [forall_mem_cons] at hpos
      split
      · split
        · exact hpos.2
        · exact forall_mem_cons.mpr ⟨by dsimp only; omega, hpos.2⟩
      · exact forall_mem_cons.mpr ⟨hpos.1, ih hpos.2⟩

/-- The list has one entry for each group, with its count. -/
theorem mem_iff (h : GroupCounts gc groups) {n : Nat} :
    (gk, n) ∈ gc ↔ 0 < n ∧ n = groups.count gk := by
  rw [← h.get]
  constructor
  · intro hmem
    rw [gcGet_of_mem h.distinct hmem]
    exact ⟨h.positive _ hmem, rfl⟩
  · rintro ⟨hpos, rfl⟩
    have hkey : gk ∈ gc.map Prod.fst := by
      by_contra hnot
      rw [gcGet_of_not_mem hnot] at hpos
      exact lt_irrefl 0 hpos
    obtain ⟨⟨key, found⟩, hmem, rfl⟩ := mem_map.mp hkey
    rw [gcGet_of_mem h.distinct hmem]
    exact hmem

section Buffered

variable {α : Type} {group : α → UInt64} {l : List α} (h : GroupCounts gc (l.map group))

include h

theorem append (a : α) : GroupCounts (gcInc gc (group a)) ((l ++ [a]).map group) := by
  rw [map_append]
  exact h.inc.perm (perm_append_singleton ..).symm

theorem set {w : α} (hw : l[i]? = some w) (a : α) :
    GroupCounts (gcInc (gcDec gc (group w)) (group a)) ((l.set i a).map group) := by
  obtain ⟨hold, hset⟩ := perm_of_getElem? hw a
  have hcounts := h.perm (hold.map group)
  exact hcounts.dec.inc.perm (hset.map group).symm

theorem setSame {w a : α} (hw : l[i]? = some w) (hsame : group w = group a) :
    GroupCounts gc ((l.set i a).map group) := by
  obtain ⟨hold, hset⟩ := perm_of_getElem? hw a
  have hcounts := h.perm (hold.map group)
  rw [map_cons, hsame] at hcounts
  exact hcounts.perm (hset.map group).symm

end Buffered

/-- **The count list is no longer than the buffer**, so that its fixed array has room. -/
theorem length_le (h : GroupCounts gc groups) : gc.length ≤ groups.length := by
  have hsub : gc.map Prod.fst ⊆ groups := by
    intro g hg
    obtain ⟨entry, hentry, rfl⟩ := mem_map.mp hg
    obtain ⟨hpos, hcount⟩ := h.mem_iff.mp hentry
    exact count_pos_iff.mp (hcount ▸ hpos)
  have hlen := (h.distinct.subperm hsub).length_le
  rw [length_map] at hlen
  exact hlen

end GroupCounts

/-! ### The worst candidate -/

/-- What each position of a scan with positions keeps, the whole scan keeps. -/
theorem foldl_zipIdx_induction {α β : Type} {f : β → α × Nat → β} {P : List α → β → Prop}
    (step : ∀ done a b, P done b → P (done ++ [a]) (f b (a, done.length))) :
    ∀ (l done : List α) (b : β), P done b →
      P (done ++ l) ((l.zipIdx done.length).foldl f b)
  | [], done, b, h => by
    rw [append_nil]
    exact h
  | a :: l, done, b, h => by
    have hrest := foldl_zipIdx_induction step l (done ++ [a]) _ (step done a b h)
    rw [length_append, length_singleton, append_assoc] at hrest
    exact hrest

theorem forall_mem_concat {α : Type} {p : α → Prop} {l : List α} {a : α} (h : ∀ b ∈ l, p b)
    (ha : p a) : ∀ b ∈ l ++ [a], p b :=
  forall_mem_append.mpr ⟨h, forall_mem_singleton.mpr ha⟩

theorem getElem?_concat {α : Type} {l : List α} {a w : α} {i : Nat} (h : l[i]? = some w) :
    (l ++ [a])[i]? = some w :=
  (List.getElem?_append_left (List.getElem?_eq_some_iff.mp h).1).trans h

section Scores

variable {S : Type} [LinearOrder S] {cands : List (Candidate S)} {gk : UInt64}

theorem findWorst_spec (hne : cands ≠ []) :
    ∃ worst, cands[findWorst cands]? = some worst ∧ ∀ b ∈ cands, b.score ≤ worst.score := by
  obtain ⟨first, rest, rfl⟩ := exists_cons_of_ne_nil hne
  -- the score that the scan carries is that of the candidate at the position it carries
  have hscan := foldl_zipIdx_induction
    (f := fun (worst : Nat × S) (p : Candidate S × Nat) =>
      if worst.2 < p.1.score then (p.2, p.1.score) else worst)
    (P := fun done worst => ∃ w, done[worst.1]? = some w ∧ w.score = worst.2 ∧
      ∀ b ∈ done, b.score ≤ worst.2)
    ?_ rest [first] (0, first.score) ⟨first, rfl, rfl, by simp⟩
  · obtain ⟨worst, hget, hscore, hle⟩ := hscan
    exact ⟨worst, hget, fun b hb => (hle b hb).trans hscore.ge⟩
  · intro done a worst ⟨w, hget, hscore, hle⟩
    by_cases hlt : worst.2 < a.score
    · rw [if_pos hlt]
      refine ⟨a, getElem?_concat_length .., rfl, forall_mem_concat (fun b hb => ?_) le_rfl⟩
      exact (hle b hb).trans hlt.le
    · rw [if_neg hlt]
      exact ⟨w, getElem?_concat hget, hscore, forall_mem_concat hle (not_lt.mp hlt)⟩

theorem findWorstInGroup_spec :
    (findWorstInGroup cands gk = none ∧ ∀ b ∈ cands, b.groupKey ≠ gk) ∨
    ∃ i worst, findWorstInGroup cands gk = some i ∧ cands[i]? = some worst ∧
      worst.groupKey = gk ∧ ∀ b ∈ cands, b.groupKey = gk → b.score ≤ worst.score := by
  have hscan := foldl_zipIdx_induction
    (f := fun (worst : Option Nat × WithBot S) (p : Candidate S × Nat) =>
      if p.1.groupKey = gk ∧ worst.2 < (p.1.score : WithBot S) then (some p.2, p.1.score)
      else worst)
    (P := fun done worst =>
      (worst.1 = none ∧ worst.2 = ⊥ ∧ ∀ b ∈ done, b.groupKey ≠ gk) ∨
      ∃ i w, worst.1 = some i ∧ done[i]? = some w ∧ w.groupKey = gk ∧
        worst.2 = (w.score : WithBot S) ∧ ∀ b ∈ done, b.groupKey = gk → b.score ≤ w.score)
    ?_ cands [] (none, ⊥) (.inl ⟨rfl, rfl, by simp⟩)
  · rcases hscan with ⟨hnone, -, hno⟩ | ⟨i, w, hi, hget, hgk, -, hle⟩
    · exact .inl ⟨hnone, hno⟩
    · exact .inr ⟨i, w, hi, hget, hgk, hle⟩
  · intro done a worst hworst
    by_cases hgk : a.groupKey = gk
    · by_cases hlt : worst.2 < (a.score : WithBot S)
      · rw [if_pos ⟨hgk, hlt⟩]
        refine .inr ⟨done.length, a, rfl, getElem?_concat_length .., hgk, rfl,
          forall_mem_concat (fun b hb hbk => ?_) fun _ => le_rfl⟩
        rcases hworst with ⟨-, -, hno⟩ | ⟨i, w, -, -, -, hscore, hle⟩
        · exact absurd hbk (hno b hb)
        · rw [hscore, WithBot.coe_lt_coe] at hlt
          exact (hle b hb hbk).trans hlt.le
      · rw [if_neg fun h => hlt h.2]
        rcases hworst with ⟨-, hbot, -⟩ | ⟨i, w, hi, hget, hwk, hscore, hle⟩
        · rw [hbot] at hlt
          exact absurd (WithBot.bot_lt_coe _) hlt
        · rw [hscore, WithBot.coe_lt_coe, not_lt] at hlt
          exact .inr ⟨i, w, hi, getElem?_concat hget, hwk, hscore,
            forall_mem_concat hle fun _ => hlt⟩
    · rw [if_neg fun h => hgk h.1]
      rcases hworst with ⟨hnone, hbot, hno⟩ | ⟨i, w, hi, hget, hwk, hscore, hle⟩
      · exact .inl ⟨hnone, hbot, forall_mem_concat hno hgk⟩
      · exact .inr ⟨i, w, hi, getElem?_concat hget, hwk, hscore,
          forall_mem_concat hle fun hbk => absurd hbk hgk⟩

/-! ### One node of the scan -/

variable (constraint : PlacementConstraint) (score : NodeInfo → S) (cap : UInt64 → Option Nat)
  (total : Nat)

/-- The candidate that the scan makes of a node. -/
def candidate (node : NodeInfo) : Candidate S := ⟨score node, node.id, constraint.groupKey node⟩

/-- **What the buffer is after the nodes `seen`**: the candidates of a best choice from them. -/
structure Tracks (seen chosen : List NodeInfo) (buffer : Buffer S) : Prop where
  cands : buffer.cands = chosen.map (candidate constraint score)
  counts : GroupCounts buffer.gc (chosen.map constraint.groupKey)
  best : Chosen constraint.groupKey score cap total chosen seen

variable {constraint score cap total} {placer : Placer} {seen chosen : List NodeInfo}
  {buffer : Buffer S} {node : NodeInfo}

namespace Tracks

variable (h : Tracks constraint score cap total seen chosen buffer)

include h

theorem gcGet_eq (g : UInt64) : gcGet buffer.gc g = countIn constraint.groupKey chosen g :=
  h.counts.get g

/-- The candidate at a position is that of the chosen node at the position. -/
theorem getElem_chosen {worst : Candidate S} (hget : buffer.cands[i]? = some worst) :
    ∃ w, chosen[i]? = some w ∧ worst = candidate constraint score w := by
  rw [h.cands, getElem?_map, Option.map_eq_some_iff] at hget
  obtain ⟨w, hw, rfl⟩ := hget
  exact ⟨w, hw, rfl⟩

theorem forall_chosen {P : Candidate S → Prop} (hall : ∀ b ∈ buffer.cands, P b) :
    ∀ b ∈ chosen, P (candidate constraint score b) := by
  intro b hb
  apply hall
  rw [h.cands]
  exact mem_map_of_mem hb

variable (hnew : node ∉ seen)

include hnew

theorem append
    (hroom : room (cap (constraint.groupKey node))
      (countIn constraint.groupKey chosen (constraint.groupKey node)) = true)
    (hlt : buffer.cands.length < total) :
    Tracks constraint score cap total (node :: seen) (chosen ++ [node])
      ⟨buffer.cands ++ [candidate constraint score node],
        gcInc buffer.gc (constraint.groupKey node)⟩ where
  cands := by rw [h.cands, map_append, map_singleton]
  counts := h.counts.append node
  best := by
    rw [h.cands, length_map] at hlt
    exact (h.best.add hnew hroom hlt).perm (perm_append_singleton ..).symm

theorem replace (hw : chosen[i]? = some w) (hroom : room (cap (constraint.groupKey node))
      (countIn constraint.groupKey chosen (constraint.groupKey node)) = true)
    (hfull : total ≤ chosen.length) (hworst : ∀ b ∈ chosen, score b ≤ score w)
    (hbetter : score node < score w) :
    Tracks constraint score cap total (node :: seen) (chosen.set i node)
      ⟨buffer.cands.set i (candidate constraint score node),
        gcInc (gcDec buffer.gc (constraint.groupKey w)) (constraint.groupKey node)⟩ := by
  obtain ⟨hold, hset⟩ := perm_of_getElem? hw node
  refine ⟨?_, h.counts.set hw node, ?_⟩
  · rw [h.cands, map_set]
  · rw [countIn_perm hold] at hroom
    have hlen := h.best.size
    refine ((h.best.perm hold).replaceWorst hnew hroom ?_ ?_ hbetter).perm hset.symm
    · rw [← hold.length_eq]
      omega
    · intro b hb
      exact hworst b (hold.mem_iff.mpr (mem_cons_of_mem w hb))

theorem replaceSame (hw : chosen[i]? = some w)
    (hsame : constraint.groupKey w = constraint.groupKey node)
    (hroom : room (cap (constraint.groupKey node))
      (countIn constraint.groupKey chosen (constraint.groupKey node)) = false)
    (hworst : ∀ b ∈ chosen, constraint.groupKey b = constraint.groupKey node →
      score b ≤ score w)
    (hbetter : score node < score w) :
    Tracks constraint score cap total (node :: seen) (chosen.set i node)
      ⟨buffer.cands.set i (candidate constraint score node), buffer.gc⟩ := by
  obtain ⟨hold, hset⟩ := perm_of_getElem? hw node
  refine ⟨?_, h.counts.setSame hw hsame, ?_⟩
  · rw [h.cands, map_set]
  · rw [countIn_perm hold] at hroom
    refine ((h.best.perm hold).replaceInGroup hnew hsame hroom ?_ hbetter).perm hset.symm
    intro b hb
    exact hworst b (hold.mem_iff.mpr (mem_cons_of_mem w hb))

omit hnew in
theorem keep
    (hworse : (room (cap (constraint.groupKey node))
        (countIn constraint.groupKey chosen (constraint.groupKey node)) = false ∧
        ∀ b ∈ chosen, constraint.groupKey b = constraint.groupKey node → score b ≤ score node) ∨
      (chosen.length = total ∧ ∀ b ∈ chosen, score b ≤ score node)) :
    Tracks constraint score cap total (node :: seen) chosen buffer :=
  { h with best := h.best.skip hworse }

variable (hcap : constraint.Capped cap) (hadm : placer.admitFn = constraint.admitFn)
  (htotal : placer.config.totalShards = total)

include hcap hadm htotal

/-- **One active node of the scan** leaves a best choice from the nodes met. -/
theorem offer (hactive : node.weight.isZero = false) :
    ∃ chosen', Tracks constraint score cap total (node :: seen) chosen'
      (placer.offer score buffer (node, constraint.groupKey node)) := by
  have hpos : 0 < total := htotal ▸ placer.config.valid.1
  have hlen : buffer.cands.length = chosen.length := by rw [h.cands, length_map]
  unfold Placer.offer
  dsimp only
  rw [if_neg (Bool.eq_false_iff.mp hactive), hadm, hcap, h.gcGet_eq, htotal]
  by_cases hroom : room (cap (constraint.groupKey node))
      (countIn constraint.groupKey chosen (constraint.groupKey node)) = true
  · rw [if_pos hroom]
    by_cases hlt : buffer.cands.length < total
    · rw [if_pos hlt]
      exact ⟨_, h.append hnew hroom hlt⟩
    · rw [if_neg hlt]
      have hne : buffer.cands ≠ [] := by
        rw [← length_pos_iff]
        omega
      obtain ⟨worst, hget, hle⟩ := findWorst_spec hne
      obtain ⟨w, hw, rfl⟩ := h.getElem_chosen hget
      have hworst : ∀ b ∈ chosen, score b ≤ score w := h.forall_chosen hle
      rw [hget]
      dsimp only [candidate]
      by_cases hbetter : score node < score w
      · rw [if_pos hbetter]
        exact ⟨_, h.replace hnew hw hroom (by omega) hworst hbetter⟩
      · rw [if_neg hbetter]
        have hsize := h.best.size
        refine ⟨chosen, h.keep (.inr ⟨by omega, ?_⟩)⟩
        intro b hb
        exact (hworst b hb).trans (not_lt.mp hbetter)
  · rw [if_neg hroom]
    rw [Bool.not_eq_true] at hroom
    rcases @findWorstInGroup_spec S _ buffer.cands (constraint.groupKey node) with
      ⟨hnone, hno⟩ | ⟨i, worst, hi, hget, hgk, hle⟩
    · rw [hnone]
      refine ⟨chosen, h.keep (.inl ⟨hroom, ?_⟩)⟩
      intro b hb hg
      exact absurd hg (h.forall_chosen hno b hb)
    · obtain ⟨w, hw, rfl⟩ := h.getElem_chosen hget
      have hworst : ∀ b ∈ chosen, constraint.groupKey b = constraint.groupKey node →
          score b ≤ score w := h.forall_chosen hle
      rw [hi]
      dsimp only
      rw [hget]
      dsimp only [candidate]
      by_cases hbetter : score node < score w
      · rw [if_pos hbetter]
        exact ⟨_, h.replaceSame hnew hw hgk hroom hworst hbetter⟩
      · rw [if_neg hbetter]
        refine ⟨chosen, h.keep (.inl ⟨hroom, ?_⟩)⟩
        intro b hb hg
        exact (hworst b hb hg).trans (not_lt.mp hbetter)

end Tracks

/-- **The whole scan** leaves a best choice from the active nodes. -/
theorem tracks_foldl (hcap : constraint.Capped cap) (hadm : placer.admitFn = constraint.admitFn)
    (htotal : placer.config.totalShards = total) :
    ∀ {nodes seen chosen : List NodeInfo} {buffer : Buffer S}, nodes.Nodup →
      (∀ node ∈ nodes, node ∉ seen) → Tracks constraint score cap total seen chosen buffer →
      ∃ seen' chosen', seen'.Perm (nodes.filter (!·.weight.isZero) ++ seen) ∧
        Tracks constraint score cap total seen' chosen'
          ((nodes.map fun node => (node, constraint.groupKey node)).foldl
            (placer.offer score) buffer)
  | [], seen, chosen, buffer, _, _, h => ⟨seen, chosen, List.Perm.refl _, h⟩
  | node :: nodes, seen, chosen, buffer, hnodup, hnew, h => by
    rw [nodup_cons] at hnodup
    rw [forall_mem_cons] at hnew
    rw [map_cons, foldl_cons, filter_cons]
    cases hzero : node.weight.isZero with
    | true =>
      have hskip : placer.offer score buffer (node, constraint.groupKey node) = buffer := by
        unfold Placer.offer
        dsimp only
        rw [if_pos hzero]
      rw [hskip]
      exact tracks_foldl hcap hadm htotal hnodup.2 hnew.2 h
    | false =>
      obtain ⟨chosen₁, h₁⟩ := h.offer hnew.1 hcap hadm htotal hzero
      have hnew₁ : ∀ b ∈ nodes, b ∉ node :: seen := by
        intro b hb
        refine not_mem_cons_of_ne_of_not_mem ?_ (hnew.2 b hb)
        rintro rfl
        exact hnodup.1 hb
      obtain ⟨seen', chosen', hperm, h'⟩ := tracks_foldl hcap hadm htotal hnodup.2 hnew₁ h₁
      refine ⟨seen', chosen', hperm.trans ?_, h'⟩
      exact perm_middle

/-! ### The counters, whatever is scanned -/

/-- The count list is that of the candidates, and no group is over its cap. -/
structure Buffer.Exact (buffer : Buffer S) (constraint : PlacementConstraint) (total : Nat) :
    Prop where
  counts : GroupCounts buffer.gc (buffer.cands.map Candidate.groupKey)
  caps : ∀ cap, constraint.Capped cap → ∀ gk c, cap gk = some c → gcGet buffer.gc gk ≤ c
  size : buffer.cands.length ≤ total

/-- One more in the group of a node that is admitted to any slot, with no more than before in the
others. -/
theorem gcGet_gcInc_le {gc' : List (UInt64 × Nat)}
    (hcaps : ∀ cap, constraint.Capped cap → ∀ g c, cap g = some c → gcGet gc g ≤ c)
    (hglobal : constraint.admitFn (gcGet gc (constraint.groupKey node)) node = .global)
    (hle : ∀ g, gcGet gc' g ≤ gcGet gc g) (cap : UInt64 → Option Nat) (hcap : constraint.Capped cap)
    (g : UInt64) (c : Nat) (hc : cap g = some c) :
    gcGet (gcInc gc' (constraint.groupKey node)) g ≤ c := by
  have hold := hle g
  have hbelow := hcaps cap hcap g c hc
  rw [gcGet_gcInc]
  split
  · next hg =>
    rw [hcap] at hglobal
    split at hglobal
    · next hroom =>
      rw [hg, hc, room, Option.all_some, decide_eq_true_eq] at hroom
      omega
    · cases hglobal
  · omega

/-- **One iteration keeps the counters exact.** -/
theorem Buffer.Exact.offer (h : buffer.Exact constraint placer.config.totalShards)
    (hadm : placer.admitFn = constraint.admitFn) (node : NodeInfo) :
    (placer.offer score buffer (node, constraint.groupKey node)).Exact constraint
      placer.config.totalShards := by
  have hset : ∀ {i : Nat} {cand : Candidate S},
      (buffer.cands.set i cand).length ≤ placer.config.totalShards := by
    intro i cand
    rw [length_set]
    exact h.size
  unfold Placer.offer
  dsimp only
  split
  · exact h
  · rw [hadm]
    split
    · exact h
    · next hglobal =>
      split
      · next hlt =>
        refine ⟨h.counts.append (candidate constraint score node),
          gcGet_gcInc_le h.caps hglobal fun _ => le_rfl, ?_⟩
        rw [length_append]
        exact hlt
      · split
        · next worst hget =>
          split
          · refine ⟨h.counts.set hget (candidate constraint score node),
              gcGet_gcInc_le h.caps hglobal fun g => ?_, hset⟩
            rw [gcGet_gcDec _ _ h.counts.distinct]
            exact sub_le ..
          · exact h
        · exact h
    · rcases @findWorstInGroup_spec S _ buffer.cands (constraint.groupKey node) with
        ⟨hnone, -⟩ | ⟨i, worst, hi, hget, hgk, -⟩
      · rw [hnone]
        exact h
      · rw [hi]
        dsimp only
        rw [hget]
        dsimp only
        split
        · exact ⟨h.counts.setSame hget hgk, h.caps, hset⟩
        · exact h

/-- **The group counters are exact after every iteration**, whatever is scanned and in whatever
order, for every way to group and to admit nodes: the list has one entry for each group of the
candidates, with the number of its candidates, which is not above the cap of the group; and both
lists keep within the capacity of their arrays. -/
theorem group_counters_exact (placer : Placer) (score : NodeInfo → S) (groupKey : NodeInfo → UInt64)
    (nodes : List NodeInfo) (iterations : Nat) :
    let buffer := ((nodes.take iterations).map fun node => (node, groupKey node)).foldl
      (placer.offer score) ⟨[], []⟩
    (buffer.gc.map Prod.fst).Nodup ∧
      (∀ gk count, (gk, count) ∈ buffer.gc ↔
        0 < count ∧ count = (buffer.cands.map Candidate.groupKey).count gk) ∧
      (∀ cap, (PlacementConstraint.mk groupKey placer.admitFn).Capped cap →
        ∀ gk count, (gk, count) ∈ buffer.gc → ∀ c, cap gk = some c → count ≤ c) ∧
      buffer.gc.length ≤ buffer.cands.length ∧ buffer.cands.length ≤ maxShards := by
  intro buffer
  have hexact : buffer.Exact ⟨groupKey, placer.admitFn⟩ placer.config.totalShards := by
    refine foldlRecOn (motive := fun b => Buffer.Exact b _ _) _ _
      ⟨GroupCounts.nil, fun _ _ _ _ _ => zero_le _, zero_le _⟩ ?_
    intro state hstate entry hentry
    obtain ⟨node, -, rfl⟩ := mem_map.mp hentry
    exact hstate.offer rfl node
  refine ⟨hexact.counts.distinct, fun gk count => hexact.counts.mem_iff, ?_, ?_, ?_⟩
  · intro cap hcap gk count hmem c hc
    rw [← gcGet_of_mem hexact.counts.distinct hmem]
    exact hexact.caps cap hcap gk c hc
  · exact hexact.counts.length_le.trans (length_map _).le
  · exact hexact.size.trans placer.config.valid.2

end Scores

/-! ### Accepted clusters and placers -/

section Accepted

variable {listing : List NodeInfo} {map : ClusterMap}

theorem ClusterMap.new_eq_ok : ClusterMap.new listing = .ok map ↔
    listing ≠ [] ∧ listing.find? NodeInfo.hasInvalidWeight = none ∧
    firstRepeated NodeInfo.order (sortByKey NodeInfo.order listing) = none ∧
    map.nodes = sortByKey NodeInfo.order listing := by
  constructor
  · intro h
    unfold new at h
    split at h
    · cases h
    · next hempty =>
      split at h
      · cases h
      · next hweight =>
        split at h
        · cases h
        · next hid =>
          cases h
          exact ⟨fun hnil => hempty (hnil ▸ rfl), hweight, hid, rfl⟩
  · rintro ⟨hne, hweight, hid, hnodes⟩
    obtain ⟨nodes, ordered, weights⟩ := map
    subst hnodes
    unfold new
    rw [if_neg fun hempty => hne (isEmpty_iff.mp hempty)]
    split
    · next hsome =>
      rw [hweight] at hsome
      cases hsome
    · split
      · next hsome =>
        rw [hid] at hsome
        cases hsome
      · rfl

/-- The nodes of a map have distinct ids. -/
theorem ClusterMap.pairwise_order_ne (map : ClusterMap) :
    map.nodes.Pairwise fun a b => a.order ≠ b.order :=
  map.ordered.imp ne_of_lt

theorem ClusterMap.eq_of_order_eq {a b : NodeInfo} (ha : a ∈ map.nodes) (hb : b ∈ map.nodes)
    (heq : a.order = b.order) : a = b := by
  by_contra hne
  have hsymm : Std.Symm fun a b : NodeInfo => a.order ≠ b.order := ⟨fun _ _ h => h.symm⟩
  exact map.pairwise_order_ne.forall ha hb hne heq

theorem ClusterMap.nodup (map : ClusterMap) : map.nodes.Nodup :=
  map.pairwise_order_ne.imp fun hne heq => hne (congrArg NodeInfo.order heq)

/-- **The order in which nodes are listed does not matter.** -/
theorem ClusterMap.new_perm {listing' : List NodeInfo} (hperm : listing'.Perm listing)
    (h : ClusterMap.new listing = .ok map) : ClusterMap.new listing' = .ok map := by
  obtain ⟨hne, hweight, hid, hnodes⟩ := new_eq_ok.mp h
  have hsorted : sortByKey NodeInfo.order listing' = map.nodes := by
    have hsame : (sortByKey NodeInfo.order listing').Perm map.nodes := by
      rw [hnodes]
      exact (perm_sortByKey _ _).trans (hperm.trans (perm_sortByKey _ _).symm)
    refine List.Perm.eq_of_pairwise ?_ (pairwise_sortByKey _ _)
      (map.ordered.imp le_of_lt) hsame
    intro a b ha hb hab hba
    exact eq_of_order_eq (hsame.mem_iff.mp ha) hb (le_antisymm hab hba)
  refine new_eq_ok.mpr ⟨?_, ?_, ?_, hsorted.symm⟩
  · rintro rfl
    exact hne hperm.nil_eq.symm
  · rw [find?_eq_none] at hweight ⊢
    intro node hnode
    exact hweight node (hperm.mem_iff.mp hnode)
  · rw [hsorted, hnodes]
    exact hid

theorem ClusterMap.perm_listing (h : ClusterMap.new listing = .ok map) :
    map.nodes.Perm listing := by
  rw [(new_eq_ok.mp h).2.2.2]
  exact perm_sortByKey _ _

/-- An id is that of one node of the listing. -/
theorem eq_of_id_eq {a b : NodeInfo} (h : ClusterMap.new listing = .ok map) (ha : a ∈ listing)
    (hb : b ∈ listing) (hid : a.id = b.id) : a = b :=
  eq_of_order_eq ((perm_listing h).mem_iff.mpr ha) ((perm_listing h).mem_iff.mpr hb)
    (congrArg (fun id => id.asU32.toNat) hid)

/-- The nodes that take part in placement. -/
def activeNodes (listing : List NodeInfo) : List NodeInfo := listing.filter (·.weight.isPositive)

theorem filter_active (h : ClusterMap.new listing = .ok map) :
    (map.nodes.filter (!·.weight.isZero)).Perm (activeNodes listing) := by
  have hfilter : map.nodes.filter (!·.weight.isZero) = activeNodes map.nodes := by
    refine filter_congr ?_
    intro node hnode
    obtain ⟨hfinite, hneg⟩ := map.weights node hnode
    cases hw : node.weight with
    | finite value =>
      rw [hw, Weight.isNegative, decide_eq_false_iff_not, Rat.not_lt] at hneg
      rw [Weight.isZero, Weight.isPositive, ← decide_not]
      exact decide_eq_decide.mpr ⟨fun hne => lt_of_le_of_ne hneg (Ne.symm hne), ne_of_gt⟩
    | infinite negative => rw [hw] at hfinite; cases hfinite
    | nan => rw [hw] at hfinite; cases hfinite
  rw [hfilter]
  exact (perm_listing h).filter _

theorem nodup_activeNodes (h : ClusterMap.new listing = .ok map) : (activeNodes listing).Nodup :=
  ((perm_listing h).nodup_iff.mp map.nodup).filter _

theorem nodup_ids {chosen : List NodeInfo} (h : ClusterMap.new listing = .ok map)
    (hnodup : chosen.Nodup) (hsub : chosen ⊆ activeNodes listing) : (chosen.map (·.id)).Nodup := by
  refine hnodup.map_on ?_
  intro a ha b hb hid
  exact eq_of_id_eq h (mem_of_mem_filter (hsub ha)) (mem_of_mem_filter (hsub hb)) hid

variable {config : PlacementConfig} {constraint : PlacementConstraint} {placer : Placer}

theorem Placer.new_eq_ok (h : Placer.new config map constraint = .ok placer) :
    placer.config = config ∧
    placer.nodes = (map.nodes.map fun node => (node, constraint.groupKey node)) ∧
    placer.admitFn = constraint.admitFn := by
  simp only [Placer.new, bind_eq_ok, failIf_eq_ok, pure_eq_ok, exists_const] at h
  obtain ⟨_, -, -, rfl⟩ := h
  exact ⟨rfl, rfl, rfl⟩

end Accepted

/-! ### Which nodes are placed -/

/-- **The minimum-score choice**: active nodes, as many as there are shards, no group over its cap,
that a greedy scan in increasing score takes.  Scores that are equal leave the scan a choice; when
there are none, every such scan takes these nodes. -/
structure MinimumScore {S : Type} [LinearOrder S] (group : NodeInfo → UInt64)
    (score : NodeInfo → S) (cap : UInt64 → Option Nat) (total : Nat)
    (active chosen : List NodeInfo) : Prop where
  sub : chosen ⊆ active
  length : chosen.length = total
  caps : ∀ g c, cap g = some c → countIn group chosen g ≤ c
  scan : ∃ order : List NodeInfo, order.Perm active ∧
    order.Pairwise (fun a b => score a ≤ score b) ∧ (greedy group cap total order).Perm chosen
  everyScan : active.Pairwise (fun a b => score a ≠ score b) →
    ∀ order : List NodeInfo, order.Perm active → order.Pairwise (fun a b => score a ≤ score b) →
      (greedy group cap total order).Perm chosen

section Place

variable {S : Type} [LinearOrder S] (score : List UInt8 → NodeId → Weight → S)
  {listing : List NodeInfo} {map : ClusterMap} {config : PlacementConfig}
  {constraint : PlacementConstraint} {placer : Placer} {cap : UInt64 → Option Nat}

/-- What `place` returns is read off a best choice from the active nodes. -/
theorem place_eq_of_chosen (hcap : constraint.Capped cap) (hmap : ClusterMap.new listing = .ok map)
    (hplacer : Placer.new config map constraint = .ok placer) (key : List UInt8) :
    ∃ chosen, Chosen constraint.groupKey (fun node => score key node.id node.weight) cap
        config.totalShards chosen (activeNodes listing) ∧
      placer.place score key config.totalShards =
        if chosen.length = config.totalShards then .ok (chosen.map (·.id))
        else .error (.constraintUnsatisfiable config.totalShards chosen.length) := by
  have hstart : Tracks constraint (fun node => score key node.id node.weight) cap
      config.totalShards [] [] ⟨[], []⟩ := ⟨rfl, GroupCounts.nil, Chosen.nil⟩
  obtain ⟨hconfig, hnodes, hadm⟩ := Placer.new_eq_ok hplacer
  obtain ⟨seen, chosen, hseen, htracks⟩ := tracks_foldl hcap hadm
    (congrArg PlacementConfig.totalShards hconfig) map.nodup (fun _ _ => not_mem_nil) hstart
  rw [append_nil] at hseen
  refine ⟨chosen, htracks.best.perm_from (hseen.trans (filter_active hmap)), ?_⟩
  have hsize := htracks.best.size
  unfold Placer.place
  dsimp only
  rw [hconfig, hnodes, htracks.cands, length_map, failIf_of_not (not_not.mpr rfl), ok_bind]
  by_cases hfull : chosen.length = config.totalShards
  · rw [if_pos hfull, failIf_of_not (by omega), ok_bind, ← hfull,
      take_of_length_le (length_map _).le, map_map]
    rfl
  · rw [if_neg hfull, failIf, if_pos (by omega)]
    rfl

theorem chosen_of_place (hcap : constraint.Capped cap) (hmap : ClusterMap.new listing = .ok map)
    (hplacer : Placer.new config map constraint = .ok placer) {key : List UInt8} {out : List NodeId}
    (hout : placer.place score key config.totalShards = .ok out) :
    ∃ chosen, Chosen constraint.groupKey (fun node => score key node.id node.weight) cap
        config.totalShards chosen (activeNodes listing) ∧
      chosen.length = config.totalShards ∧ out = chosen.map (·.id) := by
  obtain ⟨chosen, hbest, hplace⟩ := place_eq_of_chosen score hcap hmap hplacer key
  rw [hplace] at hout
  split at hout
  · next hfull =>
    cases hout
    exact ⟨chosen, hbest, hfull, rfl⟩
  · cases hout

/-- **A placement is the minimum-score choice under the failure-domain caps.**  For every listing of
nodes that makes a cluster, every constraint that keeps its contract and every accepted number of
shards, a key is placed exactly when the groups of the active nodes can hold that many shards under
their caps; the nodes are then the ones that a greedy scan of the active nodes in increasing score
takes, each once.  The order of the listing does not matter. -/
theorem place_minimum_score (hcap : constraint.Capped cap)
    (hmap : ClusterMap.new listing = .ok map)
    (hplacer : Placer.new config map constraint = .ok placer) (key : List UInt8) :
    ((placer.place score key config.totalShards).isOk = true ↔
      config.totalShards ≤ capacity constraint.groupKey cap (activeNodes listing)) ∧
    (∀ out, placer.place score key config.totalShards = .ok out →
      out.Nodup ∧ ∃ chosen, out = chosen.map (·.id) ∧
        MinimumScore constraint.groupKey (fun node => score key node.id node.weight) cap
          config.totalShards (activeNodes listing) chosen) ∧
    ∀ listing', listing'.Perm listing → ClusterMap.new listing' = .ok map := by
  refine ⟨?_, ?_, fun listing' h => new_perm h hmap⟩
  · obtain ⟨chosen, hbest, hplace⟩ := place_eq_of_chosen score hcap hmap hplacer key
    rw [hplace, ← hbest.length_eq_iff (nodup_activeNodes hmap)]
    by_cases hfull : chosen.length = config.totalShards
    · rw [if_pos hfull]
      exact ⟨fun _ => hfull, fun _ => rfl⟩
    · rw [if_neg hfull]
      exact ⟨fun h => absurd h Bool.false_ne_true, fun h => absurd h hfull⟩
  · intro out hout
    obtain ⟨chosen, hbest, hfull, rfl⟩ := chosen_of_place score hcap hmap hplacer hout
    have hnodup := nodup_activeNodes hmap
    exact ⟨nodup_ids hmap hbest.nodup hbest.sub, chosen, rfl, hbest.sub, hfull, hbest.caps,
      hbest.exists_greedy_perm hnodup, fun hdistinct order => hbest.greedy_perm hnodup hdistinct⟩

/-- Four nodes in two racks, one of them without weight. -/
def sampleListing : List NodeInfo :=
  [⟨⟨3⟩, .rack 1, .finite 1⟩, ⟨⟨1⟩, .rack 0, .finite 1⟩, ⟨⟨2⟩, .rack 0, .finite 2⟩,
    ⟨⟨4⟩, .rack 1, .finite 0⟩]

def sampleMap : ClusterMap where
  nodes := [⟨⟨1⟩, .rack 0, .finite 1⟩, ⟨⟨2⟩, .rack 0, .finite 2⟩, ⟨⟨3⟩, .rack 1, .finite 1⟩,
    ⟨⟨4⟩, .rack 1, .finite 0⟩]
  ordered := by decide
  weights := by decide

theorem two_shards : 0 < 2 ∧ 2 ≤ maxShards := by decide

def samplePlacer : Placer where
  config := ⟨2, two_shards⟩
  nodes := sampleMap.nodes.map fun node => (node, (PlacementConstraint.rackCap 1).groupKey node)
  admitFn := (PlacementConstraint.rackCap 1).admitFn

/-- Scores that fall with the id. -/
def sampleScore (_ : List UInt8) (id : NodeId) (_ : Weight) : Nat := 10 - id.asU32.toNat

/-- With one shard for each rack, node 1 makes place for node 2. -/
theorem place_minimum_score_racks :
    samplePlacer.place sampleScore [] 2 = .ok [⟨2⟩, ⟨3⟩] ∧
    ∃ chosen, [⟨2⟩, ⟨3⟩] = chosen.map NodeInfo.id ∧
      MinimumScore (PlacementConstraint.rackCap 1).groupKey
        (fun node => sampleScore [] node.id node.weight) (levelCaps 1) 2
        (activeNodes sampleListing) chosen := by
  have hplace : samplePlacer.place sampleScore [] 2 = .ok [⟨2⟩, ⟨3⟩] := by decide +kernel
  have hmap : new sampleListing = .ok sampleMap := by
    rw [new_eq_ok]
    decide +kernel
  have hplacer : Placer.new ⟨2, by decide⟩ sampleMap (.rackCap 1) = .ok samplePlacer := rfl
  obtain ⟨-, hout, -⟩ := place_minimum_score sampleScore (levelCap_capped Level.rack 1) hmap
    hplacer []
  exact ⟨hplace, (hout _ hplace).2⟩

end Place

end Argmin.Placement
