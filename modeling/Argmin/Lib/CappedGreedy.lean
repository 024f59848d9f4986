import Mathlib.Algebra.Order.BigOperators.Group.Finset
import Mathlib.Data.List.Sort
import Mathlib.Data.Prod.Lex

/-!
# Greedy choice under caps

Elements have a score and a group; at most `total` elements are chosen, and at most `cap g` of a
group `g`.  A choice is built in one pass over the elements in any order: an element that does not
fit may replace a worse one.

* `Chosen` — what makes a choice the best one: every element that was left out is no better than
  those that took its place;
* `Chosen.add`, `Chosen.skip`, `Chosen.replaceWorst`, `Chosen.replaceInGroup` — the steps of a pass
  keep it;
* `Chosen.exists_greedy_perm` and `Chosen.greedy_perm` — a best choice is what the greedy scan in
  increasing score takes;
* `Chosen.length_eq_iff` — when a choice is complete;
* `Chosen.unique` — without a tie there is one best choice;
* `Chosen.stays_iff` and `Chosen.stays` — what a best choice becomes when an element is lost.
-/

namespace Argmin.Greedy

open List hiding take beq_eq_decide

variable {α γ σ : Type*} [DecidableEq γ]

/-- Whether a group with `count` chosen elements takes another one; without a cap it does. -/
def room (cap : Option Nat) (count : Nat) : Bool := cap.all (count < ·)

variable (group : α → γ)

/-- The number of elements of a group. -/
def countIn (l : List α) (g : γ) : Nat := (l.map group).count g

/-- One step of the greedy scan: an element is taken while there is room for it. -/
def take (cap : γ → Option Nat) (total : Nat) (chosen : List α) (a : α) : List α :=
  if chosen.length < total ∧ room (cap (group a)) (countIn group chosen (group a)) then
    chosen ++ [a]
  else chosen

/-- The elements that the greedy scan takes from a list, in the list's order. -/
def greedy (cap : γ → Option Nat) (total : Nat) (order : List α) : List α :=
  order.foldl (take group cap total) []

/-- How many of `count` elements of a group can be chosen. -/
def capped : Option Nat → Nat → Nat
  | some cap, count => min cap count
  | none, count => count

/-- How many elements can be chosen when only the caps of the groups are a limit. -/
def capacity (cap : γ → Option Nat) (l : List α) : Nat :=
  ∑ g ∈ (l.map group).toFinset, capped (cap g) (countIn group l g)

/-- **A best choice** from the elements of `l`: an element that was left out has its group full of
elements that are no worse, or the choice is complete and nothing in it is worse. -/
structure Chosen [LE σ] (group : α → γ) (score : α → σ) (cap : γ → Option Nat) (total : Nat)
    (chosen l : List α) : Prop where
  nodup : chosen.Nodup
  sub : chosen ⊆ l
  size : chosen.length ≤ total
  caps : ∀ g c, cap g = some c → countIn group chosen g ≤ c
  left : ∀ e ∈ l, e ∉ chosen →
    (room (cap (group e)) (countIn group chosen (group e)) = false ∧
      ∀ a ∈ chosen, group a = group e → score a ≤ score e) ∨
    (chosen.length = total ∧ ∀ a ∈ chosen, score a ≤ score e)

/-- **A tie across the choice**: an element that was left out has the score of a chosen one and
could take its place. -/
def Tied (score : α → σ) (cap : γ → Option Nat) (chosen l : List α) : Prop :=
  ∃ e ∈ l, e ∉ chosen ∧ ∃ a ∈ chosen, score a = score e ∧
    (group a = group e ∨ room (cap (group e)) (countIn group chosen (group e)) = true)

section Counts

variable {group : α → γ} {l l' : List α} {a : α} {c : Option Nat} {n : Nat} {g : γ}

theorem room_eq_true_iff : room c n = true ↔ ∀ k, c = some k → n < k := by
  cases c <;> simp [room]

theorem room_eq_false_iff : room c n = false ↔ ∃ k, c = some k ∧ k ≤ n := by
  cases c <;> simp [room]

theorem countIn_perm (h : l.Perm l') : countIn group l g = countIn group l' g :=
  (h.map group).count_eq g

theorem countIn_cons :
    countIn group (a :: l) g = countIn group l g + if group a = g then 1 else 0 := by
  simp only [countIn, map_cons, count_cons, beq_iff_eq]

theorem countIn_cons_of_ne (h : group a ≠ g) : countIn group (a :: l) g = countIn group l g := by
  rw [countIn_cons, if_neg h, Nat.add_zero]

theorem countIn_le_of_subset (hnodup : l.Nodup) (hsub : l ⊆ l') :
    countIn group l g ≤ countIn group l' g := by
  obtain ⟨part, hperm, hpart⟩ := hnodup.subperm hsub
  rw [← countIn_perm hperm]
  exact (hpart.map group).count_le g

theorem countIn_filter : countIn group (l.filter (group · = g)) g = countIn group l g := by
  simp only [countIn, count, countP_map, countP_filter, Function.comp_def,
    Bool.and_self, beq_eq_decide]

/-- It is enough that the elements of the one group are among the others. -/
theorem countIn_le_of_group (hnodup : l.Nodup) (hsub : ∀ b ∈ l, group b = g → b ∈ l') :
    countIn group l g ≤ countIn group l' g := by
  rw [← countIn_filter]
  refine countIn_le_of_subset (hnodup.filter _) ?_
  intro b hb
  rw [mem_filter, decide_eq_true_eq] at hb
  exact hsub b hb.1 hb.2

/-- Of a group that is no larger, an element that is not in the other choice leaves place there for
one that is not in this one. -/
theorem exists_other {c c' : List α} (hnodup' : c'.Nodup)
    (hle : countIn group c (group a) ≤ countIn group c' (group a)) (ha : a ∈ c) (hout : a ∉ c') :
    ∃ b ∈ c', b ∉ c ∧ group b = group a := by
  by_contra hnone
  push Not at hnone
  have hnodup : (a :: c'.filter (group · = group a)).Nodup :=
    nodup_cons.mpr ⟨fun hmem => hout (mem_of_mem_filter hmem), hnodup'.filter _⟩
  have hsub : a :: c'.filter (group · = group a) ⊆ c := by
    refine cons_subset.mpr ⟨ha, fun b hb => ?_⟩
    rw [mem_filter, decide_eq_true_eq] at hb
    by_contra hbc
    exact hnone b hb.1 hbc hb.2
  have hcount : countIn group _ (group a) ≤ countIn group c (group a) :=
    countIn_le_of_subset hnodup hsub
  rw [countIn_cons, if_pos rfl, countIn_filter] at hcount
  omega

end Counts

/-- An order of increasing score in which equal scores are settled by a rank. -/
theorem exists_order [LinearOrder σ] (score : α → σ) (rank : α → Nat) (l : List α) :
    ∃ order : List α, order.Perm l ∧ order.Pairwise (fun x y => score x ≤ score y) ∧
      order.Pairwise fun x y => score x = score y → rank x ≤ rank y := by
  let key : α → σ ×ₗ Nat := fun x => toLex (score x, rank x)
  have hsort : (l.mergeSort fun x y => key x ≤ key y).Pairwise fun x y => key x ≤ key y := by
    refine (pairwise_mergeSort ?_ ?_ l).imp of_decide_eq_true
    · intro x y z hxy hyz
      exact decide_eq_true ((of_decide_eq_true hxy).trans (of_decide_eq_true hyz))
    · intro x y
      rw [Bool.or_eq_true, decide_eq_true_eq, decide_eq_true_eq]
      exact le_total (key x) (key y)
  refine ⟨_, mergeSort_perm l fun x y => decide (key x ≤ key y), hsort.imp ?_, hsort.imp ?_⟩
  · intro x y hxy
    rcases Prod.Lex.toLex_le_toLex.mp hxy with hlt | ⟨heq, -⟩
    · exact hlt.le
    · exact heq.le
  · intro x y hxy heq
    rcases Prod.Lex.toLex_le_toLex.mp hxy with hlt | ⟨-, hle⟩
    · exact absurd heq hlt.ne
    · exact hle

variable [LinearOrder σ] {group : α → γ} {score : α → σ} {cap : γ → Option Nat} {total : Nat}
  {chosen rest l : List α} {a w : α}

namespace Chosen

theorem nil : Chosen group score cap total [] [] where
  nodup := nodup_nil
  sub := List.Subset.refl _
  size := Nat.zero_le _
  caps _ _ _ := Nat.zero_le _
  left _ he := absurd he not_mem_nil

variable (h : Chosen group score cap total chosen l)
include h

/-- A choice may be written in any order. -/
theorem perm {chosen' : List α}
    (hperm : chosen.Perm chosen') : Chosen group score cap total chosen' l where
  nodup := hperm.nodup_iff.mp h.nodup
  sub _ hb := h.sub (hperm.mem_iff.mpr hb)
  size := hperm.length_eq ▸ h.size
  caps g c hc := (countIn_perm hperm).symm.trans_le (h.caps g c hc)
  left e he hout := by
    rw [← countIn_perm hperm, ← hperm.length_eq]
    exact (h.left e he fun hmem => hout (hperm.mem_iff.mp hmem)).imp
      (fun ⟨hroom, hle⟩ => ⟨hroom, fun b hb => hle b (hperm.mem_iff.mpr hb)⟩)
      (fun ⟨hfull, hle⟩ => ⟨hfull, fun b hb => hle b (hperm.mem_iff.mpr hb)⟩)

/-- So may the elements it is chosen from. -/
theorem perm_from {l' : List α} (hperm : l.Perm l') : Chosen group score cap total chosen l' :=
  { h with
    sub := fun _ hb => hperm.mem_iff.mp (h.sub hb)
    left := fun e he => h.left e (hperm.mem_iff.mpr he) }

/-! ### The steps of a pass -/

/-- There is room for the new element. -/
theorem add (hnew : a ∉ l) (hroom : room (cap (group a)) (countIn group chosen (group a)) = true)
    (hsize : chosen.length < total) : Chosen group score cap total (a :: chosen) (a :: l) where
  nodup := nodup_cons.mpr ⟨fun hmem => hnew (h.sub hmem), h.nodup⟩
  sub := cons_subset_cons a h.sub
  size := hsize
  caps g c hc := by
    by_cases hg : group a = g
    · subst hg
      rw [countIn_cons, if_pos rfl]
      exact room_eq_true_iff.mp hroom c hc
    · rw [countIn_cons_of_ne hg]
      exact h.caps g c hc
  left e he hout := by
    rw [mem_cons, not_or] at hout
    rcases h.left e ((mem_cons.mp he).resolve_left hout.1) hout.2 with
      ⟨hfull, hle⟩ | ⟨hfull, -⟩
    · have hother : group a ≠ group e := by
        intro heq
        rw [heq, hfull] at hroom
        exact Bool.false_ne_true hroom
      rw [countIn_cons_of_ne hother]
      exact .inl ⟨hfull, forall_mem_cons.mpr ⟨fun hg => absurd hg hother, hle⟩⟩
    · omega

/-- The new element is no better than what takes its place. -/
theorem skip (hworse : (room (cap (group a)) (countIn group chosen (group a)) = false ∧
        ∀ b ∈ chosen, group b = group a → score b ≤ score a) ∨
      (chosen.length = total ∧ ∀ b ∈ chosen, score b ≤ score a)) :
    Chosen group score cap total chosen (a :: l) where
  nodup := h.nodup
  sub := subset_cons_of_subset a h.sub
  size := h.size
  caps := h.caps
  left e he hout := by
    rcases mem_cons.mp he with rfl | he
    · exact hworse
    · exact h.left e he hout

omit h

/-- What a replacement does to the set, whichever element it drops. -/
private theorem replaced_nodup (h : Chosen group score cap total (w :: rest) l) (hnew : a ∉ l) :
    (a :: rest).Nodup ∧ a :: rest ⊆ a :: l := by
  have hrest : rest ⊆ l := fun b hb => h.sub (mem_cons_of_mem w hb)
  exact ⟨nodup_cons.mpr ⟨fun hmem => hnew (hrest hmem), h.nodup.of_cons⟩,
    cons_subset_cons a hrest⟩

/-- **The worst element makes place** for a better one whose group has room. -/
theorem replaceWorst (h : Chosen group score cap total (w :: rest) l) (hnew : a ∉ l)
    (hroom : room (cap (group a)) (countIn group (w :: rest) (group a)) = true)
    (hfull : (w :: rest).length = total) (hworst : ∀ b ∈ rest, score b ≤ score w)
    (hbetter : score a < score w) : Chosen group score cap total (a :: rest) (a :: l) := by
  obtain ⟨hnodup, hsub⟩ := h.replaced_nodup hnew
  -- whoever is no better than the element that goes is no better than anything that stays
  have hall (e : α) (hwe : score w ≤ score e) : ∀ b ∈ a :: rest, score b ≤ score e :=
    forall_mem_cons.mpr ⟨hbetter.le.trans hwe, fun b hb => (hworst b hb).trans hwe⟩
  refine ⟨hnodup, hsub, hfull.le, ?_, ?_⟩
  · intro g c hc
    have hcount := h.caps g c hc
    rw [countIn_cons] at hcount hroom
    by_cases hg : group a = g
    · subst hg
      have := room_eq_true_iff.mp hroom c hc
      rw [countIn_cons, if_pos rfl]
      omega
    · rw [countIn_cons_of_ne hg]
      omega
  · intro e he hout
    rw [mem_cons, not_or] at hout
    have hel : e ∈ l := (mem_cons.mp he).resolve_left hout.1
    by_cases hew : e = w
    · subst hew
      exact .inr ⟨hfull, hall e le_rfl⟩
    · have hold : e ∉ w :: rest := not_mem_cons_of_ne_of_not_mem hew hout.2
      rcases h.left e hel hold with ⟨hgroup, hle⟩ | ⟨-, hle⟩
      · by_cases hgw : group w = group e
        · exact .inr ⟨hfull, hall e (hle w mem_cons_self hgw)⟩
        · have hga : group a ≠ group e := by
            intro heq
            rw [heq, hgroup] at hroom
            exact Bool.false_ne_true hroom
          rw [countIn_cons_of_ne hgw] at hgroup
          rw [countIn_cons_of_ne hga]
          exact .inl ⟨hgroup, forall_mem_cons.mpr ⟨fun hg => absurd hg hga,
            (forall_mem_cons.mp hle).2⟩⟩
      · exact .inr ⟨hfull, hall e (hle w mem_cons_self)⟩

/-- **The worst element of a full group makes place** for a better one of the same group. -/
theorem replaceInGroup (h : Chosen group score cap total (w :: rest) l) (hnew : a ∉ l)
    (hsame : group w = group a)
    (hroom : room (cap (group a)) (countIn group (w :: rest) (group a)) = false)
    (hworst : ∀ b ∈ rest, group b = group a → score b ≤ score w)
    (hbetter : score a < score w) : Chosen group score cap total (a :: rest) (a :: l) := by
  obtain ⟨hnodup, hsub⟩ := h.replaced_nodup hnew
  have hcount : ∀ g, countIn group (a :: rest) g = countIn group (w :: rest) g := by
    intro g
    rw [countIn_cons, countIn_cons, hsame]
  refine ⟨hnodup, hsub, h.size, fun g c hc => hcount g ▸ h.caps g c hc, ?_⟩
  intro e he hout
  rw [hcount]
  rw [mem_cons, not_or] at hout
  have hel : e ∈ l := (mem_cons.mp he).resolve_left hout.1
  by_cases hew : e = w
  · subst hew
    rw [hsame]
    exact .inl ⟨hroom, forall_mem_cons.mpr ⟨fun _ => hbetter.le, hworst⟩⟩
  · have hold : e ∉ w :: rest := not_mem_cons_of_ne_of_not_mem hew hout.2
    rcases h.left e hel hold with ⟨hgroup, hle⟩ | ⟨hfull, hle⟩
    · obtain ⟨hwe, hle⟩ := forall_mem_cons.mp hle
      exact .inl ⟨hgroup,
        forall_mem_cons.mpr ⟨fun hg => hbetter.le.trans (hwe (hsame.trans hg)), hle⟩⟩
    · obtain ⟨hwe, hle⟩ := forall_mem_cons.mp hle
      exact .inr ⟨hfull, forall_mem_cons.mpr ⟨hbetter.le.trans hwe, hle⟩⟩

/-! ### The choice is what the greedy scan takes -/

/-- Of two elements with the same score, a chosen one comes first. -/
def FirstInTies (score : α → σ) (chosen order : List α) : Prop :=
  order.Pairwise fun x y => score x = score y → y ∈ chosen → x ∈ chosen

omit [LinearOrder σ] in
theorem firstInTies_of_rank [DecidableEq α] {order : List α} (hrank : order.Pairwise fun x y =>
      score x = score y → (if x ∈ chosen then 0 else 1) ≤ if y ∈ chosen then 0 else 1) :
    FirstInTies score chosen order := by
  refine hrank.imp ?_
  intro x y hle heq hy
  by_contra hx
  have := hle heq
  rw [if_neg hx, if_pos hy] at this
  omega

section Scan

variable {order done todo : List α} (h : Chosen group score cap total chosen l)
  (hperm : (done ++ a :: todo).Perm l) (hnodup : l.Nodup)
  (hsorted : (done ++ a :: todo).Pairwise fun x y => score x ≤ score y)
  (hties : FirstInTies score chosen (done ++ a :: todo))

include h hperm hsorted hties in
/-- When an element is left out, everything chosen that is no worse has been met. -/
private theorem mem_done_of_le {b : α} (hout : a ∉ chosen) (hb : b ∈ chosen)
    (hle : score b ≤ score a) : b ∈ done := by
  have hmem : b ∈ done ++ a :: todo := hperm.mem_iff.mpr (h.sub hb)
  rcases mem_append.mp hmem with hdone | hrest
  · exact hdone
  · rcases mem_cons.mp hrest with rfl | hlater
    · exact absurd hb hout
    · have hab := (pairwise_cons.mp (pairwise_append.mp hsorted).2.1).1 b hlater
      have htie := (pairwise_cons.mp (pairwise_append.mp hties).2.1).1 b hlater
      exact absurd (htie (le_antisymm hab hle) hb) hout

variable [DecidableEq α]

include h hperm hnodup hsorted hties in
/-- **One step of the scan** takes an element exactly when it is chosen. -/
private theorem take_filter :
    take group cap total (done.filter (· ∈ chosen)) a = (done ++ [a]).filter (· ∈ chosen) := by
  have hmet : done.filter (· ∈ chosen) ⊆ chosen := by
    intro b hb
    exact of_decide_eq_true (mem_filter.mp hb).2
  have hdistinct : (done ++ a :: todo).Nodup := hperm.nodup_iff.mpr hnodup
  have hdone : (done.filter (· ∈ chosen)).Nodup := (nodup_append.mp hdistinct).1.filter _
  rw [filter_append]
  by_cases ha : a ∈ chosen
  · have hfresh : a ∉ done.filter (· ∈ chosen) := by
      intro hmem
      exact (nodup_append.mp hdistinct).2.2 a (mem_filter.mp hmem).1 a
        mem_cons_self rfl
    have hcons : (a :: done.filter (· ∈ chosen)).Nodup := nodup_cons.mpr ⟨hfresh, hdone⟩
    have hsub : a :: done.filter (· ∈ chosen) ⊆ chosen := cons_subset.mpr ⟨ha, hmet⟩
    have hlen := (hcons.subperm hsub).length_le
    have hcount : countIn group (a :: done.filter (· ∈ chosen)) (group a) ≤
        countIn group chosen (group a) := countIn_le_of_subset hcons hsub
    rw [length_cons] at hlen
    rw [countIn_cons, if_pos rfl] at hcount
    have hsize := h.size
    have hroom : room (cap (group a))
        (countIn group (done.filter (· ∈ chosen)) (group a)) = true := by
      rw [room_eq_true_iff]
      intro k hk
      have := h.caps _ k hk
      omega
    rw [take, if_pos ⟨by omega, hroom⟩, filter_singleton, decide_eq_true ha, cond_true]
  · have hbefore : ∀ b ∈ chosen, score b ≤ score a → b ∈ done.filter (· ∈ chosen) := by
      intro b hb hle
      exact mem_filter.mpr
        ⟨mem_done_of_le h hperm hsorted hties ha hb hle, decide_eq_true hb⟩
    have hno : ¬ ((done.filter (· ∈ chosen)).length < total ∧
        room (cap (group a)) (countIn group (done.filter (· ∈ chosen)) (group a)) = true) := by
      rintro ⟨hlt, hroom⟩
      have hal : a ∈ l := hperm.mem_iff.mp (mem_append_right _ mem_cons_self)
      rcases h.left a hal ha with ⟨hgroup, hle⟩ | ⟨hfull, hle⟩
      · obtain ⟨k, hk, hkle⟩ := room_eq_false_iff.mp hgroup
        have hcount : countIn group chosen (group a) ≤
            countIn group (done.filter (· ∈ chosen)) (group a) :=
          countIn_le_of_group h.nodup fun b hb hg => hbefore b hb (hle b hb hg)
        have := room_eq_true_iff.mp hroom k hk
        omega
      · have hlen := (h.nodup.subperm fun b hb => hbefore b hb (hle b hb)).length_le
        omega
    rw [take, if_neg hno, filter_singleton, decide_eq_false ha, cond_false, append_nil]

end Scan

section Order

variable [DecidableEq α] {order : List α} (h : Chosen group score cap total chosen l)
  (hnodup : l.Nodup)

include h hnodup in
/-- The scan takes the chosen elements, in the order in which it meets them. -/
theorem greedy_eq_filter (hperm : order.Perm l)
    (hsorted : order.Pairwise fun x y => score x ≤ score y)
    (hties : FirstInTies score chosen order) :
    greedy group cap total order = order.filter (· ∈ chosen) := by
  -- the scan of what remains goes on from the chosen elements met so far
  have hscan : ∀ todo done, done ++ todo = order →
      todo.foldl (take group cap total) (done.filter (· ∈ chosen)) =
        order.filter (· ∈ chosen) := by
    intro todo
    induction todo with
    | nil =>
      intro done hsplit
      rw [← hsplit, append_nil, foldl_nil]
    | cons a todo ih =>
      intro done hsplit
      subst hsplit
      rw [foldl_cons, take_filter h hperm hnodup hsorted hties]
      exact ih (done ++ [a]) (append_assoc ..)
  exact hscan order [] rfl

include h hnodup in
theorem greedy_perm_of_firstInTies (hperm : order.Perm l)
    (hsorted : order.Pairwise fun x y => score x ≤ score y)
    (hties : FirstInTies score chosen order) : (greedy group cap total order).Perm chosen := by
  rw [h.greedy_eq_filter hnodup hperm hsorted hties]
  refine (perm_ext_iff_of_nodup ((hperm.nodup_iff.mpr hnodup).filter _) h.nodup).mpr ?_
  intro b
  rw [mem_filter, hperm.mem_iff, decide_eq_true_eq]
  exact ⟨And.right, fun hb => ⟨h.sub hb, hb⟩⟩

include h hnodup in
/-- **A best choice is what some greedy scan in increasing score takes**: among equal scores the
order is one that has the chosen elements first. -/
theorem exists_greedy_perm : ∃ order : List α, order.Perm l ∧
    order.Pairwise (fun x y => score x ≤ score y) ∧
    (greedy group cap total order).Perm chosen := by
  obtain ⟨order, hperm, hsorted, hrank⟩ := exists_order score (fun x =>
    if x ∈ chosen then 0 else 1) l
  exact ⟨order, hperm, hsorted,
    h.greedy_perm_of_firstInTies hnodup hperm hsorted (firstInTies_of_rank hrank)⟩

include h hnodup in
/-- **With no two elements of one score** it is what every greedy scan in increasing score
takes. -/
theorem greedy_perm (hdistinct : l.Pairwise fun x y => score x ≠ score y) (hperm : order.Perm l)
    (hsorted : order.Pairwise fun x y => score x ≤ score y) :
    (greedy group cap total order).Perm chosen := by
  refine h.greedy_perm_of_firstInTies hnodup hperm hsorted ?_
  have hne : order.Pairwise fun x y => score x ≠ score y :=
    hperm.symm.pairwise hdistinct fun hxy => hxy.symm
  exact hne.imp fun hxy heq => absurd heq hxy

end Order

/-! ### When a choice is complete -/

section Complete

variable {g : γ} (h : Chosen group score cap total chosen l)

theorem length_eq_sum_countIn {groups : Finset γ} (hsub : ∀ b ∈ chosen, group b ∈ groups) :
    ∑ g ∈ groups, countIn group chosen g = chosen.length := by
  have hmem : ∀ g ∈ (chosen.map group : Multiset γ), g ∈ groups := by
    intro g hg
    obtain ⟨b, hb, rfl⟩ := mem_map.mp (Multiset.mem_coe.mp hg)
    exact hsub b hb
  have hsum := Multiset.sum_count_eq_card hmem
  simp only [Multiset.coe_card, length_map, Multiset.coe_count] at hsum
  exact hsum

include h in
theorem countIn_le_capped : countIn group chosen g ≤ capped (cap g) (countIn group l g) := by
  have hle : countIn group chosen g ≤ countIn group l g := countIn_le_of_subset h.nodup h.sub
  cases hc : cap g with
  | none => exact hle
  | some c => exact Nat.le_min.mpr ⟨h.caps g c hc, hle⟩

include h in
/-- While a choice is not complete every group is full or exhausted. -/
theorem capped_le_countIn (hnodup : l.Nodup) (hlt : chosen.length < total) :
    capped (cap g) (countIn group l g) ≤ countIn group chosen g := by
  by_cases hall : ∀ e ∈ l, group e = g → e ∈ chosen
  · have hle : countIn group l g ≤ countIn group chosen g := countIn_le_of_group hnodup hall
    cases cap g with
    | none => exact hle
    | some c => exact (Nat.min_le_right _ _).trans hle
  · push Not at hall
    obtain ⟨e, he, rfl, hout⟩ := hall
    rcases h.left e he hout with ⟨hgroup, -⟩ | ⟨hfull, -⟩
    · obtain ⟨c, hc, hle⟩ := room_eq_false_iff.mp hgroup
      rw [hc]
      exact (Nat.min_le_left _ _).trans hle
    · omega

include h in
/-- **A best choice is complete exactly when the groups can hold that many elements.** -/
theorem length_eq_iff (hnodup : l.Nodup) :
    chosen.length = total ↔ total ≤ capacity group cap l := by
  have hgroups : ∀ b ∈ chosen, group b ∈ (l.map group).toFinset := by
    intro b hb
    exact mem_toFinset.mpr (mem_map_of_mem (h.sub hb))
  have hsum := length_eq_sum_countIn hgroups
  have hsize := h.size
  constructor
  · intro heq
    calc total = ∑ g ∈ (l.map group).toFinset, countIn group chosen g := by rw [hsum, heq]
      _ ≤ capacity group cap l := Finset.sum_le_sum fun g _ => h.countIn_le_capped
  · intro hle
    by_contra hne
    have hlt : chosen.length < total := by omega
    have hcap : capacity group cap l ≤ chosen.length :=
      calc capacity group cap l
        _ ≤ ∑ g ∈ (l.map group).toFinset, countIn group chosen g :=
          Finset.sum_le_sum fun g _ => h.capped_le_countIn hnodup hlt
        _ = chosen.length := hsum
    omega

/-- Where one choice has the group of an element full, the other one, which has the element, leaves
out one of the same score. -/
theorem exists_tied {c c' : List α} (h : Chosen group score cap total c l)
    (h' : Chosen group score cap total c' l) (ha : a ∈ c) (hout : a ∉ c')
    (hroom : room (cap (group a)) (countIn group c' (group a)) = false)
    (hle : ∀ b ∈ c', group b = group a → score b ≤ score a) :
    ∃ b ∈ c', b ∉ c ∧ group b = group a ∧ score b = score a := by
  obtain ⟨k, hk, hfull⟩ := room_eq_false_iff.mp hroom
  obtain ⟨b, hb, hbc, hgroup⟩ := exists_other h'.nodup ((h.caps _ k hk).trans hfull) ha hout
  refine ⟨b, hb, hbc, hgroup, le_antisymm (hle b hb hgroup) ?_⟩
  rcases h.left b (h'.sub hb) hbc with ⟨-, hmin⟩ | ⟨-, hmin⟩
  · exact hmin a ha hgroup.symm
  · exact hmin a ha

/-- **Without a tie across a best choice there is no other one.** -/
theorem unique {c c' : List α} (h : Chosen group score cap total c l)
    (h' : Chosen group score cap total c' l) (hlen : c'.length = c.length)
    (hsettled : ¬Tied group score cap c l) : c'.Perm c := by
  refine (h'.nodup.subperm fun e he => ?_).perm_of_length_le hlen.ge
  by_contra hec
  have hgroup (hroom : room (cap (group e)) (countIn group c (group e)) = false)
      (hle : ∀ a ∈ c, group a = group e → score a ≤ score e) : False := by
    obtain ⟨a, ha, -, hsame, hscore⟩ := exists_tied h' h he hec hroom hle
    exact hsettled ⟨e, h'.sub he, hec, a, ha, hscore, .inl hsame⟩
  rcases h.left e (h'.sub he) hec with ⟨hroom, hle⟩ | ⟨-, hle⟩
  · exact hgroup hroom hle
  · cases hroom : room (cap (group e)) (countIn group c (group e)) with
    | false => exact hgroup hroom fun a ha _ => hle a ha
    | true =>
      -- the choices have one length, so the other one has left something out as well
      obtain ⟨a, ha, hout⟩ : ∃ a ∈ c, a ∉ c' := by
        by_contra hnone
        push Not at hnone
        exact hec (((h.nodup.subperm hnone).perm_of_length_le hlen.le).mem_iff.mpr he)
      rcases h'.left a (h.sub ha) hout with ⟨hfull, hmin⟩ | ⟨-, hmin⟩
      · obtain ⟨b, hb, hbc, hsame, hscore⟩ := exists_tied h h' ha hout hfull hmin
        exact hsettled ⟨b, h'.sub hb, hbc, a, ha, hscore.symm, .inl hsame.symm⟩
      · exact hsettled ⟨e, h'.sub he, hec, a, ha, le_antisymm (hle a ha) (hmin e he), .inr hroom⟩

end Complete

end Chosen

/-! ### Losing an element -/

section Lost

variable {c c' kept pre post : List α} {x b r : α}

/-- The scan without `x` is behind the scan with it: by `x` alone, or by `x` with another element in
its place after which the two take the same. -/
inductive Lost (group : α → γ) (total : Nat) (x : α) (c c' : List α) : Prop
  | behind (hperm : c.Perm (x :: c'))
  | replaced (r : α) (kept : List α) (hperm : c.Perm (x :: kept)) (hperm' : c'.Perm (r :: kept))
      (hsame : group r = group x ∨ total ≤ c.length)

variable (group cap total c b) in
theorem take_eq_or :
    take group cap total c b = c ++ [b] ∧ c.length < total ∧
        room (cap (group b)) (countIn group c (group b)) = true ∨
      take group cap total c b = c ∧ (total ≤ c.length ∨
        room (cap (group b)) (countIn group c (group b)) = false) := by
  unfold take
  split
  · next h => exact .inl ⟨rfl, h⟩
  · next h =>
    rw [not_and_or, not_lt, Bool.not_eq_true] at h
    exact .inr ⟨rfl, h⟩

/-- After a replacement both scans take an element or both leave it. -/
theorem Lost.take_replaced (hperm : c.Perm (x :: kept)) (hperm' : c'.Perm (r :: kept))
    (hsame : group r = group x ∨ total ≤ c.length) :
    Lost group total x (take group cap total c b) (take group cap total c' b) := by
  have hlen : c.length = c'.length := hperm.length_eq.trans hperm'.length_eq.symm
  rcases hsame with hgroup | hfull
  · have hcount : countIn group c (group b) = countIn group c' (group b) := by
      rw [countIn_perm hperm, countIn_perm hperm', countIn_cons, countIn_cons, hgroup]
    unfold take
    rw [hlen, hcount]
    split
    · exact .replaced r (kept ++ [b]) (hperm.append_right _) (hperm'.append_right _) (.inl hgroup)
    · exact .replaced r kept hperm hperm' (.inl hgroup)
  · rw [take, if_neg fun h => hfull.not_gt h.1, take, if_neg fun h => (hlen ▸ hfull).not_gt h.1]
    exact .replaced r kept hperm hperm' (.inr hfull)

/-- **One step of the two scans.** -/
theorem Lost.take (h : Lost group total x c c') :
    Lost group total x (take group cap total c b) (take group cap total c' b) := by
  cases h with
  | replaced r kept hperm hperm' hsame => exact Lost.take_replaced hperm hperm' hsame
  | behind hperm =>
    have hlen : c.length = c'.length + 1 := hperm.length_eq
    have hcount : countIn group c (group b) = _ := countIn_perm hperm
    rw [countIn_cons] at hcount
    rcases take_eq_or group cap total c b with ⟨heq, hlt, hroom⟩ | ⟨heq, hfull⟩
    · -- the scan that has taken less has room as well
      have hroom' : room (cap (group b)) (countIn group c' (group b)) = true := by
        rw [room_eq_true_iff] at hroom ⊢
        intro k hk
        have := hroom k hk
        omega
      rw [heq, Greedy.take, if_pos ⟨by omega, hroom'⟩]
      exact .behind (hperm.append_right _)
    · rw [heq]
      rcases take_eq_or group cap total c' b with ⟨heq', -, hroom⟩ | ⟨heq', -⟩
      · -- the element fits only in the place of the lost one
        refine .replaced b c' hperm (heq' ▸ perm_append_singleton b c') ?_
        rcases hfull with hfull | hgroup
        · exact .inr hfull
        · by_contra hne
          rw [not_or] at hne
          rw [hcount, if_neg (Ne.symm hne.1), Nat.add_zero, hroom] at hgroup
          cases hgroup
      · rw [heq']
        exact .behind hperm

theorem Lost.foldl (h : Lost group total x c c') :
    Lost group total x (post.foldl (Greedy.take group cap total) c)
      (post.foldl (Greedy.take group cap total) c') := by
  induction post generalizing c c' with
  | nil => exact h
  | cons b post ih => exact ih h.take

variable (group cap total pre post x) in
/-- **The scan of an order without one of its elements** takes the same elements, or it is behind by
the lost one. -/
theorem greedy_lost :
    greedy group cap total (pre ++ post) = greedy group cap total (pre ++ x :: post) ∨
      Lost group total x (greedy group cap total (pre ++ x :: post))
        (greedy group cap total (pre ++ post)) := by
  unfold greedy
  rw [List.foldl_append, List.foldl_append, List.foldl_cons]
  rcases take_eq_or group cap total (pre.foldl (take group cap total) []) x with
    ⟨heq, -⟩ | ⟨heq, -⟩
  · rw [heq]
    exact .inr (Lost.behind (List.perm_append_singleton x _)).foldl
  · rw [heq]
    exact .inl rfl

/-- **A greedy scan in increasing score makes a best choice.** -/
theorem greedy_chosen {order : List α} (hnodup : order.Nodup)
    (hsorted : order.Pairwise fun x y => score x ≤ score y) :
    Chosen group score cap total (greedy group cap total order) order := by
  induction order using List.reverseRecOn with
  | nil => exact .nil
  | append_singleton order a ih =>
    obtain ⟨hbefore, -, hle⟩ := pairwise_append.mp hsorted
    have h := ih (nodup_append.mp hnodup).1 hbefore
    have hworse (b : α) (hb : b ∈ greedy group cap total order) : score b ≤ score a :=
      hle b (h.sub hb) a mem_cons_self
    have hnew : a ∉ order := fun hmem =>
      (nodup_append.mp hnodup).2.2 a hmem a mem_cons_self rfl
    have hstep : greedy group cap total (order ++ [a]) =
        take group cap total (greedy group cap total order) a := List.foldl_append
    rw [hstep]
    refine Chosen.perm_from ?_ (perm_append_singleton a order).symm
    rcases take_eq_or group cap total (greedy group cap total order) a with
      ⟨heq, hlt, hroom⟩ | ⟨heq, hfull⟩
    · rw [heq]
      exact (h.add hnew hroom hlt).perm (perm_append_singleton a _).symm
    · rw [heq]
      refine h.skip ?_
      rcases hfull with hfull | hroom
      · exact .inr ⟨le_antisymm h.size hfull, hworse⟩
      · exact .inl ⟨hroom, fun b hb _ => hworse b hb⟩

section Stays

variable [DecidableEq α] (h : Chosen group score cap total c l) (hnodup : l.Nodup)
  (h' : Chosen group score cap total c' (l.filter (· ≠ x)))
include h hnodup h'

/-- **What is chosen besides the lost element stays chosen** exactly when one order of increasing
score explains both choices. -/
theorem Chosen.stays_iff (hlen : c'.length = c.length) : (∀ a ∈ c, a ≠ x → a ∈ c') ↔
    ∃ order : List α, order.Perm l ∧ order.Pairwise (fun a b => score a ≤ score b) ∧
      (greedy group cap total order).Perm c ∧
      (greedy group cap total (order.filter (· ≠ x))).Perm c' := by
  constructor
  · intro hstay
    -- among equal scores the chosen come first, and then what takes the place of the lost one
    obtain ⟨order, hperm, hsorted, hrank⟩ := exists_order score
      (fun a => if a ∈ c then 0 else if a ∈ c' then 1 else 2) l
    refine ⟨order, hperm, hsorted, h.greedy_perm_of_firstInTies hnodup hperm hsorted ?_,
      h'.greedy_perm_of_firstInTies (hnodup.filter _) (hperm.filter _) (hsorted.filter _) ?_⟩
    · refine hrank.imp ?_
      intro a b hle heq hb
      grind
    · refine pairwise_filter.mpr (hrank.imp ?_)
      intro a b hle ha hb heq hmem
      grind
  · rintro ⟨order, hperm, hsorted, hscan, hscan'⟩ a ha hne
    by_cases hx : x ∈ order
    · obtain ⟨pre, post, rfl⟩ := append_of_mem hx
      have hfilter : (pre ++ x :: post).filter (· ≠ x) = pre ++ post := by
        have hmiddle := nodup_middle.mp (hperm.nodup_iff.mpr hnodup)
        rw [filter_append, filter_cons_of_neg (by simp), ← filter_append,
          filter_eq_self]
        intro b hb
        exact decide_eq_true fun heq => (nodup_cons.mp hmiddle).1 (heq ▸ hb)
      rw [hfilter] at hscan'
      rcases greedy_lost group cap total pre post x with heq | hlost
      · exact (hscan'.symm.trans (heq ▸ hscan)).mem_iff.mpr ha
      · cases hlost with
        | behind hbehind =>
          have := hbehind.length_eq
          rw [hscan.length_eq, length_cons, hscan'.length_eq] at this
          omega
        | replaced r kept hkept hkept' _ =>
          have hmem := mem_cons.mp ((hscan.symm.trans hkept).mem_iff.mp ha)
          exact (hscan'.symm.trans hkept').mem_iff.mpr (mem_cons_of_mem r (hmem.resolve_left hne))
    · have hfilter : order.filter (· ≠ x) = order := filter_eq_self.mpr fun b hb =>
        decide_eq_true fun heq => hx (heq ▸ hb)
      rw [hfilter] at hscan'
      exact (hscan'.symm.trans hscan).mem_iff.mpr ha

/-- **Without a tie across a complete choice** it stays but for the lost element. -/
theorem Chosen.stays (hfull : c.length = total) (hfull' : c'.length = total)
    (hsettled : ¬Tied group score cap c l) : ∀ a ∈ c, a ≠ x → a ∈ c' := by
  obtain ⟨order, hperm, hsorted, hrank⟩ := exists_order score (fun a => if a ∈ c' then 0 else 1) l
  have hbest : Chosen group score cap total (greedy group cap total order) l :=
    (greedy_chosen (hperm.nodup_iff.mpr hnodup) hsorted).perm_from hperm
  have hall := (hbest.length_eq_iff hnodup).mpr ((h.length_eq_iff hnodup).mp hfull)
  refine (h.stays_iff hnodup h' (hfull'.trans hfull.symm)).mpr ⟨order, hperm, hsorted,
    h.unique hbest (hall.trans hfull.symm) hsettled, ?_⟩
  exact h'.greedy_perm_of_firstInTies (hnodup.filter _) (hperm.filter _) (hsorted.filter _)
    (Chosen.firstInTies_of_rank (hrank.filter _))

end Stays

end Lost

end Argmin.Greedy
