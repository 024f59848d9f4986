import Mathlib.Data.List.Basic

/-!
# Closing a list under a partial function

`closureFrom step` runs a worklist: it pops a pending element and adds its successor under `step`,
when that is new, to the elements reached and to the pending ones.  Each round uses up one unit of
fuel.

* `reach_of_mem_closureFrom` — what the worklist returns is reached from the roots;
* `mem_closureFrom_of_reach` — **with enough fuel it returns everything that is reached.**
-/

namespace Argmin.Worklist

open List

variable {α : Type} [DecidableEq α] (step : α → Option α)

/-- The worklist, with the elements reached so far and the pending ones. -/
def closureFrom : Nat → List α → List α → List α
  | 0, reached, _ => reached
  | _ + 1, reached, [] => reached
  | fuel + 1, reached, a :: pending =>
    match step a with
    | none => closureFrom fuel reached pending
    | some b =>
      if b ∈ reached then closureFrom fuel reached pending
      else closureFrom fuel (b :: reached) (b :: pending)

omit [DecidableEq α] in
/-- The elements that `step` leads to from `roots`. -/
inductive Reach (roots : List α) : α → Prop where
  | root {a : α} (h : a ∈ roots) : Reach roots a
  | step {a b : α} (h : Reach roots a) (hb : step a = some b) : Reach roots b

variable {step} {roots : List α} {reached pending : List α} {fuel : Nat} {a b : α}

theorem mem_closureFrom (h : a ∈ reached) : a ∈ closureFrom step fuel reached pending := by
  induction fuel generalizing reached pending with
  | zero => exact h
  | succ fuel ih =>
    cases pending with
    | nil => exact h
    | cons next pending =>
      unfold closureFrom
      split
      · exact ih h
      · split
        · exact ih h
        · exact ih (mem_cons_of_mem _ h)

theorem reach_of_mem_closureFrom (hreached : ∀ a ∈ reached, Reach step roots a)
    (hpending : ∀ a ∈ pending, Reach step roots a)
    (h : a ∈ closureFrom step fuel reached pending) : Reach step roots a := by
  induction fuel generalizing reached pending with
  | zero => exact hreached a h
  | succ fuel ih =>
    cases pending with
    | nil => exact hreached a h
    | cons next pending =>
      have hrest : ∀ a ∈ pending, Reach step roots a := fun a ha =>
        hpending a (mem_cons_of_mem _ ha)
      unfold closureFrom at h
      split at h
      · exact ih hreached hrest h
      · next b hb =>
        have hreach : Reach step roots b := .step (hpending next mem_cons_self) hb
        split at h
        · exact ih hreached hrest h
        · exact ih (forall_mem_cons.mpr ⟨hreach, hreached⟩)
            (forall_mem_cons.mpr ⟨hreach, hrest⟩) h

/-- The successors that are still missing are fewer once one of them is reached. -/
theorem length_filter_cons_lt {targets : List α} (hb : b ∈ targets) (hnew : b ∉ reached) :
    (targets.filter (· ∉ b :: reached)).length < (targets.filter (· ∉ reached)).length := by
  have hsub : (targets.filter (· ∉ b :: reached)).Sublist (targets.filter (· ∉ reached)) := by
    refine monotone_filter_right targets fun a ha => ?_
    have hnot := of_decide_eq_true ha
    exact decide_eq_true fun h => hnot (mem_cons_of_mem _ h)
  refine Nat.lt_of_le_of_ne hsub.length_le fun hlength => ?_
  have heq := hsub.eq_of_length hlength
  have hmem : b ∈ targets.filter (· ∉ reached) := mem_filter.mpr ⟨hb, decide_eq_true hnew⟩
  rw [← heq] at hmem
  exact of_decide_eq_true (mem_filter.mp hmem).2 mem_cons_self

/-- What the worklist returns is closed under `step`, when its fuel pays for every pending element
and for every successor still missing. -/
theorem closed_closureFrom {targets : List α} (htargets : ∀ a b, step a = some b → b ∈ targets)
    (hfuel : pending.length + (targets.filter (· ∉ reached)).length ≤ fuel)
    (hdone : ∀ a ∈ reached, a ∈ pending ∨ ∀ b, step a = some b → b ∈ reached)
    (h : a ∈ closureFrom step fuel reached pending) (hb : step a = some b) :
    b ∈ closureFrom step fuel reached pending := by
  induction fuel generalizing reached pending with
  | zero =>
    have hnil : pending = [] := length_eq_zero_iff.mp (by omega)
    subst hnil
    exact ((hdone a h).resolve_left (by simp)) b hb
  | succ fuel ih =>
    cases pending with
    | nil => exact ((hdone a h).resolve_left (by simp)) b hb
    | cons next pending =>
      rw [length_cons] at hfuel
      -- `next` is done when its successor is there already
      have hskip : (∀ b, step next = some b → b ∈ reached) →
          ∀ a ∈ reached, a ∈ pending ∨ ∀ b, step a = some b → b ∈ reached := by
        intro hnext a ha
        rcases hdone a ha with hmem | hclosed
        · rcases mem_cons.mp hmem with rfl | hmem
          · exact .inr hnext
          · exact .inl hmem
        · exact .inr hclosed
      unfold closureFrom at h ⊢
      split at h
      · next hnone =>
        exact ih (by omega) (hskip fun b hb => by rw [hnone] at hb; cases hb) h
      · next c hc =>
        split at h
        · next hmem =>
          rw [if_pos hmem]
          refine ih (by omega) (hskip fun b hb => ?_) h
          cases hc.symm.trans hb
          exact hmem
        · next hnew =>
          have hless := length_filter_cons_lt (htargets next c hc) hnew
          rw [if_neg hnew]
          refine ih ?_ (fun a ha => ?_) h
          · rw [length_cons]
            omega
          · rcases mem_cons.mp ha with rfl | ha
            · exact .inl mem_cons_self
            · rcases hdone a ha with hmem | hclosed
              · rcases mem_cons.mp hmem with rfl | hmem
                · refine .inr fun b hb => ?_
                  cases hc.symm.trans hb
                  exact mem_cons_self
                · exact .inl (mem_cons_of_mem _ hmem)
              · exact .inr fun b hb => mem_cons_of_mem _ (hclosed b hb)

/-- **With enough fuel the worklist returns everything that is reached from the roots.** -/
theorem mem_closureFrom_of_reach (targets : List α)
    (htargets : ∀ a b, step a = some b → b ∈ targets)
    (hfuel : roots.length + targets.length ≤ fuel) (h : Reach step roots a) :
    a ∈ closureFrom step fuel roots roots := by
  have hlength := length_filter_le (fun a => decide (a ∉ roots)) targets
  induction h with
  | root hroot => exact mem_closureFrom hroot
  | step _ hb ih => exact closed_closureFrom htargets (by omega) (fun a ha => .inl ha) ih hb

end Argmin.Worklist
