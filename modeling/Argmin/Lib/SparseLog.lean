import Mathlib.Data.List.Basic

/-!
# Sparse logs

A log of dated entries, each of which mentions some of the names whose value changed after it.  The
value of a name at a time is its first mention at or after that time (`firstFrom`); a name that is
not mentioned from then on still has its current value.

* `firstFrom_append` — what a newer entry adds;
* `le_of_firstEntry` — no mention is before the first entry;
* `firstFrom_filterMap` — entries may be thinned out as long as the first mention stays.
-/

namespace Argmin.SparseLog

open List

variable {α β γ : Type*} (time : α → Nat) (mention : α → Option β)

/-- The first mention at or after `start`. -/
def firstFrom (log : List α) (start : Nat) : Option β :=
  (log.filter (start ≤ time ·)).findSome? mention

/-- The entry that makes the first mention at or after `start`. -/
def firstEntry (log : List α) (start : Nat) : Option α :=
  (log.filter (start ≤ time ·)).find? fun a => (mention a).isSome

variable {time mention} {log : List α} {start : Nat} {a : α}

theorem firstFrom_append (log more : List α) : firstFrom time mention (log ++ more) start =
      (firstFrom time mention log start).or (firstFrom time mention more start) := by
  simp only [firstFrom, filter_append, findSome?_append]

theorem firstFrom_singleton (h : start ≤ time a) :
    firstFrom time mention [a] start = mention a := by
  simp [firstFrom, h]

theorem firstFrom_of_forall_lt (h : ∀ a ∈ log, time a < start) :
    firstFrom time mention log start = none := by
  have hnil : log.filter (start ≤ time ·) = [] :=
    filter_eq_nil_iff.mpr fun a ha => by simpa using h a ha
  rw [firstFrom, hnil, findSome?_nil]

theorem mem_of_firstEntry (h : firstEntry time mention log start = some a) :
    a ∈ log ∧ start ≤ time a ∧ (mention a).isSome := by
  have hmem := mem_of_find?_eq_some h
  have hsome := find?_some h
  simp only [mem_filter, decide_eq_true_eq] at hmem
  exact ⟨hmem.1, hmem.2, hsome⟩

/-- An entry that mentions is not before the first one, in a log in order. -/
theorem le_of_firstEntry (hsorted : log.Pairwise (time · < time ·)) {b : α} (hb : b ∈ log)
    (hstart : start ≤ time b) (hmention : (mention b).isSome) :
    ∃ a, firstEntry time mention log start = some a ∧ time a ≤ time b := by
  have hmem : b ∈ log.filter (start ≤ time ·) := mem_filter.mpr ⟨hb, by simpa using hstart⟩
  have hlater := hsorted.filter (start ≤ time ·)
  cases hfirst : firstEntry time mention log start with
  | none => exact absurd hmention (find?_eq_none.mp hfirst b hmem)
  | some a =>
    refine ⟨a, rfl, ?_⟩
    obtain ⟨-, before, after, heq, hbefore⟩ := find?_eq_some_iff_append.mp hfirst
    rw [heq] at hmem hlater
    rcases mem_append.mp hmem with hmem | hmem
    · simpa [hmention] using hbefore b hmem
    · rcases mem_cons.mp hmem with rfl | hmem
      · exact Nat.le_refl _
      · exact Nat.le_of_lt
          ((pairwise_cons.mp (pairwise_append.mp hlater).2.1).1 b hmem)

/-- The first entry of a log gives the first mention, under every reading of the entries that
mentions as often. -/
theorem firstFrom_of_firstEntry {f : α → Option γ}
    (hf : ∀ a, (f a).isSome = (mention a).isSome)
    (h : firstEntry time mention log start = some a) :
    firstFrom time f log start = f a := by
  unfold firstEntry at h
  unfold firstFrom
  revert h
  generalize log.filter (start ≤ time ·) = later
  intro h
  induction later with
  | nil => cases h
  | cons b rest ih =>
    cases hb : mention b with
    | none =>
      rw [find?_cons_of_neg (by simp [hb])] at h
      have hnone : f b = none := by simpa [hb] using hf b
      rw [findSome?_cons, hnone]
      exact ih h
    | some value =>
      rw [find?_cons_of_pos (by simp [hb])] at h
      cases h
      obtain ⟨value', hvalue'⟩ : ∃ value', f a = some value' :=
        Option.isSome_iff_exists.mp (by simp [hf, hb])
      rw [findSome?_cons, hvalue']

theorem firstFrom_of_firstEntry_none (h : firstEntry time mention log start = none) :
    firstFrom time mention log start = none := by
  refine findSome?_eq_none_iff.mpr fun a ha => ?_
  simpa using find?_eq_none.mp h a ha

/-- **Thinning out.**  Entries are dropped or lose mentions, but the entry of the first mention
keeps it. -/
theorem firstFrom_filterMap {g : α → Option α}
    (hg : ∀ a b, g a = some b → time b = time a ∧ (mention b = mention a ∨ mention b = none))
    (hfirst : ∀ a, firstEntry time mention log start = some a →
      ∃ b, g a = some b ∧ mention b = mention a) :
    firstFrom time mention (log.filterMap g) start = firstFrom time mention log start := by
  induction log with
  | nil => rfl
  | cons a rest ih =>
    by_cases hstart : start ≤ time a
    · cases hmention : mention a with
      | some value =>
        -- the head makes the first mention
        have hentry : firstEntry time mention (a :: rest) start = some a := by
          simp [firstEntry, hstart, hmention]
        obtain ⟨b, hb, hvalue⟩ := hfirst a hentry
        have hb' : start ≤ time b := (hg a b hb).1 ▸ hstart
        simp [firstFrom, hb, hb', hstart, hvalue, hmention]
      | none =>
        have hrest := ih fun c hc => hfirst c (by simpa [firstEntry, hstart, hmention] using hc)
        have hskip : firstFrom time mention (a :: rest) start =
            firstFrom time mention rest start := by
          simp [firstFrom, hstart, hmention]
        rw [hskip, ← hrest]
        cases hb : g a with
        | none => rw [filterMap_cons_none hb]
        | some b =>
          have hnone : mention b = none := (hg a b hb).2.elim (fun h => h.trans hmention) id
          have hb' : start ≤ time b := (hg a b hb).1 ▸ hstart
          simp [firstFrom, hb, hb', hnone]
    · have hrest := ih fun c hc => hfirst c (by simpa [firstEntry, hstart] using hc)
      have hskip : firstFrom time mention (a :: rest) start =
          firstFrom time mention rest start := by
        simp [firstFrom, hstart]
      rw [hskip, ← hrest]
      cases hb : g a with
      | none => rw [filterMap_cons_none hb]
      | some b =>
        have hb' : ¬start ≤ time b := (hg a b hb).1 ▸ hstart
        simp [firstFrom, hb, hb']

end Argmin.SparseLog
