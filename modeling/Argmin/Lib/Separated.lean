import Mathlib.Data.List.Basic

/-!
# Pieces with separators

When a concatenation with separators determines its pieces.

* `append_cons_inj_of_notMem` — what is before the first separator, and what is after it;
* `intercalate_inj` — pieces that are not empty and do not hold the separator;
* `intercalate_map_intercalate` — joining groups of pieces that were joined;
* `intercalate_replicate_inj` — the same text repeated.
-/

namespace Argmin.Separated

open List

variable {α : Type*} {sep : α} {x : List α} {xs ys : List (List α)}

theorem append_cons_inj_of_notMem {a a' b b' : List α} (ha : sep ∉ a) (ha' : sep ∉ a')
    (h : a ++ sep :: b = a' ++ sep :: b') : a = a' ∧ b = b' := by
  induction a generalizing a' with
  | nil =>
    cases a' with
    | nil => exact ⟨rfl, (cons.inj h).2⟩
    | cons x a' =>
      rw [nil_append, cons_append, cons.injEq] at h
      exact absurd (h.1 ▸ mem_cons_self) ha'
  | cons x a ih =>
    cases a' with
    | nil =>
      rw [nil_append, cons_append, cons.injEq] at h
      exact absurd (h.1 ▸ mem_cons_self) ha
    | cons y a' =>
      rw [cons_append, cons_append, cons.injEq] at h
      obtain ⟨rfl, rfl⟩ := ih (fun hmem => ha (mem_cons_of_mem _ hmem))
        (fun hmem => ha' (mem_cons_of_mem _ hmem)) h.2
      exact ⟨by rw [h.1], rfl⟩

theorem intercalate_cons (h : xs ≠ []) :
    [sep].intercalate (x :: xs) = x ++ sep :: [sep].intercalate xs := by
  rw [intercalate_cons_of_ne_nil h, append_assoc]
  rfl

theorem mem_intercalate {c : α} (h : c ∈ [sep].intercalate xs) : c = sep ∨ ∃ x ∈ xs, c ∈ x := by
  induction xs with
  | nil => cases h
  | cons x xs ih =>
    by_cases hnil : xs = []
    · subst hnil
      rw [intercalate_singleton] at h
      exact .inr ⟨x, mem_cons_self, h⟩
    · rw [intercalate_cons hnil, mem_append, mem_cons] at h
      rcases h with h | h | h
      · exact .inr ⟨x, mem_cons_self, h⟩
      · exact .inl h
      · exact (ih h).imp_right fun ⟨y, hy, hc⟩ => ⟨y, mem_cons_of_mem _ hy, hc⟩

theorem intercalate_append (hxs : xs ≠ []) (hys : ys ≠ []) :
    [sep].intercalate (xs ++ ys) = [sep].intercalate xs ++ sep :: [sep].intercalate ys := by
  induction xs with
  | nil => exact absurd rfl hxs
  | cons x xs ih =>
    by_cases hnil : xs = []
    · rw [hnil, cons_append, nil_append, intercalate_cons hys, intercalate_singleton]
    · rw [cons_append, intercalate_cons (append_ne_nil_of_left_ne_nil hnil ys),
        intercalate_cons hnil, ih hnil, append_assoc, cons_append]

/-- Joining groups of pieces that were joined is joining all the pieces. -/
theorem intercalate_map_intercalate {groups : List (List (List α))}
    (h : ∀ group ∈ groups, group ≠ []) :
    [sep].intercalate (groups.map [sep].intercalate) = [sep].intercalate groups.flatten := by
  induction groups with
  | nil => rfl
  | cons group groups ih =>
    have hrest := ih fun other hother => h other (mem_cons_of_mem _ hother)
    by_cases hnil : groups = []
    · rw [hnil, map_cons, map_nil, intercalate_singleton, flatten_cons,
        flatten_nil, append_nil]
    · have hflat : groups.flatten ≠ [] := by
        intro hempty
        obtain ⟨first, hfirst⟩ := exists_mem_of_ne_nil groups hnil
        exact h first (mem_cons_of_mem _ hfirst) (flatten_eq_nil_iff.mp hempty first hfirst)
      rw [map_cons, intercalate_cons (by simpa using hnil), hrest, flatten_cons,
        intercalate_append (h group mem_cons_self) hflat]

variable [DecidableEq α]

/-- Pieces that are not empty and do not hold the separator are determined by their join. -/
theorem intercalate_inj (hxs : ∀ x ∈ xs, sep ∉ x ∧ x ≠ [])
    (hys : ∀ y ∈ ys, sep ∉ y ∧ y ≠ []) (h : [sep].intercalate xs = [sep].intercalate ys) :
    xs = ys := by
  have hnil : ∀ zs : List (List α), (∀ z ∈ zs, sep ∉ z ∧ z ≠ []) →
      [sep].intercalate zs = [] → zs = [] := by
    intro zs hzs hempty
    cases zs with
    | nil => rfl
    | cons z zs =>
      refine absurd ?_ (hzs z mem_cons_self).2
      by_cases hrest : zs = []
      · rw [hrest, intercalate_singleton] at hempty
        exact hempty
      · rw [intercalate_cons hrest] at hempty
        exact (append_eq_nil_iff.mp hempty).1
  by_cases hx : xs = []
  · rw [hx, intercalate_nil] at h
    rw [hx, hnil ys hys h.symm]
  · by_cases hy : ys = []
    · rw [hy, intercalate_nil] at h
      exact absurd (hnil xs hxs h) hx
    · have hsplit := splitOn_intercalate sep (fun x hmem => (hxs x hmem).1) hx
      rw [h, splitOn_intercalate sep (fun y hmem => (hys y hmem).1) hy] at hsplit
      exact hsplit.symm

omit [DecidableEq α] in
/-- A text is determined by its repetition. -/
theorem intercalate_replicate_inj {n : Nat} (hn : 0 < n) {y : List α}
    (h : [sep].intercalate (List.replicate n x) = [sep].intercalate (List.replicate n y)) :
    x = y := by
  have hlength : ∀ (m : Nat) (z : List α),
      ([sep].intercalate (replicate (m + 1) z)).length = (m + 1) * z.length + m := by
    intro m z
    induction m with
    | zero => simp
    | succ m ih =>
      rw [replicate_succ, intercalate_cons (by simp), length_append, length_cons, ih,
        Nat.succ_mul (m + 1)]
      omega
  obtain ⟨m, rfl⟩ : ∃ m, n = m + 1 := ⟨n - 1, by omega⟩
  have hsame : x.length = y.length := by
    have hlengths := congrArg length h
    rw [hlength, hlength] at hlengths
    exact Nat.eq_of_mul_eq_mul_left hn (by omega)
  cases m with
  | zero => simpa using h
  | succ m =>
    rw [replicate_succ, replicate_succ (a := y), intercalate_cons (by simp),
      intercalate_cons (by simp)] at h
    exact (append_inj h hsame).1

end Argmin.Separated
