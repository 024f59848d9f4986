import Mathlib.LinearAlgebra.Lagrange

/-!
# The identity over a Cauchy matrix

Rows are labelled by the columns themselves, which give the rows of the identity, and by further
labels, which give the rows of a Cauchy matrix: the inverses of the differences of points.  When all
points are distinct, as many rows as there are columns are always independent
(`systematic_independent`).
-/

namespace Argmin.SystematicCauchy

open Polynomial Finset

variable {F κ ρ : Type*} [Field F] [DecidableEq κ] (x : κ → F) (y : ρ → F)

/-- The row of a label. -/
def systematic : κ ⊕ ρ → κ → F
  | .inl i, c => if i = c then 1 else 0
  | .inr r, c => (y r - x c)⁻¹

variable {x y} {v : κ → F}

/-- The polynomial whose values at the points of the Cauchy rows are the products of the rows with
`v`, up to a factor. -/
noncomputable def combination (x v : κ → F) (s : Finset κ) : F[X] :=
  ∑ c ∈ s, C (v c) * Lagrange.nodal (s.erase c) x

theorem degree_combination_lt {s : Finset κ} : (combination x v s).degree < #s := by
  have hbound : ∀ c ∈ s, (C (v c) * Lagrange.nodal (s.erase c) x).degree < #s := by
    intro c hc
    have hcard : #(s.erase c) < #s := card_erase_lt_of_mem hc
    refine lt_of_le_of_lt (degree_mul_le _ _) ?_
    refine lt_of_le_of_lt (add_le_add_left degree_C_le _) ?_
    rw [zero_add, Lagrange.degree_nodal]
    exact_mod_cast hcard
  exact (degree_sum_le _ _).trans_lt ((Finset.sup_lt_iff (WithBot.bot_lt_coe _)).mpr hbound)

theorem eval_combination {s : Finset κ} {p : F} (hne : ∀ c ∈ s, p ≠ x c) :
    (combination x v s).eval p = (∏ c ∈ s, (p - x c)) * ∑ c ∈ s, (p - x c)⁻¹ * v c := by
  rw [combination, eval_finsetSum, mul_sum]
  refine sum_congr rfl ?_
  intro c hc
  have hsub : p - x c ≠ 0 := sub_ne_zero.mpr (hne c hc)
  rw [eval_mul, eval_C, Lagrange.eval_nodal, ← mul_prod_erase s _ hc]
  field_simp

theorem eval_combination_self {s : Finset κ} {c : κ} (hc : c ∈ s) :
    (combination x v s).eval (x c) = v c * ∏ d ∈ s.erase c, (x c - x d) := by
  rw [combination, eval_finsetSum, sum_eq_single c]
  · rw [eval_mul, eval_C, Lagrange.eval_nodal]
  · intro d _ hdc
    rw [eval_mul, Lagrange.eval_nodal_at_node (mem_erase.mpr ⟨hdc.symm, hc⟩), mul_zero]
  · intro hout
    exact absurd hc hout

variable [Fintype κ] {rows : κ → κ ⊕ ρ}

omit [DecidableEq κ] in
/-- The columns that are not zero are no more than the Cauchy rows: each row of the identity forces
a zero. -/
theorem card_support_le [DecidableEq F] (hrows : Function.Injective rows)
    (hzero : ∀ i c, rows i = .inl c → v c = 0) :
    #{c | v c ≠ 0} ≤ #{i | (rows i).isRight = true} := by
  -- the identity rows go one to one to columns that are zero
  have hleft : ∀ i ∈ ({i | ¬ (rows i).isRight = true} : Finset κ), ∃ c, rows i = .inl c := by
    intro i hi
    rw [mem_filter, Sum.not_isRight, Sum.isLeft_iff] at hi
    exact hi.2
  have hle : #{i | ¬ (rows i).isRight = true} ≤ #{c | ¬ v c ≠ 0} := by
    refine card_le_card_of_injOn (fun i => (rows i).elim id fun _ => i) ?_ ?_
    · intro i hi
      obtain ⟨c, hrow⟩ := hleft i hi
      have hc : ¬ v c ≠ 0 := not_not.mpr (hzero i c hrow)
      simpa only [mem_coe, mem_filter, hrow, Sum.elim_inl, id_eq, mem_univ, true_and] using hc
    · intro i hi j hj heq
      obtain ⟨c, hrow⟩ := hleft i hi
      obtain ⟨d, hrow'⟩ := hleft j hj
      simp only [hrow, hrow', Sum.elim_inl, id_eq] at heq
      exact hrows (by rw [hrow, hrow', heq])
  have hrow := card_filter_add_card_filter_not (s := univ) fun i => (rows i).isRight = true
  have hcol := card_filter_add_card_filter_not (s := univ) fun c => v c ≠ 0
  omega

/-- **As many rows as columns are independent**: a vector that they all send to zero is zero. -/
theorem systematic_independent (hx : Function.Injective x) (hy : Function.Injective y)
    (hxy : ∀ r c, y r ≠ x c) (hrows : Function.Injective rows)
    (h : ∀ i, ∑ c, systematic x y (rows i) c * v c = 0) : v = 0 := by
  classical
  have hzero : ∀ i c, rows i = .inl c → v c = 0 := by
    intro i c hrow
    have hi := h i
    rw [hrow] at hi
    simpa [systematic] using hi
  have hright : ∀ i ∈ ({i | (rows i).isRight = true} : Finset κ), ∃ r, rows i = .inr r := by
    intro i hi
    rw [mem_filter, Sum.isRight_iff] at hi
    exact hi.2
  -- the combination over the columns that are left has too many roots
  have hcomb : combination x v {c | v c ≠ 0} = 0 := by
    refine eq_zero_of_degree_lt_of_eval_index_eq_zero (v := fun i => (rows i).elim (fun _ => 0) y)
      {i | (rows i).isRight = true} ?_ ?_ ?_
    · intro i hi j hj heq
      obtain ⟨r, hrow⟩ := hright i hi
      obtain ⟨t, hrow'⟩ := hright j hj
      simp only [hrow, hrow', Sum.elim_inr] at heq
      exact hrows (by rw [hrow, hrow', hy heq])
    · exact degree_combination_lt.trans_le (by exact_mod_cast card_support_le hrows hzero)
    · intro i hi
      obtain ⟨r, hrow⟩ := hright i hi
      have hi := h i
      simp only [hrow, systematic] at hi
      rw [hrow, Sum.elim_inr, eval_combination fun c _ => hxy r c]
      have hsupport : ∑ c with v c ≠ 0, (y r - x c)⁻¹ * v c = 0 := by
        refine Eq.trans ?_ hi
        rw [sum_filter]
        refine sum_congr rfl ?_
        intro c _
        by_cases hc : v c = 0
        · rw [if_neg (not_not.mpr hc), hc, mul_zero]
        · rw [if_pos hc]
      rw [hsupport, mul_zero]
  funext c
  by_contra hc
  have hmem : c ∈ ({c | v c ≠ 0} : Finset κ) := mem_filter.mpr ⟨mem_univ c, hc⟩
  have hself : v c * ∏ d ∈ ({c | v c ≠ 0} : Finset κ).erase c, (x c - x d) = 0 := by
    rw [← eval_combination_self hmem, hcomb, eval_zero]
  rcases mul_eq_zero.mp hself with hv | hprod
  · exact hc hv
  · obtain ⟨d, hd, hdiff⟩ := prod_eq_zero_iff.mp hprod
    exact (mem_erase.mp hd).1 (hx (sub_eq_zero.mp hdiff)).symm

end Argmin.SystematicCauchy
