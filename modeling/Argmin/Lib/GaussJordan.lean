import Mathlib.Data.Matrix.Mul
import Mathlib.Tactic.LinearCombination

/-!
# Inverting a matrix by row operations

The operations are applied to a matrix and to the identity beside it.  After the first `p` columns
the matrix has unit columns there (`Reduced`).

* `RowOp` — an operation on rows; `rowOp_swap`, `rowOp_scale`, `rowOp_add`;
* `Reduced.exists_pivot` — as long as the matrix sends only zero to zero there is a next pivot;
* `Reduced.swap`, `Reduced.pivot` — the steps of one column;
* `Reduced.mul_eq_one` — what stands beside the matrix at the end is its inverse.
-/

namespace Argmin.GaussJordan

open Matrix

variable {F : Type*} [Field F] {n : ℕ}

def swapRows (p q : Fin n) (M : Matrix (Fin n) (Fin n) F) : Matrix (Fin n) (Fin n) F :=
  fun r => M (Equiv.swap p q r)

def scaleRow (p : Fin n) (a : F) (M : Matrix (Fin n) (Fin n) F) : Matrix (Fin n) (Fin n) F :=
  fun r c => if r = p then M r c * a else M r c

/-- Multiples of one row are added to the others. -/
def addRow (p : Fin n) (factor : Fin n → F) (M : Matrix (Fin n) (Fin n) F) :
    Matrix (Fin n) (Fin n) F :=
  fun r c => if r = p then M r c else M r c + factor r * M p c

/-- An operation on rows that can be undone. -/
structure RowOp (f : Matrix (Fin n) (Fin n) F → Matrix (Fin n) (Fin n) F) : Prop where
  mul : ∀ M N, f M * N = f (M * N)
  reflects : ∀ M v, f M *ᵥ v = 0 → M *ᵥ v = 0

theorem rowOp_swap (p q : Fin n) : RowOp (swapRows (F := F) p q) where
  mul M N := rfl
  reflects M v h := by
    funext r
    have hr := congrFun h (Equiv.swap p q r)
    simp only [swapRows, mulVec, Equiv.swap_apply_self] at hr
    exact hr

theorem rowOp_scale (p : Fin n) {a : F} (ha : a ≠ 0) : RowOp (scaleRow p a) where
  mul M N := by
    ext r c
    simp only [scaleRow, mul_apply]
    split
    · rw [Finset.sum_mul]
      exact Finset.sum_congr rfl fun j _ => by ring
    · rfl
  reflects M v h := by
    funext r
    have hr := congrFun h r
    simp only [scaleRow, mulVec, dotProduct, Pi.zero_apply] at hr ⊢
    by_cases hrp : r = p
    · simp only [hrp, if_true, mul_right_comm _ a, ← Finset.sum_mul] at hr
      rw [hrp]
      exact (mul_eq_zero.mp hr).resolve_right ha
    · simp only [hrp, if_false] at hr
      exact hr

theorem rowOp_add (p : Fin n) (factor : Fin n → F) : RowOp (addRow p factor) where
  mul M N := by
    ext r c
    simp only [addRow, mul_apply]
    split
    · rfl
    · rw [Finset.mul_sum, ← Finset.sum_add_distrib]
      exact Finset.sum_congr rfl fun j _ => by ring
  reflects M v h := by
    have hp : ∑ j, M p j * v j = 0 := by
      have hrow := congrFun h p
      simpa only [addRow, mulVec, dotProduct, if_true, Pi.zero_apply] using hrow
    funext r
    have hr := congrFun h r
    simp only [addRow, mulVec, dotProduct, Pi.zero_apply] at hr ⊢
    by_cases hrp : r = p
    · rw [hrp]
      exact hp
    · simp only [hrp, if_false, add_mul, mul_assoc, Finset.sum_add_distrib, ← Finset.mul_sum,
        hp, mul_zero, add_zero] at hr
      exact hr

/-- **The state of the elimination**: `output` is what turns `A` into `input`, nothing that `A`
keeps is lost, and the first `p` columns of `input` are those of the identity. -/
structure Reduced (A : Matrix (Fin n) (Fin n) F) (p : ℕ)
    (input output : Matrix (Fin n) (Fin n) F) : Prop where
  track : output * A = input
  kernel : ∀ v, input *ᵥ v = 0 → A *ᵥ v = 0
  unit : ∀ r c : Fin n, c.val < p → input r c = if r = c then 1 else 0

namespace Reduced

variable {A input output : Matrix (Fin n) (Fin n) F} {p : ℕ}

theorem start (A : Matrix (Fin n) (Fin n) F) : Reduced A 0 A 1 where
  track := one_mul A
  kernel _ := id
  unit _ _ h := absurd h (Nat.not_lt_zero _)

/-- An operation that leaves the unit columns alone. -/
theorem rowOp {f : Matrix (Fin n) (Fin n) F → Matrix (Fin n) (Fin n) F} (hf : RowOp f)
    (h : Reduced A p input output)
    (hunit : ∀ r c : Fin n, c.val < p → f input r c = input r c) :
    Reduced A p (f input) (f output) where
  track := by rw [hf.mul, h.track]
  kernel v hv := h.kernel v (hf.reflects input v hv)
  unit r c hc := by rw [hunit r c hc, h.unit r c hc]

/-- **There is a next pivot**: otherwise the column would be a combination of the unit columns. -/
theorem exists_pivot (h : Reduced A p input output) (hA : ∀ v, A *ᵥ v = 0 → v = 0) (hp : p < n) :
    ∃ q : Fin n, p ≤ q.val ∧ input q ⟨p, hp⟩ ≠ 0 := by
  by_contra hnone
  push Not at hnone
  -- the column is then the image of itself, as it is of the unit vector
  have hself : input *ᵥ (fun c => input c ⟨p, hp⟩) = fun c => input c ⟨p, hp⟩ := by
    funext r
    simp only [mulVec, dotProduct]
    rw [Finset.sum_eq_single r]
    · by_cases hr : r.val < p
      · rw [h.unit r r hr, if_pos rfl, one_mul]
      · rw [hnone r (Nat.not_lt.mp hr), mul_zero]
    · intro c _ hcr
      by_cases hc : c.val < p
      · rw [h.unit r c hc, if_neg hcr.symm, zero_mul]
      · rw [hnone c (Nat.not_lt.mp hc), mul_zero]
    · intro hout
      exact absurd (Finset.mem_univ r) hout
  have hunit : input *ᵥ (Pi.single ⟨p, hp⟩ 1) = fun c => input c ⟨p, hp⟩ := by
    rw [mulVec_single_one]
    rfl
  have hzero : (fun c => input c ⟨p, hp⟩) - Pi.single ⟨p, hp⟩ 1 = 0 := by
    refine hA _ (h.kernel _ ?_)
    rw [mulVec_sub, hself, hunit, sub_self]
  have hp' := congrFun hzero ⟨p, hp⟩
  rw [Pi.sub_apply, Pi.single_eq_same, hnone ⟨p, hp⟩ le_rfl, zero_sub, Pi.zero_apply,
    neg_eq_zero] at hp'
  exact one_ne_zero hp'

theorem swap (h : Reduced A p input output) {p' q : Fin n} (hp : p ≤ p'.val) (hq : p ≤ q.val) :
    Reduced A p (swapRows p' q input) (swapRows p' q output) := by
  refine h.rowOp (rowOp_swap p' q) ?_
  intro r c hc
  have hcp : c ≠ p' := fun heq => by rw [heq] at hc; omega
  have hcq : c ≠ q := fun heq => by rw [heq] at hc; omega
  have hiff : Equiv.swap p' q r = c ↔ r = c := by
    constructor
    · intro heq
      have hr : r = Equiv.swap p' q c := by rw [← heq, Equiv.swap_apply_self]
      rw [hr, Equiv.swap_apply_of_ne_of_ne hcp hcq]
    · rintro rfl
      exact Equiv.swap_apply_of_ne_of_ne hcp hcq
  rw [swapRows, h.unit _ c hc, h.unit r c hc]
  simp only [hiff]

/-- **A column is made a unit column** by scaling the row of its pivot and clearing the others. -/
theorem pivot (h : Reduced A p input output) {hp : p < n} (hpivot : input ⟨p, hp⟩ ⟨p, hp⟩ ≠ 0)
    {input' output' : Matrix (Fin n) (Fin n) F}
    (hinput : scaleRow ⟨p, hp⟩ (input ⟨p, hp⟩ ⟨p, hp⟩)⁻¹ input = input')
    (houtput : scaleRow ⟨p, hp⟩ (input ⟨p, hp⟩ ⟨p, hp⟩)⁻¹ output = output') :
    Reduced A (p + 1) (addRow ⟨p, hp⟩ (fun r => - input' r ⟨p, hp⟩) input')
      (addRow ⟨p, hp⟩ (fun r => - input' r ⟨p, hp⟩) output') := by
  have hrow : ∀ c : Fin n, c.val < p → input ⟨p, hp⟩ c = 0 := by
    intro c hc
    rw [h.unit _ c hc, if_neg fun heq => by rw [← heq] at hc; exact Nat.lt_irrefl p hc]
  have hscaled : Reduced A p input' output' := by
    subst hinput houtput
    refine h.rowOp (rowOp_scale _ (inv_ne_zero hpivot)) ?_
    intro r c hc
    rw [scaleRow]
    split
    · next hr => rw [hr, hrow c hc, zero_mul]
    · rfl
  have hone : input' ⟨p, hp⟩ ⟨p, hp⟩ = 1 := by
    rw [← hinput, scaleRow, if_pos rfl, mul_inv_cancel₀ hpivot]
  have hrow' : ∀ c : Fin n, c.val < p → input' ⟨p, hp⟩ c = 0 := by
    intro c hc
    rw [← hinput, scaleRow, if_pos rfl, hrow c hc, zero_mul]
  have hcleared := hscaled.rowOp (rowOp_add ⟨p, hp⟩ fun r => - input' r ⟨p, hp⟩) (by
    intro r c hc
    rw [addRow]
    split
    · rfl
    · rw [hrow' c hc, mul_zero, add_zero])
  refine { hcleared with unit := ?_ }
  intro r c hc
  by_cases hlt : c.val < p
  · exact hcleared.unit r c hlt
  · have hcp : c = ⟨p, hp⟩ := Fin.ext (Nat.le_antisymm (Nat.lt_succ_iff.mp hc) (Nat.not_lt.mp hlt))
    subst hcp
    rw [addRow]
    by_cases hr : r = ⟨p, hp⟩
    · rw [if_pos hr, if_pos hr, hr, hone]
    · rw [if_neg hr, if_neg hr, hone, mul_one, add_neg_cancel]

/-- **At the end the identity has become the inverse.** -/
theorem mul_eq_one (h : Reduced A n input output) : output * A = 1 := by
  rw [h.track]
  ext r c
  rw [h.unit r c c.isLt, one_apply]

end Reduced

end Argmin.GaussJordan
