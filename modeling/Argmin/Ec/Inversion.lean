import Argmin.Ec.Codec
import Argmin.Lib.GaussJordan
import Mathlib.LinearAlgebra.Matrix.NonsingularInverse

/-!
# The inversion finds the inverse

`invertMatrix` is a Gauss–Jordan elimination over the field of bytes: each round keeps the state of
`GaussJordan.Reduced`, and a matrix that sends only zero to zero never runs out of pivots.

* `choosePivot_cases`, `pivotRound_cases` — one round;
* `rounds_cases`, `invertMatrix_spec` — the whole elimination;
* `invertMatrix_exact` — it succeeds on the invertible matrices only, with the inverse.
-/

namespace Argmin.Ec

open Matrix List
open GaussJordan (Reduced)

variable {n : Nat}

/-- A matrix of bytes as a matrix over the field. -/
def toGf (M : Mat n) : Matrix (Fin n) (Fin n) Gf := fun r c => Gf.of (M.entry r c)

theorem toGf_identity : toGf (Mat.identity n) = 1 := by
  ext r c
  rw [toGf, Mat.identity, Mat.entry_ofFn, one_apply]
  split <;> rfl

theorem toGf_swapRows (M : Mat n) (p q : Fin n) :
    toGf (M.swapRows p q) = GaussJordan.swapRows p q (toGf M) := by
  ext r c
  rw [toGf, Mat.swapRows, Mat.entry_ofFn, GaussJordan.swapRows, Equiv.swap_apply_def]
  rfl

theorem toGf_scaleRow (M : Mat n) (p : Fin n) (scale : UInt8) :
    toGf (M.scaleRow p scale) = GaussJordan.scaleRow p (Gf.of scale) (toGf M) := by
  ext r c
  rw [toGf, Mat.scaleRow, Mat.entry_ofFn, GaussJordan.scaleRow]
  split <;> rfl

theorem toGf_clearRows (M : Mat n) (p : Fin n) (factor : Fin n → UInt8) :
    toGf (M.clearRows p factor) = GaussJordan.addRow p (fun r => Gf.of (factor r)) (toGf M) := by
  ext r c
  rw [toGf, Mat.clearRows, Mat.entry_ofFn, GaussJordan.addRow]
  split
  · rfl
  · split
    · next hzero =>
      rw [hzero, Gf.of_zero, zero_mul, add_zero]
      rfl
    · rfl

variable {A : Matrix (Fin n) (Fin n) Gf} {state : Mat n × Mat n} {p : Nat} {hp : p < n}

/-- The search finds a row with a pivot as long as the matrix sends only zero to zero. -/
theorem choosePivot_cases (h : Reduced A p (toGf state.1) (toGf state.2)) :
    (choosePivot state ⟨p, hp⟩ = none ∧ ¬∀ v, A *ᵥ v = 0 → v = 0) ∨
    ∃ next, choosePivot state ⟨p, hp⟩ = some next ∧
      Reduced A p (toGf next.1) (toGf next.2) ∧ next.1.entry ⟨p, hp⟩ ⟨p, hp⟩ ≠ 0 := by
  rw [choosePivot]
  by_cases hzero : state.1.entry ⟨p, hp⟩ ⟨p, hp⟩ = 0
  · rw [if_pos hzero]
    cases hfind : (finRange n).find? fun row =>
        (⟨p, hp⟩ : Fin n) < row ∧ state.1.entry row ⟨p, hp⟩ ≠ 0 with
    | none =>
      refine .inl ⟨rfl, fun hA => ?_⟩
      obtain ⟨q, hq, hpivot⟩ := h.exists_pivot hA hp
      have hlt : (⟨p, hp⟩ : Fin n) < q := by
        refine lt_of_le_of_ne hq ?_
        rintro rfl
        exact hpivot hzero
      have hnone := find?_eq_none.mp hfind q (mem_finRange q)
      exact absurd (decide_eq_true ⟨hlt, hpivot⟩) hnone
    | some swapRow =>
      have hfound := find?_some hfind
      obtain ⟨hafter, hentry⟩ := of_decide_eq_true hfound
      refine .inr ⟨_, rfl, ?_, ?_⟩
      · rw [toGf_swapRows, toGf_swapRows]
        exact h.swap le_rfl (Nat.le_of_lt hafter)
      · simp only [Mat.swapRows, Mat.entry_ofFn, if_true]
        exact hentry
  · rw [if_neg hzero]
    exact .inr ⟨state, rfl, h, hzero⟩

theorem eliminate_reduced (h : Reduced A p (toGf state.1) (toGf state.2))
    (hpivot : state.1.entry ⟨p, hp⟩ ⟨p, hp⟩ ≠ 0) :
    Reduced A (p + 1) (toGf (eliminate state ⟨p, hp⟩).1) (toGf (eliminate state ⟨p, hp⟩).2) := by
  unfold eliminate
  rw [toGf_clearRows, toGf_clearRows]
  -- in this field a byte is its own negative
  exact h.pivot (show toGf state.1 ⟨p, hp⟩ ⟨p, hp⟩ ≠ 0 from hpivot) (toGf_scaleRow _ _ _).symm
    (toGf_scaleRow _ _ _).symm

/-- **One round** makes one more column a unit column. -/
theorem pivotRound_cases (h : Reduced A p (toGf state.1) (toGf state.2)) :
    (pivotRound state ⟨p, hp⟩ = none ∧ ¬∀ v, A *ᵥ v = 0 → v = 0) ∨
    ∃ next, pivotRound state ⟨p, hp⟩ = some next ∧
      Reduced A (p + 1) (toGf next.1) (toGf next.2) := by
  rcases choosePivot_cases h with ⟨hnone, hA⟩ | ⟨chosen, hchoose, hreduced, hpivot⟩
  · exact .inl ⟨congrArg (Option.map _) hnone, hA⟩
  · exact .inr ⟨_, congrArg (Option.map _) hchoose, eliminate_reduced hreduced hpivot⟩

theorem rounds_cases (input : Mat n) : ∀ t ≤ n,
    (((List.finRange n).take t).foldlM pivotRound (input, Mat.identity n) = none ∧
      ¬∀ v, toGf input *ᵥ v = 0 → v = 0) ∨
    ∃ state, ((List.finRange n).take t).foldlM pivotRound (input, Mat.identity n) =
      some state ∧ Reduced (toGf input) t (toGf state.1) (toGf state.2)
  | 0, _ => by
    refine .inr ⟨_, rfl, ?_⟩
    rw [toGf_identity]
    exact Reduced.start _
  | t + 1, ht => by
    have hlen : t < (finRange n).length := by rw [length_finRange]; exact ht
    rw [take_succ_eq_append_getElem hlen, foldlM_append, getElem_finRange]
    rcases rounds_cases input t (Nat.le_of_succ_le ht) with ⟨hrun, hA⟩ | ⟨state, hrun, hreduced⟩
    · exact .inl ⟨by rw [hrun]; rfl, hA⟩
    · rw [hrun]
      simp only [Option.bind_eq_bind, Option.bind_some, foldlM_cons, foldlM_nil,
        Fin.cast_mk]
      rcases @pivotRound_cases n _ state t ht hreduced with ⟨hround, hA⟩ | ⟨next, hround, hnext⟩
      · exact .inl ⟨by rw [hround]; rfl, hA⟩
      · exact .inr ⟨next, by rw [hround]; rfl, hnext⟩

theorem invertMatrix_cases (input : Mat n) :
    (invertMatrix input = none ∧ ¬∀ v, toGf input *ᵥ v = 0 → v = 0) ∨
    ∃ inverse, invertMatrix input = some inverse ∧ toGf inverse * toGf input = 1 := by
  have hrounds := rounds_cases input n le_rfl
  rw [take_of_length_le (length_finRange).le] at hrounds
  rcases hrounds with ⟨hrun, hA⟩ | ⟨state, hrun, hreduced⟩
  · exact .inl ⟨congrArg (Option.map _) hrun, hA⟩
  · exact .inr ⟨state.2, congrArg (Option.map _) hrun, hreduced.mul_eq_one⟩

/-- **The inversion succeeds on every matrix that sends only zero to zero, with the inverse.** -/
theorem invertMatrix_spec {input : Mat n} (hinj : ∀ v, toGf input *ᵥ v = 0 → v = 0) :
    ∃ inverse, invertMatrix input = some inverse ∧ toGf inverse * toGf input = 1 :=
  (invertMatrix_cases input).resolve_left fun hnone => hnone.2 hinj

/-- **The inversion is exact.**  It succeeds if and only if the matrix is invertible, and what it
returns is then the inverse. -/
theorem invertMatrix_exact (input : Mat n) :
    ((invertMatrix input).isSome ↔ IsUnit (toGf input)) ∧
      ∀ inverse, invertMatrix input = some inverse → toGf inverse * toGf input = 1 := by
  rcases invertMatrix_cases input with ⟨hnone, hA⟩ | ⟨found, hfound, hone⟩
  · rw [hnone]
    refine ⟨⟨nofun, fun hunit => absurd (fun v hv => ?_) hA⟩, nofun⟩
    obtain ⟨left, hleft⟩ := hunit.exists_left_inv
    rw [← one_mulVec v, ← hleft, ← mulVec_mulVec, hv, mulVec_zero]
  · rw [hfound]
    refine ⟨⟨fun _ => .of_mul_eq_one_right _ hone, fun _ => rfl⟩, fun inverse heq => ?_⟩
    cases heq
    exact hone

end Argmin.Ec
