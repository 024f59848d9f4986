import Mathlib.Data.List.Perm.Subperm
import Std.Data.ExtTreeMap
import Mathlib.Algebra.Order.Ring.Int

/-!
# Extensional tree maps: traversal and updates

The maps of the development are `Std.ExtTreeMap`s.  This file adds what its proofs need beyond
the standard library: the list of values in key order (`values`) with its membership lemma, and
lookups after an update stated with equality of keys instead of comparison results.

A map keyed by a pair is ordered lexicographically (`lexBy`, `cmpPair`).
-/

namespace Argmin.TreeMap

open Std Option

/-- Lexicographic comparison of two keys by their images under `f` and `g`. -/
abbrev lexBy {α κ μ : Type} [Ord κ] [Ord μ] (f : α → κ) (g : α → μ) : α → α → Ordering :=
  compareLex (compareOn f) (compareOn g)

theorem lexBy_eq_iff {α κ μ : Type} [Ord κ] [Ord μ] [LawfulEqOrd κ] [LawfulEqOrd μ]
    (f : α → κ) (g : α → μ) (a b : α) : lexBy f g a b = .eq ↔ f a = f b ∧ g a = g b := by
  simp [lexBy, compareLex, compareOn, Ordering.then_eq_eq]

abbrev cmpPair : Nat × Nat → Nat × Nat → Ordering := lexBy Prod.fst Prod.snd

instance : TransCmp cmpPair := inferInstance

instance : LawfulEqCmp cmpPair where
  eq_of_compare {a b} h := Prod.ext_iff.mpr ((lexBy_eq_iff _ _ a b).mp h)

variable {α β γ : Type} {cmp : α → α → Ordering} [TransCmp cmp]

/-- The values of a map in key order. -/
def values (t : ExtTreeMap α β cmp) : List β := t.toList.map Prod.snd

variable [LawfulEqCmp cmp] {t : ExtTreeMap α β cmp} {v : β} {k a : α}

omit [LawfulEqCmp cmp] in
theorem mem_iff_exists : k ∈ t ↔ ∃ v, t[k]? = some v := by
  rw [ExtTreeMap.mem_iff_isSome_getElem?, isSome_iff_exists]

theorem mem_values : v ∈ values t ↔ ∃ k : α, t[k]? = some v := by
  simp only [values, List.mem_map, Prod.exists, exists_eq_right]
  exact exists_congr fun k => ExtTreeMap.mem_toList_iff_getElem?_eq_some

/-- The keys of a map whose values know their key are pairwise distinct. -/
theorem nodup_map_values {key : β → α}
    (hkey : ∀ k v, t[k]? = some v → key v = k) : ((values t).map key).Nodup := by
  have hmap : (values t).map key = t.keys := by
    rw [← ExtTreeMap.map_fst_toList_eq_keys, values, List.map_map]
    refine List.map_congr_left fun entry hentry => ?_
    exact hkey entry.1 entry.2 (ExtTreeMap.mem_toList_iff_getElem?_eq_some.mp hentry)
  rw [hmap]
  exact ExtTreeMap.nodup_keys

/-- Maps of one size have the same keys when one has those of the other. -/
theorem getElem?_eq_none_of_size_eq {m : ExtTreeMap α γ cmp} (hsize : t.size = m.size)
    (hsub : ∀ (k : α) v, t[k]? = some v → ∃ w, m[k]? = some w) (h : t[k]? = none) :
    m[k]? = none := by
  have hkeys : t.keys ⊆ m.keys := by
    intro k hk
    rw [ExtTreeMap.mem_keys, ExtTreeMap.mem_iff_isSome_getElem?, isSome_iff_exists] at hk ⊢
    obtain ⟨v, hv⟩ := hk
    exact hsub k v hv
  have hperm := (List.subperm_of_subset ExtTreeMap.nodup_keys hkeys).perm_of_length_le
    (by simp only [ExtTreeMap.length_keys, hsize, Nat.le_refl])
  by_contra hsome
  have hmem : k ∈ m.keys := by
    rw [ExtTreeMap.mem_keys, ExtTreeMap.mem_iff_isSome_getElem?]
    exact isSome_iff_ne_none.mpr hsome
  rw [← hperm.mem_iff, ExtTreeMap.mem_keys, ExtTreeMap.mem_iff_isSome_getElem?, h] at hmem
  cases hmem

variable [DecidableEq α]

theorem getElem?_insert_eq : (t.insert k v)[a]? = if k = a then some v else t[a]? := by
  rw [ExtTreeMap.getElem?_insert]
  simp only [LawfulEqCmp.compare_eq_iff_eq]

theorem getElem?_erase_eq : (t.erase k)[a]? = if k = a then none else t[a]? := by
  rw [ExtTreeMap.getElem?_erase]
  simp only [LawfulEqCmp.compare_eq_iff_eq]

variable {f g : β → β}

theorem getElem?_modify_eq :
    (t.modify k f)[a]? = if k = a then t[a]?.map f else t[a]? := by
  rw [ExtTreeMap.getElem?_modify]
  simp only [LawfulEqCmp.compare_eq_iff_eq]
  split
  · next h => rw [h]
  · rfl

/-- A relation between the old and the new lookups that holds of the changed value. -/
theorem rel_modify {P : α → Option β → Option β → Prop} (hsame : ∀ a o, P a o o)
    (hf : ∀ v, t[k]? = some v → P k (some v) (some (f v))) (a : α) :
    P a t[a]? (t.modify k f)[a]? := by
  rw [getElem?_modify_eq]
  split
  · next h =>
    subst h
    cases hv : t[k]? with
    | none => exact hsame k none
    | some v => exact hf v hv
  · exact hsame a _

theorem modify_congr (h : ∀ v, t[k]? = some v → f v = g v) : t.modify k f = t.modify k g := by
  refine ExtTreeMap.ext_getElem? fun a => ?_
  rw [getElem?_modify_eq, getElem?_modify_eq]
  split
  · next heq => exact map_congr fun v hv => h v (heq ▸ hv)
  · rfl

theorem modify_eq_self (h : ∀ v, t[k]? = some v → f v = v) : t.modify k f = t :=
  ExtTreeMap.ext_getElem? fun a =>
    rel_modify (P := fun _ o n => n = o) (fun _ _ => rfl) (fun v hv => congrArg some (h v hv)) a

theorem map_modify {φ : β → γ} {ψ : γ → γ} (h : ∀ v, φ (f v) = ψ (φ v)) :
    (t.map fun _ => φ).modify k ψ = (t.modify k f).map fun _ => φ := by
  refine ExtTreeMap.ext_getElem? fun a => ?_
  rw [ExtTreeMap.getElem?_map, getElem?_modify_eq, getElem?_modify_eq, ExtTreeMap.getElem?_map]
  split
  · rw [map_map, map_map]
    exact map_congr fun v _ => (h v).symm
  · rfl

theorem map_insert {φ : β → γ} :
    ((t.insert k v).map fun _ => φ) = (t.map fun _ => φ).insert k (φ v) := by
  refine ExtTreeMap.ext_getElem? fun a => ?_
  rw [ExtTreeMap.getElem?_map, getElem?_insert_eq, getElem?_insert_eq, ExtTreeMap.getElem?_map]
  split <;> rfl

end Argmin.TreeMap
