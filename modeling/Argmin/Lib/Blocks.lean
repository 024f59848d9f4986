import Mathlib.Algebra.Order.Ring.Int
import Mathlib.Data.List.Induction

/-!
# Lists cut into blocks

A list that is the concatenation of blocks whose lengths are known is cut in one way only.

* `blocks` — the first `count` blocks of length `n`;
* `flatten_cut` — concatenating what was cut gives the list back;
* `Sized.flatten_isPrefix` — blocks of the same lengths agree as far as their concatenations do.
-/

namespace Argmin.Blocks

open List

variable {α : Type*}

/-- The first `count` blocks of length `n`. -/
def blocks (n : Nat) : Nat → List α → List (List α)
  | 0, _ => []
  | count + 1, l => l.take n :: blocks n count (l.drop n)

@[simp]
theorem length_blocks (n count : Nat) (l : List α) : (blocks n count l).length = count := by
  induction count generalizing l with
  | zero => rfl
  | succ count ih => rw [blocks, List.length_cons, ih]

theorem getElem?_blocks {n count : Nat} {l : List α} {i : Nat} (h : i < count) :
    (blocks n count l)[i]? = some ((l.drop (i * n)).take n) := by
  induction count generalizing l i with
  | zero => omega
  | succ count ih =>
    cases i with
    | zero => simp [blocks]
    | succ i =>
      rw [blocks, getElem?_cons_succ, ih (by omega), drop_drop, Nat.succ_mul, Nat.add_comm]

theorem blocks_concat (n count : Nat) (l : List α) :
    blocks n (count + 1) l = blocks n count l ++ [(l.drop (count * n)).take n] := by
  induction count generalizing l with
  | zero => simp [blocks]
  | succ count ih =>
    rw [blocks, ih, blocks, cons_append, drop_drop, Nat.succ_mul, Nat.add_comm n]

theorem flatten_blocks_eq_take (n count : Nat) (l : List α) :
    (blocks n count l).flatten = l.take (count * n) := by
  induction count generalizing l with
  | zero => rw [Nat.zero_mul, take_zero]; rfl
  | succ count ih => rw [blocks, flatten_cons, ih, Nat.succ_mul, Nat.add_comm, take_add]

theorem getElem?_concat_cases {l : List α} {a b : α} {i : Nat} (h : (l ++ [a])[i]? = some b) :
    l[i]? = some b ∨ i = l.length ∧ b = a := by
  rcases Nat.lt_trichotomy i l.length with hlt | rfl | hgt
  · rw [getElem?_append_left hlt] at h
    exact .inl h
  · rw [getElem?_concat_length] at h
    exact .inr ⟨rfl, (Option.some.inj h).symm⟩
  · rw [getElem?_eq_none (by simp; omega)] at h
    cases h

/-- Block `i` has length `len i`. -/
def Sized (len : Nat → Nat) (bs : List (List α)) : Prop :=
  ∀ i b, bs[i]? = some b → b.length = len i

variable {len : Nat → Nat} {bs cs : List (List α)} {b rest : List α} {n : Nat}

theorem Sized.head (h : Sized len (b :: bs)) : b.length = len 0 := h 0 b rfl

theorem Sized.tail (h : Sized len (b :: bs)) : Sized (len ∘ Nat.succ) bs :=
  fun i c hc => h (i + 1) c hc

/-- Where block `n` starts. -/
def offset (len : Nat → Nat) : Nat → Nat
  | 0 => 0
  | n + 1 => offset len n + len n

theorem Sized.init (h : Sized len (bs ++ [b])) : Sized len bs := by
  intro i c hc
  refine h i c ?_
  rw [List.getElem?_append_left (List.getElem?_eq_some_iff.mp hc).1, hc]

theorem Sized.length_flatten (h : Sized len bs) : bs.flatten.length = offset len bs.length := by
  induction bs using reverseRecOn with
  | nil => rfl
  | append_singleton bs b ih =>
    have hlast : b.length = len bs.length := h bs.length b (by simp)
    rw [flatten_append, length_append, ih h.init, length_append, flatten_cons,
      flatten_nil, append_nil, hlast]
    rfl

/-- A block ends where a later one starts, or before. -/
theorem offset_add_le (len : Nat → Nat) {m n : Nat} (h : m < n) :
    offset len m + len m ≤ offset len n :=
  monotone_nat_of_le_succ (f := offset len) (fun _ => Nat.le_add_right ..) h

/-- Block `i` is what stands at its place. -/
theorem Sized.take_drop_flatten (h : Sized len bs) {i : Nat} (hb : bs[i]? = some b) :
    (bs.flatten.drop (offset len i)).take (len i) = b := by
  obtain ⟨hi, hget⟩ := List.getElem?_eq_some_iff.mp hb
  have hsplit : bs = bs.take i ++ b :: bs.drop (i + 1) := by
    rw [← hget, List.getElem_cons_drop hi, List.take_append_drop]
  have hfront : Sized len (bs.take i) := by
    intro j c hc
    rw [getElem?_take] at hc
    split at hc
    · exact h j c hc
    · cases hc
  have hlength : (bs.take i).flatten.length = offset len i := by
    rw [hfront.length_flatten, length_take, Nat.min_eq_left (Nat.le_of_lt hi)]
  rw [hsplit, flatten_append, flatten_cons, ← hlength, drop_left, ← h i b hb,
    take_left]

/-- The first `n` blocks of a list. -/
def cut (len : Nat → Nat) (l : List α) (n : Nat) : List (List α) :=
  (List.range n).map fun i => (l.drop (offset len i)).take (len i)

theorem flatten_cut (l : List α) : (cut len l n).flatten = l.take (offset len n) := by
  induction n with
  | zero => simp [cut, offset]
  | succ n ih =>
    unfold cut at ih ⊢
    rw [range_succ, map_append, flatten_append, ih, offset, take_add]
    simp

/-- **One way to cut.**  Blocks that fill a part of the other blocks' concatenation are the first
of them. -/
theorem Sized.flatten_isPrefix (hpos : ∀ i, 0 < len i) (hbs : Sized len bs) (hcs : Sized len cs)
    (h : bs.flatten ++ rest <+: cs.flatten) : ∃ more, cs = bs ++ more ∧ rest <+: more.flatten := by
  induction bs generalizing cs len with
  | nil => exact ⟨cs, rfl, h⟩
  | cons b bs ih =>
    cases cs with
    | nil =>
      have hlength := h.length_le
      have hb := hbs.head
      have := hpos 0
      simp only [flatten_cons, length_append, flatten_nil, length_nil] at hlength
      omega
    | cons c cs =>
      rw [flatten_cons, flatten_cons, append_assoc] at h
      have hlength : b.length = c.length := hbs.head.trans hcs.head.symm
      obtain ⟨tail, htail⟩ := h
      rw [append_assoc] at htail
      obtain ⟨rfl, hrest⟩ := append_inj htail hlength
      obtain ⟨more, rfl, hmore⟩ := ih (fun i => hpos (i + 1)) hbs.tail hcs.tail ⟨tail, hrest⟩
      exact ⟨more, rfl, hmore⟩

end Argmin.Blocks
