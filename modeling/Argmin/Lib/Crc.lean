import Mathlib.Tactic.Ring

/-!
# Cyclic redundancy checks

A reflected check of any width.  `divide` is one step of the polynomial division that defines it;
the rest is about `shift`, the step for a bit that is zero.

* `shifts_eight`, `foldl_divideByte_word` — several bits at once: `n` of them are entered by one
  exclusive or, followed by `n` shifts;
* `foldl_divideByte_xor`, `remainder_append` — the register is linear, so that shifts alone take a
  message that follows another into account.
-/

namespace Argmin.Crc

open List BitVec

variable {w : Nat} (poly : BitVec w)

abbrev Bytes := List (BitVec 8)

theorem xor_xor_cancel (x y : BitVec w) : x ^^^ y ^^^ y = x := by
  rw [BitVec.xor_assoc, BitVec.xor_self, BitVec.xor_zero]

/-! ### The register -/

/-- The register takes a bit of the message, and the polynomial is subtracted when the bit that
leaves it is set. -/
def divide (s : BitVec w) (bit : Bool) : BitVec w :=
  if s.getLsbD 0 ^^ bit then (s >>> 1) ^^^ poly else s >>> 1

/-- A byte is taken from its lowest bit on. -/
def divideByte (s : BitVec w) (byte : BitVec 8) : BitVec w :=
  ((List.range 8).map byte.getLsbD).foldl (divide poly) s

def shift (s : BitVec w) : BitVec w :=
  if s.getLsbD 0 then (s >>> 1) ^^^ poly else s >>> 1

variable (s x y : BitVec w)

theorem shift_xor : shift poly (x ^^^ y) = shift poly x ^^^ shift poly y := by
  unfold shift
  rw [getLsbD_xor, ushiftRight_xor_distrib]
  cases x.getLsbD 0 with
  | false =>
    cases y.getLsbD 0 with
    | false => rfl
    | true => exact BitVec.xor_assoc ..
  | true =>
    cases y.getLsbD 0 with
    | false =>
      show x >>> 1 ^^^ y >>> 1 ^^^ poly = x >>> 1 ^^^ poly ^^^ y >>> 1
      ac_rfl
    | true =>
      show x >>> 1 ^^^ y >>> 1 = x >>> 1 ^^^ poly ^^^ (y >>> 1 ^^^ poly)
      rw [← BitVec.xor_assoc, BitVec.xor_assoc _ poly, BitVec.xor_comm poly, ← BitVec.xor_assoc,
        xor_xor_cancel]

theorem shifts_xor (n : Nat) :
    (shift poly)^[n] (x ^^^ y) = (shift poly)^[n] x ^^^ (shift poly)^[n] y := by
  induction n generalizing x y with
  | zero => rfl
  | succ n ih => rw [Function.iterate_succ_apply, shift_xor, ih]; rfl

theorem shifts_zero (n : Nat) : (shift poly)^[n] 0#w = 0#w := by
  have h := shifts_xor poly 0#w 0#w n
  rwa [BitVec.xor_self, BitVec.xor_self] at h

/-- Bits that are zero only move. -/
theorem shifts_of_low {n : Nat} (h : ∀ i < n, x.getLsbD i = false) :
    (shift poly)^[n] x = x >>> n := by
  induction n generalizing x with
  | zero => simp
  | succ n ih =>
    have hshift : shift poly x = x >>> 1 := if_neg (by simp [h 0])
    rw [Function.iterate_succ_apply, hshift, ih, ← shiftRight_add, Nat.add_comm]
    intro i hi
    rw [getLsbD_ushiftRight]
    exact h _ (by omega)

theorem shifts_shiftLeft {n : Nat} (h : ∀ i, w ≤ n + i → x.getLsbD i = false) :
    (shift poly)^[n] (x <<< n) = x := by
  rw [shifts_of_low poly _ fun i hi => by simp [hi]]
  refine eq_of_getLsbD_eq fun i _ => ?_
  by_cases hi : n + i < w
  · simp [hi, -getLsbD_eq_getElem]
  · simp [hi, h i (Nat.not_lt.mp hi)]

/-- **Eight shifts.**  Only the lowest byte meets the polynomial. -/
theorem shifts_eight :
    (shift poly)^[8] x = (shift poly)^[8] ((x.setWidth 8).setWidth w) ^^^ (x >>> 8) := by
  have hsplit : x = (x.setWidth 8).setWidth w ^^^ ((x >>> 8) <<< 8) := by
    refine eq_of_getLsbD_eq fun i hi => ?_
    by_cases hlow : i < 8
    · simp [hlow, hi]
    · simp [hlow, hi, Nat.add_sub_cancel' (Nat.not_lt.mp hlow)]
  conv_lhs => rw [hsplit]
  rw [shifts_xor, shifts_shiftLeft]
  intro i hi
  rw [getLsbD_ushiftRight, getLsbD_of_ge _ _ hi]

/-! ### Bytes and words -/

theorem divide_eq : divide poly s (x.getLsbD 0) = shift poly (s ^^^ x) ^^^ (x >>> 1) := by
  unfold divide shift
  rw [getLsbD_xor, ushiftRight_xor_distrib]
  split
  · rw [BitVec.xor_assoc, BitVec.xor_comm poly, ← BitVec.xor_assoc, xor_xor_cancel]
  · rw [xor_xor_cancel]

theorem foldl_divide (n : Nat) : ((List.range n).map x.getLsbD).foldl (divide poly) s =
    (shift poly)^[n] (s ^^^ x) ^^^ (x >>> n) := by
  induction n with
  | zero => exact (xor_xor_cancel s x).symm
  | succ n ih =>
    have hbit : x.getLsbD n = (x >>> n).getLsbD 0 := by simp
    rw [range_succ, map_append, foldl_append, ih, map_singleton,
      foldl_cons, foldl_nil, hbit, divide_eq, xor_xor_cancel,
      Function.iterate_succ_apply', shiftRight_add]

section Bytes

variable (hw : 8 ≤ w) (byte : BitVec 8)

theorem setWidth_byte_shiftRight : byte.setWidth w >>> 8 = 0#w := by
  refine eq_of_getLsbD_eq fun i _ => ?_
  simp

include hw

/-- **A byte at once.** -/
theorem divideByte_eq : divideByte poly s byte = (shift poly)^[8] (s ^^^ byte.setWidth w) := by
  have hbits : (range 8).map byte.getLsbD = (range 8).map (byte.setWidth w).getLsbD := by
    refine map_congr_left fun i hi => ?_
    have hi := mem_range.mp hi
    simp [Nat.lt_of_lt_of_le hi hw]
  rw [divideByte, hbits, foldl_divide, setWidth_byte_shiftRight, BitVec.xor_zero]

theorem divideByte_eq_table : divideByte poly s byte =
    (shift poly)^[8] ((s.setWidth 8 ^^^ byte).setWidth w) ^^^ (s >>> 8) := by
  have hbyte : (byte.setWidth w).setWidth 8 = byte := setWidth_setWidth_of_le _ hw
  rw [divideByte_eq poly s hw, shifts_eight, setWidth_xor, hbyte,
    ushiftRight_xor_distrib, setWidth_byte_shiftRight, BitVec.xor_zero]

omit hw

/-- The word with the bytes, least significant first. -/
def ofLeBytes : Bytes → BitVec w
  | [] => 0
  | byte :: rest => byte.setWidth w ^^^ (ofLeBytes rest <<< 8)

theorem getLsbD_ofLeBytes {bytes : Bytes} {i : Nat} (h : 8 * bytes.length ≤ i) :
    (ofLeBytes bytes : BitVec w).getLsbD i = false := by
  induction bytes generalizing i with
  | nil => simp [ofLeBytes]
  | cons byte rest ih =>
    rw [length_cons] at h
    have hrest := ih (i := i - 8) (by omega)
    have hbyte := byte.getLsbD_of_ge i (by omega)
    simp [ofLeBytes, hrest, hbyte]

include hw

/-- **A word at once.** -/
theorem foldl_divideByte_word (bytes : Bytes) (h : 8 * bytes.length ≤ w) :
    bytes.foldl (divideByte poly) s = (shift poly)^[8 * bytes.length] (s ^^^ ofLeBytes bytes) := by
  induction bytes generalizing s with
  | nil => simp [ofLeBytes]
  | cons byte rest ih =>
    rw [length_cons] at h
    have hword : (shift poly)^[8] (s ^^^ ofLeBytes (byte :: rest)) =
        divideByte poly s byte ^^^ ofLeBytes rest := by
      rw [divideByte_eq poly s hw, ofLeBytes, ← BitVec.xor_assoc, shifts_xor, shifts_shiftLeft]
      exact fun i hi => getLsbD_ofLeBytes (by omega)
    rw [foldl_cons, ih _ (by omega), length_cons, Nat.mul_succ,
      Function.iterate_add_apply, hword]

/-- **The register is linear.** -/
theorem foldl_divideByte_xor (bytes : Bytes) :
    bytes.foldl (divideByte poly) (s ^^^ x) =
      (shift poly)^[8 * bytes.length] s ^^^ bytes.foldl (divideByte poly) x := by
  induction bytes generalizing s x with
  | nil => rfl
  | cons byte rest ih =>
    rw [foldl_cons, foldl_cons, divideByte_eq poly _ hw, divideByte_eq poly x hw,
      BitVec.xor_assoc, shifts_xor, ih, length_cons, Nat.mul_succ, Function.iterate_add_apply]

theorem foldl_divideByte_eq (bytes : Bytes) :
    bytes.foldl (divideByte poly) s =
      (shift poly)^[8 * bytes.length] s ^^^ bytes.foldl (divideByte poly) 0#w := by
  rw [← foldl_divideByte_xor poly s _ hw, BitVec.xor_zero]

/-- The check of a message: the register starts with every bit set and is complemented at the
end. -/
def remainder (data : Bytes) : BitVec w :=
  ~~~data.foldl (divideByte poly) (BitVec.allOnes w)

/-- **The check of a message that follows another.** -/
theorem remainder_append (a b : Bytes) :
    remainder poly (a ++ b) =
      (shift poly)^[8 * b.length] (remainder poly a) ^^^ remainder poly b := by
  have hregister : a.foldl (divideByte poly) (allOnes w) =
      remainder poly a ^^^ allOnes w := by
    rw [BitVec.xor_allOnes, remainder, BitVec.not_not]
  rw [remainder, foldl_append, hregister, foldl_divideByte_xor poly _ _ hw,
    ← xor_allOnes, BitVec.xor_assoc, xor_allOnes]
  rfl

end Bytes

end Argmin.Crc
