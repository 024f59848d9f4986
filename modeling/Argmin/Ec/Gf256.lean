import Argmin.Lib.Byte
import Mathlib.Algebra.Field.Defs

/-!
# The arithmetic of the codec

Bytes are the elements of a field with 256 elements: addition is exclusive or, multiplication is the
shift-and-add loop `gfMulSlow` that fills the multiplication table, and the inverse of a byte is the
first candidate whose product with it is one.

* `gfMulLoop_eq` — eight rounds are enough for the loop of the source;
* `gfMul_additive_left`, `gfMul_additive_right` — multiplication distributes over exclusive or;
* `Gf` — the bytes with these operations, and `Gf.instField`, that they are a field.
-/

namespace Argmin.Ec

open Byte

def gfPolyLow : UInt8 := 0x1d

/-- Multiplication by the generator. -/
def gfDouble (a : UInt8) : UInt8 :=
  if a &&& 0x80 ≠ 0 then (a <<< 1) ^^^ gfPolyLow else a <<< 1

/-- The loop of `gf_mul_slow`, for at most the given number of rounds. -/
def gfMulLoop : Nat → UInt8 → UInt8 → UInt8 → UInt8
  | 0, _, _, product => product
  | rounds + 1, a, b, product =>
    if b ≠ 0 then
      gfMulLoop rounds (gfDouble a) (b >>> 1) (if b &&& 1 ≠ 0 then product ^^^ a else product)
    else product

def gfMulSlow (a b : UInt8) : UInt8 := gfMulLoop 8 a b 0

/-- An entry of the multiplication table. -/
def gfMul (a b : UInt8) : UInt8 := gfMulSlow a b

/-- An entry of the table of inverses: the first candidate with the product one. -/
def gfInv (a : UInt8) : UInt8 :=
  if a = 0 then 0
  else (((List.range' 1 255).map UInt8.ofNat).find? fun candidate => gfMul a candidate = 1).getD 0

/-! ### The loop -/

/-- What the rounds add to the product. -/
def gfSum : Nat → UInt8 → UInt8 → UInt8
  | 0, _, _ => 0
  | rounds + 1, a, b => (if b &&& 1 ≠ 0 then a else 0) ^^^ gfSum rounds (gfDouble a) (b >>> 1)

theorem gfSum_zero_right : ∀ (n : Nat) (a : UInt8), gfSum n a 0 = 0
  | 0, _ => rfl
  | n + 1, a => by
    have ih := gfSum_zero_right n (gfDouble a)
    rw [gfSum, if_neg (by decide), UInt8.zero_xor]
    exact ih

theorem gfMulLoop_eq : ∀ (n : Nat) (a b product : UInt8),
    gfMulLoop n a b product = product ^^^ gfSum n a b
  | 0, _, _, product => by rw [gfMulLoop, gfSum, UInt8.xor_zero]
  | n + 1, a, b, product => by
    rw [gfMulLoop]
    by_cases hb : b = 0
    · subst hb
      rw [if_neg (fun h => h rfl), gfSum_zero_right, UInt8.xor_zero]
    · rw [if_pos hb, gfMulLoop_eq n, gfSum]
      by_cases hbit : b &&& 1 ≠ 0
      · rw [if_pos hbit, if_pos hbit, UInt8.xor_assoc]
      · rw [if_neg hbit, if_neg hbit, UInt8.zero_xor]

theorem gfMul_eq (a b : UInt8) : gfMul a b = gfSum 8 a b := by
  rw [gfMul, gfMulSlow, gfMulLoop_eq, UInt8.zero_xor]

/-! ### Multiplication distributes over exclusive or -/

theorem xor_and (a b mask : UInt8) : (a ^^^ b) &&& mask = (a &&& mask) ^^^ (b &&& mask) := by
  rw [← UInt8.toBitVec_inj]
  ext i hi
  simp only [UInt8.toBitVec_and, UInt8.toBitVec_xor, BitVec.getElem_and, BitVec.getElem_xor]
  cases a.toBitVec[i] <;> cases b.toBitVec[i] <;> cases mask.toBitVec[i] <;> rfl

theorem xor_xor_xor_comm (a b c d : UInt8) : (a ^^^ b) ^^^ (c ^^^ d) = (a ^^^ c) ^^^ (b ^^^ d) := by
  rw [UInt8.xor_assoc, UInt8.xor_assoc, ← UInt8.xor_assoc b, UInt8.xor_comm b,
    UInt8.xor_assoc c]

/-- A value that one bit of a byte selects. -/
theorem select_additive {mask : UInt8} (hbit : ∀ a, a &&& mask = 0 ∨ a &&& mask = mask)
    (value : UInt8) : XorAdditive fun a => if a &&& mask ≠ 0 then value else 0 := by
  intro a b
  dsimp only
  rw [xor_and]
  by_cases hmask : mask = 0
  · rcases hbit a with ha | ha <;> rcases hbit b with hb | hb <;> simp [ha, hb]
  · rcases hbit a with ha | ha <;> rcases hbit b with hb | hb <;> simp [ha, hb, hmask]

theorem high_bit : ∀ a : UInt8, a &&& 0x80 = 0 ∨ a &&& 0x80 = 0x80 :=
  forall_byte (by decide +kernel)

theorem low_bit : ∀ a : UInt8, a &&& 1 = 0 ∨ a &&& 1 = 1 := forall_byte (by decide +kernel)

theorem gfDouble_additive : XorAdditive gfDouble := by
  have hform : ∀ a, gfDouble a = (a <<< 1) ^^^ if a &&& 0x80 ≠ 0 then gfPolyLow else 0 := by
    intro a
    rw [gfDouble]
    split
    · rfl
    · rw [UInt8.xor_zero]
  intro a b
  have hselect := select_additive high_bit gfPolyLow a b
  dsimp only at hselect
  rw [hform, hform, hform, UInt8.shiftLeft_xor, hselect, xor_xor_xor_comm]

theorem gfSum_additive_left : ∀ (n : Nat) (b : UInt8), XorAdditive fun a => gfSum n a b
  | 0, _ => fun _ _ => UInt8.xor_self.symm
  | n + 1, b => by
    intro a a'
    have ih := gfSum_additive_left n (b >>> 1) (gfDouble a) (gfDouble a')
    dsimp only at ih ⊢
    rw [gfSum, gfSum, gfSum, gfDouble_additive, ih, xor_xor_xor_comm]
    split
    · rfl
    · rw [UInt8.xor_self]

theorem gfSum_additive_right : ∀ (n : Nat) (a : UInt8), XorAdditive (gfSum n a)
  | 0, _ => fun _ _ => UInt8.xor_self.symm
  | n + 1, a => by
    intro b b'
    have hselect := select_additive low_bit a b b'
    dsimp only at hselect
    rw [gfSum, gfSum, gfSum, UInt8.shiftRight_xor, gfSum_additive_right n, hselect,
      xor_xor_xor_comm]

theorem gfMul_additive_left (b : UInt8) : XorAdditive fun a => gfMul a b := by
  simp only [gfMul_eq]
  exact gfSum_additive_left 8 b

theorem gfMul_additive_right (a : UInt8) : XorAdditive (gfMul a) := by
  intro b b'
  rw [gfMul_eq, gfMul_eq, gfMul_eq]
  exact gfSum_additive_right 8 a b b'

/-! ### The laws, from the products of single bits -/

theorem gfMul_comm_bits : ∀ i < 8, ∀ j < 8,
    gfMul (bit i) (bit j) = gfMul (bit j) (bit i) := by decide +kernel

theorem gfMul_assoc_bits : ∀ i < 8, ∀ j < 8, ∀ l < 8,
    gfMul (gfMul (bit i) (bit j)) (bit l) = gfMul (bit i) (gfMul (bit j) (bit l)) := by
  decide +kernel

theorem gfMul_comm (a b : UInt8) : gfMul a b = gfMul b a := by
  refine XorAdditive.ext (gfMul_additive_left b) (gfMul_additive_right b) ?_ a
  intro i hi
  refine XorAdditive.ext (gfMul_additive_right (bit i)) (gfMul_additive_left (bit i)) ?_ b
  intro j hj
  exact gfMul_comm_bits i hi j hj

theorem gfMul_assoc (a b c : UInt8) : gfMul (gfMul a b) c = gfMul a (gfMul b c) := by
  refine XorAdditive.ext ((gfMul_additive_left c).comp (gfMul_additive_left b))
    (gfMul_additive_left (gfMul b c)) ?_ a
  intro i hi
  refine XorAdditive.ext ((gfMul_additive_left c).comp (gfMul_additive_right (bit i)))
    ((gfMul_additive_right (bit i)).comp (gfMul_additive_left c)) ?_ b
  intro j hj
  refine XorAdditive.ext (gfMul_additive_right (gfMul (bit i) (bit j)))
    ((gfMul_additive_right (bit i)).comp (gfMul_additive_right (bit j))) ?_ c
  intro l hl
  exact gfMul_assoc_bits i hi j hj l hl

theorem gfMul_one : ∀ a, gfMul a 1 = a := forall_byte (by decide +kernel)

theorem gfMul_zero (a : UInt8) : gfMul a 0 = 0 := (gfMul_additive_right a).zero

/-- The contents of the table of inverses, 32 bytes to a word. -/
def inverses : List Nat :=
  [0x2a4b83a08055de90664c3ee058c072d8965daa3d98dd9dadba7aa747f48e0100,
    0xe1150caba9cf22505e40c3a42e6f89486e338b264a1fd0708a2c56605139ed6c,
    0x41370e9763cbc11361251a818c682338934567161e2b883004a64e92d5f85f36,
    0xfcfecd84bb0677db79dafbe9d911d128322fec20b3ef8d524d17c4b95bca5724,
    0xa2c709ac94bddc0b5c0fbc9b4f44df18f50269532d273149b0e4cc7c1da1541b,
    0xb6ae9a957b0764c5afbff2eb6beee587b7be089c3c0d3bce0546c234c69f821c,
    0x91190a9978767310d6d743f9f6c871293aa87d855a62f7d29ea3b86535a55912,
    0xfd7eff7f75e8d442c9d38f03eab5e7e36ab2216db4f374faf1e2b186f0e63f14]

theorem gfMul_inverses : ∀ a : UInt8, a = 0 ∨
    gfMul a (.ofNat (inverses.getD (a.toNat / 32) 0 >>> (8 * (a.toNat % 32)))) = 1 :=
  forall_byte (by decide +kernel)

theorem exists_inverse {a : UInt8} (ha : a ≠ 0) : ∃ c, gfMul a c = 1 :=
  ⟨_, (gfMul_inverses a).resolve_left ha⟩

/-- **Every byte but zero has an inverse**, which the search finds. -/
theorem gfMul_gfInv {a : UInt8} (ha : a ≠ 0) : gfMul a (gfInv a) = 1 := by
  obtain ⟨c, hc⟩ := exists_inverse ha
  have hpos : c.toNat ≠ 0 := by
    intro hz
    have hzero : c = 0 := UInt8.toNat_inj.mp hz
    rw [hzero, gfMul_zero] at hc
    exact absurd hc (by decide)
  have hmem : c ∈ (List.range' 1 255).map UInt8.ofNat := by
    refine List.mem_map.mpr ⟨c.toNat, ?_, UInt8.ofNat_toNat⟩
    have := c.toNat_lt
    rw [List.mem_range'_1]
    omega
  rw [gfInv, if_neg ha]
  cases hfind : ((List.range' 1 255).map UInt8.ofNat).find? fun c => gfMul a c = 1 with
  | none => exact absurd (decide_eq_true hc) (List.find?_eq_none.mp hfind c hmem)
  | some candidate =>
    have hfound := List.find?_some hfind
    exact of_decide_eq_true hfound

/-! ### The field -/

/-- The bytes as the elements of a field. -/
def Gf : Type := UInt8

/-- The element that a byte is. -/
def Gf.of (a : UInt8) : Gf := a

namespace Gf

instance : DecidableEq Gf := inferInstanceAs (DecidableEq UInt8)

instance : Zero Gf := ⟨of 0⟩

instance : One Gf := ⟨of 1⟩

instance : Add Gf := ⟨fun a b => of (UInt8.xor a b)⟩

instance : Neg Gf := ⟨fun a => a⟩

instance : Mul Gf := ⟨fun a b => of (gfMul a b)⟩

instance : Inv Gf := ⟨fun a => of (gfInv a)⟩

/-- **The bytes are a field** under exclusive or and the multiplication table. -/
instance instField : Field Gf where
  add_assoc a b c := UInt8.xor_assoc a b c
  zero_add a := @UInt8.zero_xor a
  add_zero a := @UInt8.xor_zero a
  add_comm a b := UInt8.xor_comm a b
  neg_add_cancel a := @UInt8.xor_self a
  nsmul := nsmulRec
  zsmul := zsmulRec
  left_distrib a b c := gfMul_additive_right a b c
  right_distrib a b c := gfMul_additive_left c a b
  zero_mul a := (gfMul_additive_left a).zero
  mul_zero a := gfMul_zero a
  mul_assoc a b c := gfMul_assoc a b c
  one_mul a := (gfMul_comm 1 a).trans (gfMul_one a)
  mul_one a := gfMul_one a
  mul_comm a b := gfMul_comm a b
  exists_pair_ne := ⟨of 0, of 1, by decide⟩
  mul_inv_cancel a ha := gfMul_gfInv ha
  inv_zero := rfl
  nnqsmul := _
  qsmul := _

@[simp] theorem of_xor (a b : UInt8) : of (a ^^^ b) = of a + of b := rfl

@[simp] theorem of_gfMul (a b : UInt8) : of (gfMul a b) = of a * of b := rfl

@[simp] theorem of_gfInv (a : UInt8) : of (gfInv a) = (of a)⁻¹ := rfl

@[simp] theorem of_zero : of 0 = 0 := rfl

@[simp] theorem of_one : of 1 = 1 := rfl

theorem of_inj {a b : UInt8} : of a = of b ↔ a = b := Iff.rfl

/-- Subtraction is addition. -/
theorem sub_eq_add (a b : Gf) : a - b = a + b := sub_eq_add_neg a b

end Gf

end Argmin.Ec
