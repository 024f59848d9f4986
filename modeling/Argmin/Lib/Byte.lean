import Mathlib.Algebra.Order.Ring.Int

/-!
# Bytes

A fact about every byte is a fact about 256 numbers (`forall_byte`).  Under exclusive or the bytes
are spanned by the eight single bits, so two functions that turn exclusive or into exclusive or are
equal when they agree on those (`XorAdditive.ext`).
-/

namespace Argmin.Byte

theorem forall_byte {p : UInt8 → Prop} (h : ∀ n < 256, p (UInt8.ofNat n)) (b : UInt8) : p b := by
  have hb := h b.toNat b.toNat_lt
  rwa [UInt8.ofNat_toNat] at hb

/-- The byte with the one bit. -/
def bit (i : Nat) : UInt8 := UInt8.ofNat (2 ^ i)

/-- The exclusive or of the single bits that a byte has below a position. -/
def spanned (b : UInt8) : Nat → UInt8
  | 0 => 0
  | n + 1 => spanned b n ^^^ if b.toNat.testBit n then bit n else 0

theorem spanned_eight : ∀ b : UInt8, spanned b 8 = b := forall_byte (by decide +kernel)

/-- The function turns exclusive or into exclusive or. -/
def XorAdditive (f : UInt8 → UInt8) : Prop := ∀ a b, f (a ^^^ b) = f a ^^^ f b

namespace XorAdditive

variable {f g : UInt8 → UInt8}

theorem zero (h : XorAdditive f) : f 0 = 0 := by
  have hz := h 0 0
  rw [UInt8.xor_self, UInt8.xor_self] at hz
  exact hz

theorem comp (hf : XorAdditive f) (hg : XorAdditive g) : XorAdditive fun a => f (g a) := by
  intro a b
  dsimp only
  rw [hg, hf]

theorem spanned_eq (hf : XorAdditive f) (hg : XorAdditive g) (b : UInt8) :
    ∀ n, (∀ i < n, f (bit i) = g (bit i)) → f (spanned b n) = g (spanned b n)
  | 0, _ => by rw [spanned, hf.zero, hg.zero]
  | n + 1, h => by
    have ih := spanned_eq hf hg b n fun i hi => h i (Nat.lt_succ_of_lt hi)
    rw [spanned, hf, hg, ih]
    split
    · rw [h n (Nat.lt_succ_self n)]
    · rw [hf.zero, hg.zero]

/-- **Agreement on the single bits is enough.** -/
theorem ext (hf : XorAdditive f) (hg : XorAdditive g) (h : ∀ i < 8, f (bit i) = g (bit i))
    (b : UInt8) :
    f b = g b := by
  have hb := spanned_eq hf hg b 8 h
  rwa [spanned_eight] at hb

end XorAdditive

end Argmin.Byte
