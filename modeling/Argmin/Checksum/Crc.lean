import Argmin.Lib.Crc

/-!
# CRC-64/NVME and CRC-32C

The scalar code of the two checks, which have their own width and polynomial; what they share is
written once, for any width.
-/

namespace Argmin.Checksum

open Crc List BitVec

section Shared

variable {w : Nat} (poly : BitVec w) (size : Nat)

/-! ### Sliced tables -/

/-- `TABLES[0]`. -/
def firstTable (byte : BitVec 8) : BitVec w := (shift poly)^[8] (byte.setWidth w)

/-- `TABLES`, as `build_tables` fills it. -/
def tables : Nat → BitVec 8 → BitVec w
  | 0, byte => firstTable poly byte
  | tableIdx + 1, byte =>
    let crc := tables tableIdx byte
    firstTable poly (crc.setWidth 8) ^^^ (crc >>> 8)

/-- The entries for the `n` bytes of a word, from `TABLES[base + n - 1]` down to `TABLES[base]`. -/
def lanes (base : Nat) : Nat → BitVec w → BitVec w
  | 0, _ => 0#w
  | n + 1, word => tables poly (base + n) (word.setWidth 8) ^^^ lanes base n (word >>> 8)

/-- The words, of `size` bytes each, of a block; the register is mixed into the first one. -/
def mixWords : Nat → BitVec w → Bytes → BitVec w
  | 0, crc, _ => crc
  | n + 1, crc, block =>
    lanes poly (size * n) size (crc ^^^ ofLeBytes (block.take size)) ^^^
      mixWords n 0#w (block.drop size)

/-- The loop over blocks.  Every iteration takes one, so `fuel` bytes are enough. -/
def whileBlocks (block : Nat) (step : BitVec w → Bytes → BitVec w) :
    Nat → BitVec w → Bytes → BitVec w × Bytes
  | 0, crc, remaining => (crc, remaining)
  | fuel + 1, crc, remaining =>
    if block ≤ remaining.length then
      whileBlocks block step fuel (step crc (remaining.take block)) (remaining.drop block)
    else (crc, remaining)

def updateScalar (words : Nat) (crc : BitVec w) (data : Bytes) : BitVec w :=
  let (crc, remaining) := whileBlocks 16 (mixWords poly size words) data.length crc data
  let (crc, remaining) := whileBlocks size (mixWords poly size 1) remaining.length crc remaining
  remaining.foldl (fun crc byte => firstTable poly (crc.setWidth 8 ^^^ byte) ^^^ (crc >>> 8)) crc

theorem tables_eq (k : Nat) (byte : BitVec 8) :
    tables poly k byte = (shift poly)^[8 * (k + 1)] (byte.setWidth w) := by
  induction k with
  | zero => rfl
  | succ k ih =>
    rw [tables, ih, Nat.mul_succ 8 (k + 1), Nat.add_comm (8 * (k + 1)), Function.iterate_add_apply]
    exact (shifts_eight poly _).symm

theorem lanes_eq (base n : Nat) (word : BitVec w) :
    lanes poly base n word =
      (shift poly)^[8 * (base + n)] word ^^^ (shift poly)^[8 * base] (word >>> (8 * n)) := by
  induction n generalizing word with
  | zero => simp [lanes]
  | succ n ih =>
    rw [lanes, ih, tables_eq, ← Nat.add_assoc, Nat.mul_succ 8 (base + n),
      Function.iterate_add_apply, Function.iterate_add_apply, shifts_eight poly word, shifts_xor,
      BitVec.xor_assoc, ← shiftRight_add, Nat.mul_succ, Nat.add_comm 8]

variable {size} (hw : w = 8 * size) (hsize : 0 < size)
include hw hsize

theorem mixWords_eq (n : Nat) (crc : BitVec w) {block : Bytes}
    (h : block.length = size * n) :
    mixWords poly size n crc block = block.foldl (divideByte poly) crc := by
  induction n generalizing crc block with
  | zero =>
    obtain rfl := length_eq_zero_iff.mp h
    rfl
  | succ n ih =>
    rw [Nat.mul_succ] at h
    have hfirst : (block.take size).length = size := by
      rw [length_take]
      omega
    have hrest : (block.drop size).length = size * n := by
      rw [length_drop]
      omega
    have hword := foldl_divideByte_word poly crc (by omega) (block.take size) (by omega)
    have htail := foldl_divideByte_eq poly ((block.take size).foldl (divideByte poly) crc)
      (by omega) (block.drop size)
    rw [← foldl_append, take_append_drop, hword, hfirst, hrest,
      ← Function.iterate_add_apply, ← Nat.mul_add] at htail
    rw [mixWords, ih _ hrest, lanes_eq, ← hw, ushiftRight_eq_zero (Nat.le_refl w),
      shifts_zero, BitVec.xor_zero, htail]

omit hw hsize

theorem whileBlocks_eq {block : Nat} {step : BitVec w → Bytes → BitVec w}
    (hstep : ∀ crc bytes, bytes.length = block → step crc bytes = bytes.foldl (divideByte poly) crc)
    (fuel : Nat) (crc : BitVec w) (remaining : Bytes) :
    (whileBlocks block step fuel crc remaining).2.foldl (divideByte poly)
      (whileBlocks block step fuel crc remaining).1 = remaining.foldl (divideByte poly) crc := by
  induction fuel generalizing crc remaining with
  | zero => rfl
  | succ fuel ih =>
    unfold whileBlocks
    split
    · next hle =>
      rw [ih, hstep _ _ (length_take_of_le hle), ← foldl_append, take_append_drop]
    · rfl

include hw hsize

theorem updateScalar_eq {words : Nat} (hwords : 16 = size * words) (crc : BitVec w)
    (data : Bytes) :
    updateScalar poly size words crc data = data.foldl (divideByte poly) crc := by
  have hbyte : (fun (crc : BitVec w) byte =>
      firstTable poly (crc.setWidth 8 ^^^ byte) ^^^ (crc >>> 8)) = divideByte poly := by
    funext crc byte
    exact (divideByte_eq_table poly crc (by omega) byte).symm
  unfold updateScalar
  dsimp only
  rw [hbyte, whileBlocks_eq poly fun crc bytes h => mixWords_eq poly hw hsize 1 crc (by omega),
    whileBlocks_eq poly fun crc bytes h => mixWords_eq poly hw hsize words crc (h.trans hwords)]

omit hw hsize

/-! ### Combining two checks -/

/-- The loop stops when no bit of `vec` is left, at the end of the matrix at the latest. -/
def gf2MatrixTimesFrom : List (BitVec w) → BitVec w → BitVec w → BitVec w
  | [], _, result => result
  | column :: mat, vec, result =>
    if vec = 0#w then result
    else gf2MatrixTimesFrom mat (vec >>> 1) (if vec.getLsbD 0 then result ^^^ column else result)

def gf2MatrixTimes (mat : List (BitVec w)) (vec : BitVec w) : BitVec w :=
  gf2MatrixTimesFrom mat vec 0#w

def gf2MatrixSquare (mat : List (BitVec w)) : List (BitVec w) := mat.map (gf2MatrixTimes mat)

/-- The loop over the bits of the length, two at a time. -/
def combineLoop : Nat → List (BitVec w) → BitVec w → Nat → BitVec w
  | 0, _, crc, _ => crc
  | fuel + 1, odd, crc, n =>
    let even := gf2MatrixSquare odd
    let crc := if n % 2 ≠ 0 then gf2MatrixTimes even crc else crc
    let n := n / 2
    if n = 0 then crc
    else
      let odd := gf2MatrixSquare even
      let crc := if n % 2 ≠ 0 then gf2MatrixTimes odd crc else crc
      let n := n / 2
      if n = 0 then crc else combineLoop fuel odd crc n

def combine (crcA crcB : BitVec w) (lenB : UInt64) : BitVec w :=
  if lenB = 0 then crcA
  else
    let odd := poly :: (List.range (w - 1)).map fun i => 1#w <<< i
    let even := gf2MatrixSquare odd
    let odd := gf2MatrixSquare even
    combineLoop 32 odd crcA lenB.toNat ^^^ crcB

/-- The matrix has the columns of `n` shifts. -/
def Represents (mat : List (BitVec w)) (n : Nat) : Prop :=
  mat = (List.range w).map fun i => (shift poly)^[n] (1#w <<< i)

variable {poly} {mat : List (BitVec w)} {n : Nat}

theorem eq_bit_xor (vec : BitVec w) :
    vec = (if vec.getLsbD 0 then 1#w else 0#w) ^^^ ((vec >>> 1) <<< 1) := by
  refine eq_of_getLsbD_eq fun i hi => ?_
  cases i with
  | zero => cases vec.getLsbD 0 <;> simp [hi]
  | succ i => cases vec.getLsbD 0 <;> simp [hi, Nat.add_comm 1 i]

theorem gf2MatrixTimesFrom_eq (vec result : BitVec w) {i m : Nat} (h : i + m = w) :
    gf2MatrixTimesFrom ((List.range' i m).map fun i => (shift poly)^[n] (1#w <<< i)) vec result =
      result ^^^ (shift poly)^[n] (vec <<< i) := by
  induction m generalizing i vec result with
  | zero =>
    have hzero : vec <<< i = 0#w := shiftLeft_eq_zero (Nat.le_of_eq h.symm)
    rw [hzero, shifts_zero, BitVec.xor_zero]
    rfl
  | succ m ih =>
    rw [range'_succ, map_cons, gf2MatrixTimesFrom]
    split
    · next hzero => rw [hzero, zero_shiftLeft, shifts_zero, BitVec.xor_zero]
    · have hvec : vec <<< i = (if vec.getLsbD 0 then 1#w else 0#w) <<< i ^^^
          (vec >>> 1) <<< (i + 1) := by
        conv_lhs => rw [eq_bit_xor vec]
        rw [shiftLeft_xor_distrib, Nat.add_comm i, shiftLeft_add]
      rw [ih _ _ (by omega), hvec, shifts_xor]
      split
      · exact BitVec.xor_assoc ..
      · rw [zero_shiftLeft, shifts_zero, BitVec.zero_xor]

namespace Represents

theorem times (h : Represents poly mat n) (vec : BitVec w) :
    gf2MatrixTimes mat vec = (shift poly)^[n] vec := by
  rw [gf2MatrixTimes, h, range_eq_range', gf2MatrixTimesFrom_eq _ _ (Nat.zero_add w),
    shiftLeft_zero, BitVec.zero_xor]

theorem square (h : Represents poly mat n) : Represents poly (gf2MatrixSquare mat) (2 * n) := by
  rw [Represents, gf2MatrixSquare, Nat.two_mul]
  conv_lhs => rw [h, map_map]
  refine map_congr_left fun i _ => ?_
  rw [Function.iterate_add_apply]
  exact (h ▸ h : Represents poly _ n).times _

theorem bit (h : Represents poly mat n) (len : Nat) (crc : BitVec w) :
    (if len % 2 ≠ 0 then gf2MatrixTimes mat crc else crc) = (shift poly)^[n * (len % 2)] crc := by
  rcases Nat.mod_two_eq_zero_or_one len with hbit | hbit
  · rw [hbit]
    rfl
  · rw [hbit, if_pos Nat.one_ne_zero, Nat.mul_one, h.times]

end Represents

/-- **The loop over the length.**  It starts from the matrix of `n` shifts, and two bits of the
length are used in every iteration. -/
theorem combineLoop_eq {fuel len : Nat} (h : Represents poly mat n) (hlen : 0 < len)
    (hfuel : len < 4 ^ fuel) (crc : BitVec w) :
    combineLoop fuel mat crc len = (shift poly)^[2 * n * len] crc := by
  induction fuel generalizing len mat n crc with
  | zero => omega
  | succ fuel ih =>
    have hbits : len = 4 * (len / 2 / 2) + 2 * (len / 2 % 2) + len % 2 := by omega
    rw [combineLoop]
    dsimp only
    rw [h.square.bit, h.square.square.bit]
    split
    · next hone =>
      obtain rfl : len = 1 := by omega
      rfl
    · rw [← Function.iterate_add_apply]
      split
      · next hlast =>
        rw [hlast] at hbits
        conv_rhs => rw [hbits]
        exact congrArg (fun m => (shift poly)^[m] crc) (by ring)
      · rw [ih h.square.square (by omega) (by omega), ← Function.iterate_add_apply]
        conv_rhs => rw [hbits]
        exact congrArg (fun m => (shift poly)^[m] crc) (by ring)

variable (poly) in
theorem represents_shift (hw : 0 < w) :
    Represents poly (poly :: (List.range (w - 1)).map fun i => 1#w <<< i) 1 := by
  have hcolumns : range w = 0 :: (range (w - 1)).map Nat.succ := by
    rw [← range_succ_eq_map, Nat.sub_add_cancel hw]
  have hfirst : shift poly (1#w <<< 0) = poly := by
    have hbit : (1#w <<< 0).getLsbD 0 = true := by simp [hw]
    have hrest : 1#w <<< 0 >>> 1 = 0#w := by
      refine eq_of_getLsbD_eq fun i _ => ?_
      simp
    rw [shift, if_pos hbit, hrest, BitVec.zero_xor]
  rw [Represents, hcolumns, map_cons, map_map]
  refine congrArg₂ _ hfirst.symm (map_congr_left fun i hi => ?_)
  have hi := mem_range.mp hi
  rw [Function.comp_apply, Nat.succ_eq_add_one, shiftLeft_add, shifts_shiftLeft]
  intro j hj
  have hne : j - i ≠ 0 := by omega
  simp [hne]

theorem combine_remainder (hw : 8 ≤ w) {a b : Bytes} {lenB : UInt64}
    (h : lenB.toNat = b.length) :
    combine poly (remainder poly a) (remainder poly b) lenB = remainder poly (a ++ b) := by
  unfold combine
  split
  · next hzero =>
    subst hzero
    obtain rfl := length_eq_zero_iff.mp h.symm
    rw [append_nil]
  · next hpos =>
    have hlen : 0 < lenB.toNat := Nat.pos_of_ne_zero fun hzero => hpos (UInt64.toNat_inj.mp hzero)
    have hodd := (represents_shift poly (by omega)).square.square
    have hloop := combineLoop_eq hodd hlen (show lenB.toNat < 4 ^ 32 from lenB.toNat_lt)
      (remainder poly a)
    rw [remainder_append poly hw, ← h]
    exact congrArg (· ^^^ _) hloop

end Shared

/-! ### The two checks -/

namespace Crc64

def poly : BitVec 64 := 0x9A6C9329AC4BC9B5

def extendScalar (crc : BitVec 64) (data : Bytes) : BitVec 64 :=
  ~~~updateScalar poly 8 2 (~~~crc) data

def checksum (data : Bytes) : BitVec 64 := extendScalar 0 data

def combine : BitVec 64 → BitVec 64 → UInt64 → BitVec 64 := Checksum.combine poly

structure Hasher where
  crc : BitVec 64

def Hasher.new : Hasher := ⟨0⟩

def Hasher.update (self : Hasher) (data : Bytes) : Hasher :=
  ⟨extendScalar self.crc data⟩

def Hasher.finalize (self : Hasher) : BitVec 64 := self.crc

theorem extendScalar_not (s : BitVec 64) (data : Bytes) :
    extendScalar (~~~s) data = ~~~data.foldl (divideByte poly) s := by
  rw [extendScalar, BitVec.not_not, updateScalar_eq poly rfl (by decide) rfl]

theorem checksum_eq (data : Bytes) : checksum data = remainder poly data :=
  extendScalar_not (allOnes 64) data

end Crc64

namespace Crc32c

def poly : BitVec 32 := 0x82F63B78

def updateScalar : BitVec 32 → Bytes → BitVec 32 := Checksum.updateScalar poly 4 4

def checksum (data : Bytes) : BitVec 32 := updateScalar (~~~0) data ^^^ ~~~0

def combine : BitVec 32 → BitVec 32 → UInt64 → BitVec 32 := Checksum.combine poly

structure Hasher where
  crc : BitVec 32

def Hasher.new : Hasher := ⟨~~~0⟩

def Hasher.update (self : Hasher) (data : Bytes) : Hasher :=
  ⟨updateScalar self.crc data⟩

def Hasher.finalize (self : Hasher) : BitVec 32 := self.crc ^^^ ~~~0

theorem updateScalar_eq (crc : BitVec 32) (data : Bytes) :
    updateScalar crc data = data.foldl (divideByte poly) crc :=
  Checksum.updateScalar_eq poly rfl (by decide) rfl crc data

theorem checksum_eq (data : Bytes) : checksum data = remainder poly data := by
  rw [checksum, updateScalar_eq]
  exact xor_allOnes

end Crc32c

/-- **Sliced tables.**  However a message is split into updates, both hashers return what the
division bit by bit gives for the whole. -/
theorem hashers_eq_remainder (chunks : List Bytes) :
    (chunks.foldl Crc64.Hasher.update .new).finalize = remainder Crc64.poly chunks.flatten ∧
      (chunks.foldl Crc32c.Hasher.update .new).finalize =
        remainder Crc32c.poly chunks.flatten := by
  have h64 (s : BitVec 64) : chunks.foldl Crc64.Hasher.update ⟨~~~s⟩ =
      ⟨~~~chunks.flatten.foldl (divideByte Crc64.poly) s⟩ := by
    rw [foldl_flatten]
    refine foldl_hom (fun s => Crc64.Hasher.mk (~~~s)) fun s chunk => ?_
    rw [Crc64.Hasher.update, Crc64.extendScalar_not]
  have h32 (s : BitVec 32) : chunks.foldl Crc32c.Hasher.update ⟨s⟩ =
      ⟨chunks.flatten.foldl (divideByte Crc32c.poly) s⟩ := by
    rw [foldl_flatten]
    refine foldl_hom Crc32c.Hasher.mk fun s chunk => ?_
    rw [Crc32c.Hasher.update, Crc32c.updateScalar_eq]
  constructor
  · exact congrArg Crc64.Hasher.finalize (h64 (allOnes 64))
  · rw [Crc32c.Hasher.new, h32]
    exact xor_allOnes

/-- **Combining is exact.**  The check of a message that follows another is made from the two
checks and the length of the second. -/
theorem combine_checksum (a b : Bytes) (lenB : UInt64) (h : lenB.toNat = b.length) :
    Crc64.combine (Crc64.checksum a) (Crc64.checksum b) lenB = Crc64.checksum (a ++ b) ∧
      Crc32c.combine (Crc32c.checksum a) (Crc32c.checksum b) lenB = Crc32c.checksum (a ++ b) := by
  simp only [Crc64.checksum_eq, Crc32c.checksum_eq]
  exact ⟨combine_remainder (by decide) h, combine_remainder (by decide) h⟩

theorem combine_checksum_three_bytes :
    Crc64.combine (Crc64.checksum [1, 2]) (Crc64.checksum [3, 4, 5]) 3 =
        Crc64.checksum [1, 2, 3, 4, 5] ∧
      Crc32c.combine (Crc32c.checksum [1, 2]) (Crc32c.checksum [3, 4, 5]) 3 =
        Crc32c.checksum [1, 2, 3, 4, 5] :=
  combine_checksum [1, 2] [3, 4, 5] 3 rfl

end Argmin.Checksum
