import Argmin.Ec.Codec
import Mathlib.Algebra.BigOperators.Group.List.Basic
import Mathlib.Data.List.GetD

/-!
# What the kernels compute

Every kernel computes the linear combination of its shards in the field, byte by byte
(`IsCombination`), whichever backend is chosen: `encodeRow_isCombination` and
`applyMatrixRow_isCombination`.  For the vector backends:

* `VectorUnit.product_lane` — the two lookups of a lane give the product of its byte;
* `chunks_eq` — what the loops over whole vectors store, byte by byte.
-/

namespace Argmin.Ec

open Byte List

variable {dest : Shard} {write : UInt8 → Shard → Shard} {xor : UInt8 → Shard → Shard → Shard}

/-- The byte at a position of the combination of the shards. -/
def combinationAt (row : List (UInt8 × Shard)) (i : Nat) : Gf :=
  (row.map fun p => Gf.of p.1 * Gf.of (p.2.getD i 0)).sum

/-- **The shard is the combination** of the shards of a row. -/
structure IsCombination (row : List (UInt8 × Shard)) (len : Nat) (out : Shard) : Prop where
  length : out.length = len
  at_ : ∀ i < len, Gf.of (out.getD i 0) = combinationAt row i

variable {row : List (UInt8 × Shard)} {len i : Nat} {out src : Shard} {coeff : UInt8}

theorem combinationAt_append (row row' : List (UInt8 × Shard)) :
    combinationAt (row ++ row') i = combinationAt row i + combinationAt row' i := by
  rw [combinationAt, map_append, sum_append]
  rfl

theorem combinationAt_singleton :
    combinationAt [(coeff, src)] i = Gf.of coeff * Gf.of (src.getD i 0) := by
  rw [combinationAt, map_singleton, sum_singleton]

theorem combinationAt_cons_zero : combinationAt ((0, src) :: row) i = combinationAt row i := by
  rw [combinationAt, map_cons, sum_cons, Gf.of_zero, zero_mul, zero_add]
  rfl

/-! ### One shard -/

theorem getD_zipWith_xor {src : Shard} (hlen : dest.length = src.length) (i : Nat) :
    (xorWithSlice dest src).getD i 0 = dest.getD i 0 ^^^ src.getD i 0 := by
  rw [xorWithSlice]
  by_cases hi : i < dest.length
  · have hs : i < src.length := hlen ▸ hi
    have hz : i < (zipWith (· ^^^ ·) dest src).length := by
      rw [length_zipWith]
      omega
    rw [getD_eq_getElem _ _ hz, getElem_zipWith, getD_eq_getElem _ _ hi,
      getD_eq_getElem _ _ hs]
  · have hz : (zipWith (· ^^^ ·) dest src).length ≤ i := by
      rw [length_zipWith]
      omega
    rw [getD_eq_default _ _ hz, getD_eq_default _ _ (by omega),
      getD_eq_default _ _ (by omega), UInt8.xor_zero]

/-- A kernel that writes a shard times a coefficient. -/
def Writes (write : UInt8 → Shard → Shard) : Prop :=
  ∀ coeff src, write coeff src = src.map (gfMul coeff)

/-- A kernel that adds a shard times a coefficient. -/
def Adds (xor : UInt8 → Shard → Shard → Shard) : Prop :=
  ∀ coeff dest src, dest.length = src.length →
    xor coeff dest src = xorWithSlice dest (src.map (gfMul coeff))

theorem map_gfMul_zero : src.map (gfMul 0) = List.replicate src.length 0 := by
  have hzero : gfMul 0 = fun _ => (0 : UInt8) := by
    funext b
    exact (gfMul_comm 0 b).trans (gfMul_zero b)
  rw [hzero, map_const']

theorem map_gfMul_one : src.map (gfMul 1) = src := by
  have hone : gfMul 1 = id := by
    funext b
    exact (gfMul_comm 1 b).trans (gfMul_one b)
  rw [hone, map_id]

theorem xorWithSlice_zero {n : Nat} (hlen : dest.length = n) :
    xorWithSlice dest (List.replicate n 0) = dest := by
  subst hlen
  refine ext_getElem ?_ ?_
  · rw [xorWithSlice, length_zipWith, length_replicate, Nat.min_self]
  · intro i h _
    simp only [xorWithSlice, getElem_zipWith, getElem_replicate, UInt8.xor_zero]

theorem writeWithTable_writes : Writes writeWithTable := fun _ _ => rfl

theorem writeWithCoeff_writes : Writes writeWithCoeff := by
  intro coeff src
  rw [writeWithCoeff]
  split
  · next h => rw [h, map_gfMul_zero]
  · split
    · next h => rw [h, map_gfMul_one]
    · rfl

theorem xorWithTable_adds : Adds xorWithTable := fun _ _ _ _ => rfl

theorem xorWithCoeff_adds : Adds xorWithCoeff := by
  intro coeff dest src hlen
  rw [xorWithCoeff]
  split
  · next h => rw [h, map_gfMul_zero, xorWithSlice_zero hlen]
  · split
    · next h => rw [h, map_gfMul_one]
    · rfl

/-! ### Products from the halves of a byte -/

theorem halves : ∀ b : UInt8, (b &&& (0x0f : UInt8)) ^^^ (((b >>> 4) &&& 0x0f) <<< 4) = b :=
  forall_byte (by decide +kernel)

theorem halfByte_lt (byte : UInt8) : (byte &&& (0x0f : UInt8)).toNat < 16 := by
  exact Nat.lt_succ_of_le Nat.and_le_right

theorem load_low (coeff : UInt8) {byte : UInt8} (h : byte.toNat < 16) :
    load (buildNibbleTable coeff) 0 byte.toNat = gfMul coeff byte := by
  rw [load, buildNibbleTable, Nat.zero_add, getD_append _ _ _ _ (by simpa using h),
    getD_eq_getElem _ _ (by simpa using h), getElem_map, getElem_range, UInt8.ofNat_toNat]

theorem load_high (coeff : UInt8) {byte : UInt8} (h : byte.toNat < 16) :
    load (buildNibbleTable coeff) 16 byte.toNat = gfMul coeff (byte <<< 4) := by
  have hshift : UInt8.ofNat (byte.toNat <<< 4) = byte <<< 4 :=
    forall_byte (p := fun byte => UInt8.ofNat (byte.toNat <<< 4) = byte <<< 4)
      (by decide +kernel) byte
  rw [load, buildNibbleTable, getD_append_right _ _ _ _ (by simp), length_map,
    length_range, Nat.add_sub_cancel_left, getD_eq_getElem _ _ (by simpa using h),
    getElem_map, getElem_range, hshift]

theorem getD_buildNibbleTable_one (coeff : UInt8) : (buildNibbleTable coeff).getD 1 0 = coeff :=
  (load_low coeff (show (1 : UInt8).toNat < 16 by decide)).trans (gfMul_one coeff)

/-- **What a loop over vectors stores**, when each lane of a vector is the byte of its place. -/
theorem chunks_eq (value : Nat → UInt8) {width start count : Nat} {vector : Nat → Lanes}
    (h : ∀ index lane, vector index lane = value (index + lane)) :
    chunks width start count vector = (range (count * width)).map fun i => value (start + i) := by
  induction count with
  | zero => rw [Nat.zero_mul, chunks, range_zero, flatMap_nil, map_nil]
  | succ count ih =>
    rw [chunks] at ih ⊢
    rw [range_succ, flatMap_append, ih, Nat.succ_mul, range_add, map_append, map_map,
      flatMap_singleton]
    refine congrArg _ (map_congr_left fun lane _ => ?_)
    rw [h, Function.comp_apply, Nat.add_assoc]

theorem map_range_getD {n : Nat} (h : n ≤ src.length) :
    (range n).map (fun i => src.getD i 0) = src.take n := by
  refine ext_getElem (by simpa using h) fun i hi _ => ?_
  rw [getElem_map, getElem_range, getElem_take, getD_eq_getElem]

theorem map_range_gfMul {n : Nat} (h : n ≤ src.length) :
    (range n).map (fun i => gfMul coeff (src.getD i 0)) = (src.take n).map (gfMul coeff) := by
  rw [← map_range_getD h, map_map]
  rfl

namespace VectorUnit

variable (unit : VectorUnit)

/-- **A lane of a product** is the product of the byte in the lane. -/
theorem product_lane (coeff : UInt8) (src : Lanes) (lane : Nat) :
    unit.product (buildNibbleTable coeff) src lane = gfMul coeff (src lane) := by
  rw [product, mulChunk, xorLanes, unit.lookup_lane _ _ _ (halfByte_lt _),
    unit.lookup_lane _ _ _ (halfByte_lt _), andLanes, andLanes, set1, unit.shift_lane,
    load_low coeff (halfByte_lt _), load_high coeff (halfByte_lt _), ← gfMul_additive_right, halves]

theorem copyOrWrite_writes : Writes unit.copyOrWrite := by
  intro coeff src
  rw [copyOrWrite]
  split
  · next h => rw [h, map_gfMul_one]
  · rw [writeWithNibbleTable, getD_buildNibbleTable_one]
    dsimp only
    split
    · exact writeWithCoeff_writes coeff src
    · rw [chunks_eq (fun i => gfMul coeff (src.getD i 0)) fun _ _ => unit.product_lane ..]
      simp only [Nat.zero_add]
      rw [map_range_gfMul (Nat.div_mul_le_self ..), writeWithCoeff_writes, ← map_append,
        take_append_drop]

theorem xorOrMul_adds : Adds unit.xorOrMul := by
  intro coeff dest src hlen
  rw [xorOrMul]
  split
  · next h => rw [h, map_gfMul_one]
  · rw [xorWithNibbleTable, getD_buildNibbleTable_one]
    dsimp only
    split
    · exact xorWithCoeff_adds coeff dest src hlen
    · have hle := Nat.div_mul_le_self src.length unit.width
      have hlane : ∀ index lane, xorLanes (load dest index)
          (unit.product (buildNibbleTable coeff) (load src index)) lane =
          dest.getD (index + lane) 0 ^^^ gfMul coeff (src.getD (index + lane) 0) := by
        intro index lane
        rw [xorLanes, unit.product_lane, load, load]
      rw [chunks_eq (fun i => dest.getD i 0 ^^^ gfMul coeff (src.getD i 0)) hlane]
      simp only [Nat.zero_add]
      have hwhole : (range (src.length / unit.width * unit.width)).map
          (fun i => dest.getD i 0 ^^^ gfMul coeff (src.getD i 0)) =
          xorWithSlice (dest.take (src.length / unit.width * unit.width))
            ((src.map (gfMul coeff)).take (src.length / unit.width * unit.width)) := by
        rw [← map_take, ← map_range_gfMul hle, ← map_range_getD (hlen.symm ▸ hle), xorWithSlice,
          zipWith_map, zipWith_self]
      rw [hwhole, xorWithCoeff_adds coeff _ _ (by rw [length_drop, length_drop, hlen]), map_drop,
        xorWithSlice, xorWithSlice, ← take_zipWith, ← drop_zipWith, take_append_drop]
      rfl

end VectorUnit

/-! ### Rows -/

theorem getD_map_gfMul : (src.map (gfMul coeff)).getD i 0 = gfMul coeff (src.getD i 0) := by
  have hmap := getD_map (l := src) (d := 0) (n := i) (gfMul coeff)
  rwa [gfMul_zero] at hmap

theorem isCombination_nil (len : Nat) : IsCombination [] len (List.replicate len 0) where
  length := length_replicate
  at_ i hi := by
    rw [getD_replicate _ hi]
    rfl

theorem Writes.isCombination (h : Writes write)
    (hlen : src.length = len) : IsCombination [(coeff, src)] len (write coeff src) where
  length := by rw [h, length_map, hlen]
  at_ i _ := by rw [h, combinationAt_singleton, ← Gf.of_gfMul, getD_map_gfMul]

theorem Adds.isCombination (h : Adds xor)
    (hout : IsCombination row len out) (hlen : src.length = len) :
    IsCombination (row ++ [(coeff, src)]) len (xor coeff out src) := by
  have hsame : out.length = (src.map (gfMul coeff)).length := by
    rw [hout.length, length_map, hlen]
  rw [h coeff out src (hout.length.trans hlen.symm)]
  constructor
  · rw [xorWithSlice, length_zipWith, ← hsame, Nat.min_self, hout.length]
  · intro i hi
    rw [getD_zipWith_xor hsame, Gf.of_xor, hout.at_ i hi, getD_map_gfMul, Gf.of_gfMul,
      combinationAt_append, combinationAt_singleton]

theorem IsCombination.append_zero (hout : IsCombination row len out) (src : Shard) :
    IsCombination (row ++ [(0, src)]) len out where
  length := hout.length
  at_ i hi := by
    rw [hout.at_ i hi, combinationAt_append, combinationAt_singleton, Gf.of_zero, zero_mul,
      add_zero]

/-- The later shards are added one after another. -/
theorem isCombination_foldl (hxor : Adds xor) :
    ∀ (rest row : List (UInt8 × Shard)) (out : Shard), (∀ p ∈ rest, p.2.length = len) →
      IsCombination row len out → IsCombination (row ++ rest) len
        (rest.foldl (fun output p => if p.1 = 0 then output else xor p.1 output p.2) out)
  | [], row, out, _, h => by
    rw [append_nil]
    exact h
  | (coeff, src) :: rest, row, out, hlen, h => by
    rw [forall_mem_cons] at hlen
    have hnext : IsCombination (row ++ [(coeff, src)]) len
        (if coeff = 0 then out else xor coeff out src) := by
      split
      · next hzero =>
        rw [hzero]
        exact h.append_zero src
      · exact hxor.isCombination h hlen.1
    have hrest := isCombination_foldl hxor rest _ _ hlen.2 hnext
    rw [append_assoc] at hrest
    exact hrest

theorem combineRow_isCombination (hwrite : Writes write) (hxor : Adds xor) :
    ∀ row : List (UInt8 × Shard), (∀ p ∈ row, p.2.length = len) →
      IsCombination row len (combineRow write xor len row)
  | [], _ => isCombination_nil len
  | (coeff, src) :: rest, hlen => by
    rw [forall_mem_cons] at hlen
    rw [combineRow]
    by_cases hzero : coeff = 0
    · have ih := combineRow_isCombination hwrite hxor rest hlen.2
      rw [if_pos hzero, hzero]
      exact ⟨ih.length, fun i hi => (ih.at_ i hi).trans (combinationAt_cons_zero).symm⟩
    · rw [if_neg hzero]
      exact isCombination_foldl hxor rest [(coeff, src)] _ hlen.2 (hwrite.isCombination hlen.1)

/-! ### Rows by whole vectors -/

theorem combinationAt_filter : combinationAt (row.filter (·.1 ≠ 0)) i = combinationAt row i := by
  induction row with
  | nil => rfl
  | cons p rest ih =>
    obtain ⟨coeff, src⟩ := p
    by_cases hzero : coeff = 0
    · subst hzero
      rw [filter_cons_of_neg (by simp), ih, combinationAt_cons_zero]
    · rw [filter_cons_of_pos (by simpa using hzero), ← singleton_append,
        combinationAt_append, ih, ← combinationAt_append, singleton_append]

/-- **A lane of the accumulated vector** is a byte of the combination. -/
theorem VectorUnit.accumulate_lane (unit : VectorUnit) (active : List (UInt8 × Shard))
    (index lane : Nat) :
    Gf.of (unit.accumulate active index lane) = combinationAt active (index + lane) := by
  have hfold : ∀ acc : Lanes, Gf.of (active.foldl (fun acc p => xorLanes acc
      (if p.1 = 1 then load p.2 index else unit.product (buildNibbleTable p.1) (load p.2 index)))
      acc lane) = Gf.of (acc lane) + combinationAt active (index + lane) := by
    induction active with
    | nil => exact fun acc => (add_zero _).symm
    | cons p rest ih =>
      intro acc
      have hlane : (if p.1 = 1 then load p.2 index
          else unit.product (buildNibbleTable p.1) (load p.2 index)) lane =
          gfMul p.1 (p.2.getD (index + lane) 0) := by
        split
        · next h => rw [h, gfMul_comm, gfMul_one, load]
        · rw [unit.product_lane, load]
      rw [foldl_cons, ih, xorLanes, hlane, Gf.of_xor, Gf.of_gfMul, ← singleton_append,
        combinationAt_append, combinationAt_singleton, add_assoc]
  rw [accumulate, hfold, set1, Gf.of_zero, zero_add]

theorem combinationAt_drop (index i : Nat) :
    combinationAt (row.map fun p => (p.1, p.2.drop index)) i = combinationAt row (index + i) := by
  simp only [combinationAt, map_map, Function.comp_def, getD_eq_getElem?_getD,
    getElem?_drop]

/-- The two loops of a row store the bytes of its whole vectors. -/
theorem VectorUnit.chunks_accumulate (unit : VectorUnit) (active : List (UInt8 × Shard))
    (stride count : Nat) (start : Nat) (hstart : start = count * stride) (rest : Nat) :
    ∃ value : Nat → UInt8, (∀ i, Gf.of (value i) = combinationAt active i) ∧
      chunks stride 0 count (fun index lane =>
          unit.accumulate active (index + lane / unit.width * unit.width) (lane % unit.width)) ++
        chunks unit.width start rest (unit.accumulate active) =
      (range (start + rest * unit.width)).map value := by
  refine ⟨fun i => unit.accumulate active i 0, fun i => unit.accumulate_lane active i 0, ?_⟩
  have hlane (index lane : Nat) : unit.accumulate active index lane =
      unit.accumulate active (index + lane) 0 := by
    refine Gf.of_inj.mp ?_
    rw [unit.accumulate_lane, unit.accumulate_lane, Nat.add_zero]
  rw [chunks_eq (fun i => unit.accumulate active i 0) fun index lane => ?_,
    chunks_eq (fun i => unit.accumulate active i 0) hlane, hstart, range_add, map_append, map_map]
  · simp only [Nat.zero_add, Function.comp_def]
  · rw [hlane, Nat.add_assoc, Nat.div_add_mod']

theorem VectorUnit.dotProdRow_isCombination (unit : VectorUnit)
    (hlen : ∀ p ∈ row, p.2.length = len) : IsCombination row len (unit.dotProdRow len row) := by
  rw [dotProdRow]
  dsimp only
  split
  · next hempty =>
    -- without a coefficient the combination is zero
    have hnil : row.filter (·.1 ≠ 0) = [] := isEmpty_iff.mp hempty
    refine ⟨length_replicate, ?_⟩
    intro i hi
    rw [← combinationAt_filter, hnil, getD_replicate _ hi]
    rfl
  · obtain ⟨value, hvalue, hchunks⟩ := unit.chunks_accumulate (row.filter (·.1 ≠ 0))
      (unit.unroll * unit.width) (len / (unit.unroll * unit.width)) _ rfl
      (len % (unit.unroll * unit.width) / unit.width)
    rw [hchunks]
    have hle : len / (unit.unroll * unit.width) * (unit.unroll * unit.width) +
        len % (unit.unroll * unit.width) / unit.width * unit.width ≤ len := by
      have hsplit := Nat.div_add_mod' len (unit.unroll * unit.width)
      have := Nat.div_mul_le_self (len % (unit.unroll * unit.width)) unit.width
      omega
    generalize len / (unit.unroll * unit.width) * (unit.unroll * unit.width) +
      len % (unit.unroll * unit.width) / unit.width * unit.width = index at hle ⊢
    have hchunk : ∀ i < index, Gf.of (((range index).map value).getD i 0) =
        combinationAt row i := by
      intro i hi
      rw [getD_eq_getElem _ _ (by rwa [length_map, length_range]), getElem_map, getElem_range,
        hvalue, combinationAt_filter]
    have hdropped : ∀ p ∈ row.map fun p => (p.1, p.2.drop index), p.2.length = len - index := by
      intro p hp
      obtain ⟨q, hq, rfl⟩ := mem_map.mp hp
      rw [length_drop, hlen q hq]
    have htail := combineRow_isCombination writeWithCoeff_writes xorWithCoeff_adds _ hdropped
    split
    · next hwhole =>
      refine ⟨?_, fun i hi => hchunk i (hi.trans_eq hwhole.symm)⟩
      rw [length_map, length_range, hwhole]
    · refine ⟨?_, ?_⟩
      · rw [length_append, length_map, length_range, htail.length]
        omega
      · intro i hi
        by_cases hlt : i < index
        · rw [getD_append _ _ _ _ (by rwa [length_map, length_range])]
          exact hchunk i hlt
        · rw [getD_append_right _ _ _ _ (by rw [length_map, length_range]; omega),
            length_map, length_range, htail.at_ _ (by omega), combinationAt_drop,
            Nat.add_sub_cancel' (Nat.not_lt.mp hlt)]

/-- **A parity row** is the combination of the data shards, on every backend. -/
theorem encodeRow_isCombination (backend : Backend) (hlen : ∀ p ∈ row, p.2.length = len) :
    IsCombination row len (encodeRow backend len row) := by
  cases backend with
  | scalar => exact combineRow_isCombination writeWithTable_writes xorWithTable_adds row hlen
  | neonAarch64 => exact neon.dotProdRow_isCombination hlen
  | avx512X8664 =>
    exact combineRow_isCombination avx512.copyOrWrite_writes avx512.xorOrMul_adds row hlen
  | avx2X8664 => exact combineRow_isCombination avx2.copyOrWrite_writes avx2.xorOrMul_adds row hlen

/-- **A rebuilt shard** is the combination of the present shards, on every backend. -/
theorem applyMatrixRow_isCombination (backend : Backend) (hlen : ∀ p ∈ row, p.2.length = len) :
    IsCombination row len (applyMatrixRow backend len row) := by
  cases backend with
  | scalar => exact combineRow_isCombination writeWithCoeff_writes xorWithCoeff_adds row hlen
  | neonAarch64 => exact neon.dotProdRow_isCombination hlen
  | avx512X8664 => exact avx512.dotProdRow_isCombination hlen
  | avx2X8664 => exact avx2.dotProdRow_isCombination hlen

end Argmin.Ec
