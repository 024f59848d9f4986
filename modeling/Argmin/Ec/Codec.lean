import Argmin.Ec.Gf256
import Argmin.Lib.Fallible
import Mathlib.Data.List.FinRange

/-!
# Erasure coding

`ErasureCodec` encodes `k` data shards into `m` parity shards and rebuilds missing shards from any
`k` present ones.  The encoding matrix is the identity over a Cauchy matrix; a rebuilt shard is a
row of the encoding matrix times the inverse of the rows of the present shards.

A shard is the list of its bytes, and a matrix of the source, which is one slice row by row, is the
vector of its rows.  The scalar kernels are modelled byte by byte and those of the vector backends
lane by lane, with the intrinsics they use: they look a byte up by its two halves, vector by vector,
and treat the rest as the scalar ones do.  The arrays in which they collect the sources of a row, of
the size `MAX_TOTAL_SHARDS`, and the assembly kernel are not modelled.
-/

namespace Argmin.Ec

open Fallible

abbrev Shard := List UInt8

def maxTotalShards : Nat := 32

def i32Max : Nat := 2147483647

inductive EcError
  | invalidConfig (reason : String)
  | shardCount (expected got : Nat)
  | shardSizeMismatch (index expected got : Nat)
  | insufficientShards (need have_ : Nat)
  | shardIndexOutOfRange (index total : Nat)
  | duplicateShardIndex (index : Nat)
  | overlappingIndices (index : Nat)
  | unsortedIndices (index : Nat)
  | shardSizeTooLarge (size : Nat)
  | duplicateRecoverIndex (index : Nat)
  | scratchTooSmall (required provided : Nat)
  | singularMatrix
deriving DecidableEq, Repr

/-! ### Configuration -/

def validateParts (dataShards parityShards : UInt8) : Except EcError Unit := do
  failIf (dataShards = 0) (.invalidConfig "data_shards must be >= 1")
  failIf (maxTotalShards < dataShards.toNat + parityShards.toNat)
    (.invalidConfig "data_shards + parity_shards exceeds MAX_TOTAL_SHARDS")

/-- The parameters of a scheme: at least one data shard, at most 32 shards. -/
structure EcConfig where
  dataShards : UInt8
  parityShards : UInt8
  valid : validateParts dataShards parityShards = .ok ()

def EcConfig.new (dataShards parityShards : UInt8) : Except EcError EcConfig :=
  match h : validateParts dataShards parityShards with
  | .error e => .error e
  | .ok () => .ok ⟨dataShards, parityShards, h⟩

variable (config : EcConfig)

/-- The number of data shards. -/
def EcConfig.k : Nat := config.dataShards.toNat

/-- The number of parity shards. -/
def EcConfig.m : Nat := config.parityShards.toNat

def EcConfig.totalShards : Nat := config.k + config.m

/-! ### Matrices -/

/-- An entry of the encoding matrix: the identity over the inverses of `row ^ col`. -/
def genCauchy1Matrix (k row col : Nat) : UInt8 :=
  if row < k then (if row = col then 1 else 0) else gfInv (UInt8.ofNat (row ^^^ col))

/-- A square matrix, row by row. -/
abbrev Mat (n : Nat) := Vector (Vector UInt8 n) n

namespace Mat

variable {n : Nat}

def ofFn (f : Fin n → Fin n → UInt8) : Mat n := Vector.ofFn fun r => Vector.ofFn (f r)

variable (matrix : Mat n)

def entry (r c : Fin n) : UInt8 := matrix[r.val][c.val]

@[simp] theorem entry_ofFn (f : Fin n → Fin n → UInt8) (r c : Fin n) :
    (ofFn f).entry r c = f r c := by
  simp only [entry, ofFn, Vector.getElem_ofFn]

def identity (n : Nat) : Mat n := ofFn fun r c => if r = c then 1 else 0

def swapRows (p q : Fin n) : Mat n :=
  ofFn fun r c => matrix.entry (if r = p then q else if r = q then p else r) c

def scaleRow (p : Fin n) (scale : UInt8) : Mat n :=
  ofFn fun r c => if r = p then gfMul (matrix.entry r c) scale else matrix.entry r c

/-- Add to each other row the pivot row times the row's factor; rows with the factor zero are
passed over. -/
def clearRows (p : Fin n) (factor : Fin n → UInt8) : Mat n :=
  ofFn fun r c =>
    if r = p then matrix.entry r c
    else if factor r = 0 then matrix.entry r c
    else matrix.entry r c ^^^ gfMul (factor r) (matrix.entry p c)

end Mat

/-- The rows are exchanged when the pivot is zero; without a row to exchange with the matrix is
singular. -/
def choosePivot {n : Nat} (state : Mat n × Mat n) (pivot : Fin n) : Option (Mat n × Mat n) :=
  if state.1.entry pivot pivot = 0 then
    ((List.finRange n).find? fun row => pivot < row ∧ state.1.entry row pivot ≠ 0).map
      fun swapRow => (state.1.swapRows pivot swapRow, state.2.swapRows pivot swapRow)
  else some state

def eliminate {n : Nat} (state : Mat n × Mat n) (pivot : Fin n) : Mat n × Mat n :=
  let scale := gfInv (state.1.entry pivot pivot)
  let input := state.1.scaleRow pivot scale
  let output := state.2.scaleRow pivot scale
  let factor := fun row => input.entry row pivot
  (input.clearRows pivot factor, output.clearRows pivot factor)

/-- One round of the elimination. -/
def pivotRound {n : Nat} (state : Mat n × Mat n) (pivot : Fin n) : Option (Mat n × Mat n) :=
  (choosePivot state pivot).map fun state => eliminate state pivot

def invertMatrix {n : Nat} (input : Mat n) : Option (Mat n) :=
  ((List.finRange n).foldlM pivotRound (input, Mat.identity n)).map (·.2)

/-! ### Kernels -/

inductive Backend
  | scalar
  | neonAarch64
  | avx512X8664
  | avx2X8664
deriving DecidableEq, Repr

def writeWithTable (coeff : UInt8) (src : Shard) : Shard := src.map (gfMul coeff)

def xorWithSlice (dest src : Shard) : Shard := List.zipWith (· ^^^ ·) dest src

def xorWithTable (coeff : UInt8) (dest src : Shard) : Shard :=
  xorWithSlice dest (writeWithTable coeff src)

def writeWithCoeff (coeff : UInt8) (src : Shard) : Shard :=
  if coeff = 0 then List.replicate src.length 0
  else if coeff = 1 then src
  else writeWithTable coeff src

def xorWithCoeff (coeff : UInt8) (dest src : Shard) : Shard :=
  if coeff = 0 then dest
  else if coeff = 1 then xorWithSlice dest src
  else xorWithTable coeff dest src

/-! ### Vectors

A vector is a function from its lanes to bytes; an intrinsic has its documented meaning on them. -/

abbrev Lanes := Nat → UInt8

def load (src : Shard) (index : Nat) : Lanes := fun lane => src.getD (index + lane) 0

def set1 (byte : UInt8) : Lanes := fun _ => byte

def andLanes (a b : Lanes) : Lanes := fun lane => a lane &&& b lane

def xorLanes (a b : Lanes) : Lanes := fun lane => a lane ^^^ b lane

/-- `vshrq_n_u8`. -/
def shiftBytes (a : Lanes) : Lanes := fun lane => a lane >>> 4

/-- `_mm256_srli_epi16` and `_mm512_srli_epi16`: the lanes are shifted in words of two. -/
def shiftWords (a : Lanes) : Lanes := fun lane =>
  let word := (a (lane / 2 * 2)).toNat + 256 * (a (lane / 2 * 2 + 1)).toNat
  UInt8.ofNat ((word >>> 4) >>> (8 * (lane % 2)))

/-- `vqtbl1q_u8`: zero outside the table. -/
def tableLookup (table indices : Lanes) : Lanes := fun lane =>
  if (indices lane).toNat < 16 then table (indices lane).toNat else 0

/-- `_mm256_shuffle_epi8` and `_mm512_shuffle_epi8`: a lookup within each block of sixteen lanes. -/
def shuffle (table indices : Lanes) : Lanes := fun lane =>
  if 128 ≤ (indices lane).toNat then 0 else table (lane / 16 * 16 + (indices lane).toNat % 16)

/-- `_mm256_broadcastsi128_si256` and `_mm512_broadcast_i32x4`. -/
def broadcast (a : Lanes) : Lanes := fun lane => a (lane % 16)

def buildNibbleTable (coeff : UInt8) : List UInt8 :=
  (List.range 16).map (fun index => gfMul coeff (UInt8.ofNat index)) ++
    (List.range 16).map fun index => gfMul coeff (UInt8.ofNat (index <<< 4))

/-- The upper halves of the words of two lanes, once masked, are those of the lanes. -/
theorem shiftWords_lane (a : Lanes) (lane : Nat) :
    shiftWords a lane &&& (0x0f : UInt8) = (a lane >>> 4) &&& (0x0f : UInt8) := by
  refine UInt8.toNat_inj.mp ?_
  have hmask : (0x0f : UInt8).toNat = 2 ^ 4 - 1 := rfl
  have hshift : (a lane >>> 4).toNat = (a lane).toNat / 2 ^ 4 := by
    rw [UInt8.toNat_shiftRight, Nat.shiftRight_eq_div_pow]
    rfl
  rw [UInt8.toNat_and, UInt8.toNat_and, hmask, Nat.and_two_pow_sub_one_eq_mod,
    Nat.and_two_pow_sub_one_eq_mod, hshift, shiftWords, UInt8.toNat_ofNat',
    Nat.shiftRight_eq_div_pow, Nat.shiftRight_eq_div_pow]
  have hlow := (a (lane / 2 * 2)).toNat_lt
  rcases Nat.mod_two_eq_zero_or_one lane with heven | hodd
  · have hlane : lane / 2 * 2 = lane := by omega
    rw [heven, hlane] at *
    omega
  · have hlane : lane / 2 * 2 + 1 = lane := by omega
    rw [hodd, hlane]
    omega

theorem shuffle_lane (table indices : Lanes) (lane : Nat) (h : (indices lane).toNat < 16) :
    shuffle (broadcast table) indices lane = table (indices lane).toNat := by
  rw [shuffle, if_neg (by omega), broadcast]
  congr 1
  omega

/-- What differs between the vector backends: the number of lanes, how many vectors the first loop
of a row takes at once, and the intrinsics by which a half of a byte is looked up. -/
structure VectorUnit where
  width : Nat
  unroll : Nat
  shift : Lanes → Lanes
  lookup : Lanes → Lanes → Lanes
  broadcast : Lanes → Lanes
  shift_lane : ∀ a lane, shift a lane &&& (0x0f : UInt8) = (a lane >>> 4) &&& (0x0f : UInt8)
  lookup_lane : ∀ table indices lane, (indices lane).toNat < 16 →
    lookup (broadcast table) indices lane = table (indices lane).toNat

def neon : VectorUnit where
  width := 16
  unroll := 4
  shift := shiftBytes
  lookup := tableLookup
  broadcast := id
  shift_lane _ _ := rfl
  lookup_lane _ _ _ h := if_pos h

def avx (width : Nat) : VectorUnit where
  width := width
  unroll := 1
  shift := shiftWords
  lookup := shuffle
  broadcast := broadcast
  shift_lane := shiftWords_lane
  lookup_lane := shuffle_lane

def avx512 : VectorUnit := avx 64

def avx2 : VectorUnit := avx 32

/-- What a loop stores that starts at `start` and takes `count` steps of one vector each. -/
def chunks (width start count : Nat) (vector : Nat → Lanes) : Shard :=
  (List.range count).flatMap fun c => (List.range width).map (vector (start + c * width))

/-- A row of coefficients applied to shards of `len` bytes: the first shard with a coefficient is
written, the later ones are added. -/
def combineRow (write : UInt8 → Shard → Shard) (xor : UInt8 → Shard → Shard → Shard) (len : Nat) :
    List (UInt8 × Shard) → Shard
  | [] => List.replicate len 0
  | (coeff, src) :: rest =>
    if coeff = 0 then combineRow write xor len rest
    else
      rest.foldl (fun output p => if p.1 = 0 then output else xor p.1 output p.2) (write coeff src)

namespace VectorUnit

variable (unit : VectorUnit)

def mulChunk (src lowTable highTable mask : Lanes) : Lanes :=
  let low := andLanes src mask
  let high := andLanes (unit.shift src) mask
  xorLanes (unit.lookup lowTable low) (unit.lookup highTable high)

/-- A vector of a shard times a coefficient, by the coefficient's table. -/
def product (table : List UInt8) (src : Lanes) : Lanes :=
  unit.mulChunk src (unit.broadcast (load table 0)) (unit.broadcast (load table 16)) (set1 0x0f)

def writeWithNibbleTable (src table : List UInt8) : Shard :=
  let coeff := table.getD 1 0
  if coeff = 0 ∨ coeff = 1 ∨ src.length < unit.width then writeWithCoeff coeff src
  else
    let count := src.length / unit.width
    chunks unit.width 0 count (fun index => unit.product table (load src index)) ++
      writeWithCoeff coeff (src.drop (count * unit.width))

def xorWithNibbleTable (dest src table : List UInt8) : Shard :=
  let coeff := table.getD 1 0
  if coeff = 0 ∨ coeff = 1 ∨ src.length < unit.width then xorWithCoeff coeff dest src
  else
    let count := src.length / unit.width
    chunks unit.width 0 count (fun index =>
        xorLanes (load dest index) (unit.product table (load src index))) ++
      xorWithCoeff coeff (dest.drop (count * unit.width)) (src.drop (count * unit.width))

/-- A vector of the sum over the shards of a row. -/
def accumulate (active : List (UInt8 × Shard)) (index : Nat) : Lanes :=
  active.foldl (fun acc p => xorLanes acc (if p.1 = 1 then load p.2 index
    else unit.product (buildNibbleTable p.1) (load p.2 index))) (set1 0)

/-- The first loop keeps `unroll` accumulators, the second one takes the vectors that remain;
without unrolling there are none. -/
def dotProdRow (len : Nat) (row : List (UInt8 × Shard)) : Shard :=
  let active := row.filter (·.1 ≠ 0)
  if active.isEmpty then List.replicate len 0
  else
    let stride := unit.unroll * unit.width
    let whole := len / stride * stride
    let index := whole + len % stride / unit.width * unit.width
    let output := chunks stride 0 (len / stride) (fun index lane =>
        unit.accumulate active (index + lane / unit.width * unit.width) (lane % unit.width)) ++
      chunks unit.width whole (len % stride / unit.width) (unit.accumulate active)
    if index = len then output
    else
      output ++ combineRow writeWithCoeff xorWithCoeff (len - index)
        (row.map fun p => (p.1, p.2.drop index))

def copyOrWrite (coeff : UInt8) (src : Shard) : Shard :=
  if coeff = 1 then src else unit.writeWithNibbleTable src (buildNibbleTable coeff)

def xorOrMul (coeff : UInt8) (dest src : Shard) : Shard :=
  if coeff = 1 then xorWithSlice dest src
  else unit.xorWithNibbleTable dest src (buildNibbleTable coeff)

end VectorUnit

/-- One parity row.  The entry for one in a coefficient's table is the coefficient itself, so the
tests of the source are tests of the coefficient. -/
def encodeRow (backend : Backend) (len : Nat) (row : List (UInt8 × Shard)) : Shard :=
  match backend with
  | .scalar => combineRow writeWithTable xorWithTable len row
  | .neonAarch64 => neon.dotProdRow len row
  | .avx512X8664 => combineRow avx512.copyOrWrite avx512.xorOrMul len row
  | .avx2X8664 => combineRow avx2.copyOrWrite avx2.xorOrMul len row

def applyMatrixRow (backend : Backend) (len : Nat) (row : List (UInt8 × Shard)) : Shard :=
  match backend with
  | .scalar => combineRow writeWithCoeff xorWithCoeff len row
  | .neonAarch64 => neon.dotProdRow len row
  | .avx512X8664 => avx512.dotProdRow len row
  | .avx2X8664 => avx2.dotProdRow len row

/-! ### The codec -/

def checkShardSize (size : Nat) : Except EcError Unit :=
  failIf (i32Max < size) (.shardSizeTooLarge size)

/-- Every shard has the size; the error names the shard's index. -/
def checkSizes (size : Nat) : List (Nat × Shard) → Except EcError Unit
  | [] => .ok ()
  | (index, shard) :: rest => do
    failIf (shard.length ≠ size) (.shardSizeMismatch index size shard.length)
    checkSizes size rest

/-- A row of the encoding matrix. -/
def encodeMatrixRow (k row : Nat) : List UInt8 := (List.range k).map (genCauchy1Matrix k row)

/-- The codec of a configuration; the matrix and the tables it holds are functions of it. -/
structure ErasureCodec where
  config : EcConfig

def ErasureCodec.new : Except EcError ErasureCodec := do
  validateParts config.dataShards config.parityShards
  return ⟨config⟩

/-- `parity` is the caller's buffers; the result is what they hold afterwards. -/
def ErasureCodec.encode (codec : ErasureCodec) (backend : Backend) (data parity : List Shard) :
    Except EcError (List Shard) := do
  let k := codec.config.k
  let m := codec.config.m
  failIf (data.length ≠ k) (.shardCount k data.length)
  failIf (parity.length ≠ m) (.shardCount m parity.length)
  let shardSize := (data.headD []).length
  checkShardSize shardSize
  checkSizes shardSize ((data.zipIdx.drop 1).map fun p => (p.2, p.1))
  checkSizes shardSize (parity.zipIdx.map fun p => (k + p.2, p.1))
  if m = 0 ∨ shardSize = 0 then return parity
  return parity.zipIdx.map fun p =>
    encodeRow backend p.1.length ((encodeMatrixRow k (k + p.2)).zip data)

inductive VerifyResult
  | ok
  | mismatch (index : Nat)
deriving DecidableEq, Repr

/-- Each parity row is computed anew and compared; the error names the shard's index. -/
def verifyRows (backend : Backend) (k shardSize : Nat) (data : List Shard) :
    Nat → List Shard → VerifyResult
  | _, [] => .ok
  | row, parity :: rest =>
    if encodeRow backend shardSize ((encodeMatrixRow k (k + row)).zip data) ≠ parity then
      .mismatch (k + row)
    else verifyRows backend k shardSize data (row + 1) rest

/-- A row of `scratch` is overwritten before it is compared, so that only the length of `scratch`
matters. -/
def ErasureCodec.verify (codec : ErasureCodec) (backend : Backend) (data parity : List Shard)
    (scratch : Shard) : Except EcError VerifyResult := do
  let k := codec.config.k
  let m := codec.config.m
  failIf (data.length ≠ k) (.shardCount k data.length)
  failIf (parity.length ≠ m) (.shardCount m parity.length)
  let shardSize := (data.headD []).length
  checkShardSize shardSize
  checkSizes shardSize ((data.zipIdx.drop 1).map fun p => (p.2, p.1))
  checkSizes shardSize (parity.zipIdx.map fun p => (k + p.2, p.1))
  let required := min (m * shardSize) (2 ^ 64 - 1)
  failIf (scratch.length < required) (.scratchTooSmall required scratch.length)
  if m = 0 ∨ shardSize = 0 then return .ok
  return verifyRows backend k shardSize data 0 parity

/-- The present indices are in range and strictly increasing. -/
def checkPresent (total : Nat) : Option Nat → Nat → List Nat → Except EcError Unit
  | _, _, [] => .ok ()
  | previous, i, idx :: rest => do
    failIf (total ≤ idx) (.shardIndexOutOfRange idx total)
    onSome previous fun prev => do
      failIf (idx = prev) (.duplicateShardIndex idx)
      failIf (idx < prev) (.unsortedIndices i)
    checkPresent total (some idx) (i + 1) rest

/-- The indices to rebuild are in range, not present, and not named twice. -/
def checkRecover (total : Nat) (present : List Nat) : List Nat → List Nat → Except EcError Unit
  | _, [] => .ok ()
  | recovered, idx :: rest => do
    failIf (total ≤ idx) (.shardIndexOutOfRange idx total)
    failIf (idx ∈ present) (.overlappingIndices idx)
    failIf (idx ∈ recovered) (.duplicateRecoverIndex idx)
    checkRecover total present (idx :: recovered) rest

/-- The rows of the encoding matrix that belong to the first `k` present shards. -/
def subMatrix (k : Nat) (present : List Nat) : Mat k :=
  Mat.ofFn fun row col => genCauchy1Matrix k (present.getD row 0) col

/-- A row of the recovery matrix: a row of the encoding matrix times the inverse. -/
def recoveryRow {k : Nat} (inverse : Mat k) (recoverIndex : Nat) : List UInt8 :=
  (List.finRange k).map fun j => (List.finRange k).foldl (fun value (col : Fin k) =>
    value ^^^ gfMul (genCauchy1Matrix k recoverIndex col) (inverse.entry col j)) 0

def reconstructShards (backend : Backend) (k : Nat) (present : List Nat) (presentData : List Shard)
    (recover : List Nat) (outputs : List Shard) : Except EcError (List Shard) := do
  let inverse ← okOr (invertMatrix (subMatrix k (present.take k))) .singularMatrix
  return (recover.zip outputs).map fun p =>
    applyMatrixRow backend p.2.length ((recoveryRow inverse p.1).zip (presentData.take k))

/-- `outputs` is the caller's buffers; the result is what they hold afterwards. -/
def ErasureCodec.reconstruct (codec : ErasureCodec) (backend : Backend) (present : List Nat)
    (presentData : List Shard) (recover : List Nat) (outputs : List Shard) :
    Except EcError (List Shard) := do
  let k := codec.config.k
  let total := codec.config.totalShards
  failIf (present.length ≠ presentData.length) (.shardCount present.length presentData.length)
  failIf (recover.length ≠ outputs.length) (.shardCount recover.length outputs.length)
  failIf (present.length < k) (.insufficientShards k present.length)
  checkPresent total none 0 present
  checkRecover total present [] recover
  let shardSize := (presentData.headD []).length
  checkShardSize shardSize
  checkSizes shardSize ((present.zip presentData).drop 1)
  checkSizes shardSize (recover.zip outputs)
  if recover = [] ∨ shardSize = 0 then return outputs
  reconstructShards backend k present presentData recover outputs

end Argmin.Ec
