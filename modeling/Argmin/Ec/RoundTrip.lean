import Argmin.Ec.Inversion
import Argmin.Ec.Kernels
import Argmin.Lib.SystematicCauchy

/-!
# Any `k` shards give back the others

The rows of any `k` shards are independent, because the encoding matrix is the identity over a
Cauchy matrix; so the inversion succeeds and the recovery matrix sends the present shards to the
missing ones.

* `subMatrix_injective` — the rows of `k` present shards are independent;
* `rows_eq_scalar` — the vector kernels compute what the scalar ones do;
* `encode_spec` — the shards after an encoding are the combinations of the data shards;
* `reconstruct_round_trip` — reconstruction gives back the original shards.
-/

namespace Argmin.Ec

open Fallible SystematicCauchy List Nat
open Matrix

/-! ### The encoding matrix -/

section Rows

variable {k : Nat}

/-- The shards beyond the data shards that a byte can number. -/
abbrev ParityIndex (k : Nat) := { r : Nat // k ≤ r ∧ r < 256 }

/-- The point of a row or column. -/
def point (i : Nat) : Gf := Gf.of (UInt8.ofNat i)

theorem point_inj {i j : Nat} (hi : i < 256) (hj : j < 256) (h : point i = point j) : i = j := by
  have hnat := congrArg UInt8.toNat (Gf.of_inj.mp h)
  rwa [UInt8.toNat_ofNat_of_lt' hi, UInt8.toNat_ofNat_of_lt' hj] at hnat

/-- Whether a shard is a data shard or a parity shard. -/
def label (k : Nat) (i : Nat) (h : i < 256) : Fin k ⊕ ParityIndex k :=
  if hk : i < k then .inl ⟨i, hk⟩ else .inr ⟨i, Nat.not_lt.mp hk, h⟩

theorem label_inj {i j : Nat} {hi : i < 256} {hj : j < 256} (h : label k i hi = label k j hj) :
    i = j := by
  unfold label at h
  split at h <;> split at h
  · exact congrArg Fin.val (Sum.inl.inj h)
  · cases h
  · cases h
  · exact congrArg Subtype.val (Sum.inr.inj h)

/-- The encoding matrix is the identity over a Cauchy matrix. -/
theorem of_genCauchy1Matrix (i : Nat) (hi : i < 256) (c : Fin k) :
    Gf.of (genCauchy1Matrix k i c) =
      systematic (fun c : Fin k => point c) (fun r : ParityIndex k => point r)
        (label k i hi) c := by
  unfold genCauchy1Matrix label
  by_cases hk : i < k
  · rw [if_pos hk, dif_pos hk, systematic]
    simp only [Fin.ext_iff]
    split <;> rfl
  · rw [if_neg hk, dif_neg hk, systematic, Gf.of_gfInv, UInt8.ofNat_xor, Gf.of_xor,
      Gf.sub_eq_add]
    rfl

/-- **The rows of `k` different shards are independent.** -/
theorem subMatrix_injective {present : List Nat} (hk : k ≤ 256) (hlen : k ≤ present.length)
    (hsorted : present.Pairwise (· < ·)) (hrange : ∀ i ∈ present, i < 256) :
    ∀ v, toGf (subMatrix k (present.take k)) *ᵥ v = 0 → v = 0 := by
  intro v hv
  have hlt : ∀ r : Fin k, r.val < (present.take k).length := by
    rw [length_take]
    omega
  have hget : ∀ r : Fin k, (present.take k).getD r 0 ∈ present := by
    intro r
    rw [getD_eq_getElem _ _ (hlt r)]
    exact mem_of_mem_take (getElem_mem (hlt r))
  have hrows : Function.Injective fun r : Fin k =>
      label k ((present.take k).getD r 0) (hrange _ (hget r)) := by
    intro r s heq
    have hvalue := label_inj heq
    have hnodup : (present.take k).Nodup :=
      (hsorted.imp fun h => ne_of_lt h).sublist (take_sublist k present)
    rw [getD_eq_getElem _ _ (hlt r), getD_eq_getElem _ _ (hlt s)] at hvalue
    exact Fin.ext ((hnodup.getElem_inj_iff).mp hvalue)
  refine systematic_independent ?_ ?_ ?_ hrows (v := v) (x := fun c : Fin k => point c)
    (y := fun r : ParityIndex k => point r) ?_
  · intro c d heq
    exact Fin.ext (point_inj (by omega) (by omega) heq)
  · intro r s heq
    exact Subtype.ext (point_inj r.2.2 s.2.2 heq)
  · intro r c heq
    have := point_inj r.2.2 (by omega) heq
    omega
  · intro r
    have hr := congrFun hv r
    simp only [mulVec, dotProduct, toGf, subMatrix, Mat.entry_ofFn, Pi.zero_apply] at hr
    rw [← hr]
    refine Finset.sum_congr rfl ?_
    intro c _
    rw [of_genCauchy1Matrix _ (hrange _ (hget r))]

end Rows

/-! ### Combinations as sums -/

variable {k len size total : Nat} {data buffers parity : List Shard} {codec : ErasureCodec}
  {backend : Backend}

theorem combinationAt_zip (f : Fin k → UInt8) {shards : List Shard}
    (hlen : shards.length = k) (i : Nat) :
    combinationAt ((List.ofFn f).zip shards) i =
      ∑ c : Fin k, Gf.of (f c) * Gf.of ((shards.getD c []).getD i 0) := by
  have hmap : ((ofFn f).zip shards).map (fun p => Gf.of p.1 * Gf.of (p.2.getD i 0)) =
      List.ofFn fun c : Fin k => Gf.of (f c) * Gf.of ((shards.getD c []).getD i 0) := by
    refine List.ext_getElem ?_ ?_
    · simp only [List.length_map, List.length_zip, hlen, List.length_ofFn, min_self]
    · intro c hc _
      simp only [List.length_map, List.length_zip, hlen, List.length_ofFn, min_self] at hc
      simp only [List.getElem_map, List.getElem_zip, List.getElem_ofFn,
        List.getD_eq_getElem _ _ (hlen.symm ▸ hc : c < shards.length)]
  rw [combinationAt, hmap, sum_ofFn]

theorem encodeMatrixRow_eq (k row : Nat) :
    encodeMatrixRow k row = List.ofFn fun c : Fin k => genCauchy1Matrix k row c := by
  refine List.ext_getElem ?_ ?_
  · rw [encodeMatrixRow, List.length_map, List.length_range, List.length_ofFn]
  · intro c _ _
    simp only [encodeMatrixRow, List.getElem_map, List.getElem_range, List.getElem_ofFn]

/-- A combination is determined by its row. -/
theorem IsCombination.unique {row row' : List (UInt8 × Shard)} {out out' : Shard}
    (h : IsCombination row len out) (h' : IsCombination row' len out')
    (hsame : ∀ i < len, combinationAt row i = combinationAt row' i) : out = out' := by
  refine ext_getElem (h.length.trans h'.length.symm) ?_
  intro i hi hi'
  have hlt : i < len := h.length ▸ hi
  have hbyte := (h.at_ i hlt).trans ((hsame i hlt).trans (h'.at_ i hlt).symm)
  rw [getD_eq_getElem _ _ hi, getD_eq_getElem _ _ hi'] at hbyte
  exact Gf.of_inj.mp hbyte

/-! ### The backends -/

def encodeRows (backend : Backend) (matrix : List (List UInt8)) (data outputs : List Shard) :
    List Shard :=
  (matrix.zip outputs).map fun p => encodeRow backend p.2.length (p.1.zip data)

def applyMatrixRows (backend : Backend) (rows : List (List UInt8)) (inputs outputs : List Shard) :
    List Shard :=
  (rows.zip outputs).map fun p => applyMatrixRow backend p.2.length (p.1.zip inputs)

/-- **The vector kernels compute what the scalar ones do**, for every matrix, every number of inputs
and outputs and every length of the shards: each of them computes the combination. -/
theorem rows_eq_scalar (backend : Backend) (matrix : List (List UInt8)) {data outputs : List Shard}
    {len : Nat} (hdata : ∀ s ∈ data, s.length = len) (houtputs : ∀ s ∈ outputs, s.length = len) :
    encodeRows backend matrix data outputs = encodeRows .scalar matrix data outputs ∧
      applyMatrixRows backend matrix data outputs =
        applyMatrixRows .scalar matrix data outputs := by
  have hrow : ∀ p ∈ matrix.zip outputs, ∀ q ∈ p.1.zip data, q.2.length = p.2.length := by
    intro p hp q hq
    rw [hdata _ (of_mem_zip hq).2, houtputs _ (of_mem_zip hp).2]
  constructor
  · refine map_congr_left fun p hp => ?_
    exact (encodeRow_isCombination backend (hrow p hp)).unique
      (encodeRow_isCombination .scalar (hrow p hp)) fun _ _ => rfl
  · refine map_congr_left fun p hp => ?_
    exact (applyMatrixRow_isCombination backend (hrow p hp)).unique
      (applyMatrixRow_isCombination .scalar (hrow p hp)) fun _ _ => rfl

/-- Shards of one vector and a byte. -/
theorem rows_eq_scalar_tail :
    encodeRows .avx2X8664 [[3, 1]] [List.replicate 33 7, List.replicate 33 9]
        [List.replicate 33 0] =
      encodeRows .scalar [[3, 1]] [List.replicate 33 7, List.replicate 33 9]
        [List.replicate 33 0] :=
  (@rows_eq_scalar .avx2X8664 [[3, 1]] _ _ 33 (by decide) (by decide)).1

/-! ### The checks -/

theorem checkSizes_eq_ok : ∀ {shards : List (Nat × Shard)},
      checkSizes size shards = .ok () ↔ ∀ p ∈ shards, p.2.length = size
  | [] => by simp [checkSizes]
  | (index, shard) :: rest => by
    rw [checkSizes, failIf_bind_eq_ok, checkSizes_eq_ok, forall_mem_cons, not_not]

theorem checkPresent_eq_ok : ∀ {previous : Option Nat} {i : Nat} {present : List Nat},
      checkPresent total previous i present = .ok () ↔
        (∀ idx ∈ present, idx < total) ∧ (previous.toList ++ present).IsChain (· < ·)
  | previous, i, [] => by
    cases previous <;> simp [checkPresent]
  | previous, i, idx :: rest => by
    rw [checkPresent, failIf_bind_eq_ok, not_le, forall_mem_cons]
    cases previous with
    | none =>
      simp only [onSome, ok_bind, checkPresent_eq_ok, Option.toList_none, nil_append,
        Option.toList_some, singleton_append, and_assoc]
    | some prev =>
      simp only [onSome, bind_eq_ok, failIf_eq_ok, exists_const, checkPresent_eq_ok,
        Option.toList_some, singleton_append, isChain_cons_cons, and_assoc]
      constructor
      · rintro ⟨hidx, hne, hnlt, hrest, hchain⟩
        exact ⟨hidx, hrest, by omega, hchain⟩
      · rintro ⟨hidx, hrest, hlt, hchain⟩
        exact ⟨hidx, by omega, by omega, hrest, hchain⟩

/-- With indices that are new and not present, the only error is an index out of range. -/
theorem checkRecover_eq {present : List Nat} :
    ∀ {recovered recover : List Nat}, recover.Nodup → (∀ i ∈ recover, i ∉ present) →
      (∀ i ∈ recover, i ∉ recovered) →
      checkRecover total present recovered recover =
        match recover.find? (total ≤ ·) with
        | some i => .error (.shardIndexOutOfRange i total)
        | none => .ok ()
  | _, [], _, _, _ => rfl
  | recovered, idx :: rest, hnodup, hpresent, hnew => by
    rw [nodup_cons] at hnodup
    rw [forall_mem_cons] at hpresent hnew
    rw [checkRecover]
    by_cases hidx : total ≤ idx
    · rw [find?_cons, decide_eq_true hidx, failIf, if_pos hidx]
      rfl
    · rw [find?_cons, decide_eq_false hidx, failIf_of_not hidx, ok_bind,
        failIf_of_not hpresent.1, ok_bind, failIf_of_not hnew.1, ok_bind]
      refine checkRecover_eq hnodup.2 hpresent.2 ?_
      intro i hi
      refine not_mem_cons_of_ne_of_not_mem ?_ (hnew.2 i hi)
      rintro rfl
      exact hnodup.1 hi

theorem EcConfig.bounds (config : EcConfig) : 0 < config.k ∧ config.k + config.m ≤ 32 := by
  have hvalid := config.valid
  simp only [validateParts, bind_eq_ok, failIf_eq_ok, exists_const] at hvalid
  obtain ⟨hzero, htotal⟩ := hvalid
  refine ⟨pos_of_ne_zero fun h => hzero (UInt8.toNat_inj.mp h), ?_⟩
  exact not_lt.mp htotal

/-! ### Encoding -/

/-- A row of the identity picks its shard. -/
theorem isCombination_data {idx : Nat} (hdata : data.length = k)
    (hidx : idx < k) (hlen : ∀ s ∈ data, s.length = len) :
    IsCombination ((encodeMatrixRow k idx).zip data) len (data.getD idx []) := by
  have hlt : idx < data.length := hdata.symm ▸ hidx
  constructor
  · rw [getD_eq_getElem _ _ hlt]
    exact hlen _ (getElem_mem hlt)
  · intro i _
    rw [encodeMatrixRow_eq, combinationAt_zip _ hdata, Finset.sum_eq_single ⟨idx, hidx⟩]
    · rw [genCauchy1Matrix, if_pos hidx, if_pos rfl, Gf.of_one, one_mul]
    · intro c _ hne
      have hne' : idx ≠ c.val := fun heq => hne (Fin.ext heq.symm)
      rw [genCauchy1Matrix, if_pos hidx, if_neg hne', Gf.of_zero, zero_mul]
    · intro hout
      exact absurd (Finset.mem_univ _) hout

/-- What an accepted encoding says of the shards. -/
structure Encoded (config : EcConfig) (data parity : List Shard) (size : Nat) : Prop where
  data_length : data.length = config.k
  data_size : ∀ s ∈ data, s.length = size
  size_le : size ≤ i32Max
  shard : ∀ idx < config.totalShards,
    IsCombination ((encodeMatrixRow config.k idx).zip data) size ((data ++ parity).getD idx [])

theorem forall_zip_length {row : List UInt8}
    (hlen : ∀ s ∈ data, s.length = len) : ∀ p ∈ row.zip data, p.2.length = len := by
  intro p hp
  exact hlen p.2 (of_mem_zip hp).2

theorem forall_size_of_checks {f : Nat → Nat}
    (h : checkSizes size (data.zipIdx.map fun p => (f p.2, p.1)) = .ok ()) :
    ∀ s ∈ data, s.length = size := by
  intro s hs
  obtain ⟨i, hi, rfl⟩ := getElem_of_mem hs
  exact checkSizes_eq_ok.mp h (f i, data[i]) (mem_map.mpr
    ⟨(data[i], i), mk_mem_zipIdx_iff_getElem?.mpr (getElem?_eq_getElem hi), rfl⟩)

/-- The first shard has its own size, so that the check of the others is a check of all. -/
theorem forall_size_of_tail
    (h : checkSizes (data.headD []).length ((data.zipIdx.drop 1).map fun p => (p.2, p.1)) =
      .ok ()) : ∀ s ∈ data, s.length = (data.headD []).length := by
  cases data with
  | nil =>
    intro s hs
    exact absurd hs not_mem_nil
  | cons first rest =>
    rw [forall_mem_cons]
    refine ⟨rfl, ?_⟩
    intro s hs
    obtain ⟨i, hi, rfl⟩ := getElem_of_mem hs
    refine checkSizes_eq_ok.mp h (i + 1, rest[i]) (mem_map.mpr ⟨(rest[i], i + 1), ?_, rfl⟩)
    rw [zipIdx_cons, drop_succ_cons, drop_zero, mem_zipIdx_iff_le_and_getElem?_sub]
    exact ⟨by omega, by rw [Nat.zero_add, Nat.add_sub_cancel, getElem?_eq_getElem hi]⟩

section Shaped

variable {config : EcConfig} {data parity : List Shard} {k size : Nat}

/-- As many shards as the configuration says, of one size. -/
structure Shaped (config : EcConfig) (data parity : List Shard) (size : Nat) : Prop where
  data_length : data.length = config.k
  parity_length : parity.length = config.m
  data_size : ∀ s ∈ data, s.length = size
  parity_size : ∀ s ∈ parity, s.length = size
  size_le : size ≤ i32Max

theorem getD_parity {i : Nat} (hdata : data.length = k) (hi : i < parity.length) :
    (data ++ parity).getD (k + i) [] = parity[i] := by
  rw [getD_append_right _ _ _ _ (hdata ▸ Nat.le_add_right ..), hdata,
    Nat.add_sub_cancel_left, getD_eq_getElem _ _ hi]

/-- A family is a codeword when each parity shard is what encoding gives. -/
theorem Shaped.encoded_iff (h : Shaped config data parity size) (backend : Backend) :
    Encoded config data parity size ↔ ∀ p ∈ parity.zipIdx,
      encodeRow backend size ((encodeMatrixRow config.k (config.k + p.2)).zip data) = p.1 := by
  have hrow : ∀ idx, IsCombination ((encodeMatrixRow config.k idx).zip data) size
      (encodeRow backend size ((encodeMatrixRow config.k idx).zip data)) := fun idx =>
    encodeRow_isCombination backend (forall_zip_length h.data_size)
  constructor
  · rintro hencoded ⟨shard, i⟩ hp
    obtain ⟨hi, rfl⟩ := List.getElem?_eq_some_iff.mp (List.mk_mem_zipIdx_iff_getElem?.mp hp)
    have hidx : config.k + i < config.totalShards :=
      Nat.add_lt_add_left (h.parity_length ▸ hi) config.k
    have hshard := hencoded.shard _ hidx
    rw [getD_parity h.data_length hi] at hshard
    exact (hrow _).unique hshard fun _ _ => rfl
  · intro hrows
    refine ⟨h.data_length, h.data_size, h.size_le, fun idx hidx => ?_⟩
    by_cases hlt : idx < config.k
    · rw [List.getD_append _ _ _ _ (h.data_length.symm ▸ hlt)]
      exact isCombination_data h.data_length hlt h.data_size
    · obtain ⟨i, rfl⟩ := Nat.exists_eq_add_of_le (Nat.not_lt.mp hlt)
      have hi : i < parity.length := h.parity_length ▸ Nat.lt_of_add_lt_add_left hidx
      have hshard : encodeRow backend size ((encodeMatrixRow config.k (config.k + i)).zip data) =
          parity[i] := hrows (parity[i], i)
        (List.mk_mem_zipIdx_iff_getElem?.mpr (List.getElem?_eq_getElem hi))
      rw [getD_parity h.data_length hi, ← hshard]
      exact hrow _

/-- Without parity, or without bytes, every family is a codeword. -/
theorem Shaped.encoded_of_trivial (h : Shaped config data parity size)
    (hnone : config.m = 0 ∨ size = 0) : Encoded config data parity size := by
  refine (h.encoded_iff .scalar).mpr fun p hp => ?_
  have hmem := fst_mem_of_mem_zipIdx hp
  rcases hnone with hm | hsize
  · rw [length_eq_zero_iff.mp (h.parity_length.trans hm)] at hmem
    exact absurd hmem not_mem_nil
  · have hlen := (encodeRow_isCombination .scalar (@forall_zip_length _ _
      (encodeMatrixRow config.k (config.k + p.2)) h.data_size)).length
    rw [hsize, length_eq_zero_iff] at hlen
    rw [hsize, hlen, length_eq_zero_iff.mp ((h.parity_size p.1 hmem).trans hsize)]

end Shaped

theorem shaped_of_encode (h : codec.encode backend data buffers = .ok parity) :
    Shaped codec.config data parity (data.headD []).length := by
  simp only [ErasureCodec.encode, bind_eq_ok, failIf_eq_ok, not_not, exists_const, ne_eq] at h
  obtain ⟨hk, hm, _, hsize, _, hdata, _, hparity, h⟩ := h
  have hdatasize := forall_size_of_tail hdata
  have hbuffers := forall_size_of_checks hparity
  simp only [checkShardSize, failIf_eq_ok, not_lt] at hsize
  split at h
  · cases h
    exact ⟨hk, hm, hdatasize, hbuffers, hsize⟩
  · cases h
    refine ⟨hk, by rw [length_map, length_zipIdx, hm], hdatasize, fun s hs => ?_, hsize⟩
    obtain ⟨p, hp, rfl⟩ := mem_map.mp hs
    rw [hbuffers p.1 (fst_mem_of_mem_zipIdx hp)]
    exact (encodeRow_isCombination backend (forall_zip_length hdatasize)).length

/-- **An accepted encoding leaves the combinations of the data shards in the parity buffers.** -/
theorem encode_spec (h : codec.encode backend data buffers = .ok parity) :
    Encoded codec.config data parity (data.headD []).length := by
  have hshaped := shaped_of_encode h
  simp only [ErasureCodec.encode, bind_eq_ok] at h
  obtain ⟨-, -, -, -, -, -, -, -, _, hparity, h⟩ := h
  split at h
  · next hnone => exact hshaped.encoded_of_trivial hnone
  · cases h
    refine (hshaped.encoded_iff backend).mpr fun ⟨shard, i⟩ hp => ?_
    rw [mk_mem_zipIdx_iff_getElem?, getElem?_map, Option.map_eq_some_iff] at hp
    obtain ⟨⟨buffer, j⟩, hbuffer, rfl⟩ := hp
    rw [getElem?_zipIdx, Option.map_eq_some_iff] at hbuffer
    obtain ⟨_, hmem, hpair⟩ := hbuffer
    cases hpair
    rw [forall_size_of_checks hparity _ (mem_of_getElem? hmem), zero_add]

/-! ### Reconstruction -/

/-- The bytes of the data shards at one position. -/
def dataAt (config : EcConfig) (data : List Shard) (i : Nat) : Fin config.k → Gf :=
  fun c => Gf.of ((data.getD c []).getD i 0)

/-- A row of the encoding matrix over the field. -/
def rowGf (k idx : Nat) : Fin k → Gf := fun c => Gf.of (genCauchy1Matrix k idx c)

theorem foldl_xor (l : List UInt8) (acc : UInt8) :
    Gf.of (l.foldl (· ^^^ ·) acc) = Gf.of acc + (l.map Gf.of).sum := by
  induction l generalizing acc with
  | nil => exact (add_zero _).symm
  | cons a l ih => rw [foldl_cons, ih, Gf.of_xor, map_cons, sum_cons, add_assoc]

/-- The recovery row is the row of the index times the inverse. -/
theorem recoveryRow_eq (inverse : Mat k) (idx : Nat) :
    ∃ f : Fin k → UInt8, recoveryRow inverse idx = List.ofFn f ∧
      (fun j => Gf.of (f j)) = rowGf k idx ᵥ* toGf inverse := by
  refine ⟨_, (List.ofFn_eq_map).symm, ?_⟩
  funext j
  have hfold := foldl_xor ((List.finRange k).map fun col : Fin k =>
    gfMul (genCauchy1Matrix k idx col) (inverse.entry col j)) 0
  rw [List.foldl_map, List.map_map, Gf.of_zero, zero_add, ← List.ofFn_eq_map,
    sum_ofFn] at hfold
  exact hfold

section Reconstruct

variable {config : EcConfig} {data parity : List Shard} {size : Nat}
  (h : Encoded config data parity size)

include h

theorem Encoded.shard_at {idx i : Nat} (hidx : idx < config.totalShards) (hi : i < size) :
    Gf.of (((data ++ parity).getD idx []).getD i 0) =
      rowGf config.k idx ⬝ᵥ dataAt config data i := by
  rw [(h.shard idx hidx).at_ i hi, encodeMatrixRow_eq, combinationAt_zip _ h.data_length]
  rfl

variable {present : List Nat} (hlen : config.k ≤ present.length)
  (hrange : ∀ i ∈ present, i < config.totalShards)

include hlen hrange

/-- The present shards are the data shards under the rows of the present indices. -/
theorem Encoded.present_at {i : Nat} (hi : i < size) (j : Fin config.k) :
    Gf.of (((((present.map fun idx => (data ++ parity).getD idx []).take config.k).getD j []).getD
      i 0)) = (toGf (subMatrix config.k (present.take config.k)) *ᵥ dataAt config data i) j := by
  have hj' : j.val < (present.take config.k).length := by
    rw [length_take]
    omega
  have hshard : ((present.map fun idx => (data ++ parity).getD idx []).take config.k).getD j [] =
      (data ++ parity).getD ((present.take config.k).getD j 0) [] := by
    rw [← map_take, getD_eq_getElem _ _ (by rwa [length_map]), getElem_map,
      getD_eq_getElem _ _ hj']
  have hmem : (present.take config.k).getD j 0 ∈ present := by
    rw [getD_eq_getElem _ _ hj']
    exact mem_of_mem_take (getElem_mem hj')
  rw [hshard, h.shard_at (hrange _ hmem) hi]
  simp only [mulVec, toGf, subMatrix, Mat.entry_ofFn]
  rfl

/-- **A recovery row sends the present shards to the missing one.** -/
theorem Encoded.recovered {inverse : Mat config.k} {idx : Nat} (hidx : idx < config.totalShards)
    (hinverse : toGf inverse * toGf (subMatrix config.k (present.take config.k)) = 1)
    (backend : Backend) :
    applyMatrixRow backend size ((recoveryRow inverse idx).zip
      ((present.map fun idx => (data ++ parity).getD idx []).take config.k)) =
      (data ++ parity).getD idx [] := by
  have hsizes : ∀ s ∈ (present.map fun idx => (data ++ parity).getD idx []).take config.k,
      s.length = size := by
    intro s hs
    obtain ⟨i, hi, rfl⟩ := mem_map.mp (mem_of_mem_take hs)
    exact (h.shard i (hrange i hi)).length
  have hcount : ((present.map fun idx => (data ++ parity).getD idx []).take config.k).length =
      config.k := by
    rw [length_take, length_map]
    omega
  obtain ⟨f, hrow, hf⟩ := recoveryRow_eq inverse idx
  refine (applyMatrixRow_isCombination backend (forall_zip_length hsizes)).unique
    (h.shard idx hidx) ?_
  intro i hi
  rw [← (h.shard idx hidx).at_ i hi, h.shard_at hidx hi, hrow, combinationAt_zip f hcount]
  calc ∑ c, Gf.of (f c) * Gf.of ((((present.map fun idx =>
        (data ++ parity).getD idx []).take config.k).getD c []).getD i 0)
    _ = (rowGf config.k idx ᵥ* toGf inverse) ⬝ᵥ
        (toGf (subMatrix config.k (present.take config.k)) *ᵥ dataAt config data i) := by
      rw [← hf]
      exact Finset.sum_congr rfl fun c _ => by rw [h.present_at hlen hrange hi c]
    _ = rowGf config.k idx ⬝ᵥ dataAt config data i := by
      rw [← dotProduct_mulVec, mulVec_mulVec, hinverse, one_mulVec]

/-- The inversion succeeds and every output is filled with its shard. -/
theorem Encoded.reconstructShards_eq (hsorted : present.Pairwise (· < ·)) {recover : List Nat}
    (hrecrange : ∀ i ∈ recover, i < config.totalShards) {outputs : List Shard}
    (hcount : outputs.length = recover.length) (hsizes : ∀ o ∈ outputs, o.length = size)
    (backend : Backend) :
    reconstructShards backend config.k present (present.map fun i => (data ++ parity).getD i [])
      recover outputs = .ok (recover.map fun i => (data ++ parity).getD i []) := by
  have htotal := config.bounds.2
  have hbytes : ∀ i ∈ present, i < 256 := by
    intro i hi
    have := hrange i hi
    rw [EcConfig.totalShards] at this
    omega
  obtain ⟨inverse, hinvert, hinverse⟩ :=
    invertMatrix_spec (subMatrix_injective (by omega) hlen hsorted hbytes)
  rw [reconstructShards, hinvert, okOr, ok_bind]
  refine congrArg Except.ok ?_
  have hrow : ∀ p ∈ recover.zip outputs, applyMatrixRow backend p.2.length
      ((recoveryRow inverse p.1).zip
        ((present.map fun i => (data ++ parity).getD i []).take config.k)) =
      (data ++ parity).getD p.1 [] := by
    intro p hp
    have hmem := of_mem_zip hp
    rw [hsizes p.2 hmem.2]
    exact h.recovered hlen hrange (hrecrange p.1 hmem.1) hinverse backend
  calc (recover.zip outputs).map _
    _ = (recover.zip outputs).map fun p => (data ++ parity).getD p.1 [] :=
      List.map_congr_left hrow
    _ = ((recover.zip outputs).map Prod.fst).map fun i => (data ++ parity).getD i [] := by
      rw [List.map_map]
      rfl
    _ = recover.map fun i => (data ++ parity).getD i [] := by
      rw [map_fst_zip hcount.ge]

end Reconstruct

/-- **Any `k` shards give back the others.**  For every configuration, whatever backends encode and
reconstruct: from the shards at any `k` or more increasing indices, every missing shard is rebuilt
exactly; the matrix is never singular, and the only error left is an index that is out of range. -/
theorem reconstruct_round_trip {config : EcConfig} {codec : ErasureCodec}
    (hcodec : ErasureCodec.new config = .ok codec) (encoder decoder : Backend)
    {data buffers parity : List Shard} (hencode : codec.encode encoder data buffers = .ok parity)
    {present : List Nat} (hlen : config.k ≤ present.length) (hsorted : present.Pairwise (· < ·))
    (hrange : ∀ i ∈ present, i < config.totalShards) {recover : List Nat} (hnodup : recover.Nodup)
    (hdisjoint : ∀ i ∈ recover, i ∉ present) {outputs : List Shard}
    (hcount : outputs.length = recover.length)
    (hsizes : ∀ o ∈ outputs, o.length = (data.headD []).length) :
    codec.reconstruct decoder present (present.map fun i => (data ++ parity).getD i []) recover
        outputs =
      match recover.find? (config.totalShards ≤ ·) with
      | some i => .error (.shardIndexOutOfRange i config.totalShards)
      | none => .ok (recover.map fun i => (data ++ parity).getD i []) := by
  simp only [ErasureCodec.new, bind_eq_ok, pure_eq_ok] at hcodec
  obtain ⟨_, -, rfl⟩ := hcodec
  have henc := encode_spec hencode
  obtain ⟨hkpos, htotal⟩ := config.bounds
  have hpresent : checkPresent config.totalShards none 0 present = .ok () :=
    checkPresent_eq_ok.mpr ⟨hrange, isChain_iff_pairwise.mpr hsorted⟩
  have hrecover := @checkRecover_eq config.totalShards present [] recover hnodup hdisjoint
    fun _ _ => not_mem_nil
  unfold ErasureCodec.reconstruct
  rw [failIf_of_not (by rw [length_map]; exact not_not.mpr rfl), ok_bind,
    failIf_of_not (not_not.mpr hcount.symm), ok_bind, failIf_of_not (not_lt.mpr hlen), ok_bind,
    hpresent, ok_bind, hrecover]
  cases hfind : recover.find? (config.totalShards ≤ ·) with
  | some i => rfl
  | none =>
    have hrecrange : ∀ i ∈ recover, i < config.totalShards := by
      intro i hi
      exact not_le.mp fun hle => find?_eq_none.mp hfind i hi (decide_eq_true hle)
    have hshards : ∀ s ∈ present.map fun i => (data ++ parity).getD i [],
        s.length = (data.headD []).length := by
      intro s hs
      obtain ⟨i, hi, rfl⟩ := mem_map.mp hs
      exact (henc.shard i (hrange i hi)).length
    -- the size is read off the first present shard
    have hhead : ((present.map fun i => (data ++ parity).getD i []).headD []).length =
        (data.headD []).length := by
      obtain ⟨first, rest, rfl⟩ := exists_cons_of_ne_nil
        (ne_nil_of_length_pos (lt_of_lt_of_le hkpos hlen))
      exact hshards _ mem_cons_self
    have hpresentsizes : checkSizes (data.headD []).length
        ((present.zip (present.map fun i => (data ++ parity).getD i [])).drop 1) = .ok () :=
      checkSizes_eq_ok.mpr fun p hp => hshards p.2 (of_mem_zip (mem_of_mem_drop hp)).2
    have houtputs : checkSizes (data.headD []).length (recover.zip outputs) = .ok () :=
      checkSizes_eq_ok.mpr fun p hp => hsizes p.2 (of_mem_zip hp).2
    dsimp only
    rw [ok_bind, hhead, checkShardSize, failIf_of_not (not_lt.mpr henc.size_le), ok_bind,
      hpresentsizes, ok_bind, houtputs, ok_bind]
    by_cases htrivial : recover = [] ∨ (data.headD []).length = 0
    · rw [if_pos htrivial]
      refine congrArg Except.ok (ext_getElem (by rw [hcount, length_map]) ?_)
      intro i hi hi'
      rw [length_map] at hi'
      rcases htrivial with rfl | hsize
      · exact absurd hi' (not_lt_zero i)
      · have hout := hsizes _ (getElem_mem hi)
        have hshard := (henc.shard recover[i] (hrecrange _ (getElem_mem hi'))).length
        rw [hsize, length_eq_zero_iff] at hout hshard
        rw [hout, getElem_map, hshard]
    · rw [if_neg htrivial]
      exact henc.reconstructShards_eq hlen hrange hsorted hrecrange hcount hsizes decoder

/-- Two data shards and one parity shard. -/
def sampleCodec : ErasureCodec := ⟨2, 1, rfl⟩

/-- The first data shard from the second and the parity shard. -/
theorem reconstruct_round_trip_first :
    sampleCodec.encode .scalar [[1, 2], [3, 4]] [[0, 0]] = .ok [[143, 246]] ∧
    sampleCodec.reconstruct .avx2X8664 [1, 2] [[3, 4], [143, 246]] [0] [[0, 0]] = .ok [[1, 2]] := by
  have hencode : sampleCodec.encode .scalar [[1, 2], [3, 4]] [[0, 0]] = .ok [[143, 246]] := by
    decide +kernel
  refine ⟨hencode, ?_⟩
  exact reconstruct_round_trip (rfl : ErasureCodec.new sampleCodec.config = .ok sampleCodec)
    .scalar .avx2X8664 hencode (by decide) (by decide) (by decide) (by decide) (by decide) rfl
    (by decide)

end Argmin.Ec
