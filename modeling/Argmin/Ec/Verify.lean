import Argmin.Ec.RoundTrip

/-!
# Verification finds every small corruption

A family of shards that passes `verify` is a codeword, and a codeword is determined by any `k` of
its shards.  So two different codewords differ in more than `m` shards, and a codeword with one to
`m` shards changed does not pass (`verify_detects_corruption`).
-/

namespace Argmin.Ec

open Fallible List

section Codewords

variable {config : EcConfig} {data data' parity parity' : List Shard} {size : Nat}

/-- **Two codewords that agree on `k` shards are equal**: each shard is rebuilt from the same
ones. -/
theorem Encoded.eq_of_agree (h : Encoded config data parity size)
    (h' : Encoded config data' parity' size) {present : List Nat}
    (hlen : config.k ≤ present.length) (hsorted : present.Pairwise (· < ·))
    (hrange : ∀ i ∈ present, i < config.totalShards)
    (hagree : ∀ i ∈ present, (data ++ parity).getD i [] = (data' ++ parity').getD i [])
    {idx : Nat} (hidx : idx < config.totalShards) :
    (data ++ parity).getD idx [] = (data' ++ parity').getD idx [] := by
  have htotal := config.bounds.2
  have hbytes : ∀ i ∈ present, i < 256 := by
    intro i hi
    have := hrange i hi
    rw [EcConfig.totalShards] at this
    omega
  obtain ⟨inverse, -, hinverse⟩ :=
    invertMatrix_spec (subMatrix_injective (by omega) hlen hsorted hbytes)
  rw [← h.recovered hlen hrange hidx hinverse .scalar,
    ← h'.recovered hlen hrange hidx hinverse .scalar, map_congr_left hagree]

/-- The shards that differ. -/
def corrupted (config : EcConfig) (shards shards' : List Shard) : List Nat :=
  (List.range config.totalShards).filter fun i => shards.getD i [] ≠ shards'.getD i []

/-- **Different codewords differ in more than `m` shards.** -/
theorem Encoded.corrupted_eq_nil (h : Encoded config data parity size)
    (h' : Encoded config data' parity' size)
    (hle : (corrupted config (data ++ parity) (data' ++ parity')).length ≤ config.m) :
    corrupted config (data ++ parity) (data' ++ parity') = [] := by
  have hlen : config.k ≤ ((range config.totalShards).filter fun i =>
      !decide ((data ++ parity).getD i [] ≠ (data' ++ parity').getD i [])).length := by
    have hsum := length_eq_length_filter_add (l := range config.totalShards)
      fun i => decide ((data ++ parity).getD i [] ≠ (data' ++ parity').getD i [])
    rw [length_range] at hsum
    have htotal : config.totalShards = config.k + config.m := rfl
    rw [corrupted] at hle
    omega
  rw [corrupted, filter_eq_nil_iff]
  intro idx hidx hdiffers
  refine of_decide_eq_true hdiffers (h.eq_of_agree h' hlen ?_ ?_ ?_ (mem_range.mp hidx))
  · exact pairwise_lt_range.filter _
  · exact fun i hi => mem_range.mp (mem_filter.mp hi).1
  · intro i hi
    simpa using (mem_filter.mp hi).2

end Codewords

section Verify

variable {backend : Backend} {data parity : List Shard} {scratch : Shard} {k size : Nat}

theorem verifyRows_eq_ok {row : Nat} :
    verifyRows backend k size data row parity = .ok ↔ ∀ p ∈ parity.zipIdx row,
      encodeRow backend size ((encodeMatrixRow k (k + p.2)).zip data) = p.1 := by
  induction parity generalizing row with
  | nil => simp [verifyRows]
  | cons first rest ih =>
    rw [verifyRows, zipIdx_cons, forall_mem_cons]
    split
    · next hne => exact ⟨nofun, fun h => absurd h.1 hne⟩
    · next heq => exact ih.trans ⟨fun h => ⟨not_not.mp heq, h⟩, fun h => h.2⟩

/-- **Verification accepts codewords and nothing else.** -/
theorem Shaped.verify_eq (codec : ErasureCodec) (backend : Backend)
    (h : Shaped codec.config data parity size)
    (hscratch : codec.config.m * size ≤ scratch.length) :
    ∃ result, codec.verify backend data parity scratch = .ok result ∧
      (result = .ok ↔ Encoded codec.config data parity size) := by
  obtain ⟨first, rest, rfl⟩ := exists_cons_of_ne_nil
    (ne_nil_of_length_pos (h.data_length ▸ codec.config.bounds.1))
  have hfirst : first.length = size := h.data_size first mem_cons_self
  have hsizes : ∀ {shards : List (Nat × Shard)}, (∀ p ∈ shards, p.2.length = size) →
      checkSizes size shards = .ok () := checkSizes_eq_ok.mpr
  have hdata : checkSizes size (((first :: rest).zipIdx.drop 1).map fun p => (p.2, p.1)) =
      .ok () := by
    refine hsizes fun p hp => ?_
    obtain ⟨q, hq, rfl⟩ := mem_map.mp hp
    exact h.data_size q.1 (fst_mem_of_mem_zipIdx (mem_of_mem_drop hq))
  have hparity : checkSizes size (parity.zipIdx.map fun p => (codec.config.k + p.2, p.1)) =
      .ok () := by
    refine hsizes fun p hp => ?_
    obtain ⟨q, hq, rfl⟩ := mem_map.mp hp
    exact h.parity_size q.1 (fst_mem_of_mem_zipIdx hq)
  have hrequired : ¬scratch.length < min (codec.config.m * size) (2 ^ 64 - 1) :=
    Nat.not_lt.mpr ((Nat.min_le_left ..).trans hscratch)
  unfold ErasureCodec.verify
  dsimp only
  rw [failIf_of_not (not_not.mpr h.data_length), ok_bind,
    failIf_of_not (not_not.mpr h.parity_length), ok_bind, headD_cons, hfirst, checkShardSize,
    failIf_of_not (Nat.not_lt.mpr h.size_le), ok_bind, hdata, ok_bind, hparity, ok_bind,
    failIf_of_not hrequired, ok_bind]
  split
  · next hnone => exact ⟨.ok, rfl, iff_of_true rfl (h.encoded_of_trivial hnone)⟩
  · exact ⟨_, rfl, verifyRows_eq_ok.trans (h.encoded_iff backend).symm⟩

theorem forall_length_of_map {shards shards' : List Shard}
    (h : shards'.map List.length = shards.map List.length) (hsize : ∀ s ∈ shards, s.length = size) :
    ∀ s ∈ shards', s.length = size := by
  intro s hs
  have hmem : s.length ∈ shards'.map length := mem_map_of_mem hs
  rw [h] at hmem
  obtain ⟨other, hother, heq⟩ := mem_map.mp hmem
  exact heq ▸ hsize other hother

/-- **Verification finds every corruption of up to `m` shards.**  Whatever backends encode and
verify, a codeword passes, and a family of the same shape that differs from it in one to `m` shards,
data or parity, is a mismatch. -/
theorem verify_detects_corruption {config : EcConfig} {codec : ErasureCodec}
    (hcodec : ErasureCodec.new config = .ok codec) (encoder verifier : Backend)
    {data buffers parity : List Shard} (hencode : codec.encode encoder data buffers = .ok parity)
    (scratch : Shard) (hscratch : config.m * (data.headD []).length ≤ scratch.length) :
    codec.verify verifier data parity scratch = .ok .ok ∧
      ∀ data' parity' : List Shard, data'.map List.length = data.map List.length →
        parity'.map List.length = parity.map List.length →
        1 ≤ (corrupted config (data ++ parity) (data' ++ parity')).length →
        (corrupted config (data ++ parity) (data' ++ parity')).length ≤ config.m →
        ∃ index, codec.verify verifier data' parity' scratch = .ok (.mismatch index) := by
  simp only [ErasureCodec.new, bind_eq_ok, pure_eq_ok] at hcodec
  obtain ⟨_, -, rfl⟩ := hcodec
  have hencoded := encode_spec hencode
  have hshaped := shaped_of_encode hencode
  refine ⟨?_, fun data' parity' hdata hparity hsome hfew => ?_⟩
  · obtain ⟨result, hresult, hok⟩ := hshaped.verify_eq _ verifier hscratch
    rw [hresult, hok.mpr hencoded]
  · have hshaped' : Shaped config data' parity' (data.headD []).length := by
      refine ⟨?_, ?_, forall_length_of_map hdata hshaped.data_size,
        forall_length_of_map hparity hshaped.parity_size, hshaped.size_le⟩
      · have hlen := congrArg length hdata
        rw [length_map, length_map] at hlen
        exact hlen.trans hshaped.data_length
      · have hlen := congrArg length hparity
        rw [length_map, length_map] at hlen
        exact hlen.trans hshaped.parity_length
    obtain ⟨result, hresult, hok⟩ := hshaped'.verify_eq ⟨config⟩ verifier hscratch
    cases result with
    | ok =>
      rw [hencoded.corrupted_eq_nil (hok.mp rfl) hfew] at hsome
      exact absurd hsome (Nat.not_succ_le_zero 0)
    | mismatch index => exact ⟨index, hresult⟩

/-- A changed byte of the first data shard. -/
theorem verify_detects_corruption_first :
    sampleCodec.verify .neonAarch64 [[1, 2], [3, 4]] [[143, 246]] [0, 0] = .ok .ok ∧
    ∃ index, sampleCodec.verify .neonAarch64 [[1, 5], [3, 4]] [[143, 246]] [0, 0] =
      .ok (.mismatch index) := by
  have hencode : sampleCodec.encode .scalar [[1, 2], [3, 4]] [[0, 0]] = .ok [[143, 246]] := by
    decide +kernel
  obtain ⟨hok, hfinds⟩ := verify_detects_corruption
    (rfl : ErasureCodec.new sampleCodec.config = .ok sampleCodec) .scalar .neonAarch64 hencode
    [0, 0] (by decide)
  exact ⟨hok, hfinds [[1, 5], [3, 4]] [[143, 246]] rfl rfl (by decide) (by decide)⟩

end Verify

end Argmin.Ec
