import Argmin.Crypto.Cobblestone
import Argmin.Lib.Blocks

/-!
# Sealing

* `fromPlaintextLen_eq_ok`, `fromCiphertextLen_eq_ok` — both ways to compute the layout of a message
  give the one that its lengths determine (`Canonical`);
* `sealPieces_eq` — the message does not depend on how its plaintext is split into updates;
* `sealPieces_eq_ok` — a sealed message is its header and its sealed records.
-/

namespace Argmin.Crypto

open Fallible Blocks Cobblestone256Sealer List Cobblestone256MessageLayout Nat

/-! ### Geometry -/

theorem checkedMul_eq_some {a b c : Nat} :
    checkedMul a b = some c ↔ a * b = c ∧ a * b < 2 ^ 64 := by
  unfold checkedMul
  split <;> simp <;> omega

theorem checkedSub_eq_some {a b c : Nat} : checkedSub a b = some c ↔ a = b + c := by
  unfold checkedSub
  split <;> simp <;> omega

theorem checkedSub_of_le {a b : Nat} (h : b ≤ a) : checkedSub a b = some (a - b) := if_pos h

namespace Cobblestone256MessageLayout

/-- The lengths of a message with `fullChunks` full records and one shorter record. -/
structure Canonical (layout : Cobblestone256MessageLayout) : Prop where
  ciphertext : layout.ciphertextLen = cobblestoneHeaderLen +
    layout.fullChunks * cobblestoneFullEncryptedChunkLen + layout.terminalCiphertextLen
  plaintext : layout.plaintextLen + aesGcmTagLen =
    layout.fullChunks * cobblestoneChunkLen + layout.terminalCiphertextLen
  tag : aesGcmTagLen ≤ layout.terminalCiphertextLen
  short : layout.terminalCiphertextLen < cobblestoneFullEncryptedChunkLen
  count : layout.chunkCount ≤ cobblestoneMaxChunks

/-- The lengths as numbers. -/
theorem canonical_iff {layout : Cobblestone256MessageLayout} : layout.Canonical ↔
    layout.ciphertextLen = 56 + layout.fullChunks * 16400 + layout.terminalCiphertextLen ∧
      layout.plaintextLen + 16 = layout.fullChunks * 16384 + layout.terminalCiphertextLen ∧
      16 ≤ layout.terminalCiphertextLen ∧ layout.terminalCiphertextLen < 16400 ∧
      layout.fullChunks + 1 ≤ 2 ^ 38 :=
  ⟨fun h => ⟨h.ciphertext, h.plaintext, h.tag, h.short, h.count⟩,
    fun ⟨hciphertext, hplaintext, htag, hshort, hcount⟩ =>
      ⟨hciphertext, hplaintext, htag, hshort, hcount⟩⟩

theorem fromCiphertextLen_eq_ok {n : Nat} {layout : Cobblestone256MessageLayout} :
    fromCiphertextLen n = .ok layout ↔ layout.Canonical ∧ layout.ciphertextLen = n := by
  obtain ⟨ciphertextLen, plaintextLen, fullChunks, terminal⟩ := layout
  rw [canonical_iff]
  simp only [fromCiphertextLen, bind_eq_ok, okOr_eq_ok, failIf_eq_ok, pure_eq_ok, exists_const,
    Option.bind_eq_some_iff, checkedAdd_eq_some, checkedMul_eq_some, checkedSub_eq_some,
    mk.injEq, not_not]
  simp only [cobblestoneFullEncryptedChunkLen,
    cobblestoneChunkLen, cobblestoneMaxChunks, cobblestoneHeaderLen, cobblestoneSaltLen,
    cobblestoneCommitmentLen, aesGcmTagLen]
  constructor
  · omega
  · rintro ⟨⟨hciphertext, hplaintext, htag, hshort, hcount⟩, rfl⟩
    refine ⟨fullChunks * 16400 + terminal, by omega, by omega, fullChunks + 1, by omega, by omega,
      plaintextLen, ⟨fullChunks * 16384, ?_, ?_⟩, rfl, rfl, ?_, ?_⟩ <;> omega

theorem fromPlaintextLen_eq_ok {n : Nat} {layout : Cobblestone256MessageLayout} :
    fromPlaintextLen n = .ok layout ↔ layout.Canonical ∧ layout.plaintextLen = n := by
  obtain ⟨ciphertextLen, plaintextLen, fullChunks, terminal⟩ := layout
  rw [canonical_iff]
  simp only [fromPlaintextLen, bind_eq_ok, okOr_eq_ok, failIf_eq_ok, pure_eq_ok, exists_const,
    Option.bind_eq_some_iff, checkedAdd_eq_some, checkedMul_eq_some,
    mk.injEq]
  simp only [cobblestoneFullEncryptedChunkLen,
    cobblestoneChunkLen, cobblestoneMaxChunks, cobblestoneHeaderLen, cobblestoneSaltLen,
    cobblestoneCommitmentLen, aesGcmTagLen]
  constructor
  · omega
  · rintro ⟨⟨hciphertext, hplaintext, htag, hshort, hcount⟩, rfl⟩
    refine ⟨fullChunks + 1, by omega, by omega, fullChunks * 16400, by omega, ciphertextLen,
      ⟨56 + fullChunks * 16400, by omega, by omega⟩, rfl, rfl, ?_, ?_⟩ <;> omega

/-- The plaintexts that have a layout. -/
theorem fromPlaintextLen_of_lt {n : Nat} (h : n / cobblestoneChunkLen < 2 ^ 38) :
    ∃ layout, fromPlaintextLen n = .ok layout := by
  have hcount : n / 16384 < 2 ^ 38 := h
  refine ⟨⟨56 + n / 16384 * 16400 + (n % 16384 + 16), n, n / 16384, n % 16384 + 16⟩,
    fromPlaintextLen_eq_ok.mpr ⟨canonical_iff.mpr ⟨rfl, ?_, ?_, ?_, hcount⟩, rfl⟩⟩
  all_goals dsimp only; omega

/-- The length of record `i`. -/
def recordLen (self : Cobblestone256MessageLayout) (i : Nat) : Nat :=
  if i < self.fullChunks then cobblestoneFullEncryptedChunkLen else self.terminalCiphertextLen

/-- Where record `i` starts. -/
def recordStart (i : Nat) : Nat := cobblestoneHeaderLen + i * cobblestoneFullEncryptedChunkLen

variable {layout : Cobblestone256MessageLayout} {i : Nat}

theorem recordLen_eq : layout.recordLen i =
    if i < layout.fullChunks then 16400 else layout.terminalCiphertextLen := rfl

theorem recordStart_eq : recordStart i = 56 + i * 16400 := rfl

theorem Canonical.recordLen_pos (h : layout.Canonical) (i : Nat) : 0 < layout.recordLen i := by
  obtain ⟨-, -, htag, -, -⟩ := canonical_iff.mp h
  rw [recordLen_eq]
  split <;> omega

theorem Canonical.ciphertextRangeForChunk_eq (h : layout.Canonical) (hi : i < layout.chunkCount) :
    layout.ciphertextRangeForChunk i =
      .ok ⟨recordStart i, recordStart i + layout.recordLen i⟩ := by
  obtain ⟨-, -, -, hshort, hcount⟩ := canonical_iff.mp h
  have hfull : i ≤ layout.fullChunks := Nat.lt_succ_iff.mp hi
  have hlen : layout.recordLen i ≤ 16400 := by
    rw [recordLen_eq]
    split <;> omega
  simp only [ciphertextRangeForChunk, bind_eq_ok, failIf_eq_ok,
    okOr_eq_ok, checkedAdd_eq_some, checkedMul_eq_some, pure_eq_ok, exists_const, not_le]
  refine ⟨hi, i * 16400, ⟨rfl, by show i * 16400 < 2 ^ 64; omega⟩, recordStart i, ⟨rfl, ?_⟩,
    recordStart i + layout.recordLen i, ⟨rfl, ?_⟩, rfl⟩
  · show 56 + i * 16400 < 2 ^ 64
    omega
  · show recordStart i + layout.recordLen i < 2 ^ 64
    rw [recordStart_eq]
    omega

theorem ciphertextRangeForChunk_of_le (hi : layout.chunkCount ≤ i) :
    layout.ciphertextRangeForChunk i = .error .cryptoError := by
  simp only [ciphertextRangeForChunk, failIf, if_pos hi]
  rfl

theorem offset_recordLen {n : Nat} (h : n ≤ layout.fullChunks) :
    offset layout.recordLen n = n * 16400 := by
  induction n with
  | zero => rfl
  | succ n ih =>
    rw [offset, ih (le_of_succ_le h), recordLen_eq, if_pos (lt_of_succ_le h), succ_mul]

theorem recordStart_eq_offset (h : i < layout.chunkCount) :
    recordStart i = cobblestoneHeaderLen + offset layout.recordLen i := by
  rw [offset_recordLen (Nat.lt_succ_iff.mp h)]
  rfl

theorem offset_chunkCount (hlayout : layout.Canonical) :
    cobblestoneHeaderLen + offset layout.recordLen layout.chunkCount = layout.ciphertextLen := by
  obtain ⟨hciphertext, -, -, -, -⟩ := canonical_iff.mp hlayout
  rw [hciphertext, chunkCount, offset, offset_recordLen (le_refl _), recordLen_eq,
    if_neg (lt_irrefl _)]
  show 56 + _ = _
  omega

end Cobblestone256MessageLayout

/-! ### Sealing in pieces -/

section Calls

variable {σ : Type} {call : Call σ} {f : σ → Bytes → Call σ}

theorem Call.andThen_of_ok (h : call.result = .ok ()) :
    call.andThen f = f call.self call.output := by
  rw [Call.andThen, h]

theorem Call.andThen_of_error (h : call.result ≠ .ok ()) : call.andThen f = call := by
  obtain ⟨self, output, result⟩ := call
  cases result with
  | ok u => exact absurd rfl h
  | error e => rfl

theorem Call.andThen_assoc (f g : σ → Bytes → Call σ) :
    (call.andThen f).andThen g = call.andThen fun self output => (f self output).andThen g := by
  obtain ⟨self, output, result⟩ := call
  cases result with
  | ok u => rfl
  | error e => rfl

theorem Call.andThen_congr {g : σ → Bytes → Call σ}
    (h : call.result = .ok () → f call.self call.output = g call.self call.output) :
    call.andThen f = call.andThen g := by
  obtain ⟨self, output, result⟩ := call
  cases result with
  | ok u => exact h rfl
  | error e => rfl

/-- A chain of calls that succeeds succeeds in its first part. -/
theorem Call.andThen_eq_ok : (call.andThen f).result = .ok () ↔
      call.result = .ok () ∧ (f call.self call.output).result = .ok () := by
  obtain ⟨self, output, result⟩ := call
  cases result with
  | ok u => exact ⟨fun h => ⟨rfl, h⟩, fun h => h.2⟩
  | error e => exact ⟨fun h => (nomatch h), fun h => (nomatch h.1)⟩

end Calls

section Sealing

variable {P : Primitives}

theorem nonceForChunk_lt {baseNonce nonce : Bytes} {i : Nat}
    (h : nonceForChunk baseNonce i = .ok nonce) : i < 2 ^ 38 := by
  simp only [nonceForChunk, bind_eq_ok, failIf_eq_ok, exists_const, not_le] at h
  exact h.1

theorem nonceForChunk_of_lt (baseNonce : Bytes) {i : Nat} (h : i < 2 ^ 38) :
    ∃ nonce, nonceForChunk baseNonce i = .ok nonce := by
  simp only [nonceForChunk, bind_eq_ok, failIf_eq_ok, exists_const, not_le]
  exact ⟨_, h, rfl⟩

namespace Cobblestone256Sealer

variable {sealer : Cobblestone256Sealer P} {plaintext ciphertext : Bytes}

theorem length_drop_chunk (hle : cobblestoneChunkLen ≤ plaintext.length) :
    (plaintext.drop cobblestoneChunkLen).length < plaintext.length ∧
      plaintext.length / cobblestoneChunkLen =
        (plaintext.drop cobblestoneChunkLen).length / cobblestoneChunkLen + 1 := by
  have hpos : 0 < cobblestoneChunkLen := by decide
  rw [length_drop, div_eq_sub_div hpos hle]
  exact ⟨by omega, rfl⟩

/-- Induction over the full chunks at the front of a plaintext. -/
theorem chunkInduction {motive : Bytes → Prop}
    (short : ∀ plaintext, plaintext.length < cobblestoneChunkLen → motive plaintext)
    (chunk : ∀ plaintext, cobblestoneChunkLen ≤ plaintext.length →
      motive (plaintext.drop cobblestoneChunkLen) → motive plaintext) (plaintext : Bytes) :
    motive plaintext := by
  induction hlength : plaintext.length using Nat.strongRecOn generalizing plaintext with
  | ind length ih =>
    subst hlength
    rcases lt_or_ge plaintext.length cobblestoneChunkLen with hshort | hle
    · exact short plaintext hshort
    · exact chunk plaintext hle (ih _ (length_drop_chunk hle).1 _ rfl)

/-- A record that was sealed: the index goes up by one, and nothing else changes. -/
theorem sealChunk_eq_ok (h : (sealer.sealChunk plaintext ciphertext).result = .ok ()) :
    ∃ nonce record, nonceForChunk sealer.baseNonce sealer.nextChunk = .ok nonce ∧
      P.sealInPlaceAppendTag sealer.key nonce [] plaintext = .ok record ∧
      sealer.sealChunk plaintext ciphertext =
        ⟨{ sealer with nextChunk := sealer.nextChunk + 1 }, ciphertext ++ record, .ok ()⟩ := by
  unfold sealChunk at h ⊢
  split at h
  · cases h
  · next hfailed =>
    rw [if_neg hfailed]
    split at h
    · cases h
    · next record hrecord =>
      obtain ⟨nonce, hnonce, hseal⟩ := bind_eq_ok.mp hrecord
      split at h
      · cases h
      · next next hnext =>
        obtain ⟨rfl, -⟩ := checkedAdd_eq_some.mp hnext
        exact ⟨nonce, record, hnonce, hseal, rfl⟩

/-- The record is sealed when its index and its plaintext are accepted. -/
theorem sealChunk_of_ok (hfailed : sealer.failed = false) {nonce record : Bytes}
    (hnonce : nonceForChunk sealer.baseNonce sealer.nextChunk = .ok nonce)
    (hseal : P.sealInPlaceAppendTag sealer.key nonce [] plaintext = .ok record) :
    (sealer.sealChunk plaintext ciphertext).result = .ok () := by
  have hindex := nonceForChunk_lt hnonce
  have hnext : checkedAdd sealer.nextChunk 1 = some (sealer.nextChunk + 1) :=
    checkedAdd_eq_some.mpr ⟨rfl, by omega⟩
  have hrecord : (nonceForChunk sealer.baseNonce sealer.nextChunk >>=
      (P.sealInPlaceAppendTag sealer.key · [] plaintext)) = .ok record :=
    bind_eq_ok.mpr ⟨nonce, hnonce, hseal⟩
  unfold sealChunk
  rw [if_neg (by simp [hfailed]), hrecord]
  rw [hnext]

theorem updateLoop_of_lt (h : plaintext.length < cobblestoneChunkLen) (fuel : Nat) :
    sealer.updateLoop fuel plaintext ciphertext =
      ⟨{ sealer with pending := sealer.pending ++ plaintext }, ciphertext, .ok ()⟩ := by
  cases fuel with
  | zero => rfl
  | succ fuel => rw [updateLoop, if_neg (not_le.mpr h)]

/-- One iteration of the loop. -/
theorem updateLoop_of_le (h : cobblestoneChunkLen ≤ plaintext.length) :
    sealer.updateLoop (plaintext.length / cobblestoneChunkLen) plaintext ciphertext =
      (sealer.sealChunk (plaintext.take cobblestoneChunkLen) ciphertext).andThen
        fun sealer ciphertext => sealer.updateLoop
          ((plaintext.drop cobblestoneChunkLen).length / cobblestoneChunkLen)
          (plaintext.drop cobblestoneChunkLen) ciphertext := by
  rw [(length_drop_chunk h).2, updateLoop, if_pos h]

variable (hfailed : sealer.failed = false)
include hfailed

/-- A call goes on as if the bytes that were kept from the last call stood in front of its own. -/
theorem update_eq_updateLoop (hpending : sealer.pending.length < cobblestoneChunkLen) :
    sealer.update plaintext ciphertext = ({ sealer with pending := [] }).updateLoop
      ((sealer.pending ++ plaintext).length / cobblestoneChunkLen) (sealer.pending ++ plaintext)
      ciphertext := by
  unfold update
  rw [if_neg (by simp [hfailed])]
  split
  · next hnil =>
    obtain ⟨key, baseNonce, nextChunk, pending, failed⟩ := sealer
    obtain rfl : pending = [] := hnil
    rfl
  · dsimp only
    by_cases hshort : (sealer.pending ++ plaintext).length < cobblestoneChunkLen
    · -- the chunk is not filled
      rw [length_append] at hshort
      have hmin : min (cobblestoneChunkLen - sealer.pending.length) plaintext.length =
          plaintext.length := by omega
      rw [hmin, take_length, drop_length, if_neg (by rw [length_append]; omega),
        updateLoop_of_lt (by rw [length_append]; exact hshort)]
      simp [Call.andThen, updateLoop]
    · have hle : cobblestoneChunkLen ≤ (sealer.pending ++ plaintext).length := not_lt.mp hshort
      rw [updateLoop_of_le hle]
      rw [length_append] at hle
      have htake : (sealer.pending ++ plaintext).take cobblestoneChunkLen =
          sealer.pending ++ plaintext.take (cobblestoneChunkLen - sealer.pending.length) := by
        rw [take_append, take_of_length_le (by omega)]
      have hdrop : (sealer.pending ++ plaintext).drop cobblestoneChunkLen =
          plaintext.drop (cobblestoneChunkLen - sealer.pending.length) := by
        rw [drop_append, drop_of_length_le (by omega), nil_append]
      rw [htake, hdrop]
      generalize hneed : cobblestoneChunkLen - sealer.pending.length = need
      have hmin : min need plaintext.length = need := by omega
      have hfull : (sealer.pending ++ plaintext.take need).length = cobblestoneChunkLen := by
        rw [length_append, length_take]
        omega
      rw [hmin, if_pos hfull]

/-- **What is sealed does not depend on the split.**  Two calls in a row leave the same state and
output as one. -/
theorem updateLoop_andThen_update (hpending : sealer.pending = []) (first second : Bytes) :
    ((sealer.updateLoop (first.length / cobblestoneChunkLen) first ciphertext).andThen
        fun sealer ciphertext => sealer.update second ciphertext) =
      sealer.updateLoop ((first ++ second).length / cobblestoneChunkLen) (first ++ second)
        ciphertext := by
  induction first using chunkInduction generalizing sealer ciphertext with
  | short first hshort =>
    obtain ⟨key, baseNonce, nextChunk, pending, failed⟩ := sealer
    obtain rfl : pending = [] := hpending
    rw [updateLoop_of_lt hshort, Call.andThen_of_ok rfl]
    exact update_eq_updateLoop hfailed hshort
  | chunk first hle ih =>
    have hle' : cobblestoneChunkLen ≤ (first ++ second).length := by
      rw [length_append]
      omega
    rw [updateLoop_of_le hle, updateLoop_of_le hle', Call.andThen_assoc,
      take_append_of_le_length hle, drop_append_of_le_length hle]
    refine Call.andThen_congr fun hok => ?_
    obtain ⟨nonce, record, -, -, heq⟩ := sealChunk_eq_ok hok
    rw [heq]
    exact ih (by exact hfailed) (by exact hpending)

/-- A row of updates is one update with all of the plaintext. -/
theorem updates_eq_updateLoop (hpending : sealer.pending = [])
    (first : Bytes) (pieces : List Bytes) :
    ((sealer.updateLoop (first.length / cobblestoneChunkLen) first ciphertext).andThen
        fun sealer ciphertext => sealer.updates ciphertext pieces) =
      sealer.updateLoop ((first ++ pieces.flatten).length / cobblestoneChunkLen)
        (first ++ pieces.flatten) ciphertext := by
  induction pieces generalizing first with
  | nil =>
    rw [flatten_nil, append_nil]
    obtain ⟨self, output, result⟩ :=
      sealer.updateLoop (first.length / cobblestoneChunkLen) first ciphertext
    cases result with
    | ok u => rfl
    | error e => rfl
  | cons piece pieces ih =>
    rw [flatten_cons, ← append_assoc, ← ih (first ++ piece),
      ← updateLoop_andThen_update hfailed hpending, Call.andThen_assoc]
    rfl

theorem updates_eq (hpending : sealer.pending = [])
    (pieces : List Bytes) :
    sealer.updates ciphertext pieces =
      sealer.updateLoop (pieces.flatten.length / cobblestoneChunkLen) pieces.flatten
        ciphertext := by
  have hall := @updates_eq_updateLoop P sealer ciphertext hfailed hpending [] pieces
  obtain ⟨key, baseNonce, nextChunk, pending, failed⟩ := sealer
  obtain rfl : pending = [] := hpending
  exact hall

end Cobblestone256Sealer

/-- **Every split of a plaintext is sealed alike.** -/
theorem sealPieces_eq (inputKey salt context : Bytes) (pieces : List Bytes) :
    sealPieces (P := P) inputKey salt context pieces =
      sealPieces (P := P) inputKey salt context [pieces.flatten] := by
  unfold sealPieces
  cases hstart : start (P := P) inputKey salt context with
  | error e => rfl
  | ok started =>
    obtain ⟨derived, -, hstarted⟩ := bind_eq_ok.mp hstart
    obtain rfl := pure_eq_ok.mp hstarted
    have hupdates := fun pieces =>
      @updates_eq P ⟨derived.key, derived.baseNonce, 0, [], false⟩
        (salt ++ derived.commitment) rfl rfl pieces
    simp only [ok_bind, hupdates, flatten_cons, flatten_nil, append_nil]

/-! ### What is sealed -/

/-- The plaintexts of the records: full chunks, and a last one that is shorter. -/
def chunksOf (plaintext : Bytes) : List Bytes :=
  blocks cobblestoneChunkLen (plaintext.length / cobblestoneChunkLen + 1) plaintext

theorem length_chunksOf (plaintext : Bytes) :
    (chunksOf plaintext).length = plaintext.length / cobblestoneChunkLen + 1 :=
  length_blocks ..

/-- `record` is what the sealer of a message makes of chunk `i`. -/
def DerivedMessageKey.SealsTo (derived : DerivedMessageKey P) (i : Nat) (chunk record : Bytes) :
    Prop :=
  ∃ nonce, nonceForChunk derived.baseNonce i = .ok nonce ∧
    P.sealInPlaceAppendTag derived.key nonce [] chunk = .ok record

/-- The chunks of a plaintext with the records they are sealed to. -/
structure DerivedMessageKey.Parts (derived : DerivedMessageKey P) (plaintext : Bytes)
    (parts : List (Bytes × Bytes)) : Prop where
  chunks : parts.map Prod.fst = chunksOf plaintext
  sealed : ∀ (i : Nat) (part : Bytes × Bytes), parts[i]? = some part →
    derived.SealsTo i part.1 part.2

namespace Cobblestone256Sealer

variable {sealer : Cobblestone256Sealer P} {plaintext ciphertext : Bytes}

/-- What the loop has done when it succeeds. -/
theorem updateLoop_eq_ok (hpending : sealer.pending = [])
    (h : (sealer.updateLoop (plaintext.length / cobblestoneChunkLen) plaintext
      ciphertext).result = .ok ()) :
    ∃ parts : List (Bytes × Bytes),
      parts.map Prod.fst =
        blocks cobblestoneChunkLen (plaintext.length / cobblestoneChunkLen) plaintext ∧
      (∀ (i : Nat) (part : Bytes × Bytes), parts[i]? = some part →
        ∃ nonce, nonceForChunk sealer.baseNonce (sealer.nextChunk + i) = .ok nonce ∧
          P.sealInPlaceAppendTag sealer.key nonce [] part.1 = .ok part.2) ∧
      sealer.updateLoop (plaintext.length / cobblestoneChunkLen) plaintext ciphertext =
        ⟨{ sealer with
            nextChunk := sealer.nextChunk + plaintext.length / cobblestoneChunkLen
            pending := plaintext.drop
              (plaintext.length / cobblestoneChunkLen * cobblestoneChunkLen) },
          ciphertext ++ (parts.map Prod.snd).flatten, .ok ()⟩ := by
  induction plaintext using chunkInduction generalizing sealer ciphertext with
  | short plaintext hshort =>
    refine ⟨[], ?_, fun i part hpart => absurd hpart (by simp), ?_⟩
    · rw [div_eq_of_lt hshort]
      rfl
    · rw [updateLoop_of_lt hshort, div_eq_of_lt hshort, hpending]
      simp
  | chunk plaintext hle ih =>
    have hdiv := (length_drop_chunk hle).2
    rw [updateLoop_of_le hle] at h ⊢
    obtain ⟨hfirst, hrest⟩ := Call.andThen_eq_ok.mp h
    obtain ⟨nonce, record, hnonce, hseal, heq⟩ := sealChunk_eq_ok hfirst
    rw [heq] at hrest ⊢
    obtain ⟨parts, hchunks, hsealed, hcall⟩ := ih (by exact hpending) hrest
    refine ⟨(plaintext.take cobblestoneChunkLen, record) :: parts, ?_, ?_, ?_⟩
    · rw [map_cons, hchunks, hdiv]
      rfl
    · intro i part hpart
      cases i with
      | zero =>
        cases hpart
        exact ⟨nonce, hnonce, hseal⟩
      | succ i =>
        obtain ⟨nonce, hnonce, hseal⟩ := hsealed i part hpart
        have hindex : sealer.nextChunk + (i + 1) = sealer.nextChunk + 1 + i := by omega
        exact ⟨nonce, by rw [hindex]; exact hnonce, hseal⟩
    · rw [Call.andThen_of_ok rfl, hcall, hdiv, drop_drop, map_cons, flatten_cons,
        ← append_assoc, Nat.succ_mul, Nat.add_comm cobblestoneChunkLen,
        Nat.add_assoc sealer.nextChunk, Nat.add_comm 1]

/-- A loop fails only because an index is too large or because sealing fails. -/
theorem updateLoop_ok (hfailed : sealer.failed = false)
    (hindex : sealer.nextChunk + plaintext.length / cobblestoneChunkLen ≤ 2 ^ 38)
    (hseal : ∀ nonce chunk,
      ∃ record, P.sealInPlaceAppendTag sealer.key nonce [] chunk = .ok record) :
    (sealer.updateLoop (plaintext.length / cobblestoneChunkLen) plaintext ciphertext).result =
      .ok () := by
  induction plaintext using chunkInduction generalizing sealer ciphertext with
  | short plaintext hshort => rw [updateLoop_of_lt hshort]
  | chunk plaintext hle ih =>
    have hdiv := (length_drop_chunk hle).2
    have hmore : 0 < plaintext.length / cobblestoneChunkLen := hdiv ▸ succ_pos _
    obtain ⟨nonce, hnonce⟩ := nonceForChunk_of_lt sealer.baseNonce (i := sealer.nextChunk)
      (by omega)
    obtain ⟨record, hrecord⟩ := hseal nonce (plaintext.take cobblestoneChunkLen)
    have hfirst := @sealChunk_of_ok P sealer _ ciphertext hfailed nonce record hnonce hrecord
    obtain ⟨_, _, -, -, heq⟩ := sealChunk_eq_ok hfirst
    rw [updateLoop_of_le hle, Call.andThen_of_ok hfirst, heq]
    exact ih (by exact hfailed) (by show sealer.nextChunk + 1 + _ ≤ _; omega) (by exact hseal)

end Cobblestone256Sealer

/-- **A sealed message** is its header and the records of its chunks. -/
theorem sealPieces_eq_ok {inputKey salt context ciphertext : Bytes} {pieces : List Bytes}
    (h : sealPieces (P := P) inputKey salt context pieces = .ok ciphertext) :
    ∃ derived parts, deriveMessageKey (P := P) inputKey salt context = .ok derived ∧
      derived.Parts pieces.flatten parts ∧
      ciphertext = salt ++ derived.commitment ++ (parts.map Prod.snd).flatten := by
  simp only [sealPieces, start, bind_eq_ok, pure_eq_ok] at h
  obtain ⟨-, ⟨derived, hderived, rfl⟩, _, hresult, rfl⟩ := h
  have hupdates := @updates_eq P ⟨derived.key, derived.baseNonce, 0, [], false⟩
    (salt ++ derived.commitment) rfl rfl pieces
  rw [hupdates] at hresult ⊢
  obtain ⟨hloop, hfinish⟩ := Call.andThen_eq_ok.mp hresult
  obtain ⟨parts, hchunks, hsealed, hcall⟩ := updateLoop_eq_ok rfl hloop
  rw [Call.andThen_of_ok hloop]
  rw [hcall] at hfinish ⊢
  obtain ⟨nonce, record, hnonce, hseal, heq⟩ := sealChunk_eq_ok hfinish
  have hlast := congrArg length hchunks
  rw [length_map, length_blocks] at hlast
  refine ⟨derived, parts ++ [(pieces.flatten.drop
    (pieces.flatten.length / cobblestoneChunkLen * cobblestoneChunkLen), record)], hderived,
    ⟨?_, ?_⟩, ?_⟩
  · have hrest : (pieces.flatten.drop (pieces.flatten.length / cobblestoneChunkLen *
        cobblestoneChunkLen)).length ≤ cobblestoneChunkLen := by
      have hlt := lt_div_mul_add (a := pieces.flatten.length) (b := cobblestoneChunkLen)
        (by decide)
      rw [length_drop]
      omega
    rw [map_append, hchunks, chunksOf, blocks_concat, take_of_length_le hrest]
    rfl
  · intro i part hpart
    rcases getElem?_concat_cases hpart with hpart | ⟨rfl, rfl⟩
    · simpa [DerivedMessageKey.SealsTo] using hsealed i part hpart
    · refine ⟨nonce, ?_, hseal⟩
      rw [hlast]
      simpa using hnonce
  · simp only [finish] at heq ⊢
    rw [heq]
    simp

namespace DerivedMessageKey.Parts

variable {derived : DerivedMessageKey P} {plaintext : Bytes} {parts : List (Bytes × Bytes)}

variable (h : derived.Parts plaintext parts)
include h

theorem length_eq : parts.length = plaintext.length / cobblestoneChunkLen + 1 := by
  have hlength := congrArg length h.chunks
  rwa [length_map, length_chunksOf] at hlength

theorem chunk_eq {i : Nat} {part : Bytes × Bytes} (hpart : parts[i]? = some part) :
    part.1 = (plaintext.drop (i * cobblestoneChunkLen)).take cobblestoneChunkLen := by
  have hlt : i < plaintext.length / cobblestoneChunkLen + 1 := by
    rw [← h.length_eq]
    exact (List.getElem?_eq_some_iff.mp hpart).1
  have hchunk : (chunksOf plaintext)[i]? = some part.1 := by
    rw [← h.chunks, getElem?_map, hpart]
    rfl
  rw [chunksOf, getElem?_blocks hlt] at hchunk
  exact (Option.some.inj hchunk).symm

/-- The last record of a message has an index, so the message has a layout. -/
theorem exists_layout :
    ∃ layout, Cobblestone256MessageLayout.fromPlaintextLen plaintext.length = .ok layout := by
  have hlast : plaintext.length / cobblestoneChunkLen < parts.length := by
    rw [h.length_eq]
    exact lt_succ_self _
  obtain ⟨nonce, hnonce, -⟩ := h.sealed _ _ (getElem?_eq_getElem hlast)
  exact fromPlaintextLen_of_lt (nonceForChunk_lt hnonce)

variable {layout : Cobblestone256MessageLayout}

theorem length_eq_chunkCount (hlayout : layout.Canonical)
    (hlength : layout.plaintextLen = plaintext.length) : parts.length = layout.chunkCount := by
  obtain ⟨-, hplaintext, htag, hshort, -⟩ := canonical_iff.mp hlayout
  rw [h.length_eq, ← hlength]
  show layout.plaintextLen / 16384 + 1 = layout.fullChunks + 1
  omega

/-- The records have the lengths of the layout. -/
theorem sized_snd (hlayout : layout.Canonical) (hlength : layout.plaintextLen = plaintext.length) :
    Sized layout.recordLen (parts.map Prod.snd) := by
  obtain ⟨-, hplaintext, htag, hshort, -⟩ := canonical_iff.mp hlayout
  intro i record hrecord
  rw [getElem?_map] at hrecord
  obtain ⟨part, hpart, rfl⟩ := Option.map_eq_some_iff.mp hrecord
  obtain ⟨nonce, -, hseal⟩ := h.sealed i part hpart
  have hi : i < layout.fullChunks + 1 := by
    rw [← chunkCount, ← h.length_eq_chunkCount hlayout hlength]
    exact (List.getElem?_eq_some_iff.mp hpart).1
  rw [P.length_seal hseal, h.chunk_eq hpart, length_take, length_drop, ← hlength,
    recordLen_eq]
  show min 16384 (layout.plaintextLen - i * 16384) + 16 = _
  split <;> omega

/-- The length of a message is that of its layout. -/
theorem length_flatten_snd (hlayout : layout.Canonical)
    (hlength : layout.plaintextLen = plaintext.length) :
    cobblestoneHeaderLen + (parts.map Prod.snd).flatten.length = layout.ciphertextLen := by
  rw [(h.sized_snd hlayout hlength).length_flatten, length_map,
    h.length_eq_chunkCount hlayout hlength, offset_chunkCount hlayout]

end DerivedMessageKey.Parts

/-- Sealing in pieces and sealing at once agree, also on what they refuse. -/
theorem sealPieces_eq_sealMessage (inputKey salt context : Bytes) (pieces : List Bytes) :
    sealPieces (P := P) inputKey salt context pieces =
      sealMessage (P := P) inputKey salt context pieces.flatten := by
  rw [sealPieces_eq, sealMessage]
  cases hlayout : fromPlaintextLen pieces.flatten.length with
  | ok layout => rfl
  | error e =>
    cases hsealed : sealPieces (P := P) inputKey salt context
        [pieces.flatten] with
    | error e' =>
      cases e
      cases e'
      rfl
    | ok ciphertext =>
      obtain ⟨derived, parts, -, hparts, -⟩ := sealPieces_eq_ok hsealed
      obtain ⟨layout, hok⟩ := hparts.exists_layout
      rw [flatten_cons, flatten_nil, append_nil, hlayout] at hok
      cases hok

/-- The provider fails on no input of the right size. -/
structure Primitives.Total (P : Primitives) : Prop where
  expand : ∀ length inputKey info, ∃ material, P.expandSha512 length inputKey info = .ok material
  newKey : ∀ material : Bytes, material.length = aes256GcmKeyLen →
    ∃ key, P.newKey material = .ok key
  sealRecord : ∀ key nonce chunk, ∃ record, P.sealInPlaceAppendTag key nonce [] chunk = .ok record

theorem deriveMessageKey_ok (hP : P.Total) (inputKey salt context : Bytes) :
    ∃ derived, deriveMessageKey (P := P) inputKey salt context = .ok derived := by
  obtain ⟨material, hmaterial⟩ := hP.expand derivedMaterialLen inputKey
    (hkdfInfoPrefix ++ salt ++ context)
  have hlength := P.length_expand hmaterial
  obtain ⟨key, hkey⟩ := hP.newKey (material.take aes256GcmKeyLen) (by
    rw [length_take, hlength]
    decide)
  exact ⟨_, bind_eq_ok.mpr ⟨material, hmaterial, bind_eq_ok.mpr ⟨key, hkey, rfl⟩⟩⟩

/-- **A plaintext that has a layout is sealed.** -/
theorem sealMessage_ok (hP : P.Total) (inputKey salt context plaintext : Bytes)
    {layout : Cobblestone256MessageLayout}
    (hlayout : Cobblestone256MessageLayout.fromPlaintextLen plaintext.length = .ok layout) :
    ∃ ciphertext, sealMessage (P := P) inputKey salt context plaintext = .ok ciphertext := by
  obtain ⟨hcanonical, hlength⟩ := fromPlaintextLen_eq_ok.mp hlayout
  obtain ⟨-, hplaintext, htag, hshort, hcount⟩ :=
    canonical_iff.mp hcanonical
  obtain ⟨derived, hderived⟩ := deriveMessageKey_ok hP inputKey salt context
  have hchunks : plaintext.length / cobblestoneChunkLen + 1 ≤ 2 ^ 38 := by
    rw [← hlength]
    show layout.plaintextLen / 16384 + 1 ≤ 2 ^ 38
    omega
  let sealer : Cobblestone256Sealer P := ⟨derived.key, derived.baseNonce, 0, [], false⟩
  have hupdates := @updates_eq P sealer (salt ++ derived.commitment) rfl rfl
    [plaintext]
  rw [flatten_cons, flatten_nil, append_nil] at hupdates
  have hloop := @updateLoop_ok P sealer plaintext (salt ++ derived.commitment)
    rfl (by show 0 + _ ≤ _; omega) (hP.sealRecord _)
  obtain ⟨parts, -, -, hcall⟩ := updateLoop_eq_ok rfl hloop
  obtain ⟨nonce, hnonce⟩ := nonceForChunk_of_lt derived.baseNonce
    (i := plaintext.length / cobblestoneChunkLen) (by omega)
  obtain ⟨record, hrecord⟩ := hP.sealRecord derived.key nonce
    (plaintext.drop (plaintext.length / cobblestoneChunkLen * cobblestoneChunkLen))
  simp only [sealMessage, hlayout, ok_bind, sealPieces,
    start, hderived, pure_bind]
  refine ⟨_, bind_eq_ok.mpr ⟨(), Call.andThen_eq_ok.mpr ⟨?_, ?_⟩, rfl⟩⟩
  · rw [hupdates]
    exact hloop
  · rw [hupdates, hcall]
    refine sealChunk_of_ok rfl ?_ hrecord
    rw [Nat.zero_add]
    exact hnonce

end Sealing

end Argmin.Crypto
