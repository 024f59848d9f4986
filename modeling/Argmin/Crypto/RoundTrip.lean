import Argmin.Crypto.Records

/-!
# Round trip of a sealed message

A message that was sealed is a complete message of its plaintext, provided that opening a record
inverts sealing it.  So every way of opening it returns the plaintext, and every nonempty range is
opened from the records that hold it.

* `sealed_carries` — the records of a sealed message open to the chunks of its plaintext;
* `sealed_round_trip` — all splits, all openers, all ranges.
-/

namespace Argmin.Crypto

open Fallible Blocks Cobblestone256MessageLayout List

section RoundTrip

variable {P : Primitives} {inputKey salt context plaintext ciphertext : Bytes}

/-- Opening inverts sealing. -/
def Primitives.Inverts (P : Primitives) : Prop :=
  ∀ key nonce plaintext record, P.sealInPlaceAppendTag key nonce [] plaintext = .ok record →
    P.openInPlace key nonce [] record = .ok plaintext

/-- The base nonce and the commitment have their lengths. -/
theorem deriveMessageKey_lengths {derived : DerivedMessageKey P}
    (h : deriveMessageKey inputKey salt context = .ok derived) :
    derived.baseNonce.length = aesGcmNonceLen ∧
      derived.commitment.length = cobblestoneCommitmentLen := by
  obtain ⟨material, hmaterial, h⟩ := bind_eq_ok.mp h
  obtain ⟨key, -, h⟩ := bind_eq_ok.mp h
  cases h
  have hlength : material.length = 76 := P.length_expand hmaterial
  constructor
  · show ((material.drop 32).take 12).length = 12
    rw [length_take, length_drop]
    omega
  · show (material.drop 44).length = 32
    rw [length_drop]
    omega

/-- The header that the sealer wrote verifies. -/
theorem fromHeader_of_derive {derived : DerivedMessageKey P}
    (hsalt : salt.length = cobblestoneSaltLen)
    (h : deriveMessageKey inputKey salt context = .ok derived) :
    Cobblestone256Opener.fromHeader inputKey context (salt ++ derived.commitment) =
      .ok ⟨derived.key, derived.baseNonce⟩ := by
  have hlength : (salt ++ derived.commitment).length = cobblestoneHeaderLen := by
    rw [length_append, hsalt, (deriveMessageKey_lengths h).2]
    rfl
  rw [Cobblestone256Opener.fromHeader, failIf_of_not (not_not_intro hlength), ok_bind]
  dsimp only
  rw [← hsalt, take_left, drop_left, h, ok_bind,
    failIf_of_not (not_not_intro rfl), ok_bind]
  rfl

/-- **The records of a sealed message open to the chunks of its plaintext.** -/
theorem sealed_carries (hP : P.Inverts) (hsalt : salt.length = cobblestoneSaltLen)
    (h : sealMessage (P := P) inputKey salt context plaintext = .ok ciphertext) :
    ∃ layout opener, fromPlaintextLen plaintext.length = .ok layout ∧
      fromCiphertextLen ciphertext.length = .ok layout ∧
      Cobblestone256Opener.fromHeader (P := P) inputKey context
        (ciphertext.take cobblestoneHeaderLen) = .ok opener ∧
      Carries opener layout ciphertext plaintext := by
  obtain ⟨layout, hlayout, h⟩ := bind_eq_ok.mp h
  obtain ⟨hcanonical, hlength⟩ := fromPlaintextLen_eq_ok.mp hlayout
  obtain ⟨derived, parts, hderived, hparts, rfl⟩ := sealPieces_eq_ok h
  rw [flatten_cons, flatten_nil, append_nil] at hparts
  have hheader := fromHeader_of_derive hsalt hderived
  have hheaderLen := length_of_fromHeader hheader
  have hsized := hparts.sized_snd hcanonical hlength
  have hciphertext : (salt ++ derived.commitment ++ (parts.map Prod.snd).flatten).length =
      layout.ciphertextLen := by
    rw [length_append, hheaderLen, hparts.length_flatten_snd hcanonical hlength]
  refine ⟨layout, ⟨derived.key, derived.baseNonce⟩, hlayout,
    fromCiphertextLen_eq_ok.mpr ⟨hcanonical, hciphertext.symm⟩, ?_, hciphertext, hlength.symm, ?_⟩
  · rw [← hheaderLen, take_left]
    exact hheader
  · intro i hi
    rw [← hparts.length_eq_chunkCount hcanonical hlength] at hi
    have hpart : parts[i]? = some parts[i] := getElem?_eq_getElem hi
    have hrecord : (parts.map Prod.snd)[i]? = some parts[i].2 := by
      rw [getElem?_map, hpart]
      rfl
    obtain ⟨nonce, hnonce, hseal⟩ := hparts.sealed i parts[i] hpart
    rw [hparts.length_eq_chunkCount hcanonical hlength] at hi
    rw [recordAt_append hheaderLen hsized hrecord, ← hparts.chunk_eq hpart]
    exact openChunk_of_open hcanonical hi (hsized i _ hrecord) hnonce (hP _ _ _ _ hseal)

/-- A run of whole records that holds a range holds the span that is selected for it. -/
theorem span_le_of_holds {layout : Cobblestone256MessageLayout} (hlayout : layout.Canonical)
    {range : Range} {selection : Cobblestone256SelectedRange}
    (hselection : layout.selectPlaintextRange range = .ok selection) {i j : Nat}
    {front back : Range} (hfront : layout.plaintextRangeForChunk i = .ok front)
    (hback : layout.plaintextRangeForChunk j = .ok back) (hstart : front.start ≤ range.start)
    (hstop : range.stop ≤ back.stop) :
    ∃ first last, layout.ciphertextRangeForChunk i = .ok first ∧
      layout.ciphertextRangeForChunk j = .ok last ∧
      first.start ≤ selection.ciphertextRange.start ∧
      selection.ciphertextRange.stop ≤ last.stop := by
  obtain ⟨hfirst, hlast⟩ := selected_minimal hlayout hselection hfront hback hstart hstop
  have hi := chunk_lt_of_range hfront
  have hj := chunk_lt_of_range hback
  refine ⟨_, _, hlayout.ciphertextRangeForChunk_eq hi, hlayout.ciphertextRangeForChunk_eq hj, ?_⟩
  obtain ⟨-, -, rfl⟩ := (selectPlaintextRange_eq_ok hlayout).mp hselection
  exact ⟨recordStart_le hfirst, recordEnd_le hlast hj⟩

/-- **Round trip.**  Salts are arrays of 24 bytes.  A plaintext within the limit of `2 ^ 38` chunks
is sealed; how it is split into updates makes no difference; the lengths give one layout from both
sides; every row of updates, single records and windows of whole records returns the plaintext, and
so do the one-shot openers; and each nonempty range is opened from a span of records that no shorter
run of whole records can replace. -/
theorem sealed_round_trip (hP : P.Inverts) (inputKey salt context plaintext : Bytes)
    (hsalt : salt.length = cobblestoneSaltLen) :
    (P.Total → plaintext.length < cobblestoneMaxChunks * cobblestoneChunkLen →
      ∃ ciphertext, sealMessage (P := P) inputKey salt context plaintext = .ok ciphertext) ∧
    (∀ pieces : List Bytes, pieces.flatten = plaintext →
      Cobblestone256Sealer.sealPieces (P := P) inputKey salt context pieces =
        sealMessage (P := P) inputKey salt context plaintext) ∧
    ∀ ciphertext, sealMessage (P := P) inputKey salt context plaintext = .ok ciphertext →
      ∃ layout opener, fromPlaintextLen plaintext.length = .ok layout ∧
        fromCiphertextLen ciphertext.length = .ok layout ∧
        layout.ciphertextLen = ciphertext.length ∧ layout.plaintextLen = plaintext.length ∧
        openMessage P inputKey context ciphertext = .ok plaintext ∧
        openOwned P inputKey context ciphertext = .ok plaintext ∧
        (∀ calls, Cobblestone256StreamOpener.bytesOf calls = ciphertext →
          Cobblestone256StreamOpener.AllFit layout [] calls →
            ∃ stream : Cobblestone256StreamOpener P,
              Cobblestone256StreamOpener.new inputKey context ciphertext.length = .ok stream ∧
              (stream.feeds [] calls).result = .ok () ∧
              (stream.feeds [] calls).output = plaintext ∧
              (stream.feeds [] calls).self.finish.result = .ok ()) ∧
        Cobblestone256Opener.fromHeader (P := P) inputKey context
          (ciphertext.take cobblestoneHeaderLen) = .ok opener ∧
        ∀ range : Range, range.start < range.stop → range.stop ≤ plaintext.length →
          ∃ selection, layout.selectPlaintextRange range = .ok selection ∧
            (∃ span bytes, slice ciphertext selection.ciphertextRange.start
                selection.ciphertextRange.stop = some span ∧
              slice plaintext range.start range.stop = some bytes ∧
              opener.openSelectedRange selection span = .ok bytes) ∧
            ∀ (i j : Nat) (front back : Range), layout.plaintextRangeForChunk i = .ok front →
              layout.plaintextRangeForChunk j = .ok back → front.start ≤ range.start →
              range.stop ≤ back.stop →
                ∃ first last, layout.ciphertextRangeForChunk i = .ok first ∧
                  layout.ciphertextRangeForChunk j = .ok last ∧
                  first.start ≤ selection.ciphertextRange.start ∧
                  selection.ciphertextRange.stop ≤ last.stop := by
  refine ⟨fun htotal hlt => ?_, fun pieces hpieces => ?_, fun ciphertext hsealed => ?_⟩
  · obtain ⟨layout, hlayout⟩ :=
      fromPlaintextLen_of_lt (Nat.div_lt_of_lt_mul (Nat.mul_comm .. ▸ hlt))
    exact sealMessage_ok htotal inputKey salt context plaintext hlayout
  · rw [← hpieces]
    exact sealPieces_eq_sealMessage inputKey salt context pieces
  · obtain ⟨layout, opener, hplaintext, hciphertext, hheader, hcarries⟩ :=
      sealed_carries hP hsalt hsealed
    obtain ⟨hlayout, hlength⟩ := fromCiphertextLen_eq_ok.mp hciphertext
    have hopened := hcarries.toOpened hlayout hheader
    refine ⟨layout, opener, hplaintext, hciphertext, hlength, hcarries.plaintext_length.symm,
      openMessage_eq_ok.mpr ⟨layout, hciphertext, hopened⟩,
      openOwned_eq_ok.mpr ⟨layout, hciphertext, hopened⟩,
      fun calls hbytes hfits =>
        Cobblestone256StreamOpener.feeds_of_opened hciphertext hopened hbytes hfits,
      hheader, fun range hnonempty hend => ?_⟩
    rw [hcarries.plaintext_length] at hend
    have hselection := (selectPlaintextRange_eq_ok hlayout).mpr ⟨hnonempty, hend, rfl⟩
    exact ⟨_, hselection, openSelectedRange_of_carries hlayout hcarries hselection,
      fun i j front back hfront hback hstart hstop =>
        span_le_of_holds hlayout hselection hfront hback hstart hstop⟩

/-- A provider without secrets: the tag is sixteen zeros and the derived material is zeros too. -/
def transparent : Primitives where
  Aes256GcmKey := Unit
  newKey _ := .ok ()
  sealInPlaceAppendTag _ _ _ plaintext := .ok (plaintext ++ List.replicate aesGcmTagLen 0)
  openInPlace _ _ _ record := .ok (record.take (record.length - aesGcmTagLen))
  expandSha512 length _ _ := .ok (List.replicate length 0)
  length_seal h := by
    cases h
    rw [List.length_append, List.length_replicate]
  length_open_le h := by
    cases h
    rw [List.length_take]
    exact Nat.min_le_right ..
  length_expand h := by
    cases h
    exact List.length_replicate

theorem transparent_inverts : transparent.Inverts := by
  intro key nonce plaintext record h
  cases h
  show Except.ok ((plaintext ++ replicate aesGcmTagLen 0).take _) = _
  rw [length_append, length_replicate, Nat.add_sub_cancel, take_left]

theorem transparent_total : transparent.Total :=
  ⟨fun _ _ _ => ⟨_, rfl⟩, fun _ _ => ⟨_, rfl⟩, fun _ _ _ => ⟨_, rfl⟩⟩

theorem sealed_round_trip_transparent :
    transparent.Inverts ∧ (List.replicate 24 (7 : UInt8)).length = cobblestoneSaltLen ∧
      ∃ ciphertext, sealMessage (P := transparent) [] (List.replicate 24 7) [] [1, 2, 3] =
          .ok ciphertext ∧
        Cobblestone256Sealer.sealPieces (P := transparent) [] (List.replicate 24 7) []
          [[1], [], [2, 3]] = .ok ciphertext ∧
        openOwned transparent [] [] ciphertext = .ok [1, 2, 3] := by
  obtain ⟨hseals, hsplits, hopens⟩ := sealed_round_trip transparent_inverts []
    (replicate 24 7) [] [1, 2, 3] rfl
  obtain ⟨ciphertext, hsealed⟩ := hseals transparent_total (by decide)
  obtain ⟨layout, opener, -, -, -, -, -, howned, -⟩ := hopens ciphertext hsealed
  refine ⟨transparent_inverts, rfl, ciphertext, hsealed, ?_, howned⟩
  rw [hsplits [[1], [], [2, 3]] rfl, hsealed]

end RoundTrip

end Argmin.Crypto
