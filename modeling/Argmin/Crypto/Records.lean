import Argmin.Crypto.Windows

/-!
# Records of a message

The record of a chunk stands at a place that its index determines.  The one-shot openers and the
range opener read records by their place:

* `opened_iff` — a complete message, read record by record;
* `openMessage_eq_ok`, `openOwned_eq_ok` — the one-shot openers accept exactly the complete
  messages;
* `openSelectedRange_of_carries` — a range is opened from the records that hold it;
* `selected_minimal` — no shorter run of whole records holds the range.
-/

namespace Argmin.Crypto

open Fallible Blocks Cobblestone256MessageLayout Cobblestone256Opener List Nat

variable {selection : Cobblestone256SelectedRange} {first i last n : Nat} {range : Range}

section Records

variable {P : Primitives} {inputKey context : Bytes} {layout : Cobblestone256MessageLayout}
  {opener : Cobblestone256Opener P} {ciphertext plaintext : Bytes}

/-! ### Records by their place -/

/-- The record of chunk `i`. -/
def Cobblestone256MessageLayout.recordAt (layout : Cobblestone256MessageLayout)
    (ciphertext : Bytes) (i : Nat) : Bytes :=
  (ciphertext.drop (cobblestoneHeaderLen + offset layout.recordLen i)).take (layout.recordLen i)

theorem recordAt_eq_cut (h : i < n) :
    (cut layout.recordLen (ciphertext.drop cobblestoneHeaderLen) n)[i]? =
      some (layout.recordAt ciphertext i) := by
  rw [cut, getElem?_map, getElem?_range h, Option.map_some, drop_drop, recordAt]

theorem recordAt_append {header record : Bytes} {records : List Bytes}
    (hheader : header.length = cobblestoneHeaderLen) (hsized : Sized layout.recordLen records)
    (hrecord : records[i]? = some record) :
    layout.recordAt (header ++ records.flatten) i = record := by
  rw [recordAt, ← drop_drop, ← hheader, drop_left, hsized.take_drop_flatten hrecord]

/-- Open the records of some chunks. -/
def Cobblestone256Opener.openRecords (opener : Cobblestone256Opener P)
    (layout : Cobblestone256MessageLayout) (ciphertext : Bytes) (chunks : List Nat) :
    Except CryptoError (List Bytes) :=
  chunks.mapM fun i => opener.openChunk layout i (layout.recordAt ciphertext i)

/-- A complete message, read record by record. -/
theorem opened_iff (hlayout : layout.Canonical) :
    Opened P inputKey context layout ciphertext plaintext ↔
      ciphertext.length = layout.ciphertextLen ∧
        ∃ opener plaintexts,
          fromHeader (P := P) inputKey context
            (ciphertext.take cobblestoneHeaderLen) = .ok opener ∧
          opener.openRecords layout ciphertext (List.range' 0 layout.chunkCount) = .ok plaintexts ∧
          plaintext = plaintexts.flatten := by
  constructor
  · intro h
    refine ⟨h.length_eq hlayout, ?_⟩
    obtain ⟨opener, opened, hsplits, hcount, rfl⟩ := h
    obtain ⟨header, hheader, rfl⟩ := hsplits.header
    have hlength := length_of_fromHeader hheader
    have hsized := hsplits.opens.sized hlayout
    rw [append_nil]
    refine ⟨opener, opened.map Prod.snd, ?_, ?_, rfl⟩
    · rw [← hlength, take_left]
      exact hheader
    · refine mapM_range'_eq_ok.mpr ⟨by rw [length_map, hcount], fun i opening hopening => ?_⟩
      rw [getElem?_map] at hopening
      obtain ⟨pair, hpair, rfl⟩ := Option.map_eq_some_iff.mp hopening
      have hrecord : (opened.map Prod.fst)[i]? = some pair.1 := by
        rw [getElem?_map, hpair]
        rfl
      rw [Nat.zero_add, recordAt_append hlength hsized hrecord]
      exact hsplits.opens i pair hpair
  · rintro ⟨hlength, opener, plaintexts, hheader, hopen, rfl⟩
    obtain ⟨hcount, hopens⟩ := mapM_range'_eq_ok.mp hopen
    have hend := offset_chunkCount hlayout
    have hcut : (cut layout.recordLen (ciphertext.drop cobblestoneHeaderLen)
        layout.chunkCount).length = plaintexts.length := by
      rw [cut, length_map, length_range, hcount]
    refine ⟨opener, _, ⟨⟨_, hheader, ?_⟩, ?_⟩, ?_,
      by rw [map_snd_zip (le_of_eq hcut.symm)]⟩
    · have hbody : (ciphertext.drop cobblestoneHeaderLen).take
          (offset layout.recordLen layout.chunkCount) = ciphertext.drop cobblestoneHeaderLen := by
        refine take_of_length_le ?_
        rw [length_drop]
        omega
      rw [map_fst_zip (le_of_eq hcut), flatten_cut, hbody, append_nil, take_append_drop]
    · intro i pair hpair
      rw [getElem?_zip_eq_some] at hpair
      obtain ⟨hrecord, hopening⟩ := hpair
      have hi : i < layout.chunkCount := hcount ▸ (List.getElem?_eq_some_iff.mp hopening).1
      rw [recordAt_eq_cut hi] at hrecord
      have := hopens i pair.2 hopening
      rw [Nat.zero_add, Option.some.inj hrecord] at this
      exact this
    · rw [length_zip, hcut, hcount, min_self]

/-! ### The one-shot openers -/

/-- **Opening at once** accepts exactly the complete messages. -/
theorem openMessage_eq_ok : openMessage P inputKey context ciphertext = .ok plaintext ↔
    ∃ layout, fromCiphertextLen ciphertext.length = .ok layout ∧
      Opened P inputKey context layout ciphertext plaintext := by
  have hbytes : Cobblestone256StreamOpener.bytesOf [.update ciphertext] = ciphertext := by
    show [ciphertext].flatten = ciphertext
    rw [flatten_cons, flatten_nil, append_nil]
  simp only [openMessage, bind_eq_ok, pure_eq_ok]
  constructor
  · rintro ⟨layout, hlen, stream, hnew, _, hresult, _, hfinish, rfl⟩
    have hrow : (stream.feeds [] [.update ciphertext]).self.finish.result = .ok () := hfinish
    have hopened := Cobblestone256StreamOpener.opened_of_finish_feeds hnew hrow
    rw [hbytes] at hopened
    exact hopened
  · rintro ⟨layout, hlen, hopened⟩
    obtain ⟨stream, hnew, hresult, houtput, hfinish⟩ :=
      Cobblestone256StreamOpener.feeds_of_opened hlen hopened hbytes ⟨trivial, trivial⟩
    obtain ⟨u, hupdate, -⟩ := bind_eq_ok.mp hresult
    exact ⟨layout, hlen, stream, hnew, u, hupdate, (), hfinish, houtput⟩

theorem recordStart_le (h : i ≤ last) : recordStart i ≤ recordStart last := by
  rw [recordStart_eq, recordStart_eq]
  omega

theorem recordEnd_le (h : i ≤ last) (hlast : last < layout.chunkCount) :
    recordStart i + layout.recordLen i ≤ recordStart last + layout.recordLen last := by
  have hle : offset layout.recordLen i + layout.recordLen i ≤
      offset layout.recordLen last + layout.recordLen last := offset_add_le _ (lt_succ_of_le h)
  rw [recordStart_eq_offset (lt_of_le_of_lt h hlast), recordStart_eq_offset hlast]
  omega

theorem recordEnd_le_length (hlayout : layout.Canonical)
    (hlength : ciphertext.length = layout.ciphertextLen) (hi : i < layout.chunkCount) :
    recordStart i + layout.recordLen i ≤ ciphertext.length := by
  have hle := offset_add_le layout.recordLen hi
  have hend := offset_chunkCount hlayout
  rw [recordStart_eq_offset hi]
  omega

/-- The loop of the in-place opener opens the records one by one.  The invariant is that of a
window: what is behind the records that were read is still the message. -/
theorem openOwnedFrom_eq (hlayout : layout.Canonical)
    (hlength : ciphertext.length = layout.ciphertextLen) {out : Nat} {buffer : Bytes}
    (hlast : first + n ≤ layout.chunkCount) (hbuffer : buffer.length = ciphertext.length)
    (hrest : buffer.drop (cobblestoneHeaderLen + offset layout.recordLen first) =
      ciphertext.drop (cobblestoneHeaderLen + offset layout.recordLen first))
    (hout : out ≤ cobblestoneHeaderLen + offset layout.recordLen first) :
    openOwnedFrom opener layout (List.range' first n) buffer out =
      opener.openRecords layout ciphertext (List.range' first n) >>= fun plaintexts =>
        pure (buffer.take out ++ plaintexts.flatten) := by
  induction n generalizing first out buffer with
  | zero =>
    show Except.ok _ = Except.ok (_ ++ [])
    rw [append_nil]
  | succ n ih =>
    have hfirst : first < layout.chunkCount := by omega
    have hend := recordEnd_le_length hlayout (hbuffer.trans hlength) hfirst
    rw [← recordStart_eq_offset hfirst] at hout hrest
    have hslice : slice buffer (recordStart first) (recordStart first + layout.recordLen first) =
        some (layout.recordAt ciphertext first) := by
      rw [slice, if_pos ⟨Nat.le_add_right .., hend⟩, hrest, Nat.add_sub_cancel_left, recordAt,
        recordStart_eq_offset hfirst]
    rw [range'_succ, openOwnedFrom, hlayout.ciphertextRangeForChunk_eq hfirst, ok_bind]
    dsimp only
    rw [hslice, openRecords, mapM_cons]
    show (opener.openChunk _ _ _ >>= _) = _
    cases hopen : opener.openChunk layout first (layout.recordAt ciphertext first) with
    | error e => rfl
    | ok opening =>
      have hshort : opening.length ≤ layout.recordLen first := by
        obtain ⟨-, hrecord, nonce, -, hopened⟩ := openChunk_eq_ok hlayout hopen
        exact hrecord ▸ P.length_open_le hopened
      obtain ⟨hkept, hopenedNow, hbehind⟩ := writeAt_copyWithin hout hshort hend
      have hnext : cobblestoneHeaderLen + offset layout.recordLen (first + 1) =
          recordStart first + layout.recordLen first := by
        rw [offset, ← Nat.add_assoc, recordStart_eq_offset hfirst]
      rw [ok_bind, ok_bind, ih (by omega) (by omega)]
      · rw [hopenedNow]
        simp only [bind_assoc, pure_bind, flatten_cons, append_assoc]
        rfl
      · rw [hnext, hbehind, ← drop_drop, hrest, drop_drop]
      · omega

/-- **Opening in place** accepts exactly the complete messages. -/
theorem openOwned_eq_ok : openOwned P inputKey context ciphertext = .ok plaintext ↔
    ∃ layout, fromCiphertextLen ciphertext.length = .ok layout ∧
      Opened P inputKey context layout ciphertext plaintext := by
  simp only [openOwned, bind_eq_ok, okOr_eq_ok]
  refine exists_congr fun layout => and_congr_right fun hlen => ?_
  obtain ⟨hlayout, hlength⟩ := fromCiphertextLen_eq_ok.mp hlen
  have hend := offset_chunkCount hlayout
  have hheader : slice ciphertext 0 cobblestoneHeaderLen =
      some (ciphertext.take cobblestoneHeaderLen) := by
    rw [slice, if_pos ⟨Nat.zero_le _, by omega⟩, drop_zero, Nat.sub_zero]
  rw [opened_iff hlayout]
  constructor
  · rintro ⟨header, hslice, opener, hopener, hopen⟩
    rw [hheader] at hslice
    cases hslice
    rw [range_eq_range', openOwnedFrom_eq hlayout hlength.symm (by omega) rfl rfl
      (zero_le _)] at hopen
    obtain ⟨plaintexts, hplaintexts, hok⟩ := bind_eq_ok.mp hopen
    exact ⟨hlength.symm, opener, plaintexts, hopener, hplaintexts, (pure_eq_ok.mp hok).symm⟩
  · rintro ⟨-, opener, plaintexts, hopener, hplaintexts, rfl⟩
    refine ⟨_, hheader, opener, hopener, ?_⟩
    rw [range_eq_range', openOwnedFrom_eq hlayout hlength.symm (by omega) rfl rfl
      (zero_le _), hplaintexts]
    rfl

/-! ### Ranges -/

variable (hlayout : layout.Canonical)
include hlayout

theorem plaintextRangeForChunk_eq (hi : i < layout.chunkCount) :
    layout.plaintextRangeForChunk i = .ok ⟨i * cobblestoneChunkLen,
      i * cobblestoneChunkLen + (layout.recordLen i - aesGcmTagLen)⟩ := by
  obtain ⟨hciphertext, hplaintext, htag, hshort, hcount⟩ := canonical_iff.mp hlayout
  have hlen := Range.len_mk_add (recordStart i) (layout.recordLen i)
  have hrecord : 16 ≤ layout.recordLen i ∧ layout.recordLen i ≤ 16400 := by
    rw [recordLen_eq]
    split <;> omega
  have hindex : i < layout.fullChunks + 1 := hi
  have hmul : checkedMul i cobblestoneChunkLen = some (i * cobblestoneChunkLen) := by
    refine checkedMul_eq_some.mpr ⟨rfl, ?_⟩
    show i * 16384 < 2 ^ 64
    omega
  have hadd : checkedAdd (i * cobblestoneChunkLen) (layout.recordLen i - aesGcmTagLen) =
      some (i * cobblestoneChunkLen + (layout.recordLen i - aesGcmTagLen)) := by
    refine checkedAdd_eq_some.mpr ⟨rfl, ?_⟩
    show i * 16384 + (layout.recordLen i - 16) < 2 ^ 64
    omega
  rw [plaintextRangeForChunk, hlayout.ciphertextRangeForChunk_eq hi, ok_bind, hmul]
  rw [hlen, checkedSub_of_le (show aesGcmTagLen ≤ _ from hrecord.1)]
  show (okOr (checkedAdd _ _) _ >>= _) = _
  rw [hadd]
  rfl

omit hlayout in
theorem chunk_lt_of_range (h : layout.plaintextRangeForChunk i = .ok range) :
    i < layout.chunkCount := by
  obtain ⟨ciphertextRange, hciphertext, -⟩ := bind_eq_ok.mp h
  by_contra hle
  rw [ciphertextRangeForChunk_of_le (not_lt.mp hle)] at hciphertext
  cases hciphertext

/-- The chunk of the last byte of a range is one of the message. -/
theorem chunk_lt_chunkCount {position : Nat}
    (h : position < layout.plaintextLen) : position / cobblestoneChunkLen < layout.chunkCount := by
  obtain ⟨-, hplaintext, -, hshort, -⟩ := canonical_iff.mp hlayout
  show position / 16384 < layout.fullChunks + 1
  omega

theorem selectPlaintextRange_eq_ok : layout.selectPlaintextRange range = .ok selection ↔
      range.start < range.stop ∧ range.stop ≤ layout.plaintextLen ∧
        selection = ⟨layout, range, range.start / cobblestoneChunkLen,
          (range.stop - 1) / cobblestoneChunkLen,
          ⟨recordStart (range.start / cobblestoneChunkLen),
            recordStart ((range.stop - 1) / cobblestoneChunkLen) +
              layout.recordLen ((range.stop - 1) / cobblestoneChunkLen)⟩⟩ := by
  simp only [selectPlaintextRange, bind_eq_ok, failIf_eq_ok, exists_const, not_or, not_le,
    not_lt, pure_eq_ok, and_assoc]
  refine and_congr_right fun hnonempty => and_congr_right fun hend => ?_
  have hfirst := chunk_lt_chunkCount hlayout (show range.start < layout.plaintextLen by omega)
  have hlast := chunk_lt_chunkCount hlayout (show range.stop - 1 < layout.plaintextLen by omega)
  rw [hlayout.ciphertextRangeForChunk_eq hfirst, hlayout.ciphertextRangeForChunk_eq hlast]
  constructor
  · rintro ⟨a, ha, b, hb, rfl⟩
    cases ha
    cases hb
    rfl
  · rintro rfl
    exact ⟨_, rfl, _, rfl, rfl⟩

/-- The records of a message open to the chunks of a plaintext. -/
structure Carries (opener : Cobblestone256Opener P) (layout : Cobblestone256MessageLayout)
    (ciphertext plaintext : Bytes) : Prop where
  ciphertext_length : ciphertext.length = layout.ciphertextLen
  plaintext_length : plaintext.length = layout.plaintextLen
  records : ∀ i < layout.chunkCount, opener.openChunk layout i (layout.recordAt ciphertext i) =
    .ok ((plaintext.drop (i * cobblestoneChunkLen)).take cobblestoneChunkLen)

omit hlayout in
theorem Carries.openRecords_eq (h : Carries opener layout ciphertext plaintext)
    (hlast : first + n ≤ layout.chunkCount) :
    opener.openRecords layout ciphertext (List.range' first n) =
      .ok (blocks cobblestoneChunkLen n (plaintext.drop (first * cobblestoneChunkLen))) := by
  refine mapM_range'_eq_ok.mpr ⟨length_blocks .., fun i chunk hchunk => ?_⟩
  have hi : i < n := by
    have := (List.getElem?_eq_some_iff.mp hchunk).1
    rwa [length_blocks] at this
  rw [getElem?_blocks hi, drop_drop, ← Nat.add_mul] at hchunk
  rw [h.records (first + i) (by omega), Option.some.inj hchunk]

/-- The loop of the range opener finds each record in the span that was selected. -/
theorem openSelectedFrom_eq
    (hlength : ciphertext.length = layout.ciphertextLen) {begin : Nat} {authenticated : Bytes}
    (hselection : selection.layout = layout) (hspan : selection.ciphertextRange =
      ⟨recordStart begin, recordStart last + layout.recordLen last⟩)
    (hlast : last < layout.chunkCount) (hfirst : begin ≤ first) (hn : first + n = last + 1) :
    opener.openSelectedFrom selection ((ciphertext.drop (recordStart begin)).take
        (recordStart last + layout.recordLen last - recordStart begin))
        (List.range' first n) authenticated =
      opener.openRecords layout ciphertext (List.range' first n) >>= fun plaintexts =>
        pure (authenticated ++ plaintexts.flatten) := by
  induction n generalizing first authenticated with
  | zero =>
    show Except.ok _ = Except.ok (_ ++ [])
    rw [append_nil]
  | succ n ih =>
    have hmem : first < layout.chunkCount := by omega
    have hlower := recordStart_le hfirst
    have hupper := recordEnd_le (show first ≤ last by omega) hlast
    have hend := recordEnd_le_length hlayout hlength hlast
    have hslice : slice ((ciphertext.drop (recordStart begin)).take
        (recordStart last + layout.recordLen last - recordStart begin))
        (recordStart first - recordStart begin)
        (recordStart first + layout.recordLen first - recordStart begin) =
          some (layout.recordAt ciphertext first) := by
      rw [slice, if_pos, drop_take, drop_drop, take_take, recordAt,
        ← recordStart_eq_offset hmem]
      · congr 2
        · omega
        · congr 1
          omega
      · rw [length_take, length_drop]
        omega
    rw [range'_succ, openSelectedFrom, hselection,
      hlayout.ciphertextRangeForChunk_eq hmem, ok_bind, hspan]
    rw [checkedSub_of_le hlower, checkedSub_of_le (le_add_right_of_le hlower)]
    show (okOr (slice _ _ _) _ >>= _) = _
    rw [hslice, openRecords, mapM_cons]
    show (opener.openChunk _ _ _ >>= _) = _
    cases hopen : opener.openChunk layout first (layout.recordAt ciphertext first) with
    | error e => rfl
    | ok opening =>
      rw [ok_bind, ok_bind, ih (by omega) (by omega)]
      simp only [bind_assoc, pure_bind, flatten_cons, append_assoc]
      rfl

/-- The range opener with any run of records that holds the range. -/
theorem openSelectedRange_eq (h : Carries opener layout ciphertext plaintext)
    (hstart : first * cobblestoneChunkLen ≤ range.start)
    (hstop : range.stop ≤ (last + 1) * cobblestoneChunkLen)
    (hnonempty : range.start < range.stop) (hend : range.stop ≤ plaintext.length)
    (hfirst : first ≤ last) (hlast : last < layout.chunkCount) :
    opener.openSelectedRange ⟨layout, range, first, last,
        ⟨recordStart first, recordStart last + layout.recordLen last⟩⟩
        ((ciphertext.drop (recordStart first)).take
          (recordStart last + layout.recordLen last - recordStart first)) =
      .ok ((plaintext.drop range.start).take (range.stop - range.start)) := by
  have hspanEnd := recordEnd_le_length hlayout h.ciphertext_length hlast
  have horder := recordStart_le hfirst
  have hspanLen : ((ciphertext.drop (recordStart first)).take
      (recordStart last + layout.recordLen last - recordStart first)).length =
        recordStart last + layout.recordLen last - recordStart first := by
    rw [length_take, length_drop]
    omega
  have hmul : first * cobblestoneChunkLen ≤ last * cobblestoneChunkLen :=
    mul_le_mul_right _ hfirst
  have hcount : (last + 1 - first) * cobblestoneChunkLen =
      (last + 1) * cobblestoneChunkLen - first * cobblestoneChunkLen := Nat.sub_mul ..
  have hauthenticated : (blocks cobblestoneChunkLen (last + 1 - first)
      (plaintext.drop (first * cobblestoneChunkLen))).flatten =
        (plaintext.drop (first * cobblestoneChunkLen)).take
          ((last + 1 - first) * cobblestoneChunkLen) := flatten_blocks_eq_take ..
  rw [openSelectedRange]
  rw [checkedSub_of_le (le_add_right_of_le horder),
    plaintextRangeForChunk_eq hlayout (lt_of_le_of_lt hfirst hlast),
    plaintextRangeForChunk_eq hlayout hlast]
  simp only [okOr, ok_bind, failIf_of_not (not_not_intro hspanLen),
    checkedSub_of_le (le_add_right_of_le hmul)]
  rw [openSelectedFrom_eq hlayout h.ciphertext_length rfl rfl hlast (le_refl _) (by omega),
    h.openRecords_eq (by omega), ok_bind, pure_bind, nil_append, hauthenticated]
  simp only [checkedSub_of_le hstart, checkedSub_of_le (hstart.trans (le_of_lt hnonempty)), ok_bind]
  have hinside : slice ((plaintext.drop (first * cobblestoneChunkLen)).take
      ((last + 1 - first) * cobblestoneChunkLen)) (range.start - first * cobblestoneChunkLen)
      (range.stop - first * cobblestoneChunkLen) ≠ none := by
    rw [slice, if_pos]
    · exact Option.some_ne_none _
    · rw [length_take, length_drop]
      omega
  have hroom : range.start - first * cobblestoneChunkLen +
      (range.stop - first * cobblestoneChunkLen - (range.start - first * cobblestoneChunkLen)) ≤
        ((plaintext.drop (first * cobblestoneChunkLen)).take
          ((last + 1 - first) * cobblestoneChunkLen)).length := by
    rw [length_take, length_drop]
    omega
  have hposition : first * cobblestoneChunkLen + (range.start - first * cobblestoneChunkLen) =
      range.start := by omega
  have htaken : min (range.stop - first * cobblestoneChunkLen -
      (range.start - first * cobblestoneChunkLen)) ((last + 1 - first) * cobblestoneChunkLen -
        (range.start - first * cobblestoneChunkLen)) = range.stop - range.start := by omega
  rw [failIf_of_not hinside, ok_bind, take_copyWithin_zero hroom, drop_take, drop_drop,
    take_take, hposition, htaken]
  rfl

/-- **A range is opened** from the records that were selected for it. -/
theorem openSelectedRange_of_carries (h : Carries opener layout ciphertext plaintext)
    (hselection : layout.selectPlaintextRange range = .ok selection) :
    ∃ span bytes, slice ciphertext selection.ciphertextRange.start
        selection.ciphertextRange.stop = some span ∧
      slice plaintext range.start range.stop = some bytes ∧
      opener.openSelectedRange selection span = .ok bytes := by
  obtain ⟨hnonempty, hend, rfl⟩ := (selectPlaintextRange_eq_ok hlayout).mp hselection
  have hlast := chunk_lt_chunkCount hlayout (show range.stop - 1 < layout.plaintextLen by omega)
  rw [← h.plaintext_length] at hend
  have hspanEnd := recordEnd_le_length hlayout h.ciphertext_length hlast
  have hfirst : range.start / cobblestoneChunkLen ≤ (range.stop - 1) / cobblestoneChunkLen :=
    Nat.div_le_div_right (by omega)
  refine ⟨_, _, if_pos ⟨le_add_right_of_le (recordStart_le hfirst), hspanEnd⟩,
    if_pos ⟨le_of_lt hnonempty, hend⟩, ?_⟩
  refine openSelectedRange_eq hlayout h (div_mul_le_self ..) ?_ hnonempty hend hfirst hlast
  show range.stop ≤ ((range.stop - 1) / 16384 + 1) * 16384
  omega

/-- **No shorter run of whole records holds the range.** -/
theorem selected_minimal (hselection : layout.selectPlaintextRange range = .ok selection) {j : Nat}
    {front back : Range} (hfront : layout.plaintextRangeForChunk i = .ok front)
    (hback : layout.plaintextRangeForChunk j = .ok back) (hstart : front.start ≤ range.start)
    (hstop : range.stop ≤ back.stop) :
    i ≤ selection.firstChunk ∧ selection.lastChunk ≤ j := by
  obtain ⟨hnonempty, -, rfl⟩ := (selectPlaintextRange_eq_ok hlayout).mp hselection
  rw [plaintextRangeForChunk_eq hlayout (chunk_lt_of_range hfront)] at hfront
  rw [plaintextRangeForChunk_eq hlayout (chunk_lt_of_range hback)] at hback
  cases hfront
  cases hback
  have hrecord : layout.recordLen j ≤ 16400 := by
    obtain ⟨-, -, -, hshort, -⟩ := canonical_iff.mp hlayout
    rw [recordLen_eq]
    split <;> omega
  have hstart' : i * 16384 ≤ range.start := hstart
  have hstop' : range.stop ≤ j * 16384 + (layout.recordLen j - 16) := hstop
  show i ≤ range.start / 16384 ∧ (range.stop - 1) / 16384 ≤ j
  omega

/-- A message whose header verifies and whose records open to the chunks of a plaintext is a
complete message of this plaintext. -/
theorem Carries.toOpened (h : Carries opener layout ciphertext plaintext)
    (hheader : fromHeader inputKey context
      (ciphertext.take cobblestoneHeaderLen) = .ok opener) :
    Opened P inputKey context layout ciphertext plaintext := by
  refine (opened_iff hlayout).mpr ⟨h.ciphertext_length, opener, _, hheader,
    h.openRecords_eq (Nat.le_of_eq (Nat.zero_add _)), ?_⟩
  obtain ⟨-, hplaintext, -, hshort, -⟩ := canonical_iff.mp hlayout
  rw [flatten_blocks_eq_take, Nat.zero_mul, drop_zero, take_of_length_le]
  rw [h.plaintext_length]
  show layout.plaintextLen ≤ (layout.fullChunks + 1) * 16384
  omega

end Records

end Argmin.Crypto
