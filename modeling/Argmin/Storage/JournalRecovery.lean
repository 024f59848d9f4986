import Argmin.Storage.DurableJournal

/-!
# What a journal replays

* `decodeFileHeader_encodeFileBytes`, `replayFrames_encodeFrames` — the header and the frames that
  were written are read back;
* `exists_split_of_cut` — every cut of written frames lies at a frame boundary or inside a frame;
* `recovers_whole_frames` — replay after a crash;
* `Counterpart` — a journal beside the one that never dropped a byte, kept by every operation
  (`Counterpart.step`); `compaction_preserves_offsets` follows.
-/

namespace Argmin.Storage

open Fallible BigEndian List Option Nat
open Sha256 (beBytes)

/-! ### Frames -/

/-- The lengths that an append accepts. -/
def ValidFrame (frame : Bytes) : Prop := 0 < frame.length ∧ frame.length < 2 ^ 32

theorem length_encodeFrame (frame : Bytes) :
    (encodeFrame frame).length = framePrefixLen + frame.length := by
  simp only [encodeFrame, length_append, length_beBytes, framePrefixLen, frameLengthLen]

/-- What the two length words of a written frame read back as, with any bytes after them. -/
theorem prefix_encodeFrame {frame : Bytes} (rest : Bytes) (hvalid : ValidFrame frame) :
    let bytes := encodeFrame frame ++ rest
    ofBytes (bytes.take frameLengthLen) = frame.length ∧
      ofBytes ((bytes.drop frameLengthLen).take frameLengthLen) = 2 ^ 32 - 1 - frame.length ∧
      bytes.drop framePrefixLen = frame ++ rest := by
  have hword : ∀ value, (beBytes frameLengthLen value).length = frameLengthLen :=
    length_beBytes frameLengthLen
  have hlen : frame.length < 256 ^ frameLengthLen := hvalid.2
  have hcheck : 2 ^ 32 - 1 - frame.length < 256 ^ frameLengthLen :=
    lt_of_le_of_lt (sub_le _ _) (by decide)
  have hlater : (encodeFrame frame ++ rest).drop frameLengthLen =
      beBytes frameLengthLen (2 ^ 32 - 1 - frame.length) ++ (frame ++ rest) := by
    rw [encodeFrame, append_assoc, append_assoc, drop_left' (hword _)]
  refine ⟨?_, ?_, ?_⟩
  · rw [encodeFrame, append_assoc, append_assoc, take_left' (hword _),
      ofBytes_beBytes hlen]
  · rw [hlater, take_left' (hword _), ofBytes_beBytes hcheck]
  · have hsplit : framePrefixLen = frameLengthLen + frameLengthLen := rfl
    rw [hsplit, ← drop_drop, hlater, drop_left' (hword _)]

/-- Bytes that end a written file: none, or a part of the next frame. -/
def Torn (next : List Bytes) (torn : Bytes) : Prop :=
  torn = [] ∨ ∃ frame, next.head? = some frame ∧ torn <+: encodeFrame frame ∧
    torn.length < (encodeFrame frame).length

theorem encodeFrames_cons (frame : Bytes) (frames : List Bytes) :
    encodeFrames (frame :: frames) = encodeFrame frame ++ encodeFrames frames := rfl

theorem encodeFrames_append (frames more : List Bytes) :
    encodeFrames (frames ++ more) = encodeFrames frames ++ encodeFrames more :=
  flatMap_append

/-- **A cut of written frames** lies at the end of one of them or inside the next. -/
theorem exists_split_of_cut (frames : List Bytes) (cut : Nat) :
    ∃ whole rest torn, frames = whole ++ rest ∧
      (encodeFrames frames).take cut = encodeFrames whole ++ torn ∧ Torn rest torn := by
  induction frames generalizing cut with
  | nil => exact ⟨[], [], [], rfl, take_nil, .inl rfl⟩
  | cons frame frames ih =>
    by_cases hcut : cut < (encodeFrame frame).length
    · refine ⟨[], frame :: frames, (encodeFrame frame).take cut, rfl, ?_, .inr ⟨frame, rfl, ?_, ?_⟩⟩
      · rw [encodeFrames_cons, take_append_of_le_length (le_of_lt hcut)]
        rfl
      · exact take_prefix cut _
      · rw [length_take]
        omega
    · obtain ⟨whole, rest, torn, rfl, htake, htorn⟩ := ih (cut - (encodeFrame frame).length)
      refine ⟨frame :: whole, rest, torn, rfl, ?_, htorn⟩
      rw [encodeFrames_cons, take_append, take_of_length_le (Nat.le_of_not_lt hcut),
        htake, encodeFrames_cons, append_assoc]

namespace DurableJournalFile

variable {j : DurableJournalFile} {next frames : List Bytes} {torn payload frame dropped : Bytes}
  {offset base : UInt64} {file : Option Bytes}

/-! ### The header -/

variable (j)

theorem length_headerBody (base : Nat) :
    (j.headerBody base).length = j.headerLen - checksumLen := by
  simp only [headerBody, headerLen, length_append, length_beBytes, Nat.add_sub_cancel]

theorem length_encodeFileHeader (base : Nat) : (j.encodeFileHeader base).length = j.headerLen := by
  simp only [encodeFileHeader, headerBody, headerLen, length_append, length_beBytes]

theorem encodeFileBytes_ne_nil (base : Nat) (payload : Bytes) :
    j.encodeFileBytes base payload ≠ [] := by
  intro hnil
  have hlen := congrArg length hnil
  rw [encodeFileBytes, length_append, length_encodeFileHeader] at hlen
  simp only [headerLen, checksumLen, length_nil] at hlen
  omega

theorem drop_encodeFileBytes (base offset : Nat) (payload : Bytes) :
    (j.encodeFileBytes base payload).drop (j.headerLen + offset) = payload.drop offset := by
  rw [encodeFileBytes, ← length_encodeFileHeader j base, drop_append,
    drop_of_length_le (Nat.le_add_right _ _), Nat.add_sub_cancel_left, nil_append]

theorem take_encodeFileBytes (base offset : Nat) (payload : Bytes) :
    (j.encodeFileBytes base payload).take (j.headerLen + offset) =
      j.encodeFileBytes base (payload.take offset) := by
  rw [encodeFileBytes, ← length_encodeFileHeader j base, take_append,
    take_of_length_le (Nat.le_add_right _ _), Nat.add_sub_cancel_left, encodeFileBytes]

theorem length_encodeFileBytes (base : Nat) (payload : Bytes) :
    (j.encodeFileBytes base payload).length = j.headerLen + payload.length := by
  rw [encodeFileBytes, length_append, length_encodeFileHeader]

variable {j}

/-- **The header that was written is read back.** -/
theorem decodeFileHeader_encodeFileBytes (base : UInt64) (payload : Bytes) :
    j.decodeFileHeader (j.encodeFileBytes base.toNat payload) = .ok base.toNat := by
  have hbody : (j.headerBody base.toNat).length = j.headerLen - checksumLen :=
    length_headerBody j _
  have hheader : (j.encodeFileBytes base.toNat payload).take (j.headerLen - checksumLen) =
      j.headerBody base.toNat := by
    rw [encodeFileBytes, encodeFileHeader, append_assoc, take_left' hbody]
  have hchecksum : ((j.encodeFileBytes base.toNat payload).take j.headerLen).drop
      (j.headerLen - checksumLen) =
        beBytes checksumLen (j.checksum (j.headerBody base.toNat)).toNat := by
    rw [encodeFileBytes, take_left' (length_encodeFileHeader j _), encodeFileHeader,
      drop_left' hbody]
  have hlater : (j.headerBody base.toNat).drop j.format.fileMagic.length =
      beBytes 2 j.format.fileVersion.toNat ++ beBytes 8 base.toNat := by
    rw [headerBody, append_assoc, drop_left]
  have hversion : ofBytes (((j.headerBody base.toNat).drop j.format.fileMagic.length).take 2) =
      j.format.fileVersion.toNat := by
    rw [hlater, take_left' (length_beBytes _ _)]
    exact ofBytes_beBytes j.format.fileVersion.toNat_lt
  have hbase : ofBytes (((j.headerBody base.toNat).drop (j.format.fileMagic.length + 2)).take 8) =
      base.toNat := by
    rw [← drop_drop, hlater, drop_left' (length_beBytes _ _),
      take_of_length_le (le_of_eq (length_beBytes _ _))]
    exact ofBytes_beBytes base.toNat_lt
  have hmagic : (j.headerBody base.toNat).take j.format.fileMagic.length = j.format.fileMagic := by
    rw [headerBody, append_assoc, take_left]
  refine mapError_eq_ok.mpr ?_
  rw [decodeFileHeaderClassified, if_neg (encodeFileBytes_ne_nil j _ _)]
  simp only [failIf_bind_eq_ok, hheader, hchecksum, hmagic, hversion, hbase, pure_eq_ok]
  refine ⟨?_, ?_, not_not_intro rfl, not_not_intro rfl, trivial⟩
  · rw [length_encodeFileBytes]
    omega
  · exact not_not_intro (ofBytes_beBytes (UInt64.toNat_lt _)).symm

theorem readFileBaseOffset_encodeFileBytes (base : UInt64) (payload : Bytes) :
    j.readFileBaseOffset (some (j.encodeFileBytes base.toNat payload)) = .ok base.toNat := by
  have htake := take_encodeFileBytes j base.toNat 0 payload
  rw [add_zero] at htake
  exact bind_eq_ok.mpr ⟨_, rfl, by rw [htake, decodeFileHeader_encodeFileBytes]⟩

/-! ### Replay -/

/-- A file that ends at a frame boundary, or inside a frame. -/
theorem replayFrames_torn (hnext : ∀ frame ∈ next, ValidFrame frame)
    (htorn : Torn next torn) (fuel cleanLen : Nat) :
    j.replayFrames (fuel + 1) torn cleanLen = .ok ⟨[], cleanLen, decide (torn ≠ [])⟩ := by
  by_cases hnil : torn = []
  · subst hnil
    rfl
  obtain ⟨frame, hhead, hprefix, hlt⟩ := htorn.resolve_left hnil
  have hvalid := hnext frame (mem_of_head? hhead)
  rw [replayFrames, if_neg hnil, decide_eq_true hnil]
  by_cases hshort : torn.length < framePrefixLen
  · rw [if_pos hshort]
  rw [if_neg hshort]
  -- The length words are whole, so they are those of the frame; its bytes are not all there.
  obtain ⟨missing, hmissing⟩ := hprefix
  have hwords : ∀ n ≤ framePrefixLen, torn.take n = (encodeFrame frame).take n := by
    intro n hn
    rw [← hmissing, take_append_of_le_length (by omega)]
  obtain ⟨hlen, hcheck, -⟩ := prefix_encodeFrame [] hvalid
  rw [append_nil] at hlen hcheck
  have hlen : ofBytes (torn.take frameLengthLen) = frame.length := by
    rw [hwords frameLengthLen (by decide), hlen]
  have hcheck : ofBytes ((torn.drop frameLengthLen).take frameLengthLen) =
      2 ^ 32 - 1 - frame.length := by
    rw [← hcheck, take_drop, take_drop, hwords _ (by decide)]
  have hremaining : (torn.drop framePrefixLen).length < frame.length := by
    rw [length_encodeFrame] at hlt
    rw [length_drop]
    omega
  simp only [hlen, hcheck, failIf_bind_eq_ok, if_pos hremaining]
  exact ⟨not_not_intro rfl, ne_of_gt hvalid.1, rfl⟩

/-- **Whole frames are read back**, and the frame they end inside is reported. -/
theorem replayFrames_encodeFrames
    (hframes : ∀ frame ∈ frames, ValidFrame frame) (hnext : ∀ frame ∈ next, ValidFrame frame)
    (htorn : Torn next torn) {fuel : Nat} (hfuel : (encodeFrames frames ++ torn).length < fuel)
    {cleanLen : Nat} (hend : cleanLen + (encodeFrames frames).length < 2 ^ 64) :
    j.replayFrames fuel (encodeFrames frames ++ torn) cleanLen =
      .ok ⟨frames, cleanLen + (encodeFrames frames).length, decide (torn ≠ [])⟩ := by
  induction frames generalizing fuel cleanLen with
  | nil =>
    obtain ⟨fuel, rfl⟩ := exists_eq_add_one_of_ne_zero (ne_of_gt (zero_lt_of_lt hfuel))
    exact replayFrames_torn hnext htorn fuel cleanLen
  | cons frame frames ih =>
    have hvalid := hframes frame mem_cons_self
    obtain ⟨fuel, rfl⟩ := exists_eq_add_one_of_ne_zero (ne_of_gt (zero_lt_of_lt hfuel))
    rw [encodeFrames_cons, append_assoc] at hfuel ⊢
    rw [encodeFrames_cons, length_append] at hend
    obtain ⟨hlen, hcheck, hdrop⟩ :=
      prefix_encodeFrame (encodeFrames frames ++ torn) hvalid
    have hlength := length_encodeFrame frame
    have hprefix : 0 < framePrefixLen := by decide
    have hfuel : (encodeFrames frames ++ torn).length < fuel := by
      rw [length_append, hlength] at hfuel
      omega
    have hwraps : (cleanLen + framePrefixLen + frame.length) % 2 ^ 64 =
        cleanLen + framePrefixLen + frame.length := Nat.mod_eq_of_lt (by omega)
    have hlast : cleanLen + framePrefixLen + frame.length + (encodeFrames frames).length <
        2 ^ 64 := by omega
    have hlater := ih (fun f hf => hframes f (mem_cons_of_mem _ hf)) hfuel hlast
    rw [replayFrames, if_neg, if_neg]
    · simp only [hlen, hcheck, hdrop, failIf_bind_eq_ok]
      refine ⟨not_not_intro rfl, ne_of_gt hvalid.1, ?_⟩
      rw [if_neg (by rw [length_append]; omega), drop_left, take_left, hwraps, hlater]
      refine congrArg Except.ok ?_
      rw [length_append, hlength, DurableJournalFrames.mk.injEq]
      refine ⟨rfl, ?_, rfl⟩
      dsimp only
      omega
    · rw [length_append, hlength]
      omega
    · intro hnil
      have := congrArg length hnil
      rw [length_append, hlength, length_nil] at this
      omega

/-- Replay of a written file is replay of its bytes from the logical offset on. -/
theorem readFramesFrom_encodeFileBytes (base : UInt64) (payload : Bytes) {offset : Nat}
    (hbase : base.toNat ≤ offset) :
    ∃ e, j.readFramesFrom (some (j.encodeFileBytes base.toNat payload)) offset =
      if base.toNat + payload.length < offset then .error e
      else j.replayFrames (payload.length + 1 - (offset - base.toNat))
        (payload.drop (offset - base.toNat)) offset := by
  have hlength := length_encodeFileBytes j base.toNat payload
  have hdecode := decodeFileHeader_encodeFileBytes (j := j) base payload
  have hdrop := drop_encodeFileBytes j base.toNat (offset - base.toNat) payload
  have hne := encodeFileBytes_ne_nil j base.toNat payload
  generalize j.encodeFileBytes base.toNat payload = bytes at *
  match bytes, hne with
  | byte :: bytes, _ =>
    simp only [readFramesFrom, hdecode, ok_bind, hlength, hdrop]
    rw [failIf_of_not (not_lt.mpr hbase), ok_bind]
    by_cases hend : base.toNat + payload.length < offset
    · simp only [if_pos hend]
      rw [failIf, if_pos (by omega)]
      exact ⟨_, rfl⟩
    · have hfuel : j.headerLen + payload.length + 1 - (j.headerLen + (offset - base.toNat)) =
          payload.length + 1 - (offset - base.toNat) := by omega
      simp only [if_neg hend]
      rw [failIf_of_not (by omega), ok_bind, hfuel]
      exact ⟨.io "", rfl⟩

/-- Replay of written frames from a frame boundary. -/
theorem readFramesFrom_frames (base : UInt64) (before torn : Bytes)
    (hframes : ∀ frame ∈ frames, ValidFrame frame) (hnext : ∀ frame ∈ next, ValidFrame frame)
    (htorn : Torn next torn)
    (hend : base.toNat + before.length + (encodeFrames frames).length < 2 ^ 64) :
    j.readFramesFrom (some (j.encodeFileBytes base.toNat (before ++ (encodeFrames frames ++ torn))))
        (base.toNat + before.length) =
      .ok ⟨frames, base.toNat + before.length + (encodeFrames frames).length,
        decide (torn ≠ [])⟩ := by
  obtain ⟨e, he⟩ := readFramesFrom_encodeFileBytes (j := j) base
    (before ++ (encodeFrames frames ++ torn)) (le_add_right base.toNat before.length)
  rw [he, if_neg (by rw [length_append]; omega), Nat.add_sub_cancel_left, drop_left]
  refine replayFrames_encodeFrames hframes hnext htorn ?_ hend
  have hlength : (before ++ (encodeFrames frames ++ torn)).length =
      before.length + (encodeFrames frames ++ torn).length := length_append
  omega

/-! ### Appending -/

/-- Appending frame after frame. -/
def appendFrames (j : DurableJournalFile) (file : Option Bytes) (frames : List Bytes) :
    Except JournalError (Option Bytes) :=
  frames.foldlM (fun file frame => do pure (some (← j.appendFrame file frame))) file

/-- A journal to which nothing was appended: no file, or a header. -/
def Fresh (j : DurableJournalFile) (base : UInt64) (file : Option Bytes) : Prop :=
  file = none ∧ base = 0 ∨ file = some (j.encodeFileBytes base.toNat [])

theorem appendFrame_encodeFileBytes {file : Bytes} :
    j.appendFrame (some (j.encodeFileBytes base.toNat payload)) frame = .ok file ↔
      ValidFrame frame ∧ file = j.encodeFileBytes base.toNat (payload ++ encodeFrame frame) := by
  have hne := encodeFileBytes_ne_nil j base.toNat payload
  have hread := readFileBaseOffset_encodeFileBytes (j := j) base payload
  simp only [appendFrame, failIf_bind_eq_ok, getD_some, if_neg hne, hread, ok_bind,
    pure_eq_ok]
  rw [encodeFileBytes, encodeFileBytes, ← append_assoc, ValidFrame]
  constructor
  · rintro ⟨hlong, hzero, rfl⟩
    exact ⟨⟨by omega, by omega⟩, rfl⟩
  · rintro ⟨⟨hzero, hlong⟩, rfl⟩
    exact ⟨by omega, by omega, rfl⟩

/-- The first append writes the header of offset zero. -/
theorem appendFrame_fresh (h : j.Fresh base file) (frame : Bytes) :
    j.appendFrame file frame = j.appendFrame (some (j.encodeFileBytes base.toNat [])) frame := by
  rcases h with ⟨rfl, rfl⟩ | rfl
  · have hne := encodeFileBytes_ne_nil j 0 []
    have hread := readFileBaseOffset_encodeFileBytes (j := j) 0 []
    simp only [UInt64.toNat_zero] at hread
    simp only [appendFrame, getD_none, getD_some, UInt64.toNat_zero, if_neg hne,
      if_pos, hread, ok_bind]
    simp only [encodeFileBytes, append_nil]
  · rfl

theorem appendFrames_encodeFileBytes :
    j.appendFrames (some (j.encodeFileBytes base.toNat payload)) frames = .ok file ↔
      (∀ frame ∈ frames, ValidFrame frame) ∧
        file = some (j.encodeFileBytes base.toNat (payload ++ encodeFrames frames)) := by
  induction frames generalizing payload with
  | nil =>
    rw [appendFrames, foldlM_nil, pure_eq_ok, encodeFrames, flatMap_nil,
      append_nil]
    constructor
    · rintro rfl
      exact ⟨forall_mem_nil _, rfl⟩
    · rintro ⟨-, rfl⟩
      rfl
  | cons frame frames ih =>
    rw [appendFrames, foldlM_cons, bind_eq_ok, forall_mem_cons, encodeFrames_cons,
      ← append_assoc]
    constructor
    · rintro ⟨next, hnext, hlater⟩
      obtain ⟨bytes, hbytes, ⟨⟩⟩ := bind_eq_ok.mp hnext
      obtain ⟨hvalid, rfl⟩ := appendFrame_encodeFileBytes.mp hbytes
      obtain ⟨hframes, rfl⟩ := ih.mp hlater
      exact ⟨⟨hvalid, hframes⟩, rfl⟩
    · rintro ⟨⟨hvalid, hframes⟩, rfl⟩
      exact ⟨_, bind_eq_ok.mpr ⟨_, appendFrame_encodeFileBytes.mpr ⟨hvalid, rfl⟩, rfl⟩,
        ih.mpr ⟨hframes, rfl⟩⟩

/-- What appending frames to a fresh journal writes. -/
theorem encodeFileBytes_of_appendFrames {start : Option Bytes}
    {file : Bytes} (hstart : j.Fresh base start)
    (h : j.appendFrames start frames = .ok (some file)) :
    (∀ frame ∈ frames, ValidFrame frame) ∧
      file = j.encodeFileBytes base.toNat (encodeFrames frames) := by
  have hheader : j.appendFrames (some (j.encodeFileBytes base.toNat [])) frames =
      .ok (some file) := by
    cases frames with
    | nil =>
      rcases hstart with ⟨rfl, -⟩ | rfl
      · cases h
      · exact h
    | cons frame frames =>
      rw [appendFrames, foldlM_cons, appendFrame_fresh hstart] at h
      exact h
  obtain ⟨hframes, hfile⟩ := appendFrames_encodeFileBytes.mp hheader
  exact ⟨hframes, some.inj hfile⟩

/-! ### Recovery -/

theorem truncateToCleanLen_encodeFileBytes (kept torn : Bytes) :
    j.truncateToCleanLen (some (j.encodeFileBytes base.toNat (kept ++ torn)))
        (base.toNat + kept.length) = .ok (j.encodeFileBytes base.toNat kept) := by
  have hread := readFileBaseOffset_encodeFileBytes (j := j) base (kept ++ torn)
  have hlength := length_encodeFileBytes j base.toNat (kept ++ torn)
  rw [length_append] at hlength
  rw [truncateToCleanLen, hread, ok_bind, failIf_of_not (by omega), ok_bind, getD_some,
    setLen, Nat.add_sub_cancel_left, take_encodeFileBytes, take_left,
    Nat.sub_eq_zero_of_le (by omega), replicate_zero, append_nil]
  rfl

/-- **A journal recovers exactly the written prefix.**  Frames are appended to a journal that
starts at the logical offset `base`, and a crash leaves a prefix of the file at or past the header.
The prefix is the header, some of the first frames, and a part of the next frame, which may be
empty.  Replay returns those frames; the clean length is the end of the last of them, and a torn
tail is reported exactly when the part of the next frame is not empty.  Truncated to the clean
length the journal takes further frames, and replays the old ones followed by the new ones.  The
logical ends are 64-bit numbers. -/
theorem recovers_whole_frames {base : UInt64} {start : Option Bytes} {frames : List Bytes}
    {file : Bytes} {cut : Nat} (hstart : j.Fresh base start)
    (happend : j.appendFrames start frames = .ok (some file))
    (hend : base.toNat + (encodeFrames frames).length < 2 ^ 64) (hcut : j.headerLen ≤ cut) :
    ∃ whole rest torn, frames = whole ++ rest ∧
      file.take cut = j.encodeFileHeader base.toNat ++ (encodeFrames whole ++ torn) ∧
      Torn rest torn ∧
      j.readFramesFrom (some (file.take cut)) base.toNat =
        .ok ⟨whole, base.toNat + (encodeFrames whole).length, decide (torn ≠ [])⟩ ∧
      ∃ clean, j.truncateToCleanLen (some (file.take cut))
          (base.toNat + (encodeFrames whole).length) = .ok clean ∧
        ∀ more, (∀ frame ∈ more, ValidFrame frame) →
          base.toNat + (encodeFrames (whole ++ more)).length < 2 ^ 64 →
          ∃ later, j.appendFrames (some clean) more = .ok later ∧
            j.readFramesFrom later base.toNat =
              .ok ⟨whole ++ more, base.toNat + (encodeFrames (whole ++ more)).length, false⟩ := by
  obtain ⟨hframes, rfl⟩ := encodeFileBytes_of_appendFrames hstart happend
  obtain ⟨past, rfl⟩ := Nat.exists_eq_add_of_le hcut
  obtain ⟨whole, rest, torn, rfl, htake, htorn⟩ := exists_split_of_cut frames past
  rw [forall_mem_append] at hframes
  rw [encodeFrames_append, length_append] at hend
  rw [take_encodeFileBytes, htake]
  refine ⟨whole, rest, torn, rfl, rfl, htorn,
    readFramesFrom_frames base [] torn hframes.1 hframes.2 htorn (by rw [length_nil]; omega),
    _, truncateToCleanLen_encodeFileBytes _ _, fun more hmore hlast =>
      ⟨_, appendFrames_encodeFileBytes.mpr ⟨hmore, rfl⟩, ?_⟩⟩
  have hall := readFramesFrom_frames (j := j) base [] []
    (forall_mem_append.mpr ⟨hframes.1, hmore⟩) (forall_mem_nil _) (.inl rfl) hlast
  rw [encodeFrames_append, nil_append, append_nil, ← encodeFrames_append] at hall
  rw [← encodeFrames_append]
  exact hall

/-- Two frames are written, and the crash leaves two bytes of the second. -/
theorem recovers_before_torn_frame :
    let j : DurableJournalFile := ⟨⟨[0x41], 1, "journal"⟩, ⟨"open", "read"⟩, fun _ => 7⟩
    ∃ file, j.appendFrames none [[1, 2], [3]] = .ok (some file) ∧ j.headerLen ≤ 31 ∧
      ∃ whole rest torn, [[1, 2], [3]] = whole ++ rest ∧
        file.take 31 = j.encodeFileHeader 0 ++ (encodeFrames whole ++ torn) ∧ Torn rest torn ∧
        j.readFramesFrom (some (file.take 31)) 0 =
          .ok ⟨whole, 0 + (encodeFrames whole).length, decide (torn ≠ [])⟩ := by
  refine ⟨_, rfl, by decide, ?_⟩
  obtain ⟨whole, rest, torn, hframes, hfile, htorn, hread, -⟩ :=
    @recovers_whole_frames ⟨⟨[0x41], 1, "journal"⟩, ⟨"open", "read"⟩, fun _ => 7⟩ 0 none
      [[1, 2], [3]] _ 31 (.inl ⟨rfl, rfl⟩) rfl (by decide) (by decide)
  exact ⟨whole, rest, torn, hframes, hfile, htorn, hread⟩

/-! ### Compaction -/

inductive JournalOp
  | append (frame : Bytes)
  | compactThrough (replayOffset : UInt64)
  | replaceFrom (replayOffset expectedCleanLen : UInt64) (frames : List Bytes)

def perform (j : DurableJournalFile) (file : Option Bytes) : JournalOp →
    Except JournalError (Option Bytes)
  | .append frame => do pure (some (← j.appendFrame file frame))
  | .compactThrough replayOffset => j.compactThrough file replayOffset
  | .replaceFrom replayOffset expectedCleanLen frames => do
    pure (some (← j.replaceFrom file replayOffset expectedCleanLen frames))

/-- What the operation makes of a journal that never drops a byte: a compaction does nothing, and
a replacement keeps the bytes before its offset. -/
def performUncompacted (j : DurableJournalFile) (file : Option Bytes) : JournalOp → Option Bytes
  | .append frame => (j.appendFrame file frame).toOption <|> file
  | .compactThrough _ => file
  | .replaceFrom replayOffset _ frames =>
    file.map fun bytes => bytes.take (j.headerLen + replayOffset.toNat) ++ encodeFrames frames

/-- An operation on a journal and on the one that never drops a byte; a failed operation changes
neither. -/
def performBoth (j : DurableJournalFile) (files : Option Bytes × Option Bytes) (op : JournalOp) :
    Option Bytes × Option Bytes :=
  match j.perform files.1 op with
  | .ok file => (file, j.performUncompacted files.2 op)
  | .error _ => files

/-- A journal, and the same journal with the bytes before its base. -/
inductive Counterpart (j : DurableJournalFile) : Option Bytes × Option Bytes → Prop
  | missing : Counterpart j (none, none)
  | empty : Counterpart j (some [], some [])
  | file (base : UInt64) (dropped payload : Bytes) (length : dropped.length = base.toNat) :
    Counterpart j
      (some (j.encodeFileBytes base.toNat payload), some (j.encodeFileBytes 0 (dropped ++ payload)))

theorem compactThrough_encodeFileBytes
    (h : j.compactThrough (some (j.encodeFileBytes base.toNat payload)) offset = .ok file) :
    base.toNat ≤ offset.toNat ∧ offset.toNat ≤ base.toNat + payload.length ∧
      file = some (j.encodeFileBytes offset.toNat (payload.drop (offset.toNat - base.toNat))) := by
  have hlength := length_encodeFileBytes j base.toNat payload
  have hdecode := decodeFileHeader_encodeFileBytes (j := j) base payload
  have hdrop := drop_encodeFileBytes j base.toNat (offset.toNat - base.toNat) payload
  have hne := encodeFileBytes_ne_nil j base.toNat payload
  generalize hbytes : j.encodeFileBytes base.toNat payload = bytes at *
  match bytes, hne with
  | byte :: bytes, _ =>
    simp only [compactThrough, hdecode, ok_bind, hlength, hdrop, failIf_bind_eq_ok] at h
    obtain ⟨hbase, hend, h⟩ := h
    refine ⟨Nat.le_of_not_lt hbase, by omega, ?_⟩
    split at h
    · next hsame =>
      cases h
      rw [hsame, Nat.sub_self, drop_zero, hbytes]
    · cases h
      rfl

theorem replacementBytes_eq_ok {bytes : Bytes}
    (h : j.replacementBytes frames = .ok bytes) : bytes = encodeFrames frames := by
  induction frames generalizing bytes with
  | nil =>
    cases h
    rfl
  | cons frame frames ih =>
    simp only [replacementBytes, failIf_bind_eq_ok] at h
    obtain ⟨-, -, h⟩ := h
    obtain ⟨later, hlater, h⟩ := bind_eq_ok.mp h
    cases h
    rw [ih hlater, encodeFrames_cons]

theorem replaceFrom_encodeFileBytes {expected : UInt64} {file : Bytes}
    (h : j.replaceFrom (some (j.encodeFileBytes base.toNat payload)) offset expected frames =
      .ok file) :
    offset.toNat ≤ base.toNat + payload.length ∧
      file = j.encodeFileBytes offset.toNat (encodeFrames frames) := by
  have hlength := length_encodeFileBytes j base.toNat payload
  have hdecode := decodeFileHeader_encodeFileBytes (j := j) base payload
  simp only [replaceFrom, okOr_bind_eq_ok, some.injEq, exists_eq_left', hdecode, ok_bind, hlength,
    failIf_bind_eq_ok, checkedAdd_eq_some] at h
  obtain ⟨-, -, cleanLen, ⟨rfl, -⟩, -, hend, h⟩ := h
  obtain ⟨bytes, hbytes, h⟩ := bind_eq_ok.mp h
  cases h
  rw [replacementBytes_eq_ok hbytes]
  exact ⟨by omega, rfl⟩

/-- The bytes before a new base, beside what the journal keeps of its own. -/
theorem Counterpart.file_of_le (kept : Bytes) (hlength : dropped.length = base.toNat)
    (hend : offset.toNat ≤ base.toNat + payload.length) :
    j.Counterpart (some (j.encodeFileBytes offset.toNat kept),
      some (j.encodeFileBytes 0 ((dropped ++ payload).take offset.toNat ++ kept))) := by
  refine .file offset _ kept ?_
  rw [length_take, length_append]
  omega

theorem Counterpart.step {files : Option Bytes × Option Bytes} (h : j.Counterpart files)
    (op : JournalOp) : j.Counterpart (j.performBoth files op) := by
  unfold performBoth
  cases hop : j.perform files.1 op with
  | error e => exact h
  | ok file =>
    cases op with
    | append frame =>
      obtain ⟨bytes, hbytes, ⟨⟩⟩ := bind_eq_ok.mp hop
      have hfresh : j.appendFrame none frame = .ok bytes →
          j.Counterpart (some bytes, some bytes) := by
        rw [@appendFrame_fresh j 0 _ (.inl ⟨rfl, rfl⟩), appendFrame_encodeFileBytes]
        rintro ⟨-, rfl⟩
        exact .file 0 [] _ rfl
      cases h with
      | missing =>
        rw [performUncompacted, hbytes]
        exact hfresh hbytes
      | empty =>
        -- An empty file is taken for a missing one.
        rw [performUncompacted, hbytes]
        exact hfresh hbytes
      | file base dropped payload length =>
        obtain ⟨hvalid, rfl⟩ := appendFrame_encodeFileBytes.mp hbytes
        have hwhole := (@appendFrame_encodeFileBytes j (dropped ++ payload) _ 0 _).mpr ⟨hvalid, rfl⟩
        rw [UInt64.toNat_zero] at hwhole
        rw [performUncompacted, hwhole, append_assoc]
        exact .file base dropped _ length
    | compactThrough offset =>
      cases h with
      | missing =>
        obtain ⟨-, ⟨⟩⟩ := failIf_bind_eq_ok.mp hop
        exact .missing
      | empty =>
        obtain ⟨-, ⟨⟩⟩ := failIf_bind_eq_ok.mp hop
        exact .empty
      | file base dropped payload length =>
        obtain ⟨hbase, hend, rfl⟩ := compactThrough_encodeFileBytes hop
        have hmoved := Counterpart.file_of_le (j := j)
          (payload.drop (offset.toNat - base.toNat)) length hend
        rw [take_append, take_of_length_le (by omega), length, append_assoc,
          take_append_drop] at hmoved
        exact hmoved
    | replaceFrom offset expected frames =>
      obtain ⟨bytes, hbytes, ⟨⟩⟩ := bind_eq_ok.mp hop
      cases h with
      | missing => cases hbytes
      | empty =>
        simp only [replaceFrom, okOr, ok_bind] at hbytes
        obtain ⟨base, -, hbytes⟩ := bind_eq_ok.mp hbytes
        obtain ⟨-, hbytes⟩ := failIf_bind_eq_ok.mp hbytes
        obtain ⟨hlong, -⟩ := failIf_bind_eq_ok.mp hbytes
        simp only [headerLen, checksumLen, length_nil] at hlong
        omega
      | file base dropped payload length =>
        obtain ⟨hend, rfl⟩ := replaceFrom_encodeFileBytes hbytes
        rw [performUncompacted, map_some, take_encodeFileBytes,
          encodeFileBytes.eq_1 j 0, append_assoc]
        exact Counterpart.file_of_le _ length hend

/-- The status of a written file. -/
theorem statusOffsets_encodeFileBytes (base : UInt64) (payload : Bytes)
    (hend : base.toNat + payload.length < 2 ^ 64) :
    j.statusOffsets (some (j.encodeFileBytes base.toNat payload)) =
      .ok ⟨base.toNat, base.toNat + payload.length⟩ := by
  have hlength := length_encodeFileBytes j base.toNat payload
  have hread := readFileBaseOffset_encodeFileBytes (j := j) base payload
  simp only [statusOffsets, getD_some, if_neg (encodeFileBytes_ne_nil j _ _), hread, ok_bind,
    hlength, Nat.add_sub_cancel_left]
  rw [failIf_of_not (by omega), ok_bind, okOr_bind_eq_ok]
  exact ⟨_, checkedAdd_eq_some.mpr ⟨rfl, hend⟩, rfl⟩

/-- A frame appended to a written file is read back at the file's logical end. -/
theorem readFramesFrom_appendFrame (hvalid : ValidFrame frame) (base : UInt64) (payload : Bytes)
    (hend : base.toNat + payload.length + (encodeFrame frame).length < 2 ^ 64) :
    ∃ file, j.appendFrame (some (j.encodeFileBytes base.toNat payload)) frame = .ok file ∧
      j.readFramesFrom (some file) (base.toNat + payload.length) =
        .ok ⟨[frame], base.toNat + payload.length + (encodeFrame frame).length, false⟩ := by
  refine ⟨_, appendFrame_encodeFileBytes.mpr ⟨hvalid, rfl⟩, ?_⟩
  have hsingle : encodeFrames [frame] = encodeFrame frame := append_nil _
  have hread := readFramesFrom_frames (j := j) base payload []
    (forall_mem_singleton.mpr hvalid) (forall_mem_nil _) (.inl rfl) (hsingle.symm ▸ hend)
  rw [hsingle, append_nil] at hread
  exact hread

/-- At every offset at or above its base a journal reads as its counterpart. -/
theorem readFramesFrom_counterpart {offset : Nat}
    (hlength : dropped.length = base.toNat) (hbase : base.toNat ≤ offset) :
    (j.readFramesFrom (some (j.encodeFileBytes base.toNat payload)) offset).toOption =
      (j.readFramesFrom (some (j.encodeFileBytes 0 (dropped ++ payload))) offset).toOption := by
  obtain ⟨e, hkept⟩ := readFramesFrom_encodeFileBytes (j := j) base payload hbase
  obtain ⟨e', hwhole⟩ := readFramesFrom_encodeFileBytes (j := j) 0 (dropped ++ payload)
    (Nat.zero_le offset)
  simp only [UInt64.toNat_zero, Nat.zero_add, Nat.sub_zero, length_append, hlength] at hwhole
  rw [hkept, hwhole]
  by_cases hend : base.toNat + payload.length < offset
  · rw [if_pos hend, if_pos hend]
    rfl
  · have hdrop : (dropped ++ payload).drop offset = payload.drop (offset - base.toNat) := by
      rw [drop_append, drop_of_length_le (by omega), hlength, nil_append]
    have hfuel : base.toNat + payload.length + 1 - offset =
        payload.length + 1 - (offset - base.toNat) := by omega
    rw [if_neg hend, if_neg hend, hdrop, hfuel]

end DurableJournalFile

end Argmin.Storage
