import Argmin.Crypto.Opening

/-!
# Openers that reuse a buffer

The window opener and the one-shot opener decrypt inside the buffer that holds the ciphertext and
move each plaintext down to the end of what was opened before.

* `writeAt_copyWithin` — one such move: the opened prefix grows and the records that are still to
  be read stay as they were;
* `feed_cases` — any call that hands bytes to a streaming opener, be it an update, one record or a
  window of whole records, goes on to the state after these bytes or fails for good;
* `opened_of_finish_feeds`, `feeds_of_opened` — what a row of calls accepts.
-/

namespace Argmin.Crypto

open Fallible Blocks Cobblestone256MessageLayout List Nat

/-! ### Moving a plaintext down -/

section Buffer

variable {buffer bytes : Bytes} {offset n : Nat}

theorem take_writeAt (h : offset ≤ buffer.length) :
    (writeAt buffer offset bytes).take (offset + bytes.length) = buffer.take offset ++ bytes := by
  have hlength : (buffer.take offset ++ bytes).length = offset + bytes.length := by
    rw [length_append, length_take, min_eq_left h]
  rw [writeAt, take_append_of_le_length (le_of_eq hlength.symm),
    take_of_length_le (le_of_eq hlength)]

theorem drop_writeAt_start (h : offset ≤ buffer.length) :
    (writeAt buffer offset bytes).drop offset = bytes ++ buffer.drop (offset + bytes.length) := by
  have hlength : (buffer.take offset).length = offset := by
    rw [length_take, min_eq_left h]
  rw [writeAt, append_assoc, drop_append_of_le_length (le_of_eq hlength.symm),
    drop_of_length_le (le_of_eq hlength), nil_append]

theorem take_writeAt_of_le (h : offset ≤ buffer.length) (hn : n ≤ offset) :
    (writeAt buffer offset bytes).take n = buffer.take n := by
  rw [writeAt, append_assoc, take_append_of_le_length, take_take,
    min_eq_left hn]
  rw [length_take]
  omega

theorem drop_writeAt (h : offset ≤ buffer.length) (hn : offset + bytes.length ≤ n) :
    (writeAt buffer offset bytes).drop n = buffer.drop n := by
  have hlength : (buffer.take offset ++ bytes).length = offset + bytes.length := by
    rw [length_append, length_take, min_eq_left h]
  rw [writeAt, drop_append, drop_of_length_le (hlength ▸ hn), nil_append, hlength,
    drop_drop]
  congr 1
  omega

theorem length_writeAt (h : offset + bytes.length ≤ buffer.length) :
    (writeAt buffer offset bytes).length = buffer.length := by
  rw [writeAt, length_append, length_append, length_take, length_drop]
  omega

/-- **A plaintext is moved down.**  It is written over its record at `input` and copied to `output`:
it then follows the first `output` bytes, and what is behind the record has not changed. -/
theorem writeAt_copyWithin {plaintext : Bytes} {input output recordLen : Nat}
    (hmoves : output ≤ input) (hshort : plaintext.length ≤ recordLen)
    (hrecord : input + recordLen ≤ buffer.length) :
    let moved := copyWithin (writeAt buffer input plaintext) input plaintext.length output
    moved.length = buffer.length ∧
      moved.take (output + plaintext.length) = buffer.take output ++ plaintext ∧
      moved.drop (input + recordLen) = buffer.drop (input + recordLen) := by
  intro moved
  have hinput : input ≤ buffer.length := by omega
  have hwritten : (writeAt buffer input plaintext).length = buffer.length :=
    length_writeAt (by omega)
  have hcopied : ((writeAt buffer input plaintext).drop input).take plaintext.length =
      plaintext := by
    rw [drop_writeAt_start hinput, take_append_of_le_length (le_refl _), take_length]
  have hmoved : moved = writeAt (writeAt buffer input plaintext) output plaintext := by
    show writeAt _ _ _ = _
    rw [hcopied]
  rw [hmoved]
  refine ⟨?_, ?_, ?_⟩
  · rw [length_writeAt (by omega), hwritten]
  · rw [take_writeAt (by omega), take_writeAt_of_le hinput hmoves]
  · rw [drop_writeAt (by omega) (by omega), drop_writeAt hinput (by omega)]

/-- A plaintext that is written over its record need not be moved when nothing was cut off before
it. -/
theorem copyWithin_self {start : Nat} (h : start ≤ buffer.length) :
    copyWithin buffer start n start = buffer := by
  rw [copyWithin, writeAt, length_take, length_drop, append_assoc]
  rcases le_total n (buffer.length - start) with hle | hle
  · rw [min_eq_left hle, ← drop_drop, take_append_drop, take_append_drop]
  · rw [min_eq_right hle, take_of_length_le (l := buffer.drop start)
      (by rw [length_drop]; exact hle),
      Nat.add_sub_cancel' h, drop_length, append_nil, take_append_drop]

/-- A part of the buffer that is copied to its start. -/
theorem take_copyWithin_zero {start : Nat} (h : start + n ≤ buffer.length) :
    (copyWithin buffer start n 0).take n = (buffer.drop start).take n := by
  have hlength : ((buffer.drop start).take n).length = n := by
    rw [length_take, length_drop]
    omega
  have htake := @take_writeAt buffer ((buffer.drop start).take n) 0 (Nat.zero_le _)
  rw [hlength, Nat.zero_add, take_zero, nil_append] at htake
  exact htake

end Buffer

section Windows

variable {P : Primitives} {inputKey context : Bytes} {layout : Cobblestone256MessageLayout}
  {opener : Cobblestone256Opener P} {opened : List (Bytes × Bytes)}
  {stream : Cobblestone256StreamOpener P} {fed output window : Bytes}

/-! ### Where records start -/

theorem offset_strictMono (hlayout : layout.Canonical) : StrictMono (offset layout.recordLen) :=
  strictMono_nat_of_lt_succ fun m => Nat.lt_add_of_pos_right (hlayout.recordLen_pos m)

/-- `n` is the end of the header or of a record. -/
def Cobblestone256MessageLayout.Boundary (layout : Cobblestone256MessageLayout) (n : Nat) : Prop :=
  ∃ i ≤ layout.chunkCount, n = cobblestoneHeaderLen + offset layout.recordLen i

namespace Cobblestone256StreamOpener

/-- A call went on to the state after `fed`; or the opener has failed for good, and the call was not
one for `whole` records or the bytes are the start of no complete message. -/
def WindowGoes (inputKey context : Bytes) (layout : Cobblestone256MessageLayout)
    (fed output : Bytes)
    (whole : Prop) (call : Call (Cobblestone256StreamOpener P)) : Prop :=
  call.result = .ok () ∧ Fed inputKey context layout call.self fed (output ++ call.output) ∨
    call.result ≠ .ok () ∧ call.self.failed = true ∧
      (whole → ∀ ciphertext plaintext,
        Opened P inputKey context layout ciphertext plaintext → ¬fed <+: ciphertext)

variable {whole : Prop} {input ciphertextLen : Nat} {record : Bytes} {calls : List Feed}

theorem WindowGoes.fail
    (h : whole → ∀ ciphertext plaintext,
      Opened P inputKey context layout ciphertext plaintext → ¬fed <+: ciphertext) :
    WindowGoes inputKey context layout fed output whole (stream.fail []) :=
  .inr ⟨nofun, rfl, h⟩

theorem WindowGoes.mono {call : Call (Cobblestone256StreamOpener P)} {whole' : Prop}
    (h : WindowGoes inputKey context layout fed output whole call) (hmono : whole' → whole) :
    WindowGoes inputKey context layout fed output whole' call :=
  h.imp_right fun ⟨hresult, hfailed, hnot⟩ => ⟨hresult, hfailed, fun hwhole => hnot (hmono hwhole)⟩

theorem WindowGoes.done {bytes : Bytes} (hend : window.length ≤ input)
    (h : InBody inputKey context layout stream opener opened (fed ++ window.take input)
      (output ++ bytes)) :
    WindowGoes inputKey context layout (fed ++ window) output whole ⟨stream, bytes, .ok ()⟩ := by
  rw [take_of_length_le hend] at h
  exact .inl ⟨rfl, .inr ⟨opener, opened, h⟩⟩

/-- The opener after it has opened a record that does not go through its buffer. -/
theorem InBody.opensRecord (h : InBody inputKey context layout stream opener opened fed output)
    (hpending : stream.pending = []) {opening : Bytes}
    (hopen : opener.openChunk layout opened.length record = .ok opening) :
    InBody inputKey context layout
      { stream with
        consumed := stream.consumed + record.length
        nextChunk := stream.nextChunk + 1 } opener
      (opened ++ [(record, opening)]) (fed ++ record) (output ++ opening) := by
  have hopens : opener.openChunk layout opened.length (stream.pending ++ record) = .ok opening := by
    rw [hpending]
    exact hopen
  have hnext := h.opensNext hopens
  rw [hpending, nil_append] at hnext
  have heq : { stream with
      pending := []
      consumed := stream.consumed + record.length
      nextChunk := stream.nextChunk + 1 } = { stream with
        consumed := stream.consumed + record.length
        nextChunk := stream.nextChunk + 1 } := by
    rw [← hpending]
  rw [heq] at hnext
  exact hnext

variable (hlayout : layout.Canonical)
include hlayout

theorem InBody.length_eq (h : InBody inputKey context layout stream opener opened fed output)
    (hpending : stream.pending = []) :
    fed.length = cobblestoneHeaderLen + offset layout.recordLen opened.length := by
  rw [h.splits.length_eq hlayout, hpending]
  rfl

/-- The records of a window are opened one by one.  The invariant: the bytes of `buffer` from
`input` on are still those of the window, and its first `out` bytes are what the records before
opened to. -/
theorem windowLoop_cases {buffer : Bytes} {fuel out : Nat}
    (hfuel : buffer.length - input ≤ fuel) (hpending : stream.pending = [])
    (hlength : buffer.length = window.length) (hinput : input ≤ window.length) (hout : out ≤ input)
    (hrest : buffer.drop input = window.drop input)
    (h : InBody inputKey context layout stream opener opened (fed ++ window.take input)
      (output ++ buffer.take out)) :
    WindowGoes inputKey context layout (fed ++ window) output
      (layout.Boundary (fed ++ window).length) (stream.windowLoop fuel buffer input out) := by
  induction fuel generalizing stream opened buffer input out with
  | zero => exact .done (by omega) h
  | succ fuel ih =>
    unfold windowLoop
    split
    · next hle => exact .done (hlength ▸ hle) h
    · next hmore =>
      have hposition := h.length_eq hlayout hpending
      have hsplit : fed ++ window = fed ++ window.take input ++ window.drop input := by
        rw [append_assoc, take_append_drop]
      have htail : window.drop input ≠ [] := by
        intro hnil
        have := drop_eq_nil_iff.mp hnil
        omega
      rw [h.sameLayout, h.nextChunk]
      by_cases hcount : opened.length < layout.chunkCount
      · rw [hlayout.ciphertextRangeForChunk_eq hcount]
        dsimp only
        rw [Range.len_mk_add]
        have hstart : stream.consumed = recordStart opened.length := by
          rw [h.consumed, hposition, recordStart_eq_offset hcount]
        by_cases henough : buffer.length < input + layout.recordLen opened.length
        · -- the window ends inside a record
          rw [if_pos (.inr henough)]
          refine .fail fun hboundary => ?_
          obtain ⟨j, -, hj⟩ := hboundary
          have htotal : (fed ++ window).length =
              (fed ++ window.take input).length + (window.length - input) := by
            rw [length_append, length_append, length_take]
            omega
          have hlt : offset layout.recordLen opened.length < offset layout.recordLen j := by omega
          have hle := offset_add_le layout.recordLen ((offset_strictMono hlayout).lt_iff_lt.mp hlt)
          omega
        · rw [if_neg (by rw [not_or]; exact ⟨not_not_intro hstart, henough⟩), h.verified]
          dsimp only
          have hrecord : ((buffer.drop input).take (layout.recordLen opened.length)).length =
              layout.recordLen opened.length := by
            rw [length_take, length_drop]
            omega
          cases hopen : opener.openChunk layout opened.length
              ((buffer.drop input).take (layout.recordLen opened.length)) with
          | error e =>
            refine .fail fun _ ciphertext plaintext hopened hinit => ?_
            rw [hsplit] at hinit
            have hbytes : layout.recordLen opened.length ≤
                (stream.pending ++ window.drop input).length := by
              rw [hpending, ← hrest, nil_append, length_drop]
              omega
            obtain ⟨opening, hopening⟩ :=
              h.openChunk_of_prefix hlayout hcount hbytes hopened hinit
            rw [hpending, nil_append, ← hrest, hopen] at hopening
            cases hopening
          | ok opening =>
            have hshort : opening.length ≤ layout.recordLen opened.length := by
              obtain ⟨-, -, nonce, -, hopened⟩ := openChunk_eq_ok hlayout hopen
              exact hrecord ▸ P.length_open_le hopened
            have hnext := h.opensRecord hpending hopen
            obtain ⟨hkept, hopenedNow, hbehind⟩ := writeAt_copyWithin
              hout hshort (not_lt.mp henough)
            have hmoved : (if out ≠ input then
                copyWithin (writeAt buffer input opening) input opening.length out
              else writeAt buffer input opening) =
                copyWithin (writeAt buffer input opening) input opening.length out := by
              split
              · rfl
              · next hsame =>
                have hwritten : (writeAt buffer input opening).length = buffer.length :=
                  length_writeAt (by omega)
                rw [Decidable.not_not.mp hsame, copyWithin_self (by omega)]
            dsimp only
            rw [hmoved]
            rw [hrecord, hstart, append_assoc, append_assoc, ← hopenedNow, hrest,
              ← take_add, h.nextChunk, h.sameLayout, h.verified] at hnext
            have hpos := hlayout.recordLen_pos opened.length
            refine ih ?_ hpending ?_ ?_ ?_ ?_ hnext
            · omega
            · omega
            · omega
            · omega
            · rw [hbehind, ← drop_drop, hrest, drop_drop]
      · rw [ciphertextRangeForChunk_of_le (not_lt.mp hcount)]
        refine .fail fun _ ciphertext plaintext hopened hinit => ?_
        rw [hsplit] at hinit
        exact h.not_prefix_of_le hlayout (not_lt.mp hcount) htail hopened hinit

/-- Bytes that are handed over in windows start where a record starts. -/
def Whole (layout : Cobblestone256MessageLayout) (fed window : Bytes) : Prop :=
  fed = [] ∧ window.length = cobblestoneHeaderLen ∨
    window ≠ [] ∧ layout.Boundary fed.length ∧ layout.Boundary (fed ++ window).length

/-- Between records nothing is pending. -/
theorem Fed.pending_of_boundary
    (h : Fed inputKey context layout stream fed output) (hboundary : layout.Boundary fed.length) :
    stream.pending = [] := by
  obtain ⟨i, -, hi⟩ := hboundary
  rcases h with h | ⟨opener, opened, h⟩
  · have := h.short
    omega
  · by_contra hpending
    obtain ⟨-, hshort⟩ := h.short.resolve_left hpending
    have hlength := h.splits.length_eq hlayout
    have hsome : 0 < stream.pending.length := length_pos_iff.mpr hpending
    have hlt : offset layout.recordLen opened.length < offset layout.recordLen i := by omega
    have hle := offset_add_le layout.recordLen ((offset_strictMono hlayout).lt_iff_lt.mp hlt)
    omega

omit hlayout

theorem takeHeader_consumed (header : Bytes) (n : Nat) :
    { stream with consumed := n }.takeHeader header output =
      ⟨{ (stream.takeHeader header output).self with consumed := n },
        (stream.takeHeader header output).output, (stream.takeHeader header output).result⟩ := by
  unfold takeHeader
  dsimp only
  split
  · rfl
  · split
    · rfl
    · rfl

theorem Whole.not_inHeader (h : InHeader inputKey context layout stream fed output)
    (hwhole : Whole layout fed window) :
    fed = [] ∧ window.length = cobblestoneHeaderLen := by
  refine hwhole.resolve_right fun ⟨_, ⟨i, _, hi⟩, _⟩ => ?_
  have := h.short
  omega

theorem InHeader.window_cases (h : InHeader inputKey context layout stream fed output) :
    WindowGoes inputKey context layout (fed ++ window) output (Whole layout fed window)
      (stream.openNextWindowOwned window) := by
  unfold openNextWindowOwned
  split
  · next hrefused =>
    refine .fail fun hwhole => ?_
    obtain ⟨rfl, hheader⟩ := hwhole.not_inHeader h
    rw [h.failed, h.finished, h.pending] at hrefused
    simp only [Bool.false_eq_true, false_or, ne_eq, not_true_eq_false] at hrefused
    rw [hrefused] at hheader
    cases hheader
  · rw [if_pos (by rw [h.unverified]; rfl)]
    split
    · next hrefused =>
      refine .fail fun hwhole => ?_
      obtain ⟨rfl, hheader⟩ := hwhole.not_inHeader h
      rw [h.consumed] at hrefused
      exact absurd hheader (hrefused.resolve_left (not_not_intro rfl))
    · next haccepted =>
      rw [not_or, Decidable.not_not, Decidable.not_not, h.consumed,
        length_eq_zero_iff] at haccepted
      obtain ⟨rfl, hheader⟩ := haccepted
      obtain rfl := h.noOutput
      have htaken := @takeHeader_cases P inputKey context layout
        { stream with consumed := cobblestoneHeaderLen } [] window h.key
        { h.toLive with consumed := hheader.symm } h.nextChunk hheader rfl
      rw [takeHeader_consumed] at htaken
      rcases htaken with ⟨opener, hok, houtput, hbody⟩ | ⟨herror, hfailed, hnot⟩
      · dsimp only at hok houtput
        rw [Call.andThen_of_ok hok, houtput]
        exact .inl ⟨rfl, .inr ⟨opener, [], hbody⟩⟩
      · have hresult : (stream.takeHeader window []).result ≠ .ok () := herror
        rw [Call.andThen_of_error hresult]
        refine .inr ⟨herror, hfailed, fun _ ciphertext plaintext hopened hinit => ?_⟩
        exact hnot [] ciphertext plaintext hopened (by rw [append_nil]; exact hinit)

include hlayout

theorem InBody.window_cases (h : InBody inputKey context layout stream opener opened fed output) :
    WindowGoes inputKey context layout (fed ++ window) output (Whole layout fed window)
      (stream.openNextWindowOwned window) := by
  have hbegun : cobblestoneHeaderLen ≤ fed.length := by
    rw [h.splits.length_eq hlayout]
    omega
  unfold openNextWindowOwned
  split
  · next hrefused =>
    refine .fail fun hwhole => ?_
    rcases hwhole with ⟨rfl, -⟩ | ⟨hwindow, hboundary, -⟩
    · exact absurd hbegun (by decide)
    · rw [h.failed, h.finished] at hrefused
      have hpending := Fed.pending_of_boundary hlayout (.inr ⟨opener, opened, h⟩) hboundary
      simp only [Bool.false_eq_true, false_or] at hrefused
      exact absurd (hrefused.resolve_left (not_not_intro hpending)) hwindow
  · next haccepted =>
    have hpending : stream.pending = [] := by
      by_contra hpending
      exact haccepted (.inr (.inr (.inl hpending)))
    rw [if_neg (by rw [h.verified]; exact Bool.false_ne_true)]
    have hstart : InBody inputKey context layout stream opener opened (fed ++ window.take 0)
        (output ++ window.take 0) := by
      rw [take_zero, append_nil, append_nil]
      exact h
    have hgoes := windowLoop_cases hlayout (sub_le window.length 0) hpending rfl
      (zero_le _) (le_refl _) rfl hstart
    refine hgoes.mono fun hwhole => ?_
    rcases hwhole with ⟨rfl, -⟩ | ⟨-, -, hend⟩
    · exact absurd hbegun (by decide)
    · exact hend

variable (h : Fed inputKey context layout stream fed output)
include h

theorem openNextWindowOwned_cases :
    WindowGoes inputKey context layout (fed ++ window) output (Whole layout fed window)
      (stream.openNextWindowOwned window) := by
  rcases h with h | ⟨opener, opened, h⟩
  · exact h.window_cases
  · exact h.window_cases hlayout

/-- The header, or exactly one record. -/
def Single (layout : Cobblestone256MessageLayout) (fed record : Bytes) : Prop :=
  fed = [] ∧ record.length = cobblestoneHeaderLen ∨
    ∃ i < layout.chunkCount, fed.length = cobblestoneHeaderLen + offset layout.recordLen i ∧
      record.length = layout.recordLen i

omit h in
theorem Single.toWhole (h : Single layout fed record) : Whole layout fed record := by
  rcases h with h | ⟨i, hi, hfed, hrecord⟩
  · exact .inl h
  · refine .inr ⟨?_, ⟨i, le_of_lt hi, hfed⟩, ⟨i + 1, hi, ?_⟩⟩
    · intro hnil
      have hpos := hlayout.recordLen_pos i
      rw [hnil] at hrecord
      exact absurd hrecord (Nat.ne_of_lt hpos)
    · rw [length_append, hfed, hrecord, offset, Nat.add_assoc]

/-- A record is opened as a window of one record. -/
theorem openNextOwned_eq_window : stream.openNextOwned record = stream.openNextWindowOwned record ∨
      stream.openNextOwned record = stream.fail [] ∧ ¬Single layout fed record := by
  unfold openNextOwned
  by_cases hrefused : stream.failed ∨ stream.finished ∨ stream.pending ≠ []
  · left
    have hwindow : stream.failed ∨ stream.finished ∨ stream.pending ≠ [] ∨ record = [] := by tauto
    rw [openNextWindowOwned, if_pos hrefused, if_pos hwindow]
  · rw [if_neg hrefused]
    rcases h with h | ⟨opener, opened, h⟩
    · left
      have hnone : stream.opener.isNone = true := by rw [h.unverified]; rfl
      by_cases hnil : record = []
      · have hempty : stream.consumed ≠ 0 ∨ record.length ≠ cobblestoneHeaderLen := by
          rw [hnil]
          exact .inr (by decide)
        rw [openNextWindowOwned, if_pos hnone, if_pos hempty, if_pos (by tauto)]
      · have htaken : ¬(stream.failed ∨ stream.finished ∨ stream.pending ≠ [] ∨ record = []) := by
          tauto
        rw [openNextWindowOwned, if_pos hnone, if_neg htaken, if_pos hnone]
    · have hpending : stream.pending = [] := by tauto
      have hposition := h.length_eq hlayout hpending
      rw [if_neg (by rw [h.verified]; exact Bool.false_ne_true), h.sameLayout, h.nextChunk]
      have hsingle : Single layout fed record → opened.length < layout.chunkCount ∧
          record.length = layout.recordLen opened.length := by
        rintro (⟨rfl, -⟩ | ⟨i, hi, hfed, hrecord⟩)
        · exact absurd (le.intro hposition.symm) (by decide)
        · have heq : offset layout.recordLen opened.length = offset layout.recordLen i := by omega
          obtain rfl := (offset_strictMono hlayout).injective heq
          exact ⟨hi, hrecord⟩
      by_cases hcount : opened.length < layout.chunkCount
      · rw [hlayout.ciphertextRangeForChunk_eq hcount]
        dsimp only
        split
        · next hbad =>
          refine .inr ⟨rfl, fun hone => ?_⟩
          have hstart : stream.consumed = recordStart opened.length := by
            rw [h.consumed, hposition, recordStart_eq_offset hcount]
          rw [Range.len_mk_add] at hbad
          exact hbad.resolve_left (not_not_intro hstart) (hsingle hone).2
        · exact .inl rfl
      · rw [ciphertextRangeForChunk_of_le (not_lt.mp hcount)]
        exact .inr ⟨rfl, fun hone => hcount (hsingle hone).1⟩

theorem openNextOwned_cases :
    WindowGoes inputKey context layout (fed ++ record) output (Single layout fed record)
      (stream.openNextOwned record) := by
  rcases openNextOwned_eq_window hlayout h with heq | ⟨hfail, hnot⟩
  · rw [heq]
    exact (openNextWindowOwned_cases hlayout h).mono (Single.toWhole hlayout)
  · rw [hfail]
    exact .fail fun hone => absurd hone hnot

/-! ### Rows of calls -/

/-- A call that hands bytes to a streaming opener. -/
inductive Feed
  | update (ciphertext : Bytes)
  | next (record : Bytes)
  | window (records : Bytes)

def Feed.bytes : Feed → Bytes
  | .update ciphertext => ciphertext
  | .next record => record
  | .window records => records

/-- The call, with the plaintext put behind what was put out before. -/
def feed (stream : Cobblestone256StreamOpener P) (output : Bytes) :
    Feed → Call (Cobblestone256StreamOpener P)
  | .update ciphertext => stream.update ciphertext output
  | .next record =>
    let call := stream.openNextOwned record
    ⟨call.self, output ++ call.output, call.result⟩
  | .window records =>
    let call := stream.openNextWindowOwned records
    ⟨call.self, output ++ call.output, call.result⟩

/-- The call is given the bytes it takes: one record, or whole records, after the bytes `fed`. -/
def Feed.Fits (layout : Cobblestone256MessageLayout) (fed : Bytes) : Feed → Prop
  | .update _ => True
  | .next record => Single layout fed record
  | .window records => Whole layout fed records

/-- **One call.**  It goes on to the state after its bytes.  Otherwise the opener has failed, and
either the bytes were not the whole records that the call takes or they are the start of no complete
message. -/
theorem feed_cases (call : Feed) : (stream.feed output call).result = .ok () ∧
        Fed inputKey context layout (stream.feed output call).self (fed ++ call.bytes)
          (stream.feed output call).output ∨
      (stream.feed output call).result ≠ .ok () ∧ (stream.feed output call).self.failed = true ∧
        (call.Fits layout fed → ∀ ciphertext plaintext,
          Opened P inputKey context layout ciphertext plaintext →
            ¬fed ++ call.bytes <+: ciphertext) := by
  cases call with
  | update ciphertext =>
    refine (update_cases hlayout h).imp_right fun ⟨hresult, hfailed, hnot⟩ => ?_
    exact ⟨hresult, hfailed, fun _ => hnot⟩
  | next record => exact openNextOwned_cases hlayout h
  | window records => exact openNextWindowOwned_cases hlayout h

/-- A row of calls.  The caller may go on after an error; the result is the first one. -/
def feeds (stream : Cobblestone256StreamOpener P) (output : Bytes) :
    List Feed → Call (Cobblestone256StreamOpener P)
  | [] => ⟨stream, output, .ok ()⟩
  | call :: rest =>
    let done := stream.feed output call
    let more := done.self.feeds done.output rest
    ⟨more.self, more.output, done.result >>= fun _ => more.result⟩

/-- The bytes of a row of calls. -/
def bytesOf (calls : List Feed) : Bytes := (calls.map Feed.bytes).flatten

/-- Every call is given the bytes it takes. -/
def AllFit (layout : Cobblestone256MessageLayout) (fed : Bytes) : List Feed → Prop
  | [] => True
  | call :: rest => call.Fits layout fed ∧ AllFit layout (fed ++ call.bytes) rest

omit hlayout

omit h

theorem bytesOf_cons (call : Feed) (rest : List Feed) :
    bytesOf (call :: rest) = call.bytes ++ bytesOf rest := rfl

/-- A failed opener stays failed. -/
theorem feed_of_failed (h : stream.failed = true) (call : Feed) :
    (stream.feed output call).self.failed = true := by
  cases call with
  | update ciphertext =>
    show (stream.update ciphertext output).self.failed = true
    rw [update, if_pos (.inl h)]
    rfl
  | next record =>
    show (stream.openNextOwned record).self.failed = true
    rw [openNextOwned, if_pos (.inl h)]
    rfl
  | window records =>
    show (stream.openNextWindowOwned records).self.failed = true
    rw [openNextWindowOwned, if_pos (.inl h)]
    rfl

theorem feeds_of_failed (h : stream.failed = true) (calls : List Feed) :
    (stream.feeds output calls).self.failed = true := by
  induction calls generalizing stream output with
  | nil => exact h
  | cons call rest ih => exact ih (feed_of_failed h call)

include hlayout

/-- **A row of calls** goes on to the state after its bytes, or the opener has failed; when every
call was given the bytes it takes, the latter means that they are the start of no complete
message. -/
theorem feeds_cases (h : Fed inputKey context layout stream fed output) :
    (stream.feeds output calls).result = .ok () ∧
        Fed inputKey context layout (stream.feeds output calls).self (fed ++ bytesOf calls)
          (stream.feeds output calls).output ∨
      (stream.feeds output calls).self.failed = true ∧
        (AllFit layout fed calls → ∀ ciphertext plaintext,
          Opened P inputKey context layout ciphertext plaintext →
            ¬fed ++ bytesOf calls <+: ciphertext) := by
  induction calls generalizing stream fed output with
  | nil =>
    refine .inl ⟨rfl, ?_⟩
    show Fed inputKey context layout stream (fed ++ []) output
    rw [append_nil]
    exact h
  | cons call rest ih =>
    rw [bytesOf_cons, ← append_assoc]
    rcases feed_cases hlayout h call with ⟨hok, hfed⟩ | ⟨-, hfailed, hnot⟩
    · refine (ih hfed).imp (fun ⟨hrest, hstate⟩ => ⟨?_, hstate⟩)
        (fun ⟨hfailed, hnot⟩ => ⟨hfailed, fun hfits => hnot hfits.2⟩)
      show (stream.feed output call).result >>= _ = _
      rw [hok, ok_bind, hrest]
    · refine .inr ⟨feeds_of_failed hfailed rest, fun hfits ciphertext plaintext hopened hinit => ?_⟩
      exact hnot hfits.1 ciphertext plaintext hopened ((prefix_append ..).trans hinit)

/-- An opener that has taken a complete message has opened all its records. -/
theorem InBody.all_opened (h : InBody inputKey context layout stream opener opened fed output)
    (hlength : fed.length = layout.ciphertextLen) :
    stream.pending = [] ∧ opened.length = layout.chunkCount := by
  have hsplit := h.splits.length_eq hlayout
  have hend := offset_chunkCount hlayout
  rcases h.short with hpending | ⟨hcount, hshort⟩
  · rw [hpending, length_nil] at hsplit
    exact ⟨hpending, (offset_strictMono hlayout).injective (by omega)⟩
  · have hle := offset_add_le layout.recordLen hcount
    omega

theorem not_inHeader_of_length (hlength : fed.length = layout.ciphertextLen) :
    ¬InHeader inputKey context layout stream fed output := by
  intro h
  have hend := offset_chunkCount hlayout
  have hshort := h.short
  omega

/-- An opener that has not failed has opened what it was fed, once all of it has arrived. -/
theorem Fed.toOpened (h : Fed inputKey context layout stream fed output)
    (hlength : fed.length = layout.ciphertextLen) :
    Opened P inputKey context layout fed output := by
  obtain ⟨opener, opened, h⟩ := h.resolve_left (not_inHeader_of_length hlayout hlength)
  obtain ⟨hpending, hcount⟩ := h.all_opened hlayout hlength
  have hsplits := h.splits
  rw [hpending] at hsplits
  exact ⟨opener, opened, hsplits, hcount, h.plaintext⟩

/-- The opener finishes exactly when all of the message has arrived. -/
theorem finish_eq_ok (h : Fed inputKey context layout stream fed output) :
    stream.finish.result = .ok () ↔ fed.length = layout.ciphertextLen := by
  have hlive := h.live
  unfold finish
  constructor
  · intro hresult
    split at hresult
    · cases hresult
    · next haccepted =>
      simp only [not_or, Decidable.not_not] at haccepted
      rw [← hlive.consumed, ← hlive.sameLayout]
      exact haccepted.2.2.1
  · intro hlength
    obtain ⟨opener, opened, h⟩ := h.resolve_left (not_inHeader_of_length hlayout hlength)
    obtain ⟨hpending, hcount⟩ := h.all_opened hlayout hlength
    rw [h.failed, h.finished, h.consumed, h.sameLayout, h.nextChunk, hpending, hlength, hcount]
    simp

omit hlayout

theorem fed_new (h : new inputKey context ciphertextLen = .ok stream) :
    ∃ layout, fromCiphertextLen ciphertextLen = .ok layout ∧
      Fed inputKey context layout stream [] [] := by
  obtain ⟨layout, hlayout, h⟩ := bind_eq_ok.mp h
  cases h
  exact ⟨layout, hlayout, .inl ⟨⟨rfl, rfl, rfl, rfl, rfl⟩, rfl, rfl, rfl, by decide, rfl, rfl⟩⟩

/-- **What a row of calls accepts is a complete message.**  Whatever length was declared, whatever
the calls were and even when errors on the way were ignored. -/
theorem opened_of_finish_feeds (hnew : new inputKey context ciphertextLen = .ok stream)
    (hfinish : (stream.feeds [] calls).self.finish.result = .ok ()) :
    ∃ layout, fromCiphertextLen ciphertextLen = .ok layout ∧
      Opened P inputKey context layout (bytesOf calls) (stream.feeds [] calls).output := by
  obtain ⟨layout, hlen, hfed⟩ := fed_new hnew
  have hlayout := (fromCiphertextLen_eq_ok.mp hlen).1
  refine ⟨layout, hlen, ?_⟩
  rcases feeds_cases hlayout hfed with ⟨-, hstate⟩ | ⟨hfailed, -⟩
  · exact hstate.toOpened hlayout ((finish_eq_ok hlayout hstate).mp hfinish)
  · rw [finish, if_pos (.inl hfailed)] at hfinish
    cases hfinish

/-- **A complete message is accepted** by every row of calls that hands it over and gives each call
the bytes it takes. -/
theorem feeds_of_opened {ciphertext plaintext : Bytes}
    (hlen : fromCiphertextLen ciphertextLen = .ok layout)
    (hopened : Opened P inputKey context layout ciphertext plaintext)
    (hbytes : bytesOf calls = ciphertext) (hfits : AllFit layout [] calls) :
    ∃ stream : Cobblestone256StreamOpener P, new inputKey context ciphertextLen = .ok stream ∧
      (stream.feeds [] calls).result = .ok () ∧ (stream.feeds [] calls).output = plaintext ∧
      (stream.feeds [] calls).self.finish.result = .ok () := by
  have hlayout := (fromCiphertextLen_eq_ok.mp hlen).1
  obtain ⟨stream, hnew⟩ : ∃ stream : Cobblestone256StreamOpener P,
      new inputKey context ciphertextLen = .ok stream := by
    rw [new, hlen, ok_bind]
    exact ⟨_, rfl⟩
  obtain ⟨layout', hlen', hfed⟩ := fed_new hnew
  obtain rfl : layout = layout' := Except.ok.inj (hlen.symm.trans hlen')
  refine ⟨stream, hnew, ?_⟩
  rcases feeds_cases hlayout hfed with ⟨hresult, hstate⟩ | ⟨-, hnot⟩
  · rw [nil_append, hbytes] at hstate
    have hlength := hopened.length_eq hlayout
    exact ⟨hresult, (hstate.toOpened hlayout hlength).unique hlayout hopened,
      (finish_eq_ok hlayout hstate).mpr hlength⟩
  · exact absurd (hbytes ▸ prefix_rfl) (hnot hfits ciphertext plaintext hopened)

end Cobblestone256StreamOpener

end Windows

end Argmin.Crypto
