import Argmin.Crypto.Sealing

/-!
# Opening

`Opened` says what a complete message is: a header that verifies, followed by the records of its
layout, each of which opens under its index.  The streaming opener is
compared with it:

* `Cobblestone256StreamOpener.Fed` — the state of a streaming opener after it was fed a part of a
  message;
* `Cobblestone256StreamOpener.update_cases` — an update either goes on to such a state, or the
  opener fails for good and the bytes are the start of no complete message.
-/

namespace Argmin.Crypto

open Fallible Blocks Cobblestone256MessageLayout Cobblestone256Opener List Option Nat

section Opening

variable {P : Primitives} {inputKey context : Bytes} {layout : Cobblestone256MessageLayout}
  {opener : Cobblestone256Opener P} {opened : List (Bytes × Bytes)} {i : Nat}
  {record plaintext fed rest ciphertext : Bytes} {opened' : List (Bytes × Bytes)}

/-! ### Complete messages -/

/-- Records from the first on, with what they open to. -/
def Cobblestone256Opener.Opens (opener : Cobblestone256Opener P)
    (layout : Cobblestone256MessageLayout) (opened : List (Bytes × Bytes)) : Prop :=
  ∀ (i : Nat) (record : Bytes × Bytes), opened[i]? = some record →
    opener.openChunk layout i record.1 = .ok record.2

/-- The bytes `fed` are a header, whole records and the start `rest` of another one. -/
structure Splits (inputKey context : Bytes) (layout : Cobblestone256MessageLayout)
    (opener : Cobblestone256Opener P) (opened : List (Bytes × Bytes)) (fed rest : Bytes) :
    Prop where
  header : ∃ header, fromHeader inputKey context header = .ok opener ∧
    fed = header ++ (opened.map Prod.fst).flatten ++ rest
  opens : opener.Opens layout opened

/-- A complete message with its plaintext. -/
def Opened (P : Primitives) (inputKey context : Bytes) (layout : Cobblestone256MessageLayout)
    (ciphertext plaintext : Bytes) : Prop :=
  ∃ (opener : Cobblestone256Opener P) (opened : List (Bytes × Bytes)),
    Splits inputKey context layout opener opened ciphertext [] ∧
      opened.length = layout.chunkCount ∧ plaintext = (opened.map Prod.snd).flatten

theorem length_of_fromHeader {header : Bytes}
    (h : fromHeader (P := P) inputKey context header = .ok opener) :
    header.length = cobblestoneHeaderLen := by
  simp only [fromHeader, bind_eq_ok, failIf_eq_ok, exists_const,
    Decidable.not_not] at h
  exact h.1

theorem openChunk_eq_ok (hlayout : layout.Canonical)
    (h : opener.openChunk layout i record = .ok plaintext) :
    i < layout.chunkCount ∧ record.length = layout.recordLen i ∧
      ∃ nonce, nonceForChunk opener.baseNonce i = .ok nonce ∧
        P.openInPlace opener.key nonce [] record = .ok plaintext := by
  simp only [openChunk, bind_eq_ok, failIf_eq_ok, exists_const,
    Decidable.not_not] at h
  obtain ⟨range, hrange, hlength, nonce, hnonce, hopen⟩ := h
  have hi : i < layout.chunkCount := by
    by_contra hle
    rw [ciphertextRangeForChunk_of_le (not_lt.mp hle)] at hrange
    cases hrange
  rw [hlayout.ciphertextRangeForChunk_eq hi] at hrange
  cases hrange
  exact ⟨hi, hlength.trans (Range.len_mk_add _ _), nonce, hnonce, hopen⟩

theorem openChunk_of_open (hlayout : layout.Canonical) (hi : i < layout.chunkCount)
    {nonce : Bytes} (hlength : record.length = layout.recordLen i)
    (hnonce : nonceForChunk opener.baseNonce i = .ok nonce)
    (hopen : P.openInPlace opener.key nonce [] record = .ok plaintext) :
    opener.openChunk layout i record = .ok plaintext := by
  have hlen := hlength.trans (Range.len_mk_add (recordStart i) _).symm
  rw [openChunk, hlayout.ciphertextRangeForChunk_eq hi, ok_bind,
    failIf_of_not (not_not_intro hlen), ok_bind, hnonce, ok_bind, hopen]

namespace Cobblestone256Opener.Opens

theorem sized (h : opener.Opens layout opened) (hlayout : layout.Canonical) :
    Sized layout.recordLen (opened.map Prod.fst) := by
  intro i record hrecord
  rw [getElem?_map] at hrecord
  obtain ⟨pair, hpair, rfl⟩ := map_eq_some_iff.mp hrecord
  exact (openChunk_eq_ok hlayout (h i pair hpair)).2.1

theorem concat (h : opener.Opens layout opened) {record plaintext : Bytes}
    (hopen : opener.openChunk layout opened.length record = .ok plaintext) :
    opener.Opens layout (opened ++ [(record, plaintext)]) := by
  intro i pair hpair
  rcases getElem?_concat_cases hpair with hpair | ⟨rfl, rfl⟩
  · exact h i pair hpair
  · exact hopen

end Cobblestone256Opener.Opens

theorem Splits.length_eq (hlayout : layout.Canonical)
    (h : Splits inputKey context layout opener opened fed rest) :
    fed.length = cobblestoneHeaderLen + offset layout.recordLen opened.length + rest.length := by
  obtain ⟨header, hheader, rfl⟩ := h.header
  rw [length_append, length_append, length_of_fromHeader hheader,
    (h.opens.sized hlayout).length_flatten, length_map]

theorem Splits.append (h : Splits inputKey context layout opener opened fed rest) (bytes : Bytes) :
    Splits inputKey context layout opener opened (fed ++ bytes) (rest ++ bytes) := by
  obtain ⟨header, hheader, hfed⟩ := h.header
  exact ⟨⟨header, hheader, by rw [hfed, append_assoc _ rest]⟩, h.opens⟩

/-- A complete message has the length of its layout. -/
theorem Opened.length_eq (hlayout : layout.Canonical)
    (h : Opened P inputKey context layout ciphertext plaintext) :
    ciphertext.length = layout.ciphertextLen := by
  obtain ⟨opener, opened, hsplits, hlength, -⟩ := h
  rw [hsplits.length_eq hlayout, hlength, offset_chunkCount hlayout]
  rfl

/-- The records of the start of a complete message are the first of its records. -/
theorem Splits.of_isPrefix (hlayout : layout.Canonical) {opener' : Cobblestone256Opener P}
    (h : Splits inputKey context layout opener opened fed rest)
    (hwhole : Splits inputKey context layout opener' opened' ciphertext [])
    (hinit : fed <+: ciphertext) :
    opener' = opener ∧ ∃ more, opened'.map Prod.fst = opened.map Prod.fst ++ more ∧
      rest <+: more.flatten := by
  obtain ⟨header, hheader, rfl⟩ := h.header
  obtain ⟨header', hheader', rfl⟩ := hwhole.header
  rw [append_nil] at hinit
  obtain ⟨tail, htail⟩ := hinit
  rw [append_assoc, append_assoc] at htail
  have hlength : header.length = header'.length :=
    (length_of_fromHeader hheader).trans (length_of_fromHeader hheader').symm
  obtain ⟨rfl, hrecords⟩ := append_inj htail hlength
  refine ⟨Except.ok.inj (hheader'.symm.trans hheader), ?_⟩
  refine (h.opens.sized hlayout).flatten_isPrefix hlayout.recordLen_pos
    (hwhole.opens.sized hlayout) ?_
  exact ⟨tail, by rw [append_assoc, hrecords]⟩

/-- Records that agree open to the same plaintexts. -/
theorem Cobblestone256Opener.Opens.snd_eq
    (h : opener.Opens layout opened) (h' : opener.Opens layout opened')
    (heq : opened.map Prod.fst = opened'.map Prod.fst) :
    opened.map Prod.snd = opened'.map Prod.snd := by
  refine ext_getElem? fun i => ?_
  have hrecord := congrArg (fun l : List Bytes => l[i]?) heq
  simp only [getElem?_map] at hrecord ⊢
  cases hpair : opened[i]? with
  | none =>
    rw [hpair, map_none, eq_comm, map_eq_none_iff] at hrecord
    rw [hrecord]
  | some pair =>
    rw [hpair, map_some, eq_comm, map_eq_some_iff] at hrecord
    obtain ⟨pair', hpair', hfst⟩ := hrecord
    have hopen := h i pair hpair
    have hopen' := h' i pair' hpair'
    rw [hfst, hopen] at hopen'
    rw [hpair', map_some, map_some, Except.ok.inj hopen']

/-- A complete message has one plaintext. -/
theorem Opened.unique (hlayout : layout.Canonical) {plaintext' : Bytes}
    (h : Opened P inputKey context layout ciphertext plaintext)
    (h' : Opened P inputKey context layout ciphertext plaintext') : plaintext = plaintext' := by
  obtain ⟨opener, opened, hsplits, hlength, rfl⟩ := h
  obtain ⟨opener', opened', hsplits', hlength', rfl⟩ := h'
  obtain ⟨rfl, more, hmore, -⟩ := hsplits.of_isPrefix hlayout hsplits' prefix_rfl
  have hlengths := congrArg length hmore
  rw [length_append, length_map, length_map] at hlengths
  have hnil : more = [] := length_eq_zero_iff.mp (by omega)
  rw [hnil, append_nil] at hmore
  rw [hsplits.opens.snd_eq hsplits'.opens hmore.symm]

/-! ### A streaming opener that is fed -/

namespace Cobblestone256StreamOpener

/-- An opener that has not failed and has taken the bytes `fed`. -/
structure Live (context : Bytes) (layout : Cobblestone256MessageLayout)
    (stream : Cobblestone256StreamOpener P) (fed : Bytes) : Prop where
  sameContext : stream.context = context
  sameLayout : stream.layout = layout
  failed : stream.failed = false
  finished : stream.finished = false
  consumed : stream.consumed = fed.length

/-- The header is not complete yet. -/
structure InHeader (inputKey context : Bytes) (layout : Cobblestone256MessageLayout)
    (stream : Cobblestone256StreamOpener P) (fed output : Bytes) : Prop
    extends Live context layout stream fed where
  key : stream.inputKey = some inputKey
  unverified : stream.opener = none
  pending : stream.pending = fed
  short : fed.length < cobblestoneHeaderLen
  nextChunk : stream.nextChunk = 0
  noOutput : output = []

/-- The header is verified and the records of `opened` are open. -/
structure InBody (inputKey context : Bytes) (layout : Cobblestone256MessageLayout)
    (stream : Cobblestone256StreamOpener P) (opener : Cobblestone256Opener P)
    (opened : List (Bytes × Bytes)) (fed output : Bytes) : Prop
    extends Live context layout stream fed where
  verified : stream.opener = some opener
  splits : Splits inputKey context layout opener opened fed stream.pending
  nextChunk : stream.nextChunk = opened.length
  short : stream.pending = [] ∨
    opened.length < layout.chunkCount ∧ stream.pending.length < layout.recordLen opened.length
  plaintext : output = (opened.map Prod.snd).flatten

/-- The state of an opener after the bytes `fed`, with what it has put out. -/
def Fed (inputKey context : Bytes) (layout : Cobblestone256MessageLayout)
    (stream : Cobblestone256StreamOpener P) (fed output : Bytes) : Prop :=
  InHeader inputKey context layout stream fed output ∨
    ∃ opener opened, InBody inputKey context layout stream opener opened fed output

/-- A call went on to the state after `fed`, or the opener has failed for good. -/
def Goes (inputKey context : Bytes) (layout : Cobblestone256MessageLayout) (fed : Bytes)
    (call : Call (Cobblestone256StreamOpener P)) : Prop :=
  call.result = .ok () ∧ Fed inputKey context layout call.self fed call.output ∨
    call.result ≠ .ok () ∧ call.self.failed = true ∧
      ∀ ciphertext plaintext, Opened P inputKey context layout ciphertext plaintext →
        ¬fed <+: ciphertext

variable {stream : Cobblestone256StreamOpener P} {fed output bytes : Bytes}

theorem Goes.fail
    (h : ∀ ciphertext plaintext, Opened P inputKey context layout ciphertext plaintext →
      ¬fed <+: ciphertext) : Goes inputKey context layout fed (stream.fail output) :=
  .inr ⟨nofun, rfl, h⟩

variable (h : InBody inputKey context layout stream opener opened fed output)
include h

/-- No record is left to be opened. -/
theorem InBody.not_prefix_of_le (hlayout : layout.Canonical)
    (hcount : layout.chunkCount ≤ opened.length) (hbytes : bytes ≠ [])
    {ciphertext plaintext : Bytes}
    (hopened : Opened P inputKey context layout ciphertext plaintext) :
    ¬fed ++ bytes <+: ciphertext := by
  intro hinit
  obtain ⟨opener', opened', hwhole, hlength, -⟩ := hopened
  have hpending : stream.pending = [] := h.short.resolve_right fun hlt => absurd hlt.1 (by omega)
  obtain ⟨-, more, hmore, hrest⟩ := (h.splits.append bytes).of_isPrefix hlayout hwhole hinit
  have hlengths := congrArg length hmore
  rw [length_append, length_map, length_map] at hlengths
  have hnil : more = [] := length_eq_zero_iff.mp (by omega)
  rw [hpending, hnil, flatten_nil, prefix_nil] at hrest
  exact hbytes hrest

/-- The next record of a complete message opens. -/
theorem InBody.openChunk_of_prefix (hlayout : layout.Canonical)
    (hcount : opened.length < layout.chunkCount)
    (hbytes : layout.recordLen opened.length ≤ (stream.pending ++ bytes).length)
    {ciphertext plaintext : Bytes}
    (hopened : Opened P inputKey context layout ciphertext plaintext)
    (hinit : fed ++ bytes <+: ciphertext) :
    ∃ opening, opener.openChunk layout opened.length
      ((stream.pending ++ bytes).take (layout.recordLen opened.length)) = .ok opening := by
  obtain ⟨opener', opened', hwhole, hlength, -⟩ := hopened
  obtain ⟨rfl, more, hmore, hrest⟩ := (h.splits.append bytes).of_isPrefix hlayout hwhole hinit
  have hnext : opened.length < opened'.length := hlength.symm ▸ hcount
  obtain ⟨pair, hpair⟩ : ∃ pair, opened'[opened.length]? = some pair :=
    ⟨_, getElem?_eq_getElem hnext⟩
  have hrecord := hwhole.opens opened.length pair hpair
  have hsize := (openChunk_eq_ok hlayout hrecord).2.1
  have hmap : (opened'.map Prod.fst)[opened.length]? = some pair.1 := by
    rw [getElem?_map, hpair]
    rfl
  rw [hmore, getElem?_append_right (by simp)] at hmap
  cases more with
  | nil => simp at hmap
  | cons record more =>
    simp only [length_map, Nat.sub_self, getElem?_cons_zero, some.injEq] at hmap
    subst hmap
    obtain ⟨tail, htail⟩ := hrest
    have htake := congrArg (take (layout.recordLen opened.length)) htail
    rw [take_append_of_le_length hbytes, flatten_cons,
      take_append_of_le_length (Nat.le_of_eq hsize.symm),
      take_of_length_le (l := pair.1) (Nat.le_of_eq hsize)] at htake
    exact ⟨pair.2, by rw [htake]; exact hrecord⟩

/-- The opener after it has taken bytes into its buffer. -/
theorem InBody.takes (hcount : opened.length < layout.chunkCount)
    (hshort : (stream.pending ++ bytes).length < layout.recordLen opened.length) :
    InBody inputKey context layout
      { stream with
        pending := stream.pending ++ bytes
        consumed := stream.consumed + bytes.length } opener opened (fed ++ bytes) output :=
  { h with
    consumed := by rw [h.consumed, length_append]
    splits := h.splits.append bytes
    short := .inr ⟨hcount, hshort⟩ }

/-- The opener after it has opened the next record. -/
theorem InBody.opensNext {opening : Bytes}
    (hopen : opener.openChunk layout opened.length (stream.pending ++ bytes) = .ok opening) :
    InBody inputKey context layout
      { stream with
        pending := []
        consumed := stream.consumed + bytes.length
        nextChunk := stream.nextChunk + 1 } opener
      (opened ++ [(stream.pending ++ bytes, opening)]) (fed ++ bytes) (output ++ opening) := by
  obtain ⟨header, hheader, hfed⟩ := h.splits.header
  refine { h with
    consumed := by rw [h.consumed, length_append]
    splits := ⟨⟨header, hheader, ?_⟩, h.splits.opens.concat hopen⟩
    nextChunk := by rw [h.nextChunk, length_append]; rfl
    short := .inl rfl
    plaintext := by rw [h.plaintext]; simp }
  rw [hfed]
  simp

omit h

theorem Fed.live (h : Fed inputKey context layout stream fed output) :
    Live context layout stream fed := by
  rcases h with h | ⟨opener, opened, h⟩
  · exact h.toLive
  · exact h.toLive

theorem updateLoop_cases (hlayout : layout.Canonical) {fuel : Nat} (hfuel : bytes.length ≤ fuel)
    (h : InBody inputKey context layout stream opener opened fed output) :
    Goes inputKey context layout (fed ++ bytes) (stream.updateLoop fuel bytes output) := by
  induction fuel generalizing stream opened fed output bytes with
  | zero =>
    obtain rfl : bytes = [] := length_eq_zero_iff.mp (le_zero.mp hfuel)
    rw [append_nil]
    exact .inl ⟨rfl, .inr ⟨opener, opened, h⟩⟩
  | succ fuel ih =>
    unfold updateLoop
    split
    · next hnil =>
      subst hnil
      rw [append_nil]
      exact .inl ⟨rfl, .inr ⟨opener, opened, h⟩⟩
    · next hbytes =>
      rw [h.sameLayout, h.nextChunk]
      by_cases hcount : opened.length < layout.chunkCount
      · rw [hlayout.ciphertextRangeForChunk_eq hcount]
        dsimp only
        rw [Range.len_mk_add]
        have hpos := hlayout.recordLen_pos opened.length
        have hpending : stream.pending.length < layout.recordLen opened.length := by
          rcases h.short with hnil | hshort
          · rw [hnil]
            exact hpos
          · exact hshort.2
        by_cases henough : layout.recordLen opened.length ≤ (stream.pending ++ bytes).length
        · -- the record is complete
          rw [length_append] at henough
          have hrecord : (stream.pending ++ bytes).take (layout.recordLen opened.length) =
              stream.pending ++
                bytes.take (layout.recordLen opened.length - stream.pending.length) := by
            rw [take_append, take_of_length_le (le_of_lt hpending)]
          generalize hneed :
            layout.recordLen opened.length - stream.pending.length = need at hrecord ⊢
          have hmin : min need bytes.length = need := by omega
          have htaken : (bytes.take need).length = need := by rw [length_take, hmin]
          rw [hmin, if_pos (by rw [length_append, htaken]; omega), h.verified]
          dsimp only
          cases hopen : opener.openChunk layout opened.length
            (stream.pending ++ bytes.take need) with
          | error e =>
            refine .fail fun ciphertext plaintext hopened hinit => ?_
            obtain ⟨opening, hopening⟩ := h.openChunk_of_prefix hlayout hcount
              (by rw [length_append]; exact henough) hopened hinit
            rw [hrecord, hopen] at hopening
            cases hopening
          | ok opening =>
            have hnext := h.opensNext hopen
            rw [htaken] at hnext
            have hdropped : (bytes.drop need).length ≤ fuel := by
              rw [length_drop]
              omega
            have hrest := ih hdropped hnext
            rw [append_assoc, take_append_drop, h.nextChunk, h.sameLayout,
              h.verified] at hrest
            exact hrest
        · -- the bytes are used up
          have hless := not_le.mp henough
          have htakes := h.takes hcount hless
          rw [length_append] at hless
          have hmin : min (layout.recordLen opened.length - stream.pending.length) bytes.length =
              bytes.length := by omega
          rw [hmin, take_length, drop_length,
            if_neg (by rw [length_append]; omega)]
          have hrest := ih (show ([] : Bytes).length ≤ fuel from zero_le _) htakes
          rw [append_nil, h.nextChunk, h.sameLayout] at hrest
          exact hrest
      · rw [ciphertextRangeForChunk_of_le (not_lt.mp hcount)]
        exact .fail fun ciphertext plaintext hopened =>
          h.not_prefix_of_le hlayout (not_lt.mp hcount) hbytes hopened

theorem takeHeader_cases {header : Bytes}
    (hkey : stream.inputKey = some inputKey) (hlive : Live context layout stream header)
    (hnext : stream.nextChunk = 0) (hlength : header.length = cobblestoneHeaderLen)
    (houtput : output = []) :
    (∃ opener, (stream.takeHeader header output).result = .ok () ∧
      (stream.takeHeader header output).output = output ∧
      InBody inputKey context layout (stream.takeHeader header output).self opener [] header
        output) ∨
    (stream.takeHeader header output).result ≠ .ok () ∧
      (stream.takeHeader header output).self.failed = true ∧
      ∀ bytes ciphertext plaintext, Opened P inputKey context layout ciphertext plaintext →
        ¬header ++ bytes <+: ciphertext := by
  unfold takeHeader
  rw [hkey]
  dsimp only
  rw [hlive.sameContext]
  cases hheader : fromHeader (P := P) inputKey context header with
  | ok opener =>
    exact .inl ⟨opener, rfl, rfl, { hlive with
      sameContext := rfl
      verified := rfl
      splits := ⟨⟨header, hheader, by simp⟩, by intro i record hrecord; simp at hrecord⟩
      nextChunk := hnext
      short := .inl rfl
      plaintext := houtput }⟩
  | error e =>
    refine .inr ⟨nofun, rfl, fun bytes ciphertext plaintext hopened hinit => ?_⟩
    obtain ⟨opener', opened', hwhole, -, -⟩ := hopened
    obtain ⟨header', hheader', rfl⟩ := hwhole.header
    obtain ⟨tail, htail⟩ := hinit
    rw [append_nil, append_assoc] at htail
    obtain ⟨rfl, -⟩ := append_inj htail (hlength.trans (length_of_fromHeader hheader').symm)
    rw [hheader] at hheader'
    cases hheader'

theorem update_cases (hlayout : layout.Canonical)
    (h : Fed inputKey context layout stream fed output) :
    Goes inputKey context layout (fed ++ bytes) (stream.update bytes output) := by
  have hlive := h.live
  unfold update
  split
  · next hrefused =>
    -- more bytes than a message of this layout has
    refine .fail fun ciphertext plaintext hopened hinit => ?_
    have hle := hinit.length_le
    have hlength := hopened.length_eq hlayout
    obtain ⟨hciphertext, -, -, hshort, hcount⟩ := canonical_iff.mp hlayout
    have hsum : checkedAdd stream.consumed bytes.length =
        some (stream.consumed + bytes.length) := by
      refine checkedAdd_eq_some.mpr ⟨rfl, ?_⟩
      rw [hlive.consumed, ← length_append]
      omega
    rw [hlive.failed, hlive.finished, hsum, hlive.sameLayout] at hrefused
    simp only [Bool.false_eq_true, false_or, all_some, decide_eq_true_eq] at hrefused
    rw [hlive.consumed, ← length_append] at hrefused
    omega
  · next haccepted =>
    rcases h with h | ⟨opener, opened, h⟩
    · rw [if_neg (by rw [h.unverified]; exact Bool.false_ne_true)]
      dsimp only
      rw [h.pending]
      by_cases henough : cobblestoneHeaderLen ≤ (fed ++ bytes).length
      · -- the header is complete
        have hshort := h.short
        rw [length_append] at henough
        generalize hneed : cobblestoneHeaderLen - fed.length = need
        have hmin : min need bytes.length = need := by omega
        have hfull : (fed ++ bytes.take need).length = cobblestoneHeaderLen := by
          rw [length_append, length_take]
          omega
        have hconsumed : stream.consumed + need = (fed ++ bytes.take need).length := by
          rw [hfull, h.consumed]
          omega
        rw [hmin, if_pos hfull]
        have htaken := @takeHeader_cases P inputKey context layout
          { stream with
            pending := fed ++ bytes.take need
            consumed := stream.consumed + need }
          output (fed ++ bytes.take need) h.key { h.toLive with consumed := hconsumed }
          h.nextChunk hfull h.noOutput
        rcases htaken with ⟨opener, hok, houtput, hbody⟩ | ⟨herror, hfailed, hnot⟩
        · rw [Call.andThen_of_ok hok, houtput]
          have hrest := updateLoop_cases hlayout (le_refl (bytes.drop need).length) hbody
          rw [append_assoc, take_append_drop] at hrest
          exact hrest
        · rw [Call.andThen_of_error herror]
          refine .inr ⟨herror, hfailed, fun ciphertext plaintext hopened hinit => ?_⟩
          refine hnot (bytes.drop need) ciphertext plaintext hopened ?_
          rw [append_assoc, take_append_drop]
          exact hinit
      · have hless := not_le.mp henough
        have hlength := hless
        rw [length_append] at hlength
        have hmin : min (cobblestoneHeaderLen - fed.length) bytes.length = bytes.length := by omega
        rw [hmin, take_length, drop_length,
          if_neg (by rw [length_append]; omega), Call.andThen_of_ok rfl]
        refine .inl ⟨rfl, .inl { h with
          consumed := ?_
          pending := rfl
          short := hless }⟩
        show stream.consumed + bytes.length = _
        rw [h.consumed, length_append]
    · rw [if_pos (by rw [h.verified]; rfl)]
      exact updateLoop_cases hlayout (le_refl _) h

end Cobblestone256StreamOpener

end Opening

end Argmin.Crypto
