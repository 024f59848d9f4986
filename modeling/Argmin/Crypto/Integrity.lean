import Argmin.Crypto.RoundTrip

/-!
# Integrity of a sealed message

Records carry neither an index nor a final flag.  What ties them together is the nonce, which
carries the index, and the length of the last record, which is shorter than that of a full one.

* `nonceForChunk_injective` — the nonces of one message are distinct;
* `sealed_of_opened` — a complete message whose records were all produced by the sealer of one
  message is that message;
* `only_sealed_accepted` — so nothing else reaches a successful finish, when the message keys of two
  salts are different;
* `spliced_header_accepted` — it does not help that their commitments are.
-/

namespace Argmin.Crypto

open Fallible Blocks Cobblestone256MessageLayout List

/-! ### Nonces -/

theorem zipWith_xor_injective {base a b : Bytes} (ha : a.length = base.length)
    (hb : b.length = base.length)
    (h : List.zipWith (· ^^^ ·) base a = List.zipWith (· ^^^ ·) base b) : a = b := by
  induction base generalizing a b with
  | nil => rw [length_eq_zero_iff.mp ha, length_eq_zero_iff.mp hb]
  | cons x base ih =>
    cases a with
    | nil => cases ha
    | cons y a =>
      cases b with
      | nil => cases hb
      | cons z b =>
        rw [zipWith_cons_cons, zipWith_cons_cons, cons.injEq] at h
        have hhead : y = z := by
          have hxor := congrArg (x ^^^ ·) h.1
          simpa only [← UInt8.xor_assoc, UInt8.xor_self, UInt8.zero_xor] using hxor
        rw [hhead, ih (Nat.succ.inj ha) (Nat.succ.inj hb) h.2]

/-- The last five bytes of an index below `2 ^ 38` determine it. -/
theorem counter_injective {i j : Nat} (hi : i < 2 ^ 38) (hj : j < 2 ^ 38)
    (h : (toBeBytes i).drop 3 = (toBeBytes j).drop 3) : i = j := by
  have hbytes : ∀ n, (toBeBytes n).drop 3 = [UInt8.ofNat (n / 256 ^ 4), UInt8.ofNat (n / 256 ^ 3),
      UInt8.ofNat (n / 256 ^ 2), UInt8.ofNat (n / 256 ^ 1), UInt8.ofNat (n / 256 ^ 0)] :=
    fun n => rfl
  rw [hbytes, hbytes] at h
  simp only [cons.injEq, ← UInt8.toNat_inj, UInt8.toNat_ofNat'] at h
  omega

/-- **The nonces of one message are distinct.** -/
theorem nonceForChunk_injective {baseNonce nonce : Bytes} {i j : Nat}
    (hbase : baseNonce.length = aesGcmNonceLen) (hi : nonceForChunk baseNonce i = .ok nonce)
    (hj : nonceForChunk baseNonce j = .ok nonce) : i = j := by
  have hltI := nonceForChunk_lt hi
  have hltJ := nonceForChunk_lt hj
  simp only [nonceForChunk, bind_eq_ok, failIf_eq_ok, exists_const, pure_eq_ok] at hi hj
  have heq := append_cancel_left (hi.2.trans hj.2.symm)
  refine counter_injective hltI hltJ (zipWith_xor_injective ?_ ?_ heq)
  · show 5 = _
    rw [length_drop, hbase]
    rfl
  · show 5 = _
    rw [length_drop, hbase]
    rfl

/-! ### Records of one sealer -/

section Integrity

variable {P : Primitives} {inputKey salt context plaintext ciphertext : Bytes} {header : Bytes}
  {opener : Cobblestone256Opener P} {layout : Cobblestone256MessageLayout}

/-- The sealer of the message produced `record` under this key and nonce. -/
def SealerProduced (P : Primitives) (inputKey salt context plaintext : Bytes) (key : P.Aes256GcmKey)
    (nonce record : Bytes) : Prop :=
  ∃ derived : DerivedMessageKey P, deriveMessageKey inputKey salt context = .ok derived ∧
    derived.key = key ∧
      ∃ i chunk, (chunksOf plaintext)[i]? = some chunk ∧
        nonceForChunk derived.baseNonce i = .ok nonce ∧
        P.sealInPlaceAppendTag key nonce [] chunk = .ok record

/-- A record of the presented bytes opens in its place only if the sealer of the message produced it
under that key and nonce. -/
def Unforgeable (P : Primitives) (inputKey salt context plaintext presented : Bytes) : Prop :=
  ∀ (layout : Cobblestone256MessageLayout) (derived : DerivedMessageKey P) (i : Nat)
    (nonce opening : Bytes), fromCiphertextLen presented.length = .ok layout →
    deriveMessageKey inputKey (presented.take cobblestoneSaltLen) context = .ok derived →
    i < layout.chunkCount → nonceForChunk derived.baseNonce i = .ok nonce →
    P.openInPlace derived.key nonce [] (layout.recordAt presented i) = .ok opening →
      SealerProduced P inputKey salt context plaintext derived.key nonce
        (layout.recordAt presented i)

/-- No two salts derive the same part of the message key material. -/
def CollisionFree {α : Type} (part : DerivedMessageKey P → α) (inputKey context : Bytes) : Prop :=
  ∀ {salt salt' : Bytes} {derived derived' : DerivedMessageKey P},
    salt.length = cobblestoneSaltLen → salt'.length = cobblestoneSaltLen →
      deriveMessageKey inputKey salt context = .ok derived →
      deriveMessageKey inputKey salt' context = .ok derived' → part derived = part derived' →
        salt = salt'

theorem fromHeader_eq_ok
    (h : Cobblestone256Opener.fromHeader inputKey context header = .ok opener) :
    ∃ derived : DerivedMessageKey P,
      deriveMessageKey inputKey (header.take cobblestoneSaltLen) context = .ok derived ∧
      header.drop cobblestoneSaltLen = derived.commitment ∧
      opener = ⟨derived.key, derived.baseNonce⟩ := by
  simp only [Cobblestone256Opener.fromHeader, bind_eq_ok, failIf_eq_ok, exists_const,
    Decidable.not_not, pure_eq_ok] at h
  obtain ⟨-, derived, hderived, hcommitment, rfl⟩ := h
  exact ⟨derived, hderived, hcommitment.symm, rfl⟩

/-- A record that opens under a chunk of a verified header is the record that the sealer wrote for
this chunk, and the header is the sealer's. -/
theorem record_of_openChunk (hsalt : salt.length = cobblestoneSaltLen)
    (hcollision : CollisionFree (P := P) DerivedMessageKey.key inputKey context)
    {derived derived' : DerivedMessageKey P} {parts : List (Bytes × Bytes)}
    (hderived : deriveMessageKey inputKey salt context = .ok derived)
    (hparts : derived.Parts plaintext parts) {record nonce : Bytes} {i : Nat}
    (hheader : header.length = cobblestoneHeaderLen)
    (hderived' : deriveMessageKey inputKey (header.take cobblestoneSaltLen) context = .ok derived')
    (hcommitment : header.drop cobblestoneSaltLen = derived'.commitment)
    (hnonce : nonceForChunk derived'.baseNonce i = .ok nonce)
    (hproduced : SealerProduced P inputKey salt context plaintext derived'.key nonce record) :
    header = salt ++ derived.commitment ∧ (parts.map Prod.snd)[i]? = some record := by
  have hsalt' : (header.take cobblestoneSaltLen).length = cobblestoneSaltLen := by
    rw [length_take, hheader]
    rfl
  obtain ⟨derived'', hderived'', hkey, j, chunk, hchunk, hnonce', hseal⟩ := hproduced
  obtain rfl : derived = derived'' := Except.ok.inj (hderived.symm.trans hderived'')
  -- the header belongs to the sealer's key
  obtain rfl : salt = header.take cobblestoneSaltLen :=
    hcollision hsalt hsalt' hderived hderived' hkey
  obtain rfl : derived = derived' := Except.ok.inj (hderived.symm.trans hderived')
  refine ⟨by rw [← hcommitment, take_append_drop], ?_⟩
  -- the nonce belongs to the chunk
  obtain rfl : j = i :=
    nonceForChunk_injective (deriveMessageKey_lengths hderived).1 hnonce' hnonce
  rw [← hparts.chunks, getElem?_map] at hchunk
  obtain ⟨part, hpart, rfl⟩ := Option.map_eq_some_iff.mp hchunk
  obtain ⟨nonce', hnonce'', hseal'⟩ := hparts.sealed j part hpart
  obtain rfl : nonce = nonce' := Except.ok.inj (hnonce.symm.trans hnonce'')
  rw [getElem?_map, hpart, Option.map_some, Except.ok.inj (hseal.symm.trans hseal')]

/-- Records of two layouts that agree as far as the first of them goes: the last record of the first
is shorter than a full one, so it is the last record of the second. -/
theorem chunkCount_eq_of_agree {layout' : Cobblestone256MessageLayout}
    (hlayout' : layout'.Canonical) {records records' : List Bytes}
    (hsized : Sized layout.recordLen records) (hsized' : Sized layout'.recordLen records')
    (hcount : records.length = layout.chunkCount) (hcount' : records'.length = layout'.chunkCount)
    (hagree : ∀ (i : Nat) (record : Bytes), records'[i]? = some record →
      records[i]? = some record) :
    layout'.chunkCount = layout.chunkCount := by
  obtain ⟨-, -, -, hshort, -⟩ := canonical_iff.mp hlayout'
  have hlast : layout'.fullChunks < records'.length := hcount' ▸ Nat.lt_succ_self _
  have hrecord' := List.getElem?_eq_getElem hlast
  have hrecord := hagree _ _ hrecord'
  have hlength' := hsized' _ _ hrecord'
  have hlength := hsized _ _ hrecord
  rw [recordLen_eq, if_neg (Nat.lt_irrefl _)] at hlength'
  rw [recordLen_eq] at hlength
  have hindex := (List.getElem?_eq_some_iff.mp hrecord).1
  rw [hcount] at hindex
  unfold chunkCount at hindex ⊢
  split at hlength <;> omega

/-- **A complete message whose records come from the sealer of a message is that message.** -/
theorem sealed_of_opened (hlayout : layout.Canonical) (hsalt : salt.length = cobblestoneSaltLen)
    (hcollision : CollisionFree (P := P) DerivedMessageKey.key inputKey context)
    (hsealed : sealMessage (P := P) inputKey salt context plaintext = .ok ciphertext)
    {presented output : Bytes}
    (hunforgeable : Unforgeable P inputKey salt context plaintext presented)
    (hopened : Opened P inputKey context layout presented output) : presented = ciphertext := by
  have hlayout' := fromCiphertextLen_eq_ok.mpr ⟨hlayout, (hopened.length_eq hlayout).symm⟩
  obtain ⟨sealedLayout, hsealedLayout, hsealed⟩ := bind_eq_ok.mp hsealed
  obtain ⟨hcanonical, hlength⟩ := fromPlaintextLen_eq_ok.mp hsealedLayout
  obtain ⟨derived, parts, hderived, hparts, rfl⟩ := sealPieces_eq_ok hsealed
  rw [flatten_cons, flatten_nil, append_nil] at hparts
  obtain ⟨opener, opened, hsplits, hcount, -⟩ := hopened
  obtain ⟨header, hheader, rfl⟩ := hsplits.header
  have hrecords : ∀ (i : Nat) (record : Bytes), (opened.map Prod.fst)[i]? = some record →
      header = salt ++ derived.commitment ∧ (parts.map Prod.snd)[i]? = some record := by
    intro i record hrecord
    have hat := recordAt_append (length_of_fromHeader hheader) (hsplits.opens.sized hlayout) hrecord
    rw [getElem?_map] at hrecord
    obtain ⟨pair, hpair, rfl⟩ := Option.map_eq_some_iff.mp hrecord
    obtain ⟨derived', hderived', hcommitment, rfl⟩ := fromHeader_eq_ok hheader
    obtain ⟨hi, -, nonce, hnonce, hopen⟩ := openChunk_eq_ok hlayout (hsplits.opens i pair hpair)
    have hlength := length_of_fromHeader hheader
    refine record_of_openChunk hsalt hcollision hderived hparts hlength hderived' hcommitment
      hnonce ?_
    have hsame : (header ++ (opened.map Prod.fst).flatten ++ []).take cobblestoneSaltLen =
        header.take cobblestoneSaltLen := by
      rw [append_assoc, take_append_of_le_length (by rw [hlength]; decide)]
    have hproduced := hunforgeable layout derived' i nonce pair.2 hlayout' (hsame ▸ hderived') hi
      hnonce
    rw [append_nil, hat] at hproduced
    exact hproduced hopen
  have hmap : (opened.map Prod.fst).length = layout.chunkCount := by rw [length_map, hcount]
  have hparts' : (parts.map Prod.snd).length = sealedLayout.chunkCount := by
    rw [length_map, hparts.length_eq_chunkCount hcanonical hlength]
  have hfirst : 0 < (opened.map Prod.fst).length := by
    rw [hmap]
    exact Nat.succ_pos _
  have hsame := chunkCount_eq_of_agree hlayout (hparts.sized_snd hcanonical hlength)
    (hsplits.opens.sized hlayout) hparts' hmap fun i record h => (hrecords i record h).2
  have heq : opened.map Prod.fst = parts.map Prod.snd := by
    refine ext_getElem (by rw [hmap, hparts', hsame]) fun i hi hi' => ?_
    have hrecord := (hrecords i _ (getElem?_eq_getElem hi)).2
    rw [getElem?_eq_getElem hi'] at hrecord
    exact (Option.some.inj hrecord).symm
  rw [(hrecords 0 _ (getElem?_eq_getElem hfirst)).1, heq, append_nil]

/-- **Only the sealed message is accepted.**  The record nonces of a sealed message are distinct,
and whatever else is presented under its input key and context without a forged record, no feeding
of it through updates, single records and windows ends with a successful finish, whatever length was
declared and even when the caller ignores errors; nor do the one-shot openers return anything. -/
theorem only_sealed_accepted (hsalt : salt.length = cobblestoneSaltLen)
    (hcollision : CollisionFree (P := P) DerivedMessageKey.key inputKey context)
    (hsealed : sealMessage (P := P) inputKey salt context plaintext = .ok ciphertext) :
    (∃ derived : DerivedMessageKey P, deriveMessageKey inputKey salt context = .ok derived ∧
      ∀ (i j : Nat) (nonce : Bytes), nonceForChunk derived.baseNonce i = .ok nonce →
        nonceForChunk derived.baseNonce j = .ok nonce → i = j) ∧
    ∀ presented, presented ≠ ciphertext →
      Unforgeable P inputKey salt context plaintext presented →
      (∀ (declaredLen : Nat) (stream : Cobblestone256StreamOpener P),
        Cobblestone256StreamOpener.new inputKey context declaredLen = .ok stream →
          ∀ calls, Cobblestone256StreamOpener.bytesOf calls = presented →
            (stream.feeds [] calls).self.finish.result ≠ .ok ()) ∧
      (∀ output, openMessage P inputKey context presented ≠ .ok output) ∧
      ∀ output, openOwned P inputKey context presented ≠ .ok output := by
  constructor
  · obtain ⟨_, -, hpieces⟩ := bind_eq_ok.mp hsealed
    obtain ⟨derived, -, hderived, -, -⟩ := sealPieces_eq_ok hpieces
    exact ⟨derived, hderived, fun i j nonce hi hj =>
      nonceForChunk_injective (deriveMessageKey_lengths hderived).1 hi hj⟩
  · intro presented hne hunforgeable
    have hnot : ∀ layout output, layout.Canonical →
        ¬Opened P inputKey context layout presented output := fun layout output hlayout hopened =>
      hne (sealed_of_opened hlayout hsalt hcollision hsealed hunforgeable hopened)
    refine ⟨fun declaredLen stream hnew calls hbytes hfinish => ?_, fun output hopen => ?_,
      fun output hopen => ?_⟩
    · obtain ⟨layout, hlayout, hopened⟩ :=
        Cobblestone256StreamOpener.opened_of_finish_feeds hnew hfinish
      rw [hbytes] at hopened
      exact hnot layout _ (fromCiphertextLen_eq_ok.mp hlayout).1 hopened
    · obtain ⟨layout, hlayout, hopened⟩ := openMessage_eq_ok.mp hopen
      exact hnot layout output (fromCiphertextLen_eq_ok.mp hlayout).1 hopened
    · obtain ⟨layout, hlayout, hopened⟩ := openOwned_eq_ok.mp hopen
      exact hnot layout output (fromCiphertextLen_eq_ok.mp hlayout).1 hopened

/-- A provider whose tag repeats the nonce and the start of the key, and whose derived material
repeats the salt: in the commitment, and in the key unless that is shared by all salts. -/
def tagged (shared : Bool) : Primitives where
  Aes256GcmKey := Bytes
  newKey := .ok
  sealInPlaceAppendTag key nonce _ plaintext :=
    .ok (plaintext ++ (nonce ++ key ++ List.replicate aesGcmTagLen 0).take aesGcmTagLen)
  openInPlace key nonce _ record :=
    if record.drop (record.length - aesGcmTagLen) =
        (nonce ++ key ++ List.replicate aesGcmTagLen 0).take aesGcmTagLen then
      .ok (record.take (record.length - aesGcmTagLen))
    else .error .cryptoError
  expandSha512 length _ info :=
    let salt := (info.drop hkdfInfoPrefix.length).take cobblestoneSaltLen
    .ok (((if shared then List.replicate 24 0 else salt) ++ List.replicate 20 0 ++ salt ++
      List.replicate length 0).take length)
  length_seal h := by
    cases h
    rw [List.length_append, List.length_take, List.length_append, List.length_replicate,
      Nat.min_eq_left (Nat.le_add_left ..)]
  length_open_le h := by
    split at h
    · cases h
      exact (List.length_take_le _ _).trans (Nat.sub_le _ _)
    · cases h
  length_expand h := by
    cases h
    rw [List.length_take, List.length_append, List.length_replicate]
    omega

theorem tagged_inverts (shared : Bool) : (tagged shared).Inverts := by
  intro key nonce plaintext record h
  cases h
  simp [tagged, aesGcmTagLen]

theorem tagged_total (shared : Bool) : (tagged shared).Total :=
  ⟨fun _ _ _ => ⟨_, rfl⟩, fun _ _ => ⟨_, rfl⟩, fun _ _ _ => ⟨_, rfl⟩⟩

/-- What `tagged` derives from a salt. -/
theorem derive_tagged (shared : Bool) {salt : Bytes} (hsalt : salt.length = cobblestoneSaltLen) :
    deriveMessageKey (P := tagged shared) [] salt [] =
      .ok ⟨(if shared then List.replicate 24 0 else salt) ++ List.replicate 8 0,
        List.replicate 12 0, salt ++ List.replicate 8 0⟩ := by
  have hinfo : ((hkdfInfoPrefix ++ salt ++ []).drop hkdfInfoPrefix.length).take
      cobblestoneSaltLen = salt := by
    rw [append_nil, drop_left, ← hsalt, take_length]
  obtain ⟨first, hfirst⟩ : ∃ first, first = if shared then replicate 24 0 else salt := ⟨_, rfl⟩
  have hlength : salt.length = 24 := hsalt
  have hfirst' : first.length = 24 := by
    rw [hfirst]
    split
    · exact length_replicate
    · exact hsalt
  have hmaterial : (first ++ replicate 20 0 ++ salt ++ replicate 76 0).take 76 =
      (first ++ replicate 8 0) ++ (replicate 12 0 ++ (salt ++ replicate 8 0)) := by
    rw [take_append, take_of_length_le (by simp [hlength, hfirst'])]
    simp [hlength, hfirst', append_assoc]
  have hkey : (first ++ replicate 8 0).length = 32 := by simp [hfirst']
  have hnonce : (replicate 12 (0 : UInt8)).length = 12 := length_replicate
  generalize hM : (first ++ replicate 20 0 ++ salt ++ replicate 76 0).take 76 = material
  rw [hM] at hmaterial
  have htakes : material.take 32 = first ++ replicate 8 0 ∧
      (material.drop 32).take 12 = replicate 12 0 ∧ material.drop 44 = salt ++ replicate 8 0 := by
    rw [hmaterial, take_left' hkey, drop_left' hkey, take_left' hnonce,
      show 44 = 32 + 12 from rfl, ← drop_drop, drop_left' hkey, drop_left' hnonce]
    exact ⟨rfl, rfl, rfl⟩
  subst hM
  show Except.ok (DerivedMessageKey.mk _ _ _) = _
  rw [hinfo, ← hfirst]
  exact congrArg Except.ok (congr (congr (congrArg _ htakes.1) htakes.2.1) htakes.2.2)

/-- The message `[1, 2, 3]` sealed by `tagged` with a salt of sevens. -/
def sealedSevens (shared : Bool) : Bytes :=
  List.replicate 24 7 ++ (List.replicate 24 7 ++ List.replicate 8 0) ++
    ([1, 2, 3] ++ List.replicate 12 0 ++ List.replicate 4 (if shared then 0 else 7))

theorem seal_tagged (shared : Bool) :
    sealMessage (P := tagged shared) [] (replicate 24 7) [] [1, 2, 3] =
      .ok (sealedSevens shared) := by
  cases shared <;> rfl

/-- Its record behind the header of the salt of eights. -/
def spliced (shared : Bool) : Bytes :=
  List.replicate 24 8 ++ (List.replicate 24 8 ++ List.replicate 8 0) ++
    (sealedSevens shared).drop cobblestoneHeaderLen

/-- The one record opens under the key of the other salt where the key is shared, and then the
sealer produced it under that key. -/
theorem spliced_unforgeable (shared : Bool) :
    Unforgeable (tagged shared) [] (replicate 24 7) [] [1, 2, 3] (spliced shared) := by
  intro layout derived i nonce opening hlayout hderived hi hnonce hopen
  have hlen : fromCiphertextLen (spliced shared).length = .ok ⟨75, 3, 0, 19⟩ := by
    cases shared <;> rfl
  cases hlen.symm.trans hlayout
  obtain rfl : i = 0 := Nat.lt_one_iff.mp hi
  have hsalt : (spliced shared).take cobblestoneSaltLen = replicate 24 8 := by cases shared <;> rfl
  rw [hsalt, derive_tagged shared rfl] at hderived
  cases hderived
  cases (show nonceForChunk (replicate 12 0) 0 = .ok (replicate 12 0) from rfl).symm.trans hnonce
  cases shared with
  | true => exact ⟨_, derive_tagged true rfl, rfl, 0, [1, 2, 3], rfl, rfl, rfl⟩
  | false =>
    have hrefused : (tagged false).openInPlace (replicate 24 8 ++ replicate 8 0) (replicate 12 0) []
        ((⟨75, 3, 0, 19⟩ : Cobblestone256MessageLayout).recordAt (spliced false) 0) =
          .error .cryptoError := rfl
    cases hrefused.symm.trans hopen

theorem only_sealed_accepted_spliced :
    (tagged false).Inverts ∧ (tagged false).Total ∧
      sealMessage (P := tagged false) [] (List.replicate 24 7) [] [1, 2, 3] =
        .ok (sealedSevens false) ∧
      ∀ output, openMessage (tagged false) [] [] (spliced false) ≠ .ok output := by
  have hcollision : CollisionFree (P := tagged false) DerivedMessageKey.key [] [] := by
    intro salt salt' derived derived' hsalt hsalt' hderived hderived' hkey
    rw [derive_tagged false hsalt] at hderived
    rw [derive_tagged false hsalt'] at hderived'
    cases hderived
    cases hderived'
    exact append_cancel_right hkey
  obtain ⟨-, hrejects⟩ := only_sealed_accepted rfl hcollision (seal_tagged false)
  exact ⟨tagged_inverts false, tagged_total false, seal_tagged false,
    (hrejects (spliced false) (by decide) (spliced_unforgeable false)).2.1⟩

/-- **A spliced header is accepted where two salts share a message key**, although no record is
forged and no two salts share a commitment. -/
theorem spliced_header_accepted :
    (tagged true).Inverts ∧ (tagged true).Total ∧
      CollisionFree (P := tagged true) DerivedMessageKey.commitment [] [] ∧
      sealMessage (P := tagged true) [] (List.replicate 24 7) [] [1, 2, 3] =
        .ok (sealedSevens true) ∧
      Unforgeable (tagged true) [] (List.replicate 24 7) [] [1, 2, 3] (spliced true) ∧
      spliced true ≠ sealedSevens true ∧
      openMessage (tagged true) [] [] (spliced true) = .ok [1, 2, 3] := by
  refine ⟨tagged_inverts true, tagged_total true, ?_, seal_tagged true, spliced_unforgeable true,
    by decide, rfl⟩
  intro salt salt' derived derived' hsalt hsalt' hderived hderived' hcommitment
  rw [derive_tagged true hsalt] at hderived
  rw [derive_tagged true hsalt'] at hderived'
  cases hderived
  cases hderived'
  exact append_cancel_right hcommitment

end Integrity

end Argmin.Crypto
