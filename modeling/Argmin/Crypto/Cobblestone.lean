import Argmin.Lib.Fallible

/-!
# Chunked message encryption

The pinned Cobblestone-256 profile.  A message is a header (salt and key commitment) followed by
records of 16 KiB of plaintext, each sealed under a nonce that carries its index; the last record
is always shorter than a full one, and empty when the plaintext is a multiple of the chunk length.

The file models the geometry of a message (`Cobblestone256MessageLayout`), the incremental sealer,
and the three ways a whole message is opened: the streaming opener, its whole-record windows that
reuse the caller's buffer, and the one-shot openers.  A call leaves its object and its output
buffer behind also when it fails (`Call`).

AES-256-GCM and HKDF are a parameter (`Primitives`).  Observers that only count are left out.
-/

namespace Argmin.Crypto

open Fallible

abbrev Bytes := List UInt8

/-- The one error of the crate, which says nothing about its cause. -/
inductive CryptoError
  | cryptoError
deriving DecidableEq, Repr

def aes256GcmKeyLen : Nat := 32
def aesGcmNonceLen : Nat := 12
def aesGcmTagLen : Nat := 16

def cobblestoneSaltLen : Nat := 24
def cobblestoneCommitmentLen : Nat := 32
def cobblestoneHeaderLen : Nat := cobblestoneSaltLen + cobblestoneCommitmentLen
def cobblestoneChunkLen : Nat := 16 * 1024
def cobblestoneFullEncryptedChunkLen : Nat := cobblestoneChunkLen + aesGcmTagLen
def cobblestoneMaxChunks : Nat := 2 ^ 38

def derivedMaterialLen : Nat := aes256GcmKeyLen + aesGcmNonceLen + cobblestoneCommitmentLen

def hkdfInfoPrefix : Bytes :=
  "c2sp.org/chunked-encryption@v1+AEAD_AES_256_GCM".toUTF8.data.toList ++ [0]

/-- The cryptographic provider.  Sealing appends a tag to the plaintext; opening works in the
buffer of the record, so what it returns is no longer than the record. -/
structure Primitives where
  Aes256GcmKey : Type
  newKey : Bytes → Except CryptoError Aes256GcmKey
  sealInPlaceAppendTag : Aes256GcmKey → Bytes → Bytes → Bytes → Except CryptoError Bytes
  openInPlace : Aes256GcmKey → Bytes → Bytes → Bytes → Except CryptoError Bytes
  expandSha512 : Nat → Bytes → Bytes → Except CryptoError Bytes
  length_seal : ∀ {key nonce associatedData plaintext record},
    sealInPlaceAppendTag key nonce associatedData plaintext = .ok record →
      record.length = plaintext.length + aesGcmTagLen
  length_open_le : ∀ {key nonce associatedData record plaintext},
    openInPlace key nonce associatedData record = .ok plaintext →
      plaintext.length ≤ record.length
  length_expand : ∀ {length pseudorandomKey info material},
    expandSha512 length pseudorandomKey info = .ok material → material.length = length

/-! ### Arithmetic and buffers -/

/-- A 64-bit product, absent when it does not fit. -/
def checkedMul (a b : Nat) : Option Nat :=
  if a * b < 2 ^ 64 then some (a * b) else none

/-- A difference of unsigned numbers, absent when it would be negative. -/
def checkedSub (a b : Nat) : Option Nat :=
  if b ≤ a then some (a - b) else none

/-- A half-open range of positions. -/
structure Range where
  start : Nat
  stop : Nat
deriving DecidableEq, Repr

namespace Range

def len (self : Range) : Nat := self.stop - self.start

theorem len_mk_add (start n : Nat) : (mk start (start + n)).len = n := Nat.add_sub_cancel_left ..

end Range

/-- `bytes[start..stop]`, absent when the range is not one of the buffer. -/
def slice (bytes : Bytes) (start stop : Nat) : Option Bytes :=
  if start ≤ stop ∧ stop ≤ bytes.length then some ((bytes.drop start).take (stop - start)) else none

/-- Overwrite the buffer from `offset` on. -/
def writeAt (buffer : Bytes) (offset : Nat) (bytes : Bytes) : Bytes :=
  buffer.take offset ++ bytes ++ buffer.drop (offset + bytes.length)

/-- `buffer.copy_within(start..start + length, destination)`. -/
def copyWithin (buffer : Bytes) (start length destination : Nat) : Bytes :=
  writeAt buffer destination ((buffer.drop start).take length)

/-! ### Keys and nonces -/

section Keys

variable (P : Primitives)

structure DerivedMessageKey where
  key : P.Aes256GcmKey
  baseNonce : Bytes
  commitment : Bytes

variable {P}

def deriveMessageKey (inputKey salt context : Bytes) :
    Except CryptoError (DerivedMessageKey P) := do
  let info := hkdfInfoPrefix ++ salt ++ context
  let material ← P.expandSha512 derivedMaterialLen inputKey info
  let nonceStart := aes256GcmKeyLen
  let commitmentStart := nonceStart + aesGcmNonceLen
  let key ← P.newKey (material.take aes256GcmKeyLen)
  pure {
    key := key
    baseNonce := (material.drop nonceStart).take (commitmentStart - nonceStart)
    commitment := material.drop commitmentStart }

end Keys

/-- The eight bytes of a 64-bit number, most significant first. -/
def toBeBytes (n : Nat) : Bytes :=
  (List.range 8).map fun i => UInt8.ofNat (n / 256 ^ (7 - i))

/-- The base nonce with the chunk index in its last five bytes. -/
def nonceForChunk (baseNonce : Bytes) (chunkIndex : Nat) : Except CryptoError Bytes := do
  failIf (cobblestoneMaxChunks ≤ chunkIndex) .cryptoError
  let counter := toBeBytes chunkIndex
  let nonceCounterStart := baseNonce.length - 5
  let counterStart := counter.length - 5
  pure (baseNonce.take nonceCounterStart ++
    List.zipWith (· ^^^ ·) (baseNonce.drop nonceCounterStart) (counter.drop counterStart))

/-! ### The geometry of a message -/

structure Cobblestone256MessageLayout where
  ciphertextLen : Nat
  plaintextLen : Nat
  fullChunks : Nat
  terminalCiphertextLen : Nat
deriving DecidableEq, Repr

structure Cobblestone256SelectedRange where
  layout : Cobblestone256MessageLayout
  plaintextRange : Range
  firstChunk : Nat
  lastChunk : Nat
  ciphertextRange : Range
deriving DecidableEq, Repr

namespace Cobblestone256MessageLayout

def fromCiphertextLen (ciphertextLen : Nat) :
    Except CryptoError Cobblestone256MessageLayout := do
  let bodyLen ← okOr (checkedSub ciphertextLen cobblestoneHeaderLen) .cryptoError
  let fullChunks := bodyLen / cobblestoneFullEncryptedChunkLen
  let terminalCiphertextLen := bodyLen % cobblestoneFullEncryptedChunkLen
  failIf (¬(aesGcmTagLen ≤ terminalCiphertextLen ∧
    terminalCiphertextLen < cobblestoneFullEncryptedChunkLen)) .cryptoError
  let chunkCount ← okOr (checkedAdd fullChunks 1) .cryptoError
  failIf (cobblestoneMaxChunks < chunkCount) .cryptoError
  let plaintextLen ← okOr ((checkedMul fullChunks cobblestoneChunkLen).bind
    (checkedAdd · (terminalCiphertextLen - aesGcmTagLen))) .cryptoError
  pure ⟨ciphertextLen, plaintextLen, fullChunks, terminalCiphertextLen⟩

def fromPlaintextLen (plaintextLen : Nat) :
    Except CryptoError Cobblestone256MessageLayout := do
  let fullChunks := plaintextLen / cobblestoneChunkLen
  let finalPlaintextLen := plaintextLen % cobblestoneChunkLen
  let chunkCount ← okOr (checkedAdd fullChunks 1) .cryptoError
  failIf (cobblestoneMaxChunks < chunkCount) .cryptoError
  let terminalCiphertextLen := finalPlaintextLen + aesGcmTagLen
  let fullLen ← okOr (checkedMul fullChunks cobblestoneFullEncryptedChunkLen) .cryptoError
  let ciphertextLen ← okOr ((checkedAdd cobblestoneHeaderLen fullLen).bind
    (checkedAdd · terminalCiphertextLen)) .cryptoError
  pure ⟨ciphertextLen, plaintextLen, fullChunks, terminalCiphertextLen⟩

variable (self : Cobblestone256MessageLayout)

def chunkCount : Nat := self.fullChunks + 1

def ciphertextRangeForChunk (chunkIndex : Nat) : Except CryptoError Range := do
  failIf (self.chunkCount ≤ chunkIndex) .cryptoError
  let offset ← okOr (checkedMul chunkIndex cobblestoneFullEncryptedChunkLen) .cryptoError
  let start ← okOr (checkedAdd cobblestoneHeaderLen offset) .cryptoError
  let length := if chunkIndex < self.fullChunks then cobblestoneFullEncryptedChunkLen
    else self.terminalCiphertextLen
  let stop ← okOr (checkedAdd start length) .cryptoError
  pure ⟨start, stop⟩

def plaintextRangeForChunk (chunkIndex : Nat) : Except CryptoError Range := do
  let ciphertextRange ← self.ciphertextRangeForChunk chunkIndex
  let start ← okOr (checkedMul chunkIndex cobblestoneChunkLen) .cryptoError
  let plaintextLength ← okOr (checkedSub ciphertextRange.len aesGcmTagLen) .cryptoError
  let stop ← okOr (checkedAdd start plaintextLength) .cryptoError
  pure ⟨start, stop⟩

/-- The records that hold a nonempty plaintext range. -/
def selectPlaintextRange (plaintextRange : Range) :
    Except CryptoError Cobblestone256SelectedRange := do
  failIf (plaintextRange.stop ≤ plaintextRange.start ∨ self.plaintextLen < plaintextRange.stop)
    .cryptoError
  let firstChunk := plaintextRange.start / cobblestoneChunkLen
  let lastChunk := (plaintextRange.stop - 1) / cobblestoneChunkLen
  let firstCiphertext ← self.ciphertextRangeForChunk firstChunk
  let lastCiphertext ← self.ciphertextRangeForChunk lastChunk
  pure ⟨self, plaintextRange, firstChunk, lastChunk, ⟨firstCiphertext.start, lastCiphertext.stop⟩⟩

end Cobblestone256MessageLayout

/-! ### Sealing -/

/-- What a call leaves behind: its object, its output buffer, and whether it succeeded. -/
structure Call (σ : Type) where
  self : σ
  output : Bytes
  result : Except CryptoError Unit

/-- Go on after a call that succeeded. -/
def Call.andThen {σ : Type} (call : Call σ) (f : σ → Bytes → Call σ) : Call σ :=
  match call.result with
  | .ok () => f call.self call.output
  | .error _ => call

section Construction

variable {P : Primitives}

variable (P) in
structure Cobblestone256Sealer where
  key : P.Aes256GcmKey
  baseNonce : Bytes
  nextChunk : Nat
  pending : Bytes
  failed : Bool

namespace Cobblestone256Sealer

/-- The sealer of a message and the header it writes. -/
def start (inputKey salt context : Bytes) :
    Except CryptoError (Cobblestone256Sealer P × Bytes) := do
  let derived ← deriveMessageKey (P := P) inputKey salt context
  pure (⟨derived.key, derived.baseNonce, 0, [], false⟩, salt ++ derived.commitment)

variable (self : Cobblestone256Sealer P)

def sealChunk (plaintext ciphertext : Bytes) : Call (Cobblestone256Sealer P) :=
  if self.failed then ⟨self, ciphertext, .error .cryptoError⟩
  else
    match nonceForChunk self.baseNonce self.nextChunk >>=
        (P.sealInPlaceAppendTag self.key · [] plaintext) with
    | .error _ => ⟨{ self with failed := true }, ciphertext, .error .cryptoError⟩
    | .ok record =>
      match checkedAdd self.nextChunk 1 with
      | none => ⟨self, ciphertext ++ record, .error .cryptoError⟩
      | some nextChunk => ⟨{ self with nextChunk := nextChunk }, ciphertext ++ record, .ok ()⟩

/-- The loop of `update` over whole chunks, and the rest that is kept for the next call.  Every
iteration takes one chunk, so `fuel` chunks are enough. -/
def updateLoop : Nat → Cobblestone256Sealer P → Bytes → Bytes → Call (Cobblestone256Sealer P)
  | 0, self, plaintext, ciphertext =>
    ⟨{ self with pending := self.pending ++ plaintext }, ciphertext, .ok ()⟩
  | fuel + 1, self, plaintext, ciphertext =>
    if cobblestoneChunkLen ≤ plaintext.length then
      (self.sealChunk (plaintext.take cobblestoneChunkLen) ciphertext).andThen
        fun self ciphertext => updateLoop fuel self (plaintext.drop cobblestoneChunkLen) ciphertext
    else ⟨{ self with pending := self.pending ++ plaintext }, ciphertext, .ok ()⟩

def update (plaintext ciphertext : Bytes) : Call (Cobblestone256Sealer P) :=
  if self.failed then ⟨self, ciphertext, .error .cryptoError⟩
  else if self.pending = [] then
    updateLoop (plaintext.length / cobblestoneChunkLen) self plaintext ciphertext
  else
    -- a chunk that was begun is filled up first
    let wanted := cobblestoneChunkLen - self.pending.length
    let consumed := min wanted plaintext.length
    let pending := self.pending ++ plaintext.take consumed
    let plaintext := plaintext.drop consumed
    (if pending.length = cobblestoneChunkLen then
      ({ self with pending := [] }).sealChunk pending ciphertext
    else ⟨{ self with pending := pending }, ciphertext, .ok ()⟩).andThen fun self ciphertext =>
      updateLoop (plaintext.length / cobblestoneChunkLen) self plaintext ciphertext

def finish (ciphertext : Bytes) : Call (Cobblestone256Sealer P) :=
  ({ self with pending := [] }).sealChunk self.pending ciphertext

/-- A row of updates. -/
def updates (self : Cobblestone256Sealer P) (ciphertext : Bytes) :
    List Bytes → Call (Cobblestone256Sealer P)
  | [] => ⟨self, ciphertext, .ok ()⟩
  | plaintext :: rest =>
    (self.update plaintext ciphertext).andThen fun self ciphertext => self.updates ciphertext rest

/-- Seal a message that is given in pieces. -/
def sealPieces (inputKey salt context : Bytes) (pieces : List Bytes) :
    Except CryptoError Bytes := do
  let (sealer, header) ← start (P := P) inputKey salt context
  let call := (sealer.updates header pieces).andThen fun sealer ciphertext =>
    sealer.finish ciphertext
  call.result
  pure call.output

end Cobblestone256Sealer

/-- Seal a whole message. -/
def sealMessage (inputKey salt context plaintext : Bytes) : Except CryptoError Bytes := do
  let _ ← Cobblestone256MessageLayout.fromPlaintextLen plaintext.length
  Cobblestone256Sealer.sealPieces (P := P) inputKey salt context [plaintext]

/-! ### Opening single records -/

variable (P) in
structure Cobblestone256Opener where
  key : P.Aes256GcmKey
  baseNonce : Bytes

namespace Cobblestone256Opener

def fromHeader (inputKey context header : Bytes) : Except CryptoError (Cobblestone256Opener P) := do
  failIf (header.length ≠ cobblestoneHeaderLen) .cryptoError
  let salt := header.take cobblestoneSaltLen
  let derived ← deriveMessageKey (P := P) inputKey salt context
  failIf (derived.commitment ≠ header.drop cobblestoneSaltLen) .cryptoError
  pure ⟨derived.key, derived.baseNonce⟩

def openChunk (self : Cobblestone256Opener P) (layout : Cobblestone256MessageLayout)
    (chunkIndex : Nat) (ciphertextAndTag : Bytes) : Except CryptoError Bytes := do
  let expected ← layout.ciphertextRangeForChunk chunkIndex
  failIf (ciphertextAndTag.length ≠ expected.len) .cryptoError
  let nonce ← nonceForChunk self.baseNonce chunkIndex
  P.openInPlace self.key nonce [] ciphertextAndTag

/-- The loop of `open_selected_range` over chunk indices; `authenticated` is what was opened so
far. -/
def openSelectedFrom (self : Cobblestone256Opener P) (selection : Cobblestone256SelectedRange)
    (selectedCiphertext : Bytes) : List Nat → Bytes → Except CryptoError Bytes
  | [], authenticated => pure authenticated
  | chunkIndex :: rest, authenticated => do
    let absolute ← selection.layout.ciphertextRangeForChunk chunkIndex
    let start ← okOr (checkedSub absolute.start selection.ciphertextRange.start) .cryptoError
    let stop ← okOr (checkedSub absolute.stop selection.ciphertextRange.start) .cryptoError
    let encryptedChunk ← okOr (slice selectedCiphertext start stop) .cryptoError
    let plaintext ← self.openChunk selection.layout chunkIndex encryptedChunk
    openSelectedFrom self selection selectedCiphertext rest (authenticated ++ plaintext)

def openSelectedRange (self : Cobblestone256Opener P) (selection : Cobblestone256SelectedRange)
    (selectedCiphertext : Bytes) : Except CryptoError Bytes := do
  let expectedLen ← okOr (checkedSub selection.ciphertextRange.stop selection.ciphertextRange.start)
    .cryptoError
  failIf (selectedCiphertext.length ≠ expectedLen) .cryptoError
  let firstPlaintext ← selection.layout.plaintextRangeForChunk selection.firstChunk
  let lastPlaintext ← selection.layout.plaintextRangeForChunk selection.lastChunk
  let _ ← okOr (checkedSub lastPlaintext.stop firstPlaintext.start) .cryptoError
  let authenticated ← self.openSelectedFrom selection selectedCiphertext
    (List.range' selection.firstChunk (selection.lastChunk + 1 - selection.firstChunk)) []
  let selectedStart ← okOr (checkedSub selection.plaintextRange.start firstPlaintext.start)
    .cryptoError
  let selectedEnd ← okOr (checkedSub selection.plaintextRange.stop firstPlaintext.start)
    .cryptoError
  failIf (slice authenticated selectedStart selectedEnd = none) .cryptoError
  pure ((copyWithin authenticated selectedStart (selectedEnd - selectedStart) 0).take
    (selectedEnd - selectedStart))

end Cobblestone256Opener

/-! ### Opening a stream -/

variable (P) in
structure Cobblestone256StreamOpener where
  inputKey : Option Bytes
  context : Bytes
  layout : Cobblestone256MessageLayout
  opener : Option (Cobblestone256Opener P)
  pending : Bytes
  consumed : Nat
  nextChunk : Nat
  failed : Bool
  finished : Bool

namespace Cobblestone256StreamOpener

def new (inputKey context : Bytes) (ciphertextLen : Nat) :
    Except CryptoError (Cobblestone256StreamOpener P) := do
  let layout ← Cobblestone256MessageLayout.fromCiphertextLen ciphertextLen
  pure ⟨some inputKey, context, layout, none, [], 0, 0, false, false⟩

variable (self : Cobblestone256StreamOpener P)

/-- Fail, now and in every later call. -/
def fail (output : Bytes) : Call (Cobblestone256StreamOpener P) :=
  ⟨{ self with failed := true }, output, .error .cryptoError⟩

/-- Take the input key and verify the header. -/
def takeHeader (header output : Bytes) : Call (Cobblestone256StreamOpener P) :=
  match self.inputKey with
  | none => ⟨self, output, .error .cryptoError⟩
  | some inputKey =>
    let taken := { self with inputKey := none, pending := [] }
    match Cobblestone256Opener.fromHeader (P := P) inputKey self.context header with
    | .error _ => taken.fail output
    | .ok opener => ⟨{ taken with opener := some opener }, output, .ok ()⟩

/-- The loop of `update` over records.  Every iteration takes at least one byte, so `fuel` bytes
are enough. -/
def updateLoop : Nat → Cobblestone256StreamOpener P → Bytes → Bytes →
    Call (Cobblestone256StreamOpener P)
  | 0, self, _, plaintext => ⟨self, plaintext, .ok ()⟩
  | fuel + 1, self, ciphertext, plaintext =>
    if ciphertext = [] then ⟨self, plaintext, .ok ()⟩
    else
      match self.layout.ciphertextRangeForChunk self.nextChunk with
      | .error _ => self.fail plaintext
      | .ok range =>
        let wanted := range.len - self.pending.length
        let consumed := min wanted ciphertext.length
        let pending := self.pending ++ ciphertext.take consumed
        let self := { self with pending := pending, consumed := self.consumed + consumed }
        if pending.length = range.len then
          match self.opener with
          | none => ⟨self, plaintext, .error .cryptoError⟩
          | some opener =>
            match opener.openChunk self.layout self.nextChunk pending with
            | .error _ => self.fail plaintext
            | .ok opened =>
              updateLoop fuel { self with pending := [], nextChunk := self.nextChunk + 1 }
                (ciphertext.drop consumed) (plaintext ++ opened)
        else updateLoop fuel self (ciphertext.drop consumed) plaintext

def update (ciphertext plaintext : Bytes) : Call (Cobblestone256StreamOpener P) :=
  if self.failed ∨ self.finished ∨
      (checkedAdd self.consumed ciphertext.length).all (self.layout.ciphertextLen < ·) then
    self.fail plaintext
  else if self.opener.isSome then updateLoop ciphertext.length self ciphertext plaintext
  else
    let wanted := cobblestoneHeaderLen - self.pending.length
    let consumed := min wanted ciphertext.length
    let pending := self.pending ++ ciphertext.take consumed
    let ciphertext := ciphertext.drop consumed
    let self := { self with pending := pending, consumed := self.consumed + consumed }
    (if pending.length = cobblestoneHeaderLen then self.takeHeader pending plaintext
    else ⟨self, plaintext, .ok ()⟩).andThen fun self plaintext =>
      updateLoop ciphertext.length self ciphertext plaintext

/-- The loop of a window: records are opened in `buffer` from `inputOffset` on and moved down to
`outputOffset`.  Every iteration takes at least one byte of the window. -/
def windowLoop : Nat → Cobblestone256StreamOpener P → Bytes → Nat → Nat →
    Call (Cobblestone256StreamOpener P)
  | 0, self, buffer, _, outputOffset => ⟨self, buffer.take outputOffset, .ok ()⟩
  | fuel + 1, self, buffer, inputOffset, outputOffset =>
    if buffer.length ≤ inputOffset then ⟨self, buffer.take outputOffset, .ok ()⟩
    else
      match self.layout.ciphertextRangeForChunk self.nextChunk with
      | .error _ => self.fail []
      | .ok range =>
        let inputEnd := inputOffset + range.len
        if self.consumed ≠ range.start ∨ buffer.length < inputEnd then self.fail []
        else
          match self.opener with
          | none => ⟨self, [], .error .cryptoError⟩
          | some opener =>
            match opener.openChunk self.layout self.nextChunk
                ((buffer.drop inputOffset).take range.len) with
            | .error _ => self.fail []
            | .ok plaintext =>
              let buffer := writeAt buffer inputOffset plaintext
              let buffer := if outputOffset ≠ inputOffset then
                  copyWithin buffer inputOffset plaintext.length outputOffset
                else buffer
              windowLoop fuel
                { self with consumed := range.stop, nextChunk := self.nextChunk + 1 }
                buffer inputEnd (outputOffset + plaintext.length)

def openNextWindowOwned (ciphertext : Bytes) : Call (Cobblestone256StreamOpener P) :=
  if self.failed ∨ self.finished ∨ self.pending ≠ [] ∨ ciphertext = [] then self.fail []
  else if self.opener.isNone then
    if self.consumed ≠ 0 ∨ ciphertext.length ≠ cobblestoneHeaderLen then self.fail []
    else (self.takeHeader ciphertext []).andThen fun self output =>
      ⟨{ self with consumed := cobblestoneHeaderLen }, output, .ok ()⟩
  else windowLoop ciphertext.length self ciphertext 0 0

def openNextOwned (ciphertext : Bytes) : Call (Cobblestone256StreamOpener P) :=
  if self.failed ∨ self.finished ∨ self.pending ≠ [] then self.fail []
  else if self.opener.isNone then
    if self.consumed ≠ 0 ∨ ciphertext.length ≠ cobblestoneHeaderLen then self.fail []
    else (self.takeHeader ciphertext []).andThen fun self output =>
      ⟨{ self with consumed := cobblestoneHeaderLen }, output, .ok ()⟩
  else
    match self.layout.ciphertextRangeForChunk self.nextChunk with
    | .error _ => self.fail []
    | .ok range =>
      if self.consumed ≠ range.start ∨ ciphertext.length ≠ range.len then self.fail []
      else self.openNextWindowOwned ciphertext

def finish : Call (Cobblestone256StreamOpener P) :=
  if self.failed ∨ self.finished ∨ self.consumed ≠ self.layout.ciphertextLen ∨
      self.nextChunk ≠ self.layout.chunkCount ∨ self.pending ≠ [] then
    self.fail []
  else ⟨{ self with finished := true }, [], .ok ()⟩

end Cobblestone256StreamOpener

/-- Open a whole message. -/
def openMessage (P : Primitives) (inputKey context ciphertext : Bytes) :
    Except CryptoError Bytes := do
  let _ ← Cobblestone256MessageLayout.fromCiphertextLen ciphertext.length
  let opener ← Cobblestone256StreamOpener.new (P := P) inputKey context ciphertext.length
  let call := opener.update ciphertext []
  call.result
  call.self.finish.result
  pure call.output

/-- The loop of `open_owned_with_observers` over chunk indices. -/
def openOwnedFrom (opener : Cobblestone256Opener P) (layout : Cobblestone256MessageLayout) :
    List Nat → Bytes → Nat → Except CryptoError Bytes
  | [], buffer, outputOffset => pure (buffer.take outputOffset)
  | chunkIndex :: rest, buffer, outputOffset => do
    let range ← layout.ciphertextRangeForChunk chunkIndex
    let record ← okOr (slice buffer range.start range.stop) .cryptoError
    let plaintext ← opener.openChunk layout chunkIndex record
    let buffer := copyWithin (writeAt buffer range.start plaintext) range.start plaintext.length
      outputOffset
    openOwnedFrom opener layout rest buffer (outputOffset + plaintext.length)

/-- Open a whole message in the buffer that holds it. -/
def openOwned (P : Primitives) (inputKey context ciphertext : Bytes) :
    Except CryptoError Bytes := do
  let layout ← Cobblestone256MessageLayout.fromCiphertextLen ciphertext.length
  let header ← okOr (slice ciphertext 0 cobblestoneHeaderLen) .cryptoError
  let opener ← Cobblestone256Opener.fromHeader (P := P) inputKey context header
  openOwnedFrom opener layout (List.range layout.chunkCount) ciphertext 0

end Construction

end Argmin.Crypto
