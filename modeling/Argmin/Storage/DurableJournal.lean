import Argmin.Lib.BigEndian
import Argmin.Lib.Fallible

/-!
# The durable journal

A journal file is a header, which names the logical offset of the first byte after it, followed by
frames: the length of the frame, the complement of that length, and the frame's bytes.  A file is
a byte list, absent until the first append.

* `recovers_whole_frames` — whatever prefix of the written bytes a crash leaves at or past the
  header, replay returns the frames that lie wholly in it, and the journal truncated to the clean
  length goes on from there;
* `compaction_preserves_offsets` — under appends, compactions and replacements a journal reads, at
  every logical offset it still has, as the journal that never dropped a byte.

A logical offset is a 64-bit number.  Where the source adds a file length to the base it checks the
sum, except for replay, where the sum wraps.  The sums of the header length and a distance between
two offsets are followed by a comparison with the length of the file.
-/

namespace Argmin.Storage

open Fallible BigEndian
open Sha256 (beBytes)

abbrev Bytes := List UInt8

inductive JournalError
  | commandDecode (message : String)
  | io (context : String)
  deriving DecidableEq

inductive DurableJournalFileHeaderFormatError
  | truncated
  | checksumMismatch (expected actual : Nat)
  | unknownMagic
  | unsupportedVersion (version : Nat)

structure DurableJournalFormat where
  fileMagic : Bytes
  fileVersion : UInt16
  label : String

/-- The contexts of the two input errors that a missing file can cause. -/
structure DurableJournalIoContexts where
  openFileHeader : String
  readForCompaction : String

/-- A journal, apart from the bytes of its file.  `checksum` is the 64-bit checksum of headers. -/
structure DurableJournalFile where
  format : DurableJournalFormat
  contexts : DurableJournalIoContexts
  checksum : Bytes → UInt64

structure DurableJournalOffsets where
  baseOffset : Nat
  cleanLen : Nat
  deriving DecidableEq

structure DurableJournalFrames where
  frames : List Bytes
  cleanLen : Nat
  truncatedTail : Bool
  deriving DecidableEq

def frameLengthLen : Nat := 4

def framePrefixLen : Nat := frameLengthLen * 2

def checksumLen : Nat := 8

/-- The bytes of a 32-bit length, its complement, and the frame. -/
def encodeFrame (frame : Bytes) : Bytes :=
  beBytes frameLengthLen frame.length ++ beBytes frameLengthLen (2 ^ 32 - 1 - frame.length) ++ frame

def encodeFrames (frames : List Bytes) : Bytes := frames.flatMap encodeFrame

/-- A number as `0x` and its hexadecimal digits. -/
def hexText (n : Nat) : String := "0x" ++ String.ofList (Nat.toDigits 16 n)

namespace DurableJournalFile

variable (j : DurableJournalFile)

def headerLen : Nat := j.format.fileMagic.length + 2 + 8 + checksumLen

def protocolError (message : String) : JournalError := .commandDecode message

/-- The part of the header under its checksum. -/
def headerBody (baseOffset : Nat) : Bytes :=
  j.format.fileMagic ++ beBytes 2 j.format.fileVersion.toNat ++ beBytes 8 baseOffset

def encodeFileHeader (baseOffset : Nat) : Bytes :=
  j.headerBody baseOffset ++ beBytes checksumLen (j.checksum (j.headerBody baseOffset)).toNat

def encodeFileBytes (baseOffset : Nat) (frames : Bytes) : Bytes :=
  j.encodeFileHeader baseOffset ++ frames

/-- The base offset of a header. -/
def decodeFileHeaderClassified (bytes : Bytes) :
    Except DurableJournalFileHeaderFormatError Nat :=
  if bytes = [] then .ok 0
  else do
    failIf (bytes.length < j.headerLen) .truncated
    let header := bytes.take (j.headerLen - checksumLen)
    let expectedChecksum := ofBytes ((bytes.take j.headerLen).drop (j.headerLen - checksumLen))
    let actualChecksum := (j.checksum header).toNat
    failIf (actualChecksum ≠ expectedChecksum) (.checksumMismatch expectedChecksum actualChecksum)
    let versionStart := j.format.fileMagic.length
    failIf (header.take versionStart ≠ j.format.fileMagic) .unknownMagic
    let version := ofBytes ((header.drop versionStart).take 2)
    failIf (version ≠ j.format.fileVersion.toNat) (.unsupportedVersion version)
    pure (ofBytes ((header.drop (versionStart + 2)).take 8))

def fileHeaderFormatError : DurableJournalFileHeaderFormatError → JournalError
  | .truncated => protocolError s!"truncated {j.format.label} file header"
  | .checksumMismatch expected actual =>
    protocolError (s!"{j.format.label} file header checksum mismatch: expected " ++
      s!"{hexText expected}, actual {hexText actual}")
  | .unknownMagic => protocolError s!"invalid {j.format.label} file header magic"
  | .unsupportedVersion version =>
    protocolError s!"unsupported {j.format.label} file header version {version}"

def decodeFileHeader (bytes : Bytes) : Except JournalError Nat :=
  (j.decodeFileHeaderClassified bytes).mapError j.fileHeaderFormatError

variable (file : Option Bytes)

def readFileBaseOffset : Except JournalError Nat := do
  let bytes ← okOr file (.io j.contexts.openFileHeader)
  j.decodeFileHeader (bytes.take j.headerLen)

/-- The file once the frame is written: a missing or empty file gets its header first. -/
def appendFrame (frame : Bytes) : Except JournalError Bytes := do
  failIf (2 ^ 32 ≤ frame.length)
    (protocolError s!"{j.format.label} frame length {frame.length} exceeds u32::MAX")
  failIf (frame.length = 0) (protocolError s!"zero-length {j.format.label} frame")
  let bytes := file.getD []
  if bytes = [] then
    pure (j.encodeFileHeader 0 ++ encodeFrame frame)
  else do
    let _ ← j.readFileBaseOffset bytes
    pure (bytes ++ encodeFrame frame)

def statusOffsets : Except JournalError DurableJournalOffsets :=
  let bytes := file.getD []
  if bytes = [] then .ok ⟨0, 0⟩
  else do
    let baseOffset ← j.readFileBaseOffset bytes
    failIf (bytes.length < j.headerLen)
      (protocolError s!"truncated {j.format.label} file header")
    let cleanLen ← okOr (checkedAdd baseOffset (bytes.length - j.headerLen))
      (protocolError s!"{j.format.label} status length overflows")
    pure ⟨baseOffset, cleanLen⟩

/-- The frames of the bytes from a frame boundary on; `cleanLen` is the boundary's logical offset.
Every frame takes bytes, so a fuel above the number of bytes is never used up. -/
def replayFrames : Nat → Bytes → Nat → Except JournalError DurableJournalFrames
  | 0, _, cleanLen => .ok ⟨[], cleanLen, false⟩
  | fuel + 1, bytes, cleanLen =>
    if bytes = [] then .ok ⟨[], cleanLen, false⟩
    else if bytes.length < framePrefixLen then .ok ⟨[], cleanLen, true⟩
    else do
      let frameLen := ofBytes (bytes.take frameLengthLen)
      let frameLenCheck := ofBytes ((bytes.drop frameLengthLen).take frameLengthLen)
      failIf (frameLenCheck ≠ 2 ^ 32 - 1 - frameLen)
        (protocolError s!"{j.format.label} frame length check mismatch")
      failIf (frameLen = 0) (protocolError s!"zero-length {j.format.label} frame")
      let remaining := bytes.drop framePrefixLen
      if remaining.length < frameLen then pure ⟨[], cleanLen, true⟩
      else do
        let later ← replayFrames fuel (remaining.drop frameLen)
          ((cleanLen + framePrefixLen + frameLen) % 2 ^ 64)
        pure { later with frames := remaining.take frameLen :: later.frames }

def readFramesFrom (replayOffset : Nat) : Except JournalError DurableJournalFrames :=
  match file with
  | none => do
    failIf (replayOffset ≠ 0)
      (protocolError s!"{j.format.label} replay offset {replayOffset} has no journal file")
    pure ⟨[], 0, false⟩
  | some [] => do
    failIf (replayOffset ≠ 0)
      (protocolError s!"{j.format.label} replay offset {replayOffset} has an empty journal file")
    pure ⟨[], 0, false⟩
  | some bytes => do
    let baseOffset ← j.decodeFileHeader bytes
    failIf (replayOffset < baseOffset)
      (protocolError (s!"{j.format.label} replay offset {replayOffset} is before compacted base " ++
        s!"offset {baseOffset}"))
    let physical := j.headerLen + (replayOffset - baseOffset)
    failIf (bytes.length < physical)
      (protocolError (s!"{j.format.label} replay offset {physical} exceeds journal length " ++
        s!"{bytes.length}"))
    j.replayFrames (bytes.length + 1 - physical) (bytes.drop physical) replayOffset

/-- Setting the length of a file cuts it, or fills it up with zeros. -/
def setLen (bytes : Bytes) (len : Nat) : Bytes :=
  bytes.take len ++ List.replicate (len - bytes.length) 0

def truncateToCleanLen (cleanLen : Nat) : Except JournalError Bytes := do
  let baseOffset ← j.readFileBaseOffset file
  failIf (cleanLen < baseOffset)
    (protocolError (s!"{j.format.label} clean length {cleanLen} is before base offset " ++
      s!"{baseOffset}"))
  pure (setLen (file.getD []) (j.headerLen + (cleanLen - baseOffset)))

def compactThrough (replayOffset : UInt64) : Except JournalError (Option Bytes) :=
  match file with
  | none => do
    failIf (replayOffset ≠ 0)
      (protocolError s!"{j.format.label} compaction offset {replayOffset} has no journal file")
    pure none
  | some [] => do
    failIf (replayOffset ≠ 0)
      (protocolError
        s!"{j.format.label} compaction offset {replayOffset} has an empty journal file")
    pure (some [])
  | some bytes => do
    let baseOffset ← j.decodeFileHeader bytes
    failIf (replayOffset.toNat < baseOffset)
      (protocolError (s!"{j.format.label} compaction offset {replayOffset} is before " ++
        s!"base offset {baseOffset}"))
    let suffixStart := j.headerLen + (replayOffset.toNat - baseOffset)
    failIf (bytes.length < suffixStart)
      (protocolError (s!"{j.format.label} compaction offset {replayOffset} exceeds journal " ++
        s!"length {bytes.length - j.headerLen} from base offset {baseOffset}"))
    if replayOffset.toNat = baseOffset then pure (some bytes)
    else pure (some (j.encodeFileBytes replayOffset.toNat (bytes.drop suffixStart)))

/-- The bytes of the frames of a replacement. -/
def replacementBytes : List Bytes → Except JournalError Bytes
  | [] => pure []
  | frame :: frames => do
    failIf (2 ^ 32 ≤ frame.length)
      (protocolError
        s!"{j.format.label} replacement frame length {frame.length} exceeds u32::MAX")
    failIf (frame.length = 0) (protocolError s!"zero-length {j.format.label} frame")
    let later ← replacementBytes frames
    pure (encodeFrame frame ++ later)

def replaceFrom (replayOffset expectedCleanLen : UInt64)
    (frames : List Bytes) : Except JournalError Bytes := do
  let bytes ← okOr file (.io j.contexts.readForCompaction)
  let baseOffset ← j.decodeFileHeader bytes
  failIf (replayOffset.toNat < baseOffset)
    (protocolError (s!"{j.format.label} replacement offset {replayOffset} is before base offset " ++
      s!"{baseOffset}"))
  failIf (bytes.length < j.headerLen) (protocolError s!"truncated {j.format.label} file header")
  let cleanLen ← okOr (checkedAdd baseOffset (bytes.length - j.headerLen))
    (protocolError s!"{j.format.label} clean length overflows")
  failIf (cleanLen ≠ expectedCleanLen.toNat)
    (protocolError (s!"{j.format.label} changed during checkpoint replacement: expected clean " ++
      s!"length {expectedCleanLen}, actual {cleanLen}"))
  failIf (cleanLen < replayOffset.toNat)
    (protocolError (s!"{j.format.label} replacement offset {replayOffset} exceeds clean length " ++
      s!"{cleanLen}"))
  let replacement ← j.replacementBytes frames
  pure (j.encodeFileBytes replayOffset.toNat replacement)

end DurableJournalFile

end Argmin.Storage
