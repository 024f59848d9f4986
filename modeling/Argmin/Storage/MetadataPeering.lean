import Argmin.ControlPlane.Types
import Argmin.Storage.DurableJournal

/-!
# Peering from a retained command log

The replicas of a placement group (PG) record every metadata command as a row of a log whose rows
are chained by hash and by the digest of the metadata before and after (`metadata_command.rs`).
From the rows a replica retains, `peering.rs` verifies the chain, works out which commands a
lagging replica needs, and carries the commands over to another cluster epoch.

A command payload enters through its encoding and a checkpoint through its verification, so both
are parameters, with the checksum (`LogEncoding`).
-/

namespace Argmin.Storage

open Fallible
open ControlPlane

/-! ### Commands and log rows -/

structure MetadataCommandId where
  clusterEpoch : ClusterEpoch
  pgId : PgId
  logIndex : Nat
  deriving DecidableEq

structure MetadataCommandEnvelope (Payload : Type) where
  id : MetadataCommandId
  payload : Payload
  checksumCrc64 : Nat
  deriving DecidableEq

structure MetadataCommandCheckpoint where
  clusterEpoch : ClusterEpoch
  pgId : PgId
  appliedLogIndex : Nat
  appliedLogHash : MetadataCommandLogHash
  stateDigest : CanonicalStateDigest
  tables : Bytes
  deriving DecidableEq

/-- The checksum, the kind and fields of a payload in the canonical encoding, and whether the
tables of a checkpoint have its digest. -/
structure LogEncoding (Payload : Type) where
  crc64 : Bytes → Nat
  encodePayload : Payload → Bytes
  verifyCheckpoint : MetadataCommandCheckpoint → Bool

def leBytes (width value : Nat) : Bytes :=
  (List.range width).map fun i => UInt8.ofNat (value >>> (8 * i))

def putBytes (bytes : Bytes) : Bytes := leBytes 4 bytes.length ++ bytes

def MetadataCommandId.encode (id : MetadataCommandId) : Bytes :=
  leBytes 8 id.clusterEpoch ++ leBytes 4 id.pgId ++ leBytes 8 id.logIndex

def abandonedCommandLogBytes (id : MetadataCommandId) (commandChecksum : Nat)
    (commandSha256 : Bytes) : Bytes :=
  putBytes "argmin-metadata-command-abandoned".toUTF8.data.toList ++ leBytes 2 2 ++ id.encode ++
    leBytes 8 commandChecksum ++ commandSha256

def genesisLogHash : MetadataCommandLogHash := ⟨1, 0⟩

inductive MetadataCommandLogRangeEntryKind (Payload : Type)
  | applied (command : MetadataCommandEnvelope Payload)
  | abandoned (originalCommandChecksum : Nat) (originalCommandSha256 : Bytes)
  deriving DecidableEq

structure MetadataCommandLogHashRangeEntry where
  logIndex : Nat
  previousLogHash : MetadataCommandLogHash
  logHash : MetadataCommandLogHash
  deriving DecidableEq

structure MetadataCommandLogRangeEntry (Payload : Type) extends
    MetadataCommandLogHashRangeEntry where
  preStateDigest : Option CanonicalStateDigest
  postStateDigest : Option CanonicalStateDigest
  kind : MetadataCommandLogRangeEntryKind Payload
  deriving DecidableEq

inductive PgMetadataTransferBaseKind
  | empty | retainedLogPrefix | checkpoint
  deriving DecidableEq

inductive PgPeeringReconstructionError
  | primaryMissing (primary : NodeId)
  | missingRetainedCommandStateProof (nodeId : NodeId) (pgId : PgId) (logIndex : Nat)
  | retainedCommandStateDigestFork (nodeId : NodeId) (pgId : PgId)
      (logIndex expectedPreStateDigest actualPreStateDigest postStateDigest : Nat)
  | missingMetadataTransferCheckpointBase (nodeId : NodeId) (pgId : PgId) (proof : PgMetadataProof)
  | metadataTransferCheckpointProofMismatch (nodeId : NodeId) (pgId : PgId)
      (checkpoint expected : PgMetadataProof)
  | unexpectedMetadataTransferCheckpointBase (nodeId : NodeId) (pgId : PgId)
      (baseKind : PgMetadataTransferBaseKind)
  | staleReplicaEpoch (nodeId : NodeId) (replicaEpoch clusterEpoch : ClusterEpoch)
  | pendingMetadataCommand (nodeId : NodeId)
  | replicaAheadOfPrimary (nodeId : NodeId) (replicaLogIndex primaryLogIndex : Nat)
  | metadataFork (nodeId referenceNodeId : NodeId) (replica reference : PgMetadataProof)
  | missingRetainedCommandLogEntry (nodeId : NodeId) (logIndex : Nat)
  | retainedCommandLogFork (nodeId : NodeId)
      (logIndex expectedPreviousLogHash actualPreviousLogHash : Nat)
  | invalidRetainedCommandLogEntry (nodeId : NodeId) (pgId : PgId) (logIndex : Nat)
      (reason : String)
  | retainedCommandLogHashMismatch (nodeId : NodeId)
      (logIndex expectedLogHash actualLogHash : Nat)
  | retainedCommandLogTipMismatch (nodeId : NodeId) (expected actual : PgMetadataProof)
  | unreplayableAbandonedCommandLogEntry (nodeId : NodeId) (logIndex : Nat)
  deriving DecidableEq

variable {Payload : Type} (C : LogEncoding Payload)

namespace LogEncoding

def canonicalCommandBytes (id : MetadataCommandId) (payload : Payload) : Bytes :=
  putBytes "argmin-metadata-command".toUTF8.data.toList ++ leBytes 2 13 ++ id.encode ++
    C.encodePayload payload

def metadataCommandLogHash (clusterEpoch : ClusterEpoch) (pgId : PgId)
    (logIndex previousLogHash commandChecksum : Nat) : MetadataCommandLogHash :=
  ⟨1, C.crc64 (putBytes "ARGMIN-METADATA-COMMAND-LOG-V1".toUTF8.data.toList ++
    leBytes 8 clusterEpoch ++ leBytes 4 pgId ++ leBytes 8 logIndex ++ leBytes 8 previousLogHash ++
    leBytes 8 commandChecksum)⟩

/-- `MetadataCommandEnvelope::new`. -/
def envelope (id : MetadataCommandId) (payload : Payload) : MetadataCommandEnvelope Payload :=
  ⟨id, payload, C.crc64 (C.canonicalCommandBytes id payload)⟩

end LogEncoding

/-! ### Verifying a retained chain -/

structure PgMetadataRetainedChainVerifier where
  nodeId : NodeId
  pgId : PgId
  logEpoch : ClusterEpoch
  proof : PgMetadataProof
  deriving DecidableEq

namespace PgMetadataRetainedChainVerifier

/-- The checksum under which a row enters the hash chain. -/
def entryChecksum (commandId : MetadataCommandId)
    (kind : MetadataCommandLogRangeEntryKind Payload) (pre post : CanonicalStateDigest)
    (invalid : String → PgPeeringReconstructionError) : Except PgPeeringReconstructionError Nat :=
  match kind with
  | .applied command => do
    failIf (command.id ≠ commandId) (invalid "command identity does not match log row")
    let checksum := C.crc64 (C.canonicalCommandBytes command.id command.payload)
    failIf (checksum ≠ command.checksumCrc64)
      (invalid "command checksum does not match canonical bytes")
    pure checksum
  | .abandoned originalCommandChecksum originalCommandSha256 => do
    failIf (post ≠ pre) (invalid "abandonment changed the metadata digest")
    pure (C.crc64 (abandonedCommandLogBytes commandId originalCommandChecksum
      originalCommandSha256))

variable (v : PgMetadataRetainedChainVerifier)

/-- The checks of `append_page` on one row after the proof reached so far. -/
def appendEntry (proof : PgMetadataProof) (entry : MetadataCommandLogRangeEntry Payload) :
    Except PgPeeringReconstructionError PgMetadataProof := do
  let invalid := PgPeeringReconstructionError.invalidRetainedCommandLogEntry v.nodeId v.pgId
    entry.logIndex
  let expectedIndex ← okOr (checkedAdd proof.appliedLogIndex 1) (invalid "log index overflow")
  failIf (entry.logIndex ≠ expectedIndex) (.missingRetainedCommandLogEntry v.nodeId expectedIndex)
  let commandId : MetadataCommandId := ⟨v.logEpoch, v.pgId, entry.logIndex⟩
  failIf (entry.previousLogHash ≠ proof.appliedLogHash)
    (.retainedCommandLogFork v.nodeId entry.logIndex proof.appliedLogHash.value
      entry.previousLogHash.value)
  let pre ← okOr entry.preStateDigest
    (.missingRetainedCommandStateProof v.nodeId v.pgId entry.logIndex)
  let post ← okOr entry.postStateDigest
    (.missingRetainedCommandStateProof v.nodeId v.pgId entry.logIndex)
  failIf (pre ≠ proof.stateDigest) (.retainedCommandStateDigestFork v.nodeId v.pgId entry.logIndex
    proof.stateDigest.value pre.value post.value)
  let checksum ← entryChecksum C commandId entry.kind pre post invalid
  let expectedLogHash := C.metadataCommandLogHash v.logEpoch v.pgId entry.logIndex
    entry.previousLogHash.value checksum
  failIf (entry.logHash ≠ expectedLogHash) (.retainedCommandLogHashMismatch v.nodeId entry.logIndex
    expectedLogHash.value entry.logHash.value)
  pure ⟨entry.logIndex, entry.logHash, post⟩

/-- The result of a page, and the verifier after it.  The proof moves in a local variable until
the whole page is checked. -/
def appendPage (entries : List (MetadataCommandLogRangeEntry Payload)) :
    Except PgPeeringReconstructionError Unit × PgMetadataRetainedChainVerifier :=
  match entries.foldlM (v.appendEntry C) v.proof with
  | .error e => (.error e, v)
  | .ok proof => (.ok (), { v with proof })

def finish (expectedTip : PgMetadataProof) : Except PgPeeringReconstructionError Unit := do
  if v.proof.appliedLogIndex = expectedTip.appliedLogIndex then
    failIf (v.proof.appliedLogHash ≠ expectedTip.appliedLogHash)
      (.retainedCommandLogFork v.nodeId expectedTip.appliedLogIndex v.proof.appliedLogHash.value
        expectedTip.appliedLogHash.value)
    failIf (v.proof.stateDigest ≠ expectedTip.stateDigest)
      (.retainedCommandStateDigestFork v.nodeId v.pgId expectedTip.appliedLogIndex
        expectedTip.stateDigest.value v.proof.stateDigest.value v.proof.stateDigest.value)
  failIf (v.proof ≠ expectedTip) (.retainedCommandLogTipMismatch v.nodeId expectedTip v.proof)

end PgMetadataRetainedChainVerifier

/-! ### Replicas -/

structure MetadataCommandReplicaState where
  clusterEpoch : ClusterEpoch
  appliedLogIndex : Nat
  appliedLogHash : MetadataCommandLogHash
  stateDigest : CanonicalStateDigest
  deriving DecidableEq

/-- `proof_from_replica_state`. -/
def MetadataCommandReplicaState.proof (state : MetadataCommandReplicaState) : PgMetadataProof :=
  ⟨state.appliedLogIndex, state.appliedLogHash, state.stateDigest⟩

structure PgPeeringReplicaReconstructionInput where
  nodeId : NodeId
  state : MetadataCommandReplicaState
  hasPendingMetadataCommand : Bool
  retainedLogHashes : List MetadataCommandLogHashRangeEntry
  deriving DecidableEq

/-- The loop over the log indexes after `fromIndex` up to `toIndex`, each looked up among the
retained rows. -/
def forRetained {α σ : Type} (nodeId : NodeId) (logIndex : α → Nat) (retained : List α)
    (fromIndex toIndex : Nat) (body : σ → α → Except PgPeeringReconstructionError σ) (s : σ) :
    Except PgPeeringReconstructionError σ :=
  (List.range' (fromIndex + 1) (toIndex - fromIndex)).foldlM (fun s index => do
    let entry ← okOr (retained.find? fun entry => logIndex entry = index)
      (.missingRetainedCommandLogEntry nodeId index)
    body s entry) s

def validateEpochAndPending (replica : PgPeeringReplicaReconstructionInput)
    (clusterEpoch : ClusterEpoch) : Except PgPeeringReconstructionError Unit := do
  failIf (replica.state.clusterEpoch ≠ clusterEpoch)
    (.staleReplicaEpoch replica.nodeId replica.state.clusterEpoch clusterEpoch)
  failIf (replica.hasPendingMetadataCommand = true) (.pendingMetadataCommand replica.nodeId)

/-! ### Moving a log to another epoch -/

structure PgMetadataTransferArtifact (Payload : Type) where
  pgId : PgId
  sourceNodeId : NodeId
  clusterEpoch : ClusterEpoch
  baseKind : PgMetadataTransferBaseKind
  baseProof : PgMetadataProof
  checkpointBase : Option MetadataCommandCheckpoint
  proof : PgMetadataProof
  retainedLogEntries : List (MetadataCommandLogRangeEntry Payload)
  deriving DecidableEq

structure MetadataTransferCommand (Payload : Type) where
  command : MetadataCommandEnvelope Payload
  preStateDigest : CanonicalStateDigest
  postStateDigest : CanonicalStateDigest
  deriving DecidableEq

def MetadataCommandLogRangeEntryKind.isAbandoned : MetadataCommandLogRangeEntryKind Payload → Bool
  | .applied _ => false
  | .abandoned _ _ => true

def buildPgMetadataTransferArtifactFromRetainedLogEntries (clusterEpoch : ClusterEpoch)
    (pgId : PgId) (sourceNodeId : NodeId) (state : MetadataCommandReplicaState)
    (hasPendingMetadataCommand : Bool) (retained : List (MetadataCommandLogRangeEntry Payload)) :
    Except PgPeeringReconstructionError (PgMetadataTransferArtifact Payload) := do
  validateEpochAndPending ⟨sourceNodeId, state, hasPendingMetadataCommand, []⟩ clusterEpoch
  let missing := PgPeeringReconstructionError.missingRetainedCommandLogEntry sourceNodeId
    state.appliedLogIndex
  match (retained.map (·.logIndex)).min? with
  | none =>
    failIf (state.appliedLogIndex ≠ 0) missing
    pure ⟨pgId, sourceNodeId, clusterEpoch, .empty, state.proof, none, state.proof, retained⟩
  | some firstIndex =>
    failIf (firstIndex = 0 ∨ state.appliedLogIndex < firstIndex) missing
    -- The smallest index is that of a row.
    let first ← okOr (retained.find? fun entry => entry.logIndex = firstIndex) missing
    let baseDigest ← okOr first.preStateDigest
      (.missingRetainedCommandStateProof sourceNodeId pgId firstIndex)
    let baseProof : PgMetadataProof := ⟨firstIndex - 1, first.previousLogHash, baseDigest⟩
    let baseKind : PgMetadataTransferBaseKind :=
      if baseProof.appliedLogIndex = 0 ∧ baseProof.appliedLogHash.value = 0 then .empty
      else .retainedLogPrefix
    onSome (retained.find? (·.kind.isAbandoned)) fun abandoned =>
      .error (.unreplayableAbandonedCommandLogEntry sourceNodeId abandoned.logIndex)
    let (result, verifier) :=
      PgMetadataRetainedChainVerifier.appendPage C ⟨sourceNodeId, pgId, clusterEpoch, baseProof⟩
        retained
    result
    verifier.finish state.proof
    pure ⟨pgId, sourceNodeId, clusterEpoch, baseKind, baseProof, none, state.proof, retained⟩

variable (artifact : PgMetadataTransferArtifact Payload)

/-- The artifact that the retained rows of an artifact build. -/
def PgMetadataTransferArtifact.rebuild :
    Except PgPeeringReconstructionError (PgMetadataTransferArtifact Payload) :=
  buildPgMetadataTransferArtifactFromRetainedLogEntries C artifact.clusterEpoch artifact.pgId
    artifact.sourceNodeId ⟨artifact.clusterEpoch, artifact.proof.appliedLogIndex,
      artifact.proof.appliedLogHash, artifact.proof.stateDigest⟩ false artifact.retainedLogEntries

/-- The checks that a rebase makes before it moves the commands of a checkpoint's suffix, or finds
that there are none. -/
def validateCheckpointBase : Except PgPeeringReconstructionError Unit := do
  let checkpoint ← okOr artifact.checkpointBase
    (.missingMetadataTransferCheckpointBase artifact.sourceNodeId artifact.pgId artifact.baseProof)
  let checkpointProof : PgMetadataProof :=
    ⟨checkpoint.appliedLogIndex, checkpoint.appliedLogHash, checkpoint.stateDigest⟩
  failIf (C.verifyCheckpoint checkpoint = false ∨
      checkpoint.clusterEpoch ≠ artifact.clusterEpoch ∨ checkpoint.pgId ≠ artifact.pgId ∨
      checkpointProof ≠ artifact.baseProof)
    (.metadataTransferCheckpointProofMismatch artifact.sourceNodeId artifact.pgId checkpointProof
      artifact.baseProof)
  if artifact.retainedLogEntries = [] then
    failIf (artifact.baseProof ≠ artifact.proof)
      (.metadataTransferCheckpointProofMismatch artifact.sourceNodeId artifact.pgId checkpointProof
        artifact.proof)
  else
    let validated ← artifact.rebuild C
    failIf (validated.baseProof ≠ artifact.baseProof ∨ validated.proof ≠ artifact.proof)
      (.retainedCommandStateDigestFork artifact.sourceNodeId artifact.pgId
        (artifact.baseProof.appliedLogIndex + 1) artifact.baseProof.stateDigest.value
        validated.baseProof.stateDigest.value artifact.proof.stateDigest.value)

def validateRetainedBase : Except PgPeeringReconstructionError Unit := do
  failIf (artifact.checkpointBase ≠ none)
    (.unexpectedMetadataTransferCheckpointBase artifact.sourceNodeId artifact.pgId
      artifact.baseKind)
  let validated ← artifact.rebuild C
  failIf (validated.baseProof ≠ artifact.baseProof)
    (.retainedCommandStateDigestFork artifact.sourceNodeId artifact.pgId
      (artifact.baseProof.appliedLogIndex + 1) artifact.baseProof.stateDigest.value
      validated.baseProof.stateDigest.value validated.baseProof.stateDigest.value)
  failIf (validated.baseKind ≠ artifact.baseKind)
    (.retainedCommandStateDigestFork artifact.sourceNodeId artifact.pgId
      (artifact.baseProof.appliedLogIndex + 1) validated.baseProof.stateDigest.value
      artifact.baseProof.stateDigest.value artifact.baseProof.stateDigest.value)

/-- One row of the rebase, after the commands so far. -/
def rebaseRow (destination : ClusterEpoch) (commands : List (MetadataTransferCommand Payload))
    (retained : MetadataCommandLogRangeEntry Payload) :
    Except PgPeeringReconstructionError (List (MetadataTransferCommand Payload)) := do
  let missing := PgPeeringReconstructionError.missingRetainedCommandStateProof
    artifact.sourceNodeId artifact.pgId retained.logIndex
  match retained.kind with
  | .abandoned _ _ =>
    .error (.unreplayableAbandonedCommandLogEntry artifact.sourceNodeId retained.logIndex)
  | .applied command =>
    let pre ← okOr retained.preStateDigest missing
    let post ← okOr retained.postStateDigest missing
    pure (commands ++ [⟨C.envelope ⟨destination, artifact.pgId,
      retained.logIndex - artifact.baseProof.appliedLogIndex⟩ command.payload, pre, post⟩])

def rebasePgMetadataTransferArtifactCommands (destination : ClusterEpoch) :
    Except PgPeeringReconstructionError (List (MetadataTransferCommand Payload)) := do
  if artifact.baseKind = .checkpoint then validateCheckpointBase C artifact
  else validateRetainedBase C artifact
  forRetained artifact.sourceNodeId (·.logIndex) artifact.retainedLogEntries
    artifact.baseProof.appliedLogIndex artifact.proof.appliedLogIndex
    (rebaseRow C artifact destination) []

/-- `metadata_transfer_destination_proof`. -/
def metadataTransferDestinationProof (commands : List (MetadataTransferCommand Payload))
    (destination : ClusterEpoch) :
    PgMetadataProof :=
  ⟨commands.length, commands.foldl (fun hash transfer =>
      C.metadataCommandLogHash destination artifact.pgId transfer.command.id.logIndex hash.value
        transfer.command.checksumCrc64) genesisLogHash,
    artifact.proof.stateDigest⟩

end Argmin.Storage
