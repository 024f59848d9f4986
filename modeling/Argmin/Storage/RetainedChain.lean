import Argmin.Storage.MetadataPeering

/-!
# What the retained chain verifier accepts

* `verifyPages_iff` — however a log is split into pages, the verifier accepts it exactly
  when its rows form a chain from the floor to the tip;
* `rebase_preserves_commands` — a transfer artifact rebased to another epoch keeps its commands,
  their order and their digests.
-/

namespace Argmin.Storage

open Fallible List
open ControlPlane

variable {Payload : Type} {C : LogEncoding Payload} {epoch : ClusterEpoch} {pg : PgId}

/-! ### The loop over the retained rows -/

/-- Where the retained rows go on from the head without a gap, the loop visits them in order. -/
theorem forRetained_append {α σ : Type} {nodeId : NodeId} {logIndex : α → Nat}
    {later : List α} {head : Nat} {body : σ → α → Except PgPeeringReconstructionError σ}
    (before : List α) (hbefore : ∀ entry ∈ before, logIndex entry ≤ head)
    (hlater : later.map logIndex = List.range' (head + 1) later.length) (s : σ) :
    forRetained nodeId logIndex (before ++ later) head (head + later.length) body s =
      later.foldlM body s := by
  rw [forRetained, Nat.add_sub_cancel_left]
  induction later generalizing before head s with
  | nil => rfl
  | cons entry later ih =>
    obtain ⟨hentry, hlater⟩ := cons.inj hlater
    have hfind : (before ++ entry :: later).find? (fun entry => logIndex entry = head + 1) =
        some entry := by
      rw [find?_append, find?_eq_none.mpr, Option.none_or, find?_cons_of_pos]
      · exact decide_eq_true hentry
      · intro other hother
        have := hbefore other hother
        simp only [decide_eq_true_eq]
        omega
    rw [length_cons, range'_succ, foldlM_cons, foldlM_cons, hfind, okOr, ok_bind]
    refine congrArg _ (funext fun s => ?_)
    rw [append_cons]
    refine ih _ (forall_mem_append.mpr ⟨fun other hother => ?_, ?_⟩) hlater s
    · exact Nat.le_succ_of_le (hbefore other hother)
    · exact forall_mem_singleton.mpr (by rw [hentry])

/-! ### Chains -/

/-- A row that records an outcome of the command with this identity, under this checksum: the
command itself, or a tombstone that leaves the digest alone. -/
def Records (C : LogEncoding Payload) (id : MetadataCommandId) (pre post : CanonicalStateDigest) :
    MetadataCommandLogRangeEntryKind Payload → Nat → Prop
  | .applied command, checksum => command.id = id ∧ command.checksumCrc64 = checksum ∧
      checksum = C.crc64 (C.canonicalCommandBytes command.id command.payload)
  | .abandoned sum sha, checksum => post = pre ∧
      checksum = C.crc64 (abandonedCommandLogBytes id sum sha)

/-- A row that leads from one proof to the next. -/
structure Extends (C : LogEncoding Payload) (epoch : ClusterEpoch) (pg : PgId)
    (previous : PgMetadataProof) (entry : MetadataCommandLogRangeEntry Payload)
    (next : PgMetadataProof) : Prop where
  index : entry.logIndex = previous.appliedLogIndex + 1
  bounded : entry.logIndex < 2 ^ 64
  previousHash : entry.previousLogHash = previous.appliedLogHash
  hash : ∃ checksum, Records C ⟨epoch, pg, entry.logIndex⟩ previous.stateDigest next.stateDigest
      entry.kind checksum ∧
    entry.logHash = C.metadataCommandLogHash epoch pg entry.logIndex previous.appliedLogHash.value
      checksum
  pre : entry.preStateDigest = some previous.stateDigest
  post : entry.postStateDigest = some next.stateDigest
  nextIndex : next.appliedLogIndex = entry.logIndex
  nextHash : next.appliedLogHash = entry.logHash

/-- The rows lead, one after the other, from the floor to the tip. -/
inductive RetainedChain (C : LogEncoding Payload) (epoch : ClusterEpoch) (pg : PgId) :
    PgMetadataProof → List (MetadataCommandLogRangeEntry Payload) → PgMetadataProof → Prop
  | nil (floor : PgMetadataProof) : RetainedChain C epoch pg floor [] floor
  | cons {floor next tip : PgMetadataProof} {entry : MetadataCommandLogRangeEntry Payload}
      {entries : List (MetadataCommandLogRangeEntry Payload)}
      (hentry : Extends C epoch pg floor entry next)
      (hentries : RetainedChain C epoch pg next entries tip) :
      RetainedChain C epoch pg floor (entry :: entries) tip

/-- The rows of a chain are numbered without a gap. -/
theorem RetainedChain.map_logIndex {floor tip : PgMetadataProof}
    {entries : List (MetadataCommandLogRangeEntry Payload)}
    (h : RetainedChain C epoch pg floor entries tip) :
    entries.map (·.logIndex) = List.range' (floor.appliedLogIndex + 1) entries.length ∧
      tip.appliedLogIndex = floor.appliedLogIndex + entries.length := by
  induction h with
  | nil => exact ⟨rfl, rfl⟩
  | cons hentry _ ih =>
    rw [hentry.nextIndex, hentry.index] at ih
    refine ⟨?_, ?_⟩
    · rw [map_cons, ih.1, hentry.index]
      rfl
    · rw [ih.2, length_cons]
      omega

namespace PgMetadataRetainedChainVerifier

variable {v : PgMetadataRetainedChainVerifier} {proof tip : PgMetadataProof}
  {entries : List (MetadataCommandLogRangeEntry Payload)}

theorem entryChecksum_eq_ok {id : MetadataCommandId} {pre post : CanonicalStateDigest}
    {kind : MetadataCommandLogRangeEntryKind Payload}
    {invalid : String → PgPeeringReconstructionError} {checksum : Nat} :
    entryChecksum C id kind pre post invalid = .ok checksum ↔
      Records C id pre post kind checksum := by
  cases kind with
  | applied command =>
    simp only [entryChecksum, failIf_bind_eq_ok, pure_eq_ok, Decidable.not_not, Records]
    constructor
    · rintro ⟨hid, hsum, rfl⟩
      exact ⟨hid, hsum.symm, rfl⟩
    · rintro ⟨hid, rfl, hsum⟩
      exact ⟨hid, hsum.symm, hsum.symm⟩
  | abandoned sum sha =>
    simp only [entryChecksum, failIf_bind_eq_ok, pure_eq_ok, Decidable.not_not, Records,
      eq_comm (a := checksum)]

/-- One row is accepted exactly when it extends the proof. -/
theorem appendEntry_eq_ok {next : PgMetadataProof} {entry : MetadataCommandLogRangeEntry Payload} :
    v.appendEntry C proof entry = .ok next ↔ Extends C v.logEpoch v.pgId proof entry next := by
  obtain ⟨index, hash, digest⟩ := next
  simp only [appendEntry, okOr_bind_eq_ok, failIf_bind_eq_ok, checkedAdd_eq_some,
    Decidable.not_not]
  constructor
  · rintro ⟨_, ⟨rfl, hbound⟩, hindex, hprevious, pre, hpre, post, hpost, rfl, hrow⟩
    obtain ⟨checksum, hsum, hrow⟩ := bind_eq_ok.mp hrow
    obtain ⟨hhash, ⟨⟩⟩ := failIf_bind_eq_ok.mp hrow
    rw [Decidable.not_not, hprevious] at hhash
    exact ⟨hindex, hindex.symm ▸ hbound, hprevious,
      ⟨checksum, entryChecksum_eq_ok.mp hsum, hhash⟩, hpre, hpost, rfl, rfl⟩
  · rintro ⟨hindex, hbound, hprevious, ⟨checksum, hrecords, hhash⟩, hpre, hpost, rfl, rfl⟩
    refine ⟨_, ⟨rfl, hindex ▸ hbound⟩, hindex, hprevious, _, hpre, _, hpost, rfl,
      bind_eq_ok.mpr ⟨checksum, entryChecksum_eq_ok.mpr hrecords,
        failIf_bind_eq_ok.mpr ⟨?_, rfl⟩⟩⟩
    rw [Decidable.not_not, hhash, hprevious]

theorem foldlM_appendEntry :
    entries.foldlM (v.appendEntry C) proof = .ok tip ↔
      RetainedChain C v.logEpoch v.pgId proof entries tip := by
  induction entries generalizing proof with
  | nil =>
    rw [foldlM_nil, pure_eq_ok]
    constructor
    · rintro rfl
      exact .nil proof
    · rintro ⟨⟩
      rfl
  | cons entry entries ih =>
    simp only [foldlM_cons, bind_eq_ok, appendEntry_eq_ok, ih]
    constructor
    · rintro ⟨next, hentry, hentries⟩
      exact .cons hentry hentries
    · rintro (_ | ⟨hentry, hentries⟩)
      exact ⟨_, hentry, hentries⟩

theorem finish_eq_ok : v.finish tip = .ok () ↔ v.proof = tip := by
  constructor
  · intro h
    simp only [finish] at h
    split at h
    · simp only [failIf_bind_eq_ok] at h
      exact Decidable.not_not.mp (failIf_eq_ok.mp h.2.2)
    · exact Decidable.not_not.mp (failIf_eq_ok.mp h)
  · rintro rfl
    simp [finish, failIf]

theorem chain_of_appendPage (happend : (v.appendPage C entries).1 = .ok ())
    (hfinish : (v.appendPage C entries).2.finish tip = .ok ()) :
    RetainedChain C v.logEpoch v.pgId v.proof entries tip := by
  rw [← foldlM_appendEntry]
  rw [appendPage] at happend hfinish
  cases hfold : entries.foldlM (v.appendEntry C) v.proof with
  | error e =>
    rw [hfold] at happend
    cases happend
  | ok proof =>
    rw [hfold] at hfinish
    exact congrArg _ (finish_eq_ok.mp hfinish)

/-- The pages in order, up to the first that is rejected. -/
def appendPages (C : LogEncoding Payload) (v : PgMetadataRetainedChainVerifier) :
    List (List (MetadataCommandLogRangeEntry Payload)) →
      Except PgPeeringReconstructionError Unit × PgMetadataRetainedChainVerifier
  | [] => (.ok (), v)
  | page :: pages =>
    match v.appendPage C page with
    | (.error e, v) => (.error e, v)
    | (.ok _, v) => v.appendPages C pages

def verifyPages (C : LogEncoding Payload) (v : PgMetadataRetainedChainVerifier)
    (pages : List (List (MetadataCommandLogRangeEntry Payload))) (tip : PgMetadataProof) :
    Except PgPeeringReconstructionError Unit :=
  match v.appendPages C pages with
  | (.error e, _) => .error e
  | (.ok _, v) => v.finish tip

/-- The page boundaries do not matter. -/
theorem verifyPages_eq {pages : List (List (MetadataCommandLogRangeEntry Payload))} :
    v.verifyPages C pages tip = pages.flatten.foldlM (v.appendEntry C) v.proof >>= fun proof =>
      PgMetadataRetainedChainVerifier.finish { v with proof } tip := by
  induction pages generalizing v with
  | nil => rfl
  | cons page pages ih =>
    rw [verifyPages, appendPages, appendPage, flatten_cons, foldlM_append]
    cases page.foldlM (v.appendEntry C) v.proof with
    | error e => rfl
    | ok proof => exact ih (v := { v with proof })

/-- **The verifier accepts exactly the chains.**  Whatever the pages, they are all accepted and
reach the tip exactly when their rows lead from the floor to the tip; and a rejected page leaves
the verifier as it was. -/
theorem verifyPages_iff (nodeId : NodeId) (pg : PgId) (epoch : ClusterEpoch)
    (floor tip : PgMetadataProof) (pages : List (List (MetadataCommandLogRangeEntry Payload))) :
    (verifyPages C ⟨nodeId, pg, epoch, floor⟩ pages tip = .ok () ↔
      RetainedChain C epoch pg floor pages.flatten tip) ∧
    ∀ (v v' : PgMetadataRetainedChainVerifier) (page : List (MetadataCommandLogRangeEntry Payload))
      (e : PgPeeringReconstructionError), v.appendPage C page = (.error e, v') → v' = v := by
  refine ⟨?_, fun v v' page e h => ?_⟩
  · rw [verifyPages_eq, bind_eq_ok]
    simp only [finish_eq_ok, foldlM_appendEntry, exists_eq_right]
  · rw [appendPage] at h
    split at h
    · exact (congrArg Prod.snd h).symm
    · cases congrArg Prod.fst h

end PgMetadataRetainedChainVerifier

/-- An encoding with a checksum that is always the same. -/
def constantEncoding : LogEncoding Unit := ⟨fun _ => 7, fun _ => [], fun _ => true⟩

/-- The first row of PG 5 in epoch 1, with a command of the given epoch. -/
def firstRow (epoch : ClusterEpoch) : MetadataCommandLogRangeEntry Unit :=
  let command := constantEncoding.envelope ⟨epoch, 5, 1⟩ ()
  ⟨⟨1, genesisLogHash, constantEncoding.metadataCommandLogHash 1 5 1 genesisLogHash.value
    command.checksumCrc64⟩, some ⟨1, 0⟩, some ⟨1, 3⟩, .applied command⟩

/-- A row that follows its floor by index, hash and digest, and reaches the tip, but holds a command
of another epoch. -/
theorem verifyPages_other_epoch :
    (firstRow 2).logIndex = 0 + 1 ∧ (firstRow 2).previousLogHash = genesisLogHash ∧
      (firstRow 2).logHash = constantEncoding.metadataCommandLogHash 1 5 1 genesisLogHash.value
        (constantEncoding.crc64 (constantEncoding.canonicalCommandBytes ⟨2, 5, 1⟩ ())) ∧
      PgMetadataRetainedChainVerifier.verifyPages constantEncoding
          ⟨4, 5, 1, ⟨0, genesisLogHash, ⟨1, 0⟩⟩⟩ [[firstRow 2]] ⟨1, (firstRow 2).logHash, ⟨1, 3⟩⟩ =
        .error (.invalidRetainedCommandLogEntry 4 5 1
          "command identity does not match log row") := by
  decide +kernel

/-! ### Rebasing a transfer artifact -/

section Rebase

variable {artifact : PgMetadataTransferArtifact Payload} {destination : ClusterEpoch}
  {commands : List (MetadataTransferCommand Payload)}
  {entries : List (MetadataCommandLogRangeEntry Payload)} {floor : PgMetadataProof} {index : Nat}

/-- What is built from retained rows is a chain of them. -/
theorem chain_of_rebuild {validated : PgMetadataTransferArtifact Payload}
    (h : artifact.rebuild C = .ok validated) :
    RetainedChain C artifact.clusterEpoch artifact.pgId validated.baseProof
      artifact.retainedLogEntries artifact.proof := by
  rw [PgMetadataTransferArtifact.rebuild, buildPgMetadataTransferArtifactFromRetainedLogEntries,
    check_bind_eq_ok] at h
  obtain ⟨-, h⟩ := h
  split at h
  · next hmin =>
    obtain ⟨-, ⟨⟩⟩ := failIf_bind_eq_ok.mp h
    rw [map_eq_nil_iff.mp (min?_eq_none_iff.mp hmin)]
    exact .nil _
  · obtain ⟨-, h⟩ := failIf_bind_eq_ok.mp h
    obtain ⟨first, -, h⟩ := okOr_bind_eq_ok.mp h
    obtain ⟨digest, -, h⟩ := okOr_bind_eq_ok.mp h
    obtain ⟨-, h⟩ := check_bind_eq_ok.mp h
    obtain ⟨happend, h⟩ := check_bind_eq_ok.mp h
    obtain ⟨hfinish, ⟨⟩⟩ := check_bind_eq_ok.mp h
    exact PgMetadataRetainedChainVerifier.chain_of_appendPage happend hfinish

/-- An artifact that is rebased is a chain from its base to its proof. -/
theorem chain_of_rebase
    (h : rebasePgMetadataTransferArtifactCommands C artifact destination = .ok commands) :
    RetainedChain C artifact.clusterEpoch artifact.pgId artifact.baseProof
        artifact.retainedLogEntries artifact.proof ∧
      artifact.retainedLogEntries.foldlM (rebaseRow C artifact destination) [] = .ok commands := by
  have hchain : RetainedChain C artifact.clusterEpoch artifact.pgId artifact.baseProof
      artifact.retainedLogEntries artifact.proof := by
    rw [rebasePgMetadataTransferArtifactCommands] at h
    split at h
    · obtain ⟨h, -⟩ := check_bind_eq_ok.mp h
      simp only [validateCheckpointBase, okOr_bind_eq_ok, failIf_bind_eq_ok] at h
      obtain ⟨checkpoint, -, -, h⟩ := h
      split at h
      · next hnil =>
        rw [hnil, Decidable.not_not.mp (failIf_eq_ok.mp h)]
        exact .nil _
      · obtain ⟨validated, hbuild, h⟩ := bind_eq_ok.mp h
        rw [← Decidable.not_not.mp fun hne => failIf_eq_ok.mp h (.inl hne)]
        exact chain_of_rebuild hbuild
    · obtain ⟨h, -⟩ := check_bind_eq_ok.mp h
      simp only [validateRetainedBase, failIf_bind_eq_ok] at h
      obtain ⟨-, h⟩ := h
      obtain ⟨validated, hbuild, h⟩ := bind_eq_ok.mp h
      obtain ⟨hbase, -⟩ := failIf_bind_eq_ok.mp h
      rw [← Decidable.not_not.mp hbase]
      exact chain_of_rebuild hbuild
  refine ⟨hchain, ?_⟩
  obtain ⟨hindex, htip⟩ := hchain.map_logIndex
  rw [← forRetained_append [] (forall_mem_nil _) hindex, ← htip]
  rw [rebasePgMetadataTransferArtifactCommands] at h
  split at h <;> exact (check_bind_eq_ok.mp h).2

/-- A transferred command has the payload and the digests of its row. -/
def CarriesOver (C : LogEncoding Payload) (artifact : PgMetadataTransferArtifact Payload)
    (destination : ClusterEpoch) (entry : MetadataCommandLogRangeEntry Payload)
    (transfer : MetadataTransferCommand Payload) : Prop :=
  ∃ source, entry.kind = .applied source ∧
    transfer.command = C.envelope ⟨destination, artifact.pgId,
      entry.logIndex - artifact.baseProof.appliedLogIndex⟩ source.payload ∧
    entry.preStateDigest = some transfer.preStateDigest ∧
    entry.postStateDigest = some transfer.postStateDigest

theorem carriesOver_of_rebaseRow {before : List (MetadataTransferCommand Payload)}
    (h : entries.foldlM (rebaseRow C artifact destination) before = .ok commands) :
    ∃ more, commands = before ++ more ∧
      List.Forall₂ (CarriesOver C artifact destination) entries more := by
  induction entries generalizing before with
  | nil =>
    cases h
    exact ⟨[], (append_nil _).symm, .nil⟩
  | cons entry entries ih =>
    obtain ⟨next, hrow, h⟩ := bind_eq_ok.mp h
    simp only [rebaseRow] at hrow
    split at hrow
    · cases hrow
    · next source hkind =>
      simp only [okOr_bind_eq_ok, pure_eq_ok] at hrow
      obtain ⟨pre, hpre, post, hpost, rfl⟩ := hrow
      obtain ⟨more, rfl, hmore⟩ := ih h
      exact ⟨_ :: more, append_assoc _ _ _,
        .cons ⟨source, hkind, rfl, hpre, hpost⟩ hmore⟩

/-- The row that a destination writes for a transferred command, after a hash. -/
def transferRow (C : LogEncoding Payload) (destination : ClusterEpoch) (pg : PgId)
    (hash : MetadataCommandLogHash) (transfer : MetadataTransferCommand Payload) :
    MetadataCommandLogRangeEntry Payload :=
  ⟨⟨transfer.command.id.logIndex, hash, C.metadataCommandLogHash destination pg
      transfer.command.id.logIndex hash.value transfer.command.checksumCrc64⟩,
    some transfer.preStateDigest, some transfer.postStateDigest, .applied transfer.command⟩

def transferRows (C : LogEncoding Payload) (destination : ClusterEpoch) (pg : PgId) :
    MetadataCommandLogHash → List (MetadataTransferCommand Payload) →
      List (MetadataCommandLogRangeEntry Payload)
  | _, [] => []
  | hash, transfer :: commands =>
    let row := transferRow C destination pg hash transfer
    row :: transferRows C destination pg row.logHash commands

/-- The row at the destination leads between the digests between which the row at the source
leads. -/
theorem extends_transferRow {next : PgMetadataProof}
    {entry : MetadataCommandLogRangeEntry Payload} {transfer : MetadataTransferCommand Payload}
    (hentry : Extends C epoch pg floor entry next)
    (hcarried : CarriesOver C artifact destination entry transfer)
    (hindex : floor.appliedLogIndex = artifact.baseProof.appliedLogIndex + index)
    (hash : MetadataCommandLogHash) :
    transfer.command.id.logIndex = index + 1 ∧
      Extends C destination artifact.pgId ⟨index, hash, floor.stateDigest⟩
        (transferRow C destination artifact.pgId hash transfer)
        ⟨index + 1, (transferRow C destination artifact.pgId hash transfer).logHash,
          next.stateDigest⟩ := by
  obtain ⟨source, -, hcommand, hpre, hpost⟩ := hcarried
  rw [hentry.pre] at hpre
  rw [hentry.post] at hpost
  have hid : transfer.command.id = ⟨destination, artifact.pgId, index + 1⟩ := by
    rw [hcommand, hentry.index, hindex, Nat.add_assoc, Nat.add_sub_cancel_left]
    rfl
  have hnumber : transfer.command.id.logIndex = index + 1 := by rw [hid]
  have hbound := hentry.bounded
  rw [hentry.index, hindex] at hbound
  refine ⟨hnumber, hnumber, ?_, rfl, ⟨_, ⟨?_, rfl, ?_⟩, rfl⟩, hpre.symm, hpost.symm, hnumber.symm,
    rfl⟩
  · change transfer.command.id.logIndex < _
    omega
  · change transfer.command.id = ⟨_, _, transfer.command.id.logIndex⟩
    rw [hnumber, hid]
  · rw [hcommand]
    rfl

/-- The rows at the destination are a chain through the digests of the source. -/
theorem chain_transferRows {tip : PgMetadataProof}
    (hchain : RetainedChain C epoch pg floor entries tip)
    (hcommands : List.Forall₂ (CarriesOver C artifact destination) entries commands)
    (hindex : floor.appliedLogIndex = artifact.baseProof.appliedLogIndex + index)
    (hash : MetadataCommandLogHash) :
    commands.map (·.command.id.logIndex) = List.range' (index + 1) commands.length ∧
      RetainedChain C destination artifact.pgId ⟨index, hash, floor.stateDigest⟩
        (transferRows C destination artifact.pgId hash commands)
        ⟨index + commands.length, commands.foldl (fun hash transfer =>
          C.metadataCommandLogHash destination artifact.pgId transfer.command.id.logIndex hash.value
            transfer.command.checksumCrc64) hash, tip.stateDigest⟩ := by
  induction hchain generalizing commands index hash with
  | nil =>
    cases hcommands
    exact ⟨rfl, .nil _⟩
  | @cons floor next tip entry entries hentry hentries ih =>
    obtain ⟨transfer, commands, hcarried, hrest, rfl⟩ := forall₂_cons_left_iff.mp hcommands
    obtain ⟨hnumber, hrow⟩ := extends_transferRow hentry hcarried hindex hash
    have hnext : next.appliedLogIndex = artifact.baseProof.appliedLogIndex + (index + 1) := by
      rw [hentry.nextIndex, hentry.index, hindex, Nat.add_assoc]
    obtain ⟨hnumbers, hlater⟩ := ih hrest hnext _
    rw [map_cons, hnumber, hnumbers, length_cons, Nat.add_comm commands.length,
      ← Nat.add_assoc]
    exact ⟨by rw [Nat.add_comm 1, range'_succ], .cons hrow hlater⟩

/-- **A rebase preserves the commands.**  When an artifact is rebased, its rows are a chain from its
base to its proof, and there is one command for each row, in order: the row was applied, and the
command has its payload and its digests.  The commands are numbered from one in the destination
epoch, and the rows written for them from an empty log are a chain that goes through the digests of
the source. -/
theorem rebase_preserves_commands {commands : List (MetadataTransferCommand Payload)}
    (h : rebasePgMetadataTransferArtifactCommands C artifact destination = .ok commands) :
    RetainedChain C artifact.clusterEpoch artifact.pgId artifact.baseProof
        artifact.retainedLogEntries artifact.proof ∧
      List.Forall₂ (CarriesOver C artifact destination) artifact.retainedLogEntries commands ∧
      commands.map (·.command.id.logIndex) = List.range' 1 commands.length ∧
      RetainedChain C destination artifact.pgId
        ⟨0, genesisLogHash, artifact.baseProof.stateDigest⟩
        (transferRows C destination artifact.pgId genesisLogHash commands)
        (metadataTransferDestinationProof C artifact commands destination) := by
  obtain ⟨hchain, hfold⟩ := chain_of_rebase h
  obtain ⟨_, rfl, hcommands⟩ := carriesOver_of_rebaseRow hfold
  obtain ⟨hnumbers, hrows⟩ := chain_transferRows hchain hcommands (Nat.add_zero _).symm
    genesisLogHash
  rw [Nat.zero_add] at hnumbers hrows
  exact ⟨hchain, hcommands, hnumbers, hrows⟩

end Rebase

/-! Two commands with different payloads, in two places of the log of PG 5. -/

def sumEncoding : LogEncoding Nat :=
  ⟨fun bytes => bytes.foldl (fun sum byte => 31 * sum + byte.toNat) 0 % 2 ^ 64, leBytes 8,
    fun _ => true⟩

def twoCommands (epoch : ClusterEpoch) (index : Nat) : List (MetadataTransferCommand Nat) :=
  [⟨sumEncoding.envelope ⟨epoch, 5, index⟩ 11, ⟨1, 0⟩, ⟨1, 3⟩⟩,
    ⟨sumEncoding.envelope ⟨epoch, 5, index + 1⟩ 22, ⟨1, 3⟩, ⟨1, 4⟩⟩]

/-- The rows 2 and 3 of epoch 1, rebased to epoch 9. -/
theorem rebase_preserves_two_commands :
    let rows := transferRows sumEncoding 1 5 ⟨1, 6⟩ (twoCommands 1 2)
    ∃ tip ∈ rows.getLast?,
      let artifact := ⟨5, 4, 1, .retainedLogPrefix, ⟨1, ⟨1, 6⟩, ⟨1, 0⟩⟩, none,
        ⟨3, tip.logHash, ⟨1, 4⟩⟩, rows⟩
      rebasePgMetadataTransferArtifactCommands sumEncoding artifact 9 = .ok (twoCommands 9 1) ∧
        List.Forall₂ (CarriesOver sumEncoding artifact 9) rows (twoCommands 9 1) ∧
        (twoCommands 9 1).map (·.command.id.logIndex) = [1, 2] := by
  refine ⟨_, rfl, ?_⟩
  intro artifact
  have h : rebasePgMetadataTransferArtifactCommands sumEncoding artifact 9 =
      .ok (twoCommands 9 1) := by decide +kernel
  obtain ⟨-, hcarried, hnumbers, -⟩ := rebase_preserves_commands h
  exact ⟨h, hcarried, hnumbers⟩

end Argmin.Storage
