import Argmin.ControlPlane.Lease
import Argmin.Lib.Run
import Mathlib.Order.Nat

/-!
# The authority clock

The clock gate of a control-plane authority (`authority_clock.rs`).  It compares each sample of the
wall clock with the progress of a monotonic health clock since a reference sample, and gives out
times while the two agree.  A sample that does not fit, and a change of the Raft term, latch the
clock: no time is given out until an operator re-establishes it under the next generation.

A method changes the clock also when it fails, so each returns the clock with its result.

* `next_cases` — what one call does;
* `blocked_of_run` — a latched clock stays latched until it is re-established;
* `AtLeast.run` — the minimum timestamp does not fall under a mark that is not given up;
* `clock_safety` — what holds over every sequence of calls.
-/

namespace Argmin.ControlPlane

open Fallible

inductive AuthorityClockBlockedReason
  | initialTimestampDiscontinuity
  | raftLeadershipChanged
  | clockSourceUnavailable
  | clockHealthRegression
  | wallClockRegression
  | wallClockForwardJump
  | checkpointPersistenceFailure
deriving DecidableEq, Repr

inductive AuthorityClockError
  | checkpoint (message : String)
  | sourceUnavailable
  | generationOverflow
  | notEstablished (blockedReason : Option AuthorityClockBlockedReason)
  | raftTermMismatch (expectedTerm actualTerm : Option Nat)
  | alreadyEstablished
  | generationMismatch (expectedGeneration actualGeneration : Nat)
  | committedTimestampMismatch (expectedTimestampMs actualTimestampMs : Option Nat)
  | notLocalServingRaftAuthority
  | wallBehindCommittedTimestamp (wallMs committedTimestampHighWaterMs : Nat)
  | leadershipChanged (establishedTerm : Option Nat) (currentTerm : Nat)
  | leaseDeadlineOverflow
  | committedTimestampRegression (timestampMs maxCommittedTimestampMs : Nat)
  | committedTimestampTooFarAhead (timestampMs maxCommittedTimestampMs maxForwardJumpMs : Nat)
deriving DecidableEq, Repr

/-- What a restart checkpoint tells about the clock of the process before. -/
structure AuthorityClockRestartCheckpoint where
  authorityGeneration : Nat
  committedTimestampHighWaterMs : Option Nat
  wallTimeMs : Nat
  healthTimeMs : Nat

structure AuthorityClockContext where
  committedTimestampHighWaterMs : Option Nat
  currentRaftLeadershipTerm : Option Nat
  localRaftAuthorityLeader : Bool
  localRaftAuthorityServing : Bool

structure AuthorityClockStatus where
  generation : Nat
  established : Bool
  blockedReason : Option AuthorityClockBlockedReason
  boundRaftLeadershipTerm : Option Nat
  context : AuthorityClockContext

structure AuthorityClock where
  referenceWallMs : Nat
  referenceClockHealthMs : Nat
  minimumTimestampMs : Option Nat
  raftLeadershipTerm : Option Nat
  initialRaftTermBindingAvailable : Bool
  established : Bool
  generation : Nat
  blockedReason : Option AuthorityClockBlockedReason
  restartContinuityGeneration : Option Nat
deriving DecidableEq

def absDiff (a b : Nat) : Nat := a - b + (b - a)

/-- The restored timestamps continue those of the process that wrote the checkpoint. -/
def AuthorityClockRestartCheckpoint.continues (checkpoint : AuthorityClockRestartCheckpoint)
    (committedMs wallMs clockHealthMs : Nat) : Bool :=
  checkpoint.committedTimestampHighWaterMs.all (· ≤ committedMs) &&
    checkpoint.committedTimestampHighWaterMs.all (· ≤ checkpoint.wallTimeMs) &&
    decide (committedMs ≤ wallMs) &&
    decide (checkpoint.wallTimeMs ≤ wallMs) && decide (checkpoint.healthTimeMs ≤ clockHealthMs) &&
    decide (absDiff (wallMs - checkpoint.wallTimeMs) (clockHealthMs - checkpoint.healthTimeMs) ≤
      controlPlaneClockSkewBudgetMs)

namespace AuthorityClock

def newInternal (maxCommittedTimestampMs : Option Nat) (wallMs : Nat) (clockHealthMs : Option Nat)
    (restartCheckpoint : Option AuthorityClockRestartCheckpoint)
    (allowUncheckpointedInitialState : Bool) : Except AuthorityClockError AuthorityClock := do
  failIf (restartCheckpoint.any (·.authorityGeneration == 0))
    (.checkpoint "checkpoint authority generation must be nonzero")
  let clockHealthMs ← okOr clockHealthMs .sourceUnavailable
  let established := maxCommittedTimestampMs.all fun committedMs =>
    match restartCheckpoint with
    | none => allowUncheckpointedInitialState &&
        decide (absDiff wallMs committedMs ≤ controlPlaneClockSkewBudgetMs)
    | some checkpoint => checkpoint.continues committedMs wallMs clockHealthMs
  let checkpointGeneration := restartCheckpoint.map (·.authorityGeneration)
  pure {
    referenceWallMs := wallMs
    referenceClockHealthMs := clockHealthMs
    minimumTimestampMs := maxCommittedTimestampMs
    raftLeadershipTerm := none
    initialRaftTermBindingAvailable := maxCommittedTimestampMs.isNone
    established := established
    generation := checkpointGeneration.getD 1
    blockedReason := if established then none else some .initialTimestampDiscontinuity
    restartContinuityGeneration := if established then checkpointGeneration else none }

variable (self : AuthorityClock)

/-- Block the clock for a reason, under the next generation unless it is blocked for it already. -/
def latchUnhealthy (reason : AuthorityClockBlockedReason) :
    AuthorityClock × Except AuthorityClockError Unit :=
  let generation := if self.established ∨ self.blockedReason ≠ some reason
    then checkedAdd self.generation 1 else some self.generation
  match generation with
  | none => (self, .error .generationOverflow)
  | some generation => ({ self with
      generation := generation
      established := false
      blockedReason := some reason
      restartContinuityGeneration := none }, .ok ())

/-- Block the clock and fail with `error`, or with the error of the latch. -/
def latchAndFail {α : Type} (self : AuthorityClock) (reason : AuthorityClockBlockedReason)
    (error : AuthorityClockError) : AuthorityClock × Except AuthorityClockError α :=
  let latched := self.latchUnhealthy reason
  (latched.1, latched.2 >>= fun _ => .error error)

def failClosedAfterCheckpointPersistenceFailure :
    AuthorityClock × Except AuthorityClockError Unit :=
  self.latchUnhealthy .checkpointPersistenceFailure

def status (context : AuthorityClockContext) : AuthorityClockStatus :=
  ⟨self.generation, self.established, self.blockedReason, self.raftLeadershipTerm, context⟩

/-- The identity under which the established authority grants leases. -/
def leaseHorizonAuthorityBinding (currentRaftLeadershipTerm : Option Nat) :
    Except AuthorityClockError LeaseHorizonAuthorityBinding := do
  failIf (self.established = false) (.notEstablished self.blockedReason)
  failIf (self.raftLeadershipTerm ≠ currentRaftLeadershipTerm)
    (.raftTermMismatch self.raftLeadershipTerm currentRaftLeadershipTerm)
  failIf (self.generation = 0 ∨ currentRaftLeadershipTerm = some 0) .generationOverflow
  pure ⟨self.generation, currentRaftLeadershipTerm⟩

def advanceGenerationPastLeaseHorizon (previousAuthority : LeaseHorizonAuthorityBinding) :
    AuthorityClock × Except AuthorityClockError Unit :=
  match checkedAdd previousAuthority.clockGeneration 1 with
  | none => (self, .error .generationOverflow)
  | some nextGeneration => ({ self with
      generation := max self.generation nextGeneration
      restartContinuityGeneration := none }, .ok ())

def resumeSingleAuthorityLeaseHorizonGeneration (previousAuthority : LeaseHorizonAuthorityBinding) :
    AuthorityClock × Bool :=
  if self.restartContinuityGeneration ≠ some self.generation ∨ self.established = false ∨
      self.raftLeadershipTerm.isSome ∨ previousAuthority.raftTerm.isSome ∨
      previousAuthority.clockGeneration ≠ self.generation then (self, false)
  else ({ self with restartContinuityGeneration := none }, true)

def bindInitialRaftLeadershipTerm (term : Option Nat) : AuthorityClock :=
  { self with
    raftLeadershipTerm := term
    initialRaftTermBindingAvailable := false
    restartContinuityGeneration := none }

def observeCommittedTimestampHighWater (timestampMs : Option Nat) : AuthorityClock :=
  match timestampMs with
  | none => self
  | some timestampMs => { self with
      minimumTimestampMs := some (self.minimumTimestampMs.elim timestampMs (max · timestampMs)) }

/-- Bind the clock to one locally serving Raft leadership term. -/
def validateRaftLeadershipTerm (term : Nat) : AuthorityClock × Except AuthorityClockError Unit :=
  if self.raftLeadershipTerm = some term then (self, .ok ())
  else if self.raftLeadershipTerm = none ∧ self.minimumTimestampMs = none ∧
      self.initialRaftTermBindingAvailable then
    ({ self with raftLeadershipTerm := some term, initialRaftTermBindingAvailable := false },
      .ok ())
  else self.latchAndFail .raftLeadershipChanged (.leadershipChanged self.raftLeadershipTerm term)

/-- Validate a sample and return a command timestamp that does not go back. -/
def effectiveNowMs (self : AuthorityClock) (wallMs : Nat) (clockHealthMs : Option Nat) :
    AuthorityClock × Except AuthorityClockError Nat :=
  match clockHealthMs with
  | none => self.latchAndFail .clockSourceUnavailable .sourceUnavailable
  | some clockHealthMs =>
    if self.established = false then (self, .error (.notEstablished self.blockedReason))
    else if clockHealthMs < self.referenceClockHealthMs then
      self.latchAndFail .clockHealthRegression
        (.committedTimestampRegression clockHealthMs self.referenceClockHealthMs)
    else
      match checkedAdd self.referenceWallMs (clockHealthMs - self.referenceClockHealthMs) with
      | none => (self, .error .leaseDeadlineOverflow)
      | some expectedWallMs =>
        if controlPlaneClockSkewBudgetMs < absDiff wallMs expectedWallMs then
          if wallMs < expectedWallMs then
            self.latchAndFail .wallClockRegression
              (.committedTimestampRegression wallMs expectedWallMs)
          else self.latchAndFail .wallClockForwardJump
            (.committedTimestampTooFarAhead wallMs expectedWallMs controlPlaneClockSkewBudgetMs)
        else
          let effectiveNowMs := max wallMs (self.minimumTimestampMs.getD wallMs)
          ({ self with minimumTimestampMs := some effectiveNowMs }, .ok effectiveNowMs)

/-- A failed check answers with the status when it has blocked the clock. -/
def statusUnless (context : AuthorityClockContext)
    (error : AuthorityClockError) :
    AuthorityClock × Except AuthorityClockError AuthorityClockStatus :=
  (self, if self.established then .error error else .ok (self.status context))

/-- The check of the term that a context carries, if any. -/
def validateContextTerm : Option Nat → AuthorityClock × Except AuthorityClockError Unit
  | none => (self, .ok ())
  | some term => self.validateRaftLeadershipTerm term

def observeStatus (context : AuthorityClockContext) (wallMs : Nat) (clockHealthMs : Option Nat) :
    AuthorityClock × Except AuthorityClockError AuthorityClockStatus :=
  let observed := self.observeCommittedTimestampHighWater context.committedTimestampHighWaterMs
  let bound := observed.validateContextTerm context.currentRaftLeadershipTerm
  match bound.2 with
  | .error error => bound.1.statusUnless context error
  | .ok () =>
    let sampled := bound.1.effectiveNowMs wallMs clockHealthMs
    match sampled.2 with
    | .error error => sampled.1.statusUnless context error
    | .ok _ => (sampled.1, .ok (sampled.1.status context))

/-- The clock that an operator's command re-establishes: it must name what it saw. -/
def reestablished (expectedGeneration : Nat)
    (expectedCommittedTimestampHighWaterMs expectedRaftLeadershipTerm : Option Nat)
    (context : AuthorityClockContext) (wallMs : Nat) (clockHealthMs : Option Nat) :
    Except AuthorityClockError AuthorityClock := do
  failIf self.established .alreadyEstablished
  failIf (expectedGeneration ≠ self.generation)
    (.generationMismatch expectedGeneration self.generation)
  failIf (expectedCommittedTimestampHighWaterMs ≠ context.committedTimestampHighWaterMs)
    (.committedTimestampMismatch expectedCommittedTimestampHighWaterMs
      context.committedTimestampHighWaterMs)
  failIf (expectedRaftLeadershipTerm ≠ context.currentRaftLeadershipTerm)
    (.raftTermMismatch expectedRaftLeadershipTerm context.currentRaftLeadershipTerm)
  failIf (context.currentRaftLeadershipTerm.isSome ∧ context.localRaftAuthorityServing = false)
    .notLocalServingRaftAuthority
  onSome context.committedTimestampHighWaterMs fun committedMs =>
    failIf (wallMs < committedMs) (.wallBehindCommittedTimestamp wallMs committedMs)
  let clockHealthMs ← okOr clockHealthMs .sourceUnavailable
  let nextGeneration ← okOr (checkedAdd self.generation 1) .generationOverflow
  pure {
    referenceWallMs := wallMs
    referenceClockHealthMs := clockHealthMs
    minimumTimestampMs := context.committedTimestampHighWaterMs
    raftLeadershipTerm := context.currentRaftLeadershipTerm
    initialRaftTermBindingAvailable := false
    established := true
    generation := nextGeneration
    blockedReason := none
    restartContinuityGeneration := none }

end AuthorityClock

/-! ### Sequences of calls -/

inductive ClockEvent
  | sample (wallMs : Nat) (clockHealthMs : Option Nat)
  | term (term : Nat)
  | highWater (timestampMs : Option Nat)
  | status (context : AuthorityClockContext) (wallMs : Nat) (clockHealthMs : Option Nat)
  | reestablish (expectedGeneration : Nat)
      (expectedCommittedTimestampHighWaterMs expectedRaftLeadershipTerm : Option Nat)
      (context : AuthorityClockContext) (wallMs : Nat) (clockHealthMs : Option Nat)
  | checkpointFailure
  | bindInitialTerm (term : Option Nat)
  | pastHorizon (previousAuthority : LeaseHorizonAuthorityBinding)
  | resume (previousAuthority : LeaseHorizonAuthorityBinding)

namespace AuthorityClock

/-- The clock after a call. -/
def next (self : AuthorityClock) : ClockEvent → AuthorityClock
  | .sample wallMs clockHealthMs => (self.effectiveNowMs wallMs clockHealthMs).1
  | .term term => (self.validateRaftLeadershipTerm term).1
  | .highWater timestampMs => self.observeCommittedTimestampHighWater timestampMs
  | .status context wallMs clockHealthMs => (self.observeStatus context wallMs clockHealthMs).1
  | .reestablish generation mark term context wallMs clockHealthMs =>
    (self.reestablished generation mark term context wallMs clockHealthMs).toOption.getD self
  | .checkpointFailure => self.failClosedAfterCheckpointPersistenceFailure.1
  | .bindInitialTerm term => self.bindInitialRaftLeadershipTerm term
  | .pastHorizon previous => (self.advanceGenerationPastLeaseHorizon previous).1
  | .resume previous => (self.resumeSingleAuthorityLeaseHorizonGeneration previous).1

/-- The time that a call of `effective_now_ms` returns. -/
def time (self : AuthorityClock) : ClockEvent → Option Nat
  | .sample wallMs clockHealthMs => (self.effectiveNowMs wallMs clockHealthMs).2.toOption
  | _ => none

end AuthorityClock

def clockStep (self : AuthorityClock) (event : ClockEvent) : Option AuthorityClock :=
  some (self.next event)

/-- The committed high-water mark that a call tells the clock. -/
def ClockEvent.mark : ClockEvent → Option Nat
  | .highWater timestampMs => timestampMs
  | .status context _ _ => context.committedTimestampHighWaterMs
  | .reestablish _ _ _ context _ _ => context.committedTimestampHighWaterMs
  | _ => none

namespace AuthorityClock

/-- The call re-establishes the clock. -/
inductive Reestablishes (c : AuthorityClock) : ClockEvent → Prop
  | intro {generation : Nat} {mark term : Option Nat} {context : AuthorityClockContext}
      {wallMs : Nat} {clockHealthMs : Option Nat} {d : AuthorityClock}
      (h : c.reestablished generation mark term context wallMs clockHealthMs = .ok d) :
      c.Reestablishes (.reestablish generation mark term context wallMs clockHealthMs)

variable (c : AuthorityClock)

/-- The clock learns of the committed mark: from a call, unless it is a refused re-establishment. -/
def Observes (event : ClockEvent) (m : Nat) : Prop :=
  event.mark = some m ∧
    (c.Reestablishes event ∨ ¬∃ g mark term context wallMs clockHealthMs,
      event = .reestablish g mark term context wallMs clockHealthMs)

/-- The sample has no health time, one before the reference, or a wall time that is off the
prediction. -/
def Deviates (wallMs : Nat) : Option Nat → Prop
  | none => True
  | some clockHealthMs => clockHealthMs < c.referenceClockHealthMs ∨
      ∃ expectedWallMs, checkedAdd c.referenceWallMs (clockHealthMs - c.referenceClockHealthMs) =
        some expectedWallMs ∧ controlPlaneClockSkewBudgetMs < absDiff wallMs expectedWallMs

/-- The term is not the bound one, and the clock does not bind its first term to it. -/
def TermChanges (term : Nat) : Prop :=
  c.raftLeadershipTerm ≠ some term ∧ ¬(c.raftLeadershipTerm = none ∧
    c.minimumTimestampMs = none ∧ c.initialRaftTermBindingAvailable)

/-- The call shows a sample that deviates or a term that changes. -/
def Violates : ClockEvent → Prop
  | .sample wallMs clockHealthMs => c.Deviates wallMs clockHealthMs
  | .term term => c.TermChanges term
  | .status context wallMs clockHealthMs => c.Deviates wallMs clockHealthMs ∨
      ∃ term ∈ context.currentRaftLeadershipTerm, (c.observeCommittedTimestampHighWater
        context.committedTimestampHighWaterMs).TermChanges term
  | _ => False

/-! ### What a call does -/

/-- The minimum timestamp is at or above the mark. -/
def AtLeast (m : Nat) : Prop := ∃ m', c.minimumTimestampMs = some m' ∧ m ≤ m'

/-- What every call but a re-establishment leaves: no generation is reused, a blocked clock is not
unblocked, and the minimum timestamp is kept or raised. -/
structure Follows (c d : AuthorityClock) : Prop where
  generation : c.generation ≤ d.generation
  blocked : c.established = false → d.established = false
  minimum : ∀ m, c.minimumTimestampMs = some m → ∃ m', d.minimumTimestampMs = some m' ∧ m ≤ m'

variable {c d : AuthorityClock} {wallMs t m : Nat} {clockHealthMs : Option Nat} {event : ClockEvent}
  {past : List AuthorityClock} {Ok : AuthorityClock → ClockEvent → Prop}

theorem Follows.refl (c : AuthorityClock) : c.Follows c :=
  ⟨le_rfl, id, fun m h => ⟨m, h, le_rfl⟩⟩

theorem Follows.atLeast (h : c.Follows d) : c.AtLeast m → d.AtLeast m := by
  rintro ⟨m', hm', hle⟩
  obtain ⟨m'', hm'', hle'⟩ := h.minimum m' hm'
  exact ⟨m'', hm'', hle.trans hle'⟩

theorem Follows.trans {e : AuthorityClock} (h : c.Follows d) (h' : d.Follows e) : c.Follows e :=
  ⟨h.generation.trans h'.generation, h'.blocked ∘ h.blocked, fun m hm =>
    h'.atLeast (h.minimum m hm)⟩

variable (c)

theorem follows_latchUnhealthy (reason : AuthorityClockBlockedReason) :
    c.Follows (c.latchUnhealthy reason).1 := by
  simp only [latchUnhealthy]
  split
  · exact .refl c
  · next generation hgeneration =>
    refine ⟨?_, fun _ => rfl, (Follows.refl c).minimum⟩
    split at hgeneration
    · have := (checkedAdd_eq_some.mp hgeneration).1
      show c.generation ≤ generation
      omega
    · cases hgeneration
      exact le_rfl

variable {c} in
/-- A latch blocks the clock, unless the generations of an established one are used up. -/
theorem blocked_of_latch (reason : AuthorityClockBlockedReason)
    (hroom : c.established = true → c.generation + 1 < 2 ^ 64) :
    (c.latchUnhealthy reason).1.established = false := by
  by_cases hestablished : c.established = true
  · have hadd : checkedAdd c.generation 1 = some (c.generation + 1) :=
      checkedAdd_eq_some.mpr ⟨rfl, hroom hestablished⟩
    simp [latchUnhealthy, hestablished, hadd]
  · exact (follows_latchUnhealthy c reason).blocked (Bool.eq_false_iff.mpr hestablished)

theorem follows_observe (mark : Option Nat) :
    c.Follows (c.observeCommittedTimestampHighWater mark) := by
  cases mark with
  | none => exact .refl c
  | some timestampMs =>
    refine ⟨le_rfl, id, fun m hm => ⟨max m timestampMs, ?_, le_max_left ..⟩⟩
    simp [observeCommittedTimestampHighWater, hm]

theorem follows_validateTerm (term : Nat) : c.Follows (c.validateRaftLeadershipTerm term).1 := by
  unfold validateRaftLeadershipTerm
  split
  · exact .refl c
  · split
    · exact ⟨le_rfl, id, (Follows.refl c).minimum⟩
    · exact follows_latchUnhealthy c _

theorem follows_effectiveNow (wallMs : Nat) (clockHealthMs : Option Nat) :
    c.Follows (c.effectiveNowMs wallMs clockHealthMs).1 := by
  unfold effectiveNowMs
  split
  · exact follows_latchUnhealthy c _
  · split
    · exact .refl c
    · split
      · exact follows_latchUnhealthy c _
      · split
        · exact .refl c
        · split
          · split <;> exact follows_latchUnhealthy c _
          · refine ⟨le_rfl, id, fun m hm => ⟨_, rfl, ?_⟩⟩
            rw [hm]
            exact le_max_right ..

theorem follows_validateContextTerm (term : Option Nat) :
    c.Follows (c.validateContextTerm term).1 := by
  cases term with
  | none => exact .refl c
  | some term => exact follows_validateTerm c term

/-- A status query observes the mark, checks the term and then takes a sample. -/
theorem observeStatus_fst (context : AuthorityClockContext) :
    (c.observeStatus context wallMs clockHealthMs).1 =
      let bound := (c.observeCommittedTimestampHighWater
        context.committedTimestampHighWaterMs).validateContextTerm context.currentRaftLeadershipTerm
      match bound.2 with
      | .error _ => bound.1
      | .ok _ => (bound.1.effectiveNowMs wallMs clockHealthMs).1 := by
  simp only [observeStatus]
  split
  · next hbound =>
    rw [hbound]
    rfl
  · next hbound =>
    rw [hbound]
    split <;> rfl

theorem follows_observeStatus (context : AuthorityClockContext) (wallMs : Nat)
    (clockHealthMs : Option Nat) :
    (c.observeCommittedTimestampHighWater context.committedTimestampHighWaterMs).Follows
      (c.observeStatus context wallMs clockHealthMs).1 := by
  have hbound := follows_validateContextTerm
    (c.observeCommittedTimestampHighWater context.committedTimestampHighWaterMs)
    context.currentRaftLeadershipTerm
  rw [observeStatus_fst]
  dsimp only
  split
  · exact hbound
  · exact hbound.trans (follows_effectiveNow _ wallMs clockHealthMs)

variable {c} in
theorem reestablished_spec {generation : Nat} {mark term : Option Nat}
    {context : AuthorityClockContext}
    (h : c.reestablished generation mark term context wallMs clockHealthMs = .ok d) :
    d.minimumTimestampMs = context.committedTimestampHighWaterMs ∧
      d.generation = c.generation + 1 := by
  simp only [reestablished, check_bind_eq_ok, okOr_bind_eq_ok, checkedAdd_eq_some, pure_eq_ok] at h
  obtain ⟨-, -, -, -, -, -, _, -, next, ⟨hnext, -⟩, rfl⟩ := h
  exact ⟨rfl, hnext.symm⟩

/-- **What one call does.**  It re-establishes the clock, or leaves one that follows it. -/
theorem next_cases (event : ClockEvent) :
    c.Reestablishes event ∧ (c.next event).minimumTimestampMs = event.mark ∧
        (c.next event).generation = c.generation + 1 ∨
      ¬c.Reestablishes event ∧ c.Follows (c.next event) := by
  cases event with
  | sample wallMs clockHealthMs =>
    exact .inr ⟨by rintro ⟨⟩, follows_effectiveNow c wallMs clockHealthMs⟩
  | term term => exact .inr ⟨by rintro ⟨⟩, follows_validateTerm c term⟩
  | highWater mark => exact .inr ⟨by rintro ⟨⟩, follows_observe c mark⟩
  | status context wallMs clockHealthMs =>
    exact .inr ⟨by rintro ⟨⟩, (follows_observe c _).trans
      (follows_observeStatus c context wallMs _)⟩
  | reestablish generation mark term context wallMs clockHealthMs =>
    cases h : c.reestablished generation mark term context wallMs clockHealthMs with
    | ok d =>
      have hnext : c.next (.reestablish generation mark term context wallMs clockHealthMs) = d := by
        simp [next, h, Except.toOption]
      rw [hnext]
      exact .inl ⟨.intro h, reestablished_spec h⟩
    | error e =>
      refine .inr ⟨fun hre => ?_, ?_⟩
      · cases hre with
        | intro hok => cases h.symm.trans hok
      · simp only [next, h, Except.toOption, Option.getD_none]
        exact .refl c
  | checkpointFailure => exact .inr ⟨by rintro ⟨⟩, follows_latchUnhealthy c _⟩
  | bindInitialTerm term => exact .inr ⟨by rintro ⟨⟩, le_rfl, id, (Follows.refl c).minimum⟩
  | pastHorizon previous =>
    refine .inr ⟨by rintro ⟨⟩, ?_⟩
    simp only [next, advanceGenerationPastLeaseHorizon]
    split
    · exact .refl c
    · exact ⟨le_max_left .., id, (Follows.refl c).minimum⟩
  | resume previous =>
    refine .inr ⟨by rintro ⟨⟩, ?_⟩
    simp only [next, resumeSingleAuthorityLeaseHorizonGeneration]
    split
    · exact .refl c
    · exact ⟨le_rfl, id, (Follows.refl c).minimum⟩

variable {c}

theorem latchAndFail_ne_ok {α : Type} {reason : AuthorityClockBlockedReason}
    {error : AuthorityClockError} {a : α} : (c.latchAndFail reason error).2 ≠ .ok a := by
  intro h
  obtain ⟨_, -, herror⟩ := bind_eq_ok.mp h
  cases herror

/-- A time is given out by an established clock, not under its minimum, and becomes the minimum. -/
theorem effectiveNow_eq_ok (h : (c.effectiveNowMs wallMs clockHealthMs).2 = .ok t) :
    c.established = true ∧ (∀ m, c.AtLeast m → m ≤ t) ∧
      (c.effectiveNowMs wallMs clockHealthMs).1.AtLeast t := by
  unfold effectiveNowMs at h ⊢
  split at h
  · exact absurd h latchAndFail_ne_ok
  · split at h
    · cases h
    · next hestablished =>
      split at h
      · exact absurd h latchAndFail_ne_ok
      · next hhealth =>
        split at h
        · cases h
        · next hexpected =>
          split at h
          · split at h <;> exact absurd h latchAndFail_ne_ok
          · next hskew =>
            cases h
            rw [if_neg hestablished, if_neg hhealth]
            simp only [if_neg hskew]
            refine ⟨Bool.of_not_eq_false hestablished, fun m ⟨m', hm', hle⟩ => hle.trans ?_,
              _, rfl, le_rfl⟩
            rw [hm']
            exact le_max_right ..

theorem time_spec (h : c.time event = some t) :
    c.established = true ∧ (∀ m, c.AtLeast m → m ≤ t) ∧ (c.next event).AtLeast t := by
  cases event with
  | sample wallMs clockHealthMs =>
    cases hnow : (c.effectiveNowMs wallMs clockHealthMs).2 with
    | error e => simp [time, hnow, Except.toOption] at h
    | ok now =>
      obtain rfl : now = t := by simpa [time, hnow, Except.toOption] using h
      exact effectiveNow_eq_ok hnow
  | _ => cases h

theorem blocked_of_deviates (h : c.Deviates wallMs clockHealthMs)
    (hroom : c.established = true → c.generation + 1 < 2 ^ 64) :
    (c.effectiveNowMs wallMs clockHealthMs).1.established = false := by
  unfold effectiveNowMs
  split
  · exact blocked_of_latch _ hroom
  · next clockHealthMs =>
    split
    · assumption
    · split
      · exact blocked_of_latch _ hroom
      · next hhealth =>
        obtain ⟨expectedWallMs, hexpected, hskew⟩ := h.resolve_left hhealth
        rw [hexpected]
        simp only [if_pos hskew]
        split <;> exact blocked_of_latch _ hroom

/-- A clock with the reference, the generation and the state of another. -/
structure SameReference (c d : AuthorityClock) : Prop where
  wall : d.referenceWallMs = c.referenceWallMs
  health : d.referenceClockHealthMs = c.referenceClockHealthMs
  generation : d.generation = c.generation
  established : d.established = c.established

theorem sameReference_observe (c : AuthorityClock) (mark : Option Nat) :
    c.SameReference (c.observeCommittedTimestampHighWater mark) := by
  cases mark <;> exact ⟨rfl, rfl, rfl, rfl⟩

/-- A term that changes latches the clock; any other is or becomes the bound one. -/
theorem validateTerm_cases (c : AuthorityClock) (term : Nat) :
    c.TermChanges term ∧ c.validateRaftLeadershipTerm term =
        c.latchAndFail .raftLeadershipChanged (.leadershipChanged c.raftLeadershipTerm term) ∨
      ¬c.TermChanges term ∧ (c.validateRaftLeadershipTerm term).2 = .ok () ∧
        c.SameReference (c.validateRaftLeadershipTerm term).1 := by
  unfold validateRaftLeadershipTerm
  split
  · next hterm => exact .inr ⟨fun h => h.1 hterm, rfl, rfl, rfl, rfl, rfl⟩
  · next hterm =>
    split
    · next hinitial => exact .inr ⟨fun h => h.2 hinitial, rfl, rfl, rfl, rfl, rfl⟩
    · next hinitial => exact .inl ⟨⟨hterm, hinitial⟩, rfl⟩

theorem validateContextTerm_cases (c : AuthorityClock) (term : Option Nat) :
    (∃ reason error, c.validateContextTerm term = c.latchAndFail reason error) ∨
      (∀ t ∈ term, ¬c.TermChanges t) ∧ (c.validateContextTerm term).2 = .ok () ∧
        c.SameReference (c.validateContextTerm term).1 := by
  cases term with
  | none => exact .inr ⟨nofun, rfl, rfl, rfl, rfl, rfl⟩
  | some term =>
    rcases c.validateTerm_cases term with ⟨-, heq⟩ | ⟨hsame, hok, hreference⟩
    · exact .inl ⟨_, _, heq⟩
    · refine .inr ⟨fun t ht => ?_, hok, hreference⟩
      cases ht
      exact hsame

/-- A violation blocks the clock. -/
theorem blocked_of_violates (h : c.Violates event)
    (hroom : c.established = true → c.generation + 1 < 2 ^ 64) :
    (c.next event).established = false := by
  cases event with
  | sample wallMs clockHealthMs => exact blocked_of_deviates h hroom
  | term term =>
    rcases c.validateTerm_cases term with ⟨-, heq⟩ | ⟨hsame, -⟩
    · rw [next, heq]
      exact blocked_of_latch _ hroom
    · exact absurd h hsame
  | status context wallMs clockHealthMs =>
    have hobserved := c.sameReference_observe context.committedTimestampHighWaterMs
    rw [next, observeStatus_fst]
    rcases (c.observeCommittedTimestampHighWater
      context.committedTimestampHighWaterMs).validateContextTerm_cases
      context.currentRaftLeadershipTerm with ⟨reason, error, heq⟩ | ⟨hsame, hok, hreference⟩
    · rw [heq]
      dsimp only
      split
      · refine blocked_of_latch reason ?_
        rwa [hobserved.established, hobserved.generation]
      · next hok => exact absurd hok latchAndFail_ne_ok
    · simp only [hok]
      rcases h with hdeviates | ⟨term, hterm, hchanges⟩
      · refine blocked_of_deviates ?_ ?_
        · cases clockHealthMs with
          | none => trivial
          | some clockHealthMs =>
            simp only [Deviates, hreference.wall, hreference.health, hobserved.wall,
              hobserved.health]
            exact hdeviates
        · rwa [hreference.established, hreference.generation, hobserved.established,
            hobserved.generation]
      · exact absurd hchanges (hsame term hterm)
  | _ => cases h

/-! ### Whole sequences -/

/-- A blocked clock stays blocked until it is re-established. -/
theorem blocked_of_run
    (h : Run clockStep (fun c e => ¬c.Reestablishes e) c past d) (hc : c.established = false) :
    d.established = false := by
  refine h.invariant (I := fun c => c.established = false) hc fun {t e u} ht hnot hnext => ?_
  cases hnext
  rcases t.next_cases e with ⟨hre, -⟩ | ⟨-, hfollows⟩
  · exact absurd hre hnot
  · exact hfollows.blocked ht

/-- The minimum timestamp stays at or above a mark that no re-establishment gives up. -/
theorem AtLeast.run (hc : c.AtLeast m) (h : Run clockStep Ok c past d)
    (hkept : ∀ c e, Ok c e → c.Reestablishes e → ∃ m', e.mark = some m' ∧ m ≤ m') :
    d.AtLeast m := by
  refine h.invariant (I := (AtLeast · m)) hc fun {t e u} ht ok hnext => ?_
  cases hnext
  rcases t.next_cases e with ⟨hre, hminimum, -⟩ | ⟨-, hfollows⟩
  · rw [AtLeast, hminimum]
    exact hkept t e ok hre
  · exact hfollows.atLeast ht

theorem generation_of_run (h : Run clockStep Ok c past d) : c.generation ≤ d.generation := by
  refine h.invariant (I := fun d => c.generation ≤ d.generation) le_rfl fun {t e u} ht _ hnext => ?_
  cases hnext
  rcases t.next_cases e with ⟨-, -, hgeneration⟩ | ⟨-, hfollows⟩
  · omega
  · exact ht.trans hfollows.generation

theorem minimum_of_observes (h : c.Observes event m) : (c.next event).AtLeast m := by
  have hobserve : (c.observeCommittedTimestampHighWater (some m)).AtLeast m := by
    cases hmin : c.minimumTimestampMs with
    | none => exact ⟨m, by simp [observeCommittedTimestampHighWater, hmin], le_rfl⟩
    | some m' =>
      exact ⟨max m' m, by simp [observeCommittedTimestampHighWater, hmin], le_max_right ..⟩
  obtain ⟨hmark, hre | hother⟩ := h
  · rcases c.next_cases event with ⟨-, hminimum, -⟩ | ⟨hnot, -⟩
    · exact ⟨m, hminimum.trans hmark, le_rfl⟩
    · exact absurd hre hnot
  · cases event with
    | highWater mark =>
      cases hmark
      exact hobserve
    | status context wallMs clockHealthMs =>
      have hcontext : context.committedTimestampHighWaterMs = some m := hmark
      have hfollows := follows_observeStatus c context wallMs clockHealthMs
      rw [hcontext] at hfollows
      exact hfollows.atLeast hobserve
    | reestablish => exact absurd ⟨_, _, _, _, _, _, rfl⟩ hother
    | _ => cases hmark

end AuthorityClock

/-- **The authority clock fails closed.**  From any clock `c`, over every sequence of calls: -/
structure ClockSafety (c : AuthorityClock) : Prop where
  /-- the times of one established period do not go back; -/
  monotone : ∀ {event event' : ClockEvent} {t t' : Nat} {past : List AuthorityClock}
    {d : AuthorityClock}, c.time event = some t →
    Run clockStep (fun c e => ¬c.Reestablishes e) (c.next event) past d →
    d.time event' = some t' → t ≤ t'
  /-- no time is under an observed mark, across every re-establishment that is given one at least
  as high; -/
  aboveMarks : ∀ {event event' : ClockEvent} {m t : Nat} {past : List AuthorityClock}
    {d : AuthorityClock}, c.Observes event m →
    Run clockStep (fun c e => c.Reestablishes e → ∃ m', e.mark = some m' ∧ m ≤ m') (c.next event)
      past d →
    d.time event' = some t → m ≤ t
  /-- after a violation no time is given out until the clock is re-established, as long as an
  established clock has a next generation; -/
  blocked : ∀ {event event' : ClockEvent} {past : List AuthorityClock} {d : AuthorityClock},
    c.Violates event → (c.established = true → c.generation + 1 < 2 ^ 64) →
    Run clockStep (fun c e => ¬c.Reestablishes e) (c.next event) past d → d.time event' = none
  /-- the bindings before and after a re-establishment differ. -/
  bindings : ∀ {Ok : AuthorityClock → ClockEvent → Prop} {event : ClockEvent}
    {past later : List AuthorityClock} {d u : AuthorityClock} {term term' : Option Nat}
    {b b' : LeaseHorizonAuthorityBinding}, Run clockStep Ok c past d → d.Reestablishes event →
    Run clockStep Ok (d.next event) later u → c.leaseHorizonAuthorityBinding term = .ok b →
    u.leaseHorizonAuthorityBinding term' = .ok b' → b ≠ b'

theorem clockGeneration_of_binding {c : AuthorityClock} {term : Option Nat}
    {b : LeaseHorizonAuthorityBinding} (h : c.leaseHorizonAuthorityBinding term = .ok b) :
    b.clockGeneration = c.generation := by
  simp only [AuthorityClock.leaseHorizonAuthorityBinding, failIf_bind_eq_ok, pure_eq_ok] at h
  obtain ⟨-, -, -, rfl⟩ := h
  rfl

theorem clock_safety (c : AuthorityClock) : ClockSafety c where
  monotone {event event' t t' past d} ht hrun ht' := by
    obtain ⟨-, -, hminimum⟩ := AuthorityClock.time_spec ht
    obtain ⟨-, habove, -⟩ := AuthorityClock.time_spec ht'
    exact habove t (hminimum.run hrun fun _ _ hnot hre => absurd hre hnot)
  aboveMarks {event event' m t past d} hm hrun ht := by
    obtain ⟨-, habove, -⟩ := AuthorityClock.time_spec ht
    exact habove m ((AuthorityClock.minimum_of_observes hm).run hrun fun _ _ hkept => hkept)
  blocked {event event' past d} hviolates hroom hrun := by
    have hblocked := AuthorityClock.blocked_of_run hrun
      (AuthorityClock.blocked_of_violates hviolates hroom)
    cases htime : d.time event' with
    | none => rfl
    | some t =>
      have hestablished := (AuthorityClock.time_spec htime).1
      rw [hblocked] at hestablished
      cases hestablished
  bindings {Ok event past later d u term term' b b'} hbefore hre hafter hb hb' := by
    intro heq
    have hgeneration := clockGeneration_of_binding hb
    have hgeneration' := clockGeneration_of_binding hb'
    have hle := AuthorityClock.generation_of_run hbefore
    have hle' := AuthorityClock.generation_of_run hafter
    rcases d.next_cases event with ⟨-, -, hnext⟩ | ⟨hnot, -⟩
    · rw [heq] at hgeneration
      omega
    · exact hnot hre

/-! ### Where the clock does not hold on -/

def freshClock : AuthorityClock where
  referenceWallMs := 5000
  referenceClockHealthMs := 5000
  minimumTimestampMs := none
  raftLeadershipTerm := none
  initialRaftTermBindingAvailable := true
  established := true
  generation := 1
  blockedReason := none
  restartContinuityGeneration := none

/-- Observe the mark 5000, block the clock, and re-establish it without a mark at 10. -/
def forgetEvents : List ClockEvent :=
  [.highWater (some 5000), .sample 9000 (some 5000),
    .reestablish 2 none none ⟨none, none, false, false⟩ 10 (some 5000)]

/-- **A re-establishment takes the mark it is given, and the last generation cannot be latched.**
A clock that has observed 5000 gives out 10 after it was re-established without a mark.  A clock
restored under the last generation still gives out a time after the wall clock has jumped. -/
theorem clock_forgets_mark_and_last_generation :
    AuthorityClock.newInternal none 5000 (some 5000) none false = .ok freshClock ∧
      (forgetEvents.foldl AuthorityClock.next freshClock).time (.sample 10 (some 5000)) = some 10 ∧
      ∃ last, AuthorityClock.newInternal none 5000 (some 5000)
          (some ⟨2 ^ 64 - 1, none, 5000, 5000⟩) false = .ok last ∧
        last.Violates (.sample 9000 (some 5000)) ∧
        (last.next (.sample 9000 (some 5000))).time (.sample 5000 (some 5000)) = some 5000 := by
  refine ⟨by decide, by decide, { freshClock with
    generation := 2 ^ 64 - 1, restartContinuityGeneration := some (2 ^ 64 - 1) }, by decide, ?_,
    by decide⟩
  exact .inr ⟨5000, by decide, by decide⟩

/-- A clock that gives out 5000 and is then blocked by a jump gives out nothing more, and is
re-established under another binding. -/
theorem clock_safety_after_jump :
    freshClock.time (.sample 5000 (some 5000)) = some 5000 ∧
      (freshClock.next (.sample 9000 (some 5000))).time (.sample 5000 (some 5000)) = none ∧
      ∃ old new, freshClock.leaseHorizonAuthorityBinding none = .ok old ∧
        ((freshClock.next (.sample 9000 (some 5000))).next
          (.reestablish 2 none none ⟨none, none, false, false⟩ 10
            (some 5000))).leaseHorizonAuthorityBinding none = .ok new ∧ old ≠ new := by
  have hsafe := clock_safety freshClock
  have hviolates : freshClock.Violates (.sample 9000 (some 5000)) :=
    .inr ⟨5000, by decide, by decide⟩
  have hblocked : Run clockStep (fun _ _ => True) freshClock [freshClock]
      (freshClock.next (.sample 9000 (some 5000))) := .tail .refl trivial rfl
  have hre : (freshClock.next (.sample 9000 (some 5000))).Reestablishes
      (.reestablish 2 none none ⟨none, none, false, false⟩ 10 (some 5000)) := .intro rfl
  have hold : freshClock.leaseHorizonAuthorityBinding none = .ok ⟨1, none⟩ := rfl
  have hnew : ((freshClock.next (.sample 9000 (some 5000))).next
      (.reestablish 2 none none ⟨none, none, false, false⟩ 10
        (some 5000))).leaseHorizonAuthorityBinding none = .ok ⟨3, none⟩ := rfl
  exact ⟨by decide, hsafe.blocked hviolates (by decide) .refl, _, _, hold, hnew,
    hsafe.bindings hblocked hre .refl hold hnew⟩

end Argmin.ControlPlane
