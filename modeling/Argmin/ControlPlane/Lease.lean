import Argmin.Lib.Fallible

/-!
# Clock and lease rules

The pure clock and lease rules that the control-plane authority and its consumers share
(`control_plane_lease.rs`).  A lease deadline is a wall-clock timestamp of the authority in
milliseconds; a successor may take over only when the deadline plus the skew budget has
passed (`successorActivationFenceSatisfied`).

The leases that the authority acknowledges without a durable command are bounded by a durable
*grant horizon*, bound to the clock generation and Raft term that established it.  Binding it
to another authority waits until the old horizon plus the skew budget has passed
(`CommittedLeaseGrantHorizon.establish`).
-/

namespace Argmin.ControlPlane

open Fallible

/-- Maximum supported wall-clock offset between any two control-plane participants. -/
def controlPlaneClockSkewBudgetMs : Nat := 1000

inductive LeaseClockError
  | timestampOverflow (field : String)
  | servingDeadlineOutOfBounds (servingDeadlineMs effectiveCommittedNowMs maxLeaseMs
      skewBudgetMs : Nat)
deriving DecidableEq, Repr

inductive LeaseHorizonError
  | timestampOverflow (field : String)
  | previousHorizonStillActive (authorityNowMs fencedUntilMs : Nat)
deriving DecidableEq, Repr

/-- Enforce the replicated upper bound for any deadline that can authorize serving. -/
def validateServingDeadlineBound (servingDeadlineMs effectiveCommittedNowMs maxLeaseMs
    skewBudgetMs : Nat) : Except LeaseClockError Unit := do
  let maximumDeadlineMs ← okOr
    ((checkedAdd effectiveCommittedNowMs maxLeaseMs).bind (checkedAdd · skewBudgetMs))
    (.timestampOverflow "maximum serving deadline")
  failIf (servingDeadlineMs > maximumDeadlineMs)
    (.servingDeadlineOutOfBounds servingDeadlineMs effectiveCommittedNowMs maxLeaseMs
      skewBudgetMs)

/-- A non-regressing renewal that does not let an old deadline escape the bound. -/
def boundedRenewalDeadline (currentDeadlineMs : Option Nat) (effectiveCommittedNowMs
    requestedLeaseMs maxLeaseMs skewBudgetMs : Nat) : Except LeaseClockError Nat := do
  let proposedDeadlineMs ← okOr
    (checkedAdd effectiveCommittedNowMs (min requestedLeaseMs maxLeaseMs))
    (.timestampOverflow "proposed serving deadline")
  let candidateDeadlineMs := match currentDeadlineMs with
    | none => proposedDeadlineMs
    | some current => max current proposedDeadlineMs
  validateServingDeadlineBound candidateDeadlineMs effectiveCommittedNowMs maxLeaseMs
    skewBudgetMs
  pure candidateDeadlineMs

/-- A renewal never takes a deadline back and fits into 64 bits. -/
theorem boundedRenewalDeadline_spec {currentDeadlineMs : Option Nat} {effectiveCommittedNowMs
    requestedLeaseMs maxLeaseMs skewBudgetMs deadlineMs : Nat}
    (hrenewed : boundedRenewalDeadline currentDeadlineMs effectiveCommittedNowMs requestedLeaseMs
      maxLeaseMs skewBudgetMs = .ok deadlineMs) :
    (∀ current, currentDeadlineMs = some current → current ≤ deadlineMs) ∧
      deadlineMs < 2 ^ 64 := by
  simp only [boundedRenewalDeadline, okOr_bind_eq_ok] at hrenewed
  obtain ⟨proposed, -, hrenewed⟩ := hrenewed
  obtain ⟨_, hbound, hrenewed⟩ := bind_eq_ok.mp hrenewed
  obtain rfl := pure_eq_ok.mp hrenewed
  constructor
  · rintro current rfl
    exact Nat.le_max_left _ _
  · simp only [validateServingDeadlineBound, okOr_bind_eq_ok, failIf_eq_ok,
      Option.bind_eq_some_iff, checkedAdd_eq_some] at hbound
    obtain ⟨maximum, ⟨_, -, hsum, hfits⟩, hle⟩ := hbound
    omega

/-- Whether a successor can activate after a previous authority deadline. -/
def successorActivationFenceSatisfied (successorAuthorityNowMs previousPrimaryDeadlineMs
    skewBudgetMs : Nat) : Bool :=
  match checkedAdd previousPrimaryDeadlineMs skewBudgetMs with
  | some fencedUntilMs => fencedUntilMs ≤ successorAuthorityNowMs
  | none => false

theorem le_of_successorActivationFenceSatisfied {successorAuthorityNowMs
    previousPrimaryDeadlineMs skewBudgetMs : Nat}
    (hfence : successorActivationFenceSatisfied successorAuthorityNowMs previousPrimaryDeadlineMs
      skewBudgetMs = true) :
    previousPrimaryDeadlineMs + skewBudgetMs ≤ successorAuthorityNowMs := by
  unfold successorActivationFenceSatisfied at hfence
  split at hfence
  · next fencedUntilMs hadd =>
    rw [← (checkedAdd_eq_some.mp hadd).1] at hfence
    exact of_decide_eq_true hfence
  · cases hfence

/-- Authority identity under which a durable lease-grant horizon was established. -/
structure LeaseHorizonAuthorityBinding where
  clockGeneration : Nat
  raftTerm : Option Nat
deriving DecidableEq, Repr

/-- Durable upper bound for leases acknowledged without another durable command. -/
structure CommittedLeaseGrantHorizon where
  authority : LeaseHorizonAuthorityBinding
  grantNotAfterMs : Nat
deriving DecidableEq, Repr

namespace CommittedLeaseGrantHorizon

def validateRebinding (self : CommittedLeaseGrantHorizon)
    (authority : LeaseHorizonAuthorityBinding) (authorityNowMs skewBudgetMs : Nat) :
    Except LeaseHorizonError Unit :=
  if self.authority = authority then pure ()
  else do
    let fencedUntilMs ← okOr (checkedAdd self.grantNotAfterMs skewBudgetMs)
      (.timestampOverflow "previous lease horizon fence")
    failIf (authorityNowMs < fencedUntilMs)
      (.previousHorizonStillActive authorityNowMs fencedUntilMs)

/-- Establish or extend a horizon for one authority generation and term.

Rebinding to a new authority is conservative: the previous horizon plus symmetric skew must
have elapsed first. -/
def establish (previous : Option CommittedLeaseGrantHorizon)
    (authority : LeaseHorizonAuthorityBinding)
    (authorityNowMs horizonDurationMs skewBudgetMs : Nat) :
    Except LeaseHorizonError CommittedLeaseGrantHorizon := do
  let proposedGrantNotAfterMs ← okOr (checkedAdd authorityNowMs horizonDurationMs)
    (.timestampOverflow "lease grant horizon")
  match previous with
  | none => pure ⟨authority, proposedGrantNotAfterMs⟩
  | some previous =>
    if previous.authority = authority then
      pure ⟨authority, max previous.grantNotAfterMs proposedGrantNotAfterMs⟩
    else do
      previous.validateRebinding authority authorityNowMs skewBudgetMs
      pure ⟨authority, proposedGrantNotAfterMs⟩

end CommittedLeaseGrantHorizon

end Argmin.ControlPlane
