import Argmin.ControlPlane.Lease
import Mathlib.Order.Nat

/-!
# Leases on the consumer's clocks

A consumer of a runtime map gets the lease deadline as a wall-clock timestamp of the authority.
Before it serves, it checks that its own wall clock has not stepped against its monotonic clock
(`ProcessLeaseClockHealth.observe`) and binds the deadline to the monotonic clock
(`BoundRouteMapLease.bind`); afterwards only the monotonic clock decides whether the lease is
valid.

* `not_valid_of_fence` — on clocks that never step and never differ by more than the skew budget,
  a lease is not valid any more once the activation fence of its deadline has passed on the clock
  of any authority.
-/

namespace Argmin.ControlPlane

open Fallible

/-- The errors of the consumer side of the lease clock. -/
inductive LeaseBindingError
  | timestampOverflow (field : String)
  | authorityClockTooFarAhead (authorityIssuedAtMs localWallMs skewBudgetMs : Nat)
  | localClockUnhealthy (skewBudgetMs : Nat)
  | clockHealthSourceUnavailable
deriving DecidableEq, Repr

/-! ### The health of the local clock -/

/-- What a process remembers about its wall clock and its clock-health source. -/
structure ProcessLeaseClockHealth where
  initialWallMs : Nat
  initialClockHealthMs : Nat
  latestWallMs : Nat
  latestClockHealthMs : Nat
  healthy : Bool
deriving DecidableEq, Repr

namespace ProcessLeaseClockHealth

def new (localWallMs : Nat) (localClockHealthMs : Option Nat) :
    Except LeaseBindingError ProcessLeaseClockHealth := do
  let localClockHealthMs ← okOr localClockHealthMs .clockHealthSourceUnavailable
  pure ⟨localWallMs, localClockHealthMs, localWallMs, localClockHealthMs, true⟩

variable (self : ProcessLeaseClockHealth)

/-- A sample is in order when neither clock ran backwards and the wall clock moved as far as the
health source, up to the skew budget. -/
def sampleInOrder (localWallMs localClockHealthMs skewBudgetMs : Nat) : Bool :=
  decide (self.latestClockHealthMs ≤ localClockHealthMs ∧ self.initialWallMs ≤ localWallMs ∧
    self.initialClockHealthMs ≤ localClockHealthMs ∧
    localWallMs - self.initialWallMs ≤
      localClockHealthMs - self.initialClockHealthMs + skewBudgetMs ∧
    localClockHealthMs - self.initialClockHealthMs ≤
      localWallMs - self.initialWallMs + skewBudgetMs)

/-- The latest sample, with the largest wall reading among those of one health reading. -/
def recordSample (localWallMs localClockHealthMs : Nat) : ProcessLeaseClockHealth :=
  if self.latestClockHealthMs < localClockHealthMs then
    { self with latestClockHealthMs := localClockHealthMs, latestWallMs := localWallMs }
  else { self with latestWallMs := max self.latestWallMs localWallMs }

/-- Record a sample.  A process that was unhealthy once stays so. -/
def observe (localWallMs : Nat)
    (localClockHealthMs : Option Nat) (skewBudgetMs : Nat) : ProcessLeaseClockHealth :=
  match self.healthy, localClockHealthMs with
  | false, _ => self
  | true, none => { self with healthy := false }
  | true, some localClockHealthMs =>
    if self.sampleInOrder localWallMs localClockHealthMs skewBudgetMs then
      self.recordSample localWallMs localClockHealthMs
    else { self with healthy := false }

/-- Whether a sample could be older than the latest recorded one. -/
def sampleMayPrecedeLatest (localWallMs : Nat) (localClockHealthMs : Option Nat) : Bool :=
  localClockHealthMs.any fun healthMs =>
    decide (healthMs < self.latestClockHealthMs ∨
      (healthMs = self.latestClockHealthMs ∧ localWallMs < self.latestWallMs))

/-- Record a sample, or in its place the fresh sample `confirm` when it may be out of order;
`confirm` is absent when the clocks could not be sampled. -/
def observeWithOlderSampleConfirmation (localWallMs : Nat)
    (localClockHealthMs : Option Nat) (skewBudgetMs : Nat) (confirm : Option (Nat × Option Nat)) :
    ProcessLeaseClockHealth :=
  if self.sampleMayPrecedeLatest localWallMs localClockHealthMs then
    match confirm with
    | none => { self with healthy := false }
    | some (confirmedWallMs, confirmedClockHealthMs) =>
      self.observe confirmedWallMs confirmedClockHealthMs skewBudgetMs
  else self.observe localWallMs localClockHealthMs skewBudgetMs

/-- Record a sample and fail when the process is not healthy. -/
def validateProcessLeaseClock (localWallMs : Nat)
    (localClockHealthMs : Option Nat) (skewBudgetMs : Nat) (confirm : Option (Nat × Option Nat)) :
    Except LeaseBindingError ProcessLeaseClockHealth := do
  let next := self.observeWithOlderSampleConfirmation localWallMs localClockHealthMs skewBudgetMs
    confirm
  failIf (next.healthy = false ∧ localClockHealthMs = none) .clockHealthSourceUnavailable
  failIf (next.healthy = false) (.localClockUnhealthy skewBudgetMs)
  pure next

end ProcessLeaseClockHealth

/-! ### Bound leases -/

/-- An authority deadline bound to the monotonic clock of a process. -/
structure BoundRouteMapLease where
  authorityValidUntilMs : Nat
  localValidUntilMonotonicMs : Nat
deriving DecidableEq, Repr

namespace BoundRouteMapLease

def expired (authorityValidUntilMs localMonotonicMs : Nat) : BoundRouteMapLease :=
  ⟨authorityValidUntilMs, localMonotonicMs⟩

/-- `u64::saturating_add`. -/
def saturatingAdd (a b : Nat) : Nat := min (a + b) (2 ^ 64 - 1)

/-- Bind a freshly read authority deadline to a process-local monotonic clock. -/
def bind (authorityIssuedAtMs authorityValidUntilMs localWallMs localMonotonicMs
    skewBudgetMs : Nat) : Except LeaseBindingError BoundRouteMapLease := do
  failIf (authorityIssuedAtMs > saturatingAdd localWallMs skewBudgetMs)
    (.authorityClockTooFarAhead authorityIssuedAtMs localWallMs skewBudgetMs)
  -- a slow consumer can trail the issuer of the deadline by the whole skew budget
  let conservativeLocalWallDeadlineMs := authorityValidUntilMs - skewBudgetMs
  let remainingMs := conservativeLocalWallDeadlineMs - localWallMs
  let localValidUntilMonotonicMs ← okOr (checkedAdd localMonotonicMs remainingMs)
    (.timestampOverflow "local monotonic lease deadline")
  pure ⟨authorityValidUntilMs, localValidUntilMonotonicMs⟩

def isValidAtMonotonic (self : BoundRouteMapLease) (localMonotonicMs : Nat) : Bool :=
  localMonotonicMs < self.localValidUntilMonotonicMs

theorem bind_eq_ok_iff {authorityIssuedAtMs authorityValidUntilMs localWallMs localMonotonicMs
    skewBudgetMs : Nat} {lease : BoundRouteMapLease} :
    bind authorityIssuedAtMs authorityValidUntilMs localWallMs localMonotonicMs skewBudgetMs =
        .ok lease ↔
      authorityIssuedAtMs ≤ saturatingAdd localWallMs skewBudgetMs ∧
      localMonotonicMs + (authorityValidUntilMs - skewBudgetMs - localWallMs) < 2 ^ 64 ∧
      lease = ⟨authorityValidUntilMs,
        localMonotonicMs + (authorityValidUntilMs - skewBudgetMs - localWallMs)⟩ := by
  simp only [bind, failIf_bind_eq_ok, okOr_bind_eq_ok, checkedAdd_eq_some, pure_eq_ok, not_lt,
    gt_iff_lt]
  constructor
  · rintro ⟨hissued, _, ⟨rfl, hfits⟩, rfl⟩
    exact ⟨hissued, hfits, rfl⟩
  · rintro ⟨hissued, hfits, rfl⟩
    exact ⟨hissued, _, ⟨rfl, hfits⟩, rfl⟩

end BoundRouteMapLease

/-- Check the local clock and bind the deadline of a runtime map (`bind_process_local_lease_at`).
A map without a fresh proof of issue gets a lease that has expired. -/
def bindProcessLocalLeaseAt (health : ProcessLeaseClockHealth) (authorityIssuedAtMs : Option Nat)
    (authorityValidUntilMs localWallMs localMonotonicMs : Nat) (localClockHealthMs : Option Nat)
    (confirm : Option (Nat × Option Nat)) :
    Except LeaseBindingError (ProcessLeaseClockHealth × BoundRouteMapLease) := do
  let health ← health.validateProcessLeaseClock localWallMs localClockHealthMs
    controlPlaneClockSkewBudgetMs confirm
  match authorityIssuedAtMs with
  | none => pure (health, .expired authorityValidUntilMs localMonotonicMs)
  | some authorityIssuedAtMs => do
    let lease ← BoundRouteMapLease.bind authorityIssuedAtMs authorityValidUntilMs localWallMs
      localMonotonicMs controlPlaneClockSkewBudgetMs
    pure (health, lease)

/-- The lease that a process binds ends, on its monotonic clock, no later than the remaining time
to the deadline less the skew budget. -/
theorem bindProcessLocalLeaseAt_spec {health health' : ProcessLeaseClockHealth}
    {authorityIssuedAtMs : Option Nat} {authorityValidUntilMs localWallMs localMonotonicMs : Nat}
    {localClockHealthMs : Option Nat} {confirm : Option (Nat × Option Nat)}
    {lease : BoundRouteMapLease}
    (hbind : bindProcessLocalLeaseAt health authorityIssuedAtMs authorityValidUntilMs localWallMs
      localMonotonicMs localClockHealthMs confirm = .ok (health', lease)) :
    lease.authorityValidUntilMs = authorityValidUntilMs ∧
      lease.localValidUntilMonotonicMs ≤ localMonotonicMs +
        (authorityValidUntilMs - controlPlaneClockSkewBudgetMs - localWallMs) := by
  obtain ⟨checked, -, hbind⟩ := bind_eq_ok.mp hbind
  cases authorityIssuedAtMs with
  | none =>
    cases pure_eq_ok.mp hbind
    exact ⟨rfl, Nat.le_add_right _ _⟩
  | some issuedAtMs =>
    obtain ⟨bound, hbound, hbind⟩ := bind_eq_ok.mp hbind
    cases pure_eq_ok.mp hbind
    obtain ⟨-, -, rfl⟩ := BoundRouteMapLease.bind_eq_ok_iff.mp hbound
    exact ⟨rfl, le_rfl⟩

/-! ### Clocks that never step -/

/-- A clock: its reading in milliseconds at every instant, which never goes back. -/
structure Clock (T : Type*) [LinearOrder T] where
  read : T → Nat
  monotone : Monotone read

namespace Clock

variable {T : Type*} [LinearOrder T]

/-- Two clocks never differ by more than the budget. -/
def Within (budgetMs : Nat) (a b : Clock T) : Prop :=
  ∀ t, a.read t ≤ b.read t + budgetMs ∧ b.read t ≤ a.read t + budgetMs

/-- Neither of two clocks of one host steps against the other: between any two instants both
advance by the same time, up to the rounding of the readings to milliseconds. -/
def NeverStep (a b : Clock T) : Prop :=
  ∀ t t', t ≤ t' → a.read t' - a.read t ≤ b.read t' - b.read t + 1 ∧
    b.read t' - b.read t ≤ a.read t' - a.read t + 1

/-- The clock that runs `aheadMs` ahead of the instants, counted in milliseconds. -/
def ahead (aheadMs : Nat) : Clock Nat := ⟨(· + aheadMs), fun _ _ h => Nat.add_le_add_right h _⟩

theorem ahead_neverStep (aheadMs aheadMs' : Nat) : (ahead aheadMs).NeverStep (ahead aheadMs') := by
  intro t t' _
  simp only [ahead]
  omega

theorem ahead_within {aheadMs aheadMs' budgetMs : Nat} (h : aheadMs ≤ aheadMs' + budgetMs)
    (h' : aheadMs' ≤ aheadMs + budgetMs) : Within budgetMs (ahead aheadMs) (ahead aheadMs') := by
  intro t
  simp only [ahead]
  omega

end Clock

section Handoff

variable {T : Type*} [LinearOrder T] {authority wall monotonic : Clock T}

/-- While a lease is valid, the wall clock of its consumer has not passed the deadline less the
skew budget. -/
theorem wall_le_of_valid (hsteady : wall.NeverStep monotonic) {deadlineMs : Nat} {bound now : T}
    (hnow : bound ≤ now) {lease : BoundRouteMapLease}
    (hlease : lease.localValidUntilMonotonicMs ≤ monotonic.read bound +
      (deadlineMs - controlPlaneClockSkewBudgetMs - wall.read bound))
    (hvalid : lease.isValidAtMonotonic (monotonic.read now) = true) :
    wall.read now + controlPlaneClockSkewBudgetMs ≤ deadlineMs := by
  have helapsed := (hsteady bound now hnow).1
  have hmonotonic := monotonic.monotone hnow
  simp only [BoundRouteMapLease.isValidAtMonotonic, decide_eq_true_eq] at hvalid
  omega

/-- **Lease hand-off is safe under bounded clock skew.**  Let the clocks of an authority and of a
consumer never differ by more than the skew budget and the clocks of the consumer never step.
Once the activation fence of a deadline passes on the authority's clock, a lease that the consumer
bound for this deadline, whenever it did and whatever its clock checks had seen before, is not
valid at that instant nor at any later one. -/
theorem not_valid_of_fence
    (hskew : authority.Within controlPlaneClockSkewBudgetMs wall)
    (hsteady : wall.NeverStep monotonic) {deadlineMs : Nat} {bound fenced now : T}
    {health health' : ProcessLeaseClockHealth} {authorityIssuedAtMs localClockHealthMs : Option Nat}
    {confirm : Option (Nat × Option Nat)} {lease : BoundRouteMapLease}
    (hbind : bindProcessLocalLeaseAt health authorityIssuedAtMs deadlineMs (wall.read bound)
      (monotonic.read bound) localClockHealthMs confirm = .ok (health', lease))
    (hfence : successorActivationFenceSatisfied (authority.read fenced) deadlineMs
      controlPlaneClockSkewBudgetMs = true)
    (hbound : bound ≤ now) (hfenced : fenced ≤ now) :
    lease.isValidAtMonotonic (monotonic.read now) = false := by
  by_contra hvalid
  rw [Bool.not_eq_false] at hvalid
  have hlate := wall_le_of_valid hsteady hbound (bindProcessLocalLeaseAt_spec hbind).2 hvalid
  have hpassed := le_of_successorActivationFenceSatisfied hfence
  have hauthority := authority.monotone hfenced
  have hclose := (hskew now).1
  simp only [controlPlaneClockSkewBudgetMs] at *
  omega

/-- A lease until 110 s, bound at 100 s by a consumer that trails the authority by the whole
budget, was valid up to 109 s of its monotonic clock; the fence passes at 110 s. -/
theorem not_valid_of_fence_at_deadline :
    (⟨110000, 609000⟩ : BoundRouteMapLease).isValidAtMonotonic 608999 = true ∧
      (⟨110000, 609000⟩ : BoundRouteMapLease).isValidAtMonotonic
        ((Clock.ahead 500000).read 110000) =
        false := by
  have hbind : bindProcessLocalLeaseAt ⟨0, 0, 0, 0, true⟩ (some 101000) 110000
      ((Clock.ahead 0).read 100000) ((Clock.ahead 500000).read 100000) (some 100000) none =
        .ok (⟨0, 0, 100000, 100000, true⟩, ⟨110000, 609000⟩) := by decide +kernel
  have hfence : successorActivationFenceSatisfied ((Clock.ahead 1000).read 110000) 110000
      controlPlaneClockSkewBudgetMs = true := by decide +kernel
  exact ⟨by decide +kernel, not_valid_of_fence (Clock.ahead_within (by decide) (by decide))
    (Clock.ahead_neverStep _ _) hbind hfence (by decide +kernel) le_rfl⟩

end Handoff

end Argmin.ControlPlane
