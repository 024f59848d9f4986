import Argmin.ControlPlane.LeaseClock
import Argmin.Lib.Run

/-!
# The lease protocol model

The repository tests the lease functions in a model of one authority, one frontend and any number
of storage nodes (`LeaseModel` in `control_plane_lease.rs`).  Every host has a wall clock at an
offset from real time, and a consumer also has a monotonic clock.  Wall clocks may step; a host
whose clock steps by more than the skew budget from the offset at its last health check becomes
unhealthy until its clock is re-established.

The model asserts that no lease of the predecessor is valid while the successor is active.  The
clock checks do not ensure this: re-establishing a clock moves the reference of the check, so
steps that are tolerated one by one add up (`predecessor_serves_after_tolerated_steps`).

* `predecessor_never_serves` — it holds along every run in which no successor is activated on an
  authority clock that is more than two skew budgets ahead of a consumer clock at which a lease
  was bound.
-/

namespace Argmin.ControlPlane

open Fallible BoundRouteMapLease List

def maxLeaseMs : Nat := 10000

/-! ### State -/

/-- The clocks and the lease of a consumer: the frontend or a storage node. -/
structure LeaseConsumer where
  offsetMs : Int
  clockHealthy : Bool
  healthReferenceOffsetMs : Int
  monotonicMs : Nat
  lease : Option BoundRouteMapLease
deriving DecidableEq, Repr

structure LeaseModel where
  realMs : Nat
  authorityOffsetMs : Int
  authorityClockHealthy : Bool
  authorityHealthReferenceOffsetMs : Int
  frontend : LeaseConsumer
  storage : List LeaseConsumer
  issuedAtMs : Option Nat
  deadlineMs : Option Nat
  deadlineIssuerOffsetMs : Option Int
  successorActive : Bool
deriving DecidableEq, Repr

inductive ModelEvent
  | advanceReal (elapsedMs : Nat)
  | stepAuthorityWall (deltaMs : Int)
  | stepFrontendWall (deltaMs : Int)
  | stepStorageWall (nodeSlot : Nat) (deltaMs : Int)
  | issueLease (requestedMs : Nat)
  | refreshFrontend
  | refreshStorage (nodeSlot : Nat)
  | restartFrontend
  | restartStorage (nodeSlot : Nat)
  | changeLeader (deltaMs : Int)
  | suspendFrontend (elapsedMs : Nat)
  | suspendStorage (nodeSlot : Nat) (elapsedMs : Nat)
  | reestablishAuthorityClock
  | reestablishFrontendClock
  | reestablishStorageClock (nodeSlot : Nat)
  | tryActivateSuccessor
deriving DecidableEq, Repr

def ModelEvent.usesStorage : ModelEvent → Bool
  | .stepStorageWall _ _ | .refreshStorage _ | .restartStorage _ | .suspendStorage _ _
  | .reestablishStorageClock _ => true
  | _ => false

/-- `u64::saturating_add_signed`. -/
def saturatingAddSigned (a : Nat) (b : Int) : Nat := min ((a : Int) + b).toNat (2 ^ 64 - 1)

/-- `i64::saturating_add`. -/
def saturatingAddI64 (a b : Int) : Int := max (-2 ^ 63) (min (a + b) (2 ^ 63 - 1))

def offsetDifferenceWithinBudget (left right : Int) : Bool :=
  (left - right).natAbs ≤ controlPlaneClockSkewBudgetMs

/-! ### Consumers -/

namespace LeaseConsumer

def new (monotonicMs : Nat) : LeaseConsumer := ⟨0, true, 0, monotonicMs, none⟩

variable (self : LeaseConsumer)

def wall (realMs : Nat) : Nat := saturatingAddSigned realMs self.offsetMs

def advance (elapsedMs : Nat) : LeaseConsumer :=
  { self with monotonicMs := saturatingAdd self.monotonicMs elapsedMs }

/-- A step of the wall clock, with the check against the reference offset. -/
def stepWall (deltaMs : Int) : LeaseConsumer :=
  let offsetMs := saturatingAddI64 self.offsetMs deltaMs
  { self with
    offsetMs
    clockHealthy := self.clockHealthy &&
      offsetDifferenceWithinBudget offsetMs self.healthReferenceOffsetMs }

/-- Bind the current deadline; a failed binding drops the lease. -/
def refresh (realMs : Nat) (issuedAtMs deadlineMs : Option Nat) : LeaseConsumer :=
  match self.clockHealthy, issuedAtMs, deadlineMs with
  | true, some issuedAtMs, some deadlineMs =>
    { self with lease := (bind issuedAtMs deadlineMs (self.wall realMs)
        self.monotonicMs controlPlaneClockSkewBudgetMs).toOption }
  | _, _, _ => self

/-- A restarted or suspended process has no lease and an unhealthy clock. -/
def restart : LeaseConsumer :=
  { self with lease := none, clockHealthy := false }

def reestablishClock (authorityClockHealthy : Bool) (authorityOffsetMs : Int) : LeaseConsumer :=
  if authorityClockHealthy && offsetDifferenceWithinBudget self.offsetMs authorityOffsetMs then
    { self with clockHealthy := true, healthReferenceOffsetMs := self.offsetMs }
  else self

def serving : Bool :=
  self.lease.any fun lease => lease.isValidAtMonotonic self.monotonicMs

end LeaseConsumer

/-! ### Steps -/

namespace LeaseModel

def new (storageNodeCount : Nat) : LeaseModel where
  realMs := 100000
  authorityOffsetMs := 0
  authorityClockHealthy := true
  authorityHealthReferenceOffsetMs := 0
  frontend := .new 10000
  storage := (List.range storageNodeCount).map fun index => .new (20000 + index)
  issuedAtMs := none
  deadlineMs := none
  deadlineIssuerOffsetMs := none
  successorActive := false

variable (self : LeaseModel)

def authorityWall : Nat :=
  saturatingAddSigned self.realMs self.authorityOffsetMs

def storageIndex (nodeSlot : Nat) : Nat := nodeSlot % self.storage.length

def modifyStorage (nodeSlot : Nat) (f : LeaseConsumer → LeaseConsumer) : LeaseModel :=
  { self with storage := self.storage.modify (self.storageIndex nodeSlot) f }

def advanceReal (elapsedMs : Nat) : LeaseModel :=
  { self with
    realMs := saturatingAdd self.realMs elapsedMs
    frontend := self.frontend.advance elapsedMs
    storage := self.storage.map (·.advance elapsedMs) }

def issueLease (requestedMs : Nat) : LeaseModel :=
  if self.authorityClockHealthy then
    match boundedRenewalDeadline self.deadlineMs self.authorityWall requestedMs maxLeaseMs
        controlPlaneClockSkewBudgetMs with
    | .error _ => self
    | .ok deadlineMs =>
      { self with
        issuedAtMs := some self.authorityWall
        deadlineMs := some deadlineMs
        deadlineIssuerOffsetMs := if self.deadlineMs ≠ some deadlineMs then
            some self.authorityOffsetMs
          else self.deadlineIssuerOffsetMs
        successorActive := false }
  else self

def deadlineBasisWithinBudget : Bool :=
  self.deadlineIssuerOffsetMs.all fun issuerOffsetMs =>
    offsetDifferenceWithinBudget self.authorityOffsetMs issuerOffsetMs

/-- All wall clocks lie within one skew budget. -/
def clocksWithinBudget : Bool :=
  let clocks := self.authorityOffsetMs :: self.frontend.offsetMs :: self.storage.map (·.offsetMs)
  clocks.all fun left => clocks.all fun right =>
    decide (left - right ≤ controlPlaneClockSkewBudgetMs)

def reestablishAuthorityClock : LeaseModel :=
  if self.clocksWithinBudget && self.deadlineBasisWithinBudget then
    { self with
      authorityClockHealthy := true
      authorityHealthReferenceOffsetMs := self.authorityOffsetMs }
  else self

def tryActivateSuccessor : LeaseModel :=
  { self with
    successorActive := self.authorityClockHealthy && self.deadlineBasisWithinBudget &&
      self.deadlineMs.any fun deadlineMs =>
        successorActivationFenceSatisfied self.authorityWall deadlineMs
          controlPlaneClockSkewBudgetMs }

def stepAuthorityWall (deltaMs : Int) : LeaseModel :=
  let authorityOffsetMs := saturatingAddI64 self.authorityOffsetMs deltaMs
  { self with
    authorityOffsetMs
    authorityClockHealthy := self.authorityClockHealthy &&
      offsetDifferenceWithinBudget authorityOffsetMs self.authorityHealthReferenceOffsetMs }

/-- Real time passes for every host but one storage node. -/
def suspendStorage (nodeSlot elapsedMs : Nat) : LeaseModel :=
  { self with
    realMs := saturatingAdd self.realMs elapsedMs
    frontend := self.frontend.advance elapsedMs
    storage := self.storage.mapIdx fun index node =>
      if index = self.storageIndex nodeSlot then node.restart else node.advance elapsedMs }

def apply : ModelEvent → LeaseModel
  | .advanceReal elapsedMs => self.advanceReal elapsedMs
  | .stepAuthorityWall deltaMs => self.stepAuthorityWall deltaMs
  | .stepFrontendWall deltaMs => { self with frontend := self.frontend.stepWall deltaMs }
  | .stepStorageWall nodeSlot deltaMs => self.modifyStorage nodeSlot (·.stepWall deltaMs)
  | .issueLease requestedMs => self.issueLease requestedMs
  | .refreshFrontend =>
    { self with frontend := self.frontend.refresh self.realMs self.issuedAtMs self.deadlineMs }
  | .refreshStorage nodeSlot =>
    self.modifyStorage nodeSlot (·.refresh self.realMs self.issuedAtMs self.deadlineMs)
  | .restartFrontend => { self with frontend := self.frontend.restart }
  | .restartStorage nodeSlot => self.modifyStorage nodeSlot (·.restart)
  | .changeLeader deltaMs =>
    { self with
      authorityOffsetMs := saturatingAddI64 self.authorityOffsetMs deltaMs
      authorityClockHealthy := false }
  | .suspendFrontend elapsedMs =>
    { self with
      realMs := saturatingAdd self.realMs elapsedMs
      frontend := self.frontend.restart
      storage := self.storage.map (·.advance elapsedMs) }
  | .suspendStorage nodeSlot elapsedMs => self.suspendStorage nodeSlot elapsedMs
  | .reestablishAuthorityClock => self.reestablishAuthorityClock
  | .reestablishFrontendClock =>
    let frontend := self.frontend.reestablishClock self.authorityClockHealthy
      self.authorityOffsetMs
    { self with frontend }
  | .reestablishStorageClock nodeSlot => self.modifyStorage nodeSlot
      (·.reestablishClock self.authorityClockHealthy self.authorityOffsetMs)
  | .tryActivateSuccessor => self.tryActivateSuccessor

/-- One event; without storage nodes an event for one of them divides by zero. -/
def step (event : ModelEvent) : Option LeaseModel :=
  if event.usesStorage && self.storage.isEmpty then none else some (self.apply event)

def frontendServing : Bool := self.frontend.serving

def storageServing : Bool := self.storage.any (·.serving)

end LeaseModel

/-! ### Bound leases in real time -/

/-- While the lease of a consumer is valid, it ends in real time no later than the deadline, less
the skew budget, on a clock at the offset `slowestOffsetMs`. -/
def LeaseConsumer.Covered (slowestOffsetMs : Int) (realMs : Nat) (deadlineMs : Option Nat)
    (consumer : LeaseConsumer) : Prop :=
  ∀ lease, consumer.lease = some lease → lease.localValidUntilMonotonicMs < 2 ^ 64 ∧
    (consumer.monotonicMs < lease.localValidUntilMonotonicMs →
      ∃ deadline, deadlineMs = some deadline ∧
        (lease.localValidUntilMonotonicMs : Int) - consumer.monotonicMs + realMs ≤
          deadline - controlPlaneClockSkewBudgetMs - slowestOffsetMs)

namespace LeaseConsumer

variable {slowestOffsetMs : Int} {realMs : Nat} {deadlineMs : Option Nat}
  {consumer : LeaseConsumer}

theorem Covered.stepWall (h : consumer.Covered slowestOffsetMs realMs deadlineMs)
    (deltaMs : Int) : (consumer.stepWall deltaMs).Covered slowestOffsetMs realMs deadlineMs := h

theorem Covered.restart : consumer.restart.Covered slowestOffsetMs realMs deadlineMs := by
  intro lease hlease
  cases hlease

variable (h : consumer.Covered slowestOffsetMs realMs deadlineMs)
include h

theorem Covered.reestablishClock (authorityClockHealthy : Bool) (authorityOffsetMs : Int) :
    (consumer.reestablishClock authorityClockHealthy authorityOffsetMs).Covered slowestOffsetMs
      realMs deadlineMs := by
  unfold LeaseConsumer.reestablishClock
  split
  · exact h
  · exact h

/-- The monotonic clock runs with real time. -/
theorem Covered.advance (elapsedMs : Nat) :
    (consumer.advance elapsedMs).Covered slowestOffsetMs
      (saturatingAdd realMs elapsedMs) deadlineMs := by
  intro lease hlease
  obtain ⟨hfits, hends⟩ := h lease hlease
  refine ⟨hfits, fun hvalid => ?_⟩
  simp only [LeaseConsumer.advance, saturatingAdd] at hvalid ⊢
  obtain ⟨deadline, hdeadline, hle⟩ := hends (by omega)
  exact ⟨deadline, hdeadline, by omega⟩

theorem Covered.later_deadline {deadlineMs' : Nat}
    (hlater : ∀ deadline, deadlineMs = some deadline → deadline ≤ deadlineMs') :
    consumer.Covered slowestOffsetMs realMs (some deadlineMs') := by
  intro lease hlease
  obtain ⟨hfits, hends⟩ := h lease hlease
  refine ⟨hfits, fun hvalid => ?_⟩
  obtain ⟨deadline, hdeadline, hle⟩ := hends hvalid
  have hlater := hlater deadline hdeadline
  exact ⟨deadlineMs', rfl, by omega⟩

/-- A consumer whose wall clock is not slower than `slowestOffsetMs` binds a covered lease. -/
theorem Covered.refresh (hoffset : slowestOffsetMs ≤ consumer.offsetMs)
    (hdeadline : ∀ deadline, deadlineMs = some deadline → deadline < 2 ^ 64)
    (issuedAtMs : Option Nat) :
    (consumer.refresh realMs issuedAtMs deadlineMs).Covered slowestOffsetMs realMs
      deadlineMs := by
  unfold LeaseConsumer.refresh
  split
  · next _ _ issued deadline _ =>
    intro lease hlease
    cases hbind : bind issued deadline (consumer.wall realMs)
        consumer.monotonicMs controlPlaneClockSkewBudgetMs with
    | error error => rw [hbind] at hlease; cases hlease
    | ok bound =>
      rw [hbind] at hlease
      cases hlease
      obtain ⟨-, hfits, rfl⟩ := BoundRouteMapLease.bind_eq_ok_iff.mp hbind
      refine ⟨hfits, fun hvalid => ⟨deadline, rfl, ?_⟩⟩
      have hfits' := hdeadline deadline rfl
      simp only [LeaseConsumer.wall, saturatingAddSigned, controlPlaneClockSkewBudgetMs] at hvalid ⊢
      omega
  · exact h

end LeaseConsumer

namespace LeaseModel

/-- What holds along a run in which no lease is bound below the offset `slowestOffsetMs`. -/
structure LeasesCovered (slowestOffsetMs : Int) (s : LeaseModel) : Prop where
  real : s.realMs < 2 ^ 64
  frontend : s.frontend.Covered slowestOffsetMs s.realMs s.deadlineMs
  storage : ∀ node ∈ s.storage, node.Covered slowestOffsetMs s.realMs s.deadlineMs
  deadline : ∀ deadline, s.deadlineMs = some deadline → deadline < 2 ^ 64
  /-- An active successor waited until every covered lease had ended. -/
  active : s.successorActive = true → ∃ deadline, s.deadlineMs = some deadline ∧
    (deadline : Int) - controlPlaneClockSkewBudgetMs ≤ s.realMs + slowestOffsetMs

/-- An event that binds no lease on a clock slower than `slowestOffsetMs` and activates no
successor on an authority clock more than two skew budgets ahead of it. -/
def WithinOffsets (slowestOffsetMs : Int) (s : LeaseModel) : ModelEvent → Prop
  | .refreshFrontend => slowestOffsetMs ≤ s.frontend.offsetMs
  | .refreshStorage nodeSlot =>
    ∀ node, s.storage[s.storageIndex nodeSlot]? = some node → slowestOffsetMs ≤ node.offsetMs
  | .tryActivateSuccessor =>
    s.authorityOffsetMs ≤ slowestOffsetMs + 2 * controlPlaneClockSkewBudgetMs
  | _ => True

variable {slowestOffsetMs : Int} {s : LeaseModel}

theorem leasesCovered_new (storageNodeCount : Nat) :
    (new storageNodeCount).LeasesCovered slowestOffsetMs := by
  refine ⟨(by decide : 100000 < 2 ^ 64), ?_, ?_, ?_, ?_⟩
  · intro lease hlease
    cases hlease
  · intro node hnode lease hlease
    obtain ⟨index, -, rfl⟩ := mem_map.mp hnode
    cases hlease
  · intro deadline hdeadline
    cases hdeadline
  · intro hactive
    cases hactive

theorem forall_mem_modifyStorage {P : LeaseConsumer → Prop} {nodeSlot : Nat}
    {f : LeaseConsumer → LeaseConsumer} (h : ∀ node ∈ s.storage, P node)
    (hf : ∀ node, s.storage[s.storageIndex nodeSlot]? = some node → P (f node)) :
    ∀ node ∈ (s.modifyStorage nodeSlot f).storage, P node := by
  intro node hnode
  obtain ⟨index, hindex⟩ := mem_iff_getElem?.mp hnode
  simp only [modifyStorage, getElem?_modify] at hindex
  obtain ⟨old, hold, rfl⟩ := Option.map_eq_some_iff.mp hindex
  split
  · next heq => exact hf old (heq ▸ hold)
  · exact h old (mem_of_getElem? hold)

namespace LeasesCovered

variable (h : s.LeasesCovered slowestOffsetMs)
include h

/-- No consumer serves while the successor is active. -/
theorem not_serving (hactive : s.successorActive = true) {consumer : LeaseConsumer}
    (hcovered : consumer.Covered slowestOffsetMs s.realMs s.deadlineMs) :
    consumer.serving = false := by
  cases hlease : consumer.lease with
  | none => simp [LeaseConsumer.serving, hlease]
  | some lease =>
    simp only [LeaseConsumer.serving, hlease, Option.any_some,
      isValidAtMonotonic, decide_eq_false_iff_not]
    intro hvalid
    obtain ⟨deadline, hdeadline, hends⟩ := (hcovered lease hlease).2 hvalid
    obtain ⟨deadline', hdeadline', hwaited⟩ := h.active hactive
    cases hdeadline.symm.trans hdeadline'
    omega

/-- A change of one storage node. -/
theorem modifyStorage {nodeSlot : Nat} {f : LeaseConsumer → LeaseConsumer}
    (hf : ∀ node, s.storage[s.storageIndex nodeSlot]? = some node →
      node.Covered slowestOffsetMs s.realMs s.deadlineMs →
        (f node).Covered slowestOffsetMs s.realMs s.deadlineMs) :
    (s.modifyStorage nodeSlot f).LeasesCovered slowestOffsetMs :=
  ⟨h.real, h.frontend, forall_mem_modifyStorage h.storage fun node hnode =>
    hf node hnode (h.storage node (mem_of_getElem? hnode)), h.deadline, h.active⟩

/-- Real time passes, and every consumer either runs along or loses its lease. -/
theorem advance {elapsedMs : Nat} {frontend : LeaseConsumer} {storage : List LeaseConsumer}
    (hfrontend : frontend = s.frontend.advance elapsedMs ∨ frontend = s.frontend.restart)
    (hstorage : ∀ node ∈ storage, ∃ old ∈ s.storage,
      node = old.advance elapsedMs ∨ node = old.restart) :
    LeasesCovered slowestOffsetMs
      { s with
        realMs := saturatingAdd s.realMs elapsedMs
        frontend := frontend
        storage := storage } := by
  have hreal := h.real
  refine ⟨?_, ?_, ?_, h.deadline, ?_⟩
  · simp only [saturatingAdd]
    omega
  · rcases hfrontend with rfl | rfl
    · exact h.frontend.advance elapsedMs
    · exact .restart
  · intro node hnode
    obtain ⟨old, hold, rfl | rfl⟩ := hstorage node hnode
    · exact (h.storage old hold).advance elapsedMs
    · exact .restart
  · intro hactive
    obtain ⟨deadline, hdeadline, hwaited⟩ := h.active hactive
    refine ⟨deadline, hdeadline, ?_⟩
    simp only [saturatingAdd]
    omega

theorem issueLease (requestedMs : Nat) :
    (s.issueLease requestedMs).LeasesCovered slowestOffsetMs := by
  unfold LeaseModel.issueLease
  split
  · split
    · exact h
    · next deadline hrenewed =>
      obtain ⟨hlater, hfits⟩ := boundedRenewalDeadline_spec hrenewed
      refine ⟨h.real, h.frontend.later_deadline hlater,
        fun node hnode => (h.storage node hnode).later_deadline hlater, ?_, ?_⟩
      · rintro _ ⟨⟩
        exact hfits
      · intro hactive
        cases hactive
  · exact h

/-- A successor is activated only after the deadline plus the skew budget, on a clock at most two
skew budgets ahead. -/
theorem tryActivateSuccessor
    (hoffset : s.authorityOffsetMs ≤ slowestOffsetMs + 2 * controlPlaneClockSkewBudgetMs) :
    s.tryActivateSuccessor.LeasesCovered slowestOffsetMs := by
  refine ⟨h.real, h.frontend, h.storage, h.deadline, fun hactive => ?_⟩
  simp only [LeaseModel.tryActivateSuccessor, Bool.and_eq_true, Option.any_eq_true] at hactive
  obtain ⟨-, deadline, hdeadline, hfence⟩ := hactive
  refine ⟨deadline, hdeadline, ?_⟩
  have hpassed := le_of_successorActivationFenceSatisfied hfence
  simp only [authorityWall, saturatingAddSigned, controlPlaneClockSkewBudgetMs,
    LeaseModel.tryActivateSuccessor] at *
  omega

/-- Every event within the offsets keeps the leases covered. -/
theorem apply {event : ModelEvent} (hevent : s.WithinOffsets slowestOffsetMs event) :
    (s.apply event).LeasesCovered slowestOffsetMs := by
  cases event with
  | advanceReal elapsedMs =>
    refine h.advance (.inl rfl) fun node hnode => ?_
    obtain ⟨old, hold, rfl⟩ := mem_map.mp hnode
    exact ⟨old, hold, .inl rfl⟩
  | stepAuthorityWall deltaMs => exact ⟨h.real, h.frontend, h.storage, h.deadline, h.active⟩
  | stepFrontendWall deltaMs =>
    exact ⟨h.real, h.frontend.stepWall deltaMs, h.storage, h.deadline, h.active⟩
  | stepStorageWall nodeSlot deltaMs =>
    exact h.modifyStorage fun _ _ hcovered => hcovered.stepWall deltaMs
  | issueLease requestedMs => exact h.issueLease requestedMs
  | refreshFrontend =>
    exact ⟨h.real, h.frontend.refresh hevent h.deadline _, h.storage, h.deadline, h.active⟩
  | refreshStorage nodeSlot =>
    exact h.modifyStorage fun node hnode hcovered =>
      hcovered.refresh (hevent node hnode) h.deadline _
  | restartFrontend => exact ⟨h.real, .restart, h.storage, h.deadline, h.active⟩
  | restartStorage nodeSlot => exact h.modifyStorage fun _ _ _ => .restart
  | changeLeader deltaMs => exact ⟨h.real, h.frontend, h.storage, h.deadline, h.active⟩
  | suspendFrontend elapsedMs =>
    refine h.advance (.inr rfl) fun node hnode => ?_
    obtain ⟨old, hold, rfl⟩ := mem_map.mp hnode
    exact ⟨old, hold, .inl rfl⟩
  | suspendStorage nodeSlot elapsedMs =>
    refine h.advance (.inl rfl) fun node hnode => ?_
    obtain ⟨index, hindex, rfl⟩ := mem_mapIdx.mp hnode
    refine ⟨s.storage[index], getElem_mem hindex, ?_⟩
    split
    · exact .inr rfl
    · exact .inl rfl
  | reestablishAuthorityClock =>
    change s.reestablishAuthorityClock.LeasesCovered slowestOffsetMs
    unfold LeaseModel.reestablishAuthorityClock
    split
    · exact ⟨h.real, h.frontend, h.storage, h.deadline, h.active⟩
    · exact h
  | reestablishFrontendClock =>
    exact ⟨h.real, h.frontend.reestablishClock _ _, h.storage, h.deadline, h.active⟩
  | reestablishStorageClock nodeSlot =>
    exact h.modifyStorage fun _ _ hcovered => hcovered.reestablishClock _ _
  | tryActivateSuccessor => exact h.tryActivateSuccessor hevent

end LeasesCovered

/-- **No lease of the predecessor is valid while the successor is active**, after any run in which
leases are bound on clocks no slower than some offset and successors are activated on an authority
clock at most two skew budgets ahead of it. -/
theorem predecessor_never_serves {storageNodeCount : Nat} {past : List LeaseModel} {t : LeaseModel}
    (hrun : Run step (WithinOffsets slowestOffsetMs) (new storageNodeCount) past t)
    (hactive : t.successorActive = true) :
    t.frontendServing = false ∧ t.storageServing = false := by
  have hcovered : t.LeasesCovered slowestOffsetMs := by
    refine hrun.invariant (leasesCovered_new storageNodeCount) fun hcovered hevent hstep => ?_
    unfold step at hstep
    split at hstep
    · cases hstep
    · cases hstep
      exact hcovered.apply hevent
  refine ⟨hcovered.not_serving hactive hcovered.frontend, ?_⟩
  simp only [storageServing, any_eq_false, Bool.not_eq_true]
  exact fun node hnode => hcovered.not_serving hactive (hcovered.storage node hnode)

instance (s : LeaseModel) (event : ModelEvent) :
    Decidable (WithinOffsets slowestOffsetMs s event) := by
  unfold WithinOffsets
  split <;> infer_instance

/-- The frontend of the run binds on a clock one skew budget behind, the authority activates the
successor one skew budget ahead. -/
theorem predecessor_never_serves_two_budgets_apart :
    ∃ past t, Run step (WithinOffsets (-1000)) (new 2) past t ∧ t.successorActive = true ∧
      t.frontendServing = false ∧ t.storageServing = false := by
  refine exists_run_of_replay_imp
    [.stepFrontendWall (-1000), .issueLease 10000, .refreshFrontend, .refreshStorage 3,
      .stepAuthorityWall 1000, .advanceReal 10000, .tryActivateSuccessor]
    (P := fun _ t => t.successorActive = true) (by decide +kernel) fun past t hrun hactive => ?_
  exact ⟨hactive, predecessor_never_serves hrun hactive⟩

/-- **Tolerated steps add up.**  No clock check fails in this run: the frontend steps back by the
skew budget, re-establishes its clock, and steps back by the skew budget again; the authority steps
forward by the skew budget and issues a lease.  When the successor is activated, the frontend
still serves. -/
theorem predecessor_serves_after_tolerated_steps :
    ∃ past t, Run step (fun _ _ => True) (new 1) past t ∧
      (∀ u ∈ t :: past, u.authorityClockHealthy = true ∧ u.frontend.clockHealthy = true) ∧
      t.successorActive = true ∧ t.frontendServing = true :=
  exists_run_of_replay
    [.stepFrontendWall (-1000), .reestablishFrontendClock, .stepFrontendWall (-1000),
      .stepAuthorityWall 1000, .issueLease 10000, .advanceReal 2000, .refreshFrontend,
      .advanceReal 9000, .tryActivateSuccessor]
    (by decide +kernel)

end LeaseModel

end Argmin.ControlPlane
