import Argmin.Lib.Fallible
import Argmin.Lib.Run
import Argmin.Lib.TreeMap
import Mathlib

/-!
# The route admission gate

A frontend serves requests through one installed cluster map.  A request takes a permit of the
admission gate (`route_admission.rs`), reads the installed map and captures the map's lease; a
publisher waits until every permit is dropped, installs a replacement map and opens the gate
again.  The operations of the gate run under one lock, so they are functions on
`RouteAdmissionState`; a thread that waits on the condition variable takes no step until its
condition holds.

`RouteHandle` puts the gate together with the maps, the live permits and the threads that
publish, and `RouteHandle.step` lets any of them move at any time.

* `RouteHandle.no_admission_across_publication` — along every interleaving no permit is live on
  both sides of a publication, retained permits are granted in their own generation only, and a
  draining gate never extends a lease.
-/

namespace Argmin.Cluster

open Fallible Option TreeMap
open Std (ExtTreeMap)

/-! ### Leases of cluster maps -/

inductive RouteMapValidity where
  | forever
  | untilMs (validUntilMs : Nat)
deriving DecidableEq, Repr

def RouteMapValidity.validUntilMs : RouteMapValidity → Option Nat
  | .forever => none
  | .untilMs validUntilMs => some validUntilMs

structure LocalRouteMapLeaseSnapshot where
  validity : RouteMapValidity
  localValidUntilMonotonicMs : Option Nat
deriving DecidableEq, Repr

namespace LocalRouteMapLeaseSnapshot

def unbound (validity : RouteMapValidity) : LocalRouteMapLeaseSnapshot :=
  { validity
    localValidUntilMonotonicMs := if validity = .forever then none else some 0 }

/-- `expire_route_map_lease_at` on the stored lease. -/
def expireAt (lease : LocalRouteMapLeaseSnapshot) (validity : RouteMapValidity)
    (localMonotonicMs : Nat) : LocalRouteMapLeaseSnapshot :=
  { validity :=
      if lease.validity.validUntilMs.getD (2 ^ 64 - 1) > validity.validUntilMs.getD (2 ^ 64 - 1)
      then validity else lease.validity
    localValidUntilMonotonicMs :=
      match lease.localValidUntilMonotonicMs with
      | none => some localMonotonicMs
      | some deadline => some (min deadline localMonotonicMs) }

/-- The local deadline; a lease without one never ends. -/
def deadline (lease : LocalRouteMapLeaseSnapshot) : WithTop Nat :=
  lease.localValidUntilMonotonicMs

end LocalRouteMapLeaseSnapshot

inductive StorageClusterRouteAuthority where
  | static
  | dynamic
deriving DecidableEq, Repr

/-- What the gate reads of a cluster map.  A static map is valid forever (`static_for`), and only
the runtime-map handle of a dynamic map renews or expires leases. -/
structure StorageCluster where
  routeAuthority : StorageClusterRouteAuthority
  routeMapLease : LocalRouteMapLeaseSnapshot
  static_forever : routeAuthority = .static → routeMapLease = .unbound .forever
deriving DecidableEq

/-- The cluster with its lease replaced; a static one keeps the lease it has. -/
def StorageCluster.replaceRouteMapLease (cluster : StorageCluster)
    (lease : LocalRouteMapLeaseSnapshot) : StorageCluster :=
  if h : cluster.routeAuthority = .dynamic then
    { cluster with
      routeMapLease := lease
      static_forever := fun hstatic => by rw [h] at hstatic; cases hstatic }
  else cluster

@[simp]
theorem StorageCluster.replaceRouteMapLease_routeAuthority (cluster : StorageCluster)
    (lease : LocalRouteMapLeaseSnapshot) :
    (cluster.replaceRouteMapLease lease).routeAuthority = cluster.routeAuthority := by
  unfold replaceRouteMapLease
  split
  · rfl
  · rfl

/-! ### The gate -/

inductive StorageClusterRouteTransitionState where
  | «open»
  | draining
  | publishing
deriving DecidableEq, Repr

structure RouteAdmissionState where
  activeRequests : Nat
  transition : StorageClusterRouteTransitionState
  publicationGeneration : Nat
deriving DecidableEq, Repr

/-- Why an operation of the gate does not return: its thread waits for a change of the state, or
it panics on a counter.  Either way the state is as it was, and a poisoned lock is taken over. -/
inductive Blocked where
  | waits
  | panics
deriving DecidableEq, Repr

namespace RouteAdmissionState

def new : RouteAdmissionState :=
  { activeRequests := 0, transition := .open, publicationGeneration := 0 }

variable (state : RouteAdmissionState)

def acquire : Except Blocked RouteAdmissionState := do
  failIf (state.transition ≠ .open) .waits
  let activeRequests ← okOr (checkedAdd state.activeRequests 1) .panics
  pure { state with activeRequests }

/-- `none` when the gate is not open or has moved on to another generation. -/
def acquireForPublicationGeneration (publicationGeneration : Nat) :
    Except Blocked (Option RouteAdmissionState) :=
  if state.transition ≠ .open ∨ state.publicationGeneration ≠ publicationGeneration then
    pure none
  else do
    let activeRequests ← okOr (checkedAdd state.activeRequests 1) .panics
    pure (some { state with activeRequests })

/-- `drop` of a permit. -/
def dropPermit : Except Blocked RouteAdmissionState := do
  failIf (state.activeRequests = 0) .panics
  pure { state with activeRequests := state.activeRequests - 1 }

/-- `begin_publication` up to the moment at which it waits for the admitted requests. -/
def beginPublication : Except Blocked RouteAdmissionState := do
  failIf (state.transition ≠ .open) .waits
  pure { state with transition := .draining }

/-- The rest of `begin_publication`. -/
def finishDraining : Except Blocked RouteAdmissionState := do
  failIf (state.activeRequests ≠ 0) .waits
  pure { state with transition := .publishing }

/-- `drop` of the publication guard, after an installed map and after a failure alike. -/
def dropGuard : Except Blocked RouteAdmissionState := do
  let publicationGeneration ← okOr (checkedAdd state.publicationGeneration 1) .panics
  pure { state with publicationGeneration, transition := .open }

/-- The lease under which an admitted request may still act. -/
def effectiveLease (cluster : StorageCluster)
    (admittedLease : LocalRouteMapLeaseSnapshot) : LocalRouteMapLeaseSnapshot :=
  if cluster.routeAuthority ≠ .dynamic then admittedLease
  else if state.transition = .open then cluster.routeMapLease
  else
    match admittedLease.localValidUntilMonotonicMs,
      cluster.routeMapLease.localValidUntilMonotonicMs with
    | none, _ => cluster.routeMapLease
    | some _, none => admittedLease
    | some admitted, some current =>
      if current < admitted then cluster.routeMapLease else admittedLease

variable {state next : RouteAdmissionState}

theorem acquire_eq_ok (h : state.acquire = .ok next) : state.transition = .open ∧
      next = { state with activeRequests := state.activeRequests + 1 } := by
  obtain ⟨hopen, h⟩ := failIf_bind_eq_ok.mp h
  obtain ⟨n, hn, h⟩ := okOr_bind_eq_ok.mp h
  obtain ⟨rfl, -⟩ := checkedAdd_eq_some.mp hn
  exact ⟨not_not.mp hopen, (pure_eq_ok.mp h).symm⟩

theorem acquireForPublicationGeneration_eq_ok {publicationGeneration : Nat}
    (h : state.acquireForPublicationGeneration publicationGeneration = .ok (some next)) :
    state.transition = .open ∧ state.publicationGeneration = publicationGeneration ∧
      next = { state with activeRequests := state.activeRequests + 1 } := by
  unfold acquireForPublicationGeneration at h
  split at h
  · cases pure_eq_ok.mp h
  · next hgranted =>
    obtain ⟨hopen, hgeneration⟩ := not_or.mp hgranted
    obtain ⟨n, hn, h⟩ := okOr_bind_eq_ok.mp h
    obtain ⟨rfl, -⟩ := checkedAdd_eq_some.mp hn
    have hnext := pure_eq_ok.mp h
    exact ⟨not_not.mp hopen, not_not.mp hgeneration, (some.inj hnext).symm⟩

theorem dropPermit_eq_ok (h : state.dropPermit = .ok next) :
    next = { state with activeRequests := state.activeRequests - 1 } := by
  obtain ⟨-, h⟩ := failIf_bind_eq_ok.mp h
  exact (pure_eq_ok.mp h).symm

theorem beginPublication_eq_ok (h : state.beginPublication = .ok next) :
    state.transition = .open ∧ next = { state with transition := .draining } := by
  obtain ⟨hopen, h⟩ := failIf_bind_eq_ok.mp h
  exact ⟨not_not.mp hopen, (pure_eq_ok.mp h).symm⟩

theorem finishDraining_eq_ok (h : state.finishDraining = .ok next) :
    state.activeRequests = 0 ∧ next = { state with transition := .publishing } := by
  obtain ⟨hzero, h⟩ := failIf_bind_eq_ok.mp h
  exact ⟨not_not.mp hzero, (pure_eq_ok.mp h).symm⟩

theorem dropGuard_eq_ok (h : state.dropGuard = .ok next) : next = { state with
      publicationGeneration := state.publicationGeneration + 1, transition := .open } := by
  obtain ⟨n, hn, h⟩ := okOr_bind_eq_ok.mp h
  obtain ⟨rfl, -⟩ := checkedAdd_eq_some.mp hn
  exact (pure_eq_ok.mp h).symm

/-- **A gate that is not open never extends a lease.** -/
theorem effectiveLease_le {cluster : StorageCluster}
    {admittedLease : LocalRouteMapLeaseSnapshot} (hclosed : state.transition ≠ .open)
    (hstatic : cluster.routeAuthority = .static → admittedLease = .unbound .forever) :
    (state.effectiveLease cluster admittedLease).deadline ≤
      min admittedLease.deadline cluster.routeMapLease.deadline := by
  cases hauthority : cluster.routeAuthority with
  | static =>
    have hcurrent : cluster.routeMapLease = .unbound .forever := cluster.static_forever hauthority
    rw [hstatic hauthority, hcurrent]
    exact le_min le_top le_top
  | dynamic =>
    unfold effectiveLease
    rw [if_neg (not_not.mpr hauthority), if_neg hclosed]
    split
    · next hadmitted =>
      have ha : admittedLease.deadline = ⊤ := hadmitted
      exact le_min (ha ▸ le_top) le_rfl
    · next hcurrent =>
      have hc : cluster.routeMapLease.deadline = ⊤ := hcurrent
      exact le_min le_rfl (hc ▸ le_top)
    · next admitted current hadmitted hcurrent =>
      have ha : admittedLease.deadline = (admitted : WithTop Nat) := hadmitted
      have hc : cluster.routeMapLease.deadline = (current : WithTop Nat) := hcurrent
      split
      · next hlt =>
        refine le_min ?_ le_rfl
        rw [ha, hc]
        exact WithTop.coe_le_coe.mpr hlt.le
      · next hle =>
        refine le_min le_rfl ?_
        rw [ha, hc]
        exact WithTop.coe_le_coe.mpr (not_lt.mp hle)

end RouteAdmissionState

/-! ### Permits, publishers and maps -/

/-- A live permit: the generation in which it was granted, the generation of the request that
retained the fence it was granted for, and what the request has read so far
(`admit_current_route_raw` reads the installed map and then its lease). -/
structure Permit where
  issuedIn : Nat
  retainedFrom : Option Nat
  cluster : Option Nat
  admittedLease : Option LocalRouteMapLeaseSnapshot

/-- `RetainedActiveRouteRepairFence`: the generation read from the gate, with the generation in
which the permit of the retaining request was granted. -/
structure RepairFence where
  publicationGeneration : Nat
  retainedFrom : Nat
deriving DecidableEq

inductive PublisherPhase where
  | idle
  | draining
  | publishing
deriving DecidableEq

/-- A route handle with everything that uses its gate.  Maps and permits are named by numbers, as
the source names them by their allocations; `nextPermit` and `commits` count the permits granted
and the maps installed so far. -/
structure RouteHandle where
  gate : RouteAdmissionState
  clusters : ExtTreeMap Nat StorageCluster
  current : Nat
  permits : ExtTreeMap Nat Permit
  nextPermit : Nat
  fences : List RepairFence
  publishers : Nat → PublisherPhase
  commits : Nat

inductive GateEvent where
  | acquire
  | readCurrent (permit : Nat)
  | captureLease (permit : Nat)
  | retain (permit : Nat)
  | acquireRetained (fence : RepairFence)
  | dropPermit (permit : Nat)
  | beginPublication (thread : Nat)
  | finishDraining (thread : Nat)
  | install (thread candidate : Nat)
  | dropGuard (thread : Nat)
  | build (name : Nat) (cluster : StorageCluster)
  | replaceLease (name : Nat) (lease : LocalRouteMapLeaseSnapshot)
  | expireLease (name : Nat) (validity : RouteMapValidity) (localMonotonicMs : Nat)

namespace RouteHandle

/-- `from_authorized_cluster` -/
def new (initial : StorageCluster) : RouteHandle :=
  { gate := .new
    clusters := ExtTreeMap.insert ∅ 0 initial
    current := 0
    permits := ∅
    nextPermit := 0
    fences := []
    publishers := fun _ => .idle
    commits := 0 }

variable (handle : RouteHandle)

/-- Hand out a permit for the gate state `gate`. -/
def grant (gate : RouteAdmissionState) (retainedFrom : Option Nat) : RouteHandle :=
  let permit : Permit :=
    { issuedIn := gate.publicationGeneration, retainedFrom, cluster := none,
      admittedLease := none }
  { handle with
    gate
    permits := handle.permits.insert handle.nextPermit permit
    nextPermit := handle.nextPermit + 1 }

def acquire (handle : RouteHandle) : Option RouteHandle :=
  match handle.gate.acquire with
  | .ok gate => some (handle.grant gate none)
  | .error _ => none

def acquireRetained (fence : RepairFence) : Option RouteHandle :=
  if fence ∈ handle.fences then
    match handle.gate.acquireForPublicationGeneration fence.publicationGeneration with
    | .ok (some gate) => some (handle.grant gate (some fence.retainedFrom))
    | .ok none => some handle
    | .error _ => none
  else none

def readCurrent (name : Nat) : Option RouteHandle := do
  let permit ← handle.permits[name]?
  let permits := handle.permits.insert name { permit with cluster := some handle.current }
  if permit.cluster = none then pure { handle with permits } else none

def captureLease (name : Nat) : Option RouteHandle := do
  let permit ← handle.permits[name]?
  let cluster ← permit.cluster
  let cluster ← handle.clusters[cluster]?
  let permits :=
    handle.permits.insert name { permit with admittedLease := some cluster.routeMapLease }
  if permit.admittedLease = none then pure { handle with permits } else none

/-- A request that still holds its permit retains a fence for a later repair. -/
def retain (name : Nat) : Option RouteHandle := do
  let permit ← handle.permits[name]?
  let fence : RepairFence :=
    { publicationGeneration := handle.gate.publicationGeneration, retainedFrom := permit.issuedIn }
  pure { handle with fences := fence :: handle.fences }

def dropPermit (handle : RouteHandle) (name : Nat) : Option RouteHandle :=
  if name ∈ handle.permits then
    match handle.gate.dropPermit with
    | .ok gate => some { handle with gate, permits := handle.permits.erase name }
    | .error _ => none
  else none

def beginPublication (handle : RouteHandle) (thread : Nat) : Option RouteHandle :=
  if handle.publishers thread = .idle then
    match handle.gate.beginPublication with
    | .ok gate =>
      some { handle with gate, publishers := Function.update handle.publishers thread .draining }
    | .error _ => none
  else none

def finishDraining (handle : RouteHandle) (thread : Nat) : Option RouteHandle :=
  if handle.publishers thread = .draining then
    match handle.gate.finishDraining with
    | .ok gate =>
      some { handle with gate, publishers := Function.update handle.publishers thread .publishing }
    | .error _ => none
  else none

/-- `install_during_publication_with_lifetime_hook` when none of its checks fails: both the
installed map and the candidate are dynamic.  Its other checks (epoch order, validity, allocation
lifetimes) only make fewer candidates pass. -/
def install (thread candidate : Nat) : Option RouteHandle := do
  let current ← handle.clusters[handle.current]?
  let replacement ← handle.clusters[candidate]?
  if handle.publishers thread = .publishing ∧ current.routeAuthority = .dynamic ∧
      replacement.routeAuthority = .dynamic then
    pure { handle with current := candidate, commits := handle.commits + 1 }
  else none

/-- The guard is gone even when its `drop` panics. -/
def dropGuard (handle : RouteHandle) (thread : Nat) : Option RouteHandle :=
  if handle.publishers thread = .publishing then
    let publishers := Function.update handle.publishers thread .idle
    match handle.gate.dropGuard with
    | .ok gate => some { handle with gate, publishers }
    | .error _ => some { handle with publishers }
  else none

def build (name : Nat) (cluster : StorageCluster) : Option RouteHandle :=
  if name ∈ handle.clusters then none
  else some { handle with clusters := handle.clusters.insert name cluster }

/-- Replace the lease of a map by `f` of it. -/
def updateLease (name : Nat)
    (f : LocalRouteMapLeaseSnapshot → LocalRouteMapLeaseSnapshot) : Option RouteHandle := do
  let cluster ← handle.clusters[name]?
  let clusters :=
    handle.clusters.insert name (cluster.replaceRouteMapLease (f cluster.routeMapLease))
  pure { handle with clusters }

def step : GateEvent → Option RouteHandle
  | .acquire => handle.acquire
  | .readCurrent permit => handle.readCurrent permit
  | .captureLease permit => handle.captureLease permit
  | .retain permit => handle.retain permit
  | .acquireRetained fence => handle.acquireRetained fence
  | .dropPermit permit => handle.dropPermit permit
  | .beginPublication thread => handle.beginPublication thread
  | .finishDraining thread => handle.finishDraining thread
  | .install thread candidate => handle.install thread candidate
  | .dropGuard thread => handle.dropGuard thread
  | .build name cluster => handle.build name cluster
  | .replaceLease name lease => handle.updateLease name fun _ => lease
  | .expireLease name validity localMonotonicMs =>
    handle.updateLease name fun lease => lease.expireAt validity localMonotonicMs

end RouteHandle

/-! ### What one step does -/

namespace RouteHandle

variable {handle next : RouteHandle} {name thread : Nat}

theorem acquire_eq_some (h : handle.acquire = some next) :
    handle.gate.transition = .open ∧
      next = handle.grant
        { handle.gate with activeRequests := handle.gate.activeRequests + 1 } none := by
  unfold acquire at h
  split at h
  · next gate hgate =>
    obtain ⟨hopen, rfl⟩ := RouteAdmissionState.acquire_eq_ok hgate
    exact ⟨hopen, (some.inj h).symm⟩
  · cases h

/-- A fence is honoured only while the gate is open in the generation the fence has read. -/
theorem acquireRetained_eq_some {fence : RepairFence}
    (h : handle.acquireRetained fence = some next) :
    next = handle ∨
      fence ∈ handle.fences ∧ handle.gate.transition = .open ∧
        handle.gate.publicationGeneration = fence.publicationGeneration ∧
        next = handle.grant
          { handle.gate with activeRequests := handle.gate.activeRequests + 1 }
          (some fence.retainedFrom) := by
  unfold acquireRetained at h
  split at h
  · next hfence =>
    split at h
    · next gate hgate =>
      obtain ⟨hopen, hgeneration, rfl⟩ :=
        RouteAdmissionState.acquireForPublicationGeneration_eq_ok hgate
      exact .inr ⟨hfence, hopen, hgeneration, (some.inj h).symm⟩
    · exact .inl (some.inj h).symm
    · cases h
  · cases h

theorem readCurrent_eq_some (h : handle.readCurrent name = some next) :
    ∃ permit, handle.permits[name]? = some permit ∧ permit.cluster = none ∧
      next = { handle with
        permits := handle.permits.insert name { permit with cluster := some handle.current } } := by
  obtain ⟨permit, hpermit, h⟩ := bind_eq_some_iff.mp h
  obtain ⟨hunread, h⟩ := ite_none_right_eq_some.mp h
  exact ⟨permit, hpermit, hunread, (some.inj h).symm⟩

theorem captureLease_eq_some (h : handle.captureLease name = some next) :
    ∃ (permit : Permit) (cluster : Nat) (value : StorageCluster),
      handle.permits[name]? = some permit ∧ permit.cluster = some cluster ∧
      handle.clusters[cluster]? = some value ∧
      next = { handle with
        permits := handle.permits.insert name
          { permit with admittedLease := some value.routeMapLease } } := by
  obtain ⟨permit, hpermit, h⟩ := bind_eq_some_iff.mp h
  obtain ⟨cluster, hcluster, h⟩ := bind_eq_some_iff.mp h
  obtain ⟨value, hvalue, h⟩ := bind_eq_some_iff.mp h
  obtain ⟨-, h⟩ := ite_none_right_eq_some.mp h
  exact ⟨permit, cluster, value, hpermit, hcluster, hvalue, (some.inj h).symm⟩

theorem retain_eq_some (h : handle.retain name = some next) :
    ∃ permit, handle.permits[name]? = some permit ∧
      next = { handle with
        fences := ⟨handle.gate.publicationGeneration, permit.issuedIn⟩ :: handle.fences } := by
  obtain ⟨permit, hpermit, h⟩ := bind_eq_some_iff.mp h
  exact ⟨permit, hpermit, (some.inj h).symm⟩

theorem dropPermit_eq_some (h : handle.dropPermit name = some next) : name ∈ handle.permits ∧
      next = { handle with
        gate := { handle.gate with activeRequests := handle.gate.activeRequests - 1 }
        permits := handle.permits.erase name } := by
  obtain ⟨hmem, h⟩ := ite_none_right_eq_some.mp h
  split at h
  · next gate hgate =>
    obtain rfl := RouteAdmissionState.dropPermit_eq_ok hgate
    exact ⟨hmem, (some.inj h).symm⟩
  · cases h

theorem beginPublication_eq_some (h : handle.beginPublication thread = some next) :
    handle.gate.transition = .open ∧
      next = { handle with
        gate := { handle.gate with transition := .draining }
        publishers := Function.update handle.publishers thread .draining } := by
  obtain ⟨-, h⟩ := ite_none_right_eq_some.mp h
  split at h
  · next gate hgate =>
    obtain ⟨hopen, rfl⟩ := RouteAdmissionState.beginPublication_eq_ok hgate
    exact ⟨hopen, (some.inj h).symm⟩
  · cases h

theorem finishDraining_eq_some (h : handle.finishDraining thread = some next) :
    handle.publishers thread = .draining ∧ handle.gate.activeRequests = 0 ∧
      next = { handle with
        gate := { handle.gate with transition := .publishing }
        publishers := Function.update handle.publishers thread .publishing } := by
  obtain ⟨hdraining, h⟩ := ite_none_right_eq_some.mp h
  split at h
  · next gate hgate =>
    obtain ⟨hzero, rfl⟩ := RouteAdmissionState.finishDraining_eq_ok hgate
    exact ⟨hdraining, hzero, (some.inj h).symm⟩
  · cases h

theorem install_eq_some {candidate : Nat} (h : handle.install thread candidate = some next) :
    candidate ∈ handle.clusters ∧ handle.publishers thread = .publishing ∧
      next = { handle with current := candidate, commits := handle.commits + 1 } := by
  obtain ⟨current, -, h⟩ := bind_eq_some_iff.mp h
  obtain ⟨replacement, hreplacement, h⟩ := bind_eq_some_iff.mp h
  obtain ⟨hchecks, h⟩ := ite_none_right_eq_some.mp h
  exact ⟨mem_iff_exists.mpr ⟨_, hreplacement⟩, hchecks.1, (some.inj h).symm⟩

theorem dropGuard_eq_some (h : handle.dropGuard thread = some next) :
    handle.publishers thread = .publishing ∧
      (next = { handle with
          gate :=
            { handle.gate with
              publicationGeneration := handle.gate.publicationGeneration + 1
              transition := .open }
          publishers := Function.update handle.publishers thread .idle } ∨
        next = { handle with
          publishers := Function.update handle.publishers thread .idle }) := by
  obtain ⟨hpublishing, h⟩ := ite_none_right_eq_some.mp h
  split at h
  · next gate hgate =>
    obtain rfl := RouteAdmissionState.dropGuard_eq_ok hgate
    exact ⟨hpublishing, .inl (some.inj h).symm⟩
  · exact ⟨hpublishing, .inr (some.inj h).symm⟩

theorem build_eq_some {cluster : StorageCluster} (h : handle.build name cluster = some next) :
    name ∉ handle.clusters ∧
      next = { handle with clusters := handle.clusters.insert name cluster } := by
  obtain ⟨hnew, h⟩ := ite_none_left_eq_some.mp h
  exact ⟨hnew, (some.inj h).symm⟩

theorem updateLease_eq_some {f : LocalRouteMapLeaseSnapshot → LocalRouteMapLeaseSnapshot}
    (h : handle.updateLease name f = some next) :
    ∃ (cluster : StorageCluster) (lease : LocalRouteMapLeaseSnapshot),
      handle.clusters[name]? = some cluster ∧
      next = { handle with
        clusters := handle.clusters.insert name (cluster.replaceRouteMapLease lease) } := by
  obtain ⟨cluster, hcluster, h⟩ := bind_eq_some_iff.mp h
  exact ⟨cluster, _, hcluster, (some.inj h).symm⟩

end RouteHandle

/-! ### What every reachable handle satisfies -/

/-- A live permit belongs to the generation that is open or draining now. -/
structure Permit.Current (permit : Permit) (handle : RouteHandle) (name : Nat) : Prop where
  named : name < handle.nextPermit
  issued : permit.issuedIn = handle.gate.publicationGeneration
  retained : ∀ generation, permit.retainedFrom = some generation → permit.issuedIn = generation
  routed : ∀ cluster, permit.cluster = some cluster → cluster ∈ handle.clusters
  captured : ∀ lease, permit.admittedLease = some lease →
    ∃ cluster value, permit.cluster = some cluster ∧ handle.clusters[cluster]? = some value ∧
      (value.routeAuthority = .static → lease = .unbound .forever)

namespace RouteHandle

structure Inv (handle : RouteHandle) : Prop where
  counted : handle.gate.activeRequests = handle.permits.size
  drained : handle.gate.transition = .publishing → handle.gate.activeRequests = 0
  permits : ∀ name (permit : Permit), handle.permits[name]? = some permit →
    permit.Current handle name
  fences : ∀ fence ∈ handle.fences, fence.publicationGeneration = fence.retainedFrom
  drains : ∀ thread, handle.publishers thread = .draining → handle.gate.transition = .draining
  publishes : ∀ thread, handle.publishers thread = .publishing →
    handle.gate.transition = .publishing
  single : ∀ thread other, handle.publishers thread ≠ .idle → handle.publishers other ≠ .idle →
    thread = other
  installed : handle.current ∈ handle.clusters

variable {handle next : RouteHandle} {name thread : Nat} {event : GateEvent}

variable (hinv : handle.Inv)
include hinv

theorem Inv.not_mem_permits (hpublishing : handle.gate.transition = .publishing)
    (name : Nat) : name ∉ handle.permits := by
  have hsize : handle.permits.size = 0 := hinv.counted ▸ hinv.drained hpublishing
  have hempty : handle.permits = ∅ := ExtTreeMap.eq_empty_iff_size_eq_zero.mpr hsize
  rw [hempty]
  exact ExtTreeMap.not_mem_empty

theorem Inv.idle (hopen : handle.gate.transition = .open) (thread : Nat) :
    handle.publishers thread = .idle := by
  cases hphase : handle.publishers thread with
  | idle => rfl
  | draining => cases hopen.symm.trans (hinv.drains thread hphase)
  | publishing => cases hopen.symm.trans (hinv.publishes thread hphase)

omit hinv in
theorem new_inv (initial : StorageCluster) : (new initial).Inv where
  counted := rfl
  drained h := by cases h
  permits name permit h := by cases (ExtTreeMap.getElem?_empty (a := name)).symm.trans h
  fences fence h := by cases h
  drains thread h := by cases h
  publishes thread h := by cases h
  single thread other h := (h rfl).elim
  installed := ExtTreeMap.mem_insert_self

theorem Inv.grant (hopen : handle.gate.transition = .open) (retainedFrom : Option Nat)
    (hretained : ∀ generation, retainedFrom = some generation →
      handle.gate.publicationGeneration = generation) :
    (handle.grant { handle.gate with activeRequests := handle.gate.activeRequests + 1 }
      retainedFrom).Inv := by
  have hnew : handle.nextPermit ∉ handle.permits := by
    intro hmem
    obtain ⟨permit, hpermit⟩ := mem_iff_exists.mp hmem
    exact absurd (hinv.permits _ _ hpermit).named (lt_irrefl _)
  refine { hinv with counted := ?_, drained := ?_, permits := ?_ }
  · change handle.gate.activeRequests + 1 = (handle.permits.insert _ _).size
    rw [ExtTreeMap.size_insert, if_neg (by simpa using hnew), hinv.counted]
  · intro hpublishing
    exact absurd (hopen.symm.trans hpublishing) (by decide)
  · intro name permit hpermit
    change (handle.permits.insert _ _)[name]? = some permit at hpermit
    rw [getElem?_insert_eq] at hpermit
    split at hpermit
    · next heq =>
      obtain rfl := some.inj hpermit
      exact
        { named := by rw [← heq]; exact Nat.lt_succ_self _
          issued := rfl
          retained := hretained
          routed := fun _ h => by cases h
          captured := fun _ h => by cases h }
    · exact { hinv.permits name permit hpermit with
        named := Nat.lt_succ_of_lt (hinv.permits name permit hpermit).named }

theorem Inv.acquire (h : handle.acquire = some next) : next.Inv := by
  obtain ⟨hopen, rfl⟩ := acquire_eq_some h
  exact hinv.grant hopen none fun _ h => by cases h

theorem Inv.acquireRetained {fence : RepairFence}
    (h : handle.acquireRetained fence = some next) : next.Inv := by
  rcases acquireRetained_eq_some h with rfl | ⟨hfence, hopen, hgeneration, rfl⟩
  · exact hinv
  · refine hinv.grant hopen _ fun generation hretained => ?_
    obtain rfl := some.inj hretained
    rw [hgeneration, hinv.fences fence hfence]

/-- A request that reads more of the map it was admitted to. -/
theorem Inv.updatePermit {permit permit' : Permit}
    (hpermit : handle.permits[name]? = some permit) (hcurrent : permit'.Current handle name) :
    Inv { handle with permits := handle.permits.insert name permit' } := by
  refine { hinv with counted := ?_, permits := ?_ }
  · have hmem : name ∈ handle.permits := mem_iff_exists.mpr ⟨_, hpermit⟩
    rw [ExtTreeMap.size_insert, if_pos (by simpa using hmem), hinv.counted]
  · intro other value hvalue
    rw [getElem?_insert_eq] at hvalue
    split at hvalue
    · next heq =>
      obtain rfl := some.inj hvalue
      rw [← heq]
      exact { hcurrent with }
    · exact { hinv.permits other value hvalue with }

theorem Inv.readCurrent (h : handle.readCurrent name = some next) : next.Inv := by
  obtain ⟨permit, hpermit, hunread, rfl⟩ := readCurrent_eq_some h
  have hcurrent := hinv.permits name permit hpermit
  refine hinv.updatePermit hpermit { hcurrent with routed := ?_, captured := ?_ }
  · intro cluster hcluster
    obtain rfl := some.inj hcluster
    exact hinv.installed
  · -- the lease is captured after the map is read
    intro lease hlease
    obtain ⟨cluster, -, hcluster, -⟩ := hcurrent.captured lease hlease
    cases hunread.symm.trans hcluster

theorem Inv.captureLease (h : handle.captureLease name = some next) : next.Inv := by
  obtain ⟨permit, cluster, value, hpermit, hcluster, hvalue, rfl⟩ := captureLease_eq_some h
  refine hinv.updatePermit hpermit { hinv.permits name permit hpermit with captured := ?_ }
  intro lease hlease
  obtain rfl := some.inj hlease
  exact ⟨cluster, value, hcluster, hvalue, value.static_forever⟩

theorem Inv.retain (h : handle.retain name = some next) : next.Inv := by
  obtain ⟨permit, hpermit, rfl⟩ := retain_eq_some h
  refine { hinv with fences := ?_, permits := ?_ }
  · exact fun name permit hpermit => { hinv.permits name permit hpermit with }
  · exact List.forall_mem_cons.mpr ⟨(hinv.permits name permit hpermit).issued.symm, hinv.fences⟩

theorem Inv.dropPermit (h : handle.dropPermit name = some next) : next.Inv := by
  obtain ⟨hmem, rfl⟩ := dropPermit_eq_some h
  refine { hinv with counted := ?_, drained := ?_, permits := ?_ }
  · rw [ExtTreeMap.size_erase, if_pos (by simpa using hmem), hinv.counted]
  · intro hpublishing
    rw [hinv.drained hpublishing]
  · intro other permit hpermit
    rw [getElem?_erase_eq] at hpermit
    split at hpermit
    · cases hpermit
    · exact { hinv.permits other permit hpermit with }

/-- A thread that enters or leaves a publication while no other is in one. -/
theorem Inv.updatePublisher {gate : RouteAdmissionState}
    {phase : PublisherPhase} (hothers : ∀ other, other ≠ thread → handle.publishers other = .idle)
    (hactive : gate.activeRequests = handle.gate.activeRequests)
    (hdrained : gate.transition = .publishing → gate.activeRequests = 0)
    (hgeneration : (∃ name, name ∈ handle.permits) →
      gate.publicationGeneration = handle.gate.publicationGeneration)
    (hdrains : phase = .draining → gate.transition = .draining)
    (hpublishes : phase = .publishing → gate.transition = .publishing) :
    Inv { handle with gate, publishers := Function.update handle.publishers thread phase } := by
  have hother : ∀ other, Function.update handle.publishers thread phase other ≠ .idle →
      other = thread := by
    intro other hbusy
    by_contra hne
    rw [Function.update_of_ne hne] at hbusy
    exact hbusy (hothers other hne)
  have hphase : ∀ other phase', phase' ≠ .idle →
      Function.update handle.publishers thread phase other = phase' → phase = phase' := by
    intro other phase' hbusy heq
    obtain rfl := hother other (heq ▸ hbusy)
    rwa [Function.update_self] at heq
  refine { hinv with
    counted := hactive.trans hinv.counted
    drained := hdrained
    permits := ?_
    drains := fun other h => hdrains (hphase other _ (by decide) h)
    publishes := fun other h => hpublishes (hphase other _ (by decide) h)
    single := fun one other h h' => (hother one h).trans (hother other h').symm }
  intro name permit hpermit
  have hcurrent := hinv.permits name permit hpermit
  have hmem : name ∈ handle.permits := mem_iff_exists.mpr ⟨_, hpermit⟩
  exact { hcurrent with issued := hcurrent.issued.trans (hgeneration ⟨name, hmem⟩).symm }

theorem Inv.idle_of_ne {other : Nat}
    (hbusy : handle.publishers thread ≠ .idle) (hne : other ≠ thread) :
    handle.publishers other = .idle := by
  by_contra hother
  exact hne (hinv.single other thread hother hbusy)

theorem Inv.beginPublication (h : handle.beginPublication thread = some next) : next.Inv := by
  obtain ⟨hopen, rfl⟩ := beginPublication_eq_some h
  exact hinv.updatePublisher (fun other _ => hinv.idle hopen other) rfl (fun h => by cases h)
    (fun _ => rfl) (fun _ => rfl) (fun h => by cases h)

theorem Inv.finishDraining (h : handle.finishDraining thread = some next) : next.Inv := by
  obtain ⟨hdraining, hzero, rfl⟩ := finishDraining_eq_some h
  exact hinv.updatePublisher (fun other hne => hinv.idle_of_ne (by rw [hdraining]; decide) hne)
    rfl (fun _ => hzero) (fun _ => rfl) (fun h => by cases h) (fun _ => rfl)

theorem Inv.install {candidate : Nat}
    (h : handle.install thread candidate = some next) : next.Inv := by
  obtain ⟨hcandidate, -, rfl⟩ := install_eq_some h
  exact { hinv with
    installed := hcandidate
    permits := fun name permit hpermit => { hinv.permits name permit hpermit with } }

theorem Inv.dropGuard (h : handle.dropGuard thread = some next) : next.Inv := by
  obtain ⟨hpublishing, hnext⟩ := dropGuard_eq_some h
  have hothers : ∀ other, other ≠ thread → handle.publishers other = .idle :=
    fun other hne => hinv.idle_of_ne (by rw [hpublishing]; decide) hne
  rcases hnext with rfl | rfl
  · refine hinv.updatePublisher hothers rfl (fun h => by cases h) ?_ (fun h => by cases h)
      (fun h => by cases h)
    -- the generation may move on because no permit is left
    rintro ⟨name, hmem⟩
    exact absurd hmem (hinv.not_mem_permits (hinv.publishes thread hpublishing) name)
  · exact hinv.updatePublisher hothers rfl hinv.drained (fun _ => rfl) (fun h => by cases h)
      (fun h => by cases h)

/-- Maps are added, and their leases change, without a change of authority. -/
theorem Inv.updateClusters {clusters : ExtTreeMap Nat StorageCluster}
    (hkeeps : ∀ (name : Nat) (value : StorageCluster), handle.clusters[name]? = some value →
      ∃ value' : StorageCluster, clusters[name]? = some value' ∧
        value'.routeAuthority = value.routeAuthority) :
    Inv { handle with clusters } := by
  have hmem : ∀ name, name ∈ handle.clusters → name ∈ clusters := by
    intro name hname
    obtain ⟨value, hvalue⟩ := mem_iff_exists.mp hname
    obtain ⟨value', hvalue', -⟩ := hkeeps name value hvalue
    exact mem_iff_exists.mpr ⟨value', hvalue'⟩
  refine { hinv with permits := ?_, installed := hmem _ hinv.installed }
  intro name permit hpermit
  have hcurrent := hinv.permits name permit hpermit
  refine { hcurrent with
    routed := fun cluster h => hmem cluster (hcurrent.routed cluster h), captured := ?_ }
  intro lease hlease
  obtain ⟨cluster, value, hcluster, hvalue, hstatic⟩ := hcurrent.captured lease hlease
  obtain ⟨value', hvalue', hauthority⟩ := hkeeps cluster value hvalue
  exact ⟨cluster, value', hcluster, hvalue', fun h => hstatic (hauthority ▸ h)⟩

theorem Inv.build {cluster : StorageCluster}
    (h : handle.build name cluster = some next) : next.Inv := by
  obtain ⟨hnew, rfl⟩ := build_eq_some h
  refine hinv.updateClusters fun other value hvalue => ⟨value, ?_, rfl⟩
  rw [getElem?_insert_eq, if_neg]
  · exact hvalue
  · rintro rfl
    exact hnew (mem_iff_exists.mpr ⟨value, hvalue⟩)

theorem Inv.updateLease {f : LocalRouteMapLeaseSnapshot → LocalRouteMapLeaseSnapshot}
    (h : handle.updateLease name f = some next) : next.Inv := by
  obtain ⟨cluster, lease, hcluster, rfl⟩ := updateLease_eq_some h
  refine hinv.updateClusters fun other value hvalue => ?_
  rw [getElem?_insert_eq]
  by_cases heq : name = other
  · subst heq
    cases hcluster.symm.trans hvalue
    exact ⟨_, if_pos rfl, by simp⟩
  · exact ⟨value, by rw [if_neg heq]; exact hvalue, rfl⟩

theorem Inv.step (h : handle.step event = some next) : next.Inv := by
  cases event with
  | acquire => exact hinv.acquire h
  | readCurrent permit => exact hinv.readCurrent h
  | captureLease permit => exact hinv.captureLease h
  | retain permit => exact hinv.retain h
  | acquireRetained fence => exact hinv.acquireRetained h
  | dropPermit permit => exact hinv.dropPermit h
  | beginPublication thread => exact hinv.beginPublication h
  | finishDraining thread => exact hinv.finishDraining h
  | install thread candidate => exact hinv.install h
  | dropGuard thread => exact hinv.dropGuard h
  | build name cluster => exact hinv.build h
  | replaceLease name lease => exact hinv.updateLease (f := fun _ => lease) h
  | expireLease name validity localMonotonicMs =>
    exact hinv.updateLease (f := fun lease => lease.expireAt validity localMonotonicMs) h

/-! ### What changes along a run -/

/-- What a later handle of a run has kept of an earlier one.  Permits granted by then are gone
once a map has been installed. -/
structure Follows (later earlier : RouteHandle) : Prop where
  generation : earlier.gate.publicationGeneration ≤ later.gate.publicationGeneration
  nextPermit : earlier.nextPermit ≤ later.nextPermit
  commits : earlier.commits ≤ later.commits
  granted : earlier.commits < later.commits →
    ∀ name, name ∈ later.permits → earlier.nextPermit ≤ name

omit hinv

theorem Follows.refl (handle : RouteHandle) : handle.Follows handle where
  generation := le_rfl
  nextPermit := le_rfl
  commits := le_rfl
  granted h := absurd h (lt_irrefl _)

/-- What one step does to the counters and to the set of permits. -/
theorem step_counters (hinv : handle.Inv) (h : handle.step event = some next) :
    handle.gate.publicationGeneration ≤ next.gate.publicationGeneration ∧
      handle.nextPermit ≤ next.nextPermit ∧
      (next.commits = handle.commits ∨
        next.commits = handle.commits + 1 ∧ ∀ name, name ∉ next.permits) ∧
      ∀ name, name ∈ next.permits → name ∈ handle.permits ∨ name = handle.nextPermit := by
  have hgrant : ∀ {value : Permit} {name : Nat},
      name ∈ handle.permits.insert handle.nextPermit value →
      name ∈ handle.permits ∨ name = handle.nextPermit := by
    intro value name hname
    rw [ExtTreeMap.mem_insert, compare_eq_iff_eq] at hname
    exact hname.symm.imp id Eq.symm
  have hupdate : ∀ {value value' : Permit} {name other : Nat},
      handle.permits[other]? = some value → name ∈ handle.permits.insert other value' →
      name ∈ handle.permits ∨ name = handle.nextPermit := by
    intro value value' name other hother hname
    rw [ExtTreeMap.mem_insert, compare_eq_iff_eq] at hname
    rcases hname with rfl | hname
    · exact .inl (mem_iff_exists.mpr ⟨value, hother⟩)
    · exact .inl hname
  cases event with
  | acquire =>
    obtain ⟨-, rfl⟩ := acquire_eq_some h
    exact ⟨le_rfl, Nat.le_succ _, .inl rfl, fun name => hgrant⟩
  | acquireRetained fence =>
    rcases acquireRetained_eq_some h with rfl | ⟨-, -, -, rfl⟩
    · exact ⟨le_rfl, le_rfl, .inl rfl, fun name => .inl⟩
    · exact ⟨le_rfl, Nat.le_succ _, .inl rfl, fun name => hgrant⟩
  | readCurrent permit =>
    obtain ⟨value, hpermit, -, rfl⟩ := readCurrent_eq_some h
    exact ⟨le_rfl, le_rfl, .inl rfl, fun name => hupdate hpermit⟩
  | captureLease permit =>
    obtain ⟨value, -, -, hpermit, -, -, rfl⟩ := captureLease_eq_some h
    exact ⟨le_rfl, le_rfl, .inl rfl, fun name => hupdate hpermit⟩
  | retain permit =>
    obtain ⟨-, -, rfl⟩ := retain_eq_some h
    exact ⟨le_rfl, le_rfl, .inl rfl, fun name => .inl⟩
  | dropPermit permit =>
    obtain ⟨-, rfl⟩ := dropPermit_eq_some h
    exact ⟨le_rfl, le_rfl, .inl rfl, fun name hname => .inl (ExtTreeMap.mem_of_mem_erase hname)⟩
  | beginPublication thread =>
    obtain ⟨-, rfl⟩ := beginPublication_eq_some h
    exact ⟨le_rfl, le_rfl, .inl rfl, fun name => .inl⟩
  | finishDraining thread =>
    obtain ⟨-, -, rfl⟩ := finishDraining_eq_some h
    exact ⟨le_rfl, le_rfl, .inl rfl, fun name => .inl⟩
  | install thread candidate =>
    obtain ⟨-, hpublishing, rfl⟩ := install_eq_some h
    have hempty := hinv.not_mem_permits (hinv.publishes thread hpublishing)
    exact ⟨le_rfl, le_rfl, .inr ⟨rfl, hempty⟩, fun name => .inl⟩
  | dropGuard thread =>
    rcases dropGuard_eq_some h with ⟨-, rfl | rfl⟩
    · exact ⟨Nat.le_succ _, le_rfl, .inl rfl, fun name => .inl⟩
    · exact ⟨le_rfl, le_rfl, .inl rfl, fun name => .inl⟩
  | build name cluster =>
    obtain ⟨-, rfl⟩ := build_eq_some h
    exact ⟨le_rfl, le_rfl, .inl rfl, fun name => .inl⟩
  | replaceLease name lease =>
    obtain ⟨-, -, -, rfl⟩ := updateLease_eq_some (f := fun _ => lease) h
    exact ⟨le_rfl, le_rfl, .inl rfl, fun name => .inl⟩
  | expireLease name validity localMonotonicMs =>
    obtain ⟨-, -, -, rfl⟩ := updateLease_eq_some (f := fun lease =>
      lease.expireAt validity localMonotonicMs) h
    exact ⟨le_rfl, le_rfl, .inl rfl, fun name => .inl⟩

theorem Follows.step {earlier : RouteHandle} (hfollows : handle.Follows earlier)
    (hinv : handle.Inv) (h : handle.step event = some next) :
    next.Follows earlier := by
  obtain ⟨hgeneration, hpermit, hcommit, hnames⟩ := step_counters hinv h
  refine
    { generation := hfollows.generation.trans hgeneration
      nextPermit := hfollows.nextPermit.trans hpermit
      commits := ?_
      granted := ?_ }
  · have := hfollows.commits
    omega
  · intro hlater name hname
    rcases hcommit with hcommit | ⟨-, hempty⟩
    · rcases hnames name hname with hold | rfl
      · exact hfollows.granted (hcommit ▸ hlater) name hold
      · exact hfollows.nextPermit
    · exact absurd hname (hempty name)

/-- **No request is admitted across a publication.**  In every handle reached by any interleaving
of requests, repairs, publishers and lease renewals: a publishing gate has no active request; the
publication generation has not gone down; a permit that was live before a map was installed is
not live after it; a retained permit was granted in the generation of the request that retained
its fence; and a draining gate gives a request no deadline beyond the one it was admitted with
and none beyond the one its map has now. -/
theorem no_admission_across_publication {initial : StorageCluster} {past : List RouteHandle}
    (hrun : Run step (fun _ _ => True) (new initial) past handle) :
    (handle.gate.transition = .publishing → handle.gate.activeRequests = 0) ∧
      (∀ earlier ∈ past,
        earlier.gate.publicationGeneration ≤ handle.gate.publicationGeneration) ∧
      (∀ earlier ∈ past, earlier.commits < handle.commits →
        ∀ name, name ∈ earlier.permits → name ∉ handle.permits) ∧
      (∀ (name : Nat) (permit : Permit), handle.permits[name]? = some permit →
        permit.issuedIn = handle.gate.publicationGeneration ∧
          ∀ generation, permit.retainedFrom = some generation → permit.issuedIn = generation) ∧
      (handle.gate.transition = .draining →
        ∀ (name cluster : Nat) (permit : Permit) (value : StorageCluster) lease,
          handle.permits[name]? = some permit → permit.cluster = some cluster →
          handle.clusters[cluster]? = some value → permit.admittedLease = some lease →
          (handle.gate.effectiveLease value lease).deadline ≤
            min lease.deadline value.routeMapLease.deadline) := by
  have hinv : handle.Inv := hrun.invariant (new_inv initial) fun hinv _ h => hinv.step h
  have hfollows : ∀ earlier ∈ handle :: past, earlier.Inv ∧ handle.Follows earlier :=
    hrun.related (R := fun earlier later => earlier.Inv ∧ later.Follows earlier)
      (new_inv initial) (fun hinv _ h => hinv.step h)
      (fun hinv => ⟨hinv, Follows.refl _⟩)
      (fun hrelated hinv _ h => ⟨hrelated.1, hrelated.2.step hinv h⟩)
  refine ⟨hinv.drained, fun earlier h => (hfollows earlier (.tail _ h)).2.generation, ?_, ?_, ?_⟩
  · intro earlier hearlier hcommit name hname hlive
    obtain ⟨hearlier, hfollow⟩ := hfollows earlier (.tail _ hearlier)
    obtain ⟨permit, hpermit⟩ := mem_iff_exists.mp hname
    have hnamed := (hearlier.permits name permit hpermit).named
    have hgranted := hfollow.granted hcommit name hlive
    omega
  · intro name permit hpermit
    have hcurrent := hinv.permits name permit hpermit
    exact ⟨hcurrent.issued, hcurrent.retained⟩
  · intro hdraining name cluster permit value lease hpermit hcluster hvalue hlease
    refine RouteAdmissionState.effectiveLease_le (by rw [hdraining]; decide) fun hstatic => ?_
    obtain ⟨cluster', value', hcluster', hvalue', hforever⟩ :=
      (hinv.permits name permit hpermit).captured lease hlease
    cases hcluster.symm.trans hcluster'
    cases hvalue.symm.trans hvalue'
    exact hforever hstatic

/-- A dynamic map whose local lease ends at `deadline`. -/
def dynamicCluster (deadline : Nat) : StorageCluster :=
  { routeAuthority := .dynamic
    routeMapLease := ⟨.untilMs deadline, some deadline⟩
    static_forever := fun h => by cases h }

/-- A request is admitted with deadline 100 and retains a fence, and a repair is granted for the
fence.  The lease is renewed to 200 while a publisher drains the gate: the request keeps 100. -/
theorem no_admission_across_publication_renewed_while_draining :
    ∃ past handle,
      Run step (fun _ _ => True) (new (dynamicCluster 100)) past handle ∧
      handle.gate.activeRequests = 2 ∧
      (handle.gate.effectiveLease (dynamicCluster 200) (dynamicCluster 100).routeMapLease).deadline
        ≤ min (100 : Nat) (200 : Nat) := by
  refine exists_run_of_replay_imp
    [.acquire, .readCurrent 0, .captureLease 0, .retain 0, .acquireRetained ⟨0, 0⟩,
      .beginPublication 7, .replaceLease 0 (dynamicCluster 200).routeMapLease] (P := fun _ handle =>
    handle.gate.activeRequests = 2 ∧ handle.gate.transition = .draining ∧
    (∃ permit ∈ handle.permits[0]?, permit.cluster = some 0 ∧
      permit.admittedLease = some (dynamicCluster 100).routeMapLease) ∧
    handle.clusters[0]? = some (dynamicCluster 200)) (by decide +kernel) ?_
  rintro past handle hrun ⟨hactive, hdraining, ⟨permit, hpermit, hcluster, hlease⟩, hvalue⟩
  exact ⟨hactive,
    (no_admission_across_publication hrun).2.2.2.2 hdraining 0 0 permit (dynamicCluster 200) _
      hpermit hcluster hvalue hlease⟩

/-- **The gate waits for permits only.**  At most one thread drains or publishes, a live permit can
be given back, and a draining publisher goes on once none is live. -/
theorem gate_waits_for_permits (initial : StorageCluster) (events : List GateEvent) :
    let handle := events.foldl (fun handle event => (handle.step event).getD handle) (new initial)
    (∀ thread other, handle.publishers thread ≠ .idle → handle.publishers other ≠ .idle →
      thread = other) ∧
    (∀ name ∈ handle.permits, (handle.dropPermit name).isSome) ∧
    ∀ thread, (handle.finishDraining thread).isSome ↔
      handle.publishers thread = .draining ∧ handle.permits = ∅ := by
  intro handle
  have hinv : handle.Inv := List.foldlRecOn events _ (new_inv initial) fun handle hinv event _ => by
    cases h : handle.step event with
    | none => exact hinv
    | some next => exact hinv.step h
  have hzero : handle.gate.activeRequests = 0 ↔ handle.permits = ∅ :=
    hinv.counted ▸ ExtTreeMap.eq_empty_iff_size_eq_zero.symm
  refine ⟨hinv.single, fun name hname => ?_, fun thread => ?_⟩
  · have hbusy := mt hzero.mp fun hempty => ExtTreeMap.not_mem_empty (hempty ▸ hname)
    simp [dropPermit, RouteAdmissionState.dropPermit, failIf, hname, hbusy]
  · rw [← hzero]
    by_cases hdrained : handle.gate.activeRequests = 0 <;>
      simp [finishDraining, RouteAdmissionState.finishDraining, failIf, hdrained]

end RouteHandle

end Argmin.Cluster
