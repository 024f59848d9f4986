import Argmin.ControlPlane.Types
import Argmin.Lib.Run
import Mathlib.Data.List.Sort
import Mathlib.Data.List.TakeWhile

/-!
# The recovery dispatcher

A frontend recovers pending metadata commands with four workers (`runtime_map.rs`).  Each round the
dispatcher is told which PGs have one, leaves out those that were tried a moment ago, and hands the
others to the workers in the order of their numbers, starting behind the PG it handed out last.  A
PG is claimed while a worker has it; the fallback, which goes through all PGs, claims them one by
one.  A worker that panics aborts the process, so a run ends there.

`recovery_dispatch_bounds`: **at most four recoveries are in flight, no PG is claimed twice, a PG is
held back only for a second after a try of the same command, and while a PG waits every other one is
claimed at most once.**
-/

namespace Argmin.Cluster.PendingMetadataCommandRecovery

open List

open ControlPlane (PgId PendingMetadataCommandObservation)

structure Task where
  pgId : PgId
  pending : PendingMetadataCommandObservation
deriving DecidableEq

inductive Work
  | target (task : Task)
  | fallback (generation : Nat)
deriving DecidableEq

def maxInFlight : Nat := 4

def retryIntervalMs : Nat := 1000

def fallbackRetryIntervalMs : Nat := 5000

/-- The dispatcher with its retry schedules, the claims of the fallback worker, and all the work
sent and all the targets completed so far, with their times.  `fallbackActive` holds the generation
of the fallback that is in flight, and an entry of `active` owns the claim of its PG. -/
structure Dispatch where
  active : List Task := []
  claims : List PgId := []
  lastTargetPg : Option PgId := none
  fallbackActive : Option Nat := none
  attempted : PgId → Option (PendingMetadataCommandObservation × Nat) := fun _ => none
  attemptedRequestGeneration : Nat := 0
  retryNotBefore : Option Nat := none
  fallbackClaims : List PgId := []
  sent : List Work := []
  completed : List (Task × Nat) := []

namespace Dispatch

variable (d : Dispatch)

def inFlight : Nat := d.active.length + if d.fallbackActive.isSome then 1 else 0

/-- The schedule forgets the PGs that are no longer listed. -/
def forget (tasks : List Task) : Dispatch :=
  { d with attempted := fun pgId => if pgId ∈ tasks.map (·.pgId) then d.attempted pgId else none }

def ready (tasks : List Task) (now : Nat) : List Task :=
  (tasks.insertionSort fun a b => a.pgId ≤ b.pgId).filter fun task =>
    !((d.forget tasks).attempted task.pgId).any fun (previous, notBefore) =>
      previous = task.pending ∧ now < notBefore

def submit (task : Task) : Dispatch :=
  { d with
    sent := d.sent ++ [.target task]
    active := task :: d.active
    claims := task.pgId :: d.claims
    lastTargetPg := some task.pgId }

def submitLoop : List Task → Dispatch → Dispatch
  | [], d => d
  | task :: rest, d =>
    if maxInFlight ≤ d.inFlight then d
    else if task.pgId ∈ d.active.map (·.pgId) then submitLoop rest d
    else if task.pgId ∈ d.claims then submitLoop rest d
    else submitLoop rest (d.submit task)

/-- The tasks behind the last PG, then those up to it. -/
def rotate (last : Option PgId) (tasks : List Task) : List Task :=
  match last with
  | none => tasks
  | some last => tasks.dropWhile (·.pgId ≤ last) ++ tasks.takeWhile (·.pgId ≤ last)

def submitTargets (tasks : List Task) (now : Nat) : Dispatch :=
  submitLoop (rotate d.lastTargetPg (d.ready tasks now)) (d.forget tasks)

def submitFallback (generation now : Nat) : Dispatch :=
  if d.fallbackActive = none ∧ d.active.length < maxInFlight ∧
      (d.attemptedRequestGeneration < generation ∨ d.retryNotBefore.any (· ≤ now)) then
    { d with sent := d.sent ++ [.fallback generation], fallbackActive := some generation }
  else d

def completeTarget (task : Task) (now : Nat) : Dispatch :=
  { d with
    active := d.active.filter (·.pgId ≠ task.pgId)
    claims := d.claims.filter (· ≠ task.pgId)
    attempted := fun pgId =>
      if pgId = task.pgId then some (task.pending, now + retryIntervalMs) else d.attempted pgId
    completed := d.completed ++ [(task, now)] }

def completeFallback (generation now : Nat) (succeeded : Bool) : Dispatch :=
  { d with
    fallbackActive := none
    attemptedRequestGeneration := generation
    retryNotBefore := if succeeded then none else some (now + fallbackRetryIntervalMs) }

inductive Event
  | submitTargets (tasks : List Task) (now : Nat)
  | submitFallback (generation now : Nat)
  | completeTarget (task : Task) (now : Nat)
  | completeFallback (generation now : Nat) (succeeded : Bool)
  | fallbackClaim (pgId : PgId)
  | fallbackDrop (pgId : PgId)

/-- What happens next: the dispatcher submits or takes a completion, or the fallback worker claims
a PG or drops a claim. -/
def step : Event → Option Dispatch
  | .submitTargets tasks now => some (d.submitTargets tasks now)
  | .submitFallback generation now => some (d.submitFallback generation now)
  | .completeTarget task now => if task ∈ d.active then some (d.completeTarget task now) else none
  | .completeFallback generation now succeeded =>
    if d.fallbackActive = some generation ∧ d.fallbackClaims = [] then
      some (d.completeFallback generation now succeeded)
    else none
  | .fallbackClaim pgId =>
    if d.fallbackActive.isSome ∧ pgId ∉ d.claims then
      some { d with claims := pgId :: d.claims, fallbackClaims := pgId :: d.fallbackClaims }
    else none
  | .fallbackDrop pgId =>
    if pgId ∈ d.fallbackClaims then
      some { d with
        claims := d.claims.filter (· ≠ pgId)
        fallbackClaims := d.fallbackClaims.filter (· ≠ pgId) }
    else none

/-! ### In flight and claimed -/

/-- The PGs the workers hold. -/
def held : List PgId := d.active.map (·.pgId) ++ d.fallbackClaims

structure Inv (d : Dispatch) : Prop where
  inFlight : d.inFlight ≤ maxInFlight
  held : d.held.Nodup
  claims : ∀ pgId, pgId ∈ d.claims ↔ pgId ∈ d.held
  active : ∀ task ∈ d.active, .target task ∈ d.sent
  completed : ∀ entry ∈ d.completed, .target entry.1 ∈ d.sent
  attempted : ∀ {pgId pending notBefore}, d.attempted pgId = some (pending, notBefore) →
    ∃ now, (⟨pgId, pending⟩, now) ∈ d.completed ∧ notBefore = now + retryIntervalMs

variable {d d' : Dispatch} {q : PgId} {task : Task} {tasks : List Task} {event : Event}
  {past : List Dispatch}

theorem Inv.forget (h : d.Inv) (tasks : List Task) : (d.forget tasks).Inv where
  __ := h
  attempted hattempted := by
    simp only [Dispatch.forget, Option.ite_none_right_eq_some] at hattempted
    exact h.attempted hattempted.2

theorem Inv.submit (h : d.Inv) (hroom : ¬maxInFlight ≤ d.inFlight)
    (hfree : task.pgId ∉ d.claims) : (d.submit task).Inv where
  inFlight := by
    have hone : (d.submit task).inFlight = d.inFlight + 1 := Nat.succ_add ..
    omega
  held := nodup_cons.mpr ⟨fun hheld => hfree ((h.claims _).mpr hheld), h.held⟩
  claims pgId := by simp [Dispatch.submit, Dispatch.held, h.claims]
  active := by
    simp only [Dispatch.submit, forall_mem_cons, mem_append, mem_singleton]
    exact ⟨.inr trivial, fun other hother => .inl (h.active other hother)⟩
  completed entry hentry := mem_append_left _ (h.completed entry hentry)
  attempted hattempted := h.attempted hattempted

/-- What every submission keeps, the loop keeps. -/
theorem submitLoop_keeps {P : Dispatch → Prop} (h : P d)
    (keeps : ∀ {d task}, P d → ¬maxInFlight ≤ d.inFlight → task.pgId ∉ d.claims →
      P (d.submit task)) : P (submitLoop tasks d) := by
  induction tasks generalizing d with
  | nil => exact h
  | cons task rest ih =>
    rw [submitLoop]
    split_ifs with hfull hactive hclaimed
    · exact h
    · exact ih h
    · exact ih h
    · exact ih (keeps h hfull hclaimed)

theorem Inv.submitLoop (h : d.Inv) (tasks : List Task) : (submitLoop tasks d).Inv :=
  submitLoop_keeps (P := Inv) h fun h hroom hfree => h.submit hroom hfree

/-- A worker gives a PG back. -/
theorem Inv.release (h : d.Inv) (d' : Dispatch) (pgId : PgId)
    (hheld : d'.held = d.held.filter (· ≠ pgId))
    (hclaims : d'.claims = d.claims.filter (· ≠ pgId)) :
    d'.held.Nodup ∧ ∀ other, other ∈ d'.claims ↔ other ∈ d'.held := by
  rw [hheld, hclaims]
  exact ⟨h.held.filter _, fun other => by rw [mem_filter, mem_filter, h.claims]⟩

theorem Inv.step (h : d.Inv) (hstep : d.step event = some d') : d'.Inv := by
  have hdisjoint := disjoint_of_nodup_append h.held
  cases event with
  | submitTargets tasks now =>
    cases hstep
    exact (h.forget tasks).submitLoop _
  | submitFallback generation now =>
    cases hstep
    unfold Dispatch.submitFallback
    split
    · next hroom =>
      refine ⟨hroom.2.1, h.held, h.claims, fun task ht => mem_append_left _ (h.active task ht),
        fun entry hentry => mem_append_left _ (h.completed entry hentry), h.attempted⟩
    · exact h
  | completeTarget task now =>
    simp only [Dispatch.step, Option.ite_none_right_eq_some, Option.some.injEq] at hstep
    obtain ⟨hactive, rfl⟩ := hstep
    have hkept : d.fallbackClaims.filter (· ≠ task.pgId) = d.fallbackClaims :=
      filter_eq_self.mpr fun other hother => decide_eq_true fun heq =>
        hdisjoint (mem_map_of_mem hactive) (heq ▸ hother)
    obtain ⟨hheld, hclaims⟩ := h.release (d.completeTarget task now) task.pgId
      (by rw [Dispatch.held, Dispatch.held, filter_append, hkept, filter_map]; rfl) rfl
    refine ⟨?_, hheld, hclaims, fun other hother => h.active other (mem_of_mem_filter hother),
      fun entry hentry => ?_, fun {pgId pending notBefore} ha => ?_⟩
    · exact (Nat.add_le_add_right (length_filter_le ..) _).trans h.inFlight
    · rcases mem_append.mp hentry with hentry | hentry
      · exact h.completed entry hentry
      · rw [mem_singleton.mp hentry]
        exact h.active task hactive
    · simp only [Dispatch.completeTarget] at ha ⊢
      split at ha
      · next heq =>
        cases ha
        rw [heq]
        exact ⟨now, mem_append_right _ mem_cons_self, rfl⟩
      · obtain ⟨triedAt, hmem, hnot⟩ := h.attempted ha
        exact ⟨triedAt, mem_append_left _ hmem, hnot⟩
  | completeFallback generation now succeeded =>
    simp only [Dispatch.step, Option.ite_none_right_eq_some, Option.some.injEq] at hstep
    obtain ⟨-, rfl⟩ := hstep
    exact ⟨(Nat.le_add_right ..).trans h.inFlight, h.held, h.claims, h.active, h.completed,
      h.attempted⟩
  | fallbackClaim pgId =>
    simp only [Dispatch.step, Option.ite_none_right_eq_some, Option.some.injEq] at hstep
    obtain ⟨⟨-, hfree⟩, rfl⟩ := hstep
    refine ⟨h.inFlight, ?_, fun other => ?_, h.active, h.completed, h.attempted⟩
    · exact (perm_middle.nodup_iff).mpr
        (nodup_cons.mpr ⟨fun hheld => hfree ((h.claims _).mpr hheld), h.held⟩)
    · simp [Dispatch.held, h.claims, or_left_comm]
  | fallbackDrop pgId =>
    simp only [Dispatch.step, Option.ite_none_right_eq_some, Option.some.injEq] at hstep
    obtain ⟨hfallback, rfl⟩ := hstep
    have hkept : (d.active.map (·.pgId)).filter (· ≠ pgId) = d.active.map (·.pgId) :=
      filter_eq_self.mpr fun other hother => decide_eq_true fun heq =>
        hdisjoint hother (heq ▸ hfallback)
    obtain ⟨hheld, hclaims⟩ := h.release { d with
        claims := d.claims.filter (· ≠ pgId)
        fallbackClaims := d.fallbackClaims.filter (· ≠ pgId) } pgId
      (by rw [Dispatch.held, Dispatch.held, filter_append, hkept]) rfl
    exact ⟨h.inFlight, hheld, hclaims, h.active, h.completed, h.attempted⟩

/-! ### Nothing listed is dropped -/

theorem submitLoop_sent : ∃ work, (submitLoop tasks d).sent = d.sent ++ work := by
  refine submitLoop_keeps (P := fun d' => ∃ work, d'.sent = d.sent ++ work)
    ⟨[], (append_nil _).symm⟩ fun {d' task} h _ _ => ?_
  obtain ⟨work, hwork⟩ := h
  exact ⟨work ++ [.target task], by rw [submit, hwork, append_assoc]⟩

theorem mem_submitLoop_claims (hq : q ∈ d.claims) :
    q ∈ (submitLoop tasks d).claims :=
  submitLoop_keeps (P := fun d => q ∈ d.claims) hq fun h _ _ => mem_cons_of_mem _ h

theorem Inv.claimed_of_mem (h : d.Inv) (htask : task ∈ tasks) :
    task.pgId ∈ (Dispatch.submitLoop tasks d).claims ∨
      maxInFlight ≤ (Dispatch.submitLoop tasks d).inFlight := by
  induction tasks generalizing d with
  | nil => cases htask
  | cons first rest ih =>
    rw [Dispatch.submitLoop]
    split_ifs with hfull hactive hclaimed
    · exact .inr hfull
    all_goals rcases mem_cons.mp htask with rfl | htask
    · exact .inl (mem_submitLoop_claims ((h.claims _).mpr (mem_append_left _ hactive)))
    · exact ih h htask
    · exact .inl (mem_submitLoop_claims hclaimed)
    · exact ih h htask
    · exact .inl (mem_submitLoop_claims mem_cons_self)
    · exact ih (h.submit hfull hclaimed) htask

theorem mem_rotate {last : Option PgId} :
    task ∈ rotate last tasks ↔ task ∈ tasks := by
  cases last with
  | none => rfl
  | some c =>
    rw [rotate, mem_append, or_comm, ← mem_append, takeWhile_append_dropWhile]

/-- The recovery of the same pending command was sent and completed less than a retry interval
ago. -/
def BacksOff (d : Dispatch) (task : Task) (now : Nat) : Prop :=
  .target task ∈ d.sent ∧ ∃ triedAt, (task, triedAt) ∈ d.completed ∧ now < triedAt + retryIntervalMs

/-- After a round every listed task is in its back-off, or its PG is claimed, or four recoveries are
in flight. -/
theorem Inv.listed (h : d.Inv) (htask : task ∈ tasks)
    (now : Nat) : d.BacksOff task now ∨ task.pgId ∈ (d.submitTargets tasks now).claims ∨
      (d.submitTargets tasks now).inFlight = maxInFlight := by
  by_cases hready : task ∈ d.ready tasks now
  · have hround := (h.forget tasks).submitLoop (rotate d.lastTargetPg (d.ready tasks now))
    exact .inr (((h.forget tasks).claimed_of_mem (mem_rotate.mpr hready)).imp_right
      fun hfull => le_antisymm hround.inFlight hfull)
  · rw [ready, mem_filter, mem_insertionSort, Bool.not_eq_true', Bool.eq_false_iff,
      not_and, not_not] at hready
    obtain ⟨⟨pending, notBefore⟩, hattempted, hpending⟩ :=
      (Option.any_eq_true _ _).mp (hready htask)
    obtain ⟨rfl, hnow⟩ := of_decide_eq_true hpending
    obtain ⟨triedAt, hcompleted, rfl⟩ := (h.forget tasks).attempted hattempted
    exact .inl ⟨h.completed _ hcompleted, triedAt, hcompleted, hnow⟩

/-! ### The order of the claims -/

/-- Going up from `q` and round, `x` comes before `y`, and `y` before `q` again. -/
def Later (q x y : Nat) : Prop :=
  q < x ∧ x < y ∨ q < x ∧ y < q ∨ x < y ∧ y < q

theorem Later.trans {q x c y : Nat} (hx : x = c ∨ Later q x c) (hq : x ≠ q)
    (hy : c = q ∨ Later q c y) : Later q x y := by
  unfold Later at *
  omega

/-- The PGs claimed by targeted recoveries since the first `n` sends. -/
def claimsSince (d : Dispatch) (n : Nat) : List PgId :=
  (d.sent.drop n).filterMap fun
    | .target task => some task.pgId
    | .fallback _ => none

/-- Until `q` is claimed the claims go up from `q` and stay below it. -/
structure Fair (q : PgId) (n : Nat) (d : Dispatch) : Prop where
  le : n ≤ d.sent.length
  order : ((d.claimsSince n).takeWhile (· ≠ q)).Pairwise (Later q)
  last : q ∈ d.claimsSince n ∨ ∀ x ∈ d.claimsSince n, ∃ c ∈ d.lastTargetPg, x = c ∨ Later q x c

variable {n : Nat}

theorem claimsSince_append (work : List Work) (hsent : d'.sent = d.sent ++ work)
    (hle : n ≤ d.sent.length) : d'.claimsSince n = d.claimsSince n ++ work.filterMap fun
      | .target task => some task.pgId
      | .fallback _ => none := by
  rw [claimsSince, hsent, drop_append_of_le_length hle, filterMap_append]
  rfl

theorem takeWhile_append_cons (before rest : List PgId) :
    (before ++ q :: rest).takeWhile (· ≠ q) = before.takeWhile (· ≠ q) := by
  induction before with
  | nil => simp
  | cons x before ih => simp only [cons_append, takeWhile_cons, ih]

/-- Once `q` is claimed, later sends do not matter. -/
theorem Fair.grow (h : Fair q n d) (hq : q ∈ d.claimsSince n) {work : List Work}
    (hsent : d'.sent = d.sent ++ work) : Fair q n d' := by
  have hclaims := claimsSince_append _ hsent h.le
  refine ⟨?_, ?_, .inl (hclaims ▸ mem_append_left _ hq)⟩
  · rw [hsent, length_append]
    exact h.le.trans (Nat.le_add_right ..)
  · have horder := h.order
    obtain ⟨before, rest, hsplit⟩ := append_of_mem hq
    rw [hsplit, takeWhile_append_cons] at horder
    rw [hclaims, hsplit, append_assoc, cons_append, takeWhile_append_cons]
    exact horder

theorem takeWhile_eq (hq : q ∉ d.claimsSince n) :
    (d.claimsSince n).takeWhile (· ≠ q) = d.claimsSince n :=
  takeWhile_eq_self_iff.mpr fun _ hx => decide_eq_true fun heq => hq (heq ▸ hx)

/-- A claim on the way from the last one to `q`. -/
theorem Fair.submit (h : Fair q n d) (hne : task.pgId ≠ q)
    (hlast : ∀ c ∈ d.lastTargetPg, c = q ∨ Later q c task.pgId) : Fair q n (d.submit task) := by
  by_cases hq : q ∈ d.claimsSince n
  · exact h.grow hq rfl
  have hlater : ∀ x ∈ d.claimsSince n, Later q x task.pgId := by
    intro x hx
    obtain ⟨c, hc, hxc⟩ := h.last.resolve_left hq x hx
    exact .trans hxc (fun heq => hq (heq ▸ hx)) (hlast c hc)
  have hclaims : (d.submit task).claimsSince n = d.claimsSince n ++ [task.pgId] :=
    claimsSince_append [.target task] rfl h.le
  have hq' : q ∉ (d.submit task).claimsSince n := by
    rw [hclaims, mem_append, mem_singleton]
    exact fun hor => hor.elim hq fun heq => hne heq.symm
  refine ⟨h.le.trans (by simp [Dispatch.submit]), ?_, .inr fun x hx => ⟨task.pgId, rfl, ?_⟩⟩
  · rw [takeWhile_eq hq', hclaims, pairwise_append]
    refine ⟨takeWhile_eq hq ▸ h.order, pairwise_singleton _ _, fun x hx y hy => ?_⟩
    rw [mem_singleton.mp hy]
    exact hlater x hx
  · rw [hclaims, mem_append, mem_singleton] at hx
    exact hx.symm.imp_right (hlater x)

theorem Fair.submitLoop (h : Fair q n d) (hinv : d.Inv) (hfree : q ∉ d.claims)
    {before rest : List Task} (htask : task.pgId = q)
    (hbefore : ∀ a ∈ before, a.pgId ≠ q)
    (hpair : before.Pairwise fun a b => a.pgId ≠ b.pgId → Later q a.pgId b.pgId)
    (hlast : ∀ c ∈ d.lastTargetPg, c = q ∨ ∀ a ∈ before, a.pgId ∈ d.claims ∨ Later q c a.pgId) :
    Fair q n (submitLoop (before ++ task :: rest) d) := by
  induction before generalizing d with
  | nil =>
    rw [nil_append, Dispatch.submitLoop, htask]
    have hactive : q ∉ d.active.map (·.pgId) := fun hmem =>
      hfree ((hinv.claims q).mpr (mem_append_left _ hmem))
    split_ifs
    · exact h
    · have hclaims : (d.submit task).claimsSince n = d.claimsSince n ++ [task.pgId] :=
        claimsSince_append [.target task] rfl h.le
      have hq : q ∈ (d.submit task).claimsSince n := by simp [hclaims, htask]
      obtain ⟨work, hwork⟩ := submitLoop_sent
      refine Fair.grow ⟨h.le.trans (by simp [Dispatch.submit]), ?_, .inl hq⟩ hq hwork
      rw [hclaims, htask, takeWhile_append_cons]
      exact h.order
  | cons first before ih =>
    rw [forall_mem_cons] at hbefore
    rw [pairwise_cons] at hpair
    rw [cons_append, Dispatch.submitLoop]
    have hrest : ∀ c ∈ d.lastTargetPg, c = q ∨ ∀ a ∈ before, a.pgId ∈ d.claims ∨ Later q c a.pgId :=
      fun c hc => (hlast c hc).imp_right fun hall a ha => hall a (mem_cons_of_mem _ ha)
    split_ifs with hfull hactive hclaimed
    · exact h
    · exact ih h hinv hfree hbefore.2 hpair.2 hrest
    · exact ih h hinv hfree hbefore.2 hpair.2 hrest
    · refine ih (h.submit hbefore.1 fun c hc => ?_) (hinv.submit hfull hclaimed) ?_ hbefore.2
        hpair.2 fun c hc => .inr fun a ha => ?_
      · exact (hlast c hc).imp_right fun hall =>
          (hall first mem_cons_self).resolve_left hclaimed
      · exact not_mem_cons_of_ne_of_not_mem hbefore.1.symm hfree
      · cases hc
        by_cases hsame : first.pgId = a.pgId
        · exact .inl (hsame ▸ mem_cons_self)
        · exact .inr (hpair.1 a ha hsame)

/-- The order of the tasks behind `last` and then up to it. -/
def Turn (last : Option Nat) (x y : Nat) : Prop :=
  match last with
  | none => x ≤ y
  | some c => c < x ∧ x ≤ y ∨ c < x ∧ y ≤ c ∨ x ≤ y ∧ y ≤ c

theorem Turn.later {last : Option Nat} {q x y : Nat} (hxy : Turn last x y) (hx : Turn last x q)
    (hy : Turn last y q) (hne : y ≠ q) (h : x ≠ y) : Later q x y := by
  cases last <;> simp only [Turn, Later] at * <;> omega

theorem Turn.later_last {c q x : Nat} (hx : Turn (some c) x q) (hne : x ≠ q) (hc : c ≠ q) :
    Later q c x := by
  simp only [Turn, Later] at *
  omega

theorem lt_of_mem_dropWhile {c : PgId}
    (hsorted : tasks.Pairwise fun a b => a.pgId ≤ b.pgId) :
    ∀ task ∈ tasks.dropWhile (·.pgId ≤ c), c < task.pgId := by
  induction hsorted with
  | nil => exact forall_mem_nil _
  | @cons first rest hfirst _ ih =>
    rw [dropWhile_cons]
    split
    · exact ih
    · next hlt =>
      have hc : c < first.pgId := not_le.mp fun hle => hlt (decide_eq_true hle)
      exact forall_mem_cons.mpr ⟨hc, fun task htask => hc.trans_le (hfirst task htask)⟩

theorem pairwise_rotate (last : Option PgId)
    (hsorted : tasks.Pairwise fun a b => a.pgId ≤ b.pgId) :
    (rotate last tasks).Pairwise fun a b => Turn last a.pgId b.pgId := by
  cases last with
  | none => exact hsorted
  | some c =>
    have hbehind := @lt_of_mem_dropWhile tasks c hsorted
    have hupto : ∀ task ∈ tasks.takeWhile (·.pgId ≤ c), task.pgId ≤ c := fun task htask =>
      by simpa using mem_takeWhile_imp htask
    refine pairwise_append.mpr ⟨?_, ?_, fun a ha b hb =>
      .inr (.inl ⟨hbehind a ha, hupto b hb⟩)⟩
    · exact (hsorted.sublist (dropWhile_sublist _)).imp_of_mem
        fun ha _ hle => .inl ⟨hbehind _ ha, hle⟩
    · exact (hsorted.sublist (takeWhile_sublist _)).imp_of_mem
        fun _ hb hle => .inr (.inr ⟨hle, hupto _ hb⟩)

theorem pairwise_ready (d : Dispatch) (tasks : List Task) (now : Nat) :
    (d.ready tasks now).Pairwise fun a b => a.pgId ≤ b.pgId := by
  exact (pairwise_insertionSort _ tasks).filter _

/-- In this round `q` was claimed before, or waits: it is listed, not held back and not claimed. -/
def Waits (q : PgId) (n : Nat) (d : Dispatch) : Event → Prop
  | .submitTargets tasks now =>
    q ∈ d.claimsSince n ∨ (∃ task ∈ d.ready tasks now, task.pgId = q) ∧ q ∉ d.claims
  | _ => True

theorem Fair.step (h : Fair q n d) (hinv : d.Inv) (hwaits : Waits q n d event)
    (hstep : d.step event = some d') : Fair q n d' := by
  cases event with
  | submitTargets tasks now =>
    cases hstep
    rcases hwaits with hq | ⟨⟨task, hready, htask⟩, hfree⟩
    · obtain ⟨work, hwork⟩ := submitLoop_sent
      exact h.grow hq hwork
    -- The first task of `q` in the order of this round.
    have hsome : ((rotate d.lastTargetPg (d.ready tasks now)).find? (·.pgId = q)).isSome :=
      find?_isSome.mpr ⟨task, mem_rotate.mpr hready, decide_eq_true htask⟩
    obtain ⟨first, hfirst⟩ := Option.isSome_iff_exists.mp hsome
    obtain ⟨hpg, before, rest, hsplit, hbefore⟩ := find?_eq_some_iff_append.mp hfirst
    obtain rfl := of_decide_eq_true hpg
    have hother : ∀ a ∈ before, a.pgId ≠ first.pgId := fun a ha => by simpa using hbefore a ha
    have hturn := pairwise_rotate d.lastTargetPg (d.pairwise_ready tasks now)
    rw [hsplit, pairwise_append] at hturn
    obtain ⟨hpair, -, hcross⟩ := hturn
    have hlast := fun a ha => hcross a ha first mem_cons_self
    rw [submitTargets, hsplit]
    have hstart : Fair first.pgId n (d.forget tasks) := ⟨h.le, h.order, h.last⟩
    refine hstart.submitLoop (hinv.forget tasks) hfree rfl hother ?_ ?_
    · exact hpair.imp_of_mem fun {a b} ha hb hab =>
        hab.later (hlast a ha) (hlast b hb) (hother b hb)
    · intro c hc
      refine or_iff_not_imp_left.mpr fun hne a ha => .inr ?_
      exact Turn.later_last (hc ▸ hlast a ha) (hother a ha) hne
  | submitFallback generation now =>
    cases hstep
    unfold submitFallback
    split
    · have hclaims : claimsSince { d with
          sent := d.sent ++ [.fallback generation]
          fallbackActive := some generation } n = d.claimsSince n ++ [] :=
        claimsSince_append [.fallback generation] rfl h.le
      rw [append_nil] at hclaims
      exact ⟨h.le.trans (by simp), hclaims ▸ h.order, hclaims ▸ h.last⟩
    · exact h
  | completeTarget | completeFallback | fallbackClaim | fallbackDrop =>
    simp only [Dispatch.step, Option.ite_none_right_eq_some, Option.some.injEq] at hstep
    obtain ⟨-, rfl⟩ := hstep
    exact ⟨h.le, h.order, h.last⟩

theorem later_ne {x y : PgId} (h : Later q x y) : x ≠ y := by
  rintro rfl
  simp only [Later] at h
  omega

theorem inv_of_run (run : Run step (fun _ _ => True) {} past d) : d.Inv :=
  run.invariant ⟨by decide, .nil, fun _ => Iff.rfl, forall_mem_nil _, forall_mem_nil _, nofun⟩
    fun h _ hstep => h.step hstep

theorem fair_of_run (hinv : d.Inv)
    (run : Run step (Waits q d.sent.length) d past d') : Fair q d.sent.length d' := by
  have hnone : d.claimsSince d.sent.length = [] := by simp [claimsSince]
  have hstart : Fair q d.sent.length d :=
    ⟨le_rfl, by simp [hnone], .inr fun x hx => absurd (hnone ▸ hx) not_mem_nil⟩
  exact (run.invariant (I := fun d' => d'.Inv ∧ Fair q d.sent.length d') ⟨hinv, hstart⟩
    fun h hwaits hstep => ⟨h.1.step hstep, h.2.step h.1 hwaits hstep⟩).2

/-- **The bounds of the dispatcher.** In every state it reaches at most four recoveries are in
flight; no two of the claims the workers hold are for one PG; a listed task is in its back-off, or
its PG is claimed by the end of the round, or four recoveries are then in flight; and as long as a
PG waits no other one is claimed twice. -/
theorem recovery_dispatch_bounds {past : List Dispatch}
    (run : Run step (fun _ _ => True) {} past d) :
    d.inFlight ≤ maxInFlight ∧ d.held.Nodup ∧ (∀ pgId, pgId ∈ d.claims ↔ pgId ∈ d.held) ∧
      (∀ {tasks task}, task ∈ tasks → ∀ now, d.BacksOff task now ∨
        task.pgId ∈ (d.submitTargets tasks now).claims ∨
          (d.submitTargets tasks now).inFlight = maxInFlight) ∧
      ∀ {q past d'}, Run step (Waits q d.sent.length) d past d' →
        ((d'.claimsSince d.sent.length).takeWhile (· ≠ q)).Nodup := by
  have hinv := inv_of_run run
  exact ⟨hinv.inFlight, hinv.held, hinv.claims, fun htask => hinv.listed htask,
    fun run' => (fair_of_run hinv run').order.imp later_ne⟩

def listedTask (pgId : PgId) (logIndex : Nat) : Task := ⟨pgId, ⟨1, logIndex, 0⟩⟩

/-- PG 1 is recovered and listed again with its next command, while PG 0 is listed throughout and
its recovery takes long. -/
def againEvents : List Event :=
  [.submitTargets [listedTask 0 1, listedTask 1 1] 0, .completeTarget (listedTask 1 1) 10,
    .submitTargets [listedTask 0 1, listedTask 1 2] 20]

theorem recovery_dispatch_bounds_again : ∃ past d, Run step (fun _ _ => True) {} past d ∧
    d.claimsSince 0 = [0, 1, 1] ∧ d.inFlight ≤ maxInFlight ∧ d.held.Nodup := by
  refine exists_run_of_replay_imp againEvents (P := fun _ d => d.claimsSince 0 = [0, 1, 1])
    (by decide +kernel) fun past d run hclaims => ?_
  have h := recovery_dispatch_bounds run
  exact ⟨hclaims, h.1, h.2.1⟩

/-- PG 1 is claimed twice, and PG 0, listed in both rounds, not in between: a worker still has
it. -/
theorem listed_pg_not_claimed_between : ∃ past d, Run step (fun _ _ => True) {} past d ∧
    d.claimsSince 0 = [0, 1, 1] ∧ 0 ∈ d.active.map (·.pgId) :=
  exists_run_of_replay againEvents (by decide +kernel)

end Dispatch

end Argmin.Cluster.PendingMetadataCommandRecovery
