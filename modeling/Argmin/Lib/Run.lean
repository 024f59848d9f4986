import Mathlib.Algebra.Order.Ring.Int

/-!
# Runs of a step function

A system is a partial step function `step : σ → ε → Option σ` on states and events.
`Run step Ok s past t` says that the system gets from `s` to `t` by events that meet `Ok` in the
state in which they happen; `past` lists the states before `t`, the latest first.

* `Run.invariant` — what holds at the start and is kept by every step holds at the end;
* `Run.related` — what one step extends relates every state of a run to its end;
* `Run.pairwise` — and every state of a run to every later one;
* `Run.trans` — runs compose;
* `exists_run_of_replay` — a run can be computed from its list of events.
-/

namespace Argmin

variable {σ ε : Type*} {step : σ → ε → Option σ} {Ok : σ → ε → Prop} {s : σ}

inductive Run (step : σ → ε → Option σ) (Ok : σ → ε → Prop) (s : σ) : List σ → σ → Prop
  | refl : Run step Ok s [] s
  | tail {past : List σ} {t u : σ} {e : ε} (prior : Run step Ok s past t) (ok : Ok t e)
      (next : step t e = some u) : Run step Ok s (t :: past) u

namespace Run

variable {step : σ → ε → Option σ} {Ok Ok' : σ → ε → Prop} {s t u : σ} {past later : List σ}
  {I : σ → Prop} {R : σ → σ → Prop}

theorem invariant (h : Run step Ok s past t) (start : I s)
    (keeps : ∀ {t e u}, I t → Ok t e → step t e = some u → I u) : I t := by
  induction h with
  | refl => exact start
  | tail _ ok next ih => exact keeps ih ok next

/-- What relates every state to itself and is extended by every step relates each state of a run
to the last one. -/
theorem related (h : Run step Ok s past t) (start : I s)
    (keeps : ∀ {t e u}, I t → Ok t e → step t e = some u → I u) (refl : ∀ {t}, I t → R t t)
    (extend : ∀ {r t e u}, R r t → I t → Ok t e → step t e = some u → R r u) :
    ∀ r ∈ t :: past, R r t := by
  induction h with
  | refl => exact List.forall_mem_singleton.mpr (refl start)
  | tail prior ok next ih =>
    have ht := prior.invariant start keeps
    exact List.forall_mem_cons.mpr ⟨refl (keeps ht ok next), fun r hr =>
      extend (ih r hr) ht ok next⟩

theorem pairwise (h : Run step Ok s past t) (start : I s)
    (keeps : ∀ {t e u}, I t → Ok t e → step t e = some u → I u) (refl : ∀ {t}, I t → R t t)
    (extend : ∀ {r t e u}, R r t → I t → Ok t e → step t e = some u → R r u) :
    (t :: past).Pairwise fun later earlier => R earlier later := by
  induction h with
  | refl => exact List.pairwise_singleton _ _
  | tail prior ok next ih =>
    have hrelated := prior.related start keeps refl extend
    exact .cons (fun r hr => extend (hrelated r hr) (prior.invariant start keeps) ok next) ih

theorem trans (h : Run step Ok s past t) (h' : Run step Ok t later u) :
    Run step Ok s (later ++ past) u := by
  induction h' with
  | refl => exact h
  | tail _ ok next ih => exact .tail ih ok next

end Run

/-! ### Replaying a list of events -/

/-- The states before and after a list of events, when every event meets `Ok`. -/
def replay (step : σ → ε → Option σ) (Ok : σ → ε → Prop) [∀ t e, Decidable (Ok t e)] :
    List σ → σ → List ε → Option (List σ × σ)
  | past, t, [] => some (past, t)
  | past, t, e :: events =>
    if Ok t e then
      match step t e with
      | some u => replay step Ok (t :: past) u events
      | none => none
    else none

theorem Run.of_replay [∀ t e, Decidable (Ok t e)] {t u : σ} {past past' : List σ} {events : List ε}
    (h : Run step Ok s past t) (hreplay : replay step Ok past t events = some (past', u)) :
    Run step Ok s past' u := by
  induction events generalizing past t with
  | nil =>
    cases hreplay
    exact h
  | cons e events ih =>
    unfold replay at hreplay
    split at hreplay
    · next ok =>
      split at hreplay
      · next next hnext => exact ih (h.tail ok hnext) hreplay
      · cases hreplay
    · cases hreplay

/-- A replayed run with what it shows. -/
theorem exists_run_of_replay [∀ t e, Decidable (Ok t e)] (events : List ε) {P : List σ → σ → Prop}
    (h : ∃ r ∈ replay step Ok [] s events, P r.1 r.2) :
    ∃ past t, Run step Ok s past t ∧ P past t := by
  obtain ⟨⟨past, t⟩, hreplay, hp⟩ := h
  exact ⟨past, t, Run.refl.of_replay hreplay, hp⟩

/-- A replayed run with what follows from what it shows. -/
theorem exists_run_of_replay_imp [∀ t e, Decidable (Ok t e)] (events : List ε)
    {P Q : List σ → σ → Prop} (h : ∃ r ∈ replay step Ok [] s events, P r.1 r.2)
    (hPQ : ∀ past t, Run step Ok s past t → P past t → Q past t) :
    ∃ past t, Run step Ok s past t ∧ Q past t := by
  obtain ⟨past, t, hrun, hp⟩ := exists_run_of_replay events h
  exact ⟨past, t, hrun, hPQ past t hrun hp⟩

end Argmin
