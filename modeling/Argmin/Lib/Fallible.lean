import Mathlib.Algebra.Order.Ring.Int

/-!
# Checks in sequence

A fallible function of the source is a row of checks, each of which may return early with
its error, followed by the value it builds.  Such a function is written here as an `Except`
computation over four building blocks:

* `failIf c e` — return the error `e` when the check `c` fires;
* `okOr o e` — the value of an optional lookup, or the error `e`;
* `onSome o f` — one check for an optional value;
* `List.forM` — one check for every element of a list, in order.

The lemmas of this file say when a block succeeds, so that an accepted computation is taken
apart check by check (`bind_eq_ok`) and the code of a check is never unfolded twice.

Unsigned 64-bit sums that must not wrap are `checkedAdd`.
-/

namespace Argmin.Fallible

open List

variable {ε α β : Type} {x : Except ε α} {f : α → Except ε β} {r : List β} {c : Prop} {e : ε}
  {o : Option α} {a : α} {u : Unit} {l : List α}

/-- Return the error `e` when `c` holds. -/
def failIf (c : Prop) [Decidable c] (e : ε) : Except ε Unit :=
  if c then .error e else .ok ()

/-- The value of `o`, or the error `e` when there is none. -/
def okOr (o : Option α) (e : ε) : Except ε α :=
  match o with
  | some a => .ok a
  | none => .error e

/-- Run the check `f` on the value of `o`, when there is one. -/
def onSome (o : Option α) (f : α → Except ε Unit) : Except ε Unit :=
  match o with
  | some a => f a
  | none => .ok ()

/-- A 64-bit sum, absent when it does not fit. -/
def checkedAdd (a b : Nat) : Option Nat :=
  if a + b < 2 ^ 64 then some (a + b) else none

theorem bind_eq_ok {r : β} : (x >>= f) = .ok r ↔ ∃ a, x = .ok a ∧ f a = .ok r := by
  cases x with
  | error e => simp [bind, Except.bind]
  | ok a => simp [bind, Except.bind]

theorem toOption_eq_some : x.toOption = some a ↔ x = .ok a := by
  cases x <;> simp [Except.toOption]

/-- A check followed by the rest. -/
theorem check_bind_eq_ok {x : Except ε Unit} {f : Unit → Except ε β} {r : β} :
    (x >>= f) = .ok r ↔ x = .ok () ∧ f () = .ok r := by
  rw [bind_eq_ok]
  exact ⟨fun ⟨_, hx, hf⟩ => ⟨hx, hf⟩, fun ⟨hx, hf⟩ => ⟨(), hx, hf⟩⟩

theorem failIf_bind_eq_ok [Decidable c] {f : Unit → Except ε β} {r : β} :
    (failIf c e >>= f) = .ok r ↔ ¬c ∧ f () = .ok r := by
  by_cases h : c <;> simp [failIf, h, bind, Except.bind]

theorem okOr_bind_eq_ok {r : β} : (okOr o e >>= f) = .ok r ↔ ∃ a, o = some a ∧ f a = .ok r := by
  cases o <;> simp [okOr, bind, Except.bind]

theorem failIf_of_not [Decidable c] (h : ¬c) : failIf c e = .ok () := if_neg h

@[simp]
theorem ok_bind : ((.ok a : Except ε α) >>= f) = f a := rfl

@[simp]
theorem failIf_eq_ok [Decidable c] : failIf c e = .ok u ↔ ¬c := by
  by_cases h : c <;> simp [failIf, h]

@[simp]
theorem okOr_eq_ok : okOr o e = .ok a ↔ o = some a := by
  cases o <;> simp [okOr]

@[simp]
theorem onSome_eq_ok {f : α → Except ε Unit} :
    onSome o f = .ok u ↔ ∀ a, o = some a → f a = .ok () := by
  cases o <;> simp [onSome]

@[simp]
theorem pure_eq_ok {b : α} : (pure a : Except ε α) = .ok b ↔ a = b := by
  simp [pure, Except.pure]

@[simp]
theorem mapError_eq_ok {ε' : Type} {f : ε → ε'} : x.mapError f = .ok a ↔ x = .ok a := by
  cases x <;> simp [Except.mapError]

/-- A row of checks succeeds exactly when every check of the row does. -/
theorem forM_eq_ok {f : α → Except ε Unit} : l.forM f = .ok () ↔ ∀ a ∈ l, f a = .ok () := by
  induction l with
  | nil => simp [pure, Except.pure]
  | cons a r ih =>
    change (f a >>= fun _ => r.forM f) = _ ↔ _
    rw [bind_eq_ok, forall_mem_cons]
    constructor
    · rintro ⟨u, ha, hr⟩
      exact ⟨ha, ih.mp hr⟩
    · rintro ⟨ha, hr⟩
      exact ⟨_, ha, ih.mpr hr⟩

/-- A traversal fails with the error of one of its elements. -/
theorem exists_of_forM_eq_error {f : α → Except ε Unit}
    (h : l.forM f = .error e) : ∃ a, f a = .error e := by
  induction l with
  | nil => cases h
  | cons a r ih =>
    change (f a >>= fun _ => r.forM f) = _ at h
    cases ha : f a with
    | error e' =>
      rw [ha] at h
      cases h
      exact ⟨a, ha⟩
    | ok u =>
      rw [ha] at h
      exact ih h

theorem mapM_cons_eq_ok :
    (a :: l).mapM f = .ok r ↔ ∃ b bs, f a = .ok b ∧ l.mapM f = .ok bs ∧ b :: bs = r := by
  simp only [mapM_cons, bind_eq_ok, pure_eq_ok, exists_and_left]

/-- The results of a successful traversal are those of its elements. -/
theorem mem_of_mapM_eq_ok (h : l.mapM f = .ok r) : ∀ b, b ∈ r ↔ ∃ a ∈ l, f a = .ok b := by
  induction l generalizing r with
  | nil =>
    cases h
    simp
  | cons a rest ih =>
    obtain ⟨b, bs, hb, hbs, rfl⟩ := mapM_cons_eq_ok.mp h
    intro c
    simp only [mem_cons, exists_eq_or_imp, ih hbs, hb, Except.ok.injEq]
    exact or_congr_left ⟨Eq.symm, Eq.symm⟩

/-- A successful traversal succeeds on every element. -/
theorem exists_of_mapM_eq_ok (h : l.mapM f = .ok r) : ∀ a ∈ l, ∃ b, f a = .ok b := by
  induction l generalizing r with
  | nil => exact fun _ hm => nomatch hm
  | cons a rest ih =>
    obtain ⟨b, bs, hb, hbs, -⟩ := mapM_cons_eq_ok.mp h
    exact forall_mem_cons.mpr ⟨⟨b, hb⟩, ih hbs⟩

/-- A traversal of `start`, `start + 1`, … gives the results in order. -/
theorem mapM_range'_eq_ok {f : Nat → Except ε β} {start n : Nat} :
    (List.range' start n).mapM f = .ok r ↔
      r.length = n ∧ ∀ (i : Nat) (b : β), r[i]? = some b → f (start + i) = .ok b := by
  induction n generalizing start r with
  | zero =>
    rw [range'_zero, mapM_nil, pure_eq_ok]
    refine ⟨fun h => h ▸ ⟨rfl, fun i b hb => by simp at hb⟩, fun h => ?_⟩
    exact (length_eq_zero_iff.mp h.1).symm
  | succ n ih =>
    rw [range'_succ, mapM_cons_eq_ok]
    constructor
    · rintro ⟨b, bs, hb, hbs, rfl⟩
      obtain ⟨hlength, hrest⟩ := ih.mp hbs
      refine ⟨by rw [length_cons, hlength], fun i c hc => ?_⟩
      cases i with
      | zero => cases hc; exact hb
      | succ i =>
        rw [← Nat.succ_add_eq_add_succ]
        exact hrest i c hc
    · rintro ⟨hlength, hall⟩
      cases r with
      | nil => cases hlength
      | cons b bs =>
        refine ⟨b, bs, hall 0 b rfl, ih.mpr ⟨Nat.succ.inj hlength, fun i c hc => ?_⟩, rfl⟩
        rw [Nat.succ_add_eq_add_succ]
        exact hall (i + 1) c hc

theorem checkedAdd_eq_some {a b c : Nat} :
    checkedAdd a b = some c ↔ a + b = c ∧ a + b < 2 ^ 64 := by
  unfold checkedAdd
  split <;> simp <;> omega

end Argmin.Fallible
