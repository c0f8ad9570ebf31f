import Mathlib.Tactic.SplitIfs

/-!
# Runs with a ghost state

A system goes from one state to the next by actions. A ghost state goes with it: every action changes it, and
no action reads it.

* `System`: the step of a state, and what the ghost state notes of it;
* `System.Reached`: the states of the runs whose steps all meet a condition;
* **`Reached.inv`**: what holds at the start and is kept by every step holds in every run;
* `System.run`, `reached_run`: the run of a list of actions;
* `System.also`: a second ghost state; `Reached.fst`: it can be left out.
-/

namespace RarmDb

namespace Ghost

/-- The step of a state under an action, and the ghost state after it. -/
structure System (σ γ ι : Type) where
  step : σ → ι → Option σ
  note : γ → σ → ι → γ

variable {σ γ δ ι : Type} {S : System σ γ ι} {ok ok' : σ → γ → ι → Prop} {s₀ s s' : σ} {g₀ g : γ}

/-- The states, with their ghost states, of the runs whose steps all meet the condition `ok`. -/
inductive System.Reached (S : System σ γ ι) (ok : σ → γ → ι → Prop) (s₀ : σ) (g₀ : γ) : σ → γ → Prop
  | init : Reached S ok s₀ g₀ s₀ g₀
  | step {s s' : σ} {g : γ} {i : ι} (hr : Reached S ok s₀ g₀ s g) (hok : ok s g i)
      (hs : S.step s i = some s') : Reached S ok s₀ g₀ s' (S.note g s i)

namespace System

/-- **The invariant rule of runs.** -/
theorem Reached.inv (hr : S.Reached ok s₀ g₀ s g) {I : σ → γ → Prop} (init : I s₀ g₀)
    (step : ∀ s s' g i, ok s g i → S.step s i = some s' → I s g → I s' (S.note g s i)) : I s g := by
  induction hr with
  | init => exact init
  | step _ hok hs ih => exact step _ _ _ _ hok hs ih

theorem Reached.mono (hr : S.Reached ok s₀ g₀ s g) (hok : ∀ s g i, ok s g i → ok' s g i) :
    S.Reached ok' s₀ g₀ s g := by
  induction hr with
  | init => exact .init
  | step _ hc hs ih => exact .step ih (hok _ _ _ hc) hs

/-- Run the actions one after the other, as long as they meet the condition. -/
def run (S : System σ γ ι) (ok : σ → γ → ι → Prop) [∀ s g i, Decidable (ok s g i)] :
    σ × γ → List ι → Option (σ × γ)
  | s, [] => some s
  | (s, g), i :: actions =>
    if ok s g i then
      match S.step s i with
      | some s' => run S ok (s', S.note g s i) actions
      | none => none
    else none

theorem reached_run [∀ s g i, Decidable (ok s g i)] {actions : List ι} {x : σ × γ}
    (hr : S.Reached ok s₀ g₀ s g) (hs : S.run ok (s, g) actions = some x) : S.Reached ok s₀ g₀ x.1 x.2 := by
  induction actions generalizing s g with
  | nil =>
    cases hs
    exact hr
  | cons i actions ih =>
    unfold run at hs
    split_ifs at hs with hok
    cases hstep : S.step s i with
    | none =>
      rw [hstep] at hs
      cases hs
    | some s' =>
      rw [hstep] at hs
      exact ih (.step hr hok hstep) hs

theorem reached_get [∀ s g i, Decidable (ok s g i)] {actions : List ι}
    (hs : (S.run ok (s₀, g₀) actions).isSome = true) :
    S.Reached ok s₀ g₀ ((S.run ok (s₀, g₀) actions).get hs).1 ((S.run ok (s₀, g₀) actions).get hs).2 :=
  reached_run .init (Option.some_get hs).symm

/-! ## Two ghost states -/

/-- A second ghost state beside the first one. -/
def also (S : System σ γ ι) (note : δ → σ → ι → δ) : System σ (γ × δ) ι where
  step := S.step
  note g s i := (S.note g.1 s i, note g.2 s i)

theorem Reached.fst {note : δ → σ → ι → δ} {d₀ : δ} {g : γ × δ}
    (hr : (S.also note).Reached (fun s g i => ok s g.1 i) s₀ (g₀, d₀) s g) : S.Reached ok s₀ g₀ s g.1 := by
  induction hr with
  | init => exact .init
  | step _ hok hs ih => exact .step ih hok hs

end System

end Ghost

end RarmDb
