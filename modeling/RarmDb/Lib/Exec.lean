import Mathlib.Data.Nat.Notation

/-!
# Computations that may panic

* `Exec`: a computation returns a value, panics, or never returns; its monad.
* Checked subtraction `Exec.sub` and the unwrapping of options and results.
* **`Exec.foldlM_inv`**: the invariant rule of a loop over a list.
* `Exec.Returns`: a computation returns; **`forall_reached`**: a pass over `n` positions does so if it
  can take its step at every position that it reaches.
-/

namespace RarmDb

universe u v

/-- A computation: it returns a value, panics, or never returns. -/
inductive Exec (α : Type u) : Type u
  | ret (a : α)
  | panic
  | diverge
  deriving DecidableEq

namespace Exec

variable {α β : Type u}

/-- Run a computation and continue with its value. -/
protected def bind : Exec α → (α → Exec β) → Exec β
  | ret a, f => f a
  | panic, _ => panic
  | diverge, _ => diverge

instance : Monad Exec where
  pure := ret
  bind := Exec.bind

@[simp] theorem pure_eq (a : α) : (pure a : Exec α) = ret a := rfl

@[simp] theorem ret_bind (a : α) (f : α → Exec β) : (ret a >>= f) = f a := rfl

@[simp] theorem panic_bind (f : α → Exec β) : ((panic : Exec α) >>= f) = panic := rfl

@[simp] theorem diverge_bind (f : α → Exec β) : ((diverge : Exec α) >>= f) = diverge := rfl

instance : LawfulMonad Exec :=
  LawfulMonad.mk' Exec (fun x => by cases x <;> rfl) (fun _ _ => rfl)
    fun x _ _ => by cases x <;> rfl

@[simp] theorem map_ret (f : α → β) (a : α) : (f <$> ret a) = ret (f a) := rfl

theorem bind_eq_ret {x : Exec α} {f : α → Exec β} {b : β} :
    (x >>= f) = ret b ↔ ∃ a, x = ret a ∧ f a = ret b := by
  cases x <;> simp

/-- Subtraction that panics below zero. -/
def sub (a b : ℕ) : Exec ℕ := if b ≤ a then ret (a - b) else panic

theorem sub_of_le {a b : ℕ} (h : b ≤ a) : sub a b = ret (a - b) := if_pos h

/-- `Option::unwrap`, `Option::expect`. -/
def unwrap : Option α → Exec α
  | some a => ret a
  | none => panic

@[simp] theorem unwrap_some (a : α) : unwrap (some a) = ret a := rfl

@[simp] theorem unwrap_none : unwrap (none : Option α) = panic := rfl

/-- `Result::unwrap`, `Result::expect`. -/
def unwrapResult {ε : Type v} : Except ε α → Exec α
  | .ok a => ret a
  | .error _ => panic

@[simp] theorem unwrapResult_ok {ε : Type v} (a : α) :
    unwrapResult (.ok a : Except ε α) = ret a := rfl

@[simp] theorem unwrapResult_error {ε : Type v} (e : ε) :
    unwrapResult (.error e : Except ε α) = panic := rfl

/-- The value, if the computation returns. -/
def toOption : Exec α → Option α
  | ret a => some a
  | panic => none
  | diverge => none

@[simp] theorem toOption_eq_some {x : Exec α} {a : α} : x.toOption = some a ↔ x = ret a := by
  cases x <;> simp [toOption]

theorem foldlM_ret {ι : Type v} {σ : Type u} {f : σ → ι → Exec σ} {g : σ → ι → σ} :
    ∀ {l : List ι} {s : σ}, (∀ i ∈ l, ∀ s, f s i = ret (g s i)) → l.foldlM f s = ret (l.foldl g s)
  | [], _, _ => rfl
  | i :: l, s, h => by
    rw [List.foldlM_cons, h i List.mem_cons_self, ret_bind, List.foldl_cons,
      foldlM_ret fun j hj => h j (List.mem_cons_of_mem i hj)]

theorem mapM_ret {ι : Type u} {f : ι → Exec α} {g : ι → α} :
    ∀ {l : List ι}, (∀ i ∈ l, f i = ret (g i)) → l.mapM f = ret (l.map g)
  | [], _ => by rw [List.mapM_nil, List.map_nil, pure_eq]
  | i :: l, h => by
    rw [List.mapM_cons, h i List.mem_cons_self, ret_bind,
      mapM_ret fun j hj => h j (List.mem_cons_of_mem i hj), ret_bind, List.map_cons, pure_eq]

/-- **The invariant rule of a loop.** `I l s` holds of the items still to come and the state. -/
theorem foldlM_inv {ι : Type v} {σ : Type u} {f : σ → ι → Exec σ} (I : List ι → σ → Prop)
    (step : ∀ i l s, I (i :: l) s → ∃ s', f s i = ret s' ∧ I l s') :
    ∀ (l : List ι) (s : σ), I l s → ∃ s', l.foldlM f s = ret s' ∧ I [] s'
  | [], s, h => ⟨s, rfl, h⟩
  | i :: l, s, h => by
    obtain ⟨s₁, h₁, hI⟩ := step i l s h
    obtain ⟨s₂, h₂, hJ⟩ := foldlM_inv I step l s₁ hI
    exact ⟨s₂, by rw [List.foldlM_cons, h₁, ret_bind, h₂], hJ⟩

theorem foldlM_congr {ι : Type v} {σ : Type u} {f g : σ → ι → Exec σ} (I : σ → Prop) :
    ∀ {l : List ι} {s : σ}, I s → (∀ i ∈ l, ∀ s, I s → f s i = g s i) →
      (∀ i s s', I s → g s i = ret s' → I s') → l.foldlM f s = l.foldlM g s
  | [], _, _, _, _ => rfl
  | i :: l, s, hs, heq, hI => by
    rw [List.foldlM_cons, List.foldlM_cons, heq i List.mem_cons_self s hs]
    cases hg : g s i with
    | ret s' =>
      exact foldlM_congr I (hI i s s' hs hg) (fun j hj => heq j (List.mem_cons_of_mem i hj)) hI
    | panic => rfl
    | diverge => rfl

/-! ## Computations that return -/

/-- The computation returns a value. -/
def Returns (x : Exec α) : Prop := ∃ a, x = ret a

theorem returns_ret (a : α) : (ret a).Returns := ⟨a, rfl⟩

theorem not_returns_panic : ¬ (panic : Exec α).Returns := by
  rintro ⟨a, h⟩
  cases h

theorem returns_bind {x : Exec α} {f : α → Exec β} :
    (x >>= f).Returns ↔ ∃ a, x = ret a ∧ (f a).Returns := by
  cases x <;> simp [Returns]

theorem returns_bind_congr {x : Exec α} {f g : α → Exec β} (h : ∀ a, (f a).Returns ↔ (g a).Returns) :
    (x >>= f).Returns ↔ (x >>= g).Returns := by
  rw [returns_bind, returns_bind]
  exact exists_congr fun a => and_congr_right fun _ => h a

theorem not_returns_diverge : ¬ (diverge : Exec α).Returns := by
  rintro ⟨a, h⟩
  cases h

theorem returns_bind_ret {x : Exec α} {f : α → β} : (x >>= fun a => ret (f a)).Returns ↔ x.Returns := by
  cases x <;> simp [Returns]

end Exec

/-- **A pass that stops early.** At `k` it needs `C k`, and it goes on when `G k` holds. -/
theorem forall_reached {n : ℕ} {P C G : ℕ → Prop} (hend : P n)
    (hstep : ∀ k < n, (P k ↔ C k ∧ (G k → P (k + 1)))) :
    P 0 ↔ ∀ i < n, (∀ j < i, G j) → C i := by
  constructor
  · intro h i hi hgo
    have hreach : ∀ k ≤ i, P k := by
      intro k
      induction k with
      | zero => exact fun _ => h
      | succ k ih =>
        intro hk
        exact ((hstep k (by omega)).mp (ih (by omega))).2 (hgo k (by omega))
    exact ((hstep i hi).mp (hreach i (Nat.le_refl i))).1
  · intro h
    have hback : ∀ d k, k + d = n → (∀ j < k, G j) → P k := by
      intro d
      induction d with
      | zero =>
        rintro k rfl -
        exact hend
      | succ d ih =>
        intro k hk hgo
        refine (hstep k (by omega)).mpr ⟨h k (by omega) hgo, fun hk' => ?_⟩
        refine ih (k + 1) (by omega) fun j hj => ?_
        rcases Nat.lt_succ_iff_lt_or_eq.mp hj with hj | rfl
        · exact hgo j hj
        · exact hk'
    exact hback n 0 (Nat.zero_add n) fun j hj => absurd hj (Nat.not_lt_zero j)

end RarmDb
