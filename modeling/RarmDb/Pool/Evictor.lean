import Mathlib.Data.Fintype.Card
import Mathlib.Logic.Function.Basic

/-!
# The clock evictor

`ClockEvictor`: the frames that may be evicted, each with a second chance.

* `add`, `remove`, `victim`: the operations;
* `Mem`: a frame is in the evictor; `mem_add`, `mem_remove`;
* **`victim_some`**: a victim was in the evictor and no longer is;
* **`victim_isSome`**: two turns of the clock find a victim whenever there is one;
* `Counted`: the size is the number of frames in the evictor.
-/

namespace RarmDb

variable {n : ℕ}

/-- `ClockEvictor`: for a pool of `n` frames. -/
structure ClockEvictor (n : ℕ) where
  clockHandPos : ℕ
  secondChances : Fin n → Bool
  isInEvictor : Fin n → Bool
  size : ℕ
  hand_lt : 0 < n → clockHandPos < n

namespace ClockEvictor

/-- `ClockEvictor::new`. -/
def new (n : ℕ) : ClockEvictor n := ⟨0, fun _ => false, fun _ => false, 0, id⟩

/-- `add`. -/
def add (e : ClockEvictor n) (f : Fin n) : ClockEvictor n :=
  { e with
    isInEvictor := Function.update e.isInEvictor f true
    size := if e.isInEvictor f then e.size else e.size + 1
    secondChances := Function.update e.secondChances f true }

/-- `remove`. -/
def remove (e : ClockEvictor n) (f : Fin n) : ClockEvictor n :=
  if e.isInEvictor f then
    { e with isInEvictor := Function.update e.isInEvictor f false, size := e.size - 1 }
  else e

/-- The next position of the clock hand. -/
def nextPos (i : Fin n) : Fin n := ⟨(i + 1) % n, Nat.mod_lt _ i.pos⟩

/-- The loop of `victim`, with `k` turns left and the hand at `i`. -/
def victimLoop (e : ClockEvictor n) : ℕ → Fin n → Option (Fin n) × ClockEvictor n
  | 0, i => (none, { e with clockHandPos := i, hand_lt := fun _ => i.2 })
  | k + 1, i =>
    if e.isInEvictor i then
      if !e.secondChances i then
        (some i, { e with
          isInEvictor := Function.update e.isInEvictor i false
          size := e.size - 1
          clockHandPos := nextPos i
          hand_lt := fun _ => (nextPos i).2 })
      else victimLoop { e with secondChances := Function.update e.secondChances i false } k (nextPos i)
    else victimLoop e k (nextPos i)

/-- `victim`. -/
def victim (e : ClockEvictor n) : Option (Fin n) × ClockEvictor n :=
  if h : 0 < n then victimLoop e (n * 2) ⟨e.clockHandPos, e.hand_lt h⟩ else (none, e)

/-- A frame is in the evictor. -/
def Mem (e : ClockEvictor n) (f : Fin n) : Prop := e.isInEvictor f = true

variable {e e' : ClockEvictor n} {f g i : Fin n} {k : ℕ}

theorem not_mem_new (f : Fin n) : ¬ (new n).Mem f := Bool.false_ne_true

@[simp] theorem mem_add : (e.add f).Mem g ↔ g = f ∨ e.Mem g := by
  unfold add Mem
  by_cases h : g = f <;> simp [h]

@[simp] theorem mem_remove : (e.remove f).Mem g ↔ g ≠ f ∧ e.Mem g := by
  unfold remove Mem
  by_cases h : g = f
  · subst h
    split_ifs with hg <;> simp [hg]
  · split_ifs <;> simp [h]

/-! ## The victim -/

theorem victimLoop_some (h : victimLoop e k i = (some f, e')) :
    e.Mem f ∧ ∀ g, e'.Mem g ↔ g ≠ f ∧ e.Mem g := by
  induction k generalizing e i with
  | zero => cases h
  | succ k ih =>
    rw [victimLoop] at h
    split_ifs at h with hin hsecond
    · cases h
      refine ⟨hin, fun g => ?_⟩
      unfold Mem
      by_cases hg : g = f <;> simp [hg]
    · have hrest := ih h
      exact hrest
    · exact ih h

theorem victimLoop_none (h : victimLoop e k i = (none, e')) (g : Fin n) : e'.Mem g ↔ e.Mem g := by
  induction k generalizing e i with
  | zero =>
    cases h
    rfl
  | succ k ih =>
    rw [victimLoop] at h
    split_ifs at h with hin hsecond
    · cases h
    · have hrest := ih h
      exact hrest
    · exact ih h

/-- **A victim** was in the evictor; the others still are. -/
theorem victim_some (h : e.victim = (some f, e')) : e.Mem f ∧ ∀ g, e'.Mem g ↔ g ≠ f ∧ e.Mem g := by
  unfold victim at h
  split_ifs at h
  · exact victimLoop_some h
  · cases h

theorem victim_none (h : e.victim = (none, e')) (g : Fin n) : e'.Mem g ↔ e.Mem g := by
  unfold victim at h
  split_ifs at h
  · exact victimLoop_none h g
  · cases h
    rfl

/-- The number of turns until the hand reaches `f`. -/
def turnsTo (i f : Fin n) : ℕ := if i ≤ f then f - i else f + n - i

theorem turnsTo_lt (i f : Fin n) : turnsTo i f < n := by
  have := i.2
  have := f.2
  unfold turnsTo
  split_ifs with h
  · omega
  · have hlt : (f : ℕ) < i := Nat.not_le.mp h
    omega

theorem turnsTo_nextPos_add (i f : Fin n) :
    turnsTo (nextPos i) f + 1 = if i = f then n else turnsTo i f := by
  have hi := i.2
  have hf := f.2
  unfold turnsTo nextPos
  simp only [Fin.le_def, Fin.ext_iff]
  rcases Nat.lt_or_ge (i + 1) n with hlt | hge
  · rw [Nat.mod_eq_of_lt hlt]
    split_ifs <;> omega
  · have hlast : (i : ℕ) + 1 = n := by omega
    rw [hlast, Nat.mod_self]
    split_ifs <;> omega

theorem turnsTo_nextPos (h : i ≠ f) : turnsTo (nextPos i) f + 1 = turnsTo i f :=
  (turnsTo_nextPos_add i f).trans (if_neg h)

/-- A frame without a second chance is found in its turn, if no other one is before. -/
theorem victimLoop_isSome_of_spent (hf : e.Mem f) (hspent : e.secondChances f = false)
    (hk : turnsTo i f < k) : (victimLoop e k i).1.isSome := by
  induction k generalizing e i with
  | zero => exact absurd hk (Nat.not_lt_zero _)
  | succ k ih =>
    rw [victimLoop]
    by_cases hif : i = f
    · subst hif
      have hin : e.isInEvictor i = true := hf
      rw [if_pos hin, hspent]
      rfl
    · have hturns := turnsTo_nextPos hif
      split_ifs with hin hsecond
      · rfl
      · refine ih hf ?_ (by omega)
        exact (Function.update_of_ne (Ne.symm hif) ..).trans hspent
      · exact ih hf hspent (by omega)

theorem victimLoop_isSome (hf : e.Mem f) (hk : turnsTo i f + n < k) :
    (victimLoop e k i).1.isSome := by
  induction k generalizing e i with
  | zero => exact absurd hk (Nat.not_lt_zero _)
  | succ k ih =>
    rw [victimLoop]
    by_cases hif : i = f
    · subst hif
      have hturns := turnsTo_lt (nextPos i) i
      have hin : e.isInEvictor i = true := hf
      rw [if_pos hin]
      split_ifs with hsecond
      · rfl
      · exact victimLoop_isSome_of_spent hf (Function.update_self ..) (by omega)
    · have hturns := turnsTo_nextPos hif
      split_ifs with hin hsecond
      · rfl
      · exact ih hf (by omega)
      · exact ih hf (by omega)

/-- **Two turns of the clock find a victim** whenever there is one. -/
theorem victim_isSome (hf : e.Mem f) : e.victim.1.isSome := by
  unfold victim
  rw [dif_pos f.pos]
  have hturns := turnsTo_lt ⟨e.clockHandPos, e.hand_lt f.pos⟩ f
  exact victimLoop_isSome hf (by omega)

/-! ## The size -/

/-- The size is the number of frames in the evictor, so it is positive when it is decremented. -/
def Counted (e : ClockEvictor n) : Prop :=
  e.size = (Finset.univ.filter fun f => e.isInEvictor f = true).card

theorem counted_new (n : ℕ) : (new n).Counted := by simp [Counted, new]

theorem card_update_true {p : Fin n → Bool} (h : p f = false) :
    (Finset.univ.filter fun g => Function.update p f true g = true).card =
      (Finset.univ.filter fun g => p g = true).card + 1 := by
  have hinsert : (Finset.univ.filter fun g => Function.update p f true g = true) =
      insert f (Finset.univ.filter fun g => p g = true) := by
    ext g
    by_cases hg : g = f <;> simp [hg]
  rw [hinsert, Finset.card_insert_of_notMem (by simp [h])]

theorem card_update_false {p : Fin n → Bool} (h : p f = true) :
    (Finset.univ.filter fun g => Function.update p f false g = true).card =
      (Finset.univ.filter fun g => p g = true).card - 1 := by
  have herase : (Finset.univ.filter fun g => Function.update p f false g = true) =
      (Finset.univ.filter fun g => p g = true).erase f := by
    ext g
    by_cases hg : g = f <;> simp [hg]
  rw [herase, Finset.card_erase_of_mem (by simp [h])]

theorem Counted.add (h : e.Counted) (f : Fin n) : (e.add f).Counted := by
  unfold Counted ClockEvictor.add
  cases hf : e.isInEvictor f with
  | false =>
    rw [card_update_true hf, ← h]
    rfl
  | true =>
    rw [← hf, Function.update_eq_self, hf]
    exact h

theorem Counted.remove (h : e.Counted) (f : Fin n) : (e.remove f).Counted := by
  unfold ClockEvictor.remove
  split_ifs with hf
  · unfold Counted
    rw [card_update_false hf, ← h]
  · exact h

theorem Counted.victimLoop (h : e.Counted) (k : ℕ) (i : Fin n) :
    (ClockEvictor.victimLoop e k i).2.Counted := by
  induction k generalizing e i with
  | zero => exact h
  | succ k ih =>
    rw [ClockEvictor.victimLoop]
    split_ifs with hin hsecond
    · unfold Counted
      rw [card_update_false hin, ← h]
    · apply ih
      exact h
    · exact ih h _

theorem Counted.victim (h : e.Counted) : e.victim.2.Counted := by
  unfold ClockEvictor.victim
  split_ifs
  · exact h.victimLoop ..
  · exact h

end ClockEvictor

end RarmDb
