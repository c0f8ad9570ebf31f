import RarmDb.Pool.Evictor
import Mathlib.Algebra.Order.Group.Nat
import Mathlib.Data.Finset.Dedup
import Mathlib.Data.Finset.Max
import Mathlib.Logic.Function.Iterate

/-!
# Second chances

What `victim` does, exactly, and what remains of the evictor over whole runs.

* `passed`, `taken`: the evictor after the hand passed some frames, and after a frame was taken;
* `victimLoop_pass`, `victimLoop_spent`: turns of the clock;
* **`victim_secondChance`**: the victim, the bits, the frames and the hand after `victim`;
* `EvictorOp`, `runHeld`: runs of the evictor beside the set of frames it holds;
* **`drain_held`**: the evictor neither loses nor duplicates frames.
-/

namespace RarmDb

variable {n : ℕ}

namespace ClockEvictor

/-- The position of the clock hand. -/
def hand (e : ClockEvictor n) (h : 0 < n) : Fin n := ⟨e.clockHandPos, e.hand_lt h⟩

/-- The hand passed the first `j` frames from `i`. -/
def passed (e : ClockEvictor n) (i : Fin n) (j : ℕ) : ClockEvictor n :=
  { e with
    secondChances := fun g => if e.isInEvictor g ∧ turnsTo i g < j then false else e.secondChances g }

theorem hand_lt_nextPos (f : Fin n) : 0 < n → (nextPos f : ℕ) < n := fun _ => (nextPos f).2

/-- The hand took `f`. -/
def taken (e : ClockEvictor n) (f : Fin n) : ClockEvictor n :=
  { e with
    isInEvictor := Function.update e.isInEvictor f false
    size := e.size - 1
    clockHandPos := nextPos f
    hand_lt := hand_lt_nextPos f }

/-- `f` is the first frame in cyclic order from `i` that satisfies `P`. -/
def FirstFrom (i : Fin n) (P : Fin n → Prop) (f : Fin n) : Prop :=
  P f ∧ ∀ g, P g → turnsTo i f ≤ turnsTo i g

/-- A frame in the evictor without a second chance. -/
def Spent (e : ClockEvictor n) (f : Fin n) : Prop := e.Mem f ∧ e.secondChances f = false

variable {e : ClockEvictor n} {f g i : Fin n} {j k : ℕ}

/-! ## Positions -/

theorem turnsTo_self (i : Fin n) : turnsTo i i = 0 := by simp [turnsTo]

theorem turnsTo_nextPos_self (i : Fin n) : turnsTo (nextPos i) i + 1 = n :=
  (turnsTo_nextPos_add i i).trans (if_pos rfl)

theorem nextPos_iterate (i : Fin n) (j : ℕ) : ((nextPos^[j] i : Fin n) : ℕ) = (i + j) % n := by
  induction j with
  | zero => exact (Nat.mod_eq_of_lt i.2).symm
  | succ j ih =>
    rw [Function.iterate_succ_apply']
    show ((nextPos^[j] i : Fin n) + 1 : ℕ) % n = (i + (j + 1)) % n
    rw [ih, Nat.mod_add_mod, Nat.add_assoc]

theorem nextPos_turnsTo (i f : Fin n) : nextPos^[turnsTo i f] i = f := by
  have hi := i.2
  have hf := f.2
  apply Fin.ext
  rw [nextPos_iterate]
  unfold turnsTo
  simp only [Fin.le_def]
  split_ifs with h
  · rw [show (i + (f - i) : ℕ) = f by omega, Nat.mod_eq_of_lt hf]
  · rw [show (i + (f + n - i) : ℕ) = f + n by omega, Nat.add_mod_right, Nat.mod_eq_of_lt hf]

theorem nextPos_lap (i : Fin n) : nextPos^[n] i = i := by
  apply Fin.ext
  rw [nextPos_iterate, Nat.add_mod_right, Nat.mod_eq_of_lt i.2]

theorem exists_firstFrom {P : Fin n → Prop} (i : Fin n) (h : ∃ g, P g) : ∃ f, FirstFrom i P f := by
  classical
  obtain ⟨f, hf, hmin⟩ := Finset.exists_min_image (Finset.univ.filter P) (turnsTo i)
    (h.imp fun g hg => Finset.mem_filter.mpr ⟨Finset.mem_univ g, hg⟩)
  refine ⟨f, (Finset.mem_filter.mp hf).2, fun g hg => ?_⟩
  exact hmin g (Finset.mem_filter.mpr ⟨Finset.mem_univ g, hg⟩)

/-! ## Turns of the clock -/

theorem passed_zero (e : ClockEvictor n) (i : Fin n) : passed e i 0 = e := by
  simp [passed]

theorem passed_succ (hin : e.isInEvictor i = true) :
    passed { e with secondChances := Function.update e.secondChances i false } (nextPos i) j =
      passed e i (j + 1) := by
  unfold passed
  congr 1
  funext g
  by_cases hg : g = i
  · subst hg
    simp [hin, turnsTo_self]
  · have hturns := turnsTo_nextPos (Ne.symm hg)
    have hiff : turnsTo (nextPos i) g < j ↔ turnsTo i g < j + 1 := by omega
    simp [hg, hiff]

theorem passed_succ_of_not_mem (hin : e.isInEvictor i = false) :
    passed e (nextPos i) j = passed e i (j + 1) := by
  unfold passed
  congr 1
  funext g
  by_cases hg : g = i
  · subst hg
    simp [hin]
  · have hturns := turnsTo_nextPos (Ne.symm hg)
    have hiff : turnsTo (nextPos i) g < j ↔ turnsTo i g < j + 1 := by omega
    simp only [hiff]

/-- The hand passes frames that have their second chance, at most once around. -/
theorem victimLoop_pass (hj : j ≤ n)
    (hset : ∀ g, e.Mem g → turnsTo i g < j → e.secondChances g = true) :
    victimLoop e (j + k) i = victimLoop (passed e i j) k (nextPos^[j] i) := by
  induction j generalizing e i with
  | zero => rw [passed_zero, Nat.zero_add, Function.iterate_zero_apply]
  | succ j ih =>
    have hback := turnsTo_nextPos_self i
    rw [Nat.succ_add, victimLoop, Function.iterate_succ_apply]
    have hrest : ∀ g, g ≠ i → turnsTo (nextPos i) g < j → turnsTo i g < j + 1 := by
      intro g hg hlt
      have := turnsTo_nextPos (Ne.symm hg)
      omega
    have hne : ∀ g, turnsTo (nextPos i) g < j → g ≠ i := by
      rintro g hlt rfl
      omega
    cases hin : e.isInEvictor i with
    | true =>
      have hbit := hset i hin (by rw [turnsTo_self]; exact Nat.succ_pos j)
      rw [if_pos rfl, hbit, if_neg (by simp), ih (Nat.le_of_succ_le hj), passed_succ hin]
      intro g hg hlt
      show Function.update e.secondChances i false g = true
      rw [Function.update_of_ne (hne g hlt)]
      exact hset g hg (hrest g (hne g hlt) hlt)
    | false =>
      rw [if_neg (by simp), ih (Nat.le_of_succ_le hj), passed_succ_of_not_mem hin]
      intro g hg hlt
      exact hset g hg (hrest g (hne g hlt) hlt)

theorem victimLoop_spent (hf : e.Spent f) : victimLoop e (k + 1) f = (some f, taken e f) := by
  have hin : e.isInEvictor f = true := hf.1
  rw [victimLoop, if_pos hin, hf.2]
  rfl

/-- The first spent frame is found in the first turn of the clock. -/
theorem victimLoop_firstSpent (hf : FirstFrom i e.Spent f) (hk : n ≤ k) :
    victimLoop e k i = (some f, taken (passed e i (turnsTo i f)) f) := by
  have hturns := turnsTo_lt i f
  have hset : ∀ g, e.Mem g → turnsTo i g < turnsTo i f → e.secondChances g = true := by
    intro g hg hlt
    by_contra hbit
    have := hf.2 g ⟨hg, Bool.eq_false_iff.mpr hbit⟩
    omega
  rw [show k = turnsTo i f + (k - turnsTo i f - 1 + 1) by omega, victimLoop_pass hturns.le hset,
    nextPos_turnsTo]
  refine victimLoop_spent ⟨hf.1.1, ?_⟩
  show (if e.isInEvictor f ∧ turnsTo i f < turnsTo i f then false else e.secondChances f) = false
  rw [if_neg (fun h => Nat.lt_irrefl _ h.2), hf.1.2]

/-- When all bits are set, the first turn clears them and the second finds the first frame. -/
theorem victimLoop_allSet (hset : ∀ g, e.Mem g → e.secondChances g = true)
    (hf : FirstFrom i e.Mem f) :
    victimLoop e (n * 2) i = (some f, taken (passed e i n) f) := by
  have hclear : ∀ g, (passed e i n).Spent g ↔ e.Mem g := by
    intro g
    refine ⟨fun h => h.1, fun h => ⟨h, ?_⟩⟩
    have hin : e.isInEvictor g = true := h
    show (if e.isInEvictor g ∧ turnsTo i g < n then false else e.secondChances g) = false
    rw [if_pos ⟨hin, turnsTo_lt i g⟩]
  have hfirst : FirstFrom i (passed e i n).Spent f :=
    ⟨(hclear f).mpr hf.1, fun g hg => hf.2 g ((hclear g).mp hg)⟩
  rw [Nat.mul_two, victimLoop_pass le_rfl fun g hg _ => hset g hg, nextPos_lap,
    victimLoop_firstSpent hfirst le_rfl]
  congr 2
  unfold passed
  congr 1
  funext g
  by_cases hg : e.isInEvictor g = true
  · simp [hg, turnsTo_lt]
  · simp [hg]

/-- **Second-chance replacement**: the victim is the first frame from the hand whose bit is clear or,
when all bits are set, the first frame; the bits of the passed frames are cleared, and nothing
else changes. -/
theorem victim_secondChance (h : ∃ f, e.Mem f) :
    ∃ f, e.victim.1 = some f ∧
      ((∃ g, e.Spent g) → FirstFrom (e.hand f.pos) e.Spent f ∧
        ∀ g, e.victim.2.secondChances g =
          if e.isInEvictor g ∧ turnsTo (e.hand f.pos) g < turnsTo (e.hand f.pos) f then false
          else e.secondChances g) ∧
      ((∀ g, e.Mem g → e.secondChances g = true) → FirstFrom (e.hand f.pos) e.Mem f ∧
        ∀ g, e.victim.2.secondChances g = if e.isInEvictor g then false else e.secondChances g) ∧
      (∀ g, e.victim.2.isInEvictor g = if g = f then false else e.isInEvictor g) ∧
      e.victim.2.clockHandPos = (f + 1) % n := by
  have hn : 0 < n := h.elim fun f _ => f.pos
  have hloop : e.victim = victimLoop e (n * 2) (e.hand hn) := dif_pos hn
  by_cases hspent : ∃ g, e.Spent g
  · obtain ⟨f, hf⟩ := exists_firstFrom (e.hand hn) hspent
    rw [hloop, victimLoop_firstSpent hf (by omega)]
    refine ⟨f, rfl, fun _ => ⟨hf, fun g => rfl⟩, fun hset => ?_, fun g => ?_, rfl⟩
    · exact absurd ((hset f hf.1.1).symm.trans hf.1.2) (by simp)
    · exact Function.update_apply ..
  · have hset : ∀ g, e.Mem g → e.secondChances g = true := by
      intro g hg
      by_contra hbit
      exact hspent ⟨g, hg, Bool.eq_false_iff.mpr hbit⟩
    obtain ⟨f, hf⟩ := exists_firstFrom (e.hand hn) h
    rw [hloop, victimLoop_allSet hset hf]
    refine ⟨f, rfl, fun hs => absurd hs hspent, fun _ => ⟨hf, fun g => ?_⟩, fun g => ?_, rfl⟩
    · show (if e.isInEvictor g ∧ turnsTo (e.hand hn) g < n then false else e.secondChances g) = _
      simp only [turnsTo_lt, and_true]
    · exact Function.update_apply ..

/-- Two frames have just been added: the first in the order of the clock is the victim. -/
theorem victim_secondChance_pair :
    ∃ f : Fin 3, (((new 3).add 2).add 1).victim.1 = some f ∧
      FirstFrom (Fin.mk 0 (by decide)) (((new 3).add 2).add 1).Mem f ∧
      (((new 3).add 2).add 1).victim.2.clockHandPos = (f + 1 : ℕ) % 3 := by
  obtain ⟨f, hf, -, hset, -, hhand⟩ := victim_secondChance (e := ((new 3).add 2).add 1) ⟨1, rfl⟩
  exact ⟨f, hf, (hset (by unfold Mem; decide)).1, hhand⟩

/-! ## Runs of the evictor -/

/-- A call of the evictor with a frame of the pool. -/
inductive EvictorOp (n : ℕ)
  | add (f : Fin n)
  | remove (f : Fin n)
  | victim

/-- One call, beside the set of frames added and since neither removed nor returned by `victim`. -/
def callHeld (s : ClockEvictor n × Finset (Fin n)) : EvictorOp n → ClockEvictor n × Finset (Fin n)
  | .add f => (s.1.add f, insert f s.2)
  | .remove f => (s.1.remove f, s.2.erase f)
  | .victim =>
    match s.1.victim with
    | (some f, e) => (e, s.2.erase f)
    | (none, e) => (e, s.2)

/-- A sequence of calls from a new evictor. -/
def runHeld (n : ℕ) (ops : List (EvictorOp n)) : ClockEvictor n × Finset (Fin n) :=
  ops.foldl callHeld (new n, ∅)

/-- `k` successive calls of `victim`. -/
def drain : ℕ → ClockEvictor n → List (Option (Fin n))
  | 0, _ => []
  | k + 1, e => e.victim.1 :: drain k e.victim.2

/-- The evictor holds the frames of `S`, and its size counts them. -/
structure Holds (e : ClockEvictor n) (S : Finset (Fin n)) : Prop where
  mem_iff : ∀ f, e.Mem f ↔ f ∈ S
  counted : e.Counted

variable {S : Finset (Fin n)}

theorem holds_new (n : ℕ) : Holds (new n) ∅ :=
  ⟨fun f => iff_of_false (not_mem_new f) (Finset.notMem_empty f), counted_new n⟩

theorem Holds.size_eq (h : Holds e S) : e.size = S.card := by
  rw [h.counted]
  congr 1
  ext f
  rw [Finset.mem_filter, ← h.mem_iff f]
  exact ⟨fun hf => hf.2, fun hf => ⟨Finset.mem_univ f, hf⟩⟩

theorem Holds.add (h : Holds e S) (f : Fin n) : Holds (e.add f) (insert f S) :=
  ⟨fun g => by rw [mem_add, Finset.mem_insert, h.mem_iff g], h.counted.add f⟩

theorem Holds.remove (h : Holds e S) (f : Fin n) : Holds (e.remove f) (S.erase f) :=
  ⟨fun g => by rw [mem_remove, Finset.mem_erase, h.mem_iff g], h.counted.remove f⟩

theorem Holds.victim_some {e' : ClockEvictor n} (h : Holds e S) (hv : e.victim = (some f, e')) :
    f ∈ S ∧ Holds e' (S.erase f) := by
  obtain ⟨hf, hrest⟩ := ClockEvictor.victim_some hv
  refine ⟨(h.mem_iff f).mp hf, fun g => ?_, ?_⟩
  · rw [hrest g, Finset.mem_erase, h.mem_iff g]
  · rw [show e' = e.victim.2 from (congrArg Prod.snd hv).symm]
    exact h.counted.victim

theorem Holds.victim_none {e' : ClockEvictor n} (h : Holds e S) (hv : e.victim = (none, e')) :
    S = ∅ ∧ Holds e' ∅ := by
  have hempty : S = ∅ := by
    refine Finset.eq_empty_of_forall_notMem fun f hf => ?_
    have hsome := victim_isSome ((h.mem_iff f).mpr hf)
    rw [hv] at hsome
    cases hsome
  subst hempty
  refine ⟨rfl, fun g => ?_, ?_⟩
  · rw [ClockEvictor.victim_none hv g, h.mem_iff g]
  · rw [show e' = e.victim.2 from (congrArg Prod.snd hv).symm]
    exact h.counted.victim

theorem Holds.callHeld {s : ClockEvictor n × Finset (Fin n)} (h : Holds s.1 s.2) (op : EvictorOp n) :
    Holds (ClockEvictor.callHeld s op).1 (ClockEvictor.callHeld s op).2 := by
  cases op with
  | add f => exact h.add f
  | remove f => exact h.remove f
  | victim =>
    unfold ClockEvictor.callHeld
    cases hv : s.1.victim with
    | mk r e' =>
      cases r with
      | none =>
        have hnone := h.victim_none hv
        simp only [hnone.1]
        exact hnone.2
      | some f => exact (h.victim_some hv).2

theorem holds_runHeld (ops : List (EvictorOp n)) : Holds (runHeld n ops).1 (runHeld n ops).2 := by
  induction ops using List.reverseRecOn with
  | nil => exact holds_new n
  | append_singleton ops op ih =>
    rw [runHeld, List.foldl_append]
    exact ih.callHeld op

theorem Holds.drain (h : Holds e S) :
    ∃ l : List (Fin n), l.Nodup ∧ l.toFinset = S ∧
      ∀ k, ClockEvictor.drain (S.card + k) e = l.map some ++ List.replicate k none := by
  induction hm : S.card generalizing e S with
  | zero =>
    have hempty := Finset.card_eq_zero.mp hm
    refine ⟨[], List.nodup_nil, by rw [hempty]; rfl, fun k => ?_⟩
    rw [Nat.zero_add, List.map_nil, List.nil_append]
    induction k generalizing e S with
    | zero => rfl
    | succ k ih =>
      rw [ClockEvictor.drain, List.replicate_succ]
      cases hv : e.victim with
      | mk r e' =>
        cases r with
        | none => rw [ih (h.victim_none hv).2 Finset.card_empty rfl]
        | some f => exact absurd (h.victim_some hv).1 (by simp [hempty])
  | succ m ih =>
    cases hv : e.victim with
    | mk r e' =>
      cases r with
      | none => simp [(h.victim_none hv).1] at hm
      | some f =>
        obtain ⟨hf, hrest⟩ := h.victim_some hv
        have hcard : (S.erase f).card = m := by
          rw [Finset.card_erase_of_mem hf, hm, Nat.add_sub_cancel]
        obtain ⟨l, hnodup, hl, hdrain⟩ := ih hrest hcard
        refine ⟨f :: l, List.nodup_cons.mpr ⟨fun hfl => ?_, hnodup⟩, ?_, fun k => ?_⟩
        · rw [← List.mem_toFinset, hl] at hfl
          exact Finset.notMem_erase f S hfl
        · rw [List.toFinset_cons, hl, Finset.insert_erase hf]
        · rw [Nat.succ_add, ClockEvictor.drain, hv, hdrain k]
          rfl

/-- **The evictor neither loses nor duplicates frames**: over any calls its size is the number of
frames it holds and never goes below zero, the hand is valid, and draining returns each held
frame once and then nothing. -/
theorem drain_held (ops : List (EvictorOp n)) :
    (runHeld n ops).1.size = (runHeld n ops).2.card ∧
      (∀ f, f ∈ (runHeld n ops).2 → ((runHeld n ops).1.remove f).size + 1 = (runHeld n ops).1.size) ∧
      (∀ f, (runHeld n ops).1.victim.1 = some f →
        (runHeld n ops).1.victim.2.size + 1 = (runHeld n ops).1.size) ∧
      (0 < n → (runHeld n ops).1.clockHandPos < n) ∧
      ∃ l : List (Fin n), l.Nodup ∧ l.toFinset = (runHeld n ops).2 ∧
        ∀ k, drain ((runHeld n ops).2.card + k) (runHeld n ops).1 =
          l.map some ++ List.replicate k none := by
  have h := holds_runHeld ops
  refine ⟨h.size_eq, fun f hf => ?_, fun f hf => ?_, (runHeld n ops).1.hand_lt, h.drain⟩
  · rw [(h.remove f).size_eq, h.size_eq, Finset.card_erase_add_one hf]
  · have hv := h.victim_some (Prod.ext hf rfl : (runHeld n ops).1.victim = (some f, _))
    rw [hv.2.size_eq, h.size_eq, Finset.card_erase_add_one hv.1]

end ClockEvictor

end RarmDb
