import RarmDb.Pool.Clock
import Mathlib.Data.List.FinRange
import Mathlib.Data.List.Sort

/-!
# The clock is a queue

Although the hand goes round and bits are set and cleared, the order in which the frames will be evicted changes only
when a frame is added.

* `turnsLeft`: how far the hand goes until it takes a frame;
* **`victim_turns`**: the victim has the fewest turns left, and the others have as many less as the hand went;
* `queue`: the frames in the evictor, by their turns left; `Queues`;
* **`clock_queue`**: `victim` takes the head of the queue, `remove` takes a frame out of it, and `add` puts a frame
  behind those without a second chance and those that the hand reaches first;
* `overtake`, `WaitsFairly`; **`WaitsFairly.once`**: no frame is evicted twice before another one that waits.
-/

namespace RarmDb

variable {n : ℕ}

namespace ClockEvictor

variable {e e' : ClockEvictor n} {f g i : Fin n}

/-! ## Turns -/

/-- The hand takes the frame at the end of these turns, unless it is added or removed before. -/
def turnsLeft (e : ClockEvictor n) (f : Fin n) : ℕ :=
  turnsTo (e.hand f.pos) f + if e.secondChances f then n else 0

theorem turnsTo_add (i f g : Fin n) :
    turnsTo i f + turnsTo f g = if turnsTo i f ≤ turnsTo i g then turnsTo i g else turnsTo i g + n := by
  have hi := i.2
  have hf := f.2
  have hg := g.2
  unfold turnsTo
  simp only [Fin.le_def]
  split_ifs <;> omega

theorem turnsTo_inj (h : turnsTo i f = turnsTo i g) : f = g := by
  rw [← nextPos_turnsTo i f, h, nextPos_turnsTo]

theorem turnsLeft_inj (h : e.turnsLeft f = e.turnsLeft g) : f = g := by
  have hf := turnsTo_lt (e.hand f.pos) f
  have hg := turnsTo_lt (e.hand f.pos) g
  refine turnsTo_inj (i := e.hand f.pos) ?_
  unfold turnsLeft at h
  split_ifs at h <;> omega

/-- The hand went past `f` and is as much closer to the other frames, or a round behind. -/
theorem turnsTo_nextPos_of_ne (h : g ≠ f) : turnsTo (nextPos f) g + turnsTo i f + 1 =
    if turnsTo i f < turnsTo i g then turnsTo i g else turnsTo i g + n := by
  have hstep := turnsTo_nextPos (Ne.symm h)
  have hadd := turnsTo_add i f g
  have hne : turnsTo i f ≠ turnsTo i g := fun heq => h (turnsTo_inj heq).symm
  split_ifs at hadd ⊢ <;> omega

theorem turnsLeft_of_spent (h : e.secondChances f = false) : e.turnsLeft f = turnsTo (e.hand f.pos) f := by
  unfold turnsLeft
  rw [h]
  rfl

theorem turnsLeft_of_set (h : e.secondChances f = true) : e.turnsLeft f = turnsTo (e.hand f.pos) f + n := by
  unfold turnsLeft
  rw [h]
  rfl

/-- **A victim has the fewest turns left**; the hand stands behind it, and the turns that it went are off for the other
frames. -/
theorem victim_turns (h : e.victim = (some f, e')) : e'.hand f.pos = nextPos f ∧
    ∀ g, g ≠ f → e.Mem g → e'.turnsLeft g + e.turnsLeft f + 1 = e.turnsLeft g := by
  have hn : 0 < n := f.pos
  have hloop : e.victim = victimLoop e (n * 2) (e.hand hn) := dif_pos hn
  by_cases hspent : ∃ g, e.Spent g
  · -- The hand goes to the first frame whose bit is clear, and clears the bits before it.
    obtain ⟨f', hf⟩ := exists_firstFrom (e.hand hn) hspent
    rw [hloop, victimLoop_firstSpent hf (by omega)] at h
    cases h
    refine ⟨rfl, fun g hg hin => ?_⟩
    have hturns := turnsTo_nextPos_of_ne (i := e.hand hn) hg
    rw [turnsLeft_of_spent hf.1.2]
    by_cases hpassed : turnsTo (e.hand hn) g < turnsTo (e.hand hn) f
    · have hset : e.secondChances g = true := by
        by_contra hbit
        exact absurd (hf.2 g ⟨hin, Bool.eq_false_iff.mpr hbit⟩) (Nat.not_le.mpr hpassed)
      have hclear : (taken (passed e (e.hand hn) (turnsTo (e.hand hn) f)) f).secondChances g = false :=
        if_pos ⟨hin, hpassed⟩
      rw [turnsLeft_of_spent hclear, turnsLeft_of_set hset]
      rw [if_neg (Nat.not_lt.mpr hpassed.le)] at hturns
      exact hturns
    · have hsame : (taken (passed e (e.hand hn) (turnsTo (e.hand hn) f)) f).secondChances g = e.secondChances g :=
        if_neg fun h => hpassed h.2
      have hlt : turnsTo (e.hand hn) f < turnsTo (e.hand hn) g :=
        lt_of_le_of_ne (Nat.not_lt.mp hpassed) fun heq => hg (turnsTo_inj heq).symm
      rw [if_pos hlt] at hturns
      unfold turnsLeft
      rw [hsame, ← hturns]
      show turnsTo (nextPos f) g + _ + _ + 1 = _
      omega
  · -- All bits are set: the hand goes once round, and then to the first frame.
    have hset : ∀ g, e.Mem g → e.secondChances g = true := by
      intro g hg
      by_contra hbit
      exact hspent ⟨g, hg, Bool.eq_false_iff.mpr hbit⟩
    by_cases hmem : ∃ g, e.Mem g
    · obtain ⟨f', hf⟩ := exists_firstFrom (e.hand hn) hmem
      rw [hloop, victimLoop_allSet hset hf] at h
      cases h
      refine ⟨rfl, fun g hg hin => ?_⟩
      have hturns := turnsTo_nextPos_of_ne (i := e.hand hn) hg
      have hlt : turnsTo (e.hand hn) f < turnsTo (e.hand hn) g :=
        lt_of_le_of_ne (hf.2 g hin) fun heq => hg (turnsTo_inj heq).symm
      have hclear : (taken (passed e (e.hand hn) n) f).secondChances g = false := if_pos ⟨hin, turnsTo_lt ..⟩
      rw [turnsLeft_of_spent hclear, turnsLeft_of_set (hset f hf.1), turnsLeft_of_set (hset g hin)]
      rw [if_pos hlt] at hturns
      show turnsTo (nextPos f) g + (turnsTo (e.hand hn) f + n) + 1 = turnsTo (e.hand hn) g + n
      omega
    · exact absurd ⟨f, (victim_some h).1⟩ hmem

theorem victim_lt (h : e.victim = (some f, e')) (hg : g ≠ f) (hin : e.Mem g) : e.turnsLeft f < e.turnsLeft g := by
  have := (victim_turns h).2 g hg hin
  omega

/-! ## The queue -/

/-- The frames in the evictor, in the order in which they are going to be evicted. -/
structure Queues (e : ClockEvictor n) (l : List (Fin n)) : Prop where
  sorted : l.Pairwise fun f g => e.turnsLeft f < e.turnsLeft g
  mem_iff : ∀ f, f ∈ l ↔ e.Mem f

/-- The frames in the evictor, by their turns left. -/
def queue (e : ClockEvictor n) : List (Fin n) :=
  ((List.finRange n).filter e.isInEvictor).insertionSort fun f g => e.turnsLeft f ≤ e.turnsLeft g

theorem queues_queue (e : ClockEvictor n) : Queues e (queue e) := by
  have htotal : Std.Total fun f g : Fin n => e.turnsLeft f ≤ e.turnsLeft g := ⟨fun f g => Nat.le_total ..⟩
  have htrans : IsTrans (Fin n) fun f g => e.turnsLeft f ≤ e.turnsLeft g := ⟨fun _ _ _ => Nat.le_trans⟩
  have hnodup : (queue e).Nodup :=
    ((List.perm_insertionSort _ _).nodup_iff).mpr ((List.nodup_finRange n).filter _)
  constructor
  case sorted =>
    have hsorted : (queue e).Pairwise fun f g => e.turnsLeft f ≤ e.turnsLeft g := List.pairwise_insertionSort _ _
    exact (hsorted.and hnodup).imp fun h => lt_of_le_of_ne h.1 fun heq => h.2 (turnsLeft_inj heq)
  case mem_iff =>
    intro f
    unfold queue Mem
    rw [List.mem_insertionSort, List.mem_filter]
    exact and_iff_right (List.mem_finRange f)

variable {l a b : List (Fin n)}

theorem Queues.eq (h : Queues e l) : queue e = l := by
  have hirrefl : Std.Irrefl fun f g : Fin n => e.turnsLeft f < e.turnsLeft g := ⟨fun _ => Nat.lt_irrefl _⟩
  have hantisymm : Std.Antisymm fun f g : Fin n => e.turnsLeft f < e.turnsLeft g :=
    ⟨fun _ _ h h' => absurd h' (Nat.lt_asymm h)⟩
  have hq := queues_queue e
  exact hq.sorted.eq_of_mem_iff h.sorted fun f => (hq.mem_iff f).trans (h.mem_iff f).symm

theorem Queues.nodup (h : Queues e l) : l.Nodup := by
  refine h.sorted.imp fun {f g} hlt heq => ?_
  rw [heq] at hlt
  exact Nat.lt_irrefl _ hlt

theorem Queues.victim (h : Queues e l) : e.victim.1 = l.head? ∧ Queues e.victim.2 l.tail := by
  rcases hv : e.victim with ⟨_ | f, e'⟩
  · have hempty : ∀ f, ¬ e.Mem f := by
      intro f hf
      have hsome := victim_isSome hf
      rw [hv] at hsome
      cases hsome
    have hl : l = [] := List.eq_nil_iff_forall_not_mem.mpr fun f hf => hempty f ((h.mem_iff f).mp hf)
    subst hl
    refine ⟨rfl, .nil, fun f => ?_⟩
    rw [victim_none hv f]
    exact h.mem_iff f
  · obtain ⟨hf, hrest⟩ := victim_some hv
    cases l with
    | nil => exact absurd ((h.mem_iff f).mpr hf) List.not_mem_nil
    | cons g l =>
      obtain ⟨hhead, hsorted⟩ := List.pairwise_cons.mp h.sorted
      obtain ⟨hnot, -⟩ := List.nodup_cons.mp h.nodup
      -- The head has fewer turns left than the others, and so has the victim.
      obtain rfl : g = f := by
        by_contra hne
        have hlt := victim_lt hv hne ((h.mem_iff g).mp List.mem_cons_self)
        have hmem := List.mem_of_ne_of_mem (Ne.symm hne) ((h.mem_iff f).mpr hf)
        exact Nat.lt_asymm hlt (hhead f hmem)
      have hmem : ∀ k ∈ l, k ≠ g ∧ e.Mem k := by
        intro k hk
        refine ⟨?_, (h.mem_iff k).mp (List.mem_cons_of_mem g hk)⟩
        rintro rfl
        exact hnot hk
      refine ⟨rfl, hsorted.imp_of_mem fun {j k} hj hk hlt => ?_, fun k => ?_⟩
      · have hj := (victim_turns hv).2 j (hmem j hj).1 (hmem j hj).2
        have hk := (victim_turns hv).2 k (hmem k hk).1 (hmem k hk).2
        dsimp only
        omega
      · rw [hrest k, List.tail_cons]
        refine ⟨hmem k, fun hk => ?_⟩
        exact List.mem_of_ne_of_mem hk.1 ((h.mem_iff k).mpr hk.2)

theorem turnsLeft_remove (e : ClockEvictor n) (f g : Fin n) : (e.remove f).turnsLeft g = e.turnsLeft g := by
  unfold remove
  split_ifs <;> rfl

theorem Queues.remove (h : Queues e l) (f : Fin n) : Queues (e.remove f) (l.erase f) := by
  constructor
  case sorted =>
    simp only [turnsLeft_remove]
    exact h.sorted.sublist List.erase_sublist
  case mem_iff =>
    intro g
    rw [h.nodup.mem_erase_iff, h.mem_iff g, mem_remove]

theorem turnsLeft_add_self (e : ClockEvictor n) (f : Fin n) :
    (e.add f).turnsLeft f = turnsTo (e.hand f.pos) f + n :=
  turnsLeft_of_set (Function.update_self ..)

theorem turnsLeft_add_of_ne (h : g ≠ f) : (e.add f).turnsLeft g = e.turnsLeft g := by
  have hbit : (e.add f).secondChances g = e.secondChances g := Function.update_of_ne h ..
  unfold turnsLeft
  rw [hbit]
  rfl

theorem turnsLeft_lt_added : e.turnsLeft g < turnsTo (e.hand f.pos) f + n ↔
    (e.secondChances g = true → turnsTo (e.hand f.pos) g < turnsTo (e.hand f.pos) f) := by
  have hg := turnsTo_lt (e.hand f.pos) g
  cases hbit : e.secondChances g with
  | true =>
    rw [turnsLeft_of_set hbit, Nat.add_lt_add_iff_right]
    exact ⟨fun h _ => h, fun h => h rfl⟩
  | false =>
    rw [turnsLeft_of_spent hbit]
    exact iff_of_true (Nat.lt_add_left _ hg) fun h => absurd h Bool.false_ne_true

theorem Queues.add (h : Queues e l) (f : Fin n) : ∃ a b, l.erase f = a ++ b ∧ Queues (e.add f) (a ++ f :: b) ∧
    ∀ g, g ∈ a ↔ g ≠ f ∧ e.Mem g ∧
      (e.secondChances g = true → turnsTo (e.hand f.pos) g < turnsTo (e.hand f.pos) f) := by
  have hrest := h.remove f
  have hsorted := hrest.sorted
  simp only [turnsLeft_remove] at hsorted
  have hmem : ∀ g, g ∈ l.erase f ↔ g ≠ f ∧ e.Mem g := fun g => (hrest.mem_iff g).trans mem_remove
  -- The frames that the hand takes first.
  let sooner : Fin n → Bool := fun g => e.turnsLeft g < turnsTo (e.hand f.pos) f + n
  have ha : ∀ g, g ∈ (l.erase f).filter sooner ↔ (g ≠ f ∧ e.Mem g) ∧ e.turnsLeft g < turnsTo (e.hand f.pos) f + n :=
    fun g => by rw [List.mem_filter, hmem g, decide_eq_true_eq]
  have hb : ∀ g, g ∈ (l.erase f).filter (fun g => !sooner g) ↔
      (g ≠ f ∧ e.Mem g) ∧ turnsTo (e.hand f.pos) f + n ≤ e.turnsLeft g :=
    fun g => by rw [List.mem_filter, hmem g, Bool.not_eq_true', decide_eq_false_iff_not, Nat.not_lt]
  have hadd : ∀ {g}, g ≠ f → (e.add f).turnsLeft g = e.turnsLeft g := fun hg => turnsLeft_add_of_ne hg
  refine ⟨(l.erase f).filter sooner, (l.erase f).filter fun g => !sooner g, ?_, ⟨?_, fun g => ?_⟩, fun g => ?_⟩
  · refine (hrest.eq.symm.trans (Queues.eq ⟨?_, fun g => ?_⟩))
    · simp only [turnsLeft_remove]
      refine List.pairwise_append.mpr ⟨hsorted.filter _, hsorted.filter _, fun g hg k hk => ?_⟩
      exact lt_of_lt_of_le ((ha g).mp hg).2 ((hb k).mp hk).2
    · rw [List.mem_append, ha g, hb g, mem_remove, ← and_or_left, and_iff_left (Nat.lt_or_ge ..)]
  · refine List.pairwise_append.mpr ⟨?_, List.pairwise_cons.mpr ⟨fun g hg => ?_, ?_⟩, fun g hg k hk => ?_⟩
    · refine (hsorted.filter _).imp_of_mem fun {j k} hj hk hlt => ?_
      rw [hadd ((ha j).mp hj).1.1, hadd ((ha k).mp hk).1.1]
      exact hlt
    · obtain ⟨⟨hne, -⟩, hle⟩ := (hb g).mp hg
      refine lt_of_le_of_ne ?_ fun heq => hne (turnsLeft_inj heq).symm
      rw [turnsLeft_add_self, hadd hne]
      exact hle
    · refine (hsorted.filter _).imp_of_mem fun {j k} hj hk hlt => ?_
      rw [hadd ((hb j).mp hj).1.1, hadd ((hb k).mp hk).1.1]
      exact hlt
    · obtain ⟨⟨hne, -⟩, hlt⟩ := (ha g).mp hg
      rw [hadd hne]
      rcases List.mem_cons.mp hk with rfl | hk
      · rw [turnsLeft_add_self]
        exact hlt
      · obtain ⟨⟨hk, -⟩, hle⟩ := (hb k).mp hk
        rw [hadd hk]
        exact lt_of_lt_of_le hlt hle
  · rw [List.mem_append, List.mem_cons, ha g, hb g, mem_add]
    by_cases hg : g = f
    · simp [hg]
    · rw [or_iff_right hg, or_iff_right hg, and_iff_right hg, ← and_or_left, and_iff_left (Nat.lt_or_ge ..)]
  · rw [ha g, and_assoc, turnsLeft_lt_added]

/-- **The clock evictor is a queue**, in every state that it can have. -/
theorem clock_queue (e : ClockEvictor n) :
    (e.victim.1 = (queue e).head? ∧ queue e.victim.2 = (queue e).tail) ∧
      (∀ f, queue (e.remove f) = (queue e).erase f) ∧
      ∀ f, ∃ a b, (queue e).erase f = a ++ b ∧ queue (e.add f) = a ++ f :: b ∧
        ∀ g, g ∈ a ↔ g ≠ f ∧ e.Mem g ∧
          (e.secondChances g = true → turnsTo (e.hand f.pos) g < turnsTo (e.hand f.pos) f) := by
  have h := queues_queue e
  refine ⟨⟨h.victim.1, h.victim.2.eq⟩, fun f => (h.remove f).eq, fun f => ?_⟩
  obtain ⟨a, b, herase, hadd, ha⟩ := h.add f
  exact ⟨a, b, herase, hadd.eq, ha⟩

/-- Frame `1` was passed before frame `0` was added. -/
example : queue ((((new 3).add 2).add 1).victim.2.add 0) = [2, 0] := by decide

/-! ## Frames that are evicted first -/

/-- The evictor after a call. -/
def call (e : ClockEvictor n) : EvictorOp n → ClockEvictor n
  | .add f => e.add f
  | .remove f => e.remove f
  | .victim => e.victim.2

/-- For each frame, the ones that were evicted since it was last added. -/
def overtake (o : Fin n → List (Fin n)) (e : ClockEvictor n) : EvictorOp n → Fin n → List (Fin n)
  | .add f => Function.update o f []
  | .remove _ => o
  | .victim =>
    match e.victim.1 with
    | some v => fun f => v :: o f
    | none => o

/-- The turns left of a frame if it is added at once, or those that it has. -/
def turnsIfAdded (e : ClockEvictor n) (f : Fin n) : ℕ :=
  if e.isInEvictor f then e.turnsLeft f else turnsTo (e.hand f.pos) f + n

/-- The frames that were evicted before a frame that waits are different ones, and none of them can be evicted again
before it. -/
def WaitsFairly (e : ClockEvictor n) (o : Fin n → List (Fin n)) : Prop :=
  ∀ f, e.Mem f → (o f).Nodup ∧ ∀ g ∈ o f, e.turnsLeft f < e.turnsIfAdded g

theorem turnsIfAdded_of_mem (h : e.Mem f) : e.turnsIfAdded f = e.turnsLeft f := if_pos h

theorem turnsIfAdded_of_not_mem (h : ¬ e.Mem f) : e.turnsIfAdded f = turnsTo (e.hand f.pos) f + n := if_neg h

theorem turnsIfAdded_le (e : ClockEvictor n) (f : Fin n) : e.turnsIfAdded f ≤ turnsTo (e.hand f.pos) f + n := by
  unfold turnsIfAdded turnsLeft
  split_ifs <;> omega

variable {o : Fin n → List (Fin n)}

theorem WaitsFairly.add (h : WaitsFairly e o) (f : Fin n) :
    WaitsFairly (e.add f) (Function.update o f []) := by
  intro k hk
  by_cases hkf : k = f
  · subst hkf
    rw [Function.update_self]
    exact ⟨List.nodup_nil, fun _ hg => absurd hg List.not_mem_nil⟩
  rw [Function.update_of_ne hkf, turnsLeft_add_of_ne hkf]
  obtain ⟨hnodup, hlt⟩ := h k ((mem_add.mp hk).resolve_left hkf)
  refine ⟨hnodup, fun g hg => lt_of_lt_of_le (hlt g hg) ?_⟩
  by_cases hgf : g = f
  · subst hgf
    rw [turnsIfAdded_of_mem (mem_add.mpr (.inl rfl)), turnsLeft_add_self]
    exact e.turnsIfAdded_le g
  · have hin : (e.add f).isInEvictor g = e.isInEvictor g := Function.update_of_ne hgf ..
    unfold turnsIfAdded
    rw [hin, turnsLeft_add_of_ne hgf]
    exact le_rfl

theorem WaitsFairly.remove (h : WaitsFairly e o) (f : Fin n) : WaitsFairly (e.remove f) o := by
  intro k hk
  obtain ⟨hnodup, hlt⟩ := h k (mem_remove.mp hk).2
  refine ⟨hnodup, fun g hg => ?_⟩
  rw [turnsLeft_remove]
  refine lt_of_lt_of_le (hlt g hg) ?_
  have hhand : ∀ hn, (e.remove f).hand hn = e.hand hn := fun hn => by
    unfold ClockEvictor.remove
    split_ifs <;> rfl
  by_cases hin : (e.remove f).Mem g
  · rw [turnsIfAdded_of_mem hin, turnsIfAdded_of_mem (mem_remove.mp hin).2, turnsLeft_remove]
  · rw [turnsIfAdded_of_not_mem hin, hhand]
    exact e.turnsIfAdded_le g

theorem WaitsFairly.victim {v : Fin n} (h : WaitsFairly e o) (hv : e.victim = (some v, e')) :
    WaitsFairly e' fun f => v :: o f := by
  obtain ⟨hvin, hrest⟩ := victim_some hv
  obtain ⟨hhand, hturns⟩ := victim_turns hv
  intro k hk
  obtain ⟨hkv, hk⟩ := (hrest k).mp hk
  obtain ⟨hnodup, hlt⟩ := h k hk
  have hvictim := victim_lt hv hkv hk
  have hk' := hturns k hkv hk
  refine ⟨List.nodup_cons.mpr ⟨fun hmem => ?_, hnodup⟩, List.forall_mem_cons.mpr ⟨?_, fun g hg => ?_⟩⟩
  · -- It was evicted before, and would have been evicted again.
    have hagain := hlt v hmem
    rw [turnsIfAdded_of_mem hvin] at hagain
    exact Nat.lt_asymm hagain hvictim
  · -- The hand has just left the victim, and comes to all other frames before.
    have hback := turnsTo_nextPos_self v
    have hne : turnsTo (nextPos v) k ≠ turnsTo (nextPos v) v := fun heq => hkv (turnsTo_inj heq)
    have hk₁ := turnsTo_lt (nextPos v) k
    have hnot : ¬ e'.Mem v := fun hin => ((hrest v).mp hin).1 rfl
    have hleft : e'.turnsLeft k ≤ turnsTo (nextPos v) k + n := by
      rw [← hhand]
      unfold turnsLeft
      split_ifs <;> omega
    rw [turnsIfAdded_of_not_mem hnot, hhand]
    omega
  · have hlt := hlt g hg
    have hgv : g ≠ v := by
      rintro rfl
      rw [turnsIfAdded_of_mem hvin] at hlt
      exact Nat.lt_asymm hlt hvictim
    by_cases hin : e.Mem g
    · have hg' := hturns g hgv hin
      rw [turnsIfAdded_of_mem hin] at hlt
      rw [turnsIfAdded_of_mem ((hrest g).mpr ⟨hgv, hin⟩)]
      omega
    · have hnot : ¬ e'.Mem g := fun hg => hin ((hrest g).mp hg).2
      have hpast := turnsTo_nextPos_of_ne (i := e.hand v.pos) hgv
      have hfew : turnsTo (e.hand v.pos) v ≤ e.turnsLeft v := Nat.le_add_right ..
      rw [turnsIfAdded_of_not_mem hin] at hlt
      rw [turnsIfAdded_of_not_mem hnot, hhand]
      split_ifs at hpast <;> omega

/-- **Every call of the evictor is fair.** -/
theorem WaitsFairly.call (h : WaitsFairly e o) (op : EvictorOp n) :
    WaitsFairly (e.call op) (overtake o e op) := by
  cases op with
  | add f => exact h.add f
  | remove f => exact h.remove f
  | victim =>
    unfold ClockEvictor.call overtake
    rcases hv : e.victim with ⟨_ | v, e'⟩
    · intro f hf
      have hsome := victim_isSome ((victim_none hv f).mp hf)
      rw [hv] at hsome
      cases hsome
    · exact h.victim hv

theorem waitsFairly_new (n : ℕ) : WaitsFairly (new n) fun _ => [] := fun f hf => absurd hf (not_mem_new f)

/-- At most `n - 1` frames are evicted before a frame that waits, each of them once. -/
theorem WaitsFairly.once (h : WaitsFairly e o) (hf : e.Mem f) : (o f).Nodup ∧ f ∉ o f ∧ (o f).length < n := by
  obtain ⟨hnodup, hlt⟩ := h f hf
  have hself : f ∉ o f := by
    intro hmem
    have hagain := hlt f hmem
    rw [turnsIfAdded_of_mem hf] at hagain
    exact Nat.lt_irrefl _ hagain
  have hcard := (List.nodup_cons.mpr ⟨hself, hnodup⟩).length_le_card
  rw [Fintype.card_fin, List.length_cons] at hcard
  exact ⟨hnodup, hself, hcard⟩

end ClockEvictor

end RarmDb
