import Mathlib.Algebra.Order.BigOperators.Group.Finset
import RarmDb.Tasks.Guards
import RarmDb.Tasks.Waits

/-!
# Every call returns

* `Pc.rank`: the number of steps that a call, and the use of its guard, take at most;
* **`Move.rank`**: every step but a new call and the use of a guard makes the rank of its task smaller;
* `AllReturn`, **`calls_return`**: the calls return and their guards are dropped after a bounded number of steps, if
  no frame is pinned too early, a new page is fresh, only `allocate_page` fails and every creation finds a frame;
* **`unpanicked_of_reached`**: no task panics in such a run, whatever the disk does.
-/

namespace RarmDb

open BufferPoolManager

variable {n : ℕ} {τ : Type}

/-! ## Ranks -/

/-- How many steps a task takes at most until it is idle. -/
def Pc.rank : Pc n → ℕ
  | .idle _ => 0
  | .unlock .. => 1
  | .add .. => 2
  | .guard .. | .unpin .. => 3
  | .lock .. => 4
  | .finish .. | .createFinish .. | .recvFetch .. => 5
  | .finishFlush .. | .createFlush .. | .waitFetch .. => 6
  | .writing .. => 7
  | .finishFetch _ => 8
  | .copy .. => 9
  | .reading _ => 10
  | .issueRead _ => 11
  | .recvFlush .. => 12
  | .waitFlush _ => 13
  | .release .. => 14
  | .remove .. => 15
  | .pin .. => 16
  | .register .. => 17
  | .evict .. => 18
  | .take _ => 19
  | .lookup .. | .enter _ => 20
  | .zero _ => 21
  | .allocate _ => 22

theorem rank_le (pc : Pc n) : pc.rank ≤ 22 := by
  cases pc <;> simp [Pc.rank]

/-- The task goes on, or drops its guard; it makes no new call, and does not use its guard. -/
def Choice.winds : Choice → Bool
  | go | fault _ | drop => true
  | _ => false

namespace World

variable [DecidableEq τ] {w w' : World n τ} {t : τ} {c : Choice}

/-- **The rank of a task decreases.** -/
theorem Move.rank (hm : Move w t c w') (hc : c.winds = true) : (w'.tasks t).rank < (w.tasks t).rank := by
  cases hm with
  | callFetch | callCreate | store | markDirty => cases hc
  | panic hpc =>
    rw [poison_task, hpc]
    simp [Pc.rank]
  | hit hpc | miss hpc | enter hpc =>
    rw [enter_task, hpc]
    simp [Pc.rank]
  | full hpc | releaseHit hpc | releaseMiss hpc =>
    rw [leave_task, hpc]
    simp [Pc.rank]
  | @releaseCreate p f evicted b hpc =>
    rw [leave_task, hpc]
    rcases evicted.join with - | ⟨v, bytes⟩ <;> simp [Pc.rank]
  | @takeFree r f rest hpc =>
    rw [goto_task, hpc]
    cases r <;> simp [taken, Pc.rank]
  | @finishFetch l hpc =>
    rw [goto_task, hpc]
    rcases l.pageDataToFlush with - | ⟨v, bytes⟩ <;> simp [Pc.rank]
  | pin hpc | unpin hpc | drop hpc =>
    rw [goto_task, hpc]
    split_ifs <;> simp [Pc.rank]
  | allocate hpc | zero hpc | zeroFault hpc | takeVictim hpc | evict hpc | evictCreate hpc | register hpc
  | remove hpc | subscribeFetch hpc | noFetch hpc | recvFetch hpc | closedFetch hpc | subscribeFlush hpc
  | noFlush hpc | recvFlush hpc | closedFlush hpc | issueRead hpc | read hpc | readFault hpc | copy hpc | write hpc
  | writeFault hpc | finishFlush hpc | finish hpc | fail hpc | createWrite hpc | createFault hpc
  | createFinish hpc | lock hpc | addFail hpc | add hpc | unlock hpc | panicLookup hpc | panicEnter hpc
  | panicWaitFetch hpc | panicWaitFlush hpc | panicFinishFetch hpc | panicFinishFlush hpc | panicCreateFinish hpc | panicLock hpc =>
    rw [goto_task, hpc]
    simp [Pc.rank]

/-! ## Runs -/

variable [Fintype τ]

/-- How many steps all tasks take at most. -/
def work (w : World n τ) : ℕ := ∑ t, (w.tasks t).rank

omit [DecidableEq τ] in
theorem work_le (w : World n τ) : w.work ≤ 22 * Fintype.card τ := by
  have hsum := Finset.sum_le_card_nsmul Finset.univ (fun t => (w.tasks t).rank) 22 fun t _ => rank_le (w.tasks t)
  rw [Finset.card_univ, nsmul_eq_mul, mul_comm] at hsum
  exact hsum

theorem work_of_step (hs : w.step t c = some w') (hc : c.winds = true) : w'.work < w.work := by
  have hm := move_of_step hs
  have hlt := hm.rank hc
  refine Finset.sum_lt_sum (fun u _ => ?_) ⟨t, Finset.mem_univ t, hlt⟩
  by_cases hu : u = t
  · rw [hu]
    exact hlt.le
  · rw [hm.tasks_of_ne hu]

/-- The steps one after the other. -/
def steps (w : World n τ) (actions : List (τ × Choice)) : Option (World n τ) :=
  actions.foldlM (fun w a => w.step a.1 a.2) w

theorem length_add_work {actions : List (τ × Choice)} (hs : w.steps actions = some w')
    (hwinds : ∀ a ∈ actions, a.2.winds = true) : actions.length + w'.work ≤ w.work := by
  induction actions generalizing w with
  | nil =>
    cases hs
    exact (Nat.zero_add _).le
  | cons a actions ih =>
    obtain ⟨w₁, hstep, hrest⟩ := Option.bind_eq_some_iff.mp hs
    have hfirst := work_of_step hstep (hwinds a List.mem_cons_self)
    have hlast := ih hrest fun b hb => hwinds b (List.mem_cons_of_mem a hb)
    rw [List.length_cons]
    omega

/-! ## The end of a run -/

variable {d : Disk} {h : History n}

/-- No task goes on, and no task can drop a guard. -/
def Ended (w : World n τ) : Prop := ∀ t c, c.winds = true → w.step t c = none

omit [DecidableEq τ] in
theorem CacheInv.pinned (hw : CacheInv w) {p : PageId} {mode : Mode} {f : Fin n} (ht : w.tasks t = .guard p mode f) :
    0 < (w.bpm.frames f).pinCount := by
  refine (PinProtocol.one_le_pinners (s := w.pinState) (t := t) ?_).trans (hw.pins.pins.pinners f)
  change (w.tasks t).pinRole.pins f = true
  rw [ht]
  exact decide_eq_true rfl

theorem CacheInv.drops (hw : CacheInv w) {p : PageId} {mode : Mode} {f : Fin n} (ht : w.tasks t = .guard p mode f) :
    w.step t .drop ≠ none := by
  rw [step_eq_act (not_panics_of_unwraps ht rfl)]
  unfold act
  rw [ht]
  dsimp only
  unfold decrementPinCount
  rw [if_pos (hw.pinned ht)]
  exact nofun

theorem panics_of_noFrame (hrun : w.poisoned = false) (h : w.NoFrame t) : w.step t .go ≠ none := by
  obtain ⟨htakes, hfree, hvictim⟩ := h
  obtain ⟨p, hpc⟩ := take_of_takesNew htakes
  rw [step_eq_act (not_panics hrun t)]
  unfold act
  rw [hpc]
  dsimp only
  rw [hfree]
  dsimp only
  rcases hv : w.bpm.evictor.victim with ⟨_ | f, evictor⟩
  · exact nofun
  · rw [hv] at hvictim
    cases hvictim

/-- **Where nothing goes on, nothing is left to do**: every task is idle. -/
theorem ClockInv.idle_of_ended {k : Clock τ} (hk : ClockInv w k) (hi : TraceInv w h) (hlocks : LockInv w)
    (hclean : EvictedClean w) (hended : Ended w) (t : τ) : ∃ e, w.tasks t = .idle e := by
  have hnoguard : ∀ u p mode f, w.tasks u ≠ .guard p mode f :=
    fun u p mode f hu => hi.cache.drops hu (hended u .drop rfl)
  have hframes : ∀ u, ¬ w.NoFrame u := fun u hu => panics_of_noFrame hi.counts.running hu (hended u .go rfl)
  by_cases hpending : (w.tasks t).pending = true
  · have hfree : ¬ w.WaitsForGuard t := by
      rintro ⟨_, _, _, u, q, mode', -, hu, -⟩
      exact hnoguard u q mode' _ hu
    obtain ⟨u, -, -, hu⟩ := (hk.waitsOrdered hi hlocks hclean).pending hframes t hpending hfree
    rw [hended u .go rfl] at hu
    cases hu
  · cases hpc : w.tasks t <;> rw [hpc] at hpending
    case idle e => exact ⟨e, rfl⟩
    case guard p mode f => exact absurd hpc (hnoguard t p mode f)
    all_goals exact absurd rfl hpending

/-- The tasks get done. Without new calls, and if guards are not used any more, there are at most 22 steps for each
task; and when there are no more, every call has returned and every guard is dropped. -/
structure AllReturn (w : World n τ) : Prop where
  bounded : ∀ actions w', w.steps actions = some w' → (∀ a ∈ actions, a.2.winds = true) →
    actions.length ≤ 22 * Fintype.card τ
  done : Ended w → ∀ t, ∃ e, w.tasks t = .idle e

/-- No task panics: a call without a step waits for a lock or a message, and guards can be dropped. -/
structure Unpanicked (w : World n τ) : Prop where
  running : ∀ t, ¬ w.Panics t
  calls : ∀ t, (w.tasks t).pending = true → w.step t .go = none → Stuck w t
  drops : ∀ t p mode f, w.tasks t = .guard p mode f → w.step t .drop ≠ none

/-- **No task panics**, whatever the disk does, in the runs that pin no frame too early, in which a new page is
fresh and every creation finds a frame. -/
theorem unpanicked_of_reached (hr : Reached d (fun w t _ => PinsAlone w t ∧ Fresh w t ∧ ¬ w.NoFrame t) w h) :
    Unpanicked w := by
  obtain ⟨k, hk⟩ := hr.clocked
  obtain ⟨hpoison, hw, hlocks, hclean, -⟩ := clockInv_of_clocked hk fun _ _ _ => id
  have hrun := not_panics hpoison
  exact ⟨hrun, fun t => stuck_of_blocked hw hlocks hclean (hrun t), fun t p mode f => hw.drops⟩

/-- The read of one task fails; another one waits for its message, and has no step. -/
def abandonedFetchSteps : List (Fin 2 × Choice) :=
  goingOn [(0, .fetchPage ⟨1, 0⟩ .write, 8), (1, .fetchPage ⟨1, 0⟩ .read, 4), (0, .fault "read", 0)]

theorem unpanicked_of_failed : ∃ (w : World 2 (Fin 2)) (h : History 2),
    Reached twoPages (fun w t _ => PinsAlone w t ∧ Fresh w t ∧ ¬ w.NoFrame t) w h ∧ (w.tasks 1).awaits ≠ none ∧
      (w.step 1 .go).isNone = true ∧ Unpanicked w := by
  have hrun := reached_get
    (by decide +kernel : (runSteps (fun w t _ => PinsAlone w t ∧ Fresh w t ∧ ¬ w.NoFrame t)
      (World.init 2 (Fin 2) twoPages, History.init 2) abandonedFetchSteps).isSome = true)
  exact ⟨_, _, hrun, by decide +kernel, by decide +kernel, unpanicked_of_reached hrun⟩

end World

end RarmDb
