import RarmDb.Tasks.Holders

/-!
# Tasks on one thread

Tasks switch at an await only, and none keeps a guard across one. A task that is suspended should hold no
lock that another task takes: the only thread would be blocked for ever.

* `suspended`: the awaits of the calls; `SingleThread`: all tasks but one are suspended;
* `Unblocked`: no task is about to take a lock that a suspended one holds;
* **`unblocked_of_reached`**: every state is unblocked, if no wait for a load ends during the flush after it;
* `blocked_of_passing`: otherwise the next state is not;
* `flush_blocks_thread`: a task that flushes its victim stops the thread.
-/

namespace RarmDb

open BufferPoolManager

variable {n : ℕ} {τ : Type}

/-! ## Awaits -/

/-- The task waits for the disk or for a channel, or is between two calls. -/
def Pc.suspended : Pc n → Bool
  | .idle _ | .allocate _ | .zero _ | .recvFetch .. | .recvFlush .. | .reading _ | .writing ..
  | .createFlush .. => true
  | _ => false

/-- The frame whose bytes the task is about to lock. -/
def Pc.acquires : Pc n → Option (Fin n)
  | .evict _ f | .lock _ _ f => some f
  | .copy l _ => some l.frame
  | _ => none

/-- The frame that a section takes from the free frames or the evictor. -/
def PinSite.owns (f : Fin n) : PinSite → Option (Fin n)
  | .hit .. => none
  | .miss .. | .create .. => some f

/-- The frame that the task has taken from the free frames or the evictor, until it returns. -/
def Pc.owns : Pc n → Option (Fin n)
  | .evict _ f | .register _ _ f _ | .createFlush _ f _ _ | .createFinish _ f _ => some f
  | .pin site f | .remove site f | .release site f => site.owns f
  | .waitFlush l | .recvFlush l _ | .issueRead l | .reading l | .copy l _ | .finishFetch l | .writing l ..
  | .finishFlush l .. | .finish l _ => some l.frame
  | _ => none

/-- The frame that the fetch has loaded, while it flushes the page that was in it. -/
def Pc.flushing : Pc n → Option (Fin n)
  | .writing l .. => some l.frame
  | _ => none

section Awaits

variable {pc : Pc n} {f : Fin n} {mode : Mode}

/-- **The only lock that is held at an await.** -/
theorem flushing_of_suspended (hpc : pc.suspended = true) (hf : pc.holds = some (f, mode)) :
    pc.flushing = some f := by
  cases pc with
  | writing l v bytes =>
    cases hf
    rfl
  | idle | allocate | zero | recvFetch | recvFlush | reading | createFlush => cases hf
  | _ => cases hpc

theorem owns_of_flushing (hf : pc.flushing = some f) : pc.owns = some f := by
  cases pc with
  | writing l v bytes => exact hf
  | _ => cases hf

theorem uses_of_owns (hf : pc.owns = some f) : pc.pinRole.Uses f := by
  cases pc with
  | pin site g | remove site g | release site g =>
    cases site <;> cases hf <;> rfl
  | _ => cases hf <;> rfl

theorem not_suspended_of_acquires (hf : pc.acquires = some f) : pc.suspended = false := by
  cases pc with
  | evict | lock | copy => rfl
  | _ => cases hf

theorem not_suspended_of_inSection (h : pc.pinRole.inSection = true) : pc.suspended = false := by
  cases pc with
  | take | evict | register | pin | remove | release => rfl
  | _ => cases h

end Awaits

namespace World

/-- The thread runs the task: all others are suspended. -/
def SingleThread (w : World n τ) (t : τ) : Prop := ∀ u, u ≠ t → (w.tasks u).suspended = true

instance [DecidableEq τ] [Fintype τ] (w : World n τ) (t : τ) : Decidable (SingleThread w t) :=
  inferInstanceAs (Decidable (∀ _, _ → _))

/-- The frame of a page that the task has found in the page table, when it does not wait for the load of the
page any more. -/
def passing (w : World n τ) (t : τ) : Option (Fin n) :=
  match w.tasks t with
  | .waitFetch p _ f => if w.bpm.fetches p = none then some f else none
  | .recvFetch _ _ f sub => if w.bpm.sent sub = true then some f else none
  | _ => none

/-- When the wait for a load is over, no task is in the flush after it. -/
def PassesFlushed (w : World n τ) (t : τ) : Prop :=
  ∀ f ∈ w.passing t, ∀ u, (w.tasks u).flushing ≠ some f

instance [Fintype τ] (w : World n τ) (t : τ) : Decidable (PassesFlushed w t) :=
  inferInstanceAs (Decidable (∀ f ∈ w.passing t, _))

/-- No task is about to take a lock that a suspended one holds. Every other mutex is taken and released in
one action. -/
structure Unblocked (w : World n τ) : Prop where
  mutex : ∀ t u, (w.tasks t).locks = true → (w.tasks u).suspended = true → w.pageTableLock ≠ some u
  data : ∀ t u f mode, (w.tasks t).acquires = some f → (w.tasks u).suspended = true →
    (w.tasks u).holds ≠ some (f, mode)

/-- Two tasks have not taken the same frame. -/
def OwnersApart (w : World n τ) : Prop :=
  ∀ t u f, t ≠ u → (w.tasks t).owns = some f → (w.tasks u).owns ≠ some f

variable [DecidableEq τ] [Fintype τ] {w w' : World n τ} {t u : τ} {c : Choice} {f : Fin n} {d : Disk}
  {h : History n}

omit [DecidableEq τ] [Fintype τ] in
theorem SingleThread.pinsAlone (halone : SingleThread w t) : PinsAlone w t := by
  intro f hf u hu
  by_cases hut : u = t
  · rw [hut] at hu
    cases hpc : w.tasks t <;> rw [hpc] at hf hu <;> cases hf
    cases hu
  · have hsusp := halone u hut
    cases hpc : w.tasks u <;> rw [hpc] at hu hsusp
    case add => cases hsusp
    all_goals cases hu

/-! ## Frames that were taken -/

omit [DecidableEq τ] in
theorem PinInv.not_owned (hw : PinInv w) (hin : (w.tasks t).pinRole.inSection = true)
    (hz : (w.bpm.frames f).pinCount = 0) (hu : u ≠ t) : (w.tasks u).owns ≠ some f :=
  fun hf => hw.pins.unused hz (hw.pins.sole hin hu) (uses_of_owns hf)

omit [DecidableEq τ] in
theorem PinInv.victim_pinCount (hw : PinInv w) {r : Request} (hpc : w.tasks t = .take r)
    {evictor : ClockEvictor n} (hvictim : w.bpm.evictor.victim = (some f, evictor)) :
    (w.bpm.frames f).pinCount = 0 :=
  (hw.pins.victim (congrArg Pc.pinRole hpc) (ClockEvictor.victim_some hvictim).1).1

/-- A task has taken its frame before, or takes one now that is not pinned. -/
theorem Move.owns (hm : Move w t c w') (hw : PinInv w) (hf : (w'.tasks t).owns = some f) :
    (w.tasks t).owns = some f ∨ (w.tasks t).pinRole.inSection = true ∧ (w.bpm.frames f).pinCount = 0 := by
  cases hm with
  | @takeFree r g rest hpc hfree =>
    rw [goto_task] at hf
    have hfg : f = g := by cases r <;> cases hf <;> rfl
    subst hfg
    refine .inr ⟨by rw [hpc]; rfl, (hw.pins.free f ?_).1⟩
    change f ∈ w.bpm.freeFrames
    rw [hfree]
    exact List.mem_cons_self
  | @takeVictim r g evictor hpc hfree hvictim =>
    rw [goto_task] at hf
    cases hf
    exact .inr ⟨by rw [hpc]; rfl, hw.victim_pinCount hpc hvictim⟩
  | hit | miss | enter =>
    rw [enter_task] at hf
    cases hf
  | panic =>
    rw [poison_task] at hf
    cases hf
  | full | releaseHit =>
    rw [leave_task] at hf
    cases hf
  | releaseMiss hpc =>
    rw [leave_task] at hf
    rw [hpc]
    exact .inl hf
  | releaseCreate hpc =>
    rw [leave_task] at hf
    rw [hpc]
    split at hf <;> cases hf
    exact .inl rfl
  | pin hpc =>
    rw [goto_task] at hf
    rw [hpc]
    split_ifs at hf <;> exact .inl hf
  | finishFetch hpc =>
    rw [goto_task] at hf
    rw [hpc]
    split at hf <;> exact .inl hf
  | unpin | drop =>
    rw [goto_task] at hf
    split_ifs at hf <;> cases hf
  | callFetch | callCreate | allocate | zero | zeroFault | subscribeFetch | noFetch | recvFetch | closedFetch
  | closedFlush | readFault | finish | fail | createFault | createFinish | lock | store | markDirty | addFail
  | add | unlock | panicLookup | panicEnter | panicWaitFetch | panicWaitFlush | panicFinishFetch | panicFinishFlush
  | panicCreateFinish | panicLock =>
    rw [goto_task] at hf
    cases hf
  | evict hpc | evictCreate hpc | register hpc | remove hpc | subscribeFlush hpc | noFlush hpc | recvFlush hpc
  | issueRead hpc | read hpc | copy hpc | write hpc | writeFault hpc | finishFlush hpc | createWrite hpc =>
    rw [goto_task] at hf
    rw [hpc]
    exact .inl hf

theorem Move.ownersApart (hm : Move w t c w') (hw : PinInv w) (h : OwnersApart w) : OwnersApart w' := by
  have hself : ∀ u f, u ≠ t → (w'.tasks t).owns = some f → (w.tasks u).owns ≠ some f := by
    intro u f hu hf
    rcases hm.owns hw hf with hold | ⟨hin, hz⟩
    · exact h t u f (Ne.symm hu) hold
    · exact hw.not_owned hin hz hu
  intro u u' f hne hf hf'
  by_cases hu : u = t
  · subst hu
    rw [hm.tasks_of_ne hne.symm] at hf'
    exact hself u' f hne.symm hf hf'
  · rw [hm.tasks_of_ne hu] at hf
    by_cases hu' : u' = t
    · subst hu'
      exact hself u f hu hf' hf
    · rw [hm.tasks_of_ne hu'] at hf'
      exact h u u' f hne hf hf'

/-! ## Every move -/

/-- A task is about to lock a frame that it has taken, or takes now, or has found in the page table. -/
theorem Move.acquires (hm : Move w t c w') (hw : PinInv w) (hf : (w'.tasks t).acquires = some f) :
    w.passing t = some f ∨ (w.tasks t).owns = some f ∨
      (w.tasks t).pinRole.inSection = true ∧ (w.bpm.frames f).pinCount = 0 := by
  cases hm with
  | @takeVictim r g evictor hpc hfree hvictim =>
    rw [goto_task] at hf
    cases hf
    exact .inr (.inr ⟨by rw [hpc]; rfl, hw.victim_pinCount hpc hvictim⟩)
  | noFetch hpc hc =>
    rw [goto_task] at hf
    cases hf
    unfold passing
    rw [hpc]
    exact .inl (if_pos hc)
  | recvFetch hpc hsent =>
    rw [goto_task] at hf
    cases hf
    unfold passing
    rw [hpc]
    exact .inl (if_pos hsent)
  | read hpc | finish hpc | createFinish hpc =>
    rw [goto_task] at hf
    cases hf
    rw [hpc]
    exact .inr (.inl rfl)
  | releaseCreate hpc =>
    rw [leave_task] at hf
    rw [hpc]
    split at hf <;> cases hf
    exact .inr (.inl rfl)
  | takeFree =>
    rw [goto_task] at hf
    cases ‹Request› <;> cases hf
  | hit | miss | enter =>
    rw [enter_task] at hf
    cases hf
  | panic =>
    rw [poison_task] at hf
    cases hf
  | full | releaseHit | releaseMiss =>
    rw [leave_task] at hf
    cases hf
  | pin | unpin | drop =>
    rw [goto_task] at hf
    split_ifs at hf <;> cases hf
  | finishFetch =>
    rw [goto_task] at hf
    split at hf <;> cases hf
  | callFetch | callCreate | allocate | zero | zeroFault | evict | evictCreate | register | remove | subscribeFetch
  | closedFetch | subscribeFlush | noFlush | recvFlush | closedFlush | issueRead | readFault | copy | write | writeFault
  | finishFlush | fail | createWrite | createFault | lock | store | markDirty | addFail | add | unlock | panicLookup
  | panicEnter | panicWaitFetch | panicWaitFlush | panicFinishFetch | panicFinishFlush | panicCreateFinish | panicLock =>
    rw [goto_task] at hf
    cases hf

omit [DecidableEq τ] in
theorem PinInv.mutex (hw : PinInv w) (hu : (w.tasks u).suspended = true) : w.pageTableLock ≠ some u := by
  intro hlock
  cases hu.symm.trans (not_suspended_of_inSection ((hw.pins.locked u).mpr hlock))

/-- **Every move of a thread leads to an unblocked state**, if no wait for a load ends during the flush after
it. -/
theorem Move.unblocked (hm : Move w t c w') (hw : PinInv w) (howners : OwnersApart w) (halone : SingleThread w t)
    (hpass : PassesFlushed w t) : Unblocked w' := by
  constructor
  case mutex => exact fun _ u _ hu => (hm.pinInv halone.pinsAlone hw).mutex hu
  case data =>
    intro u u' f mode hf hsusp hholds
    have hflush := flushing_of_suspended hsusp hholds
    by_cases hu : u = t
    · subst hu
      by_cases hu' : u' = u
      · rw [hu'] at hsusp
        cases hsusp.symm.trans (not_suspended_of_acquires hf)
      · rw [hm.tasks_of_ne hu'] at hflush
        have howns := owns_of_flushing hflush
        rcases hm.acquires hw hf with hpassing | hown | ⟨hin, hz⟩
        · exact hpass f hpassing u' hflush
        · exact howners u u' f (Ne.symm hu') hown howns
        · exact hw.not_owned hin hz hu' howns
    · rw [hm.tasks_of_ne hu] at hf
      cases (halone u hu).symm.trans (not_suspended_of_acquires hf)

omit [DecidableEq τ] in
/-- **The task that runs is not blocked** in an unblocked state: the frame that it is about to lock is free. -/
theorem Unblocked.canWrite (h : Unblocked w) (hlocks : LockInv w) (halone : SingleThread w t)
    (hf : (w.tasks t).acquires = some f) : (w.bpm.frames f).canWrite := by
  by_contra hwrite
  obtain ⟨u, mode, hu⟩ := hlocks.held hwrite
  by_cases hut : u = t
  · subst hut
    cases hpc : w.tasks u <;> rw [hpc] at hf hu <;> cases hf <;> cases hu
  · exact h.data t u f mode hf (halone u hut) hu

/-! ## Runs -/

/-- **No task is about to take a lock that a suspended one holds**, if no wait for a load ends during the flush
after it. -/
theorem unblocked_of_reached (hr : Reached d (fun w t _ => SingleThread w t ∧ PassesFlushed w t) w h) :
    Unblocked w := by
  have hinv : PinInv w ∧ OwnersApart w ∧ Unblocked w := by
    refine hr.inv (I := fun w _ => PinInv w ∧ OwnersApart w ∧ Unblocked w) ?_
      fun w w' _ t _ ⟨halone, hpass⟩ hs ⟨hw, howners, _⟩ => ?_
    · exact ⟨pinInv_init n τ d, nofun, nofun, nofun⟩
    · have hm := move_of_step hs
      exact ⟨hm.pinInv halone.pinsAlone hw, hm.ownersApart hw howners, hm.unblocked hw howners halone hpass⟩
  exact hinv.2.2

/-- The first task is suspended in the flush of the page that it has evicted. The second one finds another page in
the page table. -/
def otherFrameSteps : List (Fin 2 × Choice) :=
  [(0, .fetchPage ⟨1, 0⟩ .read), (0, .go), (0, .go), (0, .go), (0, .go), (0, .go), (0, .go), (0, .go),
    (0, .go), (0, .go), (0, .go), (0, .go), (0, .go), (0, .go), (0, .drop), (0, .go), (0, .go),
    (0, .fetchPage ⟨1, 1⟩ .write), (0, .go), (0, .go), (0, .go), (0, .go), (0, .go), (0, .go), (0, .go),
    (0, .go), (0, .go), (0, .go), (0, .go), (0, .go), (0, .go), (0, .markDirty), (0, .drop), (0, .go),
    (0, .go), (0, .fetchPage ⟨1, 2⟩ .read), (0, .go), (0, .go), (0, .go), (0, .go), (0, .go), (0, .go),
    (0, .go), (0, .go), (0, .go), (0, .go), (0, .go), (0, .go), (1, .fetchPage ⟨1, 0⟩ .read), (1, .go),
    (1, .go), (1, .go), (1, .go), (1, .go)]

theorem unblocked_of_otherFrame : ∃ (w : World 2 (Fin 2)) (h : History 2),
    Reached fourPages (fun w t _ => SingleThread w t ∧ PassesFlushed w t) w h ∧
      (w.tasks 0).suspended = true ∧ (w.tasks 0).holds = some (0, .write) ∧ (w.tasks 1).acquires = some 1 ∧
        Unblocked w := by
  have hrun := reached_runSteps .init
    (rfl : runSteps (fun w t _ => SingleThread w t ∧ PassesFlushed w t)
      (World.init 2 (Fin 2) fourPages, History.init 2) otherFrameSteps = some _)
  exact ⟨_, _, hrun, rfl, rfl, rfl, unblocked_of_reached hrun⟩

/-! ## A flush after a load -/

theorem step_of_passing (hrun : ¬ w.Panics t) (hf : w.passing t = some f) (hs : w.step t .go = some w') :
    (w.tasks t).flushing = none ∧ ∃ p mode, w' = w.goto t w.bpm (.lock p mode f) := by
  unfold passing at hf
  rw [step_eq_act hrun] at hs
  unfold act at hs
  cases hpc : w.tasks t <;> rw [hpc] at hf hs <;> dsimp only [Choice.onGo] at hf hs
  case waitFetch p mode g =>
    split_ifs at hf with hc
    cases hf
    rw [hc] at hs
    cases hs
    exact ⟨rfl, p, mode, rfl⟩
  case recvFetch p mode g sub =>
    split_ifs at hf with hsent
    cases hf
    rw [if_pos hsent] at hs
    cases hs
    exact ⟨rfl, p, mode, rfl⟩
  all_goals cases hf

/-- **Otherwise the thread is blocked:** when a wait for a load ends during the flush after it, the task is
about to take the lock of the frame, if it does not panic. -/
theorem blocked_of_passing (hrun : ¬ w.Panics t) (hs : w.step t .go = some w') (hbad : ¬ PassesFlushed w t) :
    ¬ Unblocked w' := by
  unfold PassesFlushed at hbad
  push Not at hbad
  obtain ⟨f, hf, u, hu⟩ := hbad
  obtain ⟨hnone, p, mode, rfl⟩ := step_of_passing hrun hf hs
  have hut : u ≠ t := by
    rintro rfl
    cases hnone.symm.trans hu
  intro h
  have hfree := h.data t u f .write (by rw [goto_task]; rfl)
  change ((Function.update w.tasks t _) u).suspended = true → ((Function.update w.tasks t _) u).holds ≠ _ at hfree
  rw [Function.update_of_ne hut] at hfree
  cases hpc : w.tasks u <;> rw [hpc] at hu hfree <;> cases hu
  exact hfree rfl rfl

/-- The first task loads a page in the place of a dirty one. The second one waits for the load. The first one sends its
message, and is suspended in the flush. -/
def heldLockSteps : List (Fin 2 × Choice) :=
  [(0, .fetchPage ⟨1, 0⟩ .write), (0, .go), (0, .go), (0, .go), (0, .go), (0, .go), (0, .go), (0, .go),
    (0, .go), (0, .go), (0, .go), (0, .go), (0, .go), (0, .go), (0, .markDirty), (0, .drop), (0, .go),
    (0, .go), (0, .fetchPage ⟨1, 1⟩ .read), (0, .go), (0, .go), (0, .go), (0, .go), (0, .go), (0, .go),
    (0, .go), (0, .go), (0, .go), (1, .fetchPage ⟨1, 1⟩ .read), (1, .go), (1, .go), (1, .go), (1, .go),
    (0, .go), (0, .go), (0, .go), (1, .go)]

/-- The second task is about to lock the frame, which the first one holds until the thread runs it again. -/
theorem flush_blocks_thread : ∃ (w : World 1 (Fin 2)) (h : History 1),
    Reached twoPages (fun w t _ => SingleThread w t) w h ∧ (w.tasks 1).acquires = some 0 ∧
      (w.tasks 0).suspended = true ∧ (w.tasks 0).holds = some (0, .write) ∧ (∀ c, w.step 1 c = none) ∧
        ¬ Unblocked w := by
  have hrun := reached_runSteps .init
    (rfl : runSteps (fun w t _ => SingleThread w t) (World.init 1 (Fin 2) twoPages, History.init 1)
      heldLockSteps = some _)
  refine ⟨_, _, hrun, rfl, rfl, rfl, fun c => ?_, fun h => h.data 1 0 0 .write rfl rfl rfl⟩
  cases c <;> rfl

end World

end RarmDb
