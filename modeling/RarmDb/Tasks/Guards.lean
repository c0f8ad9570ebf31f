import RarmDb.Tasks.Holders
import RarmDb.Tasks.Latest

/-!
# Guards exclude each other

* `WriteInv`, **`Move.writeInv`**: who has locked a frame for writing has locked it alone;
* `GuardsApart`: a write guard is the only guard of its page, and two guards are of one page exactly when they are
  of one frame;
* **`guards_isolated`**: in every run, whatever the disk does, the guards are apart, and no other task changes the
  bytes that a task sees through its guard.
-/

namespace RarmDb

open BufferPoolManager

variable {n : ℕ} {τ : Type}

namespace World

section Locks

variable [DecidableEq τ] {w w' : World n τ} {t : τ} {c : Choice} {f : Fin n}

/-- The lock for writing changes as the task. -/
structure WritesAlike (w : World n τ) (t : τ) (w' : World n τ) (f : Fin n) : Prop where
  kept : (w.bpm.frames f).writer = true → (w'.bpm.frames f).writer = true ∨ (w.tasks t).holds = some (f, .write)
  owned : (w'.tasks t).holds = some (f, .write) → ((w.tasks t).holds = some (f, .write) →
    (w.bpm.frames f).writer = true) → (w'.bpm.frames f).writer = true
  taken : ∀ mode, (w'.tasks t).holds = some (f, mode) → (w.tasks t).holds = some (f, mode) ∨
    (w.bpm.frames f).writer = false ∧ (mode = .write → (w.bpm.frames f).readers = 0)

omit [DecidableEq τ] in
theorem writes_same {pc pc' : Pc n} (hpc : w.tasks t = pc) (hpc' : w'.tasks t = pc')
    (hlock : (w'.bpm.frames f).writer = (w.bpm.frames f).writer) (hholds : pc'.holds = pc.holds) :
    WritesAlike w t w' f := by
  subst hpc hpc'
  refine ⟨fun hw => .inl (hlock.trans hw), fun hf hw => hlock.trans (hw (hholds ▸ hf)), fun mode hf => .inl ?_⟩
  rwa [hholds] at hf

omit [DecidableEq τ] in
theorem writes_frame {pc pc' : Pc n} {g : Fin n} {change : Frame → Frame} (hpc : w.tasks t = pc)
    (hpc' : w'.tasks t = pc') (hframes : w'.bpm.frames = (w.bpm.modifyFrame g change).frames)
    (hchange : ∀ fr, (change fr).writer = fr.writer) (hholds : pc'.holds = pc.holds) : WritesAlike w t w' f := by
  refine writes_same hpc hpc' ?_ hholds
  rw [hframes]
  by_cases hg : f = g
  · rw [hg, modifyFrame_self]
    exact hchange _
  · rw [modifyFrame_of_ne hg]

omit [DecidableEq τ] in
theorem writes_lock {pc' : Pc n} {g : Fin n} {mode : Mode} {change : Frame → Frame}
    (hpc' : w'.tasks t = pc') (hframes : w'.bpm.frames = (w.bpm.modifyFrame g change).frames)
    (hchange : ∀ fr, (change fr).writer = (withGuard fr mode).writer)
    (hfree : (w.bpm.frames g).writer = false ∧ (mode = .write → (w.bpm.frames g).readers = 0))
    (hholds' : pc'.holds = some (g, mode)) : WritesAlike w t w' f := by
  by_cases hg : f = g
  · subst hg
    refine ⟨fun hw => ?_, fun hf _ => ?_, fun mode' hf => .inr ?_⟩
    · cases hfree.1.symm.trans hw
    · rw [hpc', hholds'] at hf
      cases hf
      rw [hframes, modifyFrame_self, hchange]
      rfl
    · rw [hpc', hholds'] at hf
      cases hf
      exact hfree
  · have hne : ∀ m, some (g, mode) ≠ some (f, m) :=
      fun m heq => hg (congrArg Prod.fst (Option.some.inj heq)).symm
    refine ⟨fun hw => .inl ?_, fun hf => ?_, fun mode' hf => ?_⟩
    · rwa [hframes, modifyFrame_of_ne hg]
    · rw [hpc', hholds'] at hf
      exact absurd hf (hne _)
    · rw [hpc', hholds'] at hf
      exact absurd hf (hne _)

omit [DecidableEq τ] in
theorem writes_unlock {pc pc' : Pc n} {g : Fin n} {mode : Mode} (hpc : w.tasks t = pc)
    (hpc' : w'.tasks t = pc')
    (hframes : w'.bpm.frames = (w.bpm.modifyFrame g fun fr => withoutGuard fr mode).frames)
    (hholds : pc.holds = some (g, mode)) (hholds' : pc'.holds = none) : WritesAlike w t w' f := by
  refine ⟨fun hw => ?_, fun hf => ?_, fun mode' hf => ?_⟩
  · by_cases hg : f = g
    · subst hg
      rw [hframes, modifyFrame_self]
      cases mode with
      | read => exact .inl hw
      | write => exact .inr (hpc ▸ hholds)
    · rw [hframes, modifyFrame_of_ne hg]
      exact .inl hw
  · rw [hpc', hholds'] at hf
    cases hf
  · rw [hpc', hholds'] at hf
    cases hf

omit [DecidableEq τ] in
theorem lockData_free {b b' : BufferPoolManager n} {mode : Mode} (h : b.lockData f mode = .ret b') :
    (b.frames f).writer = false ∧ (mode = .write → (b.frames f).readers = 0) := by
  unfold lockData at h
  cases mode with
  | read =>
    dsimp only at h
    split_ifs at h with hread
    exact ⟨hread, nofun⟩
  | write =>
    dsimp only at h
    split_ifs at h with hwrite
    exact ⟨hwrite.1, fun _ => hwrite.2⟩

/-- **Every move changes the lock for writing as the task.** -/
theorem Move.writes (hm : Move w t c w') (f : Fin n) : WritesAlike w t w' f := by
  cases hm with
  | callFetch hpc | callCreate hpc | allocate hpc | zero hpc | zeroFault hpc | takeVictim hpc | evictCreate hpc
  | subscribeFetch hpc | noFetch hpc | recvFetch hpc | closedFetch hpc | subscribeFlush hpc | noFlush hpc
  | recvFlush hpc | closedFlush hpc | issueRead hpc | read hpc | readFault hpc | write hpc | writeFault hpc
  | createWrite hpc | createFault hpc | remove hpc | addFail hpc | add hpc | panicLookup hpc | panicEnter hpc
  | panicWaitFetch hpc | panicWaitFlush hpc | panicCreateFinish hpc | panicLock hpc =>
    exact writes_same hpc (goto_task ..) rfl rfl
  | hit hpc | miss hpc | enter hpc => exact writes_same hpc (enter_task ..) rfl rfl
  | panic hpc => exact writes_same hpc (poison_task ..) rfl rfl
  | full hpc | releaseHit hpc | releaseMiss hpc => exact writes_same hpc (leave_task ..) rfl rfl
  | @takeFree r g rest hpc =>
    refine writes_same hpc (goto_task ..) rfl ?_
    cases r <;> rfl
  | @evict p mode g v hpc =>
    refine writes_same hpc (goto_task ..) ?_ rfl
    cases image (w.bpm.frames g) v <;> rfl
  | store hpc | markDirty hpc => exact writes_frame hpc (goto_task ..) rfl (fun _ => rfl) rfl
  | @register p mode g img hpc =>
    have hframes : (w.bpm.beginFetch p g).frames =
      (w.bpm.modifyFrame g fun fr => { fr with pageId := some p, isDirty := false }).frames := rfl
    exact writes_frame hpc (goto_task ..) hframes (fun _ => rfl) rfl
  | pin hpc | unpin hpc | drop hpc =>
    refine writes_frame hpc (goto_task ..) rfl (fun _ => rfl) ?_
    split_ifs <;> rfl
  | @releaseCreate p g evicted b hpc hb =>
    obtain ⟨b₁, hb₁, rfl⟩ := registerCreated_ret hb
    have hframes : (b₁.modifyFrame g fun fr => { fr with pageId := some p }).frames =
        (w.bpm.modifyFrame g fun fr => { fr with pageId := some p }).frames := by
      rcases hb₁ with rfl | ⟨v, bytes, -, rfl⟩ <;> rfl
    refine writes_frame hpc (leave_task ..) hframes (fun _ => rfl) ?_
    rcases evicted.join with - | ⟨v, bytes⟩ <;> rfl
  | @finishFetch l hpc =>
    refine writes_same hpc (goto_task ..) ?_ ?_
    · rw [finishFetch_eq]
      rfl
    · rcases l.pageDataToFlush with - | ⟨v, bytes⟩ <;> rfl
  | finishFlush hpc | createFinish hpc =>
    refine writes_same hpc (goto_task ..) ?_ rfl
    rw [finishFlush_eq]
    rfl
  | @lock p mode g b hpc hb =>
    have hfree := lockData_free hb
    obtain rfl := lockData_ret hb
    exact writes_lock (goto_task ..) rfl (fun _ => rfl) hfree rfl
  | copy hpc hwrite =>
    refine writes_lock (goto_task ..) rfl ?_ ⟨hwrite.1, fun _ => hwrite.2⟩ rfl
    exact fun _ => rfl
  | finish hpc | fail hpc | panicFinishFetch hpc | panicFinishFlush hpc =>
    refine writes_unlock hpc (goto_task ..) ?_ rfl rfl
    rfl
  | @unlock g mode hpc => exact writes_unlock hpc (goto_task ..) (congrArg frames (unlockData_eq w.bpm g mode)) rfl rfl

end Locks

section Invariant

variable [DecidableEq τ] [Fintype τ] {w w' : World n τ} {t u : τ} {c : Choice} {f : Fin n} {mode : Mode}

/-- Who has locked a frame for writing has locked it alone. -/
structure WriteInv (w : World n τ) : Prop where
  owned : ∀ t f, (w.tasks t).holds = some (f, .write) → (w.bpm.frames f).writer = true
  alone : ∀ t u f mode, (w.tasks t).holds = some (f, .write) → (w.tasks u).holds = some (f, mode) → u = t

/-- **Every move keeps the locks for writing alone.** -/
theorem Move.writeInv (hm : Move w t c w') (hlocks : LockInv w) (hi : WriteInv w) : WriteInv w' := by
  have hfree : ∀ u f mode, (w.tasks u).holds = some (f, mode) → (w.bpm.frames f).writer = false →
      mode = .read ∧ (w.bpm.frames f).readers ≠ 0 := by
    intro u f mode hu hf
    cases mode with
    | read => exact ⟨rfl, (hlocks.readers_pos hu).ne'⟩
    | write => cases hf.symm.trans (hi.owned u f hu)
  constructor
  case owned =>
    intro u f hu
    by_cases hut : u = t
    · subst hut
      exact (hm.writes f).owned hu (hi.owned u f)
    · rw [hm.tasks_of_ne hut] at hu
      rcases (hm.writes f).kept (hi.owned u f hu) with hw | ht
      · exact hw
      · exact absurd (hi.alone u t f .write hu ht).symm hut
  case alone =>
    intro u v f mode hu hv
    by_cases hut : u = t
    · subst hut
      by_contra hvu
      rw [hm.tasks_of_ne hvu] at hv
      rcases (hm.writes f).taken .write hu with hold | ⟨hwriter, hreaders⟩
      · exact hvu (hi.alone u v f mode hold hv)
      · exact (hfree v f mode hv hwriter).2 (hreaders rfl)
    · rw [hm.tasks_of_ne hut] at hu
      by_cases hvt : v = t
      · subst hvt
        rcases (hm.writes f).taken mode hv with hold | ⟨hwriter, -⟩
        · exact hi.alone u v f mode hu hold
        · cases hwriter.symm.trans (hi.owned u f hu)
      · rw [hm.tasks_of_ne hvt] at hv
        exact hi.alone u v f mode hu hv

/-! ## Guards -/

/-- Guards of one page are guards of one frame, and a write guard is the only one. -/
structure GuardsApart (w : World n τ) : Prop where
  exclusive : ∀ t u p mode f g, w.tasks t = .guard p .write f → w.tasks u = .guard p mode g → u = t
  frame : ∀ t u p q mode mode' f g, w.tasks t = .guard p mode f → w.tasks u = .guard q mode' g → (p = q ↔ f = g)
  shown : ∀ t p mode f, w.tasks t = .guard p mode f → (w.bpm.frames f).pageId = some p

omit [DecidableEq τ] in
theorem CacheInv.guard_mapped (hw : CacheInv w) {p : PageId} (ht : w.tasks t = .guard p mode f) :
    w.bpm.pageTable p = some f := by
  have hrole : w.cacheRoles t = .ready p f none := congrArg Pc.cacheRole ht
  exact (hw.cache.loaded hrole).1

omit [DecidableEq τ] in
theorem WriteInv.guardsApart (hi : WriteInv w) (hw : CacheInv w) : GuardsApart w := by
  have hframe : ∀ {t u p q mode mode' f g}, w.tasks t = .guard p mode f → w.tasks u = .guard q mode' g →
      (p = q ↔ f = g) := by
    intro t u p q mode mode' f g ht hu
    have hp := hw.guard_mapped ht
    have hq := hw.guard_mapped hu
    constructor
    · rintro rfl
      exact Option.some.inj (hp.symm.trans hq)
    · rintro rfl
      exact hw.page_unique hp hq
  refine ⟨fun t u p mode f g ht hu => ?_, fun t u p q mode mode' f g => hframe, fun t p mode f ht => ?_⟩
  · obtain rfl := (hframe ht hu).mp rfl
    exact hi.alone t u f mode (by rw [ht]; rfl) (by rw [hu]; rfl)
  · exact hw.table.table p f (hw.guard_mapped ht)

/-! ## Runs -/

variable {d : Disk} {h : History n}

theorem writeInv_of_reached (hr : Reached d (fun w t _ => PinsAlone w t ∧ Fresh w t) w h) :
    CacheInv w ∧ LockInv w ∧ WriteInv w := by
  refine hr.inv (I := fun w _ => CacheInv w ∧ LockInv w ∧ WriteInv w) ?_ fun w w' h t c hok hs hi => ?_
  · exact ⟨cacheInv_init n τ d, lockInv_init n τ d, nofun, nofun⟩
  · have hm := move_of_step hs
    exact ⟨hm.cacheInv hok.1 hok.2 hi.1, hm.lockInv hi.2.1, hm.writeInv hi.2.1 hi.2.2⟩

theorem Move.guarded_data (hm : Move w u c w') (hw : CacheInv w) (hi : WriteInv w) {p : PageId}
    (ht : w.tasks t = .guard p mode f) (hut : u ≠ t) : (w'.bpm.frames f).data = (w.bpm.frames f).data := by
  refine hm.data_eq (fun l readBuffer hu hf => ?_) fun _ q hu => ?_
  · subst hf
    exact hw.copy_unguarded hu ht
  · exact hut (hi.alone u t f mode (by rw [hu]; rfl) (by rw [ht]; rfl)).symm

/-- What a task sees through its guard is its own: a write guard is the only guard of its page, guards of other
pages are on other frames, and no step of another task changes the bytes. -/
structure Isolated (w : World n τ) : Prop extends GuardsApart w where
  unchanged : ∀ t u p mode f c w', w.tasks t = .guard p mode f → u ≠ t → w.step u c = some w' →
    w'.tasks t = .guard p mode f ∧ (w'.bpm.frames f).data = (w.bpm.frames f).data

/-- **Guards are isolated** in every run, whatever the disk does. -/
theorem guards_isolated (hr : Reached d (fun w t _ => PinsAlone w t ∧ Fresh w t) w h) : Isolated w := by
  obtain ⟨hw, -, hi⟩ := writeInv_of_reached hr
  refine ⟨hi.guardsApart hw, fun t u p mode f c w' ht hut hs => ?_⟩
  have hm := move_of_step hs
  exact ⟨by rw [hm.tasks_of_ne (Ne.symm hut), ht], hm.guarded_data hw hi ht hut⟩

end Invariant

/-- The first task has a write guard on a page. The second one has fetched the page, and waits for its guard. The
third one creates a page in the other frame. -/
def sharedPageSteps : List (Fin 3 × Choice) :=
  goingOn [(0, .fetchPage ⟨1, 0⟩ .write, 13), (1, .fetchPage ⟨1, 0⟩ .read, 4), (2, .createPage 1, 8)]

theorem guards_isolated_shared : ∃ (w : World 2 (Fin 3)) (h : History 2),
    Reached twoPages (fun w t _ => PinsAlone w t ∧ Fresh w t) w h ∧ (w.tasks 0).guardOn ≠ none ∧
      (w.tasks 2).guardOn ≠ none ∧ Isolated w := by
  have hrun := reached_runSteps .init
    (rfl : runSteps (fun w t _ => PinsAlone w t ∧ Fresh w t)
      (World.init 2 (Fin 3) twoPages, History.init 2) sharedPageSteps = some _)
  exact ⟨_, _, hrun, Option.some_ne_none _, Option.some_ne_none _, guards_isolated hrun⟩

end World

end RarmDb
