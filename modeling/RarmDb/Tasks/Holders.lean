import RarmDb.Tasks.Traces

/-!
# Who holds the locks of the frames

* `holds`: the lock of the bytes of a frame that a task has;
* `LockInv`, **`Move.lockInv`**: the locks of the frames are those of the tasks;
* `EvictedClean`: a frame that `create_page` has taken without a page to flush is not dirty;
* `Stuck`, **`stuck_of_blocked`**: what a task without a step waits for;
* `Advances`, **`advances_of_section`**: who holds the page table lock goes on, or finds no frame.
-/

namespace RarmDb

open BufferPoolManager

variable {n : ℕ} {τ : Type}

/-! ## The locks -/

/-- The frame whose bytes the task has locked. -/
def Pc.holds : Pc n → Option (Fin n × Mode)
  | .finishFetch l | .writing l .. | .finishFlush l .. | .finish l _ => some (l.frame, .write)
  | .guard _ mode f | .add f (.unlock mode) | .unlock f mode => some (f, mode)
  | _ => none

/-- The task is about to lock the page table. -/
def Pc.locks : Pc n → Bool
  | .lookup .. | .enter _ => true
  | _ => false

/-- The task is in a call, or is dropping its guard. -/
def Pc.pending : Pc n → Bool
  | .idle _ | .guard .. => false
  | _ => true

theorem outside_of_locks {pc : Pc n} (h : pc.locks = true) : pc.pinRole.inSection = false := by
  cases pc with
  | lookup | enter => rfl
  | _ => cases h

theorem pending_of_inSection {pc : Pc n} (h : pc.pinRole.inSection = true) : pc.pending = true := by
  cases pc with
  | idle | guard => cases h
  | _ => rfl

namespace World

section Locks

variable [DecidableEq τ] {w w' : World n τ} {t : τ} {c : Choice} {f : Fin n}

/-- The lock of the frame changes as the task. -/
structure LocksAlike (w : World n τ) (t : τ) (w' : World n τ) (f : Fin n) : Prop where
  writer : (w'.bpm.frames f).writer = true → (w'.tasks t).holds = some (f, .write) ∨
    (w.bpm.frames f).writer = true ∧ (w.tasks t).holds ≠ some (f, .write)
  readers : (w'.bpm.frames f).readers + (decide ((w.tasks t).holds = some (f, .read))).toNat =
    (w.bpm.frames f).readers + (decide ((w'.tasks t).holds = some (f, .read))).toNat

omit [DecidableEq τ] in
theorem locks_same {pc pc' : Pc n} (hpc : w.tasks t = pc) (hpc' : w'.tasks t = pc')
    (hlock : (w'.bpm.frames f).writer = (w.bpm.frames f).writer ∧
      (w'.bpm.frames f).readers = (w.bpm.frames f).readers) (hholds : pc'.holds = pc.holds) :
    LocksAlike w t w' f := by
  constructor
  · rw [hpc, hpc', hholds, hlock.1]
    intro hw
    by_cases hf : pc.holds = some (f, .write)
    · exact .inl hf
    · exact .inr ⟨hw, hf⟩
  · rw [hpc, hpc', hholds, hlock.2]

omit [DecidableEq τ] in
theorem locks_frame {pc pc' : Pc n} {g : Fin n} {change : Frame → Frame} (hpc : w.tasks t = pc)
    (hpc' : w'.tasks t = pc') (hframes : w'.bpm.frames = (w.bpm.modifyFrame g change).frames)
    (hchange : ∀ fr, (change fr).writer = fr.writer ∧ (change fr).readers = fr.readers)
    (hholds : pc'.holds = pc.holds) : LocksAlike w t w' f := by
  refine locks_same hpc hpc' ?_ hholds
  rw [hframes]
  by_cases hg : f = g
  · rw [hg, modifyFrame_self]
    exact hchange _
  · rw [modifyFrame_of_ne hg]
    exact ⟨rfl, rfl⟩

omit [DecidableEq τ] in
theorem locks_lock {pc pc' : Pc n} {g : Fin n} {mode : Mode} {change : Frame → Frame} (hpc : w.tasks t = pc)
    (hpc' : w'.tasks t = pc') (hframes : w'.bpm.frames = (w.bpm.modifyFrame g change).frames)
    (hchange : ∀ fr, (change fr).writer = (withGuard fr mode).writer ∧
      (change fr).readers = (withGuard fr mode).readers)
    (hholds : pc.holds = none) (hholds' : pc'.holds = some (g, mode)) : LocksAlike w t w' f := by
  by_cases hg : f = g
  · subst hg
    obtain ⟨hw, hr⟩ := hchange (w.bpm.frames f)
    constructor
    · rw [hpc, hpc', hholds, hholds', hframes, modifyFrame_self, hw]
      cases mode with
      | read => exact fun hw => .inr ⟨hw, nofun⟩
      | write => exact fun _ => .inl rfl
    · rw [hpc, hpc', hholds, hholds', hframes, modifyFrame_self, hr]
      cases mode with
      | read => rw [decide_eq_true rfl, decide_eq_false nofun]; rfl
      | write => rw [decide_eq_false nofun, decide_eq_false nofun]; rfl
  · constructor
    · rw [hpc, hholds, hframes, modifyFrame_of_ne hg]
      exact fun hw => .inr ⟨hw, nofun⟩
    · rw [hpc, hpc', hholds, hholds', hframes, modifyFrame_of_ne hg, decide_eq_false nofun, decide_eq_false]
      exact fun heq => hg (congrArg Prod.fst (Option.some.inj heq)).symm

omit [DecidableEq τ] in
theorem locks_unlock {pc pc' : Pc n} {g : Fin n} {mode : Mode} (hpc : w.tasks t = pc)
    (hpc' : w'.tasks t = pc')
    (hframes : w'.bpm.frames = (w.bpm.modifyFrame g fun fr => withoutGuard fr mode).frames)
    (hpos : mode = .read → 0 < (w.bpm.frames g).readers)
    (hholds : pc.holds = some (g, mode)) (hholds' : pc'.holds = none) : LocksAlike w t w' f := by
  by_cases hg : f = g
  · subst hg
    cases mode with
    | read =>
      constructor
      · rw [hpc, hholds, hframes, modifyFrame_self]
        exact fun hw => .inr ⟨hw, nofun⟩
      · rw [hpc, hpc', hholds, hholds', hframes, modifyFrame_self, decide_eq_true rfl, decide_eq_false nofun]
        exact Nat.sub_add_cancel (hpos rfl)
    | write =>
      constructor
      · rw [hframes, modifyFrame_self]
        exact nofun
      · rw [hpc, hpc', hholds, hholds', hframes, modifyFrame_self, decide_eq_false nofun,
          decide_eq_false nofun]
        rfl
  · have hne : ∀ m, some (g, mode) ≠ some (f, m) :=
      fun m heq => hg (congrArg Prod.fst (Option.some.inj heq)).symm
    constructor
    · rw [hpc, hholds, hframes, modifyFrame_of_ne hg]
      exact fun hw => .inr ⟨hw, hne _⟩
    · rw [hpc, hpc', hholds, hholds', hframes, modifyFrame_of_ne hg, decide_eq_false (hne _),
        decide_eq_false nofun]

/-- **Every move changes the lock of a frame as the task.** -/
theorem Move.locks (hm : Move w t c w')
    (hpos : ∀ g, (w.tasks t).holds = some (g, .read) → 0 < (w.bpm.frames g).readers) (f : Fin n) :
    LocksAlike w t w' f := by
  cases hm with
  | callFetch hpc | callCreate hpc | allocate hpc | zero hpc | zeroFault hpc | takeVictim hpc | evictCreate hpc
  | subscribeFetch hpc | noFetch hpc | recvFetch hpc | closedFetch hpc | subscribeFlush hpc | noFlush hpc
  | recvFlush hpc | closedFlush hpc | issueRead hpc | read hpc | readFault hpc | write hpc | writeFault hpc
  | createWrite hpc | createFault hpc | remove hpc | addFail hpc | add hpc | panicLookup hpc | panicEnter hpc
  | panicWaitFetch hpc | panicWaitFlush hpc | panicCreateFinish hpc | panicLock hpc =>
    exact locks_same hpc (goto_task ..) ⟨rfl, rfl⟩ rfl
  | hit hpc | miss hpc | enter hpc => exact locks_same hpc (enter_task ..) ⟨rfl, rfl⟩ rfl
  | panic hpc => exact locks_same hpc (poison_task ..) ⟨rfl, rfl⟩ rfl
  | full hpc | releaseHit hpc | releaseMiss hpc => exact locks_same hpc (leave_task ..) ⟨rfl, rfl⟩ rfl
  | @takeFree r g rest hpc =>
    refine locks_same hpc (goto_task ..) ⟨rfl, rfl⟩ ?_
    cases r <;> rfl
  | @evict p mode g v hpc =>
    refine locks_same hpc (goto_task ..) ?_ rfl
    cases image (w.bpm.frames g) v <;> exact ⟨rfl, rfl⟩
  | store hpc | markDirty hpc => exact locks_frame hpc (goto_task ..) rfl (fun _ => ⟨rfl, rfl⟩) rfl
  | @register p mode g img hpc =>
    have hframes : (w.bpm.beginFetch p g).frames =
      (w.bpm.modifyFrame g fun fr => { fr with pageId := some p, isDirty := false }).frames := rfl
    exact locks_frame hpc (goto_task ..) hframes (fun _ => ⟨rfl, rfl⟩) rfl
  | @pin site g hpc =>
    refine locks_frame hpc (goto_task ..) rfl (fun _ => ⟨rfl, rfl⟩) ?_
    split_ifs <;> rfl
  | unpin hpc | drop hpc =>
    refine locks_frame hpc (goto_task ..) rfl (fun _ => ⟨rfl, rfl⟩) ?_
    split_ifs <;> rfl
  | @releaseCreate p g evicted b hpc hb =>
    obtain ⟨b₁, hb₁, rfl⟩ := registerCreated_ret hb
    have hframes : (b₁.modifyFrame g fun fr => { fr with pageId := some p }).frames =
        (w.bpm.modifyFrame g fun fr => { fr with pageId := some p }).frames := by
      rcases hb₁ with rfl | ⟨v, bytes, -, rfl⟩ <;> rfl
    refine locks_frame hpc (leave_task ..) hframes (fun _ => ⟨rfl, rfl⟩) ?_
    rcases evicted.join with - | ⟨v, bytes⟩ <;> rfl
  | @finishFetch l hpc =>
    refine locks_same hpc (goto_task ..) ?_ ?_
    · rw [finishFetch_eq]
      exact ⟨rfl, rfl⟩
    · rcases l.pageDataToFlush with - | ⟨v, bytes⟩ <;> rfl
  | finishFlush hpc | createFinish hpc =>
    refine locks_same hpc (goto_task ..) ?_ rfl
    rw [finishFlush_eq]
    exact ⟨rfl, rfl⟩
  | @lock p mode g b hpc hb =>
    obtain rfl := lockData_ret hb
    exact locks_lock hpc (goto_task ..) rfl (fun _ => ⟨rfl, rfl⟩) rfl rfl
  | copy hpc =>
    refine locks_lock hpc (goto_task ..) rfl ?_ rfl rfl
    exact fun _ => ⟨rfl, rfl⟩
  | finish hpc | fail hpc | panicFinishFetch hpc | panicFinishFlush hpc =>
    refine locks_unlock hpc (goto_task ..) ?_ ?_ rfl rfl
    · rfl
    · exact nofun
  | @unlock g mode hpc =>
    refine locks_unlock hpc (goto_task ..) (congrArg frames (unlockData_eq w.bpm g mode)) ?_ rfl rfl
    rintro rfl
    exact hpos g (by rw [hpc]; rfl)

end Locks

section Invariant

variable [DecidableEq τ] [Fintype τ] {w w' : World n τ} {t : τ} {c : Choice} {f : Fin n}

/-- The locks of the frames are those of the tasks. -/
structure LockInv (w : World n τ) : Prop where
  writer : ∀ f, (w.bpm.frames f).writer = true → ∃ t, (w.tasks t).holds = some (f, .write)
  readers : ∀ f, (w.bpm.frames f).readers =
    (Finset.univ.filter fun t => decide ((w.tasks t).holds = some (f, .read)) = true).card

omit [DecidableEq τ] in
theorem LockInv.readers_pos (h : LockInv w) (ht : (w.tasks t).holds = some (f, .read)) :
    0 < (w.bpm.frames f).readers := by
  rw [h.readers]
  exact Finset.card_pos.mpr ⟨t, Finset.mem_filter.mpr ⟨Finset.mem_univ t, decide_eq_true ht⟩⟩

omit [DecidableEq τ] in
theorem LockInv.held (h : LockInv w) (hf : ¬ (w.bpm.frames f).canWrite) : ∃ t mode, (w.tasks t).holds = some (f, mode) := by
  by_cases hw : (w.bpm.frames f).writer = true
  · obtain ⟨t, ht⟩ := h.writer f hw
    exact ⟨t, .write, ht⟩
  · have hpos : 0 < (w.bpm.frames f).readers :=
      Nat.pos_of_ne_zero fun hr => hf ⟨Bool.eq_false_iff.mpr hw, hr⟩
    rw [h.readers] at hpos
    obtain ⟨t, ht⟩ := Finset.card_pos.mp hpos
    exact ⟨t, .read, of_decide_eq_true (Finset.mem_filter.mp ht).2⟩

/-- **Every move keeps the locks.** -/
theorem Move.lockInv (hm : Move w t c w') (h : LockInv w) : LockInv w' := by
  have hlocks := hm.locks fun g => h.readers_pos
  constructor
  · intro f hf
    rcases (hlocks f).writer hf with ht | ⟨hw, ht⟩
    · exact ⟨t, ht⟩
    · obtain ⟨u, hu⟩ := h.writer f hw
      have hut : u ≠ t := by
        rintro rfl
        exact ht hu
      exact ⟨u, by rw [hm.tasks_of_ne hut, hu]⟩
  · intro f
    have hcard := PinProtocol.card_update w.tasks t (w'.tasks t) fun pc => decide (pc.holds = some (f, .read))
    rw [← hm.tasks, ← h.readers f] at hcard
    have hf := (hlocks f).readers
    omega

theorem lockInv_init (n : ℕ) (τ : Type) [DecidableEq τ] [Fintype τ] (d : Disk) : LockInv (World.init n τ d) where
  writer _ hf := by cases hf
  readers _ := (Finset.card_eq_zero.mpr (Finset.filter_false_of_mem fun _ _ => nofun)).symm

/-! ## Frames that were evicted clean -/

/-- A frame that `create_page` has evicted without a page to flush is not dirty. -/
def EvictedClean (w : World n τ) : Prop :=
  ∀ u f, (w.tasks u).evictedFor = some (f, none) → (w.bpm.frames f).isDirty = false

omit [DecidableEq τ] in
theorem CacheInv.evicted_unmapped {img : Option (PageId × Page)} (hw : CacheInv w)
    (hf : (w.tasks t).evictedFor = some (f, img)) (p : PageId) : w.bpm.pageTable p ≠ some f := by
  refine hw.table.claimed t f ?_ p
  change (w.tasks t).tableRole.claimed = some f
  cases hpc : w.tasks t <;> rw [hpc] at hf
  case pin site g | remove site g | release site g =>
    rcases site with _ | _ | ⟨q, _ | img'⟩ <;> cases hf
    rfl
  all_goals cases hf

omit [DecidableEq τ] in
theorem CacheInv.victim_page (hw : CacheInv w) {r : Request} (hpc : w.tasks t = .evict r f) :
    ∃ v, (w.bpm.frames f).pageId = some v := by
  obtain ⟨v, hv⟩ := hw.table.victim t f (congrArg (fun pc => pc.tableRole.victim) hpc)
  exact ⟨v, hw.table.table v f hv⟩

omit [DecidableEq τ] [Fintype τ] in
/-- The section of `create_page` ends, if the frame is as dirty as it was evicted. -/
theorem registerCreated_ok {b : BufferPoolManager n} {p : PageId} {evicted : Option (Option (PageId × Page))}
    (h : evicted = some none → (b.frames f).isDirty = false) : ∃ b', b.registerCreated p f evicted = .ret b' := by
  rcases evicted with _ | _ | x
  · exact ⟨_, rfl⟩
  · unfold registerCreated announceFlush
    dsimp only
    rw [h rfl]
    exact ⟨_, rfl⟩
  · unfold registerCreated announceFlush
    dsimp only
    split_ifs
    · exact ⟨_, rfl⟩
    · exact ⟨_, rfl⟩

theorem Move.evictedClean (hm : Move w t c w') (hw : CacheInv w) (hclean : EvictedClean w) :
    EvictedClean w' := by
  have hkeep : ∀ u f, (w.tasks u).evictedFor = some (f, none) → (w'.bpm.frames f).isDirty = false := by
    intro u f hf
    rw [hm.isDirty_eq (fun p mode g img hpc => ?_) (fun _ p hpc => ?_)]
    · exact hclean u f hf
    · have hin : (w.tasks u).pinRole.inSection = true := by
        cases hu : w.tasks u <;> rw [hu] at hf
        case pin site g | remove site g | release site g => cases site <;> rfl
        all_goals cases hf
      have hut : u = t := by
        by_contra hut
        cases hin.symm.trans (hw.sole (by rw [hpc]; rfl) hut)
      rw [hut, hpc] at hf
      cases hf
    · have hrole : w.cacheRoles t = .ready p f none := congrArg Pc.cacheRole hpc
      exact hw.evicted_unmapped hf p (hw.cache.loaded hrole).1
  intro u f hf
  by_cases hu : u = t
  · subst hu
    rcases hm.evictedFor hf with hold | ⟨⟨p, hpc⟩, hdirty⟩
    · exact hkeep u f hold
    · rw [hm.isDirty_eq (by rw [hpc]; exact nofun) (by rw [hpc]; exact nofun)]
      exact hdirty.symm
  · rw [hm.tasks_of_ne hu] at hf
    exact hkeep u f hf

/-! ## What a task waits for -/

/-- What a task without a step waits for. -/
inductive Stuck (w : World n τ) (t : τ) : Prop
  /-- The page table is locked. -/
  | pageTable {u} (ht : (w.tasks t).locks = true) (hu : w.pageTableLock = some u)
  /-- The message of a channel. -/
  | channel {sub} (ht : (w.tasks t).awaits = some sub) (hsent : w.bpm.sent sub = false)
  /-- The bytes of a frame are locked: by a guard that it waits for, or for its load or eviction. -/
  | lock {p mode f u mode'} (ht : w.tasks t = .lock p mode f) (hu : (w.tasks u).holds = some (f, mode'))
      (hmode : mode = .write ∨ mode' = .write)
  | copy {l bytes u mode} (ht : w.tasks t = .copy l bytes) (hu : (w.tasks u).holds = some (l.frame, mode))
  | evict {r f u} (ht : w.tasks t = .evict r f) (hu : (w.tasks u).holds = some (f, .write))

omit [DecidableEq τ] [Fintype τ] in
theorem exists_locker (h : ¬ w.pageTableLock.isNone = true) : ∃ u, w.pageTableLock = some u :=
  Option.ne_none_iff_exists'.mp fun hnone => h (Option.isNone_iff_eq_none.mpr hnone)

theorem act_evict (hw : CacheInv w) {r : Request} (hpc : w.tasks t = .evict r f)
    (hwriter : (w.bpm.frames f).writer = false) : w.act t .go ≠ none := by
  obtain ⟨v, hv⟩ := hw.victim_page hpc
  have hread : (w.bpm.frames f).isDirty = true → (w.bpm.frames f).canRead := fun _ => hwriter
  unfold act
  rw [hpc]
  cases r with
  | fetch p mode =>
    have hannounce := announceFlush_eq
      { w.bpm with pageTable := Function.update w.bpm.pageTable v none } f v
    dsimp only [Choice.onGo]
    rw [detachPage_eq hv hread]
    dsimp only [Exec.toOption, Option.bind_eq_bind, Option.bind_some]
    rw [hannounce]
    exact nofun
  | create p =>
    dsimp only [Choice.onGo]
    rw [detachPage_eq hv hread]
    exact nofun

/-- **A pending task without a step** waits for a lock or a message, if it does not panic. -/
theorem stuck_of_blocked (hw : CacheInv w) (hlocks : LockInv w) (hclean : EvictedClean w) (hrun : ¬ w.Panics t)
    (hpending : (w.tasks t).pending = true) (h : w.step t .go = none) : Stuck w t := by
  rw [step_eq_act hrun] at h
  unfold act at h
  cases hpc : w.tasks t <;> rw [hpc] at h <;> dsimp only [Choice.onGo, Choice.onDisk] at h
  case idle | guard =>
    rw [hpc] at hpending
    cases hpending
  case lookup p mode =>
    split_ifs at h with hlock
    · split at h <;> cases h
    · obtain ⟨u, hu⟩ := exists_locker hlock
      exact .pageTable (by rw [hpc]; rfl) hu
  case enter p =>
    split_ifs at h with hlock
    obtain ⟨u, hu⟩ := exists_locker hlock
    exact .pageTable (by rw [hpc]; rfl) hu
  case take r =>
    cases hfree : w.bpm.freeFrames with
    | cons f rest =>
      rw [hfree] at h
      cases h
    | nil =>
      rw [hfree] at h
      rcases hvictim : w.bpm.evictor.victim with ⟨_ | f, evictor⟩ <;> rw [hvictim] at h <;> cases r <;> cases h
  case evict r f =>
    by_cases hwriter : (w.bpm.frames f).writer = true
    · obtain ⟨u, hu⟩ := hlocks.writer f hwriter
      exact .evict hpc hu
    · have hact := act_evict hw hpc (Bool.eq_false_iff.mpr hwriter)
      unfold act at hact
      rw [hpc] at hact
      exact absurd h hact
  case release site f =>
    cases site with
    | hit | miss => cases h
    | create p evicted =>
      have hdirty : evicted = some none → (w.bpm.frames f).isDirty = false := by
        rintro rfl
        exact hclean t f (by rw [hpc]; rfl)
      obtain ⟨b, hb⟩ := registerCreated_ok (p := p) hdirty
      dsimp only [Choice.onGo] at h
      rw [hb] at h
      cases h
  case recvFetch p mode f sub =>
    split_ifs at h with hsent
    · exact .channel (by rw [hpc]; rfl) (Bool.eq_false_iff.mpr hsent)
  case recvFlush l sub =>
    split_ifs at h with hsent
    · exact .channel (by rw [hpc]; rfl) (Bool.eq_false_iff.mpr hsent)
  case unpin f e =>
    have hpos : 0 < (w.bpm.frames f).pinCount :=
      (PinProtocol.one_le_pinners (s := w.pinState) (t := t) (by
        change (w.tasks t).pinRole.pins f = true
        rw [hpc]
        exact decide_eq_true rfl)).trans (hw.pins.pins.pinners f)
    unfold decrementPinCount at h
    rw [if_pos hpos] at h
    cases h
  case copy l bytes =>
    by_cases hwrite : (w.bpm.frames l.frame).canWrite
    · unfold loadFrame at h
      rw [if_pos hwrite] at h
      cases h
    · obtain ⟨u, mode, hu⟩ := hlocks.held hwrite
      exact .copy hpc hu
  case lock p mode f =>
    by_cases hwriter : (w.bpm.frames f).writer = true
    · obtain ⟨u, hu⟩ := hlocks.writer f hwriter
      exact .lock hpc hu (.inr rfl)
    · by_cases hblocked : mode = .write ∧ ¬ (w.bpm.frames f).canWrite
      · obtain ⟨u, mode', hu⟩ := hlocks.held hblocked.2
        exact .lock hpc hu (.inl hblocked.1)
      · rw [not_and, not_not] at hblocked
        rw [lockData_eq (fun _ => Bool.eq_false_iff.mpr hwriter) hblocked] at h
        cases h
  case waitFetch | waitFlush => split at h <;> cases h
  all_goals cases h

/-- Some pending task has a step, which is not the panic of a creation that finds no frame. -/
def Advances (w : World n τ) : Prop :=
  ∃ u, (w.tasks u).pending = true ∧ ¬ w.NoFrame u ∧ (w.step u .go).isSome = true

theorem advances_of_holds {mode : Mode} (hrun : w.poisoned = false) (hu : (w.tasks t).holds = some (f, mode)) :
    (∃ p, w.tasks t = .guard p mode f) ∨ Advances w := by
  have hact := step_eq_act (c := .go) (not_panics hrun t)
  have hgo : ∀ pc, w.tasks t = pc → pc.pending = true → pc.takesNew = false → (w.act t .go).isSome = true →
      Advances w := by
    rintro pc rfl hpending htakes hstep
    exact ⟨t, hpending, fun h => Bool.false_ne_true (htakes.symm.trans h.1), by rw [hact, hstep]⟩
  cases hpc : w.tasks t <;> rw [hpc] at hu
  case guard p m g =>
    cases hu
    exact .inl ⟨p, rfl⟩
  case finishFetch | writing | finishFlush | finish | unlock =>
    refine .inr (hgo _ hpc rfl rfl ?_)
    unfold act
    rw [hpc]
    rfl
  case add g next =>
    refine .inr (hgo _ hpc rfl rfl ?_)
    unfold act
    rw [hpc]
    rfl
  all_goals cases hu

omit [DecidableEq τ] in
theorem CacheInv.copy_unguarded (hw : CacheInv w) {l : Load n} {bytes : Page} {u : τ} {p : PageId} {mode : Mode}
    (ht : w.tasks t = .copy l bytes) : w.tasks u ≠ .guard p mode l.frame := by
  intro hu
  have hmapped := hw.loading_mapped (congrArg Pc.cacheRole ht)
  have hrole : w.cacheRoles u = .ready p l.frame none := congrArg Pc.cacheRole hu
  obtain ⟨hp, hload⟩ := hw.cache.loaded hrole
  obtain rfl := hw.page_unique hmapped hp
  refine hload t l.tx ?_
  change (w.tasks t).cacheRole.load = _
  rw [ht]
  rfl

omit [DecidableEq τ] in
theorem CacheInv.victim_unguarded (hw : CacheInv w) {r : Request} {u : τ} {p : PageId} {mode : Mode}
    (ht : w.tasks t = .evict r f) : w.tasks u ≠ .guard p mode f := by
  intro hu
  refine hw.victim_unused ht u p ?_
  rw [hu]
  rfl

/-- **Who holds the page table lock** goes on, or waits for a task that goes on, or is about to panic. -/
theorem advances_of_section (hw : CacheInv w) (hlocks : LockInv w) (hclean : EvictedClean w)
    (hrun : w.poisoned = false) (hlock : w.pageTableLock = some t) : NoFrame w t ∨ Advances w := by
  have hin : (w.tasks t).pinRole.inSection = true := (hw.pins.pins.locked t).mpr hlock
  have hpending := pending_of_inSection hin
  cases hstep : w.step t .go with
  | some w' =>
    by_cases hframe : NoFrame w t
    · exact .inl hframe
    · exact .inr ⟨t, hpending, hframe, by rw [hstep]; rfl⟩
  | none =>
    cases stuck_of_blocked hw hlocks hclean (not_panics hrun t) hpending hstep with
    | pageTable ht hu =>
      cases hin.symm.trans (outside_of_locks ht)
    | channel ht hsent =>
      rcases awaits_eq_some ht with ⟨p, mode, f, hpc⟩ | ⟨l, hpc⟩ <;>
      · rw [hpc] at hin
        cases hin
    | lock ht | copy ht =>
      rw [ht] at hin
      cases hin
    | evict ht hu =>
      rcases advances_of_holds hrun hu with ⟨p, hguard⟩ | hadv
      · exact absurd hguard (hw.victim_unguarded ht)
      · exact .inr hadv

end Invariant

end World

end RarmDb
