import RarmDb.Tasks.Pins

/-!
# The pin counts of the tasks

* `guards`, `pinnedBy`: the guards on a frame, and the calls that have pinned it;
* **`Move.count`**: every move changes the count of a frame as it changes these, if it gives up no pin;
* **`pinsExact_of_reached`**: the pin counts are exact, if no fetch finds the channel of its flush closed and
  every creation finds a frame;
* `closed_flush_leaves_pin`: such a fetch leaves its pin.
-/

namespace RarmDb

open BufferPoolManager

variable {n : ℕ} {τ : Type}

/-! ## Pins -/

/-- The frame that the task has a guard on. -/
def Pc.guardOn : Pc n → Option (Fin n)
  | .guard _ _ f => some f
  | _ => none

/-- The frame that the call has pinned, and for which it has not returned its guard. -/
def Pc.pinnedBy : Pc n → Option (Fin n)
  | .remove _ f | .release _ f | .waitFetch _ _ f | .recvFetch _ _ f _ | .unpin f _ | .createFlush _ f _ _
  | .createFinish _ f _ | .lock _ _ f => some f
  | .waitFlush l | .recvFlush l _ | .issueRead l | .reading l | .copy l _ | .finishFetch l | .writing l ..
  | .finishFlush l .. | .finish l _ => some l.frame
  | _ => none

/-- The page that the task waits for in `wait_for_page_flush`, with its channel. -/
def Pc.flushWait : Pc n → Option (PageId × Channel)
  | .recvFlush l sub => some (l.page, sub)
  | _ => none

/-- The task returns an error after its write. -/
def Pc.failing : Pc n → Bool
  | .finishFlush _ _ (some _) | .finish _ (some _) => true
  | _ => false

theorem pins_eq (pc : Pc n) (f : Fin n) :
    pc.pinRole.pins f = (decide (pc.guardOn = some f) || decide (pc.pinnedBy = some f)) := by
  cases pc with
  | pin site g => cases site <;> rfl
  | _ => simp [Pc.pinRole, PinProtocol.Role.pins, Pc.guardOn, Pc.pinnedBy]

theorem not_both {pc : Pc n} {f : Fin n} (h : pc.guardOn = some f) : pc.pinnedBy ≠ some f := by
  cases pc with
  | guard p mode g => exact nofun
  | _ => cases h

namespace World

section Counts

variable [DecidableEq τ] {w w' : World n τ} {t : τ} {c : Choice} {f : Fin n}

/-- A fetch does not find the channel of its flush closed without a message. -/
def FlushOpen (w : World n τ) (t : τ) : Prop :=
  ∀ x ∈ (w.tasks t).flushWait, w.bpm.sent x.2 = true ∨ w.bpm.flushes x.1 = some x.2

instance (w : World n τ) (t : τ) : Decidable (FlushOpen w t) :=
  inferInstanceAs (Decidable (∀ x ∈ (w.tasks t).flushWait, _ ∨ _))

/-- Only `allocate_page` fails. -/
def OnlyZeroFails (w : World n τ) (t : τ) (c : Choice) : Prop :=
  c.isFault = true → (w.tasks t).zeroes.isSome = true

instance (w : World n τ) (t : τ) (c : Choice) : Decidable (OnlyZeroFails w t c) :=
  inferInstanceAs (Decidable (_ → _))

omit [DecidableEq τ] in
theorem OnlyZeroFails.of_succeeds (hc : c.isFault = false) : OnlyZeroFails w t c :=
  fun hfault => by cases hc.symm.trans hfault

/-- The count of the frame changes as the pin of the task. -/
def CountsAlike (w : World n τ) (t : τ) (w' : World n τ) (f : Fin n) : Prop :=
  (w'.bpm.frames f).pinCount + ((w.tasks t).pinRole.pins f).toNat =
    (w.bpm.frames f).pinCount + ((w'.tasks t).pinRole.pins f).toNat

omit [DecidableEq τ] in
theorem count_same {pc pc' : Pc n} (hpc : w.tasks t = pc) (hpc' : w'.tasks t = pc')
    (hcount : (w'.bpm.frames f).pinCount = (w.bpm.frames f).pinCount)
    (hpins : pc'.pinRole.pins f = pc.pinRole.pins f) : CountsAlike w t w' f := by
  unfold CountsAlike
  rw [hpc, hpc', hcount, hpins]

omit [DecidableEq τ] in
theorem count_frame {pc pc' : Pc n} {g : Fin n} {change : Frame → Frame} (hpc : w.tasks t = pc)
    (hpc' : w'.tasks t = pc') (hframes : w'.bpm.frames = (w.bpm.modifyFrame g change).frames)
    (hchange : ∀ fr, (change fr).pinCount = fr.pinCount) (hpins : pc'.pinRole.pins f = pc.pinRole.pins f) :
    CountsAlike w t w' f := by
  refine count_same hpc hpc' ?_ hpins
  rw [hframes]
  exact (SamePins.modifyFrame hchange).pinCount f

omit [DecidableEq τ] in
theorem count_pin {pc pc' : Pc n} {g : Fin n} (hpc : w.tasks t = pc) (hpc' : w'.tasks t = pc')
    (hcount : w'.bpm = (w.bpm.incrementPinCount g).2) (hpins : pc.pinRole.pins f = false)
    (hpins' : pc'.pinRole.pins f = decide (g = f)) : CountsAlike w t w' f := by
  unfold CountsAlike
  rw [hpc, hpc', hcount, hpins, hpins']
  unfold incrementPinCount
  dsimp only
  by_cases hg : f = g
  · rw [hg, modifyFrame_self, decide_eq_true rfl]
    rfl
  · rw [modifyFrame_of_ne hg, decide_eq_false (Ne.symm hg)]

omit [DecidableEq τ] in
theorem count_unpin {pc pc' : Pc n} {g : Fin n} (hpc : w.tasks t = pc) (hpc' : w'.tasks t = pc')
    (hcount : w'.bpm = w.bpm.modifyFrame g fun fr => { fr with pinCount := fr.pinCount - 1 })
    (hpos : (w.bpm.frames g).pinCount > 0) (hpins : pc.pinRole.pins f = decide (g = f))
    (hpins' : pc'.pinRole.pins f = false) : CountsAlike w t w' f := by
  unfold CountsAlike
  rw [hpc, hpc', hcount, hpins, hpins']
  by_cases hg : f = g
  · rw [hg, modifyFrame_self, decide_eq_true rfl]
    exact Nat.sub_add_cancel hpos
  · rw [modifyFrame_of_ne hg, decide_eq_false (Ne.symm hg)]

/-- **Every move changes the count of a frame as the pin of the task**, if it gives up no pin. -/
theorem Move.count (hm : Move w t c w') (hrun : w.poisoned = false) (hfault : OnlyZeroFails w t c)
    (hopen : FlushOpen w t) (hfailing : (w.tasks t).failing = false) (f : Fin n) : CountsAlike w t w' f := by
  cases hm with
  | callFetch hpc | callCreate hpc | allocate hpc | zero hpc | zeroFault hpc | takeVictim hpc | evictCreate hpc
  | subscribeFetch hpc | noFetch hpc | recvFetch hpc | closedFetch hpc | subscribeFlush hpc | noFlush hpc
  | recvFlush hpc | issueRead hpc | read hpc | write hpc | createWrite hpc | remove hpc | addFail hpc | add hpc =>
    exact count_same hpc (goto_task ..) rfl rfl
  | hit hpc | miss hpc | enter hpc => exact count_same hpc (enter_task ..) rfl rfl
  | panic hpc => exact count_same hpc (poison_task ..) rfl rfl
  | full hpc | releaseHit hpc | releaseMiss hpc => exact count_same hpc (leave_task ..) rfl rfl
  | @takeFree r g rest hpc =>
    refine count_same hpc (goto_task ..) rfl ?_
    cases r <;> rfl
  | @evict p mode g v hpc =>
    refine count_same hpc (goto_task ..) ?_ rfl
    cases image (w.bpm.frames g) v <;> rfl
  | copy hpc | finish hpc | store hpc | markDirty hpc =>
    exact count_frame hpc (goto_task ..) rfl (fun _ => rfl) rfl
  | @register p mode g img hpc =>
    have hsame : SamePins { w.bpm with pageTable := Function.update w.bpm.pageTable p (some g) }
        (w.bpm.beginFetch p g) := .modifyFrame fun _ => rfl
    exact count_same hpc (goto_task ..) (hsame.pinCount f) rfl
  | @lock p mode g b hpc hb =>
    obtain rfl := lockData_ret hb
    refine count_frame hpc (goto_task ..) rfl (fun fr => ?_) rfl
    cases mode <;> rfl
  | @unlock g mode hpc =>
    refine count_frame hpc (goto_task ..) (congrArg frames (unlockData_eq w.bpm g mode)) (fun fr => ?_) rfl
    cases mode <;> rfl
  | @finishFetch l hpc =>
    refine count_same hpc (goto_task ..) ?_ ?_
    · rw [finishFetch_eq]
      rfl
    · rcases l.pageDataToFlush with - | ⟨v, bytes⟩ <;> rfl
  | finishFlush hpc | createFinish hpc =>
    refine count_same hpc (goto_task ..) ?_ rfl
    rw [finishFlush_eq]
    rfl
  | @releaseCreate p g evicted b hpc hb =>
    refine count_same hpc (leave_task ..) ((samePins_registerCreated hb).pinCount f) ?_
    rcases evicted.join with - | ⟨v, bytes⟩ <;> rfl
  | @pin site g hpc =>
    refine count_pin hpc (goto_task ..) rfl ?_ ?_
    · cases site <;> rfl
    · split_ifs <;> rfl
  | unpin hpc hpos | drop hpc hpos =>
    refine count_unpin hpc (goto_task ..) rfl hpos rfl ?_
    split_ifs <;> rfl
  | closedFlush hpc hsent hclosed =>
    rcases hopen _ (by rw [hpc]; rfl) with hs | ho
    · cases hsent.symm.trans hs
    · exact absurd ho hclosed
  | readFault hpc | writeFault hpc | createFault hpc =>
    have hzero := hfault rfl
    rw [hpc] at hzero
    cases hzero
  | fail hpc =>
    rw [hpc] at hfailing
    cases hfailing
  | panicLookup _ hpoison | panicEnter _ hpoison | panicWaitFetch _ hpoison | panicWaitFlush _ hpoison
  | panicFinishFetch _ hpoison | panicFinishFlush _ hpoison | panicCreateFinish _ hpoison | panicLock _ hpoison =>
    cases hrun.symm.trans hpoison

theorem Move.failing (hm : Move w t c w') (hfault : OnlyZeroFails w t c)
    (h : ∀ u, (w.tasks u).failing = false) (u : τ) : (w'.tasks u).failing = false := by
  by_cases hu : u = t
  · subst hu
    have hself := h u
    cases hm with
    | hit | miss | enter => rw [enter_task]; rfl
    | panic => rw [poison_task]; rfl
    | full | releaseHit | releaseMiss => rw [leave_task]; rfl
    | @takeFree r f rest hpc hfree =>
      rw [goto_task]
      cases r <;> rfl
    | pin | unpin | drop =>
      rw [goto_task]
      split_ifs <;> rfl
    | @finishFetch l hpc =>
      rw [goto_task]
      rcases l.pageDataToFlush with - | ⟨v, bytes⟩ <;> rfl
    | @releaseCreate p f evicted b hpc hb =>
      rw [leave_task]
      rcases evicted.join with - | ⟨v, bytes⟩ <;> rfl
    | writeFault hpc =>
      have hzero := hfault rfl
      rw [hpc] at hzero
      cases hzero
    | @finishFlush l v error hpc =>
      rw [hpc] at hself
      cases error with
      | none => rw [goto_task]; rfl
      | some e => cases hself
    | _ => rw [goto_task]; rfl
  · rw [hm.tasks_of_ne hu]
    exact h u

end Counts

/-! ## Runs -/

section Runs

variable [DecidableEq τ] [Fintype τ] {w w' : World n τ} {t : τ} {c : Choice} {d : Disk} {h : History n}

/-- The pin counts are exact: a count is the number of the guards on its frame and of the calls that have
pinned it and not returned. A count that is decremented is not zero, and a frame without guards and calls is not
pinned. No call has panicked. -/
structure PinsExact (w : World n τ) : Prop where
  calls : ∀ t, ¬ w.Panics t
  count : ∀ f, (w.bpm.frames f).pinCount =
    (Finset.univ.filter fun t => (w.tasks t).guardOn = some f).card +
      (Finset.univ.filter fun t => (w.tasks t).pinnedBy = some f).card
  positive : ∀ t f, (w.tasks t).guardOn = some f ∨ (∃ e, w.tasks t = .unpin f e) →
    0 < (w.bpm.frames f).pinCount
  unpinned : ∀ f, (∀ t, (w.tasks t).guardOn ≠ some f ∧ (w.tasks t).pinnedBy ≠ some f) →
    (w.bpm.frames f).pinCount = 0

omit [DecidableEq τ] in
theorem pinners_eq (w : World n τ) (f : Fin n) :
    w.pinState.pinners f = (Finset.univ.filter fun t => (w.tasks t).guardOn = some f).card +
      (Finset.univ.filter fun t => (w.tasks t).pinnedBy = some f).card := by
  classical
  unfold PinProtocol.State.pinners
  rw [← Finset.card_union_of_disjoint, ← Finset.filter_or]
  · refine congrArg Finset.card (Finset.filter_congr fun t _ => ?_)
    change (w.tasks t).pinRole.pins f = true ↔ _
    rw [pins_eq, Bool.or_eq_true, decide_eq_true_iff, decide_eq_true_iff]
  · rw [Finset.disjoint_filter]
    exact fun t _ ht => not_both ht

omit [DecidableEq τ] in
theorem PinsExact.of_pinners (hrun : w.poisoned = false)
    (hpins : ∀ f, (w.bpm.frames f).pinCount = w.pinState.pinners f) : PinsExact w := by
  have hcount : ∀ f, (w.bpm.frames f).pinCount =
      (Finset.univ.filter fun t => (w.tasks t).guardOn = some f).card +
        (Finset.univ.filter fun t => (w.tasks t).pinnedBy = some f).card :=
    fun f => (hpins f).trans (pinners_eq w f)
  refine ⟨not_panics hrun, hcount, fun t f ht => ?_, fun f hf => ?_⟩
  · rw [hpins f]
    refine PinProtocol.one_le_pinners (t := t) ?_
    change (w.tasks t).pinRole.pins f = true
    rw [pins_eq, Bool.or_eq_true, decide_eq_true_iff, decide_eq_true_iff]
    refine ht.imp_right ?_
    rintro ⟨e, he⟩
    rw [he]
    rfl
  · rw [hcount f, Finset.filter_false_of_mem fun t _ => (hf t).1, Finset.filter_false_of_mem fun t _ => (hf t).2]
    rfl

theorem Move.pinners (hm : Move w t c w') (hcount : ∀ f, CountsAlike w t w' f)
    (hpins : ∀ f, (w.bpm.frames f).pinCount = w.pinState.pinners f) (f : Fin n) :
    (w'.bpm.frames f).pinCount = w'.pinState.pinners f := by
  have hcard := PinProtocol.card_update w.tasks t (w'.tasks t) fun pc => pc.pinRole.pins f
  rw [← hm.tasks] at hcard
  have hbalance : w'.pinState.pinners f + ((w.tasks t).pinRole.pins f).toNat =
      w.pinState.pinners f + ((w'.tasks t).pinRole.pins f).toNat := hcard
  have hf := hcount f
  have hp := hpins f
  unfold CountsAlike at hf
  omega

/-- No mutex is poisoned, the counts are those of the pinners, and no task returns an error after its write. -/
structure CountInv (w : World n τ) : Prop where
  running : w.poisoned = false
  pinners : ∀ f, (w.bpm.frames f).pinCount = w.pinState.pinners f
  failing : ∀ u, (w.tasks u).failing = false

theorem countInv_init (n : ℕ) (τ : Type) [DecidableEq τ] [Fintype τ] (d : Disk) : CountInv (World.init n τ d) where
  running := rfl
  pinners _ := (Finset.card_eq_zero.mpr (Finset.filter_false_of_mem fun _ _ => Bool.false_ne_true)).symm
  failing _ := rfl

theorem Move.countInv (hm : Move w t c w') (hfault : OnlyZeroFails w t c) (hopen : FlushOpen w t)
    (hframe : ¬ w.NoFrame t) (hw : CountInv w) : CountInv w' where
  running := hm.running hframe hw.running
  pinners := hm.pinners (hm.count hw.running hfault hopen (hw.failing t)) hw.pinners
  failing := hm.failing hfault hw.failing

/-- A table file with four pages of zeros. -/
def fourPages : Disk := Disk.ofFiles (fun _ => Buffer.const 8192 0) fun _ => 4

/-- The first task modifies two pages and drops their guards, and evicts one of them. The second task fetches that
page: it waits for the flush, receives its message and loads the page. -/
def receivedFlushSteps : List (Fin 2 × Choice) :=
  goingOn [(0, .fetchPage ⟨1, 0⟩ .write, 13), (0, .markDirty, 0), (0, .drop, 2), (0, .fetchPage ⟨1, 1⟩ .write, 13),
    (0, .markDirty, 0), (0, .drop, 2), (0, .fetchPage ⟨1, 2⟩ .read, 7), (1, .fetchPage ⟨1, 1⟩ .read, 8), (0, .go, 8),
    (1, .go, 8)]

/-- The first task allocates a page. The second fetches it, modifies it and drops its guard; the fourth evicts
it, and the fifth fetches it again and waits for the flush. The first registers it, modifies it and drops its
guard, and the second evicts it once more: this replaces the channel that the fifth waits for. -/
def replacedChannelSteps : List (Fin 5 × Choice) :=
  [(0, .createPage 1), (0, .go), (0, .go), (1, .fetchPage ⟨1, 4⟩ .write), (1, .go), (1, .go), (1, .go),
    (1, .go), (1, .go), (1, .go), (1, .go), (1, .go), (1, .go), (1, .go), (1, .go), (1, .go), (1, .go),
    (1, .markDirty), (1, .drop), (1, .go), (1, .go), (1, .fetchPage ⟨1, 0⟩ .read), (1, .go), (1, .go),
    (1, .go), (1, .go), (1, .go), (1, .go), (1, .go), (1, .go), (1, .go), (1, .go), (1, .go), (1, .go),
    (1, .go), (2, .fetchPage ⟨1, 1⟩ .read), (2, .go), (2, .go), (2, .go), (2, .go), (2, .go), (2, .go),
    (2, .go), (2, .go), (2, .go), (2, .go), (2, .go), (2, .go), (2, .go), (3, .fetchPage ⟨1, 2⟩ .read),
    (3, .go), (3, .go), (3, .go), (3, .go), (3, .go), (3, .go), (3, .go), (1, .drop), (1, .go), (1, .go),
    (4, .fetchPage ⟨1, 4⟩ .read), (4, .go), (4, .go), (4, .go), (4, .go), (4, .go), (4, .go), (4, .go),
    (4, .go), (2, .drop), (2, .go), (2, .go), (0, .go), (0, .go), (0, .go), (0, .go), (0, .go), (0, .go),
    (0, .go), (0, .markDirty), (0, .drop), (0, .go), (0, .go), (1, .fetchPage ⟨1, 3⟩ .read), (1, .go),
    (1, .go), (1, .go), (1, .go), (1, .go), (1, .go), (1, .go), (4, .go)]

end Runs

end World

end RarmDb
