import RarmDb.Lib.TableProtocol
import RarmDb.Pool.Locks
import RarmDb.Tasks.Moves

/-!
# The page table of the tasks

* `tableRole`, `tableState`: the pool and its tasks as a table of cached pages under a lock;
* **`Move.table`**: every move is a step of that protocol, if a new page is not in the table;
* **`consistent_of_reached`**: while the page table lock is free, the page table, the frames and the
  free frames are consistent;
* `early_fetch_leaves_frame`: a page that is fetched before `create_page` registers it gets two frames.
-/

namespace RarmDb

open BufferPoolManager TableProtocol

variable {n : ℕ} {τ : Type}

/-! ## The protocol of the table -/

/-- The page that the section looks for. -/
def Request.want : Request → Option PageId
  | .fetch p _ => some p
  | .create _ => none

/-- The role of a section from where it pins its frame on. -/
def PinSite.tableRole (f : Fin n) : PinSite → Role PageId (Fin n)
  | .hit .. | .miss .. => .settled f
  | .create .. => .claiming f none

/-- What a task does with the table. -/
def Pc.tableRole : Pc n → Role PageId (Fin n)
  | .idle _ | .lookup .. | .allocate _ | .zero _ | .enter _ => .away
  | .take r => .searching r.want
  | .evict r f => .unmapping f r.want
  | .register p _ f _ => .claiming f (some p)
  | .pin site f | .remove site f | .release site f => site.tableRole f
  | .waitFetch _ _ f | .recvFetch _ _ f _ | .unpin f _ | .createFlush _ f _ _ | .createFinish _ f _
  | .lock _ _ f | .guard _ _ f | .add f _ | .unlock f _ => .holding f
  | .waitFlush l | .recvFlush l _ | .issueRead l | .reading l | .copy l _ | .finishFetch l | .writing l ..
  | .finishFlush l .. | .finish l _ => .holding l.frame

/-- The new page that the task is about to register. -/
def Pc.registers : Pc n → Option PageId
  | .release (.create p _) _ => some p
  | _ => none

theorem registers_eq_some {pc : Pc n} {p : PageId} :
    pc.registers = some p ↔ ∃ evicted f, pc = .release (.create p evicted) f := by
  constructor
  · intro hp
    unfold Pc.registers at hp
    split at hp
    · cases hp
      exact ⟨_, _, rfl⟩
    · cases hp
  · rintro ⟨evicted, f, rfl⟩
    rfl

namespace World

/-- The pool and its tasks as a table under a lock. -/
def tableState (w : World n τ) : State PageId (Fin n) τ where
  lock := w.pageTableLock
  table := w.bpm.pageTable
  holds f := (w.bpm.frames f).pageId
  free := w.bpm.freeFrames
  eligible := w.bpm.evictor.Mem
  role t := (w.tasks t).tableRole

variable [DecidableEq τ] {w w' : World n τ} {t : τ} {c : Choice} {b : BufferPoolManager n} {pc : Pc n}
  {f : Fin n} {mode : Mode}

theorem role_goto (w : World n τ) (t : τ) (pc : Pc n) :
    (fun u => (Function.update w.tasks t pc u).tableRole) =
      Function.update (fun u => (w.tasks u).tableRole) t pc.tableRole := by
  funext u
  by_cases hu : u = t
  · rw [hu, Function.update_self, Function.update_self]
  · rw [Function.update_of_ne hu, Function.update_of_ne hu]

theorem tableState_goto (w : World n τ) (t : τ) (b : BufferPoolManager n) (pc : Pc n) :
    (w.goto t b pc).tableState = ⟨w.pageTableLock, b.pageTable, fun f => (b.frames f).pageId,
      b.freeFrames, b.evictor.Mem, Function.update w.tableState.role t pc.tableRole⟩ := by
  unfold tableState
  dsimp only
  rw [← role_goto]
  rfl

theorem tableState_leave (w : World n τ) (t : τ) (b : BufferPoolManager n) (pc : Pc n) :
    (w.leave t b pc).tableState = ⟨none, b.pageTable, fun f => (b.frames f).pageId,
      b.freeFrames, b.evictor.Mem, Function.update w.tableState.role t pc.tableRole⟩ := by
  unfold tableState
  dsimp only
  rw [← role_goto]
  rfl

theorem tableState_poison (w : World n τ) (t : τ) (b : BufferPoolManager n) (pc : Pc n) :
    (w.poison t b pc).tableState = ⟨none, b.pageTable, fun f => (b.frames f).pageId,
      b.freeFrames, b.evictor.Mem, Function.update w.tableState.role t pc.tableRole⟩ := tableState_leave w t b pc

theorem tableState_enter (w : World n τ) (t : τ) (pc : Pc n) :
    (w.enter t pc).tableState = { w.tableState.become t pc.tableRole with lock := some t } := by
  unfold State.become tableState
  dsimp only
  rw [← role_goto]
  rfl

omit [DecidableEq τ] in
theorem holds_modifyFrame {change : Frame → Frame} {p : PageId}
    (h : (change (b.frames f)).pageId = some p) :
    (fun g => ((b.modifyFrame f change).frames g).pageId) =
      Function.update (fun g => (b.frames g).pageId) f (some p) := by
  funext g
  by_cases hg : g = f
  · rw [hg, modifyFrame_self, Function.update_self, h]
  · rw [modifyFrame_of_ne hg, Function.update_of_ne hg]

theorem quiet_goto (htable : b.pageTable = w.bpm.pageTable)
    (hid : ∀ f, (b.frames f).pageId = (w.bpm.frames f).pageId) (hfree : b.freeFrames = w.bpm.freeFrames)
    (heligible : ∀ f, b.evictor.Mem f → w.bpm.evictor.Mem f ∨ (w.tasks t).tableRole.frame = some f)
    (hr : pc.tableRole = (w.tasks t).tableRole ∨
      pc.tableRole = .away ∧ (w.tasks t).tableRole.inSection = false) :
    Step t w.tableState (w.goto t b pc).tableState := by
  rw [tableState_goto]
  simp only [htable, hid, hfree]
  exact .quiet _ _ heligible hr

theorem quiet_same (hr : pc.tableRole = (w.tasks t).tableRole ∨
    pc.tableRole = .away ∧ (w.tasks t).tableRole.inSection = false) :
    Step t w.tableState (w.goto t w.bpm pc).tableState :=
  quiet_goto rfl (fun _ => rfl) rfl (fun _ => .inl) hr

theorem quiet_frame {change : Frame → Frame} (hchange : ∀ fr, (change fr).pageId = fr.pageId)
    (hr : pc.tableRole = (w.tasks t).tableRole ∨
      pc.tableRole = .away ∧ (w.tasks t).tableRole.inSection = false) :
    Step t w.tableState (w.goto t (w.bpm.modifyFrame f change) pc).tableState :=
  quiet_goto rfl (modifyFrame_pageId hchange) rfl (fun _ => .inl) hr

omit [DecidableEq τ] in
theorem lockData_ret (h : w.bpm.lockData f mode = .ret b) :
    b = w.bpm.modifyFrame f fun fr => withGuard fr mode := by
  unfold lockData at h
  cases mode <;>
  · dsimp only at h
    split_ifs at h
    exact (Exec.ret.inj h).symm

theorem registerCreated_ret {b' : BufferPoolManager n} {p : PageId}
    {evicted : Option (Option (PageId × Page))} (h : b.registerCreated p f evicted = .ret b') :
    ∃ b₁, (b₁ = b ∨ ∃ v bytes, evicted = some (some (v, bytes)) ∧ b₁ = b.insertFlush v) ∧
      b' = { b₁.modifyFrame f (fun fr => { fr with pageId := some p }) with
        pageTable := Function.update b.pageTable p (some f) } := by
  unfold registerCreated at h
  obtain ⟨b₁, hb₁, h⟩ := Exec.bind_eq_ret.mp h
  have hannounce : b₁ = b ∨ ∃ v bytes, evicted = some (some (v, bytes)) ∧ b₁ = b.insertFlush v := by
    cases evicted with
    | none => exact .inl (Exec.ret.inj hb₁).symm
    | some pageData =>
      dsimp only at hb₁
      unfold announceFlush at hb₁
      split_ifs at hb₁ with hdirty
      · obtain ⟨⟨v, bytes⟩, hdata, hb₁⟩ := Exec.bind_eq_ret.mp hb₁
        cases hb₁
        cases pageData with
        | none => cases hdata
        | some x =>
          cases hdata
          exact .inr ⟨v, bytes, rfl, rfl⟩
      · exact .inl (Exec.ret.inj hb₁).symm
  cases h
  refine ⟨b₁, hannounce, ?_⟩
  rcases hannounce with rfl | ⟨v, bytes, -, rfl⟩ <;> rfl

/-- A new page is not in the page table when `create_page` registers it. -/
def Unregistered (w : World n τ) (t : τ) : Prop :=
  ∀ p ∈ (w.tasks t).registers, w.bpm.pageTable p = none

instance (w : World n τ) (t : τ) : Decidable (Unregistered w t) :=
  inferInstanceAs (Decidable (∀ p ∈ (w.tasks t).registers, _))

/-- **Every move is a step of the table.** -/
theorem Move.table (hm : Move w t c w') (hok : Unregistered w t) :
    Step t w.tableState w'.tableState := by
  have hstay : ∀ {pc pc' : Pc n}, w.tasks t = pc → pc'.tableRole = pc.tableRole →
      pc'.tableRole = (w.tasks t).tableRole ∨ pc'.tableRole = .away ∧
        (w.tasks t).tableRole.inSection = false := fun hpc hr => .inl (by rw [hpc]; exact hr)
  have hgone : ∀ {pc pc' : Pc n}, w.tasks t = pc → pc'.tableRole = .away →
      pc.tableRole.inSection = false → pc'.tableRole = (w.tasks t).tableRole ∨
        pc'.tableRole = .away ∧ (w.tasks t).tableRole.inSection = false :=
    fun hpc hr hout => .inr ⟨hr, by rw [hpc]; exact hout⟩
  have hrole : w.tableState.role t = (w.tasks t).tableRole := rfl
  cases hm with
  | callFetch hpc | callCreate hpc | zeroFault hpc | subscribeFetch hpc | noFetch hpc | recvFetch hpc
  | closedFetch hpc | subscribeFlush hpc | noFlush hpc | recvFlush hpc | issueRead hpc | read hpc
  | writeFault hpc => exact quiet_same (hstay hpc rfl)
  | closedFlush hpc | readFault hpc | createFault hpc | panicLookup hpc | panicEnter hpc | panicWaitFetch hpc
  | panicWaitFlush hpc | panicCreateFinish hpc | panicLock hpc => exact quiet_same (hgone hpc rfl rfl)
  | allocate hpc | zero hpc | write hpc | createWrite hpc =>
    exact quiet_goto rfl (fun _ => rfl) rfl (fun _ => .inl) (hstay hpc rfl)
  | copy hpc | finish hpc | store hpc | markDirty hpc =>
    refine quiet_frame ?_ (hstay hpc rfl)
    exact fun _ => rfl
  | fail hpc | panicFinishFetch hpc | panicFinishFlush hpc =>
    refine quiet_frame ?_ (hgone hpc rfl rfl)
    exact fun _ => rfl
  | lock hpc hb =>
    rw [lockData_ret hb]
    refine quiet_frame (fun fr => ?_) (hstay hpc rfl)
    cases ‹Mode› <;> rfl
  | unlock hpc =>
    rw [unlockData_eq]
    refine quiet_frame (fun fr => ?_) (hgone hpc rfl rfl)
    cases ‹Mode› <;> rfl
  | finishFetch hpc =>
    rw [finishFetch_eq]
    refine quiet_goto rfl (fun _ => rfl) rfl (fun _ => .inl) (hstay hpc ?_)
    split <;> rfl
  | finishFlush hpc | createFinish hpc =>
    rw [finishFlush_eq]
    exact quiet_goto rfl (fun _ => rfl) rfl (fun _ => .inl) (hstay hpc rfl)
  | pin hpc =>
    refine quiet_frame (fun _ => rfl) (hstay hpc ?_)
    split_ifs <;> rfl
  | @remove site f hpc =>
    refine quiet_goto rfl (fun _ => rfl) rfl (fun g hg => .inl ?_) (hstay hpc rfl)
    exact (ClockEvictor.mem_remove.mp hg).2
  | addFail hpc =>
    refine quiet_goto rfl (fun _ => rfl) rfl (fun g hg => ?_) (hgone hpc rfl rfl)
    rw [hpc]
    exact (ClockEvictor.mem_add.mp hg).symm.imp_right fun hgf => congrArg some hgf.symm
  | add hpc =>
    refine quiet_goto rfl (fun _ => rfl) rfl (fun g hg => ?_) (hstay hpc rfl)
    rw [hpc]
    exact (ClockEvictor.mem_add.mp hg).symm.imp_right fun hgf => congrArg some hgf.symm
  | unpin hpc hpin =>
    split_ifs
    · exact quiet_frame (fun _ => rfl) (hstay hpc rfl)
    · exact quiet_frame (fun _ => rfl) (hgone hpc rfl rfl)
  | drop hpc hpin =>
    refine quiet_frame (fun _ => rfl) (hstay hpc ?_)
    split_ifs <;> rfl
  | @hit p mode f hpc hlock hp =>
    rw [tableState_enter]
    exact .hit hlock (by rw [hrole, hpc]; rfl) p f hp
  | @miss p mode hpc hlock hp =>
    rw [tableState_enter]
    refine .search hlock (by rw [hrole, hpc]; rfl) (some p) fun q hq => ?_
    cases hq
    exact hp
  | enter hpc hlock =>
    rw [tableState_enter]
    exact .search hlock (by rw [hrole, hpc]; rfl) none nofun
  | @takeFree r f rest hpc hfree =>
    have hclaim : (taken r f).tableRole = .claiming f r.want := by cases r <;> rfl
    rw [tableState_goto, hclaim]
    exact .takeFree r.want (by rw [hrole, hpc]; rfl) f rest hfree
  | @takeVictim r f evictor hpc hfree hvictim =>
    obtain ⟨hmem, hrest⟩ := ClockEvictor.victim_some hvictim
    rw [tableState_goto]
    exact .takeVictim r.want (by rw [hrole, hpc]; rfl) f hmem _ fun g hg => ((hrest g).mp hg).2
  | @full p mode evictor hpc hfree hvictim =>
    rw [tableState_leave]
    exact .giveUp (some p) (by rw [hrole, hpc]; rfl) _ fun g hg => (ClockEvictor.victim_none hvictim g).mp hg
  | panic hpc hfree hvictim =>
    rw [tableState_poison]
    exact .giveUp none (by rw [hrole, hpc]; rfl) _ fun g hg => (ClockEvictor.victim_none hvictim g).mp hg
  | @evict p mode f v hpc hv hread =>
    rw [tableState_goto]
    have hstep := Step.unmap (some p) f (s := w.tableState) (t := t) (by rw [hrole, hpc]; rfl) v hv
    cases himg : image (w.bpm.frames f) v <;> exact hstep
  | @evictCreate p f v hpc hv hread =>
    rw [tableState_goto]
    exact .unmap none f (by rw [hrole, hpc]; rfl) v hv
  | @register p mode f img hpc =>
    rw [tableState_goto]
    unfold beginFetch
    rw [holds_modifyFrame rfl]
    exact .map p f (by rw [hrole, hpc]; rfl)
  | @releaseHit p mode f hpc =>
    rw [tableState_leave]
    exact .leave f (by rw [hrole, hpc]; rfl)
  | @releaseMiss p mode f img hpc =>
    rw [tableState_leave]
    exact .leave f (by rw [hrole, hpc]; rfl)
  | @releaseCreate p f evicted b hpc hb =>
    obtain ⟨b₁, hb₁, rfl⟩ := registerCreated_ret hb
    have hstep := Step.mapNew f (s := w.tableState) (t := t) (by rw [hrole, hpc]; rfl) p
      (hok p (by rw [hpc]; rfl))
    rw [tableState_leave]
    dsimp only
    rw [holds_modifyFrame rfl]
    rcases hb₁ with rfl | ⟨v, bytes, -, rfl⟩ <;> rcases evicted with - | - | ⟨v, bytes⟩ <;> exact hstep

/-! ## Runs -/

variable [Fintype τ] {d : Disk} {h : History n} {ok : World n τ → τ → Choice → Prop}

theorem tableInv_init (n : ℕ) (τ : Type) (d : Disk) : Inv (World.init n τ d).tableState where
  locked t := iff_of_false nofun nofun
  outside t _ := ⟨rfl, rfl, rfl⟩
  table p f hp := by cases hp
  nodup := List.nodup_reverse.mpr (List.nodup_finRange n)
  free f _ := ⟨rfl, ClockEvictor.not_mem_new f, fun t => ⟨nofun, nofun⟩⟩
  placed f := .inl (List.mem_reverse.mpr (List.mem_finRange f))
  claimed t f hf := by cases hf
  victim t f hf := by cases hf
  want t p hp := by cases hp

theorem tableInv_of_reached (hr : Reached d ok w h) (hok : ∀ w t c, ok w t c → Unregistered w t) :
    Inv w.tableState :=
  hr.inv (I := fun w _ => Inv w.tableState) (tableInv_init n τ d)
    fun w _ _ t _ ht hs hw => hw.step ((move_of_step hs).table (hok w t _ ht))

/-- **The page table, the frames and the free frames are consistent** in every state in which the page
table is not locked, if a new page is not in the page table when it is registered. -/
theorem consistent_of_reached (hr : Reached d (fun w t _ => Unregistered w t) w h)
    (hlock : w.pageTableLock = none) :
    WellPlaced w.bpm.pageTable (fun f => (w.bpm.frames f).pageId) w.bpm.freeFrames :=
  (tableInv_of_reached hr fun _ _ _ => id).consistent hlock

/-- **Otherwise they are not:** a page that is registered while it is in the page table leaves the frame
that it had. -/
theorem inconsistent_of_registered (hr : Reached d (fun w t _ => Unregistered w t) w h)
    (hs : w.step t c = some w') (hbad : ¬ Unregistered w t) :
    w'.pageTableLock = none ∧
      ¬ WellPlaced w'.bpm.pageTable (fun f => (w'.bpm.frames f).pageId) w'.bpm.freeFrames := by
  have hinv := tableInv_of_reached hr fun _ _ _ => id
  unfold Unregistered at hbad
  push Not at hbad
  obtain ⟨p, hp, hmapped⟩ := hbad
  obtain ⟨g, hg⟩ := Option.ne_none_iff_exists'.mp hmapped
  obtain ⟨evicted, f, hpc⟩ := registers_eq_some.mp hp
  rw [step_eq_act (not_panics_of_unwraps hpc rfl)] at hs
  unfold act at hs
  rw [hpc] at hs
  obtain ⟨rfl, hs⟩ := onGo_eq_some.mp hs
  obtain ⟨b, hb, hs⟩ := Option.bind_eq_some_iff.mp hs
  obtain ⟨b₁, hb₁, rfl⟩ := registerCreated_ret (Exec.toOption_eq_some.mp hb)
  obtain ⟨hframes, hfree⟩ : b₁.frames = w.bpm.frames ∧ b₁.freeFrames = w.bpm.freeFrames := by
    rcases hb₁ with rfl | ⟨v, bytes, -, rfl⟩ <;> exact ⟨rfl, rfl⟩
  have hclaim : (w.tableState.role t).claimed = some f := by
    change (w.tasks t).tableRole.claimed = _
    rw [hpc]
    rfl
  have hgf : g ≠ f := by
    rintro rfl
    exact hinv.claimed t g hclaim p hg
  have hholds : (w.bpm.frames g).pageId = some p := hinv.table p g hg
  cases hs
  refine ⟨rfl, fun hc => ?_⟩
  have hid : ((b₁.modifyFrame f fun fr => { fr with pageId := some p }).frames g).pageId = some p := by
    rw [modifyFrame_of_ne hgf, hframes, hholds]
  rcases hc.placed g with hmem | ⟨q, hq⟩
  · have hmem : g ∈ w.bpm.freeFrames := hfree ▸ hmem
    cases hholds.symm.trans (hinv.free g hmem).1
  · obtain rfl : q = p := Option.some.inj ((hc.page q g hq).symm.trans hid)
    exact hgf (Option.some.inj (hq.symm.trans (Function.update_self ..)))

/-- Two tasks create a page at once. -/
def createSteps : List (Fin 2 × Choice) :=
  [(0, .createPage 1), (1, .createPage 1), (0, .go), (1, .go), (1, .go), (0, .go), (0, .go), (0, .go),
    (0, .go), (0, .go), (0, .go), (1, .go), (1, .go), (1, .go), (1, .go), (1, .go)]

theorem consistent_of_creations : ∃ (w : World 2 (Fin 2)) (h : History 2),
    Reached emptyTable (fun w t _ => Unregistered w t) w h ∧ w.pageTableLock = none ∧
      w.bpm.freeFrames = [] ∧
        WellPlaced w.bpm.pageTable (fun f => (w.bpm.frames f).pageId) w.bpm.freeFrames := by
  have hrun := reached_runSteps .init
    (rfl : runSteps (fun w t _ => Unregistered w t) (World.init 2 (Fin 2) emptyTable, History.init 2)
      createSteps = some _)
  exact ⟨_, _, hrun, rfl, rfl, consistent_of_reached hrun rfl⟩

/-- The second task fetches the page that the first has allocated and not yet registered. -/
def earlyFetchSteps : List (Fin 2 × Choice) :=
  [(0, .createPage 1), (0, .go), (0, .go), (1, .fetchPage ⟨1, 0⟩ .read), (1, .go), (1, .go), (1, .go),
    (1, .go), (1, .go), (1, .go), (0, .go), (0, .go), (0, .go), (0, .go), (0, .go)]

/-- The frame of the fetch holds the page, is not free, and is in no entry of the page table. -/
theorem early_fetch_leaves_frame : ∃ (w : World 2 (Fin 2)) (h : History 2),
    Reached emptyTable (fun _ _ _ => True) w h ∧ w.pageTableLock = none ∧
      ¬ WellPlaced w.bpm.pageTable (fun f => (w.bpm.frames f).pageId) w.bpm.freeFrames := by
  have hrun := reached_runSteps .init
    (rfl : runSteps (fun _ _ _ => True) (World.init 2 (Fin 2) emptyTable, History.init 2)
      earlyFetchSteps = some _)
  refine ⟨_, _, hrun, rfl, fun hc => ?_⟩
  rcases hc.placed 1 with hfree | ⟨p, hp⟩
  · cases hfree
  · obtain rfl : (⟨1, 0⟩ : PageId) = p := Option.some.inj (hc.page p 1 hp)
    exact absurd (Option.some.inj hp) (by decide)

end World

end RarmDb
