import RarmDb.Pool.Locks
import RarmDb.Pool.Outcome

/-!
# Runs with disk errors

Calls that run one after the other, with guards that live on, while any disk operation may fail.

* `PoolCall`, `PoolRun`: the calls that returned, and the last state;
* `Assigned`: the frame was taken and given to a page; **`fetchAndPinFrame_returns`**,
  **`createAndPinFrame_cases`**: what a call does to the frames, if it returns;
* `Sane`: the invariant of every run; **`PoolRun.sane`**.
-/

namespace RarmDb

open BufferPoolManager

variable {n : ℕ}

/-! ## Runs -/

/-- A call that returned: the world before it, the errors of its disk operations, and its outcome. -/
structure PoolCall (n : ℕ) where
  w : PoolWorld n
  io : Faults
  op : PoolOp
  out : PoolOut
  w' : PoolWorld n

/-- A run: its calls, and the last state. -/
inductive PoolRun (w₀ : PoolWorld n) : List (PoolCall n) → PoolWorld n → Prop
  | nil : PoolRun w₀ [] w₀
  | snoc {calls : List (PoolCall n)} {w w' : PoolWorld n} {io : Faults} {op : PoolOp} {out : PoolOut}
      (run : PoolRun w₀ calls w) (step : w.run io op = .ret (out, w')) :
      PoolRun w₀ (calls ++ [⟨w, io, op, out, w'⟩]) w'

namespace BufferPoolManager

variable {b b₁ b' b'' : BufferPoolManager n} {f g : Fin n} {p q v : PageId} {io : Faults}

/-! ## What a call does to the frames -/

/-- The frame `f` was taken and given to the page `p`, with one pin. -/
structure Assigned (b b' : BufferPoolManager n) (f : Fin n) (p : PageId) : Prop where
  unpinned : (b.frames f).pinCount = 0
  pageId : (b'.frames f).pageId = some p
  pinCount : (b'.frames f).pinCount = 1
  frames : ∀ g, g ≠ f → b'.frames g = b.frames g
  table : ∀ q, b'.pageTable q =
    if q = p then some f else if (b.frames f).pageId = some q then none else b.pageTable q
  free : ∀ g, g ∈ b'.freeFrames ↔ g ≠ f ∧ g ∈ b.freeFrames
  freeNodup : b'.freeFrames.Nodup
  evictor : ∀ g, b'.evictor.Mem g ↔ g ≠ f ∧ b.evictor.Mem g
  stored : ∀ q, b.diskManager.stored q = true → b'.diskManager.stored q = true

theorem Assigned.congr (h : Assigned b b' f p)
    (hself : (b''.frames f).pageId = (b'.frames f).pageId ∧
      (b''.frames f).pinCount = (b'.frames f).pinCount)
    (hframes : ∀ g, g ≠ f → b''.frames g = b'.frames g) (htable : b''.pageTable = b'.pageTable)
    (hfree : b''.freeFrames = b'.freeFrames) (hevictor : b''.evictor = b'.evictor)
    (hstored : ∀ q, b'.diskManager.stored q = true → b''.diskManager.stored q = true) :
    Assigned b b'' f p where
  unpinned := h.unpinned
  pageId := hself.1.trans h.pageId
  pinCount := hself.2.trans h.pinCount
  frames g hg := (hframes g hg).trans (h.frames g hg)
  table := htable ▸ h.table
  free := hfree ▸ h.free
  freeNodup := hfree ▸ h.freeNodup
  evictor := hevictor ▸ h.evictor
  stored q hq := hstored q (h.stored q hq)

theorem stored_written (img : Option (PageId × Page)) {d : Disk} (h : d.stored q = true) :
    (img.elim d fun x => d.setPage x.1 x.2).stored q = true := by
  rcases img with - | ⟨v, old⟩
  · exact h
  · change Function.update d.stored v true q = true
    by_cases hq : q = v
    · rw [hq, Function.update_self]
    · rw [Function.update_of_ne hq, h]

theorem Obtained.assigned (h : Obtained b f b₁) {frame : Frame}
    (hframes : b'.frames = Function.update b.frames f frame) (hpage : frame.pageId = some p)
    (hpin : frame.pinCount = 1) (htable : b'.pageTable = Function.update b₁.pageTable p (some f))
    (hfree : b'.freeFrames = b₁.freeFrames) (hevictor : ∀ g, b'.evictor.Mem g ↔ g ≠ f ∧ b.evictor.Mem g)
    (hdisk : b'.diskManager = b₁.diskManager) : Assigned b b' f p := by
  constructor
  case unpinned => exact h.pinCount
  case pageId => rw [hframes, Function.update_self, hpage]
  case pinCount => rw [hframes, Function.update_self, hpin]
  case frames =>
    intro g hg
    rw [hframes, Function.update_of_ne hg]
  case table =>
    intro q
    rw [htable, Function.update_apply, h.table]
  case free => exact hfree ▸ h.free
  case freeNodup => exact hfree ▸ h.freeNodup
  case evictor => exact hevictor
  case stored =>
    intro q hq
    rw [hdisk, h.diskManager, hq]

theorem Obtained.fetching (h : Obtained b f b₁) (img : Option (PageId × Page)) (p : PageId) :
    Assigned b (fetching b₁ img p f) f p := by
  refine h.assigned (fetching_frames h.frames h.pinCount img p) rfl rfl ?_ ?_
    (fun g => mem_fetching h.evictor ..) ?_
  all_goals rw [fetching_eq]

theorem Obtained.loaded (h : Obtained b f b₁) (img : Option (PageId × Page)) (p : PageId) (bytes : Page)
    {d : Disk} (hd : ∀ q, b.diskManager.stored q = true → d.stored q = true) :
    Assigned b (BufferPoolManager.loaded (BufferPoolManager.fetching b₁ img p f) img p f bytes d) f p := by
  refine (h.fetching img p).congr ?_ ?_ ?_ ?_ ?_ ?_
  · rw [loaded_frames, Function.update_self]
    exact ⟨rfl, rfl⟩
  · intro g hg
    rw [loaded_frames, Function.update_of_ne hg]
  all_goals rw [loaded_eq]
  intro q hq
  refine hd q ?_
  rw [fetching_eq] at hq
  rwa [← h.diskManager]

theorem Obtained.registered (h : Obtained b f b₁) (img : Option (PageId × Page)) (p : PageId) :
    Assigned b (registered b₁ img p f) f p := by
  refine h.assigned (registered_frames h.frames h.pinCount img p) rfl rfl ?_ ?_ ?_ ?_
  all_goals rw [registered_eq]
  exact mem_pinFrame_taken h.evictor

theorem Assigned.of_disk {d : Disk} (h : Assigned { b with diskManager := d } b' f p)
    (hd : ∀ q, b.diskManager.stored q = true → d.stored q = true) : Assigned b b' f p where
  unpinned := h.unpinned
  pageId := h.pageId
  pinCount := h.pinCount
  frames := h.frames
  table := h.table
  free := h.free
  freeNodup := h.freeNodup
  evictor := h.evictor
  stored q hq := h.stored q (hd q hq)

theorem Assigned.flushed (h : Assigned b b' f p) (img : Option (PageId × Page)) :
    Assigned b (flushed b' img) f p := by
  refine h.congr ?_ ?_ ?_ ?_ ?_ ?_
  all_goals rw [flushed_eq]
  · exact ⟨rfl, rfl⟩
  · exact fun _ _ => rfl
  · exact fun q hq => stored_written img hq

theorem Assigned.lock (ha : Assigned b b' f p) (mode : Mode) :
    Assigned b (b'.modifyFrame f fun fr => withGuard fr mode) f p := by
  refine ha.congr ?_ (fun g hg => modifyFrame_of_ne hg _) rfl rfl rfl fun _ hq => hq
  rw [modifyFrame_self]
  cases mode <;> exact ⟨rfl, rfl⟩

/-- Whether a fetch failed or not, the frame was given to the page. -/
theorem Missed.assigned (ho : Obtained b f b₁) {r : Except BufferPoolError (Fin n)}
    (hm : Missed b io p f b₁ (.ret (r, b'))) : Assigned b b' f p := by
  cases hm with
  | unread => exact ho.fetching _ p
  | unwritten => exact ho.loaded _ p _ fun _ hq => hq
  | found =>
    rw [settled_eq_loaded]
    refine ho.loaded _ p _ fun q hq => stored_written _ ?_
    rw [ho.disk_fetching, hq]

/-- Whether a creation failed or not, the frame was given to the page. -/
theorem Created.assigned (ho : Obtained (b.allocated p) f b₁)
    {r : Except BufferPoolError (PageId × Fin n)} (hc : Created b io p f b₁ (.ret (r, b'))) :
    Assigned b b' f p := by
  have hregistered : Assigned b (registered b₁ (b.toFlush f) p f) f p :=
    (ho.registered _ p).of_disk fun q hq => stored_written (some (p, _)) hq
  cases hc with
  | unwritten => exact hregistered
  | created => exact hregistered.flushed _

theorem registered_stored (ho : Obtained (b.allocated p) f b₁) (img : Option (PageId × Page)) :
    (registered b₁ img p f).diskManager.stored p = true := by
  rw [registered_eq]
  dsimp only
  rw [ho.diskManager]
  exact Function.update_self ..

theorem Created.stored (ho : Obtained (b.allocated p) f b₁)
    {r : Except BufferPoolError (PageId × Fin n)} (hc : Created b io p f b₁ (.ret (r, b'))) :
    b'.diskManager.stored p = true := by
  cases hc with
  | unwritten => exact registered_stored ho _
  | created =>
    rw [flushed_eq]
    exact stored_written _ (registered_stored ho _)

/-- **A fetch that returns** found the page, or no frame, or gave the next frame to the page. -/
theorem fetchAndPinFrame_returns (h : Usable b)
    (hlock : ∀ f, (b.frames f).pinCount = 0 → (b.frames f).canWrite)
    {r : Except BufferPoolError (Fin n)} (hrun : b.fetchAndPinFrame io p = .ret (r, b')) :
    (∃ f, b.pageTable p = some f ∧ r = .ok f ∧ b' = b.pinFrame f) ∨
      (b.pageTable p = none ∧ b.nextFrame = none ∧ r = .error .bufferFull ∧ b' = b) ∨
        ∃ f, b.pageTable p = none ∧ b.nextFrame = some f ∧ Assigned b b' f p ∧ (b'.frames f).canWrite ∧
          ∀ g, r = .ok g → g = f := by
  cases hp : b.pageTable p with
  | some f =>
    rcases fetchAndPinFrame_cached io hp with ⟨-, hret⟩ | ⟨-, hret⟩
    · cases hret.symm.trans hrun
    · cases hret.symm.trans hrun
      exact .inl ⟨f, rfl, rfl, rfl⟩
  | none =>
    cases hnext : b.nextFrame with
    | none =>
      cases (fetchAndPinFrame_full io hp hnext).symm.trans hrun
      exact .inr (.inl ⟨rfl, rfl, rfl, rfl⟩)
    | some f =>
      obtain ⟨b₁, ho, -, hmissed⟩ := fetchAndPinFrame_missed h hlock io hp hnext
      have hunlocked := hlock f ho.pinCount
      have hloaded : ∀ bytes d, ((BufferPoolManager.loaded (fetching b₁ (b.toFlush f) p f)
          (b.toFlush f) p f bytes d).frames f).canWrite := by
        intro bytes d
        rw [loaded_frames, Function.update_self, ho.frame_fetching]
        exact ⟨rfl, hunlocked.2⟩
      refine .inr (.inr ⟨f, rfl, rfl, ?_⟩)
      rw [hrun] at hmissed
      refine ⟨hmissed.assigned ho, ?_⟩
      cases hmissed with
      | unread =>
        rw [ho.frame_fetching]
        exact ⟨hunlocked, fun g hg => by cases hg⟩
      | unwritten => exact ⟨hloaded _ _, fun g hg => by cases hg⟩
      | found =>
        rw [settled_eq_loaded]
        exact ⟨hloaded _ _, fun g hg => (Except.ok.inj hg).symm⟩

/-- **A creation** fails to allocate, or panics without a frame, or gives the next frame to the page; it
then returns `Ok` exactly when what has to be flushed can be written. -/
theorem createAndPinFrame_cases (h : Usable b)
    (hlock : ∀ f, (b.frames f).pinCount = 0 → (b.frames f).canWrite) (io : Faults) (tableId : UInt32) :
    (∃ e, io.writeAt (b.diskManager.nextPage tableId) = some e ∧ b.createAndPinFrame io tableId =
        .ret (.error (.pageAllocation e), { b with diskManager := b.diskManager.takeIndex tableId })) ∨
      (io.writeAt (b.diskManager.nextPage tableId) = none ∧ b.nextFrame = none ∧
        b.createAndPinFrame io tableId = .panic) ∨
        ∃ f r b', io.writeAt (b.diskManager.nextPage tableId) = none ∧ b.nextFrame = some f ∧
          b.createAndPinFrame io tableId = .ret (r, b') ∧
          Assigned b b' f (b.diskManager.nextPage tableId) ∧ (b'.frames f).canWrite ∧
          b'.diskManager.stored (b.diskManager.nextPage tableId) = true ∧
          (r = .ok (b.diskManager.nextPage tableId, f) ∨ ∃ e, r = .error e) ∧
          (r = .ok (b.diskManager.nextPage tableId, f) ↔
            ∀ v old, b.toFlush f = some (v, old) → io.writeAt v = none) := by
  generalize hp : b.diskManager.nextPage tableId = p
  cases hw : io.writeAt p with
  | some e =>
    refine .inl ⟨e, rfl, ?_⟩
    unfold createAndPinFrame Disk.allocatePage Disk.writePage
    dsimp only
    rw [hp, hw]
  | none =>
    cases hnext : b.nextFrame with
    | none => exact .inr (.inl ⟨rfl, rfl, createAndPinFrame_full hp hw hnext⟩)
    | some f =>
      obtain ⟨b₁, ho, -, hcreated⟩ := createAndPinFrame_created h hlock hp hw hnext
      have hwrite : ((registered b₁ (b.toFlush f) p f).frames f).canWrite := by
        rw [ho.frame_registered]
        exact hlock f ho.pinCount
      refine .inr (.inr ⟨f, ?_⟩)
      generalize b.createAndPinFrame io tableId = x at hcreated
      cases hcreated with
      | unwritten hv hw' =>
        have hc : Created b io p f b₁ (.ret (.error _, _)) := .unwritten hv hw'
        refine ⟨_, _, rfl, rfl, rfl, hc.assigned ho, hwrite, hc.stored ho, .inr ⟨_, rfl⟩,
          fun hr => (by cases hr), ?_⟩
        exact fun hall => absurd ((hall _ _ hv).symm.trans hw') nofun
      | created hw' =>
        have hc : Created b io p f b₁ (.ret (.ok _, _)) := .created hw'
        refine ⟨_, _, rfl, rfl, rfl, hc.assigned ho, ?_, hc.stored ho, .inl rfl, fun _ => hw',
          fun _ => rfl⟩
        rw [flushed_eq]
        exact hwrite

/-! ## Usable frames -/

theorem Assigned.usable (h : Usable b) (ha : Assigned b b' f p) : Usable b' where
  evictor g hg := by
    obtain ⟨hne, hg⟩ := (ha.evictor g).mp hg
    rw [ha.frames g hne]
    exact h.evictor g hg
  free g hg := by
    obtain ⟨hne, hg⟩ := (ha.free g).mp hg
    rw [ha.frames g hne]
    exact h.free g hg
  freeNodup := ha.freeNodup
  unused g hg := by
    by_cases hne : g = f
    · subst hne
      rw [ha.pageId] at hg
      cases hg
    · rw [ha.frames g hne] at hg ⊢
      exact h.unused g hg
  mapped q g hq := by
    by_cases hne : g = f
    · subst hne
      rw [ha.pageId]
      exact Option.some_ne_none p
    · rw [ha.frames g hne]
      rw [ha.table] at hq
      split_ifs at hq
      · exact absurd (Option.some.inj hq).symm hne
      · exact h.mapped q g hq

theorem Usable.modifyFrame (h : Usable b) {change : Frame → Frame}
    (hchange : (change (b.frames f)).pageId = (b.frames f).pageId ∧
      (change (b.frames f)).pinCount = (b.frames f).pinCount) : Usable (b.modifyFrame f change) := by
  have hframes : ∀ g, ((b.modifyFrame f change).frames g).pageId = (b.frames g).pageId ∧
      ((b.modifyFrame f change).frames g).pinCount = (b.frames g).pinCount := by
    intro g
    by_cases hg : g = f
    · subst hg
      rw [modifyFrame_self]
      exact hchange
    · rw [modifyFrame_of_ne hg]
      exact ⟨rfl, rfl⟩
  constructor
  case evictor =>
    intro g hg
    rw [(hframes g).1, (hframes g).2]
    exact h.evictor g hg
  case free =>
    intro g hg
    rw [(hframes g).1]
    exact h.free g hg
  case freeNodup => exact h.freeNodup
  case unused =>
    intro g hg
    rw [(hframes g).1] at hg
    rw [(hframes g).2, h.unused g hg]
  case mapped =>
    intro q g hq
    rw [(hframes g).1]
    exact h.mapped q g hq

theorem Usable.pinFrame (h : Usable b) (hp : b.pageTable p = some f) : Usable (b.pinFrame f) := by
  have hid := pinFrame_pageId b f
  have hpin : ∀ g, g ≠ f → ((b.pinFrame f).frames g).pinCount = (b.frames g).pinCount := by
    intro g hg
    rw [pinFrame_frames, Function.update_of_ne hg]
  constructor
  case evictor =>
    intro g hg
    obtain ⟨hmem, hg⟩ := mem_pinFrame.mp hg
    obtain ⟨hsome, hzero⟩ := h.evictor g hmem
    have hne : g ≠ f := by
      rintro rfl
      exact hg ⟨rfl, hzero⟩
    rw [hid, hpin g hne]
    exact ⟨hsome, hzero⟩
  case free =>
    intro g hg
    rw [hid]
    rw [pinFrame_eq] at hg
    exact h.free g hg
  case freeNodup =>
    rw [pinFrame_eq]
    exact h.freeNodup
  case unused =>
    intro g hg
    rw [hid] at hg
    have hne : g ≠ f := by
      rintro rfl
      exact h.mapped p g hp hg
    rw [hpin g hne]
    exact h.unused g hg
  case mapped =>
    intro q g hq
    rw [hid]
    rw [pinFrame_eq] at hq
    exact h.mapped q g hq

theorem Usable.unpinned (h : Usable b) (hpin : (b.frames f).pinCount ≠ 0) : Usable (b.unpinned f) := by
  have hid : ∀ g, ((b.unpinned f).frames g).pageId = (b.frames g).pageId := by
    intro g
    rw [unpinned_frames]
    by_cases hg : g = f
    · rw [hg, Function.update_self]
    · rw [Function.update_of_ne hg]
  constructor
  case evictor =>
    intro g hg
    rw [hid, unpinned_frames]
    rcases mem_unpinned.mp hg with hmem | ⟨rfl, hone⟩
    · obtain ⟨hsome, hzero⟩ := h.evictor g hmem
      have hne : g ≠ f := by
        rintro rfl
        exact hpin hzero
      rw [Function.update_of_ne hne]
      exact ⟨hsome, hzero⟩
    · rw [Function.update_self]
      refine ⟨fun hnone => hpin (h.unused g hnone), ?_⟩
      dsimp only
      rw [hone]
  case free =>
    intro g hg
    rw [hid]
    rw [unpinned_eq] at hg
    exact h.free g hg
  case freeNodup =>
    rw [unpinned_eq]
    exact h.freeNodup
  case unused =>
    intro g hg
    rw [hid] at hg
    have hzero := h.unused g hg
    rw [unpinned_frames]
    by_cases hgf : g = f
    · subst hgf
      exact absurd hzero hpin
    · rw [Function.update_of_ne hgf, hzero]
  case mapped =>
    intro q g hq
    rw [hid]
    rw [unpinned_eq] at hq
    exact h.mapped q g hq

end BufferPoolManager

/-! ## The invariant of a run -/

/-- The frames that can be taken are not pinned, and the pins and locks are those of the guards, but for
some pins that failed calls left. -/
structure Sane (w : PoolWorld n) : Prop where
  usable : Usable w.bpm
  locked : ∃ held, Locked w.bpm held w.guards

variable {w w' : PoolWorld n} {io : Faults} {op : PoolOp} {out : PoolOut} {f : Fin n} {p : PageId}
  {mode : Mode} {b : BufferPoolManager n} {guards : List (Guard n)} {held : List (Fin n)}

theorem Sane.canWrite (h : Sane w) : ∀ f, (w.bpm.frames f).pinCount = 0 → (w.bpm.frames f).canWrite := by
  obtain ⟨held, hl⟩ := h.locked
  exact fun f hpin => hl.canWrite hpin

theorem returnGuard_sane (h : Usable w.bpm) (hl : Locked w.bpm (f :: held) w.guards)
    (hrun : w.returnGuard p f mode = .ret (out, w')) :
    Sane w' ∧ w'.bpm = w.bpm.modifyFrame f fun fr => withGuard fr mode := by
  obtain ⟨b', hlock, hrun⟩ := Exec.bind_eq_ret.mp hrun
  cases hrun
  have hread : ⟨f, .write⟩ ∉ w.guards := by
    intro hg
    have hwriter := (hl.writer f).mpr hg
    cases mode <;>
    · unfold lockData at hlock
      dsimp only at hlock
      split_ifs at hlock with hcan
      first | cases hcan.symm.trans hwriter | cases hcan.1.symm.trans hwriter
  have hwrite : mode = .write → ∀ g ∈ w.guards, g.frame ≠ f := by
    rintro rfl g hg rfl
    unfold lockData at hlock
    dsimp only at hlock
    split_ifs at hlock with hcan
    obtain ⟨f, mode⟩ := g
    cases mode with
    | write => exact hread hg
    | read =>
      have hcount := hl.readers f
      rw [hcan.2, eq_comm, List.count_eq_zero] at hcount
      exact hcount hg
  obtain ⟨hlock', hlocked⟩ := hl.cons hwrite hread
  obtain rfl := Exec.ret.inj (hlock'.symm.trans hlock)
  have husable : Usable (w.bpm.modifyFrame f fun fr => withGuard fr mode) :=
    h.modifyFrame (by cases mode <;> exact ⟨rfl, rfl⟩)
  exact ⟨⟨husable, held, hlocked⟩, rfl⟩

theorem Sane.init (n : ℕ) (d : Disk) : Sane (PoolWorld.init n d) where
  usable := {
    evictor := fun f hf => absurd hf (ClockEvictor.not_mem_new f)
    free := fun _ _ => rfl
    freeNodup := List.nodup_reverse.mpr (List.nodup_finRange n)
    unused := fun _ _ => rfl
    mapped := fun _ _ hp => (by cases hp) }
  locked := ⟨[], fun _ => rfl, fun _ => rfl, fun _ => ⟨nofun, nofun⟩, fun _ _ _ _ h => nomatch h⟩

theorem Sane.assigned {b' : BufferPoolManager n} (h : Sane w) (ha : Assigned w.bpm b' f p)
    (hwrite : (b'.frames f).canWrite) :
    Usable b' ∧ ∃ held, Locked b' (f :: held) w.guards := by
  obtain ⟨held, hl⟩ := h.locked
  exact ⟨ha.usable h.usable, held, hl.assigned ha.unpinned ⟨ha.pinCount, hwrite⟩ ha.frames⟩

theorem Sane.modifyFrame (h : Sane w) {change : Frame → Frame}
    (hchange : ∀ fr, (change fr).pageId = fr.pageId ∧ (change fr).pinCount = fr.pinCount ∧
      (change fr).readers = fr.readers ∧ (change fr).writer = fr.writer) :
    Sane { w with bpm := w.bpm.modifyFrame f change } := by
  obtain ⟨held, hl⟩ := h.locked
  have husable : Usable (w.bpm.modifyFrame f change) :=
    h.usable.modifyFrame ⟨(hchange _).1, (hchange _).2.1⟩
  refine ⟨husable, held, hl.congr fun g => ?_⟩
  dsimp only
  by_cases hg : g = f
  · rw [hg, modifyFrame_self]
    exact (hchange _).2
  · rw [modifyFrame_of_ne hg]
    exact ⟨rfl, rfl, rfl⟩

theorem fetchPage_sane (h : Sane w) (hrun : w.fetchPage io p mode = .ret (out, w')) : Sane w' := by
  obtain ⟨⟨r, b'⟩, hfetch, hrun⟩ := Exec.bind_eq_ret.mp hrun
  obtain ⟨held, hl⟩ := h.locked
  rcases fetchAndPinFrame_returns h.usable h.canWrite hfetch with
    ⟨f, hp, rfl, rfl⟩ | ⟨-, -, rfl, rfl⟩ | ⟨f, -, -, ha, hwrite, hr⟩
  · exact (returnGuard_sane (h.usable.pinFrame hp) (hl.pinFrame f) hrun).1
  · cases hrun
    exact h
  · obtain ⟨husable, held, hlocked⟩ := h.assigned ha hwrite
    cases r with
    | error e =>
      cases hrun
      exact ⟨husable, _, hlocked⟩
    | ok g =>
      obtain rfl := hr g rfl
      exact (returnGuard_sane husable hlocked hrun).1

theorem createPage_sane {tableId : UInt32} (h : Sane w) (hrun : w.createPage io tableId = .ret (out, w')) :
    Sane w' := by
  obtain ⟨⟨r, b'⟩, hcreate, hrun⟩ := Exec.bind_eq_ret.mp hrun
  obtain ⟨held, hl⟩ := h.locked
  rcases createAndPinFrame_cases h.usable h.canWrite io tableId with
    ⟨e, -, hret⟩ | ⟨-, -, hret⟩ | ⟨f, r', b'', -, -, hret, ha, hwrite, -, hr, -⟩
  · cases hret.symm.trans hcreate
    cases hrun
    exact ⟨⟨h.usable.evictor, h.usable.free, h.usable.freeNodup, h.usable.unused, h.usable.mapped⟩,
      held, hl.congr fun _ => ⟨rfl, rfl, rfl⟩⟩
  · cases hret.symm.trans hcreate
  · cases hret.symm.trans hcreate
    obtain ⟨husable, held, hlocked⟩ := h.assigned ha hwrite
    rcases hr with rfl | ⟨e, rfl⟩
    · exact (returnGuard_sane husable hlocked hrun).1
    · cases hrun
      exact ⟨husable, _, hlocked⟩

/-- **Every operation that returns** keeps the invariant. -/
theorem run_sane (h : Sane w) (hrun : w.run io op = .ret (out, w')) : Sane w' := by
  obtain ⟨held, hl⟩ := h.locked
  cases op with
  | createPage tableId => exact createPage_sane h hrun
  | fetchPage p mode => exact fetchPage_sane h hrun
  | load i =>
    simp only [PoolWorld.run] at hrun
    split at hrun
    · cases hrun
      exact h
    · cases hrun
  | store i bytes | markDirty i =>
    simp only [PoolWorld.run] at hrun
    split at hrun
    · cases hrun
      exact h.modifyFrame fun _ => ⟨rfl, rfl, rfl, rfl⟩
    · cases hrun
  | drop i =>
    simp only [PoolWorld.run] at hrun
    split at hrun
    · rename_i g hg
      obtain ⟨hunpin, hlocked⟩ := hl.eraseIdx hg
      rw [hunpin, Exec.ret_bind] at hrun
      cases hrun
      have hpin := hl.pinCount_ne_zero (List.mem_of_getElem? hg)
      have husable : Usable (dropped w.bpm g) := by
        rw [dropped, unlockData_eq]
        exact (h.usable.unpinned hpin).modifyFrame (by cases g.mode <;> exact ⟨rfl, rfl⟩)
      exact ⟨husable, held, hlocked⟩
    · cases hrun

/-- **Every state of a run** has the invariant. -/
theorem PoolRun.sane {d : Disk} {calls : List (PoolCall n)} (h : PoolRun (PoolWorld.init n d) calls w) :
    Sane w := by
  induction h with
  | nil => exact Sane.init n d
  | snoc _ step ih => exact run_sane ih step

end RarmDb
