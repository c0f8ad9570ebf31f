import RarmDb.Pool.Effect

/-!
# New pages are blank

* `Pristine`: a page is blank on disk, in the frames that could be flushed to it, and in the frame in which
  a fetch finds it; **`run_pristine`**, `PoolRun.pristine`: it stays so while nobody touches it;
* **`run_unwritten`**, `PoolRun.unwritten`: a frame that never had a page holds zeros;
* `ShowsBlank`, `KeepsBlank`: the guard of `create_page` shows zeros, and so does every later fetch;
* `TakesBlank`, `Unrivalled`: the frame that is taken has zeros, and no other frame has other bytes for
  the page; **`createsBlank`**;
* **`takesBlank_of_free`**: a free frame has zeros.
-/

namespace RarmDb

open BufferPoolManager

variable {n : ℕ}

/-- The bytes that `allocate_page` writes. -/
abbrev zeroPage : Page := Buffer.const 8192 0

/-! ## What the calls write -/

section Calls

variable {b b₁ b' : BufferPoolManager n} {io : Faults} {f : Fin n} {p q : PageId}

theorem pages_written (d : Disk) (img : Option (PageId × Page)) (p : PageId) :
    (img.elim d fun x => d.setPage x.1 x.2).pages p = d.pages p ∨
      img = some (p, (img.elim d fun x => d.setPage x.1 x.2).pages p) := by
  rcases img with - | ⟨v, old⟩
  · exact .inl rfl
  · by_cases hp : p = v
    · subst hp
      have hself : (d.setPage p old).pages p = old := Function.update_self ..
      exact .inr (congrArg (fun bytes => some (p, bytes)) hself.symm)
    · exact .inl (Function.update_of_ne hp ..)

namespace BufferPoolManager

/-- What a fetch of `q` into the frame `f` does to the disk and to the frame. -/
structure Filled (b b' : BufferPoolManager n) (f : Fin n) (q : PageId) : Prop where
  fetches : ∀ p, p ≠ q → b'.fetches p = b.fetches p
  pages : ∀ p, b'.diskManager.pages p = b.diskManager.pages p ∨
    b.toFlush f = some (p, b'.diskManager.pages p)
  clean : (b'.frames f).isDirty = false
  data : b'.fetches q = none → (b'.frames f).data = b.diskManager.pages q
  apart : ∀ old, b.toFlush f ≠ some (q, old)

theorem Missed.filled (ho : Obtained b f b₁) (hfetches : b₁.fetches = b.fetches)
    {r : Except BufferPoolError (Fin n)} (hm : Missed b io q f b₁ (.ret (r, b'))) : Filled b b' f q := by
  have hframe := ho.frame_fetching (b.toFlush f) q
  have hfetching : ∀ p, p ≠ q → (fetching b₁ (b.toFlush f) q f).fetches p = b.fetches p := by
    intro p hp
    rw [fetching_eq]
    dsimp only
    rw [Function.update_of_ne hp, hfetches]
  have hloaded : ∀ d : Disk, (∀ p, d.pages p = b.diskManager.pages p ∨ b.toFlush f = some (p, d.pages p)) →
      ¬ b.Waits q f → Filled b (loaded (fetching b₁ (b.toFlush f) q f) (b.toFlush f) q f
        (b.diskManager.pages q) d) f q := by
    intro d hd hw
    constructor
    case fetches =>
      intro p hp
      rw [loaded_eq]
      dsimp only
      rw [Function.update_of_ne hp, hfetching p hp]
    case pages =>
      rw [loaded_eq]
      exact hd
    case clean => rw [loaded_frames, Function.update_self, hframe]
    case data =>
      intro _
      rw [loaded_frames, Function.update_self]
    case apart => exact fun old hold => hw (.inr ⟨old, hold⟩)
  cases hm with
  | unread hw =>
    constructor
    case fetches => exact hfetching
    case pages =>
      rw [ho.disk_fetching]
      exact fun _ => .inl rfl
    case clean => rw [hframe]
    case data =>
      intro hnone
      rw [fetching_eq] at hnone
      dsimp only at hnone
      rw [Function.update_self] at hnone
      cases hnone
    case apart => exact fun old hold => hw (.inr ⟨old, hold⟩)
  | unwritten hw => exact hloaded _ (fun _ => .inl rfl) hw
  | found hw =>
    rw [settled_eq_loaded, ho.disk_fetching]
    exact hloaded _ (pages_written _ _) hw

theorem Missed.fetches_eq_none {g : Fin n} (hm : Missed b io q f b₁ (.ret (.ok g, b'))) :
    b'.fetches q = none := by
  cases hm
  rw [settled_eq]
  exact Function.update_self ..

theorem Created.writable {x : PageId × Fin n} (hc : Created b io q f b₁ (.ret (.ok x, b'))) :
    Writable io (b.toFlush f) := by
  cases hc with
  | created hw => exact hw

/-- What a creation of `q` in the frame `f` does to the disk and to the frame. -/
structure Recycled (b b' : BufferPoolManager n) (f : Fin n) (q : PageId) : Prop where
  fetches : b'.fetches = b.fetches
  pages : ∀ p, b'.diskManager.pages p = (if p = q then zeroPage else b.diskManager.pages p) ∨
    b.toFlush f = some (p, b'.diskManager.pages p)
  data : (b'.frames f).data = (b.frames f).data
  canWrite : (b.frames f).canWrite → (b'.frames f).canWrite

theorem Created.recycled (ho : Obtained (b.allocated q) f b₁) (hfetches : b₁.fetches = b.fetches)
    {r : Except BufferPoolError (PageId × Fin n)} (hc : Created b io q f b₁ (.ret (r, b'))) :
    Recycled b b' f q := by
  have hframe : (registered b₁ (b.toFlush f) q f).frames f =
      { b.frames f with pageId := some q, pinCount := 1 } := ho.frame_registered _ q
  have hpages : ∀ p, (registered b₁ (b.toFlush f) q f).diskManager.pages p =
      if p = q then zeroPage else b.diskManager.pages p := by
    intro p
    rw [registered_eq]
    dsimp only
    rw [ho.diskManager]
    exact Function.update_apply ..
  have hregistered : (registered b₁ (b.toFlush f) q f).fetches = b.fetches := by
    rw [registered_eq]
    exact hfetches
  cases hc with
  | unwritten =>
    refine ⟨hregistered, fun p => .inl (hpages p), ?_, fun hcan => ?_⟩
    · rw [hframe]
    · rw [hframe]
      exact hcan
  | created =>
    rw [flushed_eq]
    refine ⟨hregistered, fun p => ?_, ?_, fun hcan => ?_⟩
    · rw [← hpages]
      exact pages_written _ _ p
    · dsimp only
      rw [hframe]
    · dsimp only
      rw [hframe]
      exact hcan

end BufferPoolManager

end Calls

/-! ## Pages that nobody touched -/

/-- The page is blank on disk, in every frame that may be flushed to it, and in the frame in which a fetch
finds it. -/
structure Pristine (b : BufferPoolManager n) (p : PageId) : Prop where
  disk : b.diskManager.pages p = zeroPage
  dirty : ∀ f, (b.frames f).pageId = some p → (b.frames f).isDirty = true → (b.frames f).data = zeroPage
  cached : ∀ f, b.pageTable p = some f →
    (b.frames f).pageId = some p ∧ (b.fetches p = none → (b.frames f).data = zeroPage)

namespace Pristine

variable {b b' : BufferPoolManager n} {io : Faults} {f : Fin n} {p q : PageId}

theorem congr (h : Pristine b p) (hsame : SameBytes b b')
    (hdisk : b'.diskManager.pages p = b.diskManager.pages p) (htable : b'.pageTable = b.pageTable)
    (hfetches : b'.fetches = b.fetches) : Pristine b' p where
  disk := hdisk.trans h.disk
  dirty g hg hd := by
    obtain ⟨hid, hdata, hdirty⟩ := hsame g
    exact hdata.trans (h.dirty g (hid.symm.trans hg) (hdirty.symm.trans hd))
  cached g hg := by
    obtain ⟨hid, hdata, -⟩ := hsame g
    rw [htable] at hg
    rw [hid, hdata, hfetches]
    exact h.cached g hg

theorem modifyFrame (h : Pristine b p) (hother : (b.frames f).pageId ≠ some p) {change : Frame → Frame}
    (hid : (change (b.frames f)).pageId = (b.frames f).pageId) : Pristine (b.modifyFrame f change) p where
  disk := h.disk
  dirty g hg hd := by
    have hne : g ≠ f := by
      rintro rfl
      rw [modifyFrame_self, hid] at hg
      exact hother hg
    rw [modifyFrame_of_ne hne] at hg hd ⊢
    exact h.dirty g hg hd
  cached g hg := by
    have hne : g ≠ f := by
      rintro rfl
      exact hother (h.cached g hg).1
    rw [modifyFrame_of_ne hne]
    exact h.cached g hg

theorem lock (h : Pristine b p) (mode : Mode) :
    Pristine (b.modifyFrame f fun fr => withGuard fr mode) p :=
  h.congr (sameBytes_lock b f mode) rfl rfl rfl

theorem pinFrame (h : Pristine b p) (f : Fin n) : Pristine (b.pinFrame f) p := by
  apply h.congr (sameBytes_pinFrame b f) <;> rw [pinFrame_eq]

theorem dropped (h : Pristine b p) (g : Guard n) : Pristine (dropped b g) p := by
  apply h.congr (sameBytes_dropped b g) <;> rw [dropped_eq]

/-- A frame is given to another page. If it held the page, its bytes are flushed when it is dirty. -/
theorem assigned (h : Pristine b p) (ha : Assigned b b' f q) (hq : p ≠ q)
    (hfetches : b'.fetches p = b.fetches p)
    (hdisk : b'.diskManager.pages p = b.diskManager.pages p ∨
      b.toFlush f = some (p, b'.diskManager.pages p)) : Pristine b' p := by
  constructor
  case disk =>
    rcases hdisk with hsame | hflush
    · exact hsame.trans h.disk
    · obtain ⟨hpage, hd, hdata⟩ := toFlush_eq_some_iff.mp hflush
      exact hdata.symm.trans (h.dirty f hpage hd)
  case dirty =>
    intro g hg hd
    have hne : g ≠ f := by
      rintro rfl
      exact hq (Option.some.inj (hg.symm.trans ha.pageId))
    rw [ha.frames g hne] at hg hd ⊢
    exact h.dirty g hg hd
  case cached =>
    intro g hg
    rw [ha.table, if_neg hq] at hg
    split_ifs at hg with hold
    have hne : g ≠ f := by
      rintro rfl
      exact hold (h.cached g hg).1
    rw [ha.frames g hne, hfetches]
    exact h.cached g hg

theorem filled (h : Pristine b p) (ha : Assigned b b' f p) (hf : Filled b b' f p) : Pristine b' p := by
  constructor
  case disk =>
    rcases hf.pages p with hsame | hflush
    · exact hsame.trans h.disk
    · exact absurd hflush (hf.apart _)
  case dirty =>
    intro g hg hd
    have hne : g ≠ f := by
      rintro rfl
      cases hf.clean.symm.trans hd
    rw [ha.frames g hne] at hg hd ⊢
    exact h.dirty g hg hd
  case cached =>
    intro g hg
    rw [ha.table, if_pos rfl] at hg
    obtain rfl := Option.some.inj hg
    exact ⟨ha.pageId, fun hnone => (hf.data hnone).trans h.disk⟩

end Pristine

/-! ## Operations and runs -/

/-- A call that writes to the page through a guard, marks it dirty, or creates it. -/
def PoolCall.Touches (c : PoolCall n) (p : PageId) : Prop :=
  match c.op with
  | .store i _ | .markDirty i => ∃ g ∈ c.w.guards[i]?, (c.w.bpm.frames g.frame).pageId = some p
  | .createPage tableId => c.w.bpm.diskManager.nextPage tableId = p
  | _ => False

section Operation

variable {w w' : PoolWorld n} {io : Faults} {op : PoolOp} {out : PoolOut} {p q : PageId} {mode : Mode}
  {bytes : Page}

theorem fetchPage_pristine (hs : Sane w) (h : Pristine w.bpm p)
    (hrun : w.fetchPage io p mode = .ret (.guard q bytes, w')) : bytes = zeroPage := by
  cases fetchPage_effect hs hrun with
  | @hit _ f _ hp hfetches => exact (h.cached f hp).2 hfetches
  | missed _ _ ho hsame hmissed =>
    exact ((hmissed.filled ho hsame.1).data hmissed.fetches_eq_none).trans h.disk

/-- A frame was given to the page or to another one by a fetch. -/
theorem Pristine.missed {b b₁ b' : BufferPoolManager n} {f : Fin n} (h : Pristine b p)
    (ho : Obtained b f b₁) (hfetches : b₁.fetches = b.fetches) {r : Except BufferPoolError (Fin n)}
    (hm : Missed b io q f b₁ (.ret (r, b'))) : Pristine b' p := by
  have hfilled := hm.filled ho hfetches
  by_cases hpq : p = q
  · subst hpq
    exact h.filled (hm.assigned ho) hfilled
  · exact h.assigned (hm.assigned ho) hpq (hfilled.fetches p hpq) (hfilled.pages p)

theorem Pristine.created {b b₁ b' : BufferPoolManager n} {f : Fin n} (h : Pristine b p) (hpq : q ≠ p)
    (ho : Obtained (b.allocated q) f b₁) (hfetches : b₁.fetches = b.fetches)
    {r : Except BufferPoolError (PageId × Fin n)} (hc : Created b io q f b₁ (.ret (r, b'))) :
    Pristine b' p := by
  have hrecycled := hc.recycled ho hfetches
  refine h.assigned (hc.assigned ho) hpq.symm (congrFun hrecycled.fetches p) ?_
  have hpages := hrecycled.pages p
  rwa [if_neg hpq.symm] at hpages

/-- **An operation that does not touch the page** keeps it blank. -/
theorem run_pristine (hs : Sane w) (h : Pristine w.bpm p) (hrun : w.run io op = .ret (out, w'))
    (hquiet : ¬ PoolCall.Touches ⟨w, io, op, out, w'⟩ p) : Pristine w'.bpm p := by
  cases run_effect hs hrun with
  | @hit q f mode => exact (h.pinFrame f).lock mode
  | full | load => exact h
  | failed _ _ ho hsame hmissed => exact h.missed ho hsame.1 hmissed
  | @missed q f mode b₁ b' _ _ ho hsame hmissed => exact (h.missed ho hsame.1 hmissed).lock mode
  | unallocated => exact h.congr (fun _ => ⟨rfl, rfl, rfl⟩) rfl rfl rfl
  | uncreated hq _ _ ho hsame hcreated =>
    exact h.created (fun hqp => hquiet (hq.trans hqp)) ho hsame.1 hcreated
  | created hq _ _ ho hsame hcreated =>
    exact (h.created (fun hqp => hquiet (hq.trans hqp)) ho hsame.1 hcreated).lock .write
  | store hg | markDirty hg =>
    dsimp only
    exact h.modifyFrame (fun hpage => hquiet ⟨_, hg, hpage⟩) rfl
  | drop => exact h.dropped _

/-- **A blank page stays blank** in a run in which nobody touches it. -/
theorem PoolRun.pristine {w₀ : PoolWorld n} {calls : List (PoolCall n)} (hrun : PoolRun w₀ calls w)
    (hs : Sane w₀) (h : Pristine w₀.bpm p) (hquiet : ∀ c ∈ calls, ¬ c.Touches p) :
    Sane w ∧ Pristine w.bpm p ∧
      ∀ c ∈ calls, ∀ mode q bytes, c.op = .fetchPage p mode → c.out = .guard q bytes →
        bytes = zeroPage := by
  induction hrun with
  | nil => exact ⟨hs, h, nofun⟩
  | snoc run step ih =>
    rw [List.forall_mem_append] at hquiet
    obtain ⟨hs, h, hfetched⟩ := ih hquiet.1
    refine ⟨run_sane hs step, run_pristine hs h step (hquiet.2 _ (List.mem_singleton_self _)), ?_⟩
    rw [List.forall_mem_append, List.forall_mem_singleton]
    refine ⟨hfetched, ?_⟩
    rintro mode q bytes rfl rfl
    exact fetchPage_pristine hs h step

end Operation

/-! ## Frames that never had a page -/

/-- A frame without a page holds the zeros that it was made with. -/
def Unwritten (b : BufferPoolManager n) : Prop :=
  ∀ f, (b.frames f).pageId = none → (b.frames f).data = zeroPage

namespace Unwritten

variable {b b' : BufferPoolManager n} {f : Fin n} {p : PageId}

theorem congr (h : Unwritten b) (hsame : SameBytes b b') : Unwritten b' := by
  intro g hg
  obtain ⟨hid, hdata, -⟩ := hsame g
  exact hdata.trans (h g (hid.symm.trans hg))

theorem assigned (h : Unwritten b) (ha : Assigned b b' f p) : Unwritten b' := by
  intro g hg
  have hne : g ≠ f := by
    rintro rfl
    cases ha.pageId.symm.trans hg
  rw [ha.frames g hne] at hg ⊢
  exact h g hg

theorem modifyFrame (h : Unwritten b) (hf : (b.frames f).pageId ≠ none) {change : Frame → Frame}
    (hid : (change (b.frames f)).pageId = (b.frames f).pageId) : Unwritten (b.modifyFrame f change) := by
  intro g hg
  have hne : g ≠ f := by
    rintro rfl
    rw [modifyFrame_self, hid] at hg
    exact hf hg
  rw [modifyFrame_of_ne hne] at hg ⊢
  exact h g hg

end Unwritten

theorem run_unwritten {w w' : PoolWorld n} {io : Faults} {op : PoolOp} {out : PoolOut} (hs : Sane w)
    (h : Unwritten w.bpm) (hrun : w.run io op = .ret (out, w')) : Unwritten w'.bpm := by
  have hguard : ∀ {i : ℕ} {g : Guard n}, w.guards[i]? = some g → (w.bpm.frames g.frame).pageId ≠ none := by
    intro i g hg hnone
    obtain ⟨held, hl⟩ := hs.locked
    exact hl.pinCount_ne_zero (List.mem_of_getElem? hg) (hs.usable.unused g.frame hnone)
  cases run_effect hs hrun with
  | @hit p f mode => exact (h.congr (sameBytes_pinFrame w.bpm f)).congr (sameBytes_lock _ f mode)
  | full | unallocated | load => exact h
  | failed _ _ ho _ hmissed => exact h.assigned (hmissed.assigned ho)
  | @missed p f mode b₁ b' _ _ ho _ hmissed =>
    exact (h.assigned (hmissed.assigned ho)).congr (sameBytes_lock b' f mode)
  | uncreated _ _ _ ho _ hcreated => exact h.assigned (hcreated.assigned ho)
  | @created tableId p f b₁ b' _ _ _ ho _ hcreated =>
    exact (h.assigned (hcreated.assigned ho)).congr (sameBytes_lock b' f .write)
  | store hg | markDirty hg =>
    dsimp only
    exact h.modifyFrame (hguard hg) rfl
  | @drop i g => exact h.congr (sameBytes_dropped w.bpm g)

theorem PoolRun.unwritten {d : Disk} {calls : List (PoolCall n)} {w : PoolWorld n}
    (h : PoolRun (PoolWorld.init n d) calls w) : Unwritten w.bpm := by
  induction h with
  | nil => exact fun _ _ => rfl
  | snoc run step ih => exact run_unwritten run.sane ih step

/-! ## New pages -/

/-- The guard that `create_page` returns shows zeros. -/
def ShowsBlank (w : PoolWorld n) (io : Faults) (tableId : UInt32) : Prop :=
  ∀ p bytes w', w.createPage io tableId = .ret (.guard p bytes, w') → bytes = zeroPage

/-- While nobody touches a new page, every later fetch of it shows the bytes of the first guard. -/
def KeepsBlank (w : PoolWorld n) (io : Faults) (tableId : UInt32) : Prop :=
  ∀ p bytes w', w.createPage io tableId = .ret (.guard p bytes, w') →
    ∀ calls w'', PoolRun w' calls w'' → (∀ c ∈ calls, ¬ c.Touches p) →
      ∀ c ∈ calls, ∀ mode q bytes', c.op = .fetchPage p mode → c.out = .guard q bytes' → bytes' = bytes

/-- If the creation succeeds, the frame that it takes holds zeros. -/
def TakesBlank (b : BufferPoolManager n) (io : Faults) (tableId : UInt32) : Prop :=
  io.writeAt (b.diskManager.nextPage tableId) = none → ∀ f, b.nextFrame = some f →
    Writable io (b.toFlush f) → (b.frames f).data = zeroPage

/-- Of the frames that are not taken, none would flush other bytes to the page. -/
def Unrivalled (b : BufferPoolManager n) (p : PageId) : Prop :=
  ∀ f, b.nextFrame ≠ some f → (b.frames f).pageId = some p → (b.frames f).isDirty = true →
    (b.frames f).data = zeroPage

section Creation

variable {w w' : PoolWorld n} {b b₁ b' : BufferPoolManager n} {io : Faults} {tableId : UInt32}
  {f : Fin n} {p : PageId} {bytes : Page}

/-- The new page is blank when its frame was, and when no other frame has other bytes for it. -/
theorem pristine_of_created (ho : Obtained (b.allocated p) f b₁) (hfetches : b₁.fetches = b.fetches)
    (hc : Created b io p f b₁ (.ret (.ok (p, f), b'))) (hnext : b.nextFrame = some f)
    (hu : Unrivalled b p) (hzero : (b.frames f).data = zeroPage) : Pristine b' p := by
  have ha := hc.assigned ho
  have hr := hc.recycled ho hfetches
  constructor
  case disk =>
    rcases hr.pages p with hnew | hflush
    · rwa [if_pos rfl] at hnew
    · rw [← (toFlush_eq_some_iff.mp hflush).2.2, hzero]
  case dirty =>
    intro g hg hd
    by_cases hgf : g = f
    · rw [hgf, hr.data, hzero]
    · rw [ha.frames g hgf] at hg hd ⊢
      refine hu g (fun hn => hgf ?_) hg hd
      exact Option.some.inj (hn.symm.trans hnext)
  case cached =>
    intro g hg
    rw [ha.table, if_pos rfl] at hg
    obtain rfl := Option.some.inj hg
    exact ⟨ha.pageId, fun _ => hr.data.trans hzero⟩

theorem createPage_guard (h : Sane w) (hw : io.writeAt (w.bpm.diskManager.nextPage tableId) = none)
    (hnext : w.bpm.nextFrame = some f) (hwrite : Writable io (w.bpm.toFlush f)) :
    ∃ w', w.createPage io tableId =
      .ret (.guard (w.bpm.diskManager.nextPage tableId) (w.bpm.frames f).data, w') := by
  obtain ⟨b₁, ho, hsame, hcreated⟩ := createAndPinFrame_created h.usable h.canWrite rfl hw hnext
  generalize hrun : w.bpm.createAndPinFrame io tableId = x at hcreated
  cases hcreated with
  | unwritten hv hfail => cases hfail.symm.trans (hwrite _ _ hv)
  | created hwrite =>
    have hc : Created w.bpm io (w.bpm.diskManager.nextPage tableId) f b₁ (.ret (.ok _, _)) :=
      .created hwrite
    have hr := hc.recycled ho hsame.1
    apply Exists.intro
    unfold PoolWorld.createPage
    rw [hrun, Exec.ret_bind, ← hr.data]
    exact returnGuard_write (hr.canWrite (h.canWrite f ho.pinCount))

/-- A creation that returns a guard shows the bytes of the frame, and leaves a blank page if they are
zeros. -/
theorem of_createPage_guard (h : Sane w) (hrun : w.createPage io tableId = .ret (.guard p bytes, w')) :
    p = w.bpm.diskManager.nextPage tableId ∧
      (TakesBlank w.bpm io tableId → bytes = zeroPage ∧ (Unrivalled w.bpm p → Pristine w'.bpm p)) := by
  cases createPage_effect h hrun with
  | created hp hw hnext ho hsame hcreated =>
    subst hp
    refine ⟨rfl, fun ht => ?_⟩
    have hr := hcreated.recycled ho hsame.1
    have hzero := ht hw _ hnext hcreated.writable
    refine ⟨hr.data.trans hzero, fun hu => ?_⟩
    exact (pristine_of_created ho hsame.1 hcreated hnext hu hzero).lock .write

end Creation

/-- **The guard of a new page shows zeros** exactly when the frame held zeros before; and then, if no other
frame has other bytes for the page, every later fetch shows them until somebody touches the page. -/
theorem createsBlank {d : Disk} {calls : List (PoolCall n)} {w : PoolWorld n}
    (h : PoolRun (PoolWorld.init n d) calls w) (io : Faults) (tableId : UInt32) :
    (ShowsBlank w io tableId ↔ TakesBlank w.bpm io tableId) ∧
      (TakesBlank w.bpm io tableId → Unrivalled w.bpm (w.bpm.diskManager.nextPage tableId) →
        KeepsBlank w io tableId) := by
  have hs := h.sane
  refine ⟨⟨fun hshows hw f hnext hwrite => ?_, fun ht p bytes w' hrun => ?_⟩, ?_⟩
  · obtain ⟨w', hrun⟩ := createPage_guard hs hw hnext hwrite
    exact hshows _ _ w' hrun
  · exact ((of_createPage_guard hs hrun).2 ht).1
  · intro ht hu p bytes w' hrun calls w'' hlater hquiet c hc mode q bytes' hop hout
    obtain ⟨rfl, hblank⟩ := of_createPage_guard hs hrun
    obtain ⟨hbytes, hpristine⟩ := hblank ht
    have hs' : Sane w' := createPage_sane hs hrun
    obtain ⟨-, -, hfetched⟩ := hlater.pristine hs' (hpristine hu) hquiet
    exact (hfetched c hc mode q bytes' hop hout).trans hbytes.symm

/-- The frame of the first page is given to the second one; the first page was not written. -/
theorem createsBlank_reused : ∃ calls w, PoolRun (PoolWorld.init 1 emptyTable) calls w ∧
    w.bpm.freeFrames = [] ∧ (ShowsBlank w Faults.none 1 ↔ TakesBlank w.bpm Faults.none 1) ∧
      (TakesBlank w.bpm Faults.none 1 → Unrivalled w.bpm (w.bpm.diskManager.nextPage 1) →
        KeepsBlank w Faults.none 1) := by
  have hrun := (PoolRun.nil.snoc
    (rfl : (PoolWorld.init 1 emptyTable).run Faults.none (.createPage 1) = .ret _)).snoc
    (rfl : PoolWorld.run Faults.none _ (.drop 0) = .ret _)
  exact ⟨_, _, hrun, rfl, createsBlank hrun Faults.none 1⟩

/-- **The new page shows the bytes of an old one**: ones are written to the first page, and its frame is
given to the second. -/
theorem createPage_shows_evicted : ∃ calls w w', PoolRun (PoolWorld.init 1 emptyTable) calls w ∧
    w.createPage Faults.none 1 = .ret (.guard ⟨1, 1⟩ (Buffer.const 8192 1), w') ∧
      ¬ ShowsBlank w Faults.none 1 := by
  have hrun := (((PoolRun.nil.snoc
    (rfl : (PoolWorld.init 1 emptyTable).run Faults.none (.createPage 1) = .ret _)).snoc
    (rfl : PoolWorld.run Faults.none _ (.store 0 (Buffer.const 8192 1)) = .ret _)).snoc
    (rfl : PoolWorld.run Faults.none _ (.markDirty 0) = .ret _)).snoc
    (rfl : PoolWorld.run Faults.none _ (.drop 0) = .ret _)
  refine ⟨_, _, _, hrun, rfl, fun hshows => ?_⟩
  have hbyte := congrArg (fun bytes => bytes.get 0) (hshows _ _ _ rfl)
  exact absurd hbyte (by decide)

/-- **A free frame** holds zeros. -/
theorem takesBlank_of_free {d : Disk} {calls : List (PoolCall n)} {w : PoolWorld n}
    (h : PoolRun (PoolWorld.init n d) calls w) (hfree : w.bpm.freeFrames ≠ []) (io : Faults)
    (tableId : UInt32) : TakesBlank w.bpm io tableId := by
  obtain ⟨f, rest, hf⟩ := List.exists_cons_of_ne_nil hfree
  intro _ g hnext _
  have hg : g = f := by
    unfold nextFrame at hnext
    rw [hf] at hnext
    exact (Option.some.inj hnext).symm
  refine h.unwritten g (h.sane.usable.free g ?_)
  rw [hf, hg]
  exact List.mem_cons_self

end RarmDb
