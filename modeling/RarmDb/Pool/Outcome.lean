import RarmDb.Pool.Calls

/-!
# The outcome of a call

What the two calls of the pool return, and in which state, while any disk operation may fail.

* **`no_frame`**, `fetchAndPinFrame_full`, `createAndPinFrame_full`: no frame can be taken;
* `Waits`, `Writable`: the fetch never returns; what has to be flushed can be written;
* `Missed`: a fetch of a page that is not cached waits, cannot read, cannot flush, or has its frame;
  **`fetchAndPinFrame_missed`**;
* `Created`: a creation cannot flush, or has its frame; **`createAndPinFrame_created`**;
* **`fetchAndPinFrame_hit`**, **`fetchAndPinFrame_miss`**, **`createAndPinFrame_eq`**: with the invariant
  and a disk without errors, a frame was pinned or reassigned.
-/

namespace RarmDb

variable {n : ℕ}

/-! ## The evictor without a victim -/

namespace ClockEvictor

variable {e e' : ClockEvictor n}

theorem victimLoop_empty (h : ∀ f, ¬ e.Mem f) (k : ℕ) (i : Fin n) :
    victimLoop e k i =
      (none, { e with clockHandPos := (i + k) % n, hand_lt := fun hn => Nat.mod_lt _ hn }) := by
  induction k generalizing i with
  | zero =>
    have hi : (i + 0) % n = (i : ℕ) := Nat.mod_eq_of_lt i.2
    rw [victimLoop]
    simp only [hi]
  | succ k ih =>
    have hpos : ((nextPos i : ℕ) + k) % n = (i + (k + 1)) % n := by
      rw [nextPos, Nat.mod_add_mod, Nat.add_assoc, Nat.add_comm 1]
    have hi : ¬ e.isInEvictor i = true := h i
    rw [victimLoop, if_neg hi, ih]
    simp only [hpos]

/-- **Without a victim** the clock hand ends where it was. -/
theorem victim_eq_self (h : e.victim = (none, e')) : e' = e := by
  have hempty : ∀ f, ¬ e.Mem f := by
    intro f hf
    have hsome := victim_isSome hf
    rw [h] at hsome
    cases hsome
  unfold victim at h
  split_ifs at h with hn
  · rw [victimLoop_empty hempty] at h
    have hpos : (e.clockHandPos + n * 2) % n = e.clockHandPos := by
      rw [Nat.add_mul_mod_self_left, Nat.mod_eq_of_lt (e.hand_lt hn)]
    rw [← (Prod.mk.inj h).2]
    simp only [hpos]
  · exact (Prod.mk.inj h).2.symm

end ClockEvictor

namespace BufferPoolManager

variable {b b₁ b' : BufferPoolManager n} {f : Fin n} {p v : PageId} {io : Faults}
  {img : Option (PageId × Page)}

/-! ## Without a frame -/

/-- **Without a next frame** a fetch finds none, and a creation panics. -/
theorem no_frame (hnext : b.nextFrame = none) :
    b.availableFrame = .ret (none, b) ∧ b.createFrame = .panic := by
  unfold nextFrame at hnext
  cases hfree : b.freeFrames with
  | cons f rest =>
    rw [hfree] at hnext
    cases hnext
  | nil =>
    rw [hfree] at hnext
    have hvictim : b.evictor.victim = (none, b.evictor.victim.2) := Prod.ext hnext rfl
    have hself := ClockEvictor.victim_eq_self hvictim
    constructor
    · rw [availableFrame_none hfree hvictim, hself]
    · unfold createFrame
      rw [hfree]
      dsimp only
      rw [evictPage_none hvictim]
      rfl

/-- Without a next frame a miss reports that the buffer is full. -/
theorem fetchAndPinFrame_full (io : Faults) (hp : b.pageTable p = none) (hnext : b.nextFrame = none) :
    b.fetchAndPinFrame io p = .ret (.error .bufferFull, b) := by
  unfold fetchAndPinFrame
  rw [hp]
  dsimp only
  rw [(no_frame hnext).1]
  rfl

/-- Without a next frame a creation panics, once the page is allocated. -/
theorem createAndPinFrame_full {tableId : UInt32} (hp : b.diskManager.nextPage tableId = p)
    (hw : io.writeAt p = none) (hnext : b.nextFrame = none) :
    b.createAndPinFrame io tableId = .panic := by
  have htable : p.tableId = tableId := by rw [← hp]; rfl
  have hnext' : (b.allocated p).nextFrame = none := hnext
  unfold createAndPinFrame Disk.allocatePage Disk.writePage
  dsimp only
  rw [hp, hw]
  subst htable
  change (b.allocated p).createFrame >>= _ = _
  rw [(no_frame hnext').2]
  rfl

/-! ## The outcomes -/

/-- A fetch of `p` into the frame `f` waits for a flush of `p`, its own included. -/
def Waits (b : BufferPoolManager n) (p : PageId) (f : Fin n) : Prop :=
  b.flushes p ≠ none ∨ ∃ old, b.toFlush f = some (p, old)

/-- What has to be flushed can be written. -/
def Writable (io : Faults) (img : Option (PageId × Page)) : Prop :=
  ∀ v old, img = some (v, old) → io.writeAt v = none

/-! ## The evicted page -/

theorem writable_none : Writable io none := nofun

theorem writable_some {old : Page} : Writable io (some (v, old)) ↔ io.writeAt v = none := by
  constructor
  · exact fun h => h v old rfl
  · intro h v' old' hv
    cases hv
    exact h

theorem writeEvicted_of_some {e : String} (h : io.writeAt v = some e) (b : BufferPoolManager n)
    (bytes : Page) : b.writeEvicted io v bytes =
      (.error (.diskWrite s!"Could not write page: {v} to disk! Error: {e}"), b) := by
  unfold writeEvicted Disk.writePage
  rw [h]

theorem writeEvicted_of_none (h : io.writeAt v = none) (b : BufferPoolManager n) (bytes : Page) :
    b.writeEvicted io v bytes = (.ok (), { b with diskManager := b.diskManager.setPage v bytes }) := by
  unfold writeEvicted Disk.writePage
  rw [h]

theorem announced_flushes (b : BufferPoolManager n) (img : Option (PageId × Page)) (p : PageId) :
    (b.announced img).flushes p ≠ none ↔ b.flushes p ≠ none ∨ ∃ old, img = some (p, old) := by
  rcases img with - | ⟨v, old⟩
  · exact ⟨.inl, fun h => h.resolve_right fun ⟨_, ho⟩ => (by cases ho)⟩
  · change Function.update b.flushes v _ p ≠ none ↔ _
    by_cases hp : p = v
    · subst hp
      rw [Function.update_self]
      exact iff_of_true (Option.some_ne_none _) (.inr ⟨old, rfl⟩)
    · rw [Function.update_of_ne hp]
      refine ⟨.inl, fun h => h.resolve_right ?_⟩
      rintro ⟨_, ho⟩
      cases ho
      exact hp rfl

/-! ## A fetch -/

theorem fetchAndPinFrame_cached (io : Faults) (hp : b.pageTable p = some f) :
    (b.fetches p ≠ none ∧ b.fetchAndPinFrame io p = .diverge) ∨
      (b.fetches p = none ∧ b.fetchAndPinFrame io p = .ret (.ok f, b.pinFrame f)) := by
  have hfetches : (b.pinFrame f).fetches = b.fetches := by rw [pinFrame_eq]
  unfold fetchAndPinFrame waitForPageFetch
  rw [hp]
  dsimp only
  rw [hfetches]
  cases b.fetches p with
  | some c => exact .inl ⟨Option.some_ne_none c, rfl⟩
  | none => exact .inr ⟨rfl, rfl⟩

/-- What a fetch of `p` returns when it takes the frame `f`; `b₁` is the pool without this frame. -/
inductive Missed (b : BufferPoolManager n) (io : Faults) (p : PageId) (f : Fin n)
    (b₁ : BufferPoolManager n) : Exec (Except BufferPoolError (Fin n) × BufferPoolManager n) → Prop
  | waits (h : b.Waits p f) : Missed b io p f b₁ .diverge
  | unread {e : String} (h : ¬ b.Waits p f) (hr : io.readAt p = some e) :
    Missed b io p f b₁ (.ret (.error (.diskRead s!"Error reading page {p} from disk: {e}"),
      fetching b₁ (b.toFlush f) p f))
  | unwritten {v : PageId} {old : Page} {e : String} (h : ¬ b.Waits p f) (hr : io.readAt p = none)
      (hv : b.toFlush f = some (v, old)) (hw : io.writeAt v = some e) :
    Missed b io p f b₁ (.ret (.error (.diskWrite s!"Could not write page: {v} to disk! Error: {e}"),
      loaded (fetching b₁ (b.toFlush f) p f) (b.toFlush f) p f (b.diskManager.pages p) b.diskManager))
  | found (h : ¬ b.Waits p f) (hr : io.readAt p = none) (hw : Writable io (b.toFlush f)) :
    Missed b io p f b₁ (.ret (.ok f,
      settled (fetching b₁ (b.toFlush f) p f) (b.toFlush f) p f (b.diskManager.pages p)))

/-- The end of a fetch: what has to be flushed is written. -/
def fetchFlush (c : BufferPoolManager n) (io : Faults) (f : Fin n) (img : Option (PageId × Page)) :
    Exec (Except BufferPoolError (Fin n) × BufferPoolManager n) :=
  match img with
  | some (v, old) =>
    let (result, c) := c.writeEvicted io v old
    let c := (c.finishFlush v).releaseWrite f
    match result with
    | .error e => return (.error e, c)
    | .ok () => return (.ok f, c)
  | none => return (.ok f, c.releaseWrite f)

/-- The rest of a fetch, with what it has read. -/
def fetchLoad (c : BufferPoolManager n) (io : Faults) (p : PageId) (f : Fin n) (img : Option (PageId × Page))
    (read : Except String Page) : Exec (Except BufferPoolError (Fin n) × BufferPoolManager n) :=
  match read with
  | .error e => return (.error (.diskRead s!"Error reading page {p} from disk: {e}"), c)
  | .ok readBuffer => do
    let c ← c.loadFrame f readBuffer
    (c.finishFetch p).fetchFlush io f img

theorem missed_found (h : ¬ b.Waits p f) (hr : io.readAt p = none)
    (hdisk : (fetching b₁ (b.toFlush f) p f).diskManager = b.diskManager) :
    Missed b io p f b₁ ((((fetching b₁ (b.toFlush f) p f).modifyFrame f fun fr =>
      { fr with data := b.diskManager.pages p, writer := true }).finishFetch p).fetchFlush io f
        (b.toFlush f)) := by
  unfold fetchFlush
  have hfound : Writable io (b.toFlush f) → Missed b io p f b₁ _ := .found h hr
  have hunwritten : ∀ v old e, b.toFlush f = some (v, old) → io.writeAt v = some e →
      Missed b io p f b₁ _ := fun v old e => .unwritten h hr
  generalize hb : fetching b₁ (b.toFlush f) p f = b₂ at *
  generalize hflush : b.toFlush f = img at *
  rcases img with - | ⟨v, old⟩
  · exact hfound writable_none
  · dsimp only
    cases hw : io.writeAt v with
    | some e =>
      rw [writeEvicted_of_some hw]
      convert hunwritten v old e rfl hw using 4
      unfold loaded
      dsimp only
      rw [finishFetch_eq, ← hdisk]
      rfl
    | none =>
      rw [writeEvicted_of_none hw]
      exact hfound (writable_some.mpr hw)

/-- **A miss** takes the next frame, and waits, fails to read or to flush, or has the page in it. -/
theorem fetchAndPinFrame_missed (h : Usable b)
    (hlock : ∀ f, (b.frames f).pinCount = 0 → (b.frames f).canWrite) (io : Faults)
    (hp : b.pageTable p = none) (hnext : b.nextFrame = some f) :
    ∃ b₁, Obtained b f b₁ ∧ (b₁.fetches = b.fetches ∧ b₁.flushes = b.flushes) ∧
      Missed b io p f b₁ (b.fetchAndPinFrame io p) := by
  obtain ⟨b₁, ho, hsame, havailable, -⟩ := exists_obtained h hlock hnext
  refine ⟨b₁, ho, hsame, ?_⟩
  have hdisk := ho.disk_fetching (b.toFlush f) p
  have hwaits : (fetching b₁ (b.toFlush f) p f).flushes p ≠ none ↔ b.Waits p f := by
    rw [fetching_eq]
    dsimp only
    rw [announced_flushes, hsame.2]
    rfl
  have hload : ∀ bytes, (fetching b₁ (b.toFlush f) p f).loadFrame f bytes =
      .ret ((fetching b₁ (b.toFlush f) p f).modifyFrame f fun fr =>
        { fr with data := bytes, writer := true }) := by
    intro bytes
    unfold loadFrame
    rw [if_pos]
    rw [ho.frame_fetching]
    exact hlock f ho.pinCount
  have hrun : b.fetchAndPinFrame io p = (do
      let result ← (fetching b₁ (b.toFlush f) p f).waitForPageFlush p
      match result with
      | .error e => return (.error e, fetching b₁ (b.toFlush f) p f)
      | .ok () =>
        let read := b.diskManager.readPage io p
        fetchLoad (fetching b₁ (b.toFlush f) p f) io p f (b.toFlush f) read) := by
    rw [← hdisk]
    unfold fetchAndPinFrame
    rw [hp]
    dsimp only
    rw [havailable]
    rfl
  rw [hrun]
  unfold waitForPageFlush
  cases hflush : (fetching b₁ (b.toFlush f) p f).flushes p with
  | some c => exact .waits (hwaits.mp (by rw [hflush]; exact Option.some_ne_none c))
  | none =>
    have hnot : ¬ b.Waits p f := fun hw => hwaits.mpr hw hflush
    change Missed b io p f b₁ (fetchLoad _ io p f _ (b.diskManager.readPage io p))
    unfold Disk.readPage fetchLoad
    cases hr : io.readAt p with
    | some e => exact .unread hnot hr
    | none =>
      dsimp only
      rw [hload, Exec.ret_bind]
      exact missed_found hnot hr hdisk

/-! ## A creation -/

/-- What a creation of `p` returns when it takes the frame `f`; `b₁` is the pool without this frame. -/
inductive Created (b : BufferPoolManager n) (io : Faults) (p : PageId) (f : Fin n)
    (b₁ : BufferPoolManager n) :
    Exec (Except BufferPoolError (PageId × Fin n) × BufferPoolManager n) → Prop
  | unwritten {v : PageId} {old : Page} {e : String} (hv : b.toFlush f = some (v, old))
      (hw : io.writeAt v = some e) :
    Created b io p f b₁ (.ret (.error (.diskWrite s!"Could not write page: {v} to disk! Error: {e}"),
      registered b₁ (b.toFlush f) p f))
  | created (hw : Writable io (b.toFlush f)) :
    Created b io p f b₁ (.ret (.ok (p, f), flushed (registered b₁ (b.toFlush f) p f) (b.toFlush f)))

/-- **A creation** that allocates its page takes the next frame, and fails to flush or has the page. -/
theorem createAndPinFrame_created (h : Usable b)
    (hlock : ∀ f, (b.frames f).pinCount = 0 → (b.frames f).canWrite) {tableId : UInt32}
    (hp : b.diskManager.nextPage tableId = p) (hw : io.writeAt p = none)
    (hnext : b.nextFrame = some f) :
    ∃ b₁, Obtained (b.allocated p) f b₁ ∧ (b₁.fetches = b.fetches ∧ b₁.flushes = b.flushes) ∧
      Created b io p f b₁ (b.createAndPinFrame io tableId) := by
  have husable : Usable (b.allocated p) := ⟨h.evictor, h.free, h.freeNodup, h.unused, h.mapped⟩
  have hnext' : (b.allocated p).nextFrame = some f := hnext
  obtain ⟨b₁, ho, hsame, -, evicted, hframe, himg, hregister⟩ := exists_obtained husable hlock hnext'
  refine ⟨b₁, ho, hsame, ?_⟩
  have hrun : b.createAndPinFrame io tableId = (match b.toFlush f with
      | some (v, old) =>
        let (result, c) := (registered b₁ (b.toFlush f) p f).writeEvicted io v old
        match result with
        | .error e => return (.error e, c)
        | .ok () => return (.ok (p, f), c.finishFlush v)
      | none => return (.ok (p, f), registered b₁ (b.toFlush f) p f)) := by
    have htoFlush : (b.allocated p).toFlush f = b.toFlush f := rfl
    have htable : p.tableId = tableId := by rw [← hp]; rfl
    rw [← htoFlush, ← himg]
    rw [← himg] at hregister
    unfold createAndPinFrame Disk.allocatePage Disk.writePage
    dsimp only
    rw [hp, hw]
    subst htable
    change (b.allocated p).createFrame >>= _ = _
    rw [hframe, Exec.ret_bind]
    dsimp only
    rw [hregister]
    rfl
  rw [hrun]
  have hcreated : Writable io (b.toFlush f) → Created b io p f b₁ _ := .created
  have hunwritten : ∀ v old e, b.toFlush f = some (v, old) → io.writeAt v = some e →
      Created b io p f b₁ _ := fun v old e => .unwritten
  generalize b.toFlush f = img at *
  rcases img with - | ⟨v, old⟩
  · exact hcreated writable_none
  · dsimp only
    cases hv : io.writeAt v with
    | some e =>
      rw [writeEvicted_of_some hv]
      exact hunwritten v old e rfl hv
    | none =>
      rw [writeEvicted_of_none hv]
      exact hcreated (writable_some.mpr hv)

/-! ## With the invariant -/

section Invariant

variable {m : PageId → Page} {W : Fin n → Prop}

theorem fetchAndPinFrame_hit (h : PoolInv b m W) (io : Faults) (hp : b.pageTable p = some f) :
    b.fetchAndPinFrame io p = .ret (.ok f, b.pinFrame f) := by
  rcases fetchAndPinFrame_cached io hp with ⟨hfetches, -⟩ | ⟨-, hret⟩
  · exact absurd (h.fetches p) hfetches
  · exact hret

/-- **A miss** reads the page into a frame that nobody has pinned. -/
theorem fetchAndPinFrame_miss (h : PoolInv b m W) (hp : b.pageTable p = none)
    (hstored : b.diskManager.stored p = true) (hpin : ∃ f, (b.frames f).pinCount = 0) :
    ∃ f b', b.fetchAndPinFrame Faults.none p = .ret (.ok f, b') ∧ Reassigned b b' f p ∧
      (b'.frames f).data = m p ∧ b'.diskManager.pages p = m p := by
  obtain ⟨f, hnext⟩ := h.exists_nextFrame hpin
  obtain ⟨b₁, ho, ⟨hfetches, hflushes⟩, hmissed⟩ :=
    fetchAndPinFrame_missed h.usable h.unlocked Faults.none hp hnext
  have hreassigned :=
    reassigned_settled h (ho.taken h hfetches hflushes) hp hstored (b.diskManager.pages p)
  have hwaits : ¬ b.Waits p f := by
    rintro (hflush | ⟨old, hold⟩)
    · exact hflush (h.flushes p)
    · rw [((toFlush_eq_some h).mp hold).1] at hp
      cases hp
  generalize b.fetchAndPinFrame Faults.none p = x at hmissed
  cases hmissed with
  | waits hw => exact absurd hw hwaits
  | unread _ hr => cases hr
  | unwritten _ _ _ hw => cases hw
  | found =>
    refine ⟨f, _, rfl, hreassigned.1, ?_, hreassigned.2.2⟩
    rw [hreassigned.2.1, h.disk p hp]

/-- **A creation** takes a frame that nobody has pinned. -/
theorem createAndPinFrame_eq (h : PoolInv b m W) {tableId : UInt32}
    (hfresh : b.diskManager.stored (b.diskManager.nextPage tableId) = false)
    (hpin : ∃ f, (b.frames f).pinCount = 0) :
    ∃ f b', b.createAndPinFrame Faults.none tableId =
      .ret (.ok (b.diskManager.nextPage tableId, f), b') ∧
      Reassigned b b' f (b.diskManager.nextPage tableId) := by
  have hp : b.pageTable (b.diskManager.nextPage tableId) = none := by
    rw [Option.eq_none_iff_forall_not_mem]
    intro f hf
    rw [h.stored _ f hf] at hfresh
    cases hfresh
  obtain ⟨f, hnext⟩ := h.exists_nextFrame hpin
  have hwrite : Faults.none.writeAt (b.diskManager.nextPage tableId) = none := rfl
  obtain ⟨b₁, ho, ⟨hfetches, hflushes⟩, hcreated⟩ :=
    createAndPinFrame_created h.usable h.unlocked rfl hwrite hnext
  have hreassigned := reassigned_created h (ho.taken (allocated_inv h hp) hfetches hflushes)
  generalize b.createAndPinFrame Faults.none tableId = x at hcreated
  cases hcreated with
  | unwritten _ hw => cases hw
  | created => exact ⟨f, _, rfl, hreassigned⟩

end Invariant

end BufferPoolManager

end RarmDb
