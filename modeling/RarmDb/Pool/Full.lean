import RarmDb.Pool.Effect

/-!
# When the buffer is full

* `Available`: a frame without a pin is free or in the evictor; **`run_available`**,
  `PoolRun.available`: in every state of a run;
* **`nextFrame_eq_none_iff`**: no frame can be taken exactly when all are pinned;
* `Full`, `ReportsErrors`: `BufferFull` says that the buffer is full, and every other error is returned
  as it is;
* `Undisturbed`: no disk operation of the fetch fails; **`reportsErrors_iff`**.
-/

namespace RarmDb

open BufferPoolManager

variable {n : ℕ}

/-! ## Frames without a pin -/

/-- A frame without a pin can be taken. -/
def Available (b : BufferPoolManager n) : Prop :=
  ∀ f, (b.frames f).pinCount = 0 → f ∈ b.freeFrames ∨ b.evictor.Mem f

namespace Available

variable {b b' : BufferPoolManager n} {f : Fin n} {p : PageId}

theorem new (n : ℕ) (d : Disk) : Available (BufferPoolManager.new n d) :=
  fun f _ => .inl (List.mem_reverse.mpr (List.mem_finRange f))

theorem congr (h : Available b) (hpin : ∀ g, (b'.frames g).pinCount = (b.frames g).pinCount)
    (hfree : b'.freeFrames = b.freeFrames) (hevictor : b'.evictor = b.evictor) : Available b' := by
  intro g hg
  rw [hfree, hevictor]
  exact h g ((hpin g).symm.trans hg)

theorem modifyFrame (h : Available b) {change : Frame → Frame}
    (hchange : ∀ fr, (change fr).pinCount = fr.pinCount) : Available (b.modifyFrame f change) := by
  refine h.congr (fun g => ?_) rfl rfl
  by_cases hg : g = f
  · rw [hg, modifyFrame_self, hchange]
  · rw [modifyFrame_of_ne hg]

theorem assigned (h : Available b) (ha : Assigned b b' f p) : Available b' := by
  intro g hg
  have hne : g ≠ f := by
    rintro rfl
    cases ha.pinCount.symm.trans hg
  rw [ha.frames g hne] at hg
  rw [ha.free, ha.evictor, and_iff_right hne, and_iff_right hne]
  exact h g hg

theorem pinFrame (h : Available b) (f : Fin n) : Available (b.pinFrame f) := by
  intro g hg
  have hne : g ≠ f := by
    rintro rfl
    rw [pinFrame_frames, Function.update_self] at hg
    exact absurd hg (Nat.succ_ne_zero _)
  rw [pinFrame_frames, Function.update_of_ne hne] at hg
  rw [mem_pinFrame, and_iff_left fun hf => hne hf.1, pinFrame_eq]
  exact h g hg

theorem unpinned (h : Available b) (hpin : (b.frames f).pinCount ≠ 0) : Available (b.unpinned f) := by
  intro g hg
  rw [mem_unpinned, unpinned_eq]
  rw [unpinned_frames] at hg
  by_cases hgf : g = f
  · subst hgf
    rw [Function.update_self] at hg
    dsimp only at hg
    exact .inr (.inr ⟨rfl, by omega⟩)
  · rw [Function.update_of_ne hgf] at hg
    exact (h g hg).imp_right .inl

end Available

/-- **Every operation that returns** keeps a frame without a pin available. -/
theorem run_available {w w' : PoolWorld n} {io : Faults} {op : PoolOp} {out : PoolOut} (hs : Sane w)
    (h : Available w.bpm) (hrun : w.run io op = .ret (out, w')) : Available w'.bpm := by
  have hlock : ∀ (mode : Mode) fr, (withGuard fr mode).pinCount = fr.pinCount := by
    intro mode fr
    cases mode <;> rfl
  cases run_effect hs hrun with
  | @hit p f mode => exact (h.pinFrame f).modifyFrame (hlock mode)
  | full => exact h
  | failed _ _ ho _ hmissed => exact h.assigned (hmissed.assigned ho)
  | @missed p f mode b₁ b' _ _ ho _ hmissed =>
    exact (h.assigned (hmissed.assigned ho)).modifyFrame (hlock mode)
  | unallocated => exact h.congr (fun _ => rfl) rfl rfl
  | uncreated _ _ _ ho _ hcreated => exact h.assigned (hcreated.assigned ho)
  | created _ _ _ ho _ hcreated => exact (h.assigned (hcreated.assigned ho)).modifyFrame (hlock .write)
  | load => exact h
  | store | markDirty =>
    dsimp only
    exact h.modifyFrame fun _ => rfl
  | @drop i g hg =>
    obtain ⟨held, hl⟩ := hs.locked
    dsimp only
    rw [dropped, unlockData_eq]
    refine (h.unpinned (hl.pinCount_ne_zero (List.mem_of_getElem? hg))).modifyFrame fun fr => ?_
    cases g.mode <;> rfl

theorem PoolRun.available {d : Disk} {calls : List (PoolCall n)} {w : PoolWorld n}
    (h : PoolRun (PoolWorld.init n d) calls w) : Available w.bpm := by
  induction h with
  | nil => exact Available.new n d
  | snoc run step ih => exact run_available run.sane ih step

/-- **No frame can be taken** exactly when no frame is free and all are pinned. -/
theorem nextFrame_eq_none_iff {b : BufferPoolManager n} (hu : Usable b) (h : Available b) :
    b.nextFrame = none ↔ b.freeFrames = [] ∧ ∀ f, (b.frames f).pinCount ≠ 0 := by
  unfold nextFrame
  cases hfree : b.freeFrames with
  | cons f rest => exact iff_of_false nofun fun hn => nomatch hn.1
  | nil =>
    dsimp only
    constructor
    · intro hnone
      refine ⟨rfl, fun f hpin => ?_⟩
      have hmem := (h f hpin).resolve_left (by rw [hfree]; exact List.not_mem_nil)
      have hsome := ClockEvictor.victim_isSome hmem
      rw [hnone] at hsome
      cases hsome
    · rintro ⟨-, hpin⟩
      cases hvictim : b.evictor.victim.1 with
      | none => rfl
      | some f =>
        have hv : b.evictor.victim = (some f, b.evictor.victim.2) := Prod.ext hvictim rfl
        exact absurd (hu.evictor f (ClockEvictor.victim_some hv).1).2 (hpin f)

/-! ## The errors of a fetch -/

/-- The buffer is full for a page: it is not cached, no free frame remains, and every frame is pinned. -/
def Full (b : BufferPoolManager n) (p : PageId) : Prop :=
  b.pageTable p = none ∧ b.freeFrames = [] ∧ ∀ f, (b.frames f).pinCount ≠ 0

/-- A fetch returns `BufferFull` exactly when the buffer is full, and every error of
`fetch_and_pin_frame` as it is. -/
structure ReportsErrors (w : PoolWorld n) (io : Faults) (p : PageId) (mode : Mode) : Prop where
  full : (∃ w', w.fetchPage io p mode = .ret (.error .bufferFull, w')) ↔ Full w.bpm p
  own : ∀ e b', w.bpm.fetchAndPinFrame io p = .ret (.error e, b') →
    w.fetchPage io p mode = .ret (.error e, { w with bpm := b' })

/-- No disk operation of a fetch fails: the page is cached, or the fetch finds no frame, waits, or can read
the page and write the one that it evicts. -/
def Undisturbed (b : BufferPoolManager n) (io : Faults) (p : PageId) : Prop :=
  b.pageTable p ≠ none ∨ ∀ f, b.nextFrame = some f →
    b.Waits p f ∨ io.readAt p = none ∧ Writable io (b.toFlush f)

section Errors

variable {w : PoolWorld n} {io : Faults} {p : PageId} {mode : Mode} {b : BufferPoolManager n}
  {e : BufferPoolError}

theorem fetchPage_of_error (h : w.bpm.fetchAndPinFrame io p = .ret (.error e, b)) :
    w.fetchPage io p mode = .ret (.error .bufferFull, { w with bpm := b }) := by
  unfold PoolWorld.fetchPage
  rw [h]
  rfl

/-- A fetch that finds its frame, or never returns, has no error to report. -/
theorem reportsErrors_of_ok (h : ∀ e b, w.bpm.fetchAndPinFrame io p ≠ .ret (.error e, b))
    (hfull : ¬ Full w.bpm p) : ReportsErrors w io p mode where
  full := by
    refine iff_of_false ?_ hfull
    rintro ⟨w', hrun⟩
    obtain ⟨⟨r, b⟩, hfetch, hrun⟩ := Exec.bind_eq_ret.mp hrun
    cases r with
    | error e => exact h e b hfetch
    | ok f => cases (returnGuard_ret hrun).1
  own e b hret := absurd hret (h e b)

theorem not_reportsErrors (h : w.bpm.fetchAndPinFrame io p = .ret (.error e, b))
    (hfull : ¬ Full w.bpm p) : ¬ ReportsErrors w io p mode :=
  fun hr => hfull (hr.full.mp ⟨_, fetchPage_of_error h⟩)

end Errors

/-- **The errors of a fetch are reported** exactly when no disk operation fails, in every state of a run. -/
theorem reportsErrors_iff {d : Disk} {calls : List (PoolCall n)} {w : PoolWorld n}
    (h : PoolRun (PoolWorld.init n d) calls w) (io : Faults) (p : PageId) (mode : Mode) :
    ReportsErrors w io p mode ↔ Undisturbed w.bpm io p := by
  have hs := h.sane
  have hnone := nextFrame_eq_none_iff hs.usable h.available
  cases hp : w.bpm.pageTable p with
  | some f =>
    have hcached : w.bpm.pageTable p ≠ none := by
      rw [hp]
      exact Option.some_ne_none f
    refine iff_of_true (reportsErrors_of_ok (fun e b hret => ?_) fun hfull => hcached hfull.1) (.inl hcached)
    rcases fetchAndPinFrame_cached io hp with ⟨-, hfetch⟩ | ⟨-, hfetch⟩
    all_goals cases hfetch.symm.trans hret
  | none =>
    cases hnext : w.bpm.nextFrame with
    | none =>
      have hfull : Full w.bpm p := ⟨hp, hnone.mp hnext⟩
      have hfetch := fetchAndPinFrame_full io hp hnext
      refine iff_of_true ⟨iff_of_true ⟨_, fetchPage_of_error hfetch⟩ hfull, ?_⟩ (.inr ?_)
      · intro e b hret
        cases hfetch.symm.trans hret
        exact fetchPage_of_error hfetch
      · intro f hf
        cases hnext.symm.trans hf
    | some f =>
      have hfull : ¬ Full w.bpm p := fun hf => nomatch (hnone.mpr hf.2).symm.trans hnext
      have hiff : Undisturbed w.bpm io p ↔
          w.bpm.Waits p f ∨ io.readAt p = none ∧ Writable io (w.bpm.toFlush f) := by
        constructor
        · exact fun hu => hu.resolve_left (fun hne => hne hp) f hnext
        · intro hu
          refine .inr fun g hg => ?_
          obtain rfl := Option.some.inj (hnext.symm.trans hg)
          exact hu
      obtain ⟨b₁, ho, -, hmissed⟩ := fetchAndPinFrame_missed hs.usable hs.canWrite io hp hnext
      rw [hiff]
      generalize hfetch : w.bpm.fetchAndPinFrame io p = x at hmissed
      cases hmissed with
      | waits hw =>
        refine iff_of_true (reportsErrors_of_ok (fun e b hret => ?_) hfull) (.inl hw)
        cases hfetch.symm.trans hret
      | unread hw hr =>
        refine iff_of_false (not_reportsErrors hfetch hfull) (not_or.mpr ⟨hw, fun hu => ?_⟩)
        cases hr.symm.trans hu.1
      | unwritten hw _ hv hfail =>
        refine iff_of_false (not_reportsErrors hfetch hfull) (not_or.mpr ⟨hw, fun hu => ?_⟩)
        cases hfail.symm.trans (hu.2 _ _ hv)
      | found hw hr hwrite =>
        refine iff_of_true (reportsErrors_of_ok (fun e b hret => ?_) hfull) (.inr ⟨hr, hwrite⟩)
        cases hfetch.symm.trans hret

/-- A table file with one page. -/
def onePage : Disk := Disk.ofFiles (fun _ => Buffer.const 8192 0) fun _ => 1

/-- The only frame is held by a guard, and another page is fetched: the buffer is full. -/
theorem reportsErrors_iff_full : ∃ calls w, PoolRun (PoolWorld.init 1 onePage) calls w ∧
    Full w.bpm ⟨2, 0⟩ ∧
      (ReportsErrors w Faults.none ⟨2, 0⟩ .write ↔ Undisturbed w.bpm Faults.none ⟨2, 0⟩) := by
  have hrun := PoolRun.nil.snoc
    (rfl : (PoolWorld.init 1 onePage).run Faults.none (.fetchPage ⟨1, 0⟩ .read) = .ret _)
  refine ⟨_, _, hrun, ⟨rfl, rfl, ?_⟩, reportsErrors_iff hrun Faults.none ⟨2, 0⟩ .write⟩
  decide

/-- The disk fails to read. -/
def readFails : Faults := ⟨fun _ => some "input/output error", fun _ => none⟩

/-- **A page that cannot be read** is reported as a full buffer, although every frame was free. -/
theorem failed_read_reported_full : ∃ w',
    (PoolWorld.init 2 onePage).fetchPage readFails ⟨1, 0⟩ .read = .ret (.error .bufferFull, w') ∧
      (PoolWorld.init 2 onePage).bpm.freeFrames = [1, 0] ∧
        ¬ ReportsErrors (PoolWorld.init 2 onePage) readFails ⟨1, 0⟩ .read := by
  refine ⟨_, rfl, rfl, fun hr => ?_⟩
  have hfull := hr.full.mp ⟨_, rfl⟩
  cases hfull.2.1

end RarmDb
