import RarmDb.Pool.Effect

/-!
# How a creation fails

* `Untouched`: the pool and the pages on disk are those before a call;
* `CreatesCleanly`: `create_page` returns, and has not touched the pool if it returns an error;
* `CanCreate`: it fails to allocate, or has a frame whose page can be flushed;
* **`createsCleanly_iff`**: these are the same in every state of a run;
* `createPage_panics`: without a frame that can be taken the call panics.
-/

namespace RarmDb

open BufferPoolManager

variable {n : ℕ}

/-- What later operations can see of the pool, but for the next page index, is as before. -/
structure Untouched (w w' : PoolWorld n) : Prop where
  guards : w'.guards = w.guards
  frames : w'.bpm.frames = w.bpm.frames
  pageTable : w'.bpm.pageTable = w.bpm.pageTable
  freeFrames : w'.bpm.freeFrames = w.bpm.freeFrames
  evictor : w'.bpm.evictor = w.bpm.evictor
  fetches : w'.bpm.fetches = w.bpm.fetches
  flushes : w'.bpm.flushes = w.bpm.flushes
  pages : w'.bpm.diskManager.pages = w.bpm.diskManager.pages
  stored : w'.bpm.diskManager.stored = w.bpm.diskManager.stored

/-- `create_page` returns, and has not touched the pool if it returns an error. -/
def CreatesCleanly (w : PoolWorld n) (io : Faults) (tableId : UInt32) : Prop :=
  ∃ out w', w.createPage io tableId = .ret (out, w') ∧ ∀ e, out = .error e → Untouched w w'

/-- The new page cannot be written, or there is a frame to take and its page can be flushed. -/
def CanCreate (b : BufferPoolManager n) (io : Faults) (tableId : UInt32) : Prop :=
  (io.writeAt (b.diskManager.nextPage tableId)).isSome = true ∨
    ∃ f, b.nextFrame = some f ∧ ∀ v old, b.toFlush f = some (v, old) → io.writeAt v = none

section Creation

variable {w w' : PoolWorld n} {io : Faults} {tableId : UInt32} {f : Fin n} {p : PageId}

/-- A page that was given a frame has a pin that was not there. -/
theorem Untouched.not_assigned (h : Untouched w w') (ha : Assigned w.bpm w'.bpm f p) : False := by
  have hpin := ha.pinCount
  rw [h.frames, ha.unpinned] at hpin
  cases hpin

theorem createPage_of_ok {b : BufferPoolManager n}
    (hcreate : w.bpm.createAndPinFrame io tableId = .ret (.ok (p, f), b)) (hwrite : (b.frames f).canWrite) :
    CreatesCleanly w io tableId := by
  unfold CreatesCleanly PoolWorld.createPage
  rw [hcreate, Exec.ret_bind]
  dsimp only
  rw [returnGuard_write hwrite]
  exact ⟨_, _, rfl, fun e he => (by cases he)⟩

/-- **A creation that cannot end well** panics, or leaves its page with a pin that nobody has. -/
theorem createPage_cases (h : Sane w) (io : Faults) (tableId : UInt32) :
    CreatesCleanly w io tableId ∧ CanCreate w.bpm io tableId ∨
      ¬ CanCreate w.bpm io tableId ∧ (w.createPage io tableId = .panic ∨
        ∃ e w' f, w.createPage io tableId = .ret (.error e, w') ∧
          Assigned w.bpm w'.bpm f (w.bpm.diskManager.nextPage tableId)) := by
  rcases createAndPinFrame_cases h.usable h.canWrite io tableId with
    ⟨e, hw, hret⟩ | ⟨hw, hnext, hret⟩ | ⟨f, r, b, hw, hnext, hret, ha, hwrite, -, hr, hok⟩
  · left
    constructor
    · unfold CreatesCleanly PoolWorld.createPage
      rw [hret, Exec.ret_bind]
      exact ⟨_, _, rfl, fun _ _ => ⟨rfl, rfl, rfl, rfl, rfl, rfl, rfl, rfl, rfl⟩⟩
    · exact .inl (by rw [hw]; rfl)
  · right
    constructor
    · rintro (hsome | ⟨f, hf, -⟩)
      · rw [hw] at hsome
        cases hsome
      · cases hnext.symm.trans hf
    · left
      unfold PoolWorld.createPage
      rw [hret]
      rfl
  · have hcan : CanCreate w.bpm io tableId ↔
        ∀ v old, w.bpm.toFlush f = some (v, old) → io.writeAt v = none := by
      constructor
      · rintro (hsome | ⟨g, hg, hflush⟩)
        · rw [hw] at hsome
          cases hsome
        · obtain rfl := Option.some.inj (hnext.symm.trans hg)
          exact hflush
      · exact fun hflush => .inr ⟨f, hnext, hflush⟩
    rcases hr with rfl | ⟨e, rfl⟩
    · exact .inl ⟨createPage_of_ok hret hwrite, hcan.mpr (hok.mp rfl)⟩
    · refine .inr ⟨fun hc => ?_, .inr ⟨e, { w with bpm := b }, f, ?_, ha⟩⟩
      · cases hok.mpr (hcan.mp hc)
      · unfold PoolWorld.createPage
        rw [hret]
        rfl

end Creation

/-- **`create_page` returns, and touches nothing if it fails,** exactly when it cannot allocate the page,
or finds a frame whose page needs no flush that fails. -/
theorem createsCleanly_iff {d : Disk} {calls : List (PoolCall n)} {w : PoolWorld n}
    (h : PoolRun (PoolWorld.init n d) calls w) (io : Faults) (tableId : UInt32) :
    CreatesCleanly w io tableId ↔ CanCreate w.bpm io tableId := by
  rcases createPage_cases h.sane io tableId with ⟨hclean, hcan⟩ | ⟨hcan, hbad⟩
  · exact iff_of_true hclean hcan
  · refine iff_of_false ?_ hcan
    rintro ⟨out, w', hret, hsame⟩
    rcases hbad with hpanic | ⟨e, w'', f, hret', ha⟩
    · cases hpanic.symm.trans hret
    · cases hret'.symm.trans hret
      exact (hsame e rfl).not_assigned ha

/-- The disk fails to write the first page. -/
def firstFails : Faults := ⟨fun _ => none, fun p => if p.pageIndex = 0 then some "disk full" else none⟩

/-- The only frame holds the first page, dirty and without a guard, and the page cannot be written. -/
theorem createsCleanly_iff_dirty : ∃ calls w, PoolRun (PoolWorld.init 1 emptyTable) calls w ∧
    (w.bpm.frames 0).isDirty = true ∧ (CreatesCleanly w firstFails 1 ↔ CanCreate w.bpm firstFails 1) := by
  have hrun := ((PoolRun.nil.snoc
    (rfl : (PoolWorld.init 1 emptyTable).run Faults.none (.createPage 1) = .ret _)).snoc
    (rfl : PoolWorld.run Faults.none _ (.markDirty 0) = .ret _)).snoc
    (rfl : PoolWorld.run Faults.none _ (.drop 0) = .ret _)
  exact ⟨_, _, hrun, rfl, createsCleanly_iff hrun firstFails 1⟩

/-- **With a guard on its only frame** the pool panics. -/
theorem createPage_panics : ∃ calls w, PoolRun (PoolWorld.init 1 emptyTable) calls w ∧
    w.createPage Faults.none 1 = .panic ∧ ¬ CreatesCleanly w Faults.none 1 := by
  refine ⟨_, _, PoolRun.nil.snoc
    (rfl : (PoolWorld.init 1 emptyTable).run Faults.none (.createPage 1) = .ret _), rfl, ?_⟩
  rintro ⟨out, w', hret, -⟩
  cases hret

end RarmDb
