import RarmDb.Pool.Model

/-!
# Frames change hands

What the sections of the pool do to the state.

* `pinFrame_frames`, `mem_pinFrame`, `unpinFrame_eq`: pins and the evictor;
* `detach`, `image`, `announced`: the state after an eviction; **`evictPage_eq`**,
  **`availableFrame_victim`**, `createFrame_victim`;
* `finishFetch_eq`, `finishFlush_eq`: the ends of an operation.
-/

namespace RarmDb

namespace BufferPoolManager

variable {n : ℕ} {b : BufferPoolManager n} {f g : Fin n} {e : ClockEvictor n} {p v : PageId}

/-! ## Changing a frame -/

@[simp] theorem modifyFrame_self (b : BufferPoolManager n) (f : Fin n) (change : Frame → Frame) :
    (b.modifyFrame f change).frames f = change (b.frames f) := Function.update_self ..

@[simp] theorem modifyFrame_of_ne (h : g ≠ f) (change : Frame → Frame) :
    (b.modifyFrame f change).frames g = b.frames g := Function.update_of_ne h ..

theorem modifyFrame_pageId {change : Frame → Frame} (h : ∀ fr, (change fr).pageId = fr.pageId)
    (g : Fin n) : ((b.modifyFrame f change).frames g).pageId = (b.frames g).pageId := by
  by_cases hg : g = f
  · rw [hg, modifyFrame_self, h]
  · rw [modifyFrame_of_ne hg]

/-! ## Pins -/

theorem pinFrame_frames (b : BufferPoolManager n) (f : Fin n) :
    (b.pinFrame f).frames =
      Function.update b.frames f { b.frames f with pinCount := (b.frames f).pinCount + 1 } := by
  unfold pinFrame incrementPinCount
  dsimp only
  split_ifs <;> rfl

theorem pinFrame_pageId (b : BufferPoolManager n) (f g : Fin n) :
    ((b.pinFrame f).frames g).pageId = (b.frames g).pageId := by
  rw [pinFrame_frames]
  by_cases hg : g = f
  · rw [hg, Function.update_self]
  · rw [Function.update_of_ne hg]

theorem mem_pinFrame :
    (b.pinFrame f).evictor.Mem g ↔ b.evictor.Mem g ∧ ¬ (g = f ∧ (b.frames f).pinCount = 0) := by
  unfold pinFrame incrementPinCount
  dsimp only
  split_ifs with h
  · change (b.evictor.remove f).Mem g ↔ _
    rw [ClockEvictor.mem_remove, and_comm, and_iff_left h]
  · change b.evictor.Mem g ↔ _
    rw [and_iff_left fun hg => h hg.2]

theorem pinFrame_eq (b : BufferPoolManager n) (f : Fin n) :
    b.pinFrame f =
      { b with frames := (b.pinFrame f).frames, evictor := (b.pinFrame f).evictor } := by
  unfold pinFrame incrementPinCount
  dsimp only
  split_ifs <;> rfl

/-- The state after a pin was released. -/
def unpinned (b : BufferPoolManager n) (f : Fin n) : BufferPoolManager n :=
  let b' := b.modifyFrame f fun fr => { fr with pinCount := fr.pinCount - 1 }
  if (b.frames f).pinCount = 1 then b'.evictorAdd f else b'

theorem unpinFrame_eq (h : (b.frames f).pinCount ≠ 0) : b.unpinFrame f = .ret (b.unpinned f) := by
  unfold unpinFrame decrementPinCount unpinned
  rw [if_pos (Nat.pos_of_ne_zero h), Exec.ret_bind]
  dsimp only
  split_ifs <;> rfl

theorem unpinned_frames (b : BufferPoolManager n) (f : Fin n) :
    (b.unpinned f).frames =
      Function.update b.frames f { b.frames f with pinCount := (b.frames f).pinCount - 1 } := by
  unfold unpinned
  dsimp only
  split_ifs <;> rfl

theorem mem_unpinned :
    (b.unpinned f).evictor.Mem g ↔ b.evictor.Mem g ∨ g = f ∧ (b.frames f).pinCount = 1 := by
  unfold unpinned
  dsimp only
  split_ifs with h
  · change (b.evictor.add f).Mem g ↔ _
    rw [ClockEvictor.mem_add, or_comm, and_iff_left h]
  · change b.evictor.Mem g ↔ _
    rw [or_iff_left fun hg => h hg.2]

theorem unpinned_eq (b : BufferPoolManager n) (f : Fin n) :
    b.unpinned f =
      { b with frames := (b.unpinned f).frames, evictor := (b.unpinned f).evictor } := by
  unfold unpinned
  dsimp only
  split_ifs <;> rfl

/-! ## Evictions -/

/-- The pool without the page `v`, whose frame was taken by the evictor. -/
def detach (b : BufferPoolManager n) (e : ClockEvictor n) (v : PageId) : BufferPoolManager n :=
  { b with evictor := e, pageTable := Function.update b.pageTable v none }

/-- What has to be flushed when a frame with the page `v` is evicted. -/
def image (fr : Frame) (v : PageId) : Option (PageId × Page) :=
  if fr.isDirty then some (v, fr.data) else none

/-- A channel was added for what has to be flushed. -/
def announced (b : BufferPoolManager n) : Option (PageId × Page) → BufferPoolManager n
  | some (v, _) => b.insertFlush v
  | none => b

theorem detachPage_eq (hv : (b.frames f).pageId = some v)
    (hread : (b.frames f).isDirty = true → (b.frames f).canRead) :
    b.detachPage f = .ret (image (b.frames f) v,
      { b with pageTable := Function.update b.pageTable v none }) := by
  unfold detachPage
  rw [hv, Exec.unwrap_some, Exec.ret_bind, image]
  dsimp only
  split_ifs with hd hr
  · rfl
  · exact absurd (hread hd) hr
  · rfl

/-- **A victim** is taken out of the page table. -/
theorem evictPage_eq (hvictim : b.evictor.victim = (some f, e)) (hv : (b.frames f).pageId = some v)
    (hread : (b.frames f).canRead) :
    b.evictPage = .ret (.ok (f, image (b.frames f) v), b.detach e v) := by
  have hdetach : ({ b with evictor := e } : BufferPoolManager n).detachPage f =
      .ret (image (b.frames f) v, b.detach e v) := detachPage_eq hv fun _ => hread
  unfold evictPage
  rw [hvictim]
  dsimp only
  rw [hdetach]
  rfl

theorem evictPage_none (hvictim : b.evictor.victim = (none, e)) :
    b.evictPage = .ret (.error .bufferFull, { b with evictor := e }) := by
  unfold evictPage
  rw [hvictim]

theorem announceFlush_eq (b : BufferPoolManager n) (f : Fin n) (v : PageId) :
    b.announceFlush f (image (b.frames f) v) = .ret (b.announced (image (b.frames f) v)) := by
  unfold announceFlush image
  cases (b.frames f).isDirty <;> rfl

theorem availableFrame_free {rest : List (Fin n)} (h : b.freeFrames = f :: rest) :
    b.availableFrame = .ret (some (f, none), { b with freeFrames := rest }) := by
  unfold availableFrame
  rw [h]

theorem availableFrame_victim (hfree : b.freeFrames = []) (hvictim : b.evictor.victim = (some f, e))
    (hv : (b.frames f).pageId = some v) (hread : (b.frames f).canRead) :
    b.availableFrame = .ret (some (f, image (b.frames f) v),
      (b.detach e v).announced (image (b.frames f) v)) := by
  have hflush : (b.detach e v).announceFlush f (image (b.frames f) v) =
      .ret ((b.detach e v).announced (image (b.frames f) v)) := announceFlush_eq (b.detach e v) f v
  unfold availableFrame
  rw [hfree]
  dsimp only
  rw [evictPage_eq hvictim hv hread, Exec.ret_bind]
  dsimp only
  rw [hflush]
  rfl

theorem availableFrame_none (hfree : b.freeFrames = []) (hvictim : b.evictor.victim = (none, e)) :
    b.availableFrame = .ret (none, { b with evictor := e }) := by
  unfold availableFrame
  split
  · next h =>
    rw [hfree] at h
    cases h
  · rw [evictPage_none hvictim]
    rfl

theorem createFrame_free {rest : List (Fin n)} (h : b.freeFrames = f :: rest) :
    b.createFrame = .ret ((f, none), { b with freeFrames := rest }) := by
  unfold createFrame
  rw [h]

theorem createFrame_victim (hfree : b.freeFrames = []) (hvictim : b.evictor.victim = (some f, e))
    (hv : (b.frames f).pageId = some v) (hread : (b.frames f).canRead) :
    b.createFrame = .ret ((f, some (image (b.frames f) v)), b.detach e v) := by
  unfold createFrame
  rw [hfree]
  dsimp only
  rw [evictPage_eq hvictim hv hread]
  rfl

/-! ## The ends of an operation -/

theorem finishFetch_eq (b : BufferPoolManager n) (p : PageId) :
    b.finishFetch p =
      { b with fetches := Function.update b.fetches p none, sent := (b.finishFetch p).sent } := by
  unfold finishFetch
  split
  · rfl
  · next h =>
    rw [← h, Function.update_eq_self]

theorem finishFlush_eq (b : BufferPoolManager n) (p : PageId) :
    b.finishFlush p =
      { b with flushes := Function.update b.flushes p none, sent := (b.finishFlush p).sent } := by
  unfold finishFlush
  split
  · rfl
  · next h =>
    rw [← h, Function.update_eq_self]

end BufferPoolManager

end RarmDb
