import RarmDb.Pool.Invariant

/-!
# The calls of the pool

* **`exists_obtained`**: both calls take the next frame;
* `fetching`, `loaded`, `settled`: the states of a fetch that misses;
* `allocated`, `registered`, `flushed`: the states of a creation;
* **`reassigned_settled`**, **`reassigned_created`**: a frame was reassigned at their ends.
-/

namespace RarmDb

namespace BufferPoolManager

variable {n : ℕ} {b b₁ b' : BufferPoolManager n} {m : PageId → Page} {W : Fin n → Prop}
  {f g : Fin n} {p q v : PageId} {img : Option (PageId × Page)}

/-! ## Taking a frame -/

/-- The frame of a new page is registered. -/
def registered (b : BufferPoolManager n) (img : Option (PageId × Page)) (p : PageId) (f : Fin n) :
    BufferPoolManager n :=
  let b := ((b.pinFrame f).announced img).modifyFrame f fun fr => { fr with pageId := some p }
  { b with pageTable := Function.update b.pageTable p (some f) }

/-- **The next frame** is taken by both calls, with what it has to flush. -/
theorem exists_obtained (h : Usable b) (hlock : ∀ f, (b.frames f).pinCount = 0 → (b.frames f).canWrite)
    (hnext : b.nextFrame = some f) :
    ∃ b₁, Obtained b f b₁ ∧ (b₁.fetches = b.fetches ∧ b₁.flushes = b.flushes) ∧
      b.availableFrame = .ret (some (f, b.toFlush f), b₁.announced (b.toFlush f)) ∧
        ∃ evicted, b.createFrame = .ret ((f, evicted), b₁) ∧ evicted.join = b.toFlush f ∧
          ∀ p, (b₁.pinFrame f).registerCreated p f evicted =
            .ret (registered b₁ (b.toFlush f) p f) := by
  rcases nextFrame_cases h hnext with ⟨rest, hfree, hflush, ho⟩ | ⟨e, v, hfree, hvictim, hv, ho⟩
  · refine ⟨_, ho, ⟨rfl, rfl⟩, ?_, none, createFrame_free hfree, hflush.symm, fun p => ?_⟩
    · rw [availableFrame_free hfree, hflush]
      rfl
    · rw [hflush]
      rfl
  · have hflush : b.toFlush f = image (b.frames f) v := by rw [toFlush, hv]; rfl
    have hread := (hlock f ho.pinCount).1
    refine ⟨_, ho, ⟨rfl, rfl⟩, ?_, _, createFrame_victim hfree hvictim hv hread, hflush.symm,
      fun p => ?_⟩
    · rw [availableFrame_victim hfree hvictim hv hread, hflush]
    · have himg : image (((b.detach e v).pinFrame f).frames f) v = image (b.frames f) v := by
        rw [pinFrame_frames, Function.update_self]
        rfl
      have hannounce := announceFlush_eq ((b.detach e v).pinFrame f) f v
      rw [himg] at hannounce
      unfold registerCreated
      dsimp only
      rw [hannounce, hflush]
      rfl

theorem toFlush_eq_some_iff {bytes : Page} : b.toFlush f = some (v, bytes) ↔
    (b.frames f).pageId = some v ∧ (b.frames f).isDirty = true ∧ (b.frames f).data = bytes := by
  rw [toFlush, Option.bind_eq_some_iff]
  unfold image
  constructor
  · rintro ⟨w, hw, himg⟩
    split_ifs at himg with hd
    cases himg
    exact ⟨hw, hd, rfl⟩
  · rintro ⟨hv, hd, rfl⟩
    exact ⟨v, hv, if_pos hd⟩

theorem toFlush_eq_some (h : PoolInv b m W) {bytes : Page} :
    b.toFlush f = some (v, bytes) ↔
      b.pageTable v = some f ∧ (b.frames f).isDirty = true ∧ (b.frames f).data = bytes := by
  rw [h.table, toFlush_eq_some_iff]

/-! ## Flushing the old page -/

theorem pages_flush (h : PoolInv b m W) (d : Disk) (q : PageId) :
    ((b.toFlush f).elim d fun x => d.setPage x.1 x.2).pages q =
      if b.pageTable q = some f ∧ (b.frames f).isDirty = true then (b.frames f).data
      else d.pages q := by
  cases himg : b.toFlush f with
  | none =>
    rw [if_neg]
    · rfl
    · rintro ⟨hq, hd⟩
      rw [(toFlush_eq_some h).mpr ⟨hq, hd, rfl⟩] at himg
      cases himg
  | some x =>
    obtain ⟨hx, hd, hbytes⟩ := (toFlush_eq_some h).mp himg
    change Function.update d.pages x.1 x.2 q = _
    by_cases hq : q = x.1
    · subst hq
      rw [Function.update_self, if_pos ⟨hx, hd⟩, hbytes]
    · rw [Function.update_of_ne hq, if_neg]
      rintro ⟨hn, -⟩
      rw [h.table] at hn hx
      exact hq (Option.some.inj (hn.symm.trans hx))

theorem stored_flush (h : PoolInv b m W) {d : Disk}
    (hd : ∀ q, b.diskManager.stored q = true → d.stored q = true) :
    ((b.toFlush f).elim d fun x => d.setPage x.1 x.2).stored = d.stored := by
  cases himg : b.toFlush f with
  | none => rfl
  | some x =>
    have hx : d.stored x.1 = true := hd x.1 (h.stored x.1 f ((toFlush_eq_some h).mp himg).1)
    change Function.update d.stored x.1 true = d.stored
    rw [← hx, Function.update_eq_self]

theorem flushes_flush (hnone : ∀ q, b.flushes q = none) (img : Option (PageId × Page))
    (q : PageId) : (img.elim (b.announced img).flushes fun x =>
      Function.update (b.announced img).flushes x.1 none) q = none := by
  rcases img with - | ⟨v, old⟩
  · exact hnone q
  · change Function.update (Function.update b.flushes v _) v none q = none
    rw [Function.update_idem]
    by_cases hq : q = v
    · subst hq
      exact Function.update_self ..
    · rw [Function.update_of_ne hq, hnone]

/-! ## A fetch -/

/-- The state in which a fetch reads the page. -/
def fetching (b₀ : BufferPoolManager n) (img : Option (PageId × Page)) (p : PageId) (f : Fin n) :
    BufferPoolManager n :=
  (((b₀.announced img).beginFetch p f).pinFrame f).insertFetch p

theorem fetching_frames (hframes : b₁.frames = b.frames) (hpin : (b.frames f).pinCount = 0)
    (img : Option (PageId × Page)) (p : PageId) :
    (fetching b₁ img p f).frames = Function.update b.frames f
      { b.frames f with pageId := some p, isDirty := false, pinCount := 1 } := by
  have hann : (b₁.announced img).frames = b.frames := by
    rw [← hframes]
    cases img <;> rfl
  unfold fetching insertFetch
  dsimp only
  rw [pinFrame_frames, beginFetch, modifyFrame_self]
  unfold modifyFrame
  dsimp only
  rw [hann, Function.update_idem, hpin]

/-- The state after the page was read, loaded, and the old page flushed. -/
def settled (b : BufferPoolManager n) (img : Option (PageId × Page)) (p : PageId) (f : Fin n)
    (bytes : Page) : BufferPoolManager n :=
  let b := (b.modifyFrame f fun fr => { fr with data := bytes, writer := true }).finishFetch p
  match img with
  | some (v, old) =>
    ({ b with diskManager := b.diskManager.setPage v old }.finishFlush v).releaseWrite f
  | none => b.releaseWrite f

/-- The pool after a fetch has loaded the page, and written what had to be flushed, or not. -/
def loaded (b : BufferPoolManager n) (img : Option (PageId × Page)) (p : PageId) (f : Fin n)
    (bytes : Page) (diskManager : Disk) : BufferPoolManager n :=
  let b := (b.modifyFrame f fun fr => { fr with data := bytes, writer := true }).finishFetch p
  match img with
  | some (v, _) => ({ b with diskManager }.finishFlush v).releaseWrite f
  | none => { b with diskManager }.releaseWrite f

theorem loaded_frames (b : BufferPoolManager n) (img : Option (PageId × Page)) (p : PageId)
    (f : Fin n) (bytes : Page) (d : Disk) : (loaded b img p f bytes d).frames =
      Function.update b.frames f { b.frames f with data := bytes, writer := false } := by
  unfold loaded
  dsimp only
  rw [finishFetch_eq]
  cases img with
  | none =>
    unfold releaseWrite modifyFrame
    dsimp only
    rw [Function.update_self, Function.update_idem]
  | some x =>
    dsimp only
    rw [finishFlush_eq]
    unfold releaseWrite modifyFrame
    dsimp only
    rw [Function.update_self, Function.update_idem]

theorem loaded_eq (b : BufferPoolManager n) (img : Option (PageId × Page)) (p : PageId)
    (f : Fin n) (bytes : Page) (d : Disk) : loaded b img p f bytes d =
      { b with
        frames := (loaded b img p f bytes d).frames
        fetches := Function.update b.fetches p none
        flushes := img.elim b.flushes fun x => Function.update b.flushes x.1 none
        diskManager := d
        sent := (loaded b img p f bytes d).sent } := by
  unfold loaded
  dsimp only
  rw [finishFetch_eq]
  cases img with
  | none => rfl
  | some x =>
    dsimp only
    rw [finishFlush_eq]
    rfl

theorem settled_eq_loaded (b : BufferPoolManager n) (img : Option (PageId × Page)) (p : PageId)
    (f : Fin n) (bytes : Page) : settled b img p f bytes =
      loaded b img p f bytes (img.elim b.diskManager fun x => b.diskManager.setPage x.1 x.2) := by
  unfold settled loaded
  dsimp only
  rw [finishFetch_eq]
  cases img <;> rfl

theorem settled_frames (b : BufferPoolManager n) (img : Option (PageId × Page)) (p : PageId)
    (f : Fin n) (bytes : Page) : (settled b img p f bytes).frames =
      Function.update b.frames f { b.frames f with data := bytes, writer := false } := by
  rw [settled_eq_loaded, loaded_frames]

theorem settled_eq (b : BufferPoolManager n) (img : Option (PageId × Page)) (p : PageId)
    (f : Fin n) (bytes : Page) : settled b img p f bytes =
      { b with
        frames := (settled b img p f bytes).frames
        fetches := Function.update b.fetches p none
        flushes := img.elim b.flushes fun x => Function.update b.flushes x.1 none
        diskManager := img.elim b.diskManager fun x => b.diskManager.setPage x.1 x.2
        sent := (settled b img p f bytes).sent } := by
  rw [settled_eq_loaded]
  exact loaded_eq ..

theorem fetching_eq (b₁ : BufferPoolManager n) (img : Option (PageId × Page)) (p : PageId)
    (f : Fin n) : fetching b₁ img p f =
      { b₁ with
        frames := (fetching b₁ img p f).frames
        evictor := (fetching b₁ img p f).evictor
        pageTable := Function.update b₁.pageTable p (some f)
        fetches := Function.update b₁.fetches p (some (b₁.announced img).nextChannel)
        flushes := (b₁.announced img).flushes
        nextChannel := (b₁.announced img).nextChannel + 1 } := by
  unfold fetching insertFetch
  rw [pinFrame_eq]
  cases img <;> rfl

theorem Obtained.frame_fetching (h : Obtained b f b₁) (img : Option (PageId × Page)) (p : PageId) :
    (fetching b₁ img p f).frames f =
      { b.frames f with pageId := some p, isDirty := false, pinCount := 1 } := by
  rw [fetching_frames h.frames h.pinCount, Function.update_self]

theorem Obtained.disk_fetching (h : Obtained b f b₁) (img : Option (PageId × Page)) (p : PageId) :
    (fetching b₁ img p f).diskManager = b.diskManager := by
  rw [fetching_eq]
  exact h.diskManager

theorem mem_pinFrame_taken (hmem : ∀ g, b₁.evictor.Mem g ↔ g ≠ f ∧ b.evictor.Mem g) (g : Fin n) :
    (b₁.pinFrame f).evictor.Mem g ↔ g ≠ f ∧ b.evictor.Mem g := by
  rw [mem_pinFrame, hmem]
  exact ⟨And.left, fun hg => ⟨hg, fun hf => hg.1 hf.1⟩⟩

theorem mem_fetching (hmem : ∀ g, b₁.evictor.Mem g ↔ g ≠ f ∧ b.evictor.Mem g)
    (img : Option (PageId × Page)) (p : PageId) :
    (fetching b₁ img p f).evictor.Mem g ↔ g ≠ f ∧ b.evictor.Mem g := by
  have hann : (b₁.announced img).evictor = b₁.evictor := by cases img <;> rfl
  change (((b₁.announced img).beginFetch p f).pinFrame f).evictor.Mem g ↔ _
  refine mem_pinFrame_taken (fun g => ?_) g
  change (b₁.announced img).evictor.Mem g ↔ _
  rw [hann, hmem]

/-- **The frame of a finished fetch** holds the page that was read. -/
theorem reassigned_settled (h : PoolInv b m W) (ht : Taken b f b₁) (hp : b.pageTable p = none)
    (hstored : b.diskManager.stored p = true) (bytes : Page) :
    Reassigned b (settled (fetching b₁ (b.toFlush f) p f) (b.toFlush f) p f bytes) f p ∧
      ((settled (fetching b₁ (b.toFlush f) p f) (b.toFlush f) p f bytes).frames f).data = bytes ∧
      (settled (fetching b₁ (b.toFlush f) p f) (b.toFlush f) p f bytes).diskManager.pages p = m p := by
  have hframes : (settled (fetching b₁ (b.toFlush f) p f) (b.toFlush f) p f bytes).frames =
      Function.update b.frames f { b.frames f with
        pageId := some p, isDirty := false, pinCount := 1, data := bytes, writer := false } := by
    rw [settled_frames, fetching_frames ht.frames ht.pinCount, Function.update_self, Function.update_idem]
  refine ⟨?_, by rw [hframes, Function.update_self], ?_⟩
  · constructor
    case unpinned => exact ht.pinCount
    case pageId | pinCount => rw [hframes, Function.update_self]
    case unlocked =>
      rw [hframes, Function.update_self]
      exact ⟨rfl, (h.unlocked f ht.pinCount).2⟩
    case frames =>
      intro g hg
      rw [hframes, Function.update_of_ne hg]
    case table =>
      intro q
      rw [settled_eq, fetching_eq]
      exact (Function.update_apply ..).trans (congrArg (ite _ _) (ht.table q))
    case free =>
      intro g
      rw [settled_eq, fetching_eq]
      exact ht.free g
    case freeNodup =>
      rw [settled_eq, fetching_eq]
      exact ht.freeNodup
    case evictor =>
      intro g
      rw [settled_eq]
      exact mem_fetching ht.evictor ..
    case fetches =>
      intro q
      rw [settled_eq, fetching_eq]
      by_cases hq : q = p
      · subst hq
        exact Function.update_self ..
      · dsimp only
        rw [Function.update_of_ne hq, Function.update_of_ne hq, ht.fetches, h.fetches]
    case flushes =>
      intro q
      rw [settled_eq, fetching_eq]
      exact flushes_flush (fun q => (congrFun ht.flushes q).trans (h.flushes q)) (b.toFlush f) q
    case stored =>
      intro q
      rw [settled_eq, fetching_eq]
      dsimp only
      rw [ht.diskManager, stored_flush h fun _ => id]
      refine ⟨.inr, fun hq => hq.elim ?_ id⟩
      rintro rfl
      exact hstored
    case pages =>
      intro q _
      rw [settled_eq, fetching_eq]
      dsimp only
      rw [ht.diskManager, pages_flush h]
  · rw [settled_eq, fetching_eq]
    dsimp only
    rw [ht.diskManager, pages_flush h, if_neg, h.disk p hp]
    rintro ⟨hf, -⟩
    rw [hp] at hf
    cases hf

/-! ## A new page -/

/-- The disk after `allocate_page`. -/
def allocated (b : BufferPoolManager n) (p : PageId) : BufferPoolManager n :=
  { b with diskManager := (b.diskManager.takeIndex p.tableId).setPage p (Buffer.const 8192 0) }

theorem allocated_inv (h : PoolInv b m W) (hp : b.pageTable p = none) :
    PoolInv (b.allocated p) (Function.update m p (Buffer.const 8192 0)) W := by
  have hne : ∀ {q f}, b.pageTable q = some f → q ≠ p := by
    rintro q f hq rfl
    rw [hp] at hq
    cases hq
  constructor
  case table => exact h.table
  case free => exact h.free
  case freeNodup => exact h.freeNodup
  case unused => exact h.unused
  case evictor => exact h.evictor
  case unlocked => exact h.unlocked
  case writing => exact h.writing
  case fetches => exact h.fetches
  case flushes => exact h.flushes
  case stored =>
    intro q f hq
    exact (Function.update_of_ne (hne hq) ..).trans (h.stored q f hq)
  case data =>
    intro q f hq hw
    rw [Function.update_of_ne (hne hq)]
    exact h.data q f hq hw
  case clean =>
    intro q f hq hw hd
    rw [Function.update_of_ne (hne hq)]
    exact (Function.update_of_ne (hne hq) ..).trans (h.clean q f hq hw hd)
  case disk =>
    intro q hq
    by_cases hqp : q = p
    · subst hqp
      rw [Function.update_self]
      exact Function.update_self ..
    · rw [Function.update_of_ne hqp]
      exact (Function.update_of_ne hqp ..).trans (h.disk q hq)

/-- The state after the old page was flushed. -/
def flushed (b : BufferPoolManager n) : Option (PageId × Page) → BufferPoolManager n
  | some (v, old) => { b with diskManager := b.diskManager.setPage v old }.finishFlush v
  | none => b

theorem registered_frames (hframes : b₁.frames = b.frames) (hpin : (b.frames f).pinCount = 0)
    (img : Option (PageId × Page)) (p : PageId) :
    (registered b₁ img p f).frames =
      Function.update b.frames f { b.frames f with pageId := some p, pinCount := 1 } := by
  have hann : ((b₁.pinFrame f).announced img).frames = (b₁.pinFrame f).frames := by
    cases img <;> rfl
  unfold registered modifyFrame
  dsimp only
  rw [hann, pinFrame_frames, Function.update_idem, Function.update_self, hframes, hpin]

theorem Obtained.frame_registered (h : Obtained b f b₁) (img : Option (PageId × Page)) (p : PageId) :
    (registered b₁ img p f).frames f = { b.frames f with pageId := some p, pinCount := 1 } := by
  rw [registered_frames h.frames h.pinCount, Function.update_self]

theorem registered_eq (b₁ : BufferPoolManager n) (img : Option (PageId × Page)) (p : PageId)
    (f : Fin n) : registered b₁ img p f =
      { b₁ with
        frames := (registered b₁ img p f).frames
        evictor := (b₁.pinFrame f).evictor
        pageTable := Function.update b₁.pageTable p (some f)
        flushes := (b₁.announced img).flushes
        nextChannel := (b₁.announced img).nextChannel } := by
  unfold registered
  rw [pinFrame_eq]
  cases img <;> rfl

theorem flushed_eq (b : BufferPoolManager n) (img : Option (PageId × Page)) : flushed b img =
    { b with
      flushes := img.elim b.flushes fun x => Function.update b.flushes x.1 none
      diskManager := img.elim b.diskManager fun x => b.diskManager.setPage x.1 x.2
      sent := (flushed b img).sent } := by
  unfold flushed
  cases img with
  | none => rfl
  | some x =>
    dsimp only
    rw [finishFlush_eq]
    rfl

/-- **The frame of a finished creation** holds the new page. -/
theorem reassigned_created (h : PoolInv b m W) (ht : Taken (b.allocated p) f b₁) :
    Reassigned b (flushed (registered b₁ (b.toFlush f) p f) (b.toFlush f)) f p := by
  have hframes : (flushed (registered b₁ (b.toFlush f) p f) (b.toFlush f)).frames =
      Function.update b.frames f { b.frames f with pageId := some p, pinCount := 1 } := by
    rw [flushed_eq]
    exact registered_frames ht.frames ht.pinCount ..
  constructor
  case unpinned => exact ht.pinCount
  case pageId | pinCount => rw [hframes, Function.update_self]
  case unlocked =>
    rw [hframes, Function.update_self]
    exact h.unlocked f ht.pinCount
  case frames =>
    intro g hg
    rw [hframes, Function.update_of_ne hg]
  case table =>
    intro q
    rw [flushed_eq, registered_eq]
    exact (Function.update_apply ..).trans (congrArg (ite _ _) (ht.table q))
  case free =>
    intro g
    rw [flushed_eq, registered_eq]
    exact ht.free g
  case freeNodup =>
    rw [flushed_eq, registered_eq]
    exact ht.freeNodup
  case evictor =>
    intro g
    rw [flushed_eq, registered_eq]
    exact mem_pinFrame_taken ht.evictor g
  case fetches =>
    intro q
    rw [flushed_eq, registered_eq]
    dsimp only
    rw [ht.fetches]
    exact h.fetches q
  case flushes =>
    intro q
    rw [flushed_eq, registered_eq]
    exact flushes_flush (fun q => (congrFun ht.flushes q).trans (h.flushes q)) (b.toFlush f) q
  case stored =>
    intro q
    have hset : ∀ q, Function.update b.diskManager.stored p true q = true ↔
        q = p ∨ b.diskManager.stored q = true := by
      intro q
      by_cases hq : q = p <;> simp [hq]
    rw [flushed_eq, registered_eq]
    dsimp only
    rw [ht.diskManager, stored_flush h fun q hq => (hset q).mpr (.inr hq)]
    exact hset q
  case pages =>
    intro q hqp
    rw [flushed_eq, registered_eq]
    dsimp only
    rw [ht.diskManager, pages_flush h]
    refine congrArg (ite _ _) ?_
    exact Function.update_of_ne hqp ..

end BufferPoolManager

end RarmDb
