import RarmDb.Pool.Frames

/-!
# The invariant of the pool

* `PoolInv b m W`: the page table, the free frames, the evictor and the pins agree, and every page
  has its bytes in `m` in its frame or on disk, but for the frames in `W`;
* `nextFrame`, `Usable`: the frame that is taken next, and which frames can be taken;
* `Obtained`, `Taken`: a frame was taken; **`nextFrame_cases`**: it is free, or comes from the evictor;
* `Reassigned`: the frame holds another page now; **`Reassigned.inv`**;
* `Touched`: the frame changed in place; **`Touched.inv`**.
-/

namespace RarmDb

namespace BufferPoolManager

variable {n : ℕ}

/-- The pool between two calls. `m` has the bytes of every page; the frames in `W` are being
written. -/
structure PoolInv (b : BufferPoolManager n) (m : PageId → Page) (W : Fin n → Prop) : Prop where
  table : ∀ p f, b.pageTable p = some f ↔ (b.frames f).pageId = some p
  free : ∀ f, f ∈ b.freeFrames ↔ (b.frames f).pageId = none
  freeNodup : b.freeFrames.Nodup
  unused : ∀ f, (b.frames f).pageId = none → (b.frames f).pinCount = 0
  evictor : ∀ f, b.evictor.Mem f ↔ (b.frames f).pageId ≠ none ∧ (b.frames f).pinCount = 0
  unlocked : ∀ f, (b.frames f).pinCount = 0 → (b.frames f).canWrite
  writing : ∀ f, W f → (b.frames f).pinCount ≠ 0
  fetches : ∀ p, b.fetches p = none
  flushes : ∀ p, b.flushes p = none
  stored : ∀ p f, b.pageTable p = some f → b.diskManager.stored p = true
  data : ∀ p f, b.pageTable p = some f → ¬ W f → (b.frames f).data = m p
  clean : ∀ p f, b.pageTable p = some f → ¬ W f → (b.frames f).isDirty = false →
    b.diskManager.pages p = m p
  disk : ∀ p, b.pageTable p = none → b.diskManager.pages p = m p

variable {b b₁ b' : BufferPoolManager n} {m : PageId → Page} {W : Fin n → Prop} {f g : Fin n}
  {p q v : PageId} {img : Option (PageId × Page)}

theorem poolInv_new (n : ℕ) (d : Disk) {W : Fin n → Prop} (hW : ∀ f, ¬ W f) :
    PoolInv (new n d) d.pages W where
  table p f := ⟨fun h => (by cases h), fun h => (by cases h)⟩
  free f := ⟨fun _ => rfl, fun _ => List.mem_reverse.mpr (List.mem_finRange f)⟩
  freeNodup := List.nodup_reverse.mpr (List.nodup_finRange n)
  unused _ _ := rfl
  evictor f := ⟨fun h => absurd h (ClockEvictor.not_mem_new f), fun h => absurd rfl h.1⟩
  unlocked _ _ := ⟨rfl, rfl⟩
  writing f h := absurd h (hW f)
  fetches _ := rfl
  flushes _ := rfl
  stored p f h := by cases h
  data p f h := by cases h
  clean p f h := by cases h
  disk _ _ := rfl

namespace PoolInv

theorem pageId_of_table (h : PoolInv b m W) (hp : b.pageTable p = some f) :
    (b.frames f).pageId = some p := (h.table p f).mp hp

theorem mem_evictor (h : PoolInv b m W) (hpin : (b.frames f).pinCount = 0)
    (hfree : b.freeFrames = []) : b.evictor.Mem f := by
  refine (h.evictor f).mpr ⟨fun hnone => ?_, hpin⟩
  have hmem := (h.free f).mpr hnone
  rw [hfree] at hmem
  exact absurd hmem List.not_mem_nil

end PoolInv

/-! ## Taking a frame -/

/-- What has to be flushed when the frame `f` is taken: its page, when it is dirty. -/
def toFlush (b : BufferPoolManager n) (f : Fin n) : Option (PageId × Page) :=
  (b.frames f).pageId.bind fun v => image (b.frames f) v

/-- The frame `f` was taken: it is neither free nor in the evictor, and no page is in it. -/
structure Taken (b : BufferPoolManager n) (f : Fin n) (b₁ : BufferPoolManager n) : Prop where
  pinCount : (b.frames f).pinCount = 0
  frames : b₁.frames = b.frames
  diskManager : b₁.diskManager = b.diskManager
  table : ∀ q, b₁.pageTable q = if b.pageTable q = some f then none else b.pageTable q
  free : ∀ g, g ∈ b₁.freeFrames ↔ g ≠ f ∧ g ∈ b.freeFrames
  freeNodup : b₁.freeFrames.Nodup
  evictor : ∀ g, b₁.evictor.Mem g ↔ g ≠ f ∧ b.evictor.Mem g
  fetches : b₁.fetches = b.fetches
  flushes : b₁.flushes = b.flushes

/-- The frame that the next miss takes: the last free frame, or the victim of the evictor. -/
def nextFrame (b : BufferPoolManager n) : Option (Fin n) :=
  match b.freeFrames with
  | f :: _ => some f
  | [] => b.evictor.victim.1

/-- Frames that can be taken are not pinned, and only frames with a page are pinned or mapped. -/
structure Usable (b : BufferPoolManager n) : Prop where
  evictor : ∀ f, b.evictor.Mem f → (b.frames f).pageId ≠ none ∧ (b.frames f).pinCount = 0
  free : ∀ f ∈ b.freeFrames, (b.frames f).pageId = none
  freeNodup : b.freeFrames.Nodup
  unused : ∀ f, (b.frames f).pageId = none → (b.frames f).pinCount = 0
  mapped : ∀ p f, b.pageTable p = some f → (b.frames f).pageId ≠ none

/-- The frame `f` was taken out of the free frames or the evictor, with its page out of the table. -/
structure Obtained (b : BufferPoolManager n) (f : Fin n) (b₁ : BufferPoolManager n) : Prop where
  pinCount : (b.frames f).pinCount = 0
  frames : b₁.frames = b.frames
  diskManager : b₁.diskManager = b.diskManager
  table : ∀ q, b₁.pageTable q = if (b.frames f).pageId = some q then none else b.pageTable q
  free : ∀ g, g ∈ b₁.freeFrames ↔ g ≠ f ∧ g ∈ b.freeFrames
  freeNodup : b₁.freeFrames.Nodup
  evictor : ∀ g, b₁.evictor.Mem g ↔ g ≠ f ∧ b.evictor.Mem g

/-- **The next frame** is a free one, or the victim of the evictor. -/
theorem nextFrame_cases (h : Usable b) (hnext : b.nextFrame = some f) :
    (∃ rest, b.freeFrames = f :: rest ∧ b.toFlush f = none ∧
      Obtained b f { b with freeFrames := rest }) ∨
    (∃ e v, b.freeFrames = [] ∧ b.evictor.victim = (some f, e) ∧ (b.frames f).pageId = some v ∧
      Obtained b f (b.detach e v)) := by
  unfold nextFrame at hnext
  cases hfree : b.freeFrames with
  | cons f' rest =>
    rw [hfree] at hnext
    obtain rfl : f' = f := Option.some.inj hnext
    have hnodup := h.freeNodup
    rw [hfree, List.nodup_cons] at hnodup
    have hnone := h.free f' (by rw [hfree]; exact List.mem_cons_self)
    refine .inl ⟨rest, rfl, by rw [toFlush, hnone]; rfl, ?_⟩
    constructor
    case pinCount => exact h.unused f' hnone
    case frames | diskManager => rfl
    case table =>
      intro q
      rw [hnone, if_neg (by simp)]
    case free =>
      intro g
      rw [hfree, List.mem_cons]
      constructor
      · intro hg
        exact ⟨fun hgf => hnodup.1 (hgf ▸ hg), .inr hg⟩
      · rintro ⟨hne, hg⟩
        exact hg.resolve_left hne
    case freeNodup => exact hnodup.2
    case evictor =>
      intro g
      refine ⟨fun hg => ⟨?_, hg⟩, And.right⟩
      rintro rfl
      exact (h.evictor g hg).1 hnone
  | nil =>
    rw [hfree] at hnext
    have hvictim : b.evictor.victim = (some f, b.evictor.victim.2) := Prod.ext hnext rfl
    obtain ⟨hmem, hrest⟩ := ClockEvictor.victim_some hvictim
    obtain ⟨hsome, hpin⟩ := h.evictor f hmem
    obtain ⟨v, hv⟩ := Option.ne_none_iff_exists'.mp hsome
    refine .inr ⟨b.evictor.victim.2, v, rfl, hvictim, hv, ?_⟩
    constructor
    case pinCount => exact hpin
    case frames | diskManager => rfl
    case table =>
      intro q
      change Function.update b.pageTable v none q = _
      rw [hv]
      by_cases hq : v = q
      · rw [if_pos (congrArg some hq), hq, Function.update_self]
      · rw [if_neg fun he => hq (Option.some.inj he), Function.update_of_ne (Ne.symm hq)]
    case free =>
      intro g
      change g ∈ b.freeFrames ↔ _
      rw [hfree]
      exact ⟨fun hg => absurd hg List.not_mem_nil, fun hg => absurd hg.2 List.not_mem_nil⟩
    case freeNodup => exact h.freeNodup
    case evictor => exact hrest

theorem PoolInv.usable (h : PoolInv b m W) : Usable b where
  evictor f := (h.evictor f).mp
  free f := (h.free f).mp
  freeNodup := h.freeNodup
  unused := h.unused
  mapped p f hp := by
    rw [h.pageId_of_table hp]
    exact nofun

/-- **Some frame can be taken**, when one is not pinned. -/
theorem PoolInv.exists_nextFrame (h : PoolInv b m W) (hpin : ∃ f, (b.frames f).pinCount = 0) :
    ∃ f, b.nextFrame = some f := by
  unfold nextFrame
  cases hfree : b.freeFrames with
  | cons f rest => exact ⟨f, rfl⟩
  | nil =>
    obtain ⟨g, hg⟩ := hpin
    exact Option.isSome_iff_exists.mp (ClockEvictor.victim_isSome (h.mem_evictor hg hfree))

theorem Obtained.taken (ho : Obtained b f b₁) (h : PoolInv b m W) (hfetches : b₁.fetches = b.fetches)
    (hflushes : b₁.flushes = b.flushes) : Taken b f b₁ where
  pinCount := ho.pinCount
  frames := ho.frames
  diskManager := ho.diskManager
  table q := by
    rw [ho.table]
    exact if_congr (h.table q f).symm rfl rfl
  free := ho.free
  freeNodup := ho.freeNodup
  evictor := ho.evictor
  fetches := hfetches
  flushes := hflushes

/-! ## The frame holds another page -/

/-- The frame `f` held another page, or none, and now holds `p` with one pin. -/
structure Reassigned (b b' : BufferPoolManager n) (f : Fin n) (p : PageId) : Prop where
  unpinned : (b.frames f).pinCount = 0
  pageId : (b'.frames f).pageId = some p
  pinCount : (b'.frames f).pinCount = 1
  unlocked : (b'.frames f).canWrite
  frames : ∀ g, g ≠ f → b'.frames g = b.frames g
  table : ∀ q, b'.pageTable q =
    if q = p then some f else if b.pageTable q = some f then none else b.pageTable q
  free : ∀ g, g ∈ b'.freeFrames ↔ g ≠ f ∧ g ∈ b.freeFrames
  freeNodup : b'.freeFrames.Nodup
  evictor : ∀ g, b'.evictor.Mem g ↔ g ≠ f ∧ b.evictor.Mem g
  fetches : ∀ q, b'.fetches q = none
  flushes : ∀ q, b'.flushes q = none
  stored : ∀ q, b'.diskManager.stored q = true ↔ q = p ∨ b.diskManager.stored q = true
  pages : ∀ q, q ≠ p → b'.diskManager.pages q =
    if b.pageTable q = some f ∧ (b.frames f).isDirty = true then (b.frames f).data
    else b.diskManager.pages q

/-- **The invariant after a frame was reassigned.** It has the bytes of its page, or is written. -/
theorem Reassigned.inv (h : PoolInv b m W) (hr : Reassigned b b' f p) (hp : b.pageTable p = none)
    {W' : Fin n → Prop} (hW : ∀ g, g ≠ f → (W' g ↔ W g))
    (hdata : ¬ W' f → (b'.frames f).data = m p ∧ b'.diskManager.pages p = m p) :
    PoolInv b' m W' := by
  have hnotW : ¬ W f := fun hw => h.writing f hw hr.unpinned
  have hother : ∀ q g, q ≠ p → b'.pageTable q = some g → g ≠ f ∧ b.pageTable q = some g := by
    intro q g hq hg
    rw [hr.table, if_neg hq] at hg
    split_ifs at hg with hf
    exact ⟨fun hgf => hf (hgf ▸ hg), hg⟩
  have hself : ∀ g, b'.pageTable p = some g ↔ g = f := fun g => by
    rw [hr.table, if_pos rfl, Option.some.injEq, eq_comm]
  have hpage : ∀ g, g ≠ f → (b.frames g).pageId ≠ some p := fun g _ hg => by
    rw [(h.table p g).mpr hg] at hp
    cases hp
  have hframes : ∀ g, (g = f ∧ (b'.frames g).pageId = some p ∧ (b'.frames g).pinCount = 1) ∨
      (g ≠ f ∧ b'.frames g = b.frames g) := fun g => by
    by_cases hg : g = f
    · subst hg
      exact .inl ⟨rfl, hr.pageId, hr.pinCount⟩
    · exact .inr ⟨hg, hr.frames g hg⟩
  constructor
  case table =>
    intro q g
    by_cases hq : q = p
    · subst hq
      rw [hself]
      rcases hframes g with ⟨rfl, hid, -⟩ | ⟨hg, hsame⟩
      · exact ⟨fun _ => hid, fun _ => rfl⟩
      · rw [hsame]
        exact ⟨fun hgf => absurd hgf hg, fun hid => absurd hid (hpage g hg)⟩
    · rcases hframes g with ⟨rfl, hid, -⟩ | ⟨hg, hsame⟩
      · rw [hid]
        exact ⟨fun hg => absurd rfl (hother q g hq hg).1,
          fun hid => absurd (Option.some.inj hid).symm hq⟩
      · rw [hsame, ← h.table, hr.table, if_neg hq]
        split_ifs with hf
        · rw [hf]
          exact ⟨fun hn => (by cases hn), fun hn => absurd (Option.some.inj hn).symm hg⟩
        · rfl
  case free =>
    intro g
    rw [hr.free]
    rcases hframes g with ⟨rfl, hid, -⟩ | ⟨hg, hsame⟩
    · rw [hid]
      exact ⟨fun hn => absurd rfl hn.1, fun hn => by cases hn⟩
    · rw [hsame, h.free]
      exact and_iff_right hg
  case freeNodup => exact hr.freeNodup
  case unused =>
    intro g hg
    rcases hframes g with ⟨-, hid, -⟩ | ⟨-, hsame⟩
    · rw [hid] at hg
      cases hg
    · rw [hsame] at hg ⊢
      exact h.unused g hg
  case evictor =>
    intro g
    rw [hr.evictor]
    rcases hframes g with ⟨rfl, -, hpin⟩ | ⟨hg, hsame⟩
    · rw [hpin]
      exact ⟨fun hn => absurd rfl hn.1, fun hn => absurd hn.2 Nat.one_ne_zero⟩
    · rw [hsame, h.evictor]
      exact and_iff_right hg
  case unlocked =>
    intro g hg
    rcases hframes g with ⟨rfl, -, -⟩ | ⟨-, hsame⟩
    · exact hr.unlocked
    · rw [hsame] at hg ⊢
      exact h.unlocked g hg
  case writing =>
    intro g hw
    rcases hframes g with ⟨-, -, hpin⟩ | ⟨hg, hsame⟩
    · rw [hpin]
      exact Nat.one_ne_zero
    · rw [hsame]
      exact h.writing g ((hW g hg).mp hw)
  case fetches => exact hr.fetches
  case flushes => exact hr.flushes
  case stored =>
    intro q g hg
    by_cases hq : q = p
    · exact (hr.stored q).mpr (.inl hq)
    · exact (hr.stored q).mpr (.inr (h.stored q g (hother q g hq hg).2))
  case data =>
    intro q g hg hw
    by_cases hq : q = p
    · subst hq
      obtain rfl := (hself g).mp hg
      exact (hdata hw).1
    · obtain ⟨hgf, hg⟩ := hother q g hq hg
      rw [hr.frames g hgf]
      exact h.data q g hg (mt (hW g hgf).mpr hw)
  case clean =>
    intro q g hg hw hd
    by_cases hq : q = p
    · subst hq
      obtain rfl := (hself g).mp hg
      exact (hdata hw).2
    · obtain ⟨hgf, hg⟩ := hother q g hq hg
      rw [hr.frames g hgf] at hd
      rw [hr.pages q hq, if_neg fun hf => hgf (Option.some.inj (hg.symm.trans hf.1))]
      exact h.clean q g hg (mt (hW g hgf).mpr hw) hd
  case disk =>
    intro q hg
    have hq : q ≠ p := by
      rintro rfl
      rw [(hself f).mpr rfl] at hg
      cases hg
    rw [hr.table, if_neg hq] at hg
    rw [hr.pages q hq]
    split_ifs at hg with hf
    · cases hd : (b.frames f).isDirty with
      | true => rw [if_pos ⟨hf, rfl⟩, h.data q f hf hnotW]
      | false => rw [if_neg fun hn => Bool.false_ne_true hn.2, h.clean q f hf hnotW hd]
    · rw [if_neg fun hn => hf hn.1, h.disk q hg]

/-! ## A frame changes in place -/

/-- Only the frame `f` changed, and it holds the same page. -/
structure Touched (b b' : BufferPoolManager n) (f : Fin n) : Prop where
  frames : ∀ g, g ≠ f → b'.frames g = b.frames g
  pageId : (b'.frames f).pageId = (b.frames f).pageId
  table : b'.pageTable = b.pageTable
  free : b'.freeFrames = b.freeFrames
  evictor : ∀ g, b'.evictor.Mem g ↔ if g = f then (b'.frames f).pinCount = 0 else b.evictor.Mem g
  fetches : b'.fetches = b.fetches
  flushes : b'.flushes = b.flushes
  diskManager : b'.diskManager = b.diskManager

/-- **The invariant after a frame changed in place.** -/
theorem Touched.inv (h : PoolInv b m W) (ht : Touched b b' f) (hp : b.pageTable p = some f)
    {m' : PageId → Page} {W' : Fin n → Prop} (hm : ∀ q, q ≠ p → m' q = m q)
    (hW : ∀ g, g ≠ f → (W' g ↔ W g)) (hunlocked : (b'.frames f).pinCount = 0 → (b'.frames f).canWrite)
    (hwriting : W' f → (b'.frames f).pinCount ≠ 0)
    (hdata : ¬ W' f → (b'.frames f).data = m' p ∧
      ((b'.frames f).isDirty = false → b.diskManager.pages p = m' p)) :
    PoolInv b' m' W' := by
  have hid := h.pageId_of_table hp
  have hpage : ∀ g, (b'.frames g).pageId = (b.frames g).pageId := fun g => by
    by_cases hg : g = f
    · rw [hg, ht.pageId]
    · rw [ht.frames g hg]
  have hother : ∀ q g, q ≠ p → b.pageTable q = some g → g ≠ f := by
    rintro q g hq hg rfl
    rw [h.table, hid] at hg
    exact hq (Option.some.inj hg).symm
  have hself : ∀ g, b.pageTable p = some g → g = f := fun g hg =>
    Option.some.inj (hg.symm.trans hp)
  constructor
  case table =>
    intro q g
    rw [ht.table, hpage, h.table]
  case free =>
    intro g
    rw [ht.free, hpage, h.free]
  case freeNodup =>
    rw [ht.free]
    exact h.freeNodup
  case unused =>
    intro g hg
    have hne : g ≠ f := by
      rintro rfl
      rw [hpage, hid] at hg
      cases hg
    rw [hpage] at hg
    rw [ht.frames g hne, h.unused g hg]
  case evictor =>
    intro g
    rw [ht.evictor, hpage]
    by_cases hg : g = f
    · subst hg
      rw [if_pos rfl, hid, and_iff_right (Option.some_ne_none p)]
    · rw [if_neg hg, ht.frames g hg, h.evictor]
  case unlocked =>
    intro g hg
    by_cases hgf : g = f
    · subst hgf
      exact hunlocked hg
    · rw [ht.frames g hgf] at hg ⊢
      exact h.unlocked g hg
  case writing =>
    intro g hw
    by_cases hgf : g = f
    · subst hgf
      exact hwriting hw
    · rw [ht.frames g hgf]
      exact h.writing g ((hW g hgf).mp hw)
  case fetches =>
    intro q
    rw [ht.fetches, h.fetches]
  case flushes =>
    intro q
    rw [ht.flushes, h.flushes]
  case stored =>
    intro q g hg
    rw [ht.table] at hg
    rw [ht.diskManager, h.stored q g hg]
  case data =>
    intro q g hg hw
    rw [ht.table] at hg
    by_cases hq : q = p
    · subst hq
      obtain rfl := hself g hg
      exact (hdata hw).1
    · have hgf := hother q g hq hg
      rw [ht.frames g hgf, hm q hq]
      exact h.data q g hg (mt (hW g hgf).mpr hw)
  case clean =>
    intro q g hg hw hd
    rw [ht.table] at hg
    rw [ht.diskManager]
    by_cases hq : q = p
    · subst hq
      obtain rfl := hself g hg
      exact (hdata hw).2 hd
    · have hgf := hother q g hq hg
      rw [ht.frames g hgf] at hd
      rw [hm q hq]
      exact h.clean q g hg (mt (hW g hgf).mpr hw) hd
  case disk =>
    intro q hg
    rw [ht.table] at hg
    have hq : q ≠ p := by
      rintro rfl
      rw [hp] at hg
      cases hg
    rw [ht.diskManager, hm q hq, h.disk q hg]

end BufferPoolManager

end RarmDb
