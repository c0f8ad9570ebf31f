import RarmDb.Disk.Reads
import RarmDb.Tasks.Moves

/-!
# Short reads and the pool

* `World.readStep`: the step of a task whose read may return early;
* `Provenance`: which load the bytes in a frame, in an image and of a flush come from;
* `ReachedReads`: the runs with such reads, and where their bytes come from;
* `ReadsWhole`, **`loadedWhole_of_reached`**: if the bytes that a read leaves out are zeros, no frame is loaded
  with a part of a page, and none is flushed;
* `ReachedReads.reached`: these are runs of the pool whose reads are never short;
* **`short_read_truncates_page`**: otherwise a flush can overwrite the tail of a page that nobody changed.
-/

namespace RarmDb

open BufferPoolManager

variable {n : ℕ} {τ : Type}

/-! ## Steps -/

namespace World

variable [DecidableEq τ]

/-- **The step of a task**, where a read gets at most `limit` bytes. -/
def readStep [Fintype τ] (w : World n τ) (t : τ) (c : Choice) (limit : ℕ) : Option (World n τ) :=
  match w.tasks t, c with
  | .reading l, .go =>
    let readBuffer := w.bpm.diskManager.readAtMost limit l.page (Buffer.const 8192 0)
    some (w.goto t w.bpm (.copy l readBuffer))
  | _, _ => w.step t c

/-- A page that is read is stored, and the bytes that the read leaves out are zeros. -/
def ReadsWhole (w : World n τ) (t : τ) (c : Choice) (limit : ℕ) : Prop :=
  c = .go → ∀ l, w.tasks t = .reading l →
    w.bpm.diskManager.CanReadWhole limit l.page (Buffer.const 8192 0)

end World

/-! ## Where bytes come from -/

/-- A page that was loaded: what was stored for it when it was read, and what was copied to its frame. -/
structure Loaded where
  stored : Option Page
  copied : Page

/-- The page was loaded whole. -/
def Loaded.Whole (r : Loaded) : Prop := r.stored = some r.copied

/-- What was stored when a task last read a page; the load of the page in a frame, of the image that a task
evicted, and of the bytes that were last flushed to a page. -/
structure Provenance (n : ℕ) (τ : Type) where
  read : τ → Option Page
  frame : Fin n → Option Loaded
  image : τ → Option Loaded
  flushed : PageId → Option Loaded

/-- Nothing was read. -/
def Provenance.init (n : ℕ) (τ : Type) : Provenance n τ :=
  ⟨fun _ => none, fun _ => none, fun _ => none, fun _ => none⟩

/-- The provenance after a step. -/
def Provenance.note [DecidableEq τ] (h : Provenance n τ) (w : World n τ) (t : τ) (c : Choice) :
    Provenance n τ :=
  match w.tasks t, c with
  | .reading l, .go => { h with read := Function.update h.read t (w.bpm.diskManager.storedPage l.page) }
  | .copy l readBuffer, .go => { h with frame := Function.update h.frame l.frame (some ⟨h.read t, readBuffer⟩) }
  | .evict _ f, .go => { h with image := Function.update h.image t (h.frame f) }
  | .register _ _ f _, .go | .release (.create ..) f, .go =>
    { h with frame := Function.update h.frame f none }
  | .writing _ v _, .go | .createFlush _ _ v _, .go =>
    { h with flushed := Function.update h.flushed v (h.image t) }
  | _, _ => h

/-- The pool with such reads, with the provenance of its bytes. -/
def readsSystem (n : ℕ) (τ : Type) [DecidableEq τ] [Fintype τ] :
    Ghost.System (World n τ) (Provenance n τ) (τ × Choice × ℕ) where
  step w a := w.readStep a.1 a.2.1 a.2.2
  note h w a := h.note w a.1 a.2.1

/-- The states, with the provenance of their bytes, of the runs whose steps all meet the condition `ok`. -/
def ReachedReads [DecidableEq τ] [Fintype τ] (diskManager : Disk) (ok : World n τ → τ → Choice → ℕ → Prop)
    (w : World n τ) (h : Provenance n τ) : Prop :=
  (readsSystem n τ).Reached (fun w _ a => ok w a.1 a.2.1 a.2.2) (World.init n τ diskManager)
    (Provenance.init n τ) w h

/-- Every page in a frame was loaded whole, and so was every page that was flushed. -/
structure LoadedWhole (h : Provenance n τ) : Prop where
  frames : ∀ f r, h.frame f = some r → r.Whole
  flushed : ∀ v r, h.flushed v = some r → r.Whole

/-! ## What a step changes -/

namespace Provenance

variable [DecidableEq τ] {h : Provenance n τ} {w : World n τ} {t u : τ} {c : Choice} {f : Fin n} {v : PageId}
  {r : Loaded}

theorem frame_note (hr : (h.note w t c).frame f = some r) :
    h.frame f = some r ∨ ∃ l readBuffer, w.tasks t = .copy l readBuffer ∧ r = ⟨h.read t, readBuffer⟩ := by
  unfold note at hr
  split at hr
  case h_2 l readBuffer hpc =>
    dsimp only at hr
    rw [Function.update_apply] at hr
    split_ifs at hr
    · cases hr
      exact .inr ⟨l, readBuffer, hpc, rfl⟩
    · exact .inl hr
  case h_4 | h_5 =>
    dsimp only at hr
    rw [Function.update_apply] at hr
    split_ifs at hr
    exact .inl hr
  all_goals exact .inl hr

theorem image_note (hr : (h.note w t c).image u = some r) :
    h.image u = some r ∨ ∃ f, h.frame f = some r := by
  unfold note at hr
  split at hr
  case h_3 _ f hpc =>
    dsimp only at hr
    rw [Function.update_apply] at hr
    split_ifs at hr
    · exact .inr ⟨f, hr⟩
    · exact .inl hr
  all_goals exact .inl hr

theorem flushed_note (hr : (h.note w t c).flushed v = some r) :
    h.flushed v = some r ∨ h.image t = some r := by
  unfold note at hr
  split at hr
  case h_6 | h_7 =>
    dsimp only at hr
    rw [Function.update_apply] at hr
    split_ifs at hr
    · exact .inr hr
    · exact .inl hr
  all_goals exact .inl hr

theorem read_note (hread : c = .go → ∀ l, w.tasks t ≠ .reading l) : (h.note w t c).read = h.read := by
  unfold note
  split
  case h_1 l hpc => exact absurd hpc (hread rfl l)
  all_goals rfl

end Provenance

namespace World

variable [DecidableEq τ] [Fintype τ] {w w' : World n τ} {t : τ} {c : Choice} {limit : ℕ} {h : Provenance n τ}

theorem readStep_cases (hs : w.readStep t c limit = some w') :
    (∃ l, w.tasks t = .reading l ∧ c = .go ∧ w' = w.goto t w.bpm
      (.copy l (w.bpm.diskManager.readAtMost limit l.page (Buffer.const 8192 0)))) ∨
      (c = .go → ∀ l, w.tasks t ≠ .reading l) ∧ Move w t c w' := by
  unfold readStep at hs
  split at hs
  case h_1 l hpc =>
    cases hs
    exact .inl ⟨l, hpc, rfl, rfl⟩
  case h_2 hread => exact .inr ⟨fun hc l hl => hread l hl hc, move_of_step hs⟩

omit [Fintype τ] in
theorem Move.not_copy (hm : Move w t c w') (hread : c = .go → ∀ l, w.tasks t ≠ .reading l) (l : Load n)
    (readBuffer : Page) : w'.tasks t ≠ .copy l readBuffer := by
  cases hm with
  | read hpc => exact absurd hpc (hread rfl _)
  | hit | miss | enter =>
    rw [enter_task]
    exact nofun
  | panic =>
    rw [poison_task]
    exact nofun
  | full | releaseHit | releaseMiss =>
    rw [leave_task]
    exact nofun
  | @releaseCreate p f evicted b =>
    rw [leave_task]
    rcases evicted.join with - | ⟨v, bytes⟩ <;> exact nofun
  | @takeFree r f =>
    rw [goto_task]
    cases r <;> exact nofun
  | @finishFetch l =>
    rw [goto_task]
    rcases l.pageDataToFlush with - | ⟨v, bytes⟩ <;> exact nofun
  | pin | unpin | drop =>
    rw [goto_task]
    split_ifs <;> exact nofun
  | _ =>
    rw [goto_task]
    exact nofun

/-! ## Runs -/

/-- The loads so far were whole, and the buffers to be copied hold what was stored. -/
structure WholeInv (w : World n τ) (h : Provenance n τ) : Prop where
  frames : ∀ f r, h.frame f = some r → r.Whole
  images : ∀ t r, h.image t = some r → r.Whole
  flushed : ∀ v r, h.flushed v = some r → r.Whole
  copies : ∀ t l readBuffer, w.tasks t = .copy l readBuffer → h.read t = some readBuffer

/-- **A step keeps the invariant**, if a page that is read is read whole. -/
theorem readStep_wholeInv (hs : w.readStep t c limit = some w') (hwhole : ReadsWhole w t c limit)
    (hi : WholeInv w h) : WholeInv w' (h.note w t c) := by
  constructor
  case frames =>
    intro f r hr
    rcases Provenance.frame_note hr with hr | ⟨l, readBuffer, hpc, rfl⟩
    · exact hi.frames f r hr
    · exact hi.copies t l readBuffer hpc
  case images =>
    intro u r hr
    rcases Provenance.image_note hr with hr | ⟨f, hr⟩
    · exact hi.images u r hr
    · exact hi.frames f r hr
  case flushed =>
    intro v r hr
    rcases Provenance.flushed_note hr with hr | hr
    · exact hi.flushed v r hr
    · exact hi.images t r hr
  case copies =>
    intro u l readBuffer hu
    rcases readStep_cases hs with ⟨l', hpc, rfl, rfl⟩ | ⟨hread, hm⟩
    · have hnote : (h.note w t .go).read =
          Function.update h.read t (w.bpm.diskManager.storedPage l'.page) := by
        unfold Provenance.note
        rw [hpc]
      rw [hnote]
      by_cases hut : u = t
      · subst hut
        rw [goto_task] at hu
        cases hu
        rw [Function.update_self]
        exact Disk.storedPage_eq_readAtMost_iff.mpr (hwhole rfl l hpc)
      · rw [Function.update_of_ne hut]
        exact hi.copies u l readBuffer ((Function.update_of_ne hut ..).symm.trans hu)
    · rw [Provenance.read_note hread]
      by_cases hut : u = t
      · subst hut
        exact absurd hu (hm.not_copy hread l readBuffer)
      · exact hi.copies u l readBuffer ((hm.tasks_of_ne hut).symm.trans hu)

/-- A read of a whole page is the read of the pool whose reads are never short. -/
theorem readStep_eq_step (hwhole : ReadsWhole w t c limit) : w.readStep t c limit = w.step t c := by
  unfold readStep
  split
  case h_1 l hpc =>
    have hstored := Disk.storedPage_eq_readAtMost_iff.mpr (hwhole rfl l hpc)
    rw [Disk.storedPage, if_pos (hwhole rfl l hpc).1, Option.some_inj] at hstored
    rw [step_eq_act (not_panics_of_unwraps hpc rfl)]
    unfold act
    rw [hpc, ← hstored]
    rfl
  case h_2 => rfl

end World

section Runs

variable [DecidableEq τ] [Fintype τ] {d : Disk} {ok ok' : World n τ → τ → Choice → ℕ → Prop} {w : World n τ}
  {h : Provenance n τ}

theorem ReachedReads.mono (hr : ReachedReads d ok w h) (hok : ∀ w t c limit, ok w t c limit → ok' w t c limit) :
    ReachedReads d ok' w h := Ghost.System.Reached.mono hr fun w _ a => hok w a.1 a.2.1 a.2.2

theorem wholeInv_of_reached (hr : ReachedReads d World.ReadsWhole w h) : World.WholeInv w h :=
  Ghost.System.Reached.inv hr ⟨nofun, nofun, nofun, nofun⟩
    fun _ _ _ _ hok hs hi => World.readStep_wholeInv hs hok hi

/-- **Runs whose reads are whole** are runs of the pool whose reads are never short. -/
theorem ReachedReads.reached {ok : World n τ → τ → Choice → Prop}
    (hr : ReachedReads d (fun w t c limit => w.ReadsWhole t c limit ∧ ok w t c) w h) :
    ∃ h', Reached d ok w h' := by
  refine Ghost.System.Reached.inv hr (I := fun w _ => ∃ h', Reached d ok w h') ⟨_, .init⟩ ?_
  rintro w w' h ⟨t, c, limit⟩ hok hs ⟨h', hr'⟩
  have hstep : w.step t c = some w' := (World.readStep_eq_step hok.1).symm.trans hs
  exact ⟨_, hr'.step hok.2 hstep⟩

/-- **A page is loaded whole or not at all**, in every run in which each read that succeeds finds its page in
the file and leaves out only zeros. `read_page` returns only whole pages exactly when it fails, or the bytes it
leaves out are in its buffer. -/
theorem loadedWhole_of_reached (hr : ReachedReads d World.ReadsWhole w h) :
    LoadedWhole h ∧ ∀ (m : DiskTables) (io : ReadAt) (p : PageId) (buffer : Buffer pageSize),
      m.ReadsWhole io p buffer ↔ m.CanReadWhole io p buffer := by
  have hi := wholeInv_of_reached hr
  exact ⟨⟨hi.frames, hi.flushed⟩, fun m io p buffer => m.readPageWith_whole_iff p buffer io⟩

/-- Run the steps one after the other, as long as they meet the condition. -/
def runReads (ok : World n τ → τ → Choice → ℕ → Prop) [∀ w t c limit, Decidable (ok w t c limit)] :
    World n τ × Provenance n τ → List (τ × Choice × ℕ) → Option (World n τ × Provenance n τ) :=
  (readsSystem n τ).run fun w _ a => ok w a.1 a.2.1 a.2.2

theorem reached_runReads [∀ w t c limit, Decidable (ok w t c limit)] {steps : List (τ × Choice × ℕ)}
    {s' : World n τ × Provenance n τ} (hr : ReachedReads d ok w h) (hs : runReads ok (w, h) steps = some s') :
    ReachedReads d ok s'.1 s'.2 := Ghost.System.reached_run hr hs

end Runs

/-- A read in flight. -/
def Pc.reads : Pc n → Option (Load n)
  | .reading l => some l
  | _ => none

/-- A page that is read is stored, and its read is not cut short. -/
def World.ReadsFull (w : World n τ) (t : τ) (limit : ℕ) : Prop :=
  ∀ l ∈ (w.tasks t).reads, w.bpm.diskManager.stored l.page = true ∧ 8192 ≤ limit

instance (w : World n τ) (t : τ) (limit : ℕ) : Decidable (w.ReadsFull t limit) :=
  inferInstanceAs (Decidable (∀ l ∈ (w.tasks t).reads, _ = true ∧ _ ≤ _))

theorem World.ReadsFull.readsWhole {w : World n τ} {t : τ} {limit : ℕ} (hfull : w.ReadsFull t limit) (c : Choice) :
    w.ReadsWhole t c limit := by
  intro _ l hpc
  obtain ⟨hstored, hlimit⟩ := hfull l (by rw [hpc]; rfl)
  exact ⟨hstored, fun k hk => absurd (k.2.trans_le hlimit) hk.not_gt⟩

/-- Two pages of ones. -/
def onesDisk : Disk := Disk.ofFiles (fun _ => Buffer.const 8192 1) fun _ => 2

/-- Table files with two pages of ones. -/
def onesTables : DiskTables := .new fun _ => some ⟨2 * pageSize, fun _ => 1⟩

/-- One task fetches a page, where the read gets this many bytes, marks it dirty without a change, drops its
guard and fetches another page in its frame. -/
def truncateSteps (limit : ℕ) : List (Fin 1 × Choice × ℕ) :=
  [(0, .fetchPage ⟨1, 0⟩ .write, 0), (0, .go, 0), (0, .go, 0), (0, .go, 0), (0, .go, 0), (0, .go, 0), (0, .go, 0),
    (0, .go, 0), (0, .go, 0), (0, .go, limit), (0, .go, 0), (0, .go, 0), (0, .go, 0), (0, .go, 0), (0, .markDirty, 0),
    (0, .drop, 0), (0, .go, 0), (0, .go, 0), (0, .fetchPage ⟨1, 1⟩ .read, 0), (0, .go, 0), (0, .go, 0), (0, .go, 0),
    (0, .go, 0), (0, .go, 0), (0, .go, 0), (0, .go, 0), (0, .go, 0), (0, .go, 0), (0, .go, 8192), (0, .go, 0),
    (0, .go, 0), (0, .go, 0)]

/-- Every read gets its whole page, and one of them is flushed. -/
theorem loadedWhole_of_full : ∃ (w : World 1 (Fin 1)) (h : Provenance 1 (Fin 1)),
    ReachedReads onesDisk World.ReadsWhole w h ∧ h.flushed ⟨1, 0⟩ ≠ none ∧ LoadedWhole h ∧
      ∀ (m : DiskTables) (io : ReadAt) (p : PageId) (buffer : Buffer pageSize),
        m.ReadsWhole io p buffer ↔ m.CanReadWhole io p buffer := by
  have hrun := (reached_runReads Ghost.System.Reached.init
    (rfl : runReads (fun w t _ limit => w.ReadsFull t limit)
      (World.init 1 (Fin 1) onesDisk, Provenance.init 1 (Fin 1)) (truncateSteps 8192) = some _)).mono
    fun w t c limit hfull => hfull.readsWhole c
  exact ⟨_, _, hrun, Option.some_ne_none _, loadedWhole_of_reached hrun⟩

/-! ## A short read -/

/-- **`read_page` returns `Ok`** for the first half of a page, with zeros for the rest. The fetch copies them to
its frame, and a flush writes them over the page: its last byte was one and is zero, and nobody changed it. -/
theorem short_read_truncates_page :
    ¬ onesTables.ReadsWhole (.reads 4096) ⟨1, 0⟩ (Buffer.const pageSize 0) ∧
      ∃ (w : World 1 (Fin 1)) (h : Provenance 1 (Fin 1)),
        ReachedReads onesDisk (fun _ _ _ _ => True) w h ∧ (onesDisk.pages ⟨1, 0⟩).get 8191 = 1 ∧
          (w.bpm.diskManager.pages ⟨1, 0⟩).get 8191 = 0 ∧ ¬ LoadedWhole h := by
  constructor
  · have hpage := onesTables.storedPage_eq ⟨1, 0⟩ rfl
    rw [if_pos (by decide)] at hpage
    rw [DiskTables.readPageWith_whole_iff]
    rintro (h | ⟨message, h⟩ | ⟨limit, stored, h, hstored, htail⟩)
    · cases h
    · cases h
    · cases h
      obtain rfl := Option.some.inj (hpage.symm.trans hstored)
      have hbyte : (0 : UInt8) = 1 := htail ⟨8191, by decide⟩ (by decide)
      exact absurd hbyte (by decide)
  · have hrun := reached_runReads Ghost.System.Reached.init
      (rfl : runReads (fun _ _ _ _ => True) (World.init 1 (Fin 1) onesDisk, Provenance.init 1 (Fin 1))
        (truncateSteps 4096) = some _)
    refine ⟨_, _, hrun, by decide +kernel, by decide +kernel, fun hwhole => ?_⟩
    have hbyte := congrArg (fun page : Page => page.get 8191) (Option.some.inj (hwhole.flushed ⟨1, 0⟩ _ rfl))
    revert hbyte
    decide +kernel

end RarmDb
