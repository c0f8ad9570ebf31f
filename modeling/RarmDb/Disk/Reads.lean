import RarmDb.Disk.Tables
import RarmDb.Pool.Model

/-!
# Reads that return early

One `read` of the operating system may return before the buffer is full. `read_at` passes the count on, and
`read_page` drops it.

* `ReadAt`, `TableFile.readAtMost`: what `read_at` may do;
* `DiskTables.readPageWith`: `read_page` over such a `read_at`; `Disk.readAtMost`: the same for the pool;
* `storedPage`: the bytes stored for a page;
* **`readPageWith_whole_iff`**: `read_page` returns only whole pages exactly when the bytes that were not read
  were in the buffer already;
* `readPageWith_eq_readAtMost`: the disk of the pool reads what the files hold.
-/

namespace RarmDb

/-! ## The model -/

/-- What one `read_at` does: it fails, or reads at most this many bytes. -/
inductive ReadAt
  | fails (message : String)
  | reads (limit : ℕ)

/-- The errors of `read_page`. -/
inductive ReadPageError
  | handle (e : FileError)
  | readAt (message : String)

namespace TableFile

/-- The bytes of a page. -/
def pageAt (file : TableFile) (offset : ℕ) : Buffer pageSize := ⟨fun k => file.bytes (offset + k)⟩

/-- `read_at`, of at most `limit` bytes: the number of bytes read, and the buffer with them. -/
def readAtMost (file : TableFile) (limit : ℕ) (buffer : Buffer pageSize) (offset : ℕ) : ℕ × Buffer pageSize :=
  let bytesRead := min limit (min pageSize (file.len - offset))
  (bytesRead, buffer.fillFirst bytesRead (file.pageAt offset))

end TableFile

namespace DiskTables

/-- `read_page`, when `read_at` does this. The number of bytes read is dropped. -/
def readPageWith (m : DiskTables) (io : ReadAt) (p : PageId) (buffer : Buffer pageSize) :
    Except ReadPageError (Buffer pageSize) × DiskTables :=
  match m.getFileHandle p.tableId with
  | (.error e, m) => (.error (.handle e), m)
  | (.ok fileHandle, m) =>
    match m.files fileHandle, io with
    | none, _ => (.error (.handle .notFound), m)
    | some _, .fails message => (.error (.readAt message), m)
    | some file, .reads limit =>
      let (_, buffer) := file.readAtMost limit buffer (p.pageIndex.toNat * pageSize)
      (.ok buffer, m)

/-- The file of a table: that of its handle, or else that of its path. -/
def tableFile (m : DiskTables) (tableId : UInt32) : Option TableFile :=
  m.files ((m.fileHandles tableId).getD (tableFileName tableId))

/-- The bytes stored for a page, if the file has all of them. -/
def storedPage (m : DiskTables) (p : PageId) : Option (Buffer pageSize) :=
  (m.tableFile p.tableId).bind fun file =>
    if (p.pageIndex.toNat + 1) * pageSize ≤ file.len then some (file.pageAt (p.pageIndex.toNat * pageSize))
    else none

/-- `read_page` returns `Ok` only if the buffer holds all bytes stored for the page. -/
def ReadsWhole (m : DiskTables) (io : ReadAt) (p : PageId) (buffer : Buffer pageSize) : Prop :=
  ∀ read, (m.readPageWith io p buffer).1 = .ok read → m.storedPage p = some read

/-- The file has no handle, or the read fails, or the page is stored, and its bytes past those that were read
are in the buffer already. -/
def CanReadWhole (m : DiskTables) (io : ReadAt) (p : PageId) (buffer : Buffer pageSize) : Prop :=
  m.tableFile p.tableId = none ∨ (∃ message, io = .fails message) ∨
    ∃ limit stored, io = .reads limit ∧ m.storedPage p = some stored ∧
      ∀ k : Fin pageSize, limit ≤ k → buffer.byte k = stored.byte k

end DiskTables

namespace Disk

/-- The bytes stored for a page, if it is in its file. -/
def storedPage (d : Disk) (p : PageId) : Option Page := if d.stored p then some (d.pages p) else none

/-- `read_page`, when `read_at` reads at most `limit` bytes. The number of bytes read is dropped. -/
def readAtMost (d : Disk) (limit : ℕ) (p : PageId) (buffer : Page) : Page :=
  if d.stored p then buffer.fillFirst limit (d.pages p) else buffer

/-- The page is stored, and its bytes past those that are read are in the buffer already. -/
def CanReadWhole (d : Disk) (limit : ℕ) (p : PageId) (buffer : Page) : Prop :=
  d.stored p = true ∧ ∀ k : Fin 8192, limit ≤ k → buffer.byte k = (d.pages p).byte k

/-- The pages are those of the table files. -/
def OnFiles (d : Disk) (m : DiskTables) : Prop :=
  ∀ t, ∃ file count, m.tableFile t = some file ∧ file.len = count * pageSize ∧ ∀ i : UInt32,
    (d.stored ⟨t, i⟩ = true ↔ i.toNat < count) ∧
      (i.toNat < count → file.pageAt (i.toNat * pageSize) = d.pages ⟨t, i⟩)

end Disk

/-! ## Counts -/

namespace TableFile

variable (file : TableFile) (buffer : Buffer pageSize) (offset : ℕ) {limit : ℕ}

theorem readAtMost_full (h : pageSize ≤ limit) :
    file.readAtMost limit buffer offset = file.readAt buffer offset := by
  have hcount : min limit (min pageSize (file.len - offset)) = min pageSize (file.len - offset) :=
    min_eq_right ((min_le_left ..).trans h)
  unfold readAtMost readAt
  rw [hcount]
  refine Prod.ext rfl (Buffer.ext (funext fun k => ?_))
  have hiff : (k : ℕ) < min pageSize (file.len - offset) ↔ offset + k < file.len := by
    have hk := k.2
    omega
  exact if_congr hiff rfl rfl

/-- **A page that is in the file** is read whole exactly when the buffer has its last bytes already. -/
theorem readAtMost_eq_iff (limit : ℕ) (h : offset + pageSize ≤ file.len) :
    (file.readAtMost limit buffer offset).2 = file.pageAt offset ↔
      ∀ k : Fin pageSize, limit ≤ k → buffer.byte k = (file.pageAt offset).byte k := by
  have hcount : ∀ k : Fin pageSize, min limit (min pageSize (file.len - offset)) ≤ k ↔ limit ≤ k := by
    intro k
    have hk := k.2
    omega
  unfold readAtMost
  rw [Buffer.fillFirst_eq_iff]
  exact forall_congr' fun k => imp_congr_left (hcount k)

end TableFile

/-! ## What `read_page` returns -/

namespace DiskTables

variable (m : DiskTables) (p : PageId) (buffer : Buffer pageSize) {limit : ℕ}

theorem getFileHandle_cases (t : UInt32) :
    (m.getFileHandle t).1 = .error .notFound ∧ m.tableFile t = none ∨
      ∃ handle, (m.getFileHandle t).1 = .ok handle ∧ (m.getFileHandle t).2.files handle = m.tableFile t := by
  unfold getFileHandle tableFile
  cases m.fileHandles t with
  | some handle => exact .inr ⟨handle, rfl, rfl⟩
  | none =>
    rw [Option.getD_none]
    cases hfile : m.files (tableFileName t) with
    | none => exact .inl ⟨rfl, rfl⟩
    | some file => exact .inr ⟨_, rfl, hfile⟩

theorem readPageWith_full (h : pageSize ≤ limit) :
    m.readPageWith (.reads limit) p buffer =
      ((m.readPage p buffer).1.mapError .handle, (m.readPage p buffer).2) := by
  unfold readPageWith readPage
  rcases m.getFileHandle p.tableId with ⟨e | handle, m'⟩
  · rfl
  · dsimp only
    cases m'.files handle with
    | none => rfl
    | some file =>
      dsimp only
      rw [TableFile.readAtMost_full file buffer _ h]
      rfl

theorem readPageWith_fst (io : ReadAt) :
    (m.readPageWith io p buffer).1 = match m.tableFile p.tableId, io with
      | none, _ => .error (.handle .notFound)
      | some _, .fails message => .error (.readAt message)
      | some file, .reads limit =>
        .ok (file.readAtMost limit buffer (p.pageIndex.toNat * pageSize)).2 := by
  unfold readPageWith
  rcases hget : m.getFileHandle p.tableId with ⟨r, m'⟩
  rcases m.getFileHandle_cases p.tableId with ⟨he, hnone⟩ | ⟨handle, hhandle, hfile⟩
  · rw [hget] at he
    obtain rfl : r = .error .notFound := he
    rw [hnone]
  · rw [hget] at hhandle hfile
    obtain rfl : r = .ok handle := hhandle
    dsimp only at hfile ⊢
    rw [hfile]
    cases m.tableFile p.tableId with
    | none => rfl
    | some file => cases io <;> rfl

theorem storedPage_eq {file : TableFile} (h : m.tableFile p.tableId = some file) :
    m.storedPage p = if (p.pageIndex.toNat + 1) * pageSize ≤ file.len then
      some (file.pageAt (p.pageIndex.toNat * pageSize)) else none := by
  unfold storedPage
  rw [h]
  rfl

/-- **`read_page` returns only whole pages** exactly when the file or the read fails, or the page is stored and
the buffer has the bytes that were not read already. -/
theorem readPageWith_whole_iff (io : ReadAt) : m.ReadsWhole io p buffer ↔ m.CanReadWhole io p buffer := by
  unfold ReadsWhole CanReadWhole
  rw [m.readPageWith_fst p buffer io]
  cases hfile : m.tableFile p.tableId with
  | none => exact iff_of_true (fun read hread => nomatch hread) (.inl rfl)
  | some file =>
    cases io with
    | fails message => exact iff_of_true (fun read hread => nomatch hread) (.inr (.inl ⟨message, rfl⟩))
    | reads limit =>
      have hpage := m.storedPage_eq p hfile
      by_cases hlen : (p.pageIndex.toNat + 1) * pageSize ≤ file.len
      · rw [if_pos hlen] at hpage
        rw [Nat.succ_mul] at hlen
        have hwhole := file.readAtMost_eq_iff buffer _ limit hlen
        constructor
        · intro h
          refine .inr (.inr ⟨limit, _, rfl, hpage, hwhole.mp ?_⟩)
          exact (Option.some.inj (hpage.symm.trans (h _ rfl))).symm
        · rintro (h | ⟨message, h⟩ | ⟨limit', stored, h, hstored, htail⟩) read hread
          · cases h
          · cases h
          · cases h
            cases hread
            obtain rfl := Option.some.inj (hpage.symm.trans hstored)
            rw [hpage, hwhole.mpr htail]
      · rw [if_neg hlen] at hpage
        refine iff_of_false (fun h => ?_) ?_
        · cases hpage.symm.trans (h _ rfl)
        · rintro (h | ⟨message, h⟩ | ⟨limit', stored, -, hstored, -⟩)
          · cases h
          · cases h
          · cases hpage.symm.trans hstored

end DiskTables

/-! ## The disk of the pool -/

namespace Disk

variable {d : Disk} {m : DiskTables} {p : PageId} {limit : ℕ} {buffer : Page}

/-- **A page is read whole** exactly when it is stored and the buffer has its last bytes already. -/
theorem storedPage_eq_readAtMost_iff :
    d.storedPage p = some (d.readAtMost limit p buffer) ↔ d.CanReadWhole limit p buffer := by
  unfold storedPage readAtMost CanReadWhole
  by_cases hstored : d.stored p = true
  · rw [if_pos hstored, if_pos hstored, Option.some_inj, eq_comm, Buffer.fillFirst_eq_iff]
    exact (and_iff_right hstored).symm
  · rw [if_neg hstored]
    exact iff_of_false (Option.some_ne_none _).symm fun h => hstored h.1

/-- **`read_page` of the disk manager** reads the same bytes. -/
theorem readPageWith_eq_readAtMost (h : d.OnFiles m) :
    (m.readPageWith (.reads limit) p buffer).1 = .ok (d.readAtMost limit p buffer) := by
  obtain ⟨file, count, hfile, hlen, hpages⟩ := h p.tableId
  obtain ⟨hstored, hbytes⟩ := hpages p.pageIndex
  rw [m.readPageWith_fst p buffer, hfile]
  refine congrArg Except.ok ?_
  unfold TableFile.readAtMost readAtMost
  by_cases hi : p.pageIndex.toNat < count
  · have hmul := Nat.mul_le_mul_right pageSize (Nat.succ_le_of_lt hi)
    rw [Nat.succ_mul, ← hlen] at hmul
    have hroom : pageSize ≤ file.len - p.pageIndex.toNat * pageSize := by omega
    rw [if_pos (hstored.mpr hi), min_eq_left hroom, hbytes hi]
    exact Buffer.fillFirst_min ..
  · have hmul := Nat.mul_le_mul_right pageSize (not_lt.mp hi)
    rw [← hlen] at hmul
    have hend : file.len - p.pageIndex.toNat * pageSize = 0 := by omega
    rw [if_neg fun hs => hi (hstored.mp hs), hend, Nat.min_zero, Nat.min_zero]
    exact Buffer.fillFirst_zero ..

end Disk

end RarmDb
