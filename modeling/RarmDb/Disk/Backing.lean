import RarmDb.Disk.Reads

/-!
# The disk of the pool is made of table files

The pool reads and writes a `Disk`. The disk manager does so in table files, through cached handles.

* `Disk.ofTables`: the disk that table files make up;
* `DiskTables.takeIndex`: `allocate_page` as far as `fetch_add`; **`allocatePage_eq`**;
* `Backs`: the files, handles and counters of a disk manager make up a disk;
* `Backs.readPage`, `Backs.writePage`, `Backs.takeIndex`: its calls do what the disk does;
* **`Backs.restart`**: a new disk manager over the files reads the pages that are stored.
-/

namespace RarmDb

/-- The pages of the table files. -/
def Disk.ofTables (tables : UInt32 → TableFile) : Disk where
  pages p := (tables p.tableId).pageAt (p.pageIndex.toNat * pageSize)
  stored p := (p.pageIndex.toNat + 1) * pageSize ≤ (tables p.tableId).len
  nextPageIds t := UInt32.ofNat ((tables t).len / pageSize)

namespace DiskTables

/-- `allocate_page` as far as `fetch_add`. -/
def takeIndex (m : DiskTables) (tableId : UInt32) : Exec (Except FileError UInt32 × DiskTables) :=
  match m.getFileHandle tableId with
  | (.error e, m) => return (.error e, m)
  | (.ok _, m) => do
    let nextIndex ← Exec.unwrap (m.nextPageIds tableId)
    return (.ok nextIndex, { m with nextPageIds := Function.update m.nextPageIds tableId (some (nextIndex + 1)) })

variable {m m' : DiskTables} {t : UInt32} {p : PageId}

theorem getFileHandle_cached {name : String} (h : m.getFileHandle t = (.ok name, m')) : m'.fileHandles t = some name := by
  unfold getFileHandle at h
  split at h
  · rename_i hhandle
    cases h
    exact hhandle
  · split at h
    · cases h
    · cases h
      exact Function.update_self ..

/-- **`allocate_page`** takes an index, and writes zeros to its page. -/
theorem allocatePage_eq (m : DiskTables) (t : UInt32) : m.allocatePage t = (do
    let (result, m) ← m.takeIndex t
    match result with
    | .error e => return (.error e, m)
    | .ok i => return (.ok ⟨t, i⟩, (m.writePage ⟨t, i⟩ (Buffer.const pageSize 0)).2)) := by
  unfold allocatePage takeIndex
  rcases hget : m.getFileHandle t with ⟨e | name, m'⟩
  · rfl
  · have hcached := getFileHandle_cached hget
    dsimp only
    cases m'.nextPageIds t with
    | none => rfl
    | some i =>
      have hwrite : ({ m' with nextPageIds := Function.update m'.nextPageIds t (some (i + 1)) }.getFileHandle t) =
          (.ok name, { m' with nextPageIds := Function.update m'.nextPageIds t (some (i + 1)) }) := by
        unfold getFileHandle
        dsimp only
        rw [hcached]
      change Exec.ret _ = Exec.ret _
      unfold writePage
      dsimp only
      rw [hwrite]

end DiskTables

/-! ## The disk in the files -/

/-- The pages of a table that are stored are whole in its file. -/
def HoldsStored (d : Disk) (t : UInt32) (file : TableFile) : Prop :=
  ∀ i, d.stored ⟨t, i⟩ = true → (i.toNat + 1) * pageSize ≤ file.len ∧
    ∀ k < pageSize, file.bytes (i.toNat * pageSize + k) = (d.pages ⟨t, i⟩).get k

/-- A table of the disk: its file, its cached handle and its counter. Once the handle is cached the counter is that
of the disk; before, it is the number of pages of the file. -/
structure Backs (m : DiskTables) (d : Disk) : Prop where
  files : ∀ t, ∃ file, m.files (tableFileName t) = some file ∧ HoldsStored d t file ∧
    (m.fileHandles t = none → d.nextPageIds t = UInt32.ofNat (file.len / pageSize))
  handles : ∀ t name, m.fileHandles t = some name → name = tableFileName t ∧ m.nextPageIds t = some (d.nextPageIds t)
  unopened : ∀ t, m.fileHandles t = none → m.nextPageIds t = none

theorem backs_ofTables {names : String → Option TableFile} {tables : UInt32 → TableFile}
    (h : ∀ t, names (tableFileName t) = some (tables t)) : Backs (.new names) (.ofTables tables) := by
  refine ⟨fun t => ⟨tables t, h t, fun i hi => ⟨of_decide_eq_true hi, fun k hk => ?_⟩, fun _ => rfl⟩, nofun, fun _ _ => rfl⟩
  rw [Buffer.get_of_lt _ hk]
  rfl

namespace Backs

variable {m m' : DiskTables} {d : Disk} {t : UInt32} {p : PageId} {buffer : Buffer pageSize}

theorem getFileHandle (h : Backs m d) (t : UInt32) : ∃ m', m.getFileHandle t = (.ok (tableFileName t), m') ∧
    Backs m' d ∧ m'.files = m.files ∧ m'.fileHandles t = some (tableFileName t) := by
  unfold DiskTables.getFileHandle
  cases hhandle : m.fileHandles t with
  | some name =>
    obtain ⟨rfl, -⟩ := h.handles t name hhandle
    exact ⟨m, rfl, h, rfl, hhandle⟩
  | none =>
    obtain ⟨file, hfile, hstored, hcount⟩ := h.files t
    dsimp only
    rw [hfile]
    refine ⟨_, rfl, ⟨fun u => ?_, fun u name hname => ?_, fun u hu => ?_⟩, rfl, Function.update_self ..⟩
    · obtain ⟨file', hfile', hstored', hcount'⟩ := h.files u
      refine ⟨file', hfile', hstored', fun hnone => hcount' ?_⟩
      by_cases hut : u = t
      · exact hut ▸ hhandle
      · exact (Function.update_of_ne hut ..).symm.trans hnone
    · by_cases hut : u = t
      · subst hut
        cases (Function.update_self ..).symm.trans hname
        refine ⟨rfl, (Function.update_self ..).trans ?_⟩
        rw [h.unopened u hhandle, hcount hhandle]
        rfl
      · dsimp only at hname ⊢
        rw [Function.update_of_ne hut] at hname ⊢
        exact h.handles u name hname
    · by_cases hut : u = t
      · subst hut
        cases (Function.update_self ..).symm.trans hu
      · dsimp only at hu ⊢
        rw [Function.update_of_ne hut] at hu ⊢
        exact h.unopened u hu

/-- **A page that is stored** is read. -/
theorem readPage (h : Backs m d) (hp : d.stored p = true) (buffer : Buffer pageSize) :
    ∃ m', m.readPage p buffer = (.ok (d.pages p), m') ∧ Backs m' d := by
  obtain ⟨m', hget, hm', -, -⟩ := h.getFileHandle p.tableId
  obtain ⟨file, hfile, hstored, -⟩ := hm'.files p.tableId
  obtain ⟨hlen, hbytes⟩ := hstored p.pageIndex hp
  refine ⟨m', ?_, hm'⟩
  unfold DiskTables.readPage
  rw [hget]
  dsimp only
  rw [hfile]
  dsimp only
  rw [TableFile.readAt_eq hlen hbytes]

/-- **A page is written**, in its file or behind its end. -/
theorem writePage (h : Backs m d) (p : PageId) (bytes : Buffer pageSize) :
    ∃ m', m.writePage p bytes = (.ok (), m') ∧ Backs m' (d.setPage p bytes) := by
  obtain ⟨m', hget, hm', -, hcached⟩ := h.getFileHandle p.tableId
  obtain ⟨file, hfile, hstored, -⟩ := hm'.files p.tableId
  refine ⟨m'.writeAt (tableFileName p.tableId) bytes (p.pageIndex.toNat * pageSize), ?_, ?_⟩
  · unfold DiskTables.writePage
    rw [hget]
  constructor
  case files =>
    intro t
    by_cases ht : t = p.tableId
    · subst ht
      refine ⟨file.writeAt bytes (p.pageIndex.toNat * pageSize), ?_, fun i hi => ?_, fun hnone => ?_⟩
      · change Function.update m'.files _ _ _ = _
        rw [Function.update_self, hfile]
        rfl
      · by_cases hip : i = p.pageIndex
        · subst hip
          refine ⟨?_, fun k hk => ?_⟩
          · rw [Nat.succ_mul]
            exact le_max_right ..
          · rw [TableFile.bytes_writeAt_same hk]
            exact congrArg (Buffer.get · k) (Function.update_self (f := d.pages) ..).symm
        · have hne : (⟨p.tableId, i⟩ : PageId) ≠ p := fun heq => hip (congrArg PageId.pageIndex heq)
          obtain ⟨hlen, hbytes⟩ := hstored i ((Function.update_of_ne hne ..).symm.trans hi)
          refine ⟨hlen.trans (le_max_left ..), fun k hk => ?_⟩
          rw [TableFile.bytes_writeAt_other hk fun heq => hip (UInt32.toNat_inj.mp heq).symm, hbytes k hk]
          exact congrArg (Buffer.get · k) (Function.update_of_ne hne ..).symm
      · cases hcached.symm.trans hnone
    · obtain ⟨file', hfile', hstored', hcount'⟩ := hm'.files t
      have hne : ∀ {i}, (⟨t, i⟩ : PageId) ≠ p := fun heq => ht (congrArg PageId.tableId heq)
      refine ⟨file', ?_, fun i hi => ?_, hcount'⟩
      · change Function.update m'.files _ _ _ = _
        rw [Function.update_of_ne fun heq => ht (tableFileName_inj heq), hfile']
      · obtain ⟨hlen, hbytes⟩ := hstored' i ((Function.update_of_ne hne ..).symm.trans hi)
        refine ⟨hlen, fun k hk => (hbytes k hk).trans ?_⟩
        exact congrArg (Buffer.get · k) (Function.update_of_ne hne ..).symm
  case handles => exact hm'.handles
  case unopened => exact hm'.unopened

/-- **The next index** is that of the disk. -/
theorem takeIndex (h : Backs m d) (t : UInt32) :
    ∃ m', m.takeIndex t = .ret (.ok (d.nextPageIds t), m') ∧ Backs m' (d.takeIndex t) := by
  obtain ⟨m', hget, hm', -, hcached⟩ := h.getFileHandle t
  have hnext := (hm'.handles t _ hcached).2
  refine ⟨{ m' with nextPageIds := Function.update m'.nextPageIds t (some (d.nextPageIds t + 1)) }, ?_, ?_⟩
  · unfold DiskTables.takeIndex
    rw [hget]
    dsimp only
    rw [hnext]
    rfl
  constructor
  case files =>
    intro u
    obtain ⟨file, hfile, hstored, hcount⟩ := hm'.files u
    refine ⟨file, hfile, hstored, fun hnone => ?_⟩
    have hut : u ≠ t := by
      rintro rfl
      cases hcached.symm.trans hnone
    exact (Function.update_of_ne hut ..).trans (hcount hnone)
  case handles =>
    intro u name hname
    refine ⟨(hm'.handles u name hname).1, ?_⟩
    by_cases hut : u = t
    · subst hut
      have hself : (d.takeIndex u).nextPageIds u = d.nextPageIds u + 1 := Function.update_self ..
      rw [hself]
      exact Function.update_self ..
    · have hother : (d.takeIndex t).nextPageIds u = d.nextPageIds u := Function.update_of_ne hut ..
      rw [hother]
      exact (Function.update_of_ne hut ..).trans (hm'.handles u name hname).2
  case unopened =>
    intro u hu
    have hut : u ≠ t := by
      rintro rfl
      cases hcached.symm.trans hu
    exact (Function.update_of_ne hut ..).trans (hm'.unopened u hu)

/-- **A new disk manager** over the same files reads the pages that are stored. -/
theorem restart (h : Backs m d) (hp : d.stored p = true) (buffer : Buffer pageSize) :
    ((DiskTables.new m.files).readPage p buffer).1 = .ok (d.pages p) := by
  obtain ⟨file, hfile, hstored, -⟩ := h.files p.tableId
  obtain ⟨hlen, hbytes⟩ := hstored p.pageIndex hp
  have hget : ((DiskTables.new m.files).getFileHandle p.tableId).1 = .ok (tableFileName p.tableId) ∧
      ((DiskTables.new m.files).getFileHandle p.tableId).2.files = m.files := by
    unfold DiskTables.getFileHandle DiskTables.new
    dsimp only
    rw [hfile]
    exact ⟨rfl, rfl⟩
  unfold DiskTables.readPage
  rcases hh : (DiskTables.new m.files).getFileHandle p.tableId with ⟨r, m'⟩
  rw [hh] at hget
  obtain ⟨rfl, hfiles⟩ := hget
  dsimp only at hfiles ⊢
  rw [hfiles, hfile]
  dsimp only
  rw [TableFile.readAt_eq hlen hbytes]

end Backs

end RarmDb
