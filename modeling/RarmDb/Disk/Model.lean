import Mathlib.Logic.Function.Basic
import RarmDb.Lib.Ghost
import RarmDb.Page.Model

/-!
# The disk manager under concurrent calls

Any number of tasks call `create_table_file`, `allocate_page`, `read_page` and `write_page` for one
table. One step is one section under the lock of the file handles, one `fetch_add`, or one operation of
the file system.

* `TableFile`: the file, with `readAt` and `writeAt`;
* `DiskPc`: where a task is; `DiskManager`: the file, the two caches and the tasks;
* **`DiskManager.step`**: the step of a task, `Move`: what a step can do;
* `DiskReached`: the states of the runs whose steps all meet a condition, with the indices that
  `allocate_page` returned and the number of those that it took.
-/

namespace RarmDb

/-! ## The table file -/

/-- The file of the table: its length, and its bytes by offset. -/
structure TableFile where
  len : ℕ
  bytes : ℕ → UInt8

namespace TableFile

/-- `create_file`: a file without bytes. -/
def empty : TableFile := ⟨0, fun _ => 0⟩

/-- `write_at`, of a page. -/
def writeAt (file : TableFile) (data : Buffer pageSize) (offset : ℕ) : TableFile where
  len := max file.len (offset + pageSize)
  bytes k := if offset ≤ k ∧ k < offset + pageSize then data.get (k - offset) else file.bytes k

/-- `read_at`: the number of bytes read, and the buffer with them. -/
def readAt (file : TableFile) (buffer : Buffer pageSize) (offset : ℕ) : ℕ × Buffer pageSize :=
  (min pageSize (file.len - offset),
    ⟨fun k => if offset + k < file.len then file.bytes (offset + k) else buffer.byte k⟩)

end TableFile

/-! ## Tasks -/

/-- The calls that look up the file handle first. -/
inductive FileCall
  | allocatePage
  | readPage (pageIndex : UInt32) (buffer : Buffer pageSize)
  | writePage (pageIndex : UInt32) (buffer : Buffer pageSize)

/-- What a call returned. -/
inductive FileOut
  | done
  | page (pageIndex : UInt32)
  | buffer (buffer : Buffer pageSize)
  | error

/-- The next action of a task. -/
inductive DiskPc
  /-- A call; the last one returned this. -/
  | idle (out : FileOut)
  /-- `create_table_file`: `create_dir_all`, `create_file`, and the section that adds the handle. -/
  | createDir
  | createFile
  | cacheNew
  /-- `get_file_handle`: the cached handle, `open_file`, `len`, and the section that adds the handle. -/
  | lookup (call : FileCall)
  | openFile (call : FileCall)
  | fileLen (call : FileCall)
  | cacheOpened (call : FileCall) (fileLength : ℕ)
  /-- The file handle was returned: `fetch_add`, `read_at` or `write_at`. -/
  | use (call : FileCall)
  /-- `allocate_page`: the zeros are written. -/
  | zeroFill (nextIndex : UInt32)
  /-- An `unwrap` failed. -/
  | panicked

/-- The call of an idle task; otherwise the task goes on. -/
inductive DiskChoice
  | go
  | createTableFile
  | call (call : FileCall)

/-- `DiskManager` for one table: its file, whether its handle is in `file_handles`, its entry in
`next_page_ids`, and the tasks. -/
structure DiskManager (τ : Type) where
  file : Option TableFile
  cached : Bool
  nextPageId : Option UInt32
  tasks : τ → DiskPc

namespace DiskManager

variable {τ : Type} [DecidableEq τ]

/-- `DiskManager::new`. -/
def new (τ : Type) (file : Option TableFile) : DiskManager τ := ⟨file, false, none, fun _ => .idle .done⟩

/-- The task goes on at `pc`. -/
def goto (m : DiskManager τ) (t : τ) (pc : DiskPc) : DiskManager τ :=
  { m with tasks := Function.update m.tasks t pc }

/-- A page is written to the file. -/
def writePage (m : DiskManager τ) (i : UInt32) (data : Buffer pageSize) : DiskManager τ :=
  { m with file := m.file.map fun file => file.writeAt data (i.toNat * pageSize) }

/-- **The step of a task.** Operations of the file system succeed, but `create_file` of a file that
exists and `open_file` of one that does not. -/
def step (m : DiskManager τ) (t : τ) (c : DiskChoice) : Option (DiskManager τ) :=
  match m.tasks t, c with
  | .idle _, .createTableFile => some (m.goto t .createDir)
  | .idle _, .call call => some (m.goto t (.lookup call))
  | .createDir, .go => some (m.goto t .createFile)
  | .createFile, .go =>
    match m.file with
    | some _ => some (m.goto t (.idle .error))
    | none => some ({ m with file := some .empty }.goto t .cacheNew)
  | .cacheNew, .go => some ({ m with cached := true, nextPageId := some 0 }.goto t (.idle .done))
  | .lookup call, .go => some (m.goto t (if m.cached then .use call else .openFile call))
  | .openFile call, .go => some (m.goto t (if m.file.isSome then .fileLen call else .idle .error))
  | .fileLen call, .go => m.file.map fun file => m.goto t (.cacheOpened call file.len)
  | .cacheOpened call fileLength, .go =>
    if m.cached then some (m.goto t (.use call))
    else some ({ m with
      cached := true
      nextPageId := some (m.nextPageId.getD (UInt32.ofNat (fileLength / pageSize))) }.goto t (.use call))
  | .use .allocatePage, .go =>
    match m.nextPageId with
    | some nextIndex => some ({ m with nextPageId := some (nextIndex + 1) }.goto t (.zeroFill nextIndex))
    | none => some (m.goto t .panicked)
  | .use (.readPage i buffer), .go => m.file.map fun file =>
    m.goto t (.idle (.buffer (file.readAt buffer (i.toNat * pageSize)).2))
  | .use (.writePage i buffer), .go => some ((m.writePage i buffer).goto t (.idle .done))
  | .zeroFill i, .go => some ((m.writePage i (Buffer.const pageSize 0)).goto t (.idle (.page i)))
  | _, _ => none

/-! ## What a step can do -/

/-- The steps of the task `t`, one constructor for each action. -/
inductive Move (m : DiskManager τ) (t : τ) : DiskManager τ → Prop
  | createTableFile {out} (hpc : m.tasks t = .idle out) : Move m t (m.goto t .createDir)
  | call {out} (hpc : m.tasks t = .idle out) (call : FileCall) : Move m t (m.goto t (.lookup call))
  | createDir (hpc : m.tasks t = .createDir) : Move m t (m.goto t .createFile)
  | exists (hpc : m.tasks t = .createFile) : Move m t (m.goto t (.idle .error))
  | createFile (hpc : m.tasks t = .createFile) (hfile : m.file = none) :
      Move m t ({ m with file := some .empty }.goto t .cacheNew)
  | cacheNew (hpc : m.tasks t = .cacheNew) :
      Move m t ({ m with cached := true, nextPageId := some 0 }.goto t (.idle .done))
  | found {call} (hpc : m.tasks t = .lookup call ∨ ∃ len, m.tasks t = .cacheOpened call len)
      (hcached : m.cached = true) : Move m t (m.goto t (.use call))
  | missing {call} (hpc : m.tasks t = .lookup call) : Move m t (m.goto t (.openFile call))
  | openFile {call} (hpc : m.tasks t = .openFile call) (hfile : m.file ≠ none) :
      Move m t (m.goto t (.fileLen call))
  | noFile {call} (hpc : m.tasks t = .openFile call) : Move m t (m.goto t (.idle .error))
  | fileLen {call file} (hpc : m.tasks t = .fileLen call) (hfile : m.file = some file) :
      Move m t (m.goto t (.cacheOpened call file.len))
  | cacheOpened {call len} (hpc : m.tasks t = .cacheOpened call len) (hcached : m.cached = false) :
      Move m t ({ m with
        cached := true
        nextPageId := some (m.nextPageId.getD (UInt32.ofNat (len / pageSize))) }.goto t (.use call))
  | fetchAdd {i} (hpc : m.tasks t = .use .allocatePage) (hnext : m.nextPageId = some i) :
      Move m t ({ m with nextPageId := some (i + 1) }.goto t (.zeroFill i))
  | panic (hpc : m.tasks t = .use .allocatePage) (hnext : m.nextPageId = none) :
      Move m t (m.goto t .panicked)
  | read {i buffer out} (hpc : m.tasks t = .use (.readPage i buffer)) : Move m t (m.goto t (.idle out))
  | write {i buffer} (hpc : m.tasks t = .use (.writePage i buffer)) :
      Move m t ((m.writePage i buffer).goto t (.idle .done))
  | zeroFill {i} (hpc : m.tasks t = .zeroFill i) :
      Move m t ((m.writePage i (Buffer.const pageSize 0)).goto t (.idle (.page i)))

variable {m m' : DiskManager τ} {t : τ} {c : DiskChoice}

/-- **Every step is one of the moves.** -/
theorem move_of_step (h : m.step t c = some m') : Move m t m' := by
  unfold step at h
  split at h
  case h_1 hpc =>
    cases h
    exact .createTableFile hpc
  case h_2 hpc =>
    cases h
    exact .call hpc _
  case h_3 hpc =>
    cases h
    exact .createDir hpc
  case h_4 hpc =>
    split at h
    · cases h
      exact .exists hpc
    · rename_i hfile
      cases h
      exact .createFile hpc hfile
  case h_5 hpc =>
    cases h
    exact .cacheNew hpc
  case h_6 hpc =>
    cases h
    split_ifs with hcached
    · exact .found (.inl hpc) hcached
    · exact .missing hpc
  case h_7 hpc =>
    cases h
    split_ifs with hfile
    · exact .openFile hpc (Option.isSome_iff_ne_none.mp hfile)
    · exact .noFile hpc
  case h_8 hpc =>
    obtain ⟨file, hfile, rfl⟩ := Option.map_eq_some_iff.mp h
    exact .fileLen hpc hfile
  case h_9 hpc =>
    split_ifs at h with hcached
    · cases h
      exact .found (.inr ⟨_, hpc⟩) hcached
    · cases h
      exact .cacheOpened hpc (Bool.eq_false_iff.mpr hcached)
  case h_10 hpc =>
    split at h
    · rename_i hnext
      cases h
      exact .fetchAdd hpc hnext
    · rename_i hnext
      cases h
      exact .panic hpc hnext
  case h_11 hpc =>
    obtain ⟨file, hfile, rfl⟩ := Option.map_eq_some_iff.mp h
    exact .read hpc
  case h_12 hpc =>
    cases h
    exact .write hpc
  case h_13 hpc =>
    cases h
    exact .zeroFill hpc
  case h_14 => cases h

end DiskManager

/-! ## Runs -/

section Runs

variable {τ : Type} [DecidableEq τ]

/-- The number of indices taken after a step of a task that was at `pc`. -/
def takenAfter (k : ℕ) : DiskPc → ℕ
  | .use .allocatePage => k + 1
  | _ => k

/-- The indices returned by `allocate_page` after a step of a task that was at `pc`. -/
def returnedAfter (returned : List UInt32) : DiskPc → List UInt32
  | .zeroFill i => i :: returned
  | _ => returned

variable (τ) in
/-- The number of `fetch_add`s, and the indices that `allocate_page` returned, the last one first. -/
def diskSystem : Ghost.System (DiskManager τ) (ℕ × List UInt32) (τ × DiskChoice) where
  step m a := m.step a.1 a.2
  note g m a := (takenAfter g.1 (m.tasks a.1), returnedAfter g.2 (m.tasks a.1))

/-- The states of the runs whose steps all meet the condition `ok`. -/
def DiskReached (file : Option TableFile) (ok : DiskManager τ → τ → Prop) (k : ℕ) (returned : List UInt32)
    (m : DiskManager τ) : Prop :=
  (diskSystem τ).Reached (fun m _ a => ok m a.1) (DiskManager.new τ file) (0, []) m (k, returned)

end Runs

end RarmDb
