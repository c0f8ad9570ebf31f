import Std.Data.String.ToNat
import Mathlib.Logic.Function.Basic
import RarmDb.Lib.Refine
import RarmDb.Disk.Model

/-!
# The disk manager and its files

`DiskManager` with all its tables, one call after the other.

* `DiskTables`: the files below the base path, the cached handles and the counters;
* `getFileHandle`, `createTableFile`, `allocatePage`, `readPage`, `writePage`;
* `PageStore`: what the disk manager is for, a map from page ids to pages;
* `StoresPages`: the files hold the pages of the store;
* **`diskManager_refines_pageStore`**: every admitted run, with restarts, has the outputs of the store.
-/

namespace RarmDb

/-! ## The model -/

/-- `{table_id}.tbl`, below the base path. -/
def tableFileName (tableId : UInt32) : String := tableId.toNat.repr ++ ".tbl"

/-- `DiskManager`: the files below the base path by name, the file of every cached handle, and the next
page index of every table. -/
structure DiskTables where
  files : String → Option TableFile
  fileHandles : UInt32 → Option String
  nextPageIds : UInt32 → Option UInt32

/-- The errors of the file system that the calls pass on. -/
inductive FileError
  | notFound
  | alreadyExists

namespace DiskTables

/-- `DiskManager::new`, over these files. -/
def new (files : String → Option TableFile) : DiskTables := ⟨files, fun _ => none, fun _ => none⟩

/-- `get_file_handle`. No other call runs in between, so the second look at the cache finds nothing. -/
def getFileHandle (m : DiskTables) (tableId : UInt32) : Except FileError String × DiskTables :=
  match m.fileHandles tableId with
  | some handle => (.ok handle, m)
  | none =>
    match m.files (tableFileName tableId) with
    | none => (.error .notFound, m)
    | some file =>
      let nextIndex := (m.nextPageIds tableId).getD (UInt32.ofNat (file.len / pageSize))
      (.ok (tableFileName tableId),
        { m with
          nextPageIds := Function.update m.nextPageIds tableId (some nextIndex)
          fileHandles := Function.update m.fileHandles tableId (some (tableFileName tableId)) })

/-- `write_at`, through a handle. -/
def writeAt (m : DiskTables) (handle : String) (data : Buffer pageSize) (offset : ℕ) : DiskTables :=
  let file := (m.files handle).map fun file => file.writeAt data offset
  { m with files := Function.update m.files handle file }

/-- `create_table_file`. -/
def createTableFile (m : DiskTables) (tableId : UInt32) : Except FileError Unit × DiskTables :=
  match m.files (tableFileName tableId) with
  | some _ => (.error .alreadyExists, m)
  | none => (.ok (),
    { files := Function.update m.files (tableFileName tableId) (some .empty)
      fileHandles := Function.update m.fileHandles tableId (some (tableFileName tableId))
      nextPageIds := Function.update m.nextPageIds tableId (some 0) })

/-- `allocate_page`. -/
def allocatePage (m : DiskTables) (tableId : UInt32) : Exec (Except FileError PageId × DiskTables) :=
  match m.getFileHandle tableId with
  | (.error e, m) => return (.error e, m)
  | (.ok fileHandle, m) => do
    let nextIndex ← Exec.unwrap (m.nextPageIds tableId)
    let m := { m with nextPageIds := Function.update m.nextPageIds tableId (some (nextIndex + 1)) }
    let m := m.writeAt fileHandle (Buffer.const pageSize 0) (nextIndex.toNat * pageSize)
    return (.ok ⟨tableId, nextIndex⟩, m)

/-- `read_page`, into this buffer. -/
def readPage (m : DiskTables) (p : PageId) (buffer : Buffer pageSize) :
    Except FileError (Buffer pageSize) × DiskTables :=
  match m.getFileHandle p.tableId with
  | (.error e, m) => (.error e, m)
  | (.ok fileHandle, m) =>
    match m.files fileHandle with
    | none => (.error .notFound, m)
    | some file => (.ok (file.readAt buffer (p.pageIndex.toNat * pageSize)).2, m)

/-- `write_page`. -/
def writePage (m : DiskTables) (p : PageId) (buffer : Buffer pageSize) :
    Except FileError Unit × DiskTables :=
  match m.getFileHandle p.tableId with
  | (.error e, m) => (.error e, m)
  | (.ok fileHandle, m) => (.ok (), m.writeAt fileHandle buffer (p.pageIndex.toNat * pageSize))

end DiskTables

/-- The calls, and a restart: the disk manager is dropped, and a new one opened over the same files. -/
inductive DiskOp
  | createTableFile (tableId : UInt32)
  | allocatePage (tableId : UInt32)
  | readPage (p : PageId) (buffer : Buffer pageSize)
  | writePage (p : PageId) (buffer : Buffer pageSize)
  | restart

/-- What a call returns. -/
inductive DiskOut
  | done
  | page (p : PageId)
  | buffer (buffer : Buffer pageSize)
  | error (e : FileError)

/-- Run one operation. -/
def DiskOp.run (m : DiskTables) : DiskOp → Exec (DiskOut × DiskTables)
  | createTableFile tableId =>
    match m.createTableFile tableId with
    | (.ok (), m) => return (.done, m)
    | (.error e, m) => return (.error e, m)
  | allocatePage tableId => do
    let (result, m) ← m.allocatePage tableId
    match result with
    | .ok p => return (.page p, m)
    | .error e => return (.error e, m)
  | readPage p buffer =>
    match m.readPage p buffer with
    | (.ok buffer, m) => return (.buffer buffer, m)
    | (.error e, m) => return (.error e, m)
  | writePage p buffer =>
    match m.writePage p buffer with
    | (.ok (), m) => return (.done, m)
    | (.error e, m) => return (.error e, m)
  | restart => return (.done, .new m.files)

/-! ## A store of pages -/

/-- The number of pages of every table that was created, and what every page holds that was returned by
`allocate_page`. -/
structure PageStore where
  pages : UInt32 → Option ℕ
  content : PageId → Option (Buffer pageSize)

namespace PageStore

/-- No table was created. -/
def empty : PageStore := ⟨fun _ => none, fun _ => none⟩

/-- What an operation returns and does. A page holds what was last written to it, or zeros. -/
def step (σ : PageStore) : DiskOp → DiskOut × PageStore
  | .createTableFile tableId =>
    (.done, { σ with pages := Function.update σ.pages tableId (some 0) })
  | .allocatePage tableId =>
    let count := (σ.pages tableId).getD 0
    let p : PageId := ⟨tableId, UInt32.ofNat count⟩
    (.page p, ⟨Function.update σ.pages tableId (some (count + 1)),
      Function.update σ.content p (some (Buffer.const pageSize 0))⟩)
  | .readPage p buffer => (.buffer ((σ.content p).getD buffer), σ)
  | .writePage p buffer => (.done, { σ with content := Function.update σ.content p (some buffer) })
  | .restart => (.done, σ)

/-- A table is created once, at most `2 ^ 32 - 1` pages are allocated for it, and only pages that
`allocate_page` returned are read and written. -/
def Admits (σ : PageStore) : DiskOp → Prop
  | .createTableFile tableId => σ.pages tableId = none
  | .allocatePage tableId => ∃ count, σ.pages tableId = some count ∧ count + 1 < 2 ^ 32
  | .readPage p _ => σ.content p ≠ none
  | .writePage p _ => σ.content p ≠ none
  | .restart => True

end PageStore

/-! ## Files and their pages -/

theorem tableFileName_inj {t u : UInt32} (h : tableFileName t = tableFileName u) : t = u := by
  apply UInt32.toNat_inj.mp
  apply Nat.repr_injective
  exact String.append_left_inj _ |>.mp h

namespace TableFile

variable {file : TableFile} {data : Buffer pageSize} {i j k : ℕ}

theorem len_writeAt {n : ℕ} (h : file.len = n * pageSize) :
    (file.writeAt data (i * pageSize)).len = max n (i + 1) * pageSize := by
  change max file.len (i * pageSize + pageSize) = _
  rw [h, ← Nat.succ_mul]
  exact Nat.mul_max_mul_right ..

theorem bytes_writeAt_same (hk : k < pageSize) :
    (file.writeAt data (i * pageSize)).bytes (i * pageSize + k) = data.get k := by
  change (if _ then _ else _) = _
  rw [if_pos ⟨Nat.le_add_right .., Nat.add_lt_add_left hk _⟩, Nat.add_sub_cancel_left]

theorem bytes_writeAt_other (hk : k < pageSize) (hij : i ≠ j) :
    (file.writeAt data (i * pageSize)).bytes (j * pageSize + k) = file.bytes (j * pageSize + k) := by
  change (if _ then _ else _) = _
  rw [if_neg]
  rintro ⟨hlow, hhigh⟩
  rcases Nat.lt_or_gt_of_ne hij with hlt | hlt
  · have hmul := Nat.mul_le_mul_right pageSize (Nat.succ_le_of_lt hlt)
    rw [Nat.succ_mul] at hmul
    omega
  · have hmul := Nat.mul_le_mul_right pageSize (Nat.succ_le_of_lt hlt)
    rw [Nat.succ_mul] at hmul
    omega

theorem readAt_eq {buffer : Buffer pageSize} (hlen : (i + 1) * pageSize ≤ file.len)
    (hbytes : ∀ k < pageSize, file.bytes (i * pageSize + k) = data.get k) :
    (file.readAt buffer (i * pageSize)).2 = data := by
  refine Buffer.ext (funext fun k => ?_)
  have hlt : i * pageSize + k < file.len := by
    have := k.2
    rw [Nat.succ_mul] at hlen
    omega
  change (if i * pageSize + k < file.len then _ else _) = _
  rw [if_pos hlt, hbytes k k.2, Buffer.get_of_lt _ k.2]

end TableFile

/-! ## The files hold the pages of the store -/

/-- The file holds the pages of a table. -/
structure HoldsTable (content : UInt32 → Option (Buffer pageSize)) (count : ℕ) (file : TableFile) :
    Prop where
  len : file.len = count * pageSize
  inside : ∀ i data, content i = some data → i.toNat < count
  bytes : ∀ i data, content i = some data →
    ∀ k < pageSize, file.bytes (i.toNat * pageSize + k) = data.get k

/-- The pages of a table and their content, its file, its cached handle and its counter. The counter is
the number of pages once the handle was cached. -/
structure TableInv (t : UInt32) (pages : Option ℕ) (content : UInt32 → Option (Buffer pageSize))
    (file : Option TableFile) (handle : Option String) (next : Option UInt32) : Prop where
  noFile : pages = none → file = none ∧ ∀ i, content i = none
  held : ∀ count, pages = some count → count < 2 ^ 32 ∧ ∃ f, file = some f ∧ HoldsTable content count f
  cached : ∀ name, handle = some name → name = tableFileName t ∧
    ∃ count, pages = some count ∧ next = some (UInt32.ofNat count)
  unopened : handle = none → next = none

/-- The files hold the pages of the store. -/
def StoresPages (m : DiskTables) (σ : PageStore) : Prop :=
  ∀ t, TableInv t (σ.pages t) (fun i => σ.content ⟨t, i⟩) (m.files (tableFileName t)) (m.fileHandles t)
    (m.nextPageIds t)

/-- Only the table `t` and its file are different. -/
structure OnlyTable (t : UInt32) (m m' : DiskTables) (σ σ' : PageStore) : Prop where
  pages : ∀ u ≠ t, σ'.pages u = σ.pages u
  content : ∀ u ≠ t, ∀ i, σ'.content ⟨u, i⟩ = σ.content ⟨u, i⟩
  files : ∀ u ≠ t, m'.files (tableFileName u) = m.files (tableFileName u)
  fileHandles : ∀ u ≠ t, m'.fileHandles u = m.fileHandles u
  nextPageIds : ∀ u ≠ t, m'.nextPageIds u = m.nextPageIds u

namespace StoresPages

open TableFile

variable {m m' : DiskTables} {σ σ' : PageStore} {t : UInt32} {count : ℕ} {data : Buffer pageSize}

theorem change (h : StoresPages m σ) (honly : OnlyTable t m m' σ σ')
    (ht : TableInv t (σ'.pages t) (fun i => σ'.content ⟨t, i⟩) (m'.files (tableFileName t))
      (m'.fileHandles t) (m'.nextPageIds t)) : StoresPages m' σ' := by
  intro u
  by_cases hut : u = t
  · rw [hut]
    exact ht
  · have hcontent : (fun i => σ'.content ⟨u, i⟩) = fun i => σ.content ⟨u, i⟩ :=
      funext (honly.content u hut)
    rw [honly.pages u hut, hcontent, honly.files u hut, honly.fileHandles u hut,
      honly.nextPageIds u hut]
    exact h u

theorem pages_of_content (h : StoresPages m σ) {p : PageId} (hp : σ.content p = some data) :
    ∃ count, σ.pages p.tableId = some count := by
  cases hpages : σ.pages p.tableId with
  | some count => exact ⟨count, rfl⟩
  | none =>
    have hnone : σ.content p = none := ((h p.tableId).noFile hpages).2 p.pageIndex
    rw [hnone] at hp
    cases hp

/-- **The handle of a table that was created**, cached or opened now. -/
theorem getFileHandle (h : StoresPages m σ) (ht : σ.pages t = some count) :
    ∃ m', m.getFileHandle t = (.ok (tableFileName t), m') ∧ StoresPages m' σ ∧ m'.files = m.files ∧
      m'.fileHandles t = some (tableFileName t) ∧ m'.nextPageIds t = some (UInt32.ofNat count) := by
  unfold DiskTables.getFileHandle
  cases hhandle : m.fileHandles t with
  | some name =>
    obtain ⟨rfl, count', ht', hnext⟩ := (h t).cached name hhandle
    obtain rfl := Option.some.inj (ht.symm.trans ht')
    exact ⟨m, rfl, h, rfl, hhandle, hnext⟩
  | none =>
    obtain ⟨hlt, file, hfile, hholds⟩ := (h t).held count ht
    have hnext : (m.nextPageIds t).getD (UInt32.ofNat (file.len / pageSize)) = UInt32.ofNat count := by
      rw [(h t).unopened hhandle, hholds.len, Nat.mul_div_cancel _ (by decide)]
      rfl
    simp only [hfile, hnext]
    refine ⟨_, rfl, h.change (t := t) ⟨?_, ?_, ?_, ?_, ?_⟩ ?_, rfl, Function.update_self ..,
      Function.update_self ..⟩
    · exact fun _ _ => rfl
    · exact fun _ _ _ => rfl
    · exact fun _ _ => rfl
    · exact fun u hu => Function.update_of_ne hu ..
    · exact fun u hu => Function.update_of_ne hu ..
    · change TableInv t _ _ _ (Function.update m.fileHandles t _ t) (Function.update m.nextPageIds t _ t)
      rw [Function.update_self, Function.update_self]
      refine ⟨(h t).noFile, (h t).held, fun name hname => ?_, fun hnone => (by cases hnone)⟩
      exact ⟨(Option.some.inj hname).symm, count, ht, rfl⟩

/-- **A page is written**: one that the table has, or the next one. -/
theorem writeAt (h : StoresPages m σ) (ht : σ.pages t = some count)
    (hhandle : m.fileHandles t = some (tableFileName t)) {i : UInt32} (hi : i.toNat ≤ count)
    (hcount : max count (i.toNat + 1) < 2 ^ 32)
    (hnext : m'.nextPageIds t = some (UInt32.ofNat (max count (i.toNat + 1))))
    (hnext' : ∀ u ≠ t, m'.nextPageIds u = m.nextPageIds u)
    (hfiles : m'.files = m.files) (hhandles : m'.fileHandles = m.fileHandles) :
    StoresPages (m'.writeAt (tableFileName t) data (i.toNat * pageSize))
      ⟨Function.update σ.pages t (some (max count (i.toNat + 1))),
        Function.update σ.content ⟨t, i⟩ (some data)⟩ := by
  obtain ⟨-, file, hfile, hholds⟩ := (h t).held count ht
  refine h.change (t := t) ⟨?_, ?_, ?_, ?_, hnext'⟩ ?_
  · exact fun u hu => Function.update_of_ne hu ..
  · exact fun u hu j => Function.update_of_ne (fun heq => hu (congrArg PageId.tableId heq)) ..
  · intro u hu
    change Function.update m'.files _ _ _ = _
    rw [Function.update_of_ne fun heq => hu (tableFileName_inj heq), hfiles]
  · exact fun u _ => congrFun hhandles u
  · change TableInv t (Function.update σ.pages t _ t) _ (Function.update m'.files _ _ _)
      (m'.fileHandles t) (m'.nextPageIds t)
    rw [Function.update_self, Function.update_self, hnext, hhandles, hhandle, hfiles, hfile]
    refine ⟨fun hnone => (by cases hnone), fun n hn => ?_, fun name hname => ?_,
      fun hnone => (by cases hnone)⟩
    · obtain rfl := Option.some.inj hn
      have hother : ∀ j ≠ i, Function.update σ.content ⟨t, i⟩ (some data) ⟨t, j⟩ = σ.content ⟨t, j⟩ :=
        fun j hj => Function.update_of_ne (fun heq => hj (congrArg PageId.pageIndex heq)) ..
      refine ⟨hcount, _, rfl, len_writeAt hholds.len, fun j data' hj => ?_, fun j data' hj k hk => ?_⟩
      · by_cases hji : j = i
        · rw [hji]
          omega
        · have hlt := hholds.inside j data' ((hother j hji).symm.trans hj)
          omega
      · by_cases hji : j = i
        · subst hji
          change Function.update σ.content ⟨t, j⟩ (some data) ⟨t, j⟩ = some data' at hj
          rw [Function.update_self] at hj
          rw [bytes_writeAt_same hk, Option.some.inj hj]
        · have hne : i.toNat ≠ j.toNat := fun heq => hji (UInt32.toNat_inj.mp heq).symm
          rw [bytes_writeAt_other hk hne]
          exact hholds.bytes j data' ((hother j hji).symm.trans hj) k hk
    · exact ⟨(Option.some.inj hname).symm, _, rfl, rfl⟩

theorem restart (h : StoresPages m σ) : StoresPages (.new m.files) σ := fun t =>
  ⟨(h t).noFile, (h t).held, fun _ hname => (by cases hname), fun _ => rfl⟩

theorem createTableFile (h : StoresPages m σ) (ht : σ.pages t = none) :
    ∃ m', m.createTableFile t = (.ok (), m') ∧
      StoresPages m' { σ with pages := Function.update σ.pages t (some 0) } := by
  obtain ⟨hfile, hcontent⟩ := (h t).noFile ht
  unfold DiskTables.createTableFile
  rw [hfile]
  refine ⟨_, rfl, h.change (t := t) ⟨?_, ?_, ?_, ?_, ?_⟩ ?_⟩
  · exact fun u hu => Function.update_of_ne hu ..
  · exact fun _ _ _ => rfl
  · exact fun u hu => Function.update_of_ne (fun heq => hu (tableFileName_inj heq)) ..
  · exact fun u hu => Function.update_of_ne hu ..
  · exact fun u hu => Function.update_of_ne hu ..
  · change TableInv t (Function.update σ.pages t _ t) _ (Function.update m.files _ _ _)
      (Function.update m.fileHandles t _ t) (Function.update m.nextPageIds t _ t)
    rw [Function.update_self, Function.update_self, Function.update_self, Function.update_self]
    refine ⟨fun hnone => (by cases hnone), fun n hn => ?_, fun name hname => ?_,
      fun hnone => (by cases hnone)⟩
    · obtain rfl := Option.some.inj hn
      refine ⟨by decide, _, rfl, (Nat.zero_mul _).symm, fun i data hi => ?_, fun i data hi => ?_⟩
      · exact absurd ((hcontent i).symm.trans hi) (Option.some_ne_none data).symm
      · exact absurd ((hcontent i).symm.trans hi) (Option.some_ne_none data).symm
    · exact ⟨(Option.some.inj hname).symm, 0, rfl, rfl⟩

theorem allocatePage (h : StoresPages m σ) (ht : σ.pages t = some count) (hcount : count + 1 < 2 ^ 32) :
    ∃ m', m.allocatePage t = .ret (.ok ⟨t, UInt32.ofNat count⟩, m') ∧
      StoresPages m' ⟨Function.update σ.pages t (some (count + 1)),
        Function.update σ.content ⟨t, UInt32.ofNat count⟩ (some (Buffer.const pageSize 0))⟩ := by
  obtain ⟨m₁, hget, h₁, -, hhandle, hnext⟩ := h.getFileHandle ht
  have htoNat : (UInt32.ofNat count).toNat = count := UInt32.toNat_ofNat_of_lt' (show count < 2 ^ 32 by omega)
  have hmax : max count ((UInt32.ofNat count).toNat + 1) = count + 1 := by
    rw [htoNat]
    omega
  have hsucc : some (UInt32.ofNat count + 1) =
      some (UInt32.ofNat (max count ((UInt32.ofNat count).toNat + 1))) := by
    rw [hmax, UInt32.ofNat_add]
    rfl
  let m₂ : DiskTables :=
    { m₁ with nextPageIds := Function.update m₁.nextPageIds t (some (UInt32.ofNat count + 1)) }
  have hnext₂ : m₂.nextPageIds t = some (UInt32.ofNat count + 1) := Function.update_self ..
  have hwrite : StoresPages (m₂.writeAt (tableFileName t) (Buffer.const pageSize 0)
      ((UInt32.ofNat count).toNat * pageSize)) _ :=
    h₁.writeAt ht hhandle htoNat.le (hmax ▸ hcount) (hnext₂.trans hsucc)
      (fun u hu => Function.update_of_ne hu ..) rfl rfl
  rw [hmax] at hwrite
  refine ⟨_, ?_, hwrite⟩
  rw [DiskTables.allocatePage, hget]
  dsimp only
  rw [hnext, Exec.unwrap_some, Exec.ret_bind]
  rfl

theorem readPage (h : StoresPages m σ) {p : PageId} (hp : σ.content p = some data)
    (buffer : Buffer pageSize) :
    ∃ m', m.readPage p buffer = (.ok data, m') ∧ StoresPages m' σ := by
  obtain ⟨count, ht⟩ := h.pages_of_content hp
  obtain ⟨m₁, hget, h₁, hfiles, -, -⟩ := h.getFileHandle ht
  obtain ⟨-, file, hfile, hholds⟩ := (h p.tableId).held count ht
  have hlen : (p.pageIndex.toNat + 1) * pageSize ≤ file.len := by
    rw [hholds.len]
    exact Nat.mul_le_mul_right _ (hholds.inside _ data hp)
  refine ⟨m₁, ?_, h₁⟩
  rw [DiskTables.readPage, hget]
  dsimp only
  rw [hfiles, hfile]
  dsimp only
  rw [readAt_eq hlen (hholds.bytes _ data hp)]

theorem writePage (h : StoresPages m σ) {p : PageId} (hp : σ.content p ≠ none)
    (buffer : Buffer pageSize) :
    ∃ m', m.writePage p buffer = (.ok (), m') ∧
      StoresPages m' { σ with content := Function.update σ.content p (some buffer) } := by
  obtain ⟨data, hdata⟩ := Option.ne_none_iff_exists'.mp hp
  obtain ⟨count, ht⟩ := h.pages_of_content hdata
  obtain ⟨m₁, hget, h₁, -, hhandle, hnext⟩ := h.getFileHandle ht
  obtain ⟨hlt, file, -, hholds⟩ := (h p.tableId).held count ht
  have hi : p.pageIndex.toNat < count := hholds.inside _ data hdata
  have hmax : max count (p.pageIndex.toNat + 1) = count := max_eq_left hi
  have hnext₁ : m₁.nextPageIds p.tableId = some (UInt32.ofNat (max count (p.pageIndex.toNat + 1))) := by
    rw [hmax, hnext]
  have hwrite : StoresPages (m₁.writeAt (tableFileName p.tableId) buffer
      (p.pageIndex.toNat * pageSize)) _ :=
    h₁.writeAt ht hhandle hi.le (hmax.symm ▸ hlt) hnext₁ (fun _ _ => rfl) rfl rfl
  have hpages : Function.update σ.pages p.tableId (some count) = σ.pages := by
    rw [← ht, Function.update_eq_self]
  rw [hmax, hpages] at hwrite
  refine ⟨_, ?_, hwrite⟩
  rw [DiskTables.writePage, hget]

end StoresPages

theorem storesPages_empty : StoresPages (.new fun _ => none) .empty := fun _ =>
  ⟨fun _ => ⟨rfl, fun _ => rfl⟩, fun _ hn => (by cases hn), fun _ hname => (by cases hname), fun _ => rfl⟩

/-- **One operation** has the output of the store. -/
theorem DiskOp.run_spec {m : DiskTables} {σ : PageStore} (op : DiskOp) (hok : σ.Admits op)
    (h : StoresPages m σ) :
    ∃ m', op.run m = .ret ((σ.step op).1, m') ∧ StoresPages m' (σ.step op).2 := by
  cases op with
  | createTableFile t =>
    obtain ⟨m', hrun, h'⟩ := h.createTableFile hok
    refine ⟨m', ?_, h'⟩
    rw [DiskOp.run, hrun]
    rfl
  | allocatePage t =>
    obtain ⟨count, ht, hcount⟩ := hok
    obtain ⟨m', hrun, h'⟩ := h.allocatePage ht hcount
    refine ⟨m', ?_, ?_⟩
    · rw [DiskOp.run, hrun, Exec.ret_bind, PageStore.step, ht]
      rfl
    · rw [PageStore.step, ht]
      exact h'
  | readPage p buffer =>
    obtain ⟨data, hdata⟩ := Option.ne_none_iff_exists'.mp hok
    obtain ⟨m', hrun, h'⟩ := h.readPage hdata buffer
    refine ⟨m', ?_, h'⟩
    rw [DiskOp.run, hrun, PageStore.step, hdata]
    rfl
  | writePage p buffer =>
    obtain ⟨m', hrun, h'⟩ := h.writePage hok buffer
    refine ⟨m', ?_, h'⟩
    rw [DiskOp.run, hrun]
    rfl
  | restart => exact ⟨_, rfl, h.restart⟩

/-- **The disk manager is a store of pages.** From no files, every sequence of calls and restarts that the
store admits returns what the store returns: a page holds what was last written to it, or zeros,
`allocate_page` returns the number of pages of the table, and no operation changes another page. -/
theorem diskManager_refines_pageStore (ops : List DiskOp)
    (hok : AdmittedBy PageStore.step PageStore.Admits .empty ops) :
    ∃ run, trace DiskOp.run (.new fun _ => none) ops = .ret run ∧
      run.map Prod.fst = outputs PageStore.step .empty ops :=
  trace_outputs (fun _ _ op hop h => op.run_spec hop h) hok storesPages_empty

section Witness

/-- A page of ones. -/
def ones : Buffer pageSize := .const pageSize 1

/-- A page is written, another one allocated after a restart, and both are read. -/
def restartOps : List DiskOp :=
  [.createTableFile 7, .allocatePage 7, .writePage ⟨7, 0⟩ ones, .restart, .allocatePage 7,
    .readPage ⟨7, 0⟩ (.const pageSize 9), .readPage ⟨7, 1⟩ (.const pageSize 9)]

theorem restartOps_outputs : outputs PageStore.step .empty restartOps =
    [.done, .page ⟨7, 0⟩, .done, .done, .page ⟨7, 1⟩, .buffer ones, .buffer (.const pageSize 0)] := rfl

theorem restartOps_admitted : AdmittedBy PageStore.step PageStore.Admits .empty restartOps :=
  ⟨rfl, ⟨0, rfl, by decide⟩, (Option.some_ne_none _ : some (Buffer.const pageSize 0) ≠ none), trivial,
    ⟨1, rfl, by decide⟩, (Option.some_ne_none _ : some ones ≠ none),
    (Option.some_ne_none _ : some (Buffer.const pageSize 0) ≠ none), trivial⟩

theorem diskManager_refines_pageStore_restart :
    ∃ run, trace DiskOp.run (.new fun _ => none) restartOps = .ret run ∧ run.map Prod.fst =
      [.done, .page ⟨7, 0⟩, .done, .done, .page ⟨7, 1⟩, .buffer ones, .buffer (.const pageSize 0)] :=
  restartOps_outputs ▸ diskManager_refines_pageStore restartOps restartOps_admitted

end Witness

end RarmDb
