import RarmDb.Page.Model
import RarmDb.Pool.Evictor

/-!
# The buffer pool

`BufferPoolManager`, `Frame`, the page guards and the parts of `DiskManager` they use. A call runs to
its end here; what waits for a channel that nobody is left to signal, or for a lock that nobody is
left to release, never returns. The sections of the calls are definitions of their own.

* `Disk`: `allocatePage`, `readPage`, `writePage`, which may fail;
* `Frame`, `BufferPoolManager`: the state;
* `evictPage`, `pinFrame`, `unpinFrame`, the entries of `PageProcessingMap`;
* `fetchAndPinFrame`, `createPage`, and the guards they end in.
-/

namespace RarmDb

/-! ## The disk -/

/-- The errors of the operating system, by page. -/
structure Faults where
  readAt : PageId → Option String
  writeAt : PageId → Option String

/-- Every operation succeeds. -/
def Faults.none : Faults := ⟨fun _ => Option.none, fun _ => Option.none⟩

/-- `DiskManager`: the pages of the table files, which pages these files have, and the next page
index of every table. -/
structure Disk where
  pages : PageId → Page
  stored : PageId → Bool
  nextPageIds : UInt32 → UInt32

namespace Disk

/-- Table files with these numbers of pages. The next index is `file_length / PAGE_SIZE` as `u32`. -/
def ofFiles (pages : PageId → Page) (fileLength : UInt32 → ℕ) : Disk where
  pages := pages
  stored p := p.pageIndex.toNat < fileLength p.tableId
  nextPageIds t := UInt32.ofNat (fileLength t)

/-- Overwrite a page. -/
def setPage (d : Disk) (p : PageId) (bytes : Page) : Disk :=
  { d with pages := Function.update d.pages p bytes, stored := Function.update d.stored p true }

/-- `read_page`. -/
def readPage (d : Disk) (io : Faults) (p : PageId) : Except String Page :=
  match io.readAt p with
  | some e => .error e
  | none => .ok (d.pages p)

/-- `write_page`. -/
def writePage (d : Disk) (io : Faults) (p : PageId) (bytes : Page) : Except String Unit × Disk :=
  match io.writeAt p with
  | some e => (.error e, d)
  | none => (.ok (), d.setPage p bytes)

/-- The page that `allocate_page` takes. The counter wraps around. -/
def nextPage (d : Disk) (tableId : UInt32) : PageId := ⟨tableId, d.nextPageIds tableId⟩

/-- `next_page_ids.get(&table_id).fetch_add(1)`. -/
def takeIndex (d : Disk) (tableId : UInt32) : Disk :=
  { d with nextPageIds := Function.update d.nextPageIds tableId (d.nextPageIds tableId + 1) }

/-- `allocate_page`. -/
def allocatePage (d : Disk) (io : Faults) (tableId : UInt32) : Except String PageId × Disk :=
  let p := d.nextPage tableId
  let (result, d) := (d.takeIndex tableId).writePage io p (Buffer.const 8192 0)
  match result with
  | .error e => (.error e, d)
  | .ok () => (.ok p, d)

end Disk

/-! ## Frames -/

/-- `BufferPoolError`. -/
inductive BufferPoolError
  | bufferFull
  | diskRead (message : String)
  | diskWrite (message : String)
  | generic (message : String)
  | pageProcessingBroadcast (message : String)
  | pageAllocation (message : String)
  deriving DecidableEq

instance : ToString PageId where
  toString p := s!"Table: {p.tableId}, Page: {p.pageIndex}"

/-- `Frame`: its bytes with their lock, the dirty flag, the page it holds and the pin count. -/
structure Frame where
  data : Page
  readers : ℕ
  writer : Bool
  isDirty : Bool
  pageId : Option PageId
  pinCount : ℕ

namespace Frame

/-- `Frame::new`. -/
def new : Frame := ⟨Buffer.const 8192 0, 0, false, false, none, 0⟩

/-- `data.read()` returns. -/
def canRead (f : Frame) : Prop := f.writer = false

/-- `data.write()` returns. -/
def canWrite (f : Frame) : Prop := f.writer = false ∧ f.readers = 0

instance (f : Frame) : Decidable f.canRead := inferInstanceAs (Decidable (_ = _))

instance (f : Frame) : Decidable f.canWrite := inferInstanceAs (Decidable (_ ∧ _))

end Frame

/-! ## The pool -/

/-- A broadcast channel. -/
abbrev Channel : Type := ℕ

/-- `BufferPoolManager`, with a pool of `n` frames. The end of the vector of free frames comes first.
`sent` says which channels have had their message. -/
structure BufferPoolManager (n : ℕ) where
  diskManager : Disk
  evictor : ClockEvictor n
  frames : Fin n → Frame
  freeFrames : List (Fin n)
  fetches : PageId → Option Channel
  flushes : PageId → Option Channel
  pageTable : PageId → Option (Fin n)
  nextChannel : Channel
  sent : Channel → Bool

namespace BufferPoolManager

variable {n : ℕ}

/-- `BufferPoolManager::new`. -/
def new (n : ℕ) (diskManager : Disk) : BufferPoolManager n where
  diskManager := diskManager
  evictor := ClockEvictor.new n
  frames _ := Frame.new
  freeFrames := (List.finRange n).reverse
  fetches _ := none
  flushes _ := none
  pageTable _ := none
  nextChannel := 0
  sent _ := false

/-- Change a frame. -/
def modifyFrame (b : BufferPoolManager n) (f : Fin n) (change : Frame → Frame) :
    BufferPoolManager n :=
  { b with frames := Function.update b.frames f (change (b.frames f)) }

/-! ### Pins -/

/-- `increment_pin_count`: the previous count. -/
def incrementPinCount (b : BufferPoolManager n) (f : Fin n) : ℕ × BufferPoolManager n :=
  ((b.frames f).pinCount, b.modifyFrame f fun fr => { fr with pinCount := fr.pinCount + 1 })

/-- `decrement_pin_count`: the previous count, asserted to be positive. -/
def decrementPinCount (b : BufferPoolManager n) (f : Fin n) : Exec (ℕ × BufferPoolManager n) :=
  if (b.frames f).pinCount > 0 then
    .ret ((b.frames f).pinCount, b.modifyFrame f fun fr => { fr with pinCount := fr.pinCount - 1 })
  else .panic

/-- `evictor.add`. -/
def evictorAdd (b : BufferPoolManager n) (f : Fin n) : BufferPoolManager n :=
  { b with evictor := b.evictor.add f }

/-- `evictor.remove`. -/
def evictorRemove (b : BufferPoolManager n) (f : Fin n) : BufferPoolManager n :=
  { b with evictor := b.evictor.remove f }

/-- `pin_frame`. -/
def pinFrame (b : BufferPoolManager n) (f : Fin n) : BufferPoolManager n :=
  let (prevCount, b) := b.incrementPinCount f
  if prevCount = 0 then b.evictorRemove f else b

/-- `unpin_frame`, and what dropping a guard does. -/
def unpinFrame (b : BufferPoolManager n) (f : Fin n) : Exec (BufferPoolManager n) := do
  let (prevCount, b) ← b.decrementPinCount f
  if prevCount = 1 then return b.evictorAdd f else return b

/-! ### Pages being processed -/

/-- `fetches.insert`, with a new channel. -/
def insertFetch (b : BufferPoolManager n) (p : PageId) : BufferPoolManager n :=
  { b with fetches := Function.update b.fetches p (some b.nextChannel), nextChannel := b.nextChannel + 1 }

/-- `flushes.insert`, with a new channel. -/
def insertFlush (b : BufferPoolManager n) (p : PageId) : BufferPoolManager n :=
  { b with flushes := Function.update b.flushes p (some b.nextChannel), nextChannel := b.nextChannel + 1 }

/-- `fetches.remove`, and a message to those who wait. -/
def finishFetch (b : BufferPoolManager n) (p : PageId) : BufferPoolManager n :=
  match b.fetches p with
  | some c => { b with
      fetches := Function.update b.fetches p none
      sent := Function.update b.sent c true }
  | none => b

/-- `flushes.remove`, and a message to those who wait. -/
def finishFlush (b : BufferPoolManager n) (p : PageId) : BufferPoolManager n :=
  match b.flushes p with
  | some c => { b with
      flushes := Function.update b.flushes p none
      sent := Function.update b.sent c true }
  | none => b

/-- Wait for the message of a channel that was found in a map. -/
def waitForChannel : Option Channel → Exec (Except BufferPoolError Unit)
  | some _ => .diverge
  | none => .ret (.ok ())

/-- `wait_for_page_fetch`. -/
def waitForPageFetch (b : BufferPoolManager n) (p : PageId) : Exec (Except BufferPoolError Unit) :=
  waitForChannel (b.fetches p)

/-- `wait_for_page_flush`. -/
def waitForPageFlush (b : BufferPoolManager n) (p : PageId) : Exec (Except BufferPoolError Unit) :=
  waitForChannel (b.flushes p)

/-! ### Finding a frame -/

/-- The rest of `evict_page`, once the evictor has chosen a frame: the page it held with its bytes
when it was dirty. -/
def detachPage (b : BufferPoolManager n) (f : Fin n) :
    Exec (Option (PageId × Page) × BufferPoolManager n) := do
  let victimPageId ← Exec.unwrap (b.frames f).pageId
  let b := { b with pageTable := Function.update b.pageTable victimPageId none }
  if (b.frames f).isDirty then
    if (b.frames f).canRead then return (some (victimPageId, (b.frames f).data), b)
    else Exec.diverge
  else return (none, b)

/-- `evict_page`. -/
def evictPage (b : BufferPoolManager n) :
    Exec (Except BufferPoolError (Fin n × Option (PageId × Page)) × BufferPoolManager n) :=
  let (victim, evictor) := b.evictor.victim
  let b := { b with evictor }
  match victim with
  | some f => do
    let (pageData, b) ← b.detachPage f
    return (.ok (f, pageData), b)
  | none => .ret (.error .bufferFull, b)

/-- Add a channel for the page of an evicted frame, if the frame is dirty. -/
def announceFlush (b : BufferPoolManager n) (f : Fin n) (pageData : Option (PageId × Page)) :
    Exec (BufferPoolManager n) :=
  if (b.frames f).isDirty then do
    let (idOfPageToFlush, _) ← Exec.unwrap pageData
    return b.insertFlush idOfPageToFlush
  else return b

/-- The available frame of `fetch_and_pin_frame`, with the page to flush. -/
def availableFrame (b : BufferPoolManager n) :
    Exec (Option (Fin n × Option (PageId × Page)) × BufferPoolManager n) :=
  match b.freeFrames with
  | f :: rest => .ret (some (f, none), { b with freeFrames := rest })
  | [] => do
    let (result, b) ← b.evictPage
    match result with
    | .ok (f, pageData) => do
      let b ← b.announceFlush f pageData
      return (some (f, pageData), b)
    | .error _ => return (none, b)

/-- The new entry in the page table, and the frame reset for it. -/
def beginFetch (b : BufferPoolManager n) (p : PageId) (f : Fin n) : BufferPoolManager n :=
  { b with pageTable := Function.update b.pageTable p (some f) }.modifyFrame f fun fr =>
    { fr with pageId := some p, isDirty := false }

/-- The frame of `create_page` before it is pinned. Without a victim the code panics. -/
def createFrame (b : BufferPoolManager n) :
    Exec ((Fin n × Option (Option (PageId × Page))) × BufferPoolManager n) :=
  match b.freeFrames with
  | f :: rest => .ret ((f, none), { b with freeFrames := rest })
  | [] => do
    let (result, b) ← b.evictPage
    let (f, pageData) ← Exec.unwrapResult result
    return ((f, some pageData), b)

/-- The rest of the section of `create_page`, once the frame is pinned. -/
def registerCreated (b : BufferPoolManager n) (p : PageId) (f : Fin n)
    (evicted : Option (Option (PageId × Page))) : Exec (BufferPoolManager n) := do
  let b ← (match evicted with
    | some pageData => b.announceFlush f pageData
    | none => return b : Exec (BufferPoolManager n))
  let b := b.modifyFrame f fun fr => { fr with pageId := some p }
  return { b with pageTable := Function.update b.pageTable p (some f) }

/-! ### Calls -/

/-- Write an evicted page. -/
def writeEvicted (b : BufferPoolManager n) (io : Faults) (p : PageId) (bytes : Page) :
    Except BufferPoolError Unit × BufferPoolManager n :=
  let (result, diskManager) := b.diskManager.writePage io p bytes
  let b := { b with diskManager }
  match result with
  | .ok () => (.ok (), b)
  | .error error =>
    (.error (.diskWrite s!"Could not write page: {p} to disk! Error: {error}"), b)

/-- `write_data` and `copy_from_slice`, before the guard is dropped. -/
def loadFrame (b : BufferPoolManager n) (f : Fin n) (bytes : Page) : Exec (BufferPoolManager n) :=
  if (b.frames f).canWrite then .ret (b.modifyFrame f fun fr => { fr with data := bytes, writer := true })
  else .diverge

/-- Drop a write lock. -/
def releaseWrite (b : BufferPoolManager n) (f : Fin n) : BufferPoolManager n :=
  b.modifyFrame f fun fr => { fr with writer := false }

/-- `fetch_and_pin_frame`. -/
def fetchAndPinFrame (b : BufferPoolManager n) (io : Faults) (p : PageId) :
    Exec (Except BufferPoolError (Fin n) × BufferPoolManager n) :=
  match b.pageTable p with
  | some f => do
    let b := b.pinFrame f
    let result ← b.waitForPageFetch p
    match result with
    | .error e => do
      let b ← b.unpinFrame f
      return (.error e, b)
    | .ok () => return (.ok f, b)
  | none => do
    let (available, b) ← b.availableFrame
    match available with
    | none => return (.error .bufferFull, b)
    | some (f, pageDataToFlush) => do
      let b := ((b.beginFetch p f).pinFrame f).insertFetch p
      let result ← b.waitForPageFlush p
      match result with
      | .error e => return (.error e, b)
      | .ok () =>
        match b.diskManager.readPage io p with
        | .error e => return (.error (.diskRead s!"Error reading page {p} from disk: {e}"), b)
        | .ok readBuffer => do
          let b ← b.loadFrame f readBuffer
          let b := b.finishFetch p
          match pageDataToFlush with
          | some (pageToFlushId, pageData) =>
            let (result, b) := b.writeEvicted io pageToFlushId pageData
            let b := (b.finishFlush pageToFlushId).releaseWrite f
            match result with
            | .error e => return (.error e, b)
            | .ok () => return (.ok f, b)
          | none => return (.ok f, b.releaseWrite f)

/-- `create_page`, up to the lock of the frame. -/
def createAndPinFrame (b : BufferPoolManager n) (io : Faults) (tableId : UInt32) :
    Exec (Except BufferPoolError (PageId × Fin n) × BufferPoolManager n) :=
  let (allocated, diskManager) := b.diskManager.allocatePage io tableId
  let b := { b with diskManager }
  match allocated with
  | .error e => .ret (.error (.pageAllocation e), b)
  | .ok p => do
    let ((f, evicted), b) ← b.createFrame
    let b ← (b.pinFrame f).registerCreated p f evicted
    match evicted.join with
    | some (pageToFlushId, pageData) =>
      let (result, b) := b.writeEvicted io pageToFlushId pageData
      match result with
      | .error e => return (.error e, b)
      | .ok () => return (.ok (p, f), b.finishFlush pageToFlushId)
    | none => return (.ok (p, f), b)

end BufferPoolManager

end RarmDb
