import RarmDb.Lib.Refine
import RarmDb.Pool.Frames

/-!
# The pool as a page store

* `PoolWorld`, `PoolOp`, `PoolWorld.run`: a pool with its live guards, and the operations on it;
* `PoolOp.Legal`: what a caller that runs one call after the other keeps to;
* `FlatStore`, `FlatStep`: bytes by page, and what an operation returns and does in terms of them.
-/

namespace RarmDb

open BufferPoolManager

variable {n : ℕ}

/-! ## Guards -/

/-- What a guard allows. -/
inductive Mode
  | read
  | write
  deriving DecidableEq

/-- `PageReadGuard`, `PageWriteGuard`. -/
structure Guard (n : ℕ) where
  frame : Fin n
  mode : Mode
  deriving DecidableEq

/-- A pool with its live guards, the newest first. -/
structure PoolWorld (n : ℕ) where
  bpm : BufferPoolManager n
  guards : List (Guard n)

namespace BufferPoolManager

/-- `read_data` or `write_data`, for a guard. -/
def lockData (b : BufferPoolManager n) (f : Fin n) : Mode → Exec (BufferPoolManager n)
  | .read =>
    if (b.frames f).canRead then
      .ret (b.modifyFrame f fun fr => { fr with readers := fr.readers + 1 })
    else .diverge
  | .write =>
    if (b.frames f).canWrite then .ret (b.modifyFrame f fun fr => { fr with writer := true })
    else .diverge

/-- The lock of a guard is released. -/
def unlockData (b : BufferPoolManager n) (f : Fin n) : Mode → BufferPoolManager n
  | .read => b.modifyFrame f fun fr => { fr with readers := fr.readers - 1 }
  | .write => b.releaseWrite f

end BufferPoolManager

/-- The operations: the calls, and the use of the guard at a position. -/
inductive PoolOp
  | createPage (tableId : UInt32)
  | fetchPage (p : PageId) (mode : Mode)
  | load (i : ℕ)
  | store (i : ℕ) (bytes : Page)
  | markDirty (i : ℕ)
  | drop (i : ℕ)

/-- What an operation returns: a new guard with its page and the bytes seen through it, bytes, an
error, or nothing. -/
inductive PoolOut
  | guard (p : PageId) (bytes : Page)
  | bytes (bytes : Page)
  | error (e : BufferPoolError)
  | done

namespace PoolWorld

/-- A pool without guards. -/
def init (n : ℕ) (diskManager : Disk) : PoolWorld n := ⟨BufferPoolManager.new n diskManager, []⟩

/-- Lock the frame and return a guard. -/
def returnGuard (w : PoolWorld n) (p : PageId) (f : Fin n) (mode : Mode) :
    Exec (PoolOut × PoolWorld n) := do
  let bpm ← w.bpm.lockData f mode
  return (.guard p (bpm.frames f).data, ⟨bpm, ⟨f, mode⟩ :: w.guards⟩)

/-- `fetch_page_read`, `fetch_page_write`. Every error becomes `BufferFull`. -/
def fetchPage (w : PoolWorld n) (io : Faults) (p : PageId) (mode : Mode) :
    Exec (PoolOut × PoolWorld n) := do
  let (result, bpm) ← w.bpm.fetchAndPinFrame io p
  match result with
  | .ok f => returnGuard { w with bpm } p f mode
  | .error _ => return (.error .bufferFull, { w with bpm })

/-- `create_page`. -/
def createPage (w : PoolWorld n) (io : Faults) (tableId : UInt32) :
    Exec (PoolOut × PoolWorld n) := do
  let (result, bpm) ← w.bpm.createAndPinFrame io tableId
  match result with
  | .ok (p, f) => returnGuard { w with bpm } p f .write
  | .error e => return (.error e, { w with bpm })

/-- Run one operation. A guard that does not exist, or a write through a read guard, is no program. -/
def run (io : Faults) (w : PoolWorld n) : PoolOp → Exec (PoolOut × PoolWorld n)
  | .createPage tableId => w.createPage io tableId
  | .fetchPage p mode => w.fetchPage io p mode
  | .load i =>
    match w.guards[i]? with
    | some g => .ret (.bytes (w.bpm.frames g.frame).data, w)
    | none => .panic
  | .store i bytes =>
    match w.guards[i]? with
    | some ⟨f, .write⟩ => .ret (.done, { w with bpm := w.bpm.modifyFrame f fun fr =>
        { fr with data := bytes } })
    | _ => .panic
  | .markDirty i =>
    match w.guards[i]? with
    | some ⟨f, .write⟩ => .ret (.done, { w with bpm := w.bpm.modifyFrame f fun fr =>
        { fr with isDirty := true } })
    | _ => .panic
  | .drop i =>
    match w.guards[i]? with
    | some g => do
      let bpm ← w.bpm.unpinFrame g.frame
      return (.done, ⟨bpm.unlockData g.frame g.mode, w.guards.eraseIdx i⟩)
    | none => .panic

end PoolWorld

/-- A table without pages. -/
def emptyTable : Disk := Disk.ofFiles (fun _ => Buffer.const 8192 0) fun _ => 0

/-- An operation that a caller may start: a page to load or to create finds a frame, a fetched page
is stored and its guards allow the mode, and a write guard has its frame dirty when it is dropped. -/
def PoolOp.Legal (w : PoolWorld n) : PoolOp → Prop
  | .createPage _ => ∃ f, (w.bpm.frames f).pinCount = 0
  | .fetchPage p mode => w.bpm.diskManager.stored p = true ∧
      (w.bpm.pageTable p = none → ∃ f, (w.bpm.frames f).pinCount = 0) ∧
      ∀ g ∈ w.guards, (w.bpm.frames g.frame).pageId = some p → mode = .read ∧ g.mode = .read
  | .load i => i < w.guards.length
  | .store i _ | .markDirty i => ∃ g ∈ w.guards[i]?, g.mode = .write
  | .drop i => ∃ g ∈ w.guards[i]?, g.mode = .write → (w.bpm.frames g.frame).isDirty = true

/-- The page index of a new page is not in use: the counter did not wrap around. -/
def PoolOp.Fresh (w : PoolWorld n) : PoolOp → Prop
  | .createPage tableId =>
    w.bpm.diskManager.stored (w.bpm.diskManager.nextPage tableId) = false
  | _ => True

instance decidableLegal (w : PoolWorld n) : ∀ op, Decidable (PoolOp.Legal w op)
  | .createPage _ => inferInstanceAs (Decidable (∃ _, _))
  | .fetchPage .. => inferInstanceAs (Decidable (_ ∧ (_ → _) ∧ ∀ _ ∈ _, _ → _))
  | .load _ => inferInstanceAs (Decidable (_ < _))
  | .store .. | .markDirty _ => inferInstanceAs (Decidable (∃ _ ∈ _, _))
  | .drop _ => inferInstanceAs (Decidable (∃ _ ∈ _, _ → _))

instance decidableFresh (w : PoolWorld n) : ∀ op, Decidable (PoolOp.Fresh w op)
  | .createPage _ => inferInstanceAs (Decidable (_ = _))
  | .fetchPage .. | .load _ | .store .. | .markDirty _ | .drop _ => inferInstanceAs (Decidable True)

/-! ## The flat store -/

/-- A guard on a page, with the bytes seen through it. -/
structure FlatGuard where
  page : PageId
  mode : Mode
  bytes : Page

/-- The bytes of every page, and the live guards. -/
structure FlatStore where
  bytes : PageId → Page
  guards : List FlatGuard

namespace FlatStore

/-- Drop a guard. A write guard leaves its bytes to its page. -/
def dropGuard (t : FlatStore) (i : ℕ) (g : FlatGuard) : FlatStore where
  bytes := if g.mode = .write then Function.update t.bytes g.page g.bytes else t.bytes
  guards := t.guards.eraseIdx i

end FlatStore

/-- What an operation returns and does. A fetch sees the bytes of its page; they change when a write
guard is dropped. -/
def FlatStep : PoolOp → PoolOut → FlatStore → FlatStore → Prop
  | .createPage tableId, .guard p bytes, t, t' =>
    p.tableId = tableId ∧ t' = { t with guards := ⟨p, .write, bytes⟩ :: t.guards }
  | .fetchPage p mode, .guard q bytes, t, t' =>
    q = p ∧ bytes = t.bytes p ∧ t' = { t with guards := ⟨p, mode, bytes⟩ :: t.guards }
  | .load i, .bytes bytes, t, t' => (∃ g ∈ t.guards[i]?, g.bytes = bytes) ∧ t' = t
  | .store i bytes, .done, t, t' =>
    ∃ g ∈ t.guards[i]?, t' = { t with guards := t.guards.set i { g with bytes } }
  | .markDirty _, .done, t, t' => t' = t
  | .drop i, .done, t, t' => ∃ g ∈ t.guards[i]?, t' = t.dropGuard i g
  | _, _, _, _ => False

end RarmDb
