import RarmDb.Lib.Ghost
import RarmDb.Pool.Store

/-!
# Tasks that share the pool

Any number of tasks run `create_page`, `fetch_page_read` and `fetch_page_write`, use their guards and
drop them. A task that holds several guards is several of these tasks, one for each guard. One step is
one atomic action: a use of a pin counter, of the evictor, of a lock, of a map of channels, or of the
disk. The section under the page table lock ends where the code drops that lock. A guard of a thread that
panics in another call is dropped like any other; a task that then finds its lock poisoned keeps its pin,
as a task does that takes no more steps.

* `Pc`: where a task is; `World`: the pool, the page table lock and the tasks;
* `Choice`: what the program or the disk decides; **`World.step`**: the step of a task;
* `History`: what was evicted and loaded so far;
* `Reached`: the states of the runs whose steps all meet a condition, an instance of `Ghost.System.Reached`.
-/

namespace RarmDb

open BufferPoolManager

variable {n : ℕ} {τ : Type}

-- the numerals of one, two and three tasks
instance neZeroOne : NeZero 1 := ⟨by decide⟩

instance neZeroTwo : NeZero 2 := ⟨by decide⟩

instance neZeroThree : NeZero 3 := ⟨by decide⟩

/-! ## Where a task is -/

/-- What a call takes a frame for. -/
inductive Request
  | fetch (p : PageId) (mode : Mode)
  | create (p : PageId)

/-- Where a call pins a frame: the page was found; it was not, and another page is to be flushed; or
it is a new page, with the result of `evict_page`. -/
inductive PinSite
  | hit (p : PageId) (mode : Mode)
  | miss (p : PageId) (mode : Mode) (pageDataToFlush : Option (PageId × Page))
  | create (p : PageId) (evicted : Option (Option (PageId × Page)))

/-- A fetch that did not find its page: its frame, the page to flush, and its channel. -/
structure Load (n : ℕ) where
  page : PageId
  mode : Mode
  frame : Fin n
  pageDataToFlush : Option (PageId × Page)
  tx : Channel

/-- What follows a call of `evictor.add`. -/
inductive AfterAdd
  | fail (e : BufferPoolError)
  | unlock (mode : Mode)

/-- The next action of a task. -/
inductive Pc (n : ℕ)
  /-- A call; the last one ended with this error, or panicked. -/
  | idle (error : Option BufferPoolError)
  /-- `fetch_and_pin_frame`: lock the page table and look the page up. -/
  | lookup (p : PageId) (mode : Mode)
  /-- `create_page`: `fetch_add` of the next page index. -/
  | allocate (tableId : UInt32)
  /-- The new page is written to disk. -/
  | zero (p : PageId)
  /-- `create_page`: lock the page table. -/
  | enter (p : PageId)
  /-- A free frame, or `evictor.victim`. -/
  | take (r : Request)
  /-- The rest of `evict_page`. -/
  | evict (r : Request) (f : Fin n)
  /-- The new entry of the page table. -/
  | register (p : PageId) (mode : Mode) (f : Fin n) (pageDataToFlush : Option (PageId × Page))
  /-- `pin_frame`: `increment_pin_count`. -/
  | pin (site : PinSite) (f : Fin n)
  /-- `pin_frame`: `evictor.remove`. -/
  | remove (site : PinSite) (f : Fin n)
  /-- The rest of the section, and the page table is unlocked. -/
  | release (site : PinSite) (f : Fin n)
  /-- `wait_for_page_fetch`. -/
  | waitFetch (p : PageId) (mode : Mode) (f : Fin n)
  | recvFetch (p : PageId) (mode : Mode) (f : Fin n) (sub : Channel)
  /-- `unpin_frame`, after an error. -/
  | unpin (f : Fin n) (e : BufferPoolError)
  /-- `wait_for_page_flush`. -/
  | waitFlush (l : Load n)
  | recvFlush (l : Load n) (sub : Channel)
  /-- `read_page` is called, and in flight. -/
  | issueRead (l : Load n)
  | reading (l : Load n)
  /-- Lock the bytes of the frame and copy. -/
  | copy (l : Load n) (readBuffer : Page)
  /-- `fetches.remove` and `send`. -/
  | finishFetch (l : Load n)
  /-- `write_page` is in flight. -/
  | writing (l : Load n) (v : PageId) (bytes : Page)
  /-- `flushes.remove` and `send`. -/
  | finishFlush (l : Load n) (v : PageId) (error : Option BufferPoolError)
  /-- The bytes are unlocked, `fetch_and_pin_frame` returns. -/
  | finish (l : Load n) (error : Option BufferPoolError)
  /-- `create_page`: `write_page` is in flight. -/
  | createFlush (p : PageId) (f : Fin n) (v : PageId) (bytes : Page)
  /-- `create_page`: `flushes.remove` and `send`. -/
  | createFinish (p : PageId) (f : Fin n) (v : PageId)
  /-- The frame was returned; lock its bytes for the guard. -/
  | lock (p : PageId) (mode : Mode) (f : Fin n)
  /-- A guard is held. -/
  | guard (p : PageId) (mode : Mode) (f : Fin n)
  /-- `evictor.add`. -/
  | add (f : Fin n) (next : AfterAdd)
  /-- The guard is gone; its lock is released. -/
  | unlock (f : Fin n) (mode : Mode)

namespace Pc

/-- The task holds the page table lock. -/
def inSection : Pc n → Bool
  | take _ | evict .. | register .. | pin .. | remove .. | release .. => true
  | _ => false

/-- The task is about to unwrap a lock that is poisoned: the one of `page_table` or `page_io_processing`, or the
one of its frame's bytes. -/
def unwraps (dataPoisoned : Fin n → Bool) : Pc n → Bool
  | lookup .. | enter _ | waitFetch .. | waitFlush _ | finishFetch _ | finishFlush .. | createFinish .. => true
  -- The frames of `copy` and `evict` are used by no other task, so their locks are not poisoned.
  | lock _ _ f => dataPoisoned f
  | _ => false

/-- `create_page` is about to take a frame. -/
def takesNew : Pc n → Bool
  | take (.create _) => true
  | _ => false

/-- The page that `allocate_page` is about to fill with zeros. -/
def zeroes : Pc n → Option PageId
  | zero p => some p
  | _ => none

/-- The task has a receiver's other end: it drops the sender `tx` when it returns. -/
def sender : Pc n → Option Channel
  | waitFlush l | recvFlush l _ | issueRead l | reading l | copy l _ | finishFetch l | writing l ..
  | finishFlush l .. | finish l _ => some l.tx
  | _ => none

end Pc

/-! ## Steps -/

/-- What is decided from outside: the call of an idle task, the use of a guard, a failure of the disk.
Otherwise the task goes on. -/
inductive Choice
  | go
  | fault (message : String)
  | fetchPage (p : PageId) (mode : Mode)
  | createPage (tableId : UInt32)
  | store (bytes : Page)
  | markDirty
  | drop

namespace Choice

variable {α : Type}

/-- The only choice is to go on. -/
def onGo (next : Option α) : Choice → Option α
  | go => next
  | _ => none

/-- The disk succeeds, or fails with a message. -/
def onDisk (ok : α) (failed : String → α) : Choice → Option α
  | go => some ok
  | fault message => some (failed message)
  | _ => none

/-- An operation of the disk fails. -/
def isFault : Choice → Bool
  | fault _ => true
  | _ => false

end Choice

/-- The pool, the holder of the page table lock, and the tasks; whether `create_page` has panicked, which
poisons the mutexes `page_table` and `page_io_processing`, and the frames whose locks are poisoned. -/
structure World (n : ℕ) (τ : Type) where
  bpm : BufferPoolManager n
  pageTableLock : Option τ
  poisoned : Bool
  dataPoisoned : Fin n → Bool
  tasks : τ → Pc n

namespace World

/-- No task has started. -/
def init (n : ℕ) (τ : Type) (diskManager : Disk) : World n τ :=
  ⟨BufferPoolManager.new n diskManager, none, false, fun _ => false, fun _ => .idle none⟩

variable [DecidableEq τ]

/-- The task goes on at `pc`. -/
def goto (w : World n τ) (t : τ) (bpm : BufferPoolManager n) (pc : Pc n) : World n τ :=
  { w with bpm, tasks := Function.update w.tasks t pc }

/-- The task locks the page table. -/
def enter (w : World n τ) (t : τ) (pc : Pc n) : World n τ :=
  { w.goto t w.bpm pc with pageTableLock := some t }

/-- The task unlocks the page table. -/
def leave (w : World n τ) (t : τ) (bpm : BufferPoolManager n) (pc : Pc n) : World n τ :=
  { w.goto t bpm pc with pageTableLock := none }

/-- The task panics while it holds both mutexes. -/
def poison (w : World n τ) (t : τ) (bpm : BufferPoolManager n) (pc : Pc n) : World n τ :=
  { w.leave t bpm pc with poisoned := true }

/-- A task panics while it has locked the bytes of the frame for writing. -/
def poisonData (w : World n τ) (f : Fin n) : World n τ :=
  { w with dataPoisoned := Function.update w.dataPoisoned f true }

/-- The task panics at the `unwrap` of a poisoned lock. Locks of frames are poisoned after the mutexes only. -/
abbrev Panics (w : World n τ) (t : τ) : Prop :=
  w.poisoned = true ∧ (w.tasks t).unwraps w.dataPoisoned = true

/-- A task that panics drops the lock of its frame. Its pin, and the entries of its page, stay. -/
def unwind (w : World n τ) (t : τ) : World n τ :=
  match w.tasks t with
  | .finishFetch l | .finishFlush l .. =>
    (w.poisonData l.frame).goto t (w.bpm.releaseWrite l.frame) (.idle none)
  | _ => w.goto t w.bpm (.idle none)

/-- Every sender of the channel `sub` of a fetch of `p` was dropped. -/
def fetchClosed [Fintype τ] (w : World n τ) (p : PageId) (sub : Channel) : Prop :=
  w.bpm.fetches p ≠ some sub ∧ ∀ t, (w.tasks t).sender ≠ some sub

instance [Fintype τ] (w : World n τ) (p : PageId) (sub : Channel) :
    Decidable (w.fetchClosed p sub) := inferInstanceAs (Decidable (_ ∧ ∀ _, _))

/-- The section once a frame is free for the request. -/
def taken (r : Request) (f : Fin n) : Pc n :=
  match r with
  | .fetch p mode => .register p mode f none
  | .create p => .pin (.create p none) f

/-- The action of a task whose mutexes are not poisoned. There is none while the task is blocked. -/
def act [Fintype τ] (w : World n τ) (t : τ) : Choice → Option (World n τ) :=
  let b := w.bpm
  match w.tasks t with
  | .idle _ => fun
    | .fetchPage p mode => some (w.goto t b (.lookup p mode))
    | .createPage tableId => some (w.goto t b (.allocate tableId))
    | _ => none
  | .lookup p mode => Choice.onGo <|
    if w.pageTableLock.isNone then
      match b.pageTable p with
      | some f => some (w.enter t (.pin (.hit p mode) f))
      | none => some (w.enter t (.take (.fetch p mode)))
    else none
  | .allocate tableId => Choice.onGo <|
    some (w.goto t { b with diskManager := b.diskManager.takeIndex tableId }
      (.zero (b.diskManager.nextPage tableId)))
  | .zero p => Choice.onDisk
    (w.goto t { b with diskManager := b.diskManager.setPage p (Buffer.const 8192 0) } (.enter p))
    fun e => w.goto t b (.idle (some (.pageAllocation e)))
  | .enter p => Choice.onGo <|
    if w.pageTableLock.isNone then some (w.enter t (.take (.create p))) else none
  | .take r => Choice.onGo <|
    match b.freeFrames with
    | f :: rest => some (w.goto t { b with freeFrames := rest } (taken r f))
    | [] =>
      match b.evictor.victim, r with
      | (some f, evictor), r => some (w.goto t { b with evictor } (.evict r f))
      | (none, evictor), .fetch .. => some (w.leave t { b with evictor } (.idle (some .bufferFull)))
      -- `evict_page(..).unwrap()` panics, and poisons `page_table` and `page_io_processing`.
      | (none, evictor), .create _ => some (w.poison t { b with evictor } (.idle none))
  | .evict (.fetch p mode) f => Choice.onGo do
    let (pageData, b) ← (b.detachPage f).toOption
    let b ← (b.announceFlush f pageData).toOption
    some (w.goto t b (.register p mode f pageData))
  | .evict (.create p) f => Choice.onGo do
    let (pageData, b) ← (b.detachPage f).toOption
    some (w.goto t b (.pin (.create p (some pageData)) f))
  | .register p mode f pageData => Choice.onGo <|
    some (w.goto t (b.beginFetch p f) (.pin (.miss p mode pageData) f))
  | .pin site f => Choice.onGo <|
    let (prevCount, b) := b.incrementPinCount f
    some (w.goto t b (if prevCount = 0 then .remove site f else .release site f))
  | .remove site f => Choice.onGo <| some (w.goto t (b.evictorRemove f) (.release site f))
  | .release (.hit p mode) f => Choice.onGo <| some (w.leave t b (.waitFetch p mode f))
  | .release (.miss p mode pageData) f => Choice.onGo <|
    some (w.leave t (b.insertFetch p) (.waitFlush ⟨p, mode, f, pageData, b.nextChannel⟩))
  | .release (.create p evicted) f => Choice.onGo do
    let b ← (b.registerCreated p f evicted).toOption
    some (w.leave t b (match evicted.join with
      | some (v, bytes) => .createFlush p f v bytes
      | none => .lock p .write f))
  | .waitFetch p mode f => Choice.onGo <|
    match b.fetches p with
    | some c => some (w.goto t b (.recvFetch p mode f c))
    | none => some (w.goto t b (.lock p mode f))
  | .recvFetch p mode f sub => Choice.onGo <|
    if b.sent sub then some (w.goto t b (.lock p mode f))
    else if w.fetchClosed p sub then
      some (w.goto t b (.unpin f (.pageProcessingBroadcast
        s!"Error waiting on in flight fetch for page {p}: channel closed")))
    else none
  | .unpin f e => Choice.onGo do
    let (prevCount, b) ← (b.decrementPinCount f).toOption
    some (w.goto t b (if prevCount = 1 then .add f (.fail e) else .idle (some .bufferFull)))
  | .waitFlush l => Choice.onGo <|
    match b.flushes l.page with
    | some c => some (w.goto t b (.recvFlush l c))
    | none => some (w.goto t b (.issueRead l))
  | .recvFlush l sub => Choice.onGo <|
    if b.sent sub then some (w.goto t b (.issueRead l))
    else if b.flushes l.page ≠ some sub then some (w.goto t b (.idle (some .bufferFull)))
    else none
  | .issueRead l => Choice.onGo <| some (w.goto t b (.reading l))
  | .reading l => Choice.onDisk (w.goto t b (.copy l (b.diskManager.pages l.page)))
    fun _ => w.goto t b (.idle (some .bufferFull))
  | .copy l readBuffer => Choice.onGo do
    let b ← (b.loadFrame l.frame readBuffer).toOption
    some (w.goto t b (.finishFetch l))
  | .finishFetch l => Choice.onGo <|
    some (w.goto t (b.finishFetch l.page) (match l.pageDataToFlush with
      | some (v, bytes) => .writing l v bytes
      | none => .finish l none))
  | .writing l v bytes => Choice.onDisk
    (w.goto t { b with diskManager := b.diskManager.setPage v bytes } (.finishFlush l v none))
    fun e => w.goto t b (.finishFlush l v (some (.diskWrite
      s!"Could not write page: {v} to disk! Error: {e}")))
  | .finishFlush l v error => Choice.onGo <| some (w.goto t (b.finishFlush v) (.finish l error))
  | .finish l error => Choice.onGo <|
    some (w.goto t (b.releaseWrite l.frame) (match error with
      | some _ => .idle (some .bufferFull)
      | none => .lock l.page l.mode l.frame))
  | .createFlush p f v bytes => Choice.onDisk
    (w.goto t { b with diskManager := b.diskManager.setPage v bytes } (.createFinish p f v))
    fun e => w.goto t b (.idle (some (.diskWrite s!"Could not write page: {v} to disk! Error: {e}")))
  | .createFinish p f v => Choice.onGo <| some (w.goto t (b.finishFlush v) (.lock p .write f))
  | .lock p mode f => Choice.onGo do
    let b ← (b.lockData f mode).toOption
    some (w.goto t b (.guard p mode f))
  | .guard p mode f => fun
    | .store bytes =>
      if mode = .write then
        some (w.goto t (b.modifyFrame f fun fr => { fr with data := bytes }) (.guard p mode f))
      else none
    | .markDirty =>
      if mode = .write then
        some (w.goto t (b.modifyFrame f fun fr => { fr with isDirty := true }) (.guard p mode f))
      else none
    | .drop => do
      let (prevCount, b) ← (b.decrementPinCount f).toOption
      some (w.goto t b (if prevCount = 1 then .add f (.unlock mode) else .unlock f mode))
    | _ => none
  | .add f next => Choice.onGo <|
    some (w.goto t (b.evictorAdd f) (match next with
      | .fail _ => .idle (some .bufferFull)
      | .unlock mode => .unlock f mode))
  | .unlock f mode => Choice.onGo <| some (w.goto t (b.unlockData f mode) (.idle none))

/-- **The step of a task.** There is none while the task is blocked. -/
def step [Fintype τ] (w : World n τ) (t : τ) (c : Choice) : Option (World n τ) :=
  if w.Panics t then c.onGo (some (w.unwind t)) else w.act t c

theorem step_eq_act [Fintype τ] {w : World n τ} {t : τ} {c : Choice} (h : ¬ w.Panics t) :
    w.step t c = w.act t c := if_neg h

omit [DecidableEq τ] in
theorem not_panics_of_unwraps {w : World n τ} {t : τ} {pc : Pc n} (hpc : w.tasks t = pc)
    (h : pc.unwraps w.dataPoisoned = false) : ¬ w.Panics t := by
  subst hpc
  exact fun hp => Bool.false_ne_true (h.symm.trans hp.2)

omit [DecidableEq τ] in
theorem not_panics {w : World n τ} (hrun : w.poisoned = false) (t : τ) : ¬ w.Panics t :=
  fun hp => Bool.false_ne_true (hrun.symm.trans hp.1)

/-- `create_page` finds no frame: its next step is the panic. -/
def NoFrame (w : World n τ) (t : τ) : Prop :=
  (w.tasks t).takesNew = true ∧ w.bpm.freeFrames = [] ∧ w.bpm.evictor.victim.1 = none

instance (w : World n τ) (t : τ) : Decidable (w.NoFrame t) := inferInstanceAs (Decidable (_ ∧ _ ∧ _))

end World

/-! ## Runs -/

/-- What happened so far: the bytes of every page when it was last evicted dirty, unless `create_page`
failed to write them, and the page whose bytes are in a frame. -/
structure History (n : ℕ) where
  evicted : PageId → Option Page
  loaded : Fin n → Option PageId

/-- Nothing happened. -/
def History.init (n : ℕ) : History n := ⟨fun _ => none, fun _ => none⟩

/-- The history after a step. -/
def History.note (h : History n) (w : World n τ) (t : τ) (c : Choice) : History n :=
  match w.tasks t, c with
  | .evict _ f, .go =>
    match (w.bpm.frames f).pageId, (w.bpm.frames f).isDirty with
    | some v, true => { h with evicted := Function.update h.evicted v (some (w.bpm.frames f).data) }
    | _, _ => h
  | .createFlush _ _ v _, .fault _ => { h with evicted := Function.update h.evicted v none }
  | .copy l _, .go => { h with loaded := Function.update h.loaded l.frame (some l.page) }
  | .release (.create p _) f, .go => { h with loaded := Function.update h.loaded f (some p) }
  | _, _ => h

/-- The tasks and the pool, with their history. -/
def historySystem (n : ℕ) (τ : Type) [DecidableEq τ] [Fintype τ] :
    Ghost.System (World n τ) (History n) (τ × Choice) where
  step w a := w.step a.1 a.2
  note h w a := h.note w a.1 a.2

variable [DecidableEq τ] [Fintype τ]

/-- The states, with their histories, of the runs whose steps all meet the condition `ok`. -/
def Reached (diskManager : Disk) (ok : World n τ → τ → Choice → Prop) (w : World n τ) (h : History n) : Prop :=
  (historySystem n τ).Reached (fun w _ a => ok w a.1 a.2) (World.init n τ diskManager) (History.init n) w h

variable {d : Disk} {ok ok' : World n τ → τ → Choice → Prop} {w w' : World n τ} {h : History n} {t : τ} {c : Choice}

namespace Reached

theorem init : Reached d ok (World.init n τ d) (History.init n) := Ghost.System.Reached.init

theorem step (hr : Reached d ok w h) (hok : ok w t c) (hs : w.step t c = some w') : Reached d ok w' (h.note w t c) :=
  Ghost.System.Reached.step (i := (t, c)) hr hok hs

theorem mono (hr : Reached d ok w h) (hok : ∀ w t c, ok w t c → ok' w t c) : Reached d ok' w h :=
  Ghost.System.Reached.mono hr fun w _ a => hok w a.1 a.2

/-- **The invariant rule of runs.** -/
theorem inv (hr : Reached d ok w h) {I : World n τ → History n → Prop} (init : I (World.init n τ d) (History.init n))
    (step : ∀ w w' h t c, ok w t c → w.step t c = some w' → I w h → I w' (h.note w t c)) : I w h :=
  Ghost.System.Reached.inv hr init fun w w' h a => step w w' h a.1 a.2

end Reached

/-- Run the steps one after the other, as long as they meet the condition. -/
def runSteps (ok : World n τ → τ → Choice → Prop) [∀ w t c, Decidable (ok w t c)] :
    World n τ × History n → List (τ × Choice) → Option (World n τ × History n) :=
  (historySystem n τ).run fun w _ a => ok w a.1 a.2

theorem reached_runSteps [∀ w t c, Decidable (ok w t c)] {steps : List (τ × Choice)}
    {s' : World n τ × History n} (hr : Reached d ok w h) (hs : runSteps ok (w, h) steps = some s') :
    Reached d ok s'.1 s'.2 := Ghost.System.reached_run hr hs

theorem reached_get [∀ w t c, Decidable (ok w t c)] {steps : List (τ × Choice)}
    (hs : (runSteps ok (World.init n τ d, History.init n) steps).isSome = true) :
    Reached d ok ((runSteps ok (World.init n τ d, History.init n) steps).get hs).1
      ((runSteps ok (World.init n τ d, History.init n) steps).get hs).2 := Ghost.System.reached_get hs

namespace World

omit [DecidableEq τ] [Fintype τ] in
/-- After each of these choices its task goes on as often as it says. -/
def goingOn (choices : List (τ × Choice × ℕ)) : List (τ × Choice) :=
  choices.flatMap fun (t, c, count) => (t, c) :: List.replicate count (t, .go)

end World

end RarmDb
