import RarmDb.Tasks.Model

/-!
# What a step of a task can do

* `Move`: one constructor for each action, with the state before and after it;
* **`move_of_step`**: every step is one of them;
* `Move.running`: no move poisons the mutexes, if a creation finds a frame.
-/

namespace RarmDb

open BufferPoolManager

variable {n : ℕ} {τ : Type} [DecidableEq τ]

namespace World

/-- The steps of the task `t`, one constructor for each action. -/
inductive Move (w : World n τ) (t : τ) : Choice → World n τ → Prop
  | callFetch {e p mode} (hpc : w.tasks t = .idle e) :
      Move w t (.fetchPage p mode) (w.goto t w.bpm (.lookup p mode))
  | callCreate {e tableId} (hpc : w.tasks t = .idle e) :
      Move w t (.createPage tableId) (w.goto t w.bpm (.allocate tableId))
  | hit {p mode f} (hpc : w.tasks t = .lookup p mode) (hlock : w.pageTableLock = none)
      (hp : w.bpm.pageTable p = some f) (hrun : w.poisoned = false) :
      Move w t .go (w.enter t (.pin (.hit p mode) f))
  | miss {p mode} (hpc : w.tasks t = .lookup p mode) (hlock : w.pageTableLock = none)
      (hp : w.bpm.pageTable p = none) (hrun : w.poisoned = false) :
      Move w t .go (w.enter t (.take (.fetch p mode)))
  | allocate {tableId} (hpc : w.tasks t = .allocate tableId) :
      Move w t .go (w.goto t { w.bpm with diskManager := w.bpm.diskManager.takeIndex tableId }
        (.zero (w.bpm.diskManager.nextPage tableId)))
  | zero {p} (hpc : w.tasks t = .zero p) :
      Move w t .go (w.goto t { w.bpm with
        diskManager := w.bpm.diskManager.setPage p (Buffer.const 8192 0) } (.enter p))
  | zeroFault {p e} (hpc : w.tasks t = .zero p) :
      Move w t (.fault e) (w.goto t w.bpm (.idle (some (.pageAllocation e))))
  | enter {p} (hpc : w.tasks t = .enter p) (hlock : w.pageTableLock = none) (hrun : w.poisoned = false) :
      Move w t .go (w.enter t (.take (.create p)))
  | takeFree {r f rest} (hpc : w.tasks t = .take r) (hfree : w.bpm.freeFrames = f :: rest) :
      Move w t .go (w.goto t { w.bpm with freeFrames := rest } (taken r f))
  | takeVictim {r f evictor} (hpc : w.tasks t = .take r) (hfree : w.bpm.freeFrames = [])
      (hvictim : w.bpm.evictor.victim = (some f, evictor)) :
      Move w t .go (w.goto t { w.bpm with evictor } (.evict r f))
  | full {p mode evictor} (hpc : w.tasks t = .take (.fetch p mode)) (hfree : w.bpm.freeFrames = [])
      (hvictim : w.bpm.evictor.victim = (none, evictor)) :
      Move w t .go (w.leave t { w.bpm with evictor } (.idle (some .bufferFull)))
  | panic {p evictor} (hpc : w.tasks t = .take (.create p)) (hfree : w.bpm.freeFrames = [])
      (hvictim : w.bpm.evictor.victim = (none, evictor)) :
      Move w t .go (w.poison t { w.bpm with evictor } (.idle none))
  | evict {p mode f v} (hpc : w.tasks t = .evict (.fetch p mode) f)
      (hv : (w.bpm.frames f).pageId = some v)
      (hread : (w.bpm.frames f).isDirty = true → (w.bpm.frames f).canRead) :
      Move w t .go (w.goto t
        ({ w.bpm with pageTable := Function.update w.bpm.pageTable v none }.announced
          (image (w.bpm.frames f) v)) (.register p mode f (image (w.bpm.frames f) v)))
  | evictCreate {p f v} (hpc : w.tasks t = .evict (.create p) f)
      (hv : (w.bpm.frames f).pageId = some v)
      (hread : (w.bpm.frames f).isDirty = true → (w.bpm.frames f).canRead) :
      Move w t .go (w.goto t { w.bpm with pageTable := Function.update w.bpm.pageTable v none }
        (.pin (.create p (some (image (w.bpm.frames f) v))) f))
  | register {p mode f img} (hpc : w.tasks t = .register p mode f img) :
      Move w t .go (w.goto t (w.bpm.beginFetch p f) (.pin (.miss p mode img) f))
  | pin {site f} (hpc : w.tasks t = .pin site f) :
      Move w t .go (w.goto t (w.bpm.incrementPinCount f).2
        (if (w.bpm.frames f).pinCount = 0 then .remove site f else .release site f))
  | remove {site f} (hpc : w.tasks t = .remove site f) :
      Move w t .go (w.goto t (w.bpm.evictorRemove f) (.release site f))
  | releaseHit {p mode f} (hpc : w.tasks t = .release (.hit p mode) f) :
      Move w t .go (w.leave t w.bpm (.waitFetch p mode f))
  | releaseMiss {p mode f img} (hpc : w.tasks t = .release (.miss p mode img) f) :
      Move w t .go (w.leave t (w.bpm.insertFetch p)
        (.waitFlush ⟨p, mode, f, img, w.bpm.nextChannel⟩))
  | releaseCreate {p f evicted b} (hpc : w.tasks t = .release (.create p evicted) f)
      (hb : w.bpm.registerCreated p f evicted = .ret b) :
      Move w t .go (w.leave t b (match evicted.join with
        | some (v, bytes) => .createFlush p f v bytes
        | none => .lock p .write f))
  | subscribeFetch {p mode f c} (hpc : w.tasks t = .waitFetch p mode f)
      (hc : w.bpm.fetches p = some c) (hrun : w.poisoned = false) :
      Move w t .go (w.goto t w.bpm (.recvFetch p mode f c))
  | noFetch {p mode f} (hpc : w.tasks t = .waitFetch p mode f) (hc : w.bpm.fetches p = none)
      (hrun : w.poisoned = false) : Move w t .go (w.goto t w.bpm (.lock p mode f))
  | recvFetch {p mode f c} (hpc : w.tasks t = .recvFetch p mode f c) (hsent : w.bpm.sent c = true) :
      Move w t .go (w.goto t w.bpm (.lock p mode f))
  | closedFetch {p mode f c e} (hpc : w.tasks t = .recvFetch p mode f c)
      (hsent : w.bpm.sent c = false) (hclosed : w.bpm.fetches p ≠ some c) :
      Move w t .go (w.goto t w.bpm (.unpin f e))
  | unpin {f e} (hpc : w.tasks t = .unpin f e) (hpin : (w.bpm.frames f).pinCount > 0) :
      Move w t .go (w.goto t (w.bpm.modifyFrame f fun fr => { fr with pinCount := fr.pinCount - 1 })
        (if (w.bpm.frames f).pinCount = 1 then .add f (.fail e) else .idle (some .bufferFull)))
  | subscribeFlush {l c} (hpc : w.tasks t = .waitFlush l) (hc : w.bpm.flushes l.page = some c)
      (hrun : w.poisoned = false) : Move w t .go (w.goto t w.bpm (.recvFlush l c))
  | noFlush {l} (hpc : w.tasks t = .waitFlush l) (hc : w.bpm.flushes l.page = none)
      (hrun : w.poisoned = false) : Move w t .go (w.goto t w.bpm (.issueRead l))
  | recvFlush {l c} (hpc : w.tasks t = .recvFlush l c) (hsent : w.bpm.sent c = true) :
      Move w t .go (w.goto t w.bpm (.issueRead l))
  | closedFlush {l c} (hpc : w.tasks t = .recvFlush l c) (hsent : w.bpm.sent c = false)
      (hclosed : w.bpm.flushes l.page ≠ some c) :
      Move w t .go (w.goto t w.bpm (.idle (some .bufferFull)))
  | issueRead {l} (hpc : w.tasks t = .issueRead l) : Move w t .go (w.goto t w.bpm (.reading l))
  | read {l} (hpc : w.tasks t = .reading l) :
      Move w t .go (w.goto t w.bpm (.copy l (w.bpm.diskManager.pages l.page)))
  | readFault {l e} (hpc : w.tasks t = .reading l) :
      Move w t (.fault e) (w.goto t w.bpm (.idle (some .bufferFull)))
  | copy {l bytes} (hpc : w.tasks t = .copy l bytes) (hwrite : (w.bpm.frames l.frame).canWrite) :
      Move w t .go (w.goto t (w.bpm.modifyFrame l.frame fun fr =>
        { fr with data := bytes, writer := true }) (.finishFetch l))
  | finishFetch {l} (hpc : w.tasks t = .finishFetch l) (hrun : w.poisoned = false) :
      Move w t .go (w.goto t (w.bpm.finishFetch l.page) (match l.pageDataToFlush with
        | some (v, bytes) => .writing l v bytes
        | none => .finish l none))
  | write {l v bytes} (hpc : w.tasks t = .writing l v bytes) :
      Move w t .go (w.goto t { w.bpm with diskManager := w.bpm.diskManager.setPage v bytes }
        (.finishFlush l v none))
  | writeFault {l v bytes e e'} (hpc : w.tasks t = .writing l v bytes) :
      Move w t (.fault e) (w.goto t w.bpm (.finishFlush l v (some e')))
  | finishFlush {l v error} (hpc : w.tasks t = .finishFlush l v error) (hrun : w.poisoned = false) :
      Move w t .go (w.goto t (w.bpm.finishFlush v) (.finish l error))
  | finish {l} (hpc : w.tasks t = .finish l none) :
      Move w t .go (w.goto t (w.bpm.releaseWrite l.frame) (.lock l.page l.mode l.frame))
  | fail {l e} (hpc : w.tasks t = .finish l (some e)) :
      Move w t .go (w.goto t (w.bpm.releaseWrite l.frame) (.idle (some .bufferFull)))
  | createWrite {p f v bytes} (hpc : w.tasks t = .createFlush p f v bytes) :
      Move w t .go (w.goto t { w.bpm with diskManager := w.bpm.diskManager.setPage v bytes }
        (.createFinish p f v))
  | createFault {p f v bytes e e'} (hpc : w.tasks t = .createFlush p f v bytes) :
      Move w t (.fault e) (w.goto t w.bpm (.idle (some e')))
  | createFinish {p f v} (hpc : w.tasks t = .createFinish p f v) (hrun : w.poisoned = false) :
      Move w t .go (w.goto t (w.bpm.finishFlush v) (.lock p .write f))
  | lock {p mode f b} (hpc : w.tasks t = .lock p mode f) (hb : w.bpm.lockData f mode = .ret b) :
      Move w t .go (w.goto t b (.guard p mode f))
  | store {p f bytes} (hpc : w.tasks t = .guard p .write f) :
      Move w t (.store bytes) (w.goto t (w.bpm.modifyFrame f fun fr => { fr with data := bytes })
        (.guard p .write f))
  | markDirty {p f} (hpc : w.tasks t = .guard p .write f) :
      Move w t .markDirty (w.goto t (w.bpm.modifyFrame f fun fr => { fr with isDirty := true })
        (.guard p .write f))
  | drop {p mode f} (hpc : w.tasks t = .guard p mode f) (hpin : (w.bpm.frames f).pinCount > 0) :
      Move w t .drop (w.goto t (w.bpm.modifyFrame f fun fr => { fr with pinCount := fr.pinCount - 1 })
        (if (w.bpm.frames f).pinCount = 1 then .add f (.unlock mode) else .unlock f mode))
  | addFail {f e} (hpc : w.tasks t = .add f (.fail e)) :
      Move w t .go (w.goto t (w.bpm.evictorAdd f) (.idle (some .bufferFull)))
  | add {f mode} (hpc : w.tasks t = .add f (.unlock mode)) :
      Move w t .go (w.goto t (w.bpm.evictorAdd f) (.unlock f mode))
  | unlock {f mode} (hpc : w.tasks t = .unlock f mode) :
      Move w t .go (w.goto t (w.bpm.unlockData f mode) (.idle none))
  | panicLookup {p mode} (hpc : w.tasks t = .lookup p mode) (hpoison : w.poisoned = true) :
      Move w t .go (w.goto t w.bpm (.idle none))
  | panicEnter {p} (hpc : w.tasks t = .enter p) (hpoison : w.poisoned = true) :
      Move w t .go (w.goto t w.bpm (.idle none))
  | panicWaitFetch {p mode f} (hpc : w.tasks t = .waitFetch p mode f) (hpoison : w.poisoned = true) :
      Move w t .go (w.goto t w.bpm (.idle none))
  | panicWaitFlush {l} (hpc : w.tasks t = .waitFlush l) (hpoison : w.poisoned = true) :
      Move w t .go (w.goto t w.bpm (.idle none))
  | panicFinishFetch {l} (hpc : w.tasks t = .finishFetch l) (hpoison : w.poisoned = true) :
      Move w t .go ((w.poisonData l.frame).goto t (w.bpm.releaseWrite l.frame) (.idle none))
  | panicFinishFlush {l v error} (hpc : w.tasks t = .finishFlush l v error) (hpoison : w.poisoned = true) :
      Move w t .go ((w.poisonData l.frame).goto t (w.bpm.releaseWrite l.frame) (.idle none))
  | panicCreateFinish {p f v} (hpc : w.tasks t = .createFinish p f v) (hpoison : w.poisoned = true) :
      Move w t .go (w.goto t w.bpm (.idle none))
  | panicLock {p mode f} (hpc : w.tasks t = .lock p mode f) (hpoison : w.poisoned = true)
      (hdata : w.dataPoisoned f = true) : Move w t .go (w.goto t w.bpm (.idle none))

variable [Fintype τ] {w w' : World n τ} {t : τ} {c : Choice}

theorem onGo_eq_some {α : Type} {next : Option α} {a : α} :
    Choice.onGo next c = some a ↔ c = .go ∧ next = some a := by
  cases c <;> simp [Choice.onGo]

theorem onDisk_eq_some {α : Type} {ok a : α} {failed : String → α} :
    Choice.onDisk ok failed c = some a ↔
      c = .go ∧ ok = a ∨ ∃ e, c = .fault e ∧ failed e = a := by
  cases c <;> simp [Choice.onDisk]

theorem detachPage_ret {b b' : BufferPoolManager n} {f : Fin n} {img : Option (PageId × Page)}
    (h : b.detachPage f = .ret (img, b')) :
    ∃ v, (b.frames f).pageId = some v ∧ ((b.frames f).isDirty = true → (b.frames f).canRead) ∧
      img = image (b.frames f) v ∧ b' = { b with pageTable := Function.update b.pageTable v none } := by
  cases hv : (b.frames f).pageId with
  | none =>
    rw [detachPage, hv] at h
    cases h
  | some v =>
    by_cases hread : (b.frames f).isDirty = true → (b.frames f).canRead
    · rw [detachPage_eq hv hread] at h
      cases h
      exact ⟨v, rfl, hread, rfl, rfl⟩
    · rw [Classical.not_imp] at hread
      rw [detachPage, hv, Exec.unwrap_some, Exec.ret_bind] at h
      dsimp only at h
      rw [if_pos hread.1, if_neg hread.2] at h
      cases h

theorem decrementPinCount_ret {b b' : BufferPoolManager n} {f : Fin n} {k : ℕ}
    (h : b.decrementPinCount f = .ret (k, b')) :
    (b.frames f).pinCount > 0 ∧ k = (b.frames f).pinCount ∧
      b' = b.modifyFrame f fun fr => { fr with pinCount := fr.pinCount - 1 } := by
  unfold decrementPinCount at h
  split_ifs at h with hpin
  · cases h
    exact ⟨hpin, rfl, rfl⟩

/-- **Every action is one of the moves.** -/
theorem move_of_act (hp : ¬ w.Panics t) (h : w.act t c = some w') : Move w t c w' := by
  have hrun : ∀ {pc : Pc n}, w.tasks t = pc → pc.unwraps w.dataPoisoned = true → w.poisoned = false := by
    rintro pc rfl hlocks
    exact Bool.eq_false_iff.mpr fun hpoison => hp ⟨hpoison, hlocks⟩
  unfold act at h
  cases hpc : w.tasks t <;> rw [hpc] at h <;> dsimp only at h
  case idle e =>
    cases c with
    | fetchPage p mode =>
      cases h
      exact .callFetch hpc
    | createPage tableId =>
      cases h
      exact .callCreate hpc
    | _ => cases h
  case lookup p mode =>
    obtain ⟨rfl, h⟩ := onGo_eq_some.mp h
    obtain ⟨hlock, h⟩ := Option.ite_none_right_eq_some.mp h
    rw [Option.isNone_iff_eq_none] at hlock
    cases hmap : w.bpm.pageTable p with
    | some f =>
      rw [hmap] at h
      cases h
      exact .hit hpc hlock hmap (hrun hpc rfl)
    | none =>
      rw [hmap] at h
      cases h
      exact .miss hpc hlock hmap (hrun hpc rfl)
  case allocate tableId =>
    obtain ⟨rfl, h⟩ := onGo_eq_some.mp h
    cases h
    exact .allocate hpc
  case zero p =>
    rcases onDisk_eq_some.mp h with ⟨rfl, rfl⟩ | ⟨e, rfl, rfl⟩
    · exact .zero hpc
    · exact .zeroFault hpc
  case enter p =>
    obtain ⟨rfl, h⟩ := onGo_eq_some.mp h
    obtain ⟨hlock, h⟩ := Option.ite_none_right_eq_some.mp h
    rw [Option.isNone_iff_eq_none] at hlock
    cases h
    exact .enter hpc hlock (hrun hpc rfl)
  case take r =>
    obtain ⟨rfl, h⟩ := onGo_eq_some.mp h
    cases hfree : w.bpm.freeFrames with
    | cons f rest =>
      rw [hfree] at h
      cases h
      exact .takeFree hpc hfree
    | nil =>
      have hb : ∀ evictor, { w.bpm with evictor, freeFrames := [] } = { w.bpm with evictor } :=
        fun evictor => by rw [← hfree]
      rw [hfree] at h
      dsimp only at h
      rcases hvictim : w.bpm.evictor.victim with ⟨_ | f, evictor⟩
      · rw [hvictim] at h
        cases r with
        | fetch p mode =>
          cases h
          rw [hb]
          exact .full hpc hfree hvictim
        | create p =>
          cases h
          rw [hb]
          exact .panic hpc hfree hvictim
      · rw [hvictim] at h
        cases h
        rw [hb]
        exact .takeVictim hpc hfree hvictim
  case evict r f =>
    cases r with
    | fetch p mode =>
      obtain ⟨rfl, h⟩ := onGo_eq_some.mp h
      obtain ⟨⟨img, b⟩, hdetach, h⟩ := Option.bind_eq_some_iff.mp h
      obtain ⟨b', hannounce, h⟩ := Option.bind_eq_some_iff.mp h
      rw [Exec.toOption_eq_some] at hdetach hannounce
      obtain ⟨v, hv, hread, rfl, rfl⟩ := detachPage_ret hdetach
      have hsame := announceFlush_eq
        { w.bpm with pageTable := Function.update w.bpm.pageTable v none } f v
      cases hannounce.symm.trans hsame
      cases h
      exact .evict hpc hv hread
    | create p =>
      obtain ⟨rfl, h⟩ := onGo_eq_some.mp h
      obtain ⟨⟨img, b⟩, hdetach, h⟩ := Option.bind_eq_some_iff.mp h
      rw [Exec.toOption_eq_some] at hdetach
      obtain ⟨v, hv, hread, rfl, rfl⟩ := detachPage_ret hdetach
      cases h
      exact .evictCreate hpc hv hread
  case register p mode f img =>
    obtain ⟨rfl, h⟩ := onGo_eq_some.mp h
    cases h
    exact .register hpc
  case pin site f =>
    obtain ⟨rfl, h⟩ := onGo_eq_some.mp h
    cases h
    exact .pin hpc
  case remove site f =>
    obtain ⟨rfl, h⟩ := onGo_eq_some.mp h
    cases h
    exact .remove hpc
  case release site f =>
    cases site with
    | hit p mode =>
      obtain ⟨rfl, h⟩ := onGo_eq_some.mp h
      cases h
      exact .releaseHit hpc
    | miss p mode img =>
      obtain ⟨rfl, h⟩ := onGo_eq_some.mp h
      cases h
      exact .releaseMiss hpc
    | create p evicted =>
      obtain ⟨rfl, h⟩ := onGo_eq_some.mp h
      obtain ⟨b, hb, h⟩ := Option.bind_eq_some_iff.mp h
      rw [Exec.toOption_eq_some] at hb
      cases h
      exact .releaseCreate hpc hb
  case waitFetch p mode f =>
    obtain ⟨rfl, h⟩ := onGo_eq_some.mp h
    cases hc : w.bpm.fetches p with
    | some c =>
      rw [hc] at h
      cases h
      exact .subscribeFetch hpc hc (hrun hpc rfl)
    | none =>
      rw [hc] at h
      cases h
      exact .noFetch hpc hc (hrun hpc rfl)
  case recvFetch p mode f sub =>
    obtain ⟨rfl, hnext⟩ := onGo_eq_some.mp h
    clear h
    split_ifs at hnext with hsent hclosed
    · cases hnext
      exact .recvFetch hpc hsent
    · cases hnext
      exact .closedFetch hpc (Bool.eq_false_iff.mpr hsent) hclosed.1
  case unpin f e =>
    obtain ⟨rfl, h⟩ := onGo_eq_some.mp h
    obtain ⟨⟨k, b⟩, hdec, h⟩ := Option.bind_eq_some_iff.mp h
    rw [Exec.toOption_eq_some] at hdec
    obtain ⟨hpin, rfl, rfl⟩ := decrementPinCount_ret hdec
    cases h
    exact .unpin hpc hpin
  case waitFlush l =>
    obtain ⟨rfl, h⟩ := onGo_eq_some.mp h
    cases hc : w.bpm.flushes l.page with
    | some c =>
      rw [hc] at h
      cases h
      exact .subscribeFlush hpc hc (hrun hpc rfl)
    | none =>
      rw [hc] at h
      cases h
      exact .noFlush hpc hc (hrun hpc rfl)
  case recvFlush l sub =>
    obtain ⟨rfl, hnext⟩ := onGo_eq_some.mp h
    clear h
    split_ifs at hnext with hsent hclosed
    · cases hnext
      exact .recvFlush hpc hsent
    · cases hnext
      exact .closedFlush hpc (Bool.eq_false_iff.mpr hsent) hclosed
  case issueRead l =>
    obtain ⟨rfl, h⟩ := onGo_eq_some.mp h
    cases h
    exact .issueRead hpc
  case reading l =>
    rcases onDisk_eq_some.mp h with ⟨rfl, rfl⟩ | ⟨e, rfl, rfl⟩
    · exact .read hpc
    · exact .readFault hpc
  case copy l bytes =>
    obtain ⟨rfl, h⟩ := onGo_eq_some.mp h
    obtain ⟨b, hb, h⟩ := Option.bind_eq_some_iff.mp h
    rw [Exec.toOption_eq_some] at hb
    unfold loadFrame at hb
    split_ifs at hb with hwrite
    cases hb
    cases h
    exact .copy hpc hwrite
  case finishFetch l =>
    obtain ⟨rfl, h⟩ := onGo_eq_some.mp h
    cases h
    exact .finishFetch hpc (hrun hpc rfl)
  case writing l v bytes =>
    rcases onDisk_eq_some.mp h with ⟨rfl, rfl⟩ | ⟨e, rfl, rfl⟩
    · exact .write hpc
    · exact .writeFault hpc
  case finishFlush l v error =>
    obtain ⟨rfl, h⟩ := onGo_eq_some.mp h
    cases h
    exact .finishFlush hpc (hrun hpc rfl)
  case finish l error =>
    obtain ⟨rfl, h⟩ := onGo_eq_some.mp h
    cases h
    cases error with
    | none => exact .finish hpc
    | some e => exact .fail hpc
  case createFlush p f v bytes =>
    rcases onDisk_eq_some.mp h with ⟨rfl, rfl⟩ | ⟨e, rfl, rfl⟩
    · exact .createWrite hpc
    · exact .createFault hpc
  case createFinish p f v =>
    obtain ⟨rfl, h⟩ := onGo_eq_some.mp h
    cases h
    exact .createFinish hpc (hrun hpc rfl)
  case lock p mode f =>
    obtain ⟨rfl, h⟩ := onGo_eq_some.mp h
    obtain ⟨b, hb, h⟩ := Option.bind_eq_some_iff.mp h
    rw [Exec.toOption_eq_some] at hb
    cases h
    exact .lock hpc hb
  case guard p mode f =>
    cases c with
    | store bytes =>
      dsimp only at h
      split_ifs at h with hm
      subst hm
      cases h
      exact .store hpc
    | markDirty =>
      dsimp only at h
      split_ifs at h with hm
      subst hm
      cases h
      exact .markDirty hpc
    | drop =>
      obtain ⟨⟨k, b⟩, hdec, h⟩ := Option.bind_eq_some_iff.mp h
      rw [Exec.toOption_eq_some] at hdec
      obtain ⟨hpin, rfl, rfl⟩ := decrementPinCount_ret hdec
      cases h
      exact .drop hpc hpin
    | _ => cases h
  case add f next =>
    obtain ⟨rfl, h⟩ := onGo_eq_some.mp h
    cases h
    cases next with
    | fail e => exact .addFail hpc
    | unlock mode => exact .add hpc
  case unlock f mode =>
    obtain ⟨rfl, h⟩ := onGo_eq_some.mp h
    cases h
    exact .unlock hpc

omit [Fintype τ] in
theorem move_of_unwind (hp : w.Panics t) : Move w t .go (w.unwind t) := by
  obtain ⟨hpoison, hlocks⟩ := hp
  unfold unwind
  cases hpc : w.tasks t <;> rw [hpc] at hlocks
  case lookup => exact .panicLookup hpc hpoison
  case enter => exact .panicEnter hpc hpoison
  case waitFetch => exact .panicWaitFetch hpc hpoison
  case waitFlush => exact .panicWaitFlush hpc hpoison
  case finishFetch => exact .panicFinishFetch hpc hpoison
  case finishFlush => exact .panicFinishFlush hpc hpoison
  case createFinish => exact .panicCreateFinish hpc hpoison
  case lock => exact .panicLock hpc hpoison hlocks
  all_goals cases hlocks

/-- **Every step is one of the moves.** -/
theorem move_of_step (h : w.step t c = some w') : Move w t c w' := by
  unfold step at h
  split_ifs at h with hp
  · obtain ⟨rfl, h⟩ := onGo_eq_some.mp h
    cases h
    exact move_of_unwind hp
  · exact move_of_act hp h

omit [Fintype τ] [DecidableEq τ] in
theorem take_of_takesNew {pc : Pc n} (h : pc.takesNew = true) : ∃ p, pc = .take (.create p) := by
  cases pc with
  | take r =>
    cases r with
    | fetch => cases h
    | create p => exact ⟨p, rfl⟩
  | _ => cases h

/-! ## The tasks after a move -/

omit [Fintype τ] in
theorem goto_task (w : World n τ) (t : τ) (b : BufferPoolManager n) (pc : Pc n) :
    (w.goto t b pc).tasks t = pc := Function.update_self ..

omit [Fintype τ] in
theorem leave_task (w : World n τ) (t : τ) (b : BufferPoolManager n) (pc : Pc n) :
    (w.leave t b pc).tasks t = pc := Function.update_self ..

omit [Fintype τ] in
theorem enter_task (w : World n τ) (t : τ) (pc : Pc n) : (w.enter t pc).tasks t = pc :=
  Function.update_self ..

omit [Fintype τ] in
theorem poison_task (w : World n τ) (t : τ) (b : BufferPoolManager n) (pc : Pc n) :
    (w.poison t b pc).tasks t = pc := Function.update_self ..

omit [Fintype τ] in
theorem Move.poisoned (hm : Move w t c w') (hp : w'.poisoned = true) : w.poisoned = true ∨ w.NoFrame t := by
  cases hm with
  | panic hpc hfree hvictim => exact .inr ⟨by rw [hpc]; rfl, hfree, by rw [hvictim]⟩
  | _ => exact .inl hp

omit [Fintype τ] in
theorem Move.running (hm : Move w t c w') (hframe : ¬ w.NoFrame t) (hrun : w.poisoned = false) :
    w'.poisoned = false :=
  Bool.eq_false_iff.mpr fun hp => (hm.poisoned hp).elim (fun hold => by cases hrun.symm.trans hold) hframe

omit [Fintype τ] in
theorem Move.keeps_poison (hm : Move w t c w') (hp : w.poisoned = true) : w'.poisoned = true := by
  cases hm with
  | panic => rfl
  | _ => exact hp

omit [Fintype τ] in
theorem Move.tasks (hm : Move w t c w') : w'.tasks = Function.update w.tasks t (w'.tasks t) := by
  have hself : ∀ pc : Pc n, Function.update w.tasks t pc =
      Function.update w.tasks t (Function.update w.tasks t pc t) := fun pc => by rw [Function.update_self]
  cases hm <;> exact hself _

omit [Fintype τ] in
theorem Move.tasks_of_ne (hm : Move w t c w') {u : τ} (hu : u ≠ t) : w'.tasks u = w.tasks u := by
  rw [hm.tasks, Function.update_of_ne hu]

end World

end RarmDb
