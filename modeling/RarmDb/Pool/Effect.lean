import RarmDb.Pool.Runs

/-!
# What an operation does

* `SameBytes`: pins and locks leave the pages, bytes and flags of the frames;
* `Effect`: the ways in which an operation on a pool returns, each with the state it leaves;
* **`run_effect`**: in the states of a run there are no others.
-/

namespace RarmDb

open BufferPoolManager

variable {n : ℕ}

/-! ## Pins and locks -/

/-- Every frame holds the same page, with the same bytes and the same flag. -/
def SameBytes (b b' : BufferPoolManager n) : Prop :=
  ∀ f, (b'.frames f).pageId = (b.frames f).pageId ∧ (b'.frames f).data = (b.frames f).data ∧
    (b'.frames f).isDirty = (b.frames f).isDirty

section SameBytes

variable {b : BufferPoolManager n} {f : Fin n}

theorem sameBytes_update {fr : Frame} {b' : BufferPoolManager n}
    (hframes : b'.frames = Function.update b.frames f fr) (hid : fr.pageId = (b.frames f).pageId)
    (hdata : fr.data = (b.frames f).data) (hdirty : fr.isDirty = (b.frames f).isDirty) :
    SameBytes b b' := by
  intro g
  rw [hframes]
  by_cases hg : g = f
  · subst hg
    rw [Function.update_self]
    exact ⟨hid, hdata, hdirty⟩
  · rw [Function.update_of_ne hg]
    exact ⟨rfl, rfl, rfl⟩

theorem sameBytes_lock (b : BufferPoolManager n) (f : Fin n) (mode : Mode) :
    SameBytes b (b.modifyFrame f fun fr => withGuard fr mode) := by
  apply sameBytes_update rfl <;> cases mode <;> rfl

theorem sameBytes_pinFrame (b : BufferPoolManager n) (f : Fin n) : SameBytes b (b.pinFrame f) :=
  sameBytes_update (pinFrame_frames b f) rfl rfl rfl

theorem sameBytes_dropped (b : BufferPoolManager n) (g : Guard n) : SameBytes b (dropped b g) := by
  apply sameBytes_update (dropped_frames b g) <;> cases g.mode <;> rfl

end SameBytes

/-! ## Effects -/

/-- The ways in which an operation returns. The fetches and creations that take a frame come with the pool
without this frame. -/
inductive Effect (w : PoolWorld n) (io : Faults) : PoolOp → PoolOut → PoolWorld n → Prop
  | hit {p : PageId} {f : Fin n} {mode : Mode} (hp : w.bpm.pageTable p = some f)
      (hfetches : w.bpm.fetches p = none) :
    Effect w io (.fetchPage p mode) (.guard p (w.bpm.frames f).data)
      ⟨(w.bpm.pinFrame f).modifyFrame f fun fr => withGuard fr mode, ⟨f, mode⟩ :: w.guards⟩
  | full {p : PageId} {mode : Mode} (hp : w.bpm.pageTable p = none) (hnext : w.bpm.nextFrame = none) :
    Effect w io (.fetchPage p mode) (.error .bufferFull) w
  | failed {p : PageId} {f : Fin n} {mode : Mode} {b₁ b' : BufferPoolManager n} {e : BufferPoolError}
      (hp : w.bpm.pageTable p = none) (hnext : w.bpm.nextFrame = some f) (ho : Obtained w.bpm f b₁)
      (hsame : b₁.fetches = w.bpm.fetches ∧ b₁.flushes = w.bpm.flushes)
      (hmissed : Missed w.bpm io p f b₁ (.ret (.error e, b'))) :
    Effect w io (.fetchPage p mode) (.error .bufferFull) ⟨b', w.guards⟩
  | missed {p : PageId} {f : Fin n} {mode : Mode} {b₁ b' : BufferPoolManager n}
      (hp : w.bpm.pageTable p = none) (hnext : w.bpm.nextFrame = some f) (ho : Obtained w.bpm f b₁)
      (hsame : b₁.fetches = w.bpm.fetches ∧ b₁.flushes = w.bpm.flushes)
      (hmissed : Missed w.bpm io p f b₁ (.ret (.ok f, b'))) :
    Effect w io (.fetchPage p mode) (.guard p (b'.frames f).data)
      ⟨b'.modifyFrame f fun fr => withGuard fr mode, ⟨f, mode⟩ :: w.guards⟩
  | unallocated {tableId : UInt32} {e : String}
      (hw : io.writeAt (w.bpm.diskManager.nextPage tableId) = some e) :
    Effect w io (.createPage tableId) (.error (.pageAllocation e))
      ⟨{ w.bpm with diskManager := w.bpm.diskManager.takeIndex tableId }, w.guards⟩
  | uncreated {tableId : UInt32} {p : PageId} {f : Fin n} {b₁ b' : BufferPoolManager n}
      {e : BufferPoolError} (hp : w.bpm.diskManager.nextPage tableId = p) (hw : io.writeAt p = none)
      (hnext : w.bpm.nextFrame = some f) (ho : Obtained (w.bpm.allocated p) f b₁)
      (hsame : b₁.fetches = w.bpm.fetches ∧ b₁.flushes = w.bpm.flushes)
      (hcreated : Created w.bpm io p f b₁ (.ret (.error e, b'))) :
    Effect w io (.createPage tableId) (.error e) ⟨b', w.guards⟩
  | created {tableId : UInt32} {p : PageId} {f : Fin n} {b₁ b' : BufferPoolManager n}
      (hp : w.bpm.diskManager.nextPage tableId = p) (hw : io.writeAt p = none)
      (hnext : w.bpm.nextFrame = some f) (ho : Obtained (w.bpm.allocated p) f b₁)
      (hsame : b₁.fetches = w.bpm.fetches ∧ b₁.flushes = w.bpm.flushes)
      (hcreated : Created w.bpm io p f b₁ (.ret (.ok (p, f), b'))) :
    Effect w io (.createPage tableId) (.guard p (b'.frames f).data)
      ⟨b'.modifyFrame f fun fr => withGuard fr .write, ⟨f, .write⟩ :: w.guards⟩
  | load {i : ℕ} {g : Guard n} (hg : w.guards[i]? = some g) :
    Effect w io (.load i) (.bytes (w.bpm.frames g.frame).data) w
  | store {i : ℕ} {f : Fin n} {bytes : Page} (hg : w.guards[i]? = some ⟨f, .write⟩) :
    Effect w io (.store i bytes) .done
      ⟨w.bpm.modifyFrame f fun fr => { fr with data := bytes }, w.guards⟩
  | markDirty {i : ℕ} {f : Fin n} (hg : w.guards[i]? = some ⟨f, .write⟩) :
    Effect w io (.markDirty i) .done
      ⟨w.bpm.modifyFrame f fun fr => { fr with isDirty := true }, w.guards⟩
  | drop {i : ℕ} {g : Guard n} (hg : w.guards[i]? = some g) :
    Effect w io (.drop i) .done ⟨dropped w.bpm g, w.guards.eraseIdx i⟩

section Operation

variable {w w' : PoolWorld n} {io : Faults} {op : PoolOp} {out : PoolOut} {p : PageId} {f : Fin n}
  {mode : Mode} {tableId : UInt32}

theorem returnGuard_ret (hrun : w.returnGuard p f mode = .ret (out, w')) :
    out = .guard p (w.bpm.frames f).data ∧
      w' = ⟨w.bpm.modifyFrame f fun fr => withGuard fr mode, ⟨f, mode⟩ :: w.guards⟩ := by
  obtain ⟨b', hlock, hrun⟩ := Exec.bind_eq_ret.mp hrun
  cases hrun
  have hb : b' = w.bpm.modifyFrame f fun fr => withGuard fr mode := by
    cases mode <;>
    · unfold lockData at hlock
      dsimp only at hlock
      split_ifs at hlock
      exact (Exec.ret.inj hlock).symm
  subst hb
  refine ⟨?_, rfl⟩
  rw [modifyFrame_self]
  cases mode <;> rfl

theorem returnGuard_write (hcan : (w.bpm.frames f).canWrite) :
    w.returnGuard p f .write = .ret (.guard p (w.bpm.frames f).data,
      ⟨w.bpm.modifyFrame f fun fr => withGuard fr .write, ⟨f, .write⟩ :: w.guards⟩) := by
  have hlock : w.bpm.lockData f .write = .ret (w.bpm.modifyFrame f fun fr => withGuard fr .write) :=
    lockData_eq (fun hm => (by cases hm)) fun _ => hcan
  unfold PoolWorld.returnGuard
  rw [hlock, Exec.ret_bind, modifyFrame_self]
  rfl

theorem fetchPage_effect (h : Sane w) (hrun : w.fetchPage io p mode = .ret (out, w')) :
    Effect w io (.fetchPage p mode) out w' := by
  obtain ⟨⟨r, b'⟩, hfetch, hrun⟩ := Exec.bind_eq_ret.mp hrun
  cases hp : w.bpm.pageTable p with
  | some f =>
    rcases fetchAndPinFrame_cached io hp with ⟨-, hret⟩ | ⟨hfetches, hret⟩
    · cases hret.symm.trans hfetch
    · cases hret.symm.trans hfetch
      obtain ⟨rfl, rfl⟩ := returnGuard_ret hrun
      have hdata : ((w.bpm.pinFrame f).frames f).data = (w.bpm.frames f).data := by
        rw [pinFrame_frames, Function.update_self]
      dsimp only
      rw [hdata]
      exact .hit hp hfetches
  | none =>
    cases hnext : w.bpm.nextFrame with
    | none =>
      cases (fetchAndPinFrame_full io hp hnext).symm.trans hfetch
      cases hrun
      exact .full hp hnext
    | some f =>
      obtain ⟨b₁, ho, hsame, hmissed⟩ := fetchAndPinFrame_missed h.usable h.canWrite io hp hnext
      rw [hfetch] at hmissed
      cases r with
      | error e =>
        cases hrun
        exact .failed hp hnext ho hsame hmissed
      | ok g =>
        obtain rfl : g = f := by
          cases hmissed
          rfl
        obtain ⟨rfl, rfl⟩ := returnGuard_ret hrun
        exact .missed hp hnext ho hsame hmissed

theorem createPage_effect (h : Sane w) (hrun : w.createPage io tableId = .ret (out, w')) :
    Effect w io (.createPage tableId) out w' := by
  obtain ⟨⟨r, b'⟩, hcreate, hrun⟩ := Exec.bind_eq_ret.mp hrun
  cases hw : io.writeAt (w.bpm.diskManager.nextPage tableId) with
  | some e =>
    unfold createAndPinFrame Disk.allocatePage Disk.writePage at hcreate
    dsimp only at hcreate
    rw [hw] at hcreate
    cases hcreate
    cases hrun
    exact .unallocated hw
  | none =>
    cases hnext : w.bpm.nextFrame with
    | none => cases (createAndPinFrame_full rfl hw hnext).symm.trans hcreate
    | some f =>
      obtain ⟨b₁, ho, hsame, hcreated⟩ := createAndPinFrame_created h.usable h.canWrite rfl hw hnext
      rw [hcreate] at hcreated
      cases r with
      | error e =>
        cases hrun
        exact .uncreated rfl hw hnext ho hsame hcreated
      | ok x =>
        obtain rfl : x = (w.bpm.diskManager.nextPage tableId, f) := by
          cases hcreated
          rfl
        obtain ⟨rfl, rfl⟩ := returnGuard_ret hrun
        exact .created rfl hw hnext ho hsame hcreated

/-- **Every operation that returns** does so in one of these ways. -/
theorem run_effect (h : Sane w) (hrun : w.run io op = .ret (out, w')) : Effect w io op out w' := by
  cases op with
  | createPage tableId => exact createPage_effect h hrun
  | fetchPage p mode => exact fetchPage_effect h hrun
  | load i =>
    simp only [PoolWorld.run] at hrun
    split at hrun
    · next g hg =>
      cases hrun
      exact .load hg
    · cases hrun
  | store i bytes =>
    simp only [PoolWorld.run] at hrun
    split at hrun
    · next f hg =>
      cases hrun
      exact .store hg
    · cases hrun
  | markDirty i =>
    simp only [PoolWorld.run] at hrun
    split at hrun
    · next f hg =>
      cases hrun
      exact .markDirty hg
    · cases hrun
  | drop i =>
    simp only [PoolWorld.run] at hrun
    split at hrun
    · next g hg =>
      obtain ⟨held, hl⟩ := h.locked
      rw [(hl.eraseIdx hg).1, Exec.ret_bind] at hrun
      cases hrun
      exact .drop hg
    · cases hrun

end Operation

end RarmDb
