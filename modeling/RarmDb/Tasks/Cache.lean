import RarmDb.Lib.CacheProtocol
import RarmDb.Tasks.Pins

/-!
# The loads and flushes of the tasks

* `cacheRole`, `cachePool`: the pool and its tasks as loads and flushes of a cache;
* `Fresh`: a new page is neither cached nor being flushed;
* **`Move.cache`**: every move is a step of that protocol, if a new page is fresh;
* `CacheInv`, **`Move.cacheInv`**: the invariants of the table, the pins and the cache together.
-/

namespace RarmDb

open BufferPoolManager

variable {n : ℕ} {τ : Type}

/-! ## The protocol of the cache -/

/-- The role of a section from where it pins its frame on. -/
def PinSite.cacheRole (f : Fin n) : PinSite → CacheProtocol.Role PageId (Fin n)
  | .hit p _ => .hit p f
  | .miss p _ pageDataToFlush => .registering p f (pageDataToFlush.map Prod.fst)
  | .create _ evicted => .detached (evicted.join.map Prod.fst)

/-- What a task does with the cache. -/
def Pc.cacheRole : Pc n → CacheProtocol.Role PageId (Fin n)
  | .idle _ | .lookup .. | .allocate _ | .zero _ | .enter _ | .take _ | .evict .. | .unpin .. | .add ..
  | .unlock .. => .away
  | .register _ _ _ pageDataToFlush => .holding (pageDataToFlush.map Prod.fst)
  | .pin site f | .remove site f | .release site f => site.cacheRole f
  | .waitFetch p _ f => .hit p f
  | .recvFetch p _ f sub => .subscribed p f sub
  | .waitFlush l => .waiting l.page l.frame l.tx (l.pageDataToFlush.map Prod.fst)
  | .recvFlush l sub => .subscribedFlush l.page l.frame l.tx (l.pageDataToFlush.map Prod.fst) sub
  | .issueRead l | .reading l | .copy l _ | .finishFetch l =>
    .loading l.page l.frame l.tx (l.pageDataToFlush.map Prod.fst)
  | .writing l v _ | .finishFlush l v _ => .ready l.page l.frame (some v)
  | .finish l _ => .ready l.page l.frame none
  | .createFlush p f v _ | .createFinish p f v => .ready p f (some v)
  | .lock p _ f | .guard p _ f => .ready p f none

/-- `create_page` has evicted a page that it has to flush. -/
def PinSite.dirty : PinSite → Bool
  | .create _ evicted => evicted.join.isSome
  | _ => false

/-- The frame from which `create_page` has a page to flush. -/
def Pc.dirtyFrame : Pc n → Option (Fin n)
  | .pin site f | .remove site f | .release site f => if site.dirty then some f else none
  | _ => none

/-- What `create_page` has evicted from the frame. -/
def PinSite.evictedFor (f : Fin n) : PinSite → Option (Fin n × Option (PageId × Page))
  | .create _ evicted => evicted.map (f, ·)
  | _ => none

/-- The frame that `create_page` has evicted, with its page if it was dirty. -/
def Pc.evictedFor : Pc n → Option (Fin n × Option (PageId × Page))
  | .pin site f | .remove site f | .release site f => site.evictedFor f
  | _ => none

section Roles

variable {pc : Pc n} {p : PageId} {f : Fin n}

theorem evictedFor_of_dirtyFrame (h : pc.dirtyFrame = some f) : ∃ x, pc.evictedFor = some (f, some x) := by
  cases pc with
  | pin site g | remove site g | release site g =>
    unfold Pc.dirtyFrame at h
    rcases site with _ | _ | ⟨p, _ | _ | x⟩ <;> cases h
    exact ⟨x, rfl⟩
  | _ => cases h

theorem uses_of_user (h : pc.cacheRole.user = some (p, f)) : pc.pinRole.Uses f := by
  cases pc with
  | pin site g | remove site g | release site g => cases site <;> cases h <;> rfl
  | _ => cases h <;> rfl

theorem inSection_of_registers (h : pc.cacheRole.registers = some p) : pc.pinRole.inSection = true := by
  cases pc with
  | pin site g =>
    cases site <;> cases h
    rfl
  | remove site g | release site g => rfl
  | _ => cases h

theorem inSection_of_unannounced (h : pc.cacheRole.unannounced = some p) : pc.pinRole.inSection = true := by
  cases pc with
  | pin site g =>
    cases site <;> rfl
  | remove site g | release site g => rfl
  | _ => cases h

theorem inSection_of_dirtyFrame (h : pc.dirtyFrame = some f) : pc.pinRole.inSection = true := by
  cases pc with
  | pin site g => cases site <;> rfl
  | remove site g | release site g => rfl
  | _ => cases h

end Roles

namespace World

/-- The pool as a cache, with the frames whose pin count is never 0 again. -/
def cachePool (w : World n τ) (stuck : Fin n → Prop) : CacheProtocol.Pool PageId (Fin n) where
  table := w.bpm.pageTable
  fetches := w.bpm.fetches
  flushes := w.bpm.flushes
  sent := w.bpm.sent
  next := w.bpm.nextChannel
  stuck := stuck

/-- What the tasks do with the cache. -/
def cacheRoles (w : World n τ) (t : τ) : CacheProtocol.Role PageId (Fin n) := (w.tasks t).cacheRole

/-- A new page is not in the page table when `create_page` registers it, nor being flushed, nor the one
that was evicted for it. -/
def Fresh (w : World n τ) (t : τ) : Prop :=
  ∀ p ∈ (w.tasks t).registers, w.bpm.pageTable p = none ∧ w.bpm.flushes p = none ∧
    (w.tasks t).cacheRole.unannounced ≠ some p

instance (w : World n τ) (t : τ) : Decidable (Fresh w t) :=
  inferInstanceAs (Decidable (∀ p ∈ (w.tasks t).registers, _ ∧ _ ∧ _))

variable [DecidableEq τ] {w w' : World n τ} {t u : τ} {c : Choice} {b : BufferPoolManager n} {pc : Pc n}
  {f : Fin n} {p : PageId} {d : Channel}

omit [DecidableEq τ] in
theorem Fresh.unregistered (h : Fresh w t) : Unregistered w t := fun p hp => (h p hp).1

theorem cacheRoles_update (hw : w'.tasks = Function.update w.tasks t (w'.tasks t)) :
    w'.cacheRoles = Function.update w.cacheRoles t (w'.tasks t).cacheRole := by
  funext u
  by_cases hu : u = t
  · rw [hu, Function.update_self]
    rfl
  · rw [Function.update_of_ne hu]
    change (w'.tasks u).cacheRole = (w.tasks u).cacheRole
    rw [hw, Function.update_of_ne hu]

/-- The evicted page of `create_page` has its frame dirty. -/
def EvictedDirty (w : World n τ) : Prop :=
  ∀ u, ∀ f ∈ (w.tasks u).dirtyFrame, (w.bpm.frames f).isDirty = true

omit [DecidableEq τ] in
theorem isDirty_modifyFrame {b' : BufferPoolManager n} {g : Fin n} {change : Frame → Frame}
    (hb : b'.frames = (b.modifyFrame g change).frames)
    (hchange : f = g → (change (b.frames g)).isDirty = (b.frames g).isDirty) :
    (b'.frames f).isDirty = (b.frames f).isDirty := by
  rw [hb]
  by_cases hg : f = g
  · rw [hg, modifyFrame_self]
    exact hchange hg
  · rw [modifyFrame_of_ne hg]

theorem Move.isDirty_eq (hm : Move w t c w') (hreg : ∀ p mode f img, w.tasks t ≠ .register p mode f img)
    (hmark : c = .markDirty → ∀ p, w.tasks t ≠ .guard p .write f) :
    (w'.bpm.frames f).isDirty = (w.bpm.frames f).isDirty := by
  cases hm with
  | register hpc => exact absurd hpc (hreg _ _ _ _)
  | @markDirty p g hpc =>
    refine isDirty_modifyFrame rfl fun hg => ?_
    subst hg
    exact absurd hpc (hmark rfl p)
  | @evict p mode g v hpc =>
    cases himg : image (w.bpm.frames g) v <;> rfl
  | @releaseCreate p g evicted b hpc hb =>
    obtain ⟨b₁, hb₁, rfl⟩ := registerCreated_ret hb
    have hframes : (b₁.modifyFrame g fun fr => { fr with pageId := some p }).frames =
        (w.bpm.modifyFrame g fun fr => { fr with pageId := some p }).frames := by
      rcases hb₁ with rfl | ⟨v, bytes, -, rfl⟩ <;> rfl
    exact isDirty_modifyFrame hframes fun _ => rfl
  | lock hpc hb =>
    rw [lockData_ret hb]
    refine isDirty_modifyFrame rfl fun _ => ?_
    cases ‹Mode› <;> rfl
  | unlock hpc =>
    rw [unlockData_eq]
    refine isDirty_modifyFrame rfl fun _ => ?_
    cases ‹Mode› <;> rfl
  | finishFetch hpc => rw [finishFetch_eq]; rfl
  | finishFlush hpc | createFinish hpc => rw [finishFlush_eq]; rfl
  | pin hpc | unpin hpc hpin | copy hpc hwrite | finish hpc | fail hpc | store hpc | drop hpc hpin
  | panicFinishFetch hpc | panicFinishFlush hpc =>
    exact isDirty_modifyFrame rfl fun _ => rfl
  | _ => rfl

theorem Move.isDirty (hm : Move w t c w') (hreg : ∀ p mode f img, w.tasks t ≠ .register p mode f img)
    (hf : (w.bpm.frames f).isDirty = true) : (w'.bpm.frames f).isDirty = true := by
  by_cases hc : c = .markDirty
  · subst hc
    cases hm with
    | @markDirty p g hpc =>
      by_cases hg : f = g
      · rw [hg, goto, modifyFrame_self]
      · rw [goto, modifyFrame_of_ne hg]
        exact hf
  · rw [hm.isDirty_eq hreg fun h => absurd h hc]
    exact hf

/-! ## Every move is a step of the cache -/

omit [DecidableEq τ] in
theorem registerCreated_clean {b' : BufferPoolManager n} {evicted : Option (Option (PageId × Page))}
    (h : b.registerCreated p f evicted = .ret b') (hnone : evicted.join = none) :
    b' = { b.modifyFrame f (fun fr => { fr with pageId := some p }) with
      pageTable := Function.update b.pageTable p (some f) } := by
  obtain ⟨b₁, hb₁, rfl⟩ := registerCreated_ret h
  rcases hb₁ with rfl | ⟨v, bytes, rfl, -⟩
  · rfl
  · cases hnone

omit [DecidableEq τ] in
theorem registerCreated_dirty {b' : BufferPoolManager n} {evicted : Option (Option (PageId × Page))}
    {v : PageId} {bytes : Page} (h : b.registerCreated p f evicted = .ret b')
    (hv : evicted.join = some (v, bytes)) (hdirty : (b.frames f).isDirty = true) :
    b' = { (b.insertFlush v).modifyFrame f (fun fr => { fr with pageId := some p }) with
      pageTable := Function.update b.pageTable p (some f) } := by
  obtain rfl : evicted = some (some (v, bytes)) := by
    cases evicted with
    | none => cases hv
    | some img => exact congrArg some hv
  unfold registerCreated announceFlush at h
  dsimp only at h
  rw [if_pos hdirty] at h
  cases h
  rfl

omit [DecidableEq τ] in
theorem image_eq_some {fr : Frame} {v q : PageId} {bytes : Page} :
    image fr v = some (q, bytes) ↔ q = v ∧ bytes = fr.data ∧ fr.isDirty = true := by
  unfold image
  rw [Option.ite_none_right_eq_some, Option.some.injEq, Prod.mk.injEq]
  exact ⟨fun h => ⟨h.2.1.symm, h.2.2.symm, h.1⟩, fun h => ⟨h.2.2, h.1.symm, h.2.1.symm⟩⟩

omit [DecidableEq τ] in
theorem finishFetch_some (hc : b.fetches p = some d) :
    b.finishFetch p =
      { b with fetches := Function.update b.fetches p none, sent := Function.update b.sent d true } := by
  unfold finishFetch
  rw [hc]

omit [DecidableEq τ] in
theorem finishFlush_some (hc : b.flushes p = some d) :
    b.finishFlush p =
      { b with flushes := Function.update b.flushes p none, sent := Function.update b.sent d true } := by
  unfold finishFlush
  rw [hc]

omit [DecidableEq τ] in
theorem cache_same {stuck : Fin n → Prop} {pc' : Pc n} (hpc : w.tasks t = pc) (hpc' : w'.tasks t = pc')
    (hr : pc'.cacheRole = pc.cacheRole) (hpool : w'.cachePool stuck = w.cachePool stuck) :
    CacheProtocol.Step t (w.cachePool stuck) w.cacheRoles (w'.cachePool stuck)
      (w'.tasks t).cacheRole := by
  rw [hpool, hpc', hr, ← hpc]
  apply CacheProtocol.Step.same

omit [DecidableEq τ] in
/-- The task gives up its page, which it neither loads nor waits for. -/
theorem cache_leave {stuck : Fin n → Prop} {pc' : Pc n} (hpc : w.tasks t = pc) (hpc' : w'.tasks t = pc')
    (hr : pc'.cacheRole = .away) (hreg : pc.cacheRole.registers = none) (hload : pc.cacheRole.load = none)
    (hpool : w'.cachePool stuck = w.cachePool stuck) :
    CacheProtocol.Step t (w.cachePool stuck) w.cacheRoles (w'.cachePool stuck)
      (w'.tasks t).cacheRole := by
  rw [← hpc] at hreg hload
  rw [hpool, hpc', hr]
  exact .leave hreg fun p c hc => by cases hload.symm.trans hc

section Moves

variable [Fintype τ]

/-- The invariants of the table, the pins and the cache. -/
structure CacheInv (w : World n τ) : Prop where
  table : TableProtocol.Inv w.tableState
  pins : PinInv w
  dirty : EvictedDirty w
  cache : CacheProtocol.Inv (w.cachePool (PinProtocol.Slack w.pinState)) w.cacheRoles

namespace CacheInv

omit [DecidableEq τ] in
theorem sole (h : CacheInv w) (ht : (w.tasks t).pinRole.inSection = true) (hu : u ≠ t) :
    (w.tasks u).pinRole.inSection = false := h.pins.pins.sole ht hu

omit [DecidableEq τ] in
theorem unannounced (h : CacheInv w) (ht : (w.tasks t).pinRole.inSection = true) (hu : u ≠ t) :
    (w.tasks u).cacheRole.unannounced = none := by
  cases hv : (w.tasks u).cacheRole.unannounced with
  | none => rfl
  | some v => cases (inSection_of_unannounced hv).symm.trans (h.sole ht hu)

omit [DecidableEq τ] in
theorem victim_unused (h : CacheInv w) {r : Request} (hpc : w.tasks t = .evict r f) (u : τ) (q : PageId) :
    (w.tasks u).cacheRole.user ≠ some (q, f) := by
  intro hu
  by_cases hut : u = t
  · rw [hut, hpc] at hu
    cases hu
  · exact h.pins.pins.claimed (congrArg Pc.pinRole hpc) hut (uses_of_user hu)

omit [DecidableEq τ] in
theorem victim_mapped (h : CacheInv w) {r : Request} (hpc : w.tasks t = .evict r f) {v : PageId}
    (hv : (w.bpm.frames f).pageId = some v) : w.bpm.pageTable v = some f := by
  have hvictim : (w.tableState.role t).victim = some f := by
    change (w.tasks t).tableRole.victim = _
    rw [hpc]
    rfl
  obtain ⟨p, hp⟩ := h.table.victim t f hvictim
  have hid : (w.bpm.frames f).pageId = some p := h.table.table p f hp
  cases hv.symm.trans hid
  exact hp

omit [DecidableEq τ] in
theorem victim_count (h : CacheInv w) {r : Request} (hpc : w.tasks t = .evict r f) :
    (w.bpm.frames f).pinCount = 0 := (h.pins.pins.claiming t f (congrArg Pc.pinRole hpc)).1

omit [DecidableEq τ] in
theorem flush_open (h : CacheInv w) {l : Load n} (hpc : w.tasks t = .recvFlush l d)
    (hsent : w.bpm.sent d = false) : w.bpm.flushes l.page = some d := by
  have hfits := h.cache.fits t
  have hrole : w.cacheRoles t = (Pc.recvFlush l d).cacheRole := congrArg Pc.cacheRole hpc
  rw [hrole] at hfits
  rcases hfits.2.2.2 with hd | hd
  · exact hd
  · cases hsent.symm.trans hd.1

end CacheInv

omit [DecidableEq τ] in
theorem not_slack {w : World n τ} (h : (w.bpm.frames f).pinCount = 0) : ¬ PinProtocol.Slack w.pinState f := by
  intro hs
  have hlt : w.pinState.pinners f < (w.bpm.frames f).pinCount := hs
  omega

/-- **Every move is a step of the cache**, if a new page is fresh. -/
theorem Move.cache (hm : Move w t c w') (h : CacheInv w) (hfresh : Fresh w t) :
    CacheProtocol.Step t (w.cachePool (PinProtocol.Slack w'.pinState)) w.cacheRoles
      (w'.cachePool (PinProtocol.Slack w'.pinState)) (w'.tasks t).cacheRole := by
  have hfits := h.cache.fits t
  have hrole : ∀ {pc : Pc n}, w.tasks t = pc → w.cacheRoles t = pc.cacheRole := congrArg Pc.cacheRole
  have hsection : ∀ {pc : Pc n}, w.tasks t = pc → pc.pinRole.inSection = true → ∀ u, u ≠ t →
      (w.cacheRoles u).unannounced = none := by
    intro pc hpc hin u hu
    exact h.unannounced (by rw [hpc]; exact hin) hu
  cases hm with
  | callFetch hpc | callCreate hpc | zeroFault hpc | allocate hpc | zero hpc | takeVictim hpc
  | issueRead hpc | read hpc | copy hpc | write hpc | writeFault hpc | finish hpc | createWrite hpc
  | remove hpc | store hpc | markDirty hpc | addFail hpc | add hpc | panicLookup hpc | panicEnter hpc =>
    exact cache_same hpc (goto_task ..) rfl rfl
  | miss hpc | enter hpc => exact cache_same hpc (enter_task ..) rfl rfl
  | panic hpc => exact cache_same hpc (poison_task ..) rfl rfl
  | full hpc | releaseHit hpc => exact cache_same hpc (leave_task ..) rfl rfl
  | pin hpc | unpin hpc hpin =>
    refine cache_same hpc (goto_task ..) ?_ rfl
    split_ifs <;> rfl
  | @lock p mode f b hpc hb =>
    obtain rfl := lockData_ret hb
    exact cache_same hpc (goto_task ..) rfl rfl
  | unlock hpc =>
    refine cache_same hpc (goto_task ..) rfl ?_
    rw [unlockData_eq]
    rfl
  | closedFetch hpc hsent hclosed => exact cache_leave hpc (goto_task ..) rfl rfl rfl rfl
  | fail hpc | createFault hpc | panicWaitFetch hpc | panicFinishFlush hpc | panicCreateFinish hpc | panicLock hpc =>
    exact cache_leave hpc (goto_task ..) rfl rfl rfl rfl
  | drop hpc hpin =>
    refine cache_leave hpc (goto_task ..) ?_ rfl rfl rfl
    split_ifs <;> rfl
  | @takeFree r f rest hpc hfree =>
    rw [goto_task]
    apply CacheProtocol.Step.hold
    · exact hrole hpc
    · cases r
      · exact .inl rfl
      · exact .inr rfl
  | @hit p mode f hpc hlock hp =>
    rw [enter_task]
    apply CacheProtocol.Step.hit
    · exact hrole hpc
    · exact hp
    · intro u hu
      have hin := (h.pins.pins.locked u).mp (inSection_of_registers hu)
      cases hlock.symm.trans hin
  | @evict p mode f v hpc hv hread =>
    have hmapped := h.victim_mapped hpc hv
    have hunused := h.victim_unused hpc
    rw [goto_task]
    cases himg : image (w.bpm.frames f) v with
    | none =>
      apply CacheProtocol.Step.unmap (hrole hpc) v f hmapped hunused
      exact not_slack (h.victim_count hpc)
    | some x =>
      obtain ⟨rfl, -⟩ := image_eq_some.mp himg
      apply CacheProtocol.Step.unmapDirty (hrole hpc) x.1 f hmapped hunused
      exact not_slack (h.victim_count hpc)
  | @evictCreate p f v hpc hv hread =>
    rw [goto_task]
    apply CacheProtocol.Step.detach
    · exact hrole hpc
    · exact h.victim_mapped hpc hv
    · exact h.victim_unused hpc
    · exact not_slack (h.victim_count hpc)
    · intro q hq
      obtain ⟨x, himg, rfl⟩ := Option.map_eq_some_iff.mp hq
      exact (image_eq_some.mp himg).1
  | @register p mode f img hpc =>
    rw [goto_task]
    apply CacheProtocol.Step.register
    · exact hrole hpc
    · exact h.table.want t p (congrArg (fun pc => pc.tableRole.want) hpc)
    · intro u
      by_cases hu : u = t
      · rw [hu, hrole hpc]
        rfl
      · exact hsection hpc rfl u hu
  | @releaseMiss p mode f img hpc =>
    rw [leave_task]
    apply CacheProtocol.Step.announce
    exact hrole hpc
  | @releaseCreate p f evicted b hpc hb =>
    obtain ⟨hp, hflush, hne⟩ := hfresh p (by rw [hpc]; rfl)
    have hr : w.cacheRoles t = .detached (evicted.join.map Prod.fst) := hrole hpc
    have hothers := hsection hpc rfl
    rw [leave_task]
    cases hj : evicted.join with
    | none =>
      obtain rfl := registerCreated_clean hb hj
      rw [hj] at hr
      apply CacheProtocol.Step.create hr p f hp hothers hflush
    | some x =>
      obtain ⟨v, bytes⟩ := x
      have hdirty : (w.bpm.frames f).isDirty = true := h.dirty t f (by
        rw [hpc]
        rcases evicted with - | - | x <;> cases hj
        rfl)
      obtain rfl := registerCreated_dirty hb hj hdirty
      rw [hj] at hr
      apply CacheProtocol.Step.createDirty v hr p f hp hothers hflush
      rintro rfl
      refine hne ?_
      change (w.cacheRoles t).unannounced = some p
      rw [hr]
      rfl
  | @subscribeFetch p mode f c hpc hc =>
    rw [goto_task]
    apply CacheProtocol.Step.subscribe
    · exact hrole hpc
    · exact hc
  | @noFetch p mode f hpc hc =>
    rw [goto_task]
    apply CacheProtocol.Step.pass
    · exact hrole hpc
    · exact hc
  | @recvFetch p mode f c hpc hsent =>
    rw [goto_task]
    apply CacheProtocol.Step.wake
    · exact hrole hpc
    · exact hsent
  | @subscribeFlush l c hpc hc =>
    rw [goto_task]
    apply CacheProtocol.Step.subscribeFlush
    · exact hrole hpc
    · exact hc
  | @noFlush l hpc hc =>
    rw [goto_task]
    apply CacheProtocol.Step.load
    · exact hrole hpc
    · exact hc
  | @recvFlush l c hpc hsent =>
    rw [goto_task]
    apply CacheProtocol.Step.wakeFlush
    · exact hrole hpc
    · exact hsent
  | closedFlush hpc hsent hclosed => exact absurd (h.flush_open hpc hsent) hclosed
  | @readFault l e hpc | @panicWaitFlush l hpc =>
    have hr := hrole hpc
    rw [hr] at hfits
    rw [goto_task, pinState_become .rfl]
    apply CacheProtocol.Step.leave
    · rw [hr]
      rfl
    · intro p c hc
      rw [hr] at hc
      cases hc
      exact ⟨l.frame, hfits.1, PinProtocol.slack_leak (h.pins.pins.pinners l.frame) (congrArg Pc.pinRole hpc)⟩
  | @panicFinishFetch l hpc =>
    have hr := hrole hpc
    have hsame : SamePins (w.poisonData l.frame).bpm (w.bpm.releaseWrite l.frame) := .modifyFrame fun _ => rfl
    rw [hr] at hfits
    rw [goto_task, pinState_become hsame]
    apply CacheProtocol.Step.leave
    · rw [hr]
      rfl
    · intro p c hc
      rw [hr] at hc
      cases hc
      exact ⟨l.frame, hfits.1, PinProtocol.slack_leak (h.pins.pins.pinners l.frame) (congrArg Pc.pinRole hpc)⟩
  | @finishFetch l hpc =>
    have hr := hrole hpc
    rw [hr] at hfits
    rw [goto_task, finishFetch_some hfits.2.1]
    have hload : w.cacheRoles t = .loading l.page l.frame l.tx (l.pageDataToFlush.map Prod.fst) := hr
    cases himg : l.pageDataToFlush <;> rw [himg] at hload <;>
    · apply CacheProtocol.Step.finishFetch
      exact hload
  | @finishFlush l v error hpc =>
    have hr := hrole hpc
    rw [hr] at hfits
    obtain ⟨d, hd⟩ := Option.ne_none_iff_exists'.mp (hfits.2.2 v rfl)
    rw [goto_task, finishFlush_some hd]
    apply CacheProtocol.Step.finishFlush
    · exact hr
    · exact hd
  | @createFinish p f v hpc =>
    have hr := hrole hpc
    rw [hr] at hfits
    obtain ⟨d, hd⟩ := Option.ne_none_iff_exists'.mp (hfits.2.2 v rfl)
    rw [goto_task, finishFlush_some hd]
    apply CacheProtocol.Step.finishFlush
    · exact hr
    · exact hd

omit [DecidableEq τ] in
theorem dirtyFrame_of_evictedFor {x : PageId × Page} (h : pc.evictedFor = some (f, some x)) :
    pc.dirtyFrame = some f := by
  cases pc with
  | pin site g | remove site g | release site g =>
    rcases site with _ | _ | ⟨p, _ | _ | y⟩ <;> cases h
    rfl
  | _ => cases h

omit [Fintype τ] in
/-- A task in the section of `create_page` has evicted its frame before, or does so now. -/
theorem Move.evictedFor {img : Option (PageId × Page)} (hm : Move w t c w')
    (hf : (w'.tasks t).evictedFor = some (f, img)) :
    (w.tasks t).evictedFor = some (f, img) ∨
      (∃ p, w.tasks t = .evict (.create p) f) ∧ img.isSome = (w.bpm.frames f).isDirty := by
  cases hm with
  | callFetch | callCreate | allocate | zero | zeroFault | takeVictim | evict | register | subscribeFetch
  | noFetch | recvFetch | closedFetch | subscribeFlush | noFlush | recvFlush | closedFlush | issueRead | read
  | readFault | copy | write | writeFault | finishFlush | finish | fail | createWrite | createFault
  | createFinish | lock | store | markDirty | addFail | add | unlock | panicLookup | panicEnter | panicWaitFetch
  | panicWaitFlush | panicFinishFetch | panicFinishFlush | panicCreateFinish | panicLock =>
    rw [goto_task] at hf
    cases hf
  | hit | miss | enter =>
    rw [enter_task] at hf
    cases hf
  | panic =>
    rw [poison_task] at hf
    cases hf
  | full | releaseHit | releaseMiss =>
    rw [leave_task] at hf
    cases hf
  | @takeFree r =>
    rw [goto_task] at hf
    cases r <;> cases hf
  | unpin | drop =>
    rw [goto_task] at hf
    split_ifs at hf <;> cases hf
  | finishFetch =>
    rw [goto_task] at hf
    split at hf <;> cases hf
  | releaseCreate =>
    rw [leave_task] at hf
    split at hf <;> cases hf
  | @evictCreate p g v hpc hv hread =>
    rw [goto_task] at hf
    cases hf
    refine .inr ⟨⟨p, hpc⟩, ?_⟩
    unfold image
    split_ifs with hdirty
    · exact hdirty.symm
    · exact (Bool.eq_false_iff.mpr hdirty).symm
  | @pin site g hpc =>
    rw [goto_task] at hf
    rw [hpc]
    split_ifs at hf <;> exact .inl hf
  | remove hpc =>
    rw [goto_task] at hf
    rw [hpc]
    exact .inl hf

theorem Move.evictedDirty (hm : Move w t c w') (h : CacheInv w) : EvictedDirty w' := by
  have hkeep : ∀ u f, (w.tasks u).dirtyFrame = some f → (w'.bpm.frames f).isDirty = true := by
    intro u f hf
    refine hm.isDirty (fun p mode g img hpc => ?_) (h.dirty u f hf)
    have hin := inSection_of_dirtyFrame hf
    by_cases hu : u = t
    · rw [hu, hpc] at hf
      cases hf
    · rw [h.sole (by rw [hpc]; rfl) hu] at hin
      cases hin
  intro u f hf
  by_cases hu : u = t
  · subst hu
    obtain ⟨x, hx⟩ := evictedFor_of_dirtyFrame hf
    rcases hm.evictedFor hx with hold | ⟨⟨p, hpc⟩, hdirty⟩
    · exact hkeep u f (dirtyFrame_of_evictedFor hold)
    · exact hm.isDirty (by rw [hpc]; exact nofun) hdirty.symm
  · rw [hm.tasks_of_ne hu] at hf
    exact hkeep u f hf

theorem PinMove.slack {s s' : PinProtocol.State (Fin n) τ} (hm : PinMove t s s')
    (hpos : ∀ f, s.pinners f ≤ s.count f) (hs : PinProtocol.Slack s f) : PinProtocol.Slack s' f := by
  cases hm with
  | step hstep => exact hs.step hstep hpos
  | same => exact hs
  | leak => exact hs.leak t

/-- **Every move keeps the invariants**, if it pins no frame too early and a new page is fresh. -/
theorem Move.cacheInv (hm : Move w t c w') (halone : PinsAlone w t) (hfresh : Fresh w t) (h : CacheInv w) :
    CacheInv w' where
  table := h.table.step (hm.table hfresh.unregistered)
  pins := hm.pinInv halone h.pins
  dirty := hm.evictedDirty h
  cache := by
    have hgrow := h.cache.grow fun f => (hm.pins h.pins.free halone).slack h.pins.pins.pinners
    rw [cacheRoles_update hm.tasks]
    exact hgrow.step (hm.cache h hfresh)

theorem cacheInv_init (n : ℕ) (τ : Type) [DecidableEq τ] [Fintype τ] (d : Disk) :
    CacheInv (World.init n τ d) where
  table := tableInv_init n τ d
  pins := pinInv_init n τ d
  dirty := nofun
  cache := {
    fits := fun _ => trivial
    apart := fun _ _ _ => ⟨nofun, nofun, nofun⟩
    channels := ⟨nofun, nofun, nofun, nofun, nofun, nofun⟩
    fetched := nofun
    pending := nofun }

end Moves

end World

end RarmDb
