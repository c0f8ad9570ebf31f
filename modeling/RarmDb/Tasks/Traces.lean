import RarmDb.Tasks.Counts
import RarmDb.Tasks.Loads

/-!
# What a call leaves behind

* `NoTrace`: the pins are exact, mapped frames are loaded or being loaded, and every channel belongs to a task
  that is going to signal it;
* **`noTrace_of_reached`**: nothing is left behind, if only `allocate_page` fails and every creation finds a
  frame;
* **`failed_fetch_leaves_pin`**: a fetch whose read or write fails leaves its pin;
* `failed_read_leaves_trace`: the pin, the entry and the channel of a fetch whose read failed.
-/

namespace RarmDb

open BufferPoolManager

variable {n : ℕ} {τ : Type}

/-! ## The channels -/

/-- The channel whose message the task waits for. -/
def Pc.awaits : Pc n → Option Channel
  | .recvFetch _ _ _ sub | .recvFlush _ sub => some sub
  | _ => none

theorem awaits_eq_some {pc : Pc n} {sub : Channel} (h : pc.awaits = some sub) :
    (∃ p mode f, pc = .recvFetch p mode f sub) ∨ ∃ l, pc = .recvFlush l sub := by
  unfold Pc.awaits at h
  split at h
  · cases h
    exact .inl ⟨_, _, _, rfl⟩
  · cases h
    exact .inr ⟨_, rfl⟩
  · cases h

namespace World

variable [DecidableEq τ] [Fintype τ] {w w' : World n τ} {t u : τ} {c : Choice} {d : Disk} {h : History n}

/-- A call leaves nothing behind. -/
structure NoTrace (w : World n τ) (h : History n) : Prop where
  pins : PinsExact w
  loaded : ∀ p f, w.bpm.pageTable p = some f → h.loaded f = some p ∨ ∃ t, (w.tasks t).loads = some p
  fetches : ∀ p sub, w.bpm.fetches p = some sub → ∃ t, (w.tasks t).cacheRole.load = some (p, sub)
  flushes : ∀ v sub, w.bpm.flushes v = some sub → ∃ t, (w.tasks t).cacheRole.flush = some v
  signalled : ∀ t sub, (w.tasks t).awaits = some sub → w.bpm.sent sub = true ∨
    (∃ p, w.bpm.fetches p = some sub) ∨ ∃ v, w.bpm.flushes v = some sub

/-- A task that gives up its page has no flush, if only `allocate_page` fails. -/
theorem Move.keeps_flush (hm : Move w t c w') (hw : CacheInv w) (hrun : w.poisoned = false)
    (hfault : OnlyZeroFails w t c) (haway : (w'.tasks t).cacheRole = .away) : (w.tasks t).cacheRole.flush = none := by
  cases hm with
  | callFetch hpc | callCreate hpc | hit hpc | miss hpc | allocate hpc | zero hpc | zeroFault hpc | enter hpc
  | takeFree hpc | takeVictim hpc | full hpc | panic hpc | evict hpc | evictCreate hpc | subscribeFetch hpc
  | noFetch hpc | recvFetch hpc | closedFetch hpc | unpin hpc | finish hpc | fail hpc | lock hpc | store hpc | markDirty hpc
  | drop hpc | addFail hpc | add hpc | unlock hpc =>
    rw [hpc]
    rfl
  | register | subscribeFlush | noFlush | recvFlush | issueRead | read | copy | write | finishFlush | createWrite
  | createFinish =>
    rw [goto_task] at haway
    cases haway
  | releaseHit | releaseMiss =>
    rw [leave_task] at haway
    cases haway
  | @pin site f hpc =>
    rw [goto_task] at haway
    cases site <;> split_ifs at haway <;> cases haway
  | @remove site f hpc =>
    rw [goto_task] at haway
    cases site <;> cases haway
  | @releaseCreate p f evicted b hpc hb =>
    rw [hpc]
    rfl
  | @finishFetch l hpc =>
    rw [goto_task] at haway
    split at haway <;> cases haway
  | closedFlush hpc hsent hclosed => exact absurd (hw.flush_open hpc hsent) hclosed
  | readFault hpc | writeFault hpc | createFault hpc =>
    have hzero := hfault rfl
    rw [hpc] at hzero
    cases hzero
  | panicLookup _ hpoison | panicEnter _ hpoison | panicWaitFetch _ hpoison | panicWaitFlush _ hpoison
  | panicFinishFetch _ hpoison | panicFinishFlush _ hpoison | panicCreateFinish _ hpoison | panicLock _ hpoison =>
    cases hrun.symm.trans hpoison

/-- The flushes stay announced by tasks, if only `allocate_page` fails. -/
theorem Move.owned (hm : Move w t c w') (hw : CacheInv w) (hrun : w.poisoned = false) (hfresh : Fresh w t)
    (hfault : OnlyZeroFails w t c)
    (howned : ∀ v sub, w.bpm.flushes v = some sub → ∃ u, (w.cacheRoles u).flush = some v) (v : PageId)
    (sub : Channel) (hv : w'.bpm.flushes v = some sub) : ∃ u, (w'.cacheRoles u).flush = some v := by
  have hbefore : CacheProtocol.Owned (w.cachePool (PinProtocol.Slack w'.pinState)) w.cacheRoles := howned
  have hafter := hbefore.step (hm.cache hw hfresh) (hm.keeps_flush hw hrun hfault)
  rw [← cacheRoles_update hm.tasks] at hafter
  exact hafter v sub hv

/-! ## Loaded frames -/

/-- Mapped frames are loaded or being loaded. -/
structure LoadedInv (w : World n τ) (h : History n) : Prop where
  mapped : ∀ p f, w.bpm.pageTable p = some f → h.loaded f = some p ∨ ∃ t, (w.tasks t).loads = some p
  copied : ∀ t l, w.tasks t = .finishFetch l → h.loaded l.frame = some l.page

namespace LoadedInv

omit [Fintype τ] in
/-- What one task has to show: an entry of the table is loaded, or loaded by the task, or it is an old one. -/
theorem change (hl : LoadedInv w h) {h' : History n} (hrest : ∀ u, u ≠ t → w'.tasks u = w.tasks u)
    (hmapped : ∀ q g, w'.bpm.pageTable q = some g → h'.loaded g = some q ∨ (w'.tasks t).loads = some q ∨
      w.bpm.pageTable q = some g ∧ h'.loaded g = h.loaded g ∧
        ((w.tasks t).loads = some q → (w'.tasks t).loads = some q))
    (hcopied : ∀ l, w'.tasks t = .finishFetch l → h'.loaded l.frame = some l.page)
    (hother : ∀ u l, u ≠ t → w.tasks u = .finishFetch l → h'.loaded l.frame = h.loaded l.frame) :
    LoadedInv w' h' := by
  constructor
  case mapped =>
    intro q g hq
    rcases hmapped q g hq with hloaded | hloads | ⟨hold, hsame, hkeep⟩
    · exact .inl hloaded
    · exact .inr ⟨t, hloads⟩
    · rw [hsame]
      refine (hl.mapped q g hold).imp_right fun ⟨u, hu⟩ => ⟨u, ?_⟩
      by_cases hut : u = t
      · subst hut
        exact hkeep hu
      · rw [hrest u hut, hu]
  case copied =>
    intro u l hu
    by_cases hut : u = t
    · subst hut
      exact hcopied l hu
    · rw [hrest u hut] at hu
      rw [hother u l hut hu]
      exact hl.copied u l hu

omit [Fintype τ] in
theorem quiet (hl : LoadedInv w h) {h' : History n} {pc pc' : Pc n} (hpc : w.tasks t = pc) (hpc' : w'.tasks t = pc')
    (hrest : ∀ u, u ≠ t → w'.tasks u = w.tasks u) (hloads : pc'.loads = pc.loads)
    (htable : ∀ q g, w'.bpm.pageTable q = some g → w.bpm.pageTable q = some g) (hloaded : h'.loaded = h.loaded)
    (hcopied : ∀ l, pc' ≠ .finishFetch l) : LoadedInv w' h' := by
  refine hl.change hrest (fun q g hq => .inr (.inr ⟨htable q g hq, congrFun hloaded g, ?_⟩)) ?_
    fun _ l _ _ => congrFun hloaded l.frame
  · rw [hpc, hpc', hloads]
    exact id
  · rw [hpc']
    exact fun l hu => absurd hu (hcopied l)

end LoadedInv

omit [DecidableEq τ] [Fintype τ] in
theorem note_loaded {pc : Pc n} (hpc : w.tasks t = pc) (hcopy : ∀ l bytes, pc ≠ .copy l bytes)
    (hcreate : ∀ p ev f, pc ≠ .release (.create p ev) f) : (h.note w t c).loaded = h.loaded := by
  unfold History.note
  rw [hpc]
  split
  · split <;> rfl
  · rfl
  · exact absurd rfl (hcopy _ _)
  · exact absurd rfl (hcreate _ _ _)
  · rfl

omit [DecidableEq τ] in
theorem CacheInv.loading_mapped (hw : CacheInv w) {l : Load n}
    (ht : (w.tasks t).cacheRole = .loading l.page l.frame l.tx (l.pageDataToFlush.map Prod.fst)) :
    w.bpm.pageTable l.page = some l.frame :=
  (hw.loading_fits ht).1

omit [DecidableEq τ] in
theorem CacheInv.page_unique (hw : CacheInv w) {p q : PageId} {f : Fin n} (hp : w.bpm.pageTable p = some f)
    (hq : w.bpm.pageTable q = some f) : p = q :=
  Option.some.inj ((hw.table.table p f hp).symm.trans (hw.table.table q f hq))

omit [DecidableEq τ] [Fintype τ] in
theorem of_unmapped {table : PageId → Option (Fin n)} {v q : PageId} {g : Fin n}
    (hq : Function.update table v none q = some g) : table q = some g := by
  by_cases hqv : q = v
  · rw [hqv, Function.update_self] at hq
    cases hq
  · rwa [Function.update_of_ne hqv] at hq

/-- **Every move keeps the mapped frames loaded**, if only `allocate_page` fails. -/
theorem Move.loadedInv (hm : Move w t c w') (hw : CacheInv w) (hrun : w.poisoned = false)
    (hfault : OnlyZeroFails w t c) (hl : LoadedInv w h) : LoadedInv w' (h.note w t c) := by
  have hrest : ∀ u, u ≠ t → w'.tasks u = w.tasks u := fun u hu => hm.tasks_of_ne hu
  cases hm with
  | callFetch hpc | callCreate hpc | allocate hpc | zero hpc | zeroFault hpc | takeVictim hpc | subscribeFetch hpc
  | noFetch hpc | recvFetch hpc | closedFetch hpc | subscribeFlush hpc | noFlush hpc | recvFlush hpc
  | issueRead hpc | read hpc | write hpc | createWrite hpc | finish hpc | fail hpc | remove hpc | store hpc
  | markDirty hpc | addFail hpc | add hpc =>
    exact hl.quiet hpc (goto_task ..) hrest rfl (fun _ _ hq => hq) (note_loaded hpc nofun nofun) nofun
  | hit hpc | miss hpc | enter hpc =>
    exact hl.quiet hpc (enter_task ..) hrest rfl (fun _ _ hq => hq) (note_loaded hpc nofun nofun) nofun
  | panic hpc => exact hl.quiet hpc (poison_task ..) hrest rfl (fun _ _ hq => hq) (note_loaded hpc nofun nofun) nofun
  | full hpc | releaseHit hpc | releaseMiss hpc =>
    exact hl.quiet hpc (leave_task ..) hrest rfl (fun _ _ hq => hq) (note_loaded hpc nofun nofun) nofun
  | @takeFree r f rest hpc hfree =>
    refine hl.quiet hpc (goto_task ..) hrest ?_ (fun _ _ hq => hq) (note_loaded hpc nofun nofun) ?_
    · cases r <;> rfl
    · cases r <;> exact nofun
  | @pin site f hpc =>
    refine hl.quiet hpc (goto_task ..) hrest ?_ (fun _ _ hq => hq) (note_loaded hpc nofun nofun) ?_
    · split_ifs <;> rfl
    · split_ifs <;> exact nofun
  | unpin hpc | drop hpc =>
    refine hl.quiet hpc (goto_task ..) hrest ?_ (fun _ _ hq => hq) (note_loaded hpc nofun nofun) ?_
    · split_ifs <;> rfl
    · split_ifs <;> exact nofun
  | lock hpc hb =>
    obtain rfl := lockData_ret hb
    exact hl.quiet hpc (goto_task ..) hrest rfl (fun _ _ hq => hq) (note_loaded hpc nofun nofun) nofun
  | unlock hpc =>
    refine hl.quiet hpc (goto_task ..) hrest rfl (fun _ _ hq => ?_) (note_loaded hpc nofun nofun) nofun
    rw [unlockData_eq] at hq
    exact hq
  | finishFlush hpc | createFinish hpc =>
    refine hl.quiet hpc (goto_task ..) hrest rfl (fun _ _ hq => ?_) (note_loaded hpc nofun nofun) nofun
    rw [finishFlush_eq] at hq
    exact hq
  | @evict p mode f v hpc =>
    refine hl.quiet hpc (goto_task ..) hrest rfl (fun q g hq => ?_) (note_loaded hpc nofun nofun) nofun
    refine of_unmapped (v := v) ?_
    cases himg : image (w.bpm.frames f) v <;> rw [himg] at hq <;> exact hq
  | @evictCreate p f v hpc =>
    exact hl.quiet hpc (goto_task ..) hrest rfl (fun _ _ => of_unmapped) (note_loaded hpc nofun nofun) nofun
  | @register p mode f img hpc =>
    have hloaded := note_loaded (h := h) (c := .go) hpc nofun nofun
    refine hl.change hrest (fun q g hq => ?_) (fun l hu => ?_) fun _ l _ _ => congrFun hloaded l.frame
    · have hq' : Function.update w.bpm.pageTable p (some f) q = some g := hq
      by_cases hqp : q = p
      · exact .inr (.inl (by rw [goto_task, hqp]; rfl))
      · rw [Function.update_of_ne hqp] at hq'
        refine .inr (.inr ⟨hq', congrFun hloaded g, fun hloads => ?_⟩)
        rw [hpc] at hloads
        cases hloads
    · rw [goto_task] at hu
      cases hu
  | @releaseCreate p f evicted b hpc hb =>
    have hloaded : (h.note w t .go).loaded = Function.update h.loaded f (some p) := by
      unfold History.note
      rw [hpc]
    have hclaimed : ∀ q, w.bpm.pageTable q ≠ some f :=
      hw.table.claimed t f (congrArg (fun pc => pc.tableRole.claimed) hpc)
    have htable : b.pageTable = Function.update w.bpm.pageTable p (some f) := by
      obtain ⟨b₁, hb₁, rfl⟩ := registerCreated_ret hb
      rfl
    refine hl.change hrest (fun q g hq => ?_) (fun l hu => ?_) fun u l hut hu => ?_
    · have hq' : b.pageTable q = some g := hq
      rw [htable] at hq'
      by_cases hqp : q = p
      · rw [hqp, Function.update_self] at hq'
        cases hq'
        exact .inl (by rw [hloaded, Function.update_self, hqp])
      · rw [Function.update_of_ne hqp] at hq'
        have hgf : g ≠ f := by
          rintro rfl
          exact hclaimed q hq'
        refine .inr (.inr ⟨hq', by rw [hloaded, Function.update_of_ne hgf], fun hloads => ?_⟩)
        rw [hpc] at hloads
        cases hloads
    · rw [leave_task] at hu
      split at hu <;> cases hu
    · have hlf : l.frame ≠ f := fun heq =>
        hclaimed l.page (heq ▸ hw.loading_mapped (congrArg Pc.cacheRole hu))
      rw [hloaded, Function.update_of_ne hlf]
  | @copy l bytes hpc =>
    have hloaded : (h.note w t .go).loaded = Function.update h.loaded l.frame (some l.page) := by
      unfold History.note
      rw [hpc]
    have hmapped := hw.loading_mapped (congrArg Pc.cacheRole hpc)
    refine hl.change hrest (fun q g hq => ?_) (fun l' hu => ?_) fun u l' hut hu => ?_
    · have hq' : w.bpm.pageTable q = some g := hq
      by_cases hg : g = l.frame
      · subst hg
        exact .inl (by rw [hloaded, Function.update_self, hw.page_unique hq' hmapped])
      · refine .inr (.inr ⟨hq', by rw [hloaded, Function.update_of_ne hg], ?_⟩)
        rw [hpc, goto_task]
        exact id
    · rw [goto_task] at hu
      cases hu
      rw [hloaded, Function.update_self]
    · have hlf : l'.frame ≠ l.frame := by
        intro heq
        have hsame := hw.page_unique (hw.loading_mapped (congrArg Pc.cacheRole hu)) (heq ▸ hmapped)
        refine hut (hw.one_load (p := l.page) ?_ ?_)
        · rw [hu, ← hsame]
          rfl
        · rw [hpc]
          rfl
      rw [hloaded, Function.update_of_ne hlf]
  | @finishFetch l hpc =>
    have hloaded := note_loaded (h := h) (c := .go) hpc nofun nofun
    have hmapped := hw.loading_mapped (congrArg Pc.cacheRole hpc)
    refine hl.change hrest (fun q g hq => ?_) (fun l' hu => ?_) fun _ l' _ _ => congrFun hloaded l'.frame
    · rw [finishFetch_eq] at hq
      by_cases hql : q = l.page
      · -- The task has copied this page to its frame.
        subst hql
        cases hmapped.symm.trans hq
        exact .inl (by rw [hloaded, hl.copied t l hpc])
      · refine .inr (.inr ⟨hq, congrFun hloaded g, fun hloads => ?_⟩)
        rw [hpc] at hloads
        exact absurd (Option.some.inj hloads).symm hql
    · rw [goto_task] at hu
      split at hu <;> cases hu
  | closedFlush hpc hsent hclosed => exact absurd (hw.flush_open hpc hsent) hclosed
  | readFault hpc | writeFault hpc | createFault hpc =>
    have hzero := hfault rfl
    rw [hpc] at hzero
    cases hzero
  | panicLookup _ hpoison | panicEnter _ hpoison | panicWaitFetch _ hpoison | panicWaitFlush _ hpoison
  | panicFinishFetch _ hpoison | panicFinishFlush _ hpoison | panicCreateFinish _ hpoison | panicLock _ hpoison =>
    cases hrun.symm.trans hpoison

/-! ## Runs -/

omit [DecidableEq τ] in
theorem CacheInv.flushOpen (hw : CacheInv w) : FlushOpen w t := by
  intro x hx
  cases hpc : w.tasks t <;> rw [hpc] at hx <;> cases hx
  case recvFlush l sub =>
    by_cases hsent : w.bpm.sent sub = true
    · exact .inl hsent
    · exact .inr (hw.flush_open hpc (Bool.eq_false_iff.mpr hsent))

/-- What holds in the runs in which only `allocate_page` fails and every creation finds a frame. -/
structure TraceInv (w : World n τ) (h : History n) : Prop where
  cache : CacheInv w
  counts : CountInv w
  loaded : LoadedInv w h
  owned : ∀ v sub, w.bpm.flushes v = some sub → ∃ u, (w.cacheRoles u).flush = some v

theorem Move.traceInv (hm : Move w t c w') (halone : PinsAlone w t) (hfresh : Fresh w t)
    (hfault : OnlyZeroFails w t c) (hframe : ¬ w.NoFrame t) (hi : TraceInv w h) : TraceInv w' (h.note w t c) where
  cache := hm.cacheInv halone hfresh hi.cache
  counts := hm.countInv hfault hi.cache.flushOpen hframe hi.counts
  loaded := hm.loadedInv hi.cache hi.counts.running hfault hi.loaded
  owned := hm.owned hi.cache hi.counts.running hfresh hfault hi.owned

theorem traceInv_of_reached {ok : World n τ → τ → Choice → Prop} (hr : Reached d ok w h)
    (hok : ∀ w t c, ok w t c → PinsAlone w t ∧ Fresh w t ∧ OnlyZeroFails w t c ∧ ¬ w.NoFrame t) :
    TraceInv w h := by
  refine hr.inv (I := TraceInv) ?_ fun w w' h t c ht hs hi => ?_
  · exact ⟨cacheInv_init n τ d, countInv_init n τ d, ⟨nofun, nofun⟩, nofun⟩
  · obtain ⟨halone, hfresh, hfault, hframe⟩ := hok w t c ht
    exact (move_of_step hs).traceInv halone hfresh hfault hframe hi

namespace TraceInv

omit [DecidableEq τ] in
theorem fetches (hi : TraceInv w h) {p : PageId} {sub : Channel} (hp : w.bpm.fetches p = some sub) :
    ∃ t, (w.tasks t).cacheRole.load = some (p, sub) := by
  obtain ⟨f, hf, ht | hs⟩ := hi.cache.cache.fetched p sub hp
  · exact ht
  · have hlt : w.pinState.pinners f < (w.bpm.frames f).pinCount := hs
    rw [hi.counts.pinners f] at hlt
    exact absurd hlt (Nat.lt_irrefl _)

omit [DecidableEq τ] in
theorem signalled (hi : TraceInv w h) {sub : Channel} (ht : (w.tasks t).awaits = some sub) :
    w.bpm.sent sub = true ∨ (∃ p, w.bpm.fetches p = some sub) ∨ ∃ v, w.bpm.flushes v = some sub := by
  have hfits := hi.cache.cache.fits t
  rcases awaits_eq_some ht with ⟨p, mode, f, hpc⟩ | ⟨l, hpc⟩
  · have hrole : w.cacheRoles t = .subscribed p f sub := congrArg Pc.cacheRole hpc
    rw [hrole] at hfits
    rcases hfits.2 with hc | hs
    · exact .inr (.inl ⟨p, hc⟩)
    · exact .inl hs.1
  · have hrole : w.cacheRoles t = (Pc.recvFlush l sub).cacheRole := congrArg Pc.cacheRole hpc
    rw [hrole] at hfits
    rcases hfits.2.2.2 with hc | hs
    · exact .inr (.inr ⟨l.page, hc⟩)
    · exact .inl hs.1

end TraceInv

/-- **Nothing is left behind** in any state, if only `allocate_page` fails and every creation finds a frame. -/
theorem noTrace_of_reached
    (hr : Reached d (fun w t c => PinsAlone w t ∧ Fresh w t ∧ OnlyZeroFails w t c ∧ ¬ w.NoFrame t) w h) :
    NoTrace w h := by
  have hi := traceInv_of_reached hr fun _ _ _ => id
  constructor
  case pins => exact .of_pinners hi.counts.running hi.counts.pinners
  case loaded => exact hi.loaded.mapped
  case fetches => exact fun p sub => hi.fetches
  case flushes => exact hi.owned
  case signalled => exact fun t sub => hi.signalled

/-- A call of `allocate_page` that fails, and a fetch that evicts a dirty page, while a second fetch finds
the page that it loads. -/
def fullSteps : List (Fin 2 × Choice) :=
  [(0, .createPage 1), (0, .go), (0, .fault "write"), (0, .fetchPage ⟨1, 0⟩ .write), (0, .go), (0, .go),
    (0, .go), (0, .go), (0, .go), (0, .go), (0, .go), (0, .go), (0, .go), (0, .go), (0, .go), (0, .go),
    (0, .go), (0, .markDirty), (0, .drop), (0, .go), (0, .go), (0, .fetchPage ⟨1, 1⟩ .read), (0, .go),
    (0, .go), (0, .go), (0, .go), (0, .go), (0, .go), (0, .go), (1, .fetchPage ⟨1, 1⟩ .read), (1, .go),
    (1, .go), (1, .go), (1, .go)]

theorem noTrace_of_full : ∃ (w : World 1 (Fin 2)) (h : History 1),
    Reached twoPages (fun w t c => PinsAlone w t ∧ Fresh w t ∧ OnlyZeroFails w t c ∧ ¬ w.NoFrame t) w h ∧
      (w.tasks 1).awaits ≠ none ∧ NoTrace w h := by
  have hrun := reached_get
    (by decide +kernel : (runSteps (fun w t c => PinsAlone w t ∧ Fresh w t ∧ OnlyZeroFails w t c ∧ ¬ w.NoFrame t)
      (World.init 1 (Fin 2) twoPages, History.init 1) fullSteps).isSome = true)
  exact ⟨_, _, hrun, by decide +kernel, noTrace_of_reached hrun⟩

/-! ## A fetch that fails -/

omit [DecidableEq τ] in
theorem not_exact_of_slack {f : Fin n} (hslack : PinProtocol.Slack w.pinState f) : ¬ PinsExact w := by
  intro hexact
  have hlt : w.pinState.pinners f < (w.bpm.frames f).pinCount := hslack
  rw [hexact.count f, pinners_eq] at hlt
  exact Nat.lt_irrefl _ hlt

/-- **A fetch whose read or write failed returns with its frame pinned:** the counts are not exact any
more. -/
theorem failed_fetch_leaves_pin (hw : CountInv w) {l : Load n} {e : BufferPoolError}
    (ht : w.tasks t = .reading l ∨ w.tasks t = .finish l (some e)) (hs : w.step t c = some w')
    (hidle : w'.tasks t = .idle (some .bufferFull)) : ¬ PinsExact w' := by
  have hpos : w.pinState.pinners l.frame ≤ w.pinState.count l.frame := (hw.pinners l.frame).ge
  rw [step_eq_act (not_panics hw.running t)] at hs
  unfold act at hs
  rcases ht with ht | ht
  · have hrole : w.pinState.role t = .pinned l.frame false := congrArg Pc.pinRole ht
    rw [ht] at hs
    rcases onDisk_eq_some.mp hs with ⟨rfl, rfl⟩ | ⟨e, rfl, rfl⟩
    · rw [goto_task] at hidle
      cases hidle
    · refine not_exact_of_slack (f := l.frame) ?_
      rw [pinState_become .rfl]
      exact PinProtocol.slack_leak hpos hrole
  · have hrole : w.pinState.role t = .pinned l.frame false := congrArg Pc.pinRole ht
    rw [ht] at hs
    obtain ⟨rfl, hs⟩ := onGo_eq_some.mp hs
    cases hs
    have hsame : SamePins w.bpm (w.bpm.releaseWrite l.frame) := .modifyFrame fun _ => rfl
    refine not_exact_of_slack (f := l.frame) ?_
    rw [pinState_become hsame]
    exact PinProtocol.slack_leak hpos hrole

/-- One task fetches a page. The read fails. -/
def failedReadSteps : List (Fin 1 × Choice) :=
  [(0, .fetchPage ⟨1, 0⟩ .read), (0, .go), (0, .go), (0, .go), (0, .go), (0, .go), (0, .go), (0, .go), (0, .go),
    (0, .fault "read")]

/-- The frame of the fetch is pinned and in the page table, but it was never loaded, and there is a channel that
nobody is going to signal. -/
theorem failed_read_leaves_trace : ∃ (w : World 1 (Fin 1)) (h : History 1),
    Reached twoPages (fun _ _ _ => True) w h ∧ (∀ t, w.tasks t = .idle (some .bufferFull)) ∧
      (w.bpm.frames 0).pinCount = 1 ∧ w.bpm.pageTable ⟨1, 0⟩ = some 0 ∧ h.loaded 0 = none ∧
        w.bpm.fetches ⟨1, 0⟩ = some 0 ∧ ¬ NoTrace w h := by
  have hrun := reached_runSteps .init
    (rfl : runSteps (fun _ _ _ => True) (World.init 1 (Fin 1) twoPages, History.init 1) failedReadSteps = some _)
  refine ⟨_, _, hrun, fun t => ?_, rfl, rfl, rfl, rfl, fun htrace => ?_⟩
  · obtain rfl : t = 0 := Subsingleton.elim ..
    rfl
  · obtain ⟨t, ht⟩ := htrace.fetches ⟨1, 0⟩ 0 rfl
    obtain rfl : t = 0 := Subsingleton.elim ..
    cases ht

end World

end RarmDb
