import RarmDb.Lib.CacheWaits
import RarmDb.Tasks.Images

/-!
# Loads of the tasks

* `loads`: the page that a task is loading;
* `SafeIo`: one load of a page at a time, no read of a page with an image that is not written, and frames
  that are loaded when they are returned;
* **`safeIo_of_reached`**: every state is safe, if a new page is fresh;
* `early_fetch_reads_stale`: otherwise a fetch can read a page whose last bytes are not on disk.
-/

namespace RarmDb

open BufferPoolManager

variable {n : ℕ} {τ : Type}

/-! ## Loads -/

/-- The page of a section that loads it. -/
def PinSite.loads : PinSite → Option PageId
  | .miss p .. => some p
  | _ => none

/-- The page that the task is loading, from its entry in the page table to `fetches.remove`. -/
def Pc.loads : Pc n → Option PageId
  | .pin site _ | .remove site _ | .release site _ => site.loads
  | .waitFlush l | .recvFlush l _ | .issueRead l | .reading l | .copy l _ | .finishFetch l => some l.page
  | _ => none

/-- The page that is about to be fetched. -/
def Choice.fetches : Choice → Option PageId
  | .fetchPage p _ => some p
  | _ => none

theorem loads_eq (pc : Pc n) : pc.loads = pc.cacheRole.loads := by
  cases pc with
  | pin site f | remove site f | release site f => cases site <;> rfl
  | _ => rfl

theorem role_of_loads {pc : Pc n} {p : PageId} (h : pc.loads = some p) :
    pc.cacheRole.registers = some p ∨ ∃ c, pc.cacheRole.load = some (p, c) :=
  CacheProtocol.registers_or_load (loads_eq pc ▸ h)

namespace World

/-- A guard drop is one step: nobody goes on between its `fetch_sub` and `evictor.add`. -/
def DropsAtomic (w : World n τ) (t : τ) : Prop := ∀ u, (w.tasks u).adding.isSome = true → u = t

/-- Pages are fetched when they are allocated. -/
def FetchesStored (w : World n τ) (c : Choice) : Prop :=
  ∀ p ∈ c.fetches, w.bpm.diskManager.stored p = true

instance [DecidableEq τ] [Fintype τ] (w : World n τ) (t : τ) : Decidable (DropsAtomic w t) :=
  inferInstanceAs (Decidable (∀ _, _ → _))

instance (w : World n τ) (c : Choice) : Decidable (FetchesStored w c) :=
  inferInstanceAs (Decidable (∀ p ∈ c.fetches, _ = true))

variable {w : World n τ} {h : History n} {t u : τ} {c : Choice} {p : PageId} {f : Fin n}

theorem DropsAtomic.pinsAlone (hdrops : DropsAtomic w t) : PinsAlone w t := by
  intro f hf u hu
  obtain rfl := hdrops u (by rw [hu]; rfl)
  cases hpc : w.tasks u <;> rw [hpc] at hf hu <;> cases hf
  cases hu

/-- Loads and flushes do not disturb each other. -/
structure SafeIo (w : World n τ) (h : History n) : Prop where
  oneLoad : ∀ t u p, (w.tasks t).loads = some p → (w.tasks u).loads = some p → t = u
  noImage : ∀ t l, w.tasks t = .issueRead l ∨ w.tasks t = .reading l →
    ∀ u bytes, (w.tasks u).unwritten ≠ some (l.page, bytes)
  readsLast : ∀ t l, w.tasks t = .issueRead l ∨ w.tasks t = .reading l →
    ∀ bytes, h.evicted l.page = some bytes → w.bpm.diskManager.Holds l.page bytes
  loaded : ∀ t p mode f, w.tasks t = .lock p mode f →
    (w.bpm.frames f).pageId = some p ∧ ∀ u, (w.tasks u).loads ≠ some p

variable [DecidableEq τ] [Fintype τ] {d : Disk}

namespace CacheInv

omit [DecidableEq τ] in
theorem registers_alone (hw : CacheInv w) (ht : (w.tasks t).cacheRole.registers = some p)
    (hu : (w.tasks u).cacheRole.user = some (p, f)) : u = t := by
  by_contra hne
  exact (hw.cache.apart t u (Ne.symm hne)).registers p f ht hu

omit [DecidableEq τ] in
/-- **One task at a time** loads a page. -/
theorem one_load (hw : CacheInv w) (ht : (w.tasks t).loads = some p) (hu : (w.tasks u).loads = some p) :
    t = u := by
  rcases role_of_loads ht with ht | ⟨c, ht⟩
  · obtain ⟨f, huser⟩ : ∃ f, (w.tasks u).cacheRole.user = some (p, f) := by
      rcases role_of_loads hu with hu | ⟨c, hu⟩
      · exact CacheProtocol.user_of_registers hu
      · exact CacheProtocol.user_of_load hu
    exact (hw.registers_alone ht huser).symm
  · obtain ⟨f, huser⟩ := CacheProtocol.user_of_load ht
    rcases role_of_loads hu with hu | ⟨c, hu⟩
    · exact hw.registers_alone hu huser
    · exact hw.cache.sole_loader ht hu

omit [DecidableEq τ] in
/-- **A frame that is returned** has its page, and nobody loads the page. -/
theorem returned (hw : CacheInv w) {mode : Mode} (ht : w.tasks t = .lock p mode f) :
    (w.bpm.frames f).pageId = some p ∧ ∀ u, (w.tasks u).loads ≠ some p := by
  have hrole : w.cacheRoles t = .ready p f none := congrArg Pc.cacheRole ht
  obtain ⟨hmapped, hnoload⟩ := hw.cache.loaded hrole
  refine ⟨hw.table.table p f hmapped, fun u hu => ?_⟩
  rcases role_of_loads hu with hu | ⟨c, hu⟩
  · have huser : (w.tasks t).cacheRole.user = some (p, f) := by
      rw [ht]
      rfl
    rw [← hw.registers_alone hu huser, ht] at hu
    cases hu
  · exact hnoload u c hu

omit [DecidableEq τ] [Fintype τ] in
theorem cacheRole_of_read {l : Load n} (ht : w.tasks t = .issueRead l ∨ w.tasks t = .reading l) :
    (w.tasks t).cacheRole = .loading l.page l.frame l.tx (l.pageDataToFlush.map Prod.fst) := by
  rcases ht with ht | ht
  · exact congrArg Pc.cacheRole ht
  · exact congrArg Pc.cacheRole ht

omit [DecidableEq τ] in
/-- **A read of a page** begins when it has no image. -/
theorem read_no_image (hw : CacheInv w) {l : Load n} (ht : w.tasks t = .issueRead l ∨ w.tasks t = .reading l)
    (u : τ) (bytes : Page) : (w.tasks u).unwritten ≠ some (l.page, bytes) :=
  hw.reading_no_image (cacheRole_of_read ht) u bytes

end CacheInv

/-! ## Flushes that no task finishes -/

/-- The flush of the page is announced, and nobody can finish it: the mutexes are poisoned. -/
def Forsaken (w : World n τ) (v : PageId) : Prop := w.poisoned = true ∧ w.bpm.flushes v ≠ none

omit [DecidableEq τ] [Fintype τ] in
theorem flushes_insertFlush {b : BufferPoolManager n} {v : PageId} (hp : b.flushes p ≠ none) :
    (b.insertFlush v).flushes p ≠ none := by
  change Function.update b.flushes v (some b.nextChannel) p ≠ none
  by_cases hv : p = v
  · rw [hv, Function.update_self]
    exact Option.some_ne_none _
  · rwa [Function.update_of_ne hv]

omit [Fintype τ] in
theorem Move.forsaken {w' : World n τ} {v : PageId} (hm : Move w t c w') (hv : Forsaken w v) : Forsaken w' v := by
  refine ⟨hm.keeps_poison hv.1, ?_⟩
  cases hm with
  | @evict p mode f q hpc =>
    change ((_ : BufferPoolManager n).announced (image (w.bpm.frames f) q)).flushes v ≠ none
    cases image (w.bpm.frames f) q with
    | none => exact hv.2
    | some x => exact flushes_insertFlush hv.2
  | @releaseCreate p f evicted b hpc hb =>
    obtain ⟨b₁, hb₁, rfl⟩ := registerCreated_ret hb
    rcases hb₁ with rfl | ⟨q, bytes, -, rfl⟩
    · exact hv.2
    · exact flushes_insertFlush hv.2
  | unlock =>
    rw [goto, unlockData_eq]
    exact hv.2
  | lock hpc hb =>
    rw [lockData_ret hb]
    exact hv.2
  | finishFetch _ hrun | finishFlush _ hrun | createFinish _ hrun => cases hrun.symm.trans hv.1
  | _ => exact hv.2

omit [DecidableEq τ] in
/-- A fetch that panics leaves the flush of the page that it has evicted announced. -/
theorem CacheInv.forsaken_of_panics (hw : CacheInv w) (hp : w.Panics t) {x : PageId × Page}
    (hx : (w.tasks t).atRisk = some x) : Forsaken w x.1 := by
  refine ⟨hp.1, (hw.cache.fits t).flush ?_⟩
  have hlocks := hp.2
  change (w.tasks t).cacheRole.flush = some x.1
  cases hpc : w.tasks t <;> rw [hpc] at hx hlocks
  case waitFlush l | finishFetch l =>
    change l.pageDataToFlush = some x at hx
    change l.pageDataToFlush.map Prod.fst = some x.1
    rw [hx]
    rfl
  case reading | writing => cases hlocks
  all_goals cases hx

/-! ## Runs -/

/-- **Loads and flushes do not disturb each other** in any state, if a new page is fresh. -/
theorem safeIo_of_reached (hr : Reached d (fun w t c => DropsAtomic w t ∧ c.isFault = false ∧
    Unstored w t ∧ Fresh w t) w h) : SafeIo w h := by
  obtain ⟨hw, hi⟩ := imageInv_of_reached Forsaken hr
    (fun w t c ⟨hdrops, _, hunstored, hfresh⟩ => ⟨hdrops.pinsAlone, hfresh, hunstored⟩) (fun _ _ hv => hv.2)
    (fun _ _ _ _ _ hm => hm.forsaken) fun w w' t c ⟨_, hfault, _⟩ hw hm hc x hx =>
      .inr (hm.forsaken (hw.forsaken_of_panics (hc.resolve_left (by rw [hfault]; exact Bool.false_ne_true)) hx))
  constructor
  case oneLoad => exact fun t u p => hw.one_load
  case noImage => exact fun t l => hw.read_no_image
  case readsLast =>
    intro t l ht bytes hb
    rcases hi.kept l.page bytes hb with ⟨u, hu⟩ | hdisk | hlost
    · exact absurd hu (hw.read_no_image ht u bytes)
    · exact hdisk
    · exact absurd (hw.loading_fits (CacheInv.cacheRole_of_read ht)).2 hlost.2
  case loaded => exact fun t p mode f => hw.returned

/-- Two tasks share two frames. The first creates two pages, the second of them dirty, and a third one. The
second task fetches the second page while it is flushed. -/
def refetchDirtySteps : List (Fin 2 × Choice) :=
  [(0, .createPage 1), (0, .go), (0, .go), (0, .go), (0, .go), (0, .go), (0, .go), (0, .go), (0, .go), (0, .drop),
    (0, .go), (0, .go), (0, .createPage 1), (0, .go), (0, .go), (0, .go), (0, .go), (0, .go), (0, .go), (0, .go),
    (0, .go), (0, .markDirty), (0, .drop), (0, .go), (0, .go), (0, .createPage 1), (0, .go), (0, .go), (0, .go),
    (0, .go), (0, .go), (0, .go), (0, .go), (0, .go), (1, .fetchPage ⟨1, 1⟩ .read), (1, .go), (1, .go), (1, .go),
    (1, .go), (1, .go), (1, .go), (1, .go), (1, .go), (0, .go), (0, .go), (1, .go)]

theorem safeIo_of_refetch : ∃ (w : World 2 (Fin 2)) (h : History 2) (l : Load 2),
    Reached emptyTable (fun w t c => DropsAtomic w t ∧ c.isFault = false ∧ Unstored w t ∧ Fresh w t) w h ∧
      w.tasks 1 = .issueRead l ∧ l.page = ⟨1, 1⟩ ∧ h.evicted ⟨1, 1⟩ ≠ none ∧ SafeIo w h := by
  have hrun := reached_runSteps .init
    (rfl : runSteps (fun w t c => DropsAtomic w t ∧ c.isFault = false ∧ Unstored w t ∧ Fresh w t)
      (World.init 2 (Fin 2) emptyTable, History.init 2) refetchDirtySteps = some _)
  exact ⟨_, _, _, hrun, rfl, rfl, Option.some_ne_none _, safeIo_of_reached hrun⟩

/-! ## A fetch before the section of a creation -/

/-- The second task fetches the page that the first has allocated, up to its read. The first registers the
page, modifies it and drops its guard. The third evicts it. -/
def staleReadSteps : List (Fin 3 × Choice) :=
  [(0, .createPage 1), (0, .go), (0, .go), (1, .fetchPage ⟨1, 0⟩ .read), (1, .go), (1, .go), (1, .go), (1, .go),
    (1, .go), (1, .go), (1, .go), (0, .go), (0, .go), (0, .go), (0, .go), (0, .go), (0, .go), (0, .markDirty),
    (0, .drop), (0, .go), (0, .go), (2, .createPage 1), (2, .go), (2, .go), (2, .go), (2, .go), (2, .go), (2, .go),
    (2, .go), (2, .go)]

/-- The second task is about to read a page whose image the third has not written. -/
theorem early_fetch_reads_stale : ∃ (w : World 2 (Fin 3)) (h : History 2) (l : Load 2) (bytes : Page),
    Reached emptyTable (fun w t c => DropsAtomic w t ∧ c.isFault = false ∧ FetchesStored w c) w h ∧
      w.tasks 1 = .issueRead l ∧ (w.tasks 2).unwritten = some (l.page, bytes) ∧ ¬ SafeIo w h := by
  have hrun := reached_runSteps .init
    (rfl : runSteps (fun w t c => DropsAtomic w t ∧ c.isFault = false ∧ FetchesStored w c)
      (World.init 2 (Fin 3) emptyTable, History.init 2) staleReadSteps = some _)
  exact ⟨_, _, _, _, hrun, rfl, rfl, fun hsafe => hsafe.noImage 1 _ (.inl rfl) 2 _ rfl⟩

end World

end RarmDb
