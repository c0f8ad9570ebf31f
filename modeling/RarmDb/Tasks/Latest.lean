import RarmDb.Lib.Ghost
import RarmDb.Tasks.Stored

/-!
# The bytes that guards see

The pool stands for a memory of pages that changes at once: a page gets a new version when it is filled with
zeros, when `create_page` gives it a frame, and when a write guard stores bytes.

* `Memory`, `Memory.note`: the versions of the pages, which of them was last written to disk, and which tasks
  have changes that are not marked dirty;
* `Orderly`: what the tasks and the disk have to do;
* `LatestInv`, **`Move.latestInv`**: frames, copies, images and the disk hold the latest versions;
* **`shows_latest`**: in every run every guard sees the latest version of its page;
* **`crash_consistent`**: in every run every page on disk is one of its versions, and never an older one again.
-/

namespace RarmDb

open BufferPoolManager

variable {n : ℕ} {τ : Type}

/-! ## The memory -/

/-- The versions of the pages, the older ones with the newest first; the number of the version that was last
written to disk; the page that a task has changed and not given back. -/
structure Memory (τ : Type) where
  latest : PageId → Page
  older : PageId → List Page
  durable : PageId → ℕ
  unsaved : τ → Option PageId

namespace Memory

/-- What is on disk. -/
def init (τ : Type) (d : Disk) : Memory τ := ⟨d.pages, fun _ => [], fun _ => 0, fun _ => none⟩

/-- The versions of a page are numbered from the first one. -/
def version (m : Memory τ) (p : PageId) (k : ℕ) : Option Page := (m.latest p :: m.older p).reverse[k]?

/-- A new version of a page. -/
def write (m : Memory τ) (p : PageId) (bytes : Page) : Memory τ :=
  { m with latest := Function.update m.latest p bytes, older := Function.update m.older p (m.latest p :: m.older p) }

/-- The latest version of a page goes to disk. -/
def flush (m : Memory τ) (p : PageId) : Memory τ :=
  { m with durable := Function.update m.durable p (m.older p).length }

theorem version_latest (m : Memory τ) (p : PageId) : m.version p (m.older p).length = some (m.latest p) := by
  unfold version
  rw [List.reverse_cons, ← List.length_reverse, List.getElem?_concat_length]

theorem version_write (m : Memory τ) (p q : PageId) (bytes : Page) {k : ℕ} (hk : k ≤ (m.older q).length) :
    (m.write p bytes).version q k = m.version q k := by
  unfold write version
  dsimp only
  by_cases hq : q = p
  · subst hq
    rw [Function.update_self, Function.update_self, List.reverse_cons, List.getElem?_append_left]
    rw [List.length_reverse, List.length_cons]
    exact Nat.lt_succ_of_le hk
  · rw [Function.update_of_ne hq, Function.update_of_ne hq]

variable [DecidableEq τ]

/-- The memory after a step. -/
def note (m : Memory τ) (w : World n τ) (t : τ) (c : Choice) : Memory τ :=
  match w.tasks t, c with
  | .zero p, .go => (m.write p (Buffer.const 8192 0)).flush p
  | .release (.create p _) f, .go =>
    { m.write p (w.bpm.frames f).data with unsaved := Function.update m.unsaved t (some p) }
  | .guard p .write _, .store bytes =>
    { m.write p bytes with unsaved := Function.update m.unsaved t (some p) }
  | .guard .., .drop => { m with unsaved := Function.update m.unsaved t none }
  | .writing _ v _, .go | .createFlush _ _ v _, .go => m.flush v
  | _, _ => m

end Memory

/-- The tasks and the pool, with the memory that the pool stands for. -/
def memorySystem (n : ℕ) (τ : Type) [DecidableEq τ] [Fintype τ] :
    Ghost.System (World n τ) (Memory τ) (τ × Choice) where
  step w a := w.step a.1 a.2
  note m w a := m.note w a.1 a.2

/-- The page that the task was given, and may change. -/
def Pc.given : Pc n → Option PageId
  | .createFlush p .. | .createFinish p .. | .lock p .. | .guard p .. => some p
  | _ => none

/-- The task is to change the bytes or the dirty flag of a frame, or its guard may do so. -/
def Pc.alters : Pc n → Bool
  | .register .. | .copy .. | .guard .. => true
  | _ => false

/-- The guard is dropped. -/
def Choice.isDrop : Choice → Bool
  | drop => true
  | _ => false

/-- Bytes are stored. -/
def Choice.stores : Choice → Bool
  | store _ => true
  | _ => false

theorem role_of_given {pc : Pc n} {p : PageId} (h : pc.given = some p) :
    ∃ f img, pc.cacheRole = .ready p f img := by
  cases pc <;> cases h <;> exact ⟨_, _, rfl⟩

namespace World

/-- A guard whose page was changed is dropped with its frame marked dirty. -/
def Saved (w : World n τ) (m : Memory τ) (t : τ) (c : Choice) : Prop :=
  c.isDrop = true → (m.unsaved t).isSome = true → ∀ f ∈ (w.tasks t).guardOn, (w.bpm.frames f).isDirty = true

instance (w : World n τ) (m : Memory τ) (t : τ) (c : Choice) : Decidable (Saved w m t c) :=
  inferInstanceAs (Decidable (_ → _ → ∀ f ∈ (w.tasks t).guardOn, _ = true))

/-- No frame is pinned between its last `fetch_sub` and `evictor.add`; new pages are fresh, pages are fetched
when they are allocated, changed pages are marked dirty, only `allocate_page` fails, and no task panics at a
poisoned lock. -/
def Orderly (w : World n τ) (m : Memory τ) (a : τ × Choice) : Prop :=
  PinsAlone w a.1 ∧ Fresh w a.1 ∧ Unstored w a.1 ∧ FetchesStored w a.2 ∧ OnlyZeroFails w a.1 a.2 ∧
    Saved w m a.1 a.2 ∧ ¬ w.Panics a.1

instance [Fintype τ] (w : World n τ) (m : Memory τ) (a : τ × Choice) : Decidable (Orderly w m a) :=
  inferInstanceAs (Decidable (_ ∧ _ ∧ _ ∧ _ ∧ _ ∧ _ ∧ ¬ _))

/-! ## The invariant -/

/-- The bytes of the page on disk are to be the latest: it has no frame, or its frame is not loaded yet, or
nobody has changed it since. -/
def AtRest (w : World n τ) (m : Memory τ) (p : PageId) : Prop :=
  w.bpm.pageTable p = none ∨ (∃ t, (w.tasks t).loads = some p) ∨
    ∃ f, w.bpm.pageTable p = some f ∧ (w.bpm.frames f).isDirty = false ∧ ∀ t, m.unsaved t ≠ some p

/-- Nobody has the bytes of the page to write to disk. -/
def NoImage (w : World n τ) (p : PageId) : Prop := ∀ t bytes, (w.tasks t).unwritten ≠ some (p, bytes)

/-- Frames, copies, images and the disk hold the latest versions of their pages. -/
structure LatestInv (w : World n τ) (m : Memory τ) : Prop where
  shown : ∀ p f, w.bpm.pageTable p = some f → (∀ t, (w.tasks t).loads ≠ some p) →
    (w.bpm.frames f).data = m.latest p
  copied : ∀ t l, w.tasks t = .finishFetch l → (w.bpm.frames l.frame).data = m.latest l.page
  read : ∀ t l readBuffer, w.tasks t = .copy l readBuffer → readBuffer = m.latest l.page
  images : ∀ t v bytes, (w.tasks t).unwritten = some (v, bytes) → bytes = m.latest v
  disk : ∀ p, NoImage w p → AtRest w m p → w.bpm.diskManager.pages p = m.latest p
  holder : ∀ t p, m.unsaved t = some p → (w.tasks t).given = some p

theorem latestInv_init (n : ℕ) (τ : Type) (d : Disk) : LatestInv (World.init n τ d) (Memory.init τ d) :=
  ⟨nofun, nofun, nofun, nofun, fun _ _ _ => rfl, nofun⟩

section Changes

variable [DecidableEq τ] {w w' : World n τ} {m m' : Memory τ} {t u : τ} {c : Choice} {p v : PageId} {f : Fin n}
  {bytes : Page} {pc pc' : Pc n}

/-- A page keeps its bytes and its version. -/
structure KeepsFrame (w : World n τ) (m : Memory τ) (w' : World n τ) (m' : Memory τ) (q : PageId) (g : Fin n) :
    Prop where
  table : w.bpm.pageTable q = some g
  data : (w'.bpm.frames g).data = (w.bpm.frames g).data
  latest : m'.latest q = m.latest q

/-- A page keeps its bytes on disk and its version. -/
structure KeepsDisk (w : World n τ) (m : Memory τ) (w' : World n τ) (m' : Memory τ) (q : PageId) : Prop where
  rest : AtRest w m q
  pages : w'.bpm.diskManager.pages q = w.bpm.diskManager.pages q
  latest : m'.latest q = m.latest q

omit [DecidableEq τ] in
/-- The page was to be on disk before the step, if its frame is the same. -/
theorem AtRest.back {q : PageId} (hq : AtRest w' m' q) (hrest : ∀ u, u ≠ t → w'.tasks u = w.tasks u)
    (hloads : (w'.tasks t).loads = some q → (w.tasks t).loads = some q)
    (htable : w'.bpm.pageTable q = w.bpm.pageTable q)
    (hclean : ∀ g, w.bpm.pageTable q = some g → (w'.bpm.frames g).isDirty = false →
      (∀ u, m'.unsaved u ≠ some q) → (w.bpm.frames g).isDirty = false ∧ ∀ u, m.unsaved u ≠ some q) :
    AtRest w m q := by
  rcases hq with hq | ⟨u, hu⟩ | ⟨g, hg, hdirty, hsaved⟩
  · exact .inl (htable.symm.trans hq)
  · refine .inr (.inl ⟨u, ?_⟩)
    by_cases hut : u = t
    · subst hut
      exact hloads hu
    · rwa [hrest u hut] at hu
  · have hmapped : w.bpm.pageTable q = some g := htable.symm.trans hg
    exact .inr (.inr ⟨g, hmapped, hclean g hmapped hdirty hsaved⟩)

namespace LatestInv

omit [DecidableEq τ] in
/-- What one task has to show. The other tasks keep the versions that they load or write, and the frames that
they have loaded. -/
theorem change (hi : LatestInv w m) (hrest : ∀ u, u ≠ t → w'.tasks u = w.tasks u)
    (hshown : ∀ q g, w'.bpm.pageTable q = some g → (w'.tasks t).loads ≠ some q →
      (w'.bpm.frames g).data = m'.latest q ∨ (w.tasks t).loads ≠ some q ∧ KeepsFrame w m w' m' q g)
    (hcopied : ∀ l, w'.tasks t = .finishFetch l → (w'.bpm.frames l.frame).data = m'.latest l.page)
    (hread : ∀ l readBuffer, w'.tasks t = .copy l readBuffer → readBuffer = m'.latest l.page)
    (himages : ∀ v bytes, (w'.tasks t).unwritten = some (v, bytes) → bytes = m'.latest v)
    (hloads : ∀ u q, u ≠ t → (w.tasks u).loads = some q → m'.latest q = m.latest q)
    (hwrites : ∀ u q bytes, u ≠ t → (w.tasks u).unwritten = some (q, bytes) → m'.latest q = m.latest q)
    (hframes : ∀ u l, u ≠ t → w.tasks u = .finishFetch l →
      (w'.bpm.frames l.frame).data = (w.bpm.frames l.frame).data)
    (hdisk : ∀ q, NoImage w' q → AtRest w' m' q → w'.bpm.diskManager.pages q = m'.latest q ∨
      (∀ bytes, (w.tasks t).unwritten ≠ some (q, bytes)) ∧ KeepsDisk w m w' m' q)
    (hholder : ∀ p, m'.unsaved t = some p → (w'.tasks t).given = some p)
    (hunsaved : ∀ u, u ≠ t → m'.unsaved u = m.unsaved u) : LatestInv w' m' := by
  constructor
  case shown =>
    intro q g hq hnone
    rcases hshown q g hq (hnone t) with hnew | ⟨hloads, hkeep⟩
    · exact hnew
    · rw [hkeep.data, hkeep.latest]
      refine hi.shown q g hkeep.table fun u => ?_
      by_cases hut : u = t
      · rw [hut]
        exact hloads
      · rw [← hrest u hut]
        exact hnone u
  case copied =>
    intro u l hu
    by_cases hut : u = t
    · subst hut
      exact hcopied l hu
    · rw [hrest u hut] at hu
      rw [hframes u l hut hu, hloads u l.page hut (by rw [hu]; rfl)]
      exact hi.copied u l hu
  case read =>
    intro u l readBuffer hu
    by_cases hut : u = t
    · subst hut
      exact hread l readBuffer hu
    · rw [hrest u hut] at hu
      rw [hloads u l.page hut (by rw [hu]; rfl)]
      exact hi.read u l readBuffer hu
  case images =>
    intro u v bytes hu
    by_cases hut : u = t
    · subst hut
      exact himages v bytes hu
    · rw [hrest u hut] at hu
      rw [hwrites u v bytes hut hu]
      exact hi.images u v bytes hu
  case disk =>
    intro q hnone hq
    rcases hdisk q hnone hq with hnew | ⟨himage, hkeep⟩
    · exact hnew
    · rw [hkeep.pages, hkeep.latest]
      refine hi.disk q (fun u bytes => ?_) hkeep.rest
      by_cases hut : u = t
      · rw [hut]
        exact himage bytes
      · rw [← hrest u hut]
        exact hnone u bytes
  case holder =>
    intro u p hu
    by_cases hut : u = t
    · subst hut
      exact hholder p hu
    · rw [hrest u hut]
      exact hi.holder u p (by rw [← hunsaved u hut]; exact hu)

omit [DecidableEq τ] in
/-- The page table, the frames and the disk are the same, and the task loads and writes the same pages. -/
theorem quiet (hi : LatestInv w m) (hpc : w.tasks t = pc) (hpc' : w'.tasks t = pc')
    (hrest : ∀ u, u ≠ t → w'.tasks u = w.tasks u) (hloads : pc'.loads = pc.loads)
    (hunwritten : pc'.unwritten = pc.unwritten) (hgiven : ∀ p, pc.given = some p → pc'.given = some p)
    (htable : w'.bpm.pageTable = w.bpm.pageTable)
    (hdata : ∀ f, (w'.bpm.frames f).data = (w.bpm.frames f).data)
    (hdirty : ∀ f, (w'.bpm.frames f).isDirty = false → (w.bpm.frames f).isDirty = false)
    (hdisk : w'.bpm.diskManager.pages = w.bpm.diskManager.pages) (hm : m' = m)
    (hcopied : ∀ l, pc' ≠ .finishFetch l)
    (hread : ∀ l readBuffer, pc' = .copy l readBuffer → readBuffer = m.latest l.page) : LatestInv w' m' := by
  subst hpc hpc' hm
  refine hi.change hrest (fun q g hq hq' => .inr ⟨hloads ▸ hq', htable ▸ hq, hdata g, rfl⟩)
    (fun l hl => absurd hl (hcopied l)) hread
    (fun v bytes hv => hi.images t v bytes (hunwritten ▸ hv)) (fun _ _ _ _ => rfl) (fun _ _ _ _ _ => rfl)
    (fun u l _ _ => hdata l.frame) (fun q hq hrest' => .inr ⟨fun bytes => hunwritten ▸ hq t bytes, ?_, ?_, rfl⟩)
    (fun p hp => hgiven p (hi.holder t p hp)) fun _ _ => rfl
  · exact hrest'.back hrest (fun hq' => hloads ▸ hq') (congrFun htable q) fun g _ hclean hsaved =>
      ⟨hdirty g hclean, hsaved⟩
  · exact congrFun hdisk q

omit [DecidableEq τ] in
theorem unsaved_none (hi : LatestInv w m) (ht : (w.tasks t).given = none) : m.unsaved t = none := by
  cases hu : m.unsaved t with
  | none => rfl
  | some p => cases ht.symm.trans (hi.holder t p hu)

end LatestInv

/-! ## What a move changes -/

theorem Move.data_eq (hm : Move w t c w') (hcopy : ∀ l readBuffer, w.tasks t = .copy l readBuffer → l.frame ≠ f)
    (hstore : c.stores = true → ∀ p, w.tasks t ≠ .guard p .write f) :
    (w'.bpm.frames f).data = (w.bpm.frames f).data := by
  have hmodify : ∀ {b : BufferPoolManager n} {g : Fin n} {change : Frame → Frame},
      b.frames = (w.bpm.modifyFrame g change).frames →
      (f = g → (change (w.bpm.frames g)).data = (w.bpm.frames g).data) →
      (b.frames f).data = (w.bpm.frames f).data := by
    intro b g change hb hchange
    rw [hb]
    by_cases hg : f = g
    · rw [hg, modifyFrame_self]
      exact hchange hg
    · rw [modifyFrame_of_ne hg]
  cases hm with
  | copy hpc => exact hmodify rfl fun hf => absurd hf.symm (hcopy _ _ hpc)
  | @store p g bytes hpc =>
    refine hmodify rfl fun hf => ?_
    subst hf
    exact absurd hpc (hstore rfl p)
  | @evict p mode g v hpc =>
    cases himg : image (w.bpm.frames g) v <;> rfl
  | @releaseCreate p g evicted b hpc hb =>
    obtain ⟨b₁, hb₁, rfl⟩ := registerCreated_ret hb
    have hframes : (b₁.modifyFrame g fun fr => { fr with pageId := some p }).frames =
        (w.bpm.modifyFrame g fun fr => { fr with pageId := some p }).frames := by
      rcases hb₁ with rfl | ⟨v, bytes, -, rfl⟩ <;> rfl
    exact hmodify hframes fun _ => rfl
  | lock hpc hb =>
    rw [lockData_ret hb]
    refine hmodify rfl fun _ => ?_
    cases ‹Mode› <;> rfl
  | unlock hpc =>
    rw [unlockData_eq]
    refine hmodify rfl fun _ => ?_
    cases ‹Mode› <;> rfl
  | finishFetch hpc => rw [finishFetch_eq]; rfl
  | finishFlush hpc | createFinish hpc => rw [finishFlush_eq]; rfl
  | @register p mode g img hpc =>
    have hframes : (w.bpm.beginFetch p g).frames =
        (w.bpm.modifyFrame g fun fr => { fr with pageId := some p, isDirty := false }).frames := rfl
    exact hmodify hframes fun _ => rfl
  | pin hpc | unpin hpc hpin | finish hpc | fail hpc | markDirty hpc | drop hpc hpin | panicFinishFetch hpc
  | panicFinishFlush hpc =>
    exact hmodify rfl fun _ => rfl
  | _ => rfl

theorem Move.frame_eq (hm : Move w t c w') (h : (w.tasks t).alters = false) (f : Fin n) :
    (w'.bpm.frames f).data = (w.bpm.frames f).data ∧ (w'.bpm.frames f).isDirty = (w.bpm.frames f).isDirty := by
  constructor
  · refine hm.data_eq (fun l readBuffer hpc => ?_) fun _ p hpc => ?_
    · rw [hpc] at h
      cases h
    · rw [hpc] at h
      cases h
  · refine hm.isDirty_eq (fun p mode f img hpc => ?_) fun _ p hpc => ?_
    · rw [hpc] at h
      cases h
    · rw [hpc] at h
      cases h

omit [DecidableEq τ] in
theorem CacheInv.loads_mapped [Fintype τ] (hw : CacheInv w) (ht : (w.tasks t).loads = some p) :
    ∃ f, (w.tasks t).cacheRole.user = some (p, f) ∧ w.bpm.pageTable p = some f := by
  have huser : ∃ f, (w.tasks t).cacheRole.user = some (p, f) := by
    rcases role_of_loads ht with ht | ⟨c, ht⟩
    · exact CacheProtocol.user_of_registers ht
    · exact CacheProtocol.user_of_load ht
  obtain ⟨f, hf⟩ := huser
  exact ⟨f, hf, (hw.cache.fits t).user hf⟩

omit [DecidableEq τ] in
theorem CacheInv.given_loaded [Fintype τ] (hw : CacheInv w) (ht : (w.tasks t).given = some p) :
    ∃ f img, w.cacheRoles t = .ready p f img ∧ w.bpm.pageTable p = some f ∧ ∀ u, (w.tasks u).loads ≠ some p := by
  obtain ⟨f, img, hrole⟩ := role_of_given ht
  have hready : w.cacheRoles t = .ready p f img := hrole
  obtain ⟨hmapped, hnoload⟩ := hw.cache.loaded hready
  refine ⟨f, img, hready, hmapped, fun u hu => ?_⟩
  rcases role_of_loads hu with hu | ⟨c, hu⟩
  · have hut : t = u := hw.registers_alone (f := f) hu (by rw [hrole]; rfl)
    rw [← hut, hrole] at hu
    cases hu
  · exact hnoload u c hu

end Changes

section Moves

variable [DecidableEq τ] [Fintype τ] {w w' : World n τ} {m : Memory τ} {t : τ} {c : Choice} {v : PageId}
  {f : Fin n}

omit [DecidableEq τ] in
/-- A page that leaves its frame clean has its latest version on disk. -/
theorem LatestInv.evicted_clean (hi : LatestInv w m) (hw : CacheInv w) {r : Request}
    (hpc : w.tasks t = .evict r f) (hv : (w.bpm.frames f).pageId = some v)
    (hclean : (w.bpm.frames f).isDirty = false) : w.bpm.diskManager.pages v = m.latest v := by
  have hmapped := hw.victim_mapped hpc hv
  refine hi.disk v (fun u bytes => hw.victim_no_image hpc hv) (.inr (.inr ⟨f, hmapped, hclean, fun u hu => ?_⟩))
  obtain ⟨g, img, hrole, hg, -⟩ := hw.given_loaded (hi.holder u v hu)
  obtain rfl := Option.some.inj (hmapped.symm.trans hg)
  have huser : (w.cacheRoles u).user = some (v, f) := by
    rw [hrole]
    rfl
  exact hw.victim_unused hpc u v huser

omit [DecidableEq τ] in
theorem LatestInv.victim_latest (hi : LatestInv w m) (hw : CacheInv w) {r : Request}
    (hpc : w.tasks t = .evict r f) (hv : (w.bpm.frames f).pageId = some v) :
    (w.bpm.frames f).data = m.latest v := by
  have hmapped := hw.victim_mapped hpc hv
  refine hi.shown v f hmapped fun u hu => ?_
  obtain ⟨g, huser, hg⟩ := hw.loads_mapped hu
  obtain rfl := Option.some.inj (hmapped.symm.trans hg)
  exact hw.victim_unused hpc u v huser

omit [DecidableEq τ] in
/-- The frame of a page is taken. Its bytes become an image if it is dirty; otherwise they are on disk. -/
theorem LatestInv.evict (hi : LatestInv w m) (hw : CacheInv w) {r : Request} (hpc : w.tasks t = .evict r f)
    (hv : (w.bpm.frames f).pageId = some v) (hrest : ∀ u, u ≠ t → w'.tasks u = w.tasks u)
    (hunwritten : (w'.tasks t).unwritten = image (w.bpm.frames f) v) (hloads : (w'.tasks t).loads = none)
    (htable : w'.bpm.pageTable = Function.update w.bpm.pageTable v none)
    (hframes : w'.bpm.frames = w.bpm.frames) (hdisk : w'.bpm.diskManager = w.bpm.diskManager)
    (hcopy : ∀ l readBuffer, w'.tasks t ≠ .copy l readBuffer) : LatestInv w' m := by
  refine hi.change hrest (fun q g hq _ => .inr ⟨?_, ?_, ?_, rfl⟩) (fun l hl => ?_)
    (fun l readBuffer hl => absurd hl (hcopy l readBuffer)) (fun q bytes hq => ?_) (fun _ _ _ _ => rfl)
    (fun _ _ _ _ _ => rfl) (fun u l _ _ => by rw [hframes]) (fun q hnone hq => ?_) (fun p hp => ?_) fun _ _ => rfl
  · rw [hpc]
    exact nofun
  · rw [htable] at hq
    exact of_unmapped hq
  · rw [hframes]
  · rw [hl] at hloads
    cases hloads
  · rw [hunwritten] at hq
    obtain ⟨rfl, rfl, -⟩ := image_eq_some.mp hq
    exact hi.victim_latest hw hpc hv
  · by_cases hqv : q = v
    · subst hqv
      refine .inl ?_
      cases hdirty : (w.bpm.frames f).isDirty with
      | false =>
        rw [hdisk]
        exact hi.evicted_clean hw hpc hv hdirty
      | true =>
        refine absurd ?_ (hnone t (w.bpm.frames f).data)
        rw [hunwritten]
        exact image_eq_some.mpr ⟨rfl, rfl, hdirty⟩
    · refine .inr ⟨fun bytes => by rw [hpc]; exact nofun, ?_, by rw [hdisk], rfl⟩
      refine hq.back hrest (fun hu => by cases hloads.symm.trans hu) ?_ fun g _ hclean hsaved => ⟨?_, hsaved⟩
      · rw [htable, Function.update_of_ne hqv]
      · rwa [hframes] at hclean
  · cases (hi.unsaved_none (by rw [hpc]; rfl)).symm.trans hp

omit [DecidableEq τ] [Fintype τ] in
theorem LatestInv.written (hi : LatestInv w m) {pc pc' : Pc n} {bytes : Page} (hpc : w.tasks t = pc)
    (hpc' : w'.tasks t = pc') (hrest : ∀ u, u ≠ t → w'.tasks u = w.tasks u)
    (ht : (w.tasks t).unwritten = some (v, bytes)) (hdone : pc'.unwritten = none) (hloads₀ : pc.loads = none)
    (hloads : pc'.loads = none) (hgiven : ∀ p, pc.given = some p → pc'.given = some p)
    (hcopy : ∀ l readBuffer, pc' ≠ .copy l readBuffer) (htable : w'.bpm.pageTable = w.bpm.pageTable)
    (hframes : w'.bpm.frames = w.bpm.frames)
    (hdisk : w'.bpm.diskManager = w.bpm.diskManager.setPage v bytes) : LatestInv w' (m.flush v) := by
  subst hpc hpc'
  refine hi.change hrest (fun q g hq _ => .inr ⟨?_, htable ▸ hq, by rw [hframes], rfl⟩) (fun l hl => ?_)
    (fun l readBuffer hl => absurd hl (hcopy l readBuffer)) (fun q bytes hq => by cases hdone.symm.trans hq)
    (fun _ _ _ _ => rfl) (fun _ _ _ _ _ => rfl) (fun u l _ _ => by rw [hframes]) (fun q hnone hq => ?_)
    (fun p hp => hgiven p (hi.holder t p hp)) fun _ _ => rfl
  · rw [hloads₀]
    exact nofun
  · rw [hl] at hloads
    cases hloads
  · by_cases hqv : q = v
    · subst hqv
      rw [hdisk]
      exact .inl ((Function.update_self ..).trans (hi.images t q bytes ht))
    · refine .inr ⟨fun bytes' hu => ?_, ?_, ?_, rfl⟩
      · cases ht.symm.trans hu
        exact hqv rfl
      · exact hq.back hrest (fun hu => by cases hloads.symm.trans hu) (congrFun htable q)
          fun g _ hclean hsaved => ⟨hframes ▸ hclean, hsaved⟩
      · rw [hdisk]
        exact Function.update_of_ne hqv ..

omit [Fintype τ] in
theorem LatestInv.changed (hi : LatestInv w m) {pc pc' : Pc n} {p : PageId} {bytes : Page} (hpc : w.tasks t = pc)
    (hpc' : w'.tasks t = pc') (hrest : ∀ u, u ≠ t → w'.tasks u = w.tasks u) (hloads : pc.loads = none)
    (hloads' : pc'.loads = none) (hunwritten : pc'.unwritten = pc.unwritten)
    (hgiven : ∀ q, pc.given = some q → q = p) (hgiven' : pc'.given = some p)
    (hcopy : ∀ l readBuffer, pc' ≠ .copy l readBuffer) (hp : w'.bpm.pageTable p = some f)
    (htable : ∀ q, q ≠ p → w'.bpm.pageTable q = w.bpm.pageTable q) (hself : (w'.bpm.frames f).data = bytes)
    (hdata : ∀ q g, q ≠ p → w.bpm.pageTable q = some g → (w'.bpm.frames g).data = (w.bpm.frames g).data)
    (hdirty : ∀ g, (w'.bpm.frames g).isDirty = (w.bpm.frames g).isDirty)
    (hcopied : ∀ u l, w.tasks u = .finishFetch l → w.bpm.pageTable l.page = some l.frame)
    (hnoload : ∀ u, (w.tasks u).loads ≠ some p) (hnoimage : NoImage w p)
    (hdisk : w'.bpm.diskManager = w.bpm.diskManager) :
    LatestInv w' { m.write p bytes with unsaved := Function.update m.unsaved t (some p) } := by
  subst hpc hpc'
  have hlatest : ∀ {q}, q ≠ p → (m.write p bytes).latest q = m.latest q := fun hqp => Function.update_of_ne hqp ..
  refine hi.change hrest (fun q g hq _ => ?_) (fun l hl => ?_) (fun l readBuffer hl => absurd hl (hcopy l readBuffer))
    (fun v bytes' hv => ?_) (fun u q _ hu => hlatest ?_) (fun u q bytes' _ hu => hlatest ?_) (fun u l hut hu => ?_)
    (fun q hnone hq => ?_) (fun q hq => ?_) fun u hut => Function.update_of_ne hut ..
  · by_cases hqp : q = p
    · subst hqp
      cases hp.symm.trans hq
      exact .inl (hself.trans (Function.update_self q bytes m.latest).symm)
    · rw [htable q hqp] at hq
      exact .inr ⟨by rw [hloads]; exact nofun, hq, hdata q g hqp hq, hlatest hqp⟩
  · rw [hl] at hloads'
    cases hloads'
  · rw [hunwritten] at hv
    have hne : v ≠ p := by
      rintro rfl
      exact hnoimage t bytes' hv
    exact (hi.images t v bytes' hv).trans (hlatest hne).symm
  · rintro rfl
    exact hnoload u hu
  · rintro rfl
    exact hnoimage u bytes' hu
  · refine hdata l.page l.frame ?_ (hcopied u l hu)
    intro hlp
    exact hnoload u (by rw [hu]; exact congrArg some hlp)
  · by_cases hqp : q = p
    · subst hqp
      rcases hq with hq | ⟨u, hu⟩ | ⟨g, -, -, hsaved⟩
      · cases hp.symm.trans hq
      · by_cases hut : u = t
        · rw [hut, hloads'] at hu
          cases hu
        · rw [hrest u hut] at hu
          exact absurd hu (hnoload u)
      · exact absurd (Function.update_self ..) (hsaved t)
    · refine .inr ⟨fun bytes' hu => hnone t bytes' (hunwritten ▸ hu), ?_, by rw [hdisk], hlatest hqp⟩
      refine hq.back hrest (fun hu => by cases hloads'.symm.trans hu) (htable q hqp)
        fun g _ hclean hsaved => ⟨hdirty g ▸ hclean, fun u hu => ?_⟩
      by_cases hut : u = t
      · rw [hut] at hu
        exact hqp (hgiven q (hi.holder t q hu))
      · exact hsaved u ((Function.update_of_ne hut ..).trans hu)
  · cases (Function.update_self ..).symm.trans hq
    exact hgiven'

/-- **Every move keeps the latest versions.** -/
theorem Move.latestInv (hm : Move w t c w') (hw : CacheInv w) (hs : StoredInv w) (hord : Orderly w m (t, c))
    (hi : LatestInv w m) : LatestInv w' (m.note w t c) := by
  obtain ⟨-, hfresh, hunstored, -, hfault, hsaved, hrun⟩ := hord
  have hrest : ∀ u, u ≠ t → w'.tasks u = w.tasks u := fun u hu => hm.tasks_of_ne hu
  have hdata := fun f => hm.data_eq (f := f)
  have hdirty := fun f => hm.isDirty_eq (f := f)
  have hbytes : (w.tasks t).alters = false → ∀ f, (w'.bpm.frames f).data = (w.bpm.frames f).data :=
    fun h f => (hm.frame_eq h f).1
  have hflag : (w.tasks t).alters = false → ∀ f, (w'.bpm.frames f).isDirty = (w.bpm.frames f).isDirty :=
    fun h f => (hm.frame_eq h f).2
  have hnote : ∀ {pc : Pc n}, w.tasks t = pc → m.note w t c = m.note { w with tasks := fun _ => pc } t c := by
    rintro pc rfl
    rfl
  cases hm with
  | callFetch hpc | callCreate hpc | zeroFault hpc | allocate hpc | takeVictim hpc | subscribeFetch hpc | noFetch hpc
  | recvFetch hpc | closedFetch hpc | subscribeFlush hpc | noFlush hpc | recvFlush hpc | issueRead hpc
  | remove hpc | addFail hpc | add hpc =>
    exact hi.quiet hpc (goto_task ..) hrest rfl rfl (by rintro _ ⟨⟩) rfl (fun _ => rfl) (fun _ => id) rfl
      (by rw [hnote hpc]; rfl) (by rintro _ ⟨⟩) (by rintro _ _ ⟨⟩)
  | hit hpc | miss hpc | enter hpc =>
    exact hi.quiet hpc (enter_task ..) hrest rfl rfl (by rintro _ ⟨⟩) rfl (fun _ => rfl) (fun _ => id) rfl
      (by rw [hnote hpc]; rfl) (by rintro _ ⟨⟩) (by rintro _ _ ⟨⟩)
  | panic hpc =>
    exact hi.quiet hpc (poison_task ..) hrest rfl rfl (by rintro _ ⟨⟩) rfl (fun _ => rfl) (fun _ => id) rfl
      (by rw [hnote hpc]; rfl) (by rintro _ ⟨⟩) (by rintro _ _ ⟨⟩)
  | full hpc | releaseHit hpc | releaseMiss hpc =>
    exact hi.quiet hpc (leave_task ..) hrest rfl rfl (by rintro _ ⟨⟩) rfl (fun _ => rfl) (fun _ => id) rfl
      (by rw [hnote hpc]; rfl) (by rintro _ ⟨⟩) (by rintro _ _ ⟨⟩)
  | finish hpc | fail hpc =>
    exact hi.quiet hpc (goto_task ..) hrest rfl rfl (by rintro _ ⟨⟩) rfl (hbytes (by rw [hpc]; rfl))
      (fun f => (hflag (by rw [hpc]; rfl) f).symm.trans) rfl (by rw [hnote hpc]; rfl) (by rintro _ ⟨⟩)
      (by rintro _ _ ⟨⟩)
  | @takeFree r f rest hpc hfree =>
    refine hi.quiet hpc (goto_task ..) hrest ?_ ?_ (by rintro _ ⟨⟩) rfl (fun _ => rfl) (fun _ => id) rfl
      (by rw [hnote hpc]; rfl) ?_ ?_
    · cases r <;> rfl
    · cases r <;> rfl
    · cases r <;> rintro _ ⟨⟩
    · cases r <;> rintro _ _ ⟨⟩
  | pin hpc | unpin hpc hpin =>
    refine hi.quiet hpc (goto_task ..) hrest ?_ ?_ (by rintro _ ⟨⟩) rfl (hbytes (by rw [hpc]; rfl))
      (fun f => (hflag (by rw [hpc]; rfl) f).symm.trans) rfl (by rw [hnote hpc]; rfl) ?_ ?_
    · split_ifs <;> rfl
    · split_ifs <;> rfl
    · split_ifs <;> rintro _ ⟨⟩
    · split_ifs <;> rintro _ _ ⟨⟩
  | lock hpc hb =>
    obtain rfl := lockData_ret hb
    exact hi.quiet hpc (goto_task ..) hrest rfl rfl (fun _ => id) rfl (hbytes (by rw [hpc]; rfl))
      (fun f => (hflag (by rw [hpc]; rfl) f).symm.trans) rfl (by rw [hnote hpc]; rfl) (by rintro _ ⟨⟩)
      (by rintro _ _ ⟨⟩)
  | unlock hpc =>
    refine hi.quiet hpc (goto_task ..) hrest rfl rfl (by rintro _ ⟨⟩) ?_ (hbytes (by rw [hpc]; rfl))
      (fun f => (hflag (by rw [hpc]; rfl) f).symm.trans) ?_ (by rw [hnote hpc]; rfl) (by rintro _ ⟨⟩)
      (by rintro _ _ ⟨⟩)
    · rw [unlockData_eq]
      rfl
    · rw [unlockData_eq]
      rfl
  | finishFlush hpc | createFinish hpc =>
    refine hi.quiet hpc (goto_task ..) hrest rfl rfl ?_ ?_ (hbytes (by rw [hpc]; rfl))
      (fun f => (hflag (by rw [hpc]; rfl) f).symm.trans) ?_ (by rw [hnote hpc]; rfl) (by rintro _ ⟨⟩)
      (by rintro _ _ ⟨⟩)
    · exact fun _ => id
    · rw [finishFlush_eq]
      rfl
    · rw [finishFlush_eq]
      rfl
  | closedFlush hpc hsent hclosed => exact absurd (hw.flush_open hpc hsent) hclosed
  | readFault hpc | writeFault hpc | createFault hpc =>
    have hzero := hfault rfl
    rw [hpc] at hzero
    cases hzero
  | panicLookup hpc hpoison | panicEnter hpc hpoison | panicWaitFetch hpc hpoison | panicWaitFlush hpc hpoison
  | panicFinishFetch hpc hpoison | panicFinishFlush hpc hpoison | panicCreateFinish hpc hpoison =>
    exact absurd ⟨hpoison, by rw [hpc]; rfl⟩ hrun
  | panicLock hpc hpoison hlock => exact absurd ⟨hpoison, by rw [hpc]; exact hlock⟩ hrun
  | @read l hpc =>
    refine hi.quiet hpc (goto_task ..) hrest rfl rfl (by rintro _ ⟨⟩) rfl (fun _ => rfl) (fun _ => id) rfl
      (by rw [hnote hpc]; rfl) (by rintro _ ⟨⟩) fun l' readBuffer hl => ?_
    cases hl
    exact hi.disk l.page (hw.reading_no_image (congrArg Pc.cacheRole hpc)) (.inr (.inl ⟨t, by rw [hpc]; rfl⟩))
  | @evict p mode f v hpc hv hread =>
    have hm' : m.note w t .go = m := by rw [hnote hpc]; rfl
    rw [hm']
    refine hi.evict hw hpc hv hrest (by rw [goto_task]; rfl) (by rw [goto_task]; rfl) ?_ ?_ ?_
      (by rw [goto_task]; rintro _ _ ⟨⟩)
    · cases image (w.bpm.frames f) v <;> rfl
    · cases image (w.bpm.frames f) v <;> rfl
    · cases image (w.bpm.frames f) v <;> rfl
  | @evictCreate p f v hpc hv hread =>
    have hm' : m.note w t .go = m := by rw [hnote hpc]; rfl
    rw [hm']
    exact hi.evict hw hpc hv hrest (by rw [goto_task]; rfl) (by rw [goto_task]; rfl) rfl rfl rfl
      (by rw [goto_task]; rintro _ _ ⟨⟩)
  | @register p mode f img hpc =>
    have hm' : m.note w t .go = m := by rw [hnote hpc]; rfl
    have hp : w.bpm.pageTable p = none := hw.table.want t p (congrArg (fun pc => pc.tableRole.want) hpc)
    have hclaimed : ∀ q, w.bpm.pageTable q ≠ some f :=
      hw.table.claimed t f (congrArg (fun pc => pc.tableRole.claimed) hpc)
    have hsame := fun g => hdata g (by rw [hpc]; rintro _ _ ⟨⟩) (by rintro ⟨⟩)
    rw [hm']
    refine hi.change hrest (fun q g hq hnone => .inr ?_) (fun l hl => by rw [goto_task] at hl; cases hl)
      (fun l readBuffer hl => by rw [goto_task] at hl; cases hl) (fun v bytes hv => hi.images t v bytes ?_)
      (fun _ _ _ _ => rfl) (fun _ _ _ _ _ => rfl) (fun u l _ _ => hsame l.frame)
      (fun q hnone hq => .inr ⟨fun bytes hu => ?_, ?_, rfl, rfl⟩)
      (fun q hq => ?_) fun _ _ => rfl
    · have hqp : q ≠ p := by
        rintro rfl
        exact hnone (by rw [goto_task]; rfl)
      exact ⟨by rw [hpc]; rintro ⟨⟩, (Function.update_of_ne hqp ..).symm.trans hq, hsame g, rfl⟩
    · rw [goto_task] at hv
      rw [hpc]
      exact hv
    · rw [hpc] at hu
      exact hnone t bytes (by rw [goto_task]; exact hu)
    · by_cases hqp : q = p
      · exact .inl (hqp ▸ hp)
      · refine hq.back hrest (fun hu => ?_) (Function.update_of_ne hqp ..) fun g hg hclean hsaved => ⟨?_, hsaved⟩
        · rw [goto_task] at hu
          exact absurd (Option.some.inj hu).symm hqp
        · have hgf : g ≠ f := by
            rintro rfl
            exact hclaimed q hg
          have hframe : (w.bpm.beginFetch p f).frames g = w.bpm.frames g := Function.update_of_ne hgf ..
          rw [← hframe]
          exact hclean
    · cases (hi.unsaved_none (by rw [hpc]; rfl)).symm.trans hq
  | @copy l bytes hpc hwrite =>
    have hm' : m.note w t .go = m := by rw [hnote hpc]; rfl
    have hmapped := hw.loading_mapped (congrArg Pc.cacheRole hpc)
    have hframe : ∀ g, g ≠ l.frame → ((w.bpm.modifyFrame l.frame fun fr =>
        { fr with data := bytes, writer := true }).frames g).data = (w.bpm.frames g).data := by
      intro g hg
      rw [modifyFrame_of_ne hg]
    rw [hm']
    refine hi.change hrest (fun q g hq hnone => .inr ⟨?_, hq, hframe g ?_, rfl⟩) (fun l' hl => ?_)
      (fun l' readBuffer hl => by rw [goto_task] at hl; cases hl) (fun v bytes hv => hi.images t v bytes ?_)
      (fun _ _ _ _ => rfl) (fun _ _ _ _ _ => rfl) (fun u l' hut hu => hframe l'.frame ?_)
      (fun q hnone hq => .inr ⟨fun bytes hu => ?_, ?_, rfl, rfl⟩) (fun q hq => ?_) fun _ _ => rfl
    · rw [goto_task] at hnone
      rw [hpc]
      exact hnone
    · rintro rfl
      rw [goto_task, hw.page_unique hq hmapped] at hnone
      exact hnone rfl
    · rw [goto_task] at hl
      cases hl
      rw [← hi.read t l bytes hpc, goto, modifyFrame_self]
    · rw [goto_task] at hv
      rw [hpc]
      exact hv
    · intro heq
      have hsame := hw.page_unique (hw.loading_mapped (congrArg Pc.cacheRole hu)) (heq ▸ hmapped)
      refine hut (hw.one_load (p := l.page) ?_ ?_)
      · rw [hu, ← hsame]
        rfl
      · rw [hpc]
        rfl
    · rw [hpc] at hu
      exact hnone t bytes (by rw [goto_task]; exact hu)
    · refine hq.back hrest (fun hu => ?_) rfl fun g _ hclean hsaved => ⟨?_, hsaved⟩
      · rw [goto_task] at hu
        rw [hpc]
        exact hu
      · rwa [hdirty g (by rw [hpc]; rintro _ _ _ _ ⟨⟩) (by rintro ⟨⟩)] at hclean
    · cases (hi.unsaved_none (by rw [hpc]; rfl)).symm.trans hq
  | @finishFetch l hpc =>
    have hm' : m.note w t .go = m := by rw [hnote hpc]; rfl
    have hmapped := hw.loading_mapped (congrArg Pc.cacheRole hpc)
    have hunwritten : (w.tasks t).unwritten = l.pageDataToFlush := by rw [hpc]; rfl
    rw [hm']
    refine hi.change hrest (fun q g hq hnone => ?_) (fun l' hl => ?_) (fun l' readBuffer hl => ?_)
      (fun v bytes hv => hi.images t v bytes ?_) (fun _ _ _ _ => rfl) (fun _ _ _ _ _ => rfl)
      (fun u l' _ _ => hbytes (by rw [hpc]; rfl) l'.frame)
      (fun q hnone hq => .inr ⟨fun bytes hu => hnone t bytes ?_, ?_, ?_, rfl⟩) (fun q hq => ?_) fun _ _ => rfl
    · have hq : w.bpm.pageTable q = some g := by
        rw [finishFetch_eq] at hq
        exact hq
      have hsame := hbytes (by rw [hpc]; rfl) g
      by_cases hql : q = l.page
      · -- The task has copied this page to its frame.
        subst hql
        cases hmapped.symm.trans hq
        exact .inl (hsame.trans (hi.copied t l hpc))
      · refine .inr ⟨fun hu => ?_, hq, hsame, rfl⟩
        rw [hpc] at hu
        exact hql (Option.some.inj hu).symm
    · rw [goto_task] at hl
      split at hl <;> cases hl
    · rw [goto_task] at hl
      split at hl <;> cases hl
    · rw [goto_task] at hv
      rw [hunwritten]
      split at hv
      · rename_i himage
        exact himage.trans hv
      · cases hv
    · rw [hunwritten] at hu
      rw [goto_task, hu]
      rfl
    · refine hq.back hrest (fun hu => ?_) ?_ fun g _ hclean hsaved => ⟨?_, hsaved⟩
      · rw [goto_task] at hu
        split at hu <;> cases hu
      · rw [finishFetch_eq]
        rfl
      · exact (hflag (by rw [hpc]; rfl) g).symm.trans hclean
    · rw [finishFetch_eq]
      rfl
    · cases (hi.unsaved_none (by rw [hpc]; rfl)).symm.trans hq
  | @write l v bytes hpc =>
    have hm' : m.note w t .go = m.flush v := by rw [hnote hpc]; rfl
    have ht : (w.tasks t).unwritten = some (v, bytes) := by rw [hpc]; rfl
    rw [hm']
    exact hi.written hpc (goto_task ..) hrest ht rfl rfl rfl (by rintro _ ⟨⟩) (by rintro _ _ ⟨⟩) rfl rfl rfl
  | @createWrite p f v bytes hpc =>
    have hm' : m.note w t .go = m.flush v := by rw [hnote hpc]; rfl
    have ht : (w.tasks t).unwritten = some (v, bytes) := by rw [hpc]; rfl
    rw [hm']
    exact hi.written hpc (goto_task ..) hrest ht rfl rfl rfl (fun _ => id) (by rintro _ _ ⟨⟩) rfl rfl rfl
  | @zero p hpc =>
    have hm' : m.note w t .go = (m.write p (Buffer.const 8192 0)).flush p := by rw [hnote hpc]; rfl
    have hnew : w.bpm.diskManager.stored p = false := hunstored p (by rw [hpc]; rfl)
    have hne : ∀ {q}, w.bpm.diskManager.stored q = true → q ≠ p := by
      rintro q hq rfl
      cases hq.symm.trans hnew
    rw [hm']
    refine hi.change hrest (fun q g hq hnone => .inr ⟨by rw [hpc]; rintro ⟨⟩, hq, rfl, ?_⟩)
      (fun l hl => by rw [goto_task] at hl; cases hl) (fun l readBuffer hl => by rw [goto_task] at hl; cases hl)
      (fun v bytes hv => by rw [goto_task] at hv; cases hv) (fun u q _ hu => ?_) (fun u q bytes _ hu => ?_)
      (fun u l _ _ => rfl) (fun q hnone hq => ?_) (fun q hq => ?_) fun _ _ => rfl
    · exact Function.update_of_ne (hne (hs.mapped q g hq)) ..
    · obtain ⟨g, -, hg⟩ := hw.loads_mapped hu
      exact Function.update_of_ne (hne (hs.mapped q g hg)) ..
    · exact Function.update_of_ne (hne (hs.images u q bytes hu)) ..
    · by_cases hqp : q = p
      · subst hqp
        refine .inl ((Function.update_self ..).trans ?_)
        exact (Function.update_self q (Buffer.const 8192 0) m.latest).symm
      · refine .inr ⟨fun bytes => by rw [hpc]; rintro ⟨⟩, ?_, Function.update_of_ne hqp ..,
          Function.update_of_ne hqp ..⟩
        refine hq.back hrest (fun hu => ?_) rfl fun g _ hclean hsaved => ⟨hclean, hsaved⟩
        rw [goto_task] at hu
        cases hu
    · cases (hi.unsaved_none (by rw [hpc]; rfl)).symm.trans hq
  | @releaseCreate p f evicted b hpc hb =>
    obtain ⟨hp, hflush, hne⟩ := hfresh p (by rw [hpc]; rfl)
    have hclaimed : ∀ q, w.bpm.pageTable q ≠ some f :=
      hw.table.claimed t f (congrArg (fun pc => pc.tableRole.claimed) hpc)
    have hm' : m.note w t .go =
        { m.write p (w.bpm.frames f).data with unsaved := Function.update m.unsaved t (some p) } := by
      rw [hnote hpc]
      rfl
    obtain ⟨b₁, hb₁, hb'⟩ := registerCreated_ret hb
    have htable : b.pageTable = Function.update w.bpm.pageTable p (some f) := by rw [hb']
    have hdisk : b.diskManager = w.bpm.diskManager := by
      rw [hb']
      rcases hb₁ with rfl | ⟨v, bytes, -, rfl⟩ <;> rfl
    have hsame := hbytes (by rw [hpc]; rfl)
    rw [hm']
    refine hi.changed hpc (leave_task ..) hrest rfl ?_ ?_ (by rintro _ ⟨⟩) ?_ ?_ ?_ (fun q hqp => ?_) (hsame f)
      (fun q g _ _ => hsame g) (hflag (by rw [hpc]; rfl))
      (fun u l hu => hw.loading_mapped (congrArg Pc.cacheRole hu)) (fun u hu => ?_) (fun u bytes hu => ?_) hdisk
    · rcases evicted.join with - | ⟨v, bytes⟩ <;> rfl
    · change _ = evicted.join
      rcases evicted.join with - | ⟨v, bytes⟩ <;> rfl
    · rcases evicted.join with - | ⟨v, bytes⟩ <;> rfl
    · rcases evicted.join with - | ⟨v, bytes⟩ <;> rintro _ _ ⟨⟩
    · exact (congrFun htable p).trans (Function.update_self ..)
    · exact (congrFun htable q).trans (Function.update_of_ne hqp ..)
    · obtain ⟨g, -, hg⟩ := hw.loads_mapped hu
      cases hp.symm.trans hg
    · rcases flush_of_unwritten hu with hu' | hu'
      · exact (hw.cache.fits u).flush hu' hflush
      · by_cases hut : u = t
        · exact hne (hut ▸ hu')
        · have hnone := hw.unannounced (t := t) (by rw [hpc]; rfl) hut
          cases hnone.symm.trans hu'
  | @store p f bytes hpc =>
    have hgiven : (w.tasks t).given = some p := by rw [hpc]; rfl
    obtain ⟨g, img, hrole, hmapped, hnoload⟩ := hw.given_loaded hgiven
    have hself : w.cacheRoles t = .ready p f none := congrArg Pc.cacheRole hpc
    cases hself.symm.trans hrole
    have hm' : m.note w t (.store bytes) =
        { m.write p bytes with unsaved := Function.update m.unsaved t (some p) } := by
      rw [hnote hpc]
      rfl
    rw [hm']
    refine hi.changed hpc (goto_task ..) hrest rfl rfl rfl (fun q hq => (Option.some.inj hq).symm) rfl
      (by rintro _ _ ⟨⟩) hmapped (fun q _ => rfl) ?_
      (fun q g hqp hg => hdata g (by rw [hpc]; rintro _ _ ⟨⟩) fun _ p' hpc' => ?_)
      (fun g => hdirty g (by rw [hpc]; rintro _ _ _ _ ⟨⟩) (by rintro ⟨⟩))
      (fun u l hu => hw.loading_mapped (congrArg Pc.cacheRole hu)) hnoload (hw.given_no_image hself) rfl
    · rw [goto, modifyFrame_self]
    · cases hpc.symm.trans hpc'
      exact hqp (hw.page_unique hg hmapped)
  | @markDirty p f hpc =>
    refine hi.quiet hpc (goto_task ..) hrest rfl rfl (fun _ => id) rfl
      (fun g => hdata g (by rw [hpc]; rintro _ _ ⟨⟩) (by rintro ⟨⟩)) (fun g hg => ?_) rfl (by rw [hnote hpc]; rfl)
      (by rintro _ ⟨⟩) (by rintro _ _ ⟨⟩)
    by_cases hgf : g = f
    · rw [hgf, goto, modifyFrame_self] at hg
      cases hg
    · rwa [goto, modifyFrame_of_ne hgf] at hg
  | @drop p mode f hpc hpin =>
    have hm' : m.note w t .drop = { m with unsaved := Function.update m.unsaved t none } := by
      rw [hnote hpc]
      cases mode <;> rfl
    have hgiven : (w.tasks t).given = some p := by rw [hpc]; rfl
    obtain ⟨g, img, hrole, hmapped, hnoload⟩ := hw.given_loaded hgiven
    cases (congrArg Pc.cacheRole hpc : w.cacheRoles t = .ready p f none).symm.trans hrole
    have hkind : ∀ pc : Pc n, pc = (if (w.bpm.frames f).pinCount = 1 then .add f (.unlock mode) else .unlock f mode) →
        pc.loads = none ∧ pc.unwritten = none ∧ ∀ l readBuffer, pc ≠ .copy l readBuffer := by
      rintro pc rfl
      split_ifs <;> exact ⟨rfl, rfl, by rintro _ _ ⟨⟩⟩
    obtain ⟨hloads, hunwritten, hcopy⟩ := hkind _ rfl
    have hsame := fun g => hdata g (by rw [hpc]; rintro _ _ ⟨⟩) (by rintro ⟨⟩)
    rw [hm']
    refine hi.change hrest (fun q g hq _ => .inr ⟨by rw [hpc]; rintro ⟨⟩, hq, hsame g, rfl⟩) (fun l hl => ?_)
      (fun l readBuffer hl => ?_) (fun v bytes hv => ?_) (fun _ _ _ _ => rfl) (fun _ _ _ _ _ => rfl)
      (fun u l _ _ => hsame l.frame) (fun q hnone hq => .inr ⟨fun bytes => by rw [hpc]; rintro ⟨⟩, ?_, rfl, rfl⟩)
      (fun q hq => ?_) fun u hut => Function.update_of_ne hut ..
    · rw [goto_task] at hl
      rw [hl] at hloads
      cases hloads
    · rw [goto_task] at hl
      exact absurd hl (hcopy l readBuffer)
    · rw [goto_task] at hv
      cases hunwritten.symm.trans hv
    · refine hq.back hrest (fun hu => ?_) rfl fun g hg hclean hrest' => ?_
      · rw [goto_task] at hu
        cases hloads.symm.trans hu
      · have hsame := hdirty g (by rw [hpc]; rintro _ _ _ _ ⟨⟩) (by rintro ⟨⟩)
        refine ⟨hsame.symm.trans hclean, fun u hu => ?_⟩
        by_cases hut : u = t
        · subst hut
          obtain rfl : p = q := Option.some.inj (hgiven.symm.trans (hi.holder u q hu))
          cases hmapped.symm.trans hg
          have hmarked := hsaved rfl (by rw [hu]; rfl) f (by rw [hpc]; rfl)
          cases (hsame.trans hmarked).symm.trans hclean
        · exact hrest' u ((Function.update_of_ne hut ..).trans hu)
    · cases (Function.update_self ..).symm.trans hq

end Moves

/-! ## Runs -/

section Runs

variable [DecidableEq τ] [Fintype τ] {w w' : World n τ} {m : Memory τ} {d : Disk} {t : τ} {c : Choice}

/-- What holds in every run. -/
structure MemoryInv (w : World n τ) (m : Memory τ) : Prop where
  cache : CacheInv w
  stored : StoredInv w
  latest : LatestInv w m

theorem Move.memoryInv (hm : Move w t c w') (hord : Orderly w m (t, c)) (hi : MemoryInv w m) :
    MemoryInv w' (m.note w t c) where
  cache := hm.cacheInv hord.1 hord.2.1 hi.cache
  stored := hm.storedInv hi.cache hord.2.2.2.1 hi.stored
  latest := hm.latestInv hi.cache hi.stored hord hi.latest

theorem memoryInv_of_reached
    (hr : (memorySystem n τ).Reached Orderly (World.init n τ d) (Memory.init τ d) w m) : MemoryInv w m :=
  hr.inv ⟨cacheInv_init n τ d, storedInv_init n τ d, latestInv_init n τ d⟩ fun _ _ _ _ hord hs hi =>
    (move_of_step hs).memoryInv hord hi

omit [DecidableEq τ] in
theorem MemoryInv.guard_latest (hi : MemoryInv w m) {p : PageId} {mode : Mode} {f : Fin n}
    (ht : w.tasks t = .guard p mode f) : (w.bpm.frames f).data = m.latest p := by
  obtain ⟨g, img, hrole, hmapped, hnoload⟩ := hi.cache.given_loaded (t := t) (p := p) (by rw [ht]; rfl)
  cases (congrArg Pc.cacheRole ht : w.cacheRoles t = .ready p f none).symm.trans hrole
  exact hi.latest.shown p f hmapped hnoload

/-- The pool stands for its memory: guards see the latest versions, fetches have read them and flushes write
them, and a page without a frame has its latest version on disk when it has been flushed. -/
structure ShowsLatest (w : World n τ) (m : Memory τ) : Prop where
  guards : ∀ t p mode f, w.tasks t = .guard p mode f → (w.bpm.frames f).data = m.latest p
  fetches : ∀ t l readBuffer, w.tasks t = .copy l readBuffer → readBuffer = m.latest l.page
  flushes : ∀ t v bytes, (w.tasks t).unwritten = some (v, bytes) → bytes = m.latest v
  disk : ∀ p, w.bpm.pageTable p = none → NoImage w p → w.bpm.diskManager.pages p = m.latest p

omit [Fintype τ] in
theorem note_versions (m : Memory τ) (w : World n τ) (t : τ) (c : Choice) :
    (m.note w t c).version = m.version ∧ (m.note w t c).older = m.older ∨ ∃ p bytes,
      (m.note w t c).version = (m.write p bytes).version ∧ (m.note w t c).older = (m.write p bytes).older := by
  unfold Memory.note
  split
  case h_1 | h_2 | h_3 => exact .inr ⟨_, _, rfl, rfl⟩
  all_goals exact .inl ⟨rfl, rfl⟩

omit [Fintype τ] in
theorem note_version (m : Memory τ) (w : World n τ) (t : τ) (c : Choice) {q : PageId} {k : ℕ}
    (hk : k ≤ (m.older q).length) :
    (m.note w t c).version q k = m.version q k ∧ k ≤ ((m.note w t c).older q).length := by
  rcases note_versions m w t c with ⟨hversion, holder⟩ | ⟨p, bytes, hversion, holder⟩
  · exact ⟨by rw [hversion], by rwa [holder]⟩
  · refine ⟨by rw [hversion, m.version_write p q bytes hk], ?_⟩
    rw [holder]
    change k ≤ (Function.update m.older p _ q).length
    by_cases hq : q = p
    · rw [hq, Function.update_self, List.length_cons]
      exact Nat.le_succ_of_le (hq ▸ hk)
    · rwa [Function.update_of_ne hq]

omit [Fintype τ] in
theorem Move.disk_cases (hm : Move w t c w') (hi : LatestInv w m) :
    w'.bpm.diskManager.pages = w.bpm.diskManager.pages ∧ (m.note w t c).durable = m.durable ∨
      ∃ v, w'.bpm.diskManager.pages = Function.update w.bpm.diskManager.pages v ((m.note w t c).latest v) ∧
        (m.note w t c).durable = Function.update m.durable v ((m.note w t c).older v).length := by
  have hnote : ∀ {pc : Pc n}, w.tasks t = pc → m.note w t c = m.note { w with tasks := fun _ => pc } t c := by
    rintro pc rfl
    rfl
  cases hm with
  | @write l v bytes hpc | @createWrite p f v bytes hpc =>
    have hbytes : bytes = m.latest v := hi.images t v bytes (by rw [hpc]; rfl)
    refine .inr ⟨v, ?_, ?_⟩ <;> rw [hnote hpc]
    · rw [hbytes]
      rfl
    · rfl
  | @zero p hpc =>
    refine .inr ⟨p, ?_, ?_⟩ <;> rw [hnote hpc]
    · exact congrArg (Function.update w.bpm.diskManager.pages p)
        (Function.update_self p (Buffer.const 8192 0) m.latest).symm
    · rfl
  | @evict p mode f v hpc =>
    refine .inl ⟨?_, by rw [hnote hpc]; rfl⟩
    cases image (w.bpm.frames f) v <;> rfl
  | @releaseCreate p f evicted b hpc hb =>
    refine .inl ⟨?_, by rw [hnote hpc]; rfl⟩
    obtain ⟨b₁, hb₁, rfl⟩ := registerCreated_ret hb
    rcases hb₁ with rfl | ⟨v, bytes, -, rfl⟩ <;> rfl
  | finishFetch hpc =>
    refine .inl ⟨?_, by rw [hnote hpc]; rfl⟩
    rw [finishFetch_eq]
    rfl
  | finishFlush hpc | createFinish hpc =>
    refine .inl ⟨?_, by rw [hnote hpc]; rfl⟩
    rw [finishFlush_eq]
    rfl
  | lock hpc hb =>
    refine .inl ⟨?_, by rw [hnote hpc]; rfl⟩
    rw [lockData_ret hb]
    rfl
  | unlock hpc =>
    refine .inl ⟨?_, by rw [hnote hpc]; rfl⟩
    rw [unlockData_eq]
    rfl
  | drop hpc =>
    refine .inl ⟨rfl, ?_⟩
    rw [hnote hpc]
    cases ‹Mode› <;> rfl
  | callFetch hpc | callCreate hpc | hit hpc | miss hpc | allocate hpc | zeroFault hpc | enter hpc
  | takeFree hpc | takeVictim hpc | full hpc | panic hpc | evictCreate hpc | register hpc | pin hpc | remove hpc
  | releaseHit hpc | releaseMiss hpc | subscribeFetch hpc | noFetch hpc | recvFetch hpc | closedFetch hpc
  | unpin hpc | subscribeFlush hpc | noFlush hpc | recvFlush hpc | closedFlush hpc | issueRead hpc | read hpc
  | readFault hpc | copy hpc | writeFault hpc | finish hpc | fail hpc | createFault hpc | store hpc
  | markDirty hpc | addFail hpc | add hpc | panicLookup hpc | panicEnter hpc | panicWaitFetch hpc | panicWaitFlush hpc
  | panicFinishFetch hpc | panicFinishFlush hpc | panicCreateFinish hpc | panicLock hpc =>
    exact .inl ⟨rfl, by rw [hnote hpc]; rfl⟩

/-- What is on disk is the version with the number that was noted, so it is no mixture of versions; and a step
puts no older version there. -/
structure Recoverable (w : World n τ) (m : Memory τ) : Prop where
  version : ∀ p, m.version p (m.durable p) = some (w.bpm.diskManager.pages p)
  forward : ∀ t c p, m.durable p ≤ (m.note w t c).durable p
  numbered : ∀ t c p k, k ≤ m.durable p → (m.note w t c).version p k = m.version p k

/-- The number of the version on disk is one of the page. -/
structure DurableInv (w : World n τ) (m : Memory τ) : Prop where
  version : ∀ p, m.version p (m.durable p) = some (w.bpm.diskManager.pages p)
  bounded : ∀ p, m.durable p ≤ (m.older p).length

omit [Fintype τ] in
theorem Move.durableInv (hm : Move w t c w') (hi : LatestInv w m) (hd : DurableInv w m) :
    DurableInv w' (m.note w t c) := by
  have hold := fun q => note_version m w t c (hd.bounded q)
  rcases hm.disk_cases hi with ⟨hdisk, hdurable⟩ | ⟨v, hdisk, hdurable⟩
  · refine ⟨fun q => ?_, fun q => ?_⟩ <;> rw [hdurable]
    · rw [hdisk, (hold q).1, hd.version q]
    · exact (hold q).2
  · refine ⟨fun q => ?_, fun q => ?_⟩ <;> rw [hdurable]
    · rw [hdisk]
      by_cases hq : q = v
      · rw [hq, Function.update_self, Function.update_self, Memory.version_latest]
      · rw [Function.update_of_ne hq, Function.update_of_ne hq, (hold q).1, hd.version q]
    · by_cases hq : q = v
      · rw [hq, Function.update_self]
      · rw [Function.update_of_ne hq]
        exact (hold q).2

theorem durableInv_of_reached
    (hr : (memorySystem n τ).Reached Orderly (World.init n τ d) (Memory.init τ d) w m) :
    MemoryInv w m ∧ DurableInv w m := by
  refine hr.inv (I := fun w m => MemoryInv w m ∧ DurableInv w m) ?_ fun w w' m a hord hs hi => ?_
  · exact ⟨⟨cacheInv_init n τ d, storedInv_init n τ d, latestInv_init n τ d⟩, fun _ => rfl, fun _ => le_rfl⟩
  · have hm : Move w a.1 a.2 w' := move_of_step hs
    exact ⟨hm.memoryInv hord hi.1, hm.durableInv hi.1.latest hi.2⟩

omit [Fintype τ] in
theorem durable_note (m : Memory τ) (w : World n τ) (t : τ) (c : Choice) {p : PageId}
    (hp : m.durable p ≤ (m.older p).length) : m.durable p ≤ (m.note w t c).durable p := by
  have hupdate : ∀ {v : PageId} {k : ℕ}, (m.older v).length ≤ k →
      m.durable p ≤ Function.update m.durable v k p := by
    intro v k hk
    by_cases hpv : p = v
    · subst hpv
      rw [Function.update_self]
      exact hp.trans hk
    · rw [Function.update_of_ne hpv]
  unfold Memory.note
  split
  case h_1 q _ =>
    refine hupdate ?_
    change _ ≤ (Function.update m.older q _ q).length
    rw [Function.update_self, List.length_cons]
    exact Nat.le_succ _
  case h_5 | h_6 => exact hupdate le_rfl
  all_goals exact le_rfl

end Runs

/-- Two tasks share two frames. The first one fetches a page and another one, which it changes and marks dirty. It
fetches a third page in the frame of the second. The second task fetches the changed page while it is on its way
to disk. -/
def refetchChangedSteps : List (Fin 2 × Choice) :=
  goingOn [(0, .fetchPage ⟨1, 1⟩ .read, 13), (0, .drop, 2), (0, .fetchPage ⟨1, 0⟩ .write, 13),
    (0, .store (Buffer.const 8192 1), 0), (0, .markDirty, 0), (0, .drop, 2), (0, .fetchPage ⟨2, 0⟩ .read, 9),
    (1, .fetchPage ⟨1, 0⟩ .read, 8), (0, .go, 4), (1, .go, 6)]

end World

end RarmDb
