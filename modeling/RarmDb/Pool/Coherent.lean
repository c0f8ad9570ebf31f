import RarmDb.Pool.Locks
import RarmDb.Pool.Outcome

/-!
# The pool is coherent

* `Shows`, `Views`: the live guards are those of the flat store;
* `Coherent`: the invariant that relates a pool with its guards to the flat store;
* `fetchPage_coherent`, `createPage_coherent`, `modifyFrame_coherent`, `dropped_coherent`: the
  operations keep it;
* **`pool_refines_flat_store`**: every run whose new pages are new to the disk follows the flat store;
* `wrapped_index_loses_bytes`: a run whose new page is not.
-/

namespace RarmDb

open BufferPoolManager

variable {n : ℕ} {b : BufferPoolManager n} {f : Fin n} {p : PageId} {mode : Mode} {i : ℕ} {g : Guard n}

/-! ## Coherence -/

/-- A guard shows a page and its bytes. -/
structure Shows (b : BufferPoolManager n) (g : Guard n) (a : FlatGuard) : Prop where
  page : (b.frames g.frame).pageId = some a.page
  mode : g.mode = a.mode
  bytes : (b.frames g.frame).data = a.bytes

/-- The live guards are those of the flat store. -/
structure Views (w : PoolWorld n) (t : FlatStore) : Prop where
  length : w.guards.length = t.guards.length
  shows : ∀ (i : ℕ) (g : Guard n) (a : FlatGuard), w.guards[i]? = some g → t.guards[i]? = some a →
    Shows w.bpm g a

/-- **Coherence** of the pool, its guards and the flat store. -/
structure Coherent (w : PoolWorld n) (t : FlatStore) : Prop where
  pool : PoolInv w.bpm t.bytes fun f => ⟨f, .write⟩ ∈ w.guards
  locked : Locked w.bpm [] w.guards
  views : Views w t

variable {w : PoolWorld n} {t : FlatStore}

theorem Views.congr (h : Views w t) (hb : ∀ g ∈ w.guards,
    (b.frames g.frame).pageId = (w.bpm.frames g.frame).pageId ∧
      (b.frames g.frame).data = (w.bpm.frames g.frame).data) : Views ⟨b, w.guards⟩ t where
  length := h.length
  shows i g a hg ha := by
    obtain ⟨hid, hdata⟩ := hb g (List.mem_of_getElem? hg)
    have hs := h.shows i g a hg ha
    exact ⟨hid.trans hs.page, hs.mode, hdata.trans hs.bytes⟩

theorem Views.cons (h : Views w t) {a : FlatGuard} (hs : Shows w.bpm g a) :
    Views ⟨w.bpm, g :: w.guards⟩ { t with guards := a :: t.guards } where
  length := congrArg (· + 1) h.length
  shows i g' a' hg ha := by
    rcases i with - | i
    · cases hg
      cases ha
      exact hs
    · rw [List.getElem?_cons_succ] at hg ha
      exact h.shows i g' a' hg ha

theorem Views.eraseIdx (h : Views w t) (i : ℕ) (bytes : PageId → Page) :
    Views ⟨w.bpm, w.guards.eraseIdx i⟩ ⟨bytes, t.guards.eraseIdx i⟩ where
  length := by rw [List.length_eraseIdx, List.length_eraseIdx, h.length]
  shows j g a hg ha := by
    dsimp only at hg ha
    rw [List.getElem?_eraseIdx] at hg ha
    split_ifs at hg ha
    · exact h.shows j g a hg ha
    · exact h.shows (j + 1) g a hg ha

theorem Views.exists (h : Views w t) (hi : w.guards[i]? = some g) :
    ∃ a, t.guards[i]? = some a ∧ Shows w.bpm g a := by
  obtain ⟨hlt, -⟩ := List.getElem?_eq_some_iff.mp hi
  have ha := List.getElem?_eq_getElem (h.length ▸ hlt)
  exact ⟨_, ha, h.shows i g _ hi ha⟩

/-! ## The operations -/

/-- **A new guard** on a pinned frame. -/
theorem returnGuard_coherent (hp : w.bpm.pageTable p = some f)
    (h : PoolInv w.bpm t.bytes fun g => ⟨g, .write⟩ ∈ (⟨f, mode⟩ : Guard n) :: w.guards)
    (hl : Locked w.bpm [f] w.guards) (hv : Views w t)
    (hwrite : mode = .write → ∀ g ∈ w.guards, g.frame ≠ f) (hread : ⟨f, .write⟩ ∉ w.guards) :
    ∃ w', w.returnGuard p f mode = .ret (.guard p (w.bpm.frames f).data, w') ∧
      Coherent w' { t with guards := ⟨p, mode, (w.bpm.frames f).data⟩ :: t.guards } := by
  obtain ⟨hlock, hlocked⟩ := hl.cons hwrite hread
  have hpin : (w.bpm.frames f).pinCount ≠ 0 := by
    rw [hl.pins, List.count_singleton_self]
    exact Nat.succ_ne_zero _
  have hid := h.pageId_of_table hp
  have hsame : ∀ g, ((w.bpm.modifyFrame f fun fr => withGuard fr mode).frames g).pageId =
        (w.bpm.frames g).pageId ∧
      ((w.bpm.modifyFrame f fun fr => withGuard fr mode).frames g).data = (w.bpm.frames g).data := by
    intro g
    by_cases hg : g = f
    · subst hg
      rw [modifyFrame_self]
      cases mode <;> exact ⟨rfl, rfl⟩
    · rw [modifyFrame_of_ne hg]
      exact ⟨rfl, rfl⟩
  refine ⟨⟨w.bpm.modifyFrame f fun fr => withGuard fr mode, ⟨f, mode⟩ :: w.guards⟩, ?_, ?_⟩
  · unfold PoolWorld.returnGuard
    rw [hlock, Exec.ret_bind, (hsame f).2]
    rfl
  · constructor
    case pool =>
      refine Touched.inv h (touched_modifyFrame h hp ?_ ?_) hp (fun _ _ => rfl) (fun _ _ => Iff.rfl) ?_
        (fun hg => hlocked.pinCount_ne_zero hg) ?_
      · cases mode <;> rfl
      · cases mode <;> rfl
      · exact hlocked.canWrite
      · intro hg
        rw [(hsame f).2]
        refine ⟨h.data p f hp hg, fun hd => h.clean p f hp hg ?_⟩
        rw [modifyFrame_self] at hd
        cases mode <;> exact hd
    case locked => exact hlocked
    case views =>
      have hviews := hv.congr fun g _ => hsame g.frame
      refine hviews.cons ⟨?_, rfl, (hsame f).2⟩
      exact (hsame f).1.trans hid

theorem Views.reassigned {w : PoolWorld n} {b' : BufferPoolManager n} (hv : Views w t)
    (hl : Locked w.bpm [] w.guards) (hr : Reassigned w.bpm b' f p) : Views ⟨b', w.guards⟩ t := by
  refine hv.congr fun g hg => ?_
  rw [hr.frames _ (hl.not_frame hr.unpinned g hg)]
  exact ⟨rfl, rfl⟩

theorem fetchPage_coherent (h : Coherent w t) (hlegal : PoolOp.Legal w (.fetchPage p mode)) :
    ∃ w', w.fetchPage Faults.none p mode = .ret (.guard p (t.bytes p), w') ∧
      Coherent w' { t with guards := ⟨p, mode, t.bytes p⟩ :: t.guards } := by
  obtain ⟨hstored, hroom, hguards⟩ := hlegal
  cases hp : w.bpm.pageTable p with
  | some f =>
    have hid := h.pool.pageId_of_table hp
    have hread : ⟨f, .write⟩ ∉ w.guards := fun hg => by
      obtain ⟨-, hm⟩ := hguards _ hg hid
      cases hm
    have hwrite : mode = .write → ∀ g ∈ w.guards, g.frame ≠ f := by
      rintro rfl g hg rfl
      obtain ⟨hm, -⟩ := hguards g hg hid
      cases hm
    have hlocked := h.locked.pinFrame f
    have hdata : ((w.bpm.pinFrame f).frames f).data = t.bytes p := by
      rw [pinFrame_frames, Function.update_self]
      exact h.pool.data p f hp hread
    have hpool : PoolInv (w.bpm.pinFrame f) t.bytes
        fun g => ⟨g, .write⟩ ∈ (⟨f, mode⟩ : Guard n) :: w.guards := by
      refine Touched.inv h.pool (touched_pinFrame h.pool f) hp (fun _ _ => rfl) ?_
        hlocked.canWrite ?_ fun _ => ⟨hdata, ?_⟩
      · intro g hg
        simp [hg]
      · intro _
        rw [pinFrame_frames, Function.update_self]
        exact Nat.succ_ne_zero _
      · rw [pinFrame_frames, Function.update_self]
        exact h.pool.clean p f hp hread
    have hviews : Views ⟨w.bpm.pinFrame f, w.guards⟩ t := by
      refine h.views.congr fun g _ => ?_
      rw [pinFrame_frames]
      by_cases hg : g.frame = f
      · rw [hg, Function.update_self]
        exact ⟨rfl, rfl⟩
      · rw [Function.update_of_ne hg]
        exact ⟨rfl, rfl⟩
    have htable : (w.bpm.pinFrame f).pageTable p = some f := by
      rw [pinFrame_eq]
      exact hp
    obtain ⟨w', hret, hcoherent⟩ :=
      returnGuard_coherent (w := ⟨w.bpm.pinFrame f, w.guards⟩) htable hpool hlocked hviews hwrite hread
    rw [hdata] at hret hcoherent
    refine ⟨w', ?_, hcoherent⟩
    unfold PoolWorld.fetchPage
    rw [fetchAndPinFrame_hit h.pool _ hp]
    exact hret
  | none =>
    obtain ⟨f, b', hfetch, hr, hdata, hdisk⟩ := fetchAndPinFrame_miss h.pool hp hstored (hroom hp)
    have hnone := h.locked.not_frame hr.unpinned
    have hpool : PoolInv b' t.bytes fun g => ⟨g, .write⟩ ∈ (⟨f, mode⟩ : Guard n) :: w.guards := by
      refine hr.inv h.pool hp ?_ fun _ => ⟨hdata, hdisk⟩
      intro g hg
      simp [hg]
    have htable : b'.pageTable p = some f := by rw [hr.table, if_pos rfl]
    obtain ⟨w', hret, hcoherent⟩ := returnGuard_coherent (w := ⟨b', w.guards⟩) htable hpool
      (h.locked.reassigned hr) (h.views.reassigned h.locked hr) (fun _ => hnone)
      (fun hg => hnone _ hg rfl)
    rw [hdata] at hret hcoherent
    refine ⟨w', ?_, hcoherent⟩
    unfold PoolWorld.fetchPage
    rw [hfetch]
    exact hret

theorem createPage_coherent {tableId : UInt32} (h : Coherent w t)
    (hlegal : PoolOp.Legal w (.createPage tableId)) (hfresh : PoolOp.Fresh w (.createPage tableId)) :
    ∃ p bytes w', w.createPage Faults.none tableId = .ret (.guard p bytes, w') ∧
      p.tableId = tableId ∧ Coherent w' { t with guards := ⟨p, .write, bytes⟩ :: t.guards } := by
  obtain ⟨f, b', hcreate, hr⟩ := createAndPinFrame_eq h.pool hfresh hlegal
  have hnone := h.locked.not_frame hr.unpinned
  have hp : w.bpm.pageTable (w.bpm.diskManager.nextPage tableId) = none := by
    rw [Option.eq_none_iff_forall_not_mem]
    intro f hf
    have hstored := h.pool.stored _ f hf
    rw [hfresh] at hstored
    cases hstored
  have hpool : PoolInv b' t.bytes fun g => ⟨g, .write⟩ ∈ (⟨f, .write⟩ : Guard n) :: w.guards := by
    refine hr.inv h.pool hp ?_ fun hf => absurd List.mem_cons_self hf
    intro g hg
    simp [hg]
  have htable : b'.pageTable (w.bpm.diskManager.nextPage tableId) = some f := by
    rw [hr.table, if_pos rfl]
  obtain ⟨w', hret, hcoherent⟩ := returnGuard_coherent (w := ⟨b', w.guards⟩) htable hpool
    (h.locked.reassigned hr) (h.views.reassigned h.locked hr) (fun _ => hnone)
    (fun hg => hnone _ hg rfl)
  refine ⟨_, _, w', ?_, rfl, hcoherent⟩
  unfold PoolWorld.createPage
  rw [hcreate]
  exact hret

/-- The holder of a write guard changes the bytes or the flag of its frame. -/
theorem modifyFrame_coherent (change : Frame → Frame) {a : FlatGuard} (h : Coherent w t)
    (hi : w.guards[i]? = some ⟨f, .write⟩) (ha : t.guards[i]? = some a)
    (hchange : ∀ fr, (change fr).pageId = fr.pageId ∧ (change fr).pinCount = fr.pinCount ∧
      (change fr).readers = fr.readers ∧ (change fr).writer = fr.writer) :
    Coherent ⟨w.bpm.modifyFrame f change, w.guards⟩
      { t with guards := t.guards.set i { a with bytes := (change (w.bpm.frames f)).data } } := by
  have hs := h.views.shows i _ _ hi ha
  have hp : w.bpm.pageTable a.page = some f := (h.pool.table _ f).mpr hs.page
  have hguard : ⟨f, .write⟩ ∈ w.guards := List.mem_of_getElem? hi
  have hlocked : Locked (w.bpm.modifyFrame f change) [] w.guards := by
    refine h.locked.congr fun g => ?_
    by_cases hg : g = f
    · subst hg
      rw [modifyFrame_self]
      exact (hchange _).2
    · rw [modifyFrame_of_ne hg]
      exact ⟨rfl, rfl, rfl⟩
  constructor
  case pool =>
    exact Touched.inv h.pool (touched_modifyFrame h.pool hp (hchange _).1 (hchange _).2.1) hp
      (fun _ _ => rfl) (fun _ _ => Iff.rfl) hlocked.canWrite (fun hg => hlocked.pinCount_ne_zero hg)
      fun hg => absurd hguard hg
  case locked => exact hlocked
  case views =>
    constructor
    case length =>
      rw [List.length_set]
      exact h.views.length
    case shows =>
      intro j g c hj hc
      dsimp only at hc
      rw [List.getElem?_set] at hc
      by_cases hij : i = j
      · subst hij
        obtain rfl : (⟨f, .write⟩ : Guard n) = g := Option.some.inj (hi.symm.trans hj)
        obtain ⟨hlt, -⟩ := List.getElem?_eq_some_iff.mp ha
        rw [if_pos rfl, if_pos hlt] at hc
        cases hc
        refine ⟨?_, hs.mode, ?_⟩
        · rw [modifyFrame_self, (hchange _).1]
          exact hs.page
        · rw [modifyFrame_self]
      · rw [if_neg hij] at hc
        have hframe : g.frame ≠ f := fun hg => hij (h.locked.alone i j _ g hi hj hg.symm rfl)
        have hshows := h.views.shows j g c hj hc
        constructor
        case page =>
          rw [modifyFrame_of_ne hframe]
          exact hshows.page
        case mode => exact hshows.mode
        case bytes =>
          rw [modifyFrame_of_ne hframe]
          exact hshows.bytes

theorem Views.dropped (h : Views w t) (i : ℕ) (g : Guard n) (bytes : PageId → Page) :
    Views ⟨RarmDb.dropped w.bpm g, w.guards.eraseIdx i⟩ ⟨bytes, t.guards.eraseIdx i⟩ := by
  have hviews : Views ⟨RarmDb.dropped w.bpm g, w.guards⟩ t := by
    refine h.congr fun c _ => ?_
    rw [dropped_frames]
    by_cases hc : c.frame = g.frame
    · rw [hc, Function.update_self]
      cases g.mode <;> exact ⟨rfl, rfl⟩
    · rw [Function.update_of_ne hc]
      exact ⟨rfl, rfl⟩
  exact hviews.eraseIdx i bytes

/-- A dropped write guard leaves its bytes to its page; a dropped read guard leaves all as it was. -/
theorem dropped_coherent {a : FlatGuard} (h : Coherent w t) (hi : w.guards[i]? = some g)
    (ha : t.guards[i]? = some a) (hdirty : g.mode = .write → (w.bpm.frames g.frame).isDirty = true) :
    Coherent ⟨dropped w.bpm g, w.guards.eraseIdx i⟩ (t.dropGuard i a) := by
  have hs := h.views.shows i g a hi ha
  have hguard := List.mem_of_getElem? hi
  have hp : w.bpm.pageTable a.page = some g.frame := (h.pool.table _ _).mpr hs.page
  have hlocked := (h.locked.eraseIdx hi).2
  have hself : ((dropped w.bpm g).frames g.frame).data = (w.bpm.frames g.frame).data ∧
      ((dropped w.bpm g).frames g.frame).isDirty = (w.bpm.frames g.frame).isDirty := by
    rw [dropped_frames, Function.update_self]
    cases g.mode <;> exact ⟨rfl, rfl⟩
  have hmem : ∀ f, f ≠ g.frame → ((⟨f, .write⟩ : Guard n) ∈ w.guards.eraseIdx i ↔
      ⟨f, .write⟩ ∈ w.guards) := by
    intro f hf
    rw [List.mem_eraseIdx_iff_getElem?, List.mem_iff_getElem?]
    refine ⟨fun ⟨j, _, hj⟩ => ⟨j, hj⟩, fun ⟨j, hj⟩ => ⟨j, ?_, hj⟩⟩
    rintro rfl
    cases hi.symm.trans hj
    exact hf rfl
  constructor
  case pool =>
    refine Touched.inv h.pool (touched_dropped h.pool (h.locked.pinCount_ne_zero hguard)) hp ?_ hmem
      hlocked.canWrite (fun hg => hlocked.pinCount_ne_zero (g := ⟨g.frame, .write⟩) hg) ?_
    · intro q hq
      unfold FlatStore.dropGuard
      dsimp only
      split_ifs
      · exact Function.update_of_ne hq ..
      · rfl
    · intro hnot
      unfold FlatStore.dropGuard
      dsimp only
      rw [hself.1, hself.2, ← hs.mode]
      by_cases hm : g.mode = .write
      · rw [if_pos hm, Function.update_self]
        refine ⟨hs.bytes, fun hd => ?_⟩
        rw [hdirty hm] at hd
        cases hd
      · rw [if_neg hm]
        have hread : ⟨g.frame, .write⟩ ∉ w.guards := by
          intro hg
          obtain ⟨j, hj⟩ := List.mem_iff_getElem?.mp hg
          obtain rfl := h.locked.alone j i _ g hj hi rfl rfl
          have hg : g = ⟨g.frame, .write⟩ := Option.some.inj (hi.symm.trans hj)
          exact hm (congrArg Guard.mode hg)
        exact ⟨h.pool.data _ _ hp hread, h.pool.clean _ _ hp hread⟩
  case locked => exact hlocked
  case views => exact h.views.dropped ..

/-! ## Runs -/

/-- **One operation.** -/
theorem run_coherent {op : PoolOp} (h : Coherent w t) (hlegal : op.Legal w) (hfresh : op.Fresh w) :
    ∃ o w' t', w.run Faults.none op = .ret (o, w') ∧ FlatStep op o t t' ∧ Coherent w' t' := by
  cases op with
  | createPage tableId =>
    obtain ⟨p, bytes, w', hrun, hp, hcoherent⟩ := createPage_coherent h hlegal hfresh
    exact ⟨_, w', _, hrun, ⟨hp, rfl⟩, hcoherent⟩
  | fetchPage p mode =>
    obtain ⟨w', hrun, hcoherent⟩ := fetchPage_coherent h hlegal
    exact ⟨_, w', _, hrun, ⟨rfl, rfl, rfl⟩, hcoherent⟩
  | load i =>
    have hi := List.getElem?_eq_getElem hlegal
    obtain ⟨a, ha, hs⟩ := h.views.exists hi
    refine ⟨.bytes a.bytes, w, t, ?_, ⟨⟨a, ha, rfl⟩, rfl⟩, h⟩
    unfold PoolWorld.run
    dsimp only
    rw [hi, ← hs.bytes]
  | store i bytes =>
    obtain ⟨⟨f, _⟩, hi, rfl⟩ := hlegal
    rw [Option.mem_def] at hi
    obtain ⟨a, ha, -⟩ := h.views.exists hi
    refine ⟨.done, _, _, ?_, ⟨a, ha, rfl⟩,
      modifyFrame_coherent (fun fr => { fr with data := bytes }) h hi ha ?_⟩
    · unfold PoolWorld.run
      dsimp only
      rw [hi]
    · intro fr
      exact ⟨rfl, rfl, rfl, rfl⟩
  | markDirty i =>
    obtain ⟨⟨f, _⟩, hi, rfl⟩ := hlegal
    rw [Option.mem_def] at hi
    obtain ⟨a, ha, hs⟩ := h.views.exists hi
    have hcoherent := modifyFrame_coherent (fun fr => { fr with isDirty := true }) h hi ha
      fun fr => ⟨rfl, rfl, rfl, rfl⟩
    have hsame : t.guards.set i { a with bytes := (w.bpm.frames f).data } = t.guards := by
      obtain ⟨hlt, rfl⟩ := List.getElem?_eq_some_iff.mp ha
      rw [hs.bytes]
      exact List.set_getElem_self hlt
    rw [hsame] at hcoherent
    refine ⟨.done, _, t, ?_, rfl, hcoherent⟩
    unfold PoolWorld.run
    dsimp only
    rw [hi]
  | drop i =>
    obtain ⟨g, hi, hdirty⟩ := hlegal
    rw [Option.mem_def] at hi
    obtain ⟨a, ha, hs⟩ := h.views.exists hi
    have hcoherent := dropped_coherent h hi ha hdirty
    have hrun : w.run Faults.none (.drop i) =
        .ret (.done, ⟨dropped w.bpm g, w.guards.eraseIdx i⟩) := by
      unfold PoolWorld.run
      dsimp only
      rw [hi]
      dsimp only
      rw [(h.locked.eraseIdx hi).1]
      rfl
    exact ⟨.done, _, _, hrun, ⟨a, ha, rfl⟩, hcoherent⟩

/-- **The pool is a flat page store.** A run of legal operations, in which every new page is new to
the disk, returns, and every operation sees and changes the bytes of its page only. -/
theorem pool_refines_flat_store (n : ℕ) (d : Disk) (ops : List PoolOp)
    (hok : AdmittedRun (PoolWorld.run Faults.none) (fun w op => op.Legal w ∧ op.Fresh w)
      (PoolWorld.init n d) ops) :
    ∃ run, trace (PoolWorld.run Faults.none) (PoolWorld.init n d) ops = .ret run ∧
      Simulates Views FlatStep ⟨d.pages, []⟩ ops run := by
  refine simulates_trace (I := Coherent) (fun _ _ h => h.views) ?_ hok ?_
  · rintro w t op ⟨hlegal, hfresh⟩ h
    exact run_coherent h hlegal hfresh
  · constructor
    case pool => exact poolInv_new n d fun f => List.not_mem_nil
    case locked =>
      constructor
      case pins | readers => exact fun _ => rfl
      case writer => exact fun f => ⟨fun h => (by cases h), fun h => (by cases h)⟩
      case alone =>
        intro i j g h hg
        cases hg
    case views => exact ⟨rfl, fun i g a hg => by cases hg⟩

/-- A pool with one frame: a write is evicted by a new page, and fetched again. -/
theorem pool_refines_flat_store_one :
    ∃ run, trace (PoolWorld.run Faults.none)
      (PoolWorld.init 1 (Disk.ofFiles (fun _ => Buffer.const 8192 0) fun _ => 2))
      [.fetchPage ⟨1, 0⟩ .write, .store 0 (Buffer.const 8192 1), .markDirty 0, .drop 0, .createPage 1,
        .markDirty 0, .drop 0, .fetchPage ⟨1, 0⟩ .read] = .ret run ∧
      Simulates Views FlatStep ⟨fun _ => Buffer.const 8192 0, []⟩
        [.fetchPage ⟨1, 0⟩ .write, .store 0 (Buffer.const 8192 1), .markDirty 0, .drop 0, .createPage 1,
          .markDirty 0, .drop 0, .fetchPage ⟨1, 0⟩ .read] run :=
  pool_refines_flat_store 1 (Disk.ofFiles (fun _ => Buffer.const 8192 0) fun _ => 2) _
    (by decide +kernel)

/-! ## The page index wraps around -/

/-- A table with all `2 ^ 32` pages. The next index is `0` again. -/
def fullTable : Disk := Disk.ofFiles (fun _ => Buffer.const 8192 0) fun _ => 2 ^ 32

/-- The page `0` is cached, and created once more in another frame. The old frame is evicted first and
takes the page out of the page table. -/
def wrapOps : List PoolOp :=
  [.fetchPage ⟨1, 7⟩ .read, .fetchPage ⟨1, 0⟩ .read, .fetchPage ⟨1, 8⟩ .read, .drop 0, .drop 0, .drop 0,
    .createPage 1, .store 0 (Buffer.const 8192 1), .markDirty 0, .drop 0, .fetchPage ⟨1, 5⟩ .read,
    .fetchPage ⟨1, 0⟩ .read]

/-- The last fetch does not see the bytes that the write guard left. -/
theorem wrapped_index_loses_bytes :
    AdmittedRun (PoolWorld.run Faults.none) PoolOp.Legal (PoolWorld.init 3 fullTable) wrapOps ∧
      ∃ run, trace (PoolWorld.run Faults.none) (PoolWorld.init 3 fullTable) wrapOps = .ret run ∧
        ¬ Simulates Views FlatStep ⟨fullTable.pages, []⟩ wrapOps run := by
  refine ⟨by decide +kernel, _, rfl, ?_⟩
  rintro ⟨_, ⟨-, -, rfl⟩, -, _, ⟨-, -, rfl⟩, -, _, ⟨-, -, rfl⟩, -, _, ⟨_, ⟨⟩, rfl⟩, -, _, ⟨_, ⟨⟩, rfl⟩, -,
    _, ⟨_, ⟨⟩, rfl⟩, -, hrest⟩
  obtain ⟨_, ⟨-, rfl⟩, -, _, ⟨_, ⟨⟩, rfl⟩, -, _, ⟨⟩, -, _, ⟨_, ⟨⟩, rfl⟩, -, _, ⟨-, -, rfl⟩, -, _,
    ⟨-, hbytes, -⟩, -, -⟩ := hrest
  have hfirst := congrArg (fun bytes : Page => bytes.get 0) hbytes
  revert hfirst
  decide +kernel

end RarmDb
