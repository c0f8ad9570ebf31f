import RarmDb.Pool.Effect

/-!
# Pages that do not exist

* `Tabled`: the page table is the inverse of the frames, and the pages in it are on disk;
* `PoolCall.Guarded`: a fetch of a page that is not on disk fails and changes nothing, no page is in two
  frames, and only the entry of the frame that is taken is removed;
* `PoolCall.Existing`: what a caller would have to keep to; **`guarded_iff_existing`**: a run is guarded
  exactly when all its calls do.
-/

namespace RarmDb

open BufferPoolManager

variable {n : ℕ}

namespace PoolCall

/-- The page to fetch is not on disk. -/
def Unallocated (w : PoolWorld n) : PoolOp → Prop
  | .fetchPage p _ => w.bpm.diskManager.stored p = false
  | _ => False

/-- **A page that does not exist is not cached**, no page is in two frames, and an eviction removes the
entry of its own frame. -/
structure Guarded (c : PoolCall n) : Prop where
  refused : Unallocated c.w c.op → (∃ e, c.out = .error e) ∧ c.w' = c.w
  alone : ∀ p f g, (c.w'.bpm.frames f).pageId = some p → (c.w'.bpm.frames g).pageId = some p → f = g
  own : ∀ q g, c.w.bpm.pageTable q = some g → c.w'.bpm.pageTable q ≠ some g → c.w.bpm.nextFrame = some g

/-- A page to fetch is on disk, or there is no frame for it; a new page has no frame, or the one that
it is given. -/
def Existing (c : PoolCall n) : Prop :=
  match c.op with
  | .fetchPage p _ => c.w.bpm.diskManager.stored p = true ∨ c.w.bpm.nextFrame = none
  | .createPage tableId =>
    (c.io.writeAt (c.w.bpm.diskManager.nextPage tableId)).isSome = true ∨
      c.w.bpm.pageTable (c.w.bpm.diskManager.nextPage tableId) = none ∨
        c.w.bpm.pageTable (c.w.bpm.diskManager.nextPage tableId) = c.w.bpm.nextFrame
  | _ => True

end PoolCall

open PoolCall

/-! ## The page table and the frames -/

/-- The page table is the inverse of the frames, and its pages are on disk. -/
structure Tabled (b : BufferPoolManager n) : Prop where
  table : ∀ p f, b.pageTable p = some f ↔ (b.frames f).pageId = some p
  stored : ∀ p f, b.pageTable p = some f → b.diskManager.stored p = true

namespace Tabled

variable {b b' : BufferPoolManager n} {f : Fin n} {p q : PageId}

theorem alone (h : Tabled b) (f g : Fin n) (hf : (b.frames f).pageId = some p)
    (hg : (b.frames g).pageId = some p) : f = g :=
  Option.some.inj (((h.table p f).mpr hf).symm.trans ((h.table p g).mpr hg))

theorem congr (h : Tabled b) (htable : b'.pageTable = b.pageTable)
    (hid : ∀ f, (b'.frames f).pageId = (b.frames f).pageId)
    (hstored : ∀ q, b.diskManager.stored q = true → b'.diskManager.stored q = true) : Tabled b' where
  table q g := by rw [htable, hid, h.table]
  stored q g hq := hstored q (h.stored q g (by rwa [← htable]))

theorem assigned (h : Tabled b) (ha : Assigned b b' f p)
    (hp : b.pageTable p = none ∨ b.pageTable p = some f) (hstored : b'.diskManager.stored p = true) :
    Tabled b' := by
  have hother : ∀ g, g ≠ f → b.pageTable p ≠ some g := by
    intro g hg hpg
    rcases hp with hnone | hsome
    · cases hnone.symm.trans hpg
    · exact hg (Option.some.inj (hpg.symm.trans hsome))
  constructor
  case table =>
    intro q g
    rw [ha.table]
    by_cases hg : g = f
    · subst hg
      rw [ha.pageId]
      by_cases hq : q = p
      · subst hq
        simp
      · rw [if_neg hq]
        refine iff_of_false ?_ fun hpq => hq (Option.some.inj hpq).symm
        split_ifs with hold
        · exact nofun
        · exact fun hqg => hold ((h.table q g).mp hqg)
    · rw [ha.frames g hg, ← h.table q g]
      by_cases hq : q = p
      · subst hq
        rw [if_pos rfl]
        exact iff_of_false (fun hfg => hg (Option.some.inj hfg).symm) (hother g hg)
      · rw [if_neg hq]
        split_ifs with hold
        · refine iff_of_false nofun fun hqg => hg ?_
          exact Option.some.inj (hqg.symm.trans ((h.table q f).mpr hold))
        · rfl
  case stored =>
    intro q g hqg
    rw [ha.table] at hqg
    split_ifs at hqg with hq
    · rw [hq, hstored]
    · exact ha.stored q (h.stored q g hqg)

theorem own (h : Tabled b) (ha : Assigned b b' f p)
    (hp : b.pageTable p = none ∨ b.pageTable p = some f) {g : Fin n} (hqg : b.pageTable q = some g)
    (hgone : b'.pageTable q ≠ some g) : g = f := by
  rw [ha.table] at hgone
  split_ifs at hgone with hq hold
  · subst hq
    rcases hp with hnone | hsome
    · cases hnone.symm.trans hqg
    · exact Option.some.inj (hqg.symm.trans hsome)
  · exact Option.some.inj (hqg.symm.trans ((h.table q f).mpr hold))
  · exact absurd hqg hgone

theorem not_alone (h : Tabled b) (ha : Assigned b b' f p) {g : Fin n} (hp : b.pageTable p = some g)
    (hg : g ≠ f) (halone : ∀ f g, (b'.frames f).pageId = some p → (b'.frames g).pageId = some p → f = g) :
    False := by
  refine hg (halone g f ?_ ha.pageId)
  rw [ha.frames g hg]
  exact (h.table p g).mp hp

end Tabled

/-! ## One call -/

/-- A call is guarded exactly when it keeps to what exists, and then so does the table. -/
def GuardedIff (c : PoolCall n) : Prop :=
  (Existing c → Tabled c.w'.bpm ∧ Guarded c) ∧ (Guarded c → Existing c)

section Call

variable {w w' : PoolWorld n} {io : Faults} {op : PoolOp} {out : PoolOut} {p : PageId} {f : Fin n}
  {mode : Mode} {tableId : UInt32}

theorem guardedIff_of_same (h : Tabled w.bpm) (hop : ¬ Unallocated w op)
    (hexisting : Existing ⟨w, io, op, out, w'⟩) (htable : w'.bpm.pageTable = w.bpm.pageTable)
    (hid : ∀ f, (w'.bpm.frames f).pageId = (w.bpm.frames f).pageId)
    (hstored : ∀ q, w.bpm.diskManager.stored q = true → w'.bpm.diskManager.stored q = true) :
    GuardedIff ⟨w, io, op, out, w'⟩ := by
  have ht := h.congr htable hid hstored
  refine ⟨fun _ => ⟨ht, fun hu => absurd hu hop, fun p => ht.alone, ?_⟩, fun _ => hexisting⟩
  intro q g hq hgone
  dsimp only at hgone
  rw [htable] at hgone
  exact absurd hq hgone

/-- A call that gave the next frame to a page that no other frame has. -/
theorem guarded_of_assigned (h : Tabled w.bpm) (hop : ¬ Unallocated w op)
    (hnext : w.bpm.nextFrame = some f) (ha : Assigned w.bpm w'.bpm f p)
    (hp : w.bpm.pageTable p = none ∨ w.bpm.pageTable p = some f)
    (hstored : w'.bpm.diskManager.stored p = true) :
    Tabled w'.bpm ∧ Guarded ⟨w, io, op, out, w'⟩ := by
  have ht := h.assigned ha hp hstored
  refine ⟨ht, fun hu => absurd hu hop, fun p => ht.alone, fun q g hq hgone => ?_⟩
  rw [h.own ha hp hq hgone]
  exact hnext

theorem guardedIff_fetch (h : Tabled w.bpm) (hp : w.bpm.pageTable p = none)
    (hnext : w.bpm.nextFrame = some f) (ha : Assigned w.bpm w'.bpm f p) :
    GuardedIff ⟨w, io, .fetchPage p mode, out, w'⟩ := by
  constructor
  · rintro (hstored | hnone)
    · have hop : ¬ Unallocated w (.fetchPage p mode) := fun hu => (by cases hu.symm.trans hstored)
      exact guarded_of_assigned h hop hnext ha (.inl hp) (ha.stored p hstored)
    · cases hnext.symm.trans hnone
  · intro hg
    cases hstored : w.bpm.diskManager.stored p with
    | true => exact .inl hstored
    | false =>
      obtain ⟨-, hsame⟩ := hg.refused hstored
      have hpin := ha.pinCount
      dsimp only at hsame
      rw [hsame, ha.unpinned] at hpin
      cases hpin

theorem guardedIff_create (h : Tabled w.bpm) (hp : w.bpm.diskManager.nextPage tableId = p)
    (hw : io.writeAt p = none) (hnext : w.bpm.nextFrame = some f) (ha : Assigned w.bpm w'.bpm f p)
    (hstored : w'.bpm.diskManager.stored p = true) :
    GuardedIff ⟨w, io, .createPage tableId, out, w'⟩ := by
  subst hp
  constructor
  · rintro (hsome | hnone | heq)
    · dsimp only at hsome
      rw [hw] at hsome
      cases hsome
    · exact guarded_of_assigned h id hnext ha (.inl hnone) hstored
    · exact guarded_of_assigned h id hnext ha (.inr (heq.trans hnext)) hstored
  · intro hg
    cases hp : w.bpm.pageTable (w.bpm.diskManager.nextPage tableId) with
    | none => exact .inr (.inl hp)
    | some g =>
      by_cases hgf : g = f
      · subst hgf
        exact .inr (.inr (hp.trans hnext.symm))
      · exact (h.not_alone ha hp hgf (hg.alone _)).elim

/-- **A call is guarded exactly when it keeps to what exists**, and then so does the table. -/
theorem run_guarded (hs : Sane w) (h : Tabled w.bpm) (hrun : w.run io op = .ret (out, w')) :
    GuardedIff ⟨w, io, op, out, w'⟩ := by
  cases run_effect hs hrun with
  | @hit p f mode hp =>
    have hstored := h.stored p f hp
    have hop : ¬ Unallocated w (.fetchPage p mode) := fun hu => (by cases hu.symm.trans hstored)
    refine guardedIff_of_same h hop (.inl hstored) ?_
      (fun g => (sameBytes_lock _ f mode g).1.trans (sameBytes_pinFrame w.bpm f g).1) ?_
    all_goals rw [pinFrame_eq]
    · rfl
    · exact fun _ hq => hq
  | full _ hnext =>
    refine ⟨fun _ => ⟨h, fun _ => ⟨⟨_, rfl⟩, rfl⟩, fun p => h.alone, ?_⟩, fun _ => .inr hnext⟩
    exact fun q g hq hgone => absurd hq hgone
  | failed hp hnext ho _ hmissed => exact guardedIff_fetch h hp hnext (hmissed.assigned ho)
  | missed hp hnext ho _ hmissed =>
    exact guardedIff_fetch h hp hnext ((hmissed.assigned ho).lock _)
  | unallocated hw =>
    exact guardedIff_of_same h id (.inl (by rw [hw]; rfl)) rfl (fun _ => rfl) fun _ hq => hq
  | uncreated hp hw hnext ho _ hcreated =>
    exact guardedIff_create h hp hw hnext (hcreated.assigned ho) (hcreated.stored ho)
  | created hp hw hnext ho _ hcreated =>
    have hstored := hcreated.stored ho
    exact guardedIff_create h hp hw hnext ((hcreated.assigned ho).lock .write) hstored
  | load => exact guardedIff_of_same h id trivial rfl (fun _ => rfl) fun _ hq => hq
  | store | markDirty =>
    refine guardedIff_of_same h id trivial rfl (fun g => ?_) fun _ hq => hq
    dsimp only
    rw [modifyFrame_pageId]
    exact fun _ => rfl
  | @drop i g =>
    refine guardedIff_of_same h id trivial ?_ (fun f => (sameBytes_dropped w.bpm g f).1) ?_
    all_goals rw [dropped_eq]
    exact fun _ hq => hq

end Call

/-! ## Runs -/

theorem tabled_new (n : ℕ) (d : Disk) : Tabled (BufferPoolManager.new n d) where
  table p f := iff_of_false nofun nofun
  stored p f hp := by cases hp

/-- **A run is guarded against pages that do not exist** exactly when every fetched page is on disk or
finds no frame, and no new page is in the page table already. -/
theorem guarded_iff_existing {d : Disk} {calls : List (PoolCall n)} {w : PoolWorld n}
    (h : PoolRun (PoolWorld.init n d) calls w) :
    (∀ c ∈ calls, Guarded c) ↔ ∀ c ∈ calls, Existing c := by
  suffices hboth : ((∀ c ∈ calls, Existing c) → Tabled w.bpm ∧ ∀ c ∈ calls, Guarded c) ∧
      ((∀ c ∈ calls, Guarded c) → ∀ c ∈ calls, Existing c) from
    ⟨hboth.2, fun he => (hboth.1 he).2⟩
  induction h with
  | nil => exact ⟨fun _ => ⟨tabled_new n d, nofun⟩, fun _ => nofun⟩
  | snoc run step ih =>
    simp only [List.forall_mem_append, List.forall_mem_singleton]
    constructor
    · rintro ⟨hcalls, hlast⟩
      obtain ⟨ht, hguarded⟩ := ih.1 hcalls
      obtain ⟨ht', hlast'⟩ := (run_guarded run.sane ht step).1 hlast
      exact ⟨ht', hguarded, hlast'⟩
    · rintro ⟨hcalls, hlast⟩
      have hexisting := ih.2 hcalls
      exact ⟨hexisting, (run_guarded run.sane (ih.1 hexisting).1 step).2 hlast⟩

/-- The first page is created, released and fetched. -/
theorem guarded_iff_existing_created : ∃ calls w, PoolRun (PoolWorld.init 2 emptyTable) calls w ∧
    calls.map op = [.createPage 1, .drop 0, .fetchPage ⟨1, 0⟩ .read] ∧
      ((∀ c ∈ calls, Guarded c) ↔ ∀ c ∈ calls, Existing c) := by
  have hrun := ((PoolRun.nil.snoc
    (rfl : (PoolWorld.init 2 emptyTable).run Faults.none (.createPage 1) = .ret _)).snoc
    (rfl : PoolWorld.run Faults.none _ (.drop 0) = .ret _)).snoc
    (rfl : PoolWorld.run Faults.none _ (.fetchPage ⟨1, 0⟩ .read) = .ret _)
  exact ⟨_, _, hrun, rfl, guarded_iff_existing hrun⟩

/-- The first page is fetched before it exists: the fetch returns a guard, and `create_page` then gives
the page a second frame. -/
theorem fetch_caches_unallocated : ∃ calls w, PoolRun (PoolWorld.init 2 emptyTable) calls w ∧
    calls.map op = [.fetchPage ⟨1, 0⟩ .read, .drop 0, .createPage 1] ∧
      (∃ c ∈ calls, Unallocated c.w c.op ∧ ¬ ∃ e, c.out = .error e) ∧
        (w.bpm.frames 0).pageId = some ⟨1, 0⟩ ∧ (w.bpm.frames 1).pageId = some ⟨1, 0⟩ ∧
          ¬ ∀ c ∈ calls, Guarded c := by
  have hrun := ((PoolRun.nil.snoc
    (rfl : (PoolWorld.init 2 emptyTable).run Faults.none (.fetchPage ⟨1, 0⟩ .read) = .ret _)).snoc
    (rfl : PoolWorld.run Faults.none _ (.drop 0) = .ret _)).snoc
    (rfl : PoolWorld.run Faults.none _ (.createPage 1) = .ret _)
  refine ⟨_, _, hrun, rfl, ⟨_, List.mem_append_left _ (List.mem_append_left _ (List.mem_singleton_self _)),
    rfl, nofun⟩, rfl, rfl, fun hg => ?_⟩
  have hlast := hg _ (List.mem_append_right _ (List.mem_singleton_self _))
  exact absurd (hlast.alone ⟨1, 0⟩ 0 1 rfl rfl) (by decide)

end RarmDb
