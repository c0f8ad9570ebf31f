import RarmDb.Lib.Ghost
import RarmDb.Tasks.Latest

/-!
# What the pool costs

* `Traffic`: the pages that calls have looked for, how often each page was evicted, and the reads and writes of the
  disk that the pool has tried;
* `Move.pageTable`: what a step does to the page table; `Move.willRead`, `Move.willWrite`: reads and writes that are
  still to come;
* **`light_traffic`**: a page is read once more than it was evicted at most, and written as often as it was evicted;
  and nothing is evicted while the pages in use fit into the pool.
-/

namespace RarmDb

open BufferPoolManager

variable {n : ℕ} {τ : Type}

/-! ## Reads and writes to come -/

namespace Pc

/-- The page that a call looks for. -/
def asks : Pc n → Option PageId
  | lookup p _ | enter p => some p
  | _ => none

/-- The new page for which `create_page` is about to lock the page table. -/
def entering : Pc n → Option PageId
  | enter p => some p
  | _ => none

/-- The page that a section enters in the page table. -/
def maps : Pc n → Option PageId
  | register p .. | release (.create p _) _ => some p
  | _ => none

/-- The page that is read, or was tried to. -/
def readsPage : Pc n → Option PageId
  | reading l => some l.page
  | _ => none

/-- The page that is written, or was tried to. -/
def writesPage : Pc n → Option PageId
  | writing _ v _ | createFlush _ _ v _ => some v
  | _ => none

/-- The page that the task is going to read. -/
def willRead : Pc n → Option PageId
  | pin site _ | remove site _ | release site _ => site.loads
  | waitFlush l | recvFlush l _ | issueRead l | reading l => some l.page
  | _ => none

/-- The page that the task is going to write. -/
def willWrite (pc : Pc n) : Option PageId := pc.unwritten.map Prod.fst

/-- The page of the section of a task. -/
def serves (pc : Pc n) : Option PageId := if pc.inSection then pc.wants else none

/-- The page that the section of `create_page` is for. -/
def creates : Pc n → Option PageId
  | take (.create p) | evict (.create p) _ | pin (.create p _) _ | remove (.create p _) _
  | release (.create p _) _ => some p
  | _ => none

end Pc

/-- What calls have looked for so far, and what it has cost. -/
structure Traffic where
  used : Finset PageId
  evictions : PageId → ℕ
  reads : PageId → ℕ
  writes : PageId → ℕ

namespace Traffic

/-- Nothing has happened. -/
def init : Traffic := ⟨∅, fun _ => 0, fun _ => 0, fun _ => 0⟩

/-- One more for the page. -/
def count (k : PageId → ℕ) (page : Option PageId) (p : PageId) : ℕ := k p + if page = some p then 1 else 0

end Traffic

/-- What a task is going to do for a page: it still is, it never will, it did it, or it has just taken it on. -/
inductive Pending (old new done begun : Option PageId) : Prop
  | keep (hnew : new = old) (hdone : done = none)
  | drop (hnew : new = none) (hdone : done = none)
  | finish (hnew : new = none) (hdone : done = old)
  | begin (hnew : new = begun) (hdone : done = none)

theorem Pending.le {old new done begun : Option PageId} (h : Pending old new done begun) (p : PageId) :
    (decide (new = some p)).toNat + (if done = some p then 1 else 0) ≤
      (decide (old = some p)).toNat + if begun = some p then 1 else 0 := by
  have hnat : ∀ o : Option PageId, (decide (o = some p)).toNat = if o = some p then 1 else 0 := fun o => by
    split_ifs with ho <;> simp [ho]
  rw [hnat, hnat]
  cases h with
  | keep hnew hdone | drop hnew hdone | finish hnew hdone | begin hnew hdone =>
    rw [hnew, hdone]
    simp

namespace World

/-- When `create_page` locks the page table, its new page is not in it. -/
def EntersNew (w : World n τ) (t : τ) : Prop := ∀ p ∈ (w.tasks t).entering, w.bpm.pageTable p = none

instance (w : World n τ) (t : τ) : Decidable (EntersNew w t) :=
  inferInstanceAs (Decidable (∀ p ∈ (w.tasks t).entering, _))

variable [DecidableEq τ] {w w' : World n τ} {t u : τ} {c : Choice} {p q v : PageId} {f : Fin n}

/-- The page that the task is about to unmap. -/
def unmaps (w : World n τ) (t : τ) : Option PageId :=
  match w.tasks t with
  | .evict _ f => (w.bpm.frames f).pageId
  | _ => none

omit [DecidableEq τ] in
theorem unmaps_eq_some : w.unmaps t = some v ↔ ∃ r f, w.tasks t = .evict r f ∧ (w.bpm.frames f).pageId = some v := by
  unfold unmaps
  constructor
  · intro h
    split at h
    next r f hpc => exact ⟨r, f, hpc, h⟩
    next => cases h
  · rintro ⟨r, f, hpc, hv⟩
    rw [hpc]
    exact hv

/-- The traffic after a step of the task. -/
def traffic (g : Traffic) (w : World n τ) (t : τ) : Traffic where
  used := match (w.tasks t).asks with
    | some p => insert p g.used
    | none => g.used
  evictions := Traffic.count g.evictions (w.unmaps t)
  reads := Traffic.count g.reads (w.tasks t).readsPage
  writes := Traffic.count g.writes (w.tasks t).writesPage

/-- **What a step does to the page table.** -/
theorem Move.pageTable (hm : Move w t c w') :
    w'.bpm.pageTable = w.bpm.pageTable ∧ w.unmaps t = none ∧ (w.tasks t).maps = none ∨
      (∃ v, w.unmaps t = some v ∧ (w.tasks t).maps = none ∧
        w'.bpm.pageTable = Function.update w.bpm.pageTable v none) ∨
      ∃ p f, w.unmaps t = none ∧ (w.tasks t).maps = some p ∧
        w'.bpm.pageTable = Function.update w.bpm.pageTable p (some f) := by
  have hquiet : ∀ {pc}, w.tasks t = pc → (∀ r f, pc ≠ .evict r f) → pc.maps = none →
      w'.bpm.pageTable = w.bpm.pageTable →
      w'.bpm.pageTable = w.bpm.pageTable ∧ w.unmaps t = none ∧ (w.tasks t).maps = none := by
    rintro _ rfl hne hmaps hsame
    refine ⟨hsame, ?_, hmaps⟩
    by_contra hunmaps
    obtain ⟨v, hv⟩ := Option.ne_none_iff_exists'.mp hunmaps
    obtain ⟨r, f, hpc, -⟩ := unmaps_eq_some.mp hv
    exact hne r f hpc
  have hmap : ∀ {pc p}, w.tasks t = pc → pc.maps = some p → w.unmaps t = none ∧ (w.tasks t).maps = some p := by
    rintro _ p rfl hmaps
    refine ⟨?_, hmaps⟩
    by_contra hunmaps
    obtain ⟨v, hv⟩ := Option.ne_none_iff_exists'.mp hunmaps
    obtain ⟨r, f, hpc, -⟩ := unmaps_eq_some.mp hv
    rw [hpc] at hmaps
    cases hmaps
  cases hm with
  | @evict p mode f v hpc hv =>
    refine .inr (.inl ⟨v, unmaps_eq_some.mpr ⟨_, _, hpc, hv⟩, by rw [hpc]; rfl, ?_⟩)
    cases image (w.bpm.frames f) v <;> rfl
  | evictCreate hpc hv =>
    exact .inr (.inl ⟨_, unmaps_eq_some.mpr ⟨_, _, hpc, hv⟩, by rw [hpc]; rfl, rfl⟩)
  | @register p mode f img hpc => exact .inr (.inr ⟨p, f, (hmap hpc rfl).1, (hmap hpc rfl).2, rfl⟩)
  | @releaseCreate p f evicted b hpc hb =>
    obtain ⟨b₁, hb₁, rfl⟩ := registerCreated_ret hb
    exact .inr (.inr ⟨p, f, (hmap hpc rfl).1, (hmap hpc rfl).2, rfl⟩)
  | finishFetch hpc => exact .inl (hquiet hpc nofun rfl (by rw [finishFetch_eq]; rfl))
  | finishFlush hpc | createFinish hpc => exact .inl (hquiet hpc nofun rfl (by rw [finishFlush_eq]; rfl))
  | lock hpc hb => exact .inl (hquiet hpc nofun rfl (by rw [lockData_ret hb]; rfl))
  | unlock hpc => exact .inl (hquiet hpc nofun rfl (by rw [unlockData_eq]; rfl))
  | pin hpc => exact .inl (hquiet hpc nofun rfl rfl)
  | _ hpc => exact .inl (hquiet hpc nofun rfl rfl)

/-- **A page is read after it was entered** in the page table, and not twice. -/
theorem Move.willRead (hm : Move w t c w') :
    Pending (w.tasks t).willRead (w'.tasks t).willRead (w.tasks t).readsPage (w.tasks t).maps := by
  cases hm with
  | register hpc =>
    rw [goto_task, hpc]
    exact .begin rfl rfl
  | read hpc | readFault hpc =>
    rw [goto_task, hpc]
    exact .finish rfl rfl
  | pin hpc =>
    rw [goto_task, hpc]
    split_ifs <;> exact .keep rfl rfl
  | releaseMiss hpc =>
    rw [leave_task, hpc]
    exact .keep rfl rfl
  | remove hpc | subscribeFlush hpc | noFlush hpc | recvFlush hpc | issueRead hpc =>
    rw [goto_task, hpc]
    exact .keep rfl rfl
  | hit hpc | miss hpc | enter hpc =>
    rw [enter_task, hpc]
    exact .drop rfl rfl
  | panic hpc =>
    rw [poison_task, hpc]
    exact .drop rfl rfl
  | full hpc | releaseHit hpc =>
    rw [leave_task, hpc]
    exact .drop rfl rfl
  | @releaseCreate p f evicted b hpc =>
    rw [leave_task, hpc]
    rcases evicted.join with - | ⟨v, bytes⟩ <;> exact .drop rfl rfl
  | @takeFree r f rest hpc =>
    rw [goto_task, hpc]
    cases r <;> exact .drop rfl rfl
  | @finishFetch l hpc =>
    rw [goto_task, hpc]
    rcases l.pageDataToFlush with - | ⟨v, bytes⟩ <;> exact .drop rfl rfl
  | unpin hpc | drop hpc =>
    rw [goto_task, hpc]
    split_ifs <;> exact .drop rfl rfl
  | _ hpc =>
    rw [goto_task, hpc]
    exact .drop rfl rfl

/-- **A page is written after it was evicted**, and not twice. -/
theorem Move.willWrite (hm : Move w t c w') :
    Pending (w.tasks t).willWrite (w'.tasks t).willWrite (w.tasks t).writesPage (w.unmaps t) := by
  have himage : ∀ {fr : Frame} {v : PageId}, (image fr v).map Prod.fst = none ∨ (image fr v).map Prod.fst = some v := by
    intro fr v
    unfold image
    split_ifs
    · exact .inr rfl
    · exact .inl rfl
  cases hm with
  | @evict p mode f v hpc hv =>
    have hunmaps : w.unmaps t = some v := unmaps_eq_some.mpr ⟨_, _, hpc, hv⟩
    rw [goto_task, hunmaps, hpc]
    exact himage.elim (fun h => .drop h rfl) fun h => .begin h rfl
  | @evictCreate p f v hpc hv =>
    have hunmaps : w.unmaps t = some v := unmaps_eq_some.mpr ⟨_, _, hpc, hv⟩
    rw [goto_task, hunmaps, hpc]
    exact himage.elim (fun h => .drop h rfl) fun h => .begin h rfl
  | write hpc | writeFault hpc | createWrite hpc | createFault hpc =>
    rw [goto_task, hpc]
    exact .finish rfl rfl
  | pin hpc =>
    rw [goto_task, hpc]
    split_ifs <;> exact .keep rfl rfl
  | releaseMiss hpc =>
    rw [leave_task, hpc]
    exact .keep rfl rfl
  | @releaseCreate p f evicted b hpc =>
    rw [leave_task, hpc]
    rcases evicted with - | - | ⟨v, bytes⟩ <;> exact .keep rfl rfl
  | register hpc | remove hpc | subscribeFlush hpc | noFlush hpc | recvFlush hpc | issueRead hpc | read hpc | copy hpc =>
    rw [goto_task, hpc]
    exact .keep rfl rfl
  | @finishFetch l hpc =>
    have hold : (w.tasks t).willWrite = l.pageDataToFlush.map Prod.fst := by rw [hpc]; rfl
    rw [goto_task, hpc]
    refine .keep (Eq.trans ?_ (hpc ▸ hold).symm) rfl
    rcases l.pageDataToFlush with - | ⟨v, bytes⟩ <;> rfl
  | hit hpc | miss hpc | enter hpc =>
    rw [enter_task, hpc]
    exact .drop rfl rfl
  | panic hpc =>
    rw [poison_task, hpc]
    exact .drop rfl rfl
  | full hpc | releaseHit hpc =>
    rw [leave_task, hpc]
    exact .drop rfl rfl
  | @takeFree r f rest hpc =>
    rw [goto_task, hpc]
    cases r <;> exact .drop rfl rfl
  | unpin hpc | drop hpc =>
    rw [goto_task, hpc]
    split_ifs <;> exact .drop rfl rfl
  | _ hpc =>
    rw [goto_task, hpc]
    exact .drop rfl rfl

/-! ## The invariant -/


variable [Fintype τ]

/-- What has been done and is still to be done for a page. -/
structure TrafficInv (w : World n τ) (g : Traffic) : Prop where
  table : TableProtocol.Inv w.tableState
  creates : ∀ t p, (w.tasks t).creates = some p → w.bpm.pageTable p = none
  reads : ∀ p, g.reads p + (Finset.univ.filter fun t => (w.tasks t).willRead = some p).card ≤
    g.evictions p + (w.bpm.pageTable p).isSome.toNat
  writes : ∀ p, g.writes p + (Finset.univ.filter fun t => (w.tasks t).willWrite = some p).card ≤ g.evictions p
  mapped : ∀ p f, w.bpm.pageTable p = some f → p ∈ g.used
  serves : ∀ t p, (w.tasks t).serves = some p → p ∈ g.used
  evicts : ∀ t r f, w.tasks t = .evict r f → n < g.used.card
  evicted : ∀ p, 0 < g.evictions p → n < g.used.card

variable {g : Traffic}

omit [DecidableEq τ] [Fintype τ] in
theorem used_subset (g : Traffic) (w : World n τ) (t : τ) : g.used ⊆ (traffic g w t).used := by
  unfold traffic
  dsimp only
  split
  · exact Finset.subset_insert ..
  · exact Finset.Subset.refl _

theorem pending_card {P : Pc n → Option PageId} {done begun : Option PageId}
    (htasks : w'.tasks = Function.update w.tasks t (w'.tasks t))
    (h : Pending (P (w.tasks t)) (P (w'.tasks t)) done begun) (p : PageId) :
    (if done = some p then 1 else 0) + (Finset.univ.filter fun u => P (w'.tasks u) = some p).card ≤
      (Finset.univ.filter fun u => P (w.tasks u) = some p).card + if begun = some p then 1 else 0 := by
  have hcard := PinProtocol.card_update w.tasks t (w'.tasks t) fun pc => decide (P pc = some p)
  rw [← htasks] at hcard
  simp only [decide_eq_true_eq] at hcard
  have hle := h.le p
  omega

/-! ## One step -/

theorem tableRole_inSection (pc : Pc n) : pc.tableRole.inSection = pc.inSection := by
  cases pc with
  | pin site f | remove site f | release site f => cases site <;> rfl
  | _ => rfl

theorem inSection_of_maps {pc : Pc n} (h : pc.maps = some p) : pc.inSection = true := by
  cases pc <;> first | rfl | cases h

theorem inSection_of_creates {pc : Pc n} (h : pc.creates = some p) : pc.inSection = true := by
  cases pc <;> first | rfl | cases h

theorem serves_of_maps {pc : Pc n} (h : pc.maps = some p) : pc.serves = some p := by
  cases pc with
  | register => exact h
  | release site f => cases site <;> first | exact h | cases h
  | _ => cases h

omit [Fintype τ] in
theorem pageTable_of_inSection (ht : TableProtocol.Inv w.tableState) (hm : Move w t c w') (hu : u ≠ t)
    (hin : (w.tasks u).inSection = true) : w'.bpm.pageTable = w.bpm.pageTable := by
  have hout : (w.tasks t).inSection = false := by
    rw [← tableRole_inSection] at hin ⊢
    exact ht.sole hin (Ne.symm hu)
  rcases hm.pageTable with ⟨hsame, -⟩ | ⟨v, hv, -⟩ | ⟨p, f, -, hp, -⟩
  · exact hsame
  · obtain ⟨r, f, hpc, -⟩ := unmaps_eq_some.mp hv
    rw [hpc] at hout
    cases hout
  · rw [inSection_of_maps hp] at hout
    cases hout

omit [Fintype τ] in
/-- A task creates a page from the time on when it locks the page table. -/
theorem Move.creates_task (hm : Move w t c w') (hp : (w'.tasks t).creates = some p) :
    (w.tasks t).maps = none ∧ ((w.tasks t).creates = some p ∨ w.tasks t = .enter p) := by
  cases hm with
  | enter hpc =>
    rw [enter_task] at hp
    cases hp
    rw [hpc]
    exact ⟨rfl, .inr rfl⟩
  | panic hpc =>
    rw [poison_task] at hp
    cases hp
  | hit hpc | miss hpc =>
    rw [enter_task] at hp
    cases hp
  | full hpc | releaseHit hpc | releaseMiss hpc =>
    rw [leave_task] at hp
    cases hp
  | releaseCreate hpc =>
    rw [leave_task] at hp
    split at hp <;> cases hp
  | @takeFree r f rest hpc =>
    rw [goto_task] at hp
    rw [hpc]
    cases r <;> cases hp
    exact ⟨rfl, .inl rfl⟩
  | @takeVictim r f evictor hpc =>
    rw [goto_task] at hp
    rw [hpc]
    cases r <;> cases hp
    exact ⟨rfl, .inl rfl⟩
  | evictCreate hpc =>
    rw [goto_task] at hp
    rw [hpc]
    exact ⟨rfl, .inl hp⟩
  | @pin site f hpc =>
    rw [goto_task] at hp
    rw [hpc]
    cases site <;> split_ifs at hp <;> exact ⟨rfl, .inl hp⟩
  | @remove site f hpc =>
    rw [goto_task] at hp
    rw [hpc]
    cases site <;> exact ⟨rfl, .inl hp⟩
  | finishFetch hpc =>
    rw [goto_task] at hp
    split at hp <;> cases hp
  | unpin hpc | drop hpc =>
    rw [goto_task] at hp
    split_ifs at hp <;> cases hp
  | _ hpc =>
    rw [goto_task] at hp
    cases hp

omit [Fintype τ] in
theorem Move.serves_task (hm : Move w t c w') (hp : (w'.tasks t).serves = some p) :
    (w.tasks t).serves = some p ∨ (w.tasks t).asks = some p := by
  cases hm with
  | hit hpc | miss hpc | enter hpc =>
    rw [enter_task] at hp
    rw [hpc]
    exact .inr hp
  | panic hpc =>
    rw [poison_task] at hp
    cases hp
  | full hpc | releaseHit hpc | releaseMiss hpc =>
    rw [leave_task] at hp
    cases hp
  | releaseCreate hpc =>
    rw [leave_task] at hp
    split at hp <;> cases hp
  | @takeFree r f rest hpc =>
    rw [goto_task] at hp
    rw [hpc]
    cases r <;> exact .inl hp
  | takeVictim hpc | evict hpc | evictCreate hpc | register hpc | remove hpc =>
    rw [goto_task] at hp
    rw [hpc]
    exact .inl hp
  | @pin site f hpc =>
    rw [goto_task] at hp
    rw [hpc]
    split_ifs at hp <;> exact .inl hp
  | finishFetch hpc =>
    rw [goto_task] at hp
    split at hp <;> cases hp
  | unpin hpc | drop hpc =>
    rw [goto_task] at hp
    split_ifs at hp <;> cases hp
  | _ hpc =>
    rw [goto_task] at hp
    cases hp

omit [Fintype τ] in
theorem Move.evict_task {r : Request} (hm : Move w t c w') (hf : w'.tasks t = .evict r f) :
    w.tasks t = .take r ∧ w.bpm.freeFrames = [] := by
  cases hm with
  | @takeVictim r f evictor hpc hfree =>
    rw [goto_task] at hf
    cases hf
    exact ⟨hpc, hfree⟩
  | hit hpc | miss hpc | enter hpc =>
    rw [enter_task] at hf
    cases hf
  | panic =>
    rw [poison_task] at hf
    cases hf
  | full hpc | releaseHit hpc | releaseMiss hpc =>
    rw [leave_task] at hf
    cases hf
  | releaseCreate hpc =>
    rw [leave_task] at hf
    split at hf <;> cases hf
  | @takeFree r f rest hpc =>
    rw [goto_task] at hf
    cases r <;> cases hf
  | finishFetch hpc =>
    rw [goto_task] at hf
    split at hf <;> cases hf
  | pin hpc | unpin hpc | drop hpc =>
    rw [goto_task] at hf
    split_ifs at hf
  | _ hpc =>
    rw [goto_task] at hf
    cases hf

/-! ## The invariant is kept -/

namespace TrafficInv

/-- **A victim is evicted for one page too many**: all frames have pages that were looked for, and it is another one. -/
theorem card_used (h : TrafficInv w g) {r : Request} (ht : w.tasks t = .take r) (hfree : w.bpm.freeFrames = []) :
    n < g.used.card := by
  have hin : (w.tableState.role t).inSection = true := by
    change (w.tasks t).tableRole.inSection = true
    rw [ht]
    rfl
  have hfull : ∀ f, ∃ p, w.bpm.pageTable p = some f := by
    intro f
    rcases h.table.placed f with hf | hf | ⟨u, hu⟩
    · exact absurd (hfree ▸ hf : f ∈ []) List.not_mem_nil
    · exact hf
    · by_cases hut : u = t
      · subst hut
        have hnone : (w.tableState.role u).claimed = none := congrArg (fun pc => pc.tableRole.claimed) ht
        exact absurd (hnone.symm.trans hu) nofun
      · exact absurd ((h.table.outside u (h.table.sole hin hut)).1.symm.trans hu) nofun
  choose page hpage using hfull
  have hinj : Function.Injective page := fun f g hfg =>
    Option.some.inj ((hpage f).symm.trans ((congrArg w.bpm.pageTable hfg).trans (hpage g)))
  have hwanted : w.bpm.pageTable r.page = none := by
    cases r with
    | fetch p mode => exact h.table.want t p (congrArg (fun pc => pc.tableRole.want) ht)
    | create p => exact h.creates t p (by rw [ht]; rfl)
  have hnew : r.page ∉ Finset.univ.image page := by
    intro hmem
    obtain ⟨f, -, hf⟩ := Finset.mem_image.mp hmem
    exact absurd ((hf ▸ hpage f).symm.trans hwanted) nofun
  have hsubset : insert r.page (Finset.univ.image page) ⊆ g.used := by
    refine Finset.insert_subset (h.serves t r.page (by rw [ht]; rfl)) fun p hp => ?_
    obtain ⟨f, -, rfl⟩ := Finset.mem_image.mp hp
    exact h.mapped _ f (hpage f)
  have hcard := Finset.card_le_card hsubset
  rw [Finset.card_insert_of_notMem hnew, Finset.card_image_of_injective _ hinj, Finset.card_univ,
    Fintype.card_fin] at hcard
  exact hcard

omit [DecidableEq τ] in
theorem unregistered (h : TrafficInv w g) (t : τ) : Unregistered w t := by
  intro p hp
  obtain ⟨evicted, f, hpc⟩ := registers_eq_some.mp hp
  exact h.creates t p (by rw [hpc]; rfl)

omit [DecidableEq τ] in
theorem unmapped (h : TrafficInv w g) (hp : (w.tasks t).maps = some p) : w.bpm.pageTable p = none := by
  cases hpc : w.tasks t <;> rw [hpc] at hp <;> try cases hp
  case register => exact h.table.want t _ (congrArg (fun pc => pc.tableRole.want) hpc)
  case release site f =>
    refine h.creates t p ?_
    rw [hpc]
    cases site <;> exact hp

omit [DecidableEq τ] in
theorem victim_mapped (h : TrafficInv w g) (hv : w.unmaps t = some v) : ∃ f, w.bpm.pageTable v = some f := by
  obtain ⟨r, f, hpc, hid⟩ := unmaps_eq_some.mp hv
  obtain ⟨q, hq⟩ := h.table.victim t f (congrArg (fun pc => pc.tableRole.victim) hpc)
  obtain rfl : q = v := Option.some.inj ((h.table.table q f hq).symm.trans hid)
  exact ⟨f, hq⟩

theorem entries (h : TrafficInv w g) (hm : Move w t c w') (p : PageId) :
    (w'.bpm.pageTable p).isSome.toNat + (if w.unmaps t = some p then 1 else 0) =
      (w.bpm.pageTable p).isSome.toNat + if (w.tasks t).maps = some p then 1 else 0 := by
  rcases hm.pageTable with ⟨hsame, hunmaps, hmaps⟩ | ⟨v, hunmaps, hmaps, hsame⟩ | ⟨q, f, hunmaps, hmaps, hsame⟩
  · rw [hsame, hunmaps, hmaps]
  · obtain ⟨f, hf⟩ := h.victim_mapped hunmaps
    rw [hsame, hunmaps, hmaps]
    by_cases hpv : p = v
    · subst hpv
      rw [Function.update_self, hf]
      simp
    · rw [Function.update_of_ne hpv, if_neg fun heq => hpv (Option.some.inj heq).symm]
      simp
  · have hnone := h.unmapped hmaps
    rw [hsame, hunmaps, hmaps]
    by_cases hpq : p = q
    · subst hpq
      rw [Function.update_self, hnone]
      simp
    · rw [Function.update_of_ne hpq, if_neg fun heq : some q = some p => hpq (Option.some.inj heq).symm]
      simp

/-- **Every move keeps the invariant.** -/
theorem step (h : TrafficInv w g) (hm : Move w t c w') (hnew : EntersNew w t) : TrafficInv w' (traffic g w t) := by
  have hsub := used_subset g w t
  have hcard := Finset.card_le_card hsub
  have hother : ∀ {u}, u ≠ t → w'.tasks u = w.tasks u := fun hu => hm.tasks_of_ne hu
  constructor
  case table => exact h.table.step (hm.table (h.unregistered t))
  case creates =>
    intro u p hp
    by_cases hu : u = t
    · subst hu
      obtain ⟨hmaps, hp⟩ := hm.creates_task hp
      have hnone : w.bpm.pageTable p = none := hp.elim (h.creates u p) fun hp => hnew p (by rw [hp]; rfl)
      rcases hm.pageTable with ⟨hsame, -⟩ | ⟨v, -, -, hsame⟩ | ⟨q, f, -, hq, -⟩
      · rw [hsame, hnone]
      · rw [hsame]
        by_cases hpv : p = v
        · rw [hpv, Function.update_self]
        · rw [Function.update_of_ne hpv, hnone]
      · cases hmaps.symm.trans hq
    · rw [hother hu] at hp
      rw [pageTable_of_inSection h.table hm hu (inSection_of_creates hp)]
      exact h.creates u p hp
  case reads =>
    intro p
    have hpending := pending_card (P := Pc.willRead) hm.tasks hm.willRead p
    have hentries := h.entries hm p
    have hreads := h.reads p
    unfold traffic Traffic.count
    dsimp only
    omega
  case writes =>
    intro p
    have hpending := pending_card (P := Pc.willWrite) hm.tasks hm.willWrite p
    have hwrites := h.writes p
    unfold traffic Traffic.count
    dsimp only
    omega
  case mapped =>
    intro p f hp
    rcases hm.pageTable with ⟨hsame, -⟩ | ⟨v, -, -, hsame⟩ | ⟨q, f', -, hq, hsame⟩
    · rw [hsame] at hp
      exact hsub (h.mapped p f hp)
    · rw [hsame] at hp
      by_cases hpv : p = v
      · rw [hpv, Function.update_self] at hp
        cases hp
      · rw [Function.update_of_ne hpv] at hp
        exact hsub (h.mapped p f hp)
    · rw [hsame] at hp
      by_cases hpq : p = q
      · subst hpq
        exact hsub (h.serves t p (serves_of_maps hq))
      · rw [Function.update_of_ne hpq] at hp
        exact hsub (h.mapped p f hp)
  case serves =>
    intro u p hp
    by_cases hu : u = t
    · subst hu
      rcases hm.serves_task hp with hp | hp
      · exact hsub (h.serves u p hp)
      · unfold traffic
        dsimp only
        rw [hp]
        exact Finset.mem_insert_self ..
    · rw [hother hu] at hp
      exact hsub (h.serves u p hp)
  case evicts =>
    intro u r f hf
    by_cases hu : u = t
    · subst hu
      obtain ⟨htake, hfree⟩ := hm.evict_task hf
      exact (h.card_used htake hfree).trans_le hcard
    · rw [hother hu] at hf
      exact (h.evicts u r f hf).trans_le hcard
  case evicted =>
    intro p hp
    unfold traffic Traffic.count at hp
    dsimp only at hp
    split_ifs at hp with hunmaps
    · obtain ⟨r, f, hpc, -⟩ := unmaps_eq_some.mp hunmaps
      exact (h.evicts t r f hpc).trans_le hcard
    · exact (h.evicted p hp).trans_le hcard

end TrafficInv

theorem trafficInv_init (n : ℕ) (τ : Type) [DecidableEq τ] [Fintype τ] (d : Disk) :
    TrafficInv (World.init n τ d) Traffic.init where
  table := tableInv_init n τ d
  creates := nofun
  reads p := Nat.le_of_eq (by simp [Traffic.init, World.init, Pc.willRead, BufferPoolManager.new])
  writes p := Nat.le_of_eq (by simp [Traffic.init, World.init, Pc.willWrite, Pc.unwritten])
  mapped := nofun
  serves := nofun
  evicts := nofun
  evicted p hp := absurd hp (Nat.lt_irrefl 0)

/-! ## Runs -/

/-- The tasks and the pool, with what they have looked for and what it has cost. -/
def trafficSystem (n : ℕ) (τ : Type) [DecidableEq τ] [Fintype τ] : Ghost.System (World n τ) Traffic (τ × Choice) where
  step w a := w.step a.1 a.2
  note g w a := traffic g w a.1

/-- The costs of a run. -/
structure LightTraffic (n : ℕ) (g : Traffic) : Prop where
  reads : ∀ p, g.reads p ≤ g.evictions p + 1
  writes : ∀ p, g.writes p ≤ g.evictions p
  fits : g.used.card ≤ n → ∀ p, g.evictions p = 0

variable {d : Disk}

/-- **The pool reads and writes no more than it must**: the disk is read for a page, or was tried to, once more than the
page was evicted at most, and written once for each time that it was evicted at most; and no page is evicted before
calls have looked for more pages than there are frames. So pages that fit into the pool are read once, and never
written back. -/
theorem light_traffic (hr : (trafficSystem n τ).Reached (fun w _ a => EntersNew w a.1) (World.init n τ d) Traffic.init
    w g) : LightTraffic n g := by
  have h : TrafficInv w g := hr.inv (I := TrafficInv) (trafficInv_init n τ d)
    fun w w' g a hnew hs h => h.step (move_of_step hs) hnew
  constructor
  case reads =>
    intro p
    have hreads := h.reads p
    have hone := Bool.toNat_le (w.bpm.pageTable p).isSome
    omega
  case writes => exact fun p => (Nat.le_add_right ..).trans (h.writes p)
  case fits =>
    intro hfits p
    by_contra hne
    exact absurd (h.evicted p (Nat.pos_of_ne_zero hne)) (Nat.not_lt.mpr hfits)

/-- Three pages share two frames: the one that was changed is evicted, written back and read again. -/
theorem light_traffic_refetched : ∃ (w : World 2 (Fin 2)) (g : Traffic),
    (trafficSystem 2 (Fin 2)).Reached (fun w _ a => EntersNew w a.1) (World.init 2 (Fin 2) twoPages) Traffic.init w g ∧
      g.reads ⟨1, 0⟩ = 2 ∧ g.evictions ⟨1, 0⟩ = 1 ∧ g.writes ⟨1, 0⟩ = 1 ∧ LightTraffic 2 g := by
  have hrun := Ghost.System.reached_get
    (by decide +kernel : ((trafficSystem 2 (Fin 2)).run (fun w _ a => EntersNew w a.1)
      (World.init 2 (Fin 2) twoPages, Traffic.init) refetchChangedSteps).isSome = true)
  exact ⟨_, _, hrun, by decide +kernel, by decide +kernel, by decide +kernel, light_traffic hrun⟩

end World

end RarmDb
