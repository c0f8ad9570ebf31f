import RarmDb.Tasks.Traces

/-!
# Pages on disk

* `Pc.wants`: the page that a call is about to map, or has just found;
* `StoredInv`, **`Move.storedInv`**: wanted pages, mapped pages and pages with an image are on disk, if only
  such pages are fetched;
* **`CacheInv.given_no_image`**: a page that a task was given has no image.
-/

namespace RarmDb

open BufferPoolManager

variable {n : ℕ} {τ : Type}

/-- The page of a request. -/
def Request.page : Request → PageId
  | .fetch p _ | .create p => p

/-- The page of a section. -/
def PinSite.page : PinSite → PageId
  | .hit p _ | .miss p _ _ | .create p _ => p

/-- The page that a call is about to map, or has just found. -/
def Pc.wants : Pc n → Option PageId
  | .lookup p _ | .enter p | .register p .. => some p
  | .take r | .evict r _ => some r.page
  | .pin site _ | .remove site _ | .release site _ => some site.page
  | _ => none

namespace World

variable [DecidableEq τ] {w w' : World n τ} {t u : τ} {c : Choice} {p v : PageId} {f : Fin n} {bytes : Page}

/-- Pages that are wanted, mapped or on their way to disk are on disk. -/
structure StoredInv (w : World n τ) : Prop where
  wants : ∀ t p, (w.tasks t).wants = some p → w.bpm.diskManager.stored p = true
  mapped : ∀ p f, w.bpm.pageTable p = some f → w.bpm.diskManager.stored p = true
  images : ∀ t v bytes, (w.tasks t).unwritten = some (v, bytes) → w.bpm.diskManager.stored v = true

theorem storedInv_init (n : ℕ) (τ : Type) (d : Disk) : StoredInv (World.init n τ d) :=
  ⟨nofun, nofun, nofun⟩

namespace StoredInv

/-- What one task has to show: it wants a page that it wanted, maps a page that it wanted, and has an image
that it had, or of a page that was mapped. -/
theorem change (hi : StoredInv w) (hrest : ∀ u, u ≠ t → w'.tasks u = w.tasks u)
    (hstored : ∀ q, w.bpm.diskManager.stored q = true → w'.bpm.diskManager.stored q = true)
    (hwants : ∀ q, (w'.tasks t).wants = some q → (w.tasks t).wants = some q ∨
      w'.bpm.diskManager.stored q = true)
    (hmapped : ∀ q g, w'.bpm.pageTable q = some g → w.bpm.pageTable q = some g ∨ (w.tasks t).wants = some q)
    (himages : ∀ q bytes, (w'.tasks t).unwritten = some (q, bytes) → (w.tasks t).unwritten = some (q, bytes) ∨
      ∃ g, w.bpm.pageTable q = some g) : StoredInv w' := by
  constructor
  case wants =>
    intro u q hu
    by_cases hut : u = t
    · subst hut
      rcases hwants q hu with hq | hq
      · exact hstored q (hi.wants u q hq)
      · exact hq
    · rw [hrest u hut] at hu
      exact hstored q (hi.wants u q hu)
  case mapped =>
    intro q g hq
    rcases hmapped q g hq with hq | hq
    · exact hstored q (hi.mapped q g hq)
    · exact hstored q (hi.wants t q hq)
  case images =>
    intro u q bytes hu
    by_cases hut : u = t
    · subst hut
      rcases himages q bytes hu with hq | ⟨g, hq⟩
      · exact hstored q (hi.images u q bytes hq)
      · exact hstored q (hi.mapped q g hq)
    · rw [hrest u hut] at hu
      exact hstored q (hi.images u q bytes hu)

/-- The task wants no new page, and has no new image; the table has no new entry. -/
theorem quiet (hi : StoredInv w) {pc pc' : Pc n} (hpc : w.tasks t = pc) (hpc' : w'.tasks t = pc')
    (hrest : ∀ u, u ≠ t → w'.tasks u = w.tasks u)
    (hwants : ∀ q, pc'.wants = some q → pc.wants = some q)
    (himages : ∀ x, pc'.unwritten = some x → pc.unwritten = some x)
    (htable : ∀ q g, w'.bpm.pageTable q = some g → w.bpm.pageTable q = some g)
    (hdisk : w'.bpm.diskManager.stored = w.bpm.diskManager.stored) : StoredInv w' := by
  subst hpc hpc'
  exact hi.change hrest (fun q hq => by rw [hdisk]; exact hq) (fun q hq => .inl (hwants q hq))
    (fun q g hq => .inl (htable q g hq)) fun q bytes hq => .inl (himages _ hq)

end StoredInv

omit [DecidableEq τ] in
theorem stored_setPage {d : Disk} (hp : d.stored p = true) (q : PageId) (bytes : Page) :
    (d.setPage q bytes).stored p = true := by
  change Function.update d.stored q true p = true
  by_cases hpq : p = q
  · rw [hpq, Function.update_self]
  · rw [Function.update_of_ne hpq]
    exact hp

/-- **Every move keeps the pages on disk**, if only such pages are fetched. -/
theorem Move.storedInv [Fintype τ] (hm : Move w t c w') (hw : CacheInv w) (hfetch : FetchesStored w c)
    (hi : StoredInv w) : StoredInv w' := by
  have hrest : ∀ u, u ≠ t → w'.tasks u = w.tasks u := fun u hu => hm.tasks_of_ne hu
  have hsame : ∀ q g, w.bpm.pageTable q = some g → w.bpm.pageTable q = some g := fun _ _ => id
  cases hm with
  | @callFetch e p mode hpc =>
    refine hi.change hrest (fun _ => id) (fun q hq => .inr ?_) (fun q g hq => .inl hq) fun q bytes hq => ?_
    · rw [goto_task] at hq
      cases hq
      exact hfetch p rfl
    · rw [goto_task] at hq
      cases hq
  | callCreate hpc | zeroFault hpc | allocate hpc | takeVictim hpc | subscribeFetch hpc | noFetch hpc
  | recvFetch hpc | closedFetch hpc | subscribeFlush hpc | noFlush hpc | recvFlush hpc | closedFlush hpc
  | issueRead hpc | read hpc | readFault hpc | copy hpc | writeFault hpc | finish hpc | fail hpc | createFault hpc
  | remove hpc | store hpc | markDirty hpc | addFail hpc | add hpc | panicLookup hpc | panicEnter hpc
  | panicWaitFetch hpc | panicWaitFlush hpc | panicFinishFetch hpc | panicFinishFlush hpc | panicCreateFinish hpc | panicLock hpc =>
    exact hi.quiet hpc (goto_task ..) hrest (by simp [Pc.wants]) (by simp [Pc.unwritten]) hsame rfl
  | hit hpc | miss hpc =>
    exact hi.quiet hpc (enter_task ..) hrest (fun _ => id) (fun _ hq => by cases hq) hsame rfl
  | enter hpc =>
    exact hi.quiet hpc (enter_task ..) hrest (fun _ => id) (fun _ hq => by cases hq) hsame rfl
  | panic hpc => exact hi.quiet hpc (poison_task ..) hrest nofun nofun hsame rfl
  | full hpc | releaseHit hpc | releaseMiss hpc =>
    exact hi.quiet hpc (leave_task ..) hrest (by simp [Pc.wants]) (fun _ => id) hsame rfl
  | @takeFree r f rest hpc hfree =>
    refine hi.quiet hpc (goto_task ..) hrest ?_ ?_ hsame rfl
    · cases r <;> exact fun _ => id
    · cases r <;> exact nofun
  | pin hpc =>
    refine hi.quiet hpc (goto_task ..) hrest ?_ ?_ hsame rfl
    · split_ifs <;> exact fun _ => id
    · split_ifs <;> exact fun _ => id
  | unpin hpc hpin | drop hpc hpin =>
    refine hi.quiet hpc (goto_task ..) hrest ?_ ?_ hsame rfl
    · split_ifs <;> exact nofun
    · split_ifs <;> exact nofun
  | lock hpc hb =>
    obtain rfl := lockData_ret hb
    exact hi.quiet hpc (goto_task ..) hrest nofun nofun hsame rfl
  | unlock hpc =>
    rw [unlockData_eq] at hrest ⊢
    exact hi.quiet hpc (goto_task ..) hrest nofun nofun hsame rfl
  | finishFlush hpc | createFinish hpc =>
    rw [finishFlush_eq] at hrest ⊢
    exact hi.quiet hpc (goto_task ..) hrest nofun nofun hsame rfl
  | @finishFetch l hpc =>
    rw [finishFetch_eq] at hrest ⊢
    refine hi.quiet hpc (goto_task ..) hrest ?_ ?_ hsame rfl
    · rcases l.pageDataToFlush with - | ⟨v, bytes⟩ <;> exact nofun
    · intro x hx
      change l.pageDataToFlush = some x
      generalize l.pageDataToFlush = img at hx ⊢
      rcases img with - | ⟨v, bytes⟩
      · cases hx
      · exact hx
  | write hpc | createWrite hpc =>
    exact hi.change hrest (fun q hq => stored_setPage hq ..) (fun q hq => by rw [goto_task] at hq; cases hq)
      (fun q g hq => .inl hq) fun q bytes hq => by rw [goto_task] at hq; cases hq
  | @zero p hpc =>
    refine hi.change hrest (fun q hq => stored_setPage hq ..) (fun q hq => .inr ?_) (fun q g hq => .inl hq)
      fun q bytes hq => by rw [goto_task] at hq; cases hq
    rw [goto_task] at hq
    cases hq
    exact Function.update_self ..
  | @evict p mode f v hpc hv hread =>
    refine hi.change hrest (fun q hq => ?_) (fun q hq => .inl ?_) (fun q g hq => .inl ?_) fun q bytes hq => .inr ?_
    · cases himg : image (w.bpm.frames f) v <;> exact hq
    · rw [goto_task] at hq
      rw [hpc]
      exact hq
    · refine of_unmapped (v := v) ?_
      cases himg : image (w.bpm.frames f) v <;> rw [himg] at hq <;> exact hq
    · rw [goto_task] at hq
      obtain ⟨rfl, -, -⟩ := image_eq_some.mp hq
      exact ⟨f, hw.victim_mapped hpc hv⟩
  | @evictCreate p f v hpc hv hread =>
    refine hi.change hrest (fun _ => id) (fun q hq => .inl ?_) (fun q g hq => .inl (of_unmapped hq))
      fun q bytes hq => .inr ?_
    · rw [goto_task] at hq
      rw [hpc]
      exact hq
    · rw [goto_task] at hq
      obtain ⟨rfl, -, -⟩ := image_eq_some.mp hq
      exact ⟨f, hw.victim_mapped hpc hv⟩
  | @register p mode f img hpc =>
    refine hi.change hrest (fun _ => id) (fun q hq => .inl ?_) (fun q g hq => ?_) fun q bytes hq => .inl ?_
    · rw [goto_task] at hq
      rw [hpc]
      exact hq
    · by_cases hqp : q = p
      · exact .inr (by rw [hpc, hqp]; rfl)
      · exact .inl ((Function.update_of_ne hqp ..).symm.trans hq)
    · rw [goto_task] at hq
      rw [hpc]
      exact hq
  | @releaseCreate p f evicted b hpc hb =>
    obtain ⟨b₁, hb₁, rfl⟩ := registerCreated_ret hb
    refine hi.change hrest (fun q hq => ?_) (fun q hq => ?_) (fun q g hq => ?_) fun q bytes hq => .inl ?_
    · rcases hb₁ with rfl | ⟨v, bytes, -, rfl⟩ <;> exact hq
    · rw [leave_task] at hq
      generalize evicted.join = img at hq
      rcases img with - | ⟨v, bytes⟩ <;> cases hq
    · by_cases hqp : q = p
      · exact .inr (by rw [hpc, hqp]; rfl)
      · have hold := (Function.update_of_ne hqp ..).symm.trans hq
        refine .inl ?_
        rcases hb₁ with rfl | ⟨v, bytes, -, rfl⟩ <;> exact hold
    · rw [leave_task] at hq
      rw [hpc]
      change evicted.join = _
      generalize evicted.join = img at hq ⊢
      rcases img with - | ⟨v, bytes'⟩
      · cases hq
      · exact hq

/-! ## Images -/

namespace CacheInv

omit [DecidableEq τ] in
/-- **A page that a task was given** has no image. -/
theorem given_no_image [Fintype τ] (hw : CacheInv w) {img : Option PageId} (ht : w.cacheRoles t = .ready p f img)
    (u : τ) (bytes : Page) : (w.tasks u).unwritten ≠ some (p, bytes) := by
  intro hu
  obtain ⟨hmapped, -⟩ := hw.cache.loaded ht
  rcases flush_of_unwritten hu with hu | hu
  · have hfits := hw.cache.fits t
    rw [ht] at hfits
    obtain ⟨s, hs⟩ := (hw.cache.pending p f hmapped ((hw.cache.fits u).flush hu)).resolve_left
      (not_not_intro hfits.2.1)
    have hst : t = s := hw.registers_alone hs (congrArg CacheProtocol.Role.user ht)
    rw [← hst, ht] at hs
    cases hs
  · have hfits := hw.cache.fits u
    change (w.cacheRoles u).unannounced = some p at hu
    cases hr : w.cacheRoles u <;> rw [hr] at hu hfits <;> cases hu
    cases (hfits p rfl).1.symm.trans hmapped

end CacheInv

end World

end RarmDb
