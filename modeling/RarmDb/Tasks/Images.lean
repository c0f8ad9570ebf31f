import RarmDb.Tasks.Cache

/-!
# The images of evicted pages

* `unwritten`: the image of an evicted page that a task has not written yet;
* `ImageInv`, **`Move.imageInv`**: the bytes of a page when it was last evicted are the image of a task, or on
  disk, and a fetch reads them;
* **`evicted_kept`**: no modification is lost, if a fetch that fails or panics has nothing to write;
* `failed_write_loses_page`: otherwise the bytes can be gone, and a later fetch shows older ones.
-/

namespace RarmDb

open BufferPoolManager

variable {n : ℕ} {τ : Type}

/-! ## Images -/

/-- The image of the evicted page in a section that pins its frame. -/
def PinSite.unwritten : PinSite → Option (PageId × Page)
  | .hit .. => none
  | .miss _ _ pageDataToFlush => pageDataToFlush
  | .create _ evicted => evicted.join

/-- The image of an evicted dirty page that the task has not written to disk yet. -/
def Pc.unwritten : Pc n → Option (PageId × Page)
  | .register _ _ _ pageDataToFlush => pageDataToFlush
  | .pin site _ | .remove site _ | .release site _ => site.unwritten
  | .waitFlush l | .recvFlush l _ | .issueRead l | .reading l | .copy l _ | .finishFetch l => l.pageDataToFlush
  | .writing _ v bytes | .createFlush _ _ v bytes => some (v, bytes)
  | _ => none

/-- The image that is lost if the disk operation of the fetch fails, or its lock of a mutex panics. -/
def Pc.atRisk : Pc n → Option (PageId × Page)
  | .reading l | .waitFlush l | .finishFetch l => l.pageDataToFlush
  | .writing _ v bytes => some (v, bytes)
  | _ => none

/-- The page is on disk, with these bytes. -/
def Disk.Holds (d : Disk) (v : PageId) (bytes : Page) : Prop := d.stored v = true ∧ d.pages v = bytes

theorem Disk.holds_setPage (d : Disk) (v : PageId) (bytes : Page) : (d.setPage v bytes).Holds v bytes :=
  ⟨Function.update_self .., Function.update_self ..⟩

theorem Disk.Holds.setPage {d : Disk} {v p : PageId} {bytes : Page} (h : d.Holds v bytes) (hne : v ≠ p)
    (new : Page) : (d.setPage p new).Holds v bytes :=
  ⟨(Function.update_of_ne hne ..).trans h.1, (Function.update_of_ne hne ..).trans h.2⟩

theorem flush_of_unwritten {pc : Pc n} {v : PageId} {bytes : Page} (h : pc.unwritten = some (v, bytes)) :
    pc.cacheRole.flush = some v ∨ pc.cacheRole.unannounced = some v := by
  have hmap : pc.unwritten.map Prod.fst = some v := by
    rw [h]
    rfl
  cases pc with
  | pin site f | remove site f | release site f =>
    cases site with
    | hit => cases h
    | miss => exact .inl hmap
    | create => exact .inr hmap
  | register | waitFlush | recvFlush | issueRead | reading | copy | finishFetch | writing | createFlush =>
    exact .inl hmap
  | _ => cases h

namespace World

/-- `allocate_page` fills a page that is not stored yet. -/
def Unstored (w : World n τ) (t : τ) : Prop :=
  ∀ p ∈ (w.tasks t).zeroes, w.bpm.diskManager.stored p = false

/-- If a disk operation of a fetch fails, or it panics at a poisoned mutex, the fetch has evicted no dirty page,
or its bytes are already on disk. -/
def Harmless (w : World n τ) (t : τ) (c : Choice) : Prop :=
  c.isFault = true ∨ w.Panics t → ∀ x ∈ (w.tasks t).atRisk, w.bpm.diskManager.Holds x.1 x.2

instance (w : World n τ) (t : τ) : Decidable (Unstored w t) :=
  inferInstanceAs (Decidable (∀ p ∈ (w.tasks t).zeroes, _ = false))

variable [DecidableEq τ] [Fintype τ] {w w' : World n τ} {t u : τ} {c : Choice} {h : History n} {p v : PageId}
  {f : Fin n} {bytes bytes' : Page}

namespace CacheInv

omit [DecidableEq τ] in
theorem image_unique (hw : CacheInv w) (ht : (w.tasks t).unwritten = some (v, bytes))
    (hu : (w.tasks u).unwritten = some (v, bytes')) : t = u := by
  have hclash : ∀ t u, (w.cacheRoles t).flush = some v → (w.cacheRoles u).unannounced = some v → False := by
    intro t u hflush hdetached
    have hfits := hw.cache.fits u
    cases hr : w.cacheRoles u <;> rw [hr] at hdetached hfits <;> cases hdetached
    exact (hw.cache.fits t).flush hflush (hfits v rfl).2
  by_contra hne
  rcases flush_of_unwritten ht with ht | ht <;> rcases flush_of_unwritten hu with hu | hu
  · exact (hw.cache.apart t u hne).flush v ht hu
  · exact hclash t u ht hu
  · exact hclash u t hu ht
  · cases (hw.sole (inSection_of_unannounced ht) (Ne.symm hne)).symm.trans (inSection_of_unannounced hu)

omit [DecidableEq τ] in
theorem victim_no_image (hw : CacheInv w) {r : Request} (hpc : w.tasks t = .evict r f)
    (hv : (w.bpm.frames f).pageId = some v) : (w.tasks u).unwritten ≠ some (v, bytes) := by
  intro hu
  have hmapped : (w.cachePool (PinProtocol.Slack w.pinState)).table v = some f := hw.victim_mapped hpc hv
  rcases flush_of_unwritten hu with hu | hu
  · refine (hw.cache.fits u).flush hu (hw.cache.idle hmapped (hw.victim_unused hpc) ?_).2
    exact not_slack (hw.victim_count hpc)
  · have hfits := hw.cache.fits u
    change (w.cacheRoles u).unannounced = some v at hu
    cases hr : w.cacheRoles u <;> rw [hr] at hu hfits <;> cases hu
    cases (hfits v rfl).1.symm.trans hmapped

omit [DecidableEq τ] in
theorem reading_no_image (hw : CacheInv w) {l : Load n}
    (hpc : (w.tasks t).cacheRole = .loading l.page l.frame l.tx (l.pageDataToFlush.map Prod.fst)) (u : τ)
    (bytes : Page) : (w.tasks u).unwritten ≠ some (l.page, bytes) := by
  intro hu
  obtain ⟨hflush, hdetached⟩ := hw.cache.not_flushing hpc u
  exact (flush_of_unwritten hu).elim hflush hdetached

omit [DecidableEq τ] in
/-- While a page is loaded it is mapped to the frame of the load, and its flush is over. -/
theorem loading_fits (hw : CacheInv w) {l : Load n}
    (hpc : (w.tasks t).cacheRole = .loading l.page l.frame l.tx (l.pageDataToFlush.map Prod.fst)) :
    w.bpm.pageTable l.page = some l.frame ∧ w.bpm.flushes l.page = none := by
  have hfits := hw.cache.fits t
  change CacheProtocol.Fits _ (w.tasks t).cacheRole at hfits
  rw [hpc] at hfits
  obtain ⟨hmapped, -, hflushed, -⟩ := hfits
  exact ⟨hmapped, hflushed⟩

end CacheInv

/-! ## The invariant -/

/-- The images are the bytes of the pages when they were last evicted. These bytes are an image or on
disk, if the image of the page is not lost, and a fetch has read them. -/
structure ImageInv (w : World n τ) (h : History n) (lost : PageId → Prop) : Prop where
  images : ∀ t v bytes, (w.tasks t).unwritten = some (v, bytes) → h.evicted v = some bytes
  kept : ∀ v bytes, h.evicted v = some bytes →
    (∃ t, (w.tasks t).unwritten = some (v, bytes)) ∨ w.bpm.diskManager.Holds v bytes ∨ lost v
  read : ∀ t l readBuffer, w.tasks t = .copy l readBuffer → ∀ bytes, h.evicted l.page = some bytes →
    readBuffer = bytes

namespace ImageInv

variable {lost lost' : PageId → Prop}

omit [Fintype τ] in
theorem change (hi : ImageInv w h lost) (hlost : ∀ v, lost v → lost' v) {h' : History n}
    (htasks : w'.tasks = Function.update w.tasks t (w'.tasks t))
    (himage : ∀ v bytes, (w'.tasks t).unwritten = some (v, bytes) → h'.evicted v = some bytes)
    (hothers : ∀ u v bytes, u ≠ t → (w.tasks u).unwritten = some (v, bytes) → h'.evicted v = h.evicted v)
    (hkept : ∀ v bytes, h'.evicted v = some bytes → (w'.tasks t).unwritten = some (v, bytes) ∨
      (w'.bpm.diskManager.Holds v bytes ∨ lost' v) ∨ h.evicted v = some bytes ∧
        (w.tasks t).unwritten ≠ some (v, bytes) ∧
          (w.bpm.diskManager.Holds v bytes → w'.bpm.diskManager.Holds v bytes))
    (hread : ∀ l readBuffer, w'.tasks t = .copy l readBuffer → ∀ bytes, h'.evicted l.page = some bytes →
      readBuffer = bytes)
    (hreaders : ∀ u l readBuffer, w.tasks u = .copy l readBuffer → h'.evicted l.page = h.evicted l.page) :
    ImageInv w' h' lost' := by
  have hrest : ∀ u, u ≠ t → w'.tasks u = w.tasks u := fun u hu => by rw [htasks, Function.update_of_ne hu]
  constructor
  case images =>
    intro u v bytes hu
    by_cases hut : u = t
    · rw [hut] at hu
      exact himage v bytes hu
    · rw [hrest u hut] at hu
      rw [hothers u v bytes hut hu]
      exact hi.images u v bytes hu
  case kept =>
    intro v bytes hv
    rcases hkept v bytes hv with ht | hdisk | ⟨hold, hnot, hdisk⟩
    · exact .inl ⟨t, ht⟩
    · exact .inr hdisk
    · refine (hi.kept v bytes hold).imp (fun ⟨u, hu⟩ => ⟨u, ?_⟩) fun hd => hd.imp hdisk (hlost v)
      rw [hrest u, hu]
      rintro rfl
      exact hnot hu
  case read =>
    intro u l readBuffer hu bytes hv
    by_cases hut : u = t
    · rw [hut] at hu
      exact hread l readBuffer hu bytes hv
    · rw [hrest u hut] at hu
      rw [hreaders u l readBuffer hu] at hv
      exact hi.read u l readBuffer hu bytes hv

omit [Fintype τ] in
/-- The task keeps its image, if it has one, and the disk and the history stay. -/
theorem quiet (hi : ImageInv w h lost) (hlost : ∀ v, lost v → lost' v) {h' : History n} {pc pc' : Pc n} (hpc : w.tasks t = pc)
    (hpc' : w'.tasks t = pc') (htasks : w'.tasks = Function.update w.tasks t (w'.tasks t))
    (hunwritten : pc'.unwritten = pc.unwritten) (hdisk : w'.bpm.diskManager.Holds = w.bpm.diskManager.Holds)
    (hevicted : h'.evicted = h.evicted) (hcopy : ∀ l readBuffer, pc' ≠ .copy l readBuffer) :
    ImageInv w' h' lost' := by
  refine hi.change hlost htasks (fun v bytes hv => ?_) (fun _ _ _ _ _ => by rw [hevicted]) (fun v bytes hv => ?_)
    (fun l readBuffer hl => absurd (hpc'.symm.trans hl) (hcopy l readBuffer)) fun _ _ _ _ => by rw [hevicted]
  · rw [hpc', hunwritten, ← hpc] at hv
    rw [hevicted]
    exact hi.images t v bytes hv
  · rw [hevicted] at hv
    by_cases ht : (w.tasks t).unwritten = some (v, bytes)
    · rw [hpc', hunwritten, ← hpc]
      exact .inl ht
    · exact .inr (.inr ⟨hv, ht, fun hd => by rw [hdisk]; exact hd⟩)

/-- The frame of a page is taken; its bytes become an image if it is dirty. -/
theorem evict (hi : ImageInv w h lost) (hlost : ∀ v, lost v → lost' v) (hw : CacheInv w) {r : Request}
    (hpc : w.tasks t = .evict r f)
    (hv : (w.bpm.frames f).pageId = some v) (htasks : w'.tasks = Function.update w.tasks t (w'.tasks t))
    (hunwritten : (w'.tasks t).unwritten = image (w.bpm.frames f) v)
    (hdisk : w'.bpm.diskManager.Holds = w.bpm.diskManager.Holds)
    (hcopy : ∀ l readBuffer, w'.tasks t ≠ .copy l readBuffer) : ImageInv w' (h.note w t .go) lost' := by
  cases hdirty : (w.bpm.frames f).isDirty with
  | false =>
    have hclean : image (w.bpm.frames f) v = none := by
      unfold image
      rw [hdirty]
      rfl
    refine hi.quiet hlost hpc rfl htasks (hunwritten.trans hclean) hdisk ?_ hcopy
    unfold History.note
    rw [hpc]
    dsimp only
    rw [hv, hdirty]
  | true =>
    have himage : image (w.bpm.frames f) v = some (v, (w.bpm.frames f).data) :=
      image_eq_some.mpr ⟨rfl, rfl, hdirty⟩
    have hevicted : (h.note w t .go).evicted =
        Function.update h.evicted v (some (w.bpm.frames f).data) := by
      unfold History.note
      rw [hpc]
      dsimp only
      rw [hv, hdirty]
    rw [himage] at hunwritten
    refine hi.change hlost htasks (fun v' bytes hv' => ?_) (fun u v' bytes _ hu => ?_) (fun v' bytes hv' => ?_)
      (fun l readBuffer hl => absurd hl (hcopy l readBuffer)) fun u l readBuffer hu => ?_
    · cases hunwritten.symm.trans hv'
      rw [hevicted, Function.update_self]
    · have hne : v' ≠ v := by
        rintro rfl
        exact hw.victim_no_image hpc hv hu
      rw [hevicted, Function.update_of_ne hne]
    · by_cases hne : v' = v
      · subst hne
        rw [hevicted, Function.update_self] at hv'
        cases hv'
        exact .inl hunwritten
      · rw [hevicted, Function.update_of_ne hne] at hv'
        refine .inr (.inr ⟨hv', ?_, fun hd => by rw [hdisk]; exact hd⟩)
        rw [hpc]
        exact nofun
    · have hne : l.page ≠ v := by
        rintro rfl
        have hrole : w.cacheRoles u = (Pc.copy l readBuffer).cacheRole := congrArg Pc.cacheRole hu
        have huser : (w.cacheRoles u).user = some (l.page, l.frame) := by
          rw [hrole]
          rfl
        have hmapped : w.bpm.pageTable l.page = some l.frame := (hw.cache.fits u).user huser
        cases (hw.victim_mapped hpc hv).symm.trans hmapped
        exact hw.victim_unused hpc u l.page huser
      rw [hevicted, Function.update_of_ne hne]

omit [Fintype τ] in
theorem written (hi : ImageInv w h lost) (hlost : ∀ v, lost v → lost' v) {h' : History n}
    (ht : (w.tasks t).unwritten = some (v, bytes))
    (htasks : w'.tasks = Function.update w.tasks t (w'.tasks t)) (hdone : (w'.tasks t).unwritten = none)
    (hdisk : w'.bpm.diskManager = w.bpm.diskManager.setPage v bytes) (hevicted : h'.evicted = h.evicted)
    (hcopy : ∀ l readBuffer, w'.tasks t ≠ .copy l readBuffer) : ImageInv w' h' lost' := by
  refine hi.change hlost htasks (fun v' bytes' hv' => by cases hdone.symm.trans hv') (fun _ _ _ _ _ => by rw [hevicted])
    (fun v' bytes' hv' => .inr ?_) (fun l readBuffer hl => absurd hl (hcopy l readBuffer))
    fun _ _ _ _ => by rw [hevicted]
  rw [hevicted] at hv'
  by_cases hne : v' = v
  · subst hne
    cases hv'.symm.trans (hi.images t v' bytes ht)
    rw [hdisk]
    exact .inl (.inl (Disk.holds_setPage ..))
  · refine .inr ⟨hv', fun ht' => ?_, fun hd => ?_⟩
    · cases ht.symm.trans ht'
      exact hne rfl
    · rw [hdisk]
      exact hd.setPage hne bytes

omit [Fintype τ] in
theorem givenUp (hi : ImageInv w h lost) (hlost : ∀ v, lost v → lost' v) {h' : History n}
    (htasks : w'.tasks = Function.update w.tasks t (w'.tasks t)) (hdone : (w'.tasks t).unwritten = none)
    (hrisk : ∀ x ∈ (w.tasks t).unwritten, w.bpm.diskManager.Holds x.1 x.2 ∨ lost' x.1)
    (hdisk : w'.bpm.diskManager = w.bpm.diskManager) (hevicted : h'.evicted = h.evicted)
    (hcopy : ∀ l readBuffer, w'.tasks t ≠ .copy l readBuffer) : ImageInv w' h' lost' := by
  refine hi.change hlost htasks (fun v' bytes' hv' => by cases hdone.symm.trans hv') (fun _ _ _ _ _ => by rw [hevicted])
    (fun v' bytes' hv' => .inr ?_) (fun l readBuffer hl => absurd hl (hcopy l readBuffer))
    fun _ _ _ _ => by rw [hevicted]
  rw [hevicted] at hv'
  rw [hdisk]
  by_cases ht : (w.tasks t).unwritten = some (v', bytes')
  · exact .inl (hrisk _ ht)
  · exact .inr ⟨hv', ht, id⟩

end ImageInv

/-- **Every move keeps the images**, if a failure is harmless and `allocate_page` fills a page that is not
stored. A page whose image is lost stays announced. -/
theorem Move.imageInv {lost lost' : PageId → Prop} (hm : Move w t c w') (hw : CacheInv w)
    (hunstored : Unstored w t) (hpending : ∀ v, lost v → w.bpm.flushes v ≠ none) (hlost : ∀ v, lost v → lost' v)
    (hharmless : c.isFault = true ∨ w.Panics t → ∀ x ∈ (w.tasks t).atRisk,
      w.bpm.diskManager.Holds x.1 x.2 ∨ lost' x.1) (hi : ImageInv w h lost) :
    ImageInv w' (h.note w t c) lost' := by
  have htasks := hm.tasks
  have hnote : ∀ {pc : Pc n}, w.tasks t = pc → h.note w t c = h.note { w with tasks := fun _ => pc } t c := by
    rintro pc rfl
    rfl
  cases hm with
  | callFetch hpc | callCreate hpc | zeroFault hpc | allocate hpc | takeVictim hpc | register hpc
  | subscribeFetch hpc | noFetch hpc | recvFetch hpc | closedFetch hpc | subscribeFlush hpc | noFlush hpc
  | recvFlush hpc | issueRead hpc | copy hpc | finish hpc | fail hpc | remove hpc | store hpc
  | markDirty hpc | addFail hpc | add hpc =>
    exact hi.quiet hlost hpc (goto_task ..) htasks rfl rfl (by rw [hnote hpc]; rfl) nofun
  | panicLookup hpc | panicEnter hpc | panicWaitFetch hpc | panicFinishFlush hpc | panicCreateFinish hpc | panicLock hpc =>
    exact hi.quiet hlost hpc (goto_task ..) htasks rfl rfl (by rw [hnote hpc]; rfl) nofun
  | hit hpc | miss hpc | enter hpc => exact hi.quiet hlost hpc (enter_task ..) htasks rfl rfl (by rw [hnote hpc]; rfl) nofun
  | panic hpc => exact hi.quiet hlost hpc (poison_task ..) htasks rfl rfl (by rw [hnote hpc]; rfl) nofun
  | full hpc | releaseHit hpc | releaseMiss hpc =>
    exact hi.quiet hlost hpc (leave_task ..) htasks rfl rfl (by rw [hnote hpc]; rfl) nofun
  | @takeFree r f rest hpc hfree =>
    refine hi.quiet hlost hpc (goto_task ..) htasks ?_ rfl (by rw [hnote hpc]; rfl) ?_
    · cases r <;> rfl
    · cases r <;> exact nofun
  | pin hpc | unpin hpc hpin | drop hpc hpin =>
    refine hi.quiet hlost hpc (goto_task ..) htasks ?_ rfl (by rw [hnote hpc]; rfl) ?_
    · split_ifs <;> rfl
    · split_ifs <;> exact nofun
  | lock hpc hb =>
    obtain rfl := lockData_ret hb
    exact hi.quiet hlost hpc (goto_task ..) htasks rfl rfl (by rw [hnote hpc]; rfl) nofun
  | unlock hpc =>
    refine hi.quiet hlost hpc (goto_task ..) htasks rfl ?_ (by rw [hnote hpc]; rfl) nofun
    rw [unlockData_eq]
    rfl
  | finishFlush hpc | createFinish hpc =>
    refine hi.quiet hlost hpc (goto_task ..) htasks rfl ?_ (by rw [hnote hpc]; rfl) nofun
    rw [finishFlush_eq]
    rfl
  | @finishFetch l hpc =>
    refine hi.quiet hlost hpc (goto_task ..) htasks ?_ ?_ (by rw [hnote hpc]; rfl) ?_
    · change _ = l.pageDataToFlush
      rcases l.pageDataToFlush with - | ⟨v, bytes⟩ <;> rfl
    · rw [finishFetch_eq]
      rfl
    · rcases l.pageDataToFlush with - | ⟨v, bytes⟩ <;> exact nofun
  | @releaseCreate p f evicted b hpc hb =>
    obtain ⟨b₁, hb₁, rfl⟩ := registerCreated_ret hb
    refine hi.quiet hlost hpc (leave_task ..) htasks ?_ ?_ (by rw [hnote hpc]; rfl) ?_
    · change _ = evicted.join
      rcases evicted.join with - | ⟨v, bytes⟩ <;> rfl
    · rcases hb₁ with rfl | ⟨v, bytes, -, rfl⟩ <;> rfl
    · rcases evicted.join with - | ⟨v, bytes⟩ <;> exact nofun
  | closedFlush hpc hsent hclosed => exact absurd (hw.flush_open hpc hsent) hclosed
  | @evict p mode f v hpc hv hread =>
    refine hi.evict hlost hw hpc hv htasks (by rw [goto_task]; rfl) ?_ (by rw [goto_task]; exact nofun)
    cases image (w.bpm.frames f) v <;> rfl
  | @evictCreate p f v hpc hv hread =>
    exact hi.evict hlost hw hpc hv htasks (by rw [goto_task]; rfl) rfl (by rw [goto_task]; exact nofun)
  | @zero p hpc =>
    have hnew : w.bpm.diskManager.stored p = false := hunstored p (by rw [hpc]; rfl)
    have hevicted : (h.note w t .go).evicted = h.evicted := by rw [hnote hpc]; rfl
    refine hi.change hlost htasks (fun v bytes hv => by rw [goto_task] at hv; cases hv) (fun _ _ _ _ _ => by rw [hevicted])
      (fun v bytes hv => .inr (.inr ⟨?_, ?_, fun hd => hd.setPage ?_ _⟩))
      (fun l readBuffer hl => by rw [goto_task] at hl; cases hl) fun _ _ _ _ => by rw [hevicted]
    · rwa [hevicted] at hv
    · rw [hpc]
      exact nofun
    · rintro rfl
      cases hd.1.symm.trans hnew
  | @read l hpc =>
    have hevicted : (h.note w t .go).evicted = h.evicted := by rw [hnote hpc]; rfl
    have hsame : (w.tasks t).unwritten = l.pageDataToFlush := by rw [hpc]; rfl
    refine hi.change hlost htasks (fun v bytes hv => ?_) (fun _ _ _ _ _ => by rw [hevicted]) (fun v bytes hv => ?_)
      (fun l' readBuffer hl bytes hv => ?_) fun _ _ _ _ => by rw [hevicted]
    · rw [goto_task] at hv
      rw [hevicted]
      exact hi.images t v bytes (hsame.trans hv)
    · rw [hevicted] at hv
      by_cases ht : l.pageDataToFlush = some (v, bytes)
      · rw [goto_task]
        exact .inl ht
      · exact .inr (.inr ⟨hv, by rw [hsame]; exact ht, id⟩)
    · rw [goto_task] at hl
      cases hl
      rw [hevicted] at hv
      rcases hi.kept l.page bytes hv with ⟨u, hu⟩ | hd | hl
      · exact absurd hu (hw.reading_no_image (congrArg Pc.cacheRole hpc) u bytes)
      · exact hd.2
      · exact absurd (hw.loading_fits (congrArg Pc.cacheRole hpc)).2 (hpending l.page hl)
  | @readFault l e hpc =>
    refine hi.givenUp hlost htasks (by rw [goto_task]; rfl) (fun x hx => hharmless (.inl rfl) x ?_) rfl
      (by rw [hnote hpc]; rfl) (by rw [goto_task]; exact nofun)
    rw [hpc] at hx ⊢
    exact hx
  | panicWaitFlush hpc hpoison | panicFinishFetch hpc hpoison =>
    refine hi.givenUp hlost htasks (by rw [goto_task]; rfl) (fun x hx => hharmless (.inr ⟨hpoison, ?_⟩) x ?_) rfl
      (by rw [hnote hpc]; rfl) (by rw [goto_task]; exact nofun)
    · rw [hpc]
      rfl
    · rw [hpc] at hx ⊢
      exact hx
  | @write l v bytes hpc =>
    exact hi.written hlost (by rw [hpc]; rfl) htasks (by rw [goto_task]; rfl) rfl (by rw [hnote hpc]; rfl)
      (by rw [goto_task]; exact nofun)
  | @writeFault l v bytes e e' hpc =>
    refine hi.givenUp hlost htasks (by rw [goto_task]; rfl) (fun x hx => hharmless (.inl rfl) x ?_) rfl
      (by rw [hnote hpc]; rfl) (by rw [goto_task]; exact nofun)
    rw [hpc] at hx ⊢
    exact hx
  | @createWrite p f v bytes hpc =>
    exact hi.written hlost (by rw [hpc]; rfl) htasks (by rw [goto_task]; rfl) rfl (by rw [hnote hpc]; rfl)
      (by rw [goto_task]; exact nofun)
  | @createFault p f v bytes e e' hpc =>
    have ht : (w.tasks t).unwritten = some (v, bytes) := by rw [hpc]; rfl
    have hevicted : (h.note w t (.fault e)).evicted = Function.update h.evicted v none := by rw [hnote hpc]; rfl
    refine hi.change hlost htasks (fun v' bytes' hv => by rw [goto_task] at hv; cases hv) (fun u v' bytes' hut hu => ?_)
      (fun v' bytes' hv => .inr (.inr ?_)) (fun l readBuffer hl => by rw [goto_task] at hl; cases hl)
      fun u l readBuffer hu => ?_
    · have hne : v' ≠ v := by
        rintro rfl
        exact hut (hw.image_unique hu ht)
      rw [hevicted, Function.update_of_ne hne]
    · by_cases hne : v' = v
      · rw [hevicted, hne, Function.update_self] at hv
        cases hv
      · rw [hevicted, Function.update_of_ne hne] at hv
        refine ⟨hv, fun ht' => ?_, id⟩
        cases ht.symm.trans ht'
        exact hne rfl
    · have hne : l.page ≠ v := by
        rintro rfl
        exact hw.reading_no_image (congrArg Pc.cacheRole hu) t bytes ht
      rw [hevicted, Function.update_of_ne hne]

/-! ## Runs -/

instance (w : World n τ) (t : τ) (c : Choice) : Decidable (Harmless w t c) :=
  inferInstanceAs (Decidable (_ → ∀ x ∈ (w.tasks t).atRisk, _ = true ∧ _ = _))

/-- No modification is lost: the bytes of a page when it was last evicted dirty are in the hands of a task
that is going to write them, or they are on disk, and a fetch that reads the page has read them. -/
structure NothingLost (w : World n τ) (h : History n) : Prop where
  kept : ∀ v bytes, h.evicted v = some bytes →
    (∃ t, (w.tasks t).unwritten = some (v, bytes)) ∨ w.bpm.diskManager.Holds v bytes
  read : ∀ t l readBuffer, w.tasks t = .copy l readBuffer → ∀ bytes, h.evicted l.page = some bytes →
    readBuffer = bytes

variable {d : Disk} {ok : World n τ → τ → Choice → Prop}

theorem imageInv_of_reached (lost : World n τ → PageId → Prop) (hr : Reached d ok w h)
    (hok : ∀ w t c, ok w t c → PinsAlone w t ∧ Fresh w t ∧ Unstored w t)
    (hpending : ∀ w v, lost w v → w.bpm.flushes v ≠ none)
    (hlost : ∀ w w' t c v, Move w t c w' → lost w v → lost w' v)
    (hharmless : ∀ w w' t c, ok w t c → CacheInv w → Move w t c w' → c.isFault = true ∨ w.Panics t →
      ∀ x ∈ (w.tasks t).atRisk, w.bpm.diskManager.Holds x.1 x.2 ∨ lost w' x.1) :
    CacheInv w ∧ ImageInv w h (lost w) := by
  refine hr.inv (I := fun w h => CacheInv w ∧ ImageInv w h (lost w)) ?_ fun w w' h t c ht hs ⟨hw, hi⟩ => ?_
  · exact ⟨cacheInv_init n τ d, nofun, nofun, nofun⟩
  · obtain ⟨halone, hfresh, hunstored⟩ := hok w t c ht
    have hm := move_of_step hs
    exact ⟨hm.cacheInv halone hfresh hw, hm.imageInv hw hunstored (hpending w)
      (fun v => hlost w w' t c v hm) (hharmless w w' t c ht hw hm) hi⟩

/-- **No modification is lost**, if a fetch that fails or panics has evicted no dirty page, or one whose bytes
are already on disk. -/
theorem evicted_kept (hr : Reached d (fun w t c => PinsAlone w t ∧ Fresh w t ∧ Unstored w t ∧ Harmless w t c)
    w h) : NothingLost w h := by
  have hinv := (imageInv_of_reached (fun _ _ => False) hr
    (fun _ _ _ hok => ⟨hok.1, hok.2.1, hok.2.2.1⟩) (fun _ _ => False.elim) (fun _ _ _ _ _ _ => id)
    fun w w' t c hok _ _ hc x hx => .inl (hok.2.2.2 hc x hx)).2
  exact ⟨fun v bytes hv => (hinv.kept v bytes hv).imp_right (Or.resolve_right · id), hinv.read⟩

/-- A table file with two pages of zeros. -/
def twoPages : Disk := Disk.ofFiles (fun _ => Buffer.const 8192 0) fun _ => 2

/-- One task fetches a page and the read fails; then it fetches the page and modifies it, and fetches another
page in its frame. -/
def refetchSteps : List (Fin 1 × Choice) :=
  [(0, .fetchPage ⟨1, 1⟩ .read), (0, .go), (0, .go), (0, .go), (0, .go), (0, .go), (0, .go), (0, .go), (0, .go),
    (0, .fault "read"), (0, .fetchPage ⟨1, 0⟩ .write), (0, .go), (0, .go), (0, .go), (0, .go), (0, .go), (0, .go),
    (0, .go), (0, .go), (0, .go), (0, .go), (0, .go), (0, .go), (0, .go), (0, .store (Buffer.const 8192 1)),
    (0, .markDirty), (0, .drop), (0, .go), (0, .go), (0, .fetchPage ⟨1, 2⟩ .read), (0, .go), (0, .go), (0, .go),
    (0, .go), (0, .go), (0, .go), (0, .go), (0, .go), (0, .go), (0, .go), (0, .go), (0, .go), (0, .go)]

theorem evicted_kept_refetched : ∃ (w : World 2 (Fin 1)) (h : History 2),
    Reached twoPages (fun w t c => PinsAlone w t ∧ Fresh w t ∧ Unstored w t ∧ Harmless w t c) w h ∧
      h.evicted ⟨1, 0⟩ = some (Buffer.const 8192 1) ∧ NothingLost w h := by
  have hrun := reached_runSteps .init
    (rfl : runSteps (fun w t c => PinsAlone w t ∧ Fresh w t ∧ Unstored w t ∧ Harmless w t c)
      (World.init 2 (Fin 1) twoPages, History.init 2) refetchSteps = some _)
  exact ⟨_, _, hrun, rfl, evicted_kept hrun⟩

/-! ## A write that fails -/

/-- Two tasks share two frames. The second has a guard on another table's page. The first modifies a page, drops its
guard and fetches another page in its frame. The write of the first page fails, and the second task fetches it. -/
def failedWriteSteps : List (Fin 2 × Choice) :=
  goingOn [(1, .fetchPage ⟨2, 0⟩ .read, 13), (0, .fetchPage ⟨1, 0⟩ .write, 13), (0, .store (Buffer.const 8192 1), 0),
    (0, .markDirty, 0), (0, .drop, 2), (0, .fetchPage ⟨1, 1⟩ .read, 12), (0, .fault "write", 2), (1, .drop, 2),
    (1, .fetchPage ⟨1, 0⟩ .read, 14)]

/-- The modified bytes are in no frame, in no task and not on disk, and the second task has a guard on the older
ones. -/
theorem failed_write_loses_page : ∃ (w : World 2 (Fin 2)) (h : History 2),
    Reached twoPages (fun w t _ => PinsAlone w t ∧ Fresh w t ∧ Unstored w t) w h ∧
      h.evicted ⟨1, 0⟩ = some (Buffer.const 8192 1) ∧ (∀ f, (w.bpm.frames f).data ≠ Buffer.const 8192 1) ∧
        w.bpm.diskManager.pages ⟨1, 0⟩ ≠ Buffer.const 8192 1 ∧
          (∃ f, w.tasks 1 = .guard ⟨1, 0⟩ .read f ∧ (w.bpm.frames f).data = Buffer.const 8192 0) ∧
            ¬ NothingLost w h := by
  obtain ⟨w, h, hrun, hevicted, hframes, hdisk, hguard, htasks⟩ : ∃ (w : World 2 (Fin 2)) (h : History 2),
      Reached twoPages (fun w t _ => PinsAlone w t ∧ Fresh w t ∧ Unstored w t) w h ∧
        h.evicted ⟨1, 0⟩ = some (Buffer.const 8192 1) ∧ (∀ f, (w.bpm.frames f).data.byte 0 = 0) ∧
          (w.bpm.diskManager.pages ⟨1, 0⟩).byte 0 = 0 ∧
            (∃ f, w.tasks 1 = .guard ⟨1, 0⟩ .read f ∧ (w.bpm.frames f).data = Buffer.const 8192 0) ∧
              ∀ t, (w.tasks t).unwritten = none :=
    ⟨_, _, reached_runSteps .init
      (rfl : runSteps (fun w t _ => PinsAlone w t ∧ Fresh w t ∧ Unstored w t)
        (World.init 2 (Fin 2) twoPages, History.init 2) failedWriteSteps = some _),
      rfl, by decide +kernel, by decide +kernel, ⟨_, rfl, rfl⟩, by decide +kernel⟩
  have hne : ∀ b : Page, b.byte 0 = 0 → b ≠ Buffer.const 8192 1 := by
    rintro b hb rfl
    exact absurd hb (by decide)
  refine ⟨w, h, hrun, hevicted, fun f => hne _ (hframes f), hne _ hdisk, hguard, fun hkept => ?_⟩
  rcases hkept.kept ⟨1, 0⟩ _ hevicted with ⟨t, ht⟩ | hstored
  · cases (htasks t).symm.trans ht
  · exact hne _ hdisk hstored.2

end World

end RarmDb
