import RarmDb.Tasks.Holders

/-!
# Who waits for whom

* `Clock`, `Clocked`: runs with the times at which the tasks have locked the page table, and with the tasks
  that have made the channels;
* `Signals`, `WaitsFor`: a task is going to send on a channel; another one waits for it;
* `WaitsOrdered`: a task waits for tasks that were in their sections before it, and some task goes on;
* **`waitsOrdered_of_clocked`**: the waits are ordered in every state, if a new page is fresh and every creation
  finds a frame;
* `early_fetch_deadlocks`: otherwise two tasks can wait for each other.
-/

namespace RarmDb

open BufferPoolManager

variable {n : ℕ} {τ : Type}

/-! ## Clocks -/

/-- How often the page table was locked, when each task has locked it last, and the task that has made
each channel, with that time. -/
structure Clock (τ : Type) where
  now : ℕ
  entered : τ → ℕ
  made : Channel → Option (τ × ℕ)

namespace Clock

/-- Nothing happened. -/
def init (τ : Type) : Clock τ := ⟨0, fun _ => 0, fun _ => none⟩

variable [DecidableEq τ]

/-- The task locks the page table. -/
def tick (k : Clock τ) (t : τ) : Clock τ :=
  { k with now := k.now + 1, entered := Function.update k.entered t (k.now + 1) }

/-- The clock when the task `t` goes on. -/
def enter (k : Clock τ) (pc : Pc n) (t : τ) : Clock τ := if pc.locks = true then k.tick t else k

/-- The clock after a step. -/
def note (k : Clock τ) (w : World n τ) (t : τ) (w' : World n τ) : Clock τ :=
  let k' := k.enter (w.tasks t) t
  { k' with made :=
      if w'.bpm.nextChannel = w.bpm.nextChannel then k.made
      else Function.update k.made w.bpm.nextChannel (some (t, k'.entered t)) }

end Clock

/-- The tasks and the pool, with their clock. -/
def clockSystem (n : ℕ) (τ : Type) [DecidableEq τ] [Fintype τ] :
    Ghost.System (World n τ) (Clock τ) (τ × Choice) where
  step w a := w.step a.1 a.2
  note k w a := k.note w a.1 ((w.step a.1 a.2).getD w)

section Clocked

variable [DecidableEq τ] [Fintype τ]

/-- The states of the runs whose steps all meet the condition `ok`, with their clocks. -/
def Clocked (diskManager : Disk) (ok : World n τ → τ → Choice → Prop) (w : World n τ) (k : Clock τ) : Prop :=
  (clockSystem n τ).Reached (fun w _ a => ok w a.1 a.2) (World.init n τ diskManager) (Clock.init τ) w k

variable {d : Disk} {ok : World n τ → τ → Choice → Prop} {w w' : World n τ} {k : Clock τ} {t : τ} {c : Choice}

theorem note_clockSystem (hs : w.step t c = some w') : (clockSystem n τ).note k w (t, c) = k.note w t w' := by
  change k.note w t ((w.step t c).getD w) = _
  rw [hs, Option.getD_some]

namespace Clocked

theorem step (hk : Clocked d ok w k) (hok : ok w t c) (hs : w.step t c = some w') : Clocked d ok w' (k.note w t w') := by
  rw [← note_clockSystem hs]
  exact Ghost.System.Reached.step hk hok hs

theorem inv (hk : Clocked d ok w k) {I : World n τ → Clock τ → Prop} (init : I (World.init n τ d) (Clock.init τ))
    (step : ∀ w w' k t c, ok w t c → w.step t c = some w' → I w k → I w' (k.note w t w')) : I w k := by
  refine Ghost.System.Reached.inv hk init fun w w' k a hok hs hi => ?_
  rw [note_clockSystem hs]
  exact step w w' k a.1 a.2 hok hs hi

theorem reached (hk : Clocked d ok w k) : ∃ h, Reached d ok w h :=
  hk.inv (I := fun w _ => ∃ h, Reached d ok w h) ⟨_, .init⟩ fun _ _ _ _ _ hok hs ⟨_, hr⟩ => ⟨_, hr.step hok hs⟩

end Clocked

theorem Reached.clocked {h : History n} (hr : Reached d ok w h) : ∃ k, Clocked d ok w k :=
  hr.inv (I := fun w _ => ∃ k, Clocked d ok w k) ⟨_, Ghost.System.Reached.init⟩
    fun _ _ _ _ _ hok hs ⟨_, hk⟩ => ⟨_, hk.step hok hs⟩

end Clocked

namespace World

/-! ## Waits -/

/-- The task is going to send on the channel. -/
def Signals (w : World n τ) (u : τ) (sub : Channel) : Prop :=
  (∃ p, (w.tasks u).cacheRole.load = some (p, sub)) ∨
    ∃ v, (w.tasks u).cacheRole.flush = some v ∧ w.bpm.flushes v = some sub

/-- The task waits for a message that the other one is going to send. -/
def WaitsFor (w : World n τ) (t u : τ) : Prop :=
  ∃ sub, (w.tasks t).awaits = some sub ∧ w.bpm.sent sub = false ∧ w.Signals u sub

/-- The task waits for the lock of a guard that is held. -/
def WaitsForGuard (w : World n τ) (t : τ) : Prop :=
  ∃ p mode f u q mode', w.tasks t = .lock p mode f ∧ w.tasks u = .guard q mode' f ∧
    (mode = .write ∨ mode' = .write)

variable [DecidableEq τ] [Fintype τ] {w w' : World n τ} {k : Clock τ} {t u : τ} {c : Choice} {d : Disk}
  {sub : Channel}

/-- **Who waits for a channel waits for a task that was in its section before.** While a task waits for a
channel, some task goes on. So it does while any call is pending, if the call does not wait for a guard that
is held, and no creation is about to find no frame. -/
structure WaitsOrdered (w : World n τ) (k : Clock τ) : Prop where
  owner : ∀ t sub, (w.tasks t).awaits = some sub → w.bpm.sent sub = false →
    ∃ u, (w.tasks u).pending = true ∧ w.Signals u sub ∧ k.made sub = some (u, k.entered u) ∧
      k.entered u < k.entered t
  acyclic : ∀ t, ¬ Relation.TransGen w.WaitsFor t t
  waiting : ∀ t u, w.WaitsFor t u → w.Advances
  pending : (∀ u, ¬ w.NoFrame u) → ∀ t, (w.tasks t).pending = true → ¬ w.WaitsForGuard t → w.Advances

/-! ## Every move keeps the order -/

omit [Fintype τ] in
theorem Move.gets (hm : Move w t c w') (hnone : (w.tasks t).cacheRole.user = none)
    (hsome : (w'.tasks t).cacheRole.user ≠ none) :
    (w.tasks t).locks = true ∨ (w.tasks t).pinRole.inSection = true := by
  cases hm with
  | hit hpc | miss hpc | enter hpc =>
    rw [hpc]
    exact .inl rfl
  | takeFree hpc | takeVictim hpc | full hpc | panic hpc | evict hpc | evictCreate hpc | register hpc | remove hpc
  | releaseHit hpc | releaseMiss hpc | releaseCreate hpc =>
    rw [hpc]
    exact .inr rfl
  | @pin site f hpc =>
    rw [hpc]
    cases site <;> exact .inr rfl
  | callFetch | callCreate | allocate | zero | zeroFault | addFail | add | unlock | panicLookup | panicEnter
  | panicWaitFetch | panicWaitFlush | panicFinishFetch | panicFinishFlush | panicCreateFinish | panicLock =>
    rw [goto_task] at hsome
    exact absurd rfl hsome
  | unpin =>
    rw [goto_task] at hsome
    split_ifs at hsome <;> exact absurd rfl hsome
  | subscribeFetch hpc | noFetch hpc | recvFetch hpc | closedFetch hpc | subscribeFlush hpc | noFlush hpc
  | recvFlush hpc | closedFlush hpc | issueRead hpc | read hpc | readFault hpc | copy hpc | finishFetch hpc
  | write hpc | writeFault hpc | finishFlush hpc | finish hpc | fail hpc | createWrite hpc | createFault hpc
  | createFinish hpc | lock hpc | store hpc | markDirty hpc | drop hpc =>
    rw [hpc] at hnone
    cases hnone

omit [Fintype τ] in
theorem Move.pageTableLock (hm : Move w t c w') (hrun : w.poisoned = false) (hu : w'.pageTableLock = some u) :
    (w.tasks t).locks = true ∧ u = t ∨ (w.tasks t).locks = false ∧ w.pageTableLock = some u := by
  cases hm with
  | hit hpc | miss hpc | enter hpc =>
    rw [hpc]
    exact .inl ⟨rfl, (Option.some.inj hu).symm⟩
  | full hpc | panic hpc | releaseHit hpc | releaseMiss hpc | releaseCreate hpc => cases hu
  | panicLookup _ hpoison | panicEnter _ hpoison => cases hrun.symm.trans hpoison
  | _ hpc =>
    rw [hpc]
    exact .inr ⟨rfl, hu⟩

theorem Move.registers_other (hm : Move w t c w') (hw : CacheInv w) {p : PageId} {mode : Mode} {f : Fin n}
    {img : Option (PageId × Page)} (hpc' : w'.tasks t = .register p mode f img) :
    img.map Prod.fst ≠ some p := by
  cases hm with
  | @takeFree r g rest hpc =>
    rw [goto_task] at hpc'
    cases r <;> cases hpc'
    exact nofun
  | @evict q m g v hpc hv hread =>
    rw [goto_task] at hpc'
    cases hpc'
    intro heq
    obtain ⟨x, hx, rfl⟩ := Option.map_eq_some_iff.mp heq
    obtain ⟨rfl, -⟩ := image_eq_some.mp hx
    have hmapped := hw.victim_mapped hpc hv
    cases hmapped.symm.trans (hw.table.want t x.1 (congrArg (fun pc => pc.tableRole.want) hpc))
  | hit | miss | enter =>
    rw [enter_task] at hpc'
    cases hpc'
  | panic =>
    rw [poison_task] at hpc'
    cases hpc'
  | full | releaseHit | releaseMiss =>
    rw [leave_task] at hpc'
    cases hpc'
  | releaseCreate =>
    rw [leave_task] at hpc'
    split at hpc' <;> cases hpc'
  | pin | unpin | drop =>
    rw [goto_task] at hpc'
    split_ifs at hpc'
  | finishFetch =>
    rw [goto_task] at hpc'
    split at hpc' <;> cases hpc'
  | _ =>
    rw [goto_task] at hpc'
    cases hpc'

omit [Fintype τ] in
theorem Move.registering (hm : Move w t c w') {p : PageId} {f : Fin n} {v : Option PageId}
    (hr : (w'.tasks t).cacheRole = .registering p f v) :
    (w.tasks t).cacheRole = .registering p f v ∨
      ∃ mode img, w.tasks t = .register p mode f img ∧ v = img.map Prod.fst := by
  cases hm with
  | @register q mode g img hpc =>
    rw [goto_task] at hr
    cases hr
    exact .inr ⟨mode, img, hpc, rfl⟩
  | pin hpc =>
    rw [goto_task] at hr
    rw [hpc]
    split_ifs at hr <;> exact .inl hr
  | remove hpc =>
    rw [goto_task] at hr
    rw [hpc]
    exact .inl hr
  | takeFree =>
    rw [goto_task] at hr
    cases ‹Request› <;> cases hr
  | hit | miss | enter =>
    rw [enter_task] at hr
    cases hr
  | panic =>
    rw [poison_task] at hr
    cases hr
  | full | releaseHit | releaseMiss =>
    rw [leave_task] at hr
    cases hr
  | releaseCreate =>
    rw [leave_task] at hr
    split at hr <;> cases hr
  | unpin | drop =>
    rw [goto_task] at hr
    split_ifs at hr <;> cases hr
  | finishFetch =>
    rw [goto_task] at hr
    split at hr <;> cases hr
  | _ =>
    rw [goto_task] at hr
    cases hr

/-- What the clock says of the tasks. -/
structure ClockInv (w : World n τ) (k : Clock τ) : Prop where
  past : ∀ t, k.entered t ≤ k.now
  last : ∀ t, w.pageTableLock = some t → ∀ u, u ≠ t → k.entered u < k.entered t
  ordered : CacheProtocol.Ordered w.cacheRoles k.entered
  signed : CacheProtocol.Signed (w.cachePool fun _ => False) w.cacheRoles k.entered k.made
  other : ∀ t p mode f img, w.tasks t = .register p mode f img → img.map Prod.fst ≠ some p

omit [Fintype τ] in
theorem ClockInv.enter (hk : ClockInv w k) (t : τ) :
    (∀ u, (k.enter (w.tasks t) t).entered u ≤ (k.enter (w.tasks t) t).now) ∧
      CacheProtocol.Ordered w.cacheRoles (k.enter (w.tasks t) t).entered ∧
      CacheProtocol.Signed (w.cachePool fun _ => False) w.cacheRoles (k.enter (w.tasks t) t).entered k.made ∧
      ((w.tasks t).locks = true ∨ w.pageTableLock = some t → ∀ u, u ≠ t →
        (k.enter (w.tasks t) t).entered u < (k.enter (w.tasks t) t).entered t) := by
  unfold Clock.enter
  split_ifs with hlocks
  · have haway : w.cacheRoles t = .away := by
      change (w.tasks t).cacheRole = .away
      cases hpc : w.tasks t <;> rw [hpc] at hlocks <;> first | rfl | cases hlocks
    refine ⟨fun u => ?_, hk.ordered.retime haway _, hk.signed.retime haway _, fun _ u hu => ?_⟩
    · change Function.update k.entered t (k.now + 1) u ≤ k.now + 1
      by_cases hu : u = t
      · rw [hu, Function.update_self]
      · rw [Function.update_of_ne hu]
        exact Nat.le_succ_of_le (hk.past u)
    · change Function.update k.entered t (k.now + 1) u < Function.update k.entered t (k.now + 1) t
      rw [Function.update_of_ne hu, Function.update_self]
      exact Nat.lt_succ_of_le (hk.past u)
  · exact ⟨hk.past, hk.ordered, hk.signed, fun h => hk.last t (h.resolve_left hlocks)⟩

/-- **Every move keeps the order**, if it pins no frame too early and a new page is fresh. -/
theorem Move.clockInv (hm : Move w t c w') (hrun : w.poisoned = false) (halone : PinsAlone w t) (hfresh : Fresh w t)
    (hw : CacheInv w) (hk : ClockInv w k) : ClockInv w' (k.note w t w') := by
  obtain ⟨hpast, hordered, hsigned, hlast⟩ := hk.enter t
  have hgrow := hw.cache.grow fun f => (hm.pins hw.pins.free halone).slack hw.pins.pins.pinners
  have hs := hm.cache hw hfresh
  constructor
  case past => exact hpast
  case last =>
    intro u hu
    rcases hm.pageTableLock hrun hu with ⟨hlocks, rfl⟩ | ⟨hlocks, hold⟩
    · exact hlast (.inl hlocks)
    · have hsame : (k.note w t w').entered = k.entered := by
        unfold Clock.note Clock.enter
        rw [if_neg (Bool.eq_false_iff.mp hlocks)]
      rw [hsame]
      exact hk.last u hold
  case ordered =>
    rw [cacheRoles_update hm.tasks]
    refine hordered.step hgrow hs (fun hnone hsome => hlast ?_) fun p f v hr => ?_
    · exact (hm.gets hnone hsome).imp_right (hw.pins.pins.locked t).mp
    · rcases hm.registering hr with hold | ⟨mode, img, hpc, rfl⟩
      · rintro rfl
        exact Nat.lt_irrefl _ (hk.ordered.waits t t p (congrArg CacheProtocol.Role.waits hold)
          (congrArg CacheProtocol.Role.flush hold))
      · exact hk.other t p mode f img hpc
  case signed =>
    rw [cacheRoles_update hm.tasks]
    have hbefore : CacheProtocol.Signed (w.cachePool (PinProtocol.Slack w'.pinState)) w.cacheRoles
        (k.enter (w.tasks t) t).entered k.made := hsigned
    have hafter := hbefore.step hgrow hs
    exact hafter
  case other =>
    intro u p mode f img hpc
    by_cases hu : u = t
    · rw [hu] at hpc
      exact hm.registers_other hw hpc
    · rw [hm.tasks_of_ne hu] at hpc
      exact hk.other u p mode f img hpc

/-! ## Somebody goes on -/

omit [DecidableEq τ] [Fintype τ] in
theorem awaits_eq (pc : Pc n) : pc.awaits = pc.cacheRole.awaits := by
  cases pc with
  | pin site f | remove site f | release site f => cases site <;> rfl
  | _ => rfl

omit [DecidableEq τ] [Fintype τ] in
theorem Signals.pending (hu : w.Signals u sub) : (w.tasks u).pending = true := by
  unfold Signals at hu
  cases hpc : w.tasks u <;> rw [hpc] at hu
  case idle | guard => rcases hu with ⟨p, hp⟩ | ⟨v, hv, -⟩ <;> contradiction
  all_goals rfl

omit [DecidableEq τ] in
theorem TraceInv.exists_signals {h : History n} (hi : TraceInv w h) (ht : (w.tasks t).awaits = some sub)
    (hsent : w.bpm.sent sub = false) : ∃ u, w.Signals u sub :=
  hi.cache.cache.exists_signals hi.owned (fun _ _ => hi.fetches) ((awaits_eq _).symm.trans ht) hsent

omit [DecidableEq τ] [Fintype τ] in
theorem WaitsFor.waits (hw : w.WaitsFor t u) (stuck : Fin n → Prop) :
    CacheProtocol.Waits (w.cachePool stuck) w.cacheRoles t u := by
  obtain ⟨sub, ht, hsent, hu⟩ := hw
  exact ⟨sub, (awaits_eq _).symm.trans ht, hsent, hu⟩

/-- **A task that signals a channel** and waits for no channel goes on, or waits for a task that goes on. -/
theorem advances_of_signals {h : History n} (hi : TraceInv w h) (hlocks : LockInv w) (hclean : EvictedClean w)
    (hu : w.Signals u sub) (hfree : ∀ t, ¬ w.WaitsFor u t) : Advances w := by
  have hrun := hi.counts.running
  have hrole : (w.tasks u).cacheRole.load = none → (w.tasks u).cacheRole.flush = none → Advances w := by
    intro hload hflush
    rcases hu with ⟨p, hp⟩ | ⟨v, hv, -⟩
    · cases hload.symm.trans hp
    · cases hflush.symm.trans hv
  cases hstep : w.step u .go with
  | some w' =>
    refine ⟨u, hu.pending, fun hframe => ?_, by rw [hstep]; rfl⟩
    obtain ⟨p, hpc⟩ := take_of_takesNew hframe.1
    have hsame := congrArg Pc.cacheRole hpc
    rcases hu with ⟨q, hq⟩ | ⟨v, hv, -⟩
    · rw [hsame] at hq
      cases hq
    · rw [hsame] at hv
      cases hv
  | none =>
    cases stuck_of_blocked hi.cache hlocks hclean (not_panics hrun u) hu.pending hstep with
    | pageTable ht =>
      cases hpc : w.tasks u <;> rw [hpc] at ht hrole
      case lookup | enter => exact hrole rfl rfl
      all_goals cases ht
    | channel ht hsent =>
      obtain ⟨x, hx⟩ := hi.exists_signals ht hsent
      exact absurd ⟨_, ht, hsent, hx⟩ (hfree x)
    | lock ht | evict ht =>
      rw [ht] at hrole
      exact hrole rfl rfl
    | copy ht hv =>
      rcases advances_of_holds hrun hv with ⟨p, hguard⟩ | hadv
      · exact absurd hguard (hi.cache.copy_unguarded ht)
      · exact hadv

/-- **The waits are ordered**, by the times of the sections. -/
theorem ClockInv.waitsOrdered {h : History n} (hk : ClockInv w k) (hi : TraceInv w h) (hlocks : LockInv w)
    (hclean : EvictedClean w) : WaitsOrdered w k := by
  have hrun := hi.counts.running
  have hlt : ∀ {t u}, w.WaitsFor t u → k.entered u < k.entered t :=
    fun hw => hk.ordered.waits_lt hi.cache.cache (hw.waits _)
  have hwaiting : ∀ t u, w.WaitsFor t u → w.Advances := by
    intro t u hw
    obtain ⟨v, c, hv, hfree⟩ := hk.ordered.exists_not_waiting hi.cache.cache (hw.waits _)
    exact advances_of_signals hi hlocks hclean hv fun x hx => hfree x (hx.waits _)
  constructor
  case owner =>
    intro t sub ht hsent
    obtain ⟨u, hu⟩ := hi.exists_signals ht hsent
    exact ⟨u, hu.pending, hu, hk.signed u sub hu, hlt ⟨sub, ht, hsent, hu⟩⟩
  case acyclic =>
    intro t ht
    exact hk.ordered.acyclic hi.cache.cache t (Relation.TransGen.mono (fun _ _ hw => hw.waits _) t t ht)
  case waiting => exact hwaiting
  case pending =>
    intro hframes t hpending hguard
    cases hstep : w.step t .go with
    | some w' => exact ⟨t, hpending, hframes t, by rw [hstep]; rfl⟩
    | none =>
      cases stuck_of_blocked hi.cache hlocks hclean (not_panics hrun t) hpending hstep with
      | pageTable ht hu => exact (advances_of_section hi.cache hlocks hclean hrun hu).resolve_left (hframes _)
      | channel ht hsent =>
        obtain ⟨x, hx⟩ := hi.exists_signals ht hsent
        exact hwaiting t x ⟨_, ht, hsent, hx⟩
      | lock ht hu hmode =>
        rcases advances_of_holds hrun hu with ⟨p, hheld⟩ | hadv
        · exact absurd ⟨_, _, _, _, p, _, ht, hheld, hmode⟩ hguard
        · exact hadv
      | copy ht hu =>
        rcases advances_of_holds hrun hu with ⟨p, hheld⟩ | hadv
        · exact absurd hheld (hi.cache.copy_unguarded ht)
        · exact hadv
      | evict ht hu =>
        rcases advances_of_holds hrun hu with ⟨p, hheld⟩ | hadv
        · exact absurd hheld (hi.cache.victim_unguarded ht)
        · exact hadv

/-! ## Runs -/

theorem clockInv_init (n : ℕ) (τ : Type) [DecidableEq τ] (d : Disk) : ClockInv (World.init n τ d) (Clock.init τ) where
  past _ := Nat.le_refl 0
  last := nofun
  ordered := ⟨nofun, nofun⟩
  signed _ _ hc := absurd rfl hc.not_away
  other := nofun

/-- The invariants of the runs that pin no frame too early, in which a new page is fresh and every creation finds
a frame. -/
theorem clockInv_of_clocked {ok : World n τ → τ → Choice → Prop} (hk : Clocked d ok w k)
    (hok : ∀ w t c, ok w t c → PinsAlone w t ∧ Fresh w t ∧ ¬ w.NoFrame t) :
    w.poisoned = false ∧ CacheInv w ∧ LockInv w ∧ EvictedClean w ∧ ClockInv w k := by
  refine hk.inv (I := fun w k => w.poisoned = false ∧ CacheInv w ∧ LockInv w ∧ EvictedClean w ∧ ClockInv w k) ?_
    fun w w' k t c ht hs hi => ?_
  · exact ⟨rfl, cacheInv_init n τ d, lockInv_init n τ d, nofun, clockInv_init n τ d⟩
  · obtain ⟨halone, hfresh, hframe⟩ := hok w t c ht
    obtain ⟨hrun, hw, hlocks, hclean, hclock⟩ := hi
    have hm := move_of_step hs
    exact ⟨hm.running hframe hrun, hm.cacheInv halone hfresh hw, hm.lockInv hlocks, hm.evictedClean hw hclean,
      hm.clockInv hrun halone hfresh hw hclock⟩

/-- **The waits are ordered** in every state, if a new page is fresh and every creation finds a frame. -/
theorem waitsOrdered_of_clocked
    (hr : Clocked d (fun w t c => DropsAtomic w t ∧ c.isFault = false ∧ Fresh w t ∧ ¬ w.NoFrame t) w k) :
    WaitsOrdered w k := by
  obtain ⟨h, hreached⟩ := hr.reached
  have hi : TraceInv w h := traceInv_of_reached hreached fun w t c ⟨hdrops, hfault, hfresh, hframe⟩ =>
    ⟨hdrops.pinsAlone, hfresh, .of_succeeds hfault, hframe⟩
  obtain ⟨-, -, hlocks, hclean, hk⟩ := clockInv_of_clocked hr fun _ _ _ hok => ⟨hok.1.pinsAlone, hok.2.2⟩
  exact hk.waitsOrdered hi hlocks hclean

/-- The first task evicts a dirty page, which the second one fetches. The third one finds it in the page
table. -/
def chainSteps : List (Fin 3 × Choice) :=
  [(0, .fetchPage ⟨1, 0⟩ .write), (0, .go), (0, .go), (0, .go), (0, .go), (0, .go), (0, .go), (0, .go),
    (0, .go), (0, .go), (0, .go), (0, .go), (0, .go), (0, .go), (0, .markDirty), (0, .drop), (0, .go),
    (0, .go), (0, .fetchPage ⟨1, 1⟩ .write), (0, .go), (0, .go), (0, .go), (0, .go), (0, .go), (0, .go),
    (0, .go), (0, .go), (0, .go), (0, .go), (0, .go), (0, .go), (0, .go), (0, .markDirty), (0, .drop),
    (0, .go), (0, .go), (0, .fetchPage ⟨1, 2⟩ .read), (0, .go), (0, .go), (0, .go), (0, .go), (0, .go),
    (0, .go), (0, .go), (1, .fetchPage ⟨1, 1⟩ .read), (1, .go), (1, .go), (1, .go), (1, .go), (1, .go),
    (1, .go), (1, .go), (1, .go), (2, .fetchPage ⟨1, 1⟩ .read), (2, .go), (2, .go), (2, .go), (2, .go)]

theorem waitsOrdered_of_chain : ∃ (w : World 2 (Fin 3)) (k : Clock (Fin 3)),
    Clocked fourPages (fun w t c => DropsAtomic w t ∧ c.isFault = false ∧ Fresh w t ∧ ¬ w.NoFrame t) w k ∧
      w.WaitsFor 2 1 ∧ w.WaitsFor 1 0 ∧ WaitsOrdered w k := by
  have hrun := reached_get
    (by decide +kernel : (runSteps (fun w t c => DropsAtomic w t ∧ c.isFault = false ∧ Fresh w t ∧ ¬ w.NoFrame t)
      (World.init 2 (Fin 3) fourPages, History.init 2) chainSteps).isSome = true)
  obtain ⟨k, hk⟩ := hrun.clocked
  exact ⟨_, k, hk, ⟨5, by decide +kernel, by decide +kernel, .inl ⟨⟨1, 1⟩, by decide +kernel⟩⟩,
    ⟨2, by decide +kernel, by decide +kernel, .inr ⟨⟨1, 1⟩, by decide +kernel, by decide +kernel⟩⟩,
    waitsOrdered_of_clocked hk⟩

/-! ## A fetch before the section of a creation -/

/-- The first task allocates a page, and the second one fetches it: it evicts another dirty page. The first one
registers its page, modifies it and drops its guard, and fetches the page that the second one has evicted. -/
def crossSteps : List (Fin 2 × Choice) :=
  [(0, .createPage 1), (0, .go), (0, .go), (1, .fetchPage ⟨1, 0⟩ .read), (1, .go), (1, .go), (1, .go),
    (1, .go), (1, .go), (1, .go), (1, .go), (1, .go), (1, .go), (1, .go), (1, .go), (1, .go), (1, .go),
    (1, .drop), (1, .go), (1, .go), (1, .fetchPage ⟨1, 1⟩ .write), (1, .go), (1, .go), (1, .go), (1, .go),
    (1, .go), (1, .go), (1, .go), (1, .go), (1, .go), (1, .go), (1, .go), (1, .go), (1, .go), (1, .markDirty),
    (1, .drop), (1, .go), (1, .go), (1, .fetchPage ⟨1, 2⟩ .read), (1, .go), (1, .go), (1, .go), (1, .go),
    (1, .go), (1, .go), (1, .go), (0, .go), (0, .go), (0, .go), (0, .go), (0, .go), (0, .go), (0, .go),
    (0, .markDirty), (0, .drop), (0, .go), (0, .go), (0, .fetchPage ⟨1, 1⟩ .read), (0, .go), (0, .go),
    (0, .go), (0, .go), (0, .go), (0, .go), (0, .go), (0, .go), (1, .go)]

set_option maxRecDepth 2000 in
/-- The two tasks wait for each other's flushes. -/
theorem early_fetch_deadlocks : ∃ (w : World 2 (Fin 2)) (k : Clock (Fin 2)),
    Clocked twoPages (fun w t c => DropsAtomic w t ∧ c.isFault = false ∧ FetchesStored w c) w k ∧
      w.WaitsFor 0 1 ∧ w.WaitsFor 1 0 ∧ (∀ t, w.step t .go = none) ∧ ¬ WaitsOrdered w k := by
  obtain ⟨w, h, hrun, h₀, h₁, hstep⟩ : ∃ (w : World 2 (Fin 2)) (h : History 2),
      Reached twoPages (fun w t c => DropsAtomic w t ∧ c.isFault = false ∧ FetchesStored w c) w h ∧
        w.WaitsFor 0 1 ∧ w.WaitsFor 1 0 ∧ w.step 0 .go = none ∧ w.step 1 .go = none :=
    ⟨_, _, reached_runSteps .init
      (rfl : runSteps (fun w t c => DropsAtomic w t ∧ c.isFault = false ∧ FetchesStored w c)
        (World.init 2 (Fin 2) twoPages, History.init 2) crossSteps = some _),
      ⟨2, rfl, rfl, .inr ⟨⟨1, 1⟩, rfl, rfl⟩⟩, ⟨4, rfl, rfl, .inr ⟨⟨1, 2⟩, rfl, rfl⟩⟩, rfl, rfl⟩
  obtain ⟨k, hk⟩ := hrun.clocked
  refine ⟨w, k, hk, h₀, h₁, fun t => ?_, fun hw => hw.acyclic 0 (.tail (.single h₀) h₁)⟩
  match t with
  | 0 => exact hstep.1
  | 1 => exact hstep.2

end World

end RarmDb
