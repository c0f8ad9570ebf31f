import RarmDb.Lib.PinProtocol
import RarmDb.Tasks.Table

/-!
# The pins of the tasks

* `pinRole`, `pinState`: the pool and its tasks as pin counts beside the evictor;
* **`Move.pins`**: every move is a step of that protocol, or keeps its state, or forgets a pin;
* `PinsAlone`: no frame is pinned between its last `fetch_sub` and `evictor.add`;
* **`victim_unpinned`**: a victim is then not pinned, and nobody has or gets a guard on it;
* `late_add_evicts_pinned`: otherwise it can be.
-/

namespace RarmDb

open BufferPoolManager

variable {n : ℕ} {τ : Type}

/-! ## The protocol of the pins -/

/-- The role of a section that is about to pin its frame. -/
def PinSite.pinRole (f : Fin n) : PinSite → PinProtocol.Role (Fin n)
  | .hit .. => .hitting f
  | .miss .. | .create .. => .claiming f

/-- What a task does with the pins. -/
def Pc.pinRole : Pc n → PinProtocol.Role (Fin n)
  | .idle _ | .lookup .. | .allocate _ | .zero _ | .enter _ | .unlock .. => .away
  | .take _ => .searching
  | .evict _ f | .register _ _ f _ => .claiming f
  | .pin site f => site.pinRole f
  | .remove _ f => .removing f
  | .release _ f => .pinned f true
  | .waitFetch _ _ f | .recvFetch _ _ f _ | .unpin f _ | .createFlush _ f _ _ | .createFinish _ f _
  | .lock _ _ f | .guard _ _ f => .pinned f false
  | .waitFlush l | .recvFlush l _ | .issueRead l | .reading l | .copy l _ | .finishFetch l | .writing l ..
  | .finishFlush l .. | .finish l _ => .pinned l.frame false
  | .add f _ => .adding f

/-- The frame that the task is about to pin. -/
def Pc.pinning : Pc n → Option (Fin n)
  | .pin _ f => some f
  | _ => none

/-- The frame that the task is about to add to the evictor. -/
def Pc.adding : Pc n → Option (Fin n)
  | .add f _ => some f
  | _ => none

theorem pinRole_eq_adding {pc : Pc n} {f : Fin n} : pc.pinRole = .adding f ↔ pc.adding = some f := by
  cases pc with
  | add g next => exact ⟨fun h => congrArg some (PinProtocol.Role.adding.inj h),
      fun h => congrArg PinProtocol.Role.adding (Option.some.inj h)⟩
  | pin site g =>
    cases site <;> exact ⟨nofun, nofun⟩
  | _ => exact ⟨nofun, nofun⟩

namespace World

/-- The pool and its tasks as pin counts beside the evictor. -/
def pinState (w : World n τ) : PinProtocol.State (Fin n) τ where
  lock := w.pageTableLock
  count f := (w.bpm.frames f).pinCount
  eligible := w.bpm.evictor.Mem
  free f := f ∈ w.bpm.freeFrames
  role t := (w.tasks t).pinRole

variable [DecidableEq τ] {w w' : World n τ} {t : τ} {c : Choice} {b : BufferPoolManager n} {pc : Pc n}
  {f : Fin n} {mode : Mode}

theorem pinRole_goto (w : World n τ) (t : τ) (pc : Pc n) :
    (fun u => (Function.update w.tasks t pc u).pinRole) =
      Function.update (fun u => (w.tasks u).pinRole) t pc.pinRole := by
  funext u
  by_cases hu : u = t
  · rw [hu, Function.update_self, Function.update_self]
  · rw [Function.update_of_ne hu, Function.update_of_ne hu]

theorem pinState_goto (w : World n τ) (t : τ) (b : BufferPoolManager n) (pc : Pc n) :
    (w.goto t b pc).pinState = ⟨w.pageTableLock, fun f => (b.frames f).pinCount, b.evictor.Mem,
      fun f => f ∈ b.freeFrames, Function.update w.pinState.role t pc.pinRole⟩ := by
  unfold pinState
  dsimp only
  rw [← pinRole_goto]
  rfl

theorem pinState_leave (w : World n τ) (t : τ) (b : BufferPoolManager n) (pc : Pc n) :
    (w.leave t b pc).pinState = ⟨none, fun f => (b.frames f).pinCount, b.evictor.Mem,
      fun f => f ∈ b.freeFrames, Function.update w.pinState.role t pc.pinRole⟩ := by
  unfold pinState
  dsimp only
  rw [← pinRole_goto]
  rfl

theorem pinState_poison (w : World n τ) (t : τ) (b : BufferPoolManager n) (pc : Pc n) :
    (w.poison t b pc).pinState = ⟨none, fun f => (b.frames f).pinCount, b.evictor.Mem,
      fun f => f ∈ b.freeFrames, Function.update w.pinState.role t pc.pinRole⟩ := pinState_leave w t b pc

theorem pinState_enter (w : World n τ) (t : τ) (pc : Pc n) :
    (w.enter t pc).pinState = { w.pinState.become t pc.pinRole with lock := some t } := by
  unfold PinProtocol.State.become pinState
  dsimp only
  rw [← pinRole_goto]
  rfl

/-- Pins, evictor and free frames of a pool are those of another. -/
structure SamePins (b b' : BufferPoolManager n) : Prop where
  pinCount : ∀ f, (b'.frames f).pinCount = (b.frames f).pinCount
  evictor : ∀ f, b'.evictor.Mem f ↔ b.evictor.Mem f
  freeFrames : b'.freeFrames = b.freeFrames

omit [DecidableEq τ] in
theorem SamePins.rfl : SamePins b b := ⟨fun _ => .refl _, fun _ => .rfl, .refl _⟩

omit [DecidableEq τ] in
theorem SamePins.modifyFrame {change : Frame → Frame} (h : ∀ fr, (change fr).pinCount = fr.pinCount) :
    SamePins b (b.modifyFrame f change) where
  pinCount g := by
    by_cases hg : g = f
    · rw [hg, modifyFrame_self, h]
    · rw [modifyFrame_of_ne hg]
  evictor _ := .rfl
  freeFrames := .refl _

theorem pinState_become (hb : SamePins w.bpm b) (t : τ) (pc : Pc n) :
    (w.goto t b pc).pinState = w.pinState.become t pc.pinRole := by
  rw [pinState_goto]
  ext f
  · rfl
  · exact hb.pinCount f
  · exact hb.evictor f
  · rw [hb.freeFrames]
    rfl
  · rfl

theorem pinState_same (hb : SamePins w.bpm b) (hr : pc.pinRole = (w.tasks t).pinRole) :
    (w.goto t b pc).pinState = w.pinState := by
  rw [pinState_become hb, hr]
  unfold PinProtocol.State.become
  rw [show (w.tasks t).pinRole = w.pinState.role t from rfl, Function.update_eq_self]

/-- A frame in use is not free, and no frame is free twice. -/
structure FreeUnused (b : BufferPoolManager n) : Prop where
  nodup : b.freeFrames.Nodup
  mapped : ∀ p f, b.pageTable p = some f → f ∉ b.freeFrames

/-- No frame is pinned while another task is about to add it to the evictor. -/
def PinsAlone (w : World n τ) (t : τ) : Prop :=
  ∀ f ∈ (w.tasks t).pinning, ∀ u, (w.tasks u).adding ≠ some f

instance [Fintype τ] (w : World n τ) (t : τ) : Decidable (PinsAlone w t) :=
  inferInstanceAs (Decidable (∀ f ∈ (w.tasks t).pinning, ∀ u, (w.tasks u).adding ≠ some f))

theorem counts_modifyFrame (b : BufferPoolManager n) (f : Fin n) (change : Frame → Frame) :
    (fun g => ((b.modifyFrame f change).frames g).pinCount) =
      Function.update (fun g => (b.frames g).pinCount) f (change (b.frames f)).pinCount := by
  funext g
  by_cases hg : g = f
  · rw [hg, modifyFrame_self, Function.update_self]
  · rw [modifyFrame_of_ne hg, Function.update_of_ne hg]

theorem samePins_registerCreated {b' : BufferPoolManager n} {p : PageId}
    {evicted : Option (Option (PageId × Page))} (h : b.registerCreated p f evicted = .ret b') :
    SamePins b b' := by
  obtain ⟨b₁, hb₁, rfl⟩ := registerCreated_ret h
  have hsame : SamePins b₁ (b₁.modifyFrame f fun fr => { fr with pageId := some p }) := by
    refine SamePins.modifyFrame ?_
    exact fun _ => rfl
  rcases hb₁ with rfl | ⟨v, bytes, -, rfl⟩ <;> exact ⟨hsame.pinCount, hsame.evictor, rfl⟩

/-- A move that is a step of the pins, keeps their state, or forgets a pin. -/
inductive PinMove (t : τ) (s : PinProtocol.State (Fin n) τ) : PinProtocol.State (Fin n) τ → Prop
  | step {s' : PinProtocol.State (Fin n) τ} (hs : PinProtocol.Step t s s')
      (hrace : PinProtocol.RaceFree s t) : PinMove t s s'
  | same : PinMove t s s
  | leak (g : Fin n) (hr : s.role t = .pinned g false) : PinMove t s (s.become t .away)

namespace PinMove

theorem of_same (hb : SamePins w.bpm b) (hr : pc.pinRole = (w.tasks t).pinRole) :
    PinMove t w.pinState (w.goto t b pc).pinState := by
  rw [pinState_same hb hr]
  exact .same

theorem of_leak (hb : SamePins w.bpm b) (hr : pc.pinRole = .away)
    (ht : (w.tasks t).pinRole = .pinned f false) : PinMove t w.pinState (w.goto t b pc).pinState := by
  rw [pinState_become hb, hr]
  exact .leak f ht

theorem of_unlock (hb : SamePins w.bpm b) (hr : pc.pinRole = .pinned f false)
    (ht : (w.tasks t).pinRole = .pinned f true) : PinMove t w.pinState (w.leave t b pc).pinState := by
  have hstep : PinProtocol.Step t w.pinState _ := .unlock f ht
  have hstate : (w.leave t b pc).pinState = { w.pinState.become t (.pinned f false) with lock := none } := by
    have hgoto := pinState_become hb t pc
    rw [hr] at hgoto
    rw [← hgoto]
    rfl
  rw [hstate]
  refine .step hstep fun g hg => ?_
  rcases hg with hg | hg <;> cases ht.symm.trans hg

theorem of_unpin (hr : pc.pinRole = if (w.bpm.frames f).pinCount = 1 then .adding f else .away)
    (ht : (w.tasks t).pinRole = .pinned f false) :
    PinMove t w.pinState
      (w.goto t (w.bpm.modifyFrame f fun fr => { fr with pinCount := fr.pinCount - 1 }) pc).pinState := by
  rw [pinState_goto, counts_modifyFrame, hr]
  refine .step (.unpin f ht) fun g hg => ?_
  rcases hg with hg | hg <;> cases ht.symm.trans hg

end PinMove

/-- **Every move is a step of the pins**, keeps their state, or forgets a pin. -/
theorem Move.pins (hm : Move w t c w') (hfree : FreeUnused w.bpm) (halone : PinsAlone w t) :
    PinMove t w.pinState w'.pinState := by
  have hother : ∀ {pc : Pc n}, w.tasks t = pc → (∀ f, pc.pinRole ≠ .hitting f ∧ pc.pinRole ≠ .claiming f) →
      PinProtocol.RaceFree w.pinState t := by
    intro pc hpc hno f hf
    have hrole : w.pinState.role t = pc.pinRole := congrArg Pc.pinRole hpc
    rcases hf with hf | hf
    · exact absurd (hrole.symm.trans hf) (hno f).1
    · exact absurd (hrole.symm.trans hf) (hno f).2
  cases hm with
  | callFetch hpc | callCreate hpc | zeroFault hpc | subscribeFetch hpc | noFetch hpc | recvFetch hpc
  | closedFetch hpc | subscribeFlush hpc | noFlush hpc | recvFlush hpc | issueRead hpc | read hpc
  | writeFault hpc | panicLookup hpc | panicEnter hpc => exact .of_same .rfl (by rw [hpc]; rfl)
  | allocate hpc | zero hpc | write hpc | createWrite hpc =>
    exact .of_same ⟨fun _ => rfl, fun _ => .rfl, rfl⟩ (by rw [hpc]; rfl)
  | copy hpc | finish hpc | store hpc | markDirty hpc =>
    refine .of_same (.modifyFrame ?_) (congrArg Pc.pinRole hpc).symm
    exact fun _ => rfl
  | @register p mode f img hpc =>
    have hsame : SamePins { w.bpm with pageTable := Function.update w.bpm.pageTable p (some f) }
        (w.bpm.beginFetch p f) := .modifyFrame fun _ => rfl
    exact .of_same ⟨hsame.pinCount, hsame.evictor, rfl⟩ (by rw [hpc]; rfl)
  | evictCreate hpc => exact .of_same ⟨fun _ => rfl, fun _ => .rfl, rfl⟩ (by rw [hpc]; rfl)
  | @evict p mode f v hpc =>
    refine .of_same ?_ (by rw [hpc]; rfl)
    cases image (w.bpm.frames f) v <;> exact ⟨fun _ => rfl, fun _ => .rfl, rfl⟩
  | @lock p mode f b hpc hb =>
    rw [lockData_ret hb]
    refine .of_same (.modifyFrame fun fr => ?_) (by rw [hpc]; rfl)
    cases mode <;> rfl
  | @unlock f mode hpc =>
    rw [unlockData_eq]
    refine .of_same (.modifyFrame fun fr => ?_) (by rw [hpc]; rfl)
    cases mode <;> rfl
  | finishFetch hpc =>
    rw [finishFetch_eq]
    refine .of_same ⟨fun _ => rfl, fun _ => .rfl, rfl⟩ ?_
    rw [hpc]
    split <;> rfl
  | finishFlush hpc | createFinish hpc =>
    rw [finishFlush_eq]
    exact .of_same ⟨fun _ => rfl, fun _ => .rfl, rfl⟩ (by rw [hpc]; rfl)
  | closedFlush hpc | readFault hpc | createFault hpc | panicWaitFetch hpc | panicWaitFlush hpc
  | panicCreateFinish hpc | panicLock hpc => exact .of_leak .rfl rfl (by rw [hpc]; rfl)
  | @fail l e hpc | @panicFinishFetch l hpc | @panicFinishFlush l v e hpc =>
    have hpinned : (w.tasks t).pinRole = .pinned l.frame false := by rw [hpc]; rfl
    exact .of_leak (.modifyFrame fun _ => rfl) rfl hpinned
  | releaseHit hpc => exact .of_unlock .rfl rfl (by rw [hpc]; rfl)
  | releaseMiss hpc =>
    exact .of_unlock ⟨fun _ => rfl, fun _ => .rfl, rfl⟩ rfl (by rw [hpc]; rfl)
  | @releaseCreate p f evicted b hpc hb =>
    refine .of_unlock (samePins_registerCreated hb) ?_ (by rw [hpc]; rfl)
    split <;> rfl
  | unpin hpc | drop hpc =>
    refine .of_unpin ?_ (by rw [hpc]; rfl)
    split_ifs <;> rfl
  | @hit p mode f hpc hlock hp =>
    rw [pinState_enter]
    exact .step (.hit (congrArg Pc.pinRole hpc) hlock f (hfree.mapped p f hp))
      (hother hpc fun _ => ⟨nofun, nofun⟩)
  | miss hpc hlock | enter hpc hlock =>
    rw [pinState_enter]
    exact .step (.search (congrArg Pc.pinRole hpc) hlock) (hother hpc fun _ => ⟨nofun, nofun⟩)
  | @takeFree r f rest hpc hrest =>
    have hclaim : (taken r f).pinRole = .claiming f := by cases r <;> rfl
    have hnodup := hfree.nodup
    rw [hrest, List.nodup_cons] at hnodup
    have hset : (fun g => g ∈ rest) = fun g => g ≠ f ∧ w.pinState.free g := by
      funext g
      change _ = (g ≠ f ∧ g ∈ w.bpm.freeFrames)
      rw [hrest, List.mem_cons, eq_iff_iff]
      refine ⟨fun hg => ⟨?_, .inr hg⟩, fun hg => hg.2.resolve_left hg.1⟩
      rintro rfl
      exact hnodup.1 hg
    rw [pinState_goto, hclaim]
    dsimp only
    rw [hset]
    refine .step (.takeFree (congrArg Pc.pinRole hpc) f ?_) (hother hpc fun _ => ⟨nofun, nofun⟩)
    change f ∈ w.bpm.freeFrames
    rw [hrest]
    exact List.mem_cons_self
  | @takeVictim r f evictor hpc hnone hvictim =>
    obtain ⟨hmem, hiff⟩ := ClockEvictor.victim_some hvictim
    have hset : evictor.Mem = fun g => g ≠ f ∧ w.pinState.eligible g := funext fun g => propext (hiff g)
    rw [pinState_goto]
    dsimp only
    rw [hset]
    exact .step (.takeVictim (congrArg Pc.pinRole hpc) f hmem) (hother hpc fun _ => ⟨nofun, nofun⟩)
  | @full p mode evictor hpc hnone hvictim =>
    have hset : evictor.Mem = w.pinState.eligible :=
      funext fun g => propext (ClockEvictor.victim_none hvictim g)
    rw [pinState_leave]
    dsimp only
    rw [hset]
    exact .step (.leave (congrArg Pc.pinRole hpc)) (hother hpc fun _ => ⟨nofun, nofun⟩)
  | @panic p evictor hpc hnone hvictim =>
    have hset : evictor.Mem = w.pinState.eligible :=
      funext fun g => propext (ClockEvictor.victim_none hvictim g)
    rw [pinState_poison]
    dsimp only
    rw [hset]
    exact .step (.leave (congrArg Pc.pinRole hpc)) (hother hpc fun _ => ⟨nofun, nofun⟩)
  | @pin site f hpc =>
    have hrole : w.pinState.role t = .hitting f ∨ w.pinState.role t = .claiming f := by
      have hpin : w.pinState.role t = site.pinRole f := congrArg Pc.pinRole hpc
      rw [hpin]
      cases site with
      | hit p mode => exact .inl rfl
      | miss p mode img => exact .inr rfl
      | create p evicted => exact .inr rfl
    have hnext : (if (w.bpm.frames f).pinCount = 0 then .remove site f else .release site f : Pc n).pinRole =
        if w.pinState.count f = 0 then .removing f else .pinned f true := by
      change _ = if (w.bpm.frames f).pinCount = 0 then _ else _
      split_ifs <;> rfl
    rw [pinState_goto, hnext]
    unfold incrementPinCount
    dsimp only
    rw [counts_modifyFrame]
    refine .step (.pin f hrole) fun g hg u hu => ?_
    have hgf : g = f := by
      rcases hrole with hr | hr <;> rcases hg with hg | hg <;> cases hr.symm.trans hg <;> rfl
    subst hgf
    exact halone g (by rw [hpc]; rfl) u (pinRole_eq_adding.mp hu)
  | @remove site f hpc =>
    have hset : (w.bpm.evictorRemove f).evictor.Mem = fun g => g ≠ f ∧ w.pinState.eligible g :=
      funext fun g => propext ClockEvictor.mem_remove
    rw [pinState_goto, hset]
    exact .step (.remove f (congrArg Pc.pinRole hpc)) (hother hpc fun _ => ⟨nofun, nofun⟩)
  | @addFail f e hpc =>
    have hset : (w.bpm.evictorAdd f).evictor.Mem = fun g => g = f ∨ w.pinState.eligible g :=
      funext fun g => propext ClockEvictor.mem_add
    rw [pinState_goto, hset]
    exact .step (.add f (congrArg Pc.pinRole hpc)) (hother hpc fun _ => ⟨nofun, nofun⟩)
  | @add f mode hpc =>
    have hset : (w.bpm.evictorAdd f).evictor.Mem = fun g => g = f ∨ w.pinState.eligible g :=
      funext fun g => propext ClockEvictor.mem_add
    rw [pinState_goto, hset]
    exact .step (.add f (congrArg Pc.pinRole hpc)) (hother hpc fun _ => ⟨nofun, nofun⟩)

/-! ## Runs -/

section Runs

variable [Fintype τ] {d : Disk} {h : History n} {ok : World n τ → τ → Choice → Prop}

/-- The invariant of the pins, with the free frames not in use. -/
structure PinInv (w : World n τ) : Prop where
  pins : PinProtocol.Inv w.pinState
  free : FreeUnused w.bpm

theorem pinInv_init (n : ℕ) (τ : Type) [DecidableEq τ] [Fintype τ] (d : Disk) :
    PinInv (World.init n τ d) where
  pins := {
    locked := fun t => iff_of_false nofun nofun
    pinners := fun f => by
      rw [PinProtocol.State.pinners, Finset.filter_false_of_mem]
      · exact Nat.zero_le _
      · exact fun u _ => Bool.false_ne_true
    hitting := nofun
    removing := nofun
    free := fun f _ => ⟨rfl, ClockEvictor.not_mem_new f, fun _ => nofun⟩
    claiming := nofun
    adding := nofun
    eligible := fun f hf => absurd hf (ClockEvictor.not_mem_new f) }
  free := ⟨List.nodup_reverse.mpr (List.nodup_finRange n), nofun⟩

omit [DecidableEq τ] in
theorem PinInv.not_free (h : PinInv w) {locked : Bool} (hr : (w.tasks t).pinRole = .pinned f locked) :
    f ∉ w.bpm.freeFrames := by
  intro hf
  have hone : 1 ≤ w.pinState.pinners f := PinProtocol.one_le_pinners (t := t) (by
    change (w.tasks t).pinRole.pins f = true
    rw [hr]
    exact decide_eq_true rfl)
  have hle := h.pins.pinners f
  have hzero := (h.pins.free f hf).1
  omega

omit [DecidableEq τ] in
theorem FreeUnused.update {b b' : BufferPoolManager n} {p : PageId} {o : Option (Fin n)} (h : FreeUnused b)
    (ho : ∀ f ∈ o, f ∉ b.freeFrames) (htable : b'.pageTable = Function.update b.pageTable p o)
    (hfree : b'.freeFrames = b.freeFrames) : FreeUnused b' where
  nodup := by rw [hfree]; exact h.nodup
  mapped q f hq := by
    rw [htable] at hq
    rw [hfree]
    by_cases hqp : q = p
    · rw [hqp, Function.update_self] at hq
      exact ho f hq
    · rw [Function.update_of_ne hqp] at hq
      exact h.mapped q f hq

theorem Move.freeUnused (hm : Move w t c w') (h : PinInv w) : FreeUnused w'.bpm := by
  cases hm with
  | @takeFree r f rest hpc hrest =>
    have hnodup := h.free.nodup
    rw [hrest, List.nodup_cons] at hnodup
    refine ⟨hnodup.2, fun p g hp hg => h.free.mapped p g hp ?_⟩
    rw [hrest]
    exact List.mem_cons_of_mem f hg
  | @evict p mode f v hpc =>
    refine h.free.update (p := v) (o := none) (fun f hf => by cases hf) ?_ ?_ <;> cases image (w.bpm.frames f) v <;> rfl
  | evictCreate hpc => exact h.free.update (fun f hf => by cases hf) rfl rfl
  | @register p mode f img hpc =>
    refine h.free.update (p := p) (o := some f) (fun g hg => ?_) rfl rfl
    cases hg
    intro hf
    have hclaiming := (h.pins.claiming t f (congrArg Pc.pinRole hpc)).2.2.1
    exact hclaiming hf
  | @releaseCreate p f evicted b hpc hb =>
    obtain ⟨b₁, hb₁, rfl⟩ := registerCreated_ret hb
    refine h.free.update (p := p) (o := some f) (fun g hg => ?_) rfl ?_
    · cases hg
      exact h.not_free (congrArg Pc.pinRole hpc)
    · rcases hb₁ with rfl | ⟨v, bytes, -, rfl⟩ <;> rfl
  | lock hpc hb =>
    rw [lockData_ret hb]
    exact ⟨h.free.nodup, h.free.mapped⟩
  | unlock hpc =>
    rw [unlockData_eq]
    exact ⟨h.free.nodup, h.free.mapped⟩
  | finishFetch hpc =>
    rw [finishFetch_eq]
    exact ⟨h.free.nodup, h.free.mapped⟩
  | finishFlush hpc | createFinish hpc =>
    rw [finishFlush_eq]
    exact ⟨h.free.nodup, h.free.mapped⟩
  | _ => exact ⟨h.free.nodup, h.free.mapped⟩

theorem Move.pinInv (hm : Move w t c w') (halone : PinsAlone w t) (h : PinInv w) : PinInv w' := by
  refine ⟨?_, hm.freeUnused h⟩
  have hpins := h.pins
  have hmove := hm.pins h.free halone
  generalize w'.pinState = s at hmove ⊢
  cases hmove with
  | step hs hrace => exact hpins.step hs hrace
  | same => exact hpins
  | leak f hr => exact hpins.leak hr

theorem pinInv_of_reached (hr : Reached d ok w h) (hok : ∀ w t c, ok w t c → PinsAlone w t) : PinInv w :=
  hr.inv (I := fun w _ => PinInv w) (pinInv_init n τ d)
    fun w _ _ t _ ht hs hw => (move_of_step hs).pinInv (hok w t _ ht) hw

/-- **A victim is not pinned**, and no task has a guard on it or is about to get one, if no frame is
pinned between its last `fetch_sub` and `evictor.add`. -/
theorem victim_unpinned (hr : Reached d (fun w t _ => PinsAlone w t) w h) {t : τ} {r : Request}
    (ht : w.tasks t = .take r) {f : Fin n} {e : ClockEvictor n} (hf : w.bpm.evictor.victim = (some f, e)) :
    (w.bpm.frames f).pinCount = 0 ∧ ∀ u, ¬ (w.tasks u).pinRole.Uses f :=
  (pinInv_of_reached hr fun _ _ _ => id).pins.victim (congrArg Pc.pinRole ht)
    (ClockEvictor.victim_some hf).1

/-- The first task creates a page and drops its guard, the second looks for a frame. -/
def dropSteps : List (Fin 2 × Choice) :=
  [(0, .createPage 1), (0, .go), (0, .go), (0, .go), (0, .go), (0, .go), (0, .go), (0, .go), (0, .go),
    (0, .drop), (0, .go), (0, .go), (1, .createPage 1), (1, .go), (1, .go), (1, .go)]

theorem victim_unpinned_dropped : ∃ (w : World 1 (Fin 2)) (h : History 1),
    Reached emptyTable (fun w t _ => PinsAlone w t) w h ∧ w.tasks 1 = .take (.create ⟨1, 1⟩) ∧
      w.bpm.evictor.victim.1 = some 0 ∧
        (w.bpm.frames 0).pinCount = 0 ∧ ∀ u, ¬ (w.tasks u).pinRole.Uses 0 := by
  have hrun := reached_runSteps .init
    (rfl : runSteps (fun w t _ => PinsAlone w t) (World.init 1 (Fin 2) emptyTable, History.init 1)
      dropSteps = some _)
  exact ⟨_, _, hrun, rfl, rfl, victim_unpinned hrun (t := 1) rfl rfl⟩

/-! ## A late call of the evictor -/

/-- The first task releases its last pin. Before it calls `evictor.add`, the second fetches the page and
calls `evictor.remove`. The third then looks for a frame. -/
def lateAddSteps : List (Fin 3 × Choice) :=
  [(0, .createPage 1), (0, .go), (0, .go), (0, .go), (0, .go), (0, .go), (0, .go), (0, .go), (0, .go),
    (0, .drop), (1, .fetchPage ⟨1, 0⟩ .read), (1, .go), (1, .go), (1, .go), (1, .go), (1, .go), (0, .go),
    (0, .go), (1, .go), (2, .createPage 1), (2, .go), (2, .go), (2, .go)]

/-- The victim is pinned, and the second task has a guard on it. -/
theorem late_add_evicts_pinned : ∃ (w : World 1 (Fin 3)) (h : History 1),
    Reached emptyTable (fun _ _ _ => True) w h ∧ w.tasks 2 = .take (.create ⟨1, 1⟩) ∧
      w.bpm.freeFrames = [] ∧ w.bpm.evictor.victim.1 = some 0 ∧ w.tasks 1 = .guard ⟨1, 0⟩ .read 0 ∧
        ¬ ((w.bpm.frames 0).pinCount = 0 ∧ ∀ u, ¬ (w.tasks u).pinRole.Uses 0) := by
  have hrun := reached_runSteps .init
    (rfl : runSteps (fun _ _ _ => True) (World.init 1 (Fin 3) emptyTable, History.init 1)
      lateAddSteps = some _)
  exact ⟨_, _, hrun, rfl, rfl, rfl, rfl, fun hc => absurd hc.1 (by decide +kernel)⟩

end Runs

end World

end RarmDb
