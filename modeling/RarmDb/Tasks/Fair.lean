import RarmDb.Lib.Ghost
import RarmDb.Pool.Queue
import RarmDb.Tasks.Latest

/-!
# Evictions are fair

* `evictorCall`: the call of the evictor that a step makes; **`Move.evictor`**: it makes no other;
* `evictorSystem`: runs of the pool, with the frames that were evicted since `add` was last called for a frame;
* **`evicted_once`**: since `add` was last called for a frame that waits, every other one is evicted at most once.
-/

namespace RarmDb

open BufferPoolManager ClockEvictor

variable {n : ℕ} {τ : Type} [DecidableEq τ]

namespace World

/-- The call of the evictor that the step of a task makes. -/
def evictorCall (w : World n τ) (t : τ) (c : Choice) : Option (EvictorOp n) :=
  match w.tasks t, c with
  | .take _, .go => if w.bpm.freeFrames = [] then some .victim else none
  | .remove _ f, .go => some (.remove f)
  | .add f _, .go => some (.add f)
  | _, _ => none

/-- The evictor after such a call. -/
def called (e : ClockEvictor n) : Option (EvictorOp n) → ClockEvictor n
  | none => e
  | some op => e.call op

/-- For each frame, the ones that were evicted since `add` was last called for it. -/
def overtaken (o : Fin n → List (Fin n)) (e : ClockEvictor n) : Option (EvictorOp n) → Fin n → List (Fin n)
  | none => o
  | some op => overtake o e op

variable {w w' : World n τ} {t : τ} {c : Choice}

/-- **A step makes one call of the evictor at most.** -/
theorem Move.evictor (hm : Move w t c w') : w'.bpm.evictor = called w.bpm.evictor (w.evictorCall t c) := by
  unfold evictorCall
  cases hm with
  | takeFree hpc hfree =>
    rw [hpc]
    dsimp only
    rw [if_neg (by rw [hfree]; exact List.cons_ne_nil _ _)]
    rfl
  | takeVictim hpc hfree hvictim | full hpc hfree hvictim | panic hpc hfree hvictim =>
    rw [hpc]
    dsimp only
    rw [if_pos hfree]
    exact (congrArg Prod.snd hvictim).symm
  | @evict p mode f v hpc hv =>
    rw [hpc]
    cases image (w.bpm.frames f) v <;> rfl
  | releaseCreate hpc hb =>
    rw [hpc]
    obtain ⟨b₁, hb₁, rfl⟩ := registerCreated_ret hb
    rcases hb₁ with rfl | ⟨v, bytes, -, rfl⟩ <;> rfl
  | finishFetch hpc =>
    rw [hpc, finishFetch_eq]
    rfl
  | finishFlush hpc | createFinish hpc =>
    rw [hpc, finishFlush_eq]
    rfl
  | lock hpc hb =>
    rw [hpc, lockData_ret hb]
    rfl
  | unlock hpc =>
    rw [hpc, unlockData_eq]
    rfl
  | _ hpc =>
    rw [hpc]
    rfl

variable [Fintype τ]

/-- The tasks and the pool, with the frames that were evicted before others. -/
def evictorSystem (n : ℕ) (τ : Type) [DecidableEq τ] [Fintype τ] :
    Ghost.System (World n τ) (Fin n → List (Fin n)) (τ × Choice) where
  step w a := w.step a.1 a.2
  note o w a := overtaken o w.bpm.evictor (w.evictorCall a.1 a.2)

variable {ok : World n τ → (Fin n → List (Fin n)) → τ × Choice → Prop} {d : Disk} {o : Fin n → List (Fin n)}

theorem waitsFairly_of_reached (hr : (evictorSystem n τ).Reached ok (World.init n τ d) (fun _ => []) w o) :
    WaitsFairly w.bpm.evictor o := by
  refine hr.inv (I := fun w o => WaitsFairly w.bpm.evictor o) (waitsFairly_new n) fun w w' o a _ hs ho => ?_
  have hevictor := Move.evictor (move_of_step hs)
  change WaitsFairly w'.bpm.evictor (overtaken o w.bpm.evictor (w.evictorCall a.1 a.2))
  rw [hevictor]
  cases w.evictorCall a.1 a.2 with
  | none => exact ho
  | some op => exact ho.call op

/-- **No frame is evicted twice before another one that waits**: since `add` was last called for the waiting frame,
whatever the order of the steps, every other frame is evicted at most once. -/
theorem evicted_once (hr : (evictorSystem n τ).Reached ok (World.init n τ d) (fun _ => []) w o) {f : Fin n}
    (hf : w.bpm.evictor.Mem f) : (o f).Nodup ∧ f ∉ o f ∧ (o f).length < n :=
  (waitsFairly_of_reached hr).once hf

/-- One task fetches three pages into two frames. -/
def fetchThreeSteps : List (Fin 1 × Choice) :=
  goingOn [(0, .fetchPage ⟨1, 1⟩ .read, 13), (0, .drop, 2), (0, .fetchPage ⟨1, 0⟩ .read, 13), (0, .drop, 2),
    (0, .fetchPage ⟨2, 0⟩ .read, 2)]

/-- The second frame waits, and the first one has been evicted before it. -/
theorem evicted_once_fetched : ∃ (w : World 2 (Fin 1)) (o : Fin 2 → List (Fin 2)),
    (evictorSystem 2 (Fin 1)).Reached (fun _ _ _ => True) (World.init 2 (Fin 1) twoPages) (fun _ => []) w o ∧
      o 1 = [0] ∧ (o 1).Nodup ∧ 1 ∉ o 1 ∧ (o 1).length < 2 := by
  have hrun := Ghost.System.reached_get
    (by decide +kernel : ((evictorSystem 2 (Fin 1)).run (fun _ _ _ => True)
      (World.init 2 (Fin 1) twoPages, fun _ => []) fetchThreeSteps).isSome = true)
  exact ⟨_, _, hrun, by decide +kernel, evicted_once hrun (by unfold Mem; decide +kernel)⟩

end World

end RarmDb
