import Mathlib.Data.List.Perm.Basic
import RarmDb.Pool.Calls
import RarmDb.Pool.Store

/-!
# The locks of the guards

* `withGuard`, `withoutGuard`: a frame is locked and unlocked; `dropped`: a guard is dropped;
* `Locked`: the pins and locks of the frames are those of the guards;
* **`Locked.cons`**, **`Locked.eraseIdx`**: a new guard, and one guard less;
* `touched_modifyFrame`, `touched_pinFrame`, `touched_dropped`: one frame changes in place.
-/

namespace RarmDb

open BufferPoolManager

variable {n : ℕ} {b b' : BufferPoolManager n} {held : List (Fin n)} {guards : List (Guard n)} {f : Fin n}
  {m : PageId → Page} {W : Fin n → Prop} {p : PageId} {mode : Mode} {i : ℕ} {g : Guard n}

/-! ## The lock of a guard -/

/-- The frame with a lock for a guard. -/
def withGuard (fr : Frame) : Mode → Frame
  | .read => { fr with readers := fr.readers + 1 }
  | .write => { fr with writer := true }

/-- The frame with the lock of a guard released. -/
def withoutGuard (fr : Frame) : Mode → Frame
  | .read => { fr with readers := fr.readers - 1 }
  | .write => { fr with writer := false }

theorem lockData_eq (hread : mode = .read → (b.frames f).canRead)
    (hwrite : mode = .write → (b.frames f).canWrite) :
    b.lockData f mode = .ret (b.modifyFrame f fun fr => withGuard fr mode) := by
  cases mode with
  | read => exact if_pos (hread rfl)
  | write => exact if_pos (hwrite rfl)

theorem unlockData_eq (b : BufferPoolManager n) (f : Fin n) (mode : Mode) :
    b.unlockData f mode = b.modifyFrame f fun fr => withoutGuard fr mode := by
  cases mode <;> rfl

/-- The state after the guard was dropped. -/
def dropped (b : BufferPoolManager n) (g : Guard n) : BufferPoolManager n :=
  (b.unpinned g.frame).unlockData g.frame g.mode

theorem dropped_frames (b : BufferPoolManager n) (g : Guard n) :
    (dropped b g).frames = Function.update b.frames g.frame
      (withoutGuard { b.frames g.frame with pinCount := (b.frames g.frame).pinCount - 1 } g.mode) := by
  rw [dropped, unlockData_eq]
  unfold modifyFrame
  dsimp only
  rw [unpinned_frames, Function.update_self, Function.update_idem]

/-! ## Guards and locks -/

/-- The pins and locks of the frames come from `guards`, and one more pin for each frame in `held`.
A write guard is the only guard of its frame. -/
structure Locked (b : BufferPoolManager n) (held : List (Fin n)) (guards : List (Guard n)) : Prop where
  pins : ∀ f, (b.frames f).pinCount = guards.countP (fun g => g.frame = f) + held.count f
  readers : ∀ f, (b.frames f).readers = guards.count ⟨f, .read⟩
  writer : ∀ f, (b.frames f).writer = true ↔ ⟨f, .write⟩ ∈ guards
  alone : ∀ (i j : ℕ) (g h : Guard n), guards[i]? = some g → guards[j]? = some h → g.frame = h.frame →
    g.mode = .write → i = j

theorem countP_eraseIdx {α : Type} {l : List α} {a : α} (h : l[i]? = some a) (P : α → Bool) :
    l.countP P = (l.eraseIdx i).countP P + if P a then 1 else 0 := by
  obtain ⟨hi, rfl⟩ := List.getElem?_eq_some_iff.mp h
  rw [← (List.getElem_cons_eraseIdx_perm hi).countP_eq, List.countP_cons]

namespace Locked

theorem not_frame (h : Locked b held guards) (hpin : (b.frames f).pinCount = 0) :
    ∀ g ∈ guards, g.frame ≠ f := by
  intro g hg hgf
  have hpos : 0 < guards.countP fun g => g.frame = f :=
    List.countP_pos_iff.mpr ⟨g, hg, decide_eq_true hgf⟩
  have hpins := h.pins f
  omega

theorem count_read_le (h : Locked b held guards) (f : Fin n) :
    (b.frames f).readers ≤ (b.frames f).pinCount := by
  rw [h.pins, h.readers, List.count]
  refine (List.countP_mono_left ?_).trans (Nat.le_add_right ..)
  intro g _ hg
  rw [eq_of_beq hg]
  exact decide_eq_true rfl

theorem canWrite (h : Locked b held guards) (hpin : (b.frames f).pinCount = 0) :
    (b.frames f).canWrite := by
  refine ⟨?_, Nat.le_zero.mp (hpin ▸ h.count_read_le f)⟩
  cases hw : (b.frames f).writer with
  | false => rfl
  | true => exact absurd rfl (h.not_frame hpin _ ((h.writer f).mp hw))

theorem pinCount_ne_zero (h : Locked b held guards) (hg : g ∈ guards) :
    (b.frames g.frame).pinCount ≠ 0 :=
  fun hpin => h.not_frame hpin g hg rfl

theorem congr (h : Locked b held guards) (hf : ∀ f, (b'.frames f).pinCount = (b.frames f).pinCount ∧
    (b'.frames f).readers = (b.frames f).readers ∧ (b'.frames f).writer = (b.frames f).writer) :
    Locked b' held guards where
  pins f := (hf f).1.trans (h.pins f)
  readers f := (hf f).2.1.trans (h.readers f)
  writer f := by rw [(hf f).2.2, h.writer]
  alone := h.alone

theorem pinFrame (h : Locked b held guards) (f : Fin n) : Locked (b.pinFrame f) (f :: held) guards := by
  have hframes : ∀ g, (b.pinFrame f).frames g =
      if g = f then { b.frames g with pinCount := (b.frames g).pinCount + 1 } else b.frames g := by
    intro g
    rw [pinFrame_frames]
    by_cases hg : g = f
    · subst hg
      rw [Function.update_self, if_pos rfl]
    · rw [Function.update_of_ne hg, if_neg hg]
  constructor
  case pins =>
    intro g
    rw [hframes, List.count_cons, ← Nat.add_assoc, ← h.pins]
    by_cases hg : g = f
    · subst hg
      simp
    · simp [hg, Ne.symm hg]
  case readers =>
    intro g
    rw [hframes, ← h.readers]
    split_ifs <;> rfl
  case writer =>
    intro g
    rw [hframes, ← h.writer]
    split_ifs <;> rfl
  case alone => exact h.alone

theorem assigned (h : Locked b held guards) (hpin : (b.frames f).pinCount = 0)
    (hself : (b'.frames f).pinCount = 1 ∧ (b'.frames f).canWrite)
    (hframes : ∀ g, g ≠ f → b'.frames g = b.frames g) : Locked b' (f :: held) guards := by
  have hnone := h.not_frame hpin
  constructor
  case pins =>
    intro g
    by_cases hg : g = f
    · subst hg
      have hpins := h.pins g
      rw [hpin] at hpins
      rw [hself.1, List.count_cons_self]
      omega
    · rw [hframes g hg, h.pins, List.count_cons_of_ne (Ne.symm hg)]
  case readers =>
    intro g
    by_cases hg : g = f
    · subst hg
      rw [hself.2.2, eq_comm, List.count_eq_zero]
      exact fun hg => hnone _ hg rfl
    · rw [hframes g hg, h.readers]
  case writer =>
    intro g
    by_cases hg : g = f
    · subst hg
      rw [hself.2.1]
      exact ⟨fun hf => (by cases hf), fun hg => absurd rfl (hnone _ hg)⟩
    · rw [hframes g hg, h.writer]
  case alone => exact h.alone

theorem reassigned (h : Locked b held guards) (hr : Reassigned b b' f p) :
    Locked b' (f :: held) guards :=
  h.assigned hr.unpinned ⟨hr.pinCount, hr.unlocked⟩ hr.frames

/-- **A pinned frame is locked** for a new guard. -/
theorem cons (h : Locked b (f :: held) guards) (hwrite : mode = .write → ∀ g ∈ guards, g.frame ≠ f)
    (hread : ⟨f, .write⟩ ∉ guards) :
    b.lockData f mode = .ret (b.modifyFrame f fun fr => withGuard fr mode) ∧
      Locked (b.modifyFrame f fun fr => withGuard fr mode) held (⟨f, mode⟩ :: guards) := by
  have hwriter : (b.frames f).writer = false :=
    Bool.eq_false_iff.mpr fun hw => hread ((h.writer f).mp hw)
  have hreaders : mode = .write → (b.frames f).readers = 0 := fun hm => by
    rw [h.readers, List.count_eq_zero]
    exact fun hg => hwrite hm _ hg rfl
  refine ⟨lockData_eq (fun _ => hwriter) fun hm => ⟨hwriter, hreaders hm⟩, ?_⟩
  constructor
  case pins =>
    intro g
    rw [List.countP_cons]
    have hpins := h.pins g
    rw [List.count_cons] at hpins
    by_cases hg : g = f
    · subst hg
      rw [modifyFrame_self]
      have hsame : (withGuard (b.frames g) mode).pinCount = (b.frames g).pinCount := by cases mode <;> rfl
      rw [beq_self_eq_true, if_pos rfl] at hpins
      rw [hsame, hpins, decide_eq_true rfl, if_pos rfl]
      omega
    · rw [modifyFrame_of_ne hg]
      simpa [hg, Ne.symm hg] using hpins
  case readers =>
    intro g
    rw [List.count_cons]
    have hcount := h.readers g
    by_cases hg : g = f
    · subst hg
      rw [modifyFrame_self]
      cases mode <;> simpa [withGuard] using hcount
    · rw [modifyFrame_of_ne hg]
      simpa [Ne.symm hg] using hcount
  case writer =>
    intro g
    rw [List.mem_cons]
    have hw := h.writer g
    by_cases hg : g = f
    · subst hg
      rw [modifyFrame_self]
      cases mode with
      | read => simpa [withGuard] using hw
      | write => simp [withGuard]
    · rw [modifyFrame_of_ne hg]
      simpa [hg] using hw
  case alone =>
    intro i j g₁ g₂ h₁ h₂ hf hm
    rcases i with - | i <;> rcases j with - | j
    · rfl
    · cases h₁
      rw [List.getElem?_cons_succ] at h₂
      exact absurd hf.symm (hwrite hm g₂ (List.mem_of_getElem? h₂))
    · cases h₂
      rw [List.getElem?_cons_succ] at h₁
      obtain ⟨f₁, m₁⟩ := g₁
      subst hf hm
      exact absurd (List.mem_of_getElem? h₁) hread
    · exact congrArg _ (h.alone i j g₁ g₂ h₁ h₂ hf hm)

/-- **A guard is dropped.** -/
theorem eraseIdx (h : Locked b held guards) (hi : guards[i]? = some g) :
    b.unpinFrame g.frame = .ret (b.unpinned g.frame) ∧ Locked (dropped b g) held (guards.eraseIdx i) := by
  refine ⟨unpinFrame_eq (h.pinCount_ne_zero (List.mem_of_getElem? hi)), ?_⟩
  have hframes : ∀ f, (dropped b g).frames f = if f = g.frame then
      withoutGuard { b.frames f with pinCount := (b.frames f).pinCount - 1 } g.mode else b.frames f := by
    intro f
    rw [dropped_frames]
    by_cases hf : f = g.frame
    · subst hf
      rw [Function.update_self, if_pos rfl]
    · rw [Function.update_of_ne hf, if_neg hf]
  constructor
  case pins =>
    intro f
    have hpins := h.pins f
    rw [countP_eraseIdx hi] at hpins
    rw [hframes]
    by_cases hf : f = g.frame
    · subst hf
      rw [if_pos rfl]
      cases hm : g.mode <;> simp_all [withoutGuard]
    · rw [if_neg hf]
      simpa [Ne.symm hf] using hpins
  case readers =>
    intro f
    have hcount := h.readers f
    rw [List.count, countP_eraseIdx hi] at hcount
    rw [hframes]
    by_cases hf : f = g.frame
    · subst hf
      rw [if_pos rfl]
      obtain ⟨f, mode⟩ := g
      cases mode <;> simp_all [withoutGuard, List.count]
    · rw [if_neg hf]
      obtain ⟨f', mode⟩ := g
      simpa [Ne.symm hf, List.count] using hcount
  case writer =>
    intro f
    rw [hframes, List.mem_eraseIdx_iff_getElem?]
    by_cases hg : g = ⟨f, .write⟩
    · subst hg
      rw [if_pos rfl]
      refine ⟨fun hw => (by cases hw), fun ⟨j, hj, hg⟩ => ?_⟩
      exact absurd (h.alone j i _ _ hg hi rfl rfl) hj
    · have hsame : (if f = g.frame then
          withoutGuard { b.frames f with pinCount := (b.frames f).pinCount - 1 } g.mode
          else b.frames f).writer = (b.frames f).writer := by
        split_ifs with hf
        · obtain ⟨f', mode⟩ := g
          subst hf
          cases mode with
          | read => rfl
          | write => exact absurd rfl hg
        · rfl
      rw [hsame, h.writer, List.mem_iff_getElem?]
      refine ⟨fun ⟨j, hj⟩ => ⟨j, ?_, hj⟩, fun ⟨j, _, hj⟩ => ⟨j, hj⟩⟩
      rintro rfl
      exact hg (Option.some.inj (hi.symm.trans hj))
  case alone =>
    intro j k g₁ g₂ h₁ h₂ hf hm
    rw [List.getElem?_eraseIdx] at h₁ h₂
    split_ifs at h₁ h₂ with hj hk hk
    all_goals
      have hjk := h.alone _ _ g₁ g₂ h₁ h₂ hf hm
      omega

end Locked

/-! ## Changes in place -/

theorem touched_modifyFrame {change : Frame → Frame} (h : PoolInv b m W) (hp : b.pageTable p = some f)
    (hid : (change (b.frames f)).pageId = (b.frames f).pageId)
    (hpin : (change (b.frames f)).pinCount = (b.frames f).pinCount) :
    Touched b (b.modifyFrame f change) f where
  frames _ hg := modifyFrame_of_ne hg change
  pageId := by rw [modifyFrame_self, hid]
  table := rfl
  free := rfl
  evictor g := by
    change b.evictor.Mem g ↔ _
    split_ifs with hg
    · subst hg
      rw [modifyFrame_self, hpin, h.evictor, h.pageId_of_table hp, and_iff_right (Option.some_ne_none p)]
    · rfl
  fetches := rfl
  flushes := rfl
  diskManager := rfl

theorem touched_pinFrame (h : PoolInv b m W) (f : Fin n) : Touched b (b.pinFrame f) f where
  frames g hg := by rw [pinFrame_frames, Function.update_of_ne hg]
  pageId := by rw [pinFrame_frames, Function.update_self]
  table := by rw [pinFrame_eq]
  free := by rw [pinFrame_eq]
  evictor g := by
    rw [mem_pinFrame]
    split_ifs with hg
    · subst hg
      rw [pinFrame_frames, Function.update_self]
      refine ⟨fun hn => absurd ⟨rfl, ((h.evictor g).mp hn.1).2⟩ hn.2, fun hn => ?_⟩
      exact absurd hn (Nat.succ_ne_zero _)
    · exact and_iff_left fun hn => hg hn.1
  fetches := by rw [pinFrame_eq]
  flushes := by rw [pinFrame_eq]
  diskManager := by rw [pinFrame_eq]

theorem dropped_eq (b : BufferPoolManager n) (g : Guard n) :
    dropped b g =
      { b with frames := (dropped b g).frames, evictor := (b.unpinned g.frame).evictor } := by
  rw [dropped, unlockData_eq, unpinned_eq]
  rfl

theorem touched_dropped (h : PoolInv b m W) (hpin : (b.frames g.frame).pinCount ≠ 0) :
    Touched b (dropped b g) g.frame := by
  have hself : (dropped b g).frames g.frame = withoutGuard
      { b.frames g.frame with pinCount := (b.frames g.frame).pinCount - 1 } g.mode := by
    rw [dropped_frames, Function.update_self]
  have hmem : ¬ b.evictor.Mem g.frame := fun hn => hpin ((h.evictor _).mp hn).2
  constructor
  case frames =>
    intro f hf
    rw [dropped_frames, Function.update_of_ne hf]
  case pageId =>
    rw [hself]
    cases g.mode <;> rfl
  case evictor =>
    intro f
    rw [dropped_eq]
    dsimp only
    rw [mem_unpinned]
    split_ifs with hf
    · subst hf
      have hcount : ((dropped b g).frames g.frame).pinCount = (b.frames g.frame).pinCount - 1 := by
        rw [hself]
        cases g.mode <;> rfl
      rw [hcount, or_iff_right hmem, and_iff_right rfl]
      omega
    · exact or_iff_left fun hn => hf hn.1
  all_goals rw [dropped_eq]

end RarmDb
