import Mathlib.Data.Nat.Notation
import Mathlib.Logic.Function.Basic
import Mathlib.Tactic.ByContra

/-!
# Loads and flushes of a cache

Tasks load pages into frames and flush the pages that they unmap. A load and a flush are announced by a
channel in a map; who finds the channel waits for its message. A load waits for the flush of its page
before it reads. Taking frames, the lock of the table and the pins are not part of this protocol: a step
says what it needs of them.

* `Role`, `Pool`, `Step`: the protocol;
* `Fits`: what the shared state says of a task; `Apart`: what two tasks cannot both do;
* `Inv`, **`Inv.step`**: the invariant, which every step keeps;
* **`Inv.sole_loader`**, **`Inv.not_flushing`**, **`Inv.loaded`**: one load of a page at a time, no read
  during a flush of the page, and no load of a page that a task was given;
* `Owned`, **`Owned.step`**: every flush is announced by a task.
-/

namespace RarmDb

namespace CacheProtocol

variable {P F τ : Type}

/-- What a task does with the cache. Pages in `img` are unmapped, and flushed by the task. -/
inductive Role (P F : Type)
  /-- Nothing. -/
  | away
  /-- It has a frame for a load, and has announced the flush. -/
  | holding (img : Option P)
  /-- It has a frame for a new page, and has not announced the flush yet. -/
  | detached (img : Option P)
  /-- It has mapped a page that it is about to load. -/
  | registering (p : P) (f : F) (img : Option P)
  /-- It has found the page in the table. -/
  | hit (p : P) (f : F)
  /-- It waits for the load of the page. -/
  | subscribed (p : P) (f : F) (c : ℕ)
  /-- It has announced its load, and waits for the flush of the page, if there is one. -/
  | waiting (p : P) (f : F) (c : ℕ) (img : Option P)
  | subscribedFlush (p : P) (f : F) (c : ℕ) (img : Option P) (d : ℕ)
  /-- It loads the page. -/
  | loading (p : P) (f : F) (c : ℕ) (img : Option P)
  /-- The page is loaded. -/
  | ready (p : P) (f : F) (img : Option P)

namespace Role

/-- The page that the task uses, with its frame. -/
def user : Role P F → Option (P × F)
  | registering p f _ | hit p f | subscribed p f _ | waiting p f .. | subscribedFlush p f ..
  | loading p f .. | ready p f _ => some (p, f)
  | _ => none

/-- The page that the task loads, with its channel. -/
def load : Role P F → Option (P × ℕ)
  | waiting p _ c _ | subscribedFlush p _ c .. | loading p _ c _ => some (p, c)
  | _ => none

/-- The page whose flush the task has announced. -/
def flush : Role P F → Option P
  | holding img | registering _ _ img | waiting _ _ _ img | subscribedFlush _ _ _ img _ | loading _ _ _ img
  | ready _ _ img => img
  | _ => none

/-- The page whose flush the task has not announced yet. -/
def unannounced : Role P F → Option P
  | detached img => img
  | _ => none

/-- The page that the task has mapped, and whose load it has not announced yet. -/
def registers : Role P F → Option P
  | registering p .. => some p
  | _ => none

/-- The page that the task is about to read when its flush is done. -/
def waits : Role P F → Option P
  | registering p .. | waiting p .. | subscribedFlush p .. => some p
  | _ => none

end Role

/-- The table, the channels of the loads and the flushes, those with a message, the next channel, and the
frames that are never unmapped again. -/
structure Pool (P F : Type) where
  table : P → Option F
  fetches : P → Option ℕ
  flushes : P → Option ℕ
  sent : ℕ → Bool
  next : ℕ
  stuck : F → Prop

variable {b : Pool P F} {role : τ → Role P F} {r r' : Role P F} {t u : τ} {f g : F} {p q v : P} {c d : ℕ}
  {img : Option P}

/-! ## The invariant -/

/-- The flush of every page in `img` is announced. -/
def Pool.Announced (b : Pool P F) (img : Option P) : Prop := ∀ v, img = some v → b.flushes v ≠ none

/-- What the pool says of a task. -/
def Fits (b : Pool P F) : Role P F → Prop
  | .away => True
  | .holding img => b.Announced img
  | .detached img => ∀ v, img = some v → b.table v = none ∧ b.flushes v = none
  | .registering p f img => b.table p = some f ∧ b.fetches p = none ∧ b.Announced img
  | .hit p f => b.table p = some f
  | .subscribed p f c =>
    b.table p = some f ∧ (b.fetches p = some c ∨ b.sent c = true ∧ b.fetches p = none)
  | .waiting p f c img => b.table p = some f ∧ b.fetches p = some c ∧ b.Announced img
  | .subscribedFlush p f c img d => b.table p = some f ∧ b.fetches p = some c ∧ b.Announced img ∧
      (b.flushes p = some d ∨ b.sent d = true ∧ b.flushes p = none)
  | .loading p f c img =>
    b.table p = some f ∧ b.fetches p = some c ∧ b.flushes p = none ∧ b.Announced img
  | .ready p f img => b.table p = some f ∧ b.fetches p = none ∧ b.Announced img

/-- What two tasks do not both: load on one channel, flush one page, use a page that one of them has
just mapped. -/
structure Apart (r r' : Role P F) : Prop where
  load : ∀ p q c, r.load = some (p, c) → r'.load ≠ some (q, c)
  flush : ∀ v, r.flush = some v → r'.flush ≠ some v
  registers : ∀ p f, r.registers = some p → r'.user ≠ some (p, f)

/-- Every channel in a map is old, without a message, and of one page in one map. -/
structure Channels (b : Pool P F) : Prop where
  sent : ∀ c, b.sent c = true → c < b.next
  fetches : ∀ p c, b.fetches p = some c → c < b.next ∧ b.sent c = false
  flushes : ∀ v c, b.flushes v = some c → c < b.next ∧ b.sent c = false
  fetches_inj : ∀ p q c, b.fetches p = some c → b.fetches q = some c → p = q
  flushes_inj : ∀ p q c, b.flushes p = some c → b.flushes q = some c → p = q
  disjoint : ∀ p q c, b.fetches p = some c → b.flushes q ≠ some c

/-- The invariant of the protocol. -/
structure Inv (b : Pool P F) (role : τ → Role P F) : Prop where
  fits : ∀ t, Fits b (role t)
  apart : ∀ t u, t ≠ u → Apart (role t) (role u)
  channels : Channels b
  fetched : ∀ p c, b.fetches p = some c →
    ∃ f, b.table p = some f ∧ ((∃ t, (role t).load = some (p, c)) ∨ b.stuck f)
  pending : ∀ v f, b.table v = some f → b.flushes v ≠ none → b.fetches v ≠ none ∨ ∃ t, (role t).registers = some v

theorem Fits.user (h : Fits b r) (hu : r.user = some (p, f)) : b.table p = some f := by
  cases r <;> cases hu <;> first | exact h | exact h.1

theorem Fits.load (h : Fits b r) (hl : r.load = some (p, c)) : b.fetches p = some c := by
  cases r <;> cases hl <;> exact h.2.1

theorem Fits.flush (h : Fits b r) (hv : r.flush = some v) : b.flushes v ≠ none := by
  cases r with
  | holding img => exact h v hv
  | registering p f img | waiting p f c img | ready p f img => exact h.2.2 v hv
  | subscribedFlush p f c img d => exact h.2.2.1 v hv
  | loading p f c img => exact h.2.2.2 v hv
  | away | detached img | hit p f | subscribed p f c => cases hv

theorem user_of_load (hl : r.load = some (p, c)) : ∃ f, r.user = some (p, f) := by
  cases r <;> cases hl <;> exact ⟨_, rfl⟩

theorem user_of_registers (hp : r.registers = some p) : ∃ f, r.user = some (p, f) := by
  cases r <;> cases hp
  exact ⟨_, rfl⟩

theorem user_of_waits (hw : r.waits = some p) : ∃ f, r.user = some (p, f) := by
  cases r <;> cases hw <;> exact ⟨_, rfl⟩

namespace Inv

/-- **One task at a time** loads a page. -/
theorem sole_loader (h : Inv b role) (ht : (role t).load = some (p, c)) (hu : (role u).load = some (p, d)) :
    t = u := by
  have hcd : c = d := Option.some.inj (((h.fits t).load ht).symm.trans ((h.fits u).load hu))
  by_contra hne
  exact (h.apart t u hne).load p p c ht (hcd ▸ hu)

/-- **While a page is read** no task flushes it. -/
theorem not_flushing (h : Inv b role) (ht : role t = .loading p f c img) (u : τ) :
    (role u).flush ≠ some p ∧ (role u).unannounced ≠ some p := by
  have hfits := h.fits t
  rw [ht] at hfits
  refine ⟨fun hu => (h.fits u).flush hu hfits.2.2.1, fun hu => ?_⟩
  have hu' := h.fits u
  cases hr : role u <;> rw [hr] at hu hu' <;> cases hu
  cases (hu' p rfl).1.symm.trans hfits.1

/-- **A task that was given a page** has it in its frame, and no task loads the page. -/
theorem loaded (h : Inv b role) (ht : role t = .ready p f img) :
    b.table p = some f ∧ ∀ u c, (role u).load ≠ some (p, c) := by
  have hfits := h.fits t
  rw [ht] at hfits
  refine ⟨hfits.1, fun u c hu => ?_⟩
  cases ((h.fits u).load hu).symm.trans hfits.2.1

theorem not_fetched (h : Inv b role) (hp : b.table p = none) : b.fetches p = none := by
  cases hc : b.fetches p with
  | none => rfl
  | some c =>
    obtain ⟨f, hf, -⟩ := h.fetched p c hc
    cases hp.symm.trans hf

/-- A page whose frame is neither used nor stuck has no load and no flush. -/
theorem idle (h : Inv b role) (hp : b.table p = some f) (huser : ∀ u q, (role u).user ≠ some (q, f))
    (hstuck : ¬ b.stuck f) : b.fetches p = none ∧ b.flushes p = none := by
  have hnoload : b.fetches p = none := by
    cases hc : b.fetches p with
    | none => rfl
    | some c =>
      obtain ⟨g, hg, hrest⟩ := h.fetched p c hc
      obtain rfl := Option.some.inj (hp.symm.trans hg)
      rcases hrest with ⟨u, hu⟩ | hs
      · obtain ⟨g, hmap⟩ := user_of_load hu
        obtain rfl := Option.some.inj (((h.fits u).user hmap).symm.trans hp)
        exact absurd hmap (huser u p)
      · exact absurd hs hstuck
  refine ⟨hnoload, ?_⟩
  by_contra hc
  obtain ⟨u, hu⟩ := (h.pending p f hp hc).resolve_left (not_not_intro hnoload)
  obtain ⟨g, hg⟩ := user_of_registers hu
  obtain rfl := Option.some.inj (((h.fits u).user hg).symm.trans hp)
  exact huser u p hg

end Inv

/-! ## Steps -/

variable [DecidableEq P] [DecidableEq τ]

/-- One action of the task `t`: the pool and the role of the task afterwards. -/
inductive Step (t : τ) (b : Pool P F) (role : τ → Role P F) : Pool P F → Role P F → Prop
  | same : Step t b role b (role t)
  /-- A frame is at hand, with nothing to flush. -/
  | hold (hr : role t = .away) (r : Role P F) (h : r = .holding none ∨ r = .detached none) :
      Step t b role b r
  | hit (hr : role t = .away) (p : P) (f : F) (hp : b.table p = some f)
      (hreg : ∀ u, (role u).registers ≠ some p) : Step t b role b (.hit p f)
  | subscribe (p : P) (f : F) (c : ℕ) (hr : role t = .hit p f) (hc : b.fetches p = some c) :
      Step t b role b (.subscribed p f c)
  | pass (p : P) (f : F) (hr : role t = .hit p f) (hc : b.fetches p = none) :
      Step t b role b (.ready p f none)
  | wake (p : P) (f : F) (c : ℕ) (hr : role t = .subscribed p f c) (hsent : b.sent c = true) :
      Step t b role b (.ready p f none)
  /-- A page is unmapped, and its flush announced. -/
  | unmap (hr : role t = .away) (v : P) (f : F) (hv : b.table v = some f)
      (huser : ∀ u q, (role u).user ≠ some (q, f)) (hstuck : ¬ b.stuck f) :
      Step t b role { b with table := Function.update b.table v none } (.holding none)
  | unmapDirty (hr : role t = .away) (v : P) (f : F) (hv : b.table v = some f)
      (huser : ∀ u q, (role u).user ≠ some (q, f)) (hstuck : ¬ b.stuck f) :
      Step t b role { b with
        table := Function.update b.table v none
        flushes := Function.update b.flushes v (some b.next), next := b.next + 1 } (.holding (some v))
  /-- A page is unmapped for a new page. -/
  | detach (hr : role t = .away) (v : P) (f : F) (hv : b.table v = some f)
      (huser : ∀ u q, (role u).user ≠ some (q, f)) (hstuck : ¬ b.stuck f) (img : Option P)
      (himg : ∀ q, img = some q → q = v) :
      Step t b role { b with table := Function.update b.table v none } (.detached img)
  | register (img : Option P) (hr : role t = .holding img) (p : P) (f : F) (hp : b.table p = none)
      (hdetached : ∀ u, (role u).unannounced = none) :
      Step t b role { b with table := Function.update b.table p (some f) } (.registering p f img)
  | announce (p : P) (f : F) (img : Option P) (hr : role t = .registering p f img) :
      Step t b role { b with
        fetches := Function.update b.fetches p (some b.next), next := b.next + 1 }
        (.waiting p f b.next img)
  | subscribeFlush (p : P) (f : F) (c : ℕ) (img : Option P) (hr : role t = .waiting p f c img) (d : ℕ)
      (hd : b.flushes p = some d) : Step t b role b (.subscribedFlush p f c img d)
  | load (p : P) (f : F) (c : ℕ) (img : Option P) (hr : role t = .waiting p f c img)
      (hd : b.flushes p = none) : Step t b role b (.loading p f c img)
  | wakeFlush (p : P) (f : F) (c d : ℕ) (img : Option P) (hr : role t = .subscribedFlush p f c img d)
      (hsent : b.sent d = true) : Step t b role b (.loading p f c img)
  | finishFetch (p : P) (f : F) (c : ℕ) (img : Option P) (hr : role t = .loading p f c img) :
      Step t b role { b with
        fetches := Function.update b.fetches p none, sent := Function.update b.sent c true }
        (.ready p f img)
  | finishFlush (p : P) (f : F) (v : P) (hr : role t = .ready p f (some v)) (d : ℕ)
      (hd : b.flushes v = some d) :
      Step t b role { b with
        flushes := Function.update b.flushes v none, sent := Function.update b.sent d true }
        (.ready p f none)
  /-- A new page is mapped, and the flush announced. -/
  | create (hr : role t = .detached none) (p : P) (f : F) (hp : b.table p = none)
      (hdetached : ∀ u, u ≠ t → (role u).unannounced = none) (hflush : b.flushes p = none) :
      Step t b role { b with table := Function.update b.table p (some f) } (.ready p f none)
  | createDirty (v : P) (hr : role t = .detached (some v)) (p : P) (f : F) (hp : b.table p = none)
      (hdetached : ∀ u, u ≠ t → (role u).unannounced = none) (hflush : b.flushes p = none) (hne : p ≠ v) :
      Step t b role { b with
        table := Function.update b.table p (some f)
        flushes := Function.update b.flushes v (some b.next), next := b.next + 1 } (.ready p f (some v))
  /-- The task is done with its page, or gives up; a load that is given up leaves its frame stuck. -/
  | leave (hreg : (role t).registers = none) (hload : ∀ p c, (role t).load = some (p, c) →
      ∃ f, b.table p = some f ∧ b.stuck f) : Step t b role b .away

/-! ## Channels -/

namespace Channels

omit [DecidableEq P] [DecidableEq τ] in
theorem swap (h : Channels b) : Channels { b with fetches := b.flushes, flushes := b.fetches } :=
  ⟨h.sent, h.flushes, h.fetches, h.flushes_inj, h.fetches_inj, fun p q c hp hq => h.disjoint q p c hq hp⟩

omit [DecidableEq P] [DecidableEq τ] in
theorem next_unsent (h : Channels b) : b.sent b.next = false :=
  Bool.eq_false_iff.mpr fun hs => Nat.lt_irrefl _ (h.sent _ hs)

omit [DecidableEq P] [DecidableEq τ] in
theorem retable (h : Channels b) (table : P → Option F) : Channels { b with table } :=
  ⟨h.sent, h.fetches, h.flushes, h.fetches_inj, h.flushes_inj, h.disjoint⟩

omit [DecidableEq τ] in
theorem announceFetch (h : Channels b) (p : P) :
    Channels { b with fetches := Function.update b.fetches p (some b.next), next := b.next + 1 } := by
  have hcase : ∀ q c, Function.update b.fetches p (some b.next) q = some c →
      q = p ∧ c = b.next ∨ b.fetches q = some c := by
    intro q c hc
    by_cases hq : q = p
    · rw [hq, Function.update_self] at hc
      exact .inl ⟨hq, (Option.some.inj hc).symm⟩
    · rw [Function.update_of_ne hq] at hc
      exact .inr hc
  constructor
  case sent => exact fun c hc => Nat.lt_succ_of_lt (h.sent c hc)
  case fetches =>
    intro q c hc
    rcases hcase q c hc with ⟨-, rfl⟩ | hc
    · exact ⟨Nat.lt_succ_self _, h.next_unsent⟩
    · exact ⟨Nat.lt_succ_of_lt (h.fetches q c hc).1, (h.fetches q c hc).2⟩
  case flushes =>
    intro v c hc
    exact ⟨Nat.lt_succ_of_lt (h.flushes v c hc).1, (h.flushes v c hc).2⟩
  case fetches_inj =>
    intro q q' c hq hq'
    rcases hcase q c hq with ⟨hqp, hc⟩ | hold <;> rcases hcase q' c hq' with ⟨hqp', hc'⟩ | hold'
    · rw [hqp, hqp']
    · have hlt := (h.fetches q' c hold').1
      omega
    · have hlt := (h.fetches q c hold).1
      omega
    · exact h.fetches_inj q q' c hold hold'
  case flushes_inj => exact h.flushes_inj
  case disjoint =>
    intro q v c hq hv
    rcases hcase q c hq with ⟨-, rfl⟩ | hq
    · exact absurd (h.flushes v _ hv).1 (Nat.lt_irrefl _)
    · exact h.disjoint q v c hq hv

omit [DecidableEq τ] in
theorem announceFlush (h : Channels b) (v : P) :
    Channels { b with flushes := Function.update b.flushes v (some b.next), next := b.next + 1 } :=
  (h.swap.announceFetch v).swap

omit [DecidableEq τ] in
theorem finishFetch (h : Channels b) (hc : b.fetches p = some c) :
    Channels { b with
      fetches := Function.update b.fetches p none, sent := Function.update b.sent c true } := by
  have hold : ∀ q d, Function.update b.fetches p none q = some d → q ≠ p ∧ b.fetches q = some d := by
    intro q d hd
    by_cases hq : q = p
    · rw [hq, Function.update_self] at hd
      cases hd
    · rw [Function.update_of_ne hq] at hd
      exact ⟨hq, hd⟩
  constructor
  case sent =>
    intro d hd
    by_cases hdc : d = c
    · rw [hdc]
      exact (h.fetches p c hc).1
    · exact h.sent d ((Function.update_of_ne hdc ..).symm.trans hd)
  case fetches =>
    intro q d hd
    obtain ⟨hq, hqd⟩ := hold q d hd
    have hne : d ≠ c := by
      rintro rfl
      exact hq (h.fetches_inj q p d hqd hc)
    exact ⟨(h.fetches q d hqd).1, (Function.update_of_ne hne ..).trans (h.fetches q d hqd).2⟩
  case flushes =>
    intro v d hd
    have hne : d ≠ c := by
      rintro rfl
      exact h.disjoint p v d hc hd
    exact ⟨(h.flushes v d hd).1, (Function.update_of_ne hne ..).trans (h.flushes v d hd).2⟩
  case fetches_inj => exact fun q q' d hq hq' => h.fetches_inj q q' d (hold q d hq).2 (hold q' d hq').2
  case flushes_inj => exact h.flushes_inj
  case disjoint => exact fun q v d hq => h.disjoint q v d (hold q d hq).2

omit [DecidableEq τ] in
theorem finishFlush (h : Channels b) (hd : b.flushes v = some d) :
    Channels { b with
      flushes := Function.update b.flushes v none, sent := Function.update b.sent d true } :=
  (h.swap.finishFetch hd).swap

end Channels

/-! ## The invariant is kept -/

omit [DecidableEq P] [DecidableEq τ] in
theorem Pool.sent_keep (b : Pool P F) (c d : ℕ) (hd : b.sent d = true) :
    Function.update b.sent c true d = true := by
  by_cases hdc : d = c
  · rw [hdc, Function.update_self]
  · rw [Function.update_of_ne hdc, hd]

omit [DecidableEq P] [DecidableEq τ] in
/-- A task fits a pool in which its pages are as before, but that a load or a flush of them is done. -/
theorem Fits.keep {b' : Pool P F} (h : Fits b r) (htable : ∀ p f, r.user = some (p, f) → b'.table p = b.table p)
    (hfetches : ∀ p f, r.user = some (p, f) → b'.fetches p = b.fetches p ∨
      b'.fetches p = none ∧ (∀ c, r.load ≠ some (p, c)) ∧ ∀ c, b.fetches p = some c → b'.sent c = true)
    (hflushes : ∀ p f, r.user = some (p, f) → b'.flushes p = b.flushes p ∨
      b'.flushes p = none ∧ ∀ c, b.flushes p = some c → b'.sent c = true)
    (hflush : ∀ v, r.flush = some v → b'.flushes v ≠ none)
    (hunannounced : ∀ v, r.unannounced = some v → b'.table v = b.table v ∧ b'.flushes v = b.flushes v)
    (hsent : ∀ c, b.sent c = true → b'.sent c = true) : Fits b' r := by
  have hown : ∀ p f c, r.user = some (p, f) → r.load = some (p, c) → b.fetches p = some c →
      b'.fetches p = some c := by
    intro p f c hu hl hc
    rcases hfetches p f hu with heq | ⟨-, hload, -⟩
    · exact heq.trans hc
    · exact absurd hl (hload c)
  cases r with
  | away => trivial
  | holding img => exact fun v hv => hflush v hv
  | detached img =>
    intro v hv
    obtain ⟨hv₁, hv₂⟩ := hunannounced v hv
    rw [hv₁, hv₂]
    exact h v hv
  | registering p f img | ready p f img =>
    refine ⟨(htable p f rfl).trans h.1, ?_, fun v hv => hflush v hv⟩
    rcases hfetches p f rfl with heq | ⟨hnone, -⟩
    · exact heq.trans h.2.1
    · exact hnone
  | hit p f => exact (htable p f rfl).trans h
  | subscribed p f c =>
    refine ⟨(htable p f rfl).trans h.1, ?_⟩
    rcases hfetches p f rfl with heq | ⟨hnone, -, hdone⟩
    · rw [heq]
      exact h.2.imp_right fun hs => ⟨hsent c hs.1, hs.2⟩
    · exact .inr ⟨h.2.elim (hdone c) fun hs => hsent c hs.1, hnone⟩
  | waiting p f c img =>
    exact ⟨(htable p f rfl).trans h.1, hown p f c rfl rfl h.2.1, fun v hv => hflush v hv⟩
  | subscribedFlush p f c img d =>
    refine ⟨(htable p f rfl).trans h.1, hown p f c rfl rfl h.2.1, fun v hv => hflush v hv, ?_⟩
    rcases hflushes p f rfl with heq | ⟨hnone, hdone⟩
    · rw [heq]
      exact h.2.2.2.imp_right fun hs => ⟨hsent d hs.1, hs.2⟩
    · exact .inr ⟨h.2.2.2.elim (hdone d) fun hs => hsent d hs.1, hnone⟩
  | loading p f c img =>
    refine ⟨(htable p f rfl).trans h.1, hown p f c rfl rfl h.2.1, ?_, fun v hv => hflush v hv⟩
    rcases hflushes p f rfl with heq | ⟨hnone, -⟩
    · exact heq.trans h.2.2.1
    · exact hnone

namespace Inv

omit [DecidableEq P] in
/-- The task `t` has another role, in a pool that may have changed. -/
theorem change (h : Inv b role) {b' : Pool P F} (hothers : ∀ u, u ≠ t → Fits b' (role u)) (hfits : Fits b' r)
    (hload : ∀ p c, r.load = some (p, c) → (role t).load = some (p, c) ∨ ∀ u q, (role u).load ≠ some (q, c))
    (hflush : ∀ v, r.flush = some v → (role t).flush = some v ∨ ∀ u, (role u).flush ≠ some v)
    (hreg : ∀ p, r.registers = some p → ∀ u f, (role u).user ≠ some (p, f))
    (huser : ∀ p f, r.user = some (p, f) → (role t).user = some (p, f) ∨
      ∀ u, u ≠ t → (role u).registers ≠ some p) (hchannels : Channels b')
    (hfetched : ∀ p c, b'.fetches p = some c → r.load = some (p, c) ∨
      b.fetches p = some c ∧ b'.table p = b.table p ∧ ((role t).load = some (p, c) →
        r.load = some (p, c) ∨ ∀ f, b.table p = some f → b.stuck f))
    (hpending : ∀ v f, b'.table v = some f → b'.flushes v ≠ none → r.registers = some v ∨ b'.fetches v ≠ none ∨
      b.table v = some f ∧ b.flushes v ≠ none ∧ b'.fetches v = b.fetches v ∧ (role t).registers ≠ some v)
    (hstuck : ∀ f, b.stuck f → b'.stuck f) : Inv b' (Function.update role t r) := by
  have hrole : ∀ u, u ≠ t → Function.update role t r u = role u := fun u hu => Function.update_of_ne hu ..
  have hself : Function.update role t r t = r := Function.update_self ..
  have hother : ∀ u, u ≠ t → Apart r (role u) ∧ Apart (role u) r := by
    intro u hu
    have h₁ := h.apart t u hu.symm
    have h₂ := h.apart u t hu
    refine ⟨⟨fun p q c hl hr => ?_, fun v hv hr => ?_, fun p f hp => hreg p hp u f⟩,
      ⟨fun p q c hl hr => ?_, fun v hv hr => ?_, fun p f hp hr => ?_⟩⟩
    · rcases hload p c hl with hold | hno
      · exact h₁.load p q c hold hr
      · exact hno u q hr
    · rcases hflush v hv with hold | hno
      · exact h₁.flush v hold hr
      · exact hno u hr
    · rcases hload q c hr with hold | hno
      · exact h₂.load p q c hl hold
      · exact hno u p hl
    · rcases hflush v hr with hold | hno
      · exact h₂.flush v hv hold
      · exact hno u hv
    · rcases huser p f hr with hold | hno
      · exact h₂.registers p f hp hold
      · exact hno u hu hp
  constructor
  case fits =>
    intro u
    by_cases hu : u = t
    · rw [hu, hself]
      exact hfits
    · rw [hrole u hu]
      exact hothers u hu
  case apart =>
    intro u u' hne
    by_cases hu : u = t
    · subst hu
      rw [hself, hrole u' hne.symm]
      exact (hother u' hne.symm).1
    · rw [hrole u hu]
      by_cases hu' : u' = t
      · rw [hu', hself]
        exact (hother u hu).2
      · rw [hrole u' hu']
        exact h.apart u u' hne
  case channels => exact hchannels
  case fetched =>
    intro p c hc
    have hnew : r.load = some (p, c) →
        ∃ f, b'.table p = some f ∧ ((∃ u, (Function.update role t r u).load = some (p, c)) ∨ b'.stuck f) := by
      intro hr
      obtain ⟨f, hf⟩ := user_of_load hr
      exact ⟨f, hfits.user hf, .inl ⟨t, by rw [hself, hr]⟩⟩
    rcases hfetched p c hc with hr | ⟨hold, htable, hkeep⟩
    · exact hnew hr
    · obtain ⟨f, hf, ⟨u, hu⟩ | hs⟩ := h.fetched p c hold
      · by_cases hut : u = t
        · subst hut
          rcases hkeep hu with hr | hs
          · exact hnew hr
          · exact ⟨f, htable.trans hf, .inr (hstuck f (hs f hf))⟩
        · exact ⟨f, htable.trans hf, .inl ⟨u, by rw [hrole u hut, hu]⟩⟩
      · exact ⟨f, htable.trans hf, .inr (hstuck f hs)⟩
  case pending =>
    intro v f hv hflushes
    rcases hpending v f hv hflushes with ht | hc | ⟨hold, hflushes, hsame, hne⟩
    · exact .inr ⟨t, by rw [hself, ht]⟩
    · exact .inl hc
    · refine (h.pending v f hold hflushes).imp (fun hc => by rwa [hsame]) fun ⟨u, hu⟩ => ⟨u, ?_⟩
      rw [hrole u, hu]
      rintro rfl
      exact hne hu

omit [DecidableEq P] in
theorem become (h : Inv b role) (hfits : Fits b r)
    (hload : r.load = (role t).load ∨ r.load = none ∧
      ∀ p c, (role t).load = some (p, c) → ∃ f, b.table p = some f ∧ b.stuck f)
    (hflush : ∀ v, r.flush = some v → (role t).flush = some v) (hreg : r.registers = none)
    (huser : ∀ p f, r.user = some (p, f) → (role t).user = some (p, f) ∨
      ∀ u, (role u).registers ≠ some p) (hidle : (role t).registers = none) :
    Inv b (Function.update role t r) := by
  refine h.change (fun u _ => h.fits u) hfits (fun p c hl => ?_) (fun v hv => .inl (hflush v hv))
    (fun p hp => by cases hreg.symm.trans hp)
    (fun p f hu => (huser p f hu).imp_right fun hno u _ => hno u) h.channels
    (fun p c hc => .inr ⟨hc, rfl, fun ht => ?_⟩)
    (fun v f hv hflushes => .inr (.inr ⟨hv, hflushes, rfl, by rw [hidle]; exact nofun⟩)) fun _ hs => hs
  · rcases hload with heq | ⟨hnone, -⟩
    · exact .inl (heq ▸ hl)
    · cases hnone.symm.trans hl
  · rcases hload with heq | ⟨-, hstuck⟩
    · exact .inl (heq.trans ht)
    · obtain ⟨g, hg, hs⟩ := hstuck p c ht
      exact .inr fun f hf => Option.some.inj (hg.symm.trans hf) ▸ hs

omit [DecidableEq P] [DecidableEq τ] in
theorem grow (h : Inv b role) {stuck : F → Prop} (hs : ∀ f, b.stuck f → stuck f) :
    Inv { b with stuck } role where
  fits t := by
    have ht := h.fits t
    cases hr : role t <;> rw [hr] at ht <;> exact ht
  apart := h.apart
  channels := ⟨h.channels.sent, h.channels.fetches, h.channels.flushes, h.channels.fetches_inj,
    h.channels.flushes_inj, h.channels.disjoint⟩
  fetched p c hc := by
    obtain ⟨f, hf, hrest⟩ := h.fetched p c hc
    exact ⟨f, hf, hrest.imp_right (hs f)⟩
  pending := h.pending

omit [DecidableEq P] in
/-- A frame that nobody uses is unmapped; its page may get a flush. -/
theorem unmapped (h : Inv b role) (hr : role t = .away) (hv : b.table v = some f)
    (huser : ∀ u q, (role u).user ≠ some (q, f)) (hstuck : ¬ b.stuck f) {b' : Pool P F}
    (htable : ∀ q, q ≠ v → b'.table q = b.table q) (hv' : b'.table v = none) (hfetches : b'.fetches = b.fetches)
    (hflushes : ∀ q, q ≠ v → b'.flushes q = b.flushes q) (hsent : b'.sent = b.sent)
    (hstuck' : b'.stuck = b.stuck) (hchannels : Channels b') (hfits : Fits b' r) (hnone : r.user = none)
    (hflush : ∀ q, r.flush = some q → q = v) : Inv b' (Function.update role t r) := by
  obtain ⟨hnofetch, hnoflush⟩ := h.idle hv huser hstuck
  have hne : ∀ u p g, (role u).user = some (p, g) → p ≠ v := by
    rintro u p g hu rfl
    obtain rfl := Option.some.inj (((h.fits u).user hu).symm.trans hv)
    exact huser u p hu
  have hno : ∀ u q, (role u).flush = some q → q ≠ v := by
    rintro u q hq rfl
    exact (h.fits u).flush hq hnoflush
  refine h.change (fun u _ => ?_) hfits (fun p c hl => ?_) (fun q hq => .inr fun u hu => ?_) (fun p hp => ?_)
    (fun p g hp => by cases hnone.symm.trans hp) hchannels (fun p c hc => .inr ?_)
    (fun q g hq hq' => .inr (.inr ?_)) fun g hg => by rw [hstuck']; exact hg
  · refine (h.fits u).keep (fun p g hp => htable p (hne u p g hp)) (fun p g _ => .inl (by rw [hfetches]))
      (fun p g hp => .inl (hflushes p (hne u p g hp))) (fun q hq => ?_) (fun q hq => ?_)
      fun c hc => by rw [hsent]; exact hc
    · rw [hflushes q (hno u q hq)]
      exact (h.fits u).flush hq
    · have hqv : q ≠ v := by
        rintro rfl
        cases hu : role u <;> rw [hu] at hq <;> cases hq
        have hfit := h.fits u
        rw [hu] at hfit
        cases (hfit q rfl).1.symm.trans hv
      exact ⟨htable q hqv, hflushes q hqv⟩
  · obtain ⟨g, hg⟩ := user_of_load hl
    cases hnone.symm.trans hg
  · exact hno u q hu (hflush q hq)
  · obtain ⟨g, hg⟩ := user_of_registers hp
    cases hnone.symm.trans hg
  · rw [hfetches] at hc
    have hpv : p ≠ v := by
      rintro rfl
      cases hc.symm.trans hnofetch
    exact ⟨hc, htable p hpv, fun ht => by rw [hr] at ht; cases ht⟩
  · have hqv : q ≠ v := by
      rintro rfl
      cases hq.symm.trans hv'
    rw [htable q hqv] at hq
    rw [hflushes q hqv] at hq'
    exact ⟨hq, hq', congrFun hfetches q, by rw [hr]; exact nofun⟩

omit [DecidableEq P] in
/-- A page is mapped to the frame of the task; the page that it unmapped may get a flush. -/
theorem mapped (h : Inv b role) (hidle : (role t).user = none) (hp : b.table p = none)
    (hdetached : ∀ u, u ≠ t → (role u).unannounced = none) {b' : Pool P F} (hp' : b'.table p = some f)
    (htable : ∀ q, q ≠ p → b'.table q = b.table q) (hfetches : b'.fetches = b.fetches)
    (hflushes : ∀ q, b.table q ≠ none → b'.flushes q = b.flushes q)
    (hkept : ∀ q, b.flushes q ≠ none → b'.flushes q ≠ none) (hsent : b'.sent = b.sent)
    (hstuck : b'.stuck = b.stuck) (hchannels : Channels b') (hfits : Fits b' r)
    (huser : r.user = some (p, f)) (hload : r.load = none)
    (hflush : ∀ v, r.flush = some v → (role t).flush = some v ∨ ∀ u, (role u).flush ≠ some v)
    (hnew : r.registers = some p ∨ b'.flushes p = none) : Inv b' (Function.update role t r) := by
  have hne : ∀ u q g, (role u).user = some (q, g) → q ≠ p := by
    rintro u q g hu rfl
    cases ((h.fits u).user hu).symm.trans hp
  refine h.change (fun u hu => ?_) hfits (fun q c hl => by cases hload.symm.trans hl) hflush
    (fun q hq u g hu => ?_) (fun q g hq => .inr fun u _ hu => ?_) hchannels (fun q c hc => .inr ?_)
    (fun q g hq hq' => ?_) fun g hg => by rw [hstuck]; exact hg
  · refine (h.fits u).keep (fun q g hq => htable q (hne u q g hq)) (fun q g _ => .inl (by rw [hfetches]))
      (fun q g hq => .inl (hflushes q ?_)) (fun q hq => hkept q ((h.fits u).flush hq))
      (fun q hq => by cases (hdetached u hu).symm.trans hq) fun c hc => by rw [hsent]; exact hc
    rw [(h.fits u).user hq]
    exact nofun
  · obtain ⟨g', hg'⟩ := user_of_registers hq
    cases huser.symm.trans hg'
    exact hne u p g hu rfl
  · cases huser.symm.trans hq
    obtain ⟨g', hg'⟩ := user_of_registers hu
    exact hne u p g' hg' rfl
  · rw [hfetches] at hc
    have hqp : q ≠ p := by
      rintro rfl
      cases hc.symm.trans (h.not_fetched hp)
    refine ⟨hc, htable q hqp, fun ht => ?_⟩
    obtain ⟨g, hg⟩ := user_of_load ht
    cases hidle.symm.trans hg
  · by_cases hqp : q = p
    · subst hqp
      exact .inl (hnew.resolve_right hq')
    · rw [htable q hqp] at hq
      rw [hflushes q (by rw [hq]; exact nofun)] at hq'
      refine .inr (.inr ⟨hq, hq', congrFun hfetches q, fun ht => ?_⟩)
      obtain ⟨g', hg'⟩ := user_of_registers ht
      cases hidle.symm.trans hg'

theorem announce (h : Inv b role) (hr : role t = .registering p f img) :
    Inv { b with fetches := Function.update b.fetches p (some b.next), next := b.next + 1 }
      (Function.update role t (.waiting p f b.next img)) := by
  have hfits := h.fits t
  rw [hr] at hfits
  have hne : ∀ u, u ≠ t → ∀ q g, (role u).user = some (q, g) → q ≠ p := by
    rintro u hu q g hq rfl
    exact (h.apart t u hu.symm).registers q g (by rw [hr]; rfl) hq
  refine h.change (fun u hu => ?_) ⟨hfits.1, Function.update_self .., hfits.2.2⟩ (fun q c hl => .inr fun u q' hu => ?_)
    (fun v hv => .inl (by rw [hr]; exact hv)) nofun (fun q g hq => .inl (by rw [hr]; exact hq))
    (h.channels.announceFetch p) (fun q c hc => ?_) (fun v g hv hv' => .inr ?_) fun _ hs => hs
  · exact (h.fits u).keep (fun _ _ _ => rfl) (fun q g hq => .inl (Function.update_of_ne (hne u hu q g hq) ..))
      (fun _ _ _ => .inl rfl) (fun q hq => (h.fits u).flush hq) (fun _ _ => ⟨rfl, rfl⟩) fun _ hc => hc
  · cases hl
    have hlt := (h.channels.fetches _ _ ((h.fits u).load hu)).1
    exact Nat.lt_irrefl _ hlt
  · dsimp only at hc
    by_cases hq : q = p
    · subst hq
      rw [Function.update_self] at hc
      cases hc
      exact .inl rfl
    · rw [Function.update_of_ne hq] at hc
      exact .inr ⟨hc, rfl, fun ht => by rw [hr] at ht; cases ht⟩
  · by_cases hvp : v = p
    · refine .inl ?_
      dsimp only
      rw [hvp, Function.update_self]
      exact nofun
    · refine .inr ⟨hv, hv', Function.update_of_ne hvp .., fun ht => ?_⟩
      rw [hr] at ht
      exact hvp (Option.some.inj ht).symm

theorem finishFetch (h : Inv b role) (hr : role t = .loading p f c img) :
    Inv { b with fetches := Function.update b.fetches p none, sent := Function.update b.sent c true }
      (Function.update role t (.ready p f img)) := by
  have hfits := h.fits t
  rw [hr] at hfits
  refine h.change (fun u hu => ?_) ⟨hfits.1, Function.update_self .., hfits.2.2.2⟩ nofun
    (fun v hv => .inl (by rw [hr]; exact hv)) nofun (fun q g hq => .inl (by rw [hr]; exact hq))
    (h.channels.finishFetch hfits.2.1) (fun q d hd => .inr ?_) (fun v g hv hv' => .inr (.inr ?_)) fun _ hs => hs
  · refine (h.fits u).keep (fun _ _ _ => rfl) (fun q g hq => ?_) (fun _ _ _ => .inl rfl)
      (fun q hq => (h.fits u).flush hq) (fun _ _ => ⟨rfl, rfl⟩) (b.sent_keep c)
    by_cases hqp : q = p
    · subst hqp
      refine .inr ⟨Function.update_self .., fun d hd => ?_, fun d hd => ?_⟩
      · exact hu (h.sole_loader hd (by rw [hr]; rfl))
      · obtain rfl := Option.some.inj (hd.symm.trans hfits.2.1)
        exact Function.update_self ..
    · exact .inl (Function.update_of_ne hqp ..)
  · dsimp only at hd
    by_cases hqp : q = p
    · rw [hqp, Function.update_self] at hd
      cases hd
    · rw [Function.update_of_ne hqp] at hd
      refine ⟨hd, rfl, fun ht => ?_⟩
      rw [hr] at ht
      cases ht
      exact absurd rfl hqp
  · have hvp : v ≠ p := by
      rintro rfl
      exact hv' hfits.2.2.1
    exact ⟨hv, hv', Function.update_of_ne hvp .., by rw [hr]; exact nofun⟩

theorem finishFlush (h : Inv b role) (hr : role t = .ready p f (some v)) (hd : b.flushes v = some d) :
    Inv { b with flushes := Function.update b.flushes v none, sent := Function.update b.sent d true }
      (Function.update role t (.ready p f none)) := by
  have hfits := h.fits t
  rw [hr] at hfits
  refine h.change (fun u hu => ?_) ⟨hfits.1, hfits.2.1, nofun⟩ nofun nofun nofun
    (fun q g hq => .inl (by rw [hr]; exact hq)) (h.channels.finishFlush hd)
    (fun q c hc => .inr ⟨hc, rfl, fun ht => by rw [hr] at ht; cases ht⟩) (fun q g hq hq' => .inr (.inr ?_))
    fun _ hs => hs
  · refine (h.fits u).keep (fun _ _ _ => rfl) (fun _ _ _ => .inl rfl) (fun q g hq => ?_) (fun q hq => ?_)
      (fun q hq => ⟨rfl, Function.update_of_ne ?_ ..⟩) (b.sent_keep d)
    · by_cases hqv : q = v
      · subst hqv
        refine .inr ⟨Function.update_self .., fun c hc => ?_⟩
        obtain rfl := Option.some.inj (hc.symm.trans hd)
        exact Function.update_self ..
      · exact .inl (Function.update_of_ne hqv ..)
    · have hqv : q ≠ v := by
        rintro rfl
        exact (h.apart t u hu.symm).flush q (by rw [hr]; rfl) hq
      dsimp only
      rw [Function.update_of_ne hqv]
      exact (h.fits u).flush hq
    · rintro rfl
      cases hru : role u <;> rw [hru] at hq <;> cases hq
      have hfit := h.fits u
      rw [hru] at hfit
      cases (hfit q rfl).2.symm.trans hd
  · have hqv : q ≠ v := by
      rintro rfl
      exact hq' (Function.update_self ..)
    exact ⟨hq, (Function.update_of_ne (f := b.flushes) hqv _) ▸ hq', rfl, by rw [hr]; exact nofun⟩

/-- **Every step** keeps the invariant. -/
theorem step (h : Inv b role) {b' : Pool P F} (hs : Step t b role b' r) : Inv b' (Function.update role t r) := by
  have hfits := h.fits t
  cases hs with
  | same =>
    rw [Function.update_eq_self]
    exact h
  | hold hr r hcase =>
    rcases hcase with rfl | rfl <;>
      exact h.become nofun (.inl (by rw [hr]; rfl)) nofun rfl nofun (by rw [hr]; rfl)
  | hit hr p f hp hreg =>
    refine h.become hp (.inl (by rw [hr]; rfl)) nofun rfl (fun q g hq => .inr fun u => ?_) (by rw [hr]; rfl)
    cases hq
    exact hreg u
  | subscribe p f c hr hc =>
    rw [hr] at hfits
    exact h.become ⟨hfits, .inl hc⟩ (.inl (by rw [hr]; rfl)) nofun rfl
      (fun q g hq => .inl (by rw [hr]; exact hq)) (by rw [hr]; rfl)
  | pass p f hr hc =>
    rw [hr] at hfits
    exact h.become ⟨hfits, hc, nofun⟩ (.inl (by rw [hr]; rfl)) nofun rfl
      (fun q g hq => .inl (by rw [hr]; exact hq)) (by rw [hr]; rfl)
  | wake p f c hr hsent =>
    rw [hr] at hfits
    have hnone : b.fetches p = none := hfits.2.elim
      (fun hc => by cases (h.channels.fetches p c hc).2.symm.trans hsent) fun hs => hs.2
    exact h.become ⟨hfits.1, hnone, nofun⟩ (.inl (by rw [hr]; rfl)) nofun rfl
      (fun q g hq => .inl (by rw [hr]; exact hq)) (by rw [hr]; rfl)
  | unmap hr v f hv huser hstuck =>
    refine h.unmapped hr hv huser hstuck (fun q hq => Function.update_of_ne hq ..) (Function.update_self ..) rfl
      (fun _ _ => rfl) rfl rfl (h.channels.retable _) nofun rfl nofun
  | unmapDirty hr v f hv huser hstuck =>
    refine h.unmapped hr hv huser hstuck (fun q hq => Function.update_of_ne hq ..) (Function.update_self ..) rfl
      (fun q hq => Function.update_of_ne hq ..) rfl rfl ((h.channels.announceFlush v).retable _) ?_ rfl
      fun q hq => (Option.some.inj hq).symm
    intro q hq
    cases hq
    dsimp only
    rw [Function.update_self]
    exact nofun
  | detach hr v f hv huser hstuck img himg =>
    refine h.unmapped hr hv huser hstuck (fun q hq => Function.update_of_ne hq ..) (Function.update_self ..) rfl
      (fun _ _ => rfl) rfl rfl (h.channels.retable _) ?_ rfl nofun
    intro q hq
    obtain rfl := himg q hq
    exact ⟨Function.update_self .., (h.idle hv huser hstuck).2⟩
  | register img hr p f hp hdetached =>
    rw [hr] at hfits
    exact h.mapped (by rw [hr]; rfl) hp (fun u _ => hdetached u) (Function.update_self ..)
      (fun q hq => Function.update_of_ne hq ..) rfl (fun _ _ => rfl) (fun _ hq => hq) rfl rfl
      (h.channels.retable _) ⟨Function.update_self .., h.not_fetched hp, hfits⟩ rfl rfl
      (fun v hv => .inl (by rw [hr]; exact hv)) (.inl rfl)
  | announce p f img hr => exact h.announce hr
  | subscribeFlush p f c img hr d hd =>
    rw [hr] at hfits
    exact h.become ⟨hfits.1, hfits.2.1, hfits.2.2, .inl hd⟩ (.inl (by rw [hr]; rfl))
      (fun v hv => by rw [hr]; exact hv) rfl (fun q g hq => .inl (by rw [hr]; exact hq)) (by rw [hr]; rfl)
  | load p f c img hr hd =>
    rw [hr] at hfits
    exact h.become ⟨hfits.1, hfits.2.1, hd, hfits.2.2⟩ (.inl (by rw [hr]; rfl))
      (fun v hv => by rw [hr]; exact hv) rfl (fun q g hq => .inl (by rw [hr]; exact hq)) (by rw [hr]; rfl)
  | wakeFlush p f c d img hr hsent =>
    rw [hr] at hfits
    have hnone : b.flushes p = none := hfits.2.2.2.elim
      (fun hd => by cases (h.channels.flushes p d hd).2.symm.trans hsent) fun hs => hs.2
    exact h.become ⟨hfits.1, hfits.2.1, hnone, hfits.2.2.1⟩ (.inl (by rw [hr]; rfl))
      (fun v hv => by rw [hr]; exact hv) rfl (fun q g hq => .inl (by rw [hr]; exact hq)) (by rw [hr]; rfl)
  | finishFetch p f c img hr => exact h.finishFetch hr
  | finishFlush p f v hr d hd => exact h.finishFlush hr hd
  | create hr p f hp hdetached hflush =>
    exact h.mapped (by rw [hr]; rfl) hp hdetached (Function.update_self ..)
      (fun q hq => Function.update_of_ne hq ..) rfl (fun _ _ => rfl) (fun _ hq => hq) rfl rfl
      (h.channels.retable _) ⟨Function.update_self .., h.not_fetched hp, nofun⟩ rfl rfl nofun (.inr hflush)
  | createDirty v hr p f hp hdetached hflush hne =>
    rw [hr] at hfits
    obtain ⟨hv, hvflush⟩ := hfits v rfl
    have hself : Function.update b.flushes v (some b.next) v = some b.next := Function.update_self ..
    refine h.mapped (by rw [hr]; rfl) hp hdetached (Function.update_self ..)
      (fun q hq => Function.update_of_ne hq ..) rfl (fun q hq => Function.update_of_ne ?_ ..) (fun q hq => ?_)
      rfl rfl ((h.channels.announceFlush v).retable _)
      ⟨Function.update_self .., h.not_fetched hp, fun q hq => ?_⟩ rfl rfl (fun q hq => .inr fun u hu => ?_)
      (.inr ((Function.update_of_ne hne ..).trans hflush))
    · rintro rfl
      exact hq hv
    · have hqv : q ≠ v := by
        rintro rfl
        exact hq hvflush
      dsimp only
      rwa [Function.update_of_ne hqv]
    · cases hq
      dsimp only
      rw [hself]
      exact nofun
    · cases hq
      exact (h.fits u).flush hu hvflush
  | leave hreg hload => exact h.become trivial (.inr ⟨rfl, hload⟩) nofun rfl nofun hreg

end Inv

/-! ## Announced flushes -/

/-- Every flush is announced by a task. -/
def Owned (b : Pool P F) (role : τ → Role P F) : Prop := ∀ v c, b.flushes v = some c → ∃ t, (role t).flush = some v

namespace Owned

omit [DecidableEq P] in
theorem change (h : Owned b role) {b' : Pool P F} (hflushes : ∀ v c, b'.flushes v = some c →
    r.flush = some v ∨ b.flushes v ≠ none ∧ (role t).flush ≠ some v) : Owned b' (Function.update role t r) := by
  intro v c hc
  rcases hflushes v c hc with hr | ⟨hold, hne⟩
  · exact ⟨t, by rw [Function.update_self, hr]⟩
  · obtain ⟨d, hd⟩ := Option.ne_none_iff_exists'.mp hold
    obtain ⟨u, hu⟩ := h v d hd
    refine ⟨u, ?_⟩
    rw [Function.update_of_ne, hu]
    rintro rfl
    exact hne hu

omit [DecidableEq P] in
theorem keep (h : Owned b role) {b' : Pool P F} (hb : b'.flushes = b.flushes)
    (hr : ∀ v, (role t).flush = some v → r.flush = some v) : Owned b' (Function.update role t r) := by
  refine h.change fun v c hc => ?_
  by_cases ht : (role t).flush = some v
  · exact .inl (hr v ht)
  · refine .inr ⟨?_, ht⟩
    rw [← hb, hc]
    exact nofun

theorem announce (h : Owned b role) (hidle : (role t).flush = none) {b' : Pool P F}
    (hb : b'.flushes = Function.update b.flushes v (some d)) (hr : r.flush = some v) :
    Owned b' (Function.update role t r) := by
  refine h.change fun q c hc => ?_
  by_cases hq : q = v
  · exact .inl (hq ▸ hr)
  · refine .inr ⟨?_, by rw [hidle]; exact nofun⟩
    rw [hb, Function.update_of_ne hq] at hc
    exact ne_of_eq_of_ne hc nofun

theorem step (h : Owned b role) {b' : Pool P F} (hs : Step t b role b' r)
    (hleave : r = .away → (role t).flush = none) : Owned b' (Function.update role t r) := by
  cases hs with
  | same =>
    rw [Function.update_eq_self]
    exact h
  | hold hr r hcase => exact h.keep rfl (by rw [hr]; exact nofun)
  | hit hr | subscribe p f c hr | pass p f hr | wake p f c hr | unmap hr | detach hr | create hr =>
    exact h.keep rfl (by rw [hr]; exact nofun)
  | register img hr | announce p f img hr | subscribeFlush p f c img hr | load p f c img hr
  | wakeFlush p f c d img hr | finishFetch p f c img hr =>
    exact h.keep rfl (by rw [hr]; exact fun _ => id)
  | leave hreg hload => exact h.keep rfl (by rw [hleave rfl]; exact nofun)
  | unmapDirty hr v => exact h.announce (by rw [hr]; rfl) rfl rfl
  | createDirty v hr => exact h.announce (by rw [hr]; rfl) rfl rfl
  | finishFlush p f v hr =>
    refine h.change fun q c hc => ?_
    have hq : q ≠ v := by
      rintro rfl
      cases hc.symm.trans (Function.update_self ..)
    refine .inr ⟨?_, ?_⟩
    · rw [← Function.update_of_ne (f := b.flushes) hq none]
      exact ne_of_eq_of_ne hc nofun
    · rw [hr]
      exact fun hv => hq (Option.some.inj hv).symm

end Owned

end CacheProtocol

end RarmDb
