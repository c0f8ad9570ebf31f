import Mathlib.Logic.Relation
import Mathlib.Tactic.SplitIfs
import RarmDb.Lib.CacheProtocol

/-!
# Waits for the channels of a cache

Who waits for a load or a flush waits for the task that has announced it. Tasks have their pages from some
time on, and a task waits for tasks that had their pages before it only.

* `Signals`: the task is going to send on the channel; `Waits`: who waits for whom;
* `Ordered`, **`Ordered.step`**: the times of those who wait are later;
* `Signed`, **`Signed.step`**: a channel is signalled by the task that has made it;
* **`Ordered.acyclic`**, **`exists_not_waiting`**: no cycle of waits, and who waits does so for a task that
  waits for nobody, at last.
-/

namespace RarmDb

namespace CacheProtocol

variable {P F τ : Type} [DecidableEq P] [DecidableEq τ] {b b' : Pool P F} {role : τ → Role P F} {r : Role P F}
  {t u : τ} {p : P} {c : ℕ} {time : τ → ℕ}

/-! ## The order of waits -/

namespace Role

/-- The page that the task found in the table and has not got yet. -/
def shares : Role P F → Option P
  | hit p _ | subscribed p .. => some p
  | _ => none

/-- The page that the task has mapped and not loaded yet. -/
def loads : Role P F → Option P
  | registering p .. | waiting p .. | subscribedFlush p .. | loading p .. => some p
  | _ => none

end Role

/-- Tasks have their pages from some time on. Who waits for a task has its page later. -/
structure Ordered (role : τ → Role P F) (time : τ → ℕ) : Prop where
  shares : ∀ t u p, (role t).shares = some p → (role u).loads = some p → time u < time t
  waits : ∀ t u p, (role t).waits = some p → (role u).flush = some p → time u < time t

omit [DecidableEq P] [DecidableEq τ] in
theorem user_of_shares (hp : r.shares = some p) : ∃ f, r.user = some (p, f) := by
  cases r <;> cases hp <;> exact ⟨_, rfl⟩

omit [DecidableEq P] [DecidableEq τ] in
theorem loads_of_load (hl : r.load = some (p, c)) : r.loads = some p := by
  cases r <;> cases hl <;> rfl

omit [DecidableEq P] [DecidableEq τ] in
theorem registers_or_load (hl : r.loads = some p) : r.registers = some p ∨ ∃ c, r.load = some (p, c) := by
  cases r with
  | registering q f img => exact .inl hl
  | waiting q f c img | subscribedFlush q f c img d | loading q f c img =>
    cases hl
    exact .inr ⟨c, rfl⟩
  | _ => cases hl

namespace Ordered

omit [DecidableEq P] in
theorem retime (h : Ordered role time) (hr : role t = .away) (k : ℕ) : Ordered role (Function.update time t k) := by
  have hsame : ∀ u, role u ≠ .away → Function.update time t k u = time u := by
    intro u hu
    refine Function.update_of_ne ?_ ..
    rintro rfl
    exact hu hr
  constructor
  case shares =>
    intro u u' p hu hu'
    rw [hsame u (by rintro heq; rw [heq] at hu; cases hu), hsame u' (by rintro heq; rw [heq] at hu'; cases hu')]
    exact h.shares u u' p hu hu'
  case waits =>
    intro u u' p hu hu'
    rw [hsame u (by rintro heq; rw [heq] at hu; cases hu), hsame u' (by rintro heq; rw [heq] at hu'; cases hu')]
    exact h.waits u u' p hu hu'

omit [DecidableEq P] in
/-- The order survives a change of role: who waits for a page did so before or is the last to get one, and who
is waited for has been so far, or nobody waits for its page. -/
theorem lt_update {late early : Role P F → Option P}
    (h : ∀ u u' p, late (role u) = some p → early (role u') = some p → time u' < time u)
    (hlate : ∀ p, late r = some p → late (role t) = some p ∨ ∀ u, u ≠ t → time u < time t)
    (hearly : ∀ p, early r = some p → early (role t) = some p ∨ ∀ u, late (role u) ≠ some p)
    (hself : ∀ p, late r = some p → early r ≠ some p) (u u' : τ) (p : P)
    (hu : late (Function.update role t r u) = some p) (hu' : early (Function.update role t r u') = some p) :
    time u' < time u := by
  by_cases hut : u = t
  · subst hut
    rw [Function.update_self] at hu
    by_cases hut' : u' = u
    · rw [hut', Function.update_self] at hu'
      exact absurd hu' (hself p hu)
    · rw [Function.update_of_ne hut'] at hu'
      rcases hlate p hu with hold | hlast
      · exact h u u' p hold hu'
      · exact hlast u' hut'
  · rw [Function.update_of_ne hut] at hu
    by_cases hut' : u' = t
    · subst hut'
      rw [Function.update_self] at hu'
      rcases hearly p hu' with hold | hno
      · exact h u u' p hu hold
      · exact absurd hu (hno u)
    · rw [Function.update_of_ne hut'] at hu'
      exact h u u' p hu hu'

omit [DecidableEq P] in
theorem change (h : Ordered role time)
    (hshares : ∀ p, r.shares = some p → (role t).shares = some p ∨ ∀ u, u ≠ t → time u < time t)
    (hloads : ∀ p, r.loads = some p → (role t).loads = some p ∨ ∀ u, (role u).shares ≠ some p)
    (hwaits : ∀ p, r.waits = some p → (role t).waits = some p ∨ ∀ u, u ≠ t → time u < time t)
    (hflush : ∀ v, r.flush = some v → (role t).flush = some v ∨ ∀ u, (role u).waits ≠ some v)
    (hself : ∀ p, r.waits = some p → r.flush ≠ some p) : Ordered (Function.update role t r) time := by
  have hnot : ∀ p, r.shares = some p → r.loads ≠ some p := by
    intro p hs hl
    cases r <;> cases hs <;> cases hl
  exact ⟨lt_update h.shares hshares hloads hnot, lt_update h.waits hwaits hflush hself⟩

/-- **Who gets a page gets it last**; then the waits stay ordered. -/
theorem step (h : Ordered role time) (hinv : Inv b role) {b' : Pool P F} (hs : Step t b role b' r)
    (hlast : (role t).user = none → r.user ≠ none → ∀ u, u ≠ t → time u < time t)
    (hself : ∀ p f img, r = .registering p f img → img ≠ some p) : Ordered (Function.update role t r) time := by
  have hold : ∀ p, (role t).waits = some p → (role t).flush ≠ some p :=
    fun p hp hv => Nat.lt_irrefl _ (h.waits t t p hp hv)
  have hunmapped : ∀ {p f}, b.table p = some f → (∀ u q, (role u).user ≠ some (q, f)) →
      ∀ u, (role u).waits ≠ some p := by
    intro p f hp huser u hu
    obtain ⟨g, hg⟩ := user_of_waits hu
    cases ((hinv.fits u).user hg).symm.trans hp
    exact huser u p hg
  have hnew : ∀ {p}, b.table p = none → ∀ u g, (role u).user ≠ some (p, g) := by
    intro p hp u g hg
    cases ((hinv.fits u).user hg).symm.trans hp
  cases hs with
  | same =>
    rw [Function.update_eq_self]
    exact h
  | hold hr r hcase => rcases hcase with rfl | rfl <;> exact h.change nofun nofun nofun nofun nofun
  | hit hr p f =>
    exact h.change (fun _ _ => .inr (hlast (by rw [hr]; rfl) nofun)) nofun nofun nofun nofun
  | subscribe p f c hr => exact h.change (fun _ hp => .inl (by rw [hr]; exact hp)) nofun nofun nofun nofun
  | pass | wake | unmap | detach | finishFlush | create | leave => exact h.change nofun nofun nofun nofun nofun
  | unmapDirty hr v f hv huser =>
    refine h.change nofun nofun nofun (fun q hq => .inr ?_) nofun
    cases hq
    exact hunmapped hv huser
  | register img hr p f hp =>
    refine h.change nofun (fun q hq => .inr fun u hu => ?_) (fun _ _ => .inr (hlast (by rw [hr]; rfl) nofun))
      (fun v hv => .inl (by rw [hr]; exact hv)) (fun q hq => ?_)
    · cases hq
      obtain ⟨g, hg⟩ := user_of_shares hu
      exact hnew hp u g hg
    · cases hq
      exact hself p f img rfl
  | announce p f img hr | subscribeFlush p f c img hr =>
    rw [hr] at hold
    exact h.change nofun (fun _ hq => .inl (by rw [hr]; exact hq)) (fun _ hq => .inl (by rw [hr]; exact hq))
      (fun _ hq => .inl (by rw [hr]; exact hq)) hold
  | load p f c img hr | wakeFlush p f c d img hr =>
    exact h.change nofun (fun _ hq => .inl (by rw [hr]; exact hq)) nofun (fun _ hq => .inl (by rw [hr]; exact hq))
      nofun
  | finishFetch p f c img hr =>
    exact h.change nofun nofun nofun (fun _ hq => .inl (by rw [hr]; exact hq)) nofun
  | createDirty v hr =>
    have hfits := hinv.fits t
    rw [hr] at hfits
    refine h.change nofun nofun nofun (fun q hq => .inr fun u hu => ?_) nofun
    cases hq
    obtain ⟨g, hg⟩ := user_of_waits hu
    exact hnew (hfits v rfl).1 u g hg

end Ordered

/-! ## Who signals a channel -/

/-- The channel whose message the task waits for. -/
def Role.awaits : Role P F → Option ℕ
  | subscribed _ _ c => some c
  | subscribedFlush _ _ _ _ d => some d
  | _ => none

/-- The task is going to send on the channel. -/
def Signals (b : Pool P F) (r : Role P F) (c : ℕ) : Prop :=
  (∃ p, r.load = some (p, c)) ∨ ∃ v, r.flush = some v ∧ b.flushes v = some c

/-- The task waits for a message that the other one is going to send. -/
def Waits (b : Pool P F) (role : τ → Role P F) (t u : τ) : Prop :=
  ∃ c, (role t).awaits = some c ∧ b.sent c = false ∧ Signals b (role u) c

/-- The tasks that signal a channel have made it, with the page that they have now. -/
def Signed (b : Pool P F) (role : τ → Role P F) (time : τ → ℕ) (maker : ℕ → Option (τ × ℕ)) : Prop :=
  ∀ t c, Signals b (role t) c → maker c = some (t, time t)

omit [DecidableEq P] [DecidableEq τ] in
theorem Signals.not_away (hc : Signals b r c) : r ≠ .away := by
  rintro rfl
  rcases hc with ⟨p, hp⟩ | ⟨v, hv, -⟩
  · cases hp
  · cases hv

omit [DecidableEq P] [DecidableEq τ] in
theorem Signals.lt (hinv : Inv b role) (hc : Signals b (role t) c) : c < b.next := by
  rcases hc with ⟨p, hp⟩ | ⟨v, -, hv⟩
  · exact (hinv.channels.fetches p c ((hinv.fits t).load hp)).1
  · exact (hinv.channels.flushes v c hv).1

omit [DecidableEq τ] in
theorem Step.signals (hs : Step t b role b' r) (hc : Signals b' r c) :
    Signals b (role t) c ∨ c = b.next ∧ b'.next = b.next + 1 := by
  cases hs with
  | same => exact .inl hc
  | hold hr r hcase =>
    rcases hcase with rfl | rfl <;> rcases hc with ⟨p, hp⟩ | ⟨v, hv, -⟩
    · cases hp
    · cases hv
    · cases hp
    · cases hv
  | hit | subscribe | pass | wake | unmap | detach | finishFlush | create | leave =>
    rcases hc with ⟨p, hp⟩ | ⟨v, hv, -⟩
    · cases hp
    · cases hv
  | unmapDirty hr v | createDirty v hr =>
    rcases hc with ⟨p, hp⟩ | ⟨q, hq, hflush⟩
    · cases hp
    · cases hq
      dsimp only at hflush
      rw [Function.update_self] at hflush
      exact .inr ⟨(Option.some.inj hflush).symm, rfl⟩
  | announce p f img hr =>
    rcases hc with ⟨q, hq⟩ | ⟨v, hv, hflush⟩
    · cases hq
      exact .inr ⟨rfl, rfl⟩
    · exact .inl (.inr ⟨v, by rw [hr]; exact hv, hflush⟩)
  | register img hr | finishFetch p f c img hr =>
    rcases hc with ⟨q, hq⟩ | ⟨v, hv, hflush⟩
    · cases hq
    · exact .inl (.inr ⟨v, by rw [hr]; exact hv, hflush⟩)
  | subscribeFlush p f c img hr | load p f c img hr | wakeFlush p f c d img hr =>
    rw [hr]
    exact .inl hc

omit [DecidableEq τ] in
theorem Step.signals_other (hs : Step t b role b' r) (hinv : Inv b role) (hc : Signals b' (role u) c) (hu : u ≠ t) :
    Signals b (role u) c := by
  rcases hc with hload | ⟨v, hv, hflush⟩
  · exact .inl hload
  refine .inr ⟨v, hv, ?_⟩
  have hbefore := (hinv.fits u).flush hv
  cases hs with
  | unmapDirty hr q f hq huser hstuck =>
    have hne : v ≠ q := by
      rintro rfl
      exact hbefore (hinv.idle hq huser hstuck).2
    rwa [← Function.update_of_ne hne (some b.next) b.flushes]
  | createDirty q hr =>
    have hfits := hinv.fits t
    rw [hr] at hfits
    have hne : v ≠ q := by
      rintro rfl
      exact hbefore (hfits v rfl).2
    rwa [← Function.update_of_ne hne (some b.next) b.flushes]
  | finishFlush p f q hr =>
    have hne : v ≠ q := by
      rintro rfl
      exact (hinv.apart u t hu).flush v hv (by rw [hr]; rfl)
    rwa [← Function.update_of_ne hne none b.flushes]
  | _ => exact hflush

namespace Signed

variable {maker : ℕ → Option (τ × ℕ)}

omit [DecidableEq P] in
theorem retime (h : Signed b role time maker) (hr : role t = .away) (k : ℕ) :
    Signed b role (Function.update time t k) maker := by
  intro u c hc
  have hu : u ≠ t := by
    rintro rfl
    exact hc.not_away hr
  rw [Function.update_of_ne hu]
  exact h u c hc

/-- **Who makes a channel** is going to signal it. -/
theorem step (h : Signed b role time maker) (hinv : Inv b role) (hs : Step t b role b' r) :
    Signed b' (Function.update role t r) time
      (if b'.next = b.next then maker else Function.update maker b.next (some (t, time t))) := by
  have hold : ∀ {u c}, Signals b (role u) c →
      (if b'.next = b.next then maker else Function.update maker b.next (some (t, time t))) c =
        some (u, time u) := by
    intro u c hc
    split_ifs
    · exact h u c hc
    · rw [Function.update_of_ne (Nat.ne_of_lt (hc.lt hinv))]
      exact h u c hc
  intro u c hc
  by_cases hu : u = t
  · subst hu
    rw [Function.update_self] at hc
    rcases hs.signals hc with hbefore | ⟨rfl, hnext⟩
    · exact hold hbefore
    · rw [if_neg (by omega), Function.update_self]
  · rw [Function.update_of_ne hu] at hc
    exact hold (hs.signals_other hinv hc hu)

end Signed

/-! ## The waits -/

omit [DecidableEq P] [DecidableEq τ] in
theorem Inv.awaits_cases (hinv : Inv b role) (hc : (role t).awaits = some c) (hsent : b.sent c = false) :
    (∃ p, (role t).shares = some p ∧ b.fetches p = some c) ∨
      ∃ v, (role t).waits = some v ∧ b.flushes v = some c := by
  have hfits := hinv.fits t
  cases hr : role t with
  | subscribed p f c' =>
    rw [hr] at hc hfits
    cases hc
    exact .inl ⟨p, rfl, hfits.2.resolve_right fun hs => by cases hsent.symm.trans hs.1⟩
  | subscribedFlush p f c' img d =>
    rw [hr] at hc hfits
    cases hc
    exact .inr ⟨p, rfl, hfits.2.2.2.resolve_right fun hs => by cases hsent.symm.trans hs.1⟩
  | _ =>
    rw [hr] at hc
    cases hc

omit [DecidableEq P] [DecidableEq τ] in
/-- **Who waits** has its page later than the task that it waits for. -/
theorem Ordered.waits_lt (h : Ordered role time) (hinv : Inv b role) (hw : Waits b role t u) : time u < time t := by
  obtain ⟨c, hc, hsent, hu⟩ := hw
  rcases hinv.awaits_cases hc hsent with ⟨p, hshares, hp⟩ | ⟨p, hwaits, hp⟩
  · rcases hu with ⟨q, hq⟩ | ⟨v, -, hv⟩
    · obtain rfl := hinv.channels.fetches_inj p q c hp ((hinv.fits u).load hq)
      exact h.shares t u p hshares (loads_of_load hq)
    · exact absurd hv (hinv.channels.disjoint p v c hp)
  · rcases hu with ⟨q, hq⟩ | ⟨v, hv, hflush⟩
    · exact absurd hp (hinv.channels.disjoint q p c ((hinv.fits u).load hq))
    · obtain rfl := hinv.channels.flushes_inj p v c hp hflush
      exact h.waits t u p hwaits hv

omit [DecidableEq P] [DecidableEq τ] in
theorem Inv.exists_signals (hinv : Inv b role) (hflushes : Owned b role)
    (hfetches : ∀ p c, b.fetches p = some c → ∃ u, (role u).load = some (p, c)) (hc : (role t).awaits = some c)
    (hsent : b.sent c = false) : ∃ u, Signals b (role u) c := by
  rcases hinv.awaits_cases hc hsent with ⟨p, -, hp⟩ | ⟨p, -, hp⟩
  · obtain ⟨u, hu⟩ := hfetches p c hp
    exact ⟨u, .inl ⟨p, hu⟩⟩
  · obtain ⟨u, hu⟩ := hflushes p c hp
    exact ⟨u, .inr ⟨p, hu, hp⟩⟩

omit [DecidableEq P] [DecidableEq τ] in
/-- **No cycle of waits.** -/
theorem Ordered.acyclic (h : Ordered role time) (hinv : Inv b role) (t : τ) :
    ¬ Relation.TransGen (Waits b role) t t := by
  have hlt : ∀ u, Relation.TransGen (Waits b role) t u → time u < time t := by
    intro u hu
    induction hu with
    | single hw => exact h.waits_lt hinv hw
    | tail _ hw ih => exact Nat.lt_trans (h.waits_lt hinv hw) ih
  exact fun ht => Nat.lt_irrefl _ (hlt t ht)

omit [DecidableEq P] [DecidableEq τ] in
/-- **Who waits does so for a task that waits for nobody**, at last. -/
theorem Ordered.exists_not_waiting (h : Ordered role time) (hinv : Inv b role) (hw : Waits b role t u) :
    ∃ v c, Signals b (role v) c ∧ ∀ x, ¬ Waits b role v x := by
  induction hk : time t using Nat.strongRecOn generalizing t u with
  | ind k ih =>
    obtain ⟨c, -, -, hu⟩ := id hw
    by_cases hx : ∃ x, Waits b role u x
    · obtain ⟨x, hx⟩ := hx
      exact ih (time u) (hk ▸ h.waits_lt hinv hw) hx rfl
    · exact ⟨u, c, hu, not_exists.mp hx⟩

end CacheProtocol

end RarmDb
