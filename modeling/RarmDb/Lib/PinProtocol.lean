import Mathlib.Algebra.BigOperators.Group.Finset.Piecewise
import Mathlib.Data.Fintype.Card

/-!
# Pin counts beside a set of eligible resources

Tasks pin and release resources. A pin is an increment of the count, and after the first one the
resource is taken out of the eligible ones; a release is a decrement, and after the last one the
resource is made eligible. These are separate actions. Resources are taken under a lock, from the free
or the eligible ones; a task may also pin a resource in use.

* `Role`, `State`, `Step`: the protocol;
* `Step.RaceFree`: no resource is pinned between its last decrement and its return to the eligible ones;
* `Inv`, **`Inv.step`**: the invariant of the runs whose steps are race free;
* **`Inv.victim`**: an eligible resource that may be taken is neither counted nor used;
* `Slack`: a count above its pinners, which no step undoes.
-/

namespace RarmDb

namespace PinProtocol

variable {F τ : Type}

/-- What a task does with a resource. -/
inductive Role (F : Type)
  /-- Nothing. -/
  | away
  /-- It holds the lock and looks for a resource. -/
  | searching
  /-- It holds the lock and is about to pin a resource in use. -/
  | hitting (f : F)
  /-- It holds the lock and has taken a resource, without a pin yet. -/
  | claiming (f : F)
  /-- It holds the lock and a first pin; the resource may still be eligible. -/
  | removing (f : F)
  /-- It has a pin, and the lock or not. -/
  | pinned (f : F) (locked : Bool)
  /-- It released the last pin, and is about to make the resource eligible. -/
  | adding (f : F)
  deriving DecidableEq

namespace Role

/-- The task holds the lock. -/
def inSection : Role F → Bool
  | searching | hitting _ | claiming _ | removing _ | pinned _ true => true
  | _ => false

/-- The task has a pin on the resource. -/
def pins [DecidableEq F] : Role F → F → Bool
  | removing g, f | pinned g _, f => g = f
  | _, _ => false

/-- The task has a pin on the resource or is about to get one. -/
def Uses : Role F → F → Prop
  | hitting g, f | claiming g, f | removing g, f | pinned g _, f => g = f
  | _, _ => False

end Role

/-- The holder of the lock, the counts, the eligible and the free resources, and the tasks. -/
@[ext] structure State (F τ : Type) where
  lock : Option τ
  count : F → ℕ
  eligible : F → Prop
  free : F → Prop
  role : τ → Role F

variable [DecidableEq F] {s s' : State F τ} {t u : τ} {f g : F}

/-! ## Counting tasks -/

section Counting

variable [Fintype τ]

/-- The number of tasks that have a pin on the resource. -/
def State.pinners (s : State F τ) (f : F) : ℕ := (Finset.univ.filter fun u => (s.role u).pins f).card

theorem one_le_pinners (h : (s.role t).pins f = true) : 1 ≤ s.pinners f :=
  Finset.card_pos.mpr ⟨t, Finset.mem_filter.mpr ⟨Finset.mem_univ t, h⟩⟩

theorem two_le_pinners (h : (s.role t).pins f = true) (h' : (s.role u).pins f = true) (hne : t ≠ u) :
    2 ≤ s.pinners f :=
  Finset.one_lt_card.mpr ⟨t, Finset.mem_filter.mpr ⟨Finset.mem_univ t, h⟩, u,
    Finset.mem_filter.mpr ⟨Finset.mem_univ u, h'⟩, hne⟩

/-! ## The invariant -/

/-- The invariant of the protocol. -/
structure Inv (s : State F τ) : Prop where
  locked : ∀ t, (s.role t).inSection = true ↔ s.lock = some t
  pinners : ∀ f, s.pinners f ≤ s.count f
  hitting : ∀ t f, s.role t = .hitting f → ¬ s.free f
  removing : ∀ t f, s.role t = .removing f → s.count f = 1
  free : ∀ f, s.free f → s.count f = 0 ∧ ¬ s.eligible f ∧ ∀ u, s.role u ≠ .adding f
  claiming : ∀ t f, s.role t = .claiming f →
    s.count f = 0 ∧ ¬ s.eligible f ∧ ¬ s.free f ∧ ∀ u, s.role u ≠ .adding f
  adding : ∀ t f, s.role t = .adding f →
    s.count f = 0 ∧ ¬ s.eligible f ∧ ∀ u, s.role u = .adding f → u = t
  eligible : ∀ f, s.eligible f → s.count f = 0 ∨ ∃ t, s.role t = .removing f

theorem Inv.sole (h : Inv s) (ht : (s.role t).inSection = true) (hu : u ≠ t) :
    (s.role u).inSection = false := by
  rw [Bool.eq_false_iff, ne_eq, h.locked, (h.locked t).mp ht]
  exact fun heq => hu (Option.some.inj heq).symm

theorem Inv.unused (h : Inv s) (hz : s.count f = 0) (hu : (s.role u).inSection = false) :
    ¬ (s.role u).Uses f := by
  intro huses
  have hnot : (s.role u).pins f = false := Bool.eq_false_iff.mpr fun hp => by
    have hone := (one_le_pinners hp).trans (h.pinners f)
    omega
  cases hrole : s.role u with
  | pinned g b =>
    rw [hrole] at huses hnot
    exact of_decide_eq_false hnot huses
  | away | adding g =>
    rw [hrole] at huses
    exact huses
  | searching | hitting g | claiming g | removing g =>
    rw [hrole] at hu
    cases hu

theorem Inv.claimed (h : Inv s) (hr : s.role t = .claiming f) (hu : u ≠ t) : ¬ (s.role u).Uses f :=
  h.unused (h.claiming t f hr).1 (h.sole (by rw [hr]; rfl) hu)

/-- **An eligible resource may be taken**: nobody has a pin on it or is about to get one. -/
theorem Inv.victim (h : Inv s) (hr : s.role t = .searching) (hf : s.eligible f) :
    s.count f = 0 ∧ ∀ u, ¬ (s.role u).Uses f := by
  have hout : ∀ u, u ≠ t → (s.role u).inSection = false := fun u => h.sole (by rw [hr]; rfl)
  have hz : s.count f = 0 := (h.eligible f hf).resolve_right fun ⟨u, hu⟩ => by
    by_cases hut : u = t
    · rw [hut, hr] at hu
      cases hu
    · have hin := hout u hut
      rw [hu] at hin
      cases hin
  refine ⟨hz, fun u => ?_⟩
  by_cases hut : u = t
  · rw [hut, hr]
    exact id
  · exact h.unused hz (hout u hut)

end Counting

/-! ## Steps -/

variable [DecidableEq τ]

/-- The task has another role. -/
def State.become (s : State F τ) (t : τ) (r : Role F) : State F τ :=
  { s with role := Function.update s.role t r }

/-- One action of the task `t`. -/
inductive Step (t : τ) (s : State F τ) : State F τ → Prop
  | search (hr : s.role t = .away) (hl : s.lock = none) :
      Step t s { s.become t .searching with lock := some t }
  | hit (hr : s.role t = .away) (hl : s.lock = none) (f : F) (hf : ¬ s.free f) :
      Step t s { s.become t (.hitting f) with lock := some t }
  | takeFree (hr : s.role t = .searching) (f : F) (hf : s.free f) :
      Step t s { s.become t (.claiming f) with free := fun g => g ≠ f ∧ s.free g }
  | takeVictim (hr : s.role t = .searching) (f : F) (hf : s.eligible f) :
      Step t s { s.become t (.claiming f) with eligible := fun g => g ≠ f ∧ s.eligible g }
  | leave (hr : s.role t = .searching) : Step t s { s.become t .away with lock := none }
  | pin (f : F) (hr : s.role t = .hitting f ∨ s.role t = .claiming f) :
      Step t s { s.become t (if s.count f = 0 then .removing f else .pinned f true) with
        count := Function.update s.count f (s.count f + 1) }
  | remove (f : F) (hr : s.role t = .removing f) :
      Step t s { s.become t (.pinned f true) with eligible := fun g => g ≠ f ∧ s.eligible g }
  | unlock (f : F) (hr : s.role t = .pinned f true) :
      Step t s { s.become t (.pinned f false) with lock := none }
  | unpin (f : F) (hr : s.role t = .pinned f false) :
      Step t s { s.become t (if s.count f = 1 then .adding f else .away) with
        count := Function.update s.count f (s.count f - 1) }
  | add (f : F) (hr : s.role t = .adding f) :
      Step t s { s.become t .away with eligible := fun g => g = f ∨ s.eligible g }

/-- If the step pins a resource, no task is about to make it eligible. -/
def RaceFree (s : State F τ) (t : τ) : Prop :=
  ∀ f, s.role t = .hitting f ∨ s.role t = .claiming f → ∀ u, s.role u ≠ .adding f

theorem Step.role (hs : Step t s s') : s'.role = Function.update s.role t (s'.role t) := by
  cases hs <;> (dsimp only [State.become]; rw [Function.update_self])

/-- A step keeps the lock, takes it or gives it back; the task is in the section with it. -/
theorem Step.lock (hs : Step t s s') :
    s'.lock = s.lock ∧ (s'.role t).inSection = (s.role t).inSection ∨
      s.lock = none ∧ s'.lock = some t ∧ (s'.role t).inSection = true ∨
      (s.role t).inSection = true ∧ s'.lock = none ∧ (s'.role t).inSection = false := by
  cases hs with
  | search hr hl =>
    exact .inr (.inl ⟨hl, rfl, by simp only [State.become, Function.update_self]; rfl⟩)
  | hit hr hl f hf =>
    exact .inr (.inl ⟨hl, rfl, by simp only [State.become, Function.update_self]; rfl⟩)
  | leave hr =>
    exact .inr (.inr ⟨by rw [hr]; rfl, rfl, by simp only [State.become, Function.update_self]; rfl⟩)
  | unlock f hr =>
    exact .inr (.inr ⟨by rw [hr]; rfl, rfl, by simp only [State.become, Function.update_self]; rfl⟩)
  | pin f hr =>
    refine .inl ⟨rfl, ?_⟩
    simp only [State.become, Function.update_self]
    rcases hr with hr | hr <;> (rw [hr]; split_ifs <;> rfl)
  | unpin f hr =>
    refine .inl ⟨rfl, ?_⟩
    simp only [State.become, Function.update_self]
    rw [hr]
    split_ifs <;> rfl
  | takeFree hr | takeVictim hr | remove f hr | add f hr =>
    refine .inl ⟨rfl, ?_⟩
    simp only [State.become, Function.update_self]
    rw [hr]
    rfl

variable [Fintype τ]

theorem card_update {α : Type} (role : τ → α) (t : τ) (x : α) (P : α → Bool) :
    (Finset.univ.filter fun u => P (Function.update role t x u)).card + (P (role t)).toNat =
      (Finset.univ.filter fun u => P (role u)).card + (P x).toNat := by
  have hsum : ∀ b : Bool, (if b = true then 1 else 0) = b.toNat := fun b => by cases b <;> rfl
  rw [Finset.card_filter, Finset.card_filter, ← Finset.add_sum_erase _ _ (Finset.mem_univ t),
    ← Finset.add_sum_erase Finset.univ (fun u => if P (role u) then 1 else 0) (Finset.mem_univ t),
    Function.update_self, hsum, hsum]
  have hrest : (∑ u ∈ Finset.univ.erase t, if P (Function.update role t x u) then 1 else 0) =
      ∑ u ∈ Finset.univ.erase t, if P (role u) then 1 else 0 := by
    refine Finset.sum_congr rfl fun u hu => ?_
    rw [Function.update_of_ne (Finset.ne_of_mem_erase hu)]
  omega

theorem pinners_away (s : State F τ) (t : τ) (f : F) :
    (s.become t .away).pinners f + ((s.role t).pins f).toNat = s.pinners f :=
  card_update s.role t .away fun r => r.pins f

theorem Step.pinners (hs : Step t s s') (f : F) :
    s'.pinners f + ((s.role t).pins f).toNat = s.pinners f + ((s'.role t).pins f).toNat := by
  unfold State.pinners
  rw [hs.role, Function.update_self]
  exact card_update s.role t (s'.role t) fun r => r.pins f

theorem Step.count (hs : Step t s s') (hpos : ∀ f, s.pinners f ≤ s.count f) (f : F) :
    s'.count f + ((s.role t).pins f).toNat = s.count f + ((s'.role t).pins f).toNat := by
  cases hs with
  | pin g hr =>
    have hnot : (s.role t).pins f = false := by
      rcases hr with hr | hr <;> (rw [hr]; rfl)
    dsimp only [State.become]
    rw [Function.update_self, hnot, Function.update_apply]
    by_cases hf : f = g
    · subst hf
      split_ifs <;> simp_all [Role.pins]
    · rw [if_neg hf]
      split_ifs <;> simp [Role.pins, Ne.symm hf]
  | unpin g hr =>
    have hone : 1 ≤ s.count g := (one_le_pinners (t := t) (by rw [hr]; simp [Role.pins])).trans (hpos g)
    dsimp only [State.become]
    rw [hr, Function.update_self, Function.update_apply]
    by_cases hf : f = g
    · subst hf
      split_ifs <;> simp_all [Role.pins]
    · rw [if_neg hf]
      split_ifs <;> simp [Role.pins, Ne.symm hf]
  | search hr | hit hr | takeFree hr | takeVictim hr | leave hr | remove g hr | unlock g hr | add g hr =>
    dsimp only [State.become]
    rw [hr, Function.update_self]
    rfl

/-- **A step changes the pinners as it changes the count.** -/
theorem Step.balance (hs : Step t s s') (h : ∀ f, s.pinners f ≤ s.count f) (f : F) :
    s'.pinners f + s.count f = s.pinners f + s'.count f := by
  have hpinners := hs.pinners f
  have hcount := hs.count h f
  omega

/-! ## The invariant is kept -/

omit [Fintype τ] in
theorem Step.locked (hs : Step t s s') (h : ∀ u, (s.role u).inSection = true ↔ s.lock = some u)
    (u : τ) : (s'.role u).inSection = true ↔ s'.lock = some u := by
  by_cases hu : u = t
  · subst hu
    rcases hs.lock with ⟨hl, hr⟩ | ⟨-, hl, hr⟩ | ⟨-, hl, hr⟩
    · rw [hl, hr, h u]
    · rw [hl, hr]
      simp only
    · rw [hl, hr]
      simp only [reduceCtorEq]
  · have hrole : s'.role u = s.role u := by rw [hs.role, Function.update_of_ne hu]
    rw [hrole, h u]
    rcases hs.lock with ⟨hl, -⟩ | ⟨hnone, hl, -⟩ | ⟨hr, hl, -⟩
    · rw [hl]
    · rw [hnone, hl, Option.some.injEq]
      simp only [reduceCtorEq, false_iff]
      exact Ne.symm hu
    · rw [(h t).mp hr, hl, Option.some.injEq]
      simp only [reduceCtorEq, iff_false]
      exact Ne.symm hu

namespace Inv

/-- **One step.** -/
theorem step (h : Inv s) (hs : Step t s s') (hrace : RaceFree s t) : Inv s' := by
  obtain ⟨h1, h2, h3, h4, h5, h6, h7, h8⟩ := h
  have hone : ∀ u f, s.role u = .removing f → s.role t = .pinned f false → 2 ≤ s.count f := by
    intro u f hu ht
    refine (two_le_pinners (t := u) (u := t) ?_ ?_ ?_).trans (h2 f)
    · rw [hu]; exact decide_eq_true rfl
    · rw [ht]; exact decide_eq_true rfl
    · rintro rfl; rw [hu] at ht; cases ht
  constructor
  case pinners =>
    intro f
    have hbalance := hs.balance h2 f
    have hf := h2 f
    omega
  case locked => exact fun u => hs.locked h1 u
  case hitting =>
    cases hs <;> dsimp only [State.become] <;> grind [Function.update_apply]
  case removing =>
    cases hs <;> dsimp only [State.become] <;> grind [Role.inSection, Function.update_apply]
  case free =>
    cases hs <;> dsimp only [State.become] <;> grind [Function.update_apply]
  case claiming =>
    cases hs <;> dsimp only [State.become] <;>
      grind [Role.inSection, RaceFree, Function.update_apply]
  case adding =>
    cases hs <;> dsimp only [State.become] <;> grind [RaceFree, Function.update_apply]
  case eligible =>
    intro g hg
    have hother : ∀ r, s.role t ≠ .removing g → s.eligible g →
        s.count g = 0 ∨ ∃ u, Function.update s.role t r u = .removing g := by
      intro r ht hg
      refine (h8 g hg).imp id fun ⟨u, hu⟩ => ⟨u, ?_⟩
      rw [Function.update_of_ne, hu]
      rintro rfl
      exact ht hu
    have hlocked : ∀ u, s.role u = .removing g → (s.role t).inSection = true → u = t := by
      intro u hu ht
      have hu' : (s.role u).inSection = true := by rw [hu]; rfl
      exact Option.some.inj (((h1 u).mp hu').symm.trans ((h1 t).mp ht))
    cases hs with
    | pin f hr =>
      have ht : (s.role t).inSection = true := by rcases hr with hr | hr <;> (rw [hr]; rfl)
      have hnot : s.role t ≠ .removing g := by rcases hr with hr | hr <;> (rw [hr]; simp)
      have hz : s.count g = 0 := (h8 g hg).resolve_right fun ⟨u, hu⟩ => by
        rw [hlocked u hu ht] at hu
        exact hnot hu
      by_cases hgf : g = f
      · subst hgf
        exact .inr ⟨t, (Function.update_self ..).trans (if_pos hz)⟩
      · exact .inl ((Function.update_of_ne hgf ..).trans hz)
    | unpin f hr =>
      have hgf : g ≠ f := by
        rintro rfl
        have hpos : 1 ≤ s.count g :=
          (one_le_pinners (t := t) (by rw [hr]; exact decide_eq_true rfl)).trans (h2 g)
        rcases h8 g hg with hz | ⟨u, hu⟩
        · omega
        · have htwo := hone u g hu hr
          have hu1 := h4 u g hu
          omega
      refine (hother _ ?_ hg).imp_left fun hz => (Function.update_of_ne hgf ..).trans hz
      rw [hr]
      simp
    | add f hr =>
      rcases hg with rfl | hg
      · exact .inl (h7 t g hr).1
      · refine hother _ ?_ hg
        rw [hr]
        simp
    | remove f hr =>
      refine hother _ ?_ hg.2
      rw [hr]
      exact fun hf => hg.1 (Role.removing.inj hf).symm
    | takeVictim hr f =>
      refine hother _ ?_ hg.2
      rw [hr]
      simp
    | search hr | hit hr | takeFree hr | leave hr | unlock f hr =>
      refine hother _ ?_ hg
      rw [hr]
      simp

theorem leak (h : Inv s) (hr : s.role t = .pinned f false) : Inv (s.become t .away) := by
  obtain ⟨h1, h2, h3, h4, h5, h6, h7, h8⟩ := h
  have hne : ∀ u r, s.role u = r → r ≠ .pinned f false → u ≠ t := by
    rintro u r hu hr' rfl
    exact hr' (hu.symm.trans hr)
  constructor
  case locked =>
    intro u
    have hu := h1 u
    dsimp only [State.become]
    grind [Role.inSection, Function.update_apply]
  case pinners =>
    intro g
    exact (Nat.le_add_right ..).trans ((pinners_away s t g).trans_le (h2 g))
  case eligible =>
    intro g hg
    refine (h8 g hg).imp_right fun ⟨u, hu⟩ => ⟨u, ?_⟩
    exact (Function.update_of_ne (hne u _ hu (by simp)) ..).trans hu
  all_goals
    dsimp only [State.become]
    grind [Function.update_apply]

end Inv

/-! ## Slack -/

/-- The count is above the number of tasks that have a pin: a pin was forgotten. -/
def Slack (s : State F τ) (f : F) : Prop := s.pinners f < s.count f

theorem Slack.step (h : Slack s f) (hs : Step t s s') (hpos : ∀ f, s.pinners f ≤ s.count f) :
    Slack s' f := by
  have hbalance := hs.balance hpos f
  unfold Slack at h ⊢
  omega

theorem Slack.leak (h : Slack s f) (t : τ) : Slack (s.become t .away) f :=
  ((Nat.le_add_right ..).trans_eq (pinners_away s t f)).trans_lt h

theorem slack_leak (hpos : s.pinners f ≤ s.count f) (hr : s.role t = .pinned f false) :
    Slack (s.become t .away) f := by
  have hcard := pinners_away s t f
  have hpin : (s.role t).pins f = true := by rw [hr]; exact decide_eq_true rfl
  rw [hpin] at hcard
  exact (Nat.lt_of_succ_le (Nat.le_of_eq hcard)).trans_le hpos

end PinProtocol

end RarmDb
