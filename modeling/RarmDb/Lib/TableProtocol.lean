import Mathlib.Data.List.Nodup
import Mathlib.Logic.Function.Basic

/-!
# A table of cached pages under a lock

Tasks share a table from pages to frames and a list of free frames. Under a lock a task takes a frame,
free or unmapped by it, and gives it to a page. Which frames may be unmapped is not part of this
protocol, but for this: a frame is made eligible by a task that has it.

* `Role`, `State`, `Step`: the protocol;
* `Inv`, **`Inv.step`**: the invariant, which every step keeps;
* **`Inv.consistent`**: while the lock is free, every frame is free or has one page.
-/

namespace RarmDb

namespace TableProtocol

variable {P F τ : Type}

/-- What a task does with the table: whether it holds the lock, the frame it has, the frame that it took
and that is in no entry, the frame that it is about to unmap, and the page that it has not found. -/
structure Role (P F : Type) where
  inSection : Bool
  frame : Option F
  claimed : Option F
  victim : Option F
  want : Option P

namespace Role

/-- A task without a frame and without the lock. -/
def away : Role P F := ⟨false, none, none, none, none⟩

/-- A task with a frame, without the lock. -/
def holding (f : F) : Role P F := ⟨false, some f, none, none, none⟩

/-- A task that looks for a frame. -/
def searching (want : Option P) : Role P F := ⟨true, none, none, none, want⟩

/-- A task that is about to unmap a frame. -/
def unmapping (f : F) (want : Option P) : Role P F := ⟨true, some f, none, some f, want⟩

/-- A task with a frame that is in no entry. -/
def claiming (f : F) (want : Option P) : Role P F := ⟨true, some f, some f, none, want⟩

/-- A task with the lock and a frame in use. -/
def settled (f : F) : Role P F := ⟨true, some f, none, none, none⟩

end Role

/-- The holder of the lock, the table, the page that each frame holds, the free frames, the frames that
may be unmapped, and the tasks. -/
structure State (P F τ : Type) where
  lock : Option τ
  table : P → Option F
  holds : F → Option P
  free : List F
  eligible : F → Prop
  role : τ → Role P F

/-! ## The invariant -/

/-- The invariant of the protocol. -/
structure Inv (s : State P F τ) : Prop where
  locked : ∀ t, (s.role t).inSection = true ↔ s.lock = some t
  outside : ∀ t, (s.role t).inSection = false →
    (s.role t).claimed = none ∧ (s.role t).victim = none ∧ (s.role t).want = none
  table : ∀ p f, s.table p = some f → s.holds f = some p
  nodup : s.free.Nodup
  free : ∀ f ∈ s.free, s.holds f = none ∧ ¬ s.eligible f ∧
    ∀ t, (s.role t).frame ≠ some f ∧ (s.role t).claimed ≠ some f
  placed : ∀ f, f ∈ s.free ∨ (∃ p, s.table p = some f) ∨ ∃ t, (s.role t).claimed = some f
  claimed : ∀ t f, (s.role t).claimed = some f → ∀ p, s.table p ≠ some f
  victim : ∀ t f, (s.role t).victim = some f → ∃ p, s.table p = some f
  want : ∀ t p, (s.role t).want = some p → s.table p = none

/-- What a state without a holder of the lock shows: the entries of the table are those of the frames,
free frames are in no entry, and every frame is free or in an entry. -/
structure WellPlaced (table : P → Option F) (holds : F → Option P) (free : List F) : Prop where
  page : ∀ p f, table p = some f → holds f = some p
  once : ∀ p q f, table p = some f → table q = some f → p = q
  unmapped : ∀ f ∈ free, ∀ p, table p ≠ some f
  nodup : free.Nodup
  placed : ∀ f, f ∈ free ∨ ∃ p, table p = some f

variable {s s' : State P F τ} {t u : τ} {f g : F} {p q : P}

/-- **While the lock is free** the table is consistent. -/
theorem Inv.consistent (h : Inv s) (hlock : s.lock = none) : WellPlaced s.table s.holds s.free where
  page := h.table
  once p q f hp hq := Option.some.inj ((h.table p f hp).symm.trans (h.table q f hq))
  unmapped f hf p hp := by cases (h.table p f hp).symm.trans (h.free f hf).1
  nodup := h.nodup
  placed f := by
    refine (h.placed f).imp_right fun hrest => hrest.resolve_right fun ⟨t, ht⟩ => ?_
    have hout : (s.role t).inSection = false := by
      rw [Bool.eq_false_iff, ne_eq, h.locked, hlock]
      exact nofun
    rw [(h.outside t hout).1] at ht
    cases ht

/-- A held page is in the table, unless its frame is being given away. -/
theorem Inv.mapped (h : Inv s) (hf : s.holds f = some p) (hclaim : ∀ t, (s.role t).claimed ≠ some f) :
    s.table p = some f := by
  rcases h.placed f with hfree | ⟨q, hq⟩ | ⟨t, ht⟩
  · cases hf.symm.trans (h.free f hfree).1
  · obtain rfl := Option.some.inj (hf.symm.trans (h.table q f hq))
    exact hq
  · exact absurd ht (hclaim t)

theorem Inv.sole (h : Inv s) (ht : (s.role t).inSection = true) (hu : u ≠ t) :
    (s.role u).inSection = false := by
  rw [Bool.eq_false_iff, ne_eq, h.locked, (h.locked t).mp ht]
  exact fun heq => hu (Option.some.inj heq).symm

/-! ## Steps -/

variable [DecidableEq τ]

/-- The task has another role. -/
def State.become (s : State P F τ) (t : τ) (r : Role P F) : State P F τ :=
  { s with role := Function.update s.role t r }

/-- One action of the task `t`. -/
inductive Step [DecidableEq P] [DecidableEq F] (t : τ) (s : State P F τ) : State P F τ → Prop
  /-- The frames that may be unmapped change, and the task may give up its frame. -/
  | quiet (eligible : F → Prop) (r : Role P F)
      (heligible : ∀ f, eligible f → s.eligible f ∨ (s.role t).frame = some f)
      (hr : r = s.role t ∨ r = .away ∧ (s.role t).inSection = false) :
      Step t s { s.become t r with eligible }
  | search (hl : s.lock = none) (hr : (s.role t).inSection = false) (want : Option P)
      (hwant : ∀ p, want = some p → s.table p = none) :
      Step t s { s.become t (.searching want) with lock := some t }
  | hit (hl : s.lock = none) (hr : (s.role t).inSection = false) (p : P) (f : F) (hp : s.table p = some f) :
      Step t s { s.become t (.settled f) with lock := some t }
  | takeFree (want : Option P) (hr : s.role t = .searching want) (f : F) (rest : List F)
      (hfree : s.free = f :: rest) : Step t s { s.become t (.claiming f want) with free := rest }
  | takeVictim (want : Option P) (hr : s.role t = .searching want) (f : F) (hf : s.eligible f)
      (eligible : F → Prop) (heligible : ∀ g, eligible g → s.eligible g) :
      Step t s { s.become t (.unmapping f want) with eligible }
  | giveUp (want : Option P) (hr : s.role t = .searching want) (eligible : F → Prop)
      (heligible : ∀ g, eligible g → s.eligible g) : Step t s { s.become t .away with lock := none, eligible }
  | unmap (want : Option P) (f : F) (hr : s.role t = .unmapping f want) (p : P) (hp : s.holds f = some p) :
      Step t s { s.become t (.claiming f want) with table := Function.update s.table p none }
  | map (p : P) (f : F) (hr : s.role t = .claiming f (some p)) :
      Step t s { s.become t (.settled f) with
        table := Function.update s.table p (some f), holds := Function.update s.holds f (some p) }
  | mapNew (f : F) (hr : s.role t = .claiming f none) (p : P) (hp : s.table p = none) :
      Step t s { s.become t (.holding f) with
        lock := none, table := Function.update s.table p (some f)
        holds := Function.update s.holds f (some p) }
  | leave (f : F) (hr : s.role t = .settled f) : Step t s { s.become t (.holding f) with lock := none }

/-! ## The invariant is kept -/

namespace Inv

theorem become (h : Inv s) {r : Role P F} {lock : Option τ} {eligible : F → Prop}
    (hlock : ∀ u, (Function.update s.role t r u).inSection = true ↔ lock = some u)
    (houtside : r.inSection = false → r.claimed = none ∧ r.victim = none ∧ r.want = none)
    (heligible : ∀ f, eligible f → s.eligible f ∨ (s.role t).frame = some f)
    (hframe : ∀ f, r.frame = some f → f ∉ s.free) (hclaimed : r.claimed = (s.role t).claimed)
    (hvictim : ∀ f, r.victim = some f → ∃ p, s.table p = some f)
    (hwant : ∀ p, r.want = some p → s.table p = none) :
    Inv { s.become t r with lock, eligible } := by
  have hrole : ∀ u, (u = t ∧ Function.update s.role t r u = r) ∨
      (u ≠ t ∧ Function.update s.role t r u = s.role u) := by
    intro u
    by_cases hu : u = t
    · exact .inl ⟨hu, by rw [hu, Function.update_self]⟩
    · exact .inr ⟨hu, Function.update_of_ne hu ..⟩
  have hclaim : ∀ u, (Function.update s.role t r u).claimed = (s.role u).claimed := by
    intro u
    rcases hrole u with ⟨rfl, hu⟩ | ⟨-, hu⟩
    · rw [hu, hclaimed]
    · rw [hu]
  constructor
  case locked => exact hlock
  case outside =>
    intro u
    dsimp only [State.become]
    rcases hrole u with ⟨-, hu⟩ | ⟨-, hu⟩
    · rw [hu]
      exact houtside
    · rw [hu]
      exact h.outside u
  case table => exact h.table
  case nodup => exact h.nodup
  case free =>
    intro f hf
    obtain ⟨hholds, hnot, htasks⟩ := h.free f hf
    refine ⟨hholds, fun he => ?_, fun u => ?_⟩
    · rcases heligible f he with he | ht
      · exact hnot he
      · exact (htasks t).1 ht
    · dsimp only [State.become]
      rw [hclaim]
      refine ⟨?_, (htasks u).2⟩
      rcases hrole u with ⟨-, hu⟩ | ⟨-, hu⟩
      · rw [hu]
        exact fun hr => hframe f hr hf
      · rw [hu]
        exact (htasks u).1
  case placed =>
    intro f
    dsimp only [State.become]
    simp only [hclaim]
    exact h.placed f
  case claimed =>
    intro u f
    dsimp only [State.become]
    rw [hclaim]
    exact h.claimed u f
  case victim =>
    intro u f
    dsimp only [State.become]
    rcases hrole u with ⟨-, hu⟩ | ⟨-, hu⟩
    · rw [hu]
      exact hvictim f
    · rw [hu]
      exact h.victim u f
  case want =>
    intro u p
    dsimp only [State.become]
    rcases hrole u with ⟨-, hu⟩ | ⟨-, hu⟩
    · rw [hu]
      exact hwant p
    · rw [hu]
      exact h.want u p

/-! ### The lock -/

theorem locked_same (h : Inv s) {r : Role P F} (hr : r.inSection = (s.role t).inSection) (u : τ) :
    (Function.update s.role t r u).inSection = true ↔ s.lock = some u := by
  by_cases hu : u = t
  · rw [hu, Function.update_self, hr, h.locked]
  · rw [Function.update_of_ne hu, h.locked]

theorem locked_enter (h : Inv s) {r : Role P F} (hl : s.lock = none) (hr : r.inSection = true) (u : τ) :
    (Function.update s.role t r u).inSection = true ↔ some t = some u := by
  by_cases hu : u = t
  · rw [hu, Function.update_self, hr, iff_true_intro rfl, iff_true_intro rfl]
  · rw [Function.update_of_ne hu, h.locked, hl]
    exact iff_of_false nofun fun heq => hu (Option.some.inj heq).symm

theorem locked_leave (h : Inv s) {r : Role P F} (ht : (s.role t).inSection = true)
    (hr : r.inSection = false) (u : τ) :
    (Function.update s.role t r u).inSection = true ↔ (none : Option τ) = some u := by
  refine iff_of_false ?_ nofun
  by_cases hu : u = t
  · rw [hu, Function.update_self, hr]
    exact nofun
  · rw [Function.update_of_ne hu, h.sole ht hu]
    exact nofun

/-! ### One step -/

theorem claimed_eq (h : Inv s) {r : Role P F} (ht : (s.role t).inSection = true)
    (hg : (Function.update s.role t r u).claimed = some g) : r.claimed = some g := by
  by_cases hu : u = t
  · rwa [hu, Function.update_self] at hg
  · rw [Function.update_of_ne hu, (h.outside u (h.sole ht hu)).1] at hg
    cases hg

/-- A task in its section claims a frame that is taken out of the free ones and of the table. -/
theorem claim (h : Inv s) {want : Option P} (hsection : (s.role t).inSection = true)
    (hclaimed : (s.role t).claimed = none) {table : P → Option F} {free : List F}
    (htable : ∀ q g, table q = some g → g ≠ f ∧ s.table q = some g)
    (hfree : ∀ g ∈ free, g ≠ f ∧ g ∈ s.free) (hnodup : free.Nodup)
    (hplaced : ∀ g, g ≠ f → (g ∈ s.free → g ∈ free) ∧
      ((∃ p, s.table p = some g) → ∃ p, table p = some g))
    (hwant : ∀ p, want = some p → table p = none) :
    Inv { s.become t (.claiming f want) with table, free } := by
  have hself : Function.update s.role t (.claiming f want) t = .claiming f want :=
    Function.update_self ..
  have hothers : ∀ u, u ≠ t → Function.update s.role t (.claiming f want) u = s.role u ∧
      (s.role u).claimed = none ∧ (s.role u).victim = none ∧ (s.role u).want = none :=
    fun u hu => ⟨Function.update_of_ne hu .., h.outside u (h.sole hsection hu)⟩
  have hclaims : ∀ u g, (Function.update s.role t (.claiming f want) u).claimed = some g → g = f :=
    fun u g hg => (Option.some.inj (h.claimed_eq hsection hg)).symm
  constructor
  case locked => exact h.locked_same hsection.symm
  case outside =>
    intro u
    dsimp only [State.become]
    by_cases hu : u = t
    · rw [hu, hself]
      exact nofun
    · rw [(hothers u hu).1]
      exact h.outside u
  case table => exact fun q g hq => h.table q g (htable q g hq).2
  case nodup => exact hnodup
  case free =>
    intro g hg
    obtain ⟨hne, hmem⟩ := hfree g hg
    obtain ⟨hholds, hnot, htasks⟩ := h.free g hmem
    refine ⟨hholds, hnot, fun u => ⟨?_, fun hc => hne (hclaims u g hc)⟩⟩
    dsimp only [State.become]
    by_cases hu : u = t
    · rw [hu, hself]
      exact fun hs => hne (Option.some.inj hs).symm
    · rw [(hothers u hu).1]
      exact (htasks u).1
  case placed =>
    intro g
    by_cases hg : g = f
    · refine .inr (.inr ⟨t, ?_⟩)
      dsimp only [State.become]
      rw [hg, hself]
      rfl
    · refine (h.placed g).imp (hplaced g hg).1 (Or.imp (hplaced g hg).2 fun ⟨u, hu⟩ => ?_)
      by_cases hut : u = t
      · rw [hut, hclaimed] at hu
        cases hu
      · cases hu.symm.trans (hothers u hut).2.1
  case claimed =>
    intro u g hg p hp
    exact (htable p g hp).1 (hclaims u g hg)
  case victim =>
    intro u g
    dsimp only [State.become]
    by_cases hu : u = t
    · rw [hu, hself]
      exact nofun
    · rw [(hothers u hu).1, (hothers u hu).2.2.1]
      exact nofun
  case want =>
    intro u q
    dsimp only [State.become]
    by_cases hu : u = t
    · rw [hu, hself]
      exact hwant q
    · rw [(hothers u hu).1, (hothers u hu).2.2.2]
      exact nofun

theorem takeFree (h : Inv s) {want : Option P} (hr : s.role t = .searching want) {rest : List F}
    (hfree : s.free = f :: rest) : Inv { s.become t (.claiming f want) with free := rest } := by
  have hnodup := h.nodup
  rw [hfree, List.nodup_cons] at hnodup
  have hunmapped : ∀ q, s.table q ≠ some f := fun q hq => by
    cases (h.table q f hq).symm.trans (h.free f (by rw [hfree]; exact List.mem_cons_self)).1
  refine h.claim (by rw [hr]; rfl) (by rw [hr]; rfl) (fun q g hq => ⟨?_, hq⟩) (fun g hg => ⟨?_, ?_⟩)
    hnodup.2 (fun g hg => ⟨fun hmem => ?_, id⟩) fun p hp => h.want t p (by rw [hr]; exact hp)
  · rintro rfl
    exact hunmapped q hq
  · rintro rfl
    exact hnodup.1 hg
  · rw [hfree]
    exact List.mem_cons_of_mem f hg
  · rw [hfree] at hmem
    exact (List.mem_cons.mp hmem).resolve_left hg

variable [DecidableEq P]

theorem unmap (h : Inv s) {want : Option P} (hr : s.role t = .unmapping f want)
    (hp : s.holds f = some p) :
    Inv { s.become t (.claiming f want) with table := Function.update s.table p none } := by
  have hsection : (s.role t).inSection = true := by rw [hr]; rfl
  have hmapped : s.table p = some f := by
    refine h.mapped hp fun u hu => ?_
    by_cases hut : u = t
    · rw [hut, hr] at hu
      cases hu
    · cases hu.symm.trans (h.outside u (h.sole hsection hut)).1
  refine h.claim hsection (by rw [hr]; rfl) (fun q g hq => ?_) (fun g hg => ⟨?_, hg⟩) h.nodup
    (fun g hg => ⟨id, fun ⟨q, hq⟩ => ⟨q, ?_⟩⟩) fun q hq => ?_
  · by_cases hqp : q = p
    · rw [hqp, Function.update_self] at hq
      cases hq
    · rw [Function.update_of_ne hqp] at hq
      refine ⟨?_, hq⟩
      rintro rfl
      exact hqp (Option.some.inj ((h.table q g hq).symm.trans hp))
  · rintro rfl
    exact ((h.free g hg).2.2 t).1 (by rw [hr]; rfl)
  · rw [Function.update_of_ne, hq]
    rintro rfl
    exact hg (Option.some.inj (hq.symm.trans hmapped))
  · by_cases hqp : q = p
    · rw [hqp, Function.update_self]
    · rw [Function.update_of_ne hqp]
      exact h.want t q (by rw [hr]; exact hq)

variable [DecidableEq F]

/-- **A frame is given to a page** that is not in the table. -/
theorem assign (h : Inv s) {want : Option P} (hr : s.role t = .claiming f want) (hp : s.table p = none)
    {r : Role P F} {lock : Option τ}
    (hlock : ∀ u, (Function.update s.role t r u).inSection = true ↔ lock = some u)
    (hnone : r.claimed = none ∧ r.victim = none ∧ r.want = none) (hframe : r.frame = some f) :
    Inv { s.become t r with
      lock, table := Function.update s.table p (some f), holds := Function.update s.holds f (some p) } := by
  have hsection : (s.role t).inSection = true := by rw [hr]; rfl
  have hclaim : (s.role t).claimed = some f := by rw [hr]; rfl
  have hunmapped := h.claimed t f hclaim
  have hnotfree : f ∉ s.free := fun hf => ((h.free f hf).2.2 t).2 hclaim
  have hrole : ∀ u, Function.update s.role t r u = r ∧ u = t ∨
      u ≠ t ∧ Function.update s.role t r u = s.role u ∧
        (s.role u).claimed = none ∧ (s.role u).victim = none ∧ (s.role u).want = none := by
    intro u
    by_cases hu : u = t
    · exact .inl ⟨by rw [hu, Function.update_self], hu⟩
    · exact .inr ⟨hu, Function.update_of_ne hu .., h.outside u (h.sole hsection hu)⟩
  have hidle : ∀ u, (Function.update s.role t r u).claimed = none ∧
      (Function.update s.role t r u).victim = none ∧ (Function.update s.role t r u).want = none := by
    intro u
    rcases hrole u with ⟨hu, -⟩ | ⟨-, hu, hrest⟩ <;> rw [hu]
    · exact hnone
    · exact hrest
  constructor
  case locked => exact hlock
  case outside => exact fun u _ => hidle u
  case table =>
    intro q g hq
    dsimp only at hq ⊢
    by_cases hqp : q = p
    · rw [hqp, Function.update_self] at hq
      rw [← Option.some.inj hq, Function.update_self, hqp]
    · rw [Function.update_of_ne hqp] at hq
      have hgf : g ≠ f := by
        rintro rfl
        exact hunmapped q hq
      rw [Function.update_of_ne hgf, h.table q g hq]
  case nodup => exact h.nodup
  case free =>
    intro g hg
    obtain ⟨hholds, hnot, htasks⟩ := h.free g hg
    have hgf : g ≠ f := by
      rintro rfl
      exact hnotfree hg
    refine ⟨(Function.update_of_ne hgf ..).trans hholds, hnot, fun u => ?_⟩
    dsimp only [State.become]
    rcases hrole u with ⟨hu, -⟩ | ⟨-, hu, -⟩
    · rw [hu, hframe, hnone.1]
      exact ⟨fun hs => hgf (Option.some.inj hs).symm, nofun⟩
    · rw [hu]
      exact htasks u
  case placed =>
    intro g
    by_cases hgf : g = f
    · exact .inr (.inl ⟨p, by rw [hgf]; exact Function.update_self ..⟩)
    · refine (h.placed g).imp_right fun hrest => .inl ?_
      rcases hrest with ⟨q, hq⟩ | ⟨u, hu⟩
      · refine ⟨q, ?_⟩
        dsimp only
        rw [Function.update_of_ne, hq]
        rintro rfl
        cases hq.symm.trans hp
      · rcases hrole u with ⟨-, rfl⟩ | ⟨-, -, hnone, -⟩
        · exact absurd (Option.some.inj (hu.symm.trans hclaim)) hgf
        · cases hu.symm.trans hnone
  case claimed =>
    intro u g hg
    cases hg.symm.trans (hidle u).1
  case victim =>
    intro u g hg
    cases hg.symm.trans (hidle u).2.1
  case want =>
    intro u q hq
    cases hq.symm.trans (hidle u).2.2

/-- **Every step** keeps the invariant. -/
theorem step (h : Inv s) (hs : Step t s s') : Inv s' := by
  cases hs with
  | quiet eligible r heligible hr =>
    rcases hr with rfl | ⟨rfl, hout⟩
    · exact h.become (h.locked_same rfl) (h.outside t) heligible (fun f hf hmem => ((h.free f hmem).2.2 t).1 hf)
        rfl (h.victim t) (h.want t)
    · exact h.become (h.locked_same hout.symm) (fun _ => ⟨rfl, rfl, rfl⟩) heligible nofun
        (h.outside t hout).1.symm nofun nofun
  | search hl hr want hwant =>
    exact h.become (h.locked_enter hl rfl) nofun (fun _ hf => .inl hf) nofun (h.outside t hr).1.symm nofun
      hwant
  | hit hl hr p f hp =>
    refine h.become (h.locked_enter hl rfl) nofun (fun _ hf => .inl hf) (fun g hg hmem => ?_)
      (h.outside t hr).1.symm nofun nofun
    cases hg
    cases (h.table p f hp).symm.trans (h.free f hmem).1
  | takeFree want hr f rest hfree => exact h.takeFree hr hfree
  | takeVictim want hr f hf eligible heligible =>
    have hnotfree : f ∉ s.free := fun hmem => (h.free f hmem).2.1 hf
    refine h.become (h.locked_same (by rw [hr]; rfl)) nofun (fun g hg => .inl (heligible g hg))
      (fun g hg => ?_) (by rw [hr]; rfl) (fun g hg => ?_) fun p hp => h.want t p (by rw [hr]; exact hp)
    · cases hg
      exact hnotfree
    · cases hg
      rcases h.placed f with hmem | hmapped | ⟨u, hu⟩
      · exact absurd hmem hnotfree
      · exact hmapped
      · have hsection : (s.role t).inSection = true := by rw [hr]; rfl
        by_cases hut : u = t
        · rw [hut, hr] at hu
          cases hu
        · rw [(h.outside u (h.sole hsection hut)).1] at hu
          cases hu
  | giveUp want hr eligible heligible =>
    exact h.become (h.locked_leave (by rw [hr]; rfl) rfl) (fun _ => ⟨rfl, rfl, rfl⟩)
      (fun g hg => .inl (heligible g hg)) nofun (by rw [hr]; rfl) nofun nofun
  | unmap want f hr p hp => exact h.unmap hr hp
  | map p f hr =>
    exact h.assign hr (h.want t p (by rw [hr]; rfl)) (h.locked_same (by rw [hr]; rfl)) ⟨rfl, rfl, rfl⟩ rfl
  | mapNew f hr p hp =>
    exact h.assign hr hp (h.locked_leave (by rw [hr]; rfl) rfl) ⟨rfl, rfl, rfl⟩ rfl
  | leave f hr =>
    refine h.become (h.locked_leave (by rw [hr]; rfl) rfl) (fun _ => ⟨rfl, rfl, rfl⟩)
      (fun _ hf => .inl hf) (fun g hg hmem => ?_) (by rw [hr]; rfl) nofun nofun
    exact ((h.free g hmem).2.2 t).1 (by rw [hr]; exact hg)

end Inv

end TableProtocol

end RarmDb
