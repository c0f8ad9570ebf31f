import Mathlib.Logic.Function.Basic
import RarmDb.Lib.Ghost

/-!
# Operations under one lock

Tasks share a state behind a lock. An operation takes the lock, changes the state step by step, and gives the lock
back when it returns.

* `Prog`: an operation in steps; `Prog.wp`: what it returns, and what holds of the state all the time that it runs,
  with the rules `wp_pure`, `wp_op`, `wp_bind`, `wp_mono`;
* `State`, `system`: the tasks, with the list of what the operations returned;
* `Serial`: the operations one after the other, as an abstract machine does them;
* **`Inv.step`**: the shared state is that of the operations that returned, or one of them is running;
* **`serial_of_reached`**: operations are atomic, in the order in which they return.
-/

namespace RarmDb

namespace Locked

variable {τ σ κ ι ω ω' α : Type}

/-! ## Operations in steps -/

/-- An operation on a state. How a step comes out depends on a choice that is not its own. -/
inductive Prog (σ κ ω : Type)
  | ret (out : ω)
  | act (change : κ → σ → σ) (next : κ → σ → Prog σ κ ω)

namespace Prog

protected def bind : Prog σ κ ω → (ω → Prog σ κ ω') → Prog σ κ ω'
  | .ret out, f => f out
  | .act change next, f => .act change fun k s => (next k s).bind f

instance : Monad (Prog σ κ) where
  pure := ret
  bind := Prog.bind

/-- One step. -/
def op (run : κ → σ → ω × σ) : Prog σ κ ω := act (fun k s => (run k s).2) fun k s => ret (run k s).1

/-- From the state `s` on, `within` holds of the state all the time, and `post` when the operation has returned. -/
def wp (within : σ → Prop) : Prog σ κ ω → (ω → σ → Prop) → σ → Prop
  | .ret out, post, s => within s ∧ post out s
  | .act change next, post, s => within s ∧ ∀ k, (next k s).wp within post (change k s)

variable {within : σ → Prop} {post post' : ω → σ → Prop} {s : σ}

theorem within_of_wp {p : Prog σ κ ω} (h : p.wp within post s) : within s := by
  cases p <;> exact h.1

theorem wp_mono {p : Prog σ κ ω} (hpost : ∀ out s, post out s → post' out s) (h : p.wp within post s) :
    p.wp within post' s := by
  induction p generalizing s with
  | ret out => exact ⟨h.1, hpost out s h.2⟩
  | act change next ih => exact ⟨h.1, fun k => ih k s (h.2 k)⟩

theorem wp_pure {out : ω} : (pure out : Prog σ κ ω).wp within post s ↔ within s ∧ post out s := Iff.rfl

theorem wp_op {run : κ → σ → ω × σ} :
    (op run).wp within post s ↔ within s ∧ ∀ k, within (run k s).2 ∧ post (run k s).1 (run k s).2 := Iff.rfl

theorem wp_bind {p : Prog σ κ ω} {f : ω → Prog σ κ ω'} {post : ω' → σ → Prop}
    (h : p.wp within (fun out => (f out).wp within post) s) : (p >>= f).wp within post s := by
  induction p generalizing s with
  | ret out => exact h.2
  | act change next ih => exact ⟨h.1, fun k => ih k s (h.2 k)⟩

end Prog

/-! ## Tasks -/

/-- A task is idle, waits for the lock, or has the lock and still has to run the rest of its operation. -/
inductive Task (σ κ ι ω : Type)
  | idle
  | waiting (call : ι)
  | running (call : ι) (rest : Prog σ κ ω)

/-- The shared state, who has the lock, and the tasks. -/
structure State (τ σ κ ι ω : Type) where
  shared : σ
  holder : Option τ
  tasks : τ → Task σ κ ι ω

/-- An idle task calls an operation; any other one goes on. -/
inductive Action (κ ι : Type)
  | call (i : ι)
  | go (k : κ)

def State.init (τ κ ι ω : Type) (s : σ) : State τ σ κ ι ω := ⟨s, none, fun _ => .idle⟩

/-- What the operations returned, the last one at the end. -/
abbrev Log (ι ω : Type) := List (ι × ω)

variable [DecidableEq τ]

/-- The step of a task. -/
def State.step (prog : ι → Prog σ κ ω) (w : State τ σ κ ι ω) (t : τ) (a : Action κ ι) : Option (State τ σ κ ι ω) :=
  match w.tasks t, a with
  | .idle, .call i => some { w with tasks := Function.update w.tasks t (.waiting i) }
  | .waiting i, .go _ =>
    match w.holder with
    | none => some { w with holder := some t, tasks := Function.update w.tasks t (.running i (prog i)) }
    | some _ => none
  | .running i (.act change next), .go k =>
    some { w with
      shared := change k w.shared
      tasks := Function.update w.tasks t (.running i (next k w.shared)) }
  | .running _ (.ret _), .go _ => some { w with holder := none, tasks := Function.update w.tasks t .idle }
  | _, _ => none

/-- What the step of a task returns. -/
def noteReturn (log : Log ι ω) (w : State τ σ κ ι ω) (t : τ) : Action κ ι → Log ι ω
  | .call _ => log
  | .go _ =>
    match w.tasks t with
    | .running i (.ret out) => log ++ [(i, out)]
    | _ => log

/-- The tasks, with what the operations returned. -/
def system (τ : Type) [DecidableEq τ] (prog : ι → Prog σ κ ω) :
    Ghost.System (State τ σ κ ι ω) (Log ι ω) (τ × Action κ ι) where
  step w a := w.step prog a.1 a.2
  note log w a := noteReturn log w a.1 a.2

/-! ## One operation after the other -/

/-- The operations of the list are done one after the other by an abstract machine, and return what is listed. -/
inductive Serial (spec : ι → ω → α → α → Prop) (a₀ : α) : Log ι ω → α → Prop
  | nil : Serial spec a₀ [] a₀
  | snoc {log : Log ι ω} {a a' : α} {i : ι} {out : ω} (h : Serial spec a₀ log a) (hs : spec i out a a') :
      Serial spec a₀ (log ++ [(i, out)]) a'

/-- Every operation alone does what the abstract machine does; what it has done in between is `within`. -/
def Implements (prog : ι → Prog σ κ ω) (spec : ι → ω → α → α → Prop) (R : σ → α → Prop) (within : ι → α → σ → Prop) :
    Prop :=
  ∀ i s a, R s a → (prog i).wp (within i a) (fun out s' => ∃ a', spec i out a a' ∧ R s' a') s

/-! ## Atomicity -/

variable {prog : ι → Prog σ κ ω} {spec : ι → ω → α → α → Prop} {R : σ → α → Prop} {within : ι → α → σ → Prop} {s₀ : σ}
  {a₀ : α} {w w' : State τ σ κ ι ω} {log : Log ι ω} {t : τ} {a : Action κ ι}

/-- The shared state is that of the operations that returned, or the one that has the lock goes on from there. -/
structure Inv (spec : ι → ω → α → α → Prop) (R : σ → α → Prop) (within : ι → α → σ → Prop) (a₀ : α)
    (w : State τ σ κ ι ω) (log : Log ι ω) : Prop where
  sole : ∀ t i rest, w.tasks t = .running i rest → w.holder = some t
  free : w.holder = none → ∃ a, Serial spec a₀ log a ∧ R w.shared a
  held : ∀ t, w.holder = some t → ∃ i rest a, w.tasks t = .running i rest ∧ Serial spec a₀ log a ∧
    rest.wp (within i a) (fun out s' => ∃ a', spec i out a a' ∧ R s' a') w.shared

omit [DecidableEq τ] in
theorem inv_init (h : R s₀ a₀) : Inv spec R within a₀ (State.init τ κ ι ω s₀) [] :=
  ⟨nofun, fun _ => ⟨a₀, .nil, h⟩, nofun⟩

theorem running_of_update {pc : Task σ κ ι ω} {u : τ} {i : ι} {rest : Prog σ κ ω}
    (h : Function.update w.tasks t pc u = .running i rest) (hpc : ∀ i rest, pc ≠ .running i rest) :
    u ≠ t ∧ w.tasks u = .running i rest := by
  by_cases hu : u = t
  · subst hu
    rw [Function.update_self] at h
    exact absurd h (hpc i rest)
  · rw [Function.update_of_ne hu] at h
    exact ⟨hu, h⟩

namespace Inv

theorem call (h : Inv spec R within a₀ w log) (ht : w.tasks t = .idle) (i : ι) :
    Inv spec R within a₀ { w with tasks := Function.update w.tasks t (.waiting i) } log := by
  refine ⟨fun u j rest hu => h.sole u j rest (running_of_update hu nofun).2, h.free, fun u hu => ?_⟩
  obtain ⟨j, rest, a, hj, hrest⟩ := h.held u hu
  have hut : u ≠ t := by
    rintro rfl
    cases ht.symm.trans hj
  exact ⟨j, rest, a, (Function.update_of_ne hut ..).trans hj, hrest⟩

theorem enter (h : Inv spec R within a₀ w log) (hprog : Implements prog spec R within) (hfree : w.holder = none)
    (t : τ) (i : ι) : Inv spec R within a₀
      { w with holder := some t, tasks := Function.update w.tasks t (.running i (prog i)) } log := by
  constructor
  case sole =>
    intro u j rest hu
    by_cases hut : u = t
    · rw [hut]
    · have hholder := h.sole u j rest ((Function.update_of_ne hut ..).symm.trans hu)
      cases hfree.symm.trans hholder
  case free => exact nofun
  case held =>
    intro u hu
    cases hu
    obtain ⟨a, ha, hR⟩ := h.free hfree
    exact ⟨i, _, a, Function.update_self .., ha, hprog i _ a hR⟩

theorem act (h : Inv spec R within a₀ w log) {i : ι} {change : κ → σ → σ} {next : κ → σ → Prog σ κ ω}
    (ht : w.tasks t = .running i (.act change next)) (k : κ) :
    Inv spec R within a₀ { w with
      shared := change k w.shared
      tasks := Function.update w.tasks t (.running i (next k w.shared)) } log := by
  have hholder := h.sole t i _ ht
  constructor
  case sole =>
    intro u j rest hu
    by_cases hut : u = t
    · exact hut ▸ hholder
    · exact h.sole u j rest ((Function.update_of_ne hut ..).symm.trans hu)
  case free => exact fun hnone => absurd (hholder.symm.trans hnone) (Option.some_ne_none t)
  case held =>
    intro u hu
    cases hholder.symm.trans hu
    obtain ⟨j, rest, a, hj, hserial, hrest⟩ := h.held t hholder
    cases ht.symm.trans hj
    exact ⟨i, _, a, Function.update_self .., hserial, hrest.2 k⟩

theorem ret (h : Inv spec R within a₀ w log) {i : ι} {out : ω} (ht : w.tasks t = .running i (.ret out)) :
    Inv spec R within a₀ { w with holder := none, tasks := Function.update w.tasks t .idle } (log ++ [(i, out)]) := by
  have hholder := h.sole t i _ ht
  constructor
  case sole =>
    intro u j rest hu
    obtain ⟨hut, hu⟩ := running_of_update hu nofun
    exact absurd (Option.some.inj ((h.sole u j rest hu).symm.trans hholder)) hut
  case free =>
    intro
    obtain ⟨j, rest, a, hj, hserial, hrest⟩ := h.held t hholder
    cases ht.symm.trans hj
    obtain ⟨-, a', hspec, hR⟩ := hrest
    exact ⟨a', .snoc hserial hspec, hR⟩
  case held => exact nofun

/-- **Every step keeps the operations apart.** -/
theorem step (h : Inv spec R within a₀ w log) (hprog : Implements prog spec R within)
    (hs : w.step prog t a = some w') : Inv spec R within a₀ w' (noteReturn log w t a) := by
  have hlog : ∀ k pc, w.tasks t = pc → noteReturn log w t (.go k) =
      noteReturn log { w with tasks := fun _ => pc } t (.go k) := by
    rintro k pc rfl
    rfl
  unfold State.step at hs
  split at hs
  case h_1 i ht =>
    cases hs
    exact h.call ht i
  case h_2 i k ht =>
    split at hs
    · rename_i hfree
      cases hs
      rw [hlog k _ ht]
      exact h.enter hprog hfree t i
    · cases hs
  case h_3 k ht =>
    cases hs
    rw [hlog k _ ht]
    exact h.act ht k
  case h_4 i out k ht =>
    cases hs
    rw [hlog k _ ht]
    exact h.ret ht
  case h_5 => cases hs

/-- No task waits in vain: a task gets the lock, or the one that has it goes on. -/
theorem exists_step (h : Inv spec R within a₀ w log) (k : κ) {i : ι} (ht : w.tasks t = .waiting i) :
    ∃ u, w.step prog u (.go k) ≠ none := by
  rcases hholder : w.holder with - | u
  · refine ⟨t, ?_⟩
    unfold State.step
    rw [ht]
    dsimp only
    rw [hholder]
    exact Option.some_ne_none _
  · refine ⟨u, ?_⟩
    obtain ⟨j, rest, -, hu, -⟩ := h.held u hholder
    unfold State.step
    rw [hu]
    cases rest <;> exact Option.some_ne_none _

end Inv

/-! ## Runs -/

variable {ok : State τ σ κ ι ω → Log ι ω → τ × Action κ ι → Prop}

theorem inv_of_reached (hprog : Implements prog spec R within) (h₀ : R s₀ a₀)
    (hr : (system τ prog).Reached ok (State.init τ κ ι ω s₀) [] w log) : Inv spec R within a₀ w log :=
  hr.inv (inv_init h₀) fun _ _ _ _ _ hs hi => hi.step hprog hs

/-- **Operations are atomic**, in the order in which they return: their results are those of the abstract machine,
which does one after the other, and the shared state is its state, but for what the running operation has done. -/
theorem serial_of_reached (hprog : Implements prog spec R within) (h₀ : R s₀ a₀)
    (hr : (system τ prog).Reached ok (State.init τ κ ι ω s₀) [] w log) :
    ∃ a, Serial spec a₀ log a ∧ (w.holder = none → R w.shared a) ∧
      ∀ t, w.holder = some t → ∃ i rest, w.tasks t = .running i rest ∧ within i a w.shared := by
  have hi := inv_of_reached hprog h₀ hr
  rcases hholder : w.holder with - | t
  · obtain ⟨a, ha, hR⟩ := hi.free hholder
    exact ⟨a, ha, fun _ => hR, nofun⟩
  · obtain ⟨i, rest, a, ht, ha, hrest⟩ := hi.held t hholder
    refine ⟨a, ha, nofun, fun u hu => ?_⟩
    cases hu
    exact ⟨i, rest, ht, Prog.within_of_wp hrest⟩

end Locked

end RarmDb
