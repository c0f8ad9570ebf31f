import RarmDb.Lib.Exec

/-!
# Refinement of a machine that may panic

A machine takes operations one after the other; each operation returns an output and the next
state. Its meaning is a relation `spec op out t t'` on abstract states.

* `trace`: the outputs and states of a run;
* `Simulates R spec`: every state of the run is related by `R` to an abstract state, and every
  output and next abstract state is allowed by `spec`;
* `AdmittedRun`: every operation is admitted in the state it is applied to;
* **`simulates_trace`**: a step lemma for an invariant that implies `R` gives whole runs;
* `outputs`, `AdmittedBy`: an abstract machine that is a function; **`trace_outputs`**.
-/

namespace RarmDb

universe u

variable {σ ι ω : Type} {τ : Type u}

/-- Run the operations from state `s`; keep every output with the state after it. -/
def trace (step : σ → ι → Exec (ω × σ)) : σ → List ι → Exec (List (ω × σ))
  | _, [] => .ret []
  | s, i :: ops => do
    let o ← step s i
    let rest ← trace step o.2 ops
    return o :: rest

/-- The run does what `spec` says, seen through `R`. -/
def Simulates (R : σ → τ → Prop) (spec : ι → ω → τ → τ → Prop) :
    τ → List ι → List (ω × σ) → Prop
  | _, [], [] => True
  | t, i :: ops, (o, s) :: run => ∃ t', spec i o t t' ∧ R s t' ∧ Simulates R spec t' ops run
  | _, _, _ => False

/-- Every operation is admitted in the state it is applied to. -/
def AdmittedRun (step : σ → ι → Exec (ω × σ)) (ok : σ → ι → Prop) : σ → List ι → Prop
  | _, [] => True
  | s, i :: ops => ok s i ∧ ∀ o s', step s i = .ret (o, s') → AdmittedRun step ok s' ops

theorem admittedRun_of_forall {step : σ → ι → Exec (ω × σ)} {ok : ι → Prop} {ops : List ι}
    (h : ∀ i ∈ ops, ok i) (s : σ) : AdmittedRun step (fun _ => ok) s ops := by
  induction ops generalizing s with
  | nil => trivial
  | cons i ops ih =>
    exact ⟨h i List.mem_cons_self, fun _ s' _ => ih (fun j hj => h j (List.mem_cons_of_mem i hj)) s'⟩

instance decidableAdmittedRun {step : σ → ι → Exec (ω × σ)} {ok : σ → ι → Prop}
    [∀ s i, Decidable (ok s i)] : ∀ s ops, Decidable (AdmittedRun step ok s ops)
  | _, [] => isTrue trivial
  | s, i :: ops =>
    match h : step s i with
    | .ret (o, s') =>
      have : Decidable (AdmittedRun step ok s' ops) := decidableAdmittedRun s' ops
      decidable_of_iff (ok s i ∧ AdmittedRun step ok s' ops) (and_congr_right fun _ =>
        ⟨fun hrest _ _ heq => (by cases h.symm.trans heq; exact hrest), fun hrest => hrest o s' h⟩)
    | .panic => decidable_of_iff (ok s i) (iff_self_and.mpr fun _ _ _ heq => (by
        cases h.symm.trans heq))
    | .diverge => decidable_of_iff (ok s i) (iff_self_and.mpr fun _ _ _ heq => (by
        cases h.symm.trans heq))

/-- **From one step to whole runs.** -/
theorem simulates_trace {step : σ → ι → Exec (ω × σ)} {I R : σ → τ → Prop}
    {spec : ι → ω → τ → τ → Prop} (hR : ∀ s t, I s t → R s t) {ok : σ → ι → Prop}
    (hstep : ∀ s t i, ok s i → I s t →
      ∃ o s' t', step s i = .ret (o, s') ∧ spec i o t t' ∧ I s' t') {ops : List ι} {s : σ} {t : τ}
    (hok : AdmittedRun step ok s ops) (hI : I s t) :
    ∃ run, trace step s ops = .ret run ∧ Simulates R spec t ops run := by
  induction ops generalizing s t with
  | nil => exact ⟨[], rfl, trivial⟩
  | cons i ops ih =>
    obtain ⟨o, s', t', h₁, h₂, h₃⟩ := hstep s t i hok.1 hI
    obtain ⟨run, h₄, h₅⟩ := ih (hok.2 o s' h₁) h₃
    exact ⟨(o, s') :: run, by rw [trace, h₁, Exec.ret_bind, h₄]; rfl, t', h₂, hR _ _ h₃, h₅⟩

/-! ## Abstract machines that are functions -/

section Outputs

variable {step : σ → ι → Exec (ω × σ)} {abs : τ → ι → ω × τ} {ok : τ → ι → Prop}

/-- The outputs of the abstract machine. -/
def outputs (abs : τ → ι → ω × τ) : τ → List ι → List ω
  | _, [] => []
  | t, i :: ops => (abs t i).1 :: outputs abs (abs t i).2 ops

/-- Every operation is admitted in the abstract state it is applied to. -/
def AdmittedBy (abs : τ → ι → ω × τ) (ok : τ → ι → Prop) : τ → List ι → Prop
  | _, [] => True
  | t, i :: ops => ok t i ∧ AdmittedBy abs ok (abs t i).2 ops

/-- **From one step to whole runs**, for an abstract machine that is a function. -/
theorem trace_outputs {I : σ → τ → Prop}
    (hstep : ∀ s t i, ok t i → I s t →
      ∃ s', step s i = .ret ((abs t i).1, s') ∧ I s' (abs t i).2) {ops : List ι} {s : σ} {t : τ}
    (hok : AdmittedBy abs ok t ops) (hI : I s t) :
    ∃ run, trace step s ops = .ret run ∧ run.map Prod.fst = outputs abs t ops := by
  induction ops generalizing s t with
  | nil => exact ⟨[], rfl, rfl⟩
  | cons i ops ih =>
    obtain ⟨s', hrun, hI'⟩ := hstep s t i hok.1 hI
    obtain ⟨run, htrace, hout⟩ := ih hok.2 hI'
    refine ⟨((abs t i).1, s') :: run, ?_, ?_⟩
    · rw [trace, hrun, Exec.ret_bind, htrace]
      rfl
    · rw [List.map_cons, hout, outputs]

end Outputs

end RarmDb
