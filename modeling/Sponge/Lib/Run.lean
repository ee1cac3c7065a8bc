import Mathlib.Tactic

/-!
# Runs of a deterministic step function

A component is a state type `σ`, an event type `ε` and a total step function.  `run`
executes a list of events; `Along` says that a condition on (state before, event) holds at
every step of such a run.  The inductions over runs that a development needs are done here
once: an invariant that is kept by every conditioned step holds after every conditioned run, and
a property of all states reached is equivalent to a step condition as soon as it is so for one
step.  Two states are `Indistinguishable` when all continuations give the same outputs; a
simulation shows it.
-/

namespace Run

variable {σ ε : Type*}

/-- Execute a list of events. -/
def run (step : σ → ε → σ) (s : σ) (es : List ε) : σ := es.foldl step s

/-- Every step of the run meets `ok` in the state before it. -/
def Along (step : σ → ε → σ) (ok : σ → ε → Prop) : σ → List ε → Prop
  | _, [] => True
  | s, e :: es => ok s e ∧ Along step ok (step s e) es

instance decidableAlong (step : σ → ε → σ) (ok : σ → ε → Prop) [∀ s e, Decidable (ok s e)] :
    ∀ s es, Decidable (Along step ok s es)
  | _, [] => isTrue trivial
  | s, e :: es =>
    have := decidableAlong step ok (step s e) es
    inferInstanceAs (Decidable (ok s e ∧ Along step ok (step s e) es))

section

variable {step : σ → ε → σ} {ok : σ → ε → Prop}

@[simp] theorem run_nil (s : σ) : run step s [] = s := rfl

@[simp] theorem run_cons (s : σ) (e : ε) (es : List ε) :
    run step s (e :: es) = run step (step s e) es := rfl

theorem run_append (s : σ) (xs ys : List ε) :
    run step s (xs ++ ys) = run step (run step s xs) ys := List.foldl_append ..

theorem run_concat (s : σ) (es : List ε) (e : ε) :
    run step s (es ++ [e]) = step (run step s es) e := by
  rw [run_append]
  rfl

/-- A part of the state that steps by itself runs by itself. -/
theorem run_map {τ : Type*} {step' : τ → ε → τ} {f : σ → τ}
    (h : ∀ s e, f (step s e) = step' (f s) e) (s : σ) (es : List ε) :
    f (run step s es) = run step' (f s) es := by
  induction es generalizing s with
  | nil => rfl
  | cons e es ih => rw [run_cons, ih, h, run_cons]

/-- Two runs of the same events stay related if every event keeps the relation. -/
theorem run_simulation {τ : Type*} {step' : τ → ε → τ} {R : σ → τ → Prop}
    (hstep : ∀ s t e, R s t → R (step s e) (step' t e)) {s : σ} {t : τ} (h : R s t)
    (es : List ε) : R (run step s es) (run step' t es) := by
  induction es generalizing s t with
  | nil => exact h
  | cons e es ih => exact ih (hstep s t e h)

theorem along_append (s : σ) (xs ys : List ε) :
    Along step ok s (xs ++ ys) ↔ Along step ok s xs ∧ Along step ok (run step s xs) ys := by
  induction xs generalizing s with
  | nil => simp [Along]
  | cons e es ih =>
    simp only [List.cons_append, Along, run_cons, ih, and_assoc]

theorem along_concat (s : σ) (es : List ε) (e : ε) :
    Along step ok s (es ++ [e]) ↔ Along step ok s es ∧ ok (run step s es) e := by
  rw [along_append]
  simp [Along]

theorem along_of_forall (h : ∀ s e, ok s e) (s : σ) (es : List ε) : Along step ok s es := by
  induction es generalizing s with
  | nil => trivial
  | cons e es ih => exact ⟨h s e, ih _⟩

/-- A condition on the events alone holds along every run of events that meet it. -/
theorem along_of_events {p : ε → Prop} {es : List ε} (h : ∀ e ∈ es, p e) (s : σ) :
    Along step (fun _ e => p e) s es := by
  induction es generalizing s with
  | nil => trivial
  | cons e es ih =>
    exact ⟨h e List.mem_cons_self, ih (fun e' he => h e' (List.mem_cons_of_mem _ he)) _⟩

/-- A condition on the events alone can be added to a step condition. -/
theorem Along.and_forall {p : ε → Prop} {s : σ} {es : List ε} (hs : Along step ok s es)
    (hp : ∀ e ∈ es, p e) : Along step (fun s e => ok s e ∧ p e) s es := by
  induction es generalizing s with
  | nil => trivial
  | cons e es ih =>
    exact ⟨⟨hs.1, hp e List.mem_cons_self⟩, ih hs.2 fun e' he => hp e' (List.mem_cons_of_mem _ he)⟩

/-- **The invariant rule.**  What every conditioned step keeps, every conditioned run keeps. -/
theorem run_invariant {I : σ → Prop} (hstep : ∀ s e, I s → ok s e → I (step s e))
    {s : σ} {es : List ε} (hs : I s) (hok : Along step ok s es) : I (run step s es) := by
  induction es generalizing s with
  | nil => exact hs
  | cons e es ih => exact ih (hstep s e hs hok.1) hok.2

/-- The invariant rule without a step condition. -/
theorem run_invariant_of_step {I : σ → Prop} (hstep : ∀ s e, I s → I (step s e))
    {s : σ} (hs : I s) (es : List ε) : I (run step s es) := by
  have hall : Along step (fun _ _ => True) s es := along_of_forall (fun _ _ => trivial) s es
  exact run_invariant (fun s e hs _ => hstep s e hs) hs hall

/-- **The equivalence rule.**  If an invariant makes `good` and `ok` equivalent for one step, and
steps that are `ok` keep the invariant, then the two hold along the same runs.  `pre` is what
the run is known to meet anyway. -/
theorem along_iff_of_invariant {pre good : σ → ε → Prop} {I : σ → Prop}
    (hstep : ∀ s e, I s → pre s e → ok s e → I (step s e))
    (hiff : ∀ s e, I s → pre s e → (good s e ↔ ok s e)) {s : σ} {es : List ε} (hs : I s)
    (hpre : Along step pre s es) : Along step good s es ↔ Along step ok s es := by
  induction es generalizing s with
  | nil => exact Iff.rfl
  | cons e es ih =>
    have he := hiff s e hs hpre.1
    constructor
    · intro hall
      obtain ⟨hgood, hrest⟩ := hall
      have hok := he.mp hgood
      exact ⟨hok, (ih (hstep s e hs hpre.1 hok) hpre.2).mp hrest⟩
    · intro hall
      obtain ⟨hok, hrest⟩ := hall
      exact ⟨he.mpr hok, (ih (hstep s e hs hpre.1 hok) hpre.2).mpr hrest⟩

/-- What an invariant and the step condition give for one step holds along the run. -/
theorem along_of_invariant {good : σ → ε → Prop} {I : σ → Prop}
    (hstep : ∀ s e, I s → ok s e → I (step s e)) (hgood : ∀ s e, I s → ok s e → good s e)
    {s : σ} {es : List ε} (hs : I s) (hok : Along step ok s es) : Along step good s es := by
  induction es generalizing s with
  | nil => trivial
  | cons e es ih => exact ⟨hgood s e hs hok.1, ih (hstep s e hs hok.1) hok.2⟩

/-- The invariant rule for a run that is followed by its history: `I` speaks about the events
so far as well. -/
theorem run_history {I : List ε → σ → Prop} {s : σ} (hs : I [] s)
    (hstep : ∀ es e, Along step ok s es → I es (run step s es) → ok (run step s es) e →
      I (es ++ [e]) (step (run step s es) e))
    (es : List ε) (hok : Along step ok s es) : I es (run step s es) := by
  induction es using List.reverseRecOn with
  | nil => exact hs
  | append_singleton es e ih =>
    obtain ⟨hes, he⟩ := (along_concat s es e).mp hok
    rw [run_concat]
    exact hstep es e hes (ih hes) he

/-! ### States that no continuation tells apart -/

variable {ω : Type*} {out : σ → ε → ω} {s s' : σ}

/-- Whatever happens next, both states give the same outputs. -/
def Indistinguishable (step : σ → ε → σ) (out : σ → ε → ω) (s s' : σ) : Prop :=
  ∀ es e, out (run step s es) e = out (run step s' es) e

/-- **The simulation rule.**  A relation that every event keeps, and under which every event
gives the same output, relates only indistinguishable states. -/
theorem indistinguishable_of_simulation {R : σ → σ → Prop}
    (hstep : ∀ s s' e, R s s' → R (step s e) (step s' e))
    (hout : ∀ s s' e, R s s' → out s e = out s' e) (h : R s s') :
    Indistinguishable step out s s' := by
  intro es
  induction es generalizing s s' with
  | nil => exact fun e => hout s s' e h
  | cons a es ih => exact ih (hstep s s' a h)

theorem Indistinguishable.now (h : Indistinguishable step out s s') (e : ε) :
    out s e = out s' e := h [] e

theorem Indistinguishable.after (h : Indistinguishable step out s s') (es : List ε) :
    Indistinguishable step out (run step s es) (run step s' es) := by
  intro es' e
  rw [← run_append, ← run_append]
  exact h (es ++ es') e

theorem Indistinguishable.symm (h : Indistinguishable step out s s') :
    Indistinguishable step out s' s := fun es e => (h es e).symm

end

end Run
