import Sponge.Lib.Throwing

/-!
# Preconditions and postconditions for calls that may throw

`Triple P m Q E` says what is true after the call `m` when `P` was true before: `Q` if it returned
and `E` if it threw.  There is one rule for each way to build a call.  `Keeps` is the common case of
an invariant that holds before and after, however the call ends.
-/

namespace Hoare

open Throwing

variable {ε σ τ α β : Type}

/-! ### Running a call step by step -/

theorem modify_bind (g : σ → σ) (f : PUnit → EStateM ε σ β) (s : σ) :
    ((modify g : EStateM ε σ PUnit) >>= f) s = f ⟨⟩ (g s) := rfl

theorem get_bind (f : σ → EStateM ε σ β) (s : σ) : ((get : EStateM ε σ σ) >>= f) s = f s s := rfl

theorem set_bind (s' : σ) (f : PUnit → EStateM ε σ β) (s : σ) :
    ((set s' : EStateM ε σ PUnit) >>= f) s = f ⟨⟩ s' := rfl

/-! ### Triples -/

/-- From a state with `P` the call leaves one with `Q` when it returns, and one with `E` when it
throws. -/
def Triple (P : σ → Prop) (m : EStateM ε σ α) (Q : α → σ → Prop) (E : ε → σ → Prop) : Prop :=
  ∀ s, P s → (∀ a s', m s = .ok a s' → Q a s') ∧ ∀ e s', m s = .error e s' → E e s'

section

variable {P P' : σ → Prop} {Q Q' : α → σ → Prop} {E E' : ε → σ → Prop} {R : β → σ → Prop}
  {m : EStateM ε σ α} {f : α → EStateM ε σ β}

theorem Triple.ok (h : Triple P m Q E) {s s' : σ} {a : α} (hs : P s) (hm : m s = .ok a s') :
    Q a s' := (h s hs).1 a s' hm

theorem Triple.error (h : Triple P m Q E) {s s' : σ} {e : ε} (hs : P s)
    (hm : m s = .error e s') : E e s' := (h s hs).2 e s' hm

/-- A call that is known to return. -/
theorem returned {s s' : σ} {a : α} (hm : m s = .ok a s') (h : Q a s') :
    (∀ b t, m s = .ok b t → Q b t) ∧ ∀ e t, m s = .error e t → E e t := by
  constructor
  · intro b t hb
    rw [hm] at hb
    cases hb
    exact h
  · intro e t he
    rw [hm] at he
    cases he

/-- A call that is known to throw. -/
theorem thrown {s s' : σ} {e : ε} (hm : m s = .error e s') (h : E e s') :
    (∀ b t, m s = .ok b t → Q b t) ∧ ∀ e t, m s = .error e t → E e t := by
  constructor
  · intro b t hb
    rw [hm] at hb
    cases hb
  · intro e t he
    rw [hm] at he
    cases he
    exact h

/-- The rule of consequence. -/
theorem Triple.weaken (h : Triple P m Q E) (hP : ∀ s, P' s → P s) (hQ : ∀ a s, Q a s → Q' a s)
    (hE : ∀ e s, E e s → E' e s) : Triple P' m Q' E' := by
  intro s hs
  exact ⟨fun a s' hm => hQ a s' (h.ok (hP s hs) hm), fun e s' hm => hE e s' (h.error (hP s hs) hm)⟩

theorem triple_pure (a : α) (h : ∀ s, P s → Q a s) : Triple P (pure a) Q E := by
  intro s hs
  refine ⟨?_, nofun⟩
  rintro _ _ ⟨⟩
  exact h s hs

theorem triple_throw (e : ε) (h : ∀ s, P s → E e s) : Triple P (throw e) Q E := by
  intro s hs
  refine ⟨nofun, ?_⟩
  rintro _ _ ⟨⟩
  exact h s hs

theorem triple_modify (g : σ → σ) {Q : PUnit → σ → Prop} (h : ∀ s, P s → Q ⟨⟩ (g s)) :
    Triple P (modify g : EStateM ε σ PUnit) Q E := by
  intro s hs
  refine ⟨?_, nofun⟩
  rintro _ _ ⟨⟩
  exact h s hs

theorem Triple.bind (hm : Triple P m Q E) (hf : ∀ a, Triple (Q a) (f a) R E) :
    Triple P (m >>= f) R E := by
  intro s hs
  cases h : m s with
  | ok a s' =>
    rw [bind_ok h]
    exact hf a s' (hm.ok hs h)
  | error e s' =>
    rw [bind_error h]
    refine ⟨nofun, ?_⟩
    rintro _ _ ⟨⟩
    exact hm.error hs h

/-- A call that first looks at its state. -/
theorem triple_get_bind {f : σ → EStateM ε σ β}
    (h : ∀ s, Triple (fun s' => s' = s ∧ P s) (f s) R E) :
    Triple P (get >>= f) R E := fun s hs => h s s ⟨rfl, hs⟩

theorem Triple.ite {c : Prop} [Decidable c] {m' : EStateM ε σ α}
    (hm : c → Triple P m Q E) (hm' : ¬ c → Triple P m' Q E) :
    Triple P (if c then m else m') Q E := by
  split
  · rename_i hc
    exact hm hc
  · rename_i hc
    exact hm' hc

/-- A call on a part of the state. -/
theorem Triple.zoom {P : τ → Prop} {m : EStateM ε τ α} {Q : α → τ → Prop} {E : ε → τ → Prop}
    {P' : σ → Prop} {Q' : α → σ → Prop} {E' : ε → σ → Prop} {view : σ → τ} {put : σ → τ → σ}
    (h : Triple P m Q E) (hP : ∀ s, P' s → P (view s))
    (hQ : ∀ s a t, P' s → Q a t → Q' a (put s t)) (hE : ∀ s e t, P' s → E e t → E' e (put s t)) :
    Triple P' (zoom view put m) Q' E' := by
  intro s hs
  cases hm : m (view s) with
  | ok a t =>
    rw [zoom_ok hm]
    refine ⟨?_, nofun⟩
    rintro _ _ ⟨⟩
    exact hQ s _ _ hs (h.ok (hP s hs) hm)
  | error e t =>
    rw [zoom_error hm]
    refine ⟨nofun, ?_⟩
    rintro _ _ ⟨⟩
    exact hE s _ _ hs (h.error (hP s hs) hm)

end

/-- The call keeps `I`, whether it returns or throws. -/
def Keeps (I : σ → Prop) (m : EStateM ε σ α) : Prop := Triple I m (fun _ => I) (fun _ => I)

theorem Keeps.after {I : σ → Prop} {m : EStateM ε σ α} (h : Keeps I m) {s : σ} (hs : I s) :
    I (after m s) := by
  cases hm : m s with
  | ok a s' =>
    rw [after_ok hm]
    exact h.ok hs hm
  | error e s' =>
    rw [after_error hm]
    exact h.error hs hm

theorem Keeps.bind {I : σ → Prop} {m : EStateM ε σ α} {f : α → EStateM ε σ β} (hm : Keeps I m)
    (hf : ∀ a, Keeps I (f a)) : Keeps I (m >>= f) := Triple.bind hm hf

theorem Keeps.get_bind {I : σ → Prop} {f : σ → EStateM ε σ β} (h : ∀ s, I s → Keeps I (f s)) :
    Keeps I (get >>= f) := by
  intro s hs
  exact h s hs s hs

theorem Keeps.ite {I : σ → Prop} {c : Prop} [Decidable c] {m m' : EStateM ε σ α} (hm : Keeps I m)
    (hm' : Keeps I m') : Keeps I (if c then m else m') := Triple.ite (fun _ => hm) fun _ => hm'

theorem keeps_pure {I : σ → Prop} (a : α) : Keeps I (pure a : EStateM ε σ α) :=
  triple_pure a fun _ => id

/-- A call on a part of the state that `I` does not speak of. -/
theorem keeps_zoom {I : σ → Prop} {view : σ → τ} {put : σ → τ → σ} (h : ∀ s t, I s → I (put s t))
    (m : EStateM ε τ α) : Keeps I (zoom view put m) := by
  have hany : Triple (fun _ => True) m (fun _ _ => True) (fun _ _ => True) :=
    fun _ _ => ⟨fun _ _ _ => trivial, fun _ _ _ => trivial⟩
  apply hany.zoom
  · exact fun _ _ => trivial
  · exact fun s _ t hs _ => h s t hs
  · exact fun s _ t hs _ => h s t hs

/-- A loop over a list. -/
theorem Keeps.forM {I : σ → Prop} {f : β → EStateM ε σ PUnit} (l : List β)
    (h : ∀ b ∈ l, Keeps I (f b)) : Keeps I (l.forM f) := by
  induction l with
  | nil => exact triple_pure _ fun _ => id
  | cons b l ih =>
    apply Keeps.bind (h b List.mem_cons_self)
    intro _
    exact ih fun b' hb => h b' (List.mem_cons_of_mem _ hb)

end Hoare
