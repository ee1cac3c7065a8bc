import Mathlib.Tactic

/-!
# Calls that change a state and may throw

`EStateM ε σ α` is a call on an object of type `σ`: it returns a value or throws an exception,
and in both cases it leaves the object as changed so far.  `Returns` says that a call does not
throw in a given state, `Safe` that it never does.  A proof about a sequence of calls uses
`bind_ok` and `bind_error` to step over one call at a time, or the `Safe` rules when only the
absence of exceptions matters.  Two calls on different objects are in `Lockstep` when they do the
same, and leave the objects related as they were.
-/

namespace Throwing

variable {ε σ α β : Type}

/-- The call does not throw when it is made in state `s`. -/
def Returns (m : EStateM ε σ α) (s : σ) : Prop := ∃ a s', m s = .ok a s'

/-- The state a call leaves, whether it returned or threw. -/
def after (m : EStateM ε σ α) (s : σ) : σ :=
  match m s with
  | .ok _ s' => s'
  | .error _ s' => s'

/-- The call never throws. -/
def Safe (m : EStateM ε σ α) : Prop := ∀ s, Returns m s

/-! ### One call after another -/

theorem bind_ok {m : EStateM ε σ α} {s s' : σ} {a : α} (h : m s = .ok a s')
    (f : α → EStateM ε σ β) : (m >>= f) s = f a s' := by
  show EStateM.bind m f s = _
  rw [EStateM.bind, h]

theorem bind_error {m : EStateM ε σ α} {s s' : σ} {e : ε} (h : m s = .error e s')
    (f : α → EStateM ε σ β) : (m >>= f) s = .error e s' := by
  show EStateM.bind m f s = _
  rw [EStateM.bind, h]

theorem after_ok {m : EStateM ε σ α} {s s' : σ} {a : α} (h : m s = .ok a s') :
    after m s = s' := by
  rw [after, h]

theorem after_error {m : EStateM ε σ α} {s s' : σ} {e : ε} (h : m s = .error e s') :
    after m s = s' := by
  rw [after, h]

/-- The calls that a returning sequence is made of. -/
theorem ok_of_bind_ok {m : EStateM ε σ α} {f : α → EStateM ε σ β} {s t : σ} {b : β}
    (h : (m >>= f) s = .ok b t) : ∃ a s', m s = .ok a s' ∧ f a s' = .ok b t := by
  cases hm : m s with
  | ok a s' =>
    rw [bind_ok hm] at h
    exact ⟨a, s', rfl, h⟩
  | error e s' =>
    rw [bind_error hm] at h
    cases h

theorem returns_of_ok {m : EStateM ε σ α} {s s' : σ} {a : α} (h : m s = .ok a s') :
    Returns m s := ⟨a, s', h⟩

theorem not_returns_of_error {m : EStateM ε σ α} {s s' : σ} {e : ε} (h : m s = .error e s') :
    ¬ Returns m s := by
  intro ⟨a, t, hok⟩
  rw [h] at hok
  cases hok

/-! ### Calls that never throw -/

theorem safe_pure (a : α) : Safe (pure a : EStateM ε σ α) := fun s => ⟨a, s, rfl⟩

theorem safe_get : Safe (get : EStateM ε σ σ) := fun s => ⟨s, s, rfl⟩

theorem safe_modify (f : σ → σ) : Safe (modify f : EStateM ε σ PUnit) :=
  fun s => ⟨⟨⟩, f s, rfl⟩

theorem Safe.bind {m : EStateM ε σ α} {f : α → EStateM ε σ β} (hm : Safe m)
    (hf : ∀ a, Safe (f a)) : Safe (m >>= f) := by
  intro s
  obtain ⟨a, s', hs⟩ := hm s
  obtain ⟨b, t, ht⟩ := hf a s'
  exact ⟨b, t, (bind_ok hs f).trans ht⟩

theorem Safe.ite {c : Prop} [Decidable c] {m m' : EStateM ε σ α} (hm : Safe m) (hm' : Safe m') :
    Safe (if c then m else m') := by
  split
  · exact hm
  · exact hm'

/-! ### Sequences that return -/

/-- A sequence of two calls returns when both do. -/
theorem returns_bind_iff {m : EStateM ε σ α} {s s' : σ} {a : α} (h : m s = .ok a s')
    (f : α → EStateM ε σ β) : Returns (m >>= f) s ↔ Returns (f a) s' := by
  rw [Returns, bind_ok h]
  exact Iff.rfl

/-- What follows a call does not matter if it never throws. -/
theorem returns_bind_safe_iff {m : EStateM ε σ α} {f : α → EStateM ε σ β} (hf : ∀ a, Safe (f a))
    (s : σ) : Returns (m >>= f) s ↔ Returns m s := by
  cases h : m s with
  | ok a s' => exact iff_of_true ((returns_bind_iff h f).mpr (hf a s')) (returns_of_ok h)
  | error e s' =>
    exact iff_of_false (not_returns_of_error (bind_error h f)) (not_returns_of_error h)

instance (m : EStateM ε σ α) (s : σ) : Decidable (Returns m s) :=
  match h : m s with
  | .ok _ _ => isTrue (returns_of_ok h)
  | .error _ _ => isFalse (not_returns_of_error h)

/-! ### Calls on a part of the state -/

/-- A call on a part of an object; what it did to the part before it threw stays done. -/
def zoom {τ : Type} (view : σ → τ) (put : σ → τ → σ) (m : EStateM ε τ α) : EStateM ε σ α :=
  fun s =>
    match m (view s) with
    | .ok a t => .ok a (put s t)
    | .error e t => .error e (put s t)

section Zoom

variable {τ : Type} {view : σ → τ} {put : σ → τ → σ} {m : EStateM ε τ α} {s : σ} {t : τ}

theorem zoom_ok {a : α} (h : m (view s) = .ok a t) : zoom view put m s = .ok a (put s t) := by
  rw [zoom, h]

theorem zoom_error {e : ε} (h : m (view s) = .error e t) :
    zoom view put m s = .error e (put s t) := by
  rw [zoom, h]

theorem ok_of_zoom_ok {a : α} {s' : σ} (h : zoom view put m s = .ok a s') :
    ∃ t, m (view s) = .ok a t ∧ s' = put s t := by
  cases hm : m (view s) with
  | ok b t =>
    rw [zoom_ok hm] at h
    cases h
    exact ⟨t, rfl, rfl⟩
  | error e t =>
    rw [zoom_error hm] at h
    cases h

theorem after_zoom : after (zoom view put m) s = put s (after m (view s)) := by
  cases h : m (view s) with
  | ok a t => rw [after_ok (zoom_ok h), after_ok h]
  | error e t => rw [after_error (zoom_error h), after_error h]

theorem returns_zoom_iff : Returns (zoom view put m) s ↔ Returns m (view s) := by
  cases h : m (view s) with
  | ok a t => exact iff_of_true (returns_of_ok (zoom_ok h)) (returns_of_ok h)
  | error e t =>
    exact iff_of_false (not_returns_of_error (zoom_error h)) (not_returns_of_error h)

end Zoom

/-! ### Two calls in step -/

/-- From related states both calls return the same value, or both throw the same exception, and
they leave related states. -/
def Lockstep {τ : Type} (R : τ → σ → Prop) (m' : EStateM ε τ α) (m : EStateM ε σ α) : Prop :=
  ∀ t s, R t s →
    (∃ a t' s', m' t = .ok a t' ∧ m s = .ok a s' ∧ R t' s') ∨
      ∃ e t' s', m' t = .error e t' ∧ m s = .error e s' ∧ R t' s'

section Lockstep

variable {τ : Type} {R : τ → σ → Prop}

theorem lockstep_pure (a : α) :
    Lockstep R (pure a : EStateM ε τ α) (pure a : EStateM ε σ α) :=
  fun t s h => Or.inl ⟨a, t, s, rfl, rfl, h⟩

theorem lockstep_throw (e : ε) :
    Lockstep R (throw e : EStateM ε τ α) (throw e : EStateM ε σ α) :=
  fun t s h => Or.inr ⟨e, t, s, rfl, rfl, h⟩

theorem lockstep_modify {f' : τ → τ} {f : σ → σ} (h : ∀ t s, R t s → R (f' t) (f s)) :
    Lockstep R (modify f' : EStateM ε τ PUnit) (modify f : EStateM ε σ PUnit) :=
  fun t s hR => Or.inl ⟨⟨⟩, f' t, f s, rfl, rfl, h t s hR⟩

theorem Lockstep.bind {m' : EStateM ε τ α} {m : EStateM ε σ α} {f' : α → EStateM ε τ β}
    {f : α → EStateM ε σ β} (hm : Lockstep R m' m) (hf : ∀ a, Lockstep R (f' a) (f a)) :
    Lockstep R (m' >>= f') (m >>= f) := by
  intro t s h
  rcases hm t s h with ⟨a, t', s', ht, hs, h'⟩ | ⟨e, t', s', ht, hs, h'⟩
  · rw [bind_ok ht, bind_ok hs]
    exact hf a t' s' h'
  · rw [bind_error ht, bind_error hs]
    exact Or.inr ⟨e, t', s', rfl, rfl, h'⟩

/-- Calls that first look at their states. -/
theorem lockstep_get_bind {f' : τ → EStateM ε τ β} {f : σ → EStateM ε σ β}
    (hf : ∀ t s, R t s → Lockstep R (f' t) (f s)) :
    Lockstep R (get >>= f') (get >>= f) :=
  fun t s h => hf t s h t s h

theorem Lockstep.zoom {υ ω : Type} {S : υ → ω → Prop} {m' : EStateM ε υ α} {m : EStateM ε ω α}
    {view' : τ → υ} {put' : τ → υ → τ} {view : σ → ω} {put : σ → ω → σ} (hm : Lockstep S m' m)
    (hview : ∀ t s, R t s → S (view' t) (view s))
    (hput : ∀ t s u w, R t s → S u w → R (put' t u) (put s w)) :
    Lockstep R (zoom view' put' m') (zoom view put m) := by
  intro t s h
  rcases hm _ _ (hview t s h) with ⟨a, u, w, hu, hw, h'⟩ | ⟨e, u, w, hu, hw, h'⟩
  · exact Or.inl ⟨a, _, _, zoom_ok hu, zoom_ok hw, hput t s u w h h'⟩
  · exact Or.inr ⟨e, _, _, zoom_error hu, zoom_error hw, hput t s u w h h'⟩

theorem Lockstep.forM {ι : Type} {f' : ι → EStateM ε τ PUnit} {f : ι → EStateM ε σ PUnit}
    (h : ∀ i, Lockstep R (f' i) (f i)) (is : List ι) : Lockstep R (is.forM f') (is.forM f) := by
  induction is with
  | nil => exact lockstep_pure _
  | cons i is ih => exact (h i).bind fun _ => ih

/-- A call that returns is followed in step. -/
theorem Lockstep.ok {m' : EStateM ε τ α} {m : EStateM ε σ α} (hm : Lockstep R m' m) {t : τ}
    {s s' : σ} {a : α} (h : R t s) (hs : m s = .ok a s') : ∃ t', m' t = .ok a t' ∧ R t' s' := by
  rcases hm t s h with ⟨b, t', s'', ht, hs', h'⟩ | ⟨e, t', s'', _, hs', _⟩
  · rw [hs] at hs'
    cases hs'
    exact ⟨t', ht, h'⟩
  · rw [hs] at hs'
    cases hs'

theorem Lockstep.ok_left {m' : EStateM ε τ α} {m : EStateM ε σ α} (hm : Lockstep R m' m) {t t' : τ}
    {s : σ} {a : α} (h : R t s) (ht : m' t = .ok a t') : ∃ s', m s = .ok a s' ∧ R t' s' := by
  rcases hm t s h with ⟨b, t'', s', ht', hs, h'⟩ | ⟨e, t'', s', ht', _, _⟩
  · rw [ht] at ht'
    cases ht'
    exact ⟨s', hs, h'⟩
  · rw [ht] at ht'
    cases ht'

theorem lockstep_eq (m : EStateM ε σ α) : Lockstep Eq m m := by
  rintro s _ rfl
  cases h : m s with
  | ok a s' => exact Or.inl ⟨a, s', s', rfl, rfl, rfl⟩
  | error e s' => exact Or.inr ⟨e, s', s', rfl, rfl, rfl⟩

end Lockstep

end Throwing
