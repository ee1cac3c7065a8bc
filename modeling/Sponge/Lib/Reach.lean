import Sponge.Lib.Run

/-!
# What can be reached

`Reaches` says that some conditioned run leads from one state to another.  The rule at the end is
the one for progress: if, wherever an invariant holds, a measure that is not zero can be lowered,
then it can be lowered to zero.
-/

namespace Run

variable {σ ε : Type*} {step : σ → ε → σ} {ok : σ → ε → Prop}

/-- A run of steps that meet `ok` leads from `s` to `s'`. -/
def Reaches (step : σ → ε → σ) (ok : σ → ε → Prop) (s s' : σ) : Prop :=
  ∃ es, Along step ok s es ∧ run step s es = s'

theorem Reaches.refl (s : σ) : Reaches step ok s s := ⟨[], trivial, rfl⟩

theorem Reaches.trans {s s' s'' : σ} (h : Reaches step ok s s') (h' : Reaches step ok s' s'') :
    Reaches step ok s s'' := by
  obtain ⟨es, hes, rfl⟩ := h
  obtain ⟨es', hes', rfl⟩ := h'
  exact ⟨es ++ es', (along_append s es es').mpr ⟨hes, hes'⟩, run_append s es es'⟩

theorem Reaches.concat {s s' : σ} (h : Reaches step ok s s') {e : ε} (hok : ok s' e) :
    Reaches step ok s (step s' e) := h.trans ⟨[e], ⟨hok, trivial⟩, rfl⟩

/-- **The progress rule.** -/
theorem reaches_zero {I : σ → Prop} (measure : σ → ℕ)
    (hlower : ∀ s, I s → 0 < measure s →
      ∃ s', Reaches step ok s s' ∧ I s' ∧ measure s' < measure s)
    {s : σ} (hs : I s) : ∃ s', Reaches step ok s s' ∧ I s' ∧ measure s' = 0 := by
  induction hn : measure s using Nat.strong_induction_on generalizing s with
  | _ n ih =>
    rcases Nat.eq_zero_or_pos (measure s) with hzero | hpos
    · exact ⟨s, Reaches.refl s, hs, hzero⟩
    · obtain ⟨s', hreach, hs', hlt⟩ := hlower s hs hpos
      obtain ⟨s'', hreach', hs'', hzero⟩ := ih (measure s') (hn ▸ hlt) hs' rfl
      exact ⟨s'', hreach.trans hreach', hs'', hzero⟩

end Run
