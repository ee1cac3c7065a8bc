import Mathlib.Tactic

/-!
# Pieces of a list

`w <+: s.drop n` says that `w` stands in `s` from position `n` on.  The lemmas relate this to
single positions, to lengths and to the part of `s` before it; the others are ways to take a
list apart around one element and to fill one up.
-/

namespace Slices

variable {α : Type*} {s w l : List α} {n : ℕ}

theorem prefix_drop_of_getElem? (h : ∀ i b, w[i]? = some b → s[n + i]? = some b) :
    w <+: s.drop n := by
  rw [List.prefix_iff_getElem?]
  intro i hi
  rw [List.getElem?_drop]
  exact h i _ (List.getElem?_eq_getElem hi)

theorem getElem?_of_prefix_drop {i : ℕ} {b : α} (h : w <+: s.drop n) (hb : w[i]? = some b) :
    s[n + i]? = some b := by
  obtain ⟨t, ht⟩ := h
  rw [← List.getElem?_drop, ← ht, List.getElem?_append_left (List.getElem?_eq_some_iff.mp hb).1]
  exact hb

theorem length_le_of_prefix_drop (hn : n ≤ s.length) (h : w <+: s.drop n) :
    n + w.length ≤ s.length := by
  have := h.length_le
  rw [List.length_drop] at this
  omega

theorem take_append_of_prefix_drop (h : w <+: s.drop n) :
    s.take n ++ w = s.take (n + w.length) := by
  rw [List.take_add, List.prefix_iff_eq_take.mp h, List.length_take]
  congr 1
  rw [List.take_eq_take_iff]
  have := h.length_le
  omega

/-- The ways to point at a member of a list with one more element. -/
theorem concat_eq_split {pre post : List α} {x y : α} (h : l ++ [y] = pre ++ x :: post) :
    (l = pre ∧ x = y) ∨ ∃ post', l = pre ++ x :: post' := by
  rcases List.eq_nil_or_concat' post with rfl | ⟨post', z, rfl⟩
  · obtain ⟨hl, hx⟩ := List.append_inj' h rfl
    simp only [List.cons.injEq, and_true] at hx
    exact Or.inl ⟨hl, hx.symm⟩
  · rw [← List.cons_append, ← List.append_assoc] at h
    exact Or.inr ⟨post', (List.append_inj' h rfl).1⟩

theorem split_at (l : List α) {k : ℕ} (hk : k < l.length) :
    l = l.take k ++ l[k] :: l.drop (k + 1) := by
  rw [List.getElem_cons_drop, List.take_append_drop]

/-- Cutting or filling up a list to a length it does not exceed. -/
theorem takeD_of_length_le (l : List α) (a : α) (h : l.length ≤ n) :
    l.takeD n a = l ++ List.replicate (n - l.length) a := by
  induction l generalizing n with
  | nil => simp
  | cons x l ih =>
    cases n with
    | zero => simp at h
    | succ n => simp [List.takeD, ih (Nat.le_of_succ_le_succ h)]

theorem take_one_eq (l : List α) : l.take 1 = [] ∨ ∃ x ∈ l, l.take 1 = [x] := by
  cases l with
  | nil => exact Or.inl rfl
  | cons x l => exact Or.inr ⟨x, List.mem_cons_self, rfl⟩

/-- An element of a list in which one place was changed. -/
theorem mem_or_of_mem_modify {f : α → α} {x : α} (h : x ∈ l.modify n f) :
    x ∈ l ∨ ∃ y ∈ l, x = f y := by
  obtain ⟨j, hj⟩ := List.mem_iff_getElem?.mp h
  rw [List.getElem?_modify] at hj
  cases hold : l[j]? with
  | none => simp [hold] at hj
  | some y =>
    have hy := List.mem_of_getElem? hold
    rw [hold] at hj
    split at hj
    · cases hj
      exact Or.inr ⟨y, hy, rfl⟩
    · cases hj
      exact Or.inl hy

end Slices
