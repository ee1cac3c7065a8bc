import Mathlib.Tactic

/-!
# The first best element of a list

Among the elements of a list with some property, `IsFirstBest` singles out one whose key is
greatest and that comes before all others with that key.  A scan that keeps the best element so
far, and replaces it only by a strictly better one, finds it.  The choice does not depend on the
order of the list when no two candidates share their key.
-/

namespace FirstBest

variable {α κ : Type*} [LinearOrder κ] {p q : α → Prop} {key : α → κ} {l l' : List α} {x y : α}

/-- The first of the elements with property `p` whose key is greatest. -/
def IsFirstBest (p : α → Prop) (key : α → κ) (l : List α) (x : α) : Prop :=
  p x ∧ ∃ before after, l = before ++ x :: after ∧ (∀ y ∈ before, p y → key y < key x) ∧
    ∀ y ∈ after, p y → key y ≤ key x

/-- One turn of the scan. -/
def better (p : α → Prop) [DecidablePred p] (key : α → κ) (best : Option α) (x : α) : Option α :=
  if p x then
    match best with
    | none => some x
    | some b => if key b < key x then some x else some b
  else best

/-- The scan over the whole list. -/
def firstBest (p : α → Prop) [DecidablePred p] (key : α → κ) (l : List α) : Option α :=
  l.foldl (better p key) none

theorem IsFirstBest.mem (h : IsFirstBest p key l x) : x ∈ l := by
  obtain ⟨_, before, after, rfl, _⟩ := h
  exact List.mem_append_right _ List.mem_cons_self

theorem IsFirstBest.le (h : IsFirstBest p key l x) (hy : y ∈ l) (hp : p y) : key y ≤ key x := by
  obtain ⟨_, before, after, rfl, hbefore, hafter⟩ := h
  rcases List.mem_append.mp hy with hy | hy
  · exact (hbefore y hy hp).le
  · rcases List.mem_cons.mp hy with rfl | hy
    · exact le_rfl
    · exact hafter y hy hp

/-- A narrower property has the same first best element, if that element has it. -/
theorem IsFirstBest.and (h : IsFirstBest p key l x) (hx : q x) :
    IsFirstBest (fun y => p y ∧ q y) key l x := by
  obtain ⟨hp, before, after, hl, hbefore, hafter⟩ := h
  exact ⟨⟨hp, hx⟩, before, after, hl, fun y hy h => hbefore y hy h.1,
    fun y hy h => hafter y hy h.1⟩

theorem IsFirstBest.congr (h : IsFirstBest p key l x) (hpq : ∀ y ∈ l, p y ↔ q y) :
    IsFirstBest q key l x := by
  have hx := h.mem
  obtain ⟨hp, before, after, rfl, hbefore, hafter⟩ := h
  refine ⟨(hpq x hx).mp hp, before, after, rfl, fun y hy hq => ?_, fun y hy hq => ?_⟩
  · exact hbefore y hy ((hpq y (List.mem_append_left _ hy)).mpr hq)
  · exact hafter y hy ((hpq y (List.mem_append_right _ (List.mem_cons_of_mem _ hy))).mpr hq)

/-- **The order does not matter** if no other candidate has the key of the best one. -/
theorem IsFirstBest.of_mem_iff (h : IsFirstBest p key l x) (hmem : ∀ y, y ∈ l' ↔ y ∈ l)
    (hinj : ∀ y ∈ l, p y → key y = key x → y = x) : IsFirstBest p key l' x := by
  obtain ⟨before, after, rfl, hfirst⟩ := List.eq_append_cons_of_mem ((hmem x).mpr h.mem)
  refine ⟨h.1, before, after, rfl, fun y hy hp => ?_, fun y hy hp => ?_⟩
  · have hyl : y ∈ l := (hmem y).mp (List.mem_append_left _ hy)
    refine lt_of_le_of_ne (h.le hyl hp) fun heq => hfirst ?_
    rwa [← hinj y hyl hp heq]
  · exact h.le ((hmem y).mp (List.mem_append_right _ (List.mem_cons_of_mem _ hy))) hp

/-! ### The scan -/

variable [DecidablePred p]

theorem foldl_better_of_le (h : ∀ y ∈ l, p y → key y ≤ key x) :
    l.foldl (better p key) (some x) = some x := by
  induction l with
  | nil => rfl
  | cons y l ih =>
    obtain ⟨hy, hl⟩ := List.forall_mem_cons.mp h
    have hkeep : better p key (some x) y = some x := by
      rw [better]
      split
      · rename_i hp
        exact if_neg (not_lt.mpr (hy hp))
      · rfl
    rw [List.foldl_cons, hkeep]
    exact ih hl

/-- The scan has found nothing, or a candidate. -/
theorem firstBest_cases (p : α → Prop) [DecidablePred p] (key : α → κ) (l : List α) :
    firstBest p key l = none ∧ (∀ y ∈ l, ¬ p y) ∨
      ∃ x, firstBest p key l = some x ∧ IsFirstBest p key l x := by
  induction l using List.reverseRecOn with
  | nil => exact Or.inl ⟨rfl, fun y hy => by cases hy⟩
  | append_singleton l y ih =>
    have hstep : firstBest p key (l ++ [y]) = better p key (firstBest p key l) y :=
      List.foldl_append ..
    rw [hstep]
    rcases ih with ⟨hnone, hall⟩ | ⟨x, hx, hbest⟩
    · rw [hnone, better]
      by_cases hp : p y
      · rw [if_pos hp]
        exact Or.inr ⟨y, rfl, hp, l, [], rfl, fun z hz hpz => absurd hpz (hall z hz),
          fun z hz => by cases hz⟩
      · rw [if_neg hp]
        refine Or.inl ⟨rfl, fun z hz => ?_⟩
        rcases List.mem_append.mp hz with hz | hz
        · exact hall z hz
        · rwa [List.mem_singleton.mp hz]
    · obtain ⟨hpx, before, after, hl, hbefore, hafter⟩ := hbest
      -- the old element stays the best one unless the last one is strictly better
      have hkeep : (p y → key y ≤ key x) → IsFirstBest p key (l ++ [y]) x := by
        intro hle
        refine ⟨hpx, before, after ++ [y], by rw [hl]; simp, hbefore, fun z hz hpz => ?_⟩
        rcases List.mem_append.mp hz with hz | hz
        · exact hafter z hz hpz
        · rw [List.mem_singleton.mp hz] at hpz ⊢
          exact hle hpz
      rw [hx, better]
      by_cases hp : p y
      · rw [if_pos hp]
        by_cases hlt : key x < key y
        · refine Or.inr ⟨y, if_pos hlt, hp, l, [], rfl, fun z hz hpz => ?_, fun z hz => by cases hz⟩
          exact lt_of_le_of_lt
            (IsFirstBest.le ⟨hpx, before, after, hl, hbefore, hafter⟩ hz hpz) hlt
        · exact Or.inr ⟨x, if_neg hlt, hkeep fun _ => not_lt.mp hlt⟩
      · rw [if_neg hp]
        exact Or.inr ⟨x, rfl, hkeep fun h => absurd h hp⟩

theorem firstBest_eq_none_iff : firstBest p key l = none ↔ ∀ y ∈ l, ¬ p y := by
  rcases firstBest_cases p key l with ⟨hnone, hall⟩ | ⟨x, hx, hbest⟩
  · exact iff_of_true hnone hall
  · refine iff_of_false (fun h => ?_) fun h => h x hbest.mem hbest.1
    rw [hx] at h
    cases h

/-- **The scan finds the first best element**, and no other element is one. -/
theorem firstBest_eq_some_iff : firstBest p key l = some x ↔ IsFirstBest p key l x := by
  constructor
  · intro h
    rcases firstBest_cases p key l with ⟨hnone, _⟩ | ⟨x', hx', hbest⟩
    · rw [hnone] at h
      cases h
    · rw [hx'] at h
      cases h
      exact hbest
  · rintro ⟨hp, before, after, rfl, hbefore, hafter⟩
    have hsplit : firstBest p key (before ++ x :: after) =
        after.foldl (better p key) (better p key (firstBest p key before) x) :=
      List.foldl_append ..
    have hturn : better p key (firstBest p key before) x = some x := by
      rcases firstBest_cases p key before with ⟨hnone, _⟩ | ⟨b, hb, hbest⟩
      · rw [hnone, better, if_pos hp]
      · rw [hb, better, if_pos hp]
        exact if_pos (hbefore b hbest.mem hbest.1)
    rw [hsplit, hturn]
    exact foldl_better_of_le hafter

theorem exists_isFirstBest_iff : (∃ x, IsFirstBest p key l x) ↔ ∃ y ∈ l, p y := by
  constructor
  · intro ⟨x, hx⟩
    exact ⟨x, hx.mem, hx.1⟩
  · intro ⟨y, hy, hp⟩
    rcases firstBest_cases p key l with ⟨_, hall⟩ | ⟨x, _, hbest⟩
    · exact absurd hp (hall y hy)
    · exact ⟨x, hbest⟩

end FirstBest
