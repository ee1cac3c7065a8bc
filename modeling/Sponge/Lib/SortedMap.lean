import Mathlib.Tactic

/-!
# Ordered maps as strictly sorted association lists

The values of `SortedMap κ ν` are the finite maps from `κ` to `ν`, listed in increasing key
order: the order in which an ordered-map iterator visits them.  Sortedness is a field, so a
map with a duplicated or misplaced key cannot be built.  Membership in `entries` is the only
view that the lemmas use: lookup, assignment, removal and a pass that updates or drops every
entry are each characterised by the entries they leave.
-/

variable {κ ν : Type*} [LinearOrder κ]

/-- A finite map, as the strictly increasing list of its entries. -/
structure SortedMap (κ ν : Type*) [LinearOrder κ] where
  entries : List (κ × ν)
  sorted : entries.Pairwise (fun a b => a.1 < b.1)

namespace SortedMap

instance [DecidableEq ν] : DecidableEq (SortedMap κ ν) := fun a b =>
  decidable_of_iff (a.entries = b.entries) (by cases a; cases b; simp)

@[ext] theorem ext {a b : SortedMap κ ν} (h : a.entries = b.entries) : a = b := by
  cases a; cases b; cases h; rfl

/-- The map without entries. -/
def empty : SortedMap κ ν := ⟨[], List.Pairwise.nil⟩

/-- The number of entries. -/
def size (m : SortedMap κ ν) : ℕ := m.entries.length

/-- The keys, in increasing order. -/
def keys (m : SortedMap κ ν) : List κ := m.entries.map Prod.fst

/-- The value stored under a key. -/
def find? (m : SortedMap κ ν) (k : κ) : Option ν :=
  (m.entries.find? (fun e => e.1 = k)).map Prod.snd

/-- The entry list after `m[k] = v`. -/
def insertEntries (k : κ) (v : ν) : List (κ × ν) → List (κ × ν)
  | [] => [(k, v)]
  | e :: es => if k < e.1 then (k, v) :: e :: es
      else if k = e.1 then (k, v) :: es
      else e :: insertEntries k v es

theorem mem_insertEntries {k : κ} {v : ν} {es : List (κ × ν)}
    (hs : es.Pairwise (fun a b => a.1 < b.1)) {x : κ × ν} :
    x ∈ insertEntries k v es ↔ x = (k, v) ∨ (x ∈ es ∧ x.1 ≠ k) := by
  induction es with
  | nil => simp [insertEntries]
  | cons e es ih =>
    obtain ⟨hlt, htail⟩ := List.pairwise_cons.mp hs
    unfold insertEntries
    split
    · rename_i hke
      -- the new key precedes every old one, so no old entry is dropped
      have hne : ∀ y ∈ e :: es, y.1 ≠ k := by
        intro y hy
        rcases List.mem_cons.mp hy with rfl | hy
        · exact ne_of_gt hke
        · exact ne_of_gt (hke.trans (hlt y hy))
      constructor
      · intro hx
        rcases List.mem_cons.mp hx with hx | hx
        · exact Or.inl hx
        · exact Or.inr ⟨hx, hne x hx⟩
      · intro hor
        rcases hor with rfl | ⟨hx, _⟩
        · exact List.mem_cons_self
        · exact List.mem_cons_of_mem _ hx
    · split
      · rename_i hke
        have hne : ∀ y ∈ es, y.1 ≠ k := fun y hy => ne_of_gt (hke ▸ hlt y hy)
        constructor
        · intro hx
          rcases List.mem_cons.mp hx with hx | hx
          · exact Or.inl hx
          · exact Or.inr ⟨List.mem_cons_of_mem _ hx, hne x hx⟩
        · intro hor
          rcases hor with rfl | ⟨hx, hxk⟩
          · exact List.mem_cons_self
          · rcases List.mem_cons.mp hx with rfl | hx
            · exact absurd hke.symm hxk
            · exact List.mem_cons_of_mem _ hx
      · rename_i hke
        rw [List.mem_cons, ih htail, List.mem_cons]
        constructor
        · intro hor
          rcases hor with rfl | rfl | ⟨hx, hxk⟩
          · exact Or.inr ⟨Or.inl rfl, fun h => hke h.symm⟩
          · exact Or.inl rfl
          · exact Or.inr ⟨Or.inr hx, hxk⟩
        · intro hor
          rcases hor with rfl | ⟨rfl | hx, hxk⟩
          · exact Or.inr (Or.inl rfl)
          · exact Or.inl rfl
          · exact Or.inr (Or.inr ⟨hx, hxk⟩)

theorem insertEntries_sorted {k : κ} {v : ν} {es : List (κ × ν)}
    (hs : es.Pairwise (fun a b => a.1 < b.1)) :
    (insertEntries k v es).Pairwise (fun a b => a.1 < b.1) := by
  induction es with
  | nil => simp [insertEntries]
  | cons e es ih =>
    obtain ⟨hlt, htail⟩ := List.pairwise_cons.mp hs
    unfold insertEntries
    split
    · rename_i hke
      refine List.pairwise_cons.mpr ⟨?_, hs⟩
      intro y hy
      rcases List.mem_cons.mp hy with rfl | hy
      · exact hke
      · exact hke.trans (hlt y hy)
    · split
      · rename_i hke
        exact List.pairwise_cons.mpr ⟨fun y hy => hke ▸ hlt y hy, htail⟩
      · rename_i hnlt hne
        refine List.pairwise_cons.mpr ⟨?_, ih htail⟩
        intro y hy
        rcases (mem_insertEntries htail).mp hy with rfl | ⟨hy, _⟩
        · exact lt_of_le_of_ne (not_lt.mp hnlt) (fun h => hne h.symm)
        · exact hlt y hy

/-- Assignment `m[k] = v`: overwrite the entry of `k`, or add one. -/
def insert (m : SortedMap κ ν) (k : κ) (v : ν) : SortedMap κ ν :=
  ⟨insertEntries k v m.entries, insertEntries_sorted m.sorted⟩

/-- Remove the entry of a key. -/
def erase (m : SortedMap κ ν) (k : κ) : SortedMap κ ν :=
  ⟨m.entries.filter (fun e => e.1 ≠ k), m.sorted.sublist List.filter_sublist⟩

/-- One pass over all entries that gives each a new value or drops it. -/
def filterMapVals (m : SortedMap κ ν) (f : κ → ν → Option ν) : SortedMap κ ν :=
  ⟨m.entries.filterMap (fun e => (f e.1 e.2).map (Prod.mk e.1)), by
    refine List.Pairwise.filterMap _ ?_ m.sorted
    intro a b hab x hx y hy
    obtain ⟨_, _, rfl⟩ := Option.map_eq_some_iff.mp hx
    obtain ⟨_, _, rfl⟩ := Option.map_eq_some_iff.mp hy
    exact hab⟩

/-! ### What each operation leaves -/

theorem value_unique (m : SortedMap κ ν) {k : κ} {v w : ν} (hv : (k, v) ∈ m.entries)
    (hw : (k, w) ∈ m.entries) : v = w := by
  have hirr : ∀ {es : List (κ × ν)}, es.Pairwise (fun a b => a.1 < b.1) →
      (k, v) ∈ es → (k, w) ∈ es → v = w := by
    intro es hs
    induction es with
    | nil => intro h _; cases h
    | cons e es ih =>
      obtain ⟨hlt, htail⟩ := List.pairwise_cons.mp hs
      intro h1 h2
      rcases List.mem_cons.mp h1 with h1 | h1 <;> rcases List.mem_cons.mp h2 with h2 | h2
      · rw [← h1] at h2; exact (Prod.mk.inj h2).2.symm
      · exact absurd (hlt _ h2) (by rw [← h1]; exact lt_irrefl _)
      · exact absurd (hlt _ h1) (by rw [← h2]; exact lt_irrefl _)
      · exact ih htail h1 h2
  exact hirr m.sorted hv hw

theorem find?_eq_some {m : SortedMap κ ν} {k : κ} {v : ν} :
    m.find? k = some v ↔ (k, v) ∈ m.entries := by
  unfold find?
  constructor
  · intro h
    obtain ⟨e, he, rfl⟩ := Option.map_eq_some_iff.mp h
    have hk : e.1 = k := by simpa using List.find?_some he
    have hmem := List.mem_of_find?_eq_some he
    rwa [show (k, e.2) = e by rw [← hk]]
  · intro h
    cases hf : m.entries.find? (fun e => e.1 = k) with
    | none =>
      have hne := List.find?_eq_none.mp hf (k, v) h
      simp at hne
    | some e =>
      have hk : e.1 = k := by simpa using List.find?_some hf
      have hmem := List.mem_of_find?_eq_some hf
      rw [show e = (k, e.2) by rw [← hk]] at hmem
      rw [Option.map_some, m.value_unique hmem h]

theorem mem_keys {m : SortedMap κ ν} {k : κ} : k ∈ m.keys ↔ ∃ v, (k, v) ∈ m.entries := by
  simp [keys]

theorem find?_eq_none {m : SortedMap κ ν} {k : κ} : m.find? k = none ↔ k ∉ m.keys := by
  rw [mem_keys, Option.eq_none_iff_forall_ne_some]
  simp only [ne_eq, find?_eq_some, not_exists]

theorem keys_nodup (m : SortedMap κ ν) : m.keys.Nodup := by
  unfold keys
  refine List.pairwise_map.mpr (m.sorted.imp ?_)
  intro a b hab
  exact ne_of_lt hab

@[simp] theorem length_keys (m : SortedMap κ ν) : m.keys.length = m.size := List.length_map ..

theorem mem_insert {m : SortedMap κ ν} {k : κ} {v : ν} {x : κ × ν} :
    x ∈ (m.insert k v).entries ↔ x = (k, v) ∨ (x ∈ m.entries ∧ x.1 ≠ k) :=
  mem_insertEntries m.sorted

theorem mem_keys_insert {m : SortedMap κ ν} {k : κ} {v : ν} {j : κ} :
    j ∈ (m.insert k v).keys ↔ j = k ∨ j ∈ m.keys := by
  simp only [mem_keys, mem_insert]
  constructor
  · intro hall
    rcases hall with ⟨w, h | ⟨h, _⟩⟩
    · exact Or.inl (Prod.mk.inj h).1
    · exact Or.inr ⟨w, h⟩
  · intro hor
    rcases hor with rfl | ⟨w, h⟩
    · exact ⟨v, Or.inl rfl⟩
    · by_cases hj : j = k
      · exact ⟨v, Or.inl (by rw [hj])⟩
      · exact ⟨w, Or.inr ⟨h, hj⟩⟩

theorem find?_insert_self (m : SortedMap κ ν) (k : κ) (v : ν) :
    (m.insert k v).find? k = some v := find?_eq_some.mpr (mem_insert.mpr (Or.inl rfl))

theorem find?_insert_of_ne (m : SortedMap κ ν) {k j : κ} (v : ν) (h : j ≠ k) :
    (m.insert k v).find? j = m.find? j := by
  refine Option.ext fun w => ?_
  rw [find?_eq_some, find?_eq_some, mem_insert]
  constructor
  · intro hor
    rcases hor with hw | hw
    · exact absurd (Prod.mk.inj hw).1 h
    · exact hw.1
  · exact fun hw => Or.inr ⟨hw, h⟩

/-- Two maps with the same entries are equal. -/
theorem ext_mem {a b : SortedMap κ ν} (h : ∀ x, x ∈ a.entries ↔ x ∈ b.entries) : a = b := by
  have hnodup : ∀ m : SortedMap κ ν, m.entries.Nodup := fun m => m.keys_nodup.of_map
  refine ext (List.Perm.eq_of_pairwise ?_ a.sorted b.sorted
    ((List.perm_ext_iff_of_nodup (hnodup a) (hnodup b)).mpr h))
  intro x y _ _ hxy hyx
  exact absurd hyx hxy.asymm

theorem size_eq_card (m : SortedMap κ ν) : m.size = m.keys.toFinset.card := by
  rw [List.toFinset_card_of_nodup m.keys_nodup, length_keys]

/-- The keys after an assignment, counted: the size grows exactly when the key is new. -/
theorem size_insert (m : SortedMap κ ν) (k : κ) (v : ν) :
    (m.insert k v).size = if k ∈ m.keys then m.size else m.size + 1 := by
  have hset : (m.insert k v).keys.toFinset = Insert.insert k m.keys.toFinset := by
    ext j
    simp [mem_keys_insert]
  rw [size_eq_card, hset, size_eq_card m]
  split
  · rename_i hk
    rw [Finset.insert_eq_of_mem (by simpa using hk)]
  · rename_i hk
    rw [Finset.card_insert_of_notMem (by simpa using hk)]

theorem mem_filterMapVals {m : SortedMap κ ν} {f : κ → ν → Option ν} {k : κ} {w : ν} :
    (k, w) ∈ (m.filterMapVals f).entries ↔ ∃ v, (k, v) ∈ m.entries ∧ f k v = some w := by
  simp only [filterMapVals, List.mem_filterMap, Option.map_eq_some_iff, Prod.mk.injEq, Prod.exists]
  constructor
  · intro hall
    obtain ⟨a, b, hab, w', hf, rfl, rfl⟩ := hall
    exact ⟨b, hab, hf⟩
  · intro hall
    obtain ⟨v, hv, hf⟩ := hall
    exact ⟨k, v, hv, w, hf, rfl, rfl⟩

theorem find?_filterMapVals (m : SortedMap κ ν) (f : κ → ν → Option ν) (k : κ) :
    (m.filterMapVals f).find? k = (m.find? k).bind (f k) := by
  refine Option.ext fun w => ?_
  rw [find?_eq_some, mem_filterMapVals, Option.bind_eq_some_iff]
  simp only [find?_eq_some]

theorem mem_erase {m : SortedMap κ ν} {k : κ} {x : κ × ν} :
    x ∈ (m.erase k).entries ↔ x ∈ m.entries ∧ x.1 ≠ k := by
  simp [erase]

theorem mem_keys_erase {m : SortedMap κ ν} {k j : κ} :
    j ∈ (m.erase k).keys ↔ j ∈ m.keys ∧ j ≠ k := by
  simp only [mem_keys, mem_erase]
  exact ⟨fun ⟨v, hv, hj⟩ => ⟨⟨v, hv⟩, hj⟩, fun ⟨⟨v, hv⟩, hj⟩ => ⟨v, hv, hj⟩⟩

theorem size_erase_of_mem {m : SortedMap κ ν} {k : κ} (h : k ∈ m.keys) :
    (m.erase k).size = m.size - 1 := by
  have hset : (m.erase k).keys.toFinset = m.keys.toFinset.erase k := by
    ext j
    simp [mem_keys_erase, and_comm]
  rw [size_eq_card, hset, Finset.card_erase_of_mem (by simpa using h), size_eq_card m]

end SortedMap
