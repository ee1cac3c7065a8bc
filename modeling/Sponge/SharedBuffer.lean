import Sponge.NetParser
import Sponge.Lib.MachineInt

/-!
# Buffers with shared storage

The other modules see a `Buffer` as the string it exposes.  Here it is what the source stores: a
pointer to a string that other buffers may share, and an offset into it.  A buffer that has been
consumed to its end lets its storage go and keeps the offset.  `Built` are the buffers that a
program can make; their offset never passes the end of their storage, so that the view they
expose is always inside it.

`BufferList` and `BufferViewList` remove bytes from the front with the same loop, once over buffers
and once over plain views.  Every turn that does not end the loop pops the front, so the recursion
is on the list.  `removePrefix_views` says that the two loops go in step; what they do is proved for
views.
-/

namespace Sponge

open Throwing MachineInt

structure SharedBuffer where
  storage : Option (List UInt8) := none
  startingOffset : ℕ := 0
deriving DecidableEq, Repr

namespace SharedBuffer

/-- The length of the view that the buffer exposes, a difference of two `size_t`. -/
def size (b : SharedBuffer) : ℕ :=
  match b.storage with
  | none => 0
  | some s => sub64 s.length b.startingOffset

/-- The bytes of that view. -/
def str (b : SharedBuffer) : Buffer :=
  match b.storage with
  | none => []
  | some s => (s.drop b.startingOffset).take b.size

/-- The offset moved on, and the storage let go once nothing of it is left. -/
def advance (b : SharedBuffer) (n : ℕ) : SharedBuffer :=
  match b.storage with
  | none => { storage := none, startingOffset := u64 (b.startingOffset + n) }
  | some s =>
    if u64 (b.startingOffset + n) = s.length then
      { storage := none, startingOffset := u64 (b.startingOffset + n) }
    else { storage := some s, startingOffset := u64 (b.startingOffset + n) }

def removePrefix (n : ℕ) : Call SharedBuffer Unit := do
  if (← get).size < n then throw (.outOfRange "Buffer::remove_prefix")
  modify fun b => b.advance n

/-! ### The buffers that can be made -/

/-- The view lies inside the storage, whose size is a `size_t`. -/
def InRange (b : SharedBuffer) : Prop :=
  ∀ s, b.storage = some s → b.startingOffset ≤ s.length ∧ s.length < 2 ^ 64

/-- A default buffer, a buffer that has taken over a string, a buffer whose content was moved away,
and what `remove_prefix` makes of a buffer. -/
inductive Built : SharedBuffer → Prop where
  | default : Built {}
  | ofString (s : List UInt8) (h : s.length < 2 ^ 64) : Built { storage := some s }
  | moved {b : SharedBuffer} (h : Built b) : Built { b with storage := none }
  | consumed {b b' : SharedBuffer} {n : ℕ} (h : Built b) (hn : removePrefix n b = .ok () b') :
      Built b'

section

variable {b : SharedBuffer} {n : ℕ}

theorem InRange.size_eq (h : b.InRange) : b.size = b.str.length := by
  rw [size, str]
  cases hs : b.storage with
  | none => rfl
  | some s =>
    obtain ⟨hle, hlt⟩ := h s hs
    simp only [size, hs, sub64_of_le hlt hle, List.length_take, List.length_drop]
    omega

theorem InRange.str_eq (h : b.InRange) {s : List UInt8} (hs : b.storage = some s) :
    b.str = s.drop b.startingOffset := by
  obtain ⟨hle, hlt⟩ := h s hs
  simp only [str, size, hs, sub64_of_le hlt hle]
  exact List.take_of_length_le (List.length_drop ..).le

theorem removePrefix_throws (h : b.size < n) :
    removePrefix n b = .error (.outOfRange "Buffer::remove_prefix") b := by
  show (if b.size < n then throw _ else _ : Call SharedBuffer Unit) b = _
  rw [if_pos h]
  rfl

theorem removePrefix_ok (h : n ≤ b.size) : removePrefix n b = .ok () (b.advance n) := by
  show (if b.size < n then throw _ else _ : Call SharedBuffer Unit) b = _
  rw [if_neg (not_lt.mpr h)]
  rfl

/-- A buffer without storage exposes nothing, wherever its offset points. -/
theorem inRange_none (startingOffset : ℕ) : InRange { storage := none, startingOffset } := by
  intro s hs
  cases hs

/-- Moving the offset keeps the view inside the storage and drops its first bytes. -/
theorem InRange.advance (h : b.InRange) (hn : n ≤ b.size) :
    (b.advance n).InRange ∧ (b.advance n).str = b.str.drop n := by
  cases hs : b.storage with
  | none =>
    simp only [SharedBuffer.advance, hs]
    refine ⟨inRange_none _, ?_⟩
    simp only [str, hs, List.drop_nil]
  | some s =>
    obtain ⟨hle, hlt⟩ := h s hs
    have hsize : b.size = s.length - b.startingOffset := by
      rw [size, hs]
      exact sub64_of_le hlt hle
    have hoffset : u64 (b.startingOffset + n) = b.startingOffset + n := u64_of_lt (by omega)
    simp only [SharedBuffer.advance, hs, hoffset]
    rw [h.str_eq hs, List.drop_drop]
    by_cases hend : b.startingOffset + n = s.length
    · rw [if_pos hend]
      exact ⟨inRange_none _, (List.drop_eq_nil_of_le hend.ge).symm⟩
    · rw [if_neg hend]
      have hrange : InRange { storage := some s, startingOffset := b.startingOffset + n } := by
        intro s' hs'
        cases hs'
        exact ⟨show b.startingOffset + n ≤ s.length by omega, hlt⟩
      exact ⟨hrange, hrange.str_eq rfl⟩

/-- **The view of every buffer lies inside its storage.** -/
theorem Built.inRange (h : b.Built) : b.InRange := by
  induction h with
  | default => exact inRange_none 0
  | ofString s hlt =>
    intro s' hs'
    cases hs'
    exact ⟨Nat.zero_le _, hlt⟩
  | moved _ _ => exact inRange_none _
  | @consumed b b' n _ hn ih =>
    by_cases hle : n ≤ b.size
    · rw [removePrefix_ok hle] at hn
      cases hn
      exact (ih.advance hle).1
    · rw [removePrefix_throws (not_le.mp hle)] at hn
      cases hn

/-- **A buffer behaves as the string it exposes.** -/
theorem Built.removePrefix_str (h : b.Built) (n : ℕ) :
    (∃ b', SharedBuffer.removePrefix n b = .ok () b' ∧ b'.Built ∧
        b.str.removePrefix n = .ok b'.str) ∨
      SharedBuffer.removePrefix n b = .error (.outOfRange "Buffer::remove_prefix") b ∧
        b.str.removePrefix n = .error (.outOfRange "Buffer::remove_prefix") := by
  have hsize := h.inRange.size_eq
  by_cases hle : n ≤ b.size
  · left
    refine ⟨b.advance n, removePrefix_ok hle, h.consumed (removePrefix_ok hle), ?_⟩
    rw [Buffer.removePrefix, Buffer.size, if_neg (by omega), (h.inRange.advance hle).2]
  · right
    refine ⟨removePrefix_throws (not_le.mp hle), ?_⟩
    rw [Buffer.removePrefix, Buffer.size, if_pos (by omega)]

end

end SharedBuffer

/-! ### Lists of pieces -/

/-- The loop of `remove_prefix` over a deque of pieces. -/
def removePrefixLoop {α : Type} (size : α → ℕ) (removeFront : ℕ → Call α Unit) (what : String) :
    List α → ℕ → EStateM.Result Exception (List α) Unit
  | pieces, 0 => .ok () pieces
  | [], _ + 1 => .error (.outOfRange what) []
  | front :: rest, n + 1 =>
    if n + 1 < size front then
      match removeFront (n + 1) front with
      | .ok _ front' => .ok () (front' :: rest)
      | .error e front' => .error e (front' :: rest)
    else removePrefixLoop size removeFront what rest (n + 1 - size front)

abbrev BufferViewList := List Buffer

namespace BufferViewList

def removePrefix (n : ℕ) : Call BufferViewList Unit := fun views =>
  removePrefixLoop Buffer.size (fun n => modify fun view => view.drop n)
    "BufferListView::remove_prefix" views n

/-- **Removing bytes from a list of views**: they go from the front of the concatenation, or there
are not enough of them. -/
theorem removePrefix_cases (n : ℕ) (views : BufferViewList) :
    (n ≤ views.flatten.length ∧
        ∃ views', removePrefix n views = .ok () views' ∧
          views'.flatten = views.flatten.drop n) ∨
      views.flatten.length < n ∧
        removePrefix n views = .error (.outOfRange "BufferListView::remove_prefix") [] := by
  induction views generalizing n with
  | nil =>
    cases n with
    | zero => exact Or.inl ⟨le_rfl, [], rfl, rfl⟩
    | succ n => exact Or.inr ⟨Nat.succ_pos n, rfl⟩
  | cons front rest ih =>
    cases n with
    | zero => exact Or.inl ⟨Nat.zero_le _, front :: rest, rfl, rfl⟩
    | succ n =>
      rw [List.flatten_cons, List.length_append]
      by_cases hfront : n + 1 < front.length
      · left
        refine ⟨by omega, front.drop (n + 1) :: rest, if_pos hfront, ?_⟩
        rw [List.flatten_cons, List.drop_append_of_le_length hfront.le]
      · have hloop : removePrefix (n + 1) (front :: rest) =
            removePrefix (n + 1 - front.length) rest := if_neg hfront
        rw [hloop, List.drop_append, List.drop_eq_nil_of_le (not_lt.mp hfront),
          List.nil_append]
        refine (ih (n + 1 - front.length)).imp ?_ ?_
        · exact And.imp_left fun hle => by omega
        · exact And.imp_left fun hlt => by omega

end BufferViewList

abbrev SharedBufferList := List SharedBuffer

namespace SharedBufferList

def size (l : SharedBufferList) : ℕ := l.foldl (fun ret buf => u64 (ret + buf.size)) 0

def concatenate (l : SharedBufferList) : List UInt8 := l.foldl (fun ret buf => ret ++ buf.str) []

/-- The constructor of `BufferViewList` from a list of buffers. -/
def views (l : SharedBufferList) : BufferViewList := l.map SharedBuffer.str

def removePrefix (n : ℕ) : Call SharedBufferList Unit := fun l =>
  removePrefixLoop SharedBuffer.size SharedBuffer.removePrefix "BufferList::remove_prefix" l n

section

variable {l : SharedBufferList}

theorem views_cons (b : SharedBuffer) (l : SharedBufferList) : views (b :: l) = b.str :: l.views :=
  rfl

theorem concatenate_eq (l : SharedBufferList) : l.concatenate = l.views.flatten := by
  have hfold : ∀ (l : SharedBufferList) (ret : List UInt8),
      l.foldl (fun ret buf => ret ++ buf.str) ret = ret ++ l.views.flatten := by
    intro l
    induction l with
    | nil => exact fun ret => (List.append_nil ret).symm
    | cons b l ih =>
      intro ret
      rw [List.foldl_cons, ih, views_cons, List.flatten_cons, List.append_assoc]
  exact hfold l []

/-- The size is that of the concatenation, modulo `2 ^ 64`. -/
theorem size_eq (h : ∀ b ∈ l, b.Built) : l.size = u64 l.concatenate.length := by
  have hfold : ∀ (l : SharedBufferList) (ret : ℕ), (∀ b ∈ l, b.Built) →
      l.foldl (fun ret buf => u64 (ret + buf.size)) (u64 ret) =
        u64 (ret + l.views.flatten.length) := by
    intro l
    induction l with
    | nil => exact fun ret _ => rfl
    | cons b l ih =>
      intro ret h
      obtain ⟨hb, hl⟩ := List.forall_mem_cons.mp h
      rw [List.foldl_cons, u64_add, ih _ hl, hb.inRange.size_eq, views_cons, List.flatten_cons,
        List.length_append, Nat.add_assoc]
  rw [concatenate_eq, ← Nat.zero_add l.views.flatten.length]
  exact hfold l 0 h

/-- **The loop over buffers goes in step with the loop over their views.** -/
theorem removePrefix_views (h : ∀ b ∈ l, b.Built) (n : ℕ) :
    (∃ l' : SharedBufferList, removePrefix n l = .ok () l' ∧ (∀ b ∈ l', b.Built) ∧
        BufferViewList.removePrefix n l.views = .ok () l'.views) ∨
      removePrefix n l = .error (.outOfRange "BufferList::remove_prefix") [] ∧
        BufferViewList.removePrefix n l.views =
          .error (.outOfRange "BufferListView::remove_prefix") [] := by
  induction l generalizing n with
  | nil =>
    cases n with
    | zero => exact Or.inl ⟨[], rfl, h, rfl⟩
    | succ n => exact Or.inr ⟨rfl, rfl⟩
  | cons front rest ih =>
    obtain ⟨hfront, hrest⟩ := List.forall_mem_cons.mp h
    have hsize : front.size = front.str.length := hfront.inRange.size_eq
    cases n with
    | zero => exact Or.inl ⟨front :: rest, rfl, h, rfl⟩
    | succ n =>
      by_cases hlt : n + 1 < front.size
      · -- the front is long enough, and loses its first bytes
        left
        rcases hfront.removePrefix_str (n + 1) with ⟨front', hok, hbuilt, hstr⟩ | ⟨herr, _⟩
        · refine ⟨front' :: rest, ?_, List.forall_mem_cons.mpr ⟨hbuilt, hrest⟩, ?_⟩
          · rw [removePrefix, removePrefixLoop, if_pos hlt, hok]
          · rw [hsize] at hlt
            rw [Buffer.removePrefix, Buffer.size, if_neg (not_lt.mpr hlt.le)] at hstr
            rw [views_cons, views_cons, ← Except.ok.inj hstr]
            exact if_pos hlt
        · rw [SharedBuffer.removePrefix_ok hlt.le] at herr
          cases herr
      · -- the front is popped, and the loop goes on
        have hloop : removePrefix (n + 1) (front :: rest) =
            removePrefix (n + 1 - front.size) rest := if_neg hlt
        have hviews : BufferViewList.removePrefix (n + 1) (views (front :: rest)) =
            BufferViewList.removePrefix (n + 1 - front.size) (views rest) := by
          rw [hsize] at hlt ⊢
          exact if_neg hlt
        rw [hloop, hviews]
        exact ih hrest _

/-- The two outcomes, by the length of the concatenation. -/
theorem removePrefix_cases (h : ∀ b ∈ l, b.Built) (n : ℕ) :
    (n ≤ l.concatenate.length ∧
        ∃ l' : SharedBufferList, removePrefix n l = .ok () l' ∧ (∀ b ∈ l', b.Built) ∧
          l'.concatenate = l.concatenate.drop n ∧
          BufferViewList.removePrefix n l.views = .ok () l'.views) ∨
      l.concatenate.length < n ∧
        removePrefix n l = .error (.outOfRange "BufferList::remove_prefix") [] ∧
        BufferViewList.removePrefix n l.views =
          .error (.outOfRange "BufferListView::remove_prefix") [] := by
  rw [concatenate_eq]
  rcases BufferViewList.removePrefix_cases n l.views with ⟨hle, views', hviews, hdrop⟩ | ⟨hlt, herr⟩
  · rcases removePrefix_views h n with ⟨l', hok, hbuilt, hviews'⟩ | ⟨_, herr⟩
    · rw [hviews] at hviews'
      cases hviews'
      exact Or.inl ⟨hle, l', hok, hbuilt, (concatenate_eq l').trans hdrop, hviews⟩
    · rw [hviews] at herr
      cases herr
  · rcases removePrefix_views h n with ⟨l', _, _, hviews⟩ | ⟨herr', _⟩
    · rw [hviews] at herr
      cases herr
    · exact Or.inr ⟨hlt, herr', herr⟩

end

/-- **Removing a prefix from discontiguous buffers.**  Whatever buffers a program has put into the
list, the bytes go from the front of the concatenation, the loop over the views does the same, and
the loops throw if and only if there are too few bytes.  The view of every buffer is inside its
storage before and after. -/
theorem removePrefix_spec {l : SharedBufferList} (h : ∀ b ∈ l, b.Built) (n : ℕ) :
    (∀ b ∈ l, b.InRange) ∧ l.size = u64 l.concatenate.length ∧
      (n ≤ l.concatenate.length → ∃ l' : SharedBufferList, removePrefix n l = .ok () l' ∧
        l'.concatenate = l.concatenate.drop n ∧ (n ≤ l.size → l'.size + n = l.size) ∧
        (∀ b ∈ l', b.InRange) ∧
        BufferViewList.removePrefix n l.views = .ok () l'.views) ∧
      (l.concatenate.length < n →
        removePrefix n l = .error (.outOfRange "BufferList::remove_prefix") [] ∧
        BufferViewList.removePrefix n l.views =
          .error (.outOfRange "BufferListView::remove_prefix") []) := by
  have hsize := size_eq h
  refine ⟨fun b hb => (h b hb).inRange, hsize, fun hn => ?_, fun hn => ?_⟩
  · rcases removePrefix_cases h n with ⟨_, l', hok, hbuilt, hdrop, hviews⟩ | ⟨hlt, _⟩
    · refine ⟨l', hok, hdrop, fun hle => ?_, fun b hb => (hbuilt b hb).inRange, hviews⟩
      rw [size_eq hbuilt, hdrop, List.length_drop, hsize]
      rw [hsize] at hle
      unfold u64 at *
      omega
    · exact absurd hn (not_le.mpr hlt)
  · rcases removePrefix_cases h n with ⟨hle, _⟩ | ⟨_, herr, hviews⟩
    · exact absurd hle (not_le.mpr hn)
    · exact ⟨herr, hviews⟩

/-- A buffer that has been consumed, and one with two bytes. -/
theorem removePrefix_spec_two :
    ∃ l' : SharedBufferList, removePrefix 1 [{}, { storage := some [7, 8] }] = .ok () l' ∧
      l'.concatenate = [8] := by
  have h : ∀ b ∈ ([{}, { storage := some [7, 8] }] : SharedBufferList), b.Built := by
    simp only [List.forall_mem_cons]
    exact ⟨.default, .ofString [7, 8] (by decide), fun b hb => by cases hb⟩
  obtain ⟨_, _, hok, _⟩ := removePrefix_spec h 1
  obtain ⟨l', hl', hdrop, _⟩ := hok (by decide)
  exact ⟨l', hl', hdrop⟩

/-! ### A size that wraps around -/

/-- A list that holds the same buffer many times over. -/
def repeated (count : ℕ) (s : List UInt8) : SharedBufferList :=
  List.replicate count { storage := some s }

theorem length_concatenate_repeated (count : ℕ) {s : List UInt8} (hs : s.length < 2 ^ 64) :
    (repeated count s).concatenate.length = count * s.length := by
  have hstr : SharedBuffer.str { storage := some s } = s :=
    (SharedBuffer.Built.ofString s hs).inRange.str_eq rfl
  rw [concatenate_eq, views, repeated, List.map_replicate, hstr, List.length_flatten,
    List.map_replicate, List.sum_replicate, smul_eq_mul]

/-- `2 ^ 30` buffers that share a string of `2 ^ 34` bytes: the size comes out as zero, and a byte
can be removed. -/
theorem removePrefix_beyond_wrapped_size :
    (∀ b ∈ repeated (2 ^ 30) (List.replicate (2 ^ 34) 0), b.Built) ∧
      (repeated (2 ^ 30) (List.replicate (2 ^ 34) 0)).size < 1 ∧
      ∃ l', removePrefix 1 (repeated (2 ^ 30) (List.replicate (2 ^ 34) 0)) = .ok () l' := by
  have hlength : (List.replicate (2 ^ 34) (0 : UInt8)).length = 2 ^ 34 := List.length_replicate
  generalize List.replicate (2 ^ 34) (0 : UInt8) = s at hlength ⊢
  have hs : s.length < 2 ^ 64 := by omega
  have hbuilt : ∀ b ∈ repeated (2 ^ 30) s, b.Built := by
    intro b hb
    rw [List.eq_of_mem_replicate hb]
    exact .ofString s hs
  have htotal : (repeated (2 ^ 30) s).concatenate.length = 2 ^ 64 := by
    rw [length_concatenate_repeated _ hs, hlength]
    rfl
  refine ⟨hbuilt, ?_, ?_⟩
  · rw [size_eq hbuilt, htotal]
    decide
  · rcases removePrefix_cases hbuilt 1 with ⟨_, l', hok, _⟩ | ⟨hlt, _⟩
    · exact ⟨l', hok⟩
    · rw [htotal] at hlt
      omega

end SharedBufferList

end Sponge
