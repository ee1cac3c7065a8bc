import Mathlib.Tactic

/-!
# A bounded first-in first-out queue

The queue is given by its history: everything it has accepted and everything it has released.
What it holds is the part of the first list that is not yet in the second.  That this makes sense
(what was released is a beginning of what was accepted) and that the queue holds no more than its
capacity are fields, so every operation has to show them.
-/

/-- A queue of bounded capacity, by its history. -/
structure Fifo (α : Type*) where
  capacity : ℕ
  accepted : List α
  released : List α
  closed : Bool
  released_isPrefix : released <+: accepted
  fits : accepted.length ≤ released.length + capacity

namespace Fifo

variable {α : Type*}

/-- A queue that has accepted nothing. -/
def empty (capacity : ℕ) : Fifo α where
  capacity := capacity
  accepted := []
  released := []
  closed := false
  released_isPrefix := List.prefix_rfl
  fits := Nat.zero_le _

/-- What was accepted and not yet released. -/
def contents (q : Fifo α) : List α := q.accepted.drop q.released.length

/-- **First in, first out.** -/
theorem released_append_contents (q : Fifo α) : q.released ++ q.contents = q.accepted := by
  obtain ⟨rest, hrest⟩ := q.released_isPrefix
  rw [contents, ← hrest, List.drop_left]

theorem length_accepted (q : Fifo α) :
    q.accepted.length = q.released.length + q.contents.length := by
  rw [← q.released_append_contents, List.length_append]

theorem contents_le_capacity (q : Fifo α) : q.contents.length ≤ q.capacity := by
  have hfits := q.fits
  rw [q.length_accepted] at hfits
  omega

/-- The elements that an open queue has room for. -/
def taken (q : Fifo α) (data : List α) : List α :=
  if q.closed then [] else data.take (q.capacity - q.contents.length)

theorem length_taken_le (q : Fifo α) (data : List α) :
    (q.taken data).length ≤ q.capacity - q.contents.length := by
  rw [taken]
  split
  · exact Nat.zero_le _
  · exact List.length_take_le ..

def push (q : Fifo α) (data : List α) : Fifo α where
  capacity := q.capacity
  accepted := q.accepted ++ q.taken data
  released := q.released
  closed := q.closed
  released_isPrefix := q.released_isPrefix.trans (List.prefix_append ..)
  fits := by
    have htaken := q.length_taken_le data
    have hfull := q.contents_le_capacity
    rw [List.length_append, q.length_accepted]
    omega

def pop (q : Fifo α) (n : ℕ) : Fifo α where
  capacity := q.capacity
  accepted := q.accepted
  released := q.released ++ q.contents.take n
  closed := q.closed
  released_isPrefix := by
    have htake : q.contents.take n <+: q.contents := List.take_prefix ..
    have happend := (List.prefix_append_right_inj q.released).mpr htake
    rwa [q.released_append_contents] at happend
  fits := by
    have hfits := q.fits
    rw [List.length_append]
    omega

def close (q : Fifo α) : Fifo α := { q with closed := true }

@[simp] theorem contents_push (q : Fifo α) (data : List α) :
    (q.push data).contents = q.contents ++ q.taken data := by
  show (q.accepted ++ q.taken data).drop q.released.length = _
  rw [List.drop_append_of_le_length q.released_isPrefix.length_le]
  rfl

@[simp] theorem contents_pop (q : Fifo α) (n : ℕ) :
    (q.pop n).contents = q.contents.drop n := by
  have happend := (q.pop n).released_append_contents
  have hsplit : (q.pop n).released ++ q.contents.drop n = (q.pop n).accepted := by
    show (q.released ++ q.contents.take n) ++ q.contents.drop n = q.accepted
    rw [List.append_assoc, List.take_append_drop, q.released_append_contents]
  exact List.append_cancel_left (happend.trans hsplit.symm)

end Fifo
