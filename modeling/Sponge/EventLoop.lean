import Sponge.FileDescriptor
import Sponge.Lib.Run

/-!
# The event loop

`wait_next_event` goes over the rules twice: it cancels the rules that are done and asks each of the
others whether it is interested, then it polls, and then it serves the rules whose descriptors are
ready.  The second pass keeps an iterator over the rules and an index into the poll results, and
erases rules on its way.

The rules are named by a type `ι`, with a table of what each one does to a state `σ`; the loop keeps
the list of the names of the rules that are left.  An exception ends the loop, so that the rules are
only given back when a call returns.
-/

namespace Sponge

open Throwing Hoare Run

inductive Direction where
  | In
  | Out
deriving DecidableEq, Repr

/-! The bits of `poll(2)`. -/

def POLLIN : UInt16 := 0x001

def POLLOUT : UInt16 := 0x004

def POLLERR : UInt16 := 0x008

def POLLHUP : UInt16 := 0x010

def POLLNVAL : UInt16 := 0x020

def Direction.events : Direction → UInt16
  | .In => POLLIN
  | .Out => POLLOUT

theorem Direction.events_ne_zero (d : Direction) : d.events ≠ 0 := by
  cases d <;> decide

structure PollFd where
  events : UInt16
  revents : UInt16
deriving DecidableEq, Repr

namespace PollFd

def error (p : PollFd) : Bool := p.revents &&& (POLLERR ||| POLLNVAL) != 0

def ready (p : PollFd) : Bool := p.revents &&& p.events != 0

def hup (p : PollFd) : Bool := p.revents &&& POLLHUP != 0

/-- The only condition was a hangup, and we asked for the status. -/
def defunct (p : PollFd) : Bool := p.hup && p.events != 0 && !p.ready

end PollFd

/-- What `poll` returns: no descriptor became ready, the bits of each descriptor, or an error. -/
inductive PollOutcome where
  | timeout
  | ready (revents : List UInt16)
  | failed (errno : ℕ)
deriving DecidableEq, Repr

/-- The kernel says that a descriptor hung up. -/
def PollOutcome.hangup : PollOutcome → Bool
  | .ready revents => revents.any (· &&& POLLHUP != 0)
  | _ => false

structure Rule (σ : Type) where
  fd : σ → FileDescriptor
  direction : Direction
  callback : SysCall σ Unit
  interest : σ → Bool := fun _ => true
  cancel : SysCall σ Unit := pure ()

namespace EventLoop

inductive Result where
  | success
  | timeout
  | exit
deriving DecidableEq, Repr

variable {ι σ : Type}

def serviceCount (r : Rule σ) (s : σ) : UInt32 :=
  if r.direction = .In then (r.fd s).readCount else (r.fd s).writeCount

/-- The first pass: the rules that are left, and the events to poll for each of them. -/
def setUp (rule : ι → Rule σ) : List ι → SysCall σ (List ι × List UInt16)
  | [] => pure ([], [])
  | i :: rest => do
    let s ← get
    if (rule i).direction = .In ∧ ((rule i).fd s).eof = true then
      -- no more reading on this rule, it has reached eof
      (rule i).cancel
      setUp rule rest
    else if ((rule i).fd s).closed = true then
      (rule i).cancel
      setUp rule rest
    else
      let events := if (rule i).interest s then (rule i).direction.events else 0
      let (rules, pollfds) ← setUp rule rest
      return (i :: rules, events :: pollfds)

def busyWait : SystemException := .runtimeError
  "EventLoop: busy wait detected: callback did not read/write fd and is still interested"

def pollError : SystemException := .runtimeError "EventLoop: error on polled file descriptor"

/-- The callback of a ready rule; it must use the descriptor or lose its interest. -/
def serve (r : Rule σ) : SysCall σ Unit := do
  let s ← get
  r.callback
  let s' ← get
  if serviceCount r s = serviceCount r s' ∧ r.interest s' = true then throw busyWait else return ()

/-- The callback is only called if the results include the event we asked for. -/
def serveIfReady (r : Rule σ) (p : PollFd) : SysCall σ Unit := if p.ready then serve r else pure ()

/-- The second pass: `idx` counts the turns, whether or not a rule is erased. -/
def goThrough (rule : ι → Rule σ) (pollfds : List PollFd) : ℕ → List ι → SysCall σ (List ι)
  | _, [] => pure []
  | idx, i :: rest =>
    match pollfds[idx]? with
    | none => throw .outOfBounds
    | some thisPollfd =>
      if thisPollfd.error then throw pollError
      else if thisPollfd.defunct then do
        (rule i).cancel
        goThrough rule pollfds (idx + 1) rest
      else do
        serveIfReady (rule i) thisPollfd
        let rules ← goThrough rule pollfds (idx + 1) rest
        return i :: rules

/-- The poll results next to the events that were asked for. -/
def polled (events revents : List UInt16) : List PollFd :=
  events.mapIdx fun idx e => ⟨e, revents.getD idx 0⟩

def waitNextEvent (rule : ι → Rule σ) (poll : PollOutcome) (rules : List ι) :
    SysCall σ (Result × List ι) := do
  let (rules, events) ← setUp rule rules
  -- an interested rule asks for its direction, which is not zero
  if ¬ events.any (· != 0) then return (.exit, rules)
  else match poll with
    | .timeout => return (.timeout, rules)
    | .failed errno =>
      if errno = EINTR then return (.exit, rules)
      else
        -- any other error is caught and forgotten, and the results are still zero
        let rules ← goThrough rule (polled events []) 0 rules
        return (.success, rules)
    | .ready revents =>
      let rules ← goThrough rule (polled events revents) 0 rules
      return (.success, rules)

/-! ### Each rule has its own result -/

/-- The rules that are left after the first pass, each with the events to poll for. -/
def keep (rule : ι → Rule σ) : List ι → SysCall σ (List (ι × UInt16))
  | [] => pure []
  | i :: rest => do
    let s ← get
    if (rule i).direction = .In ∧ ((rule i).fd s).eof = true ∨ ((rule i).fd s).closed = true then
      (rule i).cancel
      keep rule rest
    else
      let kept ← keep rule rest
      return (i, if (rule i).interest s then (rule i).direction.events else 0) :: kept

/-- Each rule is handled by its own poll result. -/
def handleEach (rule : ι → Rule σ) : List (ι × PollFd) → SysCall σ (List ι)
  | [] => pure []
  | (i, p) :: rest =>
    if p.error then throw pollError
    else if p.defunct then do
      (rule i).cancel
      handleEach rule rest
    else do
      serveIfReady (rule i) p
      let rules ← handleEach rule rest
      return i :: rules

/-- The kept rules with what the kernel said about each. -/
def answered (kept : List (ι × UInt16)) (revents : List UInt16) : List (ι × PollFd) :=
  kept.mapIdx fun k e => (e.1, ⟨e.2, revents.getD k 0⟩)

/-- One round of the loop without the two parallel walks: a rule and its poll result stay
together. -/
def round (rule : ι → Rule σ) (poll : PollOutcome) (rules : List ι) :
    SysCall σ (Result × List ι) := do
  let kept ← keep rule rules
  if ¬ kept.any (fun e => e.2 != 0) then return (.exit, kept.map Prod.fst)
  else match poll with
    | .timeout => return (.timeout, kept.map Prod.fst)
    | .failed errno =>
      if errno = EINTR then return (.exit, kept.map Prod.fst)
      else
        let rules ← handleEach rule (answered kept [])
        return (.success, rules)
    | .ready revents =>
      let rules ← handleEach rule (answered kept revents)
      return (.success, rules)

variable (rule : ι → Rule σ)

theorem setUp_eq_keep (rules : List ι) :
    setUp rule rules = keep rule rules >>= fun kept =>
      pure (kept.map Prod.fst, kept.map Prod.snd) := by
  induction rules with
  | nil => rfl
  | cons i rest ih =>
    rw [setUp, keep, ih]
    simp only [bind_assoc]
    congr 1
    funext s
    by_cases heof : (rule i).direction = .In ∧ ((rule i).fd s).eof = true
    · rw [if_pos heof, if_pos (Or.inl heof), bind_assoc]
    · by_cases hclosed : ((rule i).fd s).closed = true
      · rw [if_neg heof, if_pos hclosed, if_pos (Or.inr hclosed), bind_assoc]
      · rw [if_neg heof, if_neg hclosed, if_neg (not_or.mpr ⟨heof, hclosed⟩)]
        simp only [bind_assoc, pure_bind, List.map_cons]

/-- The index of the second pass never leaves the vector, and always points at the result of the
rule that the iterator is at. -/
theorem goThrough_eq_handleEach (pollfds : List PollFd) (idx : ℕ) (rules : List ι)
    (h : idx + rules.length ≤ pollfds.length) :
    goThrough rule pollfds idx rules = handleEach rule (rules.zip (pollfds.drop idx)) := by
  induction rules generalizing idx with
  | nil => rfl
  | cons i rest ih =>
    rw [List.length_cons] at h
    have hidx : idx < pollfds.length := by omega
    have hnext := ih (idx + 1) (by omega)
    rw [goThrough, List.getElem?_eq_getElem hidx, List.drop_eq_getElem_cons hidx,
      List.zip_cons_cons, handleEach, hnext]

theorem zip_polled (kept : List (ι × UInt16)) (revents : List UInt16) :
    (kept.map Prod.fst).zip (polled (kept.map Prod.snd) revents) = answered kept revents := by
  apply List.ext_getElem
  · simp [polled, answered]
  · intro k hk hk'
    simp [polled, answered]

theorem goThrough_polled (kept : List (ι × UInt16)) (revents : List UInt16) :
    goThrough rule (polled (kept.map Prod.snd) revents) 0 (kept.map Prod.fst) =
      handleEach rule (answered kept revents) := by
  rw [goThrough_eq_handleEach, List.drop_zero, zip_polled]
  simp [polled]

/-- The two passes, without the index. -/
theorem wait_eq_round (poll : PollOutcome) (rules : List ι) :
    waitNextEvent rule poll rules = round rule poll rules := by
  rw [waitNextEvent, round, setUp_eq_keep, bind_assoc]
  congr 1
  funext kept
  have hany : (kept.map Prod.snd).any (· != 0) = kept.any fun e => e.2 != 0 := List.any_map ..
  simp only [pure_bind, hany]
  split
  · rfl
  · cases poll with
    | timeout => rfl
    | ready revents => simp only [goThrough_polled]
    | failed errno => simp only [goThrough_polled]

/-! ### What the loop keeps -/

/-- A callback that is counted once or twice is not a busy waiter. -/
theorem succ_ne (n : UInt32) : n + 1 ≠ n := by simp

theorem succ_succ_ne (n : UInt32) : n + 1 + 1 ≠ n := by
  rw [UInt32.add_assoc]
  simp

/-- The first pass does not cancel the rule. -/
def Fresh (r : Rule σ) (s : σ) : Prop :=
  ¬ (r.direction = .In ∧ (r.fd s).eof = true ∨ (r.fd s).closed = true)

/-- The rules keep an invariant `I` of the rules that are left and the state, and throw only as `E`
says.  A callback may rely on what `F` says of its rule: it is true of a fresh rule, and the other
rules leave it alone. -/
structure Handles (rule : ι → Rule σ) (F : ι → σ → Prop) (I : List ι → σ → Prop)
    (E : SystemException → σ → Prop) : Prop where
  known : ∀ i s, Fresh (rule i) s → F i s
  cancel : ∀ pre i post, Triple (I (pre ++ i :: post)) (rule i).cancel (fun _ => I (pre ++ post)) E
  callback : ∀ rules, ∀ i ∈ rules, ∀ before, Triple
    (fun s => I rules s ∧ F i s ∧ serviceCount (rule i) s = before) (rule i).callback
    (fun _ s => I rules s ∧
      (before = serviceCount (rule i) s → (rule i).interest s = true → E busyWait s)) E
  frameCancel : ∀ i j, i ≠ j → Triple (F i) (rule j).cancel (fun _ => F i) fun _ _ => True
  frameCallback : ∀ i j, i ≠ j → Triple (F i) (rule j).callback (fun _ => F i) fun _ _ => True
  pollError : ∀ rules s, I rules s → E pollError s

variable {rule} {F : ι → σ → Prop} {I : List ι → σ → Prop} {E : SystemException → σ → Prop}

/-- What is known of some other rules on top of an invariant. -/
theorem triple_and_forall {P : σ → Prop} {m : SysCall σ Unit} {Q : σ → Prop} {others : List ι}
    (h : Triple P m (fun _ => Q) E)
    (hframe : ∀ i ∈ others, Triple (F i) m (fun _ => F i) fun _ _ => True) :
    Triple (fun s => P s ∧ ∀ i ∈ others, F i s) m (fun _ s => Q s ∧ ∀ i ∈ others, F i s) E := by
  intro s hs
  refine ⟨fun a s' hm => ⟨h.ok hs.1 hm, ?_⟩, fun e s' hm => h.error hs.1 hm⟩
  intro i hi
  exact (hframe i hi).ok (hs.2 i hi) hm

/-- **The first pass** leaves a sublist of fresh rules. -/
theorem Handles.keep (h : Handles rule F I E) (pre rules : List ι) (hnodup : (pre ++ rules).Nodup) :
    Triple (fun s => I (pre ++ rules) s ∧ ∀ i ∈ pre, F i s) (keep rule rules)
      (fun kept s => I (pre ++ kept.map Prod.fst) s ∧
        (∀ i ∈ pre ++ kept.map Prod.fst, F i s) ∧ (kept.map Prod.fst).Sublist rules)
      E := by
  induction rules generalizing pre with
  | nil =>
    refine triple_pure _ ?_
    intro s hs
    rw [List.map_nil, List.append_nil]
    rw [List.append_nil] at hs
    exact ⟨hs.1, hs.2, List.Sublist.refl _⟩
  | cons i rest ih =>
    have hsplit : pre ++ i :: rest = (pre ++ [i]) ++ rest := by simp
    rw [EventLoop.keep]
    refine triple_get_bind fun s => Triple.ite (fun hgone => ?_) (fun hfresh => ?_)
    · -- the rule is cancelled and erased
      have hne : ∀ j ∈ pre, j ≠ i := by
        intro j hj hji
        rw [List.nodup_append'] at hnodup
        exact hnodup.2.2 hj (hji ▸ List.mem_cons_self)
      refine Triple.bind ((triple_and_forall (h.cancel pre i rest)
        fun j hj => h.frameCancel j i (hne j hj)).weaken ?_ (fun _ _ => id) fun _ _ => id) ?_
      · rintro s' ⟨rfl, hs⟩
        exact hs
      · intro _
        have hsub : (pre ++ rest).Sublist (pre ++ i :: rest) :=
          (List.Sublist.refl pre).append (List.sublist_cons_self i rest)
        refine (ih pre (hnodup.sublist hsub)).weaken (fun _ => id) ?_ fun _ _ => id
        rintro kept s' ⟨hI, hf, hkept⟩
        exact ⟨hI, hf, hkept.cons i⟩
    · -- it stays
      rw [hsplit] at hnodup
      refine Triple.bind ((ih (pre ++ [i]) hnodup).weaken ?_ (fun _ _ => id) fun _ _ => id) ?_
      · rintro s' ⟨rfl, hI, hf⟩
        refine ⟨by rw [← hsplit]; exact hI, ?_⟩
        intro j hj
        rcases List.mem_append.mp hj with hj | hj
        · exact hf j hj
        · rw [List.mem_singleton.mp hj]
          exact h.known i _ hfresh
      · intro kept
        refine triple_pure _ ?_
        rintro s' ⟨hI, hf, hkept⟩
        rw [List.map_cons]
        have hsplit' : pre ++ i :: kept.map Prod.fst = (pre ++ [i]) ++ kept.map Prod.fst := by simp
        rw [hsplit']
        exact ⟨hI, hf, hkept.cons_cons i⟩

theorem Handles.serve (h : Handles rule F I E) {rules : List ι} {i : ι} (hi : i ∈ rules) :
    Triple (fun s => I rules s ∧ F i s) (serve (rule i)) (fun _ => I rules) E := by
  rw [EventLoop.serve]
  refine triple_get_bind fun s => Triple.bind
    ((h.callback rules i hi (serviceCount (rule i) s)).weaken ?_ (fun _ _ => id) fun _ _ => id) ?_
  · rintro s' ⟨rfl, hI, hf⟩
    exact ⟨hI, hf, rfl⟩
  · intro _
    refine triple_get_bind fun s' => Triple.ite (fun hbusy => ?_) (fun _ => ?_)
    · refine triple_throw _ ?_
      rintro _ ⟨rfl, -, hE⟩
      exact hE hbusy.1 hbusy.2
    · refine triple_pure _ ?_
      rintro _ ⟨rfl, hI, -⟩
      exact hI

theorem Handles.frameServe (h : Handles rule F I E) {i j : ι} (hij : i ≠ j) :
    Triple (F i) (EventLoop.serve (rule j)) (fun _ => F i) fun _ _ => True := by
  rw [EventLoop.serve]
  refine triple_get_bind fun s => Triple.bind
    ((h.frameCallback i j hij).weaken ?_ (fun _ _ => id) fun _ _ => id) ?_
  · rintro s' ⟨rfl, hf⟩
    exact hf
  · intro _
    refine triple_get_bind fun s' => Triple.ite (fun _ => ?_) (fun _ => ?_)
    · exact triple_throw _ fun _ _ => trivial
    · refine triple_pure _ ?_
      rintro _ ⟨rfl, hf⟩
      exact hf

/-- **The second pass** serves fresh rules, and again leaves a sublist. -/
theorem Handles.handleEach (h : Handles rule F I E) (pre : List ι) (rest : List (ι × PollFd))
    (hnodup : (pre ++ rest.map Prod.fst).Nodup) :
    Triple (fun s => I (pre ++ rest.map Prod.fst) s ∧ ∀ i ∈ rest.map Prod.fst, F i s)
      (handleEach rule rest)
      (fun rules s => I (pre ++ rules) s ∧ rules.Sublist (rest.map Prod.fst)) E := by
  induction rest generalizing pre with
  | nil =>
    refine triple_pure _ ?_
    intro s hs
    exact ⟨hs.1, List.Sublist.refl _⟩
  | cons e rest ih =>
    obtain ⟨i, p⟩ := e
    rw [List.map_cons] at hnodup ⊢
    have hsplit : ∀ l : List ι, pre ++ i :: l = (pre ++ [i]) ++ l := by simp
    have hne : ∀ j ∈ rest.map Prod.fst, j ≠ i := by
      intro j hj hji
      have := (List.nodup_append'.mp hnodup).2.1
      exact (List.nodup_cons.mp this).1 (hji ▸ hj)
    rw [EventLoop.handleEach]
    refine Triple.ite (fun _ => ?_) fun _ => Triple.ite (fun _ => ?_) fun _ => ?_
    · refine triple_throw _ ?_
      intro s hs
      exact h.pollError _ s hs.1
    · -- a hangup
      refine Triple.bind ((triple_and_forall (h.cancel pre i (rest.map Prod.fst))
        fun j hj => h.frameCancel j i (hne j hj)).weaken ?_ (fun _ _ => id) fun _ _ => id) ?_
      · intro s hs
        exact ⟨hs.1, fun j hj => hs.2 j (List.mem_cons_of_mem _ hj)⟩
      · intro _
        have hsub : (pre ++ rest.map Prod.fst).Sublist (pre ++ i :: rest.map Prod.fst) :=
          (List.Sublist.refl pre).append (List.sublist_cons_self i _)
        refine (ih pre (hnodup.sublist hsub)).weaken (fun _ => id) ?_ fun _ _ => id
        rintro rules s ⟨hI, hrules⟩
        exact ⟨hI, hrules.cons i⟩
    · have hserved : Triple (fun s => I (pre ++ i :: rest.map Prod.fst) s ∧
          ∀ j ∈ i :: rest.map Prod.fst, F j s)
          (serveIfReady (rule i) p)
          (fun _ s => I ((pre ++ [i]) ++ rest.map Prod.fst) s ∧
            ∀ j ∈ rest.map Prod.fst, F j s) E := by
        rw [← hsplit]
        refine Triple.ite (fun _ => ?_) fun _ => ?_
        · refine (triple_and_forall (h.serve (List.mem_append_right pre List.mem_cons_self))
            fun j hj => h.frameServe (hne j hj)).weaken ?_ (fun _ _ => id) fun _ _ => id
          intro s hs
          exact ⟨⟨hs.1, hs.2 i List.mem_cons_self⟩,
            fun j hj => hs.2 j (List.mem_cons_of_mem _ hj)⟩
        · refine triple_pure _ ?_
          intro s hs
          exact ⟨hs.1, fun j hj => hs.2 j (List.mem_cons_of_mem _ hj)⟩
      rw [hsplit] at hnodup
      refine hserved.bind fun _ => Triple.bind (ih (pre ++ [i]) hnodup) fun rules => ?_
      refine triple_pure _ ?_
      rintro s ⟨hI, hrules⟩
      rw [hsplit]
      exact ⟨hI, hrules.cons_cons i⟩

theorem map_fst_answered (kept : List (ι × UInt16)) (revents : List UInt16) :
    (answered kept revents).map Prod.fst = kept.map Prod.fst := by
  apply List.ext_getElem
  · simp [answered]
  · intro k hk hk'
    simp [answered]

/-- **One round keeps the invariant**, however it ends, and only takes rules away. -/
theorem Handles.wait (h : Handles rule F I E) (poll : PollOutcome) (rules : List ι)
    (hnodup : rules.Nodup) :
    Triple (I rules) (waitNextEvent rule poll rules)
      (fun r s => I r.2 s ∧ r.2.Sublist rules) E := by
  rw [wait_eq_round, round]
  refine Triple.bind ((h.keep [] rules hnodup).weaken (fun s hs => ⟨hs, nofun⟩) (fun _ _ => id)
    fun _ _ => id) fun kept => ?_
  have hstop : ∀ r : Result, Triple
      (fun s => I ([] ++ kept.map Prod.fst) s ∧
        (∀ i ∈ [] ++ kept.map Prod.fst, F i s) ∧ (kept.map Prod.fst).Sublist rules)
      (pure (r, kept.map Prod.fst)) (fun r s => I r.2 s ∧ r.2.Sublist rules) E := by
    intro r
    refine triple_pure _ ?_
    rintro s ⟨hI, -, hsub⟩
    exact ⟨hI, hsub⟩
  have hgo : ∀ revents, Triple
      (fun s => I ([] ++ kept.map Prod.fst) s ∧
        (∀ i ∈ [] ++ kept.map Prod.fst, F i s) ∧ (kept.map Prod.fst).Sublist rules)
      (EventLoop.handleEach rule (answered kept revents) >>= fun rules =>
        pure (Result.success, rules))
      (fun r s => I r.2 s ∧ r.2.Sublist rules) E := by
    intro revents s hs
    obtain ⟨-, -, hsub⟩ := id hs
    have hpass := h.handleEach [] (answered kept revents)
      (by rw [map_fst_answered]; exact hnodup.sublist hsub)
    rw [map_fst_answered] at hpass
    refine (Triple.bind hpass fun left => triple_pure _ ?_) s ⟨hs.1, hs.2.1⟩
    rintro s' ⟨hI, hleft⟩
    exact ⟨hI, hleft.trans hsub⟩
  refine Triple.ite (fun _ => hstop _) fun _ => ?_
  cases poll with
  | timeout => exact hstop _
  | ready revents => exact hgo revents
  | failed errno => exact Triple.ite (fun _ => hstop _) fun _ => hgo []

/-- What all callbacks and cancellations keep, a round keeps. -/
theorem wait_keeps {P : σ → Prop}
    (hcancel : ∀ j, Triple P (rule j).cancel (fun _ => P) fun _ _ => True)
    (hcallback : ∀ j, Triple P (rule j).callback (fun _ => P) fun _ _ => True)
    (poll : PollOutcome) (rules : List ι) (hnodup : rules.Nodup) :
    Triple P (waitNextEvent rule poll rules) (fun _ => P) fun _ _ => True := by
  have hany : ∀ m : SysCall σ Unit,
      Triple (fun _ => True) m (fun _ _ => True) fun _ _ => True :=
    fun _ _ _ => ⟨fun _ _ _ => trivial, fun _ _ _ => trivial⟩
  have hhandles : Handles rule (fun _ _ => True) (fun _ => P) fun _ _ => True :=
    { known := fun _ _ _ => trivial
      cancel := fun _ i _ => hcancel i
      callback := fun _ i _ _ => (hcallback i).weaken (fun _ h => h.1)
        (fun _ _ h => ⟨h, fun _ _ => trivial⟩) fun _ _ => id
      frameCancel := fun _ _ _ => hany _
      frameCallback := fun _ _ _ => hany _
      pollError := fun _ _ _ => trivial }
  exact (hhandles.wait poll rules hnodup).weaken (fun _ => id) (fun _ _ h => h.1) fun _ _ => id

/-- What all cancellations keep, the first pass keeps. -/
theorem keep_keeps {P : σ → Prop} (rules : List ι)
    (hall : ∀ j ∈ rules, Triple P (rule j).cancel (fun _ => P) fun _ _ => True) :
    Triple P (keep rule rules) (fun _ => P) fun _ _ => True := by
  induction rules with
  | nil => exact triple_pure _ fun _ => id
  | cons i rest ih =>
    have htail := ih fun j hj => hall j (List.mem_cons_of_mem _ hj)
    rw [keep]
    refine triple_get_bind fun s => Triple.weaken (P := P) ?_ (by rintro _ ⟨rfl, h⟩; exact h)
      (fun _ _ => id) fun _ _ => id
    exact Triple.ite (fun _ => (hall i List.mem_cons_self).bind fun _ => htail)
      fun _ => htail.bind fun _ => triple_pure _ fun _ => id

/-- When the loop exits because nobody is interested, nobody is interested: the cancellations after
the question do not wake a rule up. -/
theorem keep_idle (rules : List ι)
    (hframe : rules.Pairwise fun i j => Triple (fun s => (rule i).interest s = false)
      (rule j).cancel (fun _ s => (rule i).interest s = false) fun _ _ => True) :
    Triple (fun _ => True) (keep rule rules)
      (fun kept s => kept.any (fun e => e.2 != 0) = false →
        ∀ i ∈ kept.map Prod.fst, (rule i).interest s = false) fun _ _ => True := by
  induction rules with
  | nil =>
    refine triple_pure _ ?_
    rintro s - - i hi
    cases hi
  | cons i rest ih =>
    obtain ⟨hhead, htail⟩ := List.pairwise_cons.mp hframe
    rw [keep]
    refine triple_get_bind fun s => Triple.ite (fun _ => ?_) fun _ => ?_
    · refine Triple.bind (Q := fun _ _ => True) ?_ fun _ => ih htail
      exact fun _ _ => ⟨fun _ _ _ => trivial, fun _ _ _ => trivial⟩
    · -- the rule stays, and keeps its answer
      rintro s' ⟨rfl, -⟩
      refine (Triple.bind (P := fun t => t = s') (m := keep rule rest) (Q := fun kept s =>
        (kept.any (fun e => e.2 != 0) = false →
          ∀ j ∈ kept.map Prod.fst, (rule j).interest s = false) ∧
        ((rule i).interest s' = false → (rule i).interest s = false)) ?_ fun kept => ?_) s' rfl
      · rintro _ rfl
        refine ⟨fun kept t hm => ⟨(ih htail).ok trivial hm, fun hidle => ?_⟩, fun _ _ _ => trivial⟩
        exact (keep_keeps rest hhead).ok hidle hm
      · refine triple_pure _ ?_
        rintro t ⟨hrest, hself⟩ hany j hj
        rw [List.any_cons, Bool.or_eq_false_iff] at hany
        rcases List.mem_cons.mp hj with rfl | hj
        · refine hself ?_
          by_contra hint
          rw [if_pos (Bool.not_eq_false _ ▸ hint)] at hany
          exact absurd hany.1 (by simp [Direction.events_ne_zero])
        · exact hrest hany.2 j hj

/-- A round that is not interrupted says `Exit` only when nobody is interested. -/
theorem wait_exit_idle (poll : PollOutcome) (hpoll : poll ≠ .failed EINTR) (rules : List ι)
    (hframe : rules.Pairwise fun i j => Triple (fun s => (rule i).interest s = false)
      (rule j).cancel (fun _ s => (rule i).interest s = false) fun _ _ => True) :
    Triple (fun _ => True) (waitNextEvent rule poll rules)
      (fun r s => r.1 = .exit → ∀ i ∈ r.2, (rule i).interest s = false) fun _ _ => True := by
  rw [wait_eq_round, round]
  refine (keep_idle rules hframe).bind fun kept => Triple.ite (fun hany => ?_) fun _ => ?_
  · refine triple_pure _ ?_
    intro s hidle _
    exact hidle (Bool.not_eq_true _ ▸ hany)
  · have hgo : ∀ revents, Triple
        (fun s => kept.any (fun e => e.2 != 0) = false →
          ∀ i ∈ kept.map Prod.fst, (rule i).interest s = false)
        (EventLoop.handleEach rule (answered kept revents) >>= fun rules =>
          pure (Result.success, rules))
        (fun r s => r.1 = .exit → ∀ i ∈ r.2, (rule i).interest s = false) fun _ _ => True := by
      intro revents
      refine Triple.bind (Q := fun _ _ => True) (fun _ _ => ⟨fun _ _ _ => trivial,
        fun _ _ _ => trivial⟩) fun left => triple_pure _ fun _ _ hexit => ?_
      cases hexit
    cases poll with
    | timeout => exact triple_pure _ fun _ _ hexit => by cases hexit
    | ready revents => exact hgo revents
    | failed errno =>
      refine Triple.ite (fun herrno => ?_) fun _ => hgo []
      exact absurd (congrArg PollOutcome.failed herrno) hpoll

/-! ### When a rule goes -/

/-- The first pass keeps a fresh rule. -/
theorem keep_mem {i : ι} (rules : List ι)
    (hcancel : ∀ j, Triple (Fresh (rule i)) (rule j).cancel (fun _ => Fresh (rule i))
      fun _ _ => True) :
    Triple (Fresh (rule i)) (keep rule rules) (fun kept _ => i ∈ rules → i ∈ kept.map Prod.fst)
      fun _ _ => True := by
  induction rules with
  | nil => exact triple_pure _ fun _ _ => id
  | cons j rest ih =>
    rw [keep]
    refine triple_get_bind fun _ => ?_
    rintro s ⟨rfl, hfresh⟩
    by_cases hgone : (rule j).direction = .In ∧ ((rule j).fd s).eof = true ∨
        ((rule j).fd s).closed = true
    · -- a rule that is cancelled is another one
      rw [if_pos hgone]
      refine (((hcancel j).bind fun _ => ih).weaken (fun _ => id) ?_ fun _ _ => id) s hfresh
      intro kept _ hkept hmem
      refine hkept ((List.mem_cons.mp hmem).resolve_left ?_)
      rintro rfl
      exact hfresh hgone
    · rw [if_neg hgone]
      refine (ih.bind fun kept => triple_pure _ fun _ hkept hmem => ?_) s hfresh
      rw [List.map_cons, List.mem_cons]
      exact (List.mem_cons.mp hmem).imp_right hkept

/-- Without a hangup the second pass keeps all rules. -/
theorem handleEach_eq (rest : List (ι × PollFd)) (hrest : ∀ e ∈ rest, e.2.hup = false) :
    Triple (fun _ => True) (handleEach rule rest) (fun rules _ => rules = rest.map Prod.fst)
      fun _ _ => True := by
  induction rest with
  | nil => exact triple_pure _ fun _ _ => rfl
  | cons e rest ih =>
    obtain ⟨i, p⟩ := e
    have hup : p.hup = false := hrest (i, p) List.mem_cons_self
    have htail := ih fun e he => hrest e (List.mem_cons_of_mem _ he)
    have halive : ¬ p.defunct = true := by
      rw [PollFd.defunct, hup]
      exact Bool.false_ne_true
    have hserve : Triple (fun _ => True) (serveIfReady (rule i) p) (fun _ _ => True)
        fun _ _ => True := fun _ _ => ⟨fun _ _ _ => trivial, fun _ _ _ => trivial⟩
    rw [handleEach, if_neg halive]
    refine Triple.ite (fun _ => triple_throw _ fun _ => id) fun _ => ?_
    refine hserve.bind fun _ => htail.bind fun rules => triple_pure _ ?_
    rintro _ rfl
    rfl

theorem hup_answered {kept : List (ι × UInt16)} {revents : List UInt16}
    (hup : revents.any (· &&& POLLHUP != 0) = false) :
    ∀ e ∈ answered kept revents, e.2.hup = false := by
  intro e he
  obtain ⟨k, hk, rfl⟩ := List.mem_mapIdx.mp he
  show (revents.getD k 0 &&& POLLHUP != 0) = false
  rw [List.getD_eq_getElem?_getD]
  cases hget : revents[k]? with
  | none => rfl
  | some r =>
    have hr := List.any_eq_false.mp hup r (List.mem_of_getElem? hget)
    rw [Option.getD_some]
    exact Bool.not_eq_true _ ▸ hr

/-- **A rule goes only for a reason**: a round without a hangup keeps every rule that is fresh. -/
theorem wait_mem (poll : PollOutcome) (hpoll : poll.hangup = false) {i : ι} (rules : List ι)
    (hcancel : ∀ j, Triple (Fresh (rule i)) (rule j).cancel (fun _ => Fresh (rule i))
      fun _ _ => True) :
    Triple (Fresh (rule i)) (waitNextEvent rule poll rules) (fun r _ => i ∈ rules → i ∈ r.2)
      fun _ _ => True := by
  rw [wait_eq_round, round]
  refine (keep_mem rules hcancel).bind fun kept => ?_
  have hgo : ∀ revents : List UInt16, revents.any (· &&& POLLHUP != 0) = false →
      Triple (fun _ => i ∈ rules → i ∈ kept.map Prod.fst)
        (EventLoop.handleEach rule (answered kept revents) >>= fun rules =>
          pure (Result.success, rules))
        (fun r _ => i ∈ rules → i ∈ r.2) fun _ _ => True := by
    intro revents hup s hkept
    have hall : Triple (fun _ => True) (EventLoop.handleEach rule (answered kept revents))
        (fun rules _ => rules = (answered kept revents).map Prod.fst) fun _ _ => True :=
      handleEach_eq (answered kept revents) (hup_answered hup)
    refine (hall.bind fun left => triple_pure _ ?_) s trivial
    rintro _ rfl
    rw [map_fst_answered]
    exact hkept
  refine Triple.ite (fun _ => triple_pure _ fun _ => id) fun _ => ?_
  cases poll with
  | timeout => exact triple_pure _ fun _ => id
  | ready revents => exact hgo revents hpoll
  | failed errno => exact Triple.ite (fun _ => triple_pure _ fun _ => id) fun _ => hgo [] rfl

/-! ### Runs of the loop -/

inductive Status where
  | running
  | exited
  | threw (e : SystemException)
deriving DecidableEq, Repr

/-- A loop that calls `wait_next_event` until it says `Exit`. -/
structure Loop (ι σ : Type) where
  rules : List ι
  world : σ
  status : Status := .running

/-- One turn of a loop around the given kind of wait. -/
def turnWith (wait : PollOutcome → List ι → SysCall σ (Result × List ι)) (l : Loop ι σ)
    (poll : PollOutcome) : Loop ι σ :=
  if l.status = .running then
    match (wait poll l.rules).run l.world with
    | .ok (result, rules) s =>
      { rules := rules, world := s, status := if result = .exit then .exited else .running }
    | .error e s => { rules := l.rules, world := s, status := .threw e }
  else l

def loopStep (rule : ι → Rule σ) : Loop ι σ → PollOutcome → Loop ι σ :=
  turnWith (waitNextEvent rule)

/-- **Every rule is judged by the poll result of its own descriptor**, in every round of every run.
The second pass walks the rules with an iterator and the results with an index, and erases rules on
its way; the loop goes through the same states as one in which each rule and its result stay
together, for all rules, callbacks and results. -/
theorem run_eq_run_rounds (rule : ι → Rule σ) (l : Loop ι σ) (polls : List PollOutcome) :
    Run.run (loopStep rule) l polls = Run.run (turnWith (round rule)) l polls := by
  have hwait : waitNextEvent rule = round rule := by
    funext poll rules
    exact wait_eq_round rule poll rules
  rw [loopStep, hwait]

/-- The invariant holds, or `E` does if the loop has thrown; no rules have come. -/
structure Sound (I : List ι → σ → Prop) (E : SystemException → σ → Prop) (rules : List ι)
    (l : Loop ι σ) : Prop where
  rules : l.rules.Sublist rules
  threw : ∀ e, l.status = .threw e → E e l.world
  holds : (∀ e, l.status ≠ .threw e) → I l.rules l.world

/-- **What one round keeps, a step keeps.** -/
theorem Sound.step (h : Handles rule F I E) {rules : List ι} (hnodup : rules.Nodup) {l : Loop ι σ}
    (hl : Sound I E rules l) (poll : PollOutcome) : Sound I E rules (loopStep rule l poll) := by
  unfold loopStep turnWith
  split
  · rename_i hrun
    have hI := hl.holds fun e he => by rw [hrun] at he; cases he
    have hwait := h.wait poll l.rules (hnodup.sublist hl.rules)
    cases hcall : waitNextEvent rule poll l.rules l.world with
    | ok r s =>
      rw [EStateM.run, hcall]
      have hr := hwait.ok hI hcall
      refine ⟨hr.2.trans hl.rules, ?_, fun _ => hr.1⟩
      intro e he
      simp only at he
      split at he <;> cases he
    | error e s =>
      rw [EStateM.run, hcall]
      refine ⟨hl.rules, ?_, fun hno => absurd rfl (hno e)⟩
      rintro _ ⟨⟩
      exact hwait.error hI hcall
  · exact hl

/-- **Run.**  The invariant holds in every state of every run. -/
theorem Sound.run (h : Handles rule F I E) {rules : List ι} (hnodup : rules.Nodup) {s : σ}
    (hs : I rules s) (polls : List PollOutcome) :
    Sound I E rules (Run.run (loopStep rule) { rules := rules, world := s } polls) := by
  refine run_invariant_of_step (fun l poll hl => hl.step h hnodup poll) ?_ polls
  exact ⟨List.Sublist.refl _, nofun, fun _ => hs⟩

/-- **Run.**  A loop that was not interrupted exits when none of its rules is interested. -/
theorem exited_idle {rules : List ι} {s : σ} {polls : List PollOutcome}
    (hpolls : ∀ poll ∈ polls, poll ≠ .failed EINTR)
    (hsub : ∀ es : List PollOutcome,
      (Run.run (loopStep rule) { rules := rules, world := s } es).rules.Sublist rules)
    (hframe : rules.Pairwise fun i j => Triple (fun s => (rule i).interest s = false)
      (rule j).cancel (fun _ s => (rule i).interest s = false) fun _ _ => True)
    (hexit : (Run.run (loopStep rule) { rules := rules, world := s } polls).status = .exited) :
    ∀ i ∈ (Run.run (loopStep rule) { rules := rules, world := s } polls).rules,
      (rule i).interest
        (Run.run (loopStep rule) { rules := rules, world := s } polls).world = false := by
  induction polls using List.reverseRecOn with
  | nil => cases hexit
  | append_singleton polls poll ih =>
    have hbefore := hsub polls
    have hlast := hpolls poll (List.mem_append_right _ List.mem_cons_self)
    have hthen := ih fun p hp => hpolls p (List.mem_append_left _ hp)
    rw [run_concat] at hexit ⊢
    generalize Run.run (loopStep rule) { rules := rules, world := s } polls = l at *
    rw [loopStep, turnWith] at hexit ⊢
    split at hexit
    · rename_i hrun
      rw [if_pos hrun]
      have hidle := wait_exit_idle poll hlast l.rules (hframe.sublist hbefore)
      rw [EStateM.run] at hexit ⊢
      cases hcall : waitNextEvent rule poll l.rules l.world with
      | ok r t =>
        rw [hcall] at hexit
        refine hidle.ok trivial hcall ?_
        by_contra hne
        simp only [if_neg hne] at hexit
        cases hexit
      | error e t =>
        rw [hcall] at hexit
        cases hexit
    · rename_i hrun
      rw [if_neg hrun]
      exact hthen hexit

/-! ### The life of a rule -/

/-- What the loop does with a rule. -/
inductive Action (ι : Type) where
  | served (i : ι)
  | cancelled (i : ι)
deriving DecidableEq, Repr

def Action.of : Action ι → ι
  | .served i => i
  | .cancelled i => i

/-- The rule on a state with a log of the actions. -/
def logged (rule : ι → Rule σ) (i : ι) : Rule (σ × List (Action ι)) where
  fd s := (rule i).fd s.1
  direction := (rule i).direction
  callback := do
    modify fun s => (s.1, s.2 ++ [.served i])
    zoom Prod.fst (fun s t => (t, s.2)) (rule i).callback
  interest s := (rule i).interest s.1
  cancel := do
    modify fun s => (s.1, s.2 ++ [.cancelled i])
    zoom Prod.fst (fun s t => (t, s.2)) (rule i).cancel

/-- No action on a rule comes after its cancellation. -/
def Once (log : List (Action ι)) : Prop :=
  log.Pairwise fun a b => ∀ i, a = .cancelled i → b.of ≠ i

/-- The log against the rules at the start and those that are left. -/
structure Orderly (start left : List ι) (log : List (Action ι)) : Prop where
  nodup : left.Nodup
  once : Once log
  alive : ∀ i ∈ left, .cancelled i ∉ log
  gone : ∀ i ∈ start, i ∉ left → .cancelled i ∈ log

variable {start left : List ι} {log : List (Action ι)}

/-- One more action on a rule that is left. -/
theorem Once.concat (h : Once log) {a : Action ι} (ha : .cancelled a.of ∉ log) :
    Once (log ++ [a]) := by
  refine List.pairwise_append.mpr ⟨h, List.pairwise_singleton _ _, ?_⟩
  intro b hb c hc i hi hci
  rw [List.mem_singleton] at hc
  subst hc
  rw [hi, ← hci] at hb
  exact ha hb

theorem Orderly.serve (h : Orderly start left log) {i : ι} (hi : i ∈ left) :
    Orderly start left (log ++ [.served i]) where
  nodup := h.nodup
  once := h.once.concat (h.alive i hi)
  alive j hj hmem := by
    rcases List.mem_append.mp hmem with hold | hnew
    · exact h.alive j hj hold
    · cases List.mem_singleton.mp hnew
  gone j hj hno := List.mem_append_left _ (h.gone j hj hno)

theorem Orderly.cancel {pre post : List ι} {i : ι} (h : Orderly start (pre ++ i :: post) log) :
    Orderly start (pre ++ post) (log ++ [.cancelled i]) where
  nodup := h.nodup.sublist ((List.Sublist.refl pre).append (List.sublist_cons_self i post))
  once := h.once.concat (h.alive i (List.mem_append_right _ List.mem_cons_self))
  alive j hj hmem := by
    have hne : i ∉ pre ++ post := (List.nodup_middle.mp h.nodup).notMem
    rcases List.mem_append.mp hmem with hold | hnew
    · refine h.alive j ?_ hold
      rw [List.mem_append, List.mem_cons]
      exact (List.mem_append.mp hj).imp_right Or.inr
    · cases List.mem_singleton.mp hnew
      exact hne hj
  gone j hj hno := by
    by_cases hji : j = i
    · rw [hji]
      exact List.mem_append_right _ (List.mem_singleton.mpr rfl)
    · refine List.mem_append_left _ (h.gone j hj ?_)
      rw [List.mem_append, List.mem_cons] at *
      tauto

/-- A call on the state leaves the log alone. -/
theorem triple_logged {P : List (Action ι) → Prop} {m : SysCall σ Unit} {a : Action ι}
    {Q : List (Action ι) → Prop} (h : ∀ log, P log → Q (log ++ [a])) :
    Triple (fun s : σ × List (Action ι) => P s.2)
      (do modify fun s => (s.1, s.2 ++ [a]); zoom Prod.fst (fun s t => (t, s.2)) m)
      (fun _ s => Q s.2) (fun _ s => Q s.2) := by
  refine Triple.bind (triple_modify (Q := fun _ s => Q s.2) _ fun s hs => h s.2 hs) fun _ => ?_
  refine Triple.zoom (P := fun _ => True) (Q := fun _ _ => True) (E := fun _ _ => True) ?_
    (fun _ _ => trivial) (fun s _ _ hs _ => hs) fun s _ _ hs _ => hs
  exact fun _ _ => ⟨fun _ _ _ => trivial, fun _ _ _ => trivial⟩

theorem handles_logged (rule : ι → Rule σ) (start : List ι) :
    Handles (logged rule) (fun _ _ => True) (fun left s => Orderly start left s.2)
      fun _ s => Once s.2 where
  known _ _ _ := trivial
  cancel pre _ post := (triple_logged (Q := Orderly start (pre ++ post))
    fun _ h => h.cancel).weaken (fun _ => id) (fun _ _ => id) fun _ _ h => h.once
  callback left _ hi _ := (triple_logged (Q := Orderly start left)
    fun _ h => h.serve hi).weaken (fun _ h => h.1) (fun _ _ h => ⟨h, fun _ _ => h.once⟩)
      fun _ _ h => h.once
  frameCancel _ _ _ _ _ := ⟨fun _ _ _ => trivial, fun _ _ _ => trivial⟩
  frameCallback _ _ _ _ _ := ⟨fun _ _ _ => trivial, fun _ _ _ => trivial⟩
  pollError _ _ h := h.once

/-- A run of the loop with the log of its actions. -/
def tracedRun (rule : ι → Rule σ) (rules : List ι) (s : σ) (polls : List PollOutcome) :
    Loop ι (σ × List (Action ι)) :=
  Run.run (loopStep (logged rule)) { rules := rules, world := (s, []) } polls

/-- **A rule is cancelled at most once, and not served any more after that**, whatever the callbacks
do and the kernel says; and the rules that have gone are those that were cancelled. -/
theorem cancelled_once (rule : ι → Rule σ) (rules : List ι) (s : σ) (polls : List PollOutcome)
    (hnodup : rules.Nodup) :
    Once (tracedRun rule rules s polls).world.2 ∧
      ((∀ e, (tracedRun rule rules s polls).status ≠ .threw e) → ∀ i ∈ rules,
        i ∉ (tracedRun rule rules s polls).rules ↔
          .cancelled i ∈ (tracedRun rule rules s polls).world.2) := by
  have hsound := Sound.run (handles_logged rule rules) hnodup (s := (s, []))
    ⟨hnodup, List.Pairwise.nil, fun _ _ => List.not_mem_nil, fun i hi hno => absurd hi hno⟩ polls
  constructor
  · by_cases hthrew : ∃ e, (tracedRun rule rules s polls).status = .threw e
    · obtain ⟨e, he⟩ := hthrew
      exact hsound.threw e he
    · exact (hsound.holds fun e he => hthrew ⟨e, he⟩).once
  · intro hok i hi
    have hlog := hsound.holds hok
    exact ⟨hlog.gone i hi, fun hmem hleft => hlog.alive i hleft hmem⟩

/-- A reader that gets a byte and then a hangup. -/
def readerRule (_ : Unit) : Rule FileDescriptor where
  fd := id
  direction := .In
  callback := do
    let _ ← FileDescriptor.read 4
    return ()

theorem cancelled_once_reader :
    Once (tracedRun readerRule [()] { reads := [.ok [97]] }
        [.ready [POLLIN], .ready [POLLHUP], .timeout]).world.2 ∧
      .cancelled () ∈ (tracedRun readerRule [()] { reads := [.ok [97]] }
        [.ready [POLLIN], .ready [POLLHUP], .timeout]).world.2 := by
  obtain ⟨honce, hgone⟩ := cancelled_once readerRule [()] { reads := [.ok [97]] }
    [.ready [POLLIN], .ready [POLLHUP], .timeout] (by decide)
  refine ⟨honce, (hgone ?_ () (by decide)).mp (by decide)⟩
  intro e he
  have hexit : (tracedRun readerRule [()] { reads := [.ok [97]] }
      [.ready [POLLIN], .ready [POLLHUP], .timeout]).status = .exited := by decide
  rw [hexit] at he
  cases he

end EventLoop

end Sponge
