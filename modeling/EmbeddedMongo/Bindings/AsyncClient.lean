import EmbeddedMongo.Conc.Guarded

/-!
# The client behind an async binding

`AsyncNativeClient` of `embedded-mongodb-python/src/nonblocking.rs` and `Engine` of
`embedded-mongodb-node/src/lib.rs` keep their client alike: in a `tokio::sync::RwLock<Option<Client>>`
that a command holds shared across its await, and that a close holds only to take the client out.
`close_blocking` and `close_sync` drive the same close to its end from one thread.

A call is its place in the order in which they asked for the lock, and what it was before, a message
that does not parse or a handshake, never asked. The future of a call may be dropped wherever it
waits: in the lock's queue, let in and not polled since, inside the engine, or in the client's own
close.

The lock is tokio's, so which of the calls in its queue it lets in is a parameter. What is relied on
of it is stated as `Exclusive`, `FirstCome` and `Lively`, each result naming those it needs; `fair`
is a lock with all three.
-/

namespace EmbeddedMongo.Bindings

open Conc

/-- Where a call is. -/
inductive Call where
  /-- `round_trip` in the lock's queue. -/
  | asking
  /-- It has been let in. -/
  | reading
  /-- `run_command_bytes` under the read guard. -/
  | running
  | answered (reply : Except String (List UInt8))
  /-- It was told that the client is closed. -/
  | refused
  /-- Its future was dropped, with its command begun or not. -/
  | cancelled (begun : Bool)
  /-- `shut_down` in the lock's queue. -/
  | closing
  | writing
  /-- It has taken the client and released the lock; `Client::close` is next. -/
  | shuttingDown
  | closed (answer : Except String Unit)
  /-- It found no client, and that is `Ok`. -/
  | closedBefore
  /-- Its future was dropped, and with it the client if it had taken that. -/
  | closeCancelled (took : Bool)
  deriving DecidableEq, Repr

namespace Call

/-- Where that is to the guard. -/
def phase : Call → Phase
  | .reading => .looking
  | .running => .inside
  | .writing => .writing
  | .shuttingDown | .closed _ | .closeCancelled true => .owner
  | _ => .outside

/-- It is in the lock's queue. -/
def isWaiting : Call → Bool
  | .asking | .closing => true
  | _ => false

/-- It has ended. -/
def isOver : Call → Bool
  | .asking | .reading | .running | .closing | .writing | .shuttingDown => false
  | _ => true

/-- Its command has begun. -/
def hasBegun : Call → Bool
  | .running | .answered _ | .cancelled true => true
  | _ => false

/-- What dropping the future of an unfinished call leaves. -/
def drop : Call → Call
  | .asking | .reading => .cancelled false
  | .running => .cancelled true
  | .closing | .writing => .closeCancelled false
  | .shuttingDown => .closeCancelled true
  | ended => ended

end Call

/-- The client behind its lock, and all who called. -/
structure Guard where
  lock : RwLock
  /-- The client is in it. -/
  inner : Bool
  calls : List Call

namespace Guard

def view (s : Guard) : Guarded := ⟨s.lock, s.inner, s.calls.map Call.phase⟩

/-- Everybody who asked before `i` has been let in or has gone. -/
def First (i : Nat) (s : Guard) : Prop := ∀ (j : Nat) (k : Call), j < i → s.calls[j]? = some k → k.isWaiting = false

/-- The lock can be had the way call `i` asks for it. -/
def Free (i : Nat) (s : Guard) : Prop :=
  (s.calls[i]? = some .asking → s.lock.admitsReader = true) ∧
    (s.calls[i]? = some .closing → s.lock.admitsWriter = true)

/-- The lock after a call has gone from where it was. -/
def unlock (lock : RwLock) : Call → RwLock
  | .reading | .running => lock.releaseRead
  | .writing => lock.releaseWrite
  | _ => lock

end Guard

/-! ## The lock -/

section

variable (lets : Guard → Nat → Prop)

/-- A command is let in while no close is inside, and a close while nobody is. -/
def Exclusive : Prop := ∀ (s : Guard) (i : Nat), lets s i → s.Free i

/-- Nobody is let in before one who asked earlier and still waits. -/
def FirstCome : Prop := ∀ (s : Guard) (i : Nat), lets s i → s.First i

/-- A lock that nobody holds lets in one of those who wait, if there are any. -/
def Lively : Prop := ∀ (s : Guard) (i : Nat) (k : Call), s.calls[i]? = some k → k.isWaiting = true →
  s.lock.admitsWriter = true → ∃ (j : Nat) (k' : Call), s.calls[j]? = some k' ∧ k'.isWaiting = true ∧ lets s j

end

/-- The lock that lets in whoever is first, as soon as it can. -/
def fair (s : Guard) (i : Nat) : Prop := s.First i ∧ s.Free i

theorem exclusive_fair : Exclusive fair := fun _ _ h => h.2

theorem firstCome_fair : FirstCome fair := fun _ _ h => h.1

/-- Among those who wait there is a first. -/
theorem Guard.exists_first {s : Guard} {i : Nat} {k : Call} (hi : s.calls[i]? = some k) (waiting : k.isWaiting = true) :
    ∃ (j : Nat) (k' : Call), s.calls[j]? = some k' ∧ k'.isWaiting = true ∧ s.First j := by
  induction i using Nat.strongRecOn generalizing k with
  | _ i ih =>
    by_cases hfirst : s.First i
    · exact ⟨i, k, hi, waiting, hfirst⟩
    · unfold Guard.First at hfirst
      push Not at hfirst
      obtain ⟨j, k', hji, hj, hwaiting⟩ := hfirst
      exact ih j hji hj (Bool.eq_true_of_not_eq_false hwaiting)

/-- Among those who wait there is a first, and a free lock is free for anyone. -/
theorem lively_fair : Lively fair := by
  intro s i k hi waiting free
  obtain ⟨j, k', hj, hwaiting, hfirst⟩ := Guard.exists_first hi waiting
  exact ⟨j, k', hj, hwaiting, hfirst, fun _ => RwLock.admitsReader_of_admitsWriter free, fun _ => free⟩

/-! ## The calls -/

/-- Who moves. -/
inductive Act where
  | ask (closing : Bool)
  | enter (call : Nat)
  | look (call : Nat)
  | answer (call : Nat)
  | take (call : Nat)
  | closed (call : Nat)
  | drop (call : Nat)
  deriving DecidableEq, Repr

/-- The step is the calls' own: it needs neither a new caller nor one that gives up. -/
def Act.own : Act → Prop
  | .ask _ | .drop _ => False
  | _ => True

/-- The steps of the calls. `lets` says whom the lock lets in. -/
inductive Step (lets : Guard → Nat → Prop) : Guard → Act → Guard → Prop where
  | ask {s : Guard} (closing : Bool) :
      Step lets s (.ask closing) { s with calls := s.calls ++ [if closing = true then .closing else .asking] }
  | read {s : Guard} {i : Nat} (hi : s.calls[i]? = some .asking) (admitted : lets s i) :
      Step lets s (.enter i) { s with lock := s.lock.read, calls := s.calls.set i .reading }
  | write {s : Guard} {i : Nat} (hi : s.calls[i]? = some .closing) (admitted : lets s i) :
      Step lets s (.enter i) { s with lock := s.lock.write, calls := s.calls.set i .writing }
  | look {s : Guard} {i : Nat} (hi : s.calls[i]? = some .reading) (inner : s.inner = true) :
      Step lets s (.look i) { s with calls := s.calls.set i .running }
  | refuse {s : Guard} {i : Nat} (hi : s.calls[i]? = some .reading) (inner : s.inner = false) :
      Step lets s (.look i) { s with lock := s.lock.releaseRead, calls := s.calls.set i .refused }
  | answer {s : Guard} {i : Nat} (reply : Except String (List UInt8)) (hi : s.calls[i]? = some .running) :
      Step lets s (.answer i) { s with lock := s.lock.releaseRead, calls := s.calls.set i (.answered reply) }
  | take {s : Guard} {i : Nat} (hi : s.calls[i]? = some .writing) (inner : s.inner = true) :
      Step lets s (.take i) { lock := s.lock.releaseWrite, inner := false, calls := s.calls.set i .shuttingDown }
  | nothing {s : Guard} {i : Nat} (hi : s.calls[i]? = some .writing) (inner : s.inner = false) :
      Step lets s (.take i) { s with lock := s.lock.releaseWrite, calls := s.calls.set i .closedBefore }
  | closed {s : Guard} {i : Nat} (answer : Except String Unit) (hi : s.calls[i]? = some .shuttingDown) :
      Step lets s (.closed i) { s with calls := s.calls.set i (.closed answer) }
  | drop {s : Guard} {i : Nat} {k : Call} (hi : s.calls[i]? = some k) (unfinished : k.isOver = false) :
      Step lets s (.drop i) { s with lock := Guard.unlock s.lock k, calls := s.calls.set i k.drop }

/-- A binding from its open on, over a lock that lets calls in as `lets` says. -/
def guard (lets : Guard → Nat → Prop) : System Guard Act where
  init s := s = ⟨.new, true, []⟩
  step := Step lets

/-! ## One owner, and nobody inside -/

variable {lets : Guard → Nat → Prop} {s s' : Guard} {a : Act} {i : Nat} {k : Call}

theorem Guard.view_set (lock : RwLock) (inner : Bool) (calls : List Call) (i : Nat) (k : Call) :
    Guard.view ⟨lock, inner, calls.set i k⟩ = ⟨lock, inner, (calls.map Call.phase).set i k.phase⟩ := by
  simp [Guard.view]

theorem Guard.phase_of (hi : s.calls[i]? = some k) : s.view.parties[i]? = some k.phase := by
  simp [Guard.view, hi]

/-- A call that moves within its phase. -/
theorem Guard.view_same (hi : s.calls[i]? = some k) (k' : Call) (same : k'.phase = k.phase) :
    Guard.view { s with calls := s.calls.set i k' } = s.view := by
  rw [Guard.view_set, same, ← List.map_set]
  obtain ⟨hlt, rfl⟩ := List.getElem?_eq_some_iff.1 hi
  rw [List.set_getElem_self hlt]
  rfl

/-- Each is a move of a guard, as long as the lock is exclusive. -/
theorem Step.move (exclusive : Exclusive lets) (hs : Step lets s a s') : Guarded.Move s.view s'.view := by
  cases hs with
  | ask closing =>
    convert Guarded.Move.join s.view using 1
    cases closing <;> simp [Guard.view, Call.phase]
  | read hi admitted =>
    rw [Guard.view_set]
    exact .read (Guard.phase_of hi) ((exclusive _ _ admitted).1 hi)
  | write hi admitted =>
    rw [Guard.view_set]
    exact .write (Guard.phase_of hi) ((exclusive _ _ admitted).2 hi)
  | look hi inner =>
    rw [Guard.view_set]
    exact .find (Guard.phase_of hi) inner
  | refuse hi inner =>
    rw [Guard.view_set]
    exact .leave (.inl (Guard.phase_of hi))
  | answer reply hi =>
    rw [Guard.view_set]
    exact .leave (.inr (Guard.phase_of hi))
  | take hi inner =>
    rw [Guard.view_set]
    exact .take (Guard.phase_of hi) inner
  | nothing hi inner =>
    rw [Guard.view_set]
    exact .giveUp (Guard.phase_of hi)
  | closed answer hi =>
    rw [Guard.view_same hi (.closed answer) rfl]
    exact .stay _
  | @drop i k hi unfinished =>
    cases k with
    | asking =>
      show Guarded.Move s.view (Guard.view { s with calls := s.calls.set i (.cancelled false) })
      rw [Guard.view_same hi (.cancelled false) rfl]
      exact .stay _
    | closing =>
      show Guarded.Move s.view (Guard.view { s with calls := s.calls.set i (.closeCancelled false) })
      rw [Guard.view_same hi (.closeCancelled false) rfl]
      exact .stay _
    | shuttingDown =>
      show Guarded.Move s.view (Guard.view { s with calls := s.calls.set i (.closeCancelled true) })
      rw [Guard.view_same hi (.closeCancelled true) rfl]
      exact .stay _
    | reading =>
      rw [Guard.view_set]
      exact .leave (.inl (Guard.phase_of hi))
    | running =>
      rw [Guard.view_set]
      exact .leave (.inr (Guard.phase_of hi))
    | writing =>
      rw [Guard.view_set]
      exact .giveUp (Guard.phase_of hi)
    | _ => cases unfinished

/-- So the rules of the guard hold in every run. -/
theorem Guard.sound_of_reach (exclusive : Exclusive lets) (h : (guard lets).Reach s) : s.view.Sound := by
  refine Guarded.sound_of_reach Guard.view ?_ (fun _ _ _ hs => Step.move exclusive hs) h
  rintro s rfl
  exact Guarded.Sound.start true rfl

/-! ## The order of the asking -/

namespace Call

/-- It has been let in. -/
def isServed : Call → Bool
  | .asking | .closing | .cancelled false | .closeCancelled false => false
  | _ => true

/-- It has taken the client. -/
def hasTaken (k : Call) : Bool := k.phase = .owner

/-- It came too late for the client. -/
def isTurnedAway : Call → Bool
  | .refused | .closedBefore => true
  | _ => false

/-- How two calls stand to each other, of which the first asked before the second. -/
structure Before (earlier later : Call) : Prop where
  served : later.isServed = true → earlier.isWaiting = false
  writing : earlier = .writing → later.isServed = false
  taken : later.hasTaken = true → earlier.isOver = true ∧ earlier.isTurnedAway = false
  late : earlier.hasTaken = true → later.hasBegun = false

variable {e k : Call}

theorem isServed_of_hasTaken (h : k.hasTaken = true) : k.isServed = true := by
  cases k with
  | closeCancelled took => cases took <;> first | rfl | cases h
  | cancelled begun => cases begun <;> cases h
  | _ => first | rfl | cases h

theorem isServed_of_hasBegun (h : k.hasBegun = true) : k.isServed = true := by
  cases k with
  | cancelled begun => cases begun <;> first | rfl | cases h
  | _ => first | rfl | cases h

/-- A call that is not over has nobody behind it who has taken the client. -/
theorem Before.not_taken (h : Before e k) (unfinished : e.isOver = false) : k.hasTaken = false := by
  cases hk : k.hasTaken with
  | false => rfl
  | true =>
    have := (h.taken hk).1
    rw [unfinished] at this
    cases this

/-- A later call is let in: nobody before it waits any more, or writes. -/
theorem Before.admitted (served : e.isWaiting = false) (writing : e ≠ .writing) (taken : k.hasTaken = false)
    (begun : k.hasBegun = false) : Before e k := by
  refine ⟨fun _ => served, fun hw => absurd hw writing, fun htaken => ?_, fun _ => begun⟩
  rw [taken] at htaken
  cases htaken

/-- An earlier call goes on: out of the queue, and not to where those behind it would have to wait. -/
theorem Before.ahead {e' : Call} (h : Before e k) (unfinished : e.isOver = false) (served : e'.isWaiting = false)
    (writing : e' ≠ .writing) (taken : e'.hasTaken = false) : Before e' k := by
  refine ⟨fun _ => served, fun hw => absurd hw writing, fun htaken => ?_, fun htaken => ?_⟩
  · rw [h.not_taken unfinished] at htaken
    cases htaken
  · rw [taken] at htaken
    cases htaken

/-- A later call that was let in goes on without taking the client. -/
theorem Before.behind {k' : Call} (h : Before e k) (served : k.isServed = true) (taken : k'.hasTaken = false)
    (late : e.hasTaken = true → k'.hasBegun = false) : Before e k' := by
  refine ⟨fun _ => h.served served, fun hw => ?_, fun htaken => ?_, late⟩
  · have := h.writing hw
    rw [served] at this
    cases this
  · rw [taken] at htaken
    cases htaken

end Call

open Call

/-- The calls stand to each other as they asked, and nobody is turned away from a client that is there. -/
structure Guard.Ordered (s : Guard) : Prop where
  before : s.calls.Pairwise Before
  turnedAway : ∀ k ∈ s.calls, k.isTurnedAway = true → s.inner = false

namespace Guard.Ordered

/-- A client that is there was taken by nobody. -/
theorem not_taken_of_inner (h : s.view.Sound) (inner : s.inner = true) (hi : s.calls[i]? = some k) : k.hasTaken = false := by
  cases hk : k.hasTaken with
  | false => rfl
  | true =>
    have hphase : k.phase = .owner := of_decide_eq_true hk
    have htaken : s.inner = false := h.taken (hphase ▸ phase_of hi)
    rw [inner] at htaken
    cases htaken

/-- Nobody writes as long as a reader may be let in. -/
theorem not_writing (h : s.view.Sound) (free : s.lock.admitsReader = true) (hi : s.calls[i]? = some k) : k ≠ .writing := by
  rintro rfl
  cases free.symm.trans (h.admits_nobody (phase_of hi))

/-- Who asked before a call that is about to take the client has ended. -/
theorem over_of_writing (hsound : s.view.Sound) (inner : s.inner = true) (hi : s.calls[i]? = some .writing) {j : Nat}
    (hne : i ≠ j) (hj : s.calls[j]? = some k) (hb : Before k .writing) : k.isOver = true := by
  have hwaiting := hb.served rfl
  have htaken := not_taken_of_inner hsound inner hj
  obtain ⟨hlooking, hinside, hwriting⟩ := hsound.exclusive (phase_of hi) hne
  rw [phase_of hj] at hlooking hinside hwriting
  cases k with
  | asking | closing => cases hwaiting
  | reading => exact absurd rfl hlooking
  | running => exact absurd rfl hinside
  | writing => exact absurd rfl hwriting
  | shuttingDown => cases htaken
  | _ => rfl

theorem turnedAway_set {k' : Call} {lock : RwLock} (h : s.Ordered)
    (hk : k'.isTurnedAway = true → s.inner = false) :
    ∀ k ∈ (Guard.mk lock s.inner (s.calls.set i k')).calls, k.isTurnedAway = true → s.inner = false :=
  forall_mem_set h.turnedAway hk

/-- Every step keeps the order. -/
theorem step (exclusive : Exclusive lets) (firstCome : FirstCome lets) (hsound : s.view.Sound) (h : s.Ordered)
    (hs : Step lets s a s') : s'.Ordered := by
  cases hs with
  | ask closing =>
    refine ⟨List.pairwise_append.2 ⟨h.before, List.pairwise_singleton _ _, ?_⟩, ?_⟩
    · intro e _ k hk
      obtain rfl := List.mem_singleton.1 hk
      cases closing <;> exact ⟨(fun h => by cases h), fun _ => rfl, (fun h => by cases h), fun _ => rfl⟩
    · intro k hk
      rcases List.mem_append.1 hk with hk | hk
      · exact h.turnedAway k hk
      · obtain rfl := List.mem_singleton.1 hk
        cases closing <;> exact fun h => by cases h
  | read hi admitted =>
    have free := (exclusive _ _ admitted).1 hi
    refine ⟨pairwise_set h.before hi ?_ ?_, h.turnedAway_set (fun h => by cases h)⟩
    · intro j e hj he hb
      exact .admitted (firstCome _ _ admitted j e hj he) (not_writing hsound free he) rfl rfl
    · intro j e hj he hb
      exact hb.ahead rfl rfl (by simp) rfl
  | write hi admitted =>
    have free := RwLock.admitsReader_of_admitsWriter ((exclusive _ _ admitted).2 hi)
    refine ⟨pairwise_set h.before hi ?_ ?_, h.turnedAway_set (fun h => by cases h)⟩
    · intro j e hj he hb
      exact .admitted (firstCome _ _ admitted j e hj he) (not_writing hsound free he) rfl rfl
    · intro j e hj he hb
      have hserved : e.isServed = false := by
        cases hse : e.isServed with
        | false => rfl
        | true => cases hb.served hse
      refine ⟨fun _ => rfl, fun _ => hserved, fun htaken => ?_, (fun h => by cases h)⟩
      rw [isServed_of_hasTaken htaken] at hserved
      cases hserved
  | look hi inner =>
    refine ⟨pairwise_set h.before hi ?_ ?_, h.turnedAway_set (fun h => by cases h)⟩
    · intro j e hj he hb
      refine hb.behind rfl rfl fun htaken => ?_
      rw [not_taken_of_inner hsound inner he] at htaken
      cases htaken
    · intro j e hj he hb
      exact hb.ahead rfl rfl (by simp) rfl
  | refuse hi inner =>
    refine ⟨pairwise_set h.before hi ?_ ?_, h.turnedAway_set fun _ => inner⟩
    · intro j e hj he hb
      exact hb.behind rfl rfl fun _ => rfl
    · intro j e hj he hb
      exact hb.ahead rfl rfl (by simp) rfl
  | answer reply hi =>
    refine ⟨pairwise_set h.before hi ?_ ?_, h.turnedAway_set (fun h => by cases h)⟩
    · intro j e hj he hb
      exact hb.behind rfl rfl hb.late
    · intro j e hj he hb
      exact hb.ahead rfl rfl (by simp) rfl
  | @take i hi inner =>
    refine ⟨pairwise_set h.before hi ?_ ?_, fun _ _ _ => rfl⟩
    · intro j e hj he hb
      refine ⟨fun _ => hb.served rfl, fun hw => ?_, fun _ => ⟨?_, ?_⟩, fun _ => rfl⟩
      · cases hb.writing hw
      · exact over_of_writing hsound inner hi (Nat.ne_of_gt hj) he hb
      · cases haway : e.isTurnedAway with
        | false => rfl
        | true =>
          have := h.turnedAway e (List.mem_of_getElem? he) haway
          rw [inner] at this
          cases this
    · intro j e hj he hb
      have hserved := hb.writing rfl
      refine ⟨fun _ => rfl, (fun h => by cases h), fun htaken => ?_, fun _ => ?_⟩
      · rw [isServed_of_hasTaken htaken] at hserved
        cases hserved
      · cases hbegun : e.hasBegun with
        | false => rfl
        | true =>
          rw [isServed_of_hasBegun hbegun] at hserved
          cases hserved
  | nothing hi inner =>
    refine ⟨pairwise_set h.before hi ?_ ?_, h.turnedAway_set fun _ => inner⟩
    · intro j e hj he hb
      exact hb.behind rfl rfl fun _ => rfl
    · intro j e hj he hb
      exact hb.ahead rfl rfl (by simp) rfl
  | closed answer hi =>
    refine ⟨pairwise_set h.before hi ?_ ?_, h.turnedAway_set (fun h => by cases h)⟩
    · intro j e hj he hb
      exact ⟨fun _ => hb.served rfl, fun hw => hb.writing hw, fun _ => hb.taken rfl, fun _ => rfl⟩
    · intro j e hj he hb
      exact ⟨fun _ => rfl, (fun h => by cases h), fun _ => ⟨rfl, rfl⟩, fun _ => hb.late rfl⟩
  | @drop i k hi unfinished =>
    refine ⟨pairwise_set h.before hi ?_ ?_, h.turnedAway_set ?_⟩
    · intro j e hj he hb
      cases k with
      | asking | reading | closing | writing => exact ⟨(fun h => by cases h), fun _ => rfl, (fun h => by cases h), fun _ => rfl⟩
      | running => exact hb.behind rfl rfl hb.late
      | shuttingDown => exact ⟨fun _ => hb.served rfl, fun hw => hb.writing hw, fun _ => hb.taken rfl, fun _ => rfl⟩
      | _ => cases unfinished
    · intro j e hj he hb
      cases k with
      | asking | reading | closing | writing | running => exact hb.ahead rfl rfl (by simp [Call.drop]) rfl
      | shuttingDown => exact ⟨fun _ => rfl, (fun h => by cases h), fun _ => ⟨rfl, rfl⟩, fun _ => hb.late rfl⟩
      | _ => cases unfinished
    · cases k with
      | asking | reading | closing | writing | running | shuttingDown => exact fun h => by cases h
      | _ => cases unfinished

end Guard.Ordered

/-- So every run has it. -/
theorem Guard.ordered_of_reach (exclusive : Exclusive lets) (firstCome : FirstCome lets) (h : (guard lets).Reach s) :
    s.Ordered := by
  refine h.induct ?_ ?_
  · rintro s rfl
    exact ⟨List.Pairwise.nil, by simp⟩
  · intro s a s' hr ih hs
    exact ih.step exclusive firstCome (sound_of_reach exclusive hr) hs

/-- **Closing has its place among the commands.** Over a lock that is exclusive and lets in whoever
came first, however any number of commands and closes interleave, and wherever their futures are
dropped: at most one close gets the client, and nobody is inside it then or later; whoever asked
before that close had ended by then and was not turned away; no command that asked after it ever
begins; and a call is turned away only if it asked after the close that has the client. -/
theorem close_has_its_place_among_the_commands (exclusive : Exclusive lets) (firstCome : FirstCome lets)
    (h : (guard lets).Reach s) :
    (∀ (d : Nat) (k : Call), s.calls[d]? = some k → k.hasTaken = true →
      (∀ (c : Nat) (k' : Call), s.calls[c]? = some k' → k'.hasTaken = true → c = d) ∧
      (∀ c : Nat, s.calls[c]? ≠ some .running) ∧
      (∀ (c : Nat) (k' : Call), c < d → s.calls[c]? = some k' → k'.isOver = true ∧ k'.isTurnedAway = false) ∧
      ∀ (c : Nat) (k' : Call), d < c → s.calls[c]? = some k' → k'.hasBegun = false) ∧
    ∀ (c : Nat) (k : Call), s.calls[c]? = some k → k.isTurnedAway = true →
      ∃ (d : Nat) (k' : Call), d < c ∧ s.calls[d]? = some k' ∧ k'.hasTaken = true := by
  have hsound := Guard.sound_of_reach exclusive h
  have hordered := Guard.ordered_of_reach exclusive firstCome h
  have phase : ∀ {c : Nat} {k : Call}, s.calls[c]? = some k → k.hasTaken = true → s.view.parties[c]? = some .owner := by
    intro c k hc hk
    rw [Guard.phase_of hc, of_decide_eq_true hk]
  constructor
  · intro d k hd hk
    refine ⟨?_, ?_, ?_, ?_⟩
    · intro c k' hc hk'
      exact hsound.owner_unique (phase hc hk') (phase hd hk)
    · intro c hc
      exact hsound.nobody_inside (hsound.taken (phase hd hk)) (Guard.phase_of hc)
    · intro c k' hcd hc
      exact (pairwise_getElem? hordered.before hc hd hcd).taken hk
    · intro c k' hdc hc
      exact (pairwise_getElem? hordered.before hd hc hdc).late hk
  · intro c k hc hk
    have hempty := hordered.turnedAway k (List.mem_of_getElem? hc) hk
    have howner : 0 < tally Phase.owns s.view.parties := by
      rw [hsound.owner]
      simp [Guard.view, hempty]
    obtain ⟨d, p, hd, hp⟩ := exists_of_tally_pos howner
    obtain ⟨k', hk', rfl⟩ : ∃ k', s.calls[d]? = some k' ∧ k'.phase = p := by
      simpa [Guard.view] using hd
    have htaken : k'.hasTaken = true := by
      unfold Call.hasTaken
      cases hphase : k'.phase with
      | owner => rfl
      | _ =>
        rw [hphase] at hp
        cases hp
    refine ⟨d, k', ?_, hk', htaken⟩
    rcases Nat.lt_trichotomy d c with hlt | rfl | hgt
    · exact hlt
    · rw [hk'] at hc
      cases hc
      cases k with
      | refused | closedBefore => cases htaken
      | _ => cases hk
    · have := ((pairwise_getElem? hordered.before hc hk' hgt).taken htaken).2
      rw [hk] at this
      cases this

/-- The fair lock lets a command in when it is first and nobody writes. -/
theorem fair_command (hi : s.calls[i]? = some .asking) (free : s.lock.admitsReader = true) (first : s.First i) :
    fair s i :=
  ⟨first, fun _ => free, fun hclosing => absurd (hi.symm.trans hclosing) (by simp)⟩

/-- It lets a close in when it is first and nobody is inside. -/
theorem fair_close (hi : s.calls[i]? = some .closing) (free : s.lock.admitsWriter = true) (first : s.First i) :
    fair s i :=
  ⟨first, fun hasking => absurd (hi.symm.trans hasking) (by simp), fun _ => free⟩

/-- A command is inside the engine, a close and another command wait for it. -/
def closingBehind : Guard := ⟨⟨1, false⟩, true, [.running, .closing, .asking]⟩

theorem reach_closingBehind : (guard fair).Reach closingBehind := by
  have hasked := System.Reach.next (S := guard fair) (.init rfl) (Step.ask false)
  have hread := hasked.next (Step.read (i := 0) rfl (fair_command rfl rfl (fun j k hj => absurd hj (Nat.not_lt_zero j))))
  have hrunning := hread.next (Step.look (i := 0) rfl rfl)
  exact (hrunning.next (Step.ask true)).next (Step.ask false)

/-- A command begun before the close asked, and one that asked after it. -/
def closedBetween : Guard := ⟨.new, false, [.answered (.ok []), .closed (.ok ()), .refused]⟩

theorem reach_closedBetween : (guard fair).Reach closedBetween := by
  have hanswered := reach_closingBehind.next (Step.answer (i := 0) (.ok []) rfl)
  have hwriting := hanswered.next (Step.write (i := 1) rfl
    (fair_close rfl rfl fun j k hj hk => by
      obtain rfl : j = 0 := by omega
      cases hk
      rfl))
  have htaken := hwriting.next (Step.take (i := 1) rfl rfl)
  have hlet := htaken.next (Step.read (i := 2) rfl
    (fair_command rfl rfl fun j k hj hk => by
      obtain rfl | rfl : j = 0 ∨ j = 1 := by omega
      · cases hk
        rfl
      · cases hk
        rfl))
  have hrefused := hlet.next (Step.refuse (i := 2) rfl rfl)
  exact hrefused.next (Step.closed (i := 1) (.ok ()) rfl)

/-- The command that asked after the close was turned away because of it. -/
theorem late_command_finds_the_close_before_it :
    (guard fair).Reach closedBetween ∧
      ∃ (d : Nat) (k : Call), d < 2 ∧ closedBetween.calls[d]? = some k ∧ k.hasTaken = true :=
  ⟨reach_closedBetween,
    (close_has_its_place_among_the_commands exclusive_fair firstCome_fair reach_closedBetween).2 2 .refused rfl rfl⟩

/-! ## Every call ends -/

/-- The steps a call has left. -/
def Call.left : Call → Nat
  | .asking | .closing => 3
  | .reading | .writing => 2
  | .running | .shuttingDown => 1
  | _ => 0

/-- Every step of their own leaves the calls less to do. -/
theorem Step.left_lt (hs : Step lets s a s') (own : a.own) : tally Call.left s'.calls < tally Call.left s.calls := by
  cases hs with
  | ask | drop => exact own.elim
  | read hi | write hi | look hi | refuse hi | answer _ hi | take hi | nothing hi | closed _ hi =>
    have hle := le_tally Call.left hi
    simp only [tally_set_eq hi, Call.left] at hle ⊢
    omega

/-- Where nobody can move any more, every call has ended. -/
theorem Guard.over_of_atRest (exclusive : Exclusive lets) (lively : Lively lets) (h : (guard lets).Reach s)
    (rest : (guard lets).AtRest Act.own s) : ∀ k ∈ s.calls, k.isOver = true := by
  have hsound := Guard.sound_of_reach exclusive h
  -- whoever is past the lock's queue and not over can go on
  have settled : ∀ (i : Nat) (k : Call), s.calls[i]? = some k → k.isWaiting = true ∨ k.isOver = true := by
    intro i k hi
    cases k with
    | asking | closing => exact .inl rfl
    | reading =>
      cases hinner : s.inner with
      | true => exact (rest (.look i) _ trivial (.look hi hinner)).elim
      | false => exact (rest (.look i) _ trivial (.refuse hi hinner)).elim
    | writing =>
      cases hinner : s.inner with
      | true => exact (rest (.take i) _ trivial (.take hi hinner)).elim
      | false => exact (rest (.take i) _ trivial (.nothing hi hinner)).elim
    | running => exact (rest (.answer i) _ trivial (.answer (.ok []) hi)).elim
    | shuttingDown => exact (rest (.closed i) _ trivial (.closed (.ok ()) hi)).elim
    | _ => exact .inr rfl
  have outside : ∀ p ∈ s.view.parties, p.reads = 0 ∧ p.writes = 0 := by
    intro p hp
    obtain ⟨k, hk, rfl⟩ := List.mem_map.1 hp
    obtain ⟨i, hi⟩ := List.getElem?_of_mem hk
    have hk := settled i k hi
    cases k with
    | reading | running | writing => rcases hk with hk | hk <;> cases hk
    | closeCancelled took => cases took <;> exact ⟨rfl, rfl⟩
    | _ => exact ⟨rfl, rfl⟩
  have hwriter : s.lock.admitsWriter = true := (hsound.free outside).2
  intro k hk
  obtain ⟨i, hi⟩ := List.getElem?_of_mem hk
  rcases settled i k hi with hwaiting | hover
  · -- the lock is free, so one of those who wait is let in
    obtain ⟨j, next, hj, hnext, admitted⟩ := lively s i k hi hwaiting hwriter
    cases next with
    | asking => exact (rest (.enter j) _ trivial (.read hj admitted)).elim
    | closing => exact (rest (.enter j) _ trivial (.write hj admitted)).elim
    | _ => cases hnext
  · exact hover

/-- **No call waits for ever.** Over a lock that is exclusive and, once free, lets somebody in: from
every reachable state the calls come to rest by themselves, however their steps are ordered, if the
engine answers what it is asked; and then each of them has ended, the closes among them. -/
theorem every_call_on_the_client_ends (exclusive : Exclusive lets) (lively : Lively lets) (h : (guard lets).Reach s) :
    (guard lets).Settles Act.own (fun s => ∀ k ∈ s.calls, k.isOver = true) s := by
  refine System.Reach.settles (I := fun _ => True) wellFounded_lt (fun s => tally Call.left s.calls) ?_ ?_ ?_ h trivial
  · intro s a s' _ _ own hs
    exact Step.left_lt hs own
  · intro s a s' _ _ _
    trivial
  · intro s hr _ rest
    exact Guard.over_of_atRest exclusive lively hr rest

theorem close_behind_a_command_ends :
    (guard fair).Reach closingBehind ∧ (guard fair).Settles Act.own (fun s => ∀ k ∈ s.calls, k.isOver = true) closingBehind :=
  ⟨reach_closingBehind, every_call_on_the_client_ends exclusive_fair lively_fair reach_closingBehind⟩

end EmbeddedMongo.Bindings
