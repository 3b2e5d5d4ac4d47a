import EmbeddedMongo.Conc.Guarded
import EmbeddedMongo.Wire.Parser

/-!
# The client behind the synchronous Python binding

`NativeClient` of `embedded-mongodb-python/src/lib.rs`: a client in a `std::sync::RwLock`, and the
interpreter's own lock around every call. A call comes in with the interpreter attached, detaches
before it waits for anything, and attaches again only once it holds no guard.

The lock says nothing about who is let in first: `prefer` is whether a close that waits holds
newcomers back, and everything below holds either way. Poison is recovered from and changes
nothing, so a command that panics is one that ends.
-/

namespace EmbeddedMongo.Bindings.Native

open Conc

/-- What Python calls. -/
inductive Op where
  /-- With what `wire::parse` makes of the message. -/
  | roundTrip (request : Except String Wire.Request)
  | close

/-- How a call ends. -/
inductive Outcome where
  /-- `PyValueError`, before the client was looked at. -/
  | invalid (error : String)
  | answered (reply : Except String (List UInt8))
  | panicked
  /-- "embedded MongoDB client is closed" -/
  | refused
  | closed (answer : Except String Unit)
  /-- There was no client left to close, and that is `Ok`. -/
  | closedBefore

/-- Where a call is. -/
inductive Call where
  /-- Its thread waits for the interpreter. -/
  | entering (op : Op)
  | attached (op : Op)
  /-- Detached, and waiting for its guard. -/
  | detached (op : Op)
  | reading
  /-- `run_command_bytes` under the read guard. -/
  | running
  | writing
  /-- It has taken the client and released the guard; `Client::close` is next. -/
  | closing
  /-- Done, and waiting for the interpreter again. -/
  | reattaching (outcome : Outcome)
  | returning (outcome : Outcome)
  | returned (outcome : Outcome)

namespace Call

def phaseOf : Outcome → Phase
  | .closed _ => .owner
  | _ => .outside

/-- Where a call is to the guard. -/
def phase : Call → Phase
  | .entering _ | .attached _ | .detached _ => .outside
  | .reading => .looking
  | .running => .inside
  | .writing => .writing
  | .closing => .owner
  | .reattaching outcome | .returning outcome | .returned outcome => phaseOf outcome

/-- It has the interpreter. -/
def isAttached : Call → Nat
  | .attached _ | .returning _ => 1
  | _ => 0

def isReturned : Call → Bool
  | .returned _ => true
  | _ => false

def wantsWriting : Call → Bool
  | .detached .close => true
  | _ => false

end Call

/-- The interpreter, the client behind its lock, and all who called. -/
structure State where
  /-- The interpreter is some thread's. -/
  gil : Bool
  lock : RwLock
  /-- The client is there. -/
  inner : Bool
  calls : List Call

namespace State

def view (s : State) : Guarded := ⟨s.lock, s.inner, s.calls.map Call.phase⟩

/-- Whether a command is let in. -/
def admitsReader (prefer : Bool) (s : State) : Prop :=
  s.lock.admitsReader = true ∧ (prefer = true → ∀ k ∈ s.calls, k.wantsWriting = false)

def set (i : Nat) (k : Call) (s : State) : State := { s with calls := s.calls.set i k }

end State

inductive Act where
  | call (op : Op)
  | step (call : Nat)

/-- The step needs no new caller. -/
def Act.own : Act → Prop
  | .call _ => False
  | .step _ => True

/-- The steps of the calls. The lock may prefer those who write. -/
inductive Step (prefer : Bool) : State → Act → State → Prop where
  | call {s : State} (op : Op) : Step prefer s (.call op) { s with calls := s.calls ++ [.entering op] }
  | attach {s : State} {i : Nat} {op : Op} (hi : s.calls[i]? = some (.entering op)) (free : s.gil = false) :
      Step prefer s (.step i) { s with gil := true, calls := s.calls.set i (.attached op) }
  | invalid {s : State} {i : Nat} {error : String} (hi : s.calls[i]? = some (.attached (.roundTrip (.error error)))) :
      Step prefer s (.step i) (s.set i (.returning (.invalid error)))
  | detach {s : State} {i : Nat} {op : Op} (hi : s.calls[i]? = some (.attached op))
      (valid : ∀ error, op ≠ .roundTrip (.error error)) :
      Step prefer s (.step i) { s with gil := false, calls := s.calls.set i (.detached op) }
  | read {s : State} {i : Nat} {request : Except String Wire.Request}
      (hi : s.calls[i]? = some (.detached (.roundTrip request))) (free : s.admitsReader prefer) :
      Step prefer s (.step i) { s with lock := s.lock.read, calls := s.calls.set i .reading }
  | look {s : State} {i : Nat} (hi : s.calls[i]? = some .reading) (inner : s.inner = true) :
      Step prefer s (.step i) (s.set i .running)
  | refuse {s : State} {i : Nat} (hi : s.calls[i]? = some .reading) (inner : s.inner = false) :
      Step prefer s (.step i) { s with lock := s.lock.releaseRead, calls := s.calls.set i (.reattaching .refused) }
  | answer {s : State} {i : Nat} (reply : Except String (List UInt8)) (hi : s.calls[i]? = some .running) :
      Step prefer s (.step i) { s with lock := s.lock.releaseRead, calls := s.calls.set i (.reattaching (.answered reply)) }
  | panic {s : State} {i : Nat} (hi : s.calls[i]? = some .running) :
      Step prefer s (.step i) { s with lock := s.lock.releaseRead, calls := s.calls.set i (.reattaching .panicked) }
  | write {s : State} {i : Nat} (hi : s.calls[i]? = some (.detached .close)) (free : s.lock.admitsWriter = true) :
      Step prefer s (.step i) { s with lock := s.lock.write, calls := s.calls.set i .writing }
  | take {s : State} {i : Nat} (hi : s.calls[i]? = some .writing) (inner : s.inner = true) :
      Step prefer s (.step i)
        { s with lock := s.lock.releaseWrite, inner := false, calls := s.calls.set i .closing }
  | nothing {s : State} {i : Nat} (hi : s.calls[i]? = some .writing) (inner : s.inner = false) :
      Step prefer s (.step i) { s with lock := s.lock.releaseWrite, calls := s.calls.set i (.reattaching .closedBefore) }
  | closed {s : State} {i : Nat} (answer : Except String Unit) (hi : s.calls[i]? = some .closing) :
      Step prefer s (.step i) (s.set i (.reattaching (.closed answer)))
  | reattach {s : State} {i : Nat} {outcome : Outcome} (hi : s.calls[i]? = some (.reattaching outcome))
      (free : s.gil = false) : Step prefer s (.step i) { s with gil := true, calls := s.calls.set i (.returning outcome) }
  | return_ {s : State} {i : Nat} {outcome : Outcome} (hi : s.calls[i]? = some (.returning outcome)) :
      Step prefer s (.step i) { s with gil := false, calls := s.calls.set i (.returned outcome) }

/-- A `NativeClient` from its open on. -/
def client (prefer : Bool) : System State Act where
  init s := s = ⟨false, .new, true, []⟩
  step := Step prefer

variable {prefer : Bool} {s s' : State} {a : Act} {i : Nat} {k : Call}

/-! ## The guard -/

theorem State.view_set (gil : Bool) (lock : RwLock) (inner : Bool) (calls : List Call) (i : Nat) (k : Call) :
    State.view ⟨gil, lock, inner, calls.set i k⟩ = ⟨lock, inner, (calls.map Call.phase).set i k.phase⟩ := by
  simp [State.view]

theorem State.phase_of (hi : s.calls[i]? = some k) : s.view.parties[i]? = some k.phase := by
  simp [State.view, hi]

/-- A call that moves within its phase. -/
theorem State.view_same (hi : s.calls[i]? = some k) (k' : Call) (same : k'.phase = k.phase) (gil : Bool) :
    State.view ⟨gil, s.lock, s.inner, s.calls.set i k'⟩ = s.view := by
  rw [State.view_set, same, ← List.map_set]
  obtain ⟨hlt, rfl⟩ := List.getElem?_eq_some_iff.1 hi
  rw [List.set_getElem_self hlt]
  rfl

/-- Each is a move of a guard. -/
theorem Step.move (hs : Step prefer s a s') : Guarded.Move s.view s'.view := by
  cases hs with
  | call op =>
    convert Guarded.Move.join s.view using 1
    simp [State.view, Call.phase]
  | @attach i op hi _ =>
    rw [State.view_same hi (.attached op) rfl]
    exact .stay _
  | @invalid i error hi =>
    rw [State.set, State.view_same hi (.returning (.invalid error)) rfl]
    exact .stay _
  | @detach i op hi _ =>
    rw [State.view_same hi (.detached op) rfl]
    exact .stay _
  | read hi free =>
    rw [State.view_set]
    exact .read (State.phase_of hi) free.1
  | look hi inner =>
    rw [State.set, State.view_set]
    exact .find (State.phase_of hi) inner
  | refuse hi inner =>
    rw [State.view_set]
    exact .leave (.inl (State.phase_of hi))
  | answer reply hi | panic hi =>
    rw [State.view_set]
    exact .leave (.inr (State.phase_of hi))
  | write hi free =>
    rw [State.view_set]
    exact .write (State.phase_of hi) free
  | take hi inner =>
    rw [State.view_set]
    exact .take (State.phase_of hi) inner
  | nothing hi inner =>
    rw [State.view_set]
    exact .giveUp (State.phase_of hi)
  | @closed i answer hi =>
    rw [State.set, State.view_same hi (.reattaching (.closed answer)) rfl]
    exact .stay _
  | @reattach i outcome hi _ =>
    rw [State.view_same hi (.returning outcome) rfl]
    exact .stay _
  | @return_ i outcome hi =>
    rw [State.view_same hi (.returned outcome) rfl]
    exact .stay _

/-- So the rules of the guard hold in every run. -/
theorem State.sound_of_reach (h : (client prefer).Reach s) : s.view.Sound := by
  refine Guarded.sound_of_reach State.view ?_ (fun _ _ _ hs => Step.move hs) h
  rintro s rfl
  exact Guarded.Sound.start true rfl

/-! ## The interpreter -/

/-- The interpreter is held by the one call that has it. -/
theorem State.attached_of_reach (h : (client prefer).Reach s) : tally Call.isAttached s.calls = s.gil.toNat := by
  refine h.induct (I := fun s => tally Call.isAttached s.calls = s.gil.toNat) ?_ ?_
  · rintro s rfl
    rfl
  · intro s a s' _ ih hs
    cases hs with
    | call op => simpa [Call.isAttached] using ih
    | attach hi free | reattach hi free =>
      rw [free, Bool.toNat_false] at ih
      simp [tally_set_eq hi, Call.isAttached, ih]
    | detach hi _ | return_ hi =>
      have hle := le_tally Call.isAttached hi
      have hgil := Bool.toNat_le s.gil
      rw [ih] at hle
      simp only [Call.isAttached] at hle
      simp only [tally_set_eq hi, Call.isAttached, ih, Bool.toNat_false]
      omega
    | invalid hi | look hi _ | closed _ hi => simpa [State.set, tally_set_eq hi, Call.isAttached] using ih
    | read hi _ | refuse hi _ | answer _ hi | panic hi | write hi _ | take hi _ | nothing hi _ =>
      simpa [tally_set_eq hi, Call.isAttached] using ih

/-- Whoever has the interpreter can go on without waiting for anybody. -/
theorem State.attached_moves (prefer : Bool) (hi : s.calls[i]? = some k) (attached : k.isAttached = 1) :
    ∃ s', Step prefer s (.step i) s' := by
  cases k with
  | attached op =>
    cases op with
    | close => exact ⟨_, .detach hi fun _ h => by cases h⟩
    | roundTrip request =>
      cases request with
      | error error => exact ⟨_, .invalid hi⟩
      | ok request => exact ⟨_, .detach hi fun _ h => by cases h⟩
  | returning outcome => exact ⟨_, .return_ hi⟩
  | _ => cases attached

/-! ## Every call returns -/

/-- The steps a call has left, at most. -/
def Call.left : Call → Nat
  | .entering _ => 7
  | .attached _ => 6
  | .detached _ => 5
  | .reading | .writing => 4
  | .running | .closing => 3
  | .reattaching _ => 2
  | .returning _ => 1
  | .returned _ => 0

/-- Every step of their own leaves the calls less to do. -/
theorem Step.left_lt (hs : Step prefer s a s') (own : a.own) : tally Call.left s'.calls < tally Call.left s.calls := by
  cases hs with
  | call => exact own.elim
  | attach hi | detach hi | read hi | refuse hi | answer _ hi | panic hi | write hi | take hi | nothing hi | reattach hi
  | return_ hi =>
    have hle := le_tally Call.left hi
    simp only [tally_set_eq hi, Call.left] at hle ⊢
    omega
  | invalid hi | look hi | closed _ hi =>
    have hle := le_tally Call.left hi
    simp only [State.set, tally_set_eq hi, Call.left] at hle ⊢
    omega

/-- Where nobody can move any more, every call has returned. -/
theorem State.returned_of_atRest (h : (client prefer).Reach s) (rest : (client prefer).AtRest Act.own s) :
    ∀ k ∈ s.calls, k.isReturned = true := by
  have hsound := State.sound_of_reach h
  have stuck : ∀ {i : Nat} {P : Prop}, (∃ s', Step prefer s (.step i) s') → P := by
    intro i P hstep
    obtain ⟨s', hs⟩ := hstep
    exact (rest (.step i) s' trivial hs).elim
  -- nobody has the interpreter, for whoever has it can go on
  have hgil : s.gil = false := by
    have hattached := State.attached_of_reach h
    cases hg : s.gil with
    | false => rfl
    | true =>
      rw [hg, Bool.toNat_true] at hattached
      obtain ⟨i, k, hi, hk⟩ := exists_of_tally_pos (hattached ▸ Nat.one_pos)
      have hone : k.isAttached = 1 := by
        cases k <;> first | rfl | (cases hk)
      exact stuck (State.attached_moves prefer hi hone)
  -- so whoever is not before its guard or after its call can go on as well
  have settled : ∀ (i : Nat) (k : Call), s.calls[i]? = some k → (∃ op, k = .detached op) ∨ k.isReturned = true := by
    intro i k hi
    cases k with
    | entering op => exact stuck ⟨_, .attach hi hgil⟩
    | attached op => exact stuck (State.attached_moves prefer hi rfl)
    | detached op => exact .inl ⟨op, rfl⟩
    | reading =>
      cases hinner : s.inner with
      | true => exact stuck ⟨_, .look hi hinner⟩
      | false => exact stuck ⟨_, .refuse hi hinner⟩
    | running => exact stuck ⟨_, .panic hi⟩
    | writing =>
      cases hinner : s.inner with
      | true => exact stuck ⟨_, .take hi hinner⟩
      | false => exact stuck ⟨_, .nothing hi hinner⟩
    | closing => exact stuck ⟨_, .closed (.ok ()) hi⟩
    | reattaching outcome => exact stuck ⟨_, .reattach hi hgil⟩
    | returning outcome => exact stuck (State.attached_moves prefer hi rfl)
    | returned outcome => exact .inr rfl
  have outside : ∀ p ∈ s.view.parties, p.reads = 0 ∧ p.writes = 0 := by
    intro p hp
    obtain ⟨k, hk, rfl⟩ := List.mem_map.1 hp
    obtain ⟨i, hi⟩ := List.getElem?_of_mem hk
    rcases settled i k hi with ⟨op, rfl⟩ | hreturned
    · exact ⟨rfl, rfl⟩
    · cases k with
      | returned outcome => cases outcome <;> exact ⟨rfl, rfl⟩
      | _ => cases hreturned
  obtain ⟨hreader, hwriter⟩ := hsound.free outside
  have noClose : ∀ k ∈ s.calls, k.wantsWriting = false := by
    intro k hk
    obtain ⟨i, hi⟩ := List.getElem?_of_mem hk
    rcases settled i k hi with ⟨op, rfl⟩ | hreturned
    · cases op with
      | close => exact stuck ⟨_, .write hi hwriter⟩
      | roundTrip request => rfl
    · cases k with
      | returned outcome => rfl
      | _ => cases hreturned
  intro k hk
  obtain ⟨i, hi⟩ := List.getElem?_of_mem hk
  rcases settled i k hi with ⟨op, rfl⟩ | hreturned
  · cases op with
    | close => exact stuck ⟨_, .write hi hwriter⟩
    | roundTrip request => exact stuck ⟨_, .read hi ⟨hreader, fun _ => noClose⟩⟩
  · exact hreturned

/-- **The interpreter and the lock never hold each other up.** In every interleaving of any number
of commands and closes, whichever way the lock prefers: one call at most has the interpreter, and it
can go on whatever the others do, so it holds it across no wait; one close at most gets the client,
with no command inside it then or later; and from every state the calls all return, if the engine
answers what it is asked. -/
theorem python_calls_return_without_deadlock (h : (client prefer).Reach s) :
    ((∀ (i j : Nat) (k k' : Call), s.calls[i]? = some k → s.calls[j]? = some k' → k.isAttached = 1 → k'.isAttached = 1 → i = j) ∧
      ∀ (i : Nat) (k : Call), s.calls[i]? = some k → k.isAttached = 1 → ∃ s', Step prefer s (.step i) s') ∧
    (∀ (d : Nat) (k : Call), s.calls[d]? = some k → k.phase = .owner →
      (∀ (c : Nat) (k' : Call), s.calls[c]? = some k' → k'.phase = .owner → c = d) ∧
      ∀ c : Nat, s.calls[c]? ≠ some .running) ∧
    (client prefer).Settles Act.own (fun s => ∀ k ∈ s.calls, k.isReturned = true) s := by
  have hsound := State.sound_of_reach h
  refine ⟨⟨?_, fun i k hi hk => State.attached_moves prefer hi hk⟩, ?_, ?_⟩
  · intro i j k k' hi hj hk hk'
    refine Classical.byContradiction fun hne => ?_
    have hle := add_le_tally Call.isAttached hi hj hne
    rw [State.attached_of_reach h, hk, hk'] at hle
    have := Bool.toNat_le s.gil
    omega
  · intro d k hd hk
    have howner := State.phase_of hd
    rw [hk] at howner
    constructor
    · intro c k' hc hk'
      have hother := State.phase_of hc
      rw [hk'] at hother
      exact hsound.owner_unique hother howner
    · intro c hc
      exact hsound.nobody_inside (hsound.taken howner) (State.phase_of hc)
  · refine System.Reach.settles (I := fun _ => True) wellFounded_lt (fun s => tally Call.left s.calls) ?_ ?_ ?_ h trivial
    · intro s a s' _ _ own hs
      exact Step.left_lt hs own
    · intro s a s' _ _ _
      trivial
    · intro s hr _ rest
      exact State.returned_of_atRest hr rest

/-- A close has detached, and waits for a command that waits for nobody. -/
def closeDetached : State where
  gil := false
  lock := ⟨1, false⟩
  inner := true
  calls := [.running, .detached .close]

theorem reach_closeDetached : (client true).Reach closeDetached := by
  have hvalid : ∀ (request : Wire.Request) (error : String), Op.roundTrip (.ok request) ≠ .roundTrip (.error error) :=
    fun _ _ h => by cases h
  let request : Wire.Request := ⟨0, false, false, "admin", "ping", []⟩
  have hcalled := System.Reach.next (S := client true) (.init rfl) (Step.call (.roundTrip (.ok request)))
  have hattached := hcalled.next (Step.attach (i := 0) rfl rfl)
  have hdetached := hattached.next (Step.detach (i := 0) rfl (hvalid request))
  have hreading := hdetached.next (Step.read (i := 0) rfl ⟨rfl, fun _ k hk => by
    obtain rfl := List.mem_singleton.1 hk
    rfl⟩)
  have hrunning := hreading.next (Step.look (i := 0) rfl rfl)
  have hcalled' := hrunning.next (Step.call .close)
  have hattached' := hcalled'.next (Step.attach (i := 1) rfl rfl)
  exact hattached'.next (Step.detach (i := 1) rfl fun _ h => by cases h)

theorem close_behind_a_command_returns :
    (client true).Reach closeDetached ∧
      (client true).Settles Act.own (fun s => ∀ k ∈ s.calls, k.isReturned = true) closeDetached :=
  ⟨reach_closeDetached, (python_calls_return_without_deadlock reach_closeDetached).2.2⟩

end EmbeddedMongo.Bindings.Native
