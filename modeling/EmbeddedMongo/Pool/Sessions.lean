import EmbeddedMongo.Conc.System
import EmbeddedMongo.Conc.Tally
import EmbeddedMongo.Options
import EmbeddedMongo.Pool.Reaper
import EmbeddedMongo.Pool.Slot

/-!
# The session pool as a step system

`src/pool/sessions.rs` with the reaper's loop and, for what an interrupt reaches, `Session` of
`engine_runtime.cpp`. A call of `SessionPool::run` is its position in `calls`, with the slot it
was given; a session is its position in `sessions`. A step is what one party does with the
pool's mutex, its slot's mutex or its session's client lock held, or a notification. A call
may end by unwinding: its guards drop as they do when it returns, so both are the same steps.

The last four fields of `Call` are history no step reads.
-/

namespace EmbeddedMongo.Pool

open Conc

/-- How far a call is with the session it has checked out. -/
inductive Stage where
  /-- Before `CommandSlot::start`. -/
  | taken
  /-- `start` answered `true`; no operation is attached to the session yet. -/
  | armed
  /-- Inside `Session::runCommand`, its operation attached. -/
  | attached
  /-- `runCommand` has ended, or threw before it attached anything. -/
  | detached
  /-- The interrupt is given up, or was never armed; the checkout is about to drop. -/
  | disarmed
  deriving DecidableEq, Repr

/-- Where a call of `SessionPool::run` is. -/
inductive Pc where
  /-- Before `checkout` has taken the lock. -/
  | entering
  | parked
  /-- Back from the condvar, about to regain the lock. -/
  | woken
  /-- Reserved a session, and opening it. -/
  | growing
  /-- The open failed and the reservation is given back; the `notify_one` is still to be sent. -/
  | refused
  | held (session : Nat) (stage : Stage)
  /-- The session is given back; the `notify_one` is still to be sent. -/
  | notifying
  | returned
  deriving DecidableEq, Repr

/-- Who holds a slot's mutex across steps: nobody, or a cancel that found the slot running. -/
inductive Lock where
  | free
  /-- About to call the interrupt on `session`. -/
  | interrupting (session : Nat)
  /-- The interrupt has returned; the slot is still to be marked cancelled. -/
  | interrupted
  deriving DecidableEq, Repr

/-- Where a cancel found its command. -/
inductive Point where
  | waiting
  /-- Started, its operation not attached yet. -/
  | armed
  | running
  | finished
  deriving DecidableEq, Repr

structure Call where
  pc : Pc
  slot : Slot Nat
  lock : Lock
  /-- Times the slot's interrupt was called. -/
  fired : Nat
  /-- Its operation was attached. -/
  ran : Bool
  /-- Its operation was killed. -/
  killed : Bool
  /-- Where the first cancel found it. -/
  cancelled : Option Point
  deriving DecidableEq, Repr

/-- A native session: whether it is there, and the call whose operation is attached to it. -/
structure Session where
  live : Bool
  operation : Option Nat
  deriving DecidableEq, Repr

/-- Where the reaper thread is. -/
inductive Reaper where
  /-- A fixed pool, or a thread that could not be started. -/
  | none
  | looking
  | waiting (wait : Nat)
  /-- Destroying `left` with the pool unlocked; `closed` is how many it took. -/
  | destroying (left : List Nat) (closed : Nat)
  | stopped
  deriving DecidableEq, Repr

structure Sys where
  state : State Nat
  now : Nat
  reaper : Reaper
  sessions : List Session
  calls : List Call

/-- How a pass of `checkout`'s loop ends. -/
inductive Checkout where
  | took (session : Nat)
  | reserved
  | wait
  deriving DecidableEq, Repr

/-- A pass of `checkout`'s loop, with the pool's mutex held. -/
def State.checkout (max : Nat) (s : State Nat) : Checkout × State Nat :=
  match s.take with
  | (some session, s) => (.took session, s)
  | (none, s) => if s.openCount < max then (.reserved, { s with openCount := s.openCount + 1 }) else (.wait, s)

def Checkout.pc : Checkout → Pc
  | .took session => .held session .taken
  | .reserved => .growing
  | .wait => .parked

namespace Call

/-- A command that was dispatched and has not reached the pool. -/
def new : Call where
  pc := .entering
  slot := .waiting
  lock := .free
  fired := 0
  ran := false
  killed := false
  cancelled := none

/-- `CommandSlot::start` on the session just checked out, and what `run` does about its answer. -/
def start (session : Nat) (k : Call) : Call :=
  match k.slot.start session with
  | (true, slot) => { k with slot := slot, pc := .held session .armed }
  | (false, slot) => { k with slot := slot, pc := .held session .disarmed }

/-- Where a cancel finds the command: by the slot's state, or, if it has something to interrupt,
by how far the command is. -/
def point (k : Call) : Point :=
  match k.slot with
  | .waiting => .waiting
  | .running _ =>
    match k.pc with
    | .held _ .armed => .armed
    | .held _ .attached => .running
    | _ => .finished
  | .finished | .cancelled => .finished

/-- `CommandSlot::cancel`, to its end if there is nothing to interrupt. -/
def cancel (k : Call) : Call :=
  match k.slot.cancel with
  | (some session, _) => { k with lock := .interrupting session }
  | (none, slot) => { k with slot := slot, cancelled := k.cancelled.or (some k.point) }

/-- The interrupt was called. -/
def fire (k : Call) : Call :=
  { k with lock := .interrupted, fired := k.fired + 1, cancelled := k.cancelled.or (some k.point) }

/-- The end of a cancel that interrupted. -/
def cancelDone (k : Call) : Call := { k with slot := k.slot.cancel.2, lock := .free }

end Call

/-- `Session::kill`: the operation attached to the session, if there is one, is killed. -/
def Sys.kill (session : Nat) (s : Sys) : List Call :=
  match s.sessions[session]?.bind Session.operation with
  | some c => s.calls.modify c fun k => { k with killed := true }
  | none => s.calls

/-- `notify_all` on the `returned` condvar. -/
def Sys.wakeAll (calls : List Call) : List Call :=
  calls.map fun k => if k.pc = .parked then { k with pc := .woken } else k

/-- The reaper's loop from where it has the lock to where it gives it up: to stop, to destroy
what it took, or to wait. -/
def Sys.pass (min timeout : Nat) (s : Sys) : Sys :=
  if s.state.closing = true then { s with reaper := .stopped }
  else
    match s.state.reap min timeout s.now with
    | ((expired, wait), state) =>
      if expired = [] then { s with state := state, reaper := .waiting wait }
      else { s with state := state, reaper := .destroying expired expired.length }

/-- Who moves, and how. -/
inductive Act where
  | tick (nanos : Nat)
  | call
  | checkout (call : Nat)
  | grow (call : Nat) (opened : Bool)
  | notifyOne (call : Nat) (woken : Option Nat)
  | wake (call : Nat)
  | start (call : Nat)
  | attach (call : Nat)
  | refuse (call : Nat)
  | detach (call : Nat)
  | disarm (call : Nat)
  | giveBack (call : Nat)
  | cancel (call : Nat)
  | interrupt (call : Nat)
  | cancelDone (call : Nat)
  | look
  | destroy
  | count
  | stopReaping
  deriving DecidableEq, Repr

open Sys in
/-- The atomic steps under the policy `limits`. -/
inductive Step (limits : Concurrency) : Sys → Act → Sys → Prop where
  | tick {s : Sys} (nanos : Nat) : Step limits s (.tick nanos) { s with now := s.now + nanos }
  | call {s : Sys} (there : s.state.closing = false) : Step limits s .call { s with calls := s.calls ++ [.new] }
  -- `checkout` and `grow`
  | checkout {s : Sys} {c : Nat} {k : Call} (hk : s.calls[c]? = some k) (pc : k.pc = .entering ∨ k.pc = .woken) :
      Step limits s (.checkout c)
        { s with
          state := (s.state.checkout limits.max).2
          calls := s.calls.set c { k with pc := (s.state.checkout limits.max).1.pc } }
  | growOk {s : Sys} {c : Nat} {k : Call} (hk : s.calls[c]? = some k) (pc : k.pc = .growing) :
      Step limits s (.grow c true)
        { s with
          sessions := s.sessions ++ [⟨true, none⟩]
          calls := s.calls.set c { k with pc := .held s.sessions.length .taken } }
  | growErr {s : Sys} {c : Nat} {k : Call} (hk : s.calls[c]? = some k) (pc : k.pc = .growing) :
      Step limits s (.grow c false)
        { s with
          state := { s.state with openCount := s.state.openCount - 1 }
          calls := s.calls.set c { k with pc := .refused } }
  -- the `notify_one` after a failed open or a session given back
  | notifyOne {s : Sys} {c p : Nat} {k kp : Call} (hk : s.calls[c]? = some k)
      (pc : k.pc = .refused ∨ k.pc = .notifying) (hp : s.calls[p]? = some kp) (parked : kp.pc = .parked) :
      Step limits s (.notifyOne c (some p))
        { s with calls := (s.calls.set p { kp with pc := .woken }).set c { k with pc := .returned } }
  | notifyNobody {s : Sys} {c : Nat} {k : Call} (hk : s.calls[c]? = some k)
      (pc : k.pc = .refused ∨ k.pc = .notifying) (nobody : ∀ k ∈ s.calls, k.pc ≠ .parked) :
      Step limits s (.notifyOne c none) { s with calls := s.calls.set c { k with pc := .returned } }
  | wake {s : Sys} {c : Nat} {k : Call} (hk : s.calls[c]? = some k) (pc : k.pc = .parked) :
      Step limits s (.wake c) { s with calls := s.calls.set c { k with pc := .woken } }
  -- `run`, with a session checked out
  | start {s : Sys} {c x : Nat} {k : Call} (hk : s.calls[c]? = some k) (pc : k.pc = .held x .taken)
      (free : k.lock = .free) : Step limits s (.start c) { s with calls := s.calls.set c (k.start x) }
  | attach {s : Sys} {c x : Nat} {k : Call} {session : Session} (hk : s.calls[c]? = some k)
      (pc : k.pc = .held x .armed) (hx : s.sessions[x]? = some session) :
      Step limits s (.attach c)
        { s with
          sessions := s.sessions.set x { session with operation := some c }
          calls := s.calls.set c { k with pc := .held x .attached, ran := true } }
  | refuse {s : Sys} {c x : Nat} {k : Call} (hk : s.calls[c]? = some k) (pc : k.pc = .held x .armed) :
      Step limits s (.refuse c) { s with calls := s.calls.set c { k with pc := .held x .detached } }
  | detach {s : Sys} {c x : Nat} {k : Call} {session : Session} (hk : s.calls[c]? = some k)
      (pc : k.pc = .held x .attached) (hx : s.sessions[x]? = some session) :
      Step limits s (.detach c)
        { s with
          sessions := s.sessions.set x { session with operation := none }
          calls := s.calls.set c { k with pc := .held x .detached } }
  | disarm {s : Sys} {c x : Nat} {k : Call} (hk : s.calls[c]? = some k) (pc : k.pc = .held x .detached)
      (free : k.lock = .free) :
      Step limits s (.disarm c)
        { s with calls := s.calls.set c { k with pc := .held x .disarmed, slot := k.slot.finish } }
  | giveBack {s : Sys} {c x : Nat} {k : Call} (hk : s.calls[c]? = some k) (pc : k.pc = .held x .disarmed) :
      Step limits s (.giveBack c)
        { s with
          state := s.state.giveBack x s.now
          calls := s.calls.set c { k with pc := .notifying } }
  -- `CommandSlot::cancel`, by anyone, any number of times
  | cancel {s : Sys} {c : Nat} {k : Call} (hk : s.calls[c]? = some k) (free : k.lock = .free) :
      Step limits s (.cancel c) { s with calls := s.calls.set c k.cancel }
  | interrupt {s : Sys} {c x : Nat} {k : Call} (hk : s.calls[c]? = some k) (lock : k.lock = .interrupting x) :
      Step limits s (.interrupt c) { s with calls := (s.kill x).modify c Call.fire }
  | cancelDone {s : Sys} {c : Nat} {k : Call} (hk : s.calls[c]? = some k) (lock : k.lock = .interrupted) :
      Step limits s (.cancelDone c) { s with calls := s.calls.set c k.cancelDone }
  -- the reaper; its wait on `closing` may end at any moment
  | look {s : Sys} {timeout : Nat} (elastic : limits.idleTimeout = some timeout)
      (reaper : s.reaper = .looking ∨ ∃ wait, s.reaper = .waiting wait) :
      Step limits s .look (s.pass limits.min timeout)
  | destroy {s : Sys} {x closed : Nat} {left : List Nat} {session : Session}
      (reaper : s.reaper = .destroying (x :: left) closed) (hx : s.sessions[x]? = some session) :
      Step limits s .destroy
        { s with
          reaper := .destroying left closed
          sessions := s.sessions.set x { session with live := false } }
  | count {s : Sys} {timeout closed : Nat} (elastic : limits.idleTimeout = some timeout)
      (reaper : s.reaper = .destroying [] closed) :
      Step limits s .count
        (pass limits.min timeout { s with state := s.state.closed closed, calls := wakeAll s.calls })
  -- `SessionPool::drop` borrows the pool alone, so no call is left inside it
  | stopReaping {s : Sys} (free : ∀ k ∈ s.calls, k.pc = .returned) :
      Step limits s .stopReaping { s with state := { s.state with closing := true } }

/-- The pool as `SessionPool::open` leaves it: the floor's sessions, all idle, and a reaper if
the policy is elastic and its thread could be started. -/
structure Opened (limits : Concurrency) (s : Sys) : Prop where
  idle : s.state.idle.map Idle.session = List.range limits.min
  since : ∀ entry ∈ s.state.idle, entry.since ≤ s.now
  ordered : s.state.idle.Pairwise fun a b => a.since ≤ b.since
  openCount : s.state.openCount = limits.min
  closing : s.state.closing = false
  reaper : s.reaper = .none ∨ s.reaper = .looking ∧ limits.idleTimeout.isSome = true
  sessions : s.sessions = List.replicate limits.min ⟨true, none⟩
  calls : s.calls = []

def pool (limits : Concurrency) : System Sys Act where
  init := Opened limits
  step := Step limits

/-- An elastic pool that has just opened its one session. -/
def Sys.fresh : Sys where
  state := { idle := [⟨0, 0⟩], openCount := 1, closing := false }
  now := 0
  reaper := .looking
  sessions := [⟨true, none⟩]
  calls := []

theorem opened_fresh : Opened .oneToTwo .fresh where
  idle := rfl
  since := by decide
  ordered := by simp [Sys.fresh]
  openCount := rfl
  closing := rfl
  reaper := .inr ⟨rfl, rfl⟩
  sessions := rfl
  calls := rfl

end EmbeddedMongo.Pool
