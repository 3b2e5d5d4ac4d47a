import EmbeddedMongo.Conc.Arc
import EmbeddedMongo.Conc.System
import EmbeddedMongo.Conc.Tally

/-!
# The handles of the native crate

`Client`, `Session` and `Killer` of `embedded-mongodb-sys/src/client.rs`, over the two classes of
`cpp/bridge.cc` that close what they point to. The engine handle is in an `Arc` the client shares
with every `SessionInner`, and a `SessionInner` in an `Arc` its session shares with the killers
taken from it.

The parties are the values themselves, wherever their owners have moved them, and the calls that
borrow them. A value is moved, dropped or closed by its owner alone and only while nothing borrows
it; beyond that any thread may do anything next. Giving up a reference, closing what the last one
pointed to and giving up the reference that was in it are steps of their own.
-/

namespace EmbeddedMongo.Ffi

open Conc

/-- The `EmbeddedSession`, and the share in the runtime that outlives it. -/
structure SessionInner where
  owned : Owned
  runtime : Nat
  deriving DecidableEq, Repr

/-- Where the drop of a value is. -/
inductive Drop where
  /-- Before it gives up its reference to the `SessionInner`. -/
  | inner (inner : Nat)
  /-- With the last one: its fields drop in order, the session first. -/
  | session (inner runtime : Nat)
  /-- Before it gives up a reference to the `Runtime`. -/
  | runtime (runtime : Nat)
  /-- With the last one: `~EmbeddedMongo` is next. -/
  | mongo (runtime : Nat)
  /-- `Client::close` before `Arc::try_unwrap`. -/
  | unwrap (runtime : Nat)
  /-- With the `Runtime` in hand: `Runtime::close` is next. -/
  | close (runtime : Nat)
  deriving DecidableEq, Repr

/-- A value of the crate's, or a call on one. -/
inductive Party where
  | client (runtime : Nat)
  | session (inner : Nat)
  | killer (inner : Nat)
  /-- `Client::open_session`, in the native call. -/
  | opening (client : Nat)
  /-- The native session is open; the share in the runtime is cloned next. -/
  | opened (client inner : Nat)
  /-- `Session::run_command`. -/
  | running (session : Nat)
  /-- `Killer::kill`. -/
  | killing (killer : Nat)
  | dropping (drop : Drop) (closing : Bool)
  /-- `Client::close` has returned, having closed the engine itself or not. -/
  | closed (eager : Bool)
  | gone
  deriving DecidableEq, Repr

/-- The value a call borrows for as long as it lasts. -/
def Party.borrows : Party → Option Nat
  | .opening c | .opened c _ => some c
  | .running h | .killing h => some h
  | _ => none

/-- The native objects with their counts, and the values that refer to them. -/
structure State where
  runtimes : List Owned
  inners : List SessionInner
  parties : List Party

namespace State

/-- A call is under way on it. -/
def borrowed (i : Nat) (s : State) : Prop := ∃ p ∈ s.parties, p.borrows = some i

def set (i : Nat) (p : Party) (s : State) : State := { s with parties := s.parties.set i p }

def add (p : Party) (s : State) : State := { s with parties := s.parties ++ [p] }

def setRuntime (r : Nat) (o : Owned) (s : State) : State := { s with runtimes := s.runtimes.set r o }

def setInner (x : Nat) (o : Owned) (inner : SessionInner) (s : State) : State :=
  { s with inners := s.inners.set x { inner with owned := o } }

end State

/-- What is done with the values. -/
inductive Act where
  | openClient
  | beginOpenSession (client : Nat)
  | openedSession (call : Nat)
  | refusedSession (call : Nat)
  | wrap (call : Nat)
  | takeKiller (value : Nat)
  | run (session : Nat)
  | kill (killer : Nat)
  | returned (call : Nat)
  | drop (value : Nat)
  | close (client : Nat)
  | glue (value : Nat)
  deriving DecidableEq, Repr

/-- The end of a drop. -/
def Party.dropped (closing eager : Bool) : Party := if closing = true then .closed eager else .gone

/-- The steps of `client.rs`. A value is dropped in the order of its fields. -/
inductive Step : State → Act → State → Prop where
  | openClient {s : State} :
      Step s .openClient
        { s with runtimes := s.runtimes ++ [⟨.new, .opened⟩], parties := s.parties ++ [.client s.runtimes.length] }
  | beginOpenSession {s : State} {c r : Nat} (hc : s.parties[c]? = some (.client r)) :
      Step s (.beginOpenSession c) (s.add (.opening c))
  | openedSession {s : State} {i c r : Nat} (hi : s.parties[i]? = some (.opening c)) (hc : s.parties[c]? = some (.client r)) :
      Step s (.openedSession i)
        { s with
          inners := s.inners ++ [⟨⟨.unmade, .opened⟩, r⟩]
          parties := s.parties.set i (.opened c s.inners.length) }
  | refusedSession {s : State} {i c : Nat} (hi : s.parties[i]? = some (.opening c)) :
      Step s (.refusedSession i) (s.set i .gone)
  | wrap {s : State} {i c x : Nat} {inner : SessionInner} {o : Owned} (hi : s.parties[i]? = some (.opened c x))
      (hx : s.inners[x]? = some inner) (hr : s.runtimes[inner.runtime]? = some o) :
      Step s (.wrap i)
        (((s.setRuntime inner.runtime o.clone).setInner x { inner.owned with arc := .new } inner).set i (.session x))
  | takeKiller {s : State} {h x : Nat} {inner : SessionInner}
      (hh : s.parties[h]? = some (.session x) ∨ s.parties[h]? = some (.killer x)) (idle : .running h ∉ s.parties)
      (hx : s.inners[x]? = some inner) :
      Step s (.takeKiller h) ((s.setInner x inner.owned.clone inner).add (.killer x))
  | run {s : State} {h x : Nat} (hh : s.parties[h]? = some (.session x)) (idle : .running h ∉ s.parties) :
      Step s (.run h) (s.add (.running h))
  | kill {s : State} {h x : Nat} (hh : s.parties[h]? = some (.killer x)) : Step s (.kill h) (s.add (.killing h))
  | returned {s : State} {i h : Nat} (hi : s.parties[i]? = some (.running h) ∨ s.parties[i]? = some (.killing h)) :
      Step s (.returned i) (s.set i .gone)
  | dropClient {s : State} {c r : Nat} (hc : s.parties[c]? = some (.client r)) (free : ¬s.borrowed c) :
      Step s (.drop c) (s.set c (.dropping (.runtime r) false))
  | drop {s : State} {h x : Nat} (hh : s.parties[h]? = some (.session x) ∨ s.parties[h]? = some (.killer x))
      (free : ¬s.borrowed h) : Step s (.drop h) (s.set h (.dropping (.inner x) false))
  | close {s : State} {c r : Nat} (hc : s.parties[c]? = some (.client r)) (free : ¬s.borrowed c) :
      Step s (.close c) (s.set c (.dropping (.unwrap r) true))
  | releaseInner {s : State} {i x : Nat} {closing : Bool} {inner : SessionInner}
      (hi : s.parties[i]? = some (.dropping (.inner x) closing)) (hx : s.inners[x]? = some inner) :
      Step s (.glue i)
        ((s.setInner x inner.owned.release inner).set i
          (if inner.owned.arc.isLast = true then .dropping (.session x inner.runtime) closing else .dropped closing false))
  | destroySession {s : State} {i x r : Nat} {closing : Bool} {inner : SessionInner}
      (hi : s.parties[i]? = some (.dropping (.session x r) closing)) (hx : s.inners[x]? = some inner) :
      Step s (.glue i) ((s.setInner x inner.owned.close inner).set i (.dropping (.runtime r) closing))
  | releaseRuntime {s : State} {i r : Nat} {closing : Bool} {o : Owned}
      (hi : s.parties[i]? = some (.dropping (.runtime r) closing)) (hr : s.runtimes[r]? = some o) :
      Step s (.glue i)
        ((s.setRuntime r o.release).set i
          (if o.arc.isLast = true then .dropping (.mongo r) closing else .dropped closing false))
  | destroyMongo {s : State} {i r : Nat} {closing : Bool} {o : Owned}
      (hi : s.parties[i]? = some (.dropping (.mongo r) closing)) (hr : s.runtimes[r]? = some o) :
      Step s (.glue i) ((s.setRuntime r o.close).set i (.dropped closing false))
  | unwrap {s : State} {i r : Nat} {closing : Bool} {o : Owned}
      (hi : s.parties[i]? = some (.dropping (.unwrap r) closing)) (hr : s.runtimes[r]? = some o)
      (last : o.arc.isLast = true) :
      Step s (.glue i) ((s.setRuntime r o.release).set i (.dropping (.close r) closing))
  | stillShared {s : State} {i r : Nat} {closing : Bool} {o : Owned}
      (hi : s.parties[i]? = some (.dropping (.unwrap r) closing)) (hr : s.runtimes[r]? = some o)
      (shared : o.arc.isLast = false) : Step s (.glue i) (s.set i (.dropping (.runtime r) closing))
  /-- The pointer that `Runtime::close` leaves cleared is then dropped, and finds nothing. -/
  | closeMongo {s : State} {i r : Nat} {closing : Bool} {o : Owned}
      (hi : s.parties[i]? = some (.dropping (.close r) closing)) (hr : s.runtimes[r]? = some o) :
      Step s (.glue i) ((s.setRuntime r o.close.close).set i (.dropped closing true))

/-- A process before its first client. -/
def handles : System State Act where
  init s := s = ⟨[], [], []⟩
  step := Step

end EmbeddedMongo.Ffi
