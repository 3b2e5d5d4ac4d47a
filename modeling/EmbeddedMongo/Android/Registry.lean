import EmbeddedMongo.Android.BridgeError
import EmbeddedMongo.Android.Handle
import EmbeddedMongo.Conc.RwLock
import EmbeddedMongo.Conc.System
import EmbeddedMongo.Conc.Tally

/-!
# The registry

`embedded-mongodb-android/src/registry.rs`, as the calls of any number of Java threads go through
it. A step is what one call does between two points at which another may come in: taking the
registry's mutex, the section under it, releasing it, taking the lock of an entry, entering and
leaving the engine, releasing that lock. What is under the mutex is read and written by nobody
else, so a section is one step.

A client has the number of the `insert` that brings it. An entry is known by its place in `heap`:
a call may hold an `Arc` of one that has left the map. Poison is recovered from by every accessor
and changes nothing, so a panic is one more way in which an engine call may end.
-/

namespace EmbeddedMongo.Android.Handles

open Conc

/-- What the bridge is asked for. -/
inductive Op where
  | insert
  | runCommand (id : HandleId)
  | close (id : HandleId)
  deriving DecidableEq

/-- What is asked of a client. -/
inductive EngineCall where
  | runCommand (client : Nat)
  | close (client : Nat)
  deriving DecidableEq

/-- How an engine call ends. -/
inductive Answer where
  | replied (response : Except BridgeError (List UInt8))
  | closed (result : Except BridgeError Unit)
  | panicked

/-- How a call ends: with an id, with what the engine said, or with a failure of its own. -/
inductive Outcome where
  | issued (id : HandleId)
  | engine (answer : Answer)
  | failed (error : BridgeError)

/-- The error for a handle that is not in the map. -/
def closed (id : HandleId) : BridgeError :=
  .closedHandle s!"embedded MongoDB handle {id} is unknown or already closed"

/-- What `spent` reports once it has closed the client. -/
def spent (result : Except BridgeError Unit) : BridgeError :=
  let detail :=
    match result with
    | .ok _ => ""
    | .error failure => "; closing it again failed: " ++ failure.display
  .closedHandle ("embedded MongoDB handle ids are exhausted; this process cannot open another client" ++ detail)

/-- Where a call is. -/
inductive Pc where
  /-- Before the registry's mutex. -/
  | start
  | locked
  /-- `insert`, still under the mutex, with the id it was given. -/
  | allocated (id : Option HandleId)
  /-- `run_command` and `close`, still under the mutex, with what the map held. -/
  | looked
  /-- Before the lock of the entry. -/
  | waiting
  | guarded
  /-- `insert` without an id, past the mutex. -/
  | spent
  /-- Inside an engine call, on this client. -/
  | engine (client : Nat)
  /-- What is to be returned is known; the guard is still held. -/
  | leaving (outcome : Outcome)
  | returned (outcome : Outcome)

/-- A call: what it does, where it is, the `Arc` it holds. The rest is history: whether the id it
quotes had been issued when it looked for it, and the engine calls it has made. -/
structure Call where
  op : Op
  pc : Pc
  entry : Option Nat
  known : Bool
  made : List EngineCall

/-- An entry of the map: its own lock, around the client. -/
structure Entry where
  lock : RwLock
  client : Option Nat

/-- An id, and the client it was issued for. -/
structure Issue where
  id : HandleId
  client : Nat
  deriving DecidableEq

/-- `holder` is the call that has the registry's mutex. `issued` is history, aligned with `heap`. -/
structure Registry where
  counter : Counter
  entries : HandleId → Option Nat
  holder : Option Nat
  heap : List Entry
  calls : List Call
  issued : List Issue

namespace Op

/-- The id a call quotes. -/
def id : Op → Option HandleId
  | .insert => none
  | .runCommand id | .close id => some id

/-- What the call asks of the engine. -/
def asks (client : Nat) : Op → EngineCall
  | .runCommand _ => .runCommand client
  | .insert | .close _ => .close client

/-- What becomes of the engine's answer; none is a call that gives no such answer. -/
def outcome : Op → Answer → Option Outcome
  | .insert, .closed result => some (.failed (Handles.spent result))
  | .runCommand _, .replied response => some (.engine (.replied response))
  | .close _, .closed result => some (.engine (.closed result))
  | _, .panicked => some (.engine .panicked)
  | _, _ => none

end Op

namespace Call

def begin (op : Op) : Call := ⟨op, .start, none, false, []⟩

def move (c : Call) (pc : Pc) : Call := { c with pc := pc }

/-- Into the engine. -/
def enter (c : Call) (client : Nat) : Call :=
  { c with pc := .engine client, made := c.made ++ [c.op.asks client] }

/-- Where a call goes from the section under the registry's mutex. -/
def unlocked (c : Call) : Option Pc :=
  match c.pc, c.op.id, c.entry with
  | .allocated (some id), _, _ => some (.returned (.issued id))
  | .allocated none, _, _ => some .spent
  | .looked, some _, some _ => some .waiting
  | .looked, some id, none => some (.returned (.failed (closed id)))
  | _, _, _ => none

end Call

namespace Registry

def new : Registry := ⟨.unstarted, fun _ => none, none, [], [], []⟩

/-- One call moves. -/
def put (s : Registry) (i : Nat) (c : Call) : Registry := { s with calls := s.calls.set i c }

def isIssued (s : Registry) (id : HandleId) : Bool := s.issued.any fun issue => issue.id == id

/-- What call `i` does under the registry's mutex. -/
def section_ (finish : UInt64) (s : Registry) (i : Nat) (c : Call) : Registry :=
  match c.op with
  | .insert =>
    match s.counter.takeNext finish with
    | (none, counter) => { s with counter := counter }.put i (c.move (.allocated none))
    | (some id, counter) =>
      { s with
        counter := counter
        entries := Function.update s.entries id (some s.heap.length)
        heap := s.heap ++ [⟨.new, some i⟩]
        calls := s.calls.set i (c.move (.allocated (some id)))
        issued := s.issued ++ [⟨id, i⟩] }
  | .runCommand id => s.put i { c with pc := .looked, entry := s.entries id }
  | .close id =>
    { s with entries := Function.update s.entries id none }.put i
      { c with pc := .looked, entry := s.entries id, known := s.isIssued id }

/-- The lock of an entry changes. -/
def relock (s : Registry) (e : Nat) (entry : Entry) (lock : RwLock) : Registry :=
  { s with heap := s.heap.set e { entry with lock := lock } }

/-- Who moves. -/
inductive Act where
  | call (op : Op)
  | lock (i : Nat)
  | section_ (i : Nat)
  | unlock (i : Nat)
  | guard (i : Nat)
  | enter (i : Nat)
  | answer (i : Nat)
  | release (i : Nat)

/-- The calls of the bridge, with the mutex of the map and the lock of each entry. -/
inductive Step (finish : UInt64) : Registry → Act → Registry → Prop where
  | call {s : Registry} (op : Op) : Step finish s (.call op) { s with calls := s.calls ++ [.begin op] }
  | lock {s : Registry} {i : Nat} {c : Call} (hc : s.calls[i]? = some c) (hpc : c.pc = .start)
      (free : s.holder = none) : Step finish s (.lock i) ({ s with holder := some i }.put i (c.move .locked))
  | section_ {s : Registry} {i : Nat} {c : Call} (hc : s.calls[i]? = some c) (hpc : c.pc = .locked) :
      Step finish s (.section_ i) (s.section_ finish i c)
  | unlock {s : Registry} {i : Nat} {c : Call} {pc : Pc} (hc : s.calls[i]? = some c) (hpc : c.unlocked = some pc) :
      Step finish s (.unlock i) ({ s with holder := none }.put i (c.move pc))
  | read {s : Registry} {i e : Nat} {c : Call} {id : HandleId} {entry : Entry} (hc : s.calls[i]? = some c)
      (hpc : c.pc = .waiting) (hop : c.op = .runCommand id) (he : c.entry = some e) (hentry : s.heap[e]? = some entry)
      (free : entry.lock.admitsReader = true) :
      Step finish s (.guard i) ((s.relock e entry entry.lock.read).put i (c.move .guarded))
  | write {s : Registry} {i e : Nat} {c : Call} {id : HandleId} {entry : Entry} (hc : s.calls[i]? = some c)
      (hpc : c.pc = .waiting) (hop : c.op = .close id) (he : c.entry = some e) (hentry : s.heap[e]? = some entry)
      (free : entry.lock.admitsWriter = true) :
      Step finish s (.guard i) ((s.relock e entry entry.lock.write).put i (c.move .guarded))
  /-- The slot is empty. -/
  | refuse {s : Registry} {i e : Nat} {c : Call} {id : HandleId} {entry : Entry} (hc : s.calls[i]? = some c)
      (hpc : c.pc = .guarded) (hid : c.op.id = some id) (he : c.entry = some e) (hentry : s.heap[e]? = some entry)
      (empty : entry.client = none) :
      Step finish s (.enter i) (s.put i (c.move (.leaving (.failed (closed id)))))
  | command {s : Registry} {i e client : Nat} {c : Call} {id : HandleId} {entry : Entry} (hc : s.calls[i]? = some c)
      (hpc : c.pc = .guarded) (hop : c.op = .runCommand id) (he : c.entry = some e) (hentry : s.heap[e]? = some entry)
      (slot : entry.client = some client) : Step finish s (.enter i) (s.put i (c.enter client))
  /-- `close` takes the client out of the slot. -/
  | shutdown {s : Registry} {i e client : Nat} {c : Call} {id : HandleId} {entry : Entry} (hc : s.calls[i]? = some c)
      (hpc : c.pc = .guarded) (hop : c.op = .close id) (he : c.entry = some e) (hentry : s.heap[e]? = some entry)
      (slot : entry.client = some client) :
      Step finish s (.enter i) ({ s with heap := s.heap.set e { entry with client := none } }.put i (c.enter client))
  | spent {s : Registry} {i : Nat} {c : Call} (hc : s.calls[i]? = some c) (hpc : c.pc = .spent) :
      Step finish s (.enter i) (s.put i (c.enter i))
  | answer {s : Registry} {i client : Nat} {c : Call} {outcome : Outcome} (answer : Answer) (hc : s.calls[i]? = some c)
      (hpc : c.pc = .engine client) (houtcome : c.op.outcome answer = some outcome) :
      Step finish s (.answer i) (s.put i (c.move (.leaving outcome)))
  | releaseRead {s : Registry} {i e : Nat} {c : Call} {id : HandleId} {outcome : Outcome} {entry : Entry}
      (hc : s.calls[i]? = some c) (hpc : c.pc = .leaving outcome) (hop : c.op = .runCommand id)
      (he : c.entry = some e) (hentry : s.heap[e]? = some entry) :
      Step finish s (.release i) ((s.relock e entry entry.lock.releaseRead).put i (c.move (.returned outcome)))
  | releaseWrite {s : Registry} {i e : Nat} {c : Call} {id : HandleId} {outcome : Outcome} {entry : Entry}
      (hc : s.calls[i]? = some c) (hpc : c.pc = .leaving outcome) (hop : c.op = .close id)
      (he : c.entry = some e) (hentry : s.heap[e]? = some entry) :
      Step finish s (.release i) ((s.relock e entry entry.lock.releaseWrite).put i (c.move (.returned outcome)))
  /-- `insert` has no guard to release. -/
  | returned {s : Registry} {i : Nat} {c : Call} {outcome : Outcome} (hc : s.calls[i]? = some c)
      (hpc : c.pc = .leaving outcome) (hop : c.op = .insert) :
      Step finish s (.release i) (s.put i (c.move (.returned outcome)))

end Registry

/-- The registry of a process whose tag is drawn from `finish`. -/
def registry (finish : UInt64) : System Registry Registry.Act where
  init s := s = .new
  step := Registry.Step finish

end EmbeddedMongo.Android.Handles
