import EmbeddedMongo.Conc.System
import EmbeddedMongo.Conc.Tally

/-!
# The native runtime

`Runtime` of `embedded-mongodb-sys/native/engine_runtime.cpp`: its constructor, `close`, its
destructor, and the `cleanup` behind all three. Each `Runtime` is its position in `runtimes`. The
calls on one object follow one another, as its owner makes them; those on different objects run on
any threads and interleave statement by statement. What the engine throws is of any type `E`.

`cleaned`, `closes` and the fields of `Cleaning` but `todo` and `failure` are history no step reads.
-/

namespace EmbeddedMongo.Native

open Conc

/-- The members of a `Runtime`, a pointer as whether it is set. -/
structure Flags where
  serviceContext : Bool
  lifecycleStrand : Bool
  storageStarted : Bool
  indexBuildsStarted : Bool
  ownsActiveRuntime : Bool
  deriving DecidableEq, Repr

/-- As the member initialisers leave them. -/
def Flags.unset : Flags := ⟨false, false, false, false, false⟩

/-- `initialize`, cut where a member or a global is set. Each part may throw before that. -/
inductive Init where
  /-- The initialisers, and the directory. -/
  | directory
  | setGlobalServiceContext
  | getGlobalServiceContext
  | processServices
  | lifecycleStrand
  /-- The options and the catalog services. -/
  | catalogServices
  /-- The lock file and the storage engine. -/
  | storageEngine
  | recovery
  deriving DecidableEq, Repr

def initializeParts : List Init :=
  [.directory, .setGlobalServiceContext, .getGlobalServiceContext, .processServices, .lifecycleStrand, .catalogServices,
    .storageEngine, .recovery]

/-- What a part that succeeded leaves set. -/
def Init.mark (flags : Flags) : Init → Flags
  | .getGlobalServiceContext => { flags with serviceContext := true }
  | .lifecycleStrand => { flags with lifecycleStrand := true }
  | .catalogServices => { flags with indexBuildsStarted := true }
  | .storageEngine => { flags with storageStarted := true }
  | .directory | .setGlobalServiceContext | .processServices | .recovery => flags

/-- What `cleanup` attempts. -/
inductive Action where
  | shutDownIndexBuilds
  | clearShardingState
  | closeDatabases
  | shutDownStorage
  | unlockFile
  deriving DecidableEq, Repr

namespace Action

/-- The conditions `cleanup` attempts it under. -/
def due (flags : Flags) : Action → Bool
  | .shutDownIndexBuilds => flags.serviceContext && flags.indexBuildsStarted && flags.lifecycleStrand
  | .clearShardingState | .unlockFile => flags.serviceContext
  | .closeDatabases | .shutDownStorage => flags.serviceContext && flags.storageStarted && flags.lifecycleStrand

/-- The members set before the attempt. -/
def mark (flags : Flags) : Action → Flags
  | .shutDownIndexBuilds => { flags with indexBuildsStarted := false }
  | .shutDownStorage => { flags with storageStarted := false }
  | .clearShardingState | .closeDatabases | .unlockFile => flags

def all : List Action := [.shutDownIndexBuilds, .clearShardingState, .closeDatabases, .shutDownStorage, .unlockFile]

end Action

/-- A statement of `cleanup`. -/
inductive Stmt where
  | attempt (action : Action)
  /-- The strand is reset, the global service context taken down and the pointer to it cleared. -/
  | dropContext
  /-- `runtimeActive` is given back, with `runtimeMutex` held. -/
  | release
  deriving DecidableEq, Repr

/-- `cleanup`, statement by statement. -/
def cleanup : List Stmt := Action.all.map .attempt ++ [.dropContext, .release]

/-- Who called `cleanup`. -/
inductive Caller (E : Type) where
  /-- The constructor, `initialize` having thrown. -/
  | constructor (e : E)
  | close
  | destructor
  deriving DecidableEq, Repr

/-- A `cleanup` under way. -/
structure Cleaning (E : Type) where
  caller : Caller E
  todo : List Stmt
  failure : Option E
  /-- The members as `cleanup` found them. -/
  found : Flags
  /-- What was attempted, and what it threw. -/
  ran : List (Action × Option E)
  deriving DecidableEq, Repr

/-- Where a runtime is. -/
inductive Pc (E : Type) where
  /-- The constructor threw that only one runtime may be open. -/
  | refused
  | initializing (todo : List Init)
  /-- Constructed, and in no call. -/
  | constructed
  | cleaning (c : Cleaning E)
  /-- The constructor rethrew. -/
  | failed (e : E)
  | destroyed
  deriving DecidableEq, Repr

/-- `EmbeddedMongo`, the C++ object. -/
structure Runtime (E : Type) where
  flags : Flags
  pc : Pc E
  /-- A `cleanup` has come to its end. -/
  cleaned : Bool
  /-- What each `close` so far threw. -/
  closes : List (Option E)
  deriving DecidableEq, Repr

/-- The process: `runtimeActive`, whose service context is the global one, and the runtimes. -/
structure Process (E : Type) where
  runtimeActive : Bool
  globalServiceContext : Option Nat
  runtimes : List (Runtime E)

variable {E : Type}

def Cleaning.begin (caller : Caller E) (flags : Flags) : Cleaning E where
  caller := caller
  todo := cleanup
  failure := none
  found := flags
  ran := []

namespace Process

/-- The constructor, up to where it releases `runtimeMutex`. -/
def construct (p : Process E) : Process E :=
  if p.runtimeActive = true then
    { p with runtimes := p.runtimes ++ [⟨.unset, .refused, false, []⟩] }
  else
    { p with
      runtimeActive := true
      runtimes := p.runtimes ++ [⟨{ Flags.unset with ownsActiveRuntime := true }, .initializing initializeParts, false, []⟩] }

/-- A part of `initialize` that does not throw. -/
def initialized (i : Nat) (r : Runtime E) (part : Init) (todo : List Init) (p : Process E) : Process E :=
  { p with
    globalServiceContext := if part = .setGlobalServiceContext then some i else p.globalServiceContext
    runtimes := p.runtimes.set i { r with flags := part.mark r.flags, pc := .initializing todo } }

/-- The next statement of `cleanup`; `thrown` is what an attempt throws. -/
def statement (i : Nat) (r : Runtime E) (c : Cleaning E) (thrown : Option E) (todo : List Stmt) (p : Process E) :
    Stmt → Process E
  | .attempt action =>
    if action.due r.flags = true then
      { p with
        runtimes := p.runtimes.set i
          { r with
            flags := action.mark r.flags
            pc := .cleaning { c with todo := todo, failure := c.failure.or thrown, ran := c.ran ++ [(action, thrown)] } } }
    else { p with runtimes := p.runtimes.set i { r with pc := .cleaning { c with todo := todo } } }
  | .dropContext =>
    { p with
      globalServiceContext := if r.flags.serviceContext = true then none else p.globalServiceContext
      runtimes := p.runtimes.set i
        { r with
          flags :=
            if r.flags.serviceContext = true then { r.flags with lifecycleStrand := false, serviceContext := false }
            else r.flags
          pc := .cleaning { c with todo := todo } } }
  | .release =>
    { p with
      runtimeActive := if r.flags.ownsActiveRuntime = true then false else p.runtimeActive
      runtimes := p.runtimes.set i
        { r with flags := { r.flags with ownsActiveRuntime := false }, pc := .cleaning { c with todo := todo } } }

end Process

/-- The end of `cleanup`: the failure is rethrown to `close` alone. -/
def Runtime.finish (r : Runtime E) (c : Cleaning E) : Runtime E :=
  match c.caller with
  | .constructor e => { r with pc := .failed e, cleaned := true }
  | .close => { r with pc := .constructed, cleaned := true, closes := r.closes ++ [c.failure] }
  | .destructor => { r with pc := .destroyed, cleaned := true }

/-- Who moves. -/
inductive Act (E : Type) where
  | construct
  | part (runtime : Nat) (thrown : Option E)
  | constructed (runtime : Nat)
  | close (runtime : Nat)
  | destroy (runtime : Nat)
  | statement (runtime : Nat) (thrown : Option E)
  | finish (runtime : Nat)
  deriving DecidableEq, Repr

/-- The constructor, `close`, the destructor and `cleanup`, a statement at a time. -/
inductive Step : Process E → Act E → Process E → Prop where
  | construct {p : Process E} : Step p .construct p.construct
  | part {p : Process E} {i : Nat} {r : Runtime E} {part : Init} {todo : List Init}
      (hr : p.runtimes[i]? = some r) (pc : r.pc = .initializing (part :: todo)) :
      Step p (.part i none) (p.initialized i r part todo)
  | partThrows {p : Process E} {i : Nat} {r : Runtime E} {part : Init} {todo : List Init} (e : E)
      (hr : p.runtimes[i]? = some r) (pc : r.pc = .initializing (part :: todo)) :
      Step p (.part i (some e))
        { p with runtimes := p.runtimes.set i { r with pc := .cleaning (.begin (.constructor e) r.flags) } }
  | constructed {p : Process E} {i : Nat} {r : Runtime E} (hr : p.runtimes[i]? = some r) (pc : r.pc = .initializing []) :
      Step p (.constructed i) { p with runtimes := p.runtimes.set i { r with pc := .constructed } }
  | close {p : Process E} {i : Nat} {r : Runtime E} (hr : p.runtimes[i]? = some r) (pc : r.pc = .constructed) :
      Step p (.close i) { p with runtimes := p.runtimes.set i { r with pc := .cleaning (.begin .close r.flags) } }
  | destroy {p : Process E} {i : Nat} {r : Runtime E} (hr : p.runtimes[i]? = some r) (pc : r.pc = .constructed) :
      Step p (.destroy i) { p with runtimes := p.runtimes.set i { r with pc := .cleaning (.begin .destructor r.flags) } }
  | statement {p : Process E} {i : Nat} {r : Runtime E} {c : Cleaning E} {stmt : Stmt} {todo : List Stmt}
      (thrown : Option E) (hr : p.runtimes[i]? = some r) (pc : r.pc = .cleaning c) (htodo : c.todo = stmt :: todo) :
      Step p (.statement i thrown) (p.statement i r c thrown todo stmt)
  | finish {p : Process E} {i : Nat} {r : Runtime E} {c : Cleaning E} (hr : p.runtimes[i]? = some r)
      (pc : r.pc = .cleaning c) (htodo : c.todo = []) :
      Step p (.finish i) { p with runtimes := p.runtimes.set i (r.finish c) }

/-- A process before its first runtime. -/
def Process.start : Process E where
  runtimeActive := false
  globalServiceContext := none
  runtimes := []

/-- A process and its runtimes. -/
def process (E : Type) : System (Process E) (Act E) where
  init p := p = .start
  step := Step

end EmbeddedMongo.Native
