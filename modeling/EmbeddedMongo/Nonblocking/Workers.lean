import EmbeddedMongo.Conc.System
import EmbeddedMongo.Conc.Tally
import EmbeddedMongo.Nonblocking.Queue
import EmbeddedMongo.Nonblocking.Shutdown

/-!
# The async worker pool as a step system

`src/nonblocking/workers.rs` and `engine.rs`: the thread that opens the engine (`start`), the
workers it and the dispatching tasks start (`start_worker`, `serve`), the tasks that dispatch,
close or drop the last `Engine`, and the pool they share. A step is one atomic section: the
code a party runs with the pool's mutex, the vault's mutex or the counter held, a notification,
or a thread spawn. Every interleaving of these is a run.

A worker is its position in `workers`, a task its position in `tasks`. A call of
`start_worker` is a task of its own, of a dispatching task or of the opening thread, which
goes on when the call has returned. The last four fields of `Sys` are history no step reads.
-/

namespace EmbeddedMongo.Nonblocking

open Conc

/-- The thread `start` spawns, up to where it becomes a worker like any other. -/
inductive Opener where
  | opening
  | failed
  | opened
  /-- In the loop over the floor, `left` workers to go, inside `start_worker` for `call`. -/
  | flooring (left : Nat) (call : Option Nat)
  | published
  | reported
  | serving
  deriving DecidableEq, Repr

/-- A thread inside `serve`. -/
inductive Worker (ρ : Type) where
  /-- Spawned, before `worker_ready`. -/
  | spawned
  /-- Outside `next_job`, about to call it. -/
  | ready
  | parked (sparableSince : Option Nat) (remaining : Option Nat)
  /-- Back from the condvar, about to regain the lock. -/
  | woken (sparableSince : Option Nat)
  | running (operation : ρ)
  /-- Answered a `Stop`, inside `retire`; `done` is a thread that has ended. -/
  | retiring (shutdown : Nat) (stage : Retire)
  /-- Answered `None` by `next_job`. -/
  | retired
  deriving DecidableEq

/-- A call of `start_worker`. -/
inductive Start where
  | spawn (index : Nat)
  /-- The thread is running; the caller's own handle goes when the call returns. -/
  | started
  | refused
  /-- `spawn_failed` answered `None`; the handle goes when the call returns. -/
  | leaving
  | retiring (shutdown : Nat) (stage : Retire)
  | returned
  deriving DecidableEq

inductive Caller where
  | opener
  | engine
  deriving DecidableEq, Repr

/-- A call that reached the pool through an `Engine`, or the opening thread's `start_worker`. -/
inductive Task where
  /-- `queue_job` accepted the job; the `notify_one` is still to be sent. -/
  | queued (spawn : Option Nat)
  | starting (caller : Caller) (start : Start)
  /-- The phase is set; the `notify_all` is still to be sent. -/
  | closing
  | abandoning
  | returned
  deriving DecidableEq

inductive Party where
  | worker (worker : Nat)
  | task (task : Nat)
  deriving DecidableEq, Repr

structure Sys (ρ : Type) where
  pool : State Arc ρ Nat
  now : Nat
  opener : Opener
  /-- `Engine` clones outstanding; the last to drop abandons the pool. -/
  engines : Nat
  /-- The open reported success. -/
  ready : Bool
  workers : List (Worker ρ)
  tasks : List Task
  shutdowns : List Shutdown
  /-- The operations `queue_job` accepted, in order. -/
  accepted : List ρ
  /-- What `take_job` handed out, to whom, in order. -/
  handed : List (Nat × Job ρ Nat)
  /-- Who consumed a `Stop`. -/
  consumed : List Party
  /-- What was sent to closers. -/
  answers : List Answer

/-! ## Handles on the engine, place by place -/

namespace Opener

/-- The opening thread's own handle. -/
def handles : Opener → Nat
  | .opened | .flooring _ _ | .published | .reported => 1
  | .opening | .failed | .serving => 0

/-- The thread has counted itself as the first worker and is not one yet. -/
def reserving : Opener → Nat
  | .flooring _ _ | .published | .reported => 1
  | .opening | .failed | .opened | .serving => 0

end Opener

namespace Worker

variable {ρ : Type}

def handles : Worker ρ → Nat
  | .spawned | .ready | .parked _ _ | .woken _ | .running _ => 1
  | .retiring _ stage => stage.handles
  | .retired => 0

end Worker

namespace Start

def handles : Start → Nat
  | .spawn _ | .started | .refused | .leaving => 1
  | .retiring _ stage => stage.handles
  | .returned => 0

/-- The call is over. -/
def isOver : Start → Bool
  | .retiring _ .done | .returned => true
  | _ => false

end Start

namespace Task

def handles : Task → Nat
  | .queued spawn => spawn.toList.length
  | .starting _ start => start.handles
  | .closing | .abandoning | .returned => 0

/-- A dispatch whose notification has been sent: it starts the worker it was asked for. -/
def notified : Option Nat → Task
  | some index => .starting .engine (.spawn index)
  | none => .returned

/-- The task is inside a call on an `Engine`, which therefore is not the last to drop. -/
def borrows : Task → Bool
  | .queued _ => true
  | .starting .engine start => !start.isOver
  | .starting .opener _ | .closing | .abandoning | .returned => false

end Task

namespace Sys

variable {ρ : Type}

/-- The strong count of the `Arc<Client>`: every handle on the engine there is. -/
def handles (s : Sys ρ) : Nat :=
  s.pool.client.toList.length + s.opener.handles + tally Worker.handles s.workers +
    tally Task.handles s.tasks + tally (fun d : Shutdown => d.handles.length) s.shutdowns

/-- The pool as `start` hands it to the thread it spawns, with the `Engine` its caller
already built. -/
def initial : Sys ρ where
  pool := .new
  now := 0
  opener := .opening
  engines := 1
  ready := false
  workers := []
  tasks := []
  shutdowns := []
  accepted := []
  handed := []
  consumed := []
  answers := []

/-- A worker in `next_job`, counted as waiting, before its first look at the queue. It holds
the lock from here to the end of that pass, so this state is part of a step and never seen. -/
def entered (w : Nat) (s : Sys ρ) : Sys ρ :=
  { s with pool := s.pool.waiting, workers := s.workers.set w (.woken none) }

theorem entered_worker {s : Sys ρ} {w : Nat} {a : Worker ρ} (hw : s.workers[w]? = some a) :
    (s.entered w).workers[w]? = some (.woken none) := by
  obtain ⟨hlt, -⟩ := List.getElem?_eq_some_iff.1 hw
  simp [entered, hlt]

/-- The worker `w`, sparable since `since`, after a pass of `next_job`'s loop. A `Run` it goes
on to run; a `Stop` it answers by retiring with the handle it was holding. -/
def turned (limits : Concurrency) (since : Option Nat) (w : Nat) (s : Sys ρ) : Sys ρ :=
  match s.pool.turn limits s.now since with
  | (.job (.run operation), pool) =>
    { s with
      pool := pool
      workers := s.workers.set w (.running operation)
      handed := s.handed ++ [(w, .run operation)] }
  | (.job (.stop shutdown), pool) =>
    { s with
      pool := pool
      workers := s.workers.set w (.retiring shutdown .deposit)
      handed := s.handed ++ [(w, .stop shutdown)]
      consumed := s.consumed ++ [.worker w] }
  | (.retire, pool) => { s with pool := pool, workers := s.workers.set w .retired }
  | (.park since remaining, pool) =>
    { s with pool := pool, workers := s.workers.set w (.parked since remaining) }

/-- `notify_all`: every parked worker returns from its wait. -/
def wakeAll (workers : List (Worker ρ)) : List (Worker ρ) :=
  workers.map fun
    | .parked since _ => .woken since
    | w => w

end Sys

/-- Who moves, and how. -/
inductive Act (ρ : Type) where
  | tick (nanos : Nat)
  | openFailed
  | openDone
  | reserveFirst
  | reserveFloor
  | floorStarted
  | publish
  | report
  | serve
  | cloneEngine
  | dropEngine
  | dispatch (operation : ρ)
  | close
  | notifyOne (task : Nat) (worker : Option Nat)
  | notifyAll (task : Nat)
  | spawn (task : Nat) (started : Bool)
  | spawnFailed (task : Nat)
  | leave (task : Nat)
  | retire (party : Party)
  | arrive (worker : Nat)
  | enter (worker : Nat)
  | wake (worker : Nat)
  | turn (worker : Nat)
  | finish (worker : Nat)
  deriving DecidableEq, Repr

open Sys in
/-- The atomic steps, under the policy `limits` and with `close` what the engine's own close
will say. -/
inductive Step {ρ : Type} (limits : Concurrency) (close : Answer) : Sys ρ → Act ρ → Sys ρ → Prop where
  | tick {s : Sys ρ} (nanos : Nat) : Step limits close s (.tick nanos) { s with now := s.now + nanos }
  -- `start`, on the thread it spawned
  | openFailed {s : Sys ρ} (h : s.opener = .opening) :
      Step limits close s .openFailed { s with opener := .failed }
  | openDone {s : Sys ρ} (h : s.opener = .opening) :
      Step limits close s .openDone { s with opener := .opened }
  | reserveFirst {s : Sys ρ} (h : s.opener = .opened) :
      Step limits close s .reserveFirst
        { s with pool := s.pool.reserve.2, opener := .flooring (limits.min - 1) none }
  | reserveFloor {s : Sys ρ} {left : Nat} (h : s.opener = .flooring (left + 1) none) :
      Step limits close s .reserveFloor
        { s with
          pool := s.pool.reserve.2
          opener := .flooring left (some s.tasks.length)
          tasks := s.tasks ++ [.starting .opener (.spawn s.pool.reserve.1)] }
  | floorStarted {s : Sys ρ} {left t : Nat} {start : Start} (h : s.opener = .flooring left (some t))
      (ht : s.tasks[t]? = some (.starting .opener start)) (ended : start.isOver = true) :
      Step limits close s .floorStarted { s with opener := .flooring left none }
  | publish {s : Sys ρ} (h : s.opener = .flooring 0 none) :
      Step limits close s .publish { s with pool := s.pool.publish .clone, opener := .published }
  | report {s : Sys ρ} (h : s.opener = .published) :
      Step limits close s .report { s with opener := .reported, ready := true }
  | serve {s : Sys ρ} (h : s.opener = .reported) :
      Step limits close s .serve { s with opener := .serving, workers := s.workers ++ [.spawned] }
  -- `Engine`
  | cloneEngine {s : Sys ρ} (ready : s.ready = true) (held : 0 < s.engines) :
      Step limits close s .cloneEngine { s with engines := s.engines + 1 }
  | dropEngine {s : Sys ρ} {n : Nat} (held : s.engines = n + 2) :
      Step limits close s .dropEngine { s with engines := n + 1 }
  | dropLast {s : Sys ρ} (held : s.engines = 1) (free : ∀ t ∈ s.tasks, t.borrows = false) :
      Step limits close s .dropEngine
        { s with engines := 0, pool := s.pool.abandon, tasks := s.tasks ++ [.abandoning] }
  | dispatch {s : Sys ρ} {operation : ρ} {spawn : Option (Spawn Arc)} {pool : State Arc ρ Nat}
      (ready : s.ready = true) (held : 0 < s.engines)
      (ok : s.pool.queueJob (.run operation) limits.max = .ok (spawn, pool)) :
      Step limits close s (.dispatch operation)
        { s with
          pool := pool
          tasks := s.tasks ++ [.queued (spawn.map Spawn.index)]
          accepted := s.accepted ++ [operation] }
  | dispatchRefused {s : Sys ρ} {operation : ρ} {e : Error} (ready : s.ready = true)
      (held : 0 < s.engines) (refused : s.pool.queueJob (.run operation) limits.max = .error e) :
      Step limits close s (.dispatch operation) s
  | close {s : Sys ρ} {pool : State Arc ρ Nat} (ready : s.ready = true) (held : 0 < s.engines)
      (ok : s.pool.beginClose (fun _ => s.shutdowns.length) = .ok pool) :
      Step limits close s .close
        { s with
          pool := pool
          shutdowns := s.shutdowns ++ [.new s.pool.alive]
          tasks := s.tasks ++ [.closing] }
  | closeRefused {s : Sys ρ} {e : Error} (ready : s.ready = true) (held : 0 < s.engines)
      (refused : s.pool.beginClose (fun _ => s.shutdowns.length) = .error e) :
      Step limits close s .close s
  -- notifications, each after the lock its sender held
  | notifyOne {s : Sys ρ} {t w : Nat} {spawn : Option Nat} {since remaining : Option Nat}
      (ht : s.tasks[t]? = some (.queued spawn)) (hw : s.workers[w]? = some (.parked since remaining)) :
      Step limits close s (.notifyOne t (some w))
        { s with
          tasks := s.tasks.set t (.notified spawn)
          workers := s.workers.set w (.woken since) }
  | notifyNobody {s : Sys ρ} {t : Nat} {spawn : Option Nat} (ht : s.tasks[t]? = some (.queued spawn))
      (nobody : ∀ w ∈ s.workers, ∀ since remaining, w ≠ .parked since remaining) :
      Step limits close s (.notifyOne t none)
        { s with tasks := s.tasks.set t (.notified spawn) }
  | notifyAll {s : Sys ρ} {t : Nat} {task : Task} (ht : s.tasks[t]? = some task)
      (owed : task = .closing ∨ task = .abandoning) :
      Step limits close s (.notifyAll t)
        { s with tasks := s.tasks.set t .returned, workers := wakeAll s.workers }
  -- `start_worker`
  | spawnOk {s : Sys ρ} {t index : Nat} {caller : Caller}
      (ht : s.tasks[t]? = some (.starting caller (.spawn index))) :
      Step limits close s (.spawn t true)
        { s with tasks := s.tasks.set t (.starting caller .started), workers := s.workers ++ [.spawned] }
  | spawnErr {s : Sys ρ} {t index : Nat} {caller : Caller}
      (ht : s.tasks[t]? = some (.starting caller (.spawn index))) :
      Step limits close s (.spawn t false) { s with tasks := s.tasks.set t (.starting caller .refused) }
  | spawnFailedNone {s : Sys ρ} {t : Nat} {caller : Caller}
      (ht : s.tasks[t]? = some (.starting caller .refused)) (unclaimed : s.pool.spawnFailed.1 = none) :
      Step limits close s (.spawnFailed t)
        { s with pool := s.pool.spawnFailed.2, tasks := s.tasks.set t (.starting caller .leaving) }
  | spawnFailedSome {s : Sys ρ} {t shutdown : Nat} {caller : Caller}
      (ht : s.tasks[t]? = some (.starting caller .refused))
      (claimed : s.pool.spawnFailed.1 = some shutdown) :
      Step limits close s (.spawnFailed t)
        { s with
          pool := s.pool.spawnFailed.2
          tasks := s.tasks.set t (.starting caller (.retiring shutdown .deposit))
          consumed := s.consumed ++ [.task t] }
  | leave {s : Sys ρ} {t : Nat} {caller : Caller} {start : Start}
      (ht : s.tasks[t]? = some (.starting caller start)) (last : start = .started ∨ start = .leaving) :
      Step limits close s (.leave t) { s with tasks := s.tasks.set t (.starting caller .returned) }
  | retireTask {s : Sys ρ} {t shutdown : Nat} {caller : Caller} {stage : Retire} {d : Shutdown}
      (ht : s.tasks[t]? = some (.starting caller (.retiring shutdown stage))) (more : stage ≠ .done)
      (hd : s.shutdowns[shutdown]? = some d) :
      Step limits close s (.retire (.task t))
        { s with
          tasks := s.tasks.set t (.starting caller (.retiring shutdown (d.retire close s.handles stage).2.1))
          shutdowns := s.shutdowns.set shutdown (d.retire close s.handles stage).1
          answers := s.answers ++ (d.retire close s.handles stage).2.2.toList }
  -- `serve`
  | arrive {s : Sys ρ} {w : Nat} (hw : s.workers[w]? = some .spawned) :
      Step limits close s (.arrive w)
        { s with pool := s.pool.arrived, workers := s.workers.set w .ready }
  | enter {s : Sys ρ} {w : Nat} (hw : s.workers[w]? = some .ready) :
      Step limits close s (.enter w) (turned limits none w (entered w s))
  | wake {s : Sys ρ} {w : Nat} {since remaining : Option Nat}
      (hw : s.workers[w]? = some (.parked since remaining)) :
      Step limits close s (.wake w) { s with workers := s.workers.set w (.woken since) }
  | turn {s : Sys ρ} {w : Nat} {since : Option Nat} (hw : s.workers[w]? = some (.woken since)) :
      Step limits close s (.turn w) (turned limits since w s)
  -- a job that panics is caught, so both ends of a job are this one
  | finish {s : Sys ρ} {w : Nat} {operation : ρ} (hw : s.workers[w]? = some (.running operation)) :
      Step limits close s (.finish w) { s with workers := s.workers.set w .ready }
  | retireWorker {s : Sys ρ} {w shutdown : Nat} {stage : Retire} {d : Shutdown}
      (hw : s.workers[w]? = some (.retiring shutdown stage)) (more : stage ≠ .done)
      (hd : s.shutdowns[shutdown]? = some d) :
      Step limits close s (.retire (.worker w))
        { s with
          workers := s.workers.set w (.retiring shutdown (d.retire close s.handles stage).2.1)
          shutdowns := s.shutdowns.set shutdown (d.retire close s.handles stage).1
          answers := s.answers ++ (d.retire close s.handles stage).2.2.toList }

/-- What a pass of `next_job` comes to, with the guards it was made under. -/
inductive Turned {ρ : Type} (limits : Concurrency) (w : Nat) (s : Sys ρ) : Sys ρ → Prop where
  | run {operation : ρ} {rest : List (Job ρ Nat)} (queue : s.pool.queue = .run operation :: rest) :
      Turned limits w s
        { s with
          pool := { s.pool with queue := rest, idle := s.pool.idle - 1 }
          workers := s.workers.set w (.running operation)
          handed := s.handed ++ [(w, .run operation)] }
  | stop {shutdown : Nat} {rest : List (Job ρ Nat)} (queue : s.pool.queue = .stop shutdown :: rest) :
      Turned limits w s
        { s with
          pool := { s.pool with queue := rest, idle := s.pool.idle - 1 }
          workers := s.workers.set w (.retiring shutdown .deposit)
          handed := s.handed ++ [(w, .stop shutdown)]
          consumed := s.consumed ++ [.worker w] }
  | retire (queue : s.pool.queue = [])
      (spare : s.pool.phase = .abandoned ∨ s.pool.phase = .opened ∧ limits.min < s.pool.serving) :
      Turned limits w s { s with pool := s.pool.retired, workers := s.workers.set w .retired }
  | park {since remaining : Option Nat} (queue : s.pool.queue = []) (phase : s.pool.phase ≠ .abandoned) :
      Turned limits w s { s with workers := s.workers.set w (.parked since remaining) }

theorem turned_cases {ρ : Type} (limits : Concurrency) (since : Option Nat) (w : Nat) (s : Sys ρ) :
    Turned limits w s (s.turned limits since w) := by
  have h := State.turn_cases limits s.now since s.pool
  unfold Sys.turned
  generalize s.pool.turn limits s.now since = t at h
  cases h with
  | @job job rest queue =>
    cases job with
    | run operation => exact .run queue
    | stop shutdown => exact .stop queue
  | retire queue spare => exact .retire queue spare
  | park queue phase => exact .park queue phase

/-- A pass of `next_job` is the worker's and the pool's alone. -/
theorem Turned.same {ρ : Type} {limits : Concurrency} {w : Nat} {s s' : Sys ρ} (h : Turned limits w s s') :
    s'.tasks = s.tasks ∧ s'.opener = s.opener ∧ s'.shutdowns = s.shutdowns ∧ s'.answers = s.answers ∧
      s'.pool.phase = s.pool.phase ∧ s'.pool.client = s.pool.client ∧ s'.accepted = s.accepted := by
  cases h <;> exact ⟨rfl, rfl, rfl, rfl, rfl, rfl, rfl⟩

/-- The async pool from the moment its opening thread is spawned. -/
def pool (ρ : Type) (limits : Concurrency) (close : Answer) : System (Sys ρ) (Act ρ) where
  init s := s = .initial
  step := Step limits close

/-- A pool that has just opened, its first worker on the way to the queue. -/
def Sys.served : Sys Nat :=
  { Sys.initial with
    pool := { (State.new : State Arc Nat Nat) with alive := 1, pending := 1, started := 1, client := some .clone }
    opener := .serving
    ready := true
    workers := [.spawned] }

theorem reach_served {close : Answer} {ok : Sys Nat → Act Nat → Prop}
    (other : ∀ s a, (∀ p, a ≠ .retire p) → ok s a) : (pool Nat .oneToTwo close).ReachIf ok .served := by
  have h : (pool Nat .oneToTwo close).ReachIf ok .initial := .init rfl
  have h := h.step (.openDone rfl) (other _ _ nofun)
  have h := h.step (.reserveFirst rfl) (other _ _ nofun)
  have h := h.step (.publish rfl) (other _ _ nofun)
  have h := h.step (.report rfl) (other _ _ nofun)
  have h := h.step (.serve rfl) (other _ _ nofun)
  exact h

end EmbeddedMongo.Nonblocking
