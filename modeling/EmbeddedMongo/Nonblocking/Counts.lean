import EmbeddedMongo.Nonblocking.Workers

/-!
# The worker counts are exact

`alive`, `pending` and `idle` in the pool's state against the workers, tasks and the opening
thread they count. `alive` counts a worker from its reservation until it retires by itself or
fails to start; a `Stop` retires its worker without uncounting it.
-/

namespace EmbeddedMongo.Nonblocking

open Conc

variable {ρ : Type} {limits : Concurrency} {close : Answer}

namespace Worker

/-- Counted in `alive`. -/
def counted : Worker ρ → Nat
  | .spawned | .ready | .parked _ _ | .woken _ | .running _ | .retiring _ _ => 1
  | .retired => 0

/-- Counted in `pending`. -/
def arriving : Worker ρ → Nat
  | .spawned => 1
  | .ready | .parked _ _ | .woken _ | .running _ | .retiring _ _ | .retired => 0

/-- Counted in `idle`. -/
def idle : Worker ρ → Nat
  | .parked _ _ | .woken _ => 1
  | .spawned | .ready | .running _ | .retiring _ _ | .retired => 0

/-- Has still to come to the queue for a `Stop`, should there be one for it. -/
def owed : Worker ρ → Nat
  | .spawned | .ready | .parked _ _ | .woken _ | .running _ => 1
  | .retiring _ _ | .retired => 0

/-- Was handed a `Stop`. -/
def stopped : Worker ρ → Nat
  | .retiring _ _ => 1
  | .spawned | .ready | .parked _ _ | .woken _ | .running _ | .retired => 0

end Worker

/-- The call holds the count of a worker whose thread does not exist. -/
def Start.reserving : Start → Nat
  | .spawn _ | .refused => 1
  | .started | .leaving | .retiring _ _ | .returned => 0

def Task.reserving : Task → Nat
  | .queued spawn => spawn.toList.length
  | .starting _ start => start.reserving
  | .closing | .abandoning | .returned => 0

@[simp] theorem Task.reserving_notified (spawn : Option Nat) :
    (Task.notified spawn).reserving = (Task.queued spawn).reserving := by
  cases spawn <;> rfl

/-- Workers counted and without a thread of their own. -/
def Sys.reserved (s : Sys ρ) : Nat := tally Task.reserving s.tasks + s.opener.reserving

theorem tally_counted (l : List (Worker ρ)) :
    tally Worker.counted l = tally Worker.owed l + tally Worker.stopped l := by
  rw [← tally_add]
  congr 1
  funext w
  cases w <;> rfl

/-- A weight that does not tell a parked worker from a woken one survives a `notify_all`. -/
theorem tally_wakeAll {f : Worker ρ → Nat} (hf : ∀ since remaining, f (.woken since) = f (.parked since remaining))
    (l : List (Worker ρ)) : tally f (Sys.wakeAll l) = tally f l := by
  induction l with
  | nil => rfl
  | cons w l ih =>
    rw [Sys.wakeAll, List.map_cons, tally_cons, tally_cons, ← Sys.wakeAll, ih]
    cases w with
    | parked since remaining => rw [hf since remaining]
    | _ => rfl

/-- The counts of the pool's state are those of its parties. -/
structure Counted (s : Sys ρ) : Prop where
  alive : s.pool.alive = tally Worker.counted s.workers + s.reserved
  pending : s.pool.pending = tally Worker.arriving s.workers + s.reserved
  idle : s.pool.idle = tally Worker.idle s.workers

theorem Counted.initial : Counted (Sys.initial : Sys ρ) := ⟨rfl, rfl, rfl⟩

theorem Counted.entered {s : Sys ρ} {w : Nat} (h : Counted s) (hw : s.workers[w]? = some .ready) :
    Counted (s.entered w) := by
  obtain ⟨alive, pending, idle⟩ := h
  refine ⟨?_, ?_, ?_⟩
  · simpa [Sys.entered, State.waiting, Sys.reserved, tally_set_eq hw, Worker.counted] using alive
  · simpa [Sys.entered, State.waiting, Sys.reserved, tally_set_eq hw, Worker.arriving] using pending
  · simpa [Sys.entered, State.waiting, tally_set_eq hw, Worker.idle] using idle

theorem Counted.turned {s s' : Sys ρ} {w : Nat} {since : Option Nat} (h : Counted s)
    (hw : s.workers[w]? = some (.woken since)) (ht : Turned limits w s s') : Counted s' := by
  obtain ⟨alive, pending, idle⟩ := h
  have hc := le_tally Worker.counted hw
  have hi := le_tally Worker.idle hw
  simp only [Worker.counted, Worker.idle] at hc hi
  simp only [Sys.reserved] at alive pending
  cases ht <;> refine ⟨?_, ?_, ?_⟩ <;>
    simp only [Sys.reserved, State.retired, tally_set_eq hw, Worker.counted, Worker.arriving, Worker.idle] <;>
    omega

theorem Counted.step {s s' : Sys ρ} {a : Act ρ} (h : Counted s) (hs : Step limits close s a s') :
    Counted s' := by
  have ⟨alive, pending, idle⟩ := h
  simp only [Sys.reserved] at alive pending
  cases hs with
  | tick | cloneEngine | dropEngine | dispatchRefused | closeRefused => exact ⟨alive, pending, idle⟩
  | openFailed ho | openDone ho | report ho | floorStarted ho =>
    simp only [ho, Opener.reserving] at alive pending
    exact ⟨alive, pending, idle⟩
  | reserveFirst ho | reserveFloor ho =>
    simp only [ho, Opener.reserving] at alive pending
    refine ⟨?_, ?_, idle⟩ <;>
      simp only [Sys.reserved, State.reserve, Opener.reserving, tally_append, tally_cons, tally_nil,
        Task.reserving, Start.reserving] <;> omega
  | publish ho =>
    simp only [ho, Opener.reserving] at alive pending
    unfold State.publish
    split <;> exact ⟨alive, pending, idle⟩
  | serve ho =>
    simp only [ho, Opener.reserving] at alive pending
    refine ⟨?_, ?_, ?_⟩ <;>
      simp only [Sys.reserved, Opener.reserving, tally_append, tally_cons, tally_nil, Worker.counted,
        Worker.arriving, Worker.idle] <;> omega
  | dropLast =>
    unfold State.abandon
    split <;>
      exact ⟨by simpa [Sys.reserved, Task.reserving] using alive,
        by simpa [Sys.reserved, Task.reserving] using pending, idle⟩
  | @dispatch _ spawn _ _ _ ok =>
    obtain ⟨-, -, -, -, hidle, hgrow⟩ := State.queueJob_ok ok
    have hlen : (spawn.map Spawn.index).toList.length = spawn.toList.length := by cases spawn <;> rfl
    refine ⟨?_, ?_, hidle.trans idle⟩ <;>
      simp only [Sys.reserved, tally_append, tally_cons, tally_nil, Task.reserving, hlen] <;>
      rcases hgrow with ⟨rfl, ha, hp⟩ | ⟨hsome, -, -, ha, hp⟩ <;>
      (try obtain ⟨sp, rfl⟩ := Option.isSome_iff_exists.1 hsome) <;>
      simp only [Option.toList_none, Option.toList_some, List.length_nil, List.length_cons] <;> omega
  | close _ _ ok =>
    obtain ⟨-, -, rfl⟩ := State.beginClose_ok ok
    exact ⟨by simpa [Sys.reserved, Task.reserving] using alive,
      by simpa [Sys.reserved, Task.reserving] using pending, idle⟩
  | notifyOne ht hw =>
    refine ⟨?_, ?_, ?_⟩ <;>
      simp only [Sys.reserved, tally_set_eq ht, tally_set_eq hw, Task.reserving_notified, Worker.counted,
        Worker.arriving, Worker.idle] <;> omega
  | notifyNobody ht =>
    refine ⟨?_, ?_, idle⟩ <;>
      simp only [Sys.reserved, tally_set_eq ht, Task.reserving_notified] <;> omega
  | notifyAll ht owed =>
    rcases owed with rfl | rfl <;> refine ⟨?_, ?_, ?_⟩ <;>
      simp only [Sys.reserved, tally_set_eq ht, Task.reserving] <;>
      rw [tally_wakeAll fun _ _ => rfl] <;> omega
  | spawnOk ht =>
    have := le_tally Task.reserving ht
    simp only [Task.reserving, Start.reserving] at this
    refine ⟨?_, ?_, ?_⟩ <;>
      simp only [Sys.reserved, tally_set_eq ht, tally_append, tally_cons, tally_nil, Task.reserving,
        Start.reserving, Worker.counted, Worker.arriving, Worker.idle] <;> omega
  | spawnErr ht =>
    refine ⟨?_, ?_, idle⟩ <;>
      simp only [Sys.reserved, tally_set_eq ht, Task.reserving, Start.reserving] <;> omega
  | spawnFailedNone ht | spawnFailedSome ht =>
    obtain ⟨ha, hp, hi, -, -⟩ := State.spawnFailed_counts s.pool
    have := le_tally Task.reserving ht
    simp only [Task.reserving, Start.reserving] at this
    refine ⟨?_, ?_, hi.trans idle⟩ <;>
      simp only [Sys.reserved, tally_set_eq ht, Task.reserving, Start.reserving] <;> omega
  | leave ht last =>
    rcases last with rfl | rfl <;> refine ⟨?_, ?_, idle⟩ <;>
      simp only [Sys.reserved, tally_set_eq ht, Task.reserving, Start.reserving] <;> omega
  | retireTask ht =>
    refine ⟨?_, ?_, idle⟩ <;>
      simp only [Sys.reserved, tally_set_eq ht, Task.reserving, Start.reserving] <;> omega
  | arrive hw =>
    have := le_tally Worker.arriving hw
    simp only [Worker.arriving] at this
    refine ⟨?_, ?_, ?_⟩ <;>
      simp only [State.arrived, Sys.reserved, tally_set_eq hw, Worker.counted, Worker.arriving,
        Worker.idle] <;> omega
  | enter hw => exact (h.entered hw).turned (Sys.entered_worker hw) (turned_cases limits none _ _)
  | turn hw => exact h.turned hw (turned_cases limits _ _ _)
  | wake hw | finish hw | retireWorker hw =>
    refine ⟨?_, ?_, ?_⟩ <;>
      simp only [Sys.reserved, tally_set_eq hw, Worker.counted, Worker.arriving, Worker.idle] <;> omega

/-- **The counts are exact** in every reachable state. -/
theorem counted_of_reach {s : Sys ρ} (h : (pool ρ limits close).Reach s) : Counted s :=
  h.induct (fun _ hi => hi ▸ Counted.initial) fun _ _ _ _ hi hs => hi.step hs

end EmbeddedMongo.Nonblocking
