import EmbeddedMongo.Conc.Monitor
import EmbeddedMongo.Nonblocking.Jobs

/-!
# The wakeups of the worker pool

The `queued` condvar as a monitor whose supply is the queue. Every job accepted owes a
`notify_one`, and the close and the abandon owe a `notify_all`; a worker parks only on an
empty queue, and from the moment the pool leaves its open phase no worker parks at all: under
a close every worker has a `Stop` waiting for it, and an abandoned worker retires instead.
-/

namespace EmbeddedMongo.Nonblocking

open Conc

variable {ρ : Type} {limits : Concurrency} {close : Answer}

namespace Worker

def inWait : Worker ρ → Nat
  | .parked _ _ => 1
  | .spawned | .ready | .woken _ | .running _ | .retiring _ _ | .retired => 0

def isWoken : Worker ρ → Nat
  | .woken _ => 1
  | .spawned | .ready | .parked _ _ | .running _ | .retiring _ _ | .retired => 0

end Worker

namespace Task

/-- Owes a `notify_one`. -/
def owesOne : Task → Nat
  | .queued _ => 1
  | .starting _ _ | .closing | .abandoning | .returned => 0

/-- Owes the `notify_all` of a close. -/
def owesClose : Task → Nat
  | .closing => 1
  | .queued _ | .starting _ _ | .abandoning | .returned => 0

/-- Owes the `notify_all` of an abandon. -/
def owesAbandon : Task → Nat
  | .abandoning => 1
  | .queued _ | .starting _ _ | .closing | .returned => 0

end Task

namespace Sys

/-- Workers parked in `next_job`. -/
def parked (s : Sys ρ) : Nat := tally Worker.inWait s.workers

/-- Workers back from the condvar and not yet back at `take_job`. -/
def woken (s : Sys ρ) : Nat := tally Worker.isWoken s.workers

/-- The pool as its monitor sees it. -/
def monitor (s : Sys ρ) : Monitor where
  supply := s.pool.queue.length
  parked := s.parked
  woken := s.woken
  ones := tally Task.owesOne s.tasks
  alls := tally Task.owesClose s.tasks + tally Task.owesAbandon s.tasks

end Sys

theorem parked_wakeAll (l : List (Worker ρ)) : tally Worker.inWait (Sys.wakeAll l) = 0 := by
  refine tally_eq_zero.2 fun w hw => ?_
  obtain ⟨v, -, rfl⟩ := List.mem_map.1 hw
  cases v <;> rfl

theorem inWait_eq_zero {l : List (Worker ρ)} :
    tally Worker.inWait l = 0 ↔ ∀ w ∈ l, ∀ since remaining, w ≠ .parked since remaining := by
  rw [tally_eq_zero]
  refine forall_congr' fun w => imp_congr_right fun _ => ?_
  cases w with
  | parked since remaining => exact ⟨fun h => absurd h (by simp [Worker.inWait]), fun h => absurd rfl (h _ _)⟩
  | _ => simp [Worker.inWait]

/-- A pass of `next_job` by a worker that was woken. -/
theorem Turned.monitor {s s' : Sys ρ} {w : Nat} {since : Option Nat}
    (hw : s.workers[w]? = some (.woken since)) (ht : Turned limits w s s') :
    Monitor.Step s.monitor s'.monitor := by
  have hwoken := le_tally Worker.isWoken hw
  simp only [Worker.isWoken] at hwoken
  cases ht with
  | run queue | stop queue =>
    refine .takeWoken ?_ ?_ ?_ rfl rfl <;>
      simp [Sys.monitor, Sys.parked, Sys.woken, queue, tally_set_eq hw, Worker.inWait, Worker.isWoken]
    omega
  | retire queue => exact .empty (by simp [Sys.monitor, State.retired, queue])
  | park queue => exact .empty (by simp [Sys.monitor, queue])

/-- A pass of `next_job` by a worker that comes to it from outside. -/
theorem Turned.monitor_entered {s s' : Sys ρ} {w : Nat} (hw : s.workers[w]? = some .ready)
    (ht : Turned limits w (s.entered w) s') : Monitor.Step s.monitor s'.monitor := by
  have hq : (s.entered w).pool.queue = s.pool.queue := rfl
  cases ht with
  | run queue | stop queue =>
    rw [hq] at queue
    refine .take ?_ ?_ ?_ rfl rfl <;>
      simp [Sys.monitor, Sys.parked, Sys.woken, Sys.entered, queue, tally_set_eq hw, Worker.inWait,
        Worker.isWoken]
  | retire queue => exact .empty (by simp [Sys.monitor, State.retired, queue])
  | park queue => exact .empty (by simp [Sys.monitor, queue])

/-- **Each step of the pool is a step of its monitor.** -/
theorem Step.monitor {s s' : Sys ρ} {a : Act ρ} (hs : Step limits close s a s') :
    Monitor.Step s.monitor s'.monitor := by
  have same : ∀ n : Nat, n ≤ n := Nat.le_refl
  cases hs with
  | tick | openFailed | openDone | reserveFirst | floorStarted | report | cloneEngine | dropEngine
  | dispatchRefused | closeRefused => exact .take (same _) rfl rfl rfl rfl
  | publish =>
    unfold State.publish
    split <;> exact .take (same _) rfl rfl rfl rfl
  | reserveFloor =>
    refine .take (same _) rfl rfl ?_ ?_ <;>
      simp [Sys.monitor, Task.owesOne, Task.owesClose, Task.owesAbandon]
  | serve =>
    refine .take (same _) ?_ ?_ rfl rfl <;>
      simp [Sys.monitor, Sys.parked, Sys.woken, Worker.inWait, Worker.isWoken]
  | dropLast =>
    refine .broadcast rfl rfl ?_ ?_ <;>
      simp [Sys.monitor, Task.owesOne, Task.owesClose, Task.owesAbandon]
    omega
  | dispatch _ _ ok =>
    obtain ⟨-, hqueue, -⟩ := State.queueJob_ok ok
    refine .signal ?_ rfl rfl ?_ ?_ <;>
      simp [Sys.monitor, hqueue, Task.owesOne, Task.owesClose, Task.owesAbandon]
  | close _ _ ok =>
    obtain ⟨-, -, rfl⟩ := State.beginClose_ok ok
    refine .broadcast rfl rfl ?_ ?_ <;>
      simp [Sys.monitor, Task.owesOne, Task.owesClose, Task.owesAbandon]
    omega
  | @notifyOne _ _ spawn _ _ ht hw =>
    have hone := le_tally Task.owesOne ht
    have hpark := le_tally Worker.inWait hw
    simp only [Task.owesOne, Worker.inWait] at hone hpark
    cases spawn <;> refine .wakeOne rfl ?_ ?_ ?_ ?_ <;>
      simp [Sys.monitor, Sys.parked, Sys.woken, tally_set_eq ht, tally_set_eq hw, Worker.inWait,
        Worker.isWoken, Task.notified, Task.owesOne, Task.owesClose, Task.owesAbandon] <;> omega
  | @notifyNobody _ spawn ht nobody =>
    have hone := le_tally Task.owesOne ht
    simp only [Task.owesOne] at hone
    cases spawn <;> refine .wakeNone rfl (inWait_eq_zero.2 nobody) rfl ?_ ?_ <;>
      simp [Sys.monitor, tally_set_eq ht, Task.notified, Task.owesOne, Task.owesClose, Task.owesAbandon] <;>
      omega
  | notifyAll => exact .wakeAll (parked_wakeAll _)
  | spawnOk ht =>
    refine .take (same _) ?_ ?_ ?_ ?_ <;>
      simp [Sys.monitor, Sys.parked, Sys.woken, tally_set_eq ht, Worker.inWait, Worker.isWoken,
        Task.owesOne, Task.owesClose, Task.owesAbandon]
  | spawnErr ht | leave ht | retireTask ht =>
    refine .take (same _) rfl rfl ?_ ?_ <;>
      simp [Sys.monitor, tally_set_eq ht, Task.owesOne, Task.owesClose, Task.owesAbandon]
  | spawnFailedNone ht | spawnFailedSome ht =>
    refine .take (State.spawnFailed_length s.pool) rfl rfl ?_ ?_ <;>
      simp [Sys.monitor, tally_set_eq ht, Task.owesOne, Task.owesClose, Task.owesAbandon]
  | arrive hw | finish hw | retireWorker hw =>
    refine .take (same _) ?_ ?_ rfl rfl <;>
      simp [Sys.monitor, Sys.parked, Sys.woken, tally_set_eq hw, Worker.inWait, Worker.isWoken]
  | wake hw =>
    have hpark := le_tally Worker.inWait hw
    simp only [Worker.inWait] at hpark
    refine .spurious rfl ?_ ?_ rfl rfl <;>
      simp [Sys.monitor, Sys.parked, Sys.woken, tally_set_eq hw, Worker.inWait, Worker.isWoken]
    omega
  | enter hw => exact (turned_cases limits none _ _).monitor_entered hw
  | turn hw => exact (turned_cases limits _ _ _).monitor hw

theorem awake_of_reach {s : Sys ρ} (h : (pool ρ limits close).Reach s) : s.monitor.Awake :=
  Monitor.reach_awake Sys.monitor (fun _ hi => hi ▸ .inl rfl) (fun _ _ _ _ hs => Step.monitor hs) h

/-! ## After the phase has changed -/

/-- Only a close and the drop of the last `Engine` change the phase, and each owes the
workers a `notify_all` for it. -/
theorem Step.phase {s s' : Sys ρ} {a : Act ρ} (hs : Step limits close s a s') :
    s'.pool.phase = s.pool.phase ∨ s.pool.phase = .opened ∧
      (s'.pool.phase = .closing ∧ 0 < tally Task.owesClose s'.tasks ∨
        s'.pool.phase = .abandoned ∧ 0 < tally Task.owesAbandon s'.tasks) := by
  cases hs with
  | publish => unfold State.publish; split <;> exact .inl rfl
  | dropLast =>
    unfold State.abandon
    split
    · exact .inl rfl
    · rename_i hopen
      exact .inr ⟨by simpa using hopen, .inr ⟨rfl, by simp [Task.owesAbandon]⟩⟩
  | dispatch _ _ ok => exact .inl (State.queueJob_ok ok).2.2.1
  | close _ _ ok =>
    obtain ⟨hopen, -, rfl⟩ := State.beginClose_ok ok
    exact .inr ⟨hopen, .inl ⟨rfl, by simp [Task.owesClose]⟩⟩
  | spawnFailedNone | spawnFailedSome => exact .inl (State.spawnFailed_counts s.pool).2.2.2.1
  | enter => exact .inl (turned_cases limits none _ _).same.2.2.2.2.1
  | turn => exact .inl (turned_cases limits _ _ _).same.2.2.2.2.1
  | _ => exact .inl rfl

/-- A worker that comes to the queue of a pool that is no longer open does not park. -/
theorem Turned.parked_le {s s' : Sys ρ} {w : Nat} {since : Option Nat} {taken waiting : List ρ}
    (hf : Fifo s taken waiting) (hp : s.pool.phase ≠ .opened) (hw : s.workers[w]? = some (.woken since))
    (ht : Turned limits w s s') : s'.parked ≤ s.parked := by
  cases ht with
  | run | stop | retire => simp [Sys.parked, tally_set_eq hw, Worker.inWait]
  | park queue phase =>
    -- closing, and this worker has yet to take its `Stop`: the queue cannot be empty
    have hclosing : s.pool.phase = .closing := by
      cases h : s.pool.phase with
      | opened => exact absurd h hp
      | closing => rfl
      | abandoned => exact absurd h phase
    have howed := le_tally Worker.owed hw
    simp only [Worker.owed] at howed
    have hq := hf.queue
    simp only [queue, Sys.stopsLeft, hclosing, if_true] at hq
    have hzero := (List.append_eq_nil_iff.1 hq.symm).2
    simp only [List.replicate_eq_nil_iff, Sys.owed] at hzero
    omega

/-- Once the phase has changed no step parks a worker, and a `notify_all` leaves none. -/
theorem Step.settled {s s' : Sys ρ} {a : Act ρ} {taken waiting : List ρ} (hf : Fifo s taken waiting)
    (hp : s.pool.phase ≠ .opened) (hs : Step limits close s a s') :
    s'.parked ≤ s.parked ∧ (s'.parked = 0 ∨ tally Task.owesClose s.tasks ≤ tally Task.owesClose s'.tasks ∧
      tally Task.owesAbandon s.tasks ≤ tally Task.owesAbandon s'.tasks) := by
  have same : ∀ n : Nat, n ≤ n := Nat.le_refl
  cases hs with
  | reserveFloor | dropLast | dispatch =>
    exact ⟨same _, .inr ⟨by simp [Task.owesClose], by simp [Task.owesAbandon]⟩⟩
  | close _ _ ok => exact absurd (State.beginClose_ok ok).1 hp
  | serve => exact ⟨by simp [Sys.parked, Worker.inWait], .inr ⟨same _, same _⟩⟩
  | @notifyOne _ _ spawn _ _ ht hw =>
    refine ⟨by simp [Sys.parked, tally_set_eq hw, Worker.inWait], .inr ?_⟩
    cases spawn <;>
      simp [tally_set_eq ht, Task.notified, Task.owesClose, Task.owesAbandon]
  | @notifyNobody _ spawn ht =>
    refine ⟨same _, .inr ?_⟩
    cases spawn <;>
      simp [tally_set_eq ht, Task.notified, Task.owesClose, Task.owesAbandon]
  | notifyAll =>
    have : tally Worker.inWait (Sys.wakeAll s.workers) = 0 := parked_wakeAll _
    exact ⟨by simp [Sys.parked, this], .inl this⟩
  | spawnOk ht =>
    exact ⟨by simp [Sys.parked, Worker.inWait],
      .inr ⟨by simp [tally_set_eq ht, Task.owesClose], by simp [tally_set_eq ht, Task.owesAbandon]⟩⟩
  | spawnErr ht | leave ht | retireTask ht | spawnFailedNone ht | spawnFailedSome ht =>
    exact ⟨same _, .inr ⟨by simp [tally_set_eq ht, Task.owesClose], by simp [tally_set_eq ht, Task.owesAbandon]⟩⟩
  | arrive hw | finish hw | retireWorker hw | wake hw =>
    exact ⟨by simp [Sys.parked, tally_set_eq hw, Worker.inWait], .inr ⟨same _, same _⟩⟩
  | @enter w hw =>
    have ht := turned_cases limits none w (s.entered w)
    have hle := ht.parked_le (hf.entered hw) hp (Sys.entered_worker hw)
    have heq : (s.entered w).parked = s.parked := by
      simp [Sys.parked, Sys.entered, tally_set_eq hw, Worker.inWait]
    rw [ht.same.1]
    exact ⟨heq ▸ hle, .inr ⟨same _, same _⟩⟩
  | @turn w since hw =>
    have ht := turned_cases limits since w s
    rw [ht.same.1]
    exact ⟨ht.parked_le hf hp hw, .inr ⟨same _, same _⟩⟩
  | _ => exact ⟨same _, .inr ⟨same _, same _⟩⟩

/-- The `notify_all` of the phase the pool is in, while it has still to be sent. -/
def Sys.owedBroadcast (s : Sys ρ) : Nat :=
  match s.pool.phase with
  | .opened => 0
  | .closing => tally Task.owesClose s.tasks
  | .abandoned => tally Task.owesAbandon s.tasks

/-- With its `notify_all` delivered, a pool that is no longer open has no parked worker. -/
theorem roused_of_reach {s : Sys ρ} (h : (pool ρ limits close).Reach s) (hp : s.pool.phase ≠ .opened)
    (hb : s.owedBroadcast = 0) : s.parked = 0 := by
  refine System.Reach.induct (I := fun s => s.pool.phase ≠ .opened → s.owedBroadcast = 0 → s.parked = 0)
    (fun _ hi => by rw [hi]; simp [Sys.initial, State.new]) (fun s a s' hr hi hs hp' hb' => ?_) h hp hb
  obtain ⟨_, _, hf⟩ := fifo_of_reach hr
  rcases Step.phase hs with hsame | ⟨-, ⟨hc, hpos⟩ | ⟨ha, hpos⟩⟩
  · have hp : s.pool.phase ≠ .opened := hsame ▸ hp'
    obtain ⟨hle, hzero | ⟨hclose, habandon⟩⟩ := Step.settled hf hp hs
    · exact hzero
    · have hb : s.owedBroadcast = 0 := by
        simp only [Sys.owedBroadcast, hsame] at hb' ⊢
        cases hphase : s.pool.phase <;> simp only [hphase] at hb' ⊢ <;> omega
      have := hi hp hb
      omega
  · simp only [Sys.owedBroadcast, hc] at hb'
    omega
  · simp only [Sys.owedBroadcast, ha] at hb'
    omega

/-- Neither a parked worker nor an open phase comes back. -/
theorem unparked_of_steps {s s' : Sys ρ} (h : (pool ρ limits close).Reach s)
    (hs : (pool ρ limits close).Steps s s') (hp : s.pool.phase ≠ .opened) (h0 : s.parked = 0) :
    s'.parked = 0 := by
  refine (hs.keep (I := fun s => s.pool.phase ≠ .opened ∧ s.parked = 0) h ⟨hp, h0⟩ ?_).2
  rintro s a s' hr ⟨hp, h0⟩ hs
  obtain ⟨_, _, hf⟩ := fifo_of_reach hr
  obtain ⟨hle, -⟩ := Step.settled hf hp hs
  refine ⟨?_, by omega⟩
  rcases Step.phase hs with hsame | ⟨hopen, -⟩
  · exact hsame ▸ hp
  · exact absurd hopen hp

/-- **No worker sleeps on a queued job.** With every notification delivered, a worker parked
in `next_job` means that the workers on their way back to `take_job` cover the queue; and from
the moment the `notify_all` of a close or an abandon is delivered, no worker is ever parked
again. -/
theorem no_worker_sleeps_on_a_queued_job {s : Sys ρ} (h : (pool ρ limits close).Reach s) :
    ((∀ t ∈ s.tasks, t.owesOne = 0 ∧ t.owesClose = 0 ∧ t.owesAbandon = 0) → 0 < s.parked →
      s.pool.queue.length ≤ s.woken) ∧
    (s.pool.phase ≠ .opened → s.owedBroadcast = 0 →
      ∀ s', (pool ρ limits close).Steps s s' → s'.parked = 0) := by
  constructor
  · intro hn hpark
    refine (awake_of_reach h).covered ?_ ?_ hpark
    · exact tally_eq_zero.2 fun t ht => (hn t ht).1
    · have hclose : tally Task.owesClose s.tasks = 0 := tally_eq_zero.2 fun t ht => (hn t ht).2.1
      have habandon : tally Task.owesAbandon s.tasks = 0 := tally_eq_zero.2 fun t ht => (hn t ht).2.2
      simp [Sys.monitor, hclose, habandon]
  · intro hp hb s' hs
    exact unparked_of_steps h hs hp (roused_of_reach h hp hb)

/-- Two workers parked, one of them woken for a second job; and the same pool after a close
that has notified. -/
theorem no_worker_sleeps_on_a_queued_job_of_two :
    ∃ s s' : Sys Nat, (pool Nat .oneToTwo (.ok ())).Reach s ∧ (pool Nat .oneToTwo (.ok ())).Reach s' ∧
      s.parked = 1 ∧ s.pool.queue.length = 1 ∧ s.pool.queue.length ≤ s.woken ∧
      s'.pool.phase = .closing ∧ ∀ s'', (pool Nat .oneToTwo (.ok ())).Steps s' s'' → s''.parked = 0 := by
  have h : (pool Nat .oneToTwo (.ok ())).Reach .served := reach_served fun _ _ _ => trivial
  have h := h.next (.arrive (w := 0) rfl)
  have h := h.next (a := Act.dispatch 7) (.dispatch rfl Nat.one_pos rfl)
  have h := h.next (.notifyNobody (t := 0) rfl (inWait_eq_zero.1 rfl))
  have h := h.next (.spawnOk (t := 0) rfl)
  have h := h.next (.leave (t := 0) rfl (.inl rfl))
  have h := h.next (.enter (w := 0) rfl)
  have h := h.next (.arrive (w := 1) rfl)
  have h := h.next (.enter (w := 1) rfl)
  have h := h.next (.finish (w := 0) rfl)
  have h := h.next (.enter (w := 0) rfl)
  have h := h.next (a := Act.dispatch 8) (.dispatch rfl Nat.one_pos rfl)
  have h := h.next (.notifyOne (t := 1) (w := 0) rfl rfl)
  have h' := h.next (.close rfl Nat.one_pos rfl)
  have h' := h'.next (.notifyAll (t := 2) rfl (.inl rfl))
  exact ⟨_, _, h, h', rfl, rfl, (no_worker_sleeps_on_a_queued_job h).1 (by decide) (by decide), rfl,
    (no_worker_sleeps_on_a_queued_job h').2 (by decide) rfl⟩

end EmbeddedMongo.Nonblocking
