import EmbeddedMongo.Nonblocking.Counts

/-!
# The queue as a first-in first-out channel

What `queue_job` accepted is, in order, what `take_job` has handed out followed by what is
still queued. The `Stop`s of a close come behind every accepted job, one for each worker that
has still to come for one, so the back of the queue is theirs to give back when a thread
cannot be started. A worker goes without a `Stop` only while the queue is empty and the pool
keeps its floor, so as long as a job is queued there is a thread that will take it.
-/

namespace EmbeddedMongo.Nonblocking

open Conc

variable {ρ : Type} {limits : Concurrency} {close : Answer}

namespace Sys

/-- Workers that are to take a `Stop` once the pool closes: those with a thread, and those
somebody is still starting. -/
def owed (s : Sys ρ) : Nat := tally Worker.owed s.workers + s.reserved

/-- Workers whose thread exists, the opening thread among them. -/
def threads (s : Sys ρ) : Nat := tally Worker.owed s.workers + s.opener.reserving

/-- The `Stop`s still queued. -/
def stopsLeft (s : Sys ρ) : Nat := if s.pool.phase = .closing then s.owed else 0

end Sys

/-- The accepted operations split into those handed out and those waiting. -/
structure Fifo (s : Sys ρ) (taken waiting : List ρ) : Prop where
  accepted : s.accepted = taken ++ waiting
  queue : s.pool.queue = waiting.map .run ++ List.replicate s.stopsLeft (.stop 0)
  handed : s.handed.map Prod.snd =
    taken.map .run ++ List.replicate (tally Worker.stopped s.workers) (.stop 0)
  drained : 0 < tally Worker.stopped s.workers → waiting = []
  quiet : s.pool.phase ≠ .closing → s.shutdowns = [] ∧ tally Worker.stopped s.workers = 0
  ready : s.ready = true → s.opener = .reported ∨ s.opener = .serving
  used : s.pool.phase = .closing ∨ s.accepted ≠ [] → s.ready = true
  floor : s.pool.phase = .opened → s.ready = true → 0 < s.threads
  live : waiting ≠ [] → 0 < s.threads

namespace Fifo

variable {s s' : Sys ρ} {taken waiting : List ρ}

theorem initial : Fifo (Sys.initial : Sys ρ) [] [] where
  accepted := rfl
  queue := rfl
  handed := rfl
  drained := by simp [Sys.initial]
  quiet := by simp [Sys.initial]
  ready := by simp [Sys.initial]
  used := by simp [Sys.initial, State.new]
  floor := by simp [Sys.initial]
  live := by simp

/-- A step that leaves the queue and its history alone, and no thread behind it. -/
theorem frame (h : Fifo s taken waiting) (accepted : s'.accepted = s.accepted)
    (queue : s'.pool.queue = s.pool.queue) (phase : s'.pool.phase = s.pool.phase)
    (handed : s'.handed = s.handed) (shutdowns : s'.pool.phase ≠ .closing → s'.shutdowns = s.shutdowns)
    (ready : s'.ready = s.ready) (opener : s.ready = true → s'.opener = .reported ∨ s'.opener = .serving)
    (stopped : tally Worker.stopped s'.workers = tally Worker.stopped s.workers)
    (owed : s.pool.phase = .closing → s'.owed = s.owed) (threads : s.ready = true → s.threads ≤ s'.threads) :
    Fifo s' taken waiting where
  accepted := accepted.trans h.accepted
  queue := by
    simp only [queue, h.queue, Sys.stopsLeft, phase]
    split
    · rw [owed ‹_›]
    · rfl
  handed := by rw [handed, h.handed, stopped]
  drained := by rw [stopped]; exact h.drained
  quiet hp := by
    rw [shutdowns hp, stopped]
    exact h.quiet (phase ▸ hp)
  ready hr := opener (ready ▸ hr)
  used := by rw [phase, accepted, ready]; exact h.used
  floor hp hr := by
    have := h.floor (phase ▸ hp) (ready ▸ hr)
    have := threads (ready ▸ hr)
    omega
  live hw := by
    have := h.live hw
    have := threads (h.used (.inr (by simp [h.accepted, hw])))
    omega

/-- Before the open has reported, nothing is queued and the pool is not closing. -/
theorem not_closing (h : Fifo s taken waiting) (hr : s.ready ≠ true) : s.pool.phase ≠ .closing :=
  fun hc => hr (h.used (.inl hc))

theorem not_ready (h : Fifo s taken waiting) (h1 : s.opener ≠ .reported) (h2 : s.opener ≠ .serving) :
    s.ready ≠ true :=
  fun hr => (h.ready hr).elim h1 h2

/-- A step of the opening thread before it has reported. -/
theorem opening (h : Fifo s taken waiting) (hr : s.ready ≠ true) (accepted : s'.accepted = s.accepted)
    (queue : s'.pool.queue = s.pool.queue) (phase : s'.pool.phase = s.pool.phase)
    (handed : s'.handed = s.handed) (shutdowns : s'.shutdowns = s.shutdowns)
    (ready : s'.ready = s.ready) (workers : s'.workers = s.workers) : Fifo s' taken waiting :=
  h.frame accepted queue phase handed (fun _ => shutdowns) ready (fun h => absurd h hr) (by rw [workers])
    (fun hc => absurd hc (h.not_closing hr)) (fun h => absurd h hr)

theorem entered {w : Nat} (h : Fifo s taken waiting) (hw : s.workers[w]? = some .ready) :
    Fifo (s.entered w) taken waiting := by
  refine h.frame rfl rfl rfl rfl (fun _ => rfl) rfl h.ready ?_ (fun _ => ?_) (fun _ => ?_) <;>
    simp [Sys.entered, Sys.owed, Sys.threads, Sys.reserved, tally_set_eq hw, Worker.stopped, Worker.owed]

/-- A `Stop` at the front means that the pool closes and that no job waits any more. -/
theorem front {shutdown : Nat} {rest : List (Job ρ Nat)} (h : Fifo s taken waiting)
    (queue : s.pool.queue = .stop shutdown :: rest) :
    s.pool.phase = .closing ∧ waiting = [] ∧ shutdown = 0 ∧ rest = List.replicate (s.owed - 1) (.stop 0) := by
  have hq := h.queue
  rw [queue] at hq
  cases hwait : waiting with
  | cons => rw [hwait] at hq; simp at hq
  | nil =>
    rw [hwait, List.map_nil, List.nil_append] at hq
    have hphase : s.pool.phase = .closing := by
      refine Classical.byContradiction fun hp => ?_
      simp [Sys.stopsLeft, hp] at hq
    simp only [Sys.stopsLeft, hphase, if_true] at hq
    cases howed : s.owed with
    | zero => simp [howed] at hq
    | succ n =>
      simp only [howed, List.replicate_succ, List.cons.injEq, Job.stop.injEq] at hq
      exact ⟨hphase, rfl, hq.1, by simpa using hq.2⟩

/-- A worker that takes its turn takes the job that waited longest. -/
theorem turned {w : Nat} {since : Option Nat} (h : Fifo s taken waiting) (hc : Counted s)
    (hw : s.workers[w]? = some (.woken since)) (ht : Turned limits w s s') :
    ∃ taken waiting, Fifo s' taken waiting := by
  have ho := le_tally Worker.owed hw
  simp only [Worker.owed] at ho
  have hq := h.queue
  cases ht with
  | @run operation rest queue =>
    rw [queue] at hq
    -- a `Run` at the front is the first of the waiting ones, so no `Stop` was handed out yet
    cases hwait : waiting with
    | nil => rw [hwait] at hq; cases hs : s.stopsLeft <;> simp [hs, List.replicate_succ] at hq
    | cons next later =>
      rw [hwait] at hq
      simp only [List.map_cons, List.cons_append, List.cons.injEq, Job.run.injEq] at hq
      obtain ⟨rfl, hrest⟩ := hq
      have hstop : tally Worker.stopped s.workers = 0 := by
        have := h.drained
        simp only [hwait, reduceCtorEq, imp_false] at this
        omega
      have howed : s.stopsLeft = Sys.stopsLeft { s with
          pool := { s.pool with queue := rest, idle := s.pool.idle - 1 }
          workers := s.workers.set w (.running operation)
          handed := s.handed ++ [(w, .run operation)] } := by
        simp [Sys.stopsLeft, Sys.owed, Sys.reserved, tally_set_eq hw, Worker.owed]
      refine ⟨taken ++ [operation], later, ?_, ?_, ?_, ?_, ?_, h.ready, h.used, ?_, ?_⟩
      · simp [h.accepted, hwait]
      · rw [← howed]; exact hrest
      · simp [h.handed, hstop, tally_set_eq hw, Worker.stopped]
      · simp [tally_set_eq hw, Worker.stopped, hstop]
      · simpa [tally_set_eq hw, Worker.stopped] using h.quiet
      · simpa [Sys.threads, tally_set_eq hw, Worker.owed] using h.floor
      · intro _
        have := h.live (by simp [hwait])
        simpa [Sys.threads, tally_set_eq hw, Worker.owed] using this
  | @stop shutdown rest queue =>
    obtain ⟨hphase, rfl, rfl, hrest⟩ := h.front queue
    refine ⟨taken, [], h.accepted, ?_, ?_, ?_, ?_, h.ready, h.used, ?_, ?_⟩
    · have : s.owed - 1 = tally Worker.owed s.workers - 1 + s.reserved := by
        simp only [Sys.owed]
        omega
      simp only [Sys.reserved] at this
      simp [Sys.stopsLeft, hphase, Sys.owed, Sys.reserved, tally_set_eq hw, Worker.owed, hrest, ← this]
    · simp [h.handed, tally_set_eq hw, Worker.stopped, List.replicate_succ', List.append_assoc]
    · simp
    · simp [hphase]
    · simp [hphase]
    · simp
  | retire queue spare =>
    rw [queue] at hq
    have hwait : waiting = [] := by
      have := (List.append_eq_nil_iff.1 hq.symm).1
      simpa using this
    have hphase : s.pool.phase ≠ .closing := by
      rcases spare with hp | ⟨hp, -⟩ <;> simp [hp]
    have hstop := (h.quiet hphase).2
    refine ⟨taken, [], ?_, ?_, ?_, ?_, ?_, h.ready, h.used, ?_, ?_⟩
    · simpa [hwait] using h.accepted
    · simp [State.retired, queue, Sys.stopsLeft, hphase]
    · simpa [tally_set_eq hw, Worker.stopped] using h.handed
    · simp
    · simpa [State.retired, tally_set_eq hw, Worker.stopped] using h.quiet
    · intro hp _
      simp only [State.retired] at hp
      -- the floor: more than `min` workers were serving, and the pool counts them exactly
      have hmin := limits.min_pos
      have hserve : limits.min < s.pool.serving := by
        rcases spare with ha | ⟨-, h⟩
        · simp [hp] at ha
        · exact h
      have hcount := tally_counted s.workers
      simp only [State.serving, hc.alive, hc.pending] at hserve
      simp only [Sys.threads, tally_set_eq hw, Worker.owed]
      omega
    · simp
  | park =>
    refine ⟨taken, waiting, h.frame rfl rfl rfl rfl (fun _ => rfl) rfl h.ready ?_ (fun _ => ?_) (fun _ => ?_)⟩ <;>
      simp [Sys.owed, Sys.threads, Sys.reserved, tally_set_eq hw, Worker.stopped, Worker.owed]

/-- While the pool closes, a call whose thread could not be started finds a `Stop` at the back
of the queue. -/
theorem back {t : Nat} {caller : Caller} (h : Fifo s taken waiting) (hp : s.pool.phase = .closing)
    (ht : s.tasks[t]? = some (.starting caller .refused)) :
    s.pool.queue = (waiting.map .run ++ List.replicate (s.owed - 1) (.stop 0)) ++ [.stop 0] := by
  have hr := le_tally Task.reserving ht
  simp only [Task.reserving, Start.reserving] at hr
  obtain ⟨n, hn⟩ : ∃ n, s.owed = n + 1 := ⟨s.owed - 1, by simp only [Sys.owed, Sys.reserved]; omega⟩
  rw [h.queue]
  simp [Sys.stopsLeft, hp, hn, List.replicate_succ']

theorem spawnFailedSome {t shutdown : Nat} {caller : Caller} (h : Fifo s taken waiting)
    (ht : s.tasks[t]? = some (.starting caller .refused)) (claimed : s.pool.spawnFailed.1 = some shutdown) :
    Fifo { s with
      pool := s.pool.spawnFailed.2
      tasks := s.tasks.set t (.starting caller (.retiring shutdown .deposit))
      consumed := s.consumed ++ [.task t] } taken waiting := by
  have hp : s.pool.phase = .closing := by
    refine Classical.byContradiction fun hp => ?_
    rw [(State.spawnFailed_of_not_closing hp).1] at claimed
    cases claimed
  obtain ⟨-, -, -, hphase, -⟩ := State.spawnFailed_counts s.pool
  obtain ⟨-, hqueue⟩ := State.spawnFailed_of_closing hp (h.back hp ht)
  have hr := le_tally Task.reserving ht
  simp only [Task.reserving, Start.reserving] at hr
  refine ⟨h.accepted, ?_, h.handed, h.drained, ?_, h.ready, ?_, ?_, h.live⟩
  · simp only [hqueue, Sys.stopsLeft, hphase, hp, if_true, Sys.owed, Sys.reserved, tally_set_eq ht,
      Task.reserving, Start.reserving]
    congr 2
    omega
  · simp [hphase, hp]
  · intro _
    exact h.used (.inl hp)
  · simp [hphase, hp]

theorem spawnFailedNone {t : Nat} {caller : Caller} (h : Fifo s taken waiting)
    (ht : s.tasks[t]? = some (.starting caller .refused)) (unclaimed : s.pool.spawnFailed.1 = none) :
    Fifo { s with pool := s.pool.spawnFailed.2, tasks := s.tasks.set t (.starting caller .leaving) }
      taken waiting := by
  have hp : s.pool.phase ≠ .closing := by
    intro hp
    rw [(State.spawnFailed_of_closing hp (h.back hp ht)).1] at unclaimed
    cases unclaimed
  obtain ⟨-, -, -, hphase, -⟩ := State.spawnFailed_counts s.pool
  exact h.frame rfl (State.spawnFailed_of_not_closing hp).2 hphase rfl (fun _ => rfl) rfl h.ready rfl
    (fun hc => absurd hc hp) (fun _ => Nat.le_refl _)

/-- A job that is accepted waits behind the others. -/
theorem dispatch {operation : ρ} {spawn : Option (Spawn Arc)} {pool : State Arc ρ Nat}
    (h : Fifo s taken waiting) (hr : s.ready = true)
    (ok : s.pool.queueJob (.run operation) limits.max = .ok (spawn, pool)) :
    Fifo { s with
      pool := pool
      tasks := s.tasks ++ [.queued (spawn.map Spawn.index)]
      accepted := s.accepted ++ [operation] } taken (waiting ++ [operation]) := by
  obtain ⟨hopen, hqueue, hphase, -, -, -⟩ := State.queueJob_ok ok
  have hq := h.queue
  have hclosing : s.pool.phase ≠ .closing := by simp [hopen]
  simp only [Sys.stopsLeft, hclosing, if_false, List.replicate_zero, List.append_nil] at hq
  have hstop := (h.quiet hclosing).2
  refine ⟨by simp [h.accepted], ?_, h.handed, by simp [hstop], ?_, h.ready, fun _ => hr, ?_, ?_⟩
  · simp [hqueue, hq, Sys.stopsLeft, hphase, hclosing]
  · intro _
    exact h.quiet hclosing
  · intro _ _
    exact h.floor hopen hr
  · intro _
    exact h.floor hopen hr

/-- The close queues a `Stop` for exactly the workers that are to take one. -/
theorem beginClose {pool : State Arc ρ Nat} (h : Fifo s taken waiting) (hc : Counted s)
    (hr : s.ready = true) (ok : s.pool.beginClose (fun _ => s.shutdowns.length) = .ok pool) :
    Fifo { s with
      pool := pool
      shutdowns := s.shutdowns ++ [.new s.pool.alive]
      tasks := s.tasks ++ [.closing] } taken waiting := by
  obtain ⟨hopen, -, rfl⟩ := State.beginClose_ok ok
  have hclosing : s.pool.phase ≠ .closing := by simp [hopen]
  obtain ⟨hnone, hstop⟩ := h.quiet hclosing
  have hq := h.queue
  simp only [Sys.stopsLeft, hclosing, if_false, List.replicate_zero, List.append_nil] at hq
  have halive : s.pool.alive = s.owed := by
    have := tally_counted s.workers
    simp only [hc.alive, Sys.owed]
    omega
  refine ⟨h.accepted, ?_, h.handed, h.drained, by simp, h.ready, fun _ => hr, by simp, h.live⟩
  simp [hq, hnone, Sys.stopsLeft, halive, Sys.owed, Sys.reserved, Task.reserving]

theorem abandon (h : Fifo s taken waiting) :
    Fifo { s with engines := 0, pool := s.pool.abandon, tasks := s.tasks ++ [.abandoning] } taken waiting := by
  unfold State.abandon
  split
  · exact h.frame rfl rfl rfl rfl (fun _ => rfl) rfl h.ready rfl
      (fun _ => by simp [Sys.owed, Sys.reserved, Task.reserving]) (fun _ => Nat.le_refl _)
  · rename_i hopen
    simp only [ne_eq, Decidable.not_not] at hopen
    have hclosing : s.pool.phase ≠ .closing := by simp [hopen]
    refine ⟨h.accepted, ?_, h.handed, h.drained, fun _ => h.quiet hclosing, h.ready, ?_, by simp, h.live⟩
    · have := h.queue
      simpa [Sys.stopsLeft, hclosing] using this
    · intro hu
      exact h.used (.inr (by simpa using hu))

/-- Every step keeps the jobs in order. -/
theorem step {a : Act ρ} (h : Fifo s taken waiting) (hc : Counted s) (hs : Step limits close s a s') :
    ∃ taken waiting, Fifo s' taken waiting := by
  have same : ∀ n : Nat, n ≤ n := Nat.le_refl
  cases hs with
  | tick | cloneEngine | dropEngine | dispatchRefused | closeRefused =>
    exact ⟨_, _, h.frame rfl rfl rfl rfl (fun _ => rfl) rfl h.ready rfl (fun _ => rfl) (fun _ => same _)⟩
  | openFailed ho | openDone ho | reserveFirst ho | reserveFloor ho | floorStarted ho =>
    exact ⟨_, _, h.opening (h.not_ready (by simp [ho]) (by simp [ho])) rfl rfl rfl rfl rfl rfl rfl⟩
  | publish ho =>
    have hr := h.not_ready (by simp [ho]) (by simp [ho])
    refine ⟨_, _, h.opening hr rfl ?_ ?_ rfl rfl rfl rfl⟩ <;> unfold State.publish <;> split <;> rfl
  | report ho =>
    have hr := h.not_ready (by simp [ho]) (by simp [ho])
    have hp := h.not_closing hr
    refine ⟨_, _, h.accepted, ?_, h.handed, h.drained, h.quiet, by simp, by simp, ?_, ?_⟩
    · have := h.queue
      simpa [Sys.stopsLeft, hp] using this
    · simp [Sys.threads, Opener.reserving]
    · simp [Sys.threads, Opener.reserving]
  | serve ho =>
    refine ⟨_, _, h.frame rfl rfl rfl rfl (fun _ => rfl) rfl (fun _ => .inr rfl) ?_ (fun _ => ?_) (fun _ => ?_)⟩ <;>
      simp [Sys.owed, Sys.threads, Sys.reserved, ho, Opener.reserving, Worker.stopped, Worker.owed]
    omega
  | dropLast => exact ⟨_, _, h.abandon⟩
  | dispatch hr _ ok => exact ⟨_, _, h.dispatch hr ok⟩
  | close hr _ ok => exact ⟨_, _, h.beginClose hc hr ok⟩
  | notifyOne ht hw =>
    refine ⟨_, _, h.frame rfl rfl rfl rfl (fun _ => rfl) rfl h.ready ?_ (fun _ => ?_) (fun _ => ?_)⟩ <;>
      simp [Sys.owed, Sys.threads, Sys.reserved, tally_set_eq ht, tally_set_eq hw, Worker.stopped, Worker.owed]
  | notifyNobody ht =>
    refine ⟨_, _, h.frame rfl rfl rfl rfl (fun _ => rfl) rfl h.ready rfl (fun _ => ?_) (fun _ => same _)⟩
    simp [Sys.owed, Sys.reserved, tally_set_eq ht]
  | notifyAll ht owed =>
    rcases owed with rfl | rfl <;>
      refine ⟨_, _, h.frame rfl rfl rfl rfl (fun _ => rfl) rfl h.ready ?_ (fun _ => ?_) (fun _ => ?_)⟩ <;>
      simp [Sys.owed, Sys.threads, Sys.reserved, tally_set_eq ht, Task.reserving,
        tally_wakeAll (f := Worker.stopped) fun _ _ => rfl, tally_wakeAll (f := Worker.owed) fun _ _ => rfl]
  | spawnOk ht =>
    have hr := le_tally Task.reserving ht
    simp only [Task.reserving, Start.reserving] at hr
    refine ⟨_, _, h.frame rfl rfl rfl rfl (fun _ => rfl) rfl h.ready ?_ (fun _ => ?_) (fun _ => ?_)⟩ <;>
      simp [Sys.owed, Sys.threads, Sys.reserved, tally_set_eq ht, Task.reserving, Start.reserving,
        Worker.stopped, Worker.owed]
    all_goals omega
  | spawnErr ht =>
    refine ⟨_, _, h.frame rfl rfl rfl rfl (fun _ => rfl) rfl h.ready rfl (fun _ => ?_) (fun _ => same _)⟩
    simp [Sys.owed, Sys.reserved, tally_set_eq ht, Task.reserving, Start.reserving]
  | spawnFailedNone ht unclaimed => exact ⟨_, _, h.spawnFailedNone ht unclaimed⟩
  | spawnFailedSome ht claimed => exact ⟨_, _, h.spawnFailedSome ht claimed⟩
  | leave ht last =>
    refine ⟨_, _, h.frame rfl rfl rfl rfl (fun _ => rfl) rfl h.ready rfl (fun _ => ?_) (fun _ => same _)⟩
    rcases last with rfl | rfl <;>
      simp [Sys.owed, Sys.reserved, tally_set_eq ht, Task.reserving, Start.reserving]
  | retireTask ht _ hd =>
    refine ⟨_, _, h.frame rfl rfl rfl rfl (fun hp => ?_) rfl h.ready rfl (fun _ => ?_) (fun _ => same _)⟩
    · simp [(h.quiet hp).1] at hd
    · simp [Sys.owed, Sys.reserved, tally_set_eq ht, Task.reserving, Start.reserving]
  | arrive hw =>
    refine ⟨_, _, h.frame rfl rfl rfl rfl (fun _ => rfl) rfl h.ready ?_ (fun _ => ?_) (fun _ => ?_)⟩ <;>
      simp [Sys.owed, Sys.threads, Sys.reserved, tally_set_eq hw, Worker.stopped, Worker.owed]
  | enter hw =>
    exact (h.entered hw).turned (hc.entered hw) (Sys.entered_worker hw) (turned_cases limits none _ _)
  | wake hw | finish hw =>
    refine ⟨_, _, h.frame rfl rfl rfl rfl (fun _ => rfl) rfl h.ready ?_ (fun _ => ?_) (fun _ => ?_)⟩ <;>
      simp [Sys.owed, Sys.threads, Sys.reserved, tally_set_eq hw, Worker.stopped, Worker.owed]
  | turn hw => exact h.turned hc hw (turned_cases limits _ _ _)
  | retireWorker hw _ hd =>
    refine ⟨_, _, h.frame rfl rfl rfl rfl (fun hp => ?_) rfl h.ready ?_ (fun _ => ?_) (fun _ => ?_)⟩
    · simp [(h.quiet hp).1] at hd
    all_goals simp [Sys.owed, Sys.threads, Sys.reserved, tally_set_eq hw, Worker.stopped, Worker.owed]

end Fifo

/-- Every run hands them over as they came. -/
theorem fifo_of_reach {s : Sys ρ} (h : (pool ρ limits close).Reach s) : ∃ taken waiting, Fifo s taken waiting :=
  System.Reach.induct (I := fun s => ∃ taken waiting, Fifo s taken waiting)
    (fun _ hi => hi ▸ ⟨[], [], Fifo.initial⟩)
    (fun _ _ _ hr ⟨_, _, hi⟩ hs => hi.step (counted_of_reach hr) hs) h

end EmbeddedMongo.Nonblocking
