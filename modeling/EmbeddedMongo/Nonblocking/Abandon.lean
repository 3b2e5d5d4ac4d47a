import EmbeddedMongo.Nonblocking.Rest

/-!
# An abandoned engine is released

The last `Engine` may be dropped without a close at any moment, while the open is still
running on its first thread included. From then on the pool's state holds no handle on the
engine and takes none; each worker still serves what is queued and then leaves, its handle
with it; and when the pool's own steps have run out nobody has a handle.
-/

namespace EmbeddedMongo.Nonblocking

open Conc

variable {ρ : Type} {limits : Concurrency} {close : Answer}

/-- Abandoned, with the state's own handle given up. -/
structure Abandoned (s : Sys ρ) : Prop where
  phase : s.pool.phase = .abandoned
  client : s.pool.client = none

/-- An abandoned pool stays so: nothing publishes a handle to it. -/
theorem Abandoned.step {s s' : Sys ρ} {a : Act ρ} (h : Abandoned s) (hs : Step limits close s a s') :
    Abandoned s' := by
  obtain ⟨hphase, hclient⟩ := h
  have hphase' : s'.pool.phase = .abandoned := by
    rcases Step.phase hs with hsame | ⟨hopen, -⟩
    · exact hsame.trans hphase
    · simp [hphase] at hopen
  refine ⟨hphase', ?_⟩
  cases hs with
  | publish => simpa [State.publish, hphase] using hclient
  | dropLast => simpa [State.abandon, hphase] using hclient
  | dispatch _ _ ok => exact (State.queueJob_ok ok).2.2.2.1.trans hclient
  | close _ _ ok =>
    have := (State.beginClose_ok ok).1
    simp [hphase] at this
  | spawnFailedNone | spawnFailedSome => exact (State.spawnFailed_counts s.pool).2.2.2.2.trans hclient
  | enter => exact (turned_cases limits none _ _).same.2.2.2.2.2.1.trans hclient
  | turn => exact (turned_cases limits _ _ _).same.2.2.2.2.2.1.trans hclient
  | _ => exact hclient

/-- The step that abandons the pool gives up the state's handle. -/
theorem abandoned_of_reach {s : Sys ρ} (h : (pool ρ limits close).Reach s) (hp : s.pool.phase = .abandoned) :
    Abandoned s := by
  refine System.Reach.induct (I := fun s => s.pool.phase = .abandoned → Abandoned s)
    (fun _ hi hp => ?_) (fun s a s' _ ih hs hp' => ?_) h hp
  · rw [hi] at hp
    simp [Sys.initial, State.new] at hp
  · by_cases hp : s.pool.phase = .abandoned
    · exact (ih hp).step hs
    · refine ⟨hp', ?_⟩
      rcases Step.phase hs with hsame | ⟨hopen, ⟨hclosing, -⟩ | -⟩
      · exact absurd (hsame.symm.trans hp') hp
      · simp [hp'] at hclosing
      · cases hs with
        | dropLast => simp [State.abandon, hopen]
        | publish => simp [State.publish, hopen] at hp'
        | dispatch _ _ ok => exact absurd ((State.queueJob_ok ok).2.2.1.symm.trans hp') hp
        | close _ _ ok =>
          obtain ⟨-, -, rfl⟩ := State.beginClose_ok ok
          simp at hp'
        | spawnFailedNone | spawnFailedSome =>
          exact absurd ((State.spawnFailed_counts s.pool).2.2.2.1.symm.trans hp') hp
        | enter => exact absurd ((turned_cases limits none _ _).same.2.2.2.2.1.symm.trans hp') hp
        | turn => exact absurd ((turned_cases limits _ _ _).same.2.2.2.2.1.symm.trans hp') hp
        | _ => exact absurd hp' hp

/-! ## The opening thread does not get stuck -/

/-- The call of `start_worker` the opening thread is inside of is there. -/
def Attended (s : Sys ρ) : Prop :=
  ∀ left t, s.opener = .flooring left (some t) → ∃ start, s.tasks[t]? = some (.starting .opener start)

/-- Setting another task, or this call further on, keeps it there. -/
theorem Attended.set {s s' : Sys ρ} (h : Attended s) {t : Nat} {task task' : Task} (ht : s.tasks[t]? = some task)
    (opener : s'.opener = s.opener) (tasks : s'.tasks = s.tasks.set t task')
    (same : ∀ start, task = .starting .opener start → ∃ start', task' = .starting .opener start') : Attended s' := by
  intro left u ho
  rw [opener] at ho
  obtain ⟨start, hu⟩ := h left u ho
  obtain ⟨hlt, -⟩ := List.getElem?_eq_some_iff.1 ht
  rw [tasks]
  by_cases hut : t = u
  · subst hut
    rw [ht] at hu
    obtain ⟨start', hstart'⟩ := same start (Option.some.inj hu)
    exact ⟨start', by simp [hlt, hstart']⟩
  · exact ⟨start, by rw [List.getElem?_set_ne hut, hu]⟩

theorem Attended.append {s s' : Sys ρ} (h : Attended s) {task : Task} (opener : s'.opener = s.opener)
    (tasks : s'.tasks = s.tasks ++ [task]) : Attended s' := by
  intro left u ho
  rw [opener] at ho
  obtain ⟨start, hu⟩ := h left u ho
  obtain ⟨hlt, -⟩ := List.getElem?_eq_some_iff.1 hu
  exact ⟨start, by rw [tasks, List.getElem?_append_left hlt, hu]⟩

theorem Attended.turned {s s' s'' : Sys ρ} {w : Nat} (h : Attended s) (ht : Turned limits w s' s'')
    (opener : s'.opener = s.opener) (tasks : s'.tasks = s.tasks) : Attended s'' := by
  obtain ⟨htasks, hopener, -⟩ := ht.same
  intro left u ho
  rw [hopener, opener] at ho
  rw [htasks, tasks]
  exact h left u ho

theorem Attended.step {s s' : Sys ρ} {a : Act ρ} (h : Attended s) (hs : Step limits close s a s') : Attended s' := by
  cases hs with
  | openFailed | openDone | reserveFirst | publish | report | serve | floorStarted => exact fun _ _ ho => by simp at ho
  | reserveFloor =>
    intro left u ho
    obtain ⟨-, rfl⟩ : _ = left ∧ s.tasks.length = u := by simpa using ho
    exact ⟨.spawn s.pool.reserve.1, by simp⟩
  | dropLast | dispatch | close => exact h.append rfl rfl
  | @notifyOne _ _ spawn _ _ ht => exact h.set ht rfl rfl (fun _ he => by simp at he)
  | notifyNobody ht => exact h.set ht rfl rfl (fun _ he => by simp at he)
  | notifyAll ht owed =>
    refine h.set ht rfl rfl (fun _ he => ?_)
    rcases owed with rfl | rfl <;> simp at he
  | spawnOk ht | spawnErr ht | spawnFailedNone ht | spawnFailedSome ht | leave ht | retireTask ht =>
    refine h.set ht rfl rfl (fun _ he => ?_)
    simp only [Task.starting.injEq] at he
    exact ⟨_, by rw [he.1]⟩
  | @enter w => exact h.turned (turned_cases limits none w (s.entered w)) rfl rfl
  | @turn w since => exact h.turned (turned_cases limits since w s) rfl rfl
  | _ => exact h

theorem attended_of_reach {s : Sys ρ} (h : (pool ρ limits close).Reach s) : Attended s := by
  refine h.induct (fun _ hi => ?_) (fun _ _ _ _ ih hs => ih.step hs)
  rw [hi]
  intro _ _ ho
  simp [Sys.initial] at ho

/-- Where no step of the pool's own is left, the opening thread has failed or serves. -/
theorem opener_of_atRest {s : Sys ρ} (h : (pool ρ limits close).Reach s)
    (hr : (pool ρ limits close).AtRest Act.own s) : s.opener = .failed ∨ s.opener = .serving := by
  have blocked : ∀ {P : Prop} {a : Act ρ} {s' : Sys ρ}, Step limits close s a s' → a.own → P :=
    fun hs ha => absurd hs (hr _ _ ha)
  cases ho : s.opener with
  | opening => exact blocked (.openFailed ho) trivial
  | failed => exact .inl rfl
  | opened => exact blocked (.reserveFirst ho) trivial
  | flooring left call =>
    cases call with
    | some t =>
      obtain ⟨start, ht⟩ := attended_of_reach h left t ho
      have hover := (resting_of_atRest h hr).tasks _ (List.mem_of_getElem? ht)
      exact blocked (.floorStarted ho ht hover) trivial
    | none =>
      cases left with
      | zero => exact blocked (.publish ho) trivial
      | succ left => exact blocked (.reserveFloor ho) trivial
  | published => exact blocked (.report ho) trivial
  | reported => exact blocked (.serve ho) trivial
  | serving => exact .inr rfl

/-! ## Nobody keeps a handle -/

/-- Every thread that rests outside the condvar has given up its handle, and so has every call. -/
theorem Resting.handles {s : Sys ρ} (hr : Resting s) (hparked : s.parked = 0) :
    tally Worker.handles s.workers = 0 ∧ tally Task.handles s.tasks = 0 := by
  constructor
  · apply tally_eq_zero.2
    intro w hw
    have hrest := hr.workers w hw
    have hawake := inWait_eq_zero.1 hparked w hw
    cases w with
    | parked since remaining => exact absurd rfl (hawake since remaining)
    | retired => rfl
    | retiring _ stage =>
      cases stage with
      | done => rfl
      | _ => exact hrest.elim
    | _ => exact hrest.elim
  · apply tally_eq_zero.2
    intro t ht
    have hrest := hr.tasks t ht
    cases t with
    | returned => rfl
    | starting _ start =>
      cases start with
      | returned => rfl
      | retiring _ stage =>
        cases stage with
        | done => rfl
        | _ => simp [Task.resting, Start.isOver] at hrest
      | _ => simp [Task.resting, Start.isOver] at hrest
    | _ => exact hrest.elim

/-- What is left of an abandoned pool whose own steps have run out: every accepted job was
handed to a worker, every worker has left, and nobody has a handle on the engine. -/
structure Released (s : Sys ρ) : Prop where
  queue : s.pool.queue = []
  served : s.handed.map Prod.snd = s.accepted.map .run
  workers : ∀ w ∈ s.workers, w = .retired
  alive : s.pool.alive = 0
  handles : s.handles = 0

theorem released_of_atRest {s : Sys ρ} (h : (pool ρ limits close).Reach s) (ha : Abandoned s)
    (hr : (pool ρ limits close).AtRest Act.own s) : Released s := by
  obtain ⟨taken, waiting, hf⟩ := fifo_of_reach h
  have hrest := resting_of_atRest h hr
  have hquiet := hf.quiet (by simp [ha.phase])
  obtain ⟨-, -, -, habandon⟩ := hrest.silent
  have hparked : s.parked = 0 := by
    apply roused_of_reach h
    · simp [ha.phase]
    · simpa [Sys.owedBroadcast, ha.phase] using habandon
  obtain ⟨hworkers, htasks⟩ := hrest.handles hparked
  have hqueue := queue_of_resting h hrest
  have hopener : s.opener.handles = 0 ∧ s.opener.reserving = 0 := by
    rcases opener_of_atRest h hr with ho | ho <;> simp [ho, Opener.handles, Opener.reserving]
  have hretired : ∀ w ∈ s.workers, w = .retired := by
    intro w hw
    have hstopped := tally_eq_zero.1 hquiet.2 w hw
    have hgone := tally_eq_zero.1 hworkers w hw
    cases w with
    | retired => rfl
    | retiring => simp [Worker.stopped] at hstopped
    | _ => simp [Worker.handles] at hgone
  have hwaiting : waiting = [] := by
    have hq := hf.queue
    rw [hqueue] at hq
    simpa using (List.append_eq_nil_iff.1 hq.symm).1
  refine ⟨hqueue, ?_, hretired, ?_, ?_⟩
  · rw [hf.handed, hf.accepted, hwaiting, hquiet.2]
    simp
  · have hcounted : tally Worker.counted s.workers = 0 :=
      tally_eq_zero.2 fun w hw => by rw [hretired w hw]; rfl
    have hreserving : tally Task.reserving s.tasks = 0 := by
      apply tally_eq_zero.2
      intro t ht
      have := tally_eq_zero.1 htasks t ht
      cases t with
      | starting _ start => cases start <;> simp_all [Task.handles, Start.handles, Task.reserving, Start.reserving]
      | _ => exact this
    rw [(counted_of_reach h).alive, Sys.reserved, hcounted, hreserving, hopener.2]
  · simp [Sys.handles, ha.client, hopener.1, hworkers, htasks, hquiet.1]

/-- A pass of `next_job` in an abandoned pool: the front of the queue is run, and on an empty
queue the worker leaves, uncounted and without its handle in the same section. -/
theorem Turned.abandoned {s s' : Sys ρ} {w : Nat} {since : Option Nat} (h : Counted s) (hp : s.pool.phase = .abandoned)
    (hruns : ∀ shutdown, Job.stop shutdown ∉ s.pool.queue) (hw : s.workers[w]? = some (.woken since))
    (ht : Turned limits w s s') :
    (∃ operation rest, s.pool.queue = .run operation :: rest ∧ s'.pool.queue = rest ∧
      s'.workers[w]? = some (.running operation)) ∨
    s.pool.queue = [] ∧ s'.workers[w]? = some .retired ∧ s'.pool.alive + 1 = s.pool.alive ∧
      s'.handles + 1 = s.handles := by
  obtain ⟨hlt, -⟩ := List.getElem?_eq_some_iff.1 hw
  cases ht with
  | run queue => exact .inl ⟨_, _, queue, rfl, by simp [hlt]⟩
  | stop queue => exact absurd (queue ▸ List.mem_cons_self) (hruns _)
  | park _ phase => exact absurd hp phase
  | retire queue =>
    have hcounted := le_tally Worker.counted hw
    have hheld := le_tally Worker.handles hw
    simp only [Worker.counted, Worker.handles] at hcounted hheld
    have halive := h.alive
    refine .inr ⟨queue, by simp [hlt], ?_, ?_⟩
    · simp only [State.retired]
      omega
    · simp only [Sys.handles, State.retired, tally_set_eq hw, Worker.handles]
      omega

/-- No `Stop` is queued for the workers of an abandoned pool. -/
theorem Fifo.no_stop {s : Sys ρ} {taken waiting : List ρ} (h : Fifo s taken waiting) (hp : s.pool.phase ≠ .closing) :
    ∀ shutdown, Job.stop shutdown ∉ s.pool.queue := by
  intro shutdown
  rw [h.queue, Sys.stopsLeft, if_neg hp]
  simp

/-- **An abandoned engine is released.** Dropping the last `Engine` of an open pool abandons
it; an abandoned pool has no handle of its own and never has one again; its workers run what
is queued and then leave, uncounted and without their handle in one section; and however its
own steps go on from there they run out, with nobody holding a handle where they have. -/
theorem abandoned_engine_is_released {s : Sys ρ} (h : (pool ρ limits close).Reach s) :
    (∀ s', s.pool.phase = .opened → Step limits close s .dropEngine s' → s'.engines = 0 →
      s'.pool.phase = .abandoned) ∧
    (s.pool.phase = .abandoned →
      (∀ s', (pool ρ limits close).Steps s s' → s'.pool.phase = .abandoned ∧ s'.pool.client = none) ∧
      (∀ w a s', Step limits close s a s' → a = .enter w ∨ a = .turn w →
        (∃ operation rest, s.pool.queue = .run operation :: rest ∧ s'.pool.queue = rest ∧
          s'.workers[w]? = some (.running operation)) ∨
        s.pool.queue = [] ∧ s'.workers[w]? = some .retired ∧ s'.pool.alive + 1 = s.pool.alive ∧
          s'.handles + 1 = s.handles) ∧
      (pool ρ limits close).Settles Act.own Released s ∧
      ((pool ρ limits close).AtRest Act.own s → s.handles = 0)) := by
  constructor
  · intro s' hopen hs hlast
    cases hs with
    | dropEngine => simp at hlast
    | dropLast => simp [State.abandon, hopen]
  · intro hp
    have ha := abandoned_of_reach h hp
    obtain ⟨_, _, hf⟩ := fifo_of_reach h
    have hruns := hf.no_stop (by simp [hp])
    have hcounted := counted_of_reach h
    refine ⟨?_, ?_, ?_, ?_⟩
    · intro s' hs
      obtain ⟨hphase, hclient⟩ := hs.keep h ha fun _ _ _ _ ha hs => ha.step hs
      exact ⟨hphase, hclient⟩
    · intro w a s' hs hact
      rcases hact with rfl | rfl
      · cases hs with
        | enter hw =>
          have hcases := (turned_cases limits none w (s.entered w)).abandoned (hcounted.entered hw) hp hruns
            (Sys.entered_worker hw)
          have hhandles : (s.entered w).handles = s.handles := by
            simp [Sys.handles, Sys.entered, State.waiting, tally_set_eq hw, Worker.handles]
          rw [hhandles] at hcases
          exact hcases
      · cases hs with
        | turn hw => exact (turned_cases limits _ w s).abandoned hcounted hp hruns hw
    · exact settles_of_atRest (fun _ _ _ _ ha hs => ha.step hs) (fun _ hr ha hrest => released_of_atRest hr ha hrest) h ha
    · intro hrest
      exact (released_of_atRest h ha hrest).handles

/-- Abandoned with a job queued and its worker on the way, and abandoned before the engine
was open. -/
theorem abandoned_engine_is_released_with_a_job_queued :
    ∃ s s' : Sys Nat, (pool Nat .oneToTwo (.ok ())).Reach s ∧ s.pool.phase = .abandoned ∧ s.pool.queue = [.run 7] ∧
      s.handles = 1 ∧ (pool Nat .oneToTwo (.ok ())).Settles Act.own Released s ∧
      s'.pool.phase = .abandoned ∧ s'.opener = .opening ∧
      (pool Nat .oneToTwo (.ok ())).Settles Act.own Released s' := by
  have h : (pool Nat .oneToTwo (.ok ())).Reach .served := reach_served fun _ _ _ => trivial
  have h := h.next (.arrive (w := 0) rfl)
  have h := h.next (.enter (w := 0) rfl)
  have h := h.next (a := Act.dispatch 7) (.dispatch rfl Nat.one_pos rfl)
  have h := h.next (.notifyOne (t := 0) (w := 0) rfl rfl)
  have h := h.next (.dropLast rfl (by decide))
  have h' : (pool Nat .oneToTwo (.ok ())).Reach .initial := .init rfl
  have h' := h'.next (.dropLast rfl (by decide))
  exact ⟨_, _, h, rfl, rfl, rfl, ((abandoned_engine_is_released h).2 rfl).2.2.1, rfl, rfl,
    ((abandoned_engine_is_released h').2 rfl).2.2.1⟩

end EmbeddedMongo.Nonblocking
