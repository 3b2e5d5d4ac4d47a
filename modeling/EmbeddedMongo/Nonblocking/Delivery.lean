import EmbeddedMongo.Nonblocking.Rest

/-!
# No accepted job is lost

The queue as its callers rely on it, over every run of the pool: growth, failed starts, idle
retirements, a close and an abandon in any order.
-/

namespace EmbeddedMongo.Nonblocking

open Conc

variable {ρ : Type} {limits : Concurrency} {close : Answer}

/-- The operations among the jobs, in order. -/
def runs (jobs : List (Job ρ Nat)) : List ρ :=
  jobs.filterMap fun
    | .run operation => some operation
    | .stop _ => none

@[simp] theorem runs_append (a b : List (Job ρ Nat)) : runs (a ++ b) = runs a ++ runs b := List.filterMap_append

@[simp] theorem runs_cons_run (operation : ρ) (l : List (Job ρ Nat)) :
    runs (.run operation :: l) = operation :: runs l := rfl

@[simp] theorem runs_cons_stop (shutdown : Nat) (l : List (Job ρ Nat)) : runs (.stop shutdown :: l) = runs l := rfl

@[simp] theorem runs_map_run (l : List ρ) : runs (l.map .run) = l := by
  induction l with
  | nil => rfl
  | cons operation l ih => simp [ih]

@[simp] theorem runs_stops (n : Nat) : runs (List.replicate n (.stop 0) : List (Job ρ Nat)) = [] := by
  induction n with
  | zero => rfl
  | succ n ih => simpa [List.replicate_succ] using ih

/-- A pool that is not open accepts nothing more. -/
theorem Step.accepted {s s' : Sys ρ} {a : Act ρ} (hp : s.pool.phase ≠ .opened) (hs : Step limits close s a s') :
    s'.accepted = s.accepted ∧ s'.pool.phase ≠ .opened := by
  have hphase : s'.pool.phase ≠ .opened := by
    rcases Step.phase hs with hsame | ⟨hopen, -⟩
    · exact hsame ▸ hp
    · exact absurd hopen hp
  refine ⟨?_, hphase⟩
  cases hs with
  | dispatch _ _ ok => exact absurd (State.queueJob_ok ok).1 hp
  | enter => exact (turned_cases limits none _ _).same.2.2.2.2.2.2
  | turn => exact (turned_cases limits _ _ _).same.2.2.2.2.2.2
  | _ => rfl

theorem accepted_of_steps {s s' : Sys ρ} (h : (pool ρ limits close).Reach s) (hp : s.pool.phase ≠ .opened)
    (hs : (pool ρ limits close).Steps s s') : s'.accepted = s.accepted := by
  refine (hs.keep (I := fun t => t.accepted = s.accepted ∧ t.pool.phase ≠ .opened) h ⟨rfl, hp⟩ ?_).1
  rintro t a t' - ⟨haccepted, hp⟩ hs
  obtain ⟨hsame, hp'⟩ := Step.accepted hp hs
  exact ⟨hsame.trans haccepted, hp'⟩

/-- What has been handed out and what is queued are what was accepted, in order. -/
theorem Fifo.delivered {s : Sys ρ} {taken waiting : List ρ} (h : Fifo s taken waiting) :
    runs (s.handed.map Prod.snd) = taken ∧ runs s.pool.queue = waiting := by
  rw [h.handed, h.queue]
  simp

/-- Behind a `Stop` that was handed out there are only `Stop`s. -/
theorem Fifo.after_stop {s : Sys ρ} {taken waiting : List ρ} (h : Fifo s taken waiting)
    {before after : List (Nat × Job ρ Nat)} {w shutdown : Nat}
    (hs : s.handed = before ++ (w, .stop shutdown) :: after) :
    runs (after.map Prod.snd) = [] ∧ waiting = [] := by
  have hsplit := h.handed
  rw [hs, List.map_append, List.map_cons] at hsplit
  have hsome : 0 < tally Worker.stopped s.workers := by
    refine Nat.pos_of_ne_zero fun h0 => ?_
    have hmem : (.stop shutdown : Job ρ Nat) ∈ taken.map .run := by
      have : (.stop shutdown : Job ρ Nat) ∈ before.map Prod.snd ++ .stop shutdown :: after.map Prod.snd := by simp
      rwa [hsplit, h0, List.replicate_zero, List.append_nil] at this
    simp at hmem
  refine ⟨?_, h.drained hsome⟩
  -- the `Stop` is past the operations, so what follows it is a suffix of the `Stop`s
  obtain ⟨front, hfront, hrest⟩ | ⟨back, hback, hrest⟩ := List.append_eq_append_iff.1 hsplit
  · cases front with
    | nil =>
      rw [List.nil_append] at hrest
      have htail : after.map Prod.snd = List.replicate (tally Worker.stopped s.workers - 1) (.stop 0) := by
        cases hn : tally Worker.stopped s.workers with
        | zero => omega
        | succ n =>
          rw [hn, List.replicate_succ] at hrest
          exact (List.cons.inj hrest).2
      rw [htail, runs_stops]
    | cons job front =>
      rw [List.cons_append] at hrest
      obtain rfl : .stop shutdown = job := (List.cons.inj hrest).1
      have hmem : (.stop shutdown : Job ρ Nat) ∈ taken.map .run := by
        rw [hfront]
        simp
      simp at hmem
  · have hall : ∀ job ∈ after.map Prod.snd, job = .stop 0 := by
      intro job hjob
      have hmem : job ∈ List.replicate (tally Worker.stopped s.workers) (.stop 0) := by
        rw [hrest]
        simp [hjob]
      exact (List.mem_replicate.1 hmem).2
    rw [List.eq_replicate_of_mem hall, runs_stops]

/-- Once no worker is left and none is being started, nothing is queued. -/
theorem Fifo.empty {s : Sys ρ} {taken waiting : List ρ} (h : Fifo s taken waiting)
    (workers : ∀ w ∈ s.workers, w.owed = 0) (opener : s.opener.reserving = 0) :
    waiting = [] ∧ (tally Task.reserving s.tasks = 0 → s.pool.queue = []) := by
  have hworkers : tally Worker.owed s.workers = 0 := tally_eq_zero.2 workers
  have hwait : waiting = [] := by
    refine Classical.byContradiction fun hw => ?_
    have := h.live hw
    simp only [Sys.threads] at this
    omega
  refine ⟨hwait, fun tasks => ?_⟩
  have hstops : s.stopsLeft = 0 := by
    unfold Sys.stopsLeft Sys.owed Sys.reserved
    split <;> omega
  rw [h.queue, hwait, hstops]
  rfl

/-- **No accepted job is lost, duplicated or reordered at the queue.** In every reachable state
the accepted operations are, in order, those handed to a worker and those still queued; behind
a `Stop` that was handed out nothing but `Stop`s comes; a pool that is closing or abandoned
accepts no more, now or later; where every worker has been let go and none is being started
the queue is empty; and from every reachable state the pool's own steps come to rest, each
accepted operation then handed out. -/
theorem no_accepted_job_is_lost {s : Sys ρ} (h : (pool ρ limits close).Reach s) :
    s.accepted = runs (s.handed.map Prod.snd) ++ runs s.pool.queue ∧
    (∀ before w shutdown after, s.handed = before ++ (w, .stop shutdown) :: after →
      runs (after.map Prod.snd) = [] ∧ runs s.pool.queue = []) ∧
    (s.pool.phase ≠ .opened → (∀ operation, s.pool.queueJob (.run operation) limits.max = .error .closed) ∧
      ∀ s', (pool ρ limits close).Steps s s' → s'.accepted = s.accepted) ∧
    ((∀ w ∈ s.workers, w.owed = 0) → s.opener.reserving = 0 → runs s.pool.queue = [] ∧
      (tally Task.reserving s.tasks = 0 → s.pool.queue = [])) ∧
    (pool ρ limits close).Settles Act.own
      (fun s' => s'.pool.queue = [] ∧ s'.accepted = runs (s'.handed.map Prod.snd)) s := by
  have split : ∀ s, (pool ρ limits close).Reach s →
      s.accepted = runs (s.handed.map Prod.snd) ++ runs s.pool.queue := by
    intro s h
    obtain ⟨taken, waiting, hf⟩ := fifo_of_reach h
    rw [hf.delivered.1, hf.delivered.2]
    exact hf.accepted
  obtain ⟨taken, waiting, hf⟩ := fifo_of_reach h
  refine ⟨split s h, fun before w shutdown after hs => ?_, fun hp => ⟨fun operation => ?_, fun s' hs => ?_⟩,
    fun workers opener => ?_, ?_⟩
  · obtain ⟨hafter, hwait⟩ := hf.after_stop hs
    exact ⟨hafter, hf.delivered.2.trans hwait⟩
  · exact State.queueJob_error hp
  · exact accepted_of_steps h hp hs
  · obtain ⟨hwait, hempty⟩ := hf.empty workers opener
    exact ⟨hf.delivered.2.trans hwait, hempty⟩
  · refine settles_of_reach (I := fun _ => True) (fun _ _ _ _ _ _ => trivial) (fun s' hr _ hrest => ?_) h trivial
    have hqueue := queue_of_resting hr hrest
    refine ⟨hqueue, ?_⟩
    have := split s' hr
    rwa [hqueue, show runs ([] : List (Job ρ Nat)) = [] from rfl, List.append_nil] at this

/-- One job taken and one queued, on a pool that closes with a worker still being started. -/
theorem no_accepted_job_is_lost_while_closing :
    ∃ s : Sys Nat, (pool Nat .oneToTwo (.ok ())).Reach s ∧ s.pool.phase = .closing ∧ s.accepted = [7, 8] ∧
      runs (s.handed.map Prod.snd) = [7] ∧ runs s.pool.queue = [8] ∧
      (∀ s', (pool Nat .oneToTwo (.ok ())).Steps s s' → s'.accepted = [7, 8]) ∧
      (pool Nat .oneToTwo (.ok ())).Settles Act.own
        (fun s' => s'.pool.queue = [] ∧ s'.accepted = runs (s'.handed.map Prod.snd)) s := by
  have h : (pool Nat .oneToTwo (.ok ())).Reach .served := reach_served fun _ _ _ => trivial
  have h := h.next (.arrive (w := 0) rfl)
  have h := h.next (a := Act.dispatch 7) (.dispatch rfl Nat.one_pos rfl)
  have h := h.next (.enter (w := 0) rfl)
  have h := h.next (a := Act.dispatch 8) (.dispatch rfl Nat.one_pos rfl)
  have h := h.next (.close rfl Nat.one_pos rfl)
  obtain ⟨-, -, hclosing, -, hsettles⟩ := no_accepted_job_is_lost h
  exact ⟨_, h, rfl, rfl, rfl, rfl, (hclosing (by decide)).2, hsettles⟩

end EmbeddedMongo.Nonblocking
