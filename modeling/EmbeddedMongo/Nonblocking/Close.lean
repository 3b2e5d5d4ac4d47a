import EmbeddedMongo.Nonblocking.Rest

/-!
# The close, from its `begin_close` on

Every party counted when the close began takes one `Stop` and calls `retire` once, in whatever
order they come to it, so the rendezvous fills and answers.
-/

namespace EmbeddedMongo.Nonblocking

open Conc

variable {ρ : Type} {limits : Concurrency} {close : Answer}

/-- The `Stop`s among the jobs. -/
def stops (jobs : List (Job ρ Nat)) : Nat :=
  jobs.countP fun
    | .stop _ => true
    | .run _ => false

@[simp] theorem stops_append (a b : List (Job ρ Nat)) : stops (a ++ b) = stops a + stops b := List.countP_append

@[simp] theorem stops_map_run (l : List ρ) : stops (l.map .run) = 0 := by
  refine List.countP_eq_zero.2 fun job hjob => ?_
  obtain ⟨operation, -, rfl⟩ := List.mem_map.1 hjob
  simp

@[simp] theorem stops_replicate (n : Nat) : stops (List.replicate n (.stop 0) : List (Job ρ Nat)) = n := by
  simp [stops, List.countP_replicate]

/-- The rendezvous never changes how many it was built for. -/
theorem Shutdown.retire_capacity (strong : Nat) (d : Shutdown) (stage : Retire) :
    (d.retire close strong stage).1.capacity = d.capacity := by
  cases stage with
  | answer => simp only [Shutdown.retire]; split <;> rfl
  | _ => rfl

/-- The worker has not retired by itself. -/
def Worker.kept : Worker ρ → Bool
  | .retired => false
  | .spawned | .ready | .parked _ _ | .woken _ | .running _ | .retiring _ _ => true

theorem Turned.kept {s s' : Sys ρ} {w : Nat} {a : Worker ρ} (hp : s.pool.phase = .closing)
    (hw : s.workers[w]? = some a) (ht : Turned limits w s s') {v : Nat}
    (hv : s.workers[v]?.any Worker.kept = true) : s'.workers[v]?.any Worker.kept = true := by
  cases ht with
  | run | stop | park => exact any_set_of hw rfl hv
  | retire _ spare => rcases spare with h | ⟨h, -⟩ <;> simp [hp] at h

/-- While the pool closes no worker retires by itself. -/
theorem Step.kept {s s' : Sys ρ} {a : Act ρ} (hp : s.pool.phase = .closing) (hs : Step limits close s a s')
    {v : Nat} (hv : s.workers[v]?.any Worker.kept = true) : s'.workers[v]?.any Worker.kept = true := by
  cases hs with
  | serve | spawnOk => exact any_append_of hv
  | notifyOne _ hw | arrive hw | wake hw | finish hw | retireWorker hw => exact any_set_of hw rfl hv
  | notifyAll =>
    simp only [Sys.wakeAll, List.getElem?_map, Option.any_map]
    cases hget : s.workers[v]? with
    | none => rw [hget] at hv; cases hv
    | some b =>
      rw [hget] at hv
      cases b with
      | retired => cases hv
      | _ => rfl
  | @enter w hw =>
    have hv' : (s.entered w).workers[v]?.any Worker.kept = true := any_set_of hw rfl hv
    exact (turned_cases limits none w (s.entered w)).kept (s := s.entered w) hp (Sys.entered_worker hw) hv'
  | turn hw => exact (turned_cases limits _ _ _).kept hp hw hv
  | _ => exact hv

/-- A state of the close that began in `s₀`. -/
structure Closing (s₀ s : Sys ρ) : Prop where
  phase : s.pool.phase = .closing
  built : ∃ d, s.shutdowns = [d] ∧ d.capacity = s₀.pool.alive
  workers : ∀ w : Nat, s₀.workers[w]?.any Worker.kept = true → s.workers[w]?.any Worker.kept = true

theorem Closing.begin {s₀ s : Sys ρ} (h : (pool ρ limits close).Reach s₀) (opened : s₀.pool.phase = .opened)
    (alive : 1 ≤ s₀.pool.alive) (hs : Step limits close s₀ .close s) : Closing s₀ s := by
  obtain ⟨_, _, hf⟩ := fifo_of_reach h
  cases hs with
  | close _ _ ok =>
    obtain ⟨-, -, rfl⟩ := State.beginClose_ok ok
    refine ⟨rfl, ⟨.new s₀.pool.alive, ?_, rfl⟩, fun _ hw => hw⟩
    rw [(hf.quiet (by simp [opened])).1]
    rfl
  | closeRefused _ _ refused =>
    have : ¬ (s₀.pool.phase ≠ .opened ∨ s₀.pool.alive = 0) := by simp [opened]; omega
    simp [State.beginClose, this] at refused

theorem Closing.step {s₀ s s' : Sys ρ} {a : Act ρ} (hr : (pool ρ limits close).Reach s) (h : Closing s₀ s)
    (hs : Step limits close s a s') : Closing s₀ s' := by
  obtain ⟨_, _, hf⟩ := fifo_of_reach hr
  obtain ⟨d, hd, hcapacity⟩ := h.built
  have hopen : s.pool.phase ≠ .opened := by simp [h.phase]
  have hphase : s'.pool.phase = .closing := by
    rcases Step.phase hs with hsame | ⟨ho, -⟩
    · exact hsame.trans h.phase
    · exact absurd ho hopen
  refine ⟨hphase, ?_, fun w hw => Step.kept h.phase hs (h.workers w hw)⟩
  cases Step.called hf hs with
  | other _ _ shutdowns => exact ⟨d, shutdowns.trans hd, hcapacity⟩
  | begins _ opened => exact absurd opened hopen
  | ends _ opened => exact absurd opened hopen
  | begun _ _ _ shutdowns => exact ⟨d, shutdowns.trans hd, hcapacity⟩
  | @moved shutdown stage e _ _ _ _ found _ _ shutdowns =>
    rw [hd] at found shutdowns
    cases shutdown with
    | zero =>
      obtain rfl : d = e := by simpa using found
      exact ⟨_, shutdowns, (Shutdown.retire_capacity _ d stage).trans hcapacity⟩
    | succ n => simp at found

theorem Closing.steps {s₀ s s' : Sys ρ} (hr : (pool ρ limits close).Reach s) (h : Closing s₀ s)
    (hs : (pool ρ limits close).Steps s s') : Closing s₀ s' :=
  hs.keep hr h fun _ _ _ hr hi hs => Closing.step hr hi hs

/-- Where a closing pool has come to rest, everybody counted has called `retire` and the
answer is sent. -/
theorem Closing.rest {s₀ s : Sys ρ} (hr : (pool ρ limits close).Reach s) (h : Closing s₀ s) (rest : Resting s) :
    s.retires = s₀.pool.alive ∧ s.answers.length = 1 ∧
      ∀ w : Nat, s₀.workers[w]?.any Worker.kept = true → .worker w ∈ s.consumed := by
  obtain ⟨taken, waiting, hf⟩ := fifo_of_reach hr
  obtain ⟨howed, hparked⟩ := owed_of_resting hr rest (by simp [h.phase]) (hf.used (.inl h.phase))
  obtain ⟨d, hd, hb⟩ := (rendezvous_of_reach hr).during h.phase
  obtain ⟨e, he, hcapacity⟩ := h.built
  obtain rfl : d = e := by simpa using hd.symm.trans he
  -- every call of `retire` has run to its end
  have hended : ∀ f : Retire → Nat, f .done = 0 → s.calls f = 0 := by
    intro f hf
    have hworkers : tally (Worker.call f) s.workers = 0 := by
      refine tally_eq_zero.2 fun w hw => ?_
      have := rest.workers w hw
      cases w with
      | retiring _ stage =>
        cases stage with
        | done => exact hf
        | _ => exact this.elim
      | _ => rfl
    have htasks : tally (Task.call f) s.tasks = 0 := by
      refine tally_eq_zero.2 fun t ht => ?_
      have := rest.tasks t ht
      cases t with
      | starting _ start =>
        cases start with
        | retiring _ stage =>
          cases stage with
          | done => exact hf
          | _ => cases this
        | _ => rfl
      | _ => rfl
    rw [Sys.calls, hworkers, htasks]
  have hremaining := hb.remaining
  have hlast := hb.last
  rw [hended Retire.depositing rfl, hended Retire.counting rfl, howed] at hremaining
  rw [hremaining, hended Retire.draining rfl, hended Retire.drained rfl] at hlast
  refine ⟨?_, by simpa using hlast, fun w hw => ?_⟩
  · have := hb.capacity
    omega
  · have hkept := h.workers w hw
    rw [(consumed_of_reach hr).parties]
    cases hget : s.workers[w]? with
    | none => rw [hget] at hkept; cases hkept
    | some b =>
      rw [hget] at hkept
      have hrest := rest.workers b (List.mem_of_getElem? hget)
      have hpark := le_tally Worker.inWait hget
      cases b with
      | parked => simp only [Sys.parked, Worker.inWait] at hparked hpark; omega
      | retired => cases hkept
      | retiring => simp [Sys.inRetire, hget, Worker.inRetire]
      | spawned | ready | woken | running => exact hrest.elim

/-- **The close rendezvous is balanced.** From a `begin_close` on an open pool that counts at
least one worker, in every state that follows: the `Stop`s it queued are in the queue or
consumed, by a party each that has called `retire` and none of them twice; those in the queue
are as many as the workers that have still to come for one; a worker counted at the
`begin_close` is one of these or has consumed its own; a call whose thread could not be started
finds a `Stop` at the back; `retire` has been called once for each `Stop` consumed, and at most
one answer is sent. The pool's own steps come to rest, and then `retire` has been called
exactly as often as the rendezvous was built for, by every worker that was counted among
others, and exactly one answer is sent. -/
theorem close_rendezvous_is_balanced {s₀ s₁ s : Sys ρ} (h : (pool ρ limits close).Reach s₀)
    (opened : s₀.pool.phase = .opened) (alive : 1 ≤ s₀.pool.alive) (hs : Step limits close s₀ .close s₁)
    (run : (pool ρ limits close).Steps s₁ s) :
    s.consumed.Nodup ∧ (∀ p, p ∈ s.consumed ↔ s.inRetire p = true) ∧
    stops s.pool.queue + s.consumed.length = s₀.pool.alive ∧ stops s.pool.queue = s.owed ∧
    (∀ w : Nat, s₀.workers[w]?.any Worker.kept = true →
      .worker w ∈ s.consumed ∨ ∃ a, s.workers[w]? = some a ∧ a.owed = 1) ∧
    (∀ (t : Nat) (caller : Caller), s.tasks[t]? = some (.starting caller .refused) →
      s.pool.queue.getLast? = some (.stop 0) ∧ s.pool.spawnFailed.1 = some 0) ∧
    s.retires = s.consumed.length ∧ s.answers.length ≤ 1 ∧
    (pool ρ limits close).Settles Act.own
      (fun s' => s'.retires = s₀.pool.alive ∧ s'.answers.length = 1 ∧
        ∀ w : Nat, s₀.workers[w]?.any Worker.kept = true → .worker w ∈ s'.consumed) s := by
  have h₁ : (pool ρ limits close).Reach s₁ := h.next hs
  have hr := h₁.steps run
  have hc : Closing s₀ s := (Closing.begin h opened alive hs).steps h₁ run
  obtain ⟨taken, waiting, hf⟩ := fifo_of_reach hr
  obtain ⟨d, hd, hb⟩ := (rendezvous_of_reach hr).during hc.phase
  obtain ⟨e, he, hcapacity⟩ := hc.built
  obtain rfl : d = e := by simpa using hd.symm.trans he
  have hconsumed := consumed_of_reach hr
  have hstops : stops s.pool.queue = s.owed := by
    rw [hf.queue, stops_append, stops_map_run, stops_replicate, Nat.zero_add, Sys.stopsLeft, if_pos hc.phase]
  refine ⟨hconsumed.once, hconsumed.parties, ?_, hstops, fun w hw => ?_, fun t caller ht => ?_,
    hconsumed.calls.symm, ?_, ?_⟩
  · rw [hstops, hconsumed.calls, ← hcapacity, hb.capacity]
  · have hkept := hc.workers w hw
    cases hget : s.workers[w]? with
    | none => rw [hget] at hkept; cases hkept
    | some b =>
      rw [hget] at hkept
      cases b with
      | retiring => exact .inl ((hconsumed.parties _).2 (by simp [Sys.inRetire, hget, Worker.inRetire]))
      | retired => cases hkept
      | spawned | ready | parked | woken | running => exact .inr ⟨_, rfl, rfl⟩
  · have hback := hf.back hc.phase ht
    exact ⟨by rw [hback]; simp, (State.spawnFailed_of_closing hc.phase hback).1⟩
  · have := hb.last
    omega
  · exact settles_of_reach (fun _ _ _ hr hi hs => Closing.step hr hi hs)
      (fun _ hr hi rest => Closing.rest hr hi rest) hr hc

/-- A close that finds one worker at the queue and one whose thread then cannot be started:
both consume a `Stop`. -/
theorem close_rendezvous_is_balanced_after_a_failed_spawn :
    ∃ s₀ s₁ s : Sys Nat, (pool Nat .oneToTwo (.ok ())).Reach s₀ ∧ s₀.pool.alive = 2 ∧
      (pool Nat .oneToTwo (.ok ())).Steps s₁ s ∧ s.consumed = [.task 0, .worker 0] ∧ s.answers = [.ok ()] ∧
      stops s.pool.queue + s.consumed.length = s₀.pool.alive ∧ s.retires = s.consumed.length := by
  have h : (pool Nat .oneToTwo (.ok ())).Reach .served := reach_served fun _ _ _ => trivial
  have h := h.next (.arrive (w := 0) rfl)
  have h := h.next (a := Act.dispatch 7) (.dispatch rfl Nat.one_pos rfl)
  have h := h.next (.notifyNobody (t := 0) rfl (inWait_eq_zero.1 rfl))
  have h₁ := h.next (.close rfl Nat.one_pos rfl)
  have r := h₁.start.step (.spawnErr (t := 0) rfl)
  have r := r.step (.spawnFailedSome (t := 0) rfl rfl)
  have r := r.step (.retireTask (t := 0) rfl nofun rfl)
  have r := r.step (.retireTask (t := 0) rfl nofun rfl)
  have r := r.step (.enter (w := 0) rfl)
  have r := r.step (.finish (w := 0) rfl)
  have r := r.step (.enter (w := 0) rfl)
  have r := r.step (.retireWorker (w := 0) rfl nofun rfl)
  have r := r.step (.retireWorker (w := 0) rfl nofun rfl)
  have r := r.step (.retireWorker (w := 0) rfl nofun rfl)
  have r := r.step (.retireWorker (w := 0) rfl nofun rfl)
  have r := r.step (.retireWorker (w := 0) rfl nofun rfl)
  obtain ⟨-, -, hstops, -, -, -, hretires, -⟩ :=
    close_rendezvous_is_balanced h rfl (by decide) (.close rfl Nat.one_pos rfl) r
  exact ⟨_, _, _, h, rfl, r, rfl, rfl, hstops, hretires⟩

end EmbeddedMongo.Nonblocking
