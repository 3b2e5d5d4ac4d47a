import EmbeddedMongo.Nonblocking.Wakeups

/-!
# An elastic pool can shrink back to its floor

`next_job` decides once, when a worker parks, whether it waits under a deadline; workers that
arrive afterwards wake nobody. What keeps the surplus from sleeping for ever is that a worker
parks without a deadline only while at most the floor has arrived, itself included.
-/

namespace EmbeddedMongo.Nonblocking

open Conc

variable {ρ : Type} {limits : Concurrency} {close : Answer}

namespace Worker

/-- Counted in `serving`: the thread is running and has not left the pool. -/
def arrived : Worker ρ → Nat
  | .ready | .parked _ _ | .woken _ | .running _ | .retiring _ _ => 1
  | .spawned | .retired => 0

/-- Parked in `next_job`'s untimed wait. -/
def untimed : Worker ρ → Nat
  | .parked _ none => 1
  | .parked _ (some _) | .spawned | .ready | .woken _ | .running _ | .retiring _ _ | .retired => 0

/-- Running a job, or waiting under a deadline. -/
def occupied : Worker ρ → Nat
  | .running _ | .parked _ (some _) => 1
  | .parked _ none | .spawned | .ready | .woken _ | .retiring _ _ | .retired => 0

/-- On its way to look at the queue. -/
def looking : Worker ρ → Nat
  | .ready | .woken _ => 1
  | .spawned | .parked _ _ | .running _ | .retiring _ _ | .retired => 0

end Worker

namespace Sys

/-- Workers in the untimed wait. -/
def untimed (s : Sys ρ) : Nat := tally Worker.untimed s.workers

def occupied (s : Sys ρ) : Nat := tally Worker.occupied s.workers

def looking (s : Sys ρ) : Nat := tally Worker.looking s.workers

end Sys

/-- `serving` is the number of workers that have arrived. -/
theorem Counted.serving {s : Sys ρ} (h : Counted s) : s.pool.serving = tally Worker.arrived s.workers := by
  have hsplit : tally Worker.counted s.workers =
      tally Worker.arrived s.workers + tally Worker.arriving s.workers := by
    rw [← tally_add]
    congr 1
    funext w
    cases w <;> rfl
  unfold State.serving
  rw [h.alive, h.pending, hsplit]
  omega

theorem untimed_le_arrived (l : List (Worker ρ)) : tally Worker.untimed l ≤ tally Worker.arrived l := by
  apply tally_le
  intro w
  cases w with
  | parked _ remaining => cases remaining <;> simp [Worker.untimed, Worker.arrived]
  | _ => simp [Worker.untimed]

/-- A pass parks without a deadline only under a fixed policy or when nobody is to spare. -/
theorem State.turn_untimed {C σ : Type} {now : Nat} {since sparableSince : Option Nat} {s s' : State C ρ σ}
    (h : s.turn limits now since = (.park sparableSince none, s')) :
    limits.idleTimeout = none ∨ s.sparable limits.min = false := by
  unfold State.turn State.takeJob at h
  cases hq : s.queue with
  | cons job rest => simp [hq] at h
  | nil =>
    simp only [hq] at h
    split at h
    · simp at h
    · split at h
      · rename_i hfilter
        rw [Option.filter_eq_none_iff] at hfilter
        cases ht : limits.idleTimeout with
        | none => exact .inl rfl
        | some timeout => exact .inr (by simpa using hfilter timeout ht)
      · split at h <;> simp at h

/-- A pass of `next_job` adds to the untimed wait only while no more than the floor serves. -/
theorem Sys.untimed_turned {s : Sys ρ} {w : Nat} {since : Option Nat} (elastic : limits.idleTimeout.isSome)
    (hp : s.pool.phase = .opened) (hw : s.workers[w]? = some (.woken since)) :
    (s.turned limits since w).untimed ≤ s.untimed ∨ (s.turned limits since w).pool.serving ≤ limits.min := by
  unfold Sys.turned
  split
  · left
    simp [Sys.untimed, tally_set_eq hw, Worker.untimed]
  · left
    simp [Sys.untimed, tally_set_eq hw, Worker.untimed]
  · left
    simp [Sys.untimed, tally_set_eq hw, Worker.untimed]
  · rename_i sparableSince remaining after hturn
    cases remaining with
    | some remaining =>
      left
      simp [Sys.untimed, tally_set_eq hw, Worker.untimed]
    | none =>
      right
      have hsame : after = s.pool := by
        have hcases := State.turn_cases limits s.now since s.pool
        rw [hturn] at hcases
        cases hcases
        rfl
      show after.serving ≤ limits.min
      rw [hsame]
      rcases State.turn_untimed hturn with hfixed | hkept
      · simp [hfixed] at elastic
      · simpa [State.sparable, hp] using hkept

theorem untimed_wakeAll (l : List (Worker ρ)) : tally Worker.untimed (Sys.wakeAll l) = 0 := by
  apply tally_eq_zero.2
  intro w hw
  obtain ⟨v, -, rfl⟩ := List.mem_map.1 hw
  cases v <;> rfl

/-- A step of an open elastic pool adds to the untimed wait only while no more than the floor
serves. -/
theorem Step.untimed {s s' : Sys ρ} {a : Act ρ} (elastic : limits.idleTimeout.isSome)
    (hp : s.pool.phase = .opened) (hs : Step limits close s a s') :
    s'.untimed ≤ s.untimed ∨ s'.pool.serving ≤ limits.min := by
  cases hs with
  | serve | spawnOk =>
    left
    simp [Sys.untimed, Worker.untimed]
  | notifyOne _ hw | arrive hw | wake hw | finish hw | retireWorker hw =>
    left
    simp [Sys.untimed, tally_set_eq hw, Worker.untimed]
  | notifyAll =>
    left
    simp [Sys.untimed, untimed_wakeAll]
  | @enter w hw =>
    have heq : (s.entered w).untimed = s.untimed := by
      simp [Sys.untimed, Sys.entered, tally_set_eq hw, Worker.untimed]
    rw [← heq]
    exact Sys.untimed_turned elastic hp (Sys.entered_worker hw)
  | turn hw => exact Sys.untimed_turned elastic hp hw
  | _ => exact .inl (Nat.le_refl _)

/-- At most the floor is ever in the untimed wait of an open elastic pool. -/
theorem untimed_of_reach {s : Sys ρ} (h : (pool ρ limits close).Reach s) (elastic : limits.idleTimeout.isSome)
    (hp : s.pool.phase = .opened) : s.untimed ≤ limits.min := by
  refine System.Reach.induct (I := fun s => s.pool.phase = .opened → s.untimed ≤ limits.min)
    (fun _ hi _ => ?_) (fun s a s' hr ih hs hp' => ?_) h hp
  · rw [hi]
    exact Nat.zero_le _
  · have hopen : s.pool.phase = .opened := by
      rcases Step.phase hs with hsame | ⟨hopen, -⟩
      · rw [← hsame, hp']
      · exact hopen
    have hbefore := ih hopen
    rcases Step.untimed elastic hopen hs with hle | hfloor
    · omega
    · have hcount := (counted_of_reach (hr.next hs)).serving
      have harrived := untimed_le_arrived s'.workers
      unfold Sys.untimed
      omega

/-- In an open pool a worker that has arrived is in the untimed wait, occupied or looking. -/
theorem serving_of_opened {s : Sys ρ} (h : (pool ρ limits close).Reach s) (hp : s.pool.phase = .opened) :
    s.pool.serving = s.untimed + s.occupied + s.looking := by
  obtain ⟨_, _, hf⟩ := fifo_of_reach h
  have hnone : tally Worker.stopped s.workers = 0 := (hf.quiet (by simp [hp])).2
  have hsplit : tally Worker.arrived s.workers = tally Worker.untimed s.workers +
      tally Worker.occupied s.workers + tally Worker.looking s.workers + tally Worker.stopped s.workers := by
    rw [← tally_add, ← tally_add, ← tally_add]
    congr 1
    funext w
    cases w with
    | parked _ remaining => cases remaining <;> rfl
    | _ => rfl
  rw [(counted_of_reach h).serving, hsplit, hnone]
  rfl

/-- A worker that looks at an empty queue while more than the floor serves leaves the pool or
waits under a deadline. -/
theorem Sys.turned_surplus {s : Sys ρ} {w : Nat} {since : Option Nat} (elastic : limits.idleTimeout.isSome)
    (hp : s.pool.phase = .opened) (hw : s.workers[w]? = some (.woken since)) (hq : s.pool.queue = [])
    (surplus : limits.min < s.pool.serving) :
    (s.turned limits since w).workers[w]? = some .retired ∨ ∃ sparableSince remaining,
      (s.turned limits since w).workers[w]? = some (.parked sparableSince (some remaining)) := by
  obtain ⟨hlt, -⟩ := List.getElem?_eq_some_iff.1 hw
  have hcases := State.turn_cases limits s.now since s.pool
  unfold Sys.turned
  generalize hturn : s.pool.turn limits s.now since = turn at hcases
  cases hcases with
  | job queue => simp [hq] at queue
  | retire =>
    left
    simp [hlt]
  | @park sparableSince remaining =>
    cases remaining with
    | some remaining =>
      right
      exact ⟨sparableSince, remaining, by simp [hlt]⟩
    | none =>
      rcases State.turn_untimed hturn with hfixed | hkept
      · simp [hfixed] at elastic
      · simp only [State.sparable, hp, decide_true, Bool.true_and, decide_eq_false_iff_not] at hkept
        exact absurd surplus hkept

/-- **The pool can shrink back.** An open elastic pool has at most the floor in the untimed
wait, so its surplus is occupied or on its way to the queue; and whoever of it finds the queue
empty leaves or waits under a deadline. -/
theorem surplus_is_not_in_the_untimed_wait {s : Sys ρ} (h : (pool ρ limits close).Reach s)
    (elastic : limits.idleTimeout.isSome) (hp : s.pool.phase = .opened) :
    s.untimed ≤ limits.min ∧ s.pool.serving - limits.min ≤ s.occupied + s.looking ∧
    ∀ w a s', Step limits close s a s' → a = .enter w ∨ a = .turn w → s.pool.queue = [] →
      limits.min < s.pool.serving →
      s'.workers[w]? = some .retired ∨ ∃ sparableSince remaining,
        s'.workers[w]? = some (.parked sparableSince (some remaining)) := by
  have hfloor := untimed_of_reach h elastic hp
  refine ⟨hfloor, ?_, ?_⟩
  · rw [serving_of_opened h hp]
    omega
  · intro w a s' hs ha hq surplus
    rcases ha with rfl | rfl
    · cases hs with
      | enter hw => exact Sys.turned_surplus elastic hp (Sys.entered_worker hw) hq surplus
    · cases hs with
      | turn hw => exact Sys.turned_surplus elastic hp hw hq surplus

/-- The first worker back in the untimed wait, the second one just arrived. -/
def Sys.secondArrived : Sys Nat :=
  { Sys.served with
    pool := { Sys.served.pool with alive := 2, pending := 0, idle := 1, started := 2 }
    workers := [.parked none none, .ready]
    tasks := [.returned, .starting .engine .returned]
    accepted := [7, 8]
    handed := [(0, .run 7), (0, .run 8)] }

theorem reach_secondArrived : (pool Nat .oneToTwo (.ok ())).Reach .secondArrived := by
  have h : (pool Nat .oneToTwo (.ok ())).Reach .served := reach_served fun _ _ _ => trivial
  have h := h.next (.arrive (w := 0) rfl)
  have h := h.next (.enter (w := 0) rfl)
  have h := h.next (a := Act.dispatch 7) (.dispatch rfl Nat.one_pos rfl)
  have h := h.next (.notifyOne (t := 0) (w := 0) rfl rfl)
  have h := h.next (a := Act.dispatch 8) (.dispatch rfl Nat.one_pos rfl)
  have h := h.next (.notifyNobody (t := 1) rfl (inWait_eq_zero.1 rfl))
  have h := h.next (.spawnOk (t := 1) rfl)
  have h := h.next (.leave (t := 1) rfl (.inl rfl))
  have h := h.next (.turn (w := 0) rfl)
  have h := h.next (.finish (w := 0) rfl)
  have h := h.next (.enter (w := 0) rfl)
  have h := h.next (.finish (w := 0) rfl)
  have h := h.next (.enter (w := 0) rfl)
  have h := h.next (.arrive (w := 1) rfl)
  exact h

theorem surplus_is_not_in_the_untimed_wait_of_two :
    (pool Nat .oneToTwo (.ok ())).Reach .secondArrived ∧ Sys.secondArrived.pool.phase = .opened ∧
      Sys.secondArrived.pool.serving - Concurrency.oneToTwo.min ≤
        Sys.secondArrived.occupied + Sys.secondArrived.looking :=
  ⟨reach_secondArrived, rfl, (surplus_is_not_in_the_untimed_wait reach_secondArrived rfl rfl).2.1⟩

/-- A worker that has just arrived, or was just woken, is neither running nor waiting: two
have arrived over a floor of one, and nobody is occupied. -/
theorem surplus_can_be_on_its_way :
    ∃ s : Sys Nat, (pool Nat .oneToTwo (.ok ())).Reach s ∧ s.pool.phase = .opened ∧
      ¬ s.pool.serving - Concurrency.oneToTwo.min ≤ s.occupied :=
  ⟨.secondArrived, reach_secondArrived, rfl, by decide⟩

end EmbeddedMongo.Nonblocking
