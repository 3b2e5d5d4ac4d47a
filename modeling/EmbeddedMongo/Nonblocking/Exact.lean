import EmbeddedMongo.Nonblocking.Checkouts
import EmbeddedMongo.Nonblocking.Shrink

/-!
# What the worker counts are exact about

`alive`, `pending` and `idle` are moved by whoever holds the pool's mutex, at different moments of
a worker's life. Growth, shrinking and the close decide from them: they must tell the workers apart
while the pool is open, and no decrement may be one too many in any phase.
-/

namespace EmbeddedMongo.Nonblocking

open Conc

variable {ρ : Type} {limits : Concurrency} {close : Answer} {s s' : Sys ρ}

/-- Arrived and outside `next_job`: about to call it, or inside an operation. -/
def Worker.outside : Worker ρ → Nat
  | .ready | .running _ => 1
  | .spawned | .parked _ _ | .woken _ | .retiring _ _ | .retired => 0

/-- The counts an act takes from have something to give. `next_job` counts its caller as idle
before the first pass; a pass may resume the caller or retire it. -/
def Act.Covered (s : Sys ρ) : Act ρ → Prop
  | .arrive _ => 0 < s.pool.pending
  | .spawnFailed _ => 0 < s.pool.alive ∧ 0 < s.pool.pending
  | .enter w => 0 < (s.entered w).pool.idle ∧ 0 < (s.entered w).pool.alive
  | .turn _ => 0 < s.pool.idle ∧ 0 < s.pool.alive
  | _ => True

/-! ## The counts against the workers -/

/-- Outside a close nobody has a `Stop`, so a counted worker is on its way, idle or outside. -/
theorem alive_eq (h : (pool ρ limits close).Reach s) (hp : s.pool.phase ≠ .closing) :
    s.pool.alive = s.pool.pending + s.pool.idle + tally Worker.outside s.workers := by
  obtain ⟨_, _, hf⟩ := fifo_of_reach h
  have hnone : tally Worker.stopped s.workers = 0 := (hf.quiet hp).2
  have hsplit : tally Worker.counted s.workers = tally Worker.arriving s.workers + tally Worker.idle s.workers +
      tally Worker.outside s.workers + tally Worker.stopped s.workers := by
    rw [← tally_add, ← tally_add, ← tally_add]
    congr 1
    funext w
    cases w <;> rfl
  obtain ⟨halive, hpending, hidle⟩ := counted_of_reach h
  rw [halive, hpending, hidle, hsplit, hnone]
  omega

theorem Counted.pending_le_alive (h : Counted s) : s.pool.pending ≤ s.pool.alive := by
  have hle : tally Worker.arriving s.workers ≤ tally Worker.counted s.workers := by
    apply tally_le
    intro w
    cases w <;> simp [Worker.arriving, Worker.counted]
  rw [h.alive, h.pending]
  omega

/-- **No decrement is one too many.** -/
theorem Counted.covered {a : Act ρ} (h : Counted s) (hs : Step limits close s a s') : a.Covered s := by
  obtain ⟨halive, hpending, hidle⟩ := h
  cases hs with
  | arrive hw =>
    have hone := le_tally Worker.arriving hw
    simp only [Worker.arriving] at hone
    show 0 < s.pool.pending
    omega
  | spawnFailedNone ht | spawnFailedSome ht =>
    have hone := le_tally Task.reserving ht
    simp only [Task.reserving, Start.reserving] at hone
    simp only [Sys.reserved] at halive hpending
    show 0 < s.pool.alive ∧ 0 < s.pool.pending
    omega
  | enter hw =>
    have hone := le_tally Worker.counted hw
    simp only [Worker.counted] at hone
    refine ⟨Nat.succ_pos _, ?_⟩
    show 0 < s.pool.alive
    omega
  | turn hw =>
    have hcounted := le_tally Worker.counted hw
    have hwaiting := le_tally Worker.idle hw
    simp only [Worker.counted, Worker.idle] at hcounted hwaiting
    show 0 < s.pool.idle ∧ 0 < s.pool.alive
    omega
  | _ => trivial

/-! ## The floor -/

/-- Whoever leaves an open pool leaves its floor behind. -/
theorem Turned.leaves {w : Nat} {since : Option Nat} (h : Counted s) (hp : s.pool.phase = .opened)
    (hw : s.workers[w]? = some (.woken since)) (ht : Turned limits w s s') (gone : s'.workers[w]? = some .retired) :
    limits.min ≤ tally Worker.arrived s'.workers := by
  obtain ⟨hlt, -⟩ := List.getElem?_eq_some_iff.1 hw
  cases ht with
  | run | stop | park => simp [hlt] at gone
  | retire queue spare =>
    rcases spare with habandoned | ⟨-, hmore⟩
    · rw [hp] at habandoned
      cases habandoned
    · rw [h.serving] at hmore
      simp only [tally_set_eq hw, Worker.arrived]
      omega

theorem Turned.floor {w : Nat} {since : Option Nat} (h : Counted s) (hp : s.pool.phase = .opened)
    (hw : s.workers[w]? = some (.woken since)) (ht : Turned limits w s s') :
    tally Worker.arrived s.workers ≤ tally Worker.arrived s'.workers ∨
      limits.min ≤ tally Worker.arrived s'.workers := by
  obtain ⟨hlt, -⟩ := List.getElem?_eq_some_iff.1 hw
  cases ht with
  | run | stop | park =>
    left
    simp [tally_set_eq hw, Worker.arrived]
  | retire queue spare =>
    right
    exact Turned.leaves h hp hw (.retire queue spare) (by simp [hlt])

/-- A step of an open pool takes nobody who has arrived, unless the floor stays without them. -/
theorem Step.floor {a : Act ρ} (h : Counted s) (hp : s.pool.phase = .opened) (hs : Step limits close s a s') :
    tally Worker.arrived s.workers ≤ tally Worker.arrived s'.workers ∨
      limits.min ≤ tally Worker.arrived s'.workers := by
  cases hs with
  | serve | spawnOk =>
    left
    simp
  | notifyAll =>
    left
    simp [tally_wakeAll (f := Worker.arrived) fun _ _ => rfl]
  | notifyOne _ hw | arrive hw | wake hw | finish hw | retireWorker hw =>
    left
    simp [tally_set_eq hw, Worker.arrived]
  | @enter w hw =>
    have heq : tally Worker.arrived (s.entered w).workers = tally Worker.arrived s.workers := by
      simp [Sys.entered, tally_set_eq hw, Worker.arrived]
    rw [← heq]
    exact Turned.floor (h.entered hw) hp (Sys.entered_worker hw) (turned_cases limits none _ _)
  | turn hw => exact Turned.floor h hp hw (turned_cases limits _ _ _)
  | _ => exact .inl (Nat.le_refl _)

/-- Once the floor has arrived it stays, as long as the pool is open. -/
theorem floor_of_steps (h : (pool ρ limits close).Reach s) (hs : (pool ρ limits close).Steps s s')
    (floor : limits.min ≤ tally Worker.arrived s.workers) (hp : s'.pool.phase = .opened) :
    limits.min ≤ tally Worker.arrived s'.workers := by
  refine System.Steps.keep (I := fun s => s.pool.phase = .opened → limits.min ≤ tally Worker.arrived s.workers)
    hs h (fun _ => floor) (fun t a t' hr ih hstep hp' => ?_) hp
  have hopen : t.pool.phase = .opened := by
    rcases Step.phase hstep with hsame | ⟨hopen, -⟩
    · rw [← hsame, hp']
    · exact hopen
  have hbefore := ih hopen
  rcases Step.floor (counted_of_reach hr) hopen hstep with hmore | hkept
  · omega
  · exact hkept

/-- **The worker counts are exact**: against the workers in every phase but a close, with no
decrement too many and none past the ceiling in any. A worker that leaves an open pool leaves its
floor behind, so the floor, once it has arrived, is there until the pool closes. -/
theorem worker_counts_are_exact (h : (pool ρ limits close).Reach s) :
    (s.pool.phase = .opened ∨ s.pool.phase = .abandoned →
      s.pool.alive = s.pool.pending + s.pool.idle + tally Worker.outside s.workers) ∧
    s.pool.pending ≤ s.pool.alive ∧ s.pool.serving = tally Worker.arrived s.workers ∧
    (∀ a s', Step limits close s a s' → a.Covered s) ∧
    s.pool.alive ≤ limits.max ∧
    (∀ a s' w, Step limits close s a s' → a = .enter w ∨ a = .turn w → s.pool.phase = .opened →
      s'.workers[w]? = some .retired → limits.min ≤ tally Worker.arrived s'.workers) ∧
    (∀ s', (pool ρ limits close).Steps s s' → limits.min ≤ tally Worker.arrived s.workers →
      s'.pool.phase = .opened → limits.min ≤ tally Worker.arrived s'.workers) := by
  have hcounted := counted_of_reach h
  refine ⟨?_, hcounted.pending_le_alive, hcounted.serving, ?_, ?_, ?_, ?_⟩
  · intro hp
    apply alive_eq h
    rcases hp with hp | hp <;> simp [hp]
  · intro a s' hs
    exact hcounted.covered hs
  · have := (ceiling_of_reach h).alive
    omega
  · intro a s' w hs ha hp hgone
    rcases ha with rfl | rfl
    · cases hs with
      | enter hw =>
        exact Turned.leaves (hcounted.entered hw) hp (Sys.entered_worker hw) (turned_cases limits none _ _) hgone
    · cases hs with
      | turn hw => exact Turned.leaves hcounted hp hw (turned_cases limits _ _ _) hgone
  · intro s' hs hfloor hp
    exact floor_of_steps h hs hfloor hp

theorem worker_counts_are_exact_of_two :
    (pool Nat .oneToTwo (.ok ())).Reach .secondArrived ∧ Sys.secondArrived.pool.phase = .opened ∧
      Sys.secondArrived.pool.alive = Sys.secondArrived.pool.pending + Sys.secondArrived.pool.idle +
        tally Worker.outside Sys.secondArrived.workers ∧ Sys.secondArrived.pool.alive ≤ 2 := by
  have hexact := worker_counts_are_exact reach_secondArrived
  exact ⟨reach_secondArrived, rfl, hexact.1 (.inl rfl), hexact.2.2.2.2.1⟩

end EmbeddedMongo.Nonblocking
