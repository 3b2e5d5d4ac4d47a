import EmbeddedMongo.Pool.Ledger

/-!
# The session floor

`State::reap` spares what `open` is above the floor, and `open` counts a session from the
moment a caller reserves it. A reap that runs while a caller is opening one therefore counts a
session the pool does not have, and may take one it cannot spare.
-/

namespace EmbeddedMongo.Pool

open Conc

variable {limits : Concurrency}

/-- The sessions the pool really has. -/
def Sys.real (s : Sys) : Nat := s.state.idle.length + s.held

/-- The sessions idle for at least `timeout`. -/
def Sys.stale (timeout : Nat) (s : Sys) : Nat := s.state.idle.countP (Sweep.stale timeout s.now)

/-- Nobody but the reaper takes a session away. -/
theorem Step.real {s s' : Sys} {a : Act} (hl : Ledger limits s) (hl' : Ledger limits s')
    (hs : Step limits s a s') (look : a ≠ .look) (count : a ≠ .count) : s.real ≤ s'.real := by
  -- what the pool really has are the live sessions but for those being destroyed
  suffices s.live + s'.reaper.left.length ≤ s'.live + s.reaper.left.length by
    have := hl.live
    have := hl'.live
    simp only [Sys.real]
    omega
  cases hs with
  | look => exact absurd rfl look
  | count => exact absurd rfl count
  | growOk => simp [Sys.live, Session.alive]
  | attach _ _ hx | detach _ _ hx =>
    exact Nat.le_of_eq (congrArg (· + s.reaper.left.length) (Ledger.live_attached _ hx).1.symm)
  | @destroy _ _ _ session reaper hx =>
    have hle := le_tally Session.alive hx
    have hone : session.alive ≤ 1 := by unfold Session.alive; split <;> omega
    simp only [Sys.live, tally_set_eq hx, reaper, Reaper.left, List.length_cons]
    omega
  | _ => exact Nat.le_refl _

/-- A pass of the reaper over a pool that stays takes the stale sessions as far as the floor,
measured with the reservations counted in. -/
theorem Step.reaps {s s' : Sys} {a : Act} (hl : Ledger limits s) (hs : Step limits s a s')
    (ha : a = .look ∨ a = .count) :
    ∃ timeout, limits.idleTimeout = some timeout ∧
      (s.state.closing = true ∧ s'.real = s.real ∨
        s.state.closing = false ∧
          s.real = s'.real + Nat.min (s.real + s.reserved - limits.min) (s.stale timeout)) := by
  have pass : ∀ {timeout : Nat} {p p' : Sys}, Passed limits.min timeout p p' → p.real = s.real →
      p.state.openCount = s.real + s.reserved → p.state.closing = s.state.closing →
      p.stale timeout = s.stale timeout →
      s.state.closing = true ∧ p'.real = s.real ∨
        s.state.closing = false ∧
          s.real = p'.real + Nat.min (s.real + s.reserved - limits.min) (s.stale timeout) := by
    intro timeout p p' hp hreal hopen hclosing hstale
    obtain ⟨calls, -, -, -, hlength, -⟩ := hp.moves
    have htaken : p.real = p'.real + p'.reaper.taken := by
      simp only [Sys.real, Sys.held, Sys.seats, calls]
      omega
    cases hp with
    | stopped closing => exact .inl ⟨hclosing ▸ closing, hreal⟩
    | reaped _ _ _ _ taken there =>
      refine .inr ⟨hclosing ▸ there, ?_⟩
      rw [taken, hopen] at htaken
      rw [← hstale]
      exact hreal.symm.trans htaken
  have hcounted := hl.counted
  cases hs with
  | @look timeout elastic reaper =>
    have htaken : s.reaper.taken = 0 := by rcases reaper with hr | ⟨_, hr⟩ <;> rw [hr] <;> rfl
    refine ⟨timeout, elastic, pass (Sys.pass_cases _ _ _) rfl ?_ rfl rfl⟩
    simp only [Sys.real]
    omega
  | @count timeout closed elastic reaper =>
    simp only [reaper, Reaper.taken] at hcounted
    refine ⟨timeout, elastic, pass (Sys.pass_cases _ _ _) ?_ ?_ rfl rfl⟩
    · exact congrArg (s.state.idle.length + ·) (tally_wakeAll (fun k hk => by rw [hk]; rfl) s.calls)
    · simp only [State.closed, Sys.real]
      omega
  | _ => simp at ha

/-- Where a pass of the reaper begins, nobody is opening a session, or so few are stale that
the pool can spare them all. -/
def Spared (limits : Concurrency) (s : Sys) (a : Act) : Prop :=
  a = .look ∨ a = .count → s.state.closing = false →
    s.reserved = 0 ∨ ∀ timeout, limits.idleTimeout = some timeout → s.stale timeout + limits.min ≤ s.real

/-- A step from a pool at its floor or above keeps the floor exactly if it is spared. -/
theorem Step.floor {s s' : Sys} {a : Act} (hl : Ledger limits s) (hl' : Ledger limits s')
    (hs : Step limits s a s') (hfloor : limits.min ≤ s.real) : limits.min ≤ s'.real ↔ Spared limits s a := by
  by_cases ha : a = .look ∨ a = .count
  · obtain ⟨timeout, elastic, ⟨closing, hreal⟩ | ⟨there, hreal⟩⟩ := Step.reaps hl hs ha
    · refine ⟨fun _ _ there => ?_, fun _ => by omega⟩
      rw [closing] at there
      cases there
    · have hmin : Nat.min (s.real + s.reserved - limits.min) (s.stale timeout) =
          min (s.real + s.reserved - limits.min) (s.stale timeout) := rfl
      rw [hmin] at hreal
      constructor
      · intro hkept _ _
        by_cases hres : s.reserved = 0
        · exact .inl hres
        · refine .inr fun t ht => ?_
          rw [elastic, Option.some.injEq] at ht
          subst ht
          omega
      · intro hspared
        rcases hspared ha there with hres | hstale
        · omega
        · have := hstale timeout elastic
          omega
  · have := Step.real hl hl' hs (fun h => ha (.inl h)) (fun h => ha (.inr h))
    exact ⟨fun _ h => absurd h ha, fun _ => by omega⟩

/-- **The session floor is kept as long as every reap is spared.** In every state of a run whose
passes of the reaper all begin with nobody opening a session, or with no more stale sessions
than the pool can spare, the pool has at least `min` sessions; and a step from there keeps
that if and only if it is such a step. -/
theorem session_floor_is_kept {s : Sys} (h : (pool limits).ReachIf (Spared limits) s) :
    limits.min ≤ s.real ∧
      ∀ a s', Step limits s a s' → (limits.min ≤ s'.real ↔ Spared limits s a) := by
  have hfloor : limits.min ≤ s.real := by
    refine System.ReachIf.induct (I := fun s => limits.min ≤ s.real) (fun s hi => ?_)
      (fun s a s' hr hi hspared hs => ?_) h
    · have := congrArg List.length hi.idle
      simp only [List.length_map, List.length_range] at this
      exact Nat.le_trans (Nat.le_of_eq this.symm) (Nat.le_add_right _ _)
    · have hl := ledger_of_reach hr
      exact (Step.floor hl (hl.step hs) hs hi).2 hspared
  have hl := ledger_of_reach h.reach
  exact ⟨hfloor, fun a s' hs => Step.floor hl (hl.step hs) hs hfloor⟩

/-- A second session comes and goes: it is opened, returned, and reaped once it is stale. -/
theorem session_floor_is_kept_over_a_reap :
    ∃ s : Sys, (pool .oneToTwo).ReachIf (Spared .oneToTwo) s ∧ s.reaper = .destroying [0] 1 ∧
      Concurrency.oneToTwo.min ≤ s.real := by
  have other : ∀ (s : Sys) (a : Act), a ≠ .look → a ≠ .count → Spared .oneToTwo s a :=
    fun _ _ h h' ha => absurd ha (by simp [h, h'])
  have h : (pool .oneToTwo).ReachIf (Spared .oneToTwo) .fresh := .init opened_fresh
  have h := h.step (.call rfl) (other _ _ nofun nofun)
  have h := h.step (.call rfl) (other _ _ nofun nofun)
  have h := h.step (.checkout (c := 0) rfl (.inl rfl)) (other _ _ nofun nofun)
  have h := h.step (.checkout (c := 1) rfl (.inl rfl)) (other _ _ nofun nofun)
  have h := h.step (.growOk (c := 1) rfl rfl) (other _ _ nofun nofun)
  have h := h.step (.start (c := 0) rfl rfl rfl) (other _ _ nofun nofun)
  have h := h.step (.refuse (c := 0) rfl rfl) (other _ _ nofun nofun)
  have h := h.step (.disarm (c := 0) rfl rfl rfl) (other _ _ nofun nofun)
  have h := h.step (.giveBack (c := 0) rfl rfl) (other _ _ nofun nofun)
  have h := h.step (.tick 1000000) (other _ _ nofun nofun)
  have h := h.step (.look rfl (.inl rfl)) (fun _ _ => .inl rfl)
  exact ⟨_, h, rfl, (session_floor_is_kept h).1⟩

/-- A reap while a caller is opening a second session: the pool's only session is returned, goes
stale and is taken; the open then fails, and the pool is left with none. -/
theorem session_floor_is_broken_by_a_reap_during_an_open :
    ∃ s s' : Sys, (pool .oneToTwo).Reach s ∧ (pool .oneToTwo).Steps s s' ∧ Concurrency.oneToTwo.min = 1 ∧
      s.real = 0 ∧ s.reserved = 1 ∧ s'.real = 0 ∧ s'.reserved = 0 ∧ s'.state.openCount = 0 := by
  have h : (pool .oneToTwo).Reach .fresh := .init opened_fresh
  have h := h.next (.call rfl)
  have h := h.next (.call rfl)
  have h := h.next (.checkout (c := 0) rfl (.inl rfl))
  have h := h.next (.checkout (c := 1) rfl (.inl rfl))
  have h := h.next (.start (c := 0) rfl rfl rfl)
  have h := h.next (.refuse (c := 0) rfl rfl)
  have h := h.next (.disarm (c := 0) rfl rfl rfl)
  have h := h.next (.giveBack (c := 0) rfl rfl)
  have h := h.next (.tick 1000000)
  have h := h.next (.look rfl (.inl rfl))
  have r := h.start.step (.growErr (c := 1) rfl rfl)
  have r := r.step (.destroy rfl rfl)
  have r := r.step (.count rfl rfl)
  exact ⟨_, _, h, r, rfl, rfl, rfl, rfl, rfl, rfl⟩

end EmbeddedMongo.Pool
