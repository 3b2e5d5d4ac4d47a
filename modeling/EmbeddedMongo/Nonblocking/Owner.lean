import EmbeddedMongo.Nonblocking.Rendezvous
import EmbeddedMongo.Nonblocking.Wakeups

/-!
# Who owns the engine when a close answers

`Shutdown::retire` closes the engine through `Arc::into_inner`, which needs the last handle
there is. When its decrement reached zero every worker's handle is in the vault, but
`start_worker` holds the handle it was passed until it returns: a caller between the outcome
of its spawn and that return is `lingering` with one more. The strong count then is exactly
one more than the callers lingering.
-/

namespace EmbeddedMongo.Nonblocking

open Conc

variable {ρ : Type} {limits : Concurrency} {close : Answer}

/-- The spawn has succeeded, or its failure was nobody's `Stop`, and the call has not returned. -/
def Start.lingering : Start → Nat
  | .started | .leaving => 1
  | .spawn _ | .refused | .retiring _ _ | .returned => 0

def Task.lingering : Task → Nat
  | .starting _ start => start.lingering
  | .queued _ | .closing | .abandoning | .returned => 0

namespace Sys

/-- Callers inside `start_worker` with a handle no count stands for. -/
def lingering (s : Sys ρ) : Nat := tally Task.lingering s.tasks

/-- The handles on the engine, by what stands for them. -/
theorem handles_eq (s : Sys ρ) :
    s.handles = s.pool.client.toList.length + s.opener.handles +
      (tally Worker.owed s.workers + tally Task.reserving s.tasks) + s.lingering + s.calls Retire.handles +
      tally (fun d : Shutdown => d.handles.length) s.shutdowns := by
  have hworkers : (Worker.handles : Worker ρ → Nat) = fun w => w.owed + w.call Retire.handles := by
    funext w
    cases w with
    | retiring => simp [Worker.handles, Worker.owed, Worker.call]
    | _ => rfl
  have htasks : Task.handles = fun t => (t.reserving + t.lingering) + t.call Retire.handles := by
    funext t
    cases t with
    | starting _ start =>
      cases start with
      | retiring => simp [Task.handles, Start.handles, Task.reserving, Start.reserving, Task.lingering,
          Start.lingering, Task.call, Start.call]
      | _ => rfl
    | _ => rfl
  simp only [handles, calls, lingering, hworkers, htasks, tally_add]
  omega

end Sys

/-- With the vault emptied for the last time, what is left of the engine's handles is the one
of the call that emptied it and those of the callers lingering. -/
theorem handles_of_drained {s : Sys ρ} (h : (pool ρ limits close).Reach s) (hd : 0 < s.calls Retire.drained) :
    s.handles + s.calls Retire.answering = 1 + s.lingering ∧ s.owed = 0 ∧ s.calls Retire.drained = 1 := by
  obtain ⟨taken, waiting, hf⟩ := fifo_of_reach h
  have hz := rendezvous_of_reach h
  have hp : s.pool.phase = .closing := by
    refine Classical.byContradiction fun hp => ?_
    have := (hz.before hp).1
    rw [Sys.retires_eq] at this
    omega
  obtain ⟨d, hshutdowns, hb⟩ := hz.during hp
  have hlast := hb.last
  have hremaining := hb.remaining
  have howed : s.owed = 0 := by omega
  -- the opening thread is counted until it serves, so it serves
  have hopener : s.opener.handles = 0 := by
    rcases hf.ready (hf.used (.inl hp)) with ho | ho
    · simp only [Sys.owed, Sys.reserved, ho, Opener.reserving] at howed
      omega
    · rw [ho]
      rfl
  have hvault : tally (fun d : Shutdown => d.handles.length) s.shutdowns = 0 := by
    rw [hshutdowns, tally_cons, tally_nil, hb.emptied (by omega)]
    rfl
  have hheld : s.calls Retire.handles + (s.calls Retire.emptyHanded + s.calls Retire.answering) =
      s.calls Retire.depositing + s.calls Retire.drained := by
    rw [← Sys.calls_add, ← Sys.calls_add, ← Sys.calls_add]
    exact congrArg (fun f => s.calls f) (funext Retire.handles_add)
  have hholding := hb.holding
  have hcounted : tally Worker.owed s.workers + tally Task.reserving s.tasks = 0 := by
    simp only [Sys.owed, Sys.reserved] at howed
    omega
  refine ⟨?_, howed, by omega⟩
  rw [Sys.handles_eq, hb.client, hopener, hcounted, hvault]
  simp only [Option.toList_none, List.length_nil]
  omega

/-- **The strong count at the final `retire`**: one, and one for each caller lingering. -/
theorem handles_of_unwrap {s : Sys ρ} {p : Party} {last : Option Arc} (h : (pool ρ limits close).Reach s)
    (hu : s.stage p = some (.unwrap last)) : last.isSome = true ∧ s.handles = 1 + s.lingering := by
  have hdrained : 1 ≤ s.calls Retire.drained := Sys.le_calls hu Retire.drained
  obtain ⟨hhandles, -, hone⟩ := handles_of_drained h hdrained
  have hunwrap : 1 ≤ s.calls fun stage => stage.drained - stage.answering :=
    Sys.le_calls hu fun stage => stage.drained - stage.answering
  have hsplit : s.calls (fun stage => stage.drained - stage.answering) + s.calls Retire.answering =
      s.calls Retire.drained := by
    rw [← Sys.calls_add]
    exact congrArg (fun f => s.calls f) (funext fun stage => Nat.sub_add_cancel stage.answering_le)
  refine ⟨?_, by omega⟩
  cases last with
  | some => rfl
  | none =>
    have hempty : 1 ≤ s.calls Retire.emptyHanded := Sys.le_calls hu Retire.emptyHanded
    have hp : s.pool.phase = .closing := by
      refine Classical.byContradiction fun hp => ?_
      have := ((rendezvous_of_reach h).before hp).1
      rw [Sys.retires_eq] at this
      omega
    obtain ⟨d, -, hb⟩ := (rendezvous_of_reach h).during hp
    have := hb.holding
    omega

/-- With nobody being started any more, nobody begins to linger. -/
theorem Step.lingering {s s' : Sys ρ} {a : Act ρ} (hs : Step limits close s a s')
    (none : tally Task.reserving s.tasks = 0) : s'.lingering ≤ s.lingering := by
  cases hs with
  | spawnOk ht | spawnFailedNone ht =>
    have := le_tally Task.reserving ht
    simp only [Task.reserving, Start.reserving] at this
    omega
  | reserveFloor | dropLast | dispatch | close => simp [Sys.lingering, Task.lingering, Start.lingering]
  | @notifyOne _ _ spawn _ _ ht =>
    cases spawn <;> simp [Sys.lingering, tally_set_eq ht, Task.notified, Task.lingering, Start.lingering]
  | @notifyNobody _ spawn ht =>
    cases spawn <;> simp [Sys.lingering, tally_set_eq ht, Task.notified, Task.lingering, Start.lingering]
  | notifyAll ht | spawnErr ht | spawnFailedSome ht | leave ht | retireTask ht =>
    simp [Sys.lingering, tally_set_eq ht, Task.lingering, Start.lingering]
  | enter => exact Nat.le_of_eq (congrArg (tally Task.lingering) (turned_cases limits Option.none _ _).same.1)
  | turn => exact Nat.le_of_eq (congrArg (tally Task.lingering) (turned_cases limits _ _ _).same.1)
  | _ => exact Nat.le_refl _

/-- No caller lingers when the final `retire` unwraps the handle it was left. -/
def CallersGone (s : Sys ρ) (a : Act ρ) : Prop :=
  ∀ p last, a = .retire p → s.stage p = some (.unwrap last) → s.lingering = 0

/-- What was answered, and is about to be, is what the engine's close said. -/
structure Closes (close : Answer) (s : Sys ρ) : Prop where
  sent : ∀ result ∈ s.answers, result = close
  right : s.calls (Retire.mistaken close) = 0
  alone : 0 < s.calls Retire.answering → s.lingering = 0

theorem Closes.step {s s' : Sys ρ} {a : Act ρ} (hr : (pool ρ limits close).Reach s) (h : Closes close s)
    (hgone : CallersGone s a) (hs : Step limits close s a s') : Closes close s' := by
  obtain ⟨_, _, hf⟩ := fifo_of_reach hr
  -- nobody is being started once a call has emptied the vault
  have linger : 0 < s.calls Retire.drained → s'.lingering ≤ s.lingering := by
    intro hd
    have howed := (handles_of_drained hr hd).2.1
    simp only [Sys.owed, Sys.reserved] at howed
    exact Step.lingering hs (by omega)
  have hle := Sys.calls_le Retire.answering_le s
  have same : s'.answers = s.answers → (∀ f, s'.calls f = s.calls f) → Closes close s' := by
    intro answers calls
    refine ⟨answers ▸ h.sent, by rw [calls]; exact h.right, fun ha => ?_⟩
    rw [calls] at ha
    have := h.alone ha
    have := linger (by omega)
    omega
  cases Step.called hf hs with
  | other aside | begins aside | ends aside => exact same aside.answers aside.calls
  | begun _ _ _ _ answers calls =>
    refine ⟨answers ▸ h.sent, by rw [calls]; exact h.right, fun ha => ?_⟩
    rw [calls] at ha
    have := h.alone ha
    have := linger (Nat.lt_of_lt_of_le ha hle)
    omega
  | @moved _ stage d party act current _ _ _ _ _ answers calls =>
    have hmistaken := calls (Retire.mistaken close)
    have hanswering := calls Retire.answering
    have hright := h.right
    have hdrained := Sys.le_calls current Retire.drained
    have hright' := Sys.le_calls current (Retire.mistaken close)
    -- a section that leaves the call short of an answer
    have quiet : (d.retire close s.handles stage).2.2 = none → (d.retire close s.handles stage).2.1.answering = 0 →
        (d.retire close s.handles stage).2.1.mistaken close = 0 → Closes close s' := by
      intro hnone hnext hnext'
      refine ⟨?_, by omega, fun ha => ?_⟩
      · rw [answers, hnone, Option.toList_none, List.append_nil]
        exact h.sent
      · have := h.alone (by omega)
        have := linger (by omega)
        omega
    cases stage with
    | unwrap last =>
      obtain ⟨hlast, hhandles⟩ := handles_of_unwrap hr current
      have hgone := hgone party last act current
      have hclose : (d.retire close s.handles (.unwrap last)).2.1 = .answer close := by
        simp [Shutdown.retire, hlast, hhandles, hgone]
      simp only [hclose, Retire.mistaken, Retire.drained, if_true] at hmistaken hdrained
      refine ⟨?_, by omega, fun _ => ?_⟩
      · simpa [answers, Shutdown.retire] using h.sent
      · have := linger hdrained
        omega
    | answer result =>
      have hresult : result = close := by
        simp only [Retire.mistaken] at hright'
        split at hright'
        · assumption
        · omega
      have hdone : (d.retire close s.handles (.answer result)).2.1 = .done := by
        simp only [Shutdown.retire]
        split <;> rfl
      have hsent : ∀ r ∈ (d.retire close s.handles (.answer result)).2.2.toList, r = close := by
        simp only [Shutdown.retire]
        split <;> simp [hresult]
      simp only [hdone, Retire.mistaken, Retire.answering, Retire.drained] at hmistaken hanswering hdrained
      refine ⟨?_, by omega, fun _ => ?_⟩
      · rw [answers]
        intro r hmem
        rcases List.mem_append.1 hmem with hmem | hmem
        · exact h.sent r hmem
        · exact hsent r hmem
      · have := h.alone (by omega)
        have := linger hdrained
        omega
    | deposit => exact quiet rfl rfl rfl
    | countOut =>
      refine quiet rfl ?_ ?_ <;> simp only [Shutdown.retire] <;> split <;> rfl
    | drain => exact quiet rfl rfl rfl
    | done => exact quiet rfl rfl rfl

/-- **An async close ends as the engine's sole owner** as long as no caller lingers in
`start_worker` when it comes to that. In every reachable state the final `retire` holds a
handle, and it is the only one exactly if no caller lingers; and in every state of a run in
which none did whenever a final `retire` unwrapped its handle, a party about to answer has what
the engine's own close said, with no handle on the engine left anywhere, and every answer sent
was that. -/
theorem close_ends_as_sole_owner {s : Sys ρ} (h : (pool ρ limits close).Reach s) :
    (∀ p last, s.stage p = some (.unwrap last) → last.isSome = true ∧ (s.handles = 1 ↔ s.lingering = 0)) ∧
    ((pool ρ limits close).ReachIf CallersGone s →
      (∀ p result, s.stage p = some (.answer result) → result = close ∧ s.handles = 0) ∧
      ∀ result ∈ s.answers, result = close) := by
  constructor
  · intro p last hu
    obtain ⟨hlast, hhandles⟩ := handles_of_unwrap h hu
    exact ⟨hlast, by omega⟩
  · intro hrun
    have hc : Closes close s :=
      System.ReachIf.induct (I := Closes close) (fun _ hi => hi ▸ ⟨by simp [Sys.initial], rfl, fun _ => rfl⟩)
        (fun _ _ _ hr hi hgone hs => Closes.step hr hi hgone hs) hrun
    refine ⟨fun p result ha => ?_, hc.sent⟩
    have hanswering : 1 ≤ s.calls Retire.answering := Sys.le_calls ha Retire.answering
    have hmistaken := Sys.le_calls ha (Retire.mistaken close)
    rw [hc.right] at hmistaken
    obtain ⟨hhandles, -⟩ := handles_of_drained h (Sys.le_calls ha Retire.drained)
    have halone := hc.alone hanswering
    refine ⟨?_, by omega⟩
    simp only [Retire.mistaken] at hmistaken
    split at hmistaken
    · assumption
    · omega

/-- A worker started for a queued job, its caller back before the close comes to its end. -/
theorem close_ends_as_sole_owner_once_the_caller_is_back :
    ∃ s : Sys Nat, (pool Nat .oneToTwo (.ok ())).ReachIf CallersGone s ∧ s.stage (.worker 1) = some (.answer (.ok ())) ∧
      (∀ p result, s.stage p = some (.answer result) → result = .ok () ∧ s.handles = 0) := by
  have other : ∀ (s : Sys Nat) a, (∀ p, a ≠ .retire p) → CallersGone s a := fun _ _ ha p _ hp => absurd hp (ha p)
  have h : (pool Nat .oneToTwo (.ok ())).ReachIf CallersGone .served := reach_served other
  have h := h.step (.arrive (w := 0) rfl) (other _ _ nofun)
  have h := h.step (a := Act.dispatch 7) (.dispatch rfl Nat.one_pos rfl) (other _ _ nofun)
  have h := h.step (.notifyNobody (t := 0) rfl (inWait_eq_zero.1 rfl)) (other _ _ nofun)
  have h := h.step (.spawnOk (t := 0) rfl) (other _ _ nofun)
  have h := h.step (.close rfl Nat.one_pos rfl) (other _ _ nofun)
  have h := h.step (.enter (w := 0) rfl) (other _ _ nofun)
  have h := h.step (.finish (w := 0) rfl) (other _ _ nofun)
  have h := h.step (.enter (w := 0) rfl) (other _ _ nofun)
  have h := h.step (.leave (t := 0) rfl (.inl rfl)) (other _ _ nofun)
  have h := h.step (.retireWorker (w := 0) rfl nofun rfl) (fun _ _ _ _ => rfl)
  have h := h.step (.retireWorker (w := 0) rfl nofun rfl) (fun _ _ _ _ => rfl)
  have h := h.step (.arrive (w := 1) rfl) (other _ _ nofun)
  have h := h.step (.enter (w := 1) rfl) (other _ _ nofun)
  have h := h.step (.retireWorker (w := 1) rfl nofun rfl) (fun _ _ _ _ => rfl)
  have h := h.step (.retireWorker (w := 1) rfl nofun rfl) (fun _ _ _ _ => rfl)
  have h := h.step (.retireWorker (w := 1) rfl nofun rfl) (fun _ _ _ _ => rfl)
  have h := h.step (.retireWorker (w := 1) rfl nofun rfl) (fun _ _ _ _ => rfl)
  exact ⟨_, h, rfl, ((close_ends_as_sole_owner h.reach).2 h).1⟩

/-- The same run with the caller still in `start_worker`: the final `retire` meets a second
handle, and the close is answered with an error although the engine's own close would have
said `Ok`. -/
theorem close_is_answered_closed_while_a_caller_lingers :
    ∃ s s' : Sys Nat, (pool Nat .oneToTwo (.ok ())).Reach s ∧ s.stage (.worker 1) = some (.unwrap (some .clone)) ∧
      s.handles = 2 ∧ (pool Nat .oneToTwo (.ok ())).Steps s s' ∧ s'.answers = [.error .closed] ∧ s'.handles = 1 := by
  have h : (pool Nat .oneToTwo (.ok ())).Reach .served := reach_served fun _ _ _ => trivial
  have h := h.next (.arrive (w := 0) rfl)
  have h := h.next (a := Act.dispatch 7) (.dispatch rfl Nat.one_pos rfl)
  have h := h.next (.notifyNobody (t := 0) rfl (inWait_eq_zero.1 rfl))
  have h := h.next (.spawnOk (t := 0) rfl)
  have h := h.next (.close rfl Nat.one_pos rfl)
  have h := h.next (.enter (w := 0) rfl)
  have h := h.next (.finish (w := 0) rfl)
  have h := h.next (.enter (w := 0) rfl)
  have h := h.next (.retireWorker (w := 0) rfl nofun rfl)
  have h := h.next (.retireWorker (w := 0) rfl nofun rfl)
  have h := h.next (.arrive (w := 1) rfl)
  have h := h.next (.enter (w := 1) rfl)
  have h := h.next (.retireWorker (w := 1) rfl nofun rfl)
  have h := h.next (.retireWorker (w := 1) rfl nofun rfl)
  have h := h.next (.retireWorker (w := 1) rfl nofun rfl)
  have r := h.start.step (.retireWorker (w := 1) rfl nofun rfl)
  have r := r.step (.retireWorker (w := 1) rfl nofun rfl)
  exact ⟨_, _, h, rfl, rfl, r, rfl, rfl⟩

end EmbeddedMongo.Nonblocking
