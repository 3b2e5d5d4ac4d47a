import EmbeddedMongo.Nonblocking.Rendezvous
import EmbeddedMongo.Nonblocking.Wakeups

/-!
# The pool at rest

The pool's own steps are those of its workers, of the calls of `start_worker`, of the opening
thread and of the notifications already decided on. What comes from outside is the clock, a
wakeup nobody sent, and what the holders of an `Engine` do. Every run of the pool's own steps
is finite, and where they have run out no job and no `Stop` is queued: a worker that is left
is parked, and everybody else has returned.
-/

namespace EmbeddedMongo.Nonblocking

open Conc

variable {ρ : Type} {limits : Concurrency} {close : Answer}

/-- The step is one of the pool's own. -/
def Act.own : Act ρ → Prop
  | .tick _ | .wake _ | .cloneEngine | .dropEngine | .dispatch _ | .close => False
  | .openFailed | .openDone | .reserveFirst | .reserveFloor | .floorStarted | .publish | .report | .serve
  | .notifyOne _ _ | .notifyAll _ | .spawn _ _ | .spawnFailed _ | .leave _ | .retire _ | .arrive _ | .enter _
  | .turn _ | .finish _ => True

namespace Worker

/-- Parked, or ended. -/
def resting : Worker ρ → Prop
  | .parked _ _ | .retired | .retiring _ .done => True
  | .spawned | .ready | .woken _ | .running _ | .retiring _ _ => False

end Worker

def Task.resting : Task → Prop
  | .returned => True
  | .starting _ start => start.isOver = true
  | .queued _ | .closing | .abandoning => False

structure Resting (s : Sys ρ) : Prop where
  workers : ∀ w ∈ s.workers, w.resting
  tasks : ∀ t ∈ s.tasks, t.resting
  opener : s.ready = true → s.opener = .serving

/-- A call of `retire` is of a rendezvous there is. -/
theorem Rendezvous.found {s : Sys ρ} (h : Rendezvous s) {shutdown : Nat} (called : 0 < s.retires)
    (first : shutdown ≤ s.astray) : ∃ d, s.shutdowns[shutdown]? = some d := by
  have hp : s.pool.phase = .closing := by
    refine Classical.byContradiction fun hp => ?_
    have := (h.before hp).1
    omega
  obtain ⟨d, hd, -⟩ := h.during hp
  have hzero : shutdown = 0 := by
    have := h.astray
    omega
  exact ⟨d, by simp [hd, hzero]⟩

/-- Where no step of the pool's own is left, everybody rests. -/
theorem resting_of_atRest {s : Sys ρ} (h : (pool ρ limits close).Reach s)
    (hr : (pool ρ limits close).AtRest Act.own s) : Resting s := by
  have hz := rendezvous_of_reach h
  have blocked : ∀ {P : Prop} {a : Act ρ} {s' : Sys ρ}, Step limits close s a s' → a.own → P :=
    fun hs ha => absurd hs (hr _ _ ha)
  refine ⟨fun a ha => ?_, fun a ha => ?_, fun ready => ?_⟩
  · obtain ⟨w, hw⟩ := List.getElem?_of_mem ha
    cases a with
    | spawned => exact blocked (.arrive hw) trivial
    | ready => exact blocked (.enter hw) trivial
    | parked => trivial
    | woken => exact blocked (.turn hw) trivial
    | running => exact blocked (.finish hw) trivial
    | retired => trivial
    | retiring shutdown stage =>
      by_cases hdone : stage = .done
      · subst hdone
        trivial
      · have hcall := le_tally (Worker.call fun _ => 1) hw
        have hfirst := le_tally Worker.astray hw
        simp only [Worker.call, Worker.astray] at hcall hfirst
        obtain ⟨d, hd⟩ := hz.found (by simp only [Sys.retires, Sys.calls]; omega)
          (Nat.le_trans hfirst (Nat.le_add_right _ _))
        exact blocked (.retireWorker hw hdone hd) trivial
  · obtain ⟨t, ht⟩ := List.getElem?_of_mem ha
    cases a with
    | queued spawn =>
      by_cases hpark : ∃ w ∈ s.workers, ∃ since remaining, w = .parked since remaining
      · obtain ⟨_, hmem, since, remaining, rfl⟩ := hpark
        obtain ⟨w, hw⟩ := List.getElem?_of_mem hmem
        exact blocked (.notifyOne ht hw) trivial
      · refine blocked (.notifyNobody ht fun w hw since remaining he => ?_) trivial
        exact hpark ⟨w, hw, since, remaining, he⟩
    | closing => exact blocked (.notifyAll ht (.inl rfl)) trivial
    | abandoning => exact blocked (.notifyAll ht (.inr rfl)) trivial
    | returned => trivial
    | starting caller start =>
      cases start with
      | spawn => exact blocked (.spawnOk ht) trivial
      | started => exact blocked (.leave ht (.inl rfl)) trivial
      | leaving => exact blocked (.leave ht (.inr rfl)) trivial
      | returned => rfl
      | refused =>
        cases hs : s.pool.spawnFailed.1 with
        | none => exact blocked (.spawnFailedNone ht hs) trivial
        | some => exact blocked (.spawnFailedSome ht hs) trivial
      | retiring shutdown stage =>
        by_cases hdone : stage = .done
        · subst hdone
          rfl
        · have hcall := le_tally (Task.call fun _ => 1) ht
          have hfirst := le_tally Task.astray ht
          simp only [Task.call, Start.call, Task.astray, Start.astray] at hcall hfirst
          obtain ⟨d, hd⟩ := hz.found (by simp only [Sys.retires, Sys.calls]; omega)
            (Nat.le_trans hfirst (Nat.le_add_left _ _))
          exact blocked (.retireTask ht hdone hd) trivial
  · obtain ⟨_, _, hf⟩ := fifo_of_reach h
    rcases hf.ready ready with ho | ho
    · exact blocked (.serve ho) trivial
    · exact ho

namespace Resting

variable {s : Sys ρ}

/-- Nobody who rests is woken, and nobody owes a notification. -/
theorem silent (h : Resting s) :
    s.woken = 0 ∧ tally Task.owesOne s.tasks = 0 ∧ tally Task.owesClose s.tasks = 0 ∧
      tally Task.owesAbandon s.tasks = 0 := by
  refine ⟨tally_eq_zero.2 fun w hw => ?_, tally_eq_zero.2 fun t ht => ?_, tally_eq_zero.2 fun t ht => ?_,
    tally_eq_zero.2 fun t ht => ?_⟩
  · have := h.workers w hw
    cases w with
    | woken => exact this.elim
    | _ => rfl
  · have := h.tasks t ht
    cases t with
    | queued => exact this.elim
    | _ => rfl
  · have := h.tasks t ht
    cases t with
    | closing => exact this.elim
    | _ => rfl
  · have := h.tasks t ht
    cases t with
    | abandoning => exact this.elim
    | _ => rfl

/-- The workers that have still to come for a `Stop` are the parked ones. -/
theorem owed (h : Resting s) (ready : s.ready = true) : s.owed = s.parked ∧ s.threads = s.parked := by
  have hworkers : tally Worker.owed s.workers = tally Worker.inWait s.workers := by
    have hsum : ∀ l : List (Worker ρ), (∀ w ∈ l, w.resting) → tally Worker.owed l = tally Worker.inWait l := by
      intro l
      induction l with
      | nil => simp
      | cons w l ih =>
        intro hl
        have hw := hl w (by simp)
        have hrest := ih fun v hv => hl v (by simp [hv])
        rw [tally_cons, tally_cons, hrest]
        cases w with
        | parked | retired | retiring => rfl
        | spawned | ready | woken | running => exact hw.elim
    exact hsum _ h.workers
  have htasks : tally Task.reserving s.tasks = 0 := by
    refine tally_eq_zero.2 fun t ht => ?_
    have := h.tasks t ht
    cases t with
    | queued => exact this.elim
    | starting caller start =>
      cases start with
      | spawn => simp [Task.resting, Start.isOver] at this
      | refused => simp [Task.resting, Start.isOver] at this
      | _ => rfl
    | _ => rfl
  simp only [Sys.owed, Sys.threads, Sys.reserved, Sys.parked, hworkers, htasks, h.opener ready, Opener.reserving]
  omega

end Resting

/-- A pool at rest has an empty queue. -/
theorem queue_of_resting {s : Sys ρ} (h : (pool ρ limits close).Reach s) (hr : Resting s) : s.pool.queue = [] := by
  obtain ⟨taken, waiting, hf⟩ := fifo_of_reach h
  by_cases ready : s.ready = true
  · obtain ⟨hwoken, hone, hclose, habandon⟩ := hr.silent
    obtain ⟨howed, hthreads⟩ := hr.owed ready
    by_cases hpark : 0 < s.parked
    · have hcovered := (awake_of_reach h).covered hone (by simp [Sys.monitor, hclose, habandon]) hpark
      simp only [Sys.monitor, hwoken] at hcovered
      exact List.length_eq_zero_iff.1 (by omega)
    · have hwait : waiting = [] := by
        refine Classical.byContradiction fun hw => ?_
        have := hf.live hw
        omega
      have hstops : s.stopsLeft = 0 := by
        unfold Sys.stopsLeft
        split <;> omega
      rw [hf.queue, hwait, hstops]
      rfl
  · -- before the open has reported nobody can queue anything
    have hp := hf.not_closing ready
    have hnone : s.accepted = [] := by
      refine Classical.byContradiction fun ha => ?_
      exact ready (hf.used (.inr ha))
    have hwait : waiting = [] := by
      rw [hf.accepted] at hnone
      exact (List.append_eq_nil_iff.1 hnone).2
    rw [hf.queue, hwait, Sys.stopsLeft, if_neg hp]
    rfl

/-- A closing pool at rest has been left by every worker. -/
theorem owed_of_resting {s : Sys ρ} (h : (pool ρ limits close).Reach s) (hr : Resting s)
    (hp : s.pool.phase ≠ .opened) (ready : s.ready = true) : s.owed = 0 ∧ s.parked = 0 := by
  obtain ⟨-, -, hclose, habandon⟩ := hr.silent
  have hbroadcast : s.owedBroadcast = 0 := by
    unfold Sys.owedBroadcast
    cases s.pool.phase <;> simp [hclose, habandon]
  have hparked := roused_of_reach h hp hbroadcast
  exact ⟨(hr.owed ready).1.trans hparked, hparked⟩

/-! ## The pool's own steps run out

A `notify_all` may wake any number of workers, so it is ranked above everything else; below
it each party is ranked by the steps it has left, a `Run` or a `Stop` in the queue by the two
steps it costs the worker that takes it. -/

/-- Sections of the call left to run. -/
def Retire.rank : Retire → Nat
  | .deposit => 5
  | .countOut => 4
  | .drain => 3
  | .unwrap _ => 2
  | .answer _ => 1
  | .done => 0

theorem Shutdown.retire_rank {strong : Nat} {d : Shutdown} {stage : Retire} (more : stage ≠ .done) :
    (d.retire close strong stage).2.1.rank < stage.rank := by
  cases stage with
  | countOut => simp only [Shutdown.retire]; split <;> simp [Retire.rank]
  | answer => simp only [Shutdown.retire]; split <;> simp [Retire.rank]
  | done => exact absurd rfl more
  | _ => simp [Shutdown.retire, Retire.rank]

def Worker.rank : Worker ρ → Nat
  | .spawned | .running _ => 8
  | .ready | .woken _ => 7
  | .parked _ _ => 6
  | .retiring _ stage => stage.rank
  | .retired => 0

def Start.rank : Start → Nat
  | .spawn _ => 10
  | .refused => 6
  | .started | .leaving => 1
  | .retiring _ stage => stage.rank
  | .returned => 0

def Task.rank : Task → Nat
  | .queued spawn => 2 + 10 * spawn.toList.length
  | .starting _ start => start.rank
  | .closing | .abandoning | .returned => 0

@[simp] theorem Task.rank_notified (spawn : Option Nat) :
    (Task.notified spawn).rank + 2 = (Task.queued spawn).rank := by
  cases spawn <;> rfl

def Opener.rank (min : Nat) : Opener → Nat
  | .opening => 13 + 12 * (min - 1)
  | .opened => 12 + 12 * (min - 1)
  | .flooring left call => 11 + 12 * left + call.toList.length
  | .published => 10
  | .reported => 9
  | .failed | .serving => 0

namespace Sys

/-- The `notify_all`s still to be sent. -/
def broadcasts (s : Sys ρ) : Nat := tally Task.owesClose s.tasks + tally Task.owesAbandon s.tasks

/-- Own steps left, but for those a `notify_all` makes. -/
def rank (limits : Concurrency) (s : Sys ρ) : Nat :=
  s.opener.rank limits.min + tally Worker.rank s.workers + tally Task.rank s.tasks + 3 * s.pool.queue.length

end Sys

theorem Turned.rank {s s' : Sys ρ} {w : Nat} {since : Option Nat} (hw : s.workers[w]? = some (.woken since))
    (ht : Turned limits w s s') : s'.rank limits < s.rank limits := by
  have hle := le_tally Worker.rank hw
  simp only [Worker.rank] at hle
  cases ht with
  | run queue | stop queue | retire queue | park queue =>
    simp only [Sys.rank, State.retired, queue, tally_set_eq hw, Worker.rank, Retire.rank, List.length_cons]
    omega

/-- Every step of the pool's own lowers the rank. -/
theorem Step.rank {s s' : Sys ρ} {a : Act ρ} (ha : a.own) (hs : Step limits close s a s') :
    s'.broadcasts < s.broadcasts ∨ s'.broadcasts = s.broadcasts ∧ s'.rank limits < s.rank limits := by
  cases hs with
  | tick | cloneEngine | dropEngine | dropLast | dispatch | dispatchRefused | close | closeRefused | wake =>
    exact ha.elim
  | openFailed ho | openDone ho | floorStarted ho | report ho =>
    refine .inr ⟨rfl, ?_⟩
    simp only [Sys.rank, ho, Opener.rank, Option.toList_some, Option.toList_none, List.length_cons, List.length_nil]
    omega
  | reserveFirst ho =>
    refine .inr ⟨rfl, ?_⟩
    simp only [Sys.rank, State.reserve, ho, Opener.rank, Option.toList_none, List.length_nil]
    omega
  | publish ho =>
    have hq : (s.pool.publish .clone).queue = s.pool.queue := by unfold State.publish; split <;> rfl
    refine .inr ⟨rfl, ?_⟩
    simp only [Sys.rank, hq, ho, Opener.rank]
    omega
  | reserveFloor ho =>
    refine .inr ⟨by simp [Sys.broadcasts, Task.owesClose, Task.owesAbandon], ?_⟩
    simp only [Sys.rank, State.reserve, ho, Opener.rank, tally_append, tally_cons, tally_nil, Task.rank, Start.rank,
      Option.toList_some, Option.toList_none, List.length_cons, List.length_nil]
    omega
  | serve ho =>
    refine .inr ⟨rfl, ?_⟩
    simp only [Sys.rank, ho, Opener.rank, tally_append, tally_cons, tally_nil, Worker.rank]
    omega
  | @notifyOne _ _ spawn _ _ ht hw =>
    have hr := Task.rank_notified spawn
    have htask := le_tally Task.rank ht
    have hworker := le_tally Worker.rank hw
    refine .inr ⟨?_, ?_⟩
    · cases spawn <;> simp [Sys.broadcasts, tally_set_eq ht, Task.notified, Task.owesClose, Task.owesAbandon]
    · simp only [Sys.rank, tally_set_eq ht, tally_set_eq hw, Worker.rank] at hworker ⊢
      omega
  | @notifyNobody _ spawn ht =>
    have hr := Task.rank_notified spawn
    have htask := le_tally Task.rank ht
    refine .inr ⟨?_, ?_⟩
    · cases spawn <;> simp [Sys.broadcasts, tally_set_eq ht, Task.notified, Task.owesClose, Task.owesAbandon]
    · simp only [Sys.rank, tally_set_eq ht]
      omega
  | notifyAll ht owed =>
    left
    have hclose := le_tally Task.owesClose ht
    have habandon := le_tally Task.owesAbandon ht
    rcases owed with rfl | rfl <;>
      simp only [Sys.broadcasts, tally_set_eq ht, Task.owesClose, Task.owesAbandon] at hclose habandon ⊢ <;> omega
  | spawnOk ht =>
    have htask := le_tally Task.rank ht
    refine .inr ⟨by simp [Sys.broadcasts, tally_set_eq ht, Task.owesClose, Task.owesAbandon], ?_⟩
    simp only [Sys.rank, tally_append, tally_cons, tally_nil, tally_set_eq ht, Task.rank, Start.rank,
      Worker.rank] at htask ⊢
    omega
  | spawnErr ht =>
    have htask := le_tally Task.rank ht
    refine .inr ⟨by simp [Sys.broadcasts, tally_set_eq ht, Task.owesClose, Task.owesAbandon], ?_⟩
    simp only [Sys.rank, tally_set_eq ht, Task.rank, Start.rank] at htask ⊢
    omega
  | spawnFailedNone ht | spawnFailedSome ht =>
    have htask := le_tally Task.rank ht
    have hq := State.spawnFailed_length s.pool
    refine .inr ⟨by simp [Sys.broadcasts, tally_set_eq ht, Task.owesClose, Task.owesAbandon], ?_⟩
    simp only [Sys.rank, tally_set_eq ht, Task.rank, Start.rank, Retire.rank] at htask ⊢
    omega
  | leave ht last =>
    have htask := le_tally Task.rank ht
    refine .inr ⟨by simp [Sys.broadcasts, tally_set_eq ht, Task.owesClose, Task.owesAbandon], ?_⟩
    rcases last with rfl | rfl <;> simp only [Sys.rank, tally_set_eq ht, Task.rank, Start.rank] at htask ⊢ <;> omega
  | @retireTask _ _ _ _ d ht more =>
    have htask := le_tally Task.rank ht
    have hrank := @Shutdown.retire_rank close s.handles d _ more
    refine .inr ⟨by simp [Sys.broadcasts, tally_set_eq ht, Task.owesClose, Task.owesAbandon], ?_⟩
    simp only [Sys.rank, tally_set_eq ht, Task.rank, Start.rank] at htask ⊢
    omega
  | arrive hw | finish hw =>
    have hworker := le_tally Worker.rank hw
    refine .inr ⟨rfl, ?_⟩
    simp only [Sys.rank, State.arrived, tally_set_eq hw, Worker.rank] at hworker ⊢
    omega
  | @enter w hw =>
    have ht := turned_cases limits none w (s.entered w)
    have heq : (s.entered w).rank limits = s.rank limits := by
      simp [Sys.rank, Sys.entered, State.waiting, tally_set_eq hw, Worker.rank]
    refine .inr ⟨?_, ?_⟩
    · rw [Sys.broadcasts, Sys.broadcasts, ht.same.1]
      rfl
    · exact heq ▸ ht.rank (Sys.entered_worker hw)
  | @turn w since hw =>
    have ht := turned_cases limits since w s
    refine .inr ⟨?_, ht.rank hw⟩
    rw [Sys.broadcasts, Sys.broadcasts, ht.same.1]
  | @retireWorker _ _ _ d hw more =>
    have hworker := le_tally Worker.rank hw
    have hrank := @Shutdown.retire_rank close s.handles d _ more
    refine .inr ⟨rfl, ?_⟩
    simp only [Sys.rank, tally_set_eq hw, Worker.rank] at hworker ⊢
    omega

/-- **The pool comes to rest** whatever its parties do, as long as nobody outside acts, with
whatever an invariant comes to where no step of its own is left. -/
theorem settles_of_atRest {I P : Sys ρ → Prop}
    (keep : ∀ s a s', (pool ρ limits close).Reach s → I s → Step limits close s a s' → I s')
    (rest : ∀ s, (pool ρ limits close).Reach s → I s → (pool ρ limits close).AtRest Act.own s → P s) {s : Sys ρ}
    (h : (pool ρ limits close).Reach s) (hi : I s) : (pool ρ limits close).Settles Act.own P s := by
  refine h.settles (Prod.lex Nat.lt_wfRel Nat.lt_wfRel).wf (fun s => (s.broadcasts, s.rank limits))
    (fun s a s' _ _ ha hs => ?_) keep rest hi
  rcases Step.rank ha hs with hlt | ⟨heq, hlt⟩
  · exact .left _ _ hlt
  · rw [heq]
    exact .right _ hlt

/-- The same with everybody resting. -/
theorem settles_of_reach {I P : Sys ρ → Prop}
    (keep : ∀ s a s', (pool ρ limits close).Reach s → I s → Step limits close s a s' → I s')
    (rest : ∀ s, (pool ρ limits close).Reach s → I s → Resting s → P s) {s : Sys ρ}
    (h : (pool ρ limits close).Reach s) (hi : I s) : (pool ρ limits close).Settles Act.own P s :=
  settles_of_atRest keep (fun s hr hi hrest => rest s hr hi (resting_of_atRest hr hrest)) h hi

end EmbeddedMongo.Nonblocking
