import EmbeddedMongo.Nonblocking.State

/-!
# A burst of jobs

`queue_job` again and again with nothing in between, as when many tasks dispatch before any worker
is scheduled. Each call decides from the counts the one before left, and the workers on their way
count as free: so a job starts a worker only when the queue is longer than those will empty.
-/

namespace EmbeddedMongo.Nonblocking

namespace State

variable {C ρ σ : Type} {max : Nat} {s : State C ρ σ} {client : C}

/-- Consecutive calls of `queue_job`, and the workers they ask for. -/
def queueJobs (max : Nat) : List (Job ρ σ) → State C ρ σ → Except Error (List (Spawn C) × State C ρ σ)
  | [], s => .ok ([], s)
  | job :: jobs, s => do
    let (spawn, s) ← s.queueJob job max
    let (spawns, s) ← queueJobs max jobs s
    return (spawn.toList ++ spawns, s)

/-- The state with a job more in its queue. -/
def push (job : Job ρ σ) (s : State C ρ σ) : State C ρ σ := { s with queue := s.queue ++ [job] }

theorem queueJob_asks {job : Job ρ σ} (opened : s.phase = .opened) (published : s.client = some client)
    (wants : (s.push job).wantsWorker max = true) :
    s.queueJob job max = .ok (some ⟨client, s.started⟩, (s.push job).reserve.2) := by
  obtain ⟨queue, alive, pending, idle, started, phase, published⟩ := s
  cases opened
  cases published
  unfold queueJob
  rw [if_neg (by simp)]
  exact if_pos wants

theorem queueJob_asksNobody {job : Job ρ σ} (opened : s.phase = .opened)
    (free : ¬ (s.push job).wantsWorker max = true) : s.queueJob job max = .ok (none, s.push job) := by
  unfold queueJob
  rw [if_neg (by simp [opened])]
  exact if_neg free

theorem wantsWorker_push (job : Job ρ σ) :
    (s.push job).wantsWorker max = true ↔ s.alive < max ∧ s.idle + s.pending < s.queue.length + 1 := by
  change (decide (s.alive < max) && decide (s.idle + s.pending < (s.queue ++ [job]).length)) = true ↔ _
  simp

/-- A burst asks for what it is short of, never more than one worker a job and never past the
ceiling, under the indices that follow the last one. -/
theorem queueJobs_ok (jobs : List (Job ρ σ)) (opened : s.phase = .opened) (published : s.client = some client)
    (room : s.alive ≤ max) :
    ∃ spawns s', s.queueJobs max jobs = .ok (spawns, s') ∧
      spawns.length = min jobs.length (min (max - s.alive) (s.queue.length + jobs.length - (s.idle + s.pending))) ∧
      (∀ spawn ∈ spawns, spawn.client = client) ∧ s'.queue = s.queue ++ jobs ∧
      s'.alive = s.alive + spawns.length ∧ s'.pending = s.pending + spawns.length ∧
      (s.started + spawns.length < 2 ^ 32 → spawns.map Spawn.index = List.range' s.started spawns.length) := by
  induction jobs generalizing s with
  | nil =>
    refine ⟨[], s, rfl, ?_, by simp, by simp, rfl, rfl, fun _ => rfl⟩
    simp
  | cons job jobs ih =>
    by_cases hwants : (s.push job).wantsWorker max = true
    · -- a worker of its own: the next call finds one more on its way
      have hroom := (wantsWorker_push job).1 hwants
      obtain ⟨spawns, s', hrest, hlength, hclient, hqueue, halive, hpending, hindex⟩ :=
        ih (s := (s.push job).reserve.2) opened published hroom.1
      refine ⟨⟨client, s.started⟩ :: spawns, s', ?_, ?_, ?_, ?_, ?_, ?_, ?_⟩
      · rw [queueJobs, queueJob_asks opened published hwants]
        show (do let (spawns, s) ← queueJobs max jobs (s.push job).reserve.2; return _) = _
        rw [hrest]
        rfl
      · simp only [reserve, push, List.length_append, List.length_cons, List.length_nil] at hlength ⊢
        omega
      · simpa using hclient
      · simpa [reserve, push] using hqueue
      · simp only [reserve, push] at halive
        simp only [List.length_cons]
        omega
      · simp only [reserve, push] at hpending
        simp only [List.length_cons]
        omega
      · intro hlow
        simp only [List.length_cons] at hlow
        have hstarted : (s.push job).reserve.2.started = s.started + 1 :=
          Nat.mod_eq_of_lt (show s.started + 1 < 2 ^ 32 by omega)
        rw [hstarted] at hindex
        rw [List.map_cons, hindex (by omega), List.length_cons, List.range'_succ]
    · have hfree := mt (wantsWorker_push job).2 hwants
      obtain ⟨spawns, s', hrest, hlength, hclient, hqueue, halive, hpending, hindex⟩ :=
        ih (s := s.push job) opened published room
      refine ⟨spawns, s', ?_, ?_, hclient, ?_, halive, hpending, hindex⟩
      · rw [queueJobs, queueJob_asksNobody opened hwants]
        show (do let (spawns, s) ← queueJobs max jobs (s.push job); return _) = _
        rw [hrest]
        rfl
      · simp only [push, List.length_append, List.length_cons, List.length_nil] at hlength ⊢
        omega
      · simpa [push] using hqueue

/-! ## The indices handed out before -/

/-- What the pool's callers do to its state. -/
inductive Op (C ρ σ : Type) where
  | reserve
  | arrived
  | spawnFailed
  | publish (client : C)
  | queueJob (job : Job ρ σ) (max : Nat)
  | waiting
  | resumed
  | retired
  | takeJob
  | beginClose (rendezvous : Nat → σ)
  | abandon

/-- One call, with the index it hands out. A refused one leaves the state as it was. -/
def Op.call : Op C ρ σ → State C ρ σ → Option Nat × State C ρ σ
  | .reserve, s => (some s.reserve.1, s.reserve.2)
  | .arrived, s => (none, s.arrived)
  | .spawnFailed, s => (none, s.spawnFailed.2)
  | .publish client, s => (none, s.publish client)
  | .queueJob job max, s =>
    match s.queueJob job max with
    | .ok (spawn, s') => (spawn.map Spawn.index, s')
    | .error _ => (none, s)
  | .waiting, s => (none, s.waiting)
  | .resumed, s => (none, s.resumed)
  | .retired, s => (none, s.retired)
  | .takeJob, s => (none, s.takeJob.2)
  | .beginClose rendezvous, s =>
    match s.beginClose rendezvous with
    | .ok s' => (none, s')
    | .error _ => (none, s)
  | .abandon, s => (none, s.abandon)

/-- The indices a pool has handed out when it comes to be in a state. -/
inductive HandedOut : List Nat → State C ρ σ → Prop where
  | new : HandedOut [] .new
  | call {indices : List Nat} {s : State C ρ σ} (h : HandedOut indices s) (op : Op C ρ σ) :
      HandedOut (indices ++ (op.call s).1.toList) (op.call s).2

/-- An index is taken from `started`, which goes on by one. -/
theorem Op.call_started (op : Op C ρ σ) (s : State C ρ σ) :
    (op.call s).1 = none ∧ (op.call s).2.started = s.started ∨
      (op.call s).1 = some s.started ∧ (op.call s).2.started = (s.started + 1) % 2 ^ 32 := by
  cases op with
  | reserve => exact .inr ⟨rfl, rfl⟩
  | queueJob job max =>
    unfold Op.call State.queueJob
    dsimp only
    split
    · rename_i hok
      split at hok
      · cases hok
      · split at hok
        · split at hok <;> cases hok
          · exact .inr ⟨rfl, rfl⟩
          · exact .inl ⟨rfl, rfl⟩
        · cases hok
          exact .inl ⟨rfl, rfl⟩
    · exact .inl ⟨rfl, rfl⟩
  | spawnFailed =>
    refine .inl ⟨rfl, ?_⟩
    simp only [Op.call, State.spawnFailed]
    split
    · split <;> rfl
    · rfl
    · rfl
  | publish client =>
    refine .inl ⟨rfl, ?_⟩
    simp only [Op.call, State.publish]
    split <;> rfl
  | takeJob =>
    refine .inl ⟨rfl, ?_⟩
    simp only [Op.call, State.takeJob]
    split <;> rfl
  | beginClose rendezvous =>
    unfold Op.call
    dsimp only
    split
    · rename_i hok
      rw [(beginClose_ok hok).2.2]
      exact .inl ⟨rfl, rfl⟩
    · exact .inl ⟨rfl, rfl⟩
  | abandon =>
    refine .inl ⟨rfl, ?_⟩
    simp only [Op.call, State.abandon]
    split <;> rfl
  | arrived | waiting | resumed | retired => exact .inl ⟨rfl, rfl⟩

/-- Until `started` wraps, the indices handed out are the numbers below it. -/
theorem HandedOut.indices {indices : List Nat} (h : HandedOut indices s) (few : indices.length < 2 ^ 32) :
    s.started = indices.length ∧ indices = List.range s.started := by
  induction h with
  | new => exact ⟨rfl, rfl⟩
  | @call indices s _ op ih =>
    rw [List.length_append] at few
    obtain ⟨hstarted, hindices⟩ := ih (by omega)
    rcases op.call_started s with ⟨hnone, hsame⟩ | ⟨hsome, hnext⟩
    · rw [hnone, hsame]
      simpa using ⟨hstarted, hindices⟩
    · rw [hsome] at few ⊢
      simp only [Option.toList_some, List.length_singleton] at few
      rw [hnext, Nat.mod_eq_of_lt (by omega), List.range_succ, ← hindices]
      simp [hstarted]

/-- **A burst starts exactly the workers it needs.** Every call succeeds; together they ask for as
many workers as the burst is short of, by names nobody had before, and count them. -/
theorem burst_starts_the_workers_it_needs (jobs : List (Job ρ σ)) (opened : s.phase = .opened)
    (published : s.client = some client) (room : s.alive ≤ max) :
    ∃ spawns s', s.queueJobs max jobs = .ok (spawns, s') ∧
      spawns.length = min jobs.length (min (max - s.alive) (s.queue.length + jobs.length - (s.idle + s.pending))) ∧
      (∀ spawn ∈ spawns, spawn.client = client) ∧
      (s.started + spawns.length < 2 ^ 32 → (spawns.map Spawn.index).Nodup) ∧
      (∀ indices, HandedOut indices s → indices.length + spawns.length < 2 ^ 32 →
        (indices ++ spawns.map Spawn.index).Nodup) ∧
      s'.queue = s.queue ++ jobs ∧ s'.alive = s.alive + spawns.length ∧ s'.pending = s.pending + spawns.length := by
  obtain ⟨spawns, s', hok, hlength, hclient, hqueue, halive, hpending, hindex⟩ :=
    queueJobs_ok jobs opened published room
  refine ⟨spawns, s', hok, hlength, hclient, ?_, ?_, hqueue, halive, hpending⟩
  · intro hlow
    rw [hindex hlow]
    exact List.nodup_range'
  · intro indices hhanded hlow
    obtain ⟨hstarted, hindices⟩ := hhanded.indices (by omega)
    have htogether : indices ++ spawns.map Spawn.index = List.range (s.started + spawns.length) := by
      rw [hindex (by omega), hindices, List.range_add, List.range'_eq_map_range]
    rw [htogether]
    exact List.nodup_range

/-- One worker, free and yet to look: of three jobs it will take one. -/
def oneFree : State Unit Nat Unit :=
  { (State.new : State Unit Nat Unit) with alive := 1, idle := 1, started := 1, client := some () }

theorem burst_starts_the_workers_it_needs_of_three :
    oneFree.phase = .opened ∧ oneFree.alive ≤ 4 ∧ HandedOut [0] oneFree ∧
      ∃ spawns s', oneFree.queueJobs 4 [.run 7, .run 8, .run 9] = .ok (spawns, s') ∧ spawns.length = 2 ∧
        ([0] ++ spawns.map Spawn.index).Nodup ∧ s'.alive = 3 := by
  have hhanded : HandedOut [0] oneFree :=
    (((HandedOut.new.call .reserve).call .arrived).call (.publish ())).call .waiting
  obtain ⟨spawns, s', hok, hlength, -, -, hindices, -, halive, -⟩ :=
    burst_starts_the_workers_it_needs [.run 7, .run 8, .run 9] rfl rfl (by decide : oneFree.alive ≤ 4)
  have htwo : spawns.length = 2 := hlength
  refine ⟨rfl, by decide, hhanded, spawns, s', hok, htwo, hindices [0] hhanded ?_, ?_⟩
  · rw [htwo]
    decide
  · rw [halive, htwo]
    rfl

end State

end EmbeddedMongo.Nonblocking
