import EmbeddedMongo.Error

/-!
# What the async worker pool decides

`src/nonblocking/state.rs`: the job queue and the worker counts under the pool's mutex.
Every function here runs with that mutex held, so each is one atomic step of whoever calls
it. Generic, as in the source, over the handle `C` a job runs against (an `Arc<C>` there),
and further over the operation `ρ` a `Run` carries and the rendezvous `σ` of a `Stop`.
-/

namespace EmbeddedMongo.Nonblocking

/-- What travels from a task to a worker. -/
inductive Job (ρ σ : Type) where
  | run (operation : ρ)
  | stop (shutdown : σ)
  deriving DecidableEq, Repr

/-- The worker a caller must start after queueing a job nobody was free for. -/
structure Spawn (C : Type) where
  client : C
  index : Nat
  deriving DecidableEq, Repr

/-- Whether the pool takes work. -/
inductive Phase where
  | opened
  | closing
  | abandoned
  deriving DecidableEq, Repr

/-- `State`: the queue, the counts of its workers and the client they share. -/
structure State (C ρ σ : Type) where
  queue : List (Job ρ σ)
  alive : Nat
  pending : Nat
  idle : Nat
  started : Nat
  phase : Phase
  client : Option C
  deriving DecidableEq, Repr

namespace State

variable {C ρ σ : Type}

def new : State C ρ σ where
  queue := []
  alive := 0
  pending := 0
  idle := 0
  started := 0
  phase := .opened
  client := none

/-- Counts a worker about to be started. `started` is a `u32` that names threads and nothing
else, so it wraps where the others are bounded by the policy. -/
def reserve (s : State C ρ σ) : Nat × State C ρ σ :=
  (s.started, { s with
    alive := s.alive + 1
    pending := s.pending + 1
    started := (s.started + 1) % 2 ^ 32 })

def arrived (s : State C ρ σ) : State C ρ σ := { s with pending := s.pending - 1 }

/-- Uncounts a worker that failed to start; under `closing` also hands back the `Stop` queued
for it, from the back of the queue. A `Run` found there is put back. -/
def spawnFailed (s : State C ρ σ) : Option σ × State C ρ σ :=
  let s := { s with alive := s.alive - 1, pending := s.pending - 1 }
  match s.phase with
  | .closing =>
    match s.queue.getLast? with
    | some (.stop shutdown) => (some shutdown, { s with queue := s.queue.dropLast })
    | some (.run _) => (none, s)
    | none => (none, s)
  | .opened | .abandoned => (none, s)

/-- Records the handle workers started later will run on, unless the pool is going away. -/
def publish (client : C) (s : State C ρ σ) : State C ρ σ :=
  if s.phase = .opened then { s with client := some client } else s

/-- Whether the queue holds more work than the workers free or on their way can pick up. -/
def wantsWorker (max : Nat) (s : State C ρ σ) : Bool :=
  s.alive < max && s.idle + s.pending < s.queue.length

/-- `State::queue_job`: the job is queued, and a worker to be spawned is counted already. -/
def queueJob (job : Job ρ σ) (max : Nat) (s : State C ρ σ) :
    Except Error (Option (Spawn C) × State C ρ σ) :=
  if s.phase ≠ .opened then .error .closed
  else
    let s := { s with queue := s.queue ++ [job] }
    if s.wantsWorker max then
      match s.client with
      | some client =>
        let (index, s) := s.reserve
        .ok (some ⟨client, index⟩, s)
      | none => .ok (none, s)
    else .ok (none, s)

def waiting (s : State C ρ σ) : State C ρ σ := { s with idle := s.idle + 1 }

def resumed (s : State C ρ σ) : State C ρ σ := { s with idle := s.idle - 1 }

/-- The calling worker leaves; its handle is given up under the same lock. -/
def retired (s : State C ρ σ) : State C ρ σ := { s with idle := s.idle - 1, alive := s.alive - 1 }

/-- `State::take_job` -/
def takeJob (s : State C ρ σ) : Option (Job ρ σ) × State C ρ σ :=
  match s.queue with
  | job :: rest => (some job, { s with queue := rest })
  | [] => (none, s)

def isAbandoned (s : State C ρ σ) : Bool := s.phase = .abandoned

/-- Workers whose threads are running: waiting for a job or inside one. -/
def serving (s : State C ρ σ) : Nat := s.alive - s.pending

/-- A worker more than the floor needs. -/
def sparable (min : Nat) (s : State C ρ σ) : Bool := s.phase = .opened && min < s.serving

/-- Queues one `Stop` per live worker against the rendezvous built from that count. -/
def beginClose (rendezvous : Nat → σ) (s : State C ρ σ) : Except Error (State C ρ σ) :=
  if s.phase ≠ .opened ∨ s.alive = 0 then .error .closed
  else .ok { s with
    phase := .closing
    client := none
    queue := s.queue ++ List.replicate s.alive (.stop (rendezvous s.alive)) }

/-- `State::abandon` -/
def abandon (s : State C ρ σ) : State C ρ σ :=
  if s.phase ≠ .opened then s else { s with phase := .abandoned, client := none }

/-! ## What each operation does, for its callers -/

/-- An accepted job goes to the back of an open pool's queue, and a worker is asked for only
below the ceiling and from a published handle. -/
theorem queueJob_ok {job : Job ρ σ} {max : Nat} {s s' : State C ρ σ} {spawn : Option (Spawn C)}
    (h : s.queueJob job max = .ok (spawn, s')) :
    s.phase = .opened ∧ s'.queue = s.queue ++ [job] ∧ s'.phase = s.phase ∧ s'.client = s.client ∧
      s'.idle = s.idle ∧
      (spawn = none ∧ s'.alive = s.alive ∧ s'.pending = s.pending ∨
        spawn.isSome ∧ s.client.isSome ∧ s.alive < max ∧ s'.alive = s.alive + 1 ∧
          s'.pending = s.pending + 1) := by
  simp only [queueJob] at h
  split at h
  · cases h
  rename_i hopen
  split at h
  · rename_i hwants
    split at h <;> cases h
    · rename_i client hclient
      simp only [wantsWorker, Bool.and_eq_true, decide_eq_true_eq] at hwants
      exact ⟨by simpa using hopen, rfl, rfl, rfl, rfl, .inr ⟨rfl, by simp_all, hwants.1, rfl, rfl⟩⟩
    · exact ⟨by simpa using hopen, rfl, rfl, rfl, rfl, .inl ⟨rfl, rfl, rfl⟩⟩
  · cases h
    exact ⟨by simpa using hopen, rfl, rfl, rfl, rfl, .inl ⟨rfl, rfl, rfl⟩⟩

/-- A pool that is not open refuses every job. -/
theorem queueJob_error {job : Job ρ σ} {max : Nat} {s : State C ρ σ} (h : s.phase ≠ .opened) :
    s.queueJob job max = .error .closed := by
  simp [queueJob, h]

/-- A close begins on an open pool with a worker left to answer it. -/
theorem beginClose_ok {rendezvous : Nat → σ} {s s' : State C ρ σ}
    (h : s.beginClose rendezvous = .ok s') :
    s.phase = .opened ∧ 0 < s.alive ∧ s' = { s with
      phase := .closing
      client := none
      queue := s.queue ++ List.replicate s.alive (.stop (rendezvous s.alive)) } := by
  unfold beginClose at h
  split at h
  · cases h
  · rename_i hopen
    cases h
    simp only [ne_eq, not_or, Decidable.not_not] at hopen
    exact ⟨hopen.1, Nat.pos_of_ne_zero hopen.2, rfl⟩

/-- A failed start uncounts its worker and keeps everything but the counts and the queue. -/
theorem spawnFailed_counts (s : State C ρ σ) :
    s.spawnFailed.2.alive = s.alive - 1 ∧ s.spawnFailed.2.pending = s.pending - 1 ∧
      s.spawnFailed.2.idle = s.idle ∧ s.spawnFailed.2.phase = s.phase ∧
      s.spawnFailed.2.client = s.client := by
  simp only [spawnFailed]
  split
  · split <;> exact ⟨rfl, rfl, rfl, rfl, rfl⟩
  · exact ⟨rfl, rfl, rfl, rfl, rfl⟩
  · exact ⟨rfl, rfl, rfl, rfl, rfl⟩

/-- Outside a close a failed start touches nothing but the counts. -/
theorem spawnFailed_of_not_closing {s : State C ρ σ} (h : s.phase ≠ .closing) :
    s.spawnFailed.1 = none ∧ s.spawnFailed.2.queue = s.queue := by
  unfold spawnFailed
  cases hp : s.phase with
  | closing => exact absurd hp h
  | opened => exact ⟨rfl, rfl⟩
  | abandoned => exact ⟨rfl, rfl⟩

/-- Under a close it takes the `Stop` at the back. -/
theorem spawnFailed_of_closing {s : State C ρ σ} {front : List (Job ρ σ)} {shutdown : σ}
    (h : s.phase = .closing) (hq : s.queue = front ++ [.stop shutdown]) :
    s.spawnFailed.1 = some shutdown ∧ s.spawnFailed.2.queue = front := by
  simp [spawnFailed, h, hq]

theorem spawnFailed_length (s : State C ρ σ) : s.spawnFailed.2.queue.length ≤ s.queue.length := by
  simp only [spawnFailed]
  split
  · split <;> simp
  · exact Nat.le_refl _
  · exact Nat.le_refl _

end State

end EmbeddedMongo.Nonblocking
