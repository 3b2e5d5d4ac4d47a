import EmbeddedMongo.Options
import EmbeddedMongo.Nonblocking.State

/-!
# One pass of a worker's wait for its next job

`src/nonblocking/queue.rs`, `Pool::next_job`. The loop holds the pool's mutex from where it
takes or regains it to where it returns or parks, so one pass is one atomic step: `turn`.
-/

namespace EmbeddedMongo.Nonblocking

/-- How a pass of `next_job`'s loop ends: with a job, with the worker retired, or parked on
the condvar until woken or until `remaining` has passed. -/
inductive Turn (ρ σ : Type) where
  | job (job : Job ρ σ)
  | retire
  | park (sparableSince : Option Nat) (remaining : Option Nat)
  deriving DecidableEq, Repr

namespace State

variable {C ρ σ : Type}

/-- A pass of `next_job`'s loop at time `now`, by a worker sparable since `since`. -/
def turn (limits : Concurrency) (now : Nat) (since : Option Nat) (s : State C ρ σ) :
    Turn ρ σ × State C ρ σ :=
  match s.takeJob with
  | (some job, s) => (.job job, s.resumed)
  | (none, s) =>
    if s.isAbandoned then (.retire, s.retired)
    else
      match limits.idleTimeout.filter fun _ => s.sparable limits.min with
      | none => (.park none none, s)
      | some timeout =>
        let since := since.getD now
        let remaining := timeout - (now - since)
        if remaining = 0 then (.retire, s.retired)
        else (.park (some since) (some remaining), s)

/-- What a pass can do. A worker is answered from the front of the queue; it retires only on
an empty queue, abandoned or with the floor kept without it; it parks only on an empty queue
of a pool not abandoned. -/
inductive TurnOf (limits : Concurrency) (s : State C ρ σ) : Turn ρ σ × State C ρ σ → Prop where
  | job {job : Job ρ σ} {rest : List (Job ρ σ)} (queue : s.queue = job :: rest) :
      TurnOf limits s (.job job, { s with queue := rest, idle := s.idle - 1 })
  | retire (queue : s.queue = [])
      (spare : s.phase = .abandoned ∨ s.phase = .opened ∧ limits.min < s.serving) :
      TurnOf limits s (.retire, s.retired)
  | park {since remaining : Option Nat} (queue : s.queue = []) (phase : s.phase ≠ .abandoned) :
      TurnOf limits s (.park since remaining, s)

theorem turn_cases (limits : Concurrency) (now : Nat) (since : Option Nat) (s : State C ρ σ) :
    TurnOf limits s (s.turn limits now since) := by
  unfold turn takeJob
  cases hq : s.queue with
  | cons job rest => exact .job hq
  | nil =>
    simp only [isAbandoned, decide_eq_true_eq]
    split
    · exact .retire hq (.inl ‹_›)
    rename_i hphase
    split
    · exact .park hq hphase
    · rename_i timeout hspare
      have hs := (Option.filter_eq_some_iff.1 hspare).2
      simp only [sparable, Bool.and_eq_true, decide_eq_true_eq] at hs
      split
      · exact .retire hq (.inr hs)
      · exact .park hq hphase

end State

end EmbeddedMongo.Nonblocking
