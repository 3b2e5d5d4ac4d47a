import Mathlib

/-!
# Futures and what they promise whoever polls them

A future is polled until it is ready. Between two polls nobody looks at it, so it has to say when
another poll is worth while: it calls the waker it was last polled with. `Future` is that contract
as its poller sees it. Polls and what other threads do to the future are atomic; each says how many
calls of the waker it leads to, now or later.
-/

namespace Conc

inductive Poll (σ α : Type) where
  | ready (value : α)
  | pending (state : σ) (wakes : Nat)

/-- A future of state `σ` with an answer of type `α`. -/
structure Future (σ α : Type) where
  poll : σ → Poll σ α
  /-- What other threads may do to it, and how often that wakes the poller. -/
  outside : σ → σ → Nat → Prop
  /-- Nothing comes of a poll until something happens outside. -/
  idle : σ → Prop
  /-- Bounds the polls that get it further. -/
  work : σ → Nat
  /-- An idle future is not ready, and a poll of it leaves it idle. -/
  poll_idle : ∀ {s : σ}, idle s → ∃ s', poll s = .pending s' 0 ∧ idle s' ∧ work s' ≤ work s
  /-- Any other poll that is not the last has got it further. -/
  poll_work : ∀ {s s' : σ} {w : Nat}, ¬ idle s → poll s = .pending s' w → work s' + w < work s
  /-- What is pending is idle, or it has asked for the next poll. -/
  poll_wakes : ∀ {s s' : σ} {w : Nat}, poll s = .pending s' w → idle s' ∨ 0 < w
  /-- Who ends the idling wakes the poller. -/
  outside_wakes : ∀ {s s' : σ} {w : Nat}, outside s s' w → idle s → idle s' ∨ 0 < w

/-! ## One await after the other -/

/-- The body of an `async` function at one of its awaits: how many are behind it, and how many of
all of them have been answered. -/
structure Awaits where
  passed : Nat
  answered : Nat
  deriving DecidableEq

namespace Awaits

/-- A poll runs past every await that has been answered. -/
def poll {α : Type} (awaits : Nat) (value : α) (s : Awaits) : Poll Awaits α :=
  if awaits ≤ s.answered then .ready value else .pending { s with passed := max s.passed s.answered } 0

def idle (awaits : Nat) (s : Awaits) : Prop := s.answered ≤ s.passed ∧ s.answered < awaits

theorem poll_eq_pending {α : Type} {awaits w : Nat} {value : α} {s s' : Awaits}
    (h : s.poll awaits value = .pending s' w) :
    s.answered < awaits ∧ s' = { s with passed := max s.passed s.answered } ∧ w = 0 := by
  unfold poll at h
  split at h
  · cases h
  · rename_i hless
    cases h
    exact ⟨by omega, rfl, rfl⟩

/-- A function of so many awaits, answered one after the other by somebody else. -/
def future {α : Type} (awaits : Nat) (value : α) : Future Awaits α where
  poll := Awaits.poll awaits value
  outside s s' w := s' = { s with answered := s.answered + 1 } ∧ w = 1
  idle := Awaits.idle awaits
  work s := awaits - s.passed
  poll_idle {s} h := by
    obtain ⟨hpassed, hless⟩ := h
    refine ⟨{ s with passed := max s.passed s.answered }, ?_, ⟨?_, hless⟩, ?_⟩
    · exact if_neg (by omega)
    · dsimp only
      omega
    · dsimp only
      omega
  poll_work {s s' w} h hpoll := by
    obtain ⟨hless, rfl, rfl⟩ := poll_eq_pending hpoll
    unfold Awaits.idle at h
    dsimp only
    omega
  poll_wakes {s s' w} hpoll := by
    obtain ⟨hless, rfl, rfl⟩ := poll_eq_pending hpoll
    refine .inl ⟨?_, hless⟩
    dsimp only
    omega
  outside_wakes h _ := .inr (by rw [h.2]; exact Nat.one_pos)

end Awaits

end Conc
