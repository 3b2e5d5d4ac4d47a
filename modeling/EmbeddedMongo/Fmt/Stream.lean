import Mathlib

/-!
# Cutting a stream into messages

A stream arrives in pieces. Whoever reads it keeps what is left over, appends the next piece and
cuts off complete messages for as long as there is one at the front. A `Cutter` is what can be said
of the front alone: a message and what follows it, something that can never become one, or too
little to say. What it has said it does not take back when more arrives, and that is all it takes
for the messages not to depend on where the pieces end (`drain_append`).
-/

namespace Fmt

/-- What is at the front of a stream. -/
inductive Front (α M : Type) where
  | more
  | bad
  | message (m : M) (rest : List α)

/-- How messages are found at the front of a stream: each is shorter than what it is cut from, and
one that is there stays the same whatever follows. -/
structure Cutter (α M : Type) where
  front : List α → Front α M
  shorter : ∀ {xs m rest}, front xs = .message m rest → rest.length < xs.length
  stable : ∀ {xs m rest} ys, front xs = .message m rest → front (xs ++ ys) = .message m (rest ++ ys)

/-- The messages cut off, what is left, and whether that can never begin a message. -/
structure Drained (α M : Type) where
  messages : List M
  rest : List α
  bad : Bool

namespace Cutter

variable {α M : Type} (c : Cutter α M)

/-- Cuts off messages while there is one at the front. -/
def drain (xs : List α) : Drained α M :=
  match h : c.front xs with
  | .more => ⟨[], xs, false⟩
  | .bad => ⟨[], xs, true⟩
  | .message m rest =>
    have := c.shorter h
    let d := drain rest
    { d with messages := m :: d.messages }
termination_by xs.length

variable {c} {xs ys rest : List α} {m : M}

theorem drain_more (h : c.front xs = .more) : c.drain xs = ⟨[], xs, false⟩ := by
  rw [drain]
  split <;> simp_all

theorem drain_bad (h : c.front xs = .bad) : c.drain xs = ⟨[], xs, true⟩ := by
  rw [drain]
  split <;> simp_all

/-- A message at the front is cut off and the rest drained. -/
theorem drain_message (h : c.front xs = .message m rest) :
    c.drain xs = { c.drain rest with messages := m :: (c.drain rest).messages } := by
  rw [drain]
  split <;> simp_all

/-- Follows the cuts. -/
theorem drain_induct {P : List α → Prop} (more : ∀ xs, c.front xs = .more → P xs)
    (bad : ∀ xs, c.front xs = .bad → P xs)
    (message : ∀ xs m rest, c.front xs = .message m rest → P rest → P xs) (xs : List α) : P xs := by
  induction hn : xs.length using Nat.strongRecOn generalizing xs with
  | _ n ih =>
    cases h : c.front xs with
    | more => exact more xs h
    | bad => exact bad xs h
    | message m rest => exact message xs m rest h (ih rest.length (hn ▸ c.shorter h) rest rfl)

/-- **Where the pieces end does not matter.** -/
theorem drain_append (xs ys : List α) :
    c.drain (xs ++ ys) =
      { c.drain ((c.drain xs).rest ++ ys) with
        messages := (c.drain xs).messages ++ (c.drain ((c.drain xs).rest ++ ys)).messages } := by
  induction xs using drain_induct (c := c) with
  | more xs h => rw [drain_more h]; rfl
  | bad xs h => rw [drain_bad h]; rfl
  | message xs m rest h ih =>
    rw [drain_message (c.stable ys h), drain_message h, ih]
    rfl

end Cutter

end Fmt
