import Mathlib

/-!
# The interrupt of one command

`src/pool/slot.rs`. The states of a `CommandSlot` and the three transitions, each made under
the slot's mutex. `CommandSlot::cancel` calls the interrupt with that mutex held, so it is
given here as what it calls and what it leaves, for the steps in between to be told apart.
-/

namespace EmbeddedMongo.Pool

/-- `Slot`, with `ι` for what a running command is interrupted through. -/
inductive Slot (ι : Type) where
  | waiting
  | running (interrupt : ι)
  | finished
  | cancelled
  deriving DecidableEq, Repr

namespace Slot

variable {ι : Type}

/-- Hands the slot the means to interrupt its command, and answers whether to run it at all. -/
def start (interrupt : ι) : Slot ι → Bool × Slot ι
  | .waiting => (true, .running interrupt)
  | .running i => (false, .running i)
  | .finished => (false, .finished)
  | .cancelled => (false, .cancelled)

/-- Gives up the interrupt. -/
def finish : Slot ι → Slot ι
  | .running _ => .finished
  | .waiting => .waiting
  | .finished => .finished
  | .cancelled => .cancelled

/-- What a cancel calls, and what it leaves behind. -/
def cancel : Slot ι → Option ι × Slot ι
  | .running interrupt => (some interrupt, .cancelled)
  | .waiting | .finished | .cancelled => (none, .cancelled)

end Slot

end EmbeddedMongo.Pool
