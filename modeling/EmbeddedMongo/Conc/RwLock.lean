import Mathlib

/-!
# A reader-writer lock, by who holds it

Only what safety needs of such a lock: a reader gets in while no writer holds it, a writer while
nobody does. Which of the waiting parties is let in is left open. `Held` ties the lock's own
counts to the number of parties that are in fact inside.
-/

namespace Conc

/-- A lock, as who holds it. -/
structure RwLock where
  readers : Nat
  writer : Bool
  deriving DecidableEq, Repr

namespace RwLock

def new : RwLock := ⟨0, false⟩

/-- A reader may be let in. -/
def admitsReader (l : RwLock) : Bool := !l.writer

/-- A writer may be let in. -/
def admitsWriter (l : RwLock) : Bool := !l.writer && l.readers == 0

/-- A reader has been let in. -/
def read (l : RwLock) : RwLock := { l with readers := l.readers + 1 }

/-- A writer has been let in. -/
def write (l : RwLock) : RwLock := { l with writer := true }

/-- A reader has gone. -/
def releaseRead (l : RwLock) : RwLock := { l with readers := l.readers - 1 }

/-- The writer has gone. -/
def releaseWrite (l : RwLock) : RwLock := { l with writer := false }

/-- `readers` parties hold the lock shared and `writers` exclusive: one at most, and then alone. -/
structure Held (l : RwLock) (readers writers : Nat) : Prop where
  shared : l.readers = readers
  exclusive : l.writer.toNat = writers
  alone : 0 < writers → readers = 0

variable {l : RwLock} {readers writers : Nat}

/-- Where a writer may be let in, a reader may. -/
theorem admitsReader_of_admitsWriter (h : l.admitsWriter = true) : l.admitsReader = true := by
  simp only [admitsWriter, Bool.and_eq_true] at h
  exact h.1

theorem held_new : Held new 0 0 := ⟨rfl, rfl, fun _ => rfl⟩

/-- A reader that is let in is counted, and there is no writer. -/
theorem Held.read (h : Held l readers writers) (free : l.admitsReader = true) :
    Held l.read (readers + 1) writers ∧ writers = 0 := by
  have hwriters : writers = 0 := by
    rw [← h.exclusive]
    simpa [admitsReader] using free
  exact ⟨⟨by rw [← h.shared]; rfl, h.exclusive, by omega⟩, hwriters⟩

/-- A writer that is let in is alone. -/
theorem Held.write (h : Held l readers writers) (free : l.admitsWriter = true) :
    Held l.write readers (writers + 1) ∧ readers = 0 ∧ writers = 0 := by
  simp only [admitsWriter, Bool.and_eq_true, Bool.not_eq_true', beq_iff_eq] at free
  have hwriters : writers = 0 := by simp [← h.exclusive, free.1]
  have hreaders : readers = 0 := h.shared.symm.trans free.2
  exact ⟨⟨h.shared, by rw [hwriters]; rfl, fun _ => hreaders⟩, hreaders, hwriters⟩

/-- A reader that goes is counted off. -/
theorem Held.releaseRead (h : Held l (readers + 1) writers) : Held l.releaseRead readers writers := by
  refine ⟨?_, h.exclusive, fun hpos => ?_⟩
  · have := h.shared
    simp only [RwLock.releaseRead]
    omega
  · have := h.alone hpos
    omega

/-- The writer that goes is counted off. -/
theorem Held.releaseWrite (h : Held l readers (writers + 1)) : Held l.releaseWrite readers writers := by
  have hwriters : writers = 0 := by
    have := h.exclusive
    have := Bool.toNat_le l.writer
    omega
  exact ⟨h.shared, hwriters.symm, fun _ => h.alone (Nat.succ_pos _)⟩

end RwLock

end Conc
