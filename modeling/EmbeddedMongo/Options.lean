import Mathlib

/-!
# The concurrency policy of an open

`src/options.rs`: how many sessions, and async workers, an engine runs on. The fields of
`Concurrency` are private in the source because they constrain each other; here the
constraints are fields of the structure, and the constructors of the source (`fromCount`,
`dynamic`, `default`) are the proofs that they are met.
-/

namespace EmbeddedMongo

/-- `embedded_mongodb_sys::OutOfRange`: a limit outside its range. -/
structure OutOfRange where
  name : String
  unit : String
  value : Nat
  low : Nat
  high : Nat
  deriving DecidableEq, Repr

/-- `embedded_mongodb_sys::check_range`. -/
def checkRange (name unit : String) (value low high : Nat) : Except OutOfRange Nat :=
  if low ≤ value ∧ value ≤ high then .ok value else .error ⟨name, unit, value, low, high⟩

theorem checkRange_ok {name unit : String} {value low high v : Nat}
    (h : checkRange name unit value low high = .ok v) : v = value ∧ low ≤ value ∧ value ≤ high := by
  unfold checkRange at h
  split at h
  · rename_i hr
    cases h
    exact ⟨rfl, hr⟩
  · cases h

def Concurrency.minCount : Nat := 1
def Concurrency.maxCount : Nat := 256
def Concurrency.defaultCount : Nat := 8

/-- `u32::MAX`, where the idle timeout in milliseconds saturates. -/
def u32Max : Nat := 4294967295

/-- Nanoseconds in a millisecond: a `Duration` is counted in nanoseconds. -/
def nanosPerMilli : Nat := 1000000

/-- `Concurrency`: at least one session, a floor not above its ceiling, and an idle timeout
exactly when there is room between the two. -/
structure Concurrency where
  min : Nat
  max : Nat
  idleTimeout : Option Nat
  min_pos : 1 ≤ min
  min_le_max : min ≤ max
  max_le : max ≤ Concurrency.maxCount
  timeout_pos : ∀ t, idleTimeout = some t → 0 < t
  fixed : idleTimeout = none ↔ min = max

namespace Concurrency

/-- `Concurrency::preallocated`, the fixed pool of `count` sessions. -/
def preallocated (count : Nat) (low : minCount ≤ count) (high : count ≤ maxCount) : Concurrency where
  min := count
  max := count
  idleTimeout := none
  min_pos := low
  min_le_max := Nat.le_refl _
  max_le := high
  timeout_pos := by simp
  fixed := by simp

/-- `Concurrency::DEFAULT`. -/
def default : Concurrency := preallocated defaultCount (by decide) (by decide)

/-- `Concurrency::from_count`. -/
def fromCount (count : Nat) : Except OutOfRange Concurrency :=
  match h : checkRange "concurrency" "sessions" count minCount maxCount with
  | .ok _ => .ok (preallocated count (checkRange_ok h).2.1 (checkRange_ok h).2.2)
  | .error e => .error e

/-- `Concurrency::dynamic`. The timeout is checked in whole milliseconds, saturating, and
kept as it was given. -/
def dynamic (min max idleTimeout : Nat) : Except OutOfRange Concurrency :=
  match hmax : checkRange "maximum concurrency" "sessions" max minCount maxCount with
  | .error e => .error e
  | .ok _ =>
    match hmin : checkRange "minimum concurrency" "sessions" min minCount max with
    | .error e => .error e
    | .ok _ =>
      match ht : checkRange "idle timeout" "milliseconds"
          (Nat.min (idleTimeout / nanosPerMilli) u32Max) 1 u32Max with
      | .error e => .error e
      | .ok _ =>
        have bmax := checkRange_ok hmax
        have bmin := checkRange_ok hmin
        if heq : min = max then
          .ok (preallocated min bmin.2.1 (Nat.le_trans bmin.2.2 bmax.2.2))
        else
          .ok {
            min, max
            idleTimeout := some idleTimeout
            min_pos := bmin.2.1
            min_le_max := bmin.2.2
            max_le := bmax.2.2
            timeout_pos := by
              have hpos := (checkRange_ok ht).2.1
              intro t h
              cases h
              refine Nat.pos_of_ne_zero fun h0 => ?_
              subst h0
              simp [Nat.min] at hpos
            fixed := by simp [heq] }

/-- The elastic policy with room for one worker above its floor. -/
def oneToTwo : Concurrency where
  min := 1
  max := 2
  idleTimeout := some nanosPerMilli
  min_pos := by decide
  min_le_max := by decide
  max_le := by decide
  timeout_pos := by simp [nanosPerMilli]
  fixed := by simp

/-- `OpenOptions::resolve_concurrency`: what was asked for, or the default. -/
def resolve (asked : Option Concurrency) : Concurrency := asked.getD default

end Concurrency

end EmbeddedMongo
