import EmbeddedMongo.Conc.System

/-!
# Wakeup accounting of a monitor

A monitor guards a supply (queued jobs, free slots) with a mutex, and parks whoever finds
none on a condition variable. The notifications are sent after the mutex is released, so
between a supply growing and the wakeup it pays for lies a window in which anything may
happen: a newcomer takes what was supplied, a parked party wakes spuriously or on a timeout,
the wakeup finds nobody parked.

`Monitor` keeps the five numbers the argument is about, and `Monitor.Step` what the parties
of any such program may do to them. `Monitor.Awake` is the invariant: nobody is parked, or a
`notify_all` is still to come, or the supply is covered by parties already woken and
`notify_one`s still to come. `Monitor.reach_awake` carries it to every program whose steps
are monitor steps under a view of its state.
-/

namespace Conc

/-- What a monitor's wakeups are counted in. `ones` and `alls` are the `notify_one`s and
`notify_all`s decided on under the lock and not sent yet. -/
structure Monitor where
  supply : Nat
  parked : Nat
  woken : Nat
  ones : Nat
  alls : Nat

namespace Monitor

/-- One step of a party of the monitor. -/
inductive Step (m m' : Monitor) : Prop where
  /-- Nothing moves, or a party that never parked takes from the supply. -/
  | take (supply : m'.supply ≤ m.supply) (parked : m'.parked = m.parked) (woken : m'.woken = m.woken)
      (ones : m'.ones = m.ones) (alls : m'.alls = m.alls)
  /-- One unit more, and a `notify_one` owed for it. -/
  | signal (supply : m'.supply = m.supply + 1) (parked : m'.parked = m.parked)
      (woken : m'.woken = m.woken) (ones : m'.ones = m.ones + 1) (alls : m'.alls = m.alls)
  /-- The supply changes in any way, and a `notify_all` is owed for it. -/
  | broadcast (parked : m'.parked = m.parked) (woken : m'.woken = m.woken) (ones : m'.ones = m.ones)
      (alls : m'.alls = m.alls + 1)
  /-- A `notify_one` reaches a parked party. -/
  | wakeOne (supply : m'.supply = m.supply) (parked : m.parked = m'.parked + 1)
      (woken : m'.woken = m.woken + 1) (ones : m.ones = m'.ones + 1) (alls : m'.alls = m.alls)
  /-- A `notify_one` finds nobody parked and is lost. -/
  | wakeNone (supply : m'.supply = m.supply) (parked : m'.parked = 0) (woken : m'.woken = m.woken)
      (ones : m.ones = m'.ones + 1) (alls : m'.alls = m.alls)
  /-- A `notify_all` wakes every parked party. -/
  | wakeAll (parked : m'.parked = 0)
  /-- A parked party wakes by itself, spuriously or because its wait was a timed one. -/
  | spurious (supply : m'.supply = m.supply) (parked : m.parked = m'.parked + 1)
      (woken : m'.woken = m.woken + 1) (ones : m'.ones = m.ones) (alls : m'.alls = m.alls)
  /-- A woken party is back under the lock and takes one unit. -/
  | takeWoken (supply : m.supply = m'.supply + 1) (parked : m'.parked = m.parked)
      (woken : m.woken = m'.woken + 1) (ones : m'.ones = m.ones) (alls : m'.alls = m.alls)
  /-- A party back under the lock finds no supply, and parks again or leaves. -/
  | empty (supply : m'.supply = 0)

/-- No supply waits behind a parked party with nobody on the way to it. -/
def Awake (m : Monitor) : Prop :=
  m.parked = 0 ∨ 0 < m.alls ∨ m.supply ≤ m.woken + m.ones

theorem Step.awake {m m' : Monitor} (h : Step m m') (ha : Awake m) : Awake m' := by
  unfold Awake at *
  cases h <;> omega

/-- Once every notification is delivered, a parked party means the woken ones cover the
supply. -/
theorem Awake.covered {m : Monitor} (h : Awake m) (ones : m.ones = 0) (alls : m.alls = 0)
    (parked : 0 < m.parked) : m.supply ≤ m.woken := by
  unfold Awake at h
  omega

/-- **The monitor rule**: a program each of whose steps is a monitor step under `view` never
strands its supply. -/
theorem reach_awake {σ α : Type} {S : System σ α} (view : σ → Monitor)
    (base : ∀ s, S.init s → Awake (view s))
    (sim : ∀ s a s', S.Reach s → S.step s a s' → Step (view s) (view s')) {s : σ} (h : S.Reach s) :
    Awake (view s) :=
  System.Reach.induct base (fun s a s' hr hi hs => (sim s a s' hr hs).awake hi) h

end Monitor

end Conc
