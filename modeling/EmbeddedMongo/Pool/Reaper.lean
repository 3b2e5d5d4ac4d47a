import Mathlib

/-!
# Which sessions are free, and which to close

`src/pool/reaper.rs`: the bookkeeping under the pool's mutex, generic over the session as in
the source. Instants and durations are counted in nanoseconds from the pool's open.
-/

namespace EmbeddedMongo.Pool

/-- A session waiting to be taken, and since when. -/
structure Idle (S : Type) where
  session : S
  since : Nat
  deriving DecidableEq, Repr

/-- `State<S>`; `openCount` is its `open`. -/
structure State (S : Type) where
  /-- Least recently returned first. -/
  idle : List (Idle S)
  openCount : Nat
  closing : Bool
  deriving DecidableEq, Repr

namespace State

variable {S : Type}

/-- The most recently returned free session. -/
def take (s : State S) : Option S × State S :=
  match s.idle.getLast? with
  | some entry => (some entry.session, { s with idle := s.idle.dropLast })
  | none => (none, s)

/-- `Idles::give_back`, up to its notification. -/
def giveBack (session : S) (now : Nat) (s : State S) : State S :=
  { s with idle := s.idle ++ [⟨session, now⟩] }

/-- Counts sessions the reaper has finished destroying. -/
def closed (sessions : Nat) (s : State S) : State S := { s with openCount := s.openCount - sessions }

end State

/-- The locals of `State::reap`'s loop. -/
structure Sweep (S : Type) where
  spare : Nat
  kept : List (Idle S)
  expired : List S
  wait : Nat

namespace Sweep

variable {S : Type}

/-- The entry has been idle for the whole timeout. -/
def stale (timeout now : Nat) (entry : Idle S) : Bool := timeout ≤ now - entry.since

/-- One turn of the loop. -/
def entry (timeout now : Nat) (sweep : Sweep S) (entry : Idle S) : Sweep S :=
  if 0 < sweep.spare ∧ stale timeout now entry = true then
    { sweep with spare := sweep.spare - 1, expired := sweep.expired ++ [entry.session] }
  else
    { sweep with
      wait := if 0 < sweep.spare then min sweep.wait (timeout - (now - entry.since)) else sweep.wait
      kept := sweep.kept ++ [entry] }

/-- What the loop has done once it has been through `l`: every session is kept or taken, and
those taken are the stale ones as far as there were any to spare. -/
theorem foldl_entry (timeout now : Nat) (l : List (Idle S)) (w : Sweep S) :
    (w.expired ++ w.kept.map Idle.session ++ l.map Idle.session).Perm
        ((l.foldl (entry timeout now) w).expired ++ (l.foldl (entry timeout now) w).kept.map Idle.session) ∧
      (l.foldl (entry timeout now) w).expired.length =
        w.expired.length + min w.spare (l.countP (stale timeout now)) := by
  induction l generalizing w with
  | nil => simp
  | cons e l ih =>
    obtain ⟨hperm, hlength⟩ := ih (entry timeout now w e)
    rw [List.foldl_cons]
    by_cases h : 0 < w.spare ∧ stale timeout now e = true
    · have hw : entry timeout now w e =
          { w with spare := w.spare - 1, expired := w.expired ++ [e.session] } := if_pos h
      rw [hw] at hperm hlength ⊢
      refine ⟨List.Perm.trans ?_ hperm, ?_⟩
      · simp only [List.map_cons, List.append_assoc, List.cons_append, List.nil_append]
        exact List.Perm.append_left _ List.perm_middle
      · rw [hlength, List.countP_cons_of_pos h.2]
        simp only [List.length_append, List.length_singleton]
        omega
    · have hw : (entry timeout now w e).expired = w.expired ∧ (entry timeout now w e).kept = w.kept ++ [e] ∧
          (entry timeout now w e).spare = w.spare := by
        unfold entry
        rw [if_neg h]
        exact ⟨rfl, rfl, rfl⟩
      rw [hw.1, hw.2.1] at hperm
      refine ⟨by simpa using hperm, ?_⟩
      rw [hlength, hw.1, hw.2.2, List.countP_cons]
      by_cases hspare : w.spare = 0
      · rw [hspare, Nat.zero_min, Nat.zero_min]
      · rw [if_neg fun hs => h ⟨Nat.pos_of_ne_zero hspare, hs⟩]
        rfl

end Sweep

namespace State

variable {S : Type}

/-- Takes every session that has been idle at least `timeout`, down to a floor of `min`
sessions open; answers them, and how long to wait before looking again. -/
def reap (min timeout now : Nat) (s : State S) : (List S × Nat) × State S :=
  let spare := s.openCount - min
  if spare = 0 ∨ s.idle = [] then (([], timeout), s)
  else
    let sweep := s.idle.foldl (Sweep.entry timeout now) ⟨spare, [], [], timeout⟩
    ((sweep.expired, sweep.wait), { s with idle := sweep.kept })

/-- What a reap does to the pool's state: it moves sessions out of the idle ones, as many as
are stale, or as `openCount` is above the floor. -/
theorem reap_spec (min timeout now : Nat) (s : State S) :
    (s.reap min timeout now).2.openCount = s.openCount ∧
      (s.reap min timeout now).2.closing = s.closing ∧
      (s.idle.map Idle.session).Perm
        ((s.reap min timeout now).1.1 ++ (s.reap min timeout now).2.idle.map Idle.session) ∧
      (s.reap min timeout now).1.1.length =
        Nat.min (s.openCount - min) (s.idle.countP (Sweep.stale timeout now)) := by
  simp only [reap]
  split
  · rename_i hnone
    refine ⟨rfl, rfl, by simp, ?_⟩
    rcases hnone with h | h <;> simp [h, Nat.min]
  · obtain ⟨hperm, hlength⟩ := Sweep.foldl_entry timeout now s.idle ⟨s.openCount - min, [], [], timeout⟩
    exact ⟨rfl, rfl, by simpa using hperm, by simpa using hlength⟩

end State

end EmbeddedMongo.Pool
