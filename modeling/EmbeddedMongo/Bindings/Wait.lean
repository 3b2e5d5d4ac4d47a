import EmbeddedMongo.Conc.Future
import EmbeddedMongo.Conc.System

/-!
# Driving one future on the calling thread

`block_on` of `embedded-mongodb-python/src/wait.rs`, which opens the engine for
`AsyncNativeClient::new` and closes it for `close_blocking`. The waker unparks the thread, and the
thread parks between polls. `park` takes a permit and returns, or waits for one; `unpark` leaves at
most one. The permit belongs to the thread and not to the call: one may be there before the call
begins, anybody may leave one at any time, and `park` may return without.
-/

namespace EmbeddedMongo.Bindings.Wait

open Conc

/-- Where the loop is. -/
inductive Place (α : Type) where
  | polling
  /-- At `thread::park`, whether or not it has begun to wait there. -/
  | parking
  | returned (value : α)

/-- The loop of `block_on`, its thread's permit and the wakes on their way. -/
structure State (σ α : Type) where
  future : σ
  place : Place α
  permit : Bool
  /-- Calls of the waker that are on their way. -/
  owed : Nat

/-- Who moves. -/
inductive Act where
  | poll
  | park
  /-- A call of the waker: `Unpark::wake`, or `wake_by_ref`. -/
  | wake
  /-- Another thread works on the future. -/
  | outside
  /-- Somebody else unparks this thread. -/
  | stray
  /-- `park` returns for no reason. -/
  | spurious

/-- The steps that are bound to come: the loop's, and the calls of the waker that are on their way. -/
def Act.own : Act → Prop
  | .poll | .park | .wake => True
  | .outside | .stray | .spurious => False

variable {σ α : Type}

/-- The loop, the wakers and the rest of the world. -/
inductive Step (F : Future σ α) : State σ α → Act → State σ α → Prop where
  | ready {s : State σ α} {value : α} (at_poll : s.place = .polling) (answer : F.poll s.future = .ready value) :
      Step F s .poll { s with place := .returned value }
  | pending {s : State σ α} {next : σ} {wakes : Nat} (at_poll : s.place = .polling)
      (answer : F.poll s.future = .pending next wakes) :
      Step F s .poll { s with future := next, place := .parking, owed := s.owed + wakes }
  | park {s : State σ α} (at_park : s.place = .parking) (permit : s.permit = true) :
      Step F s .park { s with place := .polling, permit := false }
  | wake {s : State σ α} {left : Nat} (owed : s.owed = left + 1) :
      Step F s .wake { s with permit := true, owed := left }
  | outside {s : State σ α} {next : σ} {wakes : Nat} (alive : ∀ value, s.place ≠ .returned value)
      (moves : F.outside s.future next wakes) :
      Step F s .outside { s with future := next, owed := s.owed + wakes }
  | stray {s : State σ α} : Step F s .stray { s with permit := true }
  | spurious {s : State σ α} (at_park : s.place = .parking) : Step F s .spurious { s with place := .polling }

/-- `block_on`, called with the future in any state and the thread with or without a permit. -/
def blockOn (F : Future σ α) : System (State σ α) Act where
  init s := s.place = .polling ∧ s.owed = 0
  step := Step F

variable {F : Future σ α} {s s' : State σ α} {a : Act}

/-- While the thread is at `park`, a future that could go on has a wake on its way or a permit left. -/
def NoLostWake (F : Future σ α) (s : State σ α) : Prop :=
  s.place = .parking → F.idle s.future ∨ s.permit = true ∨ 0 < s.owed

/-- No step loses a wake. -/
theorem Step.noLostWake (h : Step F s a s') (hi : NoLostWake F s) : NoLostWake F s' := by
  intro hplace
  cases h with
  | ready _ _ => cases hplace
  | pending _ answer =>
    refine (F.poll_wakes answer).imp_right fun hwakes => .inr ?_
    dsimp only
    omega
  | park _ _ => cases hplace
  | wake _ => exact .inr (.inl rfl)
  | outside _ moves =>
    -- Whoever ends the idling owes a wake; what was owed before is still owed.
    obtain hidle | hpermit | howed := hi hplace
    · refine (F.outside_wakes moves hidle).imp_right fun hwakes => .inr ?_
      dsimp only
      omega
    · exact .inr (.inl hpermit)
    · refine .inr (.inr ?_)
      dsimp only
      omega
  | stray => exact .inr (.inl rfl)
  | spurious _ => cases hplace

/-- What was returned is what the last poll answered, and there was no poll after it. -/
def ReturnsAnswer (F : Future σ α) (s : State σ α) : Prop :=
  ∀ value, s.place = .returned value → F.poll s.future = .ready value

/-- What is returned is what the last poll answered. -/
theorem Step.returnsAnswer (h : Step F s a s') (hi : ReturnsAnswer F s) : ReturnsAnswer F s' := by
  intro value hplace
  cases h with
  | ready _ answer =>
    cases hplace
    exact answer
  | pending _ _ => cases hplace
  | park _ _ => cases hplace
  | wake _ => exact hi value hplace
  | outside alive _ => exact absurd hplace (alive value)
  | stray => exact hi value hplace
  | spurious _ => cases hplace

/-! ## The loop comes to rest -/

def Place.toGo : Place α → Nat
  | .polling => 2
  | .parking => 1
  | .returned _ => 0

/-- A permit pays for the poll it leads to, a wake for the permit it leaves, and work for the wakes. -/
def rank (F : Future σ α) (s : State σ α) : Nat :=
  5 * F.work s.future + 4 * s.owed + 3 * s.permit.toNat + s.place.toGo

/-- Every step of its own brings the loop nearer to its end. -/
theorem Step.rank_lt (h : Step F s a s') (own : a.own) : rank F s' < rank F s := by
  unfold rank
  cases h with
  | ready at_poll _ =>
    rw [at_poll]
    dsimp only [Place.toGo]
    omega
  | pending at_poll answer =>
    rw [at_poll]
    dsimp only [Place.toGo]
    by_cases hidle : F.idle s.future
    · obtain ⟨next, hpoll, -, hwork⟩ := F.poll_idle hidle
      rw [hpoll] at answer
      cases answer
      omega
    · have := F.poll_work hidle answer
      omega
  | park at_park permit =>
    rw [at_park, permit]
    dsimp only [Place.toGo, Bool.toNat_true, Bool.toNat_false]
    omega
  | wake owed =>
    have := Bool.toNat_le s.permit
    rw [owed]
    dsimp only [Bool.toNat_true]
    omega
  | outside _ _ => exact own.elim
  | stray => exact own.elim
  | spurious _ => exact own.elim

/-- A loop that is to poll can. -/
theorem poll_of_polling (h : s.place = .polling) : ∃ s', Step F s .poll s' := by
  rcases hanswer : F.poll s.future with value | ⟨next, wakes⟩
  · exact ⟨_, .ready h hanswer⟩
  · exact ⟨_, .pending h hanswer⟩

/-- Nobody is left to move: then the loop is over, or it waits for the future and rightly so. -/
theorem done_or_idle_of_atRest (hi : NoLostWake F s) (rest : (blockOn F).AtRest Act.own s) :
    (∃ value, s.place = .returned value) ∨ s.place = .parking ∧ F.idle s.future := by
  rcases hplace : s.place with _ | _ | value
  · obtain ⟨s', hstep⟩ := poll_of_polling (F := F) hplace
    exact absurd hstep (rest _ s' trivial)
  · obtain hidle | hpermit | howed := hi hplace
    · exact .inr ⟨rfl, hidle⟩
    · exact absurd (Step.park hplace hpermit) (rest .park _ trivial)
    · obtain ⟨left, hleft⟩ := Nat.exists_eq_succ_of_ne_zero howed.ne'
      exact absurd (Step.wake hleft) (rest .wake _ trivial)
  · exact .inl ⟨value, rfl⟩

/-- Both hold in every run. -/
theorem invariants_of_reach (h : (blockOn F).Reach s) : NoLostWake F s ∧ ReturnsAnswer F s := by
  refine h.induct (I := fun s => NoLostWake F s ∧ ReturnsAnswer F s) ?_ ?_
  · intro s hinit
    unfold NoLostWake ReturnsAnswer
    rw [hinit.1]
    exact ⟨(fun h => by cases h), (fun value h => by cases h)⟩
  · exact fun s a s' _ hi hstep => ⟨hstep.noLostWake hi.1, hstep.returnsAnswer hi.2⟩

/-- Whatever future it is given and whenever the wakes come, the thread never sleeps on a future
that could go on: from any point of any run, once the loop and the wakes on their way have done
what they have to do, `block_on` has returned what its last poll answered, or it is parked and the
future waits for somebody else. -/
theorem block_on_never_sleeps_through_a_wake {σ α : Type} (F : Future σ α) {s : State σ α}
    (h : (blockOn F).Reach s) :
    (blockOn F).Settles Act.own
      (fun t => (∃ value, t.place = .returned value ∧ F.poll t.future = .ready value) ∨
        t.place = .parking ∧ F.idle t.future) s := by
  refine System.Reach.settles (I := fun _ => True) Nat.lt_wfRel.wf (rank F) ?_ (fun _ _ _ _ _ _ => trivial) ?_ h trivial
  · exact fun s a s' _ _ own hstep => hstep.rank_lt own
  · intro t ht _ rest
    obtain ⟨hwake, hanswer⟩ := invariants_of_reach ht
    exact (done_or_idle_of_atRest hwake rest).imp_left fun ⟨value, hplace⟩ => ⟨value, hplace, hanswer value hplace⟩

/-- The await of an open is answered after the poll and before the park, by a worker that has not
called the waker yet. -/
theorem open_answered_before_the_park_returns :
    ∃ s : State Awaits Bool, (blockOn (Awaits.future 1 true)).Reach s ∧
      s.place = .parking ∧ s.permit = false ∧ s.owed = 1 ∧
      (blockOn (Awaits.future 1 true)).Settles Act.own
        (fun t => (∃ value, t.place = .returned value ∧ (Awaits.future 1 true).poll t.future = .ready value) ∨
          t.place = .parking ∧ (Awaits.future 1 true).idle t.future) s := by
  have called : (blockOn (Awaits.future 1 true)).Reach ⟨⟨0, 0⟩, .polling, false, 0⟩ := .init ⟨rfl, rfl⟩
  have polled : (blockOn (Awaits.future 1 true)).Reach ⟨⟨0, 0⟩, .parking, false, 0⟩ :=
    called.next (@Step.pending _ _ (Awaits.future 1 true) _ ⟨0, 0⟩ 0 rfl rfl)
  have answered : (blockOn (Awaits.future 1 true)).Reach ⟨⟨0, 1⟩, .parking, false, 1⟩ :=
    polled.next (@Step.outside _ _ (Awaits.future 1 true) _ ⟨0, 1⟩ 1 (fun value h => by cases h) ⟨rfl, rfl⟩)
  exact ⟨_, answered, rfl, rfl, rfl, block_on_never_sleeps_through_a_wake _ answered⟩

end EmbeddedMongo.Bindings.Wait
