import EmbeddedMongo.Android.Cancellation
import EmbeddedMongo.Conc.System

/-!
# A cancelled open

`Opening.kt`. The block of `openedOrClosed` runs under `NonCancellable`, so nothing but its own
`ensureActive` looks at the caller's job while it runs. What it returns is handed back by the
`withContext` around it: as it is to a caller on `Dispatchers.IO`, and through a dispatch that
looks at the caller's job once more to any other.

The caller may be cancelled at any point; that it is cancelled is for good.
-/

namespace EmbeddedMongo.Android.Opening

open Conc

variable {D : Type}

/-- How far the call is. -/
inductive Stage (D : Type) where
  | called
  | opening
  /-- `open` has returned, `ensureActive` is next. -/
  | opened (database : D)
  | closing (database : D)
  /-- The block has ended and the caller has not been resumed. -/
  | leaving (result : Except Throwable D)
  | returned (result : Except Throwable D)

/-- A stage, apart from the values in it. -/
inductive Moment where
  | beforeOpen
  | duringOpen
  | beforeCheck
  | duringClose
  | onTheWayBack
  | afterReturn
  deriving DecidableEq, Repr

/-- When a cancellation comes, by where the open is. -/
def Stage.moment : Stage D → Moment
  | .called => .beforeOpen
  | .opening => .duringOpen
  | .opened _ => .beforeCheck
  | .closing _ => .duringClose
  | .leaving _ => .onTheWayBack
  | .returned _ => .afterReturn

/-- The open with its caller. -/
structure Sys (D : Type) where
  stage : Stage D
  /-- When the caller's job was cancelled, if it was. -/
  cancel : Option Moment
  /-- What `open` has returned. -/
  produced : Option D
  /-- The databases `close` was called on. -/
  closed : List D

def Sys.initial : Sys D where
  stage := .called
  cancel := none
  produced := none
  closed := []

/-- Who moves. -/
inductive Act (D : Type) where
  | cancel
  | enter
  | open (answer : Except Throwable D)
  | ensureActive
  | close (answer : Except Throwable Unit)
  | resume

/-- The failure that leaves the block of a cancelled caller. -/
def closingFailure : Except Throwable Unit → Throwable
  | .ok () => cancelled
  | .error closing => cancelled.addSuppressed closing

/-- The steps of a call; the result is dispatched back to its caller if the caller `switches`
dispatchers. -/
inductive Step (switches : Bool) : Sys D → Act D → Sys D → Prop where
  | cancel {s : Sys D} :
      Step switches s .cancel { s with cancel := some (s.cancel.getD s.stage.moment) }
  -- `withContext` looks at the job of the context it enters, which is `NonCancellable`
  | enter {s : Sys D} (h : s.stage = .called) : Step switches s .enter { s with stage := .opening }
  | openOk {s : Sys D} {database : D} (h : s.stage = .opening) :
      Step switches s (.open (.ok database)) { s with stage := .opened database, produced := some database }
  | openErr {s : Sys D} {e : Throwable} (h : s.stage = .opening) :
      Step switches s (.open (.error e)) { s with stage := .leaving (.error e) }
  | ensureActive {s : Sys D} {database : D} (h : s.stage = .opened database) :
      Step switches s .ensureActive
        { s with stage := if s.cancel.isSome then .closing database else .leaving (.ok database) }
  | close {s : Sys D} {database : D} {answer : Except Throwable Unit} (h : s.stage = .closing database) :
      Step switches s (.close answer)
        { s with
          stage := .leaving (.error (closingFailure answer))
          closed := s.closed ++ [database] }
  | resume {s : Sys D} {result : Except Throwable D} (h : s.stage = .leaving result) :
      Step switches s .resume
        { s with stage := .returned (if switches = true then handed s.cancel.isSome result else result) }

/-- `openedOrClosed`, for a caller on `Dispatchers.IO` or, if it `switches`, on another dispatcher. -/
def openedOrClosed (D : Type) (switches : Bool) : System (Sys D) (Act D) where
  init s := s = .initial
  step := Step switches

/-- The call is left by what `open` and `close` answer and by itself, not by a cancellation. -/
def Act.own : Act D → Prop
  | .cancel => False
  | _ => True

/-! ## Where the database is -/

/-- The caller is cancelled between the check and the look that hands the result over. -/
def Missed (switches : Bool) (s : Sys D) : Prop := switches = true ∧ s.cancel = some .onTheWayBack

/-- `open` has returned a database and the block closed it, finding its caller cancelled. -/
structure Closed (s : Sys D) (database : D) : Prop where
  produced : s.produced = some database
  closed : s.closed = [database]
  found : ∃ moment, s.cancel = some moment ∧ moment ≠ .onTheWayBack

/-- Where the database is, by how far the call is. -/
def Placed (switches : Bool) (s : Sys D) : Prop :=
  match s.stage with
  | .called | .opening => s.produced = none ∧ s.closed = [] ∧ s.cancel ≠ some .onTheWayBack
  | .opened database =>
    s.produced = some database ∧ s.closed = [] ∧ s.cancel ≠ some .onTheWayBack
  | .closing database =>
    s.produced = some database ∧ s.closed = [] ∧ ∃ moment, s.cancel = some moment ∧ moment ≠ .onTheWayBack
  | .leaving (.ok database) =>
    s.produced = some database ∧ s.closed = [] ∧ (s.cancel = none ∨ s.cancel = some .onTheWayBack)
  | .leaving (.error _) => s.produced = none ∧ s.closed = [] ∨ ∃ database, Closed s database
  | .returned (.ok database) => s.produced = some database ∧ s.closed = [] ∧ ¬ Missed switches s
  | .returned (.error _) =>
    s.produced = none ∧ s.closed = [] ∨ (∃ database, Closed s database) ∨
      (∃ database, s.produced = some database) ∧ s.closed = [] ∧ Missed switches s

/-- A later cancellation changes nothing of an earlier one. -/
theorem Placed.cancel {switches : Bool} {s : Sys D} (h : Placed switches s) :
    Placed switches { s with cancel := some (s.cancel.getD s.stage.moment) } := by
  obtain ⟨stage, cancel, produced, closed⟩ := s
  cases cancel with
  | some moment =>
    simpa using h
  | none =>
    cases stage with
    | called | opening | opened database =>
      obtain ⟨hproduced, hclosed, -⟩ := h
      exact ⟨hproduced, hclosed, by simp [Stage.moment]⟩
    | closing database =>
      obtain ⟨-, -, moment, hnone, -⟩ := h
      cases hnone
    | leaving result =>
      cases result with
      | ok database =>
        obtain ⟨hproduced, hclosed, -⟩ := h
        exact ⟨hproduced, hclosed, .inr rfl⟩
      | error e =>
        rcases h with hnever | ⟨database, -, -, moment, hnone, -⟩
        · exact .inl hnever
        · cases hnone
    | returned result =>
      cases result with
      | ok database =>
        obtain ⟨hproduced, hclosed, -⟩ := h
        exact ⟨hproduced, hclosed, by simp [Missed, Stage.moment]⟩
      | error e =>
        rcases h with hnever | ⟨database, -, -, moment, hnone, -⟩ | ⟨-, -, -, hnone⟩
        · exact .inl hnever
        · cases hnone
        · cases hnone

/-- Every step keeps the open in place. -/
theorem Placed.step {switches : Bool} {s s' : Sys D} {a : Act D} (h : Placed switches s) (hs : Step switches s a s') :
    Placed switches s' := by
  cases hs with
  | cancel => exact h.cancel
  | enter hstage =>
    simp only [Placed, hstage] at h
    exact h
  | openOk hstage =>
    simp only [Placed, hstage] at h
    exact ⟨rfl, h.2⟩
  | openErr hstage =>
    simp only [Placed, hstage] at h
    exact .inl ⟨h.1, h.2.1⟩
  | ensureActive hstage =>
    simp only [Placed, hstage] at h
    obtain ⟨hproduced, hclosed, hmoment⟩ := h
    cases hcancel : s.cancel with
    | none => exact ⟨hproduced, hclosed, .inl rfl⟩
    | some moment =>
      refine ⟨hproduced, hclosed, moment, rfl, ?_⟩
      rintro rfl
      exact hmoment hcancel
  | close hstage =>
    simp only [Placed, hstage] at h
    obtain ⟨hproduced, hclosed, hfound⟩ := h
    exact .inr ⟨_, hproduced, by simp [hclosed], hfound⟩
  | @resume result hstage =>
    simp only [Placed, hstage] at h
    cases result with
    | error e =>
      have hhanded : (if switches = true then handed s.cancel.isSome (.error e) else .error e : Except Throwable D) =
          .error e := ite_self _
      simp only [hhanded]
      rcases h with hnever | ⟨database, hclosed⟩
      · exact .inl hnever
      · exact .inr (.inl ⟨database, hclosed.produced, hclosed.closed, hclosed.found⟩)
    | ok database =>
      obtain ⟨hproduced, hclosed, hcancel⟩ := h
      -- the look of the hand-over, if there is one
      rcases hcancel with hcancel | hcancel
      · simp only [hcancel, Option.isSome_none, handed, Bool.false_eq_true, if_false, ite_self]
        exact ⟨hproduced, hclosed, by simp [Missed]⟩
      · cases switches with
        | false => exact ⟨hproduced, hclosed, by simp [Missed]⟩
        | true =>
          simp only [hcancel, Option.isSome_some, handed, if_true]
          exact .inr (.inr ⟨⟨database, hproduced⟩, hclosed, rfl, rfl⟩)

/-- Every run has the open in place. -/
theorem placed_of_reach {switches : Bool} {s : Sys D} (h : (openedOrClosed D switches).Reach s) : Placed switches s := by
  apply h.induct
  · rintro s rfl
    exact ⟨rfl, rfl, nofun⟩
  · intro s a s' _ hplaced hs
    exact hplaced.step hs

/-! ## The call ends -/

/-- How many steps of its own a call has left at most. -/
def Stage.left : Stage D → Nat
  | .called => 5
  | .opening => 4
  | .opened _ => 3
  | .closing _ => 2
  | .leaving _ => 1
  | .returned _ => 0

/-- Every step of its own brings it nearer to its end. -/
theorem Step.left {switches : Bool} {s s' : Sys D} {a : Act D} (hs : Step switches s a s') (own : a.own) :
    s'.stage.left < s.stage.left := by
  cases hs with
  | cancel => exact own.elim
  | ensureActive h =>
    rw [h]
    dsimp only
    split <;> simp [Stage.left]
  | enter h | openOk h | openErr h | close h | resume h => simp [h, Stage.left]

/-- A call stops only by returning. -/
theorem returned_of_atRest {switches : Bool} {s : Sys D} (h : (openedOrClosed D switches).AtRest Act.own s) :
    ∃ result, s.stage = .returned result := by
  cases hstage : s.stage with
  | called => exact absurd (.enter hstage) (h .enter _ trivial)
  | opening => exact absurd (.openErr (e := cancelled) hstage) (h (.open (.error cancelled)) _ trivial)
  | opened database => exact absurd (.ensureActive hstage) (h .ensureActive _ trivial)
  | closing database => exact absurd (.close hstage) (h (.close (.ok ())) _ trivial)
  | leaving result => exact absurd (.resume hstage) (h .resume _ trivial)
  | returned result => exact ⟨result, rfl⟩

/-- **The database of an open is returned or closed, unless its caller is cancelled on the way
back.** Whatever the call has come to, it goes on to return; and once it has, the database that
`open` produced is the caller's or has been closed, not both, if and only if the caller was not
cancelled after the check and before a dispatch handed the database over. -/
theorem opened_database_is_returned_or_closed_iff {switches : Bool} {s : Sys D}
    (h : (openedOrClosed D switches).Reach s) :
    (openedOrClosed D switches).Settles Act.own (fun s => ∃ result, s.stage = .returned result) s ∧
    ∀ database result, s.produced = some database → s.stage = .returned result →
      ((result = .ok database ∨ database ∈ s.closed) ↔ ¬ (switches = true ∧ s.cancel = some .onTheWayBack)) ∧
      (result = .ok database → s.closed = []) := by
  constructor
  · refine h.settles (I := fun _ => True) Nat.lt_wfRel.wf (fun s => s.stage.left) ?_ ?_ ?_ trivial
    · intro s a s' _ _ own hs
      exact hs.left own
    · intro s a s' _ _ _
      trivial
    · intro s _ _ hrest
      exact returned_of_atRest hrest
  · intro database result hproduced hstage
    have hplaced := placed_of_reach h
    simp only [Placed, hstage] at hplaced
    cases result with
    | ok d =>
      obtain ⟨hd, hclosed, hnot⟩ := hplaced
      obtain rfl : d = database := Option.some.inj (hd.symm.trans hproduced)
      exact ⟨iff_of_true (.inl rfl) hnot, fun _ => hclosed⟩
    | error e =>
      refine ⟨?_, nofun⟩
      rcases hplaced with ⟨hnone, -⟩ | ⟨d, hd, hclosed, moment, hcancel, hmoment⟩ | ⟨-, hclosed, hmissed⟩
      · rw [hnone] at hproduced
        cases hproduced
      · obtain rfl : d = database := Option.some.inj (hd.symm.trans hproduced)
        apply iff_of_true
        · simp [hclosed]
        · rintro ⟨-, hback⟩
          exact hmoment (Option.some.inj (hcancel.symm.trans hback))
      · apply iff_of_false
        · simp [hclosed]
        · exact fun hnot => hnot hmissed

/-- A caller that is cancelled while the engine starts: the database is closed. -/
theorem opened_database_is_returned_or_closed_iff_of_a_rotation :
    ∃ s : Sys Nat, (openedOrClosed Nat true).Reach s ∧ s.cancel = some .duringOpen ∧ s.produced = some 3 ∧
      s.stage = .returned (.error cancelled) ∧ (Except.error cancelled = Except.ok 3 ∨ 3 ∈ s.closed) := by
  have h : (openedOrClosed Nat true).Reach .initial := .init rfl
  have h := h.next (.enter rfl)
  have h := h.next .cancel
  have h := h.next (a := Act.open (.ok 3)) (.openOk rfl)
  have h := h.next (.ensureActive rfl)
  have h := h.next (a := Act.close (.ok ())) (.close rfl)
  have h := h.next (.resume rfl)
  refine ⟨_, h, rfl, rfl, rfl, ?_⟩
  refine ((opened_database_is_returned_or_closed_iff h).2 3 _ rfl rfl).1.2 ?_
  decide

/-- A caller off `Dispatchers.IO` that is cancelled right after the check: it is thrown a
`CancellationException`, and nobody has the database. -/
theorem cancelled_open_strands_its_database :
    ∃ s : Sys Nat, (openedOrClosed Nat true).Reach s ∧ s.produced = some 3 ∧ s.stage = .returned (.error cancelled) ∧
      s.closed = [] := by
  have h : (openedOrClosed Nat true).Reach .initial := .init rfl
  have h := h.next (.enter rfl)
  have h := h.next (a := Act.open (.ok 3)) (.openOk rfl)
  have h := h.next (.ensureActive rfl)
  have h := h.next .cancel
  have h := h.next (.resume rfl)
  exact ⟨_, h, rfl, rfl, rfl⟩

end EmbeddedMongo.Android.Opening
