import EmbeddedMongo.Android.FreeDiskFloor

/-!
# A floor move under cancellation

The suspending `setFreeDiskFloor` runs each command in `withContext(dispatcher)`, which looks
at the caller's job twice. On entry a cancelled job is answered a `CancellationException` and
the block does not run; on exit the result of a block is discarded the same way if the job was
cancelled meanwhile, while a failure of the block stands. Cancellation is for good: the
commands of `restore` go the same way as those of the move.
-/

namespace EmbeddedMongo.Android

open Conc Dialogue
open Limits (ReportedFloors Admin)

/-- When the caller's job is cancelled, counted in the commands of the call: before a
`withContext` looks on entry, or while its block runs. -/
inductive Moment where
  | before (turn : Nat)
  | during (turn : Nat)

/-- The cancellation is seen before the command of this turn is sent. -/
def Moment.seenOnEntry (turn : Nat) : Moment → Bool
  | .before t => t ≤ turn
  | .during t => t < turn

/-- It is seen when that command has been answered. -/
def Moment.seenOnExit (turn : Nat) : Moment → Bool
  | .before t => t ≤ turn
  | .during t => t ≤ turn

/-- One `runCommand`: what the engine answered, if the block ran, and what the caller got. -/
structure Turn where
  command : Document
  answer : Option (Except Throwable Document)
  outcome : Except Throwable Document

/-- The caller was thrown at in this turn. -/
def Turn.threw (turn : Turn) : Bool := !turn.outcome.isOk

/-- The engine itself refused the command. -/
def Turn.refused (turn : Turn) : Bool := turn.answer.any fun answer => !answer.isOk

@[simp] theorem isOk_ok {ε α : Type} (a : α) : (Except.ok a : Except ε α).isOk = true := rfl

@[simp] theorem isOk_error {ε α : Type} (e : ε) : (Except.error e : Except ε α).isOk = false := rfl

/-- The engine's knobs during a call; `turns` is history. -/
structure Call where
  knobs : ReportedFloors
  turns : List Turn

/-- A command after one that threw was refused by the engine: the only commands a move sends
after a failure are those of `restore`. -/
def refusedRestore : List Turn → Bool
  | [] => false
  | turn :: rest => turn.threw && rest.any Turn.refused || refusedRestore rest

def cancelled : Throwable := .of .cancellation []

/-- What of a block's result is handed to the caller a `withContext` resumes on another dispatcher,
with the caller's job cancelled by then or not. -/
def handed {α : Type} (gone : Bool) : Except Throwable α → Except Throwable α
  | .ok a => if gone = true then .error cancelled else .ok a
  | .error e => .error e

section

variable (engine : Nat → Except Throwable Document) (cancel : Option Moment)

/-- `runCommand` on an open database, by an engine that answers command after command. -/
def runCommand (command : Document) (s : Call) : Except Throwable Document × Call :=
  let turn := s.turns.length
  if cancel.any (Moment.seenOnEntry turn) then
    (.error cancelled, { s with turns := s.turns ++ [⟨command, none, .error cancelled⟩] })
  else
    match engine turn with
    | .error e => (.error e, { s with turns := s.turns ++ [⟨command, some (.error e), .error e⟩] })
    | .ok reply =>
      let outcome := if cancel.any (Moment.seenOnExit turn) then .error cancelled else .ok reply
      (outcome, ⟨s.knobs.take command, s.turns ++ [⟨command, some (.ok reply), outcome⟩]⟩)

/-- A suspending program, run to its end. -/
def suspending {α : Type} : Admin Throwable α → Call → α × Call
  | .ret a, s => (a, s)
  | .ask command next, s =>
    let (outcome, s') := runCommand engine cancel command s
    suspending (next outcome) s'

end

/-- What the engine answers, command by command; a reading that can be read is of its knobs. -/
structure Script [ToLong] (knobs : ReportedFloors) where
  answer : Nat → Except Throwable Document
  honest : ∀ reply floors, answer 0 = .ok reply → reportedFloors reply = .ok floors → floors = knobs

/-- The floors could be read. -/
def Script.readable [ToLong] {knobs : ReportedFloors} (script : Script knobs) : Bool :=
  match script.answer 0 with
  | .ok reply => (reportedFloors reply).isOk
  | .error _ => false

/-- The job is found cancelled at a look that comes when the engine has taken a command which
moved a knob and `restore` has not sent anything yet. -/
def Stranded [ToLong] {knobs : ReportedFloors} (script : Script knobs) (cancel : Option Moment) (floor : FreeDiskFloor) :
    Prop :=
  script.readable = true ∧ cancel.any (Moment.seenOnEntry 1) = false ∧ (script.answer 1).isOk = true ∧
    if cancel.any (Moment.seenOnEntry 2) = true then floor.pair.indexBuild ≠ knobs.indexBuild
    else if (script.answer 2).isOk = true then cancel.any (Moment.seenOnExit 2) = true ∧ floor.pair ≠ knobs
    else cancel.any (Moment.seenOnEntry 3) = true ∧ floor.pair.indexBuild ≠ knobs.indexBuild

section

variable {engine : Nat → Except Throwable Document} {cancel : Option Moment}

/-! ## Runs -/

/-- A suspending program goes on from where its first part left the call. -/
theorem suspending_bind {α β : Type} (d : Admin Throwable α) (f : α → Admin Throwable β) (s : Call) :
    suspending engine cancel (d.bind f) s =
      suspending engine cancel (f (suspending engine cancel d s).1) (suspending engine cancel d s).2 := by
  induction d generalizing s with
  | ret a => rfl
  | ask command next ih => exact ih _ _

/-- A look on exit follows the look on entry. -/
theorem seenOnExit_of_entry {turn : Nat} (h : cancel.any (Moment.seenOnEntry turn) = true) :
    cancel.any (Moment.seenOnExit turn) = true := by
  rcases cancel with _ | ⟨t⟩ | ⟨t⟩ <;> simp [Moment.seenOnEntry, Moment.seenOnExit] at h ⊢ <;> omega

/-- What was seen on exit is seen at the next entry. -/
theorem seenOnEntry_of_exit {turn : Nat} (h : cancel.any (Moment.seenOnExit turn) = true) :
    cancel.any (Moment.seenOnEntry (turn + 1)) = true := by
  rcases cancel with _ | ⟨t⟩ | ⟨t⟩ <;> simp [Moment.seenOnEntry, Moment.seenOnExit] at h ⊢ <;> omega

section

variable {command : Document} {rest : List Document} {s : Call}

/-- The next command is not sent. -/
theorem sendEach_cancelled (h : cancel.any (Moment.seenOnEntry s.turns.length) = true) :
    suspending engine cancel (sendEach (command :: rest)) s =
      (.error cancelled, { s with turns := s.turns ++ [⟨command, none, .error cancelled⟩] }) := by
  simp only [sendEach, suspending, runCommand, h, if_true]

/-- The engine refuses it. -/
theorem sendEach_refused {e : Throwable} (h : cancel.any (Moment.seenOnEntry s.turns.length) = false)
    (he : engine s.turns.length = .error e) :
    suspending engine cancel (sendEach (command :: rest)) s =
      (.error e, { s with turns := s.turns ++ [⟨command, some (.error e), .error e⟩] }) := by
  simp [sendEach, suspending, runCommand, h, he]

/-- The engine takes it and the caller is not told. -/
theorem sendEach_discarded {reply : Document} (h : cancel.any (Moment.seenOnEntry s.turns.length) = false)
    (hreply : engine s.turns.length = .ok reply) (hexit : cancel.any (Moment.seenOnExit s.turns.length) = true) :
    suspending engine cancel (sendEach (command :: rest)) s =
      (.error cancelled, ⟨s.knobs.take command, s.turns ++ [⟨command, some (.ok reply), .error cancelled⟩]⟩) := by
  simp [sendEach, suspending, runCommand, h, hreply, hexit]

/-- The engine takes it and the caller goes on. -/
theorem sendEach_taken {reply : Document} (h : cancel.any (Moment.seenOnEntry s.turns.length) = false)
    (hreply : engine s.turns.length = .ok reply) (hexit : cancel.any (Moment.seenOnExit s.turns.length) = false) :
    suspending engine cancel (sendEach (command :: rest)) s =
      suspending engine cancel (sendEach rest)
        ⟨s.knobs.take command, s.turns ++ [⟨command, some (.ok reply), .ok reply⟩]⟩ := by
  simp [sendEach, suspending, runCommand, h, hreply, hexit]

end

/-! ## The restore -/

theorem refusedRestore_append (turns : List Turn) (turn : Turn) :
    refusedRestore (turns ++ [turn]) = (refusedRestore turns || turns.any Turn.threw && turn.refused) := by
  induction turns with
  | nil => simp [refusedRestore]
  | cons first rest ih =>
    simp only [List.cons_append, refusedRestore, ih, List.any_append, List.any_cons, List.any_nil]
    grind

/-- Commands that leave the knobs where they are, whatever becomes of them. -/
theorem sendEach_keeps {commands : List Document} {s : Call} (h : ∀ c ∈ commands, s.knobs.take c = s.knobs) :
    (suspending engine cancel (sendEach commands) s).2.knobs = s.knobs := by
  induction commands generalizing s with
  | nil => rfl
  | cons command rest ih =>
    have hfirst := h command (by simp)
    have hrest : ∀ c ∈ rest, s.knobs.take c = s.knobs := fun c hc => h c (by simp [hc])
    cases hentry : cancel.any (Moment.seenOnEntry s.turns.length) with
    | true => rw [sendEach_cancelled hentry]
    | false =>
      cases hanswer : engine s.turns.length with
      | error e => rw [sendEach_refused hentry hanswer]
      | ok reply =>
        cases hexit : cancel.any (Moment.seenOnExit s.turns.length) with
        | true =>
          rw [sendEach_discarded hentry hanswer hexit]
          exact hfirst
        | false =>
          rw [sendEach_taken hentry hanswer hexit, hfirst]
          exact ih hrest

/-- With only the first knob moved, a restore that gets to send its first command puts it back
or is refused. -/
theorem restore_sent {before : ReportedFloors} {s : Call} (hspilling : s.knobs.querySpilling = before.querySpilling)
    (threw : s.turns.any Turn.threw = true) (hentry : cancel.any (Moment.seenOnEntry s.turns.length) = false) :
    (suspending engine cancel (sendEach (commands before)) s).2.knobs = before ∨
      refusedRestore (suspending engine cancel (sendEach (commands before)) s).2.turns = true := by
  have hback : s.knobs.take before.commands.1 = before := by
    rw [Limits.take_indexBuild, hspilling]
  rw [commands_eq]
  cases hanswer : engine s.turns.length with
  | error e =>
    right
    rw [sendEach_refused hentry hanswer]
    simp [refusedRestore_append, threw, Turn.refused]
  | ok reply =>
    left
    cases hexit : cancel.any (Moment.seenOnExit s.turns.length) with
    | true =>
      rw [sendEach_discarded hentry hanswer hexit]
      exact hback
    | false =>
      rw [sendEach_taken hentry hanswer hexit, hback]
      apply sendEach_keeps
      simp

/-! ## The move -/

/-- If the call throws, both knobs are as they were or the engine refused a command of the
restore. -/
def AllOrNothing (knobs : ReportedFloors) (r : Except Throwable Unit × Call) : Prop :=
  r.1.isOk = false → r.2.knobs = knobs ∨ refusedRestore r.2.turns = true

/-- Knobs that stand as they did are nothing. -/
theorem AllOrNothing.of_kept {knobs : ReportedFloors} {r : Except Throwable Unit × Call} (h : r.2.knobs = knobs) :
    AllOrNothing knobs r := fun _ => .inl h

/-- A move that sent both its commands is all. -/
theorem allOrNothing_of_returned {knobs before : ReportedFloors} {floor : FreeDiskFloor} {s s' : Call}
    (h : suspending engine cancel (sendEach (freeDiskFloorCommands floor)) s = (.ok (), s')) :
    AllOrNothing knobs (suspending engine cancel (moveOrRestore floor before) s) := by
  unfold moveOrRestore
  rw [suspending_bind, h]
  intro hthrew
  cases hthrew

/-- A move that threw ends where its restore ends. -/
theorem allOrNothing_iff_of_threw {knobs before : ReportedFloors} {floor : FreeDiskFloor} {s s' : Call}
    {failure : Throwable}
    (h : suspending engine cancel (sendEach (freeDiskFloorCommands floor)) s = (.error failure, s')) :
    AllOrNothing knobs (suspending engine cancel (moveOrRestore floor before) s) ↔
      (suspending engine cancel (sendEach (commands before)) s').2.knobs = knobs ∨
        refusedRestore (suspending engine cancel (sendEach (commands before)) s').2.turns = true := by
  unfold moveOrRestore
  rw [suspending_bind, h]
  simp only [restore, Dialogue.map, suspending_bind, suspending, AllOrNothing]
  exact imp_iff_right rfl

/-- A move found cancelled where it threw ends there. -/
theorem allOrNothing_iff_of_cancelled {knobs before : ReportedFloors} {floor : FreeDiskFloor} {s s' : Call}
    {failure : Throwable}
    (h : suspending engine cancel (sendEach (freeDiskFloorCommands floor)) s = (.error failure, s'))
    (hentry : cancel.any (Moment.seenOnEntry s'.turns.length) = true) (calm : refusedRestore s'.turns = false) :
    AllOrNothing knobs (suspending engine cancel (moveOrRestore floor before) s) ↔ s'.knobs = knobs := by
  rw [allOrNothing_iff_of_threw h, commands_eq, sendEach_cancelled hentry]
  simp [refusedRestore_append, calm, Turn.refused]

theorem indexBuild_moved_iff (knobs : ReportedFloors) (floor : FreeDiskFloor) :
    { knobs with indexBuild := floor.pair.indexBuild } = knobs ↔ floor.pair.indexBuild = knobs.indexBuild := by
  obtain ⟨indexBuild, querySpilling⟩ := knobs
  simp

/-- From a reading that succeeded. The cases are the looks at the job and the answers of the
engine, in the order the call comes to them. -/
theorem moveOrRestore_allOrNothing_iff (floor : FreeDiskFloor) {knobs : ReportedFloors} {reading : Turn}
    (calm : reading.threw = false) :
    AllOrNothing knobs (suspending engine cancel (moveOrRestore floor knobs) ⟨knobs, [reading]⟩) ↔
      ¬ (cancel.any (Moment.seenOnEntry 1) = false ∧ (engine 1).isOk = true ∧
        if cancel.any (Moment.seenOnEntry 2) = true then floor.pair.indexBuild ≠ knobs.indexBuild
        else if (engine 2).isOk = true then cancel.any (Moment.seenOnExit 2) = true ∧ floor.pair ≠ knobs
        else cancel.any (Moment.seenOnEntry 3) = true ∧ floor.pair.indexBuild ≠ knobs.indexBuild) := by
  cases hentry1 : cancel.any (Moment.seenOnEntry 1) with
  | true =>
    have hmove : suspending engine cancel (sendEach (freeDiskFloorCommands floor)) ⟨knobs, [reading]⟩ =
        (.error cancelled, ⟨knobs, [reading, ⟨_, none, .error cancelled⟩]⟩) := sendEach_cancelled hentry1
    rw [allOrNothing_iff_of_cancelled hmove (seenOnEntry_of_exit (seenOnExit_of_entry hentry1))
      (by simp [refusedRestore, calm])]
    simp
  | false =>
  cases hanswer1 : engine 1 with
  | error e =>
    have hmove : suspending engine cancel (sendEach (freeDiskFloorCommands floor)) ⟨knobs, [reading]⟩ =
        (.error e, ⟨knobs, [reading, ⟨_, some (.error e), .error e⟩]⟩) := sendEach_refused hentry1 hanswer1
    rw [allOrNothing_iff_of_threw hmove, sendEach_keeps (by simp [commands_eq])]
    simp
  | ok reply =>
  let moved : ReportedFloors := { knobs with indexBuild := floor.pair.indexBuild }
  have hmoved : knobs.take floor.pair.commands.1 = moved := Limits.take_indexBuild _ _
  have hpair : moved.take floor.pair.commands.2 = floor.pair := Limits.take_querySpilling _ _
  let first : Turn := ⟨floor.pair.commands.1, some (.ok reply), .ok reply⟩
  have hfirst : ∀ turn, refusedRestore [reading, first, turn] = false := by
    simp [refusedRestore, calm, first, Turn.threw.eq_1 first]
  have going : cancel.any (Moment.seenOnExit 1) = false →
      suspending engine cancel (sendEach (freeDiskFloorCommands floor)) ⟨knobs, [reading]⟩ =
        suspending engine cancel (sendEach [floor.pair.commands.2]) ⟨moved, [reading, first]⟩ := by
    intro hexit1
    rw [← hmoved]
    exact sendEach_taken hentry1 hanswer1 hexit1
  cases hentry2 : cancel.any (Moment.seenOnEntry 2) with
  | true =>
    have iff_moved : AllOrNothing knobs (suspending engine cancel (moveOrRestore floor knobs) ⟨knobs, [reading]⟩) ↔
        moved = knobs := by
      cases hexit1 : cancel.any (Moment.seenOnExit 1) with
      | true =>
        have hmove : suspending engine cancel (sendEach (freeDiskFloorCommands floor)) ⟨knobs, [reading]⟩ =
            (.error cancelled,
              ⟨moved, [reading, ⟨floor.pair.commands.1, some (.ok reply), .error cancelled⟩]⟩) := by
          rw [← hmoved]
          exact sendEach_discarded hentry1 hanswer1 hexit1
        exact allOrNothing_iff_of_cancelled hmove hentry2 (by simp [refusedRestore, calm])
      | false =>
        have hmove := (going hexit1).trans (sendEach_cancelled (s := ⟨moved, [reading, first]⟩) hentry2)
        exact allOrNothing_iff_of_cancelled hmove (seenOnEntry_of_exit (seenOnExit_of_entry hentry2)) (hfirst _)
    rw [iff_moved, indexBuild_moved_iff]
    simp
  | false =>
  have hexit1 : cancel.any (Moment.seenOnExit 1) = false := by
    cases hexit1 : cancel.any (Moment.seenOnExit 1) with
    | false => rfl
    | true => rw [seenOnEntry_of_exit hexit1] at hentry2; cases hentry2
  cases hanswer2 : engine 2 with
  | ok reply2 =>
    cases hexit2 : cancel.any (Moment.seenOnExit 2) with
    | true =>
      have hmove := (going hexit1).trans
        (sendEach_discarded (s := ⟨moved, [reading, first]⟩) hentry2 hanswer2 hexit2)
      rw [allOrNothing_iff_of_cancelled hmove (seenOnEntry_of_exit hexit2) (hfirst _), hpair]
      simp
    | false =>
      have hmove := (going hexit1).trans (sendEach_taken (s := ⟨moved, [reading, first]⟩) hentry2 hanswer2 hexit2)
      apply iff_of_true (allOrNothing_of_returned hmove)
      simp
  | error e =>
    have hmove := (going hexit1).trans (sendEach_refused (s := ⟨moved, [reading, first]⟩) hentry2 hanswer2)
    cases hentry3 : cancel.any (Moment.seenOnEntry 3) with
    | true =>
      rw [allOrNothing_iff_of_cancelled hmove hentry3 (hfirst _), indexBuild_moved_iff]
      simp
    | false =>
      rw [allOrNothing_iff_of_threw hmove]
      apply iff_of_true ?_ (by simp)
      let second : Turn := ⟨floor.pair.commands.2, some (.error e), .error e⟩
      exact restore_sent (s := ⟨moved, [reading, first, second]⟩) rfl (by simp [Turn.threw, second]) hentry3

end

section

variable [ToLong] {knobs : ReportedFloors}

/-- **A floor move is all or nothing, unless its caller is cancelled half way.** For every
starting pair, every pattern of refusals and every moment of cancellation: whenever the call
throws both knobs are as they were or the engine refused a command of the restore, if and only
if the job is not found cancelled with a knob moved and the restore not begun. -/
theorem floor_move_is_all_or_nothing_iff (script : Script knobs) (cancel : Option Moment) (floor : FreeDiskFloor) :
    AllOrNothing knobs (suspending script.answer cancel (setFreeDiskFloor floor) ⟨knobs, []⟩) ↔
      ¬ Stranded script cancel floor := by
  unfold setFreeDiskFloor Stranded
  rw [suspending_bind]
  have gone : cancel.any (Moment.seenOnExit 0) = true → cancel.any (Moment.seenOnEntry 1) = true := seenOnEntry_of_exit
  cases hentry : cancel.any (Moment.seenOnEntry 0) with
  | true =>
    have hgone := gone (seenOnExit_of_entry hentry)
    apply iff_of_true
    · apply AllOrNothing.of_kept
      simp [freeDiskFloors, suspending, runCommand, hentry]
    · simp [hgone]
  | false =>
  cases hanswer : script.answer 0 with
  | error e =>
    apply iff_of_true
    · apply AllOrNothing.of_kept
      simp [freeDiskFloors, suspending, runCommand, hentry, hanswer]
    · simp [Script.readable, hanswer]
  | ok reply =>
  cases hexit : cancel.any (Moment.seenOnExit 0) with
  | true =>
    apply iff_of_true
    · apply AllOrNothing.of_kept
      simp [freeDiskFloors, suspending, runCommand, hentry, hanswer, hexit, reportedFloorsCommand_eq]
    · simp [gone hexit]
  | false =>
  cases hread : reportedFloors reply with
  | error e =>
    apply iff_of_true
    · apply AllOrNothing.of_kept
      simp [freeDiskFloors, suspending, runCommand, hentry, hanswer, hexit, hread, reportedFloorsCommand_eq]
    · simp [Script.readable, hanswer, hread]
  | ok before =>
    obtain rfl : before = knobs := script.honest reply before hanswer hread
    let reading : Turn := ⟨reportedFloorsCommand, some (.ok reply), .ok reply⟩
    have hrun : suspending script.answer cancel freeDiskFloors ⟨before, []⟩ = (.ok before, ⟨before, [reading]⟩) := by
      simp [freeDiskFloors, suspending, runCommand, hentry, hanswer, hexit, hread, reportedFloorsCommand_eq, reading]
    have calm : reading.threw = false := rfl
    rw [hrun, moveOrRestore_allOrNothing_iff floor calm]
    simp [Script.readable, hanswer, hread]

/-- An engine that refuses the commands of these turns and takes the others. -/
def Script.refusing (knobs : ReportedFloors) (turns : List Nat) : Script knobs where
  answer turn := if turn ∈ turns then .error (.of (.embeddedMongo "refused" 2 none) []) else .ok knobs.reply
  honest := by
    intro reply floors hreply hfloors
    split at hreply
    · cases hreply
    · cases hreply
      simpa [eq_comm] using hfloors

end

/-- The second command refused and nobody cancelled: the first knob is put back. -/
theorem floor_move_is_all_or_nothing_iff_of_refusal :
    ∃ (_ : ToLong) (floor : FreeDiskFloor), floor.mebibytes = 32 ∧
      ¬ Stranded (.refusing engineOwn [2]) none floor ∧
      AllOrNothing engineOwn (suspending (Script.refusing engineOwn [2]).answer none (setFreeDiskFloor floor)
        ⟨engineOwn, []⟩) := by
  let _ : ToLong := ⟨fun _ _ => none⟩
  let floor : FreeDiskFloor := ⟨32, by decide⟩
  have calm : ¬ Stranded (.refusing engineOwn [2]) none floor := by
    simp [Stranded, Script.refusing]
  exact ⟨inferInstance, floor, rfl, calm, (floor_move_is_all_or_nothing_iff _ _ _).2 calm⟩

/-- The caller is cancelled while the engine takes the first command: the call throws, nothing is
sent any more, and the index-build floor stays at 32 MiB beside the spilling floor of 500. -/
theorem cancelled_floor_move_is_left_half_way :
    ∃ (_ : ToLong) (floor : FreeDiskFloor),
      let r := suspending (Script.refusing engineOwn []).answer (some (.during 1)) (setFreeDiskFloor floor)
        ⟨engineOwn, []⟩
      r.1.isOk = false ∧ r.2.knobs = ⟨⟨32⟩, ⟨524288000⟩⟩ ∧ refusedRestore r.2.turns = false ∧
        ¬ AllOrNothing engineOwn r := by
  let _ : ToLong := ⟨fun _ _ => none⟩
  let floor : FreeDiskFloor := ⟨32, by decide⟩
  refine ⟨inferInstance, floor, rfl, rfl, rfl, ?_⟩
  intro h
  rcases h rfl with hkept | hrefused
  · have hmoved : (⟨⟨32⟩, ⟨524288000⟩⟩ : ReportedFloors) = engineOwn := hkept
    revert hmoved
    decide
  · cases hrefused

end EmbeddedMongo.Android
