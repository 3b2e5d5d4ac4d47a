import EmbeddedMongo.Limits.Knobs

/-!
# Moving the floors, and establishing them at an open

`src/limits/process.rs` and `at_open.rs`. Every function here runs from start to end inside
`FloorMoves::one_at_a_time`. What a process keeps besides the engine's knobs is the pair its
first open recorded (`EngineFloorDefaults`), so a program of this module sends requests of two
kinds: a command on `admin`, and a look at or a write to that record.
-/

namespace EmbeddedMongo.Limits

open Conc Dialogue

/-- What the floors' code does outside itself. -/
inductive Request where
  /-- The rest of `Client::open` before the floors: the engine and its pool of sessions. -/
  | native
  | admin (command : Document)
  /-- A look at `EngineFloorDefaults::recorded`. -/
  | consult
  | record (floors : ReportedFloors)

def Reply : Request → Type
  | .native => Except Error Unit
  | .admin _ => Except Error Document
  | .consult => Option ReportedFloors
  | .record _ => Unit

abbrev Program (α : Type) := Dialogue Request Reply α

/-- A program of commands alone. -/
def onAdmin {α : Type} (d : Admin Error α) : Program α := d.via .admin fun _ r => r

section

variable [BsonDebug]

/-- Sends the two commands `floor` takes, putting the first knob back if the second is refused. -/
def applyOrPutBack (floor : FreeDiskFloor) (before : ReportedFloors) : Admin Error (Except Error Unit) :=
  .ask floor.commands.1 fun
    | .error e => .ret (.error e)
    | .ok _ => .ask floor.commands.2 fun
      | .ok _ => .ret (.ok ())
      | .error cause => .ask before.commands.1 fun
        | .ok _ => .ret (.error cause)
        | .error rollback => .ret (.error (.freeDiskFloorNotRestored floor cause rollback))

def moveFreeDiskFloor (floor : FreeDiskFloor) : Admin Error (Except Error Unit) :=
  reportedFloors.bind fun
    | .error e => .ret (.error e)
    | .ok before => applyOrPutBack floor before

/-- `EngineFloorDefaults::of`: what was recorded, or what the engine reports, recorded now. -/
def engineFloorDefaults : Program (Except Error ReportedFloors) :=
  .ask .consult fun
    | some floors => .ret (.ok floors)
    | none => (onAdmin reportedFloors).bind fun
      | .error e => .ret (.error e)
      | .ok floors => .ask (.record floors) fun _ => .ret (.ok floors)

def establish (requested : Option FreeDiskFloor) : Program (Except Error Unit) :=
  engineFloorDefaults.bind fun
    | .error e => .ret (.error e)
    | .ok engineOwn =>
      match requested with
      | some floor => onAdmin (send floor.commands)
      | none => onAdmin (send engineOwn.commands)

end

/-! ## The process -/

/-- The engine's knobs, which outlive every client, and the record of its defaults. `sent` is
history: the commands on `admin`, each with its reply. -/
structure Floors where
  knobs : ReportedFloors
  recorded : Option ReportedFloors
  sent : List (Document × Except Error Document)

section

variable [BsonDebug]

/-- What a command on `admin` may come to. -/
def Floors.admin : Server Floors Document (fun _ => Except Error Document) := fun s command reply s' =>
  ∃ knobs, Answers (fun reply => (floorsIn reply).toOption) (fun e => e.isNotRestored = false) s.knobs command reply
      knobs ∧
    s' = { s with knobs := knobs, sent := s.sent ++ [(command, reply)] }

def Floors.serve : Server Floors Request Reply := fun s q r s' =>
  match q, r with
  | .native, _ => s' = s
  | .admin command, reply => Floors.admin s command reply s'
  | .consult, found => found = s.recorded ∧ s' = s
  | .record floors, _ => s' = { s with recorded := some floors }

theorem Always.onAdmin {α : Type} {I : Floors → Prop} {Post : α → Floors → Prop} {d : Admin Error α} {s : Floors}
    (h : d.Always Floors.admin I Post s) : (onAdmin d).Always Floors.serve I Post s := by
  apply (Always.via id (fun _ => True) ?_ trivial h).mono (fun _ h => h.2) (fun _ _ h => h.2)
  exact fun _ _ _ _ _ hs => ⟨trivial, hs⟩

/-- An engine that reports its knobs. -/
theorem Floors.serve_reported (s : Floors) :
    s.serve (.admin reportedFloorsCommand) (Except.ok s.knobs.reply)
      { s with sent := s.sent ++ [(reportedFloorsCommand, .ok s.knobs.reply)] } := by
  refine ⟨_, .taken ?_, rfl⟩
  intro _ r hr
  simpa [Except.toOption, eq_comm] using hr

/-- An engine that takes the first command of a pair. -/
theorem Floors.serve_indexBuild (s : Floors) (pair : ReportedFloors) (reply : Document) :
    s.serve (.admin pair.commands.1) (Except.ok reply)
      { s with
        knobs := { s.knobs with indexBuild := pair.indexBuild }
        sent := s.sent ++ [(pair.commands.1, .ok reply)] } := by
  refine ⟨_, .taken ?_, by rw [take_indexBuild]⟩
  simp [ReportedFloors.commands, floorCommands, reportedFloorsCommand]

/-- An engine that takes the second. -/
theorem Floors.serve_querySpilling (s : Floors) (pair : ReportedFloors) (reply : Document) :
    s.serve (.admin pair.commands.2) (Except.ok reply)
      { s with
        knobs := { s.knobs with querySpilling := pair.querySpilling }
        sent := s.sent ++ [(pair.commands.2, .ok reply)] } := by
  refine ⟨_, .taken ?_, by rw [take_querySpilling]⟩
  simp [ReportedFloors.commands, floorCommands, reportedFloorsCommand]

/-- An engine that refuses a command. -/
theorem Floors.serve_refused (s : Floors) (command : Document) {e : Error} (h : e.isNotRestored = false) :
    s.serve (.admin command) (Except.error e) { s with sent := s.sent ++ [(command, .error e)] } :=
  ⟨_, .refused h, rfl⟩

/-! ## What each program does, by itself -/

/-- Commands leave the record alone. -/
theorem admin_recorded {α : Type} (d : Admin Error α) (s : Floors) :
    d.Always Floors.admin (fun s' => s'.recorded = s.recorded) (fun _ s' => s'.recorded = s.recorded) s := by
  refine Always.of_serve ?_ rfl
  rintro t command reply t' h ⟨knobs, -, rfl⟩
  exact h

/-- A reading moves nothing, and what it answers is in force. -/
theorem reportedFloors_spec (s : Floors) :
    reportedFloors.Always Floors.admin (fun s' => s'.knobs = s.knobs)
      (fun a s' => s'.knobs = s.knobs ∧
        match a with
        | .ok r => r = s.knobs ∧ ∃ reply, s'.sent = s.sent ++ [(reportedFloorsCommand, .ok reply)]
        | .error e => e.isNotRestored = false) s := by
  refine ⟨rfl, ?_⟩
  rintro reply s' ⟨knobs, hanswers, rfl⟩
  cases hanswers with
  | refused h => exact ⟨rfl, rfl, h⟩
  | @taken reported honest =>
    refine ⟨rfl, rfl, ?_⟩
    cases hread : floorsIn reported with
    | ok r => exact ⟨honest rfl r (by simp [hread, Except.toOption]), reported, rfl⟩
    | error e => exact floorsIn_error hread

/-- Both commands taken put the pair in force. -/
theorem send_spec (pair : ReportedFloors) (s : Floors) :
    (send pair.commands).Always Floors.admin (fun _ => True) (fun a s' => a = .ok () → s'.knobs = pair) s := by
  refine ⟨trivial, ?_⟩
  rintro reply s₁ ⟨knobs₁, hfirst, rfl⟩
  cases hfirst with
  | refused => exact ⟨trivial, nofun⟩
  | taken =>
    refine ⟨trivial, ?_⟩
    rintro reply s₂ ⟨knobs₂, hsecond, rfl⟩
    cases hsecond with
    | refused => exact ⟨trivial, nofun⟩
    | taken => exact ⟨trivial, fun _ => by simp⟩

/-- How a move may end: with its pair in force, with everything as it was, or, both its second
command and the put-back refused, with an error that says so. -/
inductive Moved (floor : FreeDiskFloor) (s : Floors) : Except Error Unit → Floors → Prop where
  | moved {s' : Floors} (knobs : s'.knobs = floor.pair) : Moved floor s (.ok ()) s'
  | putBack {s' : Floors} {e : Error} (known : e.isNotRestored = false) (knobs : s'.knobs = s.knobs) :
      Moved floor s (.error e) s'
  | notRestored {s' : Floors} {cause rollback : Error} {reported reply : Document}
      (sent : s'.sent = s.sent ++ [(reportedFloorsCommand, .ok reported), (floor.commands.1, .ok reply),
        (floor.commands.2, .error cause), (s.knobs.commands.1, .error rollback)]) :
      Moved floor s (.error (.freeDiskFloorNotRestored floor cause rollback)) s'

theorem applyOrPutBack_spec (floor : FreeDiskFloor) {s t : Floors} {reported : Document} (knobs : t.knobs = s.knobs)
    (sent : t.sent = s.sent ++ [(reportedFloorsCommand, .ok reported)]) :
    (applyOrPutBack floor s.knobs).Always Floors.admin (fun _ => True) (Moved floor s) t := by
  refine ⟨trivial, ?_⟩
  rintro reply t₁ ⟨knobs₁, hfirst, rfl⟩
  cases hfirst with
  | refused known => exact ⟨trivial, .putBack known knobs⟩
  | @taken reply =>
    refine ⟨trivial, ?_⟩
    rintro reply₂ t₂ ⟨knobs₂, hsecond, rfl⟩
    cases hsecond with
    | taken => exact ⟨trivial, .moved (by simp [FreeDiskFloor.commands])⟩
    | @refused cause known =>
      refine ⟨trivial, ?_⟩
      rintro reply₃ t₃ ⟨knobs₃, hback, rfl⟩
      cases hback with
      | taken => exact ⟨trivial, .putBack known (by simp [FreeDiskFloor.commands, knobs])⟩
      | refused => exact ⟨trivial, @Moved.notRestored _ _ _ _ _ reported reply (by simp [sent])⟩

theorem moveFreeDiskFloor_spec (floor : FreeDiskFloor) (s : Floors) :
    (moveFreeDiskFloor floor).Always Floors.admin (fun _ => True) (Moved floor s) s := by
  apply Always.bind
  apply (reportedFloors_spec s).mono (fun _ _ => trivial)
  rintro a t ⟨knobs, ha⟩
  cases a with
  | error e => exact ⟨trivial, .putBack ha knobs⟩
  | ok before =>
    obtain ⟨rfl, reported, sent⟩ := ha
    exact applyOrPutBack_spec floor knobs sent

/-- The pair an open that names no floor goes by: the recorded one, or the one it finds. -/
def Floors.own (s : Floors) : ReportedFloors := s.recorded.getD s.knobs

/-- The record during an open: as it was with the floors untouched, or set. -/
def Recording (s s' : Floors) : Prop :=
  s'.recorded = s.recorded ∧ s'.knobs = s.knobs ∨ s'.recorded = some s.own

theorem engineFloorDefaults_spec (s : Floors) :
    engineFloorDefaults.Always Floors.serve (Recording s)
      (fun a s' => ∀ own, a = .ok own → own = s.own ∧ s'.recorded = some s.own) s := by
  refine ⟨.inl ⟨rfl, rfl⟩, ?_⟩
  rintro found t ⟨hfound, ht⟩
  rw [hfound, ht]
  cases hrecorded : s.recorded with
  | some floors =>
    have hown : s.own = floors := by simp [Floors.own, hrecorded]
    refine ⟨.inl ⟨rfl, rfl⟩, ?_⟩
    rintro own ⟨⟩
    exact ⟨hown.symm, by rw [hrecorded, hown]⟩
  | none =>
    have hown : s.own = s.knobs := by simp [Floors.own, hrecorded]
    apply Always.bind
    apply (Always.onAdmin ((reportedFloors_spec s).and (admin_recorded _ s))).mono
    · rintro t ⟨knobs, recorded⟩
      exact .inl ⟨recorded, knobs⟩
    · rintro a t ⟨⟨knobs, ha⟩, recorded⟩
      cases a with
      | error e => exact ⟨.inl ⟨recorded, knobs⟩, nofun⟩
      | ok floors =>
        obtain ⟨rfl, -⟩ := ha
        refine ⟨.inl ⟨recorded, knobs⟩, ?_⟩
        rintro - t' rfl
        refine ⟨.inr (by rw [hown]), ?_⟩
        rintro own ⟨⟩
        exact ⟨hown.symm, by rw [hown]⟩

/-- What an open that establishes its floor leaves: the pair it named, or the engine's own. -/
theorem establish_spec (requested : Option FreeDiskFloor) (s : Floors) :
    (establish requested).Always Floors.serve (Recording s)
      (fun a s' => a = .ok () → s'.recorded = some s.own ∧ s'.knobs = (requested.map FreeDiskFloor.pair).getD s.own)
      s := by
  have sending : ∀ (pair : ReportedFloors) (t : Floors), t.recorded = some s.own →
      (onAdmin (send pair.commands)).Always Floors.serve (Recording s)
        (fun a s' => a = .ok () → s'.recorded = some s.own ∧ s'.knobs = pair) t := by
    intro pair t ht
    apply (Always.onAdmin ((send_spec pair t).and (admin_recorded _ t))).mono
    · rintro t' ⟨-, recorded⟩
      exact .inr (recorded.trans ht)
    · rintro a t' ⟨knobs, recorded⟩ hok
      exact ⟨recorded.trans ht, knobs hok⟩
  apply Always.bind
  apply (engineFloorDefaults_spec s).ends.mono (fun _ h => h)
  rintro a t ⟨recording, ha⟩
  cases a with
  | error e => exact ⟨recording, nofun⟩
  | ok own =>
    obtain ⟨rfl, recorded⟩ := ha own rfl
    cases requested with
    | some floor => exact sending floor.pair t recorded
    | none => exact sending s.own t recorded

end

end EmbeddedMongo.Limits
