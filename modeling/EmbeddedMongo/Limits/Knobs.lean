import EmbeddedMongo.Bson
import EmbeddedMongo.Conc.Dialogue
import EmbeddedMongo.Error

/-!
# The two server parameters a floor is made of

`src/limits/knobs.rs` and the commands of `floor.rs`, over an engine reached as
`AdminCommands` reaches it: a command on `admin`, and its reply. The engine holds the two
knobs as 64-bit integers; it may refuse any command, and a `setParameter` it refused it did
not apply.
-/

namespace EmbeddedMongo

open Conc

/-- How the `bson` crate prints a value for debugging. -/
class BsonDebug where
  debug : Bson → String

namespace Limits

/-- The first knob, in mebibytes. -/
structure IndexBuildFloor where
  mebibytes : Int64
  deriving DecidableEq, Repr

/-- The second knob, in bytes. -/
structure QuerySpillingFloor where
  bytes : Int64
  deriving DecidableEq, Repr

/-- The two floors, each in the unit its knob takes. -/
structure ReportedFloors where
  indexBuild : IndexBuildFloor
  querySpilling : QuerySpillingFloor
  deriving DecidableEq, Repr

/-- `INDEX_BUILD_FLOOR`. -/
def indexBuildFloor : String := "indexBuildMinAvailableDiskSpaceMB"

/-- `QUERY_SPILLING_FLOOR`. -/
def querySpillingFloor : String := "internalQuerySpillingMinAvailableDiskSpaceBytes"

def bytesPerMebibyte : Int64 := 1024 * 1024

/-- The two `setParameter` commands that put a pair in force, in knob order. -/
def floorCommands (indexBuild : IndexBuildFloor) (querySpilling : QuerySpillingFloor) : Document × Document :=
  ([("setParameter", .int32 1), (indexBuildFloor, .int64 indexBuild.mebibytes)],
   [("setParameter", .int32 1), (querySpillingFloor, .int64 querySpilling.bytes)])

def ReportedFloors.commands (floors : ReportedFloors) : Document × Document :=
  floorCommands floors.indexBuild floors.querySpilling

end Limits

namespace FreeDiskFloor

open Limits

/-- The counts `FreeDiskFloor::commands` sets. -/
def pair (floor : FreeDiskFloor) : ReportedFloors :=
  let mebibytes : Int64 := .ofNat floor.mebibytes.toNat
  ⟨⟨mebibytes⟩, ⟨mebibytes * bytesPerMebibyte⟩⟩

/-- `FreeDiskFloor::commands` -/
def commands (floor : FreeDiskFloor) : Document × Document := floor.pair.commands

end FreeDiskFloor

namespace Limits

def reportedFloorsCommand : Document :=
  [("getParameter", .int32 1), (indexBuildFloor, .int32 1), (querySpillingFloor, .int32 1)]

/-- The count the engine reported for `knob`, or why it cannot be read as one. -/
def floorIn [BsonDebug] (reported : Document) (knob : String) : Except Error Int64 :=
  match Document.get knob reported with
  | some (.int64 floor) => .ok floor
  | some found =>
    .error (.invalidResponse ("getParameter answered " ++ knob ++ " with " ++ BsonDebug.debug found ++
      ", not the 64-bit integer the knob holds"))
  | none => .error (.invalidResponse ("getParameter has no " ++ knob))

/-- What a reply to `reportedFloorsCommand` says. -/
def floorsIn [BsonDebug] (reported : Document) : Except Error ReportedFloors :=
  match floorIn reported indexBuildFloor with
  | .error e => .error e
  | .ok indexBuild =>
    match floorIn reported querySpillingFloor with
    | .error e => .error e
    | .ok querySpilling => .ok ⟨⟨indexBuild⟩, ⟨querySpilling⟩⟩

/-- A reply that cannot be read is an invalid response. -/
theorem floorIn_error [BsonDebug] {reported : Document} {knob : String} {e : Error}
    (h : floorIn reported knob = .error e) : e.isNotRestored = false := by
  unfold floorIn at h
  split at h <;> cases h <;> rfl

theorem floorsIn_error [BsonDebug] {reported : Document} {e : Error} (h : floorsIn reported = .error e) :
    e.isNotRestored = false := by
  unfold floorsIn at h
  split at h
  · cases h
    exact floorIn_error ‹_›
  · split at h
    · cases h
      exact floorIn_error ‹_›
    · cases h

/-- The reply of an engine that reports both knobs. -/
def ReportedFloors.reply (knobs : ReportedFloors) : Document :=
  [(indexBuildFloor, .int64 knobs.indexBuild.mebibytes), (querySpillingFloor, .int64 knobs.querySpilling.bytes)]

/-- Knobs read off such a reply are those it reports. -/
@[simp] theorem floorsIn_reply [BsonDebug] (knobs : ReportedFloors) : floorsIn knobs.reply = .ok knobs := by
  simp [floorsIn, floorIn, ReportedFloors.reply, Document.get, List.lookup, indexBuildFloor, querySpillingFloor]

/-! ## What is sent -/

/-- A program that runs commands on `admin` and does nothing else. -/
abbrev Admin (ε α : Type) := Dialogue Document (fun _ => Except ε Document) α

/-- What the engine says the two floors are now. -/
def reportedFloors [BsonDebug] : Admin Error (Except Error ReportedFloors) :=
  .ask reportedFloorsCommand fun
    | .error e => .ret (.error e)
    | .ok reported => .ret (floorsIn reported)

/-- Sends two commands in order, stopping at the first one the engine refuses. -/
def send (commands : Document × Document) : Admin Error (Except Error Unit) :=
  .ask commands.1 fun
    | .error e => .ret (.error e)
    | .ok _ => .ask commands.2 fun
      | .error e => .ret (.error e)
      | .ok _ => .ret (.ok ())

/-! ## The engine -/

/-- The knobs after a command the engine took. -/
def ReportedFloors.take (command : Document) (knobs : ReportedFloors) : ReportedFloors :=
  match command with
  | ("setParameter", _) :: fields =>
    { indexBuild := match Document.get indexBuildFloor fields with
        | some (.int64 mebibytes) => ⟨mebibytes⟩
        | _ => knobs.indexBuild
      querySpilling := match Document.get querySpillingFloor fields with
        | some (.int64 bytes) => ⟨bytes⟩
        | _ => knobs.querySpilling }
  | _ => knobs

/-- What an engine holding `knobs` may answer a command, and the knobs it then holds: a
refusal with an error of `fails`, which changes nothing, or a reply. The reply to a reading
may be one that `reads` makes nothing of, but it is of no other knobs. -/
inductive Answers {ε : Type} (reads : Document → Option ReportedFloors) (fails : ε → Prop) (knobs : ReportedFloors)
    (command : Document) : Except ε Document → ReportedFloors → Prop where
  | refused {e : ε} (h : fails e) : Answers reads fails knobs command (.error e) knobs
  | taken {reply : Document} (honest : command = reportedFloorsCommand → ∀ r, reads reply = some r → r = knobs) :
      Answers reads fails knobs command (.ok reply) (knobs.take command)

@[simp] theorem take_reportedFloorsCommand (knobs : ReportedFloors) :
    knobs.take reportedFloorsCommand = knobs := rfl

/-- The first command sets the first knob. -/
@[simp] theorem take_indexBuild (pair knobs : ReportedFloors) :
    knobs.take pair.commands.1 = { knobs with indexBuild := pair.indexBuild } := by
  simp [ReportedFloors.take, ReportedFloors.commands, floorCommands, Document.get, List.lookup, indexBuildFloor,
    querySpillingFloor]

/-- The second sets the second. -/
@[simp] theorem take_querySpilling (pair knobs : ReportedFloors) :
    knobs.take pair.commands.2 = { knobs with querySpilling := pair.querySpilling } := by
  simp [ReportedFloors.take, ReportedFloors.commands, floorCommands, Document.get, List.lookup, indexBuildFloor,
    querySpillingFloor]

/-! ## The pair of a floor, in integers -/

/-- The knobs stand for the floor: its mebibytes, and as many bytes. -/
def ReportedFloors.Stands (floor : FreeDiskFloor) (knobs : ReportedFloors) : Prop :=
  knobs.indexBuild.mebibytes.toInt = floor.mebibytes.toNat ∧
    knobs.querySpilling.bytes.toInt = floor.mebibytes.toNat * 2 ^ 20

/-- Neither count overflows. -/
theorem pair_stands (floor : FreeDiskFloor) : floor.pair.Stands floor := by
  have hlt : floor.mebibytes.toNat < 2 ^ 32 := floor.mebibytes.toNat_lt
  have hmebibytes : (Int64.ofNat floor.mebibytes.toNat).toInt = floor.mebibytes.toNat := by
    rw [Int64.toInt_ofNat_of_lt]
    omega
  refine ⟨hmebibytes, ?_⟩
  have hunit : bytesPerMebibyte.toInt = 2 ^ 20 := by decide
  show (Int64.ofNat floor.mebibytes.toNat * bytesPerMebibyte).toInt = _
  rw [Int64.toInt_mul, hmebibytes, hunit]
  apply Int.bmod_eq_of_le <;> omega

end Limits

end EmbeddedMongo
