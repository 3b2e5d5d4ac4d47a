import EmbeddedMongo.Limits.Knobs

/-!
# The floors from Kotlin

`FreeDiskFloor.kt`. Each suspending function and its blocking twin are one program here: what
differs is how a command is run, and that is the business of whoever answers it. The two
integers of Kotlin's `ReportedFloors` are those of the crate's.
-/

namespace EmbeddedMongo.Android

open Conc Dialogue
open Limits (ReportedFloors Admin indexBuildFloor querySpillingFloor)

/-- What a failure is of, apart from the failures suppressed under it. -/
inductive Cause where
  | embeddedMongo (message : String) (code : Int32) (response : Option Document)
  | illegalArgument (message : String)
  | illegalState (message : String)
  /-- `CancellationException`. -/
  | cancellation
  | other (text : String)

/-- An exception, with those it has suppressed. -/
inductive Throwable where
  | of (cause : Cause) (suppressed : List Throwable)

/-- `addSuppressed` -/
def Throwable.addSuppressed : Throwable → Throwable → Throwable
  | .of cause suppressed, failure => .of cause (suppressed ++ [failure])

def noErrorCode : Int32 := 0

/-- `inRange` of `StorageOptions.kt`. -/
def inRange (name unit : String) (value low high : Int32) : Except Throwable Int32 :=
  if low ≤ value ∧ value ≤ high then .ok value
  else .error (.of (.illegalArgument (name ++ " must be between " ++ toString low ++ " and " ++ toString high ++ " " ++
    unit ++ ", got " ++ toString value)) [])

/-- A value that passes is within its bounds, and itself. -/
theorem inRange_ok {name unit : String} {value low high v : Int32} (h : inRange name unit value low high = .ok v) :
    v = value ∧ low ≤ value ∧ value ≤ high := by
  unfold inRange at h
  split at h
  · rename_i hr
    cases h
    exact ⟨rfl, hr⟩
  · cases h

def FreeDiskFloor.minMebibytes : Int32 := 1
def FreeDiskFloor.maxMebibytes : Int32 := 2147483647

/-- `FreeDiskFloor`, within its bounds. -/
structure FreeDiskFloor where
  mebibytes : Int32
  low : FreeDiskFloor.minMebibytes ≤ mebibytes
  deriving DecidableEq, Repr

def bytesPerMebibyte : Int64 := 1024 * 1024

namespace FreeDiskFloor

/-- `FreeDiskFloor.ofMebibytes` -/
def ofMebibytes (mebibytes : Int32) : Except Throwable FreeDiskFloor :=
  match h : inRange "free disk floor" "MiB" mebibytes minMebibytes maxMebibytes with
  | .ok _ => .ok ⟨mebibytes, (inRange_ok h).2.1⟩
  | .error e => .error e

/-- `ENGINE_DEFAULT`: what both knobs hold until something moves them. -/
def engineDefault : FreeDiskFloor := ⟨500, by decide⟩

/-- The floor in the unit the query-spilling knob takes. -/
def bytes (floor : FreeDiskFloor) : Int64 := floor.mebibytes.toInt64 * bytesPerMebibyte

end FreeDiskFloor

/-! ## The commands -/

def setParameter : String := "setParameter"

/-- The commands that put these floors back, each in the unit its knob takes. -/
def commands (floors : ReportedFloors) : List Document :=
  [[(setParameter, .int32 1), (indexBuildFloor, .int64 floors.indexBuild.mebibytes)],
   [(setParameter, .int32 1), (querySpillingFloor, .int64 floors.querySpilling.bytes)]]

/-- `freeDiskFloorCommands`: one knob counts mebibytes, the other bytes. -/
def freeDiskFloorCommands (floor : FreeDiskFloor) : List Document :=
  [[(setParameter, .int32 1), (indexBuildFloor, .int64 floor.mebibytes.toInt64)],
   [(setParameter, .int32 1), (querySpillingFloor, .int64 floor.bytes)]]

/-- The command that reads both knobs. -/
def reportedFloorsCommand : Document :=
  [("getParameter", .int32 1), (indexBuildFloor, .int32 1), (querySpillingFloor, .int32 1)]

/-- What `(value as? Number)?.toLong()` makes of a value whose type is none `Bson` tells apart:
a double or a decimal is a number. -/
class ToLong where
  ofOther : UInt8 → List UInt8 → Option Int64

/-- `(value as? Number)?.toLong()` -/
def toLong [ToLong] : Bson → Option Int64
  | .int32 value => some value.toInt64
  | .int64 value => some value
  | .other type bytes => ToLong.ofOther type bytes
  | .string _ | .document _ | .array _ | .boolean _ => none

/-- One knob of the reply. -/
def floorOf [ToLong] (reply : Document) (name : String) : Except Throwable Int64 :=
  match (Document.get name reply).bind toLong with
  | some floor => .ok floor
  | none => .error (.of (.embeddedMongo ("getParameter has no " ++ name) noErrorCode none) [])

/-- Both of them. -/
def reportedFloors [ToLong] (reply : Document) : Except Throwable ReportedFloors :=
  match floorOf reply indexBuildFloor with
  | .error e => .error e
  | .ok indexBuild =>
    match floorOf reply querySpillingFloor with
    | .error e => .error e
    | .ok querySpilling => .ok ⟨⟨indexBuild⟩, ⟨querySpilling⟩⟩

/-! ## The programs -/

/-- `for (knob in commands) send(knob)`. -/
def sendEach : List Document → Admin Throwable (Except Throwable Unit)
  | [] => .ret (.ok ())
  | command :: rest => .ask command fun
    | .error e => .ret (.error e)
    | .ok _ => sendEach rest

/-- `freeDiskFloors` -/
def freeDiskFloors [ToLong] : Admin Throwable (Except Throwable ReportedFloors) :=
  .ask reportedFloorsCommand fun
    | .error e => .ret (.error e)
    | .ok reply => .ret (reportedFloors reply)

/-- `restoreFreeDiskFloorsBlocking`. -/
def restoreFreeDiskFloors (floors : ReportedFloors) : Admin Throwable (Except Throwable Unit) :=
  sendEach (commands floors)

/-- Puts the floors back; what stops it is suppressed under the failure it answers. -/
def restore (before : ReportedFloors) (failure : Throwable) : Admin Throwable Throwable :=
  (sendEach (commands before)).map fun
    | .ok _ => failure
    | .error restoring => failure.addSuppressed restoring

/-- The `try` of `setFreeDiskFloor`, and its `catch`. -/
def moveOrRestore (floor : FreeDiskFloor) (before : ReportedFloors) : Admin Throwable (Except Throwable Unit) :=
  (sendEach (freeDiskFloorCommands floor)).bind fun
    | .ok _ => .ret (.ok ())
    | .error failure => (restore before failure).map .error

/-- `setFreeDiskFloor` and `setFreeDiskFloorBlocking`. -/
def setFreeDiskFloor [ToLong] (floor : FreeDiskFloor) : Admin Throwable (Except Throwable Unit) :=
  freeDiskFloors.bind fun
    | .error e => .ret (.error e)
    | .ok before => moveOrRestore floor before

/-! ## What the commands set -/

/-- The counts `freeDiskFloorCommands` sets. -/
def FreeDiskFloor.pair (floor : FreeDiskFloor) : ReportedFloors := ⟨⟨floor.mebibytes.toInt64⟩, ⟨floor.bytes⟩⟩

/-- MongoDB's own floors. -/
def engineOwn : ReportedFloors := FreeDiskFloor.engineDefault.pair

theorem commands_eq (floors : ReportedFloors) : commands floors = [floors.commands.1, floors.commands.2] := rfl

theorem freeDiskFloorCommands_eq (floor : FreeDiskFloor) :
    freeDiskFloorCommands floor = [floor.pair.commands.1, floor.pair.commands.2] := rfl

theorem reportedFloorsCommand_eq : reportedFloorsCommand = Limits.reportedFloorsCommand := rfl

/-- Kotlin reads the reply of an engine that reports both knobs as the crate does. -/
@[simp] theorem reportedFloors_reply [ToLong] (knobs : ReportedFloors) : reportedFloors knobs.reply = .ok knobs := by
  simp [reportedFloors, floorOf, toLong, ReportedFloors.reply, Document.get, List.lookup, indexBuildFloor,
    querySpillingFloor]

/-- The knobs stand for the floor: its mebibytes, and as many bytes. -/
def FreeDiskFloor.StandsIn (floor : FreeDiskFloor) (knobs : ReportedFloors) : Prop :=
  knobs.indexBuild.mebibytes.toInt = floor.mebibytes.toInt ∧
    knobs.querySpilling.bytes.toInt = floor.mebibytes.toInt * 2 ^ 20

/-- Neither count overflows. -/
theorem FreeDiskFloor.pair_standsIn (floor : FreeDiskFloor) : floor.StandsIn floor.pair := by
  have hlow : -2 ^ 31 ≤ floor.mebibytes.toInt := floor.mebibytes.le_toInt
  have hhigh : floor.mebibytes.toInt < 2 ^ 31 := floor.mebibytes.toInt_lt
  have hmebibytes : floor.mebibytes.toInt64.toInt = floor.mebibytes.toInt := Int32.toInt_toInt64 _
  refine ⟨hmebibytes, ?_⟩
  have hunit : bytesPerMebibyte.toInt = 2 ^ 20 := by decide
  show (floor.mebibytes.toInt64 * bytesPerMebibyte).toInt = _
  rw [Int64.toInt_mul, hmebibytes, hunit]
  apply Int.bmod_eq_of_le <;> omega

/-- Knobs that stand for a floor are its pair. -/
theorem FreeDiskFloor.StandsIn.eq_pair {floor : FreeDiskFloor} {knobs : ReportedFloors} (h : floor.StandsIn knobs) :
    knobs = floor.pair := by
  obtain ⟨hindex, hspilling⟩ := h
  obtain ⟨hindex', hspilling'⟩ := floor.pair_standsIn
  obtain ⟨⟨indexBuild⟩, ⟨querySpilling⟩⟩ := knobs
  have h1 : indexBuild = floor.pair.indexBuild.mebibytes := Int64.toInt_inj.1 (hindex.trans hindex'.symm)
  have h2 : querySpilling = floor.pair.querySpilling.bytes := Int64.toInt_inj.1 (hspilling.trans hspilling'.symm)
  rw [h1, h2]

/-- The first knob tells the floor. -/
theorem FreeDiskFloor.pair_indexBuild_inj {f g : FreeDiskFloor} (h : f.pair.indexBuild = g.pair.indexBuild) : f = g := by
  obtain ⟨hf, -⟩ := f.pair_standsIn
  obtain ⟨hg, -⟩ := g.pair_standsIn
  rw [h, hg] at hf
  obtain ⟨f, _⟩ := f
  obtain ⟨g, _⟩ := g
  obtain rfl : f = g := Int32.toInt_inj.1 hf.symm
  rfl

/-- The second knob tells it as well. -/
theorem FreeDiskFloor.pair_querySpilling_inj {f g : FreeDiskFloor} (h : f.pair.querySpilling = g.pair.querySpilling) : f = g := by
  obtain ⟨-, hf⟩ := f.pair_standsIn
  obtain ⟨-, hg⟩ := g.pair_standsIn
  rw [h, hg] at hf
  obtain ⟨f, _⟩ := f
  obtain ⟨g, _⟩ := g
  have hint : f.toInt = g.toInt := by
    simp only at hf
    omega
  obtain rfl : f = g := Int32.toInt_inj.1 hint
  rfl

end EmbeddedMongo.Android
