import EmbeddedMongo.Android.BridgeError
import EmbeddedMongo.OpenOptions

/-!
# The storage limits across the boundary

`StorageOptions.kt`, `engineSlots` of `Engine.kt`, and `embedded-mongodb-android/src/options.rs`.
The limits cross as an array of slots, one each, zero where nothing was named; the free-disk
floor has no slot.
-/

namespace EmbeddedMongo.Android

def CacheSize.minMebibytes : Int32 := 1
def CacheSize.maxMebibytes : Int32 := 10000000

/-- `CacheSize`, within its bounds. -/
structure CacheSize where
  mebibytes : Int32
  low : CacheSize.minMebibytes ≤ mebibytes
  high : mebibytes ≤ CacheSize.maxMebibytes
  deriving DecidableEq, Repr

/-- `CacheSize.ofMebibytes` -/
def CacheSize.ofMebibytes (mebibytes : Int32) : Except Throwable CacheSize :=
  match h : inRange "cache size" "MiB" mebibytes minMebibytes maxMebibytes with
  | .ok _ => .ok ⟨mebibytes, (inRange_ok h).2.1, (inRange_ok h).2.2⟩
  | .error e => .error e

def JournalFileSize.minKibibytes : Int32 := 100
def JournalFileSize.maxKibibytes : Int32 := 2 * 1024 * 1024

/-- `JournalFileSize`, within its bounds. -/
structure JournalFileSize where
  kibibytes : Int32
  low : JournalFileSize.minKibibytes ≤ kibibytes
  high : kibibytes ≤ JournalFileSize.maxKibibytes
  deriving DecidableEq, Repr

/-- `JournalFileSize.ofKibibytes` -/
def JournalFileSize.ofKibibytes (kibibytes : Int32) : Except Throwable JournalFileSize :=
  match h : inRange "journal file size" "KiB" kibibytes minKibibytes maxKibibytes with
  | .ok _ => .ok ⟨kibibytes, (inRange_ok h).2.1, (inRange_ok h).2.2⟩
  | .error e => .error e

inductive JournalPreallocation where
  | enabled
  | disabled
  deriving DecidableEq, Repr

/-- How it is sent over the bridge. -/
def JournalPreallocation.slot : JournalPreallocation → Int64
  | .enabled => 1
  | .disabled => 2

/-- `StorageOptions`: what is none is left to the engine. -/
structure StorageOptions where
  cacheSize : Option CacheSize
  journalFileSize : Option JournalFileSize
  journalPreallocation : Option JournalPreallocation
  freeDiskFloor : Option FreeDiskFloor
  deriving DecidableEq, Repr

/-! ## The slots -/

/-- What the bridge reads as "leave this one to the engine". -/
def unset : Int64 := 0

/-- `indexOfLast`: `-1` if there is none. -/
def indexOfLast {α : Type} (p : α → Bool) (xs : List α) : Int :=
  match xs.reverse.findIdx? p with
  | some i => xs.length - 1 - i
  | none => -1

/-- Trimmed to the last slot that was named. -/
def StorageOptions.engineSlots (options : StorageOptions) : List Int64 :=
  let slots :=
    [(options.cacheSize.map fun size => size.mebibytes.toInt64).getD unset,
     (options.journalFileSize.map fun size => size.kibibytes.toInt64).getD unset,
     (options.journalPreallocation.map JournalPreallocation.slot).getD unset]
  slots.take (indexOfLast (fun slot => slot != unset) slots + 1).toNat

/-- `[jlong; SLOTS]`. -/
structure Slots where
  cache : Int64
  journal : Int64
  preallocation : Int64
  deriving DecidableEq, Repr

/-- `read_slots`: as many slots as this build understands, the rest unset. -/
def readSlots (options : List Int64) : Slots := ⟨options.getD 0 0, options.getD 1 0, options.getD 2 0⟩

/-- A size from its slot, where zero is unset. -/
def sizeSlot (value : Int64) (name : String) : Except BridgeError (Option UInt32) :=
  if value = 0 then .ok none
  else if 0 ≤ value.toInt ∧ value.toInt ≤ u32Max then .ok (some (.ofNat value.toInt.toNat))
  else .error (.invalidArgument (name ++ " must fit an unsigned 32-bit integer, got " ++ toString value))

/-- An error of the crate's checks as one of the bridge's. -/
def range {α : Type} : Except OutOfRange α → Except BridgeError α
  | .ok a => .ok a
  | .error e => .error (.invalidArgument e.display)

/-- What the third slot may say. -/
inductive PreallocationSlot where
  | unset
  | enabled
  | disabled
  deriving DecidableEq, Repr

namespace PreallocationSlot

/-- Anything else in it is refused. -/
def read (value : Int64) : Except BridgeError PreallocationSlot :=
  if value = 0 then .ok .unset
  else if value = 1 then .ok .enabled
  else if value = 2 then .ok .disabled
  else .error (.invalidArgument
    ("journal_preallocation must be 0 (the engine's default), 1 (enabled) or 2 (disabled), got " ++ toString value))

def requested : PreallocationSlot → Option Preallocation
  | .unset => none
  | .enabled => some .enabled
  | .disabled => some .disabled

end PreallocationSlot

/-- `open_options`: the slots as the crate's options. -/
def openOptions (slots : Slots) : Except BridgeError OpenOptions := do
  let mut options := OpenOptions.new
  if let some mebibytes ← sizeSlot slots.cache "cache_size_mebibytes" then
    options := options.cacheSize (← range (EmbeddedMongo.CacheSize.fromMebibytes mebibytes))
  if let some kibibytes ← sizeSlot slots.journal "journal_file_kibibytes" then
    options := options.journalFileSize (← range (EmbeddedMongo.JournalFileSize.fromKibibytes kibibytes))
  if let some preallocation := (← PreallocationSlot.read slots.preallocation).requested then
    options := options.journalPreallocation preallocation
  return options

/-- No slot names a floor: every way through starts from options that name nothing. -/
theorem openOptions_freeDiskFloor {slots : Slots} {options : OpenOptions} (h : openOptions slots = .ok options) :
    options.freeDiskFloor = none := by
  simp only [openOptions, bind, Except.bind, pure, Except.pure] at h
  repeat' split at h
  all_goals
    cases h
    try rfl

end EmbeddedMongo.Android
