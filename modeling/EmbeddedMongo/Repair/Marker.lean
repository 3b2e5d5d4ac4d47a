import EmbeddedMongo.Bson
import EmbeddedMongo.Conc.Reruns
import EmbeddedMongo.Error

/-!
# The marker, and the directory it is in

`src/repair/marker.rs` and `src/repair/origin.rs`, with what the rest of an open asks of the
outside: the engine's start, its commands and the environment. Every file operation may fail; a
write that does may leave anything of the partial file behind.
-/

namespace EmbeddedMongo.Repair

open Conc Dialogue

/-- What a failed file operation says. -/
abbrev IoError := String

/-- Bytes, as far as reading them as text goes. -/
inductive Contents where
  | text (text : String)
  | notUtf8
  deriving DecidableEq, Repr

/-- What one data directory holds of the files the pass looks at. -/
structure Directory where
  wiredTiger : Bool
  marker : Option Contents
  partialFile : Option Contents
  deriving DecidableEq, Repr

/-- All the pass asks of the world outside it. -/
inductive Request where
  /-- `data_directory.join("WiredTiger").is_file()`. -/
  | wiredTigerIsFile
  /-- `Client::open` up to the pass: the engine, the session pool and the floors. -/
  | native
  /-- `env::var_os(SKIP_VARIABLE)`. -/
  | skipVariable
  | readMarker
  | createPartial
  | writePartial (text : String)
  | syncPartial
  | renamePartial
  | removePartial
  /-- `Client::run_command`. -/
  | command (database : String) (command : Document)

/-- What each request is answered with. -/
def Reply : Request → Type
  | .wiredTigerIsFile => Bool
  | .native => Except Error Unit
  | .skipVariable => Option Contents
  | .readMarker => Except IoError String
  | .createPartial | .writePartial _ | .syncPartial | .renamePartial | .removePartial => Except IoError Unit
  | .command _ _ => Except Error Document

/-- A program over those requests. -/
abbrev Program := Dialogue Request Reply

/-- Commands and the environment leave the files alone; the engine's start makes the directory a
database's. `is_file` denies a file it cannot look at. -/
def Directory.serve (s : Directory) : (q : Request) → Reply q → Directory → Prop
  | .wiredTigerIsFile, isFile, s' => (isFile = true → s.wiredTiger = true) ∧ s' = s
  | .native, started, s' =>
    ∃ wiredTiger, (s.wiredTiger = true ∨ started.isOk = true → wiredTiger = true) ∧ s' = { s with wiredTiger := wiredTiger }
  | .skipVariable, _, s' => s' = s
  | .readMarker, .ok contents, s' => s.marker = some (.text contents) ∧ s' = s
  | .readMarker, .error _, s' => s' = s
  | .createPartial, .ok _, s' => s' = { s with partialFile := some (.text "") }
  | .createPartial, .error _, s' => s' = s
  | .writePartial text, .ok _, s' => s' = { s with partialFile := some (.text text) }
  | .writePartial _, .error _, s' => ∃ left, s' = { s with partialFile := left }
  | .syncPartial, _, s' => s' = s
  | .renamePartial, .ok _, s' =>
    s.partialFile ≠ none ∧ s' = { s with marker := s.partialFile, partialFile := none }
  | .renamePartial, .error _, s' => s' = s
  | .removePartial, .ok _, s' => s' = { s with partialFile := none }
  | .removePartial, .error _, s' => s' = s
  | .command _ _, _, s' => s' = s

/-! ## `src/repair/origin.rs` -/

/-- Whether the directory was there before this open. -/
inductive Origin where
  | preExisting
  | fresh
  deriving DecidableEq, Repr

/-- `Origin::of` -/
def Origin.ofFile (isFile : Bool) : Origin := if isFile = true then .preExisting else .fresh

def origin : Program Origin := .ask .wiredTigerIsFile fun isFile => .ret (.ofFile isFile)

/-! ## `src/repair/marker.rs` -/

/-- `marker::State` -/
inductive MarkerState where
  | recorded
  | missing
  deriving DecidableEq, Repr

/-- First line of a marker this build wrote. -/
def RECORD : String := "embedded-mongodb index repair v1"

/-- The text below the record, for whoever finds the file. -/
def EXPLANATION : String :=
  "Written by embedded-mongodb after checking this directory for the missing index entries that\n" ++
  "builds before the DatabaseHolder::openDb fix left behind. See the README section `Repairing a\n" ++
  "directory an older build damaged`. Delete this file to have the next open check again.\n"

/-- `str::lines().next()`: a line ends at a line feed, and a carriage return before it goes too. -/
def firstLine (contents : String) : Option String :=
  match contents.toList.takeWhile (· != '\n'), contents.toList.dropWhile (· != '\n') with
  | [], [] => none
  | line, [] => some (String.ofList line)
  | line, _ :: _ => some (String.ofList (if line.getLast? = some '\r' then line.dropLast else line))

namespace MarkerState

/-- The first line is the record. -/
def ofText (contents : String) : MarkerState :=
  if firstLine contents = some RECORD then .recorded else .missing

/-- A file that is not text, or not there, marks nothing. -/
def ofContents : Option Contents → MarkerState
  | some (.text contents) => ofText contents
  | some .notUtf8 | none => .missing

end MarkerState

namespace Directory

/-- What `Marker::state` answers of a marker that can be read. -/
def markerState (s : Directory) : MarkerState := .ofContents s.marker

/-- What a crash may leave. The partial file is in any state, and the rename may be undone with
the power: then what was there before is back, which was not a record. -/
def crash (s s' : Directory) : Prop := s'.markerState = .recorded → s.markerState = .recorded

end Directory

namespace Marker

/-- `marker::state` -/
def state : Program MarkerState :=
  .ask .readMarker fun
    | .ok contents => .ret (.ofText contents)
    | .error _ => .ret .missing

/-- The three operations on the file that is renamed in the end. -/
def writePartial : Program (Except IoError Unit) :=
  .ask .createPartial fun
    | .error e => .ret (.error e)
    | .ok _ => .ask (.writePartial (RECORD ++ "\n" ++ EXPLANATION)) fun
      | .error e => .ret (.error e)
      | .ok _ => .ask .syncPartial .ret

/-- `marker::record` -/
def record : Program (Except IoError Unit) :=
  writePartial.bind fun
    | .ok _ => .ask .renamePartial .ret
    | .error e => .ask .removePartial fun _ => .ret (.error e)

end Marker

/-- **Only a rename makes a record**, and only one that succeeded. -/
theorem Directory.serve_recorded {s s' : Directory} {q : Request} {r : Reply q} (hs : s.serve q r s')
    (was : s.markerState = .missing) (is : s'.markerState = .recorded) :
    q = .renamePartial := by
  have changed : s'.marker ≠ s.marker := by
    intro h
    rw [markerState, h, ← markerState, was] at is
    cases is
  cases q with
  | renamePartial => rfl
  | wiredTigerIsFile => exact absurd (congrArg marker hs.2) changed
  | native =>
    obtain ⟨_, -, rfl⟩ := hs
    exact absurd rfl changed
  | skipVariable => exact absurd (congrArg marker hs) changed
  | syncPartial => exact absurd (congrArg marker hs) changed
  | command => exact absurd (congrArg marker hs) changed
  | readMarker => cases r with
    | ok contents => exact absurd (congrArg marker hs.2) changed
    | error e => exact absurd (congrArg marker hs) changed
  | createPartial => cases r <;> exact absurd (congrArg marker hs) changed
  | removePartial => cases r <;> exact absurd (congrArg marker hs) changed
  | writePartial text => cases r with
    | ok _ => exact absurd (congrArg marker hs) changed
    | error e =>
      obtain ⟨_, rfl⟩ := hs
      exact absurd rfl changed

theorem firstLine_of_lineFeed {line rest : String} (oneLine : ∀ c ∈ line.toList, (c != '\n') = true)
    (ends : line.toList.getLast? ≠ some '\r') : firstLine (line ++ "\n" ++ rest) = some line := by
  have htake : (line ++ "\n" ++ rest).toList.takeWhile (· != '\n') = line.toList := by
    rw [String.toList_append, String.toList_append, List.append_assoc, List.takeWhile_append_of_pos oneLine]
    simp
  have hdrop : (line ++ "\n" ++ rest).toList.dropWhile (· != '\n') = '\n' :: rest.toList := by
    rw [String.toList_append, String.toList_append, List.append_assoc, List.dropWhile_append_of_pos oneLine]
    simp
  unfold firstLine
  rw [htake, hdrop]
  simp [ends]

/-- What `record` writes is what `state` takes for a record. -/
theorem MarkerState.ofText_record : MarkerState.ofText (RECORD ++ "\n" ++ EXPLANATION) = .recorded := by
  have hline : firstLine (RECORD ++ "\n" ++ EXPLANATION) = some RECORD :=
    firstLine_of_lineFeed (by simp [RECORD]) (by simp [RECORD])
  rw [ofText, if_pos hline]

end EmbeddedMongo.Repair
