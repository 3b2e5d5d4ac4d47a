import EmbeddedMongo.Bson

/-!
# The write concern a command is sent with

`Durability.kt`: a write that names no write concern is journalled, and a write is recognised by
the first key of its command. Documents are mutable on the JVM, so `durable` is given on references
as well: it copies what it is about to append to.
-/

namespace EmbeddedMongo.Android

/-- `WRITE_COMMANDS`. -/
def writeCommands : List String :=
  ["insert", "update", "delete", "findAndModify", "create", "createIndexes", "collMod", "drop", "dropDatabase",
    "dropIndexes", "renameCollection"]

/-- A write that names no write concern is journalled. -/
def durable (command : Document) : Document :=
  if (Document.keys command).head?.any (writeCommands.contains ·) = false ∨
      (Document.keys command).contains "writeConcern" = true then command
  else command.insert "writeConcern" (.document [("w", .int32 1), ("j", .boolean true)])

/-- The rule hands the document back: its name is no write's, or it names a write concern. -/
def LeftAlone (command : Document) : Prop :=
  (Document.keys command).head?.any (writeCommands.contains ·) = false ∨
    (Document.keys command).contains "writeConcern" = true

theorem durable_of_leftAlone {command : Document} (h : LeftAlone command) : durable command = command :=
  if_pos h

/-- Any other command has the write concern added at its end. -/
theorem durable_of_not_leftAlone {command : Document} (h : ¬ LeftAlone command) :
    durable command = command ++ [("writeConcern", .document [("w", .int32 1), ("j", .boolean true)])] := by
  have absent : "writeConcern" ∉ Document.keys command := by simpa using (not_or.1 h).2
  rw [← Document.insert_of_notMem absent]
  exact if_neg h

/-- The rule leaves its own answers alone. -/
theorem leftAlone_durable (command : Document) : LeftAlone (durable command) := by
  by_cases h : LeftAlone command
  · rw [durable_of_leftAlone h]
    exact h
  · rw [durable_of_not_leftAlone h]
    right
    simp [Document.keys]

/-! ## The rule, on references -/

/-- The documents there are, by reference. -/
abbrev Heap := List Document

namespace Heap

/-- The document a reference is to. -/
def read (heap : Heap) (ref : Nat) : Document := heap.getD ref []

/-- `Document(other)`: the reference of a copy. -/
def copy (heap : Heap) (ref : Nat) : Nat × Heap := (heap.length, heap ++ [heap.read ref])

/-- `append` of the document at a reference. -/
def append (heap : Heap) (ref : Nat) (key : String) (value : Bson) : Heap := heap.modify ref (·.insert key value)

/-- `durable`, which hands the caller's reference back or that of a new document. -/
def durable (heap : Heap) (command : Nat) : Nat × Heap :=
  let document := heap.read command
  if (Document.keys document).head?.any (writeCommands.contains ·) = false ∨
      (Document.keys document).contains "writeConcern" = true then (command, heap)
  else
    let (copied, heap) := heap.copy command
    (copied, heap.append copied "writeConcern" (.document [("w", .int32 1), ("j", .boolean true)]))

/-- What is appended to a copy is in the copy. -/
theorem read_append_copy (heap : Heap) (command : Nat) (key : String) (value : Bson) :
    ((heap.copy command).2.append heap.length key value).read heap.length = (heap.read command).insert key value := by
  simp [read, append, copy, List.getD]

/-- It is in no document that was there. -/
theorem read_append_copy_of_lt {heap : Heap} {command ref : Nat} {key : String} {value : Bson} (old : ref < heap.length) :
    ((heap.copy command).2.append heap.length key value).read ref = heap.read ref := by
  have other : heap.length ≠ ref := Nat.ne_of_gt old
  simp [read, append, copy, List.getD, other, List.getElem?_append_left old]

/-- The document behind the reference is the rule's. -/
theorem read_durable (heap : Heap) (command : Nat) :
    (heap.durable command).2.read (heap.durable command).1 = Android.durable (heap.read command) := by
  unfold durable Android.durable
  dsimp only
  split
  · rfl
  · exact read_append_copy heap command _ _

/-- The rule changes no document that was there. -/
theorem read_durable_of_lt {heap : Heap} {command ref : Nat} (old : ref < heap.length) :
    (heap.durable command).2.read ref = heap.read ref := by
  unfold durable
  dsimp only
  split
  · rfl
  · exact read_append_copy_of_lt old

theorem durable_of_leftAlone {heap : Heap} {command : Nat} (h : LeftAlone (heap.read command)) :
    heap.durable command = (command, heap) :=
  if_pos h

end Heap

end EmbeddedMongo.Android
