import EmbeddedMongo.Android.CommandReply
import EmbeddedMongo.Android.Durability
import EmbeddedMongo.Conc.Trace

/-!
# Journalled writes

The rule of `Durability.kt` on the commands of `EmbeddedMongo.kt`, and the aggregate builder, which
is the other place that knows what a write is. An `aggregate` that ends in `$out` or `$merge` writes
too, and `AggregateQuery` knows that it does, but its first key is `aggregate`: it is sent without a
write concern.
-/

namespace EmbeddedMongo.Android

open Conc Dialogue

/-! ## The command -/

/-- `engine.command(database, encoded)` -/
structure EngineCommand where
  database : String
  encoded : List UInt8

/-- `MainThreadGuard.complaint` -/
def complaint (operation : String) : String :=
  operation ++ " on the main thread blocks the UI for as long as the engine takes, which is " ++
    "long enough to trigger an ANR. Call it from a background thread, or use the " ++
    "suspending API, which dispatches onto the database thread."

/-- `runCommandBlocking`, and the documents there are when it returns. What the codec makes of a
document is a parameter. -/
def runCommandBlocking [Decimal128] (encode : Document → Except Throwable (List UInt8))
    (decode : List UInt8 → Except Throwable Document) (onMainThread closed : Bool) (database : String)
    (command : Nat) (heap : Heap) :
    Dialogue EngineCommand (fun _ => Except Throwable (List UInt8)) (Except Throwable Document × Heap) :=
  if onMainThread = true then
    .ret (.error (.of (.illegalState (complaint "Running a MongoDB command")) []), heap)
  else if closed = true then .ret (.error (.of (.illegalState "the embedded MongoDB database is closed") []), heap)
  else
    let (command, heap) := heap.durable command
    match encode (heap.read command) with
    | .error e => .ret (.error e, heap)
    | .ok encoded => .ask ⟨database, encoded⟩ fun
      | .error e => .ret (.error e, heap)
      | .ok bytes => match decode bytes with
        | .error e => .ret (.error e, heap)
        | .ok reply => .ret (checkedReply reply, heap)

/-! ## The aggregate builder -/

/-- `WRITING_STAGES` -/
def writingStages : List String := ["$out", "$merge"]

/-- An index, by its keys or by its name. -/
inductive Hint where
  | keys (keys : Document)
  | name (name : String)

/-- `AggregateQuery`: a batch holds something. -/
structure AggregateQuery where
  collection : String
  stages : List Document
  batch : Option { documents : Int32 // 0 < documents }
  diskUse : Option Bool
  index : Option Hint

namespace AggregateQuery

/-- `MongoCollection.aggregate` -/
def ofPipeline (collection : String) (pipeline : List Document) : AggregateQuery :=
  ⟨collection, pipeline, none, none, none⟩

def pipeline (pipeline : List Document) (q : AggregateQuery) : AggregateQuery := { q with stages := pipeline }

def append (stages : List Document) (q : AggregateQuery) : AggregateQuery := { q with stages := q.stages ++ stages }

/-- `AggregateQuery.batchSize` -/
def batchSize (documents : Int32) (q : AggregateQuery) : Except Throwable AggregateQuery :=
  if h : 0 < documents then .ok { q with batch := some ⟨documents, h⟩ }
  else .error (.of (.illegalArgument ("a batch of " ++ toString documents ++ " documents holds nothing")) [])

def allowDiskUse (allowed : Bool) (q : AggregateQuery) : AggregateQuery := { q with diskUse := some allowed }

def hint (keys : Document) (q : AggregateQuery) : AggregateQuery := { q with index := some (.keys keys) }

def hintString (name : String) (q : AggregateQuery) : AggregateQuery := { q with index := some (.name name) }

/-- `AggregateQuery.command` -/
def command (q : AggregateQuery) : Document :=
  [("aggregate", .string q.collection),
    ("pipeline", .array (q.stages.map .document)),
    ("cursor", .document (q.batch.elim [] fun documents => [("batchSize", .int32 documents)]))] ++
  (q.diskUse.elim [] fun allowed => [("allowDiskUse", .boolean allowed)]) ++
  (q.index.elim [] fun
    | .keys keys => [("hint", .document keys)]
    | .name name => [("hint", .string name)])

/-- The stage is known by its first key. -/
def writes (stage : Document) : Bool := (Document.keys stage).head?.any (writingStages.contains ·)

/-- `AggregateQuery.limitedToOne`: a stage that writes has to be the last. -/
def limitedToOne (q : AggregateQuery) : AggregateQuery :=
  if q.stages.getLast?.any writes = true then q else q.append [[("$limit", .int32 1)]]

end AggregateQuery

/-! ## What a write is -/

/-- An `aggregate` whose pipeline ends in a stage that writes. -/
def isWritingAggregate (command : Document) : Bool :=
  (Document.keys command).head? == some "aggregate" &&
    ((Document.getArray "pipeline" command).bind fun stages => stages.getLast?.bind Bson.asDocument).any
      AggregateQuery.writes

/-- A command that writes, to either of the two places that know. -/
def isWrite (command : Document) : Bool :=
  (Document.keys command).head?.any (writeCommands.contains ·) || isWritingAggregate command

/-- What every command is to be sent as: a write that names no write concern has one added at its end. -/
def journalled (command : Document) : Document :=
  if isWrite command = true ∧ (Document.keys command).contains "writeConcern" = false then
    command ++ [("writeConcern", .document [("w", .int32 1), ("j", .boolean true)])]
  else command

/-- A write of the kind the rule does not see. -/
def Unjournalled (command : Document) : Prop :=
  isWritingAggregate command = true ∧ (Document.keys command).contains "writeConcern" = false

/-- The rule leaves an aggregate alone, whatever it does. -/
theorem leftAlone_of_isWritingAggregate {command : Document} (h : isWritingAggregate command = true) : LeftAlone command := by
  left
  rw [isWritingAggregate, Bool.and_eq_true, beq_iff_eq] at h
  rw [h.1]
  decide

/-- The rule keeps the promise, but for the writes it does not see. -/
theorem durable_eq_journalled_iff (command : Document) :
    durable command = journalled command ↔ ¬ Unjournalled command := by
  by_cases haggregate : isWritingAggregate command = true
  · rw [durable_of_leftAlone (leftAlone_of_isWritingAggregate haggregate)]
    unfold journalled Unjournalled isWrite
    rw [haggregate, Bool.or_true]
    cases (Document.keys command).contains "writeConcern" <;> simp
  · refine iff_of_true ?_ fun h => haggregate h.1
    unfold journalled isWrite
    rw [Bool.not_eq_true] at haggregate
    rw [haggregate, Bool.or_false]
    split
    · rename_i hwrite
      apply durable_of_not_leftAlone
      rw [LeftAlone, hwrite.1, hwrite.2]
      simp
    · rename_i hleft
      apply durable_of_leftAlone
      rw [Decidable.not_and_iff_or_not] at hleft
      rcases hleft with hname | hnames
      · exact .inl (by simpa using hname)
      · exact .inr (by simpa using hnames)

namespace AggregateQuery

theorem keys_command_head (q : AggregateQuery) : (Document.keys q.command).head? = some "aggregate" := rfl

theorem getArray_pipeline_command (q : AggregateQuery) :
    Document.getArray "pipeline" q.command = some (q.stages.map .document) := rfl

/-- A query writes just if its last stage does. -/
theorem isWritingAggregate_command (q : AggregateQuery) :
    isWritingAggregate q.command = q.stages.getLast?.any writes := by
  rw [isWritingAggregate, keys_command_head, getArray_pipeline_command, beq_self_eq_true, Bool.true_and, Option.bind_some,
    List.getLast?_map]
  cases q.stages.getLast? <;> rfl

/-- No query names a write concern. -/
theorem no_writeConcern_command (q : AggregateQuery) : (Document.keys q.command).contains "writeConcern" = false := by
  obtain ⟨collection, stages, batch, diskUse, index⟩ := q
  cases diskUse <;> rcases index with _ | _ | _ <;> rfl

end AggregateQuery

/-- What a call hands to the engine: nothing if it is refused, or the encoded `document`. -/
def engineCommands (encode : Document → Except Throwable (List UInt8)) (onMainThread closed : Bool) (database : String)
    (document : Document) : List EngineCommand :=
  if onMainThread = true ∨ closed = true then []
  else match encode document with
    | .error _ => []
    | .ok encoded => [⟨database, encoded⟩]

/-- A call hands the engine the document of the rule, and leaves every document there was as it was. -/
theorem runCommandBlocking_spec [Decimal128] (encode : Document → Except Throwable (List UInt8))
    (decode : List UInt8 → Except Throwable Document) (onMainThread closed : Bool) (database : String) (command : Nat)
    (heap : Heap) :
    (runCommandBlocking encode decode onMainThread closed database command heap).Traces (fun _ => True)
      (fun answer tr =>
        tr.map Sigma.fst = engineCommands encode onMainThread closed database (durable (heap.read command)) ∧
        ∀ ref < heap.length, answer.2.read ref = heap.read ref) := by
  unfold runCommandBlocking engineCommands
  cases onMainThread with
  | true => exact ⟨trivial, rfl, fun _ _ => rfl⟩
  | false =>
    cases closed with
    | true => exact ⟨trivial, rfl, fun _ _ => rfl⟩
    | false =>
      have frame : ∀ ref < heap.length, (heap.durable command).2.read ref = heap.read ref :=
        fun _ old => Heap.read_durable_of_lt old
      simp only [Bool.false_eq_true, if_false, or_self, Heap.read_durable]
      cases encode (durable (heap.read command)) with
      | error e => exact ⟨trivial, rfl, frame⟩
      | ok encoded =>
        refine ⟨trivial, fun answer => ?_⟩
        cases answer with
        | error e => exact ⟨trivial, rfl, frame⟩
        | ok bytes =>
          dsimp only
          cases decode bytes with
          | error e => exact ⟨trivial, rfl, frame⟩
          | ok reply => exact ⟨trivial, rfl, frame⟩

/-- **Every write is journalled, but for an aggregate's.** What a call encodes for the engine is the
command as promised exactly when it is not an `aggregate` that ends in a writing stage and names no
write concern; the aggregates the builder makes are of that kind exactly when they end in such a
stage. No document of the caller's changes, and the rule applied to its own answer hands that
reference back. -/
theorem writes_are_journalled_iff [Decimal128] (heap : Heap) (command : Nat) :
    (∀ encode decode onMainThread closed database,
      (runCommandBlocking encode decode onMainThread closed database command heap).Traces (fun _ => True)
        fun answer tr =>
          tr.map Sigma.fst = engineCommands encode onMainThread closed database (durable (heap.read command)) ∧
          ∀ ref < heap.length, answer.2.read ref = heap.read ref) ∧
    (durable (heap.read command) = journalled (heap.read command) ↔ ¬ Unjournalled (heap.read command)) ∧
    (∀ q : AggregateQuery, Unjournalled q.command ↔ q.stages.getLast?.any AggregateQuery.writes = true) ∧
    (heap.durable command).2.durable (heap.durable command).1 = heap.durable command ∧
    durable (durable (heap.read command)) = durable (heap.read command) := by
  refine ⟨?_, durable_eq_journalled_iff _, ?_, ?_, durable_of_leftAlone (leftAlone_durable _)⟩
  · intro encode decode onMainThread closed database
    exact runCommandBlocking_spec encode decode onMainThread closed database command heap
  · intro q
    rw [Unjournalled, q.isWritingAggregate_command, q.no_writeConcern_command]
    exact and_iff_left rfl
  · apply Heap.durable_of_leftAlone
    rw [Heap.read_durable]
    exact leftAlone_durable _

/-- Orders copied into an archive: a write to the builder, and sent without a write concern. -/
theorem archive_is_not_journalled :
    ((AggregateQuery.ofPipeline "orders" []).append [[("$match", .document [])], [("$out", .string "archive")]]).limitedToOne =
      (AggregateQuery.ofPipeline "orders" []).append [[("$match", .document [])], [("$out", .string "archive")]] ∧
    isWrite ((AggregateQuery.ofPipeline "orders" []).append
      [[("$match", .document [])], [("$out", .string "archive")]]).command = true ∧
    durable ((AggregateQuery.ofPipeline "orders" []).append
      [[("$match", .document [])], [("$out", .string "archive")]]).command =
      [("aggregate", .string "orders"),
        ("pipeline", .array [.document [("$match", .document [])], .document [("$out", .string "archive")]]),
        ("cursor", .document [])] :=
  ⟨rfl, rfl, rfl⟩

end EmbeddedMongo.Android
