import EmbeddedMongo.Android.Cancellation
import EmbeddedMongo.Conc.System

/-!
# The document flow

`CursorFlow.kt`. `documentFlow` is cut where it may suspend: at a command, and at each `emit`. The
functions below run it from one such point to the next, and `Stage` is what it has in hand there.

The step system is one collection of the flow. A command is a `withContext` on the database thread,
so the block that runs it may not be entered by a job found cancelled, and what it returns is
discarded if the job is found cancelled on the way back; under `NonCancellable` neither happens.
An `emit` looks at the job before it calls the collector.
-/

namespace EmbeddedMongo.Android.CursorFlow

open Conc

/-- `EmbeddedMongoException(message, NO_ERROR_CODE)`. -/
def exception (message : String) : Throwable := .of (.embeddedMongo message noErrorCode none) []

/-! ## Reading a reply -/

/-- The `cursor` of a reply. -/
def cursorOf (reply : Document) : Except Throwable Document :=
  match (Document.get "cursor" reply).bind Bson.asDocument with
  | some cursor => .ok cursor
  | none =>
    .error (exception ("the command returned no cursor (fields: " ++ ", ".intercalate (Document.keys reply) ++ ")"))

/-- Its id, in any numeric type. -/
def idOf [ToLong] (cursor : Document) : Except Throwable Int64 :=
  match (Document.get "id" cursor).bind toLong with
  | some id => .ok id
  | none => .error (exception "the cursor reply carries no id")

/-- `substringAfter('.', missingDelimiterValue = "")`. -/
def afterDot (text : String) : String := String.ofList ((text.toList.dropWhile (· != '.')).drop 1)

/-- Its collection, from the namespace behind the first dot. -/
def collectionOf (cursor : Document) : Except Throwable String :=
  match (Document.get "ns" cursor).bind Bson.asStr with
  | none => .error (exception "the cursor reply carries no namespace")
  | some ns =>
    if (afterDot ns).isEmpty then .error (exception ("the cursor namespace `" ++ ns ++ "` names no collection"))
    else .ok (afterDot ns)

/-- The documents of a batch, up to the first value that is not one. -/
def documentsOf (name : String) : List Bson → Except Throwable (List Document)
  | [] => .ok []
  | .document document :: batch =>
    match documentsOf name batch with
    | .ok documents => .ok (document :: documents)
    | .error e => .error e
  | _ :: _ => .error (exception ("the cursor " ++ name ++ " holds a value that is not a document"))

/-- Its batch, under the name it has in this reply. -/
def batchOf (cursor : Document) (name : String) : Except Throwable (List Document) :=
  match (Document.get name cursor).bind Bson.asArray with
  | some batch => documentsOf name batch
  | none => .error (exception ("the cursor reply carries no " ++ name ++ " array"))

/-! ## Paging -/

/-- The collection a cursor is over, the id it has and the first batch, while it is unread. -/
structure CursorPaging where
  collection : String
  id : Int64
  pending : Option (List Document)

namespace CursorPaging

/-- `CursorPaging(opening)` -/
def new [ToLong] (opening : Document) : Except Throwable CursorPaging :=
  match cursorOf opening with
  | .error e => .error e
  | .ok cursor =>
    match collectionOf cursor with
    | .error e => .error e
    | .ok collection =>
      match idOf cursor with
      | .error e => .error e
      | .ok id =>
        match batchOf cursor "firstBatch" with
        | .error e => .error e
        | .ok batch => .ok { collection, id, pending := some batch }

/-- `nextBatch` from the reply to its `getMore` on. -/
def fetched [ToLong] (reply : Document) (c : CursorPaging) : Except Throwable (List Document) × CursorPaging :=
  match cursorOf reply with
  | .error e => (.error e, c)
  | .ok cursor =>
    match idOf cursor with
    | .error e => (.error e, c)
    | .ok id => (batchOf cursor "nextBatch", { c with id := id })

/-- `CursorPaging.getMore` -/
def getMore (c : CursorPaging) : Document := [("getMore", .int64 c.id), ("collection", .string c.collection)]

end CursorPaging

def killCursors (collection : String) (abandoned : Int64) : Document :=
  [("killCursors", .string collection), ("cursors", .array [.int64 abandoned])]

/-! ## From one suspension point to the next -/

/-- Where the flow is. -/
inductive Stage where
  /-- The command that opens the cursor is under way. -/
  | opening
  /-- `emit(document)` is under way, `rest` of the batch is to come. -/
  | emitting (c : CursorPaging) (document : Document) (rest : List Document)
  | fetching (c : CursorPaging)
  /-- A `killCursors` is under way, after this failure if there was one. -/
  | killing (collection : String) (abandoned : Int64) (failure : Option Throwable)
  | done (outcome : Except Throwable Unit)

/-- What the flow ends with, after the failure of its loop and that of its `kill`. -/
def outcome : Option Throwable → Except Throwable Unit → Except Throwable Unit
  | none, answer => answer
  | some failure, .ok () => .error failure
  | some failure, .error killing => .error (failure.addSuppressed killing)

/-- `cursor.kill()` on the way out of the loop. -/
def kill (failure : Option Throwable) (c : CursorPaging) : Stage :=
  if c.id = 0 then .done (outcome failure (.ok ())) else .killing c.collection c.id failure

/-- `nextBatch` with nothing pending: the end of the loop, or a `getMore`. -/
def more (c : CursorPaging) : Stage := if c.id = 0 then kill none c else .fetching c

/-- A batch, and the loop after it: nothing is pending once a batch was taken. -/
def emitEach (c : CursorPaging) : List Document → Stage
  | [] => more c
  | document :: rest => .emitting c document rest

/-- The flow after the command that opens the cursor. -/
def opened [ToLong] : Except Throwable Document → Stage
  | .error e => .done (.error e)
  | .ok reply =>
    -- outside the `try`
    match CursorPaging.new reply with
    | .error e => .done (.error e)
    | .ok c =>
      match c.pending with
      | some batch => emitEach { c with pending := none } batch
      | none => more c

/-- The flow after a `getMore`. -/
def fetched [ToLong] (c : CursorPaging) : Except Throwable Document → Stage
  | .error e => kill (some e) c
  | .ok reply =>
    match c.fetched reply with
    | (.error e, c) => kill (some e) c
    | (.ok batch, c) => emitEach c batch

/-- The flow after `emit`. -/
def emitted (c : CursorPaging) (rest : List Document) : Except Throwable Unit → Stage
  | .error e => kill (some e) c
  | .ok () => emitEach c rest

/-- The flow after `killCursors`, whose failure is suppressed by that of the loop if there was one. -/
def killed (failure : Option Throwable) (answer : Except Throwable Document) : Stage :=
  .done (outcome failure (answer.map fun _ => ()))

/-! ## A collection of the flow -/

/-- A cursor of the engine's. -/
structure ServerCursor where
  collection : String
  id : Int64

/-- The cursor behind a reply that carries `id`. -/
def held (collection : String) (id : Int64) : Option ServerCursor := if id = 0 then none else some ⟨collection, id⟩

/-- The flow with its collector and the cursor on the engine. -/
structure Sys where
  stage : Stage
  /-- The collector's job is cancelled. -/
  cancelled : Bool
  /-- What the block of the current command has returned, until the flow is resumed. -/
  reply : Option (Except Throwable Document)
  /-- The cursor the engine has opened for the flow and not exhausted. -/
  server : Option ServerCursor
  /-- The batches of the replies so far. -/
  given : List (List Document)
  /-- The documents the collector was called with. -/
  emitted : List Document
  /-- The `killCursors` the engine was sent. -/
  kills : List Document
  /-- History: the id of a reply that was discarded, after the id the flow had by then. -/
  discarded : Option (Int64 × Int64)

def Sys.initial : Sys where
  stage := .opening
  cancelled := false
  reply := none
  server := none
  given := []
  emitted := []
  kills := []
  discarded := none

/-- What becomes known of a discarded reply: the id the flow had, the id it would have had. -/
def Sys.discard (s : Sys) (known id : Int64) : Option (Int64 × Int64) :=
  if s.cancelled = true then some (known, id) else s.discarded

/-- What the collector, the engine and the dispatcher do. -/
inductive Act where
  | cancel
  | refuse
  | run
  | resume
  | emit (answer : Except Throwable Unit)

/-- Their steps. A cancelled collector is not resumed with an answer. -/
inductive Step [ToLong] : Sys → Act → Sys → Prop where
  | cancel {s : Sys} : Step s .cancel { s with cancelled := true }
  -- `runCommand(database, command)`, outside the `try`
  | openRefused {s : Sys} (stage : s.stage = .opening) (reply : s.reply = none) (gone : s.cancelled = true) :
      Step s .refuse { s with stage := opened (.error Android.cancelled) }
  | openErr {s : Sys} {e : Throwable} (stage : s.stage = .opening) (reply : s.reply = none) :
      Step s .run { s with reply := some (.error e) }
  | openOk {s : Sys} {response : Document} {collection : String} {id : Int64} {batch : List Document}
      (stage : s.stage = .opening) (reply : s.reply = none)
      (reads : CursorPaging.new response = .ok ⟨collection, id, some batch⟩) :
      Step s .run
        { s with reply := some (.ok response), server := held collection id, given := s.given ++ [batch] }
  | openResumedErr {s : Sys} {e : Throwable} (stage : s.stage = .opening) (reply : s.reply = some (.error e)) :
      Step s .resume { s with stage := opened (handed s.cancelled (.error e)), reply := none }
  | openResumedOk {s : Sys} {response : Document} {c : CursorPaging} (stage : s.stage = .opening)
      (reply : s.reply = some (.ok response)) (reads : CursorPaging.new response = .ok c) :
      Step s .resume
        { s with
          stage := opened (handed s.cancelled (.ok response))
          reply := none
          discarded := s.discard 0 c.id }
  -- `emit(document)`
  | emitRefused {s : Sys} {c : CursorPaging} {document : Document} {rest : List Document}
      (stage : s.stage = .emitting c document rest) (gone : s.cancelled = true) :
      Step s .refuse { s with stage := CursorFlow.emitted c rest (.error Android.cancelled) }
  | emit {s : Sys} {c : CursorPaging} {document : Document} {rest : List Document} {answer : Except Throwable Unit}
      (stage : s.stage = .emitting c document rest) :
      Step s (.emit answer)
        { s with stage := CursorFlow.emitted c rest answer, emitted := s.emitted ++ [document] }
  -- the `getMore` of `nextBatch`
  | fetchRefused {s : Sys} {c : CursorPaging} (stage : s.stage = .fetching c) (reply : s.reply = none)
      (gone : s.cancelled = true) :
      Step s .refuse { s with stage := fetched c (.error Android.cancelled) }
  | fetchErr {s : Sys} {c : CursorPaging} {e : Throwable} {server : Option ServerCursor} (stage : s.stage = .fetching c)
      (reply : s.reply = none) (kept : server = s.server ∨ server = none) :
      Step s .run { s with reply := some (.error e), server := server }
  | fetchOk {s : Sys} {c : CursorPaging} {response : Document} {id : Int64} {batch : List Document}
      (stage : s.stage = .fetching c) (reply : s.reply = none)
      (reads : c.fetched response = (.ok batch, { c with id := id })) :
      Step s .run
        { s with reply := some (.ok response), server := held c.collection id, given := s.given ++ [batch] }
  | fetchResumedErr {s : Sys} {c : CursorPaging} {e : Throwable} (stage : s.stage = .fetching c)
      (reply : s.reply = some (.error e)) :
      Step s .resume { s with stage := fetched c (handed s.cancelled (.error e)), reply := none }
  | fetchResumedOk {s : Sys} {c : CursorPaging} {response : Document} (stage : s.stage = .fetching c)
      (reply : s.reply = some (.ok response)) :
      Step s .resume
        { s with
          stage := fetched c (handed s.cancelled (.ok response))
          reply := none
          discarded := s.discard c.id (c.fetched response).2.id }
  -- `cursor.kill()`, under `NonCancellable`
  | kill {s : Sys} {collection : String} {abandoned : Int64} {failure : Option Throwable} (answer : Except Throwable Document)
      (stage : s.stage = .killing collection abandoned failure) (reply : s.reply = none) :
      Step s .run { s with reply := some answer, kills := s.kills ++ [killCursors collection abandoned] }
  | killResumed {s : Sys} {collection : String} {abandoned : Int64} {failure : Option Throwable}
      {answer : Except Throwable Document} (stage : s.stage = .killing collection abandoned failure)
      (reply : s.reply = some answer) :
      Step s .resume { s with stage := killed failure answer, reply := none }

/-- A collection of `documentFlow`, against an engine whose replies are well formed or failures. -/
def documentFlow [ToLong] : System Sys Act where
  init s := s = .initial
  step := Step

end EmbeddedMongo.Android.CursorFlow
