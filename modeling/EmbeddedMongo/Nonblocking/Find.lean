import EmbeddedMongo.Conc.System
import EmbeddedMongo.Find
import EmbeddedMongo.Pool.Slot

/-!
# The async cursor, and what becomes of its reads

`src/nonblocking/find.rs` over `Engine::run_cancellable`. `Cursor::next` is cut at its one
await: `Cursor.next` runs its loop up to there, `Cursor.fetched` from there on.

The step system is one cursor against the engine. The server's side is the batches it has left,
or nothing once it is exhausted or destroyed. A `getMore` is a job with the slot its future may
cancel; a future that is dropped leaves its job behind, and the next call may queue another
while the worker is still at it.
-/

namespace EmbeddedMongo.Nonblocking.Find

open Conc Pool

variable {T : Type}

/-- `Cursor`; the engine handle is the system below. -/
structure Cursor where
  database : String
  collection : String
  id : Int64
  documents : List Document
  finished : Bool

/-- How `next`'s loop leaves the task: with an answer, or awaiting a command. -/
inductive Next (T : Type) where
  | answer (answer : Option (Except Error T))
  | fetch (database : String) (command : Document)

namespace Cursor

def fromResponse (database collection : String) (response : Document) (batchName : String) : Except Error Cursor :=
  match takeCursorBatch response batchName with
  | .ok (id, documents) => .ok { database, collection, id, documents, finished := false }
  | .error e => .error e

/-- The loop of `next` up to an answer or the await. `decode` is `bson::deserialize_from_document`
into the cursor's document type. -/
def next (decode : Document → Except Error T) (c : Cursor) : Next T × Cursor :=
  match c.documents with
  | document :: documents => (.answer (some (decode document)), { c with documents := documents })
  | [] =>
    if c.finished = true ∨ c.id = 0 then (.answer none, { c with finished := true })
    else (.fetch c.database (getMoreCommand c.id c.collection), c)

/-- An error out of `fetch_next_batch`. -/
def failed (e : Error) (c : Cursor) : Next T × Cursor := (.answer (some (.error e)), { c with finished := true })

/-- `next` from the await on, with what the engine replied. -/
def fetched (decode : Document → Except Error T) (reply : Except Error Document) (c : Cursor) : Next T × Cursor :=
  match reply with
  | .error e => c.failed e
  | .ok response =>
    match takeCursorBatch response "nextBatch" with
    | .error e => c.failed e
    | .ok (id, documents) => { c with id := id, documents := documents }.next decode

end Cursor

/-- How far a worker is with a `getMore`. -/
inductive Stage where
  | queued
  | running
  /-- The command has ended; the reply is still to be sent. -/
  | replied (reply : Except Error Document)
  | sent (reply : Except Error Document)
  | over

structure Job where
  database : String
  command : Document
  slot : Slot Unit
  stage : Stage

def Job.new (database : String) (command : Document) : Job := { database, command, slot := .waiting, stage := .queued }

/-- `CommandSlot::start`, and what `SessionPool::run` does about its answer. -/
def Job.start (job : Job) : Job :=
  match job.slot.start () with
  | (true, slot) => { job with slot := slot, stage := .running }
  | (false, slot) => { job with slot := slot, stage := .over }

/-- The command ends with `reply`, and the slot is disarmed. -/
def Job.reply (reply : Except Error Document) (job : Job) : Job :=
  { job with slot := job.slot.finish, stage := .replied reply }

structure Sys (T : Type) where
  /-- The batches the server's cursor has left, if there still is one. -/
  remaining : Option (List (List Document))
  cursor : Cursor
  /-- The job whose reply the current call of `next` awaits. -/
  awaiting : Option Nat
  jobs : List Job
  /-- What the calls of `next` that completed have answered. -/
  answers : List (Option (Except Error T))

/-- What a server's cursor is once `batches` are left of it. -/
def left (batches : List (List Document)) : Option (List (List Document)) :=
  if batches = [] then none else some batches

/-- The id a reply carries once `batches` are left. -/
def idOf (server : Int64) (batches : List (List Document)) : Int64 :=
  if batches = [] then 0 else server

/-- The current call answers, or awaits a new job; a job the worker pool refuses fails it. -/
def Sys.turn (accepted : Bool) (s : Sys T) : Next T × Cursor → Sys T
  | (.answer answer, cursor) => { s with cursor, awaiting := none, answers := s.answers ++ [answer] }
  | (.fetch database command, cursor) =>
    if accepted = true then
      { s with cursor, awaiting := some s.jobs.length, jobs := s.jobs ++ [.new database command] }
    else
      { s with
        cursor := { cursor with finished := true }
        awaiting := none
        answers := s.answers ++ [some (.error .closed)] }

/-- A reply out of which `fetch_next_batch` makes an error. -/
def Refused (reply : Except Error Document) : Prop :=
  ∀ response, reply = .ok response → ∃ e, takeCursorBatch response "nextBatch" = .error e

/-- Who moves, and how. -/
inductive Act where
  | next (accepted : Bool)
  | receive (accepted : Bool)
  | drop
  | start (job : Nat)
  | complete (job : Nat)
  | interrupt (job : Nat)
  | fail (job : Nat)
  | send (job : Nat)

/-- The atomic steps of a cursor the server knows by the id `server`. -/
inductive Step (server : Int64) (decode : Document → Except Error T) : Sys T → Act → Sys T → Prop where
  -- the task: `next` borrows the cursor, so there is one call at a time
  | next {s : Sys T} (accepted : Bool) (idle : s.awaiting = none) :
      Step server decode s (.next accepted) (s.turn accepted (s.cursor.next decode))
  | receive {s : Sys T} {j : Nat} {job : Job} {reply : Except Error Document} (accepted : Bool)
      (awaiting : s.awaiting = some j) (hj : s.jobs[j]? = some job) (stage : job.stage = .sent reply) :
      Step server decode s (.receive accepted)
        (Sys.turn accepted { s with jobs := s.jobs.set j { job with slot := job.slot.cancel.2, stage := .over } }
          (s.cursor.fetched decode reply))
  | drop {s : Sys T} {j : Nat} {job : Job} (awaiting : s.awaiting = some j) (hj : s.jobs[j]? = some job) :
      Step server decode s .drop
        { s with awaiting := none, jobs := s.jobs.set j { job with slot := job.slot.cancel.2 } }
  -- the worker
  | start {s : Sys T} {j : Nat} {job : Job} (hj : s.jobs[j]? = some job) (stage : job.stage = .queued) :
      Step server decode s (.start j) { s with jobs := s.jobs.set j job.start }
  | complete {s : Sys T} {j : Nat} {job : Job} {batch : List Document} {batches : List (List Document)}
      {response : Document} (hj : s.jobs[j]? = some job) (stage : job.stage = .running)
      (named : Document.get "getMore" job.command = some (.int64 server))
      (remaining : s.remaining = some (batch :: batches))
      (reads : takeCursorBatch response "nextBatch" = .ok (idOf server batches, batch)) :
      Step server decode s (.complete j)
        { s with remaining := left batches, jobs := s.jobs.set j (job.reply (.ok response)) }
  -- a kill that lands destroys the cursor with the operation, and the reply goes to nobody
  | interrupt {s : Sys T} {j : Nat} {job : Job} (hj : s.jobs[j]? = some job) (stage : job.stage = .running)
      (cancelled : job.slot = .cancelled) :
      Step server decode s (.interrupt j) { s with remaining := none, jobs := s.jobs.set j { job with stage := .over } }
  -- any other failure, before or after the command reached the server's cursor
  | fail {s : Sys T} {j : Nat} {job : Job} {reply : Except Error Document} {remaining : Option (List (List Document))}
      (hj : s.jobs[j]? = some job) (stage : job.stage = .queued ∨ job.stage = .running) (refused : Refused reply)
      (kept : remaining = s.remaining ∨ remaining = none) :
      Step server decode s (.fail j) { s with remaining := remaining, jobs := s.jobs.set j (job.reply reply) }
  | send {s : Sys T} {j : Nat} {job : Job} {reply : Except Error Document} (hj : s.jobs[j]? = some job)
      (stage : job.stage = .replied reply) :
      Step server decode s (.send j) { s with jobs := s.jobs.set j { job with stage := .sent reply } }

/-- A cursor made of the reply to a `find`, whose batches are to be `batches`. -/
structure Opened (server : Int64) (batches : List (List Document)) (s : Sys T) : Prop where
  cursor : ∃ database collection response first rest, batches = first :: rest ∧
    takeCursorBatch response "firstBatch" = .ok (idOf server rest, first) ∧
    Cursor.fromResponse database collection response "firstBatch" = .ok s.cursor ∧ s.remaining = left rest
  awaiting : s.awaiting = none
  jobs : s.jobs = []
  answers : s.answers = []

def reader (server : Int64) (batches : List (List Document)) (decode : Document → Except Error T) :
    System (Sys T) Act where
  init := Opened server batches
  step := Step server decode

end EmbeddedMongo.Nonblocking.Find
