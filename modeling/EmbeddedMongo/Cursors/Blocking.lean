import EmbeddedMongo.Cursors.Paging

/-!
# The blocking cursor

`Cursor` of `src/find.rs`. Its `next` is cut at `run_command`: `Cursor.next` runs the loop up to
there, `Cursor.fetched` from there on. A reader calls `next` until it answers `None` or until it has
what it wants, and drops the cursor.
-/

namespace EmbeddedMongo.Blocking

open Conc Cursors

/-- `Cursor`; the client it borrows is whoever runs its commands. -/
structure Cursor where
  database : String
  collection : String
  id : Int64
  documents : List Document
  finished : Bool

namespace Cursor

def fromResponse (database collection : String) (response : Document) (batchName : String) : Except Error Cursor :=
  match takeCursorBatch response batchName with
  | .ok (id, documents) => .ok { database, collection, id, documents, finished := false }
  | .error e => .error e

/-- How a pass of `next`'s loop leaves it: with an answer, or inside `run_command`. -/
inductive Pass (T : Type) where
  | returns (item : Option (Except Error T))
  | runs (database : String) (command : Document)

variable {T : Type} (decode : Document → Except Error T)

def next (c : Cursor) : Pass T × Cursor :=
  match c.documents with
  | document :: documents => (.returns (some (decode document)), { c with documents := documents })
  | [] =>
    if c.finished = true ∨ c.id = 0 then (.returns none, { c with finished := true })
    else (.runs c.database (getMoreCommand c.id c.collection), c)

/-- `fetch_next_batch` from the reply to its command on. -/
def fetchNextBatch (reply : Except Error Document) (c : Cursor) : Except Error Cursor :=
  match reply with
  | .error e => .error e
  | .ok response =>
    match takeCursorBatch response "nextBatch" with
    | .error e => .error e
    | .ok (id, documents) => .ok { c with id := id, documents := documents }

/-- `next` from the reply to its command on. -/
def fetched (reply : Except Error Document) (c : Cursor) : Pass T × Cursor :=
  match c.fetchNextBatch reply with
  | .error e => (.returns (some (.error e)), { c with finished := true })
  | .ok c => c.next decode

/-- The command `kill` runs, and the cursor it leaves. -/
def kill (c : Cursor) : Option Document × Cursor :=
  (if c.id = 0 then none else some (killCursorsCommand c.collection c.id), { c with id := 0 })

end Cursor

/-- A `Cursor<Document>` in the hands of its reader. What `bson::deserialize_from_document` makes of
a document is a parameter of what the reader does. -/
inductive Reader where
  | pass (pass : Cursor.Pass Document × Cursor)
  | dropping (c : Cursor)
  | dropped

namespace Reader

variable (deserialize : Document → Except Error Document)

/-- The reader calls `next`. -/
def next (c : Cursor) : Reader := .pass (c.next deserialize)

/-- `Drop for Cursor`, whatever becomes of its command. -/
def drop (c : Cursor) : Move Reader (String × Document) (Except Error Document) Document Error :=
  match c.kill with
  | (none, _) => .done
  | (some command, c) => .ask (c.database, command) fun _ => .dropped

def move : Reader → Move Reader (String × Document) (Except Error Document) Document Error
  | .pass (.returns (some item), c) => .give item (.next deserialize c) (.dropping c)
  | .pass (.returns none, c) => drop c
  | .pass (.runs database command, c) => .ask (database, command) fun reply => .pass (c.fetched deserialize reply)
  | .dropping c => drop c
  | .dropped => .done

end Reader

end EmbeddedMongo.Blocking

namespace EmbeddedMongo.Cursors

open Conc

/-- The crate reads a well-formed reply as what it says. -/
theorem Reply.takeCursorBatch_eq {ns : Namespace} {batchName : String} (reply : Reply ns batchName) (hname : batchName ≠ "id") :
    takeCursorBatch reply.response batchName = .ok (reply.id, reply.batch) := by
  have hcursor : Document.remove "cursor" reply.response =
      (some (.document reply.cursor), (Document.remove "cursor" reply.response).2) := Prod.ext reply.hasCursor rfl
  -- the batch is where it was after the id is taken out
  have hbatch : Document.remove batchName (Document.remove "id" reply.cursor).2 =
      (some (.array (reply.batch.map .document)), (Document.remove batchName (Document.remove "id" reply.cursor).2).2) :=
    Prod.ext ((Document.get_remove hname).trans reply.hasBatch) rfl
  have htake (id : Int64) :
      takeCursorBatch.takeBatch batchName id (Document.remove "id" reply.cursor).2 = .ok (id, reply.batch) := by
    rw [takeCursorBatch.takeBatch, hbatch]
    dsimp only
    rw [batchDocuments_documents]
  rcases reply.hasId with hid | ⟨short, hid, hshort⟩
  · have hremove : Document.remove "id" reply.cursor =
        (some (.int64 reply.id), (Document.remove "id" reply.cursor).2) := Prod.ext hid rfl
    rw [takeCursorBatch, hcursor]
    dsimp only
    rw [hremove]
    exact htake _
  · have hremove : Document.remove "id" reply.cursor =
        (some (.int32 short), (Document.remove "id" reply.cursor).2) := Prod.ext hid rfl
    rw [takeCursorBatch, hcursor]
    dsimp only
    rw [hremove, hshort]
    exact htake _

end EmbeddedMongo.Cursors

namespace EmbeddedMongo.Blocking

open Conc Cursors

variable {deserialize : Document → Except Error Document} {ns : Namespace} {F : Type} {failure : F → Error} {last : F}

/-- A cursor over the namespace with this much of a page in hand. -/
def Cursor.holding (ns : Namespace) (id : Int64) (documents : List Document) : Cursor where
  database := ns.database
  collection := ns.collection
  id := id
  documents := documents
  finished := false

theorem Reader.runs_drop {s : Reader} (c : Cursor) (h : s.move deserialize = drop c) (hdatabase : c.database = ns.database)
    (hcollection : c.collection = ns.collection) (answers : Answers ns F) (want : Option Nat) :
    Runs (Reader.move deserialize) (serve failure last) s answers want ⟨(Cursors.kill c.id).map (Ask.command ns), []⟩ := by
  apply runs_kill
  · intro hid
    apply Runs.done
    simp [h, drop, Cursor.kill, hid]
  · intro hid
    refine ⟨fun _ => .dropped, ?_, .done rfl⟩
    simp [h, drop, Cursor.kill, hid, hdatabase, hcollection, Ask.command]

/-- The blocking cursor pages through documents that are decoded as they are. -/
theorem Reader.pager (deserialize : Document → Except Error Document) (ns : Namespace) (failure : F → Error) (last : F) :
    Pager ns failure last (Reader.move deserialize) (fun id batch => .next deserialize (.holding ns id batch))
      (fun document => deserialize document = .ok document) where
  item answers id document batch hdocument := by
    refine ⟨.dropping (.holding ns id batch), ?_, runs_drop (.holding ns id batch) rfl rfl rfl _ _⟩
    show Move.give (deserialize document) _ _ = _
    rw [hdocument]
    rfl
  ended answers want := .done rfl
  fetch id hid := by
    have hnext : (Cursor.holding ns id []).next deserialize =
        (.runs ns.database (getMoreCommand id ns.collection), .holding ns id []) := by
      simp [Cursor.next, Cursor.holding, hid]
    refine ⟨fun reply => .pass ((Cursor.holding ns id []).fetched deserialize reply), ?_, ?_, ?_⟩
    · simp only [Reader.next, hnext, Reader.move, Ask.command]
    · intro reply
      simp only [Cursor.fetched, Cursor.fetchNextBatch, reply.takeCursorBatch_eq (by decide), Reader.next, Cursor.holding]
    · intro answers want f
      refine .fail rfl ?_
      exact runs_drop { Cursor.holding ns id [] with finished := true } rfl rfl rfl answers want

end EmbeddedMongo.Blocking
