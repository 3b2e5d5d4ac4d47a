import EmbeddedMongo.Bson
import EmbeddedMongo.Error

/-!
# The commands and replies of a cursor

`src/find.rs`, as far as the blocking and the async cursor share it.
-/

namespace EmbeddedMongo

/-- `{ getMore: id, collection: collection }` -/
def getMoreCommand (id : Int64) (collection : String) : Document :=
  [("getMore", .int64 id), ("collection", .string collection)]

/-- `{ killCursors: collection, cursors: [id] }` -/
def killCursorsCommand (collection : String) (id : Int64) : Document :=
  [("killCursors", .string collection), ("cursors", .array [.int64 id])]

/-- The documents of a batch, up to the first value that is not one. -/
def batchDocuments (batchName : String) : List Bson → Except Error (List Document)
  | [] => .ok []
  | .document document :: batch =>
    match batchDocuments batchName batch with
    | .ok documents => .ok (document :: documents)
    | .error e => .error e
  | _ :: _ => .error (.invalidResponse s!"cursor {batchName} contains a non-document value")

/-- The id and the batch of a cursor's reply. -/
def takeCursorBatch (response : Document) (batchName : String) : Except Error (Int64 × List Document) :=
  match Document.remove "cursor" response with
  | (some (.document cursor), _) =>
    match Document.remove "id" cursor with
    | (some (.int64 id), cursor) => takeBatch id cursor
    | (some (.int32 id), cursor) => takeBatch id.toInt64 cursor
    | _ => .error (.invalidResponse "cursor response has no valid id")
  | _ => .error (.invalidResponse "command response has no cursor document")
where
  takeBatch (id : Int64) (cursor : Document) : Except Error (Int64 × List Document) :=
    match Document.remove batchName cursor with
    | (some (.array batch), _) =>
      match batchDocuments batchName batch with
      | .ok documents => .ok (id, documents)
      | .error e => .error e
    | _ => .error (.invalidResponse s!"cursor response has no {batchName} array")

/-- The reply of a cursor that is well formed. -/
def cursorReply (batchName : String) (id : Int64) (batch : List Document) : Document :=
  [("cursor", .document [("id", .int64 id), (batchName, .array (batch.map .document))])]

theorem batchDocuments_documents (batchName : String) (batch : List Document) :
    batchDocuments batchName (batch.map .document) = .ok batch := by
  induction batch with
  | nil => rfl
  | cons document batch ih => simp only [List.map_cons, batchDocuments, ih]

/-- A well-formed reply is read as what it says. -/
theorem takeCursorBatch_cursorReply (batchName : String) (id : Int64) (batch : List Document) :
    takeCursorBatch (cursorReply batchName id batch) batchName = .ok (id, batch) := by
  simp [takeCursorBatch, takeCursorBatch.takeBatch, cursorReply, Document.remove, List.lookup,
    batchDocuments_documents]

end EmbeddedMongo
