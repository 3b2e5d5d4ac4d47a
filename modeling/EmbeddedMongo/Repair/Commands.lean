import EmbeddedMongo.Find
import EmbeddedMongo.Repair.Marker

/-!
# The commands of the pass

`src/repair/commands.rs`. `deserialize` is `bson::deserialize_from_document::<Document>`, which
the cursor puts between a batch and its caller. The engine may keep a cursor open for ever:
`patience` is how many pages of one cursor are read before a run is cut short, and any finite
part of a run is part of one with patience enough. `none` is the answer of a run cut short.
-/

namespace EmbeddedMongo.Repair

open Conc Dialogue

/-- One collection the repair pass works on. -/
structure Namespace where
  database : String
  collection : String
  deriving DecidableEq, Repr

instance : ToString Namespace := ⟨fun namespace_ => s!"{namespace_.database}.{namespace_.collection}"⟩

/-- What `validate` is to do. -/
inductive Mode where
  | check
  | repair
  deriving DecidableEq, Repr

/-- `getMore` on a `listCollections` cursor names this instead of a collection. -/
def LIST_COLLECTIONS : String := "$cmd.listCollections"

/-- The one `listCollections` type that is not a collection. -/
def VIEW : String := "view"

/-- `{ validate: collection }`, with `repair: true` in the mode that repairs. -/
def validateCommand (collection : String) (mode : Mode) : Document :=
  match mode with
  | .check => [("validate", .string collection)]
  | .repair => [("validate", .string collection), ("repair", .boolean true)]

/-- The command on its database, with the engine's reply. -/
def validate (ns : Namespace) (mode : Mode) : Program (Except Error Document) :=
  .ask (.command ns.database (validateCommand ns.collection mode)) .ret

/-- `{ listDatabases: 1, nameOnly: true }` -/
def listDatabasesCommand : Document := [("listDatabases", .int32 1), ("nameOnly", .boolean true)]

/-- `{ listCollections: 1, nameOnly: true }` -/
def listCollectionsCommand : Document := [("listCollections", .int32 1), ("nameOnly", .boolean true)]

/-- A view holds nothing of its own. -/
def isCollection (entry : Document) : Bool := !(Document.getStr "type" entry == some VIEW)

/-- What the directory holds, as far as the engine will say. -/
structure Catalog where
  databases : Nat
  namespaces : List Namespace

/-- Dropping the cursor kills it, unless the engine has closed it; the reply is ignored. -/
def dropCursor {α : Type} (database : String) (id : Int64) (rest : Program α) : Program α :=
  if id = 0 then rest else .ask (.command database (killCursorsCommand LIST_COLLECTIONS id)) fun _ => rest

section

variable (deserialize : Document → Except Error Document)

/-- The body of the loop in `collections`, over the documents the cursor has at hand. -/
def push (database : String) : List Document → List Namespace → Except Error (List Namespace)
  | [], namespaces => .ok namespaces
  | document :: documents, namespaces =>
    match deserialize document with
    | .error e => .error e
    | .ok entry =>
      if isCollection entry = false then push database documents namespaces
      else
        match Document.getStr "name" entry with
        | none => .error (.invalidResponse "listCollections response has an entry without a name")
        | some name => push database documents (namespaces ++ [⟨database, name⟩])

/-- The rest of that loop: page after page, until the engine has closed the cursor. -/
def pages (database : String) : Nat → Int64 → List Document → List Namespace →
    Program (Option (Except Error (List Namespace)))
  | patience, id, documents, namespaces =>
    match push deserialize database documents namespaces with
    | .error e => dropCursor database id (.ret (some (.error e)))
    | .ok namespaces =>
      if id = 0 then .ret (some (.ok namespaces))
      else
        match patience with
        | 0 => .ret none
        | patience + 1 => .ask (.command database (getMoreCommand id LIST_COLLECTIONS)) fun
          | .error e => dropCursor database id (.ret (some (.error e)))
          | .ok reply =>
            match takeCursorBatch reply "nextBatch" with
            | .error e => dropCursor database id (.ret (some (.error e)))
            | .ok (id, documents) => pages database patience id documents namespaces

variable (patience : Nat)

/-- The collections of one database, page by page to the end of its cursor. -/
def collections (database : String) : Program (Option (Except Error (List Namespace))) :=
  .ask (.command database listCollectionsCommand) fun
    | .error e => .ret (some (.error e))
    | .ok reply =>
      match takeCursorBatch reply "firstBatch" with
      | .error e => .ret (some (.error e))
      | .ok (id, documents) => pages deserialize database patience id documents []

def databaseName (entry : Bson) : Option String := entry.asDocument.bind (Document.getStr "name")

/-- The loop of `namespaces`. -/
def extend : List Bson → List Namespace → Program (Option (Except Error (List Namespace)))
  | [], namespaces => .ret (some (.ok namespaces))
  | entry :: databases, namespaces =>
    match databaseName entry with
    | none => .ret (some (.error (.invalidResponse "listDatabases response has an entry without a name")))
    | some name => (collections deserialize patience name).bind fun
      | none => .ret none
      | some (.error e) => .ret (some (.error e))
      | some (.ok found) => extend databases (namespaces ++ found)

/-- All databases' collections, and how many databases there were. -/
def namespaces : Program (Option (Except Error Catalog)) :=
  .ask (.command "admin" listDatabasesCommand) fun
    | .error e => .ret (some (.error e))
    | .ok reply =>
      match Document.get "databases" reply with
      | some (.array databases) => (extend deserialize patience databases []).map fun
        | none => none
        | some (.error e) => some (.error e)
        | some (.ok found) => some (.ok ⟨databases.length, found⟩)
      | _ => .ret (some (.error (.invalidResponse "listDatabases response has no databases array")))

end

end EmbeddedMongo.Repair
