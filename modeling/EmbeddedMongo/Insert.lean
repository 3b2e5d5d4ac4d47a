import EmbeddedMongo.Conc.Dialogue
import EmbeddedMongo.Response

/-!
# Inserts

`src/insert.rs`. The blocking and the async collection build the same command and read its reply
alike, so `insertOne` and `insertMany` are those of both. What `bson::serialize_to_document` makes
of a value is a parameter, and so are the ids `ObjectId::new` hands a call one after another.
-/

namespace EmbeddedMongo

open Conc

/-- `Bson::ObjectId`. -/
def Bson.objectId (bytes : List UInt8) : Bson := .other 0x07 bytes

/-- A program that runs commands and sees the engine's replies as they are. -/
abbrev Talk (α : Type) := Dialogue Document (fun _ => Except Error Document) α

namespace Insert

/-- `Client::run_command`, as far as its reply goes. -/
def runCommand (command : Document) : Talk (Except Error Document) :=
  .ask command fun reply => .ret (reply.bind validateResponse)

structure InsertOneResult where
  insertedId : Bson

/-- The keys of the map are the positions, each inserted once. -/
structure InsertManyResult where
  insertedIds : List (Nat × Bson)

/-- `insert_command` -/
def insertCommand (collection : String) (documents : List Bson) : Document :=
  [("insert", .string collection), ("documents", .array documents)]

/-- The id, the document with it, and how many ids of its own the call has used then. -/
def ensureId (newId : Nat → List UInt8) (used : Nat) (document : Document) : Bson × Document × Nat :=
  match Document.get "_id" document with
  | some id => (id, document, used)
  | none => (.objectId (newId used), document.insert "_id" (.objectId (newId used)), used + 1)

section Serialized

variable {T : Type} (serialize : T → Except Error Document) (newId : Nat → List UInt8)

/-- The loop of `serialize_many`. -/
def serializeEach : List T → Nat → Nat → List Bson → List (Nat × Bson) → Except Error (List Bson × List (Nat × Bson))
  | [], _, _, serialized, insertedIds => .ok (serialized, insertedIds)
  | value :: documents, index, used, serialized, insertedIds =>
    match serialize value with
    | .error e => .error e
    | .ok document =>
      let (id, document, used) := ensureId newId used document
      serializeEach documents (index + 1) used (serialized ++ [.document document]) (insertedIds ++ [(index, id)])

/-- `serialize_many` -/
def serializeMany (documents : List T) : Except Error (List Bson × List (Nat × Bson)) :=
  match serializeEach serialize newId documents 0 0 [] [] with
  | .error e => .error e
  | .ok (serialized, insertedIds) =>
    if serialized.isEmpty then .error (.invalidArgument "insert_many requires at least one document")
    else .ok (serialized, insertedIds)

/-- `usize::try_from` of an integer, on a machine of 64 bits. -/
def toUsize (value : Int) : Option Nat := if 0 ≤ value then some value.toNat else none

/-- The `n` of a reply, if it is an integer that a `usize` holds. -/
def insertedCount (response : Document) : Option Nat :=
  match Document.get "n" response with
  | some (.int32 value) => toUsize value.toInt
  | some (.int64 value) => toUsize value.toInt
  | _ => none

/-- `expect_inserted_count` -/
def expectInsertedCount (response : Document) (expected : Nat) : Except Error Unit :=
  match insertedCount response with
  | none => .error (.invalidResponse "insert response has no valid n field")
  | some actual =>
    if actual ≠ expected then .error (.invalidResponse s!"inserted {actual} documents, expected {expected}") else .ok ()

/-- What becomes of the answer to an insert of so many documents. -/
def counted {R : Type} (expected : Nat) (result : R) (response : Except Error Document) : Except Error R :=
  match response with
  | .error e => .error e
  | .ok response => (expectInsertedCount response expected).map fun _ => result

/-- `Collection::insert_one` -/
def insertOne (collection : String) (value : T) : Talk (Except Error InsertOneResult) :=
  match serialize value with
  | .error e => .ret (.error e)
  | .ok document =>
    let (insertedId, document, _) := ensureId newId 0 document
    (runCommand (insertCommand collection [.document document])).map (counted 1 ⟨insertedId⟩)

/-- `Collection::insert_many` -/
def insertMany (collection : String) (documents : List T) : Talk (Except Error InsertManyResult) :=
  match serializeMany serialize newId documents with
  | .error e => .ret (.error e)
  | .ok (serialized, insertedIds) =>
    (runCommand (insertCommand collection serialized)).map (counted serialized.length ⟨insertedIds⟩)

end Serialized

/-! ## The documents that are sent -/

/-- A document as it is sent under an id: the caller's own, or the caller's with an `ObjectId` at
the end. -/
inductive Identified (given : Document) : Bson → Document → Prop where
  | named {id : Bson} (own : Document.get "_id" given = some id) : Identified given id given
  | added (none : Document.get "_id" given = none) (bytes : List UInt8) :
      Identified given (.objectId bytes) (given ++ [("_id", .objectId bytes)])

theorem insert_id (bytes : List UInt8) {given : Document} (hnone : Document.get "_id" given = none) :
    given.insert "_id" (.objectId bytes) = given ++ [("_id", .objectId bytes)] :=
  Document.insert_of_notMem (Document.get_eq_none_iff.1 hnone)

/-- A document is found under the id it was sent with. -/
theorem Identified.get {given sent : Document} {id : Bson} (h : Identified given id sent) :
    Document.get "_id" sent = some id := by
  cases h with
  | named own => exact own
  | added hnone bytes => rw [← insert_id bytes hnone, Document.get_insert, if_pos rfl]

/-- `ensure_id` keeps an id that is there, and adds one otherwise. -/
theorem ensureId_identified (newId : Nat → List UInt8) (used : Nat) (given : Document) :
    Identified given (ensureId newId used given).1 (ensureId newId used given).2.1 := by
  unfold ensureId
  cases hid : Document.get "_id" given with
  | some id => exact .named hid
  | none =>
    dsimp only
    rw [insert_id _ hid]
    exact .added hid _

/-- The documents as they are sent, each behind its id, once so many ids have been used. -/
def withIds (newId : Nat → List UInt8) : Nat → List Document → List (Bson × Document)
  | _, [] => []
  | used, document :: documents =>
    let (id, stored, used) := ensureId newId used document
    (id, stored) :: withIds newId used documents

/-- It does so for every document of a list. -/
theorem withIds_identified (newId : Nat → List UInt8) (used : Nat) (given : List Document) :
    List.Forall₂ (fun document sent => Identified document sent.1 sent.2) given (withIds newId used given) := by
  induction given generalizing used with
  | nil => exact .nil
  | cons document given ih => exact .cons (ensureId_identified newId used document) (ih _)

@[simp] theorem length_withIds (newId : Nat → List UInt8) (used : Nat) (given : List Document) :
    (withIds newId used given).length = given.length := (withIds_identified newId used given).length_eq.symm

/-- The ids by position, from this one on. -/
def byPosition (sent : List (Bson × Document)) (first : Nat) : List (Nat × Bson) :=
  (sent.zipIdx first).map fun (sent, index) => (index, sent.1)

/-! ## Conversions of a list -/

/-- A list is converted value by value. -/
theorem mapM_eq_ok_iff {T E D : Type} {convert : T → Except E D} {values : List T} {given : List D} :
    values.mapM convert = .ok given ↔ List.Forall₂ (fun value document => convert value = .ok document) values given := by
  induction values generalizing given with
  | nil =>
    rw [List.mapM_nil, List.forall₂_nil_left_iff]
    exact ⟨fun h => (Except.ok.inj h).symm, fun h => h ▸ rfl⟩
  | cons value values ih =>
    rw [List.mapM_cons, List.forall₂_cons_left_iff]
    cases hvalue : convert value with
    | error e => simp [bind, Except.bind]
    | ok document =>
      cases hrest : values.mapM convert with
      | error e => simp [bind, Except.bind, ← ih, hrest]
      | ok rest => simp [bind, Except.bind, pure, Except.pure, ← ih, hrest, eq_comm]

/-- It fails as the first value does that cannot be converted. -/
theorem mapM_cons_eq_error_iff {T E D : Type} {convert : T → Except E D} {value : T} {values : List T} {e : E} :
    (value :: values).mapM convert = .error e ↔
      convert value = .error e ∨ ∃ document, convert value = .ok document ∧ values.mapM convert = .error e := by
  rw [List.mapM_cons]
  cases hvalue : convert value with
  | error e' => simp [bind, Except.bind]
  | ok document => cases hrest : values.mapM convert <;> simp [bind, Except.bind, pure, Except.pure]

section Serialized

variable {T : Type} {serialize : T → Except Error Document} {newId : Nat → List UInt8}

/-- The loop fails as its first failing conversion does. -/
theorem serializeEach_error {documents : List T} {e : Error} (h : documents.mapM serialize = .error e)
    (index used : Nat) (serialized : List Bson) (insertedIds : List (Nat × Bson)) :
    serializeEach serialize newId documents index used serialized insertedIds = .error e := by
  induction documents generalizing index used serialized insertedIds with
  | nil => cases h
  | cons value documents ih =>
    rw [serializeEach]
    obtain hvalue | ⟨document, hvalue, hrest⟩ := mapM_cons_eq_error_iff.1 h
    · rw [hvalue]
    · rw [hvalue]
      exact ih hrest _ _ _ _

/-- When none fails every document is sent, under the id that is reported. -/
theorem serializeEach_ok {documents : List T} {given : List Document} (h : documents.mapM serialize = .ok given)
    (index used : Nat) (serialized : List Bson) (insertedIds : List (Nat × Bson)) :
    serializeEach serialize newId documents index used serialized insertedIds =
      .ok (serialized ++ (withIds newId used given).map (fun sent => .document sent.2),
        insertedIds ++ byPosition (withIds newId used given) index) := by
  rw [mapM_eq_ok_iff] at h
  induction h generalizing index used serialized insertedIds with
  | nil => simp [serializeEach, withIds, byPosition]
  | cons hvalue _ ih =>
    rw [serializeEach, hvalue]
    dsimp only
    rw [ih]
    simp [withIds, byPosition]

/-! ## What is said to the engine -/

/-- A value that cannot be serialised keeps the whole list back. -/
theorem insertMany_error {documents : List T} {e : Error} (h : documents.mapM serialize = .error e) (collection : String) :
    insertMany serialize newId collection documents = .ret (.error e) := by
  rw [insertMany, serializeMany, serializeEach_error h]

theorem insertMany_nil (collection : String) :
    insertMany serialize newId collection [] =
      .ret (.error (.invalidArgument "insert_many requires at least one document")) := rfl

/-- Otherwise one command goes out, and its reply is counted. -/
theorem insertMany_ok {documents : List T} {given : List Document} (h : documents.mapM serialize = .ok given)
    (hsome : given ≠ []) (collection : String) :
    insertMany serialize newId collection documents =
      .ask (insertCommand collection ((withIds newId 0 given).map fun sent => .document sent.2)) fun reply =>
        .ret (counted given.length ⟨byPosition (withIds newId 0 given) 0⟩ (reply.bind validateResponse)) := by
  have hlength : ((withIds newId 0 given).map fun sent => Bson.document sent.2).length = given.length := by simp
  have hmany : serializeMany serialize newId documents =
      .ok ((withIds newId 0 given).map (fun sent => .document sent.2), byPosition (withIds newId 0 given) 0) := by
    rw [serializeMany, serializeEach_ok h]
    have hsent : withIds newId 0 given ≠ [] := by
      rw [← List.length_pos_iff, length_withIds]
      exact List.length_pos_iff.2 hsome
    simp [hsent]
  rw [insertMany, hmany]
  dsimp only
  rw [hlength]
  rfl

theorem counted_map {R S : Type} (expected : Nat) (result : R) (f : R → S) (response : Except Error Document) :
    (counted expected result response).map f = counted expected (f result) response := by
  cases response with
  | error e => rfl
  | ok response =>
    show ((expectInsertedCount response expected).map _).map f = (expectInsertedCount response expected).map _
    cases expectInsertedCount response expected <;> rfl

/-- Inserting one document is inserting many, of which there is one. -/
theorem insertOne_eq (collection : String) (value : T) :
    (insertOne serialize newId collection value).map (·.map fun r => [(0, r.insertedId)]) =
      (insertMany serialize newId collection [value]).map (·.map InsertManyResult.insertedIds) := by
  cases hvalue : serialize value with
  | error e =>
    have hmany : [value].mapM serialize = .error e := mapM_cons_eq_error_iff.2 (.inl hvalue)
    rw [insertMany_error hmany, insertOne, hvalue]
    rfl
  | ok document =>
    have hmany : [value].mapM serialize = .ok [document] := mapM_eq_ok_iff.2 (.cons hvalue .nil)
    rw [insertMany_ok hmany (by simp), insertOne, hvalue]
    apply Dialogue.ask_congr
    intro reply
    show Dialogue.ret ((counted 1 _ (reply.bind validateResponse)).map _) =
      .ret ((counted 1 _ (reply.bind validateResponse)).map _)
    rw [counted_map, counted_map]
    rfl

end Serialized

/-! ## What is made of the reply -/

/-- A response that is accepted is handed on as it is. -/
theorem validateResponse_eq {reply response : Document} (h : validateResponse reply = .ok response) : response = reply := by
  unfold validateResponse at h
  split at h
  · cases h
  · split at h
    · cases h
    · cases h
      rfl

/-- An insert succeeds when its response is accepted and counts as many documents as were sent. -/
theorem counted_ok_iff {R : Type} {expected : Nat} {result r : R} {reply : Document} :
    counted expected result (validateResponse reply) = .ok r ↔
      r = result ∧ (∃ response, validateResponse reply = .ok response) ∧ insertedCount reply = some expected := by
  unfold counted
  cases hreply : validateResponse reply with
  | error e => simp
  | ok response =>
    obtain rfl := validateResponse_eq hreply
    dsimp only
    unfold expectInsertedCount
    cases insertedCount response with
    | none => simp [Except.map]
    | some actual =>
      dsimp only
      split
      · rename_i hne
        simp [Except.map, hne]
      · rename_i heq
        obtain rfl := not_not.1 heq
        simp [Except.map, eq_comm]

end Insert

end EmbeddedMongo
