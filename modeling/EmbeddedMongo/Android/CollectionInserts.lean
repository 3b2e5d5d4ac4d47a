import EmbeddedMongo.Android.CommandReply
import EmbeddedMongo.Android.CursorFlow
import EmbeddedMongo.Android.Durability
import EmbeddedMongo.Insert

/-!
# Inserts from Kotlin

`CollectionInserts.kt` and the readers of numbers in `Bsons.kt`, beside the crate's inserts. The two
send the same documents under the same ids, Kotlin's journalled and with its own `ordered`. They
differ in what they take for a success: whatever the crate does Kotlin does, and Kotlin besides the
replies it overlooks and a count that is not an integer.

`toDocument` is a parameter, as are the ids of the `ObjectId`s a call makes one after another and the
exception that a failure of the engine arrives as.
-/

namespace EmbeddedMongo.Android.CollectionInserts

open Conc

/-- `InsertOneResult` -/
structure InsertOneResult where
  insertedId : Option Bson

/-- `InsertManyResult`: the keys of the map are the positions. -/
structure InsertManyResult where
  insertedIds : List (Nat × Option Bson)

/-- `Document.longOrNull` -/
def longOrNull [ToLong] (document : Document) (field : String) : Option Int64 :=
  (Document.get field document).bind toLong

/-- `Document.requiredLong` -/
def requiredLong [ToLong] (document : Document) (field : String) : Except Throwable Int64 :=
  match longOrNull document field with
  | some value => .ok value
  | none =>
    .error (CursorFlow.exception ("the reply carries no numeric `" ++ field ++ "` (fields: " ++
      ", ".intercalate (Document.keys document) ++ ")"))

/-- What the database makes of the engine's answer. -/
def answered [Decimal128] (thrown : Error → Throwable) : Except Error Document → Except Throwable Document
  | .error e => .error (thrown e)
  | .ok reply => checkedReply reply

/-- `CommandRunner.runCommand` of the database, as far as the command and its reply go. -/
def runCommand [Decimal128] (thrown : Error → Throwable) (command : Document) : Talk (Except Throwable Document) :=
  .ask (durable command) fun reply => .ret (answered thrown reply)

/-- `withId`, and how many ids of its own the call has used then. -/
def withId (newId : Nat → List UInt8) (used : Nat) (document : Document) : Document × Nat :=
  if (Document.keys document).contains "_id" then (document, used)
  else (document.insert "_id" (.objectId (newId used)), used + 1)

def insertCommand (name : String) (documents : List Document) (ordered : Bool) : Document :=
  [("insert", .string name), ("documents", .array (documents.map .document)), ("ordered", .boolean ordered)]

section Converted

variable {T : Type} [ToLong] [Decimal128] (toDocument : T → Except Throwable Document) (newId : Nat → List UInt8)
  (thrown : Error → Throwable)

/-- What `insert` makes of the answer. -/
def counted (documents : List Document) (reply : Except Throwable Document) : Except Throwable Unit := do
  let inserted ← requiredLong (← reply) "n"
  if inserted ≠ .ofNat documents.length then
    throw (CursorFlow.exception ("the engine stored " ++ toString inserted ++ " of " ++ toString documents.length ++
      " documents without reporting an error"))

/-- `MongoCollection.insert` -/
def insert (name : String) (documents : List Document) (ordered : Bool) : Talk (Except Throwable Unit) :=
  (runCommand thrown (insertCommand name documents ordered)).map (counted documents)

/-- `MongoCollection.insertOne` -/
def insertOne (name : String) (document : T) : Talk (Except Throwable InsertOneResult) :=
  match toDocument document with
  | .error e => .ret (.error e)
  | .ok document =>
    let stored := (withId newId 0 document).1
    (insert thrown name [stored] true).map (·.map fun _ => ⟨Document.get "_id" stored⟩)

/-- `documents.map { it.toDocument().withId() }` -/
def stored : Nat → List T → Except Throwable (List Document)
  | _, [] => .ok []
  | used, document :: documents => do
    let document ← toDocument document
    let (document, used) := withId newId used document
    return document :: (← stored used documents)

/-- `MongoCollection.insertMany` -/
def insertMany (name : String) (documents : List T) (ordered : Bool) : Talk (Except Throwable InsertManyResult) :=
  if documents.isEmpty then
    .ret (.error (.of (.illegalArgument "an insert of no documents is a command the engine rejects") []))
  else match stored toDocument newId 0 documents with
    | .error e => .ret (.error e)
    | .ok stored =>
      (insert thrown name stored ordered).map
        (·.map fun _ => ⟨stored.zipIdx.map fun (document, index) => (index, Document.get "_id" document)⟩)

end Converted

/-! ## The documents that are sent -/

/-- It is the crate's rule. -/
theorem withId_eq (newId : Nat → List UInt8) (used : Nat) (document : Document) :
    withId newId used document = (Insert.ensureId newId used document).2 := by
  unfold withId Insert.ensureId
  rw [Document.contains_keys]
  cases Document.get "_id" document with
  | none => rfl
  | some id => rfl

section Converted

variable {T : Type} {toDocument : T → Except Throwable Document} {newId : Nat → List UInt8}

/-- A document that cannot be converted keeps the whole list back. -/
theorem stored_error {documents : List T} {e : Throwable} (h : documents.mapM toDocument = .error e) (used : Nat) :
    stored toDocument newId used documents = .error e := by
  induction documents generalizing used with
  | nil => cases h
  | cons value documents ih =>
    rw [stored]
    obtain hvalue | ⟨document, hvalue, hrest⟩ := Insert.mapM_cons_eq_error_iff.1 h
    · rw [hvalue]
      rfl
    · rw [hvalue]
      show (stored toDocument newId (withId newId used document).2 documents >>= _) = _
      rw [ih hrest]
      rfl

/-- Otherwise the documents are those the crate would send. -/
theorem stored_ok {documents : List T} {given : List Document} (h : documents.mapM toDocument = .ok given) (used : Nat) :
    stored toDocument newId used documents = .ok ((Insert.withIds newId used given).map Prod.snd) := by
  rw [Insert.mapM_eq_ok_iff] at h
  induction h generalizing used with
  | nil => rfl
  | cons hvalue _ ih =>
    rw [stored, hvalue]
    simp only [bind, Except.bind, pure, Except.pure, ih, withId_eq, Insert.withIds, List.map_cons]

/-- The ids Kotlin reports are those the documents are sent under. -/
theorem get_withIds (newId : Nat → List UInt8) (given : List Document) :
    ((Insert.withIds newId 0 given).map Prod.snd).zipIdx.map (fun p => (p.2, Document.get "_id" p.1)) =
      (Insert.byPosition (Insert.withIds newId 0 given) 0).map fun p => (p.1, some p.2) := by
  have hget : ∀ sent ∈ Insert.withIds newId 0 given, Document.get "_id" sent.2 = some sent.1 := by
    intro sent hsent
    obtain ⟨index, hindex, rfl⟩ := List.getElem_of_mem hsent
    have hlength := (Insert.withIds_identified newId 0 given).length_eq
    exact ((Insert.withIds_identified newId 0 given).get (hlength ▸ hindex) hindex).get
  rw [List.zipIdx_map, List.map_map, Insert.byPosition, List.map_map]
  apply List.map_congr_left
  rintro ⟨sent, index⟩ hmem
  exact congrArg (index, ·) (hget sent (List.fst_mem_of_mem_zipIdx hmem))

/-! ## What is said to the engine -/

/-- The command of an insert is a write that names no write concern. -/
theorem durable_insertCommand (name : String) (documents : List Document) (ordered : Bool) :
    durable (insertCommand name documents ordered) =
      insertCommand name documents ordered ++ [("writeConcern", .document [("w", .int32 1), ("j", .boolean true)])] := rfl

variable [ToLong] [Decimal128] {thrown : Error → Throwable}

theorem insertMany_nil (name : String) (ordered : Bool) :
    insertMany toDocument newId thrown name [] ordered =
      .ret (.error (.of (.illegalArgument "an insert of no documents is a command the engine rejects") [])) := rfl

/-- Nothing is sent of a list with such a document. -/
theorem insertMany_error {documents : List T} {e : Throwable} (h : documents.mapM toDocument = .error e) (name : String)
    (ordered : Bool) : insertMany toDocument newId thrown name documents ordered = .ret (.error e) := by
  cases documents with
  | nil => cases h
  | cons value documents =>
    show (match stored toDocument newId 0 (value :: documents) with
      | .error e => _
      | .ok stored => _) = _
    rw [stored_error h]

/-- Otherwise one command goes out, journalled, and its reply is counted. -/
theorem insertMany_ok {documents : List T} {given : List Document} (h : documents.mapM toDocument = .ok given)
    (hsome : documents ≠ []) (name : String) (ordered : Bool) :
    insertMany toDocument newId thrown name documents ordered =
      .ask (insertCommand name ((Insert.withIds newId 0 given).map Prod.snd) ordered ++
        [("writeConcern", .document [("w", .int32 1), ("j", .boolean true)])]) fun reply =>
        .ret ((counted ((Insert.withIds newId 0 given).map Prod.snd) (answered thrown reply)).map fun _ =>
          ⟨(Insert.byPosition (Insert.withIds newId 0 given) 0).map fun p => (p.1, some p.2)⟩) := by
  rw [insertMany, if_neg (by simpa using hsome), stored_ok h, ← get_withIds, ← durable_insertCommand]
  rfl

/-- Inserting one document is inserting many, of which there is one, in order. -/
theorem insertOne_eq (name : String) (value : T) :
    (insertOne toDocument newId thrown name value).map (·.map fun r => [(0, r.insertedId)]) =
      (insertMany toDocument newId thrown name [value] true).map (·.map InsertManyResult.insertedIds) := by
  cases hvalue : toDocument value with
  | error e =>
    have hmany : [value].mapM toDocument = .error e := Insert.mapM_cons_eq_error_iff.2 (.inl hvalue)
    rw [insertMany_error hmany, insertOne, hvalue]
    rfl
  | ok document =>
    have hstored : stored toDocument newId 0 [value] = .ok [(withId newId 0 document).1] := by
      simp only [stored, hvalue]
      rfl
    rw [insertMany, if_neg (by simp), hstored, insertOne, hvalue]
    apply Dialogue.ask_congr
    intro reply
    show Dialogue.ret (((counted _ (answered thrown reply)).map _).map _) =
      .ret (((counted _ (answered thrown reply)).map _).map _)
    cases counted [(withId newId 0 document).1] (answered thrown reply) <;> rfl

/-! ## What is made of the reply -/

omit [ToLong] in
/-- A reply that is accepted is handed on as it is. -/
theorem checkedReply_eq {reply r : Document} (h : checkedReply reply = .ok r) : r = reply := by
  unfold checkedReply at h
  split at h
  · cases h
  · dsimp only at h
    split at h
    · cases h
      rfl
    · cases h

omit [ToLong] [Decimal128] in
theorem map_const_ok_iff {E R : Type} {outcome : Except E Unit} {result r : R} :
    outcome.map (fun _ => result) = .ok r ↔ r = result ∧ outcome = .ok () := by
  cases outcome with
  | error e => simp [Except.map]
  | ok _ => simp [Except.map, eq_comm]

/-- An insert succeeds when its reply is accepted and counts as many documents as were sent. -/
theorem counted_ok_iff {documents : List Document} {reply : Document} :
    counted documents (checkedReply reply) = .ok () ↔
      (∃ r, checkedReply reply = .ok r) ∧ longOrNull reply "n" = some (.ofNat documents.length) := by
  cases hreply : checkedReply reply with
  | error e => simp [counted, bind, Except.bind]
  | ok r =>
    obtain rfl := checkedReply_eq hreply
    cases hlong : longOrNull r "n" with
    | none => simp [counted, bind, Except.bind, requiredLong, hlong]
    | some inserted =>
      by_cases heq : inserted = .ofNat documents.length
      · simp [counted, bind, Except.bind, requiredLong, hlong, heq, pure, Except.pure]
      · simp [counted, bind, Except.bind, requiredLong, hlong, heq, throw, throwThe, MonadExceptOf.throw]

end Converted

/-- The count of a reply is a number that is not an integer. -/
def OddCount (reply : Document) : Prop := ∃ type bytes, Document.get "n" reply = some (.other type bytes)

theorem toUsize_eq_iff {value : Int} {n : Nat} : Insert.toUsize value = some n ↔ value = n := by
  unfold Insert.toUsize
  split
  · rw [Option.some.injEq]
    omega
  · refine iff_of_false (by simp) ?_
    omega

theorem toInt_ofNat {n : Nat} (h : n < 2 ^ 31) : (Int64.ofNat n).toInt = n := by
  rw [Int64.toInt_ofNat_of_lt]
  omega

/-- The crate counts as Kotlin does, in integers. -/
theorem insertedCount_iff [ToLong] {reply : Document} {n : Nat} (h : n < 2 ^ 31) :
    Insert.insertedCount reply = some n ↔ longOrNull reply "n" = some (.ofNat n) ∧ ¬ OddCount reply := by
  unfold Insert.insertedCount longOrNull OddCount
  cases Document.get "n" reply with
  | none => simp
  | some value => cases value with
    | string | document | array | boolean => simp [toLong]
    | other type bytes => simp
    | int32 value => simp [toUsize_eq_iff, toLong, ← Int64.toInt_inj, toInt_ofNat h]
    | int64 value => simp [toUsize_eq_iff, toLong, ← Int64.toInt_inj, toInt_ofNat h]

/-- The crate accepts what Kotlin does, apart from what Kotlin overlooks. -/
theorem validateResponse_iff [Decimal128] (reply : Document) :
    (∃ r, validateResponse reply = .ok r) ↔ (∃ r, checkedReply reply = .ok r) ∧ ¬ Overlooked reply := by
  constructor
  · intro hcrate
    obtain ⟨saysOk, -, hwrite, hconcern⟩ := (validateResponse_ok_iff reply).1 hcrate
    have undescribed := undescribed_of_absent hwrite hconcern
    have hkotlin : ∃ r, checkedReply reply = .ok r :=
      (checkedReply_ok_iff reply).2 ⟨saysOk, (failureDetails_eq_none_iff reply).2 undescribed⟩
    exact ⟨hkotlin, (accepted_alike_iff reply).1 (iff_of_true hkotlin hcrate)⟩
  · rintro ⟨hkotlin, hseen⟩
    exact ((accepted_alike_iff reply).2 hseen).1 hkotlin

/-- A success of the crate's is one of Kotlin's, unless Kotlin overlooks a failure or the count is
odd, and no other reply is. -/
theorem succeeds_alike [ToLong] [Decimal128] {documents : List Document} {expected : Nat} {R S : Type} (result : R)
    (result' : S) (hlength : documents.length = expected) (fits : expected < 2 ^ 31) (reply : Document) :
    (∃ r, Insert.counted expected result (validateResponse reply) = .ok r) ↔
      (∃ r, (counted documents (checkedReply reply)).map (fun _ => result') = .ok r) ∧
        ¬ Overlooked reply ∧ ¬ OddCount reply := by
  simp only [map_const_ok_iff, Insert.counted_ok_iff, exists_eq_left, counted_ok_iff, hlength, validateResponse_iff,
    insertedCount_iff fits]
  tauto

/-- **The two inserts.** On either side nothing is sent of a list that is empty or has a value that
cannot be converted. Otherwise one command goes out, with every document of the caller's in order:
as it is where it has an `_id`, and with an `ObjectId` at its end where it has none, the same on both
sides. Whatever the reply, the ids that are reported are those the documents were sent under, by
their positions; the crate reports them exactly when Kotlin does and the reply is neither one Kotlin
overlooks a failure in nor one whose count is not an integer. An insert of one is one of a list. -/
theorem inserts_are_sent_and_read_alike [ToLong] [Decimal128] {T : Type} (serialize : T → Except Error Document)
    (toDocument : T → Except Throwable Document) (newId : Nat → List UInt8) (thrown : Error → Throwable) (name : String)
    (ordered : Bool) (documents : List T) (fits : documents.length < 2 ^ 31) :
    (∀ e, documents.mapM serialize = .error e → Insert.insertMany serialize newId name documents = .ret (.error e)) ∧
    (∀ e, documents.mapM toDocument = .error e →
      insertMany toDocument newId thrown name documents ordered = .ret (.error e)) ∧
    (documents = [] → (∃ e, Insert.insertMany serialize newId name documents = .ret (.error e)) ∧
      ∃ e, insertMany toDocument newId thrown name documents ordered = .ret (.error e)) ∧
    (∀ given, documents ≠ [] → documents.mapM serialize = .ok given → documents.mapM toDocument = .ok given →
      ∃ (sent : List (Bson × Document)) (crate : Except Error Document → Except Error Insert.InsertManyResult)
        (kotlin : Except Error Document → Except Throwable InsertManyResult),
        List.Forall₂ (fun document sent => Insert.Identified document sent.1 sent.2) given sent ∧
        Insert.insertMany serialize newId name documents =
          .ask (Insert.insertCommand name (sent.map fun sent => .document sent.2)) (fun reply => .ret (crate reply)) ∧
        insertMany toDocument newId thrown name documents ordered =
          .ask (insertCommand name (sent.map Prod.snd) ordered ++
            [("writeConcern", .document [("w", .int32 1), ("j", .boolean true)])]) (fun reply => .ret (kotlin reply)) ∧
        (∀ e, crate (.error e) = .error e ∧ kotlin (.error e) = .error (thrown e)) ∧
        ∀ reply,
          (∀ r, crate (.ok reply) = .ok r → r.insertedIds = Insert.byPosition sent 0) ∧
          (∀ r, kotlin (.ok reply) = .ok r →
            r.insertedIds = (Insert.byPosition sent 0).map fun p => (p.1, some p.2)) ∧
          ((∃ r, crate (.ok reply) = .ok r) ↔
            (∃ r, kotlin (.ok reply) = .ok r) ∧ ¬ Overlooked reply ∧ ¬ OddCount reply)) ∧
    ∀ value,
      (Insert.insertOne serialize newId name value).map (·.map fun r => [(0, r.insertedId)]) =
        (Insert.insertMany serialize newId name [value]).map (·.map Insert.InsertManyResult.insertedIds) ∧
      (insertOne toDocument newId thrown name value).map (·.map fun r => [(0, r.insertedId)]) =
        (insertMany toDocument newId thrown name [value] true).map (·.map InsertManyResult.insertedIds) := by
  refine ⟨fun e h => Insert.insertMany_error h name, fun e h => insertMany_error h name ordered, ?_, ?_,
    fun value => ⟨Insert.insertOne_eq name value, insertOne_eq name value⟩⟩
  · rintro rfl
    exact ⟨⟨_, Insert.insertMany_nil name⟩, _, insertMany_nil name ordered⟩
  · intro given hsome hserialize htoDocument
    have hlength : given.length = documents.length := (Insert.mapM_eq_ok_iff.1 hserialize).length_eq.symm
    have hgiven : given ≠ [] := by
      rintro rfl
      exact hsome (List.length_eq_zero_iff.1 hlength.symm)
    refine ⟨Insert.withIds newId 0 given, _, _, Insert.withIds_identified newId 0 given,
      Insert.insertMany_ok hserialize hgiven name, insertMany_ok htoDocument hsome name ordered,
      fun e => ⟨rfl, rfl⟩, fun reply => ⟨?_, ?_, ?_⟩⟩
    · intro r hr
      rw [(Insert.counted_ok_iff.1 hr).1]
    · intro r hr
      rw [(map_const_ok_iff.1 hr).1]
    · exact succeeds_alike _ _ (by simp) (hlength ▸ fits) reply

/-- Two orders, one of which names its id. -/
def twoOrders : List Document := [[("total", .int32 12)], [("_id", .string "A-2"), ("total", .int32 7)]]

/-- Whoever inserts two orders and is told that two were stored has the ids of both. -/
theorem two_orders_are_inserted_alike :
    ∃ (_ : ToLong) (_ : Decimal128) (sent : List (Bson × Document))
      (crate : Except Error Document → Except Error Insert.InsertManyResult)
      (kotlin : Except Error Document → Except Throwable InsertManyResult),
      List.Forall₂ (fun document sent => Insert.Identified document sent.1 sent.2) twoOrders sent ∧
      Insert.insertMany .ok (fun n => [n.toUInt8]) "orders" twoOrders =
        .ask (Insert.insertCommand "orders" (sent.map fun sent => .document sent.2)) (fun reply => .ret (crate reply)) ∧
      (∃ r, crate (.ok [("n", .int32 2), ("ok", .int32 1)]) = .ok r) ∧
      ∃ r, kotlin (.ok [("n", .int32 2), ("ok", .int32 1)]) = .ok r ∧
        r.insertedIds = (Insert.byPosition sent 0).map fun p => (p.1, some p.2) := by
  let _ : ToLong := ⟨fun _ _ => none⟩
  let _ : Decimal128 := ⟨fun _ => .nan, fun _ => 0⟩
  obtain ⟨-, -, -, hmany, -⟩ := inserts_are_sent_and_read_alike (.ok : Document → Except Error Document) .ok
    (fun n => [n.toUInt8]) (fun _ => .of .cancellation []) "orders" true twoOrders (by decide)
  obtain ⟨sent, crate, kotlin, hsent, hcrate, -, -, hreplies⟩ := hmany twoOrders (by simp [twoOrders]) rfl rfl
  obtain ⟨-, hids, halike⟩ := hreplies [("n", .int32 2), ("ok", .int32 1)]
  have hsuccess : ∃ r, crate (.ok [("n", .int32 2), ("ok", .int32 1)]) = .ok r := by
    have hok : ∃ r, validateResponse [("n", .int32 2), ("ok", .int32 1)] = .ok r :=
      (validateResponse_ok_iff _).2 ⟨⟨_, rfl, by decide +kernel⟩, rfl, rfl, rfl⟩
    have hmap : twoOrders.mapM (.ok : Document → Except Error Document) = .ok twoOrders := rfl
    have hnext := (Insert.insertMany_ok hmap (by simp [twoOrders]) "orders").symm.trans hcrate
    injection hnext with _ hnext
    have hreply := congrFun hnext (.ok [("n", .int32 2), ("ok", .int32 1)])
    injection hreply with hreply
    dsimp only [Except.bind] at hreply
    rw [← hreply]
    exact ⟨_, Insert.counted_ok_iff.2 ⟨rfl, hok, rfl⟩⟩
  obtain ⟨⟨r, hr⟩, -⟩ := halike.1 hsuccess
  exact ⟨inferInstance, inferInstance, sent, crate, kotlin, hsent, hcrate, hsuccess, r, hr, hids r hr⟩

end EmbeddedMongo.Android.CollectionInserts
