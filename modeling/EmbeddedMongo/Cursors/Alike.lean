import EmbeddedMongo.Android.CursorFlow
import EmbeddedMongo.Android.Durability
import EmbeddedMongo.Cursors.Blocking
import EmbeddedMongo.Nonblocking.CursorOwner

/-!
# The three cursors page alike

The async cursor of `src/nonblocking/find.rs`, none of whose futures is dropped, and the document
flow of `CursorFlow.kt`, collected up to a number of documents, as generators beside the blocking
cursor. Each is a pager, so against one script they send the same commands and give the same items.
-/

namespace EmbeddedMongo.Nonblocking.Find

open Conc Cursors

/-- A `Cursor<Document>` in the hands of a task that awaits every call. -/
inductive Reader where
  | turn (turn : Next Document × Cursor)
  | dropping (c : Cursor)
  | dropped

namespace Reader

variable (deserialize : Document → Except Error Document)

/-- The task calls `next`. -/
def next (c : Cursor) : Reader := .turn (c.next deserialize)

/-- `Drop for Cursor`: its command is queued, and nobody hears what becomes of it. -/
def drop (c : Cursor) : Move Reader (String × Document) (Except Error Document) Document Error :=
  match c.drop with
  | [] => .done
  | command :: _ => .ask (c.database, command) fun _ => .dropped

def move : Reader → Move Reader (String × Document) (Except Error Document) Document Error
  | .turn (.answer (some item), c) => .give item (.next deserialize c) (.dropping c)
  | .turn (.answer none, c) => drop c
  | .turn (.fetch database command, c) => .ask (database, command) fun reply => .turn (c.fetched deserialize reply)
  | .dropping c => drop c
  | .dropped => .done

end Reader

variable {deserialize : Document → Except Error Document} {ns : Namespace} {F : Type} {failure : F → Error} {last : F}

/-- A cursor over the namespace with this much of a page in hand. -/
def Cursor.holding (ns : Namespace) (id : Int64) (documents : List Document) : Cursor where
  database := ns.database
  collection := ns.collection
  id := id
  documents := documents
  finished := false

theorem Reader.runs_drop {s : Reader} (c : Cursor) (h : s.move deserialize = drop c) (hdatabase : c.database = ns.database)
    (hcollection : c.collection = ns.collection) (answers : Answers ns F) (want : Option Nat) :
    Runs (Reader.move deserialize) (serve failure last) s answers want ⟨(Cursors.kill c.id).map (Ask.command ns), []⟩ := by
  apply runs_kill
  · intro hid
    apply Runs.done
    simp [h, drop, Cursor.drop, hid]
  · intro hid
    refine ⟨fun _ => .dropped, ?_, .done rfl⟩
    simp [h, drop, Cursor.drop, hid, hdatabase, hcollection, Ask.command]

/-- The async cursor pages through documents that are decoded as they are. -/
theorem Reader.pager (deserialize : Document → Except Error Document) (ns : Namespace) (failure : F → Error) (last : F) :
    Pager ns failure last (Reader.move deserialize) (fun id batch => .next deserialize (.holding ns id batch))
      (fun document => deserialize document = .ok document) where
  item answers id document batch hdocument := by
    refine ⟨.dropping (.holding ns id batch), ?_, runs_drop (.holding ns id batch) rfl rfl rfl _ _⟩
    show Move.give (deserialize document) _ _ = _
    rw [hdocument]
    rfl
  ended answers want := .done rfl
  fetch id hid := by
    have hnext : (Cursor.holding ns id []).next deserialize =
        (.fetch ns.database (getMoreCommand id ns.collection), .holding ns id []) := by
      simp [Cursor.next, Cursor.holding, hid]
    refine ⟨fun reply => .turn ((Cursor.holding ns id []).fetched deserialize reply), ?_, ?_, ?_⟩
    · simp only [Reader.next, hnext, Reader.move, Ask.command]
    · intro reply
      simp only [Cursor.fetched, reply.takeCursorBatch_eq (by decide), Reader.next, Cursor.holding]
    · intro answers want f
      refine .fail rfl ?_
      exact runs_drop { Cursor.holding ns id [] with finished := true } rfl rfl rfl answers want

end EmbeddedMongo.Nonblocking.Find

namespace EmbeddedMongo.Android.CursorFlow

open Conc Cursors

/-! ## The flow -/

/-- `AbortFlowException`, by which `take` leaves the flow, and which it catches again. -/
def abortFlow : Throwable := .of (.other "AbortFlowException") []

/-- The flow under `take`; `stopped` once `take` has what it wants. -/
structure Collecting where
  stage : Stage
  stopped : Bool

theorem afterDot_text (ns : Namespace) : afterDot ns.text = ns.collection := by
  have htext : ns.text.toList = ns.database.toList ++ '.' :: ns.collection.toList := by
    simp [Namespace.text]
  have hdrop : (ns.text.toList.dropWhile (· != '.')) = '.' :: ns.collection.toList := by
    rw [htext, List.dropWhile_append_of_pos]
    · simp
    · intro char hchar
      simp only [bne_iff_ne]
      rintro rfl
      exact ns.dotless hchar
  rw [afterDot, hdrop]
  simp

theorem documentsOf_documents (name : String) (batch : List Document) :
    documentsOf name (batch.map .document) = .ok batch := by
  induction batch with
  | nil => rfl
  | cons document batch ih => simp only [List.map_cons, documentsOf, ih]

section

variable {ns : Namespace} {batchName : String} (reply : Cursors.Reply ns batchName)

theorem cursorOf_reply : cursorOf reply.response = .ok reply.cursor := by
  simp [cursorOf, reply.hasCursor, Bson.asDocument]

theorem idOf_reply [ToLong] : idOf reply.cursor = .ok reply.id := by
  rcases reply.hasId with hid | ⟨short, hid, hshort⟩
  · simp [idOf, hid, toLong]
  · simp [idOf, hid, toLong, hshort]

theorem collectionOf_reply : collectionOf reply.cursor = .ok ns.collection := by
  simp [collectionOf, reply.hasNs, Bson.asStr, afterDot_text, ns.named]

theorem batchOf_reply : batchOf reply.cursor batchName = .ok reply.batch := by
  simp [batchOf, reply.hasBatch, Bson.asArray, documentsOf_documents]

end

/-- Neither command is a write. -/
theorem durable_getMore (c : CursorPaging) : durable c.getMore = getMoreCommand c.id c.collection := by
  simp [durable, CursorPaging.getMore, Document.keys, writeCommands, getMoreCommand]

theorem durable_killCursors (collection : String) (id : Int64) :
    durable (killCursors collection id) = killCursorsCommand collection id := by
  simp [durable, killCursors, Document.keys, writeCommands, killCursorsCommand]

variable [ToLong]

/-- A collection of `documentFlow(database, command)` that nobody cancels. -/
def Collecting.move (database : String) (command : Document) :
    Collecting → Move Collecting (String × Document) (Except Throwable Document) Document Throwable
  | ⟨.opening, stopped⟩ => .ask (database, durable command) fun reply => ⟨opened reply, stopped⟩
  | ⟨.emitting c document rest, stopped⟩ =>
    .give (.ok document) ⟨emitted c rest (.ok ()), stopped⟩ ⟨emitted c rest (.error abortFlow), true⟩
  | ⟨.fetching c, stopped⟩ => .ask (database, durable c.getMore) fun reply => ⟨fetched c reply, stopped⟩
  | ⟨.killing collection abandoned failure, stopped⟩ =>
    .ask (database, durable (killCursors collection abandoned)) fun reply => ⟨killed failure reply, stopped⟩
  | ⟨.done (.error e), false⟩ => .give (.error e) ⟨.done (.ok ()), false⟩ ⟨.done (.ok ()), false⟩
  | ⟨.done _, _⟩ => .done

variable {ns : Namespace} {F : Type} {failure : F → Throwable} {last : F} {command : Document}

/-- The flow with this much of a page in hand. -/
def Collecting.holding (ns : Namespace) (id : Int64) (batch : List Document) : Collecting where
  stage := emitEach { collection := ns.collection, id := id, pending := none } batch
  stopped := false

/-- The loop is left by a failure, and the cursor killed: what is left of the run is what the flow
fails with, unless `take` has stopped it. -/
theorem Collecting.runs_kill {c : CursorPaging} (hcollection : c.collection = ns.collection) (e : Throwable) (stopped : Bool)
    (answers : Answers ns F) (want : Option Nat) :
    Runs (Collecting.move ns.database command) (serve failure last) ⟨kill (some e) c, stopped⟩ answers want
      ⟨(Cursors.kill c.id).map (Ask.command ns), if stopped then [] else [.error e]⟩ := by
  have hdone : Runs (Collecting.move ns.database command) (serve failure last) ⟨.done (.error e), stopped⟩ answers want
      ⟨[], if stopped then [] else [.error e]⟩ := by
    cases stopped with
    | true => exact .done rfl
    | false => exact .fail rfl (.done rfl)
  apply Cursors.runs_kill
  · intro hid
    rwa [kill, if_pos hid]
  · intro hid
    refine ⟨fun reply => ⟨killed (some e) reply, stopped⟩, ?_, hdone⟩
    simp only [kill, hid, if_false, Collecting.move, hcollection, durable_killCursors, Ask.command]

/-- The document flow pages. -/
theorem Collecting.pager (ns : Namespace) (failure : F → Throwable) (last : F) (command : Document) :
    Pager ns failure last (Collecting.move ns.database command) (Collecting.holding ns) (fun _ => True) where
  item answers id document batch _ := ⟨_, rfl, runs_kill rfl abortFlow true answers (some 0)⟩
  ended answers want := .done rfl
  fetch id hid := by
    let c : CursorPaging := { collection := ns.collection, id := id, pending := none }
    have hstage : emitEach c [] = .fetching c := by simp [emitEach, more, c, hid]
    refine ⟨fun reply => ⟨fetched c reply, false⟩, ?_, ?_, ?_⟩
    · show Collecting.move ns.database command ⟨emitEach c [], false⟩ = _
      rw [hstage]
      simp only [Collecting.move, durable_getMore, Ask.command, c]
    · intro reply
      simp [fetched, CursorPaging.fetched, cursorOf_reply, idOf_reply, batchOf_reply, Collecting.holding, c]
    · intro answers want f
      exact runs_kill rfl (failure f) false answers want

/-- The flow's own start, once the opening command is replied to. -/
theorem opened_reply (first : Cursors.Reply ns "firstBatch") :
    (⟨opened (.ok first.response), false⟩ : Collecting) = .holding ns first.id first.batch := by
  simp [opened, CursorPaging.new, cursorOf_reply, collectionOf_reply, idOf_reply, batchOf_reply, Collecting.holding]

end EmbeddedMongo.Android.CursorFlow

namespace EmbeddedMongo.Cursors

open Conc
open Android (ToLong Throwable)
open Android.CursorFlow (Collecting)

/-- **The three cursors page alike.** For every first reply, every script of further replies and
failures and every number of documents that are wanted, or all: the blocking cursor, the async one
and the document flow each have one run, and it is the one expected of a reader. The two of the
crate hand out what `bson::deserialize_from_document` makes of a document; `verbatim` is that it
makes of the documents of the script what they are. -/
theorem cursors_page_alike [ToLong] {F : Type} (deserialize : Document → Except Error Document) (ns : Namespace)
    (asError : F → Error) (asThrowable : F → Throwable) (last : F)
    (command : Document) (first : Cursors.Reply ns "firstBatch") (answers : Answers ns F) (want : Option Nat)
    (hwant : want ≠ some 0) (verbatim : Throughout (fun document => deserialize document = .ok document) first.page answers) :
    (∃ c, Blocking.Cursor.fromResponse ns.database ns.collection first.response "firstBatch" = .ok c ∧
      ∀ log, Runs (Blocking.Reader.move deserialize) (serve asError last) (.next deserialize c) answers want log ↔
        log = rendered ns asError (expected last want first.page answers)) ∧
    (∃ c, Nonblocking.Find.Cursor.fromResponse ns.database ns.collection first.response "firstBatch" = .ok c ∧
      ∀ log, Runs (Nonblocking.Find.Reader.move deserialize) (serve asError last) (.next deserialize c) answers want log ↔
        log = rendered ns asError (expected last want first.page answers)) ∧
    ∀ log, Runs (Collecting.move ns.database command) (serve asThrowable last)
        ⟨Android.CursorFlow.opened (.ok first.response), false⟩ answers want log ↔
      log = rendered ns asThrowable (expected last want first.page answers) := by
  have hfirst := first.takeCursorBatch_eq (by decide)
  refine ⟨⟨.holding ns first.id first.batch, ?_, fun log => ?_⟩, ⟨.holding ns first.id first.batch, ?_, fun log => ?_⟩,
    fun log => ?_⟩
  · simp only [Blocking.Cursor.fromResponse, hfirst, Blocking.Cursor.holding]
  · exact ((Blocking.Reader.pager deserialize ns asError last).runs hwant first.page answers verbatim).iff_eq
  · simp only [Nonblocking.Find.Cursor.fromResponse, hfirst, Nonblocking.Find.Cursor.holding]
  · exact ((Nonblocking.Find.Reader.pager deserialize ns asError last).runs hwant first.page answers verbatim).iff_eq
  · rw [Android.CursorFlow.opened_reply]
    have any : Throughout (fun _ => True) first.page answers := ⟨fun _ _ => trivial, fun _ _ _ _ => trivial⟩
    exact ((Collecting.pager ns asThrowable last command).runs hwant first.page answers any).iff_eq

/-- The orders of a shop. -/
def shopOrders : Namespace where
  database := "shop"
  collection := "orders"
  dotless := by decide
  named := by decide

/-- A first batch of one order, with more to come. -/
def firstOrders : Cursors.Reply shopOrders "firstBatch" where
  response := [("cursor", .document
    [("firstBatch", .array [.document [("total", .int32 12)]]), ("id", .int64 7), ("ns", .string "shop.orders")])]
  cursor := [("firstBatch", .array [.document [("total", .int32 12)]]), ("id", .int64 7), ("ns", .string "shop.orders")]
  id := 7
  batch := [[("total", .int32 12)]]
  hasCursor := rfl
  hasId := .inl rfl
  hasNs := rfl
  hasBatch := rfl

/-- A decoder that takes no document with an extended-JSON key. -/
def plainOnly (document : Document) : Except Error Document :=
  if (Document.keys document).contains "$oid" = true then .error (.bson "extended JSON") else .ok document

/-- Three orders are wanted, one is there, and the `getMore` for the next fails. -/
theorem cursors_page_alike_up_to_a_failure :
    ∃ (_ : ToLong) (c : Blocking.Cursor),
      Blocking.Cursor.fromResponse "shop" "orders" firstOrders.response "firstBatch" = .ok c ∧
      Runs (Blocking.Reader.move plainOnly) (serve Error.native "gone") (.next plainOnly c)
        ([.error "gone"] : Answers shopOrders String) (some 3)
        ⟨[("shop", getMoreCommand 7 "orders"), ("shop", killCursorsCommand "orders" 7)],
          [.ok [("total", .int32 12)], .error (.native "gone")]⟩ ∧
      Runs (Collecting.move "shop" [("find", .string "orders")]) (serve Android.CursorFlow.exception "gone")
        ⟨Android.CursorFlow.opened (.ok firstOrders.response), false⟩ ([.error "gone"] : Answers shopOrders String) (some 3)
        ⟨[("shop", getMoreCommand 7 "orders"), ("shop", killCursorsCommand "orders" 7)],
          [.ok [("total", .int32 12)], .error (Android.CursorFlow.exception "gone")]⟩ := by
  let _ : ToLong := ⟨fun _ _ => none⟩
  have verbatim : Throughout (fun document => plainOnly document = .ok document) firstOrders.page
      ([.error "gone"] : Answers shopOrders String) := by
    constructor
    · intro document hdocument
      rw [List.mem_singleton.1 hdocument]
      rfl
    · intro reply hreply
      simp at hreply
  obtain ⟨⟨c, hc, hblocking⟩, -, hflow⟩ := cursors_page_alike plainOnly shopOrders Error.native Android.CursorFlow.exception
    "gone" [("find", .string "orders")] firstOrders [.error "gone"] (some 3) (by decide) verbatim
  exact ⟨inferInstance, c, hc, (hblocking _).2 rfl, (hflow _).2 rfl⟩

end EmbeddedMongo.Cursors
