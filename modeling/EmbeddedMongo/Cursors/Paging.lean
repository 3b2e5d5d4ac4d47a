import EmbeddedMongo.Conc.Generator
import EmbeddedMongo.Find

/-!
# Paging through a cursor

What a reader of a cursor is to do, whoever it is: give the documents of the batches in order, ask
for the next batch when the one in hand is used up and more is wanted, stop at a failure, and leave
the engine without a cursor. `expected` says it of a whole reading, and `Pager` says it of the moves
of a generator; the rule `Pager.runs` is that the latter comes to the former.

The engine plays a script: the replies to its `getMore`s in order, any of which may be a failure.
-/

namespace EmbeddedMongo.Cursors

open Conc

/-- A collection as the engine names it: no database has a dot in its name, and no collection is
without one. -/
structure Namespace where
  database : String
  collection : String
  dotless : '.' ∉ database.toList
  named : collection ≠ ""

def Namespace.text (ns : Namespace) : String := ns.database ++ "." ++ ns.collection

/-- A well-formed cursor reply over a namespace. -/
structure Reply (ns : Namespace) (batchName : String) where
  response : Document
  cursor : Document
  id : Int64
  batch : List Document
  hasCursor : Document.get "cursor" response = some (.document cursor)
  hasId : Document.get "id" cursor = some (.int64 id) ∨
    ∃ short : Int32, Document.get "id" cursor = some (.int32 short) ∧ id = short.toInt64
  hasNs : Document.get "ns" cursor = some (.string ns.text)
  hasBatch : Document.get batchName cursor = some (.array (batch.map .document))

/-- The commands of a reader, apart from the namespace. -/
inductive Ask where
  | getMore (id : Int64)
  | killCursors (id : Int64)
  deriving DecidableEq, Repr

/-- A command and the database it is run against. -/
def Ask.command (ns : Namespace) : Ask → String × Document
  | .getMore id => (ns.database, getMoreCommand id ns.collection)
  | .killCursors id => (ns.database, killCursorsCommand ns.collection id)

variable {ns : Namespace} {F E σ : Type}

/-- What the engine will answer to a reader's `getMore`s. -/
abbrev Answers (ns : Namespace) (F : Type) := List (Except F (Reply ns "nextBatch"))

/-- The engine by its script: `last` is its answer once the script has ended, and `failure` what a
failure of the engine is to the reader. Any other command is a `killCursors` and succeeds. -/
def serve (failure : F → E) (last : F) (answers : Answers ns F) (q : String × Document) :
    Except E Document × Answers ns F :=
  if (Document.get "getMore" q.2).isSome then
    match answers with
    | [] => (.error (failure last), [])
    | .error f :: answers => (.error (failure f), answers)
    | .ok reply :: answers => (.ok reply.response, answers)
  else (.ok [], answers)

/-! ## A whole reading -/

/-- The id and the batch of a reply. -/
structure Page where
  id : Int64
  batch : List Document

def Reply.page {batchName : String} (reply : Reply ns batchName) : Page := ⟨reply.id, reply.batch⟩

/-- Every document of the page in hand and of the replies to come is of this kind. -/
structure Throughout (P : Document → Prop) (page : Page) (answers : Answers ns F) : Prop where
  here : ∀ document ∈ page.batch, P document
  later : ∀ reply, .ok reply ∈ answers → ∀ document ∈ reply.batch, P document

/-- The `killCursors` owed to an id. -/
def kill (id : Int64) : List Ask := if id = 0 then [] else [.killCursors id]

/-- Cut at what is wanted. -/
def cut (want : Option Nat) (documents : List Document) : List Document :=
  match want with
  | none => documents
  | some k => documents.take k

/-- Nothing is asked for after this page: the consumer has enough before its batch is used up, or
just then, or its id is zero. -/
def Page.closes (want : Option Nat) (page : Page) : Bool := want.any (· ≤ page.batch.length) || page.id == 0

/-- The pages that are received, from the one in hand on, and the failure that is come upon. -/
def received (last : F) : Option Nat → Page → Answers ns F → List Page × Option F
  | want, page, [] => ([page], if page.closes want then none else some last)
  | want, page, .error f :: _ => ([page], if page.closes want then none else some f)
  | want, page, .ok reply :: answers =>
    if page.closes want then ([page], none)
    else
      let rest := received last (want.map (· - page.batch.length)) reply.page answers
      (page :: rest.1, rest.2)

/-- What a reader is to come to: the documents of the pages received, cut at what is wanted, and the
failure after them; a `getMore` for every id that was followed up, and a `killCursors` for the last
one if it is not zero. -/
def expected (last : F) (want : Option Nat) (page : Page) (answers : Answers ns F) : Log Ask Document F :=
  let (pages, failure) := received last want page answers
  { asked :=
      (if failure.isSome then pages else pages.dropLast).map (fun p => .getMore p.id) ++
        (pages.getLast?.toList.flatMap fun p => kill p.id)
    given := (cut want (pages.flatMap Page.batch)).map .ok ++ failure.toList.map .error }

/-- The same, as a reader of these commands and failures has it. -/
def rendered (ns : Namespace) (failure : F → E) (log : Log Ask Document F) : Log (String × Document) Document E where
  asked := log.asked.map (Ask.command ns)
  given := log.given.map (Except.mapError failure)

section

variable {last : F} {want : Option Nat} {page : Page} {answers : Answers ns F}

theorem received_of_closes (h : page.closes want = true) : received last want page answers = ([page], none) := by
  cases answers with
  | nil => simp [received, h]
  | cons answer answers => cases answer <;> simp [received, h]

/-- More is wanted than the batch has, and there is more. -/
theorem not_closes (hid : page.id ≠ 0) (h : ∀ k, want = some k → page.batch.length < k) : page.closes want = false := by
  cases want with
  | none => simp [Page.closes, hid]
  | some k => simp [Page.closes, hid, h k rfl]

theorem of_not_closes (h : page.closes want = false) : page.id ≠ 0 ∧ ∀ k, want = some k → page.batch.length < k := by
  simp only [Page.closes, Bool.or_eq_false_iff, beq_eq_false_iff_ne] at h
  refine ⟨h.2, ?_⟩
  rintro k rfl
  simpa using h.1

theorem received_ne_nil (last : F) (want : Option Nat) (page : Page) (answers : Answers ns F) :
    (received last want page answers).1 ≠ [] := by
  cases answers with
  | nil => simp [received]
  | cons answer answers =>
    cases answer with
    | error f => simp [received]
    | ok reply =>
      rw [received]
      split <;> simp

theorem cut_append {front back : List Document} (h : ∀ k, want = some k → front.length < k) :
    cut want (front ++ back) = front ++ cut (want.map (· - front.length)) back := by
  cases want with
  | none => rfl
  | some k =>
    have hk := h k rfl
    simp only [cut, Option.map_some, List.take_append, List.take_of_length_le (Nat.le_of_lt hk)]

theorem cut_of_lt {documents : List Document} (h : ∀ k, want = some k → documents.length < k) :
    cut want documents = documents := by
  cases want with
  | none => rfl
  | some k => exact List.take_of_length_le (Nat.le_of_lt (h k rfl))

/-- The consumer has enough of the batch in hand. -/
theorem expected_of_enough {k : Nat} (h : k ≤ page.batch.length) :
    expected last (some k) page answers = ⟨kill page.id, (page.batch.take k).map .ok⟩ := by
  have hcloses : page.closes (some k) = true := by simp [Page.closes, h]
  simp [expected, received_of_closes hcloses, cut]

/-- It has not, and there is no more. -/
theorem expected_of_ended (hid : page.id = 0) (h : ∀ k, want = some k → page.batch.length < k) :
    expected last want page answers = ⟨[], page.batch.map .ok⟩ := by
  have hcloses : page.closes want = true := by simp [Page.closes, hid]
  simp [expected, received_of_closes hcloses, cut_of_lt h, kill, hid]

theorem expected_of_failure {f : F} (h : ∀ k, want = some k → page.batch.length < k)
    (hreceived : received last want page answers = ([page], some f)) :
    expected last want page answers = ⟨.getMore page.id :: kill page.id, page.batch.map .ok ++ [.error f]⟩ := by
  simp [expected, hreceived, cut_of_lt h]

/-- It asks for the next page, and goes on with that. -/
theorem expected_of_reply {reply : Reply ns "nextBatch"} (hid : page.id ≠ 0)
    (h : ∀ k, want = some k → page.batch.length < k) :
    expected last want page (.ok reply :: answers) =
      ⟨.getMore page.id :: (expected last (want.map (· - page.batch.length)) reply.page answers).asked,
        page.batch.map .ok ++ (expected last (want.map (· - page.batch.length)) reply.page answers).given⟩ := by
  obtain ⟨first, rest, hpages⟩ := List.exists_cons_of_ne_nil
    (received_ne_nil last (want.map (· - page.batch.length)) reply.page answers)
  simp only [expected, received, not_closes hid h, Bool.false_eq_true, if_false, hpages, List.flatMap_cons,
    List.getLast?_cons_cons, List.dropLast_cons_cons, Log.mk.injEq]
  constructor
  · split <;> simp
  · rw [cut_append h]
    simp

end

/-! ## A reader by its moves -/

/-- A generator that pages through documents of a kind: `hold id batch` is its state with this much
of a page in hand. -/
structure Pager (ns : Namespace) (failure : F → E) (last : F)
    (move : σ → Move σ (String × Document) (Except E Document) Document E) (hold : Int64 → List Document → σ)
    (P : Document → Prop) : Prop where
  item : ∀ (answers : Answers ns F) id document batch, P document →
    ∃ stop, move (hold id (document :: batch)) = .give (.ok document) (hold id batch) stop ∧
      Runs move (serve failure last) stop answers (some 0) ⟨(kill id).map (Ask.command ns), []⟩
  ended : ∀ (answers : Answers ns F) want, Runs move (serve failure last) (hold 0 []) answers want ⟨[], []⟩
  fetch : ∀ id, id ≠ 0 → ∃ next, move (hold id []) = .ask (Ask.command ns (.getMore id)) next ∧
    (∀ reply : Reply ns "nextBatch", next (.ok reply.response) = hold reply.id reply.batch) ∧
    ∀ (answers : Answers ns F) want f,
      Runs move (serve failure last) (next (.error (failure f))) answers want
        ⟨(kill id).map (Ask.command ns), [.error (failure f)]⟩

section

variable {failure : F → E} {last : F} {move : σ → Move σ (String × Document) (Except E Document) Document E}
  {hold : Int64 → List Document → σ} {P : Document → Prop} {want : Option Nat}

/-- The way out of a reader: it kills its cursor if there is one left. -/
theorem runs_kill {s : σ} {id : Int64} {answers : Answers ns F} {given : List (Except E Document)}
    (ended : id = 0 → Runs move (serve failure last) s answers want ⟨[], given⟩)
    (killed : id ≠ 0 → ∃ next, move s = .ask (Ask.command ns (.killCursors id)) next ∧
      Runs move (serve failure last) (next (.ok [])) answers want ⟨[], given⟩) :
    Runs move (serve failure last) s answers want ⟨(kill id).map (Ask.command ns), given⟩ := by
  by_cases hid : id = 0
  · rw [kill, if_pos hid]
    exact ended hid
  · rw [kill, if_neg hid]
    obtain ⟨next, hmove, hrest⟩ := killed hid
    exact .ask hmove hrest

/-- A `getMore` that fails. -/
theorem Pager.fetch_failed (h : Pager ns failure last move hold P) {id : Int64} (hid : id ≠ 0) {answers rest : Answers ns F}
    {f : F} (hserve : serve failure last answers (Ask.command ns (.getMore id)) = (.error (failure f), rest)) :
    Runs move (serve failure last) (hold id []) answers want
      ⟨Ask.command ns (.getMore id) :: (kill id).map (Ask.command ns), [.error (failure f)]⟩ := by
  obtain ⟨next, hmove, -, hfailed⟩ := h.fetch id hid
  refine .ask hmove ?_
  rw [hserve]
  exact hfailed rest want f

/-- The batch in hand is used up and more is wanted. -/
theorem Pager.onward (h : Pager ns failure last move hold P) {page : Page} {answers : Answers ns F} {asked : List Ask}
    {given : List (Except F Document)} (hbatch : ∀ document ∈ page.batch, P document)
    (hmore : ∀ k, want = some k → page.batch.length < k)
    (rest : Runs move (serve failure last) (hold page.id []) answers (want.map (· - page.batch.length))
      (rendered ns failure ⟨asked, given⟩)) :
    Runs move (serve failure last) (hold page.id page.batch) answers want
      (rendered ns failure ⟨asked, page.batch.map .ok ++ given⟩) := by
  have hrun := Runs.give_all (fun d hd ds => ?_) hmore rest
  · simpa [rendered, Except.mapError, Function.comp_def] using hrun
  · obtain ⟨stop, hitem, -⟩ := h.item answers page.id d ds (hbatch d hd)
    exact ⟨stop, hitem⟩

/-- Nothing is asked for after the page in hand. -/
theorem Pager.runs_of_closes (h : Pager ns failure last move hold P) (hwant : want ≠ some 0) {page : Page}
    (hbatch : ∀ document ∈ page.batch, P document) (hcloses : page.closes want = true) (answers : Answers ns F) :
    Runs move (serve failure last) (hold page.id page.batch) answers want
      (rendered ns failure (expected last want page answers)) := by
  by_cases henough : ∃ k, want = some k ∧ k ≤ page.batch.length
  · obtain ⟨k, rfl, hk⟩ := henough
    have hpositive : 1 ≤ k := Nat.one_le_iff_ne_zero.2 fun hzero => hwant (by rw [hzero])
    rw [expected_of_enough hk]
    have hrun := Runs.give_some (fun d hd ds => h.item answers page.id d ds (hbatch d hd)) hpositive hk
    simpa [rendered, Except.mapError, Function.comp_def] using hrun
  · have hmore : ∀ k, want = some k → page.batch.length < k := by
      intro k hk
      exact Nat.lt_of_not_le fun hle => henough ⟨k, hk, hle⟩
    have hid : page.id = 0 := by
      apply Decidable.byContradiction
      intro hid
      rw [not_closes hid hmore] at hcloses
      cases hcloses
    rw [expected_of_ended hid hmore, ← List.append_nil (page.batch.map _)]
    apply h.onward hbatch hmore
    rw [hid]
    exact h.ended _ _

/-- The `getMore` after the page in hand fails. -/
theorem Pager.runs_of_failure (h : Pager ns failure last move hold P) {page : Page}
    (hbatch : ∀ document ∈ page.batch, P document) (hcloses : page.closes want = false) {answers rest : Answers ns F} {f : F}
    (hserve : serve failure last answers (Ask.command ns (.getMore page.id)) = (.error (failure f), rest))
    (hreceived : received last want page answers = ([page], some f)) :
    Runs move (serve failure last) (hold page.id page.batch) answers want
      (rendered ns failure (expected last want page answers)) := by
  obtain ⟨hid, hmore⟩ := of_not_closes hcloses
  rw [expected_of_failure hmore hreceived]
  exact h.onward hbatch hmore (h.fetch_failed hid hserve)

/-- **A pager reads as expected.** -/
theorem Pager.runs (h : Pager ns failure last move hold P) (hwant : want ≠ some 0) (page : Page) (answers : Answers ns F)
    (documents : Throughout P page answers) :
    Runs move (serve failure last) (hold page.id page.batch) answers want
      (rendered ns failure (expected last want page answers)) := by
  induction answers generalizing want page with
  | nil =>
    cases hcloses : page.closes want with
    | true => exact h.runs_of_closes hwant documents.here hcloses []
    | false => exact h.runs_of_failure documents.here hcloses rfl (by simp [received, hcloses])
  | cons answer answers ih =>
    cases hcloses : page.closes want with
    | true => exact h.runs_of_closes hwant documents.here hcloses _
    | false =>
      cases answer with
      | error f => exact h.runs_of_failure documents.here hcloses rfl (by simp [received, hcloses])
      | ok reply =>
        obtain ⟨hid, hmore⟩ := of_not_closes hcloses
        rw [expected_of_reply hid hmore]
        apply h.onward documents.here hmore
        obtain ⟨next, hmove, hnext, -⟩ := h.fetch page.id hid
        refine .ask hmove ?_
        have hserve : serve failure last (.ok reply :: answers) (Ask.command ns (.getMore page.id)) =
            (.ok reply.response, answers) := rfl
        rw [hserve, hnext]
        have hrest : Throughout P reply.page answers :=
          ⟨documents.later reply List.mem_cons_self, fun r hr => documents.later r (List.mem_cons_of_mem _ hr)⟩
        refine ih ?_ reply.page hrest
        cases want with
        | none => nofun
        | some k =>
          have hk := hmore k rfl
          simp only [Option.map_some, ne_eq, Option.some.injEq]
          omega

end

end EmbeddedMongo.Cursors
