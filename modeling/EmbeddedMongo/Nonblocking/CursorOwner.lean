import EmbeddedMongo.Nonblocking.Reading

/-!
# Who owns a server's cursor

A call of `Collection::find` or `Collection::aggregate` from its dispatch to the drop of the
`Cursor` it may produce. Between the engine opening a cursor and a `Cursor` owning its id the id is
in a reply: in the worker's hands, in the oneshot, in the call's future. Dropping the future there
cancels a command that is over, and drops the reply.
-/

namespace EmbeddedMongo.Nonblocking.Find

open Conc

variable {T : Type} {server : Int64} {decode : Document → Except Error T}

/-! ## The call -/

/-- The job that opens a cursor, and the batches the server's cursor has left, if there is one. -/
structure Opening where
  job : Job
  remaining : Option (List (List Document))

/-- A reply out of which `from_response` makes an error. -/
def Unread (reply : Except Error Document) : Prop :=
  ∀ response, reply = .ok response → ∃ e, takeCursorBatch response "firstBatch" = .error e

/-- What the worker does with the job; the server is to know its cursor by the id `server`. -/
inductive Opening.Step (server : Int64) : Opening → Opening → Prop where
  | start {o : Opening} (stage : o.job.stage = .queued) : Step server o { o with job := o.job.start }
  | complete {o : Opening} {first : List Document} {rest : List (List Document)} {response : Document}
      (stage : o.job.stage = .running) (reads : takeCursorBatch response "firstBatch" = .ok (idOf server rest, first)) :
      Step server o { job := o.job.reply (.ok response), remaining := left rest }
  -- a kill that lands leaves no cursor, and the reply goes to nobody
  | interrupt {o : Opening} (stage : o.job.stage = .running) (cancelled : o.job.slot = .cancelled) :
      Step server o { o with job := { o.job with stage := .over } }
  | fail {o : Opening} {reply : Except Error Document} (stage : o.job.stage = .queued ∨ o.job.stage = .running)
      (unread : Unread reply) : Step server o { o with job := o.job.reply reply }
  | send {o : Opening} {reply : Except Error Document} (stage : o.job.stage = .replied reply) :
      Step server o { o with job := { o.job with stage := .sent reply } }

/-- How far the call and its cursor are. -/
inductive Phase (T : Type) where
  | calling (o : Opening)
  /-- The call's future was dropped before it had the reply. -/
  | abandoned (o : Opening)
  /-- The call answered an error. -/
  | failed (remaining : Option (List (List Document)))
  /-- The caller has the `Cursor`. -/
  | holding (s : Sys T)
  /-- The `Cursor` was dropped, and these commands were queued. -/
  | released (s : Sys T) (kills : List Document)

/-- The call from its await on, with what the engine replied. -/
def Phase.received (database collection : String) (remaining : Option (List (List Document))) :
    Except Error Document → Phase T
  | .error _ => .failed remaining
  | .ok response =>
    match Cursor.fromResponse database collection response "firstBatch" with
    | .error _ => .failed remaining
    | .ok cursor => .holding { remaining, cursor, awaiting := none, jobs := [], answers := [] }

/-- The commands `Drop for Cursor` queues. -/
def Cursor.drop (c : Cursor) : List Document := if c.id = 0 then [] else [killCursorsCommand c.collection c.id]

/-- A worker's step, and no step of the task that had the cursor. -/
def Act.background : Act → Bool
  | .next _ | .receive _ | .drop => false
  | .start _ | .complete _ | .interrupt _ | .fail _ | .send _ => true

inductive Phase.Act where
  | work
  | receive
  | drop
  | use (act : Find.Act)
  | dropCursor
  | kill

inductive Phase.Step (database collection : String) (server : Int64) (decode : Document → Except Error T) :
    Phase T → Phase.Act → Phase T → Prop where
  | work {o o' : Opening} (hs : Opening.Step server o o') : Step database collection server decode (.calling o) .work (.calling o')
  | workAbandoned {o o' : Opening} (hs : Opening.Step server o o') :
      Step database collection server decode (.abandoned o) .work (.abandoned o')
  | receive {o : Opening} {reply : Except Error Document} (stage : o.job.stage = .sent reply) :
      Step database collection server decode (.calling o) .receive (.received database collection o.remaining reply)
  | drop {o : Opening} :
      Step database collection server decode (.calling o) .drop
        (.abandoned { o with job := { o.job with slot := o.job.slot.cancel.2 } })
  | use {s s' : Sys T} {a : Find.Act} (hs : Find.Step server decode s a s') :
      Step database collection server decode (.holding s) (.use a) (.holding s')
  -- `next` borrows the cursor, so none of its futures is left
  | dropCursor {s : Sys T} (idle : s.awaiting = none) :
      Step database collection server decode (.holding s) .dropCursor (.released s s.cursor.drop)
  | background {s s' : Sys T} {a : Find.Act} {kills : List Document} (hs : Find.Step server decode s a s')
      (worker : a.background = true) :
      Step database collection server decode (.released s kills) (.use a) (.released s' kills)
  | kill {s : Sys T} {kills : List Document} (queued : kills ≠ []) :
      Step database collection server decode (.released s kills) .kill (.released { s with remaining := none } kills)

/-- `find` or `aggregate`, by the command it sends, on an engine that stays open. -/
def call (database collection : String) (command : Document) (server : Int64) (decode : Document → Except Error T) :
    System (Phase T) Phase.Act where
  init p := p = .calling { job := .new database command, remaining := none }
  step := Phase.Step database collection server decode

namespace Phase

/-- The future and the `Cursor` are gone, and the worker is done with the opening command. -/
def Over : Phase T → Prop
  | .calling _ | .holding _ => False
  | .abandoned o => o.job.stage = .over ∨ ∃ reply, o.job.stage = .sent reply
  | .failed _ | .released _ _ => True

/-- The server's cursor is exhausted or destroyed, or named in a `killCursors` that was queued. -/
def Accounted (server : Int64) : Phase T → Prop
  | .calling o | .abandoned o => o.remaining = none
  | .failed remaining => remaining = none
  | .holding s => s.remaining = none
  | .released s kills => s.remaining = none ∨ kills = [killCursorsCommand s.cursor.collection server]

/-- The reply of a dropped call carried the id of a cursor. -/
def Orphaned : Phase T → Prop
  | .abandoned o => ∃ response id documents, o.job.stage = .sent (.ok response) ∧
      takeCursorBatch response "firstBatch" = .ok (id, documents) ∧ id ≠ 0
  | .calling _ | .failed _ | .holding _ | .released _ _ => False

end Phase

/-! ## While the id is in a reply -/

/-- A reply mentions the cursor the engine has opened, if it has. -/
def Landed (server : Int64) (remaining : Option (List (List Document))) (reply : Except Error Document) : Prop :=
  Unread reply ∧ remaining = none ∨
    ∃ response first rest, reply = .ok response ∧
      takeCursorBatch response "firstBatch" = .ok (idOf server rest, first) ∧ remaining = left rest

/-- There is a cursor only once the job has a reply that mentions it. -/
def Opening.Sound (server : Int64) (o : Opening) : Prop :=
  match o.job.stage with
  | .queued | .running | .over => o.remaining = none
  | .replied reply | .sent reply => Landed server o.remaining reply

theorem Opening.Sound.step {o o' : Opening} (h : o.Sound server) (hs : Opening.Step server o o') : o'.Sound server := by
  cases hs with
  | start stage =>
    simp only [Opening.Sound, stage] at h
    rcases o.job.start_stage with hstage | hstage <;> simpa only [Opening.Sound, hstage] using h
  | complete stage reads => exact .inr ⟨_, _, _, rfl, reads, rfl⟩
  | interrupt stage cancelled =>
    simp only [Opening.Sound, stage] at h
    exact h
  | fail stage unread =>
    have hnone : o.remaining = none := by
      rcases stage with stage | stage <;> simpa only [Opening.Sound, stage] using h
    exact .inl ⟨unread, hnone⟩
  | send stage =>
    simp only [Opening.Sound, stage] at h
    exact h

theorem left_eq_none_iff {rest : List (List Document)} (hserver : server ≠ 0) : left rest = none ↔ idOf server rest = 0 := by
  unfold left idOf
  split <;> simp [hserver]

/-! ## While the `Cursor` has it -/

/-- As long as the server has the cursor, the `Cursor` has its id, and so has every reply that may
still reach it. -/
structure Live (server : Int64) (s : Sys T) : Prop where
  cursor : s.remaining ≠ none → s.cursor.id = server
  replies : ∀ (j : Nat) (job : Job) (id : Int64) (batch : List Document), s.jobs[j]? = some job →
    job.batch = some (id, batch) → s.remaining ≠ none → id = server

variable {s s' : Sys T}

/-- The server's cursor has not come back, the `Cursor` has the id it had, and one job moved. -/
theorem Live.work {j : Nat} {job job' : Job} (h : Live server s) (hj : s.jobs[j]? = some job)
    (jobs : s'.jobs = s.jobs.set j job') (cursor : s'.cursor = s.cursor)
    (kept : s'.remaining ≠ none → s.remaining ≠ none)
    (same : ∀ id batch, job'.batch = some (id, batch) → s'.remaining ≠ none → id = server) : Live server s' := by
  refine ⟨fun hthere => cursor ▸ h.cursor (kept hthere), ?_⟩
  intro i k id batch hi hbatch hthere
  rw [jobs] at hi
  by_cases hij : j = i
  · subst hij
    rw [List.getElem?_set_self (List.getElem?_eq_some_iff.1 hj).1] at hi
    cases hi
    exact same id batch hbatch hthere
  · rw [List.getElem?_set_ne hij] at hi
    exact h.replies i k id batch hi hbatch (kept hthere)

theorem cursor_next_id (c : Cursor) : (c.next decode).2.id = c.id := by
  unfold Cursor.next
  split
  · rfl
  · split <;> rfl

/-- A call of `next` goes on with a `Cursor` that has the right id; a job it queues has no reply. -/
theorem Live.turn {accepted : Bool} {next : Next T × Cursor} (h : Live server { s with cursor := next.2 }) :
    Live server (s.turn accepted next) := by
  obtain ⟨next, cursor⟩ := next
  cases next with
  | answer answer => exact ⟨h.cursor, h.replies⟩
  | fetch database command =>
    unfold Sys.turn
    dsimp only
    split
    · refine ⟨h.cursor, ?_⟩
      intro j job id batch hj hbatch
      rcases Nat.lt_or_ge j s.jobs.length with hlt | hge
      · rw [List.getElem?_append_left hlt] at hj
        exact h.replies j job id batch hj hbatch
      · rw [List.getElem?_append_right hge] at hj
        obtain rfl := List.mem_singleton.1 (List.mem_of_getElem? hj)
        cases hbatch
    · exact ⟨h.cursor, h.replies⟩

/-- What `next` makes of a reply has the id the reply carries, or the one it had. -/
theorem cursor_fetched_id (decode : Document → Except Error T) (c : Cursor) (reply : Except Error Document) :
    (c.fetched decode reply).2.id = c.id ∨
      ∃ response documents, reply = .ok response ∧
        takeCursorBatch response "nextBatch" = .ok ((c.fetched decode reply).2.id, documents) := by
  cases reply with
  | error e => exact .inl rfl
  | ok response =>
    cases hreads : takeCursorBatch response "nextBatch" with
    | error e =>
      left
      simp only [Cursor.fetched, hreads, Cursor.failed]
    | ok fetched =>
      right
      refine ⟨response, fetched.2, rfl, ?_⟩
      simp only [Cursor.fetched, hreads, cursor_next_id]

theorem Live.step {a : Act} (h : Live server s) (hs : Step server decode s a s') : Live server s' := by
  cases hs with
  | next accepted idle =>
    apply Live.turn
    refine ⟨?_, h.replies⟩
    rw [cursor_next_id]
    exact h.cursor
  | @receive j job reply accepted awaiting hj stage =>
    have hlive : Live server { s with jobs := s.jobs.set j { job with slot := job.slot.cancel.2, stage := .over } } := by
      refine h.work hj rfl rfl id ?_
      intro id batch hbatch
      cases hbatch
    apply Live.turn
    refine ⟨?_, hlive.replies⟩
    intro hthere
    rcases cursor_fetched_id decode s.cursor reply with hid | ⟨response, documents, rfl, hreads⟩
    · exact hid.trans (h.cursor hthere)
    · refine h.replies j job _ documents hj ?_ hthere
      simp [Job.batch, stage, hreads, Except.toOption]
  | drop awaiting hj => exact h.work hj rfl rfl id fun id batch hbatch => h.replies _ _ id batch hj hbatch
  | @start j job hj stage =>
    refine h.work hj rfl rfl id ?_
    intro id batch hbatch
    rcases job.start_stage with hstage | hstage <;> simp [Job.batch, hstage] at hbatch
  | @complete j job batch batches response hj stage named remaining reads =>
    refine h.work hj rfl rfl (by simp [remaining]) ?_
    intro id documents hbatch hthere
    simp only [Job.batch, Job.reply, reads, Except.toOption, Option.some.injEq, Prod.mk.injEq] at hbatch
    rw [← hbatch.1, idOf, if_neg]
    rintro rfl
    exact hthere rfl
  | interrupt hj stage =>
    refine h.work hj rfl rfl (fun hthere => absurd rfl hthere) ?_
    intro id batch hbatch
    cases hbatch
  | @fail j job reply remaining hj stage refused kept =>
    refine h.work hj rfl rfl ?_ ?_
    · rcases kept with rfl | rfl
      · exact id
      · exact fun hthere => absurd rfl hthere
    · intro id batch hbatch
      rw [Job.batch_of_refused refused] at hbatch
      cases hbatch
  | @send j job reply hj stage =>
    refine h.work hj rfl rfl id ?_
    intro id batch hbatch
    apply h.replies j job id batch hj
    rw [← hbatch]
    cases reply <;> simp only [Job.batch, stage]

/-- A worker's step leaves the `Cursor` as it is, and the server's cursor destroyed if it was. -/
theorem Step.background {a : Act} (hs : Step server decode s a s') (worker : a.background = true) :
    s'.cursor = s.cursor ∧ (s.remaining = none → s'.remaining = none) := by
  cases hs with
  | next | receive | drop => cases worker
  | start | send => exact ⟨rfl, id⟩
  | complete _ _ _ remaining => exact ⟨rfl, fun hnone => by rw [hnone] at remaining; cases remaining⟩
  | interrupt => exact ⟨rfl, fun _ => rfl⟩
  | fail _ _ _ kept => exact ⟨rfl, fun hnone => by rcases kept with rfl | rfl <;> simp [hnone]⟩

/-! ## The whole call -/

/-- Where the id of the server's cursor is. -/
def Phase.Sound (server : Int64) : Phase T → Prop
  | .calling o | .abandoned o => o.Sound server
  | .failed remaining => remaining = none
  | .holding s => Live server s
  | .released s kills => s.remaining = none ∨ kills = [killCursorsCommand s.cursor.collection server]

variable {database collection : String} {command : Document} {p p' : Phase T}

/-- A reply that arrives is read into a `Cursor` that has the id, or there is no cursor. -/
theorem Landed.received {remaining : Option (List (List Document))} {reply : Except Error Document}
    (h : Landed server remaining reply) : Phase.Sound (T := T) server (.received database collection remaining reply) := by
  rcases h with ⟨unread, hnone⟩ | ⟨response, first, rest, rfl, hreads, hremaining⟩
  · cases reply with
    | error e => exact hnone
    | ok response =>
      obtain ⟨e, he⟩ := unread response rfl
      simpa only [Phase.received, Cursor.fromResponse, he, Phase.Sound] using hnone
  · simp only [Phase.received, Cursor.fromResponse, hreads]
    constructor
    · intro hthere
      rw [hremaining] at hthere
      show idOf server rest = server
      rw [idOf, if_neg]
      rintro rfl
      exact hthere rfl
    · intro j job id batch hj
      cases hj

theorem Phase.Sound.step (hserver : server ≠ 0) {a : Phase.Act} (h : p.Sound server)
    (hs : Phase.Step database collection server decode p a p') : p'.Sound server := by
  cases hs with
  | work hs => exact Opening.Sound.step h hs
  | workAbandoned hs => exact Opening.Sound.step h hs
  | receive stage =>
    simp only [Phase.Sound, Opening.Sound, stage] at h
    exact h.received
  | drop => exact h
  | use hs => exact Live.step h hs
  | @dropCursor s idle =>
    cases hremaining : s.remaining with
    | none => exact .inl hremaining
    | some batches =>
      right
      have hid : s.cursor.id = server := Live.cursor h (by simp [hremaining])
      rw [Cursor.drop, hid, if_neg hserver]
  | background hs worker =>
    obtain ⟨hcursor, hnone⟩ := hs.background worker
    simp only [Phase.Sound, hcursor]
    exact h.imp_left hnone
  | kill queued => exact .inl rfl

theorem sound_of_reach (hserver : server ≠ 0) (h : (call database collection command server decode).Reach p) :
    p.Sound server := by
  apply h.induct
  · rintro p rfl
    exact rfl
  · intro p a p' _ hsound hs
    exact hsound.step hserver hs

/-- **A server's cursor is accounted for unless its call was dropped with the reply.** Once the
call and the `Cursor` it may have produced are gone, a cursor the engine opened for the call is
exhausted, destroyed or named in a `killCursors` that was queued, if and only if the call was not
dropped after its command completed and before it had a reply that carried the id. -/
theorem server_cursor_is_accounted_for_iff (hserver : server ≠ 0)
    (h : (call database collection command server decode).Reach p) (gone : p.Over) :
    p.Accounted server ↔ ¬ p.Orphaned := by
  have hsound := sound_of_reach hserver h
  cases p with
  | calling | holding => exact gone.elim
  | failed | released => exact iff_of_true hsound id
  | abandoned o =>
    rcases gone with hstage | ⟨reply, hstage⟩
    · simp only [Phase.Sound, Opening.Sound, hstage] at hsound
      exact iff_of_true hsound (by simp [Phase.Orphaned, hstage])
    · simp only [Phase.Sound, Opening.Sound, hstage] at hsound
      rcases hsound with ⟨unread, hnone⟩ | ⟨response, first, rest, rfl, hreads, hremaining⟩
      · apply iff_of_true hnone
        rintro ⟨response, id, documents, hsent, hreads, -⟩
        obtain ⟨e, he⟩ := unread response (Stage.sent.inj (hstage.symm.trans hsent))
        rw [he] at hreads
        cases hreads
      · simp only [Phase.Accounted, Phase.Orphaned, hremaining, left_eq_none_iff hserver, hstage, Stage.sent.injEq,
          Except.ok.injEq]
        constructor
        · rintro hzero ⟨_, id, documents, rfl, hagain, hid⟩
          rw [hreads] at hagain
          cases hagain
          exact hid hzero
        · intro hnot
          by_cases hid : idOf server rest = 0
          · exact hid
          · exact absurd ⟨response, _, first, rfl, hreads, hid⟩ hnot

/-- The opening command of cursor `7` is over and its reply sent, with a batch left on the server. -/
def Opening.sent : Opening where
  job :=
    { Job.new "db" [("find", .string "c")] with
      slot := .finished
      stage := .sent (.ok (cursorReply "firstBatch" 7 [numbered 0])) }
  remaining := some [[numbered 1]]

theorem reach_sent : (call "db" "c" [("find", .string "c")] 7 Except.ok).Reach (.calling .sent) := by
  have hreads : takeCursorBatch (cursorReply "firstBatch" 7 [numbered 0]) "firstBatch" =
      .ok (idOf 7 [[numbered 1]], [numbered 0]) := takeCursorBatch_cursorReply _ _ _
  have h : (call "db" "c" [("find", .string "c")] 7 Except.ok).Reach
      (.calling { job := .new "db" [("find", .string "c")], remaining := none }) := .init rfl
  have h := h.next (.work (.start rfl))
  have h := h.next (.work (.complete rfl hreads))
  have h := h.next (.work (.send rfl))
  exact h

/-- A call that has its cursor, and drops it unread. -/
theorem server_cursor_is_accounted_for_iff_of_a_dropped_cursor :
    ∃ p : Phase Document, (call "db" "c" [("find", .string "c")] 7 Except.ok).Reach p ∧ p.Over ∧
      (∃ s, p = .released s [killCursorsCommand "c" 7] ∧ s.remaining = some [[numbered 1]]) ∧ p.Accounted 7 := by
  have h := reach_sent.next (.receive rfl)
  have h := h.next (.dropCursor rfl)
  exact ⟨_, h, trivial, ⟨_, rfl, rfl⟩, (server_cursor_is_accounted_for_iff (by decide) h trivial).2 id⟩

/-- A call dropped after its command completed and before it took the reply: the command is over, so
there is nothing to interrupt, and nobody has the id of the cursor. -/
theorem dropped_call_orphans_a_server_cursor :
    ∃ p : Phase Document, (call "db" "c" [("find", .string "c")] 7 Except.ok).Reach p ∧ p.Over ∧
      (∃ o, p = .abandoned o ∧ o.remaining = some [[numbered 1]]) ∧ ¬ p.Accounted 7 :=
  ⟨_, reach_sent.next .drop, .inr ⟨_, rfl⟩, ⟨_, rfl, rfl⟩, nofun⟩

end EmbeddedMongo.Nonblocking.Find
