import EmbeddedMongo.Nonblocking.Find

/-!
# What the calls of an async cursor answer

A reader that is told of a batch only by a reply, and a server that forgets a batch when it has
replied, stay in step as long as every reply to a `getMore` that completed is received. A call
dropped after its `getMore` completed, or a `getMore` that completes after its call was dropped,
takes a batch from the server that no call will ever answer.
-/

namespace EmbeddedMongo.Nonblocking.Find

open Conc

variable {T : Type} {server : Int64} {decode : Document → Except Error T} {batches : List (List Document)}

/-- What a consumer is promised: the documents in order from the first one on, without gaps,
then at most one error, then `None`s; and without an error, `None` only after all of them. -/
def Paged (decode : Document → Except Error T) (all : List Document) (answers : List (Option (Except Error T))) :
    Prop :=
  ∃ (yielded : List Document) (nones : Nat), yielded <+: all ∧
    (answers = yielded.map (fun d => some (decode d)) ++ List.replicate nones none ∧ (0 < nones → yielded = all) ∨
      ∃ e, answers = yielded.map (fun d => some (decode d)) ++ some (.error e) :: List.replicate nones none)

/-- A document answered stands at its own place in the batches. -/
theorem Paged.document {all : List Document} {answers : List (Option (Except Error T))} (h : Paged decode all answers)
    {i : Nat} {t : T} (ha : answers[i]? = some (some (.ok t))) : ∃ d, all[i]? = some d ∧ decode d = .ok t := by
  obtain ⟨yielded, nones, ⟨rest, rfl⟩, h⟩ := h
  have htail : ∃ tail : List (Option (Except Error T)), answers = yielded.map (fun d => some (decode d)) ++ tail ∧
      some (.ok t) ∉ tail := by
    rcases h with ⟨rfl, -⟩ | ⟨e, rfl⟩
    · exact ⟨_, rfl, by simp⟩
    · exact ⟨_, rfl, by simp⟩
  obtain ⟨tail, rfl, hnot⟩ := htail
  by_cases hi : i < yielded.length
  · rw [List.getElem?_append_left (by simpa using hi), List.getElem?_map] at ha
    obtain ⟨d, hd, hdecode⟩ := Option.map_eq_some_iff.1 ha
    exact ⟨d, by rw [List.getElem?_append_left hi, hd], Option.some.inj hdecode⟩
  · rw [List.getElem?_append_right (by simp; omega)] at ha
    exact absurd (List.mem_of_getElem? ha) hnot

/-- The batch a job has fetched and not delivered. -/
def Job.batch (job : Job) : Option (Int64 × List Document) :=
  match job.stage with
  | .replied (.ok response) | .sent (.ok response) => (takeCursorBatch response "nextBatch").toOption
  | .replied (.error _) | .sent (.error _) | .queued | .running | .over => none

/-- The batch on its way to the current call. -/
def Sys.inFlight (s : Sys T) : Option (Int64 × List Document) :=
  s.awaiting.bind fun j => s.jobs[j]?.bind Job.batch

/-- A cursor whose id is `id` has the documents `rest` still before it, if the server has what it
should: with no id there are none, and what the server has left is all of them. -/
structure Known (id : Int64) (rest : List Document) (remaining : Option (List (List Document))) : Prop where
  exhausted : id = 0 → rest = []
  left : ∀ batches, remaining = some batches → rest = batches.flatten

/-- A reader that has been told of no error: what it has yielded, has in hand and has before it
is all there is. -/
structure Reading (decode : Document → Except Error T) (all : List Document) (s : Sys T) (yielded rest : List Document)
    (nones : Nat) : Prop where
  answers : s.answers = yielded.map (fun d => some (decode d)) ++ List.replicate nones none
  all : all = yielded ++ s.cursor.documents ++ rest
  ended : 0 < nones ∨ s.cursor.finished = true →
    s.cursor.documents = [] ∧ rest = [] ∧ s.awaiting = none ∧ s.cursor.finished = true
  awaiting : s.awaiting ≠ none → s.cursor.documents = []
  landed : s.inFlight = none → Known s.cursor.id rest s.remaining
  flying : ∀ id batch, s.inFlight = some (id, batch) → ∃ after, rest = batch ++ after ∧ Known id after s.remaining

/-- A reader that has answered an error: it answers nothing but `None` any more. -/
structure Failed (decode : Document → Except Error T) (all : List Document) (s : Sys T) : Prop where
  answers : ∃ yielded e nones, yielded <+: all ∧
    s.answers = yielded.map (fun d => some (decode d)) ++ some (.error e) :: List.replicate nones none
  documents : s.cursor.documents = []
  finished : s.cursor.finished = true
  awaiting : s.awaiting = none

def Paging (decode : Document → Except Error T) (all : List Document) (s : Sys T) : Prop :=
  (∃ yielded rest nones, Reading decode all s yielded rest nones) ∨ Failed decode all s

theorem Known.destroyed {id : Int64} {rest : List Document} {remaining remaining' : Option (List (List Document))}
    (h : Known id rest remaining) (hr : remaining' = remaining ∨ remaining' = none) : Known id rest remaining' := by
  refine ⟨h.exhausted, fun batches hb => ?_⟩
  rcases hr with rfl | rfl
  · exact h.left batches hb
  · cases hb

theorem known_left (hserver : server ≠ 0) (batches : List (List Document)) :
    Known (idOf server batches) batches.flatten (left batches) := by
  unfold idOf left
  split
  · rename_i hnil
    subst hnil
    exact ⟨fun _ => rfl, nofun⟩
  · refine ⟨fun h => absurd h hserver, fun batches' hb => ?_⟩
    rw [Option.some.inj hb]

theorem Paging.paged {all : List Document} {s : Sys T} (h : Paging decode all s) : Paged decode all s.answers := by
  rcases h with ⟨yielded, rest, nones, h⟩ | h
  · refine ⟨yielded, nones, ⟨s.cursor.documents ++ rest, ?_⟩, .inl ⟨h.answers, fun hnones => ?_⟩⟩
    · rw [h.all, List.append_assoc]
    · obtain ⟨hdocuments, hrest, -⟩ := h.ended (.inl hnones)
      rw [h.all, hdocuments, hrest]
      simp
  · obtain ⟨yielded, e, nones, hprefix, hanswers⟩ := h.answers
    exact ⟨yielded, nones, hprefix, .inr ⟨e, hanswers⟩⟩

/-! ## The task -/

theorem Failed.turn {all : List Document} {s : Sys T} (h : Failed decode all s) (accepted : Bool) :
    Failed decode all (s.turn accepted (s.cursor.next decode)) := by
  obtain ⟨yielded, e, nones, hprefix, hanswers⟩ := h.answers
  have hnext : s.cursor.next decode = (.answer none, { s.cursor with finished := true }) := by
    simp [Cursor.next, h.documents, h.finished]
  rw [hnext]
  refine ⟨⟨yielded, e, nones + 1, hprefix, ?_⟩, h.documents, rfl, rfl⟩
  simp [Sys.turn, hanswers, List.replicate_succ']

/-- An error is answered in the place of the next document. -/
theorem Reading.fail {all yielded rest : List Document} {s s' : Sys T} {nones : Nat} {e : Error}
    (h : Reading decode all s yielded rest nones) (unfinished : s.cursor.finished ≠ true)
    (documents : s'.cursor.documents = []) (finished : s'.cursor.finished = true) (awaiting : s'.awaiting = none)
    (answers : s'.answers = s.answers ++ [some (.error e)]) : Failed decode all s' := by
  have hnones : nones = 0 := by
    by_cases hpos : 0 < nones
    · exact absurd (h.ended (.inl hpos)).2.2.2 unfinished
    · omega
  refine ⟨⟨yielded, e, 0, ⟨s.cursor.documents ++ rest, ?_⟩, ?_⟩, documents, finished, awaiting⟩
  · rw [h.all, List.append_assoc]
  · simp [answers, h.answers, hnones]

/-- The loop of `next` with nothing in flight. -/
theorem Reading.turn {all yielded rest : List Document} {s : Sys T} {nones : Nat}
    (h : Reading decode all s yielded rest nones) (idle : s.awaiting = none) (accepted : Bool) :
    Paging decode all (s.turn accepted (s.cursor.next decode)) := by
  have hknown : Known s.cursor.id rest s.remaining := h.landed (by simp [Sys.inFlight, idle])
  unfold Cursor.next
  cases hdocuments : s.cursor.documents with
  | cons document documents =>
    have hlive : ¬ (0 < nones ∨ s.cursor.finished = true) := by
      intro hended
      have := (h.ended hended).1
      simp [hdocuments] at this
    obtain ⟨hnones, hunfinished⟩ := not_or.1 hlive
    have hzero : nones = 0 := by omega
    refine .inl ⟨yielded ++ [document], rest, 0, ?_⟩
    refine ⟨?_, ?_, fun hended => ?_, fun hne => absurd rfl hne, fun _ => hknown, nofun⟩
    · simp [Sys.turn, h.answers, hzero]
    · rw [h.all, hdocuments]
      simp [Sys.turn]
    · rcases hended with hpos | hfinished
      · omega
      · exact absurd hfinished hunfinished
  | nil =>
    dsimp only
    split
    · rename_i hstop
      have hrest : rest = [] := by
        rcases hstop with hfinished | hid
        · exact (h.ended (.inr hfinished)).2.1
        · exact hknown.exhausted hid
      refine .inl ⟨yielded, rest, nones + 1, ?_⟩
      refine ⟨?_, ?_, fun _ => ⟨rfl, hrest, rfl, rfl⟩, fun hne => absurd rfl hne, fun _ => hknown, nofun⟩
      · simp [Sys.turn, h.answers, List.replicate_succ']
      · rw [h.all, hdocuments]
        rfl
    · rename_i hgo
      obtain ⟨hunfinished, -⟩ := not_or.1 hgo
      cases accepted with
      | false => exact .inr (h.fail hunfinished hdocuments rfl rfl rfl)
      | true =>
        refine .inl ⟨yielded, rest, nones, ?_⟩
        refine ⟨h.answers, h.all, fun hended => ?_, fun _ => hdocuments, fun _ => hknown, fun id batch hflight => ?_⟩
        · rcases hended with hpos | hfinished
          · exact absurd (h.ended (.inl hpos)).2.2.2 hunfinished
          · exact absurd hfinished hunfinished
        · -- the job just queued has fetched nothing
          simp [Sys.turn, Sys.inFlight, Job.new, Job.batch] at hflight

/-- The current call receives the reply to its `getMore`. -/
theorem Reading.receive {all yielded rest : List Document} {s : Sys T} {nones j : Nat} {job : Job}
    {reply : Except Error Document} {jobs : List Job} (h : Reading decode all s yielded rest nones)
    (awaiting : s.awaiting = some j) (hj : s.jobs[j]? = some job) (stage : job.stage = .sent reply) (accepted : Bool) :
    Paging decode all (Sys.turn accepted { s with jobs := jobs } (s.cursor.fetched decode reply)) := by
  have hawaiting : s.awaiting ≠ none := by simp [awaiting]
  have hunfinished : s.cursor.finished ≠ true := by
    intro hfinished
    exact hawaiting (h.ended (.inr hfinished)).2.2.1
  have hnones : nones = 0 := by
    by_cases hpos : 0 < nones
    · exact absurd (h.ended (.inl hpos)).2.2.1 hawaiting
    · omega
  have hdocuments := h.awaiting hawaiting
  unfold Cursor.fetched
  cases reply with
  | error e => exact .inr (h.fail hunfinished hdocuments rfl rfl rfl)
  | ok response =>
    dsimp only
    cases hreads : takeCursorBatch response "nextBatch" with
    | error e => exact .inr (h.fail hunfinished hdocuments rfl rfl rfl)
    | ok fetched =>
      obtain ⟨id, batch⟩ := fetched
      have hflight : s.inFlight = some (id, batch) := by
        simp [Sys.inFlight, awaiting, hj, Job.batch, stage, hreads, Except.toOption]
      obtain ⟨after, hrest, hknown⟩ := h.flying id batch hflight
      -- with the batch in hand the loop goes on as a call of its own would
      let landed : Sys T := { s with
        cursor := { s.cursor with id := id, documents := batch }, awaiting := none, jobs := jobs }
      have hlanded : Reading decode all landed yielded after nones := by
        refine ⟨h.answers, ?_, fun hended => ?_, fun hne => absurd rfl hne, fun _ => hknown, nofun⟩
        · rw [h.all, hdocuments, hrest]
          simp [landed]
        · rcases hended with hpos | hfinished
          · omega
          · exact absurd hfinished hunfinished
      exact hlanded.turn rfl accepted

/-! ## The worker -/

theorem Job.start_stage (job : Job) : job.start.stage = .running ∨ job.start.stage = .over := by
  unfold Job.start
  split
  · exact .inl rfl
  · exact .inr rfl

theorem Job.batch_of_refused {job : Job} {reply : Except Error Document} (refused : Refused reply) :
    (job.reply reply).batch = none := by
  cases reply with
  | error e => rfl
  | ok response =>
    obtain ⟨e, he⟩ := refused response rfl
    simp [Job.batch, Job.reply, he, Except.toOption]

/-- The awaited job, or another, moves on without a batch of its own to show for it. -/
theorem Sys.inFlight_set {s s' : Sys T} {j : Nat} {job job' : Job} (hj : s.jobs[j]? = some job)
    (jobs : s'.jobs = s.jobs.set j job') (awaiting : s'.awaiting = s.awaiting) (same : job'.batch = job.batch) :
    s'.inFlight = s.inFlight := by
  obtain ⟨hlt, -⟩ := List.getElem?_eq_some_iff.1 hj
  unfold Sys.inFlight
  rw [awaiting, jobs]
  cases s.awaiting with
  | none => rfl
  | some i =>
    simp only [Option.bind_some]
    by_cases hij : j = i
    · subst hij
      rw [List.getElem?_set_self hlt, hj]
      exact same
    · rw [List.getElem?_set_ne hij]

theorem Reading.work {all yielded rest : List Document} {s s' : Sys T} {nones : Nat}
    (h : Reading decode all s yielded rest nones) (cursor : s'.cursor = s.cursor) (awaiting : s'.awaiting = s.awaiting)
    (answers : s'.answers = s.answers) (inFlight : s'.inFlight = s.inFlight)
    (remaining : s'.remaining = s.remaining ∨ s'.remaining = none) : Reading decode all s' yielded rest nones where
  answers := answers ▸ h.answers
  all := cursor ▸ h.all
  ended := by rw [cursor, awaiting]; exact h.ended
  awaiting := by rw [cursor, awaiting]; exact h.awaiting
  landed hnone := by
    rw [cursor]
    exact (h.landed (inFlight ▸ hnone)).destroyed remaining
  flying id batch hsome := by
    obtain ⟨after, hrest, hknown⟩ := h.flying id batch (inFlight ▸ hsome)
    exact ⟨after, hrest, hknown.destroyed remaining⟩

theorem Failed.work {all : List Document} {s s' : Sys T} (h : Failed decode all s) (cursor : s'.cursor = s.cursor)
    (awaiting : s'.awaiting = s.awaiting) (answers : s'.answers = s.answers) : Failed decode all s' :=
  ⟨answers ▸ h.answers, cursor ▸ h.documents, cursor ▸ h.finished, awaiting ▸ h.awaiting⟩

theorem Paging.work {all : List Document} {s s' : Sys T} {j : Nat} {job job' : Job} (h : Paging decode all s)
    (hj : s.jobs[j]? = some job) (jobs : s'.jobs = s.jobs.set j job') (same : job'.batch = job.batch)
    (cursor : s'.cursor = s.cursor) (awaiting : s'.awaiting = s.awaiting) (answers : s'.answers = s.answers)
    (remaining : s'.remaining = s.remaining ∨ s'.remaining = none) : Paging decode all s' := by
  rcases h with ⟨yielded, rest, nones, h⟩ | h
  · exact .inl ⟨yielded, rest, nones,
      h.work cursor awaiting answers (Sys.inFlight_set hj jobs awaiting same) remaining⟩
  · exact .inr (h.work cursor awaiting answers)

/-- A call is dropped only while nothing is on its way to it, and a `getMore` completes only
while its call is waiting for it. -/
structure Kept (s : Sys T) (a : Act) : Prop where
  drop : a = .drop → s.inFlight = none
  complete : ∀ j, a = .complete j → s.awaiting = some j

theorem Paging.step (hserver : server ≠ 0) {all : List Document} {s s' : Sys T} {a : Act} (h : Paging decode all s)
    (hkept : Kept s a) (hs : Step server decode s a s') : Paging decode all s' := by
  cases hs with
  | next accepted idle =>
    rcases h with ⟨yielded, rest, nones, h⟩ | h
    · exact h.turn idle accepted
    · exact .inr (h.turn accepted)
  | receive accepted awaiting hj stage =>
    rcases h with ⟨yielded, rest, nones, h⟩ | h
    · exact h.receive awaiting hj stage accepted
    · rw [h.awaiting] at awaiting
      cases awaiting
  | drop awaiting hj =>
    rcases h with ⟨yielded, rest, nones, h⟩ | h
    · have hknown := h.landed (hkept.drop rfl)
      refine .inl ⟨yielded, rest, nones, h.answers, h.all, fun hended => ?_, fun hne => absurd rfl hne, fun _ => hknown,
        nofun⟩
      obtain ⟨hdocuments, hrest, -, hfinished⟩ := h.ended hended
      exact ⟨hdocuments, hrest, rfl, hfinished⟩
    · rw [h.awaiting] at awaiting
      cases awaiting
  | @start j job hj stage =>
    refine h.work hj rfl ?_ rfl rfl rfl (.inl rfl)
    rcases job.start_stage with hstage | hstage <;> simp [Job.batch, hstage, stage]
  | @complete j job batch batches response hj stage named remaining reads =>
    have hawaiting := hkept.complete j rfl
    obtain ⟨hlt, -⟩ := List.getElem?_eq_some_iff.1 hj
    rcases h with ⟨yielded, rest, nones, h⟩ | h
    · have hnone : s.inFlight = none := by simp [Sys.inFlight, hawaiting, hj, Job.batch, stage]
      have hrest := (h.landed hnone).left _ remaining
      refine .inl ⟨yielded, rest, nones, h.answers, h.all, h.ended, h.awaiting, fun hland => ?_, fun id batch' hflight => ?_⟩
      · simp [Sys.inFlight, hawaiting, hlt, Job.batch, Job.reply, reads, Except.toOption] at hland
      · simp only [Sys.inFlight, hawaiting, Option.bind_some, List.getElem?_set_self hlt, Job.batch, Job.reply, reads,
          Except.toOption, Option.some.injEq, Prod.mk.injEq] at hflight
        obtain ⟨rfl, rfl⟩ := hflight
        exact ⟨batches.flatten, hrest, known_left hserver batches⟩
    · rw [h.awaiting] at hawaiting
      cases hawaiting
  | interrupt hj stage => exact h.work hj rfl (by simp [Job.batch, stage]) rfl rfl rfl (.inr rfl)
  | @fail j job reply remaining hj stage refused kept =>
    refine h.work hj rfl ?_ rfl rfl rfl kept
    have hnone : job.batch = none := by rcases stage with stage | stage <;> simp [Job.batch, stage]
    rw [hnone, Job.batch_of_refused refused]
  | send hj stage =>
    refine h.work hj rfl ?_ rfl rfl rfl (.inl rfl)
    simp only [Job.batch, stage]
    split <;> simp_all

theorem Paging.initial (hserver : server ≠ 0) {s : Sys T} (h : Opened server batches s) :
    Paging decode batches.flatten s := by
  obtain ⟨database, collection, response, first, rest, hbatches, hreads, hcursor, hremaining⟩ := h.cursor
  simp only [Cursor.fromResponse, hreads, Except.ok.injEq] at hcursor
  refine .inl ⟨[], rest.flatten, 0, ?_⟩
  refine ⟨by simp [h.answers], ?_, ?_, fun hne => absurd h.awaiting hne, fun _ => ?_, fun id batch hflight => ?_⟩
  · simp [hbatches, ← hcursor]
  · simp [← hcursor]
  · rw [← hcursor, hremaining]
    exact known_left hserver rest
  · simp [Sys.inFlight, h.awaiting] at hflight

/-- **A cursor reads without gaps as long as no completed `getMore` loses its call.** In every
state of a run in which no call is dropped with its batch on the way to it, and no `getMore`
completes whose call was dropped, the calls that completed have answered the documents in order
from the first one on, then at most one error, then `None`s; and `None` without an error only
after all of them. -/
theorem a_cursor_reads_without_gaps (hserver : server ≠ 0) {s : Sys T}
    (h : (reader server batches decode).ReachIf Kept s) : Paged decode batches.flatten s.answers := by
  refine (System.ReachIf.induct (I := Paging decode batches.flatten) (fun s hi => ?_)
    (fun s a s' hr hi hkept hs => ?_) h).paged
  · exact Paging.initial hserver hi
  · exact hi.step hserver hkept hs

/-- A document for the runs below. -/
def numbered (n : Int32) : Document := [("n", .int32 n)]

/-- The cursor `7` just opened, with `first` in hand and `rest` to come. -/
def Sys.opened (first : List Document) (rest : List (List Document)) : Sys Document where
  remaining := left rest
  cursor := { database := "db", collection := "c", id := idOf 7 rest, documents := first, finished := false }
  awaiting := none
  jobs := []
  answers := []

theorem opened_opened (first : List Document) (rest : List (List Document)) :
    Opened 7 (first :: rest) (Sys.opened first rest) where
  cursor := by
    have hreads := takeCursorBatch_cursorReply "firstBatch" (idOf 7 rest) first
    refine ⟨"db", "c", _, first, rest, rfl, hreads, ?_, rfl⟩
    simp only [Cursor.fromResponse, hreads]
    rfl
  awaiting := rfl
  jobs := rfl
  answers := rfl

/-- A call dropped while its `getMore` is queued, and one that waits for it: nothing is lost. -/
theorem a_cursor_reads_without_gaps_past_a_dropped_call :
    ∃ s : Sys Document,
      (reader 7 [[numbered 0], [numbered 1]] Except.ok).ReachIf Kept s ∧
      s.answers = [some (.ok (numbered 0)), some (.ok (numbered 1)), none] ∧
      Paged Except.ok [numbered 0, numbered 1] s.answers := by
  have other : ∀ (s : Sys Document) (a : Act), a ≠ .drop → (∀ j, a ≠ .complete j) → Kept s a :=
    fun s a hdrop hcomplete => ⟨fun h => absurd h hdrop, fun j h => absurd h (hcomplete j)⟩
  have h : (reader 7 [[numbered 0], [numbered 1]] Except.ok).ReachIf Kept (Sys.opened [numbered 0] [[numbered 1]]) :=
    .init (opened_opened _ _)
  have h := h.step (.next true rfl) (other _ _ nofun nofun)
  have h := h.step (.next true rfl) (other _ _ nofun nofun)
  have h := h.step (.drop (j := 0) rfl rfl) ⟨fun _ => rfl, nofun⟩
  have h := h.step (.start (j := 0) rfl rfl) (other _ _ nofun nofun)
  have h := h.step (.next true rfl) (other _ _ nofun nofun)
  have h := h.step (.start (j := 1) rfl rfl) (other _ _ nofun nofun)
  have h := h.step (.complete (j := 1) rfl rfl rfl rfl (takeCursorBatch_cursorReply _ _ _))
    ⟨nofun, fun _ hj => by cases hj; rfl⟩
  have h := h.step (.send (j := 1) rfl rfl) (other _ _ nofun nofun)
  have h := h.step (.receive (j := 1) true rfl rfl rfl) (other _ _ nofun nofun)
  have h := h.step (.next true rfl) (other _ _ nofun nofun)
  exact ⟨_, h, rfl, a_cursor_reads_without_gaps (by decide) h⟩

/-- A call dropped after its `getMore` has completed: the reply is discarded with the batch, the
next `getMore` fetches the one after it, and the calls answer the first and the third document. -/
theorem a_cursor_loses_the_batch_of_a_dropped_call :
    ∃ s : Sys Document,
      (reader 7 [[numbered 0], [numbered 1], [numbered 2]] Except.ok).Reach s ∧
      s.answers = [some (.ok (numbered 0)), some (.ok (numbered 2))] ∧
      ¬ Paged Except.ok [numbered 0, numbered 1, numbered 2] s.answers := by
  have h : (reader 7 [[numbered 0], [numbered 1], [numbered 2]] Except.ok).Reach
      (Sys.opened [numbered 0] [[numbered 1], [numbered 2]]) := .init (opened_opened _ _)
  have h := h.next (.next true rfl)
  have h := h.next (.next true rfl)
  have h := h.next (.start (j := 0) rfl rfl)
  have h := h.next (.complete (j := 0) rfl rfl rfl rfl (takeCursorBatch_cursorReply _ _ _))
  have h := h.next (.drop (j := 0) rfl rfl)
  have h := h.next (.next true rfl)
  have h := h.next (.start (j := 1) rfl rfl)
  have h := h.next (.complete (j := 1) rfl rfl rfl rfl (takeCursorBatch_cursorReply _ _ _))
  have h := h.next (.send (j := 1) rfl rfl)
  have h := h.next (.receive (j := 1) true rfl rfl rfl)
  have hanswers : ¬ Paged Except.ok [numbered 0, numbered 1, numbered 2]
      [some (.ok (numbered 0)), some (.ok (numbered 2))] := by
    intro hpaged
    obtain ⟨d, hd, hdecode⟩ := hpaged.document (i := 1) rfl
    cases hd
    simp [numbered] at hdecode
  exact ⟨_, h, rfl, hanswers⟩

end EmbeddedMongo.Nonblocking.Find
