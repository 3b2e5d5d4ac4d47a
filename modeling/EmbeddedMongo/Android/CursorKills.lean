import EmbeddedMongo.Android.CursorFlow

/-!
# The cursor behind a document flow

From the reply to its opening command on the flow has an id to kill, whatever becomes of it. Before
that it has none: a reply discarded on the way back takes with it the only mention of a cursor the
engine holds.
-/

namespace EmbeddedMongo.Android.CursorFlow

open Conc

/-- The cursor the engine holds is the one the flow knows of by `known`, or was given another id by
a reply that never arrived. -/
def Owned (server : Option ServerCursor) (discarded : Option (Int64 × Int64)) (collection : String) (known : Int64) :
    Prop :=
  match discarded with
  | none => server = none ∨ server = held collection known
  | some (was, id) => was = known ∧ server = held collection id

/-- The `killCursors` due for the id a flow knows. -/
def due (collection : String) (known : Int64) : List Document :=
  if known = 0 then [] else [killCursors collection known]

/-- The cursor the engine still holds, if it does, has been sent exactly one `killCursors`. -/
def Clean (s : Sys) : Prop := ∀ cursor, s.server = some cursor → s.kills = [killCursors cursor.collection cursor.id]

/-- The engine holds a cursor under an id that is not zero. -/
theorem held_eq_some {collection : String} {id : Int64} {cursor : ServerCursor} (h : held collection id = some cursor) :
    cursor = ⟨collection, id⟩ ∧ id ≠ 0 := by
  unfold held at h
  split at h
  · cases h
  · exact ⟨(Option.some.inj h).symm, ‹_›⟩

theorem killCursors_inj {collection : String} {id known : Int64}
    (h : [killCursors collection known] = [killCursors collection id]) : known = id := by
  simpa [killCursors] using h

/-- One `killCursors` is due at most. -/
theorem length_due_le (collection : String) (known : Int64) : (due collection known).length ≤ 1 := by
  unfold due
  split <;> simp

/-- A flow that knew the id the engine's cursor has, or whose cursor is exhausted, is a clean one. -/
theorem Owned.clean_iff {s : Sys} {collection : String} {known : Int64} (owned : Owned s.server s.discarded collection known)
    (kills : s.kills = due collection known) :
    Clean s ↔ ∀ was id, s.discarded = some (was, id) → id = 0 ∨ id = was := by
  unfold Owned at owned
  cases hdiscarded : s.discarded with
  | none =>
    rw [hdiscarded] at owned
    apply iff_of_true ?_ nofun
    intro cursor hcursor
    rcases owned with hnone | hheld
    · rw [hnone] at hcursor
      cases hcursor
    · obtain ⟨rfl, hid⟩ := held_eq_some (hheld.symm.trans hcursor)
      rw [kills, due, if_neg hid]
  | some lost =>
    obtain ⟨was, id⟩ := lost
    rw [hdiscarded] at owned
    obtain ⟨rfl, hserver⟩ := owned
    constructor
    · rintro hclean _ _ ⟨⟩
      by_cases hid : id = 0
      · exact .inl hid
      · right
        have hkills := kills.symm.trans (hclean ⟨collection, id⟩ (hserver.trans (if_neg hid)))
        unfold due at hkills
        split at hkills
        · cases hkills
        · exact (killCursors_inj hkills).symm
    · intro hlost cursor hcursor
      obtain ⟨rfl, hid⟩ := held_eq_some (hserver.symm.trans hcursor)
      obtain rfl : id = was := (hlost was id rfl).resolve_left hid
      rw [kills, due, if_neg hid]

/-! ## Where a flow can be -/

theorem outcome_ne_ok (failure : Throwable) (answer : Except Throwable Unit) : outcome (some failure) answer ≠ .ok () := by
  cases answer <;> simp [outcome]

section

variable [ToLong]

/-- Where a flow can be, and what it and the engine have by then. -/
inductive Placed : Sys → Prop where
  | opening {cancelled : Bool} :
      Placed { Sys.initial with cancelled := cancelled }
  | openErr {cancelled : Bool} {e : Throwable} :
      Placed { Sys.initial with cancelled := cancelled, reply := some (.error e) }
  | openOk {cancelled : Bool} {response : Document} {collection : String} {id : Int64} {batch : List Document}
      (reads : CursorPaging.new response = .ok ⟨collection, id, some batch⟩) :
      Placed
        { Sys.initial with
          cancelled := cancelled
          reply := some (.ok response)
          server := held collection id
          given := [batch] }
  | emitting {cancelled : Bool} {c : CursorPaging} {document : Document} {rest : List Document}
      {given : List (List Document)} {emitted : List Document} (flows : given.flatten = emitted ++ document :: rest) :
      Placed
        { Sys.initial with
          stage := .emitting c document rest
          cancelled := cancelled
          server := held c.collection c.id
          given := given
          emitted := emitted }
  | fetching {cancelled : Bool} {c : CursorPaging} {given : List (List Document)} {emitted : List Document}
      (flows : given.flatten = emitted) :
      Placed
        { Sys.initial with
          stage := .fetching c
          cancelled := cancelled
          server := held c.collection c.id
          given := given
          emitted := emitted }
  | fetchErr {cancelled : Bool} {c : CursorPaging} {e : Throwable} {server : Option ServerCursor}
      {given : List (List Document)} {emitted : List Document} (kept : server = held c.collection c.id ∨ server = none)
      (flows : given.flatten = emitted) :
      Placed
        { Sys.initial with
          stage := .fetching c
          cancelled := cancelled
          reply := some (.error e)
          server := server
          given := given
          emitted := emitted }
  | fetchOk {cancelled : Bool} {c : CursorPaging} {response : Document} {id : Int64} {batch : List Document}
      {given : List (List Document)} {emitted : List Document}
      (reads : c.fetched response = (.ok batch, { c with id := id })) (flows : given.flatten = emitted ++ batch) :
      Placed
        { Sys.initial with
          stage := .fetching c
          cancelled := cancelled
          reply := some (.ok response)
          server := held c.collection id
          given := given
          emitted := emitted }
  | killing {cancelled : Bool} {collection : String} {abandoned : Int64} {failure : Throwable}
      {server : Option ServerCursor} {given : List (List Document)} {emitted : List Document}
      {discarded : Option (Int64 × Int64)} (owned : Owned server discarded collection abandoned) (there : abandoned ≠ 0)
      (flows : emitted <+: given.flatten) :
      Placed
        { Sys.initial with
          stage := .killing collection abandoned (some failure)
          cancelled := cancelled
          server := server
          given := given
          emitted := emitted
          discarded := discarded }
  | killed {cancelled : Bool} {collection : String} {abandoned : Int64} {failure : Throwable}
      {answer : Except Throwable Document} {server : Option ServerCursor} {given : List (List Document)}
      {emitted : List Document} {discarded : Option (Int64 × Int64)}
      (owned : Owned server discarded collection abandoned) (there : abandoned ≠ 0) (flows : emitted <+: given.flatten) :
      Placed
        { stage := .killing collection abandoned (some failure)
          cancelled := cancelled
          reply := some answer
          server := server
          given := given
          emitted := emitted
          kills := [killCursors collection abandoned]
          discarded := discarded }
  | done {cancelled : Bool} {outcome : Except Throwable Unit} {collection : String} {known : Int64}
      {server : Option ServerCursor} {given : List (List Document)} {emitted : List Document}
      {kills : List Document} {discarded : Option (Int64 × Int64)} (owned : Owned server discarded collection known)
      (kills_eq : kills = due collection known) (flows : emitted <+: given.flatten)
      (whole : outcome = .ok () → emitted = given.flatten ∧ server = none) :
      Placed
        { stage := .done outcome
          cancelled := cancelled
          reply := none
          server := server
          given := given
          emitted := emitted
          kills := kills
          discarded := discarded }

variable {s s' : Sys} {cancelled : Bool} {c : CursorPaging} {given : List (List Document)} {emitted : List Document}
  {server : Option ServerCursor} {discarded : Option (Int64 × Int64)} {e : Throwable}

/-- The loop is left by a failure. -/
theorem placed_kill (owned : Owned server discarded c.collection c.id) (flows : emitted <+: given.flatten) :
    Placed
      { Sys.initial with
        stage := kill (some e) c
        cancelled := cancelled
        server := server
        given := given
        emitted := emitted
        discarded := discarded } := by
  unfold kill
  split
  · rename_i hid
    exact .done owned (if_pos hid).symm flows fun hok => absurd hok (outcome_ne_ok e (.ok ()))
  · rename_i hid
    exact .killing owned hid flows

/-- A batch in hand, all of what has been given that has not been emitted. -/
theorem placed_emitEach {batch : List Document} (flows : given.flatten = emitted ++ batch) :
    Placed
      { Sys.initial with
        stage := emitEach c batch
        cancelled := cancelled
        server := held c.collection c.id
        given := given
        emitted := emitted } := by
  cases batch with
  | cons document rest => exact .emitting flows
  | nil =>
    rw [List.append_nil] at flows
    simp only [emitEach, more, kill]
    split
    · rename_i hid
      have hserver : held c.collection c.id = none := if_pos hid
      have howned : Owned (held c.collection c.id) none c.collection 0 := .inl hserver
      exact .done howned rfl ⟨[], by simp [flows]⟩ fun _ => ⟨flows.symm, hserver⟩
    · exact .fetching flows

/-- The flow ends before it has a cursor. -/
theorem placed_unopened : Placed { Sys.initial with stage := .done (.error e), cancelled := cancelled } := by
  have howned : Owned none none "" 0 := .inl rfl
  exact .done howned rfl ⟨[], rfl⟩ nofun

theorem Placed.cancel (h : Placed s) : Placed { s with cancelled := true } := by
  cases h with
  | opening => exact .opening
  | openErr => exact .openErr
  | openOk reads => exact .openOk reads
  | emitting flows => exact .emitting flows
  | fetching flows => exact .fetching flows
  | fetchErr kept flows => exact .fetchErr kept flows
  | fetchOk reads flows => exact .fetchOk reads flows
  | killing owned there flows => exact .killing owned there flows
  | killed owned there flows => exact .killed owned there flows
  | done owned kills_eq flows whole => exact .done owned kills_eq flows whole

/-- The reply to the opening command arrives, or takes the id of its cursor with it. -/
theorem placed_opened {response : Document} {collection : String} {id : Int64} {batch : List Document}
    (reads : CursorPaging.new response = .ok ⟨collection, id, some batch⟩) :
    Placed
      { Sys.initial with
        stage := opened (handed cancelled (.ok response))
        cancelled := cancelled
        server := held collection id
        given := [batch]
        discarded := Sys.discard { Sys.initial with cancelled := cancelled } 0 id } := by
  cases cancelled with
  | false =>
    have hstage : opened (handed false (.ok response)) = emitEach ⟨collection, id, none⟩ batch := by
      simp [opened, handed, reads]
    rw [hstage]
    exact placed_emitEach (by simp [Sys.initial])
  | true =>
    have howned : Owned (held collection id) (some (0, id)) collection 0 := ⟨rfl, rfl⟩
    exact .done howned rfl (List.nil_prefix) nofun

/-- The reply to a `getMore` arrives, or the flow is left with the id it had. -/
theorem placed_fetched {response : Document} {id : Int64} {batch : List Document}
    (reads : c.fetched response = (.ok batch, { c with id := id })) (flows : given.flatten = emitted ++ batch) :
    Placed
      { Sys.initial with
        stage := fetched c (handed cancelled (.ok response))
        cancelled := cancelled
        server := held c.collection id
        given := given
        emitted := emitted
        discarded := Sys.discard { Sys.initial with cancelled := cancelled } c.id (c.fetched response).2.id } := by
  cases cancelled with
  | false =>
    have hstage : fetched c (handed false (.ok response)) = emitEach { c with id := id } batch := by
      simp [fetched, handed, reads]
    rw [hstage]
    exact placed_emitEach (c := { c with id := id }) flows
  | true =>
    rw [reads]
    exact placed_kill ⟨rfl, rfl⟩ ⟨batch, flows.symm⟩

/-- Every step keeps the flow in place. -/
theorem Placed.step {a : Act} (h : Placed s) (hs : Step s a s') : Placed s' := by
  cases hs with
  | cancel => exact h.cancel
  | openRefused stage reply gone =>
    cases h with
    | opening => exact placed_unopened
    | _ => first | (cases reply; done) | cases stage
  | openErr stage reply =>
    cases h with
    | opening => exact .openErr
    | _ => first | (cases reply; done) | cases stage
  | openOk stage reply reads =>
    cases h with
    | opening => exact .openOk reads
    | _ => first | (cases reply; done) | cases stage
  | openResumedErr stage reply =>
    cases h with
    | openErr => exact placed_unopened
    | _ => first | (cases reply; done) | cases stage
  | openResumedOk stage reply reads =>
    cases h with
    | openOk hreads =>
      cases reply
      cases hreads.symm.trans reads
      exact placed_opened hreads
    | _ => first | (cases reply; done) | cases stage
  | emitRefused stage gone =>
    cases h with
    | emitting flows =>
      cases stage
      exact placed_kill (.inr rfl) ⟨_, flows.symm⟩
    | _ => cases stage
  | @emit c document rest answer stage =>
    cases h with
    | @emitting cancelled c document rest given emitted flows =>
      cases stage
      have hflows : given.flatten = (emitted ++ [document]) ++ rest := by simp [flows]
      cases answer with
      | error e => exact placed_kill (.inr rfl) ⟨rest, hflows.symm⟩
      | ok => exact placed_emitEach hflows
    | _ => cases stage
  | fetchRefused stage reply gone =>
    cases h with
    | fetching flows =>
      cases stage
      exact placed_kill (.inr rfl) ⟨[], by simp [flows]⟩
    | _ => first | (cases reply; done) | cases stage
  | fetchErr stage reply kept =>
    cases h with
    | fetching flows =>
      cases stage
      exact .fetchErr kept flows
    | _ => first | (cases reply; done) | cases stage
  | fetchOk stage reply reads =>
    cases h with
    | fetching flows =>
      cases stage
      exact .fetchOk reads (by simp [flows])
    | _ => first | (cases reply; done) | cases stage
  | fetchResumedErr stage reply =>
    cases h with
    | fetchErr kept flows =>
      cases stage
      exact placed_kill kept.symm ⟨[], by simp [flows]⟩
    | _ => first | (cases reply; done) | cases stage
  | fetchResumedOk stage reply =>
    cases h with
    | fetchOk reads flows =>
      cases stage
      cases reply
      exact placed_fetched reads flows
    | _ => first | (cases reply; done) | cases stage
  | kill answer stage reply =>
    cases h with
    | killing owned there flows =>
      cases stage
      exact .killed owned there flows
    | _ => first | (cases reply; done) | cases stage
  | killResumed stage reply =>
    cases h with
    | @killed cancelled collection abandoned failure answer server given emitted discarded owned there flows =>
      cases stage
      cases reply
      exact .done owned (if_neg there).symm flows fun hok => absurd hok (outcome_ne_ok _ _)
    | _ => first | (cases reply; done) | cases stage

/-- Every run has the flow in place. -/
theorem placed_of_reach (h : documentFlow.Reach s) : Placed s := by
  apply h.induct
  · rintro s rfl
    exact .opening
  · intro s a s' _ hplaced hs
    exact hplaced.step hs

/-! ## Once the flow has completed -/

/-- Everything but the cancellation, which comes from outside. -/
def Act.own : Act → Prop
  | .cancel => False
  | _ => True

/-- A flow stops only by completing. -/
theorem Placed.done_of_atRest (h : Placed s) (rest : documentFlow.AtRest Act.own s) : ∃ outcome, s.stage = .done outcome := by
  cases h with
  | opening => exact absurd (.openErr (e := Android.cancelled) rfl rfl) (rest .run _ trivial)
  | openErr => exact absurd (.openResumedErr rfl rfl) (rest .resume _ trivial)
  | openOk reads => exact absurd (.openResumedOk rfl rfl reads) (rest .resume _ trivial)
  | emitting flows => exact absurd (.emit rfl) (rest (.emit (.ok ())) _ trivial)
  | fetching flows => exact absurd (.fetchErr (e := Android.cancelled) rfl rfl (.inl rfl)) (rest .run _ trivial)
  | fetchErr kept flows => exact absurd (.fetchResumedErr rfl rfl) (rest .resume _ trivial)
  | fetchOk reads flows => exact absurd (.fetchResumedOk rfl rfl) (rest .resume _ trivial)
  | killing owned there flows => exact absurd (.kill (.ok []) rfl rfl) (rest .run _ trivial)
  | killed owned there flows => exact absurd (.killResumed rfl rfl) (rest .resume _ trivial)
  | done => exact ⟨_, rfl⟩

/-- **A document flow kills its cursor, unless the reply that named it was discarded.** A flow stops
only by completing, and what it has emitted is a prefix of the batches, all of them once it
completed normally. Once it has completed, the cursor the engine opened for it is exhausted or has
been sent exactly one `killCursors`, if and only if no reply was discarded by a cancellation that
carried an id the flow did not have already: for the opening command, any id but zero. -/
theorem flow_kills_its_cursor_iff (h : documentFlow.Reach s) :
    (documentFlow.AtRest Act.own s → ∃ outcome, s.stage = .done outcome) ∧
    s.emitted <+: s.given.flatten ∧
    ∀ outcome, s.stage = .done outcome →
      (Clean s ↔ ∀ was id, s.discarded = some (was, id) → id = 0 ∨ id = was) ∧ s.kills.length ≤ 1 ∧
      (outcome = .ok () → s.emitted = s.given.flatten ∧ s.server = none) := by
  have hplaced := placed_of_reach h
  refine ⟨hplaced.done_of_atRest, ?_, ?_⟩
  · cases hplaced with
    | opening | openErr | openOk => exact List.nil_prefix
    | emitting flows | fetchOk _ flows => exact ⟨_, flows.symm⟩
    | fetching flows | fetchErr _ flows => exact ⟨[], by simp [flows]⟩
    | killing _ _ flows | killed _ _ flows | done _ _ flows => exact flows
  · intro outcome hstage
    cases hplaced with
    | done owned kills_eq flows whole =>
      cases hstage
      refine ⟨owned.clean_iff kills_eq, ?_, whole⟩
      rw [kills_eq]
      exact length_due_le _ _
    | _ => cases hstage

end

/-- A first batch of one document out of `shop.orders`, with more to come. -/
def ordersReply : Document :=
  [("cursor", .document
    [("id", .int64 7), ("ns", .string "shop.orders"), ("firstBatch", .array [.document [("total", .int32 12)]])])]

theorem new_ordersReply [ToLong] : CursorPaging.new ordersReply = .ok ⟨"orders", 7, some [[("total", .int32 12)]]⟩ := by
  rfl

/-- The collector throws at the first document: the cursor is killed. -/
theorem flow_kills_its_cursor_iff_of_a_throwing_collector :
    ∃ (_ : ToLong) (s : Sys), documentFlow.Reach s ∧ s.stage = .done (.error (.of (.illegalState "gave up") [])) ∧
      s.server = some ⟨"orders", 7⟩ ∧ Clean s := by
  let _ : ToLong := ⟨fun _ _ => none⟩
  have h : documentFlow.Reach .initial := .init rfl
  have h := h.next (.openOk rfl rfl new_ordersReply)
  have h := h.next (.openResumedOk rfl rfl new_ordersReply)
  have h := h.next (a := Act.emit (.error (.of (.illegalState "gave up") []))) (.emit rfl)
  have h := h.next (.kill (.ok []) rfl rfl)
  have h := h.next (.killResumed rfl rfl)
  exact ⟨inferInstance, _, h, rfl, rfl, ((flow_kills_its_cursor_iff h).2.2 _ rfl).1.2 nofun⟩

/-- The collector is cancelled while the opening command is under way: its reply is discarded, and
the cursor it names is never killed. -/
theorem cancelled_flow_leaves_its_cursor :
    ∃ (_ : ToLong) (s : Sys), documentFlow.Reach s ∧ s.stage = .done (.error cancelled) ∧
      s.server = some ⟨"orders", 7⟩ ∧ s.kills = [] ∧ ¬ Clean s := by
  let _ : ToLong := ⟨fun _ _ => none⟩
  have h : documentFlow.Reach .initial := .init rfl
  have h := h.next (.openOk rfl rfl new_ordersReply)
  have h := h.next .cancel
  have h := h.next (.openResumedOk rfl rfl new_ordersReply)
  refine ⟨inferInstance, _, h, rfl, rfl, rfl, ?_⟩
  intro hclean
  cases hclean ⟨"orders", 7⟩ rfl

end EmbeddedMongo.Android.CursorFlow
