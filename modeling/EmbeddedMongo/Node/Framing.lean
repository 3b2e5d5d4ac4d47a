import EmbeddedMongo.Node.Serve
import EmbeddedMongo.Wire.Exact

/-!
# Framing does not depend on chunking

What a connection cuts, hands over and writes, over every run of it: any stream, any cut of it into
`data` events, and any order of those with the answers of the engine.
-/

namespace EmbeddedMongo.Node

open Conc Fmt

/-! ## The messages of a stream -/

/-- The stream is these messages, each as long as it declares to be, and a rest that does not begin
with another: too short for a length, shorter than it declares, or declaring a length that is too
short for a header. -/
structure Framed (stream : List UInt8) (messages : List (List UInt8)) (rest : List UInt8) : Prop where
  whole : stream = messages.flatten ++ rest
  each : ∀ m ∈ messages, HEADER_LENGTH ≤ m.length ∧ readInt32LE m 0 = m.length
  stops : rest.length < 4 ∨ readInt32LE rest 0 < HEADER_LENGTH ∨ (rest.length : Int) < readInt32LE rest 0

/-- The header the connection is destroyed at. -/
def BadHeader (rest : List UInt8) : Prop := 4 ≤ rest.length ∧ readInt32LE rest 0 < HEADER_LENGTH

theorem front_ne_message {rest : List UInt8}
    (stops : rest.length < 4 ∨ readInt32LE rest 0 < HEADER_LENGTH ∨ (rest.length : Int) < readInt32LE rest 0)
    (m after : List UInt8) : front rest ≠ .message m after := by
  intro h
  obtain ⟨rfl, hlong, hlength⟩ := front_eq_message_iff.1 h
  have hheader : HEADER_LENGTH = 16 := rfl
  rw [List.length_append] at stops
  omega

/-- What the loop cuts are the messages of the stream. -/
theorem framed_drain (stream : List UInt8) :
    Framed stream (cutter.drain stream).messages (cutter.drain stream).rest := by
  induction stream using Cutter.drain_induct (c := cutter) with
  | more xs h =>
    rw [Cutter.drain_more h]
    refine ⟨rfl, nofun, ?_⟩
    rcases front_more h with hshort | hmissing
    · exact .inl hshort
    · exact .inr (.inr hmissing)
  | bad xs h =>
    rw [Cutter.drain_bad h]
    exact ⟨rfl, nofun, .inr (.inl (front_bad_iff.1 h).2)⟩
  | message xs m rest h ih =>
    obtain ⟨rfl, hlong, hlength⟩ := front_eq_message_iff.1 h
    have hheader : HEADER_LENGTH = 16 := rfl
    rw [readInt32LE_append (by omega)] at hlength
    rw [Cutter.drain_message h]
    refine ⟨?_, ?_, ih.stops⟩
    · simp only [List.flatten_cons, List.append_assoc]
      rw [← ih.whole]
    · exact List.forall_mem_cons.2 ⟨⟨hlong, hlength⟩, ih.each⟩

/-- A stream has its messages in one way only. -/
theorem Framed.drain {stream rest : List UInt8} {messages : List (List UInt8)} (h : Framed stream messages rest) :
    (cutter.drain stream).messages = messages ∧ (cutter.drain stream).rest = rest := by
  induction messages generalizing stream with
  | nil =>
    obtain rfl : stream = rest := h.whole
    cases hfront : front stream with
    | more => rw [Cutter.drain_more hfront]; exact ⟨rfl, rfl⟩
    | bad => rw [Cutter.drain_bad hfront]; exact ⟨rfl, rfl⟩
    | message m after => exact absurd hfront (front_ne_message h.stops m after)
  | cons m messages ih =>
    obtain ⟨⟨hlong, hlength⟩, heach⟩ := List.forall_mem_cons.1 h.each
    have hheader : HEADER_LENGTH = 16 := rfl
    have hfront : front stream = .message m (messages.flatten ++ rest) := by
      refine front_eq_message_iff.2 ⟨?_, hlong, ?_⟩
      · rw [h.whole, List.flatten_cons, List.append_assoc]
      · rw [h.whole, List.flatten_cons, List.append_assoc, readInt32LE_append (by omega), hlength]
    obtain ⟨hmessages, hrest⟩ := ih ⟨rfl, heach, h.stops⟩
    rw [Cutter.drain_message hfront]
    exact ⟨congrArg (m :: ·) hmessages, hrest⟩

/-- It stops at a bad header just where there is one. -/
theorem bad_drain_iff (stream : List UInt8) : (cutter.drain stream).bad = true ↔ BadHeader (cutter.drain stream).rest := by
  induction stream using Cutter.drain_induct (c := cutter) with
  | more xs h =>
    rw [Cutter.drain_more h]
    refine iff_of_false nofun fun hbad => ?_
    cases h.symm.trans (front_bad_iff.2 hbad)
  | bad xs h =>
    rw [Cutter.drain_bad h]
    exact iff_of_true rfl (front_bad_iff.1 h)
  | message xs m rest h ih =>
    rw [Cutter.drain_message h]
    exact ih

/-- A bad header stays at the front, whatever follows. -/
theorem BadHeader.drain_append {rest : List UInt8} (h : BadHeader rest) (chunk : List UInt8) :
    BadHeader (cutter.drain (rest ++ chunk)).rest := by
  have hbad : BadHeader (rest ++ chunk) := by
    refine ⟨?_, ?_⟩
    · rw [List.length_append]
      exact Nat.le_add_right_of_le h.1
    · rw [readInt32LE_append h.1]
      exact h.2
  have hdrain : cutter.drain (rest ++ chunk) = ⟨[], rest ++ chunk, true⟩ := Cutter.drain_bad (front_bad_iff.2 hbad)
  rw [hdrain]
  exact hbad

/-! ## What the end of an answer does -/

/-- What becomes of a connection when a round trip has come to `result`. -/
inductive Outcome (result : Except String RoundTrip) (s : Connection) : Connection → Prop where
  | failed {e : String} (failure : result = .error e) : Outcome result s { s with destroyed := true }
  | silent {r : RoundTrip} (ok : result = .ok r) (unwanted : r.moreToCome = true ∨ s.destroyed = true) : Outcome result s s
  | tooLong {r : RoundTrip} (ok : result = .ok r) (wanted : r.moreToCome = false) (isOpen : s.destroyed = false)
      (long : 2 ^ 31 ≤ r.frameLength) : Outcome result s { s with destroyed := true }
  | exhausted {r : RoundTrip} (ok : result = .ok r) (wanted : r.moreToCome = false) (isOpen : s.destroyed = false)
      (short : r.frameLength < 2 ^ 31) (last : 2 ^ 31 ≤ s.replyId + 1) :
      Outcome result s { s with replyId := s.replyId + 1, destroyed := true }
  | replied {r : RoundTrip} (ok : result = .ok r) (wanted : r.moreToCome = false) (isOpen : s.destroyed = false)
      (short : r.frameLength < 2 ^ 31) (small : s.replyId + 1 < 2 ^ 31) :
      Outcome result s { s with replyId := s.replyId + 1, written := s.written ++ [frameBytes (s.replyId + 1) r] }

/-- The end of an answer is one of these. -/
theorem outcome_settle {result : Except String RoundTrip} {buffer : List UInt8}
    (allocated : ∀ r, result = .ok r → buffer.length = r.frameLength) (s : Connection) :
    Outcome result s (Connection.settle buffer result s) := by
  cases result with
  | error e => exact .failed rfl
  | ok r =>
    show Outcome (.ok r) s (s.answered r buffer)
    unfold Connection.answered
    split
    · rename_i unwanted
      exact .silent rfl unwanted
    · rename_i wanted
      rw [not_or, Bool.not_eq_true, Bool.not_eq_true] at wanted
      obtain ⟨b, c, hb, hc, hlengthened⟩ := lengthened_eq (allocated r rfl)
      by_cases short : r.frameLength ≤ 2 ^ 31 - 1
      · rw [hlengthened, if_pos short, Connection.identify]
        rcases Nat.lt_or_ge (s.replyId + 1) (2 ^ 31) with small | last
        · rw [identified_eq small r hb hc]
          exact .replied rfl wanted.1 wanted.2 (by omega) small
        · rw [identified_refused last r]
          exact .exhausted rfl wanted.1 wanted.2 (by omega) last
      · rw [hlengthened, if_neg short]
        exact .tooLong rfl wanted.1 wanted.2 (by omega)

/-! ## What holds throughout a run -/

/-- The results that are to be replied to. -/
def replies (settled : List (List UInt8 × Except String RoundTrip)) : List RoundTrip :=
  settled.filterMap fun
    | (_, .ok r) => if r.moreToCome = true then none else some r
    | (_, .error _) => none

theorem replies_append (settled more : List (List UInt8 × Except String RoundTrip)) :
    replies (settled ++ more) = replies settled ++ replies more :=
  List.filterMap_append

theorem replies_ok {message : List UInt8} {r : RoundTrip} (wanted : r.moreToCome = false) :
    replies [(message, .ok r)] = [r] := by
  simp [replies, wanted]

theorem replies_moreToCome {message : List UInt8} {r : RoundTrip} (unwanted : r.moreToCome = true) :
    replies [(message, .ok r)] = [] := by
  simp [replies, unwanted]

/-- Every frame that is due has been written, under consecutive ids. -/
structure Replied (s : Connection) : Prop where
  ids : s.replyId = (replies s.settled).length
  frames : s.written = (replies s.settled).mapIdx fun i r => frameBytes (i + 1) r
  short : ∀ r ∈ replies s.settled, r.frameLength < 2 ^ 31
  small : s.replyId < 2 ^ 31

/-- Why a connection may be destroyed. -/
inductive Cause (s : Connection) : Prop where
  | header (bad : BadHeader s.pending)
  | ended (ended : s.ended = true)
  | failure (message : List UInt8) (e : String) (failed : (message, .error e) ∈ s.settled)
  | tooLong (r : RoundTrip) (due : r ∈ replies s.settled) (long : 2 ^ 31 ≤ r.frameLength)
  | exhausted (last : 2 ^ 31 ≤ (replies s.settled).length)

section

variable {bits : Nat} {codec : Wire.Codec} {hello : List UInt8}

/-- What holds of a connection throughout. -/
structure Inv (bits : Nat) (codec : Wire.Codec) (hello : List UInt8) (s : Connection) : Prop where
  messages : (cutter.drain s.received).messages = s.handed ++ s.queued
  rest : (cutter.drain s.received).rest = s.pending
  bad : (cutter.drain s.received).bad = true → s.destroyed = true
  results : ∀ message result, (message, result) ∈ s.settled → ∃ client, result = roundTrip bits codec hello message client
  replied : s.destroyed = false → Replied s
  cause : s.destroyed = true → Cause s

theorem drain_nil : cutter.drain [] = ⟨[], [], false⟩ := Cutter.drain_more rfl

theorem inv_initial : Inv bits codec hello .initial where
  messages := congrArg Drained.messages drain_nil
  rest := congrArg Drained.rest drain_nil
  bad := by
    show (cutter.drain []).bad = true → _
    rw [drain_nil]
    nofun
  results := nofun
  replied _ := ⟨rfl, rfl, nofun, by decide⟩
  cause := nofun

/-- A cause remains one: a bad header stays at the front and a result is not taken back. -/
theorem Cause.mono {s s' : Connection} (h : Cause s) (bad : BadHeader s.pending → BadHeader s'.pending)
    (ended : s'.ended = s.ended) {more : List (List UInt8 × Except String RoundTrip)}
    (settled : s'.settled = s.settled ++ more) : Cause s' := by
  cases h with
  | header hbad => exact .header (bad hbad)
  | ended hended => exact .ended (ended ▸ hended)
  | failure m e failed =>
    refine .failure m e ?_
    rw [settled]
    exact List.mem_append_left _ failed
  | tooLong r due long =>
    refine .tooLong r ?_ long
    rw [settled, replies_append]
    exact List.mem_append_left _ due
  | exhausted last =>
    refine .exhausted ?_
    rw [settled, replies_append, List.length_append]
    exact Nat.le_add_right_of_le last

/-- A chunk comes in. -/
theorem Inv.data {s : Connection} (h : Inv bits codec hello s) (chunk : List UInt8) :
    Inv bits codec hello
      { s with
        received := s.received ++ chunk
        pending := (cutter.drain (s.pending ++ chunk)).rest
        queued := s.queued ++ (cutter.drain (s.pending ++ chunk)).messages
        destroyed := s.destroyed || (cutter.drain (s.pending ++ chunk)).bad } := by
  have happend := Cutter.drain_append (c := cutter) s.received chunk
  rw [h.rest, h.messages] at happend
  constructor
  · dsimp only
    rw [happend, ← List.append_assoc]
    rfl
  · dsimp only
    rw [happend]
  · dsimp only
    rw [happend]
    intro hbad
    rw [hbad, Bool.or_true]
  · exact h.results
  · intro isOpen
    obtain ⟨isOpen, -⟩ := Bool.or_eq_false_iff.1 isOpen
    obtain ⟨ids, frames, short, small⟩ := h.replied isOpen
    exact ⟨ids, frames, short, small⟩
  · intro destroyed
    rcases Bool.or_eq_true_iff.1 destroyed with destroyed | hbad
    · exact (h.cause destroyed).mono (·.drain_append chunk) rfl (List.append_nil _).symm
    · exact .header ((bad_drain_iff _).1 hbad)

/-- What the end of an answer changes of the cutting: the message that was awaited is settled. -/
theorem Inv.settled {s s' : Connection} (h : Inv bits codec hello s) {message : List UInt8} (awaited : s.running = some message)
    {client : Option (Except String (List UInt8))} (received : s'.received = s.received) (pending : s'.pending = s.pending)
    (queued : s'.queued = s.queued) (running : s'.running = none)
    (settled : s'.settled = s.settled ++ [(message, roundTrip bits codec hello message client)])
    (destroyed : s.destroyed = true → s'.destroyed = true) (replied : s'.destroyed = false → Replied s')
    (cause : s'.destroyed = true → Cause s') : Inv bits codec hello s' where
  messages := by
    have hhanded : s'.handed = s.handed := by
      rw [Connection.handed, running, settled, Connection.handed, awaited]
      simp
    rw [received, h.messages, hhanded, queued]
  rest := by rw [received, h.rest, pending]
  bad := by
    rw [received]
    exact fun hbad => destroyed (h.bad hbad)
  results := by
    intro m result hmem
    rw [settled] at hmem
    rcases List.mem_append.1 hmem with hmem | hmem
    · exact h.results m result hmem
    · obtain ⟨rfl, rfl⟩ := Prod.mk.inj (List.mem_singleton.1 hmem)
      exact ⟨client, rfl⟩
  replied := replied
  cause := cause

/-- An answer ends. -/
theorem Inv.settle {s s' : Connection} (h : Inv bits codec hello s) {message : List UInt8} (awaited : s.running = some message)
    {client : Option (Except String (List UInt8))}
    (outcome : Outcome (roundTrip bits codec hello message client)
      { s with running := none, settled := s.settled ++ [(message, roundTrip bits codec hello message client)] } s') :
    Inv bits codec hello s' := by
  cases outcome with
  | @failed e failure =>
    refine h.settled awaited rfl rfl rfl rfl rfl (fun _ => rfl) nofun fun _ => ?_
    refine .failure message e ?_
    rw [failure]
    exact List.mem_append_right _ (List.mem_singleton.2 rfl)
  | silent ok unwanted =>
    refine h.settled awaited rfl rfl rfl rfl rfl id ?_ fun destroyed => (h.cause destroyed).mono id rfl rfl
    intro isOpen
    have moreToCome := unwanted.resolve_right (by simpa using isOpen)
    obtain ⟨ids, frames, short, small⟩ := h.replied isOpen
    have same : replies (s.settled ++ [(message, roundTrip bits codec hello message client)]) = replies s.settled := by
      rw [replies_append, ok, replies_moreToCome moreToCome, List.append_nil]
    exact ⟨by rw [same]; exact ids, by rw [same]; exact frames, by rw [same]; exact short, small⟩
  | tooLong ok wanted isOpen long =>
    refine h.settled awaited rfl rfl rfl rfl rfl (fun _ => rfl) nofun fun _ => ?_
    refine .tooLong _ ?_ long
    dsimp only
    rw [replies_append, ok, replies_ok wanted]
    exact List.mem_append_right _ (List.mem_singleton.2 rfl)
  | exhausted ok wanted isOpen short last =>
    refine h.settled awaited rfl rfl rfl rfl rfl (fun _ => rfl) nofun fun _ => ?_
    apply Cause.exhausted
    dsimp only
    rw [replies_append, ok, replies_ok wanted, List.length_append, ← (h.replied isOpen).ids]
    exact last
  | @replied r ok wanted isOpen short small =>
    refine h.settled awaited rfl rfl rfl rfl rfl id ?_ fun destroyed => ?_
    · intro _
      obtain ⟨ids, frames, shorts, -⟩ := h.replied isOpen
      have hreplies : replies (s.settled ++ [(message, roundTrip bits codec hello message client)]) = replies s.settled ++ [r] := by
        rw [replies_append, ok, replies_ok wanted]
      constructor
      · dsimp only
        rw [hreplies, List.length_append, ids]
        rfl
      · dsimp only
        rw [hreplies, frames, List.mapIdx_append, ids]
        simp
      · dsimp only
        rw [hreplies]
        exact List.forall_mem_append.2 ⟨shorts, List.forall_mem_singleton.2 short⟩
      · exact small
    · exact absurd (isOpen.symm.trans destroyed) Bool.false_ne_true

/-- The next message is handed over. -/
theorem Inv.start {s : Connection} (h : Inv bits codec hello s) {message : List UInt8} {rest : List (List UInt8)}
    (idle : s.running = none) (next : s.queued = message :: rest) :
    Inv bits codec hello { s with queued := rest, running := some message } where
  messages := by
    rw [h.messages, next, Connection.handed, idle, Connection.handed]
    simp
  rest := h.rest
  bad := h.bad
  results := h.results
  replied isOpen := by
    obtain ⟨ids, frames, short, small⟩ := h.replied isOpen
    exact ⟨ids, frames, short, small⟩
  cause destroyed := (h.cause destroyed).mono id rfl (List.append_nil _).symm

/-- Every run has it. -/
theorem inv_of_reach {s : Connection} (h : (serve bits codec hello).Reach s) : Inv bits codec hello s := by
  refine System.Reach.induct ?_ ?_ h
  · rintro s rfl
    exact inv_initial
  · intro s a s' _ ih hs
    cases hs with
    | data => exact ih.data _
    | start idle next => exact ih.start idle next
    | settle awaited allocated => exact ih.settle awaited (outcome_settle allocated _)
    | finish => exact ⟨ih.messages, ih.rest, fun _ => rfl, ih.results, nofun, fun _ => .ended rfl⟩

/-! ## Handing over -/

/-- The steps of the connection's own. -/
def Act.own : Act → Prop
  | .start | .settle _ _ => True
  | .data _ | .finish => False

/-- What the end of an answer leaves alone. -/
theorem Outcome.same {result : Except String RoundTrip} {s s' : Connection} (h : Outcome result s s') :
    s'.received = s.received ∧ s'.pending = s.pending ∧ s'.queued = s.queued ∧ s'.handed = s.handed ∧
      s'.running = s.running := by
  cases h with
  | failed | silent | tooLong | exhausted | replied => exact ⟨rfl, rfl, rfl, rfl, rfl⟩

theorem handed_settled {s : Connection} {message : List UInt8} (awaited : s.running = some message)
    (result : Except String RoundTrip) :
    Connection.handed { s with running := none, settled := s.settled ++ [(message, result)] } = s.handed := by
  simp [Connection.handed, awaited]

/-- A message is handed over when nothing is awaited, and it is then the first in the queue. -/
theorem handed_of_step {s s' : Connection} {a : Act} (hs : Step bits codec hello s a s') :
    s'.handed = s.handed ∨
      ∃ message, s.running = none ∧ s.queued = message :: s'.queued ∧ s'.handed = s.handed ++ [message] := by
  cases hs with
  | data => exact .inl rfl
  | @start message rest idle next =>
    refine .inr ⟨message, idle, next, ?_⟩
    rw [Connection.handed, Connection.handed, idle]
    simp
  | settle awaited allocated =>
    obtain ⟨-, -, -, handed, -⟩ := (outcome_settle allocated _).same
    exact .inl (handed.trans (handed_settled awaited _))
  | finish => exact .inl rfl

theorem exists_buffer (result : Except String RoundTrip) :
    ∃ buffer : List UInt8, ∀ r, result = .ok r → buffer.length = r.frameLength := by
  cases result with
  | error e => exact ⟨[], nofun⟩
  | ok r =>
    refine ⟨List.replicate r.frameLength 0, ?_⟩
    rintro _ ⟨⟩
    exact List.length_replicate

/-- At rest nothing is awaited and nothing queued: a round trip comes to an end, and the next begins. -/
theorem handed_of_atRest {s : Connection} (h : (serve bits codec hello).AtRest Act.own s) : s.queued = [] := by
  have idle : s.running = none := by
    cases awaited : s.running with
    | none => rfl
    | some message =>
      obtain ⟨buffer, allocated⟩ := exists_buffer (roundTrip bits codec hello message none)
      exact absurd (.settle awaited allocated) (h (.settle none buffer) _ trivial)
  cases next : s.queued with
  | nil => rfl
  | cons message rest => exact absurd (.start idle next) (h .start _ trivial)

/-- How many steps of its own a connection has left. -/
def Connection.ahead (s : Connection) : Nat := 2 * s.queued.length + s.running.toList.length

theorem ahead_of_step {s s' : Connection} {a : Act} (own : a.own) (hs : Step bits codec hello s a s') :
    s'.ahead < s.ahead ∧ s'.received = s.received ∧ s'.handed ++ s'.queued = s.handed ++ s.queued := by
  cases hs with
  | data | finish => exact own.elim
  | start idle next =>
    refine ⟨?_, rfl, ?_⟩
    · simp only [Connection.ahead, idle, next, List.length_cons, Option.toList_none, Option.toList_some, List.length_nil]
      omega
    · simp [Connection.handed, idle, next]
  | settle awaited allocated =>
    obtain ⟨received, -, queued, handed, running⟩ := (outcome_settle allocated _).same
    refine ⟨?_, received, ?_⟩
    · rw [Connection.ahead, queued, running, Connection.ahead, awaited]
      exact Nat.lt_add_one _
    · rw [queued, handed, handed_settled awaited]

/-- Whatever was sent is handed over in the end, all of it. -/
theorem settles_handed {s : Connection} (h : (serve bits codec hello).Reach s) :
    (serve bits codec hello).Settles Act.own
      (fun s' => s'.received = s.received ∧ s'.handed = s.handed ++ s.queued) s := by
  obtain ⟨n, hn⟩ : ∃ n, n = s.ahead := ⟨_, rfl⟩
  induction n using Nat.strongRecOn generalizing s with
  | _ n ih =>
    refine .intro (fun a s' own hs => ?_) fun rest => ?_
    · obtain ⟨lower, received, total⟩ := ahead_of_step own hs
      have later := ih s'.ahead (hn ▸ lower) (h.next hs) rfl
      rw [received, total] at later
      exact later
    · rw [handed_of_atRest rest, List.append_nil]
      exact ⟨rfl, rfl⟩

/-! ## What is replied -/

/-- What a round trip that came to `r` had read in the message, and where its response is from. -/
structure Answers (bits : Nat) (codec : Wire.Codec) (hello message : List UInt8) (r : RoundTrip)
    (request : Wire.Request) : Prop where
  parsed : Wire.parse bits codec message = .ok request
  requestId : r.requestId = request.requestId
  moreToCome : r.moreToCome = request.moreToCome
  legacy : r.legacy = request.legacy
  greeting : isHello request.commandName = true → r.response = hello

/-- A round trip that succeeded had read its message, and answers it. -/
theorem roundTrip_answers {message : List UInt8} {client : Option (Except String (List UInt8))} {r : RoundTrip}
    (h : roundTrip bits codec hello message client = .ok r) :
    ∃ request, Answers bits codec hello message r request ∧
      (isHello request.commandName = false → client = some (.ok r.response)) := by
  unfold roundTrip at h
  cases parsed : Wire.parse bits codec message with
  | error e =>
    rw [parsed] at h
    cases e <;> cases h
  | ok request =>
    rw [parsed] at h
    dsimp only at h
    by_cases greeting : isHello request.commandName = true
    · rw [if_pos greeting] at h
      cases h
      exact ⟨request, ⟨parsed, rfl, rfl, rfl, fun _ => rfl⟩, fun other => absurd (other.symm.trans greeting) Bool.false_ne_true⟩
    · rw [if_neg greeting] at h
      match client, h with
      | some (.ok response), rfl => exact ⟨request, ⟨parsed, rfl, rfl, rfl, fun hello => absurd hello greeting⟩, fun _ => rfl⟩

/-- One frame for each result that is to be replied to, in order. -/
structure Frames (results : List RoundTrip) (written : List (List UInt8)) : Prop where
  count : written.length = results.length
  each : ∀ i r, results[i]? = some r → ∃ frame, written[i]? = some frame ∧ FrameOf (i + 1) r frame

theorem Replied.frames_replies {s : Connection} (h : Replied s) : Frames (replies s.settled) s.written where
  count := by rw [h.frames, List.length_mapIdx]
  each i r due := by
    refine ⟨frameBytes (i + 1) r, ?_, ?_⟩
    · rw [h.frames, List.getElem?_mapIdx, due]
      rfl
    · have short := h.short r (List.mem_of_getElem? due)
      have hlt : i < (replies s.settled).length := (List.getElem?_eq_some_iff.1 due).1
      have small := h.ids ▸ h.small
      exact frameOf_frameBytes (by omega) (by omega)

/-- **Framing does not depend on chunking.** In every run the messages handed over and queued are the
messages of what was received, whole, however it was cut into chunks. They are handed over in that
order, each once nothing is awaited, and all of them in the end. A header that declares too little
destroys the socket. While it is open there is one frame for each answer that is wanted, with its
own length, the id of the request, the op code of its kind and the response; and it is not destroyed
but for such a header, by others, for a round trip that failed, or at `2 ^ 31`. -/
theorem framing_does_not_depend_on_chunking {s : Connection} (h : (serve bits codec hello).Reach s) :
    (∀ messages rest, Framed s.received messages rest ↔ messages = s.handed ++ s.queued ∧ rest = s.pending) ∧
    (∀ a s', Step bits codec hello s a s' → s'.handed = s.handed ∨
      ∃ message, s.running = none ∧ s.queued = message :: s'.queued ∧ s'.handed = s.handed ++ [message]) ∧
    (serve bits codec hello).Settles Act.own
      (fun s' => s'.received = s.received ∧ s'.handed = s.handed ++ s.queued) s ∧
    (BadHeader s.pending → s.destroyed = true) ∧
    (∀ message r, (message, .ok r) ∈ s.settled → ∃ client request, roundTrip bits codec hello message client = .ok r ∧
      Answers bits codec hello message r request ∧
      (isHello request.commandName = false → client = some (.ok r.response))) ∧
    (s.destroyed = false → Frames (replies s.settled) s.written) ∧
    (s.destroyed = true → Cause s) := by
  have inv := inv_of_reach h
  refine ⟨fun messages rest => ⟨fun framed => ?_, ?_⟩, fun a s' => handed_of_step, settles_handed h, fun bad => ?_,
    fun message r settled => ?_, fun isOpen => (inv.replied isOpen).frames_replies, inv.cause⟩
  · obtain ⟨hmessages, hrest⟩ := framed.drain
    exact ⟨hmessages.symm.trans inv.messages, hrest.symm.trans inv.rest⟩
  · rintro ⟨rfl, rfl⟩
    have framed := framed_drain s.received
    rw [inv.messages, inv.rest] at framed
    exact framed
  · refine inv.bad ((bad_drain_iff _).2 ?_)
    rw [inv.rest]
    exact bad
  · obtain ⟨client, hresult⟩ := inv.results message _ settled
    obtain ⟨request, answers, asked⟩ := roundTrip_answers hresult.symm
    exact ⟨client, request, hresult.symm, answers, asked⟩

end

/-- `{ insert: "people", $db: "app" }`, with a reply wanted. -/
def insertMessage : List UInt8 := [58, 0, 0, 0, 7, 0, 0, 0, 0, 0, 0, 0, 0xdd, 0x07, 0, 0, 0, 0, 0, 0, 0] ++ Wire.insertBytes

/-- What the engine answers to it, an empty document. -/
def inserted : RoundTrip := ⟨7, false, false, [5, 0, 0, 0, 0]⟩

theorem roundTrip_insertMessage :
    roundTrip 64 Wire.peopleCodec [] insertMessage (some (.ok inserted.response)) = .ok inserted :=
  rfl

/-- The insert comes in two pieces, is handed over once, as a whole, and replied to. -/
theorem framing_of_two_pieces :
    ∃ s, (serve 64 Wire.peopleCodec []).Reach s ∧ s.received = insertMessage ∧
      s.handed ++ s.queued = [insertMessage] ∧ s.settled = [(insertMessage, .ok inserted)] ∧
      ∃ frame, s.written = [frame] ∧ FrameOf 1 inserted frame := by
  have hpart : cutter.drain (insertMessage.take 3) = ⟨[], insertMessage.take 3, false⟩ := Cutter.drain_more rfl
  have hwhole : cutter.drain insertMessage = ⟨[insertMessage], [], false⟩ := by
    have hfront : front insertMessage = .message insertMessage [] :=
      front_eq_message_iff.2 ⟨(List.append_nil _).symm, by decide, by decide⟩
    rw [Cutter.drain_message hfront, drain_nil]
  have start : (serve 64 Wire.peopleCodec []).Reach .initial := .init rfl
  have part := start.next (show Step 64 Wire.peopleCodec [] _ (.data (insertMessage.take 3)) _ from .data)
  simp only [Connection.initial, List.nil_append, hpart, Bool.or_false] at part
  have whole := part.next (show Step 64 Wire.peopleCodec [] _ (.data (insertMessage.drop 3)) _ from .data)
  simp only [List.take_append_drop, hwhole, List.nil_append, Bool.or_false] at whole
  have handed := whole.next (show Step 64 Wire.peopleCodec [] _ .start _ from .start rfl rfl)
  have replied := handed.next (show Step 64 Wire.peopleCodec [] _
    (.settle (some (.ok inserted.response)) (List.replicate inserted.frameLength 0)) _ from .settle rfl (by
      rintro r hr
      rw [roundTrip_insertMessage] at hr
      cases hr
      exact List.length_replicate))
  simp only [roundTrip_insertMessage] at replied
  obtain ⟨framed, -, -, -, -, frames, -⟩ := framing_does_not_depend_on_chunking replied
  obtain ⟨messages, -⟩ := (framed [insertMessage] []).1 ⟨(List.append_nil _).symm, by decide, .inl (by decide)⟩
  obtain ⟨count, each⟩ := frames rfl
  obtain ⟨frame, written, hframe⟩ := each 0 inserted rfl
  refine ⟨_, replied, rfl, messages.symm, rfl, frame, ?_, hframe⟩
  obtain ⟨only, honly⟩ := List.length_eq_one_iff.1 count
  rw [honly] at written ⊢
  rw [Option.some.inj written]

end EmbeddedMongo.Node
