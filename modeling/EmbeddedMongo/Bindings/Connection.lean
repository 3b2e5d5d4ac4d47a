import EmbeddedMongo.Conc.System
import EmbeddedMongo.Wire.Exact

/-!
# A connection without a socket

`EmbeddedConnection` and `AsyncEmbeddedConnection` of `python/pymongo_embedded`. `send_message` runs
the command and keeps the reply, `receive_message` hands over what was kept. Both are called in
whatever order the driver calls them. What fails inside their `try` goes through
`_raise_connection_failure`, which closes the connection; the two checks before the `try` of
`send_message` do not. A closed connection is not refused: it has no socket that could be.
-/

namespace EmbeddedMongo.Bindings.Messages

open Fmt

/-- What becomes of a request that could be parsed. -/
inductive Served where
  /-- The client has been closed. -/
  | closed
  /-- The task that awaits the reply is cancelled. -/
  | cancelled
  | answered (reply : Except String (List UInt8))

/-- A command that was run to its end. -/
structure Ran where
  message : List UInt8
  request : Wire.Request
  reply : Except String (List UInt8)

/-- The reply `send_message` keeps of it, with the id it keeps it under. -/
def Ran.kept (r : Ran) : Option (Int32 × List UInt8) :=
  match r.request.moreToCome, r.reply with
  | false, .ok reply => some (r.request.requestId, reply)
  | true, _ | _, .error _ => none

section

variable (bits : Nat) (codec : Wire.Codec)

/-- `round_trip` of `NativeClient` and of `AsyncNativeClient`. -/
def roundTrip (message : List UInt8) (served : Served) : Except String (Int32 × Bool × List UInt8) :=
  match Wire.parse bits codec message, served with
  | .error (.err e), _ => .error e
  | .error _, _ => .error "panic"
  | .ok _, .closed => .error "embedded MongoDB client is closed"
  | .ok _, .cancelled => .error "cancelled"
  | .ok _, .answered (.error e) => .error e
  | .ok request, .answered (.ok reply) => .ok (request.requestId, request.moreToCome, reply)

/-- What it has run. -/
def runs (message : List UInt8) (served : Served) : List Ran :=
  match Wire.parse bits codec message, served with
  | .ok request, .answered reply => [⟨message, request, reply⟩]
  | _, _ => []

end

/-- How `receive_message` disposed of a reply. -/
inductive Taken where
  | handed
  /-- The caller asked for another. -/
  | dropped
  deriving DecidableEq

/-- `EmbeddedConnection` -/
structure Connection where
  maxBsonSize : Nat
  pending : Option (Int32 × List UInt8)
  closed : Bool
  /-- History: the commands run over this connection. -/
  ran : List Ran
  /-- History: what `receive_message` took out. -/
  taken : List ((Int32 × List UInt8) × Taken)

/-- What is raised at the driver. -/
inductive Raised where
  | documentTooLarge (text : String)
  | protocol (text : String)
  /-- What `round_trip` raised. -/
  | failed (error : String)

def tooLarge (size maximum : Nat) : String := s!"BSON document too large ({size} bytes); maximum is {maximum} bytes"

def PENDING_ALREADY : String := "embedded connection already has a pending response"
def PENDING_MISSING : String := "embedded connection has no pending response"

def mismatched (responseTo requestId : Int32) : String :=
  s!"response id {responseTo} does not match request id {requestId}"

namespace Connection

/-- What is left of `send_message` once the command is over. -/
def keep : Except String (Int32 × Bool × List UInt8) → Connection → Connection × Except Raised Unit
  | .ok (requestId, false, response), s => ({ s with pending := some (requestId, response) }, .ok ())
  | .ok (_, true, _), s => (s, .ok ())
  | .error e, s => ({ s with closed := true }, .error (.failed e))

/-- `send_message` -/
def sendMessage (bits : Nat) (codec : Wire.Codec) (message : List UInt8) (maxDocSize : Nat) (served : Served)
    (s : Connection) : Connection × Except Raised Unit :=
  if s.maxBsonSize < maxDocSize then (s, .error (.documentTooLarge (tooLarge maxDocSize s.maxBsonSize)))
  else if s.pending.isSome = true then (s, .error (.protocol PENDING_ALREADY))
  else { s with ran := s.ran ++ runs bits codec message served }.keep (roundTrip bits codec message served)

/-- `receive_message` -/
def receiveMessage (requestId : Option Int32) (s : Connection) : Connection × Except Raised (List UInt8) :=
  match s.pending with
  | none => ({ s with closed := true }, .error (.protocol PENDING_MISSING))
  | some (responseTo, response) =>
    match requestId.filter (· ≠ responseTo) with
    | some requestId =>
      ({ s with pending := none, closed := true, taken := s.taken ++ [((responseTo, response), .dropped)] },
        .error (.protocol (mismatched responseTo requestId)))
    | none => ({ s with pending := none, taken := s.taken ++ [((responseTo, response), .handed)] }, .ok response)

/-- `describe`, as far as the two methods read it. -/
def hello (maxBsonSize : Nat) (s : Connection) : Connection := { s with maxBsonSize := maxBsonSize }

end Connection

/-- What the driver does with its connection. -/
inductive Act where
  | send (message : List UInt8) (maxDocSize : Nat) (served : Served)
  | receive (requestId : Option Int32)
  | hello (maxBsonSize : Nat)
  /-- The driver closes it. -/
  | close

/-- The connection after it. -/
def next (bits : Nat) (codec : Wire.Codec) : Act → Connection → Connection
  | .send message maxDocSize served, s => (s.sendMessage bits codec message maxDocSize served).1
  | .receive requestId, s => (s.receiveMessage requestId).1
  | .hello maxBsonSize, s => s.hello maxBsonSize
  | .close, s => { s with closed := true }

/-- The calls the driver makes on one connection, in any order. -/
def connection (bits : Nat) (codec : Wire.Codec) : Conc.System Connection Act where
  init s := s.pending = none ∧ s.ran = [] ∧ s.taken = []
  step s a s' := s' = next bits codec a s

variable {bits : Nat} {codec : Wire.Codec} {s : Connection}

/-! ## The id of a request is in its header -/

/-- A request has the id of its message. -/
theorem request_id {noCommand database : String} {requestId : Int32} {moreToCome legacy : Bool} {command : Document}
    {r : Wire.Request} (h : Wire.request codec noCommand requestId moreToCome legacy database command = .ok r) :
    r.requestId = requestId := by
  obtain ⟨name, -, h⟩ := Checked.bind_eq_ok.1 h
  obtain ⟨bytes, -, h⟩ := Checked.bind_eq_ok.1 h
  cases h
  rfl

/-- So has one that came as an `OP_MSG`. -/
theorem parseMsg_id {message : List UInt8} {requestId : Int32} {r : Wire.Request}
    (h : Wire.parseMsg bits codec message requestId = .ok r) : r.requestId = requestId := by
  obtain ⟨flags, -, h⟩ := Checked.bind_eq_ok.1 h
  split at h
  · cases h
  obtain ⟨scan, -, h⟩ := Checked.bind_eq_ok.1 h
  obtain ⟨body, -, h⟩ := Checked.bind_eq_ok.1 h
  split at h
  · split at h
    · cases h
    · exact request_id h
  · cases h
  · cases h

/-- So has one that came as an `OP_QUERY`. -/
theorem parseQuery_id {message : List UInt8} {requestId : Int32} {r : Wire.Request}
    (h : Wire.parseQuery bits codec message requestId = .ok r) : r.requestId = requestId := by
  obtain ⟨offset, -, h⟩ := Checked.bind_eq_ok.1 h
  obtain ⟨nul, -, h⟩ := Checked.bind_eq_ok.1 h
  obtain ⟨name, -, h⟩ := Checked.bind_eq_ok.1 h
  obtain ⟨collection, -, h⟩ := Checked.bind_eq_ok.1 h
  split at h
  · split at h
    · cases h
    · obtain ⟨start, -, h⟩ := Checked.bind_eq_ok.1 h
      obtain ⟨position, -, h⟩ := Checked.bind_eq_ok.1 h
      obtain ⟨⟨command, stop⟩, -, h⟩ := Checked.bind_eq_ok.1 h
      dsimp only at h
      split at h
      · cases h
      · exact request_id h
  · cases h

/-- Whatever is accepted is accepted under the id in the second word of its header. -/
theorem parse_id {message : List UInt8} {r : Wire.Request} (h : Wire.parse bits codec message = .ok r) :
    Wire.readI32 bits message 4 = .ok r.requestId := by
  unfold Wire.parse at h
  split at h
  · cases h
  obtain ⟨declaredLen, -, h⟩ := Checked.bind_eq_ok.1 h
  split at h
  · cases h
  obtain ⟨requestId, hid, h⟩ := Checked.bind_eq_ok.1 h
  obtain ⟨opCode, -, h⟩ := Checked.bind_eq_ok.1 h
  rw [hid]
  split at h
  · rw [parseMsg_id h]
  · split at h
    · rw [parseQuery_id h]
    · cases h

/-! ## What was kept is what is taken -/

/-- The replies kept so far are those that were taken and then the one that is pending, each command
is one whose message was accepted, and a reply is dropped with the connection only. -/
structure Paired (bits : Nat) (codec : Wire.Codec) (s : Connection) : Prop where
  kept : s.ran.filterMap Ran.kept = s.taken.map Prod.fst ++ s.pending.toList
  accepted : ∀ r ∈ s.ran, Wire.parse bits codec r.message = .ok r.request
  dropped : ∀ t ∈ s.taken, t.2 = .dropped → s.closed = true

/-- What a round trip answers is the reply that is kept of what it ran. -/
theorem roundTrip_cases (message : List UInt8) (served : Served) :
    ((∃ e, roundTrip bits codec message served = .error e) ∧ (runs bits codec message served).filterMap Ran.kept = []) ∨
    ((∃ id reply, roundTrip bits codec message served = .ok (id, true, reply)) ∧
      (runs bits codec message served).filterMap Ran.kept = []) ∨
    ∃ id reply, roundTrip bits codec message served = .ok (id, false, reply) ∧
      (runs bits codec message served).filterMap Ran.kept = [(id, reply)] := by
  unfold roundTrip runs
  rcases hparse : Wire.parse bits codec message with stop | request
  · left
    rcases stop with e | _ | _ | _
    · exact ⟨⟨e, rfl⟩, rfl⟩
    · exact ⟨⟨_, rfl⟩, rfl⟩
    · exact ⟨⟨_, rfl⟩, rfl⟩
    · exact ⟨⟨_, rfl⟩, rfl⟩
  · rcases served with _ | _ | (e | reply)
    · exact .inl ⟨⟨_, rfl⟩, rfl⟩
    · exact .inl ⟨⟨_, rfl⟩, rfl⟩
    · refine .inl ⟨⟨e, rfl⟩, ?_⟩
      cases hmore : request.moreToCome <;> simp [Ran.kept, hmore]
    · right
      cases hmore : request.moreToCome
      · exact .inr ⟨request.requestId, reply, by simp [hmore], by simp [Ran.kept, hmore]⟩
      · exact .inl ⟨⟨request.requestId, reply, by simp [hmore]⟩, by simp [Ran.kept, hmore]⟩

/-- Only what parses is run. -/
theorem parse_of_mem_runs {message : List UInt8} {served : Served} {r : Ran} (h : r ∈ runs bits codec message served) :
    Wire.parse bits codec r.message = .ok r.request := by
  unfold runs at h
  split at h
  · rename_i request reply hparse
    rw [List.mem_singleton] at h
    subst h
    exact hparse
  · cases h

namespace Paired

/-- A send keeps replies paired with their requests. -/
theorem send (h : Paired bits codec s) (message : List UInt8) (maxDocSize : Nat) (served : Served) :
    Paired bits codec (s.sendMessage bits codec message maxDocSize served).1 := by
  unfold Connection.sendMessage
  split
  · exact h
  split
  · exact h
  rename_i hpending
  have hnone : s.pending = none := by simpa using hpending
  have hkept := h.kept
  rw [hnone, Option.toList_none, List.append_nil] at hkept
  have haccepted : ∀ r ∈ s.ran ++ runs bits codec message served, Wire.parse bits codec r.message = .ok r.request :=
    fun r hr => (List.mem_append.1 hr).elim (h.accepted r) parse_of_mem_runs
  obtain ⟨⟨e, hanswer⟩, hruns⟩ | ⟨⟨id, reply, hanswer⟩, hruns⟩ | ⟨id, reply, hanswer, hruns⟩ :=
    @roundTrip_cases bits codec message served
  · rw [hanswer]
    refine ⟨?_, haccepted, fun _ _ _ => rfl⟩
    simp [Connection.keep, hnone, hkept, hruns]
  · rw [hanswer]
    refine ⟨?_, haccepted, h.dropped⟩
    simp [Connection.keep, hnone, hkept, hruns]
  · rw [hanswer]
    refine ⟨?_, haccepted, h.dropped⟩
    simp [Connection.keep, hkept, hruns]

/-- A receive keeps replies paired with their requests. -/
theorem receive (h : Paired bits codec s) (requestId : Option Int32) :
    Paired bits codec (s.receiveMessage requestId).1 := by
  unfold Connection.receiveMessage
  split
  · exact ⟨h.kept, h.accepted, fun _ _ _ => rfl⟩
  rename_i responseTo response hpending
  have hkept := h.kept
  rw [hpending, Option.toList_some] at hkept
  split
  · exact ⟨by simp [hkept], h.accepted, fun _ _ _ => rfl⟩
  · refine ⟨by simp [hkept], h.accepted, ?_⟩
    intro t ht hdropped
    obtain hold | hnew := List.mem_append.1 ht
    · exact h.dropped t hold hdropped
    · rw [List.mem_singleton] at hnew
      subst hnew
      cases hdropped

end Paired

/-- So they are in every run. -/
theorem paired_of_reach (h : (connection bits codec).Reach s) : Paired bits codec s := by
  refine h.induct ?_ ?_
  · rintro s ⟨hpending, hran, htaken⟩
    refine ⟨?_, ?_, ?_⟩
    · rw [hpending, hran, htaken]
      rfl
    · rw [hran]
      exact fun r hr => by cases hr
    · rw [htaken]
      exact fun t ht => by cases ht
  · rintro s a s' - hi rfl
    cases a with
    | send message maxDocSize served => exact hi.send message maxDocSize served
    | receive requestId => exact hi.receive requestId
    | hello maxBsonSize => exact ⟨hi.kept, hi.accepted, hi.dropped⟩
    | close => exact ⟨hi.kept, hi.accepted, fun _ _ _ => rfl⟩

/-- What is received is the reply that was pending, asked for by its id or by none. -/
theorem receiveMessage_eq_ok {requestId : Option Int32} {reply : List UInt8}
    (h : (s.receiveMessage requestId).2 = .ok reply) :
    ∃ id, s.pending = some (id, reply) ∧ (requestId = none ∨ requestId = some id) := by
  unfold Connection.receiveMessage at h
  split at h
  · cases h
  rename_i responseTo response hpending
  split at h
  · cases h
  · rename_i hfilter
    cases h
    refine ⟨responseTo, hpending, ?_⟩
    cases requestId with
    | none => exact .inl rfl
    | some id => exact .inr (by simpa using hfilter)

/-- A reply is kept when one is wanted and there is one. -/
theorem kept_eq_some {r : Ran} {id : Int32} {reply : List UInt8} (h : r.kept = some (id, reply)) :
    r.request.moreToCome = false ∧ r.reply = .ok reply ∧ r.request.requestId = id := by
  unfold Ran.kept at h
  split at h
  · rename_i hmore hreply
    cases h
    exact ⟨hmore, hreply, rfl⟩
  · cases h
  · cases h

/-- A command and the reply to it, asked for under the id in the header of the message. -/
theorem exchange {message reply : List UInt8} {maxDocSize : Nat} {request : Wire.Request} {id : Int32}
    (hpending : s.pending = none) (hsize : maxDocSize ≤ s.maxBsonSize) (hparse : Wire.parse bits codec message = .ok request)
    (hmore : request.moreToCome = false) (hid : Wire.readI32 bits message 4 = .ok id) :
    ((s.sendMessage bits codec message maxDocSize (.answered (.ok reply))).1.receiveMessage (some id)).2 = .ok reply := by
  obtain rfl : request.requestId = id := Except.ok.inj ((parse_id hparse).symm.trans hid)
  have htrip : roundTrip bits codec message (.answered (.ok reply)) = .ok (request.requestId, false, reply) := by
    simp [roundTrip, hparse, hmore]
  have hfilter : (some request.requestId).filter (fun id => decide (id ≠ request.requestId)) = none := by simp [Option.filter]
  unfold Connection.sendMessage
  rw [if_neg (by omega), if_neg (by simp [hpending]), htrip]
  unfold Connection.keep Connection.receiveMessage
  dsimp only
  rw [hfilter]

/-- As long as the connection is open, what was taken was handed over. -/
theorem Paired.handed (h : Paired bits codec s) (hopen : s.closed = false) :
    s.taken.map Prod.fst = s.taken.filterMap fun t => if t.2 = .handed then some t.1 else none := by
  rw [← List.filterMap_eq_map]
  refine List.filterMap_congr fun t ht => ?_
  cases htaken : t.2 with
  | handed => rfl
  | dropped =>
    rw [h.dropped t ht htaken] at hopen
    cases hopen

/-- Over any calls in any order, with commands that fail, are refused or are cancelled: a reply that
is handed over is the engine's answer to the last command whose reply was kept, every reply kept
before it has been taken, and the id it was asked for under is the one in the header of its
message. A command that was let through is answered to whoever asks under the id of its message, and
as long as the connection is open every reply that was kept has been handed over, in order, but for
the one that is pending. -/
theorem replies_are_paired_with_their_requests {bits : Nat} {codec : Wire.Codec} {s : Connection}
    (h : (connection bits codec).Reach s) :
    (∀ requestId reply, (s.receiveMessage requestId).2 = .ok reply →
      ∃ before r after, s.ran = before ++ r :: after ∧ r.reply = .ok reply ∧ r.request.moreToCome = false ∧
        before.filterMap Ran.kept = s.taken.map Prod.fst ∧ (∀ q ∈ after, q.kept = none) ∧
        ∀ id, requestId = some id → Wire.readI32 bits r.message 4 = .ok id) ∧
    (∀ message maxDocSize request id reply, s.pending = none → maxDocSize ≤ s.maxBsonSize →
      Wire.parse bits codec message = .ok request → request.moreToCome = false → Wire.readI32 bits message 4 = .ok id →
      ((s.sendMessage bits codec message maxDocSize (.answered (.ok reply))).1.receiveMessage (some id)).2 = .ok reply) ∧
    (s.closed = false → s.ran.filterMap Ran.kept =
      (s.taken.filterMap fun t => if t.2 = .handed then some t.1 else none) ++ s.pending.toList) := by
  have paired := paired_of_reach h
  refine ⟨?_, fun _ _ _ _ _ => exchange, fun hopen => ?_⟩
  · intro requestId reply hreply
    obtain ⟨id, hpending, hasked⟩ := receiveMessage_eq_ok hreply
    have hkept := paired.kept
    rw [hpending, Option.toList_some] at hkept
    -- The pending reply is the last of those kept, so its command is the last that has one.
    obtain ⟨front, back, hran, hfront, hback⟩ := List.filterMap_eq_append_iff.1 hkept
    obtain ⟨silent, r, after, rfl, hsilent, hr, hafter⟩ := List.filterMap_eq_cons_iff.1 hback
    obtain ⟨hmore, hanswer, hid⟩ := kept_eq_some hr
    refine ⟨front ++ silent, r, after, by rw [hran, List.append_assoc], hanswer, hmore, ?_, ?_, ?_⟩
    · rw [List.filterMap_append, hfront, List.filterMap_eq_nil_iff.2 hsilent, List.append_nil]
    · exact List.filterMap_eq_nil_iff.1 hafter
    · rintro n rfl
      obtain hnone | hsome := hasked
      · cases hnone
      · cases hsome
        rw [parse_id (paired.accepted r (by simp [hran])), hid]
  · rw [paired.kept, paired.handed hopen]

/-- `{ insert: "people", $db: "app" }` as an OP_MSG, under the id 7. -/
def insertMsg : List UInt8 :=
  [58, 0, 0, 0, 7, 0, 0, 0, 0, 0, 0, 0, 0xdd, 0x07, 0, 0, 0, 0, 0, 0, 0] ++ Wire.insertBytes

/-- It is sent over a fresh connection, and answered. -/
theorem reply_to_an_insert_is_paired :
    ∃ s, (connection 64 Wire.peopleCodec).Reach s ∧ s.ran.map Ran.message = [insertMsg] ∧
      (s.receiveMessage (some 7)).2 = .ok [1, 2, 3] ∧
      ∃ before r after, s.ran = before ++ r :: after ∧ r.reply = .ok [1, 2, 3] ∧
        Wire.readI32 64 r.message 4 = .ok 7 := by
  have fresh : (connection 64 Wire.peopleCodec).Reach ⟨16, none, false, [], []⟩ := .init ⟨rfl, rfl, rfl⟩
  have hreply := (replies_are_paired_with_their_requests fresh).2.1 insertMsg 5
    ⟨7, false, false, "app", "insert", Wire.emptyInsertBytes⟩ 7 [1, 2, 3] rfl (by decide) rfl rfl rfl
  have sent := fresh.next (a := .send insertMsg 5 (.answered (.ok [1, 2, 3]))) rfl
  obtain ⟨before, r, after, hran, hanswer, -, -, -, hid⟩ :=
    (replies_are_paired_with_their_requests sent).1 (some 7) [1, 2, 3] hreply
  exact ⟨_, sent, rfl, hreply, before, r, after, hran, hanswer, hid 7 rfl⟩

end EmbeddedMongo.Bindings.Messages
