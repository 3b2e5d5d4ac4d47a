import EmbeddedMongo.Conc.System
import EmbeddedMongo.Fmt.Stream
import EmbeddedMongo.Node.Frames
import EmbeddedMongo.Wire.Parser

/-!
# A connection

`serve` of `embedded-mongodb-node/index.js`, over `Engine::round_trip` of its `src/lib.rs`. The
data handler runs to its end, so it is one step; the promise chain runs `answer` for one message
after the other, from the call of `roundTrip` (`start`) to what is done with its result (`settle`).
A `data` event may come at any time, and so may the end of the socket.
-/

namespace EmbeddedMongo.Node

open Conc Fmt

/-! ## `Engine::round_trip` -/

def isHello (commandName : String) : Bool :=
  commandName == "hello" || commandName.toList.map Char.toLower == "ismaster".toList

/-- `round_trip`, given what the client answers if it is asked: nothing once the engine is closed. -/
def roundTrip (bits : Nat) (codec : Wire.Codec) (hello message : List UInt8)
    (client : Option (Except String (List UInt8))) : Except String RoundTrip :=
  match Wire.parse bits codec message with
  | .error (.err e) => .error e
  | .error .overflow | .error .bounds | .error .diverged => .error "panic"
  | .ok request =>
    let response :=
      if isHello request.commandName = true then .ok hello
      else client.getD (.error "embedded MongoDB engine is closed")
    match response with
    | .error e => .error e
    | .ok response => .ok ⟨request.requestId, request.moreToCome, request.legacy, response⟩

/-! ## The data handler -/

/-- What the loop finds at the front of `pending`. -/
def front (pending : List UInt8) : Front UInt8 (List UInt8) :=
  if pending.length < 4 then .more
  else
    let length := readInt32LE pending 0
    if length < HEADER_LENGTH then .bad
    else if pending.length < length then .more
    else .message (pending.take length.toNat) (pending.drop length.toNat)

theorem readInt32LE_append {bytes : List UInt8} {offset : Nat} (h : offset + 4 ≤ bytes.length) (after : List UInt8) :
    readInt32LE (bytes ++ after) offset = readInt32LE bytes offset := by
  rw [readInt32LE, wordAt_append h, readInt32LE]

/-- A message is at the front when its length is declared, allowed and there. -/
theorem front_eq_message_iff {pending m rest : List UInt8} :
    front pending = .message m rest ↔
      pending = m ++ rest ∧ HEADER_LENGTH ≤ m.length ∧ readInt32LE pending 0 = m.length := by
  unfold front
  dsimp only
  constructor
  · intro h
    split at h
    · cases h
    · split at h
      · cases h
      · split at h
        · cases h
        · rename_i hallowed hthere
          cases h
          rw [List.length_take]
          exact ⟨(List.take_append_drop _ _).symm, by omega, by omega⟩
  · rintro ⟨rfl, hallowed, hlength⟩
    have hthere : (m ++ rest).length = m.length + rest.length := List.length_append
    have hheader : HEADER_LENGTH = 16 := rfl
    rw [if_neg (by omega), if_neg (by omega), if_neg (by omega), hlength, Int.toNat_natCast, List.take_left, List.drop_left]

theorem front_more {pending : List UInt8} (h : front pending = .more) :
    pending.length < 4 ∨ (pending.length : Int) < readInt32LE pending 0 := by
  unfold front at h
  split at h
  · rename_i hshort
    exact .inl hshort
  · dsimp only at h
    split at h
    · cases h
    · split at h
      · rename_i hmissing
        exact .inr hmissing
      · cases h

theorem front_bad_iff {pending : List UInt8} :
    front pending = .bad ↔ 4 ≤ pending.length ∧ readInt32LE pending 0 < HEADER_LENGTH := by
  unfold front
  split
  · rename_i hshort
    exact iff_of_false nofun fun h => by omega
  · rename_i hlong
    dsimp only
    split
    · rename_i hbad
      exact iff_of_true rfl ⟨by omega, hbad⟩
    · rename_i hgood
      refine iff_of_false ?_ fun h => hgood h.2
      split <;> nofun

/-- The loop of the data handler. -/
def cutter : Cutter UInt8 (List UInt8) where
  front := front
  shorter h := by
    obtain ⟨rfl, hlong, -⟩ := front_eq_message_iff.1 h
    unfold HEADER_LENGTH at hlong
    simp only [List.length_append]
    omega
  stable ys h := by
    obtain ⟨rfl, hlong, hlength⟩ := front_eq_message_iff.1 h
    refine front_eq_message_iff.2 ⟨List.append_assoc _ _ _, hlong, ?_⟩
    unfold HEADER_LENGTH at hlong
    rw [readInt32LE_append (by simp only [List.length_append]; omega), hlength]

/-- One connection, with what it has been sent and what it has done. -/
structure Connection where
  /-- History: the chunks so far. -/
  received : List UInt8
  pending : List UInt8
  /-- The messages whose `answer` has not been called. -/
  queued : List (List UInt8)
  /-- The message whose `roundTrip` is awaited. -/
  running : Option (List UInt8)
  /-- History: the messages whose `answer` is over, with what `roundTrip` came to. -/
  settled : List (List UInt8 × Except String RoundTrip)
  replyId : Nat
  /-- What was written, write by write. -/
  written : List (List UInt8)
  destroyed : Bool
  /-- History: somebody else ended the socket. -/
  ended : Bool

namespace Connection

def initial : Connection where
  received := []
  pending := []
  queued := []
  running := none
  settled := []
  replyId := 0
  written := []
  destroyed := false
  ended := false

/-- The messages `roundTrip` was called with. -/
def handed (s : Connection) : List (List UInt8) := s.settled.map Prod.fst ++ s.running.toList

/-- `++replyId` and what is left of `answer`, after the two writes that follow it. -/
def send : Except RangeError (List UInt8) → Connection → Connection
  | .ok frame, s => { s with replyId := s.replyId + 1, written := s.written ++ [frame] }
  | .error _, s => { s with replyId := s.replyId + 1, destroyed := true }

/-- From the write of the length on. -/
def identify (r : RoundTrip) : Except RangeError (List UInt8) → Connection → Connection
  | .ok frame, s => s.send (identified (s.replyId + 1) r frame)
  | .error _, s => { s with destroyed := true }

/-- `answer` once `roundTrip` has answered, given the buffer that is allocated. -/
def answered (r : RoundTrip) (buffer : List UInt8) (s : Connection) : Connection :=
  if r.moreToCome = true ∨ s.destroyed = true then s else s.identify r (lengthened r buffer)

/-- The same with the `catch` of the chain. -/
def settle (buffer : List UInt8) : Except String RoundTrip → Connection → Connection
  | .ok r, s => s.answered r buffer
  | .error _, s => { s with destroyed := true }

end Connection

inductive Act where
  | data (chunk : List UInt8)
  | start
  | settle (client : Option (Except String (List UInt8))) (buffer : List UInt8)
  | finish

/-- The steps of one connection to an engine that answers `hello`. -/
inductive Step (bits : Nat) (codec : Wire.Codec) (hello : List UInt8) : Connection → Act → Connection → Prop where
  /-- The data handler. -/
  | data {s : Connection} {chunk : List UInt8} :
      Step bits codec hello s (.data chunk)
        { s with
          received := s.received ++ chunk
          pending := (cutter.drain (s.pending ++ chunk)).rest
          queued := s.queued ++ (cutter.drain (s.pending ++ chunk)).messages
          destroyed := s.destroyed || (cutter.drain (s.pending ++ chunk)).bad }
  /-- The chain calls `answer` once nothing is awaited. -/
  | start {s : Connection} {message : List UInt8} {rest : List (List UInt8)} (idle : s.running = none)
      (next : s.queued = message :: rest) :
      Step bits codec hello s .start { s with queued := rest, running := some message }
  /-- `roundTrip` has come to an end; the buffer is what `allocUnsafe` hands out. -/
  | settle {s : Connection} {message buffer : List UInt8} {client : Option (Except String (List UInt8))}
      (awaited : s.running = some message)
      (allocated : ∀ r, roundTrip bits codec hello message client = .ok r → buffer.length = r.frameLength) :
      Step bits codec hello s (.settle client buffer)
        (Connection.settle buffer (roundTrip bits codec hello message client)
          { s with
            running := none
            settled := s.settled ++ [(message, roundTrip bits codec hello message client)] })
  /-- The other side, or `close`, ends the socket. -/
  | finish {s : Connection} : Step bits codec hello s .finish { s with destroyed := true, ended := true }

def serve (bits : Nat) (codec : Wire.Codec) (hello : List UInt8) : System Connection Act where
  init s := s = .initial
  step := Step bits codec hello

end EmbeddedMongo.Node
