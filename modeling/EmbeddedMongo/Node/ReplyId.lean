import EmbeddedMongo.Node.Framing

/-!
# The reply counter

`replyId` counts the replies of a connection and is written into four bytes. It is counted up after
the command has run, so the reply that does not fit is to a command that took effect.
-/

namespace EmbeddedMongo.Node

open Conc Fmt

section

variable {bits : Nat} {codec : Wire.Codec} {hello : List UInt8}

theorem Replied.replyId_eq {s : Connection} (h : Replied s) : s.replyId = s.written.length := by
  rw [h.ids, h.frames, List.length_mapIdx]

/-- A reply that is due on an open socket is written, or the socket is destroyed. -/
theorem Outcome.due {r : RoundTrip} {s s' : Connection} (h : Outcome (.ok r) s s') (wanted : r.moreToCome = false)
    (isOpen : s.destroyed = false) :
    (s.replyId + 1 < 2 ^ 31 ∧ r.frameLength < 2 ^ 31) ∧ s'.destroyed = false ∧
        s'.written = s.written ++ [frameBytes (s.replyId + 1) r] ∨
      ¬ (s.replyId + 1 < 2 ^ 31 ∧ r.frameLength < 2 ^ 31) ∧ s'.destroyed = true ∧ s'.written = s.written := by
  cases h with
  | failed failure => cases failure
  | silent ok unwanted =>
    cases ok
    rcases unwanted with moreToCome | destroyed
    · exact absurd (wanted.symm.trans moreToCome) Bool.false_ne_true
    · exact absurd (isOpen.symm.trans destroyed) Bool.false_ne_true
  | tooLong ok _ _ long =>
    cases ok
    exact .inr ⟨fun fits => absurd fits.2 (Nat.not_lt.2 long), rfl, rfl⟩
  | exhausted ok _ _ _ last =>
    exact .inr ⟨fun fits => absurd fits.1 (Nat.not_lt.2 last), rfl, rfl⟩
  | replied ok _ _ short small =>
    cases ok
    exact .inl ⟨⟨small, short⟩, isOpen, rfl⟩

/-- What the end of a round trip comes to for the message that is awaited. -/
theorem outcome_of_step {s s' : Connection} {message buffer : List UInt8} (awaited : s.running = some message)
    {client : Option (Except String (List UInt8))} (hs : Step bits codec hello s (.settle client buffer) s') :
    Outcome (roundTrip bits codec hello message client)
      { s with running := none, settled := s.settled ++ [(message, roundTrip bits codec hello message client)] } s' := by
  cases hs with
  | settle awaited' allocated =>
    obtain rfl := Option.some.inj (awaited'.symm.trans awaited)
    exact outcome_settle allocated _

end

/-! ## As many replies as there are numbers -/

/-- An open connection with nothing queued that has replied `n` times. -/
structure Calm (bits : Nat) (codec : Wire.Codec) (hello : List UInt8) (running : Option (List UInt8)) (n : Nat)
    (s : Connection) : Prop where
  reached : (serve bits codec hello).Reach s
  isOpen : s.destroyed = false
  pending : s.pending = []
  queued : s.queued = []
  running : s.running = running
  count : s.written.length = n

section

variable {bits : Nat} {codec : Wire.Codec} {hello message : List UInt8} {n : Nat}

theorem calm_initial : Calm bits codec hello none 0 .initial := ⟨.init rfl, rfl, rfl, rfl, rfl, rfl⟩

/-- A message that comes in one piece is handed over at once. -/
theorem Calm.ask (long : HEADER_LENGTH ≤ message.length) (length : readInt32LE message 0 = message.length) {s : Connection}
    (h : Calm bits codec hello none n s) : ∃ s', Calm bits codec hello (some message) n s' := by
  have hfront : front message = .message message [] :=
    front_eq_message_iff.2 ⟨(List.append_nil _).symm, long, length⟩
  have hdrain : cutter.drain message = ⟨[message], [], false⟩ := by
    rw [Cutter.drain_message hfront, drain_nil]
  have received := h.reached.next (show Step bits codec hello s (.data message) _ from .data)
  simp only [h.pending, List.nil_append, hdrain, h.queued, h.isOpen, Bool.or_false] at received
  exact ⟨_, received.next (show Step bits codec hello _ .start _ from .start h.running rfl), rfl, rfl, rfl, rfl, h.count⟩

variable {client : Option (Except String (List UInt8))} {r : RoundTrip}

/-- The round trip may come to an end whatever the client answers. -/
theorem exists_settle (client : Option (Except String (List UInt8))) {s : Connection} (awaited : s.running = some message) :
    ∃ buffer s', Step bits codec hello s (.settle client buffer) s' := by
  obtain ⟨buffer, allocated⟩ := exists_buffer (roundTrip bits codec hello message client)
  exact ⟨buffer, _, .settle awaited allocated⟩

theorem Calm.answer (ok : roundTrip bits codec hello message client = .ok r) (wanted : r.moreToCome = false)
    (short : r.frameLength < 2 ^ 31) (small : n + 1 < 2 ^ 31) {s : Connection}
    (h : Calm bits codec hello (some message) n s) : ∃ s', Calm bits codec hello none (n + 1) s' := by
  obtain ⟨buffer, s', hs⟩ := exists_settle client h.running
  have count := ((inv_of_reach h.reached).replied h.isOpen).replyId_eq
  have outcome := outcome_of_step h.running hs
  rw [ok] at outcome
  obtain ⟨-, pending, queued, -, running⟩ := outcome.same
  have fits : s.replyId + 1 < 2 ^ 31 ∧ r.frameLength < 2 ^ 31 := ⟨by rw [count, h.count]; exact small, short⟩
  rcases outcome.due wanted h.isOpen with ⟨-, stays, written⟩ | ⟨beyond, -, -⟩
  · refine ⟨s', h.reached.next hs, stays, pending.trans h.pending, queued.trans h.queued, running, ?_⟩
    rw [written, List.length_append, h.count]
    rfl
  · exact absurd fits beyond

/-- A message that can be answered can be answered as often as the counter goes. -/
theorem exists_calm (long : HEADER_LENGTH ≤ message.length) (length : readInt32LE message 0 = message.length)
    (ok : roundTrip bits codec hello message client = .ok r) (wanted : r.moreToCome = false)
    (short : r.frameLength < 2 ^ 31) (small : n < 2 ^ 31) : ∃ s, Calm bits codec hello none n s := by
  induction n with
  | zero => exact ⟨_, calm_initial⟩
  | succ n ih =>
    obtain ⟨s, calm⟩ := ih (by omega)
    obtain ⟨s', asked⟩ := calm.ask long length
    exact asked.answer ok wanted short small

end

/-- The insert can be the command after any number of replies the counter has. -/
theorem exists_insert_awaited {n : Nat} (small : n < 2 ^ 31) :
    ∃ s, Calm 64 Wire.peopleCodec [] (some insertMessage) n s := by
  have long : HEADER_LENGTH ≤ insertMessage.length := by decide
  have length : readInt32LE insertMessage 0 = insertMessage.length := by decide
  obtain ⟨s, calm⟩ := exists_calm long length roundTrip_insertMessage rfl (by decide) small
  exact calm.ask long length

/-! ## The counter -/

/-- **A reply is written while the counter fits.** The reply to a round trip that succeeded is
written, under the number of replies before it and one, just if that number and the length of the
frame are below `2 ^ 31`; otherwise nothing is written and the socket is destroyed. -/
theorem open_after_reply_iff_counter_fits {bits : Nat} {codec : Wire.Codec} {hello : List UInt8}
    {s s' : Connection} (h : (serve bits codec hello).Reach s)
    (isOpen : s.destroyed = false) {message buffer : List UInt8} (awaited : s.running = some message)
    {client : Option (Except String (List UInt8))} {r : RoundTrip}
    (ok : roundTrip bits codec hello message client = .ok r) (wanted : r.moreToCome = false)
    (hs : Step bits codec hello s (.settle client buffer) s') :
    (s'.destroyed = false ↔ s.written.length + 1 < 2 ^ 31 ∧ r.frameLength < 2 ^ 31) ∧
    (s'.destroyed = false → ∃ frame, s'.written = s.written ++ [frame] ∧ FrameOf (s.written.length + 1) r frame) ∧
    (s'.destroyed = true → s'.written = s.written) := by
  have count := ((inv_of_reach h).replied isOpen).replyId_eq
  have outcome := outcome_of_step awaited hs
  rw [ok] at outcome
  rw [← count]
  rcases outcome.due wanted isOpen with ⟨fits, stays, written⟩ | ⟨beyond, destroyed, written⟩
  · refine ⟨iff_of_true stays fits, fun _ => ⟨_, written, ?_⟩, fun destroyed => ?_⟩
    · exact frameOf_frameBytes (Nat.le_sub_one_of_lt fits.2) (Nat.le_sub_one_of_lt fits.1)
    · exact absurd (stays.symm.trans destroyed) Bool.false_ne_true
  · have gone : ¬ s'.destroyed = false := by simp [destroyed]
    exact ⟨iff_of_false gone beyond, fun stays => absurd stays gone, fun _ => written⟩

/-- The first reply of a connection. -/
theorem open_after_reply_iff_counter_fits_of_first :
    ∃ s buffer s', (serve 64 Wire.peopleCodec []).Reach s ∧ s.written = [] ∧
      Step 64 Wire.peopleCodec [] s (.settle (some (.ok inserted.response)) buffer) s' ∧ s'.destroyed = false := by
  obtain ⟨s, calm⟩ := exists_insert_awaited (n := 0) (by decide)
  obtain ⟨buffer, s', hs⟩ := exists_settle (some (.ok inserted.response)) calm.running
  obtain ⟨fits, -⟩ := open_after_reply_iff_counter_fits calm.reached calm.isOpen calm.running roundTrip_insertMessage rfl hs
  refine ⟨s, buffer, s', calm.reached, List.length_eq_zero_iff.1 calm.count, hs, fits.2 ⟨?_, by decide⟩⟩
  rw [calm.count]
  decide

/-- After `2 ^ 31 - 1` replies the insert that has run is not replied to, and the socket is destroyed. -/
theorem counter_runs_out :
    ∃ s buffer s', (serve 64 Wire.peopleCodec []).Reach s ∧ s.destroyed = false ∧ s.running = some insertMessage ∧
      s.written.length = 2 ^ 31 - 1 ∧
      Step 64 Wire.peopleCodec [] s (.settle (some (.ok inserted.response)) buffer) s' ∧
      s'.destroyed = true ∧ s'.written = s.written := by
  obtain ⟨s, calm⟩ := exists_insert_awaited (n := 2 ^ 31 - 1) (by decide)
  obtain ⟨buffer, s', hs⟩ := exists_settle (some (.ok inserted.response)) calm.running
  have count := ((inv_of_reach calm.reached).replied calm.isOpen).replyId_eq
  have outcome := outcome_of_step calm.running hs
  rw [roundTrip_insertMessage] at outcome
  rcases outcome.due rfl calm.isOpen with ⟨fits, -, -⟩ | ⟨-, destroyed, written⟩
  · have small : s.replyId + 1 < 2 ^ 31 := fits.1
    rw [count, calm.count] at small
    exact absurd small (by decide)
  · exact ⟨s, buffer, s', calm.reached, calm.isOpen, calm.running, calm.count, hs, destroyed, written⟩

end EmbeddedMongo.Node
