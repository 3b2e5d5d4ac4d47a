import EmbeddedMongo.Fmt.Bytes

/-!
# The frames of a reply

`msgFrame` and `replyFrame` of `embedded-mongodb-node/index.js`, and the part of `answer` that fills
in the header. A `Buffer` is its bytes. `Buffer.allocUnsafe` hands out a buffer of a length with
anything in it; every byte of a frame is written over, so what was there does not matter.
-/

namespace EmbeddedMongo.Node

open Fmt

def HEADER_LENGTH : Nat := 16
def OP_REPLY : Int := 1
def OP_MSG : Int := 2013

/-- What a `Buffer` refuses to write: a value its type does not have, or bytes it has no room for. -/
inductive RangeError where
  | value (received : Int)
  | offset (received : Nat)
  deriving DecidableEq, Repr

/-- `engine.roundTrip` has answered: what the reply is framed from. -/
structure RoundTrip where
  requestId : Int32
  moreToCome : Bool
  legacy : Bool
  response : List UInt8
  deriving DecidableEq, Repr

/-! ## Buffers -/

/-- The four bytes of a signed number, least significant first. -/
def leInt32 (value : Int) : List UInt8 := le32 (value % 2 ^ 32).toNat

/-- `Buffer.readInt32LE` -/
def readInt32LE (buffer : List UInt8) (offset : Nat) : Int := (wordAt buffer offset).toInt32.toInt

/-- Bytes in the place of as many others. -/
def put (bytes : List UInt8) (offset : Nat) (buffer : List UInt8) : Except RangeError (List UInt8) :=
  if offset + bytes.length ≤ buffer.length then .ok (buffer.take offset ++ (bytes ++ buffer.drop (offset + bytes.length)))
  else .error (.offset offset)

/-- `Buffer.writeInt32LE`, which throws on a value that does not fit. -/
def writeInt32LE (value : Int) (offset : Nat) (buffer : List UInt8) : Except RangeError (List UInt8) :=
  if -2 ^ 31 ≤ value ∧ value ≤ 2 ^ 31 - 1 then put (leInt32 value) offset buffer else .error (.value value)

/-- `writeUInt32LE(0, offset)` -/
def writeZero32 (offset : Nat) (buffer : List UInt8) : Except RangeError (List UInt8) := put (le32 0) offset buffer

/-- `writeUInt8(0, offset)` -/
def writeZero8 (offset : Nat) (buffer : List UInt8) : Except RangeError (List UInt8) := put [0] offset buffer

/-- `writeBigInt64LE(0n, offset)` -/
def writeZero64 (offset : Nat) (buffer : List UInt8) : Except RangeError (List UInt8) :=
  put (le32 0 ++ le32 0) offset buffer

/-- `body.copy(buffer, offset)`, as much of it as there is room for. -/
def copy (body : List UInt8) (offset : Nat) (buffer : List UInt8) : List UInt8 :=
  buffer.take offset ++ (body.take (buffer.length - offset) ++ buffer.drop (offset + body.length))

/-! ## Frames -/

/-- The frame of an `OP_MSG` reply, its header apart. -/
def msgFrame (body buffer : List UInt8) : Except RangeError (List UInt8) := do
  let frame ← writeInt32LE OP_MSG 12 buffer
  let frame ← writeZero32 16 frame -- flag bits
  let frame ← writeZero8 20 frame -- section kind
  return copy body (HEADER_LENGTH + 5) frame

/-- The frame of an `OP_REPLY`, its header apart. -/
def replyFrame (body buffer : List UInt8) : Except RangeError (List UInt8) := do
  let frame ← writeInt32LE OP_REPLY 12 buffer
  let frame ← writeInt32LE 0 16 frame -- response flags
  let frame ← writeZero64 20 frame -- cursor id
  let frame ← writeInt32LE 0 28 frame -- starting from
  let frame ← writeInt32LE 1 32 frame -- number returned
  return copy body (HEADER_LENGTH + 20) frame

/-- How many bytes precede the response. -/
def RoundTrip.bodyOffset (r : RoundTrip) : Nat := if r.legacy = true then HEADER_LENGTH + 20 else HEADER_LENGTH + 5

/-- What `Buffer.allocUnsafe` is asked for. -/
def RoundTrip.frameLength (r : RoundTrip) : Nat := r.bodyOffset + r.response.length

/-- `legacy ? replyFrame(response) : msgFrame(response)` -/
def RoundTrip.frame (r : RoundTrip) (buffer : List UInt8) : Except RangeError (List UInt8) :=
  if r.legacy = true then replyFrame r.response buffer else msgFrame r.response buffer

/-- The frame up to the first write that depends on the connection. -/
def lengthened (r : RoundTrip) (buffer : List UInt8) : Except RangeError (List UInt8) := do
  let frame ← r.frame buffer
  writeInt32LE frame.length 0 frame

/-- The two ids. -/
def identified (replyId : Nat) (r : RoundTrip) (frame : List UInt8) : Except RangeError (List UInt8) := do
  let frame ← writeInt32LE replyId 4 frame
  writeInt32LE r.requestId.toInt 8 frame

/-! ## What they come to -/

/-- A frame from its op code on. -/
def RoundTrip.tail (r : RoundTrip) : List UInt8 :=
  if r.legacy = true then leInt32 OP_REPLY ++ (leInt32 0 ++ ((le32 0 ++ le32 0) ++ (leInt32 0 ++ (leInt32 1 ++ r.response))))
  else leInt32 OP_MSG ++ (le32 0 ++ ([0] ++ r.response))

/-- A reply as it is written. -/
def frameBytes (replyId : Nat) (r : RoundTrip) : List UInt8 :=
  leInt32 r.frameLength ++ (leInt32 replyId ++ (leInt32 r.requestId.toInt ++ r.tail))

@[simp] theorem length_leInt32 (value : Int) : (leInt32 value).length = 4 := rfl

theorem readInt32LE_leInt32 (value : Int) (low : -2 ^ 31 ≤ value) (high : value ≤ 2 ^ 31 - 1)
    (before after : List UInt8) :
    readInt32LE (before ++ (leInt32 value ++ after)) before.length = value := by
  have hlt : (value % 2 ^ 32).toNat < 2 ^ 32 := by omega
  have hword : (UInt32.ofNat (value % 2 ^ 32).toNat).toNat = (value % 2 ^ 32).toNat := UInt32.toNat_ofNat_of_lt hlt
  rw [readInt32LE, leInt32, ← hword, wordAt_le32, toInt_toInt32, hword]
  split <;> omega

/-- A block of the buffer is written over, whatever it held. -/
theorem put_block (before old after bytes : List UInt8) (same : old.length = bytes.length) :
    put bytes before.length (before ++ (old ++ after)) = .ok (before ++ (bytes ++ after)) := by
  have fits : before.length + bytes.length ≤ (before ++ (old ++ after)).length := by
    simp only [List.length_append]
    omega
  rw [put, if_pos fits, List.take_left, ← same, ← List.length_append, ← List.append_assoc before old, List.drop_left]

theorem writeInt32LE_block (value : Int) (low : -2 ^ 31 ≤ value) (high : value ≤ 2 ^ 31 - 1)
    (before old after : List UInt8) (same : old.length = 4) :
    writeInt32LE value before.length (before ++ (old ++ after)) = .ok (before ++ (leInt32 value ++ after)) := by
  rw [writeInt32LE, if_pos ⟨low, high⟩]
  exact put_block before old after _ same

/-- A value that does not fit is refused. -/
theorem writeInt32LE_refuses {value : Int} (h : ¬ (-2 ^ 31 ≤ value ∧ value ≤ 2 ^ 31 - 1)) (offset : Nat)
    (buffer : List UInt8) :
    writeInt32LE value offset buffer = .error (.value value) :=
  if_neg h

theorem copy_block (before old body : List UInt8) (same : old.length = body.length) :
    copy body before.length (before ++ old) = before ++ body := by
  rw [copy, List.take_left, List.length_append, Nat.add_sub_cancel_left, same, List.take_length,
    List.drop_eq_nil_of_le (by simp [same]), List.append_nil]

theorem exists_append_of_length {l : List UInt8} (n : Nat) {m : Nat} (h : l.length = n + m) :
    ∃ a b, l = a ++ b ∧ a.length = n ∧ b.length = m := by
  refine ⟨l.take n, l.drop n, (List.take_append_drop n l).symm, ?_, ?_⟩
  · rw [List.length_take]
    omega
  · rw [List.length_drop]
    omega

theorem msgFrame_eq {head rest body : List UInt8} (hhead : head.length = 12) (hrest : rest.length = 9 + body.length) :
    msgFrame body (head ++ rest) = .ok (head ++ (leInt32 OP_MSG ++ (le32 0 ++ ([0] ++ body)))) := by
  obtain ⟨opCode, rest, rfl, hopCode, hrest⟩ := exists_append_of_length (l := rest) 4 (m := 5 + body.length) (by omega)
  obtain ⟨flags, rest, rfl, hflags, hrest⟩ := exists_append_of_length (l := rest) 4 (m := 1 + body.length) (by omega)
  obtain ⟨kind, old, rfl, hkind, hold⟩ := exists_append_of_length 1 hrest
  have first := writeInt32LE_block OP_MSG (by decide) (by decide) head opCode (flags ++ (kind ++ old)) hopCode
  have second := put_block (head ++ leInt32 OP_MSG) flags (kind ++ old) (le32 0) hflags
  have third := put_block (head ++ (leInt32 OP_MSG ++ le32 0)) kind old [0] hkind
  have fourth := copy_block (head ++ (leInt32 OP_MSG ++ (le32 0 ++ [0]))) old body hold
  simp only [List.length_append, length_leInt32, length_le32, List.length_singleton, List.append_assoc, hhead] at first second third fourth
  simp only [msgFrame, writeZero32, writeZero8, first, second, third, Bind.bind, Except.bind, Pure.pure, Except.pure]
  exact congrArg Except.ok fourth

theorem replyFrame_eq {head rest body : List UInt8} (hhead : head.length = 12) (hrest : rest.length = 24 + body.length) :
    replyFrame body (head ++ rest) =
      .ok (head ++ (leInt32 OP_REPLY ++ (leInt32 0 ++ ((le32 0 ++ le32 0) ++ (leInt32 0 ++ (leInt32 1 ++ body)))))) := by
  obtain ⟨opCode, rest, rfl, hopCode, hrest⟩ := exists_append_of_length (l := rest) 4 (m := 20 + body.length) (by omega)
  obtain ⟨flags, rest, rfl, hflags, hrest⟩ := exists_append_of_length (l := rest) 4 (m := 16 + body.length) (by omega)
  obtain ⟨cursor, rest, rfl, hcursor, hrest⟩ := exists_append_of_length (l := rest) 8 (m := 8 + body.length) (by omega)
  obtain ⟨start, rest, rfl, hstart, hrest⟩ := exists_append_of_length (l := rest) 4 (m := 4 + body.length) (by omega)
  obtain ⟨count, old, rfl, hcount, hold⟩ := exists_append_of_length 4 hrest
  have first := writeInt32LE_block OP_REPLY (by decide) (by decide) head opCode
    (flags ++ (cursor ++ (start ++ (count ++ old)))) hopCode
  have second := writeInt32LE_block 0 (by decide) (by decide) (head ++ leInt32 OP_REPLY) flags
    (cursor ++ (start ++ (count ++ old))) hflags
  have third := put_block (head ++ (leInt32 OP_REPLY ++ leInt32 0)) cursor (start ++ (count ++ old)) (le32 0 ++ le32 0) hcursor
  have fourth := writeInt32LE_block 0 (by decide) (by decide)
    (head ++ (leInt32 OP_REPLY ++ (leInt32 0 ++ (le32 0 ++ le32 0)))) start (count ++ old) hstart
  have fifth := writeInt32LE_block 1 (by decide) (by decide)
    (head ++ (leInt32 OP_REPLY ++ (leInt32 0 ++ ((le32 0 ++ le32 0) ++ leInt32 0)))) count old hcount
  have sixth := copy_block
    (head ++ (leInt32 OP_REPLY ++ (leInt32 0 ++ ((le32 0 ++ le32 0) ++ (leInt32 0 ++ leInt32 1))))) old body hold
  simp only [List.length_append, length_leInt32, length_le32, List.append_assoc, hhead] at first second third fourth fifth sixth
  simp only [replyFrame, writeZero64, first, second, third, fourth, fifth, Bind.bind, Except.bind, Pure.pure, Except.pure,
    List.append_assoc]
  exact congrArg Except.ok sixth

theorem length_tail (r : RoundTrip) : 12 + r.tail.length = r.frameLength := by
  unfold RoundTrip.tail RoundTrip.frameLength RoundTrip.bodyOffset HEADER_LENGTH
  split <;> simp only [List.length_append, length_leInt32, length_le32, List.length_singleton] <;> omega

/-- The frame of either kind, its first three fields still as allocated. -/
theorem framed_eq {r : RoundTrip} {head rest : List UInt8} (hhead : head.length = 12) (hrest : rest.length = r.tail.length) :
    r.frame (head ++ rest) = .ok (head ++ r.tail) := by
  have htail := length_tail r
  unfold RoundTrip.frame
  unfold RoundTrip.frameLength RoundTrip.bodyOffset HEADER_LENGTH at htail
  cases hlegacy : r.legacy with
  | true =>
    rw [if_pos hlegacy] at htail
    rw [if_pos rfl, replyFrame_eq hhead (by omega), RoundTrip.tail, if_pos hlegacy]
  | false =>
    rw [if_neg (by simp [hlegacy])] at htail
    rw [if_neg Bool.false_ne_true, msgFrame_eq hhead (by omega), RoundTrip.tail, if_neg (by simp [hlegacy])]

/-- The writes up to the length come to a frame in which the two ids are left to write. -/
theorem lengthened_eq {r : RoundTrip} {buffer : List UInt8} (allocated : buffer.length = r.frameLength) :
    ∃ b c, b.length = 4 ∧ c.length = 4 ∧
      lengthened r buffer =
        if r.frameLength ≤ 2 ^ 31 - 1 then .ok (leInt32 r.frameLength ++ (b ++ (c ++ r.tail)))
        else .error (.value r.frameLength) := by
  have htail := length_tail r
  obtain ⟨a, rest, rfl, ha, hrest⟩ := exists_append_of_length (l := buffer) 4 (m := 8 + r.tail.length) (by omega)
  obtain ⟨b, rest, rfl, hb, hrest⟩ := exists_append_of_length (l := rest) 4 (m := 4 + r.tail.length) (by omega)
  obtain ⟨c, rest, rfl, hc, hrest⟩ := exists_append_of_length 4 hrest
  have hhead : (a ++ (b ++ c)).length = 12 := by
    simp only [List.length_append]
    omega
  have framed := framed_eq hhead hrest
  simp only [List.append_assoc] at framed
  have hlength : (a ++ (b ++ (c ++ r.tail))).length = r.frameLength := by
    simp only [List.length_append]
    omega
  refine ⟨b, c, hb, hc, ?_⟩
  simp only [lengthened, framed, Bind.bind, Except.bind, hlength]
  split
  · exact writeInt32LE_block r.frameLength (by omega) (by omega) [] a (b ++ (c ++ r.tail)) ha
  · rename_i beyond
    have outside : ¬ (-2 ^ 31 ≤ (r.frameLength : Int) ∧ (r.frameLength : Int) ≤ 2 ^ 31 - 1) := by omega
    exact writeInt32LE_refuses outside 0 _

/-- A frame under an id that fits. -/
theorem identified_eq {replyId : Nat} (small : replyId < 2 ^ 31) (r : RoundTrip) {b c : List UInt8} (hb : b.length = 4)
    (hc : c.length = 4) :
    identified replyId r (leInt32 r.frameLength ++ (b ++ (c ++ r.tail))) = .ok (frameBytes replyId r) := by
  have low := r.requestId.le_toInt
  have high := r.requestId.toInt_lt
  have first := writeInt32LE_block replyId (by omega) (by omega) (leInt32 r.frameLength) b (c ++ r.tail) hb
  have second := writeInt32LE_block r.requestId.toInt low (by omega) (leInt32 r.frameLength ++ leInt32 replyId) c r.tail hc
  simp only [List.length_append, length_leInt32, List.append_assoc] at first second
  simp only [identified, first, second, Bind.bind, Except.bind]
  rfl

/-- An id that does not fit is refused. -/
theorem identified_refused {replyId : Nat} (large : 2 ^ 31 ≤ replyId) (r : RoundTrip) (frame : List UInt8) :
    identified replyId r frame = .error (.value replyId) := by
  have outside : ¬ (-2 ^ 31 ≤ (replyId : Int) ∧ (replyId : Int) ≤ 2 ^ 31 - 1) := by omega
  simp only [identified, writeInt32LE_refuses outside, Bind.bind, Except.bind]

theorem length_frameBytes (replyId : Nat) (r : RoundTrip) : (frameBytes replyId r).length = r.frameLength := by
  have := length_tail r
  simp only [frameBytes, List.length_append, length_leInt32]
  omega

/-- What a client reads in a frame. -/
structure FrameOf (replyId : Nat) (r : RoundTrip) (frame : List UInt8) : Prop where
  messageLength : readInt32LE frame 0 = frame.length
  requestId : readInt32LE frame 4 = replyId
  responseTo : readInt32LE frame 8 = r.requestId.toInt
  opCode : readInt32LE frame 12 = if r.legacy = true then OP_REPLY else OP_MSG
  /-- No flags, cursor 0 from 0 with one document; or no flags and a body section. -/
  between : (frame.drop HEADER_LENGTH).take (r.bodyOffset - HEADER_LENGTH) =
    if r.legacy = true then leInt32 0 ++ (leInt32 0 ++ (leInt32 0 ++ (leInt32 0 ++ leInt32 1))) else leInt32 0 ++ [0]
  body : frame.drop r.bodyOffset = r.response

theorem tail_opCode (r : RoundTrip) : ∃ rest, r.tail = leInt32 (if r.legacy = true then OP_REPLY else OP_MSG) ++ rest := by
  unfold RoundTrip.tail
  split <;> exact ⟨_, rfl⟩

theorem tail_between (r : RoundTrip) :
    (r.tail.drop 4).take (r.bodyOffset - HEADER_LENGTH) =
      if r.legacy = true then leInt32 0 ++ (leInt32 0 ++ (leInt32 0 ++ (leInt32 0 ++ leInt32 1))) else leInt32 0 ++ [0] := by
  unfold RoundTrip.tail RoundTrip.bodyOffset HEADER_LENGTH
  split <;> rfl

theorem drop_tail (r : RoundTrip) : r.tail.drop (r.bodyOffset - 12) = r.response := by
  unfold RoundTrip.tail RoundTrip.bodyOffset HEADER_LENGTH
  split <;> rfl

/-- What is written has its own length, its id, the request's id, the op code and the response. -/
theorem frameOf_frameBytes {replyId : Nat} {r : RoundTrip} (short : r.frameLength ≤ 2 ^ 31 - 1)
    (small : replyId ≤ 2 ^ 31 - 1) : FrameOf replyId r (frameBytes replyId r) := by
  constructor
  · rw [length_frameBytes]
    exact readInt32LE_leInt32 _ (by omega) (by omega) [] _
  · exact readInt32LE_leInt32 _ (by omega) (by omega) (leInt32 r.frameLength) _
  · have := r.requestId.toInt_lt
    have hread := readInt32LE_leInt32 _ r.requestId.le_toInt (by omega) (leInt32 r.frameLength ++ leInt32 replyId) r.tail
    rw [List.append_assoc] at hread
    exact hread
  · obtain ⟨rest, hrest⟩ := tail_opCode r
    have hread := readInt32LE_leInt32 (if r.legacy = true then OP_REPLY else OP_MSG)
      (by split <;> decide) (by split <;> decide)
      (leInt32 r.frameLength ++ (leInt32 replyId ++ leInt32 r.requestId.toInt)) rest
    rw [frameBytes, hrest]
    simp only [List.append_assoc] at hread
    exact hread
  · exact tail_between r
  · have hoffset : r.bodyOffset = 12 + (r.bodyOffset - 12) := by
      unfold RoundTrip.bodyOffset HEADER_LENGTH
      split <;> rfl
    rw [hoffset, ← List.drop_drop]
    exact drop_tail r

end EmbeddedMongo.Node
