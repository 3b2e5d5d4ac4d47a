import EmbeddedMongo.Bson
import EmbeddedMongo.Fmt.Bytes
import EmbeddedMongo.Fmt.Checked

/-!
# The wire parser

`embedded-mongodb-wire/src/lib.rs`. A message is its bytes, an offset a number below `2 ^ bits`
where `bits` is the width of `usize`. Every addition and every slice is made with the check the
language makes, so that an overflow or an index out of bounds is an outcome of its own; the two
`while` loops run on fuel, and running out of it is another.
-/

namespace EmbeddedMongo.Wire

open Fmt Fmt.Checked

/-- The `bson` crate, as far as the parser calls it. A `Document` is a map: no decoded document
has a key twice. -/
structure Codec where
  /-- `Document::from_reader` on a slice. -/
  decode : List UInt8 → Except String Document
  /-- `Document::to_vec`. -/
  encode : Document → Except String (List UInt8)
  distinct : ∀ bytes document, decode bytes = .ok document → (Document.keys document).Nodup

def OP_MSG : Int32 := 2013
def OP_QUERY : Int32 := 2004
def MORE_TO_COME : UInt32 := (1 : UInt32) <<< 1

/-- What a message asks for. -/
structure Request where
  requestId : Int32
  moreToCome : Bool
  legacy : Bool
  database : String
  commandName : String
  command : List UInt8
  deriving DecidableEq, Repr

/-- `bytes.get(offset..offset + 4)`, as the four bytes. -/
def word (bytes : List UInt8) (offset : Nat) : Option (UInt8 × UInt8 × UInt8 × UInt8) :=
  match bytes.drop offset with
  | a :: b :: c :: d :: _ => some (a, b, c, d)
  | _ => none

section

variable (bits : Nat)

/-- `read_u32` -/
def readU32 (bytes : List UInt8) (offset : Nat) : Checked String UInt32 := do
  let _ ← add bits offset 4
  let (a, b, c, d) ← require "truncated OP_MSG integer" (word bytes offset)
  return ofLE32 a b c d

/-- `read_i32` -/
def readI32 (bytes : List UInt8) (offset : Nat) : Checked String Int32 := do
  let n ← readU32 bits bytes offset
  return n.toInt32

variable (codec : Codec) (message : List UInt8)

/-- The document at `position`, and the position after it. -/
def readDocument (position stop : Nat) : Checked String (Document × Nat) := do
  let documentLen ← readI32 bits message position
  if documentLen.toInt < 5 then fail "invalid BSON document length in OP_MSG"
  else
    let documentEnd ← require "BSON document exceeds its OP_MSG section"
      ((checkedAdd bits position documentLen.toInt.toNat).filter (· ≤ stop))
    let raw ← slice position documentEnd message
    let document ← report (s!"invalid BSON document in OP_MSG: {·}") (codec.decode raw)
    return (document, documentEnd)

/-- Where `read_sequence` is among its documents. -/
structure Documents where
  position : Nat
  documents : List Bson

/-- One turn of `read_sequence`'s loop. -/
def nextDocument (stop : Nat) (s : Documents) : Checked String Documents := do
  let (document, position) ← readDocument bits codec message s.position stop
  return ⟨position, s.documents ++ [.document document]⟩

/-- The sequence at `position`, and the position after it. -/
def readSequence (position : Nat) : Checked String ((String × List Bson) × Nat) := do
  let sectionLen ← readI32 bits message position
  if sectionLen.toInt < 5 then fail "invalid OP_MSG document-sequence length"
  else
    let sectionEnd ← require "OP_MSG document sequence exceeds the buffer"
      ((checkedAdd bits position sectionLen.toInt.toNat).filter (· ≤ message.length))
    let position ← add bits position 4
    let rest ← slice position sectionEnd message
    let offset ← require "OP_MSG document sequence has no identifier terminator" (rest.findIdx? (· == 0))
    let nul ← add bits position offset
    let name ← slice position nul message
    let identifier ← require "OP_MSG document-sequence identifier is not UTF-8" (fromUtf8 name)
    if identifier = "" then fail "OP_MSG document-sequence identifier is empty"
    else
      let position ← add bits nul 1
      let s ← loop (fun s => decide (s.position < sectionEnd)) (nextDocument bits codec message sectionEnd)
        message.length ⟨position, []⟩
      return ((identifier, s.documents), s.position)

/-- The locals of `parse_msg`'s loop. -/
structure Scan where
  position : Nat
  body : Option Document
  sequences : List (String × List Bson)

/-- One turn of the loop: the section at the position. -/
def readSection (s : Scan) : Checked String Scan := do
  let kind ← require "missing OP_MSG section kind" message[s.position]?
  let position ← add bits s.position 1
  if kind = 0 then
    if s.body.isSome = true then fail "OP_MSG contains more than one body section"
    else
      let (document, position) ← readDocument bits codec message position message.length
      return { s with position := position, body := some document }
  else if kind = 1 then
    let (sequence, position) ← readSequence bits codec message position
    return { s with position := position, sequences := s.sequences ++ [sequence] }
  else fail s!"unsupported OP_MSG section kind: {kind}"

/-- Every sequence becomes an array under its identifier. -/
def merge (body : Document) (sequences : List (String × List Bson)) : Document :=
  sequences.foldl (fun command sequence => Document.insert sequence.1 (.array sequence.2) command) body

/-- What the two kinds of message end with: the first key names the command. -/
def request (noCommand : String) (requestId : Int32) (moreToCome legacy : Bool) (database : String) (command : Document) :
    Checked String Request := do
  let commandName ← require noCommand (Document.keys command).head?
  let command ← report (s!"failed to encode BSON command: {·}") (codec.encode command)
  return { requestId, moreToCome, legacy, database, commandName, command }

/-- The loop of `parse_msg`, from the first section on. -/
def readSections : Checked String Scan :=
  loop (fun s => decide (s.position < message.length)) (readSection bits codec message) message.length ⟨20, none, []⟩

/-- What `parse_msg` makes of the sections it read. -/
def finishMsg (requestId : Int32) (moreToCome : Bool) (s : Scan) : Checked String Request := do
  let body ← require "OP_MSG has no body section" s.body
  match Document.remove "$db" (merge body s.sequences) with
  | (some (.string database), command) =>
    if database = "" then fail "OP_MSG $db must be a non-empty string"
    else request codec "OP_MSG body names no command" requestId moreToCome false database command
  | (some _, _) => fail "OP_MSG $db must be a non-empty string"
  | (none, _) => fail "OP_MSG body has no $db field"

/-- `parse_msg` -/
def parseMsg (requestId : Int32) : Checked String Request := do
  let flags ← readU32 bits message 16
  if flags &&& ~~~MORE_TO_COME ≠ 0 then
    fail ("unsupported OP_MSG flags: 0x" ++ String.ofList (Nat.toDigits 16 flags.toNat))
  else
    let s ← readSections bits codec message
    finishMsg codec requestId (flags &&& MORE_TO_COME ≠ 0) s

/-- `str::split_once` -/
def splitOnce (separator : Char) (text : String) : Option (String × String) :=
  match text.toList.dropWhile (· != separator) with
  | [] => none
  | _ :: after => some (String.ofList (text.toList.takeWhile (· != separator)), String.ofList after)

/-- `parse_query` -/
def parseQuery (requestId : Int32) : Checked String Request := do
  let offset ← require "OP_QUERY collection name has no terminator" ((message.drop 20).findIdx? (· == 0))
  let nul ← add bits 20 offset
  let name ← slice 20 nul message
  let collection ← require "OP_QUERY collection name is not UTF-8" (fromUtf8 name)
  match splitOnce '.' collection with
  | some (database, "$cmd") =>
    if database = "" then fail "OP_QUERY names an empty database"
    else
      let position ← add bits nul 1
      let position ← add bits position 8
      let (command, position) ← readDocument bits codec message position message.length
      if position ≠ message.length then fail "OP_QUERY carries more than one document"
      else request codec "OP_QUERY names no command" requestId false true database command
  | _ =>
    fail ("OP_QUERY may only carry a command, and \x60" ++ collection ++ "\x60 is not a \x60$cmd\x60 collection")

/-- `parse` -/
def parse : Checked String Request := do
  if message.length < 21 then fail "wire message is shorter than its header and first section"
  else
    let declaredLen ← readI32 bits message 0
    if declaredLen.toInt < 0 ∨ declaredLen.toInt.toNat ≠ message.length then
      fail "wire message length does not match the buffer"
    else
      let requestId ← readI32 bits message 4
      let opCode ← readI32 bits message 12
      if opCode = OP_MSG then parseMsg bits codec message requestId
      else if opCode = OP_QUERY then parseQuery bits codec message requestId
      else fail ("embedded MongoDB only accepts OP_MSG and OP_QUERY requests, not op code " ++ toString opCode)

end

end EmbeddedMongo.Wire
