import EmbeddedMongo.Wire.Grammar

/-!
# Hostile input

On every byte string the parser comes to an end, with a request or with an error it reports, and a
message it accepts is exactly its sections.
-/

namespace EmbeddedMongo.Wire

open Fmt Fmt.Checked

variable {bits : Nat} {codec : Codec} {message : List UInt8}

/-- `r` asks for `command`. -/
structure Asks (codec : Codec) (command : Document) (r : Request) : Prop where
  named : (Document.keys command).head? = some r.commandName
  encoded : codec.encode command = .ok r.command

/-- A request asks for what its command is. -/
theorem request_sound {noCommand : String} {requestId : Int32} {moreToCome legacy : Bool} {database : String}
    {command : Document} :
    Safe (fun r => Asks codec command r ∧ r.legacy = legacy ∧ r.database = database)
      (request codec noCommand requestId moreToCome legacy database command) := by
  apply Safe.bind (.require (P := fun name => (Document.keys command).head? = some name) fun _ h => h)
  intro name hname
  apply Safe.bind (.report (P := fun bytes => codec.encode command = .ok bytes) fun _ h => h)
  intro bytes hbytes
  exact ⟨⟨hname, hbytes⟩, rfl, rfl⟩

/-- The sections an OP_MSG is accepted for, and the request they come to: the sequences merged
into the body, less `$db`. -/
structure Accepted (bits : Nat) (codec : Codec) (message : List UInt8) (sections : List Section) (r : Request) : Prop where
  read : readSections bits codec message = .ok (.readAll sections)
  valid : ∀ sec ∈ sections, sec.Valid codec
  /-- Byte for byte, from the first section to the end of the message. -/
  tiles : message.drop 20 = sections.flatMap Section.bytes
  one : sections.countP Section.isBody = 1
  merged : ∃ body command, (Scan.readAll sections).body = some body ∧
    Document.remove "$db" (merge body (Scan.readAll sections).sequences) = (some (.string r.database), command) ∧
    r.database ≠ "" ∧ Asks codec command r

/-- An accepted `OP_MSG` is its sections. -/
theorem parseMsg_sound {requestId : Int32} (room : Room bits message) (hlong : 20 ≤ message.length) :
    Safe (fun r => r.legacy = false ∧ ∃ sections, Accepted bits codec message sections r)
      (parseMsg bits codec message requestId) := by
  have hroom := room
  unfold Room at hroom
  refine Safe.bind (readU32_sound (by omega)) ?_
  rintro flags -
  split
  · exact .fail
  refine Safe.bind (sections_sound room hlong).seen ?_
  rintro s ⟨hread, hposition, sections, hvalid, hbody, rfl, -, htiled⟩
  refine Safe.bind (P := fun body => (Scan.readAll sections).body = some body) (.require fun _ h => h) ?_
  intro body hsome
  have hone : sections.countP Section.isBody ≠ 0 := by
    intro hzero
    have hnone : (Scan.readAll sections).body = none := Scan.body_foldl_read.2 ⟨rfl, hzero⟩
    rw [hsome] at hnone
    cases hnone
  rw [hposition, List.drop_length, List.append_nil] at htiled
  split
  · rename_i database command hremove
    split
    · exact .fail
    · rename_i hne
      refine request_sound.mono ?_
      rintro r ⟨hasks, hlegacy, rfl⟩
      exact ⟨hlegacy, sections, hread, hvalid, htiled, by omega, body, command, hsome, hremove, hne, hasks⟩
  · exact .fail
  · exact .fail

/-- An `OP_QUERY` never makes the parser panic. -/
theorem parseQuery_safe {requestId : Int32} (room : Room bits message) (hlong : 20 ≤ message.length) :
    Safe (fun r => r.legacy = true) (parseQuery bits codec message requestId) := by
  have hroom := room
  unfold Room at hroom
  refine Safe.bind (P := fun offset => 20 + offset < message.length) (.require ?_) ?_
  · intro offset hoffset
    obtain ⟨front, a, back, hsplit, rfl, -⟩ := exists_of_findIdx? hoffset
    have hlength := congrArg List.length hsplit
    simp only [List.length_drop, List.length_append, List.length_cons] at hlength
    omega
  intro offset hoffset
  refine Safe.bind (P := fun nul => nul = 20 + offset) (.add (by omega) rfl) ?_
  rintro _ rfl
  refine Safe.bind (P := fun _ => True) (.slice (by omega) (by omega) trivial) ?_
  intro name _
  refine Safe.bind (P := fun _ => True) (.require fun _ _ => trivial) ?_
  intro collection _
  split
  · split
    · exact .fail
    · refine Safe.bind (P := fun next => next = 20 + offset + 1) (.add (by omega) rfl) ?_
      rintro _ rfl
      refine Safe.bind (P := fun next => next = 20 + offset + 1 + 8) (.add (by omega) rfl) ?_
      rintro _ rfl
      refine Safe.bind (readDocument_sound room (by omega) (Nat.le_refl _)) ?_
      rintro ⟨command, next⟩ -
      dsimp only
      split
      · exact .fail
      · exact request_sound.mono fun r h => h.2.1
  · exact .fail

/-- The op code of the header. -/
def IsMsg (bits : Nat) (message : List UInt8) : Prop := readI32 bits message 12 = .ok OP_MSG

/-- Neither does any message. -/
theorem parse_sound (room : Room bits message) :
    Safe (fun r => IsMsg bits message → ∃ sections, Accepted bits codec message sections r)
      (parse bits codec message) := by
  have hroom := room
  unfold Room at hroom
  unfold parse
  split
  · exact .fail
  rename_i hlong
  refine Safe.bind (readI32_sound (by omega)) ?_
  rintro declaredLen -
  split
  · exact .fail
  refine Safe.bind (readI32_sound (by omega)) ?_
  rintro requestId -
  refine Safe.bind (readI32_sound (by omega)).seen ?_
  rintro opCode ⟨hopCode, -⟩
  split
  · exact (parseMsg_sound room (by omega)).mono fun r h _ => h.2
  · rename_i hother
    split
    · refine (parseQuery_safe room (by omega)).mono ?_
      intro r _ hmsg
      rw [IsMsg, hopCode] at hmsg
      exact absurd (Except.ok.inj hmsg) hother
    · exact .fail

/-! ## One turn of a loop -/

theorem readSection_advances {s s' : Scan} (room : Room bits message) (hposition : s.position < message.length)
    (h : readSection bits codec message s = .ok s') : s.position < s'.position ∧ s'.position ≤ message.length := by
  obtain ⟨sec, -, -, rfl, hend, -⟩ := (readSection_sound room hposition).of_eq h
  have := sec.bytes_pos
  refine ⟨?_, hend⟩
  rw [Scan.position_read]
  omega

theorem nextDocument_advances {stop : Nat} {s s' : Documents} (room : Room bits message) (hstop : stop ≤ message.length)
    (hposition : s.position < stop) (h : nextDocument bits codec message stop s = .ok s') :
    s.position < s'.position ∧ s'.position ≤ stop := by
  obtain ⟨⟨document, next⟩, hread, hs'⟩ := bind_eq_ok.1 h
  obtain ⟨hend, raw, hraw, hlength, -⟩ := (readDocument_sound room (by omega) hstop).of_eq hread
  have hlong := hraw.framed.long
  cases hs'
  dsimp only at hend hlength ⊢
  exact ⟨by omega, hend⟩

/-- **The parser is total and exact.** Whatever the bytes and whatever the decoder accepts, it ends
with a request or a reported error; every turn of its two loops moves forward and stays within
bounds; and an accepted OP_MSG is exactly its sections, one of them the body, each sequence as long
as it declares and its documents within that. -/
theorem wire_parser_is_total_and_exact (bits : Nat) (codec : Codec) (message : List UInt8) (hbits : 32 ≤ bits)
    (hlength : message.length ≤ 2 ^ (bits - 1) - 1) :
    ((∃ r, parse bits codec message = .ok r) ∨ ∃ e, parse bits codec message = .error (.err e)) ∧
    (∀ s s', s.position < message.length → readSection bits codec message s = .ok s' →
      s.position < s'.position ∧ s'.position ≤ message.length) ∧
    (∀ stop s s', stop ≤ message.length → s.position < stop → nextDocument bits codec message stop s = .ok s' →
      s.position < s'.position ∧ s'.position ≤ stop) ∧
    ∀ r, parse bits codec message = .ok r → IsMsg bits message →
      ∃ sections, Accepted bits codec message sections r ∧
        ∀ identifier documents, Section.sequence identifier documents ∈ sections →
          (Section.sequence identifier documents).bytes.length = 1 + Section.extent identifier documents := by
  have room := Room.of_length_le hbits hlength
  refine ⟨(parse_sound room).ends, ?_, ?_, ?_⟩
  · intro s s' hposition h
    exact readSection_advances room hposition h
  · intro stop s s' hstop hposition h
    exact nextDocument_advances room hstop hposition h
  · intro r hr hmsg
    obtain ⟨sections, haccepted⟩ := (parse_sound room).of_eq hr hmsg
    refine ⟨sections, haccepted, ?_⟩
    intro identifier documents _
    simp only [Section.bytes, Section.extent, List.length_cons, List.length_append, length_le32]
    omega

/-! A codec that knows an insert of two people. -/

/-- `{ insert: "people", $db: "app" }` -/
def insertBytes : List UInt8 :=
  [37, 0, 0, 0, 2, 105, 110, 115, 101, 114, 116, 0, 7, 0, 0, 0, 112, 101, 111, 112, 108, 101, 0,
    2, 36, 100, 98, 0, 4, 0, 0, 0, 97, 112, 112, 0, 0]

/-- `{ name: "Ada" }` -/
def adaBytes : List UInt8 := [19, 0, 0, 0, 2, 110, 97, 109, 101, 0, 4, 0, 0, 0, 65, 100, 97, 0, 0]

/-- `{ name: "Bob" }` -/
def bobBytes : List UInt8 := [19, 0, 0, 0, 2, 110, 97, 109, 101, 0, 4, 0, 0, 0, 66, 111, 98, 0, 0]

/-- `{ insert: "people" }` -/
def emptyInsertBytes : List UInt8 :=
  [24, 0, 0, 0, 2, 105, 110, 115, 101, 114, 116, 0, 7, 0, 0, 0, 112, 101, 111, 112, 108, 101, 0, 0]

/-- `{ insert: "people", documents: [{ name: "Ada" }] }` -/
def insertAdaBytes : List UInt8 :=
  [62, 0, 0, 0, 2, 105, 110, 115, 101, 114, 116, 0, 7, 0, 0, 0, 112, 101, 111, 112, 108, 101, 0,
    4, 100, 111, 99, 117, 109, 101, 110, 116, 115, 0, 27, 0, 0, 0, 3, 48, 0] ++ adaBytes ++ [0, 0]

def peopleCodec : Codec where
  decode bytes :=
    if bytes = insertBytes then .ok [("insert", .string "people"), ("$db", .string "app")]
    else if bytes = adaBytes then .ok [("name", .string "Ada")]
    else if bytes = bobBytes then .ok [("name", .string "Bob")]
    else if bytes = emptyInsertBytes then .ok [("insert", .string "people")]
    else if bytes = insertAdaBytes then
      .ok [("insert", .string "people"), ("documents", .array [.document [("name", .string "Ada")]])]
    else .error "unknown"
  encode
    | [("insert", .string "people"), ("$db", .string "app")] => .ok insertBytes
    | [("name", .string "Ada")] => .ok adaBytes
    | [("name", .string "Bob")] => .ok bobBytes
    | [("insert", .string "people")] => .ok emptyInsertBytes
    | [("insert", .string "people"), ("documents", .array [.document [("name", .string "Ada")]])] => .ok insertAdaBytes
    | _ => .error "unknown"
  distinct bytes document h := by
    repeat' split at h
    all_goals cases h
    all_goals decide

/-- `{ insert: "people", $db: "app" }` with its `documents` in a sequence of their own. -/
def insertAdaMessage : List UInt8 :=
  [92, 0, 0, 0, 7, 0, 0, 0, 0, 0, 0, 0, 0xdd, 0x07, 0, 0, 2, 0, 0, 0, 0] ++ insertBytes ++
    [1, 33, 0, 0, 0, 100, 111, 99, 117, 109, 101, 110, 116, 115, 0] ++ adaBytes

theorem wire_parser_is_total_and_exact_on_an_insert :
    ∃ r sections, parse 64 peopleCodec insertAdaMessage = .ok r ∧ r.database = "app" ∧ r.command = insertAdaBytes ∧
      Accepted 64 peopleCodec insertAdaMessage sections r ∧
      (Scan.readAll sections).sequences = [("documents", [.document [("name", .string "Ada")]])] ∧
      ∀ identifier documents, Section.sequence identifier documents ∈ sections →
        (Section.sequence identifier documents).bytes.length = 1 + Section.extent identifier documents := by
  have hparse : parse 64 peopleCodec insertAdaMessage = .ok ⟨7, true, false, "app", "insert", insertAdaBytes⟩ := by rfl
  have hread : readSections 64 peopleCodec insertAdaMessage =
      .ok ⟨92, some [("insert", .string "people"), ("$db", .string "app")],
        [("documents", [.document [("name", .string "Ada")]])]⟩ := by rfl
  obtain ⟨-, -, -, hexact⟩ := wire_parser_is_total_and_exact 64 peopleCodec insertAdaMessage (by decide) (by decide)
  obtain ⟨sections, haccepted, hdeclared⟩ := hexact _ hparse rfl
  have hscan : Scan.readAll sections = _ := Except.ok.inj (haccepted.read.symm.trans hread)
  exact ⟨_, sections, hparse, rfl, rfl, haccepted, congrArg Scan.sequences hscan, hdeclared⟩

end EmbeddedMongo.Wire
