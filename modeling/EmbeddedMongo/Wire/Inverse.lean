import EmbeddedMongo.Wire.Exact

/-!
# What a driver sends

The messages of a driver, encoded as the wire protocol lays them out, and the parser as the
inverse of that encoding.
-/

namespace EmbeddedMongo.Wire

open Fmt Fmt.Checked

/-- What is assumed of BSON: an encoding begins with its own length, and decoding it gives the
document back. -/
def Codec.Inverts (codec : Codec) : Prop :=
  ∀ document raw, codec.encode document = .ok raw → raw.length < 2 ^ 31 → RawDocument codec raw document

/-- A document together with its encoding. -/
structure Encoded (codec : Codec) where
  document : Document
  raw : List UInt8
  encoded : codec.encode document = .ok raw

/-- A document sequence a driver may send. -/
structure Sequence (codec : Codec) where
  identifier : String
  documents : List (Encoded codec)
  named : identifier ≠ ""
  noNul : '\x00' ∉ identifier.toList

/-- An OP_MSG with its body anywhere among the sequences. -/
structure Msg (codec : Codec) where
  requestId : Int32
  responseTo : Int32
  moreToCome : Bool
  before : List (Sequence codec)
  body : Encoded codec
  after : List (Sequence codec)
  database : String
  database_eq : Document.get "$db" body.document = some (.string database)
  database_ne : database ≠ ""
  commandName : String
  commandName_eq : (Document.keys body.document).find? (· != "$db") = some commandName
  distinct : ((before ++ after).map Sequence.identifier).Nodup
  fresh : ∀ s ∈ before ++ after, s.identifier ∉ Document.keys body.document

/-- An OP_QUERY sent to a database's `$cmd` collection. -/
structure Query (codec : Codec) where
  requestId : Int32
  responseTo : Int32
  flags : UInt32
  database : String
  numberToSkip : Int32
  numberToReturn : Int32
  command : Encoded codec
  commandName : String
  commandName_eq : (Document.keys command.document).head? = some commandName
  database_ne : database ≠ ""
  noDot : '.' ∉ database.toList
  noNul : '\x00' ∉ database.toList

/-! ## The encoding -/

def int32 (n : Int32) : List UInt8 := le32 n.toUInt32.toNat

/-- A header and what it is the header of. -/
def frame (requestId responseTo opCode : Int32) (payload : List UInt8) : List UInt8 :=
  le32 (16 + payload.length) ++ (int32 requestId ++ (int32 responseTo ++ (int32 opCode ++ payload)))

def Sequence.toSection {codec : Codec} (s : Sequence codec) : Section :=
  .sequence s.identifier (s.documents.map fun d => (d.raw, d.document))

def msgFlags (moreToCome : Bool) : UInt32 := if moreToCome = true then MORE_TO_COME else 0

namespace Msg

variable {codec : Codec}

/-- Its sections, the body among its sequences. -/
def sections (m : Msg codec) : List Section :=
  m.before.map Sequence.toSection ++ .body m.body.raw m.body.document :: m.after.map Sequence.toSection

/-- The encoding of a message. -/
def bytes (m : Msg codec) : List UInt8 :=
  frame m.requestId m.responseTo OP_MSG (le32 (msgFlags m.moreToCome).toNat ++ m.sections.flatMap Section.bytes)

/-- The body without `$db`, then one array per sequence in the order of the sections. -/
def command (m : Msg codec) : Document :=
  m.body.document.filter (·.1 != "$db") ++
    (m.before ++ m.after).map fun s => (s.identifier, .array (s.documents.map fun d => .document d.document))

end Msg

/-- The encoding of a legacy query. -/
def Query.bytes {codec : Codec} (q : Query codec) : List UInt8 :=
  frame q.requestId q.responseTo OP_QUERY (le32 q.flags.toNat ++ (utf8 (q.database ++ ".$cmd") ++
    0 :: (int32 q.numberToSkip ++ (int32 q.numberToReturn ++ q.command.raw))))

variable {bits : Nat} {codec : Codec}

/-! ## The header -/

@[simp] theorem length_int32 (n : Int32) : (int32 n).length = 4 := length_le32 _

theorem length_frame {requestId responseTo opCode : Int32} {payload : List UInt8} :
    (frame requestId responseTo opCode payload).length = 16 + payload.length := by
  simp only [frame, List.length_append, length_le32, length_int32]
  omega

theorem drop_frame {requestId responseTo opCode : Int32} {payload : List UInt8} :
    (frame requestId responseTo opCode payload).drop 16 = payload := by
  rfl

/-- Past the header, `parse` does what the op code says. -/
theorem parse_frame {requestId responseTo opCode : Int32} {payload : List UInt8} (room : 32 ≤ bits)
    (hlong : 5 ≤ payload.length) (hshort : 16 + payload.length < 2 ^ 31) :
    parse bits codec (frame requestId responseTo opCode payload) =
      if opCode = OP_MSG then parseMsg bits codec (frame requestId responseTo opCode payload) requestId
      else if opCode = OP_QUERY then parseQuery bits codec (frame requestId responseTo opCode payload) requestId
      else fail ("embedded MongoDB only accepts OP_MSG and OP_QUERY requests, not op code " ++ toString opCode) := by
  have wide : 2 ^ 32 ≤ 2 ^ bits := Nat.pow_le_pow_right (by decide) room
  generalize hmessage : frame requestId responseTo opCode payload = message
  have hlength : message.length = 16 + payload.length := by
    rw [← hmessage]
    exact length_frame
  have hdeclared : message.drop 0 = le32 message.length ++ message.drop 4 := by
    rw [hlength, ← hmessage]
    rfl
  have hid : message.drop 4 = int32 requestId ++ message.drop 8 := by
    rw [← hmessage]
    rfl
  have hop : message.drop 12 = int32 opCode ++ message.drop 16 := by
    rw [← hmessage]
    rfl
  have four : 0 + 4 < 2 ^ bits := by omega
  obtain ⟨k, hk, hkn⟩ := readI32_length four (by omega) hdeclared
  unfold parse
  rw [if_neg (by omega), hk]
  show (if k.toInt < 0 ∨ k.toInt.toNat ≠ message.length then _ else _) = _
  rw [if_neg (by omega), readI32_complete (by omega) hid]
  show (readI32 bits message 12 >>= _) = _
  rw [readI32_complete (by omega) hop]
  rfl

/-! ## OP_MSG -/

theorem msgFlags_accepted (moreToCome : Bool) : msgFlags moreToCome &&& ~~~MORE_TO_COME = 0 := by
  cases moreToCome <;> decide

theorem msgFlags_moreToCome (moreToCome : Bool) : decide (msgFlags moreToCome &&& MORE_TO_COME ≠ 0) = moreToCome := by
  cases moreToCome <;> decide

/-- **The parser on sections of any kind**: those of one body and any number of sequences, whatever
their names. -/
theorem parse_sections {requestId responseTo : Int32} {moreToCome : Bool} {sections : List Section} (room : 32 ≤ bits)
    (hvalid : ∀ sec ∈ sections, sec.Valid codec) (hbody : sections.countP Section.isBody = 1)
    (hshort : 20 + (sections.flatMap Section.bytes).length < 2 ^ 31) :
    parse bits codec
      (frame requestId responseTo OP_MSG (le32 (msgFlags moreToCome).toNat ++ sections.flatMap Section.bytes)) =
      finishMsg codec requestId moreToCome (.readAll sections) := by
  have wide : 2 ^ 32 ≤ 2 ^ bits := Nat.pow_le_pow_right (by decide) room
  have hpayload : (le32 (msgFlags moreToCome).toNat ++ sections.flatMap Section.bytes).length =
      4 + (sections.flatMap Section.bytes).length := by
    rw [List.length_append, length_le32]
  have hne : 0 < (sections.flatMap Section.bytes).length := by
    obtain ⟨sec, hsec, -⟩ := List.countP_pos_iff.1 (hbody ▸ Nat.one_pos)
    exact Nat.lt_of_lt_of_le sec.bytes_pos
      (List.Sublist.length_le (List.sublist_flatten_of_mem (List.mem_map_of_mem hsec)))
  rw [parse_frame room (by omega) (by omega), if_pos rfl]
  generalize hmessage : frame requestId responseTo OP_MSG _ = message
  have hlength : message.length = 20 + (sections.flatMap Section.bytes).length := by
    rw [← hmessage, length_frame, hpayload]
    omega
  have hflags : message.drop 16 = le32 (msgFlags moreToCome).toNat ++ sections.flatMap Section.bytes := by
    rw [← hmessage, drop_frame]
  have hsections : message.drop 20 = sections.flatMap Section.bytes := by
    have := drop_add_of_eq hflags
    rwa [length_le32] at this
  have hread : readSections bits codec message = .ok (.readAll sections) := by
    apply sections_complete _ (by omega) hvalid (by omega) hsections
    unfold Room
    omega
  unfold parseMsg
  rw [readU32_complete (by omega) hflags]
  show (if msgFlags moreToCome &&& ~~~MORE_TO_COME ≠ 0 then _ else _) = _
  rw [if_neg (not_not_intro (msgFlags_accepted moreToCome)), hread]
  show finishMsg codec requestId (decide (msgFlags moreToCome &&& MORE_TO_COME ≠ 0)) _ = _
  rw [msgFlags_moreToCome]

namespace Msg

variable (m : Msg codec)

theorem countP_sections : m.sections.countP Section.isBody = 1 := by
  have hsequences (l : List (Sequence codec)) : (l.map Sequence.toSection).countP Section.isBody = 0 := by
    rw [List.countP_eq_zero]
    intro sec hsec
    obtain ⟨s, -, rfl⟩ := List.mem_map.1 hsec
    simp [Sequence.toSection, Section.isBody]
  rw [sections, List.countP_append, List.countP_cons, hsequences, hsequences]
  rfl

/-- Each of them can be read. -/
theorem valid_sections (hinverts : codec.Inverts) (hshort : (m.sections.flatMap Section.bytes).length < 2 ^ 31) :
    ∀ sec ∈ m.sections, sec.Valid codec := by
  intro sec hsec
  have hlength : sec.bytes.length ≤ (m.sections.flatMap Section.bytes).length :=
    List.Sublist.length_le (List.sublist_flatten_of_mem (List.mem_map_of_mem hsec))
  have hsequence (s : Sequence codec) (hs : s.toSection.bytes.length < 2 ^ 31) : s.toSection.Valid codec := by
    simp only [Sequence.toSection, Section.bytes, List.length_cons, List.length_append, length_le32] at hs
    refine ⟨s.named, s.noNul, ?_, ?_⟩
    · unfold Section.extent
      omega
    · intro d hd
      have hin : d.1.length ≤ ((s.documents.map fun d => (d.raw, d.document)).flatMap Prod.fst).length :=
        List.Sublist.length_le (List.sublist_flatten_of_mem (List.mem_map_of_mem hd))
      obtain ⟨e, -, rfl⟩ := List.mem_map.1 hd
      exact hinverts _ _ e.encoded (by omega)
  rcases List.mem_append.1 hsec with hbefore | hrest
  · obtain ⟨s, -, rfl⟩ := List.mem_map.1 hbefore
    exact hsequence s (by omega)
  · rcases List.mem_cons.1 hrest with rfl | hafter
    · simp only [Section.bytes, List.length_cons] at hlength
      exact hinverts _ _ m.body.encoded (by omega)
    · obtain ⟨s, -, rfl⟩ := List.mem_map.1 hafter
      exact hsequence s (by omega)

end Msg

theorem Scan.foldl_sequences (s : Scan) (l : List (Sequence codec)) :
    ((l.map Sequence.toSection).foldl Scan.read s).body = s.body ∧
    ((l.map Sequence.toSection).foldl Scan.read s).sequences =
      s.sequences ++ l.map fun q => (q.identifier, q.documents.map fun d => .document d.document) := by
  induction l generalizing s with
  | nil => simp
  | cons q l ih =>
    obtain ⟨hbody, hsequences⟩ := ih (s.read q.toSection)
    rw [List.map_cons, List.foldl_cons]
    refine ⟨hbody, ?_⟩
    rw [hsequences]
    simp [Scan.read, Sequence.toSection]

/-- Sequences of new names go to the end, in order. -/
theorem merge_fresh {body : Document} {sequences : List (String × List Bson)}
    (hdistinct : (sequences.map Prod.fst).Nodup) (hfresh : ∀ s ∈ sequences, s.1 ∉ Document.keys body) :
    merge body sequences = body ++ sequences.map fun s => (s.1, .array s.2) := by
  induction sequences generalizing body with
  | nil => simp [merge]
  | cons s sequences ih =>
    obtain ⟨hs, hfresh⟩ := List.forall_mem_cons.1 hfresh
    obtain ⟨hnot, hdistinct⟩ := List.nodup_cons.1 hdistinct
    have hstep : merge body (s :: sequences) = merge (Document.insert s.1 (.array s.2) body) sequences := rfl
    rw [hstep, Document.insert_of_notMem hs, ih hdistinct]
    · simp
    · intro t ht hmem
      simp only [Document.keys, List.map_append, List.mem_append, List.map_cons, List.map_nil, List.mem_singleton] at hmem
      rcases hmem with hmem | heq
      · exact hfresh t ht hmem
      · exact hnot (heq ▸ List.mem_map_of_mem ht)

namespace Msg

variable (m : Msg codec)

/-- Reading them gives the body and the sequences back. -/
theorem readAll_sections : (Scan.readAll m.sections).body = some m.body.document ∧
    (Scan.readAll m.sections).sequences = (m.before ++ m.after).map fun q =>
      (q.identifier, q.documents.map fun d => .document d.document) := by
  unfold Scan.readAll sections
  rw [List.foldl_append, List.foldl_cons]
  obtain ⟨-, hbefore⟩ := Scan.foldl_sequences ⟨20, none, []⟩ m.before
  obtain ⟨hbody, hafter⟩ := Scan.foldl_sequences
    (((m.before.map Sequence.toSection).foldl Scan.read ⟨20, none, []⟩).read (.body m.body.raw m.body.document)) m.after
  refine ⟨hbody, ?_⟩
  rw [hafter]
  simp [Scan.read, hbefore]

theorem remove_merge (hdistinct : (Document.keys m.body.document).Nodup) :
    Document.remove "$db" (merge m.body.document (Scan.readAll m.sections).sequences) =
      (some (.string m.database), m.command) := by
  rw [m.readAll_sections.2, merge_fresh, Document.remove_append hdistinct m.database_eq]
  · simp [command, Function.comp_def]
  · simpa [Function.comp_def] using m.distinct
  · intro s hs
    obtain ⟨q, hq, rfl⟩ := List.mem_map.1 hs
    exact m.fresh q hq

/-- The command is named by the first field of the body that is not `$db`. -/
theorem head_keys_command : (Document.keys m.command).head? = some m.commandName := by
  have hfind := m.commandName_eq
  unfold Document.keys at hfind
  rw [← List.head?_filter, List.filter_map, List.head?_map, Option.map_eq_some_iff] at hfind
  obtain ⟨field, hfield, hname⟩ := hfind
  simp only [Function.comp_def] at hfield
  rw [Document.keys, List.head?_map, command, List.head?_append, hfield, ← hname]
  rfl

/-- What they come to is the command of the message. -/
theorem finishMsg_sections (hdistinct : (Document.keys m.body.document).Nodup) :
    finishMsg codec m.requestId m.moreToCome (.readAll m.sections) =
      request codec "OP_MSG body names no command" m.requestId m.moreToCome false m.database m.command := by
  simp only [finishMsg, m.readAll_sections.1, require_some, ok_bind, m.remove_merge hdistinct]
  exact if_neg m.database_ne

end Msg

/-! ## OP_QUERY -/

theorem splitOnce_cmd {database : String} (hdot : '.' ∉ database.toList) :
    splitOnce '.' (database ++ ".$cmd") = some (database, "$cmd") := by
  have hall : ∀ c ∈ database.toList, (c != '.') = true := by
    intro c hc
    simp only [bne_iff_ne]
    rintro rfl
    exact hdot hc
  unfold splitOnce
  rw [String.toList_append, List.dropWhile_append_of_pos hall, List.takeWhile_append_of_pos hall]
  simp

/-- A legacy query comes to its own command. -/
theorem parseQuery_complete (room : 32 ≤ bits) (hinverts : codec.Inverts) (q : Query codec)
    (hshort : q.bytes.length < 2 ^ 31) :
    parseQuery bits codec q.bytes q.requestId =
      request codec "OP_QUERY names no command" q.requestId false true q.database q.command.document := by
  have wide : 2 ^ 32 ≤ 2 ^ bits := Nat.pow_le_pow_right (by decide) room
  have hflags : q.bytes.drop 16 = le32 q.flags.toNat ++ (utf8 (q.database ++ ".$cmd") ++
      0 :: (int32 q.numberToSkip ++ (int32 q.numberToReturn ++ q.command.raw))) := drop_frame
  have hnul : (0 : UInt8) ∉ utf8 (q.database ++ ".$cmd") := by
    apply zero_notMem_utf8
    simpa using q.noNul
  have hutf8 := fromUtf8_utf8 (q.database ++ ".$cmd")
  generalize q.bytes = message at hshort hflags ⊢
  generalize utf8 (q.database ++ ".$cmd") = name at hflags hnul hutf8
  have hname := drop_add_of_eq hflags
  have hskip := drop_add_of_eq hname
  have hlength := congrArg List.length hflags
  simp only [length_le32, Nat.reduceAdd] at hname hskip
  simp only [List.length_drop, List.length_append, List.length_cons, length_le32, length_int32] at hlength
  have hraw : message.drop (20 + name.length + 1 + 8) = q.command.raw ++ [] := by
    rw [← List.drop_drop, ← List.drop_drop, hskip, List.append_nil]
    rfl
  have hfind : (message.drop 20).findIdx? (· == 0) = some name.length := by
    rw [hname]
    apply findIdx?_append_cons _ rfl
    intro b hb
    simp only [beq_eq_false_iff_ne]
    rintro rfl
    exact hnul hb
  have hslice : (slice 20 (20 + name.length) message : Checked String (List UInt8)) = .ok name := by
    rw [slice_eq_ok (by omega) (by omega), hname, Nat.add_sub_cancel_left, List.take_left]
  have hread : readDocument bits codec message (20 + name.length + 1 + 8) message.length =
      .ok (q.command.document, message.length) := by
    have hdocument := hinverts _ _ q.command.encoded (by omega)
    have room : Room bits message := by
      unfold Room
      omega
    rw [readDocument_complete room (Nat.le_refl _) hdocument hraw (by omega)]
    congr 2
    omega
  have hnulAt : (add bits 20 name.length : Checked String Nat) = .ok _ := add_eq_ok (by omega)
  have hpast : (add bits (20 + name.length) 1 : Checked String Nat) = .ok _ := add_eq_ok (by omega)
  have hnumbers : (add bits (20 + name.length + 1) 8 : Checked String Nat) = .ok _ := add_eq_ok (by omega)
  simp only [parseQuery, hfind, require_some, ok_bind, hnulAt, hslice, hutf8, splitOnce_cmd q.noDot, if_neg q.database_ne,
    hpast, hnumbers, hread]
  exact if_neg (not_not_intro rfl)

theorem parse_query (room : 32 ≤ bits) (q : Query codec) (hshort : q.bytes.length < 2 ^ 31) :
    parse bits codec q.bytes = parseQuery bits codec q.bytes q.requestId := by
  unfold Query.bytes at hshort ⊢
  rw [length_frame] at hshort
  rw [parse_frame room _ hshort, if_neg (by decide), if_pos rfl]
  simp only [List.length_append, List.length_cons, length_le32, length_int32]
  omega

theorem request_eq {noCommand database name : String} {requestId : Int32} {moreToCome legacy : Bool} {command : Document}
    (hname : (Document.keys command).head? = some name) :
    request codec noCommand requestId moreToCome legacy database command =
      match codec.encode command with
      | .ok bytes => .ok ⟨requestId, moreToCome, legacy, database, name, bytes⟩
      | .error e => fail s!"failed to encode BSON command: {e}" := by
  unfold request
  rw [hname]
  cases codec.encode command with
  | ok bytes => rfl
  | error e => rfl

/-- **The parser inverts a driver's encoder.** An OP_MSG comes back as its id, its flag, its
database, the name of its command and the encoding of that command, an OP_QUERY likewise. -/
theorem wire_parser_inverts_the_encoder (bits : Nat) (codec : Codec) (hbits : 32 ≤ bits) (hinverts : codec.Inverts) :
    (∀ m : Msg codec, m.bytes.length < 2 ^ 31 → parse bits codec m.bytes =
      match codec.encode m.command with
      | .ok command => .ok ⟨m.requestId, m.moreToCome, false, m.database, m.commandName, command⟩
      | .error e => fail s!"failed to encode BSON command: {e}") ∧
    ∀ q : Query codec, q.bytes.length < 2 ^ 31 →
      parse bits codec q.bytes = .ok ⟨q.requestId, false, true, q.database, q.commandName, q.command.raw⟩ := by
  constructor
  · intro m hshort
    have hlength : m.bytes.length = 20 + (m.sections.flatMap Section.bytes).length := by
      rw [Msg.bytes, length_frame, List.length_append, length_le32]
      omega
    have hvalid := m.valid_sections hinverts (by omega)
    have hbody : RawDocument codec m.body.raw m.body.document :=
      hvalid (.body m.body.raw m.body.document) (by simp [Msg.sections])
    have hdistinct := codec.distinct _ _ hbody.decoded
    rw [Msg.bytes, parse_sections hbits hvalid m.countP_sections (by omega), m.finishMsg_sections hdistinct,
      request_eq m.head_keys_command]
  · intro q hshort
    rw [parse_query hbits q hshort, parseQuery_complete hbits hinverts q hshort, request_eq q.commandName_eq,
      q.command.encoded]

/-- The codec reads what it writes. -/
theorem peopleCodec_inverts : peopleCodec.Inverts := by
  intro document raw h _
  unfold peopleCodec at h
  dsimp only at h
  split at h
  all_goals cases h
  all_goals exact ⟨⟨by decide, by decide, by decide⟩, rfl⟩

def insertAda : Msg peopleCodec where
  requestId := 7
  responseTo := 0
  moreToCome := true
  before := [⟨"documents", [⟨[("name", .string "Ada")], adaBytes, rfl⟩], by decide, by decide⟩]
  body := ⟨[("insert", .string "people"), ("$db", .string "app")], insertBytes, rfl⟩
  after := []
  database := "app"
  database_eq := rfl
  database_ne := by decide
  commandName := "insert"
  commandName_eq := rfl
  distinct := by decide
  fresh := by decide

def legacyInsert : Query peopleCodec where
  requestId := 8
  responseTo := 0
  flags := 0
  database := "app"
  numberToSkip := 0
  numberToReturn := -1
  command := ⟨[("insert", .string "people")], emptyInsertBytes, rfl⟩
  commandName := "insert"
  commandName_eq := rfl
  database_ne := by decide
  noDot := by decide
  noNul := by decide

theorem wire_parser_inverts_the_encoder_of_an_insert :
    parse 64 peopleCodec insertAda.bytes = .ok ⟨7, true, false, "app", "insert", insertAdaBytes⟩ ∧
    parse 64 peopleCodec legacyInsert.bytes = .ok ⟨8, false, true, "app", "insert", emptyInsertBytes⟩ := by
  obtain ⟨hmsg, hquery⟩ := wire_parser_inverts_the_encoder 64 peopleCodec (by decide) peopleCodec_inverts
  exact ⟨hmsg insertAda (by decide), hquery legacyInsert (by decide)⟩

end EmbeddedMongo.Wire
