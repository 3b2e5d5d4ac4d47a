import EmbeddedMongo.Wire.Inverse

/-!
# What the merge keeps

Every section of an OP_MSG goes into one keyed document, the sequences after the body and each
over whatever stands under its name already.
-/

namespace EmbeddedMongo.Wire

open Fmt Fmt.Checked

/-- The sequence a section is, as `parse_msg` keeps it. -/
def Section.asSequence : Section → Option (String × List Bson)
  | .body _ _ => none
  | .sequence identifier documents => some (identifier, documents.map fun d => .document d.2)

/-- Every document sent under a name, over all sections of that name. -/
def sentAs (identifier : String) (sequences : List (String × List Bson)) : List Bson :=
  (sequences.filter (·.1 == identifier)).flatMap Prod.snd

/-- Nothing of the payload is missing: the documents of every sequence stand in the array of its
name, each as often as it was sent, and every field of the body but `$db` has its value. -/
structure Carries (body : Document) (sequences : List (String × List Bson)) (command : Document) : Prop where
  documents : ∀ identifier, (sentAs identifier sequences).Sublist ((Document.getArray identifier command).getD [])
  fields : ∀ field ∈ body, field.1 ≠ "$db" → Document.get field.1 command = some field.2

/-- The last sequence of a name. -/
def lastOf (identifier : String) (sequences : List (String × List Bson)) : Option (List Bson) :=
  sequences.reverse.lookup identifier

/-- Whatever is overwritten was empty, or the same: of two sequences of one name the first has no
documents, and a field of the body that a sequence names holds that array already. -/
structure Unshadowed (body : Document) (sequences : List (String × List Bson)) : Prop where
  repeated : sequences.Pairwise fun earlier later => earlier.1 = later.1 → earlier.2 = []
  named : ∀ field ∈ body, ∀ documents, lastOf field.1 sequences = some documents → field.2 = .array documents

variable {identifier : String} {sequences : List (String × List Bson)}

theorem lastOf_cons (s : String × List Bson) :
    lastOf identifier (s :: sequences) =
      (lastOf identifier sequences).or (if s.1 = identifier then some s.2 else none) := by
  obtain ⟨name, documents⟩ := s
  unfold lastOf
  rw [List.reverse_cons, List.lookup_append]
  congr 1
  by_cases h : name = identifier
  · subst h
    simp
  · have hbeq : (identifier == name) = false := beq_eq_false_iff_ne.2 (Ne.symm h)
    simp only [List.lookup_cons, hbeq, List.lookup_nil, if_neg h]

theorem sentAs_cons (s : String × List Bson) :
    sentAs identifier (s :: sequences) = (if s.1 = identifier then s.2 else []) ++ sentAs identifier sequences := by
  unfold sentAs
  by_cases h : s.1 = identifier
  · simp [h]
  · simp [h]

/-- No sequence of a name has no last one. -/
theorem lastOf_eq_none : lastOf identifier sequences = none ↔ ∀ s ∈ sequences, s.1 ≠ identifier := by
  induction sequences with
  | nil => simp [lastOf]
  | cons s sequences ih =>
    rw [lastOf_cons, Option.or_eq_none_iff, ih, List.forall_mem_cons]
    simp [and_comm]

theorem sentAs_of_lastOf_eq_none (h : lastOf identifier sequences = none) : sentAs identifier sequences = [] := by
  unfold sentAs
  rw [List.filter_eq_nil_iff.2, List.flatMap_nil]
  intro s hs
  simpa using lastOf_eq_none.1 h s hs

theorem mem_of_lastOf {documents : List Bson} (h : lastOf identifier sequences = some documents) :
    (identifier, documents) ∈ sequences := by
  induction sequences with
  | nil => cases h
  | cons s sequences ih =>
    rw [lastOf_cons] at h
    cases hlast : lastOf identifier sequences with
    | some later =>
      rw [hlast, Option.some_or] at h
      exact List.mem_cons_of_mem s (ih (hlast.trans h))
    | none =>
      rw [hlast, Option.none_or] at h
      split at h
      · rename_i hname
        rw [← hname, ← Option.some.inj h]
        exact List.mem_cons_self
      · cases h

theorem length_lastOf_le {documents : List Bson} (h : lastOf identifier sequences = some documents) :
    documents.length ≤ (sentAs identifier sequences).length := by
  have hmem : (identifier, documents) ∈ sequences.filter (·.1 == identifier) :=
    List.mem_filter.2 ⟨mem_of_lastOf h, by simp⟩
  exact List.Sublist.length_le (List.sublist_flatten_of_mem (List.mem_map_of_mem hmem))

/-- With nothing lost to a repeated name, all of a name is the last of it. -/
theorem sentAs_eq_of_pairwise {documents : List Bson}
    (hrepeated : sequences.Pairwise fun earlier later => earlier.1 = later.1 → earlier.2 = [])
    (h : lastOf identifier sequences = some documents) : sentAs identifier sequences = documents := by
  induction sequences with
  | nil => cases h
  | cons s sequences ih =>
    obtain ⟨hs, hrepeated⟩ := List.pairwise_cons.1 hrepeated
    rw [lastOf_cons] at h
    rw [sentAs_cons]
    cases hlast : lastOf identifier sequences with
    | some later =>
      have hempty : s.1 = identifier → s.2 = [] := by
        intro hname
        exact hs _ (mem_of_lastOf hlast) hname
      rw [hlast, Option.some_or] at h
      rw [ih hrepeated (hlast.trans h)]
      split
      · rename_i hname
        rw [hempty hname, List.nil_append]
      · rfl
    | none =>
      rw [hlast, Option.none_or] at h
      rw [sentAs_of_lastOf_eq_none hlast, List.append_nil]
      split at h
      · rename_i hname
        rw [if_pos hname, Option.some.inj h]
      · cases h

/-- Conversely, if the last of every name has room for all of that name, the others are empty. -/
theorem pairwise_of_length_le
    (h : ∀ identifier, (sentAs identifier sequences).length ≤ ((lastOf identifier sequences).getD []).length) :
    sequences.Pairwise fun earlier later => earlier.1 = later.1 → earlier.2 = [] := by
  induction sequences with
  | nil => exact .nil
  | cons s sequences ih =>
    refine List.pairwise_cons.2 ⟨?_, ih ?_⟩
    · intro t ht hname
      have hs := h s.1
      rw [sentAs_cons, if_pos rfl, lastOf_cons, List.length_append] at hs
      cases hlast : lastOf s.1 sequences with
      | none => exact absurd hname.symm (lastOf_eq_none.1 hlast t ht)
      | some documents =>
        have := length_lastOf_le hlast
        rw [hlast, Option.some_or, Option.getD_some] at hs
        exact List.eq_nil_of_length_eq_zero (by omega)
    · intro identifier
      have hs := h identifier
      rw [sentAs_cons, lastOf_cons, List.length_append] at hs
      cases hlast : lastOf identifier sequences with
      | none => simp [sentAs_of_lastOf_eq_none hlast]
      | some documents =>
        rw [hlast, Option.some_or] at hs
        omega

/-! ## The merged document -/

/-- Under a key there is the last sequence of that name, or else what the body has. -/
theorem get_merge {body : Document} {key : String} :
    Document.get key (merge body sequences) = ((lastOf key sequences).map .array).or (Document.get key body) := by
  induction sequences generalizing body with
  | nil => rfl
  | cons s sequences ih =>
    have hstep : merge body (s :: sequences) = merge (Document.insert s.1 (.array s.2) body) sequences := rfl
    rw [hstep, ih, lastOf_cons, Document.get_insert]
    cases lastOf key sequences with
    | some documents => rfl
    | none =>
      by_cases hname : key = s.1
      · simp [hname]
      · simp [hname, Ne.symm hname]

/-- **The merge keeps everything exactly when nothing with content is overwritten.** -/
theorem carries_iff {body command : Document} {database : String} (hdistinct : (Document.keys body).Nodup)
    (hremove : Document.remove "$db" (merge body sequences) = (some (.string database), command)) :
    Carries body sequences command ↔ Unshadowed body sequences := by
  have hdb : Document.get "$db" (merge body sequences) = some (.string database) := congrArg Prod.fst hremove
  -- A sequence called `$db` would have been refused.
  have hlastDb : lastOf "$db" sequences = none := by
    rw [get_merge] at hdb
    cases hlast : lastOf "$db" sequences with
    | none => rfl
    | some documents =>
      rw [hlast] at hdb
      cases hdb
  have hget {key : String} (hkey : key ≠ "$db") :
      Document.get key command = ((lastOf key sequences).map .array).or (Document.get key body) := by
    have hremoved : Document.get key (Document.remove "$db" (merge body sequences)).2 = _ := Document.get_remove hkey
    rwa [hremove, get_merge] at hremoved
  constructor
  · rintro ⟨hdocuments, hfields⟩
    refine ⟨pairwise_of_length_le ?_, ?_⟩
    · intro identifier
      have hlength := (hdocuments identifier).length_le
      cases hlast : lastOf identifier sequences with
      | none => simp [sentAs_of_lastOf_eq_none hlast]
      | some documents =>
        have hne : identifier ≠ "$db" := by
          rintro rfl
          rw [hlastDb] at hlast
          cases hlast
        rwa [Document.getArray, hget hne, hlast] at hlength
    · intro field hfield documents hlast
      have hne : field.1 ≠ "$db" := by
        intro heq
        rw [heq, hlastDb] at hlast
        cases hlast
      have hvalue := hfields field hfield hne
      rw [hget hne, hlast] at hvalue
      exact (Option.some.inj hvalue).symm
  · rintro ⟨hrepeated, hnamed⟩
    refine ⟨?_, ?_⟩
    · intro identifier
      cases hlast : lastOf identifier sequences with
      | none => simp [sentAs_of_lastOf_eq_none hlast]
      | some documents =>
        have hne : identifier ≠ "$db" := by
          rintro rfl
          rw [hlastDb] at hlast
          cases hlast
        rw [sentAs_eq_of_pairwise hrepeated hlast, Document.getArray, hget hne, hlast]
        exact List.Sublist.refl documents
    · intro field hfield hne
      rw [hget hne]
      cases hlast : lastOf field.1 sequences with
      | none => exact Document.get_of_mem hdistinct hfield
      | some documents => exact congrArg some (hnamed field hfield documents hlast).symm

/-! ## Accepted messages -/

theorem Scan.sequences_foldl (s : Scan) (sections : List Section) :
    (sections.foldl Scan.read s).sequences = s.sequences ++ sections.filterMap Section.asSequence := by
  induction sections generalizing s with
  | nil => simp
  | cons sec sections ih =>
    rw [List.foldl_cons, ih]
    cases sec with
    | body raw document => rfl
    | sequence identifier documents => simp [Scan.read, Section.asSequence]

theorem Scan.mem_of_body_foldl {s : Scan} {sections : List Section} {body : Document}
    (h : (sections.foldl Scan.read s).body = some body) : s.body = some body ∨ ∃ raw, Section.body raw body ∈ sections := by
  induction sections generalizing s with
  | nil => exact .inl h
  | cons sec sections ih =>
    rcases ih h with hread | ⟨raw, hmem⟩
    · cases sec with
      | body raw document =>
        obtain rfl : document = body := Option.some.inj hread
        exact .inr ⟨raw, List.mem_cons_self⟩
      | sequence identifier documents => exact .inl hread
    · exact .inr ⟨raw, List.mem_cons_of_mem sec hmem⟩

/-- **What an accepted OP_MSG loses is what a later section of the same name overwrites.** All of
its payload reaches the command if and only if nothing with content is overwritten. -/
theorem wire_parser_loses_nothing_iff (bits : Nat) (codec : Codec) (message : List UInt8) (r : Request) (hbits : 32 ≤ bits)
    (hlength : message.length ≤ 2 ^ (bits - 1) - 1) (hr : parse bits codec message = .ok r) (hmsg : IsMsg bits message) :
    ∃ sections raw body command,
      Accepted bits codec message sections r ∧ Section.body raw body ∈ sections ∧
      Document.remove "$db" (merge body (sections.filterMap Section.asSequence)) = (some (.string r.database), command) ∧
      codec.encode command = .ok r.command ∧
      (Carries body (sections.filterMap Section.asSequence) command ↔
        Unshadowed body (sections.filterMap Section.asSequence)) := by
  obtain ⟨sections, haccepted⟩ := (parse_sound (Room.of_length_le hbits hlength)).of_eq hr hmsg
  obtain ⟨body, command, hbody, hremove, -, hasks⟩ := haccepted.merged
  have hsequences : (Scan.readAll sections).sequences = sections.filterMap Section.asSequence := by
    rw [Scan.readAll, Scan.sequences_foldl, List.nil_append]
  rw [hsequences] at hremove
  obtain hnone | ⟨raw, hmem⟩ := Scan.mem_of_body_foldl hbody
  · cases hnone
  · have hraw : RawDocument codec raw body := haccepted.valid _ hmem
    have hdistinct := codec.distinct _ _ hraw.decoded
    exact ⟨sections, raw, body, command, haccepted, hmem, hremove, hasks.encoded, carries_iff hdistinct hremove⟩

/-! An insert of people, its documents in as many sequences as are given, all of one name. -/

/-- The insert into `people`, with these sequences of documents. -/
def insertSections (people : List (List (List UInt8 × Document))) : List Section :=
  .body insertBytes [("insert", .string "people"), ("$db", .string "app")] :: people.map (.sequence "documents")

def insertMessage (people : List (List (List UInt8 × Document))) : List UInt8 :=
  frame 7 0 OP_MSG (le32 (msgFlags false).toNat ++ (insertSections people).flatMap Section.bytes)

def ada : List UInt8 × Document := (adaBytes, [("name", .string "Ada")])
def bob : List UInt8 × Document := (bobBytes, [("name", .string "Bob")])

theorem ada_raw : RawDocument peopleCodec ada.1 ada.2 := peopleCodec_inverts _ _ rfl (by decide)

theorem bob_raw : RawDocument peopleCodec bob.1 bob.2 := peopleCodec_inverts _ _ rfl (by decide)

theorem insertSections_valid {people : List (List (List UInt8 × Document))} (hpeople : ∀ l ∈ people, l = [ada] ∨ l = [bob]) :
    ∀ sec ∈ insertSections people, sec.Valid peopleCodec := by
  intro sec hsec
  rcases List.mem_cons.1 hsec with rfl | hsec
  · exact peopleCodec_inverts _ _ rfl (by decide)
  · obtain ⟨l, hl, rfl⟩ := List.mem_map.1 hsec
    rcases hpeople l hl with rfl | rfl
    · exact ⟨by decide, by decide, by decide, by simpa using ada_raw⟩
    · exact ⟨by decide, by decide, by decide, by simpa using bob_raw⟩

/-- Whoever is in them, the message is read to its end. -/
theorem parse_insertMessage {people : List (List (List UInt8 × Document))} (hpeople : ∀ l ∈ people, l = [ada] ∨ l = [bob])
    (hshort : 20 + ((insertSections people).flatMap Section.bytes).length < 2 ^ 31) :
    parse 64 peopleCodec (insertMessage people) = finishMsg peopleCodec 7 false (.readAll (insertSections people)) := by
  refine parse_sections (by decide) (insertSections_valid hpeople) ?_ hshort
  rw [insertSections, List.countP_cons, List.countP_eq_zero.2]
  · rfl
  · intro sec hsec
    obtain ⟨l, -, rfl⟩ := List.mem_map.1 hsec
    simp [Section.isBody]

theorem wire_parser_loses_nothing_iff_of_one_sequence :
    ∃ r, parse 64 peopleCodec (insertMessage [[ada]]) = .ok r ∧ r.command = insertAdaBytes ∧
    ∃ sections raw body command,
      Accepted 64 peopleCodec (insertMessage [[ada]]) sections r ∧ Section.body raw body ∈ sections ∧
      Document.remove "$db" (merge body (sections.filterMap Section.asSequence)) = (some (.string r.database), command) ∧
      peopleCodec.encode command = .ok r.command ∧
      (Carries body (sections.filterMap Section.asSequence) command ↔
        Unshadowed body (sections.filterMap Section.asSequence)) := by
  have hparse : parse 64 peopleCodec (insertMessage [[ada]]) = .ok ⟨7, false, false, "app", "insert", insertAdaBytes⟩ :=
    parse_insertMessage (by simp) (by decide)
  exact ⟨_, hparse, rfl,
    wire_parser_loses_nothing_iff 64 peopleCodec (insertMessage [[ada]]) _ (by decide) (by decide) hparse rfl⟩

/-- Two sequences of one name are accepted, and the documents of the first are gone: what reaches
the engine is the insert of Ada alone. -/
theorem wire_parser_drops_a_repeated_sequence :
    ∃ body command,
      (∀ sec ∈ insertSections [[bob], [ada]], sec.Valid peopleCodec) ∧
      Section.body insertBytes body ∈ insertSections [[bob], [ada]] ∧
      Section.sequence "documents" [bob] ∈ insertSections [[bob], [ada]] ∧
      (insertMessage [[bob], [ada]]).drop 20 = (insertSections [[bob], [ada]]).flatMap Section.bytes ∧
      parse 64 peopleCodec (insertMessage [[bob], [ada]]) = .ok ⟨7, false, false, "app", "insert", insertAdaBytes⟩ ∧
      peopleCodec.decode insertAdaBytes = .ok command ∧
      Document.getArray "documents" command = some [.document ada.2] ∧
      ¬Carries body ((insertSections [[bob], [ada]]).filterMap Section.asSequence) command := by
  refine ⟨[("insert", .string "people"), ("$db", .string "app")],
    [("insert", .string "people"), ("documents", .array [.document [("name", .string "Ada")]])],
    insertSections_valid (by simp), by simp [insertSections], by simp [insertSections], rfl,
    parse_insertMessage (by simp) (by decide), rfl, rfl, ?_⟩
  intro hcarries
  have hlength := (hcarries.documents "documents").length_le
  exact absurd hlength (by decide)

end EmbeddedMongo.Wire
