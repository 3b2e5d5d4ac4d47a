import EmbeddedMongo.Wire.Parser

/-!
# What a message is made of

The sections of an OP_MSG as bytes, without a parser: a body is a document, a sequence its own
length, an identifier and documents back to back. Each reading function is held to this from both
sides. Whatever it accepts is such bytes, and it stops where they end (`*_sound`, which also rules
out every panic); and it accepts all such bytes (`*_complete`).
-/

namespace EmbeddedMongo.Wire

open Fmt Fmt.Checked

/-- Bytes that begin with their own length, as every BSON document does. -/
structure Framed (raw : List UInt8) : Prop where
  long : 5 ≤ raw.length
  short : raw.length < 2 ^ 31
  head : raw.take 4 = le32 raw.length

/-- The bytes of a document the decoder accepts. -/
structure RawDocument (codec : Codec) (raw : List UInt8) (document : Document) : Prop where
  framed : Framed raw
  decoded : codec.decode raw = .ok document

/-- A section with the bytes of its documents. -/
inductive Section where
  | body (raw : List UInt8) (document : Document)
  | sequence (identifier : String) (documents : List (List UInt8 × Document))

namespace Section

/-- The length a sequence declares: its own four bytes, the identifier with its terminator, the
documents. -/
def extent (identifier : String) (documents : List (List UInt8 × Document)) : Nat :=
  4 + (utf8 identifier).length + 1 + (documents.flatMap Prod.fst).length

/-- A section as it is on the wire. -/
def bytes : Section → List UInt8
  | .body raw _ => 0 :: raw
  | .sequence identifier documents =>
    1 :: (le32 (extent identifier documents) ++ (utf8 identifier ++ 0 :: documents.flatMap Prod.fst))

/-- It is one that can be read. -/
def Valid (codec : Codec) : Section → Prop
  | .body raw document => RawDocument codec raw document
  | .sequence identifier documents =>
    identifier ≠ "" ∧ '\x00' ∉ identifier.toList ∧ extent identifier documents < 2 ^ 31 ∧
      ∀ d ∈ documents, RawDocument codec d.1 d.2

def isBody : Section → Bool
  | .body _ _ => true
  | .sequence _ _ => false

end Section

/-- The loop's locals after one more section. -/
def Scan.read (s : Scan) : Section → Scan
  | .body raw document => { s with position := s.position + (1 + raw.length), body := some document }
  | .sequence identifier documents =>
    { s with
      position := s.position + (1 + Section.extent identifier documents)
      sequences := s.sequences ++ [(identifier, documents.map fun d => .document d.2)] }

variable {bits : Nat} {codec : Codec} {message : List UInt8}

theorem drop_add_of_eq {α : Type} {l front back : List α} {n : Nat} (h : l.drop n = front ++ back) :
    l.drop (n + front.length) = back := by
  rw [← List.drop_drop, h, List.drop_left]

/-! ## Integers -/

theorem word_eq_some {bytes : List UInt8} {offset : Nat} {a b c d : UInt8} :
    word bytes offset = some (a, b, c, d) ↔ ∃ rest, bytes.drop offset = a :: b :: c :: d :: rest := by
  unfold word
  split
  · rename_i rest h
    simp only [h, Option.some.injEq, Prod.mk.injEq, List.cons.injEq, exists_and_left, exists_eq', and_true]
  · rename_i h
    refine ⟨nofun, ?_⟩
    rintro ⟨rest, hrest⟩
    exact absurd hrest (h a b c d rest)

/-- A word that was read is what stands there. -/
theorem readU32_sound {bytes : List UInt8} {offset : Nat} (room : offset + 4 < 2 ^ bits) :
    Safe (fun n => ∃ rest, bytes.drop offset = le32 n.toNat ++ rest) (readU32 bits bytes offset) := by
  refine Safe.bind (P := fun _ => True) (.add room trivial) ?_
  intro _ _
  apply Safe.bind (.require (P := fun w => word bytes offset = some w) fun _ h => h)
  rintro ⟨a, b, c, d⟩ h
  obtain ⟨rest, hrest⟩ := word_eq_some.1 h
  exact ⟨rest, by rw [le32_ofLE32]; exact hrest⟩

/-- A word that stands there is read. -/
theorem readU32_complete {bytes rest : List UInt8} {offset : Nat} {n : UInt32} (room : offset + 4 < 2 ^ bits)
    (h : bytes.drop offset = le32 n.toNat ++ rest) : readU32 bits bytes offset = .ok n := by
  have hword : word bytes offset = some (.ofNat n.toNat, .ofNat (n.toNat / 2 ^ 8), .ofNat (n.toNat / 2 ^ 16),
      .ofNat (n.toNat / 2 ^ 24)) := word_eq_some.2 ⟨rest, h⟩
  unfold readU32
  rw [add_eq_ok room, hword]
  exact congrArg Except.ok (ofLE32_le32 n)

/-- A length that is not negative, read where it stands. -/
theorem readI32_sound {bytes : List UInt8} {offset : Nat} (room : offset + 4 < 2 ^ bits) :
    Safe (fun n => 0 ≤ n.toInt → n.toInt.toNat < 2 ^ 31 ∧ ∃ rest, bytes.drop offset = le32 n.toInt.toNat ++ rest)
      (readI32 bits bytes offset) := by
  apply (readU32_sound room).bind
  rintro n ⟨rest, hrest⟩ hpos
  rw [toInt_toInt32] at hpos ⊢
  have := n.toNat_lt
  split at hpos
  · rename_i hlow
    rw [if_pos hlow, Int.toNat_natCast]
    exact ⟨hlow, rest, hrest⟩
  · omega

theorem readI32_complete {bytes rest : List UInt8} {offset : Nat} {n : Int32} (room : offset + 4 < 2 ^ bits)
    (h : bytes.drop offset = le32 n.toUInt32.toNat ++ rest) : readI32 bits bytes offset = .ok n := by
  unfold readI32
  rw [readU32_complete room h]
  exact congrArg Except.ok (Int32.toInt32_toUInt32 n)

/-- A length below `2 ^ 31` is read as itself. -/
theorem readI32_length {bytes rest : List UInt8} {offset n : Nat} (room : offset + 4 < 2 ^ bits) (low : n < 2 ^ 31)
    (h : bytes.drop offset = le32 n ++ rest) : ∃ k, readI32 bits bytes offset = .ok k ∧ k.toInt = n := by
  have hn : (UInt32.ofNat n).toNat = n := UInt32.toNat_ofNat_of_lt' (Nat.lt_of_lt_of_le low (by decide))
  have hat : bytes.drop offset = le32 (UInt32.ofNat n).toInt32.toUInt32.toNat ++ rest := by
    rw [UInt32.toUInt32_toInt32, hn]
    exact h
  refine ⟨(UInt32.ofNat n).toInt32, readI32_complete room hat, ?_⟩
  rw [toInt_toInt32, hn, if_pos low]

/-! ## Documents -/

/-- Room for the few bytes an offset may be past the end of the message. -/
def Room (bits : Nat) (message : List UInt8) : Prop := message.length + 16 < 2 ^ bits

/-- No allocation is longer than `isize::MAX`, which leaves more room than that. -/
theorem Room.of_length_le (hbits : 32 ≤ bits) (hlength : message.length ≤ 2 ^ (bits - 1) - 1) : Room bits message := by
  have hhigh : 2 ^ 31 ≤ 2 ^ (bits - 1) := Nat.pow_le_pow_right (by decide) (by omega)
  have hdouble : 2 ^ bits = 2 * 2 ^ (bits - 1) := by
    rw [← Nat.pow_succ']
    congr 1
    omega
  unfold Room
  omega

/-- A document that was read stands there, within its bound, and decodes. -/
theorem readDocument_sound {position stop : Nat} (room : Room bits message) (hposition : position ≤ message.length + 9)
    (hstop : stop ≤ message.length) :
    Safe (fun r => r.2 ≤ stop ∧ ∃ raw, RawDocument codec raw r.1 ∧ r.2 = position + raw.length ∧
      message.drop position = raw ++ message.drop r.2) (readDocument bits codec message position stop) := by
  unfold Room at room
  apply (readI32_sound (by omega)).bind
  intro documentLen hlen
  split
  · exact .fail
  · rename_i hlong
    obtain ⟨hshort, rest, hrest⟩ := hlen (by omega)
    generalize hn : documentLen.toInt.toNat = n at hshort hrest ⊢
    apply Safe.bind (.require (P := fun documentEnd => documentEnd = position + n ∧ documentEnd ≤ stop) ?_)
    · rintro _ ⟨rfl, hle⟩
      have hraw : ((message.drop position).take (position + n - position)).length = n := by
        rw [Nat.add_sub_cancel_left, List.length_take, List.length_drop]
        omega
      apply Safe.bind (.slice (Nat.le_add_right _ _) (Nat.le_trans hle hstop) (P := fun raw =>
        raw.length = n ∧ raw = (message.drop position).take n) ⟨hraw, by rw [Nat.add_sub_cancel_left]⟩)
      rintro raw ⟨hlength, rfl⟩
      apply Safe.bind (.report (P := fun document => codec.decode _ = .ok document) fun _ h => h)
      intro document hdecode
      refine ⟨hle, _, ⟨⟨?_, ?_, ?_⟩, hdecode⟩, ?_, ?_⟩
      · omega
      · omega
      · rw [hlength, List.take_take, Nat.min_eq_left (by omega), hrest]
        exact List.take_left' (length_le32 n)
      · rw [hlength]
      · rw [← List.drop_drop, List.take_append_drop]
    · intro documentEnd hsome
      obtain ⟨hadd, hle⟩ := Option.filter_eq_some_iff.1 hsome
      exact ⟨(checkedAdd_eq_some.1 hadd).2, by simpa using hle⟩

/-- A document that stands there and decodes is read. -/
theorem readDocument_complete {position stop : Nat} {raw rest : List UInt8} {document : Document}
    (room : Room bits message) (hstop : stop ≤ message.length) (hraw : RawDocument codec raw document)
    (hat : message.drop position = raw ++ rest) (hle : position + raw.length ≤ stop) :
    readDocument bits codec message position stop = .ok (document, position + raw.length) := by
  unfold Room at room
  have hlong := hraw.framed.long
  have four : position + 4 < 2 ^ bits := by omega
  have hhead : message.drop position = le32 raw.length ++ (raw.drop 4 ++ rest) := by
    rw [← hraw.framed.head, ← List.append_assoc, List.take_append_drop, hat]
  obtain ⟨k, hk, hkn⟩ := readI32_length four hraw.framed.short hhead
  have hadd : (checkedAdd bits position raw.length).filter (· ≤ stop) = some (position + raw.length) := by
    rw [checkedAdd_eq_some.2 ⟨by omega, rfl⟩]
    simp [hle]
  have hslice : (slice position (position + raw.length) message : Checked String (List UInt8)) = .ok raw := by
    rw [slice_eq_ok (Nat.le_add_right _ _) (Nat.le_trans hle hstop), hat, Nat.add_sub_cancel_left, List.take_left]
  unfold readDocument
  rw [hk]
  show (if k.toInt < 5 then _ else _) = _
  rw [if_neg (by omega), hkn, Int.toNat_natCast, hadd]
  show (slice position (position + raw.length) message >>= _) = _
  rw [hslice]
  show (report _ (codec.decode raw) >>= _) = _
  rw [hraw.decoded]
  rfl

/-- The documents read so far, of those from `start` on. -/
def Collected (codec : Codec) (message : List UInt8) (start stop : Nat) (s : Documents) : Prop :=
  s.position ≤ stop ∧ ∃ documents : List (List UInt8 × Document), (∀ d ∈ documents, RawDocument codec d.1 d.2) ∧
    s.documents = documents.map (fun d => .document d.2) ∧
    message.drop start = documents.flatMap Prod.fst ++ message.drop s.position ∧
    s.position = start + (documents.flatMap Prod.fst).length

/-- The documents of a sequence that were read fill it exactly. -/
theorem documents_sound {start stop : Nat} (room : Room bits message) (hstart : start ≤ stop)
    (hstop : stop ≤ message.length) (hfuel : stop < start + message.length) :
    Safe (fun s => Collected codec message start stop s ∧ s.position = stop)
      (loop (fun s => decide (s.position < stop)) (nextDocument bits codec message stop) message.length ⟨start, []⟩) := by
  have turn (s : Documents) (hs : Collected codec message start stop s) (hcond : decide (s.position < stop) = true) :
      Safe (fun s' => Collected codec message start stop s' ∧ stop - s'.position < stop - s.position)
        (nextDocument bits codec message stop s) := by
    obtain ⟨hposition, documents, hvalid, hdocuments, hat, hend⟩ := hs
    apply (readDocument_sound room (by omega) hstop).bind
    rintro ⟨document, next⟩ ⟨hnext, raw, hraw, hlength, hdrop⟩
    have hlong := hraw.framed.long
    simp only [decide_eq_true_eq] at hcond
    refine ⟨⟨hnext, documents ++ [(raw, document)], ?_, ?_, ?_, ?_⟩, ?_⟩
    · exact List.forall_mem_append.2 ⟨hvalid, by simpa using hraw⟩
    · simp [hdocuments]
    · simp [hat, hdrop]
    · simp only [List.flatMap_append, List.flatMap_cons, List.flatMap_nil, List.append_nil, List.length_append]
      omega
    · dsimp only at hlength ⊢
      omega
  have started : Collected codec message start stop ⟨start, []⟩ := ⟨hstart, [], by simp, rfl, by simp, by simp⟩
  refine (Safe.loop (fun s => stop - s.position) turn started (by dsimp only; omega)).mono ?_
  rintro s ⟨hs, hcond⟩
  have hle := hs.1
  simp only [decide_eq_false_iff_not] at hcond
  exact ⟨hs, by omega⟩

/-- Documents that fill a sequence are read, one by one. -/
theorem documents_complete {stop fuel : Nat} {s : Documents} {documents : List (List UInt8 × Document)} {rest : List UInt8}
    (room : Room bits message) (hstop : stop ≤ message.length) (hvalid : ∀ d ∈ documents, RawDocument codec d.1 d.2)
    (hat : message.drop s.position = documents.flatMap Prod.fst ++ rest)
    (hend : s.position + (documents.flatMap Prod.fst).length = stop) (hfuel : stop - s.position < fuel) :
    loop (fun s => decide (s.position < stop)) (nextDocument bits codec message stop) fuel s =
      .ok ⟨stop, s.documents ++ documents.map fun d => .document d.2⟩ := by
  induction documents generalizing s fuel with
  | nil =>
    simp only [List.flatMap_nil, List.length_nil, Nat.add_zero] at hend
    rw [loop_done (by simp [hend])]
    simp [← hend]
  | cons d documents ih =>
    obtain ⟨hraw, hvalid⟩ := List.forall_mem_cons.1 hvalid
    have hlong := hraw.framed.long
    rw [List.flatMap_cons, List.append_assoc] at hat
    rw [List.flatMap_cons, List.length_append] at hend
    have hread := readDocument_complete room hstop hraw hat (by omega)
    have hturn : nextDocument bits codec message stop s = .ok ⟨s.position + d.1.length, s.documents ++ [.document d.2]⟩ := by
      unfold nextDocument
      rw [hread]
      rfl
    obtain ⟨fuel, rfl⟩ : ∃ n, fuel = n + 1 := ⟨fuel - 1, by omega⟩
    rw [loop_turn (by simpa using by omega) hturn, ih hvalid]
    · simp
    · exact drop_add_of_eq hat
    · dsimp only
      omega
    · dsimp only
      omega

/-! ## Sequences -/

/-- A terminator found in the first bytes of a list splits the whole list. -/
theorem split_of_findIdx? {l : List UInt8} {n offset : Nat} (h : (l.take n).findIdx? (· == 0) = some offset) :
    offset < n ∧ offset < l.length ∧ 0 ∉ l.take offset ∧ l = l.take offset ++ 0 :: l.drop (offset + 1) := by
  obtain ⟨front, a, back, htake, rfl, ha, hfront⟩ := exists_of_findIdx? h
  have hlength : front.length < (l.take n).length := by
    rw [htake]
    simp
  rw [List.length_take] at hlength
  have hl : l = front ++ a :: (back ++ l.drop n) := by
    conv => lhs; rw [← List.take_append_drop n l, htake]
    simp
  obtain rfl : a = 0 := by simpa using ha
  have hzero : (0 : UInt8) ∉ front := by
    intro hmem
    have := hfront 0 hmem
    simp at this
  have htaken : l.take front.length = front := by
    rw [hl]
    exact List.take_left
  have hdropped : l.drop (front.length + 1) = back ++ l.drop n := by
    conv => lhs; rw [hl]
    rw [← List.drop_drop, List.drop_left]
    rfl
  refine ⟨by omega, by omega, by rwa [htaken], ?_⟩
  rw [htaken, hdropped]
  exact hl

/-- A sequence that was read is as long as it declares. -/
theorem readSequence_sound {position : Nat} (room : Room bits message) (hposition : position ≤ message.length) :
    Safe (fun r => r.2 ≤ message.length ∧ ∃ identifier documents, (Section.sequence identifier documents).Valid codec ∧
      r.1 = (identifier, documents.map fun d => .document d.2) ∧ r.2 = position + Section.extent identifier documents ∧
      1 :: message.drop position = (Section.sequence identifier documents).bytes ++ message.drop r.2)
      (readSequence bits codec message position) := by
  unfold Room at room
  apply (readI32_sound (by omega)).bind
  intro sectionLen hlen
  split
  · exact .fail
  · rename_i hlong
    obtain ⟨hshort, rest, hrest⟩ := hlen (by omega)
    generalize hn : sectionLen.toInt.toNat = n at hshort hrest ⊢
    have hfour := drop_add_of_eq hrest
    rw [length_le32] at hfour
    apply Safe.bind (.require (P := fun stop => stop = position + n ∧ stop ≤ message.length) ?_)
    · rintro _ ⟨rfl, hle⟩
      refine Safe.bind (P := fun next => next = position + 4) (.add (by omega) rfl) ?_
      rintro _ rfl
      refine Safe.bind (P := fun text => text = (message.drop (position + 4)).take (n - 4)) (.slice (by omega) hle ?_) ?_
      · rw [Nat.add_sub_add_left]
      rintro _ rfl
      refine Safe.bind (P := fun offset => ((message.drop (position + 4)).take (n - 4)).findIdx? (· == 0) = some offset)
        (.require fun _ h => h) ?_
      intro offset hoffset
      obtain ⟨hin, hlt, hzero, hsplit⟩ := split_of_findIdx? hoffset
      rw [List.length_drop] at hlt
      refine Safe.bind (P := fun nul => nul = position + 4 + offset) (.add (by omega) rfl) ?_
      rintro _ rfl
      refine Safe.bind (P := fun name => name = (message.drop (position + 4)).take offset)
        (.slice (by omega) (by omega) ?_) ?_
      · rw [Nat.add_sub_cancel_left]
      rintro _ rfl
      refine Safe.bind (P := fun identifier => utf8 identifier = (message.drop (position + 4)).take offset)
        (.require fun _ h => utf8_of_fromUtf8 h) ?_
      intro identifier hidentifier
      split
      · exact .fail
      · rename_i hne
        refine Safe.bind (P := fun next => next = position + 4 + offset + 1) (.add (by omega) rfl) ?_
        rintro _ rfl
        refine Safe.bind (documents_sound room (by omega) hle (by omega)) ?_
        rintro s ⟨⟨-, documents, hvalid, hdocuments, hat, hend⟩, hposition⟩
        have hname : (utf8 identifier).length = offset := by
          rw [hidentifier, List.length_take, List.length_drop]
          omega
        have hextent : Section.extent identifier documents = n := by
          unfold Section.extent
          omega
        rw [List.drop_drop, ← hidentifier, ← Nat.add_assoc, hat] at hsplit
        refine ⟨by dsimp only; omega, identifier, documents, ⟨hne, ?_, by omega, hvalid⟩, ?_, ?_, ?_⟩
        · intro hnul
          exact hzero (hidentifier ▸ zero_mem_utf8 hnul)
        · rw [hdocuments]
        · rw [hextent]
          exact hposition
        · rw [hrest, ← hfour, hsplit, hposition]
          simp [Section.bytes, hextent]
    · intro stop hsome
      obtain ⟨hadd, hle⟩ := Option.filter_eq_some_iff.1 hsome
      exact ⟨(checkedAdd_eq_some.1 hadd).2, by simpa using hle⟩

/-- One that is so is read. -/
theorem readSequence_complete {position : Nat} {identifier : String} {documents : List (List UInt8 × Document)}
    {rest : List UInt8} (room : Room bits message) (hvalid : (Section.sequence identifier documents).Valid codec)
    (hat : 1 :: message.drop position = (Section.sequence identifier documents).bytes ++ rest) :
    readSequence bits codec message position =
      .ok ((identifier, documents.map fun d => .document d.2), position + Section.extent identifier documents) := by
  unfold Room at room
  obtain ⟨hne, hnul, hshort, hdocuments⟩ := hvalid
  simp only [Section.bytes, List.cons_append, List.append_assoc, List.cons.injEq, true_and] at hat
  generalize hn : Section.extent identifier documents = n at hat hshort
  unfold Section.extent at hn
  have hlength := congrArg List.length hat
  simp only [List.length_append, length_le32, List.length_drop, List.length_cons] at hlength
  have hle : position + n ≤ message.length := by omega
  have four : position + 4 < 2 ^ bits := by omega
  have hfour := drop_add_of_eq hat
  have hafter := drop_add_of_eq hfour
  rw [length_le32] at hfour hafter
  have hdocs : message.drop (position + 4 + (utf8 identifier).length + 1) = documents.flatMap Prod.fst ++ rest := by
    rw [← List.drop_drop, hafter]
    rfl
  obtain ⟨k, hk, hkn⟩ := readI32_length four hshort hat
  have hadd : (checkedAdd bits position n).filter (· ≤ message.length) = some (position + n) := by
    rw [checkedAdd_eq_some.2 ⟨by omega, rfl⟩]
    simp [hle]
  have htext : (slice (position + 4) (position + n) message : Checked String (List UInt8)) =
      .ok (utf8 identifier ++ 0 :: documents.flatMap Prod.fst) := by
    rw [slice_eq_ok (by omega) hle, hfour, Nat.add_sub_add_left, ← List.cons_append, ← List.append_assoc]
    congr 1
    apply List.take_left'
    simp only [List.length_append, List.length_cons]
    omega
  have hfind : (utf8 identifier ++ 0 :: documents.flatMap Prod.fst).findIdx? (· == 0) = some (utf8 identifier).length := by
    apply findIdx?_append_cons _ rfl
    intro b hb
    simp only [beq_eq_false_iff_ne]
    rintro rfl
    exact zero_notMem_utf8 hnul hb
  have hname : (slice (position + 4) (position + 4 + (utf8 identifier).length) message : Checked String (List UInt8)) =
      .ok (utf8 identifier) := by
    rw [slice_eq_ok (by omega) (by omega), hfour, Nat.add_sub_cancel_left, List.take_left]
  have hloop : loop (fun s => decide (s.position < position + n)) (nextDocument bits codec message (position + n))
      message.length ⟨position + 4 + (utf8 identifier).length + 1, []⟩ =
      .ok ⟨position + n, documents.map fun d => .document d.2⟩ := by
    rw [documents_complete room hle hdocuments hdocs (by dsimp only; omega) (by dsimp only; omega)]
    rfl
  unfold readSequence
  rw [hk]
  show (if k.toInt < 5 then _ else _) = _
  rw [if_neg (by omega), hkn, Int.toNat_natCast, hadd]
  show (add bits position 4 >>= _) = _
  rw [add_eq_ok four]
  show (slice (position + 4) (position + n) message >>= _) = _
  rw [htext]
  show (require _ (List.findIdx? _ _) >>= _) = _
  rw [hfind]
  show (add bits (position + 4) _ >>= _) = _
  rw [add_eq_ok (by omega)]
  show (slice (position + 4) _ message >>= _) = _
  rw [hname]
  show (require _ (fromUtf8 _) >>= _) = _
  rw [fromUtf8_utf8]
  show (if identifier = "" then _ else _) = _
  rw [if_neg hne]
  show (add bits _ 1 >>= _) = _
  rw [add_eq_ok (by omega)]
  show (loop _ _ _ _ >>= _) = _
  rw [hloop]
  rfl

/-! ## Sections -/

theorem Section.bytes_pos (sec : Section) : 0 < sec.bytes.length := by
  cases sec <;> exact Nat.succ_pos _

theorem Scan.position_read (s : Scan) (sec : Section) : (s.read sec).position = s.position + sec.bytes.length := by
  cases sec with
  | body raw document => simp [Scan.read, Section.bytes, Nat.add_comm]
  | sequence identifier documents =>
    simp only [Scan.read, Section.bytes, Section.extent, List.length_cons, List.length_append, length_le32]
    omega

/-- A section may be read where `s` stands: a body only if there was none. -/
def Scan.Admits (s : Scan) (sec : Section) : Prop := sec.isBody = true → s.body = none

/-- A section that was read stands there. -/
theorem readSection_sound {s : Scan} (room : Room bits message) (hposition : s.position < message.length) :
    Safe (fun s' => ∃ sec : Section, sec.Valid codec ∧ s.Admits sec ∧ s' = s.read sec ∧ s'.position ≤ message.length ∧
      message.drop s.position = sec.bytes ++ message.drop s'.position) (readSection bits codec message s) := by
  have hroom := room
  unfold Room at hroom
  refine Safe.bind (P := fun kind => message[s.position]? = some kind) (.require fun _ h => h) ?_
  intro kind hkind
  obtain ⟨hlt, hget⟩ := List.getElem?_eq_some_iff.1 hkind
  have hdrop : message.drop s.position = kind :: message.drop (s.position + 1) := by
    rw [List.drop_eq_getElem_cons hlt, hget]
  refine Safe.bind (P := fun next => next = s.position + 1) (.add (by omega) rfl) ?_
  rintro _ rfl
  split
  · rename_i hzero
    subst hzero
    split
    · exact .fail
    · rename_i hnone
      apply (readDocument_sound room (by omega) (Nat.le_refl _)).bind
      rintro ⟨document, next⟩ ⟨hnext, raw, hraw, hlength, hat⟩
      dsimp only at hnext hlength hat
      refine ⟨.body raw document, hraw, fun _ => by simpa using hnone, ?_, hnext, ?_⟩
      · simp only [Scan.read, hlength, Nat.add_assoc]
      · rw [hdrop, hat]
        rfl
  · split
    · rename_i hone
      subst hone
      refine Safe.bind (readSequence_sound room (by omega)) ?_
      rintro ⟨sequence, next⟩ ⟨hnext, identifier, documents, hvalid, hsequence, hend, hat⟩
      dsimp only at hnext hsequence hend hat
      refine ⟨.sequence identifier documents, hvalid, nofun, ?_, hnext, ?_⟩
      · simp only [Scan.read, hsequence, hend, Nat.add_assoc]
      · rw [hdrop, hat]
    · exact .fail

/-- A section that stands there is read. -/
theorem readSection_complete {s : Scan} {sec : Section} {rest : List UInt8} (room : Room bits message)
    (hvalid : sec.Valid codec) (hadmits : s.Admits sec) (hat : message.drop s.position = sec.bytes ++ rest) :
    readSection bits codec message s = .ok (s.read sec) := by
  have hroom := room
  unfold Room at hroom
  have hlt : s.position < message.length := by
    have hlength := congrArg List.length hat
    rw [List.length_drop, List.length_append] at hlength
    have := sec.bytes_pos
    omega
  have hkind : message[s.position]? = sec.bytes.head? := by
    rw [← List.head?_drop, hat]
    cases sec <;> rfl
  have hnext : message.drop (s.position + 1) = sec.bytes.tail ++ rest := by
    rw [← List.tail_drop, hat]
    cases sec <;> rfl
  unfold readSection
  rw [hkind]
  cases sec with
  | body raw document =>
    have hread := readDocument_complete room (Nat.le_refl _) hvalid hnext (by
      have hlength := congrArg List.length hnext
      simp only [Section.bytes, List.tail_cons, List.length_drop, List.length_append] at hlength
      omega)
    show (add bits s.position 1 >>= _) = _
    rw [add_eq_ok (by omega)]
    show (if s.body.isSome = true then _ else _) = _
    rw [if_neg (by simp [hadmits rfl])]
    show (readDocument bits codec message (s.position + 1) message.length >>= _) = _
    rw [hread]
    show Except.ok _ = Except.ok _
    simp [Scan.read, Nat.add_assoc]
  | sequence identifier documents =>
    have hread := readSequence_complete room hvalid (by rw [hnext]; rfl)
    show (add bits s.position 1 >>= _) = _
    rw [add_eq_ok (by omega)]
    show (readSequence bits codec message (s.position + 1) >>= _) = _
    rw [hread]
    show Except.ok _ = Except.ok _
    simp [Scan.read, Nat.add_assoc]

/-- The locals once `sections` are read. -/
def Scan.readAll (sections : List Section) : Scan := sections.foldl Scan.read ⟨20, none, []⟩

theorem Scan.readAll_append (sections : List Section) (sec : Section) :
    readAll (sections ++ [sec]) = (readAll sections).read sec := by
  simp [readAll]

theorem Scan.body_foldl_read {sections : List Section} {s : Scan} :
    (sections.foldl Scan.read s).body = none ↔ s.body = none ∧ sections.countP Section.isBody = 0 := by
  induction sections generalizing s with
  | nil => simp
  | cons sec sections ih =>
    rw [List.foldl_cons, ih]
    cases sec with
    | body raw document => simp [Scan.read, Section.isBody]
    | sequence identifier documents => simp [Scan.read, Section.isBody]

/-- The sections read so far. -/
def Tiled (codec : Codec) (message : List UInt8) (s : Scan) (sections : List Section) : Prop :=
  (∀ sec ∈ sections, sec.Valid codec) ∧ sections.countP Section.isBody ≤ 1 ∧ s = .readAll sections ∧
    s.position ≤ message.length ∧ message.drop 20 = sections.flatMap Section.bytes ++ message.drop s.position

theorem Tiled.read {s : Scan} {sections : List Section} {sec : Section} (h : Tiled codec message s sections)
    (hvalid : sec.Valid codec) (hadmits : s.Admits sec) (hposition : (s.read sec).position ≤ message.length)
    (hat : message.drop s.position = sec.bytes ++ message.drop (s.read sec).position) :
    Tiled codec message (s.read sec) (sections ++ [sec]) := by
  obtain ⟨hall, hbody, rfl, -, htiled⟩ := h
  refine ⟨?_, ?_, ?_, hposition, ?_⟩
  · exact List.forall_mem_append.2 ⟨hall, by simpa using hvalid⟩
  · rw [List.countP_append, List.countP_singleton]
    split
    · rename_i hsec
      have := (Scan.body_foldl_read.1 (hadmits hsec)).2
      omega
    · exact hbody
  · exact (Scan.readAll_append sections sec).symm
  · rw [htiled, hat, List.flatMap_append]
    simp

/-- **Whatever the loop accepts is made of sections, from byte 20 to the end.** -/
theorem sections_sound (room : Room bits message) (hlong : 20 ≤ message.length) :
    Safe (fun s => s.position = message.length ∧ ∃ sections, Tiled codec message s sections)
      (readSections bits codec message) := by
  have turn (s : Scan) (hs : ∃ sections, Tiled codec message s sections)
      (hcond : decide (s.position < message.length) = true) :
      Safe (fun s' => (∃ sections, Tiled codec message s' sections) ∧
        message.length - s'.position < message.length - s.position) (readSection bits codec message s) := by
    obtain ⟨sections, htiled⟩ := hs
    simp only [decide_eq_true_eq] at hcond
    refine (readSection_sound room hcond).mono ?_
    rintro _ ⟨sec, hvalid, hadmits, rfl, hposition, hat⟩
    refine ⟨⟨_, htiled.read hvalid hadmits hposition hat⟩, ?_⟩
    have := sec.bytes_pos
    rw [Scan.position_read] at hposition ⊢
    omega
  have started : Tiled codec message ⟨20, none, []⟩ [] := ⟨by simp, by simp, rfl, hlong, by simp⟩
  refine (Safe.loop (fun s => message.length - s.position) turn ⟨[], started⟩ (by dsimp only; omega)).mono ?_
  rintro s ⟨⟨sections, htiled⟩, hcond⟩
  have hposition := htiled.2.2.2.1
  simp only [decide_eq_false_iff_not] at hcond
  exact ⟨by omega, sections, htiled⟩

/-- Sections with at most one body among them, and none if there was one already. -/
theorem loop_sections_complete {fuel : Nat} {s : Scan} {sections : List Section} (room : Room bits message)
    (hvalid : ∀ sec ∈ sections, sec.Valid codec)
    (hbody : sections.countP Section.isBody + s.body.toList.length ≤ 1)
    (hat : message.drop s.position = sections.flatMap Section.bytes) (hposition : s.position ≤ message.length)
    (hfuel : message.length - s.position < fuel) :
    loop (fun s => decide (s.position < message.length)) (readSection bits codec message) fuel s =
      .ok (sections.foldl Scan.read s) := by
  induction sections generalizing s fuel with
  | nil =>
    have hlength := congrArg List.length hat
    simp only [List.flatMap_nil, List.length_nil, List.length_drop] at hlength
    exact loop_done (by simpa using by omega) fuel
  | cons sec sections ih =>
    obtain ⟨hsec, hvalid⟩ := List.forall_mem_cons.1 hvalid
    rw [List.flatMap_cons] at hat
    rw [List.countP_cons] at hbody
    have hpos := sec.bytes_pos
    have hlength := congrArg List.length hat
    rw [List.length_drop, List.length_append] at hlength
    have hadmits : s.Admits sec := by
      intro hsecbody
      rw [if_pos hsecbody] at hbody
      cases h : s.body with
      | none => rfl
      | some body =>
        rw [h] at hbody
        simp at hbody
    have hread : (s.read sec).body.toList.length ≤ s.body.toList.length + if sec.isBody = true then 1 else 0 := by
      cases sec with
      | body raw document => simp [Scan.read, Section.isBody]
      | sequence identifier documents => simp [Scan.read, Section.isBody]
    obtain ⟨fuel, rfl⟩ : ∃ n, fuel = n + 1 := ⟨fuel - 1, by omega⟩
    rw [loop_turn (by simpa using by omega) (readSection_complete room hsec hadmits hat), List.foldl_cons]
    apply ih hvalid
    · omega
    · rw [Scan.position_read]
      exact drop_add_of_eq hat
    · rw [Scan.position_read]
      omega
    · rw [Scan.position_read]
      omega

/-- Sections that fill a message, with one body at most among them, are read. -/
theorem sections_complete {sections : List Section} (room : Room bits message) (hlong : 20 ≤ message.length)
    (hvalid : ∀ sec ∈ sections, sec.Valid codec) (hbody : sections.countP Section.isBody ≤ 1)
    (hat : message.drop 20 = sections.flatMap Section.bytes) :
    readSections bits codec message = .ok (.readAll sections) := by
  apply loop_sections_complete room hvalid
  · simpa using hbody
  · exact hat
  · exact hlong
  · dsimp only
    omega

end EmbeddedMongo.Wire
