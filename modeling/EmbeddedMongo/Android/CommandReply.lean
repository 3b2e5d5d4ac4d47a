import EmbeddedMongo.Android.FreeDiskFloor
import EmbeddedMongo.Response

/-!
# Replies, as Kotlin reads them

`CommandReply.kt`, beside the crate's `validate_response`. The two look at the same four fields
and agree on the replies a server sends. They differ on what such a field may hold otherwise:
Kotlin counts a write error only when it is a document and takes any `Number` for one, `Decimal128`
with it, where the crate asks for a populated array, a field that is there, and three element
types.
-/

namespace EmbeddedMongo.Android

open Fmt

/-- What `org.bson.types.Decimal128` answers as a `java.lang.Number`, from its sixteen bytes. -/
class Decimal128 where
  doubleValue : List UInt8 → Binary64
  intValue : List UInt8 → Int32

/-- The values of a decoded document that are a `java.lang.Number`. -/
inductive Number where
  | int (value : Int32)
  | long (value : Int64)
  | double (value : Binary64)
  | decimal128 (bytes : List UInt8)

namespace Number

/-- `as? Number` -/
def ofBson : Bson → Option Number
  | .int32 value => some (.int value)
  | .int64 value => some (.long value)
  | .other 0x01 bytes => some (.double (.ofBits (ofLE bytes)))
  | .other 0x13 bytes => some (.decimal128 bytes)
  | _ => none

theorem ofBson_other (type : UInt8) (bytes : List UInt8) :
    ofBson (.other type bytes) =
      if type = 0x01 then some (.double (.ofBits (ofLE bytes)))
      else if type = 0x13 then some (.decimal128 bytes)
      else none := by
  by_cases hdouble : type = 0x01
  · subst hdouble
    rfl
  · by_cases hdecimal : type = 0x13
    · subst hdecimal
      rfl
    · simp [ofBson, hdouble, hdecimal]

variable [Decimal128]

/-- `Number.toDouble()` -/
def toDouble : Number → Binary64
  | .int value => .ofInt value.toInt
  | .long value => .ofInt value.toInt
  | .double value => value
  | .decimal128 bytes => Decimal128.doubleValue bytes

/-- A long keeps its low half. -/
def toInt : Number → Int32
  | .int value => value
  | .long value => value.toInt32
  | .double value => value.toInt32
  | .decimal128 bytes => Decimal128.intValue bytes

end Number

/-! ## What describes the failure -/

/-- The documents of a decoded list. -/
def filterIsInstance (values : List Bson) : List Document := values.filterMap Bson.asDocument

/-- `failureDetails` -/
def failureDetails (reply : Document) : Option Document :=
  match (Document.getArray "writeErrors" reply).bind fun errors => (filterIsInstance errors).head? with
  | some details => some details
  | none => (Document.get "writeConcernError" reply).bind Bson.asDocument

/-- Neither field holds a document. -/
structure Undescribed (reply : Document) : Prop where
  writeErrors : ∀ errors, Document.getArray "writeErrors" reply = some errors → ∀ e ∈ errors, e.asDocument = none
  writeConcernError : (Document.get "writeConcernError" reply).bind Bson.asDocument = none

theorem filterIsInstance_head?_eq_none_iff (values : List Bson) :
    (filterIsInstance values).head? = none ↔ ∀ value ∈ values, value.asDocument = none := by
  rw [List.head?_eq_none_iff, filterIsInstance, List.filterMap_eq_nil_iff]

/-- Nothing describes a failure just if no document does. -/
theorem failureDetails_eq_none_iff (reply : Document) : failureDetails reply = none ↔ Undescribed reply := by
  unfold failureDetails
  cases herrors : Document.getArray "writeErrors" reply with
  | none =>
    simp only [Option.bind_none]
    exact ⟨fun h => ⟨by simp [herrors], h⟩, fun h => h.writeConcernError⟩
  | some errors =>
    simp only [Option.bind_some]
    split
    · rename_i details hhead
      refine iff_of_false nofun ?_
      intro h
      rw [(filterIsInstance_head?_eq_none_iff errors).2 (h.writeErrors errors herrors)] at hhead
      cases hhead
    · rename_i hhead
      constructor
      · intro h
        refine ⟨?_, h⟩
        intro others hothers
        obtain rfl : errors = others := Option.some.inj (herrors.symm.trans hothers)
        exact (filterIsInstance_head?_eq_none_iff errors).1 hhead
      · intro h
        exact h.writeConcernError

/-- Where the fields are absent none does. -/
theorem undescribed_of_absent {reply : Document} (noWriteErrors : hasWriteErrors reply = false)
    (noConcern : (Document.keys reply).contains "writeConcernError" = false) : Undescribed reply := by
  constructor
  · intro errors herrors e he
    obtain ⟨value, hvalue, harray⟩ := Option.bind_eq_some_iff.1 herrors
    cases value with
    | array values =>
      obtain rfl : values = errors := Option.some.inj harray
      rw [hasWriteErrors, hvalue] at noWriteErrors
      have empty : values = [] := by simpa using noWriteErrors
      rw [empty] at he
      cases he
    | string | document | boolean | int32 | int64 | other => cases harray
  · have absent : Document.get "writeConcernError" reply = none := Document.get_eq_none_iff.2 (by simpa using noConcern)
    rw [absent]
    rfl

/-- The first write error is a document if any is, so that both describe the failure by it. -/
def SameDetails (reply : Document) : Prop :=
  ∀ errors, Document.getArray "writeErrors" reply = some errors →
    (errors.head?.bind Bson.asDocument).isSome = true ∨ ∀ e ∈ errors, e.asDocument = none

/-- The two then go by one document. -/
theorem failureDetails_of_same {reply : Document} (same : SameDetails reply) :
    (failureDetails reply).getD reply = serverDetails reply := by
  unfold failureDetails serverDetails
  cases herrors : Document.getArray "writeErrors" reply with
  | none => rfl
  | some errors =>
    simp only [Option.bind_some]
    rcases same errors herrors with hfirst | hnone
    · obtain ⟨details, hdetails⟩ := Option.isSome_iff_exists.1 hfirst
      obtain ⟨value, hvalue, hdocument⟩ := Option.bind_eq_some_iff.1 hdetails
      obtain ⟨rest, rfl⟩ := List.head?_eq_some_iff.1 hvalue
      simp [filterIsInstance, hdocument]
    · have hfirst : errors.head?.bind Bson.asDocument = none := by
        rw [Option.bind_eq_none_iff]
        intro value hvalue
        exact hnone value (List.mem_of_mem_head? hvalue)
      rw [(filterIsInstance_head?_eq_none_iff errors).2 hnone, hfirst]

/-- Otherwise Kotlin goes by the first document among the write errors, and the crate by what it
takes when there are none. -/
theorem details_of_not_same {reply : Document} (apart : ¬ SameDetails reply) :
    ∃ errors details, Document.getArray "writeErrors" reply = some errors ∧ errors.head?.bind Bson.asDocument = none ∧
      (filterIsInstance errors).head? = some details ∧ failureDetails reply = some details ∧
      serverDetails reply = ((Document.get "writeConcernError" reply).bind Bson.asDocument).getD reply := by
  obtain ⟨errors, apart⟩ := Classical.not_forall.1 apart
  obtain ⟨herrors, apart⟩ := Classical.not_imp.1 apart
  obtain ⟨hfirst, hdocument⟩ := not_or.1 apart
  have hfirst : errors.head?.bind Bson.asDocument = none := by simpa using hfirst
  cases hhead : (filterIsInstance errors).head? with
  | none => exact absurd ((filterIsInstance_head?_eq_none_iff errors).1 hhead) hdocument
  | some details =>
    refine ⟨errors, details, herrors, hfirst, hhead, ?_, ?_⟩
    · rw [failureDetails, herrors, Option.bind_some, hhead]
    · rw [serverDetails, herrors, Option.bind_some, hfirst]

/-! ## The code the crate has -/

/-- The code of the crate as Kotlin is to have it. -/
def narrow : Option Int → Int32
  | some code => if -2 ^ 31 ≤ code ∧ code < 2 ^ 31 then .ofInt code else noErrorCode
  | none => noErrorCode

/-- The crate's `code` field has this code: it is that integer, or there is none in it that fits
32 bits and the code is the one for none. -/
def Carries (code : Int32) : Option Bson → Prop
  | some (.int32 value) => value = code
  | some (.int64 value) =>
    value.toInt = code.toInt ∨ (code = noErrorCode ∧ ¬ (-2 ^ 31 ≤ value.toInt ∧ value.toInt < 2 ^ 31))
  | _ => code = noErrorCode

theorem ofInt_eq_iff {value : Int} (fits : -2 ^ 31 ≤ value ∧ value < 2 ^ 31) (code : Int32) :
    code = .ofInt value ↔ value = code.toInt := by
  rw [← Int32.toInt_inj, Int32.toInt_ofInt_of_le fits.1 fits.2]
  exact eq_comm

/-- A field carries a code when the crate's reading of it is narrowed to that code. -/
theorem eq_narrow_iff (code : Int32) (field : Option Bson) :
    code = narrow (field.bind Bson.codeValue) ↔ Carries code field := by
  cases field with
  | none => exact Iff.rfl
  | some value => cases value with
    | string | document | array | boolean | other => exact Iff.rfl
    | int32 value =>
      show code = narrow (some value.toInt) ↔ value = code
      have fits : -2 ^ 31 ≤ value.toInt ∧ value.toInt < 2 ^ 31 := ⟨value.le_toInt, value.toInt_lt⟩
      rw [narrow, if_pos fits, ofInt_eq_iff fits, Int32.toInt_inj]
    | int64 value =>
      show code = narrow (some value.toInt) ↔ _ ∨ _
      by_cases fits : -2 ^ 31 ≤ value.toInt ∧ value.toInt < 2 ^ 31
      · rw [narrow, if_pos fits, ofInt_eq_iff fits]
        exact (or_iff_left fun beyond => beyond.2 fits).symm
      · rw [narrow, if_neg fits]
        constructor
        · exact fun hcode => .inr ⟨hcode, fits⟩
        · rintro (hvalue | ⟨hcode, -⟩)
          · exact absurd (hvalue ▸ ⟨code.le_toInt, code.toInt_lt⟩) fits
          · exact hcode

/-! ## What Kotlin makes of a reply -/

section Read

variable [Decimal128]

/-- `(failure["code"] as? Number)?.toInt() ?: NO_ERROR_CODE` -/
def codeOf (failure : Document) : Int32 :=
  (((Document.get "code" failure).bind Number.ofBson).map Number.toInt).getD noErrorCode

/-- `checkedReply` -/
def checkedReply (reply : Document) : Except Throwable Document :=
  match ((Document.get "ok" reply).bind Number.ofBson).map Number.toDouble with
  | none =>
    .error (.of (.embeddedMongo
      ("MongoDB reply carries no ok field (fields: " ++ ", ".intercalate (Document.keys reply) ++ ")")
      noErrorCode none) [])
  | some ok =>
    let details := failureDetails reply
    if ok.isZero = false ∧ details = none then .ok reply
    else
      let failure := details.getD reply
      .error (.of (.embeddedMongo
        ((Document.getStr "errmsg" failure).getD "the MongoDB command failed without an error message")
        (codeOf failure) (some reply)) [])

/-! ## The `ok` field -/

/-- A `Number` to Kotlin and not to the crate. -/
def isDecimal128 : Bson → Bool
  | .other 0x13 _ => true
  | _ => false

/-- The crate reads `ok` as Kotlin does, but for a decimal. -/
theorem okValue_eq (ok : Bson) :
    ok.okValue = if isDecimal128 ok = true then none else (Number.ofBson ok).map Number.toDouble := by
  cases ok with
  | other type bytes =>
    by_cases hdouble : type = 0x01
    · subst hdouble
      rfl
    · by_cases hdecimal : type = 0x13
      · subst hdecimal
        rfl
      · simp [Bson.okValue, Bson.asDouble, Number.ofBson, isDecimal128, hdouble, hdecimal]
  | string | document | array | boolean | int32 | int64 => rfl

/-- `ok` is a number to Kotlin, and not zero. -/
def SaysOk (reply : Document) : Prop :=
  ∃ number, (Document.get "ok" reply).bind Number.ofBson = some number ∧ number.toDouble.isZero = false

/-- What Kotlin accepts. -/
theorem checkedReply_ok_iff (reply : Document) :
    (∃ r, checkedReply reply = .ok r) ↔ SaysOk reply ∧ failureDetails reply = none := by
  unfold checkedReply SaysOk
  cases hok : (Document.get "ok" reply).bind Number.ofBson with
  | none => simp
  | some number =>
    simp only [Option.map_some, Option.some.injEq, exists_eq_left']
    split
    · rename_i hpass
      exact iff_of_true ⟨reply, rfl⟩ hpass
    · rename_i hfail
      exact iff_of_false nofun hfail

/-- What the crate accepts, in the same terms. -/
theorem validateResponse_ok_iff (reply : Document) :
    (∃ r, validateResponse reply = .ok r) ↔
      SaysOk reply ∧ (Document.get "ok" reply).any isDecimal128 = false ∧ hasWriteErrors reply = false ∧
        (Document.keys reply).contains "writeConcernError" = false := by
  unfold validateResponse SaysOk
  cases hok : Document.get "ok" reply with
  | none => simp
  | some ok =>
    simp only [Option.bind_some, Option.any_some]
    rw [okValue_eq]
    cases hdecimal : isDecimal128 ok with
    | true => simp
    | false =>
      cases hnumber : Number.ofBson ok with
      | none => simp
      | some number =>
        simp only [Bool.false_eq_true, if_false, Option.map_some, Option.some.injEq, exists_eq_left', true_and]
        split
        · rename_i hfail
          refine iff_of_false nofun ?_
          rintro ⟨hzero, hwrite, hconcern⟩
          rw [hzero, hwrite, hconcern] at hfail
          simp at hfail
        · rename_i hpass
          simp only [not_or, Bool.not_eq_true] at hpass
          exact iff_of_true ⟨reply, rfl⟩ hpass

/-- Kotlin takes for a success what the crate does not: no document describes a failure, but `ok`
is a decimal, or a field that describes failures is there all the same. -/
structure Overlooked (reply : Document) : Prop where
  saysOk : SaysOk reply
  undescribed : Undescribed reply
  noticed : (Document.get "ok" reply).any isDecimal128 = true ∨ hasWriteErrors reply = true ∨
    (Document.keys reply).contains "writeConcernError" = true

/-- They accept the same replies but those Kotlin overlooks. -/
theorem accepted_alike_iff (reply : Document) :
    ((∃ r, checkedReply reply = .ok r) ↔ (∃ r, validateResponse reply = .ok r)) ↔ ¬ Overlooked reply := by
  rw [checkedReply_ok_iff, validateResponse_ok_iff, failureDetails_eq_none_iff]
  constructor
  · rintro alike ⟨saysOk, undescribed, noticed⟩
    obtain ⟨-, hdecimal, hwrite, hconcern⟩ := alike.1 ⟨saysOk, undescribed⟩
    rw [hdecimal, hwrite, hconcern] at noticed
    simp at noticed
  · intro seen
    constructor
    · rintro ⟨saysOk, undescribed⟩
      refine ⟨saysOk, ?_⟩
      have unnoticed : ¬ (_ ∨ _ ∨ _) := fun noticed => seen ⟨saysOk, undescribed, noticed⟩
      simpa only [not_or, Bool.not_eq_true] using unnoticed
    · rintro ⟨saysOk, -, hwrite, hconcern⟩
      exact ⟨saysOk, undescribed_of_absent hwrite hconcern⟩

/-! ## The two codes -/

/-- The two `code` fields come to one code. Kotlin takes an integer as it is, a long by its low
half, a double towards zero, a decimal by its `intValue`, and anything else for no code. -/
def CodesMeet (kotlin crate : Option Bson) : Prop :=
  match kotlin with
  | some (.int32 code) => Carries code crate
  | some (.int64 code) => Carries code.toInt32 crate
  | some value => match Number.ofBson value with
    | some (.double code) => Carries code.toInt32 crate
    | some (.decimal128 bytes) => Carries (Decimal128.intValue bytes) crate
    | _ => Carries noErrorCode crate
  | none => Carries noErrorCode crate

/-- What a `code` field may hold without Kotlin making up a code from it. -/
def CodeKept (failure : Document) : Prop :=
  match Document.get "code" failure with
  | some (.int64 code) => (-2 ^ 31 ≤ code.toInt ∧ code.toInt < 2 ^ 31) ∨ code.toInt32 = 0
  | some value => match Number.ofBson value with
    | some (.double code) => code.Fractional
    | some (.decimal128 bytes) => Decimal128.intValue bytes = 0
    | _ => True
  | none => True

/-- What Kotlin reads of a document is what its `code` field says. -/
theorem carries_codeOf_iff (failure : Document) (crate : Option Bson) :
    Carries (codeOf failure) crate ↔ CodesMeet (Document.get "code" failure) crate := by
  unfold codeOf CodesMeet
  cases Document.get "code" failure with
  | none => exact Iff.rfl
  | some value => cases value with
    | string | document | array | boolean | int32 | int64 => exact Iff.rfl
    | other type bytes =>
      simp only [Option.bind_some, Number.ofBson_other]
      split
      · exact Iff.rfl
      · split
        · exact Iff.rfl
        · exact Iff.rfl

/-- A field meets itself when Kotlin makes up no code from it. -/
theorem codesMeet_self_iff (failure : Document) :
    CodesMeet (Document.get "code" failure) (Document.get "code" failure) ↔ CodeKept failure := by
  unfold CodesMeet CodeKept
  cases Document.get "code" failure with
  | none => exact iff_of_true rfl trivial
  | some value => cases value with
    | string | document | array | boolean => exact iff_of_true rfl trivial
    | int32 code => exact iff_of_true rfl trivial
    | int64 code =>
      show _ ∨ _ ↔ _ ∨ _
      by_cases fits : -2 ^ 31 ≤ code.toInt ∧ code.toInt < 2 ^ 31
      · refine iff_of_true (.inl ?_) (.inl fits)
        rw [Int64.toInt_toInt32, Int.bmod_eq_of_le (by omega) (by omega)]
      · have hlow : code.toInt ≠ code.toInt32.toInt :=
          fun heq => fits (heq ▸ ⟨code.toInt32.le_toInt, code.toInt32.toInt_lt⟩)
        rw [or_iff_right hlow, or_iff_right fits]
        exact and_iff_left fits
    | other type bytes =>
      simp only [Number.ofBson_other]
      by_cases hdouble : type = 0x01
      · simp only [if_pos hdouble]
        exact Binary64.toInt32_eq_zero_iff _
      · by_cases hdecimal : type = 0x13
        · simp only [if_neg hdouble, if_pos hdecimal]
          exact Iff.rfl
        · simp only [if_neg hdouble, if_neg hdecimal]
          exact iff_of_true rfl trivial

/-- What the crate's failure says of the reply behind it. -/
theorem validateResponse_server {reply : Document} {code : Option Int} {message : String}
    (h : validateResponse reply = .error (.server code message)) :
    code = (Document.get "code" (serverDetails reply)).bind Bson.codeValue ∧
      ∃ number, (Document.get "ok" reply).bind Number.ofBson = some number := by
  unfold validateResponse at h
  split at h
  · cases h
  · rename_i ok hok
    obtain ⟨value, hvalue, hnumber⟩ := Option.bind_eq_some_iff.1 hok
    rw [okValue_eq] at hnumber
    split at hnumber
    · cases hnumber
    · obtain ⟨number, hnumber, -⟩ := Option.map_eq_some_iff.1 hnumber
      refine ⟨?_, number, Option.bind_eq_some_iff.2 ⟨value, hvalue, hnumber⟩⟩
      split at h
      · simp only [serverError, Except.error.injEq, Error.server.injEq] at h
        exact h.1.symm
      · cases h

/-- A rejected reply whose `ok` is a number has the code of the document that describes the failure. -/
theorem checkedReply_error {reply : Document} {number : Number} {failure : Throwable}
    (hok : (Document.get "ok" reply).bind Number.ofBson = some number) (h : checkedReply reply = .error failure) :
    ∃ text, failure = .of (.embeddedMongo text (codeOf ((failureDetails reply).getD reply)) (some reply)) [] := by
  unfold checkedReply at h
  rw [hok] at h
  simp only [Option.map_some] at h
  split at h
  · cases h
  · exact ⟨_, (Except.error.inj h).symm⟩

/-- **Kotlin and the crate on a failed reply.** They accept the same replies except those Kotlin
overlooks. On a reply both reject for what its server says, the exception's code is the crate's
narrowed to 32 bits, and the no-code value where there is none or it does not fit, exactly when
the `code` fields of the two documents that describe the failure meet. The two go by one document,
and its `code` is then to be none that Kotlin makes another code of, unless the write errors have
a document but do not begin with it: Kotlin goes by that document, and the crate by the write
concern error or the reply itself. -/
theorem failed_replies_are_read_alike_iff (reply : Document) :
    (((∃ r, checkedReply reply = .ok r) ↔ (∃ r, validateResponse reply = .ok r)) ↔ ¬ Overlooked reply) ∧
    ∀ code message failure,
      validateResponse reply = .error (.server code message) → checkedReply reply = .error failure →
      ∃ text kotlinCode details, failure = .of (.embeddedMongo text kotlinCode (some reply)) [] ∧
        (kotlinCode = narrow code ↔
          CodesMeet (Document.get "code" details) (Document.get "code" (serverDetails reply))) ∧
        (SameDetails reply → details = serverDetails reply ∧ (kotlinCode = narrow code ↔ CodeKept (serverDetails reply))) ∧
        (¬ SameDetails reply → ∃ errors, Document.getArray "writeErrors" reply = some errors ∧
          errors.head?.bind Bson.asDocument = none ∧ (filterIsInstance errors).head? = some details ∧
          serverDetails reply = ((Document.get "writeConcernError" reply).bind Bson.asDocument).getD reply) := by
  refine ⟨accepted_alike_iff reply, ?_⟩
  intro code message failure hrust hkotlin
  obtain ⟨rfl, number, hok⟩ := validateResponse_server hrust
  obtain ⟨text, rfl⟩ := checkedReply_error hok hkotlin
  have hmeet := (eq_narrow_iff (codeOf ((failureDetails reply).getD reply)) (Document.get "code" (serverDetails reply))).trans
    (carries_codeOf_iff ((failureDetails reply).getD reply) (Document.get "code" (serverDetails reply)))
  refine ⟨text, _, _, rfl, hmeet, ?_, ?_⟩
  · intro same
    refine ⟨failureDetails_of_same same, hmeet.trans ?_⟩
    rw [failureDetails_of_same same]
    exact codesMeet_self_iff (serverDetails reply)
  · intro apart
    obtain ⟨errors, details, herrors, hfirst, hhead, hdetails, hserver⟩ := details_of_not_same apart
    rw [hdetails, Option.getD_some]
    exact ⟨errors, herrors, hfirst, hhead, hserver⟩

end Read

/-- `11000.0` -/
def doubleCode : Bson := .other 0x01 [0, 0, 0, 0, 0, 0x7c, 0xc5, 0x40]

/-- A write concern error that is not a document, write errors that hold none and an `ok` that is a
decimal other than zero are failures to the crate and successes to Kotlin; a code that is a double
is none to the crate and `11000` to Kotlin. -/
theorem replies_read_apart :
    (¬ ∃ r, validateResponse [("ok", .int32 1), ("writeConcernError", .string "timeout")] = .ok r) ∧
    (¬ ∃ r, validateResponse [("ok", .int32 1), ("writeErrors", .array [.string "duplicate key"])] = .ok r) ∧
    validateResponse [("ok", .int32 0), ("code", doubleCode)] = .error (.server none "MongoDB command failed") ∧
    ∀ [Decimal128],
      (∃ r, checkedReply [("ok", .int32 1), ("writeConcernError", .string "timeout")] = .ok r) ∧
      (∃ r, checkedReply [("ok", .int32 1), ("writeErrors", .array [.string "duplicate key"])] = .ok r) ∧
      (∀ one, (Decimal128.doubleValue one).isZero = false →
        (∃ r, checkedReply [("ok", .other 0x13 one)] = .ok r) ∧
        ¬ ∃ r, validateResponse [("ok", .other 0x13 one)] = .ok r) ∧
      checkedReply [("ok", .int32 0), ("code", doubleCode)] =
        .error (.of (.embeddedMongo "the MongoDB command failed without an error message" 11000
          (some [("ok", .int32 0), ("code", doubleCode)])) []) := by
  have hone : (Binary64.ofInt 1).isZero = false := by decide +kernel
  have hzero : (Binary64.ofInt 0).isZero = true := by decide +kernel
  have hbits : (Binary64.ofBits (ofLE [0, 0, 0, 0, 0, 0x7c, 0xc5, 0x40])).toInt32 = 11000 := by decide +kernel
  -- the crate's reading is said in Kotlin's terms, and any decimals do for that
  let plain : Decimal128 := ⟨fun _ => .nan, fun _ => 0⟩
  refine ⟨?_, ?_, ?_, fun {_} => ⟨?_, ?_, ?_, ?_⟩⟩
  · exact fun h => absurd ((validateResponse_ok_iff _).1 h).2.2.2 (by decide)
  · exact fun h => absurd ((validateResponse_ok_iff _).1 h).2.2.1 (by decide)
  · have hok : (Document.get "ok" [("ok", .int32 0), ("code", doubleCode)]).bind Bson.okValue = some (.ofInt 0) := rfl
    unfold validateResponse
    rw [hok]
    dsimp only
    rw [if_pos (.inl hzero)]
    rfl
  · exact (checkedReply_ok_iff _).2 ⟨⟨_, rfl, hone⟩, rfl⟩
  · exact (checkedReply_ok_iff _).2 ⟨⟨_, rfl, hone⟩, rfl⟩
  · intro one hdecimal
    refine ⟨(checkedReply_ok_iff _).2 ⟨⟨_, rfl, hdecimal⟩, rfl⟩, ?_⟩
    intro h
    have hread : true = false := ((validateResponse_ok_iff _).1 h).2.1
    cases hread
  · have hok : ((Document.get "ok" [("ok", .int32 0), ("code", doubleCode)]).bind Number.ofBson).map Number.toDouble =
      some (.ofInt 0) := rfl
    have hcode : codeOf [("ok", .int32 0), ("code", doubleCode)] = 11000 := hbits
    unfold checkedReply
    rw [hok]
    dsimp only
    rw [hzero, if_neg (by simp), ← hcode]
    rfl

end EmbeddedMongo.Android
