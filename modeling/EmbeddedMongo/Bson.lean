import Mathlib

/-!
# BSON values

What the modelled code builds and tells apart of `bson::Bson`. A document is its fields in
order; `Document::get` and `Document::remove` find the first of a name, and the crate keeps no
second one.
-/

namespace EmbeddedMongo

/-- A BSON value. The element types the code looks into are constructors of their own. -/
inductive Bson where
  | string (text : String)
  | document (fields : List (String × Bson))
  | array (values : List Bson)
  | boolean (value : Bool)
  | int32 (value : Int32)
  | int64 (value : Int64)
  /-- A value of any other element type, as its bytes. -/
  | other (type : UInt8) (bytes : List UInt8)

/-- A document is its fields, in order. -/
abbrev Document := List (String × Bson)

namespace Bson

/-- `Bson::as_str` -/
def asStr : Bson → Option String
  | .string text => some text
  | _ => none

/-- `Bson::as_document` -/
def asDocument : Bson → Option Document
  | .document fields => some fields
  | _ => none

/-- `Bson::as_array` -/
def asArray : Bson → Option (List Bson)
  | .array values => some values
  | _ => none

def asBool : Bson → Option Bool
  | .boolean value => some value
  | _ => none

end Bson

namespace Document

/-- `Document::get` -/
def get (key : String) (document : Document) : Option Bson := document.lookup key

/-! `Document::get_str` and its siblings fail on a missing field and on one of another type alike. -/

/-- `Document::get_str`, with any failure as none. -/
def getStr (key : String) (document : Document) : Option String := (get key document).bind Bson.asStr

/-- `Document::get_array`, with any failure as none. -/
def getArray (key : String) (document : Document) : Option (List Bson) := (get key document).bind Bson.asArray

def getBool (key : String) (document : Document) : Option Bool := (get key document).bind Bson.asBool

/-- `Document::insert`: in the place of a field of that name, or at the end. -/
def insert (key : String) (value : Bson) : Document → Document
  | [] => [(key, value)]
  | field :: document => if field.1 == key then (key, value) :: document else field :: insert key value document

/-- `Document::keys` -/
def keys (document : Document) : List String := document.map Prod.fst

/-- `Document::remove`: the value, and the document without it. -/
def remove (key : String) (document : Document) : Option Bson × Document :=
  (document.lookup key, document.eraseP fun field => field.1 == key)

variable {key : String} {value : Bson} {document rest : Document}

/-- A field is missing when no key is its name. -/
theorem get_eq_none_iff : get key document = none ↔ key ∉ keys document := by
  rw [get, List.lookup_eq_none_iff, keys, List.mem_map]
  constructor
  · rintro h ⟨field, hfield, rfl⟩
    simpa using h field hfield
  · intro h field hfield
    rw [bne_iff_ne]
    rintro rfl
    exact h ⟨field, hfield, rfl⟩

/-- `contains_key` is `get` without the value. -/
theorem contains_keys (key : String) (document : Document) : (keys document).contains key = (get key document).isSome := by
  rw [Bool.eq_iff_iff, List.contains_iff_mem, Option.isSome_iff_ne_none, ne_eq, get_eq_none_iff, Classical.not_not]

/-- A new key goes to the end. -/
theorem insert_of_notMem (h : key ∉ keys document) : insert key value document = document ++ [(key, value)] := by
  induction document with
  | nil => rfl
  | cons field document ih =>
    simp only [keys, List.map_cons, List.mem_cons, not_or] at h
    rw [insert, if_neg (by simpa using Ne.symm h.1), ih h.2]
    rfl

/-- With distinct keys, every field is found under its own. -/
theorem get_of_mem {field : String × Bson} (hdistinct : (keys document).Nodup) (h : field ∈ document) :
    get field.1 document = some field.2 := by
  unfold get
  induction document with
  | nil => cases h
  | cons first document ih =>
    obtain ⟨name, held⟩ := first
    obtain ⟨hnot, hdistinct⟩ := List.nodup_cons.1 hdistinct
    rcases List.mem_cons.1 h with rfl | hmem
    · simp
    · have hbeq : (field.1 == name) = false := by
        rw [beq_eq_false_iff_ne]
        rintro rfl
        exact hnot (List.mem_map.2 ⟨field, hmem, rfl⟩)
      rw [List.lookup_cons, hbeq]
      exact ih hdistinct hmem

/-- An insert is seen under its key and nowhere else. -/
theorem get_insert (other : String) :
    get other (insert key value document) = if other = key then some value else get other document := by
  unfold get
  induction document with
  | nil =>
    rw [insert, List.lookup_cons]
    split
    · rename_i hother
      rw [if_pos (beq_iff_eq.1 hother)]
    · rename_i hother
      rw [if_neg (beq_eq_false_iff_ne.1 hother)]
  | cons field document ih =>
    obtain ⟨name, held⟩ := field
    rw [insert]
    split
    · rename_i hname
      obtain rfl : name = key := beq_iff_eq.1 hname
      rw [List.lookup_cons, List.lookup_cons]
      by_cases hother : other = name
      · subst hother
        simp
      · have hbeq : (other == name) = false := beq_eq_false_iff_ne.2 hother
        simp only [hbeq, if_neg hother]
    · rename_i hname
      rw [List.lookup_cons, List.lookup_cons, ih]
      by_cases hother : other = name
      · subst hother
        simp only [beq_self_eq_true]
        rw [if_neg (by simpa using hname)]
      · have hbeq : (other == name) = false := beq_eq_false_iff_ne.2 hother
        simp only [hbeq]

/-- So is a removal. -/
theorem get_remove {other : String} (h : other ≠ key) : get other (remove key document).2 = get other document := by
  show (document.eraseP _).lookup other = document.lookup other
  induction document with
  | nil => rfl
  | cons field document ih =>
    obtain ⟨name, held⟩ := field
    by_cases hname : name = key
    · subst hname
      have hbeq : (other == name) = false := beq_eq_false_iff_ne.2 h
      rw [List.eraseP_cons_of_pos (by simp), List.lookup_cons, hbeq]
    · rw [List.eraseP_cons_of_neg (by simpa using hname), List.lookup_cons, List.lookup_cons, ih]

/-- The field may stand anywhere; the others keep their order. -/
theorem remove_append (hdistinct : (keys document).Nodup) (h : get key document = some value) :
    remove key (document ++ rest) = (some value, document.filter (·.1 != key) ++ rest) := by
  induction document with
  | nil => cases h
  | cons field document ih =>
    obtain ⟨hnot, hdistinct⟩ := List.nodup_cons.1 hdistinct
    by_cases hfield : field.1 = key
    · subst hfield
      have hall : document.filter (·.1 != field.1) = document := by
        rw [List.filter_eq_self]
        intro other hother
        simp only [bne_iff_ne]
        intro heq
        exact hnot (heq ▸ List.mem_map_of_mem hother)
      rw [get, List.lookup_cons, beq_self_eq_true] at h
      rw [remove, List.cons_append, List.lookup_cons, List.eraseP_cons_of_pos (by simp), List.filter_cons_of_neg (by simp),
        hall, beq_self_eq_true]
      exact congrArg (·, _) h
    · have hbeq : (key == field.1) = false := by simpa using Ne.symm hfield
      rw [get, List.lookup_cons, hbeq] at h
      have := ih hdistinct h
      rw [remove, Prod.mk.injEq] at this
      rw [remove, List.cons_append, List.lookup_cons, hbeq, List.eraseP_cons_of_neg (by simpa using hfield),
        List.filter_cons_of_pos (by simpa using hfield), this.2]
      exact congrArg (·, _) this.1

end Document

end EmbeddedMongo
