import EmbeddedMongo.Bson

/-!
# What a `validate` reply says

The verdict of `src/repair/report.rs`. What a repair did is read for the log only, and `Repaired` is
with the lines in `Repair.Announce`.
-/

namespace EmbeddedMongo.Repair

/-- Why a collection needs repairing, in the terms `validate` reported it. -/
structure Damage where
  errors : List String
  missingIndexEntries : Nat
  deriving DecidableEq, Repr

/-- What a plain `validate` said about one collection. `inconclusive` is a scan that did not
finish and said so in a warning only. -/
inductive Health where
  | sound
  | damaged (damage : Damage)
  | inconclusive (reason : String)
  deriving DecidableEq, Repr

/-- How the engine words a validation that threw. -/
def validationThrew : String := "exception during collection validation"

/-- `str::contains`. -/
def containsText (part : List Char) : List Char → Bool
  | [] => part.isPrefixOf []
  | c :: rest => part.isPrefixOf (c :: rest) || containsText part rest

def strings (document : Document) (key : String) : List String :=
  match Document.getArray key document with
  | none => []
  | some values => values.filterMap Bson.asStr

namespace Health

def parse (reply : Document) : Health :=
  match (strings reply "warnings").find? fun warning => containsText validationThrew.toList warning.toList with
  | some reason => .inconclusive reason
  | none =>
    let errors := strings reply "errors"
    let missingIndexEntries := ((Document.getArray "missingIndexEntries" reply).map List.length).getD 0
    if (Document.getBool "valid" reply).getD false && errors.isEmpty && missingIndexEntries == 0 then
      .sound
    else
      .damaged ⟨errors, missingIndexEntries⟩

/-- The scan finished. -/
def isConclusive : Health → Bool
  | .sound | .damaged _ => true
  | .inconclusive _ => false

end Health

end EmbeddedMongo.Repair
