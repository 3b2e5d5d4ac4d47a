import EmbeddedMongo.Repair.Commands
import EmbeddedMongo.Repair.Report

/-!
# The pass, and the open it is part of

`src/repair/mod.rs` and `Client::open`, without the lines that are logged: `Repair.Announce` has
them in their places, and shows that this is what is left without them.
-/

namespace EmbeddedMongo.Repair

open Conc Dialogue

/-- Whether every collection was checked. -/
inductive Outcome where
  | complete
  | incomplete
  deriving DecidableEq, Repr

/-- The error for a `validate` that gave no verdict. -/
def didNotFinish (ns : Namespace) (reason : String) : Error :=
  .invalidResponse s!"validate on {ns} did not finish: {reason}"

/-- The re-check that ends a repair. Damage that is left is announced and counts as checked. -/
def confirm (ns : Namespace) : Program (Except Error Unit) :=
  (validate ns .check).bind fun
    | .error e => .ret (.error e)
    | .ok reply =>
      match Health.parse reply with
      | .sound | .damaged _ => .ret (.ok ())
      | .inconclusive reason => .ret (.error (didNotFinish ns reason))

/-- `visit`: a check, the repair of what it found damaged, and the check after it. -/
def visit (ns : Namespace) : Program (Except Error Unit) :=
  (validate ns .check).bind fun
    | .error e => .ret (.error e)
    | .ok reply =>
      match Health.parse reply with
      | .sound => .ret (.ok ())
      | .inconclusive reason => .ret (.error (didNotFinish ns reason))
      | .damaged _ => (validate ns .repair).bind fun
        | .error e => .ret (.error e)
        | .ok _ => confirm ns

/-- `sweep`: a collection that fails makes the pass incomplete and the others are visited all the
same. -/
def sweep (check : Namespace → Program (Except Error Unit)) : List Namespace → Outcome → Program Outcome
  | [], outcome => .ret outcome
  | ns :: namespaces, outcome => (check ns).bind fun
    | .ok _ => sweep check namespaces outcome
    | .error _ => sweep check namespaces .incomplete

/-- `char::is_whitespace`. -/
def isWhitespace (c : Char) : Bool :=
  let n := c.toNat
  (0x09 ≤ n && n ≤ 0x0d) || n == 0x20 || n == 0x85 || n == 0xa0 || n == 0x1680 || (0x2000 ≤ n && n ≤ 0x200a) ||
    n == 0x2028 || n == 0x2029 || n == 0x202f || n == 0x205f || n == 0x3000

/-- `str::trim`. -/
def trim (value : String) : List Char :=
  ((value.toList.dropWhile isWhitespace).reverse.dropWhile isWhitespace).reverse

/-- The values that turn the pass off, and nothing else. -/
def SKIP_VALUES : List String := ["1", "true", "yes", "on"]

/-- `skip_requested` -/
def skipRequested : Option Contents → Bool
  | some (.text value) => SKIP_VALUES.any fun affirmative => (trim value).map Char.toLower == affirmative.toList
  | some .notUtf8 | none => false

/-- A marker that cannot be written is a cost only: the next open runs the pass again. -/
def record : Program Unit := Marker.record.map fun _ => ()

section

variable (deserialize : Document → Except Error Document) (patience : Nat)

/-- `pass`: a directory with databases and no collection among them was not read right. -/
def pass : Program (Option Outcome) :=
  (namespaces deserialize patience).bind fun
    | none => .ret none
    | some (.error _) => .ret (some .incomplete)
    | some (.ok catalog) =>
      if catalog.databases > 0 ∧ catalog.namespaces = [] then .ret (some .incomplete)
      else (sweep visit catalog.namespaces .complete).map some

/-- The rest of `run`, where the marker is missing. -/
def unrecorded : Origin → Program (Option Unit)
  | .fresh => record.map some
  | .preExisting => (pass deserialize patience).bind fun
    | none => .ret none
    | some .complete => record.map some
    | some .incomplete => .ret (some ())

def run (origin : Origin) : Program (Option Unit) :=
  .ask .skipVariable fun value =>
    if skipRequested value = true then .ret (some ())
    else Marker.state.bind fun
      | .recorded => .ret (some ())
      | .missing => unrecorded deserialize patience origin

/-- `Client::open`. -/
def openClient : Program (Option (Except Error Unit)) :=
  origin.bind fun origin => .ask .native fun
    | .error e => .ret (some (.error e))
    | .ok client => (run deserialize patience origin).map fun
      | none => none
      | some _ => some (.ok client)

end

end EmbeddedMongo.Repair
