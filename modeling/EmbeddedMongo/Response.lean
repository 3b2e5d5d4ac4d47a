import EmbeddedMongo.Bson
import EmbeddedMongo.Error
import EmbeddedMongo.Fmt.Floats

/-!
# Replies, as the crate reads them

`validate_response` and `server_error` of `src/error.rs`. The reply an `Error::Server` carries is
left out: it is the reply that was read.
-/

namespace EmbeddedMongo

open Fmt

namespace Bson

/-- `Bson::as_f64` of a double. -/
def asDouble : Bson → Option Binary64
  | .other 0x01 bytes => some (.ofBits (ofLE bytes))
  | _ => none

/-- What the crate reads `ok` as, from one of three element types. -/
def okValue : Bson → Option Binary64
  | .int32 ok => some (.ofInt ok.toInt)
  | .int64 ok => some (.ofInt ok.toInt)
  | ok => ok.asDouble

/-- What `server_error` takes for a code. -/
def codeValue : Bson → Option Int
  | .int32 code => some code.toInt
  | .int64 code => some code.toInt
  | _ => none

end Bson

/-- What describes the failure: the first write error, the write concern error, the reply. -/
def serverDetails (response : Document) : Document :=
  match ((Document.getArray "writeErrors" response).bind List.head?).bind Bson.asDocument with
  | some details => details
  | none => ((Document.get "writeConcernError" response).bind Bson.asDocument).getD response

/-- `server_error` -/
def serverError (response : Document) : Error :=
  let details := serverDetails response
  .server ((Document.get "code" details).bind Bson.codeValue)
    ((Document.getStr "errmsg" details).getD "MongoDB command failed")

/-- There are write errors, of whatever kind. -/
def hasWriteErrors (response : Document) : Bool :=
  match Document.get "writeErrors" response with
  | some (.array errors) => !errors.isEmpty
  | _ => false

/-- `validate_response` -/
def validateResponse (response : Document) : Except Error Document :=
  match (Document.get "ok" response).bind Bson.okValue with
  | none => .error (.invalidResponse "command response has no valid ok field")
  | some ok =>
    if ok.isZero = true ∨ hasWriteErrors response = true ∨ (Document.keys response).contains "writeConcernError" = true then
      .error (serverError response)
    else .ok response

end EmbeddedMongo
