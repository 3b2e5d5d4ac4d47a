import EmbeddedMongo.Android.FreeDiskFloor

/-!
# Failures on their way to Java

`embedded-mongodb-android/src/error.rs`: what a failure is reduced to before it is thrown as an
`EmbeddedMongoException`.
-/

namespace EmbeddedMongo

/-- How the crate's errors print. -/
def Error.display : Error → String
  | .bson text => "BSON error: " ++ text
  | .closed => "embedded MongoDB client is closed"
  | .engineThread text => "could not start an embedded MongoDB worker thread: " ++ text
  | .freeDiskFloorNotRestored requested cause rollback =>
    "the free disk floor could not be moved to " ++ toString requested.mebibytes ++
      " MiB and the floors could not be put back either, so the engine is on floors nobody chose -- the move failed with: " ++
      cause.display ++ "; putting them back failed with: " ++ rollback.display
  | .invalidArgument text => text
  | .invalidResponse text => "invalid embedded MongoDB response: " ++ text
  | .native text => "embedded MongoDB error: " ++ text
  | .nativeClosed => "embedded MongoDB client is closed"
  | .nonUtf8Path => "database path is not valid UTF-8"
  | .server code message => "MongoDB error" ++ (code.map fun code => " " ++ toString code).getD "" ++ ": " ++ message

namespace Android

/-- `ErrorCode` -/
inductive ErrorCode where
  | closedHandle
  | invalidArgument
  | panic
  | jni
  | native
  | mongo (code : Int32)
  deriving DecidableEq, Repr

/-- `ErrorCode::as_java`: the bridge's own are negative, the server's as they are. -/
def ErrorCode.asJava : ErrorCode → Int32
  | .closedHandle => -1
  | .invalidArgument => -2
  | .panic => -3
  | .jni => -4
  | .native => -5
  | .mongo code => code

/-- `BridgeError` -/
structure BridgeError where
  code : ErrorCode
  message : String
  deriving DecidableEq, Repr

/-- An integer as an `i32`, if it is one. -/
def i32 (n : Int) : Option Int32 :=
  if Int32.minValue.toInt ≤ n ∧ n ≤ Int32.maxValue.toInt then some (Int32.ofInt n) else none

/-- The code a reply named, when Java can hold it. -/
def serverCode (code : Option Int) : ErrorCode :=
  match (code.bind i32).filter (fun code => code > 0) with
  | some code => .mongo code
  | none => .native

/-- The number of a `Location<n>: reason` message. -/
def locationCode (message : String) : Option Int32 :=
  match message.toList with
  | 'L' :: 'o' :: 'c' :: 'a' :: 't' :: 'i' :: 'o' :: 'n' :: rest =>
    let digits := rest.takeWhile Char.isDigit
    let tail := rest.dropWhile Char.isDigit
    if !tail.isEmpty && tail.head? != some ':' then none
    else
      match (String.ofList digits).toNat? with
      | some n => (i32 n).filter fun code => code > 0
      | none => none
  | _ => none

namespace BridgeError

def closedHandle (message : String) : BridgeError := ⟨.closedHandle, message⟩

def invalidArgument (message : String) : BridgeError := ⟨.invalidArgument, message⟩

/-- `From<EmbeddedError>`. The message of a native failure is the exception's own. -/
def ofError : Error → BridgeError
  | .native text => ⟨((locationCode text).map ErrorCode.mongo).getD .native, text⟩
  | .server code message => ⟨serverCode code, (Error.server code message).display⟩
  | error => ⟨.native, error.display⟩

/-- Its `Display`. -/
def display (e : BridgeError) : String := e.message ++ " (code " ++ toString e.code.asJava ++ ")"

/-- The exception it is thrown as. -/
def throwable (e : BridgeError) : Throwable := .of (.embeddedMongo e.message e.code.asJava none) []

end BridgeError

end Android

end EmbeddedMongo
