import EmbeddedMongo.Limits.Floor

namespace EmbeddedMongo

/-- `src/error.rs`: the failures the modelled code answers or passes on. `native` is
whatever the engine itself threw, `server` a reply with `ok: 0`. -/
inductive Error where
  | bson (text : String)
  | closed
  /-- The async layer's first worker thread could not be spawned. -/
  | engineThread (text : String)
  /-- A floor that could be neither moved nor put back. -/
  | freeDiskFloorNotRestored (requested : FreeDiskFloor) (cause rollback : Error)
  | invalidArgument (text : String)
  | invalidResponse (text : String)
  | native (text : String)
  /-- `Native` of a closed native client, which the conversion into this type folds into `closed`. -/
  | nativeClosed
  | nonUtf8Path
  | server (code : Option Int) (message : String)
  deriving DecidableEq, Repr

/-- The failure is not one of a command: floors could not be put back. -/
def Error.isNotRestored : Error → Bool
  | .freeDiskFloorNotRestored _ _ _ => true
  | .bson _ | .closed | .engineThread _ | .invalidArgument _ | .invalidResponse _ | .native _ | .nativeClosed
  | .nonUtf8Path | .server _ _ => false

end EmbeddedMongo
