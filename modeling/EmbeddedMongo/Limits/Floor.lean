import EmbeddedMongo.Options

/-!
# The floor a caller names

`FreeDiskFloor` of `src/limits/floor.rs`, a `u32` of mebibytes that is not zero.
-/

namespace EmbeddedMongo

def FreeDiskFloor.minMebibytes : Nat := 1
def FreeDiskFloor.maxMebibytes : Nat := u32Max

/-- `FreeDiskFloor`, within its bounds. -/
structure FreeDiskFloor where
  mebibytes : UInt32
  low : FreeDiskFloor.minMebibytes ≤ mebibytes.toNat
  deriving DecidableEq, Repr

/-- `FreeDiskFloor::from_mebibytes`. -/
def FreeDiskFloor.fromMebibytes (mebibytes : UInt32) : Except OutOfRange FreeDiskFloor :=
  match h : checkRange "free disk floor" "MiB" mebibytes.toNat minMebibytes maxMebibytes with
  | .ok _ => .ok ⟨mebibytes, (checkRange_ok h).2.1⟩
  | .error e => .error e

end EmbeddedMongo
