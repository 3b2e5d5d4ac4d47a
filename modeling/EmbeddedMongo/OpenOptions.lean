import EmbeddedMongo.Limits.Floor

/-!
# The options of an open

`OpenOptions` of `src/options.rs` over `EngineOptions` of `embedded-mongodb-sys/src/options.rs`.
The sizes are checked where they are built, so a value of their types is in range.
-/

namespace EmbeddedMongo

/-- How an `OutOfRange` prints. -/
def OutOfRange.display (e : OutOfRange) : String :=
  e.name ++ " must be between " ++ toString e.low ++ " and " ++ toString e.high ++ " " ++ e.unit ++ ", got " ++
    toString e.value

def CacheSize.minMebibytes : Nat := 1
def CacheSize.maxMebibytes : Nat := 10000000

/-- The ceiling on the WiredTiger cache. -/
structure CacheSize where
  mebibytes : UInt32
  low : CacheSize.minMebibytes ≤ mebibytes.toNat
  high : mebibytes.toNat ≤ CacheSize.maxMebibytes
  deriving DecidableEq, Repr

/-- `CacheSize::from_mebibytes` -/
def CacheSize.fromMebibytes (mebibytes : UInt32) : Except OutOfRange CacheSize :=
  match h : checkRange "cache size" "MiB" mebibytes.toNat minMebibytes maxMebibytes with
  | .ok _ => .ok ⟨mebibytes, (checkRange_ok h).2.1, (checkRange_ok h).2.2⟩
  | .error e => .error e

def JournalFileSize.minKibibytes : Nat := 100
def JournalFileSize.maxKibibytes : Nat := 2 * 1024 * 1024

/-- The size of one journal file. -/
structure JournalFileSize where
  kibibytes : UInt32
  low : JournalFileSize.minKibibytes ≤ kibibytes.toNat
  high : kibibytes.toNat ≤ JournalFileSize.maxKibibytes
  deriving DecidableEq, Repr

/-- `JournalFileSize::from_kibibytes` -/
def JournalFileSize.fromKibibytes (kibibytes : UInt32) : Except OutOfRange JournalFileSize :=
  match h : checkRange "journal file size" "KiB" kibibytes.toNat minKibibytes maxKibibytes with
  | .ok _ => .ok ⟨kibibytes, (checkRange_ok h).2.1, (checkRange_ok h).2.2⟩
  | .error e => .error e

/-- `JournalPreallocation` -/
inductive Preallocation where
  | enabled
  | disabled
  deriving DecidableEq, Repr

/-- What WiredTiger reads while it is being opened. -/
structure EngineOptions where
  cache : Option CacheSize
  journalFileSize : Option JournalFileSize
  journalPreallocation : Option Preallocation
  deriving DecidableEq, Repr

/-- `OpenOptions`: what the engine is opened with, and what the layer above it keeps. -/
structure OpenOptions where
  engine : EngineOptions
  freeDiskFloor : Option FreeDiskFloor
  concurrency : Option Concurrency

namespace OpenOptions

/-- `OpenOptions::new`: nothing named. -/
def new : OpenOptions := ⟨⟨none, none, none⟩, none, none⟩

/-- `OpenOptions::cache_size` -/
def cacheSize (options : OpenOptions) (cache : CacheSize) : OpenOptions :=
  { options with engine := { options.engine with cache := some cache } }

/-- `OpenOptions::journal_file_size` -/
def journalFileSize (options : OpenOptions) (size : JournalFileSize) : OpenOptions :=
  { options with engine := { options.engine with journalFileSize := some size } }

/-- `OpenOptions::journal_preallocation` -/
def journalPreallocation (options : OpenOptions) (preallocation : Preallocation) : OpenOptions :=
  { options with engine := { options.engine with journalPreallocation := some preallocation } }

end OpenOptions

end EmbeddedMongo
