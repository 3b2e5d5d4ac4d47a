import EmbeddedMongo.Fmt.Bytes
import EmbeddedMongo.OpenOptions

/-!
# The options of the native engine

`EngineOptions::to_ffi`, the struct that `cpp/bridge.cc` fills in, and `native/engine_options.cpp`,
which reads as much of it as its caller says there is. Zero is "not named" in every field.
-/

namespace EmbeddedMongo

open Fmt

def Preallocation.native : Preallocation → UInt32
  | .enabled => 1
  | .disabled => 2

/-- The options as they cross the FFI, zero for what is not named. -/
structure NativeOpenOptions where
  cacheSizeMb : UInt32
  journalFileMaxKb : UInt32
  journalPrealloc : UInt32
  deriving DecidableEq, Repr

/-- `NativeOpenOptions{}` -/
def NativeOpenOptions.zero : NativeOpenOptions := ⟨0, 0, 0⟩

/-- `EngineOptions::to_ffi` -/
def EngineOptions.toFfi (options : EngineOptions) : NativeOpenOptions where
  cacheSizeMb := options.cache.elim 0 CacheSize.mebibytes
  journalFileMaxKb := options.journalFileSize.elim 0 JournalFileSize.kibibytes
  journalPrealloc := options.journalPreallocation.elim 0 Preallocation.native

namespace Native

/-- The two layouts the library is built with. -/
inductive Abi where
  | ilp32
  | lp64
  deriving DecidableEq, Repr

namespace Abi

/-- `sizeof(options->size)` -/
def word : Abi → Nat
  | .ilp32 => 4
  | .lp64 => 8

/-- `sizeof(embedded_mongodb_open_options)` -/
def sizeOf : Abi → Nat
  | .ilp32 => 16
  | .lp64 => 24

end Abi

/-- An `embedded_mongodb_open_options` of some caller: its `size`, and the bytes after that member. -/
structure OptionsStruct where
  size : Nat
  members : List UInt8
  deriving DecidableEq, Repr

/-- The struct `open_with_options` of `bridge.cc` hands over, any padding zero. -/
def filledIn (abi : Abi) (options : NativeOpenOptions) : OptionsStruct where
  size := abi.sizeOf
  members := le32 options.cacheSizeMb.toNat ++ le32 options.journalFileMaxKb.toNat ++ le32 options.journalPrealloc.toNat ++
    List.replicate (abi.sizeOf - abi.word - 12) 0

/-- `requested`: copies what the caller has, leaves the rest zero, and fails on a caller that forgot `size`. -/
def requested (abi : Abi) : Option OptionsStruct → Except String NativeOpenOptions
  | none => .ok .zero
  | some options =>
    if options.size < abi.word then
      .error ("Location13180012: embedded_mongodb_open_options.size must be set to sizeof the caller's struct, got " ++
        toString options.size)
    else
      let copy := options.members.take (min options.size abi.sizeOf - abi.word)
      .ok ⟨wordAt copy 0, wordAt copy 4, wordAt copy 8⟩

def kDefaultCacheSizeMB : UInt32 := 256
def kDefaultJournalFileMaxKB : UInt32 := 8 * 1024
def kDefaultJournalPrealloc : Bool := false

/-- What the engine is opened with. -/
structure ResolvedOptions where
  cacheSizeMB : UInt32
  journalFileMaxKB : UInt32
  journalPrealloc : Bool
  deriving DecidableEq, Repr

def valueOrDefault (value fallback : UInt32) : UInt32 := if value = 0 then fallback else value

/-- The third option, by its number. -/
def resolvePrealloc (value : UInt32) : Bool :=
  if value = 1 then true
  else if value = 2 then false
  else kDefaultJournalPrealloc

/-- Every zero replaced by the library's default. -/
def resolved (asked : NativeOpenOptions) : ResolvedOptions where
  cacheSizeMB := valueOrDefault asked.cacheSizeMb kDefaultCacheSizeMB
  journalFileMaxKB := valueOrDefault asked.journalFileMaxKb kDefaultJournalFileMaxKB
  journalPrealloc := resolvePrealloc asked.journalPrealloc

/-- `resolveOptions`: what is requested, with a default for each that is zero. -/
def resolveOptions (abi : Abi) (options : Option OptionsStruct) : Except String ResolvedOptions :=
  (requested abi options).map resolved

/-- A struct this build filled in is copied whole. -/
theorem requested_filledIn (abi : Abi) (options : NativeOpenOptions) :
    requested abi (some (filledIn abi options)) = .ok options := by
  obtain ⟨cache, journal, prealloc⟩ := options
  have whole : requested abi (some (filledIn abi ⟨cache, journal, prealloc⟩)) =
      let members := (filledIn abi ⟨cache, journal, prealloc⟩).members
      .ok ⟨wordAt members 0, wordAt members 4, wordAt members 8⟩ := by
    cases abi <;> rfl
  rw [whole]
  simp only [filledIn, List.append_assoc, Except.ok.injEq, NativeOpenOptions.mk.injEq]
  refine ⟨wordAt_le32 [] _ cache, wordAt_le32 (le32 cache.toNat) _ journal, ?_⟩
  rw [← List.append_assoc]
  exact wordAt_le32 (le32 cache.toNat ++ le32 journal.toNat) _ prealloc

/-- What the crate fills in resolves to what it named. -/
theorem resolveOptions_filledIn (abi : Abi) (options : NativeOpenOptions) :
    resolveOptions abi (some (filledIn abi options)) = .ok (resolved options) := by
  rw [resolveOptions, requested_filledIn]
  rfl

end Native

end EmbeddedMongo
