import EmbeddedMongo.Conc.System
import EmbeddedMongo.Conc.Tally

/-!
# The cache of published libraries, and the builds that race for it

`fetch_prebuilt` and what it calls: a build looks its library up in a directory it shares
with every other build on the machine, drops an entry that does not verify, downloads to a
temporary of its own, verifies that and renames it into place. There is no lock. What one
build sees between two of its own system calls is whatever the others have done meanwhile,
so each call that touches the directory is one step here, and `verify` is two: it looks at
the file's size and, later, opens the path again to hash it.

The temporary's name holds the process id, so a build has one that is its own; builds are
numbered in the order they start. A system call may fail for reasons outside the directory
(permissions, a full disk, a read error): such a step is labelled as a fault.
-/

namespace EmbeddedMongo.Cache

open Conc

/-- The part of a manifest entry the cache uses. -/
structure Prebuilt where
  sha256 : String
  size : Nat
  deriving DecidableEq, Repr

/-- What a path leads to: a file and its bytes, or something else, such as a directory. -/
inductive File where
  | regular (bytes : List UInt8)
  | other
  deriving DecidableEq, Repr

/-- What `verify` finds wrong. -/
inductive Problem where
  | missing
  | size (actual : Nat)
  | digest (actual : String)
  deriving DecidableEq, Repr

/-- The entries builds ask for. A digest stands for one file, so for one size. -/
structure Manifest where
  published : Prebuilt → Prop
  size_eq : ∀ {e e' : Prebuilt}, published e → published e' → e.sha256 = e'.sha256 → e.size = e'.size

/-! ## `verify` -/

/-- The bytes at a path, if it leads to a file. -/
def contents : Option File → Option (List UInt8)
  | some (.regular bytes) => some bytes
  | _ => none

/-- The first half of `verify`, on what `fs::metadata` answered; `none` goes on to the hash. -/
def checkSize (entry : Prebuilt) : Option File → Option Problem
  | none => some .missing
  | some .other => some .missing
  | some (.regular bytes) => if bytes.length ≠ entry.size then some (.size bytes.length) else none

section

variable (sha256 : List UInt8 → String)

/-- The second half of `verify`, on what reading the file gave, `none` for an error. -/
def checkDigest (entry : Prebuilt) : Option (List UInt8) → Option Problem
  | none => some .missing
  | some bytes => if sha256 bytes = entry.sha256 then none else some (.digest (sha256 bytes))

/-- `verify`, of a path looked at first as `metadata` and then as `read`. -/
def verify (entry : Prebuilt) (metadata : Option File) (read : Option (List UInt8)) : Option Problem :=
  (checkSize entry metadata).or (checkDigest sha256 entry read)

/-- A path at which `verify` finds no problem when nobody else touches it. -/
def Verified (entry : Prebuilt) (slot : Option File) : Prop := verify sha256 entry slot (contents slot) = none

instance (entry : Prebuilt) (slot : Option File) : Decidable (Verified sha256 entry slot) :=
  inferInstanceAs (Decidable (_ = none))

end

variable {sha256 : List UInt8 → String} {m : Manifest} {e e' : Prebuilt} {slot slot' : Option File}

theorem checkSize_regular {bytes : List UInt8} :
    checkSize e (some (.regular bytes)) = none ↔ bytes.length = e.size := by
  simp [checkSize]

theorem checkDigest_some {bytes : List UInt8} :
    checkDigest sha256 e (some bytes) = none ↔ sha256 bytes = e.sha256 := by
  simp [checkDigest]

theorem verified_regular {bytes : List UInt8} :
    Verified sha256 e (some (.regular bytes)) ↔ bytes.length = e.size ∧ sha256 bytes = e.sha256 := by
  simp [Verified, verify, contents, checkSize_regular, checkDigest_some]

/-- An entry verifies when it is a regular file of its size and its digest. -/
theorem verified_iff :
    Verified sha256 e slot ↔ ∃ bytes, slot = some (.regular bytes) ∧ bytes.length = e.size ∧ sha256 bytes = e.sha256 := by
  constructor
  · intro h
    cases slot with
    | none => cases h
    | some f =>
      cases f with
      | other => cases h
      | regular bytes => exact ⟨bytes, rfl, verified_regular.1 h⟩
  · rintro ⟨bytes, rfl, hsize, hdigest⟩
    exact verified_regular.2 ⟨hsize, hdigest⟩

theorem Verified.checkSize (h : Verified sha256 e slot) : checkSize e slot = none := by
  obtain ⟨bytes, rfl, hsize, -⟩ := verified_iff.1 h
  exact checkSize_regular.2 hsize

theorem Verified.checkDigest (h : Verified sha256 e slot) : checkDigest sha256 e (contents slot) = none := by
  obtain ⟨bytes, rfl, -, hdigest⟩ := verified_iff.1 h
  exact checkDigest_some.2 hdigest

/-- Published entries of one digest are verified together. -/
theorem Verified.congr (he : m.published e) (he' : m.published e') (heq : e.sha256 = e'.sha256)
    (h : Verified sha256 e slot) : Verified sha256 e' slot := by
  obtain ⟨bytes, rfl, hsize, hdigest⟩ := verified_iff.1 h
  exact verified_regular.2 ⟨hsize.trans (m.size_eq he he' heq), hdigest.trans heq⟩

/-! ## System calls on the directory, each possibly at fault -/

/-- `fs::metadata`. -/
def look (fault : Bool) (slot : Option File) : Option File := if fault then none else slot

/-- `fs::File::open` and the reads of `sha256`. -/
def readAll (fault : Bool) (slot : Option File) : Option (List UInt8) := if fault then none else contents slot

/-- `fs::remove_file`, whose error is ignored everywhere. A directory is not removed by it. -/
def removeFile (fault : Bool) (slot : Option File) : Option File :=
  if fault then slot
  else match slot with
    | some .other => some .other
    | _ => none

/-! ## A build -/

/-- The `panic!`s of `fetch_prebuilt`. -/
inductive Panic where
  | offline
  | createDir
  | download
  | vanished
  | truncated (actual : Nat)
  | mismatch (actual : String)
  | notInstalled
  deriving DecidableEq, Repr

/-- Where a build is in `fetch_prebuilt`. -/
inductive Place where
  /-- `verify(&destination, entry)`, before each of its two looks. -/
  | looking
  | hashing
  /-- `fs::remove_file(&destination)`. -/
  | dropping
  /-- The destination is to be downloaded. -/
  | cold
  /-- `sweep_stale_temporaries`: before `read_dir`, over the entries still to come, and before removing one. -/
  | listing
  | sweeping (entries : List Nat)
  | removing (stale : Nat) (entries : List Nat)
  /-- `fetch(&url, &temporary)`. -/
  | fetching
  /-- `verify(&temporary, entry)`. -/
  | checking
  | checkingDigest
  /-- `fs::remove_file(&temporary)`, then the panic. -/
  | discarding (why : Panic)
  /-- `fs::rename(&temporary, &destination)`. -/
  | installing
  /-- The rename failed: `verify(&destination, entry)` again, then the temporary is removed. -/
  | relooking
  | rehashing
  | finishing (installed : Bool)
  | returned
  | panicked (why : Panic)
  | killed
  deriving DecidableEq, Repr

/-- The build is over. -/
def Place.over : Place → Bool
  | .returned | .panicked _ | .killed => true
  | _ => false

/-- A download under way or left behind. -/
structure Temporary where
  bytes : List UInt8
  modified : Nat
  deriving DecidableEq, Repr

/-- The temporary as a path in the directory. -/
def Temporary.file (t : Temporary) : File := .regular t.bytes

/-- One build script at work on the cache. -/
structure Build where
  entry : Prebuilt
  place : Place
  temporary : Option Temporary
  deriving DecidableEq, Repr

/-- What the path of the build's temporary leads to. -/
def Build.download (b : Build) : Option File := b.temporary.map Temporary.file

/-- The build is in `sweep_stale_temporaries`. -/
def Place.sweeps : Place → Bool
  | .listing | .sweeping _ | .removing _ _ => true
  | _ => false

/-- What `fetch_prebuilt` does on the first verdict. -/
def onCached : Option Problem → Place
  | none => .returned
  | some .missing => .cold
  | some _ => .dropping

/-- What it does on the verdict about its download. A temporary that vanished is not removed. -/
def onFetched : Option Problem → Place
  | none => .installing
  | some .missing => .panicked .vanished
  | some (.size actual) => .discarding (.truncated actual)
  | some (.digest actual) => .discarding (.mismatch actual)

/-- `Duration::from_secs(24 * 60 * 60)`. A clock set back makes no temporary stale. -/
def stale (now : Nat) (t : Temporary) : Bool := 24 * 60 * 60 < now - t.modified

/-- The steps of one build that touch nothing of the directory but its destination and its own
temporary: the destination's slot and the build, before and after. -/
inductive Move (sha256 : List UInt8 → String) (fault : Bool) (now : Nat) :
    Option File → Build → Option File → Build → Prop where
  | metadata {slot b} : b.place = .looking →
      Move sha256 fault now slot b slot
        { b with place := match checkSize b.entry (look fault slot) with
            | none => .hashing
            | some problem => onCached (some problem) }
  | hash {slot b} : b.place = .hashing →
      Move sha256 fault now slot b slot
        { b with place := onCached (checkDigest sha256 b.entry (readAll fault slot)) }
  | drop {slot b} : b.place = .dropping →
      Move sha256 fault now slot b (removeFile fault slot) { b with place := .cold }
  | offline {slot b} : b.place = .cold →
      Move sha256 fault now slot b slot { b with place := .panicked .offline }
  | createDirAll {slot b} : b.place = .cold →
      Move sha256 fault now slot b slot { b with place := if fault then .panicked .createDir else .listing }
  | fetch {slot b} : b.place = .sweeping [] →
      Move sha256 fault now slot b slot { b with place := .fetching }
  /-- The downloader has written this much, over whatever was there. -/
  | write {slot b} (bytes : List UInt8) : b.place = .fetching →
      Move sha256 fault now slot b slot { b with temporary := some ⟨bytes, now⟩ }
  | fetched {slot b} : b.place = .fetching →
      Move sha256 fault now slot b slot { b with place := .checking }
  | fetchFailed {slot b} : b.place = .fetching →
      Move sha256 fault now slot b slot { b with place := .discarding .download }
  | checkMetadata {slot b} : b.place = .checking →
      Move sha256 fault now slot b slot
        { b with place := match checkSize b.entry (look fault b.download) with
            | none => .checkingDigest
            | some problem => onFetched (some problem) }
  | checkHash {slot b} : b.place = .checkingDigest →
      Move sha256 fault now slot b slot
        { b with place := onFetched (checkDigest sha256 b.entry (readAll fault b.download)) }
  | discard {slot b why} : b.place = .discarding why →
      Move sha256 fault now slot b slot
        { b with place := .panicked why, temporary := if fault then b.temporary else none }
  | rename {slot b t} : b.place = .installing → b.temporary = some t → slot ≠ some .other →
      Move sha256 fault now slot b (some t.file) { b with place := .returned, temporary := none }
  | renameFailed {slot b} : b.place = .installing → fault = true ∨ b.temporary = none ∨ slot = some .other →
      Move sha256 fault now slot b slot { b with place := .relooking }
  | relook {slot b} : b.place = .relooking →
      Move sha256 fault now slot b slot
        { b with place := match checkSize b.entry (look fault slot) with
            | none => .rehashing
            | some _ => .finishing false }
  | rehash {slot b} : b.place = .rehashing →
      Move sha256 fault now slot b slot
        { b with place := .finishing (checkDigest sha256 b.entry (readAll fault slot)).isNone }
  | finish {slot b installed} : b.place = .finishing installed →
      Move sha256 fault now slot b slot
        { b with place := if installed then .returned else .panicked .notInstalled,
                 temporary := if fault then b.temporary else none }
  | kill {slot b} : b.place.over = false →
      Move sha256 fault now slot b slot { b with place := .killed }

/-! ## The builds together -/

/-- The cache directory and the builds. -/
structure State where
  /-- The destinations, by the digest they are named after. -/
  store : String → Option File
  builds : List Build
  now : Nat

/-- Who moved. The clock may be set to any time. -/
inductive Label where
  | build (i : Nat) (fault : Bool)
  | kill (i : Nat)
  | start
  | clock (now : Nat)
  deriving DecidableEq, Repr

/-- The build's step with the directory around it. -/
def State.move (s : State) (i : Nat) (b b' : Build) (slot' : Option File) : State :=
  { s with store := Function.update s.store b.entry.sha256 slot', builds := s.builds.set i b' }

/-- The temporary of build `j` is unlinked. -/
def unlink (fault : Bool) (j : Nat) (builds : List Build) : List Build :=
  if fault then builds else builds.modify j fun b => { b with temporary := none }

/-- Whether `sweep_stale_temporaries` goes on to remove entry `j`: it may be gone, or unreadable. -/
def onAge (fault : Bool) (s : State) (j : Nat) (entries : List Nat) : Place :=
  if fault = false ∧ (s.builds[j]?.bind Build.temporary).any (stale s.now) then .removing j entries
  else .sweeping entries

/-- The label of a step of build `i` that takes it to `place'`. -/
def Label.ofMove (i : Nat) (fault : Bool) (place' : Place) : Label :=
  if place' = .killed then .kill i else .build i fault

/-- The builds, each a system call at a time, and the clock. -/
inductive Step (sha256 : List UInt8 → String) (m : Manifest) : State → Label → State → Prop where
  | start {s : State} {entry : Prebuilt} : m.published entry →
      Step sha256 m s .start { s with builds := s.builds ++ [⟨entry, .looking, none⟩] }
  | move {s : State} {i : Nat} {b b' : Build} {slot' : Option File} {fault : Bool} : s.builds[i]? = some b →
      Move sha256 fault s.now (s.store b.entry.sha256) b slot' b' →
      Step sha256 m s (.ofMove i fault b'.place) (s.move i b b' slot')
  /-- `read_dir` gives the temporaries there are, or fails and the sweep is over. -/
  | list {s : State} {i : Nat} {b : Build} {fault : Bool} {entries : List Nat} : s.builds[i]? = some b →
      b.place = .listing →
      (∀ j b', s.builds[j]? = some b' → b'.temporary ≠ none → fault = false → j ∈ entries) →
      Step sha256 m s (.build i fault) { s with builds := s.builds.set i { b with place := .sweeping entries } }
  | age {s : State} {i j : Nat} {b : Build} {fault : Bool} {entries : List Nat} : s.builds[i]? = some b →
      b.place = .sweeping (j :: entries) →
      Step sha256 m s (.build i fault)
        { s with builds := s.builds.set i { b with place := onAge fault s j entries } }
  | sweep {s : State} {i j : Nat} {b : Build} {fault : Bool} {entries : List Nat} : s.builds[i]? = some b →
      b.place = .removing j entries →
      Step sha256 m s (.build i fault)
        { s with builds := unlink fault j (s.builds.set i { b with place := .sweeping entries }) }
  | clock {s : State} (now : Nat) : Step sha256 m s (.clock now) { s with now }

/-- Any number of builds, over a directory with these destinations. -/
def sys (sha256 : List UInt8 → String) (m : Manifest) (store : String → Option File) : System State Label where
  init s := s.store = store ∧ s.builds = []
  step := Step sha256 m

end EmbeddedMongo.Cache
