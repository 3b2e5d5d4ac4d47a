import EmbeddedMongo.Android.StorageOptions
import EmbeddedMongo.Conc.Dialogue
import EmbeddedMongo.Native.Options

/-!
# An open with storage limits, end to end

`NativeEngine.open` of `Engine.kt`, the two entry points of `embedded-mongodb-android/src/bridge.rs`,
`Client::open` and `cpp/bridge.cc`, down to the engine that is opened. A limit is written four
times on the way: as a slot of a `long[]`, as a checked newtype, as a field of the struct, and as
what the engine resolves that to. What the JVM itself may fail with is left out.
-/

namespace EmbeddedMongo.Android.Storage

open Conc Dialogue
open Native (Abi ResolvedOptions)

/-- What an open does outside itself. -/
inductive Request where
  /-- `repair::origin` -/
  | origin (path : String)
  /-- What the static initializers of the native library failed with, empty if they did not. -/
  | initializerError
  /-- `new embedded_mongodb_handle`: the engine is opened with these limits. -/
  | engine (path : String) (options : ResolvedOptions)
  /-- The rest of `Client::open`: the sessions, the floor, the repair pass. -/
  | settle (path : String) (concurrency : Concurrency) (floor : Option EmbeddedMongo.FreeDiskFloor) (isFile : Bool)
  /-- `registry().insert` -/
  | issue

/-- What each request is answered with. -/
def Reply : Request → Type
  | .origin _ => Bool
  | .initializerError => String
  | .engine _ _ => Except String Unit
  | .settle _ _ _ _ => Except Error Unit
  | .issue => Except BridgeError Int64

abbrev Program := Dialogue Request Reply

variable (abi : Abi)

/-- `open_with_options` of `bridge.cc`. -/
def bridgeOpenWithOptions (path : String) (options : NativeOpenOptions) : Program (Except Error Unit) :=
  .ask .initializerError fun (error : String) =>
    if error ≠ "" then .ret (.error (.native error))
    else match Native.resolveOptions abi (some (Native.filledIn abi options)) with
      | .error e => .ret (.error (.native e))
      | .ok resolved => .ask (.engine path resolved) fun
        | .error e => .ret (.error (.native e))
        | .ok _ => .ret (.ok ())

/-- `open` of `bridge.cc`. -/
def bridgeOpen (path : String) : Program (Except Error Unit) := bridgeOpenWithOptions abi path .zero

/-- `OpenOptions::resolve_concurrency` -/
def resolveConcurrency (options : Option OpenOptions) : Concurrency := (options.bind OpenOptions.concurrency).getD .default

/-- `NativeClient::open_with_options`, and `NativeClient::open` without options. -/
def nativeClient (path : String) : Option OpenOptions → Program (Except Error Unit)
  | some options => bridgeOpenWithOptions abi path options.engine.toFfi
  | none => bridgeOpen abi path

/-- `Client::open`, which `new` and `with_options` call. -/
def openClient (path : String) (options : Option OpenOptions) : Program (Except Error Unit) :=
  .ask (.origin path) fun isFile => (nativeClient abi path options).bind fun
    | .error e => .ret (.error e)
    | .ok _ => .ask (.settle path (resolveConcurrency options) (options.bind OpenOptions.freeDiskFloor) isFile) .ret

/-- The rest of an entry point: the handle of the client, or what is thrown. -/
def issue : Except Error Unit → Program (Except BridgeError Int64)
  | .error e => .ret (.error (.ofError e))
  | .ok _ => .ask .issue .ret

/-- `NativeBridge.open` -/
def nativeOpen (path : Option String) : Program (Except BridgeError Int64) :=
  match path with
  | none => .ret (.error (.invalidArgument "path must not be null"))
  | some path => (openClient abi path none).bind issue

/-- `NativeBridge.openWithOptions` -/
def nativeOpenWithOptions (path : Option String) (options : Option (List Int64)) : Program (Except BridgeError Int64) :=
  match path with
  | none => .ret (.error (.invalidArgument "path must not be null"))
  | some path =>
    match options with
    | none =>
      .ret (.error (.invalidArgument "options must not be null; an empty array asks for the engine's defaults"))
    | some options =>
      match openOptions (readSlots options) with
      | .error e => .ret (.error e)
      | .ok named => (openClient abi path (some named)).bind issue

/-- `NativeEngine.open` -/
def engineOpen (path : String) (options : StorageOptions) : Program (Except BridgeError Int64) :=
  if options.engineSlots.isEmpty = true then nativeOpen abi (some path)
  else nativeOpenWithOptions abi (some path) (some options.engineSlots)

/-- The open whose engine has these limits: no floor is named, and no number of sessions. -/
def opening (path : String) (resolved : ResolvedOptions) : Program (Except BridgeError Int64) :=
  .ask (.origin path) fun isFile => .ask .initializerError fun (error : String) =>
    if error ≠ "" then .ret (.error (.ofError (.native error)))
    else .ask (.engine path resolved) fun
      | .error e => .ret (.error (.ofError (.native e)))
      | .ok _ => .ask (.settle path .default none isFile) fun
        | .error e => .ret (.error (.ofError e))
        | .ok _ => .ask .issue .ret

theorem bridgeOpenWithOptions_bind {α : Type} (path : String) (options : NativeOpenOptions)
    (next : Except Error Unit → Program α) :
    (bridgeOpenWithOptions abi path options).bind next =
      .ask .initializerError fun (error : String) =>
        if error ≠ "" then next (.error (.native error))
        else .ask (.engine path (Native.resolved options)) fun
          | .error e => next (.error (.native e))
          | .ok _ => next (.ok ()) := by
  unfold bridgeOpenWithOptions
  rw [Native.resolveOptions_filledIn]
  apply ask_congr
  intro error
  dsimp only
  split
  · rfl
  · apply ask_congr
    intro started
    cases started <;> rfl

/-- Options that name neither a floor nor a number of sessions, and no options at all. -/
theorem openClient_issue (path : String) (options : Option OpenOptions)
    (floor : options.bind OpenOptions.freeDiskFloor = none) (concurrency : options.bind OpenOptions.concurrency = none) :
    (openClient abi path options).bind issue =
      opening path (Native.resolved (options.elim .zero fun named => named.engine.toFfi)) := by
  apply ask_congr
  intro isFile
  have native : nativeClient abi path options =
      bridgeOpenWithOptions abi path (options.elim .zero fun named => named.engine.toFfi) := by
    cases options <;> rfl
  dsimp only
  rw [native, resolveConcurrency, floor, concurrency, bridgeOpenWithOptions_bind]
  apply ask_congr
  intro error
  dsimp only
  split
  · rfl
  · apply ask_congr
    intro started
    cases started with
    | error e => rfl
    | ok _ =>
      apply ask_congr
      intro settled
      cases settled <;> rfl

/-! ## The slots -/

/-- A size slot and the limit it names. -/
def namedSize {α : Type} (name : String) (make : UInt32 → Except OutOfRange α) (value : Int64) :
    Except BridgeError (Option α) :=
  match sizeSlot value name with
  | .error e => .error e
  | .ok none => .ok none
  | .ok (some size) => (range (make size)).map some

/-- The slots are read one after another, and the first that is refused is reported. -/
theorem openOptions_eq (slots : Slots) :
    openOptions slots =
      match namedSize "cache_size_mebibytes" EmbeddedMongo.CacheSize.fromMebibytes slots.cache with
      | .error e => .error e
      | .ok cache =>
        match namedSize "journal_file_kibibytes" EmbeddedMongo.JournalFileSize.fromKibibytes slots.journal with
        | .error e => .error e
        | .ok journal =>
          match PreallocationSlot.read slots.preallocation with
          | .error e => .error e
          | .ok preallocation => .ok ⟨⟨cache, journal, preallocation.requested⟩, none, none⟩ := by
  unfold openOptions namedSize
  simp only [Bind.bind, Except.bind, Pure.pure, Except.pure]
  -- one slot after the other: refused, not named, named and out of range, named
  rcases sizeSlot slots.cache "cache_size_mebibytes" with e | _ | mebibytes
  case' ok.some =>
    dsimp only [Except.map]
    rcases range (EmbeddedMongo.CacheSize.fromMebibytes mebibytes) with e | cache
  all_goals dsimp only
  all_goals
    rcases sizeSlot slots.journal "journal_file_kibibytes" with e | _ | kibibytes
    case' ok.some =>
      dsimp only [Except.map]
      rcases range (EmbeddedMongo.JournalFileSize.fromKibibytes kibibytes) with e | journal
    all_goals dsimp only
    all_goals
      rcases PreallocationSlot.read slots.preallocation with e | _ | _ | _
      all_goals rfl

/-- A limit is made from exactly the numbers in its range. -/
structure Makes {α : Type} (make : UInt32 → Except OutOfRange α) (get : α → UInt32) (low high : Nat) : Prop where
  pos : 0 < low
  fits : high ≤ u32Max
  inside : ∀ m, low ≤ m.toNat → m.toNat ≤ high → ∃ a, make m = .ok a ∧ get a = m
  outside : ∀ m, ¬ (low ≤ m.toNat ∧ m.toNat ≤ high) → ∃ e, make m = .error e

/-- The bounds the crate checks a cache size against. -/
theorem makes_cacheSize : Makes EmbeddedMongo.CacheSize.fromMebibytes EmbeddedMongo.CacheSize.mebibytes 1 10000000 where
  pos := by decide
  fits := by decide
  inside m low high := by
    have hrange : checkRange "cache size" "MiB" m.toNat 1 10000000 = .ok m.toNat := if_pos ⟨low, high⟩
    unfold EmbeddedMongo.CacheSize.fromMebibytes
    split
    · exact ⟨_, rfl, rfl⟩
    · rename_i e herror
      cases hrange.symm.trans herror
  outside m h := by
    unfold EmbeddedMongo.CacheSize.fromMebibytes
    split
    · rename_i hok
      exact absurd (checkRange_ok hok).2 h
    · exact ⟨_, rfl⟩

/-- The bounds it checks a journal file's size against. -/
theorem makes_journalFileSize :
    Makes EmbeddedMongo.JournalFileSize.fromKibibytes EmbeddedMongo.JournalFileSize.kibibytes 100 (2 * 1024 * 1024) where
  pos := by decide
  fits := by decide
  inside m low high := by
    have hrange : checkRange "journal file size" "KiB" m.toNat 100 (2 * 1024 * 1024) = .ok m.toNat := if_pos ⟨low, high⟩
    unfold EmbeddedMongo.JournalFileSize.fromKibibytes
    split
    · exact ⟨_, rfl, rfl⟩
    · rename_i e herror
      cases hrange.symm.trans herror
  outside m h := by
    unfold EmbeddedMongo.JournalFileSize.fromKibibytes
    split
    · rename_i hok
      exact absurd (checkRange_ok hok).2 h
    · exact ⟨_, rfl⟩

theorem ne_zero_of_toInt_pos {value : Int64} (h : 1 ≤ value.toInt) : value ≠ 0 := by
  rintro rfl
  rw [Int64.toInt_zero] at h
  omega

theorem toNat_ofNat_toInt {value : Int64} (h : 0 ≤ value.toInt ∧ value.toInt ≤ u32Max) :
    (UInt32.ofNat value.toInt.toNat).toNat = value.toInt.toNat := by
  unfold u32Max at h
  rw [UInt32.toNat_ofNat']
  omega

/-- A size slot is unset, taken or refused by its bounds alone. -/
theorem namedSize_spec {α : Type} {make : UInt32 → Except OutOfRange α} {get : α → UInt32} {low high : Nat}
    (h : Makes make get low high) (name : String) (value : Int64) :
    (value = 0 → namedSize name make value = .ok none) ∧
    (low ≤ value.toInt → value.toInt ≤ high →
      ∃ a, namedSize name make value = .ok (some a) ∧ ((get a).toNat : Int) = value.toInt) ∧
    (value ≠ 0 → ¬ (low ≤ value.toInt ∧ value.toInt ≤ high) →
      ∃ e, namedSize name make value = .error e ∧ e.code = .invalidArgument) := by
  have hpos := h.pos
  have hfits := h.fits
  unfold namedSize sizeSlot
  refine ⟨?_, ?_, ?_⟩
  · intro hzero
    rw [if_pos hzero]
  · intro low high
    have hne : value ≠ 0 := ne_zero_of_toInt_pos (by omega)
    have hu32 : 0 ≤ value.toInt ∧ value.toInt ≤ u32Max := by omega
    have hnat := toNat_ofNat_toInt hu32
    obtain ⟨a, hmake, hget⟩ := h.inside (.ofNat value.toInt.toNat) (by omega) (by omega)
    rw [if_neg hne, if_pos hu32]
    refine ⟨a, ?_, ?_⟩
    · dsimp only
      rw [hmake]
      rfl
    · rw [hget, hnat]
      omega
  · intro hne outside
    rw [if_neg hne]
    split
    · rename_i herror
      split at herror
      · cases herror
      · cases herror
        exact ⟨_, rfl, rfl⟩
    · rename_i hok
      split at hok <;> cases hok
    · rename_i size hok
      split at hok
      · rename_i hu32
        cases hok
        have hnat := toNat_ofNat_toInt hu32
        obtain ⟨e, hmake⟩ := h.outside (.ofNat value.toInt.toNat) (by omega)
        rw [hmake]
        exact ⟨_, rfl, rfl⟩
      · cases hok

/-- Every slot is unset or holds a value of its limit. -/
structure InRange (slots : Slots) : Prop where
  cache : slots.cache = 0 ∨ (1 ≤ slots.cache.toInt ∧ slots.cache.toInt ≤ 10000000)
  journal : slots.journal = 0 ∨ (100 ≤ slots.journal.toInt ∧ slots.journal.toInt ≤ 2 * 1024 * 1024)
  preallocation : slots.preallocation = 0 ∨ slots.preallocation = 1 ∨ slots.preallocation = 2

/-- What is named reaches the engine verbatim, and what is not is the engine's default. -/
structure Resolves (slots : Slots) (resolved : ResolvedOptions) : Prop where
  cache : (resolved.cacheSizeMB.toNat : Int) = if slots.cache = 0 then 256 else slots.cache.toInt
  journal : (resolved.journalFileMaxKB.toNat : Int) = if slots.journal = 0 then 8192 else slots.journal.toInt
  preallocation :
    resolved.journalPrealloc = if slots.preallocation = 0 then Native.kDefaultJournalPrealloc else slots.preallocation == 1

/-- A size slot from the array to the engine. -/
theorem namedSize_resolves {α : Type} {make : UInt32 → Except OutOfRange α} {get : α → UInt32} {low high : Nat}
    (h : Makes make get low high) (name : String) {value : Int64}
    (inRange : value = 0 ∨ (low ≤ value.toInt ∧ value.toInt ≤ high)) (fallback : UInt32) :
    ∃ named, namedSize name make value = .ok named ∧
      ((Native.valueOrDefault (named.elim 0 get) fallback).toNat : Int) =
        if value = 0 then (fallback.toNat : Int) else value.toInt := by
  obtain ⟨unset, inside, -⟩ := namedSize_spec h name value
  by_cases hzero : value = 0
  · refine ⟨none, unset hzero, ?_⟩
    rw [if_pos hzero]
    rfl
  · obtain ⟨hlow, hhigh⟩ := inRange.resolve_left hzero
    obtain ⟨a, ha, hget⟩ := inside hlow hhigh
    have hpos := h.pos
    have hne : get a ≠ 0 := by
      intro heq
      rw [heq] at hget
      have : (0 : UInt32).toNat = 0 := rfl
      omega
    refine ⟨some a, ha, ?_⟩
    rw [if_neg hzero, Option.elim_some, Native.valueOrDefault, if_neg hne, hget]

/-- The third slot resolves to what it asks for. -/
theorem preallocation_resolves {value : Int64} (inRange : value = 0 ∨ value = 1 ∨ value = 2) :
    ∃ slot, PreallocationSlot.read value = .ok slot ∧
      Native.resolvePrealloc (slot.requested.elim 0 Preallocation.native) =
        if value = 0 then Native.kDefaultJournalPrealloc else value == 1 := by
  rcases inRange with rfl | rfl | rfl
  · exact ⟨.unset, rfl, rfl⟩
  · exact ⟨.enabled, rfl, rfl⟩
  · exact ⟨.disabled, rfl, rfl⟩

/-- Slots within their ranges are taken as they are. -/
theorem openOptions_inRange {slots : Slots} (h : InRange slots) :
    ∃ named, openOptions slots = .ok named ∧ named.freeDiskFloor = none ∧ named.concurrency = none ∧
      Resolves slots (Native.resolved named.engine.toFfi) := by
  obtain ⟨cache, hcache, cacheResolves⟩ :=
    namedSize_resolves makes_cacheSize "cache_size_mebibytes" h.cache Native.kDefaultCacheSizeMB
  obtain ⟨journal, hjournal, journalResolves⟩ :=
    namedSize_resolves makes_journalFileSize "journal_file_kibibytes" h.journal Native.kDefaultJournalFileMaxKB
  obtain ⟨preallocation, hpreallocation, preallocationResolves⟩ := preallocation_resolves h.preallocation
  refine ⟨⟨⟨cache, journal, preallocation.requested⟩, none, none⟩, ?_, rfl, rfl, ?_⟩
  · rw [openOptions_eq, hcache, hjournal, hpreallocation]
  · exact ⟨cacheResolves, journalResolves, preallocationResolves⟩

/-- Slots out of range are refused as an invalid argument. -/
theorem openOptions_outOfRange {slots : Slots} (h : ¬ InRange slots) :
    ∃ e, openOptions slots = .error e ∧ e.code = .invalidArgument := by
  rw [openOptions_eq]
  by_cases hcache : slots.cache = 0 ∨ (1 ≤ slots.cache.toInt ∧ slots.cache.toInt ≤ 10000000)
  · obtain ⟨cache, hcache', -⟩ :=
      namedSize_resolves makes_cacheSize "cache_size_mebibytes" hcache Native.kDefaultCacheSizeMB
    rw [hcache']
    dsimp only
    by_cases hjournal : slots.journal = 0 ∨ (100 ≤ slots.journal.toInt ∧ slots.journal.toInt ≤ 2 * 1024 * 1024)
    · obtain ⟨journal, hjournal', -⟩ :=
        namedSize_resolves makes_journalFileSize "journal_file_kibibytes" hjournal Native.kDefaultJournalFileMaxKB
      rw [hjournal']
      dsimp only
      have hpreallocation : ¬ (_ ∨ _ ∨ _) := fun hpreallocation => h ⟨hcache, hjournal, hpreallocation⟩
      rw [not_or, not_or] at hpreallocation
      rw [PreallocationSlot.read, if_neg hpreallocation.1, if_neg hpreallocation.2.1, if_neg hpreallocation.2.2]
      exact ⟨_, rfl, rfl⟩
    · rw [not_or] at hjournal
      obtain ⟨e, he, hcode⟩ :=
        (namedSize_spec makes_journalFileSize "journal_file_kibibytes" slots.journal).2.2 hjournal.1 hjournal.2
      rw [he]
      exact ⟨e, rfl, hcode⟩
  · rw [not_or] at hcache
    obtain ⟨e, he, hcode⟩ := (namedSize_spec makes_cacheSize "cache_size_mebibytes" slots.cache).2.2 hcache.1 hcache.2
    rw [he]
    exact ⟨e, rfl, hcode⟩

/-! ## The arrays -/

/-- Trimming drops zeros only. -/
theorem readSlots_trimmed (a b c : Int64) :
    readSlots ([a, b, c].take (indexOfLast (fun slot => slot != unset) [a, b, c] + 1).toNat) = ⟨a, b, c⟩ := by
  by_cases hc : c = 0
  · by_cases hb : b = 0
    · by_cases ha : a = 0
      · simp [indexOfLast, unset, readSlots, List.findIdx?_cons, ha, hb, hc]
      · simp [indexOfLast, unset, readSlots, List.findIdx?_cons, ha, hb, hc]
    · simp [indexOfLast, unset, readSlots, List.findIdx?_cons, hb, hc]
  · simp [indexOfLast, unset, readSlots, List.findIdx?_cons, hc]

/-- Kotlin's options as the bridge reads them. -/
theorem readSlots_engineSlots (options : StorageOptions) :
    readSlots options.engineSlots =
      ⟨(options.cacheSize.map fun size => size.mebibytes.toInt64).getD unset,
        (options.journalFileSize.map fun size => size.kibibytes.toInt64).getD unset,
        (options.journalPreallocation.map JournalPreallocation.slot).getD unset⟩ :=
  readSlots_trimmed _ _ _

theorem cacheSize_slot (size : CacheSize) :
    size.mebibytes.toInt64.toInt = size.mebibytes.toInt ∧ 1 ≤ size.mebibytes.toInt ∧ size.mebibytes.toInt ≤ 10000000 :=
  ⟨Int32.toInt_toInt64 _, Int32.le_iff_toInt_le.1 size.low, Int32.le_iff_toInt_le.1 size.high⟩

theorem journalFileSize_slot (size : JournalFileSize) :
    size.kibibytes.toInt64.toInt = size.kibibytes.toInt ∧ 100 ≤ size.kibibytes.toInt ∧
      size.kibibytes.toInt ≤ 2 * 1024 * 1024 :=
  ⟨Int32.toInt_toInt64 _, Int32.le_iff_toInt_le.1 size.low, Int32.le_iff_toInt_le.1 size.high⟩

/-- The Kotlin types hold values of their limits only. -/
theorem inRange_engineSlots (options : StorageOptions) : InRange (readSlots options.engineSlots) := by
  rw [readSlots_engineSlots]
  constructor
  · cases options.cacheSize with
    | none => exact .inl rfl
    | some size =>
      obtain ⟨hslot, low, high⟩ := cacheSize_slot size
      right
      simp only [Option.map_some, Option.getD_some, hslot]
      exact ⟨low, high⟩
  · cases options.journalFileSize with
    | none => exact .inl rfl
    | some size =>
      obtain ⟨hslot, low, high⟩ := journalFileSize_slot size
      right
      simp only [Option.map_some, Option.getD_some, hslot]
      exact ⟨low, high⟩
  · rcases options.journalPreallocation with _ | _ | _
    · exact .inl rfl
    · exact .inr (.inl rfl)
    · exact .inr (.inr rfl)

/-- `Resolves`, for limits that are named in Kotlin. -/
structure Honours (options : StorageOptions) (resolved : ResolvedOptions) : Prop where
  cache : (resolved.cacheSizeMB.toNat : Int) = options.cacheSize.elim 256 fun size => size.mebibytes.toInt
  journal : (resolved.journalFileMaxKB.toNat : Int) = options.journalFileSize.elim 8192 fun size => size.kibibytes.toInt
  preallocation : resolved.journalPrealloc =
    options.journalPreallocation.elim Native.kDefaultJournalPrealloc fun preallocation => preallocation == .enabled

/-- What Kotlin asks for is what the engine gets. -/
theorem Resolves.honours {options : StorageOptions} {resolved : ResolvedOptions}
    (h : Resolves (readSlots options.engineSlots) resolved) : Honours options resolved := by
  rw [readSlots_engineSlots] at h
  constructor
  · rw [h.cache]
    cases options.cacheSize with
    | none => rfl
    | some size =>
      obtain ⟨hslot, low, -⟩ := cacheSize_slot size
      rw [← hslot] at low
      exact (if_neg (ne_zero_of_toInt_pos low)).trans hslot
  · rw [h.journal]
    cases options.journalFileSize with
    | none => rfl
    | some size =>
      obtain ⟨hslot, low, -⟩ := journalFileSize_slot size
      have hpos : 1 ≤ size.kibibytes.toInt64.toInt := by omega
      exact (if_neg (ne_zero_of_toInt_pos hpos)).trans hslot
  · rw [h.preallocation]
    rcases options.journalPreallocation with _ | _ | _ <;> rfl

/-! ## The entry points -/

theorem nativeOpen_eq (path : String) : nativeOpen abi (some path) = opening path (Native.resolved .zero) :=
  openClient_issue abi path none rfl rfl

theorem resolves_zero : Resolves ⟨0, 0, 0⟩ (Native.resolved .zero) := ⟨rfl, rfl, rfl⟩

/-- An open with slots in range opens with what they resolve to. -/
theorem nativeOpenWithOptions_inRange (path : String) {slots : List Int64} (h : InRange (readSlots slots)) :
    ∃ resolved, Resolves (readSlots slots) resolved ∧
      nativeOpenWithOptions abi (some path) (some slots) = opening path resolved := by
  obtain ⟨named, hnamed, floor, concurrency, hresolves⟩ := openOptions_inRange h
  refine ⟨_, hresolves, ?_⟩
  unfold nativeOpenWithOptions
  dsimp only
  rw [hnamed]
  exact openClient_issue abi path (some named) floor concurrency

/-- Any other opens nothing. -/
theorem nativeOpenWithOptions_outOfRange (path : String) {slots : List Int64} (h : ¬ InRange (readSlots slots)) :
    ∃ e, e.code = .invalidArgument ∧ nativeOpenWithOptions abi (some path) (some slots) = .ret (.error e) := by
  obtain ⟨e, he, hcode⟩ := openOptions_outOfRange h
  refine ⟨e, hcode, ?_⟩
  unfold nativeOpenWithOptions
  dsimp only
  rw [he]

/-- What is asked for is what the three slots say. -/
theorem nativeOpenWithOptions_congr (path : Option String) {slots slots' : List Int64}
    (same : readSlots slots = readSlots slots') :
    nativeOpenWithOptions abi path (some slots) = nativeOpenWithOptions abi path (some slots') := by
  unfold nativeOpenWithOptions
  dsimp only
  rw [same]

theorem getD_append_zeros (slots : List Int64) (n i : Nat) :
    (slots ++ List.replicate n 0).getD i 0 = slots.getD i 0 := by
  rw [List.getD_eq_getElem?_getD, List.getD_eq_getElem?_getD, List.getElem?_append]
  split
  · rfl
  · rename_i beyond
    rw [List.getElem?_eq_none (Nat.le_of_not_lt beyond), List.getElem?_replicate]
    split <;> rfl

/-- Slots that are not sent are unset. -/
theorem readSlots_append_zeros (slots : List Int64) (n : Nat) :
    readSlots (slots ++ List.replicate n 0) = readSlots slots := by
  simp only [readSlots, getD_append_zeros]

/-- Slots beyond the third are not looked at. -/
theorem readSlots_take (slots : List Int64) : readSlots (slots.take 3) = readSlots slots := by
  simp [readSlots, List.getD]

theorem nativeOpenWithOptions_nil (path : Option String) :
    nativeOpenWithOptions abi path (some []) = nativeOpen abi path := by
  cases path with
  | none => rfl
  | some path =>
    rw [nativeOpen_eq]
    exact openClient_issue abi path (some .new) rfl rfl

/-- **The storage limits cross unchanged.** Whatever Kotlin's options name, the open is the one whose
engine has what they name and the engine's defaults for the rest; an empty array is the plain open.
Of an array of any length and contents, missing slots count as unset and slots past the third for
nothing; values of the three limits reach the engine as they are, and any other is refused before
anything is asked of the outside. -/
theorem storage_limits_cross_unchanged :
    (∀ path (options : StorageOptions), ∃ resolved, Honours options resolved ∧
      engineOpen abi path options = opening path resolved) ∧
    (∀ path, nativeOpenWithOptions abi path (some []) = nativeOpen abi path) ∧
    (∀ path slots n, nativeOpenWithOptions abi path (some (slots ++ List.replicate n 0)) =
      nativeOpenWithOptions abi path (some slots)) ∧
    (∀ path slots, nativeOpenWithOptions abi path (some slots) = nativeOpenWithOptions abi path (some (slots.take 3))) ∧
    (∀ path slots, InRange (readSlots slots) → ∃ resolved, Resolves (readSlots slots) resolved ∧
      nativeOpenWithOptions abi (some path) (some slots) = opening path resolved) ∧
    (∀ path slots, ¬ InRange (readSlots slots) → ∃ e, e.code = .invalidArgument ∧
      nativeOpenWithOptions abi (some path) (some slots) = .ret (.error e)) := by
  refine ⟨?_, nativeOpenWithOptions_nil abi, ?_, ?_, ?_, ?_⟩
  · intro path options
    unfold engineOpen
    split
    · rename_i hempty
      refine ⟨_, ?_, nativeOpen_eq abi path⟩
      apply Resolves.honours
      rw [List.isEmpty_iff.1 hempty]
      exact resolves_zero
    · obtain ⟨resolved, hresolves, hopen⟩ := nativeOpenWithOptions_inRange abi path (inRange_engineSlots options)
      exact ⟨resolved, hresolves.honours, hopen⟩
  · intro path slots n
    exact nativeOpenWithOptions_congr abi path (readSlots_append_zeros slots n)
  · intro path slots
    exact nativeOpenWithOptions_congr abi path (readSlots_take slots).symm
  · intro path slots h
    exact nativeOpenWithOptions_inRange abi path h
  · intro path slots h
    exact nativeOpenWithOptions_outOfRange abi path h

end EmbeddedMongo.Android.Storage
