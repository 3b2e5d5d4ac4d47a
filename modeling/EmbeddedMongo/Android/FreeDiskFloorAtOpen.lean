import EmbeddedMongo.Android.StorageOptions
import EmbeddedMongo.Limits.Opens

/-!
# Two layers establish the floors

Every `EmbeddedMongo.open` goes through `Client::open`, which establishes the engine's own floors
since no slot names one, and then establishes its floor itself (`FreeDiskFloorAtOpen.kt`). Each
layer keeps its own record of the engine's defaults, taken at a moment of its own.
-/

namespace EmbeddedMongo.Android

open Conc Dialogue
open Limits (ReportedFloors Admin Answers Floors Knowable)

/-- What Kotlin's opens and moves do outside themselves. -/
inductive Request where
  /-- The checks before anything native: the thread, the directory, the room on the volume. -/
  | prepare
  /-- A request of the crate's `Client::open`. -/
  | crate (q : Limits.Request)
  /-- `registry().insert` of the client that was opened. -/
  | issue
  /-- `runCommandBlocking` on `admin`. -/
  | command (command : Document)
  /-- `runCommand` on `admin`, whose caller may be cancelled at any moment. -/
  | suspending (command : Document)
  /-- A look at `EngineFloorDefaults.recorded`. -/
  | consult
  | record (floors : ReportedFloors)
  | close

/-- What each request is answered with. -/
def Reply : Request → Type
  | .prepare => Except Throwable Unit
  | .crate q => Limits.Reply q
  | .issue => Except BridgeError Unit
  | .command _ => Except Throwable Document
  | .suspending _ => Except Throwable Document
  | .consult => Option ReportedFloors
  | .record _ => Unit
  | .close => Except Throwable Unit

/-- A program of the open or of its users. -/
abbrev Program (α : Type) := Dialogue Request Reply α

def blocking {α : Type} (d : Admin Throwable α) : Program α := d.via .command fun _ r => r

section

variable [ToLong]

/-- What an engine holding the knobs may answer a blocking command. -/
def blockingServe : Server ReportedFloors Document (fun _ => Except Throwable Document) := fun knobs command reply knobs' =>
  Answers (fun reply => (reportedFloors reply).toOption) (fun _ => True) knobs command reply knobs'

/-- Reading the knobs changes neither, and reports what they are. -/
theorem freeDiskFloors_spec (knobs : ReportedFloors) :
    freeDiskFloors.Always blockingServe (fun k => k = knobs)
      (fun a k => k = knobs ∧ ∀ floors, a = .ok floors → floors = knobs) knobs := by
  refine ⟨rfl, ?_⟩
  intro reply k hserve
  cases hserve with
  | refused => exact ⟨rfl, rfl, nofun⟩
  | @taken reported honest =>
    refine ⟨rfl, rfl, ?_⟩
    intro floors hread
    exact honest rfl floors (by simp [hread, Except.toOption])

/-- Both commands taken put the pair in force. -/
theorem sendEach_spec (pair knobs : ReportedFloors) :
    (sendEach [pair.commands.1, pair.commands.2]).Always blockingServe (fun _ => True)
      (fun a k => a = .ok () → k = pair) knobs := by
  refine ⟨trivial, ?_⟩
  intro reply k hfirst
  cases hfirst with
  | refused => exact ⟨trivial, nofun⟩
  | taken =>
    refine ⟨trivial, ?_⟩
    intro reply k hsecond
    cases hsecond with
    | refused => exact ⟨trivial, nofun⟩
    | taken => exact ⟨trivial, fun _ => by simp⟩

/-- A move that returns leaves its pair. -/
theorem setFreeDiskFloor_spec (floor : FreeDiskFloor) (knobs : ReportedFloors) :
    (setFreeDiskFloor floor).Always blockingServe (fun _ => True) (fun a k => a = .ok () → k = floor.pair) knobs := by
  apply Always.bind
  apply (freeDiskFloors_spec knobs).mono (fun _ _ => trivial)
  intro a k _
  cases a with
  | error e => exact ⟨trivial, nofun⟩
  | ok before =>
    apply Always.bind
    rw [freeDiskFloorCommands_eq]
    apply (sendEach_spec floor.pair k).mono (fun _ h => h)
    intro a k' hsent
    cases a with
    | ok => exact ⟨trivial, fun _ => hsent rfl⟩
    | error failure =>
      apply Always.map
      apply (Always.of_serve (I := fun _ => True) (fun _ _ _ _ _ _ => trivial) trivial).mono (fun _ h => h)
      intro _ _ _
      exact nofun

/-! ## The moves on an open database -/

/-- What the threads of an open database do with the floors. -/
inductive Use where
  | set (floor : FreeDiskFloor)
  | setBlocking (floor : FreeDiskFloor)

def Use.run : Use → Program (Except Throwable Unit)
  | .set floor => (setFreeDiskFloor floor).via .suspending fun _ r => r
  | .setBlocking floor => blocking (setFreeDiskFloor floor)

/-- Blocking and suspending commands are all the threads of an open database send. -/
def Request.isMove : Request → Prop
  | .command _ | .suspending _ => True
  | _ => False

/-- Users only ever move the floor. -/
theorem run_sends_moves (u : Use) : u.run.Sends Request.isMove := by
  cases u with
  | set floor => exact Sends.via (fun _ => trivial) _
  | setBlocking floor => exact Sends.via (fun _ => trivial) _

end

/-! ## The process -/

/-- The crate's side, and Kotlin's record. -/
structure Process where
  floors : Floors
  recorded : Option ReportedFloors

/-- The crate knows the pair the process started with, or could still find it out; and if Kotlin
has a record, both have that one. -/
def Agreeing (start : ReportedFloors) (s : Process) : Prop :=
  Knowable start s.floors ∧ ∀ pair, s.recorded = some pair → pair = start ∧ s.floors.recorded = some start

/-- Between the two establishments of an open. -/
structure Established (start : ReportedFloors) (s : Process) : Prop where
  agreeing : Agreeing start s
  recorded : s.floors.recorded = some start
  knobs : s.floors.knobs = start

/-- During Kotlin's own establishment the crate's record is set. -/
structure Establishing (start : ReportedFloors) (s : Process) : Prop where
  crate : s.floors.recorded = some start
  recorded : ∀ pair, s.recorded = some pair → pair = start

theorem Establishing.agreeing {start : ReportedFloors} {s : Process} (h : Establishing start s) : Agreeing start s :=
  ⟨.inr h.crate, fun pair hpair => ⟨h.recorded pair hpair, h.crate⟩⟩

/-- What was recorded is all that counts. -/
theorem Establishing.of_same {start : ReportedFloors} {s t : Process} (h : Establishing start s)
    (same : t.recorded = s.recorded ∧ t.floors.recorded = s.floors.recorded) : Establishing start t :=
  ⟨same.2.trans h.crate, fun pair hpair => h.recorded pair (same.1 ▸ hpair)⟩

/-! ## The opens -/

section

variable [BsonDebug] [ToLong]

/-- `NativeBridge.open`, and `openWithOptions` with the options its slots asked for. -/
def nativeOpen (options : Option OpenOptions) : Program (Except Throwable Unit) :=
  ((Limits.openClient (options.bind OpenOptions.freeDiskFloor)).via Request.crate fun _ r => r).bind fun
    | .error e => .ret (.error (BridgeError.ofError e).throwable)
    | .ok _ => .ask .issue fun
      | .error e => .ret (.error e.throwable)
      | .ok _ => .ret (.ok ())

/-- `NativeEngine.open`: the entry point that predates the options whenever none is named. -/
def engineOpen (options : StorageOptions) : Program (Except Throwable Unit) :=
  if options.engineSlots.isEmpty then nativeOpen none
  else
    match openOptions (readSlots options.engineSlots) with
    | .error e => .ret (.error e.throwable)
    | .ok named => nativeOpen (some named)

/-- `EngineFloorDefaults.of`: looks again once it is `synchronized`. -/
def engineFloorDefaults : Program (Except Throwable ReportedFloors) :=
  .ask .consult fun
    | some floors => .ret (.ok floors)
    | none => .ask .consult fun
      | some floors => .ret (.ok floors)
      | none => (blocking freeDiskFloors).bind fun
        | .error e => .ret (.error e)
        | .ok floors => .ask (.record floors) fun _ => .ret (.ok floors)

/-- The `try` of `establishFreeDiskFloor`. -/
def establish (requested : Option FreeDiskFloor) : Program (Except Throwable Unit) :=
  engineFloorDefaults.bind fun
    | .error e => .ret (.error e)
    | .ok engineOwn =>
      match requested with
      | none => blocking (restoreFreeDiskFloors engineOwn)
      | some floor => blocking (setFreeDiskFloor floor)

/-- A failure takes the engine with it. -/
def establishFreeDiskFloor (requested : Option FreeDiskFloor) : Program (Except Throwable Unit) :=
  (establish requested).bind fun
    | .ok _ => .ret (.ok ())
    | .error failure => .ask .close fun
      | .ok _ => .ret (.error failure)
      | .error closing => .ret (.error (failure.addSuppressed closing))

/-- `EmbeddedMongo.openBlocking` -/
def openBlocking (options : StorageOptions) : Program (Except Throwable Unit) :=
  .ask .prepare fun
    | .error e => .ret (.error e)
    | .ok _ => (engineOpen options).bind fun
      | .error e => .ret (.error e)
      | .ok _ => establishFreeDiskFloor options.freeDiskFloor

/-- A suspending command may have been taken whatever its caller is told. -/
def Process.serve : Server Process Request Reply := fun s q r s' =>
  match q, r with
  | .prepare, _ => s' = s
  | .crate q, reply => ∃ floors, s.floors.serve q reply floors ∧ s' = { s with floors := floors }
  | .issue, _ => s' = s
  | .command command, reply => ∃ knobs, blockingServe s.floors.knobs command reply knobs ∧
      s' = { s with floors := { s.floors with knobs := knobs } }
  | .suspending command, _ => s' = s ∨
      s' = { s with floors := { s.floors with knobs := s.floors.knobs.take command } }
  | .consult, found => found = s.recorded ∧ s' = s
  | .record floors, _ => s' = { s with recorded := some floors }
  | .close, _ => s' = s

/-- A database is open once `openBlocking` has answered it. -/
def databaseLease : Lease Process StorageOptions Use Request Reply (Except Throwable Unit) (Except Throwable Unit) where
  serve := Process.serve
  opening := openBlocking
  succeeded r := r.isOk
  use u := u.run

/-- The databases of a process whose engine starts with the pair `start`. -/
def databases (start : ReportedFloors) :
    System (Tenancy Process StorageOptions Request Reply (Except Throwable Unit) (Except Throwable Unit))
      (Tenancy.Act StorageOptions Use) :=
  tenancy databaseLease fun s => s.floors.knobs = start ∧ s.floors.recorded = none ∧ s.recorded = none

/-- A program of blocking commands leaves both records alone. -/
theorem Always.blocking {α : Type} {I : ReportedFloors → Prop} {Post : α → ReportedFloors → Prop} {d : Admin Throwable α}
    {s : Process} (h : d.Always blockingServe I Post s.floors.knobs) :
    (blocking d).Always Process.serve
      (fun t => (t.recorded = s.recorded ∧ t.floors.recorded = s.floors.recorded) ∧ I t.floors.knobs)
      (fun a t => (t.recorded = s.recorded ∧ t.floors.recorded = s.floors.recorded) ∧ Post a t.floors.knobs) s := by
  apply Always.via (fun t : Process => t.floors.knobs) _ ?_ ⟨rfl, rfl⟩ h
  rintro t command reply t' frame ⟨knobs, hserve, rfl⟩
  exact ⟨frame, hserve⟩

/-- The crate's open leaves Kotlin's record alone. -/
theorem Always.crate {α : Type} {I : Floors → Prop} {Post : α → Floors → Prop} {d : Limits.Program α} {s : Process}
    (h : d.Always Floors.serve I Post s.floors) :
    (d.via Request.crate fun _ r => r).Always Process.serve (fun t => t.recorded = s.recorded ∧ I t.floors)
      (fun a t => t.recorded = s.recorded ∧ Post a t.floors) s := by
  apply Always.via (fun t : Process => t.floors) (fun t => t.recorded = s.recorded) ?_ rfl h
  rintro t q reply t' frame ⟨floors, hserve, rfl⟩
  exact ⟨frame, hserve⟩

/-! ## The records agree -/

/-- The crate's open leaves the two records in agreement. -/
theorem nativeOpen_spec {start : ReportedFloors} {s : Process} (h : Agreeing start s) {options : Option OpenOptions}
    (unnamed : options.bind OpenOptions.freeDiskFloor = none) :
    (nativeOpen options).Always Process.serve (Agreeing start) (fun a t => a = .ok () → Established start t) s := by
  -- the crate's record, once set, stays set
  have hkept : (Limits.openClient none).Always Floors.serve (fun f => s.floors.recorded.isSome → f.recorded.isSome)
      (fun _ f => s.floors.recorded.isSome → f.recorded.isSome) s.floors := by
    apply Always.of_serve _ id
    intro f q r f' hf hs hsome
    exact Limits.serve_keeps_record f q r f' (hf hsome) hs
  have hopen := Always.crate ((Limits.openClient_spec none h.1).and hkept)
  have agreeing : ∀ t : Process, t.recorded = s.recorded → Knowable start t.floors →
      (s.floors.recorded.isSome → t.floors.recorded.isSome) → Agreeing start t := by
    intro t hrecorded hknow hsome
    refine ⟨hknow, ?_⟩
    intro pair hpair
    obtain ⟨rfl, hfloors⟩ := h.2 pair (hrecorded ▸ hpair)
    refine ⟨rfl, ?_⟩
    have := hsome (by rw [hfloors]; rfl)
    rcases hknow with ⟨hnone, -⟩ | hknown
    · rw [hnone] at this
      cases this
    · exact hknown
  unfold nativeOpen
  rw [unnamed]
  apply Always.bind
  apply hopen.ends.mono
  · rintro t ⟨hrecorded, hknow, hsome⟩
    exact agreeing t hrecorded hknow hsome
  · rintro a t ⟨⟨hrecorded, hknow, hsome⟩, -, hpost, -⟩
    have hagree := agreeing t hrecorded hknow hsome
    cases a with
    | error e => exact ⟨hagree, nofun⟩
    | ok =>
      refine ⟨hagree, ?_⟩
      rintro reply t' ht'
      obtain rfl : t' = t := ht'
      cases reply with
      | error e => exact ⟨hagree, nofun⟩
      | ok => exact ⟨hagree, fun _ => ⟨hagree, (hpost rfl).1, (hpost rfl).2⟩⟩

/-- After the crate's open the engine stands on its own floors, and the crate has them on record. -/
theorem engineOpen_spec {start : ReportedFloors} {s : Process} (h : Agreeing start s) (options : StorageOptions) :
    (engineOpen options).Always Process.serve (Agreeing start) (fun a t => a = .ok () → Established start t) s := by
  unfold engineOpen
  split
  · exact nativeOpen_spec h rfl
  · split
    · exact ⟨h, nofun⟩
    · rename_i named hnamed
      exact nativeOpen_spec h (openOptions_freeDiskFloor hnamed)

/-- What is recorded as the engine's own floors is just that. -/
theorem engineFloorDefaults_spec {start : ReportedFloors} {s : Process} (h : Establishing start s)
    (knobs : s.floors.knobs = start) :
    engineFloorDefaults.Always Process.serve (Establishing start)
      (fun a t => ∀ own, a = .ok own → own = start ∧ t.recorded = some start) s := by
  refine ⟨h, ?_⟩
  rintro found t ⟨hfound, ht⟩
  rw [hfound, ht]
  cases hrecorded : s.recorded with
  | some floors =>
    obtain rfl := h.recorded floors hrecorded
    refine ⟨h, ?_⟩
    rintro own ⟨⟩
    exact ⟨rfl, hrecorded⟩
  | none =>
    refine ⟨h, ?_⟩
    rintro found t ⟨hfound, ht⟩
    rw [hfound, ht, hrecorded]
    apply Always.bind
    apply (Always.blocking (freeDiskFloors_spec s.floors.knobs)).mono
    · rintro t ⟨same, -⟩
      exact h.of_same same
    · rintro a t ⟨same, -, hread⟩
      have ht := h.of_same same
      cases a with
      | error e => exact ⟨ht, nofun⟩
      | ok floors =>
        obtain rfl : floors = start := (hread floors rfl).trans knobs
        refine ⟨ht, ?_⟩
        rintro - t' rfl
        refine ⟨⟨ht.crate, ?_⟩, ?_⟩
        · rintro pair ⟨⟩
          rfl
        · rintro own ⟨⟩
          exact ⟨rfl, rfl⟩

/-- The engine's own floors are recorded before any is moved. -/
theorem establish_spec {start : ReportedFloors} {s : Process} (h : Established start s)
    (requested : Option FreeDiskFloor) :
    (establish requested).Always Process.serve (Establishing start)
      (fun a t => a = .ok () →
        t.recorded = some start ∧ t.floors.knobs = (requested.map FreeDiskFloor.pair).getD start) s := by
  have hs : Establishing start s := ⟨h.recorded, fun pair hpair => (h.agreeing.2 pair hpair).1⟩
  have putting : ∀ {pair : ReportedFloors} {d : Admin Throwable (Except Throwable Unit)} {t : Process},
      Establishing start t → t.recorded = some start →
      d.Always blockingServe (fun _ => True) (fun a k => a = .ok () → k = pair) t.floors.knobs →
      (blocking d).Always Process.serve (Establishing start)
        (fun a t => a = .ok () → t.recorded = some start ∧ t.floors.knobs = pair) t := by
    intro pair d t ht hrecorded hd
    apply (Always.blocking hd).mono
    · rintro t' ⟨same, -⟩
      exact ht.of_same same
    · rintro a t' ⟨same, hput⟩ hok
      exact ⟨same.1.trans hrecorded, hput hok⟩
  apply Always.bind
  apply (engineFloorDefaults_spec hs h.knobs).ends.mono (fun _ h => h)
  rintro a t ⟨ht, ha⟩
  cases a with
  | error e => exact ⟨ht, nofun⟩
  | ok own =>
    obtain ⟨rfl, hrecorded⟩ := ha own rfl
    cases requested with
    | none => exact putting ht hrecorded (sendEach_spec own _)
    | some floor => exact putting ht hrecorded (setFreeDiskFloor_spec floor _)

/-- An open that succeeds has both records, and they agree. -/
theorem openBlocking_spec {start : ReportedFloors} {s : Process} (h : Agreeing start s) (options : StorageOptions) :
    (openBlocking options).Always Process.serve (Agreeing start)
      (fun a t => a = .ok () → t.floors.recorded = some start ∧ t.recorded = some start ∧
        t.floors.knobs = (options.freeDiskFloor.map FreeDiskFloor.pair).getD start) s := by
  refine ⟨h, ?_⟩
  rintro reply t ht
  obtain rfl : t = s := ht
  cases reply with
  | error e => exact ⟨h, nofun⟩
  | ok =>
    apply Always.bind
    apply (engineOpen_spec h options).ends.mono (fun _ h => h)
    rintro a t ⟨hagree, hestablished⟩
    cases a with
    | error e => exact ⟨hagree, nofun⟩
    | ok =>
      apply Always.bind
      apply (establish_spec (hestablished rfl) options.freeDiskFloor).ends.mono (fun _ h => h.agreeing)
      rintro a t ⟨ht, hpost⟩
      cases a with
      | ok => exact ⟨ht.agreeing, fun _ => ⟨ht.crate, hpost rfl⟩⟩
      | error failure =>
        refine ⟨ht.agreeing, ?_⟩
        rintro reply t' ht'
        obtain rfl : t' = t := ht'
        cases reply with
        | ok => exact ⟨ht.agreeing, nofun⟩
        | error closing => exact ⟨ht.agreeing, nofun⟩

/-- Over any number of opens and closes, with users in between. -/
theorem databaseLease_keeps (start : ReportedFloors) :
    Tenancy.Keeps databaseLease (fun s => s.floors.knobs = start ∧ s.floors.recorded = none ∧ s.recorded = none)
      (Agreeing start) (Establishing start) Request.isMove
      (fun options a s => a = .ok () → s.floors.knobs = (options.freeDiskFloor.map FreeDiskFloor.pair).getD start) where
  start s h := ⟨.inl ⟨h.2.1, h.1⟩, by simp [h.2.2]⟩
  opening options s h := by
    apply (openBlocking_spec h options).mono (fun _ h => h)
    intro a t hpost
    refine ⟨fun hok => (hpost hok).2.2, ?_⟩
    intro hok
    cases a with
    | ok =>
      obtain ⟨hcrate, hrecorded, -⟩ := hpost rfl
      exact ⟨hcrate, fun pair hpair => Option.some.inj (hpair.symm.trans hrecorded)⟩
    | error => cases hok
  sends := run_sends_moves
  use := by
    intro s q r s' h hq hs
    cases q with
    | command command =>
      obtain ⟨knobs, -, rfl⟩ := hs
      exact h.of_same ⟨rfl, rfl⟩
    | suspending command =>
      rcases hs with rfl | rfl
      · exact h
      · exact h.of_same ⟨rfl, rfl⟩
    | _ => cases hq
  vacant s h := h.agreeing

/-- **The two layers agree on the engine's floors.** In every run of a process, whatever fails in
either layer's open and however the floors are moved in between, Kotlin's record is empty or is
the crate's, which is the pair the process started with; and an open that succeeds leaves that
pair if it named no floor and the pair of the floor it named otherwise. -/
theorem both_layers_record_the_engines_own {start : ReportedFloors}
    {s : Tenancy Process StorageOptions Request Reply (Except Throwable Unit) (Except Throwable Unit)}
    (h : (databases start).Reach s) :
    (∀ pair, s.shared.recorded = some pair → s.shared.floors.recorded = some pair ∧ pair = start) ∧
    (∀ o ∈ s.openings, o.answer = .ok () → o.options.freeDiskFloor = none → o.after.floors.knobs = start) ∧
    (∀ o ∈ s.openings, o.answer = .ok () → ∀ floor, o.options.freeDiskFloor = some floor →
      floor.StandsIn o.after.floors.knobs) := by
  have kept := Tenancy.kept_of_reach (databaseLease_keeps start) h
  refine ⟨?_, ?_, ?_⟩
  · intro pair hpair
    obtain ⟨rfl, hcrate⟩ := kept.vacant.2 pair hpair
    exact ⟨hcrate, rfl⟩
  · intro o ho hok hnone
    have hknobs := kept.openings o ho hok
    rwa [hnone] at hknobs
  · intro o ho hok floor hfloor
    have hknobs := kept.openings o ho hok
    rw [hfloor] at hknobs
    rw [hknobs]
    exact floor.pair_standsIn

/-! Answers of an engine that takes every command. -/

theorem Process.serve_reading (s : Process) :
    s.serve (.command reportedFloorsCommand) (Except.ok s.floors.knobs.reply) s := by
  refine ⟨s.floors.knobs, .taken ?_, rfl⟩
  intro _ r hr
  simpa [Except.toOption, eq_comm] using hr

theorem Process.serve_indexBuild (s : Process) (pair : ReportedFloors) :
    s.serve (.command pair.commands.1) (Except.ok [])
      { s with floors := { s.floors with knobs := { s.floors.knobs with indexBuild := pair.indexBuild } } } := by
  refine ⟨_, .taken ?_, by rw [Limits.take_indexBuild]⟩
  simp [ReportedFloors.commands, Limits.floorCommands, Limits.reportedFloorsCommand]

theorem Process.serve_querySpilling (s : Process) (pair : ReportedFloors) :
    s.serve (.command pair.commands.2) (Except.ok [])
      { s with floors := { s.floors with knobs := { s.floors.knobs with querySpilling := pair.querySpilling } } } := by
  refine ⟨_, .taken ?_, by rw [Limits.take_querySpilling]⟩
  simp [ReportedFloors.commands, Limits.floorCommands, Limits.reportedFloorsCommand]

end

/-- A database opened on a floor of 32 MiB and a cache of 64, and one opened after it that names
nothing. -/
theorem both_layers_record_the_engines_own_after_a_lowered_floor :
    ∃ (_ : BsonDebug) (_ : ToLong)
      (s : Tenancy Process StorageOptions Request Reply (Except Throwable Unit) (Except Throwable Unit)),
      (databases Floors.odd.knobs).Reach s ∧ s.openings.map Opening.answer = [.ok (), .ok ()] ∧
      s.shared.recorded = some Floors.odd.knobs ∧ s.shared.floors.recorded = some Floors.odd.knobs ∧
      ∀ o ∈ s.openings, o.options.freeDiskFloor = none → o.after.floors.knobs = Floors.odd.knobs := by
  let floor : FreeDiskFloor := ⟨32, by decide⟩
  let lowered : StorageOptions := ⟨some ⟨64, by decide, by decide⟩, none, none, some floor⟩
  let plain : StorageOptions := ⟨none, none, none, none⟩
  refine ⟨⟨fun _ => ""⟩, ⟨fun _ _ => none⟩, ?_⟩
  let _ : BsonDebug := ⟨fun _ => ""⟩
  let _ : ToLong := ⟨fun _ _ => none⟩
  have h : (databases Floors.odd.knobs).Reach ⟨⟨.odd, none⟩, .closed, [], []⟩ := .init ⟨⟨rfl, rfl, rfl⟩, rfl, rfl, rfl⟩
  have h := h.next (.beginOpen lowered rfl)
  have h := h.next (.talkOpen (r := .ok ()) rfl rfl)
  have h := h.next (.talkOpen (r := .ok ()) rfl ⟨_, rfl, rfl⟩)
  have h := h.next (.talkOpen (r := none) rfl ⟨_, ⟨rfl, rfl⟩, rfl⟩)
  have h := h.next (.talkOpen rfl ⟨_, Floors.serve_reported _, rfl⟩)
  have h := h.next (.talkOpen (r := ()) rfl ⟨_, rfl, rfl⟩)
  have h := h.next (.talkOpen rfl ⟨_, Floors.serve_indexBuild _ Floors.odd.knobs [], rfl⟩)
  have h := h.next (.talkOpen rfl ⟨_, Floors.serve_querySpilling _ Floors.odd.knobs [], rfl⟩)
  have h := h.next (.talkOpen (r := .ok ()) rfl rfl)
  have h := h.next (.talkOpen (r := none) rfl ⟨rfl, rfl⟩)
  have h := h.next (.talkOpen (r := none) rfl ⟨rfl, rfl⟩)
  have h := h.next (.talkOpen rfl (Process.serve_reading _))
  have h := h.next (.talkOpen (r := ()) rfl rfl)
  have h := h.next (.talkOpen rfl (Process.serve_reading _))
  have h := h.next (.talkOpen rfl (Process.serve_indexBuild _ floor.pair))
  have h := h.next (.talkOpen rfl (Process.serve_querySpilling _ floor.pair))
  have h := h.next (.endOpen rfl)
  have h := h.next (.close rfl)
  have h := h.next (.beginOpen plain rfl)
  have h := h.next (.talkOpen (r := .ok ()) rfl rfl)
  have h := h.next (.talkOpen (r := .ok ()) rfl ⟨_, rfl, rfl⟩)
  have h := h.next (.talkOpen (r := some Floors.odd.knobs) rfl ⟨_, ⟨rfl, rfl⟩, rfl⟩)
  have h := h.next (.talkOpen rfl ⟨_, Floors.serve_indexBuild _ Floors.odd.knobs [], rfl⟩)
  have h := h.next (.talkOpen rfl ⟨_, Floors.serve_querySpilling _ Floors.odd.knobs [], rfl⟩)
  have h := h.next (.talkOpen (r := .ok ()) rfl rfl)
  have h := h.next (.talkOpen (r := some Floors.odd.knobs) rfl ⟨rfl, rfl⟩)
  have h := h.next (.talkOpen rfl (Process.serve_indexBuild _ Floors.odd.knobs))
  have h := h.next (.talkOpen rfl (Process.serve_querySpilling _ Floors.odd.knobs))
  have h := h.next (.endOpen rfl)
  obtain ⟨s, after, after', h, hrecorded, hopenings⟩ :
      ∃ s after after', (databases Floors.odd.knobs).Reach s ∧ s.shared.recorded = some Floors.odd.knobs ∧
        s.openings = [⟨lowered, .ok (), after⟩, ⟨plain, .ok (), after'⟩] :=
    ⟨_, _, _, h, rfl, rfl⟩
  obtain ⟨hsame, hnone, -⟩ := both_layers_record_the_engines_own h
  refine ⟨s, h, by simp [hopenings], hrecorded, (hsame _ hrecorded).1, ?_⟩
  intro o ho
  apply hnone o ho
  simp only [hopenings, List.mem_cons, List.not_mem_nil, or_false] at ho
  rcases ho with rfl | rfl <;> rfl

end EmbeddedMongo.Android
