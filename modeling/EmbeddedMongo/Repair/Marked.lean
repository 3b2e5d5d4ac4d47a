import EmbeddedMongo.Repair.Checked

/-!
# The marker is never written over an unchecked collection

The opens of one directory, one after the other, each with whatever the engine, the file system
and the environment reply, and a crash at any time. The marker suppresses the pass for good, so
what matters is the one step that makes it a record, and what the open that takes it has seen.
-/

namespace EmbeddedMongo.Repair

open Conc Dialogue

/-- Repairs are attended to, and the partial file is renamed only after `W`. -/
def Guarded (W : Exchanges → Prop) (tr : Exchanges) : Prop :=
  Attended tr ∧ ∀ pre reply post, tr = pre ++ ⟨.renamePartial, reply⟩ :: post → W pre

/-- A part without a rename, in front: what the later part may do it may do with that before it. -/
theorem Guarded.append {W W' : Exchanges → Prop} {tr tr' : Exchanges} (attended : Attended tr)
    (noRename : ∀ e ∈ tr, e.1 ≠ .renamePartial) (h' : Guarded W' tr') (hW : ∀ pre, W' pre → W (tr ++ pre)) :
    Guarded W (tr ++ tr') := by
  refine ⟨attended.append h'.1, ?_⟩
  intro pre reply post heq
  rcases List.append_eq_append_iff.1 heq with ⟨mid, rfl, htr'⟩ | ⟨mid, rfl, hmid⟩
  · exact hW mid (h'.2 mid reply post htr')
  · cases mid with
    | nil => simpa using hW [] (h'.2 [] reply post hmid.symm)
    | cons e mid =>
      obtain ⟨rfl, -⟩ := List.cons_eq_cons.1 hmid
      exact absurd rfl (noRename ⟨.renamePartial, reply⟩ (by simp))

/-- No command, no repair. -/
theorem attended_of_silent {tr : Exchanges} (h : ∀ e ∈ tr, e.1.isCommand = false) : Attended tr := by
  apply Attended.of_forall
  rintro e he ns reply rfl
  cases h _ he

/-- A request that is neither a command nor the rename. -/
theorem Guarded.cons {W W' : Exchanges → Prop} {q : Request} {r : Reply q} {tr : Exchanges}
    (silent : q.isCommand = false) (other : q ≠ .renamePartial) (h : Guarded W' tr)
    (hW : ∀ pre, W' pre → W (⟨q, r⟩ :: pre)) : Guarded W (⟨q, r⟩ :: tr) := by
  have hattended : Attended [⟨q, r⟩] := attended_of_silent (by simpa using silent)
  have happend : Guarded W ([⟨q, r⟩] ++ tr) := .append hattended (by simpa using other) h hW
  exact happend

theorem Guarded.nil {W : Exchanges → Prop} : Guarded W [] :=
  ⟨.of_forall (by simp), by simp⟩

/-- Requests that are not commands ask for no leave. -/
theorem Guarded.silent {tr : Exchanges} (h : ∀ e ∈ tr, e.1.isCommand = false) : Guarded (fun _ => True) tr :=
  ⟨attended_of_silent h, fun _ _ _ _ => trivial⟩

/-- The marker is written by file operations alone. -/
theorem record_sends : record.Sends fun q => q.isCommand = false := by
  apply Sends.map
  apply Sends.bind
  · refine ⟨rfl, fun created => ?_⟩
    cases created with
    | error e => trivial
    | ok _ =>
      refine ⟨rfl, fun written => ?_⟩
      cases written with
      | error e => trivial
      | ok _ => exact ⟨rfl, fun _ => trivial⟩
  · intro written
    cases written with
    | error e => exact ⟨rfl, fun _ => trivial⟩
    | ok _ => exact ⟨rfl, fun _ => trivial⟩

section

variable {deserialize : Document → Except Error Document}

/-- What an open leaves undone: nothing, unless it is cut short. -/
structure Ran (deserialize : Document → Except Error Document) (patience : Nat) (answered : Bool) (tr : Exchanges) :
    Prop where
  swept : Swept deserialize tr
  cut : answered = false → patience ≤ getMores tr

namespace Ran

variable {patience : Nat} {answered : Bool} {tr tr' : Exchanges}

/-- A pass that did nothing has answered, and swept what there was. -/
theorem idle : Ran deserialize patience true [] := ⟨Enumerating.nil.swept, by simp⟩

/-- A request that is not a command changes nothing of what was run. -/
theorem cons {q : Request} {r : Reply q} (silent : q.isCommand = false) (h : Ran deserialize patience answered tr) :
    Ran deserialize patience answered (⟨q, r⟩ :: tr) := by
  constructor
  · apply h.swept.congr
    intro database command reply
    have hne : commanded database command reply ≠ ⟨q, r⟩ := by
      rintro ⟨⟩
      cases silent
    simp [hne]
  · intro hanswered
    exact Nat.le_trans (h.cut hanswered) (getMores_cons_le _ _)

/-- Nor do such requests after it. -/
theorem append (h : Ran deserialize patience answered tr) (silent : ∀ e ∈ tr', e.1.isCommand = false) :
    Ran deserialize patience answered (tr ++ tr') := by
  constructor
  · apply h.swept.congr
    intro database command reply
    have absent : commanded database command reply ∉ tr' := by
      intro hmem
      cases silent _ hmem
    simp [absent]
  · intro hanswered
    have := h.cut hanswered
    rw [getMores, List.countP_append]
    exact Nat.le_trans this (Nat.le_add_right _ _)

end Ran

theorem Passing.noRename {tr : Exchanges} (h : Passing tr) : ∀ e ∈ tr, e.1 ≠ .renamePartial := by
  intro e he hrename
  have := h.2 e he
  rw [hrename] at this
  cases this

theorem Passing.guarded {W : Exchanges → Prop} {tr : Exchanges} (h : Passing tr) : Guarded W tr := by
  have nothing : Guarded (fun _ => False) [] := .nil
  simpa using Guarded.append h.1 h.noRename nothing (by simp)

/-- An open may mark the directory: it is new, or all of it is checked. -/
def MayRecord (deserialize : Document → Except Error Document) (origin : Origin) (tr : Exchanges) : Prop :=
  origin = .fresh ∨ Checked deserialize tr

/-- Leave to record is not lost by what happens around the part that gave it. -/
theorem MayRecord.mono {origin : Origin} {tr tr' : Exchanges} (h : MayRecord deserialize origin tr)
    (hpart : tr <:+: tr') : MayRecord deserialize origin tr' :=
  h.imp id fun hchecked => hchecked.mono hpart

/-- A fresh directory is marked without a check. -/
theorem unrecorded_fresh_spec (patience : Nat) :
    (unrecorded deserialize patience .fresh).Traces (Guarded (MayRecord deserialize .fresh))
      fun answer tr => Ran deserialize patience answer.isSome tr := by
  apply Traces.map
  refine record_sends.traces.mono ?_ ?_
  · intro tr silent
    exact ⟨attended_of_silent silent, fun _ _ _ _ => .inl rfl⟩
  · intro _ tr silent _
    exact Ran.idle.append silent

/-- One that was there is marked after a check. -/
theorem unrecorded_preExisting_spec (patience : Nat) :
    (unrecorded deserialize patience .preExisting).Traces (Guarded (MayRecord deserialize .preExisting))
      fun answer tr => Ran deserialize patience answer.isSome tr := by
  apply Traces.bind
  refine (pass_spec patience).mono (fun tr h => h.guarded) ?_
  intro answer tr passing passed
  match answer with
  | none => exact .stop passing.guarded ⟨passed.swept, fun _ => passed.cut rfl⟩
  | some .incomplete => exact .stop passing.guarded ⟨passed.swept, by simp⟩
  | some .complete =>
    apply Traces.map
    refine record_sends.traces.mono ?_ ?_
    · intro tr' silent
      refine .append passing.1 passing.noRename (.silent silent) ?_
      intro pre _
      exact .inr ((passed.checked rfl).mono (List.prefix_append _ _).isInfix)
    · intro _ tr' silent _
      have ran : Ran deserialize patience true tr := ⟨passed.swept, by simp⟩
      exact ran.append silent

/-- Whatever the environment says, the pass marks only with leave, and what it ran is a whole sweep
if it answered. -/
theorem run_spec (patience : Nat) (origin : Origin) :
    (run deserialize patience origin).Traces (Guarded (MayRecord deserialize origin))
      fun answer tr => Ran deserialize patience answer.isSome tr := by
  have later {q : Request} (r : Reply q) (pre : Exchanges) (h : MayRecord deserialize origin pre) :
      MayRecord deserialize origin (⟨q, r⟩ :: pre) :=
    h.mono (List.suffix_cons _ _).isInfix
  have missing : (unrecorded deserialize patience origin).Traces (Guarded (MayRecord deserialize origin))
      fun answer tr => Ran deserialize patience answer.isSome tr := by
    cases origin with
    | fresh => exact unrecorded_fresh_spec patience
    | preExisting => exact unrecorded_preExisting_spec patience
  refine Traces.ask .nil (fun r _ h => h.cons rfl (by simp) (later r)) ?_
  intro value
  split
  · exact ⟨.nil, Ran.idle.cons rfl⟩
  · refine Traces.ask .nil (fun r _ h => h.cons rfl (by simp) (later r)) ?_
    intro reply
    have asked {answered : Bool} {tr : Exchanges} (ran : Ran deserialize patience answered tr) :
        Ran deserialize patience answered (⟨.skipVariable, value⟩ :: ⟨.readMarker, reply⟩ :: tr) :=
      (ran.cons rfl).cons rfl
    cases reply with
    | error e => exact missing.mono (fun _ h => h) fun _ _ _ ran => asked ran
    | ok contents =>
      simp only [Dialogue.bind]
      cases MarkerState.ofText contents with
      | recorded => exact ⟨.nil, asked .idle⟩
      | missing => exact missing.mono (fun _ h => h) fun _ _ _ ran => asked ran

/-- The open found no database in the directory. -/
def SawFresh (tr : Exchanges) : Prop := ⟨.wiredTigerIsFile, false⟩ ∈ tr

/-- The answer of an open is the engine's own, whatever became of the pass. -/
structure Opened (deserialize : Document → Except Error Document) (patience : Nat)
    (answer : Option (Except Error Unit)) (tr : Exchanges) : Prop where
  swept : Swept deserialize tr
  native : ∀ r : Except Error Unit, answer = some r → ⟨.native, r⟩ ∈ tr
  cut : answer = none → patience ≤ getMores tr

/-- One open marks the directory only if it found it fresh or has checked it. -/
theorem openClient_spec (patience : Nat) :
    (openClient deserialize patience).Traces (Guarded fun pre => SawFresh pre ∨ Checked deserialize pre)
      (Opened deserialize patience) := by
  refine ⟨.nil, fun isFile => ?_⟩
  have saw {tr : Exchanges} (h : Guarded (MayRecord deserialize (.ofFile isFile)) tr) :
      Guarded (fun pre => SawFresh pre ∨ Checked deserialize pre) (⟨.wiredTigerIsFile, isFile⟩ :: tr) := by
    refine h.cons rfl (by simp) ?_
    intro pre hpre
    refine hpre.imp ?_ fun hchecked => hchecked.mono (List.suffix_cons _ _).isInfix
    intro hfresh
    cases isFile with
    | false => exact List.mem_cons_self
    | true => cases hfresh
  refine Traces.mono (I := Guarded (MayRecord deserialize (.ofFile isFile))) ?_ (fun _ h => saw h) fun _ _ _ h => h
  refine Traces.ask .nil ?_ ?_
  · intro r tr h
    refine h.cons rfl (by simp) ?_
    intro pre hpre
    exact hpre.mono (List.suffix_cons _ _).isInfix
  · intro started
    cases started with
    | error e =>
      have ran : Ran deserialize patience true [⟨.wiredTigerIsFile, isFile⟩, ⟨.native, .error e⟩] :=
        (Ran.idle.cons rfl).cons rfl
      exact ⟨.nil, ran.swept, by rintro _ ⟨⟩; simp, by simp⟩
    | ok client =>
      apply Traces.map
      refine (run_spec patience _).mono (fun _ h => h) ?_
      intro answer tr _ ran
      have ran' : Ran deserialize patience answer.isSome
          (⟨.wiredTigerIsFile, isFile⟩ :: ⟨.native, .ok client⟩ :: tr) := (ran.cons rfl).cons rfl
      cases answer with
      | none => exact ⟨ran'.swept, by simp, fun _ => ran'.cut rfl⟩
      | some _ => exact ⟨ran'.swept, by rintro _ ⟨⟩; simp, by simp⟩

/-- The opens of one directory, whatever it holds at first. -/
def opens (deserialize : Document → Except Error Document) :
    System (Reruns Directory Nat Request Reply (Option (Except Error Unit))) (Reruns.Act Nat) :=
  reruns ⟨Directory.serve, openClient deserialize, Directory.crash⟩ fun _ => True

/-- So does every open of a run of them, the one under way among them. -/
theorem traced_of_opens {s : Reruns Directory Nat Request Reply (Option (Except Error Unit))}
    (h : (opens deserialize).Reach s) :
    s.Traced (fun _ => Guarded fun pre => SawFresh pre ∨ Checked deserialize pre) (Opened deserialize) :=
  Reruns.traced_of_reach openClient_spec h

/-- **A directory is marked only once it was checked.** Over any number of opens, each of which may
die anywhere, and whatever the engine and the file system reply: the step that makes the marker
appear is one of an open that found the directory fresh or has checked every collection in it. At
every point of an open each repair so far came right after the check that found the damage; and one
that has answered checked all it listed or nothing, and gives the engine's own answer. -/
theorem marked_only_once_checked {s : Reruns Directory Nat Request Reply (Option (Except Error Unit))}
    (h : (opens deserialize).Reach s) :
    (∀ act s', (opens deserialize).step s act s' → s.durable.markerState = .missing →
      s'.durable.markerState = .recorded →
      s.running ≠ none ∧ (SawFresh s.trace ∨ Checked deserialize s.trace)) ∧
    ∀ patience left, s.running = some (patience, left) → Attended s.trace ∧
      ∀ answer, left = .ret answer → Opened deserialize patience answer s.trace := by
  constructor
  · intro act s' hs was is
    have traced := traced_of_opens (h.next hs)
    cases hs with
    | start options idle =>
      rw [was] at is
      cases is
    | talk running hs =>
      refine ⟨by simp [running], ?_⟩
      obtain rfl := Directory.serve_recorded hs was is
      exact (traced.here rfl).2 s.trace _ [] rfl
    | finish running =>
      rw [was] at is
      cases is
    | crash hc =>
      have := hc is
      rw [was] at this
      cases this
  · intro patience left running
    have traced := traced_of_opens h
    refine ⟨(traced.here running).1, ?_⟩
    rintro answer rfl
    exact traced.answered running

end

/-- A directory an earlier build wrote, with one collection that is damaged: it is repaired,
checked once more, and then the marker is renamed into place. -/
theorem marked_only_once_checked_of_repair :
    ∃ s s', (opens .ok).Reach s ∧ (opens .ok).step s .talk s' ∧ s.durable.markerState = .missing ∧
      s'.durable.markerState = .recorded ∧ (SawFresh s.trace ∨ Checked .ok s.trace) := by
  let directory : Directory := ⟨true, none, none⟩
  let written : Directory := ⟨true, none, some (.text (RECORD ++ "\n" ++ EXPLANATION))⟩
  have h : (opens .ok).Reach ⟨directory, none, []⟩ := .init ⟨trivial, rfl⟩
  replace h := h.next (Reruns.Step.start 0 rfl)
  replace h := Reruns.reach_talk h .wiredTigerIsFile true rfl directory ⟨fun _ => rfl, rfl⟩
  replace h := Reruns.reach_talk h .native (.ok ()) rfl directory ⟨true, fun _ => rfl, rfl⟩
  replace h := Reruns.reach_talk h .skipVariable none rfl directory rfl
  replace h := Reruns.reach_talk h .readMarker (.error "no such file") rfl directory rfl
  replace h := Reruns.reach_talk h (.command "admin" listDatabasesCommand)
    (.ok [("databases", .array [.document [("name", .string "shop")]])]) rfl directory rfl
  replace h := Reruns.reach_talk h (.command "shop" listCollectionsCommand)
    (.ok (cursorReply "firstBatch" 0 [[("name", .string "orders")]])) rfl directory rfl
  replace h := Reruns.reach_talk h (.command "shop" (validateCommand "orders" .check)) (.ok []) rfl directory rfl
  replace h := Reruns.reach_talk h (.command "shop" (validateCommand "orders" .repair)) (.ok []) rfl directory rfl
  replace h := Reruns.reach_talk h (.command "shop" (validateCommand "orders" .check))
    (.ok [("valid", .boolean true)]) rfl directory rfl
  replace h := Reruns.reach_talk h .createPartial (.ok ()) rfl ⟨true, none, some (.text "")⟩ rfl
  replace h := Reruns.reach_talk h (.writePartial (RECORD ++ "\n" ++ EXPLANATION)) (.ok ()) rfl written rfl
  replace h := Reruns.reach_talk h .syncPartial (.ok ()) rfl written rfl
  have renamed : written.serve .renamePartial (.ok ()) ⟨true, written.partialFile, none⟩ := ⟨by simp [written], rfl⟩
  have was : written.markerState = .missing := rfl
  have is : Directory.markerState ⟨true, written.partialFile, none⟩ = .recorded := MarkerState.ofText_record
  refine ⟨_, _, h, Reruns.Step.talk (q := .renamePartial) (r := .ok ()) rfl renamed, was, is, ?_⟩
  exact ((marked_only_once_checked h).1 .talk _
    (Reruns.Step.talk (q := .renamePartial) (r := .ok ()) rfl renamed) was is).2

end EmbeddedMongo.Repair
