import EmbeddedMongo.Conc.Aloud
import EmbeddedMongo.Repair.Marked
import EmbeddedMongo.Repair.Recording

/-!
# What the pass says it found and did

`src/repair/announce.rs`, `Repaired` of `src/repair/report.rs`, and the pass of
`src/repair/mod.rs` with its log lines in their places. Without them it is the program of
`Repair.Pass`. How long a run took and the directory it ran in are left out of the lines.
-/

namespace EmbeddedMongo.Repair

open Conc Dialogue

/-! ## `Repaired` -/

/-- What `validate {repair: true}` did to one collection. -/
structure Repaired where
  insertedIndexEntries : Int64
  movedDocuments : Int64
  removedCorruptRecords : Int64
  removedExtraIndexEntries : Int64
  /-- Where the evicted duplicates went. -/
  lostAndFound : Option Namespace
  warnings : List String
  deriving DecidableEq, Repr

/-- A count of the reply, which may be of either width; nothing else counts. -/
def integer (document : Document) (key : String) : Int64 :=
  match Document.get key document with
  | some (.int32 value) => value.toInt64
  | some (.int64 value) => value
  | _ => 0

/-- What `Binary::to_uuid` and the `Display` of a UUID make of a binary value, from its bytes. -/
class Uuid where
  text : List UInt8 → Option String

/-- Where the engine put what it moved, if it says under which id. -/
def lostAndFound [Uuid] (reply : Document) (movedDocuments : Int64) : Option Namespace :=
  if movedDocuments = 0 then none
  else match Document.get "uuid" reply with
    | some (.other 0x05 binary) => (Uuid.text binary).map fun uuid => ⟨"local", "lost_and_found." ++ uuid⟩
    | _ => none

namespace Repaired

/-- `Repaired::parse` -/
def parse [Uuid] (reply : Document) : Repaired :=
  let movedDocuments := integer reply "numDocumentsMovedToLostAndFound"
  { insertedIndexEntries := integer reply "numInsertedMissingIndexEntries"
    movedDocuments
    removedCorruptRecords := integer reply "numRemovedCorruptRecords"
    removedExtraIndexEntries := integer reply "numRemovedExtraIndexEntries"
    lostAndFound := Repair.lostAndFound reply movedDocuments
    warnings := strings reply "warnings" }

/-- `Repaired::changed_anything` -/
def changedAnything (r : Repaired) : Bool :=
  0 < r.insertedIndexEntries || 0 < r.movedDocuments || 0 < r.removedCorruptRecords || 0 < r.removedExtraIndexEntries

end Repaired

/-! ## The log -/

/-- The levels of `tracing` that are used. -/
inductive Level where
  | debug
  | info
  | warn
  deriving DecidableEq, Repr

/-- The lines of `repair`, with their fields. -/
inductive Line where
  | skipping
  | checking
  | finished
  | willRunAgain
  | couldNotList (error : Error)
  | noCollections (databases : Nat)
  | couldNotCheck (ns : Namespace) (error : Error)
  | damaged (ns : Namespace) (damage : Damage)
  | repaired (ns : Namespace) (repaired : Repaired)
  | deleted (ns : Namespace) (removedCorruptRecords : Int64)
  | noDestination (ns : Namespace) (movedDocuments : Int64) (warnings : List String)
  | stillDamaged (ns : Namespace) (residual : Damage)
  | couldNotRecord (error : IoError)

namespace Line

def level : Line → Level
  | .skipping => .debug
  | .checking | .finished => .info
  | _ => .warn

end Line

/-- `announce_deletions` -/
def announceDeletions (ns : Namespace) (r : Repaired) : List Line :=
  if r.removedCorruptRecords = 0 then [] else [.deleted ns r.removedCorruptRecords]

/-- `announce_missing_destination` -/
def announceMissingDestination (ns : Namespace) (r : Repaired) : List Line :=
  if r.movedDocuments = 0 ∨ r.lostAndFound.isSome = true then [] else [.noDestination ns r.movedDocuments r.warnings]

/-- `announce_repair` -/
def announceRepair (ns : Namespace) (r : Repaired) : List Line :=
  if r.changedAnything = false then []
  else .repaired ns r :: (announceDeletions ns r ++ announceMissingDestination ns r)

/-! ## The pass, aloud -/

/-- A program of the pass that logs lines between its requests. -/
abbrev Speech := Dialogue (Request ⊕ Line) (Heard Reply Line)

/-- What was asked and said, in order. -/
abbrev Spoken := List (Exchange (Request ⊕ Line) (Heard Reply Line))

namespace Aloud

/-- `confirm`, with its lines. -/
def confirm (ns : Namespace) : Speech (Except Error Unit) :=
  (silent (validate ns .check)).bind fun
    | .error e => .ret (.error e)
    | .ok reply =>
      match Health.parse reply with
      | .sound => .ret (.ok ())
      | .damaged residual => say (.stillDamaged ns residual) (.ret (.ok ()))
      | .inconclusive reason => .ret (.error (didNotFinish ns reason))

/-- `visit`, with its lines. -/
def visit [Uuid] (ns : Namespace) : Speech (Except Error Unit) :=
  (silent (validate ns .check)).bind fun
    | .error e => .ret (.error e)
    | .ok reply =>
      match Health.parse reply with
      | .sound => .ret (.ok ())
      | .inconclusive reason => .ret (.error (didNotFinish ns reason))
      | .damaged damage => say (.damaged ns damage) ((silent (validate ns .repair)).bind fun
        | .error e => .ret (.error e)
        | .ok reply => sayAll (announceRepair ns (Repaired.parse reply)) (confirm ns))

/-- `sweep`, with a line for every collection that could not be checked. -/
def sweep (check : Namespace → Speech (Except Error Unit)) : List Namespace → Outcome → Speech Outcome
  | [], outcome => .ret outcome
  | ns :: namespaces, outcome => (check ns).bind fun
    | .ok _ => sweep check namespaces outcome
    | .error e => say (.couldNotCheck ns e) (sweep check namespaces .incomplete)

/-- `record`, with a line if it failed. -/
def record : Speech Unit :=
  (silent Marker.record).bind fun
    | .ok _ => .ret ()
    | .error e => say (.couldNotRecord e) (.ret ())

section

variable [Uuid] (deserialize : Document → Except Error Document) (patience : Nat)

/-- `pass`, with its lines. -/
def pass : Speech (Option Outcome) :=
  (silent (namespaces deserialize patience)).bind fun
    | none => .ret none
    | some (.error e) => say (.couldNotList e) (.ret (some .incomplete))
    | some (.ok catalog) =>
      if catalog.databases > 0 ∧ catalog.namespaces = [] then
        say (.noCollections catalog.databases) (.ret (some .incomplete))
      else (sweep visit catalog.namespaces .complete).map some

/-- The rest of `run`, with its lines. -/
def unrecorded : Origin → Speech (Option Unit)
  | .fresh => record.map some
  | .preExisting => say .checking ((pass deserialize patience).bind fun
    | none => .ret none
    | some .complete => say .finished (record.map some)
    | some .incomplete => say .willRunAgain (.ret (some ())))

/-- `run`, with its lines. -/
def run (origin : Origin) : Speech (Option Unit) :=
  .ask (.inl .skipVariable) fun value =>
    if skipRequested value = true then say .skipping (.ret (some ()))
    else (silent Marker.state).bind fun
      | .recorded => .ret (some ())
      | .missing => unrecorded deserialize patience origin

/-- `Client::open` around it. -/
def openClient : Speech (Option (Except Error Unit)) :=
  (silent origin).bind fun origin => .ask (.inl .native) fun
    | .error e => .ret (some (.error e))
    | .ok client => (run deserialize patience origin).map fun answer => answer.map fun _ => .ok client

end

/-! ### Without its lines it is the silent pass -/

theorem mute_confirm (ns : Namespace) : (confirm ns).mute = Repair.confirm ns := by
  rw [confirm, mute_bind, mute_silent, Repair.confirm]
  refine congrArg (Dialogue.bind _) (funext fun reply => ?_)
  cases reply with
  | error e => rfl
  | ok reply =>
    dsimp only
    cases Health.parse reply <;> rfl

/-- Without its lines a visit is the visit of the pass. -/
theorem mute_visit [Uuid] (ns : Namespace) : (visit ns).mute = Repair.visit ns := by
  rw [visit, mute_bind, mute_silent, Repair.visit]
  refine congrArg (Dialogue.bind _) (funext fun reply => ?_)
  cases reply with
  | error e => rfl
  | ok reply =>
    dsimp only
    cases Health.parse reply with
    | sound => rfl
    | inconclusive reason => rfl
    | damaged damage =>
      dsimp only
      rw [mute_say, mute_bind, mute_silent]
      refine congrArg (Dialogue.bind _) (funext fun reply => ?_)
      cases reply with
      | error e => rfl
      | ok reply => exact (mute_sayAll _ _).trans (mute_confirm ns)

section

variable [Uuid] (deserialize : Document → Except Error Document) (patience : Nat)

end

/-- A visit asks of no other collection. -/
theorem visit_sends (ns : Namespace) :
    (Repair.visit ns).Sends fun q => ∃ mode, q = .command ns.database (validateCommand ns.collection mode) := by
  have hconfirm : (Repair.confirm ns).Sends fun q => ∃ mode, q = .command ns.database (validateCommand ns.collection mode) := by
    refine ⟨⟨.check, rfl⟩, fun reply => ?_⟩
    cases reply with
    | error e => trivial
    | ok reply =>
      simp only [Dialogue.bind]
      split <;> trivial
  refine ⟨⟨.check, rfl⟩, fun reply => ?_⟩
  cases reply with
  | error e => trivial
  | ok reply =>
    simp only [Dialogue.bind]
    split
    · trivial
    · trivial
    · refine ⟨⟨.repair, rfl⟩, fun reply => ?_⟩
      cases reply with
      | error e => trivial
      | ok reply => exact hconfirm

end Aloud

/-! ## What is said of a check and of an open -/

/-- A collection that was checked has a verdict, or it is said why it has none. -/
def Accounted (tr : Spoken) : Prop :=
  ∀ ns reply, asked (Namespace.checked ns reply) ∈ tr →
    Verdict ns (exchanged tr) ∨ ∃ error, said (.couldNotCheck ns error) ∈ tr

/-- Something was logged as a warning. -/
def Warned (tr : Spoken) : Prop := ∃ line : Line, said line ∈ tr ∧ line.level = .warn

/-- The pass was turned off, or the directory had been checked before, or it is marked now, or there is
a warning. -/
def Explained (tr : Spoken) : Prop :=
  (∃ value, asked ⟨.skipVariable, value⟩ ∈ tr ∧ skipRequested value = true) ∨
  (∃ contents, asked ⟨.readMarker, .ok contents⟩ ∈ tr ∧ MarkerState.ofText contents = .recorded) ∨
  asked ⟨.renamePartial, .ok ()⟩ ∈ tr ∨ Warned tr

theorem mem_exchanged {e : Exchange Request Reply} {tr : Spoken} : e ∈ exchanged tr ↔ asked e ∈ tr := by
  induction tr with
  | nil => simp [exchanged]
  | cons first tr ih =>
    obtain ⟨q, r⟩ := first
    cases q with
    | inl q =>
      rw [exchanged, List.mem_cons, List.mem_cons, ih, show (⟨.inl q, r⟩ : Exchange (Request ⊕ Line) _) = asked ⟨q, r⟩ from rfl,
        asked_injective.eq_iff]
    | inr line =>
      have hne : asked e ≠ (⟨.inr line, r⟩ : Exchange (Request ⊕ Line) (Heard Reply Line)) := fun h => by cases h
      rw [exchanged, List.mem_cons, ih]
      exact ⟨.inr, fun h => h.resolve_left hne⟩

theorem Accounted.nil : Accounted [] := by
  intro ns reply h
  cases h

/-- Two parts that account for what they checked do so together. -/
theorem Accounted.append {tr tr' : Spoken} (h : Accounted tr) (h' : Accounted tr') : Accounted (tr ++ tr') := by
  intro ns reply hmem
  rw [exchanged_append]
  rcases List.mem_append.1 hmem with hmem | hmem
  · rcases h ns reply hmem with hverdict | ⟨error, hsaid⟩
    · exact .inl (hverdict.mono (List.prefix_append _ _).isInfix)
    · exact .inr ⟨error, List.mem_append_left _ hsaid⟩
  · rcases h' ns reply hmem with hverdict | ⟨error, hsaid⟩
    · exact .inl (hverdict.mono (List.suffix_append _ _).isInfix)
    · exact .inr ⟨error, List.mem_append_right _ hsaid⟩

theorem Accounted.of_forall {tr : Spoken} (h : ∀ e ∈ tr, ∀ ns reply, e ≠ asked (Namespace.checked ns reply)) :
    Accounted tr :=
  fun ns reply hmem => absurd rfl (h _ hmem ns reply)

theorem Warned.mono {tr tr' : Spoken} (h : Warned tr) (hsub : tr ⊆ tr') : Warned tr' := by
  obtain ⟨line, hmem, hlevel⟩ := h
  exact ⟨line, hsub hmem, hlevel⟩

theorem Explained.mono {tr tr' : Spoken} (h : Explained tr) (hsub : tr ⊆ tr') : Explained tr' := by
  rcases h with ⟨value, hmem, hskip⟩ | ⟨contents, hmem, hrecorded⟩ | hmem | hwarned
  · exact .inl ⟨value, hsub hmem, hskip⟩
  · exact .inr (.inl ⟨contents, hsub hmem, hrecorded⟩)
  · exact .inr (.inr (.inl (hsub hmem)))
  · exact .inr (.inr (.inr (hwarned.mono hsub)))

/-! ## What the lines carry -/

section

variable {ns : Namespace} {r : Repaired}

end

/-! ## What is said of a repair -/

/-- The repair was announced: right before it is said that the collection was found damaged, by the check
right before that. -/
def Foretold (ns : Namespace) (pre : Spoken) : Prop :=
  ∃ pre' found damage, pre = pre' ++ [asked (ns.checked (.ok found)), said (.damaged ns damage)] ∧
    Health.parse found = .damaged damage

/-- What came before the warning is of no account. -/
theorem Foretold.prepend {ns : Namespace} {pre : Spoken} (h : Foretold ns pre) (tr : Spoken) : Foretold ns (tr ++ pre) := by
  obtain ⟨pre', found, damage, rfl, hparse⟩ := h
  exact ⟨tr ++ pre', found, damage, by rw [List.append_assoc], hparse⟩

theorem foretold {ns : Namespace} {found : Document} {damage : Damage} (hparse : Health.parse found = .damaged damage) :
    Foretold ns [asked (ns.checked (.ok found)), said (.damaged ns damage)] :=
  ⟨[], found, damage, rfl, hparse⟩

/-- A repair is told apart by its collection and its reply. -/
theorem repaired_inj {ns ns' : Namespace} {reply reply' : Except Error Document}
    (h : ns.repaired reply = ns'.repaired reply') : ns = ns' ∧ reply = reply' := by
  obtain ⟨hdatabase, hcommand, hreply⟩ := commanded_inj.1 h
  cases ns
  cases ns'
  simp_all [validateCommand]

/-- The one repair in a visit so far. -/
theorem visit_cases {ns ns' : Namespace} {found : Document} {damage : Damage} {reply reply' : Except Error Document}
    (lines : List Line) {pre post : Spoken}
    (h : asked (ns.checked (.ok found)) :: said (.damaged ns damage) :: asked (ns.repaired reply) :: lines.map said =
      pre ++ asked (ns'.repaired reply') :: post) :
    ns' = ns ∧ reply' = reply ∧ pre = [asked (ns.checked (.ok found)), said (.damaged ns damage)] ∧ post = lines.map said := by
  rcases pre with _ | ⟨a, _ | ⟨b, _ | ⟨c, pre⟩⟩⟩
  all_goals simp only [List.nil_append, List.cons_append, List.cons.injEq] at h
  · exact absurd (asked_injective h.1) (ns.checked_ne_repaired ns' _ _)
  · exact absurd h.2.1.symm (asked_ne_said _ _)
  · obtain ⟨rfl, rfl, hsame, rfl⟩ := h
    obtain ⟨rfl, rfl⟩ := repaired_inj (asked_injective hsame)
    exact ⟨rfl, rfl, rfl, rfl⟩
  · have hmem : asked (ns'.repaired reply') ∈ lines.map said := by
      rw [h.2.2.2]
      simp
    obtain ⟨line, -, hline⟩ := List.mem_map.1 hmem
    exact absurd hline.symm (asked_ne_said _ line)

variable [Uuid]

/-- The lines an announced repair is followed by. -/
def reportOf (ns : Namespace) (reply : Document) : Spoken := (announceRepair ns (Repaired.parse reply)).map said

/-- Every repair is foretold, and what it did is said before anything else happens. -/
def Told (tr : Spoken) : Prop :=
  ∀ ns pre reply post, tr = pre ++ asked (Namespace.repaired ns reply) :: post →
    Foretold ns pre ∧ ∀ r, reply = .ok r → post <+: reportOf ns r ∨ reportOf ns r <+: post

/-- The same of a program that has got past its last report. -/
def ToldAll (tr : Spoken) : Prop :=
  ∀ ns pre reply post, tr = pre ++ asked (Namespace.repaired ns reply) :: post →
    Foretold ns pre ∧ ∀ r, reply = .ok r → reportOf ns r <+: post

/-- Whatever was told to the end was told as far as it went. -/
theorem ToldAll.told {tr : Spoken} (h : ToldAll tr) : Told tr := by
  intro ns pre reply post htr
  obtain ⟨hbefore, hafter⟩ := h ns pre reply post htr
  exact ⟨hbefore, fun r hr => .inr (hafter r hr)⟩

/-- A repair in the second of two parts is one of that part; one in the first has its report there. -/
theorem ToldAll.append_of {tr tr' : Spoken} (h : ToldAll tr)
    {P : Namespace → Document → Spoken → Prop} (hP : ∀ ns r post, reportOf ns r <+: post → P ns r post)
    (h' : ∀ ns pre reply post, tr' = pre ++ asked (Namespace.repaired ns reply) :: post →
      Foretold ns pre ∧ ∀ r, reply = .ok r → P ns r post) :
    ∀ ns pre reply post, tr ++ tr' = pre ++ asked (Namespace.repaired ns reply) :: post →
      Foretold ns pre ∧ ∀ r, reply = .ok r → P ns r post := by
  intro ns pre reply post heq
  rcases List.append_eq_append_iff.1 heq with ⟨mid, rfl, htr'⟩ | ⟨mid, rfl, hmid⟩
  · obtain ⟨hbefore, hafter⟩ := h' ns mid reply post htr'
    exact ⟨hbefore.prepend tr, hafter⟩
  · cases mid with
    | nil =>
      obtain ⟨hbefore, hafter⟩ := h' ns [] reply post hmid.symm
      exact ⟨by simpa using hbefore.prepend pre, hafter⟩
    | cons e mid =>
      obtain ⟨rfl, rfl⟩ := List.cons_eq_cons.1 hmid
      obtain ⟨hbefore, hafter⟩ := h ns pre reply mid rfl
      exact ⟨hbefore, fun r hr => hP ns r _ ((hafter r hr).trans (List.prefix_append mid tr'))⟩

/-- Two stretches that are told to the end are so one after the other. -/
theorem ToldAll.append {tr tr' : Spoken} (h : ToldAll tr) (h' : ToldAll tr') : ToldAll (tr ++ tr') :=
  h.append_of (P := fun ns r post => reportOf ns r <+: post) (fun _ _ _ h => h) h'

/-- The second may be under way. -/
theorem ToldAll.append_told {tr tr' : Spoken} (h : ToldAll tr) (h' : Told tr') : Told (tr ++ tr') :=
  h.append_of (P := fun ns r post => post <+: reportOf ns r ∨ reportOf ns r <+: post) (fun _ _ _ h => .inr h) h'

theorem ToldAll.of_forall {tr : Spoken} (h : ∀ e ∈ tr, ∀ ns reply, e ≠ asked (Namespace.repaired ns reply)) : ToldAll tr := by
  intro ns pre reply post htr
  have hmem : asked (ns.repaired reply) ∈ tr := by simp [htr]
  exact absurd rfl (h _ hmem ns reply)

theorem ToldAll.nil : ToldAll [] := .of_forall (by simp)

/-- Lines alone repair nothing. -/
theorem ToldAll.lines (lines : List Line) : ToldAll (lines.map said) := by
  apply ToldAll.of_forall
  intro e he ns reply
  obtain ⟨line, -, rfl⟩ := List.mem_map.1 he
  exact (asked_ne_said _ line).symm

/-- A program every part of which is told of and accounted for. -/
def Honest {α : Type} (d : Speech α) (P : α → Spoken → Prop) : Prop :=
  d.Traces Told fun a tr => ToldAll tr ∧ Accounted tr ∧ P a tr

namespace Honest

variable {α β : Type} {d : Speech α} {f : α → Speech β} {P : α → Spoken → Prop} {P' : β → Spoken → Prop}

theorem ret {a : α} (h : P a []) : Honest (.ret a) P := ⟨ToldAll.nil.told, .nil, .nil, h⟩

/-- Honest programs compose: what the first has told stays told while the second runs. -/
theorem bind (h : Honest d P) (hf : ∀ a tr, P a tr → Honest (f a) fun b tr' => P' b (tr ++ tr')) :
    Honest (d.bind f) P' := by
  apply Traces.bind
  refine h.mono (fun _ hI => hI) ?_
  rintro a tr - ⟨hall, haccounted, hP⟩
  refine (hf a tr hP).mono (fun tr' => hall.append_told) ?_
  rintro b tr' - ⟨hall', haccounted', hP'⟩
  exact ⟨hall.append hall', haccounted.append haccounted', hP'⟩

theorem map {g : α → β} (h : Honest d fun a tr => P' (g a) tr) : Honest (d.map g) P' := by
  refine bind h fun a tr hP => .ret ?_
  rwa [List.append_nil]

/-- An honest program is so for any weaker account of its answer. -/
theorem mono (h : Honest d P) {Q : α → Spoken → Prop} (hP : ∀ a tr, P a tr → Q a tr) : Honest d Q := by
  refine Traces.mono h (fun _ hI => hI) ?_
  rintro a tr - ⟨hall, haccounted, hp⟩
  exact ⟨hall, haccounted, hP a tr hp⟩

/-- A line is never a repair, nor a check. -/
theorem say {line : Line} (h : Honest d fun a tr => P a (said line :: tr)) : Honest (Dialogue.say line d) P := by
  have hsaid : ToldAll [said line] := ToldAll.lines [line]
  have haccounted : Accounted [said line] := .of_forall fun e he ns reply => by
    rw [List.mem_singleton.1 he]
    exact (asked_ne_said _ line).symm
  refine ⟨ToldAll.nil.told, fun _ => Traces.mono h (fun tr => hsaid.append_told) ?_⟩
  rintro a tr - ⟨hall, haccounted', hP⟩
  exact ⟨hsaid.append hall, haccounted.append haccounted', hP⟩

/-- Requests other than `validate`, with nothing said between them. -/
theorem silent {d : Program α} {I : Exchanges → Prop} {Post : α → Exchanges → Prop} (h : d.Traces I Post)
    (hI : ∀ tr, I tr → ∀ e ∈ tr, e.1.isCalled "validate" = false) :
    Honest (Dialogue.silent d) fun a tr => Post a (exchanged tr) := by
  have quiet : ∀ tr : Spoken, I (exchanged tr) → ∀ e ∈ tr, ∀ e', e'.1.isCalled "validate" = true → e ≠ asked e' := by
    rintro tr htr e he e' hcalled rfl
    have := hI _ htr e' (mem_exchanged.2 he)
    rw [hcalled] at this
    cases this
  have hall : ∀ tr : Spoken, I (exchanged tr) → ToldAll tr := fun tr htr =>
    .of_forall fun e he ns reply => quiet tr htr e he _ (ns.repaired_isCalled reply)
  have hloud : (Dialogue.silent d : Speech α).mute.Traces I Post := by rwa [mute_silent]
  refine hloud.loud.mono (fun tr htr => (hall tr htr).told) ?_
  intro a tr htr hPost
  exact ⟨hall tr htr, .of_forall fun e he ns reply => quiet tr htr e he _ (ns.checked_isCalled reply), hPost⟩

/-- One such request. -/
theorem ask {q : Request} {next : Reply q → Speech α} (hq : q.isCalled "validate" = false)
    (h : ∀ r, Honest (next r) fun a tr => P a (asked ⟨q, r⟩ :: tr)) : Honest (.ask (.inl q) next) P := by
  refine ⟨ToldAll.nil.told, fun r => ?_⟩
  have hquiet : ∀ e', e'.1.isCalled "validate" = true → asked ⟨q, r⟩ ≠ (asked e' : Exchange (Request ⊕ Line) (Heard Reply Line)) := by
    rintro e' hcalled heq
    rw [← asked_injective heq, hq] at hcalled
    cases hcalled
  have hall : ToldAll [asked ⟨q, r⟩] := .of_forall fun e he ns reply => by
    rw [List.mem_singleton.1 he]
    exact hquiet _ (ns.repaired_isCalled reply)
  have haccounted : Accounted [asked ⟨q, r⟩] := .of_forall fun e he ns reply => by
    rw [List.mem_singleton.1 he]
    exact hquiet _ (ns.checked_isCalled reply)
  refine Traces.mono (h r) (fun tr => hall.append_told) ?_
  rintro a tr - ⟨hall', haccounted', hP⟩
  exact ⟨hall.append hall', haccounted.append haccounted', hP⟩

end Honest

/-! ## The parts of the pass -/

section

variable {ns : Namespace} {found : Document} {damage : Damage}

/-- A check repairs nothing. -/
theorem toldAll_check (ns : Namespace) (reply : Except Error Document) : ToldAll [asked (ns.checked reply)] := by
  apply ToldAll.of_forall
  intro e he ns' reply' heq
  rw [List.mem_singleton.1 he] at heq
  exact ns.checked_ne_repaired ns' reply reply' (asked_injective heq)

/-- A repair that failed has nothing to report. -/
theorem toldAll_failed (hparse : Health.parse found = .damaged damage) (e : Error) :
    ToldAll [asked (ns.checked (.ok found)), said (.damaged ns damage), asked (ns.repaired (.error e))] := by
  intro ns' pre reply' post h
  obtain ⟨rfl, rfl, rfl, -⟩ := visit_cases [] h
  exact ⟨foretold hparse, fun r hr => by cases hr⟩

/-- A repair after the warning of its collection, with some of its report said. -/
theorem told_repaired (hparse : Health.parse found = .damaged damage) {reply : Document} {part : List Line}
    (hpart : part <+: announceRepair ns (Repaired.parse reply)) :
    Told (asked (ns.checked (.ok found)) :: said (.damaged ns damage) :: asked (ns.repaired (.ok reply)) :: part.map said) := by
  intro ns' pre reply' post h
  obtain ⟨rfl, rfl, rfl, rfl⟩ := visit_cases _ h
  refine ⟨foretold hparse, ?_⟩
  rintro r ⟨⟩
  exact .inl (hpart.map said)

/-- The same with all of it said. -/
theorem toldAll_repaired (hparse : Health.parse found = .damaged damage) (reply : Document) :
    ToldAll (asked (ns.checked (.ok found)) :: said (.damaged ns damage) :: asked (ns.repaired (.ok reply)) ::
      reportOf ns reply) := by
  intro ns' pre reply' post h
  obtain ⟨rfl, rfl, rfl, rfl⟩ := visit_cases _ h
  refine ⟨foretold hparse, ?_⟩
  rintro r ⟨⟩
  exact List.prefix_rfl

end

namespace Aloud

theorem confirm_told (ns : Namespace) : (confirm ns).Traces Told fun _ tr => ToldAll tr := by
  refine ⟨ToldAll.nil.told, fun reply => ?_⟩
  have hcheck := toldAll_check ns reply
  cases reply with
  | error e => exact ⟨hcheck.told, hcheck⟩
  | ok reply =>
    simp only [via, Dialogue.bind]
    split
    · exact ⟨hcheck.told, hcheck⟩
    · rename_i residual _
      have hsaid := hcheck.append (ToldAll.lines [.stillDamaged ns residual])
      exact ⟨hcheck.told, fun _ => ⟨hsaid.told, hsaid⟩⟩
    · exact ⟨hcheck.told, hcheck⟩

/-- A visit tells what it repairs before it does anything else. -/
theorem visit_told (ns : Namespace) : (visit ns).Traces Told fun _ tr => ToldAll tr := by
  refine ⟨ToldAll.nil.told, fun reply => ?_⟩
  have hcheck := toldAll_check ns reply
  cases reply with
  | error e => exact ⟨hcheck.told, hcheck⟩
  | ok found =>
    simp only [via, Dialogue.bind]
    split
    · exact ⟨hcheck.told, hcheck⟩
    · exact ⟨hcheck.told, hcheck⟩
    · rename_i damage hparse
      have hsaid := hcheck.append (ToldAll.lines [.damaged ns damage])
      refine ⟨hcheck.told, fun _ => ⟨hsaid.told, fun reply => ?_⟩⟩
      cases reply with
      | error e => exact ⟨(toldAll_failed hparse e).told, toldAll_failed hparse e⟩
      | ok reply =>
        refine Traces.sayAll (fun part hpart => told_repaired hparse hpart) ?_
        refine (confirm_told ns).mono (fun tr => ?_) fun _ tr _ => ?_
        · exact (toldAll_repaired hparse reply).append_told
        · exact (toldAll_repaired hparse reply).append

/-- What one visit leaves: all is told, its collection has a verdict if it answered, and no other
was checked. -/
structure Attends (ns : Namespace) (answer : Except Error Unit) (tr : Spoken) : Prop where
  told : ToldAll tr
  verdict : answer = .ok () → Verdict ns (exchanged tr)
  only : ∀ ns' reply, asked (Namespace.checked ns' reply) ∈ tr → ns' = ns

/-- Every visit does, whatever the engine replies. -/
theorem visit_spec (ns : Namespace) : (visit ns).Traces Told (Attends ns) := by
  have hquiet : (visit ns).mute.Traces (fun tr => Sweeping tr ∧ ∀ e ∈ tr, ∃ mode, e.1 = .command ns.database (validateCommand ns.collection mode))
      fun answer tr => Visited ns answer tr ∧ True := by
    rw [mute_visit]
    exact (Repair.visit_spec ns).and (visit_sends ns).traces
  refine ((visit_told ns).and hquiet.loud).mono (fun _ h => h.1) ?_
  rintro answer tr ⟨-, -, honly⟩ ⟨htold, hvisited, -⟩
  refine ⟨htold, hvisited.verdict, fun ns' reply hmem => ?_⟩
  obtain ⟨mode, hsame⟩ := honly _ (mem_exchanged.2 hmem)
  obtain ⟨hdatabase, hcommand⟩ := Request.command.inj hsame
  cases ns
  cases ns'
  cases mode <;> simp_all [validateCommand]

section

variable (deserialize : Document → Except Error Document) (patience : Nat)

end

end Aloud

/-- Every line of the report of a repair was said. -/
theorem ToldAll.report {ns : Namespace} {tr : Spoken} (h : ToldAll tr) {reply : Document} (hmem : asked (ns.repaired (.ok reply)) ∈ tr)
    {line : Line} (hline : line ∈ announceRepair ns (Repaired.parse reply)) : said line ∈ tr := by
  obtain ⟨pre, post, rfl⟩ := List.append_of_mem hmem
  have hprefix := (h ns pre _ post rfl).2 reply rfl
  have hpost := hprefix.subset (List.mem_map_of_mem (f := said) hline)
  simp [hpost]

end EmbeddedMongo.Repair
