import EmbeddedMongo.Repair.Listing

/-!
# What a directory has to have been through to be marked

`Checked` says it of what an open has exchanged with the engine: every database named was listed
to the end, and every collection listed has a verdict. `Attended` and `Swept` are about the way
there: no collection is repaired that was not just found damaged, and no collection is left out
because of another one.
-/

namespace EmbeddedMongo.Repair

open Conc Dialogue

/-- A command's exchange is told apart by its three parts. -/
theorem commanded_inj {database database' : String} {command command' : Document}
    {reply reply' : Except Error Document} :
    commanded database command reply = commanded database' command' reply' ↔
      database = database' ∧ command = command' ∧ reply = reply' := by
  constructor
  · intro h
    cases h
    exact ⟨rfl, rfl, rfl⟩
  · rintro ⟨rfl, rfl, rfl⟩
    rfl

namespace Namespace

/-- A `validate` of the collection, with its reply. -/
def checked (ns : Namespace) (reply : Except Error Document) : Exchange Request Reply :=
  commanded ns.database (validateCommand ns.collection .check) reply

/-- A `validate` with `repair`, with its reply. -/
def repaired (ns : Namespace) (reply : Except Error Document) : Exchange Request Reply :=
  commanded ns.database (validateCommand ns.collection .repair) reply

/-- A check is not a repair. -/
theorem checked_ne_repaired (ns ns' : Namespace) (reply reply' : Except Error Document) :
    ns.checked reply ≠ ns'.repaired reply' := by
  simp [checked, repaired, commanded_inj, validateCommand]

theorem checked_isCalled (ns : Namespace) (reply : Except Error Document) :
    (ns.checked reply).1.isCalled "validate" = true := by
  simp [checked, commanded, validateCommand, Request.isCalled]

theorem repaired_isCalled (ns : Namespace) (reply : Except Error Document) :
    (ns.repaired reply).1.isCalled "validate" = true := by
  simp [repaired, commanded, validateCommand, Request.isCalled]

end Namespace

/-- Only a command has a name. -/
theorem Request.isCommand_of_isCalled {q : Request} {name : String} (h : q.isCalled name = true) :
    q.isCommand = true := by
  cases q with
  | command => rfl
  | _ => cases h

/-! ## Repairs -/

/-- A repair comes right after a check of the same collection that found damage. -/
def Attended (tr : Exchanges) : Prop :=
  ∀ ns pre reply post, tr = pre ++ Namespace.repaired ns reply :: post →
    ∃ pre' found damage, pre = pre' ++ [ns.checked (.ok found)] ∧ Health.parse found = .damaged damage

/-- Exchanges without a repair attend to every repair. -/
theorem Attended.of_forall {tr : Exchanges} (h : ∀ e ∈ tr, ∀ ns reply, e ≠ Namespace.repaired ns reply) :
    Attended tr := by
  intro ns pre reply post htr
  have hmem : ns.repaired reply ∈ tr := by simp [htr]
  exact absurd rfl (h _ hmem ns reply)

/-- Attention is kept part by part: the check comes right before its repair. -/
theorem Attended.append {tr tr' : Exchanges} (h : Attended tr) (h' : Attended tr') : Attended (tr ++ tr') := by
  intro ns pre reply post heq
  rcases List.append_eq_append_iff.1 heq with ⟨mid, rfl, htr'⟩ | ⟨mid, rfl, hmid⟩
  · obtain ⟨pre', found, damage, rfl, hparse⟩ := h' ns mid reply post htr'
    exact ⟨tr ++ pre', found, damage, by rw [List.append_assoc], hparse⟩
  · cases mid with
    | nil =>
      obtain ⟨pre', found, damage, hnil, -⟩ := h' ns [] reply post hmid.symm
      simp at hnil
    | cons e mid =>
      obtain ⟨rfl, rfl⟩ := List.cons_eq_cons.1 hmid
      exact h ns pre _ mid rfl

/-- Listing collections repairs none. -/
theorem Enumerating.attended {tr : Exchanges} (h : Enumerating tr) : Attended tr := by
  apply Attended.of_forall
  rintro e he ns reply rfl
  have := (h _ he).2
  rw [ns.repaired_isCalled] at this
  cases this

/-- Nothing but the validation of collections, with every repair attended to. -/
def Sweeping (tr : Exchanges) : Prop := Attended tr ∧ ∀ e ∈ tr, e.1.isCalled "validate" = true

namespace Sweeping

theorem nil : Sweeping [] := ⟨.of_forall (by simp), by simp⟩

theorem append (tr tr' : Exchanges) (h : Sweeping tr) (h' : Sweeping tr') : Sweeping (tr ++ tr') :=
  ⟨h.1.append h'.1, List.forall_mem_append.2 ⟨h.2, h'.2⟩⟩

/-- A check alone is part of a sweep. -/
theorem check (ns : Namespace) (reply : Except Error Document) : Sweeping [ns.checked reply] := by
  constructor
  · apply Attended.of_forall
    intro e he ns' reply'
    rw [List.mem_singleton.1 he]
    exact ns.checked_ne_repaired ns' reply reply'
  · intro e he
    rw [List.mem_singleton.1 he]
    exact ns.checked_isCalled reply

/-- So is a check that found damage, with the repair after it. -/
theorem repair (ns : Namespace) {found : Document} {damage : Damage} (h : Health.parse found = .damaged damage)
    (reply : Except Error Document) : Sweeping [ns.checked (.ok found), ns.repaired reply] := by
  constructor
  · intro ns' pre reply' post htr
    match pre with
    | [] =>
      have hhead := (List.cons_eq_cons.1 htr).1
      exact absurd hhead (ns.checked_ne_repaired ns' _ _)
    | [e] =>
      obtain ⟨rfl, htail⟩ := List.cons_eq_cons.1 htr
      have hsame := (List.cons_eq_cons.1 htail).1
      obtain ⟨hdatabase, hcommand, -⟩ := commanded_inj.1 hsame
      have hns : ns' = ns := by
        cases ns
        cases ns'
        simp_all [validateCommand]
      exact ⟨[], found, damage, by rw [hns]; rfl, h⟩
    | _ :: _ :: _ => simp at htr
  · intro e he
    rcases List.mem_cons.1 he with rfl | he
    · exact ns.checked_isCalled _
    · rw [List.mem_singleton.1 he]
      exact ns.repaired_isCalled reply

end Sweeping

/-! ## Verdicts -/

/-- The collection was found sound; or damaged, and then repaired and checked once more. -/
def Verdict (ns : Namespace) (tr : Exchanges) : Prop :=
  (∃ found, Health.parse found = .sound ∧ ns.checked (.ok found) ∈ tr) ∨
  ∃ found damage reply confirmed, Health.parse found = .damaged damage ∧
    (Health.parse confirmed).isConclusive = true ∧
    [ns.checked (.ok found), ns.repaired (.ok reply), ns.checked (.ok confirmed)] <:+: tr

/-- A verdict stands whatever else is exchanged. -/
theorem Verdict.mono {ns : Namespace} {tr tr' : Exchanges} (h : Verdict ns tr) (hpart : tr <:+: tr') :
    Verdict ns tr' := by
  rcases h with ⟨found, hparse, hmem⟩ | ⟨found, damage, reply, confirmed, hparse, hconclusive, hthree⟩
  · exact .inl ⟨found, hparse, hpart.subset hmem⟩
  · exact .inr ⟨found, damage, reply, confirmed, hparse, hconclusive, hthree.trans hpart⟩

/-- A visit checks its collection, and succeeds only with a verdict. -/
structure Visited (ns : Namespace) (answer : Except Error Unit) (tr : Exchanges) : Prop where
  checked : ∃ reply, ns.checked reply ∈ tr
  verdict : answer = .ok () → Verdict ns tr

/-- The check after a repair has its say, damaged or not. -/
theorem confirm_spec (ns : Namespace) {found reply : Document} {damage : Damage}
    (hdamaged : Health.parse found = .damaged damage) :
    (confirm ns).Traces Sweeping fun answer tr =>
      Visited ns answer (ns.checked (.ok found) :: ns.repaired (.ok reply) :: tr) := by
  have hchecked (tr : Exchanges) : ∃ r, ns.checked r ∈ ns.checked (.ok found) :: tr :=
    ⟨_, List.mem_cons_self⟩
  refine ⟨.nil, fun reply => ?_⟩
  cases reply with
  | error e => exact ⟨.check ns _, hchecked _, by simp⟩
  | ok confirmed =>
    simp only [Dialogue.bind]
    split
    · rename_i hsound
      exact ⟨.check ns _, hchecked _,
        fun _ => .inr ⟨found, damage, _, confirmed, hdamaged, by rw [hsound]; rfl, List.infix_rfl⟩⟩
    · rename_i hresidual
      exact ⟨.check ns _, hchecked _,
        fun _ => .inr ⟨found, damage, _, confirmed, hdamaged, by rw [hresidual]; rfl, List.infix_rfl⟩⟩
    · exact ⟨.check ns _, hchecked _, by simp⟩

/-- A visit repairs only what it found damaged, and a collection whose visit answered has a verdict. -/
theorem visit_spec (ns : Namespace) : (visit ns).Traces Sweeping (Visited ns) := by
  have hchecked (reply : Except Error Document) (tr : Exchanges) : ∃ r, ns.checked r ∈ ns.checked reply :: tr :=
    ⟨reply, List.mem_cons_self⟩
  refine ⟨.nil, fun reply => ?_⟩
  cases reply with
  | error e => exact ⟨.check ns _, hchecked _ _, by simp⟩
  | ok found =>
    simp only [Dialogue.bind]
    split
    · rename_i hsound
      exact ⟨.check ns _, hchecked _ _, fun _ => .inl ⟨found, hsound, List.mem_cons_self⟩⟩
    · exact ⟨.check ns _, hchecked _ _, by simp⟩
    · rename_i damage hdamaged
      refine ⟨.check ns _, fun reply => ?_⟩
      cases reply with
      | error e => exact ⟨.repair ns hdamaged _, hchecked _ _, by simp⟩
      | ok reply =>
        refine (confirm_spec ns hdamaged).mono ?_ fun _ _ _ h => h
        intro tr htr
        exact Sweeping.append _ _ (.repair ns hdamaged (.ok reply)) htr

/-- **One collection does not cost the rest their check**, and each of them counts. -/
theorem sweep_spec (namespaces : List Namespace) (outcome : Outcome) :
    (sweep visit namespaces outcome).Traces Sweeping fun answer tr =>
      (∀ ns ∈ namespaces, ∃ reply, Namespace.checked ns reply ∈ tr) ∧
      (answer = .complete → outcome = .complete ∧ ∀ ns ∈ namespaces, Verdict ns tr) := by
  induction namespaces generalizing outcome with
  | nil => exact ⟨.nil, by simp, by simp⟩
  | cons ns namespaces ih =>
    refine (visit_spec ns).seq Sweeping.append ?_
    intro answer tr _ visited
    have allChecked {tr' : Exchanges} (hrest : ∀ ns' ∈ namespaces, ∃ reply, Namespace.checked ns' reply ∈ tr') :
        ∀ ns' ∈ ns :: namespaces, ∃ reply, Namespace.checked ns' reply ∈ tr ++ tr' := by
      intro ns' hns'
      rcases List.mem_cons.1 hns' with rfl | hns'
      · obtain ⟨reply, hmem⟩ := visited.checked
        exact ⟨reply, List.mem_append_left _ hmem⟩
      · obtain ⟨reply, hmem⟩ := hrest ns' hns'
        exact ⟨reply, List.mem_append_right _ hmem⟩
    cases answer with
    | ok =>
      refine (ih outcome).mono (fun _ h => h) ?_
      rintro answer tr' _ ⟨hrest, hcomplete⟩
      refine ⟨allChecked hrest, fun hanswer => ?_⟩
      obtain ⟨houtcome, hverdicts⟩ := hcomplete hanswer
      refine ⟨houtcome, List.forall_mem_cons.2 ⟨?_, fun ns' hns' => ?_⟩⟩
      · exact (visited.verdict rfl).mono (List.prefix_append _ _).isInfix
      · exact (hverdicts ns' hns').mono (List.suffix_append _ _).isInfix
    | error e =>
      refine (ih .incomplete).mono (fun _ h => h) ?_
      rintro answer tr' _ ⟨hrest, hcomplete⟩
      refine ⟨allChecked hrest, fun hanswer => ?_⟩
      cases (hcomplete hanswer).1

/-! ## The whole pass -/

section

variable (deserialize : Document → Except Error Document)

/-- Every database `listDatabases` named was listed to the end of its cursor, there are
collections if there are databases, and every entry that is not a view has its verdict. -/
def Checked (tr : Exchanges) : Prop :=
  ∃ (reply : Document) (databases : List Bson) (listings : List Listing),
    commanded "admin" listDatabasesCommand (.ok reply) ∈ tr ∧
    Document.get "databases" reply = some (.array databases) ∧
    databases.map databaseName = listings.map (fun l => some l.database) ∧
    (∀ l ∈ listings, l.exchanges <:+: tr ∧ l.ToTheEnd deserialize) ∧
    (databases ≠ [] → ∃ l ∈ listings, ∃ entry ∈ l.entries, isCollection entry = true) ∧
    ∀ l ∈ listings, ∀ entry ∈ l.entries, isCollection entry = true →
      ∃ name, Document.getStr "name" entry = some name ∧ Verdict ⟨l.database, name⟩ tr

/-- A page of collections the engine sent. -/
def Page (tr : Exchanges) (database : String) (documents : List Document) : Prop :=
  ∃ reply id,
    (commanded database listCollectionsCommand (.ok reply) ∈ tr ∧
      takeCursorBatch reply "firstBatch" = .ok (id, documents)) ∨
    ∃ cursor, commanded database (getMoreCommand cursor LIST_COLLECTIONS) (.ok reply) ∈ tr ∧
      takeCursorBatch reply "nextBatch" = .ok (id, documents)

/-- Once a collection is checked all are: every entry of every page that is not a view. -/
def Swept (tr : Exchanges) : Prop :=
  (∃ ns reply, Namespace.checked ns reply ∈ tr) → ∀ database documents, Page tr database documents →
    ∀ document ∈ documents, ∃ entry, deserialize document = .ok entry ∧ (isCollection entry = true →
      ∃ name, Document.getStr "name" entry = some name ∧
        ∃ reply, Namespace.checked ⟨database, name⟩ reply ∈ tr)

variable {deserialize}

/-- A directory that was checked is so whatever comes before or after. -/
theorem Checked.mono {tr tr' : Exchanges} (h : Checked deserialize tr) (hpart : tr <:+: tr') :
    Checked deserialize tr' := by
  obtain ⟨reply, databases, listings, hmem, hget, hnames, htoTheEnd, hlisted, hverdicts⟩ := h
  refine ⟨reply, databases, listings, hpart.subset hmem, hget, hnames, ?_, hlisted, ?_⟩
  · intro l hl
    exact ⟨(htoTheEnd l hl).1.trans hpart, (htoTheEnd l hl).2⟩
  · intro l hl entry hentry hcollection
    obtain ⟨name, hname, hverdict⟩ := hverdicts l hl entry hentry hcollection
    exact ⟨name, hname, hverdict.mono hpart⟩

/-- Only the commands of a trace matter to `Swept`. -/
theorem Swept.congr {tr tr' : Exchanges} (h : Swept deserialize tr)
    (same : ∀ database command reply, commanded database command reply ∈ tr' ↔ commanded database command reply ∈ tr) :
    Swept deserialize tr' := by
  have checked (ns : Namespace) (reply : Except Error Document) : ns.checked reply ∈ tr' ↔ ns.checked reply ∈ tr :=
    same _ _ _
  simpa only [Swept, Page, same, checked] using h

/-- Every document of a page was read as an entry. -/
theorem exists_entry_of_read {documents entries : List Document}
    (read : documents.map deserialize = entries.map .ok) {document : Document} (h : document ∈ documents) :
    ∃ entry ∈ entries, deserialize document = .ok entry := by
  have hmem : deserialize document ∈ entries.map .ok := by
    rw [← read]
    exact List.mem_map_of_mem h
  obtain ⟨entry, hentry, heq⟩ := List.mem_map.1 hmem
  exact ⟨entry, hentry, heq.symm⟩

/-- So was every one of the page at hand. -/
theorem Pages.atHand {database : String} {id : Int64} {documents entries : List Document} {tr : Exchanges}
    (h : Pages deserialize database id documents tr entries) {document : Document} (hd : document ∈ documents) :
    ∃ entry ∈ entries, deserialize document = .ok entry := by
  cases h with
  | last read => exact exists_entry_of_read read hd
  | more opened read next rest =>
    obtain ⟨entry, hentry, heq⟩ := exists_entry_of_read read hd
    exact ⟨entry, List.mem_append_left _ hentry, heq⟩

/-- The entries of a listing are those of all its pages. -/
theorem Pages.page {database database' : String} {id : Int64} {documents documents' entries : List Document}
    {tr : Exchanges} (h : Pages deserialize database id documents tr entries) (hpage : Page tr database' documents') :
    database' = database ∧ ∀ document ∈ documents', ∃ entry ∈ entries, deserialize document = .ok entry := by
  induction h with
  | last read => simp [Page] at hpage
  | @more id id' documents documents'' entries entries' reply' tr opened read next rest ih =>
    have later (hpage : Page tr database' documents') : database' = database ∧
        ∀ document ∈ documents', ∃ entry ∈ entries ++ entries', deserialize document = .ok entry := by
      obtain ⟨hdatabase, hentries⟩ := ih hpage
      refine ⟨hdatabase, fun document hd => ?_⟩
      obtain ⟨entry, hentry, heq⟩ := hentries document hd
      exact ⟨entry, List.mem_append_right _ hentry, heq⟩
    obtain ⟨reply, next', ⟨hmem, hfirst⟩ | ⟨cursor, hmem, hnext⟩⟩ := hpage
    · rcases List.mem_cons.1 hmem with heq | hmem
      · simp [commanded_inj, listCollectionsCommand, getMoreCommand] at heq
      · exact later ⟨reply, next', .inl ⟨hmem, hfirst⟩⟩
    · rcases List.mem_cons.1 hmem with heq | hmem
      · obtain ⟨hdatabase, -, hreply⟩ := commanded_inj.1 heq
        cases hreply
        rw [next] at hnext
        cases hnext
        refine ⟨hdatabase, fun document hd => ?_⟩
        obtain ⟨entry, hentry, heq⟩ := rest.atHand hd
        exact ⟨entry, List.mem_append_right _ hentry, heq⟩
      · exact later ⟨reply, next', .inr ⟨cursor, hmem, hnext⟩⟩

/-- A listing to the end has an entry for every document of every page of its database. -/
theorem Listing.ToTheEnd.page {l : Listing} (h : l.ToTheEnd deserialize) {database : String}
    {documents : List Document} (hpage : Page l.exchanges database documents) :
    database = l.database ∧ ∀ document ∈ documents, ∃ entry ∈ l.entries, deserialize document = .ok entry := by
  obtain ⟨first, id, documents', tr, hexchanges, hfirst, hpages⟩ := h
  rw [hexchanges] at hpage
  obtain ⟨reply, next, ⟨hmem, htake⟩ | ⟨cursor, hmem, htake⟩⟩ := hpage
  · rcases List.mem_cons.1 hmem with heq | hmem
    · obtain ⟨hdatabase, -, hreply⟩ := commanded_inj.1 heq
      cases hreply
      rw [hfirst] at htake
      cases htake
      exact ⟨hdatabase, fun document hd => hpages.atHand hd⟩
    · exact hpages.page ⟨reply, next, .inl ⟨hmem, htake⟩⟩
  · rcases List.mem_cons.1 hmem with heq | hmem
    · simp [commanded_inj, listCollectionsCommand, getMoreCommand] at heq
    · exact hpages.page ⟨reply, next, .inr ⟨cursor, hmem, htake⟩⟩

/-- A page of a complete pass belongs to one of its listings. -/
theorem exists_listing_of_page {first : Document} {listings : List Listing} {tr : Exchanges}
    (sweeping : ∀ e ∈ tr, e.1.isCalled "validate" = true) {database : String} {documents : List Document}
    (hpage : Page (commanded "admin" listDatabasesCommand (.ok first) :: (listings.flatMap (·.exchanges) ++ tr))
      database documents) : ∃ l ∈ listings, Page l.exchanges database documents := by
  have among {command : Document} {reply : Document} (hne : command ≠ listDatabasesCommand)
      (hother : (Request.command database command).isCalled "validate" = false)
      (hmem : commanded database command (.ok reply) ∈
        commanded "admin" listDatabasesCommand (.ok first) :: (listings.flatMap (·.exchanges) ++ tr)) :
      ∃ l ∈ listings, commanded database command (.ok reply) ∈ l.exchanges := by
    rcases List.mem_cons.1 hmem with heq | hmem
    · exact absurd (commanded_inj.1 heq).2.1 hne
    · rcases List.mem_append.1 hmem with hmem | hmem
      · exact List.mem_flatMap.1 hmem
      · have hvalidate : (Request.command database command).isCalled "validate" = true := sweeping _ hmem
        rw [hother] at hvalidate
        cases hvalidate
  obtain ⟨reply, next, ⟨hmem, htake⟩ | ⟨cursor, hmem, htake⟩⟩ := hpage
  · obtain ⟨l, hl, hmem⟩ := among (by simp [listCollectionsCommand, listDatabasesCommand])
      (by simp [listCollectionsCommand, Request.isCalled]) hmem
    exact ⟨l, hl, reply, next, .inl ⟨hmem, htake⟩⟩
  · obtain ⟨l, hl, hmem⟩ := among (by simp [getMoreCommand, listDatabasesCommand])
      (by simp [getMoreCommand, Request.isCalled]) hmem
    exact ⟨l, hl, reply, next, .inr ⟨cursor, hmem, htake⟩⟩

/-- While the pass is listing nothing is checked yet. -/
theorem Enumerating.swept {tr : Exchanges} (h : Enumerating tr) : Swept deserialize tr := by
  rintro ⟨ns, reply, hmem⟩
  have := (h _ hmem).2
  rw [ns.checked_isCalled] at this
  cases this

/-- The collections of the catalogue, once each has a verdict, are all that were listed. -/
theorem Catalogued.swept {first : Document} {databases : List Bson} {listings : List Listing}
    {namespaces : List Namespace} {tr : Exchanges} (h : Catalogued deserialize databases listings namespaces)
    (sweeping : Sweeping tr) (checked : ∀ ns ∈ namespaces, ∃ reply, Namespace.checked ns reply ∈ tr) :
    Swept deserialize (commanded "admin" listDatabasesCommand (.ok first) :: (listings.flatMap (·.exchanges) ++ tr)) := by
  intro _ database documents hpage document hd
  obtain ⟨l, hl, hpage⟩ := exists_listing_of_page sweeping.2 hpage
  obtain ⟨rfl, hentries⟩ := (h.toTheEnd l hl).page hpage
  obtain ⟨entry, hentry, heq⟩ := hentries document hd
  refine ⟨entry, heq, fun hcollection => ?_⟩
  obtain ⟨name, hname, hns⟩ := h.named l hl entry hentry hcollection
  obtain ⟨reply, hmem⟩ := checked _ hns
  exact ⟨name, hname, reply, List.mem_cons_of_mem _ (List.mem_append_right _ hmem)⟩

/-- A catalogue that was swept is a directory that was checked. -/
theorem Catalogued.checked {first : Document} {databases : List Bson} {listings : List Listing}
    {namespaces : List Namespace} {tr : Exchanges} (h : Catalogued deserialize databases listings namespaces)
    (hget : Document.get "databases" first = some (.array databases)) (hsome : databases ≠ [] → namespaces ≠ [])
    (verdicts : ∀ ns ∈ namespaces, Verdict ns tr) :
    Checked deserialize (commanded "admin" listDatabasesCommand (.ok first) :: (listings.flatMap (·.exchanges) ++ tr)) := by
  refine ⟨first, databases, listings, List.mem_cons_self, hget, h.databases, ?_, ?_, ?_⟩
  · intro l hl
    refine ⟨?_, h.toTheEnd l hl⟩
    have hflat : l.exchanges <:+: listings.flatMap (·.exchanges) := by
      rw [List.flatMap_def]
      exact List.infix_of_mem_flatten (List.mem_map_of_mem hl)
    exact (hflat.trans (List.prefix_append _ _).isInfix).trans (List.suffix_cons _ _).isInfix
  · intro hne
    exact h.listed (hsome hne)
  · intro l hl entry hentry hcollection
    obtain ⟨name, hname, hns⟩ := h.named l hl entry hentry hcollection
    refine ⟨name, hname, (verdicts _ hns).mono ?_⟩
    exact (List.suffix_append _ _).isInfix.trans (List.suffix_cons _ _).isInfix

/-- Nothing but commands, with every repair attended to. -/
def Passing (tr : Exchanges) : Prop := Attended tr ∧ ∀ e ∈ tr, e.1.isCommand = true

theorem Passing.append (tr tr' : Exchanges) (h : Passing tr) (h' : Passing tr') : Passing (tr ++ tr') :=
  ⟨h.1.append h'.1, List.forall_mem_append.2 ⟨h.2, h'.2⟩⟩

theorem Enumerating.passing {tr : Exchanges} (h : Enumerating tr) : Passing tr :=
  ⟨h.attended, fun e he => (h e he).1⟩

/-- A sweep repairs only what it checked, and asks for nothing but commands. -/
theorem Sweeping.passing {tr : Exchanges} (h : Sweeping tr) : Passing tr :=
  ⟨h.1, fun e he => Request.isCommand_of_isCalled (h.2 e he)⟩

/-- What comes of a pass. -/
structure Passed (deserialize : Document → Except Error Document) (patience : Nat) (answer : Option Outcome)
    (tr : Exchanges) : Prop where
  checked : answer = some .complete → Checked deserialize tr
  swept : Swept deserialize tr
  cut : answer = none → patience ≤ getMores tr

/-- The pass: what it repaired it had found damaged, and if it was complete it checked the directory. -/
theorem pass_spec (patience : Nat) : (pass deserialize patience).Traces Passing (Passed deserialize patience) := by
  have listed := (@namespaces_spec deserialize patience).mono
    (fun _ h => h.passing) (fun _ _ h hPost => And.intro h hPost)
  refine listed.seq Passing.append ?_
  rintro answer tr _ ⟨henumerating, hcatalog, hcut⟩
  match answer with
  | none => exact ⟨Enumerating.nil.passing, by simp, by simpa using henumerating.swept, by simpa using hcut⟩
  | some (.error e) => exact ⟨Enumerating.nil.passing, by simp, by simpa using henumerating.swept, by simp⟩
  | some (.ok catalog) =>
    obtain ⟨reply, databases, listings, rfl, hget, hdatabases, hcatalogued⟩ := hcatalog catalog rfl
    dsimp only
    split
    · exact ⟨Enumerating.nil.passing, by simp, by simpa using henumerating.swept, by simp⟩
    · rename_i hsome
      have some_collection (hne : databases ≠ []) : catalog.namespaces ≠ [] := by
        intro hnil
        exact hsome ⟨by rw [hdatabases]; exact List.length_pos_iff.2 hne, hnil⟩
      have swept := (sweep_spec catalog.namespaces .complete).mono
        (fun _ h => h.passing) (fun _ _ h hPost => And.intro h hPost)
      refine swept.seq Passing.append ?_
      rintro answer tr _ ⟨hsweeping, hchecked, hcomplete⟩
      refine ⟨Enumerating.nil.passing, ?_, ?_, by simp⟩
      · intro hanswer
        cases hanswer
        rw [List.append_nil]
        exact hcatalogued.checked hget some_collection (hcomplete rfl).2
      · rw [List.append_nil]
        exact hcatalogued.swept hsweeping hchecked

end

end EmbeddedMongo.Repair
