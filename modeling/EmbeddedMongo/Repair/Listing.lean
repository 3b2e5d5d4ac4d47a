import EmbeddedMongo.Repair.Pass

/-!
# Listing the collections to the end

What the engine has to have replied when `namespaces` succeeds: a page for every cursor it left
open, up to the one that closed it, for every database it named. Nothing else is asked of it
while the pass is still listing.
-/

namespace EmbeddedMongo.Repair

open Conc Dialogue

/-- What was requested and replied, in order. -/
abbrev Exchanges := List (Exchange Request Reply)

/-- A command and what came of it. -/
def commanded (database : String) (command : Document) (reply : Except Error Document) : Exchange Request Reply :=
  ⟨.command database command, reply⟩

namespace Request

/-- It goes to the engine. -/
def isCommand : Request → Bool
  | .command _ _ => true
  | _ => false

/-- A command by its first field. -/
def isCalled (name : String) : Request → Bool
  | .command _ ((key, _) :: _) => key == name
  | _ => false

end Request

/-- How often a trace asked a cursor for another page. -/
def getMores (tr : Exchanges) : Nat := tr.countP fun e => e.1.isCalled "getMore"

theorem getMores_cons_le (e : Exchange Request Reply) (tr : Exchanges) : getMores tr ≤ getMores (e :: tr) :=
  List.Sublist.countP_le (List.sublist_cons_self e tr)

theorem getMores_append_le (tr tr' : Exchanges) : getMores tr' ≤ getMores (tr ++ tr') :=
  List.Sublist.countP_le (List.sublist_append_right tr tr')

section

variable (deserialize : Document → Except Error Document)

/-- The pages of one cursor from `id` and the documents at hand on, and the entries on them. -/
inductive Pages (database : String) : Int64 → List Document → Exchanges → List Document → Prop where
  | last {documents entries : List Document} (read : documents.map deserialize = entries.map .ok) :
      Pages database 0 documents [] entries
  | more {id id' : Int64} {documents documents' entries entries' : List Document} {reply : Document} {tr : Exchanges}
      (opened : id ≠ 0) (read : documents.map deserialize = entries.map .ok)
      (next : takeCursorBatch reply "nextBatch" = .ok (id', documents'))
      (rest : Pages database id' documents' tr entries') :
      Pages database id documents (commanded database (getMoreCommand id LIST_COLLECTIONS) (.ok reply) :: tr)
        (entries ++ entries')

/-- One database's `listCollections`, and the entries it gave. -/
structure Listing where
  database : String
  exchanges : Exchanges
  entries : List Document

/-- Every page was answered, up to the one that closed the cursor. -/
def Listing.ToTheEnd (l : Listing) : Prop :=
  ∃ reply id documents tr, l.exchanges = commanded l.database listCollectionsCommand (.ok reply) :: tr ∧
    takeCursorBatch reply "firstBatch" = .ok (id, documents) ∧ Pages deserialize l.database id documents tr l.entries

/-- The namespaces are those of the entries that are not views, each of which has a name. -/
structure Named (database : String) (entries : List Document) (namespaces : List Namespace) : Prop where
  named : ∀ entry ∈ entries, isCollection entry = true →
    ∃ name, Document.getStr "name" entry = some name ∧ ⟨database, name⟩ ∈ namespaces
  listed : namespaces ≠ [] → ∃ entry ∈ entries, isCollection entry = true

variable {deserialize}

/-- The collections of two stretches of entries are those of each. -/
theorem Named.append {database : String} {entries entries' : List Document} {namespaces namespaces' : List Namespace}
    (h : Named database entries namespaces) (h' : Named database entries' namespaces') :
    Named database (entries ++ entries') (namespaces ++ namespaces') := by
  constructor
  · intro entry hentry hcollection
    rcases List.mem_append.1 hentry with hentry | hentry
    · obtain ⟨name, hname, hmem⟩ := h.named entry hentry hcollection
      exact ⟨name, hname, List.mem_append_left _ hmem⟩
    · obtain ⟨name, hname, hmem⟩ := h'.named entry hentry hcollection
      exact ⟨name, hname, List.mem_append_right _ hmem⟩
  · intro hne
    by_cases hnil : namespaces = []
    · rw [hnil, List.nil_append] at hne
      obtain ⟨entry, hentry, hcollection⟩ := h'.listed hne
      exact ⟨entry, List.mem_append_right _ hentry, hcollection⟩
    · obtain ⟨entry, hentry, hcollection⟩ := h.listed hnil
      exact ⟨entry, List.mem_append_left _ hentry, hcollection⟩

/-- A page that was read added the collections among its entries, in order. -/
theorem push_spec {database : String} {documents : List Document} {namespaces found : List Namespace}
    (h : push deserialize database documents namespaces = .ok found) :
    ∃ entries named, documents.map deserialize = entries.map .ok ∧ found = namespaces ++ named ∧
      Named database entries named := by
  induction documents generalizing namespaces with
  | nil =>
    cases h
    exact ⟨[], [], rfl, by simp, by simp, by simp⟩
  | cons document documents ih =>
    unfold push at h
    split at h
    · cases h
    · rename_i entry hentry
      split at h
      · rename_i hview
        obtain ⟨entries, named, hread, hfound, hnamed⟩ := ih h
        have skipped : Named database [entry] [] := ⟨by simp [hview], by simp⟩
        exact ⟨entry :: entries, named, by simp [hentry, hread], hfound, skipped.append hnamed⟩
      · rename_i hcollection
        split at h
        · cases h
        · rename_i name hname
          obtain ⟨entries, named, hread, hfound, hnamed⟩ := ih h
          have pushed : Named database [entry] [⟨database, name⟩] :=
            ⟨by simp [hname], fun _ => ⟨entry, by simp, by simpa using hcollection⟩⟩
          exact ⟨entry :: entries, ⟨database, name⟩ :: named, by simp [hentry, hread], by simp [hfound],
            pushed.append hnamed⟩

/-- Only commands so far, and no collection is touched. -/
def Enumerating (tr : Exchanges) : Prop :=
  ∀ e ∈ tr, e.1.isCommand = true ∧ e.1.isCalled "validate" = false

theorem Enumerating.nil : Enumerating [] := by
  intro e he
  cases he

/-- Listings in a row are listings. -/
theorem Enumerating.append (tr tr' : Exchanges) (h : Enumerating tr) (h' : Enumerating tr') :
    Enumerating (tr ++ tr') :=
  List.forall_mem_append.2 ⟨h, h'⟩

/-- Any command but `validate` may be part of a listing. -/
theorem Enumerating.cons {database : String} {command : Document}
    (other : (Request.command database command).isCalled "validate" = false) (reply : Except Error Document)
    (tr : Exchanges) (h : Enumerating tr) : Enumerating (⟨.command database command, reply⟩ :: tr) :=
  List.forall_mem_cons.2 ⟨⟨rfl, other⟩, h⟩

theorem dropCursor_spec {α : Type} {database : String} {id : Int64} {a : α} {Post : α → Exchanges → Prop}
    (h : ∀ tr, Post a tr) : (dropCursor database id (.ret a)).Traces Enumerating Post := by
  unfold dropCursor
  split
  · exact ⟨.nil, h []⟩
  · apply Traces.ask
    · exact .nil
    · exact Enumerating.cons (by simp [killCursorsCommand, Request.isCalled])
    · intro reply
      exact ⟨.nil, h _⟩

/-- What an answer of `pages` says of the pages it has read. -/
structure PagesRead (deserialize : Document → Except Error Document) (database : String) (patience : Nat) (id : Int64)
    (documents : List Document) (namespaces : List Namespace) (answer : Option (Except Error (List Namespace)))
    (tr : Exchanges) : Prop where
  found : ∀ found, answer = some (.ok found) → ∃ entries named, Pages deserialize database id documents tr entries ∧
    found = namespaces ++ named ∧ Named database entries named
  cut : answer = none → patience ≤ getMores tr

/-- A listing that failed says nothing. -/
theorem PagesRead.error {database : String} {patience : Nat} {id : Int64} {documents : List Document}
    {namespaces : List Namespace} {e : Error} (tr : Exchanges) :
    PagesRead deserialize database patience id documents namespaces (some (.error e)) tr :=
  ⟨by simp, by simp⟩

/-- A listing whose last page is at hand has been read. -/
theorem PagesRead.last {database : String} {documents : List Document} {namespaces found : List Namespace}
    (patience : Nat) (hpush : push deserialize database documents namespaces = .ok found) :
    PagesRead deserialize database patience 0 documents namespaces (some (.ok found)) [] := by
  obtain ⟨entries, named, hread, hfound, hnamed⟩ := push_spec hpush
  refine ⟨?_, by simp⟩
  rintro _ ⟨⟩
  exact ⟨entries, named, .last hread, hfound, hnamed⟩

/-- A page that was answered, before the rest. -/
theorem PagesRead.more {database : String} {patience : Nat} {id id' : Int64} {documents documents' : List Document}
    {namespaces pushed : List Namespace} {reply : Document} {answer : Option (Except Error (List Namespace))}
    {tr : Exchanges} (opened : id ≠ 0) (hpush : push deserialize database documents namespaces = .ok pushed)
    (hnext : takeCursorBatch reply "nextBatch" = .ok (id', documents'))
    (h : PagesRead deserialize database patience id' documents' pushed answer tr) :
    PagesRead deserialize database (patience + 1) id documents namespaces answer
      (commanded database (getMoreCommand id LIST_COLLECTIONS) (.ok reply) :: tr) := by
  obtain ⟨entries, named, hread, hpushed, hnamed⟩ := push_spec hpush
  constructor
  · intro found hanswer
    obtain ⟨entries', named', hpages, hfound, hnamed'⟩ := h.found found hanswer
    refine ⟨entries ++ entries', named ++ named', .more opened hread hnext hpages, ?_, hnamed.append hnamed'⟩
    rw [hfound, hpushed, List.append_assoc]
  · intro hanswer
    have hmore : getMores (commanded database (getMoreCommand id LIST_COLLECTIONS) (.ok reply) :: tr) =
        getMores tr + 1 := by
      simp [getMores, commanded, getMoreCommand, Request.isCalled]
    have := h.cut hanswer
    omega

/-- From any page on, the listing answers with the collections of all the entries that were left, or
fails, or patience ran out. -/
theorem pages_spec (database : String) (patience : Nat) (id : Int64) (documents : List Document)
    (namespaces : List Namespace) :
    (pages deserialize database patience id documents namespaces).Traces Enumerating
      (PagesRead deserialize database patience id documents namespaces) := by
  -- Induction on the patience: each page but the last takes one request of it.
  induction patience generalizing id documents namespaces with
  | zero =>
    unfold pages
    split
    · exact dropCursor_spec .error
    · rename_i hpush
      split
      · rename_i hid
        subst hid
        exact ⟨.nil, .last 0 hpush⟩
      · exact ⟨.nil, by simp, by simp⟩
  | succ patience ih =>
    unfold pages
    split
    · exact dropCursor_spec .error
    · rename_i hpush
      split
      · rename_i hid
        subst hid
        exact ⟨.nil, .last _ hpush⟩
      · rename_i hid
        apply Traces.ask
        · exact .nil
        · exact Enumerating.cons (by simp [getMoreCommand, Request.isCalled])
        · intro reply
          cases reply with
          | error e => exact dropCursor_spec fun _ => .error _
          | ok reply =>
            dsimp only
            split
            · exact dropCursor_spec fun _ => .error _
            · rename_i hnext
              refine (ih _ _ _).mono (fun _ h => h) ?_
              intro answer tr _ h
              exact .more hid hpush hnext h

/-- So from the first page: the collections of a database are those of a listing to its end. -/
theorem collections_spec (patience : Nat) (database : String) :
    (collections deserialize patience database).Traces Enumerating fun answer tr =>
      (∀ found, answer = some (.ok found) →
        ∃ entries, Listing.ToTheEnd deserialize ⟨database, tr, entries⟩ ∧ Named database entries found) ∧
      (answer = none → patience ≤ getMores tr) := by
  apply Traces.ask
  · exact .nil
  · exact Enumerating.cons (by simp [listCollectionsCommand, Request.isCalled])
  · intro reply
    cases reply with
    | error e => exact ⟨.nil, by simp, by simp⟩
    | ok reply =>
      dsimp only
      split
      · exact ⟨.nil, by simp, by simp⟩
      · rename_i id documents hfirst
        refine (pages_spec database patience id documents []).mono (fun _ h => h) ?_
        intro answer tr _ h
        constructor
        · intro found hanswer
          obtain ⟨entries, named, hpages, hfound, hnamed⟩ := h.found found hanswer
          rw [List.nil_append] at hfound
          subst hfound
          exact ⟨entries, ⟨reply, id, documents, tr, rfl, hfirst, hpages⟩, hnamed⟩
        · intro hanswer
          exact Nat.le_trans (h.cut hanswer) (getMores_cons_le _ _)

/-- The databases the engine named, each listed to the end of its cursor, and the collections
that came of it. -/
structure Catalogued (deserialize : Document → Except Error Document) (databases : List Bson) (listings : List Listing)
    (namespaces : List Namespace) : Prop where
  databases : databases.map databaseName = listings.map fun l => some l.database
  toTheEnd : ∀ l ∈ listings, l.ToTheEnd deserialize
  named : ∀ l ∈ listings, ∀ entry ∈ l.entries, isCollection entry = true →
    ∃ name, Document.getStr "name" entry = some name ∧ ⟨l.database, name⟩ ∈ namespaces
  listed : namespaces ≠ [] → ∃ l ∈ listings, ∃ entry ∈ l.entries, isCollection entry = true

theorem Catalogued.cons {entry : Bson} {databases : List Bson} {l : Listing} {listings : List Listing}
    {found named : List Namespace} (hname : databaseName entry = some l.database) (hl : l.ToTheEnd deserialize)
    (hfound : Named l.database l.entries found) (h : Catalogued deserialize databases listings named) :
    Catalogued deserialize (entry :: databases) (l :: listings) (found ++ named) := by
  constructor
  · rw [List.map_cons, List.map_cons, hname, h.databases]
  · exact List.forall_mem_cons.2 ⟨hl, h.toTheEnd⟩
  · intro l' hl' entry hentry hcollection
    rcases List.mem_cons.1 hl' with rfl | hl'
    · obtain ⟨name, hname, hmem⟩ := hfound.named entry hentry hcollection
      exact ⟨name, hname, List.mem_append_left _ hmem⟩
    · obtain ⟨name, hname, hmem⟩ := h.named l' hl' entry hentry hcollection
      exact ⟨name, hname, List.mem_append_right _ hmem⟩
  · intro hne
    by_cases hnil : found = []
    · rw [hnil, List.nil_append] at hne
      obtain ⟨l, hl, hlisted⟩ := h.listed hne
      exact ⟨l, List.mem_cons_of_mem _ hl, hlisted⟩
    · exact ⟨l, List.mem_cons_self, hfound.listed hnil⟩

/-- The databases one after another. -/
theorem extend_spec (patience : Nat) (databases : List Bson) (namespaces : List Namespace) :
    (extend deserialize patience databases namespaces).Traces Enumerating fun answer tr =>
      (∀ found, answer = some (.ok found) → ∃ listings named, tr = listings.flatMap (·.exchanges) ∧
        found = namespaces ++ named ∧ Catalogued deserialize databases listings named) ∧
      (answer = none → patience ≤ getMores tr) := by
  induction databases generalizing namespaces with
  | nil =>
    refine ⟨.nil, ?_, by simp⟩
    rintro _ ⟨⟩
    exact ⟨[], [], rfl, by simp, rfl, by simp, by simp, by simp⟩
  | cons entry databases ih =>
    unfold extend
    split
    · exact ⟨.nil, by simp, by simp⟩
    · rename_i name hname
      refine (collections_spec patience name).seq Enumerating.append ?_
      rintro answer tr _ ⟨hlisted, hcut⟩
      match answer with
      | none => exact ⟨.nil, by simp, by simpa using hcut⟩
      | some (.error e) => exact ⟨.nil, by simp, by simp⟩
      | some (.ok found) =>
        obtain ⟨entries, htoTheEnd, hnamed⟩ := hlisted found rfl
        refine (ih (namespaces ++ found)).mono (fun _ h => h) ?_
        rintro answer' tr' _ ⟨hfound', hcut'⟩
        constructor
        · intro found' hanswer
          obtain ⟨listings, named, htr, rfl, hcatalogued⟩ := hfound' found' hanswer
          refine ⟨⟨name, tr, entries⟩ :: listings, found ++ named, by simp [htr], by simp, ?_⟩
          exact hcatalogued.cons hname htoTheEnd hnamed
        · intro hanswer
          exact Nat.le_trans (hcut' hanswer) (getMores_append_le _ _)

/-- **A catalog is complete.** -/
theorem namespaces_spec (patience : Nat) :
    (namespaces deserialize patience).Traces Enumerating fun answer tr =>
      (∀ catalog, answer = some (.ok catalog) → ∃ reply databases listings,
        tr = commanded "admin" listDatabasesCommand (.ok reply) :: listings.flatMap (·.exchanges) ∧
        Document.get "databases" reply = some (.array databases) ∧ catalog.databases = databases.length ∧
        Catalogued deserialize databases listings catalog.namespaces) ∧
      (answer = none → patience ≤ getMores tr) := by
  apply Traces.ask
  · exact .nil
  · exact Enumerating.cons (by simp [listDatabasesCommand, Request.isCalled])
  · intro reply
    cases reply with
    | error e => exact ⟨.nil, by simp, by simp⟩
    | ok reply =>
      dsimp only
      split
      · rename_i databases hdatabases
        refine (extend_spec patience databases []).seq Enumerating.append ?_
        rintro answer tr _ ⟨hfound, hcut⟩
        match answer with
        | none =>
          refine ⟨.nil, by simp, fun _ => ?_⟩
          rw [List.append_nil]
          exact Nat.le_trans (hcut rfl) (getMores_cons_le _ _)
        | some (.error e) => exact ⟨.nil, by simp, by simp⟩
        | some (.ok found) =>
          obtain ⟨listings, named, htr, rfl, hcatalogued⟩ := hfound found rfl
          refine ⟨.nil, ?_, by simp⟩
          rintro _ ⟨⟩
          exact ⟨reply, databases, listings, by rw [List.append_nil, htr]; rfl, hdatabases, rfl, hcatalogued⟩
      · exact ⟨.nil, by simp, by simp⟩

end

end EmbeddedMongo.Repair
