import EmbeddedMongo.Conc.Tenancy
import EmbeddedMongo.Limits.Moves

/-!
# Opens, one client after another

The floors are server parameters of the process: they outlive the client that moved them. Every
`Client::open` therefore establishes its own, and one that names no floor the engine's, which
are observable only before the first write of the process. The clients of a process follow one
another, any open may fail at any request, and while a client is open any number of threads
move the floors and read them. They are interleaved here request by request: `FloorMoves` takes
some of these interleavings away, and no result of this module needs that.
-/

namespace EmbeddedMongo.Limits

open Conc Dialogue

/-- What the threads of an open client do with the floors. -/
inductive Use where
  | move (floor : FreeDiskFloor)
  | read

def Use.op : Use → Op
  | .move floor => .move floor
  | .read => .read

/-- The pair the process started with is on record, or still in force. -/
def Knowable (start : ReportedFloors) (s : Floors) : Prop :=
  s.recorded = none ∧ s.knobs = start ∨ s.recorded = some start

theorem Knowable.own {start : ReportedFloors} {s : Floors} (h : Knowable start s) : s.own = start := by
  rcases h with ⟨hrecorded, hknobs⟩ | hrecorded <;> simp [Floors.own, *]

theorem Knowable.recording {start : ReportedFloors} {s s' : Floors} (h : Knowable start s) (hs : Recording s s') :
    Knowable start s' := by
  rcases hs with ⟨hrecorded, hknobs⟩ | hrecorded
  · unfold Knowable
    rw [hrecorded, hknobs]
    exact h
  · rw [h.own] at hrecorded
    exact .inr hrecorded

section

variable [BsonDebug]

/-- `Client::open`, as far as the floors go. The repair pass that ends it sends no `setParameter`
and cannot fail. -/
def openClient (requested : Option FreeDiskFloor) : Program (Except Error Unit) :=
  .ask .native fun
    | .error e => .ret (.error e)
    | .ok _ => establish requested

/-- A client is open once `Client::open` has answered it. -/
def clientLease : Lease Floors (Option FreeDiskFloor) Use Request Reply (Except Error Unit) Outcome where
  serve := Floors.serve
  opening := openClient
  succeeded r := r.isOk
  use u := u.op.run

/-- The clients of a process whose engine starts with the pair `start`. -/
def clients (start : ReportedFloors) :
    System (Tenancy Floors (Option FreeDiskFloor) Request Reply (Except Error Unit) Outcome)
      (Tenancy.Act (Option FreeDiskFloor) Use) :=
  tenancy clientLease fun s => s.knobs = start ∧ s.recorded = none

/-! ## The opens -/

theorem openClient_spec {start : ReportedFloors} (requested : Option FreeDiskFloor) {s : Floors}
    (h : Knowable start s) :
    (openClient requested).Always Floors.serve (Knowable start)
      (fun a s' => a = .ok () → s'.recorded = some start ∧ s'.knobs = (requested.map FreeDiskFloor.pair).getD start)
      s := by
  refine ⟨h, ?_⟩
  rintro reply t ht
  obtain rfl : t = s := ht
  cases reply with
  | error e => exact ⟨h, nofun⟩
  | ok =>
    have hspec := establish_spec requested t
    rw [h.own] at hspec
    exact hspec.mono (fun _ hr => h.recording hr) (fun _ _ hpost => hpost)

/-- No thread of an open client touches the record. -/
theorem run_sends_admin (u : Use) : u.op.run.Sends fun q => ∃ command, q = .admin command := by
  cases u with
  | move floor => exact (Sends.via (fun command => ⟨command, rfl⟩) _).map
  | read => exact (Sends.via (fun command => ⟨command, rfl⟩) _).map

theorem clientLease_keeps (start : ReportedFloors) :
    Tenancy.Keeps clientLease (fun s => s.knobs = start ∧ s.recorded = none) (Knowable start)
      (fun s => s.recorded = some start) (fun q => ∃ command, q = .admin command)
      (fun requested a s => a = .ok () → s.knobs = (requested.map FreeDiskFloor.pair).getD start) where
  start s h := .inl ⟨h.2, h.1⟩
  opening requested s h := by
    apply (openClient_spec requested h).mono (fun _ h => h)
    intro a s' hpost
    refine ⟨fun hok => (hpost hok).2, ?_⟩
    intro hok
    cases a with
    | ok => exact (hpost rfl).1
    | error => cases hok
  sends := run_sends_admin
  use := by
    rintro s q r s' h ⟨command, rfl⟩ ⟨knobs, -, rfl⟩
    exact h
  vacant s h := .inr h

/-- Nothing takes a recorded pair off the record. -/
theorem serve_keeps_record (s : Floors) (q : Request) (r : Reply q) (s' : Floors) (h : s.recorded.isSome)
    (hs : s.serve q r s') : s'.recorded.isSome := by
  cases q with
  | native =>
    obtain rfl : s' = s := hs
    exact h
  | admin command =>
    obtain ⟨knobs, -, rfl⟩ := hs
    exact h
  | consult =>
    obtain ⟨-, rfl⟩ := hs
    exact h
  | record floors =>
    obtain rfl : s' = { s with recorded := some floors } := hs
    rfl

/-- **An open that names no floor runs on MongoDB's own.** In every run of a process the record
is empty or holds the pair the process started with, and does not change once it is set; and an
open that succeeds leaves that pair if it named no floor and the pair of the floor it named
otherwise, whatever failed opens and earlier clients left behind. -/
theorem opens_run_on_the_floors_they_name {start : ReportedFloors}
    {s : Tenancy Floors (Option FreeDiskFloor) Request Reply (Except Error Unit) Outcome}
    (h : (clients start).Reach s) :
    (s.shared.recorded = none ∨ s.shared.recorded = some start) ∧
    (∀ s' pair, (clients start).Steps s s' → s.shared.recorded = some pair → s'.shared.recorded = some pair) ∧
    (∀ o ∈ s.openings, o.answer = .ok () → o.options = none → o.after.knobs = start) ∧
    (∀ o ∈ s.openings, o.answer = .ok () → ∀ floor, o.options = some floor → o.after.knobs.Stands floor) := by
  have record : ∀ {t}, (clients start).Reach t → t.shared.recorded = none ∨ t.shared.recorded = some start := by
    intro t ht
    rcases (Tenancy.kept_of_reach (clientLease_keeps start) ht).vacant with ⟨hnone, -⟩ | hsome
    · exact .inl hnone
    · exact .inr hsome
  have openings := (Tenancy.kept_of_reach (clientLease_keeps start) h).openings
  refine ⟨record h, ?_, ?_, ?_⟩
  · intro s' pair hsteps hpair
    have hsome : s'.shared.recorded.isSome := by
      apply System.Steps.keep (I := fun t => t.shared.recorded.isSome) hsteps h (by rw [hpair]; rfl)
      intro t a t' _ hrecorded hs
      exact Tenancy.Step.shared (I := fun f => f.recorded.isSome) serve_keeps_record hs hrecorded
    rcases record (h.steps hsteps) with hnone | hstart
    · rw [hnone] at hsome
      cases hsome
    · rcases record h with hnone | hsame
      · rw [hnone] at hpair
        cases hpair
      · rw [hstart, ← hsame, hpair]
  · intro o ho hok hnone
    have hknobs := openings o ho hok
    rwa [hnone] at hknobs
  · intro o ho hok floor hfloor
    have hknobs := openings o ho hok
    rw [hfloor] at hknobs
    rw [hknobs]
    exact pair_stands floor

end

/-- The first open of the process names a floor and is refused its second command, which leaves
half a pair in force; the second names none. -/
theorem opens_run_on_the_floors_they_name_past_a_failed_open :
    ∃ (_ : BsonDebug) (s : Tenancy Floors (Option FreeDiskFloor) Request Reply (Except Error Unit) Outcome),
      (clients Floors.odd.knobs).Reach s ∧
      s.openings.map Opening.options = [some ⟨32, by decide⟩, none] ∧
      s.openings.map Opening.answer = [.error (.native "refused"), .ok ()] ∧
      ∀ o ∈ s.openings, o.options = none → o.after.knobs = Floors.odd.knobs := by
  let floor : FreeDiskFloor := ⟨32, by decide⟩
  refine ⟨⟨fun _ => ""⟩, ?_⟩
  let _ : BsonDebug := ⟨fun _ => ""⟩
  have h : (clients Floors.odd.knobs).Reach ⟨.odd, .closed, [], []⟩ := .init ⟨⟨rfl, rfl⟩, rfl, rfl, rfl⟩
  have h := h.next (.beginOpen (some floor) rfl)
  have h := h.next (.talkOpen (r := .ok ()) rfl rfl)
  have h := h.next (.talkOpen (r := none) rfl ⟨rfl, rfl⟩)
  have h := h.next (.talkOpen rfl (Floors.serve_reported _))
  have h := h.next (.talkOpen (r := ()) rfl rfl)
  have h := h.next (.talkOpen rfl (Floors.serve_indexBuild _ floor.pair []))
  have h := h.next (.talkOpen rfl (Floors.serve_refused _ _ (e := .native "refused") rfl))
  have h := h.next (.endOpen rfl)
  have h := h.next (.beginOpen none rfl)
  have h := h.next (.talkOpen (r := .ok ()) rfl rfl)
  have h := h.next (.talkOpen (r := some Floors.odd.knobs) rfl ⟨rfl, rfl⟩)
  have h := h.next (.talkOpen rfl (Floors.serve_indexBuild _ Floors.odd.knobs []))
  have h := h.next (.talkOpen rfl (Floors.serve_querySpilling _ Floors.odd.knobs []))
  have h := h.next (.endOpen rfl)
  obtain ⟨s, after, after', h, hopenings⟩ :
      ∃ s after after', (clients Floors.odd.knobs).Reach s ∧
        s.openings = [⟨some floor, .error (.native "refused"), after⟩, ⟨none, .ok (), after'⟩] :=
    ⟨_, _, _, h, rfl⟩
  refine ⟨s, h, by simp [hopenings, floor], by simp [hopenings], ?_⟩
  intro o ho hnone
  have hok : o.answer = .ok () := by
    simp only [hopenings, List.mem_cons, List.not_mem_nil, or_false] at ho
    rcases ho with rfl | rfl
    · cases hnone
    · rfl
  exact (opens_run_on_the_floors_they_name h).2.2.1 o ho hok hnone

end EmbeddedMongo.Limits
