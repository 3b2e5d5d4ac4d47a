import EmbeddedMongo.Conc.Critical
import EmbeddedMongo.Limits.Process

/-!
# The floors move as whole pairs

Any number of threads that move the floors, read them or establish them at an open, all behind
one `FloorMoves`. One decision takes two commands; in every interleaving the engine is left on
a pair somebody chose.
-/

namespace EmbeddedMongo.Limits

open Conc Dialogue

/-- The functions that take the lock of `FloorMoves`. -/
inductive Op where
  | move (floor : FreeDiskFloor)
  | read
  | establish (requested : Option FreeDiskFloor)

/-- What each of them answers. -/
inductive Outcome where
  | moved (r : Except Error Unit)
  | read (r : Except Error ReportedFloors)
  | established (r : Except Error Unit)

section

variable [BsonDebug]

def Op.run : Op → Program Outcome
  | .move floor => (onAdmin (moveFreeDiskFloor floor)).map .moved
  | .read => (onAdmin reportedFloors).map .read
  | .establish requested => (Limits.establish requested).map .established

/-- The callers of one `FloorMoves` from a process in the state `start`. -/
def floorMoves (start : Floors) : System (Critical Floors Op Request Reply Outcome) (Critical.Act Op) :=
  critical Floors.serve Op.run fun s => s = start

end

/-- What a call did between taking the lock and releasing it. -/
inductive Did : Entry Op Outcome Floors → Prop where
  | move {floor : FreeDiskFloor} {before after : Floors} {r : Except Error Unit} (moved : Moved floor before r after)
      (recorded : after.recorded = before.recorded) : Did ⟨.move floor, before, .moved r, after⟩
  | read {before after : Floors} {r : Except Error ReportedFloors} (knobs : after.knobs = before.knobs)
      (reading : ∀ floors, r = .ok floors → floors = before.knobs) (recorded : after.recorded = before.recorded) :
      Did ⟨.read, before, .read r, after⟩
  | establish {requested : Option FreeDiskFloor} {before after : Floors} {r : Except Error Unit}
      (recording : Recording before after)
      (established : r = .ok () → after.recorded = some before.own ∧
        after.knobs = (requested.map FreeDiskFloor.pair).getD before.own) :
      Did ⟨.establish requested, before, .established r, after⟩

theorem run_did [BsonDebug] (op : Op) (s : Floors) :
    op.run.Always Floors.serve (fun _ => True) (fun a s' => Did ⟨op, s, a, s'⟩) s := by
  cases op with
  | move floor =>
    apply Always.map
    apply (Always.onAdmin ((moveFreeDiskFloor_spec floor s).and (admin_recorded _ s))).mono (fun _ _ => trivial)
    rintro r s' ⟨moved, recorded⟩
    exact .move moved recorded
  | read =>
    apply Always.map
    apply (Always.onAdmin ((reportedFloors_spec s).and (admin_recorded _ s))).mono (fun _ _ => trivial)
    rintro r s' ⟨⟨knobs, hr⟩, recorded⟩
    refine .read knobs ?_ recorded
    rintro floors rfl
    exact hr.1
  | establish requested =>
    apply Always.map
    apply (establish_spec requested s).ends.mono (fun _ _ => trivial)
    rintro r s' ⟨recording, established⟩
    exact .establish recording established

/-! ## Whose pair it is -/

/-- The call named the floor. -/
def Op.names (floor : FreeDiskFloor) (op : Op) : Prop := op = .move floor ∨ op = .establish (some floor)

/-- A pair that somebody chose: the one at the start, one that was recorded as the engine's
own, or that of a floor a caller named. -/
def Chosen (start : Floors) (log : List (Entry Op Outcome Floors)) (pair : ReportedFloors) : Prop :=
  pair = start.knobs ∨ start.recorded = some pair ∨ (∃ e ∈ log, e.after.recorded = some pair) ∨
    ∃ e ∈ log, ∃ floor, e.op.names floor ∧ pair.Stands floor

/-- An open that failed, or a move that could not be put back. -/
def Breaks (e : Entry Op Outcome Floors) : Prop :=
  (∃ err, e.result = .established (.error err)) ∨
    ∃ requested cause rollback, e.result = .moved (.error (.freeDiskFloorNotRestored requested cause rollback))

theorem Chosen.append {start : Floors} {log : List (Entry Op Outcome Floors)} {pair : ReportedFloors}
    (h : Chosen start log pair) (e : Entry Op Outcome Floors) : Chosen start (log ++ [e]) pair := by
  rcases h with h | h | ⟨d, hd, h⟩ | ⟨d, hd, h⟩
  · exact .inl h
  · exact .inr (.inl h)
  · exact .inr (.inr (.inl ⟨d, List.mem_append_left _ hd, h⟩))
  · exact .inr (.inr (.inr ⟨d, List.mem_append_left _ hd, h⟩))

/-- What holds while the lock is free. -/
structure Whole (start : Floors) (log : List (Entry Op Outcome Floors)) (s : Floors) : Prop where
  did : ∀ e ∈ log, Did e
  recorded : ∀ pair, s.recorded = some pair → Chosen start log pair
  knobs : (∀ e ∈ log, ¬ Breaks e) → Chosen start log s.knobs
  readings : (∀ e ∈ log, ¬ Breaks e) → ∀ e ∈ log, ∀ r, e.result = .read (.ok r) → Chosen start log r

namespace Whole

variable {start s s' : Floors} {log : List (Entry Op Outcome Floors)} {op : Op} {a : Outcome}

/-- An open goes by a pair that was chosen, whether it finds it recorded or in force. -/
theorem own (h : Whole start log s) (unbroken : ∀ e ∈ log, ¬ Breaks e) : Chosen start log s.own := by
  unfold Floors.own
  cases hr : s.recorded with
  | none => exact h.knobs unbroken
  | some pair => exact h.recorded pair hr

/-- The pair a call leaves that did not break off. -/
theorem left (h : Whole start log s) (did : Did ⟨op, s, a, s'⟩)
    (unbroken : ∀ e ∈ log ++ [(⟨op, s, a, s'⟩ : Entry Op Outcome Floors)], ¬ Breaks e) :
    Chosen start (log ++ [⟨op, s, a, s'⟩]) s'.knobs := by
  have hlast := unbroken ⟨op, s, a, s'⟩ (by simp)
  have hlog : ∀ e ∈ log, ¬ Breaks e := fun e he => unbroken e (List.mem_append_left _ he)
  have kept : s'.knobs = s.knobs → Chosen start (log ++ [⟨op, s, a, s'⟩]) s'.knobs := by
    intro hsame
    rw [hsame]
    exact (h.knobs hlog).append _
  have named : ∀ floor, op.names floor → s'.knobs = floor.pair → Chosen start (log ++ [⟨op, s, a, s'⟩]) s'.knobs := by
    intro floor hnames hknobs
    refine .inr (.inr (.inr ⟨⟨op, s, a, s'⟩, by simp, floor, hnames, ?_⟩))
    rw [hknobs]
    exact pair_stands floor
  cases did with
  | @move floor _ _ r moved =>
    cases moved with
    | moved knobs => exact named floor (.inl rfl) knobs
    | putBack _ knobs => exact kept knobs
    | notRestored => exact absurd (.inr ⟨_, _, _, rfl⟩) hlast
  | read knobs => exact kept knobs
  | @establish requested _ _ r _ established =>
    cases r with
    | error err => exact absurd (.inl ⟨err, rfl⟩) hlast
    | ok =>
      obtain ⟨recorded, knobs⟩ := established rfl
      cases requested with
      | some floor => exact named floor (.inr rfl) knobs
      | none =>
        rw [knobs]
        exact (h.own hlog).append _

theorem step (h : Whole start log s) (did : Did ⟨op, s, a, s'⟩) : Whole start (log ++ [⟨op, s, a, s'⟩]) s' where
  did e he := by
    rcases List.mem_append.1 he with he | he
    · exact h.did e he
    · obtain rfl := List.mem_singleton.1 he
      exact did
  recorded pair hpair := .inr (.inr (.inl ⟨⟨op, s, a, s'⟩, by simp, hpair⟩))
  knobs unbroken := h.left did unbroken
  readings unbroken e he r hr := by
    have hlog : ∀ e ∈ log, ¬ Breaks e := fun e he => unbroken e (List.mem_append_left _ he)
    rcases List.mem_append.1 he with he | he
    · exact (h.readings hlog e he r hr).append _
    · obtain rfl := List.mem_singleton.1 he
      cases did with
      | read _ reading =>
        obtain rfl := reading r (by simpa using hr)
        exact (h.knobs hlog).append _
      | _ => cases hr

end Whole

/-- **The floors move as whole pairs**, in every interleaving of movers, readers and opens and
under every pattern of refusals. A move that succeeds leaves its pair; one that fails leaves
both knobs as it found them, unless the engine refused its second command and the put-back
too, which its error says; and as long as no open has failed and no put-back was refused,
every reading and every pair in force while the lock is free is one somebody chose. -/
theorem floors_move_as_whole_pairs [BsonDebug] {start : Floors} {s : Critical Floors Op Request Reply Outcome}
    (h : (floorMoves start).Reach s) :
    (∀ e ∈ s.log, ∀ floor, e.op = .move floor →
      (e.result = .moved (.ok ()) → e.after.knobs.Stands floor) ∧
      (∀ err, e.result = .moved (.error err) → err.isNotRestored = false → e.after.knobs = e.before.knobs) ∧
      (∀ requested cause rollback,
        e.result = .moved (.error (.freeDiskFloorNotRestored requested cause rollback)) →
        requested = floor ∧ ∃ reported reply, e.after.sent = e.before.sent ++
          [(reportedFloorsCommand, .ok reported), (floor.commands.1, .ok reply), (floor.commands.2, .error cause),
            (e.before.knobs.commands.1, .error rollback)])) ∧
    ((∀ e ∈ s.log, ¬ Breaks e) →
      (s.locked = false → Chosen start s.log s.shared.knobs) ∧
      ∀ e ∈ s.log, ∀ r, e.result = .read (.ok r) → Chosen start s.log r) := by
  have hserialised : Critical.Serialised Floors.serve (Whole start) s := by
    refine Critical.serialised_of_reach ?_ ?_ h
    · rintro s rfl
      exact ⟨by simp, fun _ hp => .inr (.inl hp), fun _ => .inl rfl, by simp⟩
    · intro log s op hwhole
      exact (run_did op s).mono (fun _ h => h) fun a s' did => hwhole.step did
  obtain ⟨shared, hlast⟩ := hserialised.last
  constructor
  · intro e he floor hop
    have hdid := hlast.did e he
    obtain ⟨op, before, result, after⟩ := e
    obtain rfl : op = .move floor := hop
    cases hdid with
    | move moved =>
      refine ⟨?_, ?_, ?_⟩
      · rintro ⟨⟩
        cases moved with
        | moved knobs =>
          show after.knobs.Stands floor
          rw [knobs]
          exact pair_stands floor
      · rintro err ⟨⟩ hknown
        cases moved with
        | putBack _ knobs => exact knobs
        | notRestored => simp [Error.isNotRestored] at hknown
      · rintro requested cause rollback ⟨⟩
        cases moved with
        | putBack known => simp [Error.isNotRestored] at known
        | notRestored sent => exact ⟨rfl, _, _, sent⟩
  · intro unbroken
    exact ⟨fun free => (hserialised.free free).knobs unbroken, hlast.readings unbroken⟩

/-- An engine that somebody left on a pair that is no whole mebibyte. -/
def Floors.odd : Floors where
  knobs := ⟨⟨500⟩, ⟨123456789⟩⟩
  recorded := none
  sent := []

/-- A move whose second command is refused, with a reader waiting for the lock meanwhile. -/
theorem floors_move_as_whole_pairs_past_a_refusal :
    ∃ (_ : BsonDebug) (s : Critical Floors Op Request Reply Outcome), (floorMoves .odd).Reach s ∧
      s.log.map Entry.result = [.moved (.error (.native "refused")), .read (.ok Floors.odd.knobs)] ∧
      Chosen .odd s.log s.shared.knobs := by
  let floor : FreeDiskFloor := ⟨32, by decide⟩
  refine ⟨⟨fun _ => ""⟩, ?_⟩
  let _ : BsonDebug := ⟨fun _ => ""⟩
  have h : (floorMoves .odd).Reach ⟨.odd, false, [], []⟩ := .init ⟨rfl, rfl, rfl, rfl⟩
  have h := h.next (.call (.move floor))
  have h := h.next (.call .read)
  have h := h.next (.acquire (c := 0) rfl rfl)
  have h := h.next (.talk (c := 0) rfl (Floors.serve_reported _))
  have h := h.next (.talk (c := 0) rfl (Floors.serve_indexBuild _ floor.pair []))
  have h := h.next (.talk (c := 0) rfl (Floors.serve_refused _ _ (e := .native "refused") rfl))
  have h := h.next (.talk (c := 0) rfl (Floors.serve_indexBuild _ Floors.odd.knobs []))
  have h := h.next (.release (c := 0) rfl)
  have h := h.next (.acquire (c := 1) rfl rfl)
  have h := h.next (.talk (c := 1) rfl (Floors.serve_reported _))
  have h := h.next (.release (c := 1) rfl)
  obtain ⟨s, before, after, before', after', h, free, hlog⟩ :
      ∃ s before after before' after', (floorMoves .odd).Reach s ∧ s.locked = false ∧
        s.log = [⟨.move floor, before, .moved (.error (.native "refused")), after⟩,
          ⟨.read, before', .read (.ok Floors.odd.knobs), after'⟩] :=
    ⟨_, _, _, _, _, h, rfl, rfl⟩
  have unbroken : ∀ e ∈ s.log, ¬ Breaks e := by simp [hlog, Breaks]
  exact ⟨s, h, by simp [hlog], ((floors_move_as_whole_pairs h).2 unbroken).1 free⟩

end EmbeddedMongo.Limits
