import EmbeddedMongo.Android.FreeDiskFloor
import EmbeddedMongo.Conc.System
import EmbeddedMongo.Conc.Tally

/-!
# Floor moves that race

On this side of the boundary nothing keeps two floor moves apart: any number of calls of
`setFreeDiskFloor` and `setFreeDiskFloorBlocking` on one `EmbeddedMongo` are interleaved command
by command. Here no command is refused and every reading is of the knobs in force.
-/

namespace EmbeddedMongo.Android

open Conc Dialogue
open Limits (ReportedFloors Admin indexBuildFloor querySpillingFloor)

/-- A call, and what is left of it. -/
structure Mover where
  floor : FreeDiskFloor
  left : Admin Throwable (Except Throwable Unit)

/-- The knobs and the calls; `indexBuilder` and `spiller` are history: the call that moved each
knob last. -/
structure Race where
  knobs : ReportedFloors
  movers : List Mover
  indexBuilder : Option Nat
  spiller : Option Nat

/-- The command sets the knob. -/
def setsKnob (knob : String) : Document → Bool
  | (name, _) :: fields => name == setParameter && (Document.get knob fields).isSome
  | [] => false

namespace Race

/-- A new call, or the next command of one. -/
inductive Act where
  | call (floor : FreeDiskFloor)
  | talk (mover : Nat)

/-- The calls talk to one engine, a command at a time. -/
inductive Step [ToLong] : Race → Act → Race → Prop where
  | call {s : Race} (floor : FreeDiskFloor) :
      Step s (.call floor) { s with movers := s.movers ++ [⟨floor, setFreeDiskFloor floor⟩] }
  | talk {s : Race} {i : Nat} {floor : FreeDiskFloor} {command reply : Document}
      {next : Except Throwable Document → Admin Throwable (Except Throwable Unit)}
      (hi : s.movers[i]? = some ⟨floor, .ask command next⟩)
      (reads : command = reportedFloorsCommand → reportedFloors reply = .ok s.knobs) :
      Step s (.talk i)
        { knobs := s.knobs.take command
          movers := s.movers.set i ⟨floor, next (.ok reply)⟩
          indexBuilder := if setsKnob indexBuildFloor command then some i else s.indexBuilder
          spiller := if setsKnob querySpillingFloor command then some i else s.spiller }

end Race

/-- The moves on one database whose engine holds `start`. -/
def race [ToLong] (start : ReportedFloors) : System Race Race.Act where
  init s := s = ⟨start, [], none, none⟩
  step := Race.Step

/-! ## Where a call stands -/

/-- About to set the second knob. -/
def Mover.Half (m : Mover) : Prop :=
  ∃ next, m.left = .ask m.floor.pair.commands.2 next ∧ ∀ reply, next (.ok reply) = .ret (.ok ())

/-- About to set the first. -/
def Mover.Read (m : Mover) : Prop :=
  ∃ next, m.left = .ask m.floor.pair.commands.1 next ∧ ∀ reply, Mover.Half ⟨m.floor, next (.ok reply)⟩

/-- It is about to read the knobs. -/
def Mover.Begun [ToLong] (m : Mover) : Prop :=
  ∃ next, m.left = .ask reportedFloorsCommand next ∧
    ∀ reply before, reportedFloors reply = .ok before → Mover.Read ⟨m.floor, next (.ok reply)⟩

/-- It has set both knobs and returned. -/
def Mover.Returned (m : Mover) : Prop := m.left = .ret (.ok ())

theorem Mover.begun [ToLong] (floor : FreeDiskFloor) : Mover.Begun ⟨floor, setFreeDiskFloor floor⟩ := by
  refine ⟨_, rfl, ?_⟩
  intro reply before hread
  show Mover.Read ⟨floor, (Dialogue.ret (reportedFloors reply)).bind _⟩
  rw [hread]
  exact ⟨_, rfl, fun _ => ⟨_, rfl, fun _ => rfl⟩⟩

/-- The first command of a move sets the first knob, the second the second. -/
theorem setsKnob_commands (pair : ReportedFloors) :
    setsKnob indexBuildFloor pair.commands.1 = true ∧ setsKnob querySpillingFloor pair.commands.1 = false ∧
    setsKnob indexBuildFloor pair.commands.2 = false ∧ setsKnob querySpillingFloor pair.commands.2 = true := by
  simp [setsKnob, ReportedFloors.commands, Limits.floorCommands, setParameter, Document.get, List.lookup,
    indexBuildFloor, querySpillingFloor]

theorem setsKnob_reading :
    setsKnob indexBuildFloor reportedFloorsCommand = false ∧ setsKnob querySpillingFloor reportedFloorsCommand = false := by
  decide

/-- The floors that were named, by call. -/
def Race.floors (s : Race) : List FreeDiskFloor := s.movers.map Mover.floor

theorem floors_set {movers : List Mover} {i : Nat} {m m' : Mover} (hi : movers[i]? = some m) (same : m'.floor = m.floor) :
    (movers.set i m').map Mover.floor = movers.map Mover.floor := by
  obtain ⟨hlt, hm⟩ := List.getElem?_eq_some_iff.1 hi
  rw [List.map_set, same, ← hm, ← List.getElem_map Mover.floor, List.set_getElem_self]
  simpa using hlt

/-! Each knob by itself, for any value set. -/

theorem indexBuild_setFirst (knobs : ReportedFloors) (floor : Limits.IndexBuildFloor) :
    ({ knobs with indexBuild := floor } : ReportedFloors).indexBuild = floor := rfl

theorem querySpilling_setFirst (knobs : ReportedFloors) (floor : Limits.IndexBuildFloor) :
    ({ knobs with indexBuild := floor } : ReportedFloors).querySpilling = knobs.querySpilling := rfl

theorem indexBuild_setSecond (knobs : ReportedFloors) (floor : Limits.QuerySpillingFloor) :
    ({ knobs with querySpilling := floor } : ReportedFloors).indexBuild = knobs.indexBuild := rfl

theorem querySpilling_setSecond (knobs : ReportedFloors) (floor : Limits.QuerySpillingFloor) :
    ({ knobs with querySpilling := floor } : ReportedFloors).querySpilling = floor := rfl

/-- What a call's turn comes to. -/
inductive Talked [ToLong] (s : Race) (i : Nat) : Race → Prop where
  | read {m m' : Mover} (hi : s.movers[i]? = some m) (same : m'.floor = m.floor) (was : m.Begun) (now : m'.Read) :
      Talked s i { s with movers := s.movers.set i m' }
  | first {m m' : Mover} (hi : s.movers[i]? = some m) (same : m'.floor = m.floor) (was : m.Read) (now : m'.Half) :
      Talked s i
        { s with
          knobs := { s.knobs with indexBuild := m.floor.pair.indexBuild }
          movers := s.movers.set i m'
          indexBuilder := some i }
  | second {m m' : Mover} (hi : s.movers[i]? = some m) (same : m'.floor = m.floor) (was : m.Half) (now : m'.Returned)
      (built : s.indexBuilder.isSome = true) :
      Talked s i
        { s with
          knobs := { s.knobs with querySpilling := m.floor.pair.querySpilling }
          movers := s.movers.set i m'
          spiller := some i }

/-- How far a call has come, given whether somebody has set each of the knobs. -/
def Mover.Placed [ToLong] (built spilled : Bool) (m : Mover) : Prop :=
  m.Begun ∨ m.Read ∨ m.Half ∧ built = true ∨ m.Returned ∧ built = true ∧ spilled = true

/-- A call is in place whatever others set meanwhile. -/
theorem Mover.Placed.mono [ToLong] {built built' spilled spilled' : Bool} {m : Mover} (h : m.Placed built spilled)
    (hbuilt : built = true → built' = true) (hspilled : spilled = true → spilled' = true) : m.Placed built' spilled' := by
  rcases h with h | h | ⟨h, hb⟩ | ⟨h, hb, hs⟩
  · exact .inl h
  · exact .inr (.inl h)
  · exact .inr (.inr (.inl ⟨h, hbuilt hb⟩))
  · exact .inr (.inr (.inr ⟨h, hbuilt hb, hspilled hs⟩))

/-- Each knob is where the call that set it last put it, and a call that has set one is on
record as somebody who did. -/
structure Raced [ToLong] (s : Race) : Prop where
  stages : ∀ m ∈ s.movers, m.Placed s.indexBuilder.isSome s.spiller.isSome
  indexBuild : ∀ i, s.indexBuilder = some i → ∃ floor, s.floors[i]? = some floor ∧
    s.knobs.indexBuild = floor.pair.indexBuild
  querySpilling : ∀ i, s.spiller = some i → ∃ floor, s.floors[i]? = some floor ∧
    s.knobs.querySpilling = floor.pair.querySpilling

section

variable [ToLong] {s s' : Race} {i : Nat}

/-- What a step of a call may be. -/
theorem Raced.talked (h : Raced s) (hs : Race.Step s (.talk i) s') : Talked s i s' := by
  cases hs with
  | @talk _ floor command reply next hi reads =>
    obtain ⟨hfirst, hfirst', hsecond, hsecond'⟩ := setsKnob_commands floor.pair
    rcases h.stages _ (List.mem_of_getElem? hi) with was | was | ⟨was, built⟩ | ⟨was, -⟩
    · obtain ⟨next', hleft, hnext⟩ := id was
      obtain ⟨rfl, rfl⟩ : command = reportedFloorsCommand ∧ next = next' := by simpa using hleft
      simp only [setsKnob_reading.1, setsKnob_reading.2, Bool.false_eq_true, if_false]
      exact Talked.read hi rfl was (hnext reply _ (reads rfl))
    · obtain ⟨next', hleft, hnext⟩ := id was
      obtain ⟨rfl, rfl⟩ : command = floor.pair.commands.1 ∧ next = next' := by simpa using hleft
      simp only [hfirst, hfirst', Bool.false_eq_true, if_false, if_true, Limits.take_indexBuild]
      exact Talked.first (m := ⟨floor, _⟩) hi rfl was (hnext reply)
    · obtain ⟨next', hleft, hnext⟩ := id was
      obtain ⟨rfl, rfl⟩ : command = floor.pair.commands.2 ∧ next = next' := by simpa using hleft
      simp only [hsecond, hsecond', Bool.false_eq_true, if_false, if_true, Limits.take_querySpilling]
      have now : Mover.Returned ⟨floor, next (.ok reply)⟩ := hnext reply
      exact Talked.second (m := ⟨floor, _⟩) hi rfl was now built
    · cases was

/-- A turn changes no floor. -/
theorem Talked.floors (h : Talked s i s') : s'.floors = s.floors := by
  cases h with
  | read hi same => exact floors_set hi same
  | first hi same => exact floors_set hi same
  | second hi same => exact floors_set hi same

/-- Every step keeps who set what last. -/
theorem Raced.step {a : Race.Act} (h : Raced s) (hs : Race.Step s a s') : Raced s' := by
  cases a with
  | call floor =>
    cases hs
    have found : ∀ {j : Nat} {f : FreeDiskFloor}, s.floors[j]? = some f → (s.floors ++ [floor])[j]? = some f := by
      intro j f hf
      obtain ⟨hlt, -⟩ := List.getElem?_eq_some_iff.1 hf
      rw [List.getElem?_append_left hlt, hf]
    have hfloors : Race.floors { s with movers := s.movers ++ [⟨floor, setFreeDiskFloor floor⟩] } = s.floors ++ [floor] := by
      simp [Race.floors]
    refine ⟨?_, ?_, ?_⟩
    · intro m hm
      rcases List.mem_append.1 hm with hm | hm
      · exact h.stages m hm
      · obtain rfl := List.mem_singleton.1 hm
        exact .inl (Mover.begun floor)
    · intro j hj
      obtain ⟨f, hf, hknob⟩ := h.indexBuild j hj
      exact ⟨f, by rw [hfloors]; exact found hf, hknob⟩
    · intro j hj
      obtain ⟨f, hf, hknob⟩ := h.querySpilling j hj
      exact ⟨f, by rw [hfloors]; exact found hf, hknob⟩
  | talk i =>
    have talked := h.talked hs
    have hfloors := talked.floors
    have mine : ∀ {m}, s.movers[i]? = some m → s.floors[i]? = some m.floor := by
      intro m hi
      simp [Race.floors, hi]
    refine ⟨?_, ?_, ?_⟩
    · cases talked with
      | read hi same was now => exact forall_mem_set h.stages (.inr (.inl now))
      | first hi same was now =>
        have hstages : ∀ m ∈ s.movers, m.Placed true s.spiller.isSome :=
          fun m hm => (h.stages m hm).mono (fun _ => rfl) id
        exact forall_mem_set hstages (.inr (.inr (.inl ⟨now, rfl⟩)))
      | second hi same was now built =>
        have hstages : ∀ m ∈ s.movers, m.Placed s.indexBuilder.isSome true :=
          fun m hm => (h.stages m hm).mono id (fun _ => rfl)
        exact forall_mem_set hstages (.inr (.inr (.inr ⟨now, built, rfl⟩)))
    · rw [hfloors]
      intro j hj
      cases talked with
      | read => exact h.indexBuild j hj
      | first hi =>
        cases hj
        exact ⟨_, mine hi, indexBuild_setFirst _ _⟩
      | second =>
        obtain ⟨f, hf, hknob⟩ := h.indexBuild j hj
        exact ⟨f, hf, (indexBuild_setSecond _ _).trans hknob⟩
    · rw [hfloors]
      intro j hj
      cases talked with
      | read => exact h.querySpilling j hj
      | first =>
        obtain ⟨f, hf, hknob⟩ := h.querySpilling j hj
        exact ⟨f, hf, (querySpilling_setFirst _ _).trans hknob⟩
      | second hi =>
        cases hj
        exact ⟨_, mine hi, querySpilling_setSecond _ _⟩

/-- Every run knows who set what last. -/
theorem raced_of_reach {start : ReportedFloors} (h : (race start).Reach s) : Raced s := by
  refine h.induct ?_ (fun _ _ _ _ ih hs => ih.step hs)
  rintro s rfl
  exact ⟨by simp, by simp, by simp⟩

/-! ## Calls that stay out of each other's way -/

/-- A call sends its second command only while its own first is the last one sent. -/
def Orderly (s : Race) : Race.Act → Prop
  | .call _ => True
  | .talk i => ∀ m command next, s.movers[i]? = some m → m.left = .ask command next →
      setsKnob querySpillingFloor command = true → s.indexBuilder = some i

/-- The call that set the first knob last has the second still to set, or has set it last too. -/
def InOrder (s : Race) : Prop :=
  ∀ i, s.indexBuilder = some i → (∃ m, s.movers[i]? = some m ∧ m.Half) ∨ s.spiller = some i

theorem Mover.Half.not_begun {m : Mover} (h : m.Half) : ¬ m.Begun := by
  obtain ⟨next, hleft, -⟩ := h
  rintro ⟨next', hleft', -⟩
  simp [hleft, ReportedFloors.commands, Limits.floorCommands, reportedFloorsCommand] at hleft'

/-- A step in order keeps the two knobs in one hand. -/
theorem InOrder.step {a : Race.Act} (hr : Raced s) (h : InOrder s) (hs : Race.Step s a s') (ok : Orderly s a) :
    InOrder s' := by
  cases a with
  | call floor =>
    cases hs
    intro i hi
    rcases h i hi with ⟨m, hm, half⟩ | hspiller
    · refine .inl ⟨m, ?_, half⟩
      obtain ⟨hlt, -⟩ := List.getElem?_eq_some_iff.1 hm
      exact (List.getElem?_append_left hlt).trans hm
    · exact .inr hspiller
  | talk j =>
    cases hr.talked hs with
    | @read m m' hj same was now =>
      intro i hi
      rcases h i hi with ⟨m₁, hm₁, half⟩ | hspiller
      · have hne : j ≠ i := by
          rintro rfl
          obtain rfl : m = m₁ := by simpa [hj] using hm₁
          exact half.not_begun was
        exact .inl ⟨m₁, by simpa [List.getElem?_set_ne hne] using hm₁, half⟩
      · exact .inr hspiller
    | @first m m' hj same was now =>
      intro i hi
      cases hi
      obtain ⟨hlt, -⟩ := List.getElem?_eq_some_iff.1 hj
      exact .inl ⟨m', List.getElem?_set_self hlt, now⟩
    | @second m m' hj same was now built =>
      intro i hi
      obtain ⟨next, hleft, -⟩ := was
      have hmine : s.indexBuilder = some j := ok m _ next hj hleft (setsKnob_commands m.floor.pair).2.2.2
      exact .inr (hmine.symm.trans hi)

/-- Every run of such steps keeps the two knobs in one hand. -/
theorem inOrder_of_reachIf {start : ReportedFloors} (h : (race start).ReachIf Orderly s) : InOrder s := by
  refine System.ReachIf.induct (I := InOrder) ?_ ?_ h
  · rintro s rfl i hi
    cases hi
  · intro s a s' hr ih ok hs
    exact ih.step (raced_of_reach hr) hs ok

/-! ## Whose floors they end on -/

/-- **Racing floor moves end on the floors of those that came last.** Once every call has
returned, each knob is at the floor of the call that set it last. The two stand for one floor
if and only if those two calls named the same; and in a run in which every call sends its second
command while its own first is the last one sent, they do. -/
theorem racing_floor_moves_end_on_the_last {start : ReportedFloors} (h : (race start).Reach s) (called : s.movers ≠ [])
    (returned : ∀ m ∈ s.movers, ∃ r, m.left = .ret r) :
    (∃ i j f g, s.indexBuilder = some i ∧ s.spiller = some j ∧ s.floors[i]? = some f ∧ s.floors[j]? = some g ∧
      s.knobs = ⟨f.pair.indexBuild, g.pair.querySpilling⟩ ∧
      ((∃ floor ∈ s.floors, floor.StandsIn s.knobs) ↔ f = g)) ∧
    ((race start).ReachIf Orderly s → ∃ floor ∈ s.floors, floor.StandsIn s.knobs) := by
  have raced := raced_of_reach h
  have ended : ∀ m ∈ s.movers, m.Returned ∧ s.indexBuilder.isSome = true ∧ s.spiller.isSome = true := by
    intro m hm
    obtain ⟨r, hr⟩ := returned m hm
    rcases raced.stages m hm with ⟨_, hleft, -⟩ | ⟨_, hleft, -⟩ | ⟨⟨_, hleft, -⟩, -⟩ | hreturned
    · simp [hr] at hleft
    · simp [hr] at hleft
    · simp [hr] at hleft
    · exact hreturned
  obtain ⟨m, hm⟩ := List.exists_mem_of_ne_nil _ called
  obtain ⟨-, hbuilder, hspiller⟩ := ended m hm
  obtain ⟨i, hi⟩ := Option.isSome_iff_exists.1 hbuilder
  obtain ⟨j, hj⟩ := Option.isSome_iff_exists.1 hspiller
  obtain ⟨f, hf, hindex⟩ := raced.indexBuild i hi
  obtain ⟨g, hg, hspilling⟩ := raced.querySpilling j hj
  have hknobs : s.knobs = ⟨f.pair.indexBuild, g.pair.querySpilling⟩ := by
    rw [← hindex, ← hspilling]
  have whole : (∃ floor ∈ s.floors, floor.StandsIn s.knobs) ↔ f = g := by
    constructor
    · rintro ⟨floor, -, hstands⟩
      have hpair := hstands.eq_pair
      have hfirst : floor = f := FreeDiskFloor.pair_indexBuild_inj (by rw [← hpair, hindex])
      have hsecond : floor = g := FreeDiskFloor.pair_querySpilling_inj (by rw [← hpair, hspilling])
      exact hfirst.symm.trans hsecond
    · rintro rfl
      refine ⟨f, List.mem_of_getElem? hf, ?_⟩
      rw [hknobs]
      exact f.pair_standsIn
  refine ⟨⟨i, j, f, g, hi, hj, hf, hg, hknobs, whole⟩, ?_⟩
  intro orderly
  apply whole.2
  rcases inOrder_of_reachIf orderly i hi with ⟨m, hm, half⟩ | hsame
  · obtain ⟨next, hleft, -⟩ := half
    obtain ⟨hret, -⟩ := ended m (List.mem_of_getElem? hm)
    rw [hret] at hleft
    cases hleft
  · obtain rfl : j = i := Option.some.inj (hj.symm.trans hsame)
    exact Option.some.inj (hf.symm.trans hg)

end

section

variable [ToLong] {s : Race} {i : Nat} {floor : FreeDiskFloor}
  {next : Except Throwable Document → Admin Throwable (Except Throwable Unit)}

namespace Race.Step

/-- A call reads. -/
theorem reading (hi : s.movers[i]? = some ⟨floor, .ask reportedFloorsCommand next⟩) :
    Race.Step s (.talk i) { s with movers := s.movers.set i ⟨floor, next (.ok s.knobs.reply)⟩ } :=
  .talk hi fun _ => reportedFloors_reply _

/-- It sends its first command. -/
theorem first (hi : s.movers[i]? = some ⟨floor, .ask floor.pair.commands.1 next⟩) :
    Race.Step s (.talk i)
      { s with
        knobs := { s.knobs with indexBuild := floor.pair.indexBuild }
        movers := s.movers.set i ⟨floor, next (.ok [])⟩
        indexBuilder := some i } := by
  obtain ⟨hfirst, hfirst', -, -⟩ := setsKnob_commands floor.pair
  have hstep := @Race.Step.talk _ s i floor _ [] next hi
    (by simp [ReportedFloors.commands, Limits.floorCommands, reportedFloorsCommand])
  simpa only [hfirst, hfirst', Bool.false_eq_true, if_false, if_true, Limits.take_indexBuild] using hstep

/-- It sends its second. -/
theorem second (hi : s.movers[i]? = some ⟨floor, .ask floor.pair.commands.2 next⟩) :
    Race.Step s (.talk i)
      { s with
        knobs := { s.knobs with querySpilling := floor.pair.querySpilling }
        movers := s.movers.set i ⟨floor, next (.ok [])⟩
        spiller := some i } := by
  obtain ⟨-, -, hsecond, hsecond'⟩ := setsKnob_commands floor.pair
  have hstep := @Race.Step.talk _ s i floor _ [] next hi
    (by simp [ReportedFloors.commands, Limits.floorCommands, reportedFloorsCommand])
  simpa only [hsecond, hsecond', Bool.false_eq_true, if_false, if_true, Limits.take_querySpilling] using hstep

end Race.Step

omit [ToLong] in
/-- Whatever a call sends other than its second command is in order. -/
theorem Orderly.of_not_second {command : Document} (hi : s.movers[i]? = some ⟨floor, .ask command next⟩)
    (other : setsKnob querySpillingFloor command = false) : Orderly s (.talk i) := by
  intro m command' next' hi' hleft hsecond
  obtain rfl : m = ⟨floor, .ask command next⟩ := Option.some.inj (hi'.symm.trans hi)
  cases hleft
  rw [other] at hsecond
  cases hsecond

omit [ToLong] in
/-- So is all a call sends while its first command is the last one sent. -/
theorem Orderly.of_first (h : s.indexBuilder = some i) : Orderly s (.talk i) := fun _ _ _ _ _ _ => h

end

/-- One call after another, each in order. -/
theorem racing_floor_moves_end_on_the_last_of_two :
    ∃ (_ : ToLong) (s : Race), (race engineOwn).ReachIf Orderly s ∧ s.movers.length = 2 ∧
      s.knobs = ⟨⟨64⟩, ⟨67108864⟩⟩ ∧ ∃ floor ∈ s.floors, floor.StandsIn s.knobs := by
  let low : FreeDiskFloor := ⟨32, by decide⟩
  let high : FreeDiskFloor := ⟨64, by decide⟩
  let _ : ToLong := ⟨fun _ _ => none⟩
  refine ⟨inferInstance, ?_⟩
  have h : (race engineOwn).ReachIf Orderly ⟨engineOwn, [], none, none⟩ := .init rfl
  have h := h.step (.call low) trivial
  have h := h.step (.reading (i := 0) rfl) (.of_not_second rfl rfl)
  have h := h.step (.first (i := 0) rfl) (.of_not_second rfl rfl)
  have h := h.step (.second (i := 0) rfl) (.of_first rfl)
  have h := h.step (.call high) trivial
  have h := h.step (.reading (i := 1) rfl) (.of_not_second rfl rfl)
  have h := h.step (.first (i := 1) rfl) (.of_not_second rfl rfl)
  have h := h.step (.second (i := 1) rfl) (.of_first rfl)
  have h : (race engineOwn).ReachIf Orderly
      ⟨⟨high.pair.indexBuild, high.pair.querySpilling⟩, [⟨low, .ret (.ok ())⟩, ⟨high, .ret (.ok ())⟩], some 1, some 1⟩ := h
  exact ⟨_, h, rfl, by decide, (racing_floor_moves_end_on_the_last h.reach (by simp) (by simp)).2 h⟩

/-- Two calls, each of which sends its first command before either sends its second, in opposite
orders: the index-build floor is left at 64 MiB and the spilling floor at 32. -/
theorem racing_floor_moves_end_on_two_floors :
    ∃ (_ : ToLong) (s : Race), (race engineOwn).Reach s ∧ s.movers.length = 2 ∧ (∀ m ∈ s.movers, m.Returned) ∧
      s.knobs = ⟨⟨64⟩, ⟨33554432⟩⟩ ∧ ¬ ∃ floor ∈ s.floors, floor.StandsIn s.knobs := by
  let low : FreeDiskFloor := ⟨32, by decide⟩
  let high : FreeDiskFloor := ⟨64, by decide⟩
  let _ : ToLong := ⟨fun _ _ => none⟩
  refine ⟨inferInstance, ?_⟩
  have h : (race engineOwn).Reach ⟨engineOwn, [], none, none⟩ := .init rfl
  have h := h.next (.call low)
  have h := h.next (.call high)
  have h := h.next (.reading (i := 0) rfl)
  have h := h.next (.reading (i := 1) rfl)
  have h := h.next (.first (i := 0) rfl)
  have h := h.next (.first (i := 1) rfl)
  have h := h.next (.second (i := 1) rfl)
  have h := h.next (.second (i := 0) rfl)
  have h : (race engineOwn).Reach ⟨⟨high.pair.indexBuild, low.pair.querySpilling⟩,
      [⟨low, .ret (.ok ())⟩, ⟨high, .ret (.ok ())⟩], some 1, some 0⟩ := h
  refine ⟨_, h, rfl, by simp [Mover.Returned], by decide, ?_⟩
  rintro ⟨floor, hmem, hindex, hspilling⟩
  have hfloor : floor = low ∨ floor = high := by simpa [Race.floors] using hmem
  rcases hfloor with rfl | rfl
  · revert hindex
    decide
  · revert hspilling
    decide

end EmbeddedMongo.Android
