import EmbeddedMongo.Android.Facade

/-!
# Closing from above

What callers of `EmbeddedMongo` are told, whatever the threads do. `At` is where a call can be, with
what it has done by then and what has happened around it; the registry below is reachable in its own
right, so that what was proved about it holds here.
-/

namespace EmbeddedMongo.Android.Handles

open Conc

variable {s s' : Registry} {finish : UInt64} {a : Registry.Act}

/-- One call of the registry that has not returned goes on with what it does. -/
def Goes (s s' : Registry) : Prop :=
  ∃ (i : Nat) (c c' : Call), s.calls[i]? = some c ∧ s'.calls = s.calls.set i c' ∧ c'.op = c.op ∧
    ∀ outcome, c.pc ≠ .returned outcome

theorem section_goes {i : Nat} {c : Call} (hc : s.calls[i]? = some c) (hpc : c.pc = .locked) :
    Goes s (s.section_ finish i c) := by
  have hreturned : ∀ outcome, c.pc ≠ .returned outcome := by simp [hpc]
  unfold Registry.section_
  split
  · split
    · exact ⟨i, c, _, hc, rfl, rfl, hreturned⟩
    · exact ⟨i, c, _, hc, rfl, rfl, hreturned⟩
  · exact ⟨i, c, _, hc, rfl, rfl, hreturned⟩
  · exact ⟨i, c, _, hc, rfl, rfl, hreturned⟩

/-- A step of the registry is a new call or one that goes on. -/
theorem Registry.Step.goes (h : Registry.Step finish s a s') :
    (∃ op, a = .call op ∧ s' = { s with calls := s.calls ++ [.begin op] }) ∨ Goes s s' := by
  cases h with
  | call op => exact .inl ⟨op, rfl, rfl⟩
  | section_ hc hpc => exact .inr (section_goes hc hpc)
  | unlock hc hpc =>
    refine .inr ⟨_, _, _, hc, rfl, rfl, fun outcome hreturned => ?_⟩
    simp [Call.unlocked, hreturned] at hpc
  | lock hc hpc _ => exact .inr ⟨_, _, _, hc, rfl, rfl, by simp [hpc]⟩
  | read hc hpc _ _ _ _ => exact .inr ⟨_, _, _, hc, rfl, rfl, by simp [hpc]⟩
  | write hc hpc _ _ _ _ => exact .inr ⟨_, _, _, hc, rfl, rfl, by simp [hpc]⟩
  | refuse hc hpc _ _ _ _ => exact .inr ⟨_, _, _, hc, rfl, rfl, by simp [hpc]⟩
  | command hc hpc _ _ _ _ => exact .inr ⟨_, _, _, hc, rfl, rfl, by simp [hpc]⟩
  | shutdown hc hpc _ _ _ _ => exact .inr ⟨_, _, _, hc, rfl, rfl, by simp [hpc]⟩
  | spent hc hpc => exact .inr ⟨_, _, _, hc, rfl, rfl, by simp [hpc]⟩
  | answer _ hc hpc _ => exact .inr ⟨_, _, _, hc, rfl, rfl, by simp [hpc]⟩
  | releaseRead hc hpc _ _ _ => exact .inr ⟨_, _, _, hc, rfl, rfl, by simp [hpc]⟩
  | releaseWrite hc hpc _ _ _ => exact .inr ⟨_, _, _, hc, rfl, rfl, by simp [hpc]⟩
  | returned hc hpc _ => exact .inr ⟨_, _, _, hc, rfl, rfl, by simp [hpc]⟩

/-- A call of the registry goes on with what it does, and stays where it has returned. -/
def Persists (s s' : Registry) : Prop :=
  ∀ (n : Nat) (c : Call), s.calls[n]? = some c →
    ∃ c', s'.calls[n]? = some c' ∧ c'.op = c.op ∧ ∀ outcome, c.pc = .returned outcome → c'.pc = .returned outcome

/-- A call of the registry keeps what it was asked and what it has answered. -/
theorem Goes.persists (h : Goes s s') : Persists s s' := by
  obtain ⟨i, c, c', hi, hcalls, hop, hpc⟩ := h
  intro n d hn
  rw [hcalls]
  by_cases hin : i = n
  · subst hin
    obtain rfl : c = d := Option.some.inj (hi.symm.trans hn)
    obtain ⟨hlt, -⟩ := List.getElem?_eq_some_iff.1 hi
    exact ⟨c', List.getElem?_set_self hlt, hop, fun outcome h => absurd h (hpc outcome)⟩
  · exact ⟨d, (List.getElem?_set_ne hin).trans hn, rfl, fun _ h => h⟩

/-- No call appears in it. -/
theorem Goes.quoted {n : Nat} {c' : Call} (h : Goes s s') (hn : s'.calls[n]? = some c') :
    ∃ c, s.calls[n]? = some c ∧ c.op = c'.op := by
  obtain ⟨i, c, d, hi, hcalls, hop, -⟩ := h
  rw [hcalls] at hn
  exact forall_getElem?_set (p := fun n c' => ∃ c, s.calls[n]? = some c ∧ c.op = c'.op)
    (fun j e he _ => ⟨e, he, rfl⟩) ⟨c, hi, hop.symm⟩ n c' hn

theorem persists_call (op : Op) : Persists s { s with calls := s.calls ++ [.begin op] } :=
  fun _ c hn => ⟨c, getElem?_append_of_eq_some hn, rfl, fun _ h => h⟩

/-- Ids are issued for good. -/
theorem Registry.Step.issued_subset (h : Registry.Step finish s a s') : s.issued ⊆ s'.issued := by
  cases h with
  | section_ hc hpc =>
    unfold Registry.section_
    split
    · split
      · exact List.Subset.refl _
      · exact List.subset_append_left _ _
    · exact List.Subset.refl _
    · exact List.Subset.refl _
  | _ => exact List.Subset.refl _

end EmbeddedMongo.Android.Handles

namespace EmbeddedMongo.Android.Facade

open Conc Handles

variable {finish : UInt64} {id : HandleId} {s s' : State} {a : Act} {i n : Nat} {k : Kind} {place place' : Place}
  {late : Bool} {made : Option Nat} {e : Effect}

/-- Call `n` of the registry does `op`. -/
def Quotes (s : State) (n : Nat) (op : Op) : Prop := ∃ r, s.registry.calls[n]? = some r ∧ r.op = op

/-- And is back. -/
def Back (s : State) (n : Nat) (op : Op) (outcome : Handles.Outcome) : Prop :=
  ∃ r, s.registry.calls[n]? = some r ∧ r.op = op ∧ r.pc = .returned outcome

/-- A caller whose call has answered has the answer. -/
theorem Quotes.back {op : Op} {outcome : Handles.Outcome} (h : Quotes s n op) (hb : s.Answers n outcome) : Back s n op outcome := by
  obtain ⟨r, hr, hop⟩ := h
  obtain ⟨r', hr', hpc⟩ := hb
  obtain rfl : r = r' := Option.some.inj (hr.symm.trans hr')
  exact ⟨r, hr, hop, hpc⟩

/-- A call and what has happened by then. -/
inductive At (id : HandleId) (s : State) : Call → Prop where
  | begun {k : Kind} {late : Bool} (h : late = true → s.closed = true) : At id s ⟨k, .begun, late, none⟩
  | checked : At id s ⟨.suspending, .checked, false, none⟩
  | queued : At id s ⟨.suspending, .queued, false, none⟩
  | entered {k : Kind} {late : Bool} (command : k ≠ .close) (h : late = true → s.closed = true) :
      At id s ⟨k, .entered, late, none⟩
  | admitted {k : Kind} (command : k ≠ .close) : At id s ⟨k, .admitted, false, none⟩
  | opened {k : Kind} (command : k ≠ .close) : At id s ⟨k, .opened id, false, none⟩
  | running {k : Kind} {n : Nat} (command : k ≠ .close) (h : Quotes s n (.runCommand id)) :
      At id s ⟨k, .bridging n, false, some n⟩
  | ran {k : Kind} {n : Nat} {outcome : Handles.Outcome} (command : k ≠ .close) (h : Back s n (.runCommand id) outcome) :
      At id s ⟨k, .over (.bridge outcome), false, some n⟩
  | answered {k : Kind} {n : Nat} {outcome : Handles.Outcome} (command : k ≠ .close)
      (h : Back s n (.runCommand id) outcome) : At id s ⟨k, .returned (.bridge outcome), false, some n⟩
  | shut {k : Kind} {late : Bool} (command : k ≠ .close) (h : s.closed = true) :
      At id s ⟨k, .over .illegalState, late, none⟩
  | refused {k : Kind} {late : Bool} (command : k ≠ .close) (h : s.closed = true) :
      At id s ⟨k, .returned .illegalState, late, none⟩
  | unencodable {k : Kind} (command : k ≠ .close) : At id s ⟨k, .over .unencodable, false, none⟩
  | unencoded {k : Kind} (command : k ≠ .close) : At id s ⟨k, .returned .unencodable, false, none⟩
  | rejected {late : Bool} : At id s ⟨.blocking true, .returned .rejected, late, none⟩
  | cancelled (h : s.shutdown = true) : At id s ⟨.suspending, .returned .cancelled, false, none⟩
  | passed : At id s ⟨.close, .passed, false, none⟩
  | marked (h : s.closed = true) : At id s ⟨.close, .marked, false, none⟩
  | late (h : s.closed = true) : At id s ⟨.close, .taken none, false, none⟩
  | taken (h : s.closed = true) : At id s ⟨.close, .taken (some id), false, none⟩
  | closing {n : Nat} (h : s.closed = true) (hn : Quotes s n (.close id)) : At id s ⟨.close, .bridging n, false, some n⟩
  | idle (h : s.closed = true) : At id s ⟨.close, .finishing none, false, none⟩
  | finishing {n : Nat} {outcome : Handles.Outcome} (h : s.closed = true) (hn : Back s n (.close id) outcome) :
      At id s ⟨.close, .finishing (some outcome), false, some n⟩
  | nothing {late : Bool} (h : s.closed = true) : At id s ⟨.close, .returned (.closed none), late, none⟩
  | closed {n : Nat} {outcome : Handles.Outcome} (h : s.closed = true) (hn : Back s n (.close id) outcome)
      (down : s.shutdown = true) : At id s ⟨.close, .returned (.closed (some outcome)), false, some n⟩

/-- What has happened stays so. -/
structure Grows (s s' : State) : Prop where
  closed : s.closed = true → s'.closed = true
  shutdown : s.shutdown = true → s'.shutdown = true
  registry : Persists s.registry s'.registry

namespace Grows

/-- A call that is quoted stays so. -/
theorem quotes {op : Op} (h : Grows s s') (hq : Quotes s n op) : Quotes s' n op := by
  obtain ⟨r, hr, hop⟩ := hq
  obtain ⟨r', hr', hop', -⟩ := h.registry n r hr
  exact ⟨r', hr', hop'.trans hop⟩

/-- An answer that is back stays so. -/
theorem back {op : Op} {outcome : Handles.Outcome} (h : Grows s s') (hb : Back s n op outcome) : Back s' n op outcome := by
  obtain ⟨r, hr, hop, hpc⟩ := hb
  obtain ⟨r', hr', hop', hpc'⟩ := h.registry n r hr
  exact ⟨r', hr', hop'.trans hop, hpc' outcome hpc⟩

/-- A caller stays where it is. -/
theorem at_ {c : Call} (h : Grows s s') (hat : At id s c) : At id s' c := by
  cases hat with
  | begun hl => exact .begun fun l => h.closed (hl l)
  | checked => exact .checked
  | queued => exact .queued
  | entered command hl => exact .entered command fun l => h.closed (hl l)
  | admitted command => exact .admitted command
  | opened command => exact .opened command
  | running command hq => exact .running command (h.quotes hq)
  | ran command hb => exact .ran command (h.back hb)
  | answered command hb => exact .answered command (h.back hb)
  | shut command hc => exact .shut command (h.closed hc)
  | refused command hc => exact .refused command (h.closed hc)
  | unencodable command => exact .unencodable command
  | unencoded command => exact .unencoded command
  | rejected => exact .rejected
  | cancelled hd => exact .cancelled (h.shutdown hd)
  | passed => exact .passed
  | marked hc => exact .marked (h.closed hc)
  | late hc => exact .late (h.closed hc)
  | taken hc => exact .taken (h.closed hc)
  | closing hc hq => exact .closing (h.closed hc) (h.quotes hq)
  | idle hc => exact .idle (h.closed hc)
  | finishing hc hb => exact .finishing (h.closed hc) (h.back hb)
  | nothing hc => exact .nothing (h.closed hc)
  | closed hc hb hd => exact .closed (h.closed hc) (h.back hb) (h.shutdown hd)

end Grows

theorem persists_refl (r : Registry) : Persists r r := fun _ c hn => ⟨c, hn, rfl, fun _ h => h⟩

/-- Every effect only adds. -/
theorem grows_apply (e : Effect) : Grows s (s.apply i e) := by
  cases e with
  | bridge op => exact ⟨fun h => h, fun h => h, persists_call op⟩
  | mark => exact ⟨fun _ => rfl, fun h => h, persists_refl _⟩
  | shutdown => exact ⟨fun h => h, fun _ => rfl, persists_refl _⟩
  | _ => exact ⟨fun h => h, fun h => h, persists_refl _⟩

theorem quotes_new (op : Op) : Quotes (s.apply i (.bridge op)) s.registry.calls.length op :=
  ⟨.begin op, by simp [State.apply, State.call], rfl⟩

/-- The flag is set before the handle is taken and before the executor is shut down. -/
structure Flagged (id : HandleId) (s : State) : Prop where
  handle : s.handle = none → s.closed = true
  mine : ∀ h, s.handle = some h → h = id
  shutdown : s.shutdown = true → s.closed = true

/-- A call that finds the flag unset did not come after it. -/
theorem not_late (h : late = true → s.closed = true) (opened : s.closed = false) : late = false := by
  cases late with
  | false => rfl
  | true => exact absurd (h rfl) (by simp [opened])

/-- Wherever a call can be, it can be where it goes. -/
theorem Move.at_ (h : Move s i k place e place') (hf : Flagged id s) (hat : At id s ⟨k, place, late, made⟩) :
    At id (s.apply i e) ⟨k, place', late, place'.bridge made⟩ := by
  cases h with
  | reject =>
    cases hat
    exact .rejected
  | enter =>
    cases hat with
    | begun hl => exact .entered (by simp) hl
  | refuse closed =>
    cases hat
    exact .refused (by simp) closed
  | check opened =>
    cases hat with
    | begun hl =>
      obtain rfl := not_late hl opened
      exact .checked
  | cancel shut =>
    cases hat
    exact .cancelled shut
  | dispatch up =>
    cases hat
    exact .queued
  | run idle first =>
    cases hat
    exact .entered (by simp) (by simp)
  | shut closed =>
    cases hat with
    | entered command _ => exact .shut command closed
  | letIn opened =>
    cases hat with
    | entered command hl =>
      obtain rfl := not_late hl opened
      exact .admitted command
  | encode =>
    cases hat with
    | admitted command => exact .unencodable command
  | gone closed =>
    cases hat with
    | admitted command => exact .shut command (hf.handle closed)
  | openHandle opened =>
    cases hat with
    | admitted command =>
      obtain rfl := hf.mine _ opened
      exact .opened command
  | command =>
    cases hat with
    | opened command => exact .running command (quotes_new _)
  | answer command back =>
    cases hat with
    | running _ hq => exact .ran command (hq.back back)
    | closing _ _ => exact absurd rfl command
  | leave =>
    cases hat with
    | ran command hb => exact .answered command hb
    | shut command hc => exact .refused command hc
    | unencodable command => exact .unencoded command
  | resume =>
    cases hat with
    | ran command hb => exact .answered command hb
    | shut command hc => exact .refused command hc
    | unencodable command => exact .unencoded command
  | already closed =>
    cases hat
    exact .nothing closed
  | pass opened =>
    cases hat with
    | begun hl =>
      obtain rfl := not_late hl opened
      exact .passed
  | mark =>
    cases hat
    exact .marked rfl
  | take =>
    cases hat with
    | marked hc =>
      cases hhandle : s.handle with
      | none => exact .late hc
      | some h =>
        obtain rfl := hf.mine h hhandle
        exact .taken hc
  | nothing =>
    cases hat with
    | late hc => exact .idle hc
  | close =>
    cases hat with
    | taken hc => exact .closing hc (quotes_new _)
  | closed back =>
    cases hat with
    | running command _ => exact absurd rfl command
    | closing hc hq => exact .finishing hc (hq.back back)
  | shutdown =>
    cases hat with
    | idle hc => exact .nothing hc
    | finishing hc hb => exact .closed hc hb rfl

/-! ## Who releases the handle -/

/-- The handle is with this call, or the bridge's close of it. -/
def Call.releases (c : Call) : Nat :=
  match c.kind, c.place, c.bridge with
  | .close, .taken (some _), _ => 1
  | .close, _, some _ => 1
  | _, _, _ => 0

def State.holds (s : State) : Nat := s.handle.toList.length

theorem Call.releases_of_ne {c : Call} (h : c.kind ≠ .close) : c.releases = 0 := by
  unfold Call.releases
  split <;> simp_all

/-- The handle is held by the database or by the close that took it, never by two. -/
theorem Move.releases (h : Move s i k place e place') (hat : At id s ⟨k, place, late, made⟩) :
    (⟨k, place', late, place'.bridge made⟩ : Call).releases + (s.apply i e).holds =
      (⟨k, place, late, made⟩ : Call).releases + s.holds := by
  by_cases hk : k = .close
  · subst hk
    cases h with
    | take =>
      cases hat with
      | marked hc => cases hhandle : s.handle <;> simp [Call.releases, State.holds, State.apply, hhandle, Place.bridge]
    | _ => cases hat <;> simp_all [Call.releases, State.holds, State.apply, Place.bridge]
  · rw [Call.releases_of_ne hk, Call.releases_of_ne hk]
    cases h with
    | take => exact absurd rfl hk
    | _ => rfl

/-- A call that has called the registry has called it once. -/
theorem Move.bridge_eq (h : Move s i k place e place') (hat : At id s ⟨k, place, late, some n⟩) :
    place'.bridge (some n) = some n := by
  cases h <;> cases hat <;> rfl

/-- The calls of the registry that quote the handle in a `close` are the database's own. -/
structure Ok (finish : UInt64) (id : HandleId) (s : State) : Prop where
  reach : (Handles.registry finish).Reach s.registry
  issued : id ∈ s.registry.issued.map (·.id)
  watched : Watched id s.registry
  flagged : Flagged id s
  calls : ∀ c ∈ s.calls, At id s c
  once : tally Call.releases s.calls + s.holds = 1
  quoted : ∀ n, Quotes s n (.close id) → ∃ (j : Nat) (c : Call), s.calls[j]? = some c ∧ c.kind = .close ∧ c.bridge = some n
  /-- Whoever sets the flag takes the handle next. -/
  owed : s.closed = true → s.handle = none ∨ ∃ (j : Nat) (c : Call), s.calls[j]? = some c ∧ c.place = .marked

variable {c : Call}

/-- What a move of the registry's or of a call leaves of the rest. -/
theorem Ok.grow (h : Ok finish id s) (hg : Grows s s') (hcalls : s'.calls = s.calls) : ∀ c ∈ s'.calls, At id s' c := by
  rw [hcalls]
  exact fun c hc => hg.at_ (h.calls c hc)

/-- A new caller breaks nothing. -/
theorem Ok.call (h : Ok finish id s) (kind : Kind) :
    Ok finish id { s with calls := s.calls ++ [⟨kind, .begun, s.closed, none⟩] } where
  reach := h.reach
  issued := h.issued
  watched := h.watched
  flagged := ⟨h.flagged.handle, h.flagged.mine, h.flagged.shutdown⟩
  calls c hc := by
    have hg : Grows s { s with calls := s.calls ++ [⟨kind, .begun, s.closed, none⟩] } := ⟨fun h => h, fun h => h, persists_refl _⟩
    obtain hold | hnew := List.mem_append.1 hc
    · exact hg.at_ (h.calls c hold)
    · rw [List.mem_singleton] at hnew
      subst hnew
      exact .begun fun hclosed => hclosed
  once := by
    rw [tally_append]
    have hnew : tally Call.releases [⟨kind, .begun, s.closed, none⟩] = 0 := by cases kind <;> rfl
    rw [hnew]
    exact h.once
  quoted n hq := by
    obtain ⟨j, c, hj, hkind, hbridge⟩ := h.quoted n hq
    exact ⟨j, c, getElem?_append_of_eq_some hj, hkind, hbridge⟩
  owed hclosed := by
    obtain htaken | ⟨j, c, hj, hmarked⟩ := h.owed hclosed
    · exact .inl htaken
    · exact .inr ⟨j, c, getElem?_append_of_eq_some hj, hmarked⟩

/-- Nor does a step of the registry. -/
theorem Ok.registry {r : Registry} {a : Registry.Act} (h : Ok finish id s) (own : ∀ op, a ≠ .call op)
    (hs : Registry.Step finish s.registry a r) : Ok finish id { s with registry := r } := by
  obtain ⟨op, hcall, -⟩ | hgoes := hs.goes
  · exact absurd hcall (own op)
  · refine ⟨h.reach.next hs, List.map_subset _ hs.issued_subset h.issued,
      h.watched.step (inv_of_reach h.reach) h.issued hs, ⟨h.flagged.handle, h.flagged.mine, h.flagged.shutdown⟩,
      h.grow ⟨fun h => h, fun h => h, hgoes.persists⟩ rfl, h.once, ?_, h.owed⟩
    rintro n ⟨c', hn, hop⟩
    obtain ⟨c, hc, hop'⟩ := hgoes.quoted hn
    exact h.quoted n ⟨c, hc, hop'.trans hop⟩

/-- A call of the registry by somebody. -/
theorem Ok.bridge (h : Ok finish id s) (op : Op) :
    (Handles.registry finish).Reach (State.call op s.registry) ∧ Watched id (State.call op s.registry) :=
  have hcall : Registry.Step finish s.registry (.call op) (State.call op s.registry) := .call op
  ⟨h.reach.next hcall, h.watched.step (inv_of_reach h.reach) h.issued hcall⟩

/-- Who quotes an id after a call was made. -/
theorem quotes_call {op op' : Op} {r : Handles.Call} (hn : (State.call op s.registry).calls[n]? = some r) (hop : r.op = op') :
    Quotes s n op' ∨ n = s.registry.calls.length ∧ op = op' := by
  unfold State.call at hn
  rw [List.getElem?_append] at hn
  split at hn
  · exact .inl ⟨r, hn, hop⟩
  · rename_i hlt
    obtain ⟨hlt', -⟩ := List.getElem?_eq_some_iff.1 hn
    rw [List.length_singleton] at hlt'
    have hlast : n = s.registry.calls.length := by omega
    rw [hlast, Nat.sub_self] at hn
    cases hn
    exact .inr ⟨hlast, hop⟩

/-- Nor does a call on another handle. -/
theorem Ok.other (h : Ok finish id s) (op : Op) (foreign : op.id ≠ some id) :
    Ok finish id { s with registry := State.call op s.registry } where
  reach := (h.bridge op).1
  issued := h.issued
  watched := (h.bridge op).2
  flagged := ⟨h.flagged.handle, h.flagged.mine, h.flagged.shutdown⟩
  calls := h.grow ⟨fun h => h, fun h => h, persists_call op⟩ rfl
  once := h.once
  quoted n hq := by
    obtain ⟨r, hn, hop⟩ := hq
    obtain hold | ⟨-, rfl⟩ := quotes_call hn hop
    · exact h.quoted n hold
    · exact absurd rfl foreign
  owed := h.owed

/-- The flag, the handle and the executor keep to their order. -/
theorem Flagged.apply (h : Flagged id s) (hm : Move s i k place e place') (hat : At id s ⟨k, place, late, made⟩) :
    Flagged id (s.apply i e) := by
  cases hm with
  | mark => exact ⟨fun _ => rfl, h.mine, fun _ => rfl⟩
  | take =>
    cases hat with
    | marked hc => exact ⟨fun _ => hc, (fun _ hh => by cases hh), h.shutdown⟩
  | shutdown =>
    cases hat with
    | idle hc => exact ⟨h.handle, h.mine, fun _ => hc⟩
    | finishing hc _ => exact ⟨h.handle, h.mine, fun _ => hc⟩
  | _ => exact ⟨h.handle, h.mine, h.shutdown⟩

/-- Only a close asks the bridge to close. -/
theorem Move.closes {h : HandleId} (hm : Move s i k place (.bridge (.close h)) place') :
    k = .close ∧ place' = .bridging s.registry.calls.length := by
  cases hm
  exact ⟨rfl, rfl⟩

/-- Whoever quotes the handle in a `close` did so before the move or does so in it. -/
theorem Move.quotes (hm : Move s i k place e place') (hq : Quotes (s.apply i e) n (.close id)) :
    Quotes s n (.close id) ∨ k = .close ∧ place' = .bridging n := by
  cases e with
  | bridge op =>
    obtain ⟨r, hn, hop⟩ := hq
    obtain hold | ⟨rfl, rfl⟩ := quotes_call hn hop
    · exact .inl hold
    · exact .inr hm.closes
  | _ => exact .inl hq

/-- A move sets the flag, takes the handle, or does neither and is not of a call that is to take it. -/
theorem Move.owes (hm : Move s i k place e place') :
    place' = .marked ∨ (s.apply i e).handle = none ∨
      ((s.apply i e).closed = s.closed ∧ (s.apply i e).handle = s.handle ∧ place ≠ .marked) := by
  cases hm with
  | mark => exact .inl rfl
  | take => exact .inr (.inl rfl)
  | _ => exact .inr (.inr ⟨rfl, rfl, by simp⟩)

theorem Ok.apply_registry (h : Ok finish id s) (e : Effect) :
    (Handles.registry finish).Reach (s.apply i e).registry ∧ id ∈ (s.apply i e).registry.issued.map (·.id) ∧
      Watched id (s.apply i e).registry := by
  cases e with
  | bridge op => exact ⟨(h.bridge op).1, h.issued, (h.bridge op).2⟩
  | _ => exact ⟨h.reach, h.issued, h.watched⟩

/-- Nor does a move of any caller. -/
theorem Ok.move {c : Call} (h : Ok finish id s) (hi : s.calls[i]? = some c) (hm : Move s i c.kind c.place e place') :
    Ok finish id ((s.apply i e).put i { c with place := place', bridge := place'.bridge c.bridge }) := by
  have hat := h.calls c (List.mem_of_getElem? hi)
  obtain ⟨hlt, -⟩ := List.getElem?_eq_some_iff.1 hi
  obtain ⟨kind, place, late, made⟩ := c
  dsimp only at hm ⊢
  obtain ⟨hreach, hissued, hwatched⟩ := h.apply_registry (i := i) e
  have hflagged := h.flagged.apply hm hat
  have hput : Grows (s.apply i e) ((s.apply i e).put i ⟨kind, place', late, place'.bridge made⟩) :=
    ⟨fun h => h, fun h => h, persists_refl _⟩
  have hcalls : ((s.apply i e).put i ⟨kind, place', late, place'.bridge made⟩).calls =
      s.calls.set i ⟨kind, place', late, place'.bridge made⟩ := by cases e <;> rfl
  refine ⟨hreach, hissued, hwatched, ⟨hflagged.handle, hflagged.mine, hflagged.shutdown⟩, ?_, ?_, ?_, ?_⟩
  · intro d hd
    rw [hcalls] at hd
    exact forall_mem_set (fun d hd => hput.at_ ((grows_apply e).at_ (h.calls d hd))) (hput.at_ (hm.at_ h.flagged hat)) d hd
  · have hmoved := tally_set Call.releases hi ⟨kind, place', late, place'.bridge made⟩
    have hreleases := hm.releases hat
    have honce := h.once
    rw [hcalls]
    change _ + (s.apply i e).holds = 1
    omega
  · intro n hq
    rw [hcalls]
    obtain hold | ⟨rfl, rfl⟩ := hm.quotes hq
    · obtain ⟨j, d, hj, hkind, hbridge⟩ := h.quoted n hold
      by_cases hij : i = j
      · subst hij
        cases hi.symm.trans hj
        refine ⟨i, _, List.getElem?_set_self hlt, hkind, ?_⟩
        dsimp only at hbridge ⊢
        subst hbridge
        exact hm.bridge_eq hat
      · exact ⟨j, d, (List.getElem?_set_ne hij).trans hj, hkind, hbridge⟩
    · exact ⟨i, _, List.getElem?_set_self hlt, rfl, rfl⟩
  · intro hclosed
    rw [hcalls]
    obtain rfl | htaken | ⟨hflag, hhandle, hplace⟩ := hm.owes
    · exact .inr ⟨i, _, List.getElem?_set_self hlt, rfl⟩
    · exact .inl htaken
    · obtain htaken | ⟨j, d, hj, hmarked⟩ := h.owed (hflag.symm.trans hclosed)
      · exact .inl (hhandle.trans htaken)
      · have hij : i ≠ j := by
          rintro rfl
          cases hi.symm.trans hj
          exact hplace hmarked
        exact .inr ⟨j, d, (List.getElem?_set_ne hij).trans hj, hmarked⟩

theorem ok_of_fresh (h : Fresh finish id s) : Ok finish id s where
  reach := h.reach
  issued := h.issued
  watched := by
    constructor
    · intro c hc hop
      exact absurd (congrArg Op.id hop) (h.unquoted c hc)
    · intro c hc hop
      exact absurd (congrArg Op.id hop) (h.unquoted c hc)
  flagged := by
    refine ⟨fun hhandle => ?_, fun h' hhandle => ?_, fun hdown => ?_⟩
    · rw [h.handle] at hhandle
      cases hhandle
    · rw [h.handle] at hhandle
      cases hhandle
      rfl
    · rw [h.shutdown] at hdown
      cases hdown
  calls c hc := by
    rw [h.calls] at hc
    cases hc
  once := by
    rw [h.calls, State.holds, h.handle]
    rfl
  quoted n hq := by
    obtain ⟨r, hr, hop⟩ := hq
    exact absurd (congrArg Op.id hop) (h.unquoted r (List.mem_of_getElem? hr))
  owed hclosed := by
    rw [h.closed] at hclosed
    cases hclosed

/-- Every run has it. -/
theorem ok_of_reach (h : (database finish id).Reach s) : Ok finish id s := by
  refine h.induct (I := Ok finish id) (fun s hs => ok_of_fresh hs) ?_
  intro s a s' _ hi hs
  cases hs with
  | call kind => exact hi.call kind
  | move hc hm => exact hi.move hc hm
  | registry own hs => exact hi.registry own hs
  | other op foreign => exact hi.other op foreign

/-! ## What callers are told -/

/-- One call of the registry closes the handle. -/
theorem Ok.closer_unique {m : Nat} (h : Ok finish id s) (hn : Quotes s n (.close id)) (hm : Quotes s m (.close id)) : n = m := by
  obtain ⟨i, c, hi, hkind, hbridge⟩ := h.quoted n hn
  obtain ⟨j, d, hj, hkind', hbridge'⟩ := h.quoted m hm
  have releases : ∀ (c : Call) (n : Nat), c.kind = .close → c.bridge = some n → c.releases = 1 := by
    rintro ⟨kind, place, late, made⟩ n rfl rfl
    unfold Call.releases
    split <;> simp_all
  have hij : i = j := by
    by_contra hne
    have htwo := add_le_tally Call.releases hi hj hne
    rw [releases c n hkind hbridge, releases d m hkind' hbridge'] at htwo
    have := h.once
    omega
  subst hij
  obtain rfl : c = d := Option.some.inj (hi.symm.trans hj)
  exact Option.some.inj (hbridge.symm.trans hbridge')

/-- It finds the client, and closes it. -/
theorem Ok.closed {outcome : Handles.Outcome} (h : Ok finish id s) (hb : Back s n (.close id) outcome) :
    ∃ r issue answer, s.registry.calls[n]? = some r ∧ r.op = .close id ∧ r.pc = .returned outcome ∧
      issue ∈ s.registry.issued ∧ issue.id = id ∧ r.made = [.close issue.client] ∧ outcome = .engine answer := by
  obtain ⟨r, hr, hop, hpc⟩ := hb
  obtain ⟨issue, hissue, rfl⟩ := List.mem_map.1 h.issued
  have hmem := List.mem_of_getElem? hr
  have once := (inv_of_reach h.reach).closedOnce hissue
  obtain ⟨-, hmade, answer, hanswer⟩ | ⟨hnone, -, -⟩ := once.returned r hmem hop outcome hpc
  · exact ⟨r, issue, answer, hr, hop, hpc, hissue, rfl, hmade, hanswer⟩
  · -- It knew the id, so some `close` has the entry, and there is no other.
    have hknown : r.known = true := by simpa [hpc] using h.watched.known r hmem hop
    obtain ⟨m, r', hr', hop', hsome, -⟩ := once.one ⟨r, hmem, hop, hknown⟩
    obtain rfl := h.closer_unique ⟨r, hr, hop⟩ ⟨r', hr', hop'⟩
    obtain rfl : r = r' := Option.some.inj (hr.symm.trans hr')
    rw [hnone] at hsome
    cases hsome

/-- The flag is set and every `close` has returned: one of them closed the handle. -/
theorem Ok.closer (h : Ok finish id s) (hclosed : s.closed = true)
    (hover : ∀ c ∈ s.calls, c.kind = .close → ∃ outcome, c.place = .returned outcome) :
    ∃ c ∈ s.calls, ∃ outcome, c.place = .returned (.closed (some outcome)) := by
  have htaken : s.handle = none := by
    obtain htaken | ⟨j, c, hj, hmarked⟩ := h.owed hclosed
    · exact htaken
    · have hmem := List.mem_of_getElem? hj
      have hkind : c.kind = .close := by
        cases h.calls c hmem <;> cases hmarked
        rfl
      obtain ⟨outcome, hreturned⟩ := hover c hmem hkind
      rw [hmarked] at hreturned
      cases hreturned
  have hone : 0 < tally Call.releases s.calls := by
    have honce := h.once
    rw [State.holds, htaken, Option.toList_none, List.length_nil] at honce
    omega
  obtain ⟨j, c, hj, hreleases⟩ := exists_of_tally_pos hone
  have hmem := List.mem_of_getElem? hj
  have hkind : c.kind = .close := by
    by_contra hkind
    rw [Call.releases_of_ne hkind] at hreleases
    cases hreleases
  obtain ⟨outcome, hreturned⟩ := hover c hmem hkind
  -- of the places a `close` returns from, only the one after the bridge releases the handle
  cases h.calls c hmem with
  | closed => exact ⟨_, hmem, _, rfl⟩
  | nothing => cases hreleases
  | answered command | refused command | unencoded command => exact absurd hkind command
  | rejected | cancelled => cases hkind
  | _ => cases hreturned

theorem At.closed_of_bridge {c : Call} (h : At id s c) (hkind : c.kind = .close) (hbridge : c.bridge = some n) :
    s.closed = true := by
  cases h <;> simp_all

/-- A command the registry turned away came to a database that was being closed. -/
theorem Ok.closed_of_turnedAway {r : Handles.Call} (h : Ok finish id s) (hmem : r ∈ s.registry.calls)
    (hop : r.op = .runCommand id) (haway : r.turnedAway) : s.closed = true := by
  obtain ⟨r', hmem', hop'⟩ := h.watched.missed r hmem hop haway
  obtain ⟨m, hm⟩ := List.getElem?_of_mem hmem'
  obtain ⟨j, c, hj, hkind, hbridge⟩ := h.quoted m ⟨r', hm, hop'⟩
  exact (h.calls c (List.mem_of_getElem? hj)).closed_of_bridge hkind hbridge

/-- What a command that reached the bridge was told. -/
theorem Ok.answered {outcome : Handles.Outcome} (h : Ok finish id s) (hb : Back s n (.runCommand id) outcome) :
    (∃ r issue answer, s.registry.calls[n]? = some r ∧ issue ∈ s.registry.issued ∧ issue.id = id ∧
      r.made = [.runCommand issue.client] ∧ outcome = .engine answer) ∨
    (outcome = .failed (Handles.closed id) ∧ s.closed = true) := by
  obtain ⟨r, hr, hop, hpc⟩ := hb
  have hclosed := h.closed_of_turnedAway (List.mem_of_getElem? hr) hop
  cases (inv_of_reach h.reach).legit n r hr <;> cases hpc <;> cases hop
  · rename_i hid
    cases hid
    exact .inr ⟨rfl, hclosed (.inr ⟨_, .inr rfl⟩)⟩
  · rename_i issue _ _ hissue hid
    exact .inl ⟨_, issue, _, hr, List.mem_of_getElem? hissue, (Option.some.inj hid).symm, rfl, rfl⟩
  · exact .inr ⟨rfl, hclosed (.inr ⟨_, .inr rfl⟩)⟩

/-- Whatever threads and coroutines do, and whatever is done with other handles: the bridge is asked
to close the handle at most once, and once the flag is set and every `close` has returned it has
been asked; that call finds the client and closes it, and by the time its `close` returns the
executor is shut down. A command that came after the flag was set is told that the
database is closed, and nothing else happens. One that was let in is run by the engine, or it is
told so too, by the flag, by the handle or by the bridge, or its coroutine is cancelled, each only
because a `close` came while it was under way; a cancelled coroutine has not reached the bridge. -/
theorem callers_of_a_closing_database_are_told {finish : UInt64} {id : HandleId} {s : State}
    (h : (database finish id).Reach s) :
    (∀ (n m : Nat) (r r' : Handles.Call), s.registry.calls[n]? = some r → s.registry.calls[m]? = some r' →
      r.op = .close id → r'.op = .close id → n = m) ∧
    (s.closed = true → (∀ c ∈ s.calls, c.kind = .close → ∃ outcome, c.place = .returned outcome) →
      ∃ c ∈ s.calls, ∃ outcome, c.place = .returned (.closed (some outcome))) ∧
    (∀ c ∈ s.calls, ∀ outcome, c.place = .returned (.closed (some outcome)) →
      s.closed = true ∧ s.shutdown = true ∧ ∃ n r issue answer, c.bridge = some n ∧ s.registry.calls[n]? = some r ∧
        r.op = .close id ∧ r.pc = .returned outcome ∧ issue ∈ s.registry.issued ∧ issue.id = id ∧
        r.made = [.close issue.client] ∧ outcome = .engine answer) ∧
    (∀ c ∈ s.calls, c.late = true → c.kind ≠ .close →
      c.bridge = none ∧ ∀ outcome, c.place = .returned outcome → outcome = .illegalState ∨ outcome = .rejected) ∧
    (∀ c ∈ s.calls, ∀ outcome, c.place = .returned (.bridge outcome) →
      (∃ n r issue answer, c.bridge = some n ∧ s.registry.calls[n]? = some r ∧ issue ∈ s.registry.issued ∧
        issue.id = id ∧ r.made = [.runCommand issue.client] ∧ outcome = .engine answer) ∨
      (outcome = .failed (Handles.closed id) ∧ s.closed = true)) ∧
    (∀ c ∈ s.calls, c.place = .returned .illegalState → s.closed = true ∧ c.bridge = none) ∧
    (∀ c ∈ s.calls, c.place = .returned .cancelled → s.closed = true ∧ s.shutdown = true ∧ c.bridge = none) := by
  have ok := ok_of_reach h
  refine ⟨?_, ok.closer, ?_, ?_, ?_, ?_, ?_⟩
  · intro n m r r' hr hr' hop hop'
    exact ok.closer_unique ⟨r, hr, hop⟩ ⟨r', hr', hop'⟩
  · intro c hc outcome hplace
    cases ok.calls c hc <;> cases hplace
    rename_i n hclosed hdown hb
    obtain ⟨r, issue, answer, hr, hop, hpc, hissue, hid, hmade, hanswer⟩ := ok.closed hb
    exact ⟨hclosed, hdown, n, r, issue, answer, rfl, hr, hop, hpc, hissue, hid, hmade, hanswer⟩
  · intro c hc hlate hkind
    have hat := ok.calls c hc
    refine ⟨?_, fun outcome hplace => ?_⟩
    · cases hat with
      | running | ran | answered | closing | finishing | closed => cases hlate
      | _ => rfl
    · cases hat <;> cases hplace <;> simp_all
  · intro c hc outcome hplace
    cases ok.calls c hc <;> cases hplace
    rename_i n _ hb
    obtain ⟨r, issue, answer, hr, hissue, hid, hmade, hanswer⟩ | htold := ok.answered hb
    · exact .inl ⟨n, r, issue, answer, rfl, hr, hissue, hid, hmade, hanswer⟩
    · exact .inr htold
  · intro c hc hplace
    cases ok.calls c hc <;> cases hplace
    exact ⟨‹_›, rfl⟩
  · intro c hc hplace
    cases ok.calls c hc <;> cases hplace
    rename_i hdown
    exact ⟨ok.flagged.shutdown hdown, hdown, rfl⟩

/-- A coroutine has looked at the flag and not dispatched yet; a `close` comes, closes the client and
shuts the executor down, and the coroutine is cancelled. -/
theorem coroutine_overtaken_by_a_close_is_cancelled :
    ∃ (id : HandleId) (s : State), (database 0 id).Reach s ∧
      (s.calls.map fun c => c.kind) = [.suspending, .close] ∧
      (∃ c ∈ s.calls, c.place = .returned .cancelled ∧ s.closed = true ∧ s.shutdown = true ∧ c.bridge = none) ∧
      ∃ c ∈ s.calls, ∃ (n : Nat) (r : Handles.Call) (issue : Issue), c.bridge = some n ∧ s.registry.calls[n]? = some r ∧
        r.op = .close id ∧ issue.id = id ∧ r.made = [.close issue.client] := by
  let id : HandleId := ⟨0x100000001, by decide⟩
  let mapped : HandleId → Option Nat := Function.update (fun _ => none) id (some 0)
  let issued : Handles.Call := ⟨.insert, .returned (.issued id), none, false, []⟩
  let r₀ : Registry := ⟨.next 1 2, mapped, none, [⟨.new, some 0⟩], [issued], [⟨id, 0⟩]⟩
  have registered : (Handles.registry 0).Reach .new := .init rfl
  replace registered := registered.next (Registry.Step.call .insert)
  replace registered := registered.next (Registry.Step.lock (i := 0) rfl rfl rfl)
  replace registered := registered.next (Registry.Step.section_ (i := 0) rfl rfl)
  replace registered := registered.next (Registry.Step.unlock (i := 0) rfl rfl)
  replace registered : (Handles.registry 0).Reach r₀ := registered
  have h : (database 0 id).Reach ⟨r₀, false, some id, false, [], none, []⟩ :=
    .init ⟨registered, by simp [r₀], by simp [r₀, issued, Op.id], rfl, rfl, rfl, rfl, rfl, rfl⟩
  replace h := h.next (Step.call .suspending)
  replace h := h.next (Step.move (i := 0) rfl (.check rfl))
  replace h := h.next (Step.call .close)
  replace h := h.next (Step.move (i := 1) rfl (.pass rfl))
  replace h := h.next (Step.move (i := 1) rfl .mark)
  replace h := h.next (Step.move (i := 1) rfl .take)
  replace h := h.next (Step.move (i := 1) rfl .close)
  replace h := h.next (Step.registry (by simp) (Registry.Step.lock (i := 1) rfl rfl rfl))
  replace h := h.next (Step.registry (by simp) (Registry.Step.section_ (i := 1) rfl rfl))
  replace h := h.next (Step.registry (by simp) (Registry.Step.unlock (i := 1) rfl rfl))
  replace h := h.next (Step.registry (by simp) (Registry.Step.write (i := 1) (e := 0) rfl rfl rfl rfl rfl rfl))
  replace h := h.next (Step.registry (by simp) (Registry.Step.shutdown (i := 1) (e := 0) rfl rfl rfl rfl rfl rfl))
  replace h := h.next (Step.registry (by simp) (Registry.Step.answer (i := 1) (.closed (.ok ())) rfl rfl rfl))
  replace h := h.next (Step.registry (by simp) (Registry.Step.releaseWrite (i := 1) (e := 0) rfl rfl rfl rfl rfl))
  replace h := h.next (Step.move (i := 1) rfl (.closed ⟨_, rfl, rfl⟩))
  replace h := h.next (Step.move (i := 1) rfl .shutdown)
  replace h := h.next (Step.move (i := 0) rfl (.cancel rfl))
  obtain ⟨-, hasked, hclosed, -, -, -, hcancelled⟩ := callers_of_a_closing_database_are_told h
  obtain ⟨c, hc, outcome, hreturned⟩ := hasked rfl
    (List.forall_mem_cons.2 ⟨fun _ => ⟨_, rfl⟩, List.forall_mem_singleton.2 fun _ => ⟨_, rfl⟩⟩)
  obtain ⟨-, -, n, r, issue, answer, hn, hr, hop, -, -, hid, hmade, -⟩ := hclosed c hc outcome hreturned
  exact ⟨id, _, h, rfl, ⟨_, List.mem_of_getElem? (i := 0) rfl, rfl, hcancelled _ (List.mem_of_getElem? (i := 0) rfl) rfl⟩,
    c, hc, n, r, issue, hn, hr, hop, hid, hmade⟩

end EmbeddedMongo.Android.Facade
