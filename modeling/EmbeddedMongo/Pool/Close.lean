import EmbeddedMongo.Error
import EmbeddedMongo.Pool.Interrupt

/-!
# A blocking close is eager

`Client::close` of `src/client.rs`, the drop of `SessionPool` it starts with, and the close of
`embedded-mongodb-sys/src/client.rs` it ends with. The engine's handle is an `Arc` the client
shares with every `SessionInner`, and a `SessionInner` is shared by its `Session` and by the
`Killer` in the slot of a running command. The native close closes the engine then and there
only for the sole owner; to anybody else it says `Ok` and does nothing.
-/

namespace EmbeddedMongo.Pool

open Conc

variable {limits : Concurrency}

namespace Sys

/-- A slot holds a `Killer` of the session `x`. -/
def killerAt (x : Nat) (s : Sys) : Bool := s.calls.any fun k => decide (k.slot = .running x)

/-- The `SessionInner` of `x` is alive. -/
def innerAt (x : Nat) (s : Sys) : Bool := s.liveAt x = 1 || s.killerAt x

/-- The strong count of the runtime: the client's handle, and one for each `SessionInner`. -/
def owners (s : Sys) : Nat := 1 + (List.range s.sessions.length).countP fun x => s.innerAt x

end Sys

/-- `embedded_mongodb_sys::Client::close` with `owners` handles about and `engine` what the
engine's own close says: whether it closed the engine, and its answer. -/
def nativeClose (owners : Nat) (engine : Except Error Unit) : Bool × Except Error Unit :=
  if owners = 1 then (true, engine) else (false, .ok ())

/-- How far `Client::close` is. -/
inductive Ending where
  /-- Not called yet. -/
  | serving
  /-- Inside `SessionPool::drop`, waiting for the reaper it told to stop. -/
  | joining
  /-- `SessionPool::drop` has returned, and the pool's fields drop: its sessions one by one. -/
  | dropping
  /-- The pool is gone; the runtime's close is next. -/
  | releasing
  | closed (eager : Bool) (answer : Except Error Unit)

structure Client where
  pool : Sys
  ending : Ending

namespace Client

inductive Act where
  | pool (act : Pool.Act)
  | close
  | join
  | dropIdle
  | dropped
  | closeRuntime

/-- The step is one of the close's own, once it has begun: its thread's, or the reaper's it
waits for. -/
def Act.own : Act → Prop
  | .pool .look | .pool .destroy | .pool .count | .join | .dropIdle | .dropped | .closeRuntime => True
  | .pool _ | .close => False

/-- The atomic steps of a client's life. Its pool takes its own, but for the one that is
`SessionPool::drop`'s; `close` consumes the client, so no command is inside the pool then and
none comes after. -/
inductive Step (limits : Concurrency) (engine : Except Error Unit) : Client → Act → Client → Prop where
  | pool {c : Client} {a : Pool.Act} {p : Sys} (hs : Pool.Step limits c.pool a p) (undropped : a ≠ .stopReaping)
      (there : c.ending ≠ .serving → a ≠ .call) : Step limits engine c (.pool a) { c with pool := p }
  | close {c : Client} (h : c.ending = .serving) (free : ∀ k ∈ c.pool.calls, k.pc = .returned)
      (reaper : c.pool.reaper ≠ .none) :
      Step limits engine c .close
        { c with pool := { c.pool with state := { c.pool.state with closing := true } }, ending := .joining }
  | closeUnreaped {c : Client} (h : c.ending = .serving) (free : ∀ k ∈ c.pool.calls, k.pc = .returned)
      (reaper : c.pool.reaper = .none) : Step limits engine c .close { c with ending := .dropping }
  | join {c : Client} (h : c.ending = .joining) (reaper : c.pool.reaper = .stopped) :
      Step limits engine c .join { c with ending := .dropping }
  | dropIdle {c : Client} {entry : Idle Nat} {rest : List (Idle Nat)} {session : Session}
      (h : c.ending = .dropping) (idle : c.pool.state.idle = entry :: rest)
      (hx : c.pool.sessions[entry.session]? = some session) :
      Step limits engine c .dropIdle
        { c with pool := { c.pool with
            state := { c.pool.state with idle := rest }
            sessions := c.pool.sessions.set entry.session { session with live := false } } }
  | dropped {c : Client} (h : c.ending = .dropping) (idle : c.pool.state.idle = []) :
      Step limits engine c .dropped { c with ending := .releasing }
  | closeRuntime {c : Client} (h : c.ending = .releasing) :
      Step limits engine c .closeRuntime
        { c with ending := .closed (nativeClose c.pool.owners engine).1 (nativeClose c.pool.owners engine).2 }

end Client

/-- A client from its open on. -/
def client (limits : Concurrency) (engine : Except Error Unit) : System Client Client.Act where
  init c := Opened limits c.pool ∧ c.ending = .serving
  step := Client.Step limits engine

/-! ## A pool nobody is inside of -/

/-- The call is over: outside the pool, its slot with nothing to interrupt. -/
structure Call.Over (k : Call) : Prop where
  ok : k.Ok
  returned : k.pc = .returned

namespace Call.Over

variable {k : Call}

theorem unarmed (h : k.Over) (x : Nat) : k.slot ≠ .running x := by
  apply h.ok.outside
  intro x
  simp [h.returned]

/-- No cancel is half way through it. -/
theorem unlocked (h : k.Over) : k.lock = .free := by
  refine Classical.byContradiction fun hl => ?_
  obtain ⟨x, hx⟩ := h.ok.locked hl
  exact h.unarmed x hx

theorem cancel (h : k.Over) : k.cancel.Over :=
  ⟨h.ok.cancel h.unlocked, (Call.cancel_pc k).trans h.returned⟩

end Call.Over

/-- What is left to happen in a pool all of whose calls are over: the clock, late cancels, and
the reaper. -/
theorem Step.stay_over {s s' : Sys} {a : Act} (h : ∀ k ∈ s.calls, k.Over) (hs : Step limits s a s') (hcall : a ≠ .call)
    (hstop : a ≠ .stopReaping) :
    (∀ k ∈ s'.calls, k.Over) ∧
      (s'.state = s.state ∧ s'.sessions = s.sessions ∧ s'.reaper = s.reaper ∨ a = .look ∨ a = .destroy ∨ a = .count) := by
  have ended : ∀ {c : Nat} {k : Call}, s.calls[c]? = some k → k.Over := fun hk => h _ (List.mem_of_getElem? hk)
  -- a step of a call starts from somewhere a call that is over is not
  have nowhere : ∀ {P : Prop} {c : Nat} {k : Call} {pc : Pc}, s.calls[c]? = some k → k.pc = pc → pc ≠ .returned → P :=
    fun hk hpc hne => absurd (hpc.symm.trans (ended hk).returned) hne
  cases hs with
  | tick => exact ⟨h, .inl ⟨rfl, rfl, rfl⟩⟩
  | call => exact absurd rfl hcall
  | checkout hk pc =>
    rcases pc with pc | pc
    · exact nowhere hk pc (by simp)
    · exact nowhere hk pc (by simp)
  | growOk hk pc | growErr hk pc | wake hk pc => exact nowhere hk pc (by simp)
  | notifyOne hk pc | notifyNobody hk pc =>
    rcases pc with pc | pc
    · exact nowhere hk pc (by simp)
    · exact nowhere hk pc (by simp)
  | start hk pc | attach hk pc | refuse hk pc | detach hk pc | disarm hk pc | giveBack hk pc =>
    exact nowhere hk pc (by simp)
  | cancel hk =>
    exact ⟨forall_mem_set h (ended hk).cancel, .inl ⟨rfl, rfl, rfl⟩⟩
  | interrupt hk lock | cancelDone hk lock =>
    rw [(ended hk).unlocked] at lock
    cases lock
  | look =>
    refine ⟨?_, .inr (.inl rfl)⟩
    rw [(Sys.pass_cases _ _ s).moves.1]
    exact h
  | destroy => exact ⟨h, .inr (.inr (.inl rfl))⟩
  | count =>
    refine ⟨?_, .inr (.inr (.inr rfl))⟩
    rw [(Sys.pass_cases _ _ _).moves.1]
    intro k hk
    obtain ⟨k, hmem, rfl⟩ := List.mem_map.1 hk
    rw [if_neg (by simp [(h k hmem).returned])]
    exact h k hmem
  | stopReaping => exact absurd rfl hstop

/-- The reaper has nothing left to do: there is none, or it has stopped. -/
def Reaper.isOver (r : Reaper) : Prop := r = .none ∨ r = .stopped

theorem Step.reaper_over {s s' : Sys} {a : Act} (h : s.reaper.isOver) (hs : Step limits s a s') :
    s'.reaper = s.reaper ∧ a ≠ .look ∧ a ≠ .destroy ∧ a ≠ .count := by
  cases hs with
  | look _ reaper =>
    rcases h with h | h <;> rw [h] at reaper <;> simp at reaper
  | destroy reaper | count _ reaper =>
    rcases h with h | h <;> rw [h] at reaper <;> cases reaper
  | _ => exact ⟨rfl, by simp, by simp, by simp⟩

/-- Steps the reaper has left on a pool that is closing. -/
def Reaper.rank : Reaper → Nat
  | .none | .stopped => 0
  | .looking | .waiting _ => 1
  | .destroying left _ => left.length + 2

/-- A session that is idle or being destroyed is there. -/
theorem Ledger.found {s : Sys} {x : Nat} (h : Ledger limits s)
    (hx : 0 < (s.state.idle.map Idle.session).count x + s.reaper.left.count x) : ∃ session, s.sessions[x]? = some session := by
  have hplace := h.place x
  cases hs : s.sessions[x]? with
  | some session => exact ⟨session, rfl⟩
  | none =>
    simp only [Sys.places, Sys.liveAt, hs, Option.map_none, Option.getD_none] at hplace
    omega

/-- With every call over and the reaper too, the live sessions are the idle ones. -/
theorem Ledger.idle_of_over {s : Sys} (h : Ledger limits s) (ended : ∀ k ∈ s.calls, k.Over) (reaper : s.reaper.isOver)
    (x : Nat) : s.liveAt x = (s.state.idle.map Idle.session).count x := by
  have hheld : s.heldAt x = 0 := by
    apply tally_eq_zero.2
    intro k hk
    simp [(ended k hk).returned, Pc.seat, Seat.holdsAt]
  have hleft : s.reaper.left = [] := by
    rcases reaper with hr | hr <;> rw [hr] <;> rfl
  rw [← h.place x, Sys.places, hheld, hleft]
  simp

/-- With no session live and no command armed, the client's handle is the only one. -/
theorem Sys.owners_of_gone {s : Sys} (ended : ∀ k ∈ s.calls, k.Over) (gone : ∀ x, s.liveAt x = 0) : s.owners = 1 := by
  have hinner : ∀ x, s.innerAt x = false := by
    intro x
    have hkiller : s.killerAt x = false := by
      rw [Sys.killerAt, List.any_eq_false]
      intro k hk
      simpa using (ended k hk).unarmed x
    simp [Sys.innerAt, gone x, hkiller]
  simp [Sys.owners, hinner]

/-! ## The close, from its first step to its answer -/

/-- What holds of the client at each stage of its close. -/
def Client.Ends (limits : Concurrency) (engine : Except Error Unit) (c : Client) : Prop :=
  match c.ending with
  | .serving => (Pool.pool limits).Reach c.pool
  | .joining =>
    (Pool.pool limits).Reach c.pool ∧ (∀ k ∈ c.pool.calls, k.Over) ∧ c.pool.state.closing = true ∧ c.pool.reaper ≠ .none
  | .dropping =>
    (∀ k ∈ c.pool.calls, k.Over) ∧ c.pool.reaper.isOver ∧
      ∀ x, c.pool.liveAt x = (c.pool.state.idle.map Idle.session).count x
  | .releasing => (∀ k ∈ c.pool.calls, k.Over) ∧ c.pool.reaper.isOver ∧ ∀ x, c.pool.liveAt x = 0
  | .closed eager answer => c.pool.reaper.isOver ∧ eager = true ∧ answer = engine

/-- A pass of the reaper over a pool that is closing is its last. -/
theorem Sys.pass_closing {s : Sys} {min timeout : Nat} (h : s.state.closing = true) :
    s.pass min timeout = { s with reaper := .stopped } := by
  simp [Sys.pass, h]

theorem Step.joining {s s' : Sys} {a : Act} (ended : ∀ k ∈ s.calls, k.Over) (closing : s.state.closing = true)
    (reaper : s.reaper ≠ .none) (hs : Step limits s a s') (hcall : a ≠ .call) (hstop : a ≠ .stopReaping) :
    (∀ k ∈ s'.calls, k.Over) ∧ s'.state.closing = true ∧ s'.reaper ≠ .none := by
  obtain ⟨hover, ⟨hstate, -, hreaper⟩ | hact⟩ := Step.stay_over ended hs hcall hstop
  · exact ⟨hover, hstate ▸ closing, hreaper ▸ reaper⟩
  · refine ⟨hover, ?_⟩
    cases hs with
    | look =>
      rw [Sys.pass_closing closing]
      exact ⟨closing, by simp⟩
    | destroy => exact ⟨closing, by simp⟩
    | @count timeout closed _ _ =>
      rw [Sys.pass_closing (s := { s with state := s.state.closed closed, calls := Sys.wakeAll s.calls }) closing]
      exact ⟨closing, by simp⟩
    | _ => simp at hact

namespace Client

variable {engine : Except Error Unit} {c c' : Client}

theorem Ends.pool {a : Pool.Act} {p : Sys} (h : c.Ends limits engine) (hs : Pool.Step limits c.pool a p)
    (undropped : a ≠ .stopReaping) (there : c.ending ≠ .serving → a ≠ .call) :
    Ends limits engine { c with pool := p } := by
  obtain ⟨s, ending⟩ := c
  cases ending with
  | serving => exact System.Reach.next h hs
  | joining =>
    obtain ⟨hr, ended, closing, reaper⟩ := h
    exact ⟨System.Reach.next hr hs, Step.joining ended closing reaper hs (there (by simp)) undropped⟩
  | dropping =>
    obtain ⟨ended, reaper, idle⟩ := h
    obtain ⟨hreaper, hlook, hdestroy, hcount⟩ := Step.reaper_over reaper hs
    obtain ⟨hover, ⟨hstate, hsessions, -⟩ | hact⟩ := Step.stay_over ended hs (there (by simp)) undropped
    · refine ⟨hover, hreaper ▸ reaper, fun x => ?_⟩
      show p.liveAt x = _
      rw [Sys.liveAt, hsessions, hstate]
      exact idle x
    · simp [hlook, hdestroy, hcount] at hact
  | releasing =>
    obtain ⟨ended, reaper, gone⟩ := h
    obtain ⟨hreaper, hlook, hdestroy, hcount⟩ := Step.reaper_over reaper hs
    obtain ⟨hover, ⟨-, hsessions, -⟩ | hact⟩ := Step.stay_over ended hs (there (by simp)) undropped
    · refine ⟨hover, hreaper ▸ reaper, fun x => ?_⟩
      show p.liveAt x = 0
      rw [Sys.liveAt, hsessions]
      exact gone x
    · simp [hlook, hdestroy, hcount] at hact
  | closed =>
    obtain ⟨reaper, heager, hanswer⟩ := h
    exact ⟨(Step.reaper_over reaper hs).1 ▸ reaper, heager, hanswer⟩

/-- Dropping an idle session leaves the others where they are. -/
theorem liveAt_dropIdle {s : Sys} {entry : Idle Nat} {rest : List (Idle Nat)} {session : Session}
    (live : ∀ x, s.liveAt x = (s.state.idle.map Idle.session).count x) (idle : s.state.idle = entry :: rest)
    (hx : s.sessions[entry.session]? = some session) (x : Nat) :
    Sys.liveAt x { s with
        state := { s.state with idle := rest }
        sessions := s.sessions.set entry.session { session with live := false } } =
      (rest.map Idle.session).count x := by
  have hlive := live x
  rw [idle, List.map_cons, List.count_cons] at hlive
  obtain ⟨hlt, hget⟩ := List.getElem?_eq_some_iff.1 hx
  by_cases heq : entry.session = x
  · subst heq
    have hone : s.liveAt entry.session ≤ 1 := by
      simp only [Sys.liveAt, hx, Option.map_some, Option.getD_some, Session.alive]
      split <;> omega
    simp only [beq_self_eq_true, if_true] at hlive
    simp only [Sys.liveAt, List.getElem?_set_self hlt, Option.map_some, Option.getD_some, Session.alive]
    simp only [Bool.false_eq_true, if_false]
    omega
  · simp only [beq_iff_eq, heq, if_false, Nat.add_zero] at hlive
    simp only [Sys.liveAt, List.getElem?_set_ne heq]
    exact hlive

theorem Ends.step {a : Act} (h : c.Ends limits engine) (hs : Step limits engine c a c') : c'.Ends limits engine := by
  have ended : ∀ {s : Sys}, (Pool.pool limits).Reach s → (∀ k ∈ s.calls, k.pc = .returned) → ∀ k ∈ s.calls, k.Over :=
    fun hr free k hk => ⟨(sound_of_reach hr).calls k hk, free k hk⟩
  obtain ⟨s, ending⟩ := c
  cases hs with
  | pool hs undropped there => exact Ends.pool h hs undropped there
  | close hend free reaper =>
    cases hend
    exact ⟨System.Reach.next h (.stopReaping free), ended (s := s) h free, rfl, reaper⟩
  | closeUnreaped hend free reaper =>
    cases hend
    exact ⟨ended h free, .inl reaper, (ledger_of_reach h).idle_of_over (ended h free) (.inl reaper)⟩
  | join hend reaper =>
    cases hend
    obtain ⟨hr, hover, -, -⟩ := h
    exact ⟨hover, .inr reaper, (ledger_of_reach hr).idle_of_over hover (.inr reaper)⟩
  | dropIdle hend idle hx =>
    cases hend
    obtain ⟨hover, reaper, live⟩ := h
    exact ⟨hover, reaper, liveAt_dropIdle live idle hx⟩
  | dropped hend idle =>
    cases hend
    obtain ⟨hover, reaper, live⟩ := h
    refine ⟨hover, reaper, fun x => ?_⟩
    have hnone := live x
    rw [idle] at hnone
    exact hnone
  | closeRuntime hend =>
    cases hend
    obtain ⟨hover, reaper, gone⟩ := h
    have howners := Sys.owners_of_gone hover gone
    refine ⟨reaper, ?_⟩
    simp [nativeClose, howners]

theorem ends_of_reach (h : (client limits engine).Reach c) : c.Ends limits engine := by
  refine h.induct (fun c hi => ?_) (fun _ _ _ _ ih hs => ih.step hs)
  obtain ⟨s, ending⟩ := c
  obtain ⟨hopened, rfl⟩ : Opened limits s ∧ ending = .serving := hi
  exact .init hopened

/-! ## The close comes to its end -/

/-- Steps the close has left. -/
def rank (c : Client) : Nat :=
  match c.ending with
  | .joining => c.pool.reaper.rank + c.pool.state.idle.length + 3
  | .dropping => c.pool.state.idle.length + 2
  | .releasing => 1
  | .serving | .closed _ _ => 0

theorem Step.rank_lt {a : Act} (h : c.Ends limits engine) (begun : c.ending ≠ .serving) (ha : a.own)
    (hs : Step limits engine c a c') : c'.rank < c.rank := by
  obtain ⟨s, ending⟩ := c
  cases hs with
  | close | closeUnreaped => exact ha.elim
  | join hend reaper =>
    cases hend
    simp only [rank]
    omega
  | dropIdle hend idle =>
    cases hend
    simp only [rank] at idle ⊢
    simp [idle]
  | dropped hend | closeRuntime hend =>
    cases hend
    simp [rank]
  | pool hs undropped there =>
    have reaping : s.reaper.isOver → False := by
      intro hover
      obtain ⟨-, hlook, hdestroy, hcount⟩ := Step.reaper_over hover hs
      cases hs <;> simp_all [Act.own]
    cases ending with
    | serving => exact absurd rfl begun
    | dropping | releasing => exact (reaping h.2.1).elim
    | closed => exact (reaping h.1).elim
    | joining =>
      obtain ⟨-, -, closing, -⟩ := h
      cases hs with
      | look _ reaper =>
        rw [Sys.pass_closing closing]
        rcases reaper with hr | ⟨wait, hr⟩
        · have hreaper : s.reaper = .looking := hr
          simp [rank, hreaper, Reaper.rank]
        · have hreaper : s.reaper = .waiting wait := hr
          simp [rank, hreaper, Reaper.rank]
      | @destroy x closed left _ reaper =>
        have hreaper : s.reaper = .destroying (x :: left) closed := reaper
        simp [rank, hreaper, Reaper.rank]
      | @count timeout closed _ reaper =>
        have hreaper : s.reaper = .destroying [] closed := reaper
        rw [Sys.pass_closing (s := { s with state := s.state.closed closed, calls := Sys.wakeAll s.calls }) closing]
        simp [rank, hreaper, Reaper.rank, State.closed]
      | _ => exact ha.elim

/-- A close that has begun always has a next step, up to its answer. -/
theorem Ends.closed_of_atRest (h : c.Ends limits engine) (begun : c.ending ≠ .serving)
    (hr : (client limits engine).AtRest Act.own c) : c.ending = .closed true engine := by
  have blocked : ∀ {P : Prop} {a : Act} {c' : Client}, Step limits engine c a c' → a.own → P :=
    fun hs ha => absurd hs (hr _ _ ha)
  obtain ⟨s, ending⟩ := c
  cases ending with
  | serving => exact absurd rfl begun
  | joining =>
    obtain ⟨hreach, -, -, hnone⟩ := h
    obtain ⟨timeout, elastic⟩ : ∃ timeout, limits.idleTimeout = some timeout := by
      rcases reaper_of_reach hreach with hr | hsome
      · exact absurd hr hnone
      · exact Option.isSome_iff_exists.1 hsome
    cases hreaper : s.reaper with
    | none => exact absurd hreaper hnone
    | looking => exact blocked (.pool (.look elastic (.inl hreaper)) (by simp) (by simp)) trivial
    | waiting wait => exact blocked (.pool (.look elastic (.inr ⟨wait, hreaper⟩)) (by simp) (by simp)) trivial
    | destroying left closed =>
      cases left with
      | nil => exact blocked (.pool (.count elastic hreaper) (by simp) (by simp)) trivial
      | cons x left =>
        obtain ⟨session, hx⟩ : ∃ session, s.sessions[x]? = some session := by
          apply (ledger_of_reach hreach).found
          have hleft : 0 < s.reaper.left.count x := by simp [hreaper, Reaper.left]
          exact Nat.lt_of_lt_of_le hleft (Nat.le_add_left _ _)
        exact blocked (.pool (.destroy hreaper hx) (by simp) (by simp)) trivial
    | stopped => exact blocked (.join rfl hreaper) trivial
  | dropping =>
    obtain ⟨-, -, live⟩ := h
    cases hidle : s.state.idle with
    | nil => exact blocked (.dropped rfl hidle) trivial
    | cons entry rest =>
      have hone := live entry.session
      simp only [hidle, List.map_cons, List.count_cons_self] at hone
      cases hx : s.sessions[entry.session]? with
      | none => simp [Sys.liveAt, hx] at hone
      | some session => exact blocked (.dropIdle rfl hidle hx) trivial
  | releasing => exact blocked (.closeRuntime rfl) trivial
  | closed eager answer =>
    obtain ⟨-, rfl, rfl⟩ := h
    rfl

/-- No step takes a close back. -/
theorem Step.begun {a : Act} (begun : c.ending ≠ .serving) (hs : Step limits engine c a c') : c'.ending ≠ .serving := by
  cases hs with
  | pool => exact begun
  | dropIdle h =>
    simp [h]
  | _ => simp

end Client

/-- **A blocking close is eager.** Whatever went before it, once the pool is dropped the
client's handle is the only owner of the runtime, so the native close closes the engine and
its answer is the engine's; and a close that has begun comes to that answer. -/
theorem blocking_close_is_eager {engine : Except Error Unit} {c : Client} (h : (client limits engine).Reach c) :
    (c.ending = .releasing → c.pool.owners = 1) ∧
    (∀ eager answer, c.ending = .closed eager answer → eager = true ∧ answer = engine) ∧
    (c.ending ≠ .serving →
      (client limits engine).Settles Client.Act.own (fun c => c.ending = .closed true engine) c) := by
  have hends := Client.ends_of_reach h
  refine ⟨?_, ?_, ?_⟩
  · intro hend
    unfold Client.Ends at hends
    rw [hend] at hends
    exact Sys.owners_of_gone hends.1 hends.2.2
  · intro eager answer hend
    unfold Client.Ends at hends
    rw [hend] at hends
    exact hends.2
  · intro begun
    refine h.settles (I := fun c => c.Ends limits engine ∧ c.ending ≠ .serving) Nat.lt_wfRel.wf Client.rank
      ?_ ?_ ?_ ⟨hends, begun⟩
    · intro c a c' _ hi ha hs
      exact Client.Step.rank_lt hi.1 hi.2 ha hs
    · intro c a c' _ hi hs
      exact ⟨hi.1.step hs, Client.Step.begun hi.2 hs⟩
    · intro c _ hi hrest
      exact hi.1.closed_of_atRest hi.2 hrest

/-- A command interrupted while it ran, on an engine whose close fails: with the slot armed
the runtime has two owners, and at the end one. -/
theorem blocking_close_is_eager_after_an_interrupt :
    ∃ c c' : Client, (client .oneToTwo (.error .closed)).Reach c ∧ c.pool.owners = 2 ∧
      (client .oneToTwo (.error .closed)).Steps c c' ∧ c'.ending = .releasing ∧ c'.pool.owners = 1 := by
  have h : (client .oneToTwo (.error .closed)).Reach ⟨.fresh, .serving⟩ := .init ⟨opened_fresh, rfl⟩
  have h := h.next (.pool (.call rfl) (by simp) (by simp))
  have h := h.next (.pool (.checkout (c := 0) rfl (.inl rfl)) (by simp) (by simp))
  have h := h.next (.pool (.start (c := 0) rfl rfl rfl) (by simp) (by simp))
  have h := h.next (.pool (.attach (c := 0) rfl rfl rfl) (by simp) (by simp))
  have h' := h.start
  have h' := h'.step (.pool (.cancel (c := 0) rfl rfl) (by simp) (by simp))
  have h' := h'.step (.pool (.interrupt (c := 0) rfl rfl) (by simp) (by simp))
  have h' := h'.step (.pool (.cancelDone (c := 0) rfl rfl) (by simp) (by simp))
  have h' := h'.step (.pool (.detach (c := 0) rfl rfl rfl) (by simp) (by simp))
  have h' := h'.step (.pool (.disarm (c := 0) rfl rfl rfl) (by simp) (by simp))
  have h' := h'.step (.pool (.giveBack (c := 0) rfl rfl) (by simp) (by simp))
  have h' := h'.step (.pool (.notifyNobody (c := 0) rfl (.inr rfl) (by decide)) (by simp) (by simp))
  have h' := h'.step (.close rfl (by decide) (by decide))
  have h' := h'.step (.pool (.look rfl (.inl rfl)) (by simp) (by simp))
  have h' := h'.step (.join rfl rfl)
  have h' := h'.step (.dropIdle rfl rfl rfl)
  have h' := h'.step (.dropped rfl rfl)
  exact ⟨_, _, h, rfl, h', rfl, (blocking_close_is_eager (h.steps h')).1 rfl⟩

end EmbeddedMongo.Pool
