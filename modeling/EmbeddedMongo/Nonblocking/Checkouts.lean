import EmbeddedMongo.Nonblocking.Counts
import EmbeddedMongo.Nonblocking.Wakeups
import EmbeddedMongo.Pool.Ledger

/-!
# The workers in the session pool

The worker pool over the session pool it drives, under one policy: a worker that runs an operation
calls `SessionPool::run`, one call at a time, and is done with the operation when its calls have
returned. The two pools have locks of their own and a clock in common.

There are at most as many workers as sessions, so a worker finds a session or room for one, unless
the reaper has some: the ceiling counts a session until it is destroyed.
-/

namespace EmbeddedMongo.Nonblocking

open Conc

variable {ρ : Type} {limits : Concurrency} {close : Answer}

/-! ## Workers are no more than the ceiling -/

/-- Workers the opening thread has still to count. -/
def Opener.toCome (min : Nat) : Opener → Nat
  | .opening | .opened => min
  | .flooring left _ => left
  | .failed | .published | .reported | .serving => 0

/-- No more workers than the policy allows, those still to be opened among them. -/
structure Ceiling (limits : Concurrency) (s : Sys ρ) : Prop where
  alive : s.pool.alive + s.opener.toCome limits.min ≤ limits.max
  ready : s.ready = true → s.opener.toCome limits.min = 0

theorem Ceiling.turned {s s' : Sys ρ} {w : Nat} (h : Ceiling limits s) (ht : Turned limits w s s') : Ceiling limits s' := by
  obtain ⟨alive, ready⟩ := h
  cases ht with
  | run | stop | park => exact ⟨alive, ready⟩
  | retire =>
    refine ⟨?_, ready⟩
    simp only [State.retired]
    omega

/-- Every step keeps to the ceiling. -/
theorem Ceiling.step {s s' : Sys ρ} {a : Act ρ} (h : Ceiling limits s) (hs : Step limits close s a s') :
    Ceiling limits s' := by
  have ⟨alive, ready⟩ := h
  have hmin := limits.min_pos
  cases hs with
  | tick | cloneEngine | dropEngine | dispatchRefused | closeRefused | notifyOne | notifyNobody | notifyAll | spawnOk | spawnErr
  | leave | retireTask | arrive | wake | finish | retireWorker => exact ⟨alive, ready⟩
  | openFailed ho =>
    refine ⟨?_, fun _ => rfl⟩
    simp only [Opener.toCome]
    omega
  | openDone ho | floorStarted ho =>
    rw [ho] at alive ready
    exact ⟨alive, ready⟩
  | reserveFirst ho | reserveFloor ho =>
    rw [ho] at alive ready
    simp only [Opener.toCome] at alive ready
    refine ⟨?_, ?_⟩
    · simp only [State.reserve, Opener.toCome]
      omega
    · intro hready
      have := ready hready
      omega
  | publish ho =>
    refine ⟨?_, fun _ => rfl⟩
    rw [ho] at alive
    unfold State.publish
    split
    · exact alive
    · exact alive
  | report ho | serve ho =>
    rw [ho] at alive
    exact ⟨alive, fun _ => rfl⟩
  | dropLast =>
    refine ⟨?_, ready⟩
    unfold State.abandon
    split
    · exact alive
    · exact alive
  | dispatch hready _ ok =>
    obtain ⟨-, -, -, -, -, ⟨-, halive, -⟩ | ⟨-, -, hroom, halive, -⟩⟩ := State.queueJob_ok ok
    · exact ⟨by rw [halive]; exact alive, ready⟩
    · have := ready hready
      exact ⟨by rw [halive]; dsimp only; omega, ready⟩
  | close _ _ ok =>
    obtain ⟨-, -, rfl⟩ := State.beginClose_ok ok
    exact ⟨alive, ready⟩
  | spawnFailedNone | spawnFailedSome =>
    have := (State.spawnFailed_counts s.pool).1
    exact ⟨by dsimp only; omega, ready⟩
  | @enter w hw =>
    have hentered : Ceiling limits (s.entered w) := ⟨alive, ready⟩
    exact hentered.turned (turned_cases _ _ _ _)
  | turn => exact h.turned (turned_cases _ _ _ _)

theorem ceiling_of_reach {s : Sys ρ} (hr : (pool ρ limits close).Reach s) : Ceiling limits s := by
  apply hr.induct
  · rintro s rfl
    refine ⟨?_, nofun⟩
    simp [Sys.initial, State.new, Opener.toCome, limits.min_le_max]
  · intro s a s' _ h hs
    exact h.step hs

/-- Inside an operation. -/
def Worker.busy : Worker ρ → Nat
  | .running _ => 1
  | .spawned | .ready | .parked _ _ | .woken _ | .retiring _ _ | .retired => 0

/-- So no more than `max` operations run at a time. -/
theorem busy_le_max {s : Sys ρ} (hr : (pool ρ limits close).Reach s) : tally Worker.busy s.workers ≤ limits.max := by
  have hle : tally Worker.busy s.workers ≤ tally Worker.counted s.workers := by
    apply tally_le
    intro w
    cases w <;> simp [Worker.busy, Worker.counted]
  have halive := (counted_of_reach hr).alive
  have := (ceiling_of_reach hr).alive
  omega

/-! ## What the other parties leave alone -/

theorem Turned.running {s s' : Sys ρ} {w v : Nat} {operation : ρ} (ht : Turned limits w s s') (hne : w ≠ v)
    (hv : s.workers[v]? = some (.running operation)) : s'.workers[v]? = some (.running operation) := by
  cases ht <;> exact (List.getElem?_set_ne hne).trans hv

/-- A worker inside an operation is there until the operation is done. -/
theorem Step.running {s s' : Sys ρ} {a : Act ρ} {v : Nat} {operation : ρ} (hs : Step limits close s a s')
    (hv : s.workers[v]? = some (.running operation)) (unfinished : a ≠ .finish v) :
    s'.workers[v]? = some (.running operation) := by
  have elsewhere {w : Nat} {a : Worker ρ} (hw : s.workers[w]? = some a) (ha : a ≠ .running operation) : w ≠ v := by
    rintro rfl
    exact ha (Option.some.inj (hw.symm.trans hv))
  have moved {w : Nat} {a : Worker ρ} (b : Worker ρ) (hw : s.workers[w]? = some a) (ha : a ≠ .running operation) :
      (s.workers.set w b)[v]? = some (.running operation) := (List.getElem?_set_ne (elsewhere hw ha)).trans hv
  cases hs with
  | tick | openFailed | openDone | reserveFirst | reserveFloor | floorStarted | publish | report | cloneEngine | dropEngine
  | dropLast | dispatch | dispatchRefused | close | closeRefused | notifyNobody | spawnErr | spawnFailedNone
  | spawnFailedSome | leave | retireTask => exact hv
  | serve | spawnOk => exact getElem?_append_of_eq_some hv
  | notifyOne _ hw | wake hw | arrive hw | retireWorker hw => exact moved _ hw (by simp)
  | notifyAll =>
    show (Sys.wakeAll s.workers)[v]? = _
    rw [Sys.wakeAll, List.getElem?_map, hv]
    rfl
  | @finish w _ hw =>
    have hne : w ≠ v := by
      rintro rfl
      exact unfinished rfl
    exact (List.getElem?_set_ne hne).trans hv
  | @enter w hw =>
    refine (turned_cases _ _ _ _).running (elsewhere hw (by simp)) ?_
    exact moved _ hw (by simp)
  | @turn w _ hw => exact (turned_cases _ _ _ _).running (elsewhere hw (by simp)) hv

end EmbeddedMongo.Nonblocking

namespace EmbeddedMongo.Pool

open Conc

variable {limits : Concurrency}

/-- The call has not returned. -/
def Call.pending (k : Call) : Nat := if k.pc = .returned then 0 else 1

/-- The same calls, those that have returned among them. -/
structure Kept (calls calls' : List Call) : Prop where
  length : calls'.length = calls.length
  returned : ∀ (c : Nat) (k : Call), calls[c]? = some k → k.pc = .returned → ∃ k', calls'[c]? = some k' ∧ k'.pc = .returned

namespace Kept

variable {calls calls' calls'' : List Call}

theorem refl (calls : List Call) : Kept calls calls := ⟨rfl, fun _ k hk pc => ⟨k, hk, pc⟩⟩

theorem trans (h : Kept calls calls') (h' : Kept calls' calls'') : Kept calls calls'' := by
  refine ⟨h'.length.trans h.length, ?_⟩
  intro c k hk pc
  obtain ⟨k', hk', pc'⟩ := h.returned c k hk pc
  exact h'.returned c k' hk' pc'

theorem set {c : Nat} {k b : Call} (hk : calls[c]? = some k) (hb : k.pc = .returned → b.pc = .returned) :
    Kept calls (calls.set c b) := by
  refine ⟨List.length_set, ?_⟩
  intro c' k' hk' pc'
  by_cases heq : c = c'
  · subst heq
    obtain rfl : k' = k := Option.some.inj (hk'.symm.trans hk)
    exact ⟨b, List.getElem?_set_self (List.getElem?_eq_some_iff.1 hk).1, hb pc'⟩
  · exact ⟨k', (List.getElem?_set_ne heq).trans hk', pc'⟩

theorem modify (g : Call → Call) (hg : ∀ k, (g k).pc = k.pc) (c : Nat) : Kept calls (calls.modify c g) := by
  refine ⟨List.length_modify .., ?_⟩
  intro c' k hk pc
  rw [List.getElem?_modify, hk]
  split
  · exact ⟨g k, rfl, (hg k).trans pc⟩
  · exact ⟨k, rfl, pc⟩

theorem wakeAll : Kept calls (Sys.wakeAll calls) := by
  refine ⟨by simp [Sys.wakeAll], ?_⟩
  intro c k hk pc
  refine ⟨k, ?_, pc⟩
  rw [Sys.wakeAll, List.getElem?_map, hk, Option.map_some, if_neg (by simp [pc])]

end Kept

/-- Nobody but `call` brings a call into the pool. -/
theorem Step.kept {s s' : Sys} {a : Act} (hs : Step limits s a s') (hcall : a ≠ .call) : Kept s.calls s'.calls := by
  have from_ {c : Nat} {k b : Call} (hk : s.calls[c]? = some k) (pc : k.pc ≠ .returned) : Kept s.calls (s.calls.set c b) :=
    .set hk fun hpc => absurd hpc pc
  cases hs with
  | tick | destroy | stopReaping => exact .refl _
  | call => exact absurd rfl hcall
  | checkout hk pc | notifyNobody hk pc =>
    apply from_ hk
    rcases pc with pc | pc <;> simp [pc]
  | growOk hk pc | growErr hk pc | wake hk pc | start hk pc | attach hk pc | refuse hk pc | detach hk pc | disarm hk pc
  | giveBack hk pc => exact from_ hk (by simp [pc])
  | notifyOne hk pc hp parked =>
    refine (from_ hp (by simp [parked])).trans (.set (notifier_set hk pc hp parked _) fun _ => rfl)
  | @cancel c k hk => exact .set hk fun pc => (k.cancel_pc).trans pc
  | @interrupt c x k hk lock =>
    have hkill : Kept s.calls (s.kill x) := by
      unfold Sys.kill
      split
      · apply Kept.modify
        intro k
        rfl
      · exact .refl _
    apply hkill.trans
    apply Kept.modify
    intro k
    rfl
  | cancelDone hk => exact .set hk fun pc => pc
  | look =>
    rw [(Sys.pass_cases _ _ s).moves.1]
    exact .refl _
  | count =>
    rw [(Sys.pass_cases _ _ _).moves.1]
    exact .wakeAll

end EmbeddedMongo.Pool

namespace EmbeddedMongo.Nonblocking

open Conc

variable {ρ : Type} {limits : Concurrency} {close : Answer}

/-! ## The two pools together -/

/-- The worker pool and the session pool it drives, under one policy and one clock. -/
structure Driven (ρ : Type) where
  workers : Sys ρ
  sessions : Pool.Sys
  /-- The worker each call in the session pool is from; those of the open itself are from none. -/
  callers : List (Option Nat)

namespace Driven

/-- The worker is in no call. -/
def Free (s : Driven ρ) (w : Nat) : Prop :=
  ∀ (c : Nat) (k : Pool.Call), s.sessions.calls[c]? = some k → s.callers[c]? = some (some w) → k.pc = .returned

/-- Who moves. -/
inductive Act (ρ : Type) where
  | tick (nanos : Nat)
  | worker (act : Nonblocking.Act ρ)
  | call (worker : Nat)
  | session (act : Pool.Act)

/-- What happens inside the session pool besides the clock and new calls, every session opening. -/
def inside : Pool.Act → Bool
  | .tick _ | .call | .grow _ false => false
  | _ => true

/-- The two systems take steps of their own; a worker inside an operation calls the session pool. -/
inductive Step (limits : Concurrency) (close : Answer) : Driven ρ → Act ρ → Driven ρ → Prop where
  | tick {s : Driven ρ} (nanos : Nat) :
      Step limits close s (.tick nanos)
        { s with
          workers := { s.workers with now := s.workers.now + nanos }
          sessions := { s.sessions with now := s.sessions.now + nanos } }
  | worker {s : Driven ρ} {a : Nonblocking.Act ρ} {workers : Sys ρ} (hs : Nonblocking.Step limits close s.workers a workers)
      (clock : ∀ nanos, a ≠ .tick nanos) (done : ∀ w, a = .finish w → s.Free w) :
      Step limits close s (.worker a) { s with workers := workers }
  | call {s : Driven ρ} {w : Nat} {operation : ρ} (hw : s.workers.workers[w]? = some (.running operation)) (free : s.Free w)
      (there : s.sessions.state.closing = false) :
      Step limits close s (.call w)
        { s with
          sessions := { s.sessions with calls := s.sessions.calls ++ [.new] }
          callers := s.callers ++ [some w] }
  | session {s : Driven ρ} {a : Pool.Act} {sessions : Pool.Sys} (hs : Pool.Step limits s.sessions a sessions)
      (own : inside a = true) : Step limits close s (.session a) { s with sessions := sessions }

/-- The open under way: the session pool has been used by nobody, or by the open alone, whose
calls have returned. -/
structure Opening (limits : Concurrency) (s : Driven ρ) : Prop where
  workers : s.workers = .initial
  sessions : (Pool.pool limits).Reach s.sessions
  calls : ∀ k ∈ s.sessions.calls, k.pc = .returned
  callers : s.callers = List.replicate s.sessions.calls.length none

end Driven

def driven (ρ : Type) (limits : Concurrency) (close : Answer) : System (Driven ρ) (Driven.Act ρ) where
  init := Driven.Opening limits
  step := Driven.Step limits close

namespace Driven

/-- A call under way is from a worker inside an operation, and is its only one. -/
structure Sound (limits : Concurrency) (close : Answer) (s : Driven ρ) : Prop where
  workers : (pool ρ limits close).Reach s.workers
  sessions : (Pool.pool limits).Reach s.sessions
  length : s.callers.length = s.sessions.calls.length
  caller : ∀ (c : Nat) (k : Pool.Call), s.sessions.calls[c]? = some k → k.pc ≠ .returned →
    ∃ w operation, s.callers[c]? = some (some w) ∧ s.workers.workers[w]? = some (.running operation)
  single : ∀ (c c' : Nat) (k k' : Pool.Call) (w : Nat), s.sessions.calls[c]? = some k → s.sessions.calls[c']? = some k' →
    k.pc ≠ .returned → k'.pc ≠ .returned → s.callers[c]? = some (some w) → s.callers[c']? = some (some w) → c = c'

theorem Sound.step {s s' : Driven ρ} {a : Act ρ} (h : Sound limits close s) (hs : Step limits close s a s') :
    Sound limits close s' := by
  obtain ⟨hworkers, hsessions, hlength, hcaller, hsingle⟩ := h
  cases hs with
  | tick nanos =>
    exact ⟨hworkers.next (.tick nanos), hsessions.next (.tick nanos), hlength, hcaller, hsingle⟩
  | worker hs clock done =>
    refine ⟨hworkers.next hs, hsessions, hlength, ?_, hsingle⟩
    intro c k hk pc
    obtain ⟨w, operation, hc, hw⟩ := hcaller c k hk pc
    refine ⟨w, operation, hc, hs.running hw ?_⟩
    rintro rfl
    exact pc (done w rfl c k hk hc)
  | @call w operation hw free there =>
    -- an entry is an old call, or the one just made
    have entry {c : Nat} {k : Pool.Call} (hk : (s.sessions.calls ++ [.new])[c]? = some k) :
        s.sessions.calls[c]? = some k ∧ (s.callers ++ [some w])[c]? = s.callers[c]? ∨
          c = s.sessions.calls.length ∧ (s.callers ++ [some w])[c]? = some (some w) := by
      rcases Nat.lt_trichotomy c s.sessions.calls.length with hlt | rfl | hgt
      · rw [List.getElem?_append_left hlt] at hk
        exact .inl ⟨hk, List.getElem?_append_left (by omega)⟩
      · exact .inr ⟨rfl, by simp [← hlength]⟩
      · rw [List.getElem?_eq_none (by simp; omega)] at hk
        cases hk
    refine ⟨hworkers, hsessions.next (.call there), by simp [hlength], ?_, ?_⟩
    · intro c k hk pc
      rcases entry hk with ⟨hk, hc⟩ | ⟨-, hc⟩
      · obtain ⟨v, operation, hv, hrunning⟩ := hcaller c k hk pc
        exact ⟨v, operation, hc.trans hv, hrunning⟩
      · exact ⟨w, operation, hc, hw⟩
    · intro c c' k k' v hk hk' pc pc' hv hv'
      rcases entry hk with ⟨hold, hc⟩ | ⟨hc, hcw⟩
      · rcases entry hk' with ⟨hold', hc'⟩ | ⟨hc', hcw'⟩
        · exact hsingle c c' k k' v hold hold' pc pc' (hc.symm.trans hv) (hc'.symm.trans hv')
        · obtain rfl : v = w := by simpa using hv'.symm.trans hcw'
          exact absurd (free c k hold (hc.symm.trans hv)) pc
      · obtain rfl : v = w := by simpa using hv.symm.trans hcw
        rcases entry hk' with ⟨hold', hc'⟩ | ⟨hc', -⟩
        · exact absurd (free c' k' hold' (hc'.symm.trans hv')) pc'
        · exact hc.trans hc'.symm
  | @session a sessions hs own =>
    have hkept := hs.kept (by rintro rfl; cases own)
    have before (c : Nat) (k' : Pool.Call) (hk' : sessions.calls[c]? = some k') (pc' : k'.pc ≠ .returned) :
        ∃ k, s.sessions.calls[c]? = some k ∧ k.pc ≠ .returned := by
      have hlt := (List.getElem?_eq_some_iff.1 hk').1
      rw [hkept.length] at hlt
      refine ⟨_, List.getElem?_eq_getElem hlt, ?_⟩
      intro pc
      obtain ⟨k, hk, hreturned⟩ := hkept.returned c _ (List.getElem?_eq_getElem hlt) pc
      obtain rfl : k = k' := Option.some.inj (hk.symm.trans hk')
      exact pc' hreturned
    refine ⟨hworkers, hsessions.next hs, hlength.trans hkept.length.symm, ?_, ?_⟩
    · intro c k' hk' pc'
      obtain ⟨k, hk, pc⟩ := before c k' hk' pc'
      exact hcaller c k hk pc
    · intro c c' k' l' w hk' hl' pck' pcl' hc hc'
      obtain ⟨k, hk, pck⟩ := before c k' hk' pck'
      obtain ⟨l, hl, pcl⟩ := before c' l' hl' pcl'
      exact hsingle c c' k l w hk hl pck pcl hc hc'

/-- Every run of the two is a run of each. -/
theorem sound_of_reach {s : Driven ρ} (hr : (driven ρ limits close).Reach s) : Sound limits close s := by
  apply hr.induct
  · intro s hi
    have ended {c : Nat} {k : Pool.Call} (hk : s.sessions.calls[c]? = some k) : k.pc = .returned :=
      hi.calls k (List.mem_of_getElem? hk)
    refine ⟨.init hi.workers, hi.sessions, by simp [hi.callers], ?_, ?_⟩
    · intro c k hk pc
      exact absurd (ended hk) pc
    · intro c c' k k' w hk _ pc
      exact absurd (ended hk) pc
  · intro s a s' _ h hs
    exact h.step hs

/-- A worker about to look for a session: fewer than the ceiling are checked out or being opened. -/
theorem Sound.seated_lt {s : Driven ρ} {c : Nat} {k : Pool.Call} (h : Sound limits close s)
    (hk : s.sessions.calls[c]? = some k) (pc : k.pc = .entering ∨ k.pc = .woken) :
    s.sessions.held + s.sessions.reserved < limits.max := by
  have pending {k : Pool.Call} (hpending : 0 < k.pending) : k.pc ≠ .returned := by
    intro pc
    simp [Pool.Call.pending, pc] at hpending
  have hcalls : tally Pool.Call.pending s.sessions.calls ≤ tally Worker.busy s.workers.workers := by
    apply tally_le_tally fun c => ((s.callers[c]?).join).getD 0
    · intro c k hk hpending
      obtain ⟨w, operation, hc, hw⟩ := h.caller c k hk (pending hpending)
      refine ⟨.running operation, by simpa [hc] using hw, ?_⟩
      unfold Pool.Call.pending
      split
      · exact Nat.zero_le _
      · exact Nat.le_refl _
    · intro c c' k k' hk hk' hpending hpending' heq
      obtain ⟨w, -, hc, -⟩ := h.caller c k hk (pending hpending)
      obtain ⟨w', -, hc', -⟩ := h.caller c' k' hk' (pending hpending')
      obtain rfl : w = w' := by simpa [hc, hc'] using heq
      exact h.single c c' k k' w hk hk' (pending hpending) (pending hpending') hc hc'
  have hseated : tally (fun k => Pool.Seat.holds k.pc.seat + Pool.Seat.reserves k.pc.seat) s.sessions.calls <
      tally Pool.Call.pending s.sessions.calls := by
    refine tally_lt ?_ hk ?_
    · intro k
      unfold Pool.Call.pending
      cases k.pc <;> simp [Pool.Pc.seat, Pool.Seat.holds, Pool.Seat.reserves]
    · rcases pc with pc | pc <;> simp [Pool.Call.pending, pc, Pool.Pc.seat, Pool.Seat.holds, Pool.Seat.reserves]
  have hmax := busy_le_max h.workers
  rw [tally_add] at hseated
  unfold Pool.Sys.held Pool.Sys.reserved Pool.Sys.seats
  omega

end Driven

/-! ## Two workers and a session to destroy -/

theorem Driven.free_of_zip {ρ : Type} {s : Driven ρ} {w : Nat}
    (h : ∀ p ∈ s.sessions.calls.zip s.callers, p.2 = some w → p.1.pc = .returned) : s.Free w := by
  intro c k hk hc
  exact h (k, some w) (List.mem_of_getElem? (List.getElem?_zip_eq_some.2 ⟨hk, hc⟩)) rfl

/-- An engine of one session and room for two, before anybody uses it. -/
def Driven.fresh : Driven Nat where
  workers := .initial
  sessions := .fresh
  callers := []

theorem Driven.opening_fresh : Opening .oneToTwo Driven.fresh where
  workers := rfl
  sessions := .init Pool.opened_fresh
  calls _ hk := absurd hk List.not_mem_nil
  callers := rfl

/-- Two workers, each inside its first operation, and a session pool nobody has called. -/
def Driven.bothRunning : Driven Nat where
  workers :=
    { Sys.served with
      pool := { Sys.served.pool with alive := 2, pending := 0, started := 2 }
      workers := [.running 7, .running 8]
      tasks := [.starting .engine .returned, .notified none]
      accepted := [7, 8]
      handed := [(0, .run 7), (1, .run 8)] }
  sessions := .fresh
  callers := []

theorem Driven.reach_bothRunning : (driven Nat .oneToTwo (.ok ())).Reach .bothRunning := by
  have h : (driven Nat .oneToTwo (.ok ())).Reach .fresh := .init Driven.opening_fresh
  have h := h.next (.worker (.openDone rfl) nofun nofun)
  have h := h.next (.worker (.reserveFirst rfl) nofun nofun)
  have h := h.next (.worker (.publish rfl) nofun nofun)
  have h := h.next (.worker (.report rfl) nofun nofun)
  have h := h.next (.worker (.serve rfl) nofun nofun)
  have h := h.next (.worker (.arrive (w := 0) rfl) nofun nofun)
  have h := h.next (.worker (a := .dispatch 7) (.dispatch rfl Nat.one_pos rfl) nofun nofun)
  have h := h.next (.worker (.notifyNobody (t := 0) rfl (inWait_eq_zero.1 rfl)) nofun nofun)
  have h := h.next (.worker (.spawnOk (t := 0) rfl) nofun nofun)
  have h := h.next (.worker (.leave (t := 0) rfl (.inl rfl)) nofun nofun)
  have h := h.next (.worker (.enter (w := 0) rfl) nofun nofun)
  have h := h.next (.worker (.arrive (w := 1) rfl) nofun nofun)
  have h := h.next (.worker (a := .dispatch 8) (.dispatch rfl Nat.one_pos rfl) nofun nofun)
  have h := h.next (.worker (.notifyNobody (t := 1) rfl (inWait_eq_zero.1 rfl)) nofun nofun)
  have h := h.next (.worker (.enter (w := 1) rfl) nofun nofun)
  exact h

/-- Both workers have run a command and come back, the second on a session it opened. -/
def Driven.bothRan : Driven Nat where
  workers := { Driven.bothRunning.workers with workers := [.ready, .ready] }
  sessions :=
    { Pool.Sys.fresh with
      state := { idle := [⟨0, 0⟩, ⟨1, 0⟩], openCount := 2, closing := false }
      sessions := [⟨true, none⟩, ⟨true, none⟩]
      calls := [{ Pool.Call.new with pc := .returned, slot := .finished, ran := true },
        { Pool.Call.new with pc := .returned, slot := .finished, ran := true }] }
  callers := [some 0, some 1]

theorem Driven.reach_bothRan : (driven Nat .oneToTwo (.ok ())).Reach .bothRan := by
  have h := Driven.reach_bothRunning
  have h := h.next (.call (w := 0) rfl (Driven.free_of_zip (by decide)) rfl)
  have h := h.next (.call (w := 1) rfl (Driven.free_of_zip (by decide)) rfl)
  have h := h.next (.session (.checkout (c := 0) rfl (.inl rfl)) rfl)
  have h := h.next (.session (.checkout (c := 1) rfl (.inl rfl)) rfl)
  have h := h.next (.session (.growOk (c := 1) rfl rfl) rfl)
  have h := h.next (.session (.start (c := 0) rfl rfl rfl) rfl)
  have h := h.next (.session (.attach (c := 0) rfl rfl rfl) rfl)
  have h := h.next (.session (.detach (c := 0) rfl rfl rfl) rfl)
  have h := h.next (.session (.disarm (c := 0) rfl rfl rfl) rfl)
  have h := h.next (.session (.giveBack (c := 0) rfl rfl) rfl)
  have h := h.next (.session (.notifyNobody (c := 0) rfl (.inr rfl) (by decide)) rfl)
  have h := h.next (.session (.start (c := 1) rfl rfl rfl) rfl)
  have h := h.next (.session (.attach (c := 1) rfl rfl rfl) rfl)
  have h := h.next (.session (.detach (c := 1) rfl rfl rfl) rfl)
  have h := h.next (.session (.disarm (c := 1) rfl rfl rfl) rfl)
  have h := h.next (.session (.giveBack (c := 1) rfl rfl) rfl)
  have h := h.next (.session (.notifyNobody (c := 1) rfl (.inr rfl) (by decide)) rfl)
  have h := h.next (.worker (.finish (w := 0) rfl) nofun fun w hw => Driven.free_of_zip (by cases hw; decide))
  have h := h.next (.worker (.finish (w := 1) rfl) nofun fun w hw => Driven.free_of_zip (by cases hw; decide))
  exact h

/-- Both are inside their next operation, a millisecond later: the reaper has the second session
to destroy, the first worker has the other one, the second worker looks for one. -/
def Driven.oneToDestroy : Driven Nat where
  workers :=
    { Driven.bothRan.workers with
      now := nanosPerMilli
      workers := [.running 9, .running 10]
      tasks := [.starting .engine .returned, .notified none, .notified none, .notified none]
      accepted := [7, 8, 9, 10]
      handed := [(0, .run 7), (1, .run 8), (0, .run 9), (1, .run 10)] }
  sessions :=
    { Driven.bothRan.sessions with
      state := { idle := [], openCount := 2, closing := false }
      now := nanosPerMilli
      reaper := .destroying [0] 1
      calls := Driven.bothRan.sessions.calls ++ [{ Pool.Call.new with pc := .held 1 .taken }, .new] }
  callers := [some 0, some 1, some 0, some 1]

theorem Driven.reach_oneToDestroy : (driven Nat .oneToTwo (.ok ())).Reach .oneToDestroy := by
  have h := Driven.reach_bothRan
  have h := h.next (.tick nanosPerMilli)
  have h := h.next (.session (.look rfl (.inl rfl)) rfl)
  have h := h.next (.worker (a := .dispatch 9) (.dispatch rfl Nat.one_pos rfl) nofun nofun)
  have h := h.next (.worker (.notifyNobody (t := 2) rfl (inWait_eq_zero.1 rfl)) nofun nofun)
  have h := h.next (.worker (.enter (w := 0) rfl) nofun nofun)
  have h := h.next (.worker (a := .dispatch 10) (.dispatch rfl Nat.one_pos rfl) nofun nofun)
  have h := h.next (.worker (.notifyNobody (t := 3) rfl (inWait_eq_zero.1 rfl)) nofun nofun)
  have h := h.next (.worker (.enter (w := 1) rfl) nofun nofun)
  have h := h.next (.call (w := 0) rfl (Driven.free_of_zip (by decide)) rfl)
  have h := h.next (.call (w := 1) rfl (Driven.free_of_zip (by decide)) rfl)
  have h := h.next (.session (.checkout (c := 2) rfl (.inl rfl)) rfl)
  exact h

/-! ## The wait in `checkout` -/

/-- **A worker waits for a session exactly when the reaper has it.** At a pass of `checkout` every
session is in another worker's hands or in the reaper's, and the reaper has one: with nothing being
destroyed, as under a policy that is not elastic, a worker finds a session or room for one. -/
theorem worker_waits_for_a_session_iff_the_reaper_has_it {s : Driven ρ} {c : Nat} {k : Pool.Call}
    (hr : (driven ρ limits close).Reach s) (hk : s.sessions.calls[c]? = some k)
    (pc : k.pc = .entering ∨ k.pc = .woken) :
    ((s.sessions.state.checkout limits.max).1 = .wait ↔
      s.sessions.state.idle = [] ∧ s.sessions.held + s.sessions.reserved + s.sessions.reaper.taken = limits.max) ∧
    ((s.sessions.state.checkout limits.max).1 = .wait → 0 < s.sessions.reaper.taken) ∧
    (limits.idleTimeout = none → (s.sessions.state.checkout limits.max).1 ≠ .wait) := by
  have hsound := Driven.sound_of_reach hr
  have hledger := Pool.ledger_of_reach hsound.sessions
  have hseated := hsound.seated_lt hk pc
  have hcounted := hledger.counted
  have hceiling := hledger.ceiling
  have hiff : (s.sessions.state.checkout limits.max).1 = .wait ↔
      s.sessions.state.idle = [] ∧ s.sessions.held + s.sessions.reserved + s.sessions.reaper.taken = limits.max := by
    have hcheckout := Pool.State.checkout_cases limits.max s.sessions.state
    generalize s.sessions.state.checkout limits.max = out at hcheckout
    cases hcheckout with
    | took idle => simp [idle]
    | reserved idle room =>
      rw [idle, List.length_nil] at hcounted
      simp [idle]
      omega
    | wait idle full =>
      rw [idle, List.length_nil] at hcounted
      simp [idle]
      omega
  have htaken : (s.sessions.state.checkout limits.max).1 = .wait → 0 < s.sessions.reaper.taken := by
    intro hwait
    have := (hiff.1 hwait).2
    omega
  refine ⟨hiff, htaken, ?_⟩
  intro fixed hwait
  have hpositive := htaken hwait
  rcases Pool.reaper_of_reach hsound.sessions with hnone | helastic
  · rw [hnone] at hpositive
    cases hpositive
  · rw [fixed] at helastic
    cases helastic

theorem worker_waits_for_a_session_iff_the_reaper_has_it_of_two :
    (driven Nat .oneToTwo (.ok ())).Reach .oneToDestroy ∧ Driven.oneToDestroy.sessions.calls[3]? = some Pool.Call.new ∧
      ((Driven.oneToDestroy.sessions.state.checkout 2).1 = .wait ↔
        Driven.oneToDestroy.sessions.state.idle = [] ∧
          Driven.oneToDestroy.sessions.held + Driven.oneToDestroy.sessions.reserved +
            Driven.oneToDestroy.sessions.reaper.taken = 2) :=
  ⟨Driven.reach_oneToDestroy, rfl,
    (worker_waits_for_a_session_iff_the_reaper_has_it (c := 3) Driven.reach_oneToDestroy rfl (.inl rfl)).1⟩

/-- Two workers and room for two sessions, and the second worker waits for one. -/
theorem worker_can_wait_for_a_session :
    ∃ s : Driven Nat, (driven Nat .oneToTwo (.ok ())).Reach s ∧ s.callers[3]? = some (some 1) ∧
      s.workers.workers[1]? = some (Worker.running 10) ∧ (s.sessions.calls[3]?).map Pool.Call.pc = some .parked :=
  ⟨_, Driven.reach_oneToDestroy.next (.session (.checkout (c := 3) rfl (.inl rfl)) rfl), rfl, rfl, rfl⟩

end EmbeddedMongo.Nonblocking
