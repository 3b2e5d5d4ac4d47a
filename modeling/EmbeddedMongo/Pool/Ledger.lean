import EmbeddedMongo.Pool.Sessions

/-!
# Every session is in one place

`open` against the sessions it counts: those idle, those checked out, those a caller is
opening and those the reaper took and has not counted closed.
-/

namespace EmbeddedMongo.Pool

open Conc

variable {limits : Concurrency}

/-- What a call has of the pool. -/
inductive Seat where
  | outside
  /-- A reservation, whose session it is opening. -/
  | reserving
  /-- A session checked out. -/
  | holding (session : Nat)
  deriving DecidableEq

namespace Seat

def holds : Seat → Nat
  | .holding _ => 1
  | .outside | .reserving => 0

def holdsAt (x : Nat) : Seat → Nat
  | .holding y => if y = x then 1 else 0
  | .outside | .reserving => 0

def reserves : Seat → Nat
  | .reserving => 1
  | .outside | .holding _ => 0

end Seat

def Pc.seat : Pc → Seat
  | .growing => .reserving
  | .held session _ => .holding session
  | .entering | .parked | .woken | .refused | .notifying | .returned => .outside

namespace Reaper

/-- Sessions taken and not destroyed yet. -/
def left : Reaper → List Nat
  | .destroying left _ => left
  | .none | .looking | .waiting _ | .stopped => []

/-- Sessions taken and not counted closed yet. -/
def taken : Reaper → Nat
  | .destroying _ closed => closed
  | .none | .looking | .waiting _ | .stopped => 0

end Reaper

def Session.alive (session : Session) : Nat := if session.live = true then 1 else 0

namespace Sys

/-- The calls, weighed by their seat. -/
def seats (g : Seat → Nat) (s : Sys) : Nat := tally (fun k => g k.pc.seat) s.calls

def held (s : Sys) : Nat := s.seats Seat.holds

def heldAt (x : Nat) (s : Sys) : Nat := s.seats (Seat.holdsAt x)

def reserved (s : Sys) : Nat := s.seats Seat.reserves

/-- Sessions the engine holds for this pool. -/
def live (s : Sys) : Nat := tally Session.alive s.sessions

def liveAt (x : Nat) (s : Sys) : Nat := (s.sessions[x]?.map Session.alive).getD 0

/-- The places the session `x` is in. -/
def places (x : Nat) (s : Sys) : Nat :=
  (s.state.idle.map Idle.session).count x + s.heldAt x + s.reaper.left.count x

end Sys

/-- The counts are those of the places, and every live session is in one. -/
structure Ledger (limits : Concurrency) (s : Sys) : Prop where
  counted : s.state.openCount = s.state.idle.length + s.held + s.reserved + s.reaper.taken
  ceiling : s.state.openCount ≤ limits.max
  destroying : s.reaper.left.length ≤ s.reaper.taken
  live : s.live = s.state.idle.length + s.held + s.reaper.left.length
  place : ∀ x, s.places x = s.liveAt x

/-! ## What a step does to the counts -/

/-- An interrupt changes nothing but the history and the lock of its slot. -/
theorem tally_interrupt {f : Call → Nat} (hf : ∀ k k' : Call, k'.pc = k.pc → f k' = f k) (s : Sys) (x c : Nat) :
    tally f ((s.kill x).modify c Call.fire) = tally f s.calls := by
  rw [tally_modify fun k => hf k k.fire rfl]
  unfold Sys.kill
  split
  · exact tally_modify (fun k => hf k { k with killed := true } rfl) _ _
  · rfl

/-- A weight that does not tell a parked caller from a woken one survives a `notify_all`. -/
theorem tally_wakeAll {f : Call → Nat} (hf : ∀ k : Call, k.pc = .parked → f { k with pc := .woken } = f k)
    (l : List Call) : tally f (Sys.wakeAll l) = tally f l := by
  refine tally_map (fun k => ?_) l
  split
  · exact hf k ‹_›
  · rfl

theorem Call.start_pc (x : Nat) (k : Call) : ∃ stage, (k.start x).pc = .held x stage := by
  unfold Call.start Slot.start
  cases k.slot with
  | waiting => exact ⟨.armed, rfl⟩
  | _ => exact ⟨.disarmed, rfl⟩

theorem Call.cancel_pc (k : Call) : k.cancel.pc = k.pc := by
  unfold Call.cancel Slot.cancel
  cases k.slot <;> rfl

theorem Sys.reserved_pos {s : Sys} {c : Nat} {k : Call} (hk : s.calls[c]? = some k) (pc : k.pc = .growing) :
    1 ≤ s.reserved := by
  have := le_tally (fun k : Call => Seat.reserves k.pc.seat) hk
  rwa [pc] at this

/-- A notifier is not the caller it wakes. -/
theorem notifier_set {calls : List Call} {c p : Nat} {k kp : Call} (hk : calls[c]? = some k)
    (pc : k.pc = .refused ∨ k.pc = .notifying) (hp : calls[p]? = some kp) (parked : kp.pc = .parked) (b : Call) :
    (calls.set p b)[c]? = some k := by
  have hne : p ≠ c := by
    rintro rfl
    rw [hp, Option.some.injEq] at hk
    subst hk
    rcases pc with pc | pc <;> simp [parked] at pc
  rw [List.getElem?_set_ne hne, hk]

/-- What a pass of `checkout`'s loop comes to. -/
inductive CheckoutOf (max : Nat) (s : State Nat) : Checkout × State Nat → Prop where
  | took {entry : Idle Nat} {rest : List (Idle Nat)} (idle : s.idle = rest ++ [entry]) :
      CheckoutOf max s (.took entry.session, { s with idle := rest })
  | reserved (idle : s.idle = []) (room : s.openCount < max) :
      CheckoutOf max s (.reserved, { s with openCount := s.openCount + 1 })
  | wait (idle : s.idle = []) (full : max ≤ s.openCount) : CheckoutOf max s (.wait, s)

theorem State.checkout_cases (max : Nat) (s : State Nat) : CheckoutOf max s (s.checkout max) := by
  unfold State.checkout State.take
  cases hl : s.idle.getLast? with
  | some entry =>
    obtain ⟨rest, hrest⟩ := List.getLast?_eq_some_iff.1 hl
    have hdrop : s.idle.dropLast = rest := by simp [hrest]
    simp only [hdrop]
    exact .took hrest
  | none =>
    have hidle := List.getLast?_eq_none_iff.1 hl
    dsimp only
    split
    · exact .reserved hidle ‹_›
    · exact .wait hidle (by omega)

/-- What a pass of the reaper's loop comes to. -/
inductive Passed (min timeout : Nat) (s : Sys) : Sys → Prop where
  | stopped (closing : s.state.closing = true) : Passed min timeout s { s with reaper := .stopped }
  | reaped {state : State Nat} {reaper : Reaper} (openCount : state.openCount = s.state.openCount)
      (closing : state.closing = s.state.closing)
      (perm : (s.state.idle.map Idle.session).Perm (reaper.left ++ state.idle.map Idle.session))
      (left : reaper.taken = reaper.left.length)
      (taken : reaper.taken = Nat.min (s.state.openCount - min) (s.state.idle.countP (Sweep.stale timeout s.now)))
      (there : s.state.closing = false) : Passed min timeout s { s with state := state, reaper := reaper }

theorem Sys.pass_cases (min timeout : Nat) (s : Sys) : Passed min timeout s (s.pass min timeout) := by
  obtain ⟨hopen, hclosing, hperm, hlength⟩ := State.reap_spec min timeout s.now s.state
  unfold Sys.pass
  split
  · exact .stopped ‹_›
  · rename_i hthere
    rw [Bool.not_eq_true] at hthere
    split
    rename_i expired wait state heq
    simp only [heq] at hopen hclosing hperm hlength
    split
    · rename_i hnone
      subst hnone
      exact .reaped hopen hclosing hperm rfl hlength hthere
    · exact .reaped hopen hclosing hperm rfl hlength hthere

/-- A pass moves sessions from the idle ones to those being destroyed. -/
theorem Passed.moves {min timeout : Nat} {s s' : Sys} (h : Passed min timeout s s') :
    s'.calls = s.calls ∧ s'.sessions = s.sessions ∧ s'.state.openCount = s.state.openCount ∧
      s'.reaper.taken = s'.reaper.left.length ∧
      s.state.idle.length = s'.state.idle.length + s'.reaper.taken ∧
      (∀ x, (s.state.idle.map Idle.session).count x =
        (s'.state.idle.map Idle.session).count x + s'.reaper.left.count x) := by
  cases h with
  | stopped => exact ⟨rfl, rfl, rfl, rfl, rfl, fun _ => rfl⟩
  | reaped openCount closing perm left =>
    refine ⟨rfl, rfl, openCount, left, ?_, fun x => ?_⟩
    · have := perm.length_eq
      simp only [List.length_append, List.length_map] at this
      dsimp only
      rw [left]
      omega
    · rw [perm.count_eq, List.count_append]
      exact Nat.add_comm _ _

namespace Ledger

variable {s s' : Sys}

theorem initial (h : Opened limits s) : Ledger limits s := by
  have hcalls := h.calls
  have hlength : s.state.idle.length = limits.min := by
    have := congrArg List.length h.idle
    simpa using this
  have hreaper : s.reaper.left = [] ∧ s.reaper.taken = 0 := by
    rcases h.reaper with hr | ⟨hr, -⟩ <;> rw [hr] <;> exact ⟨rfl, rfl⟩
  have hlive : ∀ n, tally Session.alive (List.replicate n ⟨true, none⟩) = n := by
    intro n
    induction n with
    | zero => rfl
    | succ n ih => simp [List.replicate_succ, ih, Session.alive]; omega
  refine ⟨?_, ?_, ?_, ?_, fun x => ?_⟩
  · simp [Sys.held, Sys.reserved, Sys.seats, hcalls, hreaper, h.openCount, hlength]
  · rw [h.openCount]
    exact limits.min_le_max
  · simp [hreaper]
  · simp [Sys.live, Sys.held, Sys.seats, h.sessions, hcalls, hlive, hlength, hreaper]
  · simp only [Sys.places, Sys.heldAt, Sys.seats, Sys.liveAt, h.idle, hcalls, hreaper.1, h.sessions, tally_nil]
    by_cases hx : x < limits.min
    · simp [hx, Session.alive, List.count_eq_one_of_mem List.nodup_range (List.mem_range.2 hx)]
    · simp [hx, List.count_eq_zero_of_not_mem]

/-- A step that leaves every session where it is. -/
theorem frame (h : Ledger limits s) (idle : s'.state.idle = s.state.idle)
    (openCount : s'.state.openCount = s.state.openCount) (reaper : s'.reaper = s.reaper)
    (seats : ∀ g, s'.seats g = s.seats g) (live : s'.live = s.live) (liveAt : ∀ x, s'.liveAt x = s.liveAt x) :
    Ledger limits s' where
  counted := by
    rw [openCount, idle, reaper, Sys.held, Sys.reserved, seats, seats]
    exact h.counted
  ceiling := openCount ▸ h.ceiling
  destroying := reaper ▸ h.destroying
  live := by
    rw [live, idle, reaper, Sys.held, seats]
    exact h.live
  place x := by
    rw [liveAt, Sys.places, idle, reaper, Sys.heldAt, seats]
    exact h.place x

/-- A call that moves from one seat to another, and the sessions with it. -/
theorem reseat {c : Nat} {k k' : Call} {a b : Seat} (h : Ledger limits s) (hk : s.calls[c]? = some k)
    (calls : s'.calls = s.calls.set c k') (ha : k.pc.seat = a) (hb : k'.pc.seat = b) (reaper : s'.reaper = s.reaper)
    (counted : s'.state.openCount + s.state.idle.length + a.holds + a.reserves =
      s.state.openCount + s'.state.idle.length + b.holds + b.reserves)
    (ceiling : s'.state.openCount ≤ limits.max)
    (live : s'.live + s.state.idle.length + a.holds = s.live + s'.state.idle.length + b.holds)
    (place : ∀ x, s'.liveAt x + (s.state.idle.map Idle.session).count x + a.holdsAt x =
      s.liveAt x + (s'.state.idle.map Idle.session).count x + b.holdsAt x) : Ledger limits s' := by
  have seats : ∀ g : Seat → Nat, s'.seats g + g a = s.seats g + g b := by
    intro g
    have := tally_set (fun k : Call => g k.pc.seat) hk k'
    simp only [ha, hb] at this
    simpa only [Sys.seats, calls] using this
  have hholds := seats Seat.holds
  have hreserves := seats Seat.reserves
  have hcounted := h.counted
  have hlive := h.live
  simp only [Sys.held, Sys.reserved] at hcounted hlive
  refine ⟨?_, ceiling, reaper ▸ h.destroying, ?_, fun x => ?_⟩
  · simp only [Sys.held, Sys.reserved, reaper]
    omega
  · simp only [Sys.held, reaper]
    omega
  · have hplace := h.place x
    have hx := place x
    have hat := seats (Seat.holdsAt x)
    simp only [Sys.places, Sys.heldAt, reaper] at hplace ⊢
    omega

/-- A call that moves and keeps its seat. -/
theorem sit {c : Nat} {k k' : Call} (h : Ledger limits s) (hk : s.calls[c]? = some k)
    (calls : s'.calls = s.calls.set c k') (seat : k'.pc.seat = k.pc.seat) (state : s'.state = s.state)
    (reaper : s'.reaper = s.reaper) (live : s'.live = s.live) (liveAt : ∀ x, s'.liveAt x = s.liveAt x) :
    Ledger limits s' := by
  refine h.reseat hk calls rfl seat reaper ?_ ?_ ?_ fun x => ?_ <;> simp only [state, live, liveAt]
  exact h.ceiling

/-- A pass of the reaper, with nothing left to destroy and nothing to count. -/
theorem pass {min timeout : Nat} (h : Ledger limits s) (left : s.reaper.left = []) (taken : s.reaper.taken = 0)
    (hp : Passed min timeout s s') : Ledger limits s' := by
  obtain ⟨calls, sessions, openCount, htaken, hlength, hcount⟩ := hp.moves
  have hcounted := h.counted
  have hlive := h.live
  rw [left, List.length_nil] at hlive
  refine ⟨?_, by rw [openCount]; exact h.ceiling, Nat.le_of_eq htaken.symm, ?_, fun x => ?_⟩
  · simp only [openCount, Sys.held, Sys.reserved, Sys.seats, calls] at hcounted ⊢
    omega
  · simp only [Sys.live, Sys.held, Sys.seats, calls, sessions] at hlive ⊢
    omega
  · have hplace := h.place x
    have := hcount x
    simp only [Sys.places, Sys.heldAt, Sys.seats, Sys.liveAt, calls, sessions, left, List.count_nil] at hplace ⊢
    omega

/-- A session taken off the idle ones, a reservation, or neither. -/
theorem checkout {c : Nat} {k : Call} {r : Checkout × State Nat} (h : Ledger limits s) (hk : s.calls[c]? = some k)
    (pc : k.pc = .entering ∨ k.pc = .woken) (hr : CheckoutOf limits.max s.state r) :
    Ledger limits { s with state := r.2, calls := s.calls.set c { k with pc := r.1.pc } } := by
  have hout : k.pc.seat = .outside := by rcases pc with pc | pc <;> rw [pc] <;> rfl
  cases hr with
  | @took entry rest idle =>
    refine h.reseat (b := .holding entry.session) hk rfl hout rfl rfl ?_ h.ceiling ?_ fun x => ?_ <;>
      simp only [Sys.live, Sys.liveAt, idle, List.length_append, List.length_cons, List.length_nil, List.map_append, List.map_cons,
        List.map_nil, List.count_append, List.count_singleton, beq_iff_eq, Seat.holds, Seat.reserves,
        Seat.holdsAt] <;>
      omega
  | reserved idle room =>
    refine h.reseat (b := .reserving) hk rfl hout rfl rfl ?_ room rfl fun x => rfl
    simp only [Seat.holds, Seat.reserves]
    omega
  | wait => exact h.sit hk rfl hout.symm rfl rfl rfl fun _ => rfl

theorem liveAt_set {x : Nat} {session : Session} (hx : s.sessions[x]? = some session) (b : Session) (y : Nat) :
    ((s.sessions.set x b)[y]?.map Session.alive).getD 0 =
      if x = y then b.alive else (s.sessions[y]?.map Session.alive).getD 0 := by
  obtain ⟨hlt, -⟩ := List.getElem?_eq_some_iff.1 hx
  by_cases hxy : x = y
  · subst hxy
    simp [hlt]
  · simp [hxy]

/-- The operation attached to a session says nothing about whether it is live. -/
theorem live_attached {x : Nat} {session : Session} (operation : Option Nat) (hx : s.sessions[x]? = some session) :
    tally Session.alive (s.sessions.set x { session with operation := operation }) = s.live ∧
      ∀ y, ((s.sessions.set x { session with operation := operation })[y]?.map Session.alive).getD 0 = s.liveAt y := by
  constructor
  · have := le_tally Session.alive hx
    simp only [tally_set_eq hx, Session.alive, Sys.live] at this ⊢
    omega
  · intro y
    rw [liveAt_set hx]
    split
    · rename_i hxy
      subst hxy
      simp [Sys.liveAt, hx, Session.alive]
    · rfl

/-- A call that has not reached the pool has no seat. -/
theorem call (h : Ledger limits s) : Ledger limits { s with calls := s.calls ++ [.new] } := by
  have hzero : ∀ g : Seat → Nat, g .outside = 0 → Sys.seats g { s with calls := s.calls ++ [.new] } = s.seats g := by
    intro g hg
    simp [Sys.seats, Call.new, Pc.seat, hg]
  refine ⟨?_, h.ceiling, h.destroying, ?_, fun x => ?_⟩
  · rw [Sys.held, Sys.reserved, hzero _ rfl, hzero _ rfl]
    exact h.counted
  · rw [Sys.held, hzero _ rfl]
    exact h.live
  · rw [Sys.places, Sys.heldAt, hzero _ rfl]
    exact h.place x

/-- The reaper destroys one of the sessions it took. -/
theorem destroy {x closed : Nat} {left : List Nat} {session : Session} (h : Ledger limits s)
    (reaper : s.reaper = .destroying (x :: left) closed) (hx : s.sessions[x]? = some session) :
    Ledger limits
      { s with
        reaper := .destroying left closed
        sessions := s.sessions.set x { session with live := false } } := by
  have hplace := h.place
  have hlive := h.live
  have hcounted := h.counted
  have htaken := h.destroying
  simp only [reaper, Reaper.left, Reaper.taken, List.length_cons, Sys.places, List.count_cons, beq_iff_eq] at hplace hlive hcounted htaken
  have halive : session.alive = 1 := by
    have := hplace x
    have hle : session.alive ≤ 1 := by unfold Session.alive; split <;> omega
    simp only [Sys.liveAt, hx, Option.map_some, Option.getD_some, if_true] at this
    omega
  refine ⟨?_, h.ceiling, ?_, ?_, fun y => ?_⟩
  · exact hcounted
  · simp only [Reaper.left, Reaper.taken]
    omega
  · have hdead : Session.alive { session with live := false } = 0 := rfl
    simp only [Sys.live, tally_set_eq hx, halive, hdead, Reaper.left] at hlive ⊢
    change _ = s.state.idle.length + s.held + left.length
    omega
  · have hy := hplace y
    simp only [Sys.places, Sys.heldAt, Sys.seats, Sys.liveAt, Reaper.left, liveAt_set hx] at hy ⊢
    by_cases hxy : x = y
    · subst hxy
      simp only [hx, Option.map_some, Option.getD_some, halive, if_true] at hy ⊢
      simp [Session.alive]
      omega
    · simp only [hxy, if_false] at hy ⊢
      exact hy

/-- The reaper counts its sessions closed, wakes everybody and looks again. -/
theorem count {min timeout closed : Nat} (h : Ledger limits s) (reaper : s.reaper = .destroying [] closed) :
    Ledger limits
      (Sys.pass min timeout { s with state := s.state.closed closed, calls := Sys.wakeAll s.calls }) := by
  have hcounted := h.counted
  have hlive := h.live
  simp only [reaper, Reaper.left, Reaper.taken, List.length_nil] at hcounted hlive
  -- the pass does not read where the reaper came from
  let counted : Sys := { s with state := s.state.closed closed, calls := Sys.wakeAll s.calls, reaper := .looking }
  have seats : ∀ g : Seat → Nat, counted.seats g = s.seats g := fun g =>
    tally_wakeAll (fun k hk => by rw [hk]; rfl) s.calls
  have hcount : Ledger limits counted := by
    refine ⟨?_, ?_, Nat.le_refl _, ?_, fun x => ?_⟩
    · rw [Sys.held, Sys.reserved, seats, seats]
      change s.state.openCount - closed = s.state.idle.length + s.held + s.reserved + 0
      omega
    · exact Nat.le_trans (Nat.sub_le _ _) h.ceiling
    · rw [Sys.held, seats]
      exact hlive
    · have := h.place x
      rw [Sys.places, reaper] at this
      rw [Sys.places, Sys.heldAt, seats]
      exact this
  exact hcount.pass rfl rfl (Sys.pass_cases _ _ _)

theorem step {a : Act} (h : Ledger limits s) (hs : Step limits s a s') : Ledger limits s' := by
  cases hs with
  | tick | stopReaping => exact h.frame rfl rfl rfl (fun _ => rfl) rfl (fun _ => rfl)
  | call => exact h.call
  | checkout hk pc => exact h.checkout hk pc (State.checkout_cases _ _)
  | growOk hk pc =>
    refine h.reseat (a := .reserving) (b := .holding s.sessions.length) hk rfl (by rw [pc]; rfl) rfl rfl ?_ h.ceiling ?_
      fun x => ?_
    · simp only [Seat.holds, Seat.reserves]
    · simp only [Sys.live, tally_append, tally_cons, tally_nil, Session.alive, Seat.holds, if_true]
      omega
    · -- the new session's number is one no session had
      simp only [Sys.liveAt, Seat.holdsAt]
      rcases Nat.lt_trichotomy x s.sessions.length with hx | rfl | hx
      · rw [List.getElem?_append_left hx, if_neg (by omega)]
      · simp [Session.alive]
        omega
      · rw [List.getElem?_eq_none (by simp; omega), List.getElem?_eq_none (by omega), if_neg (by omega)]
  | growErr hk pc =>
    have hres := Sys.reserved_pos hk pc
    have hcounted := h.counted
    refine h.reseat (a := .reserving) (b := .outside) hk rfl (by rw [pc]; rfl) rfl rfl ?_ ?_ rfl fun x => rfl
    · simp only [Seat.holds, Seat.reserves]
      omega
    · exact Nat.le_trans (Nat.sub_le _ _) h.ceiling
  | @notifyOne c p k kp hk pc hp parked =>
    have h' : Ledger limits { s with calls := s.calls.set p { kp with pc := .woken } } :=
      h.sit hp rfl (by rw [parked]; rfl) rfl rfl rfl fun _ => rfl
    have hk' := notifier_set hk pc hp parked { kp with pc := .woken }
    rcases pc with pc | pc <;> exact h'.sit hk' rfl (by rw [pc]; rfl) rfl rfl rfl fun _ => rfl
  | notifyNobody hk pc => rcases pc with pc | pc <;> exact h.sit hk rfl (by rw [pc]; rfl) rfl rfl rfl fun _ => rfl
  | wake hk pc => exact h.sit hk rfl (by rw [pc]; rfl) rfl rfl rfl fun _ => rfl
  | @start c x k hk pc =>
    obtain ⟨stage, hstage⟩ := k.start_pc x
    exact h.sit hk rfl (by rw [pc, hstage]; rfl) rfl rfl rfl fun _ => rfl
  | attach hk pc hx =>
    obtain ⟨hlive, hliveAt⟩ := live_attached (some _) hx
    exact h.sit hk rfl (by rw [pc]; rfl) rfl rfl hlive hliveAt
  | refuse hk pc => exact h.sit hk rfl (by rw [pc]; rfl) rfl rfl rfl fun _ => rfl
  | detach hk pc hx =>
    obtain ⟨hlive, hliveAt⟩ := live_attached none hx
    exact h.sit hk rfl (by rw [pc]; rfl) rfl rfl hlive hliveAt
  | disarm hk pc => exact h.sit hk rfl (by rw [pc]; rfl) rfl rfl rfl fun _ => rfl
  | @giveBack c x k hk pc =>
    refine h.reseat (a := .holding x) (b := .outside) hk rfl (by rw [pc]; rfl) rfl rfl ?_ h.ceiling ?_ fun y => ?_ <;>
      simp only [State.giveBack, List.length_append, List.length_cons, List.length_nil, List.map_append, List.map_cons,
        List.map_nil, List.count_append, List.count_singleton, beq_iff_eq, Sys.live, Sys.liveAt, Seat.holds,
        Seat.reserves, Seat.holdsAt] <;>
      omega
  | @cancel c k hk => exact h.sit hk rfl (by rw [k.cancel_pc]) rfl rfl rfl fun _ => rfl
  | interrupt hk =>
    exact h.frame rfl rfl rfl (fun g => tally_interrupt (fun k k' hk => by rw [hk]) s _ _) rfl fun _ => rfl
  | cancelDone hk => exact h.sit hk rfl rfl rfl rfl rfl fun _ => rfl
  | look elastic reaper =>
    refine h.pass ?_ ?_ (Sys.pass_cases _ _ _) <;> rcases reaper with hr | ⟨_, hr⟩ <;> rw [hr] <;> rfl
  | destroy reaper hx => exact h.destroy reaper hx
  | count elastic reaper => exact h.count reaper

end Ledger

theorem ledger_of_reach {s : Sys} (h : (pool limits).Reach s) : Ledger limits s :=
  System.Reach.induct (I := Ledger limits) (fun _ hi => Ledger.initial hi) (fun _ _ _ _ hi hs => hi.step hs) h

/-- **Session conservation and ceiling.** In every reachable state `open` is the idle sessions,
the checked-out ones, the reservations being opened and those the reaper took and has not
counted closed; a live session is in exactly one place and any other in none; `open` is at
most the ceiling, and is never counted below zero by a failed open or by the reaper; and the
engine holds at most the ceiling of this pool's sessions. -/
theorem sessions_are_conserved {s : Sys} (h : (pool limits).Reach s) :
    s.state.openCount = s.state.idle.length + s.held + s.reserved + s.reaper.taken ∧
    (∀ x, s.places x = if s.sessions[x]?.any Session.live = true then 1 else 0) ∧
    s.state.openCount ≤ limits.max ∧
    ((∃ k ∈ s.calls, k.pc = .growing) → 1 ≤ s.state.openCount) ∧
    s.reaper.taken ≤ s.state.openCount ∧
    s.live ≤ limits.max := by
  have hl := ledger_of_reach h
  have hcounted := hl.counted
  have hceiling := hl.ceiling
  refine ⟨hcounted, fun x => ?_, hceiling, ?_, by omega, ?_⟩
  · rw [hl.place, Sys.liveAt]
    cases s.sessions[x]? with
    | none => rfl
    | some session => rfl
  · rintro ⟨k, hk, hpc⟩
    obtain ⟨c, hc⟩ := List.getElem?_of_mem hk
    have hres := Sys.reserved_pos hc hpc
    omega
  · have hlive := hl.live
    have := hl.destroying
    omega

/-- Two callers hold the pool's two sessions, the second one opened under the ceiling, and a
third waits. -/
theorem sessions_are_conserved_at_the_ceiling :
    ∃ s : Sys, (pool .oneToTwo).Reach s ∧ s.held = 2 ∧ s.live = 2 ∧ s.state.openCount = 2 ∧
      s.places 1 = 1 ∧ s.live ≤ 2 := by
  have h : (pool .oneToTwo).Reach .fresh := .init opened_fresh
  have h := h.next (.call rfl)
  have h := h.next (.call rfl)
  have h := h.next (.call rfl)
  have h := h.next (.checkout (c := 0) rfl (.inl rfl))
  have h := h.next (.checkout (c := 1) rfl (.inl rfl))
  have h := h.next (.growOk (c := 1) rfl rfl)
  have h := h.next (.checkout (c := 2) rfl (.inl rfl))
  obtain ⟨-, hplace, -, -, -, hlive⟩ := sessions_are_conserved h
  exact ⟨_, h, rfl, rfl, rfl, hplace 1, hlive⟩

/-- Only an elastic pool has a reaper. -/
theorem reaper_of_reach {limits : Concurrency} {s : Sys} (h : (pool limits).Reach s) :
    s.reaper = .none ∨ limits.idleTimeout.isSome = true := by
  apply h.induct
  · intro s hopened
    exact hopened.reaper.imp_right And.right
  · intro s a s' _ ih hs
    cases hs with
    | look elastic | count elastic => exact .inr (by simp [elastic])
    | destroy reaper =>
      rcases ih with hnone | helastic
      · rw [hnone] at reaper
        cases reaper
      · exact .inr helastic
    | _ => exact ih

end EmbeddedMongo.Pool
