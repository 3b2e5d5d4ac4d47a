import EmbeddedMongo.Pool.Ledger

/-!
# What an interrupt reaches

A slot arms its interrupt with the session of its call and gives it up before that call gives
the session back, both under the slot's mutex, which a cancel holds across the interrupt. So
the interrupt finds the session with its own command, or with none: `Session::kill` stops the
operation attached at that moment, and does nothing between `CommandSlot::start` and the
attachment, when the slot already says `Running`.
-/

namespace EmbeddedMongo.Pool

open Conc

variable {limits : Concurrency}

/-- The session `x` is with call `c`, and nobody else has it. -/
structure Sys.Exclusive (s : Sys) (c x : Nat) : Prop where
  idle : x ∉ s.state.idle.map Idle.session
  reaper : x ∉ s.reaper.left
  call : ∀ (c' : Nat) (k' : Call), s.calls[c']? = some k' → k'.pc.seat = .holding x → c' = c

/-- A checked-out session is in the one place the ledger counts it. -/
theorem Ledger.exclusive {s : Sys} {c x : Nat} {k : Call} (h : Ledger limits s) (hk : s.calls[c]? = some k)
    (seat : k.pc.seat = .holding x) : s.Exclusive c x := by
  have hplace := h.place x
  have hone : s.liveAt x ≤ 1 := by
    unfold Sys.liveAt
    cases s.sessions[x]? with
    | none => exact Nat.zero_le 1
    | some session => simp only [Option.map_some, Option.getD_some, Session.alive]; split <;> omega
  have hat : 1 ≤ s.heldAt x := by
    have := le_tally (fun k : Call => Seat.holdsAt x k.pc.seat) hk
    rwa [seat, Seat.holdsAt, if_pos rfl] at this
  rw [Sys.places] at hplace
  refine ⟨List.count_eq_zero.1 (by omega), List.count_eq_zero.1 (by omega), fun c' k' hk' seat' => ?_⟩
  by_cases hne : c' = c
  · exact hne
  · have htwo : 2 ≤ s.heldAt x := by
      have := add_le_tally (fun k : Call => Seat.holdsAt x k.pc.seat) hk' hk hne
      rwa [seat, seat', Seat.holdsAt, if_pos rfl] at this
    omega

/-! ## One call -/

namespace Call

variable {k : Call}

theorem start_waiting (x : Nat) (h : k.slot = .waiting) :
    k.start x = { k with slot := .running x, pc := .held x .armed } := by
  simp [Call.start, Slot.start, h]

theorem start_of_ne (x : Nat) (h : k.slot ≠ .waiting) : k.start x = { k with pc := .held x .disarmed } := by
  obtain ⟨pc, slot, lock, fired, ran, killed, cancelled⟩ := k
  cases slot with
  | waiting => exact absurd rfl h
  | _ => rfl

theorem cancel_running {x : Nat} (h : k.slot = .running x) : k.cancel = { k with lock := .interrupting x } := by
  simp [Call.cancel, Slot.cancel, h]

theorem cancel_of_ne (h : ∀ x, k.slot ≠ .running x) :
    k.cancel = { k with slot := .cancelled, cancelled := k.cancelled.or (some k.point) } := by
  unfold Call.cancel Slot.cancel
  cases hslot : k.slot with
  | running x => exact absurd hslot (h x)
  | _ => rfl

/-- A cancel with nothing to interrupt finds the command waiting or finished. -/
theorem point_of_ne (h : ∀ x, k.slot ≠ .running x) :
    k.slot = .waiting ∧ k.point = .waiting ∨ k.point = .finished := by
  unfold Call.point
  cases hslot : k.slot with
  | running x => exact absurd hslot (h x)
  | waiting => exact .inl ⟨rfl, rfl⟩
  | finished | cancelled => exact .inr rfl

/-- Has its operation attached to the session `x`. -/
def attachedTo (x : Nat) (k : Call) : Bool := decide (k.pc = .held x .attached)

/-- What a call's slot, its lock and its history say about where the call is. -/
structure Ok (k : Call) : Prop where
  running : ∀ x, k.slot = .running x →
    k.pc = .held x .armed ∨ k.pc = .held x .attached ∨ k.pc = .held x .detached
  locked : k.lock ≠ .free → ∃ x, k.slot = .running x
  aimed : ∀ x, k.lock = .interrupting x → k.slot = .running x
  /-- Until the interrupt is called, nobody has cancelled what is waiting or running. -/
  before : k.slot = .waiting ∨ (∃ x, k.slot = .running x) → k.lock ≠ .interrupted →
    k.fired = 0 ∧ k.cancelled = none
  once : k.fired ≤ 1
  unstarted : k.slot = .waiting ∨ k.cancelled = some .waiting → k.ran = false ∧ ∀ x, k.pc ≠ .held x .armed
  refused : k.cancelled = some .waiting → k.slot = .cancelled
  killed : k.killed = true ↔ k.cancelled = some .running

namespace Ok

theorem new : Call.Ok .new where
  running := nofun
  locked h := absurd rfl h
  aimed := nofun
  before _ _ := ⟨rfl, rfl⟩
  once := Nat.zero_le 1
  unstarted _ := ⟨rfl, nofun⟩
  refused := nofun
  killed := ⟨nofun, nofun⟩

/-- Outside its command a call's slot holds no interrupt. -/
theorem outside (h : k.Ok)
    (pc : ∀ x, k.pc ≠ .held x .armed ∧ k.pc ≠ .held x .attached ∧ k.pc ≠ .held x .detached) :
    ∀ x, k.slot ≠ .running x := by
  intro x hx
  obtain ⟨harmed, hattached, hdetached⟩ := pc x
  rcases h.running x hx with hpc | hpc | hpc
  · exact harmed hpc
  · exact hattached hpc
  · exact hdetached hpc

/-- A call outside its command moves to another such place. -/
theorem move {pc : Pc} (h : k.Ok) (outside : ∀ x, k.slot ≠ .running x) (unarmed : ∀ x, pc ≠ .held x .armed) :
    Call.Ok { k with pc := pc } :=
  { h with
    running := fun x hx => absurd hx (outside x)
    unstarted := fun hu => ⟨(h.unstarted hu).1, unarmed⟩ }

theorem start {x : Nat} (h : k.Ok) (pc : k.pc = .held x .taken) (free : k.lock = .free) : (k.start x).Ok := by
  by_cases hslot : k.slot = .waiting
  · have hbefore := h.before (.inl hslot) (by simp [free])
    rw [start_waiting x hslot]
    exact { h with
      running := fun y hy => by cases hy; exact .inl rfl
      locked := fun hlock => absurd free hlock
      aimed := fun y hy => by simp [free] at hy
      before := fun _ _ => hbefore
      unstarted := fun hu => by simp [hbefore.2] at hu
      refused := fun hc => by simp [hbefore.2] at hc }
  · rw [start_of_ne x hslot]
    exact h.move (h.outside fun y => by simp [pc]) nofun

/-- Inside its command a call moves on, and runs if it attaches. -/
theorem inside {x : Nat} {stage stage' : Stage} {ran : Bool} (h : k.Ok) (pc : k.pc = .held x stage)
    (stages : stage' = .attached ∨ stage' = .detached) (hran : ran = k.ran ∨ stage = .armed) :
    Call.Ok { k with pc := .held x stage', ran := ran } :=
  { h with
    running := fun y hy => by
      have hxy : x = y := by
        rcases h.running y hy with hpc | hpc | hpc <;> rw [pc] at hpc <;> cases hpc <;> rfl
      subst hxy
      rcases stages with rfl | rfl
      · exact .inr (.inl rfl)
      · exact .inr (.inr rfl)
    unstarted := fun hu => by
      obtain ⟨hnot, hunarmed⟩ := h.unstarted hu
      constructor
      · rcases hran with rfl | rfl
        · exact hnot
        · exact absurd pc (hunarmed x)
      · intro y hy
        rcases stages with rfl | rfl <;> cases hy }

theorem disarm {x : Nat} (h : k.Ok) (free : k.lock = .free) :
    Call.Ok { k with pc := .held x .disarmed, slot := k.slot.finish } := by
  have hnot : ∀ y, k.slot.finish ≠ .running y := by
    intro y
    unfold Slot.finish
    cases k.slot <;> nofun
  have hwaiting : k.slot.finish = .waiting → k.slot = .waiting := by
    unfold Slot.finish
    cases k.slot <;> simp
  exact { h with
    running := fun y hy => absurd hy (hnot y)
    locked := fun hlock => absurd free hlock
    aimed := fun y hy => by simp [free] at hy
    before := fun hslot hlock => by
      rcases hslot with hslot | ⟨y, hy⟩
      · exact h.before (.inl (hwaiting hslot)) hlock
      · exact absurd hy (hnot y)
    unstarted := fun hu => ⟨(h.unstarted (hu.imp_left hwaiting)).1, nofun⟩
    refused := fun hc => by simp [h.refused hc, Slot.finish] }

theorem cancel (h : k.Ok) (free : k.lock = .free) : k.cancel.Ok := by
  by_cases hrun : ∃ x, k.slot = .running x
  · obtain ⟨x, hslot⟩ := hrun
    have hbefore := h.before (.inr ⟨x, hslot⟩) (by simp [free])
    rw [cancel_running hslot]
    exact { h with
      locked := fun _ => ⟨x, hslot⟩
      aimed := fun y hy => by cases hy; exact hslot
      before := fun _ _ => hbefore }
  · have hnot : ∀ x, k.slot ≠ .running x := fun x hx => hrun ⟨x, hx⟩
    have hpoint := point_of_ne hnot
    rw [cancel_of_ne hnot]
    exact { h with
      running := nofun
      locked := fun hlock => absurd free hlock
      aimed := fun y hy => by simp [free] at hy
      before := fun hslot => by rcases hslot with hslot | ⟨_, hslot⟩ <;> cases hslot
      unstarted := fun hu => by
        rcases hu with hu | hu
        · cases hu
        · rcases Option.or_eq_some_iff.1 hu with hc | ⟨-, hc⟩
          · exact h.unstarted (.inr hc)
          · rcases hpoint with ⟨hslot, -⟩ | hfin
            · exact h.unstarted (.inl hslot)
            · simp [hfin] at hc
      refused := fun _ => rfl
      killed := by
        rw [h.killed, Option.or_eq_some_iff]
        rcases hpoint with ⟨-, hpoint⟩ | hpoint <;> simp [hpoint] }

/-- The interrupt is called, and kills the operation if it is attached. -/
theorem fire {x : Nat} (h : k.Ok) (lock : k.lock = .interrupting x) :
    (Call.fire { k with killed := k.killed || k.attachedTo x }).Ok := by
  have hslot := h.aimed x lock
  obtain ⟨hfired, hnone⟩ := h.before (.inr ⟨x, hslot⟩) (by simp [lock])
  have hkilled : k.killed = false := by
    have := h.killed
    rw [hnone] at this
    simpa using this
  unfold Call.fire Call.point Call.attachedTo
  exact { h with
    locked := fun _ => ⟨x, hslot⟩
    aimed := nofun
    before := fun _ hlock => absurd rfl hlock
    once := by simp [hfired]
    unstarted := fun hu => by
      rcases h.running x hslot with hpc | hpc | hpc <;> simp [hslot, hnone, hpc] at hu
    refused := fun hc => by
      rcases h.running x hslot with hpc | hpc | hpc <;> simp [hslot, hnone, hpc] at hc
    killed := by
      rcases h.running x hslot with hpc | hpc | hpc <;> simp [hslot, hnone, hpc, hkilled] }

theorem cancelDone (h : k.Ok) : k.cancelDone.Ok := by
  have hslot : k.slot.cancel.2 = .cancelled := by
    unfold Slot.cancel
    cases k.slot <;> rfl
  unfold Call.cancelDone
  rw [hslot]
  exact { h with
    running := nofun
    locked := fun hlock => absurd rfl hlock
    aimed := nofun
    before := fun hs => by rcases hs with hs | ⟨_, hs⟩ <;> cases hs
    unstarted := fun hu => by
      rcases hu with hu | hu
      · cases hu
      · exact h.unstarted (.inr hu)
    refused := fun _ => rfl }

end Ok

end Call

/-! ## All calls -/

/-- Every call is as its slot says, and the operation attached to a session is that of the call
attached to it. -/
structure Sound (s : Sys) : Prop where
  calls : ∀ k ∈ s.calls, k.Ok
  operation : ∀ x c, s.sessions[x]?.bind Session.operation = some c ↔ s.calls[c]?.any (Call.attachedTo x) = true

namespace Sound

variable {s s' : Sys}

theorem initial (h : Opened limits s) : Sound s := by
  constructor
  · intro k hk
    simp [h.calls] at hk
  · intro x c
    rw [h.calls, h.sessions, List.getElem?_replicate]
    split <;> simp

theorem ok {c : Nat} {k : Call} (h : Sound s) (hk : s.calls[c]? = some k) : k.Ok :=
  h.calls k (List.mem_of_getElem? hk)

/-- One call moves, and is attached to what it was attached to. -/
theorem set {c : Nat} {k k' : Call} (h : Sound s) (hk : s.calls[c]? = some k)
    (calls : s'.calls = s.calls.set c k') (sessions : s'.sessions = s.sessions) (ok : k'.Ok)
    (attached : ∀ x, k'.attachedTo x = k.attachedTo x) : Sound s' := by
  constructor
  · rw [calls]
    exact forall_mem_set h.calls ok
  · intro x c'
    rw [sessions, h.operation, calls, any_set hk]
    split
    · rename_i hcc
      subst hcc
      rw [hk, Option.any_some, attached]
    · rfl

/-- A call outside its command moves to another such place. -/
theorem move {c : Nat} {k : Call} {pc : Pc} (h : Sound s) (hk : s.calls[c]? = some k)
    (calls : s'.calls = s.calls.set c { k with pc := pc }) (sessions : s'.sessions = s.sessions)
    (before : ∀ x, k.pc ≠ .held x .armed ∧ k.pc ≠ .held x .attached ∧ k.pc ≠ .held x .detached)
    (after : ∀ x, pc ≠ .held x .armed ∧ pc ≠ .held x .attached) : Sound s' := by
  refine h.set hk calls sessions ?_ fun x => ?_
  · exact (h.ok hk).move ((h.ok hk).outside before) fun x => (after x).1
  · simp [Call.attachedTo, before, after]

/-- A call attaches its operation to the session it holds, or detaches it. -/
theorem attach {c x : Nat} {k k' : Call} {session : Session} {operation : Option Nat} {stage : Stage} (h : Sound s)
    (hl : Ledger limits s) (hk : s.calls[c]? = some k) (pc : k.pc = .held x stage)
    (hx : s.sessions[x]? = some session) (calls : s'.calls = s.calls.set c k')
    (sessions : s'.sessions = s.sessions.set x { session with operation := operation }) (ok : k'.Ok)
    (attached : ∀ y, k'.attachedTo y = true ↔ y = x ∧ operation = some c)
    (own : ∀ c', operation = some c' → c' = c) : Sound s' := by
  have hexclusive := hl.exclusive hk (x := x) (by rw [pc]; rfl)
  obtain ⟨hlt, -⟩ := List.getElem?_eq_some_iff.1 hx
  constructor
  · rw [calls]
    exact forall_mem_set h.calls ok
  · intro y c'
    rw [sessions, calls, any_set hk]
    by_cases hcc : c = c'
    · subst hcc
      rw [if_pos rfl, attached]
      by_cases hxy : x = y
      · subst hxy
        simp [hlt]
      · rw [List.getElem?_set_ne hxy, h.operation, hk]
        -- a call is attached to no session but the one it holds
        simp [Call.attachedTo, pc, hxy, Ne.symm hxy]
    · rw [if_neg hcc]
      by_cases hxy : x = y
      · subst hxy
        constructor
        · intro hop
          exact absurd (own c' (by simpa [hlt] using hop)).symm hcc
        · intro hany
          obtain ⟨k', hk', hat⟩ := (Option.any_eq_true _ _).1 hany
          have hseat : k'.pc.seat = .holding x := by rw [of_decide_eq_true hat]; rfl
          exact absurd (hexclusive.call c' k' hk' hseat).symm hcc
      · rw [List.getElem?_set_ne hxy, h.operation]

/-- An interrupt reaches the operation of its own call, if that is attached, and nothing else. -/
theorem kill {c x : Nat} {k : Call} (h : Sound s) (hl : Ledger limits s) (hk : s.calls[c]? = some k)
    (lock : k.lock = .interrupting x) :
    (s.kill x).modify c Call.fire =
      s.calls.set c (Call.fire { k with killed := k.killed || k.attachedTo x }) := by
  obtain ⟨hlt, hget⟩ := List.getElem?_eq_some_iff.1 hk
  have hseat : k.pc.seat = .holding x := by
    rcases (h.ok hk).running x ((h.ok hk).aimed x lock) with hpc | hpc | hpc <;> rw [hpc] <;> rfl
  have hself := h.operation x c
  rw [hk, Option.any_some] at hself
  unfold Sys.kill
  cases hop : s.sessions[x]?.bind Session.operation with
  | none =>
    have hnot : k.attachedTo x = false := by
      rw [hop] at hself
      simpa using hself
    refine List.ext_getElem? fun j => ?_
    by_cases hcj : c = j
    · subst hcj
      simp [hlt, hget, hnot]
    · simp [hcj]
  | some c' =>
    obtain ⟨k', hk', hat⟩ := (Option.any_eq_true _ _).1 ((h.operation x c').1 hop)
    have hcc : c' = c := (hl.exclusive hk hseat).call c' k' hk' (by rw [of_decide_eq_true hat]; rfl)
    subst hcc
    have hyes : k.attachedTo x = true := hself.1 hop
    refine List.ext_getElem? fun j => ?_
    by_cases hcj : c' = j
    · subst hcj
      simp [hlt, hget, hyes]
    · simp [hcj]

/-- The reaper's passes, and what it does before them, touch no call but to wake it. -/
theorem woken (h : Sound s) (calls : s'.calls = Sys.wakeAll s.calls) (sessions : s'.sessions = s.sessions) :
    Sound s' := by
  constructor
  · intro k hk
    rw [calls] at hk
    obtain ⟨k, hmem, rfl⟩ := List.mem_map.1 hk
    have hok := h.calls k hmem
    split
    · exact hok.move (hok.outside fun x => by simp_all) nofun
    · exact hok
  · intro x c
    rw [sessions, h.operation, calls, Sys.wakeAll, List.getElem?_map, Option.any_map]
    refine iff_of_eq (congrArg (· = true) ?_)
    cases s.calls[c]? with
    | none => rfl
    | some k =>
      simp only [Option.any_some]
      split
      · simp [Call.attachedTo, *]
      · rfl

theorem step {a : Act} (h : Sound s) (hl : Ledger limits s) (hs : Step limits s a s') : Sound s' := by
  cases hs with
  | tick | stopReaping => exact ⟨h.calls, h.operation⟩
  | call =>
    constructor
    · intro k hk
      rcases List.mem_append.1 hk with hk | hk
      · exact h.calls k hk
      · rw [List.mem_singleton.1 hk]
        exact .new
    · intro x c
      rw [h.operation]
      have hnew : Call.attachedTo x .new = false := by simp [Call.attachedTo, Call.new]
      exact iff_of_eq (congrArg (· = true) ((Unmoved.append hnew).any c).symm)
  | checkout hk pc =>
    have after : ∀ {r : Checkout × State Nat}, CheckoutOf limits.max s.state r →
        ∀ x, r.1.pc ≠ .held x .armed ∧ r.1.pc ≠ .held x .attached := by
      intro r hr x
      cases hr <;> simp [Checkout.pc]
    refine h.move hk rfl rfl (fun x => ?_) (after (State.checkout_cases _ _))
    rcases pc with pc | pc <;> simp [pc]
  | @growOk c k hk pc =>
    have hmoved : Sound { s with calls := s.calls.set c { k with pc := .held s.sessions.length .taken } } :=
      h.move hk rfl rfl (fun x => by simp [pc]) fun x => by simp
    refine ⟨hmoved.calls, fun x c' => ?_⟩
    rw [← hmoved.operation x c']
    dsimp only
    rcases Nat.lt_trichotomy x s.sessions.length with hlt | rfl | hgt
    · rw [List.getElem?_append_left hlt]
    · simp
    · rw [List.getElem?_eq_none (by simp; omega), List.getElem?_eq_none (by omega)]
  | growErr hk pc | wake hk pc | giveBack hk pc =>
    exact h.move hk rfl rfl (fun x => by simp [pc]) fun x => by simp
  | @notifyOne c p k kp hk pc hp parked =>
    have hwoken : Sound { s with calls := s.calls.set p { kp with pc := .woken } } :=
      h.move hp rfl rfl (fun x => by simp [parked]) fun x => by simp
    refine hwoken.move (notifier_set hk pc hp parked _) rfl rfl (fun x => ?_) fun x => by simp
    rcases pc with pc | pc <;> simp [pc]
  | notifyNobody hk pc =>
    refine h.move hk rfl rfl (fun x => ?_) fun x => by simp
    rcases pc with pc | pc <;> simp [pc]
  | @start c x k hk pc free =>
    refine h.set hk rfl rfl ((h.ok hk).start pc free) fun y => ?_
    by_cases hslot : k.slot = .waiting
    · simp [Call.start_waiting x hslot, Call.attachedTo, pc]
    · simp [Call.start_of_ne x hslot, Call.attachedTo, pc]
  | attach hk pc hx =>
    refine h.attach hl hk pc hx rfl rfl ((h.ok hk).inside pc (.inl rfl) (.inr rfl)) (fun y => ?_) fun c' hc' => ?_
    · simp [Call.attachedTo, eq_comm]
    · exact (Option.some.inj hc').symm
  | refuse hk pc =>
    refine h.set hk rfl rfl ((h.ok hk).inside pc (.inr rfl) (.inl rfl)) fun y => ?_
    simp [Call.attachedTo, pc]
  | detach hk pc hx =>
    refine h.attach hl hk pc hx rfl rfl ((h.ok hk).inside pc (.inr rfl) (.inl rfl)) (fun y => ?_) nofun
    simp [Call.attachedTo]
  | disarm hk pc free =>
    refine h.set hk rfl rfl ((h.ok hk).disarm free) fun y => ?_
    simp [Call.attachedTo, pc]
  | @cancel c k hk free =>
    refine h.set hk rfl rfl ((h.ok hk).cancel free) fun y => ?_
    simp only [Call.attachedTo, k.cancel_pc]
  | interrupt hk lock => exact h.set hk (h.kill hl hk lock) rfl ((h.ok hk).fire lock) fun _ => rfl
  | cancelDone hk => exact h.set hk rfl rfl (h.ok hk).cancelDone fun _ => rfl
  | look =>
    obtain ⟨calls, sessions, -⟩ := (Sys.pass_cases limits.min _ s).moves
    exact ⟨calls ▸ h.calls, by rw [calls, sessions]; exact h.operation⟩
  | @destroy x closed left session reaper hx =>
    refine ⟨h.calls, fun y c => ?_⟩
    obtain ⟨hlt, hget⟩ := List.getElem?_eq_some_iff.1 hx
    rw [← h.operation]
    by_cases hxy : x = y
    · subst hxy
      simp [hlt, hget]
    · simp [hxy]
  | count =>
    obtain ⟨calls, sessions, -⟩ := (Sys.pass_cases limits.min _ _).moves
    exact h.woken calls sessions

end Sound

theorem sound_of_reach {s : Sys} (h : (pool limits).Reach s) : Sound s :=
  System.Reach.induct (I := Sound) (fun _ hi => Sound.initial hi) (fun _ _ _ hr hi hs => hi.step (ledger_of_reach hr) hs) h

/-- **An interrupt never lands on another command.** In every reachable state, from the moment a
cancel finds a slot running until it is done with it, the slot's session is checked out by the
slot's own call and nobody else has it: it is not idle, not with the reaper, and no other call
holds it. An interrupt changes no other call. Each slot's interrupt is called at most once, and
a call that has given its session back, or never got one, leaves a slot without an interrupt and
with nobody about to call one. -/
theorem an_interrupt_never_lands_on_another_command {s : Sys} (h : (pool limits).Reach s) :
    (∀ (c : Nat) (k : Call), s.calls[c]? = some k → k.lock ≠ .free →
      ∃ x stage, k.slot = .running x ∧ k.pc = .held x stage ∧ s.Exclusive c x) ∧
    (∀ (c : Nat) (s' : Sys), Step limits s (.interrupt c) s' →
      (∃ k x, s.calls[c]? = some k ∧ k.lock = .interrupting x ∧ k.slot = .running x) ∧
        ∀ c', c' ≠ c → s'.calls[c']? = s.calls[c']?) ∧
    ∀ k ∈ s.calls, k.fired ≤ 1 ∧
      (k.pc = .refused ∨ k.pc = .notifying ∨ k.pc = .returned →
        k.lock = .free ∧ ∀ x, k.slot ≠ .running x) := by
  have hs := sound_of_reach h
  have hl := ledger_of_reach h
  refine ⟨fun c k hk hlock => ?_, fun c s' hstep => ?_, fun k hk => ⟨(hs.calls k hk).once, fun hpc => ?_⟩⟩
  · obtain ⟨x, hslot⟩ := (hs.ok hk).locked hlock
    have hpc : ∃ stage, k.pc = .held x stage := by
      rcases (hs.ok hk).running x hslot with hpc | hpc | hpc <;> exact ⟨_, hpc⟩
    obtain ⟨stage, hpc⟩ := hpc
    exact ⟨x, stage, hslot, hpc, hl.exclusive hk (by rw [hpc]; rfl)⟩
  · cases hstep with
    | @interrupt _ x k hk lock =>
      refine ⟨⟨k, x, hk, lock, (hs.ok hk).aimed x lock⟩, fun c' hne => ?_⟩
      dsimp only
      rw [hs.kill hl hk lock, List.getElem?_set_ne (Ne.symm hne)]
  · have hout : ∀ x, k.slot ≠ .running x := (hs.calls k hk).outside fun x => by
      rcases hpc with hpc | hpc | hpc <;> simp [hpc]
    refine ⟨?_, hout⟩
    by_cases hfree : k.lock = .free
    · exact hfree
    · obtain ⟨x, hx⟩ := (hs.calls k hk).locked hfree
      exact absurd hx (hout x)

/-- A cancel is about to interrupt the command on the pool's only session, with a second caller
waiting for it. -/
theorem an_interrupt_never_lands_on_another_command_waiting :
    ∃ s : Sys, (pool .oneToTwo).Reach s ∧ s.calls.map Call.lock = [.interrupting 0, .free] ∧
      ∃ x stage, s.calls[0]?.map Call.slot = some (.running x) ∧ s.calls[0]?.map Call.pc = some (.held x stage) ∧
        s.Exclusive 0 x := by
  have h : (pool .oneToTwo).Reach .fresh := .init opened_fresh
  have h := h.next (.call rfl)
  have h := h.next (.call rfl)
  have h := h.next (.checkout (c := 0) rfl (.inl rfl))
  have h := h.next (.start (c := 0) rfl rfl rfl)
  have h := h.next (.attach (c := 0) rfl rfl rfl)
  have h := h.next (.checkout (c := 1) rfl (.inl rfl))
  have h := h.next (.cancel (c := 0) rfl rfl)
  obtain ⟨x, stage, hslot, hpc, hexclusive⟩ :=
    (an_interrupt_never_lands_on_another_command h).1 0 _ rfl nofun
  exact ⟨_, h, rfl, x, stage, congrArg some hslot, congrArg some hpc, hexclusive⟩

/-! ## Cancels that come to nothing -/

/-- No interrupt is called between its command's start and the attachment of the operation. -/
def Landing (s : Sys) (a : Act) : Prop :=
  ∀ c k x, a = .interrupt c → s.calls[c]? = some k → k.pc ≠ .held x .armed

/-- A command that was cancelled before its operation had finished, and ran on all the same. -/
def Call.Lost (k : Call) : Prop :=
  (∃ point, k.cancelled = some point ∧ point ≠ .finished) ∧ k.ran = true ∧ k.killed = false

/-- The commands whose cancel is lost are those it found started and not attached, if they go
on to run. -/
theorem Call.Ok.lost_iff {k : Call} (h : k.Ok) : k.Lost ↔ k.cancelled = some .armed ∧ k.ran = true := by
  have hkilled := h.killed
  constructor
  · rintro ⟨⟨point, hpoint, hne⟩, hran, hnot⟩
    refine ⟨?_, hran⟩
    cases point with
    | waiting => simp [(h.unstarted (.inr hpoint)).1] at hran
    | armed => exact hpoint
    | running => simp [hkilled.2 hpoint] at hnot
    | finished => exact absurd rfl hne
  · rintro ⟨harmed, hran⟩
    refine ⟨⟨.armed, harmed, nofun⟩, hran, ?_⟩
    rw [harmed] at hkilled
    simpa using hkilled

/-- A cancel with nothing to interrupt does not find its command armed. -/
theorem Call.cancel_unarmed {k : Call} (h : k.cancelled ≠ some .armed) : k.cancel.cancelled ≠ some .armed := by
  by_cases hrun : ∃ x, k.slot = .running x
  · obtain ⟨x, hslot⟩ := hrun
    rw [Call.cancel_running hslot]
    exact h
  · have hnot : ∀ x, k.slot ≠ .running x := fun x hx => hrun ⟨x, hx⟩
    rw [Call.cancel_of_ne hnot]
    intro harmed
    rcases Option.or_eq_some_iff.1 harmed with hc | ⟨-, hc⟩
    · exact h hc
    · rcases Call.point_of_ne hnot with ⟨-, hpoint⟩ | hpoint <;> simp [hpoint] at hc

/-- Only an interrupt finds a command armed. -/
theorem Step.armed {s s' : Sys} {a : Act} (hs : Sound s) (hl : Ledger limits s) (hstep : Step limits s a s')
    (hlanding : Landing s a) (h : ∀ k ∈ s.calls, k.cancelled ≠ some .armed) :
    ∀ k ∈ s'.calls, k.cancelled ≠ some .armed := by
  have found : ∀ {c : Nat} {k : Call}, s.calls[c]? = some k → k.cancelled ≠ some .armed :=
    fun hk => h _ (List.mem_of_getElem? hk)
  have keep : ∀ {calls : List Call} {c i : Nat} {k k' : Call}, (∀ k ∈ calls, k.cancelled ≠ some .armed) →
      s.calls[i]? = some k → k'.cancelled = k.cancelled →
      ∀ k'' ∈ calls.set c k', k''.cancelled ≠ some .armed := by
    intro calls c i k k' hcalls hk hsame
    exact forall_mem_set hcalls (hsame ▸ found hk)
  cases hstep with
  | tick | stopReaping | destroy => exact h
  | call =>
    intro k hk
    rcases List.mem_append.1 hk with hk | hk
    · exact h k hk
    · rw [List.mem_singleton.1 hk]
      exact nofun
  | notifyOne hk _ hp => exact keep (keep h hp rfl) hk rfl
  | checkout hk | growOk hk | growErr hk | notifyNobody hk | wake hk | attach hk | refuse hk | detach hk | disarm hk
  | giveBack hk | cancelDone hk => exact keep h hk rfl
  | @start c x k hk =>
    refine keep h hk ?_
    by_cases hslot : k.slot = .waiting
    · rw [Call.start_waiting x hslot]
    · rw [Call.start_of_ne x hslot]
  | cancel hk => exact forall_mem_set h (Call.cancel_unarmed (found hk))
  | @interrupt c x k hk lock =>
    dsimp only
    rw [hs.kill hl hk lock]
    refine forall_mem_set h fun harmed => ?_
    have hslot := (hs.ok hk).aimed x lock
    rcases Option.or_eq_some_iff.1 harmed with hc | ⟨-, hc⟩
    · exact found hk hc
    · rcases (hs.ok hk).running x hslot with hpc | hpc | hpc
      · exact hlanding c k x rfl hk hpc
      all_goals simp [Call.point, hslot, hpc] at hc
  | look =>
    rw [(Sys.pass_cases limits.min _ s).moves.1]
    exact h
  | count =>
    rw [(Sys.pass_cases limits.min _ _).moves.1]
    intro k hk
    obtain ⟨k, hmem, rfl⟩ := List.mem_map.1 hk
    split
    · exact h k hmem
    · exact h k hmem

/-- **A cancel is not lost if the operation is there to be killed.** In every state of a run in
which no interrupt is called between its command's start and the attachment of its operation, a
command that was cancelled before its operation had finished either was waiting and never runs,
or its operation has received the kill. In any run, the cancels that are lost are those called
there whose command went on to run. -/
theorem a_cancel_is_not_lost_if_it_lands {s : Sys} (h : (pool limits).ReachIf Landing s) :
    (∀ k ∈ s.calls, ∀ point, k.cancelled = some point → point ≠ .finished →
      point = .waiting ∧ k.ran = false ∨ point = .running ∧ k.killed = true) ∧
    ∀ s' : Sys, (pool limits).Steps s s' → ∀ k ∈ s'.calls,
      (k.Lost ↔ k.cancelled = some .armed ∧ k.ran = true) := by
  have harmed : ∀ k ∈ s.calls, k.cancelled ≠ some .armed := by
    refine System.ReachIf.induct (I := fun s => ∀ k ∈ s.calls, k.cancelled ≠ some .armed) (fun s hi => ?_)
      (fun s a s' hr hi hlanding hs => ?_) h
    · simp [hi.calls]
    · exact Step.armed (sound_of_reach hr) (ledger_of_reach hr) hs hlanding hi
  constructor
  · intro k hk point hpoint hne
    have hok := (sound_of_reach h.reach).calls k hk
    cases point with
    | waiting => exact .inl ⟨rfl, (hok.unstarted (.inr hpoint)).1⟩
    | armed => exact absurd hpoint (harmed k hk)
    | running => exact .inr ⟨rfl, hok.killed.2 hpoint⟩
    | finished => exact absurd rfl hne
  · intro s' hsteps k hk
    exact ((sound_of_reach (h.reach.steps hsteps)).calls k hk).lost_iff

/-- Two commands, the first cancelled while its operation runs, the second while it waits for a
session. -/
theorem a_cancel_is_not_lost_if_it_lands_on_two :
    ∃ s : Sys, (pool .oneToTwo).ReachIf Landing s ∧
      s.calls.map Call.cancelled = [some .running, some .waiting] ∧
      (∃ k ∈ s.calls, k.ran = true ∧ k.killed = true) ∧ ∃ k ∈ s.calls, k.cancelled = some .waiting ∧ k.ran = false := by
  have other : ∀ (s : Sys) (a : Act), (∀ c, a ≠ .interrupt c) → Landing s a := fun s a ha c k x hc => absurd hc (ha c)
  have h : (pool .oneToTwo).ReachIf Landing .fresh := .init opened_fresh
  have h := h.step (.call rfl) (other _ _ nofun)
  have h := h.step (.call rfl) (other _ _ nofun)
  have h := h.step (.checkout (c := 0) rfl (.inl rfl)) (other _ _ nofun)
  have h := h.step (.start (c := 0) rfl rfl rfl) (other _ _ nofun)
  have h := h.step (.attach (c := 0) rfl rfl rfl) (other _ _ nofun)
  have h := h.step (.cancel (c := 1) rfl rfl) (other _ _ nofun)
  have h := h.step (.cancel (c := 0) rfl rfl) (other _ _ nofun)
  have h := h.step (.interrupt (c := 0) rfl rfl) (by
    intro c k x hc hk
    cases hc
    cases hk
    exact nofun)
  have hland := (a_cancel_is_not_lost_if_it_lands h).1
  refine ⟨_, h, rfl, ⟨_, .head _, rfl, ?_⟩, ⟨_, .tail _ (.head _), rfl, ?_⟩⟩
  · rcases hland _ (.head _) .running rfl nofun with ⟨hpoint, -⟩ | ⟨-, hkilled⟩
    · cases hpoint
    · exact hkilled
  · rcases hland _ (.tail _ (.head _)) .waiting rfl nofun with ⟨-, hran⟩ | ⟨hpoint, -⟩
    · exact hran
    · cases hpoint

/-- A cancel between `CommandSlot::start` and the attachment: the interrupt kills nothing, the
slot is cancelled, and the command attaches its operation and finishes it. -/
theorem a_cancel_is_lost_before_the_operation_is_attached :
    ∃ s : Sys, (pool .oneToTwo).Reach s ∧ ∃ k ∈ s.calls, k.cancelled = some .armed ∧ k.slot = .cancelled ∧
      k.pc = .returned ∧ k.ran = true ∧ k.killed = false := by
  have h : (pool .oneToTwo).Reach .fresh := .init opened_fresh
  have h := h.next (.call rfl)
  have h := h.next (.checkout (c := 0) rfl (.inl rfl))
  have h := h.next (.start (c := 0) rfl rfl rfl)
  have h := h.next (.cancel (c := 0) rfl rfl)
  have h := h.next (.interrupt (c := 0) rfl rfl)
  have h := h.next (.cancelDone (c := 0) rfl rfl)
  have h := h.next (.attach (c := 0) rfl rfl rfl)
  have h := h.next (.detach (c := 0) rfl rfl rfl)
  have h := h.next (.disarm (c := 0) rfl rfl rfl)
  have h := h.next (.giveBack (c := 0) rfl rfl)
  have h := h.next (.notifyNobody (c := 0) rfl (.inr rfl) (by decide))
  exact ⟨_, h, _, .head _, rfl, rfl, rfl, rfl, rfl⟩

end EmbeddedMongo.Pool
