import EmbeddedMongo.Android.Closing

/-!
# The database above the registry

`EmbeddedMongo` and `NativeEngine` of the Android library, called by any number of threads and
coroutines. A call of the bridge is a call of the registry, which goes its own way: `NativeEngine`
has only an `AtomicLong` to pass the handle on in, and `EmbeddedMongo` a volatile flag and a
single-threaded executor.

`runCommandBlocking` reads the flag, then the handle, then calls the bridge; `runCommand` reads the
flag, dispatches, and does the same on the executor's thread. `close` reads the flag, sets it, takes
the handle out, closes it and shuts the executor down, and another `close` may come between any two
of these. Other handles are opened, used and closed at the same time.
-/

namespace EmbeddedMongo.Android.Handles

open Conc

/-! ## An issued id, as its calls see it -/

/-- It has found the id gone, or the client. -/
def Call.turnedAway (c : Call) : Prop :=
  (c.pc = .looked ∧ c.entry = none) ∨ ∃ error, c.pc = .leaving (.failed error) ∨ c.pc = .returned (.failed error)

/-- Whoever closes an issued id knows it once they have looked, and a command is turned away only if
somebody has come to close. -/
structure Watched (id : HandleId) (s : Registry) : Prop where
  known : ∀ c ∈ s.calls, c.op = .close id → c.pc = .start ∨ c.pc = .locked ∨ c.known = true
  missed : ∀ c ∈ s.calls, c.op = .runCommand id → c.turnedAway → ∃ c' ∈ s.calls, c'.op = .close id

variable {id : HandleId} {s s' : Registry} {i : Nat} {c c' : Call} {finish : UInt64} {a : Registry.Act}

/-- A call goes on with what it does. -/
theorem exists_mem_set_op {l : List Call} {op : Op} (hi : l[i]? = some c) (hop : c'.op = c.op)
    (h : ∃ d ∈ l, d.op = op) : ∃ d ∈ l.set i c', d.op = op := by
  obtain ⟨d, hd, hdop⟩ := h
  obtain ⟨j, hj⟩ := List.getElem?_of_mem hd
  by_cases hij : i = j
  · subst hij
    obtain rfl : c = d := Option.some.inj (hi.symm.trans hj)
    obtain ⟨hlt, -⟩ := List.getElem?_eq_some_iff.1 hi
    exact ⟨c', List.mem_of_getElem? (List.getElem?_set_self hlt), hop.trans hdop⟩
  · exact ⟨d, List.mem_of_getElem? ((List.getElem?_set_ne hij).trans hj), hdop⟩

/-- One call goes on, and keeps to its part. -/
theorem Watched.set (h : Watched id s) (hi : s.calls[i]? = some c) (hcalls : s'.calls = s.calls.set i c')
    (hop : c'.op = c.op)
    (known : c'.op = .close id → c'.pc = .start ∨ c'.pc = .locked ∨ c'.known = true)
    (missed : c'.op = .runCommand id → c'.turnedAway → c.turnedAway ∨ ∃ d ∈ s.calls, d.op = .close id) : Watched id s' := by
  constructor
  · rw [hcalls]
    exact forall_mem_set h.known known
  · rw [hcalls]
    refine forall_mem_set (fun d hd hdop haway => exists_mem_set_op hi hop (h.missed d hd hdop haway)) ?_
    intro hrun haway
    refine exists_mem_set_op hi hop ?_
    obtain hold | hclose := missed hrun haway
    · exact h.missed c (List.mem_of_getElem? hi) (hop ▸ hrun) hold
    · exact hclose

/-- The same for a call that was past the registry's section and does not turn back. -/
theorem Watched.move (h : Watched id s) (hi : s.calls[i]? = some c) (hcalls : s'.calls = s.calls.set i c')
    (hop : c'.op = c.op) (hknown : c'.known = c.known) (hstart : c.pc ≠ .start) (hlocked : c.pc ≠ .locked)
    (haway : c'.op = .runCommand id → c'.turnedAway → c.turnedAway ∨ ∃ d ∈ s.calls, d.op = .close id) : Watched id s' := by
  refine h.set hi hcalls hop ?_ haway
  intro hclose
  obtain hpc | hpc | hk := h.known c (List.mem_of_getElem? hi) (hop ▸ hclose)
  · exact absurd hpc hstart
  · exact absurd hpc hlocked
  · exact .inr (.inr (hknown.trans hk))

/-- An id that was issued and is not in the map has been removed by somebody. -/
theorem Inv.exists_closer (h : Inv s) (hid : id ∈ s.issued.map (·.id)) (hgone : s.entries id = none) :
    ∃ c ∈ s.calls, c.op = .close id := by
  obtain ⟨issue, hissue, rfl⟩ := List.mem_map.1 hid
  obtain ⟨e, he⟩ := List.getElem?_of_mem hissue
  obtain ⟨entry, hentry⟩ := h.exists_entry he
  have hremoved := (h.entry e issue entry he hentry).removed
  rw [hgone, if_neg (by simp), Nat.add_zero] at hremoved
  obtain ⟨j, d, hd, hweight⟩ := exists_of_tally_pos (show 0 < tally (weight removing e) s.calls by
    have : tally (weight removing e) s.calls = 1 := hremoved
    omega)
  exact ⟨d, List.mem_of_getElem? hd, (h.remover he hd hweight).2⟩

/-- So has the client of an entry that is empty. -/
theorem Inv.exists_taker (h : Inv s) {e : Nat} {entry : Entry} (hi : s.calls[i]? = some c) (hid : c.op.id = some id)
    (he : c.entry = some e) (hentry : s.heap[e]? = some entry) (hempty : entry.client = none) :
    ∃ d ∈ s.calls, d.op = .close id := by
  obtain ⟨issue, hissue, hid'⟩ := (h.legit i c hi).entry_issue he
  obtain rfl : issue.id = id := Option.some.inj (hid'.symm.trans hid)
  have hslot := (h.entry e issue entry hissue hentry).slot
  rw [hempty] at hslot
  have hpos : 0 < count removing e s.calls := by
    have htaking : count taking e s.calls ≠ 0 := by
      intro hzero
      rw [if_pos hzero] at hslot
      cases hslot
    have hle : count taking e s.calls ≤ count removing e s.calls := tally_le (weight_mono taking_removing e) s.calls
    omega
  obtain ⟨j, d, hd, hweight⟩ := exists_of_tally_pos hpos
  exact ⟨d, List.mem_of_getElem? hd, (h.remover hissue hd hweight).2⟩

/-- Every step of the registry keeps watch over the handle. -/
theorem Watched.step (h : Watched id s) (hi : Inv s) (hid : id ∈ s.issued.map (·.id))
    (hs : Registry.Step finish s a s') : Watched id s' := by
  cases hs with
  | call op =>
    constructor
    · intro c hc
      obtain hold | hnew := List.mem_append.1 hc
      · exact h.known c hold
      · rw [List.mem_singleton] at hnew
        subst hnew
        exact fun _ => .inl rfl
    · intro c hc hop haway
      obtain hold | hnew := List.mem_append.1 hc
      · obtain ⟨d, hd, hdop⟩ := h.missed c hold hop haway
        exact ⟨d, List.mem_append_left _ hd, hdop⟩
      · rw [List.mem_singleton] at hnew
        subst hnew
        simp [Call.turnedAway, Call.begin] at haway
  | lock hc hpc free =>
    exact h.set hc rfl rfl (fun _ => .inr (.inl rfl)) fun _ haway => by simp [Call.turnedAway, Call.move] at haway
  | section_ hc hpc =>
    rename_i i c
    have hissued : s.isIssued id = true := by
      obtain ⟨issue, hissue, rfl⟩ := List.mem_map.1 hid
      exact List.any_eq_true.2 ⟨issue, hissue, beq_self_eq_true _⟩
    unfold Registry.section_
    split
    · rename_i hop
      split
      all_goals
        refine h.set hc rfl rfl (fun hclose => ?_) fun hrun => ?_
        · cases hop.symm.trans hclose
        · cases hop.symm.trans hrun
    · rename_i id' hop
      refine h.set hc rfl rfl (fun hclose => ?_) fun hrun haway => ?_
      · cases hop.symm.trans hclose
      · cases hop.symm.trans hrun
        exact .inr (hi.exists_closer hid (by simpa [Call.turnedAway] using haway))
    · rename_i id' hop
      refine h.set hc rfl rfl (fun hclose => ?_) fun hrun => ?_
      · cases hop.symm.trans hclose
        exact .inr (.inr hissued)
      · cases hop.symm.trans hrun
  | unlock hc hpc =>
    rename_i i c pc
    unfold Call.unlocked at hpc
    split at hpc
    · rename_i hpc'
      cases hpc
      exact h.move hc rfl rfl rfl (by simp [hpc']) (by simp [hpc']) fun _ haway => by simp [Call.turnedAway, Call.move] at haway
    · rename_i hpc'
      cases hpc
      exact h.move hc rfl rfl rfl (by simp [hpc']) (by simp [hpc']) fun _ haway => by simp [Call.turnedAway, Call.move] at haway
    · rename_i hpc' _ _
      cases hpc
      exact h.move hc rfl rfl rfl (by simp [hpc']) (by simp [hpc']) fun _ haway => by simp [Call.turnedAway, Call.move] at haway
    · rename_i hpc' _ hentry
      cases hpc
      exact h.move hc rfl rfl rfl (by simp [hpc']) (by simp [hpc']) fun _ _ => .inl (.inl ⟨hpc', hentry⟩)
    · cases hpc
  | read hc hpc hop he hentry free =>
    exact h.move hc rfl rfl rfl (by simp [hpc]) (by simp [hpc]) fun _ haway => by simp [Call.turnedAway, Call.move] at haway
  | write hc hpc hop he hentry free =>
    exact h.move hc rfl rfl rfl (by simp [hpc]) (by simp [hpc]) fun _ haway => by simp [Call.turnedAway, Call.move] at haway
  | refuse hc hpc hid' he hentry empty =>
    refine h.move hc rfl rfl rfl (by simp [hpc]) (by simp [hpc]) fun hrun _ => .inr ?_
    have hrun' : Op.id _ = some id := congrArg Op.id hrun
    exact hi.exists_taker hc hrun' he hentry empty
  | command hc hpc hop he hentry slot =>
    exact h.move hc rfl rfl rfl (by simp [hpc]) (by simp [hpc]) fun _ haway => by simp [Call.turnedAway, Call.enter] at haway
  | shutdown hc hpc hop he hentry slot =>
    exact h.move hc rfl rfl rfl (by simp [hpc]) (by simp [hpc]) fun _ haway => by simp [Call.turnedAway, Call.enter] at haway
  | spent hc hpc =>
    exact h.move hc rfl rfl rfl (by simp [hpc]) (by simp [hpc]) fun _ haway => by simp [Call.turnedAway, Call.enter] at haway
  | answer answer hc hpc houtcome =>
    refine h.move hc rfl rfl rfl (by simp [hpc]) (by simp [hpc]) fun hrun haway => ?_
    rename_i i client c outcome
    have hrun' : c.op = .runCommand id := hrun
    rw [hrun'] at houtcome
    cases answer <;> cases houtcome <;> simp [Call.turnedAway, Call.move] at haway
  | releaseRead hc hpc hop he hentry =>
    exact h.move hc rfl rfl rfl (by simp [hpc]) (by simp [hpc]) fun _ haway => by simp_all [Call.turnedAway, Call.move]
  | releaseWrite hc hpc hop he hentry =>
    exact h.move hc rfl rfl rfl (by simp [hpc]) (by simp [hpc]) fun _ haway => by simp_all [Call.move]
  | returned hc hpc hop =>
    exact h.move hc rfl rfl rfl (by simp [hpc]) (by simp [hpc]) fun _ haway => by simp_all [Call.move]

end EmbeddedMongo.Android.Handles

namespace EmbeddedMongo.Android.Facade

open Conc Handles

/-- What is called. -/
inductive Kind where
  /-- `runCommandBlocking`, called on the main thread or off it. -/
  | blocking (onMain : Bool)
  /-- `runCommand` -/
  | suspending
  | close
  deriving DecidableEq

/-- How a call ends. -/
inductive Outcome where
  /-- "the embedded MongoDB database is closed", from the flag or from the handle. -/
  | illegalState
  /-- The guard's own refusal. -/
  | rejected
  /-- The executor would not take the coroutine. -/
  | cancelled
  /-- The command could not be encoded. -/
  | unencodable
  | bridge (outcome : Handles.Outcome)
  /-- `close` returns, with what the bridge said if it came to that. -/
  | closed (outcome : Option Handles.Outcome)

/-- Where a call is. -/
inductive Place where
  | begun
  /-- `runCommand`, before it dispatches. -/
  | checked
  | queued
  /-- In `runCommandBlocking`, before its `checkOpen`. -/
  | entered
  | admitted
  | opened (handle : HandleId)
  /-- In `NativeBridge.command` or `NativeBridge.close`, which is this call of the registry. -/
  | bridging (call : Nat)
  /-- The command is over; the executor's thread is still the coroutine's. -/
  | over (outcome : Outcome)
  /-- `close`, past its look at the flag. -/
  | passed
  | marked
  | taken (handle : Option HandleId)
  /-- In the `finally` of `close`. -/
  | finishing (outcome : Option Handles.Outcome)
  | returned (outcome : Outcome)

/-- `late` is history: the flag was set when the call came. So is `bridge`, its call of the registry. -/
structure Call where
  kind : Kind
  place : Place
  late : Bool
  bridge : Option Nat

/-- One database, over the registry its handle is in. -/
structure State where
  registry : Registry
  closed : Bool
  /-- The `AtomicLong`; none is `CLOSED`. -/
  handle : Option HandleId
  shutdown : Bool
  queue : List Nat
  /-- What the executor's thread runs. -/
  busy : Option Nat
  calls : List Call

/-- What a move does to what the calls share. -/
inductive Effect where
  | nothing
  | enqueue
  | dequeue
  | free
  | bridge (op : Op)
  | mark
  | take
  | shutdown

namespace State

/-- One call moves. -/
def put (i : Nat) (c : Call) (s : State) : State := { s with calls := s.calls.set i c }

/-- The bridge is called. -/
def call (op : Op) (r : Registry) : Registry := { r with calls := r.calls ++ [.begin op] }

/-- What a move does around the call. -/
def apply (i : Nat) : Effect → State → State
  | .nothing, s => s
  | .enqueue, s => { s with queue := s.queue ++ [i] }
  | .dequeue, s => { s with queue := s.queue.tail, busy := some i }
  | .free, s => { s with busy := none }
  | .bridge op, s => { s with registry := call op s.registry }
  | .mark, s => { s with closed := true }
  | .take, s => { s with handle := none }
  | .shutdown, s => { s with shutdown := true }

/-- Call `n` of the registry is back. -/
def Answers (s : State) (n : Nat) (outcome : Handles.Outcome) : Prop :=
  ∃ c, s.registry.calls[n]? = some c ∧ c.pc = .returned outcome

end State

/-- What call `i` does next. -/
inductive Move (s : State) (i : Nat) : Kind → Place → Effect → Place → Prop where
  | reject : Move s i (.blocking true) .begun .nothing (.returned .rejected)
  | enter : Move s i (.blocking false) .begun .nothing .entered
  | refuse (closed : s.closed = true) : Move s i .suspending .begun .nothing (.returned .illegalState)
  | check (opened : s.closed = false) : Move s i .suspending .begun .nothing .checked
  | cancel (shut : s.shutdown = true) : Move s i .suspending .checked .nothing (.returned .cancelled)
  | dispatch (up : s.shutdown = false) : Move s i .suspending .checked .enqueue .queued
  | run (idle : s.busy = none) (first : s.queue.head? = some i) : Move s i .suspending .queued .dequeue .entered
  | shut {k : Kind} (closed : s.closed = true) : Move s i k .entered .nothing (.over .illegalState)
  | letIn {k : Kind} (opened : s.closed = false) : Move s i k .entered .nothing .admitted
  | encode {k : Kind} : Move s i k .admitted .nothing (.over .unencodable)
  | gone {k : Kind} (closed : s.handle = none) : Move s i k .admitted .nothing (.over .illegalState)
  | openHandle {k : Kind} {h : HandleId} (opened : s.handle = some h) : Move s i k .admitted .nothing (.opened h)
  | command {k : Kind} {h : HandleId} :
      Move s i k (.opened h) (.bridge (.runCommand h)) (.bridging s.registry.calls.length)
  | answer {k : Kind} {n : Nat} {outcome : Handles.Outcome} (command : k ≠ .close) (back : s.Answers n outcome) :
      Move s i k (.bridging n) .nothing (.over (.bridge outcome))
  | leave {onMain : Bool} {outcome : Outcome} :
      Move s i (.blocking onMain) (.over outcome) .nothing (.returned outcome)
  | resume {outcome : Outcome} : Move s i .suspending (.over outcome) .free (.returned outcome)
  | already (closed : s.closed = true) : Move s i .close .begun .nothing (.returned (.closed none))
  | pass (opened : s.closed = false) : Move s i .close .begun .nothing .passed
  | mark : Move s i .close .passed .mark .marked
  /-- `getAndSet` -/
  | take : Move s i .close .marked .take (.taken s.handle)
  | nothing : Move s i .close (.taken none) .nothing (.finishing none)
  | close {h : HandleId} : Move s i .close (.taken (some h)) (.bridge (.close h)) (.bridging s.registry.calls.length)
  | closed {n : Nat} {outcome : Handles.Outcome} (back : s.Answers n outcome) :
      Move s i .close (.bridging n) .nothing (.finishing (some outcome))
  | shutdown {outcome : Option Handles.Outcome} :
      Move s i .close (.finishing outcome) .shutdown (.returned (.closed outcome))

/-- The call of the registry a place is about. -/
def Place.bridge : Place → Option Nat → Option Nat
  | .bridging n, _ => some n
  | _, made => made

/-- Who moves. -/
inductive Act where
  | call (kind : Kind)
  | move (call : Nat)
  /-- A call of the registry goes on. -/
  | registry
  /-- Somebody calls the bridge with another handle, or opens one. -/
  | other (op : Op)

/-- The steps of the database whose handle is `id`. -/
inductive Step (finish : UInt64) (id : HandleId) : State → Act → State → Prop where
  | call {s : State} (kind : Kind) :
      Step finish id s (.call kind) { s with calls := s.calls ++ [⟨kind, .begun, s.closed, none⟩] }
  | move {s : State} {i : Nat} {c : Call} {e : Effect} {place : Place} (hi : s.calls[i]? = some c)
      (move : Move s i c.kind c.place e place) :
      Step finish id s (.move i) ((s.apply i e).put i { c with place := place, bridge := place.bridge c.bridge })
  | registry {s : State} {a : Registry.Act} {r : Registry} (own : ∀ op, a ≠ .call op)
      (step : Registry.Step finish s.registry a r) : Step finish id s .registry { s with registry := r }
  | other {s : State} (op : Op) (foreign : op.id ≠ some id) :
      Step finish id s (.other op) { s with registry := State.call op s.registry }

/-- A database whose handle has been issued and quoted by nobody. -/
structure Fresh (finish : UInt64) (id : HandleId) (s : State) : Prop where
  reach : (Handles.registry finish).Reach s.registry
  issued : id ∈ s.registry.issued.map (·.id)
  unquoted : ∀ c ∈ s.registry.calls, c.op.id ≠ some id
  closed : s.closed = false
  handle : s.handle = some id
  shutdown : s.shutdown = false
  queue : s.queue = []
  busy : s.busy = none
  calls : s.calls = []

/-- One database from its open on, among calls on other handles. -/
def database (finish : UInt64) (id : HandleId) : System State Act where
  init := Fresh finish id
  step := Step finish id

end EmbeddedMongo.Android.Facade
