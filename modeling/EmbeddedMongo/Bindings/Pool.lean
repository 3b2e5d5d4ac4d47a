import EmbeddedMongo.Conc.System
import EmbeddedMongo.Conc.Tally

/-!
# Connecting

`EmbeddedPool.connect` and `AsyncEmbeddedPool.connect` of `python/pymongo_embedded`. A connection
has a context by which the pool's owner cancels it. While it is being made a temporary context
stands in for it in `active_contexts`, and the two are exchanged under the pool's lock. `interrupt`
is the pool's owner: it cancels all the contexts that are active, under the same lock.

What is done under the lock is one step. The two classes differ in one thing: where the
asynchronous one waits for the lock, the task that waits may be cancelled.
-/

namespace EmbeddedMongo.Bindings.Pool

open Conc

/-- A `_CancellationContext`, by the call that made it. -/
inductive Context where
  | temporary (call : Nat)
  | connection (call : Nat)
  deriving DecidableEq

/-- What is announced of a connection. -/
inductive Telemetry where
  | created (connectionId : Nat)
  | closed (connectionId : Nat)
  deriving DecidableEq

/-- How far a call had come when it failed. -/
inductive Got where
  /-- `connection` is `None`. -/
  | nothing
  /-- There is a connection, and the contexts have not been exchanged. -/
  | connection
  | exchanged (completedHello : Bool)

namespace Got

/-- There is one to close. -/
def hasConnection : Got → Bool
  | .nothing => false
  | .connection | .exchanged _ => true

/-- The handshake was through. -/
def completedHello : Got → Bool
  | .nothing | .connection => false
  | .exchanged completed => completed

/-- Its context has taken the place of the temporary one. -/
def isExchanged : Got → Bool
  | .nothing | .connection => false
  | .exchanged _ => true

end Got

/-- Where a call is. `closed` says that the connection has been closed by what failed. -/
inductive Place where
  | entering
  | created (connectionId : Nat)
  | constructing (connectionId : Nat)
  | exchanging (connectionId : Nat)
  | checking (connectionId : Nat)
  | greeting (connectionId : Nat)
  | contributing (connectionId : Nat) (completedHello : Bool)
  | authenticating (connectionId : Nat) (completedHello : Bool)
  /-- Past the `try`. -/
  | gossiping (connectionId : Nat) (completedHello : Bool)
  | returned (connectionId : Nat)
  /-- Given back to the pool by whoever it was returned to. -/
  | checkedIn (connectionId : Nat)
  /-- In the `except`, before its lock. -/
  | cleaning (connectionId : Nat) (got : Got) (closed : Bool)
  | closing (connectionId : Nat) (got : Got) (closed : Bool)
  /-- With whether `_handle_connection_error` was called. -/
  | raised (connectionId : Nat) (handled : Bool)
  /-- It raised as well, without the `except` or without the rest of it. -/
  | abandoned (connectionId : Nat) (got : Got) (closed : Bool)

namespace Place

/-- The id it has drawn. -/
def connectionId : Place → Option Nat
  | .entering => none
  | .created k | .constructing k | .exchanging k | .checking k | .greeting k | .contributing k _
  | .authenticating k _ | .gossiping k _ | .returned k | .checkedIn k | .cleaning k _ _ | .closing k _ _
  | .raised k _ | .abandoned k _ _ => some k

/-- The temporary context is active. -/
def holdsTemporary : Place → Bool
  | .created _ | .constructing _ | .exchanging _ => true
  | .cleaning _ got _ | .abandoned _ got _ => !got.isExchanged
  | _ => false

/-- The connection's own context is. -/
def holdsConnection : Place → Bool
  | .checking _ | .greeting _ | .contributing _ _ | .authenticating _ _ | .gossiping _ _ | .returned _ => true
  | .cleaning _ got _ | .abandoned _ got _ => got.isExchanged
  | _ => false

/-- How often the connection has been announced closed. -/
def announcedClosed : Place → Nat
  | .cleaning _ _ closed | .closing _ _ closed | .abandoned _ _ closed => closed.toNat
  | .raised _ _ => 1
  | _ => 0

/-- Past `if temporary_context.cancelled`, and nothing has failed. -/
def checked : Place → Bool
  | .greeting _ | .contributing _ _ | .authenticating _ _ | .gossiping _ _ | .returned _ | .checkedIn _ => true
  | _ => false

end Place

/-- One `connect`. -/
structure Call where
  /-- `connect` was called with a handler. -/
  handler : Bool
  place : Place

/-- What a move does to what the calls share. -/
inductive Effect where
  | nothing
  /-- The first section: an id is taken, the temporary context added. -/
  | enter
  | announce (event : Telemetry)
  /-- The second: the connection's context added, the temporary one discarded. -/
  | exchange
  /-- A cancel of the temporary context is passed on. -/
  | carry
  /-- The third: the contexts the call has made are discarded. -/
  | discard (hasConnection : Bool)

/-- The pool: its contexts, what was announced, and all calls. -/
structure State where
  nextConnectionId : Nat
  active : Finset Context
  cancelled : Finset Context
  telemetry : List Telemetry
  calls : List Call

namespace Effect

/-- The active contexts after a move. -/
def active (i : Nat) : Effect → Finset Context → Finset Context
  | .enter, active => insert (.temporary i) active
  | .exchange, active => (insert (.connection i) active).erase (.temporary i)
  | .discard true, active => (active.erase (.temporary i)).erase (.connection i)
  | .discard false, active => active.erase (.temporary i)
  | .nothing, active | .announce _, active | .carry, active => active

/-- The cancelled contexts after a move. -/
def cancelled (i : Nat) : Effect → Finset Context → Finset Context
  | .carry, cancelled => if .temporary i ∈ cancelled then insert (.connection i) cancelled else cancelled
  | _, cancelled => cancelled

/-- The announcements after a move. -/
def telemetry : Effect → List Telemetry → List Telemetry
  | .announce event, telemetry => telemetry ++ [event]
  | _, telemetry => telemetry

/-- The next id after a move. -/
def nextConnectionId : Effect → Nat → Nat
  | .enter, next => next + 1
  | _, next => next

end Effect

/-- What one call does next. `nonblocking` is whether a wait for the lock can be cancelled. -/
inductive Move (nonblocking isSdam handler : Bool) (next : Nat) : Place → Effect → Place → Prop where
  | enter : Move nonblocking isSdam handler next .entering .enter (.created next)
  | created {k : Nat} :
      Move nonblocking isSdam handler next (.created k) (.announce (.created k)) (.constructing k)
  | construct {k : Nat} : Move nonblocking isSdam handler next (.constructing k) .nothing (.exchanging k)
  | constructFails {k : Nat} :
      Move nonblocking isSdam handler next (.constructing k) .nothing (.cleaning k .nothing false)
  | exchange {k : Nat} : Move nonblocking isSdam handler next (.exchanging k) .exchange (.checking k)
  | exchangeCancelled {k : Nat} (cancels : nonblocking = true) :
      Move nonblocking isSdam handler next (.exchanging k) .nothing (.cleaning k .connection false)
  | check {k : Nat} (sdam : isSdam = false) : Move nonblocking isSdam handler next (.checking k) .carry (.greeting k)
  | checkSdam {k : Nat} (sdam : isSdam = true) :
      Move nonblocking isSdam handler next (.checking k) .carry (.contributing k false)
  | hello {k : Nat} : Move nonblocking isSdam handler next (.greeting k) .nothing (.contributing k true)
  | helloFails {k : Nat} :
      Move nonblocking isSdam handler next (.greeting k) .nothing (.cleaning k (.exchanged false) false)
  /-- As it fails it closes the connection. -/
  | helloCloses {k : Nat} :
      Move nonblocking isSdam handler next (.greeting k) (.announce (.closed k)) (.cleaning k (.exchanged false) true)
  | contribute {k : Nat} {hello : Bool} :
      Move nonblocking isSdam handler next (.contributing k hello) .nothing (.authenticating k hello)
  | contributeFails {k : Nat} {hello : Bool} (has : handler = true) :
      Move nonblocking isSdam handler next (.contributing k hello) .nothing (.cleaning k (.exchanged hello) false)
  | authenticate {k : Nat} {hello : Bool} :
      Move nonblocking isSdam handler next (.authenticating k hello) .nothing (.gossiping k hello)
  | authenticateFails {k : Nat} {hello : Bool} :
      Move nonblocking isSdam handler next (.authenticating k hello) .nothing (.cleaning k (.exchanged hello) false)
  | authenticateCloses {k : Nat} {hello : Bool} :
      Move nonblocking isSdam handler next (.authenticating k hello) (.announce (.closed k))
        (.cleaning k (.exchanged hello) true)
  | gossip {k : Nat} {hello : Bool} : Move nonblocking isSdam handler next (.gossiping k hello) .nothing (.returned k)
  | gossipFails {k : Nat} {hello : Bool} (has : handler = true) :
      Move nonblocking isSdam handler next (.gossiping k hello) .nothing (.abandoned k (.exchanged hello) false)
  | clean {k : Nat} {got : Got} {closed : Bool} :
      Move nonblocking isSdam handler next (.cleaning k got closed) (.discard got.hasConnection) (.closing k got closed)
  | cleanCancelled {k : Nat} {got : Got} {closed : Bool} (cancels : nonblocking = true) :
      Move nonblocking isSdam handler next (.cleaning k got closed) .nothing (.abandoned k got closed)
  /-- `close_conn`, or the event alone if there is no connection. -/
  | close {k : Nat} {got : Got} :
      Move nonblocking isSdam handler next (.closing k got false) (.announce (.closed k))
        (.raised k (!got.completedHello))
  /-- `close_conn` of a closed connection does nothing. -/
  | closeAgain {k : Nat} {got : Got} :
      Move nonblocking isSdam handler next (.closing k got true) .nothing (.raised k (!got.completedHello))

/-- Who moves. -/
inductive Act where
  | connect (handler : Bool)
  | move (call : Nat)
  /-- The pool's owner cancels everything that is active. -/
  | interrupt
  /-- A connection that was returned comes back. -/
  | checkIn (call : Nat)

namespace State

def set (i : Nat) (c : Call) (s : State) : State := { s with calls := s.calls.set i c }

def apply (i : Nat) (e : Effect) (s : State) : State where
  nextConnectionId := e.nextConnectionId s.nextConnectionId
  active := e.active i s.active
  cancelled := e.cancelled i s.cancelled
  telemetry := e.telemetry s.telemetry
  calls := s.calls

/-- Everything active is cancelled. -/
def interrupted (s : State) : State := { s with cancelled := s.cancelled ∪ s.active }

/-- The connection is no longer anybody's. -/
def checkedIn (i : Nat) (s : State) : State := { s with active := s.active.erase (.connection i) }

def initial : State := ⟨1, ∅, ∅, [], []⟩

end State

/-- The calls, interrupts and check-ins, one at a time. -/
inductive Step (nonblocking isSdam : Bool) : State → Act → State → Prop where
  | connect {s : State} (handler : Bool) :
      Step nonblocking isSdam s (.connect handler) { s with calls := s.calls ++ [⟨handler, .entering⟩] }
  | move {s : State} {i : Nat} {c : Call} {e : Effect} {place : Place} (hi : s.calls[i]? = some c)
      (move : Move nonblocking isSdam c.handler s.nextConnectionId c.place e place) :
      Step nonblocking isSdam s (.move i) ((s.apply i e).set i { c with place := place })
  | interrupt {s : State} : Step nonblocking isSdam s .interrupt s.interrupted
  | checkIn {s : State} {i k : Nat} {c : Call} (hi : s.calls[i]? = some c) (back : c.place = .returned k) :
      Step nonblocking isSdam s (.checkIn i) ((s.checkedIn i).set i { c with place := .checkedIn k })

/-- A pool from its creation on. -/
def pool (nonblocking isSdam : Bool) : System State Act where
  init s := s = .initial
  step := Step nonblocking isSdam

variable {nonblocking isSdam handler : Bool} {next : Nat} {place place' : Place} {e : Effect} {s s' : State} {a : Act}

/-! ## Each call's contexts -/

/-- Which of the contexts of a call are active is a matter of where the call is. -/
def Tracks (i : Nat) (active : Finset Context) (place : Place) : Prop :=
  (.temporary i ∈ active ↔ place.holdsTemporary = true) ∧ (.connection i ∈ active ↔ place.holdsConnection = true)

/-- What others do leaves a call's own contexts alone. -/
theorem Tracks.effect {i j : Nat} {active : Finset Context} (h : Tracks j active place) (hne : j ≠ i) :
    Tracks j (e.active i active) place := by
  unfold Tracks at h ⊢
  rcases e with _ | _ | _ | _ | _ | (_ | _) <;> simp [Effect.active, hne, h]

/-- A call keeps track of its contexts through its own moves. -/
theorem Move.tracks {i : Nat} {active : Finset Context} (h : Move nonblocking isSdam handler next place e place')
    (ht : Tracks i active place) : Tracks i (e.active i active) place' := by
  unfold Tracks at ht ⊢
  cases h with
  | clean =>
    rename_i k got closed
    rcases got with _ | _ | hello <;>
      simp_all [Effect.active, Got.hasConnection, Got.isExchanged, Place.holdsTemporary, Place.holdsConnection]
  | _ => simp_all [Effect.active, Got.isExchanged, Place.holdsTemporary, Place.holdsConnection]

/-- The contexts of the calls, and of those yet to come, which have none. -/
structure Tracked (s : State) : Prop where
  calls : ∀ (i : Nat) (c : Call), s.calls[i]? = some c → Tracks i s.active c.place
  fresh : ∀ j, s.calls.length ≤ j → Tracks j s.active .entering

theorem Tracks.checkedIn {i k : Nat} {active : Finset Context} (h : Tracks i active (.returned k)) :
    Tracks i (active.erase (.connection i)) (.checkedIn k) := by
  unfold Tracks at h ⊢
  simp_all [Place.holdsTemporary, Place.holdsConnection]

theorem Tracks.erase_of_ne {i j : Nat} {active : Finset Context} (h : Tracks j active place) (hne : j ≠ i) :
    Tracks j (active.erase (.connection i)) place := by
  unfold Tracks at h ⊢
  simp [hne, h]

/-- Every step keeps track of every call. -/
theorem Step.tracked (h : Step nonblocking isSdam s a s') (ht : Tracked s) : Tracked s' := by
  cases h with
  | connect handler =>
    refine ⟨forall_getElem?_append ht.calls (ht.fresh _ le_rfl), fun j hj => ht.fresh j ?_⟩
    rw [List.length_append] at hj
    omega
  | move hi move =>
    rename_i i c e place
    obtain ⟨hlt, -⟩ := List.getElem?_eq_some_iff.1 hi
    refine ⟨forall_getElem?_set (fun j d hj hne => (ht.calls j d hj).effect hne) (move.tracks (ht.calls i c hi)), ?_⟩
    intro j hj
    have hj' : s.calls.length ≤ j := by simpa [State.set, State.apply] using hj
    exact (ht.fresh j hj').effect (by omega)
  | interrupt => exact ⟨ht.calls, ht.fresh⟩
  | checkIn hi back =>
    rename_i i k c
    obtain ⟨hlt, -⟩ := List.getElem?_eq_some_iff.1 hi
    refine ⟨forall_getElem?_set (fun j d hj hne => (ht.calls j d hj).erase_of_ne hne) (back ▸ ht.calls i c hi).checkedIn, ?_⟩
    intro j hj
    have hj' : s.calls.length ≤ j := by simpa [State.set, State.checkedIn] using hj
    exact (ht.fresh j hj').erase_of_ne (by omega)

/-- Every run keeps track of every call. -/
theorem tracked_of_reach (h : (pool nonblocking isSdam).Reach s) : Tracked s := by
  refine h.induct ?_ (fun s a s' _ hi (hstep : Step nonblocking isSdam s a s') => hstep.tracked hi)
  rintro s rfl
  exact ⟨fun i c hi => by simp [State.initial] at hi, fun j _ => by simp [Tracks, State.initial, Place.holdsTemporary, Place.holdsConnection]⟩

/-! ## Each connection is announced closed at most once -/

namespace Place

def under (k : Nat) (place : Place) : Nat := if place.connectionId = some k then 1 else 0

/-- The announcements of its closing under this id. -/
def closedUnder (k : Nat) (place : Place) : Nat := if place.connectionId = some k then place.announcedClosed else 0

/-- Those still due. -/
def openUnder (k : Nat) (place : Place) : Nat := if place.connectionId = some k then 1 - place.announcedClosed else 0

theorem announcedClosed_le_one (place : Place) : place.announcedClosed ≤ 1 := by
  cases place <;> simp [announcedClosed, Bool.toNat_le]

/-- Each id is announced closed once or is still open. -/
theorem closedUnder_add_openUnder (k : Nat) (place : Place) : place.closedUnder k + place.openUnder k = place.under k := by
  have := place.announcedClosed_le_one
  unfold closedUnder openUnder under
  split <;> omega

end Place

/-- The id a move goes under is the call's, or the next one. -/
theorem Move.under (h : Move nonblocking isSdam handler next place e place') (k : Nat) :
    (place'.under k = place.under k ∧ e.nextConnectionId next = next) ∨
      (place'.under k = (if k = next then 1 else 0) ∧ place.under k = 0 ∧ e.nextConnectionId next = next + 1) := by
  cases h with
  | enter => exact .inr ⟨by simp [Place.under, Place.connectionId, eq_comm], rfl, rfl⟩
  | _ => exact .inl ⟨rfl, rfl⟩

/-- What a move announces is what its place counts. -/
theorem Move.closedUnder (h : Move nonblocking isSdam handler next place e place') (k : Nat) (events : List Telemetry) :
    (e.telemetry events).count (.closed k) + place.closedUnder k = events.count (.closed k) + place'.closedUnder k := by
  cases h <;>
    grind [Effect.telemetry, Place.closedUnder, Place.connectionId, Place.announcedClosed, List.count_singleton]

/-- Ids are handed out once, and the events under an id are those of the call that has it. -/
structure Announced (s : State) : Prop where
  once : ∀ k, tally (fun c => c.place.under k) s.calls ≤ if k < s.nextConnectionId then 1 else 0
  closed : ∀ k, s.telemetry.count (.closed k) = tally (fun c => c.place.closedUnder k) s.calls

/-- Every step keeps the announcements right. -/
theorem Step.announced (h : Step nonblocking isSdam s a s') (ha : Announced s) : Announced s' := by
  cases h with
  | connect handler =>
    constructor
    · intro k
      rw [tally_append]
      exact ha.once k
    · intro k
      rw [tally_append]
      exact ha.closed k
  | move hi move =>
    rename_i i c e place
    constructor
    · intro k
      change tally _ (s.calls.set i { c with place := place }) ≤ if k < e.nextConnectionId s.nextConnectionId then 1 else 0
      have hold := ha.once k
      have hmoved := tally_set (fun c : Call => c.place.under k) hi { c with place := place }
      dsimp only at hmoved
      obtain ⟨hsame, hnext⟩ | ⟨hnew, hnone, hnext⟩ := move.under k
      · rw [hnext]
        omega
      · rw [hnext]
        split at hold <;> split <;> split at hnew <;> omega
    · intro k
      change (e.telemetry s.telemetry).count (.closed k) = tally _ (s.calls.set i { c with place := place })
      have hold := ha.closed k
      have hmoved := tally_set (fun c : Call => c.place.closedUnder k) hi { c with place := place }
      dsimp only at hmoved
      have := move.closedUnder k s.telemetry
      omega
  | interrupt => exact ⟨ha.once, ha.closed⟩
  | checkIn hi back =>
    rename_i i l c
    constructor
    · intro k
      have hmoved := tally_set (fun c : Call => c.place.under k) hi { c with place := .checkedIn l }
      rw [back] at hmoved
      refine le_of_eq_of_le ?_ (ha.once k)
      exact Nat.add_right_cancel hmoved
    · intro k
      have hmoved := tally_set (fun c : Call => c.place.closedUnder k) hi { c with place := .checkedIn l }
      rw [back] at hmoved
      refine (ha.closed k).trans ?_
      exact (Nat.add_right_cancel hmoved).symm

/-- Every run has its announcements right. -/
theorem announced_of_reach (h : (pool nonblocking isSdam).Reach s) : Announced s := by
  refine h.induct ?_ (fun s a s' _ hi (hstep : Step nonblocking isSdam s a s') => hstep.announced hi)
  rintro s rfl
  exact ⟨fun k => Nat.zero_le _, fun k => rfl⟩

/-- The events of one call's connection. -/
theorem Announced.count_closed {i k : Nat} {c : Call} (h : Announced s) (hi : s.calls[i]? = some c)
    (hk : c.place.connectionId = some k) : s.telemetry.count (.closed k) = c.place.announcedClosed := by
  have hsum : tally (fun c : Call => c.place.closedUnder k + c.place.openUnder k) s.calls ≤ 1 := by
    simp only [Place.closedUnder_add_openUnder]
    refine (h.once k).trans ?_
    split <;> omega
  rw [tally_add] at hsum
  have hclosed := le_tally (fun c : Call => c.place.closedUnder k) hi
  have hopen := le_tally (fun c : Call => c.place.openUnder k) hi
  have hone := c.place.announcedClosed_le_one
  unfold Place.closedUnder at hclosed
  unfold Place.openUnder at hopen
  rw [if_pos hk] at hclosed hopen
  have := h.closed k
  unfold Place.closedUnder at this hsum
  unfold Place.openUnder at hsum
  omega

/-! ## No cancel is missed -/

/-- What is cancelled stays so. -/
theorem Effect.subset_cancelled (i : Nat) (cancelled : Finset Context) : cancelled ⊆ e.cancelled i cancelled := by
  cases e with
  | carry =>
    dsimp only [Effect.cancelled]
    split
    · exact Finset.subset_insert _ _
    · exact Finset.Subset.refl _
  | _ => exact Finset.Subset.refl _

theorem Move.checked_cases (h : Move nonblocking isSdam handler next place e place') (hc : place'.checked = true) :
    place.checked = true ∨ e = .carry := by
  cases h <;> simp_all [Place.checked]

theorem Place.not_checked_of_holdsTemporary (h : place.holdsTemporary = true) : place.checked = false := by
  cases place <;> simp_all [Place.holdsTemporary, Place.checked]

/-- The call's connection is cancelled, or will be when the call looks at its temporary context. -/
def Hit (i : Nat) (s : State) : Prop :=
  ∃ c, s.calls[i]? = some c ∧
    (.connection i ∈ s.cancelled ∨ .temporary i ∈ s.cancelled ∧ c.place.checked = false)

/-- A call that was hit by an interrupt stays so. -/
theorem Step.hit {i : Nat} (h : Step nonblocking isSdam s a s') (hit : Hit i s) : Hit i s' := by
  obtain ⟨c, hc, hhit⟩ := hit
  cases h with
  | connect handler => exact ⟨c, getElem?_append_of_eq_some hc, hhit⟩
  | move hj move =>
    rename_i j d e place
    have hsub : s.cancelled ⊆ e.cancelled j s.cancelled := Effect.subset_cancelled j s.cancelled
    by_cases hij : i = j
    · subst hij
      obtain rfl : c = d := Option.some.inj (hc.symm.trans hj)
      obtain ⟨hlt, -⟩ := List.getElem?_eq_some_iff.1 hc
      refine ⟨{ c with place := place }, List.getElem?_set_self hlt, ?_⟩
      obtain hconnection | ⟨htemporary, hchecked⟩ := hhit
      · exact .inl (hsub hconnection)
      · by_cases hplace : place.checked = true
        · -- The only way past the check is through it.
          obtain hbefore | rfl := move.checked_cases hplace
          · rw [hchecked] at hbefore
            cases hbefore
          · left
            change .connection i ∈ Effect.cancelled i .carry s.cancelled
            dsimp only [Effect.cancelled]
            rw [if_pos htemporary]
            exact Finset.mem_insert_self _ _
        · exact .inr ⟨hsub htemporary, by simpa using hplace⟩
    · refine ⟨c, (List.getElem?_set_ne (Ne.symm hij)).trans hc, hhit.imp (fun h => hsub h) fun h => ⟨hsub h.1, h.2⟩⟩
  | interrupt =>
    exact ⟨c, hc, hhit.imp (fun h => Finset.mem_union_left _ h) fun h => ⟨Finset.mem_union_left _ h.1, h.2⟩⟩
  | checkIn hj back =>
    rename_i j k d
    by_cases hij : i = j
    · subst hij
      obtain rfl : c = d := Option.some.inj (hc.symm.trans hj)
      obtain ⟨hlt, -⟩ := List.getElem?_eq_some_iff.1 hc
      refine ⟨{ c with place := .checkedIn k }, List.getElem?_set_self hlt, hhit.imp_right fun h => ?_⟩
      rw [back] at h
      cases h.2
    · exact ⟨c, (List.getElem?_set_ne (Ne.symm hij)).trans hc, hhit⟩

/-- Whoever has a context active when the interrupt comes is hit. -/
theorem Tracked.hit_interrupted {i : Nat} {c : Call} (h : Tracked s) (hi : s.calls[i]? = some c)
    (hactive : .temporary i ∈ s.active ∨ .connection i ∈ s.active) : Hit i s.interrupted := by
  refine ⟨c, hi, ?_⟩
  obtain htemporary | hconnection := hactive
  · exact .inr ⟨Finset.mem_union_right _ htemporary,
      Place.not_checked_of_holdsTemporary ((h.calls i c hi).1.1 htemporary)⟩
  · exact .inl (Finset.mem_union_right _ hconnection)

/-! ## Who is abandoned -/

/-- A task cancelled while the `except` waits for its lock, or a gossip that failed. -/
def Excused (nonblocking : Bool) (c : Call) : Prop :=
  ∀ k got closed, c.place = .abandoned k got closed →
    nonblocking = true ∨ c.handler = true ∧ got.isExchanged = true ∧ closed = false

/-- A context is left behind only with an excuse. -/
theorem Move.excused {c : Call} (h : Move nonblocking isSdam c.handler next c.place e place') :
    Excused nonblocking { c with place := place' } := by
  intro k got closed hplace
  obtain ⟨handler, place⟩ := c
  dsimp only at h hplace ⊢
  cases h with
  | gossipFails has =>
    cases hplace
    exact .inr ⟨has, rfl, rfl⟩
  | cleanCancelled cancels => exact .inl cancels
  | check _ => cases hplace
  | _ => cases hplace

/-- Every context left behind in a run has one. -/
theorem excused_of_reach (h : (pool nonblocking isSdam).Reach s) : ∀ c ∈ s.calls, Excused nonblocking c := by
  refine h.induct (I := fun s => ∀ c ∈ s.calls, Excused nonblocking c) ?_ ?_
  · rintro s rfl c hc
    cases hc
  · intro s a s' _ hi hstep
    cases hstep with
    | connect handler =>
      intro c hc
      obtain hold | hnew := List.mem_append.1 hc
      · exact hi c hold
      · rw [List.mem_singleton] at hnew
        subst hnew
        intro k got closed hplace
        cases hplace
    | move _ move => exact forall_mem_set hi move.excused
    | interrupt => exact hi
    | checkIn _ _ =>
      refine forall_mem_set hi ?_
      intro k got closed hplace
      cases hplace

/-- Any number of calls connect at once, the pool is interrupted at any time, and anything in a call
may fail. A connection that was returned has its own context active and nothing else; a call that
raised from its `except` has none, and its connection was announced closed once. What is left
behind is left by a failed gossip of the cluster time, or by a task cancelled as it waits to clean
up. An interrupt that comes while the call has a context active reaches the connection it makes. -/
theorem connecting_keeps_track_of_its_contexts {nonblocking isSdam : Bool} {s : State} {i : Nat} {c : Call}
    (h : (pool nonblocking isSdam).Reach s) (hi : s.calls[i]? = some c) :
    (∀ k, c.place = .returned k →
      .connection i ∈ s.active ∧ .temporary i ∉ s.active ∧ s.telemetry.count (.closed k) = 0) ∧
    (∀ k handled, c.place = .raised k handled →
      .connection i ∉ s.active ∧ .temporary i ∉ s.active ∧ s.telemetry.count (.closed k) = 1) ∧
    (∀ k got closed, c.place = .abandoned k got closed →
      (nonblocking = true ∨ c.handler = true ∧ got.isExchanged = true ∧ closed = false) ∧
      (.connection i ∈ s.active ↔ got.isExchanged = true) ∧ (.temporary i ∈ s.active ↔ got.isExchanged = false) ∧
      s.telemetry.count (.closed k) = closed.toNat) ∧
    (.temporary i ∈ s.active ∨ .connection i ∈ s.active →
      ∀ t d, (pool nonblocking isSdam).Steps s.interrupted t → t.calls[i]? = some d → d.place.checked = true →
        .connection i ∈ t.cancelled) := by
  have tracked := tracked_of_reach h
  have announced := announced_of_reach h
  obtain ⟨htemporary, hconnection⟩ := tracked.calls i c hi
  refine ⟨?_, ?_, ?_, ?_⟩
  · intro k hplace
    have hcount := announced.count_closed (k := k) hi (by rw [hplace]; rfl)
    rw [hplace] at htemporary hconnection hcount
    exact ⟨hconnection.2 rfl, (fun h => by cases htemporary.1 h), hcount⟩
  · intro k handled hplace
    have hcount := announced.count_closed (k := k) hi (by rw [hplace]; rfl)
    rw [hplace] at htemporary hconnection hcount
    exact ⟨(fun h => by cases hconnection.1 h), (fun h => by cases htemporary.1 h), hcount⟩
  · intro k got closed hplace
    have hcount := announced.count_closed (k := k) hi (by rw [hplace]; rfl)
    have hexcused := excused_of_reach h c (List.mem_of_getElem? hi) k got closed hplace
    rw [hplace] at htemporary hconnection hcount
    exact ⟨hexcused, hconnection, by simpa [Place.holdsTemporary] using htemporary, hcount⟩
  · intro hactive t d hrun hd hchecked
    obtain ⟨d', hd', hhit⟩ := hrun.keep (I := Hit i) (h.next Step.interrupt) (tracked.hit_interrupted hi hactive)
      fun s a s' _ hi (hstep : Step nonblocking isSdam s a s') => hstep.hit hi
    obtain rfl : d' = d := Option.some.inj (hd'.symm.trans hd)
    obtain hcancelled | ⟨-, hunchecked⟩ := hhit
    · exact hcancelled
    · rw [hchecked] at hunchecked
      cases hunchecked

/-- One call, without a handler, and nobody else. -/
def alone (next : Nat) (active cancelled : Finset Context) (telemetry : List Telemetry) (place : Place) : State :=
  ⟨next, active, cancelled, telemetry, [⟨false, place⟩]⟩

theorem alone_move {active cancelled : Finset Context} {telemetry : List Telemetry}
    (h : Move nonblocking isSdam false next place e place') :
    (pool nonblocking isSdam).step (alone next active cancelled telemetry place) (.move 0)
      (alone (e.nextConnectionId next) (e.active 0 active) (e.cancelled 0 cancelled) (e.telemetry telemetry) place') :=
  Step.move (s := alone next active cancelled telemetry place) (i := 0) (c := ⟨false, place⟩) rfl h

/-- The interrupt finds the temporary context, just before the exchange, and the connection that is
returned is cancelled. -/
theorem interrupt_before_the_exchange_is_carried :
    ∃ s t d, (pool true false).Reach s ∧ .temporary 0 ∈ s.active ∧ (pool true false).Steps s.interrupted t ∧
      t.calls[0]? = some d ∧ d.place = .returned 1 ∧ .connection 0 ∈ t.cancelled := by
  have called : (pool true false).Reach (alone 1 ∅ ∅ [] .entering) :=
    System.Reach.next (.init rfl) (Step.connect false)
  have made : (pool true false).Reach (alone 2 {.temporary 0} ∅ [.created 1] (.exchanging 1)) :=
    ((called.next (alone_move .enter)).next (alone_move .created)).next (alone_move .construct)
  have checked := (System.Steps.refl (S := pool true false)
    (alone 2 {.temporary 0} {.temporary 0} [.created 1] (.exchanging 1))).step (alone_move .exchange)
    |>.step (alone_move (.check rfl))
  have returned := checked.step (alone_move .hello) |>.step (alone_move .contribute) |>.step (alone_move .authenticate)
    |>.step (alone_move .gossip)
  refine ⟨_, _, _, made, by decide, returned, rfl, rfl, ?_⟩
  exact (connecting_keeps_track_of_its_contexts made rfl).2.2.2 (.inl (by decide)) _ _ returned rfl rfl

end EmbeddedMongo.Bindings.Pool
