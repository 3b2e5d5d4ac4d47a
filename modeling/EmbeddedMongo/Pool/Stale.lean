import EmbeddedMongo.Pool.Sessions

/-!
# The reaper's choice, and its alarm clock

Entries are pushed at the back with the time they are pushed at, so with a clock that does not go
back the idle list is ordered by its times, and the stale entries are a front part of it. That is
what makes one pass of `State::reap` take the stalest, and what makes its answer the moment the next
entry is due.
-/

namespace EmbeddedMongo.Pool

open Conc

variable {S : Type}

/-- Ordered by the times they were given back. -/
def Ordered (idle : List (Idle S)) : Prop := idle.Pairwise fun a b => a.since ≤ b.since

/-! ## Histories -/

/-- The bookkeeping and the clock. -/
structure History (S : Type) where
  state : State S
  now : Nat

namespace History

inductive Act (S : Type) where
  | tick (nanos : Nat)
  | giveBack (session : S)
  | take
  | reap (min timeout : Nat)
  /-- `open` and `closing` are set, to whatever: `grow`, `closed`, `stop_reaping`. -/
  | recount (openCount : Nat) (closing : Bool)

/-- What may happen to the idle list, in any order and number. -/
inductive Step : History S → Act S → History S → Prop where
  | tick {h : History S} (nanos : Nat) : Step h (.tick nanos) { h with now := h.now + nanos }
  | giveBack {h : History S} (session : S) :
      Step h (.giveBack session) { h with state := h.state.giveBack session h.now }
  | take {h : History S} : Step h .take { h with state := h.state.take.2 }
  | reap {h : History S} (min timeout : Nat) :
      Step h (.reap min timeout) { h with state := (h.state.reap min timeout h.now).2 }
  | recount {h : History S} (openCount : Nat) (closing : Bool) :
      Step h (.recount openCount closing) { h with state := { h.state with openCount := openCount, closing := closing } }

/-- Every entry stamped in turn, and none from the future: what `Idles::new` leaves, and what stays. -/
structure Stamped (h : History S) : Prop where
  ordered : Ordered h.state.idle
  past : ∀ e ∈ h.state.idle, e.since ≤ h.now

end History

def history (S : Type) : System (History S) (History.Act S) where
  init := History.Stamped
  step := History.Step

/-! ## One pass -/

namespace Sweep

variable {timeout now : Nat}

theorem foldl_spent (l : List (Idle S)) (w : Sweep S) (h : w.spare = 0) :
    l.foldl (entry timeout now) w = { w with kept := w.kept ++ l } := by
  induction l generalizing w with
  | nil => simp
  | cons e l ih =>
    have hentry : entry timeout now w e = { w with kept := w.kept ++ [e] } := by
      simp [entry, h]
    rw [List.foldl_cons, hentry, ih { w with kept := w.kept ++ [e] } h]
    simp

/-- Entries that are not due, with an earlier one among those seen. -/
theorem foldl_fresh (l : List (Idle S)) (w : Sweep S) (hfresh : ∀ e ∈ l, stale timeout now e = false)
    (hwait : ∀ e ∈ l, w.wait ≤ timeout - (now - e.since)) :
    l.foldl (entry timeout now) w = { w with kept := w.kept ++ l } := by
  induction l generalizing w with
  | nil => simp
  | cons e l ih =>
    obtain ⟨he, hfresh⟩ := List.forall_mem_cons.1 hfresh
    obtain ⟨hw, hwait⟩ := List.forall_mem_cons.1 hwait
    have hentry : entry timeout now w e = { w with kept := w.kept ++ [e] } := by
      simp [entry, he, Nat.min_eq_left hw]
    rw [List.foldl_cons, hentry, ih { w with kept := w.kept ++ [e] } hfresh hwait]
    simp

/-- Of an ordered list, the stale entries are a front part. -/
theorem fresh_of_fresh {e : Idle S} {l : List (Idle S)} (h : Ordered (e :: l)) (he : stale timeout now e = false) :
    ∀ d ∈ l, stale timeout now d = false := by
  intro d hd
  have hle := (List.pairwise_cons.1 h).1 d hd
  simp only [stale, decide_eq_false_iff_not] at he ⊢
  omega

/-- How many of an ordered list a pass with so many to spare takes. -/
def due (timeout now spare : Nat) (l : List (Idle S)) : Nat := min spare (l.countP (stale timeout now))

theorem due_cons_of_stale {e : Idle S} (he : stale timeout now e = true) (spare : Nat) (l : List (Idle S)) :
    due timeout now (spare + 1) (e :: l) = due timeout now spare l + 1 := by
  rw [due, due, List.countP_cons_of_pos he]
  omega

/-- The time to the next thing to do, of a pass with so many to spare. -/
def alarm (timeout now spare : Nat) (l : List (Idle S)) : Nat :=
  if spare ≤ due timeout now spare l then timeout
  else
    match (l.drop (due timeout now spare l)).head? with
    | some e => timeout - (now - e.since)
    | none => timeout

/-- **The loop of `State::reap` on an ordered list.** -/
theorem foldl_ordered {l : List (Idle S)} (h : Ordered l) (spare : Nat) (kept : List (Idle S)) (expired : List S) :
    l.foldl (entry timeout now) ⟨spare, kept, expired, timeout⟩ =
      ⟨spare - due timeout now spare l, kept ++ l.drop (due timeout now spare l),
        expired ++ (l.take (due timeout now spare l)).map Idle.session, alarm timeout now spare l⟩ := by
  induction l generalizing spare expired with
  | nil => simp [due, alarm]
  | cons e l ih =>
    cases spare with
    | zero =>
      rw [foldl_spent _ _ rfl]
      simp [due, alarm]
    | succ spare =>
      by_cases he : stale timeout now e = true
      · have hentry : entry timeout now ⟨spare + 1, kept, expired, timeout⟩ e =
            ⟨spare, kept, expired ++ [e.session], timeout⟩ := by
          simp [entry, he]
        have hdue := due_cons_of_stale he spare l
        have halarm : alarm timeout now (spare + 1) (e :: l) = alarm timeout now spare l := by
          rw [alarm, alarm, hdue]
          simp
        rw [List.foldl_cons, hentry, ih (List.pairwise_cons.1 h).2, hdue, halarm]
        simp
      · have he : stale timeout now e = false := by simpa using he
        have hfresh := fresh_of_fresh h he
        have hdue : due timeout now (spare + 1) (e :: l) = 0 := by
          rw [due, List.countP_eq_zero.2]
          · rfl
          · intro d hd
            rcases List.mem_cons.1 hd with rfl | hd
            · simp [he]
            · simp [hfresh d hd]
        have hentry : entry timeout now ⟨spare + 1, kept, expired, timeout⟩ e =
            ⟨spare + 1, kept ++ [e], expired, timeout - (now - e.since)⟩ := by
          simp [entry, he]
        rw [List.foldl_cons, hentry, foldl_fresh l _ hfresh]
        · simp [hdue, alarm]
        · intro d hd
          have hle := (List.pairwise_cons.1 h).1 d hd
          dsimp only
          omega

/-- What is left when there was more to spare is not due. -/
theorem fresh_of_mem_drop {spare : Nat} {l : List (Idle S)} (h : Ordered l) (hspare : due timeout now spare l < spare) :
    ∀ d ∈ l.drop (due timeout now spare l), stale timeout now d = false := by
  induction l generalizing spare with
  | nil => simp
  | cons e l ih =>
    by_cases he : stale timeout now e = true
    · obtain ⟨spare, rfl⟩ : ∃ n, spare = n + 1 := ⟨spare - 1, by omega⟩
      rw [due_cons_of_stale he] at hspare ⊢
      exact ih (List.pairwise_cons.1 h).2 (by omega)
    · have he : stale timeout now e = false := by simpa using he
      intro d hd
      rcases List.mem_cons.1 (List.mem_of_mem_drop hd) with rfl | hd
      · exact he
      · exact fresh_of_fresh h he d hd

end Sweep

section

variable {s : State S} (min timeout now : Nat)

/-- **What a reap does to an ordered pool**: it takes the entries due from the front, leaves the
others as they are, and asks to be woken at the next alarm. -/
theorem State.reap_eq (h : Ordered s.idle) :
    s.reap min timeout now =
      (((s.idle.take (Sweep.due timeout now (s.openCount - min) s.idle)).map Idle.session,
        Sweep.alarm timeout now (s.openCount - min) s.idle),
      { s with idle := s.idle.drop (Sweep.due timeout now (s.openCount - min) s.idle) }) := by
  simp only [reap]
  split
  · rename_i hnone
    have hdue : Sweep.due timeout now (s.openCount - min) s.idle = 0 := by
      rcases hnone with h | h <;> simp [Sweep.due, h]
    rw [Sweep.alarm, hdue]
    rcases hnone with hspare | hidle
    · simp [hspare]
    · obtain ⟨idle, openCount, closing⟩ := s
      dsimp only at hidle
      simp [hidle]
  · rw [Sweep.foldl_ordered h]
    simp

theorem Sweep.alarm_le (spare : Nat) (l : List (Idle S)) : alarm timeout now spare l ≤ timeout := by
  unfold alarm
  split
  · exact Nat.le_refl _
  · split
    · exact Nat.sub_le _ _
    · exact Nat.le_refl _

theorem Sweep.alarm_pos {l : List (Idle S)} (h : Ordered l) (htimeout : 0 < timeout) (spare : Nat) :
    0 < alarm timeout now spare l := by
  unfold alarm
  split
  · exact htimeout
  · rename_i hspare
    split
    · rename_i e he
      have hfresh := fresh_of_mem_drop h (by omega) e (List.mem_of_head? he)
      simp only [stale, decide_eq_false_iff_not] at hfresh
      omega
    · exact htimeout

end

theorem Ordered.sublist {l l' : List (Idle S)} (h : Ordered l) (hsub : l'.Sublist l) : Ordered l' :=
  List.Pairwise.sublist hsub h

/-- Of an ordered list the head was given back first. -/
theorem Ordered.head_le {l : List (Idle S)} {e d : Idle S} (h : Ordered l) (he : l.head? = some e) (hd : d ∈ l) :
    e.since ≤ d.since := by
  obtain ⟨l', rfl⟩ := List.head?_eq_some_iff.1 he
  rcases List.mem_cons.1 hd with rfl | hd
  · exact Nat.le_refl _
  · exact (List.pairwise_cons.1 h).1 d hd

/-- Of an ordered list nothing was given back after the last. -/
theorem Ordered.le_last {l : List (Idle S)} {d : Idle S} {now : Nat} (h : Ordered l)
    (hlast : ∀ e, l.getLast? = some e → e.since ≤ now) (hd : d ∈ l) : d.since ≤ now := by
  rcases List.eq_nil_or_concat l with rfl | ⟨front, e, rfl⟩
  · cases hd
  · rw [List.concat_eq_append] at h hd
    have he := hlast e (by simp)
    rcases List.mem_append.1 hd with hd | hd
    · exact Nat.le_trans ((List.pairwise_append.1 h).2.2 d hd e (by simp)) he
    · obtain rfl : d = e := by simpa using hd
      exact he

/-! ## Reachable states -/

theorem History.stamped_of_reach {h : History S} (hr : (history S).Reach h) : h.Stamped := by
  apply hr.induct (fun h hi => hi)
  rintro h a h' - ⟨hordered, hpast⟩ hstep
  have shorter {state : State S} (hsub : state.idle.Sublist h.state.idle) : Stamped { h with state := state } :=
    ⟨hordered.sublist hsub, fun e he => hpast e (hsub.subset he)⟩
  cases hstep with
  | tick nanos =>
    exact ⟨hordered, fun e he => Nat.le_add_right_of_le (hpast e he)⟩
  | giveBack session =>
    -- The new entry goes behind all others, and none is from the future.
    refine ⟨List.pairwise_append.2 ⟨hordered, List.pairwise_singleton _ _, ?_⟩, ?_⟩
    · intro e he d hd
      obtain rfl : d = ⟨session, h.now⟩ := by simpa using hd
      exact hpast e he
    · intro e he
      rcases List.mem_append.1 he with he | he
      · exact hpast e he
      · obtain rfl : e = ⟨session, h.now⟩ := by simpa using he
        exact Nat.le_refl _
  | take =>
    refine shorter ?_
    unfold State.take
    split
    · exact List.dropLast_sublist _
    · exact List.Sublist.refl _
  | reap min timeout =>
    refine shorter ?_
    rw [State.reap_eq _ _ _ hordered]
    exact List.drop_sublist _ _
  | recount openCount closing => exact ⟨hordered, hpast⟩

theorem History.Reach.recount {h : History S} (hr : (history S).Reach h) (state : State S)
    (hidle : state.idle = h.state.idle) : (history S).Reach { h with state := state } := by
  obtain ⟨idle, openCount, closing⟩ := state
  dsimp only at hidle
  subst hidle
  exact hr.next (History.Step.recount openCount closing)

theorem History.Reach.pass {s : Sys} (hr : (history Nat).Reach ⟨s.state, s.now⟩) (min timeout : Nat) :
    (history Nat).Reach ⟨(s.pass min timeout).state, (s.pass min timeout).now⟩ := by
  have hreaped := hr.next (History.Step.reap min timeout)
  unfold Sys.pass
  split
  · exact hr
  · dsimp only
    split
    · exact hreaped
    · exact hreaped

/-- The runs of the pool, as far as the idle list goes, are such histories. -/
theorem history_of_pool {limits : Concurrency} {s : Sys} (hr : (pool limits).Reach s) :
    (history Nat).Reach ⟨s.state, s.now⟩ := by
  refine System.Reach.induct (I := fun s : Sys => (history Nat).Reach ⟨s.state, s.now⟩) ?_ ?_ hr
  · intro s hi
    exact .init ⟨hi.ordered, hi.since⟩
  · rintro s a s' - ih hstep
    cases hstep with
    | tick nanos => exact ih.next (.tick nanos)
    | checkout hk pc =>
      refine History.Reach.recount (ih.next .take) (s.state.checkout limits.max).2 ?_
      unfold State.checkout
      split
      · rename_i htake
        rw [htake]
      · rename_i htake
        rw [htake]
        split <;> rfl
    | growErr hk pc => exact History.Reach.recount ih _ rfl
    | giveBack hk pc => exact ih.next (.giveBack _)
    | look elastic reaper => exact History.Reach.pass ih _ _
    | count elastic reaper =>
      apply History.Reach.pass
      exact History.Reach.recount ih _ rfl
    | stopReaping free => exact History.Reach.recount ih _ rfl
    | call | growOk | notifyOne | notifyNobody | wake | start | attach | refuse | detach | disarm | cancel | interrupt
    | cancelDone | destroy => exact ih

/-! ## After the sessions are closed -/

section

variable {s : State S} {min timeout now : Nat}

/-- The pool once the sessions a reap answered are closed. -/
def State.reaped (min timeout now : Nat) (s : State S) : State S :=
  (s.reap min timeout now).2.closed (s.reap min timeout now).1.1.length

theorem State.reaped_idle (h : Ordered s.idle) (min timeout now : Nat) :
    (s.reaped min timeout now).idle = s.idle.drop (Sweep.due timeout now (s.openCount - min) s.idle) := by
  rw [reaped, reap_eq _ _ _ h]
  rfl

theorem State.reaped_openCount (h : Ordered s.idle) (min timeout now : Nat) :
    (s.reaped min timeout now).openCount = s.openCount - Sweep.due timeout now (s.openCount - min) s.idle := by
  have hlength : Sweep.due timeout now (s.openCount - min) s.idle ≤ s.idle.length :=
    Nat.le_trans (Nat.min_le_right _ _) List.countP_le_length
  rw [reaped, reap_eq _ _ _ h]
  simp [closed, Nat.min_eq_left hlength]

/-- Before the alarm there is nothing to do. -/
theorem State.reap_before_alarm (h : Ordered s.idle) (hpast : ∀ e ∈ s.idle, e.since ≤ now) {t : Nat}
    (ht : t < now + Sweep.alarm timeout now (s.openCount - min) s.idle) :
    ((s.reaped min timeout now).reap min timeout t).1.1 = [] := by
  have hidle := State.reaped_idle h min timeout now
  have hopen := State.reaped_openCount h min timeout now
  generalize hk : Sweep.due timeout now (s.openCount - min) s.idle = k at hidle hopen
  have hordered : Ordered (s.idle.drop k) := h.sublist (List.drop_sublist k _)
  have hdue : Sweep.due timeout t (s.openCount - k - min) (s.idle.drop k) = 0 := by
    unfold Sweep.alarm at ht
    rw [hk] at ht
    split at ht
    · rename_i hspent
      rw [Sweep.due, show s.openCount - k - min = 0 by omega, Nat.zero_min]
    · rename_i hspare
      rw [Sweep.due, List.countP_eq_zero.2, Nat.min_zero]
      intro d hd
      split at ht
      · rename_i e hhead
        have hle := hordered.head_le hhead hd
        have hnow := hpast e (List.mem_of_mem_drop (List.mem_of_head? hhead))
        have hfresh : Sweep.stale timeout now e = false := by
          have hleft : Sweep.due timeout now (s.openCount - min) s.idle < s.openCount - min := by omega
          apply Sweep.fresh_of_mem_drop h hleft
          rw [hk]
          exact List.mem_of_head? hhead
        simp only [Sweep.stale, decide_eq_true_eq, decide_eq_false_iff_not] at hfresh ⊢
        omega
      · rename_i hhead
        rw [List.head?_eq_none_iff.1 hhead] at hd
        cases hd
  rw [reap_eq _ _ _ (hidle ▸ hordered), hopen, hidle, hdue]
  rfl

/-- At the alarm there is, if there still is a session to spare. -/
theorem State.reap_at_alarm (h : Ordered s.idle) (hpast : ∀ e ∈ s.idle, e.since ≤ now)
    (hspare : min < (s.reaped min timeout now).openCount) (hne : (s.reaped min timeout now).idle ≠ []) :
    ((s.reaped min timeout now).reap min timeout
      (now + Sweep.alarm timeout now (s.openCount - min) s.idle)).1.1 ≠ [] := by
  have hidle := State.reaped_idle h min timeout now
  have hopen := State.reaped_openCount h min timeout now
  rw [hopen] at hspare
  rw [hidle] at hne
  have halarm : Sweep.alarm timeout now (s.openCount - min) s.idle = _ := if_neg (by omega)
  generalize Sweep.due timeout now (s.openCount - min) s.idle = k at hidle hopen hspare hne halarm
  have hordered : Ordered (s.idle.drop k) := h.sublist (List.drop_sublist k _)
  obtain ⟨e, rest, hcons⟩ := List.exists_cons_of_ne_nil hne
  have hnow : e.since ≤ now := by
    apply hpast e
    apply List.mem_of_mem_drop (i := k)
    rw [hcons]
    exact List.mem_cons_self
  rw [hcons, List.head?_cons] at halarm
  dsimp only at halarm
  have hstale : Sweep.stale timeout (now + (timeout - (now - e.since))) e = true := by
    simp only [Sweep.stale, decide_eq_true_eq]
    omega
  obtain ⟨spare, hspare⟩ : ∃ n, s.openCount - k - min = n + 1 := ⟨s.openCount - k - min - 1, by omega⟩
  rw [reap_eq _ _ _ (hidle ▸ hordered), halarm, hopen, hidle, hcons, hspare, Sweep.due_cons_of_stale hstale]
  simp

end

/-- **The reaper closes exactly the stalest spare sessions, and wakes exactly when it must.** -/
theorem reaper_takes_the_stalest_and_wakes_in_time {S : Type} {h : History S} (hr : (history S).Reach h) :
    Ordered h.state.idle ∧
    ∀ min timeout now, 0 < timeout → (∀ e, h.state.idle.getLast? = some e → e.since ≤ now) →
      ∀ expired wait state, h.state.reap min timeout now = ((expired, wait), state) →
        (∃ n, n = Nat.min (h.state.openCount - min) (h.state.idle.countP (Sweep.stale timeout now)) ∧
          expired = (h.state.idle.take n).map Idle.session ∧ state.idle = h.state.idle.drop n) ∧
        state.openCount = h.state.openCount ∧ 0 < wait ∧ wait ≤ timeout ∧
        (∀ t < now + wait, ((state.closed expired.length).reap min timeout t).1.1 = []) ∧
        (min < (state.closed expired.length).openCount → state.idle ≠ [] →
          ((state.closed expired.length).reap min timeout (now + wait)).1.1 ≠ []) := by
  have hordered := (History.stamped_of_reach hr).ordered
  refine ⟨hordered, ?_⟩
  intro min timeout now htimeout hlast expired wait state hreap
  have hpast : ∀ e ∈ h.state.idle, e.since ≤ now := fun e he => hordered.le_last hlast he
  have heq := State.reap_eq min timeout now hordered
  have hreaped : h.state.reaped min timeout now = state.closed expired.length := by
    rw [State.reaped, hreap]
  rw [hreap] at heq
  obtain ⟨⟨hexpired, hwait⟩, hstate⟩ := Prod.mk.inj heq |>.imp_left Prod.mk.inj
  have hidle : state.idle = (state.closed expired.length).idle := rfl
  rw [hidle, ← hreaped, hwait]
  refine ⟨⟨_, rfl, hexpired, ?_⟩, ?_, ?_, ?_, ?_, ?_⟩
  · exact State.reaped_idle hordered min timeout now
  · rw [hstate]
  · exact Sweep.alarm_pos timeout now hordered htimeout _
  · exact Sweep.alarm_le timeout now _ _
  · intro t ht
    exact State.reap_before_alarm hordered hpast ht
  · intro hspare hne
    exact State.reap_at_alarm hordered hpast hspare hne

/-- A pool of four sessions, one of them checked out. -/
def threeIdle : History Nat where
  state := { idle := [⟨0, 0⟩, ⟨1, 5⟩, ⟨2, 20⟩], openCount := 4, closing := false }
  now := 20

theorem reaper_takes_the_stalest_and_wakes_in_time_of_three :
    threeIdle.state.reap 1 15 30 = (([0, 1], 5), { threeIdle.state with idle := [⟨2, 20⟩] }) ∧
    (∀ t < 35, ((State.closed 2 { threeIdle.state with idle := [⟨2, 20⟩] }).reap 1 15 t).1.1 = []) ∧
    ((State.closed 2 { threeIdle.state with idle := [⟨2, 20⟩] }).reap 1 15 35).1.1 ≠ [] := by
  have hr : (history Nat).Reach threeIdle := .init ⟨by simp [Ordered, threeIdle], by decide⟩
  have hreap : threeIdle.state.reap 1 15 30 = (([0, 1], 5), { threeIdle.state with idle := [⟨2, 20⟩] }) := by decide
  obtain ⟨-, hexact⟩ := reaper_takes_the_stalest_and_wakes_in_time hr
  obtain ⟨-, -, -, -, hbefore, hat⟩ := hexact 1 15 30 (by decide) (by decide) _ _ _ hreap
  exact ⟨hreap, hbefore, hat (by decide) (by decide)⟩

end EmbeddedMongo.Pool
