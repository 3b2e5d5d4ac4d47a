import EmbeddedMongo.Conc.Monitor
import EmbeddedMongo.Pool.Ledger

/-!
# The wakeups of the session pool

The `returned` condvar as a monitor whose supply is the idle sessions and the room under the
ceiling. A session given back and a reservation given up owe a `notify_one` each, sent with the
lock released; the reaper's `notify_all` goes out under the lock that counts its sessions
closed, so it is never owed.
-/

namespace EmbeddedMongo.Pool

open Conc

variable {limits : Concurrency}

namespace Call

def isParked (k : Call) : Nat := if k.pc = .parked then 1 else 0

def isWoken (k : Call) : Nat := if k.pc = .woken then 1 else 0

/-- Owes a `notify_one`. -/
def owesOne (k : Call) : Nat := if k.pc = .refused ∨ k.pc = .notifying then 1 else 0

end Call

namespace Sys

/-- Callers parked in `checkout`. -/
def parked (s : Sys) : Nat := tally Call.isParked s.calls

/-- Callers back from the condvar and not yet back at the loop head. -/
def woken (s : Sys) : Nat := tally Call.isWoken s.calls

/-- The sessions a caller at the loop head could have: the idle ones and the room for more. -/
def supply (limits : Concurrency) (s : Sys) : Nat := s.state.idle.length + (limits.max - s.state.openCount)

/-- The pool as its monitor sees it. -/
def monitor (limits : Concurrency) (s : Sys) : Monitor where
  supply := s.supply limits
  parked := s.parked
  woken := s.woken
  ones := tally Call.owesOne s.calls
  alls := 0

end Sys

/-- A call that moves without having to do with the condvar, before or after. -/
theorem monitor_move {s s' : Sys} {c : Nat} {k k' : Call} (hk : s.calls[c]? = some k)
    (calls : s'.calls = s.calls.set c k') (supply : s'.supply limits ≤ s.supply limits)
    (parked : k'.isParked = k.isParked) (woken : k'.isWoken = k.isWoken) (ones : k'.owesOne = k.owesOne) :
    Monitor.Step (s.monitor limits) (s'.monitor limits) := by
  have same : ∀ f : Call → Nat, f k' = f k → tally f s'.calls = tally f s.calls := by
    intro f hf
    have := tally_set f hk k'
    rw [calls]
    omega
  exact .take supply (same _ parked) (same _ woken) (same _ ones) rfl

/-- A call that gives something back, and is to notify. -/
theorem monitor_signal {s s' : Sys} {c : Nat} {k k' : Call} (hk : s.calls[c]? = some k)
    (calls : s'.calls = s.calls.set c k') (supply : s'.supply limits = s.supply limits + 1)
    (before : k.isParked = 0 ∧ k.isWoken = 0 ∧ k.owesOne = 0)
    (after : k'.isParked = 0 ∧ k'.isWoken = 0 ∧ k'.owesOne = 1) :
    Monitor.Step (s.monitor limits) (s'.monitor limits) := by
  have hparked := tally_set Call.isParked hk k'
  have hwoken := tally_set Call.isWoken hk k'
  have hones := tally_set Call.owesOne hk k'
  rw [← calls] at hparked hwoken hones
  refine .signal supply ?_ ?_ ?_ rfl <;> simp only [Sys.monitor, Sys.parked, Sys.woken] <;> omega

/-- A pass of `checkout`'s loop. -/
theorem monitor_checkout {s : Sys} {c : Nat} {k : Call} {r : Checkout × State Nat} (hl : Ledger limits s)
    (hk : s.calls[c]? = some k) (pc : k.pc = .entering ∨ k.pc = .woken) (hr : CheckoutOf limits.max s.state r) :
    Monitor.Step (s.monitor limits)
      (Sys.monitor limits { s with state := r.2, calls := s.calls.set c { k with pc := r.1.pc } }) := by
  -- whoever takes a unit came from outside, or was woken for it
  have taken : ∀ {s' : Sys} {k' : Call}, s'.calls = s.calls.set c k' →
      s.supply limits = s'.supply limits + 1 → k'.isParked = 0 → k'.isWoken = 0 → k'.owesOne = 0 →
      Monitor.Step (s.monitor limits) (s'.monitor limits) := by
    intro s' k' calls supply parked woken ones
    rcases pc with pc | pc
    · apply monitor_move hk calls (by omega)
      · rw [parked, Call.isParked, pc]; rfl
      · rw [woken, Call.isWoken, pc]; rfl
      · rw [ones, Call.owesOne, pc]; rfl
    · have hparked := tally_set Call.isParked hk k'
      have hwoken := tally_set Call.isWoken hk k'
      have hones := tally_set Call.owesOne hk k'
      simp only [← calls, parked, woken, ones] at hparked hwoken hones
      simp [Call.isParked, Call.isWoken, Call.owesOne, pc] at hparked hwoken hones
      exact .takeWoken supply hparked hwoken.symm hones rfl
  have hceiling := hl.ceiling
  cases hr with
  | took idle =>
    refine taken rfl ?_ rfl rfl rfl
    simp only [Sys.supply, idle, List.length_append, List.length_cons, List.length_nil]
    omega
  | reserved idle room =>
    refine taken rfl ?_ rfl rfl rfl
    simp only [Sys.supply]
    omega
  | wait idle full =>
    refine .empty ?_
    simp only [Sys.monitor, Sys.supply, idle, List.length_nil]
    omega

/-- A pass of the reaper takes from the supply what it destroys. -/
theorem Passed.monitor {min timeout : Nat} {s s' : Sys} (hp : Passed min timeout s s') :
    Monitor.Step (s.monitor limits) (s'.monitor limits) := by
  obtain ⟨calls, -, openCount, -, hlength, -⟩ := hp.moves
  refine .take ?_ ?_ ?_ ?_ rfl
  · simp only [Sys.monitor, Sys.supply, openCount]
    omega
  all_goals simp only [Sys.monitor, Sys.parked, Sys.woken, calls]

/-- **Each step of the pool is a step of its monitor.** -/
theorem Step.monitor {s s' : Sys} {a : Act} (hl : Ledger limits s) (hs : Step limits s a s') :
    Monitor.Step (s.monitor limits) (s'.monitor limits) := by
  have same : ∀ n : Nat, n ≤ n := Nat.le_refl
  cases hs with
  | tick | stopReaping | destroy => exact .take (same _) rfl rfl rfl rfl
  | call =>
    refine .take (same _) ?_ ?_ ?_ rfl <;>
      simp [Sys.monitor, Sys.parked, Sys.woken, Call.new, Call.isParked, Call.isWoken, Call.owesOne]
  | checkout hk pc => exact monitor_checkout hl hk pc (State.checkout_cases _ _)
  | growErr hk pc =>
    refine monitor_signal hk rfl ?_ (by simp [Call.isParked, Call.isWoken, Call.owesOne, pc]) ⟨rfl, rfl, rfl⟩
    have hres := Sys.reserved_pos hk pc
    have hcounted := hl.counted
    have hceiling := hl.ceiling
    simp only [Sys.supply]
    omega
  | giveBack hk pc =>
    refine monitor_signal hk rfl ?_ (by simp [Call.isParked, Call.isWoken, Call.owesOne, pc]) ⟨rfl, rfl, rfl⟩
    simp only [Sys.supply, State.giveBack, List.length_append, List.length_cons, List.length_nil]
    omega
  | @notifyOne c p k kp hk pc hp parked =>
    have hk' := notifier_set hk pc hp parked { kp with pc := .woken }
    have moved : ∀ f : Call → Nat,
        tally f ((s.calls.set p { kp with pc := .woken }).set c { k with pc := .returned }) + f k + f kp =
          tally f s.calls + f { kp with pc := .woken } + f { k with pc := .returned } := by
      intro f
      have hc := tally_set f hk' { k with pc := .returned }
      have hp := tally_set f hp { kp with pc := .woken }
      omega
    have hparked := moved Call.isParked
    have hwoken := moved Call.isWoken
    have hones := moved Call.owesOne
    refine .wakeOne rfl ?_ ?_ ?_ rfl <;> simp only [Sys.monitor, Sys.parked, Sys.woken] <;>
      rcases pc with pc | pc <;>
      simp [Call.isParked, Call.isWoken, Call.owesOne, pc, parked] at hparked hwoken hones <;> omega
  | @notifyNobody c k hk pc nobody =>
    have hparked := tally_set Call.isParked hk { k with pc := .returned }
    have hwoken := tally_set Call.isWoken hk { k with pc := .returned }
    have hones := tally_set Call.owesOne hk { k with pc := .returned }
    have hnone : tally Call.isParked s.calls = 0 := tally_eq_zero.2 fun k hk => if_neg (nobody k hk)
    refine .wakeNone rfl ?_ ?_ ?_ rfl <;> simp only [Sys.monitor, Sys.parked, Sys.woken] <;>
      rcases pc with pc | pc <;>
      simp [Call.isParked, Call.isWoken, Call.owesOne, pc] at hparked hwoken hones <;> omega
  | @wake c k hk pc =>
    have hparked := tally_set Call.isParked hk { k with pc := .woken }
    have hwoken := tally_set Call.isWoken hk { k with pc := .woken }
    have hones := tally_set Call.owesOne hk { k with pc := .woken }
    simp [Call.isParked, Call.isWoken, Call.owesOne, pc] at hparked hwoken hones
    exact .spurious rfl hparked.symm hwoken hones rfl
  | @start c x k hk pc =>
    obtain ⟨stage, hstage⟩ := k.start_pc x
    refine monitor_move hk rfl (same _) ?_ ?_ ?_ <;>
      simp [Call.isParked, Call.isWoken, Call.owesOne, pc, hstage]
  | growOk hk pc | attach hk pc | refuse hk pc | detach hk pc | disarm hk pc =>
    refine monitor_move hk rfl (same _) ?_ ?_ ?_ <;> simp [Call.isParked, Call.isWoken, Call.owesOne, pc]
  | @cancel c k hk =>
    refine monitor_move hk rfl (same _) ?_ ?_ ?_ <;>
      simp only [Call.isParked, Call.isWoken, Call.owesOne, k.cancel_pc]
  | cancelDone hk => exact monitor_move hk rfl (same _) rfl rfl rfl
  | interrupt =>
    refine .take (same _) ?_ ?_ ?_ rfl <;> refine tally_interrupt (fun k k' hk => ?_) s _ _ <;>
      simp only [Call.isParked, Call.isWoken, Call.owesOne, hk]
  | look => exact (Sys.pass_cases _ _ _).monitor
  | count =>
    refine .wakeAll ?_
    simp only [Sys.monitor, Sys.parked, (Sys.pass_cases _ _ _).moves.1]
    refine tally_eq_zero.2 fun k hk => if_neg ?_
    obtain ⟨k, -, rfl⟩ := List.mem_map.1 hk
    split
    · intro hparked
      cases hparked
    · assumption

theorem awake_of_reach {s : Sys} (h : (pool limits).Reach s) : (s.monitor limits).Awake := by
  refine Monitor.reach_awake (Sys.monitor limits) (fun s hi => .inl ?_) (fun s a s' hr hs => ?_) h
  · simp [Sys.monitor, Sys.parked, hi.calls]
  · exact Step.monitor (ledger_of_reach hr) hs

/-- **No caller sleeps while a session could be had.** With every notification delivered, a
caller parked in `checkout` means that the callers on their way back to the loop head cover
the idle sessions and the room under the ceiling; so if there is any, one of them is awake. -/
theorem no_caller_sleeps_while_a_session_could_be_had {s : Sys} (h : (pool limits).Reach s)
    (delivered : ∀ k ∈ s.calls, k.pc ≠ .refused ∧ k.pc ≠ .notifying) (parked : ∃ k ∈ s.calls, k.pc = .parked) :
    s.state.idle.length + (limits.max - s.state.openCount) ≤ s.woken ∧
      (s.state.idle ≠ [] ∨ s.state.openCount < limits.max → ∃ k ∈ s.calls, k.pc = .woken) := by
  have hcovered : s.supply limits ≤ s.woken := by
    refine (awake_of_reach h).covered ?_ rfl ?_
    · exact tally_eq_zero.2 fun k hk => if_neg (not_or.2 (delivered k hk))
    · obtain ⟨k, hk, hpc⟩ := parked
      obtain ⟨c, hc⟩ := List.getElem?_of_mem hk
      have := le_tally Call.isParked hc
      rwa [Call.isParked, if_pos hpc] at this
  refine ⟨hcovered, fun hsupply => ?_⟩
  have hpos : 0 < s.woken := by
    rcases hsupply with hidle | hroom
    · have := List.length_pos_iff.2 hidle
      simp only [Sys.supply] at hcovered
      omega
    · simp only [Sys.supply] at hcovered
      omega
  obtain ⟨c, k, hk, hwoken⟩ := exists_of_tally_pos hpos
  refine ⟨k, List.mem_of_getElem? hk, ?_⟩
  by_cases hpc : k.pc = .woken
  · exact hpc
  · rw [Call.isWoken, if_neg hpc] at hwoken
    omega

/-- A ceiling of two with four callers: two sessions out, two callers parked; one session comes
back and one of the parked callers is woken for it. -/
theorem no_caller_sleeps_while_a_session_could_be_had_by_two :
    ∃ s : Sys, (pool .oneToTwo).Reach s ∧ s.parked = 1 ∧ s.state.idle.length = 1 ∧
      s.state.idle.length + (Concurrency.oneToTwo.max - s.state.openCount) ≤ s.woken := by
  have h : (pool .oneToTwo).Reach .fresh := .init opened_fresh
  have h := h.next (.call rfl)
  have h := h.next (.call rfl)
  have h := h.next (.call rfl)
  have h := h.next (.call rfl)
  have h := h.next (.checkout (c := 0) rfl (.inl rfl))
  have h := h.next (.checkout (c := 1) rfl (.inl rfl))
  have h := h.next (.growOk (c := 1) rfl rfl)
  have h := h.next (.checkout (c := 2) rfl (.inl rfl))
  have h := h.next (.checkout (c := 3) rfl (.inl rfl))
  have h := h.next (.start (c := 0) rfl rfl rfl)
  have h := h.next (.refuse (c := 0) rfl rfl)
  have h := h.next (.disarm (c := 0) rfl rfl rfl)
  have h := h.next (.giveBack (c := 0) rfl rfl)
  have h := h.next (.notifyOne (c := 0) (p := 3) rfl (.inr rfl) rfl rfl)
  exact ⟨_, h, rfl, rfl, (no_caller_sleeps_while_a_session_could_be_had h (by decide) ⟨_, .tail _ (.tail _ (.head _)), rfl⟩).1⟩

end EmbeddedMongo.Pool
