import EmbeddedMongo.Nonblocking.Jobs

/-!
# The close rendezvous is balanced

The calls of `Shutdown::retire` against the count the rendezvous was built with. A party of
the close (a worker, or a task whose thread could not be started) has a `Stop` waiting for it,
or is at one stage of its call of `retire`; the counter is the number of parties that have not
counted out, and the vault holds the handles of those that have deposited.
-/

namespace EmbeddedMongo.Nonblocking

open Conc

variable {ρ : Type} {limits : Concurrency} {close : Answer}

/-- The weight of the call of `retire` a worker is inside, if it is. -/
def Worker.call (f : Retire → Nat) : Worker ρ → Nat
  | .retiring _ stage => f stage
  | .spawned | .ready | .parked _ _ | .woken _ | .running _ | .retired => 0

def Start.call (f : Retire → Nat) : Start → Nat
  | .retiring _ stage => f stage
  | .spawn _ | .started | .refused | .leaving | .returned => 0

def Task.call (f : Retire → Nat) : Task → Nat
  | .starting _ start => start.call f
  | .queued _ | .closing | .abandoning | .returned => 0

/-- The call is of another rendezvous than the first there was. -/
def Worker.astray : Worker ρ → Nat
  | .retiring shutdown _ => shutdown
  | .spawned | .ready | .parked _ _ | .woken _ | .running _ | .retired => 0

def Start.astray : Start → Nat
  | .retiring shutdown _ => shutdown
  | .spawn _ | .started | .refused | .leaving | .returned => 0

def Task.astray : Task → Nat
  | .starting _ start => start.astray
  | .queued _ | .closing | .abandoning | .returned => 0

def Worker.inRetire : Worker ρ → Bool
  | .retiring _ _ => true
  | .spawned | .ready | .parked _ _ | .woken _ | .running _ | .retired => false

def Task.inRetire : Task → Bool
  | .starting _ (.retiring _ _) => true
  | _ => false

namespace Sys

/-- The calls of `retire`, weighed by their stage. -/
def calls (f : Retire → Nat) (s : Sys ρ) : Nat :=
  tally (Worker.call f) s.workers + tally (Task.call f) s.tasks

/-- The calls of `retire` there have been. -/
def retires (s : Sys ρ) : Nat := s.calls fun _ => 1

def astray (s : Sys ρ) : Nat := tally Worker.astray s.workers + tally Task.astray s.tasks

/-- The party has called `retire`. -/
def inRetire (s : Sys ρ) : Party → Bool
  | .worker w => s.workers[w]?.any Worker.inRetire
  | .task t => s.tasks[t]?.any Task.inRetire

/-- Where the party's call of `retire` is. -/
def stage (s : Sys ρ) : Party → Option Retire
  | .worker w =>
    match s.workers[w]? with
    | some (.retiring _ stage) => some stage
    | _ => none
  | .task t =>
    match s.tasks[t]? with
    | some (.starting _ (.retiring _ stage)) => some stage
    | _ => none

theorem le_calls {s : Sys ρ} {p : Party} {stage : Retire} (h : s.stage p = some stage) (f : Retire → Nat) :
    f stage ≤ s.calls f := by
  cases p with
  | worker w =>
    simp only [Sys.stage] at h
    split at h
    · rename_i hw
      cases h
      exact Nat.le_trans (le_tally (Worker.call f) hw) (Nat.le_add_right _ _)
    · cases h
  | task t =>
    simp only [Sys.stage] at h
    split at h
    · rename_i ht
      cases h
      exact Nat.le_trans (le_tally (Task.call f) ht) (Nat.le_add_left _ _)
    · cases h

theorem calls_add (f g : Retire → Nat) (s : Sys ρ) :
    s.calls (fun stage => f stage + g stage) = s.calls f + s.calls g := by
  have hw : (Worker.call (fun stage => f stage + g stage) : Worker ρ → Nat) = fun w => w.call f + w.call g := by
    funext w
    cases w <;> rfl
  have ht : Task.call (fun stage => f stage + g stage) = fun t => t.call f + t.call g := by
    funext t
    cases t with
    | starting caller start => cases start <;> rfl
    | _ => rfl
  simp only [calls, hw, ht, tally_add]
  omega

theorem calls_le {f g : Retire → Nat} (h : ∀ stage, f stage ≤ g stage) (s : Sys ρ) : s.calls f ≤ s.calls g := by
  refine Nat.add_le_add (tally_le (fun w => ?_) _) (tally_le (fun t => ?_) _)
  · cases w with
    | retiring _ stage => exact h stage
    | _ => exact Nat.le_refl _
  · cases t with
    | starting _ start =>
      cases start with
      | retiring _ stage => exact h stage
      | _ => exact Nat.le_refl _
    | _ => exact Nat.le_refl _

/-- A call is at one stage. -/
theorem retires_eq (s : Sys ρ) :
    s.retires = s.calls Retire.depositing + s.calls Retire.counting + s.calls Retire.draining +
      s.calls Retire.drained + s.calls Retire.finished := by
  have h : (fun _ : Retire => 1) = fun stage => stage.depositing + stage.counting + stage.draining +
      stage.drained + stage.finished := by
    funext stage
    cases stage <;> rfl
  simp only [retires, h, calls_add]

end Sys

/-- The rendezvous `d` of a closing pool. -/
structure Balanced (s : Sys ρ) (d : Shutdown) : Prop where
  capacity : d.capacity = s.owed + s.retires
  remaining : d.remaining = s.owed + s.calls Retire.depositing + s.calls Retire.counting
  /-- Parties are still to count out, or one call goes on to close, or the answer is sent. -/
  last : min 1 d.remaining + s.calls Retire.draining + s.calls Retire.drained + s.answers.length = 1
  reply : d.reply = s.answers.isEmpty
  vault : s.calls Retire.drained + s.answers.length = 0 →
    d.handles.length = s.calls Retire.counting + s.calls Retire.draining + s.calls Retire.finished
  emptied : 0 < s.calls Retire.drained + s.answers.length → d.handles = []
  holding : s.calls Retire.emptyHanded = 0
  client : s.pool.client = none

/-- How far the close has come, and what has been sent of its answer. -/
structure Rendezvous (s : Sys ρ) : Prop where
  before : s.pool.phase ≠ .closing → s.retires = 0 ∧ s.answers = []
  during : s.pool.phase = .closing → ∃ d, s.shutdowns = [d] ∧ Balanced s d
  astray : s.astray = 0

/-- Each stage of a call of `retire` keeps the rendezvous balanced. -/
theorem Balanced.retire {s s' : Sys ρ} {stage : Retire} {d : Shutdown} (hb : Balanced s d) (more : stage ≠ .done)
    (client : s'.pool.client = s.pool.client)
    (answers : s'.answers = s.answers ++ (d.retire close s.handles stage).2.2.toList)
    (calls : ∀ f, s'.calls f + f stage = s.calls f + f (d.retire close s.handles stage).2.1)
    (owed : s'.owed = s.owed) : Balanced s' (d.retire close s.handles stage).1 := by
  have hcapacity := hb.capacity
  have hremaining := hb.remaining
  have hlast := hb.last
  have hreply := hb.reply
  have hvault := hb.vault
  have hemptied := hb.emptied
  have hholding := hb.holding
  have hdep := calls Retire.depositing
  have hcnt := calls Retire.counting
  have hdrn := calls Retire.draining
  have hdrd := calls Retire.drained
  have hfin := calls Retire.finished
  have hemp := calls Retire.emptyHanded
  have hclient : s'.pool.client = none := client.trans hb.client
  rw [Sys.retires_eq] at hcapacity
  cases stage with
  | deposit =>
    simp only [Shutdown.retire, Retire.depositing, Retire.counting, Retire.draining, Retire.drained,
      Retire.finished, Retire.emptyHanded, Option.toList_none, List.append_nil] at *
    refine ⟨by rw [Sys.retires_eq]; dsimp only; omega, by dsimp only; omega, by rw [answers]; dsimp only; omega,
      by rw [answers]; exact hreply, ?_, ?_, by omega, hclient⟩ <;> rw [answers]
    · simp only [List.length_append, List.length_cons, List.length_nil]
      omega
    · omega
  | countOut =>
    simp only [Shutdown.retire, Retire.depositing, Retire.counting, Retire.draining, Retire.drained,
      Retire.finished, Retire.emptyHanded, Option.toList_none, List.append_nil] at *
    -- `fetch_sub` answers what the counter was: only the call that finds a one goes on
    by_cases hone : d.remaining = 1 <;> simp only [hone, ne_eq, not_true_eq_false, not_false_eq_true,
        if_false, if_true] at hdep hcnt hdrn hdrd hfin hemp <;>
      refine ⟨by rw [Sys.retires_eq]; dsimp only; omega, by dsimp only; omega, by rw [answers]; dsimp only; omega,
        by rw [answers]; exact hreply, ?_, ?_, by omega, hclient⟩ <;> rw [answers] <;> dsimp only <;> omega
  | drain =>
    simp only [Shutdown.retire, Retire.depositing, Retire.counting, Retire.draining, Retire.drained,
      Retire.finished, Option.toList_none, List.append_nil] at *
    -- this call alone went on, so the vault has what every party deposited, its own handle first
    obtain ⟨a, ha⟩ : ∃ a, d.handles.getLast? = some a := by
      cases hg : d.handles.getLast? with
      | some a => exact ⟨a, rfl⟩
      | none =>
        rw [List.getLast?_eq_none_iff.1 hg, List.length_nil] at hvault
        omega
    simp only [ha, Retire.emptyHanded] at hemp
    refine ⟨by rw [Sys.retires_eq]; dsimp only; omega, by dsimp only; omega, by rw [answers]; dsimp only; omega,
      by rw [answers]; exact hreply, ?_, fun _ => rfl, by omega, hclient⟩
    omega
  | unwrap last =>
    simp only [Shutdown.retire, Retire.depositing, Retire.counting, Retire.draining, Retire.drained,
      Retire.finished, Option.toList_none, List.append_nil] at *
    have hemp' : s'.calls Retire.emptyHanded = 0 := by
      simp only [Retire.emptyHanded] at hemp
      omega
    refine ⟨by rw [Sys.retires_eq]; omega, by omega, by rw [answers]; omega,
      by rw [answers]; exact hreply, ?_, ?_, hemp', hclient⟩ <;> rw [answers]
    · omega
    · intro _
      exact hemptied (by omega)
  | answer result =>
    -- a call that is about to answer is the first to, so the reply is still there to be taken
    have hdone : (d.retire close s.handles (.answer result)).2.1 = .done := by
      simp only [Shutdown.retire]
      split <;> rfl
    have hnone : s.answers.length = 0 := by
      simp only [hdone, Retire.drained] at hdrd
      omega
    have htrue : d.reply = true := by rw [hreply, List.length_eq_zero_iff.1 hnone]; rfl
    simp only [Shutdown.retire, htrue, if_true, Retire.depositing, Retire.counting, Retire.draining,
      Retire.drained, Retire.finished, Retire.emptyHanded, Option.toList_some] at *
    have hlen : s'.answers.length = 1 := by rw [answers, List.length_append, hnone]; rfl
    refine ⟨by rw [Sys.retires_eq]; dsimp only; omega, by dsimp only; omega, by rw [hlen]; dsimp only; omega,
      by simp [answers], ?_, ?_, by omega, hclient⟩
    · omega
    · intro _
      exact hemptied (by omega)
  | done => exact absurd rfl more

namespace Rendezvous

variable {s s' : Sys ρ}

theorem initial : Rendezvous (Sys.initial : Sys ρ) where
  before _ := ⟨rfl, rfl⟩
  during h := by simp [Sys.initial, State.new] at h
  astray := rfl

/-- A step that no call of `retire` takes and that moves nobody to or from the queue. -/
theorem frame (h : Rendezvous s) (phase : s'.pool.phase = s.pool.phase)
    (shutdowns : s'.shutdowns = s.shutdowns) (answers : s'.answers = s.answers)
    (calls : ∀ f, s'.calls f = s.calls f) (owed : s.pool.phase = .closing → s'.owed = s.owed)
    (client : s.pool.phase = .closing → s'.pool.client = s.pool.client) (astray : s'.astray = s.astray) :
    Rendezvous s' where
  before hp := by
    simp only [Sys.retires, calls, answers]
    exact h.before (phase ▸ hp)
  during hp := by
    have hp : s.pool.phase = .closing := phase ▸ hp
    obtain ⟨d, hd, hb⟩ := h.during hp
    refine ⟨d, shutdowns.trans hd, ?_, ?_, ?_, ?_, ?_, ?_, ?_, ?_⟩
    · simpa only [Sys.retires, calls, owed hp] using hb.capacity
    · simpa only [calls, owed hp] using hb.remaining
    · simpa only [calls, answers] using hb.last
    · simpa only [answers] using hb.reply
    · simpa only [calls, answers] using hb.vault
    · simpa only [calls, answers] using hb.emptied
    · simpa only [calls] using hb.holding
    · exact (client hp).trans hb.client
  astray := astray.trans h.astray

/-- A party of the close consumes its `Stop` and calls `retire`. -/
theorem consume (h : Rendezvous s) (hp : s.pool.phase = .closing) (phase : s'.pool.phase = s.pool.phase)
    (shutdowns : s'.shutdowns = s.shutdowns) (answers : s'.answers = s.answers)
    (calls : ∀ f, s'.calls f = s.calls f + f .deposit) (owed : s'.owed + 1 = s.owed)
    (client : s'.pool.client = s.pool.client) (astray : s'.astray = s.astray) : Rendezvous s' where
  before hp' := absurd (phase.trans hp) hp'
  during _ := by
    obtain ⟨d, hd, hb⟩ := h.during hp
    have hcapacity := hb.capacity
    have hremaining := hb.remaining
    have hlast := hb.last
    rw [Sys.retires_eq] at hcapacity
    -- of the weights only `depositing` counts a call that has just begun
    refine ⟨d, shutdowns.trans hd, ?_, ?_, ?_, ?_, ?_, ?_, ?_, client.trans hb.client⟩
    · simp only [Sys.retires_eq, calls, Retire.depositing, Retire.counting, Retire.draining, Retire.drained,
        Retire.finished]
      omega
    · simp only [calls, Retire.depositing, Retire.counting]
      omega
    · simpa only [calls, answers, Retire.counting, Retire.draining, Retire.drained, Retire.finished, Nat.add_zero] using hb.last
    · simpa only [answers] using hb.reply
    · simpa only [calls, answers, Retire.counting, Retire.draining, Retire.drained, Retire.finished, Nat.add_zero] using hb.vault
    · simpa only [calls, answers, Retire.counting, Retire.draining, Retire.drained, Retire.finished, Nat.add_zero] using hb.emptied
    · simpa only [calls, Retire.emptyHanded, Nat.add_zero] using hb.holding
  astray := astray.trans h.astray

/-- One section of a call of `retire`. -/
theorem retire {shutdown : Nat} {stage : Retire} {d : Shutdown} (h : Rendezvous s) (hf : s.pool.phase ≠ .closing → s.shutdowns = [])
    (more : stage ≠ .done) (hd : s.shutdowns[shutdown]? = some d) (phase : s'.pool.phase = s.pool.phase)
    (client : s'.pool.client = s.pool.client)
    (shutdowns : s'.shutdowns = s.shutdowns.set shutdown (d.retire close s.handles stage).1)
    (answers : s'.answers = s.answers ++ (d.retire close s.handles stage).2.2.toList)
    (calls : ∀ f, s'.calls f + f stage = s.calls f + f (d.retire close s.handles stage).2.1)
    (owed : s'.owed = s.owed) (astray : s'.astray = s.astray) : Rendezvous s' := by
  have hp : s.pool.phase = .closing := by
    refine Classical.byContradiction fun hp => ?_
    simp [hf hp] at hd
  obtain ⟨e, he, hb⟩ := h.during hp
  have hde : shutdown = 0 ∧ d = e := by
    rw [he] at hd
    cases shutdown with
    | zero => exact ⟨rfl, by simpa using hd.symm⟩
    | succ n => simp at hd
  obtain ⟨rfl, rfl⟩ := hde
  refine ⟨fun hp' => absurd (phase.trans hp) hp', fun _ => ⟨(d.retire close s.handles stage).1, ?_, ?_⟩,
    astray.trans h.astray⟩
  · simp [shutdowns, he]
  · exact hb.retire more client answers calls owed

end Rendezvous

/-! ## What a step does to the calls of `retire` -/

theorem Worker.call_eq_zero {f : Retire → Nat} (w : Worker ρ) (h : w.inRetire = false) :
    w.call f = 0 ∧ w.astray = 0 := by
  cases w with
  | retiring => simp [Worker.inRetire] at h
  | _ => exact ⟨rfl, rfl⟩

theorem Task.call_eq_zero {f : Retire → Nat} (t : Task) (h : t.inRetire = false) :
    t.call f = 0 ∧ t.astray = 0 := by
  cases t with
  | starting caller start =>
    cases start with
    | retiring => simp [Task.inRetire] at h
    | _ => exact ⟨rfl, rfl⟩
  | _ => exact ⟨rfl, rfl⟩

/-- Nobody calls `retire` or goes on with a call of it. -/
structure Aside (s s' : Sys ρ) : Prop where
  workers : Unmoved Worker.inRetire s.workers s'.workers
  tasks : Unmoved Task.inRetire s.tasks s'.tasks
  answers : s'.answers = s.answers
  consumed : s'.consumed = s.consumed

namespace Aside

variable {s s' s'' : Sys ρ}

theorem trans (h : Aside s s') (h' : Aside s' s'') : Aside s s'' :=
  ⟨h.workers.trans h'.workers, h.tasks.trans h'.tasks, h'.answers.trans h.answers, h'.consumed.trans h.consumed⟩

theorem calls (h : Aside s s') (f : Retire → Nat) : s'.calls f = s.calls f := by
  rw [Sys.calls, Sys.calls, h.workers.tally fun w hw => (w.call_eq_zero hw).1,
    h.tasks.tally fun t ht => (t.call_eq_zero ht).1]

theorem astray (h : Aside s s') : s'.astray = s.astray := by
  rw [Sys.astray, Sys.astray, h.workers.tally fun w hw => (w.call_eq_zero (f := fun _ => 0) hw).2,
    h.tasks.tally fun t ht => (t.call_eq_zero (f := fun _ => 0) ht).2]

theorem inRetire (h : Aside s s') (p : Party) : s'.inRetire p = s.inRetire p := by
  cases p with
  | worker w => exact h.workers.any w
  | task t => exact h.tasks.any t

end Aside

/-- A step seen from the rendezvous. -/
inductive Called (close : Answer) (s : Sys ρ) (a : Act ρ) (s' : Sys ρ) : Prop where
  | other (aside : Aside s s') (phase : s'.pool.phase = s.pool.phase) (shutdowns : s'.shutdowns = s.shutdowns)
      (owed : s.pool.phase = .closing → s'.owed = s.owed)
      (client : s.pool.phase = .closing → s'.pool.client = s.pool.client)
  /-- The close builds the rendezvous. -/
  | begins (aside : Aside s s') (opened : s.pool.phase = .opened) (phase : s'.pool.phase = .closing)
      (shutdowns : s'.shutdowns = s.shutdowns ++ [.new s.pool.alive]) (owed : s'.owed = s.owed)
      (some : 0 < s.pool.alive) (client : s'.pool.client = none)
  /-- The last `Engine` is dropped. -/
  | ends (aside : Aside s s') (opened : s.pool.phase = .opened) (phase : s'.pool.phase = .abandoned)
  /-- A party consumes a `Stop`. -/
  | begun (party : Party) (closing : s.pool.phase = .closing) (phase : s'.pool.phase = s.pool.phase)
      (shutdowns : s'.shutdowns = s.shutdowns) (answers : s'.answers = s.answers)
      (calls : ∀ f, s'.calls f = s.calls f + f .deposit) (owed : s'.owed + 1 = s.owed)
      (client : s'.pool.client = s.pool.client) (astray : s'.astray = s.astray)
      (consumed : s'.consumed = s.consumed ++ [party]) (fresh : s.inRetire party = false)
      (inRetire : ∀ p, s'.inRetire p = (s.inRetire p || party == p))
  /-- A party goes on with its call. -/
  | moved {shutdown : Nat} {stage : Retire} {d : Shutdown} (party : Party) (act : a = .retire party)
      (current : s.stage party = some stage) (more : stage ≠ .done)
      (found : s.shutdowns[shutdown]? = some d) (phase : s'.pool.phase = s.pool.phase)
      (client : s'.pool.client = s.pool.client)
      (shutdowns : s'.shutdowns = s.shutdowns.set shutdown (d.retire close s.handles stage).1)
      (answers : s'.answers = s.answers ++ (d.retire close s.handles stage).2.2.toList)
      (calls : ∀ f, s'.calls f + f stage = s.calls f + f (d.retire close s.handles stage).2.1)
      (owed : s'.owed = s.owed) (astray : s'.astray = s.astray) (consumed : s'.consumed = s.consumed)
      (already : s.inRetire party = true) (inRetire : ∀ p, s'.inRetire p = (s.inRetire p || party == p))

theorem inRetire_worker {s s' : Sys ρ} {w : Nat} {a b : Worker ρ} (hw : s.workers[w]? = some a)
    (workers : s'.workers = s.workers.set w b) (tasks : s'.tasks = s.tasks) (hb : b.inRetire = true) (p : Party) :
    s'.inRetire p = (s.inRetire p || .worker w == p) := by
  cases p with
  | worker v =>
    simp only [Sys.inRetire, workers, any_set hw, hb]
    by_cases hv : w = v <;> simp [hv]
  | task t => simp [Sys.inRetire, tasks]

theorem inRetire_task {s s' : Sys ρ} {t : Nat} {a b : Task} (ht : s.tasks[t]? = some a)
    (tasks : s'.tasks = s.tasks.set t b) (workers : s'.workers = s.workers) (hb : b.inRetire = true) (p : Party) :
    s'.inRetire p = (s.inRetire p || .task t == p) := by
  cases p with
  | task v =>
    simp only [Sys.inRetire, tasks, any_set ht, hb]
    by_cases hv : t = v <;> simp [hv]
  | worker w => simp [Sys.inRetire, workers]

theorem Turned.called {a : Act ρ} {s s' : Sys ρ} {w : Nat} {since : Option Nat} {taken waiting : List ρ}
    (hf : Fifo s taken waiting) (hw : s.workers[w]? = some (.woken since)) (ht : Turned limits w s s') :
    Called close s a s' := by
  have howed := le_tally Worker.owed hw
  simp only [Worker.owed] at howed
  cases ht with
  | run | park =>
    refine .other ⟨.set hw rfl rfl, .refl _ _, rfl, rfl⟩ rfl rfl (fun _ => ?_) (fun _ => rfl)
    simp [Sys.owed, Sys.reserved, tally_set_eq hw, Worker.owed]
  | retire queue spare =>
    refine .other ⟨.set hw rfl rfl, .refl _ _, rfl, rfl⟩ rfl rfl (fun hp => ?_) (fun _ => rfl)
    rcases spare with h | ⟨h, -⟩ <;> simp [hp] at h
  | stop queue =>
    obtain ⟨hp, -, rfl, -⟩ := hf.front queue
    refine .begun (.worker w) hp rfl rfl rfl (fun f => ?_) ?_ rfl ?_ rfl ?_ (inRetire_worker hw rfl rfl rfl)
    · simp only [Sys.calls, tally_set_eq hw, Worker.call]
      omega
    · simp only [Sys.owed, Sys.reserved, tally_set_eq hw, Worker.owed]
      omega
    · simp [Sys.astray, tally_set_eq hw, Worker.astray]
    · simp [Sys.inRetire, hw, Worker.inRetire]

theorem Called.entered {a : Act ρ} {s s' : Sys ρ} {w : Nat} (hw : s.workers[w]? = some .ready)
    (h : Called close (s.entered w) a s') : Called close s a s' := by
  have first : Aside s (s.entered w) := ⟨.set hw rfl rfl, .refl _ _, rfl, rfl⟩
  have howed : (s.entered w).owed = s.owed := by
    simp [Sys.owed, Sys.reserved, Sys.entered, tally_set_eq hw, Worker.owed]
  have hstrong : (s.entered w).handles = s.handles := by
    simp [Sys.handles, Sys.entered, State.waiting, tally_set_eq hw, Worker.handles]
  have hstage : ∀ p, (s.entered w).stage p = s.stage p := by
    intro p
    cases p with
    | worker v =>
      obtain ⟨hlt, -⟩ := List.getElem?_eq_some_iff.1 hw
      by_cases hv : w = v
      · subst hv
        simp only [Sys.stage, Sys.entered, List.getElem?_set_self hlt, hw]
      · simp only [Sys.stage, Sys.entered, List.getElem?_set_ne hv]
    | task t => rfl
  cases h with
  | other aside phase shutdowns owed client =>
    exact .other (first.trans aside) phase shutdowns (fun hp => (owed hp).trans howed) client
  | begins aside opened phase shutdowns owed some client =>
    exact .begins (first.trans aside) opened phase shutdowns (owed.trans howed) some client
  | ends aside opened phase => exact .ends (first.trans aside) opened phase
  | begun party closing phase shutdowns answers calls owed client astray consumed fresh inRetire =>
    exact .begun party closing phase shutdowns answers (fun f => by rw [calls, first.calls]) (owed.trans howed)
      client (astray.trans first.astray) consumed (by rw [← first.inRetire]; exact fresh)
      (fun p => by rw [inRetire, first.inRetire])
  | moved party act current more found phase client shutdowns answers calls owed astray consumed already inRetire =>
    rw [hstrong] at shutdowns answers calls
    exact .moved party act (hstage party ▸ current) more found phase client shutdowns answers (fun f => by rw [calls, first.calls])
      (owed.trans howed) (astray.trans first.astray) consumed (by rw [← first.inRetire]; exact already)
      (fun p => by rw [inRetire, first.inRetire])

/-- **What each step is to the rendezvous.** -/
theorem Step.called {s s' : Sys ρ} {a : Act ρ} {taken waiting : List ρ} (hf : Fifo s taken waiting)
    (hs : Step limits close s a s') : Called close s a s' := by
  -- the opening thread is done before a caller can close
  have opening : s.opener ≠ .reported → s.opener ≠ .serving → s.pool.phase ≠ .closing := fun h1 h2 =>
    hf.not_closing (hf.not_ready h1 h2)
  have engine : ∀ {P : Prop}, s.pool.phase = .opened → s.pool.phase = .closing → P := by
    intro P ho hc
    simp [ho] at hc
  cases hs with
  | tick | cloneEngine | dropEngine | dispatchRefused | closeRefused =>
    exact .other ⟨.refl _ _, .refl _ _, rfl, rfl⟩ rfl rfl (fun _ => rfl) (fun _ => rfl)
  | openFailed ho | openDone ho | reserveFirst ho | floorStarted ho | report ho =>
    have hp := opening (by simp [ho]) (by simp [ho])
    exact .other ⟨.refl _ _, .refl _ _, rfl, rfl⟩ rfl rfl (fun h => absurd h hp) (fun _ => rfl)
  | publish ho =>
    have hp := opening (by simp [ho]) (by simp [ho])
    refine .other ⟨.refl _ _, .refl _ _, rfl, rfl⟩ ?_ rfl (fun h => absurd h hp) (fun h => absurd h hp)
    unfold State.publish
    split <;> rfl
  | reserveFloor ho =>
    have hp := opening (by simp [ho]) (by simp [ho])
    exact .other ⟨.refl _ _, .append rfl, rfl, rfl⟩ rfl rfl (fun h => absurd h hp) (fun _ => rfl)
  | serve ho =>
    refine .other ⟨.append rfl, .refl _ _, rfl, rfl⟩ rfl rfl (fun _ => ?_) (fun _ => rfl)
    simp only [Sys.owed, Sys.reserved, ho, tally_append, tally_cons, tally_nil, Worker.owed, Opener.reserving]
    omega
  | dropLast =>
    unfold State.abandon
    split
    · refine .other ⟨.refl _ _, .append rfl, rfl, rfl⟩ rfl rfl (fun _ => ?_) (fun _ => rfl)
      simp [Sys.owed, Sys.reserved, Task.reserving]
    · exact .ends ⟨.refl _ _, .append rfl, rfl, rfl⟩ (by simp_all) rfl
  | dispatch _ _ ok =>
    obtain ⟨hopen, -, hphase, -⟩ := State.queueJob_ok ok
    exact .other ⟨.refl _ _, .append rfl, rfl, rfl⟩ hphase rfl (engine hopen) (engine hopen)
  | close _ _ ok =>
    obtain ⟨hopen, halive, rfl⟩ := State.beginClose_ok ok
    refine .begins ⟨.refl _ _, .append rfl, rfl, rfl⟩ hopen rfl rfl ?_ halive rfl
    simp [Sys.owed, Sys.reserved, Task.reserving]
  | @notifyOne _ _ spawn _ _ ht hw =>
    have hn : (Task.notified spawn).inRetire = false := by cases spawn <;> rfl
    refine .other ⟨.set hw rfl rfl, .set ht rfl hn, rfl, rfl⟩ rfl rfl (fun _ => ?_) (fun _ => rfl)
    simp [Sys.owed, Sys.reserved, tally_set_eq ht, tally_set_eq hw, Worker.owed]
  | @notifyNobody _ spawn ht =>
    have hn : (Task.notified spawn).inRetire = false := by cases spawn <;> rfl
    refine .other ⟨.refl _ _, .set ht rfl hn, rfl, rfl⟩ rfl rfl (fun _ => ?_) (fun _ => rfl)
    simp [Sys.owed, Sys.reserved, tally_set_eq ht]
  | notifyAll ht owed =>
    have hw : Unmoved Worker.inRetire s.workers (Sys.wakeAll s.workers) := by
      refine .map fun w => ?_
      cases w <;> rfl
    rcases owed with rfl | rfl <;>
      refine .other ⟨hw, .set ht rfl rfl, rfl, rfl⟩ rfl rfl (fun _ => ?_) (fun _ => rfl) <;>
      simp [Sys.owed, Sys.reserved, tally_set_eq ht, Task.reserving, tally_wakeAll (f := Worker.owed) fun _ _ => rfl]
  | spawnOk ht =>
    have hr := le_tally Task.reserving ht
    simp only [Task.reserving, Start.reserving] at hr
    refine .other ⟨.append rfl, .set ht rfl rfl, rfl, rfl⟩ rfl rfl (fun _ => ?_) (fun _ => rfl)
    simp only [Sys.owed, Sys.reserved, tally_append, tally_cons, tally_nil, tally_set_eq ht, Task.reserving,
      Start.reserving, Worker.owed]
    omega
  | spawnErr ht =>
    refine .other ⟨.refl _ _, .set ht rfl rfl, rfl, rfl⟩ rfl rfl (fun _ => ?_) (fun _ => rfl)
    simp [Sys.owed, Sys.reserved, tally_set_eq ht, Task.reserving, Start.reserving]
  | spawnFailedNone ht unclaimed =>
    obtain ⟨-, -, -, hphase, hclient⟩ := State.spawnFailed_counts s.pool
    refine .other ⟨.refl _ _, .set ht rfl rfl, rfl, rfl⟩ hphase rfl (fun hp => ?_) (fun _ => hclient)
    rw [(State.spawnFailed_of_closing hp (hf.back hp ht)).1] at unclaimed
    cases unclaimed
  | @spawnFailedSome t shutdown _ ht claimed =>
    have hp : s.pool.phase = .closing := by
      refine Classical.byContradiction fun hp => ?_
      rw [(State.spawnFailed_of_not_closing hp).1] at claimed
      cases claimed
    have hzero : shutdown = 0 := by
      rw [(State.spawnFailed_of_closing hp (hf.back hp ht)).1] at claimed
      cases claimed
      rfl
    obtain ⟨-, -, -, hphase, hclient⟩ := State.spawnFailed_counts s.pool
    have hr := le_tally Task.reserving ht
    simp only [Task.reserving, Start.reserving] at hr
    refine .begun (.task t) hp hphase rfl rfl (fun f => ?_) ?_ hclient ?_ rfl ?_ (inRetire_task ht rfl rfl rfl)
    · simp only [Sys.calls, tally_set_eq ht, Task.call, Start.call]
      omega
    · simp only [Sys.owed, Sys.reserved, tally_set_eq ht, Task.reserving, Start.reserving]
      omega
    · simp [Sys.astray, tally_set_eq ht, Task.astray, Start.astray, hzero]
    · simp [Sys.inRetire, ht, Task.inRetire]
  | leave ht last =>
    rcases last with rfl | rfl <;>
      refine .other ⟨.refl _ _, .set ht rfl rfl, rfl, rfl⟩ rfl rfl (fun _ => ?_) (fun _ => rfl) <;>
      simp [Sys.owed, Sys.reserved, tally_set_eq ht, Task.reserving, Start.reserving]
  | @retireTask t shutdown caller stage d ht more hd =>
    refine .moved (.task t) rfl (by simp only [Sys.stage, ht]) more hd rfl rfl rfl rfl (fun f => ?_) ?_ ?_ rfl ?_ (inRetire_task ht rfl rfl rfl)
    · have := tally_set (Task.call f) ht (.starting caller (.retiring shutdown (d.retire close s.handles stage).2.1))
      simp only [Task.call, Start.call] at this
      simp only [Sys.calls]
      omega
    · simp [Sys.owed, Sys.reserved, tally_set_eq ht, Task.reserving, Start.reserving]
    · simp [Sys.astray, tally_set_eq ht, Task.astray, Start.astray]
    · simp [Sys.inRetire, ht, Task.inRetire]
  | arrive hw | wake hw | finish hw =>
    refine .other ⟨.set hw rfl rfl, .refl _ _, rfl, rfl⟩ rfl rfl (fun _ => ?_) (fun _ => rfl)
    simp [Sys.owed, Sys.reserved, tally_set_eq hw, Worker.owed]
  | enter hw =>
    exact ((turned_cases limits none _ _).called (hf.entered hw) (Sys.entered_worker hw)).entered hw
  | turn hw => exact (turned_cases limits _ _ _).called hf hw
  | @retireWorker w shutdown stage d hw more hd =>
    refine .moved (.worker w) rfl (by simp only [Sys.stage, hw]) more hd rfl rfl rfl rfl (fun f => ?_) ?_ ?_ rfl ?_ (inRetire_worker hw rfl rfl rfl)
    · have := tally_set (Worker.call f) hw (.retiring shutdown (d.retire close s.handles stage).2.1)
      simp only [Worker.call] at this
      simp only [Sys.calls]
      omega
    · simp [Sys.owed, Sys.reserved, tally_set_eq hw, Worker.owed]
    · simp [Sys.astray, tally_set_eq hw, Worker.astray]
    · simp [Sys.inRetire, hw, Worker.inRetire]

namespace Rendezvous

variable {s s' : Sys ρ}

/-- The close builds a rendezvous for the workers that are to come to it. -/
theorem begins (h : Rendezvous s) (hc : Counted s) (hq : s.pool.phase ≠ .closing → s.shutdowns = [])
    (aside : Aside s s') (opened : s.pool.phase = .opened) (phase : s'.pool.phase = .closing)
    (shutdowns : s'.shutdowns = s.shutdowns ++ [.new s.pool.alive]) (owed : s'.owed = s.owed)
    (alive : 0 < s.pool.alive) (client : s'.pool.client = none) (hstop : tally Worker.stopped s.workers = 0) :
    Rendezvous s' := by
  have hclosing : s.pool.phase ≠ .closing := by simp [opened]
  obtain ⟨hnone, hanswers⟩ := h.before hclosing
  rw [Sys.retires_eq] at hnone
  have halive : s.pool.alive = s.owed := by
    have := tally_counted s.workers
    simp only [hc.alive, Sys.owed]
    omega
  have hempty : s'.calls Retire.emptyHanded = 0 := by
    have := Sys.calls_le Retire.emptyHanded_le s
    rw [aside.calls]
    omega
  refine ⟨fun hp => absurd phase hp, fun _ => ⟨.new s.pool.alive, ?_, ?_⟩, aside.astray.trans h.astray⟩
  · rw [shutdowns, hq hclosing, List.nil_append]
  · refine ⟨?_, ?_, ?_, ?_, ?_, fun _ => rfl, hempty, client⟩ <;>
      simp only [Sys.retires_eq, aside.calls, aside.answers, hanswers, owed, halive, Shutdown.new,
        List.length_nil, List.isEmpty_nil] <;> omega

/-- Every step keeps the rendezvous. -/
theorem step {a : Act ρ} {taken waiting : List ρ} (h : Rendezvous s) (hc : Counted s) (hf : Fifo s taken waiting)
    (hs : Step limits close s a s') : Rendezvous s' := by
  have hq : s.pool.phase ≠ .closing → s.shutdowns = [] := fun hp => (hf.quiet hp).1
  cases Step.called hf hs with
  | other aside phase shutdowns owed client =>
    exact h.frame phase shutdowns aside.answers aside.calls owed client aside.astray
  | begins aside opened phase shutdowns owed alive client =>
    exact h.begins hc hq aside opened phase shutdowns owed alive client (hf.quiet (by simp [opened])).2
  | ends aside opened phase =>
    have hp : s.pool.phase ≠ .closing := by simp [opened]
    refine ⟨fun _ => ?_, fun hp' => ?_, aside.astray.trans h.astray⟩
    · rw [Sys.retires, aside.calls, aside.answers]
      exact h.before hp
    · simp [phase] at hp'
  | begun _ closing phase shutdowns answers calls owed client astray =>
    exact h.consume closing phase shutdowns answers calls owed client astray
  | moved _ _ _ more found phase client shutdowns answers calls owed astray =>
    exact h.retire hq more found phase client shutdowns answers calls owed astray

end Rendezvous

/-- Every run has it. -/
theorem rendezvous_of_reach {s : Sys ρ} (h : (pool ρ limits close).Reach s) : Rendezvous s := by
  refine System.Reach.induct (I := Rendezvous) (fun _ hi => hi ▸ Rendezvous.initial) (fun s a s' hr hi hs => ?_) h
  obtain ⟨_, _, hf⟩ := fifo_of_reach hr
  exact hi.step (counted_of_reach hr) hf hs

/-! ## Who consumed the `Stop`s -/

/-- The parties that consumed a `Stop` are those that have called `retire`, each once. -/
structure Consumed (s : Sys ρ) : Prop where
  once : s.consumed.Nodup
  parties : ∀ p, p ∈ s.consumed ↔ s.inRetire p = true
  calls : s.consumed.length = s.retires

/-- An answer that was received is not received again. -/
theorem Consumed.step {a : Act ρ} {s s' : Sys ρ} (h : Consumed s) (hs : Called close s a s') : Consumed s' := by
  have aside : Aside s s' → Consumed s' := by
    intro aside
    refine ⟨aside.consumed ▸ h.once, fun p => ?_, ?_⟩
    · rw [aside.consumed, aside.inRetire, h.parties]
    · rw [aside.consumed, Sys.retires, aside.calls, h.calls, Sys.retires]
  cases hs with
  | other a | begins a | ends a => exact aside a
  | begun party _ _ _ _ calls _ _ _ consumed fresh inRetire =>
    refine ⟨?_, fun p => ?_, ?_⟩
    · rw [consumed, List.nodup_append]
      refine ⟨h.once, by simp, fun p hp q hq hpq => ?_⟩
      obtain rfl : q = party := by simpa using hq
      rw [hpq, h.parties, fresh] at hp
      cases hp
    · rw [consumed, inRetire]
      simp only [List.mem_append, List.mem_singleton, h.parties, Bool.or_eq_true, beq_iff_eq]
      exact or_congr_right eq_comm
    · rw [consumed, Sys.retires, calls, List.length_append, h.calls, Sys.retires]
      rfl
  | moved party _ _ _ _ _ _ _ _ calls _ _ consumed already inRetire =>
    refine ⟨consumed ▸ h.once, fun p => ?_, ?_⟩
    · rw [consumed, inRetire, h.parties]
      by_cases hp : party = p
      · simp [← hp, already]
      · simp [hp]
    · have := calls fun _ => 1
      rw [consumed, h.calls, Sys.retires, Sys.retires]
      omega

theorem consumed_of_reach {s : Sys ρ} (h : (pool ρ limits close).Reach s) : Consumed s := by
  refine System.Reach.induct (I := Consumed) (fun _ hi => ?_) (fun s a s' hr hi hs => ?_) h
  · rw [hi]
    refine ⟨List.nodup_nil, fun p => ?_, rfl⟩
    cases p <;> simp [Sys.initial, Sys.inRetire]
  · obtain ⟨_, _, hf⟩ := fifo_of_reach hr
    exact hi.step (Step.called hf hs)

end EmbeddedMongo.Nonblocking
