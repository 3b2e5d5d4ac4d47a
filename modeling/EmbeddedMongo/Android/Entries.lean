import EmbeddedMongo.Android.Registry

/-!
# Who holds what

The two levels of locks, by the calls that hold them. `MutexOk` is about the registry's mutex,
`EntryOk` about one entry: it is in the map or has been removed by exactly one call, its slot is
full until that call takes the client, and its lock counts who is inside. A command that is inside
the engine keeps the lock shared, so the client is taken only after it, and whoever comes later
finds the slot empty.
-/

namespace EmbeddedMongo.Android.Handles

open Conc

namespace Op

def isRun : Op → Bool
  | .runCommand _ => true
  | .insert | .close _ => false

def isClose : Op → Bool
  | .close _ => true
  | .insert | .runCommand _ => false

end Op

namespace Pc

/-- The registry's mutex is held. -/
def holds : Pc → Bool
  | .locked | .allocated _ | .looked => true
  | _ => false

/-- The lock of the entry is held. -/
def inside : Pc → Bool
  | .guarded | .engine _ | .leaving _ => true
  | _ => false

/-- It waits for the engine. -/
def inEngine : Pc → Bool
  | .engine _ => true
  | _ => false

/-- Past the slot. -/
def past : Pc → Bool
  | .engine _ | .leaving _ | .returned _ => true
  | _ => false

end Pc

/-! ## The registry's mutex -/

/-- The holder is the one call that is in a section under the mutex. -/
structure MutexOk (calls : List Call) (holder : Option Nat) : Prop where
  holds : ∀ (i : Nat) (c : Call), calls[i]? = some c → c.pc.holds = true → holder = some i
  held : ∀ i, holder = some i → ∃ c, calls[i]? = some c ∧ c.pc.holds = true

namespace MutexOk

variable {calls : List Call} {holder : Option Nat} {i : Nat} {c c' : Call}

theorem call (h : MutexOk calls holder) (op : Op) : MutexOk (calls ++ [.begin op]) holder := by
  constructor
  · exact forall_getElem?_append h.holds (by simp [Call.begin, Pc.holds])
  · intro i hi
    obtain ⟨c, hc, hholds⟩ := h.held i hi
    exact ⟨c, getElem?_append_of_eq_some hc, hholds⟩

/-- A move that neither takes nor gives the mutex. -/
theorem keep (h : MutexOk calls holder) (hc : calls[i]? = some c) (same : c'.pc.holds = c.pc.holds) :
    MutexOk (calls.set i c') holder := by
  obtain ⟨hlt, -⟩ := List.getElem?_eq_some_iff.1 hc
  constructor
  · exact forall_getElem?_set (fun j c hj _ => h.holds j c hj) fun hholds => h.holds i c hc (same ▸ hholds)
  · intro j hj
    obtain ⟨c₀, hc₀, hholds⟩ := h.held j hj
    by_cases hij : i = j
    · subst hij
      rw [hc] at hc₀
      cases hc₀
      exact ⟨c', List.getElem?_set_self hlt, same.trans hholds⟩
    · exact ⟨c₀, by rw [List.getElem?_set_ne hij]; exact hc₀, hholds⟩

/-- The mutex is taken. -/
theorem lock (h : MutexOk calls none) (hc : calls[i]? = some c) (hholds : c'.pc.holds = true) :
    MutexOk (calls.set i c') (some i) := by
  obtain ⟨hlt, -⟩ := List.getElem?_eq_some_iff.1 hc
  constructor
  · refine forall_getElem?_set ?_ fun _ => rfl
    intro j c hj _ hholds
    cases h.holds j c hj hholds
  · intro j hj
    cases hj
    exact ⟨c', List.getElem?_set_self hlt, hholds⟩

/-- The mutex is given back. -/
theorem unlock (h : MutexOk calls holder) (hc : calls[i]? = some c) (hholds : c.pc.holds = true)
    (released : c'.pc.holds = false) : MutexOk (calls.set i c') none := by
  constructor
  · refine forall_getElem?_set ?_ (by simp [released])
    intro j c₁ hj hne hholds₁
    have hi := h.holds i c hc hholds
    rw [h.holds j c₁ hj hholds₁] at hi
    exact absurd (Option.some.inj hi) hne
  · intro j hj
    cases hj

end MutexOk

/-! ## Who is where, entry by entry -/

/-- One, if the call holds the `Arc` of entry `e` and is at such a place. -/
def weight (p : Op → Pc → Bool) (e : Nat) (c : Call) : Nat := if c.entry = some e then (p c.op c.pc).toNat else 0

/-- How many calls at this entry are in such a place. -/
def count (p : Op → Pc → Bool) (e : Nat) (calls : List Call) : Nat := tally (weight p e) calls

/-- The calls of `close` that removed the entry from the map. -/
def removing (op : Op) (_ : Pc) : Bool := op.isClose

/-- Those of them that have been to the slot. -/
def taking (op : Op) (pc : Pc) : Bool := op.isClose && pc.past

/-- It holds the lock of its entry shared. -/
def reading (op : Op) (pc : Pc) : Bool := op.isRun && pc.inside

/-- It holds that lock alone. -/
def writing (op : Op) (pc : Pc) : Bool := op.isClose && pc.inside

/-- The commands that are being run. -/
def running (op : Op) (pc : Pc) : Bool := op.isRun && pc.inEngine

/-- A call at another entry does not count. -/
theorem weight_of_ne {p : Op → Pc → Bool} {e : Nat} {c : Call} (h : c.entry ≠ some e) : weight p e c = 0 := if_neg h

theorem weight_of_eq {p : Op → Pc → Bool} {e : Nat} {c : Call} (h : c.entry = some e) :
    weight p e c = (p c.op c.pc).toNat := if_pos h

theorem weight_mono {p q : Op → Pc → Bool} (h : ∀ op pc, p op pc = true → q op pc = true) (e : Nat) (c : Call) :
    weight p e c ≤ weight q e c := by
  unfold weight
  split
  · cases hp : p c.op c.pc with
    | false => exact Nat.zero_le _
    | true => exact Nat.le_of_eq (congrArg Bool.toNat (h _ _ hp).symm)
  · exact Nat.le_refl 0

theorem taking_removing (op : Op) (pc : Pc) (h : taking op pc = true) : removing op pc = true :=
  (Bool.and_eq_true_iff.1 h).1

theorem running_reading (op : Op) (pc : Pc) (h : running op pc = true) : reading op pc = true := by
  obtain ⟨hrun, hengine⟩ := Bool.and_eq_true_iff.1 h
  cases pc with
  | engine client => exact Bool.and_eq_true_iff.2 ⟨hrun, rfl⟩
  | _ => cases hengine

/-- How a count changes with one call. -/
theorem count_set {calls : List Call} {i : Nat} {c : Call} (hc : calls[i]? = some c) (c' : Call) (p : Op → Pc → Bool)
    (e : Nat) : count p e (calls.set i c') + weight p e c = count p e calls + weight p e c' :=
  tally_set _ hc c'

theorem count_set_same {calls : List Call} {i : Nat} {c c' : Call} (hc : calls[i]? = some c) {p : Op → Pc → Bool}
    {e : Nat} (same : weight p e c' = weight p e c) : count p e (calls.set i c') = count p e calls := by
  have := count_set hc c' p e
  omega

section

variable {calls : List Call} {i e : Nat} {c c' : Call} {p : Op → Pc → Bool} (hc : calls[i]? = some c)
  (he : c.entry = some e) (he' : c'.entry = some e)

include hc he he'

/-- A call that counts before and after, or neither. -/
theorem count_keep (h : p c'.op c'.pc = p c.op c.pc) : count p e (calls.set i c') = count p e calls := by
  apply count_set_same hc
  rw [weight_of_eq he, weight_of_eq he', h]

/-- A call that comes to count. -/
theorem count_gain (h : p c.op c.pc = false) (h' : p c'.op c'.pc = true) :
    count p e (calls.set i c') = count p e calls + 1 := by
  have := count_set hc c' p e
  rw [weight_of_eq he, weight_of_eq he', h, h'] at this
  exact this

/-- A call that no longer counts. -/
theorem count_lose (h : p c.op c.pc = true) (h' : p c'.op c'.pc = false) :
    count p e calls = count p e (calls.set i c') + 1 := by
  have := count_set hc c' p e
  rw [weight_of_eq he, weight_of_eq he', h, h'] at this
  exact this.symm

end

/-- A call that counts is counted. -/
theorem count_pos {calls : List Call} {i e : Nat} {c : Call} {p : Op → Pc → Bool} (hc : calls[i]? = some c)
    (he : c.entry = some e) (h : p c.op c.pc = true) : 0 < count p e calls := by
  have := le_tally (weight p e) hc
  rw [weight_of_eq he, h] at this
  exact this

/-- Two calls that count alike at an entry. -/
structure Alike (e : Nat) (c c' : Call) : Prop where
  removing : weight removing e c' = weight removing e c
  taking : weight taking e c' = weight taking e c
  reading : weight reading e c' = weight reading e c
  writing : weight writing e c' = weight writing e c
  running : weight running e c' = weight running e c

theorem alike_of_ne {e : Nat} {c c' : Call} (h : c.entry ≠ some e) (h' : c'.entry ≠ some e) : Alike e c c' := by
  constructor <;> rw [weight_of_ne h, weight_of_ne h']

/-- Two places of a call that count alike in every respect. -/
theorem alike_of_places {e : Nat} {c c' : Call} (hentry : c'.entry = c.entry)
    (hremoving : removing c'.op c'.pc = removing c.op c.pc) (htaking : taking c'.op c'.pc = taking c.op c.pc)
    (hreading : reading c'.op c'.pc = reading c.op c.pc) (hwriting : writing c'.op c'.pc = writing c.op c.pc)
    (hrunning : running c'.op c'.pc = running c.op c.pc) : Alike e c c' := by
  constructor <;> simp only [weight, *]

/-- What holds of an entry that was made for an issue. -/
structure EntryOk (calls : List Call) (entries : HandleId → Option Nat) (e : Nat) (issue : Issue) (entry : Entry) :
    Prop where
  removed : count removing e calls + (if entries issue.id = some e then 1 else 0) = 1
  slot : entry.client = if count taking e calls = 0 then some issue.client else none
  lock : entry.lock.Held (count reading e calls) (count writing e calls)
  quiet : count taking e calls = 0 ∨ count running e calls = 0

namespace EntryOk

variable {calls calls' : List Call} {entries entries' : HandleId → Option Nat} {e i : Nat} {issue : Issue}
  {entry : Entry} {c c' : Call}

/-- What is left to show of a step that removes nothing, takes no client and lets no command in: the
lock still counts who is inside. -/
theorem relock {lock : RwLock} (h : EntryOk calls entries e issue entry)
    (hremoving : count removing e calls' = count removing e calls)
    (htaking : count taking e calls' = count taking e calls)
    (hrunning : count running e calls' ≤ count running e calls)
    (held : lock.Held (count reading e calls') (count writing e calls')) :
    EntryOk calls' entries e issue { entry with lock := lock } := by
  constructor
  · rw [hremoving]
    exact h.removed
  · rw [htaking]
    exact h.slot
  · exact held
  · rw [htaking]
    refine h.quiet.imp id fun quiet => ?_
    omega

/-- A move that no count of the entry sees. -/
theorem move (h : EntryOk calls entries e issue entry) (hc : calls[i]? = some c) (alike : Alike e c c') :
    EntryOk (calls.set i c') entries e issue entry := by
  apply h.relock (count_set_same hc alike.removing) (count_set_same hc alike.taking)
    (Nat.le_of_eq (count_set_same hc alike.running))
  rw [count_set_same hc alike.reading, count_set_same hc alike.writing]
  exact h.lock

/-- A change of the map elsewhere. -/
theorem remap (h : EntryOk calls entries e issue entry) (same : entries' issue.id = entries issue.id) :
    EntryOk calls entries' e issue entry :=
  ⟨by rw [same]; exact h.removed, h.slot, h.lock, h.quiet⟩

theorem call (h : EntryOk calls entries e issue entry) (op : Op) : EntryOk (calls ++ [.begin op]) entries e issue entry := by
  have same (p : Op → Pc → Bool) : count p e (calls ++ [.begin op]) = count p e calls := by
    simp [count, weight, Call.begin]
  apply h.relock (same removing) (same taking) (Nat.le_of_eq (same running))
  rw [same reading, same writing]
  exact h.lock

/-- One close at most has the entry to itself. -/
theorem count_removing_le (h : EntryOk calls entries e issue entry) : count removing e calls ≤ 1 := by
  have := h.removed
  omega

/-- A call that has removed the entry and not been to its slot finds the client there. -/
theorem full (h : EntryOk calls entries e issue entry) (hc : calls[i]? = some c) (hremoving : weight removing e c = 1)
    (htaking : weight taking e c = 0) : count taking e calls = 0 := by
  have hlt : count taking e calls < count removing e calls := tally_lt (weight_mono taking_removing e) hc (by omega)
  have := h.count_removing_le
  omega

section

variable (h : EntryOk calls entries e issue entry) (hc : calls[i]? = some c) (he : c.entry = some e)
  (he' : c'.entry = some e) (hop : c'.op = c.op) {id : HandleId}

include h hc he he' hop

/-- A command is let in. -/
theorem read (hrun : c.op = .runCommand id) (hpc : c.pc = .waiting) (hpc' : c'.pc = .guarded)
    (free : entry.lock.admitsReader = true) :
    EntryOk (calls.set i c') entries e issue { entry with lock := entry.lock.read } := by
  apply h.relock (count_keep hc he he' (by simp [removing, hop]))
    (count_keep hc he he' (by simp [taking, hop, hrun, Op.isClose]))
    (Nat.le_of_eq (count_keep hc he he' (by simp [running, hpc, hpc', Pc.inEngine])))
  rw [count_gain hc he he' (by simp [reading, hpc, Pc.inside]) (by simp [reading, hop, hrun, hpc', Op.isRun, Pc.inside]),
    count_keep hc he he' (by simp [writing, hop, hrun, Op.isClose])]
  exact (h.lock.read free).1

/-- A close is let in. -/
theorem write (hclose : c.op = .close id) (hpc : c.pc = .waiting) (hpc' : c'.pc = .guarded)
    (free : entry.lock.admitsWriter = true) :
    EntryOk (calls.set i c') entries e issue { entry with lock := entry.lock.write } := by
  apply h.relock (count_keep hc he he' (by simp [removing, hop]))
    (count_keep hc he he' (by simp [taking, hop, hpc, hpc', Pc.past]))
    (Nat.le_of_eq (count_keep hc he he' (by simp [running, hop, hclose, Op.isRun])))
  rw [count_keep hc he he' (by simp [reading, hop, hclose, Op.isRun]),
    count_gain hc he he' (by simp [writing, hpc, Pc.inside])
      (by simp [writing, hop, hclose, hpc', Op.isClose, Pc.inside])]
  exact (h.lock.write free).1

/-- A command enters only while the client is in the slot. -/
theorem command {client : Nat} (hrun : c.op = .runCommand id) (hpc : c.pc = .guarded) (hpc' : c'.pc = .engine client)
    (slot : entry.client = some client) : EntryOk (calls.set i c') entries e issue entry := by
  have full : count taking e calls = 0 := by
    have hslot := h.slot
    rw [slot] at hslot
    split at hslot
    · assumption
    · cases hslot
  have keep : count taking e (calls.set i c') = count taking e calls :=
    count_keep hc he he' (by simp [taking, hop, hrun, Op.isClose])
  constructor
  · rw [count_keep hc he he' (by simp [removing, hop])]
    exact h.removed
  · rw [keep]
    exact h.slot
  · rw [count_keep hc he he' (by simp [reading, hop, hpc, hpc', Pc.inside]),
      count_keep hc he he' (by simp [writing, hop, hrun, Op.isClose])]
    exact h.lock
  · exact .inl (keep.trans full)

/-- A client is taken out of its slot only while nobody runs a command on it. -/
theorem shutdown {client : Nat} (hclose : c.op = .close id) (hpc : c.pc = .guarded) (hpc' : c'.pc = .engine client) :
    EntryOk (calls.set i c') entries e issue { entry with client := none } := by
  have writing_pos : 0 < count writing e calls :=
    count_pos hc he (by simp [writing, hclose, hpc, Op.isClose, Pc.inside])
  have noReader := h.lock.alone writing_pos
  have noCommand : count running e calls ≤ count reading e calls := tally_le (weight_mono running_reading e) calls
  constructor
  · rw [count_keep hc he he' (by simp [removing, hop])]
    exact h.removed
  · rw [count_gain hc he he' (by simp [taking, hpc, Pc.past]) (by simp [taking, hop, hclose, hpc', Op.isClose, Pc.past])]
    simp
  · rw [count_keep hc he he' (by simp [reading, hop, hclose, Op.isRun]),
      count_keep hc he he' (by simp [writing, hop, hpc, hpc', Pc.inside])]
    exact h.lock
  · right
    rw [count_keep hc he he' (by simp [running, hop, hclose, Op.isRun])]
    omega

/-- The engine answers a call at the entry. -/
theorem answer {client : Nat} {outcome : Outcome} (hpc : c.pc = .engine client) (hpc' : c'.pc = .leaving outcome) :
    EntryOk (calls.set i c') entries e issue entry := by
  have fewer : count running e (calls.set i c') ≤ count running e calls := by
    have := count_set hc c' running e
    rw [weight_of_eq he'] at this
    simp [running, hpc', Pc.inEngine] at this
    omega
  apply h.relock (count_keep hc he he' (by simp [removing, hop]))
    (count_keep hc he he' (by simp [taking, hop, hpc, hpc', Pc.past])) fewer
  rw [count_keep hc he he' (by simp [reading, hop, hpc, hpc', Pc.inside]),
    count_keep hc he he' (by simp [writing, hop, hpc, hpc', Pc.inside])]
  exact h.lock

/-- The command goes. -/
theorem releaseRead {outcome : Outcome} (hrun : c.op = .runCommand id) (hpc : c.pc = .leaving outcome)
    (hpc' : c'.pc = .returned outcome) :
    EntryOk (calls.set i c') entries e issue { entry with lock := entry.lock.releaseRead } := by
  have lose : count reading e calls = count reading e (calls.set i c') + 1 :=
    count_lose hc he he' (by simp [reading, hrun, hpc, Op.isRun, Pc.inside]) (by simp [reading, hpc', Pc.inside])
  apply h.relock (count_keep hc he he' (by simp [removing, hop]))
    (count_keep hc he he' (by simp [taking, hop, hrun, Op.isClose]))
    (Nat.le_of_eq (count_keep hc he he' (by simp [running, hpc, hpc', Pc.inEngine])))
  rw [count_keep (p := writing) hc he he' (by simp [writing, hop, hrun, Op.isClose])]
  have lock := h.lock
  rw [lose] at lock
  exact lock.releaseRead

/-- The close goes. -/
theorem releaseWrite {outcome : Outcome} (hclose : c.op = .close id) (hpc : c.pc = .leaving outcome)
    (hpc' : c'.pc = .returned outcome) :
    EntryOk (calls.set i c') entries e issue { entry with lock := entry.lock.releaseWrite } := by
  have lose : count writing e calls = count writing e (calls.set i c') + 1 :=
    count_lose hc he he' (by simp [writing, hclose, hpc, Op.isClose, Pc.inside]) (by simp [writing, hpc', Pc.inside])
  apply h.relock (count_keep hc he he' (by simp [removing, hop]))
    (count_keep hc he he' (by simp [taking, hop, hpc, hpc', Pc.past]))
    (Nat.le_of_eq (count_keep hc he he' (by simp [running, hop, hclose, Op.isRun])))
  rw [count_keep (p := reading) hc he he' (by simp [reading, hop, hclose, Op.isRun])]
  have lock := h.lock
  rw [lose] at lock
  exact lock.releaseWrite

end

end EntryOk

end EmbeddedMongo.Android.Handles
