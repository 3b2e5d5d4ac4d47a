import EmbeddedMongo.Android.Entries

/-!
# No client is touched while it is closed

Whoever removes an entry from the map is the one to close its client. `Legit` is where each call
can be, with what it has done by then; with `MutexOk` and `EntryOk` it is kept by every step of
every call, whatever ids the calls quote.
-/

namespace EmbeddedMongo.Android.Handles

open Conc

/-! ## Where a call can be -/

/-- A call and what it has done by then, given what has been issued. -/
inductive Legit (issued : List Issue) (i : Nat) : Call → Prop where
  | start (op : Op) : Legit issued i ⟨op, .start, none, false, []⟩
  | locked (op : Op) : Legit issued i ⟨op, .locked, none, false, []⟩
  | allocated {e : Nat} {id : HandleId} (h : issued[e]? = some ⟨id, i⟩) :
      Legit issued i ⟨.insert, .allocated (some id), none, false, []⟩
  | issued {e : Nat} {id : HandleId} (h : issued[e]? = some ⟨id, i⟩) :
      Legit issued i ⟨.insert, .returned (.issued id), none, false, []⟩
  | exhausted (unissued : ∀ issue ∈ issued, issue.client ≠ i) :
      Legit issued i ⟨.insert, .allocated none, none, false, []⟩
  | spent (unissued : ∀ issue ∈ issued, issue.client ≠ i) : Legit issued i ⟨.insert, .spent, none, false, []⟩
  | spentClosing (unissued : ∀ issue ∈ issued, issue.client ≠ i) :
      Legit issued i ⟨.insert, .engine i, none, false, [.close i]⟩
  | spentLeaving {outcome : Outcome} (unissued : ∀ issue ∈ issued, issue.client ≠ i) :
      Legit issued i ⟨.insert, .leaving outcome, none, false, [.close i]⟩
  | spentReturned {outcome : Outcome} (unissued : ∀ issue ∈ issued, issue.client ≠ i) :
      Legit issued i ⟨.insert, .returned outcome, none, false, [.close i]⟩
  | missed {op : Op} {id : HandleId} {known : Bool} (hid : op.id = some id) :
      Legit issued i ⟨op, .looked, none, known, []⟩
  | missedReturned {op : Op} {id : HandleId} {known : Bool} (hid : op.id = some id) :
      Legit issued i ⟨op, .returned (.failed (closed id)), none, known, []⟩
  | found {op : Op} {e : Nat} {issue : Issue} {known : Bool} (he : issued[e]? = some issue)
      (hid : op.id = some issue.id) : Legit issued i ⟨op, .looked, some e, known, []⟩
  | waiting {op : Op} {e : Nat} {issue : Issue} {known : Bool} (he : issued[e]? = some issue)
      (hid : op.id = some issue.id) : Legit issued i ⟨op, .waiting, some e, known, []⟩
  | guarded {op : Op} {e : Nat} {issue : Issue} {known : Bool} (he : issued[e]? = some issue)
      (hid : op.id = some issue.id) : Legit issued i ⟨op, .guarded, some e, known, []⟩
  | engine {op : Op} {e : Nat} {issue : Issue} {known : Bool} (he : issued[e]? = some issue)
      (hid : op.id = some issue.id) :
      Legit issued i ⟨op, .engine issue.client, some e, known, [op.asks issue.client]⟩
  | leaving {op : Op} {e : Nat} {issue : Issue} {known : Bool} {answer : Answer} (he : issued[e]? = some issue)
      (hid : op.id = some issue.id) :
      Legit issued i ⟨op, .leaving (.engine answer), some e, known, [op.asks issue.client]⟩
  | returned {op : Op} {e : Nat} {issue : Issue} {known : Bool} {answer : Answer} (he : issued[e]? = some issue)
      (hid : op.id = some issue.id) :
      Legit issued i ⟨op, .returned (.engine answer), some e, known, [op.asks issue.client]⟩
  | refused {e : Nat} {issue : Issue} {known : Bool} (he : issued[e]? = some issue) :
      Legit issued i ⟨.runCommand issue.id, .leaving (.failed (closed issue.id)), some e, known, []⟩
  | refusedReturned {e : Nat} {issue : Issue} {known : Bool} (he : issued[e]? = some issue) :
      Legit issued i ⟨.runCommand issue.id, .returned (.failed (closed issue.id)), some e, known, []⟩

/-- A handle issued to somebody else leaves a call's story as it is. -/
theorem Legit.issue {issued : List Issue} {i : Nat} {c : Call} (h : Legit issued i c) {issue : Issue}
    (other : issue.client ≠ i) : Legit (issued ++ [issue]) i c := by
  have unissued' (unissued : ∀ issue ∈ issued, issue.client ≠ i) :
      ∀ issue' ∈ issued ++ [issue], issue'.client ≠ i :=
    List.forall_mem_append.2 ⟨unissued, by simpa using other⟩
  cases h with
  | start op => exact .start op
  | locked op => exact .locked op
  | allocated h => exact .allocated (getElem?_append_of_eq_some h)
  | issued h => exact .issued (getElem?_append_of_eq_some h)
  | exhausted unissued => exact .exhausted (unissued' unissued)
  | spent unissued => exact .spent (unissued' unissued)
  | spentClosing unissued => exact .spentClosing (unissued' unissued)
  | spentLeaving unissued => exact .spentLeaving (unissued' unissued)
  | spentReturned unissued => exact .spentReturned (unissued' unissued)
  | missed hid => exact .missed hid
  | missedReturned hid => exact .missedReturned hid
  | found he hid => exact .found (getElem?_append_of_eq_some he) hid
  | waiting he hid => exact .waiting (getElem?_append_of_eq_some he) hid
  | guarded he hid => exact .guarded (getElem?_append_of_eq_some he) hid
  | engine he hid => exact .engine (getElem?_append_of_eq_some he) hid
  | leaving he hid => exact .leaving (getElem?_append_of_eq_some he) hid
  | returned he hid => exact .returned (getElem?_append_of_eq_some he) hid
  | refused he => exact .refused (getElem?_append_of_eq_some he)
  | refusedReturned he => exact .refusedReturned (getElem?_append_of_eq_some he)

/-- The `insert` of an issue. -/
def Call.hasIssued (c : Call) : Bool :=
  match c.op, c.pc with
  | .insert, .allocated (some _) | .insert, .returned (.issued _) => true
  | _, _ => false

/-! ## The invariant -/

/-- All that holds of the registry: who has its mutex, what each call may have done, and for each
entry who holds it. -/
structure Inv (s : Registry) : Prop where
  mutex : MutexOk s.calls s.holder
  legit : ∀ (i : Nat) (c : Call), s.calls[i]? = some c → Legit s.issued i c
  aligned : s.heap.length = s.issued.length
  mapped : ∀ (id : HandleId) (e : Nat), s.entries id = some e → ∃ issue, s.issued[e]? = some issue ∧ issue.id = id
  past : s.counter.Past (s.issued.map (·.id))
  ids : (s.issued.map (·.id)).Nodup
  clients : (s.issued.map (·.client)).Nodup
  inserters : ∀ issue ∈ s.issued, ∃ c, s.calls[issue.client]? = some c ∧ c.hasIssued = true
  /-- An id a call of `close` knew is not in the map any more, and never again. -/
  gone : ∀ (i : Nat) (c : Call) (id : HandleId), s.calls[i]? = some c → c.op = .close id → c.known = true →
    s.entries id = none ∧ id ∈ s.issued.map (·.id)
  entry : ∀ (e : Nat) (issue : Issue) (entry : Entry), s.issued[e]? = some issue → s.heap[e]? = some entry →
    EntryOk s.calls s.entries e issue entry

theorem inv_new : Inv .new := by
  constructor
  · exact ⟨by simp [Registry.new], by simp [Registry.new]⟩
  all_goals simp [Registry.new, Counter.Past]

variable {s : Registry} {i : Nat} {c c' : Call}

/-- One call moves on, and issues nothing. -/
theorem Inv.move (h : Inv s) (hc : s.calls[i]? = some c) {counter : Counter} {entries : HandleId → Option Nat}
    {holder : Option Nat} {heap : List Entry}
    (mutex : MutexOk (s.calls.set i c') holder) (legit : Legit s.issued i c')
    (aligned : heap.length = s.heap.length) (mapped : ∀ (id : HandleId) (e : Nat), entries id = some e → s.entries id = some e)
    (past : counter.Past (s.issued.map (·.id))) (issued : c.hasIssued = true → c'.hasIssued = true)
    (gone : ∀ (id : HandleId), c'.op = .close id → c'.known = true → entries id = none ∧ id ∈ s.issued.map (·.id))
    (entry : ∀ (e : Nat) (issue : Issue) (entry : Entry), s.issued[e]? = some issue → heap[e]? = some entry →
      EntryOk (s.calls.set i c') entries e issue entry) :
    Inv ⟨counter, entries, holder, heap, s.calls.set i c', s.issued⟩ := by
  constructor
  · exact mutex
  · exact forall_getElem?_set (fun j c hj _ => h.legit j c hj) legit
  · exact aligned.trans h.aligned
  · intro id e he
    exact h.mapped id e (mapped id e he)
  · exact past
  · exact h.ids
  · exact h.clients
  · intro issue hissue
    obtain ⟨c₀, hc₀, hissued⟩ := h.inserters issue hissue
    by_cases hi : issue.client = i
    · rw [hi] at hc₀ ⊢
      rw [hc] at hc₀
      cases hc₀
      exact ⟨c', List.getElem?_set_self (List.getElem?_eq_some_iff.1 hc).1, issued hissued⟩
    · exact ⟨c₀, by rw [List.getElem?_set_ne (Ne.symm hi)]; exact hc₀, hissued⟩
  · intro j c₀ id hj
    revert id
    refine forall_getElem?_set (p := fun _ c₀ => ∀ id, c₀.op = .close id → c₀.known = true →
      entries id = none ∧ id ∈ s.issued.map (·.id)) ?_ gone j c₀ hj
    intro j c₀ hj _ id hop hknown
    obtain ⟨hnone, hmem⟩ := h.gone j c₀ id hj hop hknown
    refine ⟨?_, hmem⟩
    cases he : entries id with
    | none => rfl
    | some e =>
      rw [mapped id e he] at hnone
      cases hnone
  · exact entry

/-- A call moves on and leaves the map and the counter alone. -/
theorem Inv.stay (h : Inv s) (hc : s.calls[i]? = some c) {holder : Option Nat} {heap : List Entry}
    (mutex : MutexOk (s.calls.set i c') holder) (legit : Legit s.issued i c') (hop : c'.op = c.op)
    (hknown : c'.known = c.known) (issued : c.hasIssued = true → c'.hasIssued = true)
    (aligned : heap.length = s.heap.length)
    (entry : ∀ (e : Nat) (issue : Issue) (entry : Entry), s.issued[e]? = some issue → heap[e]? = some entry →
      EntryOk (s.calls.set i c') s.entries e issue entry) :
    Inv { s with holder := holder, heap := heap, calls := s.calls.set i c' } := by
  refine h.move hc mutex legit aligned (fun _ _ he => he) h.past issued ?_ entry
  intro id hclose hk
  exact h.gone i c id hc (hop ▸ hclose) (hknown ▸ hk)

/-- A call that counts alike before and after. -/
theorem Inv.alike (h : Inv s) (hc : s.calls[i]? = some c) (free : c'.pc.holds = c.pc.holds) (legit : Legit s.issued i c')
    (hop : c'.op = c.op) (hknown : c'.known = c.known) (issued : c.hasIssued = true → c'.hasIssued = true)
    (alike : ∀ e, Alike e c c') : Inv (s.put i c') := by
  refine h.stay hc (h.mutex.keep hc free) legit hop hknown issued rfl ?_
  intro e issue entry he hentry
  exact (h.entry e issue entry he hentry).move hc (alike e)

/-- A call moves on at its entry. -/
theorem Inv.within (h : Inv s) (hc : s.calls[i]? = some c) {e : Nat} {entry entry' : Entry} (he : c.entry = some e)
    (he' : c'.entry = some e) (hentry : s.heap[e]? = some entry) (free : c'.pc.holds = c.pc.holds)
    (legit : Legit s.issued i c') (hop : c'.op = c.op) (hknown : c'.known = c.known)
    (issued : c.hasIssued = true → c'.hasIssued = true)
    (ok : ∀ issue, s.issued[e]? = some issue → EntryOk s.calls s.entries e issue entry →
      EntryOk (s.calls.set i c') s.entries e issue entry') :
    Inv { s with heap := s.heap.set e entry', calls := s.calls.set i c' } := by
  refine h.stay hc (h.mutex.keep hc free) legit hop hknown issued (by simp) ?_
  intro e₁ issue entry₁ he₁ hentry₁
  by_cases hne : e = e₁
  · subst hne
    rw [List.getElem?_set_self (List.getElem?_eq_some_iff.1 hentry).1] at hentry₁
    cases hentry₁
    exact ok issue he₁ (h.entry e issue entry he₁ hentry)
  · rw [List.getElem?_set_ne hne] at hentry₁
    have alike : Alike e₁ c c' := alike_of_ne (by simpa [he] using hne) (by simpa [he'] using hne)
    exact (h.entry e₁ issue entry₁ he₁ hentry₁).move hc alike

/-- A call that stays at its entry changes nothing for the others. -/
theorem Inv.inPlace (h : Inv s) (hc : s.calls[i]? = some c) {e : Nat} {entry : Entry} (he : c.entry = some e)
    (he' : c'.entry = some e) (hentry : s.heap[e]? = some entry) (free : c'.pc.holds = c.pc.holds)
    (legit : Legit s.issued i c') (hop : c'.op = c.op) (hknown : c'.known = c.known)
    (issued : c.hasIssued = true → c'.hasIssued = true)
    (ok : ∀ issue, s.issued[e]? = some issue → EntryOk s.calls s.entries e issue entry →
      EntryOk (s.calls.set i c') s.entries e issue entry) : Inv (s.put i c') := by
  have inv := h.within hc he he' hentry free legit hop hknown issued ok
  obtain ⟨hlt, hget⟩ := List.getElem?_eq_some_iff.1 hentry
  have same : s.heap.set e entry = s.heap := by rw [← hget, List.set_getElem_self]
  rwa [same] at inv

/-- Every handle that was issued has an entry on the heap. -/
theorem Inv.exists_entry (h : Inv s) {e : Nat} {issue : Issue} (hissue : s.issued[e]? = some issue) :
    ∃ entry, s.heap[e]? = some entry := by
  obtain ⟨hlt, -⟩ := List.getElem?_eq_some_iff.1 hissue
  rw [← h.aligned] at hlt
  exact ⟨s.heap[e], List.getElem?_eq_getElem hlt⟩

/-! ## What each step keeps -/

theorem Inv.call (h : Inv s) (op : Op) : Inv { s with calls := s.calls ++ [.begin op] } := by
  constructor
  · exact h.mutex.call op
  · exact forall_getElem?_append h.legit (.start op)
  · exact h.aligned
  · exact h.mapped
  · exact h.past
  · exact h.ids
  · exact h.clients
  · intro issue hissue
    obtain ⟨c, hc, hissued⟩ := h.inserters issue hissue
    exact ⟨c, getElem?_append_of_eq_some hc, hissued⟩
  · intro j c id hj
    revert id
    refine forall_getElem?_append (p := fun _ c => ∀ id, c.op = .close id → c.known = true → s.entries id = none ∧
      id ∈ s.issued.map (·.id)) ?_ (by simp [Call.begin]) j c hj
    intro j c hj id
    exact h.gone j c id hj
  · intro e issue entry he hentry
    exact (h.entry e issue entry he hentry).call op

/-- A call gets the mutex of the map. -/
theorem Inv.lock (h : Inv s) (hc : s.calls[i]? = some c) (hpc : c.pc = .start) (free : s.holder = none) :
    Inv ({ s with holder := some i }.put i (c.move .locked)) := by
  cases h.legit i c hc <;> cases hpc
  rename_i op
  have mutex := h.mutex
  rw [free] at mutex
  refine h.stay hc (mutex.lock hc rfl) (.locked op) rfl rfl (by simp [Call.hasIssued]) rfl ?_
  intro e issue entry he hentry
  exact (h.entry e issue entry he hentry).move hc (alike_of_ne (by simp) (by simp [Call.move]))

/-- It gives the mutex back. -/
theorem Inv.unlock (h : Inv s) (hc : s.calls[i]? = some c) {pc : Pc} (hpc : c.unlocked = some pc) :
    Inv ({ s with holder := none }.put i (c.move pc)) := by
  have leave (holds : c.pc.holds = true) (released : pc.holds = false) (legit : Legit s.issued i (c.move pc))
      (issued : c.hasIssued = true → (c.move pc).hasIssued = true) (alike : ∀ e, Alike e c (c.move pc)) :
      Inv ({ s with holder := none }.put i (c.move pc)) := by
    refine h.stay hc (h.mutex.unlock hc holds released) legit rfl rfl issued rfl ?_
    intro e issue entry he hentry
    exact (h.entry e issue entry he hentry).move hc (alike e)
  cases h.legit i c hc with
  | allocated hissue =>
    cases hpc
    exact leave rfl rfl (.issued hissue) (fun _ => rfl) fun e => alike_of_ne (by simp) (by simp [Call.move])
  | exhausted unissued =>
    cases hpc
    exact leave rfl rfl (.spent unissued) (by simp [Call.hasIssued]) fun e => alike_of_ne (by simp) (by simp [Call.move])
  | @missed op id known hid =>
    simp only [Call.unlocked, hid] at hpc
    cases hpc
    exact leave rfl rfl (.missedReturned hid) (by simp [Call.hasIssued])
      fun e => alike_of_ne (by simp) (by simp [Call.move])
  | @found op e issue known he hid =>
    simp only [Call.unlocked, hid] at hpc
    cases hpc
    refine leave rfl rfl (.waiting he hid) (by simp [Call.hasIssued]) fun e => alike_of_places rfl ?_ ?_ ?_ ?_ ?_
    all_goals simp [Call.move, removing, taking, reading, writing, running, Pc.past, Pc.inside, Pc.inEngine]
  | _ => simp [Call.unlocked] at hpc

theorem Inv.legit_guarded (h : Inv s) (hc : s.calls[i]? = some c) (hpc : c.pc = .waiting) :
    Legit s.issued i (c.move .guarded) := by
  cases h.legit i c hc <;> cases hpc
  exact .guarded ‹_› ‹_›

/-- A command is let in by the lock of its entry. -/
theorem Inv.read (h : Inv s) (hc : s.calls[i]? = some c) {e : Nat} {id : HandleId} {entry : Entry}
    (hpc : c.pc = .waiting) (hop : c.op = .runCommand id) (he : c.entry = some e) (hentry : s.heap[e]? = some entry)
    (free : entry.lock.admitsReader = true) :
    Inv ((s.relock e entry entry.lock.read).put i (c.move .guarded)) := by
  refine h.within hc he he hentry (by rw [hpc]; rfl) (h.legit_guarded hc hpc) rfl rfl (by simp [Call.hasIssued, hop]) ?_
  intro issue _ ok
  exact ok.read hc he he rfl hop hpc rfl free

/-- A close is let in. -/
theorem Inv.write (h : Inv s) (hc : s.calls[i]? = some c) {e : Nat} {id : HandleId} {entry : Entry}
    (hpc : c.pc = .waiting) (hop : c.op = .close id) (he : c.entry = some e) (hentry : s.heap[e]? = some entry)
    (free : entry.lock.admitsWriter = true) :
    Inv ((s.relock e entry entry.lock.write).put i (c.move .guarded)) := by
  refine h.within hc he he hentry (by rw [hpc]; rfl) (h.legit_guarded hc hpc) rfl rfl (by simp [Call.hasIssued, hop]) ?_
  intro issue _ ok
  exact ok.write hc he he rfl hop hpc rfl free

/-- The slot is empty for commands only: a `close` that is inside finds the client there. -/
theorem Inv.refuse (h : Inv s) (hc : s.calls[i]? = some c) {e : Nat} {id : HandleId} {entry : Entry}
    (hpc : c.pc = .guarded) (hid : c.op.id = some id) (he : c.entry = some e) (hentry : s.heap[e]? = some entry)
    (empty : entry.client = none) : Inv (s.put i (c.move (.leaving (.failed (closed id))))) := by
  cases h.legit i c hc <;> cases hpc
  rename_i op e issue known hissue hid'
  cases he
  cases Option.some.inj (hid.symm.trans hid')
  cases op with
  | insert => cases hid
  | runCommand id =>
    cases hid
    exact h.alike hc rfl (.refused hissue) rfl rfl (by simp [Call.hasIssued])
      fun e => alike_of_places rfl rfl rfl rfl rfl rfl
  | close id =>
    have ok := h.entry e issue entry hissue hentry
    have hfull := ok.full hc (weight_of_eq rfl) (weight_of_eq rfl)
    have hslot := ok.slot
    rw [if_pos hfull, empty] at hslot
    cases hslot

/-- The client in a slot is the one the entry was made for. -/
theorem Inv.client_eq (h : Inv s) {e client : Nat} {issue : Issue} {entry : Entry} (hissue : s.issued[e]? = some issue)
    (hentry : s.heap[e]? = some entry) (slot : entry.client = some client) : client = issue.client := by
  have hslot := (h.entry e issue entry hissue hentry).slot
  rw [slot] at hslot
  split at hslot
  · exact Option.some.inj hslot
  · cases hslot

theorem Inv.legit_enter (h : Inv s) (hc : s.calls[i]? = some c) {e client : Nat} {entry : Entry}
    (hpc : c.pc = .guarded) (he : c.entry = some e) (hentry : s.heap[e]? = some entry)
    (slot : entry.client = some client) : Legit s.issued i (c.enter client) := by
  cases h.legit i c hc <;> cases hpc
  rename_i op e issue known hissue hid
  cases he
  rw [h.client_eq hissue hentry slot]
  exact .engine hissue hid

/-- A command that finds the client asks the engine. -/
theorem Inv.command (h : Inv s) (hc : s.calls[i]? = some c) {e client : Nat} {id : HandleId} {entry : Entry}
    (hpc : c.pc = .guarded) (hop : c.op = .runCommand id) (he : c.entry = some e) (hentry : s.heap[e]? = some entry)
    (slot : entry.client = some client) : Inv (s.put i (c.enter client)) := by
  have legit := h.legit_enter hc hpc he hentry slot
  refine h.inPlace hc he he hentry (by rw [hpc]; rfl) legit rfl rfl (by simp [Call.hasIssued, hop]) ?_
  intro issue _ ok
  exact ok.command hc he he rfl hop hpc rfl slot

/-- A close that finds the client takes it and asks the engine to close it. -/
theorem Inv.shutdown (h : Inv s) (hc : s.calls[i]? = some c) {e client : Nat} {id : HandleId} {entry : Entry}
    (hpc : c.pc = .guarded) (hop : c.op = .close id) (he : c.entry = some e) (hentry : s.heap[e]? = some entry)
    (slot : entry.client = some client) :
    Inv ({ s with heap := s.heap.set e { entry with client := none } }.put i (c.enter client)) := by
  have legit := h.legit_enter hc hpc he hentry slot
  refine h.within hc he he hentry (by rw [hpc]; rfl) legit rfl rfl (by simp [Call.hasIssued, hop]) ?_
  intro issue _ ok
  exact ok.shutdown hc he he rfl hop hpc rfl

/-- An open that got no handle closes its client. -/
theorem Inv.spent (h : Inv s) (hc : s.calls[i]? = some c) (hpc : c.pc = .spent) : Inv (s.put i (c.enter i)) := by
  cases h.legit i c hc <;> cases hpc
  rename_i unissued
  exact h.alike hc rfl (.spentClosing unissued) rfl rfl (by simp [Call.hasIssued])
    fun e => alike_of_ne (by simp) (by simp [Call.enter])

/-- The engine answers. -/
theorem Inv.answer (h : Inv s) (hc : s.calls[i]? = some c) {client : Nat} {outcome : Outcome} (answer : Answer)
    (hpc : c.pc = .engine client) (houtcome : c.op.outcome answer = some outcome) :
    Inv (s.put i (c.move (.leaving outcome))) := by
  cases h.legit i c hc <;> cases hpc
  · rename_i unissued
    exact h.alike hc rfl (.spentLeaving unissued) rfl rfl (by simp [Call.hasIssued])
      fun e => alike_of_ne (by simp) (by simp [Call.move])
  · rename_i op e issue known hissue hid
    have engine : ∃ answer, outcome = .engine answer := by
      cases op <;> cases answer <;> cases hid <;> cases houtcome <;> exact ⟨_, rfl⟩
    obtain ⟨answer', rfl⟩ := engine
    obtain ⟨entry, hentry⟩ := h.exists_entry hissue
    refine h.inPlace hc rfl rfl hentry rfl (.leaving hissue hid) rfl rfl (by simp [Call.hasIssued]) ?_
    intro issue _ ok
    exact ok.answer hc rfl rfl rfl rfl rfl

/-- What a call of an id leaves with, it returns. -/
theorem Inv.legit_returned (h : Inv s) (hc : s.calls[i]? = some c) {e : Nat} {outcome : Outcome}
    (hpc : c.pc = .leaving outcome) (he : c.entry = some e) : Legit s.issued i (c.move (.returned outcome)) := by
  cases h.legit i c hc <;> cases hpc
  · cases he
  · exact .returned ‹_› ‹_›
  · exact .refusedReturned ‹_›

/-- A command gives the lock of its entry back. -/
theorem Inv.releaseRead (h : Inv s) (hc : s.calls[i]? = some c) {e : Nat} {id : HandleId} {outcome : Outcome}
    {entry : Entry} (hpc : c.pc = .leaving outcome) (hop : c.op = .runCommand id) (he : c.entry = some e)
    (hentry : s.heap[e]? = some entry) :
    Inv ((s.relock e entry entry.lock.releaseRead).put i (c.move (.returned outcome))) := by
  refine h.within hc he he hentry (by rw [hpc]; rfl) (h.legit_returned hc hpc he) rfl rfl (by simp [Call.hasIssued, hop]) ?_
  intro issue _ ok
  exact ok.releaseRead hc he he rfl hop hpc rfl

/-- So does a close. -/
theorem Inv.releaseWrite (h : Inv s) (hc : s.calls[i]? = some c) {e : Nat} {id : HandleId} {outcome : Outcome}
    {entry : Entry} (hpc : c.pc = .leaving outcome) (hop : c.op = .close id) (he : c.entry = some e)
    (hentry : s.heap[e]? = some entry) :
    Inv ((s.relock e entry entry.lock.releaseWrite).put i (c.move (.returned outcome))) := by
  refine h.within hc he he hentry (by rw [hpc]; rfl) (h.legit_returned hc hpc he) rfl rfl (by simp [Call.hasIssued, hop]) ?_
  intro issue _ ok
  exact ok.releaseWrite hc he he rfl hop hpc rfl

theorem Inv.returned (h : Inv s) (hc : s.calls[i]? = some c) {outcome : Outcome} (hpc : c.pc = .leaving outcome)
    (hop : c.op = .insert) : Inv (s.put i (c.move (.returned outcome))) := by
  cases h.legit i c hc <;> cases hpc
  · rename_i unissued
    exact h.alike hc rfl (.spentReturned unissued) rfl rfl (by simp [Call.hasIssued])
      fun e => alike_of_ne (by simp) (by simp [Call.move])
  · rename_i hid
    cases hop
    cases hid
  · cases hop

/-! ### Under the registry's mutex -/

theorem Inv.locked (h : Inv s) (hc : s.calls[i]? = some c) (hpc : c.pc = .locked) :
    ∃ op, c = ⟨op, .locked, none, false, []⟩ := by
  cases h.legit i c hc <;> cases hpc
  exact ⟨_, rfl⟩

/-- A call that is only now in its section has issued nothing. -/
theorem Inv.unissued (h : Inv s) (hc : s.calls[i]? = some c) (hpc : c.pc = .locked) :
    ∀ issue ∈ s.issued, issue.client ≠ i := by
  intro issue hissue hclient
  obtain ⟨c₀, hc₀, hissued⟩ := h.inserters issue hissue
  rw [hclient, hc] at hc₀
  cases hc₀
  simp [Call.hasIssued, hpc] at hissued

/-- What a lookup in the map finds was made for the id that is looked for. -/
theorem Inv.legit_looked (h : Inv s) {op : Op} {id : HandleId} (hid : op.id = some id) (known : Bool) :
    Legit s.issued i ⟨op, .looked, s.entries id, known, []⟩ := by
  cases he : s.entries id with
  | none => exact .missed hid
  | some e =>
    obtain ⟨issue, hissue, rfl⟩ := h.mapped id e he
    exact .found hissue hid

/-- What a command does under the mutex: it looks its handle up. -/
theorem Inv.runSection (h : Inv s) (id : HandleId) (hc : s.calls[i]? = some ⟨.runCommand id, .locked, none, false, []⟩) :
    Inv (s.put i ⟨.runCommand id, .looked, s.entries id, false, []⟩) := by
  refine h.stay hc (h.mutex.keep hc rfl) (h.legit_looked rfl false) rfl rfl (by simp [Call.hasIssued]) rfl ?_
  intro e issue entry he hentry
  refine (h.entry e issue entry he hentry).move hc ?_
  constructor <;> simp [weight, removing, taking, reading, writing, running, Op.isClose, Op.isRun, Pc.inside, Pc.inEngine]

/-- What a close does there: it removes its handle. -/
theorem Inv.closeSection (h : Inv s) (id : HandleId) (hc : s.calls[i]? = some ⟨.close id, .locked, none, false, []⟩) :
    Inv ({ s with entries := Function.update s.entries id none }.put i
      ⟨.close id, .looked, s.entries id, s.isIssued id, []⟩) := by
  refine h.move hc (h.mutex.keep hc rfl) (h.legit_looked rfl _) rfl ?_ h.past (by simp [Call.hasIssued]) ?_ ?_
  · intro id' e he
    dsimp only at he
    by_cases hid : id' = id
    · rw [hid, Function.update_self] at he
      cases he
    · rwa [Function.update_of_ne hid] at he
  · intro id' hop hknown
    cases hop
    refine ⟨Function.update_self _ _ _, ?_⟩
    simpa [Registry.isIssued] using hknown
  · intro e issue entry hissue hentry
    have ok := h.entry e issue entry hissue hentry
    have keep {p : Op → Pc → Bool} (hp : p (.close id) .looked = false) :
        count p e (s.calls.set i ⟨.close id, .looked, s.entries id, s.isIssued id, []⟩) = count p e s.calls :=
      count_set_same hc (by simp [weight, hp])
    constructor
    · have hset := count_set hc ⟨.close id, .looked, s.entries id, s.isIssued id, []⟩ removing e
      have hremoved := ok.removed
      by_cases hmap : s.entries id = some e
      · obtain ⟨issue', hissue', rfl⟩ := h.mapped id e hmap
        rw [hissue] at hissue'
        cases hissue'
        simp [weight, removing, Op.isClose, hmap] at hset hremoved ⊢
        omega
      · have hsame : (Function.update s.entries id none issue.id = some e) = (s.entries issue.id = some e) := by
          by_cases hid : issue.id = id
          · simp [hid, hmap]
          · rw [Function.update_of_ne hid]
        simp only [weight, hmap, if_false] at hset
        simp only [hsame]
        simp at hset
        omega
    · rw [keep rfl]
      exact ok.slot
    · rw [keep rfl, keep rfl]
      exact ok.lock
    · rw [keep rfl, keep rfl]
      exact ok.quiet

/-- What an open does there when the ids have run out. -/
theorem Inv.spentSection (h : Inv s) (hc : s.calls[i]? = some ⟨.insert, .locked, none, false, []⟩)
    {finish : UInt64} {counter : Counter} (htake : s.counter.takeNext finish = (none, counter)) :
    Inv ({ s with counter := counter }.put i ⟨.insert, .allocated none, none, false, []⟩) := by
  refine h.move hc (h.mutex.keep hc rfl) (.exhausted (h.unissued hc rfl)) rfl
    (fun _ _ he => he) (Counter.takeNext_none htake) (by simp [Call.hasIssued]) (by simp) ?_
  intro e issue entry he hentry
  exact (h.entry e issue entry he hentry).move hc (alike_of_ne (by simp) (by simp))

theorem count_eq_zero {calls : List Call} {p : Op → Pc → Bool} {e : Nat} (h : ∀ c ∈ calls, c.entry ≠ some e) :
    count p e calls = 0 :=
  tally_eq_zero.2 fun c hc => weight_of_ne (h c hc)

/-- A new entry is in the map, full and free, and nobody has heard of it. -/
theorem entryOk_new {calls : List Call} {entries : HandleId → Option Nat} {e : Nat} {id : HandleId}
    (h : ∀ c ∈ calls, c.entry ≠ some e) :
    EntryOk calls (Function.update entries id (some e)) e ⟨id, i⟩ ⟨.new, some i⟩ := by
  constructor
  · rw [count_eq_zero h, if_pos (Function.update_self _ _ _)]
  · rw [count_eq_zero h, if_pos rfl]
  · rw [count_eq_zero h, count_eq_zero h]
    exact RwLock.held_new
  · exact .inl (count_eq_zero h)

/-- A call knows only entries that were made. -/
theorem Legit.entry_lt {issued : List Issue} {e : Nat} (h : Legit issued i c) (he : c.entry = some e) :
    e < issued.length := by
  cases h <;> cases he
  all_goals exact (List.getElem?_eq_some_iff.1 ‹_›).1

/-- Nobody knows the entry that is made next. -/
theorem Inv.unheard (h : Inv s) : ∀ c ∈ s.calls, c.entry ≠ some s.heap.length := by
  intro c hmem hentry
  obtain ⟨j, hj⟩ := List.getElem?_of_mem hmem
  have hlt := (h.legit j c hj).entry_lt hentry
  rw [h.aligned] at hlt
  exact absurd hlt (Nat.lt_irrefl _)

theorem nodup_map_concat {α β : Type} {f : α → β} {l : List α} {a : α} (h : (l.map f).Nodup) (fresh : f a ∉ l.map f) :
    ((l ++ [a]).map f).Nodup := by
  rw [List.map_append, List.map_singleton, ← List.concat_eq_append]
  exact List.Nodup.concat fresh h

/-- The entries there were, and the new one, with a client nobody has heard of. -/
theorem Inv.entry_insert (h : Inv s) (hc : s.calls[i]? = some ⟨.insert, .locked, none, false, []⟩) {id : HandleId}
    (fresh : ∀ issue ∈ s.issued, issue.id ≠ id) {e : Nat} {issue : Issue} {entry : Entry}
    (hissue : (s.issued ++ [⟨id, i⟩])[e]? = some issue) (hentry : (s.heap ++ [⟨.new, some i⟩])[e]? = some entry) :
    EntryOk (s.calls.set i ⟨.insert, .allocated (some id), none, false, []⟩)
      (Function.update s.entries id (some s.heap.length)) e issue entry := by
  rw [List.getElem?_append] at hissue
  split at hissue
  · rename_i hlt
    rw [List.getElem?_append_left (h.aligned ▸ hlt)] at hentry
    have ok := (h.entry e issue entry hissue hentry).move hc
      (alike_of_ne (by simp) (by simp) : Alike e _ ⟨.insert, .allocated (some id), none, false, []⟩)
    exact ok.remap (Function.update_of_ne (fresh issue (List.mem_of_getElem? hissue)) _ _)
  · obtain ⟨hlt, -⟩ := List.getElem?_eq_some_iff.1 hissue
    simp only [List.length_singleton] at hlt
    obtain rfl : e = s.heap.length := by
      have := h.aligned
      omega
    simp only [h.aligned, Nat.sub_self] at hissue
    cases hissue
    simp only [List.getElem?_append_right (Nat.le_refl _), Nat.sub_self] at hentry
    cases hentry
    exact entryOk_new (forall_mem_set h.unheard (by simp))

/-- What an open does there: it makes an entry under a fresh id. -/
theorem Inv.insertSection (h : Inv s) (hc : s.calls[i]? = some ⟨.insert, .locked, none, false, []⟩)
    {finish : UInt64} {id : HandleId} {counter : Counter} (htake : s.counter.takeNext finish = (some id, counter)) :
    Inv ⟨counter, Function.update s.entries id (some s.heap.length), s.holder, s.heap ++ [⟨.new, some i⟩],
      s.calls.set i ⟨.insert, .allocated (some id), none, false, []⟩, s.issued ++ [⟨id, i⟩]⟩ := by
  have unissued := h.unissued hc rfl
  obtain ⟨hfresh, hpast⟩ := Counter.takeNext_past htake h.past
  have hlast : (s.issued ++ [⟨id, i⟩])[s.heap.length]? = some ⟨id, i⟩ := by simp [h.aligned]
  have differs : ∀ issue ∈ s.issued, issue.id ≠ id := by
    rintro issue hissue rfl
    exact hfresh (List.mem_map_of_mem hissue)
  constructor
  · exact h.mutex.keep hc rfl
  · refine forall_getElem?_set ?_ (.allocated hlast)
    intro j c hj hne
    exact (h.legit j c hj).issue (Ne.symm hne)
  · simp [h.aligned]
  · intro id' e he
    dsimp only at he
    by_cases hid : id' = id
    · rw [hid, Function.update_self] at he
      cases he
      exact ⟨⟨id, i⟩, hlast, hid.symm⟩
    · rw [Function.update_of_ne hid] at he
      obtain ⟨issue, hissue, heq⟩ := h.mapped id' e he
      exact ⟨issue, getElem?_append_of_eq_some hissue, heq⟩
  · simpa using hpast
  · exact nodup_map_concat h.ids hfresh
  · refine nodup_map_concat h.clients fun hmem => ?_
    obtain ⟨issue, hissue, hclient⟩ := List.mem_map.1 hmem
    exact unissued issue hissue hclient
  · intro issue hissue
    rcases List.mem_append.1 hissue with hissue | hissue
    · obtain ⟨c₀, hc₀, hissued⟩ := h.inserters issue hissue
      exact ⟨c₀, by rw [List.getElem?_set_ne (Ne.symm (unissued issue hissue))]; exact hc₀, hissued⟩
    · obtain rfl := List.mem_singleton.1 hissue
      exact ⟨_, List.getElem?_set_self (List.getElem?_eq_some_iff.1 hc).1, rfl⟩
  · intro j c₀ id' hj
    have old : ∀ (j : Nat) (c₀ : Call), (s.calls.set i ⟨.insert, .allocated (some id), none, false, []⟩)[j]? = some c₀ →
        ∀ id', c₀.op = .close id' → c₀.known = true → s.entries id' = none ∧ id' ∈ s.issued.map (·.id) :=
      forall_getElem?_set (fun j c₀ hj _ id' => h.gone j c₀ id' hj) (by simp)
    intro hop hknown
    obtain ⟨hnone, hmem⟩ := old j c₀ hj id' hop hknown
    obtain ⟨issue, hissue, rfl⟩ := List.mem_map.1 hmem
    refine ⟨?_, List.mem_map_of_mem (List.mem_append_left _ hissue)⟩
    exact (Function.update_of_ne (differs issue hissue) _ _).trans hnone
  · intro e issue entry hissue hentry
    exact h.entry_insert hc differs hissue hentry

/-- **What the section of a call keeps.** -/
theorem Inv.section_ (h : Inv s) (finish : UInt64) (hc : s.calls[i]? = some c) (hpc : c.pc = .locked) :
    Inv (s.section_ finish i c) := by
  obtain ⟨op, rfl⟩ := h.locked hc hpc
  cases op with
  | insert =>
    unfold Registry.section_
    dsimp only
    split
    · exact h.spentSection hc ‹_›
    · exact h.insertSection hc ‹_›
  | runCommand id => exact h.runSection id hc
  | close id => exact h.closeSection id hc

/-- Every step keeps it. -/
theorem Inv.step {finish : UInt64} {s' : Registry} {a : Registry.Act} (h : Inv s) (hs : Registry.Step finish s a s') :
    Inv s' := by
  cases hs with
  | call op => exact h.call op
  | lock hc hpc free => exact h.lock hc hpc free
  | section_ hc hpc => exact h.section_ finish hc hpc
  | unlock hc hpc => exact h.unlock hc hpc
  | read hc hpc hop he hentry free => exact h.read hc hpc hop he hentry free
  | write hc hpc hop he hentry free => exact h.write hc hpc hop he hentry free
  | refuse hc hpc hid he hentry empty => exact h.refuse hc hpc hid he hentry empty
  | command hc hpc hop he hentry slot => exact h.command hc hpc hop he hentry slot
  | shutdown hc hpc hop he hentry slot => exact h.shutdown hc hpc hop he hentry slot
  | spent hc hpc => exact h.spent hc hpc
  | answer answer hc hpc houtcome => exact h.answer hc answer hpc houtcome
  | releaseRead hc hpc hop he hentry => exact h.releaseRead hc hpc hop he hentry
  | releaseWrite hc hpc hop he hentry => exact h.releaseWrite hc hpc hop he hentry
  | returned hc hpc hop => exact h.returned hc hpc hop

theorem inv_of_reach {finish : UInt64} (h : (registry finish).Reach s) : Inv s := by
  refine h.induct ?_ ?_
  · rintro s rfl
    exact inv_new
  · intro s a s' _ ih hs
    exact ih.step hs

/-! ## What the calls come to -/

theorem eq_of_nodup_map {α β : Type} {f : α → β} {l : List α} {e e' : Nat} {a b : α} (h : (l.map f).Nodup)
    (he : l[e]? = some a) (he' : l[e']? = some b) (hf : f a = f b) : e = e' := by
  have hlt : e < (l.map f).length := by
    rw [List.length_map]
    exact (List.getElem?_eq_some_iff.1 he).1
  apply (List.getElem?_inj hlt h).1
  rw [List.getElem?_map, List.getElem?_map, he, he']
  simp [hf]

/-- A call with an entry quotes the id the entry was made for. -/
theorem Legit.entry_issue {issued : List Issue} {e : Nat} (h : Legit issued i c) (he : c.entry = some e) :
    ∃ issue, issued[e]? = some issue ∧ c.op.id = some issue.id := by
  cases h <;> cases he
  case refused | refusedReturned => exact ⟨_, ‹_›, rfl⟩
  all_goals exact ⟨_, ‹_›, ‹_›⟩

/-- Whoever has closed a client took it from the entry that was made for it, or never got an id
for it. -/
theorem Legit.made_close {issued : List Issue} {client : Nat} (h : Legit issued i c) (hmade : .close client ∈ c.made) :
    (∃ e issue, issued[e]? = some issue ∧ issue.client = client ∧ c.entry = some e ∧ taking c.op c.pc = true) ∨
    (client = i ∧ ∀ issue ∈ issued, issue.client ≠ i) := by
  have closes {op : Op} {issue : Issue} {e : Nat} {pc : Pc} (he : issued[e]? = some issue)
      (hid : op.id = some issue.id) (hpast : pc.past = true) (hmade : .close client ∈ [op.asks issue.client]) :
      ∃ e' issue', issued[e']? = some issue' ∧ issue'.client = client ∧ some e = some e' ∧ taking op pc = true := by
    have hasks := List.mem_singleton.1 hmade
    cases op with
    | insert => cases hid
    | runCommand id => cases hasks
    | close id =>
      cases hasks
      exact ⟨e, issue, he, rfl, rfl, hpast⟩
  cases h with
  | spentClosing unissued | spentLeaving unissued | spentReturned unissued =>
    right
    cases List.mem_singleton.1 hmade
    exact ⟨rfl, unissued⟩
  | engine he hid => exact .inl (closes he hid rfl hmade)
  | leaving he hid => exact .inl (closes he hid rfl hmade)
  | returned he hid => exact .inl (closes he hid rfl hmade)
  | _ => cases hmade

/-- A call makes one request of the engine at most. -/
theorem Legit.made_length {issued : List Issue} (h : Legit issued i c) : c.made.length ≤ 1 := by
  cases h <;> simp

/-- One call at most has removed an entry. -/
theorem Inv.remover_unique (h : Inv s) {e j : Nat} {issue : Issue} {c₁ : Call} (hissue : s.issued[e]? = some issue)
    (hc : s.calls[i]? = some c) (hc₁ : s.calls[j]? = some c₁) (he : c.entry = some e) (he₁ : c₁.entry = some e)
    (hclose : c.op.isClose = true) (hclose₁ : c₁.op.isClose = true) : i = j := by
  obtain ⟨entry, hentry⟩ := h.exists_entry hissue
  have hle := (h.entry e issue entry hissue hentry).count_removing_le
  by_contra hne
  have htwo := add_le_tally (weight removing e) hc hc₁ hne
  rw [weight_of_eq he, weight_of_eq he₁, removing, removing, hclose, hclose₁] at htwo
  have : 2 ≤ count removing e s.calls := htwo
  omega

/-- No client is closed by two calls. -/
theorem Inv.closer_unique (h : Inv s) {client j : Nat} {c₁ : Call} (hc : s.calls[i]? = some c)
    (hc₁ : s.calls[j]? = some c₁) (hmade : .close client ∈ c.made) (hmade₁ : .close client ∈ c₁.made) : i = j := by
  rcases (h.legit i c hc).made_close hmade with ⟨e, issue, hissue, hclient, he, htaking⟩ | ⟨rfl, unissued⟩ <;>
  rcases (h.legit j c₁ hc₁).made_close hmade₁ with ⟨e₁, issue₁, hissue₁, hclient₁, he₁, htaking₁⟩ | ⟨rfl, unissued₁⟩
  · obtain rfl := eq_of_nodup_map h.clients hissue hissue₁ (hclient.trans hclient₁.symm)
    exact h.remover_unique hissue hc hc₁ he he₁ (taking_removing _ _ htaking) (taking_removing _ _ htaking₁)
  · exact absurd hclient (unissued₁ issue (List.mem_of_getElem? hissue))
  · exact absurd hclient₁ (unissued issue₁ (List.mem_of_getElem? hissue₁))
  · rfl

/-- While a command is being run on a client, nobody has begun to close it. -/
theorem Inv.quiet (h : Inv s) {client : Nat} {id : HandleId} (hmem : c ∈ s.calls) (hop : c.op = .runCommand id)
    (hpc : c.pc = .engine client) (hmem' : c' ∈ s.calls) : .close client ∉ c'.made := by
  intro hmade
  obtain ⟨i, hc⟩ := List.getElem?_of_mem hmem
  obtain ⟨j, hc'⟩ := List.getElem?_of_mem hmem'
  obtain ⟨e, issue, hissue, hclient, he⟩ :
      ∃ e issue, s.issued[e]? = some issue ∧ issue.client = client ∧ c.entry = some e := by
    cases h.legit i c hc <;> cases hpc
    · cases hop
    · exact ⟨_, _, ‹_›, rfl, rfl⟩
  rcases (h.legit j c' hc').made_close hmade with ⟨e', issue', hissue', hclient', he', htaking⟩ | ⟨rfl, unissued⟩
  · obtain rfl := eq_of_nodup_map h.clients hissue hissue' (hclient.trans hclient'.symm)
    obtain ⟨entry, hentry⟩ := h.exists_entry hissue
    have hrunning : 0 < count running e s.calls := count_pos hc he (by rw [hop, hpc]; rfl)
    have htaken : 0 < count taking e s.calls := count_pos hc' he' htaking
    have := (h.entry e issue entry hissue hentry).quiet
    omega
  · exact absurd hclient (unissued issue (List.mem_of_getElem? hissue))

/-- Whoever counts as having removed an entry is a `close` that quotes the id it was made for. -/
theorem Inv.remover (h : Inv s) {e : Nat} {issue : Issue} (hissue : s.issued[e]? = some issue) (hc : s.calls[i]? = some c)
    (hweight : 0 < weight removing e c) : c.entry = some e ∧ c.op = .close issue.id := by
  have hentry : c.entry = some e := by
    by_contra hne
    rw [weight_of_ne hne] at hweight
    omega
  refine ⟨hentry, ?_⟩
  obtain ⟨issue', hissue', hid⟩ := (h.legit i c hc).entry_issue hentry
  rw [hissue] at hissue'
  cases hissue'
  rw [weight_of_eq hentry, removing] at hweight
  cases hop : c.op with
  | close id =>
    rw [hop] at hid
    exact congrArg Op.close (Option.some.inj hid)
  | insert | runCommand _ => simp [hop, Op.isClose] at hweight

/-- What the calls of `close` that quote an issued id come to. One of them removes the entry, as
soon as there is any that looked for the id once it was issued; that one reaches the client, and
the others fail. -/
structure ClosedOnce (s : Registry) (issue : Issue) : Prop where
  one : (∃ c ∈ s.calls, c.op = .close issue.id ∧ c.known = true) →
    ∃ i c, s.calls[i]? = some c ∧ c.op = .close issue.id ∧ c.entry.isSome = true ∧
      ∀ (j : Nat) (c' : Call), s.calls[j]? = some c' → c'.op = .close issue.id → c'.entry.isSome = true → j = i
  returned : ∀ c ∈ s.calls, c.op = .close issue.id → ∀ outcome, c.pc = .returned outcome →
    (c.entry.isSome = true ∧ c.made = [.close issue.client] ∧ ∃ answer, outcome = .engine answer) ∨
    (c.entry = none ∧ c.made = [] ∧ outcome = .failed (closed issue.id))

/-- A handle that was issued is closed once at most, and nothing is asked of its client later. -/
theorem Inv.closedOnce (h : Inv s) {issue : Issue} (hissue : issue ∈ s.issued) : ClosedOnce s issue := by
  obtain ⟨e, he⟩ := List.getElem?_of_mem hissue
  have same {e' : Nat} {issue' : Issue} (he' : s.issued[e']? = some issue') (hid : issue'.id = issue.id) : e' = e :=
    eq_of_nodup_map h.ids he' he hid
  constructor
  · rintro ⟨c₀, hmem, hop, hknown⟩
    obtain ⟨j, hj⟩ := List.getElem?_of_mem hmem
    obtain ⟨entry, hentry⟩ := h.exists_entry he
    have hremoved := (h.entry e issue entry he hentry).removed
    rw [(h.gone j c₀ issue.id hj hop hknown).1, if_neg (by simp)] at hremoved
    have hpos : 0 < tally (weight removing e) s.calls := by
      have : count removing e s.calls = 1 := hremoved
      unfold count at this
      omega
    obtain ⟨i, c, hc, hweight⟩ := exists_of_tally_pos hpos
    obtain ⟨hentry', hop⟩ := h.remover he hc hweight
    refine ⟨i, c, hc, hop, by simp [hentry'], ?_⟩
    intro j c' hc' hop' hsome
    obtain ⟨e', he'⟩ := Option.isSome_iff_exists.1 hsome
    obtain ⟨issue', hissue', hid'⟩ := (h.legit j c' hc').entry_issue he'
    rw [hop'] at hid'
    obtain rfl := same hissue' (Option.some.inj hid').symm
    exact h.remover_unique he hc' hc he' hentry' (by rw [hop']; rfl) (by rw [hop]; rfl)
  · intro c hmem hop outcome hpc
    obtain ⟨j, hj⟩ := List.getElem?_of_mem hmem
    cases h.legit j c hj <;> cases hpc <;> cases hop
    · rename_i hid
      cases hid
      exact .inr ⟨rfl, rfl, rfl⟩
    · rename_i issue' _ _ hissue' hid
      obtain rfl := same hissue' (Option.some.inj hid).symm
      rw [he] at hissue'
      cases hissue'
      exact .inl ⟨rfl, rfl, _, rfl⟩

/-- A client is closed once at most. -/
theorem Inv.closes_le_one (h : Inv s) (client : Nat) : tally (fun c => c.made.count (.close client)) s.calls ≤ 1 := by
  apply tally_le_one
  · intro c hmem
    obtain ⟨i, hc⟩ := List.getElem?_of_mem hmem
    exact Nat.le_trans List.count_le_length (h.legit i c hc).made_length
  · intro i j c c' hc hc' hpos hpos'
    exact h.closer_unique hc hc' (List.count_pos_iff.1 hpos) (List.count_pos_iff.1 hpos')

/-- No engine call is made under the registry's mutex. -/
theorem Inv.unheld (h : Inv s) {client : Nat} (hc : s.calls[i]? = some c) (hpc : c.pc = .engine client) :
    s.holder ≠ some i := by
  intro hholder
  obtain ⟨c₀, hc₀, hholds⟩ := h.mutex.held i hholder
  rw [hc] at hc₀
  cases hc₀
  rw [hpc] at hholds
  cases hholds

/-- **The registry never touches a closing client.** -/
theorem no_closing_client_is_touched {finish : UInt64} (h : (registry finish).Reach s) :
    (∀ client, tally (fun c => c.made.count (.close client)) s.calls ≤ 1) ∧
    (∀ issue ∈ s.issued, ClosedOnce s issue) ∧
    (∀ c ∈ s.calls, ∀ id client, c.op = .runCommand id → c.pc = .engine client →
      ∀ c' ∈ s.calls, .close client ∉ c'.made) ∧
    (s.issued.map (·.id)).Nodup ∧
    (∀ c ∈ s.calls, ∀ id outcome, c.op = .runCommand id → c.pc = .returned outcome →
      (∃ issue ∈ s.issued, issue.id = id ∧ c.made = [.runCommand issue.client] ∧ ∃ answer, outcome = .engine answer) ∨
      (c.made = [] ∧ outcome = .failed (closed id))) ∧
    (∀ i c client, s.calls[i]? = some c → c.pc = .engine client → s.holder ≠ some i) := by
  have inv := inv_of_reach h
  refine ⟨inv.closes_le_one, fun issue hissue => inv.closedOnce hissue, ?_, inv.ids, ?_, ?_⟩
  · intro c hmem id client hop hpc c' hmem' hmade
    exact inv.quiet hmem hop hpc hmem' hmade
  · intro c hmem id outcome hop hpc
    obtain ⟨i, hc⟩ := List.getElem?_of_mem hmem
    cases inv.legit i c hc <;> cases hpc <;> cases hop
    · rename_i hid
      cases hid
      exact .inr ⟨rfl, rfl⟩
    · rename_i issue _ _ hissue hid
      exact .inl ⟨issue, List.mem_of_getElem? hissue, (Option.some.inj hid).symm, rfl, _, rfl⟩
    · exact .inr ⟨rfl, rfl⟩
  · intro i c client hc hpc
    exact inv.unheld hc hpc

/-- A command is inside the engine; of two calls of `close`, one waits for it with the entry it has
removed, and the other has failed. -/
theorem no_closing_client_is_touched_of_two_closes :
    ∃ s id, (registry 0).Reach s ∧ s.calls.map (·.op) = [.insert, .runCommand id, .close id, .close id] ∧
      ClosedOnce s ⟨id, 0⟩ ∧ ∀ c ∈ s.calls, .close 0 ∉ c.made := by
  let id : HandleId := ⟨0x100000001, by decide⟩
  let mapped : HandleId → Option Nat := Function.update (fun _ => none) id (some 0)
  let issued : Call := ⟨.insert, .returned (.issued id), none, false, []⟩
  let command : Call := ⟨.runCommand id, .engine 0, some 0, false, [.runCommand 0]⟩
  let closing : Call := ⟨.close id, .waiting, some 0, true, []⟩
  have h : (registry 0).Reach .new := .init rfl
  replace h := h.next (Registry.Step.call .insert)
  replace h := h.next (Registry.Step.lock (i := 0) rfl rfl rfl)
  replace h := h.next (Registry.Step.section_ (i := 0) rfl rfl)
  replace h := h.next (Registry.Step.unlock (i := 0) rfl rfl)
  replace h : (registry 0).Reach ⟨.next 1 2, mapped, none, [⟨.new, some 0⟩], [issued], [⟨id, 0⟩]⟩ := h
  replace h := h.next (Registry.Step.call (.runCommand id))
  replace h := h.next (Registry.Step.lock (i := 1) rfl rfl rfl)
  replace h := h.next (Registry.Step.section_ (i := 1) rfl rfl)
  replace h := h.next (Registry.Step.unlock (i := 1) rfl rfl)
  replace h := h.next (Registry.Step.read (i := 1) (e := 0) rfl rfl rfl rfl rfl rfl)
  replace h := h.next (Registry.Step.command (i := 1) (e := 0) rfl rfl rfl rfl rfl rfl)
  replace h : (registry 0).Reach
      ⟨.next 1 2, mapped, none, [⟨⟨1, false⟩, some 0⟩], [issued, command], [⟨id, 0⟩]⟩ := h
  replace h := h.next (Registry.Step.call (.close id))
  replace h := h.next (Registry.Step.lock (i := 2) rfl rfl rfl)
  replace h := h.next (Registry.Step.section_ (i := 2) rfl rfl)
  replace h := h.next (Registry.Step.unlock (i := 2) rfl rfl)
  replace h : (registry 0).Reach ⟨.next 1 2, Function.update mapped id none, none, [⟨⟨1, false⟩, some 0⟩],
      [issued, command, closing], [⟨id, 0⟩]⟩ := h
  replace h := h.next (Registry.Step.call (.close id))
  replace h := h.next (Registry.Step.lock (i := 3) rfl rfl rfl)
  replace h := h.next (Registry.Step.section_ (i := 3) rfl rfl)
  replace h := h.next (Registry.Step.unlock (i := 3) rfl rfl)
  have touched := no_closing_client_is_touched h
  exact ⟨_, id, h, rfl, touched.2.1 ⟨id, 0⟩ (List.mem_singleton.2 rfl),
    touched.2.2.1 command (List.mem_of_getElem? (i := 1) rfl) id 0 rfl rfl⟩

end EmbeddedMongo.Android.Handles
