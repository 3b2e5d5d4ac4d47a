import EmbeddedMongo.Android.Closing

/-!
# The ids a process issues

A process has one tag and `2 ^ 32 - 1` sequence numbers under it. The `n`th `insert` to succeed is
given the `n`th of them, whatever is closed in between; once they are spent an `insert` closes the
client it was given and fails.
-/

namespace EmbeddedMongo.Android

open Conc

/-- All sequence numbers of a tag but zero. -/
def idsPerTag : Nat := 2 ^ 32 - 1

namespace Counter

variable {tag : Int64} {n : Nat}

/-- The counter of a process that has issued `n` ids. -/
def after (tag : Int64) (n : Nat) : Counter :=
  if n = 0 then .unstarted else if n < idsPerTag then .next tag (.ofNat (n + 1)) else .spent

theorem after_idsPerTag : after tag idsPerTag = .spent := by
  unfold after
  rw [if_neg (by decide), if_neg (Nat.lt_irrefl _)]

/-- The ids of a tag, one after another, each composed of the tag and its number. -/
theorem compose_after (low : 1 ≤ tag.toInt) (high : tag.toInt < 2 ^ 31) (few : n < idsPerTag) :
    ∃ id, compose tag (.ofNat (n + 1)) = (some id, after tag (n + 1)) ∧
      id.raw.toInt = tag.toInt * 2 ^ 32 + (n + 1) := by
  unfold idsPerTag at few
  have hnumber : (UInt32.ofNat (n + 1)).toNat = n + 1 := by
    rw [UInt32.toNat_ofNat', Nat.mod_eq_of_lt (by omega)]
  obtain ⟨id, hid, hraw⟩ := HandleId.fromParts_toInt low high (.ofNat (n + 1))
  rw [hnumber] at hraw
  refine ⟨id, ?_, hraw⟩
  unfold compose
  dsimp only
  by_cases hlast : n + 1 = idsPerTag
  · -- the last one there is
    have hsuccessor : successor (.ofNat (n + 1)) = none := by rw [hlast]; rfl
    rw [hid, hsuccessor, hlast, after_idsPerTag]
  · have hmax : UInt32.ofNat (n + 1) ≠ 0xffffffff := by
      intro heq
      rw [heq] at hnumber
      exact hlast hnumber.symm
    have hsuccessor : successor (.ofNat (n + 1)) = some (.ofNat (n + 1 + 1)) := by
      unfold successor
      rw [if_neg hmax, UInt32.ofNat_add (n + 1)]
      rfl
    have hafter : after tag (n + 1) = .next tag (.ofNat (n + 1 + 1)) := by
      unfold after
      rw [if_neg (Nat.succ_ne_zero n), if_pos (by unfold idsPerTag at hlast ⊢; omega)]
    rw [hid, hsuccessor, hafter]

/-- Until they are spent, the next id is the next number under the tag. -/
theorem takeNext_after {finish : UInt64} (drawn : processTag finish = tag) (few : n < idsPerTag) :
    ∃ id, (after tag n).takeNext finish = (some id, after tag (n + 1)) ∧
      id.raw.toInt = tag.toInt * 2 ^ 32 + (n + 1) := by
  obtain ⟨low, high⟩ := processTag_range finish
  rw [drawn] at low high
  have hcompose := compose_after low high few
  by_cases hzero : n = 0
  · subst hzero
    rw [← drawn] at hcompose ⊢
    exact hcompose
  · have hafter : after tag n = .next tag (.ofNat (n + 1)) := by
      unfold after
      rw [if_neg hzero, if_pos few]
    rw [hafter]
    exact hcompose

end Counter

namespace Handles

variable {tag : Int64} {finish : UInt64} {s s' : Registry} {i : Nat} {c : Call}

/-! ## The ids are numbered -/

/-- What has been issued is the first numbers under the tag, in order. -/
structure Numbered (tag : Int64) (s : Registry) : Prop where
  counter : s.counter = .after tag s.issued.length
  few : s.issued.length ≤ idsPerTag
  number : ∀ (e : Nat) (issue : Issue), s.issued[e]? = some issue → issue.id.raw.toInt = tag.toInt * 2 ^ 32 + (e + 1)

/-- An open under the mutex, with an id to give. -/
theorem section_issues (hop : c.op = .insert) {id : HandleId} {counter : Counter}
    (hnext : s.counter.takeNext finish = (some id, counter)) :
    s.section_ finish i c =
      { s with
        counter := counter
        entries := Function.update s.entries id (some s.heap.length)
        heap := s.heap ++ [⟨.new, some i⟩]
        calls := s.calls.set i (c.move (.allocated (some id)))
        issued := s.issued ++ [⟨id, i⟩] } := by
  unfold Registry.section_
  rw [hop]
  dsimp only
  rw [hnext]

/-- An open under the mutex, with none left. -/
theorem section_refuses (hop : c.op = .insert) {counter : Counter}
    (hnext : s.counter.takeNext finish = (none, counter)) :
    s.section_ finish i c = { s with counter := counter }.put i (c.move (.allocated none)) := by
  unfold Registry.section_
  rw [hop]
  dsimp only
  rw [hnext]

/-- After the last id of the tag there is none. -/
theorem Numbered.takeNext_spent (h : Numbered tag s) (hall : s.issued.length = idsPerTag) :
    s.counter.takeNext finish = (none, .spent) := by
  rw [h.counter, hall, Counter.after_idsPerTag]
  rfl

/-- The section keeps the numbering. -/
theorem Numbered.section_ (drawn : processTag finish = tag) (h : Numbered tag s) :
    Numbered tag (s.section_ finish i c) := by
  cases hop : c.op with
  | runCommand id | close id =>
    unfold Registry.section_
    rw [hop]
    exact ⟨h.counter, h.few, h.number⟩
  | insert =>
    by_cases hfew : s.issued.length < idsPerTag
    · obtain ⟨id, hnext, hraw⟩ := Counter.takeNext_after drawn hfew
      rw [← h.counter] at hnext
      rw [section_issues hop hnext]
      refine ⟨?_, ?_, ?_⟩
      · simp
      · simp only [List.length_append, List.length_singleton]
        omega
      · exact forall_getElem?_append h.number hraw
    · have hall : s.issued.length = idsPerTag := Nat.le_antisymm h.few (Nat.le_of_not_lt hfew)
      rw [section_refuses hop (h.takeNext_spent hall)]
      refine ⟨?_, h.few, h.number⟩
      show Counter.spent = .after tag s.issued.length
      rw [hall, Counter.after_idsPerTag]

/-- Every run is numbered. -/
theorem numbered_of_reach (drawn : processTag finish = tag) (h : (registry finish).Reach s) : Numbered tag s := by
  apply h.induct
  · rintro s rfl
    exact ⟨rfl, Nat.zero_le _, by simp [Registry.new]⟩
  · intro s a s' _ h hs
    cases hs with
    | section_ hc hpc => exact h.section_ drawn
    | _ => exact ⟨h.counter, h.few, h.number⟩

/-- Ids grow as they are issued. -/
theorem Numbered.increasing (h : Numbered tag s) : (s.issued.map (·.id.raw)).Pairwise (· < ·) := by
  rw [List.pairwise_map, List.pairwise_iff_getElem]
  intro e e' he he' hlt
  have hfirst := h.number e _ (List.getElem?_eq_getElem he)
  have hsecond := h.number e' _ (List.getElem?_eq_getElem he')
  rw [Int64.lt_iff_toInt_lt]
  omega

/-- The number of an id says which tag it was issued under. -/
theorem Numbered.tagged (h : Numbered tag s) {issue : Issue} (hissue : issue ∈ s.issued) :
    issue.id.raw.toInt / 2 ^ 32 = tag.toInt ∧ tag.toInt * 2 ^ 32 < issue.id.raw.toInt := by
  obtain ⟨e, he⟩ := List.getElem?_of_mem hissue
  have hnumber := h.number e issue he
  obtain ⟨hlt, -⟩ := List.getElem?_eq_some_iff.1 he
  have hfew := h.few
  unfold idsPerTag at hfew
  omega

/-! ## An `insert` without an id -/

/-- How an `insert` without an id ends: with the report of its own close of the client. -/
def Spent (outcome : Outcome) : Prop := (∃ result, outcome = .failed (spent result)) ∨ outcome = .engine .panicked

/-- An `insert` that has made its close ends that way. -/
def EndsSpent (c : Call) : Prop :=
  c.op = .insert → ∀ outcome, c.pc = .leaving outcome ∨ c.pc = .returned outcome ∧ c.made ≠ [] → Spent outcome

theorem endsSpent_of_op {c : Call} (h : c.op ≠ .insert) : EndsSpent c := fun hop => absurd hop h

theorem endsSpent_of_pc {c : Call} (h : ∀ outcome, c.pc ≠ .leaving outcome ∧ c.pc ≠ .returned outcome) : EndsSpent c := by
  rintro - outcome (hpc | ⟨hpc, -⟩)
  · exact absurd hpc (h outcome).1
  · exact absurd hpc (h outcome).2

/-- An open that is refused an id ends as such. -/
theorem EndsSpent.section_ (h : ∀ c ∈ s.calls, EndsSpent c) : ∀ c' ∈ (s.section_ finish i c).calls, EndsSpent c' := by
  unfold Registry.section_
  split
  · split <;> exact forall_mem_set h (endsSpent_of_pc fun _ => ⟨nofun, nofun⟩)
  · exact forall_mem_set h (endsSpent_of_pc fun _ => ⟨nofun, nofun⟩)
  · exact forall_mem_set h (endsSpent_of_pc fun _ => ⟨nofun, nofun⟩)

/-- Whoever is under the mutex has made no engine call yet. -/
theorem Legit.unlock {issued : List Issue} {pc : Pc} (h : Legit issued i c) (hpc : c.unlocked = some pc) :
    EndsSpent (c.move pc) := by
  rintro (hop : c.op = .insert) outcome hends
  cases h with
  | allocated _ | exhausted _ =>
    cases hpc
    rcases hends with hleaving | ⟨-, hmade⟩
    · cases hleaving
    · exact absurd rfl hmade
  | missed hid | found _ hid =>
    cases hop
    cases hid
  | _ => cases hpc

theorem endsSpent_answer {answer : Answer} {outcome : Outcome} (houtcome : c.op.outcome answer = some outcome) :
    EndsSpent (c.move (.leaving outcome)) := by
  rintro (hop : c.op = .insert) outcome' (hleaving | ⟨hreturned, -⟩)
  · cases hleaving
    rw [hop] at houtcome
    cases answer with
    | replied response => cases houtcome
    | closed result =>
      cases houtcome
      exact .inl ⟨result, rfl⟩
    | panicked =>
      cases houtcome
      exact .inr rfl
  · cases hreturned

/-- So it is in every run. -/
theorem endsSpent_of_reach (h : (registry finish).Reach s) : ∀ c ∈ s.calls, EndsSpent c := by
  refine System.Reach.induct (I := fun s => ∀ c ∈ s.calls, EndsSpent c) ?_ ?_ h
  · rintro s rfl c hc
    cases hc
  · intro s a s' hr ih hs
    cases hs with
    | call op => exact List.forall_mem_append.2 ⟨ih, List.forall_mem_singleton.2 (endsSpent_of_pc fun _ => ⟨nofun, nofun⟩)⟩
    | section_ => exact EndsSpent.section_ ih
    | unlock hc hpc => exact forall_mem_set ih (((inv_of_reach hr).legit _ _ hc).unlock hpc)
    | lock | read | write | command | shutdown | spent =>
      exact forall_mem_set ih (endsSpent_of_pc fun _ => ⟨nofun, nofun⟩)
    | @refuse i e c id entry hc hpc hid =>
      apply forall_mem_set ih
      apply endsSpent_of_op
      rintro (hop : c.op = .insert)
      rw [hop] at hid
      cases hid
    | answer answer hc hpc houtcome => exact forall_mem_set ih (endsSpent_answer houtcome)
    | releaseRead hc hpc hop | releaseWrite hc hpc hop =>
      exact forall_mem_set ih (endsSpent_of_op (by simp [Call.move, hop]))
    | returned hc hpc hop =>
      apply forall_mem_set ih
      rintro - outcome (hleaving | ⟨hreturned, -⟩)
      · cases hleaving
      · cases hreturned
        exact ih _ (List.mem_of_getElem? hc) hop _ (.inl hpc)

/-- An open that got no id has closed its client. -/
theorem Legit.made_of_unissued {issued : List Issue} {outcome : Outcome} (h : Legit issued i c) (hop : c.op = .insert)
    (unissued : ∀ issue ∈ issued, issue.client ≠ i) (hpc : c.pc = .returned outcome) : c.made = [.close i] := by
  cases h with
  | issued hissue => exact absurd rfl (unissued _ (List.mem_of_getElem? hissue))
  | spentReturned _ => rfl
  | missedReturned hid | returned _ hid =>
    cases hop
    cases hid
  | refusedReturned => cases hop
  | _ => cases hpc

/-! ## All ids can be issued -/

/-- While ids are left, one more can be issued. -/
theorem reach_issue (h : (registry finish).Reach s) (free : s.holder = none) (few : s.issued.length < idsPerTag) :
    ∃ s', (registry finish).Reach s' ∧ s'.holder = none ∧ s'.issued.length = s.issued.length + 1 := by
  obtain ⟨id, hnext, -⟩ := Counter.takeNext_after (rfl : processTag finish = _) few
  rw [← (numbered_of_reach rfl h).counter] at hnext
  have hlast (c : Call) : (s.calls ++ [c])[s.calls.length]? = some c := by simp
  have hset (c c' : Call) : (s.calls ++ [c]).set s.calls.length c' = s.calls ++ [c'] := by simp
  have h := h.next (Registry.Step.call .insert)
  have h := h.next (Registry.Step.lock (hlast _) rfl free)
  rw [Registry.put] at h
  dsimp only at h
  rw [hset] at h
  have h := h.next (Registry.Step.section_ (hlast _) rfl)
  rw [section_issues (s := ⟨s.counter, s.entries, some s.calls.length, s.heap, _, s.issued⟩) rfl hnext] at h
  dsimp only at h
  rw [hset] at h
  have h := h.next (Registry.Step.unlock (hlast _) rfl)
  exact ⟨_, h, rfl, by simp [Registry.put]⟩

/-- All of them can. -/
theorem exists_issued (finish : UInt64) {n : Nat} (few : n ≤ idsPerTag) :
    ∃ s, (registry finish).Reach s ∧ s.holder = none ∧ s.issued.length = n := by
  induction n with
  | zero => exact ⟨.new, .init rfl, rfl, rfl⟩
  | succ n ih =>
    obtain ⟨s, h, free, rfl⟩ := ih (by omega)
    exact reach_issue h free (by omega)

/-- What holds of a process with this tag in each of its states. -/
structure Ordered (tag : Int64) (finish : UInt64) (s : Registry) : Prop where
  /-- Under the tag, and the same after the trip through Java. -/
  id : ∀ issue ∈ s.issued, 0 < issue.id.raw ∧ issue.id.raw >>> 32 = tag ∧ HandleId.new issue.id.raw = some issue.id
  increasing : (s.issued.map (·.id.raw)).Pairwise (· < ·)
  /-- An id of another process names nothing here. -/
  foreign : ∀ finish' s', processTag finish' ≠ tag → (registry finish').Reach s' → ∀ issue' ∈ s'.issued,
    (∀ issue ∈ s.issued, issue'.id ≠ issue.id) ∧ s.entries issue'.id = none
  few : s.issued.length ≤ 2 ^ 32 - 1
  succeeds : ∀ i c s', s.calls[i]? = some c → c.op = .insert → Registry.Step finish s (.section_ i) s' →
    s.issued.length < 2 ^ 32 - 1 → ∃ id, s'.issued = s.issued ++ [⟨id, i⟩] ∧
      s'.entries = Function.update s.entries id (some s.heap.length)
  fails : ∀ i c s', s.calls[i]? = some c → c.op = .insert → Registry.Step finish s (.section_ i) s' →
    s.issued.length = 2 ^ 32 - 1 → s'.issued = s.issued ∧ s'.entries = s.entries
  /-- An `insert` without an id has closed its client by the time it fails, and nobody else has. -/
  closed : ∀ i c outcome, s.calls[i]? = some c → c.op = .insert → (∀ issue ∈ s.issued, issue.client ≠ i) →
    c.pc = .returned outcome → Spent outcome ∧ tally (fun c => c.made.count (.close i)) s.calls = 1
  unheld : ∀ i c client, s.calls[i]? = some c → c.pc = .engine client → s.holder ≠ some i

/-- Every run issues the ids of its tag in order, each once, and then none. -/
theorem ordered_of_reach (drawn : processTag finish = tag) (h : (registry finish).Reach s) : Ordered tag finish s := by
  have hnumbered := numbered_of_reach drawn h
  have inv := inv_of_reach h
  constructor
  · intro issue hissue
    obtain ⟨htag, hmore⟩ := hnumbered.tagged hissue
    have hlow := (processTag_range finish).1
    rw [drawn] at hlow
    have hpositive : 0 < issue.id.raw := by
      rw [Int64.lt_iff_toInt_lt]
      have : (0 : Int64).toInt = 0 := rfl
      omega
    refine ⟨hpositive, ?_, HandleId.new_raw hpositive⟩
    rw [← Int64.toInt_inj, toInt_shiftRight, htag]
  · exact hnumbered.increasing
  · intro finish' s' hother h' issue' hissue'
    have hforeign : ∀ issue ∈ s.issued, issue'.id ≠ issue.id := by
      intro issue hissue heq
      apply hother
      have htag := (hnumbered.tagged hissue).1
      have htag' := ((numbered_of_reach rfl h').tagged hissue').1
      rw [heq] at htag'
      exact Int64.toInt_inj.1 (htag'.symm.trans htag)
    refine ⟨hforeign, ?_⟩
    cases hentry : s.entries issue'.id with
    | none => rfl
    | some e =>
      obtain ⟨issue, hissue, heq⟩ := inv.mapped issue'.id e hentry
      exact absurd heq.symm (hforeign issue (List.mem_of_getElem? hissue))
  · exact hnumbered.few
  · intro i c s' hc hop hs hfew
    cases hs with
    | section_ hc' hpc =>
      rw [hc] at hc'
      cases hc'
      obtain ⟨id, hnext, -⟩ := Counter.takeNext_after drawn hfew
      rw [← hnumbered.counter] at hnext
      rw [section_issues hop hnext]
      exact ⟨id, rfl, rfl⟩
  · intro i c s' hc hop hs hall
    cases hs with
    | section_ hc' hpc =>
      rw [hc] at hc'
      cases hc'
      rw [section_refuses hop (hnumbered.takeNext_spent hall)]
      exact ⟨rfl, rfl⟩
  · intro i c outcome hc hop hunissued hpc
    have hmade : c.made = [.close i] := (inv.legit i c hc).made_of_unissued hop hunissued hpc
    refine ⟨endsSpent_of_reach h c (List.mem_of_getElem? hc) hop outcome (.inr ⟨hpc, by simp [hmade]⟩), ?_⟩
    have hle := inv.closes_le_one i
    have hone := le_tally (fun c : Call => c.made.count (.close i)) hc
    simp only [hmade, List.count_singleton_self] at hone
    omega
  · intro i c client hc hpc
    exact inv.unheld hc hpc

/-- **Handle ids are unique, ordered and finite**, under every tag: in every state of a process that
drew it, and all the numbers there are can be issued. -/
theorem handle_ids_are_unique_ordered_and_finite (low : 1 ≤ tag) (high : tag ≤ TAG_MASK) :
    (∃ finish, processTag finish = tag) ∧ ∀ finish, processTag finish = tag →
      (∀ s, (registry finish).Reach s → Ordered tag finish s) ∧
      ∃ s, (registry finish).Reach s ∧ s.issued.length = 2 ^ 32 - 1 := by
  have hmask : TAG_MASK.toInt = 2 ^ 31 - 1 := rfl
  have hlow : 1 ≤ tag.toInt := Int64.le_iff_toInt_le.1 low
  have hhigh := Int64.le_iff_toInt_le.1 high
  refine ⟨⟨tag.toUInt64, processTag_toUInt64 hlow (by omega)⟩, ?_⟩
  intro finish drawn
  refine ⟨fun s h => ordered_of_reach drawn h, ?_⟩
  obtain ⟨s, h, -, hall⟩ := exists_issued finish (Nat.le_refl idsPerTag)
  exact ⟨s, h, hall⟩

theorem handle_ids_are_unique_ordered_and_finite_of_one :
    (1 : Int64) ≤ TAG_MASK ∧ processTag 0 = 1 ∧ ∃ s, (registry 0).Reach s ∧ s.issued.length = 2 ^ 32 - 1 ∧
      Ordered 1 0 s := by
  obtain ⟨hordered, s, h, hall⟩ :=
    (handle_ids_are_unique_ordered_and_finite (by decide : (1 : Int64) ≤ 1) (by decide)).2 0 rfl
  exact ⟨by decide, rfl, s, h, hall, hordered s h⟩

end Handles

end EmbeddedMongo.Android
