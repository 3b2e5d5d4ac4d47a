import EmbeddedMongo.Conc.RwLock
import EmbeddedMongo.Conc.System
import EmbeddedMongo.Conc.Tally

/-!
# A resource behind a reader-writer lock, until somebody takes it

The lock guards an option. Whoever wants to use the resource takes the lock shared, looks whether
it is there and uses it for as long as it has the lock. Whoever wants to end it takes the lock
exclusively, takes the resource out, and is its owner with the lock released. `Guarded.Move` is what
a party of such a program may do next, and `Guarded.Sound` what holds between any two moves:
the resource has one owner or is still there, and nobody is inside it once it has an owner.
-/

namespace Conc

/-- Where a party is. -/
inductive Phase where
  /-- It holds nothing. -/
  | outside
  /-- It has the lock shared. -/
  | looking
  /-- It has the lock shared, and has found the resource. -/
  | inside
  /-- It has the lock exclusively. -/
  | writing
  /-- It has taken the resource. -/
  | owner
  deriving DecidableEq, Repr

namespace Phase

/-- It holds the lock shared. -/
def reads : Phase → Nat
  | .looking | .inside => 1
  | _ => 0

/-- It uses the resource. -/
def uses : Phase → Nat
  | .inside => 1
  | _ => 0

/-- It holds the lock alone. -/
def writes : Phase → Nat
  | .writing => 1
  | _ => 0

/-- It has taken the resource out. -/
def owns : Phase → Nat
  | .owner => 1
  | _ => 0

theorem uses_le_reads (p : Phase) : p.uses ≤ p.reads := by
  cases p <;> decide

end Phase

/-- A resource behind a lock, and those who come for it. -/
structure Guarded where
  lock : RwLock
  /-- The resource is there. -/
  full : Bool
  parties : List Phase

namespace Guarded

/-- What one party may do. -/
inductive Move : Guarded → Guarded → Prop where
  | stay (g : Guarded) : Move g g
  | join (g : Guarded) : Move g { g with parties := g.parties ++ [.outside] }
  | read {g : Guarded} {i : Nat} (hi : g.parties[i]? = some .outside) (free : g.lock.admitsReader = true) :
      Move g { g with lock := g.lock.read, parties := g.parties.set i .looking }
  | find {g : Guarded} {i : Nat} (hi : g.parties[i]? = some .looking) (full : g.full = true) :
      Move g { g with parties := g.parties.set i .inside }
  | leave {g : Guarded} {i : Nat} (hi : g.parties[i]? = some .looking ∨ g.parties[i]? = some .inside) :
      Move g { g with lock := g.lock.releaseRead, parties := g.parties.set i .outside }
  | write {g : Guarded} {i : Nat} (hi : g.parties[i]? = some .outside) (free : g.lock.admitsWriter = true) :
      Move g { g with lock := g.lock.write, parties := g.parties.set i .writing }
  | take {g : Guarded} {i : Nat} (hi : g.parties[i]? = some .writing) (full : g.full = true) :
      Move g { lock := g.lock.releaseWrite, full := false, parties := g.parties.set i .owner }
  | giveUp {g : Guarded} {i : Nat} (hi : g.parties[i]? = some .writing) :
      Move g { g with lock := g.lock.releaseWrite, parties := g.parties.set i .outside }

/-- The lock is held by those inside, the resource is there unless it has one owner, and it is used
only while it is there. -/
structure Sound (g : Guarded) : Prop where
  held : g.lock.Held (tally Phase.reads g.parties) (tally Phase.writes g.parties)
  owner : tally Phase.owns g.parties = (!g.full).toNat
  inside : 0 < tally Phase.uses g.parties → g.full = true

namespace Sound

variable {g g' : Guarded} {i j : Nat}

theorem start (full : Bool) (hfull : full = true) : Sound ⟨.new, full, []⟩ := by
  subst hfull
  exact ⟨RwLock.held_new, rfl, fun _ => rfl⟩

/-- Every move keeps that. -/
theorem move (h : g.Sound) (hm : Move g g') : g'.Sound := by
  obtain ⟨hheld, howner, hinside⟩ := h
  cases hm with
  | stay => exact ⟨hheld, howner, hinside⟩
  | join =>
    refine ⟨?_, ?_, ?_⟩
    · simpa [Phase.reads, Phase.writes] using hheld
    · simpa [Phase.owns] using howner
    · simpa [Phase.uses] using hinside
  | read hi free =>
    refine ⟨?_, ?_, ?_⟩
    · simpa [tally_set_eq hi, Phase.reads, Phase.writes] using (hheld.read free).1
    · simpa [tally_set_eq hi, Phase.owns] using howner
    · simpa [tally_set_eq hi, Phase.uses] using hinside
  | find hi full =>
    refine ⟨?_, ?_, fun _ => full⟩
    · simpa [tally_set_eq hi, Phase.reads, Phase.writes] using hheld
    · simpa [tally_set_eq hi, Phase.owns] using howner
  | @leave i hi =>
    -- Whether it had found the resource or not, it was one reader.
    obtain ⟨p, hi, hreads, hwrites, howns⟩ :
        ∃ p, g.parties[i]? = some p ∧ p.reads = 1 ∧ p.writes = 0 ∧ p.owns = 0 := by
      rcases hi with hi | hi
      · exact ⟨_, hi, rfl, rfl, rfl⟩
      · exact ⟨_, hi, rfl, rfl, rfl⟩
    have hle := le_tally Phase.reads hi
    refine ⟨?_, ?_, ?_⟩
    · rw [tally_set_eq hi, tally_set_eq hi, hreads, hwrites]
      apply RwLock.Held.releaseRead
      show RwLock.Held _ (tally Phase.reads g.parties - 1 + 1) _
      rw [Nat.sub_add_cancel (hreads ▸ hle)]
      exact hheld
    · rw [tally_set_eq hi, howns]
      exact howner
    · intro hpos
      apply hinside
      simp only [tally_set_eq hi, Phase.uses, Nat.add_zero] at hpos
      omega
  | write hi free =>
    refine ⟨?_, ?_, ?_⟩
    · simpa [tally_set_eq hi, Phase.reads, Phase.writes] using (hheld.write free).1
    · simpa [tally_set_eq hi, Phase.owns] using howner
    · simpa [tally_set_eq hi, Phase.uses] using hinside
  | take hi full =>
    have hwriting : 1 ≤ tally Phase.writes g.parties := le_tally Phase.writes hi
    have halone := hheld.alone hwriting
    refine ⟨?_, ?_, ?_⟩
    · simp only [tally_set_eq hi, Phase.reads, Phase.writes, Nat.add_zero, Nat.sub_zero]
      apply RwLock.Held.releaseWrite
      rw [Nat.sub_add_cancel hwriting]
      exact hheld
    · rw [full, Bool.not_true, Bool.toNat_false] at howner
      simp [tally_set_eq hi, Phase.owns, howner]
    · intro hpos
      have := tally_le Phase.uses_le_reads g.parties
      simp only [tally_set_eq hi, Phase.uses, Nat.add_zero, Nat.sub_zero] at hpos
      omega
  | giveUp hi =>
    have hwriting : 1 ≤ tally Phase.writes g.parties := le_tally Phase.writes hi
    refine ⟨?_, ?_, ?_⟩
    · simp only [tally_set_eq hi, Phase.reads, Phase.writes, Nat.add_zero, Nat.sub_zero]
      apply RwLock.Held.releaseWrite
      rw [Nat.sub_add_cancel hwriting]
      exact hheld
    · simpa [tally_set_eq hi, Phase.owns] using howner
    · simpa [tally_set_eq hi, Phase.uses] using hinside

/-- An owner leaves nothing behind. -/
theorem taken (h : g.Sound) (hi : g.parties[i]? = some .owner) : g.full = false := by
  have hle := le_tally Phase.owns hi
  have howner := h.owner
  cases hfull : g.full with
  | true =>
    rw [hfull] at howner
    simp only [Phase.owns, Bool.not_true, Bool.toNat_false] at hle howner
    omega
  | false => rfl

/-- There is one owner at most. -/
theorem owner_unique (h : g.Sound) (hi : g.parties[i]? = some .owner) (hj : g.parties[j]? = some .owner) : i = j := by
  refine Classical.byContradiction fun hne => ?_
  have hle := add_le_tally Phase.owns hi hj hne
  rw [h.owner] at hle
  have := Bool.toNat_le !g.full
  simp only [Phase.owns] at hle
  omega

/-- Nobody is inside a resource that has been taken. -/
theorem nobody_inside (h : g.Sound) (empty : g.full = false) : g.parties[i]? ≠ some .inside := by
  intro hi
  have := h.inside (Nat.lt_of_lt_of_le Nat.one_pos (le_tally Phase.uses hi))
  rw [empty] at this
  cases this

/-- Whoever has the lock exclusively has it alone. -/
theorem exclusive (h : g.Sound) (hi : g.parties[i]? = some .writing) (hne : i ≠ j) :
    g.parties[j]? ≠ some .looking ∧ g.parties[j]? ≠ some .inside ∧ g.parties[j]? ≠ some .writing := by
  have hwriting := le_tally Phase.writes hi
  have halone := h.held.alone hwriting
  refine ⟨fun hj => ?_, fun hj => ?_, fun hj => ?_⟩
  · have := le_tally Phase.reads hj
    simp only [Phase.reads] at this
    omega
  · have := le_tally Phase.reads hj
    simp only [Phase.reads] at this
    omega
  · have hle := add_le_tally Phase.writes hi hj hne
    rw [← h.held.exclusive] at hle
    have := Bool.toNat_le g.lock.writer
    simp only [Phase.writes] at hle
    omega

/-- Once everybody has left, anybody may come in. -/
theorem free (h : g.Sound) (outside : ∀ p ∈ g.parties, p.reads = 0 ∧ p.writes = 0) :
    g.lock.admitsReader = true ∧ g.lock.admitsWriter = true := by
  have hreads : tally Phase.reads g.parties = 0 := tally_eq_zero.2 fun p hp => (outside p hp).1
  have hwrites : tally Phase.writes g.parties = 0 := tally_eq_zero.2 fun p hp => (outside p hp).2
  have hshared := h.held.shared
  have hexclusive := h.held.exclusive
  rw [hreads] at hshared
  rw [hwrites] at hexclusive
  have hwriter : g.lock.writer = false := by
    cases hw : g.lock.writer with
    | true => simp [hw] at hexclusive
    | false => rfl
  simp [RwLock.admitsReader, RwLock.admitsWriter, hwriter, hshared]

/-- A lock that is held exclusively admits nobody. -/
theorem admits_nobody (h : g.Sound) (hi : g.parties[i]? = some .writing) : g.lock.admitsReader = false := by
  have hwriting := le_tally Phase.writes hi
  have hexclusive := h.held.exclusive
  have hwriter : g.lock.writer = true := by
    cases hw : g.lock.writer with
    | true => rfl
    | false =>
      rw [hw] at hexclusive
      simp only [Phase.writes, Bool.toNat_false] at hwriting hexclusive
      omega
  simp [RwLock.admitsReader, hwriter]

end Sound

/-- **The rule of the guard**: a program each of whose steps is a move of the guard under `view`
never has anybody inside a resource that was taken. -/
theorem sound_of_reach {σ α : Type} {S : System σ α} (view : σ → Guarded) (base : ∀ s, S.init s → (view s).Sound)
    (sim : ∀ s a s', S.step s a s' → Move (view s) (view s')) {s : σ} (h : S.Reach s) : (view s).Sound :=
  System.Reach.induct base (fun s a s' _ hi hs => hi.move (sim s a s' hs)) h

end Guarded

/-! ## Parties in the order they came -/

variable {α : Type} {R : α → α → Prop} {l : List α} {i : Nat} {a b : α}

/-- A party that moves, if it goes on standing as it must to those before it and those after it. -/
theorem pairwise_set (h : l.Pairwise R) (hi : l[i]? = some a)
    (before : ∀ (j : Nat) (e : α), j < i → l[j]? = some e → R e a → R e b)
    (after : ∀ (j : Nat) (e : α), i < j → l[j]? = some e → R a e → R b e) : (l.set i b).Pairwise R := by
  rw [List.pairwise_iff_getElem] at h ⊢
  obtain ⟨hlt, rfl⟩ := List.getElem?_eq_some_iff.1 hi
  intro j k hj hk hjk
  rw [List.length_set] at hj hk
  rw [List.getElem_set, List.getElem_set]
  by_cases hij : i = j
  · subst hij
    rw [if_pos rfl, if_neg (by omega)]
    exact after k _ hjk (List.getElem?_eq_getElem hk) (h i k hlt hk hjk)
  · rw [if_neg hij]
    by_cases hik : i = k
    · subst hik
      rw [if_pos rfl]
      exact before j _ hjk (List.getElem?_eq_getElem hj) (h j i hj hlt hjk)
    · rw [if_neg hik]
      exact h j k hj hk hjk

theorem pairwise_getElem? {c d : Nat} (h : l.Pairwise R) (hc : l[c]? = some a) (hd : l[d]? = some b) (hcd : c < d) : R a b := by
  obtain ⟨hlt, rfl⟩ := List.getElem?_eq_some_iff.1 hc
  obtain ⟨hlt', rfl⟩ := List.getElem?_eq_some_iff.1 hd
  exact List.pairwise_iff_getElem.1 h c d hlt hlt' hcd

end Conc
