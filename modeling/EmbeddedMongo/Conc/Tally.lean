import Mathlib

/-!
# Counting the parties of a concurrent program

The parties of one kind are a list, a party's identity its position; a party that moves is
a `List.set`, one that appears is appended. `tally f` adds a weight up over the parties, so
the number of parties at a place is the tally of that place's indicator. `tally_set` is how
such a number changes when one party moves, in the additive form `omega` takes.
-/

namespace Conc

variable {α : Type} {f g : α → Nat} {l : List α} {i : Nat} {a : α}

/-- The sum of the weights of the parties. -/
def tally (f : α → Nat) (l : List α) : Nat := (l.map f).sum

@[simp] theorem tally_nil (f : α → Nat) : tally f [] = 0 := rfl

@[simp] theorem tally_cons (f : α → Nat) (a : α) (l : List α) : tally f (a :: l) = f a + tally f l := by
  simp [tally]

/-- A tally goes part by part. -/
@[simp] theorem tally_append (f : α → Nat) (l m : List α) : tally f (l ++ m) = tally f l + tally f m := by
  simp [tally]

/-- **How a count changes when one party moves** from `a` to `b`. -/
theorem tally_set (f : α → Nat) (h : l[i]? = some a) (b : α) :
    tally f (l.set i b) + f a = tally f l + f b := by
  induction l generalizing i with
  | nil => simp at h
  | cons x l ih =>
    cases i with
    | zero =>
      simp only [List.getElem?_cons_zero, Option.some.injEq] at h
      subst h
      simp only [List.set_cons_zero, tally_cons]
      omega
    | succ i =>
      have := ih (by simpa using h)
      simp only [List.set_cons_succ, tally_cons]
      omega

/-- One party weighs at most what all of them do. -/
theorem le_tally (f : α → Nat) (h : l[i]? = some a) : f a ≤ tally f l := by
  induction l generalizing i with
  | nil => simp at h
  | cons x l ih =>
    cases i with
    | zero =>
      simp only [List.getElem?_cons_zero, Option.some.injEq] at h
      subst h
      simp
    | succ i =>
      have := ih (by simpa using h)
      simp only [tally_cons]
      omega

/-- `tally_set` as a rewrite. -/
theorem tally_set_eq (h : l[i]? = some a) (f : α → Nat) (b : α) :
    tally f (l.set i b) = tally f l + f b - f a := by
  have := tally_set f h b
  omega

/-- Two different parties together weigh at most what all of them do. -/
theorem add_le_tally (f : α → Nat) {j : Nat} {b : α} (hi : l[i]? = some a) (hj : l[j]? = some b)
    (hne : i ≠ j) : f a + f b ≤ tally f l := by
  induction l generalizing i j with
  | nil => simp at hi
  | cons x l ih =>
    simp only [tally_cons]
    cases i with
    | zero =>
      cases j with
      | zero => exact absurd rfl hne
      | succ j =>
        have := le_tally f (l := l) (by simpa using hj)
        simp only [List.getElem?_cons_zero, Option.some.injEq] at hi
        subst hi
        omega
    | succ i =>
      cases j with
      | zero =>
        have := le_tally f (l := l) (by simpa using hi)
        simp only [List.getElem?_cons_zero, Option.some.injEq] at hj
        subst hj
        omega
      | succ j =>
        have := ih (by simpa using hi) (by simpa using hj) (by omega)
        omega

/-- A tally is monotone in what is counted. -/
theorem tally_le (h : ∀ a, f a ≤ g a) (l : List α) : tally f l ≤ tally g l := by
  induction l with
  | nil => simp
  | cons x l ih =>
    have := h x
    simp only [tally_cons]
    omega

/-- A tally is additive in what is counted. -/
theorem tally_add (f g : α → Nat) (l : List α) :
    tally (fun a => f a + g a) l = tally f l + tally g l := by
  induction l with
  | nil => rfl
  | cons x l ih =>
    simp only [tally_cons, ih]
    omega

/-- A tally is zero when nothing counts. -/
theorem tally_eq_zero : tally f l = 0 ↔ ∀ a ∈ l, f a = 0 := by
  induction l with
  | nil => simp
  | cons x l ih => simp [ih]

/-- Parties that change in ways a weight does not see. -/
theorem tally_map {g : α → α} (h : ∀ a, f (g a) = f a) (l : List α) : tally f (l.map g) = tally f l := by
  induction l with
  | nil => rfl
  | cons x l ih => simp only [List.map_cons, tally_cons, h, ih]

/-- A change that counts the same does not show. -/
theorem tally_modify {g : α → α} (h : ∀ a, f (g a) = f a) (l : List α) (i : Nat) :
    tally f (l.modify i g) = tally f l := by
  induction l generalizing i with
  | nil => simp
  | cons x l ih =>
    cases i with
    | zero => simp [h]
    | succ i => simp [ih]

/-- What holds of every party holds of them all after one has moved. -/
theorem forall_mem_set {p : α → Prop} {b : α} (h : ∀ a ∈ l, p a) (hb : p b) : ∀ a ∈ l.set i b, p a := by
  intro a ha
  rcases List.mem_or_eq_of_mem_set ha with hmem | rfl
  · exact h a hmem
  · exact hb

/-- What holds of each party holds of each after one has moved. -/
theorem forall_getElem?_set {p : Nat → α → Prop} {b : α} (h : ∀ j a, l[j]? = some a → j ≠ i → p j a) (hb : p i b) :
    ∀ j a, (l.set i b)[j]? = some a → p j a := by
  intro j a ha
  by_cases hij : i = j
  · subst hij
    obtain ⟨hlt, -⟩ := List.getElem?_eq_some_iff.1 ha
    rw [List.getElem?_set_self (by simpa using hlt)] at ha
    cases ha
    exact hb
  · rw [List.getElem?_set_ne hij] at ha
    exact h j a ha (Ne.symm hij)

/-- A party keeps its place when others join. -/
theorem getElem?_append_of_eq_some {α : Type} {l l' : List α} {e : Nat} {a : α} (h : l[e]? = some a) :
    (l ++ l')[e]? = some a := by
  rw [List.getElem?_append_left (List.getElem?_eq_some_iff.1 h).1]
  exact h

/-- What holds of each party holds of each after one has joined. -/
theorem forall_getElem?_append {p : Nat → α → Prop} {b : α} (h : ∀ j a, l[j]? = some a → p j a)
    (hb : p l.length b) : ∀ j a, (l ++ [b])[j]? = some a → p j a := by
  intro j a ha
  rw [List.getElem?_append] at ha
  split at ha
  · exact h j a ha
  · obtain ⟨hlt, -⟩ := List.getElem?_eq_some_iff.1 ha
    simp only [List.length_singleton] at hlt
    obtain rfl : j = l.length := by omega
    rw [Nat.sub_self] at ha
    cases ha
    exact hb

/-- A count is less than another if one party is, and none is more. -/
theorem tally_lt {g : α → Nat} (h : ∀ a, f a ≤ g a) (hi : l[i]? = some a) (hlt : f a < g a) : tally f l < tally g l := by
  induction l generalizing i with
  | nil => simp at hi
  | cons x l ih =>
    simp only [tally_cons]
    cases i with
    | zero =>
      simp only [List.getElem?_cons_zero, Option.some.injEq] at hi
      subst hi
      have := tally_le h l
      omega
    | succ i =>
      have := ih (by simpa using hi)
      have := h x
      omega

/-- At most one party counts, and only once. -/
theorem tally_le_one (small : ∀ a ∈ l, f a ≤ 1)
    (single : ∀ (i j : Nat) (a b : α), l[i]? = some a → l[j]? = some b → 0 < f a → 0 < f b → i = j) : tally f l ≤ 1 := by
  induction l with
  | nil => simp
  | cons x l ih =>
    simp only [tally_cons]
    have hx := small x (by simp)
    by_cases hpos : 0 < f x
    · have hzero : tally f l = 0 := by
        apply tally_eq_zero.2
        intro b hb
        obtain ⟨j, hj⟩ := List.getElem?_of_mem hb
        rcases Nat.eq_zero_or_pos (f b) with hzero | hb
        · exact hzero
        · have := single 0 (j + 1) x b (by simp) (by simpa using hj) hpos hb
          omega
      omega
    · have hrest : tally f l ≤ 1 := by
        apply ih
        · intro a ha
          exact small a (by simp [ha])
        · intro i j a b ha hb hfa hfb
          have := single (i + 1) (j + 1) a b (by simpa using ha) (by simpa using hb) hfa hfb
          omega
      omega

/-- A positive count has a party behind it. -/
theorem exists_of_tally_pos (h : 0 < tally f l) : ∃ (i : Nat) (a : α), l[i]? = some a ∧ 0 < f a := by
  induction l with
  | nil => simp at h
  | cons x l ih =>
    by_cases hx : 0 < f x
    · exact ⟨0, x, by simp, hx⟩
    · obtain ⟨i, a, ha, hf⟩ := ih (by simp only [tally_cons] at h; omega)
      exact ⟨i + 1, a, by simpa using ha, hf⟩

/-- Parties that each have one of their own among others are no more than those. -/
theorem tally_le_tally {β : Type} {g : β → Nat} {m : List β} (own : Nat → Nat)
    (into : ∀ (i : Nat) (a : α), l[i]? = some a → 0 < f a → ∃ b, m[own i]? = some b ∧ f a ≤ g b)
    (single : ∀ (i j : Nat) (a b : α), l[i]? = some a → l[j]? = some b → 0 < f a → 0 < f b → own i = own j → i = j) :
    tally f l ≤ tally g m := by
  -- the weights of `m`, so that one can be struck out
  suffices ∀ w : List Nat, (∀ (i : Nat) (a : α), l[i]? = some a → 0 < f a → ∃ b, w[own i]? = some b ∧ f a ≤ b) →
      tally f l ≤ tally id w by
    have := this (m.map g) fun i a ha hf => by
      obtain ⟨b, hb, hle⟩ := into i a ha hf
      exact ⟨g b, by simp [hb], hle⟩
    simpa [tally, Function.comp_def] using this
  intro w hw
  clear into
  induction l generalizing own w with
  | nil => simp
  | cons x l ih =>
    rw [tally_cons]
    by_cases hx : 0 < f x
    · obtain ⟨b, hb, hle⟩ := hw 0 x rfl hx
      have hset := tally_set id hb 0
      simp only [id] at hset
      have hrest : tally f l ≤ tally id (w.set (own 0) 0) := by
        apply ih (fun i => own (i + 1))
        · intro i j a a' ha ha' hf hf' heq
          have := single (i + 1) (j + 1) a a' (by simpa using ha) (by simpa using ha') hf hf' heq
          omega
        · intro i a ha hf
          obtain ⟨b', hb', hle'⟩ := hw (i + 1) a (by simpa using ha) hf
          refine ⟨b', ?_, hle'⟩
          rw [List.getElem?_set_ne, hb']
          intro heq
          have := single 0 (i + 1) x a rfl (by simpa using ha) hx hf heq
          omega
      omega
    · have hrest : tally f l ≤ tally id w := by
        apply ih (fun i => own (i + 1))
        · intro i j a a' ha ha' hf hf' heq
          have := single (i + 1) (j + 1) a a' (by simpa using ha) (by simpa using ha') hf hf' heq
          omega
        · intro i a ha hf
          exact hw (i + 1) a (by simpa using ha) hf
      omega

/-! ## The parties at a place

`p` says whether a party is at a place. -/

/-- Whether an entry has a property, after one entry was set. -/
theorem any_set {p : α → Bool} (h : l[i]? = some a) (b : α) (j : Nat) :
    (l.set i b)[j]?.any p = if i = j then p b else l[j]?.any p := by
  obtain ⟨hlt, -⟩ := List.getElem?_eq_some_iff.1 h
  by_cases hij : i = j
  · subst hij
    simp [hlt]
  · simp [hij]

theorem any_set_of {p : α → Bool} {b : α} (h : l[i]? = some a) (hb : p b = true) {j : Nat}
    (hj : l[j]?.any p = true) : (l.set i b)[j]?.any p = true := by
  rw [any_set h]
  split
  · exact hb
  · exact hj

theorem any_append_of {p : α → Bool} {m : List α} {j : Nat} (hj : l[j]?.any p = true) :
    (l ++ m)[j]?.any p = true := by
  by_cases hlt : j < l.length
  · rwa [List.getElem?_append_left hlt]
  · rw [List.getElem?_eq_none (by omega)] at hj
    cases hj

/-- The parties at the place are the same ones, each as it was. -/
def Unmoved (p : α → Bool) (l l' : List α) : Prop :=
  ∀ j : Nat, l'[j]?.filter p = l[j]?.filter p

namespace Unmoved

variable {p : α → Bool} {l' : List α} {b : α}

theorem refl (p : α → Bool) (l : List α) : Unmoved p l l := fun _ => rfl

theorem trans {l'' : List α} (h : Unmoved p l l') (h' : Unmoved p l' l'') : Unmoved p l l'' :=
  fun j => (h' j).trans (h j)

/-- A party that moves, from elsewhere to elsewhere. -/
theorem set (h : l[i]? = some a) (ha : p a = false) (hb : p b = false) : Unmoved p l (l.set i b) := by
  intro j
  obtain ⟨hlt, -⟩ := List.getElem?_eq_some_iff.1 h
  by_cases hij : i = j
  · subst hij
    rw [List.getElem?_set_self hlt, h]
    simp [Option.filter_some, ha, hb]
  · simp [hij]

/-- A party that appears elsewhere. -/
theorem append (hb : p b = false) : Unmoved p l (l ++ [b]) := by
  intro j
  rcases Nat.lt_trichotomy j l.length with hlt | rfl | hgt
  · rw [List.getElem?_append_left hlt]
  · simp [Option.filter_some, hb]
  · rw [List.getElem?_eq_none (by simp; omega), List.getElem?_eq_none (by omega)]

/-- A map that keeps those with the property as they are. -/
theorem map {g : α → α} (hg : ∀ a, (some (g a)).filter p = (some a).filter p) : Unmoved p l (l.map g) := by
  intro j
  rw [List.getElem?_map]
  cases l[j]? with
  | none => rfl
  | some a => exact hg a

/-- An entry has the property before just if it has it after. -/
theorem any (h : Unmoved p l l') (j : Nat) : l'[j]?.any p = l[j]?.any p := by
  have hany : ∀ o : Option α, o.any p = (o.filter p).isSome := by
    intro o
    cases o with
    | none => rfl
    | some a => cases hp : p a <;> simp [Option.filter_some, hp]
  rw [hany, hany, h j]

/-- A count of parties at the place is unmoved with them. -/
theorem tally (h : Unmoved p l l') (hf : ∀ a, p a = false → f a = 0) : tally f l' = tally f l := by
  have weight : ∀ {a b : α}, (some b).filter p = (some a).filter p → f b = f a := by
    intro a b hab
    cases ha : p a with
    | false =>
      cases hb : p b with
      | false => rw [hf a ha, hf b hb]
      | true => simp [Option.filter_some, ha, hb] at hab
    | true =>
      cases hb : p b with
      | false => simp [Option.filter_some, ha, hb] at hab
      | true =>
        simp only [Option.filter_some, ha, hb, if_true, Option.some.injEq] at hab
        rw [hab]
  have absent : ∀ {a : α}, (some a).filter p = none → f a = 0 := by
    intro a ha
    cases hp : p a with
    | false => exact hf a hp
    | true => simp [Option.filter_some, hp] at ha
  induction l generalizing l' with
  | nil =>
    refine tally_eq_zero.2 fun a ha => ?_
    obtain ⟨j, hj⟩ := List.getElem?_of_mem ha
    have := h j
    rw [hj] at this
    exact absent (by simpa using this)
  | cons x l ih =>
    cases l' with
    | nil =>
      refine (tally_eq_zero.2 fun a ha => ?_).symm
      obtain ⟨j, hj⟩ := List.getElem?_of_mem ha
      have := h j
      rw [hj] at this
      exact absent (by simpa using this.symm)
    | cons y l' =>
      have hhead := weight (by simpa using h 0)
      have htail : Conc.tally f l' = Conc.tally f l := ih fun j => by simpa using h (j + 1)
      simp only [tally_cons, hhead, htail]

end Unmoved

end Conc
