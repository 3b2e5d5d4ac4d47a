import Mathlib

/-!
# Generators over a server

A generator sends requests to a server and gives values and failures to a consumer, one move at a
time. The consumer wants so many values, or all there are, and says so as soon as it has the last
one it wants: the generator then winds down, and may not give another value.

`Runs` is the whole of a run, as the requests that were sent and the items that were given, each in
order. A derivation is finite, so a run is one that ends.
-/

namespace Conc

/-- What a generator does next; after an item it goes on by whether more is wanted. -/
inductive Move (σ Q R D E : Type) where
  | ask (q : Q) (next : R → σ)
  | give (item : Except E D) (more stop : σ)
  | done

structure Log (Q D E : Type) where
  asked : List Q
  given : List (Except E D)

variable {σ ρ Q R D E : Type}

/-- The runs against a server, for a consumer that wants this many values. -/
inductive Runs (move : σ → Move σ Q R D E) (serve : ρ → Q → R × ρ) : σ → ρ → Option Nat → Log Q D E → Prop where
  | done {s : σ} {r : ρ} {want : Option Nat} (h : move s = .done) : Runs move serve s r want ⟨[], []⟩
  | ask {s : σ} {r : ρ} {want : Option Nat} {q : Q} {next : R → σ} {asked : List Q} {given : List (Except E D)}
      (h : move s = .ask q next) (rest : Runs move serve (next (serve r q).1) (serve r q).2 want ⟨asked, given⟩) :
      Runs move serve s r want ⟨q :: asked, given⟩
  | fail {s more stop : σ} {r : ρ} {want : Option Nat} {e : E} {asked : List Q} {given : List (Except E D)}
      (h : move s = .give (.error e) more stop) (rest : Runs move serve more r want ⟨asked, given⟩) :
      Runs move serve s r want ⟨asked, .error e :: given⟩
  | all {s more stop : σ} {r : ρ} {d : D} {asked : List Q} {given : List (Except E D)}
      (h : move s = .give (.ok d) more stop) (rest : Runs move serve more r none ⟨asked, given⟩) :
      Runs move serve s r none ⟨asked, .ok d :: given⟩
  | more {s more stop : σ} {r : ρ} {k : Nat} {d : D} {asked : List Q} {given : List (Except E D)}
      (h : move s = .give (.ok d) more stop) (rest : Runs move serve more r (some (k + 1)) ⟨asked, given⟩) :
      Runs move serve s r (some (k + 2)) ⟨asked, .ok d :: given⟩
  | stop {s more stop : σ} {r : ρ} {d : D} {asked : List Q} {given : List (Except E D)}
      (h : move s = .give (.ok d) more stop) (rest : Runs move serve stop r (some 0) ⟨asked, given⟩) :
      Runs move serve s r (some 1) ⟨asked, .ok d :: given⟩

namespace Runs

variable {move : σ → Move σ Q R D E} {serve : ρ → Q → R × ρ} {s : σ} {r : ρ} {want : Option Nat} {log log' : Log Q D E}

/-- Neither the generator nor the server has a choice. -/
theorem unique (h : Runs move serve s r want log) (h' : Runs move serve s r want log') : log' = log := by
  induction h generalizing log' with
  | done h =>
    cases h' with
    | done => rfl
    | ask h2 | fail h2 | all h2 | more h2 | stop h2 => cases h.symm.trans h2
  | ask h _ ih =>
    cases h' with
    | ask h2 rest =>
      cases h.symm.trans h2
      cases ih rest
      rfl
    | done h2 | fail h2 | all h2 | more h2 | stop h2 => cases h.symm.trans h2
  | fail h _ ih =>
    cases h' with
    | fail h2 rest =>
      cases h.symm.trans h2
      cases ih rest
      rfl
    | done h2 | ask h2 | all h2 | more h2 | stop h2 => cases h.symm.trans h2
  | all h _ ih =>
    cases h' with
    | all h2 rest =>
      cases h.symm.trans h2
      cases ih rest
      rfl
    | done h2 | ask h2 | fail h2 => cases h.symm.trans h2
  | more h _ ih =>
    cases h' with
    | more h2 rest =>
      cases h.symm.trans h2
      cases ih rest
      rfl
    | done h2 | ask h2 | fail h2 => cases h.symm.trans h2
  | stop h _ ih =>
    cases h' with
    | stop h2 rest =>
      cases h.symm.trans h2
      cases ih rest
      rfl
    | done h2 | ask h2 | fail h2 => cases h.symm.trans h2

theorem iff_eq (h : Runs move serve s r want log) : Runs move serve s r want log' ↔ log' = log :=
  ⟨h.unique, fun heq => heq ▸ h⟩

/-- A generator that gives these values one after the other, with more wanted than that. -/
theorem give_all {hold : List D → σ} {values : List D} {asked : List Q} {given : List (Except E D)}
    (item : ∀ d ∈ values, ∀ ds, ∃ stop, move (hold (d :: ds)) = .give (.ok d) (hold ds) stop)
    (wanted : ∀ k, want = some k → values.length < k)
    (rest : Runs move serve (hold []) r (want.map (· - values.length)) ⟨asked, given⟩) :
    Runs move serve (hold values) r want ⟨asked, values.map .ok ++ given⟩ := by
  induction values generalizing want with
  | nil =>
    have hwant : want.map (· - ([] : List D).length) = want := by cases want <;> simp
    rw [hwant] at rest
    exact rest
  | cons d ds ih =>
    obtain ⟨stop, hitem⟩ := item d List.mem_cons_self ds
    have later := fun d' hd' => item d' (List.mem_cons_of_mem d hd')
    cases want with
    | none => exact .all hitem (ih later nofun rest)
    | some k =>
      have hk := wanted k rfl
      rw [List.length_cons] at hk
      obtain ⟨k, rfl⟩ : ∃ k', k = k' + 2 := ⟨k - 2, by omega⟩
      refine .more hitem (ih later ?_ ?_)
      · rintro _ ⟨⟩
        omega
      · have hwant : k + 2 - (ds.length + 1) = k + 1 - ds.length := by omega
        simpa [hwant] using rest

/-- One that is stopped among them. -/
theorem give_some {hold : List D → σ} {values : List D} {k : Nat} {asked : List Q}
    (item : ∀ d ∈ values, ∀ ds, ∃ stop, move (hold (d :: ds)) = .give (.ok d) (hold ds) stop ∧
      Runs move serve stop r (some 0) ⟨asked, []⟩)
    (positive : 1 ≤ k) (enough : k ≤ values.length) :
    Runs move serve (hold values) r (some k) ⟨asked, (values.take k).map .ok⟩ := by
  induction values generalizing k with
  | nil => exact absurd enough (by simp; omega)
  | cons d ds ih =>
    obtain ⟨stop, hitem, hstop⟩ := item d List.mem_cons_self ds
    rw [List.length_cons] at enough
    by_cases hone : k = 1
    · subst hone
      exact .stop hitem hstop
    · obtain ⟨k, rfl⟩ : ∃ k', k = k' + 2 := ⟨k - 2, by omega⟩
      exact .more hitem (ih (fun d' hd' => item d' (List.mem_cons_of_mem d hd')) (by omega) (by omega))

end Runs

end Conc
