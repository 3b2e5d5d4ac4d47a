import Mathlib

/-!
# Labelled step systems and their runs

A concurrent program is modelled as a `System`: its initial states and the atomic steps
its parties take, each under a label that says who moved and how. A property of every
interleaving is then an invariant: it holds initially and each step keeps it.

`ReachIf ok` are the states of the runs whose every step meets `ok` in the state it is
taken from; `Reach` puts no such condition. A program that keeps its promise only in some
runs is described by the weakest `ok` for which an invariant of `ReachIf ok` proves it.

`Settles` is what liveness comes to without a scheduler: the steps the parties take by
themselves, as opposed to those that come from outside, run out, and where they have run out
the promised state is reached.
-/

namespace Conc

/-- Initial states and labelled atomic steps. -/
structure System (σ α : Type) where
  init : σ → Prop
  step : σ → α → σ → Prop

namespace System

variable {σ α : Type} {S : System σ α}

/-- The states of the runs all of whose steps meet `ok`. -/
inductive ReachIf (S : System σ α) (ok : σ → α → Prop) : σ → Prop where
  | init {s : σ} : S.init s → ReachIf S ok s
  | step {s s' : σ} {a : α} : ReachIf S ok s → S.step s a s' → ok s a → ReachIf S ok s'

/-- The reachable states, of any run. -/
abbrev Reach (S : System σ α) : σ → Prop := S.ReachIf fun _ _ => True

/-- The runs from one state to another. -/
inductive Steps (S : System σ α) : σ → σ → Prop where
  | refl (s : σ) : Steps S s s
  | step {s s' s'' : σ} {a : α} : Steps S s s' → S.step s' a s'' → Steps S s s''

theorem Reach.next {s s' : σ} {a : α} (h : S.Reach s) (hs : S.step s a s') : S.Reach s' :=
  .step h hs trivial

/-- A run that meets a condition is a run. -/
theorem ReachIf.reach {ok : σ → α → Prop} {s : σ} (h : S.ReachIf ok s) : S.Reach s := by
  induction h with
  | init hi => exact .init hi
  | step _ hs _ ih => exact ih.next hs

/-- The run that has not started. -/
theorem Reach.start {s : σ} (_ : S.Reach s) : S.Steps s s := .refl s

/-- Reachability is closed under further runs. -/
theorem Reach.steps {s s' : σ} (h : S.Reach s) (hs : S.Steps s s') : S.Reach s' := by
  induction hs with
  | refl => exact h
  | step _ hs ih => exact ih.next hs

/-- **The invariant rule.** The step case may use that the state it starts from is reachable,
so an invariant proved earlier is at hand in the proof of the next one. -/
theorem ReachIf.induct {ok : σ → α → Prop} {I : σ → Prop} (base : ∀ s, S.init s → I s)
    (keep : ∀ s a s', S.Reach s → I s → ok s a → S.step s a s' → I s') :
    ∀ {s : σ}, S.ReachIf ok s → I s := by
  intro s h
  induction h with
  | init hi => exact base _ hi
  | step hr hs hok ih => exact keep _ _ _ hr.reach ih hok hs

/-- The invariant rule for runs under no condition. -/
theorem Reach.induct {I : σ → Prop} (base : ∀ s, S.init s → I s)
    (keep : ∀ s a s', S.Reach s → I s → S.step s a s' → I s') {s : σ} (h : S.Reach s) : I s :=
  ReachIf.induct base (fun s a s' hr hi _ hs => keep s a s' hr hi hs) h

/-- A property every step keeps holds to the end of any run that starts with it. -/
theorem Steps.keep {I : σ → Prop} {s s' : σ} (hs : S.Steps s s') (hr : S.Reach s) (hi : I s)
    (keep : ∀ s a s', S.Reach s → I s → S.step s a s' → I s') : I s' := by
  induction hs with
  | refl => exact hi
  | step hpre hs ih => exact keep _ _ _ (hr.steps hpre) ih hs

/-! ## Runs that come to rest -/

/-- Nobody has a step of their own left. -/
def AtRest (S : System σ α) (own : α → Prop) (s : σ) : Prop := ∀ a s', own a → ¬ S.step s a s'

/-- However the parties take their own steps from here on, they come to rest, and then `P` holds. -/
inductive Settles (S : System σ α) (own : α → Prop) (P : σ → Prop) : σ → Prop where
  | intro {s : σ} (next : ∀ a s', own a → S.step s a s' → Settles S own P s') (rest : S.AtRest own s → P s) :
      Settles S own P s

/-- **The progress rule.** A rank that every step of the parties' own lowers while an invariant
holds, and what the invariant comes to in a state at rest. -/
theorem Reach.settles {β : Type} {rel : β → β → Prop} (wf : WellFounded rel) (rank : σ → β)
    {own : α → Prop} {I P : σ → Prop}
    (drop : ∀ s a s', S.Reach s → I s → own a → S.step s a s' → rel (rank s') (rank s))
    (keep : ∀ s a s', S.Reach s → I s → S.step s a s' → I s')
    (rest : ∀ s, S.Reach s → I s → S.AtRest own s → P s) {s : σ} (h : S.Reach s) (hi : I s) :
    S.Settles own P s := by
  obtain ⟨r, hr⟩ : ∃ r, r = rank s := ⟨_, rfl⟩
  induction r using wf.induction generalizing s with
  | _ r ih =>
    refine .intro (fun a s' ha hs => ?_) (rest s h hi)
    exact ih (rank s') (hr ▸ drop s a s' h hi ha hs) (h.next hs) (keep s a s' h hi hs) rfl

end System

end Conc
