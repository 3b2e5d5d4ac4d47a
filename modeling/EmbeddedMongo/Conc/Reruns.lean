import EmbeddedMongo.Conc.System
import EmbeddedMongo.Conc.Trace

/-!
# A program run again and again over what it leaves behind

The runs of one program follow each other over a durable state that is also the server of their
requests. A crash may come at any time: it ends the run where it is, and leaves of the durable
state what `crash` says. What the program exchanges in every run, whatever the replies, is what
its traces are; nothing of an earlier run is left in it.
-/

namespace Conc

open Dialogue

/-- The durable state, the run under way with the options it was started with, and what the
latest run has exchanged. -/
structure Reruns (σ Ω Q : Type) (R : Q → Type) (α : Type) where
  durable : σ
  running : Option (Ω × Dialogue Q R α)
  trace : List (Exchange Q R)

/-- The program, what answers it, and what a crash leaves. -/
structure Durable (σ Ω Q : Type) (R : Q → Type) (α : Type) where
  serve : Server σ Q R
  program : Ω → Dialogue Q R α
  crash : σ → σ → Prop

variable {σ Ω Q α : Type} {R : Q → Type}

namespace Reruns

/-- What happens to the program. -/
inductive Act (Ω : Type) where
  | start (options : Ω)
  | talk
  | finish
  | crash

/-- The program is started, talks, ends, and may crash at any point; the state it talks to stays. -/
inductive Step (d : Durable σ Ω Q R α) : Reruns σ Ω Q R α → Act Ω → Reruns σ Ω Q R α → Prop where
  | start {s : Reruns σ Ω Q R α} (options : Ω) (idle : s.running = none) :
      Step d s (.start options) { s with running := some (options, d.program options), trace := [] }
  | talk {s : Reruns σ Ω Q R α} {options : Ω} {q : Q} {next : R q → Dialogue Q R α} {r : R q} {durable : σ}
      (running : s.running = some (options, .ask q next)) (hs : d.serve s.durable q r durable) :
      Step d s .talk
        { durable := durable, running := some (options, next r), trace := s.trace ++ [⟨q, r⟩] }
  | finish {s : Reruns σ Ω Q R α} {options : Ω} {a : α} (running : s.running = some (options, .ret a)) :
      Step d s .finish { s with running := none }
  | crash {s : Reruns σ Ω Q R α} {durable : σ} (hc : d.crash s.durable durable) :
      Step d s .crash { s with durable := durable, running := none }

end Reruns

/-- Any number of runs of one program over a state that outlives them. -/
def reruns (d : Durable σ Ω Q R α) (init : σ → Prop) : System (Reruns σ Ω Q R α) (Reruns.Act Ω) where
  init s := init s.durable ∧ s.running = none
  step := Reruns.Step d

namespace Reruns

variable {d : Durable σ Ω Q R α} {init : σ → Prop} {I : Ω → List (Exchange Q R) → Prop}
  {Post : Ω → α → List (Exchange Q R) → Prop}

/-- One more exchange of a run. -/
theorem reach_talk {s : Reruns σ Ω Q R α} {options : Ω} (h : (reruns d init).Reach s) (q : Q) (r : R q)
    {next : R q → Dialogue Q R α} (running : s.running = some (options, .ask q next)) (durable : σ)
    (hs : d.serve s.durable q r durable) :
    (reruns d init).Reach ⟨durable, some (options, next r), s.trace ++ [⟨q, r⟩]⟩ :=
  h.next (.talk running hs)

/-- What the run under way has exchanged is the beginning of one of its program's traces. -/
def Traced (I : Ω → List (Exchange Q R) → Prop) (Post : Ω → α → List (Exchange Q R) → Prop)
    (s : Reruns σ Ω Q R α) : Prop :=
  ∀ options left, s.running = some (options, left) →
    left.Traces (fun tr => I options (s.trace ++ tr)) fun a tr => Post options a (s.trace ++ tr)

/-- Each step keeps the account of the run under way. -/
theorem Traced.step (program : ∀ options, (d.program options).Traces (I options) (Post options))
    {s s' : Reruns σ Ω Q R α} {a : Act Ω} (h : Traced I Post s) (hs : Step d s a s') : Traced I Post s' := by
  intro options left hrunning
  cases hs with
  | start options' idle =>
    cases hrunning
    exact program options
  | talk running hs =>
    cases hrunning
    have hnext := (h _ _ running).2
    simpa only [List.append_assoc, List.singleton_append] using hnext _
  | finish running => cases hrunning
  | crash hc => cases hrunning

/-- **The rule of the reruns.** -/
theorem traced_of_reach (program : ∀ options, (d.program options).Traces (I options) (Post options))
    {s : Reruns σ Ω Q R α} (h : (reruns d init).Reach s) : Traced I Post s := by
  refine h.induct ?_ ?_
  · intro s hi options left hrunning
    rw [hi.2] at hrunning
    cases hrunning
  · intro s a s' _ ih hs
    exact ih.step program hs

/-- The invariant holds of what was exchanged so far. -/
theorem Traced.here {s : Reruns σ Ω Q R α} {options : Ω} {left : Dialogue Q R α} (h : Traced I Post s)
    (running : s.running = some (options, left)) : I options s.trace := by
  simpa only [List.append_nil] using (h options left running).here

/-- A run that has answered meets its postcondition. -/
theorem Traced.answered {s : Reruns σ Ω Q R α} {options : Ω} {a : α} (h : Traced I Post s)
    (running : s.running = some (options, .ret a)) : Post options a s.trace := by
  simpa only [List.append_nil] using (h options _ running).2

end Reruns

end Conc
