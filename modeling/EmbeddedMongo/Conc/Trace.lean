import EmbeddedMongo.Conc.Dialogue

/-!
# What a dialogue has exchanged

`Traces` is the weakest precondition over the exchanges themselves: whatever is replied, what
has been exchanged so far meets `I` at every point, and at the end `Post` with the answer. It
speaks of no server: a statement about a protocol under any replies at all.

An invariant that holds of two traces in a row when it holds of each is carried through a
program part by part (`Traces.seq`); one that looks further back needs `Traces.bind`.
-/

namespace Conc

/-- A request and the reply it got. -/
abbrev Exchange (Q : Type) (R : Q → Type) := (q : Q) × R q

namespace Dialogue

variable {σ Q α β : Type} {R : Q → Type}

/-- Over every run against any replies: `I` holds of what was exchanged at every point, and `Post`
of the answer and all that was exchanged. -/
def Traces (I : List (Exchange Q R) → Prop) (Post : α → List (Exchange Q R) → Prop) : Dialogue Q R α → Prop
  | .ret a => I [] ∧ Post a []
  | .ask q next => I [] ∧ ∀ r, (next r).Traces (fun tr => I (⟨q, r⟩ :: tr)) (fun a tr => Post a (⟨q, r⟩ :: tr))

variable {I I' : List (Exchange Q R) → Prop} {Post Post' : α → List (Exchange Q R) → Prop}

/-- The invariant holds at the start. -/
theorem Traces.here {d : Dialogue Q R α} (h : d.Traces I Post) : I [] := by
  cases d with
  | ret => exact h.1
  | ask => exact h.1

/-- An account may be weakened. -/
theorem Traces.mono {d : Dialogue Q R α} (h : d.Traces I Post) (hI : ∀ tr, I tr → I' tr)
    (hPost : ∀ a tr, I tr → Post a tr → Post' a tr) : d.Traces I' Post' := by
  induction d generalizing I I' Post Post' with
  | ret a => exact ⟨hI [] h.1, hPost a [] h.1 h.2⟩
  | ask q next ih =>
    refine ⟨hI [] h.1, fun r => ih r (h.2 r) ?_ ?_⟩
    · intro tr
      exact hI (⟨q, r⟩ :: tr)
    · intro a tr
      exact hPost a (⟨q, r⟩ :: tr)

/-- The rule of sequence. -/
theorem Traces.bind {f : α → Dialogue Q R β} {Post : β → List (Exchange Q R) → Prop} {d : Dialogue Q R α}
    (h : d.Traces I fun a tr => (f a).Traces (fun tr' => I (tr ++ tr')) fun b tr' => Post b (tr ++ tr')) :
    (d.bind f).Traces I Post := by
  induction d generalizing I Post with
  | ret a => exact h.2
  | ask q next ih => exact ⟨h.1, fun r => ih r (h.2 r)⟩

/-- The end of a program, after what it has exchanged. -/
theorem Traces.stop {a : α} {tr : List (Exchange Q R)} (hI : I tr) (hPost : Post a tr) :
    (Dialogue.ret a : Dialogue Q R α).Traces (fun tr' => I (tr ++ tr')) fun a tr' => Post a (tr ++ tr') := by
  constructor
  · simpa only [List.append_nil] using hI
  · simpa only [List.append_nil] using hPost

theorem Traces.map {f : α → β} {Post : β → List (Exchange Q R) → Prop} {d : Dialogue Q R α}
    (h : d.Traces I fun a tr => Post (f a) tr) : (d.map f).Traces I Post := by
  apply Traces.bind
  refine h.mono (fun _ hI => hI) ?_
  intro a tr hI hPost
  exact .stop hI hPost

/-- One exchange, for an invariant that does not look back. -/
theorem Traces.ask {q : Q} {next : R q → Dialogue Q R α} (start : I [])
    (keep : ∀ r tr, I tr → I (⟨q, r⟩ :: tr)) (h : ∀ r, (next r).Traces I fun a tr => Post a (⟨q, r⟩ :: tr)) :
    (Dialogue.ask q next).Traces I Post :=
  ⟨start, fun r => (h r).mono (keep r) fun _ _ _ hPost => hPost⟩

/-- Two parts in a row, for an invariant of each. -/
theorem Traces.seq {f : α → Dialogue Q R β} {Post' : β → List (Exchange Q R) → Prop} {d : Dialogue Q R α}
    (append : ∀ tr tr', I tr → I tr' → I (tr ++ tr')) (h : d.Traces I Post)
    (hf : ∀ a tr, I tr → Post a tr → (f a).Traces I fun b tr' => Post' b (tr ++ tr')) : (d.bind f).Traces I Post' := by
  apply Traces.bind
  refine h.mono (fun _ hI => hI) ?_
  intro a tr hI hPost
  exact (hf a tr hI hPost).mono (fun tr' hI' => append tr tr' hI hI') fun _ _ _ hPost' => hPost'

/-- What a dialogue may send is what its traces hold. -/
theorem Sends.traces {P : Q → Prop} {d : Dialogue Q R α} (h : d.Sends P) :
    d.Traces (fun tr => ∀ e ∈ tr, P e.1) fun _ _ => True := by
  induction d with
  | ret a => exact ⟨by simp, trivial⟩
  | ask q next ih =>
    apply Traces.ask
    · simp
    · intro r tr htr
      exact List.forall_mem_cons.2 ⟨h.1, htr⟩
    · intro r
      exact ih r (h.2 r)

/-- The same server, which keeps what it was asked and what it replied. -/
def logged (serve : Server σ Q R) : Server (σ × List (Exchange Q R)) Q R
  | (s, tr), q, r, (s', tr') => serve s q r s' ∧ tr' = tr ++ [⟨q, r⟩]

end Dialogue

end Conc
