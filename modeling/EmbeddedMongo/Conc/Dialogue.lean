import Mathlib

/-!
# Programs that talk to a server

A `Dialogue` is what one thread does between its start and its answer, as far as the outside
sees it: the requests it sends, each chosen from the replies so far. What a server may reply
and what becomes of it is a relation, so a refusal or a failure is one reply among others.

`Always` is the weakest precondition with an invariant: whatever the replies, the invariant
holds before every request and at the end, and the answer meets the postcondition. A crash
between two requests leaves a state in which the invariant holds.
-/

namespace Conc

/-- Answers, or sends a request and goes on from the reply. -/
inductive Dialogue (Q : Type) (R : Q → Type) (α : Type) where
  | ret (a : α)
  | ask (q : Q) (next : R q → Dialogue Q R α)

/-- What a server in a given state may reply, and the state it is left in. -/
abbrev Server (σ Q : Type) (R : Q → Type) := σ → (q : Q) → R q → σ → Prop

namespace Dialogue

variable {σ Q Q' α β : Type} {R : Q → Type} {R' : Q' → Type}

/-- One program after another. -/
def bind : Dialogue Q R α → (α → Dialogue Q R β) → Dialogue Q R β
  | .ret a, f => f a
  | .ask q next, f => .ask q fun r => (next r).bind f

/-- The answer is changed. -/
def map (f : α → β) (d : Dialogue Q R α) : Dialogue Q R β := d.bind fun a => .ret (f a)

/-- Programs that ask the same and go on alike are the same. -/
theorem ask_congr {q : Q} {next next' : R q → Dialogue Q R α} (h : ∀ r, next r = next' r) : ask q next = ask q next' :=
  congrArg (ask q) (funext h)

/-- The same dialogue over another server's requests. -/
def via (send : Q → Q') (receive : ∀ q, R' (send q) → R q) : Dialogue Q R α → Dialogue Q' R' α
  | .ret a => .ret a
  | .ask q next => .ask (send q) fun r => (next (receive q r)).via send receive

/-- Every request it may come to send is one of `P`. -/
def Sends (P : Q → Prop) : Dialogue Q R α → Prop
  | .ret _ => True
  | .ask q next => P q ∧ ∀ r, (next r).Sends P

/-- From this state on `I` holds before every request and at the end, and there `Post`. -/
def Always (serve : Server σ Q R) (I : σ → Prop) (Post : α → σ → Prop) : Dialogue Q R α → σ → Prop
  | .ret a, s => I s ∧ Post a s
  | .ask q next, s => I s ∧ ∀ r s', serve s q r s' → (next r).Always serve I Post s'

variable {serve : Server σ Q R} {I I' : σ → Prop} {Post Post' : α → σ → Prop}

/-- What always holds holds now. -/
theorem Always.here {d : Dialogue Q R α} {s : σ} (h : d.Always serve I Post s) : I s := by
  cases d with
  | ret => exact h.1
  | ask => exact h.1

/-- It holds of anything weaker. -/
theorem Always.mono {d : Dialogue Q R α} {s : σ} (h : d.Always serve I Post s) (hI : ∀ s, I s → I' s)
    (hPost : ∀ a s, Post a s → Post' a s) : d.Always serve I' Post' s := by
  induction d generalizing s with
  | ret a => exact ⟨hI s h.1, hPost a s h.2⟩
  | ask q next ih => exact ⟨hI s h.1, fun r s' hs => ih r (h.2 r s' hs)⟩

/-- The invariant holds at the end as well. -/
theorem Always.ends {d : Dialogue Q R α} {s : σ} (h : d.Always serve I Post s) :
    d.Always serve I (fun a s => I s ∧ Post a s) s := by
  induction d generalizing s with
  | ret a => exact ⟨h.1, h⟩
  | ask q next ih => exact ⟨h.1, fun r s' hs => ih r (h.2 r s' hs)⟩

/-- Two invariants hold together. -/
theorem Always.and {d : Dialogue Q R α} {s : σ} (h : d.Always serve I Post s) (h' : d.Always serve I' Post' s) :
    d.Always serve (fun s => I s ∧ I' s) (fun a s => Post a s ∧ Post' a s) s := by
  induction d generalizing s with
  | ret a => exact ⟨⟨h.1, h'.1⟩, h.2, h'.2⟩
  | ask q next ih => exact ⟨⟨h.1, h'.1⟩, fun r s' hs => ih r (h.2 r s' hs) (h'.2 r s' hs)⟩

/-- What every reply keeps, every dialogue keeps. -/
theorem Always.of_serve (keep : ∀ s q r s', I s → serve s q r s' → I s') {d : Dialogue Q R α} {s : σ} (h : I s) :
    d.Always serve I (fun _ => I) s := by
  induction d generalizing s with
  | ret a => exact ⟨h, h⟩
  | ask q next ih => exact ⟨h, fun r s' hs => ih r (keep s q r s' h hs)⟩

/-- The rule of sequence. -/
theorem Always.bind {f : α → Dialogue Q R β} {Post : β → σ → Prop} {d : Dialogue Q R α} {s : σ}
    (h : d.Always serve I (fun a s => (f a).Always serve I Post s) s) : (d.bind f).Always serve I Post s := by
  induction d generalizing s with
  | ret a => exact h.2
  | ask q next ih => exact ⟨h.1, fun r s' hs => ih r (h.2 r s' hs)⟩

theorem Always.map {f : α → β} {Post : β → σ → Prop} {d : Dialogue Q R α} {s : σ}
    (h : d.Always serve I (fun a s => Post (f a) s) s) : (d.map f).Always serve I Post s := by
  apply Always.bind
  exact h.ends

/-- A dialogue held with part `view` of a larger server keeps with it what it keeps with that
part, and a frame `F` of the rest that its requests leave alone. -/
theorem Always.via {τ : Type} {send : Q → Q'} {receive : ∀ q, R' (send q) → R q} {serve' : Server τ Q' R'}
    (view : τ → σ) (F : τ → Prop)
    (sees : ∀ t q r t', F t → serve' t (send q) r t' → F t' ∧ serve (view t) q (receive q r) (view t'))
    {d : Dialogue Q R α} {t : τ} (frame : F t) (h : d.Always serve I Post (view t)) :
    (d.via send receive).Always serve' (fun t => F t ∧ I (view t)) (fun a t => F t ∧ Post a (view t)) t := by
  induction d generalizing t with
  | ret a => exact ⟨⟨frame, h.1⟩, frame, h.2⟩
  | ask q next ih =>
    refine ⟨⟨frame, h.1⟩, fun r t' hs => ?_⟩
    obtain ⟨frame', hserve⟩ := sees t q r t' frame hs
    exact ih _ frame' (h.2 _ _ hserve)

theorem Sends.via {send : Q → Q'} {receive : ∀ q, R' (send q) → R q} {P : Q' → Prop} (hP : ∀ q, P (send q))
    (d : Dialogue Q R α) : (d.via send receive).Sends P := by
  induction d with
  | ret a => trivial
  | ask q next ih => exact ⟨hP q, fun r => ih _⟩

/-- A sequence sends what its parts send. -/
theorem Sends.bind {P : Q → Prop} {d : Dialogue Q R α} {f : α → Dialogue Q R β} (h : d.Sends P)
    (hf : ∀ a, (f a).Sends P) : (d.bind f).Sends P := by
  induction d with
  | ret a => exact hf a
  | ask q next ih => exact ⟨h.1, fun r => ih r (h.2 r)⟩

theorem Sends.map {P : Q → Prop} {d : Dialogue Q R α} {f : α → β} (h : d.Sends P) : (d.map f).Sends P :=
  h.bind fun _ => trivial

end Dialogue

end Conc
