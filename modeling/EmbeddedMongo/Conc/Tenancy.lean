import EmbeddedMongo.Conc.Dialogue
import EmbeddedMongo.Conc.System

/-!
# A resource one tenant at a time opens, uses and closes

Opening is a dialogue with the shared state as its server, and it may fail. While the resource
is open any number of users hold dialogues with it, interleaved request by request; closing it
ends them where they are. What the openings and the requests keep, each by itself, holds
through every sequence of tenancies.
-/

namespace Conc

open Dialogue

/-- Whether the resource is let. -/
inductive Tenure (Ω Q : Type) (R : Q → Type) (α : Type) where
  | closed
  | opening (options : Ω) (left : Dialogue Q R α)
  | opened

/-- An opening that is over: what it was for, its answer, and the state it left. -/
structure Opening (Ω α σ : Type) where
  options : Ω
  answer : α
  after : σ

/-- The resource, its tenant and the users; `openings` is history. -/
structure Tenancy (σ Ω Q : Type) (R : Q → Type) (α β : Type) where
  shared : σ
  tenure : Tenure Ω Q R α
  users : List (Dialogue Q R β)
  openings : List (Opening Ω α σ)

/-- How the resource is opened, which answers say that it is, and how it is used. -/
structure Lease (σ Ω Υ Q : Type) (R : Q → Type) (α β : Type) where
  serve : Server σ Q R
  opening : Ω → Dialogue Q R α
  succeeded : α → Bool
  use : Υ → Dialogue Q R β

variable {σ Ω Υ Q α β : Type} {R : Q → Type}

namespace Tenancy

/-- What its owner and its users do. -/
inductive Act (Ω Υ : Type) where
  | beginOpen (options : Ω)
  | talkOpen
  | endOpen
  | use (user : Υ)
  | talk (user : Nat)
  | close

/-- The owner opens, one dialogue at a time; users talk only to what is open. -/
inductive Step (lease : Lease σ Ω Υ Q R α β) : Tenancy σ Ω Q R α β → Act Ω Υ → Tenancy σ Ω Q R α β → Prop where
  | beginOpen {s : Tenancy σ Ω Q R α β} (options : Ω) (closed : s.tenure = .closed) :
      Step lease s (.beginOpen options) { s with tenure := .opening options (lease.opening options) }
  | talkOpen {s : Tenancy σ Ω Q R α β} {options : Ω} {q : Q} {next : R q → Dialogue Q R α} {r : R q} {shared : σ}
      (opening : s.tenure = .opening options (.ask q next)) (hs : lease.serve s.shared q r shared) :
      Step lease s .talkOpen { s with shared := shared, tenure := .opening options (next r) }
  | endOpen {s : Tenancy σ Ω Q R α β} {options : Ω} {a : α} (opening : s.tenure = .opening options (.ret a)) :
      Step lease s .endOpen
        { s with
          tenure := if lease.succeeded a = true then .opened else .closed
          openings := s.openings ++ [⟨options, a, s.shared⟩] }
  | use {s : Tenancy σ Ω Q R α β} (u : Υ) (opened : s.tenure = .opened) :
      Step lease s (.use u) { s with users := s.users ++ [lease.use u] }
  | talk {s : Tenancy σ Ω Q R α β} {i : Nat} {q : Q} {next : R q → Dialogue Q R β} {r : R q} {shared : σ}
      (opened : s.tenure = .opened) (hi : s.users[i]? = some (.ask q next)) (hs : lease.serve s.shared q r shared) :
      Step lease s (.talk i) { s with shared := shared, users := s.users.set i (next r) }
  | close {s : Tenancy σ Ω Q R α β} (opened : s.tenure = .opened) :
      Step lease s .close { s with tenure := .closed, users := [] }

end Tenancy

/-- Any number of terms, one after another. -/
def tenancy (lease : Lease σ Ω Υ Q R α β) (init : σ → Prop) : System (Tenancy σ Ω Q R α β) (Tenancy.Act Ω Υ) where
  init s := init s.shared ∧ s.tenure = .closed ∧ s.users = [] ∧ s.openings = []
  step := Tenancy.Step lease

namespace Tenancy

/-- What a lease has to be shown to keep: `Vacant` between tenancies and throughout every
opening, `Let` while the resource is open, whatever users send of `P`; and `Post` of every
opening. -/
structure Keeps (lease : Lease σ Ω Υ Q R α β) (init : σ → Prop) (Vacant Let : σ → Prop) (P : Q → Prop)
    (Post : Ω → α → σ → Prop) : Prop where
  start : ∀ s, init s → Vacant s
  opening : ∀ options s, Vacant s → (lease.opening options).Always lease.serve Vacant
    (fun a s' => Post options a s' ∧ (lease.succeeded a = true → Let s')) s
  sends : ∀ u, (lease.use u).Sends P
  use : ∀ s q r s', Let s → P q → lease.serve s q r s' → Let s'
  vacant : ∀ s, Let s → Vacant s

variable {lease : Lease σ Ω Υ Q R α β} {init Vacant Let : σ → Prop} {P : Q → Prop} {Post : Ω → α → σ → Prop}

/-- What holds between terms, while one begins and while it lasts. -/
structure Kept (lease : Lease σ Ω Υ Q R α β) (Vacant Let : σ → Prop) (P : Q → Prop) (Post : Ω → α → σ → Prop)
    (s : Tenancy σ Ω Q R α β) : Prop where
  vacant : Vacant s.shared
  opened : s.tenure = .opened → Let s.shared
  opening : ∀ options left, s.tenure = .opening options left → left.Always lease.serve Vacant
    (fun a s' => Post options a s' ∧ (lease.succeeded a = true → Let s')) s.shared
  sends : ∀ user ∈ s.users, user.Sends P
  openings : ∀ o ∈ s.openings, Post o.options o.answer o.after

/-- Each step keeps it. -/
theorem Kept.step {s s' : Tenancy σ Ω Q R α β} {a : Act Ω Υ} (keeps : Keeps lease init Vacant Let P Post)
    (h : Kept lease Vacant Let P Post s) (hs : Step lease s a s') : Kept lease Vacant Let P Post s' := by
  cases hs with
  | beginOpen options =>
    refine ⟨h.vacant, by simp, ?_, h.sends, h.openings⟩
    intro options' left ho
    cases ho
    exact keeps.opening options s.shared h.vacant
  | talkOpen opening hs =>
    have halways := (h.opening _ _ opening).2 _ _ hs
    refine ⟨halways.here, by simp, ?_, h.sends, h.openings⟩
    intro options' left ho
    cases ho
    exact halways
  | @endOpen options a opening =>
    obtain ⟨hvacant, hpost, hlet⟩ := h.opening _ _ opening
    refine ⟨h.vacant, ?_, ?_, h.sends, ?_⟩
    · intro ho
      dsimp only at ho
      split at ho
      · exact hlet ‹_›
      · cases ho
    · intro options' left ho
      dsimp only at ho
      split at ho <;> cases ho
    · intro o ho
      rcases List.mem_append.1 ho with ho | ho
      · exact h.openings o ho
      · obtain rfl := List.mem_singleton.1 ho
        exact hpost
  | use u opened =>
    refine ⟨h.vacant, h.opened, h.opening, ?_, h.openings⟩
    intro user hu
    rcases List.mem_append.1 hu with hu | hu
    · exact h.sends user hu
    · obtain rfl := List.mem_singleton.1 hu
      exact keeps.sends u
  | @talk i q next r shared opened hi hs =>
    have hsends := h.sends _ (List.mem_of_getElem? hi)
    have hlet := keeps.use _ _ _ _ (h.opened opened) hsends.1 hs
    refine ⟨keeps.vacant _ hlet, fun _ => hlet, ?_, ?_, h.openings⟩
    · intro options left ho
      simp [opened] at ho
    · intro user hu
      rcases List.mem_or_eq_of_mem_set hu with hu | rfl
      · exact h.sends user hu
      · exact hsends.2 r
  | close opened => exact ⟨h.vacant, by simp, by simp, by simp, h.openings⟩

/-- What every reply keeps of the shared state, every step keeps. -/
theorem Step.shared {I : σ → Prop} (keep : ∀ s q r s', I s → lease.serve s q r s' → I s')
    {s s' : Tenancy σ Ω Q R α β} {a : Act Ω Υ} (hs : Step lease s a s') (h : I s.shared) : I s'.shared := by
  cases hs with
  | talkOpen _ hs => exact keep _ _ _ _ h hs
  | talk _ _ hs => exact keep _ _ _ _ h hs
  | _ => exact h

/-- **The rule of the tenancies.** -/
theorem kept_of_reach (keeps : Keeps lease init Vacant Let P Post) {s : Tenancy σ Ω Q R α β}
    (h : (tenancy lease init).Reach s) : Kept lease Vacant Let P Post s := by
  refine h.induct (fun s hi => ?_) (fun _ _ _ _ ih hs => ih.step keeps hs)
  obtain ⟨hinit, htenure, husers, hopenings⟩ := hi
  exact ⟨keeps.start _ hinit, by simp [htenure], by simp [htenure], by simp [husers], by simp [hopenings]⟩

end Tenancy

end Conc
