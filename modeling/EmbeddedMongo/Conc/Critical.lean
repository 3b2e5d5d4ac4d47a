import EmbeddedMongo.Conc.Dialogue
import EmbeddedMongo.Conc.System
import EmbeddedMongo.Conc.Tally

/-!
# Sections under one mutex

Any number of callers, each of whom runs one dialogue from where it takes the mutex to where
it releases it, with the shared state as the server. The sections are serialised: a property
that each of them keeps, run from its start to its end by itself, holds whenever the mutex is
free, in every interleaving.
-/

namespace Conc

open Dialogue

/-- A section that has been run: its operation, the state it found, its answer, and the state
it left. -/
structure Entry (Op α σ : Type) where
  op : Op
  before : σ
  result : α
  after : σ

/-- Where a caller of the section is. -/
inductive Caller (σ Op Q : Type) (R : Q → Type) (α : Type) where
  /-- Before the mutex. -/
  | waiting (op : Op)
  | inside (op : Op) (before : σ) (left : Dialogue Q R α)
  | returned

/-- The callers and what they share; `log` is history, in the order of the releases. -/
structure Critical (σ Op Q : Type) (R : Q → Type) (α : Type) where
  shared : σ
  locked : Bool
  callers : List (Caller σ Op Q R α)
  log : List (Entry Op α σ)

variable {σ Op Q α : Type} {R : Q → Type}

namespace Critical

/-- What callers do. -/
inductive Act (Op : Type) where
  | call (op : Op)
  | acquire (caller : Nat)
  | talk (caller : Nat)
  | release (caller : Nat)

/-- The steps of callers around one mutex. Whoever has it talks to the shared state alone. -/
inductive Step (serve : Server σ Q R) (run : Op → Dialogue Q R α) :
    Critical σ Op Q R α → Act Op → Critical σ Op Q R α → Prop where
  | call {s : Critical σ Op Q R α} (op : Op) :
      Step serve run s (.call op) { s with callers := s.callers ++ [.waiting op] }
  | acquire {s : Critical σ Op Q R α} {c : Nat} {op : Op} (hc : s.callers[c]? = some (.waiting op))
      (free : s.locked = false) :
      Step serve run s (.acquire c)
        { s with locked := true, callers := s.callers.set c (.inside op s.shared (run op)) }
  | talk {s : Critical σ Op Q R α} {c : Nat} {op : Op} {before shared : σ} {q : Q} {next : R q → Dialogue Q R α}
      {r : R q} (hc : s.callers[c]? = some (.inside op before (.ask q next))) (hs : serve s.shared q r shared) :
      Step serve run s (.talk c)
        { s with shared := shared, callers := s.callers.set c (.inside op before (next r)) }
  | release {s : Critical σ Op Q R α} {c : Nat} {op : Op} {before : σ} {a : α}
      (hc : s.callers[c]? = some (.inside op before (.ret a))) :
      Step serve run s (.release c)
        { s with
          locked := false
          callers := s.callers.set c .returned
          log := s.log ++ [⟨op, before, a, s.shared⟩] }

end Critical

/-- Any number of callers of one section, from any initial state. -/
def critical (serve : Server σ Q R) (run : Op → Dialogue Q R α) (init : σ → Prop) :
    System (Critical σ Op Q R α) (Critical.Act Op) where
  init s := init s.shared ∧ s.locked = false ∧ s.callers = [] ∧ s.log = []
  step := Critical.Step serve run

namespace Caller

def isInside : Caller σ Op Q R α → Nat
  | .inside _ _ _ => 1
  | .waiting _ | .returned => 0

end Caller

namespace Critical

variable {serve : Server σ Q R} {run : Op → Dialogue Q R α} {J : List (Entry Op α σ) → σ → Prop}

/-- At most one caller is inside, the one the mutex is locked by; it goes on as its section
began; and with nobody inside `J` holds. -/
structure Serialised (serve : Server σ Q R) (J : List (Entry Op α σ) → σ → Prop) (s : Critical σ Op Q R α) :
    Prop where
  inside : tally Caller.isInside s.callers = if s.locked = true then 1 else 0
  free : s.locked = false → J s.log s.shared
  /-- The state the last section left, while the next one may be running. -/
  last : ∃ shared, J s.log shared
  goesOn : ∀ (c : Nat) (op : Op) (before : σ) (left : Dialogue Q R α),
    s.callers[c]? = some (.inside op before left) →
    left.Always serve (fun _ => True) (fun a after => J (s.log ++ [⟨op, before, a, after⟩]) after) s.shared

namespace Serialised

variable {s : Critical σ Op Q R α}

/-- With nobody inside, nobody is. -/
theorem nobody (h : Serialised serve J s) (free : s.locked = false) {c : Nat} {op : Op} {before : σ}
    {left : Dialogue Q R α} : s.callers[c]? ≠ some (.inside op before left) := by
  intro hc
  have hle := le_tally Caller.isInside hc
  have hzero := h.inside
  simp only [free, Bool.false_eq_true, if_false] at hzero
  simp only [Caller.isInside] at hle
  omega

/-- Who is inside is alone. -/
theorem alone (h : Serialised serve J s) {c d : Nat} {op op' : Op} {before before' : σ} {left left' : Dialogue Q R α}
    (hc : s.callers[c]? = some (.inside op before left)) (hd : s.callers[d]? = some (.inside op' before' left')) :
    d = c := by
  refine Classical.byContradiction fun hne => ?_
  have hle := add_le_tally Caller.isInside hc hd (Ne.symm hne)
  have hone := h.inside
  simp only [Caller.isInside] at hle
  split at hone <;> omega

/-- A caller inside has the mutex. -/
theorem locked (h : Serialised serve J s) {c : Nat} {op : Op} {before : σ} {left : Dialogue Q R α}
    (hc : s.callers[c]? = some (.inside op before left)) : s.locked = true := by
  cases hl : s.locked with
  | true => rfl
  | false => exact absurd hc (h.nobody hl)

/-- Each step keeps the log: the section that ends appends its own run. -/
theorem step {s' : Critical σ Op Q R α} {a : Act Op}
    (sections : ∀ log s op, J log s → (run op).Always serve (fun _ => True) (fun a s' => J (log ++ [⟨op, s, a, s'⟩]) s') s)
    (h : Serialised serve J s) (hs : Step serve run s a s') : Serialised serve J s' := by
  cases hs with
  | call op =>
    refine ⟨?_, h.free, h.last, ?_⟩
    · simpa [Caller.isInside] using h.inside
    · intro c op' before left hc
      apply h.goesOn c op' before left
      rw [List.getElem?_append] at hc
      split at hc
      · exact hc
      · have hmem := List.mem_of_getElem? hc
        simp at hmem
  | @acquire c op hc free =>
    have hinside := h.inside
    obtain ⟨hlt, -⟩ := List.getElem?_eq_some_iff.1 hc
    refine ⟨?_, ?_, h.last, ?_⟩
    · simp only [free, Bool.false_eq_true, if_false] at hinside
      simp [tally_set_eq hc, Caller.isInside, hinside]
    · intro hl
      simp at hl
    · intro d op' before left hd
      by_cases hcd : c = d
      · subst hcd
        rw [List.getElem?_set_self hlt] at hd
        cases hd
        exact sections _ _ _ (h.free free)
      · rw [List.getElem?_set_ne hcd] at hd
        exact absurd hd (h.nobody free)
  | @talk c op before shared q next r hc hs =>
    have hlocked := h.locked hc
    have halways := h.goesOn c op before _ hc
    obtain ⟨hlt, -⟩ := List.getElem?_eq_some_iff.1 hc
    refine ⟨?_, ?_, h.last, ?_⟩
    · simpa [tally_set_eq hc, Caller.isInside] using h.inside
    · intro hl
      simp [hlocked] at hl
    · intro d op' before' left hd
      by_cases hcd : c = d
      · subst hcd
        rw [List.getElem?_set_self hlt] at hd
        cases hd
        exact halways.2 r shared hs
      · rw [List.getElem?_set_ne hcd] at hd
        exact absurd (h.alone hc hd).symm hcd
  | @release c op before a hc =>
    have hlocked := h.locked hc
    have halways := h.goesOn c op before _ hc
    have hinside := h.inside
    refine ⟨?_, fun _ => halways.2, ⟨_, halways.2⟩, ?_⟩
    · simp only [hlocked, if_true] at hinside
      simp [tally_set_eq hc, Caller.isInside, hinside]
    · intro d op' before' left hd
      by_cases hcd : c = d
      · subst hcd
        obtain ⟨hlt, -⟩ := List.getElem?_eq_some_iff.1 hc
        rw [List.getElem?_set_self hlt] at hd
        cases hd
      · rw [List.getElem?_set_ne hcd] at hd
        exact absurd (h.alone hc hd).symm hcd

end Serialised

/-- **The rule of the sections.** What holds at the start and is kept by each section by itself
holds in every interleaving while the mutex is free. -/
theorem serialised_of_reach {init : σ → Prop} (start : ∀ s, init s → J [] s)
    (sections : ∀ log s op, J log s → (run op).Always serve (fun _ => True) (fun a s' => J (log ++ [⟨op, s, a, s'⟩]) s') s)
    {s : Critical σ Op Q R α} (h : (critical serve run init).Reach s) : Serialised serve J s := by
  refine h.induct (fun s hi => ?_) (fun _ _ _ _ ih hs => ih.step sections hs)
  obtain ⟨hinit, hlocked, hcallers, hlog⟩ := hi
  have hstart : J s.log s.shared := hlog ▸ start _ hinit
  refine ⟨?_, fun _ => hstart, ⟨_, hstart⟩, ?_⟩
  · simp [hcallers, hlocked]
  · intro c op before left hc
    simp [hcallers] at hc

end Critical

end Conc
