import Mathlib

/-!
# Computations that may stop

A `Checked` computation ends in a value, in an error it reports, or in one of the ways a program
must never end: an index out of bounds, an overflow, a loop that does not come to its end.
`Safe` is the weakest precondition that rules the latter out: whatever the computation does, it
ends in a value that meets `P` or in a reported error.

Offsets are natural numbers below `2 ^ bits`, and additions are checked against that. A loop is
run on fuel; `Safe.loop` says how much is enough.
-/

namespace Fmt

/-- Why a computation stopped short of a value. -/
inductive Stop (ε : Type) where
  /-- It reported an error. -/
  | err (e : ε)
  | overflow
  | bounds
  /-- A loop was given up. -/
  | diverged
  deriving DecidableEq, Repr

/-- A computation that may stop early. -/
abbrev Checked (ε α : Type) := Except (Stop ε) α

namespace Checked

variable {ε α β σ : Type}

/-- `return Err(e)` -/
def fail (e : ε) : Checked ε α := .error (.err e)

/-- `ok_or(e)?` -/
def require (e : ε) : Option α → Checked ε α
  | some a => .ok a
  | none => fail e

/-- A fallible call, its error reported as `report` puts it. -/
def report {δ : Type} (report : δ → ε) : Except δ α → Checked ε α
  | .ok a => .ok a
  | .error e => fail (report e)

/-- `a + b` on offsets of `bits` bits. -/
def add (bits a b : Nat) : Checked ε Nat := if a + b < 2 ^ bits then .ok (a + b) else .error .overflow

/-- `a.checked_add(b)` -/
def checkedAdd (bits a b : Nat) : Option Nat := if a + b < 2 ^ bits then some (a + b) else none

/-- `l[a..b]` -/
def slice (a b : Nat) (l : List α) : Checked ε (List α) :=
  if a ≤ b ∧ b ≤ l.length then .ok ((l.drop a).take (b - a)) else .error .bounds

/-- `while cond { body }` -/
def loop (cond : σ → Bool) (body : σ → Checked ε σ) : Nat → σ → Checked ε σ
  | 0, s => if cond s = true then .error .diverged else .ok s
  | fuel + 1, s => if cond s = true then body s >>= loop cond body fuel else .ok s

/-- Ends in a value that meets `P`, or in a reported error. -/
def Safe (P : α → Prop) : Checked ε α → Prop
  | .ok a => P a
  | .error (.err _) => True
  | .error .overflow | .error .bounds | .error .diverged => False

@[simp] theorem ok_bind (a : α) (f : α → Checked ε β) : (.ok a >>= f : Checked ε β) = f a := rfl

@[simp] theorem require_some (e : ε) (a : α) : require e (some a) = .ok a := rfl

@[simp] theorem report_ok {δ : Type} (f : δ → ε) (a : α) : report f (.ok a) = .ok a := rfl

/-- A sequence that came to its end went through both parts. -/
theorem bind_eq_ok {x : Checked ε α} {f : α → Checked ε β} {b : β} :
    x >>= f = .ok b ↔ ∃ a, x = .ok a ∧ f a = .ok b := by
  cases x with
  | ok a => simp [bind, Except.bind]
  | error e => simp [bind, Except.bind]

/-- A sum that fits is made. -/
theorem add_eq_ok {bits a b : Nat} (h : a + b < 2 ^ bits) : (add bits a b : Checked ε Nat) = .ok (a + b) := if_pos h

/-- `checked_add` gives the sum just if it fits. -/
theorem checkedAdd_eq_some {bits a b c : Nat} : checkedAdd bits a b = some c ↔ a + b < 2 ^ bits ∧ c = a + b := by
  unfold checkedAdd
  split
  · rename_i h
    simp [h, eq_comm]
  · rename_i h
    simp [h]

/-- A slice within bounds is taken. -/
theorem slice_eq_ok {a b : Nat} {l : List α} (hab : a ≤ b) (hb : b ≤ l.length) :
    (slice a b l : Checked ε (List α)) = .ok ((l.drop a).take (b - a)) := if_pos ⟨hab, hb⟩

/-- A turn that is taken costs one unit of fuel. -/
theorem loop_turn {cond : σ → Bool} {body : σ → Checked ε σ} {s s' : σ} (hcond : cond s = true) (hbody : body s = .ok s')
    (fuel : Nat) : loop cond body (fuel + 1) s = loop cond body fuel s' := by
  rw [loop, if_pos hcond, hbody]
  rfl

/-- A loop whose condition is false is over, whatever fuel is left. -/
theorem loop_done {cond : σ → Bool} {body : σ → Checked ε σ} {s : σ} (hcond : cond s = false) (fuel : Nat) :
    loop cond body fuel s = .ok s := by
  cases fuel <;> simp [loop, hcond]

/-! ## What is safe -/

namespace Safe

variable {P : α → Prop} {Q : β → Prop}

theorem ok {a : α} (h : P a) : Safe P (.ok a : Checked ε α) := h

/-- A reported error is safe. -/
theorem fail {e : ε} : Safe P (Checked.fail e) := trivial

/-- What is safe is so for any weaker claim about its value. -/
theorem mono {P' : α → Prop} {x : Checked ε α} (h : Safe P x) (hP : ∀ a, P a → P' a) : Safe P' x := by
  match x, h with
  | .ok a, h => exact hP a h
  | .error (.err _), _ => trivial

/-- Safe parts make a safe sequence. -/
theorem bind {x : Checked ε α} {f : α → Checked ε β} (h : Safe P x) (hf : ∀ a, P a → Safe Q (f a)) :
    Safe Q (x >>= f) := by
  match x, h with
  | .ok a, h => exact hf a h
  | .error (.err _), _ => trivial

/-- The value is the one the computation gave. -/
theorem seen {x : Checked ε α} (h : Safe P x) : Safe (fun a => x = .ok a ∧ P a) x := by
  match x, h with
  | .ok a, h => exact ⟨rfl, h⟩
  | .error (.err _), _ => trivial

/-- A `require` is safe when what there is meets the claim. -/
theorem require {e : ε} {x : Option α} (h : ∀ a, x = some a → P a) : Safe P (Checked.require e x) := by
  cases x with
  | none => trivial
  | some a => exact h a rfl

/-- So is a `report`. -/
theorem report {δ : Type} {f : δ → ε} {x : Except δ α} (h : ∀ a, x = .ok a → P a) :
    Safe P (Checked.report f x) := by
  cases x with
  | ok a => exact h a rfl
  | error e => trivial

/-- An addition is safe when the sum fits. -/
theorem add {bits a b : Nat} {P : Nat → Prop} (h : a + b < 2 ^ bits) (hP : P (a + b)) :
    Safe P (Checked.add bits a b : Checked ε Nat) := by
  rw [add_eq_ok h]
  exact hP

/-- A slice is safe when it is within bounds. -/
theorem slice {a b : Nat} {l : List α} {P : List α → Prop} (hab : a ≤ b) (hb : b ≤ l.length)
    (hP : P ((l.drop a).take (b - a))) : Safe P (Checked.slice a b l : Checked ε (List α)) := by
  rw [slice_eq_ok hab hb]
  exact hP

/-- **The loop rule.** An invariant each turn keeps and a rank each turn lowers; fuel above the
rank the loop starts with is enough. -/
theorem loop {cond : σ → Bool} {body : σ → Checked ε σ} {I : σ → Prop} (rank : σ → Nat)
    (turn : ∀ s, I s → cond s = true → Safe (fun s' => I s' ∧ rank s' < rank s) (body s))
    {fuel : Nat} {s : σ} (start : I s) (enough : rank s < fuel) :
    Safe (fun s' => I s' ∧ cond s' = false) (loop cond body fuel s) := by
  induction fuel generalizing s with
  | zero => omega
  | succ fuel ih =>
    unfold Checked.loop
    split
    · rename_i hcond
      apply (turn s start hcond).bind
      rintro s' ⟨kept, lower⟩
      exact ih kept (by omega)
    · rename_i hcond
      exact ⟨start, by simpa using hcond⟩

end Safe

/-- It ends, and not in a way it must not. -/
theorem Safe.ends {P : α → Prop} {x : Checked ε α} (h : Safe P x) :
    (∃ a, x = .ok a) ∨ ∃ e, x = .error (.err e) := by
  match x, h with
  | .ok a, _ => exact .inl ⟨a, rfl⟩
  | .error (.err e), _ => exact .inr ⟨e, rfl⟩

/-- What a safe computation came to meets the claim. -/
theorem Safe.of_eq {P : α → Prop} {x : Checked ε α} (h : Safe P x) {a : α} (hx : x = .ok a) : P a := by
  subst hx
  exact h

end Checked

end Fmt
